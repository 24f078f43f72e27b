import ObcZero.StepSystem
import ObcZero.TelemetryCore

/-!
The sensors (`flight/tlm/sensor.h`, `flight/tlm/sensor.c`). The raw counts that the
harness writes arrive as the input of a sample.
-/

namespace ObcZero

def obcSensorInvalid : U16 := 0xFFFF

abbrev obcSensorFlagBits : Nat := 3

/-- The flag bits are packed sensor by sensor. -/
def obcSensorFlag (sensor kind : Nat) : U32 :=
  (1 : U32) <<< (sensor * obcSensorFlagBits + kind)

def obcSensorFlagRange (sensor : Nat) : U32 := obcSensorFlag sensor 0
def obcSensorFlagStuck (sensor : Nat) : U32 := obcSensorFlag sensor 1
def obcSensorFlagNodata (sensor : Nat) : U32 := obcSensorFlag sensor 2

abbrev obcSensorStuckLimit : Nat := 8

structure ObcSensorDesc where
  name : String
  min : U16
  max : U16

def obcSensorDesc : Fin obcSensorCount → ObcSensorDesc
  | 0 => { name := "temp", min := 200, max := 3800 }
  | 1 => { name := "rate", min := 100, max := 900 }

structure SensorState where
  value : Fin obcSensorCount → U16
  flags : U32
  rejectsRange : Fin obcSensorCount → U32
  rejectsStuck : Fin obcSensorCount → U32
  lastRaw : Fin obcSensorCount → U16
  run : Fin obcSensorCount → U8
  seen : Fin obcSensorCount → U8

/-- The statics as the startup code leaves them, before any call. -/
def bootSensors : SensorState :=
  { value := fun _ => 0, flags := 0, rejectsRange := fun _ => 0, rejectsStuck := fun _ => 0
    lastRaw := fun _ => 0, run := fun _ => 0, seen := fun _ => 0 }

def initSensor (state : SensorState) (sensor : Fin obcSensorCount) : SensorState :=
  { state with
    value := Function.update state.value sensor obcSensorInvalid
    lastRaw := Function.update state.lastRaw sensor 0
    run := Function.update state.run sensor 0
    seen := Function.update state.seen sensor 0
    flags := state.flags ||| obcSensorFlagNodata sensor }

def obcSensorInit (state : SensorState) : SensorState :=
  (List.finRange obcSensorCount).foldl initSensor { state with flags := 0 }

/-- The run length counts rejected readings too, and stops at 255. -/
def nextRun (raw lastRaw : U16) (run seen : U8) : U8 :=
  if seen ≠ 0 ∧ raw = lastRaw then (if run < 0xFF then run + 1 else run) else 1

def OutOfRange (sensor : Fin obcSensorCount) (raw : U16) : Prop :=
  raw < (obcSensorDesc sensor).min ∨ (obcSensorDesc sensor).max < raw

instance (sensor : Fin obcSensorCount) (raw : U16) : Decidable (OutOfRange sensor raw) :=
  inferInstanceAs (Decidable (_ ∨ _))

def RunStuck (run : U8) : Prop := obcSensorStuckLimit ≤ run.toNat

instance (run : U8) : Decidable (RunStuck run) := inferInstanceAs (Decidable (_ ≤ _))

/-- One turn of the loop of `obc_sensor_sample`, which carries the worst status. -/
def sampleSensor (readings : Fin obcSensorCount → U16) (result : ObcStatus × SensorState)
    (sensor : Fin obcSensorCount) : ObcStatus × SensorState :=
  let (worst, state) := result
  let raw := readings sensor
  let run := nextRun raw (state.lastRaw sensor) (state.run sensor) (state.seen sensor)
  let outside := OutOfRange sensor raw
  let stuck := RunStuck run
  let bad := (if outside then obcSensorFlagRange sensor else 0) |||
    (if stuck then obcSensorFlagStuck sensor else 0)
  (if bad ≠ 0 then .errUnstable else worst,
    { state with
      run := Function.update state.run sensor run
      lastRaw := Function.update state.lastRaw sensor raw
      seen := Function.update state.seen sensor 1
      rejectsRange :=
        if outside then
          Function.update state.rejectsRange sensor (state.rejectsRange sensor + 1)
        else state.rejectsRange
      rejectsStuck :=
        if stuck then
          Function.update state.rejectsStuck sensor (state.rejectsStuck sensor + 1)
        else state.rejectsStuck
      flags := state.flags &&&
        ~~~(obcSensorFlagRange sensor ||| obcSensorFlagStuck sensor |||
          obcSensorFlagNodata sensor) ||| bad
      value := Function.update state.value sensor (if bad ≠ 0 then obcSensorInvalid else raw) })

def obcSensorSample (readings : Fin obcSensorCount → U16) (state : SensorState) :
    ObcStatus × SensorState :=
  (List.finRange obcSensorCount).foldl (sampleSensor readings) (.ok, state)

inductive SensorInput
  | init
  | sample (readings : Fin obcSensorCount → U16)

def sensorStep : SensorInput → SensorState → SensorState
  | .init, state => obcSensorInit state
  | .sample readings, state => (obcSensorSample readings state).2

end ObcZero
