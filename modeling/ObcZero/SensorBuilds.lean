import ObcZero.LayoutAudit
import ObcZero.TelemetryCheck

/-!
The sensor validators of three builds (`flight/tlm/sensor.c` and, under
`harness/broken/`, `sensor_blind.c` and `sensor_paranoid.c`), and what the host reads in
a capture of the telemetry that each of them reports in.
-/

namespace ObcZero

open StepSystem

/-- What the three copies of `obc_sensor_sample` differ in. -/
structure Detectors where
  outside : Fin obcSensorCount → U16 → Bool
  stuck : U8 → Bool

def flightDetectors : Detectors :=
  { outside := fun sensor raw => decide (OutOfRange sensor raw)
    stuck := fun run => decide (RunStuck run) }

def blindDetectors : Detectors := { outside := fun _ _ => false, stuck := fun _ => false }

/-- Every reading is called out of range. -/
def paranoidDetectors : Detectors :=
  { outside := fun _ _ => true, stuck := fun run => decide (RunStuck run) }

/-- One turn of the loop of `obc_sensor_sample`, with a build's own detectors. -/
def Detectors.sampleSensor (detectors : Detectors) (readings : Fin obcSensorCount → U16)
    (result : ObcStatus × SensorState) (sensor : Fin obcSensorCount) : ObcStatus × SensorState :=
  let (worst, state) := result
  let raw := readings sensor
  let run := nextRun raw (state.lastRaw sensor) (state.run sensor) (state.seen sensor)
  let outside := detectors.outside sensor raw = true
  let stuck := detectors.stuck run = true
  let bad := (if outside then obcSensorFlagRange sensor else 0) |||
    (if stuck then obcSensorFlagStuck sensor else 0)
  (if bad ≠ 0 then .errUnstable else worst,
    { state with
      run := Function.update state.run sensor run
      lastRaw := Function.update state.lastRaw sensor raw
      seen := Function.update state.seen sensor 1
      rejectsRange :=
        if outside then
          Function.update state.rejectsRange sensor (state.rejectsRange sensor + 1)
        else state.rejectsRange
      rejectsStuck :=
        if stuck then
          Function.update state.rejectsStuck sensor (state.rejectsStuck sensor + 1)
        else state.rejectsStuck
      flags := state.flags &&&
        ~~~(obcSensorFlagRange sensor ||| obcSensorFlagStuck sensor |||
          obcSensorFlagNodata sensor) ||| bad
      value := Function.update state.value sensor (if bad ≠ 0 then obcSensorInvalid else raw) })

def Detectors.sample (detectors : Detectors) (readings : Fin obcSensorCount → U16)
    (state : SensorState) : ObcStatus × SensorState :=
  (List.finRange obcSensorCount).foldl (detectors.sampleSensor readings) (.ok, state)

theorem flightDetectors_sample : flightDetectors.sample = obcSensorSample := by
  have each : flightDetectors.sampleSensor = sampleSensor := by
    funext readings result sensor
    simp only [Detectors.sampleSensor, sampleSensor, flightDetectors, decide_eq_true_eq]
  funext readings state
  rw [Detectors.sample, each]
  rfl

def Detectors.sampled (detectors : Detectors) (place : Fin obcSensorCount) (raw : U16)
    (sensor : Sensor) : Sensor :=
  let run := nextRun raw sensor.lastRaw sensor.run sensor.seen
  { value :=
      if detectors.outside place raw = true ∨ detectors.stuck run = true then obcSensorInvalid
      else raw
    lastRaw := raw
    run := run
    seen := 1
    outside := detectors.outside place raw
    stuck := detectors.stuck run
    nodata := false }

theorem flightDetectors_sampled (place : Fin obcSensorCount) (raw : U16) (sensor : Sensor) :
    flightDetectors.sampled place raw sensor = sensor.sampled place raw := by
  simp only [Detectors.sampled, Sensor.sampled, flightDetectors, decide_eq_true_eq]

theorem Detectors.sampleSensor_one (detectors : Detectors) (readings : Fin obcSensorCount → U16)
    (worst : ObcStatus) (state : SensorState) (sensor : Fin obcSensorCount) :
    let result := detectors.sampleSensor readings (worst, state) sensor
    result.2.one sensor = detectors.sampled sensor (readings sensor) (state.one sensor) ∧
      ∀ other, other ≠ sensor → result.2.one other = state.one other := by
  intro result
  refine ⟨?_, fun other apart => ?_⟩
  · simp only [result, Detectors.sampleSensor, SensorState.one, Function.update_self,
      bad_ne_zero_iff, sampledFlags_getLsbD _ _ _ sensor sensor (show 0 < 3 by decide),
      sampledFlags_getLsbD _ _ _ sensor sensor (show 1 < 3 by decide),
      sampledFlags_getLsbD _ _ _ sensor sensor (show 2 < 3 by decide)]
    simp only [↓reduceIte, decide_true, Bool.and_true, Bool.and_false, Bool.or_false,
      Bool.false_or, decide_false, OfNat.ofNat_ne_zero, OfNat.ofNat_ne_one, one_ne_zero,
      zero_ne_one, Bool.decide_eq_true]
    rfl
  · simp only [result, Detectors.sampleSensor, SensorState.one,
      sampledFlags_getLsbD _ _ _ sensor other (show 0 < 3 by decide),
      sampledFlags_getLsbD _ _ _ sensor other (show 1 < 3 by decide),
      sampledFlags_getLsbD _ _ _ sensor other (show 2 < 3 by decide), if_neg apart,
      Function.update_of_ne apart]

theorem Detectors.sample_one (detectors : Detectors) (readings : Fin obcSensorCount → U16)
    (state : SensorState) (sensor : Fin obcSensorCount) :
    (detectors.sample readings state).2.one sensor =
      detectors.sampled sensor (readings sensor) (state.one sensor) :=
  (foldl_places (detectors.sampleSensor readings) (fun result sensor => result.2.one sensor)
    (fun sensor => detectors.sampled sensor (readings sensor))
    (fun result sensor => (detectors.sampleSensor_one readings result.1 result.2 sensor).1)
    (fun result sensor => (detectors.sampleSensor_one readings result.1 result.2 sensor).2)
    (List.nodup_finRange obcSensorCount) (.ok, state)).1 sensor (List.mem_finRange sensor)

/-- What a dispatch of the telemetry task finds: the raw readings, whatever else the frame
reports, and the text written since the frame before. -/
structure TlmDispatch where
  raw : Fin obcSensorCount → U16
  others : TlmReadings
  command : CmdState
  text : ConsoleText

inductive TlmTurn
  | dispatch (dispatch : TlmDispatch)
  | subsystemReset

structure TlmSide where
  sensors : SensorState
  tlm : TlmState

def TlmDispatch.readings (dispatch : TlmDispatch) (sensors : SensorState) : TlmReadings :=
  { dispatch.others with sensorFlags := sensors.flags, sensorValue := sensors.value }

/-- `task_telemetry` and its reset, on a port that takes every frame whole: what a refusal leaves
on the line and in the counts of drops is left out. -/
def telemetryTurn (detectors : Detectors) : TlmTurn → TlmSide → TlmSide
  | .dispatch dispatch, side =>
      let sensors := (detectors.sample dispatch.raw side.sensors).2
      { sensors := sensors
        tlm := (obcTlmEmit (dispatch.readings sensors) dispatch.command .ok side.tlm).2 }
  | .subsystemReset, side =>
      { sensors := obcSensorInit side.sensors, tlm := obcTlmSubsystemReset side.tlm }

def telemetryReports (detectors : Detectors) : TlmTurn → TlmSide → List Report
  | .dispatch dispatch, side =>
      if audited : side.tlm.layoutOk = true then
        [{ text := dispatch.text
           readings := dispatch.readings (detectors.sample dispatch.raw side.sensors).2
           command := dispatch.command
           state := side.tlm
           audited := audited }]
      else []
  | .subsystemReset, _ => []

/-- Memory as `obc_tlm_init` leaves it. -/
def begunTelemetry (sensors : SensorState) (tlm : TlmState) : TlmSide :=
  let (_, sensors, tlm) := obcTlmInit obcTlmFields sensors tlm
  { sensors := sensors, tlm := tlm }

def telemetryCapture (detectors : Detectors) (turns : List TlmTurn) (last : ConsoleText)
    (side : TlmSide) : List U8 :=
  captureOf (emissions (telemetryTurn detectors) (telemetryReports detectors) turns side) last

/-- For every dispatch in turn, the readings since the last reset, latest first. -/
def histories : List (Fin obcSensorCount → U16) → List TlmTurn →
    List (List (Fin obcSensorCount → U16))
  | _, [] => []
  | past, .dispatch dispatch :: rest =>
      (dispatch.raw :: past) :: histories (dispatch.raw :: past) rest
  | _, .subsystemReset :: rest => histories [] rest

/-- The sensors behind a validator once it has taken these readings, latest first. -/
def Detectors.after (detectors : Detectors) (past : List (Fin obcSensorCount → U16))
    (place : Fin obcSensorCount) : Sensor :=
  past.foldr (fun readings sensor => detectors.sampled place (readings place) sensor) neverSampled

theorem begunTelemetry_audited (sensors : SensorState) (tlm : TlmState) :
    (begunTelemetry sensors tlm).tlm.layoutOk = true := by
  have accepted : (obcTlmInit obcTlmFields sensors tlm).1 = .ok := rfl
  exact obcTlmInit_layoutOk accepted

/-- Telemetry that reports, whose sensors have taken these readings since their reset. -/
structure Took (detectors : Detectors) (past : List (Fin obcSensorCount → U16))
    (side : TlmSide) : Prop where
  sensors : side.sensors.one = detectors.after past
  audited : side.tlm.layoutOk = true

theorem took_begun (detectors : Detectors) (sensors : SensorState) (tlm : TlmState) :
    Took detectors [] (begunTelemetry sensors tlm) :=
  ⟨funext (obcSensorInit_one sensors), begunTelemetry_audited sensors tlm⟩

section Session

variable {detectors : Detectors} {past : List (Fin obcSensorCount → U16)} {side : TlmSide}
  (took : Took detectors past side)

include took

theorem Took.reset : Took detectors [] (telemetryTurn detectors .subsystemReset side) :=
  ⟨funext (obcSensorInit_one side.sensors), took.audited⟩

theorem Took.sampled (dispatch : TlmDispatch) :
    (detectors.sample dispatch.raw side.sensors).2.one = detectors.after (dispatch.raw :: past) := by
  funext place
  rw [detectors.sample_one, took.sensors]
  rfl

theorem Took.emitted (dispatch : TlmDispatch) :
    let after := telemetryTurn detectors (.dispatch dispatch) side
    after.tlm.layoutOk = true ∧ after.tlm.seq = side.tlm.seq + 1 ∧
      after.tlm.drops = side.tlm.drops := by
  simp [telemetryTurn, obcTlmEmit, took.audited]

theorem Took.dispatched (dispatch : TlmDispatch) :
    Took detectors (dispatch.raw :: past) (telemetryTurn detectors (.dispatch dispatch) side) :=
  ⟨took.sampled dispatch, (took.emitted dispatch).1⟩

theorem Took.reports (dispatch : TlmDispatch) :
    telemetryReports detectors (.dispatch dispatch) side =
      [{ text := dispatch.text
         readings := dispatch.readings (detectors.sample dispatch.raw side.sensors).2
         command := dispatch.command
         state := side.tlm
         audited := took.audited }] := by
  rw [telemetryReports, dif_pos took.audited]

end Session

theorem shows_session {detectors : Detectors} (turns : List TlmTurn)
    {past : List (Fin obcSensorCount → U16)} {side : TlmSide} (took : Took detectors past side)
    (position : Nat) :
    List.Forall₂ Shows
      (expectedFrames position
        (emissions (telemetryTurn detectors) (telemetryReports detectors) turns side))
      ((histories past turns).map detectors.after) := by
  induction turns generalizing past side position with
  | nil => exact .nil
  | cons turn rest ih =>
      cases turn with
      | subsystemReset => exact ih took.reset position
      | dispatch dispatch =>
          rw [emissions, took.reports dispatch]
          refine .cons ?_ (ih (took.dispatched dispatch) _)
          rw [← took.sampled dispatch]
          exact shows_emitted rfl rfl _ _ _

theorem tells_emitted (readings : TlmReadings) (command : CmdState) (state : TlmState)
    (offset : Nat) :
    Tells { offset := offset, values := emittedValues readings command state }
      state.seq.toNat (saturated 2 state.drops) :=
  ⟨rfl, rfl⟩

/-- After a frame, the next one is numbered zero or one more, with as many drops. -/
def Continues (previous : TlmFrame) (tlm : TlmState) : Prop :=
  ∃ before, Tells previous before (saturated 2 tlm.drops) ∧
    (tlm.seq = 0 ∨ tlm.seq.toNat = before + 1)

theorem continues_emitted {tlm after : TlmState} (seq : after.seq = tlm.seq + 1)
    (drops : after.drops = tlm.drops) (readings : TlmReadings) (command : CmdState)
    (offset : Nat) :
    Continues { offset := offset, values := emittedValues readings command tlm } after := by
  refine ⟨tlm.seq.toNat, ?_, ?_⟩
  · rw [drops]
    exact tells_emitted readings command tlm offset
  · rw [seq]
    exact next_seq tlm.seq

theorem chain_session {detectors : Detectors} (turns : List TlmTurn)
    {past : List (Fin obcSensorCount → U16)} {side : TlmSide} (took : Took detectors past side)
    (position : Nat) {previous : TlmFrame} (continues : Continues previous side.tlm) :
    (previous :: expectedFrames position
      (emissions (telemetryTurn detectors) (telemetryReports detectors) turns side)).IsChain
        Passes := by
  induction turns generalizing past side position previous with
  | nil => exact List.isChain_singleton previous
  | cons turn rest ih =>
      obtain ⟨before, told, numbered⟩ := continues
      cases turn with
      | subsystemReset => exact ih took.reset position ⟨before, told, .inl rfl⟩
      | dispatch dispatch =>
          obtain ⟨_, seq, drops⟩ := took.emitted dispatch
          rw [emissions, took.reports dispatch]
          refine List.isChain_cons_cons.mpr ⟨?_, ih (took.dispatched dispatch) _ ?_⟩
          · have tells := tells_emitted
              (dispatch.readings (detectors.sample dispatch.raw side.sensors).2) dispatch.command
              side.tlm (position + dispatch.text.bytes.length)
            rcases numbered with zero | next
            · rw [zero] at tells
              exact passes_zero told tells
            · rw [next] at tells
              exact @passes_shed previous _ before _ told 0 tells
          · exact continues_emitted seq drops _ _ _

theorem checkSequence_session {detectors : Detectors} (turns : List TlmTurn)
    {past : List (Fin obcSensorCount → U16)} {side : TlmSide} (took : Took detectors past side)
    (position : Nat) :
    ∃ resets, checkSequence (expectedFrames position
      (emissions (telemetryTurn detectors) (telemetryReports detectors) turns side)) =
        .ok resets := by
  rw [checkSequence_ok_iff]
  induction turns generalizing past side position with
  | nil => exact List.isChain_nil
  | cons turn rest ih =>
      cases turn with
      | subsystemReset => exact ih took.reset position
      | dispatch dispatch =>
          obtain ⟨_, seq, drops⟩ := took.emitted dispatch
          rw [emissions, took.reports dispatch]
          exact chain_session rest (took.dispatched dispatch) _
            (continues_emitted seq drops _ _ _)

/-- What the injected case, if there is one, asks of the sensors that the frames show. -/
def CaseShown (expect : Option SensorCase) (sensor : Fin obcSensorCount)
    (shown : List (Fin obcSensorCount → Sensor)) : Prop :=
  match expect with
  | none => True
  | some .honest =>
      (∃ sensors ∈ shown, (sensors sensor).flagged = false) ∧
        ∀ sensors ∈ shown, (sensors sensor).flagged = false →
          ¬OutOfRange sensor (sensors sensor).value
  | some .range =>
      (∃ sensors ∈ shown, (sensors sensor).outside = true) ∧
        ∀ sensors ∈ shown, (sensors sensor).outside = true →
          (sensors sensor).stuck = false ∧ (sensors sensor).value = obcSensorInvalid
  | some .stuck =>
      (∃ sensors ∈ shown, (sensors sensor).stuck = true) ∧
        (∀ sensors ∈ shown.dropWhile fun sensors => !(sensors sensor).stuck,
          (sensors sensor).value = obcSensorInvalid) ∧
        ∀ first ∈ shown.head?, (first sensor).stuck = false

theorem caseCheck_ok_iff (case : SensorCase) (sensor : Fin obcSensorCount)
    {frames : List TlmFrame} {shown : List (Fin obcSensorCount → Sensor)}
    (shows : List.Forall₂ Shows frames shown) :
    case.check frames flightSensors sensor = .ok () ↔ CaseShown (some case) sensor shown := by
  cases case with
  | honest => exact checkHonest_ok_iff shows sensor
  | range => exact checkOutOfRange_ok_iff shows sensor
  | stuck => exact checkStuck_ok_iff shows sensor

theorem tlmExit_eq_zero_iff (capture : List U8) (expect : Option SensorCase)
    (sensor : Fin obcSensorCount) (least : Nat) {frames : List TlmFrame} {resets : Nat}
    {shown : List (Fin obcSensorCount → Sensor)}
    (found : findFrames capture flightTlm = some frames) (counted : checkSequence frames = .ok resets)
    (shows : List.Forall₂ Shows frames shown) :
    tlmExit capture flightTlm flightSensors expect sensor least = 0 ↔
      least ≤ shown.length ∧ (∀ sensors ∈ shown, ∀ place, BothDirections place (sensors place)) ∧
        CaseShown expect sensor shown := by
  have present : checkFramesPresent frames least = .ok () ↔ least ≤ shown.length := by
    rw [checkFramesPresent, failIf_ok_iff, not_lt, shows.length_eq]
  rw [← present, ← checkBothDirections_ok_iff shows]
  simp only [tlmExit, tlmCheck, found, counted]
  cases checkFramesPresent frames least with
  | error raised => simp [bind, Except.bind]
  | ok done =>
      cases checkBothDirections frames flightSensors with
      | error raised => simp [bind, Except.bind]
      | ok done =>
          cases expect with
          | none => simp [CaseShown, bind, Except.bind, pure, Except.pure]
          | some case =>
              rw [← caseCheck_ok_iff case sensor shows]
              cases checked : case.check frames flightSensors sensor with
              | error raised => simp [checked, bind, Except.bind]
              | ok done => simp [checked, bind, Except.bind, pure, Except.pure]

/-- The host's verdict on a session, in terms of the sensors behind the validator. -/
theorem sessionExit_eq_zero_iff (detectors : Detectors) (turns : List TlmTurn)
    (last : ConsoleText) (sensors : SensorState) (tlm : TlmState) (expect : Option SensorCase)
    (sensor : Fin obcSensorCount) (least : Nat) :
    let capture := telemetryCapture detectors turns last (begunTelemetry sensors tlm)
    let shown := (histories [] turns).map detectors.after
    tlmExit capture flightTlm flightSensors expect sensor least = 0 ↔
      least ≤ (histories [] turns).length ∧
        (∀ sensors ∈ shown, ∀ place, BothDirections place (sensors place)) ∧
        CaseShown expect sensor shown := by
  intro capture shown
  have took := took_begun detectors sensors tlm
  obtain ⟨resets, counted⟩ := checkSequence_session turns took 0
  have verdict := tlmExit_eq_zero_iff capture expect sensor least (findFrames_capture _ last)
    counted (shows_session turns took 0)
  rwa [List.length_map] at verdict

end ObcZero
