import ObcZero.SensorReport
import ObcZero.SequenceCheck

/-!
The host's checks of a telemetry capture (`harness/runner/tlm_check.py`): that a flagged
reading is withheld and an unflagged one in range, and what each injected sensor case has
to show.
-/

namespace ObcZero

structure SensorRange where
  name : String
  low : Nat
  high : Nat

/-- What `load_layout` reads of the sensors. -/
structure SensorLayout where
  ranges : List SensorRange
  stuckLimit : Nat

def sensorRange (sensor : Fin obcSensorCount) : SensorRange :=
  { name := (obcSensorDesc sensor).name, low := (obcSensorDesc sensor).min.toNat
    high := (obcSensorDesc sensor).max.toNat }

def flightSensors : SensorLayout :=
  { ranges := (List.finRange obcSensorCount).map sensorRange, stuckLimit := obcSensorStuckLimit }

def flagBits : Nat := 3
def bitRange : Nat := 0
def bitStuck : Nat := 1
def bitNodata : Nat := 2
def sensorInvalid : Nat := 0xFFFF

/-- What a check can raise: a failed property, a lookup's error, a failed assertion, an
index past the end of a list, or the error of a search without a layout. -/
inductive CaptureError
  | check (error : CheckError)
  | assertionError
  | indexError
  | layoutError
  deriving DecidableEq, Repr

def failIf (failed : Prop) [Decidable failed] (message : String) : Except CaptureError Unit :=
  if failed then .error (.check (.checkFailed message)) else .ok ()

def flagSet (frame : TlmFrame) (sensor bit : Nat) : Except CaptureError Bool :=
  match frame.int "sensor_flags" with
  | .error error => .error (.check error)
  | .ok flags => .ok (flags >>> (sensor * flagBits + bit) &&& 1 != 0)

def reading (frame : TlmFrame) (sensor : Nat) : Except CaptureError Nat :=
  match frame.values.lookup "sensor" with
  | none => .error (.check (.keyError "sensor"))
  | some (.one _) => .error .assertionError
  | some (.many readings) =>
      match readings[sensor]? with
      | none => .error .indexError
      | some value => .ok value

/-- Any of the three flags, asked for in turn until one is set. -/
def anyFlag (frame : TlmFrame) (sensor : Nat) : Except CaptureError Bool := do
  if ← flagSet frame sensor bitRange then return true
  if ← flagSet frame sensor bitStuck then return true
  flagSet frame sensor bitNodata

def SensorLayout.range (layout : SensorLayout) (sensor : Nat) : Except CaptureError SensorRange :=
  match layout.ranges[sensor]? with
  | none => .error .indexError
  | some range => .ok range

def checkFramesPresent (frames : List TlmFrame) (least : Nat) : Except CaptureError Unit :=
  failIf (frames.length < least) s!"{frames.length} frames decoded, expected at least {least}"

def checkOneDirection (frame : TlmFrame) (sensor : Nat) (range : SensorRange) :
    Except CaptureError Unit := do
  let value ← reading frame sensor
  let flagged ← anyFlag frame sensor
  failIf (flagged ∧ value ≠ sensorInvalid)
    (s!"frame at {frame.offset}: sensor {range.name} is flagged but carries " ++
      s!"{value}, so a rejected reading was published anyway")
  failIf (!flagged ∧ ¬(range.low ≤ value ∧ value ≤ range.high))
    (s!"frame at {frame.offset}: sensor {range.name} carries {value}, outside " ++
      s!"[{range.low},{range.high}], with no flag set — the flag is decorative")

def checkBothDirections (frames : List TlmFrame) (layout : SensorLayout) :
    Except CaptureError Unit :=
  frames.forM fun frame => layout.ranges.zipIdx.forM fun (range, sensor) =>
    checkOneDirection frame sensor range

def framesWhere (keep : TlmFrame → Except CaptureError Bool) :
    List TlmFrame → Except CaptureError (List TlmFrame)
  | [] => return []
  | frame :: rest => do
      let kept ← keep frame
      let later ← framesWhere keep rest
      return if kept then frame :: later else later

def unflagged (sensor : Nat) (frame : TlmFrame) : Except CaptureError Bool := do
  return !(← anyFlag frame sensor)

def checkClean (sensor : Nat) (range : SensorRange) (frame : TlmFrame) :
    Except CaptureError Unit := do
  let value ← reading frame sensor
  failIf (¬(range.low ≤ value ∧ value ≤ range.high))
    (s!"frame at {frame.offset}: unflagged reading {value} is outside " ++
      s!"[{range.low},{range.high}]")

def checkHonest (frames : List TlmFrame) (layout : SensorLayout) (sensor : Nat) :
    Except CaptureError Unit := do
  let clean ← framesWhere (unflagged sensor) frames
  let range ← layout.range sensor
  failIf (clean = [])
    (s!"sensor {range.name} was fed values inside its own declared range and was " ++
      "flagged in every frame: the validator rejects good readings")
  clean.forM (checkClean sensor range)

def checkCaught (sensor : Nat) (range : SensorRange) (frame : TlmFrame) :
    Except CaptureError Unit := do
  let stuck ← flagSet frame sensor bitStuck
  failIf stuck
    (s!"frame at {frame.offset}: sensor {range.name} is flagged stuck as well as " ++
      "out of range, but the injected values varied — the case tests two detectors at once " ++
      "and proves neither")
  let value ← reading frame sensor
  failIf (value ≠ sensorInvalid)
    s!"frame at {frame.offset}: out-of-range reading was published as {value}"

def checkOutOfRange (frames : List TlmFrame) (layout : SensorLayout) (sensor : Nat) :
    Except CaptureError Unit := do
  let range ← layout.range sensor
  let caught ← framesWhere (fun frame => flagSet frame sensor bitRange) frames
  failIf (caught = []) s!"sensor {range.name} was fed values outside its range and never flagged"
  caught.forM (checkCaught sensor range)

/-- The frames from the first one flagged stuck on. -/
def stuckFrom (sensor : Nat) : List TlmFrame → Except CaptureError (List TlmFrame)
  | [] => return []
  | frame :: rest => do
      if ← flagSet frame sensor bitStuck then return frame :: rest
      stuckFrom sensor rest

def checkWithheld (sensor : Nat) (frame : TlmFrame) : Except CaptureError Unit := do
  let value ← reading frame sensor
  failIf (value ≠ sensorInvalid)
    s!"frame at {frame.offset}: a stuck reading was published as {value}"

def checkFirstFrame (sensor : Nat) (range : SensorRange) (stuckLimit : Nat) :
    List TlmFrame → Except CaptureError Unit
  | [] => .error .indexError
  | first :: _ => do
      let stuck ← flagSet first sensor bitStuck
      failIf stuck
        (s!"sensor {range.name} was flagged stuck in the very first frame, before " ++
          s!"{stuckLimit} samples could have been taken: the detector fires on repetition it " ++
          "has not yet seen")

def checkStuck (frames : List TlmFrame) (layout : SensorLayout) (sensor : Nat) :
    Except CaptureError Unit := do
  let range ← layout.range sensor
  let stuck ← stuckFrom sensor frames
  failIf (stuck = [])
    (s!"sensor {range.name} was held at one plausible value for {frames.length} " ++
      s!"frames and never flagged stuck (threshold {layout.stuckLimit} samples)")
  stuck.forM (checkWithheld sensor)
  checkFirstFrame sensor range layout.stuckLimit frames

inductive SensorCase
  | honest
  | range
  | stuck
  deriving DecidableEq, Repr

def SensorCase.check : SensorCase → List TlmFrame → SensorLayout → Nat → Except CaptureError Unit
  | .honest => checkHonest
  | .range => checkOutOfRange
  | .stuck => checkStuck

/-- `main`, from the capture on: the resets it counts, or what it raises. -/
def tlmCheck (capture : List U8) (layout : TlmLayout) (sensors : SensorLayout)
    (expect : Option SensorCase) (sensor least : Nat) : Except CaptureError Nat := do
  match findFrames capture layout with
  | none => .error .layoutError
  | some frames =>
      checkFramesPresent frames least
      let resets ←
        match checkSequence frames with
        | .error error => .error (.check error)
        | .ok resets => .ok resets
      checkBothDirections frames sensors
      match expect with
      | none => return resets
      | some case =>
          case.check frames sensors sensor
          return resets

/-- The exit status of the check: an error that `main` does not catch ends it with one too. -/
def tlmExit (capture : List U8) (layout : TlmLayout) (sensors : SensorLayout)
    (expect : Option SensorCase) (sensor least : Nat) : Nat :=
  match tlmCheck capture layout sensors expect sensor least with
  | .ok _ => 0
  | .error _ => 1

theorem failIf_ok_iff (failed : Prop) [Decidable failed] (message : String) :
    failIf failed message = .ok () ↔ ¬failed := by
  by_cases holds : failed <;> simp [failIf, holds]

theorem ok_then {Value Next : Type} (value : Value) (next : Value → Except CaptureError Next) :
    (Except.ok value >>= next) = next value := rfl

theorem then_ok_iff (first second : Except CaptureError Unit) :
    (first >>= fun _ => second) = .ok () ↔ first = .ok () ∧ second = .ok () := by
  cases first with
  | error raised => simp [bind, Except.bind]
  | ok value => simp [bind, Except.bind]

/-- A loop over items that stand for others passes exactly when what it asks holds of all
of these. -/
theorem forM_ok_iff {Item Meaning : Type} {stands : Item → Meaning → Prop} {items : List Item}
    {meanings : List Meaning} (stand : List.Forall₂ stands items meanings)
    {check : Item → Except CaptureError Unit} {holds : Meaning → Prop}
    (each : ∀ item meaning, stands item meaning → (check item = .ok () ↔ holds meaning)) :
    items.forM check = .ok () ↔ ∀ meaning ∈ meanings, holds meaning := by
  induction stand with
  | nil => simp [pure, Except.pure]
  | @cons item meaning items meanings first rest ih =>
      rw [List.forall_mem_cons, ← ih, ← each item meaning first, List.forM_eq_forM, List.forM_cons]
      exact then_ok_iff (check item) (items.forM check)

theorem forall₂_eq_nil_iff {Item Meaning : Type} {stands : Item → Meaning → Prop}
    {items : List Item} {meanings : List Meaning} (stand : List.Forall₂ stands items meanings) :
    items = [] ↔ meanings = [] := by
  cases stand with
  | nil => simp
  | cons _ _ => simp

/-- What a frame tells of every sensor is what the sensors are. -/
structure Shows (frame : TlmFrame) (sensors : Fin obcSensorCount → Sensor) : Prop where
  outside : ∀ sensor : Fin obcSensorCount,
    flagSet frame sensor bitRange = .ok (sensors sensor).outside
  stuck : ∀ sensor : Fin obcSensorCount,
    flagSet frame sensor bitStuck = .ok (sensors sensor).stuck
  nodata : ∀ sensor : Fin obcSensorCount,
    flagSet frame sensor bitNodata = .ok (sensors sensor).nodata
  value : ∀ sensor : Fin obcSensorCount, reading frame sensor = .ok (sensors sensor).value.toNat

/-- The flag byte and the readings of an emitted frame tell what the packed state holds. -/
theorem shows_emitted {readings : TlmReadings} {state : SensorState}
    (flags : readings.sensorFlags = state.flags) (values : readings.sensorValue = state.value)
    (command : CmdState) (tlm : TlmState) (offset : Nat) :
    Shows { offset := offset, values := emittedValues readings command tlm } state.one := by
  have flagged (sensor : Fin obcSensorCount) {bit : Nat} (small : bit < obcSensorFlagBits) :
      flagSet { offset := offset, values := emittedValues readings command tlm } sensor bit =
        .ok (state.flags.getLsbD (sensor * obcSensorFlagBits + bit)) := by
    have place : sensor.val * obcSensorFlagBits + bit < 8 := by
      have within : sensor.val < 2 := sensor.isLt
      simp only [obcSensorFlagBits] at small ⊢
      omega
    have byte : lowByte readings.sensorFlags = state.flags.toNat % 2 ^ 8 := by
      rw [← flags]
      rfl
    have told : TlmFrame.int { offset := offset, values := emittedValues readings command tlm }
        "sensor_flags" = .ok (lowByte readings.sensorFlags) := rfl
    have shifted (word place : Nat) : (word >>> place &&& 1 != 0) = word.testBit place := by
      rw [Nat.testBit, Nat.and_comm]
    have same : sensor.val * flagBits + bit = sensor.val * obcSensorFlagBits + bit := rfl
    simp only [flagSet, told]
    rw [byte, same, shifted, BitVec.getLsbD, Nat.testBit_mod_two_pow, decide_eq_true place,
      Bool.true_and]
  refine ⟨fun sensor => flagged sensor (by decide), fun sensor => flagged sensor (by decide),
    fun sensor => flagged sensor (by decide), fun sensor => ?_⟩
  have told : reading { offset := offset, values := emittedValues readings command tlm } sensor =
      .ok (readings.sensorValue sensor).toNat := by
    fin_cases sensor <;> rfl
  rw [told, values]
  rfl

section Shown

variable {frame : TlmFrame} {sensors : Fin obcSensorCount → Sensor} (shows : Shows frame sensors)

include shows

theorem Shows.anyFlag (sensor : Fin obcSensorCount) :
    anyFlag frame sensor = .ok (sensors sensor).flagged := by
  simp only [ObcZero.anyFlag, shows.outside, shows.stuck, shows.nodata, Sensor.flagged, bind,
    Except.bind, pure, Except.pure]
  cases (sensors sensor).outside <;> cases (sensors sensor).stuck <;> simp

theorem Shows.oneDirection_iff (sensor : Fin obcSensorCount) (range : SensorRange) :
    checkOneDirection frame sensor range = .ok () ↔
      ((sensors sensor).flagged = true → (sensors sensor).value.toNat = sensorInvalid) ∧
        ((sensors sensor).flagged = false →
          range.low ≤ (sensors sensor).value.toNat ∧ (sensors sensor).value.toNat ≤ range.high) := by
  rw [checkOneDirection, shows.value, ok_then, shows.anyFlag, ok_then, then_ok_iff,
    failIf_ok_iff, failIf_ok_iff]
  cases (sensors sensor).flagged <;> simp

end Shown

theorem framesWhere_shows (keep : TlmFrame → Except CaptureError Bool)
    (kept : (Fin obcSensorCount → Sensor) → Bool)
    (each : ∀ frame sensors, Shows frame sensors → keep frame = .ok (kept sensors))
    {frames : List TlmFrame} {shown : List (Fin obcSensorCount → Sensor)}
    (shows : List.Forall₂ Shows frames shown) :
    ∃ found, framesWhere keep frames = .ok found ∧ List.Forall₂ Shows found (shown.filter kept) := by
  induction shows with
  | nil => exact ⟨[], rfl, .nil⟩
  | @cons frame sensors frames shown first rest ih =>
      obtain ⟨found, searched, stand⟩ := ih
      cases keeps : kept sensors with
      | true =>
          refine ⟨frame :: found, ?_, ?_⟩
          · simp only [framesWhere, each frame sensors first, searched, keeps, bind, Except.bind]
            rfl
          · rw [List.filter_cons_of_pos keeps]
            exact .cons first stand
      | false =>
          refine ⟨found, ?_, ?_⟩
          · simp only [framesWhere, each frame sensors first, searched, keeps, bind, Except.bind]
            rfl
          · rw [List.filter_cons_of_neg (by simp [keeps])]
            exact stand

theorem stuckFrom_shows (sensor : Fin obcSensorCount) {frames : List TlmFrame}
    {shown : List (Fin obcSensorCount → Sensor)} (shows : List.Forall₂ Shows frames shown) :
    ∃ found, stuckFrom sensor frames = .ok found ∧
      List.Forall₂ Shows found (shown.dropWhile fun sensors => !(sensors sensor).stuck) := by
  induction shows with
  | nil => exact ⟨[], rfl, .nil⟩
  | @cons frame sensors frames shown first rest ih =>
      cases stuck : (sensors sensor).stuck with
      | true =>
          refine ⟨frame :: frames, ?_, ?_⟩
          · simp only [stuckFrom, first.stuck, stuck, bind, Except.bind]
            rfl
          · rw [List.dropWhile_cons_of_neg (by simp [stuck])]
            exact .cons first rest
      | false =>
          obtain ⟨found, searched, stand⟩ := ih
          refine ⟨found, ?_, ?_⟩
          · simp only [stuckFrom, first.stuck, stuck, bind, Except.bind]
            exact searched
          · rw [List.dropWhile_cons_of_pos (by simp [stuck])]
            exact stand

theorem flightSensors_range (sensor : Fin obcSensorCount) :
    flightSensors.range sensor = .ok (sensorRange sensor) := by
  fin_cases sensor <;> rfl

theorem toNat_eq_sensorInvalid (value : U16) :
    value.toNat = sensorInvalid ↔ value = obcSensorInvalid := by
  rw [← BitVec.toNat_inj]
  rfl

theorem inRange_iff (sensor : Fin obcSensorCount) (value : U16) :
    ((sensorRange sensor).low ≤ value.toNat ∧ value.toNat ≤ (sensorRange sensor).high) ↔
      ¬OutOfRange sensor value := by
  rw [OutOfRange, not_or, BitVec.not_lt, BitVec.not_lt]
  rfl

/-- Flagged and withheld, or unflagged and in range. -/
def BothDirections (place : Fin obcSensorCount) (sensor : Sensor) : Prop :=
  (sensor.flagged = true → sensor.value = obcSensorInvalid) ∧
    (sensor.flagged = false → ¬OutOfRange place sensor.value)

section Captured

variable {frames : List TlmFrame} {shown : List (Fin obcSensorCount → Sensor)}
  (shows : List.Forall₂ Shows frames shown)

include shows

theorem checkBothDirections_ok_iff :
    checkBothDirections frames flightSensors = .ok () ↔
      ∀ sensors ∈ shown, ∀ sensor, BothDirections sensor (sensors sensor) := by
  refine forM_ok_iff shows fun frame sensors one => ?_
  have each : List.Forall₂ (fun (item : SensorRange × Nat) (sensor : Fin obcSensorCount) =>
      item = (sensorRange sensor, sensor.val))
      flightSensors.ranges.zipIdx (List.finRange obcSensorCount) :=
    .cons rfl (.cons rfl .nil)
  have all : flightSensors.ranges.zipIdx.forM (fun item => checkOneDirection frame item.2 item.1) =
      .ok () ↔ ∀ sensor ∈ List.finRange obcSensorCount, BothDirections sensor (sensors sensor) :=
    forM_ok_iff each fun item sensor same => by
      rw [same, one.oneDirection_iff, toNat_eq_sensorInvalid, inRange_iff]
      rfl
  simpa using all

theorem checkHonest_ok_iff (sensor : Fin obcSensorCount) :
    checkHonest frames flightSensors sensor = .ok () ↔
      (∃ sensors ∈ shown, (sensors sensor).flagged = false) ∧
        ∀ sensors ∈ shown, (sensors sensor).flagged = false →
          ¬OutOfRange sensor (sensors sensor).value := by
  obtain ⟨clean, found, stand⟩ := framesWhere_shows (unflagged sensor)
    (fun sensors => !(sensors sensor).flagged)
    (fun frame sensors one => by rw [unflagged, one.anyFlag]; rfl) shows
  have inside : clean.forM (checkClean sensor (sensorRange sensor)) = .ok () ↔
      ∀ sensors ∈ shown.filter fun sensors => !(sensors sensor).flagged,
        ¬OutOfRange sensor (sensors sensor).value :=
    forM_ok_iff stand fun frame sensors one => by
      rw [checkClean, one.value, ok_then, failIf_ok_iff, not_not, inRange_iff]
  rw [checkHonest, found, ok_then, flightSensors_range, ok_then, then_ok_iff, failIf_ok_iff, inside,
    forall₂_eq_nil_iff stand, List.filter_eq_nil_iff]
  simp

theorem checkOutOfRange_ok_iff (sensor : Fin obcSensorCount) :
    checkOutOfRange frames flightSensors sensor = .ok () ↔
      (∃ sensors ∈ shown, (sensors sensor).outside = true) ∧
        ∀ sensors ∈ shown, (sensors sensor).outside = true →
          (sensors sensor).stuck = false ∧ (sensors sensor).value = obcSensorInvalid := by
  obtain ⟨caught, found, stand⟩ := framesWhere_shows
    (fun frame => flagSet frame sensor bitRange) (fun sensors => (sensors sensor).outside)
    (fun frame sensors one => one.outside sensor) shows
  have inside : caught.forM (checkCaught sensor (sensorRange sensor)) = .ok () ↔
      ∀ sensors ∈ shown.filter fun sensors => (sensors sensor).outside,
        (sensors sensor).stuck = false ∧ (sensors sensor).value = obcSensorInvalid :=
    forM_ok_iff stand fun frame sensors one => by
      rw [checkCaught, one.stuck, ok_then, then_ok_iff, failIf_ok_iff, one.value, ok_then,
        failIf_ok_iff, not_not, toNat_eq_sensorInvalid, Bool.not_eq_true]
  rw [checkOutOfRange, flightSensors_range, ok_then, found, ok_then, then_ok_iff, failIf_ok_iff,
    inside, forall₂_eq_nil_iff stand, List.filter_eq_nil_iff]
  simp

theorem checkStuck_ok_iff (sensor : Fin obcSensorCount) :
    checkStuck frames flightSensors sensor = .ok () ↔
      (∃ sensors ∈ shown, (sensors sensor).stuck = true) ∧
        (∀ sensors ∈ shown.dropWhile fun sensors => !(sensors sensor).stuck,
          (sensors sensor).value = obcSensorInvalid) ∧
        ∀ first ∈ shown.head?, (first sensor).stuck = false := by
  obtain ⟨stuck, found, stand⟩ := stuckFrom_shows sensor shows
  have withheld : stuck.forM (checkWithheld sensor) = .ok () ↔
      ∀ sensors ∈ shown.dropWhile fun sensors => !(sensors sensor).stuck,
        (sensors sensor).value = obcSensorInvalid :=
    forM_ok_iff stand fun frame sensors one => by
      rw [checkWithheld, one.value, ok_then, failIf_ok_iff, not_not, toNat_eq_sensorInvalid]
  have found_iff : (¬∀ sensors ∈ shown, (!(sensors sensor).stuck) = true) ↔
      ∃ sensors ∈ shown, (sensors sensor).stuck = true := by
    simp
  rw [checkStuck, flightSensors_range, ok_then, found, ok_then, then_ok_iff, then_ok_iff,
    failIf_ok_iff, withheld, forall₂_eq_nil_iff stand, List.dropWhile_eq_nil_iff, found_iff]
  cases shows with
  | nil => simp
  | @cons frame sensors frames shown one rest =>
      rw [checkFirstFrame, one.stuck, ok_then, failIf_ok_iff, Bool.not_eq_true, List.head?_cons]
      simp only [Option.mem_some_iff, forall_eq']

end Captured

end ObcZero
