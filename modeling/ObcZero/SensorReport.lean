import ObcZero.SensorCore

/-! What the flags and the value of a sensor say about its readings, over any history of
samples: the packed state is as many single sensors, none of which disturbs another. -/

namespace ObcZero

open StepSystem

theorem obcSensorFlag_getLsbD (sensor kind : Nat) {bit : Nat} (inside : bit < 32) :
    (obcSensorFlag sensor kind).getLsbD bit =
      decide (bit = sensor * obcSensorFlagBits + kind) := by
  rw [obcSensorFlag, BitVec.getLsbD_shiftLeft]
  generalize sensor * obcSensorFlagBits + kind = place
  by_cases here : bit = place
  · simp [here, here ▸ inside]
  · by_cases below : bit < place
    · simp [below, here]
    · have apart : bit - place ≠ 0 := by omega
      simp [BitVec.getLsbD_one, apart, here]

theorem and_obcSensorFlag_ne_zero_iff (flags : U32) {sensor kind : Nat}
    (inside : sensor * obcSensorFlagBits + kind < 32) :
    flags &&& obcSensorFlag sensor kind ≠ 0 ↔
      flags.getLsbD (sensor * obcSensorFlagBits + kind) = true := by
  constructor
  · intro nonzero
    by_contra clear
    apply nonzero
    apply BitVec.eq_of_getLsbD_eq
    intro bit within
    rw [BitVec.getLsbD_and, obcSensorFlag_getLsbD sensor kind within]
    by_cases here : bit = sensor * obcSensorFlagBits + kind
    · simpa [here] using clear
    · simp [here]
  · intro set zero
    have bits := congrArg (fun word => word.getLsbD (sensor * obcSensorFlagBits + kind)) zero
    rw [BitVec.getLsbD_and, obcSensorFlag_getLsbD sensor kind inside, set] at bits
    simp at bits

theorem bit_inside (sensor : Fin obcSensorCount) {kind : Nat} (small : kind < obcSensorFlagBits) :
    sensor.val * obcSensorFlagBits + kind < 32 := by
  have within : sensor.val < 2 := sensor.isLt
  simp only [obcSensorFlagBits] at small ⊢
  omega

theorem bit_eq_iff (sensor other : Fin obcSensorCount) {kind : Nat}
    (small : kind < obcSensorFlagBits) {bit : Nat} (within : bit < obcSensorFlagBits) :
    other.val * obcSensorFlagBits + kind = sensor.val * obcSensorFlagBits + bit ↔
      other = sensor ∧ kind = bit := by
  rw [Fin.ext_iff]
  simp only [obcSensorFlagBits] at small within ⊢
  omega

theorem obcSensorFlag_getLsbD_bit (sensor other : Fin obcSensorCount) {kind bit : Nat}
    (small : kind < obcSensorFlagBits) (within : bit < obcSensorFlagBits) :
    (obcSensorFlag sensor bit).getLsbD (other * obcSensorFlagBits + kind) =
      decide (other = sensor ∧ kind = bit) := by
  simp only [obcSensorFlag_getLsbD sensor bit (bit_inside other small),
    bit_eq_iff sensor other small within]

/-- The flag word after a sample of one sensor: its three bits are the new ones, and the
others are as they were. -/
theorem sampledFlags_getLsbD (flags : U32) (outside stuck : Prop) [Decidable outside]
    [Decidable stuck] (sensor other : Fin obcSensorCount) {kind : Nat}
    (small : kind < obcSensorFlagBits) :
    (flags &&& ~~~(obcSensorFlagRange sensor ||| obcSensorFlagStuck sensor |||
          obcSensorFlagNodata sensor) |||
        ((if outside then obcSensorFlagRange sensor else 0) |||
          (if stuck then obcSensorFlagStuck sensor else 0))).getLsbD
        (other * obcSensorFlagBits + kind) =
      if other = sensor then
        (decide outside && decide (kind = 0)) || (decide stuck && decide (kind = 1))
      else flags.getLsbD (other * obcSensorFlagBits + kind) := by
  have raised (condition : Prop) [Decidable condition] {bit : Nat}
      (within : bit < obcSensorFlagBits) :
      (if condition then obcSensorFlag sensor bit else 0).getLsbD
          (other * obcSensorFlagBits + kind) =
        (decide condition && decide (other = sensor ∧ kind = bit)) := by
    by_cases held : condition
    · simp only [held, ↓reduceIte, obcSensorFlag_getLsbD_bit sensor other small within,
        decide_true, Bool.true_and]
    · simp [held]
  have masked {bit : Nat} := @obcSensorFlag_getLsbD_bit sensor other kind bit small
  simp only [obcSensorFlagRange, obcSensorFlagStuck, obcSensorFlagNodata, BitVec.getLsbD_or,
    BitVec.getLsbD_and, BitVec.getLsbD_not, raised _ (show 0 < 3 by decide),
    raised _ (show 1 < 3 by decide), masked (show 0 < 3 by decide),
    masked (show 1 < 3 by decide), masked (show 2 < 3 by decide), bit_inside other small,
    decide_true, Bool.true_and]
  by_cases here : other = sensor
  · have kinds : kind = 0 ∨ kind = 1 ∨ kind = 2 := by
      have below : kind < 3 := small
      omega
    rcases kinds with rfl | rfl | rfl <;> simp [here]
  · simp [here]

/-- One sensor by itself, its flags unpacked. -/
structure Sensor where
  value : U16
  lastRaw : U16
  run : U8
  seen : U8
  outside : Bool
  stuck : Bool
  nodata : Bool

def Sensor.flagged (sensor : Sensor) : Bool := sensor.outside || sensor.stuck || sensor.nodata

def SensorState.one (state : SensorState) (sensor : Fin obcSensorCount) : Sensor :=
  { value := state.value sensor
    lastRaw := state.lastRaw sensor
    run := state.run sensor
    seen := state.seen sensor
    outside := state.flags.getLsbD (sensor * obcSensorFlagBits + 0)
    stuck := state.flags.getLsbD (sensor * obcSensorFlagBits + 1)
    nodata := state.flags.getLsbD (sensor * obcSensorFlagBits + 2) }

def neverSampled : Sensor :=
  { value := obcSensorInvalid, lastRaw := 0, run := 0, seen := 0, outside := false
    stuck := false, nodata := true }

def Sensor.sampled (place : Fin obcSensorCount) (raw : U16) (sensor : Sensor) : Sensor :=
  let run := nextRun raw sensor.lastRaw sensor.run sensor.seen
  { value := if OutOfRange place raw ∨ RunStuck run then obcSensorInvalid else raw
    lastRaw := raw
    run := run
    seen := 1
    outside := OutOfRange place raw
    stuck := RunStuck run
    nodata := false }

theorem bad_ne_zero_iff (outside stuck : Prop) [Decidable outside] [Decidable stuck]
    (sensor : Fin obcSensorCount) :
    ((if outside then obcSensorFlagRange sensor else 0) |||
      (if stuck then obcSensorFlagStuck sensor else 0)) ≠ 0 ↔ outside ∨ stuck := by
  have raised : ∀ (first second : Bool) (sensor : Fin obcSensorCount),
      ((if first then obcSensorFlagRange sensor else 0) |||
        (if second then obcSensorFlagStuck sensor else 0)) ≠ 0 ↔ first || second := by decide
  simpa only [decide_eq_true_eq, Bool.or_eq_true] using raised outside stuck sensor

theorem sampleSensor_one (readings : Fin obcSensorCount → U16) (worst : ObcStatus)
    (state : SensorState) (sensor : Fin obcSensorCount) :
    let result := sampleSensor readings (worst, state) sensor
    let sampled := (state.one sensor).sampled sensor (readings sensor)
    result.2.one sensor = sampled ∧
      (∀ other, other ≠ sensor → result.2.one other = state.one other) ∧
      result.1 = if sampled.flagged then .errUnstable else worst := by
  intro result sampled
  refine ⟨?_, fun other apart => ?_, ?_⟩
  · simp only [result, sampleSensor, SensorState.one, Function.update_self, bad_ne_zero_iff,
      sampledFlags_getLsbD _ _ _ sensor sensor (show 0 < 3 by decide),
      sampledFlags_getLsbD _ _ _ sensor sensor (show 1 < 3 by decide),
      sampledFlags_getLsbD _ _ _ sensor sensor (show 2 < 3 by decide)]
    simp only [↓reduceIte, decide_true, Bool.and_true, Bool.and_false, Bool.or_false,
      Bool.false_or, decide_false, OfNat.ofNat_ne_zero, OfNat.ofNat_ne_one,
      one_ne_zero, zero_ne_one]
    rfl
  · simp only [result, sampleSensor, SensorState.one,
      sampledFlags_getLsbD _ _ _ sensor other (show 0 < 3 by decide),
      sampledFlags_getLsbD _ _ _ sensor other (show 1 < 3 by decide),
      sampledFlags_getLsbD _ _ _ sensor other (show 2 < 3 by decide), if_neg apart,
      Function.update_of_ne apart]
  · have flagged : sampled.flagged = true ↔
        OutOfRange sensor (readings sensor) ∨ RunStuck sampled.run := by
      simp [sampled, Sensor.sampled, Sensor.flagged]
    simp only [result, sampleSensor, bad_ne_zero_iff, flagged]
    rfl

/-- A loop whose turns each change one place changes every place it visits, once. -/
theorem foldl_places {State View Place : Type*} (step : State → Place → State)
    (view : State → Place → View) (change : Place → View → View)
    (here : ∀ state place, view (step state place) place = change place (view state place))
    (elsewhere : ∀ state place other, other ≠ place →
      view (step state place) other = view state other)
    {places : List Place} (distinct : places.Nodup) (state : State) :
    (∀ place ∈ places, view (places.foldl step state) place = change place (view state place)) ∧
      ∀ place ∉ places, view (places.foldl step state) place = view state place := by
  induction places generalizing state with
  | nil => simp
  | cons first rest ih =>
      obtain ⟨absent, distinct⟩ := List.nodup_cons.mp distinct
      obtain ⟨changed, kept⟩ := ih distinct (step state first)
      rw [List.foldl_cons]
      refine ⟨fun place member => ?_, fun place outside => ?_⟩
      · rcases List.mem_cons.mp member with rfl | later
        · rw [kept _ absent, here]
        · have apart : place ≠ first := fun same => absent (same ▸ later)
          rw [changed place later, elsewhere _ _ _ apart]
      · obtain ⟨apart, outside⟩ := not_or.mp (List.mem_cons.not.mp outside)
        rw [kept place outside, elsewhere _ _ _ apart]

theorem foldl_sampleSensor_status (readings : Fin obcSensorCount → U16)
    {sensors : List (Fin obcSensorCount)} (distinct : sensors.Nodup) (worst : ObcStatus)
    (state : SensorState) :
    (sensors.foldl (sampleSensor readings) (worst, state)).1 = .ok ↔
      worst = .ok ∧ ∀ sensor ∈ sensors,
        ((state.one sensor).sampled sensor (readings sensor)).flagged = false := by
  induction sensors generalizing worst state with
  | nil => simp
  | cons first rest ih =>
      obtain ⟨absent, distinct⟩ := List.nodup_cons.mp distinct
      obtain ⟨_, kept, status⟩ := sampleSensor_one readings worst state first
      have later : (∀ sensor ∈ rest, (((sampleSensor readings (worst, state) first).2.one
          sensor).sampled sensor (readings sensor)).flagged = false) ↔
          ∀ sensor ∈ rest, ((state.one sensor).sampled sensor (readings sensor)).flagged = false :=
        forall₂_congr fun sensor member => by
          rw [kept sensor fun same => absent (same ▸ member)]
      rw [List.foldl_cons, List.forall_mem_cons, ← later]
      refine (ih distinct (sampleSensor readings (worst, state) first).1
        (sampleSensor readings (worst, state) first).2).trans ?_
      rw [status]
      cases ((state.one first).sampled first (readings first)).flagged with
      | true => simp
      | false => simp

theorem obcSensorSample_one (readings : Fin obcSensorCount → U16) (state : SensorState) :
    let result := obcSensorSample readings state
    (∀ sensor, result.2.one sensor = (state.one sensor).sampled sensor (readings sensor)) ∧
      (result.1 = .ok ↔ ∀ sensor, (result.2.one sensor).flagged = false) := by
  intro result
  have each (sensor : Fin obcSensorCount) :
      result.2.one sensor = (state.one sensor).sampled sensor (readings sensor) :=
    (foldl_places (sampleSensor readings) (fun result sensor => result.2.one sensor)
      (fun sensor => Sensor.sampled sensor (readings sensor))
      (fun result sensor => (sampleSensor_one readings result.1 result.2 sensor).1)
      (fun result sensor => (sampleSensor_one readings result.1 result.2 sensor).2.1)
      (List.nodup_finRange obcSensorCount) (.ok, state)).1 sensor (List.mem_finRange sensor)
  refine ⟨each, ?_⟩
  refine (foldl_sampleSensor_status readings (List.nodup_finRange _) .ok state).trans ?_
  simp only [true_and, List.mem_finRange, forall_const, each]

theorem initSensor_one (state : SensorState) (sensor : Fin obcSensorCount) :
    (initSensor state sensor).one sensor =
        { neverSampled with
          outside := (state.one sensor).outside, stuck := (state.one sensor).stuck } ∧
      ∀ other, other ≠ sensor → (initSensor state sensor).one other = state.one other := by
  have raised (other : Fin obcSensorCount) {kind : Nat} (small : kind < obcSensorFlagBits) :
      (state.flags ||| obcSensorFlagNodata sensor).getLsbD (other * obcSensorFlagBits + kind) =
        (state.flags.getLsbD (other * obcSensorFlagBits + kind) ||
          decide (other = sensor ∧ kind = 2)) := by
    rw [BitVec.getLsbD_or, obcSensorFlagNodata,
      obcSensorFlag_getLsbD_bit sensor other small (by decide)]
  refine ⟨?_, fun other apart => ?_⟩
  · simp only [initSensor, SensorState.one, raised sensor (show 0 < 3 by decide),
      raised sensor (show 1 < 3 by decide), raised sensor (show 2 < 3 by decide),
      Function.update_self]
    simp [neverSampled]
  · simp only [initSensor, SensorState.one, raised other (show 0 < 3 by decide),
      raised other (show 1 < 3 by decide), raised other (show 2 < 3 by decide), apart,
      false_and, decide_false, Bool.or_false, Function.update_of_ne apart]

theorem obcSensorInit_one (state : SensorState) (sensor : Fin obcSensorCount) :
    (obcSensorInit state).one sensor = neverSampled := by
  have cleared := (foldl_places initSensor SensorState.one
    (fun _ one => { neverSampled with outside := one.outside, stuck := one.stuck })
    (fun state sensor => (initSensor_one state sensor).1)
    (fun state sensor => (initSensor_one state sensor).2)
    (List.nodup_finRange obcSensorCount) { state with flags := 0 }).1 sensor
    (List.mem_finRange sensor)
  rw [obcSensorInit, cleared]
  simp [SensorState.one, neverSampled]

/-- How often the latest of some readings, latest first, has come in a row. -/
def leadingRun : List U16 → Nat
  | [] => 0
  | [_] => 1
  | latest :: earlier :: rest =>
      if latest = earlier then leadingRun (earlier :: rest) + 1 else 1

theorem lt_leadingRun_iff (limit : Nat) (latest : U16) (rest : List U16) :
    limit < leadingRun (latest :: rest) ↔
      limit ≤ rest.length ∧ ∀ earlier ∈ rest.take limit, earlier = latest := by
  induction rest generalizing limit latest with
  | nil => simp [leadingRun]
  | cons earlier rest ih =>
      rw [leadingRun]
      cases limit with
      | zero => split <;> simp
      | succ limit =>
          rw [List.take_succ_cons, List.forall_mem_cons, List.length_cons, Nat.succ_le_succ_iff]
          by_cases repeated : latest = earlier
          · rw [if_pos repeated, Nat.succ_lt_succ_iff, ih, repeated]
            simp
          · rw [if_neg repeated]
            simp [Ne.symm repeated]

/-- What a sensor remembers of its readings since the last reset, latest first. -/
structure Remembers (raws : List U16) (sensor : Sensor) : Prop where
  seen : sensor.seen ≠ 0 ↔ raws ≠ []
  last : ∀ raw ∈ raws.head?, sensor.lastRaw = raw
  run : raws ≠ [] → sensor.run.toNat = min 255 (leadingRun raws)

theorem Remembers.sampled {raws : List U16} {sensor : Sensor} (remembers : Remembers raws sensor)
    (place : Fin obcSensorCount) (raw : U16) :
    Remembers (raw :: raws) (sensor.sampled place raw) := by
  refine ⟨by simp [Sensor.sampled], by simp [Sensor.sampled], fun _ => ?_⟩
  simp only [Sensor.sampled, nextRun]
  cases raws with
  | nil =>
      have unseen : ¬sensor.seen ≠ 0 := by simpa using remembers.seen
      rw [if_neg fun both => unseen both.1]
      rfl
  | cons earlier rest =>
      have seen : sensor.seen ≠ 0 := remembers.seen.mpr (List.cons_ne_nil _ _)
      have last : sensor.lastRaw = earlier := remembers.last earlier rfl
      have counted := remembers.run (List.cons_ne_nil _ _)
      rw [last, leadingRun]
      by_cases repeated : raw = earlier
      · rw [if_pos ⟨seen, repeated⟩, if_pos repeated]
        split
        · rename_i below
          have small : sensor.run.toNat < 255 := BitVec.lt_def.mp below
          rw [BitVec.toNat_add_of_lt (by change _ + 1 < 256; omega)]
          change sensor.run.toNat + 1 = _
          omega
        · rename_i full
          have large : ¬sensor.run.toNat < 255 := fun small => full (BitVec.lt_def.mpr small)
          omega
      · rw [if_neg fun both => repeated both.2, if_neg repeated]
        rfl

/-- The samples taken since the last reset of the sensors, latest first. -/
def samplesSince (inputs : List SensorInput) : List (Fin obcSensorCount → U16) :=
  run (fun input samples =>
    match input with
    | .init => []
    | .sample readings => readings :: samples) inputs []

def RangeFlag (sensor : Fin obcSensorCount) (state : SensorState) : Prop :=
  state.flags &&& obcSensorFlagRange sensor ≠ 0

def StuckFlag (sensor : Fin obcSensorCount) (state : SensorState) : Prop :=
  state.flags &&& obcSensorFlagStuck sensor ≠ 0

def NodataFlag (sensor : Fin obcSensorCount) (state : SensorState) : Prop :=
  state.flags &&& obcSensorFlagNodata sensor ≠ 0

def Flagged (sensor : Fin obcSensorCount) (state : SensorState) : Prop :=
  RangeFlag sensor state ∨ StuckFlag sensor state ∨ NodataFlag sensor state

/-- What the sensors publish of the samples taken since the last reset. -/
structure Reported (samples : List (Fin obcSensorCount → U16)) (sensor : Fin obcSensorCount)
    (state : SensorState) : Prop where
  range : RangeFlag sensor state ↔
    ∃ latest ∈ samples.head?, OutOfRange sensor (latest sensor)
  stuck : StuckFlag sensor state ↔ obcSensorStuckLimit ≤ samples.length ∧
    ∀ one ∈ samples.take obcSensorStuckLimit, ∀ other ∈ samples.take obcSensorStuckLimit,
      one sensor = other sensor
  nodata : NodataFlag sensor state ↔ samples = []
  withheld : Flagged sensor state → state.value sensor = obcSensorInvalid
  published : ¬Flagged sensor state → ∃ latest ∈ samples.head?,
    state.value sensor = latest sensor ∧ (obcSensorDesc sensor).min ≤ latest sensor ∧
      latest sensor ≤ (obcSensorDesc sensor).max

theorem rangeFlag_iff (sensor : Fin obcSensorCount) (state : SensorState) :
    RangeFlag sensor state ↔ (state.one sensor).outside = true :=
  and_obcSensorFlag_ne_zero_iff _ (bit_inside sensor (by decide))

theorem stuckFlag_iff (sensor : Fin obcSensorCount) (state : SensorState) :
    StuckFlag sensor state ↔ (state.one sensor).stuck = true :=
  and_obcSensorFlag_ne_zero_iff _ (bit_inside sensor (by decide))

theorem nodataFlag_iff (sensor : Fin obcSensorCount) (state : SensorState) :
    NodataFlag sensor state ↔ (state.one sensor).nodata = true :=
  and_obcSensorFlag_ne_zero_iff _ (bit_inside sensor (by decide))

theorem flagged_iff (sensor : Fin obcSensorCount) (state : SensorState) :
    Flagged sensor state ↔ (state.one sensor).flagged = true := by
  rw [Flagged, rangeFlag_iff, stuckFlag_iff, nodataFlag_iff, Sensor.flagged, Bool.or_eq_true,
    Bool.or_eq_true, or_assoc]

theorem sensors_remember (inputs : List SensorInput) (sensor : Fin obcSensorCount) :
    Remembers ((samplesSince inputs).map fun readings => readings sensor)
      ((run sensorStep inputs bootSensors).one sensor) := by
  induction inputs using List.reverseRecOn with
  | nil => exact ⟨by decide +revert, by simp [samplesSince, run], by simp [samplesSince, run]⟩
  | append_singleton inputs input ih =>
      rw [samplesSince, run_append, run_append, ← samplesSince]
      cases input with
      | init =>
          show Remembers [] ((obcSensorInit (run sensorStep inputs bootSensors)).one sensor)
          rw [obcSensorInit_one]
          exact ⟨by decide, by simp, by simp⟩
      | sample readings =>
          show Remembers (readings sensor :: _)
            ((obcSensorSample readings (run sensorStep inputs bootSensors)).2.one sensor)
          rw [(obcSensorSample_one readings _).1]
          exact ih.sampled sensor (readings sensor)

theorem reported_init (state : SensorState) (sensor : Fin obcSensorCount) :
    Reported [] sensor (obcSensorInit state) := by
  have one := obcSensorInit_one state sensor
  have value : (obcSensorInit state).value sensor = obcSensorInvalid :=
    congrArg Sensor.value one
  have nodata : NodataFlag sensor (obcSensorInit state) := by
    rw [nodataFlag_iff, one]
    rfl
  refine ⟨?_, ?_, ⟨fun _ => rfl, fun _ => nodata⟩, fun _ => value,
    fun clear => absurd (.inr (.inr nodata)) clear⟩
  · rw [rangeFlag_iff, one]
    simp [neverSampled]
  · rw [stuckFlag_iff, one]
    simp [neverSampled]

/-- The latest samples are all equal exactly when each of them is the latest one. -/
theorem latest_equal_iff (sensor : Fin obcSensorCount) (latest : Fin obcSensorCount → U16)
    (samples : List (Fin obcSensorCount → U16)) (limit : Nat) :
    (∀ one ∈ (latest :: samples).take (limit + 1), ∀ other ∈ (latest :: samples).take (limit + 1),
        one sensor = other sensor) ↔
      ∀ earlier ∈ (samples.map fun readings => readings sensor).take limit,
        earlier = latest sensor := by
  rw [List.take_succ_cons, ← List.map_take, List.forall_mem_map]
  constructor
  · intro equal earlier member
    exact equal earlier (List.mem_cons_of_mem _ member) latest List.mem_cons_self
  · intro same one first other second
    have each (readings : Fin obcSensorCount → U16)
        (member : readings ∈ latest :: samples.take limit) : readings sensor = latest sensor := by
      rcases List.mem_cons.mp member with rfl | later
      · rfl
      · exact same readings later
    rw [each one first, each other second]

theorem reported_sample {samples : List (Fin obcSensorCount → U16)}
    {sensor : Fin obcSensorCount} {state : SensorState}
    (remembers : Remembers (samples.map fun readings => readings sensor) (state.one sensor))
    (readings : Fin obcSensorCount → U16) :
    Reported (readings :: samples) sensor (obcSensorSample readings state).2 := by
  have one := (obcSensorSample_one readings state).1 sensor
  have counted : ((state.one sensor).sampled sensor (readings sensor)).run.toNat =
      min 255 (leadingRun (readings sensor :: samples.map fun readings => readings sensor)) :=
    (remembers.sampled sensor (readings sensor)).run (List.cons_ne_nil _ _)
  have value : (obcSensorSample readings state).2.value sensor =
      if OutOfRange sensor (readings sensor) ∨
          RunStuck ((state.one sensor).sampled sensor (readings sensor)).run then
        obcSensorInvalid
      else readings sensor := congrArg Sensor.value one
  have outside : RangeFlag sensor (obcSensorSample readings state).2 ↔
      OutOfRange sensor (readings sensor) := by
    rw [rangeFlag_iff, one]
    simp [Sensor.sampled]
  have stuck : StuckFlag sensor (obcSensorSample readings state).2 ↔
      RunStuck ((state.one sensor).sampled sensor (readings sensor)).run := by
    rw [stuckFlag_iff, one]
    simp [Sensor.sampled]
  have sampled : ¬NodataFlag sensor (obcSensorSample readings state).2 := by
    rw [nodataFlag_iff, one]
    simp [Sensor.sampled]
  refine ⟨?_, ?_, ?_, ?_, ?_⟩
  · rw [outside]
    simp
  · rw [stuck, RunStuck, counted, latest_equal_iff sensor readings samples 7, List.length_cons]
    have reached := lt_leadingRun_iff 7 (readings sensor)
      (samples.map fun readings => readings sensor)
    rw [List.length_map] at reached
    rw [Nat.succ_le_succ_iff, ← reached]
    show 8 ≤ min 255 _ ↔ _
    omega
  · simp [sampled]
  · rintro (range | run | none)
    · rw [value, if_pos (.inl (outside.mp range))]
    · rw [value, if_pos (.inr (stuck.mp run))]
    · exact absurd none sampled
  · intro unflagged
    have inRange : ¬OutOfRange sensor (readings sensor) := fun out =>
      unflagged (.inl (outside.mpr out))
    have varied := fun run => unflagged (.inr (.inl (stuck.mpr run)))
    obtain ⟨low, high⟩ := not_or.mp inRange
    exact ⟨readings, rfl, by rw [value, if_neg (not_or.mpr ⟨inRange, varied⟩)],
      BitVec.not_lt.mp low, BitVec.not_lt.mp high⟩

/-- Over every history of resets and samples, after each of them and for each sensor: the
flags are exact, a flagged value is withheld, and the status of a sample says whether any
sensor is flagged. -/
theorem sensor_flags_exact (earlier : List SensorInput) :
    (∀ last sensor, Reported (samplesSince (earlier ++ [last])) sensor
      (run sensorStep (earlier ++ [last]) bootSensors)) ∧
    ∀ readings,
      let result := obcSensorSample readings (run sensorStep earlier bootSensors)
      result.1 = .ok ↔ ∀ sensor, ¬Flagged sensor result.2 := by
  constructor
  · intro last sensor
    rw [samplesSince, run_append, run_append, ← samplesSince]
    cases last with
    | init => exact reported_init _ sensor
    | sample readings => exact reported_sample (sensors_remember earlier sensor) readings
  · intro readings result
    refine (obcSensorSample_one readings _).2.trans (forall_congr' fun sensor => ?_)
    rw [flagged_iff, Bool.not_eq_true]

end ObcZero
