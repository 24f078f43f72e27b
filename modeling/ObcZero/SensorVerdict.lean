import ObcZero.SensorBuilds

/-!
What the host's check of a telemetry session decides (`harness/runner/tlm_check.py`): of
the flight validator, what its readings did; of the two broken ones, that they are
refused; and what becomes of the values that `harness/faults/sensor.gdb` injects.
-/

namespace ObcZero

/-- The latest reading has come as often in a row as the stuck detector counts to. -/
def Repeating (sensor : Fin obcSensorCount) (past : List (Fin obcSensorCount → U16)) : Prop :=
  obcSensorStuckLimit ≤ leadingRun (past.map fun readings => readings sensor)

def LatestOutside (sensor : Fin obcSensorCount) (past : List (Fin obcSensorCount → U16)) : Prop :=
  ∃ latest ∈ past.head?, OutOfRange sensor (latest sensor)

/-- What the readings of a session have to do for the check to find its case in them.
`samples` has, for every frame, the readings since the last reset, latest first. -/
def CaseDriven (expect : Option SensorCase) (sensor : Fin obcSensorCount)
    (samples : List (List (Fin obcSensorCount → U16))) : Prop :=
  match expect with
  | none => True
  | some .honest => ∃ past ∈ samples, ¬LatestOutside sensor past ∧ ¬Repeating sensor past
  | some .range =>
      (∃ past ∈ samples, LatestOutside sensor past) ∧
        ∀ past ∈ samples, LatestOutside sensor past → ¬Repeating sensor past
  | some .stuck =>
      (∃ past ∈ samples, Repeating sensor past) ∧
        samples.Pairwise fun earlier later =>
          Repeating sensor earlier → Repeating sensor later ∨ LatestOutside sensor later

theorem histories_nonempty (turns : List TlmTurn) (past : List (Fin obcSensorCount → U16)) :
    ∀ samples ∈ histories past turns, samples ≠ [] := by
  induction turns generalizing past with
  | nil => simp [histories]
  | cons turn rest ih =>
      cases turn with
      | subsystemReset => exact ih []
      | dispatch dispatch =>
          exact List.forall_mem_cons.mpr ⟨List.cons_ne_nil _ _, ih (dispatch.raw :: past)⟩

theorem histories_head (turns : List TlmTurn) :
    ∀ first ∈ (histories [] turns).head?, first.length = 1 := by
  induction turns with
  | nil => simp [histories]
  | cons turn rest ih =>
      cases turn with
      | subsystemReset => exact ih
      | dispatch dispatch => simp [histories]

theorem remembers_after (past : List (Fin obcSensorCount → U16)) (place : Fin obcSensorCount) :
    Remembers (past.map fun readings => readings place) (flightDetectors.after past place) := by
  induction past with
  | nil => exact ⟨by decide +revert, by simp, by simp⟩
  | cons readings past ih =>
      have latest : flightDetectors.after (readings :: past) place =
          (flightDetectors.after past place).sampled place (readings place) :=
        flightDetectors_sampled place (readings place) _
      rw [latest]
      exact ih.sampled place (readings place)

/-- What the flight validator makes of a history of readings. -/
structure FlightSensor (past : List (Fin obcSensorCount → U16)) (place : Fin obcSensorCount)
    (sensor : Sensor) : Prop where
  outside : sensor.outside = true ↔ LatestOutside place past
  stuck : sensor.stuck = true ↔ Repeating place past
  flagged : sensor.flagged = true ↔ LatestOutside place past ∨ Repeating place past
  withheld : sensor.flagged = true → sensor.value = obcSensorInvalid
  published : sensor.flagged = false → ¬OutOfRange place sensor.value

theorem flightSensor_after {past : List (Fin obcSensorCount → U16)} (sampled : past ≠ [])
    (place : Fin obcSensorCount) :
    FlightSensor past place (flightDetectors.after past place) := by
  obtain ⟨readings, earlier, rfl⟩ := List.exists_cons_of_ne_nil sampled
  have counted := (remembers_after (readings :: earlier) place).run (List.cons_ne_nil _ _)
  have latest : flightDetectors.after (readings :: earlier) place =
      (flightDetectors.after earlier place).sampled place (readings place) :=
    flightDetectors_sampled place (readings place) _
  have outside : (flightDetectors.after (readings :: earlier) place).outside = true ↔
      LatestOutside place (readings :: earlier) := by
    rw [latest]
    simp [Sensor.sampled, LatestOutside]
  have stuck : (flightDetectors.after (readings :: earlier) place).stuck = true ↔
      Repeating place (readings :: earlier) := by
    have detected : (flightDetectors.after (readings :: earlier) place).stuck = true ↔
        RunStuck (flightDetectors.after (readings :: earlier) place).run := by
      rw [latest]
      simp [Sensor.sampled]
    rw [detected, RunStuck, counted, Repeating]
    show 8 ≤ min 255 _ ↔ 8 ≤ _
    omega
  refine ⟨outside, stuck, ?_, ?_, ?_⟩
  · rw [← outside, ← stuck, latest]
    simp [Sensor.sampled, Sensor.flagged]
  · rw [latest]
    intro flagged
    have bad : OutOfRange place (readings place) ∨
        RunStuck ((flightDetectors.after earlier place).sampled place (readings place)).run := by
      simpa [Sensor.sampled, Sensor.flagged] using flagged
    exact if_pos bad
  · rw [latest]
    intro clear
    have good : ¬(OutOfRange place (readings place) ∨
        RunStuck ((flightDetectors.after earlier place).sampled place (readings place)).run) := by
      simpa [Sensor.sampled, Sensor.flagged] using clear
    have value : ((flightDetectors.after earlier place).sampled place (readings place)).value =
        readings place := if_neg good
    rw [value]
    exact fun out => good (.inl out)

/-- All from the first one on are so exactly when all behind any one are. -/
theorem forall_dropWhile_iff {Item : Type*} {starts : Item → Bool} {holds : Item → Prop}
    {items : List Item} (first : ∀ item ∈ items, starts item = true → holds item) :
    (∀ item ∈ items.dropWhile fun item => !starts item, holds item) ↔
      items.Pairwise fun earlier later => starts earlier = true → holds later := by
  induction items with
  | nil => simp
  | cons item rest ih =>
      obtain ⟨here, later⟩ := List.forall_mem_cons.mp first
      rw [List.pairwise_cons]
      cases begun : starts item with
      | false =>
          rw [List.dropWhile_cons_of_pos (by simp [begun]), ih later]
          simp
      | true =>
          rw [List.dropWhile_cons_of_neg (by simp [begun]), List.forall_mem_cons]
          constructor
          · rintro ⟨_, all⟩
            exact ⟨fun other member _ => all other member,
              (ih later).mp fun other member => all other (List.dropWhile_subset _ member)⟩
          · rintro ⟨all, _⟩
            exact ⟨here begun, fun other member => all other member rfl⟩

theorem exists_mem_map_iff {Item View : Type*} {view : Item → View} {holds : View → Prop}
    {means : Item → Prop} {items : List Item}
    (same : ∀ item ∈ items, holds (view item) ↔ means item) :
    (∃ shown ∈ items.map view, holds shown) ↔ ∃ item ∈ items, means item := by
  simp only [List.mem_map, exists_exists_and_eq_and]
  exact exists_congr fun item => and_congr_right fun member => same item member

section Flight

variable {turns : List TlmTurn}

theorem flightSensor_history (sensor : Fin obcSensorCount) :
    ∀ past ∈ histories [] turns, FlightSensor past sensor (flightDetectors.after past sensor) :=
  fun past member => flightSensor_after (histories_nonempty turns [] past member) sensor

theorem flight_bothDirections :
    ∀ sensors ∈ (histories [] turns).map flightDetectors.after,
      ∀ place, BothDirections place (sensors place) := by
  rw [List.forall_mem_map]
  intro past member place
  have shown := flightSensor_history place past member
  exact ⟨shown.withheld, shown.published⟩

theorem flight_honest_iff (sensor : Fin obcSensorCount) :
    CaseShown (some .honest) sensor ((histories [] turns).map flightDetectors.after) ↔
      CaseDriven (some .honest) sensor (histories [] turns) := by
  have clear (past) (member : past ∈ histories [] turns) :
      (flightDetectors.after past sensor).flagged = false ↔
        ¬LatestOutside sensor past ∧ ¬Repeating sensor past := by
    rw [← Bool.not_eq_true, (flightSensor_history sensor past member).flagged, not_or]
  refine (and_iff_left ?_).trans (exists_mem_map_iff clear)
  exact fun sensors member => (flight_bothDirections sensors member sensor).2

theorem flight_range_iff (sensor : Fin obcSensorCount) :
    CaseShown (some .range) sensor ((histories [] turns).map flightDetectors.after) ↔
      CaseDriven (some .range) sensor (histories [] turns) := by
  refine and_congr
    (exists_mem_map_iff fun past member => (flightSensor_history sensor past member).outside) ?_
  rw [List.forall_mem_map]
  refine forall₂_congr fun past member => ?_
  have shown := flightSensor_history sensor past member
  rw [shown.outside, ← shown.stuck, Bool.not_eq_true]
  refine forall_congr' fun outside => and_iff_left ?_
  exact shown.withheld (shown.flagged.mpr (.inl outside))

theorem obcSensorInvalid_outside : ∀ sensor, OutOfRange sensor obcSensorInvalid := by decide

theorem flight_stuck_iff (sensor : Fin obcSensorCount) :
    CaseShown (some .stuck) sensor ((histories [] turns).map flightDetectors.after) ↔
      CaseDriven (some .stuck) sensor (histories [] turns) := by
  have shown := @flightSensor_history turns sensor
  refine and_congr
    (exists_mem_map_iff fun past member => (shown past member).stuck) ?_
  have first : ∀ first ∈ ((histories [] turns).map flightDetectors.after).head?,
      (first sensor).stuck = false := by
    rw [List.head?_map, Option.forall_mem_map]
    intro past isFirst
    obtain ⟨readings, rfl⟩ := List.length_eq_one_iff.mp (histories_head turns past isFirst)
    have once : ¬Repeating sensor [readings] := show ¬8 ≤ 1 by decide
    rwa [← (shown _ (List.mem_of_mem_head? isFirst)).stuck, Bool.not_eq_true] at once
  have withheld (past) (member : past ∈ histories [] turns) :
      (flightDetectors.after past sensor).value = obcSensorInvalid ↔
        Repeating sensor past ∨ LatestOutside sensor past := by
    rw [or_comm, ← (shown past member).flagged]
    refine ⟨fun invalid => ?_, (shown past member).withheld⟩
    by_contra clear
    have inRange := (shown past member).published (Bool.not_eq_true _ ▸ clear)
    rw [invalid] at inRange
    exact inRange (obcSensorInvalid_outside sensor)
  have flagged : ∀ sensors ∈ (histories [] turns).map flightDetectors.after,
      (sensors sensor).stuck = true → (sensors sensor).value = obcSensorInvalid := by
    rw [List.forall_mem_map]
    intro past member stuck
    exact (withheld past member).mpr (.inl ((shown past member).stuck.mp stuck))
  refine (and_iff_left first).trans ?_
  rw [forall_dropWhile_iff flagged, List.pairwise_map]
  refine List.Pairwise.iff_of_mem fun {earlier later} before behind => ?_
  rw [(shown earlier before).stuck, withheld later behind]

theorem flight_shown_iff (expect : Option SensorCase) (sensor : Fin obcSensorCount) :
    let shown := (histories [] turns).map flightDetectors.after
    ((∀ sensors ∈ shown, ∀ place, BothDirections place (sensors place)) ∧
        CaseShown expect sensor shown) ↔
      CaseDriven expect sensor (histories [] turns) := by
  refine (and_iff_right flight_bothDirections).trans ?_
  cases expect with
  | none => rfl
  | some case =>
      cases case with
      | honest => exact flight_honest_iff sensor
      | range => exact flight_range_iff sensor
      | stuck => exact flight_stuck_iff sensor

end Flight

/-- Over every session of the flight build whose frames the port all takes whole, whatever its
sensors read, whatever else its frames report and whenever the subsystem is reset: the host
accepts the capture exactly when it holds enough frames and the readings drive the case that
is asked for. -/
theorem telemetry_verdict (turns : List TlmTurn) (last : ConsoleText) (sensors : SensorState)
    (tlm : TlmState) (expect : Option SensorCase) (sensor : Fin obcSensorCount) (least : Nat) :
    tlmExit (telemetryCapture flightDetectors turns last (begunTelemetry sensors tlm)) flightTlm
        flightSensors expect sensor least = 0 ↔
      least ≤ (histories [] turns).length ∧ CaseDriven expect sensor (histories [] turns) :=
  (sessionExit_eq_zero_iff flightDetectors turns last sensors tlm expect sensor least).trans
    (and_congr_right fun _ => flight_shown_iff expect sensor)

theorem tlmExit_eq_one_iff (capture : List U8) (layout : TlmLayout) (sensors : SensorLayout)
    (expect : Option SensorCase) (sensor least : Nat) :
    tlmExit capture layout sensors expect sensor least = 1 ↔
      ¬tlmExit capture layout sensors expect sensor least = 0 := by
  rw [tlmExit]
  split <;> simp

theorem session_sampled (detectors : Detectors) (turns : List TlmTurn)
    (place : Fin obcSensorCount) :
    ∀ sensors ∈ (histories [] turns).map detectors.after,
      ∃ raw before, sensors place = detectors.sampled place raw before := by
  rw [List.forall_mem_map]
  intro past member
  obtain ⟨latest, earlier, rfl⟩ :=
    List.exists_cons_of_ne_nil (histories_nonempty turns [] past member)
  exact ⟨latest place, detectors.after earlier place, rfl⟩

/-- The two broken validators fail the cases they are there for in every session whose frames
the port all takes whole, whatever is injected and whatever else happens in it. -/
theorem broken_validators_refused (turns : List TlmTurn) (last : ConsoleText)
    (sensors : SensorState) (tlm : TlmState) (sensor : Fin obcSensorCount) (least : Nat) :
    let exit (detectors : Detectors) (case : SensorCase) :=
      tlmExit (telemetryCapture detectors turns last (begunTelemetry sensors tlm)) flightTlm
        flightSensors (some case) sensor least
    exit blindDetectors .range = 1 ∧ exit blindDetectors .stuck = 1 ∧
      exit paranoidDetectors .honest = 1 := by
  have shown (detectors : Detectors) (case : SensorCase)
      (passed : tlmExit (telemetryCapture detectors turns last (begunTelemetry sensors tlm))
        flightTlm flightSensors (some case) sensor least = 0) :=
    ((sessionExit_eq_zero_iff detectors turns last sensors tlm (some case) sensor least).mp
      passed).2.2
  intro exit
  simp only [exit, tlmExit_eq_one_iff]
  refine ⟨fun passed => ?_, fun passed => ?_, fun passed => ?_⟩
  · obtain ⟨⟨sensors, member, outside⟩, _⟩ := shown _ _ passed
    obtain ⟨raw, before, same⟩ := session_sampled blindDetectors turns sensor sensors member
    rw [same] at outside
    exact absurd outside Bool.false_ne_true
  · obtain ⟨⟨sensors, member, stuck⟩, _⟩ := shown _ _ passed
    obtain ⟨raw, before, same⟩ := session_sampled blindDetectors turns sensor sensors member
    rw [same] at stuck
    exact absurd stuck Bool.false_ne_true
  · obtain ⟨⟨sensors, member, clear⟩, _⟩ := shown _ _ passed
    obtain ⟨raw, before, same⟩ := session_sampled paranoidDetectors turns sensor sensors member
    rw [same] at clear
    exact absurd clear.symm Bool.false_ne_true

/-- The value that `sensor.gdb` writes at its stop `n`. -/
def injectedValue (case : SensorCase) (sensor : Fin obcSensorCount) (n : Nat) : U16 :=
  let lo := (obcSensorDesc sensor).min.toNat
  let hi := (obcSensorDesc sensor).max.toNat
  let span := hi - lo
  match case with
  | .honest => BitVec.ofNat 16 (lo + n * 37 % 2 ^ 32 % span)
  | .range => BitVec.ofNat 16 (hi + 1 + n % 3)
  | .stuck => BitVec.ofNat 16 (lo + span / 2)

/-- What the sampler finds there: after `runs` stops the script is gone, and the value that
it wrote last stays. -/
def injectedReading (case : SensorCase) (sensor : Fin obcSensorCount) (runs n : Nat) : U16 :=
  injectedValue case sensor (min n (runs - 1))

/-- The dispatches of a window in which one sensor is injected from the first of them on. -/
def injectedDispatches (case : SensorCase) (sensor : Fin obcSensorCount) (runs : Nat)
    (dispatches : List TlmDispatch) : List TlmDispatch :=
  dispatches.zipIdx.map fun (dispatch, n) =>
    { dispatch with
      raw := Function.update dispatch.raw sensor (injectedReading case sensor runs n) }

theorem histories_dispatches (dispatches : List TlmDispatch)
    (past : List (Fin obcSensorCount → U16)) :
    histories past (dispatches.map .dispatch) =
      (List.range dispatches.length).map fun n =>
        ((dispatches.map TlmDispatch.raw).take (n + 1)).reverse ++ past := by
  induction dispatches generalizing past with
  | nil => rfl
  | cons dispatch rest ih =>
      rw [List.map_cons, histories, ih, List.length_cons, List.range_succ_eq_map, List.map_cons,
        List.map_map]
      simp

/-- The readings of one sensor up to number `n`, latest first. -/
def readingsTo (value : Nat → U16) (n : Nat) : List U16 := ((List.range (n + 1)).map value).reverse

theorem readingsTo_succ (value : Nat → U16) (n : Nat) :
    readingsTo value (n + 1) = value (n + 1) :: readingsTo value n := by
  rw [readingsTo, List.range_succ, List.map_append, List.reverse_append]
  rfl

theorem readingsTo_head (value : Nat → U16) (n : Nat) :
    ∃ earlier, readingsTo value n = value n :: earlier := by
  cases n with
  | zero => exact ⟨[], rfl⟩
  | succ n => exact ⟨readingsTo value n, readingsTo_succ value n⟩

theorem leadingRun_readingsTo_succ (value : Nat → U16) (n : Nat) :
    leadingRun (readingsTo value (n + 1)) =
      if value (n + 1) = value n then leadingRun (readingsTo value n) + 1 else 1 := by
  obtain ⟨earlier, latest⟩ := readingsTo_head value n
  rw [readingsTo_succ, latest, leadingRun]

theorem leadingRun_constant {value : Nat → U16} (same : ∀ n, value (n + 1) = value n) (n : Nat) :
    leadingRun (readingsTo value n) = n + 1 := by
  induction n with
  | zero => rfl
  | succ n ih => rw [leadingRun_readingsTo_succ, if_pos (same n), ih]

/-- Values that change at every stop repeat only once the stops are over. -/
theorem leadingRun_changing {value : Nat → U16} (changes : ∀ n, value (n + 1) ≠ value n)
    {runs : Nat} (some : 0 < runs) (n : Nat) :
    leadingRun (readingsTo (fun n => value (min n (runs - 1))) n) = max 1 (n + 2 - runs) := by
  induction n with
  | zero =>
      show 1 = _
      omega
  | succ n ih =>
      rw [leadingRun_readingsTo_succ, ih]
      by_cases within : n + 1 < runs
      · have stop : min (n + 1) (runs - 1) = min n (runs - 1) + 1 := by omega
        rw [stop, if_neg (changes _)]
        omega
      · have stop : min (n + 1) (runs - 1) = min n (runs - 1) := by omega
        rw [stop, if_pos rfl]
        omega

theorem injectedValue_honest (sensor : Fin obcSensorCount) :
    ¬OutOfRange sensor (injectedValue .honest sensor 0) := by
  revert sensor
  decide

theorem injectedValue_range (sensor : Fin obcSensorCount) (n : Nat) :
    OutOfRange sensor (injectedValue .range sensor n) := by
  have above : ∀ sensor, ∀ turn < 3,
      OutOfRange sensor (BitVec.ofNat 16 ((obcSensorDesc sensor).max.toNat + 1 + turn)) := by
    decide
  exact above sensor (n % 3) (Nat.mod_lt n (by decide))

theorem injectedValue_range_changes (sensor : Fin obcSensorCount) (n : Nat) :
    injectedValue .range sensor (n + 1) ≠ injectedValue .range sensor n := by
  have small : (obcSensorDesc sensor).max.toNat ≤ 3800 := by
    revert sensor
    decide
  intro same
  have numbers := congrArg BitVec.toNat same
  simp only [injectedValue, BitVec.toNat_ofNat] at numbers
  omega

section Injected

variable (case : SensorCase) (sensor : Fin obcSensorCount) (runs : Nat)
  (dispatches : List TlmDispatch)

/-- The readings up to frame `n`, latest first. -/
def injectedPast (n : Nat) : List (Fin obcSensorCount → U16) :=
  (((injectedDispatches case sensor runs dispatches).map TlmDispatch.raw).take (n + 1)).reverse

theorem histories_injected :
    histories [] ((injectedDispatches case sensor runs dispatches).map .dispatch) =
      (List.range dispatches.length).map (injectedPast case sensor runs dispatches) := by
  have count : (injectedDispatches case sensor runs dispatches).length = dispatches.length := by
    simp [injectedDispatches]
  simp only [histories_dispatches, List.append_nil, count]
  rfl

theorem injectedPast_readings {n : Nat} (inside : n < dispatches.length) :
    (injectedPast case sensor runs dispatches n).map (fun readings => readings sensor) =
      readingsTo (injectedReading case sensor runs) n := by
  have column : ((injectedDispatches case sensor runs dispatches).map TlmDispatch.raw).map
      (fun readings : Fin obcSensorCount → U16 => readings sensor) =
        (List.range dispatches.length).map (injectedReading case sensor runs) := by
    apply List.ext_getElem
    · simp [injectedDispatches]
    · intro n _ _
      simp [injectedDispatches]
  rw [injectedPast, List.map_reverse, List.map_take, column, ← List.map_take, List.take_range,
    Nat.min_eq_left inside, readingsTo]

variable {dispatches}

theorem injectedPast_repeating {n : Nat} (inside : n < dispatches.length) :
    Repeating sensor (injectedPast case sensor runs dispatches n) ↔
      obcSensorStuckLimit ≤ leadingRun (readingsTo (injectedReading case sensor runs) n) := by
  rw [Repeating, injectedPast_readings case sensor runs dispatches inside]

theorem injectedPast_outside {n : Nat} (inside : n < dispatches.length) :
    LatestOutside sensor (injectedPast case sensor runs dispatches n) ↔
      OutOfRange sensor (injectedReading case sensor runs n) := by
  have readings := injectedPast_readings case sensor runs dispatches inside
  obtain ⟨before, latest⟩ := readingsTo_head (injectedReading case sensor runs) n
  rw [latest] at readings
  obtain ⟨first, earlier, past, newest, _⟩ := List.map_eq_cons_iff.mp readings
  rw [LatestOutside, past, ← newest]
  simp

end Injected

section Cases

variable (sensor : Fin obcSensorCount) {runs : Nat} (dispatches : List TlmDispatch)

theorem injected_honest :
    CaseDriven (some .honest) sensor
        ((List.range dispatches.length).map (injectedPast .honest sensor runs dispatches)) ↔
      0 < dispatches.length := by
  constructor
  · rintro ⟨past, member, _⟩
    obtain ⟨n, inside, _⟩ := List.mem_map.mp member
    exact Nat.zero_lt_of_lt (List.mem_range.mp inside)
  · intro some
    refine ⟨_, List.mem_map.mpr ⟨0, List.mem_range.mpr some, rfl⟩, ?_, ?_⟩
    · rw [injectedPast_outside .honest sensor runs some, injectedReading, Nat.zero_min]
      exact injectedValue_honest sensor
    · rw [injectedPast_repeating .honest sensor runs some]
      exact show ¬8 ≤ 1 by decide

theorem injected_range (stops : 0 < runs) :
    CaseDriven (some .range) sensor
        ((List.range dispatches.length).map (injectedPast .range sensor runs dispatches)) ↔
      0 < dispatches.length ∧ dispatches.length < runs + 7 := by
  have outside {n : Nat} (inside : n < dispatches.length) :
      LatestOutside sensor (injectedPast .range sensor runs dispatches n) := by
    rw [injectedPast_outside .range sensor runs inside]
    exact injectedValue_range sensor _
  have repeating {n : Nat} (inside : n < dispatches.length) :
      Repeating sensor (injectedPast .range sensor runs dispatches n) ↔ runs + 6 ≤ n := by
    have counted := leadingRun_changing (injectedValue_range_changes sensor) stops n
    rw [injectedPast_repeating .range sensor runs inside]
    refine (iff_of_eq (congrArg (8 ≤ ·) counted)).trans ?_
    omega
  rw [CaseDriven, List.forall_mem_map]
  constructor
  · rintro ⟨⟨past, member, _⟩, all⟩
    obtain ⟨n, member, _⟩ := List.mem_map.mp member
    have some := List.mem_range.mp member
    refine ⟨Nat.zero_lt_of_lt some, ?_⟩
    by_contra long
    have inside : runs + 6 < dispatches.length := by omega
    exact all _ (List.mem_range.mpr inside) (outside inside) ((repeating inside).mpr le_rfl)
  · rintro ⟨some, short⟩
    refine ⟨⟨_, List.mem_map.mpr ⟨0, List.mem_range.mpr some, rfl⟩, outside some⟩, ?_⟩
    intro n member _
    have inside := List.mem_range.mp member
    rw [repeating inside]
    omega

theorem injected_stuck :
    CaseDriven (some .stuck) sensor
        ((List.range dispatches.length).map (injectedPast .stuck sensor runs dispatches)) ↔
      8 ≤ dispatches.length := by
  have repeating {n : Nat} (inside : n < dispatches.length) :
      Repeating sensor (injectedPast .stuck sensor runs dispatches n) ↔ 7 ≤ n := by
    have counted : leadingRun (readingsTo (injectedReading .stuck sensor runs) n) = n + 1 :=
      leadingRun_constant (fun _ => rfl) n
    rw [injectedPast_repeating .stuck sensor runs inside, counted]
    show 8 ≤ n + 1 ↔ _
    omega
  rw [CaseDriven, List.pairwise_map]
  constructor
  · rintro ⟨⟨past, member, stuck⟩, _⟩
    obtain ⟨n, place, rfl⟩ := List.mem_map.mp member
    have inside := List.mem_range.mp place
    have long := (repeating inside).mp stuck
    omega
  · intro long
    have inside : 7 < dispatches.length := long
    refine ⟨⟨_, List.mem_map.mpr ⟨7, List.mem_range.mpr inside, rfl⟩,
      (repeating inside).mpr le_rfl⟩, ?_⟩
    refine List.pairwise_lt_range.imp_of_mem fun {earlier later} before behind next stuck => ?_
    have begun := (repeating (List.mem_range.mp before)).mp stuck
    exact .inl ((repeating (List.mem_range.mp behind)).mpr (by omega))

end Cases

/-- The cases of the harness on the flight build, for either sensor and whatever the other
one reads: the honest case is accepted of any window with enough frames, the one out of
range until the value that the script leaves behind has itself come eight times, the stuck
one from the eighth frame on. -/
theorem injected_cases (sensor : Fin obcSensorCount) {runs : Nat} (stops : 0 < runs)
    (dispatches : List TlmDispatch) (last : ConsoleText) (sensors : SensorState) (tlm : TlmState)
    (least : Nat) :
    let exit (case : SensorCase) :=
      tlmExit (telemetryCapture flightDetectors
        ((injectedDispatches case sensor runs dispatches).map .dispatch) last
        (begunTelemetry sensors tlm)) flightTlm flightSensors (some case) sensor least
    let frames := dispatches.length
    (exit .honest = 0 ↔ least ≤ frames ∧ 0 < frames) ∧
      (exit .range = 0 ↔ least ≤ frames ∧ 0 < frames ∧ frames < runs + 7) ∧
      (exit .stuck = 0 ↔ least ≤ frames ∧ 8 ≤ frames) := by
  intro exit frames
  have verdict (case : SensorCase) : exit case = 0 ↔ least ≤ frames ∧
      CaseDriven (some case) sensor
        ((List.range frames).map (injectedPast case sensor runs dispatches)) := by
    have decided := (sessionExit_eq_zero_iff flightDetectors
      ((injectedDispatches case sensor runs dispatches).map .dispatch) last sensors tlm
      (some case) sensor least).trans
        (and_congr_right fun _ => flight_shown_iff (some case) sensor)
    rwa [histories_injected, List.length_map, List.length_range] at decided
  refine ⟨?_, ?_, ?_⟩
  · rw [verdict, injected_honest]
  · rw [verdict, injected_range sensor dispatches stops]
  · rw [verdict, injected_stuck]

def quietDispatch : TlmDispatch :=
  { raw := fun _ => 0, others := quietReadings, command := clearedCmd
    text := { bytes := [], ascii := fun _ member => absurd member List.not_mem_nil } }

/-- The sixteen frames of the flight window dispatch telemetry eight times, which is
enough for every case and as often as the script stops. -/
theorem injected_cases_window :
    let exit (case : SensorCase) :=
      tlmExit (telemetryCapture flightDetectors
        ((injectedDispatches case 0 8 (List.replicate 8 quietDispatch)).map .dispatch)
        quietDispatch.text (begunTelemetry bootSensors readyTlm)) flightTlm flightSensors
        (some case) 0 4
    exit .honest = 0 ∧ exit .range = 0 ∧ exit .stuck = 0 := by
  obtain ⟨honest, range, stuck⟩ := injected_cases 0 (by decide : 0 < 8)
    (List.replicate 8 quietDispatch) quietDispatch.text bootSensors readyTlm 4
  exact ⟨honest.mpr (by decide), range.mpr (by decide), stuck.mpr (by decide)⟩

end ObcZero
