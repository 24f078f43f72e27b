import ObcZero.TimerRead

/-!
The boot's check of its clock (`check_tick_counter` in `flight/core/main.c`), over the reader
of the flight image and over the naive one of `harness/broken/mtime_naive.c`.
-/

namespace ObcZero

def tickDeltaMax : U64 := 32768

/-- What the check returns, and what it leaves in `*max_delta_out` and `*span_out`, which
hold zero when it is called. -/
structure TickCheck where
  status : ObcStatus
  maxDelta : U64
  span : U64
  deriving DecidableEq, Repr

/-- The loop of `check_tick_counter`, with the readings that are left. -/
def tickLoop (readings : Nat → ObcStatus × U64) :
    Nat → Nat → U64 → U64 → U64 → TickCheck
  | 0, _, first, previous, maxDelta => { status := .ok, maxDelta, span := previous - first }
  | remaining + 1, index, first, previous, maxDelta =>
      if (readings index).1 ≠ .ok then
        { status := (readings index).1, maxDelta := 0, span := 0 }
      else
        let current := (readings index).2
        if current < previous then
          { status := .errInvalid, maxDelta := previous - current, span := 0 }
        else
          let delta := current - previous
          let maxDelta := if delta > maxDelta then delta else maxDelta
          if delta ≥ tickDeltaMax then { status := .errUnstable, maxDelta := delta, span := 0 }
          else tickLoop readings remaining (index + 1) first current maxDelta

def checkTickCounter (reads : Nat) (readings : Nat → ObcStatus × U64) : TickCheck :=
  if (readings 0).1 ≠ .ok then { status := (readings 0).1, maxDelta := 0, span := 0 }
  else tickLoop readings reads 1 (readings 0).2 (readings 0).2 0

/-- `obc_mtime_read` of `harness/broken/mtime_naive.c`, with what its two register reads
return. -/
def naiveMtimeRead (lo hi : U32) : ObcStatus × U64 :=
  (.ok, hi.setWidth 64 <<< 32 ||| lo.setWidth 64)

/-- Two successive readings that the check finds nothing amiss in. -/
structure Credible (before after : ObcStatus × U64) : Prop where
  first : before.1 = .ok
  second : after.1 = .ok
  onward : before.2.toNat ≤ after.2.toNat
  close : after.2.toNat - before.2.toNat < 32768

section

variable {readings : Nat → ObcStatus × U64}

theorem tickLoop_credible {before after : ObcStatus × U64} (credible : Credible before after)
    {index : Nat} (here : readings index = after) (remaining : Nat) (first maxDelta : U64) :
    tickLoop readings (remaining + 1) index first before.2 maxDelta =
      tickLoop readings remaining (index + 1) first after.2
        (if after.2 - before.2 > maxDelta then after.2 - before.2 else maxDelta) := by
  obtain ⟨_, ok, onward, close⟩ := credible
  have forward : ¬after.2 < before.2 := by
    rw [BitVec.lt_def]
    omega
  have near : ¬after.2 - before.2 ≥ tickDeltaMax := by
    rw [ge_iff_le, BitVec.le_def, BitVec.toNat_sub_of_le (BitVec.le_def.mpr onward)]
    change ¬32768 ≤ _
    omega
  rw [tickLoop, here, if_neg (not_not.mpr ok)]
  dsimp only
  rw [if_neg forward, if_neg near]

structure Largest (readings : Nat → ObcStatus × U64) (count : Nat) (start largest : U64) : Prop where
  start_le : start.toNat ≤ largest.toNat
  bounds : ∀ index < count, ((readings (index + 1)).2 - (readings index).2).toNat ≤ largest.toNat
  attained : largest = start ∨ ∃ index < count, (readings (index + 1)).2 - (readings index).2 = largest

theorem tickLoop_prefix {count : Nat}
    (credible : ∀ index < count, Credible (readings index) (readings (index + 1)))
    (remaining : Nat) :
    ∃ largest, Largest readings count 0 largest ∧
      tickLoop readings (count + remaining) 1 (readings 0).2 (readings 0).2 0 =
        tickLoop readings remaining (count + 1) (readings 0).2 (readings count).2 largest := by
  induction count generalizing remaining with
  | zero =>
      refine ⟨0, ⟨Nat.le_refl _, by simp, .inl rfl⟩, ?_⟩
      rw [Nat.zero_add]
  | succ count ih =>
      obtain ⟨largest, ⟨above, bounds, attained⟩, led⟩ :=
        ih (fun index inside => credible index (Nat.lt_succ_of_lt inside)) (remaining + 1)
      have next := tickLoop_credible (credible count (Nat.lt_succ_self count)) rfl remaining
        (readings 0).2 largest
      have more : count + 1 + remaining = count + (remaining + 1) := by omega
      refine ⟨_, ?_, more ▸ led.trans next⟩
      by_cases larger : (readings (count + 1)).2 - (readings count).2 > largest
      · have grows := BitVec.lt_def.mp larger
        rw [if_pos larger]
        refine ⟨Nat.zero_le _, ?_, .inr ⟨count, Nat.lt_succ_self count, rfl⟩⟩
        intro index inside
        rcases Nat.lt_succ_iff_lt_or_eq.mp inside with earlier | rfl
        · exact Nat.le_of_lt (Nat.lt_of_le_of_lt (bounds index earlier) grows)
        · exact Nat.le_refl _
      · rw [if_neg larger]
        refine ⟨above, ?_, ?_⟩
        · intro index inside
          rcases Nat.lt_succ_iff_lt_or_eq.mp inside with earlier | rfl
          · exact bounds index earlier
          · exact Nat.le_of_not_lt fun less => larger (BitVec.lt_def.mpr less)
        · rcases attained with same | ⟨index, inside, same⟩
          · exact .inl same
          · exact .inr ⟨index, Nat.lt_succ_of_lt inside, same⟩

theorem checkTickCounter_ok {reads : Nat} (taken : 0 < reads)
    (credible : ∀ index < reads, Credible (readings index) (readings (index + 1))) :
    ∃ largest, Largest readings reads 0 largest ∧
      checkTickCounter reads readings =
        { status := .ok, maxDelta := largest, span := (readings reads).2 - (readings 0).2 } := by
  obtain ⟨largest, gaps, led⟩ := tickLoop_prefix credible 0
  refine ⟨largest, gaps, ?_⟩
  rw [checkTickCounter, if_neg (not_not.mpr (credible 0 taken).first)]
  exact led

/-- The first pair of readings that is not credible decides. -/
theorem checkTickCounter_bad {reads bad : Nat} (inside : bad < reads)
    (credible : ∀ index < bad, Credible (readings index) (readings (index + 1)))
    (first : (readings bad).1 = .ok) (second : (readings (bad + 1)).1 = .ok) :
    ((readings (bad + 1)).2.toNat < (readings bad).2.toNat →
      (checkTickCounter reads readings).status = .errInvalid) ∧
    ((readings bad).2.toNat + 32768 ≤ (readings (bad + 1)).2.toNat →
      (checkTickCounter reads readings).status = .errUnstable) := by
  obtain ⟨more, rfl⟩ := Nat.exists_eq_add_of_lt inside
  obtain ⟨largest, _, led⟩ := tickLoop_prefix credible (more + 1)
  have begins : (readings 0).1 = .ok := by
    cases bad with
    | zero => exact first
    | succ bad => exact (credible 0 (Nat.succ_pos bad)).first
  rw [checkTickCounter, if_neg (not_not.mpr begins), Nat.add_assoc, led, tickLoop,
    if_neg (not_not.mpr second)]
  dsimp only
  constructor
  · intro backwards
    rw [if_pos (BitVec.lt_def.mpr backwards)]
  · intro jumps
    have forward : ¬(readings (bad + 1)).2 < (readings bad).2 := by
      rw [BitVec.lt_def]
      omega
    have far : (readings (bad + 1)).2 - (readings bad).2 ≥ tickDeltaMax := by
      rw [ge_iff_le, BitVec.le_def,
        BitVec.toNat_sub_of_le (BitVec.le_def.mpr (Nat.le_of_not_lt (mt BitVec.lt_def.mpr forward)))]
      change 32768 ≤ _
      omega
    rw [if_neg forward, if_pos far]

end

section

variable {Time : Type*} [Preorder Time]

theorem ReadInstants.starts (instants : ReadInstants Time) (attempt : Fin mtimeReadAttempts) :
    instants.hi 0 ≤ instants.lo attempt := by
  rcases Fin.eq_zero_or_eq_succ attempt with rfl | ⟨earlier, rfl⟩
  · exact instants.hi_lo 0
  · exact ((instants.hi_lo 0).trans (instants.lo_hiAgain 0)).trans
      ((instants.next (Fin.succ_pos earlier)).trans (instants.hi_lo _))

variable (timer : Timer Time)

def Timer.flightReadings (calls : Nat → ReadInstants Time) (index : Nat) : ObcStatus × U64 :=
  let read := obcMtimeRead (timer.samples (calls index)) (some 0) 0
  (read.1, read.2.1.getD 0)

def Timer.readAt (calls : Nat → ReadInstants Time) (index : Nat) : Time :=
  (calls index).lo (lastAttempt (timer.samples (calls index)))

def Timer.readEnd (calls : Nat → ReadInstants Time) (index : Nat) : Time :=
  (calls index).hiAgain (lastAttempt (timer.samples (calls index)))

theorem Timer.call_starts (calls : Nat → ReadInstants Time) (index : Nat) :
    (calls index).hi 0 ≤ timer.readAt calls index := (calls index).starts _

theorem Timer.call_ends (calls : Nat → ReadInstants Time) (index : Nat) :
    timer.readAt calls index ≤ timer.readEnd calls index := (calls index).lo_hiAgain _

/-- The calls of the check follow each other, and two of them take less than a second. -/
structure Steady (calls : Nat → ReadInstants Time) (reads : Nat) : Prop where
  follows : ∀ index < reads, timer.readEnd calls index ≤ (calls (index + 1)).hi 0
  close : ∀ index < reads, (timer.counter (timer.readEnd calls (index + 1))).toNat <
    (timer.counter ((calls index).hi 0)).toNat + 32768

variable {timer} {calls : Nat → ReadInstants Time} {reads : Nat}

theorem Steady.short (steady : Steady timer calls reads) (taken : 0 < reads) {index : Nat}
    (inside : index ≤ reads) :
    (timer.counter (timer.readEnd calls index)).toNat -
      (timer.counter ((calls index).hi 0)).toNat < 2 ^ 32 := by
  by_cases last : index < reads
  · have close := steady.close index last
    have onward := timer.rises ((steady.follows index last).trans
      ((timer.call_starts calls (index + 1)).trans (timer.call_ends calls (index + 1))))
    omega
  · obtain ⟨before, rfl⟩ := Nat.exists_eq_add_of_le' (Nat.lt_of_lt_of_le taken (Nat.not_lt.mp last))
    have close := steady.close before (by omega)
    have onward := timer.rises ((timer.call_starts calls before).trans
      ((timer.call_ends calls before).trans (steady.follows before (by omega))))
    change (timer.counter (timer.readEnd calls (before + 1))).toNat -
      (timer.counter ((calls (before + 1)).hi 0)).toNat < 2 ^ 32
    omega

theorem Steady.exact (steady : Steady timer calls reads) (taken : 0 < reads) {index : Nat}
    (inside : index ≤ reads) :
    timer.flightReadings calls index = (.ok, timer.counter (timer.readAt calls index)) := by
  have read := mtime_read_exact timer (calls index) 0 0
  have settled := (read.settles (steady.short taken inside)).1
  rw [Timer.flightReadings, settled, read.exact settled]
  rfl

theorem Steady.rises (steady : Steady timer calls reads) {index : Nat} (inside : index < reads) :
    (timer.counter (timer.readAt calls index)).toNat ≤
      (timer.counter (timer.readAt calls (index + 1))).toNat :=
  timer.rises ((timer.call_ends calls index).trans
    ((steady.follows index inside).trans (timer.call_starts calls (index + 1))))

theorem Steady.onward (steady : Steady timer calls reads) {index : Nat} (inside : index ≤ reads) :
    (timer.counter (timer.readAt calls 0)).toNat ≤
      (timer.counter (timer.readAt calls index)).toNat := by
  induction index with
  | zero => exact Nat.le_refl _
  | succ index ih => exact (ih (Nat.le_of_lt inside)).trans (steady.rises inside)

theorem Steady.credible (steady : Steady timer calls reads) (taken : 0 < reads) :
    ∀ index < reads, Credible (timer.flightReadings calls index)
      (timer.flightReadings calls (index + 1)) := by
  intro index inside
  rw [steady.exact taken (Nat.le_of_lt inside), steady.exact taken inside]
  refine ⟨rfl, rfl, steady.rises inside, ?_⟩
  have close := steady.close index inside
  have starts := timer.rises (timer.call_starts calls index)
  have ends := timer.rises (timer.call_ends calls (index + 1))
  change (timer.counter (timer.readAt calls (index + 1))).toNat -
    (timer.counter (timer.readAt calls index)).toNat < 32768
  omega

/-- Wherever its carries fall, a counter read by the flight reader passes the check, which
reports the ticks between its first reading and its last and the largest gap between two. -/
theorem flight_reader_passes (steady : Steady timer calls reads) (taken : 0 < reads) :
    let check := checkTickCounter reads (timer.flightReadings calls)
    let ticks := fun index => (timer.counter (timer.readAt calls index)).toNat
    check.status = .ok ∧ check.span.toNat = ticks reads - ticks 0 ∧
      (∀ index < reads, ticks (index + 1) - ticks index ≤ check.maxDelta.toNat) ∧
      ∃ index < reads, ticks (index + 1) - ticks index = check.maxDelta.toNat := by
  obtain ⟨largest, gaps, passed⟩ := checkTickCounter_ok taken (steady.credible taken)
  intro check ticks
  have gap {index : Nat} (inside : index < reads) :
      ((timer.flightReadings calls (index + 1)).2 - (timer.flightReadings calls index).2).toNat =
        ticks (index + 1) - ticks index := by
    rw [steady.exact taken inside, steady.exact taken (Nat.le_of_lt inside)]
    exact BitVec.toNat_sub_of_le (BitVec.le_def.mpr (steady.rises inside))
  have bounds : ∀ index < reads, ticks (index + 1) - ticks index ≤ largest.toNat := by
    intro index inside
    rw [← gap inside]
    exact gaps.bounds index inside
  have shown : check = _ := passed
  rw [shown]
  refine ⟨rfl, ?_, bounds, ?_⟩
  · dsimp only
    rw [steady.exact taken (Nat.le_refl reads), steady.exact taken (Nat.zero_le reads)]
    exact BitVec.toNat_sub_of_le (BitVec.le_def.mpr (steady.onward (Nat.le_refl reads)))
  · rcases gaps.attained with zero | ⟨index, inside, same⟩
    · refine ⟨0, taken, Nat.le_antisymm (bounds 0 taken) ?_⟩
      rw [zero]
      exact Nat.zero_le _
    · exact ⟨index, inside, (gap inside).symm.trans (congrArg BitVec.toNat same)⟩

structure NaiveCalls (Time : Type*) [Preorder Time] where
  lo : Nat → Time
  hi : Nat → Time
  lo_hi : ∀ index, lo index ≤ hi index
  next : ∀ index, hi index ≤ lo (index + 1)

def Timer.naiveReadings (timer : Timer Time) (calls : NaiveCalls Time) (index : Nat) :
    ObcStatus × U64 :=
  naiveMtimeRead (loWord (timer.counter (calls.lo index))) (hiWord (timer.counter (calls.hi index)))

def Timer.Torn (timer : Timer Time) (calls : NaiveCalls Time) (index : Nat) : Prop :=
  hiWord (timer.counter (calls.lo index)) ≠ hiWord (timer.counter (calls.hi index))

instance (timer : Timer Time) (calls : NaiveCalls Time) (index : Nat) :
    Decidable (timer.Torn calls index) :=
  inferInstanceAs (Decidable (_ ≠ _))

variable {naive : NaiveCalls Time}

theorem toNat_joined (hi lo : U32) :
    (hi.setWidth 64 <<< 32 ||| lo.setWidth 64).toNat = hi.toNat * 2 ^ 32 + lo.toNat := by
  have high := hi.isLt
  rw [BitVec.toNat_or, BitVec.toNat_shiftLeft, BitVec.toNat_setWidth, BitVec.toNat_setWidth,
    Nat.mod_eq_of_lt (by omega : hi.toNat < 2 ^ 64), Nat.mod_eq_of_lt (by omega : lo.toNat < 2 ^ 64),
    Nat.shiftLeft_eq, Nat.mod_eq_of_lt (by omega), ← Nat.shiftLeft_eq,
    ← Nat.shiftLeft_add_eq_or_of_lt lo.isLt, Nat.shiftLeft_eq]

theorem naive_whole {index : Nat} (whole : ¬timer.Torn naive index) :
    timer.naiveReadings naive index = (.ok, timer.counter (naive.lo index)) := by
  have same : hiWord (timer.counter (naive.lo index)) = hiWord (timer.counter (naive.hi index)) :=
    not_not.mp whole
  rw [Timer.naiveReadings, naiveMtimeRead, ← same, words_joined]

/-- Over a short call the reading that a carry tears is a whole turn of the low word too large. -/
theorem naive_torn {index : Nat} (torn : timer.Torn naive index)
    (short : (timer.counter (naive.hi index)).toNat <
      (timer.counter (naive.lo index)).toNat + 32768) :
    (timer.naiveReadings naive index).2.toNat =
      (timer.counter (naive.lo index)).toNat + 2 ^ 32 := by
  have carried := timer.carried (naive.lo_hi index) torn
  rw [Timer.naiveReadings, naiveMtimeRead]
  dsimp only
  rw [toNat_joined, hiWord_toNat]
  have low : (loWord (timer.counter (naive.lo index))).toNat =
      (timer.counter (naive.lo index)).toNat % 2 ^ 32 := BitVec.toNat_setWidth _ _
  rw [low]
  omega

theorem first_torn {index : Nat} (whole : ¬timer.Torn naive 0) (torn : timer.Torn naive index) :
    ∃ bad < index, timer.Torn naive (bad + 1) ∧ ∀ earlier ≤ bad, ¬timer.Torn naive earlier := by
  have exists_torn : ∃ index, timer.Torn naive index := ⟨index, torn⟩
  have first := Nat.find_spec exists_torn
  have least := Nat.find_le (h := exists_torn) torn
  obtain ⟨bad, here⟩ := Nat.exists_eq_add_one_of_ne_zero fun zero : Nat.find exists_torn = 0 =>
    whole (zero ▸ first)
  refine ⟨bad, by omega, here ▸ first, fun earlier less => Nat.find_min exists_torn (by omega)⟩

/-- The same check over the naive reader: a torn reading is caught, the first one of all
because the clock then seems to run backwards, any later one because it seems to jump; and
it passes only where no carry has fallen inside a reading. -/
theorem naive_reader_caught (taken : 0 < reads)
    (close : ∀ index < reads, (timer.counter (naive.hi (index + 1))).toNat <
      (timer.counter (naive.lo index)).toNat + 32768) :
    let status := (checkTickCounter reads (timer.naiveReadings naive)).status
    (timer.Torn naive 0 → status = .errInvalid) ∧
      (¬timer.Torn naive 0 → (∃ index ≤ reads, timer.Torn naive index) → status = .errUnstable) ∧
      ((∀ index ≤ reads, ¬timer.Torn naive index) → status = .ok) := by
  have inCall (index : Nat) := timer.rises (naive.lo_hi index)
  have between (index : Nat) := timer.rises (naive.next index)
  have credible {index : Nat} (inside : index < reads) (first : ¬timer.Torn naive index)
      (second : ¬timer.Torn naive (index + 1)) :
      Credible (timer.naiveReadings naive index) (timer.naiveReadings naive (index + 1)) := by
    rw [naive_whole first, naive_whole second]
    have near := close index inside
    have onward := (inCall index).trans (between index)
    have later := inCall (index + 1)
    refine ⟨rfl, rfl, onward, ?_⟩
    change (timer.counter (naive.lo (index + 1))).toNat - (timer.counter (naive.lo index)).toNat < 32768
    omega
  refine ⟨?_, ?_, ?_⟩
  · intro torn
    have near : (timer.counter (naive.hi 1)).toNat < (timer.counter (naive.lo 0)).toNat + 32768 :=
      close 0 taken
    have here := inCall 0
    have onward : _ ≤ (timer.counter (naive.lo 1)).toNat := between 0
    have later := inCall 1
    have first := naive_torn torn (by omega)
    -- One second holds one carry, so that the next reading is whole.
    have whole : ¬timer.Torn naive 1 := by
      intro again
      have one := timer.carried (naive.lo_hi 0) torn
      have two := timer.carried (naive.lo_hi 1) again
      omega
    refine (checkTickCounter_bad taken (by simp) rfl rfl).1 ?_
    rw [first, naive_whole whole]
    change (timer.counter (naive.lo 1)).toNat < _
    omega
  · rintro whole ⟨index, inside, torn⟩
    obtain ⟨bad, below, first, before⟩ := first_torn whole torn
    have within : bad < reads := by omega
    have near := close bad within
    have onward := (inCall bad).trans (between bad)
    have later := inCall (bad + 1)
    have exact := naive_whole (before bad (Nat.le_refl bad))
    have jumped := naive_torn first (by omega)
    have earlier : ∀ index < bad, Credible (timer.naiveReadings naive index)
        (timer.naiveReadings naive (index + 1)) := fun index less =>
      credible (less.trans within) (before index (Nat.le_of_lt less)) (before (index + 1) less)
    refine (checkTickCounter_bad within earlier rfl rfl).2 ?_
    rw [exact]
    change (timer.counter (naive.lo bad)).toNat + 32768 ≤ _
    omega
  · intro whole
    have all : ∀ index < reads, Credible (timer.naiveReadings naive index)
        (timer.naiveReadings naive (index + 1)) := fun index inside =>
      credible inside (whole index (Nat.le_of_lt inside)) (whole (index + 1) inside)
    obtain ⟨largest, _, passed⟩ := checkTickCounter_ok taken all
    rw [passed]

end

/-- A counter that carries into its high word after two ticks, and stops later. -/
def carryTimer : Timer Nat where
  counter tick := BitVec.ofNat 64 (0xFFFFFFFE + min tick 1000)
  rises := by
    intro before after onward
    rw [BitVec.toNat_ofNat, BitVec.toNat_ofNat]
    omega

theorem carryTimer_close (before after : Nat) :
    (carryTimer.counter after).toNat < (carryTimer.counter before).toNat + 32768 := by
  simp only [carryTimer, BitVec.toNat_ofNat]
  omega

def carryCalls (index : Nat) : ReadInstants Nat where
  hi attempt := 12 * index + 3 * attempt.val
  lo attempt := 12 * index + 3 * attempt.val + 1
  hiAgain attempt := 12 * index + 3 * attempt.val + 2
  hi_lo attempt := by omega
  lo_hiAgain attempt := by omega
  next := by
    intro attempt later earlier
    have := Fin.lt_def.mp earlier
    omega

theorem carryCalls_steady (reads : Nat) : Steady carryTimer carryCalls reads := by
  constructor
  · intro index _
    rw [Timer.readEnd]
    generalize lastAttempt (carryTimer.samples (carryCalls index)) = attempt
    have last : attempt.val < 4 := attempt.isLt
    change 12 * index + 3 * attempt.val + 2 ≤ 12 * (index + 1) + 3 * 0
    omega
  · exact fun index _ => carryTimer_close _ _

theorem flight_reader_passes_carry :
    (checkTickCounter 64 (carryTimer.flightReadings carryCalls)).status = .ok :=
  (flight_reader_passes (carryCalls_steady 64) (by decide)).1

def naiveCarryCalls (first : Nat) : NaiveCalls Nat where
  lo index := first + index
  hi index := first + index + 1
  lo_hi index := by omega
  next index := by omega

theorem naive_reader_caught_carry :
    (checkTickCounter 64 (carryTimer.naiveReadings (naiveCarryCalls 1))).status = .errInvalid ∧
      (checkTickCounter 64 (carryTimer.naiveReadings (naiveCarryCalls 0))).status = .errUnstable := by
  have caught (first : Nat) := @naive_reader_caught Nat _ carryTimer 64 (naiveCarryCalls first)
    (by decide) fun index _ => carryTimer_close _ _
  exact ⟨(caught 1).1 (by decide), (caught 0).2.1 (by decide) ⟨1, by decide, by decide⟩⟩

end ObcZero
