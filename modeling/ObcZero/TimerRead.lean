import ObcZero.TimerEscalation

/-! A 64-bit counter behind two 32-bit registers: what a call makes of it, wherever in
time its register reads fall. -/

namespace ObcZero

/-- A counter that never decreases, over any order of instants. -/
structure Timer (Time : Type*) [Preorder Time] where
  counter : Time → U64
  rises : ∀ {before after : Time}, before ≤ after → (counter before).toNat ≤ (counter after).toNat

structure ReadInstants (Time : Type*) [Preorder Time] where
  hi : Fin mtimeReadAttempts → Time
  lo : Fin mtimeReadAttempts → Time
  hiAgain : Fin mtimeReadAttempts → Time
  hi_lo : ∀ attempt, hi attempt ≤ lo attempt
  lo_hiAgain : ∀ attempt, lo attempt ≤ hiAgain attempt
  next : ∀ {attempt later}, attempt < later → hiAgain attempt ≤ hi later

def hiWord (value : U64) : U32 := (value >>> 32).setWidth 32
def loWord (value : U64) : U32 := value.setWidth 32

section

variable {Time : Type*} [Preorder Time] (timer : Timer Time) (instants : ReadInstants Time)

def Timer.samples (attempt : Fin mtimeReadAttempts) : MtimeSample :=
  { hi := hiWord (timer.counter (instants.hi attempt))
    lo := loWord (timer.counter (instants.lo attempt))
    hiAgain := hiWord (timer.counter (instants.hiAgain attempt)) }

end

def lastAttempt (samples : Fin mtimeReadAttempts → MtimeSample) : Fin mtimeReadAttempts :=
  ((List.finRange mtimeReadAttempts).find? fun attempt =>
    (samples attempt).hi == (samples attempt).hiAgain).getD (Fin.last 3)

theorem hiWord_toNat (value : U64) : (hiWord value).toNat = value.toNat / 2 ^ 32 := by
  have small : value.toNat / 2 ^ 32 < 2 ^ 32 := by
    have bound := value.isLt
    omega
  rw [hiWord, BitVec.toNat_setWidth, BitVec.toNat_ushiftRight, Nat.shiftRight_eq_div_pow,
    Nat.mod_eq_of_lt small]

theorem words_joined (value : U64) :
    (hiWord value).setWidth 64 <<< 32 ||| (loWord value).setWidth 64 = value := by
  apply BitVec.eq_of_getLsbD_eq
  intro bit inside
  by_cases low : bit < 32
  · simp [hiWord, loWord, low, inside]
  · have high : bit - 32 < 32 := by omega
    have place : 32 + (bit - 32) = bit := by omega
    simp [hiWord, loWord, low, inside, high, place]

section

variable {Time : Type*} [Preorder Time] (timer : Timer Time) (instants : ReadInstants Time)

theorem Timer.carried {before after : Time} (onward : before ≤ after)
    (moved : hiWord (timer.counter before) ≠ hiWord (timer.counter after)) :
    (timer.counter before).toNat / 2 ^ 32 + 1 ≤ (timer.counter after).toNat / 2 ^ 32 := by
  have rises := timer.rises onward
  have apart : (timer.counter before).toNat / 2 ^ 32 ≠ (timer.counter after).toNat / 2 ^ 32 := by
    rw [← hiWord_toNat, ← hiWord_toNat]
    exact fun same => moved (BitVec.eq_of_toNat_eq same)
  omega

theorem Timer.settled {first middle last : Time} (onward : first ≤ middle)
    (further : middle ≤ last)
    (same : hiWord (timer.counter first) = hiWord (timer.counter last)) :
    hiWord (timer.counter first) = hiWord (timer.counter middle) := by
  have low := timer.rises onward
  have high := timer.rises further
  have quotients := congrArg BitVec.toNat same
  rw [hiWord_toNat, hiWord_toNat] at quotients
  apply BitVec.eq_of_toNat_eq
  rw [hiWord_toNat, hiWord_toNat]
  omega

theorem Timer.two_carries
    (first : (timer.samples instants 0).hi ≠ (timer.samples instants 0).hiAgain)
    (second : (timer.samples instants 1).hi ≠ (timer.samples instants 1).hiAgain)
    {later : Fin mtimeReadAttempts} (beyond : 1 < later) :
    2 ^ 32 ≤ (timer.counter (instants.hiAgain later)).toNat -
      (timer.counter (instants.hi 0)).toNat := by
  have one := timer.carried ((instants.hi_lo 0).trans (instants.lo_hiAgain 0)) first
  have between := timer.rises (instants.next (show (0 : Fin mtimeReadAttempts) < 1 by decide))
  have two := timer.carried ((instants.hi_lo 1).trans (instants.lo_hiAgain 1)) second
  have after := timer.rises ((instants.next beyond).trans
    ((instants.hi_lo later).trans (instants.lo_hiAgain later)))
  omega

theorem before_lastAttempt (samples : Fin mtimeReadAttempts → MtimeSample)
    {attempt : Fin mtimeReadAttempts} (earlier : attempt < lastAttempt samples) :
    (samples attempt).hi ≠ (samples attempt).hiAgain := by
  cases found : (List.finRange mtimeReadAttempts).find? fun attempt =>
      (samples attempt).hi == (samples attempt).hiAgain with
  | none => simpa using List.find?_eq_none.mp found attempt (List.mem_finRange attempt)
  | some last =>
      obtain ⟨_, place, inside, here, rejected⟩ := List.find?_eq_some_iff_getElem.mp found
      rw [lastAttempt, found, Option.getD_some] at earlier
      have same : last.val = place := by
        rw [← here, List.getElem_finRange]
        rfl
      have passed := rejected attempt.val (same ▸ Fin.lt_def.mp earlier)
      simpa using passed

theorem lastAttempt_settles {samples : Fin mtimeReadAttempts → MtimeSample} {before : U64}
    {unstableCount : U32} (ok : (obcMtimeRead samples (some before) unstableCount).1 = .ok) :
    (samples (lastAttempt samples)).hi = (samples (lastAttempt samples)).hiAgain ∧
      (obcMtimeRead samples (some before) unstableCount).2.1 =
        some ((samples (lastAttempt samples)).hi.setWidth 64 <<< 32 |||
          (samples (lastAttempt samples)).lo.setWidth 64) := by
  cases found : (List.finRange mtimeReadAttempts).find? fun attempt =>
      (samples attempt).hi == (samples attempt).hiAgain with
  | none => simp [obcMtimeRead, found] at ok
  | some attempt =>
      have settled := List.find?_some found
      simp only [lastAttempt, obcMtimeRead, found, Option.getD_some]
      exact ⟨by simpa using settled, trivial⟩

/-- What a call makes of the counter. -/
structure ReadExactly (before : U64) (unstableCount : U32) : Prop where
  exact : (obcMtimeRead (timer.samples instants) (some before) unstableCount).1 = .ok →
    (obcMtimeRead (timer.samples instants) (some before) unstableCount).2.1 =
      some (timer.counter (instants.lo (lastAttempt (timer.samples instants))))
  settles :
    (timer.counter (instants.hiAgain (lastAttempt (timer.samples instants)))).toNat -
        (timer.counter (instants.hi 0)).toNat < 2 ^ 32 →
      (obcMtimeRead (timer.samples instants) (some before) unstableCount).1 = .ok ∧
        (lastAttempt (timer.samples instants)).val + 1 ≤ 2
  failed : (obcMtimeRead (timer.samples instants) (some before) unstableCount).1 ≠ .ok →
    obcMtimeRead (timer.samples instants) (some before) unstableCount =
      (.errUnstable, some before, unstableCount + 1)

/-- For every counter that never decreases and every placement of the reads. -/
theorem mtime_read_exact (before : U64) (unstableCount : U32) :
    ReadExactly timer instants before unstableCount := by
  constructor
  · intro ok
    obtain ⟨settled, value⟩ := lastAttempt_settles ok
    rw [value]
    generalize lastAttempt (timer.samples instants) = attempt at settled
    have word := timer.settled (instants.hi_lo attempt) (instants.lo_hiAgain attempt) settled
    simp only [Timer.samples, word, words_joined]
  · intro advance
    have few : (lastAttempt (timer.samples instants)).val < 2 := by
      by_contra many
      have beyond : 1 < lastAttempt (timer.samples instants) := Fin.lt_def.mpr (Nat.not_lt.mp many)
      have apart := timer.two_carries instants
        (before_lastAttempt _ ((show (0 : Fin mtimeReadAttempts) < 1 by decide).trans beyond))
        (before_lastAttempt _ beyond) beyond
      omega
    refine ⟨?_, few⟩
    rw [lastAttempt] at few
    cases found : (List.finRange mtimeReadAttempts).find? fun attempt =>
        (timer.samples instants attempt).hi == (timer.samples instants attempt).hiAgain with
    | some attempt => simp only [obcMtimeRead, found]
    | none =>
        rw [found] at few
        exact absurd few (by decide)
  · intro failed
    cases found : (List.finRange mtimeReadAttempts).find? fun attempt =>
        (timer.samples instants attempt).hi == (timer.samples instants attempt).hiAgain with
    | some attempt =>
        simp only [obcMtimeRead, found] at failed
        exact absurd rfl failed
    | none => simp only [obcMtimeRead, found]

end

end ObcZero
