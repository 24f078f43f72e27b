import Mathlib

/-!
Counting the times an observation stops holding. A tally keeps a latch and a
count for every source. A bank keeps a latch for every slot, one count for them
all, and hears a source through its index. When no two sources share a slot the
bank counts what the tally does, and when two share one there are observations
it cannot tell apart.
-/

namespace EdgeTally

variable {Source Slot : Type*} [DecidableEq Source] [DecidableEq Slot]

structure Tally (Source : Type*) where
  holding : Source → Bool
  failures : Nat
  edges : Source → Nat

def Tally.start : Tally Source :=
  { holding := fun _ => true, failures := 0, edges := fun _ => 0 }

def Tally.observe (source : Source) (held : Bool) (tally : Tally Source) : Tally Source :=
  if held then { tally with holding := Function.update tally.holding source true }
  else
    { holding := Function.update tally.holding source false
      failures := tally.failures + 1
      edges := Function.update tally.edges source
        (tally.edges source + if tally.holding source then 1 else 0) }

structure Bank (Slot : Type*) where
  latch : Slot → Bool
  failures : Nat
  events : Nat

def Bank.observe (slot : Slot) (held : Bool) (bank : Bank Slot) : Bank Slot :=
  if held then { bank with latch := Function.update bank.latch slot true }
  else
    { latch := Function.update bank.latch slot false
      failures := bank.failures + 1
      events := bank.events + if bank.latch slot then 1 else 0 }

theorem Tally.observe_failures (source : Source) (held : Bool) (tally : Tally Source) :
    (tally.observe source held).failures = tally.failures + if held then 0 else 1 := by
  cases held <;> simp [Tally.observe]

theorem Bank.observe_failures (slot : Slot) (held : Bool) (bank : Bank Slot) :
    (bank.observe slot held).failures = bank.failures + if held then 0 else 1 := by
  cases held <;> simp [Bank.observe]

variable [Fintype Source]

def Tally.total (tally : Tally Source) : Nat :=
  ∑ source, tally.edges source

omit [DecidableEq Source] in
@[simp] theorem Tally.start_total : (Tally.start : Tally Source).total = 0 := by
  simp [Tally.total, Tally.start]

theorem Tally.observe_total (source : Source) (held : Bool) (tally : Tally Source) :
    (tally.observe source held).total =
      tally.total + if !held && tally.holding source then 1 else 0 := by
  cases held with
  | true => simp [Tally.observe, Tally.total]
  | false =>
      have raised := Finset.sum_update_of_mem (Finset.mem_univ source) tally.edges
        (tally.edges source + if tally.holding source then 1 else 0)
      have before := Finset.add_sum_erase Finset.univ tally.edges (Finset.mem_univ source)
      simp only [Finset.sdiff_singleton_eq_erase] at raised
      simp only [Tally.observe, Tally.total, Bool.false_eq_true, ↓reduceIte, Bool.not_false,
        Bool.true_and]
      omega

/-- Every edge is a failure, so the edges are never more than the failures. -/
theorem Tally.total_le_failures_observe {tally : Tally Source}
    (bounded : tally.total ≤ tally.failures) (source : Source) (held : Bool) :
    (tally.observe source held).total ≤ (tally.observe source held).failures := by
  rw [Tally.observe_total, Tally.observe_failures]
  cases held <;> cases tally.holding source <;> simp <;> omega

structure Agrees (index : Source → Slot) (bank : Bank Slot) (tally : Tally Source) : Prop where
  latched : ∀ source, bank.latch (index source) = tally.holding source
  counted : bank.events = tally.total

theorem Agrees.observe {index : Source → Slot} (apart : Function.Injective index)
    {bank : Bank Slot} {tally : Tally Source} (agrees : Agrees index bank tally)
    (source : Source) (held : Bool) :
    Agrees index (bank.observe (index source) held) (tally.observe source held) := by
  have latched (value : Bool) (other : Source) :
      Function.update bank.latch (index source) value (index other) =
        Function.update tally.holding source value other := by
    by_cases same : other = source
    · subst same
      simp
    · rw [Function.update_of_ne same, Function.update_of_ne fun shared => same (apart shared)]
      exact agrees.latched other
  constructor
  · intro other
    cases held with
    | true => exact latched true other
    | false => exact latched false other
  · rw [Tally.observe_total, ← agrees.counted, ← agrees.latched source]
    cases held <;> simp [Bank.observe]

/-- Two sources behind one slot: when both stop holding the bank hears once. -/
theorem Agrees.masked {index : Source → Slot} {bank : Bank Slot} {tally : Tally Source}
    (agrees : Agrees index bank tally) {first second : Source} (different : first ≠ second)
    (shared : index first = index second) (held : ∀ source, tally.holding source = true) :
    ((tally.observe first false).observe second false).total =
      ((bank.observe (index first) false).observe (index second) false).events + 1 := by
  have latched := agrees.latched first
  rw [held first] at latched
  have counted := agrees.counted
  have other : (tally.observe first false).holding second = true := by
    simp [Tally.observe, different.symm, held second]
  simp only [Tally.observe_total, other, held first, Bank.observe, ← shared, latched,
    Bool.false_eq_true, ↓reduceIte, Function.update_self, Bool.not_false, Bool.and_true]
  omega

end EdgeTally
