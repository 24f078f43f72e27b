import Mathlib

/-!
Regions of a buffer laid end to end, each starting where the one before it stops, and
the loop that checks a table of rows for it.
-/

namespace ChainedRegions

structure Region where
  offset : Nat
  size : Nat
  deriving DecidableEq, Repr

def Region.stop (region : Region) : Nat := region.offset + region.size

def Region.Apart (first second : Region) : Prop :=
  first.stop ≤ second.offset ∨ second.stop ≤ first.offset

def Chained : Nat → List Region → Nat → Prop
  | start, [], stop => start = stop
  | start, region :: rest, stop => region.offset = start ∧ Chained region.stop rest stop

theorem Chained.le {start stop : Nat} {regions : List Region} (chained : Chained start regions stop) :
    start ≤ stop := by
  induction regions generalizing start with
  | nil => exact Nat.le_of_eq chained
  | cons region rest ih =>
      obtain ⟨rfl, later⟩ := chained
      exact Nat.le_trans (Nat.le_add_right region.offset region.size) (ih later)

theorem Chained.inside {start stop : Nat} {regions : List Region}
    (chained : Chained start regions stop) :
    ∀ region ∈ regions, start ≤ region.offset ∧ region.stop ≤ stop := by
  induction regions generalizing start with
  | nil =>
      intro region member
      cases member
  | cons first rest ih =>
      obtain ⟨rfl, later⟩ := chained
      intro region member
      rcases List.mem_cons.mp member with rfl | further
      · exact ⟨Nat.le_refl _, later.le⟩
      · have bounds := ih later region further
        exact ⟨Nat.le_trans (Nat.le_add_right _ _) bounds.1, bounds.2⟩

theorem Chained.ordered {start stop : Nat} {regions : List Region}
    (chained : Chained start regions stop) :
    regions.Pairwise fun first second => first.stop ≤ second.offset := by
  induction regions generalizing start with
  | nil => exact .nil
  | cons first rest ih =>
      have later := chained.2
      exact .cons (fun second member => (later.inside second member).1) (ih later)

section Rows

variable {Row : Type*} {region : Row → Region} {rows : List Row}

/-- Two different rows of a chained table lie one after the other. -/
theorem Chained.apart {start stop : Nat} (chained : Chained start (rows.map region) stop)
    {first second : Row} (firstMember : first ∈ rows) (secondMember : second ∈ rows)
    (different : first ≠ second) :
    (region first).Apart (region second) := by
  have ordered := List.pairwise_map.mp chained.ordered
  have either : rows.Pairwise fun first second => (region first).Apart (region second) :=
    ordered.imp Or.inl
  have symmetric : Std.Symm fun first second => (region first).Apart (region second) :=
    ⟨fun _ _ => Or.symm⟩
  exact either.forall firstMember secondMember different

/-- A loop that carries the offset it expects next, and stops at the first row that is
unsound or elsewhere, accepts exactly the sound chained tables. -/
theorem foldl_chained {step : Option Nat → Row → Option Nat} {sound : Row → Prop}
    (stopped : ∀ row, step none row = none)
    (taken : ∀ expected row next, step (some expected) row = some next ↔
      sound row ∧ (region row).offset = expected ∧ next = (region row).stop) (start stop : Nat) :
    rows.foldl step (some start) = some stop ↔
      (∀ row ∈ rows, sound row) ∧ Chained start (rows.map region) stop := by
  induction rows generalizing start with
  | nil => simp [Chained]
  | cons row rest ih =>
      have dead : rest.foldl step none = none := by
        clear ih
        induction rest with
        | nil => rfl
        | cons other others ih => rw [List.foldl_cons, stopped, ih]
      rw [List.foldl_cons, List.map_cons, List.forall_mem_cons, Chained]
      cases next : step (some start) row with
      | none =>
          rw [dead]
          constructor
          · intro impossible
            cases impossible
          · rintro ⟨⟨soundRow, _⟩, placed, _⟩
            have went := (taken start row _).mpr ⟨soundRow, placed, rfl⟩
            rw [next] at went
            cases went
      | some expected =>
          obtain ⟨soundRow, placed, rfl⟩ := (taken start row expected).mp next
          rw [ih]
          constructor
          · rintro ⟨soundRest, later⟩
            exact ⟨⟨soundRow, soundRest⟩, placed, later⟩
          · rintro ⟨⟨_, soundRest⟩, _, later⟩
            exact ⟨soundRest, later⟩

end Rows

end ChainedRegions
