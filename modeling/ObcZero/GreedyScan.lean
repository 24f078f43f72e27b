import Mathlib

/-!
Greedy scans of a stream laid out in segments. A scan takes an item wherever one
begins and goes on behind it, and otherwise moves on by one position. It finds the
item segments of a layout, and only them, exactly when no item begins inside a
segment of filler.
-/

namespace GreedyScan

variable {Item : Type*}

structure Segment where
  length : Nat
  isItem : Bool

structure Scans (sound : Nat → Prop) (item : Nat → Item) (size stop : Nat)
    (scan : Nat → List Item) : Prop where
  found : ∀ {position}, sound position → scan position = item position :: scan (position + size)
  passed : ∀ {position}, ¬sound position → scan position = scan (position + 1)
  ended : ∀ {position}, stop ≤ position → scan position = []

def total (segments : List Segment) : Nat := (segments.map Segment.length).sum

def starts : Nat → List Segment → List Nat
  | _, [] => []
  | position, segment :: rest =>
      if segment.isItem then position :: starts (position + segment.length) rest
      else starts (position + segment.length) rest

def Placed (sound : Nat → Prop) (size : Nat) : Nat → List Segment → Prop
  | _, [] => True
  | position, segment :: rest =>
      (segment.isItem = true → sound position ∧ segment.length = size) ∧
        Placed sound size (position + segment.length) rest

/-- No item begins inside filler. -/
def Quiet (sound : Nat → Prop) : Nat → List Segment → Prop
  | _, [] => True
  | position, segment :: rest =>
      (segment.isItem = false → ∀ inside, position ≤ inside →
        inside < position + segment.length → ¬sound inside) ∧
        Quiet sound (position + segment.length) rest

theorem starts_bound (segments : List Segment) {position start : Nat}
    (member : start ∈ starts position segments) : position ≤ start := by
  induction segments generalizing position with
  | nil => cases member
  | cons segment rest ih =>
      rw [starts] at member
      split at member
      · rcases List.mem_cons.mp member with same | later
        · exact Nat.le_of_eq same.symm
        · exact Nat.le_trans (Nat.le_add_right _ _) (ih later)
      · exact Nat.le_trans (Nat.le_add_right _ _) (ih member)

section

variable {sound : Nat → Prop} {item : Nat → Item} {size stop : Nat} {scan : Nat → List Item}
  (scans : Scans sound item size stop scan)

include scans

theorem Scans.quiet {first last : Nat} (order : first ≤ last)
    (none : ∀ inside, first ≤ inside → inside < last → ¬sound inside) :
    scan first = scan last := by
  induction last, order using Nat.le_induction with
  | base => rfl
  | succ last order ih =>
      rw [ih fun inside lower upper => none inside lower (Nat.lt_succ_of_lt upper),
        scans.passed (none last order (Nat.lt_succ_self last))]

theorem Scans.segments {position : Nat} {segments : List Segment}
    (placed : Placed sound size position segments) (quiet : Quiet sound position segments)
    (reach : stop ≤ position + total segments) :
    scan position = (starts position segments).map item := by
  induction segments generalizing position with
  | nil => exact scans.ended reach
  | cons segment rest ih =>
      have later := ih placed.2 quiet.2 (by
        simp only [total, List.map_cons, List.sum_cons] at reach ⊢
        omega)
      cases isItem : segment.isItem with
      | true =>
          obtain ⟨here, length⟩ := placed.1 isItem
          rw [scans.found here, starts, if_pos isItem, List.map_cons, ← later, length]
      | false =>
          rw [scans.quiet (Nat.le_add_right position segment.length) (quiet.1 isItem), starts,
            if_neg (by simp [isItem]), later]

theorem Scans.quiet_of_segments (injective : Function.Injective item) {position : Nat}
    {segments : List Segment} (placed : Placed sound size position segments)
    (exactly : scan position = (starts position segments).map item) :
    Quiet sound position segments := by
  induction segments generalizing position with
  | nil => trivial
  | cons segment rest ih =>
      cases isItem : segment.isItem with
      | true =>
          obtain ⟨here, length⟩ := placed.1 isItem
          rw [scans.found here, starts, if_pos isItem, List.map_cons, length] at exactly
          have tail := (List.cons.inj exactly).2
          rw [← length] at tail
          exact ⟨fun filler => absurd (isItem.symm.trans filler) (by decide), ih placed.2 tail⟩
      | false =>
          rw [starts, if_neg (by simp [isItem])] at exactly
          have none : ∀ inside, position ≤ inside → inside < position + segment.length →
              ¬sound inside := by
            intro inside
            induction inside using Nat.strong_induction_on with
            | h inside earlier =>
                intro lower upper here
                have before := scans.quiet lower fun other low high =>
                  earlier other high low (Nat.lt_trans high upper)
                rw [before, scans.found here] at exactly
                have first : item inside ∈ (starts (position + segment.length) rest).map item := by
                  rw [← exactly]
                  exact List.mem_cons_self
                obtain ⟨start, member, same⟩ := List.mem_map.mp first
                have bound := starts_bound rest member
                have equal := injective same
                omega
          refine ⟨fun _ => none, ih placed.2 ?_⟩
          rw [← exactly, scans.quiet (Nat.le_add_right position segment.length) none]

theorem Scans.exactly_iff (injective : Function.Injective item) {position : Nat}
    {segments : List Segment} (placed : Placed sound size position segments)
    (reach : stop ≤ position + total segments) :
    scan position = (starts position segments).map item ↔ Quiet sound position segments :=
  ⟨scans.quiet_of_segments injective placed, fun quiet => scans.segments placed quiet reach⟩

end

end GreedyScan
