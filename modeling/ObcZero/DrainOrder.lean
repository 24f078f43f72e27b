import Mathlib

/-!
A loop that serves, pass after pass, a least one of the indices still waiting. When
serving an index takes it out of the waiting ones and moves no other key, enough
passes serve each of them once, in the order of their keys.
-/

namespace DrainOrder

variable {State Index Key : Type*}

def drain (pick : State → Option Index) (serve : Index → State → State) : Nat → State → State
  | 0, state => state
  | passes + 1, state =>
      match pick state with
      | none => state
      | some index => drain pick serve passes (serve index state)

def served (pick : State → Option Index) (serve : Index → State → State) :
    Nat → State → List Index
  | 0, _ => []
  | passes + 1, state =>
      match pick state with
      | none => []
      | some index => index :: served pick serve passes (serve index state)

theorem drain_eq_foldl (pick : State → Option Index) (serve : Index → State → State)
    (passes : Nat) (state : State) :
    drain pick serve passes state =
      (served pick serve passes state).foldl (fun current index => serve index current) state := by
  induction passes generalizing state with
  | zero => rfl
  | succ passes ih =>
      simp only [drain, served]
      cases pick state with
      | none => rfl
      | some index => exact ih (serve index state)

theorem pair_sublist_or {list : List Index} {first second : Index} (firstMember : first ∈ list)
    (secondMember : second ∈ list) (apart : first ≠ second) :
    [first, second].Sublist list ∨ [second, first].Sublist list := by
  induction list with
  | nil => cases firstMember
  | cons head rest ih =>
      rcases List.mem_cons.mp firstMember with firstHere | firstLater
      · subst firstHere
        have later := (List.mem_cons.mp secondMember).resolve_left apart.symm
        exact .inl ((List.singleton_sublist.mpr later).cons_cons first)
      · rcases List.mem_cons.mp secondMember with secondHere | secondLater
        · subst secondHere
          exact .inr ((List.singleton_sublist.mpr firstLater).cons_cons second)
        · exact (ih firstLater secondLater).imp (List.Sublist.cons head) (List.Sublist.cons head)

structure LeastFirst [DecidableEq Index] [Preorder Key] (pick : State → Option Index)
    (serve : Index → State → State) (waiting : State → Finset Index)
    (key : State → Index → Key) : Prop where
  idle : ∀ {state}, pick state = none → waiting state = ∅
  chosen : ∀ {state index}, pick state = some index → index ∈ waiting state
  least : ∀ {state index other}, pick state = some index → other ∈ waiting state →
    key state index ≤ key state other
  removed : ∀ {state index}, index ∈ waiting state →
    waiting (serve index state) = (waiting state).erase index
  kept : ∀ {state index other}, index ∈ waiting state → other ∈ waiting (serve index state) →
    key (serve index state) other = key state other

section

variable [DecidableEq Index] [Preorder Key] {pick : State → Option Index}
  {serve : Index → State → State} {waiting : State → Finset Index} {key : State → Index → Key}
  (first : LeastFirst pick serve waiting key)

include first

theorem LeastFirst.mem_waiting {passes : Nat} {state : State} {index : Index}
    (member : index ∈ served pick serve passes state) : index ∈ waiting state := by
  induction passes generalizing state with
  | zero => cases member
  | succ passes ih =>
      simp only [served] at member
      cases found : pick state with
      | none =>
          rw [found] at member
          cases member
      | some picked =>
          rw [found] at member
          have chosen := first.chosen found
          rcases List.mem_cons.mp member with here | later
          · rw [here]
            exact chosen
          · have left := ih later
            rw [first.removed chosen] at left
            exact Finset.mem_of_mem_erase left

theorem LeastFirst.nodup (passes : Nat) (state : State) :
    (served pick serve passes state).Nodup := by
  induction passes generalizing state with
  | zero => exact List.nodup_nil
  | succ passes ih =>
      simp only [served]
      cases found : pick state with
      | none => exact List.nodup_nil
      | some picked =>
          refine List.nodup_cons.mpr ⟨fun again => ?_, ih (serve picked state)⟩
          have left := first.mem_waiting again
          rw [first.removed (first.chosen found)] at left
          exact Finset.notMem_erase picked _ left

theorem LeastFirst.sorted (passes : Nat) (state : State) :
    (served pick serve passes state).Pairwise fun earlier later =>
      key state earlier ≤ key state later := by
  induction passes generalizing state with
  | zero => exact List.Pairwise.nil
  | succ passes ih =>
      simp only [served]
      cases found : pick state with
      | none => exact List.Pairwise.nil
      | some picked =>
          have chosen := first.chosen found
          have still : ∀ index ∈ served pick serve passes (serve picked state),
              key (serve picked state) index = key state index :=
            fun index member => first.kept chosen (first.mem_waiting member)
          refine List.pairwise_cons.mpr ⟨fun index member => ?_, ?_⟩
          · have left := first.mem_waiting member
            rw [first.removed chosen] at left
            exact first.least found (Finset.mem_of_mem_erase left)
          · refine (ih (serve picked state)).imp_of_mem ?_
            intro earlier later earlierMember laterMember before
            rwa [still earlier earlierMember, still later laterMember] at before

theorem LeastFirst.complete {passes : Nat} {state : State}
    (enough : (waiting state).card ≤ passes) {index : Index} :
    index ∈ served pick serve passes state ↔ index ∈ waiting state := by
  refine ⟨first.mem_waiting, fun waits => ?_⟩
  induction passes generalizing state with
  | zero =>
      have none := Finset.card_eq_zero.mp (Nat.le_zero.mp enough)
      rw [none] at waits
      exact absurd waits (Finset.notMem_empty index)
  | succ passes ih =>
      simp only [served]
      cases found : pick state with
      | none =>
          rw [first.idle found] at waits
          exact absurd waits (Finset.notMem_empty index)
      | some picked =>
          have chosen := first.chosen found
          have removed := first.removed chosen
          by_cases here : index = picked
          · exact List.mem_cons.mpr (.inl here)
          · refine List.mem_cons_of_mem _ (ih ?_ ?_)
            · rw [removed, Finset.card_erase_of_mem chosen]
              omega
            · rw [removed]
              exact Finset.mem_erase.mpr ⟨here, waits⟩

/-- Of two indices that are both waiting, the one with the lesser key is served first. -/
theorem LeastFirst.before {passes : Nat} {state : State}
    (enough : (waiting state).card ≤ passes) {index other : Index} (waits : index ∈ waiting state)
    (otherWaits : other ∈ waiting state) (less : key state index < key state other) :
    [index, other].Sublist (served pick serve passes state) := by
  have apart : index ≠ other := by
    rintro rfl
    exact lt_irrefl _ less
  rcases pair_sublist_or ((first.complete enough).mpr waits)
      ((first.complete enough).mpr otherWaits) apart with inOrder | reversed
  · exact inOrder
  · exact absurd less ((first.sorted passes state).forall_sublist reversed).not_gt

end

end DrainOrder
