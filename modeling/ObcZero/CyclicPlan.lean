import Mathlib

/-!
The plan of a cyclic schedule. A row is due in every frame its period divides,
and never when its period is zero. The plan of a number of frames lists the due
rows frame after frame, each frame's in the order of the rows.
-/

namespace CyclicPlan

def due (frame period : Nat) : Bool :=
  period != 0 && frame % period == 0

/-- The rows before `position` that are due in a frame. -/
def dueBelow (periods : List Nat) (frame position : Nat) : List Nat :=
  (List.range position).filter fun row => due frame (periods.getD row 0)

def plan (periods : List Nat) (frames : Nat) : List Nat :=
  (List.range frames).flatMap fun frame => dueBelow periods frame periods.length

def planUpTo (periods : List Nat) (frame position : Nat) : List Nat :=
  plan periods frame ++ dueBelow periods frame position

theorem due_iff {frame period : Nat} : due frame period = true ↔ period ≠ 0 ∧ frame % period = 0 := by
  simp [due]

theorem plan_succ (periods : List Nat) (frame : Nat) :
    plan periods (frame + 1) = plan periods frame ++ dueBelow periods frame periods.length := by
  simp [plan, List.range_succ]

theorem planUpTo_zero (periods : List Nat) (frame : Nat) :
    planUpTo periods frame 0 = plan periods frame := by
  simp [planUpTo, dueBelow]

theorem planUpTo_length (periods : List Nat) (frame : Nat) :
    planUpTo periods frame periods.length = plan periods (frame + 1) :=
  (plan_succ periods frame).symm

theorem dueBelow_succ (periods : List Nat) (frame position : Nat) :
    dueBelow periods frame (position + 1) = dueBelow periods frame position ++
      if due frame (periods.getD position 0) then [position] else [] := by
  simp only [dueBelow, List.range_succ, List.filter_append, List.filter_cons, List.filter_nil]

theorem planUpTo_succ (periods : List Nat) (frame position : Nat) :
    planUpTo periods frame (position + 1) = planUpTo periods frame position ++
      if due frame (periods.getD position 0) then [position] else [] := by
  rw [planUpTo, dueBelow_succ, planUpTo, List.append_assoc]

theorem planUpTo_past (periods : List Nat) (frame : Nat) :
    planUpTo periods frame (periods.length + 1) = plan periods (frame + 1) := by
  rw [planUpTo_succ, planUpTo_length, List.getD_eq_default _ _ (le_refl _)]
  simp [due]

theorem ceilDiv_succ (frames period : Nat) :
    (frames + 1) ⌈/⌉ period = frames ⌈/⌉ period + if due frames period then 1 else 0 := by
  rcases Nat.eq_zero_or_pos period with rfl | positive
  · simp [due]
  have predecessor : frames + 1 + period - 1 = frames + period - 1 + 1 := by omega
  have divides : period ∣ frames + period - 1 + 1 ↔ due frames period = true := by
    rw [Nat.sub_add_cancel (by omega), due_iff, ← Nat.dvd_iff_mod_eq_zero]
    simp [positive.ne']
  rw [Nat.ceilDiv_eq_add_pred_div, Nat.ceilDiv_eq_add_pred_div, predecessor, Nat.succ_div]
  simp only [divides]

theorem count_dueBelow (periods : List Nat) (frame row : Nat) :
    (dueBelow periods frame periods.length).count row =
      if due frame (periods.getD row 0) then 1 else 0 := by
  have distinct : (dueBelow periods frame periods.length).Nodup := List.nodup_range.filter _
  have member : row ∈ dueBelow periods frame periods.length ↔
      due frame (periods.getD row 0) = true := by
    simp only [dueBelow, List.mem_filter, List.mem_range, and_iff_right_iff_imp]
    intro isDue
    by_contra past
    rw [List.getD_eq_default _ _ (by omega)] at isDue
    simp [due] at isDue
  simp only [distinct.count, member]

/-- A row is planned as often as its period fits into the frames, rounded up. -/
theorem count_plan (periods : List Nat) (frames row : Nat) :
    (plan periods frames).count row = frames ⌈/⌉ periods.getD row 0 := by
  induction frames with
  | zero => simp [plan]
  | succ frames ih => rw [plan_succ, List.count_append, ih, count_dueBelow, ceilDiv_succ]

theorem lt_of_mem_plan {periods : List Nat} {frames row : Nat} (member : row ∈ plan periods frames) :
    row < periods.length := by
  obtain ⟨frame, _, inFrame⟩ := List.mem_flatMap.mp member
  exact List.mem_range.mp (List.mem_of_mem_filter inFrame)

theorem dueBelow_snoc (periods : List Nat) (period frame : Nat) :
    dueBelow (periods ++ [period]) frame (periods ++ [period]).length =
      dueBelow periods frame periods.length ++ if due frame period then [periods.length] else [] := by
  rw [List.length_append, List.length_singleton, dueBelow_succ]
  have last : (periods ++ [period]).getD periods.length 0 = period := by simp
  have before : dueBelow (periods ++ [period]) frame periods.length =
      dueBelow periods frame periods.length := by
    refine List.filter_congr fun row inside => ?_
    rw [List.getD_append _ _ _ _ (List.mem_range.mp inside)]
  rw [last, before]

theorem length_dueBelow (periods : List Nat) (frame : Nat) :
    (dueBelow periods frame periods.length).length =
      (periods.map fun period => if due frame period then 1 else 0).sum := by
  induction periods using List.reverseRecOn with
  | nil => rfl
  | append_singleton periods period ih =>
      rw [dueBelow_snoc, List.length_append, ih, List.map_append, List.sum_append]
      cases here : due frame period <;> simp [here]

theorem length_plan (periods : List Nat) (frames : Nat) :
    (plan periods frames).length = (periods.map fun period => frames ⌈/⌉ period).sum := by
  induction frames with
  | zero => simp [plan]
  | succ frames ih =>
      rw [plan_succ, List.length_append, ih, length_dueBelow, ← List.sum_map_add]
      simp only [ceilDiv_succ]

end CyclicPlan
