import Mathlib

/-!
Sums of words of one width in which the carry out of the word is added back in at its low
end: the residue of the plain sum modulo one less than the number of words.
-/

namespace EndAroundCarry

def add (width total term : Nat) : Nat :=
  ((total + term) + ((total + term) >>> width)) &&& (2 ^ width - 1)

def sum (width : Nat) (terms : List Nat) : Nat := terms.foldl (add width) 0

variable {width : Nat}

theorem add_lt (total term : Nat) : add width total term < 2 ^ width := by
  rw [add, Nat.and_two_pow_sub_one_eq_mod]
  exact Nat.mod_lt _ (Nat.two_pow_pos width)

theorem carry_le_one {total term : Nat} (word : total < 2 ^ width) (small : term < 2 ^ width) :
    (total + term) >>> width ≤ 1 := by
  rw [Nat.shiftRight_eq_div_pow, Nat.div_le_iff_le_mul_add_pred (Nat.two_pow_pos width)]
  omega

/-- Adding a carry back in takes away one turn of the word and one. -/
theorem add_modEq {total term : Nat} (word : total < 2 ^ width) (small : term < 2 ^ width) :
    add width total term ≡ total + term [MOD 2 ^ width - 1] := by
  have positive := Nat.two_pow_pos width
  rw [add, Nat.and_two_pow_sub_one_eq_mod, Nat.shiftRight_eq_div_pow]
  by_cases carried : total + term < 2 ^ width
  · rw [Nat.div_eq_of_lt carried, Nat.add_zero, Nat.mod_eq_of_lt carried]
  · have one : (total + term) / 2 ^ width = 1 := by
      refine Nat.div_eq_of_lt_le ?_ ?_
      · omega
      · omega
    have folded : (total + term + 1) % 2 ^ width = total + term - (2 ^ width - 1) := by
      rw [Nat.mod_eq_sub_mod (by omega), Nat.mod_eq_of_lt (by omega)]
      omega
    have whole : total + term - (2 ^ width - 1) + (2 ^ width - 1) = total + term :=
      Nat.sub_add_cancel (by omega)
    rw [one, folded]
    calc total + term - (2 ^ width - 1)
        ≡ total + term - (2 ^ width - 1) + (2 ^ width - 1) [MOD 2 ^ width - 1] :=
          (Nat.add_modEq_right).symm
      _ = total + term := whole

theorem foldl_add {terms : List Nat} (small : ∀ term ∈ terms, term < 2 ^ width) {total : Nat}
    (word : total < 2 ^ width) :
    terms.foldl (add width) total < 2 ^ width ∧
      terms.foldl (add width) total ≡ total + terms.sum [MOD 2 ^ width - 1] := by
  induction terms generalizing total with
  | nil => exact ⟨word, Nat.ModEq.refl _⟩
  | cons term rest ih =>
      obtain ⟨first, later⟩ := List.forall_mem_cons.mp small
      obtain ⟨bound, residue⟩ := ih later (add_lt total term)
      refine ⟨bound, residue.trans ?_⟩
      rw [List.sum_cons, ← Nat.add_assoc]
      exact (add_modEq word first).add_right _

theorem sum_modEq {terms : List Nat} (small : ∀ term ∈ terms, term < 2 ^ width) :
    sum width terms ≡ terms.sum [MOD 2 ^ width - 1] := by
  have residue := (foldl_add small (Nat.two_pow_pos width)).2
  rwa [Nat.zero_add] at residue

/-- One term changed to another residue changes the sum, whatever is carried on either side. -/
theorem sum_change {before after : List Nat} {first second : Nat}
    (small : ∀ term ∈ before ++ after, term < 2 ^ width) (firstSmall : first < 2 ^ width)
    (secondSmall : second < 2 ^ width) (apart : ¬first ≡ second [MOD 2 ^ width - 1]) :
    sum width (before ++ first :: after) ≠ sum width (before ++ second :: after) := by
  intro same
  have residue (term : Nat) (bound : term < 2 ^ width) :
      sum width (before ++ term :: after) ≡ before.sum + after.sum + term [MOD 2 ^ width - 1] := by
    have each : ∀ other ∈ before ++ term :: after, other < 2 ^ width := by
      intro other member
      rcases List.mem_append.mp member with early | late
      · exact small other (List.mem_append_left _ early)
      · rcases List.mem_cons.mp late with rfl | later
        · exact bound
        · exact small other (List.mem_append_right _ later)
    have total : (before ++ term :: after).sum = before.sum + after.sum + term := by
      rw [List.sum_append, List.sum_cons]
      omega
    rw [← total]
    exact sum_modEq each
  have firstResidue := residue first firstSmall
  rw [same] at firstResidue
  exact apart (Nat.ModEq.add_left_cancel' _ (firstResidue.symm.trans (residue second secondSmall)))

end EndAroundCarry
