import Mathlib

/-!
Numbers as byte strings of a fixed width, low byte first. Writing and reading are
inverse to each other, up to what the width cannot hold.
-/

namespace LittleEndian

def toBytes (width value : Nat) : List (BitVec 8) :=
  (List.range width).map fun index => BitVec.ofNat 8 (value >>> (8 * index))

def fromBytes (bytes : List (BitVec 8)) : Nat := Nat.ofDigits 256 (bytes.map BitVec.toNat)

@[simp] theorem toBytes_length (width value : Nat) : (toBytes width value).length = width := by
  simp [toBytes]

theorem toBytes_succ (width value : Nat) :
    toBytes (width + 1) value = BitVec.ofNat 8 value :: toBytes width (value / 256) := by
  have shifted (index : Nat) : value >>> (8 * (index + 1)) = (value / 256) >>> (8 * index) := by
    rw [Nat.mul_succ, Nat.add_comm, Nat.shiftRight_add, Nat.shiftRight_eq_div_pow value 8]
  simp only [toBytes, List.range_succ_eq_map, List.map_cons, List.map_map]
  refine congrArg (List.cons _) (List.map_congr_left fun index _ => ?_)
  simp only [Function.comp, shifted]

theorem fromBytes_cons (byte : BitVec 8) (rest : List (BitVec 8)) :
    fromBytes (byte :: rest) = byte.toNat + 256 * fromBytes rest := by
  simp [fromBytes, Nat.ofDigits_cons]

theorem fromBytes_toBytes (width value : Nat) :
    fromBytes (toBytes width value) = value % 256 ^ width := by
  induction width generalizing value with
  | zero => simp [toBytes, fromBytes, Nat.mod_one]
  | succ width ih =>
      have split : value % (256 * 256 ^ width) =
          value % 256 + 256 * (value / 256 % 256 ^ width) := Nat.mod_mul
      have power : 256 ^ (width + 1) = 256 * 256 ^ width := Nat.pow_succ'
      rw [toBytes_succ, fromBytes_cons, ih, BitVec.toNat_ofNat, power, split]

theorem toBytes_fromBytes (bytes : List (BitVec 8)) :
    toBytes bytes.length (fromBytes bytes) = bytes := by
  induction bytes with
  | nil => rfl
  | cons byte rest ih =>
      have low : BitVec.ofNat 8 (fromBytes (byte :: rest)) = byte := by
        apply BitVec.eq_of_toNat_eq
        rw [BitVec.toNat_ofNat, fromBytes_cons, Nat.add_mul_mod_self_left,
          Nat.mod_eq_of_lt byte.isLt]
      have high : fromBytes (byte :: rest) / 256 = fromBytes rest := by
        rw [fromBytes_cons, Nat.add_mul_div_left _ _ (by norm_num), Nat.div_eq_of_lt byte.isLt,
          Nat.zero_add]
      rw [List.length_cons, toBytes_succ, low, high, ih]

theorem fromBytes_lt (bytes : List (BitVec 8)) : fromBytes bytes < 256 ^ bytes.length := by
  have same := fromBytes_toBytes bytes.length (fromBytes bytes)
  rw [toBytes_fromBytes] at same
  rw [same]
  exact Nat.mod_lt _ (by positivity)

theorem fromBytes_injective {first second : List (BitVec 8)} (length : first.length = second.length)
    (same : fromBytes first = fromBytes second) : first = second := by
  rw [← toBytes_fromBytes first, ← toBytes_fromBytes second, length, same]

/-- Bytes none of which is zero tell their own length. -/
theorem fromBytes_injective_ne_zero {first second : List (BitVec 8)}
    (firstSet : ∀ byte ∈ first, byte ≠ 0) (secondSet : ∀ byte ∈ second, byte ≠ 0)
    (same : fromBytes first = fromBytes second) : first = second := by
  have digits (bytes : List (BitVec 8)) (set : ∀ byte ∈ bytes, byte ≠ 0) :
      Nat.digits 256 (fromBytes bytes) = bytes.map BitVec.toNat := by
    refine Nat.digits_ofDigits 256 (by norm_num) _ ?_ fun nonempty zero => ?_
    · intro digit member
      obtain ⟨byte, _, rfl⟩ := List.mem_map.mp member
      exact byte.isLt
    · obtain ⟨byte, member, value⟩ := List.mem_map.mp (List.getLast_mem nonempty)
      rw [zero] at value
      exact set byte member (BitVec.eq_of_toNat_eq value)
  have lists := digits first firstSet
  rw [same, digits second secondSet] at lists
  exact (List.map_injective_iff.mpr fun _ _ => BitVec.eq_of_toNat_eq) lists.symm

end LittleEndian
