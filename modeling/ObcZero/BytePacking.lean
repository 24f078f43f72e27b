import Mathlib

/-!
Fields of a word packed byte by byte, low byte first, into a buffer. Fields whose
regions are apart can be read back from the packed buffer whatever else is in it.
-/

namespace BytePacking

structure Field where
  offset : Nat
  width : Nat
  value : BitVec 32
  deriving DecidableEq, Repr

def Field.byte (field : Field) (index : Nat) : BitVec 8 :=
  (field.value >>> (8 * index)).setWidth 8

def store (field : Field) (buffer : Nat → BitVec 8) : Nat → BitVec 8 := fun position =>
  if field.offset ≤ position ∧ position < field.offset + field.width then
    field.byte (position - field.offset)
  else buffer position

def pack (fields : List Field) (buffer : Nat → BitVec 8) : Nat → BitVec 8 :=
  fields.foldl (fun current field => store field current) buffer

def Apart (first second : Field) : Prop :=
  first.offset + first.width ≤ second.offset ∨ second.offset + second.width ≤ first.offset

instance (first second : Field) : Decidable (Apart first second) := instDecidableOr

theorem store_inside (field : Field) (buffer : Nat → BitVec 8) {index : Nat}
    (inside : index < field.width) :
    store field buffer (field.offset + index) = field.byte index := by
  have within : field.offset ≤ field.offset + index ∧
      field.offset + index < field.offset + field.width := by omega
  rw [store, if_pos within, Nat.add_sub_cancel_left]

theorem pack_append (fields more : List Field) (buffer : Nat → BitVec 8) :
    pack (fields ++ more) buffer = pack more (pack fields buffer) := by
  rw [pack, List.foldl_append, ← pack, ← pack]

/-- A packed byte depends on no other byte of the buffer. -/
theorem pack_congr (fields : List Field) {buffer other : Nat → BitVec 8} {position : Nat}
    (same : buffer position = other position) :
    pack fields buffer position = pack fields other position := by
  induction fields generalizing buffer other with
  | nil => exact same
  | cons field rest ih =>
      have stored : store field buffer position = store field other position := by
        rw [store, store, same]
      exact ih stored

theorem pack_outside {fields : List Field} {position : Nat}
    (outside : ∀ field ∈ fields,
      position < field.offset ∨ field.offset + field.width ≤ position)
    (buffer : Nat → BitVec 8) : pack fields buffer position = buffer position := by
  induction fields generalizing buffer with
  | nil => rfl
  | cons field rest ih =>
      have elsewhere := outside field List.mem_cons_self
      have missed : ¬(field.offset ≤ position ∧ position < field.offset + field.width) := by omega
      rw [pack, List.foldl_cons]
      change pack rest (store field buffer) position = buffer position
      rw [ih (fun other member => outside other (List.mem_cons_of_mem field member)), store,
        if_neg missed]

theorem pack_byte {fields : List Field} (apart : fields.Pairwise Apart) {field : Field}
    (member : field ∈ fields) {index : Nat} (inside : index < field.width)
    (buffer : Nat → BitVec 8) :
    pack fields buffer (field.offset + index) = field.byte index := by
  induction fields generalizing buffer with
  | nil => cases member
  | cons first rest ih =>
      obtain ⟨apartFirst, apartRest⟩ := List.pairwise_cons.mp apart
      change pack rest (store first buffer) (field.offset + index) = field.byte index
      rcases List.mem_cons.mp member with rfl | later
      · have untouched : ∀ other ∈ rest, field.offset + index < other.offset ∨
            other.offset + other.width ≤ field.offset + index := by
          intro other present
          rcases apartFirst other present with before | after
          · left
            omega
          · right
            omega
        rw [pack_outside untouched, store_inside field buffer inside]
      · exact ih apartRest later (store first buffer)

theorem word_of_bytes (field : Field) :
    (field.byte 0).setWidth 32 ||| ((field.byte 1).setWidth 32 <<< 8) |||
      ((field.byte 2).setWidth 32 <<< 16) ||| ((field.byte 3).setWidth 32 <<< 24) =
        field.value := by
  apply BitVec.eq_of_getLsbD_eq
  intro position bound
  simp only [Field.byte, BitVec.getLsbD_or, BitVec.getLsbD_shiftLeft, BitVec.getLsbD_setWidth,
    BitVec.getLsbD_ushiftRight]
  by_cases first : position < 8
  · simp [first, show position < 16 by omega, show position < 24 by omega, bound]
  by_cases second : position < 16
  · simp [first, second, show position < 24 by omega, bound, show position - 8 < 8 by omega,
      show position - 8 < 32 by omega, show 8 + (position - 8) = position by omega]
  by_cases third : position < 24
  · simp [first, second, third, bound, show ¬position - 8 < 8 by omega,
      show position - 16 < 8 by omega, show position - 16 < 32 by omega,
      show 16 + (position - 16) = position by omega]
  · simp [first, second, third, bound, show ¬position - 8 < 8 by omega,
      show ¬position - 16 < 8 by omega, show position - 24 < 8 by omega,
      show position - 24 < 32 by omega, show 24 + (position - 24) = position by omega]

end BytePacking
