import ObcZero.LittleEndian
import ObcZero.UplinkCore

/-! The vehicle's reads and sums over a frame buffer against the ground's reads and
sums over a byte string. -/

namespace ObcZero

open LittleEndian

def bufferOf (bytes : List U8) : Nat → U8 := fun index => bytes.getD index 0

/-- `data[start : start + width]`. -/
def slice (bytes : List U8) (start width : Nat) : List U8 := (bytes.drop start).take width

theorem littleEndian_eq (width value : Nat) : littleEndian width value = toBytes width value := rfl

theorem toNat_or_shiftLeft (low high : U32) (count : Nat) (lowBound : low.toNat < 2 ^ count)
    (highBound : 2 ^ count * high.toNat < 2 ^ 32) :
    (low ||| high <<< count).toNat = low.toNat + 2 ^ count * high.toNat := by
  rw [BitVec.toNat_or, BitVec.toNat_shiftLeft, Nat.shiftLeft_eq, Nat.mul_comm,
    Nat.mod_eq_of_lt highBound, Nat.or_comm, ← Nat.two_pow_add_eq_or_of_lt lowBound, Nat.add_comm]

theorem getU8_toNat (frame : Nat → U8) (offset : Nat) :
    (getU8 frame offset).toNat = (frame offset).toNat := by
  have bound := (frame offset).isLt
  rw [getU8, BitVec.toNat_setWidth, Nat.mod_eq_of_lt (by omega)]

theorem getU16_toNat (frame : Nat → U8) (offset : Nat) :
    (getU16 frame offset).toNat = fromBytes [frame offset, frame (offset + 1)] := by
  have low := getU8_toNat frame offset
  have high := getU8_toNat frame (offset + 1)
  have lowBound := (frame offset).isLt
  have highBound := (frame (offset + 1)).isLt
  rw [getU16, toNat_or_shiftLeft _ _ 8 (by omega) (by omega), low, high]
  simp [fromBytes, Nat.ofDigits_cons]

theorem getU32_toNat (frame : Nat → U8) (offset : Nat) :
    (getU32 frame offset).toNat =
      fromBytes [frame offset, frame (offset + 1), frame (offset + 2), frame (offset + 3)] := by
  have first := getU8_toNat frame offset
  have second := getU8_toNat frame (offset + 1)
  have third := getU8_toNat frame (offset + 2)
  have fourth := getU8_toNat frame (offset + 3)
  have firstBound := (frame offset).isLt
  have secondBound := (frame (offset + 1)).isLt
  have thirdBound := (frame (offset + 2)).isLt
  have fourthBound := (frame (offset + 3)).isLt
  have two := toNat_or_shiftLeft (getU8 frame offset) (getU8 frame (offset + 1)) 8
    (by omega) (by omega)
  have three := toNat_or_shiftLeft _ (getU8 frame (offset + 2)) 16
    (show (getU8 frame offset ||| getU8 frame (offset + 1) <<< 8).toNat < 2 ^ 16 by omega)
    (by omega)
  rw [getU32, toNat_or_shiftLeft _ (getU8 frame (offset + 3)) 24 (by omega) (by omega), three, two,
    first, second, third, fourth]
  simp only [fromBytes, List.map_cons, List.map_nil, Nat.ofDigits_cons, Nat.ofDigits_nil]
  omega

/-- The carry folded back in a 32-bit word, where nothing overflows. -/
theorem toNat_foldCarry {sum byte : U32} (sumBound : sum.toNat < 2 ^ 16)
    (byteBound : byte.toNat < 2 ^ 8) :
    (((sum + byte) + ((sum + byte) >>> 16)) &&& 0xFFFF).toNat =
      ((sum.toNat + byte.toNat) + ((sum.toNat + byte.toNat) >>> 16)) &&& 0xFFFF := by
  have raised : (sum + byte).toNat = sum.toNat + byte.toNat := by
    rw [BitVec.toNat_add, Nat.mod_eq_of_lt (by omega)]
  have carried : ((sum + byte) >>> 16).toNat = (sum.toNat + byte.toNat) >>> 16 := by
    rw [BitVec.toNat_ushiftRight, raised]
  have small : (sum.toNat + byte.toNat) >>> 16 < 2 ^ 16 := by
    rw [Nat.shiftRight_eq_div_pow]
    omega
  rw [BitVec.toNat_and, BitVec.toNat_add, raised, carried, Nat.mod_eq_of_lt (by omega)]
  rfl

theorem obcCmdSum_frameSum {bytes : List U8} {upto : Nat} (inside : upto ≤ bytes.length) :
    (obcCmdSum (bufferOf bytes) upto).toNat = frameSumUpto bytes upto := by
  have folded : ((List.range upto).foldl (fun (sum : U32) index =>
        let raised := sum + getU8 (bufferOf bytes) index
        (raised + (raised >>> 16)) &&& 0xFFFF) 0).toNat =
      (bytes.take upto).foldl (fun total byte =>
        let raised := total + byte.toNat
        (raised + (raised >>> 16)) &&& 0xFFFF) 0 ∧
      (bytes.take upto).foldl (fun total byte =>
        let raised := total + byte.toNat
        (raised + (raised >>> 16)) &&& 0xFFFF) 0 < 2 ^ 16 := by
    induction upto with
    | zero => simp
    | succ upto ih =>
        obtain ⟨same, bound⟩ := ih (by omega)
        have present : bytes[upto]? = some (bufferOf bytes upto) := by
          rw [bufferOf, List.getD_eq_getElem _ _ (by omega)]
          exact List.getElem?_eq_getElem (by omega)
        rw [List.range_succ, List.foldl_append, List.take_add_one, present, Option.toList_some,
          List.foldl_append, List.foldl_cons, List.foldl_nil, List.foldl_cons, List.foldl_nil]
        have byte := getU8_toNat (bufferOf bytes) upto
        have byteBound := (bufferOf bytes upto).isLt
        rw [← same] at bound
        dsimp only
        rw [toNat_foldCarry bound (by omega), same, byte]
        exact ⟨rfl, Nat.lt_of_le_of_lt Nat.and_le_right (by decide)⟩
  rw [obcCmdSum, frameSumUpto, frameSum, BitVec.toNat_xor, folded.1]
  rfl

theorem obcCmdSum_congr {first second : Nat → U8} {upto : Nat}
    (same : ∀ index < upto, first index = second index) :
    obcCmdSum first upto = obcCmdSum second upto := by
  have folded (sum : U32) : (List.range upto).foldl (fun (sum : U32) index =>
        let raised := sum + getU8 first index
        (raised + (raised >>> 16)) &&& 0xFFFF) sum =
      (List.range upto).foldl (fun (sum : U32) index =>
        let raised := sum + getU8 second index
        (raised + (raised >>> 16)) &&& 0xFFFF) sum := by
    refine List.foldl_ext _ _ sum fun current index member => ?_
    rw [getU8, getU8, same index (List.mem_range.mp member)]
  rw [obcCmdSum, obcCmdSum, folded]

theorem frameSum_lt (bytes : List U8) : frameSum bytes < 2 ^ 16 := by
  have folded (total : Nat) (bound : total < 2 ^ 16) : bytes.foldl (fun total byte =>
      let raised := total + byte.toNat
      (raised + (raised >>> 16)) &&& 0xFFFF) total < 2 ^ 16 := by
    induction bytes generalizing total with
    | nil => exact bound
    | cons byte rest ih => exact ih _ (Nat.lt_of_le_of_lt Nat.and_le_right (by decide))
  exact Nat.xor_lt_two_pow (folded 0 (by decide)) (by decide)

theorem slice_length {bytes : List U8} {start width : Nat}
    (inside : start + width ≤ bytes.length) : (slice bytes start width).length = width := by
  simp [slice]
  omega

theorem slice_add (bytes : List U8) (start first second : Nat) :
    slice bytes start (first + second) =
      slice bytes start first ++ slice bytes (start + first) second := by
  rw [slice, List.take_add, List.drop_drop, slice, slice]

theorem slice_whole (bytes : List U8) : slice bytes 0 bytes.length = bytes := by
  simp [slice]

theorem slice_eq_map {bytes : List U8} {start width : Nat}
    (inside : start + width ≤ bytes.length) :
    slice bytes start width = (List.range width).map fun index => bufferOf bytes (start + index) := by
  apply List.ext_getElem
  · simp [slice_length inside]
  · intro index left right
    have bound : index < width := by simpa using right
    simp only [slice, List.getElem_take, List.getElem_drop, List.getElem_map, List.getElem_range,
      bufferOf]
    rw [List.getD_eq_getElem _ _ (by omega)]

theorem getU32_slice {bytes : List U8} {start : Nat} (inside : start + 4 ≤ bytes.length) :
    (getU32 (bufferOf bytes) start).toNat = fromBytes (slice bytes start 4) := by
  rw [getU32_toNat, slice_eq_map inside]
  rfl

theorem getU16_slice {bytes : List U8} {start : Nat} (inside : start + 2 ≤ bytes.length) :
    (getU16 (bufferOf bytes) start).toNat = fromBytes (slice bytes start 2) := by
  rw [getU16_toNat, slice_eq_map inside]
  rfl

theorem getU8_slice {bytes : List U8} {start : Nat} (inside : start + 1 ≤ bytes.length) :
    (getU8 (bufferOf bytes) start).toNat = fromBytes (slice bytes start 1) := by
  rw [getU8_toNat, slice_eq_map inside]
  simp [fromBytes]

end ObcZero
