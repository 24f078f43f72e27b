import ObcZero.CommandSteps
import ObcZero.EndAroundCarry
import ObcZero.FrameBytes
import ObcZero.FrameSearchCore

/-! What one changed byte does to the sum of a frame, on the vehicle and on the ground. -/

namespace ObcZero

open LittleEndian

def OneByteApart (length : Nat) (first second : Nat → U8) : Prop :=
  ∃ index < length, first index ≠ second index ∧
    ∀ other < length, other ≠ index → first other = second other

/-- What the loop of `obc_cmd_sum` has summed up after some turns. -/
def cmdAccumulator (frame : Nat → U8) (turns : Nat) : U32 :=
  (List.range turns).foldl (fun sum index =>
    let raised := sum + getU8 frame index
    (raised + (raised >>> 16)) &&& 0xFFFF) 0

/-- Neither addition of the next turn leaves the 32-bit word. -/
structure NextTurnFits (frame : Nat → U8) (turns : Nat) : Prop where
  byte : (cmdAccumulator frame turns + getU8 frame turns).toNat =
    (cmdAccumulator frame turns).toNat + (getU8 frame turns).toNat
  carry :
    (cmdAccumulator frame turns + getU8 frame turns +
        (cmdAccumulator frame turns + getU8 frame turns) >>> 16).toNat =
      (cmdAccumulator frame turns).toNat + (getU8 frame turns).toNat +
        ((cmdAccumulator frame turns).toNat + (getU8 frame turns).toNat) >>> 16

theorem frameSum_carry (bytes : List U8) :
    frameSum bytes = EndAroundCarry.sum 16 (bytes.map BitVec.toNat) ^^^ 0xFFFF := by
  rw [frameSum, EndAroundCarry.sum, List.foldl_map]
  rfl

theorem byte_small (bytes : List U8) : ∀ term ∈ bytes.map BitVec.toNat, term < 2 ^ 16 := by
  intro term member
  obtain ⟨byte, _, rfl⟩ := List.mem_map.mp member
  exact Nat.lt_of_lt_of_le byte.isLt (by decide)

theorem frameSum_change (before after : List U8) {first second : U8} (apart : first ≠ second) :
    frameSum (before ++ first :: after) ≠ frameSum (before ++ second :: after) := by
  have firstBound := first.isLt
  have secondBound := second.isLt
  have values : ¬first.toNat ≡ second.toNat [MOD 2 ^ 16 - 1] := by
    intro same
    rw [Nat.ModEq, Nat.mod_eq_of_lt (by omega), Nat.mod_eq_of_lt (by omega)] at same
    exact apart (BitVec.eq_of_toNat_eq same)
  have small : ∀ term ∈ before.map BitVec.toNat ++ after.map BitVec.toNat, term < 2 ^ 16 := by
    rw [← List.map_append]
    exact byte_small _
  have sums := EndAroundCarry.sum_change small (by omega) (by omega) values
  intro same
  rw [frameSum_carry, frameSum_carry, List.map_append, List.map_append, List.map_cons,
    List.map_cons] at same
  exact sums (Nat.xor_left_injective same)

theorem frameSum_oneByteApart {first second : List U8} (length : first.length = second.length)
    (apart : OneByteApart first.length (bufferOf first) (bufferOf second)) :
    frameSum first ≠ frameSum second := by
  obtain ⟨index, inside, differ, same⟩ := apart
  have reach : index < second.length := length ▸ inside
  have read {bytes : List U8} {place : Nat} (within : place < bytes.length) :
      bufferOf bytes place = bytes[place] := List.getD_eq_getElem _ _ within
  have early : first.take index = second.take index := by
    refine List.ext_getElem (by simp [length]) fun place within further => ?_
    rw [List.length_take] at within further
    have equal := same place (by omega) (by omega)
    rwa [List.getElem_take, List.getElem_take, ← read, ← read]
  have late : first.drop (index + 1) = second.drop (index + 1) := by
    refine List.ext_getElem (by simp [length]) fun place within further => ?_
    rw [List.length_drop] at within further
    have equal := same (index + 1 + place) (by omega) (by omega)
    rwa [List.getElem_drop, List.getElem_drop, ← read, ← read]
  have whole := frameSum_change (first.take index) (first.drop (index + 1))
    (show first[index] ≠ second[index] by rwa [read inside, read reach] at differ)
  rwa [← List.drop_eq_getElem_cons inside, List.take_append_drop, early, late,
    ← List.drop_eq_getElem_cons reach, List.take_append_drop] at whole

theorem bufferOf_range {length place : Nat} (inside : place < length) (frame : Nat → U8) :
    bufferOf ((List.range length).map frame) place = frame place := by
  simp [bufferOf, inside]

theorem OneByteApart.lists {length : Nat} {first second : Nat → U8}
    (apart : OneByteApart length first second) :
    OneByteApart ((List.range length).map first).length
      (bufferOf ((List.range length).map first)) (bufferOf ((List.range length).map second)) := by
  obtain ⟨index, inside, differ, same⟩ := apart
  rw [List.length_map, List.length_range]
  refine ⟨index, inside, ?_, fun other within away => ?_⟩
  · rwa [bufferOf_range inside, bufferOf_range inside]
  · rw [bufferOf_range within, bufferOf_range within]
    exact same other within away

theorem obcCmdSum_toNat {upto length : Nat} (within : upto ≤ length) (frame : Nat → U8) :
    (obcCmdSum frame upto).toNat = frameSumUpto ((List.range length).map frame) upto := by
  rw [← obcCmdSum_frameSum (by simpa using within)]
  exact congrArg BitVec.toNat (obcCmdSum_congr fun index inside =>
    (bufferOf_range (Nat.lt_of_lt_of_le inside within) frame).symm)

theorem obcCmdSum_oneByteApart {upto : Nat} {first second : Nat → U8}
    (apart : OneByteApart upto first second) : obcCmdSum first upto ≠ obcCmdSum second upto := by
  have sums := frameSum_oneByteApart (by simp) apart.lists
  intro equal
  have whole (frame : Nat → U8) : (obcCmdSum frame upto).toNat =
      frameSum ((List.range upto).map frame) := by
    rw [obcCmdSum_toNat (Nat.le_refl upto), frameSumUpto, List.take_of_length_le (by simp)]
  apply sums
  rw [← whole, ← whole, equal]

theorem cmdAccumulator_lt (frame : Nat → U8) (turns : Nat) :
    (cmdAccumulator frame turns).toNat < 2 ^ 16 := by
  cases turns with
  | zero => exact Nat.two_pow_pos 16
  | succ turns =>
      rw [cmdAccumulator, List.range_succ, List.foldl_append, List.foldl_cons, List.foldl_nil,
        BitVec.toNat_and]
      exact Nat.lt_of_le_of_lt Nat.and_le_right (by decide)

theorem nextTurnFits (frame : Nat → U8) (turns : Nat) : NextTurnFits frame turns := by
  have word := cmdAccumulator_lt frame turns
  have byte := (frame turns).isLt
  have read := getU8_toNat frame turns
  have carry : ((cmdAccumulator frame turns).toNat + (getU8 frame turns).toNat) >>> 16 ≤ 1 :=
    EndAroundCarry.carry_le_one word (by omega)
  have raised : (cmdAccumulator frame turns + getU8 frame turns).toNat =
      (cmdAccumulator frame turns).toNat + (getU8 frame turns).toNat :=
    BitVec.toNat_add_of_lt (by omega)
  refine ⟨raised, ?_⟩
  rw [BitVec.toNat_add, BitVec.toNat_ushiftRight, raised, Nat.mod_eq_of_lt (by omega)]

theorem bufferOf_take {bytes : List U8} {upto place : Nat} (inside : place < upto) :
    bufferOf (bytes.take upto) place = bufferOf bytes place := by
  simp [bufferOf, inside]

/-- A changed byte in front of the sum changes what is summed up, and one in the sum field
what is read there: the two no longer agree. -/
theorem sum_oneByteApart {offset width : Nat} {first second : List U8}
    (length : first.length = second.length) (last : offset + width = first.length)
    (apart : OneByteApart first.length (bufferOf first) (bufferOf second))
    (checks : frameSumUpto first offset = fromBytes (slice first offset width)) :
    frameSumUpto second offset ≠ fromBytes (slice second offset width) := by
  obtain ⟨index, inside, differ, same⟩ := apart
  have firstField := slice_eq_map (Nat.le_of_eq last)
  have secondField := slice_eq_map (Nat.le_of_eq (last.trans length))
  by_cases below : index < offset
  · have field : slice first offset width =
        slice second offset width := by
      rw [firstField, secondField]
      refine List.map_congr_left fun place member => ?_
      have within := List.mem_range.mp member
      exact same _ (by omega) (by omega)
    have sums : frameSum (first.take offset) ≠ frameSum (second.take offset) := by
      refine frameSum_oneByteApart (by simp [length]) ⟨index, ?_, ?_, fun other within away => ?_⟩
      · rw [List.length_take]
        omega
      · rwa [bufferOf_take below, bufferOf_take below]
      · rw [List.length_take] at within
        rw [bufferOf_take (by omega), bufferOf_take (by omega)]
        exact same other (by omega) away
    rw [frameSumUpto, field] at checks
    rw [frameSumUpto, ← checks]
    exact sums.symm
  · have payload : first.take offset = second.take offset := by
      have part {bytes : List U8} (within : offset ≤ bytes.length) : bytes.take offset = _ :=
        slice_eq_map (Nat.le_trans (Nat.le_of_eq (Nat.zero_add offset)) within)
      rw [part (by omega), part (by omega)]
      refine List.map_congr_left fun place member => ?_
      have within := List.mem_range.mp member
      exact same _ (by omega) (by omega)
    rw [frameSumUpto, payload] at checks
    rw [frameSumUpto, checks]
    intro again
    have equal := fromBytes_injective
      ((slice_length (Nat.le_of_eq last)).trans (slice_length (Nat.le_of_eq (last.trans length))).symm)
      again
    rw [firstField, secondField] at equal
    have here := List.map_inj_left.mp equal (index - offset)
      (List.mem_range.mpr (by omega))
    rw [Nat.add_sub_cancel' (Nat.le_of_not_lt below)] at here
    exact differ here

/-- The check of `obc_cmd_ingest`. -/
def CmdSumChecks (frame : Nat → U8) : Prop :=
  getU16 frame obcCmdOSum = obcCmdSum frame obcCmdOSum

theorem cmdSumChecks_iff (frame : Nat → U8) :
    CmdSumChecks frame ↔
      frameSumUpto ((List.range obcCmdFrameLen).map frame) obcCmdOSum =
        fromBytes (slice ((List.range obcCmdFrameLen).map frame) obcCmdOSum 2) := by
  have field : (getU16 frame obcCmdOSum).toNat =
      fromBytes (slice ((List.range obcCmdFrameLen).map frame) obcCmdOSum 2) := by
    rw [getU16_toNat]
    rfl
  rw [CmdSumChecks, ← BitVec.toNat_inj, field,
    obcCmdSum_toNat (show obcCmdOSum ≤ obcCmdFrameLen by decide), eq_comm]

theorem cmdSum_oneByteApart {first second : Nat → U8}
    (apart : OneByteApart obcCmdFrameLen first second) (checks : CmdSumChecks first) :
    ¬CmdSumChecks second := by
  rw [cmdSumChecks_iff] at checks ⊢
  exact sum_oneByteApart (by simp) rfl apart.lists checks

theorem obcCmdIngest_sum {frame : Nat → U8} (fails : ¬CmdSumChecks frame) (table : List ObcCmd)
    (len : U32) (state : CmdState) :
    (obcCmdIngest table (some frame) len state).1 = .errInvalid := by
  simp only [obcCmdIngest]
  by_cases ready : state.tableOk
  · rw [if_pos ready]
    rcases examine_cases table frame len { state with examined := bump state.examined } with
      ⟨reason, refused⟩ | ⟨row, index, wellFormed, _⟩
    · rw [refused]
      rfl
    · exact absurd wellFormed.2.2.2 fails
  · rw [if_neg ready]

/-- For every length and every two frames that differ in one byte: the sums tell them
apart, no addition of the vehicle's overflows, and if the sum of one checks, at the
vehicle or on the ground, the sum of the other does not. -/
theorem one_byte_detected {length : Nat} {first second : Nat → U8}
    (apart : OneByteApart length first second) :
    obcCmdSum first length ≠ obcCmdSum second length ∧
      (∀ turns, NextTurnFits first turns) ∧
      (length = obcTlmOSum → tlmFrameSum first ≠ tlmFrameSum second) ∧
      frameSum ((List.range length).map first) ≠ frameSum ((List.range length).map second) ∧
      (length = obcCmdFrameLen → CmdSumChecks first → ¬CmdSumChecks second ∧
        ∀ table len state, (obcCmdIngest table (some second) len state).1 = .errInvalid) ∧
      ∀ sumField : ObcTlmField, sumField.offset + sumField.width = length →
        sumMatches sumField ((List.range length).map first) = true →
        sumMatches sumField ((List.range length).map second) = false := by
  refine ⟨obcCmdSum_oneByteApart apart, nextTurnFits first, ?_, ?_, ?_, ?_⟩
  · rintro rfl
    exact obcCmdSum_oneByteApart apart
  · exact frameSum_oneByteApart (by simp) apart.lists
  · rintro rfl checks
    have fails := cmdSum_oneByteApart apart checks
    exact ⟨fails, obcCmdIngest_sum fails⟩
  · intro sumField last checks
    simp only [sumMatches, beq_iff_eq] at checks
    simp only [sumMatches, beq_eq_false_iff_ne]
    exact sum_oneByteApart (by simp) (by simpa using last) apart.lists checks

theorem flipped_ping_detected :
    let sent := build opPing.toNat 1 0 2000
    let arrived := sent.set obcCmdOOpcode (opPing ^^^ 1)
    CmdSumChecks (bufferOf sent) ∧ ¬CmdSumChecks (bufferOf arrived) := by
  intro sent arrived
  have apart : OneByteApart obcCmdFrameLen (bufferOf sent) (bufferOf arrived) :=
    ⟨obcCmdOOpcode, by decide, by decide +kernel, by decide +kernel⟩
  have checks : CmdSumChecks (bufferOf sent) := by
    rw [CmdSumChecks]
    decide +kernel
  exact ⟨checks, ((one_byte_detected apart).2.2.2.2.1 rfl checks).1⟩

end ObcZero
