import ObcZero.FrameBytes
import ObcZero.TelemetryCore

/-! What stands in an emitted telemetry frame: every field packed, and the sum over
the packed fields. -/

namespace ObcZero

open BytePacking LittleEndian

def region (field : Field) : Nat × Nat := (field.offset, field.width)

/-- The layout does not depend on what is packed, and its fields are apart. -/
theorem tlmFields_apart (readings : TlmReadings) (command : CmdState) (state : TlmState) :
    (tlmFields readings command state).Pairwise Apart := by
  have layout : (tlmFields readings command state).map region =
      (tlmFields quietReadings clearedCmd readyTlm).map region := rfl
  have apart : ((tlmFields quietReadings clearedCmd readyTlm).map region).Pairwise
      fun first second =>
        first.1 + first.2 ≤ second.1 ∨ second.1 + second.2 ≤ first.1 := by
    decide +kernel
  rw [← layout, List.pairwise_map] at apart
  exact apart

theorem tlmFields_end (readings : TlmReadings) (command : CmdState) (state : TlmState) :
    ∀ field ∈ tlmFields readings command state, field.offset + field.width ≤ obcTlmOSum := by
  have layout : (tlmFields readings command state).map region =
      (tlmFields quietReadings clearedCmd readyTlm).map region := rfl
  have ends : ∀ place ∈ (tlmFields quietReadings clearedCmd readyTlm).map region,
      place.1 + place.2 ≤ obcTlmOSum := by
    decide +kernel
  rw [← layout] at ends
  intro field member
  exact ends (region field) (List.mem_map_of_mem member)

def packedFrame (readings : TlmReadings) (command : CmdState) (state : TlmState) : Nat → U8 :=
  let body := pack (tlmFields readings command state) state.frame
  store (putU16 obcTlmOSum (tlmFrameSum body)) body

def frameBytes (frame : Nat → U8) : List U8 := (List.range obcTlmFrameLen).map frame

@[simp] theorem frameBytes_length (frame : Nat → U8) :
    (frameBytes frame).length = obcTlmFrameLen := by
  simp [frameBytes]

theorem bufferOf_frameBytes (frame : Nat → U8) {position : Nat} (inside : position < obcTlmFrameLen) :
    bufferOf (frameBytes frame) position = frame position := by
  rw [bufferOf, List.getD_eq_getElem _ _ (by simpa using inside)]
  simp [frameBytes]

theorem slice_frameBytes (frame : Nat → U8) {start width : Nat}
    (inside : start + width ≤ obcTlmFrameLen) :
    slice (frameBytes frame) start width =
      (List.range width).map fun index => frame (start + index) := by
  rw [slice_eq_map (by simpa using inside)]
  refine List.map_congr_left fun index member => ?_
  have bound := List.mem_range.mp member
  exact bufferOf_frameBytes frame (by omega)

section Packed

variable {readings : TlmReadings} {command : CmdState} {state : TlmState}

theorem obcTlmEmit_frame (downlink : ObcStatus) (layoutOk : state.layoutOk = true) :
    (obcTlmEmit readings command downlink state).2.frame = packedFrame readings command state := by
  unfold obcTlmEmit
  rw [if_pos layoutOk]
  dsimp only
  split
  · rfl
  · rfl

theorem packedFrame_byte {field : Field} (member : field ∈ tlmFields readings command state)
    {index : Nat} (inside : index < field.width) :
    packedFrame readings command state (field.offset + index) = field.byte index := by
  have before := tlmFields_end readings command state field member
  have missed : ¬(obcTlmOSum ≤ field.offset + index ∧ field.offset + index < obcTlmOSum + 2) := by
    omega
  rw [packedFrame, store, if_neg (by simpa only [putU16] using missed)]
  exact pack_byte (tlmFields_apart readings command state) member inside state.frame

theorem packedFrame_slice {field : Field} (member : field ∈ tlmFields readings command state) :
    slice (frameBytes (packedFrame readings command state)) field.offset field.width =
      toBytes field.width field.value.toNat := by
  have before := tlmFields_end readings command state field member
  have inside : field.offset + field.width ≤ obcTlmFrameLen := Nat.le_trans before (by decide)
  rw [slice_frameBytes _ inside, toBytes]
  refine List.map_congr_left fun index bound => ?_
  rw [packedFrame_byte member (List.mem_range.mp bound)]
  apply BitVec.eq_of_toNat_eq
  simp [Field.byte]

theorem packedFrame_field {field : Field} (member : field ∈ tlmFields readings command state) :
    fromBytes (slice (frameBytes (packedFrame readings command state)) field.offset field.width) =
      field.value.toNat % 256 ^ field.width := by
  rw [packedFrame_slice member, fromBytes_toBytes]

theorem getU32_emitted (downlink : ObcStatus) (layoutOk : state.layoutOk = true) {offset : Nat}
    {value : U32} (member : putU32 offset value ∈ tlmFields readings command state) :
    getU32 (obcTlmEmit readings command downlink state).2.frame offset = value := by
  have bytes := word_of_bytes (putU32 offset value)
  rw [obcTlmEmit_frame downlink layoutOk]
  rw [← packedFrame_byte member (show 0 < 4 by decide),
    ← packedFrame_byte member (show 1 < 4 by decide),
    ← packedFrame_byte member (show 2 < 4 by decide),
    ← packedFrame_byte member (show 3 < 4 by decide)] at bytes
  exact bytes

theorem packedFrame_sum :
    fromBytes (slice (frameBytes (packedFrame readings command state)) obcTlmOSum 2) =
      frameSumUpto (frameBytes (packedFrame readings command state)) obcTlmOSum := by
  have length := frameBytes_length (packedFrame readings command state)
  have same : obcCmdSum (bufferOf (frameBytes (packedFrame readings command state))) obcTlmOSum =
      tlmFrameSum (pack (tlmFields readings command state) state.frame) := by
    refine obcCmdSum_congr fun index inside => ?_
    rw [bufferOf_frameBytes _ (Nat.lt_trans inside (by decide)), packedFrame, store,
      if_neg (by simp only [putU16]; omega)]
  have summed : frameSumUpto (frameBytes (packedFrame readings command state)) obcTlmOSum =
      (tlmFrameSum (pack (tlmFields readings command state) state.frame)).toNat := by
    rw [← same, obcCmdSum_frameSum (by rw [length]; decide)]
  have stored : slice (frameBytes (packedFrame readings command state)) obcTlmOSum 2 =
      toBytes 2 (tlmFrameSum (pack (tlmFields readings command state) state.frame)).toNat := by
    rw [slice_frameBytes _ (by decide), toBytes]
    refine List.map_congr_left fun index bound => ?_
    have inside := store_inside
      (putU16 obcTlmOSum (tlmFrameSum (pack (tlmFields readings command state) state.frame)))
      (pack (tlmFields readings command state) state.frame) (List.mem_range.mp bound)
    refine inside.trans ?_
    apply BitVec.eq_of_toNat_eq
    simp [Field.byte, putU16]
  rw [stored, fromBytes_toBytes, ← summed, Nat.mod_eq_of_lt]
  exact frameSum_lt _

end Packed

end ObcZero
