import ObcZero.CommandSteps
import ObcZero.FrameBytes

/-! The uplink format from both ends: what the ground builds the vehicle reads back,
and what the vehicle's format checks let through is what the ground would build. -/

namespace ObcZero

open LittleEndian

/-- The checks of `obc_cmd_ingest` that ask about the frame and the table alone. -/
def formatReasons : List Reject := [.sync, .length, .sum, .opcode, .arg]

/-- A vehicle that takes frames refuses this one, if at all, for another reason. -/
def PassesFormat (table : List ObcCmd) (bytes : List U8) : Prop :=
  ∀ state, state.tableOk = true → ∀ reason ∈ formatReasons,
    (obcCmdIngest table (some (bufferOf bytes)) (BitVec.ofNat 32 bytes.length) state).2.1 ≠
      some reason.index

def FitsTable (table : List ObcCmd) (frame : Nat → U8) : Prop :=
  ∃ row, lookup table (frameOpcode frame) = some row ∧
    row.argMin ≤ getU32 frame obcCmdOArg ∧ getU32 frame obcCmdOArg ≤ row.argMax

theorem examine_format {table : List ObcCmd} {frame : Nat → U8} {len : U32} {state : CmdState} :
    (∀ reason ∈ formatReasons, (examine table frame len state).2.1 ≠ some reason.index) ↔
      WellFormed frame len ∧ FitsTable table frame := by
  constructor
  · intro passes
    have never (reason : Reject) (member : reason ∈ formatReasons)
        (refused : examine table frame len state = refuse reason state) : False := by
      apply passes reason member
      rw [refused]
      rfl
    unfold examine at never
    by_cases length : len = BitVec.ofNat 32 obcCmdFrameLen
    swap
    · exact (never .length (by decide) (by rw [if_pos length])).elim
    by_cases sync : getU32 frame obcCmdOSync = obcCmdSync
    swap
    · exact (never .sync (by decide) (by rw [if_neg (not_not_intro length), if_pos sync])).elim
    by_cases declared : getU8 frame obcCmdOLength = BitVec.ofNat 32 obcCmdFrameLen
    swap
    · exact (never .length (by decide) (by
        rw [if_neg (not_not_intro length), if_neg (not_not_intro sync), if_pos declared])).elim
    by_cases sum : getU16 frame obcCmdOSum = obcCmdSum frame obcCmdOSum
    swap
    · exact (never .sum (by decide) (by
        rw [if_neg (not_not_intro length), if_neg (not_not_intro sync),
          if_neg (not_not_intro declared), if_pos sum])).elim
    refine ⟨⟨length, sync, declared, sum⟩, ?_⟩
    cases found : lookup table (frameOpcode frame) with
    | none =>
        rw [frameOpcode] at found
        exact (never .opcode (by decide) (by
          rw [if_neg (not_not_intro length), if_neg (not_not_intro sync),
            if_neg (not_not_intro declared), if_neg (not_not_intro sum)]
          simp only [found])).elim
    | some row =>
        refine ⟨row, found, ?_⟩
        by_contra outside
        have range : getU32 frame obcCmdOArg < row.argMin ∨
            row.argMax < getU32 frame obcCmdOArg := by
          bv_omega
        rw [frameOpcode] at found
        exact never .arg (by decide) (by
          rw [if_neg (not_not_intro length), if_neg (not_not_intro sync),
            if_neg (not_not_intro declared), if_neg (not_not_intro sum)]
          simp only [found, range, ↓reduceIte])
  · rintro ⟨⟨length, sync, declared, sum⟩, row, found, low, high⟩ reason member
    have inRange : ¬(getU32 frame obcCmdOArg < row.argMin ∨
        row.argMax < getU32 frame obcCmdOArg) := by
      rw [not_or, BitVec.not_lt, BitVec.not_lt]
      exact ⟨low, high⟩
    rw [frameOpcode] at found
    unfold examine
    rw [if_neg (not_not_intro length), if_neg (not_not_intro sync),
      if_neg (not_not_intro declared), if_neg (not_not_intro sum)]
    simp only [found, inRange, ↓reduceIte]
    have other (told : U32) (apart : told ∉ formatReasons.map Reject.index) :
        some told ≠ some reason.index := by
      intro same
      apply apart
      rw [Option.some.inj same]
      exact List.mem_map_of_mem member
    split
    · exact other _ (by decide)
    · split
      · exact other _ (by decide)
      · split
        · exact other _ (by decide)
        · exact other _ (by decide)

theorem passesFormat_iff {table : List ObcCmd} {bytes : List U8} :
    PassesFormat table bytes ↔
      WellFormed (bufferOf bytes) (BitVec.ofNat 32 bytes.length) ∧
        FitsTable table (bufferOf bytes) := by
  have ingested (state : CmdState) (ready : state.tableOk = true) :
      obcCmdIngest table (some (bufferOf bytes)) (BitVec.ofNat 32 bytes.length) state =
        examine table (bufferOf bytes) (BitVec.ofNat 32 bytes.length)
          { state with examined := bump state.examined } := if_pos ready
  constructor
  · intro passes
    apply examine_format.mp
    intro reason member
    have told := passes { clearedCmd with tableOk := true } rfl reason member
    rwa [ingested _ rfl] at told
  · intro fits state ready reason member
    rw [ingested state ready]
    exact examine_format.mpr fits reason member

theorem put_next {layout : UplinkLayout} {field : String} {value : Nat} (place : ObcCmdField)
    (found : (layout.offsets.find? fun place => place.name == field) = some place)
    (fits : value < 256 ^ place.width) {done : List U8} {left : Nat}
    (here : done.length = place.offset) :
    layout.put field value (done ++ List.replicate left 0) =
      some ((done ++ littleEndian place.width value) ++ List.replicate (left - place.width) 0) := by
  have before : (done ++ List.replicate left (0 : U8)).take place.offset = done := by
    rw [← here, List.take_left]
  have after : (done ++ List.replicate left (0 : U8)).drop (place.offset + place.width) =
      List.replicate (left - place.width) 0 := by
    rw [← here, ← List.drop_drop, List.drop_left, List.drop_replicate]
  simp only [UplinkLayout.put, found, intToBytes, if_pos fits, Option.bind_eq_bind, Option.bind_some,
    before, after]
  rfl

def frameBody (opcode counter arg when : Nat) : List U8 :=
  littleEndian obcCmdWSync obcCmdSync.toNat ++ littleEndian obcCmdWCounter counter ++
    littleEndian obcCmdWLength obcCmdFrameLen ++ littleEndian obcCmdWOpcode opcode ++
    littleEndian obcCmdWWhen when ++ littleEndian obcCmdWArg arg

theorem build_eq (opcode counter arg when : Nat) :
    build opcode counter arg when = frameBody opcode counter arg when ++
      littleEndian obcCmdWSum (frameSum (frameBody opcode counter arg when)) := rfl

theorem frameBody_length (opcode counter arg when : Nat) :
    (frameBody opcode counter arg when).length = obcCmdOSum := by
  simp [frameBody, littleEndian, obcCmdWSync, obcCmdWCounter, obcCmdWLength, obcCmdWOpcode,
    obcCmdWWhen, obcCmdWArg, obcCmdOSum, obcCmdOArg, obcCmdOWhen, obcCmdOOpcode, obcCmdOLength,
    obcCmdOCounter, obcCmdOSync]

theorem flightUplink_build {opcode counter arg when : Nat} (opcodeFits : opcode < 2 ^ 8)
    (counterFits : counter < 2 ^ 32) (argFits : arg < 2 ^ 32) (whenFits : when < 2 ^ 32) :
    flightUplink.build opcode counter arg when none none false =
      some (build opcode counter arg when) := by
  have sum : (flightUplink.offsets.find? fun place => place.name == "sum") =
      some { name := "sum", offset := obcCmdOSum, width := obcCmdWSum } := rfl
  have empty : List.replicate flightUplink.frameLen (0 : U8) = [] ++ List.replicate 20 0 := rfl
  simp only [UplinkLayout.build, Option.getD_none, Option.bind_eq_bind, sum, Bool.false_eq_true,
    ↓reduceIte, empty]
  rw [put_next { name := "sync", offset := obcCmdOSync, width := obcCmdWSync } rfl (by decide) rfl,
    Option.bind_some,
    put_next { name := "counter", offset := obcCmdOCounter, width := obcCmdWCounter } rfl
      counterFits rfl, Option.bind_some,
    put_next { name := "length", offset := obcCmdOLength, width := obcCmdWLength } rfl
      (by decide) rfl, Option.bind_some,
    put_next { name := "opcode", offset := obcCmdOOpcode, width := obcCmdWOpcode } rfl
      opcodeFits rfl, Option.bind_some,
    put_next { name := "when", offset := obcCmdOWhen, width := obcCmdWWhen } rfl whenFits rfl,
    Option.bind_some,
    put_next { name := "arg", offset := obcCmdOArg, width := obcCmdWArg } rfl argFits rfl,
    Option.bind_some, Option.bind_some]
  have body : [] ++ littleEndian obcCmdWSync flightUplink.sync ++ littleEndian obcCmdWCounter counter ++
      littleEndian obcCmdWLength flightUplink.frameLen ++ littleEndian obcCmdWOpcode opcode ++
      littleEndian obcCmdWWhen when ++ littleEndian obcCmdWArg arg =
        frameBody opcode counter arg when := rfl
  have length := frameBody_length opcode counter arg when
  dsimp only at body ⊢
  rw [body, frameSumUpto, ← length, List.take_left,
    put_next { name := "sum", offset := obcCmdOSum, width := obcCmdWSum } rfl (frameSum_lt _) length,
    build_eq]
  exact congrArg some (List.append_nil _)

theorem fromBytes_littleEndian {width value : Nat} (fits : value < 256 ^ width) :
    fromBytes (littleEndian width value) = value := by
  rw [littleEndian_eq, fromBytes_toBytes, Nat.mod_eq_of_lt fits]

theorem build_length (opcode counter arg when : Nat) :
    (build opcode counter arg when).length = obcCmdFrameLen := by
  rw [build_eq, List.length_append, frameBody_length]
  rfl

structure ReadsBack (opcode : U8) (counter arg when : U32) (frame : Nat → U8) : Prop where
  opcode : frameOpcode frame = opcode
  counter : getU32 frame obcCmdOCounter = counter
  arg : getU32 frame obcCmdOArg = arg
  when : getU32 frame obcCmdOWhen = when

theorem getU32_built {bytes : List U8} {start : Nat} {value : U32}
    (inside : start + 4 ≤ bytes.length) (stored : slice bytes start 4 = littleEndian 4 value.toNat) :
    getU32 (bufferOf bytes) start = value := by
  apply BitVec.eq_of_toNat_eq
  rw [getU32_slice inside, stored, fromBytes_littleEndian value.isLt]

theorem build_readsBack (opcode : U8) (counter arg when : U32) :
    ReadsBack opcode counter arg when
      (bufferOf (build opcode.toNat counter.toNat arg.toNat when.toNat)) := by
  have length := build_length opcode.toNat counter.toNat arg.toNat when.toNat
  constructor
  · apply BitVec.eq_of_toNat_eq
    have stored : slice (build opcode.toNat counter.toNat arg.toNat when.toNat) obcCmdOOpcode 1 =
        littleEndian 1 opcode.toNat := rfl
    have read : (getU8 (bufferOf (build opcode.toNat counter.toNat arg.toNat when.toNat))
        obcCmdOOpcode).toNat = opcode.toNat := by
      rw [getU8_slice (by rw [length]; decide), stored, fromBytes_littleEndian opcode.isLt]
    rw [frameOpcode, BitVec.toNat_setWidth, read, Nat.mod_eq_of_lt opcode.isLt]
  · exact getU32_built (by rw [length]; decide) rfl
  · exact getU32_built (by rw [length]; decide) rfl
  · exact getU32_built (by rw [length]; decide) rfl

theorem build_wellFormed (opcode : U8) (counter arg when : U32) :
    WellFormed (bufferOf (build opcode.toNat counter.toNat arg.toNat when.toNat))
      (BitVec.ofNat 32 (build opcode.toNat counter.toNat arg.toNat when.toNat).length) := by
  have length := build_length opcode.toNat counter.toNat arg.toNat when.toNat
  refine ⟨by rw [length], getU32_built (by rw [length]; decide) rfl, ?_, ?_⟩
  · apply BitVec.eq_of_toNat_eq
    have stored : slice (build opcode.toNat counter.toNat arg.toNat when.toNat) obcCmdOLength 1 =
        littleEndian 1 obcCmdFrameLen := rfl
    rw [getU8_slice (by rw [length]; decide), stored, fromBytes_littleEndian (by decide)]
    rfl
  · apply BitVec.eq_of_toNat_eq
    have stored : slice (build opcode.toNat counter.toNat arg.toNat when.toNat) obcCmdOSum 2 =
        littleEndian obcCmdWSum
          (frameSum (frameBody opcode.toNat counter.toNat arg.toNat when.toNat)) := rfl
    have summed : frameSumUpto (build opcode.toNat counter.toNat arg.toNat when.toNat) obcCmdOSum =
        frameSum (frameBody opcode.toNat counter.toNat arg.toNat when.toNat) := by
      rw [frameSumUpto, build_eq,
        ← frameBody_length opcode.toNat counter.toNat arg.toNat when.toNat, List.take_left]
    rw [getU16_slice (by rw [length]; decide), stored, fromBytes_littleEndian (frameSum_lt _),
      obcCmdSum_frameSum (by rw [length]; decide), summed]

theorem littleEndian_getU32 {bytes : List U8} {start : Nat} (inside : start + 4 ≤ bytes.length) :
    littleEndian 4 (getU32 (bufferOf bytes) start).toNat = slice bytes start 4 := by
  have written := toBytes_fromBytes (slice bytes start 4)
  rw [slice_length inside] at written
  rw [getU32_slice inside, littleEndian_eq, written]

theorem littleEndian_getU16 {bytes : List U8} {start : Nat} (inside : start + 2 ≤ bytes.length) :
    littleEndian 2 (getU16 (bufferOf bytes) start).toNat = slice bytes start 2 := by
  have written := toBytes_fromBytes (slice bytes start 2)
  rw [slice_length inside] at written
  rw [getU16_slice inside, littleEndian_eq, written]

theorem littleEndian_getU8 {bytes : List U8} {start : Nat} (inside : start + 1 ≤ bytes.length) :
    littleEndian 1 (getU8 (bufferOf bytes) start).toNat = slice bytes start 1 := by
  have written := toBytes_fromBytes (slice bytes start 1)
  rw [slice_length inside] at written
  rw [getU8_slice inside, littleEndian_eq, written]

theorem frameOpcode_toNat (frame : Nat → U8) :
    (frameOpcode frame).toNat = (getU8 frame obcCmdOOpcode).toNat := by
  have bound := (frame obcCmdOOpcode).isLt
  rw [frameOpcode, BitVec.toNat_setWidth, getU8_toNat, Nat.mod_eq_of_lt bound]

theorem build_wellFormed_eq {bytes : List U8} (length : bytes.length = obcCmdFrameLen)
    (formed : WellFormed (bufferOf bytes) (BitVec.ofNat 32 bytes.length)) :
    build (frameOpcode (bufferOf bytes)).toNat (getU32 (bufferOf bytes) obcCmdOCounter).toNat
      (getU32 (bufferOf bytes) obcCmdOArg).toNat (getU32 (bufferOf bytes) obcCmdOWhen).toNat =
        bytes := by
  obtain ⟨_, sync, declared, sum⟩ := formed
  have syncWritten : littleEndian obcCmdWSync obcCmdSync.toNat = slice bytes obcCmdOSync 4 := by
    rw [← sync]
    exact littleEndian_getU32 (by rw [length]; decide)
  have lengthWritten : littleEndian obcCmdWLength obcCmdFrameLen = slice bytes obcCmdOLength 1 := by
    rw [← littleEndian_getU8 (by rw [length]; decide), declared]
    rfl
  have opcodeWritten : littleEndian obcCmdWOpcode (frameOpcode (bufferOf bytes)).toNat =
      slice bytes obcCmdOOpcode 1 := by
    rw [frameOpcode_toNat]
    exact littleEndian_getU8 (by rw [length]; decide)
  have counterWritten : littleEndian obcCmdWCounter (getU32 (bufferOf bytes) obcCmdOCounter).toNat =
      slice bytes obcCmdOCounter 4 := littleEndian_getU32 (by rw [length]; decide)
  have whenWritten : littleEndian obcCmdWWhen (getU32 (bufferOf bytes) obcCmdOWhen).toNat =
      slice bytes obcCmdOWhen 4 := littleEndian_getU32 (by rw [length]; decide)
  have argWritten : littleEndian obcCmdWArg (getU32 (bufferOf bytes) obcCmdOArg).toNat =
      slice bytes obcCmdOArg 4 := littleEndian_getU32 (by rw [length]; decide)
  have body : frameBody (frameOpcode (bufferOf bytes)).toNat
      (getU32 (bufferOf bytes) obcCmdOCounter).toNat (getU32 (bufferOf bytes) obcCmdOArg).toNat
      (getU32 (bufferOf bytes) obcCmdOWhen).toNat = slice bytes 0 obcCmdOSum := by
    rw [frameBody, syncWritten, counterWritten, lengthWritten, opcodeWritten, whenWritten,
      argWritten]
    have chained : obcCmdOSum = 4 + 4 + 1 + 1 + 4 + 4 := rfl
    rw [chained, slice_add, slice_add, slice_add, slice_add, slice_add]
    rfl
  have summed : frameSum (slice bytes 0 obcCmdOSum) = (getU16 (bufferOf bytes) obcCmdOSum).toNat := by
    rw [sum, obcCmdSum_frameSum (by rw [length]; decide)]
    rfl
  have sumWritten : littleEndian obcCmdWSum (frameSum (slice bytes 0 obcCmdOSum)) =
      slice bytes obcCmdOSum 2 := by
    rw [summed]
    exact littleEndian_getU16 (by rw [length]; decide)
  have whole : slice bytes 0 obcCmdOSum ++ slice bytes obcCmdOSum 2 = bytes := by
    have all := slice_whole bytes
    have parts := slice_add bytes 0 obcCmdOSum 2
    rw [Nat.zero_add] at parts
    rw [length] at all
    rw [← parts]
    exact all
  rw [build_eq, body, sumWritten, whole]

/-- Host and vehicle agree on the format of a command frame. -/
theorem uplink_agrees :
    (∀ row ∈ obcCmdTable, ∀ arg counter when : U32, row.argMin ≤ arg → arg ≤ row.argMax →
      ∃ bytes, flightUplink.build row.opcode.toNat counter.toNat arg.toNat when.toNat none none
          false = some bytes ∧
        bytes.length = obcCmdFrameLen ∧ PassesFormat obcCmdTable bytes ∧
        ReadsBack row.opcode counter arg when (bufferOf bytes)) ∧
    (∀ bytes : List U8, bytes.length = obcCmdFrameLen → PassesFormat obcCmdTable bytes →
      flightUplink.build (frameOpcode (bufferOf bytes)).toNat
        (getU32 (bufferOf bytes) obcCmdOCounter).toNat (getU32 (bufferOf bytes) obcCmdOArg).toNat
        (getU32 (bufferOf bytes) obcCmdOWhen).toNat none none false = some bytes) ∧
    ∀ (bytes : List U8) (upto : Nat), upto ≤ bytes.length →
      (obcCmdSum (bufferOf bytes) upto).toNat = frameSumUpto bytes upto := by
  refine ⟨?_, ?_, fun bytes upto inside => obcCmdSum_frameSum inside⟩
  · intro row member arg counter when low high
    have back := build_readsBack row.opcode counter arg when
    have found : ∀ row ∈ obcCmdTable, lookup obcCmdTable row.opcode = some row := by decide
    refine ⟨_, flightUplink_build row.opcode.isLt counter.isLt arg.isLt when.isLt,
      build_length _ _ _ _, ?_, back⟩
    apply passesFormat_iff.mpr
    refine ⟨build_wellFormed row.opcode counter arg when, row, ?_, ?_, ?_⟩
    · rw [back.opcode]
      exact found row member
    · rw [back.arg]
      exact low
    · rw [back.arg]
      exact high
  · intro bytes length passes
    rw [flightUplink_build (frameOpcode _).isLt (BitVec.isLt _) (BitVec.isLt _) (BitVec.isLt _),
      build_wellFormed_eq length (passesFormat_iff.mp passes).1]

end ObcZero
