import ObcZero.FrameSearch

/-! Frames and text on one line: what the host decodes of a capture in which console
text stands before, between and after the frames. -/

namespace ObcZero

open BytePacking GreedyScan LittleEndian

def saturated (width : Nat) (value : U32) : Nat := min (256 ^ width - 1) value.toNat

def lowByte (value : U32) : Nat := value.toNat % 256

def emittedValues (readings : TlmReadings) (command : CmdState) (state : TlmState) :
    List (String × TlmValue) :=
  [("sync", .one obcTlmSync.toNat),
   ("seq", .one state.seq.toNat),
   ("uptime_ticks",
     .one (if readings.clock = .ok then readings.now.toNat % 2 ^ 32 else 0xFFFFFFFF)),
   ("frames_run", .one readings.framesRun.toNat),
   ("frame_overruns", .one (saturated 2 readings.frameOverruns)),
   ("slack_ticks_min", .one (saturated 2 readings.slackTicksMin)),
   ("task_overruns", .many ((List.range obcMaxTasks).map fun index =>
     saturated 1 (readings.taskOverruns.getD index 0))),
   ("voter_repairs", .one (saturated 2 readings.repairs)),
   ("voter_failed_votes", .one (saturated 2 readings.failedVotes)),
   ("suspensions", .one (saturated 2 readings.suspensionCount)),
   ("frames_dropped", .one (saturated 2 state.drops)),
   ("short_boots", .one (saturated 1 readings.shortBoots)),
   ("mode", .one (if readings.modeIsSafe then 1 else 0)),
   ("safe_reason", .one (lowByte readings.safeReason)),
   ("reset_cause", .one (lowByte readings.resetCause)),
   ("sensor_flags", .one (lowByte readings.sensorFlags)),
   ("sensor", .many ((List.finRange obcSensorCount).map fun index =>
     (readings.sensorValue index).toNat)),
   ("cmd_examined", .one command.examined.toNat),
   ("cmd_accepted", .one command.accepted.toNat),
   ("cmd_rejected", .many (rejects.map fun reason => (command.rejected reason).toNat)),
   ("cmd_executed", .one (saturated 2 command.executed)),
   ("cmd_queued", .one (saturated 1 command.queued)),
   ("cmd_late", .one (saturated 1 command.late)),
   ("sum", .one (frameSumUpto (frameBytes (packedFrame readings command state)) obcTlmOSum))]

theorem sat16_stored (value : U32) : (sat16 value).toNat % 256 ^ 2 = saturated 2 value := by
  have bound := value.isLt
  unfold sat16 saturated
  split
  · bv_omega
  · bv_omega

theorem sat8_stored (value : U32) : (sat8 value).toNat % 256 ^ 1 = saturated 1 value := by
  have bound := value.isLt
  unfold sat8 saturated
  split
  · bv_omega
  · bv_omega

theorem lowByte_stored (value : U32) : value.toNat % 256 ^ 1 = lowByte value := by
  rw [Nat.pow_one, lowByte]

section

variable {readings : TlmReadings} {command : CmdState} {state : TlmState}

theorem decodeField_one {field : ObcTlmField} (single : field.count = 1) (raw : List U8) :
    decodeField raw field = .one (fromBytes (slice raw field.offset field.width)) := by
  simp [decodeField, single, List.range_succ]

theorem decodeField_word {name : String} {offset kind : Nat} {value : U32}
    (member : putU32 offset value ∈ tlmFields readings command state) :
    decodeField (frameBytes (packedFrame readings command state))
      { name := name, offset := offset, width := 4, count := 1, kind := kind } =
        .one value.toNat := by
  have stored := packedFrame_field member
  have bound : value.toNat < 256 ^ 4 := value.isLt
  simp only [putU32] at stored
  rw [decodeField_one rfl, stored, Nat.mod_eq_of_lt bound]

theorem decodeField_half {name : String} {offset kind : Nat} {value : U32}
    (member : putU16 offset value ∈ tlmFields readings command state) :
    decodeField (frameBytes (packedFrame readings command state))
      { name := name, offset := offset, width := 2, count := 1, kind := kind } =
        .one (value.toNat % 256 ^ 2) := by
  have stored := packedFrame_field member
  simp only [putU16] at stored
  rw [decodeField_one rfl, stored]

theorem decodeField_byte {name : String} {offset kind : Nat} {value : U32}
    (member : putU8 offset value ∈ tlmFields readings command state) :
    decodeField (frameBytes (packedFrame readings command state))
      { name := name, offset := offset, width := 1, count := 1, kind := kind } =
        .one (value.toNat % 256 ^ 1) := by
  have stored := packedFrame_field member
  simp only [putU8] at stored
  rw [decodeField_one rfl, stored]

theorem decodeField_taskOverruns (kind : Nat) :
    decodeField (frameBytes (packedFrame readings command state))
      { name := "task_overruns", offset := obcTlmOTaskOverruns, width := 1, count := obcMaxTasks,
        kind := kind } =
        .many ((List.range obcMaxTasks).map fun index =>
          saturated 1 (readings.taskOverruns.getD index 0)) := by
  have elems : ((List.range obcMaxTasks).map fun index =>
      fromBytes (slice (frameBytes (packedFrame readings command state))
        (obcTlmOTaskOverruns + index * 1) 1)) =
      (List.range obcMaxTasks).map fun index =>
        saturated 1 (readings.taskOverruns.getD index 0) := by
    refine List.map_congr_left fun index bound => ?_
    have member : putU8 (obcTlmOTaskOverruns + index)
        (sat8 (readings.taskOverruns.getD index 0)) ∈ tlmFields readings command state := by
      have column : putU8 (obcTlmOTaskOverruns + index)
          (sat8 (readings.taskOverruns.getD index 0)) ∈
          (List.range obcMaxTasks).map fun index =>
            putU8 (obcTlmOTaskOverruns + index) (sat8 (readings.taskOverruns.getD index 0)) :=
        List.mem_map_of_mem bound
      simp only [tlmFields, List.mem_append]
      exact .inl (.inl (.inl (.inl (.inl (.inr column)))))
    have stored := packedFrame_field member
    simp only [putU8, sat8_stored] at stored
    rw [Nat.mul_one, stored]
  exact congrArg TlmValue.many elems

theorem decodeField_sensor (kind : Nat) :
    decodeField (frameBytes (packedFrame readings command state))
      { name := "sensor", offset := obcTlmOSensor, width := 2, count := obcSensorCount,
        kind := kind } =
        .many ((List.finRange obcSensorCount).map fun index =>
          (readings.sensorValue index).toNat) := by
  have elems : ((List.finRange obcSensorCount).map fun index =>
      fromBytes (slice (frameBytes (packedFrame readings command state))
        (obcTlmOSensor + index.val * 2) 2)) =
      (List.finRange obcSensorCount).map fun index =>
        (readings.sensorValue index).toNat := by
    refine List.map_congr_left fun index bound => ?_
    have member : putU16 (obcTlmOSensor + 2 * index.val) ((readings.sensorValue index).setWidth 32) ∈
        tlmFields readings command state := by
      have column : putU16 (obcTlmOSensor + 2 * index.val) ((readings.sensorValue index).setWidth 32) ∈
          (List.finRange obcSensorCount).map fun index =>
            putU16 (obcTlmOSensor + 2 * index.val) ((readings.sensorValue index).setWidth 32) :=
        List.mem_map_of_mem bound
      simp only [tlmFields, List.mem_append]
      exact .inl (.inl (.inl (.inr column)))
    have stored := packedFrame_field member
    have fits := (readings.sensorValue index).isLt
    have promoted : ((readings.sensorValue index).setWidth 32).toNat % 256 ^ 2 =
        (readings.sensorValue index).toNat := by
      rw [BitVec.toNat_setWidth]
      omega
    simp only [putU16, promoted] at stored
    rw [Nat.mul_comm, stored]
  exact congrArg TlmValue.many elems

theorem decodeField_rejected (kind : Nat) :
    decodeField (frameBytes (packedFrame readings command state))
      { name := "cmd_rejected", offset := obcTlmOCmdRejected, width := 4, count := rejects.length,
        kind := kind } =
        .many (rejects.map fun reason => (command.rejected reason).toNat) := by
  have elems : (rejects.zipIdx.map fun entry =>
      fromBytes (slice (frameBytes (packedFrame readings command state))
        (obcTlmOCmdRejected + entry.2 * 4) 4)) =
      rejects.zipIdx.map fun entry => (command.rejected entry.1).toNat := by
    refine List.map_congr_left fun entry bound => ?_
    obtain ⟨reason, index⟩ := entry
    have member : putU32 (obcTlmOCmdRejected + 4 * index) (command.rejected reason) ∈
        tlmFields readings command state := by
      have column : putU32 (obcTlmOCmdRejected + 4 * index) (command.rejected reason) ∈
          rejects.zipIdx.map fun entry =>
            putU32 (obcTlmOCmdRejected + 4 * entry.2) (command.rejected entry.1) :=
        List.mem_map.mpr ⟨(reason, index), bound, rfl⟩
      simp only [tlmFields, List.mem_append]
      exact .inl (.inr column)
    have stored := packedFrame_field member
    have fits : (command.rejected reason).toNat < 256 ^ 4 := (command.rejected reason).isLt
    simp only [putU32] at stored
    dsimp only
    rw [Nat.mul_comm, stored, Nat.mod_eq_of_lt fits]
  exact congrArg TlmValue.many elems

theorem decodeFrame_packed :
    decodeFrame (frameBytes (packedFrame readings command state)) flightTlm =
      emittedValues readings command state := by
  have sum : decodeField (frameBytes (packedFrame readings command state))
      { name := "sum", offset := obcTlmOSum, width := 2, count := 1, kind := obcTlmKindSum } =
        .one (frameSumUpto (frameBytes (packedFrame readings command state)) obcTlmOSum) := by
    rw [decodeField_one rfl]
    exact congrArg TlmValue.one packedFrame_sum
  have sync : putU32 obcTlmOSync obcTlmSync ∈ tlmFields readings command state := by
    simp [tlmFields]
  have seq : putU32 obcTlmOSeq state.seq ∈ tlmFields readings command state := by
    simp [tlmFields]
  have uptime : putU32 obcTlmOUptime
      (if readings.clock = .ok then readings.now.setWidth 32 else 0xFFFFFFFF) ∈
        tlmFields readings command state := by
    simp [tlmFields]
  have frames : putU32 obcTlmOFrames readings.framesRun ∈ tlmFields readings command state := by
    simp [tlmFields]
  have frameOverruns : putU16 obcTlmOFrameOverruns
      (sat16 readings.frameOverruns) ∈
        tlmFields readings command state := by
    simp [tlmFields]
  have slack : putU16 obcTlmOSlack
      (sat16 readings.slackTicksMin) ∈
        tlmFields readings command state := by
    simp [tlmFields]
  have repairs : putU16 obcTlmORepairs
      (sat16 readings.repairs) ∈
        tlmFields readings command state := by
    simp [tlmFields]
  have failedVotes : putU16 obcTlmOFailedVotes
      (sat16 readings.failedVotes) ∈
        tlmFields readings command state := by
    simp [tlmFields]
  have suspensions : putU16 obcTlmOSuspensions
      (sat16 readings.suspensionCount) ∈
        tlmFields readings command state := by
    simp [tlmFields]
  have drops : putU16 obcTlmODrops (sat16 state.drops) ∈ tlmFields readings command state := by
    simp [tlmFields]
  have shortBoots : putU8 obcTlmOShortBoots
      (sat8 readings.shortBoots) ∈
        tlmFields readings command state := by
    simp [tlmFields]
  have mode : putU8 obcTlmOMode
      (if readings.modeIsSafe then 1 else 0) ∈
        tlmFields readings command state := by
    simp [tlmFields]
  have safeReason : putU8 obcTlmOSafeReason
      readings.safeReason ∈
        tlmFields readings command state := by
    simp [tlmFields]
  have resetCause : putU8 obcTlmOResetCause
      readings.resetCause ∈
        tlmFields readings command state := by
    simp [tlmFields]
  have sensorFlags : putU8 obcTlmOSensorFlags
      readings.sensorFlags ∈
        tlmFields readings command state := by
    simp [tlmFields]
  have examined : putU32 obcTlmOCmdExamined
      command.examined ∈
        tlmFields readings command state := by
    simp [tlmFields]
  have accepted : putU32 obcTlmOCmdAccepted
      command.accepted ∈
        tlmFields readings command state := by
    simp [tlmFields]
  have executed : putU16 obcTlmOCmdExecuted
      (sat16 command.executed) ∈
        tlmFields readings command state := by
    simp [tlmFields]
  have queued : putU8 obcTlmOCmdQueued
      (sat8 command.queued) ∈
        tlmFields readings command state := by
    simp [tlmFields]
  have late : putU8 obcTlmOCmdLate (sat8 command.late) ∈ tlmFields readings command state := by
    simp [tlmFields]
  simp only [decodeFrame, flightTlm, obcTlmFields, List.map_cons, List.map_nil, emittedValues]
  rw [decodeField_word sync, decodeField_word seq, decodeField_word uptime,
    decodeField_word frames, decodeField_half frameOverruns, decodeField_half slack,
    decodeField_taskOverruns, decodeField_half repairs, decodeField_half failedVotes,
    decodeField_half suspensions, decodeField_half drops, decodeField_byte shortBoots,
    decodeField_byte mode, decodeField_byte safeReason, decodeField_byte resetCause,
    decodeField_byte sensorFlags, decodeField_sensor, decodeField_word examined,
    decodeField_word accepted, decodeField_rejected, decodeField_half executed,
    decodeField_byte queued, decodeField_byte late, sum]
  have uptimeValue :
      (if readings.clock = .ok then readings.now.setWidth 32 else 0xFFFFFFFF : U32).toNat =
        if readings.clock = .ok then readings.now.toNat % 2 ^ 32 else 0xFFFFFFFF := by
    split
    · exact BitVec.toNat_setWidth 32 readings.now
    · rfl
  have modeValue :
      (if readings.modeIsSafe then 1 else 0 : U32).toNat % 256 ^ 1 =
        if readings.modeIsSafe then 1 else 0 := by
    split
    · rfl
    · rfl
  rw [uptimeValue, modeValue]
  simp only [sat16_stored, sat8_stored]
  simp only [lowByte_stored]

end

structure ConsoleText where
  bytes : List U8
  ascii : ∀ byte ∈ bytes, byte.toNat < 0x80

structure Report where
  text : ConsoleText
  readings : TlmReadings
  command : CmdState
  state : TlmState
  audited : state.layoutOk = true

def Report.frame (report : Report) : List U8 :=
  frameBytes (obcTlmEmit report.readings report.command .ok report.state).2.frame

def captureOf (reports : List Report) (last : ConsoleText) : List U8 :=
  (reports.map fun report => report.text.bytes ++ report.frame).flatten ++ last.bytes

def expectedFrames : Nat → List Report → List TlmFrame
  | _, [] => []
  | position, report :: rest =>
      { offset := position + report.text.bytes.length
        values := emittedValues report.readings report.command report.state } ::
        expectedFrames (position + report.text.bytes.length + obcTlmFrameLen) rest

def ConsoleText.chunk (text : ConsoleText) : Chunk := { bytes := text.bytes, whole := false }

def Report.chunk (report : Report) : Chunk := { bytes := report.frame, whole := true }

def captureChunks : List Report → ConsoleText → List Chunk
  | [], last => [last.chunk]
  | report :: rest, last => report.text.chunk :: report.chunk :: captureChunks rest last

theorem Report.frame_eq (report : Report) :
    report.frame = frameBytes (packedFrame report.readings report.command report.state) := by
  rw [Report.frame, obcTlmEmit_frame .ok report.audited]

theorem Report.isFrame (report : Report) : IsFrame report.frame := by
  rw [report.frame_eq]
  exact isFrame_packed report.readings report.command report.state

theorem streamOf_capture (reports : List Report) (last : ConsoleText) :
    streamOf (captureChunks reports last) = captureOf reports last := by
  induction reports with
  | nil => simp [captureChunks, captureOf, streamOf, ConsoleText.chunk]
  | cons report rest ih =>
      have split := streamOf_cons report.chunk (captureChunks rest last) report.text.bytes
      rw [ih] at split
      rw [captureChunks, ← List.nil_append (streamOf _), streamOf_cons, List.nil_append]
      refine split.trans ?_
      simp [captureOf, Report.chunk]

theorem captureChunks_frames (reports : List Report) (last : ConsoleText) :
    ∀ chunk ∈ captureChunks reports last, chunk.whole = true → IsFrame chunk.bytes := by
  induction reports with
  | nil =>
      intro chunk member whole
      rw [List.mem_singleton.mp member] at whole
      cases whole
  | cons report rest ih =>
      intro chunk member whole
      rcases List.mem_cons.mp member with text | member
      · rw [text] at whole
        cases whole
      rcases List.mem_cons.mp member with frame | later
      · rw [frame]
        exact report.isFrame
      · exact ih chunk later whole

theorem wholeFrames_capture (reports : List Report) (last : ConsoleText) (position : Nat) :
    wholeFrames position (captureChunks reports last) = expectedFrames position reports := by
  induction reports generalizing position with
  | nil => rfl
  | cons report rest ih =>
      have length : report.chunk.bytes.length = obcTlmFrameLen := report.isFrame.length
      have values : decodeFrame report.chunk.bytes flightTlm =
          emittedValues report.readings report.command report.state := by
        rw [Report.chunk, report.frame_eq]
        exact decodeFrame_packed
      have isText : ¬report.text.chunk.whole = true := Bool.false_ne_true
      have isFrame : report.chunk.whole = true := rfl
      rw [captureChunks, wholeFrames, if_neg isText, wholeFrames, if_pos isFrame, ih, values, length]
      rfl

/-- The third byte of the sync word is no text, and behind a text stand at most the
first two bytes of one. -/
theorem notRead_text {before text after : List U8} (ascii : ∀ byte ∈ text, byte.toNat < 0x80)
    (follows : ∀ index < 2, after[index]? ≠ some 0xC3) {inside : Nat}
    (lower : before.length ≤ inside) (upper : inside < before.length + text.length) :
    ¬ReadsAsFrame (before ++ text ++ after) inside := by
  rintro ⟨_, sync, _⟩
  have third : (before ++ (text ++ after))[inside + 2]? = some 0xC3 := by
    have byte : (slice (before ++ text ++ after) inside 4)[2]? = some 0xC3 := by
      rw [sync]
      rfl
    rw [slice, List.getElem?_take_of_lt (by decide), List.getElem?_drop, List.append_assoc] at byte
    exact byte
  rw [List.getElem?_append_right (by omega)] at third
  by_cases within : inside + 2 - before.length < text.length
  · rw [List.getElem?_append_left within] at third
    have small := ascii _ (List.mem_of_getElem? third)
    exact absurd small (by decide)
  · rw [List.getElem?_append_right (by omega)] at third
    exact follows _ (by omega) third

theorem frame_follows {bytes : List U8} (frame : IsFrame bytes) (rest : List U8) :
    ∀ index < 2, (bytes ++ rest)[index]? ≠ some 0xC3 := by
  intro index early present
  have length := frame.length
  have long : 2 < obcTlmFrameLen := by decide
  have synced := congrArg (fun sync => sync[index]?) frame.sync
  simp only [slice, List.drop_zero] at synced
  rw [List.getElem?_take_of_lt (by omega)] at synced
  rw [List.getElem?_append_left (by omega), synced] at present
  have none : ∀ index < 2, tlmSyncBytes[index]? ≠ some 0xC3 := by decide
  exact none index early present

theorem captureChunks_quiet (reports : List Report) (last : ConsoleText) (before : List U8) :
    Quiet (ReadsAsFrame (before ++ streamOf (captureChunks reports last))) before.length
      ((captureChunks reports last).map segmentOf) := by
  induction reports generalizing before with
  | nil =>
      rw [captureChunks, streamOf_cons]
      refine ⟨fun _ inside lower upper => ?_, trivial⟩
      exact notRead_text last.ascii (fun index _ => by simp [streamOf]) lower upper
  | cons report rest ih =>
      have later := ih (before ++ report.text.bytes ++ report.frame)
      rw [List.length_append, List.length_append] at later
      have stream : before ++ streamOf (captureChunks (report :: rest) last) =
          before ++ report.text.bytes ++ report.frame ++ streamOf (captureChunks rest last) := by
        rw [captureChunks, streamOf_cons, streamOf_cons]
        rfl
      rw [stream]
      refine ⟨fun _ inside lower upper => ?_, fun filler => (by cases filler), later⟩
      rw [List.append_assoc (before ++ report.text.bytes)]
      exact notRead_text report.text.ascii (frame_follows report.isFrame _) lower upper

/-- From a line that carries frames and text, the host decodes exactly the frames, in
order and at their offsets, each to what the emitted state said. -/
theorem findFrames_capture (reports : List Report) (last : ConsoleText) :
    findFrames (captureOf reports last) flightTlm = some (expectedFrames 0 reports) := by
  have quiet := captureChunks_quiet reports last []
  have exactly := (findFrames_exactly (captureChunks_frames reports last)).mpr quiet
  rw [streamOf_capture, wholeFrames_capture] at exactly
  exact exactly

end ObcZero
