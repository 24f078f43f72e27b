import ObcZero.AtMostOnce
import ObcZero.FixedFraming
import ObcZero.FrameBytes
import ObcZero.IngestVerdict

/-! What a poll hands to the parser. The record kept beside the run is tied to the
code twice: it is what the polls' effect amounts to, and it is the chunks of the
stream cut at the polls that heard nothing. -/

namespace ObcZero

open StepSystem FixedFraming

def heldBytes (state : CmdState) : List U8 := (List.range state.fill.val).map state.rx

def frameCompleted (byte : U8) (state : CmdState) : List (Handed U8) :=
  if state.fill.val + 1 < obcCmdFrameLen then []
  else [.chunk ((List.range obcCmdFrameLen).map (completedFrame byte state))]

def framesTaken (table : List ObcCmd) : List U8 → CmdState → List (Handed U8)
  | [], _ => []
  | byte :: rest, state =>
      frameCompleted byte state ++ framesTaken table rest (takeByte table byte state)

def unread (state : CmdState) : CmdState :=
  { state with uplink := state.uplink.drop obcCmdRxBytes }

def polledBytes (table : List ObcCmd) (state : CmdState) : CmdState :=
  run (takeByte table) (state.uplink.take obcCmdRxBytes) (unread state)

/-- Nothing was waiting and a partial frame is held. -/
def Truncates (table : List ObcCmd) (state : CmdState) : Prop :=
  (state.uplink.take obcCmdRxBytes).isEmpty ∧ (polledBytes table state).fill ≠ 0

instance (table : List ObcCmd) (state : CmdState) : Decidable (Truncates table state) :=
  instDecidableAnd

/-- What one call of `obc_cmd_poll` hands to `obc_cmd_ingest`, and the truncated frame
it refuses by itself. -/
def pollHanded (table : List ObcCmd) (state : CmdState) : List (Handed U8) :=
  if state.tableOk then
    framesTaken table (state.uplink.take obcCmdRxBytes) (unread state) ++
      if Truncates table state then [.truncated] else []
  else []

theorem obcCmdPoll_audited (table : List ObcCmd) {state : CmdState}
    (audited : state.tableOk = true) :
    obcCmdPoll table state =
      if Truncates table state then
        (refuse .length { polledBytes table state with
          fill := 0, examined := bump (polledBytes table state).examined }).2.2
      else polledBytes table state := if_pos audited

theorem pollHanded_audited (table : List ObcCmd) {state : CmdState}
    (audited : state.tableOk = true) :
    pollHanded table state =
      framesTaken table (state.uplink.take obcCmdRxBytes) (unread state) ++
        if Truncates table state then [.truncated] else [] := if_pos audited

def handle (table : List ObcCmd) (state : CmdState) : Handed U8 → CmdState
  | .chunk bytes =>
      (obcCmdIngest table (some (bufferOf bytes)) (BitVec.ofNat 32 obcCmdFrameLen) state).2.2
  | .truncated => (refuse .length { state with examined := bump state.examined }).2.2

/-- Equal but for the receive buffer and the bytes waiting on the link. -/
def SameButBuffer (state other : CmdState) : Prop :=
  ∃ rx fill uplink, other = { state with rx := rx, fill := fill, uplink := uplink }

theorem SameButBuffer.refused {state other : CmdState} (same : SameButBuffer state other)
    (reason : Reject) : SameButBuffer (refuse reason state).2.2 (refuse reason other).2.2 := by
  obtain ⟨rx, fill, uplink, rfl⟩ := same
  refine ⟨rx, fill, uplink, ?_⟩
  by_cases spoken : state.announced &&& (1#32 <<< reason.index) ≠ 0
  · simp only [refuse, announceOnce, spoken, not_false_eq_true, ne_eq, ↓reduceIte]
  · simp only [refuse, announceOnce, spoken, ↓reduceIte]

theorem SameButBuffer.counted {state other : CmdState} (same : SameButBuffer state other) :
    SameButBuffer { state with examined := bump state.examined }
      { other with examined := bump other.examined } := by
  obtain ⟨rx, fill, uplink, rfl⟩ := same
  exact ⟨rx, fill, uplink, rfl⟩

section Reads

variable {first second : Nat → U8} (same : ∀ index < obcCmdFrameLen, first index = second index)

include same

theorem getU16_sum_congr : getU16 first obcCmdOSum = getU16 second obcCmdOSum := by
  rw [getU16, getU16, getU8, getU8, getU8, getU8, same obcCmdOSum (by decide),
    same (obcCmdOSum + 1) (by decide)]

theorem getU32_congr {offset : Nat} (inside : offset + 3 < obcCmdFrameLen) :
    getU32 first offset = getU32 second offset := by
  rw [getU32, getU32, getU8, getU8, getU8, getU8, getU8, getU8, getU8, getU8,
    same offset (by omega), same (offset + 1) (by omega), same (offset + 2) (by omega),
    same (offset + 3) inside]

theorem Check.passes_congr (table : List ObcCmd) (len : U32) {state other : CmdState}
    (buffers : SameButBuffer state other) (check : Check) :
    check.Passes table first len state ↔ check.Passes table second len other := by
  obtain ⟨rx, fill, uplink, rfl⟩ := buffers
  have opcode : first obcCmdOOpcode = second obcCmdOOpcode := same _ (by decide)
  have arg : getU32 first obcCmdOArg = getU32 second obcCmdOArg := getU32_congr same (by decide)
  cases check with
  | frameLength => rfl
  | sync => rw [Check.Passes, Check.Passes, getU32_congr same (by decide)]
  | declaredLength => rw [Check.Passes, Check.Passes, same obcCmdOLength (by decide)]
  | sum =>
      rw [Check.Passes, Check.Passes, getU16_sum_congr same,
        obcCmdSum_congr fun index below => same index (below.trans (by decide))]
  | opcode => rw [Check.Passes, Check.Passes, opcode]
  | arg => rw [Check.Passes, Check.Passes, opcode, arg]
  | replay => rw [Check.Passes, Check.Passes, getU32_congr same (by decide)]
  | armed => rw [Check.Passes, Check.Passes, opcode]
  | room => rfl

/-- The parser reads the twenty bytes of the frame and nothing of the buffer. -/
theorem SameButBuffer.ingested (table : List ObcCmd) (len : U32) {state other : CmdState}
    (buffers : SameButBuffer state other) :
    SameButBuffer (obcCmdIngest table (some first) len state).2.2
      (obcCmdIngest table (some second) len other).2.2 := by
  have audit : other.tableOk = state.tableOk := by
    obtain ⟨rx, fill, uplink, rfl⟩ := buffers
    rfl
  by_cases audited : state.tableOk = true
  swap
  · have ignored : obcCmdIngest table (some first) len state = (.errInvalid, none, state) :=
      if_neg audited
    have otherIgnored : obcCmdIngest table (some second) len other = (.errInvalid, none, other) :=
      if_neg (by rwa [audit])
    rw [ignored, otherIgnored]
    exact buffers
  have counted := buffers.counted
  have examined : obcCmdIngest table (some first) len state =
      examine table first len { state with examined := bump state.examined } := if_pos audited
  have otherExamined : obcCmdIngest table (some second) len other =
      examine table second len { other with examined := bump other.examined } :=
    if_pos (by rwa [audit])
  have passes := Check.passes_congr same table len counted
  rw [examined, otherExamined]
  rcases examine_verdict table first len { state with examined := bump state.examined } with
    ⟨check, fails, refused⟩ | ⟨all, index, free, accepted⟩
  · have otherFails : FailsFirst table second len { other with examined := bump other.examined }
        check :=
      ⟨fun earlier before => (passes earlier).mp (fails.earlier earlier before),
        fun passed => fails.fails ((passes check).mpr passed)⟩
    rw [refused, examine_refused otherFails]
    exact counted.refused check.reason
  · have queue : { other with examined := bump other.examined }.queue = state.queue := by
      obtain ⟨rx, fill, uplink, rfl⟩ := buffers
      rfl
    have otherFree : FirstFree { other with examined := bump other.examined }.queue index := by
      rw [queue]
      exact free
    rw [accepted, examine_accepted (fun check => (passes check).mp (all check)) otherFree]
    obtain ⟨rx, fill, uplink, rfl⟩ := buffers
    refine ⟨rx, fill, uplink, ?_⟩
    simp only [acceptedState, frameOpcode_eq, same obcCmdOOpcode (by decide),
      getU32_congr same (show obcCmdOWhen + 3 < obcCmdFrameLen by decide),
      getU32_congr same (show obcCmdOArg + 3 < obcCmdFrameLen by decide),
      getU32_congr same (show obcCmdOCounter + 3 < obcCmdFrameLen by decide)]

end Reads

theorem bufferOf_map_range (frame : Nat → U8) {index : Nat} (below : index < obcCmdFrameLen) :
    frame index = bufferOf ((List.range obcCmdFrameLen).map frame) index := by
  rw [bufferOf, List.getD_eq_getElem _ _ (by simpa using below)]
  simp

theorem SameButBuffer.rebuffered {state other : CmdState} (same : SameButBuffer state other)
    (rx : Nat → U8) (fill : Fin obcCmdFrameLen) (uplink : List U8) :
    SameButBuffer state { other with rx := rx, fill := fill, uplink := uplink } := by
  obtain ⟨_, _, _, rfl⟩ := same
  exact ⟨rx, fill, uplink, rfl⟩

/-- A byte taken amounts to handling the frame it completes. -/
theorem SameButBuffer.tookByte (table : List ObcCmd) (byte : U8) {state other : CmdState}
    (same : SameButBuffer other state) :
    SameButBuffer ((frameCompleted byte state).foldl (handle table) other)
      (takeByte table byte state) := by
  by_cases room : state.fill.val + 1 < obcCmdFrameLen
  · have stored : takeByte table byte state =
        { state with rx := completedFrame byte state, fill := ⟨state.fill.val + 1, room⟩ } := by
      simp only [takeByte, room, ↓reduceDIte, completedFrame]
    simp only [frameCompleted, room, ↓reduceIte, List.foldl_nil, stored]
    exact same.rebuffered _ _ state.uplink
  · have completed : takeByte table byte state =
        { (obcCmdIngest table (some (completedFrame byte state)) (BitVec.ofNat 32 obcCmdFrameLen)
            { state with rx := completedFrame byte state }).2.2 with fill := 0 } := by
      simp only [takeByte, room, ↓reduceDIte, completedFrame]
    have ingested := SameButBuffer.ingested
      (fun index below => (bufferOf_map_range (completedFrame byte state) below).symm)
      table (BitVec.ofNat 32 obcCmdFrameLen)
      (same.rebuffered (completedFrame byte state) state.fill state.uplink)
    simp only [frameCompleted, room, ↓reduceIte, List.foldl_cons, List.foldl_nil, handle, completed]
    exact ingested.rebuffered _ 0 _

theorem SameButBuffer.tookBytes (table : List ObcCmd) (bytes : List U8) {state other : CmdState}
    (same : SameButBuffer other state) :
    SameButBuffer ((framesTaken table bytes state).foldl (handle table) other)
      (run (takeByte table) bytes state) := by
  induction bytes generalizing state other with
  | nil => exact same
  | cons byte rest ih =>
      rw [framesTaken, List.foldl_append, run]
      exact ih (same.tookByte table byte)

theorem SameButBuffer.truncated (table : List ObcCmd) {state other : CmdState}
    (same : SameButBuffer other state) :
    SameButBuffer (handle table other .truncated)
      (refuse .length { state with fill := 0, examined := bump state.examined }).2.2 := by
  have counted : SameButBuffer { other with examined := bump other.examined }
      { state with fill := 0, examined := bump state.examined } := by
    obtain ⟨rx, fill, uplink, rfl⟩ := same
    exact ⟨rx, 0, uplink, rfl⟩
  exact counted.refused .length

/-- A poll does to the state what handling its frames does, one after the other. -/
theorem obcCmdPoll_handled (table : List ObcCmd) (state : CmdState) :
    SameButBuffer ((pollHanded table state).foldl (handle table) state)
      (obcCmdPoll table state) := by
  by_cases audited : state.tableOk = true
  swap
  · simp only [pollHanded, obcCmdPoll, audited, Bool.false_eq_true, ↓reduceIte, List.foldl_nil]
    exact ⟨state.rx, state.fill, state.uplink, rfl⟩
  have drained : SameButBuffer state (unread state) :=
    ⟨state.rx, state.fill, state.uplink.drop obcCmdRxBytes, rfl⟩
  have taken := drained.tookBytes table (state.uplink.take obcCmdRxBytes)
  rw [obcCmdPoll_audited table audited, pollHanded_audited table audited]
  by_cases truncates : Truncates table state
  · rw [if_pos truncates, if_pos truncates, List.foldl_append]
    exact taken.truncated table
  · rw [if_neg truncates, if_neg truncates, List.append_nil]
    exact taken

/-- The buffer holds what the open piece has left over. -/
structure Framed (cut : Cut U8) (state : CmdState) : Prop where
  audited : state.tableOk = true
  held : heldBytes state = remainder obcCmdFrameLen cut.unfinished

theorem length_heldBytes (state : CmdState) : (heldBytes state).length = state.fill.val := by
  simp [heldBytes]

theorem map_completedFrame (byte : U8) (state : CmdState) :
    (List.range (state.fill.val + 1)).map (completedFrame byte state) =
      heldBytes state ++ [byte] := by
  have before : (List.range state.fill.val).map (completedFrame byte state) = heldBytes state := by
    refine List.map_congr_left fun index inside => ?_
    exact Function.update_of_ne (List.mem_range.mp inside).ne _ _
  rw [List.range_succ, List.map_append, before, List.map_singleton, completedFrame,
    Function.update_self]

theorem Framed.tookByte {cut : Cut U8} {state : CmdState} (framed : Framed cut state)
    (table : List ObcCmd) (byte : U8) :
    Framed { cut with unfinished := cut.unfinished ++ [byte] } (takeByte table byte state) ∧
      (chunks obcCmdFrameLen (cut.unfinished ++ [byte])).map Handed.chunk =
        (chunks obcCmdFrameLen cut.unfinished).map .chunk ++ frameCompleted byte state ∧
      (takeByte table byte state).uplink = state.uplink := by
  have held := framed.held
  have fill : (remainder obcCmdFrameLen cut.unfinished).length = state.fill.val := by
    rw [← held, length_heldBytes]
  have frame := map_completedFrame byte state
  by_cases room : state.fill.val + 1 < obcCmdFrameLen
  · obtain ⟨same, longer⟩ := snoc_within obcCmdFrameLen cut.unfinished byte (by omega)
    have stored : takeByte table byte state =
        { state with rx := completedFrame byte state, fill := ⟨state.fill.val + 1, room⟩ } := by
      simp only [takeByte, room, ↓reduceDIte, completedFrame]
    rw [stored, same, frameCompleted, if_pos room, List.append_nil]
    exact ⟨⟨framed.audited, by rw [longer, ← held, ← frame]; rfl⟩, rfl, rfl⟩
  · have last : state.fill.val + 1 = obcCmdFrameLen := by
      have bound := state.fill.isLt
      omega
    obtain ⟨next, empty⟩ := snoc_full obcCmdFrameLen cut.unfinished byte (by omega)
    have completed : takeByte table byte state =
        { (obcCmdIngest table (some (completedFrame byte state)) (BitVec.ofNat 32 obcCmdFrameLen)
            { state with rx := completedFrame byte state }).2.2 with fill := 0 } := by
      simp only [takeByte, room, ↓reduceDIte, completedFrame]
    obtain ⟨uplink, audit, _, _⟩ := obcCmdIngest_link table (some (completedFrame byte state))
      (BitVec.ofNat 32 obcCmdFrameLen) { state with rx := completedFrame byte state }
    have whole : (List.range obcCmdFrameLen).map (completedFrame byte state) =
        remainder obcCmdFrameLen cut.unfinished ++ [byte] := by
      rw [← held, ← frame, last]
    rw [completed, next, frameCompleted, if_neg room, whole, List.map_append]
    exact ⟨⟨audit.trans framed.audited, empty.symm⟩, rfl, uplink⟩

theorem Framed.tookBytes {cut : Cut U8} {state : CmdState} (framed : Framed cut state)
    (table : List ObcCmd) (bytes : List U8) :
    Framed { cut with unfinished := cut.unfinished ++ bytes } (run (takeByte table) bytes state) ∧
      (chunks obcCmdFrameLen (cut.unfinished ++ bytes)).map Handed.chunk =
        (chunks obcCmdFrameLen cut.unfinished).map .chunk ++ framesTaken table bytes state ∧
      (run (takeByte table) bytes state).uplink = state.uplink := by
  induction bytes generalizing cut state with
  | nil => simpa [run, framesTaken] using framed
  | cons byte rest ih =>
      obtain ⟨stored, frame, uplink⟩ := framed.tookByte table byte
      obtain ⟨after, frames, restUplink⟩ := ih stored
      rw [List.append_assoc] at after frames
      refine ⟨after, ?_, restUplink.trans uplink⟩
      rw [frame, List.append_assoc] at frames
      exact frames

theorem fill_zero_iff {cut : Cut U8} {state : CmdState} (framed : Framed cut state) :
    state.fill = 0 ↔ cut.unfinished.length % obcCmdFrameLen = 0 := by
  rw [← length_remainder, ← framed.held, length_heldBytes, Fin.ext_iff]
  rfl

theorem Framed.polled {cut : Cut U8} {state : CmdState} (framed : Framed cut state)
    (table : List ObcCmd) :
    Framed (cut.hear (state.uplink.take obcCmdRxBytes)) (obcCmdPoll table state) ∧
      (cut.hear (state.uplink.take obcCmdRxBytes)).handed obcCmdFrameLen =
        cut.handed obcCmdFrameLen ++ pollHanded table state ∧
      (obcCmdPoll table state).uplink = state.uplink.drop obcCmdRxBytes := by
  have unreadFramed : Framed cut (unread state) := ⟨framed.audited, framed.held⟩
  obtain ⟨taken, frames, uplink⟩ :=
    unreadFramed.tookBytes table (state.uplink.take obcCmdRxBytes)
  rw [obcCmdPoll_audited table framed.audited, pollHanded_audited table framed.audited]
  cases heard : state.uplink.take obcCmdRxBytes with
  | cons byte rest =>
      have goes : ¬Truncates table state := fun truncates => by
        rw [Truncates, heard] at truncates
        cases truncates.1
      have hears : cut.hear (byte :: rest) =
          { cut with unfinished := cut.unfinished ++ (byte :: rest) } := rfl
      rw [heard] at taken frames
      rw [if_neg goes, if_neg goes, hears, polledBytes, heard, List.append_nil]
      refine ⟨taken, ?_, by rw [heard] at uplink; exact uplink⟩
      rw [Cut.handed, frames, Cut.handed, List.append_assoc]
  | nil =>
      have silent : polledBytes table state = unread state := by
        rw [polledBytes, heard]
        rfl
      have aligned := fill_zero_iff framed
      rw [framesTaken, List.nil_append, Cut.handed_silent]
      by_cases partly : state.fill = 0
      · have goes : ¬Truncates table state := fun truncates => truncates.2 (by rw [silent]; exact partly)
        rw [if_neg goes, if_neg goes, if_pos (aligned.mp partly), silent]
        refine ⟨⟨framed.audited, ?_⟩, rfl, rfl⟩
        have empty : (heldBytes (unread state)).length = 0 := by
          rw [length_heldBytes]
          exact congrArg Fin.val partly
        rw [List.length_eq_zero_iff.mp empty]
        exact (remainder_nil obcCmdFrameLen).symm
      · have truncates : Truncates table state := ⟨by rw [heard]; rfl, by rw [silent]; exact partly⟩
        obtain ⟨announced, serial, refused⟩ := refuse_cases .length
          { unread state with fill := 0, examined := bump (unread state).examined }
        rw [if_pos truncates, if_pos truncates, if_neg (fun whole => partly (aligned.mpr whole)),
          silent, refused]
        exact ⟨⟨framed.audited, (remainder_nil obcCmdFrameLen).symm⟩, rfl, rfl⟩

/-- The link as the polls hear it: what is still waiting, and the stream so far cut at
the polls that heard nothing. -/
structure Link where
  waiting : List U8
  cut : Cut U8

def Link.step : CmdInput → Link → Link
  | .receive bytes, link => { link with waiting := link.waiting ++ bytes }
  | .poll, link =>
      { waiting := link.waiting.drop obcCmdRxBytes
        cut := link.cut.hear (link.waiting.take obcCmdRxBytes) }
  | .ingest _ _, link => link
  | .queueRun _ _, link => link
  | .queueInit, link => link

def CmdInput.arrived : CmdInput → List U8
  | .receive bytes => bytes
  | _ => []

/-- What the polls of a run hand to the parser, in order. -/
def handedOver (table : List ObcCmd) : List CmdInput → CmdState → List (Handed U8)
  | [], _ => []
  | input :: rest, state =>
      (match input with
        | .poll => pollHanded table state
        | _ => []) ++ handedOver table rest (cmdStep table input state)

structure Heard (link : Link) (state : CmdState) : Prop where
  framed : Framed link.cut state
  waiting : state.uplink = link.waiting

theorem Heard.step {link : Link} {state : CmdState} (heard : Heard link state)
    (table : List ObcCmd) (input : CmdInput) :
    Heard (Link.step input link) (cmdStep table input state) ∧
      (Link.step input link).cut.handed obcCmdFrameLen =
        link.cut.handed obcCmdFrameLen ++ handedOver table [input] state := by
  cases input with
  | receive bytes =>
      exact ⟨⟨⟨heard.framed.audited, heard.framed.held⟩, congrArg (· ++ bytes) heard.waiting⟩,
        (List.append_nil _).symm⟩
  | ingest frame len =>
      obtain ⟨uplink, audit, rx, fill⟩ := obcCmdIngest_link table frame len state
      refine ⟨⟨⟨audit.trans heard.framed.audited, ?_⟩, uplink.trans heard.waiting⟩,
        (List.append_nil _).symm⟩
      rw [cmdStep, heldBytes, rx, fill]
      exact heard.framed.held
  | poll =>
      obtain ⟨framed, handed, uplink⟩ := heard.framed.polled table
      rw [heard.waiting] at framed handed uplink
      refine ⟨⟨framed, uplink⟩, ?_⟩
      rw [handedOver, handedOver, List.append_nil]
      exact handed
  | queueRun now frame =>
      have kept := obcCmdQueueRun_linkKept table now frame state
      refine ⟨⟨⟨kept.tableOk.trans heard.framed.audited, ?_⟩, kept.uplink.trans heard.waiting⟩,
        (List.append_nil _).symm⟩
      rw [cmdStep, heldBytes, kept.rx, kept.fill]
      exact heard.framed.held
  | queueInit =>
      exact ⟨⟨⟨heard.framed.audited, heard.framed.held⟩, heard.waiting⟩,
        (List.append_nil _).symm⟩

theorem Heard.run {link : Link} {state : CmdState} (heard : Heard link state)
    (table : List ObcCmd) (inputs : List CmdInput) :
    Heard (StepSystem.run Link.step inputs link) (StepSystem.run (cmdStep table) inputs state) ∧
      (StepSystem.run Link.step inputs link).cut.handed obcCmdFrameLen =
        link.cut.handed obcCmdFrameLen ++ handedOver table inputs state := by
  induction inputs generalizing link state with
  | nil => exact ⟨heard, (List.append_nil _).symm⟩
  | cons input rest ih =>
      obtain ⟨next, handed⟩ := heard.step table input
      obtain ⟨after, restHanded⟩ := ih next
      refine ⟨after, ?_⟩
      rw [StepSystem.run, restHanded, handed, List.append_assoc]
      simp [handedOver]

theorem Link.conserved (link : Link) (inputs : List CmdInput) :
    (run Link.step inputs link).cut.ended.flatten ++ (run Link.step inputs link).cut.unfinished ++
        (run Link.step inputs link).waiting =
      link.cut.ended.flatten ++ link.cut.unfinished ++ link.waiting ++
        inputs.flatMap CmdInput.arrived := by
  induction inputs generalizing link with
  | nil => simp [run]
  | cons input rest ih =>
      rw [run, ih, List.flatMap_cons, ← List.append_assoc _ (input.arrived)]
      congr 1
      cases input with
      | receive bytes => simp [Link.step, CmdInput.arrived]
      | poll =>
          rw [Link.step, Cut.hear_flatten, List.append_assoc, List.take_append_drop]
          simp [CmdInput.arrived]
      | ingest frame len => simp [Link.step, CmdInput.arrived]
      | queueRun now frame => simp [Link.step, CmdInput.arrived]
      | queueInit => simp [Link.step, CmdInput.arrived]

/-- The loop body of `obc_cmd_poll` with the fill index the word it is in the source. -/
def takeByteAt (table : List ObcCmd) (byte : U8) (fill : U32) (state : CmdState) :
    U32 × CmdState :=
  let stored := { state with rx := Function.update state.rx fill.toNat byte }
  let filled := fill + 1
  if filled = BitVec.ofNat 32 obcCmdFrameLen then
    (0, (obcCmdIngest table (some stored.rx) (BitVec.ofNat 32 obcCmdFrameLen) stored).2.2)
  else (filled, stored)

/-- From an index below the frame length, the word stays below it and no byte is
stored outside the buffer. -/
theorem takeByteAt_takeByte (table : List ObcCmd) (byte : U8) (state : CmdState) :
    (takeByteAt table byte (BitVec.ofNat 32 state.fill.val) state).1 =
        BitVec.ofNat 32 (takeByte table byte state).fill.val ∧
      takeByte table byte state =
        { (takeByteAt table byte (BitVec.ofNat 32 state.fill.val) state).2 with
          fill := (takeByte table byte state).fill } := by
  have bound : state.fill.val < 20 := state.fill.isLt
  have index : (BitVec.ofNat 32 state.fill.val).toNat = state.fill.val := by
    rw [BitVec.toNat_ofNat, Nat.mod_eq_of_lt (by omega)]
  have filled : BitVec.ofNat 32 state.fill.val + 1 = BitVec.ofNat 32 (state.fill.val + 1) := by
    rw [BitVec.ofNat_add]
    rfl
  by_cases room : state.fill.val + 1 < 20
  · have apart : BitVec.ofNat 32 (state.fill.val + 1) ≠ BitVec.ofNat 32 obcCmdFrameLen := by
      intro same
      have value : (state.fill.val + 1) % 2 ^ 32 = 20 := congrArg BitVec.toNat same
      rw [Nat.mod_eq_of_lt (by omega)] at value
      omega
    have inside : state.fill.val + 1 < obcCmdFrameLen := room
    simp only [takeByteAt, takeByte, inside, index, filled, apart, ↓reduceIte, ↓reduceDIte,
      and_self]
  · have value : state.fill.val + 1 = 20 := by omega
    have last : BitVec.ofNat 32 (state.fill.val + 1) = BitVec.ofNat 32 obcCmdFrameLen := by
      rw [value]
    have outside : ¬state.fill.val + 1 < obcCmdFrameLen := room
    simp only [takeByteAt, takeByte, outside, index, filled, last, ↓reduceIte, ↓reduceDIte,
      and_true]
    rfl

end ObcZero
