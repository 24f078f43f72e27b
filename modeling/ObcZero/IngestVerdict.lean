import ObcZero.AtMostOnce
import ObcZero.UplinkCore

/-! The verdict on a frame: the checks of the parser in their order, the first that
fails naming the refusal, and where an accepted frame goes. -/

namespace ObcZero

open StepSystem

inductive Check
  | frameLength
  | sync
  | declaredLength
  | sum
  | opcode
  | arg
  | replay
  | armed
  | room
  deriving DecidableEq, Repr

/-- The place of a check in the parser. -/
def Check.place : Check → Nat
  | .frameLength => 0
  | .sync => 1
  | .declaredLength => 2
  | .sum => 3
  | .opcode => 4
  | .arg => 5
  | .replay => 6
  | .armed => 7
  | .room => 8

def Check.reason : Check → Reject
  | .frameLength => .length
  | .sync => .sync
  | .declaredLength => .length
  | .sum => .sum
  | .opcode => .opcode
  | .arg => .arg
  | .replay => .replay
  | .armed => .notArmed
  | .room => .queue

def Check.Passes (table : List ObcCmd) (frame : Nat → U8) (len : U32) (state : CmdState) :
    Check → Prop
  | .frameLength => len.toNat = obcCmdFrameLen
  | .sync => getU32 frame obcCmdOSync = obcCmdSync
  | .declaredLength => (frame obcCmdOLength).toNat = obcCmdFrameLen
  | .sum => getU16 frame obcCmdOSum = obcCmdSum frame obcCmdOSum
  | .opcode => ∃ row ∈ table, row.opcode = frame obcCmdOOpcode
  | .arg => ∀ row ∈ lookup table (frame obcCmdOOpcode),
      row.argMin ≤ getU32 frame obcCmdOArg ∧ getU32 frame obcCmdOArg ≤ row.argMax
  | .replay => state.lastCounter < getU32 frame obcCmdOCounter
  | .armed => ∀ row ∈ lookup table (frame obcCmdOOpcode),
      row.critical = true → state.armedOpcode = (frame obcCmdOOpcode).setWidth 32
  | .room => ∃ index, (state.queue index).occupied = false

theorem frameOpcode_eq (frame : Nat → U8) : frameOpcode frame = frame obcCmdOOpcode := by
  simp [frameOpcode, getU8]

theorem lookup_none_iff {table : List ObcCmd} {opcode : U8} :
    lookup table opcode = none ↔ ¬∃ row ∈ table, row.opcode = opcode := by
  simp [lookup]

/-- The checks made before `place` all pass. -/
def PassesBelow (table : List ObcCmd) (frame : Nat → U8) (len : U32) (state : CmdState)
    (place : Nat) : Prop :=
  ∀ check : Check, check.place < place → check.Passes table frame len state

structure FailsFirst (table : List ObcCmd) (frame : Nat → U8) (len : U32) (state : CmdState)
    (check : Check) : Prop where
  earlier : PassesBelow table frame len state check.place
  fails : ¬check.Passes table frame len state

theorem Check.place_injective {first second : Check} (same : first.place = second.place) :
    first = second := by
  cases first <;> cases second <;> first | rfl | cases same

theorem PassesBelow.next {table : List ObcCmd} {frame : Nat → U8} {len : U32} {state : CmdState}
    (check : Check) (below : PassesBelow table frame len state check.place)
    (passes : check.Passes table frame len state) :
    PassesBelow table frame len state (check.place + 1) := by
  intro other before
  by_cases here : other.place = check.place
  · rwa [Check.place_injective here]
  · exact below other (by omega)

theorem PassesBelow.all {table : List ObcCmd} {frame : Nat → U8} {len : U32} {state : CmdState}
    (below : PassesBelow table frame len state 9) (check : Check) :
    check.Passes table frame len state := by
  refine below check ?_
  cases check <;> decide

theorem FailsFirst.unique {table : List ObcCmd} {frame : Nat → U8} {len : U32}
    {state : CmdState} {first second : Check} (one : FailsFirst table frame len state first)
    (other : FailsFirst table frame len state second) : first = second := by
  rcases lt_trichotomy first.place second.place with before | same | after
  · exact absurd (other.earlier first before) one.fails
  · exact Check.place_injective same
  · exact absurd (one.earlier second after) other.fails

def FirstFree (queue : Fin obcCmdQueueLen → ObcCmdSlot) (index : Fin obcCmdQueueLen) : Prop :=
  (queue index).occupied = false ∧ ∀ earlier < index, (queue earlier).occupied = true

theorem obcCmdQueuePut_firstFree (opcode : U8) (when arg counter : U32) (state : CmdState) :
    (∃ index, FirstFree state.queue index ∧
      obcCmdQueuePut opcode when arg counter state =
        (.ok, { state with
          queue := Function.update state.queue index
            { when := when, arg := arg, counter := counter, opcode := opcode, occupied := true }
          queued := state.queued + 1 })) ∨
    ((∀ index, (state.queue index).occupied = true) ∧
      obcCmdQueuePut opcode when arg counter state = (.errInvalid, state)) := by
  cases found : (List.finRange obcCmdQueueLen).find? fun index =>
      !(state.queue index).occupied with
  | some index =>
      obtain ⟨free, before, after, split, used⟩ := List.find?_eq_some_iff_append.mp found
      refine .inl ⟨index, ⟨by simpa using free, fun earlier below => ?_⟩, ?_⟩
      · have member := List.mem_finRange earlier
        have ordered := List.pairwise_lt_finRange obcCmdQueueLen
        rw [split] at member ordered
        have behind := (List.pairwise_cons.mp (List.pairwise_append.mp ordered).2.1).1
        rcases List.mem_append.mp member with inside | here | later
        · simpa using used earlier inside
        · exact absurd below (lt_irrefl _)
        · rename_i later
          exact absurd below (lt_asymm (behind earlier later))
      · simp only [obcCmdQueuePut, found]
  | none =>
      refine .inr ⟨fun index => ?_, ?_⟩
      · have taken := List.find?_eq_none.mp found index (List.mem_finRange index)
        simpa using taken
      · simp only [obcCmdQueuePut, found]

theorem examine_verdict (table : List ObcCmd) (frame : Nat → U8) (len : U32) (state : CmdState) :
    (∃ check, FailsFirst table frame len state check ∧
      examine table frame len state = refuse check.reason state) ∨
    ((∀ check : Check, check.Passes table frame len state) ∧
      ∃ index, FirstFree state.queue index ∧ examine table frame len state =
        (.ok, some obcCmdRejectCount, acceptedState frame index state)) := by
  have atLength : PassesBelow table frame len state Check.frameLength.place :=
    fun _ before => absurd before (Nat.not_lt_zero _)
  unfold examine
  split
  · rename_i wrong
    exact .inl ⟨.frameLength, ⟨atLength, fun same => wrong (BitVec.eq_of_toNat_eq same)⟩, rfl⟩
  rename_i lengthOk
  have atSync := PassesBelow.next .frameLength atLength (congrArg BitVec.toNat (not_not.mp lengthOk))
  split
  · rename_i wrong
    exact .inl ⟨.sync, ⟨atSync, wrong⟩, rfl⟩
  rename_i syncOk
  have atDeclared := PassesBelow.next .sync atSync (not_not.mp syncOk)
  have declared : getU8 frame obcCmdOLength = BitVec.ofNat 32 obcCmdFrameLen ↔
      Check.declaredLength.Passes table frame len state := by
    rw [getU8, ← BitVec.toNat_inj, BitVec.toNat_setWidth_of_le (by decide)]
    rfl
  split
  · rename_i wrong
    exact .inl ⟨.declaredLength, ⟨atDeclared, fun same => wrong (declared.mpr same)⟩, rfl⟩
  rename_i declaredOk
  have atSum := PassesBelow.next .declaredLength atDeclared (declared.mp (not_not.mp declaredOk))
  split
  · rename_i wrong
    exact .inl ⟨.sum, ⟨atSum, wrong⟩, rfl⟩
  rename_i sumOk
  have atOpcode := PassesBelow.next .sum atSum (not_not.mp sumOk)
  have opcodeEq : (getU8 frame obcCmdOOpcode).setWidth 8 = frame obcCmdOOpcode :=
    frameOpcode_eq frame
  dsimp only
  rw [opcodeEq]
  cases found : lookup table (frame obcCmdOOpcode) with
  | none => exact .inl ⟨.opcode, ⟨atOpcode, lookup_none_iff.mp found⟩, rfl⟩
  | some row =>
      have atArg := PassesBelow.next .opcode atOpcode
        ⟨row, List.mem_of_find?_eq_some found, lookup_opcode found⟩
      dsimp only
      split
      · rename_i wrong
        refine .inl ⟨.arg, ⟨atArg, fun inRange => ?_⟩, rfl⟩
        obtain ⟨low, high⟩ := inRange row found
        rcases wrong with under | past
        · exact BitVec.not_lt.mpr low under
        · exact BitVec.not_lt.mpr high past
      rename_i argOk
      have inRange : Check.arg.Passes table frame len state := by
        intro other other_found
        obtain rfl := Option.some.inj (found.symm.trans other_found)
        obtain ⟨low, high⟩ := not_or.mp argOk
        exact ⟨BitVec.not_lt.mp low, BitVec.not_lt.mp high⟩
      have atReplay := PassesBelow.next .arg atArg inRange
      split
      · rename_i wrong
        exact .inl ⟨.replay, ⟨atReplay, BitVec.not_lt.mpr wrong⟩, rfl⟩
      rename_i counterOk
      have atArmed := PassesBelow.next .replay atReplay (BitVec.not_le.mp counterOk)
      split
      · rename_i wrong
        exact .inl ⟨.armed, ⟨atArmed, fun armed => wrong.2 (armed row found wrong.1)⟩, rfl⟩
      rename_i armedOk
      have armed : Check.armed.Passes table frame len state := by
        intro other other_found critical
        obtain rfl := Option.some.inj (found.symm.trans other_found)
        by_contra unarmed
        exact armedOk ⟨critical, unarmed⟩
      have atRoom := PassesBelow.next .armed atArmed armed
      rcases obcCmdQueuePut_firstFree (frame obcCmdOOpcode) (getU32 frame obcCmdOWhen)
          (getU32 frame obcCmdOArg) (getU32 frame obcCmdOCounter) state with
        ⟨index, free, put⟩ | ⟨full, put⟩
      · have all := PassesBelow.next .room atRoom ⟨index, free.1⟩
        refine .inr ⟨all.all, index, free, ?_⟩
        rw [put, acceptedState, frameOpcode_eq]
      · refine .inl ⟨.room, ⟨atRoom, ?_⟩, ?_⟩
        · rintro ⟨index, free⟩
          rw [full index] at free
          cases free
        · rw [put]
          rfl

theorem FirstFree.unique {queue : Fin obcCmdQueueLen → ObcCmdSlot}
    {first second : Fin obcCmdQueueLen} (one : FirstFree queue first)
    (other : FirstFree queue second) : first = second := by
  rcases lt_trichotomy first second with before | same | after
  · have used := other.2 first before
    rw [one.1] at used
    cases used
  · exact same
  · have used := one.2 second after
    rw [other.1] at used
    cases used

theorem examine_refused {table : List ObcCmd} {frame : Nat → U8} {len : U32} {state : CmdState}
    {check : Check} (first : FailsFirst table frame len state check) :
    examine table frame len state = refuse check.reason state := by
  rcases examine_verdict table frame len state with ⟨other, fails, refused⟩ | ⟨all, _⟩
  · rw [refused, first.unique fails]
  · exact absurd (all check) first.fails

theorem examine_accepted {table : List ObcCmd} {frame : Nat → U8} {len : U32} {state : CmdState}
    {index : Fin obcCmdQueueLen} (all : ∀ check : Check, check.Passes table frame len state)
    (free : FirstFree state.queue index) :
    examine table frame len state =
      (.ok, some obcCmdRejectCount, acceptedState frame index state) := by
  rcases examine_verdict table frame len state with ⟨other, fails, _⟩ | ⟨_, taken, first, accepted⟩
  · exact absurd (all other) fails.fails
  · rw [accepted, free.unique first]

/-- For every audited state, frame and length: accepted if and only if every check
passes, refused for the first that fails; and what is accepted takes the first free
slot, the others staying as they were. -/
theorem ingest_verdict (table : List ObcCmd) (frame : Nat → U8) (len : U32) {state : CmdState}
    (audited : state.tableOk = true) :
    ((obcCmdIngest table (some frame) len state).1 = .ok ↔
      ∀ check : Check, check.Passes table frame len state) ∧
    (∀ check, FailsFirst table frame len state check →
      (obcCmdIngest table (some frame) len state).1 = .errInvalid ∧
        (obcCmdIngest table (some frame) len state).2.1 = some check.reason.index) ∧
    ((obcCmdIngest table (some frame) len state).1 = .ok →
      ∃ index, FirstFree state.queue index ∧
        (obcCmdIngest table (some frame) len state).2.2.queue = Function.update state.queue index
          { opcode := frame obcCmdOOpcode, when := getU32 frame obcCmdOWhen,
            arg := getU32 frame obcCmdOArg, counter := getU32 frame obcCmdOCounter,
            occupied := true } ∧
        (obcCmdIngest table (some frame) len state).2.2.queued = state.queued + 1) := by
  have examined : obcCmdIngest table (some frame) len state =
      examine table frame len { state with examined := bump state.examined } := if_pos audited
  have passes (check : Check) :
      check.Passes table frame len { state with examined := bump state.examined } ↔
        check.Passes table frame len state := by
    cases check <;> rfl
  have failsFirst {check : Check} (first : FailsFirst table frame len state check) :
      FailsFirst table frame len { state with examined := bump state.examined } check :=
    ⟨fun other before => (passes other).mpr (first.earlier other before),
      fun passed => first.fails ((passes check).mp passed)⟩
  rw [examined]
  rcases examine_verdict table frame len { state with examined := bump state.examined } with
    ⟨failed, first, refused⟩ | ⟨all, index, free, accepted⟩
  · rw [refused]
    refine ⟨⟨fun ok => (by cases ok), fun every => ?_⟩, fun check other => ?_,
      fun ok => (by cases ok)⟩
    · exact absurd ((passes failed).mpr (every failed)) first.fails
    · rw [(failsFirst other).unique first]
      exact ⟨rfl, rfl⟩
  · rw [accepted]
    refine ⟨⟨fun _ check => (passes check).mp (all check), fun _ => rfl⟩, fun check other => ?_,
      fun _ => ⟨index, free, ?_, rfl⟩⟩
    · exact absurd (all check) (failsFirst other).fails
    · rw [acceptedState, frameOpcode_eq]

/-- Armed for `safe`, with a command of a later frame in the second slot. -/
def armedCmd : CmdState :=
  run (cmdStep obcCmdTable)
    [.receive (build opArm.toNat 1 opSafe.toNat 0 ++ build opSet.toNat 2 500 9000), .poll,
      .queueRun 0 0] (bootedCmd obcCmdFields obcCmdTable)

def bytesOf (frame : List U8) (index : Nat) : U8 := frame.getD index 0

/-- The critical command is taken into the slot that the executed arm has left. -/
theorem flight_ingest_verdict :
    let frame := bytesOf (build opSafe.toNat 3 0 7000)
    (∀ check : Check, check.Passes obcCmdTable frame 20 armedCmd) ∧
      ∃ index, FirstFree armedCmd.queue index ∧
        ((obcCmdIngest obcCmdTable (some frame) 20 armedCmd).2.2.queue index).opcode = opSafe ∧
        (obcCmdIngest obcCmdTable (some frame) 20 armedCmd).2.2.queued = 2 := by
  intro frame
  have audited : armedCmd.tableOk = true := by decide +kernel
  have accepted : (obcCmdIngest obcCmdTable (some frame) 20 armedCmd).1 = .ok := by decide +kernel
  obtain ⟨passes, _, taken⟩ := ingest_verdict obcCmdTable frame 20 audited
  obtain ⟨index, free, queue, queued⟩ := taken accepted
  refine ⟨passes.mp accepted, index, free, ?_, queued.trans (by decide +kernel)⟩
  rw [queue, Function.update_self]
  decide +kernel

end ObcZero
