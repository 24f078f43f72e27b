import ObcZero.IngestVerdict
import ObcZero.QueueConservation
import ObcZero.UplinkRoundTrip

/-! Whether the ground can still be heard: from every reachable state, the frames that
a free slot leaves acceptable. -/

namespace ObcZero

open StepSystem

def AcceptsSome (table : List ObcCmd) (state : CmdState) : Prop :=
  ∃ bytes : List U8, bytes.length = obcCmdFrameLen ∧
    (obcCmdIngest table (some (bufferOf bytes)) (BitVec.ofNat 32 obcCmdFrameLen) state).1 = .ok

/-- The frame of a harmless row that counts one past the last accepted. -/
def nextFrame (row : ObcCmd) (state : CmdState) : List U8 :=
  build row.opcode.toNat (state.lastCounter + 1).toNat row.argMin.toNat (0 : U32).toNat

theorem nextFrame_passes {table : List ObcCmd} {row : ObcCmd} {state : CmdState}
    (found : lookup table row.opcode = some row) (harmless : row.critical = false)
    (range : row.argMin ≤ row.argMax) (below : state.lastCounter < obcCmdCounterMax)
    (free : ∃ index, (state.queue index).occupied = false) (check : Check) :
    check.Passes table (bufferOf (nextFrame row state)) (BitVec.ofNat 32 obcCmdFrameLen) state := by
  obtain ⟨opcode, counter, arg, _⟩ :=
    build_readsBack row.opcode (state.lastCounter + 1) row.argMin 0
  obtain ⟨_, sync, declared, sum⟩ :=
    build_wellFormed row.opcode (state.lastCounter + 1) row.argMin 0
  rw [← nextFrame] at opcode counter arg sync declared sum
  rw [frameOpcode_eq] at opcode
  cases check with
  | frameLength => rfl
  | sync => exact sync
  | declaredLength =>
      have length := congrArg BitVec.toNat declared
      rw [getU8_toNat] at length
      exact length
  | sum => exact sum
  | opcode => exact ⟨row, List.mem_of_find?_eq_some found, opcode.symm⟩
  | arg =>
      intro other otherFound
      rw [opcode, found] at otherFound
      obtain rfl := Option.some.inj otherFound
      rw [arg]
      exact ⟨BitVec.le_refl _, range⟩
  | replay =>
      rw [Check.Passes, counter]
      rw [obcCmdCounterMax] at below
      bv_omega
  | armed =>
      intro other otherFound critical
      rw [opcode, found] at otherFound
      obtain rfl := Option.some.inj otherFound
      rw [harmless] at critical
      cases critical
  | room => exact free

theorem acceptsSome_iff {table : List ObcCmd} {row : ObcCmd} {state : CmdState}
    (audited : state.tableOk = true) (found : lookup table row.opcode = some row)
    (harmless : row.critical = false) (range : row.argMin ≤ row.argMax)
    (free : ∃ index, (state.queue index).occupied = false) :
    AcceptsSome table state ↔ state.lastCounter < obcCmdCounterMax := by
  have examined (frame : Nat → U8) :
      obcCmdIngest table (some frame) (BitVec.ofNat 32 obcCmdFrameLen) state =
        examine table frame (BitVec.ofNat 32 obcCmdFrameLen)
          { state with examined := bump state.examined } := if_pos audited
  constructor
  · rintro ⟨bytes, _, accepted⟩
    rw [examined] at accepted
    rcases examine_verdict table (bufferOf bytes) (BitVec.ofNat 32 obcCmdFrameLen)
        { state with examined := bump state.examined } with ⟨_, _, refused⟩ | ⟨all, _⟩
    · rw [refused] at accepted
      cases accepted
    · have fresh : state.lastCounter < getU32 (bufferOf bytes) obcCmdOCounter := all .replay
      rw [obcCmdCounterMax]
      bv_omega
  · intro below
    refine ⟨nextFrame row state, build_length _ _ _ _, ?_⟩
    rw [examined]
    have passes (check : Check) : check.Passes table (bufferOf (nextFrame row state))
        (BitVec.ofNat 32 obcCmdFrameLen) { state with examined := bump state.examined } := by
      have counted : nextFrame row state =
        nextFrame row { state with examined := bump state.examined } := rfl
      rw [counted]
      exact nextFrame_passes found harmless range below free check
    rcases examine_verdict table (bufferOf (nextFrame row state)) (BitVec.ofNat 32 obcCmdFrameLen)
        { state with examined := bump state.examined } with ⟨check, first, _⟩ | ⟨_, _, _, accepted⟩
    · exact absurd (passes check) first.fails
    · rw [accepted]

def pingRow : ObcCmd :=
  { name := "ping", opcode := opPing, critical := false, argMin := 0, argMax := 0,
    fn := some .cmdPing }

theorem pingRow_found : lookup obcCmdTable pingRow.opcode = some pingRow := rfl

/-- In every state a flight run reaches with a free slot, some frame is accepted if
and only if the last accepted counter is not the greatest there is. -/
theorem ground_is_heard {boot start : CmdState}
    (ready : obcCmdInit obcCmdFields obcCmdTable boot = (.ok, start)) (inputs : List CmdInput) :
    let state := run (cmdStep obcCmdTable) inputs start
    (∃ index, (state.queue index).occupied = false) →
      (AcceptsSome obcCmdTable state ↔ state.lastCounter < obcCmdCounterMax) := by
  intro state free
  have audited : state.tableOk = true := by
    rw [run_tableOk, obcCmdInit_ok ready]
  exact acceptsSome_iff audited pingRow_found rfl (BitVec.le_refl _) free

theorem flight_ground_is_heard :
    AcceptsSome obcCmdTable (run (cmdStep obcCmdTable) twoCommands
      (bootedCmd obcCmdFields obcCmdTable)) :=
  (ground_is_heard (rfl : obcCmdInit obcCmdFields obcCmdTable clearedCmd =
    (.ok, bootedCmd obcCmdFields obcCmdTable)) twoCommands (by decide +kernel)).mpr
      (by decide +kernel)

/-- One accepted frame with the greatest counter: the queue is empty again and no
frame is ever accepted. -/
theorem greatest_counter_shuts_out :
    let state := run (cmdStep obcCmdTable)
      [.receive (build opPing.toNat 0xFFFFFFFF 0 0), .poll, .queueRun 1024 1]
      (bootedCmd obcCmdFields obcCmdTable)
    (∀ index, (state.queue index).occupied = false) ∧ ¬AcceptsSome obcCmdTable state := by
  intro state
  have empty : ∀ index, (state.queue index).occupied = false := by decide +kernel
  have audited : state.tableOk = true := by decide +kernel
  refine ⟨empty, fun accepts => ?_⟩
  have below := (acceptsSome_iff audited pingRow_found rfl (BitVec.le_refl _) ⟨0, empty 0⟩).mp accepts
  revert below
  decide +kernel

end ObcZero
