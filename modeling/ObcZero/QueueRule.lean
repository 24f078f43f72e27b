import ObcZero.CommandSteps

/-! The rule by which an invariant of the queue passes through every input of the command
task: through an acceptance into a free slot, a pass over a slot in use, and a reset. -/

namespace ObcZero

open StepSystem

/-- What the queue holds and what came of it, the fields the rule below speaks of. -/
structure SameQueue (state after : CmdState) : Prop where
  queue : after.queue = state.queue
  history : after.history = state.history
  lastCounter : after.lastCounter = state.lastCounter
  tableOk : after.tableOk = state.tableOk

/-- An invariant of the queue that every way of changing it keeps; `ingests` is what it
asks of a frame that is accepted. -/
structure QueueRule (table : List ObcCmd) (ingests : (Nat → U8) → CmdState → Prop)
    (invariant : CmdState → Prop) : Prop where
  congr : ∀ {state after}, invariant state → SameQueue state after → invariant after
  blind : ∀ {frame state after}, ingests frame state → SameQueue state after → ingests frame after
  accepted : ∀ {frame row index state}, ingests frame state →
    lookup table (frameOpcode frame) = some row → state.lastCounter < getU32 frame obcCmdOCounter →
    (state.queue index).occupied = false → state.tableOk = true → invariant state →
    invariant (acceptedState frame index state)
  passed : ∀ {now frame index state}, (state.queue index).occupied = true → invariant state →
    invariant (runSlot table now frame index state)
  emptied : ∀ {state}, invariant state → invariant (obcCmdQueueInit state)

/-- Every check of the parser lets the frame pass. -/
def Accepts (table : List ObcCmd) (frame : Nat → U8) (len : U32) (state : CmdState) : Prop :=
  state.tableOk = true ∧ WellFormed frame len ∧
    ∃ row ∈ lookup table (frameOpcode frame), Admissible row frame state ∧
      (row.critical = true → state.armedOpcode = (frameOpcode frame).setWidth 32)

/-- What such an invariant asks of an input of the command task: of a frame that is refused,
nothing. -/
def AcceptsUnder (table : List ObcCmd) (ingests : (Nat → U8) → CmdState → Prop) :
    CmdInput → CmdState → Prop
  | .ingest frame len, state => ∀ bytes ∈ frame, Accepts table bytes len state → ingests bytes state
  | .poll, state =>
      Meets (takeByte table)
        (TakesAllowed fun frame len state => Accepts table frame len state → ingests frame state)
        (state.uplink.take obcCmdRxBytes) { state with uplink := state.uplink.drop obcCmdRxBytes }
  | _, _ => True

theorem acceptsUnder_always (table : List ObcCmd) (input : CmdInput) (state : CmdState) :
    AcceptsUnder table (fun _ _ => True) input state := by
  cases input with
  | ingest frame len => exact fun _ _ _ => trivial
  | poll => exact meets_always (fun _ _ _ _ => trivial) _ _
  | receive bytes => trivial
  | queueRun now frame => trivial
  | queueInit => trivial

section Rule

variable {table : List ObcCmd} {ingests : (Nat → U8) → CmdState → Prop}
  {invariant : CmdState → Prop} (rule : QueueRule table ingests invariant)

include rule

theorem QueueRule.ingested {frame : Option (Nat → U8)} {len : U32} {state : CmdState}
    (allowed : ∀ bytes ∈ frame, Accepts table bytes len state → ingests bytes state)
    (holds : invariant state) : invariant (obcCmdIngest table frame len state).2.2 := by
  have counted : SameQueue state { state with examined := bump state.examined } :=
    ⟨rfl, rfl, rfl, rfl⟩
  by_cases audited : state.tableOk = true
  swap
  · cases frame with
    | none => exact holds
    | some bytes =>
        have ignored : obcCmdIngest table (some bytes) len state = (.errInvalid, none, state) :=
          if_neg audited
        rw [ignored]
        exact holds
  rcases obcCmdIngest_cases table frame len state with
    unchanged | ⟨reason, refused⟩ | ⟨bytes, row, index, given, formed, found, fits, armed, free, taken⟩
  · rw [unchanged]
    exact holds
  · obtain ⟨announced, serial, after⟩ :=
      refuse_cases reason { state with examined := bump state.examined }
    rw [refused, after]
    exact rule.congr holds ⟨rfl, rfl, rfl, rfl⟩
  · rw [taken]
    have accepts : Accepts table bytes len state := ⟨audited, formed, row, found, fits, armed⟩
    exact rule.accepted (rule.blind (allowed bytes given accepts) counted) found fits.2.2.1 free
      audited (rule.congr holds counted)

theorem QueueRule.tookByte {byte : U8} {state : CmdState}
    (allowed : TakesAllowed (fun frame len state => Accepts table frame len state →
      ingests frame state) byte state)
    (holds : invariant state) : invariant (takeByte table byte state) := by
  rcases takeByte_cases table byte state with ⟨fill, stored⟩ | ⟨full, completed⟩
  · rw [stored]
    exact rule.congr holds ⟨rfl, rfl, rfl, rfl⟩
  · rw [completed]
    have same : SameQueue state { state with rx := completedFrame byte state } :=
      ⟨rfl, rfl, rfl, rfl⟩
    have given : ∀ bytes ∈ some (completedFrame byte state),
        Accepts table bytes (BitVec.ofNat 32 obcCmdFrameLen)
            { state with rx := completedFrame byte state } →
          ingests bytes { state with rx := completedFrame byte state } := by
      intro bytes member accepts
      obtain rfl := Option.mem_some.mp member
      exact rule.blind (allowed full accepts) same
    exact rule.congr (rule.ingested given (rule.congr holds same)) ⟨rfl, rfl, rfl, rfl⟩

theorem QueueRule.polled {state : CmdState}
    (meets : Meets (takeByte table)
      (TakesAllowed fun frame len state => Accepts table frame len state → ingests frame state)
      (state.uplink.take obcCmdRxBytes) { state with uplink := state.uplink.drop obcCmdRxBytes })
    (holds : invariant state) : invariant (obcCmdPoll table state) := by
  refine obcCmdPoll_invariant ?_ (fun _ _ => rule.tookByte) ?_ meets holds
  · exact fun current uplink before => rule.congr before ⟨rfl, rfl, rfl, rfl⟩
  · intro current before
    obtain ⟨announced, serial, refused⟩ :=
      refuse_cases .length { current with fill := 0, examined := bump current.examined }
    rw [refused]
    exact rule.congr before ⟨rfl, rfl, rfl, rfl⟩

theorem QueueRule.ran {now frame : U32} {state : CmdState} (holds : invariant state) :
    invariant (obcCmdQueueRun table now frame state) := by
  refine obcCmdQueueRun_invariant ?_ (fun _ _ occupied _ => rule.passed occupied) holds
  intro current before
  unfold expireArming
  split
  · exact rule.congr before ⟨rfl, rfl, rfl, rfl⟩
  · exact before

theorem QueueRule.step (input : CmdInput) (state : CmdState)
    (allowed : AcceptsUnder table ingests input state) (holds : invariant state) :
    invariant (cmdStep table input state) := by
  cases input with
  | receive bytes => exact rule.congr holds ⟨rfl, rfl, rfl, rfl⟩
  | ingest frame len => exact rule.ingested allowed holds
  | poll => exact rule.polled allowed holds
  | queueRun now frame => exact rule.ran holds
  | queueInit => exact rule.emptied holds

end Rule

end ObcZero
