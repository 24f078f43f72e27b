import ObcZero.AtMostOnce
import ObcZero.CommandCounters
import ObcZero.SchedRun

/-! What becomes of accepted commands: each has been executed or is still queued, up
to the first reset of the command task that finds the queue in use. -/

namespace ObcZero

open StepSystem

def occupiedSlots (queue : Fin obcCmdQueueLen → ObcCmdSlot) : Nat :=
  (Finset.univ.filter fun index => (queue index).occupied = true).card

def ResetsEmpty : CmdInput → CmdState → Prop
  | .queueInit, state => ∀ index, (state.queue index).occupied = false
  | _, _ => True

instance (input : CmdInput) (state : CmdState) : Decidable (ResetsEmpty input state) :=
  match input with
  | .queueInit => inferInstanceAs (Decidable (∀ _, _))
  | .receive _ => isTrue trivial
  | .ingest _ _ => isTrue trivial
  | .poll => isTrue trivial
  | .queueRun _ _ => isTrue trivial

/-- The conservation law between the counters and the queue, the counters taken
while they have not saturated. -/
def NoneLost (state : CmdState) : Prop :=
  (state.accepted ≠ obcCmdCounterMax → state.executed ≠ obcCmdCounterMax →
    state.accepted.toNat = state.executed.toNat + occupiedSlots state.queue) ∧
  ∀ counter ∈ acceptedCounters state.history, counter ∈ handledCounters state.history ∨
    ∃ index, (state.queue index).occupied = true ∧ (state.queue index).counter = counter

/-- `NoneLost` with the saturating counters traced back to the record. -/
structure Conserved (table : List ObcCmd) (state : CmdState) : Prop where
  rows : state.tableOk = true → ∀ row ∈ table, row.fn.isSome
  known : ∀ index, (state.queue index).occupied = true →
    ∃ row fn, lookup table (state.queue index).opcode = some row ∧ row.fn = some fn
  accepted : state.accepted.toNat = min counterCeiling (acceptedCounters state.history).length
  executed : state.executed.toNat = min counterCeiling (handledCounters state.history).length
  total : (acceptedCounters state.history).length =
    (handledCounters state.history).length + occupiedSlots state.queue
  kept : ∀ counter ∈ acceptedCounters state.history, counter ∈ handledCounters state.history ∨
    ∃ index, (state.queue index).occupied = true ∧ (state.queue index).counter = counter

theorem occupiedSlots_taken (queue : Fin obcCmdQueueLen → ObcCmdSlot) {index : Fin obcCmdQueueLen}
    {slot : ObcCmdSlot} (free : (queue index).occupied = false) (taken : slot.occupied = true) :
    occupiedSlots (Function.update queue index slot) = occupiedSlots queue + 1 := by
  have inserted : (Finset.univ.filter fun position =>
      (Function.update queue index slot position).occupied = true) =
      insert index (Finset.univ.filter fun position => (queue position).occupied = true) := by
    ext position
    by_cases here : position = index
    · subst here
      simp [taken]
    · simp [here]
  rw [occupiedSlots, inserted, Finset.card_insert_of_notMem (by simp [free]), occupiedSlots]

theorem occupiedSlots_vacated {queue : Fin obcCmdQueueLen → ObcCmdSlot}
    {index : Fin obcCmdQueueLen} (used : (queue index).occupied = true) :
    occupiedSlots queue =
      occupiedSlots (Function.update queue index { queue index with occupied := false }) + 1 := by
  have back : Function.update
      (Function.update queue index { queue index with occupied := false }) index (queue index) =
      queue := by
    rw [Function.update_idem, Function.update_eq_self]
  have taken := occupiedSlots_taken
    (Function.update queue index { queue index with occupied := false })
    (by rw [Function.update_self]) used
  rwa [back] at taken

theorem occupiedSlots_empty {queue : Fin obcCmdQueueLen → ObcCmdSlot}
    (empty : ∀ index, (queue index).occupied = false) : occupiedSlots queue = 0 := by
  simp [occupiedSlots, empty]

theorem Conserved.noneLost {table : List ObcCmd} {state : CmdState}
    (conserved : Conserved table state) : NoneLost state := by
  refine ⟨fun acceptedBelow executedBelow => ?_, conserved.kept⟩
  have accepted := conserved.accepted
  have executed := conserved.executed
  have total := conserved.total
  have acceptedApart : state.accepted.toNat ≠ counterCeiling :=
    fun same => acceptedBelow (BitVec.eq_of_toNat_eq same)
  have executedApart : state.executed.toNat ≠ counterCeiling :=
    fun same => executedBelow (BitVec.eq_of_toNat_eq same)
  omega

theorem rowsValid_fn {earlier table : List ObcCmd} (valid : rowsValid earlier table = true) :
    ∀ row ∈ table, row.fn.isSome := by
  induction table generalizing earlier with
  | nil => simp
  | cons row rest ih =>
      simp only [rowsValid, Bool.and_eq_true] at valid
      intro other member
      rcases List.mem_cons.mp member with same | later
      · rw [same]
        exact valid.1.1.1
      · exact ih valid.2 other later

theorem lookup_mem {table : List ObcCmd} {opcode : U8} {row : ObcCmd}
    (found : lookup table opcode = some row) : row ∈ table :=
  List.mem_of_find?_eq_some found

theorem Conserved.booted (fields : List ObcCmdField) (table : List ObcCmd) :
    Conserved table (bootedCmd fields table) := by
  have empty (state : CmdState) (rows : state.tableOk = true → ∀ row ∈ table, row.fn.isSome)
      (queue : state.queue = fun _ => emptySlot) (accepted : state.accepted = 0)
      (executed : state.executed = 0) (history : state.history = []) : Conserved table state := by
    have vacant : occupiedSlots state.queue = 0 := by
      rw [queue]
      exact occupiedSlots_empty fun _ => rfl
    constructor
    · exact rows
    · simp [queue, emptySlot]
    · simp [accepted, history, acceptedCounters]
    · simp [executed, history, handledCounters]
    · rw [history, vacant]
      rfl
    · simp [history, acceptedCounters]
  rcases bootedCmd_cases fields table with same | ⟨valid, same⟩
  · rw [same]
    apply empty
    · intro ok
      cases ok
    · rfl
    · rfl
    · rfl
    · rfl
  · rw [same]
    apply empty
    · exact fun _ => rowsValid_fn valid
    · rfl
    · rfl
    · rfl
    · rfl

structure SameAccounts (state after : CmdState) : Prop where
  queue : after.queue = state.queue
  accepted : after.accepted = state.accepted
  executed : after.executed = state.executed
  history : after.history = state.history
  tableOk : after.tableOk = state.tableOk

theorem Conserved.congr {table : List ObcCmd} {state after : CmdState}
    (conserved : Conserved table state) (same : SameAccounts state after) :
    Conserved table after := by
  constructor
  · rw [same.tableOk]
    exact conserved.rows
  · rw [same.queue]
    exact conserved.known
  · rw [same.accepted, same.history]
    exact conserved.accepted
  · rw [same.executed, same.history]
    exact conserved.executed
  · rw [same.history, same.queue]
    exact conserved.total
  · rw [same.history, same.queue]
    exact conserved.kept

theorem Conserved.refused {table : List ObcCmd} {state : CmdState}
    (conserved : Conserved table state) (reason : Reject) :
    Conserved table (refuse reason state).2.2 := by
  obtain ⟨announced, serial, after⟩ := refuse_cases reason state
  rw [after]
  exact conserved.congr ⟨rfl, rfl, rfl, rfl, rfl⟩

theorem Conserved.accept {table : List ObcCmd} {state : CmdState}
    (conserved : Conserved table state) (ready : state.tableOk = true) {frame : Nat → U8}
    {row : ObcCmd} {index : Fin obcCmdQueueLen}
    (found : lookup table (frameOpcode frame) = some row)
    (free : (state.queue index).occupied = false) :
    Conserved table (acceptedState frame index state) := by
  obtain ⟨fn, handler⟩ := Option.isSome_iff_exists.mp (conserved.rows ready row (lookup_mem found))
  have accepted := conserved.accepted
  have total := conserved.total
  have counters : acceptedCounters (acceptedState frame index state).history =
      getU32 frame obcCmdOCounter :: acceptedCounters state.history := rfl
  have executed : handledCounters (acceptedState frame index state).history =
      handledCounters state.history := rfl
  constructor
  · exact conserved.rows
  · intro position used
    by_cases here : position = index
    · subst here
      simp only [acceptedState, Function.update_self]
      exact ⟨row, fn, found, handler⟩
    · simp only [acceptedState, Function.update_of_ne here] at used ⊢
      exact conserved.known position used
  · have bumped : (acceptedState frame index state).accepted = bump state.accepted := rfl
    rw [bumped, bump_toNat, counters, List.length_cons]
    omega
  · rw [executed]
    exact conserved.executed
  · have taken : occupiedSlots (acceptedState frame index state).queue =
        occupiedSlots state.queue + 1 := occupiedSlots_taken state.queue free rfl
    rw [counters, executed, taken, List.length_cons]
    omega
  · rw [counters, executed]
    intro counter member
    rcases List.mem_cons.mp member with newest | earlier
    · right
      refine ⟨index, ?_, ?_⟩
      · simp [acceptedState]
      · simp [acceptedState, newest]
    · rcases conserved.kept counter earlier with done | ⟨position, used, carries⟩
      · exact .inl done
      · have elsewhere : position ≠ index := by
          rintro rfl
          rw [free] at used
          cases used
        right
        refine ⟨position, ?_, ?_⟩
        · simpa [acceptedState, Function.update_of_ne elsewhere] using used
        · simpa [acceptedState, Function.update_of_ne elsewhere] using carries

theorem Conserved.ingested {table : List ObcCmd} {state : CmdState}
    (conserved : Conserved table state) (frame : Option (Nat → U8)) (len : U32) :
    Conserved table (obcCmdIngest table frame len state).2.2 := by
  have counted : Conserved table { state with examined := bump state.examined } :=
    conserved.congr ⟨rfl, rfl, rfl, rfl, rfl⟩
  by_cases ready : state.tableOk = true
  · rcases obcCmdIngest_cases table frame len state with
      unchanged | ⟨reason, refused⟩ | ⟨bytes, row, index, _, _, found, _, _, free, taken⟩
    · rw [unchanged]
      exact conserved
    · rw [refused]
      exact counted.refused reason
    · rw [taken]
      exact counted.accept ready found free
  · have ignored : (obcCmdIngest table frame len state).2.2 = state := by
      cases frame with
      | none => rfl
      | some bytes => simp only [obcCmdIngest, ready, Bool.false_eq_true, ↓reduceIte]
    rw [ignored]
    exact conserved

theorem Conserved.polled {table : List ObcCmd} {state : CmdState}
    (conserved : Conserved table state) : Conserved table (obcCmdPoll table state) := by
  refine obcCmdPoll_invariant (fun _ _ before => before.congr ⟨rfl, rfl, rfl, rfl, rfl⟩) ?_ ?_
    (meets_always (fun _ _ => trivial) _ _) conserved
  · intro byte current _ before
    rcases takeByte_cases table byte current with ⟨fill, stored⟩ | ⟨_, completed⟩
    · rw [stored]
      exact before.congr ⟨rfl, rfl, rfl, rfl, rfl⟩
    · rw [completed]
      have stored : Conserved table { current with rx := completedFrame byte current } :=
        before.congr ⟨rfl, rfl, rfl, rfl, rfl⟩
      exact (stored.ingested _ _).congr ⟨rfl, rfl, rfl, rfl, rfl⟩
  · intro current before
    have counted : Conserved table { current with fill := 0, examined := bump current.examined } :=
      before.congr ⟨rfl, rfl, rfl, rfl, rfl⟩
    exact counted.refused .length

theorem CmdFn.call_executed (fn : CmdFn) (arg : U32) (state : CmdState) :
    (fn.call arg state).executed = state.executed := by
  cases fn <;> rfl

theorem countLate_executed (now : U32) (slot : ObcCmdSlot) (state : CmdState) :
    (countLate now slot state).executed = state.executed := by
  unfold countLate
  split <;> rfl

theorem establishArming_accounts (frame : U32) (state : CmdState) :
    SameAccounts state (establishArming frame state) := by
  unfold establishArming
  split <;> exact ⟨rfl, rfl, rfl, rfl, rfl⟩

theorem runSlot_known {table : List ObcCmd} {index : Fin obcCmdQueueLen} {state : CmdState}
    {row : ObcCmd} {fn : CmdFn} (found : lookup table (state.queue index).opcode = some row)
    (handler : row.fn = some fn) (now frame : U32) :
    SameAccounts
      { state with
        queue := Function.update state.queue index { state.queue index with occupied := false }
        executed := bump state.executed
        history := .handled row (state.queue index).arg (state.queue index).counter now frame ::
          state.history }
      (runSlot table now frame index state) := by
  have late := countLate_frame now (state.queue index) (vacate index state)
  have executed := countLate_executed now (state.queue index) (vacate index state)
  have called := fn.call_frame (state.queue index).arg
    (countLate now (state.queue index) (vacate index state))
  have ran := fn.call_executed (state.queue index).arg
    (countLate now (state.queue index) (vacate index state))
  simp only [runSlot, found, handler, execute]
  constructor
  · rw [(establishArming_accounts frame _).queue]
    exact called.queue.trans late.queue
  · rw [(establishArming_accounts frame _).accepted]
    exact called.accepted.trans late.accepted
  · rw [(establishArming_accounts frame _).executed]
    exact congrArg bump (ran.trans executed)
  · rw [(establishArming_accounts frame _).history]
    exact congrArg (List.cons _) (called.history.trans late.history)
  · rw [(establishArming_accounts frame _).tableOk]
    exact called.tableOk.trans late.tableOk

theorem Conserved.passed {table : List ObcCmd} {state : CmdState}
    (conserved : Conserved table state) (now frame : U32) {index : Fin obcCmdQueueLen}
    (used : (state.queue index).occupied = true) :
    Conserved table (runSlot table now frame index state) := by
  obtain ⟨row, fn, found, handler⟩ := conserved.known index used
  refine Conserved.congr ?_ (runSlot_known found handler now frame)
  have executed := conserved.executed
  have total := conserved.total
  have vacated := occupiedSlots_vacated used
  constructor
  · exact conserved.rows
  · intro position still
    by_cases here : position = index
    · subst here
      simp at still
    · simp only [Function.update_of_ne here] at still ⊢
      exact conserved.known position still
  · exact conserved.accepted
  · have counted : (handledCounters (.handled row (state.queue index).arg
        (state.queue index).counter now frame :: state.history)).length =
        (handledCounters state.history).length + 1 := rfl
    rw [bump_toNat, counted]
    omega
  · have law : (acceptedCounters state.history).length =
        (handledCounters state.history).length + 1 + occupiedSlots
          (Function.update state.queue index { state.queue index with occupied := false }) := by
      omega
    exact law
  · intro counter member
    rcases conserved.kept counter member with done | ⟨position, waits, carries⟩
    · exact .inl (List.mem_cons_of_mem _ done)
    · by_cases here : position = index
      · subst here
        left
        rw [← carries]
        exact List.mem_cons_self
      · right
        refine ⟨position, ?_, ?_⟩
        · simpa [Function.update_of_ne here] using waits
        · simpa [Function.update_of_ne here] using carries

theorem Conserved.queueInit {table : List ObcCmd} {state : CmdState}
    (conserved : Conserved table state) (empty : ∀ index, (state.queue index).occupied = false) :
    Conserved table (obcCmdQueueInit state) := by
  have total := conserved.total
  rw [occupiedSlots_empty empty] at total
  constructor
  · exact conserved.rows
  · intro index used
    cases used
  · exact conserved.accepted
  · exact conserved.executed
  · have cleared : occupiedSlots (obcCmdQueueInit state).queue = 0 :=
      occupiedSlots_empty fun _ => rfl
    rw [cleared]
    exact total
  · intro counter member
    rcases conserved.kept counter member with done | ⟨index, used, _⟩
    · exact .inl done
    · rw [empty index] at used
      cases used

theorem cmdStep_conserved (table : List ObcCmd) (input : CmdInput) (state : CmdState)
    (allowed : ResetsEmpty input state) (conserved : Conserved table state) :
    Conserved table (cmdStep table input state) := by
  cases input with
  | receive bytes => exact conserved.congr ⟨rfl, rfl, rfl, rfl, rfl⟩
  | ingest frame len => exact conserved.ingested frame len
  | poll => exact conserved.polled
  | queueInit => exact conserved.queueInit allowed
  | queueRun now frame =>
      refine obcCmdQueueRun_invariant ?_ ?_ conserved
      · intro current before
        unfold expireArming
        split
        · exact before.congr ⟨rfl, rfl, rfl, rfl, rfl⟩
        · exact before
      · intro index current used _ before
        exact before.passed now frame used

/-- Whatever the order of polls, direct ingests and queue runs, nothing accepted is
lost as long as no reset of the command task finds a command in the queue. -/
theorem accepted_conserved {fields : List ObcCmdField} {table : List ObcCmd}
    {inputs : List CmdInput}
    (meets : Meets (cmdStep table) ResetsEmpty inputs (bootedCmd fields table)) :
    NoneLost (run (cmdStep table) inputs (bootedCmd fields table)) :=
  (meets_invariant (cmdStep_conserved table) meets (Conserved.booted fields table)).noneLost

def twoCommands : List CmdInput :=
  [.receive (build opPing.toNat 1 0 0 ++ build opSet.toNat 2 500 4096), .poll, .queueRun 1024 1]

theorem flight_accepted_conserved :
    NoneLost (run (cmdStep obcCmdTable)
      (twoCommands ++ [.queueRun 4096 4, .queueInit]) (bootedCmd obcCmdFields obcCmdTable)) :=
  accepted_conserved (by decide +kernel)

/-- The command task overruns its budget in two of its dispatches with the second
command still waiting, and rung 2 empties the queue. -/
theorem reset_loses_command :
    (∃ frame, .resetSubsystem 4 frame ∈ (run (execStep obcTaskTable)
      (punctualRun [[0, 0, 0, 0, 13000], [0, 0, 0, 0, 0], [0, 0, 0, 0, 13000]])
      (coldExec 16)).log) ∧
    (obcTaskTable.get ⟨4, by decide⟩).resetFn = some "obc_cmd_queue_init" ∧
    ¬NoneLost (run (cmdStep obcCmdTable) (twoCommands ++ [.queueInit])
      (bootedCmd obcCmdFields obcCmdTable)) := by
  refine ⟨⟨2, by decide +kernel⟩, rfl, fun law => ?_⟩
  have counted := law.1 (by decide +kernel) (by decide +kernel)
  revert counted
  decide +kernel

end ObcZero
