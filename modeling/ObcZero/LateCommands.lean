import ObcZero.TieOrder

/-! Lateness over a run of the command task: which executions are late by the integers,
and which of them `obc_cmd_late` counts. -/

namespace ObcZero

open StepSystem

/-- One frame of the command task: what arrives before its dispatch, whether the dispatch
is withheld, and whether it ends in the reset of its subsystem. -/
structure CommandFrame where
  arrived : List U8
  withheld : Bool
  reset : Bool

structure Acceptance where
  tag : U32
  counter : U32
  acceptedAt : U32
  deriving DecidableEq, Repr

structure Execution where
  tag : U32
  acceptedAt : U32
  ranAt : U32
  deriving DecidableEq, Repr

/-- The command task under the executive's clock. `accepted` and `executed` are no part of
the program: they record, newest first, every acceptance and execution with its clock. -/
structure TimedCmd where
  cmd : CmdState
  clock : U32
  frame : U32
  accepted : List Acceptance
  executed : List Execution

def newEvents (before after : CmdState) : List CmdEvent :=
  after.history.take (after.history.length - before.history.length)

def CmdEvent.acceptance (clock : U32) : CmdEvent → Option Acceptance
  | .accepted _ tag _ counter _ => some { tag := tag, counter := counter, acceptedAt := clock }
  | .handled .. => none

def CmdEvent.execution (accepted : List Acceptance) : CmdEvent → Option Execution
  | .accepted .. => none
  | .handled _ _ counter now _ =>
      (accepted.find? fun entry => entry.counter == counter).map fun entry =>
        { tag := entry.tag, acceptedAt := entry.acceptedAt, ranAt := now }

def acceptedBy (clock : U32) (before after : CmdState) (accepted : List Acceptance) :
    List Acceptance :=
  (newEvents before after).filterMap (CmdEvent.acceptance clock) ++ accepted

def CommandFrame.dispatch (turn : CommandFrame) (state : TimedCmd) : Dispatch :=
  { arrived := turn.arrived, now := state.clock, frame := state.frame }

/-- A frame whose dispatch is withheld leaves what arrived to the next dispatch. -/
def commandFrame (table : List ObcCmd) (turn : CommandFrame) (state : TimedCmd) : TimedCmd :=
  let next := { state with clock := state.clock + obcFrameTicks, frame := state.frame + 1 }
  if turn.withheld then
    { next with cmd := { state.cmd with uplink := state.cmd.uplink ++ turn.arrived } }
  else
    let ran := commandDispatch table (turn.dispatch state) state.cmd
    let accepted := acceptedBy state.clock state.cmd ran state.accepted
    { next with
      cmd := if turn.reset then obcCmdQueueInit ran else ran
      accepted := accepted
      executed :=
        (newEvents state.cmd ran).filterMap (CmdEvent.execution accepted) ++ state.executed }

/-- A zero tag is for the frame that accepts it. -/
def Execution.due (execution : Execution) : Nat :=
  if execution.tag = 0 then execution.acceptedAt.toNat else execution.tag.toNat

def Execution.Late (execution : Execution) : Prop :=
  execution.due + obcCmdLateTicks.toNat < execution.ranAt.toNat

/-- The comparison `obc_cmd_queue_run` makes. -/
def Execution.Judged (execution : Execution) : Prop :=
  execution.tag + obcCmdLateTicks < execution.ranAt

instance (execution : Execution) : Decidable execution.Late :=
  inferInstanceAs (Decidable (_ < _))

instance (execution : Execution) : Decidable execution.Judged :=
  inferInstanceAs (Decidable (_ < _))

def lateExecutions (state : TimedCmd) : Nat := state.executed.countP fun execution => execution.Late

/-- Neither a zero tag executed past the first frame but within a frame of its acceptance,
nor a tag so near the top of the range that the comparison wraps. -/
def Execution.WellTimed (execution : Execution) : Prop :=
  (execution.tag = 0 → execution.ranAt.toNat ≤ obcCmdLateTicks.toNat ∨
    execution.acceptedAt.toNat + obcCmdLateTicks.toNat < execution.ranAt.toNat) ∧
  execution.tag.toNat < 2 ^ 32 - obcCmdLateTicks.toNat

instance (execution : Execution) : Decidable execution.WellTimed :=
  inferInstanceAs (Decidable ((_ → _ ∨ _) ∧ _))

def acceptanceClock (accepted : List Acceptance) (counter : U32) : U32 :=
  ((accepted.find? fun entry => entry.counter == counter).map Acceptance.acceptedAt).getD 0

/-- The execution a slot is due for. -/
def slotExecution (accepted : List Acceptance) (clock : U32) (slot : ObcCmdSlot) : Execution :=
  { tag := slot.when, acceptedAt := acceptanceClock accepted slot.counter, ranAt := clock }

/-- When the dispatch has polled, every slot that is due is well timed. -/
def RunsWellTimed (table : List ObcCmd) (turn : CommandFrame) (state : TimedCmd) : Prop :=
  let polled := polledAt table (turn.dispatch state) state.cmd
  turn.withheld = false → ∀ index, DueAt state.clock (polled.queue index) →
    (slotExecution (acceptedBy state.clock state.cmd polled state.accepted) state.clock
      (polled.queue index)).WellTimed

instance (table : List ObcCmd) (turn : CommandFrame) (state : TimedCmd) :
    Decidable (RunsWellTimed table turn state) :=
  inferInstanceAs (Decidable (_ → ∀ _, _ → _))

def begunAt (clock frame : U32) (cmd : CmdState) : TimedCmd :=
  { cmd := cmd, clock := clock, frame := frame, accepted := [], executed := [] }

theorem Execution.judged_of_late {execution : Execution} (late : execution.Late) :
    execution.Judged := by
  have bound := execution.ranAt.isLt
  simp only [Late, due] at late
  unfold Judged
  split at late
  · rename_i zero
    rw [zero]
    simp only [obcCmdLateTicks, obcFrameTicks] at late ⊢
    bv_omega
  · simp only [obcCmdLateTicks, obcFrameTicks] at late ⊢
    bv_omega

/-- Whether the comparison is right about an execution that is due by its own tag. -/
theorem Execution.wellTimed_iff {execution : Execution} (reached : execution.tag ≤ execution.ranAt) :
    execution.WellTimed ↔ (execution.Judged → execution.Late) := by
  have bound := execution.tag.isLt
  simp only [WellTimed, Judged, Late, due, obcCmdLateTicks, obcFrameTicks]
  by_cases zero : execution.tag = 0
  · simp only [zero, ↓reduceIte, true_implies]
    constructor
    · rintro ⟨early | late, _⟩
      · intro judged
        bv_omega
      · exact fun _ => late
    · intro right
      refine ⟨?_, by decide⟩
      by_cases early : execution.ranAt.toNat ≤ 1024
      · exact .inl early
      · exact .inr (right (by bv_omega))
  · simp only [zero, ↓reduceIte, false_implies, true_and]
    constructor
    · intro low judged
      bv_omega
    · intro right
      by_contra high
      have judged := right (by bv_omega)
      bv_omega

/-- Whether the slot, when it is run, is known and counted late. -/
def CountedLate (table : List ObcCmd) (now : U32) (slot : ObcCmdSlot) : Prop :=
  (lookup table slot.opcode).isSome ∧ slot.when + obcCmdLateTicks < now

instance (table : List ObcCmd) (now : U32) (slot : ObcCmdSlot) :
    Decidable (CountedLate table now slot) := inferInstanceAs (Decidable (_ ∧ _))

theorem execute_late (row : ObcCmd) (fn : CmdFn) (slot : ObcCmdSlot) (now frame : U32)
    (state : CmdState) : (execute row fn slot now frame state).late = state.late := by
  have called : (fn.call slot.arg state).late = state.late := by cases fn <;> rfl
  unfold execute establishArming
  dsimp only
  split
  · exact called
  · exact called

theorem runSlot_late (table : List ObcCmd) (now frame : U32) (index : Fin obcCmdQueueLen)
    (state : CmdState) :
    (runSlot table now frame index state).late =
      if CountedLate table now (state.queue index) then bump state.late else state.late := by
  unfold runSlot
  dsimp only
  cases found : lookup table (state.queue index).opcode with
  | none => simp [CountedLate, found, vacate]
  | some row =>
      have counted : (countLate now (state.queue index) (vacate index state)).late =
          if CountedLate table now (state.queue index) then bump state.late else state.late := by
        simp only [countLate, CountedLate, found, Option.isSome_some, true_and]
        split
        · rfl
        · rfl
      dsimp only
      cases row.fn with
      | none => exact counted
      | some fn => exact (execute_late row fn _ now frame _).trans counted

theorem runSlots_late (table : List ObcCmd) (now frame : U32) {order : List (Fin obcCmdQueueLen)}
    (once : order.Nodup) (state : CmdState) :
    (order.foldl (fun current index => runSlot table now frame index current) state).late.toNat =
      min counterCeiling
        (state.late.toNat + order.countP fun index => CountedLate table now (state.queue index)) := by
  induction order generalizing state with
  | nil =>
      have bound : state.late.toNat ≤ counterCeiling := Nat.le_of_lt_succ state.late.isLt
      simpa using bound
  | cons index rest ih =>
      obtain ⟨absent, restOnce⟩ := List.nodup_cons.mp once
      obtain ⟨queue, _, _⟩ := runSlot_serves table now frame index state
      have untouched : rest.countP (fun other => CountedLate table now
            ((runSlot table now frame index state).queue other)) =
          rest.countP fun other => CountedLate table now (state.queue other) := by
        refine List.countP_congr fun other member => ?_
        rw [queue, Function.update_of_ne (ne_of_mem_of_not_mem member absent)]
      rw [List.foldl_cons, ih restOnce, untouched, runSlot_late, List.countP_cons]
      by_cases late : CountedLate table now (state.queue index)
      · simp only [late, ↓reduceIte, decide_true, bump_toNat]
        omega
      · simp only [late, ↓reduceIte, decide_false, Bool.false_eq_true, Nat.add_zero]

theorem obcCmdQueueRun_late (table : List ObcCmd) (now frame : U32) (state : CmdState) :
    (obcCmdQueueRun table now frame state).late.toNat =
      min counterCeiling (state.late.toNat + (runOrder table now frame state).countP fun index =>
        CountedLate table now (state.queue index)) := by
  have ran := runOrder_ranDue table now frame state
  have same : (expireArming frame state).late = state.late := by
    unfold expireArming
    split
    · rfl
    · rfl
  rw [ran.ran, runSlots_late table now frame ran.once, same, (expireArming_frame frame state).1]

/-- What polling leaves of the count, and adds to the record. -/
structure Arrived (before state : CmdState) : Prop where
  late : state.late = before.late
  arrivals : ∃ events, state.history = events ++ before.history ∧
    ∀ event ∈ events, event.handledCounter = none

theorem Arrived.congr {before state after : CmdState} (arrived : Arrived before state)
    (late : after.late = state.late) (history : after.history = state.history) :
    Arrived before after := by
  constructor
  · rw [late, arrived.late]
  · rw [history]
    exact arrived.arrivals

theorem Arrived.ingested {before state : CmdState} (arrived : Arrived before state)
    (table : List ObcCmd) (frame : Option (Nat → U8)) (len : U32) :
    Arrived before (obcCmdIngest table frame len state).2.2 := by
  rcases obcCmdIngest_cases table frame len state with
    unchanged | ⟨reason, refused⟩ | ⟨bytes, row, index, _, _, _, _, _, _, taken⟩
  · rw [unchanged]
    exact arrived
  · obtain ⟨announced, serial, after⟩ :=
      refuse_cases reason { state with examined := bump state.examined }
    rw [refused, after]
    exact arrived.congr rfl rfl
  · obtain ⟨events, history, quiet⟩ := arrived.arrivals
    rw [taken]
    refine ⟨arrived.late, _ :: events, congrArg (List.cons _) history, fun event member => ?_⟩
    rcases List.mem_cons.mp member with newest | earlier
    · rw [newest]
      rfl
    · exact quiet event earlier

theorem obcCmdPoll_arrived (table : List ObcCmd) (state : CmdState) :
    Arrived state (obcCmdPoll table state) := by
  have start : Arrived state state := ⟨rfl, [], rfl, by simp⟩
  refine obcCmdPoll_invariant (fun _ _ before => before.congr rfl rfl) ?_ ?_
    (meets_always (fun _ _ => trivial) _ _) start
  · intro byte current _ before
    rcases takeByte_cases table byte current with ⟨fill, stored⟩ | ⟨_, completed⟩
    · rw [stored]
      exact before.congr rfl rfl
    · rw [completed]
      have held : Arrived state { current with rx := completedFrame byte current } :=
        before.congr rfl rfl
      exact (held.ingested table _ _).congr rfl rfl
  · intro current before
    obtain ⟨announced, serial, refused⟩ := refuse_cases .length
      { current with fill := 0, examined := bump current.examined }
    rw [refused]
    exact before.congr rfl rfl

theorem polledAt_arrived (table : List ObcCmd) (dispatch : Dispatch) (state : CmdState) :
    Arrived state (polledAt table dispatch state) := by
  have polled := obcCmdPoll_arrived table { state with uplink := state.uplink ++ dispatch.arrived }
  exact ⟨polled.late, polled.arrivals⟩

theorem newEvents_append {before after : CmdState} {events : List CmdEvent}
    (grown : after.history = events ++ before.history) : newEvents before after = events := by
  rw [newEvents, grown, List.length_append, Nat.add_sub_cancel, List.take_left]

/-- The tag and the counter of an acceptance, as the record has them. -/
def CmdEvent.acceptedTag : CmdEvent → Option (U32 × U32)
  | .accepted _ tag _ counter _ => some (tag, counter)
  | .handled .. => none

/-- Every slot in use holds the tag its acceptance brought. -/
def QueuedOnRecord (state : CmdState) : Prop :=
  ∀ index, (state.queue index).occupied = true →
    ((state.queue index).when, (state.queue index).counter) ∈
      state.history.filterMap CmdEvent.acceptedTag

theorem queuedOnRecord_rule (table : List ObcCmd) :
    QueueRule table (fun _ _ => True) QueuedOnRecord where
  congr := by
    intro state after kept same
    rw [QueuedOnRecord, same.queue, same.history]
    exact kept
  blind := fun _ _ => trivial
  accepted := by
    intro frame row index state _ _ _ _ _ kept position used
    have recorded : (acceptedState frame index state).history.filterMap CmdEvent.acceptedTag =
        (getU32 frame obcCmdOWhen, getU32 frame obcCmdOCounter) ::
          state.history.filterMap CmdEvent.acceptedTag := rfl
    rw [recorded]
    by_cases here : position = index
    · subst here
      simp only [acceptedState, Function.update_self]
      exact List.mem_cons_self
    · simp only [acceptedState, Function.update_of_ne here] at used ⊢
      exact List.mem_cons_of_mem _ (kept position used)
  passed := by
    intro now frame index state _ kept position used
    obtain ⟨queue, _, history⟩ := runSlot_serves table now frame index state
    rw [history, List.filterMap_append]
    by_cases here : position = index
    · subst here
      rw [queue, Function.update_self] at used
      cases used
    · rw [queue, Function.update_of_ne here] at used ⊢
      exact List.mem_append_right _ (kept position used)
  emptied := fun _ _ used => by cases used

/-- What the record of a run rests on. -/
structure Recorded (table : List ObcCmd) (cmd : CmdState) : Prop where
  once : OnceEach cmd
  handlable : Handlable table cmd
  queued : QueuedOnRecord cmd

theorem cmdStep_recorded (table : List ObcCmd) (input : CmdInput) (cmd : CmdState)
    (recorded : Recorded table cmd) : Recorded table (cmdStep table input cmd) where
  once := cmdStep_onceEach table input cmd recorded.once
  handlable := (handlable_rule table).step input cmd (acceptsUnder_always table input cmd)
    recorded.handlable
  queued := (queuedOnRecord_rule table).step input cmd (acceptsUnder_always table input cmd)
    recorded.queued

theorem Recorded.booted (fields : List ObcCmdField) (table : List ObcCmd) :
    Recorded table (bootedCmd fields table) := by
  refine ⟨onceEach_booted fields table, Handlable.booted fields table, fun index used => ?_⟩
  rcases bootedCmd_cases fields table with same | ⟨_, same⟩
  · rw [same] at used
    cases used
  · rw [same] at used
    cases used

def Acceptance.onRecord (entry : Acceptance) : U32 × U32 := (entry.tag, entry.counter)

theorem acceptedTag_counters (history : List CmdEvent) :
    (history.filterMap CmdEvent.acceptedTag).map Prod.snd = acceptedCounters history := by
  induction history with
  | nil => rfl
  | cons event earlier ih =>
      cases event with
      | accepted opcode tag arg counter armedUntil => exact congrArg (List.cons counter) ih
      | handled row arg counter now frame => exact ih

theorem acceptance_onRecord (clock : U32) (events : List CmdEvent) :
    (events.filterMap (CmdEvent.acceptance clock)).map Acceptance.onRecord =
      events.filterMap CmdEvent.acceptedTag := by
  induction events with
  | nil => rfl
  | cons event earlier ih =>
      cases event with
      | accepted opcode tag arg counter armedUntil => exact congrArg (List.cons (tag, counter)) ih
      | handled row arg counter now frame => exact ih

theorem find_counter {accepted : List Acceptance}
    (once : (accepted.map Acceptance.counter).Nodup) {entry : Acceptance}
    (member : entry ∈ accepted) :
    (accepted.find? fun other => other.counter == entry.counter) = some entry := by
  induction accepted with
  | nil => cases member
  | cons newest earlier ih =>
      obtain ⟨absent, restOnce⟩ := List.nodup_cons.mp once
      rcases List.mem_cons.mp member with here | before
      · rw [here]
        exact List.find?_cons_of_pos (beq_self_eq_true newest.counter)
      · have apart : newest.counter ≠ entry.counter := fun same =>
          absent (same ▸ List.mem_map_of_mem before)
        rw [List.find?_cons_of_neg (by simpa using apart)]
        exact ih restOnce before

/-- How a run stands whose record is kept: the acceptances on record are those of the
history, and the count is of the executions judged late. -/
structure Timed (table : List ObcCmd) (state : TimedCmd) : Prop where
  recorded : Recorded table state.cmd
  accepted : state.accepted.map Acceptance.onRecord =
    state.cmd.history.filterMap CmdEvent.acceptedTag
  counted : state.cmd.late.toNat =
    min counterCeiling (state.executed.countP fun execution => execution.Judged)
  reached : ∀ execution ∈ state.executed, execution.tag ≤ execution.ranAt
  complete : state.executed.length = (handledCounters state.cmd.history).length

section Dispatched

variable {table : List ObcCmd} {clock frame : U32} {polled : CmdState} {accepted : List Acceptance}
  (recorded : Recorded table polled)

include recorded

theorem Recorded.call (clock frame : U32) {index : Fin obcCmdQueueLen}
    (used : (polled.queue index).occupied = true) :
    ∃ row, (lookup table (polled.queue index).opcode).isSome ∧
      handlerCall table clock frame (polled.queue index) =
        some (.handled row (polled.queue index).arg (polled.queue index).counter clock frame) := by
  obtain ⟨row, fn, found, named⟩ := recorded.handlable.known index used
  refine ⟨row, by rw [found]; rfl, ?_⟩
  simp only [handlerCall, found, named, Option.map_some]

theorem Recorded.calls_quiet {order : List (Fin obcCmdQueueLen)}
    (used : ∀ index ∈ order, (polled.queue index).occupied = true) (clock' : U32) :
    (order.filterMap fun index => handlerCall table clock frame (polled.queue index)).filterMap
      (CmdEvent.acceptance clock') = [] := by
  refine List.filterMap_eq_nil_iff.mpr fun event member => ?_
  obtain ⟨index, inside, made⟩ := List.mem_filterMap.mp member
  obtain ⟨row, _, call⟩ := recorded.call clock frame (used index inside)
  rw [call] at made
  rw [← Option.some.inj made]
  rfl

theorem Recorded.calls_counters (clock frame : U32) {order : List (Fin obcCmdQueueLen)}
    (used : ∀ index ∈ order, (polled.queue index).occupied = true) :
    handledCounters
        (order.filterMap fun index => handlerCall table clock frame (polled.queue index)) =
      order.map fun index => (polled.queue index).counter := by
  rw [handledCounters, List.filterMap_filterMap, ← List.filterMap_eq_map]
  refine List.filterMap_congr fun index member => ?_
  obtain ⟨row, _, call⟩ := recorded.call clock frame (used index member)
  rw [call, Option.bind_some]
  rfl

variable (known : accepted.map Acceptance.onRecord =
  polled.history.filterMap CmdEvent.acceptedTag)

include known

theorem Recorded.executed {index : Fin obcCmdQueueLen}
    (used : (polled.queue index).occupied = true) (row : ObcCmd) :
    CmdEvent.execution accepted
        (.handled row (polled.queue index).arg (polled.queue index).counter clock frame) =
      some (slotExecution accepted clock (polled.queue index)) := by
  have once : (accepted.map Acceptance.counter).Nodup := by
    have counters : accepted.map Acceptance.counter = acceptedCounters polled.history := by
      rw [← acceptedTag_counters, ← known, List.map_map]
      rfl
    rw [counters]
    refine recorded.once.increasing.imp fun {later earlier} below same => ?_
    rw [same] at below
    exact BitVec.lt_irrefl _ below
  have member := recorded.queued index used
  rw [← known] at member
  obtain ⟨entry, inside, same⟩ := List.mem_map.mp member
  obtain ⟨tag, counter⟩ := Prod.mk.inj same
  have found := find_counter once inside
  rw [counter] at found
  simp only [CmdEvent.execution, slotExecution, acceptanceClock, found, Option.map_some,
    Option.getD_some, tag]

theorem Recorded.calls_executions {order : List (Fin obcCmdQueueLen)}
    (used : ∀ index ∈ order, (polled.queue index).occupied = true) :
    (order.filterMap fun index => handlerCall table clock frame (polled.queue index)).filterMap
        (CmdEvent.execution accepted) =
      order.map fun index => slotExecution accepted clock (polled.queue index) := by
  rw [List.filterMap_filterMap, ← List.filterMap_eq_map]
  refine List.filterMap_congr fun index member => ?_
  obtain ⟨row, _, call⟩ := recorded.call clock frame (used index member)
  rw [call, Option.bind_some]
  exact recorded.executed known (used index member) row

omit known in
theorem Recorded.judged {order : List (Fin obcCmdQueueLen)}
    (used : ∀ index ∈ order, (polled.queue index).occupied = true) :
    (order.map fun index => slotExecution accepted clock (polled.queue index)).countP
        (fun execution => execution.Judged) =
      order.countP fun index => CountedLate table clock (polled.queue index) := by
  rw [List.countP_map]
  refine List.countP_congr fun index member => ?_
  obtain ⟨row, fn, found, _⟩ := recorded.handlable.known index (used index member)
  rw [Function.comp_apply, decide_eq_true_eq, decide_eq_true_eq]
  simp only [Execution.Judged, slotExecution, CountedLate, found, Option.isSome_some, true_and]

end Dispatched

theorem polledAt_run (table : List ObcCmd) (dispatch : Dispatch) (state : CmdState) :
    polledAt table dispatch state =
      run (cmdStep table) [.receive dispatch.arrived, .poll] state := rfl

section Frame

variable (table : List ObcCmd) (turn : CommandFrame) (state : TimedCmd)

/-- The queue as the dispatch finds it when it has polled. -/
def TimedCmd.polled : CmdState := polledAt table (turn.dispatch state) state.cmd

def TimedCmd.ran : CmdState :=
  obcCmdQueueRun table state.clock state.frame (state.polled table turn)

def TimedCmd.acceptedSoFar : List Acceptance :=
  acceptedBy state.clock state.cmd (state.polled table turn) state.accepted

/-- The slots the dispatch runs, first to last. -/
def TimedCmd.order : List (Fin obcCmdQueueLen) :=
  runOrder table state.clock state.frame (state.polled table turn)

def TimedCmd.slotExecutions : List Execution :=
  (state.order table turn).map fun index =>
    slotExecution (state.acceptedSoFar table turn) state.clock
      ((state.polled table turn).queue index)

end Frame

/-- The executions a dispatched frame adds to the record are those of the slots that are
due when it has polled. -/
structure Ran (table : List ObcCmd) (turn : CommandFrame) (state after : TimedCmd) : Prop where
  cmd : after.cmd =
    if turn.reset then obcCmdQueueInit (state.ran table turn) else state.ran table turn
  accepted : after.accepted = state.acceptedSoFar table turn
  executed : after.executed = (state.slotExecutions table turn).reverse ++ state.executed

section Turn

variable {table : List ObcCmd} {turn : CommandFrame} {state : TimedCmd}

variable (turn) in
theorem Timed.polledRecorded (timed : Timed table state) :
    Recorded table (state.polled table turn) := by
  rw [TimedCmd.polled, polledAt_run]
  exact run_invariant (cmdStep_recorded table) _ timed.recorded

variable (table turn state) in
theorem TimedCmd.order_used :
    ∀ index ∈ state.order table turn, ((state.polled table turn).queue index).occupied = true :=
  fun index member => (((runOrder_ranDue table _ _ _).due index).mp member).1

theorem Timed.known (timed : Timed table state) :
    (state.acceptedSoFar table turn).map Acceptance.onRecord =
      (state.polled table turn).history.filterMap CmdEvent.acceptedTag := by
  obtain ⟨_, arrivals, arrived, _⟩ := polledAt_arrived table (turn.dispatch state) state.cmd
  have history : (state.polled table turn).history = arrivals ++ state.cmd.history := arrived
  rw [TimedCmd.acceptedSoFar, acceptedBy, newEvents_append history, List.map_append,
    acceptance_onRecord, timed.accepted, history, List.filterMap_append]

theorem Timed.dispatched (timed : Timed table state) (going : turn.withheld = false) :
    Ran table turn state (commandFrame table turn state) := by
  have recorded := timed.polledRecorded turn
  have used := TimedCmd.order_used table turn state
  obtain ⟨_, arrivals, arrived, quiet⟩ := polledAt_arrived table (turn.dispatch state) state.cmd
  have history : (state.polled table turn).history = arrivals ++ state.cmd.history := arrived
  have ran := runOrder_ranDue table state.clock state.frame (state.polled table turn)
  have grown : (state.ran table turn).history =
      (((state.order table turn).filterMap fun index => handlerCall table state.clock state.frame
        ((state.polled table turn).queue index)).reverse ++ arrivals) ++ state.cmd.history := by
    rw [List.append_assoc, ← history]
    exact ran.calls
  have accepted : acceptedBy state.clock state.cmd (state.ran table turn) state.accepted =
      state.acceptedSoFar table turn := by
    rw [acceptedBy, newEvents_append grown, List.filterMap_append, List.filterMap_reverse,
      recorded.calls_quiet used, List.reverse_nil, List.nil_append, TimedCmd.acceptedSoFar,
      acceptedBy, newEvents_append history]
  have unhandled : arrivals.filterMap (CmdEvent.execution (state.acceptedSoFar table turn)) =
      [] := by
    refine List.filterMap_eq_nil_iff.mpr fun event member => ?_
    have none := quiet event member
    cases event with
    | accepted => rfl
    | handled => cases none
  have executed : (newEvents state.cmd (state.ran table turn)).filterMap
      (CmdEvent.execution (state.acceptedSoFar table turn)) =
      (state.slotExecutions table turn).reverse := by
    rw [newEvents_append grown, List.filterMap_append, unhandled, List.append_nil,
      List.filterMap_reverse, recorded.calls_executions timed.known used, TimedCmd.slotExecutions]
  have dispatched : commandDispatch table (turn.dispatch state) state.cmd =
      state.ran table turn := rfl
  simp only [commandFrame, going, Bool.false_eq_true, ↓reduceIte, dispatched]
  refine ⟨rfl, accepted, ?_⟩
  dsimp only
  rw [accepted, executed]

theorem Ran.history {after : TimedCmd} (ran : Ran table turn state after) :
    after.cmd.history = (state.ran table turn).history := by
  rw [ran.cmd]
  split
  · rfl
  · rfl

theorem Ran.late {after : TimedCmd} (ran : Ran table turn state after) :
    after.cmd.late = (state.ran table turn).late := by
  rw [ran.cmd]
  split
  · rfl
  · rfl

theorem TimedCmd.mem_slotExecutions {execution : Execution} :
    execution ∈ state.slotExecutions table turn ↔
      ∃ index, DueAt state.clock ((state.polled table turn).queue index) ∧
        slotExecution (state.acceptedSoFar table turn) state.clock
          ((state.polled table turn).queue index) = execution := by
  simp only [slotExecutions, order, List.mem_map, (runOrder_ranDue table _ _ _).due]

/-- The record of a run is kept by a frame that is dispatched. -/
theorem Timed.ran (timed : Timed table state) {after : TimedCmd}
    (ran : Ran table turn state after) : Timed table after := by
  have recorded := timed.polledRecorded turn
  have used := TimedCmd.order_used table turn state
  have arrived : Arrived state.cmd (state.polled table turn) := polledAt_arrived table _ _
  have runs := runOrder_ranDue table state.clock state.frame (state.polled table turn)
  have afterRecorded : Recorded table (state.ran table turn) :=
    cmdStep_recorded table (.queueRun state.clock state.frame) _ recorded
  constructor
  · rw [ran.cmd]
    split
    · exact cmdStep_recorded table .queueInit _ afterRecorded
    · exact afterRecorded
  · have silent : ((state.order table turn).filterMap fun index => handlerCall table state.clock
        state.frame ((state.polled table turn).queue index)).filterMap CmdEvent.acceptedTag =
        [] := by
      rw [← acceptance_onRecord state.clock, recorded.calls_quiet used, List.map_nil]
    rw [TimedCmd.order] at silent
    rw [ran.accepted, ran.history, timed.known, TimedCmd.ran, runs.calls, List.filterMap_append,
      List.filterMap_reverse, silent, List.reverse_nil, List.nil_append]
  · have before := timed.counted
    have raised := obcCmdQueueRun_late table state.clock state.frame (state.polled table turn)
    have judged : (state.slotExecutions table turn).countP (fun execution => execution.Judged) =
        (state.order table turn).countP fun index =>
          CountedLate table state.clock ((state.polled table turn).queue index) :=
      recorded.judged used
    rw [TimedCmd.order] at judged
    rw [ran.late, ran.executed, TimedCmd.ran, raised, arrived.late, List.countP_append,
      List.countP_reverse, judged]
    omega
  · rw [ran.executed]
    intro execution member
    rcases List.mem_append.mp member with new | old
    · obtain ⟨index, due, same⟩ := TimedCmd.mem_slotExecutions.mp (List.mem_reverse.mp new)
      rw [← same]
      exact due.2
    · exact timed.reached execution old
  · obtain ⟨arrivals, history, quiet⟩ := arrived.arrivals
    have none : arrivals.filterMap CmdEvent.handledCounter = [] :=
      List.filterMap_eq_nil_iff.mpr quiet
    have made := recorded.calls_counters state.clock state.frame used
    have complete := timed.complete
    rw [handledCounters] at made complete
    rw [TimedCmd.order] at made
    rw [ran.executed, ran.history, handledCounters, TimedCmd.ran, runs.calls, history,
      List.filterMap_append, List.filterMap_append, none, List.nil_append, List.filterMap_reverse,
      made, List.length_append, List.length_append, complete, List.length_reverse,
      List.length_reverse, TimedCmd.slotExecutions, List.length_map, List.length_map,
      TimedCmd.order]

end Turn

theorem Timed.withheld {table : List ObcCmd} {turn : CommandFrame} {state : TimedCmd}
    (timed : Timed table state) (withheld : turn.withheld = true) :
    (commandFrame table turn state).executed = state.executed ∧
      Timed table (commandFrame table turn state) := by
  have received := cmdStep_recorded table (.receive turn.arrived) state.cmd timed.recorded
  simp only [commandFrame, withheld, ↓reduceIte]
  exact ⟨trivial, received, timed.accepted, timed.counted, timed.reached, timed.complete⟩

/-- A run adds to the record well-timed executions only, if and only if all its steps meet
the condition. -/
theorem Timed.run {table : List ObcCmd} {state : TimedCmd} (timed : Timed table state)
    (turns : List CommandFrame) :
    Timed table (StepSystem.run (commandFrame table) turns state) ∧
      ((∀ execution ∈ (StepSystem.run (commandFrame table) turns state).executed,
          execution.WellTimed) ↔
        (∀ execution ∈ state.executed, execution.WellTimed) ∧
          Meets (commandFrame table) (RunsWellTimed table) turns state) := by
  induction turns generalizing state with
  | nil => exact ⟨timed, by simp [StepSystem.run, Meets]⟩
  | cons turn rest ih =>
      by_cases withheld : turn.withheld = true
      · obtain ⟨same, next⟩ := timed.withheld withheld
        obtain ⟨final, iff⟩ := ih next
        have idle : RunsWellTimed table turn state := fun going => by
          rw [withheld] at going
          cases going
        refine ⟨final, iff.trans ?_⟩
        rw [same]
        exact and_congr_right fun _ => (and_iff_right idle).symm
      · have going : turn.withheld = false := by simpa using withheld
        have ran := timed.dispatched going
        obtain ⟨final, iff⟩ := ih (timed.ran ran)
        have new : (∀ execution ∈ (state.slotExecutions table turn).reverse, execution.WellTimed) ↔
            RunsWellTimed table turn state := by
          constructor
          · intro all _ index due
            exact all _ (List.mem_reverse.mpr (TimedCmd.mem_slotExecutions.mpr ⟨index, due, rfl⟩))
          · intro allowed execution member
            obtain ⟨index, due, same⟩ :=
              TimedCmd.mem_slotExecutions.mp (List.mem_reverse.mp member)
            rw [← same]
            exact allowed going index due
        refine ⟨final, iff.trans ?_⟩
        rw [ran.executed, List.forall_mem_append, new]
        rw [and_assoc]
        exact and_left_comm

theorem Timed.begun (fields : List ObcCmdField) (table : List ObcCmd) (clock frame : U32) :
    Timed table (begunAt clock frame (bootedCmd fields table)) := by
  have recorded := Recorded.booted fields table
  rcases bootedCmd_cases fields table with same | ⟨_, same⟩
  · refine ⟨recorded, ?_, ?_, by simp [begunAt], ?_⟩
    all_goals simp only [begunAt, same]
    all_goals rfl
  · refine ⟨recorded, ?_, ?_, by simp [begunAt], ?_⟩
    all_goals simp only [begunAt, same]
    all_goals rfl

theorem countP_eq_iff {executed : List Execution} (counted judged : Execution → Prop)
    [DecidablePred counted] [DecidablePred judged]
    (implied : ∀ execution, judged execution → counted execution) :
    (executed.countP (fun execution => counted execution) =
        executed.countP fun execution => judged execution) ↔
      ∀ execution ∈ executed, counted execution → judged execution := by
  induction executed with
  | nil => simp
  | cons execution rest ih =>
      have fewer : rest.countP (fun execution => judged execution) ≤
          rest.countP fun execution => counted execution :=
        List.countP_mono_left fun other _ late => by
          simpa using implied other (by simpa using late)
      rw [List.countP_cons, List.countP_cons, List.forall_mem_cons, ← ih]
      by_cases late : judged execution
      · simp [late, implied execution late]
      · by_cases counts : counted execution
        · simp only [counts, late, decide_true, decide_false, ↓reduceIte, Bool.false_eq_true,
            true_implies, false_and, iff_false]
          omega
        · simp [counts, late]

/-- Over every run of the command task, whichever of its dispatches are withheld or reset
it: every execution is on record, and a count that has not saturated is the number of
executions that are late if and only if every slot run is well timed. -/
theorem late_counts_executions {fields : List ObcCmdField} {table : List ObcCmd}
    {clock frame : U32} {turns : List CommandFrame}
    (unsaturated : (run (commandFrame table) turns
      (begunAt clock frame (bootedCmd fields table))).cmd.late ≠ obcCmdCounterMax) :
    let start := begunAt clock frame (bootedCmd fields table)
    let final := run (commandFrame table) turns start
    final.executed.length = (handledCounters final.cmd.history).length ∧
      (final.cmd.late.toNat = lateExecutions final ↔
        Meets (commandFrame table) (RunsWellTimed table) turns start) := by
  intro start final
  obtain ⟨timed, iff⟩ :=
    (Timed.begun fields table clock frame).run turns
  have apart : final.cmd.late.toNat ≠ counterCeiling :=
    fun same => unsaturated (BitVec.eq_of_toNat_eq same)
  have counted : final.cmd.late.toNat =
      final.executed.countP fun execution => execution.Judged := by
    have law : final.cmd.late.toNat =
      min counterCeiling (final.executed.countP fun execution => execution.Judged) := timed.counted
    omega
  refine ⟨timed.complete, ?_⟩
  rw [counted, lateExecutions,
    countP_eq_iff Execution.Judged Execution.Late fun _ => Execution.judged_of_late]
  have each : (∀ execution ∈ final.executed, execution.Judged → execution.Late) ↔
      ∀ execution ∈ final.executed, execution.WellTimed :=
    forall₂_congr fun execution member =>
      (Execution.wellTimed_iff (timed.reached execution member)).symm
  rw [each]
  exact iff.trans (and_iff_right (by simp [begunAt]))

def sends (bytes : List U8) : CommandFrame := { arrived := bytes, withheld := false, reset := false }

/-- A command for the tick 2000, whose dispatch two frames further on is withheld twice. -/
def withheldTwice : List CommandFrame :=
  [sends (build opPing.toNat 1 0 2000), sends [], { sends [] with withheld := true },
    { sends [] with withheld := true }, sends []]

theorem flight_late_counts_executions :
    let final := run (commandFrame obcCmdTable) withheldTwice
      (begunAt 0 0 (bootedCmd obcCmdFields obcCmdTable))
    final.cmd.late.toNat = lateExecutions final ∧ lateExecutions final = 1 :=
  ⟨(late_counts_executions (by decide +kernel)).2.mpr (by decide +kernel), by decide +kernel⟩

/-- A ping for the next frame, executed by the dispatch that accepts it in frame 4, is
counted late; so is one for the last frame before the wrap, executed on its tick. -/
theorem prompt_commands_counted_late :
    let prompt := run (commandFrame obcCmdTable) [sends (build opPing.toNat 1 0 0)]
      (begunAt 4096 4 (bootedCmd obcCmdFields obcCmdTable))
    let last := run (commandFrame obcCmdTable) [sends (build opPing.toNat 1 0 0xFFFFFC00)]
      (begunAt 0xFFFFFC00 4194303 (bootedCmd obcCmdFields obcCmdTable))
    prompt.executed = [{ tag := 0, acceptedAt := 4096, ranAt := 4096 }] ∧
      prompt.cmd.late = 1 ∧ lateExecutions prompt = 0 ∧
      last.executed = [{ tag := 0xFFFFFC00, acceptedAt := 0xFFFFFC00, ranAt := 0xFFFFFC00 }] ∧
      last.cmd.late = 1 ∧ lateExecutions last = 0 := by
  decide +kernel

end ObcZero
