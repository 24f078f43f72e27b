import ObcZero.ModeVote
import ObcZero.SchedCore

/-! What one turn of each loop of the executive can do, one case for each way out
of the loop's body. -/

namespace ObcZero

theorem askModes_kept (votes : Nat) (state : ExecState) :
    ∃ mode, ModeKept state.mode mode ∧ askModes votes state = { state with mode := mode } := by
  induction votes generalizing state with
  | zero => exact ⟨state.mode, .refl _, rfl⟩
  | succ votes ih =>
      obtain ⟨mode, kept, asked⟩ := ih (askMode state).2
      exact ⟨mode, (modeKept_asked state.mode).trans kept, asked⟩

theorem schedNow_settled {turn : Turn} (settled : turn.clock = .ok) (frame : U32)
    (state : ExecState) : schedNow turn frame state = state := by
  simp [schedNow, settled]

theorem schedNow_cases (turn : Turn) (frame : U32) (state : ExecState) :
    ∃ mode entry, schedNow turn frame state =
      { state with mode := mode, safeEntryFrame := entry } := by
  by_cases unstable : turn.clock = .errUnstable
  · cases safe : (obcModeIsSafe state.mode).1 with
    | true =>
        simp only [schedNow, askMode, unstable, safe, ↓reduceIte]
        exact ⟨_, state.safeEntryFrame, rfl⟩
    | false =>
        simp only [schedNow, askMode, unstable, safe, ↓reduceIte, Bool.false_eq_true]
        exact ⟨_, frame, rfl⟩
  · simp only [schedNow, unstable, ↓reduceIte]
    exact ⟨state.mode, state.safeEntryFrame, rfl⟩

def Due (row : ObcTask) (frame : U32) : Prop :=
  row.periodFrames ≠ 0 ∧ frame % row.periodFrames = 0

def Withheld (row : ObcTask) (state : ExecState) : Prop :=
  (obcModeIsSafe state.mode).1 = true ∧ row.essential = false

def Dispatches (row : ObcTask) (index : Nat) (state : ExecState) : Prop :=
  Due row state.frame ∧ ¬Withheld row state ∧
    obcRecoverIsSuspended index state.frame state = false ∧ row.fn.isSome

/-- The visit dispatches the task, which overruns and so reaches `rung`. -/
def Overruns (row : ObcTask) (index : Nat) (turn : Turn) (state : ExecState) (rung : U32) :
    Prop :=
  Dispatches row index state ∧ row.budgetInstr < turn.used ∧
    selectRung row ((state.taskState index).overruns + 1) = rung

instance (row : ObcTask) (frame : U32) : Decidable (Due row frame) :=
  inferInstanceAs (Decidable (_ ∧ _))

instance (row : ObcTask) (state : ExecState) : Decidable (Withheld row state) :=
  inferInstanceAs (Decidable (_ ∧ _))

instance (row : ObcTask) (index : Nat) (state : ExecState) :
    Decidable (Dispatches row index state) := inferInstanceAs (Decidable (_ ∧ _ ∧ _ ∧ _))

instance (row : ObcTask) (index : Nat) (turn : Turn) (state : ExecState) (rung : U32) :
    Decidable (Overruns row index turn state rung) := inferInstanceAs (Decidable (_ ∧ _ ∧ _))

def pushed (index : Nat) (trace : List U8) : List U8 :=
  if obcTraceCapacity ≤ trace.length then trace else trace ++ [BitVec.ofNat 8 index]

def logged (task : Nat) (frame rung : U32) (suspensions : List ObcSuspension) :
    List ObcSuspension :=
  if obcSuspendLogLen ≤ suspensions.length then suspensions
  else suspensions ++
    [{ task := BitVec.ofNat 8 task, frame := frame.setWidth 8, rung := rung.setWidth 8 }]

def afterDispatch (index : Nat) (mode : ModeState) (taskState : Nat → ObcTaskState)
    (traceOverflow : U32) (state : ExecState) : ExecState :=
  { state with
    mode := mode
    taskState := taskState
    trace := pushed index state.trace
    traceOverflow := traceOverflow
    due := state.due + 1
    ran := state.ran + 1
    log := .visited state.frame index true false true :: state.log }

inductive Visit (row : ObcTask) (index : Nat) (turn : Turn) (state : ExecState) :
    ExecState → Prop
  | skipped (mode : ModeState) (kept : ModeKept state.mode mode)
      (skip : ¬Due row state.frame ∨ Withheld row state) :
      Visit row index turn state
        { state with
          mode := mode
          log := .visited state.frame index false false false :: state.log }
  | suspended (mode : ModeState) (kept : ModeKept state.mode mode) (due : Due row state.frame)
      (asked : ¬Withheld row state)
      (slot : obcRecoverIsSuspended index state.frame state = true) :
      Visit row index turn state
        { state with
          mode := mode
          due := state.due + 1
          log := .visited state.frame index true true false :: state.log }
  | nullFunction (mode : ModeState) (kept : ModeKept state.mode mode)
      (due : Due row state.frame) (asked : ¬Withheld row state)
      (slot : obcRecoverIsSuspended index state.frame state = false)
      (null : row.fn = none) :
      Visit row index turn state
        { state with
          mode := mode
          due := state.due + 1
          ran := state.ran + 1
          log := .visited state.frame index true false false :: state.log }
  | within (mode : ModeState) (kept : ModeKept state.mode mode) (taskState : Nat → ObcTaskState)
      (traceOverflow : U32) (dispatches : Dispatches row index state)
      (thrifty : ¬row.budgetInstr < turn.used) :
      Visit row index turn state (afterDispatch index mode taskState traceOverflow state)
  | suspends (mode : ModeState) (kept : ModeKept state.mode mode)
      (taskState : Nat → ObcTaskState) (traceOverflow suspensionOverflow : U32)
      (overruns : Overruns row index turn state obcRungSuspendTask) :
      Visit row index turn state
        { afterDispatch index mode taskState traceOverflow state with
          suspendedTask := BitVec.ofNat 32 index
          suspendedFrame := nextDue row state.frame
          suspensions :=
            logged index (nextDue row state.frame) obcRungSuspendTask state.suspensions
          suspensionOverflow := suspensionOverflow
          log := .suspendTask index state.frame (nextDue row state.frame) ::
            .visited state.frame index true false true :: state.log }
  | resetsSubsystem (mode : ModeState) (kept : ModeKept state.mode mode)
      (taskState : Nat → ObcTaskState) (traceOverflow suspensionOverflow : U32)
      (overruns : Overruns row index turn state obcRungResetSubsystem) :
      Visit row index turn state
        { afterDispatch index mode taskState traceOverflow state with
          suspensions := logged index state.frame obcRungResetSubsystem state.suspensions
          suspensionOverflow := suspensionOverflow
          log := .resetSubsystem index state.frame ::
            .visited state.frame index true false true :: state.log }
  | entersSafe (mode : ModeState) (kept : ModeKept state.mode mode)
      (taskState : Nat → ObcTaskState) (traceOverflow : U32)
      (overruns : Overruns row index turn state obcRungResetMachine)
      (spent : obcShortBootLimit ≤ obcRecoverShortBoots state.boot) :
      Visit row index turn state
        { afterDispatch index mode taskState traceOverflow state with
          mode := obcModeEnterSafe obcSafeResetLoop mode }
  | resetsMachine (mode : ModeState) (kept : ModeKept state.mode mode)
      (taskState : Nat → ObcTaskState) (traceOverflow : U32)
      (overruns : Overruns row index turn state obcRungResetMachine)
      (unspent : ¬obcShortBootLimit ≤ obcRecoverShortBoots state.boot) :
      Visit row index turn state
        { afterDispatch index mode taskState traceOverflow state with
          phase := .reset
          log := .resetNow :: .visited state.frame index true false true :: state.log }

theorem countRun_dispatched (index votes : Nat) (used : U32) (state : ExecState) :
    ∃ mode taskState traceOverflow, ModeKept state.mode mode ∧
      (taskState index).overruns = (state.taskState index).overruns ∧
      countRun index used (askModes votes (tracePush index state)) =
        { state with
          mode := mode
          taskState := taskState
          trace := pushed index state.trace
          traceOverflow := traceOverflow } := by
  obtain ⟨mode, kept, asked⟩ := askModes_kept votes (tracePush index state)
  rw [asked]
  by_cases full : obcTraceCapacity ≤ state.trace.length
  · simp only [tracePush, pushed, full, ↓reduceIte] at kept ⊢
    exact ⟨mode, _, _, kept, by simp, rfl⟩
  · simp only [tracePush, pushed, full, ↓reduceIte] at kept ⊢
    exact ⟨mode, _, _, kept, by simp, rfl⟩

theorem logSuspension_eq (task : Nat) (frame rung : U32) (state : ExecState) :
    ∃ suspensionOverflow, logSuspension task frame rung state =
      { state with
        suspensions := logged task frame rung state.suspensions
        suspensionOverflow := suspensionOverflow } := by
  simp only [logSuspension, logged]
  split
  · exact ⟨_, rfl⟩
  · exact ⟨_, rfl⟩

theorem obcRecoverEscalate_suspendTask (row : ObcTask) (task : Nat) (frame : U32)
    (state : ExecState) :
    ∃ suspensionOverflow, obcRecoverEscalate row obcRungSuspendTask task frame state =
      { state with
        suspendedTask := BitVec.ofNat 32 task
        suspendedFrame := nextDue row frame
        suspensions := logged task (nextDue row frame) obcRungSuspendTask state.suspensions
        suspensionOverflow := suspensionOverflow
        log := .suspendTask task frame (nextDue row frame) :: state.log } := by
  obtain ⟨suspensionOverflow, wrote⟩ :=
    logSuspension_eq task (nextDue row frame) obcRungSuspendTask
      { state with
        suspendedTask := BitVec.ofNat 32 task
        suspendedFrame := nextDue row frame
        log := .suspendTask task frame (nextDue row frame) :: state.log }
  exact ⟨suspensionOverflow, by rw [obcRecoverEscalate, if_pos rfl, wrote]⟩

theorem obcRecoverEscalate_resetSubsystem {row : ObcTask} (resets : row.resetFn.isSome)
    (task : Nat) (frame : U32) (state : ExecState) :
    ∃ mode suspensionOverflow, ModeKept state.mode mode ∧
      obcRecoverEscalate row obcRungResetSubsystem task frame state =
        { state with
          mode := mode
          suspensions := logged task frame obcRungResetSubsystem state.suspensions
          suspensionOverflow := suspensionOverflow
          log := .resetSubsystem task frame :: state.log } := by
  obtain ⟨resetFn, named⟩ := Option.isSome_iff_exists.mp resets
  obtain ⟨suspensionOverflow, wrote⟩ :=
    logSuspension_eq task frame obcRungResetSubsystem state
  refine ⟨_, suspensionOverflow,
    modeKept_uartPuts "recover: rung 2, subsystem reset\r\n" state.mode, ?_⟩
  rw [obcRecoverEscalate, if_neg (by decide), if_pos rfl, named, wrote]

theorem obcRecoverEscalate_resetMachine (row : ObcTask) (task : Nat) (frame : U32)
    (state : ExecState) :
    obcRecoverEscalate row obcRungResetMachine task frame state =
      if obcShortBootLimit ≤ obcRecoverShortBoots state.boot then
        { state with mode := obcModeEnterSafe obcSafeResetLoop state.mode }
      else
        { state with
          mode := uartPuts "recover: rung 3, resetting\r\n" state.mode
          phase := .reset
          log := .resetNow :: state.log } := by
  rw [obcRecoverEscalate, if_neg (by decide), if_neg (by decide), if_neg (by simp)]

theorem selectRung_resets {row : ObcTask} {overruns : U32}
    (selected : selectRung row overruns = obcRungResetSubsystem) : row.resetFn.isSome := by
  unfold selectRung at selected
  split at selected
  · cases selected
  · split at selected
    · rename_i second
      exact second.2
    · cases selected

theorem selectRung_cases (row : ObcTask) (overruns : U32) :
    selectRung row overruns = obcRungSuspendTask ∨
      selectRung row overruns = obcRungResetSubsystem ∨
      selectRung row overruns = obcRungResetMachine := by
  unfold selectRung
  split
  · exact .inl rfl
  · split
    · exact .inr (.inl rfl)
    · exact .inr (.inr rfl)

def countRan (state : ExecState) : ExecState := { state with ran := state.ran + 1 }

/-- A visit of a task that is due and not held back asks for the mode once and
dispatches. -/
theorem visitTask_goes {row : ObcTask} {index : Nat} {state : ExecState}
    (due : Due row state.frame) (asked : ¬Withheld row state)
    (free : obcRecoverIsSuspended index state.frame state = false) (turn : Turn) :
    visitTask row index turn state = countRan
      (dispatch row index state.frame turn
        { state with
          mode := (obcModeIsSafe state.mode).2
          due := state.due + 1
          log := .visited state.frame index true false row.fn.isSome :: state.log }) := by
  have answered : ((obcModeIsSafe state.mode).1 && !row.essential) = false := by
    simpa [Withheld] using asked
  have vacant : (state.suspendedTask == BitVec.ofNat 32 index &&
      state.suspendedFrame == state.frame) = false := free
  simp only [visitTask, due.1, askMode, answered, due.2, obcRecoverIsSuspended, vacant, ne_eq,
    not_true_eq_false, Bool.false_eq_true, ↓reduceIte]
  rfl

theorem visitTask_visit (row : ObcTask) (index : Nat) (turn : Turn) (state : ExecState) :
    Visit row index turn state (visitTask row index turn state) := by
  by_cases period : row.periodFrames = 0
  · simp only [visitTask, period, ↓reduceIte]
    exact .skipped state.mode (.refl _) (.inl fun due => due.1 period)
  by_cases withheld : Withheld row state
  · simp only [visitTask, period, askMode, withheld.1, withheld.2, ↓reduceIte, Bool.not_false,
      Bool.and_self]
    exact .skipped _ (modeKept_asked state.mode) (.inr withheld)
  have asked : ((obcModeIsSafe state.mode).1 && !row.essential) = false := by
    simpa [Withheld] using withheld
  by_cases modulo : state.frame % row.periodFrames = 0
  swap
  · simp only [visitTask, period, askMode, asked, modulo, ne_eq, not_false_eq_true,
      Bool.false_eq_true, ↓reduceIte]
    exact .skipped _ (modeKept_asked state.mode) (.inl fun due => modulo due.2)
  have due : Due row state.frame := ⟨period, modulo⟩
  by_cases slot : obcRecoverIsSuspended index state.frame state = true
  · have found : (state.suspendedTask == BitVec.ofNat 32 index &&
        state.suspendedFrame == state.frame) = true := slot
    simp only [visitTask, period, askMode, asked, modulo, obcRecoverIsSuspended, found, ne_eq,
      not_true_eq_false, Bool.false_eq_true, ↓reduceIte]
    exact .suspended _ (modeKept_asked state.mode) due withheld slot
  have free : obcRecoverIsSuspended index state.frame state = false := by simpa using slot
  rw [visitTask_goes due withheld free]
  cases null : row.fn with
  | none =>
      rw [dispatch, null]
      exact .nullFunction _ (modeKept_asked state.mode) due withheld free null
  | some fn =>
      have dispatches : Dispatches row index state := ⟨due, withheld, free, by simp [null]⟩
      obtain ⟨mode, taskState, traceOverflow, kept, overruns, counted⟩ :=
        countRun_dispatched index turn.votes turn.used
          { state with
            mode := (obcModeIsSafe state.mode).2
            due := state.due + 1
            log := .visited state.frame index true false true :: state.log }
      have keptAll : ModeKept state.mode mode := (modeKept_asked state.mode).trans kept
      rw [Option.isSome_some, dispatch, null]
      dsimp only
      rw [counted]
      by_cases spent : row.budgetInstr < turn.used
      swap
      · rw [if_neg spent]
        exact .within mode keptAll taskState traceOverflow dispatches spent
      rw [if_pos spent]
      simp only [countOverrun, Function.update_self, overruns]
      rcases selectRung_cases row ((state.taskState index).overruns + 1) with
        first | second | third
      · obtain ⟨suspensionOverflow, escalated⟩ :=
          obcRecoverEscalate_suspendTask row index state.frame _
        rw [first, escalated]
        exact .suspends mode keptAll _ traceOverflow suspensionOverflow
          ⟨dispatches, spent, first⟩
      · obtain ⟨quiet, suspensionOverflow, keptQuiet, escalated⟩ :=
          obcRecoverEscalate_resetSubsystem (selectRung_resets second) index state.frame _
        rw [second, escalated]
        exact .resetsSubsystem quiet (keptAll.trans keptQuiet) _ traceOverflow
          suspensionOverflow ⟨dispatches, spent, second⟩
      · rw [third, obcRecoverEscalate_resetMachine]
        by_cases streak : obcShortBootLimit ≤ obcRecoverShortBoots state.boot
        · rw [if_pos streak]
          exact .entersSafe mode keptAll _ traceOverflow ⟨dispatches, spent, third⟩ streak
        · rw [if_neg streak]
          exact .resetsMachine _ (keptAll.trans (modeKept_uartPuts _ mode)) _ traceOverflow
            ⟨dispatches, spent, third⟩ streak

/-- What only a visit of the dispatch loop changes. -/
structure LadderKept (before after : ExecState) : Prop where
  suspensions : after.suspensions = before.suspensions
  suspendedTask : after.suspendedTask = before.suspendedTask
  suspendedFrame : after.suspendedFrame = before.suspendedFrame
  trace : after.trace = before.trace
  frames : after.frames = before.frames

inductive Started (table : List ObcTask) (state after : ExecState) : Prop
  | stopped (status : ObcStatus) (phase : after.phase = .returned status)
      (early : status = .ok → ¬0 < state.frames)
      (log : after.log = .disarmHardware :: .armHardware :: state.log)
  | begun (phase : after.phase = .visit 0) (rows : 0 < table.length)
      (limit : table.length ≤ obcMaxTasks) (within : 0 < state.frames) (frame : after.frame = 0)
      (due : after.due = 0) (ran : after.ran = 0) (mode : ModeKept state.mode after.mode)
      (entry : after.safeEntryFrame =
        if (obcModeIsSafe state.mode).1 = true ∧ state.safeEntryFrame = obcSafeEntryNone then 0
        else state.safeEntryFrame)
      (log : after.log = .armHardware :: state.log)

/-- The state in which the first frame is entered. -/
def openWindow (turn : Turn) (state : ExecState) : ExecState :=
  { state with
    mode := (obcModeIsSafe state.mode).2
    slackTicksMin := obcSchedFrameTicks.setWidth 32
    windowStartTicks := turn.now.setWidth 32
    safeEntryFrame :=
      if (obcModeIsSafe state.mode).1 = true ∧ state.safeEntryFrame = obcSafeEntryNone then 0
      else state.safeEntryFrame
    frame := 0
    frameStart := turn.now
    log := .armHardware :: state.log }

theorem startWindow_cases (table : List ObcTask) (turn : Turn) (state : ExecState) :
    startWindow table turn state = returnFrom .errInvalid (state.record .armHardware) ∨
    (turn.clock ≠ .ok ∧ startWindow table turn state =
      returnFrom turn.clock (schedNow turn 0 (state.record .armHardware))) ∨
    (0 < table.length ∧ table.length ≤ obcMaxTasks ∧
      startWindow table turn state = enterFrame (openWindow turn state)) := by
  rw [startWindow]
  by_cases size : table.length = 0 ∨ obcMaxTasks < table.length
  · exact .inl (if_pos size)
  obtain ⟨rows, limit⟩ := not_or.mp size
  rw [if_neg size]
  by_cases settled : turn.clock = .ok
  swap
  · exact .inr (.inl ⟨settled, if_pos settled⟩)
  rw [if_neg (by simp [settled]), schedNow_settled settled]
  exact .inr (.inr ⟨Nat.pos_of_ne_zero rows, Nat.le_of_not_lt limit, rfl⟩)

theorem startWindow_started (table : List ObcTask) (turn : Turn) (state : ExecState) :
    LadderKept state (startWindow table turn state) ∧
      Started table state (startWindow table turn state) := by
  rcases startWindow_cases table turn state with refused | ⟨failed, ended⟩ | ⟨rows, limit, opened⟩
  · rw [refused]
    exact ⟨⟨rfl, rfl, rfl, rfl, rfl⟩, .stopped .errInvalid rfl (by simp) rfl⟩
  · obtain ⟨mode, entry, read⟩ := schedNow_cases turn 0 (state.record .armHardware)
    rw [ended, read]
    exact ⟨⟨rfl, rfl, rfl, rfl, rfl⟩, .stopped turn.clock rfl (fun ok => absurd ok failed) rfl⟩
  · rw [opened, enterFrame]
    by_cases within : 0 < state.frames
    · rw [if_pos (show (openWindow turn state).frame < (openWindow turn state).frames from within)]
      exact ⟨⟨rfl, rfl, rfl, rfl, rfl⟩, .begun rfl rows limit within rfl rfl rfl
        (modeKept_asked state.mode) rfl rfl⟩
    · rw [if_neg (show ¬(openWindow turn state).frame < (openWindow turn state).frames from within)]
      exact ⟨⟨rfl, rfl, rfl, rfl, rfl⟩, .stopped .ok rfl (fun _ => within) rfl⟩

inductive Visited (table : List ObcTask) (index : Nat) (turn : Turn) (state after : ExecState) :
    Prop
  | past (beyond : table.length ≤ index) (passed : after = { state with phase := .endPass })
  | reset (row : ObcTask) (found : table[index]? = some row)
      (visit : Visit row index turn state after) (phase : after.phase = .reset)
  | went (row : ObcTask) (found : table[index]? = some row) (visited : ExecState)
      (visit : Visit row index turn state visited)
      (passed : after = { visited with
        phase := if index + 1 < table.length then .visit (index + 1) else .endPass })

theorem visitStep_visited (table : List ObcTask) (index : Nat) (turn : Turn)
    (state : ExecState) :
    Visited table index turn state (visitStep table index turn state) := by
  cases found : table[index]? with
  | none =>
      rw [visitStep, found]
      exact .past (List.getElem?_eq_none_iff.mp found) rfl
  | some row =>
      have visit := visitTask_visit row index turn state
      rw [visitStep, found]
      by_cases ended : (visitTask row index turn state).phase = .reset
      · simp only [ended, ↓reduceIte]
        exact .reset row found visit ended
      · simp only [ended, ↓reduceIte]
        exact .went row found _ visit rfl

def passLog (table : List ObcTask) (state : ExecState) : List ExecEvent :=
  .endOfPass state.frame ::
    if state.ran + obcSuspendedThisFrame table state.frame state = state.due then
      .feedHardware state.frame :: state.log
    else state.log

theorem mem_passLog {table : List ObcTask} {state : ExecState} {event : ExecEvent} :
    event ∈ passLog table state ↔ event = .endOfPass state.frame ∨
      (event = .feedHardware state.frame ∧
        state.ran + obcSuspendedThisFrame table state.frame state = state.due) ∨
      event ∈ state.log := by
  unfold passLog
  split
  · rename_i fed
    simp [fed]
  · rename_i unfed
    simp [unfed]

inductive PassEnded (table : List ObcTask) (state after : ExecState) : Prop
  | stopped (status : ObcStatus) (unsettled : status ≠ .ok)
      (phase : after.phase = .returned status)
      (log : after.log = .disarmHardware :: passLog table state)
  | kept (phase : after.phase = .idle 0) (mode : ModeKept state.mode after.mode)
      (entry : after.safeEntryFrame = state.safeEntryFrame)
      (log : after.log = passLog table state)
  | degraded (phase : after.phase = .idle 0) (nominal : (obcModeIsSafe state.mode).1 = false)
      (mode : after.mode = obcModeEnterSafe obcSafeFrameOverrun (obcModeIsSafe state.mode).2)
      (entry : after.safeEntryFrame = state.frame) (log : after.log = passLog table state)

/-- The feed is decided and recorded before the pass's reading of the clock. -/
theorem endPassStep_fed (table : List ObcTask) (state : ExecState) :
    (if state.ran + obcSuspendedThisFrame table state.frame state = state.due then
        state.record (.feedHardware state.frame)
      else state).record (.endOfPass state.frame) =
      { state with log := passLog table state } := by
  unfold passLog
  split
  · rfl
  · rfl

theorem endPassStep_unsettled {turn : Turn} (failed : turn.clock ≠ .ok) (table : List ObcTask)
    (state : ExecState) :
    endPassStep table turn state =
      returnFrom turn.clock (schedNow turn state.frame { state with log := passLog table state }) := by
  rw [endPassStep]
  dsimp only
  rw [endPassStep_fed, if_pos failed]

/-- The reading is before the deadline: only the slack is noted. -/
theorem endPassStep_slack {turn : Turn} {state : ExecState} (settled : turn.clock = .ok)
    (early : ¬state.frameStart + obcSchedFrameTicks ≤ turn.now) (table : List ObcTask) :
    endPassStep table turn state =
      { state with
        log := passLog table state
        slackTicksMin :=
          if (state.frameStart + obcSchedFrameTicks - turn.now).setWidth 32 < state.slackTicksMin then
            (state.frameStart + obcSchedFrameTicks - turn.now).setWidth 32
          else state.slackTicksMin
        phase := .idle 0 } := by
  rw [endPassStep]
  dsimp only
  rw [endPassStep_fed, if_neg (by simp [settled]), schedNow_settled settled, if_neg early]

theorem endPassStep_early {turn : Turn} {state : ExecState} (settled : turn.clock = .ok)
    (early : ¬state.frameStart + obcSchedFrameTicks ≤ turn.now) (table : List ObcTask) :
    ∃ slack, endPassStep table turn state =
      { state with log := passLog table state, slackTicksMin := slack, phase := .idle 0 } :=
  ⟨_, endPassStep_slack settled early table⟩

/-- The reading is at the deadline or past it: a nominal vote is degraded. -/
theorem endPassStep_late {turn : Turn} {state : ExecState} (settled : turn.clock = .ok)
    (late : state.frameStart + obcSchedFrameTicks ≤ turn.now) (table : List ObcTask) :
    endPassStep table turn state =
      { state with
        log := passLog table state
        frameOverruns := state.frameOverruns + 1
        slackTicksMin := 0
        safeEntryFrame :=
          if (obcModeIsSafe state.mode).1 then state.safeEntryFrame else state.frame
        mode :=
          if (obcModeIsSafe state.mode).1 then (obcModeIsSafe state.mode).2
          else obcModeEnterSafe obcSafeFrameOverrun (obcModeIsSafe state.mode).2
        phase := .idle 0 } := by
  rw [endPassStep]
  dsimp only
  rw [endPassStep_fed, if_neg (by simp [settled]), schedNow_settled settled, if_pos late]
  cases safe : (obcModeIsSafe state.mode).1 with
  | true => simp only [askMode, safe, ↓reduceIte]
  | false => simp only [askMode, safe, Bool.false_eq_true, ↓reduceIte]

theorem endPassStep_ended (table : List ObcTask) (turn : Turn) (state : ExecState) :
    LadderKept state (endPassStep table turn state) ∧
      (endPassStep table turn state).frame = state.frame ∧
      PassEnded table state (endPassStep table turn state) := by
  by_cases settled : turn.clock = .ok
  swap
  · obtain ⟨mode, entry, read⟩ :=
      schedNow_cases turn state.frame { state with log := passLog table state }
    rw [endPassStep_unsettled settled, read]
    exact ⟨⟨rfl, rfl, rfl, rfl, rfl⟩, rfl, .stopped turn.clock settled rfl rfl⟩
  by_cases late : state.frameStart + obcSchedFrameTicks ≤ turn.now
  swap
  · obtain ⟨slack, passed⟩ := endPassStep_early settled late table
    rw [passed]
    exact ⟨⟨rfl, rfl, rfl, rfl, rfl⟩, rfl, .kept rfl (.refl state.mode) rfl rfl⟩
  rw [endPassStep_late settled late]
  cases safe : (obcModeIsSafe state.mode).1 with
  | true =>
      simp only [↓reduceIte]
      exact ⟨⟨rfl, rfl, rfl, rfl, rfl⟩, trivial, .kept rfl (modeKept_asked state.mode) rfl rfl⟩
  | false =>
      simp only [Bool.false_eq_true, ↓reduceIte]
      exact ⟨⟨rfl, rfl, rfl, rfl, rfl⟩, trivial, .degraded rfl safe rfl rfl rfl⟩

inductive Idled (state after : ExecState) : Prop
  | stopped (status : ObcStatus) (unsettled : status ≠ .ok)
      (phase : after.phase = .returned status)
      (log : after.log = .disarmHardware :: state.log)
  | waits (guard : Nat) (waited : after = { state with phase := .idle guard })
  | entered (phase : after.phase = .visit 0) (within : state.frame + 1 < state.frames)
      (frame : after.frame = state.frame + 1) (due : after.due = 0) (ran : after.ran = 0)
      (mode : after.mode = state.mode) (entry : after.safeEntryFrame = state.safeEntryFrame)
      (log : after.log = state.log)
  | finished (phase : after.phase = .returned .ok) (last : ¬state.frame + 1 < state.frames)
      (entry : after.safeEntryFrame = state.safeEntryFrame)
      (log : after.log = .disarmHardware :: state.log)

/-- A poll of the idle loop that gets a reading waits on, gives up, or moves to the next
frame on the absolute schedule. -/
theorem idleStep_settled {turn : Turn} (settled : turn.clock = .ok) (guard : Nat)
    (state : ExecState) :
    idleStep guard turn state =
      if state.frameStart + obcSchedFrameTicks ≤ turn.now then
        enterFrame
          { state with
            frameStart := state.frameStart + obcSchedFrameTicks
            framesRun := state.framesRun + 1
            frame := state.frame + 1 }
      else if guard + 1 < idleGuardLimit then { state with phase := .idle (guard + 1) }
      else returnFrom .errTimeout state := by
  rw [idleStep, if_neg (by simp [settled]), schedNow_settled settled]

theorem idleStep_cases (guard : Nat) (turn : Turn) (state : ExecState) :
    (turn.clock ≠ .ok ∧
      idleStep guard turn state = returnFrom turn.clock (schedNow turn state.frame state)) ∨
    idleStep guard turn state = returnFrom .errTimeout state ∨
    (∃ next, idleStep guard turn state = { state with phase := .idle next }) ∨
    idleStep guard turn state = enterFrame
      { state with
        frameStart := state.frameStart + obcSchedFrameTicks
        framesRun := state.framesRun + 1
        frame := state.frame + 1 } := by
  by_cases settled : turn.clock = .ok
  swap
  · exact .inl ⟨settled, if_pos settled⟩
  rw [idleStep_settled settled]
  split
  · exact .inr (.inr (.inr rfl))
  split
  · exact .inr (.inr (.inl ⟨guard + 1, rfl⟩))
  · exact .inr (.inl rfl)

theorem idleStep_idled (guard : Nat) (turn : Turn) (state : ExecState) :
    LadderKept state (idleStep guard turn state) ∧ Idled state (idleStep guard turn state) := by
  rcases idleStep_cases guard turn state with
    ⟨failed, ended⟩ | spent | ⟨next, waits⟩ | advances
  · obtain ⟨mode, entry, read⟩ := schedNow_cases turn state.frame state
    rw [ended, read]
    exact ⟨⟨rfl, rfl, rfl, rfl, rfl⟩, .stopped turn.clock failed rfl rfl⟩
  · rw [spent]
    exact ⟨⟨rfl, rfl, rfl, rfl, rfl⟩, .stopped .errTimeout (by simp) rfl rfl⟩
  · rw [waits]
    exact ⟨⟨rfl, rfl, rfl, rfl, rfl⟩, .waits next rfl⟩
  rw [advances, enterFrame]
  by_cases within : state.frame + 1 < state.frames
  · rw [if_pos within]
    exact ⟨⟨rfl, rfl, rfl, rfl, rfl⟩, .entered rfl within rfl rfl rfl rfl rfl rfl⟩
  · rw [if_neg within]
    exact ⟨⟨rfl, rfl, rfl, rfl, rfl⟩, .finished rfl within rfl rfl⟩

end ObcZero
