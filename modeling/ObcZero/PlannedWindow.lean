import ObcZero.CyclicPlan
import ObcZero.SchedRun

/-! A nominal window in which nothing is late, against the plan of its table:
which rows are dispatched, in what order and how often, and what the trace and
the counters keep of it. -/

namespace ObcZero

open CyclicPlan StepSystem

def dispatchedRow : ExecEvent → Option Nat
  | .visited _ task _ _ true => some task
  | _ => none

/-- The rows a run dispatched, oldest first. -/
def dispatches (log : List ExecEvent) : List Nat :=
  log.reverse.filterMap dispatchedRow

theorem dispatches_cons (event : ExecEvent) (log : List ExecEvent) :
    dispatches (event :: log) = dispatches log ++ (dispatchedRow event).toList := by
  cases shown : dispatchedRow event <;>
    simp [dispatches, List.filterMap_append, shown]

/-- What the trace and the counters hold after the rows `dispatched`. -/
structure Tallied (dispatched : List Nat) (state : ExecState) : Prop where
  logged : dispatches state.log = dispatched
  trace : state.trace = (dispatched.take obcTraceCapacity).map (BitVec.ofNat 8)
  overflow : state.traceOverflow = BitVec.ofNat 32 (dispatched.length - obcTraceCapacity)
  runs : ∀ task, (state.taskState task).runs = BitVec.ofNat 32 (dispatched.count task)

/-- The fields `Tallied` speaks of. -/
structure SameTally (before after : ExecState) : Prop where
  logged : dispatches after.log = dispatches before.log
  trace : after.trace = before.trace
  overflow : after.traceOverflow = before.traceOverflow
  taskState : after.taskState = before.taskState

theorem Tallied.same {dispatched : List Nat} {before after : ExecState}
    (tallied : Tallied dispatched before) (same : SameTally before after) :
    Tallied dispatched after := by
  constructor
  · rw [same.logged, tallied.logged]
  · rw [same.trace, tallied.trace]
  · rw [same.overflow, tallied.overflow]
  · rw [same.taskState]
    exact tallied.runs

theorem Tallied.pushed {dispatched : List Nat} {state : ExecState}
    (tallied : Tallied dispatched state) (index votes : Nat) (frame used : U32) :
    Tallied (dispatched ++ [index]) (countRun index used (askModes votes (tracePush index
      (state.record (.visited frame index true false true))))) := by
  obtain ⟨logged, trace, overflow, runs⟩ := tallied
  have size : state.trace.length = min obcTraceCapacity dispatched.length := by
    rw [trace, List.length_map, List.length_take]
  obtain ⟨mode, _, asked⟩ := askModes_kept votes
    (tracePush index (state.record (.visited frame index true false true)))
  rw [asked]
  have counted (before : Nat → ObcTaskState) (same : before = state.taskState) (task : Nat) :
      (Function.update before index
        { before index with
          runs := (before index).runs + 1
          maxInstr := if (before index).maxInstr < used then used else (before index).maxInstr }
        task).runs = BitVec.ofNat 32 ((dispatched ++ [index]).count task) := by
    subst same
    by_cases here : task = index
    · subst here
      simp [runs, List.count_append, BitVec.ofNat_add]
    · simp [here, runs, List.count_append, Ne.symm here]
  by_cases full : obcTraceCapacity ≤ state.trace.length
  · have spilled : obcTraceCapacity ≤ dispatched.length := by omega
    simp only [tracePush, ExecState.record, full, ↓reduceIte, countRun]
    refine ⟨?_, ?_, ?_, counted _ rfl⟩
    · simp [dispatches_cons, dispatchedRow, logged]
    · rw [List.take_append_of_le_length spilled]
      exact trace
    · rw [List.length_append, List.length_singleton, Nat.sub_add_comm spilled, BitVec.ofNat_add]
      exact congrArg (· + 1) overflow
  · have room : dispatched.length < obcTraceCapacity := by omega
    simp only [tracePush, ExecState.record, full, ↓reduceIte, countRun]
    refine ⟨?_, ?_, ?_, counted _ rfl⟩
    · simp [dispatches_cons, dispatchedRow, logged]
    · rw [List.take_of_length_le (by simp; omega), List.map_append]
      rw [trace, List.take_of_length_le (by omega)]
      rfl
    · rw [Nat.sub_eq_zero_of_le (by simp; omega)]
      rw [Nat.sub_eq_zero_of_le (by omega)] at overflow
      exact overflow

theorem tallied_of_skip {dispatched : List Nat} {state after : ExecState}
    (tallied : Tallied dispatched state) {frame : U32} {index : Nat} {due suspended : Bool}
    (log : after.log = .visited frame index due suspended false :: state.log)
    (trace : after.trace = state.trace) (overflow : after.traceOverflow = state.traceOverflow)
    (taskState : after.taskState = state.taskState) : Tallied dispatched after := by
  refine tallied.same ⟨?_, trace, overflow, taskState⟩
  rw [log, dispatches_cons]
  exact List.append_nil _

/-- Whether the visit of a row dispatches it and finds it over its budget. -/
def OverBudget (row : ObcTask) (index : Nat) (turn : Turn) (state : ExecState) : Prop :=
  Dispatches row index state ∧ row.budgetInstr < turn.used

instance (row : ObcTask) (index : Nat) (turn : Turn) (state : ExecState) :
    Decidable (OverBudget row index turn state) := inferInstanceAs (Decidable (_ ∧ _))

theorem visitTask_tallied {row : ObcTask} {index : Nat} {turn : Turn} {state : ExecState}
    {dispatched : List Nat} (thrifty : ¬OverBudget row index turn state)
    (tallied : Tallied dispatched state) :
    Tallied (dispatched ++ if Dispatches row index state then [index] else [])
      (visitTask row index turn state) := by
  by_cases goes : Dispatches row index state
  · obtain ⟨due, asked, free, present⟩ := id goes
    have within : ¬row.budgetInstr < turn.used := fun spent => thrifty ⟨goes, spent⟩
    obtain ⟨fn, named⟩ := Option.isSome_iff_exists.mp present
    have counted : Tallied dispatched
        { state with mode := (obcModeIsSafe state.mode).2, due := state.due + 1 } :=
      tallied.same ⟨rfl, rfl, rfl, rfl⟩
    rw [if_pos goes, visitTask_goes due asked free, named, Option.isSome_some]
    simp only [dispatch, named, if_neg within]
    exact (counted.pushed index turn.votes state.frame turn.used).same ⟨rfl, rfl, rfl, rfl⟩
  · rw [if_neg goes, List.append_nil]
    generalize afterEq : visitTask row index turn state = after
    have visit := visitTask_visit row index turn state
    rw [afterEq] at visit
    cases visit with
    | skipped => exact tallied_of_skip tallied rfl rfl rfl rfl
    | suspended => exact tallied_of_skip tallied rfl rfl rfl rfl
    | nullFunction => exact tallied_of_skip tallied rfl rfl rfl rfl
    | within _ _ _ _ dispatches => exact absurd dispatches goes
    | suspends _ _ _ _ _ overruns => exact absurd overruns.1 goes
    | resetsSubsystem _ _ _ _ _ overruns => exact absurd overruns.1 goes
    | entersSafe _ _ _ _ overruns => exact absurd overruns.1 goes
    | resetsMachine _ _ _ _ overruns => exact absurd overruns.1 goes

/-- A step of a run with no budget and no frame overrun, through which what
reaches the mode's copies does not change the answer of its vote. -/
def Unhurried (table : List ObcTask) : ExecInput → ExecState → Prop
  | .corrupt index copy, state =>
      (obcModeIsSafe (execStep table (.corrupt index copy) state).mode).1 =
        (obcModeIsSafe state.mode).1
  | .turn turn, state =>
      AtVisit table (fun row index turn state => ¬OverBudget row index turn state) (.turn turn)
        state ∧
      (state.phase = .endPass → turn.clock = .ok →
        turn.now < state.frameStart + obcSchedFrameTicks)

instance (table : List ObcTask) (input : ExecInput) (state : ExecState) :
    Decidable (Unhurried table input state) :=
  match input with
  | .corrupt _ _ => inferInstanceAs (Decidable (_ = _))
  | .turn _ => inferInstanceAs (Decidable (_ ∧ (_ → _ → _)))

def periods (table : List ObcTask) : List Nat :=
  table.map fun row => row.periodFrames.toNat

/-- How a nominal run stands that has visited the rows before `position`. -/
structure Planned (table : List ObcTask) (frames : U32) (position : Nat) (state : ExecState) :
    Prop where
  window : state.frames = frames
  unsuspended : state.suspendedTask = 0xFFFFFFFF
  paced : state.framesRun = state.frame
  tallied : Tallied (planUpTo (periods table) state.frame.toNat position) state

/-- How a nominal run stands that has returned in good order. -/
structure WindowRun (table : List ObcTask) (frames : U32) (state : ExecState) : Prop where
  limit : table.length ≤ obcMaxTasks
  paced : state.framesRun = frames
  tallied : Tallied (plan (periods table) frames.toNat) state

def Nominally (holds : ExecState → Prop) (state : ExecState) : Prop :=
  (obcModeIsSafe state.mode).1 = false → holds state

def OnPlan (table : List ObcTask) (frames : U32) : ExecState → Prop :=
  Tracks table (fun position => Nominally (Planned table frames position)) fun state =>
    state.phase = .returned .ok → Nominally (WindowRun table frames) state

theorem Planned.same {table : List ObcTask} {frames : U32} {position : Nat}
    {before after : ExecState}
    (planned : Planned table frames position before) (same : SameTally before after)
    (suspendedTask : after.suspendedTask = before.suspendedTask)
    (framesRun : after.framesRun = before.framesRun) (frame : after.frame = before.frame)
    (window : after.frames = before.frames) : Planned table frames position after := by
  constructor
  · rw [window, planned.window]
  · rw [suspendedTask, planned.unsuspended]
  · rw [framesRun, frame, planned.paced]
  · rw [frame]
    exact planned.tallied.same same

theorem periods_getD {table : List ObcTask} {index : Nat} {row : ObcTask}
    (found : table[index]? = some row) :
    (periods table).getD index 0 = row.periodFrames.toNat := by
  simp [periods, List.getD_eq_getElem?_getD, List.getElem?_map, found]

theorem due_iff_planned {table : List ObcTask} {index : Nat} {row : ObcTask}
    (found : table[index]? = some row) (frame : U32) :
    Due row frame ↔ due frame.toNat ((periods table).getD index 0) = true := by
  rw [periods_getD found, due_iff, Due]
  constructor
  · rintro ⟨period, modulo⟩
    exact ⟨fun zero => period (BitVec.eq_of_toNat_eq zero), by
      simpa using congrArg BitVec.toNat modulo⟩
  · rintro ⟨period, modulo⟩
    refine ⟨fun zero => period (by simp [zero]), BitVec.eq_of_toNat_eq ?_⟩
    simpa using modulo

/-- In a nominal run nothing is withheld and nothing is suspended, so the rows
dispatched are the ones the plan has. -/
theorem Planned.dispatches_iff {table : List ObcTask} {frames : U32} {index : Nat} {row : ObcTask}
    {state : ExecState} (planned : Planned table frames index state)
    (nominal : (obcModeIsSafe state.mode).1 = false) (found : table[index]? = some row)
    (limit : table.length ≤ obcMaxTasks) (present : row.fn.isSome) :
    Dispatches row index state ↔
      due state.frame.toNat ((periods table).getD index 0) = true := by
  rw [← due_iff_planned found]
  refine ⟨fun goes => goes.1, fun isDue => ⟨isDue, ?_, ?_, present⟩⟩
  · rintro ⟨safe, _⟩
    rw [nominal] at safe
    cases safe
  · have inside : index < table.length := (List.getElem?_eq_some_iff.mp found).1
    have apart : (0xFFFFFFFF : U32) ≠ BitVec.ofNat 32 index := by
      intro same
      have value : 4294967295 = index % 2 ^ 32 := congrArg BitVec.toNat same
      have bound : obcMaxTasks = 8 := rfl
      omega
    rw [obcRecoverIsSuspended, planned.unsuspended, beq_eq_false_iff_ne.mpr apart, Bool.false_and]

/-- What a visit that stays within its budget leaves alone. -/
structure VisitedCalmly (before after : ExecState) : Prop where
  mode : ModeKept before.mode after.mode
  suspendedTask : after.suspendedTask = before.suspendedTask
  framesRun : after.framesRun = before.framesRun
  frame : after.frame = before.frame
  frames : after.frames = before.frames
  frameStart : after.frameStart = before.frameStart
  phase : after.phase = before.phase

theorem Visit.calm {row : ObcTask} {index : Nat} {turn : Turn} {state after : ExecState}
    (visit : Visit row index turn state after) (thrifty : ¬OverBudget row index turn state) :
    VisitedCalmly state after := by
  have spent {rung : U32} (overruns : Overruns row index turn state rung) :
      OverBudget row index turn state := ⟨overruns.1, overruns.2.1⟩
  cases visit with
  | skipped _ kept => exact ⟨kept, rfl, rfl, rfl, rfl, rfl, rfl⟩
  | suspended _ kept => exact ⟨kept, rfl, rfl, rfl, rfl, rfl, rfl⟩
  | nullFunction _ kept => exact ⟨kept, rfl, rfl, rfl, rfl, rfl, rfl⟩
  | within _ kept => exact ⟨kept, rfl, rfl, rfl, rfl, rfl, rfl⟩
  | suspends _ _ _ _ _ overruns => exact absurd (spent overruns) thrifty
  | resetsSubsystem _ _ _ _ _ overruns => exact absurd (spent overruns) thrifty
  | entersSafe _ _ _ _ overruns => exact absurd (spent overruns) thrifty
  | resetsMachine _ _ _ _ overruns => exact absurd (spent overruns) thrifty

theorem visitTask_planned {table : List ObcTask} {frames : U32} {index : Nat} {row : ObcTask}
    {turn : Turn} {state : ExecState} (planned : Nominally (Planned table frames index) state)
    (found : table[index]? = some row) (limit : table.length ≤ obcMaxTasks)
    (present : row.fn.isSome) (thrifty : ¬OverBudget row index turn state) :
    Nominally (Planned table frames (index + 1)) (visitTask row index turn state) := by
  have calm := (visitTask_visit row index turn state).calm thrifty
  intro nominal
  rw [calm.mode.answer] at nominal
  have before := planned nominal
  constructor
  · rw [calm.frames, before.window]
  · rw [calm.suspendedTask, before.unsuspended]
  · rw [calm.framesRun, calm.frame, before.paced]
  · have tallied := visitTask_tallied thrifty before.tallied
    simp only [before.dispatches_iff nominal found limit present] at tallied
    rwa [calm.frame, planUpTo_succ]

theorem visitStep_onPlan {table : List ObcTask} {frames : U32}
    (present : ∀ row ∈ table, row.fn.isSome) {index : Nat} {turn : Turn} {state : ExecState} (phase : state.phase = .visit index)
    (allowed : Unhurried table (.turn turn) state) (onPlan : OnPlan table frames state) :
    OnPlan table frames (visitStep table index turn state) := by
  simp only [OnPlan, Tracks, phase] at onPlan
  obtain ⟨running, inside, planned⟩ := onPlan
  have found : table[index]? = some table[index] := List.getElem?_eq_getElem inside
  have thrifty := allowed.1.row phase found
  have calm := (visitTask_visit table[index] index turn state).calm thrifty
  have next := visitTask_planned planned found running.limit
    (present _ (List.getElem_mem inside)) thrifty
  have within : (visitTask table[index] index turn state).frame <
      (visitTask table[index] index turn state).frames := by
    rw [calm.frame, calm.frames]
    exact running.within
  have going : (visitTask table[index] index turn state).phase ≠ .reset := by
    rw [calm.phase, phase]
    simp
  rw [visitStep, found]
  simp only [going, ↓reduceIte]
  by_cases more : index + 1 < table.length
  · rw [if_pos more]
    exact ⟨⟨running.rows, running.limit, within⟩, more, fun nominal =>
      (next nominal).same ⟨rfl, rfl, rfl, rfl⟩ rfl rfl rfl rfl⟩
  · have last : index + 1 = table.length := by omega
    rw [if_neg more]
    rw [last] at next
    exact ⟨⟨running.rows, running.limit, within⟩, fun nominal =>
      (next nominal).same ⟨rfl, rfl, rfl, rfl⟩ rfl rfl rfl rfl⟩

/-- A run that has returned anything else owes nothing. -/
theorem returned_onPlan {table : List ObcTask} {frames : U32} {status : ObcStatus} {state : ExecState}
    (returned : state.phase = .returned status) (unsettled : status ≠ .ok) :
    OnPlan table frames state := by
  simp only [OnPlan, Tracks, returned, Phase.returned.injEq]
  exact fun ok => absurd ok unsettled

/-- A frame begun, or the window over: the rows of every earlier frame are
dispatched. -/
theorem enterFrame_onPlan {table : List ObcTask} {frames : U32} {state : ExecState}
    (rows : 0 < table.length) (limit : table.length ≤ obcMaxTasks) (within : state.frame ≤ state.frames)
    (planned : Nominally (Planned table frames 0) state) : OnPlan table frames (enterFrame state) := by
  rw [enterFrame]
  by_cases more : state.frame < state.frames
  · rw [if_pos more]
    exact ⟨⟨rows, limit, more⟩, rows, fun nominal =>
      (planned nominal).same ⟨rfl, rfl, rfl, rfl⟩ rfl rfl rfl rfl⟩
  · have last : state.frame = state.frames := by bv_omega
    rw [if_neg more]
    intro _ nominal
    obtain ⟨window, _, paced, tallied⟩ := planned nominal
    rw [planUpTo_zero, last, window] at tallied
    refine ⟨limit, (paced.trans last).trans window, tallied.same ⟨?_, rfl, rfl, rfl⟩⟩
    simp [returnFrom, dispatches_cons, dispatchedRow]

theorem startWindow_onPlan {table : List ObcTask} {frames : U32} {state : ExecState}
    (turn : Turn) (phase : state.phase = .start) (onPlan : OnPlan table frames state) :
    OnPlan table frames (startWindow table turn state) := by
  simp only [OnPlan, Tracks, phase] at onPlan
  obtain ⟨first, planned⟩ := onPlan
  rcases startWindow_cases table turn state with refused | ⟨failed, ended⟩ | ⟨rows, limit, opened⟩
  · rw [refused]
    exact @returned_onPlan table frames .errInvalid _ rfl (by simp)
  · rw [ended]
    exact @returned_onPlan table frames turn.clock _ rfl failed
  rw [opened]
  refine enterFrame_onPlan rows limit (BitVec.le_def.mpr (Nat.zero_le _)) fun nominal => ?_
  have before : (obcModeIsSafe state.mode).1 = false := by
    rw [← obcModeIsSafe_again]
    exact nominal
  refine (planned before).same ⟨?_, rfl, rfl, rfl⟩ rfl rfl first.symm rfl
  simp [openWindow, dispatches_cons, dispatchedRow]

theorem dispatches_passLog (table : List ObcTask) (state : ExecState) :
    dispatches (passLog table state) = dispatches state.log := by
  unfold passLog
  split <;> simp [dispatches_cons, dispatchedRow]

theorem endPassStep_onPlan {table : List ObcTask} {frames : U32} {turn : Turn} {state : ExecState}
    (phase : state.phase = .endPass) (allowed : Unhurried table (.turn turn) state)
    (onPlan : OnPlan table frames state) : OnPlan table frames (endPassStep table turn state) := by
  simp only [OnPlan, Tracks, phase] at onPlan
  obtain ⟨running, planned⟩ := onPlan
  by_cases settled : turn.clock = .ok
  swap
  · rw [endPassStep_unsettled settled]
    exact @returned_onPlan table frames turn.clock _ rfl settled
  obtain ⟨slack, passed⟩ :=
    endPassStep_early settled (BitVec.not_le.mpr (allowed.2 phase settled)) table
  rw [passed]
  refine ⟨⟨running.rows, running.limit, running.within⟩, fun nominal => ?_⟩
  obtain ⟨window, unsuspended, paced, tallied⟩ := planned nominal
  have length : (periods table).length = table.length := List.length_map ..
  refine ⟨window, unsuspended, paced, ?_⟩
  rw [← length, planUpTo_length] at tallied
  rw [← length, planUpTo_past]
  exact tallied.same ⟨dispatches_passLog table state, rfl, rfl, rfl⟩

theorem idleStep_onPlan {table : List ObcTask} {frames : U32} {guard : Nat} (turn : Turn)
    {state : ExecState} (phase : state.phase = .idle guard)
    (onPlan : OnPlan table frames state) : OnPlan table frames (idleStep guard turn state) := by
  simp only [OnPlan, Tracks, phase] at onPlan
  obtain ⟨running, planned⟩ := onPlan
  have within := running.within
  rcases idleStep_cases guard turn state with
    ⟨failed, ended⟩ | spent | ⟨next, waits⟩ | advances
  · rw [ended]
    exact @returned_onPlan table frames turn.clock _ rfl failed
  · rw [spent]
    exact @returned_onPlan table frames .errTimeout _ rfl (by simp)
  · rw [waits]
    exact ⟨⟨running.rows, running.limit, running.within⟩, fun nominal =>
      (planned nominal).same ⟨rfl, rfl, rfl, rfl⟩ rfl rfl rfl rfl⟩
  · have passed := toNat_succ_frame running.within
    have length : (periods table).length = table.length := List.length_map ..
    have later : state.frame + 1 ≤ state.frames := by bv_omega
    rw [advances]
    refine enterFrame_onPlan running.rows running.limit later fun nominal => ?_
    obtain ⟨window, unsuspended, paced, tallied⟩ := planned nominal
    refine ⟨window, unsuspended, congrArg (· + 1) paced, ?_⟩
    rw [← length, planUpTo_past] at tallied
    show Tallied (planUpTo (periods table) (state.frame + 1).toNat 0) _
    rw [passed, planUpTo_zero]
    exact tallied.same ⟨rfl, rfl, rfl, rfl⟩

theorem Nominally.answered {holds holdsAfter : ExecState → Prop} {before after : ExecState}
    (nominally : Nominally holds before)
    (answer : (obcModeIsSafe after.mode).1 = (obcModeIsSafe before.mode).1)
    (moved : holds before → holdsAfter after) : Nominally holdsAfter after :=
  fun nominal => moved (nominally (answer.symm.trans nominal))

theorem execStep_onPlan {table : List ObcTask} {frames : U32}
    (present : ∀ row ∈ table, row.fn.isSome) (input : ExecInput) (state : ExecState) (allowed : Unhurried table input state)
    (onPlan : OnPlan table frames state) : OnPlan table frames (execStep table input state) := by
  cases input with
  | corrupt index copy =>
      have struck {position : Nat} (planned : Planned table frames position state) :
          Planned table frames position (execStep table (.corrupt index copy) state) :=
        planned.same ⟨rfl, rfl, rfl, rfl⟩ rfl rfl rfl rfl
      have same : (execStep table (.corrupt index copy) state).phase = state.phase := rfl
      have still (running : Running table state) :
          Running table (execStep table (.corrupt index copy) state) :=
        ⟨running.rows, running.limit, running.within⟩
      cases phase : state.phase <;> rw [phase] at same <;>
        simp only [OnPlan, Tracks, phase, same] at onPlan ⊢
      · exact ⟨onPlan.1, onPlan.2.answered allowed struck⟩
      · exact ⟨still onPlan.1, onPlan.2.1, onPlan.2.2.answered allowed struck⟩
      · exact ⟨still onPlan.1, onPlan.2.answered allowed struck⟩
      · exact ⟨still onPlan.1, onPlan.2.answered allowed struck⟩
      · exact fun ok => (onPlan ok).answered allowed fun planned =>
          ⟨planned.limit, planned.paced, planned.tallied.same ⟨rfl, rfl, rfl, rfl⟩⟩
      · exact fun ok => by cases ok
  | turn turn =>
      cases phase : state.phase with
      | start => simpa only [execStep, execTurn, phase] using
          startWindow_onPlan turn phase onPlan
      | visit index =>
          simpa only [execStep, execTurn, phase] using
            visitStep_onPlan present phase allowed onPlan
      | endPass =>
          simpa only [execStep, execTurn, phase] using endPassStep_onPlan phase allowed onPlan
      | idle guard =>
          simpa only [execStep, execTurn, phase] using idleStep_onPlan turn phase onPlan
      | returned status => simpa only [execStep, execTurn, phase] using onPlan
      | reset => simpa only [execStep, execTurn, phase] using onPlan

theorem planned_fresh (table : List ObcTask) (frames : U32) (mode : ModeState)
    (boot : ObcBootRecord) : OnPlan table frames (freshExec frames mode boot) := by
  refine ⟨rfl, fun _ => ⟨rfl, rfl, rfl, ?_⟩⟩
  show Tallied (planUpTo (periods table) 0 0) _
  rw [planUpTo_zero]
  exact ⟨rfl, rfl, by simp [plan, freshExec], fun _ => rfl⟩

/-- The dispatches a window owes beyond what its trace can hold. -/
def leftOut (table : List ObcTask) (frames : U32) : Nat :=
  ((periods table).map fun period => frames.toNat ⌈/⌉ period).sum - obcTraceCapacity

/-- What the executive promises of a window: each row as often as its period
fits, in the order of the plan, of which the trace keeps the beginning. -/
structure RunsThePlan (table : List ObcTask) (frames : U32) (final : ExecState) : Prop where
  runs : ∀ index row, table[index]? = some row → (final.taskState index).runs.toNat =
    if row.periodFrames = 0 then 0 else frames.toNat ⌈/⌉ row.periodFrames.toNat
  order : dispatches final.log = plan (periods table) frames.toNat
  trace : final.trace.map BitVec.toNat = (dispatches final.log).take obcTraceCapacity
  framesRun : final.framesRun = frames

theorem ceilDiv_lt (frames : U32) (period : Nat) : frames.toNat ⌈/⌉ period < 2 ^ 32 := by
  rcases Nat.eq_zero_or_pos period with rfl | positive
  · simp
  · have bound : frames.toNat ⌈/⌉ period ≤ frames.toNat :=
      (ceilDiv_le_iff_le_mul positive).mpr (Nat.le_mul_of_pos_left _ positive)
    exact bound.trans_lt frames.isLt

theorem WindowRun.runsThePlan {table : List ObcTask} {frames : U32} {final : ExecState}
    (windowRun : WindowRun table frames final) : RunsThePlan table frames final := by
  obtain ⟨limit, paced, logged, trace, overflow, runs⟩ := windowRun
  constructor
  · intro index row found
    rw [runs, count_plan, periods_getD found, BitVec.toNat_ofNat,
      Nat.mod_eq_of_lt (ceilDiv_lt frames _)]
    by_cases never : row.periodFrames = 0
    · simp [never]
    · rw [if_neg never]
  · exact logged
  · rw [trace, logged, List.map_map]
    refine (List.map_congr_left fun row member => ?_).trans (List.map_id _)
    have inside := lt_of_mem_plan (List.mem_of_mem_take member)
    rw [periods, List.length_map] at inside
    have bound : obcMaxTasks = 8 := rfl
    simp only [Function.comp_apply, BitVec.toNat_ofNat, id_eq]
    omega
  · exact paced

theorem WindowRun.overflow_iff {table : List ObcTask} {frames : U32} {final : ExecState}
    (windowRun : WindowRun table frames final) :
    final.traceOverflow.toNat = leftOut table frames ↔ leftOut table frames < 2 ^ 32 := by
  rw [windowRun.tallied.overflow, length_plan]
  exact counter_exact_iff (leftOut table frames)

theorem run_onPlan {table : List ObcTask} (present : ∀ row ∈ table, row.fn.isSome)
    {frames : U32} {mode : ModeState} {boot : ObcBootRecord} {inputs : List ExecInput}
    (meets : Meets (execStep table) (Unhurried table) inputs (freshExec frames mode boot))
    (returned : (run (execStep table) inputs (freshExec frames mode boot)).phase = .returned .ok)
    (nominal : (obcModeIsSafe (run (execStep table) inputs
      (freshExec frames mode boot)).mode).1 = false) :
    WindowRun table frames (run (execStep table) inputs (freshExec frames mode boot)) := by
  have onPlan := meets_invariant (execStep_onPlan present) meets
    (planned_fresh table frames mode boot)
  simp only [OnPlan, Tracks, returned] at onPlan
  exact onPlan trivial nominal

end ObcZero
