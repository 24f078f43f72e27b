import ObcZero.PlannedWindow

/-! What the trace and the counters of the executive say of the dispatches it made, over
any run: late or punctual, nominal or degraded, overrunning or not. -/

namespace ObcZero

open StepSystem

/-- A dispatch, with the instructions its task retired. -/
structure DispatchEntry where
  task : Nat
  used : U32
  deriving DecidableEq, Repr

def dispatchEntries (table : List ObcTask) : ExecInput → ExecState → List DispatchEntry
  | .corrupt _ _, _ => []
  | .turn turn, state =>
      match state.phase with
      | .visit index =>
          match table[index]? with
          | some row =>
              if Dispatches row index state then [{ task := index, used := turn.used }] else []
          | none => []
      | _ => []

/-- The dispatches of a run, oldest first. -/
def dispatchRecord (table : List ObcTask) (inputs : List ExecInput) (begun : ExecState) :
    List DispatchEntry :=
  emissions (execStep table) (dispatchEntries table) inputs begun

def overBudget (row : ObcTask) (entry : DispatchEntry) : Bool := decide (row.budgetInstr < entry.used)

def entriesOf (index : Nat) (entries : List DispatchEntry) : List DispatchEntry :=
  entries.filter fun entry => entry.task == index

/-- The figures of one task after its dispatches `entries`. -/
structure Figures (row : ObcTask) (entries : List DispatchEntry) (figures : ObcTaskState) : Prop where
  overruns : figures.overruns = BitVec.ofNat 32 (entries.countP (overBudget row))
  bound : ∀ entry ∈ entries, entry.used ≤ figures.maxInstr
  attained : figures.maxInstr = 0 ∨ ∃ entry ∈ entries, entry.used = figures.maxInstr

structure Booked (table : List ObcTask) (entries : List DispatchEntry) (state : ExecState) : Prop where
  tallied : Tallied (entries.map DispatchEntry.task) state
  rows : ∀ entry ∈ entries, entry.task < table.length
  figures : ∀ index row, table[index]? = some row →
    Figures row (entriesOf index entries) (state.taskState index)

theorem Booked.same {table : List ObcTask} {entries : List DispatchEntry} {before after : ExecState}
    (booked : Booked table entries before) (same : SameTally before after) :
    Booked table entries after := by
  refine ⟨booked.tallied.same same, booked.rows, ?_⟩
  rw [same.taskState]
  exact booked.figures

theorem entriesOf_append (index : Nat) (entries : List DispatchEntry) (entry : DispatchEntry) :
    entriesOf index (entries ++ [entry]) =
      entriesOf index entries ++ if entry.task = index then [entry] else [] := by
  rw [entriesOf, List.filter_append, entriesOf]
  by_cases here : entry.task = index
  · simp [here]
  · simp [here]

/-- What a dispatch makes of the figures of its task. -/
def figuresAfter (row : ObcTask) (used : U32) (figures : ObcTaskState) : ObcTaskState :=
  { runs := figures.runs + 1
    overruns := if row.budgetInstr < used then figures.overruns + 1 else figures.overruns
    maxInstr := if figures.maxInstr < used then used else figures.maxInstr }

theorem Figures.dispatched {row : ObcTask} {entries : List DispatchEntry} {figures : ObcTaskState}
    (told : Figures row entries figures) (entry : DispatchEntry) :
    Figures row (entries ++ [entry]) (figuresAfter row entry.used figures) := by
  obtain ⟨overruns, bound, attained⟩ := told
  constructor
  · rw [List.countP_append, List.countP_singleton, figuresAfter]
    by_cases spent : row.budgetInstr < entry.used
    · simp [overBudget, spent, overruns, BitVec.ofNat_add]
    · simp [overBudget, spent, overruns]
  · intro other member
    rw [figuresAfter]
    dsimp only
    rcases List.mem_append.mp member with earlier | here
    · have before := bound other earlier
      split
      · rename_i higher
        exact BitVec.le_trans before (BitVec.le_of_lt higher)
      · exact before
    · rw [List.mem_singleton.mp here]
      split
      · exact BitVec.le_refl _
      · rename_i lower
        exact BitVec.not_lt.mp lower
  · rw [figuresAfter]
    dsimp only
    split
    · exact .inr ⟨entry, by simp, rfl⟩
    · rcases attained with zero | ⟨other, member, same⟩
      · exact .inl zero
      · exact .inr ⟨other, List.mem_append_left _ member, same⟩

/-- The fields of the ladder's state apart, an escalation changes what a tally speaks of
in no way. -/
theorem obcRecoverEscalate_sameTally (row : ObcTask) (rung : U32) (task : Nat) (frame : U32)
    (state : ExecState) : SameTally state (obcRecoverEscalate row rung task frame state) := by
  have logged (rung : U32) (due : U32) (before : ExecState) :
      SameTally before (logSuspension task due rung before) := by
    rw [logSuspension]
    split
    · exact ⟨rfl, rfl, rfl, rfl⟩
    · exact ⟨rfl, rfl, rfl, rfl⟩
  rw [obcRecoverEscalate]
  split
  · obtain ⟨log, trace, overflow, taskState⟩ := logged rung (nextDue row frame)
      { state with
        suspendedTask := BitVec.ofNat 32 task
        suspendedFrame := nextDue row frame
        log := .suspendTask task frame (nextDue row frame) :: state.log }
    refine ⟨log.trans ?_, trace, overflow, taskState⟩
    simp [dispatches_cons, dispatchedRow]
  split
  · split
    · exact ⟨rfl, rfl, rfl, rfl⟩
    · obtain ⟨log, trace, overflow, taskState⟩ := logged rung frame state
      refine ⟨?_, trace, overflow, taskState⟩
      rw [dispatches_cons, log]
      exact List.append_nil _
  split
  · exact ⟨rfl, rfl, rfl, rfl⟩
  split
  · exact ⟨rfl, rfl, rfl, rfl⟩
  · refine ⟨?_, rfl, rfl, rfl⟩
    rw [dispatches_cons]
    exact List.append_nil _

theorem countRun_figures (index votes : Nat) (used : U32) (state : ExecState) :
    (countRun index used (askModes votes (tracePush index state))).taskState =
      Function.update state.taskState index
        { state.taskState index with
          runs := (state.taskState index).runs + 1
          maxInstr :=
            if (state.taskState index).maxInstr < used then used
            else (state.taskState index).maxInstr } := by
  obtain ⟨mode, _, asked⟩ := askModes_kept votes (tracePush index state)
  have pushed : (tracePush index state).taskState = state.taskState := by
    rw [tracePush]
    split <;> rfl
  rw [asked, countRun]
  dsimp only
  rw [pushed]

theorem Tallied.overrun {dispatched : List Nat} {state : ExecState}
    (tallied : Tallied dispatched state) (index : Nat) : Tallied dispatched (countOverrun index state) := by
  refine ⟨tallied.logged, tallied.trace, tallied.overflow, fun task => ?_⟩
  have counted : (countOverrun index state).taskState = Function.update state.taskState index
      { state.taskState index with overruns := (state.taskState index).overruns + 1 } := rfl
  rw [← tallied.runs task, counted]
  by_cases here : task = index
  · subst here
    rw [Function.update_self]
  · rw [Function.update_of_ne here]

/-- The state an overrun is judged in, its dispatch on the books. -/
def countedDispatch (index : Nat) (turn : Turn) (state : ExecState) : ExecState :=
  countRun index turn.used (askModes turn.votes (tracePush index state))

theorem dispatch_goes {row : ObcTask} (present : row.fn.isSome) (index : Nat) (frame : U32)
    (turn : Turn) (state : ExecState) :
    dispatch row index frame turn state =
      if row.budgetInstr < turn.used then
        obcRecoverEscalate row
          (selectRung row
            ((countOverrun index (countedDispatch index turn state)).taskState index).overruns)
          index frame (countOverrun index (countedDispatch index turn state))
      else countedDispatch index turn state := by
  obtain ⟨fn, named⟩ := Option.isSome_iff_exists.mp present
  rw [dispatch, named]
  rfl

theorem countOverrun_figures (row : ObcTask) (index : Nat) (turn : Turn) (state : ExecState)
    (spent : row.budgetInstr < turn.used) :
    (countOverrun index (countedDispatch index turn state)).taskState =
      Function.update state.taskState index
        (figuresAfter row turn.used (state.taskState index)) := by
  have figures := countRun_figures index turn.votes turn.used state
  change Function.update (countedDispatch index turn state).taskState index
    { (countedDispatch index turn state).taskState index with
      overruns := ((countedDispatch index turn state).taskState index).overruns + 1 } = _
  rw [countedDispatch, figures, Function.update_self, Function.update_idem, figuresAfter,
    if_pos spent]

theorem dispatch_figures {row : ObcTask} (present : row.fn.isSome) (index : Nat) (frame : U32)
    (turn : Turn) (state : ExecState) :
    (dispatch row index frame turn state).taskState =
      Function.update state.taskState index
        (figuresAfter row turn.used (state.taskState index)) := by
  rw [dispatch_goes present]
  by_cases spent : row.budgetInstr < turn.used
  · rw [if_pos spent, (obcRecoverEscalate_sameTally _ _ _ _ _).taskState]
    exact countOverrun_figures row index turn state spent
  · rw [if_neg spent, figuresAfter, if_neg spent]
    exact countRun_figures index turn.votes turn.used state

theorem dispatch_tallied {row : ObcTask} {index : Nat} {frame : U32} {turn : Turn}
    {state : ExecState} {dispatched : List Nat} (present : row.fn.isSome)
    (tallied : Tallied dispatched state) :
    Tallied (dispatched ++ [index])
      (dispatch row index frame turn (state.record (.visited frame index true false true))) := by
  have counted := tallied.pushed index turn.votes frame turn.used
  rw [dispatch_goes present]
  split
  · exact (counted.overrun index).same (obcRecoverEscalate_sameTally _ _ _ _ _)
  · exact counted

theorem visitTask_booked {table : List ObcTask} {row : ObcTask} {index : Nat} {turn : Turn}
    {state : ExecState} {entries : List DispatchEntry} (found : table[index]? = some row)
    (booked : Booked table entries state) :
    Booked table
      (entries ++ if Dispatches row index state then [{ task := index, used := turn.used }] else [])
      (visitTask row index turn state) := by
  by_cases goes : Dispatches row index state
  · obtain ⟨due, asked, free, present⟩ := id goes
    have before : Tallied (entries.map DispatchEntry.task)
        { state with mode := (obcModeIsSafe state.mode).2, due := state.due + 1 } :=
      booked.tallied.same ⟨rfl, rfl, rfl, rfl⟩
    have tallied := @dispatch_tallied row index state.frame turn _ _ present before
    rw [if_pos goes, visitTask_goes due asked free, present]
    constructor
    · rw [List.map_append]
      exact tallied.same ⟨rfl, rfl, rfl, rfl⟩
    · intro entry member
      rcases List.mem_append.mp member with earlier | here
      · exact booked.rows entry earlier
      · rw [List.mem_singleton.mp here]
        exact (List.getElem?_eq_some_iff.mp found).1
    · intro other declared inTable
      rw [entriesOf_append]
      have told := booked.figures other declared inTable
      have after := congrFun (dispatch_figures present index state.frame turn
        { state with
          mode := (obcModeIsSafe state.mode).2
          due := state.due + 1
          log := .visited state.frame index true false true :: state.log }) other
      refine Eq.subst (motive := Figures declared _) after.symm ?_
      by_cases here : index = other
      · subst here
        rw [found] at inTable
        cases inTable
        rw [if_pos rfl, Function.update_self]
        exact told.dispatched { task := index, used := turn.used }
      · rw [if_neg here, List.append_nil, Function.update_of_ne (Ne.symm here)]
        exact told
  · rw [if_neg goes, List.append_nil]
    generalize afterEq : visitTask row index turn state = after
    have visit := visitTask_visit row index turn state
    rw [afterEq] at visit
    have skipped {due suspended : Bool}
        (log : after.log = .visited state.frame index due suspended false :: state.log)
        (trace : after.trace = state.trace) (overflow : after.traceOverflow = state.traceOverflow)
        (taskState : after.taskState = state.taskState) : Booked table entries after := by
      refine booked.same ⟨?_, trace, overflow, taskState⟩
      rw [log, dispatches_cons]
      exact List.append_nil _
    cases visit with
    | skipped => exact skipped rfl rfl rfl rfl
    | suspended => exact skipped rfl rfl rfl rfl
    | nullFunction => exact skipped rfl rfl rfl rfl
    | within _ _ _ _ dispatches => exact absurd dispatches goes
    | suspends _ _ _ _ _ overruns => exact absurd overruns.1 goes
    | resetsSubsystem _ _ _ _ _ overruns => exact absurd overruns.1 goes
    | entersSafe _ _ _ _ overruns => exact absurd overruns.1 goes
    | resetsMachine _ _ _ _ overruns => exact absurd overruns.1 goes

theorem returnFrom_sameTally (status : ObcStatus) (state : ExecState) :
    SameTally state (returnFrom status state) := by
  refine ⟨?_, rfl, rfl, rfl⟩
  rw [returnFrom, dispatches_cons]
  exact List.append_nil _

theorem SameTally.trans {first second third : ExecState} (before : SameTally first second)
    (after : SameTally second third) : SameTally first third :=
  ⟨after.logged.trans before.logged, after.trace.trans before.trace,
    after.overflow.trans before.overflow, after.taskState.trans before.taskState⟩

theorem schedNow_sameTally (turn : Turn) (frame : U32) (state : ExecState) :
    SameTally state (schedNow turn frame state) := by
  obtain ⟨mode, entry, read⟩ := schedNow_cases turn frame state
  rw [read]
  exact ⟨rfl, rfl, rfl, rfl⟩

theorem enterFrame_sameTally (state : ExecState) : SameTally state (enterFrame state) := by
  rw [enterFrame]
  split
  · exact ⟨rfl, rfl, rfl, rfl⟩
  · have kept := returnFrom_sameTally .ok { state with windowEndTicks := state.frameStart.setWidth 32 }
    exact ⟨kept.logged, kept.trace, kept.overflow, kept.taskState⟩

/-- Between the dispatches, no loop of the executive touches the books. -/
theorem startWindow_sameTally (table : List ObcTask) (turn : Turn) (state : ExecState) :
    SameTally state (startWindow table turn state) := by
  have armed : SameTally state (state.record .armHardware) := by
    refine ⟨?_, rfl, rfl, rfl⟩
    rw [ExecState.record, dispatches_cons]
    exact List.append_nil _
  rcases startWindow_cases table turn state with refused | ⟨_, ended⟩ | ⟨_, _, opened⟩
  · rw [refused]
    exact armed.trans (returnFrom_sameTally _ _)
  · rw [ended]
    exact armed.trans ((schedNow_sameTally _ _ _).trans (returnFrom_sameTally _ _))
  · have entered := enterFrame_sameTally (openWindow turn state)
    rw [opened]
    exact armed.trans ⟨entered.logged, entered.trace, entered.overflow, entered.taskState⟩

theorem endPassStep_sameTally (table : List ObcTask) (turn : Turn) (state : ExecState) :
    SameTally state (endPassStep table turn state) := by
  have passed : SameTally state { state with log := passLog table state } :=
    ⟨dispatches_passLog table state, rfl, rfl, rfl⟩
  by_cases settled : turn.clock = .ok
  swap
  · rw [endPassStep_unsettled settled]
    exact passed.trans ((schedNow_sameTally _ _ _).trans (returnFrom_sameTally _ _))
  by_cases late : state.frameStart + obcSchedFrameTicks ≤ turn.now
  · rw [endPassStep_late settled late]
    exact passed.trans ⟨rfl, rfl, rfl, rfl⟩
  · rw [endPassStep_slack settled late]
    exact passed.trans ⟨rfl, rfl, rfl, rfl⟩

theorem idleStep_sameTally (guard : Nat) (turn : Turn) (state : ExecState) :
    SameTally state (idleStep guard turn state) := by
  rcases idleStep_cases guard turn state with ⟨_, ended⟩ | spent | ⟨_, waits⟩ | advances
  · rw [ended]
    exact (schedNow_sameTally _ _ _).trans (returnFrom_sameTally _ _)
  · rw [spent]
    exact returnFrom_sameTally _ _
  · rw [waits]
    exact ⟨rfl, rfl, rfl, rfl⟩
  · have entered := enterFrame_sameTally
      { state with
        frameStart := state.frameStart + obcSchedFrameTicks
        framesRun := state.framesRun + 1
        frame := state.frame + 1 }
    rw [advances]
    exact ⟨entered.logged, entered.trace, entered.overflow, entered.taskState⟩

theorem execStep_booked (table : List ObcTask) (input : ExecInput) (entries : List DispatchEntry)
    (state : ExecState) (booked : Booked table entries state) :
    Booked table (entries ++ dispatchEntries table input state) (execStep table input state) := by
  have still {after : ExecState} (same : SameTally state after) : Booked table (entries ++ []) after := by
    rw [List.append_nil]
    exact booked.same same
  cases input with
  | corrupt index copy => exact still ⟨rfl, rfl, rfl, rfl⟩
  | turn turn =>
      cases phase : state.phase <;> simp only [execStep, execTurn, dispatchEntries, phase]
      case start => exact still (startWindow_sameTally table turn state)
      case endPass => exact still (endPassStep_sameTally table turn state)
      case idle guard => exact still (idleStep_sameTally guard turn state)
      case returned status => exact still ⟨rfl, rfl, rfl, rfl⟩
      case reset => exact still ⟨rfl, rfl, rfl, rfl⟩
      case visit index =>
        rw [visitStep]
        cases found : table[index]? with
        | none => exact still ⟨rfl, rfl, rfl, rfl⟩
        | some row =>
            have visited := @visitTask_booked table row index turn state entries found booked
            dsimp only
            by_cases ended : (visitTask row index turn state).phase = .reset
            · rw [if_pos ended]
              exact visited
            · rw [if_neg ended]
              exact visited.same ⟨rfl, rfl, rfl, rfl⟩

theorem booked_fresh (table : List ObcTask) (frames : U32) (mode : ModeState)
    (boot : ObcBootRecord) : Booked table [] (freshExec frames mode boot) := by
  constructor
  · exact ⟨rfl, rfl, rfl, fun _ => rfl⟩
  · simp
  · exact fun index row _ => ⟨rfl, by simp [entriesOf], .inl rfl⟩

/-- A frame dispatches each row at most once. -/
def OncePerFrame (position : Nat) (state : ExecState) : Prop :=
  ∀ task, (dispatches state.log).count task ≤
    state.frame.toNat + if task < position then 1 else 0

def WithinFrames (state : ExecState) : Prop :=
  ∀ task, (dispatches state.log).count task ≤ state.frames.toNat

theorem OncePerFrame.within {table : List ObcTask} {position : Nat} {state after : ExecState}
    (once : OncePerFrame position state) (running : Running table state)
    (log : dispatches after.log = dispatches state.log) (frames : after.frames = state.frames) :
    WithinFrames after := by
  intro task
  have counted := once task
  have within := BitVec.lt_def.mp running.within
  rw [log, frames]
  split at counted <;> omega

theorem Visit.oncePerFrame {row : ObcTask} {index : Nat} {turn : Turn} {state after : ExecState}
    (visit : Visit row index turn state after) (once : OncePerFrame index state) :
    OncePerFrame (index + 1) after := by
  have shown : dispatches after.log = dispatches state.log ∨
      dispatches after.log = dispatches state.log ++ [index] := by
    cases visit <;> simp [afterDispatch, dispatches_cons, dispatchedRow]
  intro task
  have counted := once task
  rw [visit.frame_eq]
  rcases shown with same | dispatched
  · rw [same]
    split at counted <;> split <;> omega
  · rw [dispatched, List.count_append, List.count_singleton]
    by_cases here : index = task
    · subst here
      rw [if_neg (Nat.lt_irrefl _)] at counted
      simpa using counted
    · rw [if_neg (by simpa using here)]
      split at counted <;> split <;> omega

theorem oncePerFrame_followed (table : List ObcTask) :
    Followed table (fun _ _ => True) OncePerFrame WithinFrames := by
  constructor
  · exact fun once => once
  · exact fun _ once => once
  · exact fun within => within
  · intro turn state after _ phase frame once ladder started
    have before : ∀ task, (dispatches state.log).count task ≤ 0 := fun task => by
      simpa [frame] using once task
    cases started with
    | stopped status stop _ log =>
        refine ⟨by simp [stop], fun _ _ task => ?_⟩
        have counted := before task
        rw [log]
        simp only [dispatches_cons, dispatchedRow, Option.toList_none, List.append_nil]
        omega
    | begun begins _ _ _ _ _ _ _ _ log =>
        refine ⟨fun _ task => ?_, by simp [begins]⟩
        have counted := before task
        rw [log]
        simp only [dispatches_cons, dispatchedRow, Option.toList_none, List.append_nil]
        omega
  · intro turn state after index row _ phase found running once visit
    have next := visit.oncePerFrame once
    refine ⟨next, fun _ => next.within ⟨running.rows, running.limit, ?_⟩ rfl rfl⟩
    rw [visit.frame_eq, visit.frames_eq]
    exact running.within
  · intro turn state after _ phase running once ladder frame ended
    have passed (log : dispatches after.log = dispatches state.log) :
        OncePerFrame (table.length + 1) after := by
      intro task
      have counted := once task
      rw [log, frame]
      split at counted <;> split <;> omega
    cases ended with
    | stopped status _ stop log =>
        refine ⟨by simp [stop], fun _ _ => once.within running ?_ ladder.frames⟩
        rw [log, dispatches_cons, dispatches_passLog]
        exact List.append_nil _
    | kept idle _ _ log =>
        refine ⟨fun _ => passed ?_, by simp [idle]⟩
        rw [log, dispatches_passLog]
    | degraded idle _ _ _ log =>
        refine ⟨fun _ => passed ?_, by simp [idle]⟩
        rw [log, dispatches_passLog]
  · intro turn state after guard _ phase running once ladder idled
    cases idled with
    | stopped status _ stop log =>
        refine ⟨by simp [stop], fun _ _ => once.within running ?_ ladder.frames⟩
        rw [log, dispatches_cons]
        exact List.append_nil _
    | waits next waited => simp [waited]
    | entered enters _ frame _ _ _ _ log =>
        refine ⟨fun _ task => ?_, by simp [enters]⟩
        have counted := once task
        rw [log, frame, toNat_succ_frame running.within]
        split at counted <;> omega
    | finished stop _ _ log =>
        refine ⟨by simp [stop], fun _ _ => once.within running ?_ ladder.frames⟩
        rw [log, dispatches_cons]
        exact List.append_nil _

theorem toNat_count {counted frames : Nat} (within : counted ≤ frames) (fits : frames < 2 ^ 32) :
    (BitVec.ofNat 32 counted).toNat = counted :=
  (counter_exact_iff counted).mpr (by omega)

/-- What the books of a run say of its dispatches `entries`. -/
structure Balanced (table : List ObcTask) (entries : List DispatchEntry) (final : ExecState) : Prop where
  rows : ∀ entry ∈ entries, entry.task < table.length
  order : entries.map DispatchEntry.task = dispatches final.log
  trace : final.trace = ((entries.map DispatchEntry.task).take obcTraceCapacity).map (BitVec.ofNat 8)
  overflow : final.traceOverflow = BitVec.ofNat 32 (entries.length - obcTraceCapacity)
  runs : ∀ index, (final.taskState index).runs.toNat = (entriesOf index entries).length
  overruns : ∀ index row, table[index]? = some row →
    (final.taskState index).overruns.toNat = (entriesOf index entries).countP (overBudget row)
  bound : ∀ index row, table[index]? = some row →
    ∀ entry ∈ entriesOf index entries, entry.used ≤ (final.taskState index).maxInstr
  attained : ∀ index row, table[index]? = some row → (final.taskState index).maxInstr = 0 ∨
    ∃ entry ∈ entriesOf index entries, entry.used = (final.taskState index).maxInstr
  total : ∑ index ∈ Finset.range table.length, (final.taskState index).runs.toNat = entries.length

theorem length_entriesOf (index : Nat) (entries : List DispatchEntry) :
    (entriesOf index entries).length = (entries.map DispatchEntry.task).count index := by
  rw [entriesOf, ← List.countP_eq_length_filter, List.count, List.countP_map]
  rfl

theorem sum_entriesOf {rows : Nat} {entries : List DispatchEntry}
    (inside : ∀ entry ∈ entries, entry.task < rows) :
    ∑ index ∈ Finset.range rows, (entriesOf index entries).length = entries.length := by
  induction entries with
  | nil => simp [entriesOf]
  | cons entry rest ih =>
      have later := ih fun other member => inside other (List.mem_cons_of_mem entry member)
      have split (index : Nat) : (entriesOf index (entry :: rest)).length =
          (if entry.task = index then 1 else 0) + (entriesOf index rest).length := by
        by_cases here : entry.task = index
        · simp [entriesOf, here, Nat.add_comm]
        · simp [entriesOf, here]
      rw [Finset.sum_congr rfl fun index _ => split index, Finset.sum_add_distrib, later,
        Finset.sum_ite_eq, if_pos (Finset.mem_range.mpr (inside entry List.mem_cons_self)),
        List.length_cons, Nat.add_comm]

theorem Tracks.withinFrames {table : List ObcTask} {state : ExecState}
    (tracks : Tracks table OncePerFrame WithinFrames state) : WithinFrames state := by
  cases phase : state.phase <;> simp only [Tracks, phase] at tracks
  · intro task
    have counted := tracks.2 task
    simp [tracks.1] at counted
    omega
  · exact tracks.2.2.within tracks.1 rfl rfl
  · exact tracks.2.within tracks.1 rfl rfl
  · exact tracks.2.within tracks.1 rfl rfl
  · exact tracks
  · exact tracks

theorem run_oncePerFrame (table : List ObcTask) (frames : U32) (mode : ModeState)
    (boot : ObcBootRecord) (inputs : List ExecInput) :
    Tracks table OncePerFrame WithinFrames
      (run (execStep table) inputs (freshExec frames mode boot)) :=
  (oncePerFrame_followed table).run (meets_always (fun _ _ => trivial) inputs _)
    fun _ => by simp [freshExec, dispatches]

theorem run_booked (table : List ObcTask) (frames : U32) (mode : ModeState)
    (boot : ObcBootRecord) (inputs : List ExecInput) :
    Booked table (dispatchRecord table inputs (freshExec frames mode boot))
      (run (execStep table) inputs (freshExec frames mode boot)) := by
  have booked : Booked table ([] ++ dispatchRecord table inputs (freshExec frames mode boot))
      (run (execStep table) inputs (freshExec frames mode boot)) :=
    emissions_invariant (fun input past state => execStep_booked table input past state) inputs
      (booked_fresh table frames mode boot)
  exact booked

theorem Booked.balanced {table : List ObcTask} {entries : List DispatchEntry} {final : ExecState}
    (booked : Booked table entries final) (within : WithinFrames final) :
    Balanced table entries final := by
  obtain ⟨⟨logged, trace, overflow, runs⟩, rows, figures⟩ := booked
  have fits (index : Nat) : (entriesOf index entries).length ≤ final.frames.toNat := by
    rw [length_entriesOf, ← logged]
    exact within index
  have exact (index : Nat) :
      (final.taskState index).runs.toNat = (entriesOf index entries).length := by
    rw [runs, ← length_entriesOf]
    exact toNat_count (fits index) final.frames.isLt
  constructor
  · exact rows
  · exact logged.symm
  · exact trace
  · rw [overflow, List.length_map]
  · exact exact
  · intro index row found
    rw [(figures index row found).overruns]
    exact toNat_count (Nat.le_trans List.countP_le_length (fits index)) final.frames.isLt
  · exact fun index row found => (figures index row found).bound
  · exact fun index row found => (figures index row found).attained
  · rw [Finset.sum_congr rfl fun index _ => exact index]
    exact sum_entriesOf rows

/-- In every run, whatever becomes of its frames, the counters are exact and balance with
the dispatches made; the trace is their beginning. -/
theorem executive_books_balance (table : List ObcTask) (frames : U32) (mode : ModeState)
    (boot : ObcBootRecord) (inputs : List ExecInput) :
    Balanced table (dispatchRecord table inputs (freshExec frames mode boot))
      (run (execStep table) inputs (freshExec frames mode boot)) :=
  (run_booked table frames mode boot inputs).balanced
    (run_oncePerFrame table frames mode boot inputs).withinFrames

end ObcZero
