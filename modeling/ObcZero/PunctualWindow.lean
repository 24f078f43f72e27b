import ObcZero.PlannedWindow

/-! Windows whose clock is never late: that they return, whatever their length,
and what the executive promises of them. -/

namespace ObcZero

open CyclicPlan StepSystem

/-- A nominal state at frame `frame` of a window on the absolute schedule. -/
structure OnTime (frames : U32) (frame : Nat) (state : ExecState) : Prop where
  window : state.frames = frames
  nominal : (obcModeIsSafe state.mode).1 = false
  current : state.frame.toNat = frame
  clock : state.frameStart.toNat = 1024 * frame

/-- The turn of a clock that reads the start of the frame until the idle loop, and
its deadline there. -/
def onTimeTurn (state : ExecState) : Turn :=
  { clock := .ok
    now := match state.phase with
      | .idle _ => state.frameStart + obcSchedFrameTicks
      | _ => state.frameStart
    used := 0
    votes := 0 }

def OnTimeReaches (table : List ObcTask) : ExecState → ExecState → Prop :=
  Reaches (execStep table) (Unhurried table)

theorem thrifty_onTime (row : ObcTask) (index : Nat) (state : ExecState) :
    ¬OverBudget row index (onTimeTurn state) state := by
  rintro ⟨_, spent⟩
  exact absurd spent (BitVec.not_lt.mpr (BitVec.le_def.mpr (Nat.zero_le _)))

theorem onTimeTurn_unhurried {table : List ObcTask} {frames : U32} {frame : Nat}
    {state : ExecState} (onTime : OnTime frames frame state) :
    Unhurried table (.turn (onTimeTurn state)) state := by
  refine ⟨?_, fun phase _ => ?_⟩
  · unfold AtVisit
    dsimp only
    split
    · split
      · exact thrifty_onTime _ _ state
      · trivial
    · trivial
  · have bound := onTime.current ▸ state.frame.isLt
    have clock := onTime.clock
    simp only [onTimeTurn, phase, obcSchedFrameTicks]
    bv_omega

theorem onTime_reaches (table : List ObcTask) {frames : U32} {frame : Nat} {state : ExecState}
    (onTime : OnTime frames frame state) :
    OnTimeReaches table state (execStep table (.turn (onTimeTurn state)) state) :=
  Reaches.single (onTimeTurn_unhurried onTime)

def FrameBegun (frames : U32) (frame : Nat) (state : ExecState) : Prop :=
  (frame < frames.toNat ∧ OnTime frames frame state ∧ state.phase = .visit 0) ∨
    (state.phase = .returned .ok ∧ (obcModeIsSafe state.mode).1 = false)

theorem enterFrame_begun {frames : U32} {frame : Nat} {state : ExecState}
    (onTime : OnTime frames frame state) : FrameBegun frames frame (enterFrame state) := by
  obtain ⟨window, nominal, current, clock⟩ := onTime
  rw [enterFrame]
  by_cases more : state.frame < state.frames
  · rw [if_pos more]
    have inside : frame < frames.toNat := by
      rw [← current, ← window]
      exact more
    exact .inl ⟨inside, ⟨window, nominal, current, clock⟩, rfl⟩
  · rw [if_neg more]
    exact .inr ⟨rfl, nominal⟩

theorem idle_onTime (table : List ObcTask) {frames : U32} {frame guard : Nat} {state : ExecState}
    (onTime : OnTime frames frame state) (phase : state.phase = .idle guard)
    (inside : frame < frames.toNat) :
    FrameBegun frames (frame + 1) (execStep table (.turn (onTimeTurn state)) state) := by
  have reached : state.frameStart + obcSchedFrameTicks ≤ (onTimeTurn state).now := by
    simp only [onTimeTurn, phase]
    exact BitVec.le_refl _
  have turned : execStep table (.turn (onTimeTurn state)) state =
      idleStep guard (onTimeTurn state) state := by
    simp only [execStep, execTurn, phase]
  obtain ⟨window, nominal, current, clock⟩ := onTime
  have bound := frames.isLt
  rw [turned, idleStep, if_neg (by simp [onTimeTurn]), schedNow_settled rfl, if_pos reached]
  refine enterFrame_begun ⟨window, nominal, ?_, ?_⟩
  · show (state.frame + 1).toNat = frame + 1
    bv_omega
  · show (state.frameStart + obcSchedFrameTicks).toNat = 1024 * (frame + 1)
    simp only [obcSchedFrameTicks]
    bv_omega

theorem endPass_onTime (table : List ObcTask) {frames : U32} {frame : Nat} {state : ExecState}
    (onTime : OnTime frames frame state) (phase : state.phase = .endPass) :
    OnTime frames frame (execStep table (.turn (onTimeTurn state)) state) ∧
      (execStep table (.turn (onTimeTurn state)) state).phase = .idle 0 := by
  have early := BitVec.not_le.mpr ((@onTimeTurn_unhurried table frames frame state onTime).2
    phase rfl)
  have turned : execStep table (.turn (onTimeTurn state)) state =
      endPassStep table (onTimeTurn state) state := by
    simp only [execStep, execTurn, phase]
  obtain ⟨slack, passed⟩ := endPassStep_early rfl early table
  rw [turned, passed]
  exact ⟨⟨onTime.window, onTime.nominal, onTime.current, onTime.clock⟩, rfl⟩

theorem visit_onTime {table : List ObcTask} {frames : U32} {frame index : Nat}
    {state : ExecState} (onTime : OnTime frames frame state) (phase : state.phase = .visit index)
    (inside : index < table.length) :
    OnTime frames frame (execStep table (.turn (onTimeTurn state)) state) ∧
      (execStep table (.turn (onTimeTurn state)) state).phase =
        if index + 1 < table.length then .visit (index + 1) else .endPass := by
  have found : table[index]? = some table[index] := List.getElem?_eq_getElem inside
  have calm := (visitTask_visit table[index] index (onTimeTurn state) state).calm
    (thrifty_onTime _ index state)
  have going : (visitTask table[index] index (onTimeTurn state) state).phase ≠ .reset := by
    rw [calm.phase, phase]
    simp
  have turned : execStep table (.turn (onTimeTurn state)) state =
      visitStep table index (onTimeTurn state) state := by
    simp only [execStep, execTurn, phase]
  rw [turned, visitStep, found]
  simp only [going, ↓reduceIte]
  exact ⟨⟨calm.frames.trans onTime.window, calm.mode.answer.trans onTime.nominal,
    (congrArg BitVec.toNat calm.frame).trans onTime.current,
    (congrArg BitVec.toNat calm.frameStart).trans onTime.clock⟩, trivial⟩

theorem start_onTime {table : List ObcTask} (rows : 0 < table.length)
    (limit : table.length ≤ obcMaxTasks) (frames : U32) {mode : ModeState}
    (nominal : (obcModeIsSafe mode).1 = false) (boot : ObcBootRecord) :
    FrameBegun frames 0 (execStep table (.turn (onTimeTurn (freshExec frames mode boot)))
      (freshExec frames mode boot)) := by
  have size : ¬(table.length = 0 ∨ obcMaxTasks < table.length) := by omega
  have turned : execStep table (.turn (onTimeTurn (freshExec frames mode boot)))
      (freshExec frames mode boot) = startWindow table (onTimeTurn (freshExec frames mode boot))
        (freshExec frames mode boot) := rfl
  rw [turned, startWindow, if_neg size, schedNow_settled rfl, if_neg (by simp [onTimeTurn])]
  exact enterFrame_begun ⟨rfl, (obcModeIsSafe_again mode).trans nominal, rfl, rfl⟩

theorem visits_reach_endPass {table : List ObcTask} {frames : U32} {frame remaining index : Nat}
    {state : ExecState} (left : index + remaining + 1 = table.length)
    (onTime : OnTime frames frame state) (phase : state.phase = .visit index) :
    ∃ after, OnTimeReaches table state after ∧ OnTime frames frame after ∧
      after.phase = .endPass := by
  have inside : index < table.length := by omega
  obtain ⟨kept, phased⟩ := visit_onTime onTime phase inside
  induction remaining generalizing index state with
  | zero =>
      rw [if_neg (by omega)] at phased
      exact ⟨_, onTime_reaches table onTime, kept, phased⟩
  | succ remaining ih =>
      have next : index + 1 < table.length := by omega
      rw [if_pos next] at phased
      obtain ⟨keptNext, phasedNext⟩ := visit_onTime kept phased next
      obtain ⟨after, reached, held⟩ := ih (by omega) kept phased next keptNext phasedNext
      exact ⟨after, (onTime_reaches table onTime).trans reached, held⟩

theorem frame_reaches_next {table : List ObcTask} (rows : 0 < table.length) {frames : U32}
    {frame : Nat} {state : ExecState} (inside : frame < frames.toNat)
    (onTime : OnTime frames frame state) (phase : state.phase = .visit 0) :
    ∃ after, OnTimeReaches table state after ∧ FrameBegun frames (frame + 1) after := by
  have left : 0 + (table.length - 1) + 1 = table.length := by omega
  obtain ⟨passed, visited, held, ended⟩ := visits_reach_endPass left onTime phase
  obtain ⟨idles, idle⟩ := endPass_onTime table held ended
  have closed := visited.trans (onTime_reaches table held)
  exact ⟨_, closed.trans (onTime_reaches table idles), idle_onTime table idles idle inside⟩

theorem frames_return {table : List ObcTask} (rows : 0 < table.length) {frames : U32}
    {remaining frame : Nat} {state : ExecState} (left : frame + remaining = frames.toNat)
    (begun : FrameBegun frames frame state) :
    ∃ final, OnTimeReaches table state final ∧ final.phase = .returned .ok ∧
      (obcModeIsSafe final.mode).1 = false := by
  induction remaining generalizing frame state with
  | zero =>
      rcases begun with ⟨inside, _⟩ | ⟨returned, nominal⟩
      · omega
      · exact ⟨state, Reaches.refl _ _ _, returned, nominal⟩
  | succ remaining ih =>
      rcases begun with ⟨inside, onTime, phase⟩ | ⟨returned, nominal⟩
      · obtain ⟨after, reached, next⟩ := frame_reaches_next rows inside onTime phase
        obtain ⟨final, rest, ended⟩ := ih (by omega) next
        exact ⟨final, reached.trans rest, ended⟩
      · exact ⟨state, Reaches.refl _ _ _, returned, nominal⟩

/-- A nominal window of any length returns when its clock is never late. -/
theorem punctual_window_returns {table : List ObcTask} (rows : 0 < table.length)
    (limit : table.length ≤ obcMaxTasks) (frames : U32) {mode : ModeState}
    (nominal : (obcModeIsSafe mode).1 = false) (boot : ObcBootRecord) :
    ∃ inputs, Meets (execStep table) (Unhurried table) inputs (freshExec frames mode boot) ∧
      (run (execStep table) inputs (freshExec frames mode boot)).phase = .returned .ok ∧
      (obcModeIsSafe (run (execStep table) inputs (freshExec frames mode boot)).mode).1 = false := by
  have begun := start_onTime rows limit frames nominal boot
  obtain ⟨final, reached, ended⟩ := frames_return rows (Nat.zero_add _) begun
  have opens : Unhurried table (.turn (onTimeTurn (freshExec frames mode boot)))
      (freshExec frames mode boot) := ⟨trivial, fun phase => by cases phase⟩
  obtain ⟨inputs, meets, rfl⟩ := (Reaches.single opens).trans reached
  exact ⟨inputs, meets, ended⟩

/-- A window that returns in nominal mode with nothing late runs the plan of its
table, and counts what its trace leaves out for as long as 32 bits can. -/
theorem nominal_window_runs_plan {table : List ObcTask}
    (present : ∀ row ∈ table, row.fn.isSome) (frames : U32) (mode : ModeState)
    (boot : ObcBootRecord) {inputs : List ExecInput}
    (meets : Meets (execStep table) (Unhurried table) inputs (freshExec frames mode boot)) :
    let final := run (execStep table) inputs (freshExec frames mode boot)
    final.phase = .returned .ok → (obcModeIsSafe final.mode).1 = false →
      RunsThePlan table frames final ∧
        (final.traceOverflow.toNat = leftOut table frames ↔ leftOut table frames < 2 ^ 32) := by
  intro final returned nominal
  have windowRun := run_onPlan present meets returned nominal
  exact ⟨windowRun.runsThePlan, windowRun.overflow_iff⟩

theorem flight_nominal_window_runs_plan :
    let final := run (execStep obcTaskTable)
      (punctualRun (List.replicate 2 (List.replicate 5 0))) (coldExec 2)
    RunsThePlan obcTaskTable 2 final ∧ final.traceOverflow.toNat = leftOut obcTaskTable 2 := by
  intro final
  have present : ∀ row ∈ obcTaskTable, row.fn.isSome := by decide
  have meets : Meets (execStep obcTaskTable) (Unhurried obcTaskTable)
      (punctualRun (List.replicate 2 (List.replicate 5 0))) (coldExec 2) := by decide +kernel
  have promised := nominal_window_runs_plan present 2 _ _ meets (by decide +kernel)
    (by decide +kernel)
  exact ⟨promised.1, promised.2.mpr (by decide +kernel)⟩

def busyTable : List ObcTask :=
  List.replicate 8
    { name := "busy", fn := some "task_busy", periodFrames := 1, budgetInstr := 1000
      essential := true, resetFn := none }

/-- A window of 2 ^ 29 + 32 frames leaves 2 ^ 32 dispatches out of its trace, and
reports an overflow of none. -/
theorem trace_overflow_wraps :
    ∃ inputs, Meets (execStep busyTable) (Unhurried busyTable) inputs (coldExec 536870944) ∧
      let final := run (execStep busyTable) inputs (coldExec 536870944)
      final.phase = .returned .ok ∧ (obcModeIsSafe final.mode).1 = false ∧
        leftOut busyTable 536870944 = 2 ^ 32 ∧ final.traceOverflow = 0 := by
  have rows : 0 < busyTable.length := by decide
  have limit : busyTable.length ≤ obcMaxTasks := by decide
  have present : ∀ row ∈ busyTable, row.fn.isSome := by decide
  have nominal : (obcModeIsSafe (executiveState uneventfulBoot coldMode)).1 = false := by
    decide +kernel
  obtain ⟨inputs, meets, returned, ended⟩ :=
    punctual_window_returns rows limit 536870944 nominal coldBootRecord
  have windowRun := run_onPlan present meets returned ended
  have left : leftOut busyTable 536870944 = 2 ^ 32 := by decide +kernel
  refine ⟨inputs, meets, returned, ended, left, ?_⟩
  have counted := windowRun.tallied.overflow
  rw [length_plan, show _ - obcTraceCapacity = 2 ^ 32 from left] at counted
  exact counted.trans (by decide)

end ObcZero
