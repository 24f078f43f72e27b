import ObcZero.LogCapacity
import ObcZero.TraceConformance
import ObcZero.TraceVerdict

/-! A window of the executive before the host's checks: what they can find amiss in the
dump of one that has returned. -/

namespace ObcZero

open StepSystem

def hostTask (row : ObcTask) (index : Nat) (figures : ObcTaskState) : HostTask :=
  { index := index, name := row.name.toList, periodFrames := row.periodFrames.toNat,
    budgetInstr := row.budgetInstr.toNat, essential := row.essential, runs := figures.runs.toNat,
    overruns := figures.overruns.toNat, maxInstr := figures.maxInstr.toNat }

def hostSuspension (entry : ObcSuspension) (index : Nat) : HostSuspension :=
  { index := index, task := entry.task.toNat, frame := entry.frame.toNat }

/-- What the host is to know of a window: what `dump_trace.gdb` reads of its image. -/
def hostDumpOf (table : List ObcTask) (state : ExecState) : HostDump :=
  { windowFrames := obcSchedWindowFrames.toNat
    frameTicks := obcSchedFrameTicks.toNat
    framesRun := state.framesRun.toNat
    traceLen := state.trace.length
    traceOverflow := state.traceOverflow.toNat
    frameOverruns := state.frameOverruns.toNat
    slackMin := state.slackTicksMin.toNat
    mode := state.mode.mode.toNat
    safeReason := state.mode.safeReason.toNat
    safeEntryFrame := state.safeEntryFrame.toNat
    suspensionOverflow := state.suspensionOverflow.toNat
    suspensions := state.suspensions.zipIdx.map fun entry => hostSuspension entry.1 entry.2
    windowStart := state.windowStartTicks.toNat
    windowEnd := state.windowEndTicks.toNat
    tasks := table.zipIdx.map fun entry => hostTask entry.1 entry.2 (state.taskState entry.2)
    trace := state.trace.map fun index => (index.toNat : Int) }

theorem fmod_natCast (frame period : Nat) : (frame : Int).fmod period = (frame % period : Nat) := by
  rw [Int.fmod_eq_emod_of_nonneg _ (Int.natCast_nonneg period), Int.natCast_emod]

theorem expects_hostDumpOf (table : List ObcTask) (state : ExecState) (frame : Nat) (row : ObcTask)
    (index : Nat) :
    (hostDumpOf table state).expects frame (hostTask row index (state.taskState index)) =
      expects (dumpOf table state) frame (dumpTask row index) := by
  have listed : ((frame : Int), (index : Int)) ∈
      (hostDumpOf table state).suspensions.map (fun entry => (entry.frame, entry.task)) ↔
        (frame, index) ∈ withheld (dumpOf table state) := by
    simp only [hostDumpOf, withheld, dumpOf, List.map_map, List.mem_map, Function.comp_apply,
      hostSuspension, Prod.mk.injEq, Int.natCast_inj]
    constructor
    · rintro ⟨⟨entry, position⟩, member, same⟩
      exact ⟨entry, List.mem_of_getElem? (List.mem_zipIdx_iff_getElem?.mp member), same⟩
    · rintro ⟨entry, member, same⟩
      obtain ⟨position, found⟩ := List.mem_iff_getElem?.mp member
      exact ⟨(entry, position), List.mem_zipIdx_iff_getElem?.mpr found, same⟩
  have due : (frame : Int).fmod row.periodFrames.toNat ≠ 0 ↔ frame % row.periodFrames.toNat ≠ 0 := by
    rw [fmod_natCast]
    exact_mod_cast Iff.rfl
  have period : (row.periodFrames.toNat : Int) = 0 ↔ row.periodFrames.toNat = 0 := by
    exact_mod_cast Iff.rfl
  have degraded : ((hostDumpOf table state).safeEntryFrame ≠ safeEntryNone ∧
      (frame : Int) > (hostDumpOf table state).safeEntryFrame) ↔
        ((dumpOf table state).safeEntryFrame ≠ safeEntryNone ∧
          frame > (dumpOf table state).safeEntryFrame) := by
    simp only [hostDumpOf, dumpOf]
    exact_mod_cast Iff.rfl
  unfold HostDump.expects expects
  simp only [hostTask, dumpTask, listed, due, period, degraded]
  congr

theorem expectedTrace_hostDumpOf (table : List ObcTask) (state : ExecState) :
    (hostDumpOf table state).expectedTrace =
      (expectedTrace (dumpOf table state)).map fun index : Nat => (index : Int) := by
  have inFrame (frame : Nat) :
      ((hostDumpOf table state).tasks.filter ((hostDumpOf table state).expects frame)).map
          HostTask.index =
        (expectedInFrame (dumpOf table state) (dumpOf table state).tasks frame).map
          fun index : Nat => (index : Int) := by
    have tasks : (hostDumpOf table state).tasks =
        table.zipIdx.map fun entry => hostTask entry.1 entry.2 (state.taskState entry.2) := rfl
    have plain : (dumpOf table state).tasks = dumpTasks table := rfl
    rw [expectedInFrame, tasks, plain, dumpTasks, List.filter_map, List.filter_map, List.map_map,
      List.map_map, List.map_map]
    congr 1
    exact List.filter_congr fun entry _ => expects_hostDumpOf table state frame entry.1 entry.2
  have frames : (hostDumpOf table state).windowFrames.toNat = (dumpOf table state).windowFrames := rfl
  rw [HostDump.expectedTrace, expectedTrace, List.map_flatMap, frames]
  exact List.flatMap_congr fun frame _ => inFrame frame

/-- What of a run times its frames. -/
structure SamePace (before after : ExecState) : Prop where
  framesRun : after.framesRun = before.framesRun
  frame : after.frame = before.frame
  frameStart : after.frameStart = before.frameStart
  windowStart : after.windowStartTicks = before.windowStartTicks

/-- The frames done are the frames counted, and take their ticks each. -/
structure Paced (state : ExecState) : Prop where
  framesRun : state.framesRun = state.frame
  elapsed : state.frameStart.setWidth 32 =
    state.windowStartTicks + obcSchedFrameTicks.setWidth 32 * state.frame

structure PacedOut (table : List ObcTask) (state : ExecState) : Prop where
  limit : table.length ≤ obcMaxTasks
  framesRun : state.framesRun = state.frames
  elapsed : state.windowEndTicks =
    state.windowStartTicks + obcSchedFrameTicks.setWidth 32 * state.frames

theorem Paced.same {before after : ExecState} (paced : Paced before)
    (same : SamePace before after) : Paced after := by
  constructor
  · rw [same.framesRun, same.frame]
    exact paced.framesRun
  · rw [same.frameStart, same.windowStart, same.frame]
    exact paced.elapsed

def WindowPaced (table : List ObcTask) : ExecState → Prop :=
  Tracks table (fun _ => Paced) fun state => state.phase = .returned .ok → PacedOut table state

theorem Visit.samePace {row : ObcTask} {index : Nat} {turn : Turn} {state after : ExecState}
    (visit : Visit row index turn state after) : SamePace state after := by
  cases visit <;> exact ⟨rfl, rfl, rfl, rfl⟩

theorem returned_paced {table : List ObcTask} {status : ObcStatus} {state : ExecState}
    (returned : state.phase = .returned status) (unsettled : status ≠ .ok) :
    WindowPaced table state := by
  simp only [WindowPaced, Tracks, returned, Phase.returned.injEq]
  exact fun ok => absurd ok unsettled

theorem enterFrame_paced {table : List ObcTask} {state : ExecState} (rows : 0 < table.length)
    (limit : table.length ≤ obcMaxTasks) (within : state.frame ≤ state.frames)
    (paced : Paced state) : WindowPaced table (enterFrame state) := by
  rw [enterFrame]
  by_cases more : state.frame < state.frames
  · rw [if_pos more]
    exact ⟨⟨rows, limit, more⟩, rows, paced.same ⟨rfl, rfl, rfl, rfl⟩⟩
  · have last : state.frame = state.frames := by bv_omega
    rw [if_neg more]
    intro _
    refine ⟨limit, paced.framesRun.trans last, ?_⟩
    have elapsed := paced.elapsed
    rw [last] at elapsed
    exact elapsed

theorem startWindow_paced {table : List ObcTask} {state : ExecState} (turn : Turn)
    (first : state.framesRun = 0) : WindowPaced table (startWindow table turn state) := by
  rcases startWindow_cases table turn state with refused | ⟨failed, ended⟩ | ⟨rows, limit, opened⟩
  · rw [refused]
    exact @returned_paced table .errInvalid _ rfl (by simp)
  · rw [ended]
    exact @returned_paced table turn.clock _ rfl failed
  · rw [opened]
    refine enterFrame_paced rows limit (BitVec.le_def.mpr (Nat.zero_le _)) ⟨first, ?_⟩
    simp [openWindow]

theorem endPassStep_paced {table : List ObcTask} {turn : Turn} {state : ExecState}
    (running : Running table state) (paced : Paced state) :
    WindowPaced table (endPassStep table turn state) := by
  by_cases settled : turn.clock = .ok
  swap
  · rw [endPassStep_unsettled settled]
    exact @returned_paced table turn.clock _ rfl settled
  by_cases late : state.frameStart + obcSchedFrameTicks ≤ turn.now
  · rw [endPassStep_late settled late]
    exact ⟨⟨running.rows, running.limit, running.within⟩, paced.same ⟨rfl, rfl, rfl, rfl⟩⟩
  · rw [endPassStep_slack settled late]
    exact ⟨⟨running.rows, running.limit, running.within⟩, paced.same ⟨rfl, rfl, rfl, rfl⟩⟩

theorem idleStep_paced {table : List ObcTask} {guard : Nat} {turn : Turn} {state : ExecState}
    (running : Running table state) (paced : Paced state) :
    WindowPaced table (idleStep guard turn state) := by
  rcases idleStep_cases guard turn state with
    ⟨failed, ended⟩ | spent | ⟨next, waits⟩ | advances
  · rw [ended]
    exact @returned_paced table turn.clock _ rfl failed
  · rw [spent]
    exact @returned_paced table .errTimeout _ rfl (by simp)
  · rw [waits]
    exact ⟨⟨running.rows, running.limit, running.within⟩, paced.same ⟨rfl, rfl, rfl, rfl⟩⟩
  · have within := running.within
    have later : state.frame + 1 ≤ state.frames := by bv_omega
    rw [advances]
    refine enterFrame_paced running.rows running.limit later ⟨?_, ?_⟩
    · exact congrArg (· + 1) paced.framesRun
    · have elapsed := paced.elapsed
      dsimp only
      rw [BitVec.setWidth_add _ _ (by decide), elapsed, BitVec.mul_add, mul_one, BitVec.add_assoc]

theorem execStep_paced (table : List ObcTask) (input : ExecInput) (state : ExecState)
    (paced : WindowPaced table state) : WindowPaced table (execStep table input state) := by
  cases input with
  | corrupt index copy =>
      have struck : (execStep table (.corrupt index copy) state).phase = state.phase := rfl
      cases phase : state.phase <;> rw [phase] at struck <;>
        simp only [WindowPaced, Tracks, phase, struck] at paced ⊢
      · exact ⟨paced.1, paced.2.same ⟨rfl, rfl, rfl, rfl⟩⟩
      · exact ⟨⟨paced.1.rows, paced.1.limit, paced.1.within⟩, paced.2.1,
          paced.2.2.same ⟨rfl, rfl, rfl, rfl⟩⟩
      · exact ⟨⟨paced.1.rows, paced.1.limit, paced.1.within⟩, paced.2.same ⟨rfl, rfl, rfl, rfl⟩⟩
      · exact ⟨⟨paced.1.rows, paced.1.limit, paced.1.within⟩, paced.2.same ⟨rfl, rfl, rfl, rfl⟩⟩
      · exact fun ok => ⟨(paced ok).limit, (paced ok).framesRun, (paced ok).elapsed⟩
      · simp
  | turn turn =>
      cases phase : state.phase with
      | start =>
          simp only [WindowPaced, Tracks, phase] at paced
          simp only [execStep, execTurn, phase]
          exact startWindow_paced turn (paced.2.framesRun.trans paced.1)
      | visit index =>
          simp only [WindowPaced, Tracks, phase] at paced
          obtain ⟨running, inside, paced⟩ := paced
          simp only [execStep, execTurn, phase]
          cases visitStep_visited table index turn state with
          | past beyond _ => exact absurd inside (Nat.not_lt.mpr beyond)
          | reset row found visit ended => simp [WindowPaced, Tracks, ended]
          | went row found visited visit passed =>
              have carried := paced.same visit.samePace
              have within : visited.frame < visited.frames := by
                rw [visit.frame_eq, visit.frames_eq]
                exact running.within
              rw [passed]
              by_cases more : index + 1 < table.length
              · rw [if_pos more]
                exact ⟨⟨running.rows, running.limit, within⟩, more,
                  carried.same ⟨rfl, rfl, rfl, rfl⟩⟩
              · rw [if_neg more]
                exact ⟨⟨running.rows, running.limit, within⟩, carried.same ⟨rfl, rfl, rfl, rfl⟩⟩
      | endPass =>
          simp only [WindowPaced, Tracks, phase] at paced
          simpa only [execStep, execTurn, phase] using endPassStep_paced paced.1 paced.2
      | idle guard =>
          simp only [WindowPaced, Tracks, phase] at paced
          simpa only [execStep, execTurn, phase] using idleStep_paced paced.1 paced.2
      | returned status => simpa only [execStep, execTurn, phase] using paced
      | reset => simpa only [execStep, execTurn, phase] using paced

theorem run_paced (table : List ObcTask) (frames : U32) (mode : ModeState) (boot : ObcBootRecord)
    (inputs : List ExecInput) :
    WindowPaced table (run (execStep table) inputs (freshExec frames mode boot)) :=
  run_invariant (execStep_paced table) inputs ⟨rfl, rfl, rfl⟩

/-- Every entry of the log names a task of the table and a frame the task is due in. -/
def LoggedDue (table : List ObcTask) (suspensions : List ObcSuspension) : Prop :=
  ∀ entry ∈ suspensions, ∃ row, table[entry.task.toNat]? = some row ∧ row.periodFrames ≠ 0 ∧
    entry.frame.toNat % row.periodFrames.toNat = 0

def WindowLogged (table : List ObcTask) (state : ExecState) : Prop :=
  state.frames = obcSchedWindowFrames ∧ LoggedDue table state.suspensions

/-- No period reaches past the frames that a byte can name. -/
def ShortPeriods (table : List ObcTask) : Prop := ∀ row ∈ table, row.periodFrames.toNat ≤ 240

theorem LoggedDue.logged {table : List ObcTask} {suspensions : List ObcSuspension} {row : ObcTask}
    {index : Nat} {frame rung : U32} (due : LoggedDue table suspensions)
    (found : table[index]? = some row) (narrow : index < 2 ^ 8) (small : frame.toNat < 2 ^ 8)
    (here : Due row frame) : LoggedDue table (logged index frame rung suspensions) := by
  rw [ObcZero.logged]
  split
  · exact due
  intro entry member
  rcases List.mem_append.mp member with old | new
  · exact due entry old
  · obtain ⟨period, modulo⟩ := due_toNat.mp here
    rw [List.mem_singleton.mp new]
    refine ⟨row, ?_, here.1, ?_⟩
    · rw [BitVec.toNat_ofNat, Nat.mod_eq_of_lt narrow]
      exact found
    · rw [BitVec.toNat_setWidth, Nat.mod_eq_of_lt small]
      exact modulo

theorem Visit.windowLogged {table : List ObcTask} (short : ShortPeriods table) {row : ObcTask}
    {index : Nat} {turn : Turn} {state after : ExecState} (found : table[index]? = some row)
    (running : Running table state) (told : WindowLogged table state)
    (visit : Visit row index turn state after) : WindowLogged table after := by
  obtain ⟨window, due⟩ := told
  have inside := (List.getElem?_eq_some_iff.mp found).1
  have narrow : index < 2 ^ 8 := by
    have limit : table.length ≤ 8 := running.limit
    omega
  have frame : state.frame.toNat < 16 := by
    have within := running.within
    rw [window] at within
    exact within
  have period := short row (List.mem_of_getElem? found)
  refine ⟨visit.frames_eq.trans window, ?_⟩
  cases visit with
  | skipped => exact due
  | suspended => exact due
  | nullFunction => exact due
  | within => exact due
  | suspends _ _ _ _ _ overruns =>
      have next := nextDue_toNat overruns.1.1
      exact due.logged found narrow (by omega) (due_nextDue overruns.1.1 (by omega))
  | resetsSubsystem _ _ _ _ _ overruns =>
      exact due.logged found narrow (by omega) overruns.1.1
  | entersSafe => exact due
  | resetsMachine => exact due

theorem windowLogged_followed {table : List ObcTask} (short : ShortPeriods table) :
    Followed table (fun _ _ => True) (fun _ => WindowLogged table) (WindowLogged table) := by
  have kept {state after : ExecState} (told : WindowLogged table state)
      (ladder : LadderKept state after) : WindowLogged table after := by
    refine ⟨ladder.frames.trans told.1, ?_⟩
    rw [ladder.suspensions]
    exact told.2
  constructor
  · exact fun told => told
  · exact fun _ told => told
  · exact fun told => told
  · exact fun _ _ _ told ladder _ => ⟨fun _ => kept told ladder, fun _ _ => kept told ladder⟩
  · intro turn state after index row _ _ found running told visit
    have next := visit.windowLogged short found running told
    exact ⟨next, fun _ => next⟩
  · exact fun _ _ _ told ladder _ _ => ⟨fun _ => kept told ladder, fun _ _ => kept told ladder⟩
  · exact fun _ _ _ told ladder _ => ⟨fun _ => kept told ladder, fun _ _ => kept told ladder⟩

theorem run_windowLogged {table : List ObcTask} (short : ShortPeriods table) (mode : ModeState)
    (boot : ObcBootRecord) (inputs : List ExecInput) :
    WindowLogged table
      (run (execStep table) inputs (freshExec obcSchedWindowFrames mode boot)) := by
  have initial : WindowLogged table (freshExec obcSchedWindowFrames mode boot) :=
    ⟨rfl, fun _ member => absurd member List.not_mem_nil⟩
  exact ((windowLogged_followed short).run (meets_always (fun _ _ => trivial) inputs _)
    initial).conclude id

theorem find_hostTask (table : List ObcTask) (taskState : Nat → ObcTaskState) (first task : Nat) :
    ((table.zipIdx first).map fun entry => hostTask entry.1 entry.2 (taskState entry.2)).find?
        (fun host => host.index == ((first + task : Nat) : Int)) =
      table[task]?.map fun row => hostTask row (first + task) (taskState (first + task)) := by
  induction table generalizing first task with
  | nil => rfl
  | cons row rest ih =>
      rw [List.zipIdx_cons, List.map_cons, List.find?_cons]
      cases task with
      | zero => simp [hostTask]
      | succ task =>
          have other : ((hostTask row first (taskState first)).index ==
              ((first + (task + 1) : Nat) : Int)) = false := by
            simp only [hostTask, beq_eq_false_iff_ne, ne_eq, Int.natCast_inj]
            omega
          have shifted : first + (task + 1) = first + 1 + task := by omega
          rw [shifted] at other ⊢
          rw [List.getElem?_cons_succ, ← ih (first + 1) task]
          dsimp only
          rw [other]

theorem find_logged {table : List ObcTask} {state : ExecState} {entry : ObcSuspension} {row : ObcTask}
    (found : table[entry.task.toNat]? = some row) (position : Nat) :
    ((hostDumpOf table state).tasks.find? fun task =>
        task.index == (hostSuspension entry position).task) =
      some (hostTask row entry.task.toNat (state.taskState entry.task.toNat)) := by
  have host := find_hostTask table state.taskState 0 entry.task.toNat
  rw [Nat.zero_add, found, Option.map_some] at host
  exact host

section

variable {table : List ObcTask} {state : ExecState}

theorem hostTask_period {row : ObcTask} {index : Nat} {figures : ObcTaskState} :
    (hostTask row index figures).periodFrames = 0 ↔ row.periodFrames = 0 := by
  constructor
  · exact fun zero => BitVec.eq_of_toNat_eq (Int.natCast_inj.mp zero)
  · intro zero
    rw [hostTask, zero]
    rfl

theorem announcedDue_logged (due : LoggedDue table state.suspensions) {entry : ObcSuspension}
    (member : entry ∈ state.suspensions) (position : Nat) :
    AnnouncedDue (hostDumpOf table state) (hostSuspension entry position) ↔
      entry.frame.toNat < obcSchedWindowFrames.toNat := by
  obtain ⟨row, found, period, modulo⟩ := due entry member
  have host := @find_logged table state entry row found position
  constructor
  · rintro ⟨_, _, inside, _⟩
    exact Int.ofNat_lt.mp inside
  · intro inside
    refine ⟨_, host, Int.ofNat_lt.mpr inside, mt hostTask_period.mp period, ?_⟩
    change (entry.frame.toNat : Int).fmod row.periodFrames.toNat = 0
    rw [fmod_natCast, modulo]
    rfl

theorem checkSuspension_logged (due : LoggedDue table state.suspensions) {entry : ObcSuspension}
    (member : entry ∈ state.suspensions) (position : Nat) :
    checkSuspension (hostDumpOf table state) (hostSuspension entry position) ≠ none := by
  obtain ⟨row, found, period, _⟩ := due entry member
  rw [checkSuspension, @find_logged table state entry row found position]
  dsimp only
  split
  · exact Option.some_ne_none _
  · rw [if_neg (mt hostTask_period.mp period)]
    exact Option.some_ne_none _

theorem mem_hostSuspensions {suspension : HostSuspension} :
    suspension ∈ (hostDumpOf table state).suspensions →
      ∃ entry ∈ state.suspensions, ∃ position, suspension = hostSuspension entry position := by
  intro member
  obtain ⟨⟨entry, position⟩, inLog, rfl⟩ := List.mem_map.mp member
  exact ⟨entry, List.mem_of_getElem? (List.mem_zipIdx_iff_getElem?.mp inLog), position, rfl⟩

theorem due_suspensions (due : LoggedDue table state.suspensions) :
    (∀ suspension ∈ (hostDumpOf table state).suspensions,
        AnnouncedDue (hostDumpOf table state) suspension) ↔
      ∀ entry ∈ state.suspensions, entry.frame.toNat < obcSchedWindowFrames.toNat := by
  constructor
  · intro all entry member
    obtain ⟨position, found⟩ := List.mem_iff_getElem?.mp member
    refine (announcedDue_logged due member position).mp (all _ ?_)
    exact List.mem_map.mpr ⟨(entry, position), List.mem_zipIdx_iff_getElem?.mpr found, rfl⟩
  · intro all suspension member
    obtain ⟨entry, inLog, position, rfl⟩ := mem_hostSuspensions member
    exact (announcedDue_logged due inLog position).mpr (all entry inLog)

/-- What a window that has returned leaves for the checks: every dispatch is in the trace,
and every count is that of the trace. -/
structure TraceTells (table : List ObcTask) (state : ExecState) : Prop where
  complete : state.traceOverflow = 0
  counts : ∀ index < table.length,
    (state.taskState index).runs.toNat = (state.trace.map BitVec.toNat).count index

theorem conformant_hostDumpOf (tells : TraceTells table state) (paced : PacedOut table state)
    (window : WindowLogged table state) (announced : state.suspensionOverflow = 0) :
    Conformant (hostDumpOf table state) ↔
      state.trace.map BitVec.toNat = expectedTrace (dumpOf table state) ∧
        ∀ entry ∈ state.suspensions, entry.frame.toNat < obcSchedWindowFrames.toNat := by
  have trace : (hostDumpOf table state).trace =
      (state.trace.map BitVec.toNat).map fun index : Nat => (index : Int) := by
    rw [List.map_map]
    rfl
  have order : (hostDumpOf table state).trace = (hostDumpOf table state).expectedTrace ↔
      state.trace.map BitVec.toNat = expectedTrace (dumpOf table state) := by
    rw [trace, expectedTrace_hostDumpOf]
    exact List.map_inj_right fun _ _ same => Int.natCast_inj.mp same
  rw [← order, ← due_suspensions window.2]
  constructor
  · exact fun conformant => ⟨conformant.order, conformant.due⟩
  · rintro ⟨ordered, due⟩
    refine ⟨?_, ?_, ?_, ?_, ordered, ?_, due⟩
    · simp [hostDumpOf, tells.complete]
    · simp [hostDumpOf, paced.framesRun, window.1]
    · have elapsed : state.windowEndTicks.toNat = (state.windowStartTicks.toNat + 16384) % 2 ^ 32 := by
        rw [paced.elapsed, window.1, BitVec.toNat_add]
        rfl
      have start := state.windowStartTicks.isLt
      change ((state.windowEndTicks.toNat : Int) - state.windowStartTicks.toNat) % 2 ^ 32 = 16384
      omega
    · intro task member
      obtain ⟨⟨row, index⟩, inTable, rfl⟩ := List.mem_map.mp member
      have inside := (List.getElem?_eq_some_iff.mp (List.mem_zipIdx_iff_getElem?.mp inTable)).1
      rw [HostDump.dictated, ← ordered, trace]
      change ((state.taskState index).runs.toNat : Int) = _
      rw [tells.counts index inside]
      exact congrArg _ (List.count_map_of_injective _ _ (fun _ _ => Int.natCast_inj.mp) _).symm
    · simp [hostDumpOf, announced]

end

/-- Sixteen frames of eight tasks fit in the trace. -/
theorem Balanced.traceTells {table : List ObcTask} {entries : List DispatchEntry}
    {state : ExecState} (balanced : Balanced table entries state) (within : WithinFrames state)
    (limit : table.length ≤ obcMaxTasks) (window : state.frames = obcSchedWindowFrames) :
    TraceTells table state := by
  have rows : obcMaxTasks = 8 := rfl
  have fits : entries.length ≤ 128 := by
    have each : ∀ index ∈ Finset.range table.length, (state.taskState index).runs.toNat ≤ 16 := by
      intro index _
      rw [balanced.runs, length_entriesOf, balanced.order]
      exact Nat.le_trans (within index) (Nat.le_of_eq (congrArg BitVec.toNat window))
    have all := Finset.sum_le_card_nsmul _ _ _ each
    rw [balanced.total, Finset.card_range, smul_eq_mul] at all
    omega
  have whole : (entries.map DispatchEntry.task).take obcTraceCapacity =
      entries.map DispatchEntry.task := by
    apply List.take_of_length_le
    rw [List.length_map]
    change _ ≤ 256
    omega
  have narrow : ∀ task ∈ entries.map DispatchEntry.task, task < 2 ^ 8 := by
    intro task member
    obtain ⟨entry, made, rfl⟩ := List.mem_map.mp member
    have inside := balanced.rows entry made
    omega
  have trace : state.trace.map BitVec.toNat = entries.map DispatchEntry.task := by
    rw [balanced.trace, whole, List.map_map]
    refine (List.map_congr_left fun task member => ?_).trans (List.map_id _)
    exact (BitVec.toNat_ofNat _ _).trans (Nat.mod_eq_of_lt (narrow task member))
  constructor
  · rw [balanced.overflow, Nat.sub_eq_zero_of_le (by change _ ≤ 256; omega)]
    rfl
  · intro index _
    rw [balanced.runs, length_entriesOf, trace]

section

variable {table : List ObcTask} (short : ShortPeriods table) (mode : ModeState)
  (boot : ObcBootRecord) (inputs : List ExecInput)

include short

/-- A window that has returned in good order conforms exactly when its trace is the sequence
the host expects of its dump and no suspension falls due past its end. -/
theorem window_conformant
    (returned : (run (execStep table) inputs
      (freshExec obcSchedWindowFrames mode boot)).phase = .returned .ok) :
    let final := run (execStep table) inputs (freshExec obcSchedWindowFrames mode boot)
    Conformant (hostDumpOf table final) ↔
      final.trace.map BitVec.toNat = expectedTrace (dumpOf table final) ∧
        ∀ entry ∈ final.suspensions, entry.frame.toNat < obcSchedWindowFrames.toNat := by
  have within := (run_oncePerFrame table obcSchedWindowFrames mode boot inputs).withinFrames
  have balanced := (run_booked table obcSchedWindowFrames mode boot inputs).balanced within
  have room := (run_roomKept table obcSchedWindowFrames mode boot inputs).room
  have paced := run_paced table obcSchedWindowFrames mode boot inputs
  have window := run_windowLogged short mode boot inputs
  simp only [WindowPaced, Tracks, returned] at paced
  have pacedOut := paced trivial
  exact conformant_hostDumpOf (balanced.traceTells within pacedOut.limit window.1) pacedOut window
    room.overflow

/-- The script never raises over the suspensions of a window. -/
theorem window_suspensions :
    checkSuspensions (hostDumpOf table
      (run (execStep table) inputs (freshExec obcSchedWindowFrames mode boot))) ≠ none := by
  have window := run_windowLogged short mode boot inputs
  apply checkSuspensions_returns
  intro suspension member
  obtain ⟨entry, inLog, position, rfl⟩ := mem_hostSuspensions member
  exact checkSuspension_logged window.2 inLog position

end

end ObcZero
