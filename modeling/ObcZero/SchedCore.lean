import ObcZero.RecoverCore

/-!
The cyclic executive (`flight/core/sched.h`, `flight/core/sched.c`,
`flight/core/tasks.c`), one step for each turn of one of its loops, so that a
corruption can fall between any two turns.
-/

namespace ObcZero

abbrev obcTraceCapacity : Nat := 256
def obcSchedWindowFrames : U32 := 16
def obcSchedFrameTicks : U64 := 1024
def idleGuardLimit : Nat := 1024 * 8192

def obcTaskTable : List ObcTask :=
  [{ name := "housekeeping", fn := some "task_housekeeping", periodFrames := 1,
     budgetInstr := 1000, essential := true, resetFn := none },
   { name := "telemetry", fn := some "task_telemetry", periodFrames := 2,
     budgetInstr := 4500, essential := true, resetFn := some "obc_tlm_subsystem_reset" },
   { name := "scrub", fn := some "task_scrub", periodFrames := 4,
     budgetInstr := 3000, essential := false, resetFn := none },
   { name := "audit", fn := some "task_audit", periodFrames := 8,
     budgetInstr := 5000, essential := false, resetFn := none },
   { name := "command", fn := some "task_command", periodFrames := 1,
     budgetInstr := 12000, essential := true, resetFn := some "obc_cmd_queue_init" }]

/-- What one turn meets: a reading of the clock and how it went, the instructions
a dispatched task retires, and how often it asks for the mode itself. -/
structure Turn where
  clock : ObcStatus
  now : U64
  used : U32
  votes : Nat

def freshExec (frames : U32) (mode : ModeState) (boot : ObcBootRecord) : ExecState :=
  { mode := mode, boot := boot, suspensions := [], suspensionOverflow := 0
    suspendedTask := 0xFFFFFFFF, suspendedFrame := 0xFFFFFFFF, trace := [], traceOverflow := 0
    taskState := fun _ => { runs := 0, overruns := 0, maxInstr := 0 }
    framesRun := 0, frameOverruns := 0, slackTicksMin := 0, windowStartTicks := 0
    windowEndTicks := 0, cmdNowTicks := 0, safeEntryFrame := obcSafeEntryNone
    frames := frames, frame := 0, frameStart := 0, due := 0, ran := 0
    phase := .start, log := [] }

def askMode (state : ExecState) : Bool × ExecState :=
  ((obcModeIsSafe state.mode).1, { state with mode := (obcModeIsSafe state.mode).2 })

def askModes : Nat → ExecState → ExecState
  | 0, state => state
  | votes + 1, state => askModes votes (askMode state).2

def obcSuspendedThisFrame (table : List ObcTask) (frame : U32) (state : ExecState) : Nat :=
  (table.zipIdx.filter fun (row, index) =>
    row.periodFrames != 0 && frame % row.periodFrames == 0 &&
      obcRecoverIsSuspended index frame state).length

def tracePush (index : Nat) (state : ExecState) : ExecState :=
  if obcTraceCapacity ≤ state.trace.length then
    { state with traceOverflow := state.traceOverflow + 1 }
  else { state with trace := state.trace ++ [BitVec.ofNat 8 index] }

def countRun (index : Nat) (used : U32) (state : ExecState) : ExecState :=
  let task := state.taskState index
  { state with
    taskState := Function.update state.taskState index
      { task with
        runs := task.runs + 1
        maxInstr := if task.maxInstr < used then used else task.maxInstr } }

def countOverrun (index : Nat) (state : ExecState) : ExecState :=
  let task := state.taskState index
  { state with
    taskState := Function.update state.taskState index
      { task with overruns := task.overruns + 1 } }

def selectRung (row : ObcTask) (overruns : U32) : U32 :=
  if overruns = 1 then obcRungSuspendTask
  else if overruns = 2 ∧ row.resetFn.isSome then obcRungResetSubsystem
  else obcRungResetMachine

def dispatch (row : ObcTask) (index : Nat) (frame : U32) (turn : Turn) (state : ExecState) :
    ExecState :=
  match row.fn with
  | none => state
  | some _ =>
      let counted := countRun index turn.used (askModes turn.votes (tracePush index state))
      if row.budgetInstr < turn.used then
        let overrun := countOverrun index counted
        obcRecoverEscalate row (selectRung row (overrun.taskState index).overruns) index frame
          overrun
      else counted

def schedNow (turn : Turn) (frame : U32) (state : ExecState) : ExecState :=
  if turn.clock = .errUnstable then
    let (safe, asked) := askMode state
    if safe then asked
    else
      { asked with
        safeEntryFrame := frame
        mode := obcModeEnterSafe obcSafeClock asked.mode }
  else state

def returnFrom (status : ObcStatus) (state : ExecState) : ExecState :=
  { state with phase := .returned status, log := .disarmHardware :: state.log }

def enterFrame (state : ExecState) : ExecState :=
  if state.frame < state.frames then
    { state with
      cmdNowTicks := state.frameStart.setWidth 32
      due := 0
      ran := 0
      phase := .visit 0 }
  else returnFrom .ok { state with windowEndTicks := state.frameStart.setWidth 32 }

def startWindow (table : List ObcTask) (turn : Turn) (state : ExecState) : ExecState :=
  let armed := state.record .armHardware
  if table.length = 0 ∨ obcMaxTasks < table.length then returnFrom .errInvalid armed
  else
    let read := schedNow turn 0 armed
    if turn.clock ≠ .ok then returnFrom turn.clock read
    else
      let (safe, asked) := askMode
        { read with
          frameStart := turn.now
          slackTicksMin := obcSchedFrameTicks.setWidth 32
          windowStartTicks := turn.now.setWidth 32 }
      enterFrame
        { asked with
          safeEntryFrame :=
            if safe ∧ asked.safeEntryFrame = obcSafeEntryNone then 0 else asked.safeEntryFrame
          frame := 0 }

def visitTask (row : ObcTask) (index : Nat) (turn : Turn) (state : ExecState) : ExecState :=
  let frame := state.frame
  if row.periodFrames = 0 then state.record (.visited frame index false false false)
  else
    let (safe, asked) := askMode state
    if safe && !row.essential then asked.record (.visited frame index false false false)
    else if frame % row.periodFrames ≠ 0 then
      asked.record (.visited frame index false false false)
    else
      let counted := { asked with due := asked.due + 1 }
      if obcRecoverIsSuspended index frame counted then
        counted.record (.visited frame index true true false)
      else
        let dispatched := dispatch row index frame turn
          (counted.record (.visited frame index true false row.fn.isSome))
        { dispatched with ran := dispatched.ran + 1 }

def visitStep (table : List ObcTask) (index : Nat) (turn : Turn) (state : ExecState) : ExecState :=
  match table[index]? with
  | none => { state with phase := .endPass }
  | some row =>
      let visited := visitTask row index turn state
      if visited.phase = .reset then visited
      else
        { visited with phase := if index + 1 < table.length then .visit (index + 1) else .endPass }

/-- After the last dispatch of a frame: the feed, and the frame's slack. -/
def endPassStep (table : List ObcTask) (turn : Turn) (state : ExecState) : ExecState :=
  let frame := state.frame
  let deadline := state.frameStart + obcSchedFrameTicks
  let fed :=
    if state.ran + obcSuspendedThisFrame table frame state = state.due then
      state.record (.feedHardware frame)
    else state
  let read := schedNow turn frame (fed.record (.endOfPass frame))
  if turn.clock ≠ .ok then returnFrom turn.clock read
  else if deadline ≤ turn.now then
    let (safe, asked) := askMode
      { read with frameOverruns := read.frameOverruns + 1, slackTicksMin := 0 }
    if safe then { asked with phase := .idle 0 }
    else
      { asked with
        safeEntryFrame := frame
        mode := obcModeEnterSafe obcSafeFrameOverrun asked.mode
        phase := .idle 0 }
  else
    let slack : U32 := (deadline - turn.now).setWidth 32
    { read with
      slackTicksMin := if slack < read.slackTicksMin then slack else read.slackTicksMin
      phase := .idle 0 }

def idleStep (guard : Nat) (turn : Turn) (state : ExecState) : ExecState :=
  let deadline := state.frameStart + obcSchedFrameTicks
  let read := schedNow turn state.frame state
  if turn.clock ≠ .ok then returnFrom turn.clock read
  else if deadline ≤ turn.now then
    enterFrame
      { read with
        frameStart := deadline
        framesRun := read.framesRun + 1
        frame := read.frame + 1 }
  else if guard + 1 < idleGuardLimit then { read with phase := .idle (guard + 1) }
  else returnFrom .errTimeout read

def execTurn (table : List ObcTask) (turn : Turn) (state : ExecState) : ExecState :=
  match state.phase with
  | .start => startWindow table turn state
  | .visit index => visitStep table index turn state
  | .endPass => endPassStep table turn state
  | .idle guard => idleStep guard turn state
  | .returned _ => state
  | .reset => state

inductive ExecInput
  | turn (turn : Turn)
  | corrupt (index : Fin 3) (copy : ObcCriticalCopy)

def execStep (table : List ObcTask) : ExecInput → ExecState → ExecState
  | .turn turn, state => execTurn table turn state
  | .corrupt index copy, state =>
      { state with
        mode := { state.mode with
          critical := storeCopy obcCriticalMode index copy state.mode.critical } }

end ObcZero
