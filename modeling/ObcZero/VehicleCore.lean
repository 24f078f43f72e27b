import ObcZero.CommandTiming
import ObcZero.FrameSearchCore
import ObcZero.SchedSteps
import ObcZero.SensorCore

/-!
The vehicle in its window: the executive with the tasks of `flight/core/tasks.c` in it. What
a dispatched task does is an input of the executive's own model; here the task does it, to
the subsystems that it drives.
-/

namespace ObcZero

/-- What one turn meets: a reading of the clock, the instructions a dispatched task retires,
the raw counts of the sensors, what the uplink has received, and how busy the downlink is. -/
structure VehicleTurn where
  clock : ObcStatus
  now : U64
  used : U32
  raw : Fin obcSensorCount → U16
  arrived : List U8
  full : Nat → Nat

inductive VehicleInput
  | turn (turn : VehicleTurn)
  | corrupt (index : Fin 3) (copy : ObcCriticalCopy)

/-- `resetCause` is `obc_reset_cause_previous`, which the boot has latched. -/
structure Vehicle where
  exec : ExecState
  sensors : SensorState
  link : Downlink
  cmd : CmdState
  resetCause : U32

def VehicleTurn.toTurn (turn : VehicleTurn) (votes : Nat) : Turn :=
  { clock := turn.clock, now := turn.now, used := turn.used, votes := votes }

/-- What `obc_tlm_emit` publishes, in the order in which it reads it: the voter's counters
stand in the frame as they were before its own question about the mode. -/
def Vehicle.published (table : List ObcTask) (turn : VehicleTurn) (vehicle : Vehicle) :
    TlmReadings :=
  let exec := vehicle.exec
  { clock := turn.clock
    now := turn.now
    framesRun := exec.framesRun
    frameOverruns := exec.frameOverruns
    slackTicksMin := exec.slackTicksMin
    taskOverruns := (List.range table.length).map fun index => (exec.taskState index).overruns
    repairs := exec.mode.critical.repairs
    failedVotes := exec.mode.critical.failedVotes
    suspensionCount := BitVec.ofNat 32 exec.suspensions.length
    shortBoots := obcRecoverShortBoots exec.boot
    modeIsSafe := (obcModeIsSafe exec.mode).1
    safeReason := exec.mode.safeReason
    resetCause := vehicle.resetCause
    sensorFlags := vehicle.sensors.flags
    sensorValue := vehicle.sensors.value }

def Vehicle.emission (table : List ObcTask) (turn : VehicleTurn) (vehicle : Vehicle) : Emission :=
  { readings := vehicle.published table turn, command := vehicle.cmd, full := turn.full }

def Vehicle.emit (table : List ObcTask) (turn : VehicleTurn) (vehicle : Vehicle) : Vehicle :=
  if vehicle.link.tlm.layoutOk then
    { vehicle with
      exec := (askMode vehicle.exec).2
      link := tlmStep (.emit (vehicle.emission table turn)) vehicle.link }
  else vehicle

def Vehicle.sample (turn : VehicleTurn) (vehicle : Vehicle) : Vehicle :=
  { vehicle with sensors := (obcSensorSample turn.raw vehicle.sensors).2 }

def Vehicle.taskTelemetry (table : List ObcTask) (turn : VehicleTurn) (vehicle : Vehicle) :
    Vehicle :=
  (vehicle.sample turn).emit table turn

def Vehicle.taskScrub (vehicle : Vehicle) : Vehicle :=
  { vehicle with
    exec.mode.critical := (obcCriticalScrub obcCriticalItems vehicle.exec.mode.critical).2 }

def Vehicle.taskCommand (commands : List ObcCmd) (vehicle : Vehicle) : Vehicle :=
  { vehicle with
    cmd := ObcZero.taskCommand commands vehicle.exec.cmdNowTicks vehicle.exec.framesRun
      vehicle.cmd }

/-- `task->fn()`. `task_housekeeping` and `task_audit` only retire instructions. -/
def Vehicle.call (table : List ObcTask) (commands : List ObcCmd) (turn : VehicleTurn)
    (fn : String) (vehicle : Vehicle) : Vehicle :=
  if fn = "task_telemetry" then vehicle.taskTelemetry table turn
  else if fn = "task_scrub" then vehicle.taskScrub
  else if fn = "task_command" then vehicle.taskCommand commands
  else vehicle

/-- `reset_fn()`. -/
def Vehicle.resetSubsystem (resetFn : Option String) (vehicle : Vehicle) : Vehicle :=
  if resetFn = some "obc_tlm_subsystem_reset" then
    { vehicle with
      sensors := obcSensorInit vehicle.sensors
      link := tlmStep .subsystemReset vehicle.link }
  else if resetFn = some "obc_cmd_queue_init" then
    { vehicle with cmd := obcCmdQueueInit vehicle.cmd }
  else vehicle

def Vehicle.dispatch (table : List ObcTask) (commands : List ObcCmd) (row : ObcTask) (index : Nat)
    (frame : U32) (turn : VehicleTurn) (vehicle : Vehicle) : Vehicle :=
  match row.fn with
  | none => vehicle
  | some fn =>
      let called := Vehicle.call table commands turn fn
        { vehicle with exec := tracePush index vehicle.exec }
      let counted := { called with exec := countRun index turn.used called.exec }
      if row.budgetInstr < turn.used then
        let overrun := countOverrun index counted.exec
        let rung := selectRung row (overrun.taskState index).overruns
        let escalated :=
          { counted with exec := obcRecoverEscalate row rung index frame overrun }
        if rung = obcRungResetSubsystem then escalated.resetSubsystem row.resetFn else escalated
      else counted

def Vehicle.visitTask (table : List ObcTask) (commands : List ObcCmd) (row : ObcTask)
    (index : Nat) (turn : VehicleTurn) (vehicle : Vehicle) : Vehicle :=
  let frame := vehicle.exec.frame
  let passed (exec : ExecState) : Vehicle :=
    { vehicle with exec := exec.record (.visited frame index false false false) }
  if row.periodFrames = 0 then passed vehicle.exec
  else
    let (safe, asked) := askMode vehicle.exec
    if safe && !row.essential then passed asked
    else if frame % row.periodFrames ≠ 0 then passed asked
    else
      let counted := { asked with due := asked.due + 1 }
      if obcRecoverIsSuspended index frame counted then
        { vehicle with exec := counted.record (.visited frame index true true false) }
      else
        let dispatched := Vehicle.dispatch table commands row index frame turn
          { vehicle with exec := counted.record (.visited frame index true false row.fn.isSome) }
        { dispatched with exec.ran := dispatched.exec.ran + 1 }

def Vehicle.visitStep (table : List ObcTask) (commands : List ObcCmd) (index : Nat)
    (turn : VehicleTurn) (vehicle : Vehicle) : Vehicle :=
  match table[index]? with
  | none => { vehicle with exec.phase := .endPass }
  | some row =>
      let visited := vehicle.visitTask table commands row index turn
      if visited.exec.phase = .reset then visited
      else
        { visited with
          exec.phase := if index + 1 < table.length then .visit (index + 1) else .endPass }

/-- A turn of the executive, whose tasks meet what the uplink has received by then. -/
def Vehicle.turn (table : List ObcTask) (commands : List ObcCmd) (turn : VehicleTurn)
    (vehicle : Vehicle) : Vehicle :=
  let received := { vehicle with cmd := cmdStep commands (.receive turn.arrived) vehicle.cmd }
  match received.exec.phase with
  | .visit index => received.visitStep table commands index turn
  | _ => { received with exec := execTurn table (turn.toTurn 0) received.exec }

def vehicleStep (table : List ObcTask) (commands : List ObcCmd) :
    VehicleInput → Vehicle → Vehicle
  | .turn turn, vehicle => vehicle.turn table commands turn
  | .corrupt index copy, vehicle =>
      { vehicle with exec := execStep table (.corrupt index copy) vehicle.exec }

end ObcZero
