import ObcZero.VehicleCore

/-!
The parts of the vehicle, each by itself: what a turn feeds to the executive, to the sensors,
to the downlink and to the command task. Over a run each part moves by what it is fed, in
order, so that whatever holds over every run of a part holds of it in the vehicle.
-/

namespace ObcZero

open StepSystem

/-- The mode as it stands has been asked for: asking again leaves its mirror alone. -/
def Asked (mode : ModeState) : Prop := (obcModeIsSafe mode).2.mode = mode.mode

theorem asked_obcModeIsSafe (mode : ModeState) : Asked (obcModeIsSafe mode).2 := by
  rcases vote_cases obcCriticalItems obcCriticalMode mode.critical with
    ⟨_, _, winner, _, _, _, voted⟩ | ⟨alone, after, voted, copies, _⟩
  · have written : Written obcCriticalMode winner (obcModeIsSafe mode).2.critical := by
      simp only [obcModeIsSafe, obcCriticalGet, voted, Option.getD_some]
      exact fun index => copyAt_withCopies mode.critical obcCriticalMode _ index
    have again := (written.but 0).vote obcCriticalItems
    simp only [obcModeIsSafe, obcCriticalGet, voted, Option.getD_some] at again
    simp only [Asked, obcModeIsSafe, obcCriticalGet, voted, Option.getD_some, again]
  · rcases vote_cases obcCriticalItems obcCriticalMode after with
      ⟨first, second, value, different, firstWritten, secondWritten, _⟩ | ⟨_, last, again, _⟩
    · simp only [copyAt, copies] at firstWritten secondWritten
      exact absurd (alone first second value firstWritten secondWritten) different
    · simp only [Asked, obcModeIsSafe, obcCriticalGet, voted, again]

/-- The scrubber walks the one registered item, the mode, as the question for it does. -/
theorem scrubbed_mode {mode : ModeState} (asked : Asked mode) :
    { mode with critical := (obcCriticalScrub obcCriticalItems mode.critical).2 } =
      (obcModeIsSafe mode).2 := by
  have answer : (obcModeIsSafe mode).2 =
      { mode with
        critical := (vote obcCriticalItems obcCriticalMode mode.critical).2.2
        mode := (obcModeIsSafe mode).2.mode } := by
    simp only [obcModeIsSafe, obcCriticalGet]
    split <;> rfl
  rw [answer, asked]
  rfl

theorem tracePush_eq (index : Nat) (state : ExecState) :
    ∃ trace overflow, tracePush index state =
      { state with trace := trace, traceOverflow := overflow } := by
  rw [tracePush]
  split
  · exact ⟨_, _, rfl⟩
  · exact ⟨_, _, rfl⟩

/-- How often a task asks for the mode itself. -/
def Vehicle.votes (fn : String) (vehicle : Vehicle) : Nat :=
  if fn = "task_telemetry" then if vehicle.link.tlm.layoutOk then 1 else 0
  else if fn = "task_scrub" then 1
  else 0

def Vehicle.rowVotes (row : ObcTask) (vehicle : Vehicle) : Nat :=
  match row.fn with
  | none => 0
  | some fn => vehicle.votes fn

section

variable (table : List ObcTask) (commands : List ObcCmd) (turn : VehicleTurn) {vehicle : Vehicle}

theorem Vehicle.call_exec (fn : String) (asked : Asked vehicle.exec.mode) :
    (vehicle.call table commands turn fn).exec = askModes (vehicle.votes fn) vehicle.exec := by
  rw [Vehicle.call, Vehicle.votes]
  by_cases telemetry : fn = "task_telemetry"
  · rw [if_pos telemetry, if_pos telemetry, Vehicle.taskTelemetry, Vehicle.emit]
    by_cases audited : vehicle.link.tlm.layoutOk
    · have sampled : (vehicle.sample turn).link.tlm.layoutOk = true := audited
      rw [if_pos sampled, if_pos audited]
      rfl
    · have sampled : ¬(vehicle.sample turn).link.tlm.layoutOk = true := audited
      rw [if_neg sampled, if_neg audited]
      rfl
  rw [if_neg telemetry, if_neg telemetry]
  by_cases scrub : fn = "task_scrub"
  · rw [if_pos scrub, if_pos scrub]
    exact congrArg (fun mode => { vehicle.exec with mode := mode }) (scrubbed_mode asked)
  rw [if_neg scrub, if_neg scrub]
  split
  · rfl
  · rfl

theorem Vehicle.resetSubsystem_exec (resetFn : Option String) :
    (vehicle.resetSubsystem resetFn).exec = vehicle.exec := by
  rw [Vehicle.resetSubsystem]
  split
  · rfl
  split
  · rfl
  · rfl

theorem Vehicle.dispatch_exec (row : ObcTask) (index : Nat) (frame : U32)
    (asked : Asked vehicle.exec.mode) :
    (vehicle.dispatch table commands row index frame turn).exec =
      ObcZero.dispatch row index frame (turn.toTurn (vehicle.rowVotes row)) vehicle.exec := by
  rw [Vehicle.dispatch, ObcZero.dispatch, Vehicle.rowVotes]
  cases row.fn with
  | none => rfl
  | some fn =>
      obtain ⟨trace, overflow, pushed⟩ := tracePush_eq index vehicle.exec
      have called := @Vehicle.call_exec table commands turn
        { vehicle with exec := tracePush index vehicle.exec } fn (by rw [pushed]; exact asked)
      dsimp only [VehicleTurn.toTurn]
      rw [called]
      by_cases spent : row.budgetInstr < turn.used
      · simp only [spent, ↓reduceIte]
        split
        · rw [Vehicle.resetSubsystem_exec]
          rfl
        · rfl
      · simp only [spent, ↓reduceIte]
        rfl

theorem Vehicle.visitTask_exec (row : ObcTask) (index : Nat) :
    (vehicle.visitTask table commands row index turn).exec =
      ObcZero.visitTask row index (turn.toTurn (vehicle.rowVotes row)) vehicle.exec := by
  rw [Vehicle.visitTask, ObcZero.visitTask]
  dsimp only
  split
  · rfl
  split
  · rfl
  split
  · rfl
  split
  · rfl
  · have asked : Asked ((askMode vehicle.exec).2.record
        (.visited vehicle.exec.frame index true false row.fn.isSome)).mode :=
      asked_obcModeIsSafe vehicle.exec.mode
    exact congrArg countRan (Vehicle.dispatch_exec table commands turn row index
      vehicle.exec.frame asked)

theorem Vehicle.visitStep_exec (index : Nat) {row : ObcTask} (found : table[index]? = some row) :
    (vehicle.visitStep table commands index turn).exec =
      ObcZero.visitStep table index (turn.toTurn (vehicle.rowVotes row)) vehicle.exec := by
  have visited := @Vehicle.visitTask_exec table commands turn vehicle row index
  simp only [Vehicle.visitStep, ObcZero.visitStep, found, visited]
  split
  · exact visited
  · rfl

end

def ExecState.visits (table : List ObcTask) (state : ExecState) : Option (ObcTask × Nat) :=
  match state.phase with
  | .visit index => table[index]?.map fun row => (row, index)
  | _ => none

def ExecState.calls (table : List ObcTask) (state : ExecState) : Option String :=
  (state.visits table).bind fun (row, index) => if Dispatches row index state then row.fn else none

def ExecState.resets (table : List ObcTask) (turn : VehicleTurn) (state : ExecState) :
    Option String :=
  (state.visits table).bind fun (row, index) =>
    if Overruns row index (turn.toTurn 0) state obcRungResetSubsystem then row.resetFn else none

def execFeed (table : List ObcTask) : VehicleInput → Vehicle → List ExecInput
  | .turn turn, vehicle =>
      [.turn (turn.toTurn ((vehicle.exec.visits table).elim 0 fun visited =>
        vehicle.rowVotes visited.1))]
  | .corrupt index copy, _ => [.corrupt index copy]

def sensorFeed (table : List ObcTask) : VehicleInput → Vehicle → List SensorInput
  | .turn turn, vehicle =>
      (if vehicle.exec.calls table = some "task_telemetry" then [.sample turn.raw] else []) ++
        if vehicle.exec.resets table turn = some "obc_tlm_subsystem_reset" then [.init] else []
  | .corrupt _ _, _ => []

/-- A visit asks for the mode before it calls, and `task_telemetry` samples before it emits. -/
def Vehicle.reported (table : List ObcTask) (turn : VehicleTurn) (vehicle : Vehicle) : Emission :=
  ({ vehicle with
      exec := (askMode vehicle.exec).2
      cmd.uplink := vehicle.cmd.uplink ++ turn.arrived }.sample turn).emission table turn

def linkFeed (table : List ObcTask) : VehicleInput → Vehicle → List TlmInput
  | .turn turn, vehicle =>
      (if vehicle.exec.calls table = some "task_telemetry" then
        [.emit (vehicle.reported table turn)] else []) ++
        if vehicle.exec.resets table turn = some "obc_tlm_subsystem_reset" then [.subsystemReset]
        else []
  | .corrupt _ _, _ => []

def cmdFeed (table : List ObcTask) : VehicleInput → Vehicle → List CmdInput
  | .turn turn, vehicle =>
      .receive turn.arrived ::
        ((if vehicle.exec.calls table = some "task_command" then
          [.poll, .queueRun vehicle.exec.cmdNowTicks vehicle.exec.framesRun] else []) ++
          if vehicle.exec.resets table turn = some "obc_cmd_queue_init" then [.queueInit] else [])
  | .corrupt _ _, _ => []

theorem vehicleStep_exec (table : List ObcTask) (commands : List ObcCmd) (input : VehicleInput)
    (vehicle : Vehicle) :
    (vehicleStep table commands input vehicle).exec =
      run (execStep table) (execFeed table input vehicle) vehicle.exec := by
  cases input with
  | corrupt index copy => rfl
  | turn turn =>
      rw [vehicleStep, Vehicle.turn, execFeed, ExecState.visits]
      cases phase : vehicle.exec.phase with
      | visit index =>
          simp only [run, execStep, execTurn, phase]
          cases found : table[index]? with
          | none => simp only [Vehicle.visitStep, ObcZero.visitStep, found]
          | some row => exact Vehicle.visitStep_exec table commands turn index found
      | start | endPass | idle guard | returned status | reset => rfl

/-- What a turn does outside the executive: it calls one function and resets one subsystem. -/
def Vehicle.moved (table : List ObcTask) (commands : List ObcCmd) (turn : VehicleTurn)
    (fn resetFn : Option String) (vehicle : Vehicle) : Vehicle :=
  (fn.elim vehicle fun fn => vehicle.call table commands turn fn).resetSubsystem resetFn

structure SameParts (first second : Vehicle) : Prop where
  sensors : first.sensors = second.sensors
  link : first.link = second.link
  cmd : first.cmd = second.cmd
  resetCause : first.resetCause = second.resetCause

theorem SameParts.refl (vehicle : Vehicle) : SameParts vehicle vehicle := ⟨rfl, rfl, rfl, rfl⟩

theorem SameParts.trans {first second third : Vehicle} (left : SameParts first second)
    (right : SameParts second third) : SameParts first third :=
  ⟨left.sensors.trans right.sensors, left.link.trans right.link, left.cmd.trans right.cmd,
    left.resetCause.trans right.resetCause⟩

theorem SameParts.withExec {first second : Vehicle} (same : SameParts first second)
    (exec : ExecState) : SameParts { first with exec := exec } second :=
  ⟨same.sensors, same.link, same.cmd, same.resetCause⟩

theorem SameParts.resetSubsystem {first second : Vehicle} (same : SameParts first second)
    (resetFn : Option String) :
    SameParts (first.resetSubsystem resetFn) (second.resetSubsystem resetFn) := by
  rw [Vehicle.resetSubsystem, Vehicle.resetSubsystem]
  split
  · exact ⟨congrArg obcSensorInit same.sensors, congrArg (tlmStep .subsystemReset) same.link,
      same.cmd, same.resetCause⟩
  split
  · exact ⟨same.sensors, same.link, congrArg obcCmdQueueInit same.cmd, same.resetCause⟩
  · exact same

section

variable (table : List ObcTask) (commands : List ObcCmd) (turn : VehicleTurn)

/-- No function reads the trace, the counts of the frame or the record of the run. -/
theorem Vehicle.call_parts (fn : String) (vehicle : Vehicle) (due : Nat) (trace : List U8)
    (overflow : U32) (log : List ExecEvent) :
    SameParts
      ({ vehicle with
          exec.due := due
          exec.trace := trace
          exec.traceOverflow := overflow
          exec.log := log }.call table commands turn fn)
      (vehicle.call table commands turn fn) := by
  rw [Vehicle.call, Vehicle.call]
  split
  · simp only [Vehicle.taskTelemetry, Vehicle.emit, Vehicle.sample]
    by_cases audited : vehicle.link.tlm.layoutOk = true
    · simp only [audited]
      exact ⟨rfl, rfl, rfl, rfl⟩
    · simp only [audited]
      exact ⟨rfl, rfl, rfl, rfl⟩
  split
  · exact ⟨rfl, rfl, rfl, rfl⟩
  split
  · exact ⟨rfl, rfl, rfl, rfl⟩
  · exact ⟨rfl, rfl, rfl, rfl⟩

theorem Vehicle.dispatch_parts {row : ObcTask} {fn : String} (function : row.fn = some fn)
    (index : Nat) (frame : U32) {vehicle : Vehicle} (asked : Asked vehicle.exec.mode) :
    SameParts (vehicle.dispatch table commands row index frame turn)
      (vehicle.moved table commands turn row.fn
        (if row.budgetInstr < turn.used ∧
            selectRung row ((vehicle.exec.taskState index).overruns + 1) = obcRungResetSubsystem
          then row.resetFn else none)) := by
  obtain ⟨trace, overflow, pushed⟩ := tracePush_eq index vehicle.exec
  have called := Vehicle.call_parts table commands turn fn vehicle vehicle.exec.due trace overflow
    vehicle.exec.log
  obtain ⟨mode, taskState, pushOverflow, -, overruns, ran⟩ :=
    countRun_dispatched index (vehicle.votes fn) turn.used vehicle.exec
  have counted : countRun index turn.used
      ({ vehicle with exec := tracePush index vehicle.exec }.call table commands turn fn).exec =
        { vehicle.exec with
          mode := mode
          taskState := taskState
          trace := ObcZero.pushed index vehicle.exec.trace
          traceOverflow := pushOverflow } := by
    rw [← ran]
    exact congrArg (countRun index turn.used)
      (Vehicle.call_exec table commands turn fn (by rw [pushed]; exact asked))
  simp only [Vehicle.dispatch, Vehicle.moved, function, Option.elim_some, counted, countOverrun,
    Function.update_self, overruns]
  rw [pushed]
  by_cases spent : row.budgetInstr < turn.used
  swap
  · simp only [spent, ↓reduceIte, false_and]
    exact called.withExec _
  by_cases second : selectRung row ((vehicle.exec.taskState index).overruns + 1) =
      obcRungResetSubsystem
  · simp only [spent, second, ↓reduceIte, and_self]
    exact (called.withExec _).resetSubsystem row.resetFn
  · simp only [spent, second, ↓reduceIte, and_false]
    exact called.withExec _

theorem Vehicle.dispatch_counted {row : ObcTask} {fn : String} (function : row.fn = some fn)
    (index : Nat) (frame : U32) (vehicle : Vehicle) (asked : Asked vehicle.exec.mode) (due : Nat)
    (log : List ExecEvent) :
    SameParts
      ({ vehicle with exec.due := due, exec.log := log }.dispatch table commands row index frame turn)
      (vehicle.moved table commands turn row.fn
        (if row.budgetInstr < turn.used ∧
            selectRung row ((vehicle.exec.taskState index).overruns + 1) = obcRungResetSubsystem
          then row.resetFn else none)) := by
  have dispatched := @Vehicle.dispatch_parts table commands turn row fn function index frame
    { vehicle with exec.due := due, exec.log := log } asked
  rw [function] at dispatched ⊢
  exact dispatched.trans ((Vehicle.call_parts table commands turn fn vehicle due
    vehicle.exec.trace vehicle.exec.traceOverflow log).resetSubsystem _)

theorem Vehicle.visitTask_parts (row : ObcTask) (index : Nat) (vehicle : Vehicle) :
    SameParts (vehicle.visitTask table commands row index turn)
      ({ vehicle with exec := (askMode vehicle.exec).2 }.moved table commands turn
        (if Dispatches row index vehicle.exec then row.fn else none)
        (if Overruns row index (turn.toTurn 0) vehicle.exec obcRungResetSubsystem then row.resetFn
          else none)) := by
  have asked : Asked (obcModeIsSafe vehicle.exec.mode).2 := asked_obcModeIsSafe vehicle.exec.mode
  by_cases goes : Dispatches row index vehicle.exec
  · obtain ⟨fn, function⟩ := Option.isSome_iff_exists.mp goes.2.2.2
    have answered : ((obcModeIsSafe vehicle.exec.mode).1 && !row.essential) = false := by
      simpa [Withheld] using goes.2.1
    have vacant : (vehicle.exec.suspendedTask == BitVec.ofNat 32 index &&
        vehicle.exec.suspendedFrame == vehicle.exec.frame) = false := goes.2.2.1
    simp only [Overruns, goes, true_and, ↓reduceIte]
    simp only [Vehicle.visitTask, goes.1.1, askMode, answered, goes.1.2, obcRecoverIsSuspended,
      vacant, ne_eq, not_true_eq_false, Bool.false_eq_true, ↓reduceIte]
    generalize (obcModeIsSafe vehicle.exec.mode).2 = mode at asked ⊢
    exact (Vehicle.dispatch_counted table commands turn function index vehicle.exec.frame
      { vehicle with exec.mode := mode } asked (vehicle.exec.due + 1) _).withExec _
  · have calm : ¬Overruns row index (turn.toTurn 0) vehicle.exec obcRungResetSubsystem :=
      fun overruns => goes overruns.1
    rw [if_neg goes, if_neg calm, Vehicle.visitTask]
    dsimp only
    split
    · exact ⟨rfl, rfl, rfl, rfl⟩
    rename_i period
    split
    · exact ⟨rfl, rfl, rfl, rfl⟩
    rename_i answered
    split
    · exact ⟨rfl, rfl, rfl, rfl⟩
    rename_i modulo
    split
    · exact ⟨rfl, rfl, rfl, rfl⟩
    rename_i occupied
    have null : row.fn = none := by
      by_contra function
      refine goes ⟨⟨period, by simpa using modulo⟩, ?_, Bool.eq_false_iff.mpr occupied,
        Option.isSome_iff_ne_none.mpr function⟩
      simpa [Withheld, askMode] using answered
    rw [Vehicle.dispatch, null]
    exact ⟨rfl, rfl, rfl, rfl⟩

theorem Vehicle.visitStep_parts {row : ObcTask} {index : Nat} (found : table[index]? = some row)
    (vehicle : Vehicle) :
    SameParts (vehicle.visitStep table commands index turn)
      (vehicle.visitTask table commands row index turn) := by
  rw [Vehicle.visitStep, found]
  dsimp only
  split
  · exact .refl _
  · exact ⟨rfl, rfl, rfl, rfl⟩

theorem Vehicle.turn_parts (vehicle : Vehicle) :
    SameParts (vehicle.turn table commands turn)
      ({ vehicle with
          exec := (askMode vehicle.exec).2
          cmd.uplink := vehicle.cmd.uplink ++ turn.arrived }.moved table commands turn
        (vehicle.exec.calls table) (vehicle.exec.resets table turn)) := by
  rw [Vehicle.turn, ExecState.calls, ExecState.resets, ExecState.visits]
  cases phase : vehicle.exec.phase with
  | visit index =>
      cases found : table[index]? with
      | none =>
          simp only [Vehicle.visitStep, found]
          exact ⟨rfl, rfl, rfl, rfl⟩
      | some row =>
          simp only [found, Option.map_some, Option.bind_some]
          exact (Vehicle.visitStep_parts table commands turn found _).trans
            (Vehicle.visitTask_parts table commands turn row index
              { vehicle with cmd := cmdStep commands (.receive turn.arrived) vehicle.cmd })
  | start | endPass | idle guard | returned status | reset =>
      exact ⟨rfl, rfl, rfl, rfl⟩

end

/-- What the parts outside the executive are fed on the way from one vehicle to the next. -/
structure Fed (commands : List ObcCmd) (samples : List SensorInput) (emitted : List TlmInput)
    (handled : List CmdInput) (before after : Vehicle) : Prop where
  sensors : after.sensors = run sensorStep samples before.sensors
  link : after.link = run tlmStep emitted before.link
  cmd : after.cmd = run (cmdStep commands) handled before.cmd
  resetCause : after.resetCause = before.resetCause

section

variable (commands : List ObcCmd)

theorem Fed.trans {samples moreSamples : List SensorInput} {emitted moreEmitted : List TlmInput}
    {handled moreHandled : List CmdInput} {first second third : Vehicle}
    (fed : Fed commands samples emitted handled first second)
    (more : Fed commands moreSamples moreEmitted moreHandled second third) :
    Fed commands (samples ++ moreSamples) (emitted ++ moreEmitted) (handled ++ moreHandled) first
      third := by
  constructor
  · rw [run_append, ← fed.sensors, more.sensors]
  · rw [run_append, ← fed.link, more.link]
  · rw [run_append, ← fed.cmd, more.cmd]
  · rw [more.resetCause, fed.resetCause]

theorem Fed.congr {samples : List SensorInput} {emitted : List TlmInput} {handled : List CmdInput}
    {before after other : Vehicle} (fed : Fed commands samples emitted handled before after)
    (same : SameParts other after) : Fed commands samples emitted handled before other :=
  ⟨same.sensors.trans fed.sensors, same.link.trans fed.link, same.cmd.trans fed.cmd,
    same.resetCause.trans fed.resetCause⟩

theorem Vehicle.sample_link (turn : VehicleTurn) (vehicle : Vehicle) :
    (vehicle.sample turn).link = vehicle.link := by
  rw [Vehicle.sample]

theorem Vehicle.call_fed (table : List ObcTask) (turn : VehicleTurn) (fn : Option String)
    (vehicle : Vehicle) :
    Fed commands (if fn = some "task_telemetry" then [.sample turn.raw] else [])
      (if fn = some "task_telemetry" then [.emit ((vehicle.sample turn).emission table turn)] else [])
      (if fn = some "task_command" then
        [.poll, .queueRun vehicle.exec.cmdNowTicks vehicle.exec.framesRun] else [])
      vehicle (fn.elim vehicle fun fn => vehicle.call table commands turn fn) := by
  cases fn with
  | none => exact ⟨rfl, rfl, rfl, rfl⟩
  | some fn =>
      rw [Option.elim_some, Vehicle.call]
      simp only [Option.some.injEq]
      by_cases telemetry : fn = "task_telemetry"
      · have other : ¬fn = "task_command" := by
          rw [telemetry]
          decide
        rw [if_pos telemetry, if_pos telemetry, if_pos telemetry, if_neg other,
          Vehicle.taskTelemetry, Vehicle.emit]
        by_cases audited : vehicle.link.tlm.layoutOk = true
        · have sampled : (vehicle.sample turn).link.tlm.layoutOk = true := audited
          rw [if_pos sampled]
          refine ⟨rfl, ?_, rfl, rfl⟩
          rw [run, run, ← Vehicle.sample_link turn vehicle]
        · have sampled : ¬(vehicle.sample turn).link.tlm.layoutOk = true := audited
          have silent (emission : Emission) :
              tlmStep (.emit emission) vehicle.link = vehicle.link := by
            rw [tlmStep, if_neg audited]
          rw [if_neg sampled]
          exact ⟨rfl, (silent _).symm, rfl, rfl⟩
      by_cases scrub : fn = "task_scrub"
      · subst scrub
        exact ⟨rfl, rfl, rfl, rfl⟩
      simp only [telemetry, scrub, ↓reduceIte]
      by_cases command : fn = "task_command"
      · subst command
        exact ⟨rfl, rfl, rfl, rfl⟩
      · simp only [command, ↓reduceIte]
        exact ⟨rfl, rfl, rfl, rfl⟩

theorem Vehicle.resetSubsystem_fed (resetFn : Option String) (vehicle : Vehicle) :
    Fed commands (if resetFn = some "obc_tlm_subsystem_reset" then [.init] else [])
      (if resetFn = some "obc_tlm_subsystem_reset" then [.subsystemReset] else [])
      (if resetFn = some "obc_cmd_queue_init" then [.queueInit] else [])
      vehicle (vehicle.resetSubsystem resetFn) := by
  rw [Vehicle.resetSubsystem]
  by_cases telemetry : resetFn = some "obc_tlm_subsystem_reset"
  · subst telemetry
    exact ⟨rfl, rfl, rfl, rfl⟩
  by_cases queue : resetFn = some "obc_cmd_queue_init"
  · subst queue
    exact ⟨rfl, rfl, rfl, rfl⟩
  · simp only [telemetry, queue, ↓reduceIte]
    exact ⟨rfl, rfl, rfl, rfl⟩

theorem Vehicle.turn_fed (table : List ObcTask) (turn : VehicleTurn) (vehicle : Vehicle) :
    Fed commands (sensorFeed table (.turn turn) vehicle) (linkFeed table (.turn turn) vehicle)
      (cmdFeed table (.turn turn) vehicle) vehicle (vehicle.turn table commands turn) := by
  have received : Fed commands [] [] [.receive turn.arrived] vehicle
      { vehicle with
        exec := (askMode vehicle.exec).2
        cmd.uplink := vehicle.cmd.uplink ++ turn.arrived } := ⟨rfl, rfl, rfl, rfl⟩
  exact (received.trans commands ((Vehicle.call_fed commands table turn _ _).trans commands
    (Vehicle.resetSubsystem_fed commands _ _))).congr commands
      (Vehicle.turn_parts table commands turn vehicle)

theorem vehicleStep_fed (table : List ObcTask) (input : VehicleInput) (vehicle : Vehicle) :
    Fed commands (sensorFeed table input vehicle) (linkFeed table input vehicle)
      (cmdFeed table input vehicle) vehicle (vehicleStep table commands input vehicle) := by
  cases input with
  | turn turn => exact Vehicle.turn_fed commands table turn vehicle
  | corrupt index copy => exact ⟨rfl, rfl, rfl, rfl⟩

/-- Over any run of the vehicle, each part does what it does alone on what the run feeds it. -/
theorem vehicle_runs_its_parts (table : List ObcTask) (inputs : List VehicleInput)
    (start : Vehicle) :
    let fed {PartInput : Type} (feed : VehicleInput → Vehicle → List PartInput) :=
      emissions (vehicleStep table commands) feed inputs start
    let final := run (vehicleStep table commands) inputs start
    final.exec = run (execStep table) (fed (execFeed table)) start.exec ∧
      final.sensors = run sensorStep (fed (sensorFeed table)) start.sensors ∧
      final.link = run tlmStep (fed (linkFeed table)) start.link ∧
      final.cmd = run (cmdStep commands) (fed (cmdFeed table)) start.cmd ∧
      final.resetCause = start.resetCause := by
  refine ⟨run_part (vehicleStep_exec table commands) inputs start,
    run_part (fun input vehicle => (vehicleStep_fed commands table input vehicle).sensors) inputs
      start,
    run_part (fun input vehicle => (vehicleStep_fed commands table input vehicle).link) inputs start,
    run_part (fun input vehicle => (vehicleStep_fed commands table input vehicle).cmd) inputs start,
    ?_⟩
  have kept : ∀ input vehicle, vehicle.resetCause = start.resetCause →
      (vehicleStep table commands input vehicle).resetCause = start.resetCause :=
    fun input vehicle same => (vehicleStep_fed commands table input vehicle).resetCause.trans same
  exact run_invariant kept inputs rfl

end

end ObcZero
