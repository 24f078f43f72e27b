import ObcZero.ModeCore

/-!
The state of the executive and the escalation ladder (`flight/core/recover.h`,
`flight/core/recover.c`). `log` is no part of the program: it records, newest
first, the visits of the dispatch loop and what the ladder and the watchdog did.
-/

namespace ObcZero

def obcRungNone : U32 := 0
def obcRungSuspendTask : U32 := 1
def obcRungResetSubsystem : U32 := 2
def obcRungResetMachine : U32 := 3

abbrev obcSuspendLogLen : Nat := 16
def obcShortBootLimit : U32 := 5
def obcBootMagic : U32 := 0x0BC8007A
def obcBootChecksumSeed : U32 := 0x7A00BC0B
def obcSafeEntryNone : U32 := 0xFFFFFFFF

/-- Function pointers are known by their names, `none` being null. -/
structure ObcTask where
  name : String
  fn : Option String
  periodFrames : U32
  budgetInstr : U32
  essential : Bool
  resetFn : Option String
  deriving DecidableEq, Repr

structure ObcTaskState where
  runs : U32
  overruns : U32
  maxInstr : U32
  deriving DecidableEq, Repr

structure ObcSuspension where
  task : U8
  frame : U8
  rung : U8
  deriving DecidableEq, Repr

structure ObcBootRecord where
  magic : U32
  checksum : U32
  shortBoots : U32
  inProgress : U32
  deriving DecidableEq, Repr

inductive Phase
  | start
  | visit (index : Nat)
  | endPass
  | idle (guard : Nat)
  | returned (status : ObcStatus)
  | reset
  deriving DecidableEq, Repr

inductive ExecEvent
  | visited (frame : U32) (task : Nat) (due suspended dispatched : Bool)
  | suspendTask (task : Nat) (frame nextDue : U32)
  | resetSubsystem (task : Nat) (frame : U32)
  | resetNow
  | armHardware
  | feedHardware (frame : U32)
  | disarmHardware
  | endOfPass (frame : U32)
  deriving DecidableEq, Repr

structure ExecState where
  mode : ModeState
  boot : ObcBootRecord
  suspensions : List ObcSuspension
  suspensionOverflow : U32
  suspendedTask : U32
  suspendedFrame : U32
  trace : List U8
  traceOverflow : U32
  taskState : Nat → ObcTaskState
  framesRun : U32
  frameOverruns : U32
  slackTicksMin : U32
  windowStartTicks : U32
  windowEndTicks : U32
  cmdNowTicks : U32
  safeEntryFrame : U32
  frames : U32
  frame : U32
  frameStart : U64
  due : Nat
  ran : Nat
  phase : Phase
  log : List ExecEvent

def ExecState.record (event : ExecEvent) (state : ExecState) : ExecState :=
  { state with log := event :: state.log }

def bootChecksum (record : ObcBootRecord) : U32 :=
  obcBootChecksumSeed ^^^ record.shortBoots ^^^ (record.inProgress * 0x9E3779B9)

def bootRecordIsIntact (record : ObcBootRecord) : Bool :=
  record.magic == obcBootMagic && record.checksum == bootChecksum record

def obcRecoverShortBoots (record : ObcBootRecord) : U32 :=
  if bootRecordIsIntact record then record.shortBoots else 0

def obcRecoverIsSuspended (task : Nat) (frame : U32) (state : ExecState) : Bool :=
  state.suspendedTask == BitVec.ofNat 32 task && state.suspendedFrame == frame

def logSuspension (task : Nat) (frame rung : U32) (state : ExecState) : ExecState :=
  if obcSuspendLogLen ≤ state.suspensions.length then
    { state with suspensionOverflow := state.suspensionOverflow + 1 }
  else
    { state with
      suspensions := state.suspensions ++
        [{ task := BitVec.ofNat 8 task, frame := frame.setWidth 8, rung := rung.setWidth 8 }] }

def nextDue (row : ObcTask) (frame : U32) : U32 :=
  frame + if row.periodFrames = 0 then 1 else row.periodFrames

/-- `row` is the table's row of `task`. A reset ends the run: `obc_reset_now` does
not return. -/
def obcRecoverEscalate (row : ObcTask) (rung : U32) (task : Nat) (frame : U32)
    (state : ExecState) : ExecState :=
  if rung = obcRungSuspendTask then
    logSuspension task (nextDue row frame) rung
      { state with
        suspendedTask := BitVec.ofNat 32 task
        suspendedFrame := nextDue row frame
        log := .suspendTask task frame (nextDue row frame) :: state.log }
  else if rung = obcRungResetSubsystem then
    match row.resetFn with
    | none => state
    | some _ =>
        let logged := logSuspension task frame rung state
        { logged with
          mode := uartPuts "recover: rung 2, subsystem reset\r\n" logged.mode
          log := .resetSubsystem task frame :: logged.log }
  else if rung ≠ obcRungResetMachine then state
  else if obcShortBootLimit ≤ obcRecoverShortBoots state.boot then
    { state with mode := obcModeEnterSafe obcSafeResetLoop state.mode }
  else
    { state with
      mode := uartPuts "recover: rung 3, resetting\r\n" state.mode
      phase := .reset
      log := .resetNow :: state.log }

end ObcZero
