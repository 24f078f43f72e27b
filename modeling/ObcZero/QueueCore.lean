import ObcZero.StatusCore

/-!
The command table, its handlers and the command queue (`flight/cmd/frame.h`,
`flight/cmd/table.c`, `flight/cmd/queue.h`, `flight/cmd/queue.c`), over the state
of the whole command task. `history` is no part of the program: it records, newest
first, what the task accepted and which handlers it called.
-/

namespace ObcZero

inductive CmdFn
  | cmdPing
  | cmdSet
  | cmdArm
  | cmdSafe
  deriving DecidableEq, Repr

structure ObcCmd where
  name : String
  opcode : U8
  critical : Bool
  argMin : U32
  argMax : U32
  fn : Option CmdFn
  deriving DecidableEq, Repr

inductive Reject
  | sync
  | length
  | sum
  | opcode
  | arg
  | replay
  | queue
  | notArmed
  deriving DecidableEq, Repr

abbrev obcCmdQueueLen : Nat := 4
def obcCmdCounterMax : U32 := 0xFFFFFFFF
def obcFrameTicks : U32 := 1024
def obcCmdLateTicks : U32 := obcFrameTicks
def obcCmdArmFrames : U32 := 4
def obcCmdArmNone : U32 := 0xFFFF
abbrev obcCmdFrameLen : Nat := 20

instance : NeZero obcCmdFrameLen := ⟨Nat.succ_ne_zero 19⟩

structure ObcCmdSlot where
  when : U32
  arg : U32
  counter : U32
  opcode : U8
  occupied : Bool
  deriving DecidableEq, Repr

def emptySlot : ObcCmdSlot :=
  { when := 0, arg := 0, counter := 0, opcode := 0, occupied := false }

/-- An acceptance, with the expiry of the arm in force at the time, or a call of
a handler. -/
inductive CmdEvent
  | accepted (opcode : U8) (when arg counter armedUntil : U32)
  | handled (row : ObcCmd) (arg counter now frame : U32)
  deriving DecidableEq, Repr

structure CmdState where
  queue : Fin obcCmdQueueLen → ObcCmdSlot
  queued : U32
  executed : U32
  late : U32
  armedOpcode : U32
  armedUntil : U32
  noopArg : U32
  pingCount : U32
  armTarget : U32
  safeRequested : U32
  examined : U32
  accepted : U32
  rejected : Reject → U32
  announced : U32
  lastCounter : U32
  tableOk : Bool
  rx : Nat → U8
  fill : Fin obcCmdFrameLen
  uplink : List U8
  serial : List String
  history : List CmdEvent

def clearedCmd : CmdState :=
  { queue := fun _ => emptySlot, queued := 0, executed := 0, late := 0, armedOpcode := 0,
    armedUntil := 0, noopArg := 0, pingCount := 0, armTarget := 0, safeRequested := 0,
    examined := 0, accepted := 0, rejected := fun _ => 0, announced := 0, lastCounter := 0,
    tableOk := false, rx := fun _ => 0, fill := 0, uplink := [], serial := [], history := [] }

def bump (counter : U32) : U32 :=
  if counter < obcCmdCounterMax then counter + 1 else counter

def cmdPing (_arg : U32) (state : CmdState) : CmdState :=
  { state with pingCount := bump state.pingCount }

def cmdSet (arg : U32) (state : CmdState) : CmdState :=
  { state with noopArg := arg }

def cmdArm (arg : U32) (state : CmdState) : CmdState :=
  { state with armTarget := arg }

def cmdSafe (_arg : U32) (state : CmdState) : CmdState :=
  { state with safeRequested := 1 }

def CmdFn.call : CmdFn → U32 → CmdState → CmdState
  | .cmdPing => ObcZero.cmdPing
  | .cmdSet => ObcZero.cmdSet
  | .cmdArm => ObcZero.cmdArm
  | .cmdSafe => ObcZero.cmdSafe

def opPing : U8 := 0x10
def opSet : U8 := 0x11
def opArm : U8 := 0x12
def opSafe : U8 := 0x13

def obcCmdTable : List ObcCmd :=
  [{ name := "ping", opcode := opPing, critical := false, argMin := 0, argMax := 0,
     fn := some .cmdPing },
   { name := "set", opcode := opSet, critical := false, argMin := 100, argMax := 900,
     fn := some .cmdSet },
   { name := "arm", opcode := opArm, critical := false, argMin := opPing.setWidth 32,
     argMax := opSafe.setWidth 32, fn := some .cmdArm },
   { name := "safe", opcode := opSafe, critical := true, argMin := 0, argMax := 0,
     fn := some .cmdSafe }]

/-- Both `lookup` functions, in `frame.c` and in `queue.c`. -/
def lookup (table : List ObcCmd) (opcode : U8) : Option ObcCmd :=
  table.find? fun row => row.opcode == opcode

def obcCmdQueueInit (state : CmdState) : CmdState :=
  { state with
    queue := fun _ => emptySlot
    queued := 0
    armedOpcode := obcCmdArmNone
    armedUntil := 0 }

def obcCmdQueuePut (opcode : U8) (when arg counter : U32) (state : CmdState) :
    ObcStatus × CmdState :=
  match (List.finRange obcCmdQueueLen).find? fun index => !(state.queue index).occupied with
  | some index =>
      (.ok, { state with
        queue := Function.update state.queue index
          { when := when, arg := arg, counter := counter, opcode := opcode, occupied := true }
        queued := state.queued + 1 })
  | none => (.errInvalid, state)

def oldestDue (now : U32) (queue : Fin obcCmdQueueLen → ObcCmdSlot) :
    Option (Fin obcCmdQueueLen) :=
  (List.finRange obcCmdQueueLen).foldl (fun oldest index =>
    if !(queue index).occupied then oldest
    else if now < (queue index).when then oldest
    else match oldest with
      | none => some index
      | some chosen => if (queue index).when < (queue chosen).when then some index else oldest)
    none

def vacate (index : Fin obcCmdQueueLen) (state : CmdState) : CmdState :=
  { state with
    queue := Function.update state.queue index { state.queue index with occupied := false }
    queued := if 0 < state.queued then state.queued - 1 else state.queued }

def establishArming (frame : U32) (state : CmdState) : CmdState :=
  if state.armTarget ≠ 0 then
    { state with
      armedOpcode := state.armTarget
      armedUntil := frame + obcCmdArmFrames
      armTarget := 0 }
  else state

def countLate (now : U32) (slot : ObcCmdSlot) (state : CmdState) : CmdState :=
  if slot.when + obcCmdLateTicks < now then { state with late := bump state.late } else state

def execute (row : ObcCmd) (fn : CmdFn) (slot : ObcCmdSlot) (now frame : U32)
    (state : CmdState) : CmdState :=
  let called := fn.call slot.arg state
  establishArming frame
    { called with
      executed := bump called.executed
      history := .handled row slot.arg slot.counter now frame :: called.history }

def runSlot (table : List ObcCmd) (now frame : U32) (index : Fin obcCmdQueueLen)
    (state : CmdState) : CmdState :=
  let slot := state.queue index
  match lookup table slot.opcode with
  | none => vacate index state
  | some row =>
      let counted := countLate now slot (vacate index state)
      match row.fn with
      | none => counted
      | some fn => execute row fn slot now frame counted

def runPasses (table : List ObcCmd) (now frame : U32) : Nat → CmdState → CmdState
  | 0, state => state
  | passes + 1, state =>
      match oldestDue now state.queue with
      | none => state
      | some index => runPasses table now frame passes (runSlot table now frame index state)

def expireArming (frame : U32) (state : CmdState) : CmdState :=
  if state.armedOpcode ≠ obcCmdArmNone ∧ state.armedUntil ≤ frame then
    { state with armedOpcode := obcCmdArmNone }
  else state

def obcCmdQueueRun (table : List ObcCmd) (now frame : U32) (state : CmdState) : CmdState :=
  runPasses table now frame obcCmdQueueLen (expireArming frame state)

end ObcZero
