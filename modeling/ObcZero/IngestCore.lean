import ObcZero.QueueCore
import ObcZero.StepSystem

/-!
The command frame and its way in (`flight/cmd/frame.h`, `flight/cmd/frame.c`), and
the inputs of the command task.
-/

namespace ObcZero

open StepSystem

def obcCmdSync : U32 := 0x5A3CA5C3

def obcCmdOSync : Nat := 0
def obcCmdWSync : Nat := 4
def obcCmdOCounter : Nat := obcCmdOSync + obcCmdWSync
def obcCmdWCounter : Nat := 4
def obcCmdOLength : Nat := obcCmdOCounter + obcCmdWCounter
def obcCmdWLength : Nat := 1
def obcCmdOOpcode : Nat := obcCmdOLength + obcCmdWLength
def obcCmdWOpcode : Nat := 1
def obcCmdOWhen : Nat := obcCmdOOpcode + obcCmdWOpcode
def obcCmdWWhen : Nat := 4
def obcCmdOArg : Nat := obcCmdOWhen + obcCmdWWhen
def obcCmdWArg : Nat := 4
def obcCmdOSum : Nat := obcCmdOArg + obcCmdWArg
def obcCmdWSum : Nat := 2

def obcCmdRxBytes : Nat := 8 * obcCmdFrameLen

structure ObcCmdField where
  name : String
  offset : Nat
  width : Nat
  deriving DecidableEq, Repr

def obcCmdFields : List ObcCmdField :=
  [{ name := "sync", offset := obcCmdOSync, width := obcCmdWSync },
   { name := "counter", offset := obcCmdOCounter, width := obcCmdWCounter },
   { name := "length", offset := obcCmdOLength, width := obcCmdWLength },
   { name := "opcode", offset := obcCmdOOpcode, width := obcCmdWOpcode },
   { name := "when", offset := obcCmdOWhen, width := obcCmdWWhen },
   { name := "arg", offset := obcCmdOArg, width := obcCmdWArg },
   { name := "sum", offset := obcCmdOSum, width := obcCmdWSum }]

def Reject.index : Reject → U32
  | .sync => 0
  | .length => 1
  | .sum => 2
  | .opcode => 3
  | .arg => 4
  | .replay => 5
  | .queue => 6
  | .notArmed => 7

def rejects : List Reject :=
  [.sync, .length, .sum, .opcode, .arg, .replay, .queue, .notArmed]

def obcCmdRejectCount : U32 := 8

def reasonName : Reject → String
  | .sync => "sync"
  | .length => "length"
  | .sum => "sum"
  | .opcode => "opcode"
  | .arg => "arg"
  | .replay => "replay"
  | .queue => "queue"
  | .notArmed => "not-armed"

def getU8 (frame : Nat → U8) (offset : Nat) : U32 := (frame offset).setWidth 32

def getU16 (frame : Nat → U8) (offset : Nat) : U32 :=
  getU8 frame offset ||| (getU8 frame (offset + 1) <<< 8)

def getU32 (frame : Nat → U8) (offset : Nat) : U32 :=
  getU8 frame offset ||| (getU8 frame (offset + 1) <<< 8) |||
    (getU8 frame (offset + 2) <<< 16) ||| (getU8 frame (offset + 3) <<< 24)

def obcCmdSum (frame : Nat → U8) (upto : Nat) : U32 :=
  (List.range upto).foldl (fun sum index =>
    let raised := sum + getU8 frame index
    (raised + (raised >>> 16)) &&& 0xFFFF) 0 ^^^ 0xFFFF

def announceOnce (reason : Reject) (state : CmdState) : CmdState :=
  let bit : U32 := 1#32 <<< reason.index
  if state.announced &&& bit ≠ 0 then state
  else
    { state with
      announced := state.announced ||| bit
      serial := state.serial ++ ["cmd    : rejected, first ", reasonName reason, "\r\n"] }

/-- The middle component is what a non-null `reason` pointer receives. -/
def refuse (reason : Reject) (state : CmdState) : ObcStatus × Option U32 × CmdState :=
  (.errInvalid, some reason.index,
    announceOnce reason
      { state with
        rejected := Function.update state.rejected reason (bump (state.rejected reason)) })

def examine (table : List ObcCmd) (frame : Nat → U8) (len : U32) (state : CmdState) :
    ObcStatus × Option U32 × CmdState :=
  if len ≠ BitVec.ofNat 32 obcCmdFrameLen then refuse .length state
  else if getU32 frame obcCmdOSync ≠ obcCmdSync then refuse .sync state
  else if getU8 frame obcCmdOLength ≠ BitVec.ofNat 32 obcCmdFrameLen then refuse .length state
  else if getU16 frame obcCmdOSum ≠ obcCmdSum frame obcCmdOSum then refuse .sum state
  else
    let opcode : U8 := (getU8 frame obcCmdOOpcode).setWidth 8
    match lookup table opcode with
    | none => refuse .opcode state
    | some cmd =>
        let arg := getU32 frame obcCmdOArg
        let counter := getU32 frame obcCmdOCounter
        let when := getU32 frame obcCmdOWhen
        if arg < cmd.argMin ∨ cmd.argMax < arg then refuse .arg state
        else if counter ≤ state.lastCounter then refuse .replay state
        else if cmd.critical ∧ state.armedOpcode ≠ opcode.setWidth 32 then
          refuse .notArmed state
        else
          match obcCmdQueuePut opcode when arg counter state with
          | (.ok, queued) =>
              (.ok, some obcCmdRejectCount,
                { queued with
                  lastCounter := counter
                  accepted := bump queued.accepted
                  history := .accepted opcode when arg counter queued.armedUntil ::
                    queued.history })
          | (_, full) => refuse .queue full

def obcCmdIngest (table : List ObcCmd) (frame : Option (Nat → U8)) (len : U32)
    (state : CmdState) : ObcStatus × Option U32 × CmdState :=
  match frame with
  | none => (.errInvalid, none, state)
  | some frame =>
      if state.tableOk then
        examine table frame len { state with examined := bump state.examined }
      else (.errInvalid, none, state)

/-- One byte taken into the partial frame; the twentieth completes it. -/
def takeByte (table : List ObcCmd) (byte : U8) (state : CmdState) : CmdState :=
  let stored := { state with rx := Function.update state.rx state.fill byte }
  if room : state.fill.val + 1 < obcCmdFrameLen then
    { stored with fill := ⟨state.fill.val + 1, room⟩ }
  else
    let ingested :=
      (obcCmdIngest table (some stored.rx) (BitVec.ofNat 32 obcCmdFrameLen) stored).2.2
    { ingested with fill := 0 }

/-- `obc_cmd_poll`: the bytes waiting, up to the budget, are taken one by one. -/
def obcCmdPoll (table : List ObcCmd) (state : CmdState) : CmdState :=
  if state.tableOk then
    let taken := state.uplink.take obcCmdRxBytes
    let polled := run (takeByte table) taken
      { state with uplink := state.uplink.drop obcCmdRxBytes }
    if taken.isEmpty ∧ polled.fill ≠ 0 then
      (refuse .length { polled with fill := 0, examined := bump polled.examined }).2.2
    else polled
  else state

def fieldsContiguous (fields : List ObcCmdField) : Option Nat :=
  fields.foldl (fun expected field =>
    match expected with
    | none => none
    | some expected =>
        if field.offset ≠ expected then none else some (expected + field.width)) (some 0)

def rowsValid : List ObcCmd → List ObcCmd → Bool
  | _, [] => true
  | earlier, row :: rest =>
      row.fn.isSome && decide (row.argMin ≤ row.argMax) &&
        earlier.all (fun other => other.opcode != row.opcode) && rowsValid (row :: earlier) rest

def obcCmdInit (fields : List ObcCmdField) (table : List ObcCmd) (state : CmdState) :
    ObcStatus × CmdState :=
  if table.isEmpty then (.errInvalid, state)
  else if fieldsContiguous fields ≠ some obcCmdFrameLen then (.errInvalid, state)
  else if !rowsValid [] table then (.errInvalid, state)
  else
    (.ok, { obcCmdQueueInit state with
      examined := 0
      accepted := 0
      fill := 0
      announced := 0
      lastCounter := 0
      rejected := fun _ => 0
      tableOk := true
      history := [] })

/-- What can happen to the command task; `queueInit` is its rung-2 reset. -/
inductive CmdInput
  | receive (bytes : List U8)
  | ingest (frame : Option (Nat → U8)) (len : U32)
  | poll
  | queueRun (now frame : U32)
  | queueInit

def cmdStep (table : List ObcCmd) : CmdInput → CmdState → CmdState
  | .receive bytes, state => { state with uplink := state.uplink ++ bytes }
  | .ingest frame len, state => (obcCmdIngest table frame len state).2.2
  | .poll, state => obcCmdPoll table state
  | .queueRun now frame, state => obcCmdQueueRun table now frame state
  | .queueInit, state => obcCmdQueueInit state

end ObcZero
