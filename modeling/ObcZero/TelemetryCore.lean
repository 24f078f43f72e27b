import ObcZero.BytePacking
import ObcZero.IngestCore

/-!
The telemetry frame and its emission (`flight/tlm/frame.h`, `flight/tlm/frame.c`).
What the other subsystems publish arrives as one record of readings.
-/

namespace ObcZero

open BytePacking

def obcTlmSync : U32 := 0xA5C35A3C

abbrev obcSensorCount : Nat := 2

def obcTlmOSync : Nat := 0
def obcTlmOSeq : Nat := obcTlmOSync + 4
def obcTlmOUptime : Nat := obcTlmOSeq + 4
def obcTlmOFrames : Nat := obcTlmOUptime + 4
def obcTlmOFrameOverruns : Nat := obcTlmOFrames + 4
def obcTlmOSlack : Nat := obcTlmOFrameOverruns + 2
def obcTlmOTaskOverruns : Nat := obcTlmOSlack + 2
def obcTlmORepairs : Nat := obcTlmOTaskOverruns + 1 * obcMaxTasks
def obcTlmOFailedVotes : Nat := obcTlmORepairs + 2
def obcTlmOSuspensions : Nat := obcTlmOFailedVotes + 2
def obcTlmODrops : Nat := obcTlmOSuspensions + 2
def obcTlmOShortBoots : Nat := obcTlmODrops + 2
def obcTlmOMode : Nat := obcTlmOShortBoots + 1
def obcTlmOSafeReason : Nat := obcTlmOMode + 1
def obcTlmOResetCause : Nat := obcTlmOSafeReason + 1
def obcTlmOSensorFlags : Nat := obcTlmOResetCause + 1
def obcTlmOSensor : Nat := obcTlmOSensorFlags + 1
def obcTlmOCmdExamined : Nat := obcTlmOSensor + 2 * obcSensorCount
def obcTlmOCmdAccepted : Nat := obcTlmOCmdExamined + 4
def obcTlmOCmdRejected : Nat := obcTlmOCmdAccepted + 4
def obcTlmOCmdExecuted : Nat := obcTlmOCmdRejected + 4 * rejects.length
def obcTlmOCmdQueued : Nat := obcTlmOCmdExecuted + 2
def obcTlmOCmdLate : Nat := obcTlmOCmdQueued + 1
def obcTlmOSum : Nat := obcTlmOCmdLate + 1
def obcTlmFrameLen : Nat := obcTlmOSum + 2

structure TlmReadings where
  clock : ObcStatus
  now : U64
  framesRun : U32
  frameOverruns : U32
  slackTicksMin : U32
  taskOverruns : List U32
  repairs : U32
  failedVotes : U32
  suspensionCount : U32
  shortBoots : U32
  modeIsSafe : Bool
  safeReason : U32
  resetCause : U32
  sensorFlags : U32
  sensorValue : Fin obcSensorCount → U16

def quietReadings : TlmReadings :=
  { clock := .ok, now := 0, framesRun := 0, frameOverruns := 0, slackTicksMin := 0
    taskOverruns := [], repairs := 0, failedVotes := 0, suspensionCount := 0, shortBoots := 0
    modeIsSafe := false, safeReason := 0, resetCause := 0, sensorFlags := 0
    sensorValue := fun _ => 0 }

structure TlmState where
  frame : Nat → U8
  seq : U32
  drops : U32
  dropsConsecutive : U32
  layoutOk : Bool
  serial : List String

def readyTlm : TlmState :=
  { frame := fun _ => 0, seq := 0, drops := 0, dropsConsecutive := 0, layoutOk := true, serial := [] }

def putU8 (offset : Nat) (value : U32) : Field := { offset := offset, width := 1, value := value }
def putU16 (offset : Nat) (value : U32) : Field := { offset := offset, width := 2, value := value }
def putU32 (offset : Nat) (value : U32) : Field := { offset := offset, width := 4, value := value }

def sat16 (value : U32) : U32 := if 0xFFFF < value then 0xFFFF else value
def sat8 (value : U32) : U32 := if 0xFF < value then 0xFF else value

/-- The stores of `obc_tlm_emit` before the sum, in the order of the source. -/
def tlmFields (readings : TlmReadings) (command : CmdState) (state : TlmState) : List Field :=
  [putU32 obcTlmOSync obcTlmSync,
   putU32 obcTlmOSeq state.seq,
   putU32 obcTlmOUptime
     (if readings.clock = .ok then readings.now.setWidth 32 else 0xFFFFFFFF),
   putU32 obcTlmOFrames readings.framesRun,
   putU16 obcTlmOFrameOverruns (sat16 readings.frameOverruns),
   putU16 obcTlmOSlack (sat16 readings.slackTicksMin)] ++
  (List.range obcMaxTasks).map (fun index =>
    putU8 (obcTlmOTaskOverruns + index) (sat8 (readings.taskOverruns.getD index 0))) ++
  [putU16 obcTlmORepairs (sat16 readings.repairs),
   putU16 obcTlmOFailedVotes (sat16 readings.failedVotes),
   putU16 obcTlmOSuspensions (sat16 readings.suspensionCount),
   putU16 obcTlmODrops (sat16 state.drops),
   putU8 obcTlmOShortBoots (sat8 readings.shortBoots),
   putU8 obcTlmOMode (if readings.modeIsSafe then 1 else 0),
   putU8 obcTlmOSafeReason readings.safeReason,
   putU8 obcTlmOResetCause readings.resetCause,
   putU8 obcTlmOSensorFlags readings.sensorFlags] ++
  (List.finRange obcSensorCount).map (fun index =>
    putU16 (obcTlmOSensor + 2 * index.val) ((readings.sensorValue index).setWidth 32)) ++
  [putU32 obcTlmOCmdExamined command.examined,
   putU32 obcTlmOCmdAccepted command.accepted] ++
  rejects.zipIdx.map (fun (reason, index) =>
    putU32 (obcTlmOCmdRejected + 4 * index) (command.rejected reason)) ++
  [putU16 obcTlmOCmdExecuted (sat16 command.executed),
   putU8 obcTlmOCmdQueued (sat8 command.queued),
   putU8 obcTlmOCmdLate (sat8 command.late)]

/-- `frame_sum` computes over the telemetry frame what `obc_cmd_sum` does over a command. -/
def tlmFrameSum (frame : Nat → U8) : U32 := obcCmdSum frame obcTlmOSum

/-- `downlink` is what the port answers to the write. -/
def obcTlmEmit (readings : TlmReadings) (command : CmdState) (downlink : ObcStatus)
    (state : TlmState) : ObcStatus × TlmState :=
  if state.layoutOk then
    let body := pack (tlmFields readings command state) state.frame
    let framed :=
      { state with
        frame := store (putU16 obcTlmOSum (tlmFrameSum body)) body
        seq := state.seq + 1 }
    if downlink = .ok then (readings.clock, { framed with dropsConsecutive := 0 })
    else
      (downlink,
        { framed with
          drops := framed.drops + 1
          dropsConsecutive := framed.dropsConsecutive + 1
          serial := framed.serial ++ ["tlm    : downlink refused, frame dropped\r\n"] })
  else (.errInvalid, state)

end ObcZero
