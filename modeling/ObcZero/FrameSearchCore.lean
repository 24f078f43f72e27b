import ObcZero.TelemetryPacking

/-!
The downlink from both ends: the write that a full port cuts short
(`flight/hal/uart.c`), the layout table (`flight/tlm/frame.c`), and the host's search
for frames in a capture (`harness/runner/tlm_decode.py`).
-/

namespace ObcZero

open LittleEndian

def obcTlmKindSync : Nat := 0
def obcTlmKindCount : Nat := 1
def obcTlmKindEnum : Nat := 2
def obcTlmKindBits : Nat := 3
def obcTlmKindSensor : Nat := 4
def obcTlmKindSum : Nat := 5

structure ObcTlmField where
  name : String
  offset : Nat
  width : Nat
  count : Nat
  kind : Nat
  deriving DecidableEq, Repr

def obcTlmFields : List ObcTlmField :=
  [{ name := "sync", offset := obcTlmOSync, width := 4, count := 1, kind := obcTlmKindSync },
   { name := "seq", offset := obcTlmOSeq, width := 4, count := 1, kind := obcTlmKindCount },
   { name := "uptime_ticks", offset := obcTlmOUptime, width := 4, count := 1,
     kind := obcTlmKindCount },
   { name := "frames_run", offset := obcTlmOFrames, width := 4, count := 1,
     kind := obcTlmKindCount },
   { name := "frame_overruns", offset := obcTlmOFrameOverruns, width := 2, count := 1,
     kind := obcTlmKindCount },
   { name := "slack_ticks_min", offset := obcTlmOSlack, width := 2, count := 1,
     kind := obcTlmKindCount },
   { name := "task_overruns", offset := obcTlmOTaskOverruns, width := 1, count := obcMaxTasks,
     kind := obcTlmKindCount },
   { name := "voter_repairs", offset := obcTlmORepairs, width := 2, count := 1,
     kind := obcTlmKindCount },
   { name := "voter_failed_votes", offset := obcTlmOFailedVotes, width := 2, count := 1,
     kind := obcTlmKindCount },
   { name := "suspensions", offset := obcTlmOSuspensions, width := 2, count := 1,
     kind := obcTlmKindCount },
   { name := "frames_dropped", offset := obcTlmODrops, width := 2, count := 1,
     kind := obcTlmKindCount },
   { name := "short_boots", offset := obcTlmOShortBoots, width := 1, count := 1,
     kind := obcTlmKindCount },
   { name := "mode", offset := obcTlmOMode, width := 1, count := 1, kind := obcTlmKindEnum },
   { name := "safe_reason", offset := obcTlmOSafeReason, width := 1, count := 1,
     kind := obcTlmKindEnum },
   { name := "reset_cause", offset := obcTlmOResetCause, width := 1, count := 1,
     kind := obcTlmKindEnum },
   { name := "sensor_flags", offset := obcTlmOSensorFlags, width := 1, count := 1,
     kind := obcTlmKindBits },
   { name := "sensor", offset := obcTlmOSensor, width := 2, count := obcSensorCount,
     kind := obcTlmKindSensor },
   { name := "cmd_examined", offset := obcTlmOCmdExamined, width := 4, count := 1,
     kind := obcTlmKindCount },
   { name := "cmd_accepted", offset := obcTlmOCmdAccepted, width := 4, count := 1,
     kind := obcTlmKindCount },
   { name := "cmd_rejected", offset := obcTlmOCmdRejected, width := 4, count := rejects.length,
     kind := obcTlmKindCount },
   { name := "cmd_executed", offset := obcTlmOCmdExecuted, width := 2, count := 1,
     kind := obcTlmKindCount },
   { name := "cmd_queued", offset := obcTlmOCmdQueued, width := 1, count := 1,
     kind := obcTlmKindCount },
   { name := "cmd_late", offset := obcTlmOCmdLate, width := 1, count := 1,
     kind := obcTlmKindCount },
   { name := "sum", offset := obcTlmOSum, width := 2, count := 1, kind := obcTlmKindSum }]

/-- What `load_layout` reads out of the image and the search uses. -/
structure TlmLayout where
  fields : List ObcTlmField
  frameLen : Nat
  sync : Nat

def flightTlm : TlmLayout :=
  { fields := obcTlmFields, frameLen := obcTlmFrameLen, sync := obcTlmSync.toNat }

/-- A field of one element decodes to a number, any other to a list. -/
inductive TlmValue
  | one (value : Nat)
  | many (values : List Nat)
  deriving DecidableEq, Repr

structure TlmFrame where
  offset : Nat
  values : List (String × TlmValue)
  deriving DecidableEq, Repr

def decodeField (raw : List U8) (field : ObcTlmField) : TlmValue :=
  let elems := (List.range field.count).map fun index =>
    fromBytes (slice raw (field.offset + index * field.width) field.width)
  match elems with
  | [elem] => .one elem
  | elems => .many elems

def decodeFrame (raw : List U8) (layout : TlmLayout) : List (String × TlmValue) :=
  layout.fields.map fun field => (field.name, decodeField raw field)

def findBytes (sync stream : List U8) (start : Nat) : Option Nat :=
  (List.range' start (stream.length - start)).find? fun position =>
    slice stream position sync.length == sync

def sumMatches (sumField : ObcTlmField) (raw : List U8) : Bool :=
  frameSumUpto raw sumField.offset == fromBytes (slice raw sumField.offset sumField.width)

/-- The loop of `find_frames`. Every turn moves on, so the fuel bounds the turns. -/
def findFrom (layout : TlmLayout) (sync : List U8) (sumField : ObcTlmField) (stream : List U8) :
    Nat → Nat → List TlmFrame
  | 0, _ => []
  | fuel + 1, start =>
      if start + layout.frameLen ≤ stream.length then
        match findBytes sync stream start with
        | none => []
        | some position =>
            if stream.length < position + layout.frameLen then []
            else
              let raw := slice stream position layout.frameLen
              if sumMatches sumField raw then
                { offset := position, values := decodeFrame raw layout } ::
                  findFrom layout sync sumField stream fuel (position + layout.frameLen)
              else findFrom layout sync sumField stream fuel (position + 1)
      else []

/-- A layout without a sum field, or a sync word that does not fit, raises an error. -/
def findFrames (stream : List U8) (layout : TlmLayout) : Option (List TlmFrame) := do
  let sync ← intToBytes 4 layout.sync
  let sumField ← layout.fields.find? fun field => field.kind == obcTlmKindSum
  return findFrom layout sync sumField stream (stream.length + 1) 0

def obcUartTxRetryTotal : Nat := 256

/-- `full` says how often each byte finds the transmit FIFO full; the polls of the
whole frame come out of one allowance. The bytes are those that go out. -/
def downlinkWrite (full : Nat → Nat) : Nat → Nat → List U8 → ObcStatus × List U8
  | _, _, [] => (.ok, [])
  | index, allowance, byte :: rest =>
      if full index ≤ allowance then
        let (status, written) := downlinkWrite full (index + 1) (allowance - full index) rest
        (status, byte :: written)
      else (.errTimeout, [])

def obcUartDownlinkWrite (full : Nat → Nat) (bytes : List U8) : ObcStatus × List U8 :=
  downlinkWrite full 0 obcUartTxRetryTotal bytes

/-- What goes into one emission: the readings, the command task, and how busy the
port is. -/
structure Emission where
  readings : TlmReadings
  command : CmdState
  full : Nat → Nat

inductive TlmInput
  | emit (emission : Emission)
  | subsystemReset

structure Chunk where
  bytes : List U8
  whole : Bool
  deriving DecidableEq, Repr

structure Downlink where
  tlm : TlmState
  chunks : List Chunk

def Emission.write (emission : Emission) (tlm : TlmState) : ObcStatus × List U8 :=
  obcUartDownlinkWrite emission.full
    (frameBytes (packedFrame emission.readings emission.command tlm))

def obcTlmSubsystemReset (tlm : TlmState) : TlmState :=
  { tlm with seq := 0, frame := fun _ => 0 }

/-- An emission writes its frame before it learns how the write went; without a
passed layout audit it writes nothing. -/
def tlmStep : TlmInput → Downlink → Downlink
  | .subsystemReset, link => { link with tlm := obcTlmSubsystemReset link.tlm }
  | .emit emission, link =>
      if link.tlm.layoutOk then
        let (status, written) := emission.write link.tlm
        { tlm := (obcTlmEmit emission.readings emission.command status link.tlm).2
          chunks := link.chunks ++ [{ bytes := written, whole := status == .ok }] }
      else link

def streamOf (chunks : List Chunk) : List U8 := (chunks.map Chunk.bytes).flatten

end ObcZero
