import ObcZero.IngestCore

/-!
The ground's side of the uplink (`harness/runner/uplink.py`): how a frame is built
from the layout in the image, and, as `build`, the frame the flight layout gives.
-/

namespace ObcZero

def littleEndian (width value : Nat) : List U8 :=
  (List.range width).map fun index => BitVec.ofNat 8 (value >>> (8 * index))

def frameSum (bytes : List U8) : Nat :=
  (bytes.foldl (fun total byte =>
    let raised := total + byte.toNat
    (raised + (raised >>> 16)) &&& 0xFFFF) 0) ^^^ 0xFFFF

def build (opcode counter arg when : Nat) : List U8 :=
  let body := littleEndian obcCmdWSync obcCmdSync.toNat ++ littleEndian obcCmdWCounter counter ++
    littleEndian obcCmdWLength obcCmdFrameLen ++ littleEndian obcCmdWOpcode opcode ++
    littleEndian obcCmdWWhen when ++ littleEndian obcCmdWArg arg
  body ++ littleEndian obcCmdWSum (frameSum body)

def frameSumUpto (data : List U8) (upto : Nat) : Nat := frameSum (data.take upto)

/-- What `load_uplink` reads out of the image and `build` uses. -/
structure UplinkLayout where
  frameLen : Nat
  sync : Nat
  offsets : List ObcCmdField

def flightUplink : UplinkLayout :=
  { frameLen := obcCmdFrameLen, sync := obcCmdSync.toNat, offsets := obcCmdFields }

def intToBytes (width value : Nat) : Option (List U8) :=
  if value < 256 ^ width then some (littleEndian width value) else none

def UplinkLayout.put (layout : UplinkLayout) (field : String) (value : Nat) (buf : List U8) :
    Option (List U8) := do
  let place ← layout.offsets.find? fun place => place.name == field
  let bytes ← intToBytes place.width value
  return buf.take place.offset ++ bytes ++ buf.drop (place.offset + place.width)

def UplinkLayout.build (layout : UplinkLayout) (opcode counter arg when : Nat)
    (length sync : Option Nat) (corruptSum : Bool) : Option (List U8) := do
  let buf := List.replicate layout.frameLen 0
  let buf ← layout.put "sync" (sync.getD layout.sync) buf
  let buf ← layout.put "counter" counter buf
  let buf ← layout.put "length" (length.getD layout.frameLen) buf
  let buf ← layout.put "opcode" opcode buf
  let buf ← layout.put "when" when buf
  let buf ← layout.put "arg" arg buf
  let place ← layout.offsets.find? fun place => place.name == "sum"
  let value := frameSumUpto buf place.offset
  layout.put "sum" (if corruptSum then value ^^^ 1 else value) buf

end ObcZero
