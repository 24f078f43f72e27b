import ObcZero.FrameSearchCore

/-!
The two UARTs (`flight/hal/uart.h`, `flight/hal/uart.c`) read by read. What the transmit
registers answer is a sequence of full bits for each port; how often a port was read, and
how often it was full, is recorded beside the bytes that it took.
-/

namespace ObcZero

namespace Uart

def txPollInstr : Nat := 5
def putsLimit : Nat := 4096

structure Port where
  reads : Nat
  polls : Nat
  written : List U8
  deriving DecidableEq, Repr

def Port.idle : Port := { reads := 0, polls := 0, written := [] }

def Port.refuse (port : Port) : Port :=
  { port with reads := port.reads + 1, polls := port.polls + 1 }

def Port.take (byte : U8) (port : Port) : Port :=
  { port with reads := port.reads + 1, written := port.written ++ [byte] }

/-- `full n` is the full bit that the n-th read of the register returns. -/
def portPutc (full : Nat → Bool) (byte : U8) : Nat → Port → ObcStatus × Nat × Port
  | 0, port => if full port.reads then (.errTimeout, 0, port.refuse) else (.ok, 0, port.take byte)
  | allowance + 1, port =>
      if full port.reads then portPutc full byte allowance port.refuse
      else (.ok, allowance + 1, port.take byte)

def obcUartPutc (full : Nat → Bool) (byte : U8) (port : Port) : ObcStatus × Port :=
  let (status, _, after) := portPutc full byte obcUartTxRetryTotal port
  (status, after)

/-- The loop of `obc_uart_downlink_write`. -/
def writeBytes (full : Nat → Bool) : List U8 → Nat → Port → ObcStatus × Port
  | [], _, port => (.ok, port)
  | byte :: rest, allowance, port =>
      match portPutc full byte allowance port with
      | (.ok, left, after) => writeBytes full rest left after
      | (status, _, after) => (status, after)

/-- `none` is the null pointer. -/
def obcUartDownlinkWrite (full : Nat → Bool) (bytes : Option (Nat → U8)) (len : U32)
    (port : Port) : ObcStatus × Port :=
  match bytes with
  | none => (.errInvalid, port)
  | some bytes =>
      writeBytes full ((List.range len.toNat).map bytes) obcUartTxRetryTotal port

/-- The loop of `obc_uart_puts`, on the characters before the terminator. -/
def putsLoop (full : Nat → Bool) : Nat → List U8 → Port → ObcStatus × Port
  | 0, _, port => (.errInvalid, port)
  | _ + 1, [], port => (.ok, port)
  | turns + 1, char :: rest, port =>
      match obcUartPutc full char port with
      | (.ok, after) => putsLoop full turns rest after
      | (status, after) => (status, after)

def obcUartPuts (full : Nat → Bool) (text : Option (List U8)) (port : Port) :
    ObcStatus × Port :=
  match text with
  | none => (.errInvalid, port)
  | some text => putsLoop full putsLimit text port

end Uart

open Uart

structure UartPorts where
  downlink : Port
  console : Port
  deriving DecidableEq, Repr

structure UartBits where
  downlink : Nat → Bool
  console : Nat → Bool

def asciiBytes (text : String) : List U8 := text.toList.map fun char => BitVec.ofNat 8 char.toNat

def refusedText : String := "tlm    : downlink refused, frame dropped\r\n"

/-- `obc_tlm_emit` on the ports: the frame goes to the downlink, and the console is told
of one that did not go out. -/
def emitThrough (bits : UartBits) (readings : TlmReadings) (command : CmdState) (state : TlmState)
    (ports : UartPorts) : (ObcStatus × TlmState) × UartPorts :=
  if state.layoutOk then
    let frame := packedFrame readings command state
    let (written, downlink) := Uart.obcUartDownlinkWrite bits.downlink (some frame)
      (BitVec.ofNat 32 obcTlmFrameLen) ports.downlink
    let console :=
      if written = .ok then ports.console
      else (obcUartPuts bits.console (some (asciiBytes refusedText)) ports.console).2
    (obcTlmEmit readings command written state, { downlink := downlink, console := console })
  else (obcTlmEmit readings command .ok state, ports)

def t1Budget : Nat := 4500
def t1NominalInstr : Nat := 2585

end ObcZero
