import ObcZero.TrapHandler
import ObcZero.WordLoops

/-!
The reset entry (`flight/boot/start.S`) as a text of instructions, over the symbols that
the link script (`emu/sifive_e.ld`) gives it, and the walk of `stack_high_water`
(`flight/core/main.c`) over the paint it leaves.
-/

namespace ObcZero

open RegisterMachine WordLoops

inductive BootReg
  | zero
  | gp
  | sp
  | t0
  | t1
  | t2
  | t3
  deriving DecidableEq, Repr

/-- `mip` is the word last written to it: what it reads as is up to the interrupt lines. -/
inductive BootCsr
  | mscratch
  | mtvec
  | mie
  | mip
  | mcause
  | mepc
  | mtval
  deriving DecidableEq, Repr

abbrev BootMachine := Machine BootReg BootCsr

/-- The symbols of an image, and what the link script says of them: the load image of
`.data` is in flash, the sections in memory follow each other, and each starts and ends
at a word. -/
structure Layout where
  globalPointer : U32
  dataLma : U32
  dataStart : U32
  dataEnd : U32
  bssStart : U32
  bssEnd : U32
  obcFaultRecord : U32
  stackBottom : U32
  stackTop : U32
  obcTrapEntry : U32
  flash : dataLma.toNat + (dataEnd.toNat - dataStart.toNat) ≤ 0x80000000
  ram : 0x80000000 ≤ dataStart.toNat
  data : dataStart.toNat ≤ dataEnd.toNat
  dataBss : dataEnd.toNat ≤ bssStart.toNat
  bss : bssStart.toNat ≤ bssEnd.toNat
  bssRecord : bssEnd.toNat ≤ obcFaultRecord.toNat
  recordStack : obcFaultRecord.toNat + 36 ≤ stackBottom.toNat
  stack : stackBottom.toNat ≤ stackTop.toNat
  ramEnd : stackTop.toNat ≤ 0x80004000
  dataWhole : 4 ∣ dataEnd.toNat - dataStart.toNat
  bssWhole : 4 ∣ bssEnd.toNat - bssStart.toNat
  stackWhole : 4 ∣ stackTop.toNat - stackBottom.toNat

def Layout.dataWords (layout : Layout) : Nat :=
  (layout.dataEnd.toNat - layout.dataStart.toNat) / 4

def Layout.bssWords (layout : Layout) : Nat :=
  (layout.bssEnd.toNat - layout.bssStart.toNat) / 4

def Layout.stackWords (layout : Layout) : Nat :=
  (layout.stackTop.toNat - layout.stackBottom.toNat) / 4

def stackPaint : U32 := 0xDEADBEEF

/-- The heads of the three loops, and the call of `obc_main`. -/
def copyHead : Nat := 12
def zeroHead : Nat := 20
def paintHead : Nat := 27
def callObcMain : Nat := 31

/-- `_start`, with every `la` and `li` as one instruction. -/
def startText (layout : Layout) : List (LoopInstr BootReg BootCsr) :=
  [.basic (.li .gp layout.globalPointer),
   .basic (.li .sp layout.stackTop),
   .basic (.li .t0 layout.obcFaultRecord),
   .basic (.csrw .mscratch .t0),
   .basic (.sw .zero obcFrInHandler .t0),
   .basic (.li .t0 layout.obcTrapEntry),
   .basic (.csrw .mtvec .t0),
   .basic (.csrw .mie .zero),
   .basic (.csrw .mip .zero),
   .basic (.li .t0 layout.dataLma),
   .basic (.li .t1 layout.dataStart),
   .basic (.li .t2 layout.dataEnd),
   .bgeu .t1 .t2 18,
   .basic (.lw .t3 0 .t0),
   .basic (.sw .t3 0 .t1),
   .addi .t0 .t0 4,
   .addi .t1 .t1 4,
   .basic (.j copyHead),
   .basic (.li .t0 layout.bssStart),
   .basic (.li .t1 layout.bssEnd),
   .bgeu .t0 .t1 24,
   .basic (.sw .zero 0 .t0),
   .addi .t0 .t0 4,
   .basic (.j zeroHead),
   .basic (.li .t0 layout.stackBottom),
   .basic (.li .t1 layout.stackTop),
   .basic (.li .t2 stackPaint),
   .bgeu .t0 .t1 callObcMain,
   .basic (.sw .t2 0 .t0),
   .addi .t0 .t0 4,
   .basic (.j paintHead)]

/-- A machine out of reset: the first instruction next, and a zero register that is zero. -/
structure AtReset (machine : BootMachine) : Prop where
  pc : machine.pc = 0
  zero : machine.reg .zero = 0

def started (layout : Layout) (count : Nat) (machine : BootMachine) : BootMachine :=
  (loopStep (startText layout))^[count] machine

def Layout.startSteps (layout : Layout) : Nat :=
  7 + 5 + (6 * layout.dataWords + 1) + 2 + (4 * layout.bssWords + 1) + 3 +
    (4 * layout.stackWords + 1)

def Layout.Prepared (layout : Layout) (address : U32) : Prop :=
  Within layout.dataStart layout.dataWords address ∨ Within layout.bssStart layout.bssWords address ∨
    Within layout.stackBottom layout.stackWords address ∨
    address = layout.obcFaultRecord + obcFrInHandler

def startedMemory (layout : Layout) (mem : U32 → U32) (address : U32) : U32 :=
  if Within layout.stackBottom layout.stackWords address then stackPaint
  else if Within layout.bssStart layout.bssWords address then 0
  else if Within layout.dataStart layout.dataWords address then
    mem (layout.dataLma + (address - layout.dataStart))
  else if address = layout.obcFaultRecord + obcFrInHandler then 0
  else mem address

/-- Where in the handler a trap lands; past its end, where the vector is not its address. -/
def vectorTarget (layout : Layout) (vector : U32) : Nat :=
  if vector = layout.obcTrapEntry then 0 else obcTrapEntry.length

def handlerView (machine : BootMachine) : Machine Reg Csr :=
  { reg := fun reg =>
      match reg with
      | .t0 => machine.reg .t0
      | .t1 => machine.reg .t1
      | .t2 => machine.reg .t2
    csr := fun csr =>
      match csr with
      | .mscratch => machine.csr .mscratch
      | .mcause => machine.csr .mcause
      | .mepc => machine.csr .mepc
      | .mtval => machine.csr .mtval
    mem := machine.mem
    pc := machine.pc }

/-- The loop of `stack_high_water`, with the words that are left. -/
def paintedTo (mem : U32 → U32) : Nat → U32 → U32
  | 0, address => address
  | count + 1, address =>
      if mem address = stackPaint then paintedTo mem count (address + 4) else address

def stackHighWater (layout : Layout) (mem : U32 → U32) : U32 :=
  layout.stackTop - paintedTo mem layout.stackWords layout.stackBottom

end ObcZero
