import ObcZero.ModeCore
import ObcZero.RegisterMachine

/-!
The fault record (`flight/core/fault.h`, `flight/core/fault.c`) and the trap handler
that writes it in assembly (`flight/boot/trap.S`), which ends where it jumps to the
reset.
-/

namespace ObcZero

open RegisterMachine StoreSequence

def obcFrMagic : U32 := 0
def obcFrChecksum : U32 := 4
def obcFrCause : U32 := 8
def obcFrEpc : U32 := 12
def obcFrTval : U32 := 16
def obcFrResetCause : U32 := 20
def obcFrInHandler : U32 := 24
def obcFrSaveT1 : U32 := 28
def obcFrSaveT0 : U32 := 32

def obcFaultMagic : U32 := 0x0BCFA017
def obcFaultMagicDouble : U32 := 0x0BCDEAD2
def obcFaultChecksumSeed : U32 := 0x5A5AC3C3

structure ObcFaultRecord where
  magic : U32
  checksum : U32
  cause : U32
  epc : U32
  tval : U32
  resetCause : U32
  inHandler : U32
  saveT1 : U32
  saveT0 : U32
  deriving DecidableEq, Repr

/-- The record as C lays it out: nine words in the order of the declaration. -/
def faultRecordAt (record : U32) (mem : U32 → U32) : ObcFaultRecord :=
  { magic := mem record
    checksum := mem (record + 1 * 4)
    cause := mem (record + 2 * 4)
    epc := mem (record + 3 * 4)
    tval := mem (record + 4 * 4)
    resetCause := mem (record + 5 * 4)
    inHandler := mem (record + 6 * 4)
    saveT1 := mem (record + 7 * 4)
    saveT0 := mem (record + 8 * 4) }

def obcFaultChecksum (record : ObcFaultRecord) : U32 :=
  obcFaultChecksumSeed ^^^ record.cause ^^^ record.epc ^^^ record.tval ^^^ record.resetCause

/-- The status, and what is left in `*out_reset_cause`. -/
def obcFaultValidate (record : ObcFaultRecord) : ObcStatus × U32 :=
  if record.magic = obcFaultMagicDouble then (.ok, obcResetDoubleFault)
  else if record.magic ≠ obcFaultMagic then (.errInvalid, obcResetUnknown)
  else if record.checksum ≠ obcFaultChecksum record then (.errUnstable, obcResetUnknown)
  else (.ok, record.resetCause)

def obcFaultResetWithCause (cause : U32) : List (ObcFaultRecord → ObcFaultRecord) :=
  [fun record => { record with magic := 0 },
   fun record => { record with cause := 0 },
   fun record => { record with epc := 0 },
   fun record => { record with tval := 0 },
   fun record => { record with resetCause := cause },
   fun record => { record with checksum := obcFaultChecksum record },
   fun record => { record with magic := obcFaultMagic }]

def obcFaultConsume : List (ObcFaultRecord → ObcFaultRecord) :=
  [fun record => { record with magic := 0 },
   fun record => { record with checksum := 0 },
   fun record => { record with cause := 0 },
   fun record => { record with epc := 0 },
   fun record => { record with tval := 0 },
   fun record => { record with resetCause := obcResetUnknown }]

inductive Reg
  | t0
  | t1
  | t2
  deriving DecidableEq, Repr

inductive Csr
  | mscratch
  | mcause
  | mepc
  | mtval
  deriving DecidableEq, Repr

/-- The instruction behind the label `obc_trap_flag_set`. -/
def obcTrapFlagSet : Nat := 9
def doubleFault : Nat := 30
def obcResetNow : Nat := 33

def obcTrapEntry : List (Instr Reg Csr) :=
  [.csrrw .t0 .mscratch .t0,
   .sw .t1 obcFrSaveT1 .t0,
   .csrr .t1 .mscratch,
   .sw .t1 obcFrSaveT0 .t0,
   .csrw .mscratch .t0,
   .lw .t1 obcFrInHandler .t0,
   .bnez .t1 doubleFault,
   .li .t1 1,
   .sw .t1 obcFrInHandler .t0,
   .csrr .t1 .mcause,
   .sw .t1 obcFrCause .t0,
   .csrr .t1 .mepc,
   .sw .t1 obcFrEpc .t0,
   .csrr .t1 .mtval,
   .sw .t1 obcFrTval .t0,
   .li .t1 obcResetTrap,
   .sw .t1 obcFrResetCause .t0,
   .li .t1 obcFaultChecksumSeed,
   .lw .t2 obcFrCause .t0,
   .xor .t1 .t1 .t2,
   .lw .t2 obcFrEpc .t0,
   .xor .t1 .t1 .t2,
   .lw .t2 obcFrTval .t0,
   .xor .t1 .t1 .t2,
   .lw .t2 obcFrResetCause .t0,
   .xor .t1 .t1 .t2,
   .sw .t1 obcFrChecksum .t0,
   .li .t1 obcFaultMagic,
   .sw .t1 obcFrMagic .t0,
   .j obcResetNow,
   .li .t1 obcFaultMagicDouble,
   .sw .t1 obcFrMagic .t0,
   .j obcResetNow]

def takeTrap (cause epc tval : U32) (machine : Machine Reg Csr) : Machine Reg Csr :=
  { machine with
    csr := Function.update (Function.update (Function.update machine.csr .mcause cause)
      .mepc epc) .mtval tval
    pc := 0 }

/-- What the handler writes into a record, store by store, entered with the given
registers. -/
def trapStores (t0 t1 cause epc tval : U32) (record : ObcFaultRecord) :
    List (ObcFaultRecord → ObcFaultRecord) :=
  [fun record => { record with saveT1 := t1 },
   fun record => { record with saveT0 := t0 }] ++
  if record.inHandler ≠ 0 then [fun record => { record with magic := obcFaultMagicDouble }]
  else
    [fun record => { record with inHandler := 1 },
     fun record => { record with cause := cause },
     fun record => { record with epc := epc },
     fun record => { record with tval := tval },
     fun record => { record with resetCause := obcResetTrap },
     fun record => { record with
       checksum := obcFaultChecksumSeed ^^^ cause ^^^ epc ^^^ tval ^^^ obcResetTrap },
     fun record => { record with magic := obcFaultMagic }]

end ObcZero
