import ObcZero.CriticalCore
import ObcZero.StoreSequence

/-!
The operating mode (`flight/core/mode.h`, `flight/core/mode.c`) and its way
through a boot (`flight/boot/start.S`, `flight/core/main.c`). The two writers are
kept as the sequences of stores they make, since a reset can fall between any
two of them.
-/

namespace ObcZero

open StoreSequence

def obcModeNominal : U32 := 0
def obcModeSafe : U32 := 1

def obcSafeNone : U32 := 0
def obcSafeTrap : U32 := 1
def obcSafeFrameOverrun : U32 := 2
def obcSafeClock : U32 := 3
def obcSafeResetLoop : U32 := 4
def obcSafeTelemetry : U32 := 5

def obcResetUnknown : U32 := 0
def obcResetTrap : U32 := 1
def obcResetDoubleFault : U32 := 2
def obcResetRequested : U32 := 3

def obcModeMagic : U32 := 0x0BC5AFE1
def obcModeChecksumSeed : U32 := 0x3C3CA5A5

structure ObcModeRecord where
  magic : U32
  checksum : U32
  reason : U32
  deriving DecidableEq, Repr

/-- `obc_mode`, `obc_safe_reason` and `s_announced` live in `.bss`; the copies and
the record do not. `serial` is what has gone out on the UART. -/
structure ModeState where
  critical : CriticalState
  mode : U32
  safeReason : U32
  announced : U32
  record : ObcModeRecord
  serial : List String

def coldMode : ModeState :=
  { critical := clearedCritical, mode := 0, safeReason := 0, announced := 0,
    record := { magic := 0, checksum := 0, reason := 0 }, serial := [] }

def obcModeIsSafe (state : ModeState) : Bool × ModeState :=
  let (status, value, critical) :=
    obcCriticalGet obcCriticalItems (some obcCriticalMode) (some obcModeSafe) state.critical
  match status, value with
  | .ok, some value => (value == obcModeSafe, { state with critical := critical, mode := value })
  | _, _ => (true, { state with critical := critical, mode := obcModeSafe })

def modeChecksum (record : ObcModeRecord) : U32 := obcModeChecksumSeed ^^^ record.reason

def reasonText (reason : U32) : String :=
  if reason = obcSafeTrap then "trap on a previous boot"
  else if reason = obcSafeFrameOverrun then "frame overrun"
  else if reason = obcSafeClock then "clock would not settle"
  else if reason = obcSafeResetLoop then "reset loop, the ladder ran out of rungs"
  else "unspecified"

def setModeStores (value : U32) : List (ModeState → ModeState) :=
  (List.finRange 3).flatMap fun index =>
    (writeCopyStores obcCriticalMode index value).map fun store state =>
      { state with critical := store state.critical }

def uartPuts (text : String) (state : ModeState) : ModeState :=
  { state with serial := state.serial ++ [text] }

def recordStores (reason : U32) : List (ModeState → ModeState) :=
  [fun state => { state with record.magic := 0 },
   fun state => { state with record.reason := reason },
   fun state => { state with record.checksum := modeChecksum state.record },
   fun state => { state with record.magic := obcModeMagic }]

def announcement (reason : U32) : List (ModeState → ModeState) :=
  [uartPuts "mode   : SAFE, ", uartPuts (reasonText reason), uartPuts "\r\n"]

def degradeStores (reason : U32) : List (ModeState → ModeState) :=
  (fun state => { state with announced := 1 }) :: setModeStores obcModeSafe ++
    [fun state => { state with mode := obcModeSafe },
     fun state => { state with safeReason := reason }]

/-- The stores of `obc_mode_enter_safe`, none once the entry has been announced. -/
def enterSafeStores (reason : U32) (state : ModeState) : List (ModeState → ModeState) :=
  if state.announced ≠ 0 then []
  else degradeStores reason ++ recordStores reason ++ announcement reason

def obcModeEnterSafe (reason : U32) (state : ModeState) : ModeState :=
  perform (enterSafeStores reason state) state

def nominalStores : List (ModeState → ModeState) :=
  setModeStores obcModeNominal ++
    [fun state => { state with mode := obcModeNominal },
     fun state => { state with safeReason := obcSafeNone },
     fun state => { state with announced := 0 }]

def recordAuthentic (record : ObcModeRecord) : Bool :=
  record.magic == obcModeMagic && record.checksum == modeChecksum record

def restoreStores (previousResetCause : U32) (state : ModeState) :
    List (ModeState → ModeState) :=
  let nominal := perform nominalStores state
  nominalStores ++
    if previousResetCause = obcResetTrap ∨ previousResetCause = obcResetDoubleFault then
      enterSafeStores obcSafeTrap nominal
    else if recordAuthentic nominal.record then enterSafeStores nominal.record.reason nominal
    else []

def obcModeRestore (previousResetCause : U32) (state : ModeState) : ModeState :=
  perform (restoreStores previousResetCause state) state

/-- What the startup code leaves of the previous boot: `.bss` cleared, `.data`
copied in, the copies and the record as they were. -/
def startup (state : ModeState) : ModeState :=
  { state with
    critical := { state.critical with
      repairs := 0, failedVotes := 0, unresolvableEvents := 0, wasResolving := fun _ => true }
    mode := 0, safeReason := 0, announced := 0, serial := [] }

/-- One boot: the reset cause it reads, the reasons for which `obc_main` and then
the executive go on to enter safe mode, and how many stores it gets to make
before a reset ends it. -/
structure Boot where
  previousResetCause : U32
  mainEntries : List U32
  executiveEntries : List U32
  reset : Option Nat

def entriesStores : List U32 → ModeState → List (ModeState → ModeState)
  | [], _ => []
  | reason :: rest, state =>
      enterSafeStores reason state ++ entriesStores rest (obcModeEnterSafe reason state)

def mainStores (boot : Boot) (state : ModeState) : List (ModeState → ModeState) :=
  restoreStores boot.previousResetCause state ++
    entriesStores boot.mainEntries (obcModeRestore boot.previousResetCause state)

def executiveState (boot : Boot) (state : ModeState) : ModeState :=
  perform (mainStores boot (startup state)) (startup state)

def bootStores (boot : Boot) (state : ModeState) : List (ModeState → ModeState) :=
  mainStores boot (startup state) ++
    entriesStores boot.executiveEntries (executiveState boot state)

def bootStep (boot : Boot) (state : ModeState) : ModeState :=
  match boot.reset with
  | none => perform (bootStores boot state) (startup state)
  | some count => interrupted (bootStores boot state) count (startup state)

def ReachesExecutive (boot : Boot) (state : ModeState) : Prop :=
  match boot.reset with
  | none => True
  | some count => (mainStores boot (startup state)).length ≤ count

end ObcZero
