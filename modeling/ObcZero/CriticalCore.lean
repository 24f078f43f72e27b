import ObcZero.StatusCore

/-!
Triple-redundant critical state (`flight/core/critical.h`, `flight/core/critical.c`).
An item names where its copies live by `place`: copy `index` of an item is the
word pair at its place in region `index`, so two items alias exactly when they
share a place.
-/

namespace ObcZero

structure ObcCriticalCopy where
  value : U32
  checksum : U32
  deriving DecidableEq, Repr

/-- A descriptor in flash. The header asks for a different seed per copy, and a
descriptor that reuses one cannot be built. -/
structure ObcCriticalItem where
  name : String
  place : Nat
  seeds : Fin 3 → U32
  seedsDiffer : Function.Injective seeds

def obcCriticalSeed0 : U32 := 0xA5A50001
def obcCriticalSeed1 : U32 := 0x5A5A0002
def obcCriticalSeed2 : U32 := 0xC3C30003

def obcCriticalSeeds : Fin 3 → U32 := ![obcCriticalSeed0, obcCriticalSeed1, obcCriticalSeed2]

theorem obcCriticalSeeds_injective : Function.Injective obcCriticalSeeds := by
  unfold Function.Injective
  decide

def obcCriticalMode : ObcCriticalItem :=
  { name := "mode", place := 0, seeds := obcCriticalSeeds,
    seedsDiffer := obcCriticalSeeds_injective }

def obcCriticalItems : List ObcCriticalItem := [obcCriticalMode]

abbrev obcCriticalMaxItems : Nat := 4

/-- The copies in RAM, the three counters, and `s_was_resolving`. -/
@[ext] structure CriticalState where
  copies : Nat → Fin 3 → ObcCriticalCopy
  repairs : U32
  failedVotes : U32
  unresolvableEvents : U32
  wasResolving : Fin obcCriticalMaxItems → Bool

def clearedCritical : CriticalState :=
  { copies := fun _ _ => { value := 0, checksum := 0 }, repairs := 0, failedVotes := 0,
    unresolvableEvents := 0, wasResolving := fun _ => true }

def checksumOf (value seed : U32) : U32 :=
  (value ^^^ seed) + (value <<< 7) + (value >>> 3)

def copyAt (state : CriticalState) (item : ObcCriticalItem) (index : Fin 3) : ObcCriticalCopy :=
  state.copies item.place index

def copyIsIntact (state : CriticalState) (item : ObcCriticalItem) (index : Fin 3) : Bool :=
  (copyAt state item index).checksum ==
    checksumOf (copyAt state item index).value (item.seeds index)

/-- One copy's words overwritten, by the voter or by whatever else reaches RAM. -/
def storeCopy (item : ObcCriticalItem) (index : Fin 3) (copy : ObcCriticalCopy)
    (state : CriticalState) : CriticalState :=
  { state with
    copies := Function.update state.copies item.place
      (Function.update (state.copies item.place) index copy) }

def writtenCopy (item : ObcCriticalItem) (value : U32) (index : Fin 3) : ObcCriticalCopy :=
  { value := value, checksum := checksumOf value (item.seeds index) }

def writeCopyStores (item : ObcCriticalItem) (index : Fin 3) (value : U32) :
    List (CriticalState → CriticalState) :=
  [fun state => storeCopy item index { copyAt state item index with value := value } state,
   fun state => storeCopy item index
     { copyAt state item index with checksum := checksumOf value (item.seeds index) } state]

def writeCopy (item : ObcCriticalItem) (index : Fin 3) (value : U32) (state : CriticalState) :
    CriticalState :=
  storeCopy item index (writtenCopy item value index) state

def obcCriticalSet (item : Option ObcCriticalItem) (value : U32) (state : CriticalState) :
    CriticalState :=
  match item with
  | none => state
  | some item =>
      (List.finRange 3).foldl (fun current index => writeCopy item index value current) state

def itemIndex (items : List ObcCriticalItem) (item : ObcCriticalItem) :
    Fin obcCriticalMaxItems :=
  ((List.finRange obcCriticalMaxItems).find? fun index =>
    (items[index.val]?).any fun registered => registered.place == item.place).getD 0

def agreeing (state : CriticalState) (item : ObcCriticalItem) (index : Fin 3) : Nat :=
  (List.finRange 3).foldl (fun count other =>
    if other = index then count
    else if copyIsIntact state item other &&
        (copyAt state item other).value == (copyAt state item index).value then count + 1
    else count) 1

def repairCopy (item : ObcCriticalItem) (winner : U32) (state : CriticalState) (index : Fin 3) :
    CriticalState :=
  if !copyIsIntact state item index || (copyAt state item index).value != winner then
    { writeCopy item index winner state with repairs := state.repairs + 1 }
  else state

/-- The vote. Returns the winner when there is one; what `*out` receives is the
caller's business. -/
def vote (items : List ObcCriticalItem) (item : ObcCriticalItem) (state : CriticalState) :
    ObcStatus × Option U32 × CriticalState :=
  let latch := itemIndex items item
  match (List.finRange 3).find? fun index =>
      copyIsIntact state item index && decide (2 ≤ agreeing state item index) with
  | some index =>
      let winner := (copyAt state item index).value
      let repaired := (List.finRange 3).foldl (repairCopy item winner) state
      (.ok, some winner,
        { repaired with wasResolving := Function.update repaired.wasResolving latch true })
  | none =>
      let failed := { state with failedVotes := state.failedVotes + 1 }
      (.errUnstable, none,
        if failed.wasResolving latch then
          { failed with
            wasResolving := Function.update failed.wasResolving latch false
            unresolvableEvents := failed.unresolvableEvents + 1 }
        else failed)

/-- `obc_critical_get`. `out` is what the caller's pointer holds, `none` for a
null pointer, and the second component is what it holds afterwards. -/
def obcCriticalGet (items : List ObcCriticalItem) (item : Option ObcCriticalItem)
    (out : Option U32) (state : CriticalState) : ObcStatus × Option U32 × CriticalState :=
  match item, out with
  | some item, some before =>
      let (status, winner, after) := vote items item state
      (status, some (winner.getD before), after)
  | _, _ => (.errInvalid, out, state)

def obcCriticalScrub (items : List ObcCriticalItem) (state : CriticalState) :
    ObcStatus × CriticalState :=
  items.foldl (fun current item =>
    let (status, _, after) := vote items item current.2
    (if status = .ok then current.1 else status, after)) (.ok, state)

end ObcZero
