import ObcZero.ModeVote
import ObcZero.TrapHandler

/-! What a trap leaves behind, and how it reaches the boot after it and every later
one: the fault record up to its consumption, the mode record from then on. -/

namespace ObcZero

open RegisterMachine StepSystem StoreSequence

/-- The two records of a trap, with the memory of the mode. -/
structure Survivors where
  fault : ObcFaultRecord
  mode : ModeState

structure Trap where
  t0 : U32
  t1 : U32
  cause : U32
  epc : U32
  tval : U32

def Trap.stores (trap : Trap) (fault : ObcFaultRecord) : List (ObcFaultRecord → ObcFaultRecord) :=
  trapStores trap.t0 trap.t1 trap.cause trap.epc trap.tval fault

/-- How a boot ends, after so many of its stores: by a reset, by a trap whose handler
gets to its own, or by a second trap once the first has made `stored` stores. -/
inductive Death
  | reset (count : Nat)
  | trap (count : Nat) (trap : Trap)
  | doubleFault (count : Nat) (trap : Trap) (stored : Nat) (second : Trap)

/-- A boot by what `obc_main` and the executive go on to enter safe mode for, and by
its end. -/
structure Life where
  mainEntries : List U32
  executiveEntries : List U32
  death : Death

def onMode (stores : List (ModeState → ModeState)) : List (Survivors → Survivors) :=
  stores.map fun store survivors => { survivors with mode := store survivors.mode }

def onFault (stores : List (ObcFaultRecord → ObcFaultRecord)) : List (Survivors → Survivors) :=
  stores.map fun store survivors => { survivors with fault := store survivors.fault }

/-- The startup code clears the re-entry flag, and `.bss`. -/
def startSurvivors (survivors : Survivors) : Survivors :=
  { fault := { survivors.fault with inHandler := 0 }, mode := startup survivors.mode }

def lifeMainStores (life : Life) (started : Survivors) : List (Survivors → Survivors) :=
  let previous := (obcFaultValidate started.fault).2
  onMode (restoreStores previous started.mode) ++ onFault obcFaultConsume ++
    onMode (entriesStores life.mainEntries (obcModeRestore previous started.mode))

def atExecutive (life : Life) (survivors : Survivors) : Survivors :=
  perform (lifeMainStores life (startSurvivors survivors)) (startSurvivors survivors)

def lifeStores (life : Life) (survivors : Survivors) : List (Survivors → Survivors) :=
  lifeMainStores life (startSurvivors survivors) ++
    onMode (entriesStores life.executiveEntries (atExecutive life survivors).mode)

def lifeStep (life : Life) (survivors : Survivors) : Survivors :=
  let cut (count : Nat) := interrupted (lifeStores life survivors) count (startSurvivors survivors)
  match life.death with
  | .reset count => cut count
  | .trap count trap =>
      { cut count with fault := perform (trap.stores (cut count).fault) (cut count).fault }
  | .doubleFault count trap stored second =>
      let entered := interrupted (trap.stores (cut count).fault) stored (cut count).fault
      { cut count with fault := perform (second.stores entered) entered }

/-- No reset falls between the stores that rewrite the mode record, and a second trap
finds the re-entry flag set, as the third store of the handler leaves it. -/
def MissesRewrites (life : Life) (_ : Survivors) : Prop :=
  match life.death with
  | .reset count => count ≤ recordRewriteStart ∨ recordRewriteStart + 4 ≤ count
  | .trap _ _ => True
  | .doubleFault _ _ stored _ => 3 ≤ stored

def Trapped (fault : ObcFaultRecord) : Prop :=
  obcFaultValidate fault = (.ok, obcResetTrap) ∨ obcFaultValidate fault = (.ok, obcResetDoubleFault)

def Evidence (survivors : Survivors) : Prop :=
  Trapped survivors.fault ∨
    (recordAuthentic survivors.mode.record = true ∧ survivors.mode.record.reason = obcSafeTrap)

theorem perform_onMode (stores : List (ModeState → ModeState)) (survivors : Survivors) :
    perform (onMode stores) survivors =
      { survivors with mode := perform stores survivors.mode } := by
  induction stores generalizing survivors with
  | nil => rfl
  | cons store rest ih => exact ih { survivors with mode := store survivors.mode }

theorem perform_onFault (stores : List (ObcFaultRecord → ObcFaultRecord)) (survivors : Survivors) :
    perform (onFault stores) survivors =
      { survivors with fault := perform stores survivors.fault } := by
  induction stores generalizing survivors with
  | nil => rfl
  | cons store rest ih => exact ih { survivors with fault := store survivors.fault }

theorem interrupted_onMode (stores : List (ModeState → ModeState)) (count : Nat)
    (survivors : Survivors) :
    interrupted (onMode stores) count survivors =
      { survivors with mode := interrupted stores count survivors.mode } := by
  rw [interrupted, onMode, ← List.map_take]
  exact perform_onMode (stores.take count) survivors

theorem restoreStores_evidence {cause : U32} {state : ModeState}
    (evidence : (cause = obcResetTrap ∨ cause = obcResetDoubleFault) ∨
      (recordAuthentic state.record = true ∧ state.record.reason = obcSafeTrap)) :
    restoreStores cause state =
      beforeRecord obcSafeTrap ++ (recordStores obcSafeTrap ++ announcement obcSafeTrap) := by
  have kept : (perform nominalStores state).record = state.record := by
    rw [perform_nominalStores]
  by_cases trapped : cause = obcResetTrap ∨ cause = obcResetDoubleFault
  · simp only [restoreStores, trapped, ↓reduceIte]
    exact restore_enters obcSafeTrap state
  · obtain ⟨authentic, reason⟩ := evidence.resolve_left trapped
    simp only [restoreStores, trapped, ↓reduceIte, kept, authentic, reason]
    exact restore_enters obcSafeTrap state

def evidenceStores : List (Survivors → Survivors) :=
  onMode (beforeRecord obcSafeTrap) ++ (onMode (recordStores obcSafeTrap) ++
    (onMode (announcement obcSafeTrap) ++ onFault obcFaultConsume))

theorem validate_started (survivors : Survivors) :
    obcFaultValidate (startSurvivors survivors).fault = obcFaultValidate survivors.fault := rfl

theorem Evidence.main {survivors : Survivors} (evidence : Evidence survivors) (life : Life) :
    lifeMainStores life (startSurvivors survivors) = evidenceStores := by
  have seen : ((obcFaultValidate (startSurvivors survivors).fault).2 = obcResetTrap ∨
      (obcFaultValidate (startSurvivors survivors).fault).2 = obcResetDoubleFault) ∨
      (recordAuthentic (startSurvivors survivors).mode.record = true ∧
        (startSurvivors survivors).mode.record.reason = obcSafeTrap) := by
    rw [validate_started]
    rcases evidence with (trap | double) | recorded
    · exact .inl (.inl (by rw [trap]))
    · exact .inl (.inr (by rw [double]))
    · exact .inr recorded
  have announced (before : ModeState) :
      (perform (beforeRecord obcSafeTrap ++ (recordStores obcSafeTrap ++ announcement obcSafeTrap))
        before).announced ≠ 0 := by
    rw [perform_append, perform_beforeRecord]
    change (1 : U32) ≠ 0
    decide
  rw [lifeMainStores, obcModeRestore, restoreStores_evidence seen,
    entriesStores_announced _ (announced _)]
  simp [onMode, evidenceStores]

theorem Evidence.atExecutive_eq {survivors : Survivors} (evidence : Evidence survivors)
    (life : Life) :
    atExecutive life survivors =
      { fault := perform obcFaultConsume (startSurvivors survivors).fault
        mode := obcModeEnterSafe obcSafeTrap
          (perform nominalStores (startSurvivors survivors).mode) } := by
  have entered : perform (announcement obcSafeTrap) (perform (recordStores obcSafeTrap)
      (perform (beforeRecord obcSafeTrap) (startSurvivors survivors).mode)) =
        obcModeEnterSafe obcSafeTrap (perform nominalStores (startSurvivors survivors).mode) := by
    rw [obcModeEnterSafe, ← perform_append, ← perform_append, ← perform_append,
      ← restore_enters]
  rw [atExecutive, evidence.main, evidenceStores, perform_append, perform_append, perform_append,
    perform_onMode, perform_onMode, perform_onMode, perform_onFault]
  exact congrArg (Survivors.mk _) entered

theorem Evidence.lifeStores_eq {survivors : Survivors} (evidence : Evidence survivors)
    (life : Life) : lifeStores life survivors = evidenceStores := by
  have announced : (atExecutive life survivors).mode.announced ≠ 0 := by
    rw [evidence.atExecutive_eq, obcModeEnterSafe, ← perform_append, restore_enters,
      perform_append, perform_beforeRecord]
    change (1 : U32) ≠ 0
    decide
  rw [lifeStores, evidence.main, entriesStores_announced _ announced]
  exact List.append_nil _

theorem evidenceStores_inHandler :
    ∀ store ∈ evidenceStores, ∀ survivors : Survivors,
      (store survivors).fault.inHandler = survivors.fault.inHandler := by
  intro store member survivors
  simp only [evidenceStores, List.mem_append] at member
  rcases member with mode | mode | mode | fault
  · obtain ⟨store, _, rfl⟩ := List.mem_map.mp mode
    rfl
  · obtain ⟨store, _, rfl⟩ := List.mem_map.mp mode
    rfl
  · obtain ⟨store, _, rfl⟩ := List.mem_map.mp mode
    rfl
  · simp only [onFault, obcFaultConsume, List.map_cons, List.map_nil, List.mem_cons,
      List.not_mem_nil, or_false] at fault
    rcases fault with rfl | rfl | rfl | rfl | rfl | rfl <;> rfl

theorem Trap.stores_first (trap : Trap) {fault : ObcFaultRecord} (first : fault.inHandler = 0) :
    Trapped (perform (trap.stores fault) fault) :=
  .inl (trapStores_validates _ _ _ _ _ first).1

theorem Trap.stores_flag (trap : Trap) {fault : ObcFaultRecord} (first : fault.inHandler = 0)
    {stored : Nat} (flagged : 3 ≤ stored) :
    (interrupted (trap.stores fault) stored fault).inHandler = 1 := by
  have flag : ∀ store ∈ (trap.stores fault).drop 3, ∀ record,
      (store record).inHandler = record.inHandler := by
    simp [Trap.stores, trapStores, first]
  have prologue : (List.take 3 (trap.stores fault)).length = 3 := by
    simp [Trap.stores, trapStores, first]
  rw [← List.take_append_drop 3 (trap.stores fault),
    interrupted_append_second (by rwa [prologue]),
    interrupted_unchanged ObcFaultRecord.inHandler flag]
  simp [Trap.stores, trapStores, first]

theorem Trap.stores_second (trap second : Trap) {fault : ObcFaultRecord}
    (first : fault.inHandler = 0) {stored : Nat} (flagged : 3 ≤ stored) :
    Trapped (perform (second.stores (interrupted (trap.stores fault) stored fault))
      (interrupted (trap.stores fault) stored fault)) := by
  have flag := trap.stores_flag first flagged
  exact .inr (trapStores_nested _ _ _ _ _ (by simp [flag]))

/-- A reset before the rewrite of the mode record leaves both records as they were,
one behind it leaves the mode record telling of the trap. -/
theorem Evidence.cut {survivors : Survivors} (evidence : Evidence survivors) {count : Nat}
    (misses : count ≤ recordRewriteStart ∨ recordRewriteStart + 4 ≤ count) :
    Evidence (interrupted evidenceStores count (startSurvivors survivors)) := by
  have before : (onMode (beforeRecord obcSafeTrap)).length = recordRewriteStart := rfl
  have rewrite : (onMode (recordStores obcSafeTrap)).length = 4 := rfl
  rcases misses with early | late
  · rw [evidenceStores, interrupted_append_first (by rwa [before]), interrupted_onMode]
    rcases evidence with trapped | ⟨authentic, reason⟩
    · exact .inl trapped
    · have kept := interrupted_unchanged ModeState.record (beforeRecord_record obcSafeTrap) count
        (startSurvivors survivors).mode
      refine .inr ?_
      dsimp only
      rw [kept]
      exact ⟨authentic, reason⟩
  · have beyond : (onMode (beforeRecord obcSafeTrap)).length ≤ count := by
      rw [before]
      exact Nat.le_trans (Nat.le_add_right _ _) late
    have rewritten : (onMode (recordStores obcSafeTrap)).length ≤
        count - (onMode (beforeRecord obcSafeTrap)).length := by
      rw [before, rewrite]
      omega
    have untouched : ∀ store ∈ onMode (announcement obcSafeTrap) ++ onFault obcFaultConsume,
        ∀ survivors : Survivors, (store survivors).mode.record = survivors.mode.record := by
      intro store member survivors
      rcases List.mem_append.mp member with told | consumed
      · obtain ⟨text, inside, rfl⟩ := List.mem_map.mp told
        exact announcement_record obcSafeTrap text inside survivors.mode
      · obtain ⟨word, _, rfl⟩ := List.mem_map.mp consumed
        rfl
    refine .inr ?_
    rw [evidenceStores, interrupted_append_second beyond, interrupted_append_second rewritten,
      interrupted_unchanged (fun survivors : Survivors => survivors.mode.record) untouched,
      perform_onMode, perform_recordStores]
    exact ⟨by simp [recordAuthentic, modeChecksum], rfl⟩

theorem lifeStep_evidence (life : Life) (survivors : Survivors)
    (misses : MissesRewrites life survivors) (evidence : Evidence survivors) :
    Evidence (lifeStep life survivors) := by
  have flag (count : Nat) :
      (interrupted evidenceStores count (startSurvivors survivors)).fault.inHandler = 0 :=
    interrupted_unchanged (fun survivors : Survivors => survivors.fault.inHandler)
      evidenceStores_inHandler count (startSurvivors survivors)
  unfold MissesRewrites at misses
  cases death : life.death with
  | reset count =>
      rw [death] at misses
      simp only [lifeStep, death, evidence.lifeStores_eq]
      exact evidence.cut misses
  | trap count trap =>
      simp only [lifeStep, death, evidence.lifeStores_eq]
      exact .inl (trap.stores_first (flag count))
  | doubleFault count trap stored second =>
      rw [death] at misses
      simp only [lifeStep, death, evidence.lifeStores_eq]
      exact .inl (trap.stores_second second (flag count) misses)

structure SafeForTrap (started : Survivors) : Prop where
  safe : (obcModeIsSafe started.mode).1 = true
  reason : started.mode.safeReason = obcSafeTrap
  consumed : obcFaultValidate started.fault = (.errInvalid, obcResetUnknown)

theorem Evidence.safeForTrap {survivors : Survivors} (evidence : Evidence survivors) (life : Life) :
    SafeForTrap (atExecutive life survivors) := by
  have fresh : (perform nominalStores (startSurvivors survivors).mode).announced = 0 := by
    rw [perform_nominalStores]
  rw [evidence.atExecutive_eq]
  constructor
  · exact obcModeEnterSafe_fresh fresh obcSafeTrap
  · rw [obcModeEnterSafe, enterSafeStores, if_neg (by simp [fresh]), perform_append,
      perform_append, perform_degradeStores, perform_recordStores]
    rfl
  · rfl

/-- Whatever else the memory holds, and however many boots die in between, every boot
with this record behind it starts in safe mode because of a trap. -/
def DegradesEveryBoot (fault : ObcFaultRecord) : Prop :=
  ∀ (mode : ModeState) (lives : List Life) (life : Life),
    Meets lifeStep MissesRewrites lives { fault := fault, mode := mode } →
      SafeForTrap (atExecutive life (run lifeStep lives { fault := fault, mode := mode }))

theorem Trapped.degradesEveryBoot {fault : ObcFaultRecord} (trapped : Trapped fault) :
    DegradesEveryBoot fault := by
  intro mode lives life misses
  have evidence : Evidence (run lifeStep lives { fault := fault, mode := mode }) :=
    meets_invariant lifeStep_evidence misses (.inl trapped)
  exact evidence.safeForTrap life

/-- A trap that gets to its reset is told to the next boot whole, a second one on top of
it as a double fault, and neither leaves any later boot nominal. -/
theorem trap_reaches_every_boot {record : U32} {machine : Machine Reg Csr}
    (entry : AtTrapEntry record machine)
    (cleared : (faultRecordAt record machine.mem).inHandler = 0) :
    (∀ count, (steps obcTrapEntry count machine).pc = obcResetNow →
      let left := faultRecordAt record (steps obcTrapEntry count machine).mem
      (obcFaultValidate left = (.ok, obcResetTrap) ∧ left.cause = machine.csr .mcause ∧
        left.epc = machine.csr .mepc ∧ left.tval = machine.csr .mtval) ∧
      DegradesEveryBoot left) ∧
    (∀ count, obcTrapFlagSet ≤ count → ∀ reg cause epc tval later,
      let second := takeSecondTrap reg cause epc tval (steps obcTrapEntry count machine)
      (steps obcTrapEntry later second).pc = obcResetNow →
      let left := faultRecordAt record (steps obcTrapEntry later second).mem
      obcFaultValidate left = (.ok, obcResetDoubleFault) ∧ DegradesEveryBoot left) := by
  constructor
  · intro count ended left
    have told := trapHandler_validates entry cleared ended
    exact ⟨told, Trapped.degradesEveryBoot (.inl told.1)⟩
  · intro count flagged reg cause epc tval later second ended left
    have told := secondTrap_validates entry cleared flagged reg cause epc tval ended
    exact ⟨told, Trapped.degradesEveryBoot (.inr told)⟩

def loadFault : Machine Reg Csr :=
  { reg := fun _ => 0
    csr := fun csr => match csr with
      | .mscratch => 0x80000100
      | .mcause => 5
      | .mepc => 0x20400100
      | .mtval => 0x80010000
    mem := fun _ => 0
    pc := 0 }

def quietLife (count : Nat) : Life :=
  { mainEntries := [], executiveEntries := [], death := .reset count }

theorem flight_trap_reaches_every_boot :
    let left := faultRecordAt 0x80000100 (steps obcTrapEntry 33 loadFault).mem
    left.epc = 0x20400100 ∧
      SafeForTrap (atExecutive (quietLife 0)
        (run lifeStep [quietLife 18, quietLife 40] { fault := left, mode := coldMode })) := by
  intro left
  have entry : AtTrapEntry 0x80000100 loadFault := ⟨rfl, rfl⟩
  have told := (trap_reaches_every_boot entry rfl).1 33 (trapHandler_pc rfl)
  refine ⟨told.1.2.2.1, told.2 coldMode [quietLife 18, quietLife 40] (quietLife 0) ?_⟩
  exact ⟨.inl (Nat.le_refl 18), .inr (by decide), trivial⟩

end ObcZero
