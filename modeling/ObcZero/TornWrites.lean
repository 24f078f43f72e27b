import ObcZero.BootCore
import ObcZero.ModeRestart
import ObcZero.TrapHandler

/-! What the next boot believes of a record that survives a reset, where the reset
cuts short whoever was writing it. -/

namespace ObcZero

open RegisterMachine StoreSequence

/-- What a fault record that validates says; the marker of a double fault carries no
payload. -/
inductive FaultReport
  | doubleFault
  | fault (cause epc tval resetCause : U32)
  deriving DecidableEq, Repr

def believedFault (record : ObcFaultRecord) : Option FaultReport :=
  if (obcFaultValidate record).1 = .ok then
    if record.magic = obcFaultMagicDouble then some .doubleFault
    else some (.fault record.cause record.epc record.tval record.resetCause)
  else none

def believedReason (state : ModeState) : Option U32 :=
  if recordAuthentic state.record then some state.record.reason else none

def believedBoot (record : ObcBootRecord) : Option (U32 × U32) :=
  if bootRecordIsIntact record then some (record.shortBoots, record.inProgress) else none

/-- How many stores of an entry into safe mode lead up to and through its record. -/
def enterSafeThroughRecord (reason : U32) : Nat :=
  (degradeStores reason ++ recordStores reason).length

theorem believedFault_unmarked {record : ObcFaultRecord} (unmarked : record.magic = 0) :
    believedFault record = none := by
  simp [believedFault, obcFaultValidate, unmarked, obcFaultMagic, obcFaultMagicDouble]

theorem obcFaultResetWithCause_untorn (cause : U32) (record : ObcFaultRecord) :
    Untorn believedFault (obcFaultResetWithCause cause) record := by
  refine untorn_of_commit (fun record => record.magic = 0) [] (obcFaultResetWithCause cause)
    ?_ ?_ ?_ (fun _ => believedFault_unmarked) record
  · simp
  · simp [obcFaultResetWithCause]
  · simp [obcFaultResetWithCause]

theorem bootRecordWrite_untorn (count inProgress : U32) (record : ObcBootRecord) :
    Untorn believedBoot (bootRecordWrite count inProgress) record := by
  refine untorn_of_commit (fun record => record.magic = 0) [] (bootRecordWrite count inProgress)
    ?_ ?_ ?_ ?_ record
  · simp
  · simp [bootRecordWrite]
  · simp [bootRecordWrite]
  · intro record unmarked
    simp [believedBoot, bootRecordIsIntact, unmarked, obcBootMagic]

theorem degradeStores_record (reason : U32) :
    ∀ store ∈ degradeStores reason, ∀ state : ModeState, (store state).record = state.record :=
  fun store member => beforeRecord_record reason store (List.mem_append_right _ member)

theorem enterSafeStores_untorn (reason : U32) (state : ModeState) :
    Untorn believedReason ((enterSafeStores reason state).take (enterSafeThroughRecord reason))
      state := by
  by_cases fresh : state.announced = 0
  · rw [enterSafeStores, if_neg (by simp [fresh]), enterSafeThroughRecord, List.take_left]
    refine untorn_of_commit (fun state => state.record.magic = 0) (degradeStores reason)
      (recordStores reason) ?_ ?_ ?_ ?_ state
    · intro store member state
      rw [believedReason, degradeStores_record reason store member, believedReason]
    · simp [recordStores]
    · simp [recordStores]
    · intro state unmarked
      simp [believedReason, recordAuthentic, unmarked, obcModeMagic]
  · rw [enterSafeStores, if_pos fresh, List.take_nil]
    exact fun count proper => absurd proper (Nat.not_lt_zero count)

structure AlreadyWritten (cause epc tval : U32) (record : ObcFaultRecord) : Prop where
  validates : obcFaultValidate record = (.ok, obcResetTrap)
  cause : record.cause = cause
  epc : record.epc = epc
  tval : record.tval = tval

/-- Only the magic decides about a record without the handler's own. -/
theorem believedFault_other {before after : ObcFaultRecord} (other : before.magic ≠ obcFaultMagic)
    (kept : after.magic = before.magic) : believedFault after = believedFault before := by
  have otherAfter : after.magic ≠ obcFaultMagic := by rwa [kept]
  simp only [believedFault, obcFaultValidate, kept, other, ne_eq, not_false_eq_true, ↓reduceIte]
  split <;> rfl

theorem alreadyWritten_iff {cause epc tval : U32} {record : ObcFaultRecord} :
    AlreadyWritten cause epc tval record ↔
      record.magic = obcFaultMagic ∧ record.checksum =
          obcFaultChecksumSeed ^^^ cause ^^^ epc ^^^ tval ^^^ obcResetTrap ∧
        record.cause = cause ∧ record.epc = epc ∧ record.tval = tval ∧
        record.resetCause = obcResetTrap := by
  constructor
  · rintro ⟨validates, rfl, rfl, rfl⟩
    simp only [obcFaultValidate] at validates
    split at validates
    · cases validates
    · split at validates
      · cases validates
      · split at validates
        · cases validates
        · rename_i marked summed
          have trapped : record.resetCause = obcResetTrap := congrArg Prod.snd validates
          simp only [ne_eq, not_not] at marked summed
          refine ⟨marked, ?_, rfl, rfl, rfl, trapped⟩
          rw [summed, obcFaultChecksum, trapped]
  · rintro ⟨marked, summed, rfl, rfl, rfl, trapped⟩
    refine ⟨?_, rfl, rfl, rfl⟩
    simp [obcFaultValidate, obcFaultChecksum, marked, summed, trapped, obcFaultMagic,
      obcFaultMagicDouble]

theorem believedFault_marked {cause epc tval : U32} {record : ObcFaultRecord}
    (marked : record.magic = obcFaultMagic) :
    believedFault record = some (.fault cause epc tval obcResetTrap) ↔
      AlreadyWritten cause epc tval record := by
  have read : believedFault record =
      if record.checksum = obcFaultChecksum record then
        some (.fault record.cause record.epc record.tval record.resetCause)
      else none := by
    simp only [believedFault, obcFaultValidate, marked]
    by_cases summed : record.checksum = obcFaultChecksum record
    · simp [summed, obcFaultMagic, obcFaultMagicDouble]
    · simp [summed, obcFaultMagic, obcFaultMagicDouble]
  rw [alreadyWritten_iff, read]
  constructor
  · intro believed
    split at believed
    · rename_i summed
      injection believed with said
      injection said with cause epc tval trapped
      refine ⟨marked, ?_, cause, epc, tval, trapped⟩
      rw [summed, obcFaultChecksum, cause, epc, tval, trapped]
    · cases believed
  · rintro ⟨_, summed, rfl, rfl, rfl, trapped⟩
    rw [if_pos (by rw [summed, obcFaultChecksum, trapped]), trapped]

theorem trapStores_untorn (t0 t1 cause epc tval : U32) (record : ObcFaultRecord) :
    Untorn believedFault (trapStores t0 t1 cause epc tval record) record ↔
      record.inHandler ≠ 0 ∨ record.magic ≠ obcFaultMagic ∨
        AlreadyWritten cause epc tval record := by
  constructor
  · intro untorn
    by_contra written
    simp only [not_or, not_not] at written
    obtain ⟨first, marked, unwritten⟩ := written
    -- the handler has only the magic left to write, and finds it there
    have landed := untorn 8 (by simp [trapStores, first])
    have believed : believedFault (interrupted (trapStores t0 t1 cause epc tval record) 8 record) =
        some (.fault cause epc tval obcResetTrap) := by
      simp [trapStores, first, interrupted, perform, believedFault, obcFaultValidate,
        obcFaultChecksum, marked, obcFaultMagic, obcFaultMagicDouble]
    rw [believed] at landed
    rcases landed with nothing | same
    · cases nothing
    · exact unwritten ((believedFault_marked marked).mp same.symm)
  · intro safe count proper
    right
    rw [interrupted_proper proper]
    by_cases first : record.inHandler = 0
    · rcases safe.resolve_left (not_not_intro first) with other | written
      · have kept : ∀ store ∈ (trapStores t0 t1 cause epc tval record).dropLast, ∀ record,
            (store record).magic = record.magic := by
          simp [trapStores, first]
        exact believedFault_other other (interrupted_unchanged ObcFaultRecord.magic kept count record)
      · have kept : ∀ store ∈ (trapStores t0 t1 cause epc tval record).dropLast, ∀ record,
            AlreadyWritten cause epc tval record → AlreadyWritten cause epc tval (store record) := by
          simp +contextual [trapStores, first, alreadyWritten_iff]
        have still := interrupted_keeps kept count written
        rw [(believedFault_marked (alreadyWritten_iff.mp still).1).mpr still,
          (believedFault_marked (alreadyWritten_iff.mp written).1).mpr written]
    · have kept : ∀ store ∈ (trapStores t0 t1 cause epc tval record).dropLast, ∀ record,
          believedFault (store record) = believedFault record := by
        intro store member record
        simp only [trapStores, first, ne_eq, not_false_eq_true, ↓reduceIte, List.cons_append,
          List.nil_append, List.dropLast_cons_cons, List.dropLast_singleton, List.mem_cons,
          List.not_mem_nil, or_false] at member
        rcases member with rfl | rfl
        · rfl
        · rfl
      exact interrupted_unchanged believedFault kept count record

/-- Between any two instructions of a handler whose stores are untorn, the record reads as
nothing, as it did at the entry, or as it will at the reset. -/
theorem steps_believedFault {record : U32} {machine : Machine Reg Csr}
    (entry : AtTrapEntry record machine)
    (untorn : Untorn believedFault
      (trapStores (machine.reg .t0) (machine.reg .t1) (machine.csr .mcause) (machine.csr .mepc)
        (machine.csr .mtval) (faultRecordAt record machine.mem))
      (faultRecordAt record machine.mem)) (count : Nat) :
    let believedAfter (count : Nat) :=
      believedFault (faultRecordAt record (steps obcTrapEntry count machine).mem)
    believedAfter count = none ∨ believedAfter count = believedAfter 0 ∨
      believedAfter count = believedAfter 33 := by
  intro believedAfter
  obtain ⟨stored, left⟩ := trapHandler_interrupted entry count
  have complete := trapHandler_complete entry (trapHandler_pc entry.pc)
  rcases Nat.lt_or_ge stored _ with proper | enough
  · rcases untorn stored proper with nothing | same
    · left
      exact (congrArg believedFault left).trans nothing
    · right; left
      exact (congrArg believedFault left).trans same
  · right; right
    rw [interrupted_complete enough, ← complete] at left
    exact congrArg believedFault left

/-- Three of the writers are never half-believed. The trap handler leaves the old magic in
place while it writes, and is half-believed wherever it finds one it does not already
agree with. -/
theorem writers_untorn {record : U32} {machine : Machine Reg Csr}
    (entry : AtTrapEntry record machine) :
    (Untorn (fun mem => believedFault (faultRecordAt record mem))
        (storesOf obcTrapEntry 33 machine) machine.mem ↔
      (faultRecordAt record machine.mem).inHandler ≠ 0 ∨
        (faultRecordAt record machine.mem).magic ≠ obcFaultMagic ∨
        AlreadyWritten (machine.csr .mcause) (machine.csr .mepc) (machine.csr .mtval)
          (faultRecordAt record machine.mem)) ∧
    (∀ cause before, Untorn believedFault (obcFaultResetWithCause cause) before) ∧
    (∀ reason state, Untorn believedReason
      ((enterSafeStores reason state).take (enterSafeThroughRecord reason)) state) ∧
    ∀ count inProgress before, Untorn believedBoot (bootRecordWrite count inProgress) before := by
  refine ⟨?_, obcFaultResetWithCause_untorn, enterSafeStores_untorn, bootRecordWrite_untorn⟩
  rw [untorn_view (trapHandler_stores entry) believedFault]
  exact trapStores_untorn _ _ _ _ _ _

def trapOverTrap : Machine Reg Csr :=
  { reg := fun _ => 0
    csr := fun csr => match csr with
      | .mscratch => 0x80000100
      | .mcause => 7
      | .mepc => 0x20400102
      | .mtval => 0x80020000
    mem := fun address => match (address - 0x80000100).toNat with
      | 0 => obcFaultMagic
      | 4 => obcFaultChecksumSeed ^^^ 5 ^^^ 0x20400100 ^^^ 0x80010000 ^^^ obcResetTrap
      | 8 => 5
      | 12 => 0x20400100
      | 16 => 0x80010000
      | 20 => obcResetTrap
      | _ => 0
    pc := 0 }

theorem flight_writers_untorn :
    let cold := { trapOverTrap with mem := fun _ => 0 }
    Untorn (fun mem => believedFault (faultRecordAt 0x80000100 mem))
      (storesOf obcTrapEntry 33 cold) cold.mem := by
  intro cold
  have entry : AtTrapEntry 0x80000100 cold := ⟨rfl, rfl⟩
  have unmarked : (faultRecordAt 0x80000100 cold.mem).magic ≠ obcFaultMagic := by decide
  exact (writers_untorn entry).1.mpr (.inr (.inl unmarked))

/-- With five of its stores made, the new cause and address read back beside the old
value, under a checksum that two pairs of words satisfy alike. -/
theorem trapOverTrap_halfBelieved :
    let after := interrupted (storesOf obcTrapEntry 33 trapOverTrap) 5 trapOverTrap.mem
    believedFault (faultRecordAt 0x80000100 trapOverTrap.mem) =
        some (.fault 5 0x20400100 0x80010000 obcResetTrap) ∧
      believedFault (faultRecordAt 0x80000100 after) =
        some (.fault 7 0x20400102 0x80010000 obcResetTrap) ∧
      ¬Untorn (fun mem => believedFault (faultRecordAt 0x80000100 mem))
        (storesOf obcTrapEntry 33 trapOverTrap) trapOverTrap.mem := by
  have before : believedFault (faultRecordAt 0x80000100 trapOverTrap.mem) =
      some (.fault 5 0x20400100 0x80010000 obcResetTrap) := by decide +kernel
  have mixed : believedFault (faultRecordAt 0x80000100
      (interrupted (storesOf obcTrapEntry 33 trapOverTrap) 5 trapOverTrap.mem)) =
        some (.fault 7 0x20400102 0x80010000 obcResetTrap) := by decide +kernel
  refine ⟨before, mixed, ?_⟩
  intro untorn
  have landed := untorn 5 (by decide +kernel)
  dsimp only at landed
  rw [before, mixed] at landed
  revert landed
  decide

end ObcZero
