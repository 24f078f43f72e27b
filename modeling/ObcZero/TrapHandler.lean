import ObcZero.FaultCore

/-! The trap handler run instruction by instruction, and the record its stores leave. -/

namespace ObcZero

open RegisterMachine StoreSequence

/-- The handler is entered by hardware alone, with the record's address in `mscratch`. -/
structure AtTrapEntry (record : U32) (machine : Machine Reg Csr) : Prop where
  pc : machine.pc = 0
  mscratch : machine.csr .mscratch = record

theorem takeTrap_entry {record : U32} {machine : Machine Reg Csr}
    (mscratch : machine.csr .mscratch = record) (cause epc tval : U32) :
    AtTrapEntry record (takeTrap cause epc tval machine) := by
  constructor
  · rfl
  · simpa [takeTrap] using mscratch

section

variable (reg : Reg → U32) (csr : Csr → U32) (mem : U32 → U32)

theorem prologue_steps :
    steps obcTrapEntry 6 { reg := reg, csr := csr, mem := mem, pc := 0 } =
      { reg := Function.update (Function.update (Function.update reg .t0 (csr .mscratch)) .t1
          (reg .t0)) .t1
          (Function.update (Function.update mem (csr .mscratch + obcFrSaveT1) (reg .t1))
            (csr .mscratch + obcFrSaveT0) (reg .t0) (csr .mscratch + obcFrInHandler))
        csr := Function.update (Function.update csr .mscratch (reg .t0)) .mscratch (csr .mscratch)
        mem := Function.update (Function.update mem (csr .mscratch + obcFrSaveT1) (reg .t1))
          (csr .mscratch + obcFrSaveT0) (reg .t0)
        pc := 6 } := rfl

theorem prologue_stores :
    storesOf obcTrapEntry 6 { reg := reg, csr := csr, mem := mem, pc := 0 } =
      [fun mem => Function.update mem (csr .mscratch + obcFrSaveT1) (reg .t1),
       fun mem => Function.update mem (csr .mscratch + obcFrSaveT0) (reg .t0)] := rfl

theorem check_stores (count : Nat) :
    storesOf obcTrapEntry (count + 1) { reg := reg, csr := csr, mem := mem, pc := 6 } =
      storesOf obcTrapEntry count
        { reg := reg, csr := csr, mem := mem, pc := if reg .t1 = 0 then 7 else doubleFault } := rfl

theorem check_steps (count : Nat) :
    steps obcTrapEntry (count + 1) { reg := reg, csr := csr, mem := mem, pc := 6 } =
      steps obcTrapEntry count
        { reg := reg, csr := csr, mem := mem, pc := if reg .t1 = 0 then 7 else doubleFault } := rfl

theorem commit_stores :
    storesOf obcTrapEntry 26 { reg := reg, csr := csr, mem := mem, pc := 7 } =
      [fun mem => Function.update mem (reg .t0 + obcFrInHandler) 1,
       fun mem => Function.update mem (reg .t0 + obcFrCause) (csr .mcause),
       fun mem => Function.update mem (reg .t0 + obcFrEpc) (csr .mepc),
       fun mem => Function.update mem (reg .t0 + obcFrTval) (csr .mtval),
       fun mem => Function.update mem (reg .t0 + obcFrResetCause) obcResetTrap,
       fun mem => Function.update mem (reg .t0 + obcFrChecksum)
         (obcFaultChecksumSeed ^^^ csr .mcause ^^^ csr .mepc ^^^ csr .mtval ^^^ obcResetTrap),
       fun mem => Function.update mem (reg .t0 + obcFrMagic) obcFaultMagic] := by
  simp [storesOf, step, exec, obcTrapEntry, Instr.stores, obcResetNow, obcFrCause, obcFrEpc,
    obcFrTval, obcFrResetCause]

theorem doubleFault_stores :
    storesOf obcTrapEntry 26 { reg := reg, csr := csr, mem := mem, pc := doubleFault } =
      [fun mem => Function.update mem (reg .t0 + obcFrMagic) obcFaultMagicDouble] := by
  simp [storesOf, step, exec, obcTrapEntry, Instr.stores, obcResetNow, doubleFault]

end

/-- The handler's stores in memory are its stores in the record, one by one. -/
theorem trapHandler_stores {record : U32} {machine : Machine Reg Csr}
    (entry : AtTrapEntry record machine) :
    List.Forall₂ (fun store seen => ∀ mem, faultRecordAt record (store mem) =
        seen (faultRecordAt record mem))
      (storesOf obcTrapEntry 33 machine)
      (trapStores (machine.reg .t0) (machine.reg .t1) (machine.csr .mcause) (machine.csr .mepc)
        (machine.csr .mtval) (faultRecordAt record machine.mem)) := by
  obtain ⟨reg, csr, mem, pc⟩ := machine
  obtain ⟨rfl, rfl⟩ := entry
  have flag : Function.update (Function.update mem (csr .mscratch + obcFrSaveT1) (reg .t1))
      (csr .mscratch + obcFrSaveT0) (reg .t0) (csr .mscratch + obcFrInHandler) =
        (faultRecordAt (csr .mscratch) mem).inHandler := by
    simp [faultRecordAt, obcFrSaveT1, obcFrSaveT0, obcFrInHandler]
  dsimp only
  rw [storesOf_add obcTrapEntry 6 27, prologue_stores, prologue_steps, flag, check_stores]
  by_cases first : (faultRecordAt (csr .mscratch) mem).inHandler = 0
  · simp only [trapStores, first, Function.update_self, ne_eq, not_true_eq_false, ↓reduceIte,
      commit_stores]
    simp [faultRecordAt, obcFrSaveT1, obcFrSaveT0, obcFrInHandler, obcFrCause, obcFrEpc,
      obcFrTval, obcFrResetCause, obcFrChecksum, obcFrMagic]
  · simp only [trapStores, first, Function.update_self, ne_eq, not_false_eq_true, ↓reduceIte,
      doubleFault_stores]
    simp [faultRecordAt, obcFrSaveT1, obcFrSaveT0, obcFrMagic]

theorem commit_pc (reg : Reg → U32) (csr : Csr → U32) (mem : U32 → U32) :
    (steps obcTrapEntry 26 { reg := reg, csr := csr, mem := mem, pc := 7 }).pc = obcResetNow := by
  simp [steps, step, exec, obcTrapEntry, obcResetNow]

theorem doubleFault_pc (reg : Reg → U32) (csr : Csr → U32) (mem : U32 → U32) :
    (steps obcTrapEntry 26 { reg := reg, csr := csr, mem := mem, pc := doubleFault }).pc =
      obcResetNow := by
  simp [steps, step, exec, obcTrapEntry, obcResetNow, doubleFault]

theorem trapHandler_pc {machine : Machine Reg Csr} (entry : machine.pc = 0) :
    (steps obcTrapEntry 33 machine).pc = obcResetNow := by
  obtain ⟨reg, csr, mem, pc⟩ := machine
  subst entry
  rw [steps_add obcTrapEntry 6 27, prologue_steps, check_steps]
  split
  · exact commit_pc _ _ _
  · exact doubleFault_pc _ _ _

theorem reset_halted {machine : Machine Reg Csr} (ended : machine.pc = obcResetNow) :
    obcTrapEntry.length ≤ machine.pc := by
  rw [ended]
  decide

/-- A first entry leaves an authentic record of its trap. -/
theorem trapStores_validates (t0 t1 cause epc tval : U32) {record : ObcFaultRecord}
    (first : record.inHandler = 0) :
    let left := perform (trapStores t0 t1 cause epc tval record) record
    obcFaultValidate left = (.ok, obcResetTrap) ∧ left.cause = cause ∧ left.epc = epc ∧
      left.tval = tval := by
  rw [trapStores, if_neg (by simp [first])]
  refine ⟨?_, rfl, rfl, rfl⟩
  simp [perform, obcFaultValidate, obcFaultChecksum, obcFaultMagic, obcFaultMagicDouble]

theorem trapStores_nested (t0 t1 cause epc tval : U32) {record : ObcFaultRecord}
    (nested : record.inHandler ≠ 0) :
    obcFaultValidate (perform (trapStores t0 t1 cause epc tval record) record) =
      (.ok, obcResetDoubleFault) := by
  rw [trapStores, if_pos nested]
  simp [perform, obcFaultValidate]

section

variable {record : U32} {machine : Machine Reg Csr}

/-- After any number of its instructions, the record is as the first few stores of the
handler have left it. -/
theorem trapHandler_interrupted (entry : AtTrapEntry record machine) (count : Nat) :
    ∃ stored, faultRecordAt record (steps obcTrapEntry count machine).mem =
      interrupted
        (trapStores (machine.reg .t0) (machine.reg .t1) (machine.csr .mcause) (machine.csr .mepc)
          (machine.csr .mtval) (faultRecordAt record machine.mem))
        stored (faultRecordAt record machine.mem) := by
  rcases Nat.le_total count 33 with early | late
  · obtain ⟨stored, left⟩ := steps_interrupted obcTrapEntry early machine
    refine ⟨stored, ?_⟩
    rw [left]
    exact interrupted_view (faultRecordAt record) (trapHandler_stores entry) stored machine.mem
  · obtain ⟨stored, left⟩ := steps_interrupted obcTrapEntry (Nat.le_refl 33) machine
    refine ⟨stored, ?_⟩
    rw [steps_of_halted (reset_halted (trapHandler_pc entry.pc)) late, left]
    exact interrupted_view (faultRecordAt record) (trapHandler_stores entry) stored machine.mem

theorem trapHandler_complete (entry : AtTrapEntry record machine) {count : Nat}
    (ended : (steps obcTrapEntry count machine).pc = obcResetNow) :
    faultRecordAt record (steps obcTrapEntry count machine).mem =
      perform
        (trapStores (machine.reg .t0) (machine.reg .t1) (machine.csr .mcause) (machine.csr .mepc)
          (machine.csr .mtval) (faultRecordAt record machine.mem))
        (faultRecordAt record machine.mem) := by
  have same : steps obcTrapEntry count machine = steps obcTrapEntry 33 machine := by
    rcases Nat.le_total count 33 with early | late
    · exact (steps_of_halted (reset_halted ended) early).symm
    · exact steps_of_halted (reset_halted (trapHandler_pc entry.pc)) late
  have stores := trapHandler_stores entry
  have shown := interrupted_view (faultRecordAt record) stores
    (storesOf obcTrapEntry 33 machine).length machine.mem
  rw [interrupted_complete (Nat.le_refl _), interrupted_complete (Nat.le_of_eq stores.length_eq.symm)]
    at shown
  rw [same, steps_mem, shown]

end

structure InHandler (record : U32) (machine : Machine Reg Csr) : Prop where
  mscratch : machine.csr .mscratch = record
  t0 : machine.reg .t0 = record
  flag : machine.mem (record + obcFrInHandler) ≠ 0
  past : obcTrapFlagSet ≤ machine.pc

theorem inHandler_kept (record : U32) (machine : Machine Reg Csr) (instr : Instr Reg Csr)
    (fetched : obcTrapEntry[machine.pc]? = some instr) (inside : InHandler record machine) :
    InHandler record (exec instr machine) := by
  obtain ⟨reg, csr, mem, pc⟩ := machine
  obtain ⟨mscratch, t0, flag, past⟩ := inside
  have bound : pc < 33 := (List.getElem?_eq_some_iff.mp fetched).1
  have lower : 9 ≤ pc := past
  dsimp only at mscratch t0 flag fetched
  clear past
  interval_cases pc
  all_goals
    cases fetched
    constructor
    · simpa [exec] using mscratch
    · simpa [exec] using t0
    · simpa [exec, t0, obcFrInHandler, obcFrCause, obcFrEpc, obcFrTval, obcFrResetCause,
        obcFrChecksum, obcFrMagic] using flag
    · simp [exec, obcTrapFlagSet, obcResetNow]

theorem trapHandler_flagged {record : U32} {machine : Machine Reg Csr}
    (entry : AtTrapEntry record machine)
    (first : (faultRecordAt record machine.mem).inHandler = 0) {count : Nat}
    (flagged : obcTrapFlagSet ≤ count) : InHandler record (steps obcTrapEntry count machine) := by
  obtain ⟨more, rfl⟩ := Nat.exists_eq_add_of_le flagged
  rw [steps_add]
  refine steps_invariant (inHandler_kept record) more ?_
  obtain ⟨reg, csr, mem, pc⟩ := machine
  obtain ⟨rfl, rfl⟩ := entry
  have clear : mem (csr .mscratch + 24) = 0 := first
  have flag : Function.update (Function.update mem (csr .mscratch + obcFrSaveT1) (reg .t1))
      (csr .mscratch + obcFrSaveT0) (reg .t0) (csr .mscratch + obcFrInHandler) = 0 := by
    simpa [obcFrSaveT1, obcFrSaveT0, obcFrInHandler] using clear
  rw [show obcTrapFlagSet = 6 + 3 from rfl, steps_add, prologue_steps, flag, check_steps,
    if_pos (Function.update_self _ _ _)]
  constructor
  · simp [steps, step, exec, obcTrapEntry]
  · simp [steps, step, exec, obcTrapEntry]
  · simp [steps, step, exec, obcTrapEntry]
  · simp [steps, step, exec, obcTrapEntry, obcTrapFlagSet]

def takeSecondTrap (reg : Reg → U32) (cause epc tval : U32) (machine : Machine Reg Csr) :
    Machine Reg Csr :=
  takeTrap cause epc tval { machine with reg := reg }

theorem trapHandler_validates {record : U32} {machine : Machine Reg Csr}
    (entry : AtTrapEntry record machine)
    (first : (faultRecordAt record machine.mem).inHandler = 0) {count : Nat}
    (ended : (steps obcTrapEntry count machine).pc = obcResetNow) :
    let left := faultRecordAt record (steps obcTrapEntry count machine).mem
    obcFaultValidate left = (.ok, obcResetTrap) ∧ left.cause = machine.csr .mcause ∧
      left.epc = machine.csr .mepc ∧ left.tval = machine.csr .mtval := by
  rw [trapHandler_complete entry ended]
  exact trapStores_validates _ _ _ _ _ first

theorem secondTrap_validates {record : U32} {machine : Machine Reg Csr}
    (entry : AtTrapEntry record machine)
    (first : (faultRecordAt record machine.mem).inHandler = 0) {count : Nat}
    (flagged : obcTrapFlagSet ≤ count) (reg : Reg → U32) (cause epc tval : U32) {later : Nat}
    (ended : (steps obcTrapEntry later
      (takeSecondTrap reg cause epc tval (steps obcTrapEntry count machine))).pc = obcResetNow) :
    obcFaultValidate (faultRecordAt record (steps obcTrapEntry later
      (takeSecondTrap reg cause epc tval (steps obcTrapEntry count machine))).mem) =
        (.ok, obcResetDoubleFault) := by
  have inside := trapHandler_flagged entry first flagged
  have again : AtTrapEntry record
      (takeSecondTrap reg cause epc tval (steps obcTrapEntry count machine)) := by
    have kept : ({ steps obcTrapEntry count machine with reg := reg } : Machine Reg Csr).csr
        .mscratch = record := inside.mscratch
    exact takeTrap_entry kept cause epc tval
  have flag : (faultRecordAt record
      (takeSecondTrap reg cause epc tval (steps obcTrapEntry count machine)).mem).inHandler ≠ 0 :=
    inside.flag
  rw [trapHandler_complete again ended]
  exact trapStores_nested _ _ _ _ _ flag

end ObcZero
