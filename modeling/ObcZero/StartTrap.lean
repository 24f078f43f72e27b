import ObcZero.StartRun

/-! A trap while the reset entry runs: what the handler records of it, and what the next
boot reads. And the paint of the stack, read back. -/

namespace ObcZero

open RegisterMachine WordLoops

def recordOffsets : List U32 :=
  [obcFrMagic, obcFrChecksum, obcFrCause, obcFrEpc, obcFrTval, obcFrResetCause, obcFrInHandler,
   obcFrSaveT1, obcFrSaveT0]

def OutsideRecord (record address : U32) : Prop :=
  ∀ offset ∈ recordOffsets, address ≠ record + offset

/-- The handler, at any of its instructions, has written to the record alone. -/
structure RecordOnly (record : U32) (origin : U32 → U32) (machine : Machine Reg Csr) : Prop where
  entry : machine.pc = 0 → machine.csr .mscratch = record
  pointer : machine.pc ≠ 0 → machine.reg .t0 = record
  mem : ∀ address, OutsideRecord record address → machine.mem address = origin address

theorem recordOnly_kept (record : U32) (origin : U32 → U32) (machine : Machine Reg Csr)
    (instr : Instr Reg Csr) (fetched : obcTrapEntry[machine.pc]? = some instr)
    (only : RecordOnly record origin machine) : RecordOnly record origin (exec instr machine) := by
  obtain ⟨reg, csr, mem, pc⟩ := machine
  obtain ⟨entry, pointer, same⟩ := only
  have bound : pc < 33 := (List.getElem?_eq_some_iff.mp fetched).1
  dsimp only at entry pointer same fetched
  have store {offset value : U32} (listed : offset ∈ recordOffsets) (address : U32)
      (outside : OutsideRecord record address) :
      Function.update mem (record + offset) value address = origin address := by
    rw [Function.update_of_ne (outside offset listed)]
    exact same address outside
  interval_cases pc
  case «0» =>
    cases fetched
    exact ⟨fun zero => absurd zero (by simp [exec]), fun _ => by simp [exec, entry rfl], same⟩
  all_goals
    cases fetched
    have t0 := pointer (by decide)
    refine ⟨?_, ?_, ?_⟩
    · intro zero
      by_cases first : reg .t1 = 0#32 <;> simp [exec, obcResetNow, doubleFault, first] at zero
    · exact fun _ => by simpa [exec] using t0
    · first
        | exact same
        | simp only [exec, t0]
          exact store (by decide)

theorem handler_recordOnly {record : U32} {machine : Machine Reg Csr}
    (entry : AtTrapEntry record machine) (count : Nat) {address : U32}
    (outside : OutsideRecord record address) :
    (steps obcTrapEntry count machine).mem address = machine.mem address := by
  have start : RecordOnly record machine.mem machine :=
    ⟨fun _ => entry.mscratch, fun past => absurd entry.pc past, fun _ _ => rfl⟩
  exact (steps_invariant (recordOnly_kept record machine.mem) count start).mem address outside

theorem faultRecordAt_started (layout : Layout) (mem : U32 → U32) :
    faultRecordAt layout.obcFaultRecord (startedMemory layout mem) =
      { faultRecordAt layout.obcFaultRecord mem with inHandler := 0 } := by
  have order := layout.dataBss
  have bss := layout.bss
  have below := layout.bssRecord
  have room := layout.recordStack
  have limit := layout.stackBottom.isLt
  have apart {offset : U32} (inside : offset.toNat ≤ 32) :
      startedMemory layout mem (layout.obcFaultRecord + offset) =
        if layout.obcFaultRecord + offset = layout.obcFaultRecord + obcFrInHandler then 0
        else mem (layout.obcFaultRecord + offset) := by
    have place : (layout.obcFaultRecord + offset).toNat =
        layout.obcFaultRecord.toNat + offset.toNat := by
      rw [BitVec.toNat_add]
      omega
    rw [startedMemory, if_neg, if_neg, if_neg]
    · intro within
      have range := data_range within
      omega
    · intro within
      have range := bss_range within
      omega
    · intro within
      have range := stack_range within
      omega
  have first : startedMemory layout mem layout.obcFaultRecord = mem layout.obcFaultRecord := by
    have magic := @apart 0 (by decide)
    simpa [obcFrInHandler] using magic
  simp only [faultRecordAt, ObcFaultRecord.mk.injEq]
  refine ⟨first, ?_, ?_, ?_, ?_, ?_, ?_, ?_, ?_⟩
  all_goals
    rw [apart (by decide)]
    simp [obcFrInHandler]

theorem next_boot_finds (layout : Layout) {trapped : Machine Reg Csr} {second : BootMachine}
    (entry : AtTrapEntry layout.obcFaultRecord trapped)
    (cleared : (faultRecordAt layout.obcFaultRecord trapped.mem).inHandler = 0)
    (again : AtReset second) (warm : second.mem = (steps obcTrapEntry 33 trapped).mem) :
    let found := (started layout layout.startSteps second).mem
    let record := faultRecordAt layout.obcFaultRecord found
    obcFaultValidate record = (.ok, obcResetTrap) ∧ record.cause = trapped.csr .mcause ∧
      record.epc = trapped.csr .mepc ∧ record.tval = trapped.csr .mtval ∧
      ∀ address, ¬layout.Prepared address → OutsideRecord layout.obcFaultRecord address →
        found address = trapped.mem address := by
  obtain ⟨authentic, cause, epc, tval⟩ :=
    trapHandler_validates entry cleared (trapHandler_pc entry.pc)
  have settled := (started_settled layout again).2.mem
  have read : faultRecordAt layout.obcFaultRecord (started layout layout.startSteps second).mem =
      { faultRecordAt layout.obcFaultRecord (steps obcTrapEntry 33 trapped).mem with
        inHandler := 0 } := by
    rw [settled, faultRecordAt_started, warm]
  have handled := @handler_recordOnly layout.obcFaultRecord trapped entry 33
  generalize faultRecordAt layout.obcFaultRecord (steps obcTrapEntry 33 trapped).mem = left at *
  generalize (steps obcTrapEntry 33 trapped).mem = after at warm handled
  have unflagged : obcFaultValidate { left with inHandler := 0 } = obcFaultValidate left := rfl
  intro found record
  refine ⟨?_, ?_, ?_, ?_, ?_⟩
  · exact (congrArg obcFaultValidate read).trans (unflagged.trans authentic)
  · exact (congrArg ObcFaultRecord.cause read).trans cause
  · exact (congrArg ObcFaultRecord.epc read).trans epc
  · exact (congrArg ObcFaultRecord.tval read).trans tval
  · intro address foreign outside
    have later := (start_prepares layout again).2.2 layout.startSteps (Nat.le_refl _) address foreign
    exact later.trans ((congrFun warm address).trans (handled outside))

/-- The machine after a trap taken while the entry runs, wherever its vector points then. -/
def startTrapped (layout : Layout) (count : Nat) (cause epc tval : U32) (machine : BootMachine) :
    Machine Reg Csr :=
  let struck := started layout count machine
  { takeTrap cause epc tval (handlerView struck) with
    pc := vectorTarget layout (struck.csr .mtvec) }

theorem Armed.trapped {layout : Layout} {origin : U32 → U32} {count : Nat} {machine : BootMachine}
    (armed : Armed layout origin (started layout count machine)) (cause epc tval : U32) :
    startTrapped layout count cause epc tval machine =
      takeTrap cause epc tval (handlerView (started layout count machine)) := by
  simp only [startTrapped, vectorTarget, armed.mtvec, ↓reduceIte]
  rfl

/-- A trap at any instruction of the entry from the installed vector on: the handler runs to
the reset, and `obc_main` of the next boot finds an authentic record of that trap, whatever
memory held at first; all that neither the entry nor the handler writes has survived both. -/
theorem start_trap_reported (layout : Layout) {first second : BootMachine} (reset : AtReset first)
    {count : Nat} (past : 7 ≤ count) (inside : count ≤ layout.startSteps) (cause epc tval : U32)
    (again : AtReset second)
    (warm : second.mem =
      (steps obcTrapEntry 33 (startTrapped layout count cause epc tval first)).mem) :
    let found := (started layout layout.startSteps second).mem
    let record := faultRecordAt layout.obcFaultRecord found
    (steps obcTrapEntry 33 (startTrapped layout count cause epc tval first)).pc = obcResetNow ∧
      obcFaultValidate record = (.ok, obcResetTrap) ∧ record.cause = cause ∧ record.epc = epc ∧
      record.tval = tval ∧
      ∀ address, ¬layout.Prepared address → OutsideRecord layout.obcFaultRecord address →
        found address = first.mem address := by
  have armed := started_armed layout reset past inside
  have vectored := armed.trapped cause epc tval
  have entry : AtTrapEntry layout.obcFaultRecord (startTrapped layout count cause epc tval first) := by
    rw [vectored]
    exact takeTrap_entry armed.mscratch cause epc tval
  have cleared : (faultRecordAt layout.obcFaultRecord
      (startTrapped layout count cause epc tval first).mem).inHandler = 0 := armed.sound.cleared
  obtain ⟨authentic, causeKept, epcKept, tvalKept, kept⟩ :=
    next_boot_finds layout entry cleared again warm
  refine ⟨trapHandler_pc entry.pc, authentic, causeKept.trans ?_, epcKept.trans ?_,
    tvalKept.trans ?_, ?_⟩
  · simp [startTrapped, takeTrap]
  · simp [startTrapped, takeTrap]
  · simp [startTrapped, takeTrap]
  · intro address foreign outside
    exact (kept address foreign outside).trans (armed.sound.kept address foreign)

def warmMachine (mem : U32 → U32) : BootMachine := { noisyMachine with mem }

/-- A trap at the first store of the loop over `.bss`. -/
theorem start_trap_reported_small :
    obcFaultValidate (faultRecordAt smallLayout.obcFaultRecord
      (started smallLayout smallLayout.startSteps (warmMachine
        (steps obcTrapEntry 33
          (startTrapped smallLayout 22 7 0x20400054 0x80000104 noisyMachine)).mem)).mem) =
      (.ok, obcResetTrap) := by
  have again (mem : U32 → U32) : AtReset (warmMachine mem) := ⟨rfl, rfl⟩
  have warm (mem : U32 → U32) : (warmMachine mem).mem = mem := rfl
  exact (start_trap_reported smallLayout (⟨rfl, rfl⟩ : AtReset noisyMachine) (by decide) (by decide)
    7 0x20400054 0x80000104 (again _) (warm _)).2.1

theorem paintedTo_word {mem : U32 → U32} {bottom : U32} {painted count index : Nat}
    (fits : painted ≤ count)
    (paint : ∀ place < painted, mem (word bottom (index + place)) = stackPaint)
    (stops : painted < count → mem (word bottom (index + painted)) ≠ stackPaint) :
    paintedTo mem count (word bottom index) = word bottom (index + painted) := by
  induction painted generalizing count index with
  | zero =>
      cases count with
      | zero => rfl
      | succ count => exact if_neg (stops (Nat.succ_pos count))
  | succ painted ih =>
      obtain ⟨count, rfl⟩ := Nat.exists_eq_add_of_le' (Nat.lt_of_lt_of_le (Nat.succ_pos _) fits)
      have shift (place : Nat) : index + 1 + place = index + (place + 1) := by omega
      have first : mem (word bottom index) = stackPaint := paint 0 (Nat.succ_pos painted)
      rw [paintedTo, if_pos first, word_succ, ← shift painted]
      refine ih (Nat.le_of_succ_le_succ fits) ?_ ?_
      · intro place within
        rw [shift]
        exact paint (place + 1) (by omega)
      · intro more
        rw [shift]
        exact stops (by omega)

/-- The peak that the banner reports is the depth to which the stack has been used: where the
words below it are as the entry left them, and the last word used does not hold the paint. -/
theorem stackHighWater_used (layout : Layout) {machine : BootMachine} (reset : AtReset machine)
    {mem : U32 → U32} {used : Nat} (within : used ≤ layout.stackWords)
    (unused : ∀ index < layout.stackWords - used,
      mem (word layout.stackBottom index) =
        (started layout layout.startSteps machine).mem (word layout.stackBottom index))
    (deepest : 0 < used →
      mem (word layout.stackBottom (layout.stackWords - used)) ≠ stackPaint) :
    (stackHighWater layout mem).toNat = 4 * used := by
  have limit := layout.stackLimit
  have bound := layout.stackTop.isLt
  have settled := (started_settled layout reset).2.mem
  have paint : ∀ place < layout.stackWords - used,
      mem (word layout.stackBottom (0 + place)) = stackPaint := by
    intro place inside
    have place_within : Within layout.stackBottom layout.stackWords
        (word layout.stackBottom place) := by
      have offset : word layout.stackBottom place - layout.stackBottom =
          BitVec.ofNat 32 (4 * place) := by
        rw [word]
        bv_omega
      rw [Within, offset, BitVec.toNat_ofNat]
      omega
    rw [Nat.zero_add, unused place inside, settled, startedMemory, if_pos place_within]
  have walked := @paintedTo_word mem layout.stackBottom (layout.stackWords - used) layout.stackWords 0
    (by omega) paint fun more => by
      rw [Nat.zero_add]
      exact deepest (by omega)
  rw [word_zero, Nat.zero_add] at walked
  have place := @toNat_word layout.stackBottom (layout.stackWords - used) (by omega)
  rw [stackHighWater, walked, BitVec.toNat_sub, place]
  omega

theorem stackHighWater_used_small :
    (stackHighWater smallLayout (Function.update
      (started smallLayout smallLayout.startSteps noisyMachine).mem 0x80000404 5)).toNat = 4 * 1 := by
  refine stackHighWater_used smallLayout (⟨rfl, rfl⟩ : AtReset noisyMachine) (by decide) ?_ ?_
  · intro index below
    have words : smallLayout.stackWords = 2 := by decide
    obtain rfl : index = 0 := by omega
    exact Function.update_of_ne (by decide) _ _
  · intro _
    have deepest : word smallLayout.stackBottom (smallLayout.stackWords - 1) = 0x80000404 := by decide
    rw [deepest, Function.update_self]
    decide

end ObcZero
