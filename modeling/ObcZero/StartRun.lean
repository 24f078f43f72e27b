import ObcZero.StartCore

/-! The reset entry run from end to end: the memory and the registers that `obc_main` finds,
and what a trap or a reset finds before. -/

namespace ObcZero

open RegisterMachine WordLoops

section

variable (layout : Layout)

theorem Layout.dataLimit :
    layout.dataStart.toNat + 4 * layout.dataWords = layout.dataEnd.toNat := by
  have whole := Nat.mul_div_cancel' layout.dataWhole
  have order := layout.data
  rw [Layout.dataWords]
  omega

theorem Layout.bssLimit : layout.bssStart.toNat + 4 * layout.bssWords = layout.bssEnd.toNat := by
  have whole := Nat.mul_div_cancel' layout.bssWhole
  have order := layout.bss
  rw [Layout.bssWords]
  omega

theorem Layout.stackLimit :
    layout.stackBottom.toNat + 4 * layout.stackWords = layout.stackTop.toNat := by
  have whole := Nat.mul_div_cancel' layout.stackWhole
  have order := layout.stack
  rw [Layout.stackWords]
  omega

end

section

variable {layout : Layout}

theorem record_toNat :
    (layout.obcFaultRecord + obcFrInHandler).toNat = layout.obcFaultRecord.toNat + 24 := by
  have room := layout.recordStack
  have limit := layout.stackBottom.isLt
  rw [BitVec.toNat_add, show obcFrInHandler.toNat = 24 from rfl]
  omega

theorem data_range {address : U32} (inside : Within layout.dataStart layout.dataWords address) :
    layout.dataStart.toNat ≤ address.toNat ∧ address.toNat < layout.dataEnd.toNat := by
  have limit := layout.dataLimit
  have bound := layout.dataEnd.isLt
  rw [← limit]
  exact inside.range (by omega)

theorem bss_range {address : U32} (inside : Within layout.bssStart layout.bssWords address) :
    layout.bssStart.toNat ≤ address.toNat ∧ address.toNat < layout.bssEnd.toNat := by
  have limit := layout.bssLimit
  have bound := layout.bssEnd.isLt
  rw [← limit]
  exact inside.range (by omega)

theorem stack_range {address : U32} (inside : Within layout.stackBottom layout.stackWords address) :
    layout.stackBottom.toNat ≤ address.toNat ∧ address.toNat < layout.stackTop.toNat := by
  have limit := layout.stackLimit
  have bound := layout.stackTop.isLt
  rw [← limit]
  exact inside.range (by omega)

/-- The flag that the entry clears is in none of the blocks that it fills. -/
theorem record_apart :
    ¬Within layout.dataStart layout.dataWords (layout.obcFaultRecord + obcFrInHandler) ∧
      ¬Within layout.bssStart layout.bssWords (layout.obcFaultRecord + obcFrInHandler) ∧
      ¬Within layout.stackBottom layout.stackWords (layout.obcFaultRecord + obcFrInHandler) := by
  have flag := @record_toNat layout
  have order := layout.dataBss
  have bss := layout.bss
  have record := layout.bssRecord
  have room := layout.recordStack
  refine ⟨fun inside => ?_, fun inside => ?_, fun inside => ?_⟩
  · have range := data_range inside
    omega
  · have range := bss_range inside
    omega
  · have range := stack_range inside
    omega

/-- The load image of `.data` is outside memory that the entry writes. -/
theorem flash_toNat {index : Nat} (inside : index < layout.dataWords) :
    (word layout.dataLma index).toNat < 0x80000000 := by
  have flash := layout.flash
  have limit := layout.dataLimit
  rw [toNat_word (by omega)]
  omega

/-- What no moment of the entry changes, from the one on at which the flag is cleared. -/
structure Sound (layout : Layout) (origin mem : U32 → U32) : Prop where
  cleared : mem (layout.obcFaultRecord + obcFrInHandler) = 0
  kept : ∀ address, ¬layout.Prepared address → mem address = origin address

/-- A trap from here on is recorded, and nothing has been touched that is not the entry's. -/
structure Armed (layout : Layout) (origin : U32 → U32) (machine : BootMachine) : Prop where
  mscratch : machine.csr .mscratch = layout.obcFaultRecord
  mtvec : machine.csr .mtvec = layout.obcTrapEntry
  sound : Sound layout origin machine.mem

/-- The registers as the first instructions leave them for good. -/
structure Settled (layout : Layout) (mem : U32 → U32) (machine : BootMachine) : Prop where
  mem : machine.mem = mem
  zero : machine.reg .zero = 0
  gp : machine.reg .gp = layout.globalPointer
  sp : machine.reg .sp = layout.stackTop
  mscratch : machine.csr .mscratch = layout.obcFaultRecord
  mtvec : machine.csr .mtvec = layout.obcTrapEntry
  mie : machine.csr .mie = 0
  mip : machine.csr .mip = 0

theorem Settled.armed {origin mem : U32 → U32} {machine : BootMachine}
    (settled : Settled layout mem machine) (sound : Sound layout origin mem) :
    Armed layout origin machine :=
  ⟨settled.mscratch, settled.mtvec, settled.mem ▸ sound⟩

/-- A block of the entry's that leaves the flag alone. -/
structure OwnBlock (layout : Layout) (first : U32) (count : Nat) : Prop where
  prepared : ∀ address, Within first count address → layout.Prepared address
  apart : ¬Within first count (layout.obcFaultRecord + obcFrInHandler)

theorem Sound.overlaid {origin mem content : U32 → U32} {first : U32} {count : Nat}
    (sound : Sound layout origin mem) (own : OwnBlock layout first count) :
    Sound layout origin (overlaid first count content mem) := by
  constructor
  · rw [overlaid_outside own.apart]
    exact sound.cleared
  · intro address foreign
    rw [overlaid_outside (mt (own.prepared address) foreign)]
    exact sound.kept address foreign

theorem Settled.armed_outside {origin mem : U32 → U32} {first : U32} {count : Nat}
    {start machine : BootMachine} (settled : Settled layout mem start)
    (sound : Sound layout origin mem) (own : OwnBlock layout first count)
    (outside : Outside first count start machine) : Armed layout origin machine := by
  refine ⟨?_, ?_, ?_, ?_⟩
  · rw [outside.csr]
    exact settled.mscratch
  · rw [outside.csr]
    exact settled.mtvec
  · rw [outside.mem _ own.apart, settled.mem]
    exact sound.cleared
  · intro address foreign
    rw [outside.mem _ (mt (own.prepared address) foreign), settled.mem]
    exact sound.kept address foreign

theorem ownData (layout : Layout) : OwnBlock layout layout.dataStart layout.dataWords :=
  ⟨fun _ => Or.inl, record_apart.1⟩

theorem ownBss (layout : Layout) : OwnBlock layout layout.bssStart layout.bssWords :=
  ⟨fun _ inside => Or.inr (Or.inl inside), record_apart.2.1⟩

theorem ownStack (layout : Layout) : OwnBlock layout layout.stackBottom layout.stackWords :=
  ⟨fun _ inside => Or.inr (Or.inr (Or.inl inside)), record_apart.2.2⟩

/-- Memory after each part of the entry. -/
def clearedMemory (layout : Layout) (origin : U32 → U32) : U32 → U32 :=
  Function.update origin (layout.obcFaultRecord + obcFrInHandler) 0

def copiedMemory (layout : Layout) (origin : U32 → U32) : U32 → U32 :=
  overlaid layout.dataStart layout.dataWords
    (copyOf layout.dataLma layout.dataStart (clearedMemory layout origin))
    (clearedMemory layout origin)

def zeroedMemory (layout : Layout) (origin : U32 → U32) : U32 → U32 :=
  overlaid layout.bssStart layout.bssWords (fun _ => 0) (copiedMemory layout origin)

def paintedMemory (layout : Layout) (origin : U32 → U32) : U32 → U32 :=
  overlaid layout.stackBottom layout.stackWords (fun _ => stackPaint) (zeroedMemory layout origin)

section

variable (layout : Layout) (origin : U32 → U32)

theorem sound_cleared : Sound layout origin (clearedMemory layout origin) := by
  constructor
  · exact Function.update_self _ _ _
  · intro address foreign
    exact Function.update_of_ne (fun same => foreign (Or.inr (Or.inr (Or.inr same)))) _ _

theorem sound_copied : Sound layout origin (copiedMemory layout origin) :=
  (sound_cleared layout origin).overlaid (ownData layout)

theorem sound_zeroed : Sound layout origin (zeroedMemory layout origin) :=
  (sound_copied layout origin).overlaid (ownBss layout)

theorem sound_painted : Sound layout origin (paintedMemory layout origin) :=
  (sound_zeroed layout origin).overlaid (ownStack layout)

theorem paintedMemory_eq : paintedMemory layout origin = startedMemory layout origin := by
  funext address
  rw [paintedMemory, zeroedMemory, copiedMemory, startedMemory]
  simp only [overlaid]
  split
  · rfl
  split
  · rfl
  split
  · rename_i inside
    have below : (layout.dataLma + (address - layout.dataStart)).toNat < 0x80000000 := by
      have index := Nat.div_lt_of_lt_mul inside.2
      have aligned := inside.1
      have place : layout.dataLma + (address - layout.dataStart) =
          word layout.dataLma ((address - layout.dataStart).toNat / 4) := by
        rw [word, Nat.mul_div_cancel' (Nat.dvd_of_mod_eq_zero aligned), BitVec.ofNat_toNat,
          BitVec.setWidth_eq]
      rw [place]
      exact flash_toNat index
    have apart : layout.dataLma + (address - layout.dataStart) ≠
        layout.obcFaultRecord + obcFrInHandler := by
      intro same
      have flag := @record_toNat layout
      have order := layout.ram
      have data := layout.data
      have bss := layout.dataBss
      have zeroed := layout.bss
      have record := layout.bssRecord
      rw [← same] at flag
      omega
    exact Function.update_of_ne apart _ _
  · rw [clearedMemory, Function.update_apply]

end

/-- From the first instruction to the installed vector. -/
theorem vector_installed (layout : Layout) {machine : BootMachine} (reset : AtReset machine) :
    let armed := started layout 7 machine
    armed.pc = 7 ∧ armed.mem = clearedMemory layout machine.mem ∧ armed.reg .zero = 0 ∧
      armed.reg .gp = layout.globalPointer ∧ armed.reg .sp = layout.stackTop ∧
      armed.csr .mscratch = layout.obcFaultRecord ∧ armed.csr .mtvec = layout.obcTrapEntry := by
  obtain ⟨reg, csr, mem, pc⟩ := machine
  obtain ⟨rfl, zero⟩ := reset
  dsimp only at zero
  simp [started, loopStep, startText, execLoop, exec, zero, clearedMemory]

/-- Before that, nothing but the flag is written. -/
theorem kept_early (layout : Layout) {machine : BootMachine} (reset : AtReset machine) {count : Nat}
    (early : count < 7) {address : U32} (foreign : ¬layout.Prepared address) :
    (started layout count machine).mem address = machine.mem address := by
  obtain ⟨reg, csr, mem, pc⟩ := machine
  obtain ⟨rfl, zero⟩ := reset
  have other : address ≠ layout.obcFaultRecord + obcFrInHandler :=
    fun same => foreign (Or.inr (Or.inr (Or.inr same)))
  interval_cases count
  all_goals simp [started, loopStep, startText, execLoop, exec, other]

/-- The machine once the vector is installed. -/
structure Vectored (layout : Layout) (mem : U32 → U32) (machine : BootMachine) : Prop where
  mem : machine.mem = mem
  zero : machine.reg .zero = 0
  gp : machine.reg .gp = layout.globalPointer
  sp : machine.reg .sp = layout.stackTop
  mscratch : machine.csr .mscratch = layout.obcFaultRecord
  mtvec : machine.csr .mtvec = layout.obcTrapEntry

theorem Vectored.armed {origin mem : U32 → U32} {machine : BootMachine}
    (vectored : Vectored layout mem machine) (sound : Sound layout origin mem) :
    Armed layout origin machine :=
  ⟨vectored.mscratch, vectored.mtvec, vectored.mem ▸ sound⟩

section

variable (layout : Layout) (origin : U32 → U32)

theorem copy_ready :
    Leads (loopStep (startText layout)) (Armed layout origin) 5
      (fun machine => machine.pc = 7 ∧ Vectored layout (clearedMemory layout origin) machine)
      fun machine => machine.pc = copyHead ∧ machine.reg .t0 = layout.dataLma ∧
        machine.reg .t1 = layout.dataStart ∧ machine.reg .t2 = layout.dataEnd ∧
        Settled layout (clearedMemory layout origin) machine := by
  rintro ⟨reg, csr, mem, pc⟩ ⟨rfl, rfl, zero, gp, sp, mscratch, mtvec⟩
  dsimp only at zero gp sp mscratch mtvec
  constructor
  · refine ⟨?_, ?_, ?_, ?_, ?_, ?_, ?_, ?_, ?_, ?_, ?_, ?_⟩
    all_goals simp [loopStep, startText, execLoop, exec, copyHead, zero, gp, sp, mscratch, mtvec]
  · intro part early
    interval_cases part
    all_goals
      refine Vectored.armed ⟨?_, ?_, ?_, ?_, ?_, ?_⟩ (sound_cleared layout origin)
      all_goals simp [loopStep, startText, execLoop, exec, zero, gp, sp, mscratch, mtvec]

theorem zero_ready :
    Leads (loopStep (startText layout)) (Armed layout origin) 2
      (fun machine => machine.pc = 18 ∧ Settled layout (copiedMemory layout origin) machine)
      fun machine => machine.pc = zeroHead ∧ machine.reg .t0 = layout.bssStart ∧
        machine.reg .t1 = layout.bssEnd ∧ Settled layout (copiedMemory layout origin) machine := by
  rintro ⟨reg, csr, mem, pc⟩ ⟨rfl, rfl, zero, gp, sp, mscratch, mtvec, mie, mip⟩
  dsimp only at zero gp sp mscratch mtvec mie mip
  constructor
  · refine ⟨?_, ?_, ?_, ?_, ?_, ?_, ?_, ?_, ?_, ?_, ?_⟩
    all_goals simp [loopStep, startText, execLoop, exec, zeroHead, zero, gp, sp, mscratch, mtvec, mie,
      mip]
  · intro part early
    interval_cases part
    all_goals
      refine Vectored.armed ⟨?_, ?_, ?_, ?_, ?_, ?_⟩ (sound_copied layout origin)
      all_goals simp [loopStep, startText, execLoop, exec, zero, gp, sp, mscratch, mtvec]

theorem paint_ready :
    Leads (loopStep (startText layout)) (Armed layout origin) 3
      (fun machine => machine.pc = 24 ∧ Settled layout (zeroedMemory layout origin) machine)
      fun machine => machine.pc = paintHead ∧ machine.reg .t0 = layout.stackBottom ∧
        machine.reg .t1 = layout.stackTop ∧ machine.reg .t2 = stackPaint ∧
        Settled layout (zeroedMemory layout origin) machine := by
  rintro ⟨reg, csr, mem, pc⟩ ⟨rfl, rfl, zero, gp, sp, mscratch, mtvec, mie, mip⟩
  dsimp only at zero gp sp mscratch mtvec mie mip
  constructor
  · refine ⟨?_, ?_, ?_, ?_, ?_, ?_, ?_, ?_, ?_, ?_, ?_, ?_⟩
    all_goals simp [loopStep, startText, execLoop, exec, paintHead, zero, gp, sp, mscratch, mtvec, mie,
      mip]
  · intro part early
    interval_cases part
    all_goals
      refine Vectored.armed ⟨?_, ?_, ?_, ?_, ?_, ?_⟩ (sound_zeroed layout origin)
      all_goals simp [loopStep, startText, execLoop, exec, zero, gp, sp, mscratch, mtvec]

theorem copyLoop : CopyLoop (startText layout) copyHead 18 .t0 .t1 .t2 .t3 := by
  constructor <;> first | rfl | simp

theorem zeroLoop : FillLoop (startText layout) zeroHead 24 .t0 .t1 .zero := by
  constructor <;> first | rfl | simp

theorem paintLoop : FillLoop (startText layout) paintHead callObcMain .t0 .t1 .t2 := by
  constructor <;> first | rfl | simp

theorem copied :
    Leads (loopStep (startText layout)) (Armed layout origin) (6 * layout.dataWords + 1)
      (fun machine => machine.pc = copyHead ∧ machine.reg .t0 = layout.dataLma ∧
        machine.reg .t1 = layout.dataStart ∧ machine.reg .t2 = layout.dataEnd ∧
        Settled layout (clearedMemory layout origin) machine)
      fun machine => machine.pc = 18 ∧ Settled layout (copiedMemory layout origin) machine := by
  rintro start ⟨here, reads, starts, limits, settled⟩
  have reaches := layout.dataLimit
  have bound := layout.dataEnd.isLt
  have loop := here ▸ copyLoop layout
  have apart : ∀ index < layout.dataWords,
      ¬Within layout.dataStart layout.dataWords (word layout.dataLma index) := by
    intro index inside within
    have flash := flash_toNat inside
    have ram := layout.ram
    have range := data_range within
    omega
  obtain ⟨⟨held, ended⟩, outside⟩ := copyLoop_run loop (by omega)
    (limits.trans (word_limit reaches)) apart reads starts start rfl
  refine ⟨?_, fun part early => settled.armed_outside (sound_cleared layout origin) (ownData layout)
    (outside part early)⟩
  rw [ended]
  refine ⟨rfl, ?_, ?_, ?_, ?_, settled.mscratch, settled.mtvec, settled.mie, settled.mip⟩
  · rw [copiedMemory, ← settled.mem]
    rfl
  · simpa [moved, copyRegs] using settled.zero
  · simpa [moved, copyRegs] using settled.gp
  · simpa [moved, copyRegs] using settled.sp

theorem zeroed :
    Leads (loopStep (startText layout)) (Armed layout origin) (4 * layout.bssWords + 1)
      (fun machine => machine.pc = zeroHead ∧ machine.reg .t0 = layout.bssStart ∧
        machine.reg .t1 = layout.bssEnd ∧ Settled layout (copiedMemory layout origin) machine)
      fun machine => machine.pc = 24 ∧ Settled layout (zeroedMemory layout origin) machine := by
  rintro start ⟨here, starts, limits, settled⟩
  have reaches := layout.bssLimit
  have bound := layout.bssEnd.isLt
  have loop := here ▸ zeroLoop layout
  obtain ⟨ended, outside⟩ := fillLoop_run loop (by omega) (limits.trans (word_limit reaches)) starts
    start rfl
  refine ⟨?_, fun part early => settled.armed_outside (sound_copied layout origin) (ownBss layout)
    (outside part early)⟩
  rw [ended]
  refine ⟨rfl, ?_, ?_, ?_, ?_, settled.mscratch, settled.mtvec, settled.mie, settled.mip⟩
  · rw [zeroedMemory, ← settled.mem, ← settled.zero]
    rfl
  · simpa [filling, moved] using settled.zero
  · simpa [filling, moved] using settled.gp
  · simpa [filling, moved] using settled.sp

theorem painted :
    Leads (loopStep (startText layout)) (Armed layout origin) (4 * layout.stackWords + 1)
      (fun machine => machine.pc = paintHead ∧ machine.reg .t0 = layout.stackBottom ∧
        machine.reg .t1 = layout.stackTop ∧ machine.reg .t2 = stackPaint ∧
        Settled layout (zeroedMemory layout origin) machine)
      fun machine => machine.pc = callObcMain ∧
        Settled layout (paintedMemory layout origin) machine := by
  rintro start ⟨here, starts, limits, paint, settled⟩
  have reaches := layout.stackLimit
  have bound := layout.stackTop.isLt
  have loop := here ▸ paintLoop layout
  obtain ⟨ended, outside⟩ := fillLoop_run loop (by omega) (limits.trans (word_limit reaches)) starts
    start rfl
  refine ⟨?_, fun part early => settled.armed_outside (sound_zeroed layout origin) (ownStack layout)
    (outside part early)⟩
  rw [ended]
  refine ⟨rfl, ?_, ?_, ?_, ?_, settled.mscratch, settled.mtvec, settled.mie, settled.mip⟩
  · rw [paintedMemory, ← settled.mem, ← paint]
    rfl
  · simpa [filling, moved] using settled.zero
  · simpa [filling, moved] using settled.gp
  · simpa [filling, moved] using settled.sp

/-- The entry from the installed vector to the call of `obc_main`. -/
theorem started_leads :
    Leads (loopStep (startText layout)) (Armed layout origin) (layout.startSteps - 7)
      (fun machine => machine.pc = 7 ∧ Vectored layout (clearedMemory layout origin) machine)
      fun machine => machine.pc = callObcMain ∧
        Settled layout (startedMemory layout origin) machine := by
  have whole := (((((copy_ready layout origin).trans (copied layout origin)).trans
    (zero_ready layout origin)).trans (zeroed layout origin)).trans
    (paint_ready layout origin)).trans (painted layout origin)
  rw [paintedMemory_eq] at whole
  have steps : layout.startSteps - 7 = 5 + (6 * layout.dataWords + 1) + 2 +
      (4 * layout.bssWords + 1) + 3 + (4 * layout.stackWords + 1) := by
    rw [Layout.startSteps]
    omega
  rw [steps]
  exact whole

end

end

theorem started_later (layout : Layout) (machine : BootMachine) (more : Nat) :
    started layout (7 + more) machine =
      (loopStep (startText layout))^[more] (started layout 7 machine) := by
  rw [started, Nat.add_comm, Function.iterate_add_apply]
  rfl

section

variable (layout : Layout) {machine : BootMachine} (reset : AtReset machine)

include reset

theorem vectored_at_seven :
    (started layout 7 machine).pc = 7 ∧
      Vectored layout (clearedMemory layout machine.mem) (started layout 7 machine) := by
  obtain ⟨pc, mem, zero, gp, sp, mscratch, mtvec⟩ := vector_installed layout reset
  exact ⟨pc, mem, zero, gp, sp, mscratch, mtvec⟩

theorem started_settled :
    (started layout layout.startSteps machine).pc = callObcMain ∧
      Settled layout (startedMemory layout machine.mem)
        (started layout layout.startSteps machine) := by
  have longer : layout.startSteps = 7 + (layout.startSteps - 7) := by
    rw [Layout.startSteps]
    omega
  rw [longer, started_later]
  exact (started_leads layout machine.mem _ (vectored_at_seven layout reset)).1

theorem started_armed {count : Nat} (past : 7 ≤ count) (inside : count ≤ layout.startSteps) :
    Armed layout machine.mem (started layout count machine) := by
  rcases Nat.lt_or_eq_of_le inside with early | rfl
  · obtain ⟨more, rfl⟩ := Nat.exists_eq_add_of_le past
    rw [started_later]
    exact (started_leads layout machine.mem _ (vectored_at_seven layout reset)).2 more (by omega)
  · refine (started_settled layout reset).2.armed ?_
    rw [← paintedMemory_eq]
    exact sound_painted layout machine.mem

/-- Whatever memory and registers hold out of reset, the entry calls `obc_main` after as many
instructions as its three blocks dictate, with the stack, the vector and memory as C expects
them; and at no moment has it touched anything else, so the critical copies and what
`.noinit` holds survive it, also where it is cut short. -/
theorem start_prepares :
    (started layout layout.startSteps machine).pc = callObcMain ∧
      Settled layout (startedMemory layout machine.mem)
        (started layout layout.startSteps machine) ∧
      ∀ count ≤ layout.startSteps, ∀ address, ¬layout.Prepared address →
        (started layout count machine).mem address = machine.mem address := by
  refine ⟨(started_settled layout reset).1, (started_settled layout reset).2, ?_⟩
  intro count inside address foreign
  by_cases past : 7 ≤ count
  · exact (started_armed layout reset past inside).sound.kept address foreign
  · exact kept_early layout reset (by omega) foreign

end

/-- An image with one word of `.data`, two of `.bss` and two of stack. -/
def smallLayout : Layout where
  globalPointer := 0x80000800
  dataLma := 0x20401000
  dataStart := 0x80000000
  dataEnd := 0x80000004
  bssStart := 0x80000104
  bssEnd := 0x8000010C
  obcFaultRecord := 0x80000200
  stackBottom := 0x80000400
  stackTop := 0x80000408
  obcTrapEntry := 0x20400100
  flash := by decide
  ram := by decide
  data := by decide
  dataBss := by decide
  bss := by decide
  bssRecord := by decide
  recordStack := by decide
  stack := by decide
  ramEnd := by decide
  dataWhole := by decide
  bssWhole := by decide
  stackWhole := by decide

/-- A machine out of reset, with noise in every word. -/
def noisyMachine : BootMachine :=
  { reg := fun _ => 0, csr := fun _ => 0x55555555, mem := fun address => address ^^^ 0xA5A5A5A5,
    pc := 0 }

theorem start_prepares_small :
    (started smallLayout 42 noisyMachine).pc = callObcMain ∧
      (started smallLayout 42 noisyMachine).mem 0x80000104 = 0 ∧
      (started smallLayout 42 noisyMachine).mem 0x80000000 = 0x20401000 ^^^ 0xA5A5A5A5 ∧
      (started smallLayout 20 noisyMachine).mem 0x80000210 = 0x80000210 ^^^ 0xA5A5A5A5 := by
  obtain ⟨called, settled, kept⟩ := start_prepares smallLayout (⟨rfl, rfl⟩ : AtReset noisyMachine)
  have steps : smallLayout.startSteps = 42 := by decide
  rw [steps] at called settled kept
  refine ⟨called, ?_, ?_, kept 20 (by decide) _ ?_⟩
  · rw [settled.mem]
    decide
  · rw [settled.mem]
    decide
  · simp only [Layout.Prepared]
    decide

end ObcZero
