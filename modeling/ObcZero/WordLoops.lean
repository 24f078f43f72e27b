import ObcZero.RegisterMachine

/-!
Loops of a register machine over the words of a block. `Leads` says where a given number
of steps leads and what holds before each of them; its rules compose stretches of straight
code and turns of a loop. A block is filled, or copied, by a loop that compares a cursor
with a limit, stores one word and moves on.
-/

namespace WordLoops

open RegisterMachine

inductive LoopInstr (Reg Csr : Type*)
  | basic (instr : Instr Reg Csr)
  | addi (rd source : Reg) (value : BitVec 32)
  | bgeu (left right : Reg) (target : Nat)

section

variable {State : Type*} {step : State → State} {always : State → Prop}

/-- Whatever state meets `before`, the steps lead to one that meets `after`, and all that
they start from meet `always`. -/
def Leads (step : State → State) (always : State → Prop) (count : Nat)
    (before after : State → Prop) : Prop :=
  ∀ state, before state →
    after (step^[count] state) ∧ ∀ part < count, always (step^[part] state)

theorem Leads.trans {first second : Nat} {before between after : State → Prop}
    (lead : Leads step always first before between)
    (follow : Leads step always second between after) :
    Leads step always (first + second) before after := by
  intro state met
  obtain ⟨reached, early⟩ := lead state met
  obtain ⟨ended, late⟩ := follow _ reached
  constructor
  · rw [Nat.add_comm, Function.iterate_add_apply]
    exact ended
  · intro part inside
    by_cases past : part < first
    · exact early part past
    · obtain ⟨more, rfl⟩ := Nat.exists_eq_add_of_le (Nat.not_lt.mp past)
      rw [Nat.add_comm, Function.iterate_add_apply]
      exact late more (by omega)

theorem Leads.loop {turns length : Nat} {invariant : Nat → State → Prop}
    (turn : ∀ index < turns,
      Leads step always length (invariant index) (invariant (index + 1))) :
    Leads step always (length * turns) (invariant 0) (invariant turns) := by
  induction turns with
  | zero => exact fun state met => ⟨met, fun part inside => absurd inside (Nat.not_lt_zero part)⟩
  | succ turns ih =>
      rw [Nat.mul_succ]
      exact (ih fun index inside => turn index (Nat.lt_succ_of_lt inside)).trans
        (turn turns (Nat.lt_succ_self turns))

end

section

variable {Reg Csr : Type*} [DecidableEq Reg] [DecidableEq Csr]

def execLoop : LoopInstr Reg Csr → Machine Reg Csr → Machine Reg Csr
  | .basic instr, machine => exec instr machine
  | .addi rd source value, machine =>
      { machine with
        reg := Function.update machine.reg rd (machine.reg source + value)
        pc := machine.pc + 1 }
  | .bgeu left right target, machine =>
      { machine with
        pc := if machine.reg right ≤ machine.reg left then target else machine.pc + 1 }

/-- Outside the text the machine stays where it is. -/
def loopStep (text : List (LoopInstr Reg Csr)) (machine : Machine Reg Csr) : Machine Reg Csr :=
  match text[machine.pc]? with
  | some instr => execLoop instr machine
  | none => machine

end

def Within (first : BitVec 32) (count : Nat) (address : BitVec 32) : Prop :=
  (address - first).toNat % 4 = 0 ∧ (address - first).toNat < 4 * count

instance (first : BitVec 32) (count : Nat) (address : BitVec 32) :
    Decidable (Within first count address) :=
  inferInstanceAs (Decidable (_ ∧ _))

def overlaid (first : BitVec 32) (count : Nat) (content mem : BitVec 32 → BitVec 32) :
    BitVec 32 → BitVec 32 :=
  fun address => if Within first count address then content address else mem address

def word (first : BitVec 32) (index : Nat) : BitVec 32 := first + BitVec.ofNat 32 (4 * index)

theorem word_zero (first : BitVec 32) : word first 0 = first := by simp [word]

theorem word_succ (first : BitVec 32) (index : Nat) : word first index + 4 = word first (index + 1) := by
  rw [word, word, BitVec.add_assoc, Nat.mul_succ, BitVec.ofNat_add]
  rfl

theorem toNat_word {first : BitVec 32} {index : Nat} (fits : first.toNat + 4 * index < 2 ^ 32) :
    (word first index).toNat = first.toNat + 4 * index := by
  rw [word, BitVec.toNat_add, BitVec.toNat_ofNat]
  omega

theorem within_succ {first : BitVec 32} {count : Nat} (fits : 4 * count < 2 ^ 32)
    (address : BitVec 32) :
    Within first (count + 1) address ↔ Within first count address ∨ address = word first count := by
  have last : address = word first count ↔ (address - first).toNat = 4 * count := by
    rw [word]
    constructor
    · rintro rfl
      bv_omega
    · intro same
      bv_omega
  rw [last, Within, Within]
  omega

theorem overlaid_zero (first : BitVec 32) (content mem : BitVec 32 → BitVec 32) :
    overlaid first 0 content mem = mem := by
  funext address
  exact if_neg fun inside => Nat.not_lt_zero _ inside.2

theorem overlaid_succ {first : BitVec 32} {count : Nat} (fits : 4 * count < 2 ^ 32)
    (content mem : BitVec 32 → BitVec 32) :
    Function.update (overlaid first count content mem) (word first count)
        (content (word first count)) = overlaid first (count + 1) content mem := by
  funext address
  by_cases same : address = word first count
  · rw [same, Function.update_self, overlaid, if_pos ((within_succ fits _).mpr (Or.inr rfl))]
  rw [Function.update_of_ne same, overlaid, overlaid]
  by_cases inside : Within first count address
  · rw [if_pos inside, if_pos ((within_succ fits _).mpr (Or.inl inside))]
  · rw [if_neg inside, if_neg fun later =>
      ((within_succ fits _).mp later).elim inside same]

theorem overlaid_outside {first : BitVec 32} {count : Nat} {address : BitVec 32}
    (outside : ¬Within first count address) (content mem : BitVec 32 → BitVec 32) :
    overlaid first count content mem address = mem address := if_neg outside

theorem Within.mono {first address : BitVec 32} {few many : Nat} (inside : Within first few address)
    (more : few ≤ many) : Within first many address := ⟨inside.1, by have := inside.2; omega⟩

/-- Where the words of a block are, if it does not run past the end of memory. -/
theorem Within.range {first address : BitVec 32} {count : Nat} (fits : first.toNat + 4 * count < 2 ^ 32)
    (inside : Within first count address) :
    first.toNat ≤ address.toNat ∧ address.toNat < first.toNat + 4 * count := by
  have offset := inside.2
  rw [BitVec.toNat_sub] at offset
  have start := first.isLt
  have limit := address.isLt
  omega

theorem word_limit {first limit : BitVec 32} {count : Nat}
    (reaches : first.toNat + 4 * count = limit.toNat) : limit = word first count := by
  apply BitVec.eq_of_toNat_eq
  rw [toNat_word (by have := limit.isLt; omega), reaches]

section

variable {Reg Csr : Type*} [DecidableEq Reg] [DecidableEq Csr] {text : List (LoopInstr Reg Csr)}

/-- What a loop over a block leaves alone. -/
structure Outside (first : BitVec 32) (count : Nat) (start machine : Machine Reg Csr) : Prop where
  csr : machine.csr = start.csr
  mem : ∀ address, ¬Within first count address → machine.mem address = start.mem address

/-- A machine that has come to the given place of a loop. -/
def moved (start : Machine Reg Csr) (reg : Reg → BitVec 32) (mem : BitVec 32 → BitVec 32)
    (offset : Nat) : Machine Reg Csr :=
  { reg := reg, csr := start.csr, mem := mem, pc := start.pc + offset }

omit [DecidableEq Reg] [DecidableEq Csr] in
theorem outside_moved {first : BitVec 32} {few count : Nat} (part : few ≤ count)
    (start : Machine Reg Csr) (content : BitVec 32 → BitVec 32) (reg : Reg → BitVec 32)
    (offset : Nat) :
    Outside first count start
      (moved start reg (overlaid first few content start.mem) offset) :=
  ⟨rfl, fun _ outside => if_neg fun within => outside (within.mono part)⟩

omit [DecidableEq Reg] [DecidableEq Csr] in
theorem Leads.exit {step : Machine Reg Csr → Machine Reg Csr} {always : Machine Reg Csr → Prop}
    {count : Nat} {before : Machine Reg Csr → Prop} {last ended : Machine Reg Csr}
    (leads : Leads step always count before (· = last)) (outside : always last)
    (leaves : step last = ended) : Leads step always (count + 1) before (· = ended) := by
  refine leads.trans fun state met => ?_
  subst met
  refine ⟨leaves, fun part inside => ?_⟩
  rw [Nat.lt_one_iff.mp inside]
  exact outside

/-- The loop that stores one register in every word from its cursor to its limit. -/
structure FillLoop (text : List (LoopInstr Reg Csr)) (pc exit : Nat) (cursor limit source : Reg) :
    Prop where
  test : text[pc]? = some (.bgeu cursor limit exit)
  store : text[pc + 1]? = some (.basic (.sw source 0 cursor))
  move : text[pc + 2]? = some (.addi cursor cursor 4)
  back : text[pc + 3]? = some (.basic (.j pc))
  limit : limit ≠ cursor
  source : source ≠ cursor

def filling (start : Machine Reg Csr) (cursor : Reg) (first value : BitVec 32) (index : Nat) :
    Machine Reg Csr :=
  moved start (Function.update start.reg cursor (word first index))
    (overlaid first index (fun _ => value) start.mem) 0

section

variable {exit : Nat} {cursor limit source : Reg} {start : Machine Reg Csr} {first : BitVec 32}
  {count : Nat}

theorem fillLoop_turn (loop : FillLoop text start.pc exit cursor limit source)
    (fits : first.toNat + 4 * count < 2 ^ 32) (limits : start.reg limit = word first count)
    {index : Nat} (inside : index < count) :
    Leads (loopStep text) (Outside first count start) 4
      (· = filling start cursor first (start.reg source) index)
      (· = filling start cursor first (start.reg source) (index + 1)) := by
  rintro _ rfl
  have more : ¬word first count ≤ word first index := by
    rw [BitVec.le_def, toNat_word fits, toNat_word (by omega)]
    omega
  have stored := @overlaid_succ first index (by omega) (fun _ => start.reg source) start.mem
  have advanced : word first index + 4#32 = word first (index + 1) := word_succ first index
  let before := Function.update start.reg cursor (word first index)
  let after := Function.update start.reg cursor (word first (index + 1))
  let few := overlaid first index (fun _ => start.reg source) start.mem
  let later := overlaid first (index + 1) (fun _ => start.reg source) start.mem
  have tested : loopStep text (filling start cursor first (start.reg source) index) =
      moved start before few 1 := by
    simp [loopStep, filling, moved, loop.test, execLoop, loop.limit, limits, more, before, few]
  have storing : loopStep text (moved start before few 1) =
      moved start before later 2 := by
    simp [loopStep, moved, loop.store, execLoop, exec, loop.source, stored, before, few, later]
  have moving : loopStep text (moved start before later 2) =
      moved start after later 3 := by
    simp [loopStep, moved, loop.move, execLoop, advanced, before, after]
  have turning : loopStep text (moved start after later 3) =
      filling start cursor first (start.reg source) (index + 1) := by
    simp [loopStep, filling, moved, loop.back, execLoop, exec, after, later]
  constructor
  · simp only [Function.iterate_succ, Function.iterate_zero, Function.comp_apply, id, tested, storing,
      moving, turning]
  · intro part early
    interval_cases part
    all_goals simp only [Function.iterate_succ, Function.iterate_zero, Function.comp_apply, id, tested,
      storing, moving]
    · exact outside_moved (Nat.le_of_lt inside) _ _ _ _
    · exact outside_moved (Nat.le_of_lt inside) _ _ _ _
    · exact outside_moved inside _ _ _ _
    · exact outside_moved inside _ _ _ _

theorem fillLoop_run (loop : FillLoop text start.pc exit cursor limit source)
    (fits : first.toNat + 4 * count < 2 ^ 32) (limits : start.reg limit = word first count)
    (starts : start.reg cursor = first) :
    Leads (loopStep text) (Outside first count start) (4 * count + 1) (· = start)
      (· = { filling start cursor first (start.reg source) count with pc := exit }) := by
  have begun : filling start cursor first (start.reg source) 0 = start := by
    rw [filling, word_zero, ← starts, Function.update_eq_self, overlaid_zero]
    rfl
  have turns := @Leads.loop _ _ _ count 4 (fun index => (· = filling start cursor first
    (start.reg source) index)) fun index inside => fillLoop_turn loop fits limits inside
  rw [begun] at turns
  refine turns.exit (outside_moved (Nat.le_refl count) _ _ _ _) ?_
  simp [loopStep, filling, moved, loop.test, execLoop, loop.limit, limits]

end

/-- The loop that copies a word from one cursor to another, up to the limit of the second. -/
structure CopyLoop (text : List (LoopInstr Reg Csr)) (pc exit : Nat)
    (origin cursor limit scratch : Reg) : Prop where
  test : text[pc]? = some (.bgeu cursor limit exit)
  load : text[pc + 1]? = some (.basic (.lw scratch 0 origin))
  store : text[pc + 2]? = some (.basic (.sw scratch 0 cursor))
  advance : text[pc + 3]? = some (.addi origin origin 4)
  move : text[pc + 4]? = some (.addi cursor cursor 4)
  back : text[pc + 5]? = some (.basic (.j pc))
  origin_cursor : origin ≠ cursor
  limit_cursor : limit ≠ cursor
  limit_origin : limit ≠ origin
  limit_scratch : limit ≠ scratch
  scratch_cursor : scratch ≠ cursor
  scratch_origin : scratch ≠ origin

/-- What a block holds that a copy of `source` has been made in. -/
def copyOf (source first : BitVec 32) (mem : BitVec 32 → BitVec 32) : BitVec 32 → BitVec 32 :=
  fun address => mem (source + (address - first))

theorem copyOf_word (source first : BitVec 32) (mem : BitVec 32 → BitVec 32) (index : Nat) :
    copyOf source first mem (word first index) = mem (word source index) := by
  have moved : source + (word first index - first) = word source index := by
    rw [word, word]
    bv_omega
  rw [copyOf, moved]

def copyRegs (start : Machine Reg Csr) (origin cursor scratch : Reg)
    (held source first : BitVec 32) : Reg → BitVec 32 :=
  Function.update (Function.update (Function.update start.reg scratch held) origin source) cursor
    first

section

variable {start : Machine Reg Csr} {origin cursor limit scratch : Reg}
  {held source first value : BitVec 32}

omit [DecidableEq Csr]

theorem copyRegs_scratch (other : scratch ≠ origin) (apart : scratch ≠ cursor) :
    Function.update (copyRegs start origin cursor scratch held source first) scratch value =
      copyRegs start origin cursor scratch value source first := by
  rw [copyRegs, Function.update_comm apart.symm, Function.update_comm other.symm,
    Function.update_idem, copyRegs]

theorem copyRegs_origin (other : origin ≠ cursor) :
    Function.update (copyRegs start origin cursor scratch held source first) origin value =
      copyRegs start origin cursor scratch held value first := by
  rw [copyRegs, Function.update_comm other.symm, Function.update_idem, copyRegs]

theorem copyRegs_cursor :
    Function.update (copyRegs start origin cursor scratch held source first) cursor value =
      copyRegs start origin cursor scratch held source value := by
  rw [copyRegs, Function.update_idem, copyRegs]

theorem copyRegs_other {reg : Reg} (first' : reg ≠ cursor) (second : reg ≠ origin)
    (third : reg ≠ scratch) :
    copyRegs start origin cursor scratch held source first reg = start.reg reg := by
  rw [copyRegs, Function.update_of_ne first', Function.update_of_ne second,
    Function.update_of_ne third]

end

def Copying (start : Machine Reg Csr) (origin cursor scratch : Reg) (source first : BitVec 32)
    (index : Nat) (machine : Machine Reg Csr) : Prop :=
  ∃ held, machine =
    moved start (copyRegs start origin cursor scratch held (word source index) (word first index))
      (overlaid first index (copyOf source first start.mem) start.mem) 0

section

variable {exit : Nat} {origin cursor limit scratch : Reg} {start : Machine Reg Csr}
  {source first : BitVec 32} {count : Nat}

theorem copyLoop_turn (loop : CopyLoop text start.pc exit origin cursor limit scratch)
    (fits : first.toNat + 4 * count < 2 ^ 32) (limits : start.reg limit = word first count)
    (apart : ∀ index < count, ¬Within first count (word source index))
    {index : Nat} (inside : index < count) :
    Leads (loopStep text) (Outside first count start) 6
      (Copying start origin cursor scratch source first index)
      (Copying start origin cursor scratch source first (index + 1)) := by
  rintro _ ⟨held, rfl⟩
  have more : ¬word first count ≤ word first index := by
    rw [BitVec.le_def, toNat_word fits, toNat_word (by omega)]
    omega
  let few := overlaid first index (copyOf source first start.mem) start.mem
  let later := overlaid first (index + 1) (copyOf source first start.mem) start.mem
  let value := start.mem (word source index)
  have read : few (word source index) = value :=
    overlaid_outside (fun within => apart index inside (within.mono (Nat.le_of_lt inside))) _ _
  have stored : Function.update few (word first index) value = later := by
    have content : copyOf source first start.mem (word first index) = value :=
      copyOf_word source first start.mem index
    rw [← content]
    exact overlaid_succ (by omega) _ _
  have advanced (block : BitVec 32) : word block index + 4#32 = word block (index + 1) :=
    word_succ block index
  let regs := copyRegs start origin cursor scratch
  have tested : loopStep text (moved start (regs held (word source index) (word first index)) few 0) =
      moved start (regs held (word source index) (word first index)) few 1 := by
    have limited : regs held (word source index) (word first index) limit = word first count :=
      (copyRegs_other loop.limit_cursor loop.limit_origin loop.limit_scratch).trans limits
    have compared : regs held (word source index) (word first index) cursor = word first index :=
      Function.update_self _ _ _
    simp [loopStep, moved, loop.test, execLoop, limited, compared, more]
  have loading : loopStep text (moved start (regs held (word source index) (word first index)) few 1) =
      moved start (regs value (word source index) (word first index)) few 2 := by
    have address : regs held (word source index) (word first index) origin = word source index := by
      simp [regs, copyRegs, loop.origin_cursor]
    have loaded : Function.update (regs held (word source index) (word first index)) scratch value =
        regs value (word source index) (word first index) :=
      copyRegs_scratch loop.scratch_origin loop.scratch_cursor
    simp [loopStep, moved, loop.load, execLoop, exec, address, read, loaded]
  have storing : loopStep text
      (moved start (regs value (word source index) (word first index)) few 2) =
      moved start (regs value (word source index) (word first index)) later 3 := by
    have address : regs value (word source index) (word first index) cursor = word first index :=
      Function.update_self _ _ _
    have content : regs value (word source index) (word first index) scratch = value := by
      simp [regs, copyRegs, loop.scratch_cursor, loop.scratch_origin]
    simp [loopStep, moved, loop.store, execLoop, exec, address, content, stored]
  have advancing : loopStep text
      (moved start (regs value (word source index) (word first index)) later 3) =
      moved start (regs value (word source (index + 1)) (word first index)) later 4 := by
    have address : regs value (word source index) (word first index) origin = word source index := by
      simp [regs, copyRegs, loop.origin_cursor]
    have next : Function.update (regs value (word source index) (word first index)) origin
        (word source (index + 1)) = regs value (word source (index + 1)) (word first index) :=
      copyRegs_origin loop.origin_cursor
    simp [loopStep, moved, loop.advance, execLoop, address, advanced, next]
  have moving : loopStep text
      (moved start (regs value (word source (index + 1)) (word first index)) later 4) =
      moved start (regs value (word source (index + 1)) (word first (index + 1))) later 5 := by
    have address : regs value (word source (index + 1)) (word first index) cursor =
        word first index := Function.update_self _ _ _
    have next : Function.update (regs value (word source (index + 1)) (word first index)) cursor
        (word first (index + 1)) = regs value (word source (index + 1)) (word first (index + 1)) :=
      copyRegs_cursor
    simp [loopStep, moved, loop.move, execLoop, address, advanced, next]
  have turning : loopStep text
      (moved start (regs value (word source (index + 1)) (word first (index + 1))) later 5) =
      moved start (regs value (word source (index + 1)) (word first (index + 1))) later 0 := by
    simp [loopStep, moved, loop.back, execLoop, exec]
  change _ ∧ ∀ part < 6, Outside first count start ((loopStep text)^[part]
    (moved start (regs held (word source index) (word first index)) few 0))
  constructor
  · refine ⟨value, ?_⟩
    change (loopStep text)^[6]
      (moved start (regs held (word source index) (word first index)) few 0) = _
    simp only [Function.iterate_succ, Function.iterate_zero, Function.comp_apply, id, tested, loading,
      storing, advancing, moving, turning]
    rfl
  · intro part early
    interval_cases part
    all_goals simp only [Function.iterate_succ, Function.iterate_zero, Function.comp_apply, id, tested,
      loading, storing, advancing, moving]
    · exact outside_moved (Nat.le_of_lt inside) _ _ _ _
    · exact outside_moved (Nat.le_of_lt inside) _ _ _ _
    · exact outside_moved (Nat.le_of_lt inside) _ _ _ _
    · exact outside_moved inside _ _ _ _
    · exact outside_moved inside _ _ _ _
    · exact outside_moved inside _ _ _ _

theorem copyLoop_run (loop : CopyLoop text start.pc exit origin cursor limit scratch)
    (fits : first.toNat + 4 * count < 2 ^ 32) (limits : start.reg limit = word first count)
    (apart : ∀ index < count, ¬Within first count (word source index))
    (reads : start.reg origin = source) (starts : start.reg cursor = first) :
    Leads (loopStep text) (Outside first count start) (6 * count + 1) (· = start) fun machine =>
      ∃ held, machine =
        { moved start (copyRegs start origin cursor scratch held (word source count)
            (word first count))
            (overlaid first count (copyOf source first start.mem) start.mem) 0 with pc := exit } := by
  have begun : Copying start origin cursor scratch source first 0 start := by
    refine ⟨start.reg scratch, ?_⟩
    rw [word_zero, word_zero, overlaid_zero, copyRegs, Function.update_eq_self, ← reads,
      Function.update_eq_self, ← starts, Function.update_eq_self]
    rfl
  have turns := @Leads.loop _ _ _ count 6 (Copying start origin cursor scratch source first)
    fun index inside => copyLoop_turn loop fits limits apart inside
  intro machine same
  subst same
  obtain ⟨⟨held, last⟩, outside⟩ := turns machine begun
  have limited : copyRegs machine origin cursor scratch held (word source count) (word first count)
      limit = word first count :=
    (copyRegs_other loop.limit_cursor loop.limit_origin loop.limit_scratch).trans limits
  have compared : copyRegs machine origin cursor scratch held (word source count) (word first count)
      cursor = word first count := Function.update_self _ _ _
  constructor
  · refine ⟨held, ?_⟩
    rw [Nat.add_comm, Function.iterate_add_apply, last]
    simp [loopStep, moved, loop.test, execLoop, limited, compared]
  · intro part early
    rcases Nat.lt_succ_iff_lt_or_eq.mp early with before | rfl
    · exact outside part before
    · rw [last]
      exact outside_moved (Nat.le_refl count) _ _ _ _

end

end

end WordLoops
