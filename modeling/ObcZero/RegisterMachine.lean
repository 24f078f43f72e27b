import ObcZero.StoreSequence

/-!
A machine of registers, control registers and a memory of words, running a text of
instructions. A run changes memory by its stores alone, so what a reset finds after
some of its instructions is what the first few of its stores have left.
-/

namespace RegisterMachine

open StoreSequence

structure Machine (Reg Csr : Type*) where
  reg : Reg → BitVec 32
  csr : Csr → BitVec 32
  mem : BitVec 32 → BitVec 32
  pc : Nat

inductive Instr (Reg Csr : Type*)
  | li (rd : Reg) (value : BitVec 32)
  | xor (rd left right : Reg)
  | lw (rd : Reg) (offset : BitVec 32) (base : Reg)
  | sw (source : Reg) (offset : BitVec 32) (base : Reg)
  | csrr (rd : Reg) (csr : Csr)
  | csrw (csr : Csr) (source : Reg)
  | csrrw (rd : Reg) (csr : Csr) (source : Reg)
  | bnez (source : Reg) (target : Nat)
  | j (target : Nat)

section

variable {Reg Csr : Type*} [DecidableEq Reg] [DecidableEq Csr]

def exec : Instr Reg Csr → Machine Reg Csr → Machine Reg Csr
  | .li rd value, machine =>
      { machine with reg := Function.update machine.reg rd value, pc := machine.pc + 1 }
  | .xor rd left right, machine =>
      { machine with
        reg := Function.update machine.reg rd (machine.reg left ^^^ machine.reg right)
        pc := machine.pc + 1 }
  | .lw rd offset base, machine =>
      { machine with
        reg := Function.update machine.reg rd (machine.mem (machine.reg base + offset))
        pc := machine.pc + 1 }
  | .sw source offset base, machine =>
      { machine with
        mem := Function.update machine.mem (machine.reg base + offset) (machine.reg source)
        pc := machine.pc + 1 }
  | .csrr rd csr, machine =>
      { machine with
        reg := Function.update machine.reg rd (machine.csr csr)
        pc := machine.pc + 1 }
  | .csrw csr source, machine =>
      { machine with
        csr := Function.update machine.csr csr (machine.reg source)
        pc := machine.pc + 1 }
  | .csrrw rd csr source, machine =>
      { machine with
        reg := Function.update machine.reg rd (machine.csr csr)
        csr := Function.update machine.csr csr (machine.reg source)
        pc := machine.pc + 1 }
  | .bnez source target, machine =>
      { machine with pc := if machine.reg source = 0 then machine.pc + 1 else target }
  | .j target, machine => { machine with pc := target }

/-- Outside the text the machine stays where it is. -/
def step (text : List (Instr Reg Csr)) (machine : Machine Reg Csr) : Machine Reg Csr :=
  match text[machine.pc]? with
  | some instr => exec instr machine
  | none => machine

def steps (text : List (Instr Reg Csr)) : Nat → Machine Reg Csr → Machine Reg Csr
  | 0, machine => machine
  | count + 1, machine => steps text count (step text machine)

def Instr.stores (machine : Machine Reg Csr) :
    Instr Reg Csr → List ((BitVec 32 → BitVec 32) → BitVec 32 → BitVec 32)
  | .sw source offset base =>
      [fun mem => Function.update mem (machine.reg base + offset) (machine.reg source)]
  | _ => []

def storesOf (text : List (Instr Reg Csr)) :
    Nat → Machine Reg Csr → List ((BitVec 32 → BitVec 32) → BitVec 32 → BitVec 32)
  | 0, _ => []
  | count + 1, machine =>
      (match text[machine.pc]? with
        | some instr => instr.stores machine
        | none => []) ++ storesOf text count (step text machine)

theorem step_mem (text : List (Instr Reg Csr)) (machine : Machine Reg Csr) :
    (step text machine).mem = perform
      (match text[machine.pc]? with
        | some instr => instr.stores machine
        | none => []) machine.mem := by
  rw [step]
  cases text[machine.pc]? with
  | none => rfl
  | some instr => cases instr <;> rfl

theorem steps_mem (text : List (Instr Reg Csr)) (count : Nat) (machine : Machine Reg Csr) :
    (steps text count machine).mem = perform (storesOf text count machine) machine.mem := by
  induction count generalizing machine with
  | zero => rfl
  | succ count ih => rw [steps, ih, step_mem, storesOf, perform_append]

theorem steps_add (text : List (Instr Reg Csr)) (first second : Nat)
    (machine : Machine Reg Csr) :
    steps text (first + second) machine = steps text second (steps text first machine) := by
  induction first generalizing machine with
  | zero => rw [Nat.zero_add, steps]
  | succ first ih => rw [Nat.succ_add, steps, steps, ih]

theorem storesOf_add (text : List (Instr Reg Csr)) (first second : Nat)
    (machine : Machine Reg Csr) :
    storesOf text (first + second) machine =
      storesOf text first machine ++ storesOf text second (steps text first machine) := by
  induction first generalizing machine with
  | zero => rw [Nat.zero_add, storesOf, steps, List.nil_append]
  | succ first ih => rw [Nat.succ_add, storesOf, storesOf, steps, ih, List.append_assoc]

/-- What a part of a run leaves in memory, the first stores of the whole run leave. -/
theorem steps_interrupted (text : List (Instr Reg Csr)) {count total : Nat}
    (part : count ≤ total) (machine : Machine Reg Csr) :
    ∃ stored, (steps text count machine).mem =
      interrupted (storesOf text total machine) stored machine.mem := by
  obtain ⟨more, rfl⟩ := Nat.exists_eq_add_of_le part
  refine ⟨(storesOf text count machine).length, ?_⟩
  rw [steps_mem, storesOf_add, interrupted, List.take_left]

theorem steps_halted {text : List (Instr Reg Csr)} {machine : Machine Reg Csr}
    (outside : text.length ≤ machine.pc) (count : Nat) : steps text count machine = machine := by
  have still : step text machine = machine := by
    rw [step, List.getElem?_eq_none outside]
  induction count with
  | zero => rfl
  | succ count ih => rw [steps, still, ih]

theorem steps_of_halted {text : List (Instr Reg Csr)} {machine : Machine Reg Csr} {count : Nat}
    (outside : text.length ≤ (steps text count machine).pc) {more : Nat} (longer : count ≤ more) :
    steps text more machine = steps text count machine := by
  obtain ⟨rest, rfl⟩ := Nat.exists_eq_add_of_le longer
  rw [steps_add, steps_halted outside]

/-- An assertion that every instruction keeps where it stands holds at every place. -/
theorem steps_invariant {text : List (Instr Reg Csr)} {holds : Machine Reg Csr → Prop}
    (kept : ∀ machine instr, text[machine.pc]? = some instr → holds machine →
      holds (exec instr machine))
    (count : Nat) {machine : Machine Reg Csr} (initial : holds machine) :
    holds (steps text count machine) := by
  induction count generalizing machine with
  | zero => exact initial
  | succ count ih =>
      rw [steps]
      apply ih
      rw [step]
      cases fetched : text[machine.pc]? with
      | none => exact initial
      | some instr => exact kept machine instr fetched initial

end

end RegisterMachine
