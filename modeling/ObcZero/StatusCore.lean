import Mathlib

/-! The machine words of the flight code, the status its fallible functions
return (`flight/core/status.h`) and the size of its tables of tasks
(`flight/core/sched.h`). -/

namespace ObcZero

abbrev U8 := BitVec 8
abbrev U16 := BitVec 16
abbrev U32 := BitVec 32
abbrev U64 := BitVec 64

abbrev obcMaxTasks : Nat := 8

inductive ObcStatus
  | ok
  | errTimeout
  | errInvalid
  | errUnstable
  deriving DecidableEq, Repr

/-- A wrapping counter of 32 bits says how often it was raised for as long as
that fits. -/
theorem counter_exact_iff (raised : Nat) :
    (BitVec.ofNat 32 raised).toNat = raised ↔ raised < 2 ^ 32 := by
  rw [BitVec.toNat_ofNat]
  exact Nat.mod_eq_iff_lt (by decide)

end ObcZero
