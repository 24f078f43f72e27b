import Mathlib

/-!
Memory written by a sequence of stores that a reset may cut short. `perform`
makes every store, `interrupted` only the first few, and the lemmas say which
part of a composed sequence an interruption lands in and what no store of a
sequence can change. A sequence is untorn to a reader who, after any
interruption, believes what he believed before it or nothing.
-/

namespace StoreSequence

variable {Memory View Belief : Type*}

def perform (stores : List (Memory → Memory)) (memory : Memory) : Memory :=
  stores.foldl (fun current store => store current) memory

def interrupted (stores : List (Memory → Memory)) (count : Nat) (memory : Memory) : Memory :=
  perform (stores.take count) memory

@[simp] theorem perform_nil (memory : Memory) : perform [] memory = memory := rfl

@[simp] theorem perform_cons (store : Memory → Memory) (rest : List (Memory → Memory))
    (memory : Memory) : perform (store :: rest) memory = perform rest (store memory) := rfl

theorem perform_append (first second : List (Memory → Memory)) (memory : Memory) :
    perform (first ++ second) memory = perform second (perform first memory) := by
  simp [perform, List.foldl_append]

theorem interrupted_complete {stores : List (Memory → Memory)} {count : Nat}
    (enough : stores.length ≤ count) (memory : Memory) :
    interrupted stores count memory = perform stores memory := by
  rw [interrupted, List.take_of_length_le enough]

theorem interrupted_append_first {first second : List (Memory → Memory)} {count : Nat}
    (within : count ≤ first.length) (memory : Memory) :
    interrupted (first ++ second) count memory = interrupted first count memory := by
  rw [interrupted, List.take_append_of_le_length within, interrupted]

theorem interrupted_append_second {first second : List (Memory → Memory)} {count : Nat}
    (beyond : first.length ≤ count) (memory : Memory) :
    interrupted (first ++ second) count memory =
      interrupted second (count - first.length) (perform first memory) := by
  rw [interrupted, List.take_append, List.take_of_length_le beyond, perform_append, interrupted]

theorem interrupted_proper {stores : List (Memory → Memory)} {count : Nat}
    (proper : count < stores.length) (memory : Memory) :
    interrupted stores count memory = interrupted stores.dropLast count memory := by
  rw [interrupted, interrupted, List.dropLast_eq_take, List.take_take,
    Nat.min_eq_left (Nat.le_sub_one_of_lt proper)]

theorem perform_unchanged (view : Memory → View) {stores : List (Memory → Memory)}
    (untouched : ∀ store ∈ stores, ∀ memory, view (store memory) = view memory)
    (memory : Memory) : view (perform stores memory) = view memory := by
  induction stores generalizing memory with
  | nil => rfl
  | cons store rest ih =>
      rw [perform_cons, ih (fun other member => untouched other (by simp [member])),
        untouched store (by simp)]

theorem interrupted_unchanged (view : Memory → View) {stores : List (Memory → Memory)}
    (untouched : ∀ store ∈ stores, ∀ memory, view (store memory) = view memory)
    (count : Nat) (memory : Memory) :
    view (interrupted stores count memory) = view memory :=
  perform_unchanged view
    (fun store member => untouched store (List.mem_of_mem_take member)) memory

/-- Where every store shows in a view as the store beside it, so does every
interruption. -/
theorem interrupted_view (view : Memory → View) {stores : List (Memory → Memory)}
    {shown : List (View → View)}
    (shows : List.Forall₂ (fun store seen => ∀ memory, view (store memory) = seen (view memory))
      stores shown) (count : Nat) (memory : Memory) :
    view (interrupted stores count memory) = interrupted shown count (view memory) := by
  induction shows generalizing count memory with
  | nil => simp [interrupted]
  | cons same _ ih =>
      cases count with
      | zero => rfl
      | succ count =>
          rw [interrupted, interrupted, List.take_succ_cons, List.take_succ_cons, perform_cons,
            perform_cons, ← same]
          exact ih count _

theorem perform_keeps {holds : Memory → Prop} {stores : List (Memory → Memory)}
    (kept : ∀ store ∈ stores, ∀ memory, holds memory → holds (store memory)) {memory : Memory}
    (initial : holds memory) : holds (perform stores memory) := by
  induction stores generalizing memory with
  | nil => exact initial
  | cons store rest ih =>
      exact ih (fun later member => kept later (List.mem_cons_of_mem _ member))
        (kept store List.mem_cons_self memory initial)

theorem interrupted_keeps {holds : Memory → Prop} {stores : List (Memory → Memory)}
    (kept : ∀ store ∈ stores, ∀ memory, holds memory → holds (store memory)) (count : Nat)
    {memory : Memory} (initial : holds memory) : holds (interrupted stores count memory) :=
  perform_keeps (fun store member => kept store (List.mem_of_mem_take member)) initial

def Untorn (believed : Memory → Option Belief) (stores : List (Memory → Memory))
    (memory : Memory) : Prop :=
  ∀ count < stores.length,
    believed (interrupted stores count memory) = none ∨
      believed (interrupted stores count memory) = believed memory

theorem untorn_view {view : Memory → View} {stores : List (Memory → Memory)}
    {shown : List (View → View)}
    (shows : List.Forall₂ (fun store seen => ∀ memory, view (store memory) = seen (view memory))
      stores shown) (believed : View → Option Belief) (memory : Memory) :
    Untorn (fun memory => believed (view memory)) stores memory ↔
      Untorn believed shown (view memory) := by
  simp only [Untorn, interrupted_view view shows, shows.length_eq]

/-- The commit order: the first of the stores a reader can see takes back what makes the
record believable, and nothing but the last gives it again. -/
theorem untorn_of_commit {believed : Memory → Option Belief} (revoked : Memory → Prop)
    (before written : List (Memory → Memory))
    (unread : ∀ store ∈ before, ∀ memory, believed (store memory) = believed memory)
    (revokes : ∀ store ∈ written.head?, ∀ memory, revoked (store memory))
    (kept : ∀ store ∈ written.dropLast, ∀ memory, revoked memory → revoked (store memory))
    (rejected : ∀ memory, revoked memory → believed memory = none) (memory : Memory) :
    Untorn believed (before ++ written) memory := by
  intro count proper
  rcases Nat.lt_or_ge before.length count with inside | early
  · left
    obtain ⟨stored, rfl⟩ := Nat.exists_eq_add_of_lt inside
    have landed : before.length + stored + 1 - before.length = stored + 1 := by omega
    rw [interrupted_append_second inside.le, landed]
    cases written with
    | nil =>
        simp only [List.append_nil] at proper
        omega
    | cons revoke rest =>
        simp only [List.length_append, List.length_cons] at proper
        have short : stored + 1 ≤ rest.length := by omega
        have uncommitted : ∀ store ∈ rest.take stored, store ∈ (revoke :: rest).dropLast := by
          intro store member
          have nonempty : rest ≠ [] := List.ne_nil_of_length_pos (by omega)
          rw [List.dropLast_cons_of_ne_nil nonempty, List.dropLast_eq_take]
          exact List.mem_cons_of_mem _ (List.take_subset_take_left rest (by omega) member)
        rw [interrupted, List.take_succ_cons, perform_cons]
        exact rejected _ (perform_keeps (fun store member => kept store (uncommitted store member))
          (revokes revoke rfl _))
  · right
    rw [interrupted_append_first early, interrupted_unchanged believed unread]

end StoreSequence
