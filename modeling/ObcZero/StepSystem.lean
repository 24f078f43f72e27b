import Mathlib

/-!
Runs of a system that consumes one input at a time. `run` folds the step
function over a list of inputs, `Meets` says that every step of a run is taken
from a state that allows its input, and the invariant rules turn one step lemma
into a fact about every state a run reaches.
-/

namespace StepSystem

variable {State Input : Type*}

def run (step : Input → State → State) : List Input → State → State
  | [], state => state
  | input :: rest, state => run step rest (step input state)

def Meets (step : Input → State → State) (allowed : Input → State → Prop) :
    List Input → State → Prop
  | [], _ => True
  | input :: rest, state => allowed input state ∧ Meets step allowed rest (step input state)

instance Meets.decidable (step : Input → State → State) (allowed : Input → State → Prop)
    [allowedDecidable : ∀ input state, Decidable (allowed input state)] :
    ∀ inputs state, Decidable (Meets step allowed inputs state)
  | [], _ => isTrue trivial
  | input :: rest, state =>
      @instDecidableAnd _ _ (allowedDecidable input state)
        (Meets.decidable step allowed rest (step input state))

theorem run_append (step : Input → State → State) (first second : List Input) (start : State) :
    run step (first ++ second) start = run step second (run step first start) := by
  induction first generalizing start with
  | nil => rfl
  | cons input rest ih => exact ih (step input start)

theorem meets_append (step : Input → State → State) (allowed : Input → State → Prop)
    (first second : List Input) (start : State) :
    Meets step allowed (first ++ second) start ↔
      Meets step allowed first start ∧ Meets step allowed second (run step first start) := by
  induction first generalizing start with
  | nil => simp [Meets, run]
  | cons input rest ih => simp [Meets, run, ih, and_assoc]

theorem meets_part {step : Input → State → State} {allowed : Input → State → Prop}
    {before inputs : List Input} {start : State} (part : before <+: inputs)
    (meets : Meets step allowed inputs start) : Meets step allowed before start := by
  obtain ⟨after, rfl⟩ := part
  exact ((meets_append step allowed before after start).mp meets).1

/-- What every allowed step preserves holds at the end of every run whose steps
are all allowed. -/
theorem meets_invariant {step : Input → State → State} {allowed : Input → State → Prop}
    {invariant : State → Prop}
    (preserved : ∀ input state, allowed input state → invariant state →
      invariant (step input state))
    {inputs : List Input} {start : State} (meets : Meets step allowed inputs start)
    (initial : invariant start) : invariant (run step inputs start) := by
  induction inputs generalizing start with
  | nil => exact initial
  | cons input rest ih =>
      exact ih meets.2 (preserved input start meets.1 initial)

theorem run_invariant {step : Input → State → State} {invariant : State → Prop}
    (preserved : ∀ input state, invariant state → invariant (step input state))
    (inputs : List Input) {start : State} (initial : invariant start) :
    invariant (run step inputs start) := by
  induction inputs generalizing start with
  | nil => exact initial
  | cons input rest ih => exact ih (preserved input start initial)

theorem meets_always {step : Input → State → State} {allowed : Input → State → Prop}
    (always : ∀ input state, allowed input state) (inputs : List Input) (start : State) :
    Meets step allowed inputs start := by
  induction inputs generalizing start with
  | nil => trivial
  | cons input rest ih => exact ⟨always input start, ih (step input start)⟩

/-- The invariant rule for facts that also speak of the inputs still to come. -/
theorem meets_remaining {step : Input → State → State} {allowed : Input → State → Prop}
    {invariant : List Input → State → Prop}
    (preserved : ∀ input rest state, allowed input state → invariant (input :: rest) state →
      invariant rest (step input state))
    {inputs : List Input} {start : State} (meets : Meets step allowed inputs start)
    (initial : invariant inputs start) : invariant [] (run step inputs start) := by
  induction inputs generalizing start with
  | nil => exact initial
  | cons input rest ih =>
      exact ih meets.2 (preserved input rest start meets.1 initial)

/-- Two runs of one system in step. The second run sees only some of the inputs, and
those it does not see leave it where it is. -/
theorem meets_related {step : Input → State → State} {allowed : Input → State → Prop}
    {seen : Input → Bool} {related : State → State → Prop}
    (inStep : ∀ input state other, allowed input state → related state other →
      related (step input state) (if seen input then step input other else other))
    {inputs : List Input} {start other : State} (meets : Meets step allowed inputs start)
    (initial : related start other) :
    related (run step inputs start) (run step (inputs.filter seen) other) := by
  induction inputs generalizing start other with
  | nil => exact initial
  | cons input rest ih =>
      have next := inStep input start other meets.1 initial
      cases sees : seen input with
      | true =>
          rw [List.filter_cons_of_pos sees]
          rw [sees, if_pos rfl] at next
          exact ih meets.2 next
      | false =>
          rw [List.filter_cons_of_neg (by simp [sees])]
          rw [sees, if_neg (by simp)] at next
          exact ih meets.2 next

/-- Some run of allowed steps leads from `start` to `target`. -/
def Reaches (step : Input → State → State) (allowed : Input → State → Prop)
    (start target : State) : Prop :=
  ∃ inputs, Meets step allowed inputs start ∧ run step inputs start = target

theorem Reaches.refl (step : Input → State → State) (allowed : Input → State → Prop)
    (state : State) : Reaches step allowed state state :=
  ⟨[], trivial, rfl⟩

theorem Reaches.single {step : Input → State → State} {allowed : Input → State → Prop}
    {input : Input} {state : State} (permitted : allowed input state) :
    Reaches step allowed state (step input state) :=
  ⟨[input], ⟨permitted, trivial⟩, rfl⟩

theorem Reaches.trans {step : Input → State → State} {allowed : Input → State → Prop}
    {start middle target : State} (first : Reaches step allowed start middle)
    (second : Reaches step allowed middle target) : Reaches step allowed start target := by
  obtain ⟨inputs, met, rfl⟩ := first
  obtain ⟨more, metMore, rfl⟩ := second
  exact ⟨inputs ++ more, (meets_append step allowed inputs more start).mpr ⟨met, metMore⟩,
    run_append step inputs more start⟩

/-- What the steps of a run emit, in the order of the steps. -/
def emissions {Event : Type*} (step : Input → State → State) (emit : Input → State → List Event) :
    List Input → State → List Event
  | [], _ => []
  | input :: rest, state => emit input state ++ emissions step emit rest (step input state)

/-- What every step keeps between a state and the emissions so far, a run keeps between
its last state and all that it has emitted. -/
theorem emissions_invariant {Event : Type*} {step : Input → State → State}
    {emit : Input → State → List Event} {holds : List Event → State → Prop}
    (kept : ∀ input past state, holds past state →
      holds (past ++ emit input state) (step input state))
    (inputs : List Input) {past : List Event} {start : State} (initial : holds past start) :
    holds (past ++ emissions step emit inputs start) (run step inputs start) := by
  induction inputs generalizing past start with
  | nil =>
      rw [emissions, List.append_nil]
      exact initial
  | cons input rest ih =>
      rw [emissions, ← List.append_assoc]
      exact ih (kept input past start initial)

/-- A part of a system that each step moves by inputs of the part's own: a run moves it by all
of these, in the order of the steps. -/
theorem run_part {Part PartInput : Type*} {step : Input → State → State} {part : State → Part}
    {partStep : PartInput → Part → Part} {feed : Input → State → List PartInput}
    (fed : ∀ input state, part (step input state) = run partStep (feed input state) (part state))
    (inputs : List Input) (start : State) :
    part (run step inputs start) = run partStep (emissions step feed inputs start) (part start) := by
  induction inputs generalizing start with
  | nil => rfl
  | cons input rest ih => rw [run, ih, fed, emissions, run_append]

/-- Two runs over inputs that are alike one by one stay related, if every step keeps them so. -/
theorem run_alike {step : Input → State → State} {alike : Input → Input → Prop}
    {related : State → State → Prop}
    (inStep : ∀ input twin state other, alike input twin → related state other →
      related (step input state) (step twin other))
    {inputs twins : List Input} (matched : List.Forall₂ alike inputs twins) {start other : State}
    (initial : related start other) : related (run step inputs start) (run step twins other) := by
  induction matched generalizing start other with
  | nil => exact initial
  | cons first _ ih => exact ih (inStep _ _ start other first initial)

end StepSystem
