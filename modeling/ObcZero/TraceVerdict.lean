import ObcZero.TraceCheckCore

/-!
The checks the host makes of a dump of the executive (`harness/runner/trace_check.py`),
over the integers it reads, and what a dump that passes them all says.
-/

namespace ObcZero

structure HostTask where
  index : Int
  name : List Char
  periodFrames : Int
  budgetInstr : Int
  essential : Bool
  runs : Int
  overruns : Int
  maxInstr : Int
  deriving DecidableEq, Repr

structure HostSuspension where
  index : Int
  task : Int
  frame : Int
  deriving DecidableEq, Repr

structure HostDump where
  windowFrames : Int
  frameTicks : Int
  framesRun : Int
  traceLen : Int
  traceOverflow : Int
  frameOverruns : Int
  slackMin : Int
  mode : Int
  safeReason : Int
  safeEntryFrame : Int
  suspensionOverflow : Int
  suspensions : List HostSuspension
  windowStart : Int
  windowEnd : Int
  tasks : List HostTask
  trace : List Int
  deriving DecidableEq, Repr

/-- One of the checker's messages, with what it quotes. -/
inductive TraceFailure
  | traceOverflowed (dispatches : Int)
  | framesRun (ran window : Int)
  | span (spanned dictated frames ticks : Int)
  | count (name : List Char) (runs dictated : Int)
  | length (dispatches dictated : Nat)
  | diverges (position : Nat) (got want : Int)
  | suspensionsOverflowed (entries : Int)
  | unknownTask (index task : Int)
  | outsideWindow (index frame window : Int)
  | notDue (index : Int) (name : List Char) (frame : Int)
  | sequencesDiffer (position : Nat) (first second : Int)
  | lengthsDiffer (first second : Nat)
  | figuresDiffer (first second : HostTask)
  deriving DecidableEq, Repr

/-- A name between single quotes, as `repr` shows one that has none of its own. -/
def quoted (name : List Char) : String := "'" ++ String.ofList name ++ "'"

def TraceFailure.text : TraceFailure → String
  | .traceOverflowed dispatches =>
      s!"trace overflowed by {dispatches} dispatches, so the sequence compared below is truncated " ++
        "and proves nothing"
  | .framesRun ran window => s!"ran {ran} frames, the window is {window}"
  | .span spanned dictated frames ticks =>
      s!"the window spanned {spanned} ticks, the table dictates exactly {dictated} " ++
        s!"({frames} frames x {ticks} ticks) — the frames were not waited out"
  | .count name runs dictated =>
      s!"task {quoted name} ran {runs} times, the table dictates exactly {dictated}"
  | .length dispatches dictated =>
      s!"trace has {dispatches} dispatches, the table dictates {dictated}"
  | .diverges position got want =>
      s!"trace diverges at dispatch {position}: got task {got}, the table dictates task {want}"
  | .suspensionsOverflowed entries =>
      s!"the suspension log overflowed by {entries}, so some withheld dispatches are unannounced " ++
        "and would read as dropped"
  | .unknownTask index task =>
      s!"suspension {index} names task {task}, which is not in the table"
  | .outsideWindow index frame window =>
      s!"suspension {index} names frame {frame}, outside the {window}-frame window"
  | .notDue index name frame =>
      s!"suspension {index} claims task {quoted name} was withheld in frame {frame}, where it was " ++
        "not due — an announcement with no gap behind it"
  | .sequencesDiffer position first second =>
      s!"dispatch sequences differ at position {position}: {first} then {second}"
  | .lengthsDiffer first second =>
      s!"dispatch sequences differ in length: {first} then {second}"
  | .figuresDiffer first second =>
      s!"task {quoted first.name} differs between runs: runs {first.runs}/{second.runs}, " ++
        s!"overruns {first.overruns}/{second.overruns}, " ++
        s!"max instructions {first.maxInstr}/{second.maxInstr}"

/-- The body of the inner loop of `expected_trace`: whether it appends the task. -/
def HostDump.expects (dump : HostDump) (frame : Int) (task : HostTask) : Bool :=
  let degraded := dump.safeEntryFrame ≠ safeEntryNone ∧ frame > dump.safeEntryFrame
  if task.periodFrames = 0 then false
  else if degraded ∧ !task.essential then false
  else if frame.fmod task.periodFrames ≠ 0 then false
  else if (frame, task.index) ∈ dump.suspensions.map fun entry => (entry.frame, entry.task) then
    false
  else true

def HostDump.expectedTrace (dump : HostDump) : List Int :=
  (List.range dump.windowFrames.toNat).flatMap fun frame : Nat =>
    (dump.tasks.filter (dump.expects frame)).map HostTask.index

/-- `(window_end - window_start) & 0xFFFFFFFF`. -/
def HostDump.span (dump : HostDump) : Int := (dump.windowEnd - dump.windowStart) % 2 ^ 32

def reportIf (failed : Prop) [Decidable failed] (failure : TraceFailure) : List TraceFailure :=
  if failed then [failure] else []

def HostDump.dictated (dump : HostDump) (index : Int) : Int := dump.expectedTrace.count index

def checkConformance (dump : HostDump) : List TraceFailure :=
  reportIf (dump.traceOverflow ≠ 0) (.traceOverflowed dump.traceOverflow) ++
    reportIf (dump.framesRun ≠ dump.windowFrames) (.framesRun dump.framesRun dump.windowFrames) ++
    reportIf (dump.span ≠ dump.windowFrames * dump.frameTicks)
      (.span dump.span (dump.windowFrames * dump.frameTicks) dump.windowFrames dump.frameTicks) ++
    dump.tasks.flatMap fun task =>
      reportIf (task.runs ≠ dump.dictated task.index)
        (.count task.name task.runs (dump.dictated task.index))

/-- The first position at which two sequences differ, as far as both go. -/
def firstDifference (position : Nat) : List Int → List Int → Option (Nat × Int × Int)
  | got :: later, want :: rest =>
      if got ≠ want then some (position, got, want) else firstDifference (position + 1) later rest
  | _, _ => none

def checkOrder (dump : HostDump) : List TraceFailure :=
  let expected := dump.expectedTrace
  if dump.trace = expected then []
  else if dump.trace.length ≠ expected.length then
    [.length dump.trace.length expected.length]
  else
    match firstDifference 0 dump.trace expected with
    | some (position, got, want) => [.diverges position got want]
    | none => []

/-- What one turn of the loop reports; a period of zero raises `ZeroDivisionError`. -/
def checkSuspension (dump : HostDump) (suspension : HostSuspension) : Option (List TraceFailure) :=
  match dump.tasks.find? fun task => task.index == suspension.task with
  | none => some [.unknownTask suspension.index suspension.task]
  | some task =>
      if suspension.frame ≥ dump.windowFrames then
        some [.outsideWindow suspension.index suspension.frame dump.windowFrames]
      else if task.periodFrames = 0 then none
      else some (reportIf (suspension.frame.fmod task.periodFrames ≠ 0)
        (.notDue suspension.index task.name suspension.frame))

def checkSuspensions (dump : HostDump) : Option (List TraceFailure) := do
  let reports ← dump.suspensions.mapM (checkSuspension dump)
  return reportIf (dump.suspensionOverflow ≠ 0) (.suspensionsOverflowed dump.suspensionOverflow) ++
    reports.flatten

def checkBudgets (dump : HostDump) : List String :=
  dump.tasks.filterMap fun task =>
    if task.overruns ≠ 0 then
      some (s!"task {quoted task.name} overran {task.overruns} times " ++
        s!"(worst {task.maxInstr} of {task.budgetInstr} instructions)")
    else none

def compareTraces (first second : List Int) : List TraceFailure :=
  if first = second then []
  else
    match firstDifference 0 first second with
    | some (position, got, want) => [.sequencesDiffer position got want]
    | none => [.lengthsDiffer first.length second.length]

def compareRuns (first second : HostDump) : List TraceFailure :=
  compareTraces first.trace second.trace ++
    (first.tasks.zip second.tasks).flatMap fun pair =>
      reportIf ((pair.1.runs, pair.1.overruns, pair.1.maxInstr) ≠
        (pair.2.runs, pair.2.overruns, pair.2.maxInstr)) (.figuresDiffer pair.1 pair.2)

def traceFailures (first : HostDump) (second : Option HostDump) : Option (List TraceFailure) := do
  let suspensions ← checkSuspensions first
  return checkConformance first ++ checkOrder first ++ suspensions ++
    second.elim [] (compareRuns first)

structure TraceReport where
  lines : List String
  status : Nat
  deriving DecidableEq, Repr

/-- `main`, from the dumps it has parsed on: the lines it prints and its exit status. -/
def traceReport (first : HostDump) (second : Option HostDump) : Option TraceReport := do
  let failures ← traceFailures first second
  let notes := (checkBudgets first).map ("  note: " ++ ·)
  if failures ≠ [] then
    return { lines := notes ++ "FAIL" :: failures.map fun failure => "  " ++ failure.text
             status := 1 }
  else
    return {
      lines := notes ++
        [s!"  {first.framesRun} frames, {first.traceLen} dispatches, {first.span} ticks spanned, " ++
          "order and counts match the table"] ++
        if second.isSome then ["  two runs produced identical traces and instruction counts"]
        else []
      status := 0 }

/-- A suspension of a task in the table, inside the window, where the task was due. -/
def AnnouncedDue (dump : HostDump) (suspension : HostSuspension) : Prop :=
  ∃ task, (dump.tasks.find? fun task => task.index == suspension.task) = some task ∧
    suspension.frame < dump.windowFrames ∧ task.periodFrames ≠ 0 ∧
    suspension.frame.fmod task.periodFrames = 0

/-- What the checks together ask of one dump. -/
structure Conformant (dump : HostDump) : Prop where
  complete : dump.traceOverflow = 0
  frames : dump.framesRun = dump.windowFrames
  span : dump.span = dump.windowFrames * dump.frameTicks
  counts : ∀ task ∈ dump.tasks, task.runs = dump.dictated task.index
  order : dump.trace = dump.expectedTrace
  announced : dump.suspensionOverflow = 0
  due : ∀ suspension ∈ dump.suspensions, AnnouncedDue dump suspension

structure SameFigures (first second : HostDump) : Prop where
  trace : first.trace = second.trace
  tasks : ∀ pair ∈ first.tasks.zip second.tasks, pair.1.runs = pair.2.runs ∧
    pair.1.overruns = pair.2.overruns ∧ pair.1.maxInstr = pair.2.maxInstr

theorem reportIf_eq_nil {failed : Prop} [Decidable failed] {failure : TraceFailure} :
    reportIf failed failure = [] ↔ ¬failed := by
  rw [reportIf]
  split
  · rename_i holds
    simp [holds]
  · rename_i holds
    simp [holds]

theorem firstDifference_eq_none {first second : List Int} (position : Nat)
    (same : first.length = second.length) :
    firstDifference position first second = none ↔ first = second := by
  induction first generalizing second position with
  | nil =>
      rw [List.eq_nil_of_length_eq_zero same.symm]
      simp [firstDifference]
  | cons got later ih =>
      cases second with
      | nil => cases same
      | cons want rest =>
          rw [firstDifference]
          by_cases differ : got = want
          · rw [if_neg (not_not.mpr differ), ih _ (Nat.succ.inj same), differ, List.cons.injEq]
            simp
          · rw [if_pos differ]
            simp [differ]

theorem checkOrder_eq_nil (dump : HostDump) :
    checkOrder dump = [] ↔ dump.trace = dump.expectedTrace := by
  rw [checkOrder]
  by_cases same : dump.trace = dump.expectedTrace
  · simp [same]
  rw [if_neg same]
  by_cases length : dump.trace.length = dump.expectedTrace.length
  · rw [if_neg (not_not.mpr length)]
    have differs := mt (firstDifference_eq_none 0 length).mp same
    obtain ⟨found, shown⟩ := Option.ne_none_iff_exists'.mp differs
    rw [shown]
    simp [same]
  · rw [if_pos length]
    simp [same]

theorem checkConformance_eq_nil (dump : HostDump) :
    checkConformance dump = [] ↔ dump.traceOverflow = 0 ∧ dump.framesRun = dump.windowFrames ∧
      dump.span = dump.windowFrames * dump.frameTicks ∧
      ∀ task ∈ dump.tasks, task.runs = dump.dictated task.index := by
  simp only [checkConformance, List.append_eq_nil_iff, reportIf_eq_nil, not_not,
    List.flatMap_eq_nil_iff, and_assoc]

theorem checkSuspension_eq_nil (dump : HostDump) (suspension : HostSuspension) :
    checkSuspension dump suspension = some [] ↔ AnnouncedDue dump suspension := by
  rw [checkSuspension, AnnouncedDue]
  cases found : dump.tasks.find? fun task => task.index == suspension.task with
  | none => simp
  | some task =>
      dsimp only
      by_cases outside : suspension.frame ≥ dump.windowFrames
      · rw [if_pos outside]
        constructor
        · intro reported
          cases reported
        · rintro ⟨_, _, inside, _⟩
          omega
      rw [if_neg outside]
      have inside : suspension.frame < dump.windowFrames := by omega
      by_cases period : task.periodFrames = 0
      · rw [if_pos period]
        constructor
        · intro reported
          cases reported
        · rintro ⟨_, ⟨⟩, _, positive, _⟩
          exact absurd period positive
      rw [if_neg period, Option.some.injEq, reportIf_eq_nil, not_not]
      constructor
      · exact fun due => ⟨task, rfl, inside, period, due⟩
      · rintro ⟨_, ⟨⟩, _, _, due⟩
        exact due

theorem mapM_eq_some {Source Row : Type} {read : Source → Option Row} {sources : List Source}
    {rows : List Row} : sources.mapM read = some rows ↔ List.Forall₂ (fun source row =>
      read source = some row) sources rows := by
  induction sources generalizing rows with
  | nil => cases rows <;> simp
  | cons source rest ih =>
      cases first : read source with
      | none => cases rows <;> simp [first]
      | some row =>
          cases later : rest.mapM read with
          | none =>
              have never : ∀ rows, ¬List.Forall₂ (fun source row => read source = some row) rest
                  rows := fun rows all => by simp [ih.mpr all] at later
              cases rows <;> simp [first, later, never]
          | some read' =>
              have known : ∀ rows, List.Forall₂ (fun source row => read source = some row) rest rows ↔
                  read' = rows := fun rows => by rw [← ih, later, Option.some.injEq]
              cases rows <;> simp [first, later, known]

theorem checkSuspensions_eq_nil (dump : HostDump) :
    checkSuspensions dump = some [] ↔ dump.suspensionOverflow = 0 ∧
      ∀ suspension ∈ dump.suspensions, AnnouncedDue dump suspension := by
  have quiet : (∃ reports, dump.suspensions.mapM (checkSuspension dump) = some reports ∧
      reports.flatten = []) ↔ ∀ suspension ∈ dump.suspensions, AnnouncedDue dump suspension := by
    simp only [mapM_eq_some, List.flatten_eq_nil_iff]
    induction dump.suspensions with
    | nil => simp
    | cons suspension rest ih =>
        rw [List.forall_mem_cons, ← ih, ← checkSuspension_eq_nil]
        constructor
        · rintro ⟨_, both, empty⟩
          cases both with
          | cons first later =>
              obtain ⟨rfl, others⟩ := List.forall_mem_cons.mp empty
              exact ⟨first, _, later, others⟩
        · rintro ⟨first, reports, later, empty⟩
          exact ⟨[] :: reports, .cons first later, List.forall_mem_cons.mpr ⟨rfl, empty⟩⟩
  rw [← quiet, checkSuspensions]
  cases dump.suspensions.mapM (checkSuspension dump) with
  | none => simp
  | some reports => simp [reportIf_eq_nil]

theorem compareRuns_eq_nil (first second : HostDump) :
    compareRuns first second = [] ↔ SameFigures first second := by
  have traces : compareTraces first.trace second.trace = [] ↔ first.trace = second.trace := by
    rw [compareTraces]
    by_cases same : first.trace = second.trace
    · simp [same]
    · rw [if_neg same]
      split <;> simp [same]
  rw [compareRuns, List.append_eq_nil_iff, traces]
  simp only [List.flatMap_eq_nil_iff, reportIf_eq_nil, not_not, Prod.mk.injEq]
  exact ⟨fun both => ⟨both.1, both.2⟩, fun same => ⟨same.trace, same.tasks⟩⟩

/-- The script exits with zero on the conformant dumps, and on two that agree if it is
given two; it exits with one on the others, where it does not raise. -/
theorem traceReport_status (first : HostDump) (second : Option HostDump) :
    (traceReport first second).map TraceReport.status = some 0 ↔
      Conformant first ∧ ∀ other ∈ second, SameFigures first other := by
  have agreed : second.elim [] (compareRuns first) = [] ↔
      ∀ other ∈ second, SameFigures first other := by
    cases second with
    | none => simp
    | some other => simpa using compareRuns_eq_nil first other
  have passed : (traceReport first second).map TraceReport.status = some 0 ↔
      traceFailures first second = some [] := by
    rw [traceReport]
    cases traceFailures first second with
    | none => simp
    | some failures =>
        by_cases quiet : failures = []
        · simp [quiet]
        · simp [quiet]
  rw [passed, traceFailures, ← agreed]
  have together : Conformant first ↔ checkConformance first = [] ∧ checkOrder first = [] ∧
      checkSuspensions first = some [] := by
    rw [checkConformance_eq_nil, checkOrder_eq_nil, checkSuspensions_eq_nil]
    constructor
    · rintro ⟨complete, frames, span, counts, order, announced, due⟩
      exact ⟨⟨complete, frames, span, counts⟩, order, announced, due⟩
    · rintro ⟨⟨complete, frames, span, counts⟩, order, announced, due⟩
      exact ⟨complete, frames, span, counts, order, announced, due⟩
  rw [together]
  cases checkSuspensions first with
  | none => simp
  | some reports => simp [and_assoc]

theorem checkSuspensions_returns {dump : HostDump}
    (sound : ∀ suspension ∈ dump.suspensions, checkSuspension dump suspension ≠ none) :
    checkSuspensions dump ≠ none := by
  have reports : ∃ reports, dump.suspensions.mapM (checkSuspension dump) = some reports := by
    simp only [mapM_eq_some]
    generalize dump.suspensions = suspensions at sound
    induction suspensions with
    | nil => exact ⟨[], .nil⟩
    | cons suspension rest ih =>
        obtain ⟨first, others⟩ := List.forall_mem_cons.mp sound
        obtain ⟨report, found⟩ := Option.ne_none_iff_exists'.mp first
        obtain ⟨later, all⟩ := ih others
        exact ⟨report :: later, .cons found all⟩
  obtain ⟨reports, all⟩ := reports
  rw [checkSuspensions, all]
  exact Option.some_ne_none _

/-- Where no suspension makes the script raise, it exits with zero or with one. -/
theorem traceReport_returns {dump : HostDump} (sound : checkSuspensions dump ≠ none)
    (second : Option HostDump) :
    (traceReport dump second).map TraceReport.status = some 0 ∨
      (traceReport dump second).map TraceReport.status = some 1 := by
  obtain ⟨reports, all⟩ := Option.ne_none_iff_exists'.mp sound
  simp only [traceReport, traceFailures, all, Option.bind_eq_bind, Option.bind_some,
    Option.pure_def]
  split
  · exact .inr rfl
  · exact .inl rfl

end ObcZero
