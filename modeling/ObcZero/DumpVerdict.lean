import ObcZero.DumpRead

/-! The exit status of `harness/runner/trace_check.py` over the dumps of one window of the
executive, or of two. -/

namespace ObcZero

open StepSystem

namespace DumpText

/-- How the script ends: with a report, or by an exception that nothing catches. -/
inductive TraceOutcome
  | report (shown : TraceReport)
  | raised (error : DumpError)
  | dividedByZero
  deriving DecidableEq, Repr

def TraceOutcome.status : TraceOutcome → Nat
  | .report shown => shown.status
  | .raised _ => 1
  | .dividedByZero => 1

def traceCheck (first : List Char) (second : Option (List Char)) : TraceOutcome :=
  match parseDump first with
  | .error error => .raised error
  | .ok dump =>
      match checkSuspensions dump with
      | none => .dividedByZero
      | some _ =>
          match second.mapM parseDump with
          | .error error => .raised error
          | .ok other => (traceReport dump other).elim .dividedByZero .report

section

variable {table : List ObcTask}

theorem figures_hostTask {row : ObcTask} {index : Nat} {first second : ObcTaskState} :
    ((hostTask row index first).runs = (hostTask row index second).runs ∧
      (hostTask row index first).overruns = (hostTask row index second).overruns ∧
      (hostTask row index first).maxInstr = (hostTask row index second).maxInstr) ↔
        first = second := by
  obtain ⟨runs, overruns, maxInstr⟩ := first
  simp only [hostTask, Int.natCast_inj, ← BitVec.toNat_eq]
  constructor
  · rintro ⟨rfl, rfl, rfl⟩
    rfl
  · rintro rfl
    exact ⟨rfl, rfl, rfl⟩

theorem sameFigures_hostDumpOf (table : List ObcTask) (first second : ExecState) :
    SameFigures (hostDumpOf table first) (hostDumpOf table second) ↔
      first.trace = second.trace ∧
        ∀ index < table.length, first.taskState index = second.taskState index := by
  have traces : (hostDumpOf table first).trace = (hostDumpOf table second).trace ↔
      first.trace = second.trace :=
    List.map_inj_right fun _ _ same => BitVec.eq_of_toNat_eq (Int.natCast_inj.mp same)
  have tasks : (hostDumpOf table first).tasks.zip (hostDumpOf table second).tasks =
      table.zipIdx.map fun entry => (hostTask entry.1 entry.2 (first.taskState entry.2),
        hostTask entry.1 entry.2 (second.taskState entry.2)) := List.zip_map'
  have each : (∀ pair ∈ (hostDumpOf table first).tasks.zip (hostDumpOf table second).tasks,
      pair.1.runs = pair.2.runs ∧ pair.1.overruns = pair.2.overruns ∧
        pair.1.maxInstr = pair.2.maxInstr) ↔
          ∀ index < table.length, first.taskState index = second.taskState index := by
    rw [tasks, List.forall_mem_map]
    constructor
    · intro all index inside
      have entry : (table[index], index) ∈ table.zipIdx :=
        List.mem_zipIdx_iff_getElem?.mpr (List.getElem?_eq_getElem inside)
      exact figures_hostTask.mp (all _ entry)
    · intro all entry member
      have found := List.mem_zipIdx_iff_getElem?.mp member
      exact figures_hostTask.mpr (all entry.2 (List.getElem?_eq_some_iff.mp found).1)
  rw [← traces, ← each]
  exact ⟨fun same => ⟨same.trace, same.tasks⟩, fun both => ⟨both.1, both.2⟩⟩

theorem status_traceCheck {first : List Char} {second : Option (List Char)} {dump : HostDump}
    {other : Option HostDump} (read : parseDump first = .ok dump)
    (told : checkSuspensions dump ≠ none) (parsed : second.mapM parseDump = .ok other) :
    (traceCheck first second).status = 0 ∧
        (Conformant dump ∧ ∀ compared ∈ other, SameFigures dump compared) ∨
      (traceCheck first second).status = 1 ∧
        ¬(Conformant dump ∧ ∀ compared ∈ other, SameFigures dump compared) := by
  have verdict := traceReport_status dump other
  have returns := traceReport_returns told other
  obtain ⟨reports, all⟩ := Option.ne_none_iff_exists'.mp told
  simp only [traceCheck, read, all, parsed]
  cases shown : traceReport dump other with
  | none => simp [shown] at returns
  | some report =>
      simp only [shown, Option.map_some, Option.some.injEq] at verdict returns
      simp only [Option.elim_some, TraceOutcome.status]
      rcases returns with zero | one
      · exact .inl ⟨zero, verdict.mp zero⟩
      · exact .inr ⟨one, fun good => by simp [verdict.mpr good] at one⟩

/-- The texts of two windows, the second one left out or not, either cut short anywhere. The
script ends with zero exactly when both are whole but perhaps for the last newline, the first
window dispatched what the host expects of its dump with no suspension due past its end, and
the second one dispatched the same with the same figures. -/
theorem dump_verdict (plain : ∀ row ∈ table, PlainName row.name.toList)
    (short : ShortPeriods table) (mode : ModeState) (boot : ObcBootRecord)
    (inputs : List ExecInput)
    (returned : (run (execStep table) inputs
      (freshExec obcSchedWindowFrames mode boot)).phase = .returned .ok)
    (count : Nat) (second : Option (ExecState × Nat)) :
    let final := run (execStep table) inputs (freshExec obcSchedWindowFrames mode boot)
    (traceCheck ((dumpText table final).take count)
        (second.map fun other => (dumpText table other.1).take other.2)).status =
      if (dumpText table final).length ≤ count + 1 ∧
          final.trace.map BitVec.toNat = expectedTrace (dumpOf table final) ∧
          (∀ entry ∈ final.suspensions, entry.frame.toNat < obcSchedWindowFrames.toNat) ∧
          ∀ other ∈ second, (dumpText table other.1).length ≤ other.2 + 1 ∧
            final.trace = other.1.trace ∧
            ∀ index < table.length, final.taskState index = other.1.taskState index
        then 0 else 1 := by
  intro final
  have conformant := window_conformant short mode boot inputs returned
  have told : checkSuspensions (hostDumpOf table final) ≠ none :=
    window_suspensions short mode boot inputs
  obtain ⟨reports, all⟩ := Option.ne_none_iff_exists'.mp told
  by_cases whole : (dumpText table final).length ≤ count + 1
  swap
  · have read := (parseDump_take plain final count).trans (if_pos (by omega))
    rw [if_neg (fun all => whole all.1), traceCheck, read]
    rfl
  have read := (parseDump_take plain final count).trans (if_neg (by omega))
  cases second with
  | none =>
      have parsed : (none : Option (List Char)).mapM parseDump = .ok none := rfl
      rcases status_traceCheck read told parsed with ⟨zero, good, _⟩ | ⟨one, bad⟩
      · rw [if_pos ⟨whole, (conformant.mp good).1, (conformant.mp good).2, by simp⟩]
        exact zero
      · rw [if_neg fun all => bad ⟨conformant.mpr ⟨all.2.1, all.2.2.1⟩, by simp⟩]
        exact one
  | some other =>
      have compared := parseDump_take plain other.1 other.2
      by_cases same : (dumpText table other.1).length ≤ other.2 + 1
      swap
      · rw [if_neg fun all => same (all.2.2.2 other rfl).1]
        rw [if_pos (by omega)] at compared
        obtain ⟨reports, all⟩ := Option.ne_none_iff_exists'.mp told
        simp only [traceCheck, read, all, Option.map_some, Option.mapM_some, compared]
        rfl
      rw [if_neg (by omega)] at compared
      have parsed : (some ((dumpText table other.1).take other.2)).mapM parseDump =
          .ok (some (hostDumpOf table other.1)) := by
        rw [Option.mapM_some, compared]
        rfl
      have figures := sameFigures_hostDumpOf table final other.1
      rcases status_traceCheck read told parsed with ⟨zero, good, agree⟩ | ⟨one, bad⟩
      · have both := figures.mp (agree _ rfl)
        rw [if_pos ⟨whole, (conformant.mp good).1, (conformant.mp good).2, by
          rintro _ ⟨⟩
          exact ⟨same, both⟩⟩]
        exact zero
      · rw [if_neg fun all => bad ⟨conformant.mpr ⟨all.2.1, all.2.2.1⟩, by
          rintro _ ⟨⟩
          exact figures.mpr (all.2.2.2 other rfl).2⟩]
        exact one

end

theorem obcTaskTable_short : ShortPeriods obcTaskTable := by
  unfold ShortPeriods
  decide

def punctualWindow : ExecState :=
  run (execStep obcTaskTable) (punctualRun (List.replicate 16 [0, 0, 0, 0, 0]))
    (freshExec obcSchedWindowFrames (executiveState uneventfulBoot coldMode) coldBootRecord)

theorem dump_verdict_punctual :
    (traceCheck ((dumpText obcTaskTable punctualWindow).take 5000)
        ((some (punctualWindow, 5000)).map fun other =>
          (dumpText obcTaskTable other.1).take other.2)).status = 0 ∧
      (traceCheck ((dumpText obcTaskTable punctualWindow).take 5000)
        ((some (punctualWindow, 500)).map fun other =>
          (dumpText obcTaskTable other.1).take other.2)).status = 1 := by
  have returned : punctualWindow.phase = .returned .ok := by decide +kernel
  have verdict := dump_verdict obcTaskTable_plain obcTaskTable_short _ _ _ returned 5000
  constructor
  · exact (verdict (some (punctualWindow, 5000))).trans (if_pos (by decide +kernel))
  · exact (verdict (some (punctualWindow, 500))).trans (if_neg (by decide +kernel))

end DumpText

end ObcZero
