import ObcZero.SchedRun

/-! The escalation ladder against the operating mode. No rung looks at the mode, so
what the ladder does from safe mode on is decided by the overruns alone. -/

namespace ObcZero

open StepSystem

def ExecEvent.belowSafe : ExecEvent → Bool
  | .suspendTask _ _ _ => true
  | .resetSubsystem _ _ => true
  | .resetNow => true
  | _ => false

/-- An overrun met by the visit is past the rungs below safe mode: it selects the
last one, and the boots have already been short too often for another reset. -/
def OnlyTopOfLadder (row : ObcTask) (index : Nat) (turn : Turn) (state : ExecState) : Prop :=
  Dispatches row index state ∧ row.budgetInstr < turn.used →
    selectRung row ((state.taskState index).overruns + 1) = obcRungResetMachine ∧
      obcShortBootLimit ≤ obcRecoverShortBoots state.boot

instance (row : ObcTask) (index : Nat) (turn : Turn) (state : ExecState) :
    Decidable (OnlyTopOfLadder row index turn state) := inferInstanceAs (Decidable (_ → _))

theorem Visit.below {row : ObcTask} {index : Nat} {turn : Turn} {state after : ExecState}
    (visit : Visit row index turn state after) :
    ∃ news, after.log = news ++ state.log ∧
      ((∀ event ∈ news, event.belowSafe = false) ↔ OnlyTopOfLadder row index turn state) := by
  cases visit with
  | skipped mode kept skip =>
      refine ⟨[_], rfl, iff_of_true (by simp [ExecEvent.belowSafe]) ?_⟩
      rintro ⟨⟨due, asked, _⟩, _⟩
      rcases skip with undue | withheld
      · exact absurd due undue
      · exact absurd withheld asked
  | suspended mode kept due asked slot =>
      refine ⟨[_], rfl, iff_of_true (by simp [ExecEvent.belowSafe]) ?_⟩
      rintro ⟨⟨_, _, free, _⟩, _⟩
      rw [slot] at free
      cases free
  | nullFunction mode kept due asked free null =>
      refine ⟨[_], rfl, iff_of_true (by simp [ExecEvent.belowSafe]) ?_⟩
      rintro ⟨⟨_, _, _, present⟩, _⟩
      rw [null] at present
      cases present
  | within mode kept taskState traceOverflow dispatches thrifty =>
      exact ⟨[_], rfl, iff_of_true (by simp [ExecEvent.belowSafe])
        fun overrun => absurd overrun.2 thrifty⟩
  | suspends mode kept taskState traceOverflow suspensionOverflow overruns =>
      refine ⟨[_, _], rfl, iff_of_false (by simp [ExecEvent.belowSafe]) fun top => ?_⟩
      have last := (top ⟨overruns.1, overruns.2.1⟩).1
      rw [overruns.2.2] at last
      cases last
  | resetsSubsystem mode kept taskState traceOverflow suspensionOverflow overruns =>
      refine ⟨[_, _], rfl, iff_of_false (by simp [ExecEvent.belowSafe]) fun top => ?_⟩
      have last := (top ⟨overruns.1, overruns.2.1⟩).1
      rw [overruns.2.2] at last
      cases last
  | entersSafe mode kept taskState traceOverflow overruns spent =>
      exact ⟨[_], rfl, iff_of_true (by simp [ExecEvent.belowSafe])
        fun _ => ⟨overruns.2.2, spent⟩⟩
  | resetsMachine mode kept taskState traceOverflow overruns unspent =>
      exact ⟨[_, _], rfl, iff_of_false (by simp [ExecEvent.belowSafe])
        fun top => unspent (top ⟨overruns.1, overruns.2.1⟩).2⟩

theorem execStep_below (table : List ObcTask) (input : ExecInput) (state : ExecState) :
    ∃ news, (execStep table input state).log = news ++ state.log ∧
      ((∀ event ∈ news, event.belowSafe = false) ↔
        AtVisit table OnlyTopOfLadder input state) := by
  cases input with
  | corrupt index copy => exact ⟨[], rfl, iff_of_true (by simp) trivial⟩
  | turn turn =>
      have free (news : List ExecEvent) (silent : ∀ event ∈ news, event.belowSafe = false)
          (elsewhere : ∀ index, state.phase ≠ .visit index) :
          (∀ event ∈ news, event.belowSafe = false) ↔
            AtVisit table OnlyTopOfLadder (.turn turn) state := by
        refine iff_of_true silent ?_
        unfold AtVisit
        dsimp only
        split
        · rename_i index phase
          exact absurd phase (elsewhere index)
        · trivial
      have told {index : Nat} {row : ObcTask} (phase : state.phase = .visit index)
          (found : table[index]? = some row) :
          AtVisit table OnlyTopOfLadder (.turn turn) state ↔
            OnlyTopOfLadder row index turn state := by
        simp only [AtVisit, phase, found]
      cases phase : state.phase with
      | start =>
          simp only [execStep, execTurn, phase]
          cases (startWindow_started table turn state).2 with
          | stopped status _ _ log =>
              exact ⟨[_, _], log, free _ (by simp [ExecEvent.belowSafe]) (by simp [phase])⟩
          | begun _ _ _ _ _ _ _ _ _ log =>
              exact ⟨[_], log, free _ (by simp [ExecEvent.belowSafe]) (by simp [phase])⟩
      | visit index =>
          simp only [execStep, execTurn, phase]
          cases visitStep_visited table index turn state with
          | past beyond passed =>
              rw [passed]
              refine ⟨[], rfl, iff_of_true (by simp) ?_⟩
              simp only [AtVisit, phase, List.getElem?_eq_none beyond]
          | reset row found visit ended =>
              rw [told phase found]
              exact visit.below
          | went row found visited visit passed =>
              rw [passed, told phase found]
              exact visit.below
      | endPass =>
          simp only [execStep, execTurn, phase]
          have pass : ∃ news, passLog table state = news ++ state.log ∧
              ∀ event ∈ news, event.belowSafe = false := by
            unfold passLog
            split
            · exact ⟨[_, _], rfl, by simp [ExecEvent.belowSafe]⟩
            · exact ⟨[_], rfl, by simp [ExecEvent.belowSafe]⟩
          obtain ⟨news, logged, silent⟩ := pass
          cases (endPassStep_ended table turn state).2.2 with
          | stopped status _ _ log =>
              rw [log, logged]
              exact ⟨.disarmHardware :: news, rfl,
                free _ (List.forall_mem_cons.mpr ⟨rfl, silent⟩) (by simp [phase])⟩
          | kept _ _ _ log =>
              rw [log, logged]
              exact ⟨news, rfl, free _ silent (by simp [phase])⟩
          | degraded _ _ _ _ log =>
              rw [log, logged]
              exact ⟨news, rfl, free _ silent (by simp [phase])⟩
      | idle guard =>
          simp only [execStep, execTurn, phase]
          cases (idleStep_idled guard turn state).2 with
          | stopped status _ _ log =>
              exact ⟨[_], log, free _ (by simp [ExecEvent.belowSafe]) (by simp [phase])⟩
          | waits next waited =>
              rw [waited]
              exact ⟨[], rfl, free _ (by simp) (by simp [phase])⟩
          | entered _ _ _ _ _ _ _ log => exact ⟨[], log, free _ (by simp) (by simp [phase])⟩
          | finished _ _ _ log =>
              exact ⟨[_], log, free _ (by simp [ExecEvent.belowSafe]) (by simp [phase])⟩
      | returned status =>
          exact ⟨[], by simp [execStep, execTurn, phase], free _ (by simp) (by simp [phase])⟩
      | reset =>
          exact ⟨[], by simp [execStep, execTurn, phase], free _ (by simp) (by simp [phase])⟩

theorem run_below (table : List ObcTask) (inputs : List ExecInput) (state : ExecState) :
    ∃ news, (run (execStep table) inputs state).log = news ++ state.log ∧
      ((∀ event ∈ news, event.belowSafe = false) ↔
        Meets (execStep table) (AtVisit table OnlyTopOfLadder) inputs state) := by
  induction inputs generalizing state with
  | nil => exact ⟨[], rfl, iff_of_true (by simp) trivial⟩
  | cons input rest ih =>
      obtain ⟨first, firstLog, firstQuiet⟩ := execStep_below table input state
      obtain ⟨later, laterLog, laterQuiet⟩ := ih (execStep table input state)
      refine ⟨later ++ first, ?_, ?_⟩
      · rw [run, laterLog, firstLog, List.append_assoc]
      · rw [Meets, ← firstQuiet, ← laterQuiet]
        simp only [List.mem_append, or_imp, forall_and]
        exact And.comm

/-- From a reachable safe state on, the ladder keeps to safe mode exactly when every
overrun that follows is past the rungs below it. -/
theorem ladder_below_safe_mode (table : List ObcTask) (frames : U32) (mode : ModeState)
    (boot : ObcBootRecord) (past : List ExecInput) :
    let state := run (execStep table) past (freshExec frames mode boot)
    (obcModeIsSafe state.mode).1 = true → ∀ inputs,
      ∃ news, (run (execStep table) inputs state).log = news ++ state.log ∧
        ((∀ event ∈ news, event.belowSafe = false) ↔
          Meets (execStep table) (AtVisit table OnlyTopOfLadder) inputs state) :=
  fun _ inputs => run_below table inputs _

/-- A boot restored safe at the limit of short boots, and housekeeping past its first rung. -/
def lastShortBoot : ObcBootRecord :=
  { magic := obcBootMagic, checksum := obcBootChecksumSeed ^^^ 5 ^^^ 0x9E3779B9, shortBoots := 5
    inProgress := 1 }

def pastFirstRung : ExecState :=
  run (execStep obcTaskTable) (punctualRun [[1001, 0, 0, 0, 0], [0, 0, 0, 0, 0]])
    (freshExec 3 (executiveState { uneventfulBoot with previousResetCause := obcResetTrap } coldMode)
      lastShortBoot)

theorem flight_ladder_below_safe_mode :
    let final := run (execStep obcTaskTable) (punctualFrame [1001, 4500, 0, 0, 12000] 2) pastFirstRung
    (final.taskState 0).overruns = 2 ∧ ∃ news, final.log = news ++ pastFirstRung.log ∧
      ∀ event ∈ news, event.belowSafe = false := by
  intro final
  have safe : (obcModeIsSafe pastFirstRung.mode).1 = true := by decide +kernel
  obtain ⟨news, log, quiet⟩ := ladder_below_safe_mode obcTaskTable 3 _ lastShortBoot _ safe
    (punctualFrame [1001, 4500, 0, 0, 12000] 2)
  exact ⟨by decide +kernel, news, log, quiet.mpr (by decide +kernel)⟩

/-- Restored safe, and housekeeping overruns: the ladder starts at its first rung. -/
theorem ladder_climbs_in_safe_mode :
    ¬∀ past inputs,
      let state := run (execStep obcTaskTable) past (trappedExec 1)
      (obcModeIsSafe state.mode).1 = true →
        ∀ news, (run (execStep obcTaskTable) inputs state).log = news ++ state.log →
          ∀ event ∈ news, event.belowSafe = false := by
  intro never
  have quiet := never [] (punctualRun [[1001, 0, 0, 0, 0]]) (by decide +kernel) _
    (List.append_nil _).symm (.suspendTask 0 0 1) (by decide +kernel)
  exact absurd quiet (by decide)

end ObcZero
