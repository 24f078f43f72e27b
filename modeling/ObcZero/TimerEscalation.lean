import ObcZero.MtimeCore
import ObcZero.PlannedWindow

/-! A timer that will not settle, and the mode the next frame is dispatched in:
the reads that degrade the system, and the one whose failure goes nowhere. -/

namespace ObcZero

open StepSystem

theorem obcMtimeRead_unstable_iff (samples : Fin mtimeReadAttempts → MtimeSample) (before : U64)
    (unstableCount : U32) :
    (obcMtimeRead samples (some before) unstableCount).1 = .errUnstable ↔
      ∀ attempt, (samples attempt).hi ≠ (samples attempt).hiAgain := by
  cases found : (List.finRange mtimeReadAttempts).find? fun attempt =>
      (samples attempt).hi == (samples attempt).hiAgain with
  | some attempt =>
      have settled : (samples attempt).hi = (samples attempt).hiAgain := by
        simpa using List.find?_some found
      simp only [obcMtimeRead, found, reduceCtorEq, false_iff, not_forall, not_not]
      exact ⟨attempt, settled⟩
  | none =>
      simp only [obcMtimeRead, found, true_iff]
      intro attempt
      simpa using List.find?_eq_none.mp found attempt (List.mem_finRange attempt)

/-- The count of failures does not change what a read answers. -/
theorem read_status (turn : TimerTurn) (unstableCount : U32) :
    (turn.read unstableCount).1 = turn.toTurn.clock := by
  simp only [TimerTurn.read, TimerTurn.toTurn, obcMtimeRead]
  split <;> rfl

/-- The mode is asked for, and safe mode may then be entered. -/
def ModeMoves (before after : ModeState) : Prop :=
  ∃ kept, ModeKept before kept ∧ (after = kept ∨ ∃ reason, after = obcModeEnterSafe reason kept)

theorem ModeKept.moves {before after : ModeState} (kept : ModeKept before after) :
    ModeMoves before after :=
  ⟨after, kept, .inl rfl⟩

theorem ModeKept.enters {before kept : ModeState} (asked : ModeKept before kept) (reason : U32) :
    ModeMoves before (obcModeEnterSafe reason kept) :=
  ⟨kept, asked, .inr ⟨reason, rfl⟩⟩

theorem ModeMoves.safe {before after : ModeState} (moves : ModeMoves before after)
    (safe : (obcModeIsSafe before).1 = true) : (obcModeIsSafe after).1 = true := by
  obtain ⟨kept, asked, rfl | ⟨reason, rfl⟩⟩ := moves
  · exact asked.answer.trans safe
  · exact obcModeEnterSafe_answer (asked.answer.trans safe) reason

theorem ModeKept.announcedIfSafe {before after : ModeState} (kept : ModeKept before after)
    (told : AnnouncedIfSafe before) : AnnouncedIfSafe after := fun nominal =>
  kept.announced.trans (told (kept.answer.symm.trans nominal))

theorem ModeMoves.announcedIfSafe {before after : ModeState} (moves : ModeMoves before after)
    (told : AnnouncedIfSafe before) : AnnouncedIfSafe after := by
  obtain ⟨kept, asked, rfl | ⟨reason, rfl⟩⟩ := moves
  · exact asked.announcedIfSafe told
  · exact announcedIfSafe_enterSafe (asked.announcedIfSafe told) reason

theorem schedNow_moves (turn : Turn) (frame : U32) (state : ExecState) :
    ModeMoves state.mode (schedNow turn frame state).mode := by
  have asked := modeKept_asked state.mode
  by_cases unstable : turn.clock = .errUnstable
  · cases answer : (obcModeIsSafe state.mode).1 with
    | true =>
        simp only [schedNow, unstable, askMode, answer, ↓reduceIte]
        exact asked.moves
    | false =>
        simp only [schedNow, unstable, askMode, answer, ↓reduceIte, Bool.false_eq_true]
        exact asked.enters obcSafeClock
  · rw [schedNow, if_neg unstable]
    exact (ModeKept.refl state.mode).moves

/-- The executive's own reads: one that gives up leaves the system degraded. -/
theorem schedNow_unstable {turn : Turn} (unstable : turn.clock = .errUnstable) (frame : U32)
    {state : ExecState} (told : AnnouncedIfSafe state.mode) :
    (obcModeIsSafe (schedNow turn frame state).mode).1 = true := by
  have asked := modeKept_asked state.mode
  cases answer : (obcModeIsSafe state.mode).1 with
  | true => exact (schedNow_moves turn frame state).safe answer
  | false =>
      simp only [schedNow, unstable, askMode, answer, ↓reduceIte, Bool.false_eq_true]
      exact obcModeEnterSafe_fresh (asked.announced.trans (told answer)) obcSafeClock

theorem Visit.moves {row : ObcTask} {index : Nat} {turn : Turn} {state after : ExecState}
    (visit : Visit row index turn state after) : ModeMoves state.mode after.mode := by
  cases visit with
  | skipped _ kept => exact kept.moves
  | suspended _ kept => exact kept.moves
  | nullFunction _ kept => exact kept.moves
  | within _ kept => exact kept.moves
  | suspends _ kept => exact kept.moves
  | resetsSubsystem _ kept => exact kept.moves
  | entersSafe _ kept => exact kept.enters obcSafeResetLoop
  | resetsMachine _ kept => exact kept.moves

theorem enterFrame_mode (state : ExecState) : (enterFrame state).mode = state.mode := by
  unfold enterFrame
  split <;> rfl

theorem startWindow_moves (table : List ObcTask) (turn : Turn) (state : ExecState) :
    ModeMoves state.mode (startWindow table turn state).mode := by
  rcases startWindow_cases table turn state with refused | ⟨_, ended⟩ | ⟨_, _, opened⟩
  · rw [refused]
    exact (ModeKept.refl state.mode).moves
  · rw [ended]
    exact schedNow_moves turn 0 (state.record .armHardware)
  · rw [opened, enterFrame_mode]
    exact (modeKept_asked state.mode).moves

theorem endPassStep_moves (table : List ObcTask) (turn : Turn) (state : ExecState) :
    ModeMoves state.mode (endPassStep table turn state).mode := by
  by_cases settled : turn.clock = .ok
  swap
  · rw [endPassStep_unsettled settled]
    exact schedNow_moves turn state.frame { state with log := passLog table state }
  by_cases late : state.frameStart + obcSchedFrameTicks ≤ turn.now
  · have asked := modeKept_asked state.mode
    rw [endPassStep_late settled late]
    cases answer : (obcModeIsSafe state.mode).1 with
    | true => exact asked.moves
    | false => exact asked.enters obcSafeFrameOverrun
  · obtain ⟨slack, passed⟩ := endPassStep_early settled late table
    rw [passed]
    exact (ModeKept.refl state.mode).moves

theorem idleStep_moves (guard : Nat) (turn : Turn) (state : ExecState) :
    ModeMoves state.mode (idleStep guard turn state).mode := by
  have same := (ModeKept.refl state.mode).moves
  rcases idleStep_cases guard turn state with ⟨_, ended⟩ | spent | ⟨next, waits⟩ | advances
  · rw [ended]
    exact schedNow_moves turn state.frame state
  · rw [spent]
    exact same
  · rw [waits]
    exact same
  · rw [advances, enterFrame_mode]
    exact same

theorem execTurn_moves (table : List ObcTask) (turn : Turn) (state : ExecState) :
    ModeMoves state.mode (execTurn table turn state).mode := by
  have same := (ModeKept.refl state.mode).moves
  cases phase : state.phase with
  | start =>
      simp only [execTurn, phase]
      exact startWindow_moves table turn state
  | visit index =>
      simp only [execTurn, phase]
      cases visitStep_visited table index turn state with
      | past _ passed =>
          rw [passed]
          exact same
      | reset _ _ visit _ => exact visit.moves
      | went _ _ _ visit passed =>
          rw [passed]
          exact visit.moves
  | endPass =>
      simp only [execTurn, phase]
      exact endPassStep_moves table turn state
  | idle guard =>
      simp only [execTurn, phase]
      exact idleStep_moves guard turn state
  | returned status =>
      simp only [execTurn, phase]
      exact same
  | reset =>
      simp only [execTurn, phase]
      exact same

theorem execTurn_unstable {table : List ObcTask} {turn : Turn} {state : ExecState}
    (reads : SchedReads table state) (unstable : turn.clock = .errUnstable)
    (told : AnnouncedIfSafe state.mode) :
    (obcModeIsSafe (execTurn table turn state).mode).1 = true := by
  have failed : turn.clock ≠ .ok := by simp [unstable]
  cases phase : state.phase with
  | start =>
      simp only [SchedReads, phase] at reads
      simp only [execTurn, phase]
      rw [startWindow, if_neg reads, if_pos failed]
      exact @schedNow_unstable turn unstable 0 (state.record .armHardware) told
  | endPass =>
      simp only [execTurn, phase]
      rw [endPassStep_unsettled failed]
      exact @schedNow_unstable turn unstable state.frame
        { state with log := passLog table state } told
  | idle guard =>
      simp only [execTurn, phase]
      rw [idleStep, if_pos failed]
      exact @schedNow_unstable turn unstable state.frame state told
  | visit index => simp only [SchedReads, phase] at reads
  | returned status => simp only [SchedReads, phase] at reads
  | reset => simp only [SchedReads, phase] at reads

/-- The dispatch pass of a later frame has begun, or the window is over. -/
def Past (frame : U32) (state : ExecState) : Prop :=
  match state.phase with
  | .visit _ => frame < state.frame
  | .returned _ => True
  | _ => False

instance (frame : U32) (state : ExecState) : Decidable (Past frame state) :=
  show Decidable
    (match state.phase with
    | .visit _ => frame < state.frame
    | .returned _ => True
    | _ => False) from
  match state.phase with
  | .visit _ => inferInstanceAs (Decidable (frame < state.frame))
  | .returned _ => isTrue trivial
  | .start => isFalse id
  | .endPass => isFalse id
  | .idle _ => isFalse id
  | .reset => isFalse id

def DegradedInTime (state : TimedExec) : Prop :=
  ∀ frame ∈ state.unstable, Past frame state.exec → (obcModeIsSafe state.exec.mode).1 = true

instance (state : TimedExec) : Decidable (DegradedInTime state) :=
  List.decidableBAll (fun frame => Past frame state.exec →
    (obcModeIsSafe state.exec.mode).1 = true) state.unstable

/-- A step on which no emission's own read gives up while the vote still answers
nominal. What reaches the mode's copies does not talk a safe vote out of it. -/
def TimerHeeded (table : List ObcTask) : TimerInput → TimedExec → Prop
  | .corrupt index copy, state =>
      (obcModeIsSafe state.exec.mode).1 = true →
        (obcModeIsSafe (execStep table (.corrupt index copy) state.exec).mode).1 = true
  | .turn turn, state =>
      EmissionReads table state → turn.toTurn.clock = .errUnstable →
        (obcModeIsSafe state.exec.mode).1 = true

instance (table : List ObcTask) (input : TimerInput) (state : TimedExec) :
    Decidable (TimerHeeded table input state) := by
  cases input with
  | corrupt index copy => exact inferInstanceAs (Decidable (_ → _))
  | turn turn => exact inferInstanceAs (Decidable (_ → _ → _))

def freshTimed (frames : U32) (mode : ModeState) (boot : ObcBootRecord) (tlm : TlmState) :
    TimedExec :=
  { exec := freshExec frames mode boot, tlm := tlm, unstableCount := 0, unstable := [] }

/-- Once a read has given up, wherever it was made, the vote answers safe. -/
structure Heeded (state : TimedExec) : Prop where
  told : AnnouncedIfSafe state.exec.mode
  degraded : state.unstable ≠ [] → (obcModeIsSafe state.exec.mode).1 = true

theorem timedStep_heeded (table : List ObcTask) (input : TimerInput) (state : TimedExec)
    (allowed : TimerHeeded table input state) (heeded : Heeded state) :
    Heeded (timedStep table input state) := by
  obtain ⟨told, degraded⟩ := heeded
  cases input with
  | corrupt index copy =>
      refine ⟨fun nominal => ?_, fun failed => allowed (degraded failed)⟩
      cases answer : (obcModeIsSafe state.exec.mode).1 with
      | true =>
          have safe := allowed answer
          rw [show (timedStep table (.corrupt index copy) state).exec =
            execStep table (.corrupt index copy) state.exec from rfl, safe] at nominal
          cases nominal
      | false => exact told answer
  | turn turn =>
      have moves := execTurn_moves table turn.toTurn state.exec
      refine ⟨moves.announcedIfSafe told, fun failed => ?_⟩
      show (obcModeIsSafe (execTurn table turn.toTurn state.exec).mode).1 = true
      by_cases gaveUp : (EmissionReads table state ∨ SchedReads table state.exec) ∧
          turn.toTurn.clock = .errUnstable
      · obtain ⟨emits | reads, unstable⟩ := gaveUp
        · exact moves.safe (allowed emits unstable)
        · exact execTurn_unstable reads unstable told
      · simp only [timedStep, read_status, if_neg gaveUp] at failed
        exact moves.safe (degraded failed)

theorem freshTimed_heeded (frames : U32) {mode : ModeState} (told : AnnouncedIfSafe mode)
    (record : ObcBootRecord) (tlm : TlmState) : Heeded (freshTimed frames mode record tlm) :=
  ⟨told, fun failed => absurd rfl failed⟩

/-- In a run on which no emission's read gives up unheeded, every read that gives
up, the executive's or a task's, is followed by safe mode in time. -/
theorem unstable_reads_degrade {table : List ObcTask} {frames : U32} {boot : Boot}
    {memory : ModeState} {record : ObcBootRecord} {tlm : TlmState} {inputs : List TimerInput}
    (meets : Meets (timedStep table) (TimerHeeded table) inputs
      (freshTimed frames (executiveState boot memory) record tlm)) :
    DegradedInTime (run (timedStep table) inputs
      (freshTimed frames (executiveState boot memory) record tlm)) := by
  have fresh := freshTimed_heeded frames (executiveState_announced boot memory) record tlm
  have heeded := meets_invariant (timedStep_heeded table) meets fresh
  exact fun frame member _ => heeded.degraded (List.ne_nil_of_mem member)

/-- A step that breaks the condition is the defect: the read is counted and the
vote goes on answering nominal, unless the same dispatch overruns. -/
theorem unheeded_read_stays_nominal {table : List ObcTask} {turn : TimerTurn}
    {state : TimedExec} (emits : EmissionReads table state)
    (unstable : ∀ attempt, (turn.samples attempt).hi ≠ (turn.samples attempt).hiAgain)
    (nominal : (obcModeIsSafe state.exec.mode).1 = false)
    (thrifty : Unhurried table (.turn turn.toTurn) state.exec) :
    state.exec.frame ∈ (timedStep table (.turn turn) state).unstable ∧
      (obcModeIsSafe (timedStep table (.turn turn) state).exec.mode).1 = false := by
  have status : (turn.read state.unstableCount).1 = .errUnstable :=
    (obcMtimeRead_unstable_iff turn.samples 0 state.unstableCount).mpr unstable
  refine ⟨?_, ?_⟩
  · simp only [timedStep, status, and_true, if_pos (Or.inl emits)]
    exact List.mem_cons_self
  · obtain ⟨dispatches, _⟩ := emits
    unfold DispatchesTelemetry at dispatches
    cases phase : state.exec.phase with
    | visit index =>
        show (obcModeIsSafe (execTurn table turn.toTurn state.exec).mode).1 = false
        simp only [execTurn, phase]
        cases visitStep_visited table index turn.toTurn state.exec with
        | past _ passed =>
            rw [passed]
            exact nominal
        | reset row found visit _ =>
            exact (visit.calm (thrifty.1.row phase found)).mode.answer.trans nominal
        | went row found _ visit passed =>
            rw [passed]
            exact (visit.calm (thrifty.1.row phase found)).mode.answer.trans nominal
    | start => simp only [phase] at dispatches
    | endPass => simp only [phase] at dispatches
    | idle guard => simp only [phase] at dispatches
    | returned status => simp only [phase] at dispatches
    | reset => simp only [phase] at dispatches

def settledSamples (lo : U32) : Fin mtimeReadAttempts → MtimeSample :=
  fun _ => { hi := 0, lo := lo, hiAgain := 0 }

def unsettledSamples : Fin mtimeReadAttempts → MtimeSample :=
  fun _ => { hi := 0, lo := 0, hiAgain := 1 }

def timerTurn (samples : Fin mtimeReadAttempts → MtimeSample) : TimerInput :=
  .turn
    { samples := samples, used := 0, votes := 0, published := quietReadings
      command := clearedCmd, downlink := .ok }

/-- A frame of the flight table whose clock answers `emission` to the telemetry
task and `passEnd` after the pass, and is settled otherwise. -/
def telemetryFrame (emission passEnd : Fin mtimeReadAttempts → MtimeSample) : List TimerInput :=
  [timerTurn (settledSamples 0), timerTurn (settledSamples 0), timerTurn emission,
    timerTurn (settledSamples 0), timerTurn (settledSamples 0), timerTurn (settledSamples 0),
    timerTurn passEnd, timerTurn (settledSamples 1024)]

def flightTimed (frames : U32) : TimedExec :=
  freshTimed frames (executiveState uneventfulBoot coldMode) coldBootRecord readyTlm

theorem flight_unstable_reads_degrade :
    let final := run (timedStep obcTaskTable) (telemetryFrame (settledSamples 0) unsettledSamples)
      (flightTimed 2)
    final.exec.phase = .returned .errUnstable ∧ final.unstable = [0] ∧
      (obcModeIsSafe final.exec.mode).1 = true := by
  intro final
  have meets : Meets (timedStep obcTaskTable) (TimerHeeded obcTaskTable)
      (telemetryFrame (settledSamples 0) unsettledSamples) (flightTimed 2) := by decide +kernel
  have returned : final.exec.phase = .returned .errUnstable := by decide +kernel
  have failed : final.unstable = [0] := by decide +kernel
  have degraded : DegradedInTime final := unstable_reads_degrade meets
  refine ⟨returned, failed, degraded 0 (by rw [failed]; exact List.mem_singleton_self 0) ?_⟩
  simp only [Past, returned]

/-- The read of the telemetry task gives up in frame 0, and frame 1 dispatches
its first task in nominal mode. -/
theorem emission_read_unheeded :
    let final := run (timedStep obcTaskTable)
      (telemetryFrame unsettledSamples (settledSamples 0) ++ [timerTurn (settledSamples 1024)])
      (flightTimed 2)
    final.unstable = [0] ∧ .visited 1 0 true false true ∈ final.exec.log ∧
      (obcModeIsSafe final.exec.mode).1 = false ∧ ¬DegradedInTime final := by
  decide +kernel

end ObcZero
