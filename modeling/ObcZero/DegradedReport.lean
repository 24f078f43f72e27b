import ObcZero.SchedRun

/-! What the executive has told of its degradation by the end of each frame in which
it was found degraded. -/

namespace ObcZero

open StepSystem StoreSequence

def reported (exec : ExecState) : Bool :=
  exec.mode.safeReason != obcSafeNone && recordAuthentic exec.mode.record &&
    exec.safeEntryFrame != obcSafeEntryNone

def asksMode (table : List ObcTask) (turn : Turn) (exec : ExecState) : Bool :=
  match exec.phase with
  | .visit index =>
      match table[index]? with
      | some row => row.periodFrames != 0
      | none => false
  | .endPass =>
      turn.clock == .errUnstable ||
        (turn.clock == .ok && decide (exec.frameStart + obcSchedFrameTicks ≤ turn.now))
  | .idle _ => turn.clock == .errUnstable
  | _ => false

def answersSafe (table : List ObcTask) (input : ExecInput) (exec : ExecState) : Bool :=
  match input with
  | .turn turn => asksMode table turn exec && (obcModeIsSafe exec.mode).1
  | .corrupt _ _ => false

def Phase.inFrame : Phase → Bool
  | .visit _ => true
  | .endPass => true
  | .idle _ => true
  | _ => false

/-- From inside one frame to the next one, or out of the window. -/
def endsFrame (before after : ExecState) : Bool :=
  match before.phase, after.phase with
  | .idle _, .visit _ => true
  | phase, .returned _ => phase.inFrame
  | _, _ => false

structure FrameReport where
  frame : U32
  answeredSafe : Bool
  reported : Bool
  deriving DecidableEq, Repr

/-- The executive under a watch that notes, of the current frame, whether the mode has
answered safe, and of every frame that has ended, what was reported by then. -/
structure Watch where
  exec : ExecState
  answeredSafe : Bool
  ended : List FrameReport

def watchStep (table : List ObcTask) (input : ExecInput) (watch : Watch) : Watch :=
  let exec := execStep table input watch.exec
  let answered := watch.answeredSafe || answersSafe table input watch.exec
  if endsFrame watch.exec exec then
    { exec := exec
      answeredSafe := false
      ended := { frame := watch.exec.frame, answeredSafe := answered, reported := reported exec } ::
        watch.ended }
  else { watch with exec := exec, answeredSafe := answered }

def LadderAnnounced (row : ObcTask) (index : Nat) (turn : Turn) (exec : ExecState) : Prop :=
  Overruns row index turn exec obcRungResetMachine →
    obcShortBootLimit ≤ obcRecoverShortBoots exec.boot →
      exec.mode.announced ≠ 0 ∨ exec.safeEntryFrame ≠ obcSafeEntryNone

/-- Safe mode is only ever what was entered: no vote in a frame answers safe before
`obc_mode_enter_safe` has run, the vote that opens the window does not miss a safe
mode entered before, and it is not rung 3 that enters it. -/
def SafeAsEntered (table : List ObcTask) : ExecInput → Watch → Prop
  | .corrupt _ _, _ => True
  | .turn turn, watch =>
      (answersSafe table (.turn turn) watch.exec = true → watch.exec.mode.announced ≠ 0) ∧
      (watch.exec.phase = .start → watch.exec.mode.announced ≠ 0 →
        (obcModeIsSafe watch.exec.mode).1 = true) ∧
      AtVisit table LadderAnnounced (.turn turn) watch.exec

/-- What the boot enters safe mode for, it has a reason for. -/
def NamesReasons (boot : Boot) (found : ModeState) : Prop :=
  (∀ reason ∈ boot.mainEntries, reason ≠ obcSafeNone) ∧
    (recordAuthentic found.record = true → found.record.reason ≠ obcSafeNone)

def watched (frames : U32) (boot : Boot) (found : ModeState) (record : ObcBootRecord) : Watch :=
  { exec := freshExec frames (executiveState boot found) record
    answeredSafe := false
    ended := [] }

def Named (mode : ModeState) : Prop :=
  mode.announced ≠ 0 → mode.safeReason ≠ obcSafeNone ∧ recordAuthentic mode.record = true

theorem Named.kept {before after : ModeState} (named : Named before) (kept : ModeKept before after) :
    Named after := by
  intro announced
  rw [kept.announced] at announced
  rw [kept.safeReason, kept.record]
  exact named announced

theorem obcModeEnterSafe_named {mode : ModeState} (named : Named mode) {reason : U32}
    (some : reason ≠ obcSafeNone) :
    Named (obcModeEnterSafe reason mode) ∧ (obcModeEnterSafe reason mode).announced ≠ 0 := by
  by_cases fresh : mode.announced = 0
  · have authentic := obcModeEnterSafe_authentic reason fresh
    have entered : obcModeEnterSafe reason mode = perform (announcement reason)
        (perform (recordStores reason) (perform (degradeStores reason) mode)) := by
      rw [obcModeEnterSafe, enterSafeStores, if_neg (by simp [fresh]), perform_append,
        perform_append]
    have told : (obcModeEnterSafe reason mode).announced = 1 ∧
        (obcModeEnterSafe reason mode).safeReason = reason := by
      rw [entered, perform_degradeStores, perform_recordStores]
      exact ⟨rfl, rfl⟩
    refine ⟨fun _ => ⟨?_, authentic⟩, ?_⟩
    · rw [told.2]
      exact some
    · rw [told.1]
      decide
  · rw [obcModeEnterSafe_announced fresh]
    exact ⟨named, fresh⟩

theorem named_entries {reasons : List U32} (some : ∀ reason ∈ reasons, reason ≠ obcSafeNone)
    {mode : ModeState} (named : Named mode) : Named (perform (entriesStores reasons mode) mode) := by
  induction reasons generalizing mode with
  | nil => exact named
  | cons reason rest ih =>
      rw [entriesStores, perform_append]
      have first := obcModeEnterSafe_named named (some reason List.mem_cons_self)
      exact ih (fun later member => some later (List.mem_cons_of_mem _ member)) first.1

theorem executiveState_named {boot : Boot} {found : ModeState} (names : NamesReasons boot found) :
    Named (executiveState boot found) := by
  have fresh : Named (perform nominalStores (startup found)) := by
    rw [perform_nominalStores]
    exact fun announced => absurd rfl announced
  have record : (perform nominalStores (startup found)).record = found.record := by
    rw [perform_nominalStores]
    rfl
  have restored : Named (obcModeRestore boot.previousResetCause (startup found)) := by
    rcases obcModeRestore_cases boot.previousResetCause (startup found) with
      trapped | ⟨authentic, kept⟩ | nominal
    · rw [trapped]
      exact (obcModeEnterSafe_named fresh (by decide)).1
    · rw [record] at authentic
      rw [kept]
      exact (obcModeEnterSafe_named fresh (by rw [record]; exact names.2 authentic)).1
    · rw [nominal]
      exact fresh
  rw [executiveState, mainStores, perform_append]
  exact named_entries names.1 restored

structure Telling where
  mode : ModeState
  entry : U32

def ExecState.telling (exec : ExecState) : Telling :=
  { mode := exec.mode, entry := exec.safeEntryFrame }

inductive Told (frame : U32) (before after : Telling) : Prop
  | kept (mode : ModeKept before.mode after.mode) (entry : after.entry = before.entry)
  | degraded (reason : U32) (some : reason ≠ obcSafeNone) (between : ModeState)
      (asked : ModeKept before.mode between) (mode : after.mode = obcModeEnterSafe reason between)
      (entry : after.entry = frame)
  | exhausted (between : ModeState) (asked : ModeKept before.mode between)
      (mode : after.mode = obcModeEnterSafe obcSafeResetLoop between)
      (entry : after.entry = before.entry)
      (announced : before.mode.announced ≠ 0 ∨ before.entry ≠ obcSafeEntryNone)

theorem schedNow_told (turn : Turn) (state : ExecState) :
    Told state.frame state.telling (schedNow turn state.frame state).telling := by
  by_cases unstable : turn.clock = .errUnstable
  · rw [schedNow, if_pos unstable]
    dsimp only [askMode]
    split
    · exact .kept (modeKept_asked state.mode) rfl
    · exact .degraded obcSafeClock (by decide) _ (modeKept_asked state.mode) rfl rfl
  · rw [schedNow, if_neg unstable]
    exact .kept (.refl _) rfl

theorem visit_told {row : ObcTask} {index : Nat} {turn : Turn} {state after : ExecState}
    (visit : Visit row index turn state after) (ladder : LadderAnnounced row index turn state) :
    Told state.frame state.telling after.telling := by
  cases visit with
  | skipped mode kept _ => exact .kept kept rfl
  | suspended mode kept _ _ _ => exact .kept kept rfl
  | nullFunction mode kept _ _ _ _ => exact .kept kept rfl
  | within mode kept _ _ _ _ => exact .kept kept rfl
  | suspends mode kept _ _ _ _ => exact .kept kept rfl
  | resetsSubsystem mode kept _ _ _ _ => exact .kept kept rfl
  | entersSafe mode kept _ _ overruns spent =>
      exact .exhausted mode kept rfl rfl (ladder overruns spent)
  | resetsMachine mode kept _ _ _ _ => exact .kept kept rfl

theorem visitStep_told {table : List ObcTask} {index : Nat} {turn : Turn} {state : ExecState}
    (phase : state.phase = .visit index)
    (ladder : AtVisit table LadderAnnounced (.turn turn) state) :
    Told state.frame state.telling (visitStep table index turn state).telling := by
  cases visitStep_visited table index turn state with
  | past _ passed =>
      rw [passed]
      exact .kept (.refl _) rfl
  | reset row found visit _ => exact visit_told visit (ladder.row phase found)
  | went row found visited visit passed =>
      have told := visit_told visit (ladder.row phase found)
      rw [passed]
      exact told

theorem endPassStep_told (table : List ObcTask) (turn : Turn) (state : ExecState) :
    Told state.frame state.telling (endPassStep table turn state).telling := by
  by_cases settled : turn.clock = .ok
  swap
  · rw [endPassStep_unsettled settled]
    exact schedNow_told turn { state with log := passLog table state }
  by_cases late : state.frameStart + obcSchedFrameTicks ≤ turn.now
  swap
  · obtain ⟨slack, passed⟩ := endPassStep_early settled late table
    rw [passed]
    exact .kept (.refl _) rfl
  rw [endPassStep_late settled late]
  cases safe : (obcModeIsSafe state.mode).1 with
  | true =>
      simp only [↓reduceIte]
      exact .kept (modeKept_asked state.mode) rfl
  | false =>
      simp only [Bool.false_eq_true, ↓reduceIte]
      exact .degraded obcSafeFrameOverrun (by decide) _ (modeKept_asked state.mode) rfl rfl

theorem idleStep_told (guard : Nat) (turn : Turn) (state : ExecState) :
    Told state.frame state.telling (idleStep guard turn state).telling := by
  rcases idleStep_cases guard turn state with ⟨_, ended⟩ | spent | ⟨next, waits⟩ | advances
  · rw [ended]
    exact schedNow_told turn state
  · rw [spent]
    exact .kept (.refl _) rfl
  · rw [waits]
    exact .kept (.refl _) rfl
  · rw [advances, enterFrame]
    split
    · exact .kept (.refl _) rfl
    · exact .kept (.refl _) rfl

/-- Inside a frame: safe mode, once entered, has its reason, its record and its frame,
and an answer that was safe followed an entry. -/
structure Owned (telling : Telling) (answered : Bool) : Prop where
  named : Named telling.mode
  entry : telling.mode.announced ≠ 0 → telling.entry ≠ obcSafeEntryNone
  answered : answered = true → telling.mode.announced ≠ 0

theorem Owned.told {frame : U32} {before after : Telling} {earlier now : Bool}
    (owned : Owned before earlier) (inside : frame ≠ obcSafeEntryNone)
    (here : now = true → before.mode.announced ≠ 0) (told : Told frame before after) :
    Owned after (earlier || now) := by
  have entered : (earlier || now) = true → before.mode.announced ≠ 0 := by
    intro either
    rcases Bool.or_eq_true_iff.mp either with was | is
    · exact owned.answered was
    · exact here is
  cases told with
  | kept mode entry =>
      refine ⟨owned.named.kept mode, fun announced => ?_, fun either => ?_⟩
      · rw [mode.announced] at announced
        rw [entry]
        exact owned.entry announced
      · rw [mode.announced]
        exact entered either
  | degraded reason some between asked mode entry =>
      obtain ⟨named, announced⟩ := obcModeEnterSafe_named (owned.named.kept asked) some
      rw [← mode] at named announced
      exact ⟨named, fun _ => entry ▸ inside, fun _ => announced⟩
  | exhausted between asked mode entry recorded =>
      obtain ⟨named, announced⟩ :=
        obcModeEnterSafe_named (owned.named.kept asked) (show obcSafeResetLoop ≠ obcSafeNone by decide)
      rw [← mode] at named announced
      refine ⟨named, fun _ => ?_, fun _ => announced⟩
      rw [entry]
      rcases recorded with was | kept
      · exact owned.entry was
      · exact kept

theorem Owned.reported {exec : ExecState} {answered : Bool} (owned : Owned exec.telling answered)
    (safe : answered = true) : reported exec = true := by
  have announced := owned.answered safe
  obtain ⟨reason, record⟩ := owned.named announced
  have entry := owned.entry announced
  simp only [ExecState.telling] at reason record entry
  simp [ObcZero.reported, reason, record, entry]

def Phase.live : Phase → Bool
  | .start => true
  | phase => phase.inFrame

theorem live_of_inFrame {phase : Phase} (inside : phase.inFrame = true) : phase.live = true := by
  cases phase <;> first | rfl | cases inside

structure Owning (watch : Watch) : Prop where
  live : watch.exec.phase.live = true → Named watch.exec.mode ∧
    (watch.answeredSafe = true → watch.exec.mode.announced ≠ 0)
  entry : watch.exec.phase.inFrame = true → watch.exec.mode.announced ≠ 0 →
    watch.exec.safeEntryFrame ≠ obcSafeEntryNone
  ended : ∀ report ∈ watch.ended, report.answeredSafe = true → report.reported = true

section

variable {table : List ObcTask}

theorem Owning.owned {watch : Watch} (owning : Owning watch)
    (inside : watch.exec.phase.inFrame = true) : Owned watch.exec.telling watch.answeredSafe :=
  have live := owning.live (live_of_inFrame inside)
  ⟨live.1, owning.entry inside, live.2⟩

theorem Owning.turned {watch : Watch} {input : ExecInput} (owning : Owning watch)
    (owned : Owned (execStep table input watch.exec).telling
      (watch.answeredSafe || answersSafe table input watch.exec)) :
    Owning (watchStep table input watch) := by
  by_cases ends : endsFrame watch.exec (execStep table input watch.exec) = true
  · rw [watchStep]
    rw [if_pos ends]
    refine ⟨fun _ => ⟨owned.named, fun never => (by cases never)⟩, fun _ => owned.entry, ?_⟩
    intro report member
    rcases List.mem_cons.mp member with last | earlier
    · rw [last]
      exact owned.reported
    · exact owning.ended report earlier
  · rw [watchStep]
    rw [if_neg ends]
    exact ⟨fun _ => ⟨owned.named, owned.answered⟩, fun _ => owned.entry, owning.ended⟩

theorem entryNone_of_within {frame frames : U32} (within : frame < frames) :
    frame ≠ obcSafeEntryNone := by
  rintro rfl
  exact absurd within (by unfold obcSafeEntryNone; bv_omega)

theorem followed_window (table : List ObcTask) :
    Followed table (fun _ _ => True) (fun _ _ => True) fun _ => True := by
  constructor <;> intros <;> simp

theorem startWindow_owning {watch : Watch} {turn : Turn} (owning : Owning watch)
    (phase : watch.exec.phase = .start)
    (opens : watch.exec.mode.announced ≠ 0 → (obcModeIsSafe watch.exec.mode).1 = true) :
    Owning (watchStep table (.turn turn) watch) := by
  have stepped : execStep table (.turn turn) watch.exec = startWindow table turn watch.exec := by
    simp only [execStep, execTurn, phase]
  have unasked : answersSafe table (.turn turn) watch.exec = false := by
    simp only [answersSafe, asksMode, phase, Bool.false_and]
  obtain ⟨named, answered⟩ := owning.live (by rw [phase]; rfl)
  cases (startWindow_started table turn watch.exec).2 with
  | stopped status returned _ _ =>
      have ends : endsFrame watch.exec (startWindow table turn watch.exec) = false := by
        simp only [endsFrame, phase, returned, Phase.inFrame]
      rw [watchStep]
      rw [stepped, if_neg (by simp [ends])]
      refine ⟨fun live => ?_, fun inside => ?_, owning.ended⟩
      · simp only [returned, Phase.live, Phase.inFrame] at live
        cases live
      · simp only [returned, Phase.inFrame] at inside
        cases inside
  | begun _ _ _ _ _ _ _ mode entry _ =>
      apply owning.turned
      rw [stepped, unasked, Bool.or_false]
      refine ⟨named.kept mode, fun announced => ?_, fun safe => ?_⟩
      · have was : watch.exec.mode.announced ≠ 0 := mode.announced ▸ announced
        have safe := opens was
        simp only [ExecState.telling, entry, safe, true_and]
        split
        · decide
        · assumption
      · simp only [ExecState.telling, mode.announced]
        exact answered safe

theorem endsFrame_still {before after : ExecState} (still : after.phase = before.phase) :
    endsFrame before after = false := by
  rw [endsFrame, still]
  cases before.phase <;> rfl

theorem Owning.still {watch : Watch} {input : ExecInput} (owning : Owning watch)
    (unasked : answersSafe table input watch.exec = false)
    (phase : (execStep table input watch.exec).phase = watch.exec.phase)
    (announced : (execStep table input watch.exec).mode.announced = watch.exec.mode.announced)
    (safeReason : (execStep table input watch.exec).mode.safeReason = watch.exec.mode.safeReason)
    (record : (execStep table input watch.exec).mode.record = watch.exec.mode.record)
    (entry : (execStep table input watch.exec).safeEntryFrame = watch.exec.safeEntryFrame) :
    Owning (watchStep table input watch) := by
  have ends : endsFrame watch.exec (execStep table input watch.exec) = false := endsFrame_still phase
  rw [watchStep, if_neg (by simp [ends]), unasked, Bool.or_false]
  refine ⟨fun live => ?_, fun inside => ?_, owning.ended⟩
  · rw [phase] at live
    simp only [Named, announced, safeReason, record]
    exact owning.live live
  · rw [phase] at inside
    simp only [announced, entry]
    exact owning.entry inside

/-- A turn inside a frame of the window, by what it does to what is told. -/
theorem Owning.inside {watch : Watch} {input : ExecInput} (owning : Owning watch)
    (inFrame : watch.exec.phase.inFrame = true) (within : watch.exec.frame < watch.exec.frames)
    (asEntered : answersSafe table input watch.exec = true → watch.exec.mode.announced ≠ 0)
    (told : Told watch.exec.frame watch.exec.telling (execStep table input watch.exec).telling) :
    Owning (watchStep table input watch) := by
  apply owning.turned
  exact (owning.owned inFrame).told (entryNone_of_within within) asEntered told

theorem Owning.done {watch : Watch} {turn : Turn} (owning : Owning watch)
    (outside : watch.exec.phase.inFrame = false)
    (ended : execStep table (.turn turn) watch.exec = watch.exec) :
    Owning (watchStep table (.turn turn) watch) := by
  have unasked : answersSafe table (.turn turn) watch.exec = false := by
    cases phase : watch.exec.phase with
    | start => simp only [answersSafe, asksMode, phase, Bool.false_and]
    | visit index => simp [phase, Phase.inFrame] at outside
    | endPass => simp [phase, Phase.inFrame] at outside
    | idle guard => simp [phase, Phase.inFrame] at outside
    | returned status => simp only [answersSafe, asksMode, phase, Bool.false_and]
    | reset => simp only [answersSafe, asksMode, phase, Bool.false_and]
  apply owning.still unasked <;> rw [ended]

theorem watchStep_owning (input : ExecInput) (watch : Watch) (allowed : SafeAsEntered table input watch)
    (tracks : Tracks table (fun _ _ => True) (fun _ => True) watch.exec) (owning : Owning watch) :
    Owning (watchStep table input watch) := by
  cases input with
  | corrupt index copy => exact owning.still rfl rfl rfl rfl rfl rfl
  | turn turn =>
      obtain ⟨asEntered, opens, ladder⟩ := allowed
      cases phase : watch.exec.phase with
      | start => exact startWindow_owning owning phase (opens phase)
      | visit index =>
          simp only [Tracks, phase] at tracks
          apply owning.inside (by rw [phase]; rfl) tracks.1.within asEntered
          simp only [execStep, execTurn, phase]
          exact visitStep_told phase ladder
      | endPass =>
          simp only [Tracks, phase] at tracks
          apply owning.inside (by rw [phase]; rfl) tracks.1.within asEntered
          simp only [execStep, execTurn, phase]
          exact endPassStep_told table turn watch.exec
      | idle guard =>
          simp only [Tracks, phase] at tracks
          apply owning.inside (by rw [phase]; rfl) tracks.1.within asEntered
          simp only [execStep, execTurn, phase]
          exact idleStep_told guard turn watch.exec
      | returned status =>
          exact owning.done (by rw [phase]; rfl) (by simp only [execStep, execTurn, phase])
      | reset => exact owning.done (by rw [phase]; rfl) (by simp only [execStep, execTurn, phase])

theorem watchStep_exec (input : ExecInput) (watch : Watch) :
    (watchStep table input watch).exec = execStep table input watch.exec := by
  rw [watchStep]
  split <;> rfl

/-- The watch changes nothing of the run it watches. -/
theorem run_watch (inputs : List ExecInput) (watch : Watch) :
    (run (watchStep table) inputs watch).exec = run (execStep table) inputs watch.exec := by
  induction inputs generalizing watch with
  | nil => rfl
  | cons input rest ih => rw [run, run, ih, watchStep_exec]

theorem owning_fresh (frames : U32) {mode : ModeState} (named : Named mode)
    (record : ObcBootRecord) :
    Owning { exec := freshExec frames mode record, answeredSafe := false, ended := [] } := by
  constructor
  · intro _
    exact ⟨named, fun never => absurd never Bool.false_ne_true⟩
  · intro inside
    exact absurd inside Bool.false_ne_true
  · intro report none
    exact absurd none List.not_mem_nil

/-- In every run in which safe mode is only ever what was entered, each frame that had
it for an answer has reported it by its end. -/
theorem degraded_frames_reported {frames : U32} {boot : Boot} {found : ModeState}
    {record : ObcBootRecord} {inputs : List ExecInput} (names : NamesReasons boot found)
    (meets : Meets (watchStep table) (SafeAsEntered table) inputs
      (watched frames boot found record)) :
    ∀ report ∈ (run (watchStep table) inputs (watched frames boot found record)).ended,
      report.answeredSafe = true → report.reported = true := by
  have preserved : ∀ input watch, SafeAsEntered table input watch →
      Tracks table (fun _ _ => True) (fun _ => True) watch.exec ∧ Owning watch →
      Tracks table (fun _ _ => True) (fun _ => True) (watchStep table input watch).exec ∧
        Owning (watchStep table input watch) := by
    rintro input watch allowed ⟨tracks, owning⟩
    refine ⟨?_, watchStep_owning input watch allowed tracks owning⟩
    rw [watchStep_exec]
    exact (followed_window table).step trivial tracks
  have initial : Owning (watched frames boot found record) :=
    owning_fresh frames (executiveState_named names) record
  exact (meets_invariant preserved meets ⟨⟨rfl, trivial⟩, initial⟩).2.ended

end

instance (row : ObcTask) (index : Nat) (turn : Turn) (exec : ExecState) :
    Decidable (LadderAnnounced row index turn exec) := inferInstanceAs (Decidable (_ → _ → _))

instance (table : List ObcTask) (input : ExecInput) (watch : Watch) :
    Decidable (SafeAsEntered table input watch) :=
  match input with
  | .corrupt _ _ => isTrue trivial
  | .turn turn =>
      inferInstanceAs (Decidable (_ ∧ _ ∧ AtVisit table LadderAnnounced (.turn turn) watch.exec))

def trappedBoot : Boot := { uneventfulBoot with previousResetCause := obcResetTrap }

theorem flight_degraded_frames_reported :
    let ended := (run (watchStep obcTaskTable)
      (punctualTurn 0 0 :: .corrupt 0 { value := 0, checksum := 0 } ::
        punctualFrame [1000, 4500, 0, 0, 12000] 0)
      (watched 1 trappedBoot coldMode coldBootRecord)).ended
    ended.map FrameReport.answeredSafe = [true] ∧
      ∀ report ∈ ended, report.answeredSafe = true → report.reported = true := by
  intro ended
  refine ⟨by decide +kernel, ?_⟩
  exact degraded_frames_reported ⟨fun _ none => absurd none List.not_mem_nil, by decide +kernel⟩
    (by decide +kernel)

/-- Two hits leave the vote without a majority. It answers safe for the whole frame,
and nothing tells of it. -/
theorem broken_vote_unreported :
    ¬∀ report ∈ (run (watchStep obcTaskTable)
        (punctualTurn 0 0 :: .corrupt 0 { value := 0, checksum := 0 } ::
          .corrupt 1 { value := 0, checksum := 0 } :: punctualFrame [1000, 4500, 0, 0, 12000] 0)
        (watched 1 uneventfulBoot coldMode coldBootRecord)).ended,
      report.answeredSafe = true → report.reported = true := by
  decide +kernel

end ObcZero
