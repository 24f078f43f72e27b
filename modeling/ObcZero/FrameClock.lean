import ObcZero.TimerEscalation

/-! The frames of a window against the clock: which readings the executive takes, and what
they say of the boundaries the frames were due at. -/

namespace ObcZero

open StepSystem

/-- The executive with the readings of its clock, latest first; `passes` are those taken
right after the dispatches of a frame. -/
structure ClockedExec where
  exec : ExecState
  readings : List U64
  passes : List U64

def unclocked (exec : ExecState) : ClockedExec := { exec := exec, readings := [], passes := [] }

def clockedStep (table : List ObcTask) (turn : Turn) (state : ClockedExec) : ClockedExec :=
  { exec := execTurn table turn state.exec
    readings := if SchedReads table state.exec then turn.now :: state.readings else state.readings
    passes := if state.exec.phase = .endPass then turn.now :: state.passes else state.passes }

def ClockRises (table : List ObcTask) (turn : Turn) (state : ClockedExec) : Prop :=
  SchedReads table state.exec →
    turn.clock = .ok ∧ ∀ earlier ∈ state.readings.head?, earlier ≤ turn.now

instance (table : List ObcTask) (turn : Turn) (state : ClockedExec) :
    Decidable (ClockRises table turn state) :=
  letI : Decidable (∀ earlier ∈ state.readings.head?, earlier ≤ turn.now) :=
    Option.decidableForallMem _
  inferInstanceAs (Decidable (_ → _ ∧ ∀ earlier ∈ state.readings.head?, earlier ≤ turn.now))

/-- When a frame is due, in ticks that never wrap. -/
def boundary (start : U64) (frame : Nat) : Nat := start.toNat + obcSchedFrameTicks.toNat * frame

/-- The frames whose first reading after their dispatches is at or past the deadline. -/
def lateFrames (start : U64) : List U64 → Nat
  | [] => 0
  | now :: earlier =>
      lateFrames start earlier + if boundary start (earlier.length + 1) ≤ now.toNat then 1 else 0

def leastSlack (start : U64) : List U64 → Nat
  | [] => obcSchedFrameTicks.toNat
  | now :: earlier =>
      min (leastSlack start earlier) (boundary start (earlier.length + 1) - now.toNat)

def InProgress : Phase → Prop
  | .visit _ => True
  | .endPass => True
  | .idle _ => True
  | _ => False

structure InStep (start : U64) (state : ClockedExec) : Prop where
  waited : ∀ index, state.exec.phase = .visit index →
    ∃ reading ∈ state.readings, boundary start state.exec.frame.toNat ≤ reading.toNat
  deadline : InProgress state.exec.phase →
    (state.exec.frameStart + obcSchedFrameTicks).toNat =
      boundary start (state.exec.frame.toNat + 1)
  degraded : 0 < lateFrames start state.passes → (obcModeIsSafe state.exec.mode).1 = true

structure WaitedOut (begun : ExecState) (start : U64) (final : ClockedExec) : Prop where
  last : ∃ reading ∈ final.readings.head?, boundary start begun.frames.toNat ≤ reading.toNat
  span : final.exec.windowEndTicks - final.exec.windowStartTicks =
    BitVec.ofNat 32 (obcSchedFrameTicks.toNat * begun.frames.toNat)
  passes : final.passes.length = begun.frames.toNat
  overruns : (final.exec.frameOverruns - begun.frameOverruns).toNat =
    lateFrames start final.passes
  slack : final.exec.slackTicksMin.toNat = leastSlack start final.passes
  slackLimit : final.exec.slackTicksMin.toNat ≤ obcSchedFrameTicks.toNat

/-- What a window says of its frames, in every state on the way and at its end. -/
structure OnSchedule (table : List ObcTask) (begun : ExecState) (start : U64)
    (turns : List Turn) : Prop where
  inStep : ∀ before, before <+: turns → InStep start (run (clockedStep table) before (unclocked begun))
  waitedOut : WaitedOut begun start (run (clockedStep table) turns (unclocked begun))

theorem boundary_zero (start : U64) : boundary start 0 = start.toNat := by
  rw [boundary, Nat.mul_zero, Nat.add_zero]

theorem boundary_succ (start : U64) (frame : Nat) :
    boundary start (frame + 1) = boundary start frame + 1024 := by
  have ticks : obcSchedFrameTicks.toNat = 1024 := rfl
  rw [boundary, boundary, ticks]
  omega

theorem boundary_mono (start : U64) {frame later : Nat} (within : frame ≤ later) :
    boundary start frame ≤ boundary start later :=
  Nat.add_le_add_left (Nat.mul_le_mul_left _ within) _

theorem lateFrames_le (start : U64) (passes : List U64) :
    lateFrames start passes ≤ passes.length := by
  induction passes with
  | nil => exact Nat.le_refl 0
  | cons now earlier ih =>
      rw [lateFrames, List.length_cons]
      split
      · exact Nat.succ_le_succ ih
      · exact Nat.le_succ_of_le ih

theorem leastSlack_le (start : U64) (passes : List U64) :
    leastSlack start passes ≤ obcSchedFrameTicks.toNat := by
  induction passes with
  | nil => exact Nat.le_refl _
  | cons now earlier ih => exact Nat.le_trans (Nat.min_le_left _ _) ih

structure ClockKept (before after : ExecState) : Prop where
  frames : after.frames = before.frames
  frame : after.frame = before.frame
  frameStart : after.frameStart = before.frameStart
  windowStart : after.windowStartTicks = before.windowStartTicks
  overruns : after.frameOverruns = before.frameOverruns
  slack : after.slackTicksMin = before.slackTicksMin

theorem Visit.clockKept {row : ObcTask} {index : Nat} {turn : Turn} {state after : ExecState}
    (visit : Visit row index turn state after) : ClockKept state after := by
  cases visit <;> exact ⟨rfl, rfl, rfl, rfl, rfl, rfl⟩

structure ClockTallied (start : U64) (begun : ExecState) (state : ClockedExec) : Prop where
  told : AnnouncedIfSafe state.exec.mode
  degraded : 0 < lateFrames start state.passes → (obcModeIsSafe state.exec.mode).1 = true
  overruns : state.exec.frameOverruns =
    begun.frameOverruns + BitVec.ofNat 32 (lateFrames start state.passes)

structure InWindow (start : U64) (begun : ExecState) (passed : Nat) (state : ClockedExec) :
    Prop where
  frames : state.exec.frames = begun.frames
  onTime : state.exec.frameStart.toNat = boundary start state.exec.frame.toNat
  opened : state.exec.windowStartTicks = start.setWidth 32
  slack : state.exec.slackTicksMin.toNat = leastSlack start state.passes
  heard : ∃ reading ∈ state.readings.head?,
    boundary start state.exec.frame.toNat ≤ reading.toNat
  passes : state.passes.length = passed

def Clocked (start : U64) (begun : ExecState) (state : ClockedExec) : Prop :=
  ClockTallied start begun state ∧
    match state.exec.phase with
    | .start => False
    | .visit _ =>
        InWindow start begun state.exec.frame.toNat state ∧ state.exec.frame < begun.frames
    | .endPass =>
        InWindow start begun state.exec.frame.toNat state ∧ state.exec.frame < begun.frames
    | .idle _ =>
        InWindow start begun (state.exec.frame.toNat + 1) state ∧ state.exec.frame < begun.frames
    | .returned .ok => WaitedOut begun start state
    | .returned _ => True
    | .reset => True

section Turn

variable {start : U64} {begun : ExecState} {table : List ObcTask} {turn : Turn}
  {state : ClockedExec}

theorem InWindow.deadline {passed : Nat} (window : InWindow start begun passed state)
    (within : state.exec.frame < begun.frames)
    (fits : boundary start begun.frames.toNat < 2 ^ 64) :
    (state.exec.frameStart + obcSchedFrameTicks).toNat =
      boundary start (state.exec.frame.toNat + 1) := by
  have below : boundary start (state.exec.frame.toNat + 1) ≤ boundary start begun.frames.toNat :=
    boundary_mono start (BitVec.lt_def.mp within)
  have ticks : obcSchedFrameTicks.toNat = 1024 := rfl
  rw [boundary_succ] at below ⊢
  rw [BitVec.toNat_add, window.onTime, ticks, Nat.mod_eq_of_lt (by omega)]

theorem enterFrame_clocked {exec : ExecState} {readings passes : List U64}
    (tallied : ClockTallied start begun ⟨exec, readings, passes⟩)
    (window : InWindow start begun exec.frame.toNat ⟨exec, readings, passes⟩)
    (within : exec.frame ≤ begun.frames) :
    Clocked start begun ⟨enterFrame exec, readings, passes⟩ := by
  have frames : exec.frames = begun.frames := window.frames
  by_cases more : exec.frame < exec.frames
  · rw [enterFrame, if_pos more]
    exact ⟨⟨tallied.told, tallied.degraded, tallied.overruns⟩,
      ⟨window.frames, window.onTime, window.opened, window.slack, window.heard, window.passes⟩,
      frames ▸ more⟩
  rw [enterFrame, if_neg more]
  have last : exec.frame = begun.frames :=
    BitVec.le_antisymm within (frames ▸ BitVec.not_lt.mp more)
  refine ⟨⟨tallied.told, tallied.degraded, tallied.overruns⟩, ?_⟩
  obtain ⟨reading, newest, reached⟩ := window.heard
  have passed : passes.length = exec.frame.toNat := window.passes
  have opened : exec.windowStartTicks = start.setWidth 32 := window.opened
  have slack : exec.slackTicksMin.toNat = leastSlack start passes := window.slack
  refine ⟨⟨reading, newest, last ▸ reached⟩, ?_, last ▸ passed, ?_, slack, ?_⟩
  · show exec.frameStart.setWidth 32 - exec.windowStartTicks = _
    have onTime : exec.frameStart.toNat = boundary start exec.frame.toNat := window.onTime
    have nominal : exec.frameStart =
        start + BitVec.ofNat 64 (obcSchedFrameTicks.toNat * begun.frames.toNat) := by
      apply BitVec.eq_of_toNat_eq
      rw [onTime, last, boundary, BitVec.toNat_add, BitVec.toNat_ofNat, Nat.add_mod_mod,
        Nat.mod_eq_of_lt]
      rw [← boundary, ← last, ← onTime]
      exact exec.frameStart.isLt
    rw [nominal, opened, BitVec.setWidth_add _ _ (by decide),
      BitVec.setWidth_ofNat_of_le (by decide), BitVec.add_comm, BitVec.add_sub_cancel]
  · show (exec.frameOverruns - begun.frameOverruns).toNat = lateFrames start passes
    have overruns : exec.frameOverruns =
        begun.frameOverruns + BitVec.ofNat 32 (lateFrames start passes) := tallied.overruns
    have late : lateFrames start passes ≤ passes.length := lateFrames_le start passes
    have small : exec.frame.toNat < 2 ^ 32 := exec.frame.isLt
    rw [overruns, BitVec.add_comm, BitVec.add_sub_cancel, BitVec.toNat_ofNat, Nat.mod_eq_of_lt (by omega)]
  · show exec.slackTicksMin.toNat ≤ obcSchedFrameTicks.toNat
    rw [slack]
    exact leastSlack_le start passes

theorem startWindow_clocked (opened : begun.phase = .start) (told : AnnouncedIfSafe begun.mode)
    (rises : ClockRises table turn (unclocked begun)) :
    Clocked turn.now begun (clockedStep table turn (unclocked begun)) := by
  have moved := (startWindow_moves table turn begun).announcedIfSafe told
  have stepped : clockedStep table turn (unclocked begun) =
      ⟨startWindow table turn begun, if SchedReads table begun then [turn.now] else [], []⟩ := by
    simp only [clockedStep, unclocked, execTurn, opened, reduceCtorEq, ↓reduceIte]
    rfl
  have quiet : begun.frameOverruns =
      begun.frameOverruns + BitVec.ofNat 32 (lateFrames turn.now []) := (BitVec.add_zero _).symm
  rw [stepped]
  by_cases size : table.length = 0 ∨ obcMaxTasks < table.length
  · have refused : startWindow table turn begun =
        returnFrom .errInvalid (begun.record .armHardware) := if_pos size
    rw [refused] at moved ⊢
    exact ⟨⟨moved, fun late => absurd late (Nat.lt_irrefl 0), quiet⟩, trivial⟩
  have reads : SchedReads table begun := by
    simp only [SchedReads, opened]
    exact size
  obtain ⟨settled, _⟩ := rises reads
  have enters : startWindow table turn begun = enterFrame (openWindow turn begun) := by
    rw [startWindow, if_neg size, if_neg (by simp [settled]), schedNow_settled settled]
    rfl
  rw [enters, enterFrame_mode] at moved
  rw [enters, if_pos reads]
  have first : boundary turn.now 0 = turn.now.toNat := boundary_zero turn.now
  exact enterFrame_clocked ⟨moved, fun late => absurd late (Nat.lt_irrefl 0), quiet⟩
    ⟨rfl, first.symm, rfl, rfl, ⟨turn.now, rfl, first.le⟩, rfl⟩ (BitVec.not_lt.mp BitVec.not_lt_zero)

theorem ClockTallied.ofVisit {row : ObcTask} {index : Nat} {visited : ExecState}
    (tallied : ClockTallied start begun state)
    (visit : Visit row index turn state.exec visited) :
    ClockTallied start begun ⟨visited, state.readings, state.passes⟩ :=
  ⟨visit.moves.announcedIfSafe tallied.told,
    fun late => visit.moves.safe (tallied.degraded late),
    visit.clockKept.overruns.trans tallied.overruns⟩

theorem visitStep_clocked {index : Nat} (phase : state.exec.phase = .visit index)
    (clocked : Clocked start begun state) :
    Clocked start begun (clockedStep table turn state) := by
  have stepped : clockedStep table turn state =
      ⟨visitStep table index turn state.exec, state.readings, state.passes⟩ := by
    simp only [clockedStep, SchedReads, execTurn, phase, reduceCtorEq, ↓reduceIte]
  simp only [Clocked, phase] at clocked
  obtain ⟨tallied, window, within⟩ := clocked
  rw [stepped]
  cases visitStep_visited table index turn state.exec with
  | past beyond passed =>
      rw [passed]
      exact ⟨⟨tallied.told, tallied.degraded, tallied.overruns⟩,
        ⟨window.frames, window.onTime, window.opened, window.slack, window.heard, window.passes⟩,
        within⟩
  | reset row found visit ended =>
      refine ⟨tallied.ofVisit visit, ?_⟩
      simp only [ended]
  | went row found visited visit passed =>
      have after := tallied.ofVisit visit
      have kept := visit.clockKept
      have inside : InWindow start begun visited.frame.toNat
          ⟨visited, state.readings, state.passes⟩ := by
        rw [kept.frame]
        refine ⟨kept.frames.trans window.frames, ?_, kept.windowStart.trans window.opened,
          ?_, ?_, window.passes⟩
        · rw [kept.frameStart, kept.frame]
          exact window.onTime
        · rw [kept.slack]
          exact window.slack
        · rw [kept.frame]
          exact window.heard
      have more : visited.frame < begun.frames := by
        rw [kept.frame]
        exact within
      rw [passed]
      by_cases next : index + 1 < table.length
      · rw [if_pos next]
        exact ⟨⟨after.told, after.degraded, after.overruns⟩,
          ⟨inside.frames, inside.onTime, inside.opened, inside.slack, inside.heard, inside.passes⟩,
          more⟩
      · rw [if_neg next]
        exact ⟨⟨after.told, after.degraded, after.overruns⟩,
          ⟨inside.frames, inside.onTime, inside.opened, inside.slack, inside.heard, inside.passes⟩,
          more⟩

theorem endPassStep_safe {exec : ExecState} (settled : turn.clock = .ok)
    (late : exec.frameStart + obcSchedFrameTicks ≤ turn.now) (table : List ObcTask)
    (told : AnnouncedIfSafe exec.mode) :
    (obcModeIsSafe (endPassStep table turn exec).mode).1 = true := by
  cases safe : (obcModeIsSafe exec.mode).1 with
  | true => exact (endPassStep_moves table turn exec).safe safe
  | false =>
      rw [endPassStep_late settled late]
      simp only [safe, Bool.false_eq_true, ↓reduceIte]
      exact obcModeEnterSafe_fresh ((modeKept_asked exec.mode).announced.trans (told safe))
        obcSafeFrameOverrun

theorem endPassStep_clocked (phase : state.exec.phase = .endPass)
    (fits : boundary start begun.frames.toNat < 2 ^ 64) (rises : ClockRises table turn state)
    (clocked : Clocked start begun state) :
    Clocked start begun (clockedStep table turn state) := by
  have reads : SchedReads table state.exec := by simp only [SchedReads, phase]
  have stepped : clockedStep table turn state =
      ⟨endPassStep table turn state.exec, turn.now :: state.readings,
        turn.now :: state.passes⟩ := by
    simp only [clockedStep, reads, execTurn, phase, ↓reduceIte]
  simp only [Clocked, phase] at clocked
  obtain ⟨tallied, window, within⟩ := clocked
  obtain ⟨settled, later⟩ := rises reads
  obtain ⟨earlier, newest, heard⟩ := window.heard
  have risen : earlier.toNat ≤ turn.now.toNat := BitVec.le_def.mp (later earlier newest)
  have deadline := window.deadline within fits
  have moves := endPassStep_moves table turn state.exec
  have reached : ∃ reading ∈ (turn.now :: state.readings).head?,
      boundary start state.exec.frame.toNat ≤ reading.toNat :=
    ⟨turn.now, rfl, Nat.le_trans heard risen⟩
  have counted : lateFrames start (turn.now :: state.passes) = lateFrames start state.passes +
      if boundary start (state.exec.frame.toNat + 1) ≤ turn.now.toNat then 1 else 0 := by
    rw [lateFrames, window.passes]
  have least : leastSlack start (turn.now :: state.passes) = min (leastSlack start state.passes)
      (boundary start (state.exec.frame.toNat + 1) - turn.now.toNat) := by
    rw [leastSlack, window.passes]
  rw [stepped]
  by_cases late : state.exec.frameStart + obcSchedFrameTicks ≤ turn.now
  · have missed : boundary start (state.exec.frame.toNat + 1) ≤ turn.now.toNat :=
      deadline ▸ BitVec.le_def.mp late
    have safe := endPassStep_safe settled late table tallied.told
    rw [endPassStep_late settled late] at moves safe ⊢
    rw [if_pos missed] at counted
    refine ⟨⟨moves.announcedIfSafe tallied.told, fun _ => safe, ?_⟩,
      ⟨window.frames, window.onTime, window.opened, ?_, reached, ?_⟩, within⟩
    · show state.exec.frameOverruns + 1 = _
      rw [counted, tallied.overruns, BitVec.add_assoc, BitVec.ofNat_add]
      rfl
    · show 0 = leastSlack start (turn.now :: state.passes)
      rw [least, Nat.sub_eq_zero_of_le missed, Nat.min_zero]
    · rw [List.length_cons, window.passes]
  · have missed : ¬boundary start (state.exec.frame.toNat + 1) ≤ turn.now.toNat :=
      fun met => late (BitVec.le_def.mpr (by rwa [deadline]))
    rw [endPassStep_slack settled late]
    rw [if_neg missed, Nat.add_zero] at counted
    have left : ((state.exec.frameStart + obcSchedFrameTicks - turn.now).setWidth 32).toNat =
        boundary start (state.exec.frame.toNat + 1) - turn.now.toNat := by
      have next := boundary_succ start state.exec.frame.toNat
      rw [BitVec.toNat_setWidth, BitVec.toNat_sub_of_le (BitVec.le_of_lt (BitVec.not_le.mp late)), deadline,
        Nat.mod_eq_of_lt (by omega)]
    refine ⟨⟨tallied.told, fun some => tallied.degraded (counted ▸ some), ?_⟩,
      ⟨window.frames, window.onTime, window.opened, ?_, reached, ?_⟩, within⟩
    · rw [counted]
      exact tallied.overruns
    · rw [least, ← left, ← window.slack]
      split
      · rename_i less
        exact (Nat.min_eq_right (Nat.le_of_lt (BitVec.lt_def.mp less))).symm
      · rename_i more
        exact (Nat.min_eq_left (Nat.le_of_not_lt fun less => more (BitVec.lt_def.mpr less))).symm
    · rw [List.length_cons, window.passes]

theorem idleStep_clocked {guard : Nat} (phase : state.exec.phase = .idle guard)
    (fits : boundary start begun.frames.toNat < 2 ^ 64) (rises : ClockRises table turn state)
    (clocked : Clocked start begun state) :
    Clocked start begun (clockedStep table turn state) := by
  have reads : SchedReads table state.exec := by simp only [SchedReads, phase]
  have stepped : clockedStep table turn state =
      ⟨idleStep guard turn state.exec, turn.now :: state.readings, state.passes⟩ := by
    simp only [clockedStep, reads, execTurn, phase, reduceCtorEq, ↓reduceIte]
  simp only [Clocked, phase] at clocked
  obtain ⟨tallied, window, within⟩ := clocked
  obtain ⟨settled, later⟩ := rises reads
  obtain ⟨earlier, newest, heard⟩ := window.heard
  have risen : earlier.toNat ≤ turn.now.toNat := BitVec.le_def.mp (later earlier newest)
  have deadline := window.deadline within fits
  have told := (idleStep_moves guard turn state.exec).announcedIfSafe tallied.told
  rw [stepped, idleStep_settled settled]
  by_cases met : state.exec.frameStart + obcSchedFrameTicks ≤ turn.now
  · rw [if_pos met]
    have next : (state.exec.frame + 1).toNat = state.exec.frame.toNat + 1 :=
      toNat_succ_frame within
    exact enterFrame_clocked ⟨tallied.told, tallied.degraded, tallied.overruns⟩
      ⟨window.frames, by rw [next]; exact deadline, window.opened, window.slack,
        ⟨turn.now, rfl, by rw [next, ← deadline]; exact BitVec.le_def.mp met⟩,
        by rw [next]; exact window.passes⟩
      (BitVec.le_def.mpr (by rw [next]; exact BitVec.lt_def.mp within))
  rw [if_neg met]
  by_cases waits : guard + 1 < idleGuardLimit
  · rw [if_pos waits]
    exact ⟨⟨tallied.told, tallied.degraded, tallied.overruns⟩,
      ⟨window.frames, window.onTime, window.opened, window.slack,
        ⟨turn.now, rfl, Nat.le_trans heard risen⟩, window.passes⟩, within⟩
  · rw [if_neg waits]
    exact ⟨⟨tallied.told, tallied.degraded, tallied.overruns⟩, trivial⟩

theorem clockedStep_clocked (fits : boundary start begun.frames.toNat < 2 ^ 64)
    (turn : Turn) (state : ClockedExec) (rises : ClockRises table turn state)
    (clocked : Clocked start begun state) :
    Clocked start begun (clockedStep table turn state) := by
  cases phase : state.exec.phase with
  | start =>
      simp only [Clocked, phase, and_false] at clocked
  | visit index => exact visitStep_clocked phase clocked
  | endPass => exact endPassStep_clocked phase fits rises clocked
  | idle guard => exact idleStep_clocked phase fits rises clocked
  | returned status =>
      simpa only [clockedStep, SchedReads, execTurn, phase, reduceCtorEq, ↓reduceIte] using clocked
  | reset =>
      simpa only [clockedStep, SchedReads, execTurn, phase, reduceCtorEq, ↓reduceIte] using clocked

theorem Clocked.inStep (clocked : Clocked start begun state)
    (fits : boundary start begun.frames.toNat < 2 ^ 64) : InStep start state := by
  obtain ⟨tallied, standing⟩ := clocked
  refine ⟨fun index phase => ?_, fun inFrame => ?_, tallied.degraded⟩
  · simp only [phase] at standing
    obtain ⟨reading, newest, reached⟩ := standing.1.heard
    exact ⟨reading, List.mem_of_mem_head? newest, reached⟩
  · cases phase : state.exec.phase with
    | visit index =>
        simp only [phase] at standing
        exact standing.1.deadline standing.2 fits
    | endPass =>
        simp only [phase] at standing
        exact standing.1.deadline standing.2 fits
    | idle guard =>
        simp only [phase] at standing
        exact standing.1.deadline standing.2 fits
    | start => simp only [phase, InProgress] at inFrame
    | returned status => simp only [phase, InProgress] at inFrame
    | reset => simp only [phase, InProgress] at inFrame

end Turn

/-- Over every window that returns OK: the schedule and the clock agree about its frames if
and only if its last boundary is one that the clock can show. -/
theorem window_on_schedule {table : List ObcTask} {begun : ExecState} {boot : Boot}
    {memory : ModeState} {first : Turn} {rest : List Turn} (opened : begun.phase = .start)
    (booted : begun.mode = executiveState boot memory)
    (rises : Meets (clockedStep table) (ClockRises table) (first :: rest) (unclocked begun))
    (returned : (run (clockedStep table) (first :: rest) (unclocked begun)).exec.phase =
      .returned .ok) :
    OnSchedule table begun first.now (first :: rest) ↔
      boundary first.now begun.frames.toNat < 2 ^ 64 := by
  constructor
  · intro onSchedule
    obtain ⟨reading, _, reached⟩ := onSchedule.waitedOut.last
    exact Nat.lt_of_le_of_lt reached reading.isLt
  intro fits
  have told : AnnouncedIfSafe begun.mode := booted ▸ executiveState_announced boot memory
  have started := startWindow_clocked opened told rises.1
  have clocked {before : List Turn} (part : before <+: rest) :
      Clocked first.now begun
        (run (clockedStep table) before (clockedStep table first (unclocked begun))) :=
    meets_invariant (clockedStep_clocked fits) (meets_part part rises.2) started
  constructor
  · intro before part
    cases before with
    | nil =>
        refine ⟨fun index phase => ?_, fun inFrame => ?_, fun late => absurd late (Nat.lt_irrefl 0)⟩
        · rw [run, unclocked, opened] at phase
          cases phase
        · rw [run, unclocked, opened] at inFrame
          cases inFrame
    | cons turn before =>
        obtain ⟨rfl, within⟩ := List.cons_prefix_cons.mp part
        exact (clocked within).inStep fits
  · have final := (clocked (List.prefix_refl rest)).2
    rw [run] at returned ⊢
    simpa only [returned] using final

def clockTurn (now : U64) : Turn := { clock := .ok, now := now, used := 0, votes := 0 }

def clockFrame (passed ended : U64) : List Turn :=
  List.replicate obcTaskTable.length (clockTurn passed) ++ [clockTurn passed, clockTurn ended]

/-- The first of three frames runs one and a half frames long, and the second catches up. -/
def lateTurns : List Turn :=
  clockFrame 6536 6536 ++ clockFrame 6600 7048 ++ clockFrame 7100 8100

theorem late_window_on_schedule :
    let turns := clockTurn 5000 :: lateTurns
    let final := run (clockedStep obcTaskTable) turns (unclocked (coldExec 3))
    final.exec.frameOverruns = 1 ∧ final.exec.slackTicksMin = 0 ∧
      OnSchedule obcTaskTable (coldExec 3) 5000 turns := by
  intro turns final
  have rises : Meets (clockedStep obcTaskTable) (ClockRises obcTaskTable) turns
      (unclocked (coldExec 3)) := by decide +kernel
  have returned : final.exec.phase = .returned .ok := by decide +kernel
  have fits : boundary 5000 3 < 2 ^ 64 := by decide
  have booted : (coldExec 3).mode = executiveState uneventfulBoot coldMode := rfl
  have schedule : OnSchedule obcTaskTable (coldExec 3) 5000 turns :=
    (window_on_schedule rfl booted rises returned).mpr fits
  have late : final.exec.frameOverruns = 1 ∧ final.exec.slackTicksMin = 0 := by decide +kernel
  exact ⟨late.1, late.2, schedule⟩

/-- The last tick that the timer can show: the frame due 1024 ticks on is entered at once. -/
def wrappingTurns : List Turn :=
  clockTurn 0xFFFFFFFFFFFFFFFF :: clockFrame 0xFFFFFFFFFFFFFFFF 0xFFFFFFFFFFFFFFFF

theorem wrapping_window_not_waited_out :
    let final := run (clockedStep obcTaskTable) wrappingTurns (unclocked (coldExec 1))
    Meets (clockedStep obcTaskTable) (ClockRises obcTaskTable) wrappingTurns
        (unclocked (coldExec 1)) ∧
      final.exec.phase = .returned .ok ∧
      (∀ reading ∈ final.readings, ¬boundary 0xFFFFFFFFFFFFFFFF 1 ≤ reading.toNat) ∧
      ¬OnSchedule obcTaskTable (coldExec 1) 0xFFFFFFFFFFFFFFFF wrappingTurns := by
  intro final
  -- no 64-bit reading can be as late as the boundary
  have short : ∀ reading ∈ final.readings, ¬boundary 0xFFFFFFFFFFFFFFFF 1 ≤ reading.toNat :=
    fun reading _ => Nat.not_le.mpr (Nat.lt_of_lt_of_le reading.isLt (by decide))
  have rises : Meets (clockedStep obcTaskTable) (ClockRises obcTaskTable) wrappingTurns
      (unclocked (coldExec 1)) := by decide +kernel
  have returned : final.exec.phase = .returned .ok := by decide +kernel
  have unscheduled (schedule :
      OnSchedule obcTaskTable (coldExec 1) 0xFFFFFFFFFFFFFFFF wrappingTurns) : False := by
    obtain ⟨reading, newest, reached⟩ := schedule.waitedOut.last
    exact short reading (List.mem_of_mem_head? newest) reached
  exact ⟨rises, returned, short, unscheduled⟩

end ObcZero
