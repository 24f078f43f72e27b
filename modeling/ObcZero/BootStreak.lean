import ObcZero.BootCore
import ObcZero.SchedRun

/-! The streak of short boots over a sequence of boots, each of which dies wherever
it dies, and what the ladder may still do in the boot that sees it. -/

namespace ObcZero

open StoreSequence StepSystem

def LeftHealthy (record : ObcBootRecord) : Prop :=
  ∃ before frames, obcHealthyFrames ≤ frames ∧
    record = perform (obcRecoverBootIsHealthy frames) before

structure SeesStreak (streak : Nat) (life : BootLife) (record : ObcBootRecord) : Prop where
  counted : (obcRecoverShortBoots (obcRecoverBootBegins record).2).toNat = streak
  resets : .resetNow ∈ (afterExecutive life record).log → streak < obcShortBootLimit.toNat
  degraded : obcShortBootLimit.toNat ≤ streak →
    (obcModeIsSafe (beforeExecutive life record).mode).1 = true ∧
      .resetNow ∉ (afterExecutive life record).log ∧ (afterExecutive life record).phase ≠ .reset

theorem perform_bootRecordWrite (count inProgress : U32) (record : ObcBootRecord) :
    perform (bootRecordWrite count inProgress) record =
      { magic := obcBootMagic
        checksum := obcBootChecksumSeed ^^^ count ^^^ (inProgress * 0x9E3779B9)
        shortBoots := count
        inProgress := inProgress } := rfl

theorem bootCount_written (count inProgress : U32) (record : ObcBootRecord) :
    bootCount (perform (bootRecordWrite count inProgress) record) =
      if inProgress ≠ 0 then count + 1 else count := by
  have intact : bootRecordIsIntact (perform (bootRecordWrite count inProgress) record) = true := by
    simp [perform_bootRecordWrite, bootRecordIsIntact, bootChecksum]
  rw [bootCount, if_pos intact]
  rfl

theorem obcRecoverShortBoots_begun (record : ObcBootRecord) :
    obcRecoverShortBoots (obcRecoverBootBegins record).2 = bootCount record := by
  simp [obcRecoverBootBegins, perform_bootRecordWrite, obcRecoverShortBoots, bootRecordIsIntact,
    bootChecksum]

theorem bootCount_begun (record : ObcBootRecord) :
    bootCount (obcRecoverBootBegins record).2 = bootCount record + 1 := by
  simp only [obcRecoverBootBegins]
  rw [bootCount_written, if_pos (by decide)]

theorem bootCount_unmarked {record : ObcBootRecord} (unmarked : record.magic = 0) :
    bootCount record = 0 := by
  have torn : bootRecordIsIntact record = false := by
    rw [bootRecordIsIntact, unmarked]
    rfl
  rw [bootCount, torn, if_neg (by simp)]

/-- A reset between any two of the stores of `boot_record_write` leaves nothing to count. -/
theorem bootCount_torn {stores : Nat} (begun : 0 < stores) (short : stores < 5)
    (count inProgress : U32) (record : ObcBootRecord) :
    bootCount (interrupted (bootRecordWrite count inProgress) stores record) = 0 := by
  obtain rfl | rfl | rfl | rfl : stores = 1 ∨ stores = 2 ∨ stores = 3 ∨ stores = 4 := by omega
  · exact bootCount_unmarked rfl
  · exact bootCount_unmarked rfl
  · exact bootCount_unmarked rfl
  · exact bootCount_unmarked rfl

theorem bootCount_complete {stores : Nat} (enough : 5 ≤ stores) (count inProgress : U32)
    (record : ObcBootRecord) :
    bootCount (interrupted (bootRecordWrite count inProgress) stores record) =
      if inProgress ≠ 0 then count + 1 else count := by
  rw [interrupted_complete enough, bootCount_written]

theorem bootCount_healthy {stores : Nat} (begun : 0 < stores) (record : ObcBootRecord) :
    bootCount (interrupted (bootRecordWrite 0 0) stores record) = 0 := by
  rcases Nat.lt_or_ge stores 5 with short | enough
  · exact bootCount_torn begun short 0 0 record
  · exact bootCount_complete enough 0 0 record

/-- What the executive can do about resets: it leaves the boot record alone, and
resets only while the streak it reads there is below the limit. -/
structure Restrained (before after : ExecState) : Prop where
  boot : after.boot = before.boot
  logged : .resetNow ∈ after.log → .resetNow ∈ before.log ∨
    ¬obcShortBootLimit ≤ obcRecoverShortBoots before.boot
  halted : after.phase = .reset → before.phase = .reset ∨
    ¬obcShortBootLimit ≤ obcRecoverShortBoots before.boot

theorem Visit.restrained {row : ObcTask} {index : Nat} {turn : Turn} {state after : ExecState}
    (visit : Visit row index turn state after) : Restrained state after := by
  cases visit with
  | skipped => exact ⟨rfl, fun told => .inl (by simpa using told), .inl⟩
  | suspended => exact ⟨rfl, fun told => .inl (by simpa using told), .inl⟩
  | nullFunction => exact ⟨rfl, fun told => .inl (by simpa using told), .inl⟩
  | within => exact ⟨rfl, fun told => .inl (by simpa [afterDispatch] using told), .inl⟩
  | suspends => exact ⟨rfl, fun told => .inl (by simpa using told), .inl⟩
  | resetsSubsystem => exact ⟨rfl, fun told => .inl (by simpa using told), .inl⟩
  | entersSafe => exact ⟨rfl, fun told => .inl (by simpa [afterDispatch] using told), .inl⟩
  | resetsMachine _ _ _ _ _ unspent => exact ⟨rfl, fun _ => .inr unspent, fun _ => .inr unspent⟩

theorem schedNow_boot (turn : Turn) (frame : U32) (state : ExecState) :
    (schedNow turn frame state).boot = state.boot := by
  obtain ⟨mode, entry, read⟩ := schedNow_cases turn frame state
  rw [read]

theorem enterFrame_boot (state : ExecState) : (enterFrame state).boot = state.boot := by
  unfold enterFrame
  split
  · rfl
  · rfl

theorem startWindow_boot (table : List ObcTask) (turn : Turn) (state : ExecState) :
    (startWindow table turn state).boot = state.boot := by
  rcases startWindow_cases table turn state with refused | ⟨_, ended⟩ | ⟨_, _, opened⟩
  · rw [refused]
    rfl
  · rw [ended]
    exact schedNow_boot turn 0 (state.record .armHardware)
  · rw [opened, enterFrame_boot]
    rfl

theorem endPassStep_boot (table : List ObcTask) (turn : Turn) (state : ExecState) :
    (endPassStep table turn state).boot = state.boot := by
  by_cases settled : turn.clock = .ok
  swap
  · rw [endPassStep_unsettled settled]
    exact schedNow_boot turn state.frame { state with log := passLog table state }
  by_cases late : state.frameStart + obcSchedFrameTicks ≤ turn.now
  · rw [endPassStep_late settled late]
  · obtain ⟨slack, passed⟩ := endPassStep_early settled late table
    rw [passed]

theorem idleStep_boot (guard : Nat) (turn : Turn) (state : ExecState) :
    (idleStep guard turn state).boot = state.boot := by
  rcases idleStep_cases guard turn state with ⟨_, ended⟩ | spent | ⟨next, waits⟩ | advances
  · rw [ended]
    exact schedNow_boot turn state.frame state
  · rw [spent]
    rfl
  · rw [waits]
  · rw [advances, enterFrame_boot]

/-- Whatever does not tell of a reset and does not end in one leaves the ladder restrained. -/
theorem Restrained.silent {before after : ExecState} (boot : after.boot = before.boot)
    (running : after.phase ≠ .reset)
    (silent : .resetNow ∈ after.log → .resetNow ∈ before.log) : Restrained before after :=
  ⟨boot, fun told => .inl (silent told), fun reset => absurd reset running⟩

theorem execStep_restrained (table : List ObcTask) (input : ExecInput) (state : ExecState) :
    Restrained state (execStep table input state) := by
  cases input with
  | corrupt index copy => exact ⟨rfl, .inl, .inl⟩
  | turn turn =>
      cases phase : state.phase with
      | start =>
          simp only [execStep, execTurn, phase]
          refine .silent (startWindow_boot table turn state) ?_ ?_
          · cases (startWindow_started table turn state).2 with
            | stopped status ends => simp [ends]
            | begun ends => simp [ends]
          · cases (startWindow_started table turn state).2 with
            | stopped _ _ _ log => simp [log]
            | begun _ _ _ _ _ _ _ _ _ log => simp [log]
      | visit index =>
          simp only [execStep, execTurn, phase]
          cases visitStep_visited table index turn state with
          | past beyond passed =>
              rw [passed]
              exact .silent rfl (by simp) id
          | reset row found visit ended => exact visit.restrained
          | went row found visited visit passed =>
              have restrained := visit.restrained
              rw [passed]
              refine ⟨restrained.boot, restrained.logged, fun reset => ?_⟩
              by_cases more : index + 1 < table.length
              · simp [more] at reset
              · simp [more] at reset
      | endPass =>
          simp only [execStep, execTurn, phase]
          refine .silent (endPassStep_boot table turn state) ?_ ?_
          · cases (endPassStep_ended table turn state).2.2 with
            | stopped _ _ ends => simp [ends]
            | kept ends => simp [ends]
            | degraded ends => simp [ends]
          · cases (endPassStep_ended table turn state).2.2 with
            | stopped _ _ _ log => simp [log, mem_passLog]
            | kept _ _ _ log => simp [log, mem_passLog]
            | degraded _ _ _ _ log => simp [log, mem_passLog]
      | idle guard =>
          simp only [execStep, execTurn, phase]
          refine .silent (idleStep_boot guard turn state) ?_ ?_
          · cases (idleStep_idled guard turn state).2 with
            | stopped _ _ ends => simp [ends]
            | waits next waited => simp [waited]
            | entered ends => simp [ends]
            | finished ends => simp [ends]
          · cases (idleStep_idled guard turn state).2 with
            | stopped _ _ _ log => simp [log]
            | waits next waited => simp [waited]
            | entered _ _ _ _ _ _ _ log => simp [log]
            | finished _ _ _ log => simp [log]
      | returned status =>
          simp only [execStep, execTurn, phase]
          exact ⟨rfl, .inl, fun reset => .inl reset⟩
      | reset =>
          simp only [execStep, execTurn, phase]
          exact ⟨rfl, .inl, fun _ => .inl phase⟩

theorem executive_restrained (table : List ObcTask) (inputs : List ExecInput)
    (start : ExecState) : Restrained start (run (execStep table) inputs start) := by
  have preserved : ∀ input state, Restrained start state →
      Restrained start (execStep table input state) := by
    intro input state so
    have step := execStep_restrained table input state
    refine ⟨step.boot.trans so.boot, fun told => ?_, fun reset => ?_⟩
    · rcases step.logged told with earlier | below
      · exact so.logged earlier
      · exact .inr (so.boot ▸ below)
    · rcases step.halted reset with earlier | below
      · exact so.halted earlier
      · exact .inr (so.boot ▸ below)
  exact run_invariant preserved inputs ⟨rfl, .inl, .inl⟩

theorem obcModeEnterSafe_told {mode : ModeState} (told : AnnouncedIfSafe mode) (reason : U32) :
    (obcModeIsSafe (obcModeEnterSafe reason mode)).1 = true := by
  by_cases fresh : mode.announced = 0
  · exact obcModeEnterSafe_fresh fresh reason
  · rw [obcModeEnterSafe_announced fresh]
    by_contra nominal
    exact fresh (told (by simpa using nominal))

/-- The ladder's own entry at the start of a boot never resets it: it asks the count
that has just been written. -/
theorem beforeExecutive_eq (life : BootLife) (record : ObcBootRecord) :
    ∃ mode, beforeExecutive life record =
        freshExec obcSchedWindowFrames mode (obcRecoverBootBegins record).2 ∧
      (obcShortBootLimit ≤ bootCount record → (obcModeIsSafe mode).1 = true) := by
  have restored := announcedIfSafe_restore life.previousResetCause (startup life.found)
  have kept : obcRecoverShortBoots (obcRecoverBootBegins record).2 = bootCount record :=
    obcRecoverShortBoots_begun record
  by_cases spent : obcShortBootLimit ≤ bootCount record
  · have rung : (obcRecoverBootBegins record).1 = obcRungResetMachine := by
      simp only [obcRecoverBootBegins, spent, ↓reduceIte]
    have safe := obcModeEnterSafe_told restored obcSafeResetLoop
    simp only [beforeExecutive, rung, ↓reduceIte, obcRecoverEscalate_resetMachine, freshExec, kept,
      spent]
    split
    · exact ⟨_, rfl, fun _ => safe⟩
    · exact ⟨_, rfl, fun _ => obcModeEnterSafe_answer safe obcSafeTelemetry⟩
  · have rung : (obcRecoverBootBegins record).1 ≠ obcRungResetMachine := by
      simp only [obcRecoverBootBegins, spent, ↓reduceIte]
      decide
    simp only [beforeExecutive, rung, ↓reduceIte, freshExec]
    split
    · exact ⟨_, rfl, fun reached => absurd reached spent⟩
    · exact ⟨_, rfl, fun reached => absurd reached spent⟩

theorem afterExecutive_boot (life : BootLife) (record : ObcBootRecord) :
    (afterExecutive life record).boot = (obcRecoverBootBegins record).2 := by
  obtain ⟨mode, start, _⟩ := beforeExecutive_eq life record
  rw [afterExecutive, (executive_restrained obcTaskTable _ _).boot, start]
  rfl

theorem afterExecutive_below {life : BootLife} {record : ObcBootRecord}
    (reset : .resetNow ∈ (afterExecutive life record).log ∨
      (afterExecutive life record).phase = .reset) :
    bootCount record < obcShortBootLimit := by
  obtain ⟨mode, start, _⟩ := beforeExecutive_eq life record
  have restrained := executive_restrained obcTaskTable (life.executive.getD [])
    (beforeExecutive life record)
  have below : ¬obcShortBootLimit ≤ obcRecoverShortBoots (beforeExecutive life record).boot := by
    rcases reset with told | halted
    · rcases restrained.logged told with early | below
      · rw [start] at early
        simp [freshExec] at early
      · exact below
    · rcases restrained.halted halted with early | below
      · rw [start] at early
        cases early
      · exact below
  rw [start] at below
  simpa [freshExec, obcRecoverShortBoots_begun] using below

theorem bootLife_short {life : BootLife} {record : ObcBootRecord}
    (short : ¬DeclaredHealthy life record) :
    bootLife life record = (obcRecoverBootBegins record).2 := by
  rw [bootLife]
  split
  · rename_i returned
    by_cases frames : (afterExecutive life record).framesRun < obcHealthyFrames
    · rw [obcRecoverBootIsHealthy, if_pos frames]
      simp [interrupted, afterExecutive_boot]
    · have none : life.healthyStores = 0 := by
        by_contra some
        exact short ⟨returned, by simpa using frames, Nat.pos_of_ne_zero some⟩
      rw [none]
      exact afterExecutive_boot life record
  · exact afterExecutive_boot life record

theorem bootCount_declared {life : BootLife} {record : ObcBootRecord}
    (healthy : DeclaredHealthy life record) : bootCount (bootLife life record) = 0 := by
  obtain ⟨returned, frames, stores⟩ := healthy
  simp only [bootLife, returned, ↓reduceIte]
  rw [obcRecoverBootIsHealthy, if_neg (by simpa using frames)]
  exact bootCount_healthy stores _

theorem bootCount_streak {record : ObcBootRecord} (lives : List BootLife)
    (short : Meets bootLife (fun life record => ¬DeclaredHealthy life record) lives record) :
    bootCount (run bootLife lives record) = bootCount record + BitVec.ofNat 32 lives.length := by
  induction lives generalizing record with
  | nil => simp [run]
  | cons life rest ih =>
      rw [run, ih short.2, bootLife_short short.1, bootCount_begun, List.length_cons]
      apply BitVec.eq_of_toNat_eq
      simp
      omega

theorem bootCount_fresh {record : ObcBootRecord}
    (fresh : bootRecordIsIntact record = false ∨ LeftHealthy record) : bootCount record = 0 := by
  rcases fresh with noise | ⟨before, frames, enough, left⟩
  · rw [bootCount, noise, if_neg (by simp)]
  · rw [left, obcRecoverBootIsHealthy, if_neg (by simpa using enough), bootCount_written]
    rfl

theorem seesStreak {streak : Nat} {record : ObcBootRecord} (life : BootLife)
    (counted : (bootCount record).toNat = streak) : SeesStreak streak life record := by
  have below (reset : .resetNow ∈ (afterExecutive life record).log ∨
      (afterExecutive life record).phase = .reset) : streak < obcShortBootLimit.toNat := by
    have below := afterExecutive_below reset
    rwa [BitVec.lt_def, counted] at below
  refine ⟨?_, fun told => below (.inl told), fun spent => ⟨?_, fun told => ?_, fun halted => ?_⟩⟩
  · rw [obcRecoverShortBoots_begun, counted]
  · obtain ⟨mode, start, safe⟩ := beforeExecutive_eq life record
    rw [start]
    exact safe (by rwa [BitVec.le_def, counted])
  · exact absurd (below (.inl told)) (Nat.not_lt.mpr spent)
  · exact absurd (below (.inr halted)) (Nat.not_lt.mpr spent)

/-- Boots are counted from zero, so the sixth is number five. -/
theorem streak_counts_short_boots {record : ObcBootRecord} {lives : List BootLife}
    (fresh : bootRecordIsIntact record = false ∨ LeftHealthy record)
    (few : lives.length < 2 ^ 32 - 5)
    (short : Meets bootLife (fun life record => ¬DeclaredHealthy life record) lives record) :
    (∀ k (inside : k < lives.length),
      SeesStreak k (lives.get ⟨k, inside⟩) (run bootLife (lives.take k) record)) ∧
    ∀ life before, DeclaredHealthy life before →
      obcRecoverShortBoots (obcRecoverBootBegins (bootLife life before)).2 = 0 := by
  constructor
  · intro k inside
    rw [← List.take_append_drop k lives, meets_append] at short
    have counted := bootCount_streak (lives.take k) short.1
    rw [bootCount_fresh fresh, List.length_take, Nat.min_eq_left (Nat.le_of_lt inside)] at counted
    apply seesStreak
    rw [counted]
    simp
    omega
  · intro life before healthy
    rw [obcRecoverShortBoots_begun]
    exact bootCount_declared healthy

def loopingLife : BootLife :=
  { found := coldMode, previousResetCause := obcResetRequested, layout := .ok
    executive := some (punctualRun [[2000, 0, 0, 0, 0], [0, 0, 0, 0, 0], [2000, 0, 0, 0, 0]])
    healthyStores := 0 }

theorem flight_streak_counts_short_boots :
    (∀ k (inside : k < (List.replicate 7 loopingLife).length),
      SeesStreak k ((List.replicate 7 loopingLife).get ⟨k, inside⟩)
        (run bootLife ((List.replicate 7 loopingLife).take k)
          { magic := 0xDEAD, checksum := 0xBEEF, shortBoots := 0xFFFF, inProgress := 7 })) ∧
    ∀ life before, DeclaredHealthy life before →
      obcRecoverShortBoots (obcRecoverBootBegins (bootLife life before)).2 = 0 :=
  streak_counts_short_boots (.inl (by decide)) (by decide) (by decide +kernel)

end ObcZero
