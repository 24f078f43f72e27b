import ObcZero.ModeCore
import ObcZero.CriticalVote

/-! The mode across resets: what each part of a boot leaves in the record, and
which boots carry safe mode over to the next one. -/

namespace ObcZero

open StepSystem StoreSequence

theorem perform_writeCopyStores (item : ObcCriticalItem) (index : Fin 3) (value : U32)
    (critical : CriticalState) :
    perform (writeCopyStores item index value) critical = writeCopy item index value critical := by
  simp [writeCopyStores, writeCopy, storeCopy, writtenCopy, copyAt]

theorem perform_lifted (stores : List (CriticalState → CriticalState)) (state : ModeState) :
    perform (stores.map fun store (state : ModeState) =>
        { state with critical := store state.critical }) state =
      { state with critical := perform stores state.critical } := by
  induction stores generalizing state with
  | nil => rfl
  | cons store rest ih => rw [List.map_cons, perform_cons, ih, perform_cons]

theorem perform_setModeStores (value : U32) (state : ModeState) :
    perform (setModeStores value) state =
      { state with critical := obcCriticalSet (some obcCriticalMode) value state.critical } := by
  simp only [setModeStores, finRange_three, List.flatMap_cons, List.flatMap_nil, perform_append,
    perform_lifted, perform_writeCopyStores, perform_nil, obcCriticalSet, List.foldl_cons,
    List.foldl_nil]

theorem perform_nominalStores (state : ModeState) :
    perform nominalStores state =
      { state with
        critical := obcCriticalSet (some obcCriticalMode) obcModeNominal state.critical
        mode := obcModeNominal, safeReason := obcSafeNone, announced := 0 } := by
  simp only [nominalStores, perform_append, perform_setModeStores, perform_cons, perform_nil]

theorem perform_degradeStores (reason : U32) (state : ModeState) :
    perform (degradeStores reason) state =
      { state with
        critical := obcCriticalSet (some obcCriticalMode) obcModeSafe state.critical
        mode := obcModeSafe, safeReason := reason, announced := 1 } := by
  simp only [degradeStores, List.cons_append, perform_append, perform_setModeStores, perform_cons,
    perform_nil]

theorem perform_recordStores (reason : U32) (state : ModeState) :
    perform (recordStores reason) state =
      { state with
        record := { magic := obcModeMagic, checksum := obcModeChecksumSeed ^^^ reason,
                    reason := reason } } := rfl

theorem entriesStores_announced (reasons : List U32) {state : ModeState}
    (announced : state.announced ≠ 0) : entriesStores reasons state = [] := by
  induction reasons with
  | nil => rfl
  | cons reason rest ih =>
      have silent : enterSafeStores reason state = [] := if_pos announced
      rw [entriesStores, obcModeEnterSafe, silent, perform_nil, ih, List.append_nil]

theorem announcement_record (reason : U32) :
    ∀ store ∈ announcement reason, ∀ state : ModeState, (store state).record = state.record := by
  simp [announcement, uartPuts]

theorem setModeStores_record (value : U32) :
    ∀ store ∈ setModeStores value, ∀ state : ModeState, (store state).record = state.record := by
  intro store member
  obtain ⟨index, _, written⟩ := List.mem_flatMap.mp member
  obtain ⟨words, _, rfl⟩ := List.mem_map.mp written
  exact fun _ => rfl

def beforeRecord (reason : U32) : List (ModeState → ModeState) :=
  nominalStores ++ degradeStores reason

theorem beforeRecord_record (reason : U32) :
    ∀ store ∈ beforeRecord reason, ∀ state : ModeState, (store state).record = state.record := by
  simp only [beforeRecord, nominalStores, degradeStores, List.cons_append, List.mem_append,
    List.mem_cons, List.not_mem_nil, or_false]
  rintro store ((words | rfl | rfl | rfl) | rfl | words | rfl | rfl)
  · exact setModeStores_record _ store words
  all_goals first
    | exact fun _ => rfl
    | exact setModeStores_record _ store words

theorem beforeRecord_length (reason : U32) : (beforeRecord reason).length = 18 := rfl

theorem perform_beforeRecord (reason : U32) (state : ModeState) :
    perform (beforeRecord reason) state =
      { state with
        critical := obcCriticalSet (some obcCriticalMode) obcModeSafe
          (obcCriticalSet (some obcCriticalMode) obcModeNominal state.critical)
        mode := obcModeSafe, safeReason := reason, announced := 1 } := by
  rw [beforeRecord, perform_append, perform_nominalStores, perform_degradeStores]

theorem restore_enters (reason : U32) (state : ModeState) :
    nominalStores ++ enterSafeStores reason (perform nominalStores state) =
      beforeRecord reason ++ (recordStores reason ++ announcement reason) := by
  rw [perform_nominalStores]
  simp only [enterSafeStores, ne_eq, not_true_eq_false, ↓reduceIte, beforeRecord,
    List.append_assoc]

/-- What `obc_mode_restore` can leave: safe mode for a trap, safe mode for the reason of
an authentic record, or the nominal mode. -/
theorem obcModeRestore_cases (cause : U32) (state : ModeState) :
    obcModeRestore cause state = obcModeEnterSafe obcSafeTrap (perform nominalStores state) ∨
      (recordAuthentic (perform nominalStores state).record = true ∧
        obcModeRestore cause state =
          obcModeEnterSafe (perform nominalStores state).record.reason
            (perform nominalStores state)) ∨
      obcModeRestore cause state = perform nominalStores state := by
  rw [obcModeRestore, restoreStores, perform_append]
  split
  · exact .inl rfl
  · split
    · rename_i authentic
      exact .inr (.inl ⟨authentic, rfl⟩)
    · exact .inr (.inr rfl)

/-- With an authentic record behind it, a boot enters safe mode before anything
else, whatever reset cause it reads. -/
theorem restoreStores_authentic (cause : U32) {state : ModeState}
    (authentic : recordAuthentic state.record = true) :
    ∃ reason, restoreStores cause state =
      beforeRecord reason ++ (recordStores reason ++ announcement reason) := by
  have kept : (perform nominalStores state).record = state.record := by
    rw [perform_nominalStores]
  by_cases trapped : cause = obcResetTrap ∨ cause = obcResetDoubleFault
  · refine ⟨obcSafeTrap, ?_⟩
    simp only [restoreStores, trapped, ↓reduceIte]
    exact restore_enters obcSafeTrap state
  · refine ⟨state.record.reason, ?_⟩
    simp only [restoreStores, trapped, ↓reduceIte, kept, authentic]
    exact restore_enters state.record.reason state

theorem bootStores_authentic (boot : Boot) {state : ModeState}
    (authentic : recordAuthentic state.record = true) :
    ∃ reason,
      mainStores boot (startup state) =
        beforeRecord reason ++ (recordStores reason ++ announcement reason) ∧
      bootStores boot state = mainStores boot (startup state) := by
  have surviving : recordAuthentic (startup state).record = true := authentic
  obtain ⟨reason, restores⟩ := restoreStores_authentic boot.previousResetCause surviving
  have announced (before : ModeState) :
      (perform (beforeRecord reason ++ (recordStores reason ++ announcement reason))
        before).announced ≠ 0 := by
    rw [perform_append, perform_beforeRecord]
    change (1 : U32) ≠ 0
    decide
  have noneLater : mainStores boot (startup state) =
      beforeRecord reason ++ (recordStores reason ++ announcement reason) := by
    rw [mainStores, obcModeRestore, restores, entriesStores_announced _ (announced _),
      List.append_nil]
  refine ⟨reason, noneLater, ?_⟩
  rw [bootStores, executiveState, noneLater, entriesStores_announced _ (announced _),
    List.append_nil]

/-- How many stores a boot makes before the one that clears the record's magic;
the fourth store of the rewrite is the one that writes the magic back. -/
def recordRewriteStart : Nat := 18

def MissesRecordRewrite (boot : Boot) (_ : ModeState) : Prop :=
  ∀ count, boot.reset = some count →
    count ≤ recordRewriteStart ∨ recordRewriteStart + 4 ≤ count

theorem recordAuthentic_rewritten (reason : U32) (state : ModeState) :
    recordAuthentic (perform (recordStores reason ++ announcement reason) state).record = true := by
  rw [perform_append, perform_unchanged ModeState.record (announcement_record reason),
    perform_recordStores]
  simp [recordAuthentic, modeChecksum]

theorem bootStep_authentic (boot : Boot) (state : ModeState)
    (misses : MissesRecordRewrite boot state)
    (authentic : recordAuthentic state.record = true) :
    recordAuthentic (bootStep boot state).record = true := by
  obtain ⟨reason, main, whole⟩ := bootStores_authentic boot authentic
  cases landed : boot.reset with
  | none =>
      simp only [bootStep, landed, whole, main]
      rw [perform_append]
      exact recordAuthentic_rewritten reason _
  | some count =>
      simp only [bootStep, landed, whole, main]
      rcases misses count landed with early | late
      · rw [interrupted_append_first (by rwa [beforeRecord_length]),
          interrupted_unchanged ModeState.record (beforeRecord_record reason)]
        exact authentic
      · have rewritten : (recordStores reason).length ≤ count - (beforeRecord reason).length := by
          rw [beforeRecord_length]
          change 4 ≤ count - 18
          have bound : 18 + 4 ≤ count := late
          omega
        have beyond : (beforeRecord reason).length ≤ count := by
          rw [beforeRecord_length]
          exact Nat.le_trans (Nat.le_add_right 18 4) late
        rw [interrupted_append_second beyond, interrupted_append_second rewritten,
          interrupted_unchanged ModeState.record (announcement_record reason),
          perform_recordStores]
        simp [recordAuthentic, modeChecksum]

theorem obcModeIsSafe_written {state : ModeState} {value : U32}
    (written : Written obcCriticalMode value state.critical) :
    (obcModeIsSafe state).1 = (value == obcModeSafe) := by
  simp only [obcModeIsSafe, obcCriticalGet, (written.but 0).vote obcCriticalItems,
    Option.getD_some]

theorem written_obcCriticalSet (item : ObcCriticalItem) (value : U32) (state : CriticalState) :
    Written item value (obcCriticalSet (some item) value state) := by
  rw [obcCriticalSet_eq]
  exact written_withCopies item value state

theorem executiveState_safe (boot : Boot) {state : ModeState}
    (authentic : recordAuthentic state.record = true) :
    (obcModeIsSafe (executiveState boot state)).1 = true := by
  obtain ⟨reason, main, _⟩ := bootStores_authentic boot authentic
  have written : Written obcCriticalMode obcModeSafe (executiveState boot state).critical := by
    rw [executiveState, main, perform_append, perform_beforeRecord]
    exact written_obcCriticalSet obcCriticalMode obcModeSafe _
  rw [obcModeIsSafe_written written]
  rfl

theorem obcModeEnterSafe_authentic (reason : U32) {state : ModeState}
    (fresh : state.announced = 0) :
    recordAuthentic (obcModeEnterSafe reason state).record = true := by
  have stores : enterSafeStores reason state =
      degradeStores reason ++ (recordStores reason ++ announcement reason) := by
    rw [enterSafeStores, if_neg (by simp [fresh]), List.append_assoc]
  rw [obcModeEnterSafe, stores, perform_append]
  exact recordAuthentic_rewritten reason _

theorem bootStep_torn {boot : Boot} {state : ModeState} {count : Nat}
    (landed : boot.reset = some count) (begun : recordRewriteStart < count)
    (unfinished : count < recordRewriteStart + 4)
    (authentic : recordAuthentic state.record = true) :
    recordAuthentic (bootStep boot state).record = false := by
  obtain ⟨reason, main, whole⟩ := bootStores_authentic boot authentic
  have beyond : (beforeRecord reason).length ≤ count := begun.le
  have inside : count - (beforeRecord reason).length ≤ (recordStores reason).length := by
    change count - 18 ≤ 4
    have bound : count < 18 + 4 := unfinished
    omega
  simp only [bootStep, landed, whole, main]
  rw [interrupted_append_second beyond, interrupted_append_first inside]
  obtain rfl | rfl | rfl : count = 19 ∨ count = 20 ∨ count = 21 := by
    have low : 18 < count := begun
    have high : count < 18 + 4 := unfinished
    omega
  all_goals rfl

theorem executiveState_unrecorded {boot : Boot} {state : ModeState}
    (untrapped : ¬(boot.previousResetCause = obcResetTrap ∨
      boot.previousResetCause = obcResetDoubleFault))
    (noEntry : boot.mainEntries = []) (torn : recordAuthentic state.record = false) :
    (obcModeIsSafe (executiveState boot state)).1 = false := by
  have unbelieved : recordAuthentic (perform nominalStores (startup state)).record = false := by
    rw [perform_nominalStores]
    exact torn
  have main : mainStores boot (startup state) = nominalStores := by
    simp only [mainStores, noEntry, entriesStores, restoreStores, untrapped, unbelieved,
      Bool.false_eq_true, ↓reduceIte, List.append_nil]
  have written : Written obcCriticalMode obcModeNominal (executiveState boot state).critical := by
    rw [executiveState, main, perform_nominalStores]
    exact written_obcCriticalSet obcCriticalMode obcModeNominal _
  rw [obcModeIsSafe_written written]
  rfl

/-- Safe mode outlasts every sequence of resets that misses the rewrite of the
mode record, and no wider class: a reset inside it loses the mode as soon as a
boot comes up that no trap degrades. -/
theorem safeMode_survives_resets (reason : U32) (state : ModeState) (fresh : state.announced = 0) :
    (∀ boots boot, Meets bootStep MissesRecordRewrite boots (obcModeEnterSafe reason state) →
      ReachesExecutive boot (run bootStep boots (obcModeEnterSafe reason state)) →
      (obcModeIsSafe
        (executiveState boot (run bootStep boots (obcModeEnterSafe reason state)))).1 = true) ∧
    (∀ interruptedBoot boot,
      ¬(boot.previousResetCause = obcResetTrap ∨ boot.previousResetCause = obcResetDoubleFault) →
      boot.mainEntries = [] →
      ((obcModeIsSafe (executiveState boot
          (bootStep interruptedBoot (obcModeEnterSafe reason state)))).1 = true ↔
        MissesRecordRewrite interruptedBoot (obcModeEnterSafe reason state))) := by
  have entered := obcModeEnterSafe_authentic reason fresh
  constructor
  · intro boots boot misses _
    have authentic : recordAuthentic
        (run bootStep boots (obcModeEnterSafe reason state)).record = true :=
      meets_invariant bootStep_authentic misses entered
    exact executiveState_safe boot authentic
  · intro interruptedBoot boot untrapped noEntry
    constructor
    · intro safe count landed
      by_contra inside
      simp only [not_or, Nat.not_le] at inside
      have torn := bootStep_torn landed inside.1 inside.2 entered
      rw [executiveState_unrecorded untrapped noEntry torn] at safe
      contradiction
    · intro misses
      exact executiveState_safe boot (bootStep_authentic interruptedBoot _ misses entered)

def uneventfulBoot : Boot :=
  { previousResetCause := obcResetUnknown
    mainEntries := []
    executiveEntries := []
    reset := none }

theorem flight_safeMode_survives_resets :
    let entered := obcModeEnterSafe obcSafeFrameOverrun (obcModeRestore obcResetUnknown coldMode)
    let resets := [{ uneventfulBoot with reset := some 18 },
      { uneventfulBoot with reset := some 22 }]
    (obcModeIsSafe (executiveState uneventfulBoot (run bootStep resets entered))).1 = true := by
  intro entered resets
  have survives := (safeMode_survives_resets obcSafeFrameOverrun
    (obcModeRestore obcResetUnknown coldMode) (by decide +kernel)).1
  have misses (count : Nat) (apart : count ≤ 18 ∨ 22 ≤ count) (before : ModeState) :
      MissesRecordRewrite { uneventfulBoot with reset := some count } before := by
    intro landing landed
    cases landed
    exact apart
  exact survives resets uneventfulBoot
    ⟨misses 18 (by decide) _, misses 22 (by decide) _, trivial⟩ trivial

/-- A watchdog reset between the clearing of the magic and its return: the next
boot comes up nominal. -/
theorem safeMode_lost_in_rewrite :
    let entered := obcModeEnterSafe obcSafeFrameOverrun (obcModeRestore obcResetUnknown coldMode)
    ¬∀ boots boot, ReachesExecutive boot (run bootStep boots entered) →
      (obcModeIsSafe (executiveState boot (run bootStep boots entered))).1 = true := by
  intro entered survives
  have nominal : (obcModeIsSafe (executiveState uneventfulBoot
      (run bootStep [{ uneventfulBoot with reset := some 19 }] entered))).1 = false := by
    decide +kernel
  rw [survives _ uneventfulBoot trivial] at nominal
  contradiction

end ObcZero
