import ObcZero.DispatchBooks

/-! The suspension log has a place for every entry that the ladder can make in one window. -/

namespace ObcZero

open StepSystem

/-- How much of the suspension log a task can have taken: an entry for its first overrun
and one for its second. -/
def logShare (figures : ObcTaskState) : Nat := min figures.overruns.toNat 2

def logShares (table : List ObcTask) (state : ExecState) : Nat :=
  ∑ index ∈ Finset.range table.length, logShare (state.taskState index)

structure LogHasRoom (table : List ObcTask) (state : ExecState) : Prop where
  length : state.suspensions.length ≤ logShares table state
  overflow : state.suspensionOverflow = 0

theorem logShares_le (table : List ObcTask) (state : ExecState) :
    logShares table state ≤ 2 * table.length := by
  have each : ∀ index ∈ Finset.range table.length, logShare (state.taskState index) ≤ 2 :=
    fun _ _ => Nat.min_le_right _ _
  have all := Finset.sum_le_card_nsmul _ _ _ each
  rw [Finset.card_range, smul_eq_mul] at all
  rw [logShares]
  omega

theorem logShares_update {table : List ObcTask} {index : Nat} (inside : index < table.length)
    (taskState : Nat → ObcTaskState) (figures : ObcTaskState) :
    (∑ other ∈ Finset.range table.length,
        logShare (Function.update taskState index figures other)) + logShare (taskState index) =
      (∑ other ∈ Finset.range table.length, logShare (taskState other)) + logShare figures := by
  have member := Finset.mem_range.mpr inside
  rw [← Finset.add_sum_erase _ _ member, ← Finset.add_sum_erase _ _ member, Function.update_self]
  have others : ∑ other ∈ (Finset.range table.length).erase index,
      logShare (Function.update taskState index figures other) =
        ∑ other ∈ (Finset.range table.length).erase index, logShare (taskState other) :=
    Finset.sum_congr rfl fun other belongs => by
      rw [Function.update_of_ne (Finset.ne_of_mem_erase belongs)]
  omega

/-- What only an escalation changes of the suspension log. -/
structure SameLog (before after : ExecState) : Prop where
  suspensions : after.suspensions = before.suspensions
  overflow : after.suspensionOverflow = before.suspensionOverflow

theorem LogHasRoom.same {table : List ObcTask} {before after : ExecState}
    (room : LogHasRoom table before) (log : SameLog before after)
    (taskState : after.taskState = before.taskState) : LogHasRoom table after := by
  constructor
  · rw [log.suspensions, logShares, taskState]
    exact room.length
  · exact log.overflow.trans room.overflow

theorem logSuspension_room {task : Nat} {frame rung : U32} {state : ExecState}
    (room : state.suspensions.length < obcSuspendLogLen) :
    (logSuspension task frame rung state).suspensions.length = state.suspensions.length + 1 ∧
      (logSuspension task frame rung state).suspensionOverflow = state.suspensionOverflow := by
  rw [logSuspension, if_neg (Nat.not_le.mpr room)]
  exact ⟨by simp, rfl⟩

/-- The rungs that are logged are those of the first two overruns. -/
theorem obcRecoverEscalate_room {row : ObcTask} {overruns : U32} {task : Nat} {frame : U32}
    {state : ExecState} :
    SameLog state (obcRecoverEscalate row (selectRung row overruns) task frame state) ∨
      ((overruns = 1 ∨ overruns = 2) ∧ (state.suspensions.length < obcSuspendLogLen →
        (obcRecoverEscalate row (selectRung row overruns) task frame state).suspensions.length =
            state.suspensions.length + 1 ∧
          (obcRecoverEscalate row (selectRung row overruns) task frame state).suspensionOverflow =
            state.suspensionOverflow)) := by
  have top (before : ExecState) :
      SameLog before (obcRecoverEscalate row obcRungResetMachine task frame before) := by
    rw [obcRecoverEscalate_resetMachine]
    split
    · exact ⟨rfl, rfl⟩
    · exact ⟨rfl, rfl⟩
  rw [selectRung]
  by_cases first : overruns = 1
  · rw [if_pos first]
    refine .inr ⟨.inl first, fun room => ?_⟩
    rw [obcRecoverEscalate, if_pos rfl]
    exact logSuspension_room room
  rw [if_neg first]
  by_cases second : overruns = 2 ∧ row.resetFn.isSome
  · rw [if_pos second]
    obtain ⟨resetFn, named⟩ := Option.isSome_iff_exists.mp second.2
    refine .inr ⟨.inr second.1, fun room => ?_⟩
    rw [obcRecoverEscalate, if_neg (by decide), if_pos rfl, named]
    exact logSuspension_room room
  · rw [if_neg second]
    exact .inl (top state)

theorem logShare_dispatched (row : ObcTask) (used : U32) {figures : ObcTaskState}
    (small : figures.overruns.toNat + 1 < 2 ^ 32) :
    logShare figures ≤ logShare (figuresAfter row used figures) := by
  rw [logShare, logShare, figuresAfter]
  dsimp only
  split
  · have raised : (figures.overruns + 1).toNat = figures.overruns.toNat + 1 := by
      rw [BitVec.toNat_add, Nat.mod_eq_of_lt (by simpa using small)]
      rfl
    omega
  · exact Nat.le_refl _

theorem logShare_logged {row : ObcTask} {used : U32} {figures : ObcTaskState}
    (spent : row.budgetInstr < used)
    (early : figures.overruns + 1 = 1 ∨ figures.overruns + 1 = 2) :
    logShare (figuresAfter row used figures) = logShare figures + 1 := by
  have counted : (figures.overruns = 0 ∨ figures.overruns = 1) := by
    rcases early with first | second
    · exact .inl (by bv_omega)
    · exact .inr (by bv_omega)
  rw [logShare, logShare, figuresAfter, if_pos spent]
  rcases counted with none | one
  · simp [none]
  · simp [one]

theorem countedDispatch_sameLog (index : Nat) (turn : Turn) (state : ExecState) :
    SameLog state (countOverrun index (countedDispatch index turn state)) := by
  obtain ⟨mode, _, asked⟩ := askModes_kept turn.votes (tracePush index state)
  rw [countedDispatch, asked]
  simp only [countOverrun, countRun, tracePush]
  split
  · exact ⟨rfl, rfl⟩
  · exact ⟨rfl, rfl⟩

theorem dispatch_room {table : List ObcTask} {row : ObcTask} {index : Nat} {frame : U32}
    {turn : Turn} {state : ExecState} (present : row.fn.isSome) (inside : index < table.length)
    (limit : table.length ≤ obcMaxTasks) (room : LogHasRoom table state)
    (small : (state.taskState index).overruns.toNat + 1 < 2 ^ 32) :
    LogHasRoom table (dispatch row index frame turn state) := by
  have figures := dispatch_figures present index frame turn state
  have shares : logShares table (dispatch row index frame turn state) +
      logShare (state.taskState index) =
        logShares table state + logShare (figuresAfter row turn.used (state.taskState index)) := by
    rw [logShares, figures]
    exact logShares_update inside _ _
  have grown := logShare_dispatched row turn.used small
  have base := countedDispatch_sameLog index turn state
  have unlogged (log : SameLog state (dispatch row index frame turn state)) :
      LogHasRoom table (dispatch row index frame turn state) := by
    refine ⟨?_, log.overflow.trans room.overflow⟩
    have length := room.length
    rw [log.suspensions]
    omega
  by_cases spent : row.budgetInstr < turn.used
  swap
  · refine unlogged ?_
    rw [dispatch_goes present, if_neg spent]
    exact ⟨base.suspensions, base.overflow⟩
  have escalated := @obcRecoverEscalate_room row
    ((countOverrun index (countedDispatch index turn state)).taskState index).overruns index frame
    (countOverrun index (countedDispatch index turn state))
  have taken : dispatch row index frame turn state = _ :=
    (dispatch_goes present index frame turn state).trans (if_pos spent)
  rw [← taken] at escalated
  rcases escalated with same | ⟨early, logged⟩
  · exact unlogged ⟨same.suspensions.trans base.suspensions, same.overflow.trans base.overflow⟩
  rw [countOverrun_figures row index turn state spent, Function.update_self, figuresAfter,
    if_pos spent] at early
  have share := logShare_logged spent early
  have most := logShares_le table (dispatch row index frame turn state)
  have length := room.length
  rw [base.suspensions, base.overflow] at logged
  have space : state.suspensions.length < obcSuspendLogLen := by
    have tasks : obcMaxTasks = 8 := rfl
    have entries : obcSuspendLogLen = 16 := rfl
    omega
  obtain ⟨longer, kept⟩ := logged space
  refine ⟨?_, kept.trans room.overflow⟩
  omega

theorem visitTask_room {table : List ObcTask} {row : ObcTask} {index : Nat} {turn : Turn}
    {state : ExecState} (inside : index < table.length) (limit : table.length ≤ obcMaxTasks)
    (small : (state.taskState index).overruns.toNat + 1 < 2 ^ 32)
    (room : LogHasRoom table state) : LogHasRoom table (visitTask row index turn state) := by
  by_cases goes : Dispatches row index state
  · obtain ⟨due, asked, free, present⟩ := goes
    have before : LogHasRoom table
        { state with
          mode := (obcModeIsSafe state.mode).2
          due := state.due + 1
          log := .visited state.frame index true false row.fn.isSome :: state.log } :=
      room.same ⟨rfl, rfl⟩ rfl
    rw [visitTask_goes due asked free]
    exact (dispatch_room present inside limit before small).same ⟨rfl, rfl⟩ rfl
  · generalize afterEq : visitTask row index turn state = after
    have visit := visitTask_visit row index turn state
    rw [afterEq] at visit
    cases visit with
    | skipped => exact room.same ⟨rfl, rfl⟩ rfl
    | suspended => exact room.same ⟨rfl, rfl⟩ rfl
    | nullFunction => exact room.same ⟨rfl, rfl⟩ rfl
    | within _ _ _ _ dispatches => exact absurd dispatches goes
    | suspends _ _ _ _ _ overruns => exact absurd overruns.1 goes
    | resetsSubsystem _ _ _ _ _ overruns => exact absurd overruns.1 goes
    | entersSafe _ _ _ _ overruns => exact absurd overruns.1 goes
    | resetsMachine _ _ _ _ overruns => exact absurd overruns.1 goes

/-- No loop of the executive but its dispatches touches the log or the figures. -/
theorem startWindow_room {table : List ObcTask} {turn : Turn} {state : ExecState}
    (room : LogHasRoom table state) : LogHasRoom table (startWindow table turn state) := by
  refine room.same ?_ (startWindow_sameTally table turn state).taskState
  rcases startWindow_cases table turn state with refused | ⟨_, ended⟩ | ⟨_, _, opened⟩
  · rw [refused]
    exact ⟨rfl, rfl⟩
  · obtain ⟨mode, entry, read⟩ := schedNow_cases turn 0 (state.record .armHardware)
    rw [ended, read]
    exact ⟨rfl, rfl⟩
  · rw [opened, enterFrame]
    split
    · exact ⟨rfl, rfl⟩
    · exact ⟨rfl, rfl⟩

theorem endPassStep_room {table : List ObcTask} {turn : Turn} {state : ExecState}
    (room : LogHasRoom table state) : LogHasRoom table (endPassStep table turn state) := by
  refine room.same ?_ (endPassStep_sameTally table turn state).taskState
  by_cases settled : turn.clock = .ok
  swap
  · obtain ⟨mode, entry, read⟩ :=
      schedNow_cases turn state.frame { state with log := passLog table state }
    rw [endPassStep_unsettled settled, read]
    exact ⟨rfl, rfl⟩
  by_cases late : state.frameStart + obcSchedFrameTicks ≤ turn.now
  · rw [endPassStep_late settled late]
    exact ⟨rfl, rfl⟩
  · rw [endPassStep_slack settled late]
    exact ⟨rfl, rfl⟩

theorem idleStep_room {table : List ObcTask} {guard : Nat} {turn : Turn} {state : ExecState}
    (room : LogHasRoom table state) : LogHasRoom table (idleStep guard turn state) := by
  refine room.same ?_ (idleStep_sameTally guard turn state).taskState
  rcases idleStep_cases guard turn state with ⟨_, ended⟩ | spent | ⟨_, waits⟩ | advances
  · obtain ⟨mode, entry, read⟩ := schedNow_cases turn state.frame state
    rw [ended, read]
    exact ⟨rfl, rfl⟩
  · rw [spent]
    exact ⟨rfl, rfl⟩
  · rw [waits]
    exact ⟨rfl, rfl⟩
  · rw [advances, enterFrame]
    split
    · exact ⟨rfl, rfl⟩
    · exact ⟨rfl, rfl⟩

/-- Everything that keeps the log from filling up: a frame overruns a task at most once. -/
structure RoomKept (table : List ObcTask) (entries : List DispatchEntry) (state : ExecState) :
    Prop where
  booked : Booked table entries state
  once : Tracks table OncePerFrame WithinFrames state
  room : LogHasRoom table state

theorem RoomKept.small {table : List ObcTask} {entries : List DispatchEntry} {state : ExecState}
    (kept : RoomKept table entries state) {index : Nat} {row : ObcTask}
    (phase : state.phase = .visit index) (found : table[index]? = some row) :
    (state.taskState index).overruns.toNat + 1 < 2 ^ 32 := by
  have once := kept.once
  simp only [Tracks, phase] at once
  obtain ⟨running, _, once⟩ := once
  have counted := once index
  have within := BitVec.lt_def.mp running.within
  have fits := state.frames.isLt
  rw [if_neg (Nat.lt_irrefl _), kept.booked.tallied.logged, ← length_entriesOf] at counted
  have most := (entriesOf index entries).countP_le_length (p := overBudget row)
  rw [(kept.booked.figures index row found).overruns,
    toNat_count (Nat.le_trans most counted) (by omega)]
  omega

theorem execStep_roomKept (table : List ObcTask) (input : ExecInput)
    (entries : List DispatchEntry) (state : ExecState) (kept : RoomKept table entries state) :
    RoomKept table (entries ++ dispatchEntries table input state) (execStep table input state) := by
  refine ⟨execStep_booked table input entries state kept.booked,
    (oncePerFrame_followed table).step trivial kept.once, ?_⟩
  have room := kept.room
  cases input with
  | corrupt index copy => exact room.same ⟨rfl, rfl⟩ rfl
  | turn turn =>
      cases phase : state.phase <;> simp only [execStep, execTurn, phase]
      case start => exact startWindow_room room
      case endPass => exact endPassStep_room room
      case idle guard => exact idleStep_room room
      case returned status => exact room
      case reset => exact room
      case visit index =>
        have once := kept.once
        simp only [Tracks, phase] at once
        rw [visitStep]
        cases found : table[index]? with
        | none => exact room.same ⟨rfl, rfl⟩ rfl
        | some row =>
            have visited := @visitTask_room table row index turn state once.2.1 once.1.limit
              (kept.small phase found) room
            dsimp only
            split
            · exact visited
            · exact visited.same ⟨rfl, rfl⟩ rfl

theorem run_roomKept (table : List ObcTask) (frames : U32) (mode : ModeState)
    (boot : ObcBootRecord) (inputs : List ExecInput) :
    RoomKept table (dispatchRecord table inputs (freshExec frames mode boot))
      (run (execStep table) inputs (freshExec frames mode boot)) := by
  have initial : RoomKept table [] (freshExec frames mode boot) :=
    ⟨booked_fresh table frames mode boot, ⟨rfl, fun _ => by simp [freshExec, dispatches]⟩,
      ⟨Nat.zero_le _, rfl⟩⟩
  have kept : RoomKept table ([] ++ dispatchRecord table inputs (freshExec frames mode boot))
      (run (execStep table) inputs (freshExec frames mode boot)) :=
    emissions_invariant (fun input past state => execStep_roomKept table input past state) inputs
      initial
  exact kept

/-- In no run does the suspension log overflow: it never holds more entries than the first two
overruns of every task make. -/
theorem suspension_log_never_overflows (table : List ObcTask) (frames : U32) (mode : ModeState)
    (boot : ObcBootRecord) (inputs : List ExecInput) :
    let final := run (execStep table) inputs (freshExec frames mode boot)
    final.suspensionOverflow = 0 ∧ final.suspensions.length ≤ logShares table final :=
  have kept := run_roomKept table frames mode boot inputs
  ⟨kept.room.overflow, kept.room.length⟩

end ObcZero
