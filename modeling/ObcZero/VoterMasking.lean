import ObcZero.SchedRun

/-!
Damage to one copy of the mode does not reach the executive. The executive touches its
mode in three ways only: it asks for it, it enters safe mode and it prints. Two states
that differ in their modes alone stay so as long as these three keep them together, and
a mode with one copy in dispute stays together with the mode as it was written.
-/

namespace ObcZero

open StepSystem StoreSequence

/-- What asking, entering safe mode and printing keep between two modes, `votes`
counting how often has been asked at most. -/
structure ModesTogether (related : Nat → ModeState → ModeState → Prop) : Prop where
  answer : ∀ {votes left right}, related votes left right →
    (obcModeIsSafe left).1 = (obcModeIsSafe right).1
  asked : ∀ {votes left right}, related votes left right →
    related (votes + 1) (obcModeIsSafe left).2 (obcModeIsSafe right).2
  entered : ∀ {votes left right} reason, related votes left right →
    related votes (obcModeEnterSafe reason left) (obcModeEnterSafe reason right)
  printed : ∀ {votes left right} text, related votes left right →
    related votes (uartPuts text left) (uartPuts text right)
  idle : ∀ {votes left right}, related votes left right → related (votes + 1) left right

/-- Two states of the executive with the same figures, and modes that are related. -/
def Alike (related : Nat → ModeState → ModeState → Prop) (votes : Nat) (left right : ExecState) :
    Prop :=
  ∃ mode, related votes mode right.mode ∧ left = { right with mode := mode }

section Together

variable {related : Nat → ModeState → ModeState → Prop} {votes : Nat} {left right : ExecState}

/-- Alike states stay so under what neither reads nor changes the mode. -/
theorem Alike.lift (alike : Alike related votes left right) (change : ExecState → ExecState)
    (apart : ∀ state mode, change { state with mode := mode } = { change state with mode := mode })
    (kept : ∀ state, (change state).mode = state.mode) :
    Alike related votes (change left) (change right) := by
  obtain ⟨mode, together, rfl⟩ := alike
  refine ⟨mode, ?_, apart right mode⟩
  rw [kept]
  exact together

theorem Alike.logs (alike : Alike related votes left right) (task : Nat) (frame rung : U32) :
    Alike related votes (logSuspension task frame rung left)
      (logSuspension task frame rung right) := by
  refine alike.lift (logSuspension task frame rung) (fun state mode => ?_) (fun state => ?_)
  · rw [logSuspension, logSuspension]
    split <;> rfl
  · rw [logSuspension]
    split <;> rfl

theorem Alike.enterFrame (alike : Alike related votes left right) :
    Alike related votes (enterFrame left) (enterFrame right) := by
  refine alike.lift ObcZero.enterFrame (fun state mode => ?_) (fun state => ?_)
  · rw [ObcZero.enterFrame, ObcZero.enterFrame]
    split <;> rfl
  · rw [ObcZero.enterFrame]
    split <;> rfl

theorem Alike.returnFrom (alike : Alike related votes left right) (status : ObcStatus) :
    Alike related votes (returnFrom status left) (returnFrom status right) :=
  alike.lift (ObcZero.returnFrom status) (fun _ _ => rfl) (fun _ => rfl)

variable (modes : ModesTogether related)

include modes

theorem Alike.idle (alike : Alike related votes left right) (more : Nat) :
    Alike related (votes + more) left right := by
  obtain ⟨mode, together, rfl⟩ := alike
  refine ⟨mode, ?_, rfl⟩
  induction more with
  | zero => exact together
  | succ more ih => exact modes.idle ih

theorem Alike.askMode (alike : Alike related votes left right) :
    (askMode left).1 = (askMode right).1 ∧
      Alike related (votes + 1) (askMode left).2 (askMode right).2 := by
  obtain ⟨mode, together, rfl⟩ := alike
  exact ⟨modes.answer together, _, modes.asked together, rfl⟩

theorem Alike.askModes (alike : Alike related votes left right) (more : Nat) :
    Alike related (votes + more) (askModes more left) (askModes more right) := by
  induction more generalizing votes left right with
  | zero => exact alike
  | succ more ih =>
      rw [← Nat.add_assoc, Nat.add_right_comm]
      exact ih (alike.askMode modes).2

theorem Alike.enterSafe (alike : Alike related votes left right) (reason : U32) :
    Alike related votes { left with mode := obcModeEnterSafe reason left.mode }
      { right with mode := obcModeEnterSafe reason right.mode } := by
  obtain ⟨mode, together, rfl⟩ := alike
  exact ⟨_, modes.entered reason together, rfl⟩

theorem Alike.print (alike : Alike related votes left right) (text : String) :
    Alike related votes { left with mode := uartPuts text left.mode }
      { right with mode := uartPuts text right.mode } := by
  obtain ⟨mode, together, rfl⟩ := alike
  exact ⟨_, modes.printed text together, rfl⟩

theorem Alike.schedNow (alike : Alike related votes left right) (turn : Turn) {frame other : U32}
    (frames : frame = other) :
    Alike related (votes + 1) (schedNow turn frame left) (schedNow turn other right) := by
  subst frames
  rw [ObcZero.schedNow, ObcZero.schedNow]
  by_cases unstable : turn.clock = .errUnstable
  · obtain ⟨answer, asked⟩ := alike.askMode modes
    simp only [unstable, ↓reduceIte, answer]
    split
    · exact asked
    · exact (asked.enterSafe modes obcSafeClock).lift
        (fun state => { state with safeEntryFrame := frame }) (fun _ _ => rfl) (fun _ => rfl)
  · simp only [unstable, ↓reduceIte]
    exact alike.idle modes 1

theorem Alike.escalate (alike : Alike related votes left right) (row : ObcTask) (rung : U32)
    (task : Nat) (frame : U32) :
    Alike related votes (obcRecoverEscalate row rung task frame left)
      (obcRecoverEscalate row rung task frame right) := by
  by_cases first : rung = obcRungSuspendTask
  · simp only [obcRecoverEscalate, first, ↓reduceIte]
    exact (alike.lift (fun state => { state with
      suspendedTask := BitVec.ofNat 32 task
      suspendedFrame := nextDue row frame
      log := .suspendTask task frame (nextDue row frame) :: state.log })
      (fun _ _ => rfl) (fun _ => rfl)).logs task (nextDue row frame) obcRungSuspendTask
  by_cases second : rung = obcRungResetSubsystem
  · simp only [obcRecoverEscalate, second, ↓reduceIte]
    cases row.resetFn with
    | none => exact alike
    | some _ =>
        have told := (alike.logs task frame obcRungResetSubsystem).print modes
          "recover: rung 2, subsystem reset\r\n"
        exact told.lift (ExecState.record (.resetSubsystem task frame)) (fun _ _ => rfl)
          (fun _ => rfl)
  by_cases third : rung = obcRungResetMachine
  swap
  · simp only [obcRecoverEscalate, first, second, third, ↓reduceIte, ne_eq, not_false_eq_true]
    exact alike
  have streak : obcRecoverShortBoots left.boot = obcRecoverShortBoots right.boot := by
    obtain ⟨mode, _, rfl⟩ := alike
    rfl
  rw [third, obcRecoverEscalate_resetMachine, obcRecoverEscalate_resetMachine, streak]
  split
  · exact alike.enterSafe modes obcSafeResetLoop
  · exact (alike.print modes "recover: rung 3, resetting\r\n").lift
      (fun state => { state with phase := .reset, log := .resetNow :: state.log })
      (fun _ _ => rfl) (fun _ => rfl)

theorem Alike.dispatch (alike : Alike related votes left right) (row : ObcTask) (index : Nat)
    (frame : U32) (turn : Turn) :
    Alike related (votes + turn.votes) (dispatch row index frame turn left)
      (dispatch row index frame turn right) := by
  rw [ObcZero.dispatch, ObcZero.dispatch]
  cases row.fn with
  | none => exact alike.idle modes turn.votes
  | some _ =>
      have pushed := alike.lift (tracePush index)
        (fun state mode => by rw [tracePush, tracePush]; split <;> rfl)
        (fun state => by rw [tracePush]; split <;> rfl)
      have counted := (pushed.askModes modes turn.votes).lift (countRun index turn.used)
        (fun _ _ => rfl) (fun _ => rfl)
      have overrun := counted.lift (countOverrun index) (fun _ _ => rfl) (fun _ => rfl)
      dsimp only
      split
      · obtain ⟨mode, together, same⟩ := overrun
        have figures := congrArg ExecState.taskState same
        rw [figures]
        exact Alike.escalate modes ⟨mode, together, same⟩ row _ index frame
      · exact counted

theorem Alike.visitTask (alike : Alike related votes left right) (row : ObcTask) (index : Nat)
    (turn : Turn) :
    Alike related (votes + 1 + turn.votes) (visitTask row index turn left)
      (visitTask row index turn right) := by
  have frames : left.frame = right.frame := by
    obtain ⟨mode, _, rfl⟩ := alike
    rfl
  obtain ⟨answer, asked⟩ := alike.askMode modes
  have visited (event : ExecEvent) : Alike related (votes + 1 + turn.votes)
      ((ObcZero.askMode left).2.record event) ((ObcZero.askMode right).2.record event) :=
    (asked.lift (ExecState.record event) (fun _ _ => rfl) (fun _ => rfl)).idle modes turn.votes
  simp only [ObcZero.visitTask, frames, answer]
  by_cases period : row.periodFrames = 0
  · rw [if_pos period, if_pos period, Nat.add_assoc]
    exact (alike.lift (ExecState.record _) (fun _ _ => rfl) (fun _ => rfl)).idle modes _
  rw [if_neg period, if_neg period]
  by_cases withheld : ((ObcZero.askMode right).1 && !row.essential) = true
  · rw [if_pos withheld, if_pos withheld]
    exact visited _
  rw [if_neg withheld, if_neg withheld]
  by_cases modulo : right.frame % row.periodFrames ≠ 0
  · rw [if_pos modulo, if_pos modulo]
    exact visited _
  rw [if_neg modulo, if_neg modulo]
  have counted := asked.lift (fun state => { state with due := state.due + 1 }) (fun _ _ => rfl)
    (fun _ => rfl)
  have slot : obcRecoverIsSuspended index right.frame
      { (ObcZero.askMode left).2 with due := (ObcZero.askMode left).2.due + 1 } =
        obcRecoverIsSuspended index right.frame
          { (ObcZero.askMode right).2 with due := (ObcZero.askMode right).2.due + 1 } := by
    obtain ⟨mode, _, same⟩ := asked
    rw [same]
    rfl
  rw [slot]
  split
  · exact (counted.lift (ExecState.record _) (fun _ _ => rfl) (fun _ => rfl)).idle modes turn.votes
  · have shown := counted.lift
      (ExecState.record (.visited right.frame index true false row.fn.isSome))
      (fun _ _ => rfl) (fun _ => rfl)
    exact (shown.dispatch modes row index right.frame turn).lift countRan (fun _ _ => rfl)
      (fun _ => rfl)

theorem Alike.visitStep (alike : Alike related votes left right) (table : List ObcTask)
    (index : Nat) (turn : Turn) :
    Alike related (votes + 1 + turn.votes) (visitStep table index turn left)
      (visitStep table index turn right) := by
  rw [ObcZero.visitStep, ObcZero.visitStep]
  cases table[index]? with
  | none =>
      rw [Nat.add_assoc]
      exact (alike.lift (fun state => { state with phase := .endPass }) (fun _ _ => rfl)
        (fun _ => rfl)).idle modes _
  | some row =>
      have visited := alike.visitTask modes row index turn
      have phases : (ObcZero.visitTask row index turn left).phase =
          (ObcZero.visitTask row index turn right).phase := by
        obtain ⟨mode, _, same⟩ := visited
        rw [same]
      by_cases reset : (ObcZero.visitTask row index turn right).phase = .reset
      · simp only [phases, reset, ↓reduceIte]
        exact visited
      · simp only [phases, reset, ↓reduceIte]
        exact visited.lift (fun state => { state with
          phase := if index + 1 < table.length then .visit (index + 1) else .endPass })
          (fun _ _ => rfl) (fun _ => rfl)

theorem Alike.startWindow (alike : Alike related votes left right) (table : List ObcTask)
    (turn : Turn) :
    Alike related (votes + 1) (startWindow table turn left) (startWindow table turn right) := by
  have armed := alike.lift (ExecState.record .armHardware) (fun _ _ => rfl) (fun _ => rfl)
  rw [ObcZero.startWindow, ObcZero.startWindow]
  by_cases size : table.length = 0 ∨ obcMaxTasks < table.length
  · rw [if_pos size, if_pos size]
    exact (armed.returnFrom .errInvalid).idle modes 1
  rw [if_neg size, if_neg size]
  by_cases settled : turn.clock = .ok
  swap
  · rw [if_pos settled, if_pos settled]
    exact (armed.schedNow modes turn rfl).returnFrom turn.clock
  rw [if_neg (by simp [settled]), if_neg (by simp [settled]), schedNow_settled settled,
    schedNow_settled settled]
  obtain ⟨mode, together, rfl⟩ := alike
  refine Alike.enterFrame ⟨(obcModeIsSafe mode).2, modes.asked together, ?_⟩
  simp only [ExecState.record, modes.answer together]
  rfl

theorem Alike.endPassStep (alike : Alike related votes left right) (table : List ObcTask)
    (turn : Turn) :
    Alike related (votes + 1) (endPassStep table turn left) (endPassStep table turn right) := by
  have noted : Alike related votes { left with log := passLog table left }
      { right with log := passLog table right } :=
    alike.lift (fun state => { state with log := passLog table state }) (fun _ _ => rfl)
      (fun _ => rfl)
  have frames : left.frame = right.frame := by
    obtain ⟨mode, _, rfl⟩ := alike
    rfl
  by_cases settled : turn.clock = .ok
  swap
  · rw [endPassStep_unsettled settled, endPassStep_unsettled settled]
    exact (noted.schedNow modes turn frames).returnFrom turn.clock
  have starts : left.frameStart = right.frameStart := by
    obtain ⟨mode, _, rfl⟩ := alike
    rfl
  by_cases late : right.frameStart + obcSchedFrameTicks ≤ turn.now
  swap
  · rw [endPassStep_slack settled (starts ▸ late), endPassStep_slack settled late]
    obtain ⟨mode, together, rfl⟩ := alike
    exact ⟨mode, modes.idle together, rfl⟩
  rw [endPassStep_late settled (starts ▸ late), endPassStep_late settled late]
  obtain ⟨mode, together, rfl⟩ := alike
  cases answer : (obcModeIsSafe right.mode).1 with
  | true =>
      simp only [modes.answer together, answer, ↓reduceIte]
      exact ⟨(obcModeIsSafe mode).2, modes.asked together, rfl⟩
  | false =>
      simp only [modes.answer together, answer, Bool.false_eq_true, ↓reduceIte]
      exact ⟨_, modes.entered obcSafeFrameOverrun (modes.asked together), rfl⟩

theorem Alike.idleStep (alike : Alike related votes left right) (guard : Nat) (turn : Turn) :
    Alike related (votes + 1) (idleStep guard turn left) (idleStep guard turn right) := by
  have frames : left.frame = right.frame := by
    obtain ⟨mode, _, rfl⟩ := alike
    rfl
  by_cases settled : turn.clock = .ok
  swap
  · rw [ObcZero.idleStep, ObcZero.idleStep, if_pos settled, if_pos settled]
    exact (alike.schedNow modes turn frames).returnFrom turn.clock
  have starts : left.frameStart = right.frameStart := by
    obtain ⟨mode, _, rfl⟩ := alike
    rfl
  rw [idleStep_settled settled, idleStep_settled settled]
  by_cases late : right.frameStart + obcSchedFrameTicks ≤ turn.now
  · rw [if_pos (starts ▸ late), if_pos late]
    obtain ⟨mode, together, rfl⟩ := alike
    exact Alike.enterFrame ⟨mode, modes.idle together, rfl⟩
  · rw [if_neg (starts ▸ late), if_neg late]
    split
    · exact (alike.lift (fun state => { state with phase := .idle (guard + 1) }) (fun _ _ => rfl)
        (fun _ => rfl)).idle modes 1
    · exact (alike.returnFrom .errTimeout).idle modes 1

theorem Alike.execTurn (alike : Alike related votes left right) (table : List ObcTask)
    (turn : Turn) :
    Alike related (votes + 1 + turn.votes) (execTurn table turn left)
      (execTurn table turn right) := by
  have phases : left.phase = right.phase := by
    obtain ⟨mode, _, rfl⟩ := alike
    rfl
  rw [ObcZero.execTurn, ObcZero.execTurn, phases]
  cases right.phase with
  | start => exact (alike.startWindow modes table turn).idle modes turn.votes
  | visit index => exact alike.visitStep modes table index turn
  | endPass => exact (alike.endPassStep modes table turn).idle modes turn.votes
  | idle guard => exact (alike.idleStep modes guard turn).idle modes turn.votes
  | returned status =>
      rw [Nat.add_assoc]
      exact alike.idle modes _
  | reset =>
      rw [Nat.add_assoc]
      exact alike.idle modes _

theorem Alike.turns (alike : Alike related votes left right) (table : List ObcTask)
    (turns : List Turn) :
    Alike related (votes + (turns.map fun turn => 1 + turn.votes).sum)
      (run (execStep table) (turns.map .turn) left)
      (run (execStep table) (turns.map .turn) right) := by
  induction turns generalizing votes left right with
  | nil => exact alike
  | cons turn rest ih =>
      rw [List.map_cons, List.map_cons, List.sum_cons, ← Nat.add_assoc, ← Nat.add_assoc]
      exact ih (alike.execTurn modes table turn)

end Together

/-- `mode` with every copy as `value` is written, and `repairs` counted. -/
def settledMode (value repairs : U32) (mode : ModeState) : ModeState :=
  { mode with
    critical := { withCopies obcCriticalMode (writtenCopy obcCriticalMode value) mode.critical with
      repairs := repairs } }

theorem settledMode_written (value repairs : U32) (mode : ModeState) :
    Written obcCriticalMode value (settledMode value repairs mode).critical :=
  written_withCopies obcCriticalMode value mode.critical

/-- A mode with at most one copy in dispute and no failed vote, and the same mode with the
dispute settled. -/
def OneDisputed (disputed written : ModeState) : Prop :=
  ∃ value index repairs, WrittenBut obcCriticalMode value index disputed.critical ∧
    (disputed.critical.failedVotes = 0 ∧ disputed.critical.unresolvableEvents = 0) ∧
    written = settledMode value repairs disputed

theorem obcModeIsSafe_writtenBut {mode : ModeState} {value : U32} {index : Fin 3}
    (written : WrittenBut obcCriticalMode value index mode.critical) :
    obcModeIsSafe mode = (value == obcModeSafe,
      { mode with
        critical := { withCopies obcCriticalMode (writtenCopy obcCriticalMode value)
            mode.critical with
          repairs := mode.critical.repairs +
            BitVec.ofNat 32 (dissenters mode.critical obcCriticalMode value).length
          wasResolving := Function.update mode.critical.wasResolving
            (itemIndex obcCriticalItems obcCriticalMode) true }
        mode := value }) := by
  simp only [obcModeIsSafe, obcCriticalGet, written.vote obcCriticalItems, Option.getD_some]

theorem obcModeEnterSafe_eq {mode : ModeState} (fresh : mode.announced = 0) (reason : U32) :
    obcModeEnterSafe reason mode =
      { critical := withCopies obcCriticalMode (writtenCopy obcCriticalMode obcModeSafe)
          mode.critical
        mode := obcModeSafe, safeReason := reason, announced := 1
        record := { magic := obcModeMagic, checksum := obcModeChecksumSeed ^^^ reason,
                    reason := reason }
        serial := mode.serial ++ ["mode   : SAFE, "] ++ [reasonText reason] ++ ["\r\n"] } := by
  rw [obcModeEnterSafe, enterSafeStores, if_neg (by simp [fresh]), perform_append, perform_append,
    perform_degradeStores, perform_recordStores, obcCriticalSet_eq]
  rfl

theorem oneDisputed_together : ModesTogether fun _ => OneDisputed where
  answer := by
    rintro _ disputed written ⟨value, index, repairs, but, quiet, rfl⟩
    rw [obcModeIsSafe_writtenBut but,
      obcModeIsSafe_writtenBut ((settledMode_written value repairs disputed).but index)]
  asked := by
    rintro _ disputed written ⟨value, index, repairs, but, quiet, rfl⟩
    have all := settledMode_written value repairs disputed
    rw [obcModeIsSafe_writtenBut but, obcModeIsSafe_writtenBut (all.but index),
      all.dissenters_nil]
    have again := (written_withCopies obcCriticalMode value disputed.critical).but index
    refine ⟨value, index, repairs, again, quiet, ?_⟩
    simp [settledMode, withCopies]
  entered := by
    rintro _ disputed written reason ⟨value, index, repairs, but, quiet, rfl⟩
    by_cases fresh : disputed.announced = 0
    swap
    · have told : (settledMode value repairs disputed).announced ≠ 0 := fresh
      rw [obcModeEnterSafe_announced fresh, obcModeEnterSafe_announced told]
      exact ⟨value, index, repairs, but, quiet, rfl⟩
    · have untold : (settledMode value repairs disputed).announced = 0 := fresh
      rw [obcModeEnterSafe_eq fresh, obcModeEnterSafe_eq untold]
      have again := (written_withCopies obcCriticalMode obcModeSafe disputed.critical).but index
      refine ⟨obcModeSafe, index, repairs, again, quiet, ?_⟩
      simp [settledMode, withCopies]
  printed := by
    rintro _ disputed written text ⟨value, index, repairs, but, quiet, rfl⟩
    exact ⟨value, index, repairs, but, quiet, rfl⟩
  idle := id

/-- A corruption lands only where the other two copies vouch for one value. -/
def OthersVouch : ExecInput → ExecState → Prop
  | .turn _, _ => True
  | .corrupt index _, state =>
      ∃ value, WrittenBut obcCriticalMode value index state.mode.critical

def ExecInput.isTurn : ExecInput → Bool
  | .turn _ => true
  | .corrupt _ _ => false

/-- A second copy hit in turn, where the first still stands for the value. -/
theorem WrittenBut.moved {item : ObcCriticalItem} {value other : U32} {index hit : Fin 3}
    {state : CriticalState} (written : WrittenBut item value index state)
    (vouched : WrittenBut item other hit state) : WrittenBut item value hit state := by
  by_cases same : index = hit
  · rw [← same]
    exact written
  have third : ∀ index hit : Fin 3, index ≠ hit → ∃ witness, witness ≠ index ∧ witness ≠ hit := by
    decide
  obtain ⟨witness, notIndex, notHit⟩ := third index hit same
  have equal : value = other :=
    writtenCopy_value_inj ((written witness notIndex).symm.trans (vouched witness notHit))
  rw [equal]
  exact vouched

theorem Alike.corrupted {left right : ExecState} (table : List ObcTask) {index : Fin 3}
    {copy : ObcCriticalCopy} (vouched : OthersVouch (.corrupt index copy) left)
    (alike : Alike (fun _ => OneDisputed) 0 left right) :
    Alike (fun _ => OneDisputed) 0 (execStep table (.corrupt index copy) left) right := by
  obtain ⟨disputed, ⟨value, place, repairs, but, quiet, written⟩, rfl⟩ := alike
  obtain ⟨other, vouches⟩ := vouched
  refine ⟨{ disputed with critical := storeCopy obcCriticalMode index copy disputed.critical },
    ⟨value, index, repairs, (but.moved vouches).storeCopy copy, quiet, ?_⟩, rfl⟩
  rw [written]
  simp [settledMode, withCopies, storeCopy]

/-- Every copy as it was written, and nothing yet counted by the voter. -/
def Undisputed (mode : ModeState) : Prop :=
  (∃ value, Written obcCriticalMode value mode.critical) ∧ mode.critical.repairs = 0 ∧
    mode.critical.failedVotes = 0 ∧ mode.critical.unresolvableEvents = 0

theorem undisputed_enterSafe {mode : ModeState} (undisputed : Undisputed mode) (reason : U32) :
    Undisputed (obcModeEnterSafe reason mode) := by
  by_cases fresh : mode.announced = 0
  · rw [obcModeEnterSafe_eq fresh]
    exact ⟨⟨obcModeSafe, written_withCopies obcCriticalMode obcModeSafe mode.critical⟩,
      undisputed.2⟩
  · rw [obcModeEnterSafe_announced fresh]
    exact undisputed

theorem undisputed_entries (reasons : List U32) {mode : ModeState} (undisputed : Undisputed mode) :
    Undisputed (perform (entriesStores reasons mode) mode) := by
  induction reasons generalizing mode with
  | nil => exact undisputed
  | cons reason rest ih =>
      rw [entriesStores, perform_append]
      exact ih (undisputed_enterSafe undisputed reason)

theorem executiveState_undisputed (boot : Boot) (found : ModeState) :
    Undisputed (executiveState boot found) := by
  have fresh : Undisputed (perform nominalStores (startup found)) := by
    rw [perform_nominalStores]
    exact ⟨⟨obcModeNominal, written_obcCriticalSet obcCriticalMode obcModeNominal _⟩, by
      rw [obcCriticalSet_eq]
      exact ⟨rfl, rfl, rfl⟩⟩
  rw [executiveState, mainStores, perform_append]
  refine undisputed_entries boot.mainEntries ?_
  rcases obcModeRestore_cases boot.previousResetCause (startup found) with
    trapped | ⟨_, kept⟩ | nominal
  · rw [trapped]
    exact undisputed_enterSafe fresh obcSafeTrap
  · rw [kept]
    exact undisputed_enterSafe fresh _
  · rw [nominal]
    exact fresh

theorem Undisputed.oneDisputed {mode : ModeState} (undisputed : Undisputed mode) :
    OneDisputed mode mode := by
  obtain ⟨⟨value, written⟩, _, quiet⟩ := undisputed
  refine ⟨value, 0, mode.critical.repairs, written.but 0, quiet, ?_⟩
  have copies : mode.critical.copies obcCriticalMode.place = writtenCopy obcCriticalMode value :=
    funext written
  simp only [settledMode, withCopies, ← copies, Function.update_eq_self]

/-- A run whose corruptions each hit one copy while the other two vouch for a value does
what the same run without them does: the same dispatches, suspensions and resets at the
same turns, the same mode answered, and no vote of it fails. Only the voter's copies and its
repair count differ. -/
theorem one_copy_masked (table : List ObcTask) (frames : U32) (boot : Boot) (found : ModeState)
    (record : ObcBootRecord) {inputs : List ExecInput}
    (meets : Meets (execStep table) OthersVouch inputs
      (freshExec frames (executiveState boot found) record)) :
    let begun := freshExec frames (executiveState boot found) record
    let struck := run (execStep table) inputs begun
    let spared := run (execStep table) (inputs.filter ExecInput.isTurn) begun
    struck = { spared with
        mode := { spared.mode with
          critical := { spared.mode.critical with
            copies := struck.mode.critical.copies
            repairs := struck.mode.critical.repairs } } } ∧
      (obcModeIsSafe struck.mode).1 = (obcModeIsSafe spared.mode).1 ∧
      struck.mode.critical.failedVotes = 0 ∧ struck.mode.critical.unresolvableEvents = 0 := by
  intro begun struck spared
  have fresh : Alike (fun _ => OneDisputed) 0 begun begun :=
    ⟨begun.mode, (executiveState_undisputed boot found).oneDisputed, rfl⟩
  have alike : Alike (fun _ => OneDisputed) 0 struck spared := by
    refine meets_related (fun input state other allowed alike => ?_) meets fresh
    cases input with
    | turn turn => exact alike.execTurn oneDisputed_together table turn
    | corrupt index copy => exact alike.corrupted table allowed
  obtain ⟨disputed, together, same⟩ := alike
  have answers := @ModesTogether.answer _ oneDisputed_together 0 _ _ together
  obtain ⟨value, index, repairs, _, quiet, written⟩ := together
  rw [same]
  refine ⟨?_, answers, quiet⟩
  rw [written]
  rfl

/-- A copy hit before the window opens, and another one between two visits. -/
def twiceStruck (first second : Fin 3) : List ExecInput :=
  [.corrupt first { value := 9, checksum := 0 }, punctualTurn 0 0, punctualTurn 0 700,
   .corrupt second { value := 1, checksum := 1 }, punctualTurn 0 4000]

theorem one_copy_masked_twice :
    let begun := freshExec 1 (executiveState uneventfulBoot coldMode) coldBootRecord
    let struck := run (execStep obcTaskTable) (twiceStruck 1 2) begun
    let spared := run (execStep obcTaskTable) ((twiceStruck 1 2).filter ExecInput.isTurn) begun
    struck = { spared with
        mode := { spared.mode with
          critical := { spared.mode.critical with
            copies := struck.mode.critical.copies
            repairs := struck.mode.critical.repairs } } } ∧
      (obcModeIsSafe struck.mode).1 = (obcModeIsSafe spared.mode).1 ∧
      struck.mode.critical.failedVotes = 0 ∧ struck.mode.critical.unresolvableEvents = 0 := by
  have meets : Meets (execStep obcTaskTable) OthersVouch (twiceStruck 1 2)
      (freshExec 1 (executiveState uneventfulBoot coldMode) coldBootRecord) := by
    refine ⟨⟨obcModeNominal, ?_⟩, trivial, trivial, ⟨obcModeNominal, ?_⟩, trivial, trivial⟩
    · unfold WrittenBut
      decide
    · unfold WrittenBut
      decide
  exact one_copy_masked obcTaskTable 1 uneventfulBoot coldMode coldBootRecord meets

end ObcZero
