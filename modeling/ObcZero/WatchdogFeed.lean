import ObcZero.SuspensionSlot

/-! The feeding of the hardware watchdog: when the two counts it compares agree,
and how a suspension replaced within its own frame makes a healthy frame go unfed. -/

namespace ObcZero

open StepSystem

def ExecEvent.missed (frame : U32) : ExecEvent → Bool
  | .visited other _ due suspended dispatched =>
      other == frame && due && !suspended && !dispatched
  | _ => false

def AllDispatched (frame : U32) (log : List ExecEvent) : Prop :=
  ∀ event ∈ log, event.missed frame = false

instance (frame : U32) (log : List ExecEvent) : Decidable (AllDispatched frame log) :=
  inferInstanceAs (Decidable (∀ event ∈ log, _))

theorem allDispatched_remarks {marks : List ExecEvent}
    (silent : ∀ mark ∈ marks, mark.remark = true) (frame : U32) (log : List ExecEvent) :
    AllDispatched frame (marks ++ log) ↔ AllDispatched frame log := by
  have obeyed : ∀ mark ∈ marks, mark.missed frame = false := by
    intro mark member
    cases mark <;> first | rfl | exact absurd (silent _ member) (by simp [ExecEvent.remark])
  simp only [AllDispatched, List.mem_append, or_imp, forall_and]
  exact and_iff_right obeyed

/-- In every frame whose pass is complete, every row was visited, and the watchdog
was fed once if all that was due and not suspended was dispatched, and else not. -/
def FedExactly (table : List ObcTask) (log : List ExecEvent) : Prop :=
  ∀ frame, .endOfPass frame ∈ log →
    (∀ task, task < table.length → ∃ due suspended dispatched,
      .visited frame task due suspended dispatched ∈ log) ∧
    (AllDispatched frame log → log.count (.feedHardware frame) = 1) ∧
    (¬AllDispatched frame log → log.count (.feedHardware frame) = 0)

theorem obcSuspendedThisFrame_take {table : List ObcTask} {index : Nat} {row : ObcTask}
    (found : table[index]? = some row) (frame : U32) (state : ExecState) :
    obcSuspendedThisFrame (table.take (index + 1)) frame state =
      obcSuspendedThisFrame (table.take index) frame state +
        if Due row frame ∧ obcRecoverIsSuspended index frame state = true then 1 else 0 := by
  obtain ⟨inside, _⟩ := List.getElem?_eq_some_iff.mp found
  have length : (table.take index).length = index := by
    rw [List.length_take]
    omega
  have tested : (row.periodFrames != 0 && frame % row.periodFrames == 0 &&
      obcRecoverIsSuspended index frame state) =
      decide (Due row frame ∧ obcRecoverIsSuspended index frame state = true) := by
    rw [Bool.eq_iff_iff, decide_eq_true_iff]
    simp [Due]
  rw [List.take_add_one, found]
  simp only [obcSuspendedThisFrame, Option.toList_some, List.zipIdx_append, length,
    List.filter_append, List.length_append, List.zipIdx_cons, List.zipIdx_nil, Nat.zero_add,
    List.filter_cons, List.filter_nil, tested, decide_eq_true_eq, Nat.add_left_cancel_iff]
  split <;> rfl

theorem obcSuspendedThisFrame_congr {state after : ExecState}
    (slotTask : after.suspendedTask = state.suspendedTask)
    (slotFrame : after.suspendedFrame = state.suspendedFrame) (table : List ObcTask)
    (frame : U32) :
    obcSuspendedThisFrame table frame after = obcSuspendedThisFrame table frame state := by
  simp only [obcSuspendedThisFrame, obcRecoverIsSuspended, slotTask, slotFrame]

theorem obcSuspendedThisFrame_other {state : ExecState} {frame : U32}
    (other : state.suspendedFrame ≠ frame) (table : List ObcTask) :
    obcSuspendedThisFrame table frame state = 0 := by
  simp [obcSuspendedThisFrame, obcRecoverIsSuspended, other]

structure FeedCounted (table : List ObcTask) (position : Nat) (state : ExecState) : Prop where
  balance : position ≤ table.length → state.due =
    state.ran + obcSuspendedThisFrame (table.take position) state.frame state
  seen : ∀ frame task, task < table.length → ¬Ahead position state frame.toNat task →
    ∃ due suspended dispatched, .visited frame task due suspended dispatched ∈ state.log
  dispatched : ∀ frame, AllDispatched frame state.log
  fedOnce : ∀ frame, .endOfPass frame ∈ state.log →
    state.log.count (.feedHardware frame) = 1
  behind : ∀ frame, .endOfPass frame ∈ state.log ∨ .feedHardware frame ∈ state.log →
    frame.toNat < state.frame.toNat ∨ (frame = state.frame ∧ table.length < position)

theorem FeedCounted.exact {table : List ObcTask} {position : Nat} {state : ExecState}
    (held : FeedCounted table position state) : FedExactly table state.log := by
  intro frame closed
  refine ⟨fun task inTable => held.seen frame task inTable ?_, fun _ =>
    held.fedOnce frame closed, fun missed => absurd (held.dispatched frame) missed⟩
  unfold Ahead
  rcases held.behind frame (.inl closed) with earlier | ⟨rfl, passed⟩ <;> omega

theorem FeedCounted.advance {table : List ObcTask} {position next : Nat}
    {state after : ExecState} (held : FeedCounted table position state)
    (marks : List ExecEvent) (log : after.log = marks ++ state.log)
    (silent : ∀ mark ∈ marks, mark.remark = true)
    (balance : next ≤ table.length →
      after.due = after.ran + obcSuspendedThisFrame (table.take next) after.frame after)
    (sight : ∀ frame task, task < table.length →
      (Ahead next after frame task ↔ Ahead position state frame task))
    (behind : ∀ frame : U32,
      frame.toNat < state.frame.toNat ∨ (frame = state.frame ∧ table.length < position) →
      frame.toNat < after.frame.toNat ∨ (frame = after.frame ∧ table.length < next)) :
    FeedCounted table next after := by
  constructor
  · exact balance
  · intro frame task inTable passed
    obtain ⟨due, suspended, dispatched, visited⟩ :=
      held.seen frame task inTable fun ahead => passed ((sight _ task inTable).mpr ahead)
    exact ⟨due, suspended, dispatched, by rw [log, mem_remarks silent rfl]; exact visited⟩
  · intro frame
    rw [log, allDispatched_remarks silent]
    exact held.dispatched frame
  · intro frame closed
    rw [log, mem_remarks silent rfl] at closed
    rw [log, count_remarks silent rfl]
    exact held.fedOnce frame closed
  · intro frame told
    rw [log, mem_remarks silent rfl, mem_remarks silent rfl] at told
    exact behind frame (held.behind frame told)

theorem FeedCounted.visit {table : List ObcTask} {index : Nat} {due suspended dispatched : Bool}
    {state after : ExecState} (held : FeedCounted table index state)
    (inside : index < table.length) (marks : List ExecEvent)
    (log : after.log =
      marks ++ .visited state.frame index due suspended dispatched :: state.log)
    (silent : ∀ mark ∈ marks, mark.remark = true) (frame : after.frame = state.frame)
    (obeyed : due = true → suspended = false → dispatched = true)
    (balance : after.due =
      after.ran + obcSuspendedThisFrame (table.take (index + 1)) after.frame after) :
    FeedCounted table (index + 1) after := by
  constructor
  · exact fun _ => balance
  · intro other task inTable passed
    by_cases ahead : Ahead index state other.toNat task
    · obtain ⟨sameFrame, rfl⟩ : other.toNat = state.frame.toNat ∧ task = index := by
        unfold Ahead at ahead passed
        rw [frame] at passed
        omega
      obtain rfl := BitVec.eq_of_toNat_eq sameFrame
      exact ⟨due, suspended, dispatched, by rw [log]; simp⟩
    · obtain ⟨flag, second, third, visited⟩ := held.seen other task inTable ahead
      exact ⟨flag, second, third, by rw [log, mem_remarks silent rfl]; simp [visited]⟩
  · intro other
    rw [log, allDispatched_remarks silent]
    refine List.forall_mem_cons.mpr ⟨?_, held.dispatched other⟩
    cases due <;> cases suspended <;> simp_all [ExecEvent.missed]
  · intro other closed
    rw [log, mem_remarks silent rfl] at closed
    rw [log, count_remarks silent rfl, List.count_cons_of_ne (by simp)]
    exact held.fedOnce other (by simpa using closed)
  · intro other told
    rw [log, mem_remarks silent rfl, mem_remarks silent rfl] at told
    rw [frame]
    rcases held.behind other (by simpa using told) with earlier | ⟨_, passed⟩
    · exact .inl earlier
    · omega

/-- What a visit must meet for the two counts to agree. -/
def KeepsFeedExact (table : List ObcTask) (row : ObcTask) (index : Nat) (turn : Turn)
    (state : ExecState) : Prop :=
  (Overruns row index turn state obcRungSuspendTask →
    obcSuspendedThisFrame (table.take index) state.frame state = 0) ∧
    (Due row state.frame → Withheld row state →
      obcRecoverIsSuspended index state.frame state = false)

instance (table : List ObcTask) (row : ObcTask) (index : Nat) (turn : Turn)
    (state : ExecState) : Decidable (KeepsFeedExact table row index turn state) :=
  inferInstanceAs (Decidable (_ ∧ _))

theorem nextDue_ne {row : ObcTask} {frame : U32} (due : Due row frame) :
    nextDue row frame ≠ frame := by
  have period := due.1
  rw [nextDue, if_neg period]
  bv_omega

theorem FeedCounted.visitRow {table : List ObcTask} {index : Nat} {row : ObcTask} {turn : Turn}
    {state after : ExecState} (held : FeedCounted table index state)
    (found : table[index]? = some row) (present : row.fn.isSome)
    (keeps : KeepsFeedExact table row index turn state)
    (visit : Visit row index turn state after) : FeedCounted table (index + 1) after := by
  obtain ⟨inside, _⟩ := List.getElem?_eq_some_iff.mp found
  have balance := held.balance (Nat.le_of_lt inside)
  have balanced {next : ExecState} (slotTask : next.suspendedTask = state.suspendedTask)
      (slotFrame : next.suspendedFrame = state.suspendedFrame) (frame : next.frame = state.frame)
      (counts : next.due + state.ran = state.due + next.ran +
        if Due row state.frame ∧ obcRecoverIsSuspended index state.frame state = true then 1
        else 0) :
      next.due = next.ran + obcSuspendedThisFrame (table.take (index + 1)) next.frame next := by
    rw [frame, obcSuspendedThisFrame_congr slotTask slotFrame, obcSuspendedThisFrame_take found]
    omega
  -- a dispatch that leaves the live suspension alone adds one to either side
  have ran {next : ExecState} (free : obcRecoverIsSuspended index state.frame state = false)
      (slotTask : next.suspendedTask = state.suspendedTask)
      (slotFrame : next.suspendedFrame = state.suspendedFrame)
      (frame : next.frame = state.frame) (due : next.due = state.due + 1)
      (counted : next.ran = state.ran + 1) (marks : List ExecEvent)
      (log : next.log = marks ++ .visited state.frame index true false true :: state.log)
      (silent : ∀ mark ∈ marks, mark.remark = true) : FeedCounted table (index + 1) next := by
    refine held.visit inside marks log silent frame (fun _ _ => rfl)
      (balanced slotTask slotFrame frame ?_)
    rw [due, counted, if_neg (by simp [free])]
    omega
  cases visit with
  | skipped mode kept skip =>
      refine held.visit inside [] rfl (by simp) rfl (by simp) (balanced rfl rfl rfl ?_)
      have uncounted : ¬(Due row state.frame ∧
          obcRecoverIsSuspended index state.frame state = true) := by
        rintro ⟨due, suspended⟩
        rcases skip with undue | withheld
        · exact undue due
        · rw [keeps.2 due withheld] at suspended
          cases suspended
      rw [if_neg uncounted]
      rfl
  | suspended mode kept due asked suspended =>
      refine held.visit inside [] rfl (by simp) rfl (by simp) (balanced rfl rfl rfl ?_)
      rw [if_pos ⟨due, suspended⟩]
      exact Nat.add_right_comm _ _ _
  | nullFunction mode kept due asked free null =>
      rw [null] at present
      cases present
  | within mode kept taskState traceOverflow dispatches thrifty =>
      exact ran dispatches.2.2.1 rfl rfl rfl rfl rfl [] rfl (by simp)
  | suspends mode kept taskState traceOverflow suspensionOverflow overruns =>
      refine held.visit inside [.suspendTask index state.frame (nextDue row state.frame)] rfl
        (by simp [ExecEvent.remark]) rfl (fun _ _ => rfl) ?_
      rw [keeps.1 overruns] at balance
      rw [obcSuspendedThisFrame_other (nextDue_ne overruns.1.1)]
      exact congrArg Nat.succ balance
  | resetsSubsystem mode kept taskState traceOverflow suspensionOverflow overruns =>
      exact ran overruns.1.2.2.1 rfl rfl rfl rfl rfl [.resetSubsystem index state.frame] rfl
        (by simp [ExecEvent.remark])
  | entersSafe mode kept taskState traceOverflow overruns spent =>
      exact ran overruns.1.2.2.1 rfl rfl rfl rfl rfl [] rfl (by simp)
  | resetsMachine mode kept taskState traceOverflow overruns unspent =>
      exact ran overruns.1.2.2.1 rfl rfl rfl rfl rfl [.resetNow] rfl (by simp [ExecEvent.remark])

theorem FeedCounted.fed {table : List ObcTask} {state : ExecState}
    (held : FeedCounted table table.length state) :
    passLog table state =
      .endOfPass state.frame :: .feedHardware state.frame :: state.log := by
  have balance := held.balance (Nat.le_refl _)
  rw [List.take_length] at balance
  rw [passLog, if_pos balance.symm]

theorem FeedCounted.passed {table : List ObcTask} {state after : ExecState}
    (held : FeedCounted table table.length state) (marks : List ExecEvent)
    (log : after.log = marks ++ passLog table state)
    (silent : ∀ mark ∈ marks, mark.remark = true) (frame : after.frame = state.frame) :
    FeedCounted table (table.length + 1) after := by
  rw [held.fed] at log
  have unfed : .feedHardware state.frame ∉ state.log := by
    intro fed
    rcases held.behind state.frame (.inr fed) with earlier | ⟨_, passed⟩ <;> omega
  have unclosed : .endOfPass state.frame ∉ state.log := by
    intro closed
    rcases held.behind state.frame (.inl closed) with earlier | ⟨_, passed⟩ <;> omega
  constructor
  · intro inside
    omega
  · intro other task inTable passed
    have seen : ¬Ahead table.length state other.toNat task := by
      unfold Ahead at passed ⊢
      rw [frame] at passed
      omega
    obtain ⟨due, suspended, dispatched, visited⟩ := held.seen other task inTable seen
    exact ⟨due, suspended, dispatched, by rw [log, mem_remarks silent rfl]; simp [visited]⟩
  · intro other
    rw [log, allDispatched_remarks silent]
    exact List.forall_mem_cons.mpr ⟨rfl, List.forall_mem_cons.mpr ⟨rfl, held.dispatched other⟩⟩
  · intro other closed
    rw [log, mem_remarks silent rfl] at closed
    rw [log, count_remarks silent rfl, List.count_cons_of_ne (by simp)]
    by_cases here : other = state.frame
    · rw [here, List.count_cons_self, List.count_eq_zero.mpr unfed]
    · rw [List.count_cons_of_ne (by simpa using Ne.symm here)]
      exact held.fedOnce other (by simpa [here] using closed)
  · intro other told
    rw [log, mem_remarks silent rfl, mem_remarks silent rfl] at told
    rw [frame]
    by_cases here : other = state.frame
    · exact .inr ⟨here, Nat.lt_succ_self _⟩
    · left
      rcases held.behind other (by simpa [here] using told) with earlier | ⟨same, _⟩
      · exact earlier
      · exact absurd same here

theorem FedExactly.remarks {table : List ObcTask} {log : List ExecEvent}
    (exact : FedExactly table log) (marks : List ExecEvent)
    (silent : ∀ mark ∈ marks, mark.remark = true) : FedExactly table (marks ++ log) := by
  intro frame closed
  rw [mem_remarks silent rfl] at closed
  rw [allDispatched_remarks silent, count_remarks silent rfl]
  obtain ⟨seen, counts⟩ := exact frame closed
  refine ⟨fun task inTable => ?_, counts⟩
  obtain ⟨due, suspended, dispatched, visited⟩ := seen task inTable
  exact ⟨due, suspended, dispatched, (mem_remarks silent rfl).mpr visited⟩

theorem feedCounted_followed {table : List ObcTask} (present : ∀ row ∈ table, row.fn.isSome) :
    Followed table (AtVisit table (KeepsFeedExact table)) (FeedCounted table)
      (fun state => FedExactly table state.log) := by
  constructor
  · intro position phase state held
    exact ⟨held.balance, held.seen, held.dispatched, held.fedOnce, held.behind⟩
  · intro position index copy state _ held
    exact ⟨held.balance, held.seen, held.dispatched, held.fedOnce, held.behind⟩
  · intro index copy state exact
    exact exact
  · intro turn state after _ _ frame held ladder started
    cases started with
    | stopped status phase _ log =>
        refine ⟨by simp [phase], fun _ _ => ?_⟩
        rw [log]
        exact held.exact.remarks [.disarmHardware, .armHardware] (by simp [ExecEvent.remark])
    | begun phase _ _ _ begins due ran _ _ log =>
        have here : after.frame = state.frame := begins.trans frame.symm
        refine ⟨fun _ => held.advance [.armHardware] log (by simp [ExecEvent.remark]) ?_ ?_ ?_,
          by simp [phase]⟩
        · intro _
          rw [due, ran]
          rfl
        · exact fun _ _ _ => by simp only [Ahead, here]
        · exact fun _ => by rw [here]; exact id
  · intro turn state after index row allowed phase found running held visit
    have next := held.visitRow found (present row (List.mem_of_getElem? found))
      (allowed.row phase found) visit
    exact ⟨next, fun _ => next.exact⟩
  · intro turn state after _ _ running held ladder frame ended
    cases ended with
    | stopped status _ phase log =>
        have next := held.passed [.disarmHardware] log (by simp [ExecEvent.remark]) frame
        exact ⟨by simp [phase], fun _ _ => next.exact⟩
    | kept phase _ _ log => exact ⟨fun _ => held.passed [] log (by simp) frame, by simp [phase]⟩
    | degraded phase _ _ _ log =>
        exact ⟨fun _ => held.passed [] log (by simp) frame, by simp [phase]⟩
  · intro turn state after guard _ _ running held ladder idled
    cases idled with
    | stopped status _ phase log =>
        refine ⟨by simp [phase], fun _ _ => ?_⟩
        rw [log]
        exact held.exact.remarks [.disarmHardware] (by simp [ExecEvent.remark])
    | waits next waited => simp [waited]
    | entered phase within next due ran _ _ log =>
        have succ := toNat_succ_frame running.within
        refine ⟨fun _ => held.advance [] log (by simp) ?_ ?_ ?_, by simp [phase]⟩
        · intro _
          rw [due, ran]
          rfl
        · intro other task inTable
          unfold Ahead
          rw [next]
          omega
        · intro other passed
          left
          rw [next, succ]
          rcases passed with earlier | ⟨rfl, _⟩ <;> omega
    | finished phase _ _ log =>
        refine ⟨by simp [phase], fun _ _ => ?_⟩
        rw [log]
        exact held.exact.remarks [.disarmHardware] (by simp [ExecEvent.remark])

theorem feedCounted_fresh (table : List ObcTask) (frames : U32) (mode : ModeState)
    (boot : ObcBootRecord) : FeedCounted table 0 (freshExec frames mode boot) := by
  constructor
  · exact fun _ => rfl
  · intro frame task _ passed
    refine absurd ?_ passed
    unfold Ahead
    change 0 < frame.toNat ∨ 0 = frame.toNat ∧ 0 ≤ task
    omega
  · intro frame event member
    cases member
  · intro frame closed
    cases closed
  · rintro frame (closed | fed)
    · cases closed
    · cases fed

/-- In every run whose visits meet the condition the watchdog is fed exactly when
the frame has earned it, whatever the mode, the overruns and the corruption. -/
theorem watchdog_fed_exactly (table : List ObcTask) (present : ∀ row ∈ table, row.fn.isSome)
    (frames : U32) (mode : ModeState) (boot : ObcBootRecord) (inputs : List ExecInput)
    (meets : Meets (execStep table) (AtVisit table (KeepsFeedExact table)) inputs
      (freshExec frames mode boot)) :
    FedExactly table (run (execStep table) inputs (freshExec frames mode boot)).log := by
  have tracks := (feedCounted_followed present).run meets
    (feedCounted_fresh table frames mode boot)
  exact tracks.conclude fun held => held.exact

theorem flight_watchdog_fed_exactly :
    FedExactly obcTaskTable (run (execStep obcTaskTable)
      (punctualRun [[1001, 0, 0, 0, 0], [0, 0, 0, 0, 0], [0, 4501, 0, 0, 0]]) (coldExec 3)).log :=
  watchdog_fed_exactly obcTaskTable (by decide) 3 (executiveState uneventfulBoot coldMode)
    coldBootRecord _ (by decide +kernel)

/-- Housekeeping sits out frame 1, and command, overrunning later in that frame,
takes over its suspension: everything else ran, and the watchdog is not fed. -/
theorem healthy_frame_unfed :
    ¬∀ inputs, FedExactly obcTaskTable
      (run (execStep obcTaskTable) inputs (coldExec 2)).log := by
  intro fed
  have once := (fed (punctualRun [[1001, 0, 0, 0, 0], [0, 0, 0, 0, 12001]]) 1
    (by decide +kernel)).2.1 (by decide +kernel)
  exact absurd once (by decide +kernel)

end ObcZero
