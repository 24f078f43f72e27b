import ObcZero.SuspensionSlot

/-! The rung 1 log against the dispatches that took place: when it is exact in both
directions, and how two overruns in one frame make it announce a dispatch that
takes place. -/

namespace ObcZero

open StepSystem

def SuspensionLogExact (state : ExecState) : Prop :=
  (∀ frame task, Announced state.suspensions frame.toNat task →
    (∀ due suspended dispatched,
      .visited frame task due suspended dispatched ∈ state.log → due = true ∧ dispatched = false) ∧
    (.endOfPass frame ∈ state.log →
      ∃ suspended, .visited frame task true suspended false ∈ state.log)) ∧
  ∀ frame task suspended, .visited frame task true suspended false ∈ state.log →
    Announced state.suspensions frame.toNat task

structure LogMatches (table : List ObcTask) (position : Nat) (state : ExecState) : Prop where
  slot : SlotLogged table position state
  visited : ∀ frame task due suspended dispatched,
    .visited frame task due suspended dispatched ∈ state.log →
    task < table.length ∧ ¬Ahead position state frame.toNat task
  ended : ∀ frame, .endOfPass frame ∈ state.log →
    ∀ task, task < table.length → ¬Ahead position state frame.toNat task
  withheld : ∀ frame task due suspended dispatched, Announced state.suspensions frame.toNat task →
    .visited frame task due suspended dispatched ∈ state.log → due = true ∧ dispatched = false
  passed : ∀ frame task, Announced state.suspensions frame.toNat task →
    ¬Ahead position state frame.toNat task →
    .visited frame task true true false ∈ state.log
  explained : ∀ frame task suspended, .visited frame task true suspended false ∈ state.log →
    Announced state.suspensions frame.toNat task

theorem LogMatches.exact {table : List ObcTask} {position : Nat} {state : ExecState}
    (held : LogMatches table position state) : SuspensionLogExact state := by
  constructor
  · intro frame task announced
    constructor
    · intro due suspended dispatched visited
      exact held.withheld frame task due suspended dispatched announced visited
    · intro ended
      have inTable := held.slot.inTable frame.toNat task announced
      exact ⟨true, held.passed frame task announced (held.ended frame ended task inTable)⟩
  · exact held.explained

structure SameVisits (before after : ExecState) : Prop where
  visited : ∀ frame task due suspended dispatched,
    .visited frame task due suspended dispatched ∈ after.log ↔
      .visited frame task due suspended dispatched ∈ before.log
  suspensions : ∀ frame task,
    Announced after.suspensions frame task ↔ Announced before.suspensions frame task

theorem LogMatches.advance {table : List ObcTask} {position next : Nat}
    {state after : ExecState} (held : LogMatches table position state)
    (slot : SlotLogged table next after) (same : SameVisits state after)
    (sight : ∀ frame task, task < table.length →
      (Ahead next after frame task ↔ Ahead position state frame task))
    (ended : ∀ frame, .endOfPass frame ∈ after.log → .endOfPass frame ∈ state.log ∨
      ∀ task, task < table.length → ¬Ahead next after frame.toNat task) :
    LogMatches table next after := by
  constructor
  · exact slot
  · intro frame task due suspended dispatched visited
    obtain ⟨inTable, behind⟩ :=
      held.visited frame task due suspended dispatched ((same.visited ..).mp visited)
    exact ⟨inTable, fun ahead => behind ((sight _ task inTable).mp ahead)⟩
  · intro frame closed task inTable
    rcases ended frame closed with before | done
    · exact fun ahead => held.ended frame before task inTable ((sight _ task inTable).mp ahead)
    · exact done task inTable
  · intro frame task due suspended dispatched announced visited
    exact held.withheld frame task due suspended dispatched
      ((same.suspensions ..).mp announced) ((same.visited ..).mp visited)
  · intro frame task announced behind
    have before := (same.suspensions ..).mp announced
    have inTable := held.slot.inTable frame.toNat task before
    exact (same.visited ..).mpr (held.passed frame task before fun ahead =>
      behind ((sight _ task inTable).mpr ahead))
  · intro frame task suspended visited
    exact (same.suspensions ..).mpr
      (held.explained frame task suspended ((same.visited ..).mp visited))

structure VisitLogged (index : Nat) (due suspended dispatched : Bool)
    (state after : ExecState) : Prop where
  visited : ∀ frame task flag other third,
    .visited frame task flag other third ∈ after.log ↔
      (frame = state.frame ∧ task = index ∧ flag = due ∧ other = suspended ∧
        third = dispatched) ∨ .visited frame task flag other third ∈ state.log
  ended : ∀ frame, .endOfPass frame ∈ after.log → .endOfPass frame ∈ state.log
  frame : after.frame = state.frame
  kept : ∀ frame task, Announced state.suspensions frame task →
    Announced after.suspensions frame task
  fresh : ∀ frame task, Announced after.suspensions frame task →
    Announced state.suspensions frame task ∨ state.frame.toNat < frame

theorem LogMatches.visit {table : List ObcTask} {index : Nat} {due suspended dispatched : Bool}
    {state after : ExecState} (held : LogMatches table index state)
    (inside : index < table.length) (slot : SlotLogged table (index + 1) after)
    (logged : VisitLogged index due suspended dispatched state after)
    (gap : Announced state.suspensions state.frame.toNat index →
      due = true ∧ suspended = true ∧ dispatched = false)
    (entry : due = true → dispatched = false →
      Announced state.suspensions state.frame.toNat index) :
    LogMatches table (index + 1) after := by
  have behind (frame task : Nat) (early : ¬Ahead index state frame task) :
      ¬Ahead (index + 1) after frame task := fun ahead =>
    early (ahead.mono logged.frame (Nat.le_succ index))
  have here : ¬Ahead (index + 1) after state.frame.toNat index := by
    unfold Ahead
    rw [logged.frame]
    omega
  constructor
  · exact slot
  · intro frame task flag other third visited
    rcases (logged.visited ..).mp visited with ⟨rfl, rfl, _⟩ | before
    · exact ⟨inside, here⟩
    · obtain ⟨inTable, early⟩ := held.visited frame task flag other third before
      exact ⟨inTable, behind _ _ early⟩
  · intro frame closed task inTable
    exact behind _ _ (held.ended frame (logged.ended frame closed) task inTable)
  · intro frame task flag other third announced visited
    rcases (logged.visited ..).mp visited with ⟨rfl, rfl, rfl, rfl, rfl⟩ | before
    · rcases logged.fresh _ _ announced with old | later
      · exact ⟨(gap old).1, (gap old).2.2⟩
      · omega
    · rcases logged.fresh _ _ announced with old | later
      · exact held.withheld frame task flag other third old before
      · exact absurd (Or.inl later) (held.visited frame task flag other third before).2
  · intro frame task announced early
    rcases logged.fresh _ _ announced with old | later
    · by_cases ahead : Ahead index state frame.toNat task
      · -- the announcement that this visit has come to
        obtain ⟨sameFrame, sameTask⟩ : frame.toNat = state.frame.toNat ∧ task = index := by
          unfold Ahead at ahead early
          rw [logged.frame] at early
          omega
        obtain rfl := BitVec.eq_of_toNat_eq sameFrame
        rw [sameTask] at old ⊢
        obtain ⟨rfl, rfl, rfl⟩ := gap old
        exact (logged.visited ..).mpr (.inl ⟨rfl, rfl, rfl, rfl, rfl⟩)
      · exact (logged.visited ..).mpr (.inr (held.passed frame task old ahead))
    · refine absurd (Or.inl ?_) early
      rw [logged.frame]
      exact later
  · intro frame task other visited
    rcases (logged.visited ..).mp visited with ⟨rfl, rfl, flag, rfl, third⟩ | before
    · exact logged.kept _ _ (entry flag.symm third.symm)
    · exact logged.kept _ _ (held.explained frame task other before)

theorem visitLogged {index : Nat} {due suspended dispatched : Bool} {state after : ExecState}
    (marks : List ExecEvent)
    (log : after.log =
      marks ++ .visited state.frame index due suspended dispatched :: state.log)
    (silent : ∀ mark ∈ marks, mark.remark = true) (frame : after.frame = state.frame)
    (kept : ∀ frame task, Announced state.suspensions frame task →
      Announced after.suspensions frame task)
    (fresh : ∀ frame task, Announced after.suspensions frame task →
      Announced state.suspensions frame task ∨ state.frame.toNat < frame) :
    VisitLogged index due suspended dispatched state after := by
  constructor
  · intro other task flag second third
    rw [log, mem_remarks silent rfl]
    simp
  · intro other closed
    rw [log, mem_remarks silent rfl] at closed
    simpa using closed
  · exact frame
  · exact kept
  · exact fresh

/-- What a visit must meet for the log to stay exact. -/
def KeepsLogExact (row : ObcTask) (index : Nat) (turn : Turn) (state : ExecState) : Prop :=
  (Overruns row index turn state obcRungSuspendTask → AnnouncesExactly row index state) ∧
    (Due row state.frame → Withheld row state →
      obcRecoverIsSuspended index state.frame state = false) ∧
    (Due row state.frame → ¬Withheld row state →
      obcRecoverIsSuspended index state.frame state = false → row.fn.isSome)

instance (row : ObcTask) (index : Nat) (turn : Turn) (state : ExecState) :
    Decidable (KeepsLogExact row index turn state) := inferInstanceAs (Decidable (_ ∧ _ ∧ _))

theorem LogMatches.visitRow {table : List ObcTask} {index : Nat} {row : ObcTask} {turn : Turn}
    {state after : ExecState} (held : LogMatches table index state)
    (found : table[index]? = some row) (running : Running table state)
    (keeps : KeepsLogExact row index turn state) (visit : Visit row index turn state after) :
    LogMatches table (index + 1) after := by
  obtain ⟨exact, unwithheld, nonnull⟩ := keeps
  obtain ⟨inside, _⟩ := List.getElem?_eq_some_iff.mp found
  have narrow : index < 8 := Nat.lt_of_lt_of_le inside running.limit
  have slot := held.slot.visit found running.limit running.within exact visit
  have announced := held.slot.announced_iff running.limit running.within found
  have unannounced (free : obcRecoverIsSuspended index state.frame state = false) :
      ¬Announced state.suspensions state.frame.toNat index := by
    rw [announced, free]
    exact Bool.false_ne_true
  have ran {next : ExecState} (slot : SlotLogged table (index + 1) next)
      (free : obcRecoverIsSuspended index state.frame state = false)
      (logged : VisitLogged index true false true state next) :
      LogMatches table (index + 1) next :=
    held.visit inside slot logged (fun announced => absurd announced (unannounced free)) (by simp)
  cases visit with
  | skipped mode kept skip =>
      refine held.visit inside slot
        (visitLogged [] rfl (by simp) rfl (fun _ _ => id) fun _ _ => .inl)
        (fun entry => ?_) (by simp)
      have due := held.slot.due_of_announced running.within found entry
      rcases skip with undue | withheld
      · exact absurd due undue
      · exact absurd entry (unannounced (unwithheld due withheld))
  | suspended mode kept due asked suspended =>
      exact held.visit inside slot
        (visitLogged [] rfl (by simp) rfl (fun _ _ => id) fun _ _ => .inl)
        (fun _ => ⟨rfl, rfl, rfl⟩) fun _ _ => announced.mpr suspended
  | nullFunction mode kept due asked free null =>
      have present := nonnull due asked free
      rw [null] at present
      cases present
  | within mode kept taskState traceOverflow dispatches thrifty =>
      exact ran slot dispatches.2.2.1
        (visitLogged [] rfl (by simp) rfl (fun _ _ => id) fun _ _ => .inl)
  | suspends mode kept taskState traceOverflow suspensionOverflow overruns =>
      have announces := exact overruns
      exact ran slot overruns.1.2.2.1
        (visitLogged [.suspendTask index state.frame (nextDue row state.frame)] rfl
          (by simp [ExecEvent.remark]) rfl
          (fun frame task old =>
            (announced_logged_suspendTask announces.1 (by omega) _ frame task).mpr (.inl old))
          fun _ _ => announces.fresh overruns.1.1 (by omega) running.within)
  | resetsSubsystem mode kept taskState traceOverflow suspensionOverflow overruns =>
      have entries := announced_logged_resetSubsystem state.suspensions index state.frame
      exact ran slot overruns.1.2.2.1
        (visitLogged [.resetSubsystem index state.frame] rfl (by simp [ExecEvent.remark]) rfl
          (fun frame task => (entries frame task).mpr)
          fun frame task announced => .inl ((entries frame task).mp announced))
  | entersSafe mode kept taskState traceOverflow overruns spent =>
      exact ran slot overruns.1.2.2.1
        (visitLogged [] rfl (by simp) rfl (fun _ _ => id) fun _ _ => .inl)
  | resetsMachine mode kept taskState traceOverflow overruns unspent =>
      exact ran slot overruns.1.2.2.1
        (visitLogged [.resetNow] rfl (by simp [ExecEvent.remark]) rfl (fun _ _ => id)
          fun _ _ => .inl)

theorem SuspensionLogExact.same {state after : ExecState} (exact : SuspensionLogExact state)
    (same : SameVisits state after)
    (ended : ∀ frame, .endOfPass frame ∈ after.log → .endOfPass frame ∈ state.log) :
    SuspensionLogExact after := by
  constructor
  · intro frame task announced
    obtain ⟨withheld, gap⟩ := exact.1 frame task ((same.suspensions ..).mp announced)
    refine ⟨fun due suspended dispatched visited =>
      withheld due suspended dispatched ((same.visited ..).mp visited), fun closed => ?_⟩
    obtain ⟨suspended, visited⟩ := gap (ended frame closed)
    exact ⟨suspended, (same.visited ..).mpr visited⟩
  · intro frame task suspended visited
    exact (same.suspensions ..).mpr
      (exact.2 frame task suspended ((same.visited ..).mp visited))

theorem LadderKept.sameVisits {state after : ExecState} (ladder : LadderKept state after)
    (log : ∀ frame task due suspended dispatched,
      .visited frame task due suspended dispatched ∈ after.log ↔
        .visited frame task due suspended dispatched ∈ state.log) : SameVisits state after :=
  ⟨log, fun _ _ => by rw [ladder.suspensions]⟩

theorem logMatches_followed (table : List ObcTask) :
    Followed table (AtVisit table KeepsLogExact) (LogMatches table) SuspensionLogExact := by
  constructor
  · intro position phase state held
    exact held.advance
      (held.slot.advance (fun _ _ => Iff.rfl) rfl rfl rfl fun _ _ _ => id)
      ⟨fun _ _ _ _ _ => Iff.rfl, fun _ _ => Iff.rfl⟩ (fun _ _ _ => Iff.rfl) fun _ => .inl
  · intro position index copy state _ held
    exact held.advance
      (held.slot.advance (fun _ _ => Iff.rfl) rfl rfl rfl fun _ _ _ => id)
      ⟨fun _ _ _ _ _ => Iff.rfl, fun _ _ => Iff.rfl⟩ (fun _ _ _ => Iff.rfl) fun _ => .inl
  · intro index copy state exact
    exact exact.same ⟨fun _ _ _ _ _ => Iff.rfl, fun _ _ => Iff.rfl⟩ fun _ => id
  · intro turn state after _ _ frame held ladder started
    cases started with
    | stopped status phase _ log =>
        have same := ladder.sameVisits (by simp [log])
        exact ⟨by simp [phase], fun _ _ => held.exact.same same (by simp [log])⟩
    | begun phase _ _ _ begins _ _ _ _ log =>
        have same := ladder.sameVisits (by simp [log])
        have here : after.frame = state.frame := begins.trans frame.symm
        refine ⟨fun _ => ?_, by simp [phase]⟩
        exact held.advance (held.slot.kept ladder here (Nat.le_refl 0)) same
          (fun _ _ _ => by simp only [Ahead, here])
          fun _ closed => .inl (by simpa [log] using closed)
  · intro turn state after index row allowed phase found running held visit
    have next := held.visitRow found running (allowed.row phase found) visit
    exact ⟨next, fun _ => next.exact⟩
  · intro turn state after _ _ running held ladder frame ended
    have carried (log : ∀ event, event ∈ after.log ↔
        event = .disarmHardware ∧ (∃ status, after.phase = .returned status) ∨
          event ∈ passLog table state) : LogMatches table (table.length + 1) after := by
      have same := ladder.sameVisits (by simp [log, mem_passLog])
      refine held.advance (held.slot.kept ladder frame (Nat.le_succ _)) same ?_ ?_
      · intro other task inTable
        simp only [Ahead, frame]
        omega
      · intro other closed
        simp only [log, mem_passLog, reduceCtorEq, false_and, false_or,
          ExecEvent.endOfPass.injEq] at closed
        rcases closed with rfl | before
        · right
          intro task inTable
          simp only [Ahead, frame]
          omega
        · exact .inl before
    cases ended with
    | stopped status _ phase log =>
        have next := carried fun event => by simp [log, phase]
        exact ⟨by simp [phase], fun _ _ => next.exact⟩
    | kept phase _ _ log =>
        exact ⟨fun _ => carried fun event => by simp [log, phase], by simp [phase]⟩
    | degraded phase _ _ _ log =>
        exact ⟨fun _ => carried fun event => by simp [log, phase], by simp [phase]⟩
  · intro turn state after guard _ _ running held ladder idled
    cases idled with
    | stopped status _ phase log =>
        have same := ladder.sameVisits (by simp [log])
        exact ⟨by simp [phase], fun _ _ => held.exact.same same (by simp [log])⟩
    | waits next waited => simp [waited]
    | entered phase within next _ _ _ _ log =>
        have same := ladder.sameVisits (by simp [log])
        have succ := toNat_succ_frame running.within
        refine ⟨fun _ => ?_, by simp [phase]⟩
        refine held.advance (held.slot.nextFrame ladder running.within next) same ?_
          fun _ closed => .inl (by simpa [log] using closed)
        intro other task inTable
        unfold Ahead
        rw [next]
        omega
    | finished phase _ _ log =>
        have same := ladder.sameVisits (by simp [log])
        exact ⟨by simp [phase], fun _ _ => held.exact.same same (by simp [log])⟩

theorem logMatches_fresh (table : List ObcTask) (frames : U32) (mode : ModeState)
    (boot : ObcBootRecord) : LogMatches table 0 (freshExec frames mode boot) := by
  have unannounced (frame task : Nat) :
      ¬Announced (freshExec frames mode boot).suspensions frame task := by
    rintro ⟨entry, member, _⟩
    cases member
  constructor
  · exact slotLogged_fresh table frames mode boot
  · intro frame task due suspended dispatched visited
    cases visited
  · intro frame closed
    cases closed
  · intro frame task due suspended dispatched announced
    exact absurd announced (unannounced _ _)
  · intro frame task announced
    exact absurd announced (unannounced _ _)
  · intro frame task suspended visited
    cases visited

/-- In every run whose visits meet the condition, whatever the table, the window,
the mode and the corruption of its copies, the rung 1 log is exact. -/
theorem suspensionLog_exact (table : List ObcTask) (frames : U32) (mode : ModeState)
    (boot : ObcBootRecord) (inputs : List ExecInput)
    (meets : Meets (execStep table) (AtVisit table KeepsLogExact) inputs
      (freshExec frames mode boot)) :
    SuspensionLogExact (run (execStep table) inputs (freshExec frames mode boot)) := by
  have tracks := (logMatches_followed table).run meets (logMatches_fresh table frames mode boot)
  exact tracks.conclude fun held => held.exact

theorem flight_suspensionLog_exact :
    SuspensionLogExact (run (execStep obcTaskTable)
      (punctualRun [[1001, 0, 0, 0, 0], [0, 0, 0, 0, 0], [0, 4501, 0, 0, 0]]) (coldExec 3)) :=
  suspensionLog_exact obcTaskTable 3 (executiveState uneventfulBoot coldMode) coldBootRecord _
    (by decide +kernel)

/-- Housekeeping and telemetry both overrun in frame 0. The second suspension
replaces the first, so housekeeping runs in frame 1 although its entry says not. -/
theorem announced_dispatch_takes_place :
    ¬∀ inputs, (run (execStep obcTaskTable) inputs (coldExec 2)).suspensionOverflow = 0 →
      SuspensionLogExact (run (execStep obcTaskTable) inputs (coldExec 2)) := by
  intro exact
  have entries := (exact (punctualRun [[1001, 4501, 0, 0, 0], [0, 0, 0, 0, 0]])
    (by decide +kernel)).1 1 0 ⟨{ task := 0, frame := 1, rung := 1 }, by decide +kernel⟩
  have withheld := entries.1 true false true (by decide +kernel)
  exact absurd withheld.2 (by decide)

end ObcZero
