import ObcZero.CommandTiming
import ObcZero.QueueRule

/-! Due commands that carry one tag: the search keeps the lowest slot among them, so
they run in the order of their slots, which is the order of their acceptance for as
long as no acceptance goes below a slot that already holds its tag. -/

namespace ObcZero

open StepSystem DrainOrder

/-- What the search holds after the slots `seen` is below every other slot of its tag. -/
def LowestSeen (now : U32) (queue : Fin obcCmdQueueLen → ObcCmdSlot)
    (seen : List (Fin obcCmdQueueLen)) : Option (Fin obcCmdQueueLen) → Prop
  | none => True
  | some chosen => chosen ∈ seen ∧ ∀ index ∈ seen, DueAt now (queue index) → index < chosen →
      (queue chosen).when < (queue index).when

theorem LowestSeen.skipped {now : U32} {queue : Fin obcCmdQueueLen → ObcCmdSlot}
    {seen : List (Fin obcCmdQueueLen)} {oldest : Option (Fin obcCmdQueueLen)}
    (lowest : LowestSeen now queue seen oldest) {index : Fin obcCmdQueueLen}
    (above : ∀ other ∈ seen, other < index) : LowestSeen now queue (seen ++ [index]) oldest := by
  cases oldest with
  | none => trivial
  | some chosen =>
      refine ⟨List.mem_append_left _ lowest.1, fun other member due below => ?_⟩
      rcases List.mem_append.mp member with earlier | last
      · exact lowest.2 other earlier due below
      · rw [List.mem_singleton.mp last] at below
        exact absurd (above chosen lowest.1) below.not_gt

theorem LowestSeen.considered {now : U32} {queue : Fin obcCmdQueueLen → ObcCmdSlot}
    {seen : List (Fin obcCmdQueueLen)} {oldest : Option (Fin obcCmdQueueLen)}
    (lowest : LowestSeen now queue seen oldest) (earliest : EarliestSeen now queue seen oldest)
    {index : Fin obcCmdQueueLen} (above : ∀ other ∈ seen, other < index) :
    LowestSeen now queue (seen ++ [index]) (considerSlot now queue oldest index) := by
  unfold considerSlot
  split
  · exact lowest.skipped above
  split
  · exact lowest.skipped above
  have here : index ∈ seen ++ [index] := List.mem_append_right _ (List.mem_singleton_self index)
  cases oldest with
  | none =>
      refine ⟨here, fun other member due below => ?_⟩
      rcases List.mem_append.mp member with earlier | last
      · exact absurd due (earliest other earlier)
      · rw [List.mem_singleton.mp last] at below
        exact absurd below (lt_irrefl index)
  | some chosen =>
      dsimp only
      split
      · rename_i sooner
        refine ⟨here, fun other member due below => ?_⟩
        rcases List.mem_append.mp member with earlier | last
        · exact BitVec.lt_def.mpr (Nat.lt_of_lt_of_le (BitVec.lt_def.mp sooner)
            (BitVec.le_def.mp (earliest.2 other earlier due)))
        · rw [List.mem_singleton.mp last] at below
          exact absurd below (lt_irrefl index)
      · exact lowest.skipped above

theorem oldestDue_lowest (now : U32) (queue : Fin obcCmdQueueLen → ObcCmdSlot) :
    LowestSeen now queue (List.finRange obcCmdQueueLen) (oldestDue now queue) := by
  have general (rest seen : List (Fin obcCmdQueueLen)) (oldest : Option (Fin obcCmdQueueLen))
      (rising : (seen ++ rest).Pairwise (· < ·)) (earliest : EarliestSeen now queue seen oldest)
      (lowest : LowestSeen now queue seen oldest) :
      LowestSeen now queue (seen ++ rest) (rest.foldl (considerSlot now queue) oldest) := by
    induction rest generalizing seen oldest with
    | nil => simpa using lowest
    | cons index rest ih =>
        have above : ∀ other ∈ seen, other < index := fun other member =>
          (List.pairwise_append.mp rising).2.2 other member index List.mem_cons_self
        have next := ih (seen ++ [index]) _ (by simpa using rising) (earliest.considered index)
          (lowest.considered earliest above)
        simpa using next
  exact general (List.finRange obcCmdQueueLen) [] none (List.pairwise_lt_finRange _)
    (by simp [EarliestSeen]) trivial

/-- The order in which slots are run: by tag, and by slot where the tags are equal. -/
def turnOf (state : CmdState) (index : Fin obcCmdQueueLen) : ℕ ×ₗ Fin obcCmdQueueLen :=
  toLex ((state.queue index).when.toNat, index)

theorem runSlot_inTurn (table : List ObcCmd) (now frame : U32) :
    LeastFirst (fun state : CmdState => oldestDue now state.queue) (runSlot table now frame)
      (dueSlots now) turnOf where
  idle := (runSlot_leastFirst table now frame).idle
  chosen := (runSlot_leastFirst table now frame).chosen
  least := by
    intro state index other found due
    have sooner := (runSlot_leastFirst table now frame).least found due
    have lowest := oldestDue_lowest now state.queue
    rw [found] at lowest
    rw [turnOf, turnOf, Prod.Lex.toLex_le_toLex]
    rcases Nat.lt_or_eq_of_le sooner with less | same
    · exact .inl less
    · refine .inr ⟨same, le_of_not_gt fun below => ?_⟩
      have later := lowest.2 other (List.mem_finRange other) (mem_dueSlots.mp due) below
      exact absurd (BitVec.lt_def.mp later) (Nat.not_lt.mpr same.ge)
  removed := (runSlot_leastFirst table now frame).removed
  kept := by
    intro state index other served left
    have same := (runSlot_leastFirst table now frame).kept served left
    exact congrArg (fun tag => toLex (tag, other)) same

theorem runOrder_before (table : List ObcCmd) {now : U32} (frame : U32) {state : CmdState}
    {first second : Fin obcCmdQueueLen} (firstDue : DueAt now (state.queue first))
    (secondDue : DueAt now (state.queue second))
    (same : (state.queue first).when = (state.queue second).when) (below : first < second) :
    [first, second].Sublist (runOrder table now frame state) := by
  obtain ⟨queue, _, _⟩ := expireArming_frame frame state
  have inTurn := runSlot_inTurn table now frame
  refine inTurn.before (dueSlots_enough now _) ?_ ?_ ?_
  · rwa [mem_dueSlots, queue]
  · rwa [mem_dueSlots, queue]
  · rw [turnOf, turnOf, queue, Prod.Lex.toLex_lt_toLex, same]
    exact .inr ⟨rfl, below⟩

def AcceptedBefore (first second : Tagged) (state : CmdState) : Prop :=
  [second.counter, first.counter].Sublist (acceptedCounters state.history)

/-- A run of the queue executes the due commands of each tag in the order in which their
frames were accepted. -/
def TiesInTurn (table : List ObcCmd) (now frame : U32) (state : CmdState) : Prop :=
  ∀ first second : Tagged, Holds first state → Holds second state → first.tag = second.tag →
    first.tag ≤ now → AcceptedBefore first second state →
    [second.counter, first.counter].Sublist
      (handledCounters (obcCmdQueueRun table now frame state).history)

/-- Among the due slots of one tag, the lower slot holds the lower counter. -/
def SlotsInTurn (now : U32) (state : CmdState) : Prop :=
  ∀ lower upper : Fin obcCmdQueueLen, lower < upper → DueAt now (state.queue lower) →
    DueAt now (state.queue upper) → (state.queue lower).when = (state.queue upper).when →
    (state.queue lower).counter < (state.queue upper).counter

/-- No free slot lies below a slot that already holds the tag of the frame. -/
def FillsInTurn (frame : Nat → U8) (state : CmdState) : Prop :=
  ∀ index : Fin obcCmdQueueLen, (state.queue index).occupied = true →
    (state.queue index).when = getU32 frame obcCmdOWhen →
    ∀ lower < index, (state.queue lower).occupied = true

instance (frame : Nat → U8) (state : CmdState) : Decidable (FillsInTurn frame state) :=
  inferInstanceAs (Decidable (∀ _, _ → _ → ∀ _, _ → _))

structure Handlable (table : List ObcCmd) (state : CmdState) : Prop where
  rows : state.tableOk = true → ∀ row ∈ table, row.fn.isSome
  known : ∀ index, (state.queue index).occupied = true →
    ∃ row fn, lookup table (state.queue index).opcode = some row ∧ row.fn = some fn

theorem Handlable.booted (fields : List ObcCmdField) (table : List ObcCmd) :
    Handlable table (bootedCmd fields table) := by
  refine ⟨bootedCmd_rows, fun index used => ?_⟩
  rcases bootedCmd_cases fields table with same | ⟨_, same⟩
  · rw [same] at used
    cases used
  · rw [same] at used
    cases used

theorem handlable_rule (table : List ObcCmd) :
    QueueRule table (fun _ _ => True) (Handlable table) where
  congr := by
    intro state after handlable same
    constructor
    · rw [same.tableOk]
      exact handlable.rows
    · rw [same.queue]
      exact handlable.known
  blind := fun _ _ => trivial
  accepted := by
    intro frame row index state _ found _ _ audited handlable
    refine ⟨handlable.rows, fun position used => ?_⟩
    by_cases here : position = index
    · subst here
      obtain ⟨fn, named⟩ :=
        Option.isSome_iff_exists.mp (handlable.rows audited row (lookup_mem found))
      simp only [acceptedState, Function.update_self]
      exact ⟨row, fn, found, named⟩
    · simp only [acceptedState, Function.update_of_ne here] at used ⊢
      exact handlable.known position used
  passed := by
    intro now frame index state _ handlable
    obtain ⟨queue, _, _⟩ := runSlot_serves table now frame index state
    refine ⟨fun audited => ?_, fun position used => ?_⟩
    · rw [(runSlot_linkKept table now frame index state).tableOk] at audited
      exact handlable.rows audited
    · by_cases here : position = index
      · subst here
        rw [queue, Function.update_self] at used
        cases used
      · rw [queue, Function.update_of_ne here] at used ⊢
        exact handlable.known position used
  emptied := fun handlable => ⟨handlable.rows, fun _ used => by cases used⟩

theorem runSlot_lastCounter (table : List ObcCmd) (now frame : U32) (index : Fin obcCmdQueueLen)
    (state : CmdState) :
    (runSlot table now frame index state).lastCounter = state.lastCounter := by
  have counted := (countLate_frame now (state.queue index) (vacate index state)).lastCounter
  unfold runSlot
  dsimp only
  split
  · rfl
  split
  · exact counted
  · rename_i fn _
    have called := (fn.call_frame (state.queue index).arg
      (countLate now (state.queue index) (vacate index state))).lastCounter
    unfold execute establishArming
    dsimp only
    split
    · exact called.trans counted
    · exact called.trans counted

/-- `SlotsInTurn` of all slots in use, due or not. -/
def Rising (state : CmdState) : Prop :=
  ∀ lower upper : Fin obcCmdQueueLen, lower < upper → (state.queue lower).occupied = true →
    (state.queue upper).occupied = true → (state.queue lower).when = (state.queue upper).when →
    (state.queue lower).counter < (state.queue upper).counter

/-- `Rising`, with the bound on the counters that a new one exceeds. -/
structure RisingBelow (state : CmdState) : Prop where
  rising : Rising state
  bounded : ∀ index, (state.queue index).occupied = true →
    (state.queue index).counter ≤ state.lastCounter

theorem risingBelow_rule (table : List ObcCmd) : QueueRule table FillsInTurn RisingBelow where
  congr := by
    intro state after kept same
    constructor
    · rw [Rising, same.queue]
      exact kept.rising
    · rw [same.queue, same.lastCounter]
      exact kept.bounded
  blind := by
    intro frame state after fills same
    rw [FillsInTurn, same.queue]
    exact fills
  accepted := by
    intro frame row index state fills _ fresh free _ kept
    have newer (position : Fin obcCmdQueueLen) (used : (state.queue position).occupied = true) :
        (state.queue position).counter < getU32 frame obcCmdOCounter := by
      have bound := kept.bounded position used
      bv_omega
    constructor
    · intro lower upper below lowerUsed upperUsed same
      by_cases lowerHere : lower = index
      · subst lowerHere
        have apart := below.ne'
        simp only [acceptedState, Function.update_self, Function.update_of_ne apart]
          at upperUsed same
        rw [fills upper upperUsed same.symm lower below] at free
        cases free
      · by_cases upperHere : upper = index
        · subst upperHere
          simp only [acceptedState, Function.update_self, Function.update_of_ne lowerHere]
            at lowerUsed ⊢
          exact newer lower lowerUsed
        · simp only [acceptedState, Function.update_of_ne lowerHere,
            Function.update_of_ne upperHere] at lowerUsed upperUsed same ⊢
          exact kept.rising lower upper below lowerUsed upperUsed same
    · intro position used
      by_cases here : position = index
      · subst here
        simp only [acceptedState, Function.update_self]
        exact BitVec.le_refl _
      · simp only [acceptedState, Function.update_of_ne here] at used ⊢
        exact BitVec.le_of_lt (newer position used)
  passed := by
    intro now frame index state _ kept
    obtain ⟨queue, _, _⟩ := runSlot_serves table now frame index state
    have still (position : Fin obcCmdQueueLen)
        (used : ((runSlot table now frame index state).queue position).occupied = true) :
        (runSlot table now frame index state).queue position = state.queue position := by
      by_cases here : position = index
      · subst here
        rw [queue, Function.update_self] at used
        cases used
      · rw [queue, Function.update_of_ne here]
    constructor
    · intro lower upper below lowerUsed upperUsed same
      have lowerStill := still lower lowerUsed
      have upperStill := still upper upperUsed
      rw [lowerStill] at lowerUsed same ⊢
      rw [upperStill] at upperUsed same ⊢
      exact kept.rising lower upper below lowerUsed upperUsed same
    · intro position used
      have positionStill := still position used
      rw [positionStill] at used ⊢
      rw [runSlot_lastCounter]
      exact kept.bounded position used
  emptied := by
    intro state kept
    constructor
    · intro lower upper _ used
      cases used
    · intro index used
      cases used

theorem RisingBelow.booted (fields : List ObcCmdField) (table : List ObcCmd) :
    RisingBelow (bootedCmd fields table) := by
  have empty (index : Fin obcCmdQueueLen) :
      ((bootedCmd fields table).queue index).occupied = false := by
    rcases bootedCmd_cases fields table with same | ⟨_, same⟩
    · rw [same]
      rfl
    · rw [same]
      rfl
  constructor
  · intro lower upper _ used
    rw [empty lower] at used
    cases used
  · intro index used
    rw [empty index] at used
    cases used

theorem pair_sublist_antisymm {list : List U32} (once : list.Nodup) {first second : U32}
    (inOrder : [first, second].Sublist list) (reversed : [second, first].Sublist list) : False := by
  induction list with
  | nil => cases inOrder
  | cons head rest ih =>
      obtain ⟨absent, restOnce⟩ := List.nodup_cons.mp once
      cases inOrder with
      | cons _ later =>
          cases reversed with
          | cons _ laterToo => exact ih restOnce later laterToo
          | cons_cons _ _ => exact absent (later.subset (by simp))
      | cons_cons _ secondLater =>
          cases reversed with
          | cons _ later => exact absent (later.subset (by simp))
          | cons_cons _ _ => exact absent (List.singleton_sublist.mp secondLater)

section Reached

variable {table : List ObcCmd} {state : CmdState} (once : OnceEach state)
  (handlable : Handlable table state)

include handlable in
theorem handledCounters_before {now : U32} (frame : U32) {first second : Fin obcCmdQueueLen}
    (firstDue : DueAt now (state.queue first)) (secondDue : DueAt now (state.queue second))
    (same : (state.queue first).when = (state.queue second).when) (below : first < second) :
    [(state.queue second).counter, (state.queue first).counter].Sublist
      (handledCounters (obcCmdQueueRun table now frame state).history) := by
  have call (index : Fin obcCmdQueueLen) (due : DueAt now (state.queue index)) :
      ∃ event, handlerCall table now frame (state.queue index) = some event ∧
        event.handledCounter = some (state.queue index).counter := by
    obtain ⟨row, fn, found, named⟩ := handlable.known index due.1
    refine ⟨.handled row (state.queue index).arg (state.queue index).counter now frame, ?_, rfl⟩
    simp only [handlerCall, found, named, Option.map_some]
  obtain ⟨firstCall, firstMade, firstCarries⟩ := call first firstDue
  obtain ⟨secondCall, secondMade, secondCarries⟩ := call second secondDue
  have ordered := (runOrder_before table frame firstDue secondDue same
    below).filterMap fun index => handlerCall table now frame (state.queue index)
  have calls : [first, second].filterMap
      (fun index => handlerCall table now frame (state.queue index)) = [firstCall, secondCall] := by
    simp [firstMade, secondMade]
  rw [calls] at ordered
  have recorded := (ordered.reverse.trans (List.sublist_append_left _ state.history)).filterMap
    CmdEvent.handledCounter
  rw [handledCounters, (runOrder_ranDue table now frame state).calls]
  simpa [firstCarries, secondCarries] using recorded

include once in
theorem acceptedBefore_iff {first second : Tagged} (firstHeld : Holds first state)
    (secondHeld : Holds second state) :
    AcceptedBefore first second state ↔ first.counter < second.counter := by
  have recorded {command : Tagged} (held : Holds command state) :
      command.counter ∈ acceptedCounters state.history := by
    obtain ⟨index, stored⟩ := held
    have accepted := (once.queued index (by rw [stored]; rfl)).counter_mem
    rwa [stored] at accepted
  constructor
  · exact fun before => once.increasing.forall_sublist before
  · intro less
    have apart : second.counter ≠ first.counter := fun same => by
      rw [same] at less
      exact BitVec.lt_irrefl _ less
    rcases pair_sublist_or (recorded secondHeld) (recorded firstHeld) apart with before | after
    · exact before
    · exact absurd (once.increasing.forall_sublist after) (BitVec.not_lt.mpr (BitVec.le_of_lt less))

include once handlable

theorem tiesInTurn_iff (now frame : U32) :
    TiesInTurn table now frame state ↔ SlotsInTurn now state := by
  have held (index : Fin obcCmdQueueLen) (used : (state.queue index).occupied = true) :
      Holds
        { opcode := (state.queue index).opcode, tag := (state.queue index).when,
          arg := (state.queue index).arg, counter := (state.queue index).counter } state := by
    refine ⟨index, ?_⟩
    rw [Tagged.slot, ← used]
  constructor
  · intro inTurn lower upper below lowerDue upperDue same
    by_contra reversed
    have apart : (state.queue lower).counter ≠ (state.queue upper).counter := fun equal =>
      below.ne (once.apart lower upper lowerDue.1 upperDue.1 equal)
    have less : (state.queue upper).counter < (state.queue lower).counter := by bv_omega
    have lowerHeld := held lower lowerDue.1
    have upperHeld := held upper upperDue.1
    have swapped := inTurn _ _ upperHeld lowerHeld same.symm upperDue.2
      ((acceptedBefore_iff once upperHeld lowerHeld).mpr less)
    exact pair_sublist_antisymm
      (cmdStep_onceEach table (.queueRun now frame) state once).once swapped
      (handledCounters_before handlable _ lowerDue upperDue same below)
  · rintro inTurn first second firstHeld secondHeld same due before
    have less := (acceptedBefore_iff once firstHeld secondHeld).mp before
    obtain ⟨lower, lowerStored⟩ := firstHeld
    obtain ⟨upper, upperStored⟩ := secondHeld
    have lowerDue : DueAt now (state.queue lower) := by
      rw [lowerStored]
      exact ⟨rfl, due⟩
    have upperDue : DueAt now (state.queue upper) := by
      rw [upperStored]
      rw [same] at due
      exact ⟨rfl, due⟩
    have tags : (state.queue lower).when = (state.queue upper).when := by
      rw [lowerStored, upperStored]
      exact same
    rcases lt_trichotomy lower upper with below | here | above
    · have ran := handledCounters_before handlable frame lowerDue upperDue tags below
      rwa [lowerStored, upperStored] at ran
    · subst here
      rw [lowerStored] at upperStored
      have equal : first.counter = second.counter := congrArg ObcCmdSlot.counter upperStored
      rw [equal] at less
      exact absurd less (BitVec.lt_irrefl _)
    · have rises := inTurn upper lower above upperDue lowerDue tags.symm
      rw [lowerStored, upperStored] at rises
      exact absurd rises (BitVec.not_lt.mpr (BitVec.le_of_lt less))

end Reached

/-- In every state reached, due commands of one tag run in the order of their acceptance
if and only if their slots are in that order; and so they are, all along any run in which
no frame is accepted while a free slot lies below one that holds its tag. -/
theorem ties_run_in_turn (fields : List ObcCmdField) (table : List ObcCmd)
    (inputs : List CmdInput) :
    let state := run (cmdStep table) inputs (bootedCmd fields table)
    (∀ now frame, TiesInTurn table now frame state ↔ SlotsInTurn now state) ∧
      (Meets (cmdStep table) (AcceptsUnder table FillsInTurn) inputs (bootedCmd fields table) →
        ∀ now frame, TiesInTurn table now frame state) := by
  intro state
  have once : OnceEach state :=
    run_invariant (cmdStep_onceEach table) inputs (onceEach_booted fields table)
  have handlable : Handlable table state :=
    run_invariant (fun input current => (handlable_rule table).step input current
      (acceptsUnder_always table input current)) inputs (Handlable.booted fields table)
  refine ⟨tiesInTurn_iff once handlable, fun meets now frame => ?_⟩
  have kept := meets_invariant (risingBelow_rule table).step meets (RisingBelow.booted fields table)
  exact (tiesInTurn_iff once handlable now frame).mpr
    fun lower upper below lowerDue upperDue =>
      kept.rising lower upper below lowerDue.1 upperDue.1

instance (frame : Nat → U8) (len : U32) : Decidable (WellFormed frame len) :=
  inferInstanceAs (Decidable (_ ∧ _ ∧ _ ∧ _))

instance (row : ObcCmd) (frame : Nat → U8) (state : CmdState) :
    Decidable (Admissible row frame state) :=
  inferInstanceAs (Decidable (_ ∧ _ ∧ _ ∧ ∃ index, (state.queue index).occupied = false))

instance (table : List ObcCmd) (frame : Nat → U8) (len : U32) (state : CmdState) :
    Decidable (Accepts table frame len state) :=
  inferInstanceAs (Decidable (_ ∧ _ ∧ ∃ row ∈ lookup table (frameOpcode frame),
    Admissible row frame state ∧ (_ → _)))

instance (table : List ObcCmd) (frame : Nat → U8) (len : U32) (state : CmdState) :
    Decidable ((fun frame len state => Accepts table frame len state → FillsInTurn frame state)
      frame len state) :=
  inferInstanceAs (Decidable (Accepts table frame len state → FillsInTurn frame state))

instance (table : List ObcCmd) (byte : U8) (state : CmdState) :
    Decidable (TakesAllowed (fun frame len state => Accepts table frame len state →
      FillsInTurn frame state) byte state) :=
  inferInstanceAs (Decidable (_ → Accepts table (completedFrame byte state)
    (BitVec.ofNat 32 obcCmdFrameLen) state → FillsInTurn (completedFrame byte state) state))

instance (table : List ObcCmd) (input : CmdInput) (state : CmdState) :
    Decidable (AcceptsUnder table FillsInTurn input state) :=
  match input with
  | .ingest frame len => inferInstanceAs (Decidable (∀ bytes ∈ frame,
      Accepts table bytes len state → FillsInTurn bytes state))
  | .poll =>
      inferInstanceAs (Decidable (Meets (takeByte table)
        (TakesAllowed fun frame len state => Accepts table frame len state →
          FillsInTurn frame state) _ _))
  | .receive _ => isTrue trivial
  | .queueRun _ _ => isTrue trivial
  | .queueInit => isTrue trivial

/-- Two commands for the tick 5000, behind one for the next frame. -/
def pairBehindPing : List CmdInput :=
  [.receive (build opPing.toNat 1 0 0 ++ build opPing.toNat 2 0 5000 ++
    build opPing.toNat 3 0 5000), .poll, .queueRun 0 0]

theorem flight_ties_run_in_turn :
    TiesInTurn obcCmdTable 5000 5 (run (cmdStep obcCmdTable) pairBehindPing
      (bootedCmd obcCmdFields obcCmdTable)) :=
  (ties_run_in_turn obcCmdFields obcCmdTable pairBehindPing).2 (by decide +kernel) 5000 5

/-- The ping runs before the third frame comes, which then takes the slot below the second
one and overtakes it. -/
theorem reused_slot_overtakes :
    let state := run (cmdStep obcCmdTable)
      [.receive (build opPing.toNat 1 0 0 ++ build opPing.toNat 2 0 5000), .poll, .queueRun 0 0,
        .receive (build opPing.toNat 3 0 5000), .poll] (bootedCmd obcCmdFields obcCmdTable)
    acceptedCounters state.history = [3, 2, 1] ∧
      handledCounters (obcCmdQueueRun obcCmdTable 5000 5 state).history = [2, 3, 1] ∧
      ¬TiesInTurn obcCmdTable 5000 5 state := by
  intro state
  have accepted : acceptedCounters state.history = [3, 2, 1] := by decide +kernel
  have handled : handledCounters (obcCmdQueueRun obcCmdTable 5000 5 state).history = [2, 3, 1] := by
    decide +kernel
  refine ⟨accepted, handled, fun inTurn => ?_⟩
  have second : Holds { opcode := opPing, tag := 5000, arg := 0, counter := 2 } state :=
    ⟨1, by decide +kernel⟩
  have third : Holds { opcode := opPing, tag := 5000, arg := 0, counter := 3 } state :=
    ⟨0, by decide +kernel⟩
  have swapped := inTurn _ _ second third rfl (BitVec.le_refl _) (by
    rw [AcceptedBefore, accepted]
    decide)
  rw [handled] at swapped
  revert swapped
  decide

end ObcZero
