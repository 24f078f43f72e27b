import ObcZero.DrainOrder
import ObcZero.QueueConservation

/-! What one run of the queue does, over every occupancy and every combination of
tags: the due slots are executed once each, earliest tag first, and no other moves. -/

namespace ObcZero

open StepSystem DrainOrder

def DueAt (now : U32) (slot : ObcCmdSlot) : Prop := slot.occupied = true ∧ slot.when ≤ now

instance (now : U32) (slot : ObcCmdSlot) : Decidable (DueAt now slot) := instDecidableAnd

def dueSlots (now : U32) (state : CmdState) : Finset (Fin obcCmdQueueLen) :=
  Finset.univ.filter fun index => DueAt now (state.queue index)

theorem mem_dueSlots {now : U32} {state : CmdState} {index : Fin obcCmdQueueLen} :
    index ∈ dueSlots now state ↔ DueAt now (state.queue index) := by
  simp [dueSlots]

/-- What the search holds after the slots `seen`. -/
def EarliestSeen (now : U32) (queue : Fin obcCmdQueueLen → ObcCmdSlot)
    (seen : List (Fin obcCmdQueueLen)) : Option (Fin obcCmdQueueLen) → Prop
  | none => ∀ index ∈ seen, ¬DueAt now (queue index)
  | some chosen => DueAt now (queue chosen) ∧
      ∀ index ∈ seen, DueAt now (queue index) → (queue chosen).when ≤ (queue index).when

def considerSlot (now : U32) (queue : Fin obcCmdQueueLen → ObcCmdSlot)
    (oldest : Option (Fin obcCmdQueueLen)) (index : Fin obcCmdQueueLen) :
    Option (Fin obcCmdQueueLen) :=
  if !(queue index).occupied then oldest
  else if now < (queue index).when then oldest
  else match oldest with
    | none => some index
    | some chosen => if (queue index).when < (queue chosen).when then some index else oldest

theorem EarliestSeen.skipped {now : U32} {queue : Fin obcCmdQueueLen → ObcCmdSlot}
    {seen : List (Fin obcCmdQueueLen)} {oldest : Option (Fin obcCmdQueueLen)}
    (earliest : EarliestSeen now queue seen oldest) {index : Fin obcCmdQueueLen}
    (notDue : ¬DueAt now (queue index)) : EarliestSeen now queue (seen ++ [index]) oldest := by
  cases oldest with
  | none =>
      intro other member
      rcases List.mem_append.mp member with earlier | last
      · exact earliest other earlier
      · rwa [List.mem_singleton.mp last]
  | some chosen =>
      refine ⟨earliest.1, fun other member due => ?_⟩
      rcases List.mem_append.mp member with earlier | last
      · exact earliest.2 other earlier due
      · rw [List.mem_singleton.mp last] at due
        exact absurd due notDue

theorem EarliestSeen.considered {now : U32} {queue : Fin obcCmdQueueLen → ObcCmdSlot}
    {seen : List (Fin obcCmdQueueLen)} {oldest : Option (Fin obcCmdQueueLen)}
    (earliest : EarliestSeen now queue seen oldest) (index : Fin obcCmdQueueLen) :
    EarliestSeen now queue (seen ++ [index]) (considerSlot now queue oldest index) := by
  unfold considerSlot
  split
  · rename_i free
    exact earliest.skipped fun due => by simp [due.1] at free
  rename_i occupied
  split
  · rename_i early
    exact earliest.skipped fun due => BitVec.not_lt.mpr due.2 early
  rename_i reached
  have due : DueAt now (queue index) := ⟨by simpa using occupied, BitVec.not_lt.mp reached⟩
  cases oldest with
  | none =>
      refine ⟨due, fun other member otherDue => ?_⟩
      rcases List.mem_append.mp member with earlier | last
      · exact absurd otherDue (earliest other earlier)
      · rw [List.mem_singleton.mp last]
        exact BitVec.le_refl _
  | some chosen =>
      dsimp only
      split
      · rename_i sooner
        refine ⟨due, fun other member otherDue => ?_⟩
        rcases List.mem_append.mp member with earlier | last
        · exact BitVec.le_trans (BitVec.le_of_lt sooner) (earliest.2 other earlier otherDue)
        · rw [List.mem_singleton.mp last]
          exact BitVec.le_refl _
      · rename_i later
        refine ⟨earliest.1, fun other member otherDue => ?_⟩
        rcases List.mem_append.mp member with earlier | last
        · exact earliest.2 other earlier otherDue
        · rw [List.mem_singleton.mp last]
          exact BitVec.not_lt.mp later

theorem oldestDue_earliest (now : U32) (queue : Fin obcCmdQueueLen → ObcCmdSlot) :
    EarliestSeen now queue (List.finRange obcCmdQueueLen) (oldestDue now queue) := by
  have general (rest seen : List (Fin obcCmdQueueLen)) (oldest : Option (Fin obcCmdQueueLen))
      (earliest : EarliestSeen now queue seen oldest) :
      EarliestSeen now queue (seen ++ rest) (rest.foldl (considerSlot now queue) oldest) := by
    induction rest generalizing seen oldest with
    | nil => simpa using earliest
    | cons index rest ih =>
        have next := ih (seen ++ [index]) _ (earliest.considered index)
        simpa using next
  exact general (List.finRange obcCmdQueueLen) [] none (by simp [EarliestSeen])

theorem runPasses_eq_drain (table : List ObcCmd) (now frame : U32) (passes : Nat)
    (state : CmdState) :
    runPasses table now frame passes state =
      drain (fun current => oldestDue now current.queue) (runSlot table now frame) passes
        state := by
  induction passes generalizing state with
  | zero => rfl
  | succ passes ih =>
      simp only [runPasses, drain]
      cases oldestDue now state.queue with
      | none => rfl
      | some index => exact ih (runSlot table now frame index state)

/-- The call a slot is owed when its turn comes: an opcode that left the table is
dropped, and `obc_cmd_init` refuses a table with a null handler. -/
def handlerCall (table : List ObcCmd) (now frame : U32) (slot : ObcCmdSlot) : Option CmdEvent :=
  match lookup table slot.opcode with
  | none => none
  | some row => row.fn.map fun _ => .handled row slot.arg slot.counter now frame

def released (slot : ObcCmdSlot) : ObcCmdSlot := { slot with occupied := false }

theorem establishArming_frame (frame : U32) (state : CmdState) :
    (establishArming frame state).queue = state.queue ∧
      (establishArming frame state).queued = state.queued ∧
      (establishArming frame state).history = state.history := by
  unfold establishArming
  split <;> exact ⟨rfl, rfl, rfl⟩

theorem CmdFn.call_queued (fn : CmdFn) (arg : U32) (state : CmdState) :
    (fn.call arg state).queued = state.queued := by
  cases fn <;> rfl

theorem countLate_queued (now : U32) (slot : ObcCmdSlot) (state : CmdState) :
    (countLate now slot state).queued = state.queued := by
  unfold countLate
  split <;> rfl

/-- A pass over one slot: the slot is given up and its call, if it is owed one, made. -/
theorem runSlot_serves (table : List ObcCmd) (now frame : U32) (index : Fin obcCmdQueueLen)
    (state : CmdState) :
    (runSlot table now frame index state).queue =
        Function.update state.queue index (released (state.queue index)) ∧
      (runSlot table now frame index state).queued =
        (if 0 < state.queued then state.queued - 1 else state.queued) ∧
      (runSlot table now frame index state).history =
        (handlerCall table now frame (state.queue index)).toList ++ state.history := by
  cases found : lookup table (state.queue index).opcode with
  | none =>
      simp only [runSlot, handlerCall, found]
      exact ⟨rfl, rfl, rfl⟩
  | some row =>
      have late := countLate_frame now (state.queue index) (vacate index state)
      have lateQueued := countLate_queued now (state.queue index) (vacate index state)
      cases handler : row.fn with
      | none =>
          simp only [runSlot, handlerCall, found, handler]
          exact ⟨late.queue, lateQueued, late.history⟩
      | some fn =>
          set counted := countLate now (state.queue index) (vacate index state)
          have called := fn.call_frame (state.queue index).arg counted
          have calledQueued := fn.call_queued (state.queue index).arg counted
          simp only [runSlot, handlerCall, found, handler, execute]
          obtain ⟨queue, queued, history⟩ := establishArming_frame frame
            { fn.call (state.queue index).arg counted with
              executed := bump (fn.call (state.queue index).arg counted).executed
              history := .handled row (state.queue index).arg (state.queue index).counter now
                frame :: (fn.call (state.queue index).arg counted).history }
          refine ⟨queue.trans (called.queue.trans late.queue),
            queued.trans (calledQueued.trans lateQueued), history.trans ?_⟩
          exact congrArg (List.cons _) (called.history.trans late.history)

theorem dueSlots_served (table : List ObcCmd) (now frame : U32) {index : Fin obcCmdQueueLen}
    (state : CmdState) :
    dueSlots now (runSlot table now frame index state) = (dueSlots now state).erase index := by
  ext other
  rw [mem_dueSlots, Finset.mem_erase, mem_dueSlots, (runSlot_serves table now frame index state).1]
  by_cases here : other = index
  · subst here
    simp [DueAt, released]
  · simp [here]

theorem runSlot_leastFirst (table : List ObcCmd) (now frame : U32) :
    LeastFirst (fun state : CmdState => oldestDue now state.queue) (runSlot table now frame)
      (dueSlots now) fun state index => (state.queue index).when.toNat where
  idle := by
    intro state found
    have earliest := oldestDue_earliest now state.queue
    rw [found] at earliest
    refine Finset.eq_empty_of_forall_notMem fun index due => ?_
    exact earliest index (List.mem_finRange index) (mem_dueSlots.mp due)
  chosen := by
    intro state index found
    have earliest := oldestDue_earliest now state.queue
    rw [found] at earliest
    exact mem_dueSlots.mpr earliest.1
  least := by
    intro state index other found due
    have earliest := oldestDue_earliest now state.queue
    rw [found] at earliest
    exact BitVec.le_def.mp (earliest.2 other (List.mem_finRange other) (mem_dueSlots.mp due))
  removed := fun _ => dueSlots_served table now frame _
  kept := by
    intro state index other _ left
    rw [dueSlots_served] at left
    have elsewhere := Finset.ne_of_mem_erase left
    rw [(runSlot_serves table now frame index state).1, Function.update_of_ne elsewhere]

theorem runSlots_serve (table : List ObcCmd) (now frame : U32)
    {order : List (Fin obcCmdQueueLen)} (once : order.Nodup) (state : CmdState) :
    (order.foldl (fun current index => runSlot table now frame index current) state).queue =
        (fun index => if index ∈ order then released (state.queue index) else state.queue index) ∧
      (order.foldl (fun current index => runSlot table now frame index current) state).history =
        (order.filterMap fun index => handlerCall table now frame (state.queue index)).reverse ++
          state.history := by
  induction order generalizing state with
  | nil => simp
  | cons index rest ih =>
      obtain ⟨absent, restOnce⟩ := List.nodup_cons.mp once
      obtain ⟨queue, _, history⟩ := runSlot_serves table now frame index state
      obtain ⟨restQueue, restHistory⟩ := ih restOnce (runSlot table now frame index state)
      have untouched : ∀ other ∈ rest,
          (runSlot table now frame index state).queue other = state.queue other := by
        intro other member
        rw [queue, Function.update_of_ne (ne_of_mem_of_not_mem member absent)]
      rw [List.foldl_cons, restQueue, restHistory]
      constructor
      · funext other
        by_cases here : other = index
        · subst here
          rw [if_neg absent, if_pos List.mem_cons_self, queue, Function.update_self]
        · rw [queue, Function.update_of_ne here]
          simp [here]
      · have owed : rest.filterMap (fun other => handlerCall table now frame
            ((runSlot table now frame index state).queue other)) =
            rest.filterMap fun other => handlerCall table now frame (state.queue other) :=
          List.filterMap_congr fun other member => by rw [untouched other member]
        rw [owed, history]
        cases call : handlerCall table now frame (state.queue index) with
        | none => simp [call]
        | some event => simp [call]

/-- What a run of the queue at `now` does to the queue and to the record of calls,
`order` being the slots it runs, first to last. -/
structure RanDue (table : List ObcCmd) (now frame : U32) (order : List (Fin obcCmdQueueLen))
    (state after : CmdState) : Prop where
  once : order.Nodup
  due : ∀ index, index ∈ order ↔ DueAt now (state.queue index)
  sorted : order.Pairwise fun earlier later =>
    (state.queue earlier).when ≤ (state.queue later).when
  ran : after = order.foldl (fun current index => runSlot table now frame index current)
    (expireArming frame state)
  calls : after.history =
    (order.filterMap fun index => handlerCall table now frame (state.queue index)).reverse ++
      state.history
  emptied : ∀ index, DueAt now (state.queue index) →
    after.queue index = released (state.queue index)
  others : ∀ index, ¬DueAt now (state.queue index) → after.queue index = state.queue index

theorem expireArming_frame (frame : U32) (state : CmdState) :
    (expireArming frame state).queue = state.queue ∧
      (expireArming frame state).queued = state.queued ∧
      (expireArming frame state).history = state.history := by
  unfold expireArming
  split <;> exact ⟨rfl, rfl, rfl⟩

/-- The slots one run of the queue runs, first to last. -/
def runOrder (table : List ObcCmd) (now frame : U32) (state : CmdState) :
    List (Fin obcCmdQueueLen) :=
  served (fun current : CmdState => oldestDue now current.queue) (runSlot table now frame)
    obcCmdQueueLen (expireArming frame state)

theorem dueSlots_enough (now : U32) (state : CmdState) :
    (dueSlots now state).card ≤ obcCmdQueueLen :=
  (Finset.card_le_univ _).trans (by simp)

theorem runOrder_ranDue (table : List ObcCmd) (now frame : U32) (state : CmdState) :
    RanDue table now frame (runOrder table now frame state) state
      (obcCmdQueueRun table now frame state) := by
  have first := runSlot_leastFirst table now frame
  obtain ⟨queue, _, history⟩ := expireArming_frame frame state
  set start := expireArming frame state with startEq
  set order := runOrder table now frame state with orderEq
  have once : order.Nodup := first.nodup obcCmdQueueLen start
  have due : ∀ index, index ∈ order ↔ DueAt now (state.queue index) := by
    intro index
    rw [orderEq, runOrder, first.complete (dueSlots_enough now _), mem_dueSlots, queue]
  have ran : obcCmdQueueRun table now frame state =
      order.foldl (fun current index => runSlot table now frame index current) start := by
    rw [obcCmdQueueRun, runPasses_eq_drain, drain_eq_foldl]
    rfl
  obtain ⟨afterQueue, afterHistory⟩ := runSlots_serve table now frame once start
  rw [← ran, queue] at afterQueue
  rw [← ran, queue, history] at afterHistory
  refine ⟨once, due, ?_, ran, afterHistory, ?_, ?_⟩
  · have sorted := first.sorted obcCmdQueueLen start
    rw [queue] at sorted
    exact sorted.imp fun before => BitVec.le_def.mpr before
  · intro index isDue
    rw [afterQueue]
    exact if_pos ((due index).mpr isDue)
  · intro index notDue
    rw [afterQueue]
    exact if_neg fun member => notDue ((due index).mp member)

theorem obcCmdQueueRun_ranDue (table : List ObcCmd) (now frame : U32) (state : CmdState) :
    ∃ order, RanDue table now frame order state (obcCmdQueueRun table now frame state) :=
  ⟨runOrder table now frame state, runOrder_ranDue table now frame state⟩

/-- The entry points of the queue, as its callers may use them. -/
inductive QueueInput
  | put (opcode : U8) (when arg counter : U32)
  | run (now frame : U32)
  | reset

def queueStep (table : List ObcCmd) : QueueInput → CmdState → CmdState
  | .put opcode when arg counter, state => (obcCmdQueuePut opcode when arg counter state).2
  | .run now frame, state => obcCmdQueueRun table now frame state
  | .reset, state => obcCmdQueueInit state

def CountsOccupied (state : CmdState) : Prop := state.queued.toNat = occupiedSlots state.queue

theorem occupiedSlots_le (queue : Fin obcCmdQueueLen → ObcCmdSlot) :
    occupiedSlots queue ≤ obcCmdQueueLen :=
  (Finset.card_le_univ _).trans (by simp)

theorem CountsOccupied.ran {table : List ObcCmd} {now frame : U32} {index : Fin obcCmdQueueLen}
    {state : CmdState} (counts : CountsOccupied state)
    (used : (state.queue index).occupied = true) :
    CountsOccupied (runSlot table now frame index state) := by
  obtain ⟨queue, queued, _⟩ := runSlot_serves table now frame index state
  have vacated : occupiedSlots state.queue =
      occupiedSlots (Function.update state.queue index (released (state.queue index))) + 1 :=
    occupiedSlots_vacated used
  unfold CountsOccupied at counts ⊢
  rw [vacated] at counts
  have positive : 0 < state.queued := by bv_omega
  rw [queue, queued, if_pos positive]
  have down : (state.queued - 1).toNat = state.queued.toNat - 1 := by bv_omega
  rw [down, counts, Nat.add_sub_cancel]

theorem countsOccupied_init (state : CmdState) : CountsOccupied (obcCmdQueueInit state) := by
  have cleared : occupiedSlots (obcCmdQueueInit state).queue = 0 :=
    occupiedSlots_empty fun _ => rfl
  rw [CountsOccupied, cleared]
  rfl

theorem queueStep_countsOccupied (table : List ObcCmd) (input : QueueInput) (state : CmdState)
    (counts : CountsOccupied state) : CountsOccupied (queueStep table input state) := by
  cases input with
  | put opcode when arg counter =>
      simp only [queueStep]
      rcases obcCmdQueuePut_cases opcode when arg counter state with
        ⟨index, free, put⟩ | ⟨_, put⟩
      · rw [put]
        set slot : ObcCmdSlot :=
          { when := when, arg := arg, counter := counter, opcode := opcode, occupied := true }
        have taken : occupiedSlots (Function.update state.queue index slot) =
          occupiedSlots state.queue + 1 := occupiedSlots_taken state.queue free rfl
        have bound : occupiedSlots (Function.update state.queue index slot) ≤ 4 :=
          occupiedSlots_le _
        unfold CountsOccupied at counts ⊢
        rw [taken] at bound ⊢
        rw [← counts] at bound ⊢
        bv_omega
      · rw [put]
        exact counts
  | run now frame =>
      refine obcCmdQueueRun_invariant ?_ (fun index current used _ before => before.ran used) counts
      intro current before
      obtain ⟨queue, queued, _⟩ := expireArming_frame frame current
      rw [CountsOccupied, queue, queued]
      exact before
  | reset => exact countsOccupied_init state

/-- Whatever was put, run and reset before: the count is of the slots in use, a put
fails only when all of them are, and a run executes what is due and nothing else. -/
theorem queue_runs_due (table : List ObcCmd) (boot : CmdState) (inputs : List QueueInput) :
    let state := run (queueStep table) inputs (obcCmdQueueInit boot)
    state.queued.toNat = occupiedSlots state.queue ∧
      (∀ opcode when arg counter, (obcCmdQueuePut opcode when arg counter state).1 ≠ .ok →
        ∀ index, (state.queue index).occupied = true) ∧
      ∀ now frame, ∃ order,
        RanDue table now frame order state (obcCmdQueueRun table now frame state) := by
  intro state
  have booted : CountsOccupied (obcCmdQueueInit boot) := countsOccupied_init boot
  have counts : CountsOccupied state :=
    run_invariant (queueStep_countsOccupied table) inputs booted
  refine ⟨counts, fun opcode when arg counter failed => ?_, fun now frame =>
    obcCmdQueueRun_ranDue table now frame state⟩
  rcases obcCmdQueuePut_cases opcode when arg counter state with ⟨index, _, put⟩ | ⟨full, _⟩
  · rw [put] at failed
    exact absurd rfl failed
  · exact full

end ObcZero
