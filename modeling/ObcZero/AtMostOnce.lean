import ObcZero.CommandSteps

/-! Acceptance and execution, one to one: the counters of what was accepted rise,
and what was executed was accepted before and is not executed again. -/

namespace ObcZero

open StepSystem

def CmdEvent.acceptedCounter : CmdEvent → Option U32
  | .accepted _ _ _ counter _ => some counter
  | .handled .. => none

def CmdEvent.handledCounter : CmdEvent → Option U32
  | .accepted .. => none
  | .handled _ _ counter _ _ => some counter

def acceptedCounters (history : List CmdEvent) : List U32 :=
  history.filterMap CmdEvent.acceptedCounter

def handledCounters (history : List CmdEvent) : List U32 :=
  history.filterMap CmdEvent.handledCounter

def WasAccepted (opcode : U8) (arg counter : U32) (history : List CmdEvent) : Prop :=
  ∃ when armedUntil, .accepted opcode when arg counter armedUntil ∈ history

def HandledAccepted (history : List CmdEvent) : Prop :=
  ∀ row arg counter now frame earlier,
    .handled row arg counter now frame :: earlier <:+ history →
      WasAccepted row.opcode arg counter earlier

/-- The task as `obc_cmd_init` leaves it, whether or not it accepts the table. -/
def bootedCmd (fields : List ObcCmdField) (table : List ObcCmd) : CmdState :=
  (obcCmdInit fields table clearedCmd).2

theorem bootedCmd_cases (fields : List ObcCmdField) (table : List ObcCmd) :
    bootedCmd fields table = clearedCmd ∨
      (rowsValid [] table = true ∧
        bootedCmd fields table = { obcCmdQueueInit clearedCmd with tableOk := true }) := by
  unfold bootedCmd obcCmdInit
  split
  · exact .inl rfl
  split
  · exact .inl rfl
  split
  · exact .inl rfl
  rename_i valid
  exact .inr ⟨by simpa using valid, rfl⟩

theorem WasAccepted.later {opcode : U8} {arg counter : U32} {history : List CmdEvent}
    (accepted : WasAccepted opcode arg counter history) (event : CmdEvent) :
    WasAccepted opcode arg counter (event :: history) := by
  obtain ⟨when, armedUntil, member⟩ := accepted
  exact ⟨when, armedUntil, List.mem_cons_of_mem event member⟩

theorem WasAccepted.counter_mem {opcode : U8} {arg counter : U32} {history : List CmdEvent}
    (accepted : WasAccepted opcode arg counter history) : counter ∈ acceptedCounters history := by
  obtain ⟨when, armedUntil, member⟩ := accepted
  exact List.mem_filterMap.mpr ⟨_, member, rfl⟩

/-- What ties the last counter, the slots in use and the record of what was executed. -/
structure OnceEach (state : CmdState) : Prop where
  clear : state.armTarget = 0
  bounded : ∀ counter ∈ acceptedCounters state.history, counter ≤ state.lastCounter
  increasing : (acceptedCounters state.history).Pairwise fun later earlier => earlier < later
  queued : ∀ index, (state.queue index).occupied = true →
    WasAccepted (state.queue index).opcode (state.queue index).arg (state.queue index).counter
      state.history
  apart : ∀ first second, (state.queue first).occupied = true →
    (state.queue second).occupied = true →
    (state.queue first).counter = (state.queue second).counter → first = second
  waiting : ∀ index, (state.queue index).occupied = true →
    (state.queue index).counter ∉ handledCounters state.history
  handled : HandledAccepted state.history
  once : (handledCounters state.history).Nodup

theorem HandledAccepted.counter_mem {history : List CmdEvent} (handled : HandledAccepted history)
    {counter : U32} (member : counter ∈ handledCounters history) :
    counter ∈ acceptedCounters history := by
  obtain ⟨event, inside, carries⟩ := List.mem_filterMap.mp member
  cases event with
  | accepted opcode when arg other armedUntil => cases carries
  | handled row arg other now frame =>
      obtain rfl := Option.some.inj carries
      obtain ⟨newer, earlier, split⟩ := List.append_of_mem inside
      have suffix : .handled row arg other now frame :: earlier <:+ history := ⟨newer, split.symm⟩
      have accepted := (handled row arg other now frame earlier suffix).counter_mem
      rw [split]
      simp only [acceptedCounters, List.filterMap_append, List.mem_append]
      right
      exact List.mem_filterMap.mpr (by
        obtain ⟨event, member, same⟩ := List.mem_filterMap.mp accepted
        exact ⟨event, List.mem_cons_of_mem _ member, same⟩)

theorem HandledAccepted.accepted {history : List CmdEvent} (handled : HandledAccepted history)
    (opcode : U8) (when arg counter armedUntil : U32) :
    HandledAccepted (.accepted opcode when arg counter armedUntil :: history) := by
  intro row held other now frame earlier suffix
  rcases List.suffix_cons_iff.mp suffix with newest | older
  · cases newest
  · exact handled row held other now frame earlier older

theorem HandledAccepted.handled {history : List CmdEvent} (earlier : HandledAccepted history)
    {row : ObcCmd} {arg counter : U32} (now frame : U32)
    (accepted : WasAccepted row.opcode arg counter history) :
    HandledAccepted (.handled row arg counter now frame :: history) := by
  intro other held otherCounter ran called before suffix
  rcases List.suffix_cons_iff.mp suffix with newest | older
  · cases newest
    exact accepted
  · exact earlier other held otherCounter ran called before older

theorem onceEach_booted (fields : List ObcCmdField) (table : List ObcCmd) :
    OnceEach (bootedCmd fields table) := by
  have empty (state : CmdState) (clear : state.armTarget = 0)
      (queue : state.queue = fun _ => emptySlot) (history : state.history = []) :
      OnceEach state := by
    constructor
    · exact clear
    · simp [history, acceptedCounters]
    · simp [history, acceptedCounters]
    · simp [queue, emptySlot]
    · simp [queue, emptySlot]
    · simp [queue, emptySlot]
    · intro row arg counter now frame earlier suffix
      rw [history] at suffix
      cases List.suffix_nil.mp suffix
    · simp [history, handledCounters]
  rcases bootedCmd_cases fields table with same | ⟨_, same⟩
  · rw [same]
    exact empty _ rfl rfl rfl
  · rw [same]
    exact empty _ rfl rfl rfl

theorem OnceEach.congr {state after : CmdState} (once : OnceEach state)
    (same : SameArming state after) : OnceEach after := by
  constructor
  · rw [same.armTarget]
    exact once.clear
  · rw [same.history, same.lastCounter]
    exact once.bounded
  · rw [same.history]
    exact once.increasing
  · rw [same.queue, same.history]
    exact once.queued
  · rw [same.queue]
    exact once.apart
  · rw [same.queue, same.history]
    exact once.waiting
  · rw [same.history]
    exact once.handled
  · rw [same.history]
    exact once.once

theorem OnceEach.queueInit {state : CmdState} (once : OnceEach state) :
    OnceEach (obcCmdQueueInit state) := by
  constructor
  · exact once.clear
  · exact once.bounded
  · exact once.increasing
  · simp [obcCmdQueueInit, emptySlot]
  · simp [obcCmdQueueInit, emptySlot]
  · simp [obcCmdQueueInit, emptySlot]
  · exact once.handled
  · exact once.once

theorem OnceEach.accepted {state : CmdState} (once : OnceEach state) {frame : Nat → U8}
    {row : ObcCmd} {index : Fin obcCmdQueueLen} (admissible : Admissible row frame state) :
    OnceEach (acceptedState frame index state) := by
  have fresh := admissible.2.2.1
  have unused : ∀ counter ∈ acceptedCounters state.history,
      counter < getU32 frame obcCmdOCounter := by
    intro counter member
    have bound := once.bounded counter member
    bv_omega
  have counters : acceptedCounters (acceptedState frame index state).history =
      getU32 frame obcCmdOCounter :: acceptedCounters state.history := rfl
  have executed : handledCounters (acceptedState frame index state).history =
      handledCounters state.history := rfl
  have older (position : Fin obcCmdQueueLen) (occupied : (state.queue position).occupied = true) :
      (state.queue position).counter < getU32 frame obcCmdOCounter :=
    unused _ (once.queued position occupied).counter_mem
  constructor
  · exact once.clear
  · rw [counters]
    intro counter member
    rcases List.mem_cons.mp member with newest | earlier
    · rw [newest]
      exact BitVec.le_refl _
    · exact BitVec.le_of_lt (unused counter earlier)
  · rw [counters]
    exact List.pairwise_cons.mpr ⟨unused, once.increasing⟩
  · intro position occupied
    by_cases here : position = index
    · subst here
      simp only [acceptedState, Function.update_self]
      exact ⟨_, _, List.mem_cons_self⟩
    · simp only [acceptedState, Function.update_of_ne here] at occupied ⊢
      exact (once.queued position occupied).later _
  · intro first second firstOccupied secondOccupied same
    by_cases firstHere : first = index
    · by_cases secondHere : second = index
      · rw [firstHere, secondHere]
      · subst firstHere
        simp only [acceptedState, Function.update_self, Function.update_of_ne secondHere]
          at secondOccupied same
        have below := older second secondOccupied
        rw [same] at below
        exact absurd below (BitVec.lt_irrefl _)
    · by_cases secondHere : second = index
      · subst secondHere
        simp only [acceptedState, Function.update_self, Function.update_of_ne firstHere]
          at firstOccupied same
        have below := older first firstOccupied
        rw [same] at below
        exact absurd below (BitVec.lt_irrefl _)
      · simp only [acceptedState, Function.update_of_ne firstHere,
          Function.update_of_ne secondHere] at firstOccupied secondOccupied same
        exact once.apart first second firstOccupied secondOccupied same
  · rw [executed]
    intro position occupied member
    by_cases here : position = index
    · subst here
      simp only [acceptedState, Function.update_self] at member
      exact absurd (unused _ (once.handled.counter_mem member)) (BitVec.lt_irrefl _)
    · simp only [acceptedState, Function.update_of_ne here] at occupied member
      exact once.waiting position occupied member
  · exact once.handled.accepted _ _ _ _ _
  · rw [executed]
    exact once.once

theorem OnceEach.passed {state : CmdState} (once : OnceEach state) (table : List ObcCmd)
    (now frame : U32) {index : Fin obcCmdQueueLen}
    (occupied : (state.queue index).occupied = true) :
    OnceEach (runSlot table now frame index state) := by
  have ran := runSlot_slotRun table now frame index once.clear
  have emptied : ((runSlot table now frame index state).queue index).occupied = false := by
    rw [ran.vacated, Function.update_self]
  have apart (first second : Fin obcCmdQueueLen)
      (firstStill : ((runSlot table now frame index state).queue first).occupied = true)
      (secondStill : ((runSlot table now frame index state).queue second).occupied = true)
      (same : ((runSlot table now frame index state).queue first).counter =
        ((runSlot table now frame index state).queue second).counter) : first = second := by
    have firstKept := ran.kept firstStill
    have secondKept := ran.kept secondStill
    rw [firstKept] at firstStill same
    rw [secondKept] at secondStill same
    exact once.apart first second firstStill secondStill same
  rcases ran.effect with ⟨history, _⟩ | ⟨row, fn, found, _, history, _⟩
  · constructor
    · exact ran.clear
    · rw [history, ran.lastCounter]
      exact once.bounded
    · rw [history]
      exact once.increasing
    · intro position still
      have kept := ran.kept still
      rw [kept] at still ⊢
      rw [history]
      exact once.queued position still
    · exact apart
    · intro position still
      have kept := ran.kept still
      rw [kept] at still ⊢
      rw [history]
      exact once.waiting position still
    · rw [history]
      exact once.handled
    · rw [history]
      exact once.once
  · have accepted : acceptedCounters (runSlot table now frame index state).history =
        acceptedCounters state.history := by
      rw [history]
      rfl
    have executed : handledCounters (runSlot table now frame index state).history =
        (state.queue index).counter :: handledCounters state.history := by
      rw [history]
      rfl
    constructor
    · exact ran.clear
    · rw [accepted, ran.lastCounter]
      exact once.bounded
    · rw [accepted]
      exact once.increasing
    · intro position still
      have kept := ran.kept still
      rw [kept] at still ⊢
      rw [history]
      exact (once.queued position still).later _
    · exact apart
    · intro position still member
      have elsewhere : position ≠ index := by
        rintro rfl
        rw [emptied] at still
        cases still
      rw [executed] at member
      have kept := ran.kept still
      rw [kept] at still member
      rcases List.mem_cons.mp member with same | earlier
      · exact elsewhere (once.apart position index still occupied same)
      · exact once.waiting position still earlier
    · rw [history]
      apply once.handled.handled
      rw [lookup_opcode found]
      exact once.queued index occupied
    · rw [executed]
      exact List.nodup_cons.mpr ⟨once.waiting index occupied, once.once⟩

theorem onceEach_rule (table : List ObcCmd) :
    ArmingRule table (fun _ _ _ => True) OnceEach where
  congr := fun once same => once.congr same
  blind := fun _ _ => trivial
  accepted := fun _ _ _ admissible _ once => once.accepted admissible

theorem cmdStep_onceEach (table : List ObcCmd) (input : CmdInput) (state : CmdState)
    (once : OnceEach state) : OnceEach (cmdStep table input state) := by
  have rule := onceEach_rule table
  cases input with
  | receive bytes => exact once.congr ⟨rfl, rfl, rfl, rfl, rfl, rfl, rfl⟩
  | ingest frame len => exact rule.ingested (fun _ _ => trivial) once
  | poll => exact rule.polled (meets_always (fun _ _ _ => trivial) _ _) once
  | queueInit => exact once.queueInit
  | queueRun now frame =>
      refine obcCmdQueueRun_invariant ?_ ?_ once
      · intro current before
        unfold expireArming
        split
        · exact ⟨before.clear, before.bounded, before.increasing, before.queued, before.apart,
            before.waiting, before.handled, before.once⟩
        · exact before
      · intro index current occupied _ before
        exact before.passed table now frame occupied

theorem OnceEach.refusesAgain {state : CmdState} (once : OnceEach state) (table : List ObcCmd)
    {bytes : Nat → U8} (len : U32)
    (again : getU32 bytes obcCmdOCounter ∈ acceptedCounters state.history) :
    (obcCmdIngest table (some bytes) len state).2.2.queue = state.queue ∧
      (obcCmdIngest table (some bytes) len state).2.2.history = state.history := by
  rcases obcCmdIngest_cases table (some bytes) len state with
    unchanged | ⟨reason, refused⟩ | ⟨given, row, index, same, _, _, admissible, _⟩
  · rw [unchanged]
    exact ⟨rfl, rfl⟩
  · obtain ⟨announced, serial, after⟩ :=
      refuse_cases reason { state with examined := bump state.examined }
    rw [refused, after]
    exact ⟨rfl, rfl⟩
  · obtain rfl := Option.some.inj same
    have fresh := admissible.2.2.1
    have bound := once.bounded _ again
    exact absurd fresh (BitVec.not_lt.mpr bound)

/-- Over every run after `obc_cmd_init`: accepted counters rise, a handler runs what
one earlier acceptance brought, no counter is executed twice, and a frame received
again changes neither the queue nor what was accepted. -/
theorem executed_at_most_once (fields : List ObcCmdField) (table : List ObcCmd)
    (inputs : List CmdInput) :
    let state := run (cmdStep table) inputs (bootedCmd fields table)
    ((acceptedCounters state.history).Pairwise fun later earlier => earlier < later) ∧
      HandledAccepted state.history ∧ (handledCounters state.history).Nodup ∧
      ∀ bytes len, getU32 bytes obcCmdOCounter ∈ acceptedCounters state.history →
        (obcCmdIngest table (some bytes) len state).2.2.queue = state.queue ∧
          (obcCmdIngest table (some bytes) len state).2.2.history = state.history := by
  intro state
  have once : OnceEach state :=
    run_invariant (cmdStep_onceEach table) inputs (onceEach_booted fields table)
  exact ⟨once.increasing, once.handled, once.once, fun _ len => once.refusesAgain table len⟩

end ObcZero
