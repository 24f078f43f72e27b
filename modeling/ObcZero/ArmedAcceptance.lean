import ObcZero.ArmedExecution

/-! Arming and acceptance: which frame was accepted just before a critical one. -/

namespace ObcZero

open StepSystem

def isArm (table : List ObcCmd) (opcode : U8) : Bool :=
  (lookup table opcode).any fun row => row.fn == some .cmdArm

def lastAccepted : List CmdEvent → Option CmdEvent
  | [] => none
  | .handled .. :: earlier => lastAccepted earlier
  | .accepted opcode when arg counter armedUntil :: _ =>
      some (.accepted opcode when arg counter armedUntil)

def FollowsArm (table : List ObcCmd) (opcode : U8) (history : List CmdEvent) : Prop :=
  ∃ armOpcode when counter armedUntil,
    lastAccepted history = some (.accepted armOpcode when (opcode.setWidth 32) counter armedUntil) ∧
    isArm table armOpcode = true

def CriticalsSequenced (table : List ObcCmd) (history : List CmdEvent) : Prop :=
  ∀ opcode when arg counter armedUntil earlier,
    .accepted opcode when arg counter armedUntil :: earlier <:+ history →
    isCritical table opcode = true → FollowsArm table opcode earlier

def armInForce : List CmdEvent → Option U32
  | [] => none
  | .accepted .. :: earlier => armInForce earlier
  | .handled row arg counter _ _ :: earlier =>
      if row.fn = some .cmdArm ∧ arg ≠ 0 then some counter else armInForce earlier

/-- An acceptable critical frame finds the arm in force to be the frame accepted last. -/
def IngestsInSequence (table : List ObcCmd) (frame : Nat → U8) (len : U32) (state : CmdState) :
    Prop :=
  WellFormed frame len → (∀ row ∈ lookup table (frameOpcode frame), Admissible row frame state) →
    isCritical table (frameOpcode frame) = true →
    state.armedOpcode = (frameOpcode frame).setWidth 32 →
    armInForce state.history = some state.lastCounter

def AcceptsInSequence (table : List ObcCmd) : CmdInput → CmdState → Prop
  | .ingest frame len, state => ∀ bytes ∈ frame, IngestsInSequence table bytes len state
  | .poll, state =>
      Meets (takeByte table) (TakesAllowed (IngestsInSequence table))
        (state.uplink.take obcCmdRxBytes) { state with uplink := state.uplink.drop obcCmdRxBytes }
  | _, _ => True

instance (table : List ObcCmd) (frame : Nat → U8) (len : U32) (state : CmdState) :
    Decidable (IngestsInSequence table frame len state) := by
  unfold IngestsInSequence WellFormed Admissible
  infer_instance

instance (table : List ObcCmd) (byte : U8) (state : CmdState) :
    Decidable (TakesAllowed (IngestsInSequence table) byte state) := by
  unfold TakesAllowed
  infer_instance

instance (table : List ObcCmd) (input : CmdInput) (state : CmdState) :
    Decidable (AcceptsInSequence table input state) := by
  cases input <;> unfold AcceptsInSequence <;> infer_instance

/-- The arm in force and every queued command are frames on record, and the frame
with the last counter is the one accepted last. -/
structure SequenceRecorded (table : List ObcCmd) (state : CmdState) : Prop where
  tableOk : state.tableOk = true
  clear : state.armTarget = 0
  armed : ∀ opcode : U8, state.armedOpcode = opcode.setWidth 32 →
    ∃ armOpcode when counter armedUntil, armInForce state.history = some counter ∧
      .accepted armOpcode when (opcode.setWidth 32) counter armedUntil ∈ state.history ∧
      isArm table armOpcode = true
  queued : ∀ index, (state.queue index).occupied = true →
    ∃ armedUntil, .accepted (state.queue index).opcode (state.queue index).when
      (state.queue index).arg (state.queue index).counter armedUntil ∈ state.history
  newest : ∀ opcode when arg counter armedUntil,
    .accepted opcode when arg counter armedUntil ∈ state.history →
      counter ≤ state.lastCounter ∧ (counter = state.lastCounter →
        lastAccepted state.history = some (.accepted opcode when arg counter armedUntil))
  sequenced : CriticalsSequenced table state.history

theorem isArm_iff (table : List ObcCmd) (opcode : U8) :
    isArm table opcode = true ↔
      ∃ row, lookup table opcode = some row ∧ row.fn = some .cmdArm := by
  simp [isArm, Option.any_eq_true]

theorem CriticalsSequenced.handled {table : List ObcCmd} {history : List CmdEvent}
    (sequenced : CriticalsSequenced table history) (row : ObcCmd)
    (arg counter now frame : U32) :
    CriticalsSequenced table (.handled row arg counter now frame :: history) := by
  intro opcode when held other armedUntil earlier suffix
  rcases List.suffix_cons_iff.mp suffix with newest | older
  · cases newest
  · exact sequenced opcode when held other armedUntil earlier older

section Sequenced

variable {table : List ObcCmd} {state : CmdState} (recorded : SequenceRecorded table state)

include recorded

theorem SequenceRecorded.congr {after : CmdState} (same : SameArming state after) :
    SequenceRecorded table after := by
  constructor
  · rw [same.tableOk]
    exact recorded.tableOk
  · rw [same.armTarget]
    exact recorded.clear
  · rw [same.armedOpcode, same.history]
    exact recorded.armed
  · rw [same.queue, same.history]
    exact recorded.queued
  · rw [same.lastCounter, same.history]
    exact recorded.newest
  · rw [same.history]
    exact recorded.sequenced

theorem SequenceRecorded.disarmed {after : CmdState} (tableOk : after.tableOk = state.tableOk)
    (clear : after.armTarget = 0)
    (unarmed : after.armedOpcode = obcCmdArmNone) (lastCounter : after.lastCounter = state.lastCounter)
    (history : after.history = state.history)
    (kept : ∀ index, (after.queue index).occupied = true →
      after.queue index = state.queue index) : SequenceRecorded table after := by
  constructor
  · rw [tableOk]
    exact recorded.tableOk
  · exact clear
  · intro opcode same
    exact absurd (unarmed.symm.trans same) (obcCmdArmNone_ne opcode)
  · intro index occupied
    have same := kept index occupied
    rw [same] at occupied ⊢
    rw [history]
    exact recorded.queued index occupied
  · rw [lastCounter, history]
    exact recorded.newest
  · rw [history]
    exact recorded.sequenced

theorem SequenceRecorded.queueInit : SequenceRecorded table (obcCmdQueueInit state) := by
  refine recorded.disarmed rfl recorded.clear rfl rfl rfl fun index occupied => ?_
  simp [obcCmdQueueInit, emptySlot] at occupied

theorem SequenceRecorded.expired (frame : U32) :
    SequenceRecorded table (expireArming frame state) := by
  unfold expireArming
  split
  · exact recorded.disarmed rfl recorded.clear rfl rfl rfl fun _ _ => rfl
  · exact recorded

theorem SequenceRecorded.precedes {frame : Nat → U8}
    (armed : state.armedOpcode = (frameOpcode frame).setWidth 32)
    (latest : armInForce state.history = some state.lastCounter) :
    FollowsArm table (frameOpcode frame) state.history := by
  obtain ⟨armOpcode, when, counter, armedUntil, inForce, member, arm⟩ :=
    recorded.armed (frameOpcode frame) armed
  have last : counter = state.lastCounter := Option.some.inj (inForce.symm.trans latest)
  exact ⟨armOpcode, when, counter, armedUntil, (recorded.newest _ _ _ _ _ member).2 last, arm⟩

theorem SequenceRecorded.accepted {frame : Nat → U8} {len : U32} {row : ObcCmd}
    {index : Fin obcCmdQueueLen} (inSequence : IngestsInSequence table frame len state)
    (formed : WellFormed frame len) (found : lookup table (frameOpcode frame) = some row)
    (admissible : Admissible row frame state)
    (armed : row.critical = true → state.armedOpcode = (frameOpcode frame).setWidth 32) :
    SequenceRecorded table (acceptedState frame index state) := by
  have fresh := admissible.2.2.1
  constructor
  · exact recorded.tableOk
  · exact recorded.clear
  · intro opcode same
    obtain ⟨armOpcode, when, counter, armedUntil, inForce, member, arm⟩ := recorded.armed opcode same
    exact ⟨armOpcode, when, counter, armedUntil, inForce, List.mem_cons_of_mem _ member, arm⟩
  · intro position occupied
    by_cases here : position = index
    · subst here
      simp only [acceptedState, Function.update_self]
      exact ⟨state.armedUntil, List.mem_cons_self⟩
    · simp only [acceptedState, Function.update_of_ne here] at occupied ⊢
      obtain ⟨armedUntil, member⟩ := recorded.queued position occupied
      exact ⟨armedUntil, List.mem_cons_of_mem _ member⟩
  · intro opcode when arg counter armedUntil member
    rcases List.mem_cons.mp member with newest | older
    · cases newest
      exact ⟨BitVec.le_refl _, fun _ => rfl⟩
    · have bound := (recorded.newest opcode when arg counter armedUntil older).1
      simp only [acceptedState]
      constructor
      · bv_omega
      · intro same
        bv_omega
  · intro opcode when arg counter armedUntil earlier suffix critical
    rcases List.suffix_cons_iff.mp suffix with newest | older
    · cases newest
      obtain ⟨held, heldFound, heldCritical⟩ := (isCritical_iff _ _).mp critical
      obtain rfl : row = held := Option.some.inj (found.symm.trans heldFound)
      have fits : ∀ other ∈ lookup table (frameOpcode frame), Admissible other frame state := by
        intro other member
        obtain rfl : row = other := Option.some.inj (found.symm.trans member)
        exact admissible
      exact recorded.precedes (armed heldCritical)
        (inSequence formed fits critical (armed heldCritical))
    · exact recorded.sequenced opcode when arg counter armedUntil earlier older critical

theorem SequenceRecorded.passed (now frame : U32) {index : Fin obcCmdQueueLen}
    (occupied : (state.queue index).occupied = true) :
    SequenceRecorded table (runSlot table now frame index state) := by
  have ran := runSlot_slotRun table now frame index recorded.clear
  rcases ran.effect with
    ⟨history, armedOpcode, armedUntil⟩ | ⟨row, fn, found, handler, history, arming⟩
  · constructor
    · rw [ran.tableOk]
      exact recorded.tableOk
    · exact ran.clear
    · rw [armedOpcode, history]
      exact recorded.armed
    · intro position still
      have same := ran.kept still
      rw [same] at still ⊢
      rw [history]
      exact recorded.queued position still
    · rw [ran.lastCounter, history]
      exact recorded.newest
    · rw [history]
      exact recorded.sequenced
  · constructor
    · rw [ran.tableOk]
      exact recorded.tableOk
    · exact ran.clear
    · intro opcode same
      rw [history]
      rcases arming with ⟨⟨isArmFn, names⟩, armedOpcode, _⟩ | ⟨idle, armedOpcode, _⟩
      · obtain ⟨armedUntil, member⟩ := recorded.queued index occupied
        have arg : (state.queue index).arg = opcode.setWidth 32 := armedOpcode.symm.trans same
        refine ⟨(state.queue index).opcode, (state.queue index).when, (state.queue index).counter,
          armedUntil, ?_, ?_, ?_⟩
        · rw [armInForce, if_pos ⟨by rw [handler, isArmFn], names⟩]
        · rw [← arg]
          exact List.mem_cons_of_mem _ member
        · exact (isArm_iff _ _).mpr ⟨row, found, by rw [handler, isArmFn]⟩
      · obtain ⟨armOpcode, when, counter, armedUntil, inForce, member, arm⟩ :=
          recorded.armed opcode (armedOpcode.symm.trans same)
        have passive : ¬(row.fn = some .cmdArm ∧ (state.queue index).arg ≠ 0) := by
          rintro ⟨isArmFn, names⟩
          exact idle ⟨Option.some.inj (handler.symm.trans isArmFn), names⟩
        refine ⟨armOpcode, when, counter, armedUntil, ?_, List.mem_cons_of_mem _ member, arm⟩
        rw [armInForce, if_neg passive]
        exact inForce
    · intro position still
      have same := ran.kept still
      rw [same] at still ⊢
      rw [history]
      obtain ⟨armedUntil, member⟩ := recorded.queued position still
      exact ⟨armedUntil, List.mem_cons_of_mem _ member⟩
    · intro opcode when arg counter armedUntil member
      rw [history] at member ⊢
      rw [ran.lastCounter]
      rcases List.mem_cons.mp member with newest | older
      · cases newest
      · exact recorded.newest opcode when arg counter armedUntil older
    · rw [history]
      exact recorded.sequenced.handled row _ _ now frame

end Sequenced

theorem sequenceRecorded_rule (table : List ObcCmd) :
    ArmingRule table (IngestsInSequence table) (SequenceRecorded table) where
  congr := fun recorded same => recorded.congr same
  blind := by
    intro frame len state after inSequence same
    unfold IngestsInSequence Admissible
    rw [same.armedOpcode, same.lastCounter, same.history, same.queue]
    exact inSequence
  accepted := fun inSequence formed found admissible armed recorded =>
    recorded.accepted inSequence formed found admissible armed

theorem cmdStep_sequenceRecorded (table : List ObcCmd) (input : CmdInput) (state : CmdState)
    (inSequence : AcceptsInSequence table input state) (recorded : SequenceRecorded table state) :
    SequenceRecorded table (cmdStep table input state) := by
  have rule := sequenceRecorded_rule table
  cases input with
  | receive bytes => exact recorded.congr ⟨rfl, rfl, rfl, rfl, rfl, rfl, rfl⟩
  | ingest frame len => exact rule.ingested inSequence recorded
  | poll => exact rule.polled inSequence recorded
  | queueInit => exact recorded.queueInit
  | queueRun now frame =>
      exact obcCmdQueueRun_invariant (fun _ before => before.expired frame)
        (fun _ _ occupied _ before => before.passed now frame occupied) recorded

theorem obcCmdInit_sequenced {fields : List ObcCmdField} {table : List ObcCmd} {start : CmdState}
    (ready : obcCmdInit fields table clearedCmd = (.ok, start)) :
    SequenceRecorded table start := by
  rw [obcCmdInit_ok ready]
  constructor
  · rfl
  · rfl
  · intro opcode same
    exact absurd same (obcCmdArmNone_ne opcode)
  · intro index occupied
    simp [obcCmdQueueInit, emptySlot] at occupied
  · intro opcode when arg counter armedUntil member
    cases member
  · intro opcode when arg counter armedUntil earlier suffix
    cases List.suffix_nil.mp suffix

theorem SequenceRecorded.refused {table : List ObcCmd} {state : CmdState}
    (recorded : SequenceRecorded table state) {frame : Nat → U8} {len : U32} {row : ObcCmd}
    (formed : WellFormed frame len) (found : lookup table (frameOpcode frame) = some row)
    (admissible : Admissible row frame state) (critical : row.critical = true)
    (inSequence : IngestsInSequence table frame len state)
    (strays : ¬FollowsArm table (frameOpcode frame) state.history) :
    (obcCmdIngest table (some frame) len state).2.1 = some Reject.notArmed.index := by
  have unarmed : state.armedOpcode ≠ (frameOpcode frame).setWidth 32 := by
    intro armed
    have fits : ∀ other ∈ lookup table (frameOpcode frame), Admissible other frame state := by
      intro other member
      obtain rfl : row = other := Option.some.inj (found.symm.trans member)
      exact admissible
    have latest := inSequence formed fits ((isCritical_iff _ _).mpr ⟨row, found, critical⟩) armed
    exact strays (recorded.precedes armed latest)
  have ingested : obcCmdIngest table (some frame) len state =
      examine table frame len { state with examined := bump state.examined } :=
    if_pos recorded.tableOk
  have refused : examine table frame len { state with examined := bump state.examined } =
      refuse .notArmed { state with examined := bump state.examined } :=
    examine_notArmed formed found admissible critical unarmed
  rw [ingested, refused]
  rfl

/-- In every run that offers an acceptable critical frame only while the arm in
force is the frame accepted last, the frame accepted just before each critical
one is an arm naming its opcode, and a critical frame that follows anything else
is refused as not armed. -/
theorem criticals_accepted_sequenced {fields : List ObcCmdField} {table : List ObcCmd}
    {start : CmdState} {inputs : List CmdInput}
    (ready : obcCmdInit fields table clearedCmd = (.ok, start))
    (inSequence : Meets (cmdStep table) (AcceptsInSequence table) inputs start) :
    CriticalsSequenced table (run (cmdStep table) inputs start).history ∧
    ∀ frame len row, WellFormed frame len → lookup table (frameOpcode frame) = some row →
      row.critical = true → Admissible row frame (run (cmdStep table) inputs start) →
      IngestsInSequence table frame len (run (cmdStep table) inputs start) →
      ¬FollowsArm table (frameOpcode frame) (run (cmdStep table) inputs start).history →
      (obcCmdIngest table (some frame) len (run (cmdStep table) inputs start)).2.1 =
        some Reject.notArmed.index := by
  have recorded : SequenceRecorded table (run (cmdStep table) inputs start) :=
    meets_invariant (cmdStep_sequenceRecorded table) inSequence (obcCmdInit_sequenced ready)
  refine ⟨recorded.sequenced, ?_⟩
  intro frame len row formed found critical admissible latest strays
  exact recorded.refused formed found admissible critical latest strays

theorem flight_criticals_accepted_sequenced :
    CriticalsSequenced obcCmdTable (run (cmdStep obcCmdTable)
      [.receive armSafe, .poll, .queueRun 0 0, .receive (build opSafe.toNat 2 0 2048), .poll,
       .queueRun 1024 1] flightCmd).history := by
  have ready : obcCmdInit obcCmdFields obcCmdTable clearedCmd = (.ok, flightCmd) := rfl
  exact (criticals_accepted_sequenced ready (by decide +kernel)).1

/-- One arm, used twice: the second safe command follows the first. -/
theorem critical_accepted_unsequenced :
    ¬∀ inputs, CriticalsSequenced obcCmdTable (run (cmdStep obcCmdTable) inputs flightCmd).history := by
  intro sequenced
  have history : (run (cmdStep obcCmdTable)
      [.receive armSafe, .poll, .queueRun 0 0,
       .receive (build opSafe.toNat 2 0 0 ++ build opSafe.toNat 3 0 0), .poll] flightCmd).history =
        [.accepted opSafe 0 0 3 4, .accepted opSafe 0 0 2 4,
         .handled { name := "arm", opcode := opArm, critical := false, argMin := 0x10,
                    argMax := 0x13, fn := some .cmdArm } 0x13 1 0 0,
         .accepted opArm 0 0x13 1 0] := by
    decide +kernel
  have second := sequenced
    [.receive armSafe, .poll, .queueRun 0 0,
     .receive (build opSafe.toNat 2 0 0 ++ build opSafe.toNat 3 0 0), .poll]
  rw [history] at second
  obtain ⟨armOpcode, when, counter, armedUntil, last, arm⟩ :=
    second _ _ _ _ _ _ (List.suffix_refl _) (by decide)
  cases last

end ObcZero
