import ObcZero.CommandSteps
import ObcZero.UplinkCore

/-! Arming and execution: which arm a critical handler that runs goes back to. -/

namespace ObcZero

open StepSystem

def isCritical (table : List ObcCmd) (opcode : U8) : Bool :=
  (lookup table opcode).any fun row => row.critical

def ArmExecuted (opcode : U8) (armed : U32) (history : List CmdEvent) : Prop :=
  ∃ row counter now, .handled row (opcode.setWidth 32) counter now armed ∈ history ∧
    row.fn = some .cmdArm

def ArmedFor (opcode : U8) (frame : U32) (history : List CmdEvent) : Prop :=
  ∃ armed, ArmExecuted opcode armed history ∧ armed.toNat ≤ frame.toNat ∧
    frame.toNat < armed.toNat + obcCmdArmFrames.toNat

def CriticalsArmed (history : List CmdEvent) : Prop :=
  ∀ row arg counter now frame earlier,
    .handled row arg counter now frame :: earlier <:+ history → row.critical = true →
      ArmedFor row.opcode frame earlier

/-- The expiry of the arm in force when the frame with this counter was accepted. -/
def acceptedUnder : List CmdEvent → U32 → Option U32
  | [], _ => none
  | .accepted _ _ _ counter armedUntil :: earlier, wanted =>
      if counter = wanted then some armedUntil else acceptedUnder earlier wanted
  | .handled .. :: earlier, wanted => acceptedUnder earlier wanted

def withinArm (frame armedUntil : U32) : Bool :=
  frame.toNat < (armedUntil - obcCmdArmFrames).toNat + obcCmdArmFrames.toNat

def DueInTime (table : List ObcCmd) (now frame : U32) (state : CmdState) : Prop :=
  ∀ index, (state.queue index).occupied = true → (state.queue index).when ≤ now →
    isCritical table (state.queue index).opcode = true →
    (acceptedUnder state.history (state.queue index).counter).all (withinArm frame) = true

/-- No run of the queue finds a critical command due once the arm it was accepted
under has expired. -/
def ExecutesInTime (table : List ObcCmd) : CmdInput → CmdState → Prop
  | .queueRun now frame, state => DueInTime table now frame state
  | _, _ => True

instance (table : List ObcCmd) (now frame : U32) (state : CmdState) :
    Decidable (DueInTime table now frame state) := by
  unfold DueInTime
  infer_instance

instance (table : List ObcCmd) (input : CmdInput) (state : CmdState) :
    Decidable (ExecutesInTime table input state) :=
  match input with
  | .queueRun now frame => inferInstanceAs (Decidable (DueInTime table now frame state))
  | .receive _ => isTrue trivial
  | .ingest _ _ => isTrue trivial
  | .poll => isTrue trivial
  | .queueInit => isTrue trivial

def framesOf (inputs : List CmdInput) : List U32 :=
  inputs.filterMap fun
    | .queueRun _ frame => some frame
    | _ => none

def HandledIn (within : U32 → Prop) (history : List CmdEvent) : Prop :=
  ∀ row arg counter now frame, .handled row arg counter now frame ∈ history → within frame

/-- Behind the arming word and behind every queued critical command there is an
arm that was executed, four frames before the expiry on record. -/
structure ArmingRecorded (table : List ObcCmd) (within : U32 → Prop) (state : CmdState) : Prop where
  clear : state.armTarget = 0
  armed : ∀ opcode : U8, state.armedOpcode = opcode.setWidth 32 →
    ArmExecuted opcode (state.armedUntil - obcCmdArmFrames) state.history
  queued : ∀ index, (state.queue index).occupied = true →
    isCritical table (state.queue index).opcode = true →
    ∃ armedUntil, acceptedUnder state.history (state.queue index).counter = some armedUntil ∧
      ArmExecuted (state.queue index).opcode (armedUntil - obcCmdArmFrames) state.history
  counters : ∀ index, (state.queue index).occupied = true →
    (state.queue index).counter ≤ state.lastCounter
  criticals : CriticalsArmed state.history
  handled : HandledIn within state.history

theorem obcCmdArmNone_ne (opcode : U8) : obcCmdArmNone ≠ opcode.setWidth 32 := by
  intro same
  have values := congrArg BitVec.toNat same
  have bound := opcode.isLt
  simp [obcCmdArmNone] at values
  omega

theorem ArmExecuted.later {opcode : U8} {armed : U32} {history : List CmdEvent}
    (executed : ArmExecuted opcode armed history) (event : CmdEvent) :
    ArmExecuted opcode armed (event :: history) := by
  obtain ⟨row, counter, now, member, isArm⟩ := executed
  exact ⟨row, counter, now, List.mem_cons_of_mem event member, isArm⟩

theorem HandledIn.accepted {within : U32 → Prop} {history : List CmdEvent}
    (handled : HandledIn within history) (opcode : U8) (when arg counter armedUntil : U32) :
    HandledIn within (.accepted opcode when arg counter armedUntil :: history) := by
  intro row held counter now frame member
  rcases List.mem_cons.mp member with newest | older
  · cases newest
  · exact handled row held counter now frame older

theorem HandledIn.handled {within : U32 → Prop} {history : List CmdEvent}
    (earlier : HandledIn within history) (row : ObcCmd) (arg counter now : U32) {frame : U32}
    (allowed : within frame) : HandledIn within (.handled row arg counter now frame :: history) := by
  intro other held otherCounter ran called member
  rcases List.mem_cons.mp member with newest | older
  · cases newest
    exact allowed
  · exact earlier other held otherCounter ran called older

theorem CriticalsArmed.accepted {history : List CmdEvent} (armed : CriticalsArmed history)
    (opcode : U8) (when arg counter armedUntil : U32) :
    CriticalsArmed (.accepted opcode when arg counter armedUntil :: history) := by
  intro row held other now frame earlier suffix critical
  rcases List.suffix_cons_iff.mp suffix with newest | older
  · cases newest
  · exact armed row held other now frame earlier older critical

theorem CriticalsArmed.handled {history : List CmdEvent} (armed : CriticalsArmed history)
    (row : ObcCmd) (arg counter now frame : U32)
    (newestArmed : row.critical = true → ArmedFor row.opcode frame history) :
    CriticalsArmed (.handled row arg counter now frame :: history) := by
  intro other held otherCounter ran called earlier suffix critical
  rcases List.suffix_cons_iff.mp suffix with newest | older
  · cases newest
    exact newestArmed critical
  · exact armed other held otherCounter ran called earlier older critical

theorem isCritical_iff (table : List ObcCmd) (opcode : U8) :
    isCritical table opcode = true ↔
      ∃ row, lookup table opcode = some row ∧ row.critical = true := by
  simp [isCritical, Option.any_eq_true]

section Recorded

variable {table : List ObcCmd} {within : U32 → Prop} {state : CmdState}
  (recorded : ArmingRecorded table within state)

include recorded

theorem ArmingRecorded.congr {after : CmdState} (same : SameArming state after) :
    ArmingRecorded table within after := by
  constructor
  · rw [same.armTarget]
    exact recorded.clear
  · rw [same.armedOpcode, same.armedUntil, same.history]
    exact recorded.armed
  · rw [same.queue, same.history]
    exact recorded.queued
  · rw [same.queue, same.lastCounter]
    exact recorded.counters
  · rw [same.history]
    exact recorded.criticals
  · rw [same.history]
    exact recorded.handled

theorem ArmingRecorded.queueInit : ArmingRecorded table within (obcCmdQueueInit state) := by
  constructor
  · exact recorded.clear
  · intro opcode same
    exact absurd same (obcCmdArmNone_ne opcode)
  · intro index occupied
    simp [obcCmdQueueInit, emptySlot] at occupied
  · intro index occupied
    simp [obcCmdQueueInit, emptySlot] at occupied
  · exact recorded.criticals
  · exact recorded.handled

theorem ArmingRecorded.accepted {frame : Nat → U8} {row : ObcCmd} {index : Fin obcCmdQueueLen}
    (found : lookup table (frameOpcode frame) = some row)
    (admissible : Admissible row frame state)
    (armed : row.critical = true → state.armedOpcode = (frameOpcode frame).setWidth 32) :
    ArmingRecorded table within (acceptedState frame index state) := by
  have fresh := admissible.2.2.1
  constructor
  · exact recorded.clear
  · intro opcode same
    exact (recorded.armed opcode same).later _
  · intro position occupied critical
    by_cases here : position = index
    · subst here
      simp only [acceptedState, Function.update_self] at critical ⊢
      obtain ⟨held, heldFound, heldCritical⟩ := (isCritical_iff _ _).mp critical
      obtain rfl : row = held := Option.some.inj (found.symm.trans heldFound)
      exact ⟨state.armedUntil, by simp [acceptedUnder],
        (recorded.armed _ (armed heldCritical)).later _⟩
    · simp only [acceptedState, Function.update_of_ne here] at occupied critical ⊢
      obtain ⟨armedUntil, under, executed⟩ := recorded.queued position occupied critical
      have older : getU32 frame obcCmdOCounter ≠ (state.queue position).counter := by
        have bound := recorded.counters position occupied
        bv_omega
      exact ⟨armedUntil, by simpa [acceptedUnder, older] using under, executed.later _⟩
  · intro position occupied
    by_cases here : position = index
    · subst here
      simp [acceptedState]
    · simp only [acceptedState, Function.update_of_ne here] at occupied ⊢
      have bound := recorded.counters position occupied
      bv_omega
  · exact recorded.criticals.accepted _ _ _ _ _
  · exact recorded.handled.accepted _ _ _ _ _

theorem ArmingRecorded.expired (frame : U32) :
    ArmingRecorded table within (expireArming frame state) := by
  unfold expireArming
  split
  · constructor
    · exact recorded.clear
    · intro opcode same
      exact absurd same (obcCmdArmNone_ne opcode)
    · exact recorded.queued
    · exact recorded.counters
    · exact recorded.criticals
    · exact recorded.handled
  · exact recorded

end Recorded

theorem ArmingRecorded.weaken {table : List ObcCmd} {within wider : U32 → Prop}
    {state : CmdState} (recorded : ArmingRecorded table within state)
    (widens : ∀ frame, within frame → wider frame) : ArmingRecorded table wider state :=
  { recorded with
    handled := fun row arg counter now frame member =>
      widens frame (recorded.handled row arg counter now frame member) }

structure PassInvariant (table : List ObcCmd) (now frame : U32) (state : CmdState) : Prop where
  recorded : ArmingRecorded table (fun earlier => earlier.toNat ≤ frame.toNat) state
  inTime : DueInTime table now frame state

section Passes

variable {table : List ObcCmd} {now frame : U32} {state : CmdState}

theorem PassInvariant.armedFor (passes : PassInvariant table now frame state)
    {index : Fin obcCmdQueueLen} (occupied : (state.queue index).occupied = true)
    (due : (state.queue index).when ≤ now)
    (critical : isCritical table (state.queue index).opcode = true) :
    ArmedFor (state.queue index).opcode frame state.history := by
  obtain ⟨armedUntil, under, executed⟩ := passes.recorded.queued index occupied critical
  have inTime := passes.inTime index occupied due critical
  rw [under, Option.all_some, withinArm, decide_eq_true_eq] at inTime
  refine ⟨armedUntil - obcCmdArmFrames, executed, ?_, inTime⟩
  obtain ⟨row, counter, ran, member, _⟩ := executed
  exact passes.recorded.handled row _ counter ran _ member

theorem PassInvariant.passed {index : Fin obcCmdQueueLen}
    (occupied : (state.queue index).occupied = true) (due : (state.queue index).when ≤ now)
    (passes : PassInvariant table now frame state) :
    PassInvariant table now frame (runSlot table now frame index state) := by
  have ran := runSlot_slotRun table now frame index passes.recorded.clear
  have recorded := passes.recorded
  have counters (position : Fin obcCmdQueueLen)
      (still : ((runSlot table now frame index state).queue position).occupied = true) :
      ((runSlot table now frame index state).queue position).counter ≤
        (runSlot table now frame index state).lastCounter := by
    have same := ran.kept still
    rw [same] at still ⊢
    rw [ran.lastCounter]
    exact recorded.counters position still
  rcases ran.effect with
    ⟨history, armedOpcode, armedUntil⟩ | ⟨row, fn, found, handler, history, arming⟩
  · refine ⟨⟨ran.clear, ?_, ?_, counters, ?_, ?_⟩, ?_⟩
    · rw [armedOpcode, armedUntil, history]
      exact recorded.armed
    · intro position still
      have same := ran.kept still
      rw [same] at still ⊢
      rw [history]
      exact recorded.queued position still
    · rw [history]
      exact recorded.criticals
    · rw [history]
      exact recorded.handled
    · intro position still
      have same := ran.kept still
      rw [same] at still ⊢
      rw [history]
      exact passes.inTime position still
  · refine ⟨⟨ran.clear, ?_, ?_, counters, ?_, ?_⟩, ?_⟩
    · intro named same
      rw [history]
      rcases arming with ⟨⟨isArm, _⟩, armedOpcode, armedUntil⟩ | ⟨_, armedOpcode, armedUntil⟩
      · have executed : frame + obcCmdArmFrames - obcCmdArmFrames = frame := by simp
        rw [armedUntil, executed]
        refine ⟨row, (state.queue index).counter, now, ?_, by rw [handler, isArm]⟩
        rw [← same, armedOpcode]
        exact List.mem_cons_self
      · rw [armedUntil]
        exact (recorded.armed named (armedOpcode.symm.trans same)).later _
    · intro position still critical
      have same := ran.kept still
      rw [same] at still critical ⊢
      rw [history]
      obtain ⟨armedUntil, under, executed⟩ := recorded.queued position still critical
      exact ⟨armedUntil, under, executed.later _⟩
    · rw [history]
      refine recorded.criticals.handled row _ _ now frame fun critical => ?_
      rw [lookup_opcode found]
      exact passes.armedFor occupied due ((isCritical_iff _ _).mpr ⟨row, found, critical⟩)
    · rw [history]
      exact recorded.handled.handled row _ _ now (Nat.le_refl _)
    · intro position still
      have same := ran.kept still
      rw [same] at still ⊢
      rw [history]
      exact passes.inTime position still

theorem PassInvariant.expired (passes : PassInvariant table now frame state) :
    PassInvariant table now frame (expireArming frame state) := by
  refine ⟨passes.recorded.expired frame, ?_⟩
  have same : (expireArming frame state).queue = state.queue ∧
      (expireArming frame state).history = state.history := by
    unfold expireArming
    split <;> exact ⟨rfl, rfl⟩
  unfold DueInTime
  rw [same.1, same.2]
  exact passes.inTime

end Passes

theorem armingRecorded_rule (table : List ObcCmd) (within : U32 → Prop) :
    ArmingRule table (fun _ _ _ => True) (ArmingRecorded table within) where
  congr := fun recorded same => recorded.congr same
  blind := fun _ _ => trivial
  accepted := fun _ _ found admissible armed recorded => recorded.accepted found admissible armed

def ArmingRun (table : List ObcCmd) (remaining : List CmdInput) (state : CmdState) : Prop :=
  (framesOf remaining).Pairwise (fun earlier later => earlier.toNat ≤ later.toNat) ∧
    ArmingRecorded table
      (fun frame => ∀ later ∈ framesOf remaining, frame.toNat ≤ later.toNat) state

theorem cmdStep_armingRun (table : List ObcCmd) (input : CmdInput) (rest : List CmdInput)
    (state : CmdState) (inTime : ExecutesInTime table input state)
    (before : ArmingRun table (input :: rest) state) :
    ArmingRun table rest (cmdStep table input state) := by
  obtain ⟨ordered, recorded⟩ := before
  have rule := armingRecorded_rule table fun frame =>
    ∀ later ∈ framesOf (input :: rest), frame.toNat ≤ later.toNat
  cases input with
  | receive bytes => exact ⟨ordered, recorded.congr ⟨rfl, rfl, rfl, rfl, rfl, rfl, rfl⟩⟩
  | ingest frame len => exact ⟨ordered, rule.ingested (fun _ _ => trivial) recorded⟩
  | poll =>
      exact ⟨ordered, rule.polled (meets_always (fun _ _ _ => trivial) _ _) recorded⟩
  | queueInit => exact ⟨ordered, recorded.queueInit⟩
  | queueRun now frame =>
      obtain ⟨bounds, orderedRest⟩ := List.pairwise_cons.mp ordered
      refine ⟨orderedRest, ?_⟩
      have start : PassInvariant table now frame state :=
        ⟨recorded.weaken fun earlier within => within frame List.mem_cons_self, inTime⟩
      have ran : PassInvariant table now frame (obcCmdQueueRun table now frame state) :=
        obcCmdQueueRun_invariant (fun _ passes => passes.expired)
          (fun _ _ occupied due passes => passes.passed occupied due) start
      exact ran.recorded.weaken fun earlier upTo later member =>
        Nat.le_trans upTo (bounds later member)

/-- In every run that finds no critical command due after the expiry of the arm it
was accepted under, each critical handler runs on an arm naming its opcode and
executed fewer than `OBC_CMD_ARM_FRAMES` frames before. -/
theorem criticals_run_armed {fields : List ObcCmdField} {table : List ObcCmd} {start : CmdState}
    {inputs : List CmdInput} (ready : obcCmdInit fields table clearedCmd = (.ok, start))
    (ordered : (framesOf inputs).Pairwise fun earlier later => earlier.toNat ≤ later.toNat)
    (inTime : Meets (cmdStep table) (ExecutesInTime table) inputs start) :
    CriticalsArmed (run (cmdStep table) inputs start).history := by
  have begins := obcCmdInit_ok ready
  have initial : ArmingRun table inputs start := by
    refine ⟨ordered, ?_⟩
    rw [begins]
    constructor
    · rfl
    · intro opcode same
      exact absurd same (obcCmdArmNone_ne opcode)
    · intro index occupied
      simp [obcCmdQueueInit, emptySlot] at occupied
    · intro index occupied
      simp [obcCmdQueueInit, emptySlot] at occupied
    · intro row arg counter now frame earlier suffix
      cases List.suffix_nil.mp suffix
    · intro row arg counter now frame member
      cases member
  exact (meets_remaining (cmdStep_armingRun table) inTime initial).2.criticals

def flightCmd : CmdState := (obcCmdInit obcCmdFields obcCmdTable clearedCmd).2

def armSafe : List U8 := build opArm.toNat 1 opSafe.toNat 0

theorem flight_criticals_run_armed :
    CriticalsArmed (run (cmdStep obcCmdTable)
      [.receive armSafe, .poll, .queueRun 0 0, .receive (build opSafe.toNat 2 0 2048), .poll,
       .queueRun 1024 1, .queueRun 2048 2] flightCmd).history := by
  have ready : obcCmdInit obcCmdFields obcCmdTable clearedCmd = (.ok, flightCmd) := rfl
  exact criticals_run_armed ready (by decide) (by decide +kernel)

/-- The safe command is accepted while armed and tagged for a tick six frames on:
nothing looks at the arm again when it runs. -/
theorem critical_runs_unarmed :
    ¬∀ inputs, ((framesOf inputs).Pairwise fun earlier later => earlier.toNat ≤ later.toNat) →
      CriticalsArmed (run (cmdStep obcCmdTable) inputs flightCmd).history := by
  intro armed
  have history : (run (cmdStep obcCmdTable)
      [.receive armSafe, .poll, .queueRun 0 0, .receive (build opSafe.toNat 2 0 6144), .poll,
       .queueRun 1024 1, .queueRun 4096 4, .queueRun 6144 6] flightCmd).history =
        [.handled { name := "safe", opcode := opSafe, critical := true, argMin := 0, argMax := 0,
                    fn := some .cmdSafe } 0 2 6144 6,
         .accepted opSafe 6144 0 2 4,
         .handled { name := "arm", opcode := opArm, critical := false, argMin := 0x10,
                    argMax := 0x13, fn := some .cmdArm } 0x13 1 0 0,
         .accepted opArm 0 0x13 1 0] := by
    decide +kernel
  have ordered := armed
    [.receive armSafe, .poll, .queueRun 0 0, .receive (build opSafe.toNat 2 0 6144), .poll,
     .queueRun 1024 1, .queueRun 4096 4, .queueRun 6144 6] (by decide)
  rw [history] at ordered
  obtain ⟨frame, ⟨row, counter, now, member, isArm⟩, _, inTime⟩ :=
    ordered _ _ _ _ _ _ (List.suffix_refl _) rfl
  simp [obcCmdArmFrames] at member inTime
  obtain ⟨_, _, _, _, rfl⟩ := member
  simp at inTime

end ObcZero
