import ObcZero.SchedSteps
import ObcZero.StepSystem

/-! The induction over runs of the executive. What a run has done is followed by
the position of its dispatch pass: the rows before it are visited, and a position
past the table says that the pass has ended. -/

namespace ObcZero

open StepSystem

/-- `holds` of the row about to be visited, the only inputs the conditions on
overruns speak of. -/
def AtVisit (table : List ObcTask) (holds : ObcTask → Nat → Turn → ExecState → Prop) :
    ExecInput → ExecState → Prop
  | .turn turn, state =>
      match state.phase with
      | .visit index =>
          match table[index]? with
          | some row => holds row index turn state
          | none => True
      | _ => True
  | .corrupt _ _, _ => True

instance (table : List ObcTask) (holds : ObcTask → Nat → Turn → ExecState → Prop)
    [∀ row index turn state, Decidable (holds row index turn state)] (input : ExecInput)
    (state : ExecState) : Decidable (AtVisit table holds input state) := by
  cases input with
  | corrupt index copy => exact isTrue trivial
  | turn turn =>
      unfold AtVisit
      dsimp only
      split
      · split
        · infer_instance
        · infer_instance
      · infer_instance

theorem AtVisit.row {table : List ObcTask}
    {holds : ObcTask → Nat → Turn → ExecState → Prop} {turn : Turn} {state : ExecState}
    (allowed : AtVisit table holds (.turn turn) state) {index : Nat} {row : ObcTask}
    (phase : state.phase = .visit index) (found : table[index]? = some row) :
    holds row index turn state := by
  simpa only [AtVisit, phase, found] using allowed

structure Running (table : List ObcTask) (state : ExecState) : Prop where
  rows : 0 < table.length
  limit : table.length ≤ obcMaxTasks
  within : state.frame < state.frames

def Tracks (table : List ObcTask) (holds : Nat → ExecState → Prop) (final : ExecState → Prop)
    (state : ExecState) : Prop :=
  match state.phase with
  | .start => state.frame = 0 ∧ holds 0 state
  | .visit index => Running table state ∧ index < table.length ∧ holds index state
  | .endPass => Running table state ∧ holds table.length state
  | .idle _ => Running table state ∧ holds (table.length + 1) state
  | .returned _ => final state
  | .reset => final state

/-- What has to be shown of each loop body for `holds` to follow every run whose
inputs are `allowed`, and for `final` to be left where a run ends. -/
structure Followed (table : List ObcTask) (allowed : ExecInput → ExecState → Prop)
    (holds : Nat → ExecState → Prop) (final : ExecState → Prop) : Prop where
  rephased : ∀ {position phase state}, holds position state →
    holds position { state with phase := phase }
  corrupted : ∀ {position index copy state}, allowed (.corrupt index copy) state →
    holds position state → holds position (execStep table (.corrupt index copy) state)
  finalCorrupted : ∀ {index copy state}, final state →
    final (execStep table (.corrupt index copy) state)
  started : ∀ {turn state after}, allowed (.turn turn) state → state.phase = .start →
    state.frame = 0 → holds 0 state → LadderKept state after → Started table state after →
    (after.phase = .visit 0 → holds 0 after) ∧
      (∀ status, after.phase = .returned status → final after)
  visited : ∀ {turn state after index row}, allowed (.turn turn) state →
    state.phase = .visit index → table[index]? = some row → Running table state →
    holds index state → Visit row index turn state after →
    holds (index + 1) after ∧ (after.phase = .reset → final after)
  ended : ∀ {turn state after}, allowed (.turn turn) state → state.phase = .endPass →
    Running table state → holds table.length state →
    LadderKept state after → after.frame = state.frame → PassEnded table state after →
    (after.phase = .idle 0 → holds (table.length + 1) after) ∧
      (∀ status, after.phase = .returned status → final after)
  idled : ∀ {turn state after guard}, allowed (.turn turn) state → state.phase = .idle guard →
    Running table state → holds (table.length + 1) state → LadderKept state after → Idled state after →
    (after.phase = .visit 0 → holds 0 after) ∧
      (∀ status, after.phase = .returned status → final after)

section

variable {table : List ObcTask} {allowed : ExecInput → ExecState → Prop}
  {holds : Nat → ExecState → Prop} {final : ExecState → Prop}

theorem Visit.frame_eq {row : ObcTask} {index : Nat} {turn : Turn} {state after : ExecState}
    (visit : Visit row index turn state after) : after.frame = state.frame := by
  cases visit <;> rfl

theorem Visit.frames_eq {row : ObcTask} {index : Nat} {turn : Turn} {state after : ExecState}
    (visit : Visit row index turn state after) : after.frames = state.frames := by
  cases visit <;> rfl

theorem toNat_succ_frame {frame frames : U32} (within : frame < frames) :
    (frame + 1).toNat = frame.toNat + 1 := by
  bv_omega

theorem Followed.step (followed : Followed table allowed holds final) {input : ExecInput}
    {state : ExecState} (permitted : allowed input state)
    (tracks : Tracks table holds final state) :
    Tracks table holds final (execStep table input state) := by
  cases input with
  | corrupt index copy =>
      have struck : (execStep table (.corrupt index copy) state).phase = state.phase := rfl
      cases phase : state.phase <;> rw [phase] at struck <;> simp only [Tracks, phase, struck] at tracks ⊢
      · exact ⟨tracks.1, followed.corrupted permitted tracks.2⟩
      · exact ⟨⟨tracks.1.rows, tracks.1.limit, tracks.1.within⟩, tracks.2.1,
          followed.corrupted permitted tracks.2.2⟩
      · exact ⟨⟨tracks.1.rows, tracks.1.limit, tracks.1.within⟩,
          followed.corrupted permitted tracks.2⟩
      · exact ⟨⟨tracks.1.rows, tracks.1.limit, tracks.1.within⟩,
          followed.corrupted permitted tracks.2⟩
      · exact followed.finalCorrupted tracks
      · exact followed.finalCorrupted tracks
  | turn turn =>
      cases phase : state.phase with
      | start =>
          simp only [Tracks, phase] at tracks
          obtain ⟨frame, held⟩ := tracks
          obtain ⟨ladder, started⟩ := startWindow_started table turn state
          obtain ⟨goes, stops⟩ := followed.started permitted phase frame held ladder started
          simp only [execStep, execTurn, phase]
          cases started with
          | stopped status ended _ _ =>
              simp only [Tracks, ended]
              exact stops status ended
          | begun begins rows limit within frame _ _ _ _ _ =>
              simp only [Tracks, begins]
              have inside : (startWindow table turn state).frame <
                  (startWindow table turn state).frames := by
                rw [frame, ladder.frames]
                exact within
              exact ⟨⟨rows, limit, inside⟩, rows, goes begins⟩
      | visit index =>
          simp only [Tracks, phase] at tracks
          obtain ⟨running, inside, held⟩ := tracks
          simp only [execStep, execTurn, phase]
          cases visitStep_visited table index turn state with
          | past beyond _ => exact absurd inside (Nat.not_lt.mpr beyond)
          | reset row found visit ended =>
              have visited := followed.visited permitted phase found running held visit
              simp only [Tracks, ended]
              exact visited.2 ended
          | went row found visited visit passed =>
              have carried := followed.visited permitted phase found running held visit
              have within : visited.frame < visited.frames := by
                rw [visit.frame_eq, visit.frames_eq]
                exact running.within
              by_cases more : index + 1 < table.length
              · rw [if_pos more] at passed
                rw [passed]
                exact ⟨⟨running.rows, running.limit, within⟩, more,
                  followed.rephased carried.1⟩
              · have last : index + 1 = table.length := by omega
                rw [if_neg more] at passed
                rw [passed]
                refine ⟨⟨running.rows, running.limit, within⟩, ?_⟩
                rw [← last]
                exact followed.rephased carried.1
      | endPass =>
          simp only [Tracks, phase] at tracks
          obtain ⟨running, held⟩ := tracks
          obtain ⟨ladder, frame, ended⟩ := endPassStep_ended table turn state
          obtain ⟨goes, stops⟩ := followed.ended permitted phase running held ladder frame ended
          have inside : (endPassStep table turn state).frame <
              (endPassStep table turn state).frames := by
            rw [frame, ladder.frames]
            exact running.within
          simp only [execStep, execTurn, phase]
          cases ended with
          | stopped status _ stop _ =>
              simp only [Tracks, stop]
              exact stops status stop
          | kept idle _ _ _ =>
              simp only [Tracks, idle]
              exact ⟨⟨running.rows, running.limit, inside⟩, goes idle⟩
          | degraded idle _ _ _ _ =>
              simp only [Tracks, idle]
              exact ⟨⟨running.rows, running.limit, inside⟩, goes idle⟩
      | idle guard =>
          simp only [Tracks, phase] at tracks
          obtain ⟨running, held⟩ := tracks
          obtain ⟨ladder, idled⟩ := idleStep_idled guard turn state
          obtain ⟨goes, stops⟩ := followed.idled permitted phase running held ladder idled
          simp only [execStep, execTurn, phase]
          cases idled with
          | stopped status _ stop _ =>
              simp only [Tracks, stop]
              exact stops status stop
          | waits next waited =>
              rw [waited]
              exact ⟨⟨running.rows, running.limit, running.within⟩, followed.rephased held⟩
          | entered enters within frame _ _ _ _ _ =>
              simp only [Tracks, enters]
              have inside : (idleStep guard turn state).frame <
                  (idleStep guard turn state).frames := by
                rw [frame, ladder.frames]
                exact within
              exact ⟨⟨running.rows, running.limit, inside⟩, running.rows, goes enters⟩
          | finished stop _ _ _ =>
              simp only [Tracks, stop]
              exact stops .ok stop
      | returned status =>
          simpa only [execStep, execTurn, phase] using tracks
      | reset =>
          simpa only [execStep, execTurn, phase] using tracks

theorem Tracks.conclude {state : ExecState} (tracks : Tracks table holds final state)
    (enough : ∀ {position}, holds position state → final state) : final state := by
  cases phase : state.phase <;> simp only [Tracks, phase] at tracks
  · exact enough tracks.2
  · exact enough tracks.2.2
  · exact enough tracks.2
  · exact enough tracks.2
  · exact tracks
  · exact tracks

theorem Followed.run (followed : Followed table allowed holds final) {frames : U32}
    {mode : ModeState} {boot : ObcBootRecord} {inputs : List ExecInput}
    (meets : Meets (execStep table) allowed inputs (freshExec frames mode boot))
    (initial : holds 0 (freshExec frames mode boot)) :
    Tracks table holds final (run (execStep table) inputs (freshExec frames mode boot)) :=
  meets_invariant (fun _ _ permitted tracks => followed.step permitted tracks) meets
    ⟨rfl, initial⟩

end

def ExecEvent.remark : ExecEvent → Bool
  | .visited _ _ _ _ _ => false
  | .feedHardware _ => false
  | .endOfPass _ => false
  | _ => true

theorem mem_remarks {marks log : List ExecEvent} {event : ExecEvent}
    (silent : ∀ mark ∈ marks, mark.remark = true) (telling : event.remark = false) :
    event ∈ marks ++ log ↔ event ∈ log := by
  have absent : event ∉ marks := by
    intro member
    rw [silent event member] at telling
    cases telling
  simp [absent]

theorem count_remarks {marks log : List ExecEvent} {event : ExecEvent}
    (silent : ∀ mark ∈ marks, mark.remark = true) (telling : event.remark = false) :
    (marks ++ log).count event = log.count event := by
  have absent : event ∉ marks := by
    intro member
    rw [silent event member] at telling
    cases telling
  rw [List.count_append, List.count_eq_zero.mpr absent, Nat.zero_add]

def punctualTurn (now : U64) (used : U32) : ExecInput :=
  .turn { clock := .ok, now := now, used := used, votes := 0 }

/-- The turns of one frame of a clock that is never late, given what each row's
task spends if it is dispatched. -/
def punctualFrame (used : List U32) (frame : Nat) : List ExecInput :=
  used.map (punctualTurn (obcSchedFrameTicks * BitVec.ofNat 64 frame)) ++
    [punctualTurn (obcSchedFrameTicks * BitVec.ofNat 64 frame) 0,
     punctualTurn (obcSchedFrameTicks * BitVec.ofNat 64 (frame + 1)) 0]

def punctualRun (frames : List (List U32)) : List ExecInput :=
  punctualTurn 0 0 :: frames.zipIdx.flatMap fun (used, frame) => punctualFrame used frame

def coldBootRecord : ObcBootRecord := { magic := 0, checksum := 0, shortBoots := 0, inProgress := 0 }

def coldExec (frames : U32) : ExecState :=
  freshExec frames (executiveState uneventfulBoot coldMode) coldBootRecord

def trappedExec (frames : U32) : ExecState :=
  freshExec frames (executiveState { uneventfulBoot with previousResetCause := obcResetTrap }
    coldMode) coldBootRecord

end ObcZero
