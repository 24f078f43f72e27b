import ObcZero.SchedRun

/-! The one live suspension and the log that announces suspensions. As long as a
first overrun is logged exactly and overwrites no suspension still to come, the
announcements still to come are the live suspension and nothing else. -/

namespace ObcZero

def Ahead (position : Nat) (state : ExecState) (frame task : Nat) : Prop :=
  state.frame.toNat < frame ∨ (state.frame.toNat = frame ∧ position ≤ task)

instance (position : Nat) (state : ExecState) (frame task : Nat) :
    Decidable (Ahead position state frame task) := inferInstanceAs (Decidable (_ ∨ _))

def Announced (suspensions : List ObcSuspension) (frame task : Nat) : Prop :=
  ∃ entry ∈ suspensions, entry.rung = obcRungSuspendTask.setWidth 8 ∧
    entry.frame.toNat = frame ∧ entry.task.toNat = task

theorem announced_logged_suspendTask {suspensions : List ObcSuspension} {index : Nat}
    (room : suspensions.length < obcSuspendLogLen) (narrow : index < 2 ^ 8) (next : U32)
    (frame task : Nat) :
    Announced (logged index next obcRungSuspendTask suspensions) frame task ↔
      Announced suspensions frame task ∨ (next.toNat % 2 ^ 8 = frame ∧ index = task) := by
  have word : (BitVec.ofNat 8 index).toNat = index := by
    rw [BitVec.toNat_ofNat, Nat.mod_eq_of_lt narrow]
  rw [logged, if_neg (Nat.not_le.mpr room)]
  simp only [Announced, List.mem_append, List.mem_singleton, or_and_right, exists_or,
    exists_eq_left, word, BitVec.toNat_setWidth, true_and]

theorem announced_logged_resetSubsystem (suspensions : List ObcSuspension) (index : Nat)
    (current : U32) (frame task : Nat) :
    Announced (logged index current obcRungResetSubsystem suspensions) frame task ↔
      Announced suspensions frame task := by
  rw [logged]
  split
  · rfl
  · simp [Announced, or_and_right, exists_or, obcRungResetSubsystem, obcRungSuspendTask]

theorem obcRecoverIsSuspended_iff {index : Nat} (narrow : index < 2 ^ 32) (frame : U32)
    (state : ExecState) :
    obcRecoverIsSuspended index frame state = true ↔
      state.suspendedTask.toNat = index ∧ state.suspendedFrame = frame := by
  have word : (BitVec.ofNat 32 index).toNat = index := by
    rw [BitVec.toNat_ofNat, Nat.mod_eq_of_lt narrow]
  simp only [obcRecoverIsSuspended, Bool.and_eq_true, beq_iff_eq]
  constructor
  · rintro ⟨task, frame⟩
    rw [task]
    exact ⟨word, frame⟩
  · rintro ⟨task, rfl⟩
    exact ⟨BitVec.eq_of_toNat_eq (task.trans word.symm), rfl⟩

structure SlotLogged (table : List ObcTask) (position : Nat) (state : ExecState) : Prop where
  inTable : ∀ frame task, Announced state.suspensions frame task → task < table.length
  slotInTable : state.suspendedFrame < state.frames → state.suspendedTask.toNat < table.length
  live : ∀ frame task, Announced state.suspensions frame task → frame < state.frames.toNat →
    Ahead position state frame task →
    state.suspendedTask.toNat = task ∧ state.suspendedFrame.toNat = frame ∧
      ∀ row, table[task]? = some row → Due row state.suspendedFrame
  announced : state.suspendedFrame < state.frames →
    Ahead position state state.suspendedFrame.toNat state.suspendedTask.toNat →
    Announced state.suspensions state.suspendedFrame.toNat state.suspendedTask.toNat

theorem slotLogged_fresh (table : List ObcTask) (frames : U32) (mode : ModeState)
    (boot : ObcBootRecord) : SlotLogged table 0 (freshExec frames mode boot) := by
  have never : ¬(freshExec frames mode boot).suspendedFrame < frames := by
    change ¬(0xFFFFFFFF : U32) < frames
    bv_omega
  constructor
  · rintro frame task ⟨entry, member, _⟩
    cases member
  · exact fun inside => absurd inside never
  · rintro frame task ⟨entry, member, _⟩
    cases member
  · exact fun inside => absurd inside never

theorem SlotLogged.advance {table : List ObcTask} {position next : Nat}
    {state after : ExecState} (held : SlotLogged table position state)
    (suspensions : ∀ frame task,
      Announced after.suspensions frame task ↔ Announced state.suspensions frame task)
    (slotTask : after.suspendedTask = state.suspendedTask)
    (slotFrame : after.suspendedFrame = state.suspendedFrame)
    (frames : after.frames = state.frames)
    (later : ∀ frame task, task < table.length → Ahead next after frame task →
      Ahead position state frame task) : SlotLogged table next after := by
  constructor
  · intro frame task entry
    exact held.inTable frame task ((suspensions frame task).mp entry)
  · rw [slotTask, slotFrame, frames]
    exact held.slotInTable
  · intro frame task entry inside ahead
    rw [slotTask, slotFrame]
    rw [frames] at inside
    have before := (suspensions frame task).mp entry
    exact held.live frame task before inside
      (later frame task (held.inTable frame task before) ahead)
  · intro inside ahead
    rw [slotFrame, frames] at inside
    rw [slotTask, slotFrame] at ahead ⊢
    rw [suspensions]
    exact held.announced inside (later _ _ (held.slotInTable inside) ahead)

/-- The log has room, the entry names the frame that will be withheld, and no
suspension still to come is overwritten. -/
def AnnouncesExactly (row : ObcTask) (index : Nat) (state : ExecState) : Prop :=
  let next := state.frame.toNat + row.periodFrames.toNat
  state.suspensions.length < obcSuspendLogLen ∧
    (next < 2 ^ 8 ∨ (state.frames.toNat ≤ next ∧ state.frames.toNat ≤ next % 2 ^ 8)) ∧
    ¬(state.suspendedFrame < state.frames ∧
      Ahead index state state.suspendedFrame.toNat state.suspendedTask.toNat)

instance (row : ObcTask) (index : Nat) (state : ExecState) :
    Decidable (AnnouncesExactly row index state) := inferInstanceAs (Decidable (_ ∧ _ ∧ _))

theorem nextDue_toNat {row : ObcTask} {frame : U32} (due : Due row frame) :
    (nextDue row frame).toNat = (frame.toNat + row.periodFrames.toNat) % 2 ^ 32 := by
  rw [nextDue, if_neg due.1, BitVec.toNat_add]

theorem due_nextDue {row : ObcTask} {frame : U32} (due : Due row frame)
    (narrow : frame.toNat + row.periodFrames.toNat < 2 ^ 32) : Due row (nextDue row frame) := by
  refine ⟨due.1, ?_⟩
  have multiple : frame.toNat % row.periodFrames.toNat = 0 := by
    simpa using congrArg BitVec.toNat due.2
  apply BitVec.eq_of_toNat_eq
  rw [BitVec.toNat_umod, nextDue_toNat due, Nat.mod_eq_of_lt narrow, Nat.add_mod_right, multiple]
  rfl

theorem AnnouncesExactly.fresh {row : ObcTask} {index : Nat} {state : ExecState}
    (exact : AnnouncesExactly row index state) (due : Due row state.frame)
    (narrow : index < 2 ^ 8) (within : state.frame < state.frames) {frame task : Nat}
    (announced : Announced
      (logged index (nextDue row state.frame) obcRungSuspendTask state.suspensions) frame task) :
    Announced state.suspensions frame task ∨ state.frame.toNat < frame := by
  obtain ⟨room, faithful, _⟩ := exact
  rcases (announced_logged_suspendTask room narrow _ frame task).mp announced with
    old | ⟨named, _⟩
  · exact .inl old
  · right
    have next := nextDue_toNat due
    have small : state.frame.toNat < state.frames.toNat := within
    have period : 0 < row.periodFrames.toNat := by
      have nonzero := due.1
      bv_omega
    omega

theorem Ahead.mono {position next : Nat} {state after : ExecState}
    (frame : after.frame = state.frame) (onward : position ≤ next) {other task : Nat}
    (ahead : Ahead next after other task) : Ahead position state other task := by
  unfold Ahead at ahead ⊢
  rw [frame] at ahead
  omega

theorem SlotLogged.suspends {table : List ObcTask} {index : Nat} {row : ObcTask}
    {state after : ExecState} (held : SlotLogged table index state)
    (found : table[index]? = some row) (limit : table.length ≤ obcMaxTasks)
    (within : state.frame < state.frames) (due : Due row state.frame)
    (exact : AnnouncesExactly row index state)
    (suspensions : after.suspensions =
      logged index (nextDue row state.frame) obcRungSuspendTask state.suspensions)
    (slotTask : after.suspendedTask = BitVec.ofNat 32 index)
    (slotFrame : after.suspendedFrame = nextDue row state.frame)
    (frames : after.frames = state.frames) (frame : after.frame = state.frame) :
    SlotLogged table (index + 1) after := by
  obtain ⟨room, faithful, free⟩ := exact
  obtain ⟨inside, _⟩ := List.getElem?_eq_some_iff.mp found
  have narrow : index < 8 := Nat.lt_of_lt_of_le inside limit
  have task : after.suspendedTask.toNat = index := by
    rw [slotTask, BitVec.toNat_ofNat]
    omega
  have entries (other named : Nat) : Announced after.suspensions other named ↔
      Announced state.suspensions other named ∨
        ((nextDue row state.frame).toNat % 2 ^ 8 = other ∧ index = named) := by
    rw [suspensions]
    exact announced_logged_suspendTask room (by omega) _ other named
  have nextNat := nextDue_toNat due
  have small : state.frame.toNat < state.frames.toNat := within
  have wide := state.frames.isLt
  have period : 0 < row.periodFrames.toNat := by
    have nonzero := due.1
    bv_omega
  have periodWide := row.periodFrames.isLt
  constructor
  · intro other named entry
    rcases (entries other named).mp entry with old | ⟨_, rfl⟩
    · exact held.inTable other named old
    · exact inside
  · intro _
    rw [task]
    exact inside
  · intro other named entry bounded ahead
    rw [frames] at bounded
    rcases (entries other named).mp entry with old | ⟨rfl, rfl⟩
    · -- an older announcement still to come would be a live suspension overwritten here
      obtain ⟨sameTask, sameFrame, _⟩ := held.live other named old bounded (ahead.mono frame (Nat.le_succ index))
      refine absurd ⟨?_, ?_⟩ free
      · rw [BitVec.lt_def, sameFrame]
        exact bounded
      · rw [sameTask, sameFrame]
        exact ahead.mono frame (Nat.le_succ index)
    · have exactly : state.frame.toNat + row.periodFrames.toNat < 2 ^ 8 := by omega
      refine ⟨task, ?_, ?_⟩
      · rw [slotFrame]
        omega
      · intro other namedRow
        rw [found] at namedRow
        cases namedRow
        rw [slotFrame]
        exact due_nextDue due (by omega)
  · intro bounded ahead
    rw [BitVec.lt_def, slotFrame, frames] at bounded
    rw [task, slotFrame] at ahead ⊢
    rw [entries]
    right
    refine ⟨?_, rfl⟩
    unfold Ahead at ahead
    rw [frame] at ahead
    omega

theorem SlotLogged.visit {table : List ObcTask} {index : Nat} {row : ObcTask} {turn : Turn}
    {state after : ExecState} (held : SlotLogged table index state)
    (found : table[index]? = some row) (limit : table.length ≤ obcMaxTasks)
    (within : state.frame < state.frames)
    (exact : Overruns row index turn state obcRungSuspendTask → AnnouncesExactly row index state)
    (visit : Visit row index turn state after) : SlotLogged table (index + 1) after := by
  cases visit with
  | suspends mode kept taskState traceOverflow suspensionOverflow overruns =>
      exact held.suspends found limit within overruns.1.1 (exact overruns) rfl rfl rfl rfl rfl
  | resetsSubsystem mode kept taskState traceOverflow suspensionOverflow overruns =>
      exact held.advance (announced_logged_resetSubsystem state.suspensions index state.frame)
        rfl rfl rfl fun _ _ _ ahead => ahead.mono rfl (Nat.le_succ index)
  | _ =>
      exact held.advance (fun _ _ => Iff.rfl) rfl rfl rfl
        fun _ _ _ ahead => ahead.mono rfl (Nat.le_succ index)

theorem ahead_position (position : Nat) (state : ExecState) :
    Ahead position state state.frame.toNat position := .inr ⟨rfl, Nat.le_refl _⟩

theorem SlotLogged.announced_iff {table : List ObcTask} {index : Nat} {row : ObcTask}
    {state : ExecState} (held : SlotLogged table index state)
    (limit : table.length ≤ obcMaxTasks) (within : state.frame < state.frames)
    (found : table[index]? = some row) :
    Announced state.suspensions state.frame.toNat index ↔
      obcRecoverIsSuspended index state.frame state = true := by
  obtain ⟨inside, _⟩ := List.getElem?_eq_some_iff.mp found
  have narrow : index < 8 := Nat.lt_of_lt_of_le inside limit
  rw [obcRecoverIsSuspended_iff (by omega)]
  constructor
  · intro announced
    obtain ⟨task, frame, _⟩ := held.live _ _ announced within (ahead_position index state)
    exact ⟨task, BitVec.eq_of_toNat_eq frame⟩
  · rintro ⟨task, frame⟩
    have announced := held.announced (by rw [frame]; exact within)
      (by rw [frame, task]; exact ahead_position index state)
    rw [frame, task] at announced
    exact announced

theorem SlotLogged.due_of_announced {table : List ObcTask} {index : Nat} {row : ObcTask}
    {state : ExecState} (held : SlotLogged table index state)
    (within : state.frame < state.frames) (found : table[index]? = some row)
    (announced : Announced state.suspensions state.frame.toNat index) :
    Due row state.frame := by
  obtain ⟨_, frame, due⟩ := held.live _ _ announced within (ahead_position index state)
  rw [← BitVec.eq_of_toNat_eq frame]
  exact due row found

theorem SlotLogged.kept {table : List ObcTask} {position next : Nat}
    {state after : ExecState} (held : SlotLogged table position state)
    (ladder : LadderKept state after) (frame : after.frame = state.frame)
    (onward : position ≤ next) : SlotLogged table next after :=
  held.advance (fun _ _ => by rw [ladder.suspensions]) ladder.suspendedTask
    ladder.suspendedFrame ladder.frames fun _ _ _ ahead => ahead.mono frame onward

theorem SlotLogged.nextFrame {table : List ObcTask} {position : Nat} {state after : ExecState}
    (held : SlotLogged table position state) (ladder : LadderKept state after)
    (within : state.frame < state.frames) (frame : after.frame = state.frame + 1) :
    SlotLogged table 0 after := by
  refine held.advance (fun _ _ => by rw [ladder.suspensions]) ladder.suspendedTask
    ladder.suspendedFrame ladder.frames fun other task _ ahead => ?_
  have succ := toNat_succ_frame within
  unfold Ahead at ahead ⊢
  rw [frame] at ahead
  omega

end ObcZero
