import ObcZero.SuspensionSlot
import ObcZero.TraceCheckCore

/-! The dispatch trace against the sequence the host expects of the dump of the
same run: the executive and the checker kept in step, visit by visit. -/

namespace ObcZero

open StepSystem

def expectedUpTo (dump : Dump) (frame position : Nat) : List Nat :=
  (List.range frame).flatMap (expectedInFrame dump dump.tasks) ++
    expectedInFrame dump (dump.tasks.take position) frame

theorem dumpTasks_getElem? (table : List ObcTask) (index : Nat) :
    (dumpTasks table)[index]? = table[index]?.map fun row => dumpTask row index := by
  simp only [dumpTasks, List.getElem?_map, List.getElem?_zipIdx, Option.map_map, Nat.zero_add]
  rfl

theorem dumpTasks_length (table : List ObcTask) : (dumpTasks table).length = table.length := by
  simp [dumpTasks]

theorem expectedUpTo_succ {table : List ObcTask} {dump : Dump} (tasks : dump.tasks = dumpTasks table)
    {index : Nat} {row : ObcTask} (found : table[index]? = some row) (frame : Nat) :
    expectedUpTo dump frame (index + 1) = expectedUpTo dump frame index ++
      if expects dump frame (dumpTask row index) then [index] else [] := by
  have here : dump.tasks[index]? = some (dumpTask row index) := by
    rw [tasks, dumpTasks_getElem?, found, Option.map_some]
  simp only [expectedUpTo, expectedInFrame, List.take_add_one, here, Option.toList_some,
    List.filter_append, List.map_append, List.append_assoc, List.filter_cons, List.filter_nil]
  split
  · rfl
  · rfl

theorem expectedUpTo_nextFrame (dump : Dump) (frame position : Nat)
    (passed : dump.tasks.length ≤ position) :
    expectedUpTo dump (frame + 1) 0 = expectedUpTo dump frame position := by
  simp [expectedUpTo, expectedInFrame, List.range_succ, List.take_of_length_le passed]

theorem length_expectedUpTo_le (dump : Dump) (frame position : Nat) :
    (expectedUpTo dump frame position).length ≤ frame * dump.tasks.length + position := by
  have inFrame (tasks : List DumpTask) (other : Nat) :
      (expectedInFrame dump tasks other).length ≤ tasks.length := by
    rw [expectedInFrame, List.length_map]
    exact List.length_filter_le _ _
  have earlier : ((List.range frame).flatMap (expectedInFrame dump dump.tasks)).length ≤
      frame * dump.tasks.length := by
    induction frame with
    | zero => simp
    | succ frame ih =>
        have last := inFrame dump.tasks frame
        simp only [List.range_succ, List.flatMap_append, List.flatMap_singleton,
          List.length_append, Nat.succ_mul]
        omega
  have current := inFrame (dump.tasks.take position) frame
  rw [List.length_take] at current
  rw [expectedUpTo, List.length_append]
  omega

/-- Two dumps of one table that agree on every row already visited lead the
checker to the same sequence so far. -/
theorem expectedUpTo_congr {table : List ObcTask} {first second : Dump}
    (firstTasks : first.tasks = dumpTasks table) (secondTasks : second.tasks = dumpTasks table)
    {frame position : Nat}
    (agree : ∀ other index row, table[index]? = some row →
      (other < frame ∨ (other = frame ∧ index < position)) →
      expects first other (dumpTask row index) = expects second other (dumpTask row index)) :
    expectedUpTo first frame position = expectedUpTo second frame position := by
  have rows (index : Nat) (task : DumpTask) (at' : (dumpTasks table)[index]? = some task) :
      ∃ row, table[index]? = some row ∧ task = dumpTask row index := by
    rw [dumpTasks_getElem?, Option.map_eq_some_iff] at at'
    obtain ⟨row, found, same⟩ := at'
    exact ⟨row, found, same.symm⟩
  have inFrame (tasks : List DumpTask) (other : Nat)
      (same : ∀ task ∈ tasks, expects first other task = expects second other task) :
      expectedInFrame first tasks other = expectedInFrame second tasks other := by
    rw [expectedInFrame, expectedInFrame, List.filter_congr same]
  rw [expectedUpTo, expectedUpTo, firstTasks, secondTasks]
  congr 1
  · refine List.flatMap_congr fun other inside => inFrame _ other fun task member => ?_
    obtain ⟨index, found⟩ := List.mem_iff_getElem?.mp member
    obtain ⟨row, inTable, rfl⟩ := rows index task found
    exact agree other index row inTable (.inl (List.mem_range.mp inside))
  · refine inFrame _ frame fun task member => ?_
    obtain ⟨index, found⟩ := List.mem_iff_getElem?.mp member
    rw [List.getElem?_take] at found
    split at found
    · rename_i before
      obtain ⟨row, inTable, rfl⟩ := rows index task found
      exact agree frame index row inTable (.inr ⟨rfl, before⟩)
    · cases found

theorem expectedTrace_eq (dump : Dump) {frame position : Nat}
    (window : dump.windowFrames = frame + 1) (passed : dump.tasks.length ≤ position) :
    expectedTrace dump = expectedUpTo dump frame position := by
  rw [← expectedUpTo_nextFrame dump frame position passed, expectedTrace, window]
  simp [expectedUpTo, expectedInFrame]

def Expected (row : ObcTask) (index frame : Nat) (state : ExecState) : Prop :=
  (row.periodFrames.toNat ≠ 0 ∧ frame % row.periodFrames.toNat = 0) ∧
    (state.safeEntryFrame ≠ obcSafeEntryNone → state.safeEntryFrame.toNat < frame →
      row.essential = true) ∧
    ¬∃ entry ∈ state.suspensions, entry.frame.toNat = frame ∧ entry.task.toNat = index

theorem expects_eq_true_iff (dump : Dump) (frame : Nat) (task : DumpTask) :
    expects dump frame task = true ↔
      task.periodFrames ≠ 0 ∧
        ¬((dump.safeEntryFrame ≠ safeEntryNone ∧ frame > dump.safeEntryFrame) ∧
          (!task.essential) = true) ∧
        frame % task.periodFrames = 0 ∧ (frame, task.index) ∉ withheld dump := by
  unfold expects
  dsimp only
  by_cases period : task.periodFrames = 0
  · simp [period]
  rw [if_neg period]
  split
  · rename_i degraded
    simp [degraded]
  rename_i kept
  by_cases due : frame % task.periodFrames = 0
  · rw [if_neg (by simp [due])]
    by_cases listed : (frame, task.index) ∈ withheld dump
    · simp [listed]
    · rw [if_neg listed]
      exact iff_of_true rfl ⟨period, kept, due, listed⟩
  · simp [due]

theorem expects_iff (table : List ObcTask) (row : ObcTask) (index frame : Nat)
    (state : ExecState) :
    expects (dumpOf table state) frame (dumpTask row index) = true ↔
      Expected row index frame state := by
  have entry : (dumpOf table state).safeEntryFrame = safeEntryNone ↔
      state.safeEntryFrame = obcSafeEntryNone := by
    constructor
    · exact fun same => BitVec.eq_of_toNat_eq same
    · intro same
      simp [dumpOf, same, obcSafeEntryNone, safeEntryNone]
  have listed : (frame, index) ∈ withheld (dumpOf table state) ↔
      ∃ entry ∈ state.suspensions, entry.frame.toNat = frame ∧ entry.task.toNat = index := by
    simp [withheld, dumpOf]
  have degraded : ¬(((dumpOf table state).safeEntryFrame ≠ safeEntryNone ∧
      frame > (dumpOf table state).safeEntryFrame) ∧ (!row.essential) = true) ↔
      (state.safeEntryFrame ≠ obcSafeEntryNone → state.safeEntryFrame.toNat < frame →
        row.essential = true) := by
    rw [ne_eq, entry]
    simp [dumpOf]
  rw [expects_eq_true_iff, Expected, ← listed, ← degraded]
  constructor
  · rintro ⟨period, kept, due, unlisted⟩
    exact ⟨⟨period, due⟩, kept, unlisted⟩
  · rintro ⟨⟨period, due⟩, kept, unlisted⟩
    exact ⟨period, kept, due, unlisted⟩

def HarmlessFrom (table : List ObcTask) (position : Nat) (state : ExecState) : Prop :=
  ∀ entry ∈ table.zipIdx, entry.1.essential = false → ∀ frame, frame < state.frames.toNat →
    Ahead position state frame entry.2 →
    ¬(entry.1.periodFrames.toNat ≠ 0 ∧ frame % entry.1.periodFrames.toNat = 0)

instance (table : List ObcTask) (position : Nat) (state : ExecState) :
    Decidable (HarmlessFrom table position state) := by
  unfold HarmlessFrom
  infer_instance

/-- How the vote and the entry frame that the host will read hang together. -/
inductive ModeTold (table : List ObcTask) (position : Nat) (state : ExecState) : Prop
  | essential (all : ∀ row ∈ table, row.essential = true)
  | nominal (entry : state.safeEntryFrame = obcSafeEntryNone)
      (answer : (obcModeIsSafe state.mode).1 = false) (fresh : state.mode.announced = 0)
  | entered (entry : state.safeEntryFrame.toNat < state.frame.toNat ∨
        (state.safeEntryFrame = state.frame ∧ table.length < position))
      (answer : (obcModeIsSafe state.mode).1 = true)
  | harmless (entry : state.safeEntryFrame = obcSafeEntryNone)
      (answer : (obcModeIsSafe state.mode).1 = true) (rest : HarmlessFrom table position state)

structure Conforms (table : List ObcTask) (position : Nat) (state : ExecState) : Prop where
  window : state.frames = obcSchedWindowFrames
  slot : SlotLogged table position state
  suspended : ∀ entry ∈ state.suspensions, entry.rung = obcRungSuspendTask.setWidth 8
  trace : state.trace.map BitVec.toNat =
    expectedUpTo (dumpOf table state) state.frame.toNat position
  mode : ModeTold table position state

theorem announced_iff_listed {suspensions : List ObcSuspension}
    (rungs : ∀ entry ∈ suspensions, entry.rung = obcRungSuspendTask.setWidth 8)
    (frame task : Nat) :
    (∃ entry ∈ suspensions, entry.frame.toNat = frame ∧ entry.task.toNat = task) ↔
      Announced suspensions frame task := by
  constructor
  · rintro ⟨entry, member, same⟩
    exact ⟨entry, member, rungs entry member, same⟩
  · rintro ⟨entry, member, _, same⟩
    exact ⟨entry, member, same⟩

theorem Conforms.room {table : List ObcTask} {index : Nat} {state : ExecState}
    (held : Conforms table index state) (running : Running table state)
    (inside : index < table.length) : state.trace.length < obcTraceCapacity := by
  have length := length_expectedUpTo_le (dumpOf table state) state.frame.toNat index
  rw [← held.trace, List.length_map] at length
  have tasks : (dumpOf table state).tasks.length = table.length := dumpTasks_length table
  have frame : state.frame.toNat < 16 := by
    have within := running.within
    rw [held.window] at within
    exact within
  have limit : table.length ≤ 8 := running.limit
  have product := Nat.mul_le_mul (Nat.le_of_lt_succ frame) limit
  rw [tasks] at length
  change _ < 256
  omega

theorem pushed_toNat {index : Nat} {trace : List U8} (room : trace.length < obcTraceCapacity)
    (narrow : index < 2 ^ 8) :
    (pushed index trace).map BitVec.toNat = trace.map BitVec.toNat ++ [index] := by
  rw [pushed, if_neg (Nat.not_le.mpr room), List.map_append, List.map_singleton,
    BitVec.toNat_ofNat, Nat.mod_eq_of_lt narrow]

theorem expectedUpTo_later {table : List ObcTask} {state after : ExecState}
    (entry : after.safeEntryFrame = state.safeEntryFrame) {frame : Nat}
    (listed : ∀ other task, other ≤ frame →
      ((∃ entry ∈ after.suspensions, entry.frame.toNat = other ∧ entry.task.toNat = task) ↔
        ∃ entry ∈ state.suspensions, entry.frame.toNat = other ∧ entry.task.toNat = task))
    (position : Nat) :
    expectedUpTo (dumpOf table after) frame position =
      expectedUpTo (dumpOf table state) frame position := by
  refine expectedUpTo_congr rfl rfl fun other index row _ visited => ?_
  rw [Bool.eq_iff_iff, expects_iff, expects_iff, Expected, Expected, entry,
    listed other index (by omega)]

theorem due_toNat {row : ObcTask} {frame : U32} :
    Due row frame ↔
      row.periodFrames.toNat ≠ 0 ∧ frame.toNat % row.periodFrames.toNat = 0 := by
  have period : row.periodFrames = 0 ↔ row.periodFrames.toNat = 0 :=
    ⟨fun zero => by rw [zero]; rfl, fun zero => BitVec.eq_of_toNat_eq zero⟩
  have modulo : frame % row.periodFrames = 0 ↔ frame.toNat % row.periodFrames.toNat = 0 := by
    rw [← BitVec.toNat_umod]
    exact ⟨fun zero => by rw [zero]; rfl, fun zero => BitVec.eq_of_toNat_eq zero⟩
  rw [Due, ne_eq, period, modulo]

theorem ModeTold.dispatches {table : List ObcTask} {index : Nat} {row : ObcTask}
    {state : ExecState} (told : ModeTold table index state) (found : table[index]? = some row)
    (asked : ¬Withheld row state) (early : state.safeEntryFrame ≠ obcSafeEntryNone) :
    row.essential = true := by
  by_contra inessential
  have degraded : row.essential = false := by simpa using inessential
  cases told with
  | essential all => exact inessential (all row (List.mem_of_getElem? found))
  | nominal entry _ _ => exact early entry
  | entered _ answer => exact asked ⟨answer, degraded⟩
  | harmless entry _ _ => exact early entry

theorem ModeTold.withholds {table : List ObcTask} {index : Nat} {row : ObcTask}
    {state : ExecState} (told : ModeTold table index state) (running : Running table state)
    (found : table[index]? = some row) (inside : index < table.length)
    (withheld : Withheld row state) (due : Due row state.frame) :
    state.safeEntryFrame ≠ obcSafeEntryNone ∧
      state.safeEntryFrame.toNat < state.frame.toNat := by
  cases told with
  | essential all =>
      have essential := all row (List.mem_of_getElem? found)
      rw [withheld.2] at essential
      cases essential
  | nominal _ answer _ =>
      rw [withheld.1] at answer
      cases answer
  | entered entry _ =>
      rcases entry with earlier | ⟨_, passed⟩
      · refine ⟨fun none => ?_, earlier⟩
        have small := state.frame.isLt
        rw [none] at earlier
        change 0xFFFFFFFF < _ at earlier
        omega
      · omega
  | harmless _ _ rest =>
      exact absurd (due_toNat.mp due) (rest (row, index)
        (List.mem_zipIdx_iff_getElem?.mpr found) withheld.2 _ running.within
        (ahead_position index state))

theorem Conforms.expected {table : List ObcTask} {index : Nat} {row : ObcTask}
    {state : ExecState} (held : Conforms table index state) (running : Running table state)
    (found : table[index]? = some row) :
    Expected row index state.frame.toNat state ↔
      Due row state.frame ∧ ¬Withheld row state ∧
        obcRecoverIsSuspended index state.frame state = false := by
  obtain ⟨inside, _⟩ := List.getElem?_eq_some_iff.mp found
  have live := held.slot.announced_iff running.limit running.within found
  rw [Expected, announced_iff_listed held.suspended, live, ← due_toNat, Bool.not_eq_true]
  constructor
  · rintro ⟨due, essential, free⟩
    refine ⟨due, fun withheld => ?_, free⟩
    obtain ⟨degraded, early⟩ := held.mode.withholds running found inside withheld due
    have kept := essential degraded early
    rw [withheld.2] at kept
    cases kept
  · rintro ⟨due, asked, free⟩
    exact ⟨due, fun degraded _ => held.mode.dispatches found asked degraded, free⟩

theorem Conforms.visited {table : List ObcTask} {index : Nat} {row : ObcTask}
    {state after : ExecState} (held : Conforms table index state)
    (found : table[index]? = some row) (frame : after.frame = state.frame)
    (frames : after.frames = state.frames)
    (entry : after.safeEntryFrame = state.safeEntryFrame)
    (slot : SlotLogged table (index + 1) after)
    (suspended : ∀ entry ∈ after.suspensions, entry.rung = obcRungSuspendTask.setWidth 8)
    (fresh : ∀ other task, Announced after.suspensions other task →
      Announced state.suspensions other task ∨ state.frame.toNat < other)
    (kept : ∀ other task, Announced state.suspensions other task →
      Announced after.suspensions other task)
    (mode : ModeTold table (index + 1) after) (dispatched : Bool)
    (trace : after.trace.map BitVec.toNat =
      state.trace.map BitVec.toNat ++ if dispatched then [index] else [])
    (expected : Expected row index state.frame.toNat state ↔ dispatched = true) :
    Conforms table (index + 1) after := by
  have listed (other task : Nat) (early : other ≤ state.frame.toNat) :
      (∃ entry ∈ after.suspensions, entry.frame.toNat = other ∧ entry.task.toNat = task) ↔
        ∃ entry ∈ state.suspensions, entry.frame.toNat = other ∧ entry.task.toNat = task := by
    rw [announced_iff_listed suspended, announced_iff_listed held.suspended]
    refine ⟨fun announced => ?_, kept other task⟩
    rcases fresh other task announced with old | later
    · exact old
    · omega
  refine ⟨frames.trans held.window, slot, suspended, ?_, mode⟩
  have here : expects (dumpOf table state) state.frame.toNat (dumpTask row index) =
      dispatched := by
    rw [Bool.eq_iff_iff, expects_iff]
    exact expected
  rw [frame, expectedUpTo_later entry listed, expectedUpTo_succ rfl found, here, trace,
    held.trace]

/-- What a visit must meet for the trace to stay what the host expects. -/
def KeepsTraceExpected (table : List ObcTask) (row : ObcTask) (index : Nat) (turn : Turn)
    (state : ExecState) : Prop :=
  (Overruns row index turn state obcRungSuspendTask → AnnouncesExactly row index state) ∧
    ¬Overruns row index turn state obcRungResetSubsystem ∧
    (Overruns row index turn state obcRungResetMachine →
      obcShortBootLimit ≤ obcRecoverShortBoots state.boot →
      (obcModeIsSafe state.mode).1 = true ∨ HarmlessFrom table (index + 1) state)

instance (table : List ObcTask) (row : ObcTask) (index : Nat) (turn : Turn)
    (state : ExecState) : Decidable (KeepsTraceExpected table row index turn state) :=
  inferInstanceAs (Decidable (_ ∧ _ ∧ _))

theorem HarmlessFrom.mono {table : List ObcTask} {position next : Nat} {state after : ExecState}
    (harmless : HarmlessFrom table position state) (frames : after.frames = state.frames)
    (later : ∀ frame task, task < table.length → Ahead next after frame task →
      Ahead position state frame task) : HarmlessFrom table next after := by
  intro entry member inessential frame inside ahead
  rw [frames] at inside
  have inTable := (List.getElem?_eq_some_iff.mp (List.mem_zipIdx_iff_getElem?.mp member)).1
  exact harmless entry member inessential frame inside (later frame entry.2 inTable ahead)

theorem ModeTold.kept {table : List ObcTask} {position next : Nat} {state after : ExecState}
    (told : ModeTold table position state) (mode : ModeKept state.mode after.mode)
    (entry : after.safeEntryFrame = state.safeEntryFrame) (frame : after.frame = state.frame)
    (frames : after.frames = state.frames) (onward : position ≤ next) :
    ModeTold table next after := by
  cases told with
  | essential all => exact .essential all
  | nominal none answer fresh =>
      exact .nominal (entry.trans none) (mode.answer.trans answer) (mode.announced.trans fresh)
  | entered before answer =>
      refine .entered ?_ (mode.answer.trans answer)
      rw [entry, frame]
      exact before.imp_right fun ⟨same, passed⟩ => ⟨same, Nat.lt_of_lt_of_le passed onward⟩
  | harmless none answer rest =>
      exact .harmless (entry.trans none) (mode.answer.trans answer)
        (rest.mono frames fun _ _ _ ahead => ahead.mono frame onward)

theorem ModeTold.ladder {table : List ObcTask} {index : Nat} {state after : ExecState}
    (told : ModeTold table index state) {mode : ModeState} (kept : ModeKept state.mode mode)
    (mode' : after.mode = obcModeEnterSafe obcSafeResetLoop mode)
    (entry : after.safeEntryFrame = state.safeEntryFrame) (frame : after.frame = state.frame)
    (frames : after.frames = state.frames)
    (spared : (obcModeIsSafe state.mode).1 = true ∨ HarmlessFrom table (index + 1) state) :
    ModeTold table (index + 1) after := by
  have safe (answer : (obcModeIsSafe state.mode).1 = true) :
      (obcModeIsSafe after.mode).1 = true := by
    rw [mode']
    exact obcModeEnterSafe_answer (kept.answer.trans answer) obcSafeResetLoop
  cases told with
  | essential all => exact .essential all
  | nominal none answer fresh =>
      rcases spared with already | rest
      · rw [answer] at already
        cases already
      · refine .harmless (entry.trans none) ?_ (rest.mono frames fun _ _ _ ahead =>
          ahead.mono frame (Nat.le_refl _))
        rw [mode']
        exact obcModeEnterSafe_fresh (kept.announced.trans fresh) obcSafeResetLoop
  | entered before answer =>
      refine .entered ?_ (safe answer)
      rw [entry, frame]
      exact before.imp_right fun ⟨same, passed⟩ => ⟨same, Nat.lt_succ_of_lt passed⟩
  | harmless none answer rest =>
      exact .harmless (entry.trans none) (safe answer)
        (rest.mono frames fun _ _ _ ahead => ahead.mono frame (Nat.le_succ index))

theorem Conforms.visitRow {table : List ObcTask} {index : Nat} {row : ObcTask} {turn : Turn}
    {state after : ExecState} (held : Conforms table index state)
    (found : table[index]? = some row) (present : row.fn.isSome) (running : Running table state)
    (keeps : KeepsTraceExpected table row index turn state)
    (visit : Visit row index turn state after) : Conforms table (index + 1) after := by
  obtain ⟨exact, sound, spared⟩ := keeps
  obtain ⟨inside, _⟩ := List.getElem?_eq_some_iff.mp found
  have narrow : index < 8 := Nat.lt_of_lt_of_le inside running.limit
  have slot := held.slot.visit found running.limit running.within exact visit
  have expected := held.expected running found
  have pushes : (pushed index state.trace).map BitVec.toNat =
      state.trace.map BitVec.toNat ++ [index] :=
    pushed_toNat (held.room running inside) (by omega)
  have onward {next : ExecState} (mode : ModeKept state.mode next.mode)
      (entry : next.safeEntryFrame = state.safeEntryFrame) (frame : next.frame = state.frame)
      (frames : next.frames = state.frames) : ModeTold table (index + 1) next :=
    held.mode.kept mode entry frame frames (Nat.le_succ index)
  have ran (dispatches : Dispatches row index state) :
      Expected row index state.frame.toNat state ↔ true = true :=
    iff_of_true (expected.mpr ⟨dispatches.1, dispatches.2.1, dispatches.2.2.1⟩) rfl
  cases visit with
  | skipped mode kept skip =>
      refine held.visited found rfl rfl rfl slot held.suspended (fun _ _ => .inl)
        (fun _ _ => id) (onward kept rfl rfl rfl) false (by simp) (iff_of_false ?_ (by simp))
      rw [expected]
      rintro ⟨due, asked, _⟩
      exact skip.elim (fun undue => undue due) asked
  | suspended mode kept due asked suspended =>
      refine held.visited found rfl rfl rfl slot held.suspended (fun _ _ => .inl)
        (fun _ _ => id) (onward kept rfl rfl rfl) false (by simp) (iff_of_false ?_ (by simp))
      rw [expected, suspended]
      rintro ⟨_, _, free⟩
      cases free
  | nullFunction mode kept due asked free null =>
      rw [null] at present
      cases present
  | within mode kept taskState traceOverflow dispatches thrifty =>
      exact held.visited found rfl rfl rfl slot held.suspended (fun _ _ => .inl)
        (fun _ _ => id) (onward kept rfl rfl rfl) true pushes (ran dispatches)
  | suspends mode kept taskState traceOverflow suspensionOverflow overruns =>
      have announces := exact overruns
      refine held.visited found rfl rfl rfl slot ?_
        (fun _ _ => announces.fresh overruns.1.1 (by omega) running.within)
        (fun frame task old =>
          (announced_logged_suspendTask announces.1 (by omega) _ frame task).mpr (.inl old))
        (onward kept rfl rfl rfl) true pushes (ran overruns.1)
      intro entry member
      dsimp only at member
      rw [logged, if_neg (Nat.not_le.mpr announces.1), List.mem_append,
        List.mem_singleton] at member
      rcases member with old | rfl
      · exact held.suspended entry old
      · rfl
  | resetsSubsystem mode kept taskState traceOverflow suspensionOverflow overruns =>
      exact absurd overruns sound
  | entersSafe mode kept taskState traceOverflow overruns spent =>
      exact held.visited found rfl rfl rfl slot held.suspended (fun _ _ => .inl)
        (fun _ _ => id) (held.mode.ladder kept rfl rfl rfl rfl (spared overruns spent)) true
        pushes (ran overruns.1)
  | resetsMachine mode kept taskState traceOverflow overruns unspent =>
      exact held.visited found rfl rfl rfl slot held.suspended (fun _ _ => .inl)
        (fun _ _ => id) (onward kept rfl rfl rfl) true pushes (ran overruns.1)

theorem dumpOf_eq {table : List ObcTask} {state after : ExecState}
    (suspensions : after.suspensions = state.suspensions)
    (entry : after.safeEntryFrame = state.safeEntryFrame) :
    dumpOf table after = dumpOf table state := by
  rw [dumpOf, suspensions, entry]
  rfl

theorem expectedUpTo_passed {table : List ObcTask} (state : ExecState) (frame : Nat) :
    expectedUpTo (dumpOf table state) frame (table.length + 1) =
      expectedUpTo (dumpOf table state) frame table.length := by
  have tasks : (dumpOf table state).tasks.length = table.length := dumpTasks_length table
  rw [← expectedUpTo_nextFrame _ _ _ (Nat.le_of_eq tasks),
    ← expectedUpTo_nextFrame _ _ _ (tasks ▸ Nat.le_succ _)]

theorem expectedUpTo_degraded {table : List ObcTask} {position : Nat} {state after : ExecState}
    (told : ModeTold table position state) (nominal : (obcModeIsSafe state.mode).1 = false)
    (suspensions : after.suspensions = state.suspensions)
    (entry : after.safeEntryFrame = state.frame) (reached : Nat) :
    expectedUpTo (dumpOf table after) state.frame.toNat reached =
      expectedUpTo (dumpOf table state) state.frame.toNat reached := by
  refine expectedUpTo_congr rfl rfl fun other index row found visited => ?_
  have undegraded : (state.safeEntryFrame ≠ obcSafeEntryNone →
      state.safeEntryFrame.toNat < other → row.essential = true) := by
    cases told with
    | essential all => exact fun _ _ => all row (List.mem_of_getElem? found)
    | nominal none _ _ => exact fun early => absurd none early
    | entered _ answer => exact absurd answer (by simp [nominal])
    | harmless none _ _ => exact fun early => absurd none early
  have later : after.safeEntryFrame ≠ obcSafeEntryNone →
      after.safeEntryFrame.toNat < other → row.essential = true := by
    rw [entry]
    intro _ passed
    omega
  rw [Bool.eq_iff_iff, expects_iff, expects_iff, Expected, Expected, suspensions,
    iff_true_intro undegraded, iff_true_intro later]

theorem ModeTold.passed {table : List ObcTask} {state after : ExecState}
    (told : ModeTold table table.length state) (frame : after.frame = state.frame)
    (nominal : (obcModeIsSafe state.mode).1 = false)
    (mode : after.mode = obcModeEnterSafe obcSafeFrameOverrun (obcModeIsSafe state.mode).2)
    (entry : after.safeEntryFrame = state.frame) : ModeTold table (table.length + 1) after := by
  cases told with
  | essential all => exact .essential all
  | nominal _ _ fresh =>
      refine .entered (.inr ⟨entry.trans frame.symm, Nat.lt_succ_self _⟩) ?_
      rw [mode]
      exact obcModeEnterSafe_fresh ((obcModeIsSafe_announced state.mode).trans fresh) _
  | entered _ answer => exact absurd answer (by simp [nominal])
  | harmless _ answer _ => exact absurd answer (by simp [nominal])

theorem ModeTold.nextFrame {table : List ObcTask} {state after : ExecState}
    (told : ModeTold table (table.length + 1) state) (running : Running table state)
    (frame : after.frame = state.frame + 1) (frames : after.frames = state.frames)
    (mode : after.mode = state.mode) (entry : after.safeEntryFrame = state.safeEntryFrame) :
    ModeTold table 0 after := by
  have succ := toNat_succ_frame running.within
  cases told with
  | essential all => exact .essential all
  | nominal none answer fresh =>
      exact .nominal (entry.trans none) (by rw [mode]; exact answer) (by rw [mode]; exact fresh)
  | entered before answer =>
      refine .entered (.inl ?_) (by rw [mode]; exact answer)
      rw [entry, frame, succ]
      rcases before with earlier | ⟨same, _⟩
      · omega
      · rw [same]
        omega
  | harmless none answer rest =>
      refine .harmless (entry.trans none) (by rw [mode]; exact answer)
        (rest.mono frames fun other task inTable ahead => ?_)
      unfold Ahead at ahead ⊢
      rw [frame] at ahead
      omega

def KeepsConformance (table : List ObcTask) : ExecInput → ExecState → Prop
  | .turn turn, state => AtVisit table (KeepsTraceExpected table) (.turn turn) state
  | .corrupt index copy, state =>
      (obcModeIsSafe (execStep table (.corrupt index copy) state).mode).1 =
          (obcModeIsSafe state.mode).1 ∨
        ∀ row ∈ table, row.essential = true

instance (table : List ObcTask) (input : ExecInput) (state : ExecState) :
    Decidable (KeepsConformance table input state) :=
  match input with
  | .turn turn =>
      inferInstanceAs (Decidable (AtVisit table (KeepsTraceExpected table) (.turn turn) state))
  | .corrupt _ _ => inferInstanceAs (Decidable (_ = _ ∨ ∀ row ∈ table, row.essential = true))

def TraceAsExpected (table : List ObcTask) (state : ExecState) : Prop :=
  state.phase = .returned .ok →
    state.trace.map BitVec.toNat = expectedTrace (dumpOf table state)

theorem Conforms.moved {table : List ObcTask} {position next : Nat} {state after : ExecState}
    (held : Conforms table position state) (ladder : LadderKept state after)
    (slot : SlotLogged table next after) (mode : ModeTold table next after)
    (sequence : expectedUpTo (dumpOf table after) after.frame.toNat next =
      expectedUpTo (dumpOf table state) state.frame.toNat position) :
    Conforms table next after := by
  refine ⟨ladder.frames.trans held.window, slot, ?_, ?_, mode⟩
  · rw [ladder.suspensions]
    exact held.suspended
  · rw [sequence, ladder.trace]
    exact held.trace

theorem HarmlessFrom.all {table : List ObcTask} {state : ExecState}
    (harmless : HarmlessFrom table 0 state) (positive : ∀ row ∈ table, row.periodFrames ≠ 0)
    (frame : state.frame = 0) (within : 0 < state.frames) :
    ∀ row ∈ table, row.essential = true := by
  intro row member
  by_contra inessential
  obtain ⟨index, found⟩ := List.mem_iff_getElem?.mp member
  refine harmless (row, index) (List.mem_zipIdx_iff_getElem?.mpr found)
    (by simpa using inessential) 0 within ?_ ⟨?_, Nat.zero_mod _⟩
  · rw [Ahead, frame]
    exact .inr ⟨rfl, Nat.zero_le _⟩
  · exact fun zero => positive row member (BitVec.eq_of_toNat_eq zero)

theorem conforms_followed {table : List ObcTask} (present : ∀ row ∈ table, row.fn.isSome)
    (positive : ∀ row ∈ table, row.periodFrames ≠ 0) :
    Followed table (KeepsConformance table) (Conforms table) (TraceAsExpected table) := by
  constructor
  · intro position phase state held
    exact held.moved ⟨rfl, rfl, rfl, rfl, rfl⟩
      (held.slot.kept ⟨rfl, rfl, rfl, rfl, rfl⟩ rfl (Nat.le_refl _))
      (held.mode.kept (.refl _) rfl rfl rfl (Nat.le_refl _)) rfl
  · intro position index copy state allowed held
    refine held.moved ⟨rfl, rfl, rfl, rfl, rfl⟩
      (held.slot.kept ⟨rfl, rfl, rfl, rfl, rfl⟩ rfl (Nat.le_refl _)) ?_ rfl
    rcases allowed with same | all
    · exact held.mode.kept ⟨same, rfl, rfl, rfl⟩ rfl rfl rfl (Nat.le_refl _)
    · exact .essential all
  · intro index copy state expected
    exact expected
  · intro turn state after allowed phase frame held ladder started
    cases started with
    | stopped status stop early _ =>
        refine ⟨by simp [stop], fun _ _ returned => ?_⟩
        rw [stop] at returned
        have none := early (Phase.returned.inj returned)
        rw [held.window] at none
        exact absurd (by decide) none
    | begun begins _ _ _ start _ _ mode entry _ =>
        have here : after.frame = state.frame := start.trans frame.symm
        refine ⟨fun _ => ?_, by simp [begins]⟩
        have told : ModeTold table 0 after := by
          cases held.mode with
          | essential all => exact .essential all
          | nominal none answer fresh =>
              refine .nominal ?_ (mode.answer.trans answer) (mode.announced.trans fresh)
              rw [entry, if_neg (by simp [answer])]
              exact none
          | entered before _ =>
              rw [frame] at before
              rcases before with earlier | ⟨_, passed⟩
              · exact absurd earlier (Nat.not_lt_zero _)
              · exact absurd passed (Nat.not_lt_zero _)
          | harmless _ _ rest => exact .essential (rest.all positive frame (held.window ▸ by decide))
        refine held.moved ladder (held.slot.kept ladder here (Nat.le_refl 0)) told ?_
        rw [here, frame]
        rfl
  · intro turn state after index row allowed phase found running held visit
    have next := held.visitRow found (present row (List.mem_of_getElem? found)) running
      (AtVisit.row allowed phase found) visit
    exact ⟨next, fun reset returned => by rw [reset] at returned; cases returned⟩
  · intro turn state after _ _ running held ladder frame ended
    cases ended with
    | stopped status unsettled stop _ =>
        refine ⟨by simp [stop], fun _ _ returned => ?_⟩
        rw [stop] at returned
        exact absurd (Phase.returned.inj returned) unsettled
    | kept idle mode entry _ =>
        refine ⟨fun _ => ?_, by simp [idle]⟩
        refine held.moved ladder (held.slot.kept ladder frame (Nat.le_succ _))
          (held.mode.kept mode entry frame ladder.frames (Nat.le_succ _)) ?_
        rw [expectedUpTo_passed, frame, dumpOf_eq ladder.suspensions entry]
    | degraded idle nominal mode entry _ =>
        refine ⟨fun _ => ?_, by simp [idle]⟩
        refine held.moved ladder (held.slot.kept ladder frame (Nat.le_succ _))
          (held.mode.passed frame nominal mode entry) ?_
        rw [expectedUpTo_passed, frame]
        exact expectedUpTo_degraded held.mode nominal ladder.suspensions entry _
  · intro turn state after guard _ _ running held ladder idled
    cases idled with
    | stopped status unsettled stop _ =>
        refine ⟨by simp [stop], fun _ _ returned => ?_⟩
        rw [stop] at returned
        exact absurd (Phase.returned.inj returned) unsettled
    | waits next waited => simp [waited]
    | entered enters within next _ _ mode entry _ =>
        refine ⟨fun _ => ?_, by simp [enters]⟩
        refine held.moved ladder (held.slot.nextFrame ladder running.within next)
          (held.mode.nextFrame running next ladder.frames mode entry) ?_
        rw [next, toNat_succ_frame running.within, dumpOf_eq ladder.suspensions entry]
        exact expectedUpTo_nextFrame _ _ _ (dumpTasks_length table ▸ Nat.le_succ _)
    | finished stop last entry _ =>
        refine ⟨by simp [stop], fun _ _ _ => ?_⟩
        have window : (dumpOf table state).windowFrames = state.frame.toNat + 1 := by
          have within := running.within
          have succ := toNat_succ_frame within
          rw [held.window, BitVec.lt_def] at within last
          rw [succ] at last
          change 16 = _
          change _ < 16 at within
          change ¬_ < 16 at last
          omega
        rw [ladder.trace, held.trace, dumpOf_eq ladder.suspensions entry]
        exact (expectedTrace_eq _ window (dumpTasks_length table ▸ Nat.le_succ _)).symm

theorem conforms_fresh (table : List ObcTask) (mode : ModeState) (boot : ObcBootRecord)
    (told : ((obcModeIsSafe mode).1 = false ∧ mode.announced = 0) ∨
      ∀ row ∈ table, row.essential = true) :
    Conforms table 0 (freshExec obcSchedWindowFrames mode boot) := by
  refine ⟨rfl, slotLogged_fresh table obcSchedWindowFrames mode boot, ?_, rfl, ?_⟩
  · intro entry member
    cases member
  · rcases told with ⟨answer, fresh⟩ | all
    · exact .nominal rfl answer fresh
    · exact .essential all

/-- In every run that meets the condition and returns ok, the trace is the
sequence the host computes from the dump. -/
theorem dispatchTrace_expected (table : List ObcTask)
    (positive : ∀ row ∈ table, row.periodFrames ≠ 0) (present : ∀ row ∈ table, row.fn.isSome)
    (previous : Boot) (left : ModeState) (boot : ObcBootRecord)
    (unrestored : (obcModeIsSafe (executiveState previous left)).1 = false ∨
      ∀ row ∈ table, row.essential = true) (inputs : List ExecInput)
    (meets : Meets (execStep table) (KeepsConformance table) inputs
      (freshExec obcSchedWindowFrames (executiveState previous left) boot)) :
    TraceAsExpected table (run (execStep table) inputs
      (freshExec obcSchedWindowFrames (executiveState previous left) boot)) := by
  have initial := conforms_fresh table (executiveState previous left) boot
    (unrestored.imp_left fun answer =>
      ⟨answer, executiveState_announced previous left answer⟩)
  have tracks := (conforms_followed present positive).run meets initial
  intro returned
  simp only [Tracks, returned] at tracks
  exact tracks returned

theorem flight_dispatchTrace_expected :
    TraceAsExpected obcTaskTable (run (execStep obcTaskTable)
      (punctualRun ([1001, 0, 0, 0, 0] :: [0, 0, 0, 0, 0] :: [0, 4501, 0, 0, 0] ::
        List.replicate 13 [0, 0, 0, 0, 0]))
      (freshExec obcSchedWindowFrames (executiveState uneventfulBoot coldMode)
        coldBootRecord)) :=
  dispatchTrace_expected obcTaskTable (by decide) (by decide) uneventfulBoot coldMode
    coldBootRecord (.inl (by decide +kernel)) _ (by decide +kernel)

/-- Restored safe, with no overrun at all: frame 0 is already degraded, and the
checker holds only the frames after the entry frame to the essential subset. -/
theorem dispatchTrace_unexpected :
    ¬∀ inputs, let final := run (execStep obcTaskTable) inputs (trappedExec obcSchedWindowFrames)
      final.traceOverflow = 0 → final.suspensionOverflow = 0 →
        TraceAsExpected obcTaskTable final := by
  intro expected
  have same := expected (punctualRun (List.replicate 16 [0, 0, 0, 0, 0])) (by decide +kernel)
    (by decide +kernel) (by decide +kernel)
  exact absurd same (by decide +kernel)

end ObcZero
