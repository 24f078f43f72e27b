import ObcZero.QueueDrain
import ObcZero.UplinkCore

/-! When a command runs: the command task dispatch by dispatch, each one polling and
then running the queue at the clock its frame was given. -/

namespace ObcZero

open StepSystem

/-- A dispatch of the command task: what the uplink received since the last one, the
frame's clock and the frame. -/
structure Dispatch where
  arrived : List U8
  now : U32
  frame : U32

def taskCommand (table : List ObcCmd) (now frame : U32) (state : CmdState) : CmdState :=
  obcCmdQueueRun table now frame (obcCmdPoll table state)

def polledAt (table : List ObcCmd) (dispatch : Dispatch) (state : CmdState) : CmdState :=
  obcCmdPoll table { state with uplink := state.uplink ++ dispatch.arrived }

def commandDispatch (table : List ObcCmd) (dispatch : Dispatch) (state : CmdState) : CmdState :=
  taskCommand table dispatch.now dispatch.frame
    { state with uplink := state.uplink ++ dispatch.arrived }

theorem commandDispatch_run (table : List ObcCmd) (dispatch : Dispatch) (state : CmdState) :
    commandDispatch table dispatch state =
      run (cmdStep table) [.receive dispatch.arrived, .poll, .queueRun dispatch.now dispatch.frame]
        state := rfl

/-- A command as the queue holds it. -/
structure Tagged where
  opcode : U8
  tag : U32
  arg : U32
  counter : U32
  deriving DecidableEq

def Tagged.slot (command : Tagged) : ObcCmdSlot :=
  { when := command.tag, arg := command.arg, counter := command.counter, opcode := command.opcode,
    occupied := true }

def Tagged.acceptance (command : Tagged) (armedUntil : U32) : CmdEvent :=
  .accepted command.opcode command.tag command.arg command.counter armedUntil

def Holds (command : Tagged) (state : CmdState) : Prop :=
  ∃ index, state.queue index = command.slot

/-- The poll of this dispatch accepts the command. -/
def AcceptedIn (table : List ObcCmd) (dispatch : Dispatch) (state : CmdState) (command : Tagged) :
    Prop :=
  ∃ armedUntil, command.acceptance armedUntil ∈ (polledAt table dispatch state).history ∧
    command.acceptance armedUntil ∉ state.history

/-- What polling adds to `before`: it keeps the slots in use and the record, and what
it newly accepts is stored. -/
structure PollKept (table : List ObcCmd) (before state : CmdState) : Prop where
  kept : ∀ index, (before.queue index).occupied = true → state.queue index = before.queue index
  recorded : ∀ event ∈ before.history, event ∈ state.history
  stored : ∀ (command : Tagged) armedUntil, command.acceptance armedUntil ∈ state.history →
    command.acceptance armedUntil ∉ before.history →
      Holds command state ∧ ∃ row, lookup table command.opcode = some row

theorem PollKept.congr {table : List ObcCmd} {before state after : CmdState}
    (polled : PollKept table before state) (queue : after.queue = state.queue)
    (history : after.history = state.history) : PollKept table before after := by
  constructor
  · rw [queue]
    exact polled.kept
  · rw [history]
    exact polled.recorded
  · intro command armedUntil member
    rw [history] at member
    rw [Holds, queue]
    exact polled.stored command armedUntil member

theorem PollKept.accept {table : List ObcCmd} {before state : CmdState}
    (polled : PollKept table before state) {frame : Nat → U8} {row : ObcCmd}
    {index : Fin obcCmdQueueLen} (found : lookup table (frameOpcode frame) = some row)
    (free : (state.queue index).occupied = false) :
    PollKept table before (acceptedState frame index state) := by
  constructor
  · intro position used
    have same := polled.kept position used
    have elsewhere : position ≠ index := by
      rintro rfl
      rw [same, used] at free
      cases free
    simp only [acceptedState, Function.update_of_ne elsewhere]
    exact same
  · intro event member
    exact List.mem_cons_of_mem _ (polled.recorded event member)
  · intro command armedUntil member new
    rcases List.mem_cons.mp member with newest | earlier
    · obtain ⟨opcode, tag, arg, counter, _⟩ := CmdEvent.accepted.inj newest
      refine ⟨⟨index, ?_⟩, row, by rw [opcode]; exact found⟩
      simp only [acceptedState, Function.update_self, Tagged.slot, opcode, tag, arg, counter]
    · obtain ⟨⟨position, holds⟩, known⟩ := polled.stored command armedUntil earlier new
      have elsewhere : position ≠ index := by
        rintro rfl
        rw [holds] at free
        cases free
      refine ⟨⟨position, ?_⟩, known⟩
      simp only [acceptedState, Function.update_of_ne elsewhere]
      exact holds

theorem PollKept.ingested {table : List ObcCmd} {before state : CmdState}
    (polled : PollKept table before state) (frame : Option (Nat → U8)) (len : U32) :
    PollKept table before (obcCmdIngest table frame len state).2.2 := by
  have counted : PollKept table before { state with examined := bump state.examined } :=
    polled.congr rfl rfl
  rcases obcCmdIngest_cases table frame len state with
    unchanged | ⟨reason, refused⟩ | ⟨bytes, row, index, _, _, found, _, _, free, taken⟩
  · rw [unchanged]
    exact polled
  · obtain ⟨announced, serial, after⟩ :=
      refuse_cases reason { state with examined := bump state.examined }
    rw [refused, after]
    exact polled.congr rfl rfl
  · rw [taken]
    exact counted.accept found free

theorem obcCmdPoll_kept (table : List ObcCmd) (state : CmdState) :
    PollKept table state (obcCmdPoll table state) := by
  have start : PollKept table state state :=
    ⟨fun _ _ => rfl, fun _ member => member, fun _ _ member new => absurd member new⟩
  refine obcCmdPoll_invariant (fun _ _ before => before.congr rfl rfl) ?_ ?_
    (meets_always (fun _ _ => trivial) _ _) start
  · intro byte current _ before
    rcases takeByte_cases table byte current with ⟨fill, stored⟩ | ⟨_, completed⟩
    · rw [stored]
      exact before.congr rfl rfl
    · rw [completed]
      have held : PollKept table state { current with rx := completedFrame byte current } :=
        before.congr rfl rfl
      exact (held.ingested _ _).congr rfl rfl
  · intro current before
    obtain ⟨announced, serial, refused⟩ := refuse_cases .length
      { current with fill := 0, examined := bump current.examined }
    rw [refused]
    exact before.congr rfl rfl

theorem polledAt_kept (table : List ObcCmd) (dispatch : Dispatch) (state : CmdState) :
    PollKept table state (polledAt table dispatch state) := by
  have polled := obcCmdPoll_kept table { state with uplink := state.uplink ++ dispatch.arrived }
  exact ⟨polled.kept, polled.recorded, polled.stored⟩

theorem Holds.polled {command : Tagged} {state : CmdState} (holds : Holds command state)
    (table : List ObcCmd) (dispatch : Dispatch) : Holds command (polledAt table dispatch state) := by
  obtain ⟨index, stored⟩ := holds
  refine ⟨index, ?_⟩
  rw [(polledAt_kept table dispatch state).kept index (by rw [stored]; rfl), stored]

theorem Holds.early {command : Tagged} {now : U32} {state : CmdState} (holds : Holds command state)
    (early : now < command.tag) (table : List ObcCmd) (frame : U32) :
    Holds command (obcCmdQueueRun table now frame state) := by
  obtain ⟨index, stored⟩ := holds
  obtain ⟨order, ran⟩ := obcCmdQueueRun_ranDue table now frame state
  refine ⟨index, ?_⟩
  rw [ran.others index, stored]
  rw [stored]
  exact fun due => BitVec.not_lt.mpr due.2 early

/-- The call a command is owed at a dispatch. -/
def Tagged.call (command : Tagged) (row : ObcCmd) (dispatch : Dispatch) : CmdEvent :=
  .handled row command.arg command.counter dispatch.now dispatch.frame

theorem Holds.due {command : Tagged} {dispatch : Dispatch} {state : CmdState}
    (holds : Holds command state) (due : command.tag ≤ dispatch.now) {table : List ObcCmd}
    {row : ObcCmd} (found : lookup table command.opcode = some row) (present : row.fn.isSome) :
    command.call row dispatch ∈
      (obcCmdQueueRun table dispatch.now dispatch.frame state).history := by
  obtain ⟨index, stored⟩ := holds
  obtain ⟨order, ran⟩ := obcCmdQueueRun_ranDue table dispatch.now dispatch.frame state
  obtain ⟨fn, handler⟩ := Option.isSome_iff_exists.mp present
  have member : index ∈ order := (ran.due index).mpr (by rw [stored]; exact ⟨rfl, due⟩)
  rw [ran.calls]
  refine List.mem_append_left _ (List.mem_reverse.mpr (List.mem_filterMap.mpr ⟨index, member, ?_⟩))
  rw [stored, handlerCall]
  simp only [Tagged.slot, found, handler, Option.map_some, Tagged.call]

theorem obcCmdQueueRun_recorded (table : List ObcCmd) (now frame : U32) (state : CmdState) :
    ∀ event ∈ state.history, event ∈ (obcCmdQueueRun table now frame state).history := by
  intro event member
  obtain ⟨order, ran⟩ := obcCmdQueueRun_ranDue table now frame state
  rw [ran.calls]
  exact List.mem_append_right _ member

theorem dispatches_recorded (table : List ObcCmd) (dispatches : List Dispatch) (state : CmdState) :
    ∀ event ∈ state.history, event ∈ (run (commandDispatch table) dispatches state).history := by
  induction dispatches generalizing state with
  | nil => exact fun event member => member
  | cons dispatch rest ih =>
      intro event member
      refine ih _ event (obcCmdQueueRun_recorded table dispatch.now dispatch.frame _ event ?_)
      exact (polledAt_kept table dispatch state).recorded event member

/-- The first of these dispatches whose clock has reached the tag. -/
def firstReaching (tag : U32) (dispatches : List Dispatch) : Option Dispatch :=
  dispatches.find? fun dispatch => tag ≤ dispatch.now

/-- Called at the first dispatch that reaches the tag, and kept for as long as none has. -/
structure ServedFirst (table : List ObcCmd) (command : Tagged) (row : ObcCmd)
    (dispatches : List Dispatch) (state : CmdState) : Prop where
  called : ∀ served, firstReaching command.tag dispatches = some served →
    command.call row served ∈ (run (commandDispatch table) dispatches state).history
  kept : firstReaching command.tag dispatches = none →
    Holds command (run (commandDispatch table) dispatches state)

section Held

variable {table : List ObcCmd} {command : Tagged} {row : ObcCmd}
  (found : lookup table command.opcode = some row) (present : row.fn.isSome)

include found present

theorem Holds.dispatched {dispatch : Dispatch} {rest : List Dispatch} {state : CmdState}
    (holds : Holds command (polledAt table dispatch state))
    (continues : ∀ {after}, Holds command after → ServedFirst table command row rest after) :
    ServedFirst table command row (dispatch :: rest) state := by
  by_cases due : command.tag ≤ dispatch.now
  · have here : firstReaching command.tag (dispatch :: rest) = some dispatch :=
      List.find?_cons_of_pos (by simpa using due)
    constructor
    · intro served first
      obtain rfl := Option.some.inj (here.symm.trans first)
      exact dispatches_recorded table rest _ _ (holds.due due found present)
    · intro never
      rw [here] at never
      cases never
  · have later : firstReaching command.tag (dispatch :: rest) =
        firstReaching command.tag rest := List.find?_cons_of_neg (by simpa using due)
    have after := continues (holds.early (BitVec.not_le.mp due) table dispatch.frame)
    constructor
    · rw [later]
      exact after.called
    · rw [later]
      exact after.kept

theorem Holds.ran {dispatches : List Dispatch} {state : CmdState} (holds : Holds command state) :
    ServedFirst table command row dispatches state := by
  induction dispatches generalizing state with
  | nil =>
      constructor
      · intro served never
        cases never
      · exact fun _ => holds
  | cons dispatch rest ih =>
      exact Holds.dispatched found present (holds.polled table dispatch) ih

end Held

/-- The calls that the record holds for a counter. -/
def callsFor (counter : U32) (history : List CmdEvent) : List CmdEvent :=
  history.filter fun event => event.handledCounter = some counter

theorem callsFor_single {history : List CmdEvent} (once : (handledCounters history).Nodup)
    {event : CmdEvent} (member : event ∈ history) {counter : U32}
    (carries : event.handledCounter = some counter) : callsFor counter history = [event] := by
  induction history with
  | nil => cases member
  | cons newest earlier ih =>
      have absent (rest : List CmdEvent) (new : counter ∉ handledCounters rest) :
          callsFor counter rest = [] := by
        refine List.filter_eq_nil_iff.mpr fun other inside same => new ?_
        exact List.mem_filterMap.mpr ⟨other, inside, by simpa using same⟩
      rcases List.mem_cons.mp member with here | before
      · subst here
        have split : handledCounters (event :: earlier) = counter :: handledCounters earlier :=
          List.filterMap_cons_some carries
        rw [split] at once
        rw [callsFor, List.filter_cons_of_pos (by simpa using carries)]
        exact congrArg (List.cons event) (absent earlier (List.nodup_cons.mp once).1)
      · have inside : counter ∈ handledCounters earlier :=
          List.mem_filterMap.mpr ⟨event, before, carries⟩
        have other : newest.handledCounter ≠ some counter := by
          intro same
          have split : handledCounters (newest :: earlier) = counter :: handledCounters earlier :=
            List.filterMap_cons_some same
          rw [split] at once
          exact (List.nodup_cons.mp once).1 inside
        rw [callsFor, List.filter_cons_of_neg (by simpa using other)]
        exact ih (once.sublist (List.Sublist.filterMap _ (List.sublist_cons_self _ _))) before

theorem commandDispatch_onceEach (table : List ObcCmd) (dispatches : List Dispatch)
    {state : CmdState} (once : OnceEach state) :
    OnceEach (run (commandDispatch table) dispatches state) := by
  refine run_invariant (fun dispatch current before => ?_) dispatches once
  rw [commandDispatch_run]
  exact run_invariant (cmdStep_onceEach table) _ before

theorem dispatches_tableOk (table : List ObcCmd) (dispatches : List Dispatch) (state : CmdState) :
    (run (commandDispatch table) dispatches state).tableOk = state.tableOk := by
  induction dispatches generalizing state with
  | nil => rfl
  | cons dispatch rest ih =>
      refine (ih _).trans ?_
      rw [commandDispatch_run]
      exact run_tableOk table _ state

theorem bootedCmd_rows {fields : List ObcCmdField} {table : List ObcCmd}
    (audited : (bootedCmd fields table).tableOk = true) : ∀ row ∈ table, row.fn.isSome := by
  rcases bootedCmd_cases fields table with same | ⟨valid, _⟩
  · rw [same] at audited
    cases audited
  · exact rowsValid_fn valid

/-- A command accepted in a dispatch is called once, by the first dispatch from there
on whose clock has reached its tag; while none has, it is not called and keeps its slot. -/
theorem accepted_runs_once {fields : List ObcCmdField} {table : List ObcCmd}
    {prior : List CmdInput} {before : List Dispatch} {dispatch : Dispatch} {command : Tagged}
    (accepted : AcceptedIn table dispatch (run (commandDispatch table) before
      (run (cmdStep table) prior (bootedCmd fields table))) command) (rest : List Dispatch) :
    ∃ row, lookup table command.opcode = some row ∧
      let final := run (commandDispatch table) (before ++ dispatch :: rest)
        (run (cmdStep table) prior (bootedCmd fields table))
      (∀ served, firstReaching command.tag (dispatch :: rest) = some served →
        callsFor command.counter final.history = [command.call row served]) ∧
      (firstReaching command.tag (dispatch :: rest) = none →
        Holds command final ∧ callsFor command.counter final.history = []) := by
  set start := run (cmdStep table) prior (bootedCmd fields table)
  set earlier := run (commandDispatch table) before start
  have onceStart : OnceEach start :=
    run_invariant (cmdStep_onceEach table) prior (onceEach_booted fields table)
  obtain ⟨armedUntil, member, new⟩ := accepted
  have audited : earlier.tableOk = true := by
    by_contra unaudited
    have ignored : polledAt table dispatch earlier =
        { earlier with uplink := earlier.uplink ++ dispatch.arrived } := if_neg unaudited
    rw [ignored] at member
    exact new member
  have rows : ∀ row ∈ table, row.fn.isSome := by
    apply bootedCmd_rows
    rwa [dispatches_tableOk, run_tableOk] at audited
  obtain ⟨holds, row, found⟩ :=
    (polledAt_kept table dispatch earlier).stored command armedUntil member new
  have served : ServedFirst table command row (dispatch :: rest) earlier :=
    Holds.dispatched found (rows row (lookup_mem found)) holds
      (Holds.ran found (rows row (lookup_mem found)))
  have once := commandDispatch_onceEach table (before ++ dispatch :: rest) onceStart
  have split : run (commandDispatch table) (before ++ dispatch :: rest) start =
      run (commandDispatch table) (dispatch :: rest) earlier := run_append _ _ _ _
  refine ⟨row, found, fun last first => ?_, fun never => ?_⟩
  · rw [split] at once ⊢
    exact callsFor_single once.once (served.called last first) rfl
  · rw [split] at once ⊢
    have kept := served.kept never
    refine ⟨kept, List.filter_eq_nil_iff.mpr fun event inside carries => ?_⟩
    obtain ⟨index, stored⟩ := kept
    have waiting := once.waiting index (by rw [stored]; rfl)
    rw [stored] at waiting
    exact waiting (List.mem_filterMap.mpr ⟨event, inside, of_decide_eq_true carries⟩)

/-- The clock of a frame, as the executive publishes it. -/
def frameClock (start : U32) (index : Nat) : U32 := start + BitVec.ofNat 32 (1024 * index)

/-- Dispatches in consecutive frames, each with what arrived before it. -/
def consecutive (start frame : U32) (arrivals : List (List U8)) : List Dispatch :=
  arrivals.mapIdx fun index bytes =>
    { arrived := bytes, now := frameClock start index, frame := frame + BitVec.ofNat 32 index }

def dispatchAt (start frame : U32) (index : Nat) (bytes : List U8) : Dispatch :=
  { arrived := bytes, now := frameClock start index, frame := frame + BitVec.ofNat 32 index }

theorem consecutive_getElem? (start frame : U32) (arrivals : List (List U8)) (index : Nat) :
    (consecutive start frame arrivals)[index]? = arrivals[index]?.map (dispatchAt start frame index) := by
  simp only [consecutive, List.getElem?_mapIdx]
  rfl

theorem consecutive_split {start frame : U32} {arrivals : List (List U8)} {index : Nat}
    {dispatch : Dispatch} (here : (consecutive start frame arrivals)[index]? = some dispatch) :
    (consecutive start frame arrivals).drop index =
      dispatch :: (consecutive start frame arrivals).drop (index + 1) := by
  obtain ⟨inside, same⟩ := List.getElem?_eq_some_iff.mp here
  rw [List.drop_eq_getElem_cons inside, same]

/-- The first dispatch from `index` on that reaches the tag, told by its place. -/
theorem firstReaching_drop {tag start frame : U32} {arrivals : List (List U8)} {index served : Nat}
    {bytes : List U8} (here : arrivals[served]? = some bytes) (behind : index ≤ served)
    (reached : tag ≤ frameClock start served)
    (before : ∀ earlier, index ≤ earlier → earlier < served → frameClock start earlier < tag) :
    firstReaching tag ((consecutive start frame arrivals).drop index) =
      some (dispatchAt start frame served bytes) := by
  have entry (offset : Nat) : ((consecutive start frame arrivals).drop index)[offset]? =
      arrivals[index + offset]?.map (dispatchAt start frame (index + offset)) := by
    rw [List.getElem?_drop, consecutive_getElem?]
  have found := entry (served - index)
  rw [Nat.add_sub_cancel' behind, here, Option.map_some] at found
  obtain ⟨inside, same⟩ := List.getElem?_eq_some_iff.mp found
  refine List.find?_eq_some_iff_getElem.mpr ⟨decide_eq_true reached,
    served - index, inside, same, fun offset below => ?_⟩
  have other := entry offset
  rw [List.getElem?_eq_getElem (below.trans inside)] at other
  obtain ⟨arrived, _, dispatched⟩ := Option.map_eq_some_iff.mp other.symm
  have early := before (index + offset) (by omega) (by omega)
  rw [← dispatched, Bool.not_eq_true', decide_eq_false_iff_not]
  exact BitVec.not_le.mpr early

theorem firstReaching_drop_none {tag start frame : U32} {arrivals : List (List U8)} {index : Nat}
    (early : ∀ later, index ≤ later → later < arrivals.length → frameClock start later < tag) :
    firstReaching tag ((consecutive start frame arrivals).drop index) = none := by
  refine List.find?_eq_none.mpr fun dispatch member => ?_
  obtain ⟨offset, found⟩ := List.mem_iff_getElem?.mp member
  rw [List.getElem?_drop, consecutive_getElem?] at found
  obtain ⟨arrived, there, dispatched⟩ := Option.map_eq_some_iff.mp found
  obtain ⟨inside, _⟩ := List.getElem?_eq_some_iff.mp there
  have before := early (index + offset) (Nat.le_add_right index offset) inside
  rw [← dispatched, decide_eq_true_eq]
  exact BitVec.not_le.mpr before

theorem frameClock_modulo (start : U32) (index : Nat) :
    (frameClock start index).toNat = (start.toNat + 1024 * index) % 2 ^ 32 := by
  rw [frameClock, BitVec.toNat_add, BitVec.toNat_ofNat, Nat.add_mod_mod]

theorem frameClock_toNat {start : U32} {index : Nat} (below : start.toNat + 1024 * index < 2 ^ 32) :
    (frameClock start index).toNat = start.toNat + 1024 * index := by
  rw [frameClock_modulo, Nat.mod_eq_of_lt below]

theorem firstClock_exists {tag start : U32} {index : Nat} (reached : tag ≤ frameClock start index) :
    ∃ first ≤ index, IsLeast {later | tag ≤ frameClock start later} first := by
  have some : ∃ later, tag ≤ frameClock start later := ⟨index, reached⟩
  exact ⟨Nat.find some, Nat.find_min' some reached, Nat.find_spec some,
    fun later there => Nat.find_min' some there⟩

/-- In every run of consecutive frames whose clock stays clear of its wrap, an accepted
command is called once, at the later of its acceptance and the first frame whose clock
has reached its tag, whatever shares the queue with it. -/
theorem command_runs_on_time {fields : List ObcCmdField} {table : List ObcCmd}
    {prior : List CmdInput} {start frame : U32} {arrivals : List (List U8)}
    (range : ∀ index < arrivals.length, start.toNat + 1024 * index < 2 ^ 32 - 1024)
    {index : Nat} {dispatch : Dispatch}
    (here : (consecutive start frame arrivals)[index]? = some dispatch) {command : Tagged}
    (accepted : AcceptedIn table dispatch
      (run (commandDispatch table) ((consecutive start frame arrivals).take index)
        (run (cmdStep table) prior (bootedCmd fields table))) command)
    (tagged : command.tag.toNat ≤ start.toNat + 1024 * (arrivals.length - 1)) :
    ∃ row first, lookup table command.opcode = some row ∧
      IsLeast {later | command.tag ≤ frameClock start later} first ∧
      let served := max index first
      let final := run (commandDispatch table) (consecutive start frame arrivals)
        (run (cmdStep table) prior (bootedCmd fields table))
      callsFor command.counter final.history =
          [.handled row command.arg command.counter (frameClock start served)
            (frame + BitVec.ofNat 32 served)] ∧
        (frameClock start served).toNat =
          max dispatch.now.toNat (frameClock start first).toNat ∧
        command.tag ≤ frameClock start served ∧
        (frameClock start served).toNat < max dispatch.now.toNat command.tag.toNat + 1024 := by
  obtain ⟨row, found, called, _⟩ :=
    accepted_runs_once accepted ((consecutive start frame arrivals).drop (index + 1))
  have whole : (consecutive start frame arrivals).take index ++
      dispatch :: (consecutive start frame arrivals).drop (index + 1) =
      consecutive start frame arrivals := by
    rw [← consecutive_split here, List.take_append_drop]
  rw [whole, ← consecutive_split here] at called
  rw [consecutive_getElem?] at here
  obtain ⟨bytes, arrived, dispatched⟩ := Option.map_eq_some_iff.mp here
  obtain ⟨inside, _⟩ := List.getElem?_eq_some_iff.mp arrived
  have now : dispatch.now = frameClock start index := by rw [← dispatched]; rfl
  have clock (later : Nat) (within : later < arrivals.length) :
      (frameClock start later).toNat = start.toNat + 1024 * later := by
    have below := range later within
    exact frameClock_toNat (by omega)
  have last : command.tag ≤ frameClock start (arrivals.length - 1) := by
    rw [BitVec.le_def, clock _ (by omega)]
    exact tagged
  obtain ⟨first, within, least⟩ := firstClock_exists last
  have early {earlier : Nat} (before : earlier < first) : frameClock start earlier < command.tag :=
    BitVec.not_le.mp fun reached => Nat.not_lt.mpr (least.2 reached) before
  have servedInside : max index first < arrivals.length := by omega
  have reached : command.tag ≤ frameClock start (max index first) := by
    have there : command.tag ≤ frameClock start first := least.1
    rw [BitVec.le_def, clock first (by omega)] at there
    rw [BitVec.le_def, clock _ servedInside]
    omega
  have served := called _ (firstReaching_drop (List.getElem?_eq_getElem servedInside)
    (le_max_left index first) reached fun earlier _ before => early (by omega))
  refine ⟨row, first, found, least, served, ?_, reached, ?_⟩
  · rw [now, clock _ servedInside, clock index inside, clock first (by omega)]
    omega
  · rw [now, clock _ servedInside, clock index inside]
    rcases Nat.eq_zero_or_pos first with none | some
    · omega
    · have below := BitVec.lt_def.mp (early (Nat.sub_lt some Nat.one_pos))
      rw [clock (first - 1) (by omega)] at below
      omega

/-- Two commands share the queue; the later tag waits four frames. -/
def sharedArrivals : List (List U8) :=
  [build opPing.toNat 1 0 0 ++ build opSet.toNat 2 500 3500, [], [], [], []]

theorem flight_command_runs_on_time :
    ∃ row first, lookup obcCmdTable opSet = some row ∧
      IsLeast {later | (3500 : U32) ≤ frameClock 0 later} first ∧
      callsFor 2 (run (commandDispatch obcCmdTable) (consecutive 0 0 sharedArrivals)
          (run (cmdStep obcCmdTable) [] (bootedCmd obcCmdFields obcCmdTable))).history =
        [.handled row 500 2 (frameClock 0 (max 0 first)) (0 + BitVec.ofNat 32 (max 0 first))] := by
  have accepted : AcceptedIn obcCmdTable
      { arrived := build opPing.toNat 1 0 0 ++ build opSet.toNat 2 500 3500, now := 0, frame := 0 }
      (run (commandDispatch obcCmdTable) ((consecutive 0 0 sharedArrivals).take 0)
        (run (cmdStep obcCmdTable) [] (bootedCmd obcCmdFields obcCmdTable)))
      { opcode := opSet, tag := 3500, arg := 500, counter := 2 } :=
    ⟨0, by decide +kernel, by decide +kernel⟩
  obtain ⟨row, first, found, least, called, _⟩ :=
    command_runs_on_time (by decide +kernel) rfl accepted (by decide +kernel)
  exact ⟨row, first, found, least, called⟩

/-- One round of the frame clock. -/
def clockRound : Nat := 2 ^ 22

theorem frameClock_le (start : U32) (index : Nat) :
    (frameClock start index).toNat ≤ 2 ^ 32 - 1024 + start.toNat % 1024 := by
  rw [frameClock_modulo]
  omega

theorem frameClock_greatest (start : U32) :
    ∃ index < clockRound,
      (frameClock start index).toNat = 2 ^ 32 - 1024 + start.toNat % 1024 := by
  have bound := start.isLt
  refine ⟨clockRound - 1 - start.toNat / 1024, ?_, ?_⟩
  · unfold clockRound
    omega
  · rw [frameClock_modulo]
    unfold clockRound
    omega

theorem consecutive_cons (start frame : U32) (bytes : List U8) (more : List (List U8)) :
    dispatchAt start frame 0 bytes :: (consecutive start frame (bytes :: more)).drop 1 =
      consecutive start frame (bytes :: more) := by
  have here : (consecutive start frame (bytes :: more))[0]? =
      some (dispatchAt start frame 0 bytes) := by
    rw [consecutive_getElem?]
    rfl
  exact (consecutive_split here).symm

section Round

variable {fields : List ObcCmdField} {table : List ObcCmd} {prior : List CmdInput}
  {before : List Dispatch} {start frame : U32} {bytes : List U8} {command : Tagged}
  (accepted : AcceptedIn table (dispatchAt start frame 0 bytes)
    (run (commandDispatch table) before (run (cmdStep table) prior (bootedCmd fields table)))
    command)

include accepted

theorem waits_past_round (past : 2 ^ 32 - 1024 + start.toNat % 1024 < command.tag.toNat)
    (more : List (List U8)) :
    let final := run (commandDispatch table) (before ++ consecutive start frame (bytes :: more))
      (run (cmdStep table) prior (bootedCmd fields table))
    command.counter ∉ handledCounters final.history ∧ Holds command final := by
  intro final
  obtain ⟨row, _, _, kept⟩ :=
    accepted_runs_once accepted ((consecutive start frame (bytes :: more)).drop 1)
  rw [consecutive_cons] at kept
  have none : firstReaching command.tag ((consecutive start frame (bytes :: more)).drop 0) =
      none := by
    refine firstReaching_drop_none fun later _ _ => ?_
    have bound := frameClock_le start later
    rw [BitVec.lt_def]
    omega
  obtain ⟨holds, uncalled⟩ := kept none
  refine ⟨fun handled => ?_, holds⟩
  obtain ⟨event, inside, carries⟩ := List.mem_filterMap.mp handled
  have listed : event ∈ callsFor command.counter final.history :=
    List.mem_filter.mpr ⟨inside, decide_eq_true carries⟩
  rw [uncalled] at listed
  cases listed

theorem runs_within_round
    (reachable : command.tag.toNat ≤ 2 ^ 32 - 1024 + start.toNat % 1024)
    {more : List (List U8)} (round : more.length = clockRound) :
    command.counter ∈ handledCounters
      (run (commandDispatch table) (before ++ consecutive start frame (bytes :: more))
        (run (cmdStep table) prior (bootedCmd fields table))).history := by
  obtain ⟨row, _, called, _⟩ :=
    accepted_runs_once accepted ((consecutive start frame (bytes :: more)).drop 1)
  rw [consecutive_cons] at called
  obtain ⟨greatest, below, value⟩ := frameClock_greatest start
  have reached : command.tag ≤ frameClock start greatest := by
    rw [BitVec.le_def, value]
    exact reachable
  obtain ⟨first, within, least⟩ := firstClock_exists reached
  have inside : first < (bytes :: more).length := by
    rw [List.length_cons, round]
    omega
  have served := called _ (firstReaching_drop (List.getElem?_eq_getElem inside)
    (Nat.zero_le first) least.1 fun earlier _ before =>
      BitVec.not_le.mp fun there => Nat.not_lt.mpr (least.2 there) before)
  have listed := List.mem_singleton_self
    (command.call row (dispatchAt start frame first (bytes :: more)[first]))
  rw [← served] at listed
  exact List.mem_filterMap.mpr ⟨_, (List.mem_filter.mp listed).1, rfl⟩

end Round

/-- A command accepted at a dispatch is executed within the round of the clock that
follows, if and only if its tag is not past the last clock of that round; past it, no
number of dispatches executes it and it keeps its slot. -/
theorem executed_within_round {fields : List ObcCmdField} {table : List ObcCmd}
    {prior : List CmdInput} {before : List Dispatch} {start frame : U32} {bytes : List U8}
    {command : Tagged}
    (accepted : AcceptedIn table (dispatchAt start frame 0 bytes)
      (run (commandDispatch table) before (run (cmdStep table) prior (bootedCmd fields table)))
      command) :
    let final (more : List (List U8)) :=
      run (commandDispatch table) (before ++ consecutive start frame (bytes :: more))
        (run (cmdStep table) prior (bootedCmd fields table))
    ((∀ more, more.length = clockRound → command.counter ∈ handledCounters (final more).history) ↔
      command.tag.toNat ≤ 2 ^ 32 - 1024 + start.toNat % 1024) ∧
    (¬command.tag.toNat ≤ 2 ^ 32 - 1024 + start.toNat % 1024 → ∀ more,
      command.counter ∉ handledCounters (final more).history ∧ Holds command (final more)) := by
  intro final
  refine ⟨⟨fun executed => ?_, fun reachable more => runs_within_round accepted reachable⟩,
    fun past => waits_past_round accepted (Nat.lt_of_not_le past)⟩
  by_contra past
  exact (waits_past_round accepted (Nat.lt_of_not_le past) (List.replicate clockRound [])).1
    (executed _ List.length_replicate)

/-- A ping tagged with the last tick there is, accepted in a frame whose clock is zero. -/
def lastTickPing : List U8 := build opPing.toNat 1 0 0xFFFFFFFF

theorem lastTickPing_accepted :
    AcceptedIn obcCmdTable (dispatchAt 0 0 0 lastTickPing)
      (run (commandDispatch obcCmdTable) []
        (run (cmdStep obcCmdTable) [] (bootedCmd obcCmdFields obcCmdTable)))
      { opcode := opPing, tag := 0xFFFFFFFF, arg := 0, counter := 1 } :=
  ⟨0, by decide +kernel, by decide +kernel⟩

theorem flight_executed_within_round :
    ¬∀ more : List (List U8), more.length = clockRound →
      (1 : U32) ∈ handledCounters (run (commandDispatch obcCmdTable)
        ([] ++ consecutive 0 0 (lastTickPing :: more))
        (run (cmdStep obcCmdTable) [] (bootedCmd obcCmdFields obcCmdTable))).history :=
  fun executed => absurd ((executed_within_round lastTickPing_accepted).1.mp executed)
    (by decide +kernel)

/-- It is accepted, and a whole round of dispatches later it still holds its slot. -/
theorem last_tick_never_runs :
    AcceptedIn obcCmdTable (dispatchAt 0 0 0 lastTickPing)
        (run (commandDispatch obcCmdTable) []
          (run (cmdStep obcCmdTable) [] (bootedCmd obcCmdFields obcCmdTable)))
        { opcode := opPing, tag := 0xFFFFFFFF, arg := 0, counter := 1 } ∧
      let final := run (commandDispatch obcCmdTable)
        ([] ++ consecutive 0 0 (lastTickPing :: List.replicate clockRound []))
        (run (cmdStep obcCmdTable) [] (bootedCmd obcCmdFields obcCmdTable))
      1 ∉ handledCounters final.history ∧
        Holds { opcode := opPing, tag := 0xFFFFFFFF, arg := 0, counter := 1 } final := by
  refine ⟨lastTickPing_accepted, ?_⟩
  have waits := waits_past_round lastTickPing_accepted (by decide +kernel)
    (List.replicate clockRound [])
  exact waits

end ObcZero
