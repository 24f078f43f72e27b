import ObcZero.IngestCore

/-! What each operation of the command task can do to its state, and the rules
by which an invariant passes through a poll and through a queue run. -/

namespace ObcZero

open StepSystem

theorem obcCmdQueuePut_cases (opcode : U8) (when arg counter : U32) (state : CmdState) :
    (∃ index, (state.queue index).occupied = false ∧
      obcCmdQueuePut opcode when arg counter state =
        (.ok, { state with
          queue := Function.update state.queue index
            { when := when, arg := arg, counter := counter, opcode := opcode, occupied := true }
          queued := state.queued + 1 })) ∨
    ((∀ index, (state.queue index).occupied = true) ∧
      obcCmdQueuePut opcode when arg counter state = (.errInvalid, state)) := by
  cases found : (List.finRange obcCmdQueueLen).find? fun index =>
      !(state.queue index).occupied with
  | some index =>
      have free := List.find?_some found
      refine .inl ⟨index, by simpa using free, ?_⟩
      simp only [obcCmdQueuePut, found]
  | none =>
      refine .inr ⟨fun index => ?_, ?_⟩
      · have taken := List.find?_eq_none.mp found index (List.mem_finRange index)
        simpa using taken
      · simp only [obcCmdQueuePut, found]

theorem lookup_opcode {table : List ObcCmd} {opcode : U8} {row : ObcCmd}
    (found : lookup table opcode = some row) : row.opcode = opcode := by
  simpa using List.find?_some found

def WellFormed (frame : Nat → U8) (len : U32) : Prop :=
  len = BitVec.ofNat 32 obcCmdFrameLen ∧ getU32 frame obcCmdOSync = obcCmdSync ∧
    getU8 frame obcCmdOLength = BitVec.ofNat 32 obcCmdFrameLen ∧
    getU16 frame obcCmdOSum = obcCmdSum frame obcCmdOSum

def frameOpcode (frame : Nat → U8) : U8 := (getU8 frame obcCmdOOpcode).setWidth 8

def Admissible (row : ObcCmd) (frame : Nat → U8) (state : CmdState) : Prop :=
  row.argMin ≤ getU32 frame obcCmdOArg ∧ getU32 frame obcCmdOArg ≤ row.argMax ∧
    state.lastCounter < getU32 frame obcCmdOCounter ∧
    ∃ index, (state.queue index).occupied = false

def acceptedState (frame : Nat → U8) (index : Fin obcCmdQueueLen) (state : CmdState) : CmdState :=
  { state with
    queue := Function.update state.queue index
      { when := getU32 frame obcCmdOWhen, arg := getU32 frame obcCmdOArg,
        counter := getU32 frame obcCmdOCounter, opcode := frameOpcode frame, occupied := true }
    queued := state.queued + 1
    lastCounter := getU32 frame obcCmdOCounter
    accepted := bump state.accepted
    history := .accepted (frameOpcode frame) (getU32 frame obcCmdOWhen) (getU32 frame obcCmdOArg)
      (getU32 frame obcCmdOCounter) state.armedUntil :: state.history }

/-- A frame is refused for one reason, or it passes every check and takes a free slot. -/
theorem examine_cases (table : List ObcCmd) (frame : Nat → U8) (len : U32) (state : CmdState) :
    (∃ reason, examine table frame len state = refuse reason state) ∨
    (∃ row index, WellFormed frame len ∧ lookup table (frameOpcode frame) = some row ∧
      Admissible row frame state ∧
      (row.critical = true → state.armedOpcode = (frameOpcode frame).setWidth 32) ∧
      (state.queue index).occupied = false ∧
      examine table frame len state =
        (.ok, some obcCmdRejectCount, acceptedState frame index state)) := by
  unfold examine
  split
  · exact .inl ⟨.length, rfl⟩
  rename_i lengthOk
  split
  · exact .inl ⟨.sync, rfl⟩
  rename_i syncOk
  split
  · exact .inl ⟨.length, rfl⟩
  rename_i declaredOk
  split
  · exact .inl ⟨.sum, rfl⟩
  rename_i sumOk
  have wellFormed : WellFormed frame len :=
    ⟨not_not.mp lengthOk, not_not.mp syncOk, not_not.mp declaredOk, not_not.mp sumOk⟩
  dsimp only
  split
  · exact .inl ⟨.opcode, rfl⟩
  rename_i row found
  split
  · exact .inl ⟨.arg, rfl⟩
  rename_i argOk
  split
  · exact .inl ⟨.replay, rfl⟩
  rename_i counterOk
  split
  · exact .inl ⟨.notArmed, rfl⟩
  rename_i armedOk
  rcases obcCmdQueuePut_cases (frameOpcode frame) (getU32 frame obcCmdOWhen)
      (getU32 frame obcCmdOArg) (getU32 frame obcCmdOCounter) state with
    ⟨index, free, put⟩ | ⟨full, put⟩
  · right
    refine ⟨row, index, wellFormed, found, ⟨?_, ?_, ?_, index, free⟩, ?_, free, ?_⟩
    · simpa using (not_or.mp argOk).1
    · simpa using (not_or.mp argOk).2
    · simpa using counterOk
    · intro critical
      by_contra unarmed
      exact armedOk ⟨critical, unarmed⟩
    · rw [frameOpcode] at put
      rw [put]
      rfl
  · left
    rw [frameOpcode] at put
    rw [put]
    exact ⟨.queue, rfl⟩

theorem examine_notArmed {table : List ObcCmd} {frame : Nat → U8} {len : U32} {row : ObcCmd}
    {state : CmdState} (formed : WellFormed frame len)
    (found : lookup table (frameOpcode frame) = some row) (admissible : Admissible row frame state)
    (critical : row.critical = true)
    (unarmed : state.armedOpcode ≠ (frameOpcode frame).setWidth 32) :
    examine table frame len state = refuse .notArmed state := by
  obtain ⟨length, sync, declared, sum⟩ := formed
  obtain ⟨low, high, fresh, _⟩ := admissible
  have inRange : ¬(getU32 frame obcCmdOArg < row.argMin ∨ row.argMax < getU32 frame obcCmdOArg) := by
    rw [not_or, BitVec.not_lt, BitVec.not_lt]
    exact ⟨low, high⟩
  unfold examine
  rw [if_neg (not_not_intro length), if_neg (not_not_intro sync), if_neg (not_not_intro declared),
    if_neg (not_not_intro sum)]
  rw [frameOpcode] at found unarmed
  simp only [found]
  rw [if_neg inRange, if_neg (BitVec.not_le.mpr fresh), if_pos ⟨critical, unarmed⟩]

theorem announceOnce_cases (reason : Reject) (state : CmdState) :
    ∃ announced serial,
      announceOnce reason state = { state with announced := announced, serial := serial } := by
  by_cases spoken : state.announced &&& (1#32 <<< reason.index) ≠ 0
  · exact ⟨state.announced, state.serial, if_pos spoken⟩
  · exact ⟨_, _, if_neg spoken⟩

theorem refuse_cases (reason : Reject) (state : CmdState) :
    ∃ announced serial, (refuse reason state).2.2 =
      { state with
        rejected := Function.update state.rejected reason (bump (state.rejected reason))
        announced := announced, serial := serial } :=
  announceOnce_cases reason _

theorem obcCmdIngest_cases (table : List ObcCmd) (frame : Option (Nat → U8)) (len : U32)
    (state : CmdState) :
    (obcCmdIngest table frame len state).2.2 = state ∨
    (∃ reason, (obcCmdIngest table frame len state).2.2 =
      (refuse reason { state with examined := bump state.examined }).2.2) ∨
    (∃ bytes row index, frame = some bytes ∧ WellFormed bytes len ∧
      lookup table (frameOpcode bytes) = some row ∧ Admissible row bytes state ∧
      (row.critical = true → state.armedOpcode = (frameOpcode bytes).setWidth 32) ∧
      (state.queue index).occupied = false ∧
      (obcCmdIngest table frame len state).2.2 =
        acceptedState bytes index { state with examined := bump state.examined }) := by
  cases frame with
  | none => exact .inl rfl
  | some bytes =>
      by_cases ready : state.tableOk = true
      · have ingested : obcCmdIngest table (some bytes) len state =
            examine table bytes len { state with examined := bump state.examined } := if_pos ready
        rcases examine_cases table bytes len { state with examined := bump state.examined } with
          ⟨reason, refused⟩ | ⟨row, index, formed, found, admissible, armed, free, accepted⟩
        · exact .inr (.inl ⟨reason, by rw [ingested, refused]⟩)
        · exact .inr (.inr ⟨bytes, row, index, rfl, formed, found, admissible, armed, free,
            by rw [ingested, accepted]⟩)
      · left
        have ignored : obcCmdIngest table (some bytes) len state = (.errInvalid, none, state) :=
          if_neg ready
        rw [ignored]

def completedFrame (byte : U8) (state : CmdState) : Nat → U8 :=
  Function.update state.rx state.fill byte

theorem takeByte_cases (table : List ObcCmd) (byte : U8) (state : CmdState) :
    (∃ fill, takeByte table byte state =
      { state with rx := completedFrame byte state, fill := fill }) ∨
    (state.fill.val + 1 = obcCmdFrameLen ∧ takeByte table byte state =
      { (obcCmdIngest table (some (completedFrame byte state)) (BitVec.ofNat 32 obcCmdFrameLen)
          { state with rx := completedFrame byte state }).2.2 with fill := 0 }) := by
  unfold takeByte
  split
  · exact .inl ⟨_, rfl⟩
  · rename_i full
    have bound := state.fill.isLt
    exact .inr ⟨by omega, rfl⟩

theorem foldl_oldest_due {now : U32} {queue : Fin obcCmdQueueLen → ObcCmdSlot}
    (indices : List (Fin obcCmdQueueLen)) (start : Option (Fin obcCmdQueueLen))
    (startDue : ∀ chosen ∈ start, (queue chosen).occupied = true ∧ (queue chosen).when ≤ now) :
    ∀ chosen ∈ indices.foldl (fun oldest index =>
      if !(queue index).occupied then oldest
      else if now < (queue index).when then oldest
      else match oldest with
        | none => some index
        | some chosen =>
            if (queue index).when < (queue chosen).when then some index else oldest) start,
      (queue chosen).occupied = true ∧ (queue chosen).when ≤ now := by
  induction indices generalizing start with
  | nil => exact startDue
  | cons index rest ih =>
      rw [List.foldl_cons]
      apply ih
      intro chosen
      split
      · exact startDue chosen
      rename_i occupied
      split
      · exact startDue chosen
      rename_i due
      have here : (queue index).occupied = true ∧ (queue index).when ≤ now :=
        ⟨by simpa using occupied, by simpa using due⟩
      cases start with
      | none =>
          intro same
          obtain rfl := Option.mem_some.mp same
          exact here
      | some earlier =>
          dsimp only
          split
          · intro same
            obtain rfl := Option.mem_some.mp same
            exact here
          · exact startDue chosen

theorem oldestDue_due {now : U32} {queue : Fin obcCmdQueueLen → ObcCmdSlot}
    {index : Fin obcCmdQueueLen} (found : oldestDue now queue = some index) :
    (queue index).occupied = true ∧ (queue index).when ≤ now :=
  foldl_oldest_due (List.finRange obcCmdQueueLen) none (by simp) index found

structure HandlerFrame (state after : CmdState) : Prop where
  queue : after.queue = state.queue
  armedOpcode : after.armedOpcode = state.armedOpcode
  armedUntil : after.armedUntil = state.armedUntil
  lastCounter : after.lastCounter = state.lastCounter
  history : after.history = state.history
  examined : after.examined = state.examined
  accepted : after.accepted = state.accepted
  rejected : after.rejected = state.rejected
  tableOk : after.tableOk = state.tableOk

theorem CmdFn.call_frame (fn : CmdFn) (arg : U32) (state : CmdState) :
    HandlerFrame state (fn.call arg state) := by
  cases fn <;> exact ⟨rfl, rfl, rfl, rfl, rfl, rfl, rfl, rfl, rfl⟩

theorem CmdFn.call_armTarget (fn : CmdFn) (arg : U32) {state : CmdState}
    (clear : state.armTarget = 0) :
    (fn.call arg state).armTarget = if fn = .cmdArm then arg else 0 := by
  cases fn with
  | cmdArm => rfl
  | cmdPing => exact clear
  | cmdSet => exact clear
  | cmdSafe => exact clear

theorem countLate_frame (now : U32) (slot : ObcCmdSlot) (state : CmdState) :
    HandlerFrame state (countLate now slot state) := by
  unfold countLate
  split <;> exact ⟨rfl, rfl, rfl, rfl, rfl, rfl, rfl, rfl, rfl⟩

theorem countLate_armTarget (now : U32) (slot : ObcCmdSlot) (state : CmdState) :
    (countLate now slot state).armTarget = state.armTarget := by
  unfold countLate
  split <;> rfl

def Arms (fn : CmdFn) (arg : U32) : Prop := fn = .cmdArm ∧ arg ≠ 0

instance (fn : CmdFn) (arg : U32) : Decidable (Arms fn arg) := instDecidableAnd

theorem execute_cases (row : ObcCmd) (fn : CmdFn) (slot : ObcCmdSlot) (now frame : U32)
    {state : CmdState} (clear : state.armTarget = 0) :
    (Arms fn slot.arg ∧ execute row fn slot now frame state =
      { fn.call slot.arg state with
        executed := bump (fn.call slot.arg state).executed
        history := .handled row slot.arg slot.counter now frame :: state.history
        armedOpcode := slot.arg, armedUntil := frame + obcCmdArmFrames, armTarget := 0 }) ∨
    (¬Arms fn slot.arg ∧ execute row fn slot now frame state =
      { fn.call slot.arg state with
        executed := bump (fn.call slot.arg state).executed
        history := .handled row slot.arg slot.counter now frame :: state.history
        armTarget := 0 }) := by
  have target := fn.call_armTarget slot.arg clear
  have history := (fn.call_frame slot.arg state).history
  by_cases arms : Arms fn slot.arg
  · obtain ⟨isArm, names⟩ := arms
    rw [if_pos isArm] at target
    refine .inl ⟨⟨isArm, names⟩, ?_⟩
    simp only [execute, establishArming, target, ne_eq, names, not_false_eq_true, ↓reduceIte,
      history]
  · have idle : (fn.call slot.arg state).armTarget = 0 := by
      rw [target]
      split
      · rename_i isArm
        by_contra names
        exact arms ⟨isArm, names⟩
      · rfl
    refine .inr ⟨arms, ?_⟩
    simp only [execute, establishArming, idle, ne_eq, not_true_eq_false, ↓reduceIte, history]

/-- What a pass over one slot does to the arming and to what is remembered: the
slot is given up, at most one handler is called, and only the arm handler arms. -/
structure SlotRun (table : List ObcCmd) (now frame : U32) (index : Fin obcCmdQueueLen)
    (state after : CmdState) : Prop where
  vacated : after.queue =
    Function.update state.queue index { state.queue index with occupied := false }
  clear : after.armTarget = 0
  lastCounter : after.lastCounter = state.lastCounter
  tableOk : after.tableOk = state.tableOk
  effect :
    (after.history = state.history ∧ after.armedOpcode = state.armedOpcode ∧
      after.armedUntil = state.armedUntil) ∨
    (∃ row fn, lookup table (state.queue index).opcode = some row ∧ row.fn = some fn ∧
      after.history =
        .handled row (state.queue index).arg (state.queue index).counter now frame ::
          state.history ∧
      ((Arms fn (state.queue index).arg ∧ after.armedOpcode = (state.queue index).arg ∧
          after.armedUntil = frame + obcCmdArmFrames) ∨
        (¬Arms fn (state.queue index).arg ∧ after.armedOpcode = state.armedOpcode ∧
          after.armedUntil = state.armedUntil)))

theorem SlotRun.kept {table : List ObcCmd} {now frame : U32} {index position : Fin obcCmdQueueLen}
    {state after : CmdState} (ran : SlotRun table now frame index state after)
    (still : (after.queue position).occupied = true) :
    after.queue position = state.queue position := by
  rw [ran.vacated] at still ⊢
  by_cases here : position = index
  · subst here
    simp at still
  · exact Function.update_of_ne here _ _

theorem runSlot_slotRun (table : List ObcCmd) (now frame : U32) (index : Fin obcCmdQueueLen)
    {state : CmdState} (clear : state.armTarget = 0) :
    SlotRun table now frame index state (runSlot table now frame index state) := by
  cases found : lookup table (state.queue index).opcode with
  | none =>
      have dropped : runSlot table now frame index state = vacate index state := by
        simp only [runSlot, found]
      rw [dropped]
      exact ⟨rfl, clear, rfl, rfl, .inl ⟨rfl, rfl, rfl⟩⟩
  | some row =>
      set counted := countLate now (state.queue index) (vacate index state) with countedEq
      have late := countLate_frame now (state.queue index) (vacate index state)
      have still : counted.armTarget = 0 :=
        (countLate_armTarget now (state.queue index) (vacate index state)).trans clear
      cases handler : row.fn with
      | none =>
          have skipped : runSlot table now frame index state = counted := by
            simp only [runSlot, found, handler, countedEq]
          rw [skipped]
          exact ⟨late.queue, still, late.lastCounter, late.tableOk,
            .inl ⟨late.history, late.armedOpcode, late.armedUntil⟩⟩
      | some fn =>
          have executed : runSlot table now frame index state =
              execute row fn (state.queue index) now frame counted := by
            simp only [runSlot, found, handler, countedEq]
          have called := fn.call_frame (state.queue index).arg counted
          have history : CmdEvent.handled row (state.queue index).arg (state.queue index).counter
              now frame :: counted.history = .handled row (state.queue index).arg
                (state.queue index).counter now frame :: state.history :=
            congrArg _ late.history
          rw [executed]
          rcases execute_cases row fn (state.queue index) now frame still with
            ⟨arms, run⟩ | ⟨idle, run⟩
          · rw [run]
            exact ⟨called.queue.trans late.queue, rfl, called.lastCounter.trans late.lastCounter,
              called.tableOk.trans late.tableOk,
              .inr ⟨row, fn, found, handler, history, .inl ⟨arms, rfl, rfl⟩⟩⟩
          · rw [run]
            exact ⟨called.queue.trans late.queue, rfl, called.lastCounter.trans late.lastCounter,
              called.tableOk.trans late.tableOk,
              .inr ⟨row, fn, found, handler, history,
                .inr ⟨idle, called.armedOpcode.trans late.armedOpcode,
                  called.armedUntil.trans late.armedUntil⟩⟩⟩

theorem obcCmdInit_ok {fields : List ObcCmdField} {table : List ObcCmd} {boot start : CmdState}
    (ready : obcCmdInit fields table boot = (.ok, start)) :
    start = { obcCmdQueueInit boot with
      examined := 0, accepted := 0, fill := 0, announced := 0, lastCounter := 0
      rejected := fun _ => 0, tableOk := true, history := [] } := by
  unfold obcCmdInit at ready
  split at ready
  · cases ready
  split at ready
  · cases ready
  split at ready
  · cases ready
  exact (congrArg Prod.snd ready).symm

/-- What a run of the queue preserves when expiry and every pass over a due slot do. -/
theorem obcCmdQueueRun_invariant {table : List ObcCmd} {now frame : U32}
    {invariant : CmdState → Prop}
    (expired : ∀ state, invariant state → invariant (expireArming frame state))
    (passed : ∀ index state, (state.queue index).occupied = true →
      (state.queue index).when ≤ now → invariant state →
      invariant (runSlot table now frame index state))
    {state : CmdState} (initial : invariant state) :
    invariant (obcCmdQueueRun table now frame state) := by
  have passes (count : Nat) (current : CmdState) (holds : invariant current) :
      invariant (runPasses table now frame count current) := by
    induction count generalizing current with
    | zero => exact holds
    | succ count ih =>
        rw [runPasses]
        cases found : oldestDue now current.queue with
        | none => exact holds
        | some index =>
            obtain ⟨occupied, due⟩ := oldestDue_due found
            exact ih _ (passed index current occupied due holds)
  exact passes obcCmdQueueLen _ (expired state initial)

theorem obcCmdPoll_invariant {table : List ObcCmd} {allowed : U8 → CmdState → Prop}
    {invariant : CmdState → Prop}
    (drained : ∀ state uplink, invariant state → invariant { state with uplink := uplink })
    (taken : ∀ byte state, allowed byte state → invariant state →
      invariant (takeByte table byte state))
    (truncated : ∀ state, invariant state → invariant
      (refuse .length { state with fill := 0, examined := bump state.examined }).2.2)
    {state : CmdState}
    (meets : Meets (takeByte table) allowed (state.uplink.take obcCmdRxBytes)
      { state with uplink := state.uplink.drop obcCmdRxBytes })
    (initial : invariant state) : invariant (obcCmdPoll table state) := by
  have polled := meets_invariant taken meets (drained state _ initial)
  unfold obcCmdPoll
  split
  · dsimp only
    split
    · exact truncated _ polled
    · exact polled
  · exact initial

/-- What a run of the queue leaves of the way in: the audit, the receive buffer, the
uplink and the console. -/
structure LinkKept (state after : CmdState) : Prop where
  tableOk : after.tableOk = state.tableOk
  rx : after.rx = state.rx
  fill : after.fill = state.fill
  uplink : after.uplink = state.uplink
  serial : after.serial = state.serial
  announced : after.announced = state.announced

theorem LinkKept.refl (state : CmdState) : LinkKept state state := ⟨rfl, rfl, rfl, rfl, rfl, rfl⟩

theorem LinkKept.trans {first second third : CmdState} (one : LinkKept first second)
    (other : LinkKept second third) : LinkKept first third :=
  ⟨other.tableOk.trans one.tableOk, other.rx.trans one.rx, other.fill.trans one.fill,
    other.uplink.trans one.uplink, other.serial.trans one.serial,
    other.announced.trans one.announced⟩

theorem CmdFn.call_linkKept (fn : CmdFn) (arg : U32) (state : CmdState) :
    LinkKept state (fn.call arg state) := by
  cases fn <;> exact ⟨rfl, rfl, rfl, rfl, rfl, rfl⟩

theorem countLate_linkKept (now : U32) (slot : ObcCmdSlot) (state : CmdState) :
    LinkKept state (countLate now slot state) := by
  unfold countLate
  split <;> exact ⟨rfl, rfl, rfl, rfl, rfl, rfl⟩

theorem execute_linkKept (row : ObcCmd) (fn : CmdFn) (slot : ObcCmdSlot) (now frame : U32)
    (state : CmdState) : LinkKept state (execute row fn slot now frame state) := by
  refine (fn.call_linkKept slot.arg state).trans ?_
  unfold execute establishArming
  dsimp only
  split <;> exact ⟨rfl, rfl, rfl, rfl, rfl, rfl⟩

theorem runSlot_linkKept (table : List ObcCmd) (now frame : U32) (index : Fin obcCmdQueueLen)
    (state : CmdState) : LinkKept state (runSlot table now frame index state) := by
  have vacated : LinkKept state (vacate index state) := ⟨rfl, rfl, rfl, rfl, rfl, rfl⟩
  have counted := vacated.trans (countLate_linkKept now (state.queue index) (vacate index state))
  unfold runSlot
  dsimp only
  split
  · exact vacated
  split
  · exact counted
  · exact counted.trans (execute_linkKept _ _ _ now frame _)

theorem obcCmdQueueRun_linkKept (table : List ObcCmd) (now frame : U32) (state : CmdState) :
    LinkKept state (obcCmdQueueRun table now frame state) := by
  refine obcCmdQueueRun_invariant ?_ ?_ (LinkKept.refl state)
  · intro current before
    unfold expireArming
    split
    · exact before.trans ⟨rfl, rfl, rfl, rfl, rfl, rfl⟩
    · exact before
  · intro index current _ _ before
    exact before.trans (runSlot_linkKept table now frame index current)

theorem obcCmdIngest_link (table : List ObcCmd) (frame : Option (Nat → U8)) (len : U32)
    (state : CmdState) :
    (obcCmdIngest table frame len state).2.2.uplink = state.uplink ∧
      (obcCmdIngest table frame len state).2.2.tableOk = state.tableOk ∧
      (obcCmdIngest table frame len state).2.2.rx = state.rx ∧
      (obcCmdIngest table frame len state).2.2.fill = state.fill := by
  rcases obcCmdIngest_cases table frame len state with
    unchanged | ⟨reason, refused⟩ | ⟨bytes, row, index, _, _, _, _, _, _, taken⟩
  · rw [unchanged]
    exact ⟨rfl, rfl, rfl, rfl⟩
  · obtain ⟨announced, serial, after⟩ :=
      refuse_cases reason { state with examined := bump state.examined }
    rw [refused, after]
    exact ⟨rfl, rfl, rfl, rfl⟩
  · rw [taken]
    exact ⟨rfl, rfl, rfl, rfl⟩

theorem cmdStep_tableOk (table : List ObcCmd) (input : CmdInput) (state : CmdState) :
    (cmdStep table input state).tableOk = state.tableOk := by
  cases input with
  | receive bytes => rfl
  | ingest frame len => exact (obcCmdIngest_link table frame len state).2.1
  | queueRun now frame => exact (obcCmdQueueRun_linkKept table now frame state).tableOk
  | queueInit => rfl
  | poll =>
      refine @obcCmdPoll_invariant table (fun _ _ => True)
        (fun current => current.tableOk = state.tableOk) (fun _ _ before => before) ?_ ?_ state
        (meets_always (fun _ _ => trivial) _ _) rfl
      · intro byte current _ before
        rcases takeByte_cases table byte current with ⟨fill, stored⟩ | ⟨_, completed⟩
        · rw [stored]
          exact before
        · rw [completed]
          exact (obcCmdIngest_link table _ _ _).2.1.trans before
      · intro current before
        obtain ⟨announced, serial, refused⟩ := refuse_cases .length
          { current with fill := 0, examined := bump current.examined }
        rw [refused]
        exact before

theorem run_tableOk (table : List ObcCmd) (inputs : List CmdInput) (state : CmdState) :
    (run (cmdStep table) inputs state).tableOk = state.tableOk := by
  induction inputs generalizing state with
  | nil => rfl
  | cons input rest ih => exact (ih _).trans (cmdStep_tableOk table input state)

structure SameArming (state after : CmdState) : Prop where
  queue : after.queue = state.queue
  armedOpcode : after.armedOpcode = state.armedOpcode
  armedUntil : after.armedUntil = state.armedUntil
  armTarget : after.armTarget = state.armTarget
  lastCounter : after.lastCounter = state.lastCounter
  history : after.history = state.history
  tableOk : after.tableOk = state.tableOk

/-- An invariant of the arming that acceptances keep; `ingests` is what it asks of
a frame that reaches the parser. -/
structure ArmingRule (table : List ObcCmd) (ingests : (Nat → U8) → U32 → CmdState → Prop)
    (invariant : CmdState → Prop) : Prop where
  congr : ∀ {state after}, invariant state → SameArming state after → invariant after
  blind : ∀ {frame len state after}, ingests frame len state → SameArming state after →
    ingests frame len after
  accepted : ∀ {frame len row index state}, ingests frame len state → WellFormed frame len →
    lookup table (frameOpcode frame) = some row → Admissible row frame state →
    (row.critical = true → state.armedOpcode = (frameOpcode frame).setWidth 32) →
    invariant state → invariant (acceptedState frame index state)

def TakesAllowed (ingests : (Nat → U8) → U32 → CmdState → Prop) (byte : U8) (state : CmdState) :
    Prop :=
  state.fill.val + 1 = obcCmdFrameLen →
    ingests (completedFrame byte state) (BitVec.ofNat 32 obcCmdFrameLen) state

section Rule

variable {table : List ObcCmd} {ingests : (Nat → U8) → U32 → CmdState → Prop}
  {invariant : CmdState → Prop} (rule : ArmingRule table ingests invariant)

include rule

theorem ArmingRule.refused {state : CmdState} (reason : Reject) (holds : invariant state) :
    invariant (refuse reason state).2.2 := by
  obtain ⟨announced, serial, after⟩ := refuse_cases reason state
  rw [after]
  exact rule.congr holds ⟨rfl, rfl, rfl, rfl, rfl, rfl, rfl⟩

theorem ArmingRule.ingested {frame : Option (Nat → U8)} {len : U32} {state : CmdState}
    (allowed : ∀ bytes ∈ frame, ingests bytes len state) (holds : invariant state) :
    invariant (obcCmdIngest table frame len state).2.2 := by
  have same : SameArming state { state with examined := bump state.examined } :=
    ⟨rfl, rfl, rfl, rfl, rfl, rfl, rfl⟩
  rcases obcCmdIngest_cases table frame len state with
    unchanged | ⟨reason, refused⟩ | ⟨bytes, row, index, given, formed, found, fits, armed, _, taken⟩
  · rw [unchanged]
    exact holds
  · rw [refused]
    exact rule.refused reason (rule.congr holds same)
  · rw [taken]
    exact rule.accepted (rule.blind (allowed bytes given) same) formed found fits armed
      (rule.congr holds same)

theorem ArmingRule.tookByte {byte : U8} {state : CmdState}
    (allowed : TakesAllowed ingests byte state) (holds : invariant state) :
    invariant (takeByte table byte state) := by
  rcases takeByte_cases table byte state with ⟨fill, stored⟩ | ⟨full, completed⟩
  · rw [stored]
    exact rule.congr holds ⟨rfl, rfl, rfl, rfl, rfl, rfl, rfl⟩
  · rw [completed]
    have same : SameArming state { state with rx := completedFrame byte state } :=
      ⟨rfl, rfl, rfl, rfl, rfl, rfl, rfl⟩
    have given : ∀ bytes ∈ some (completedFrame byte state),
        ingests bytes (BitVec.ofNat 32 obcCmdFrameLen)
          { state with rx := completedFrame byte state } := by
      intro bytes member
      obtain rfl := Option.mem_some.mp member
      exact rule.blind (allowed full) same
    exact rule.congr (rule.ingested given (rule.congr holds same)) ⟨rfl, rfl, rfl, rfl, rfl, rfl, rfl⟩

theorem ArmingRule.polled {state : CmdState}
    (meets : Meets (takeByte table) (TakesAllowed ingests) (state.uplink.take obcCmdRxBytes)
      { state with uplink := state.uplink.drop obcCmdRxBytes })
    (holds : invariant state) : invariant (obcCmdPoll table state) := by
  refine obcCmdPoll_invariant ?_ (fun _ _ => rule.tookByte) ?_ meets holds
  · intro current uplink before
    exact rule.congr before ⟨rfl, rfl, rfl, rfl, rfl, rfl, rfl⟩
  · intro current before
    have counted : invariant { current with fill := 0, examined := bump current.examined } :=
      rule.congr before ⟨rfl, rfl, rfl, rfl, rfl, rfl, rfl⟩
    exact rule.refused .length counted

end Rule

end ObcZero
