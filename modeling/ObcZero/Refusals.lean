import ObcZero.IngestVerdict

/-! Refusing changes nothing else: what a refused frame and a truncated one leave as
it was, and how often the console hears of it. -/

namespace ObcZero

open StepSystem

/-- What a refusal for `reason` does to the counters, and what it leaves alone. -/
structure OnlyRefused (reason : Reject) (state after : CmdState) : Prop where
  queue : after.queue = state.queue
  queued : after.queued = state.queued
  lastCounter : after.lastCounter = state.lastCounter
  armedOpcode : after.armedOpcode = state.armedOpcode
  armedUntil : after.armedUntil = state.armedUntil
  accepted : after.accepted = state.accepted
  executed : after.executed = state.executed
  late : after.late = state.late
  noopArg : after.noopArg = state.noopArg
  pingCount : after.pingCount = state.pingCount
  armTarget : after.armTarget = state.armTarget
  safeRequested : after.safeRequested = state.safeRequested
  history : after.history = state.history
  examined : after.examined = bump state.examined
  rejected : after.rejected =
    Function.update state.rejected reason (bump (state.rejected reason))

def rejectionNotice (reason : Reject) : List String :=
  ["cmd    : rejected, first ", reasonName reason, "\r\n"]

def reasonBit (reason : Reject) : U32 := 1#32 <<< reason.index

theorem refuse_onlyRefused (reason : Reject) (state : CmdState) :
    OnlyRefused reason state
      (refuse reason { state with examined := bump state.examined }).2.2 := by
  obtain ⟨announced, serial, refused⟩ :=
    refuse_cases reason { state with examined := bump state.examined }
  rw [refused]
  constructor <;> rfl

theorem Reject.index_injective {first second : Reject} (same : first.index = second.index) :
    first = second := by
  cases first <;> cases second <;> first | rfl | cases same

theorem refuse_told (reason : Reject) (state : CmdState) :
    (refuse reason state).2.1 = some reason.index := rfl

theorem examine_refusal (table : List ObcCmd) (frame : Nat → U8) (len : U32) (state : CmdState)
    {reason : Reject} (told : (examine table frame len state).2.1 = some reason.index) :
    examine table frame len state = refuse reason state := by
  rcases examine_cases table frame len state with
    ⟨given, refused⟩ | ⟨row, index, _, _, _, _, _, accepted⟩
  · rw [refused, refuse_told] at told
    rw [refused, Reject.index_injective (Option.some.inj told)]
  · rw [accepted] at told
    cases reason <;> cases Option.some.inj told

theorem reasonBit_set (announced : U32) (reason : Reject) :
    announced &&& reasonBit reason ≠ 0 ↔ announced.getLsbD reason.index.toNat = true := by
  have small : reason.index.toNat < 32 := by cases reason <;> decide
  have bit : reasonBit reason = BitVec.twoPow 32 reason.index.toNat := by
    rw [reasonBit, BitVec.shiftLeft_eq', BitVec.twoPow_eq]
  rw [bit, BitVec.and_twoPow]
  cases announced.getLsbD reason.index.toNat with
  | true =>
      simp only [↓reduceIte, ne_eq, iff_true]
      intro zero
      have value := congrArg BitVec.toNat zero
      rw [BitVec.toNat_twoPow_of_lt small] at value
      simp at value
  | false => simp

theorem reasonBit_added (announced : U32) (first second : Reject) :
    (announced ||| reasonBit first) &&& reasonBit second ≠ 0 ↔
      announced &&& reasonBit second ≠ 0 ∨ second = first := by
  have bit : reasonBit first = BitVec.twoPow 32 first.index.toNat := by
    rw [reasonBit, BitVec.shiftLeft_eq', BitVec.twoPow_eq]
  have small : first.index.toNat < 32 := by cases first <;> decide
  rw [reasonBit_set, reasonBit_set, BitVec.getLsbD_or, bit, BitVec.getLsbD_twoPow]
  simp only [small, decide_true, Bool.true_and, Bool.or_eq_true, decide_eq_true_eq]
  constructor
  · rintro (already | same)
    · exact .inl already
    · exact .inr (Reject.index_injective (BitVec.eq_of_toNat_eq same.symm))
  · rintro (already | same)
    · exact .inl already
    · exact .inr (by rw [same])

/-- `told` are the reasons the console has heard of since it had printed `spoken`. -/
structure AnnouncedOnce (spoken : List String) (told : List Reject) (state : CmdState) : Prop where
  serial : state.serial = spoken ++ told.flatMap rejectionNotice
  once : told.Nodup
  bits : ∀ reason, state.announced &&& reasonBit reason ≠ 0 ↔ reason ∈ told

def Announces (spoken : List String) (state : CmdState) : Prop :=
  ∃ told, AnnouncedOnce spoken told state

theorem AnnouncedOnce.congr {spoken : List String} {told : List Reject} {state after : CmdState}
    (heard : AnnouncedOnce spoken told state) (serial : after.serial = state.serial)
    (announced : after.announced = state.announced) : AnnouncedOnce spoken told after := by
  constructor
  · rw [serial]
    exact heard.serial
  · exact heard.once
  · rw [announced]
    exact heard.bits

theorem Announces.refused {spoken : List String} {state : CmdState}
    (announces : Announces spoken state) (reason : Reject) :
    Announces spoken (refuse reason state).2.2 := by
  obtain ⟨told, heard⟩ := announces
  by_cases already : state.announced &&& reasonBit reason ≠ 0
  · have silent : (refuse reason state).2.2 =
        { state with
          rejected := Function.update state.rejected reason (bump (state.rejected reason)) } :=
      if_pos already
    rw [silent]
    exact ⟨told, heard.congr rfl rfl⟩
  · have fresh : reason ∉ told := fun member => already ((heard.bits reason).mpr member)
    have spoke : (refuse reason state).2.2 =
        { state with
          rejected := Function.update state.rejected reason (bump (state.rejected reason))
          announced := state.announced ||| reasonBit reason
          serial := state.serial ++ rejectionNotice reason } := if_neg already
    rw [spoke]
    refine ⟨told ++ [reason], ?_, ?_, fun other => ?_⟩
    · simp [heard.serial]
    · exact List.nodup_append.mpr ⟨heard.once, by simp, fun earlier member later here => by
        rw [List.mem_singleton.mp here]
        exact ne_of_mem_of_not_mem member fresh⟩
    · rw [reasonBit_added, heard.bits other, List.mem_append, List.mem_singleton]

theorem Announces.congr {spoken : List String} {state after : CmdState}
    (announces : Announces spoken state) (serial : after.serial = state.serial)
    (announced : after.announced = state.announced) : Announces spoken after := by
  obtain ⟨told, heard⟩ := announces
  exact ⟨told, heard.congr serial announced⟩

theorem Announces.ingested {spoken : List String} {state : CmdState}
    (announces : Announces spoken state) (table : List ObcCmd) (frame : Option (Nat → U8))
    (len : U32) : Announces spoken (obcCmdIngest table frame len state).2.2 := by
  have counted : Announces spoken { state with examined := bump state.examined } :=
    announces.congr rfl rfl
  rcases obcCmdIngest_cases table frame len state with
    unchanged | ⟨reason, refused⟩ | ⟨bytes, row, index, _, _, _, _, _, _, taken⟩
  · rw [unchanged]
    exact announces
  · rw [refused]
    exact counted.refused reason
  · rw [taken]
    exact announces.congr rfl rfl

theorem Announces.polled {spoken : List String} {state : CmdState}
    (announces : Announces spoken state) (table : List ObcCmd) :
    Announces spoken (obcCmdPoll table state) := by
  refine obcCmdPoll_invariant (fun _ _ before => before.congr rfl rfl) ?_ ?_
    (meets_always (fun _ _ => trivial) _ _) announces
  · intro byte current _ before
    rcases takeByte_cases table byte current with ⟨fill, stored⟩ | ⟨_, completed⟩
    · rw [stored]
      exact before.congr rfl rfl
    · rw [completed]
      have held : Announces spoken { current with rx := completedFrame byte current } :=
        before.congr rfl rfl
      exact (held.ingested table _ _).congr rfl rfl
  · intro current before
    have counted : Announces spoken
        { current with fill := 0, examined := bump current.examined } := before.congr rfl rfl
    exact counted.refused .length

theorem cmdStep_announces {spoken : List String} (table : List ObcCmd) (input : CmdInput)
    (state : CmdState) (announces : Announces spoken state) :
    Announces spoken (cmdStep table input state) := by
  cases input with
  | receive bytes => exact announces.congr rfl rfl
  | ingest frame len => exact announces.ingested table frame len
  | poll => exact announces.polled table
  | queueInit => exact announces.congr rfl rfl
  | queueRun now frame =>
      have kept := obcCmdQueueRun_linkKept table now frame state
      exact announces.congr kept.serial kept.announced

theorem announces_init {fields : List ObcCmdField} {table : List ObcCmd} {boot start : CmdState}
    (ready : obcCmdInit fields table boot = (.ok, start)) : Announces start.serial start := by
  have cleared : start.announced = 0 := by
    rw [obcCmdInit_ok ready]
  refine ⟨[], by simp, List.nodup_nil, fun reason => ?_⟩
  simp [cleared]

theorem ingest_refused {table : List ObcCmd} {frame : Option (Nat → U8)} {len : U32}
    {state : CmdState} {reason : Reject}
    (told : (obcCmdIngest table frame len state).2.1 = some reason.index) :
    (obcCmdIngest table frame len state).1 = .errInvalid ∧
      OnlyRefused reason state (obcCmdIngest table frame len state).2.2 := by
  cases frame with
  | none => cases told
  | some bytes =>
      by_cases audited : state.tableOk = true
      · have ingested : obcCmdIngest table (some bytes) len state =
            examine table bytes len { state with examined := bump state.examined } :=
          if_pos audited
        rw [ingested] at told ⊢
        rw [examine_refusal table bytes len _ told]
        exact ⟨rfl, refuse_onlyRefused reason state⟩
      · have ignored : obcCmdIngest table (some bytes) len state = (.errInvalid, none, state) :=
          if_neg audited
        rw [ignored] at told
        cases told

theorem ingest_unexamined {table : List ObcCmd} {frame : Option (Nat → U8)} {len : U32}
    {state : CmdState} (untold : (obcCmdIngest table frame len state).2.1 = none) :
    obcCmdIngest table frame len state = (.errInvalid, none, state) := by
  cases frame with
  | none => rfl
  | some bytes =>
      by_cases audited : state.tableOk = true
      · have ingested : obcCmdIngest table (some bytes) len state =
            examine table bytes len { state with examined := bump state.examined } :=
          if_pos audited
        rw [ingested] at untold
        rcases examine_cases table bytes len { state with examined := bump state.examined } with
          ⟨reason, refused⟩ | ⟨row, index, _, _, _, _, _, accepted⟩
        · rw [refused] at untold
          cases untold
        · rw [accepted] at untold
          cases untold
      · exact if_neg audited

theorem poll_truncated (table : List ObcCmd) {state : CmdState} (audited : state.tableOk = true)
    (silent : state.uplink = []) (partly : state.fill ≠ 0) :
    OnlyRefused .length state (obcCmdPoll table state) ∧ (obcCmdPoll table state).fill = 0 := by
  have truncated : obcCmdPoll table state =
      (refuse .length { state with
        uplink := [], fill := 0, examined := bump state.examined }).2.2 := by
    simp only [obcCmdPoll, audited, silent, List.take_nil, List.drop_nil, run, List.isEmpty_nil,
      partly, ne_eq, not_false_eq_true, and_self, ↓reduceIte]
  obtain ⟨announced, serial, refused⟩ := refuse_cases .length
    { state with uplink := [], fill := 0, examined := bump state.examined }
  rw [truncated, refused]
  exact ⟨by constructor <;> rfl, rfl⟩

end ObcZero
