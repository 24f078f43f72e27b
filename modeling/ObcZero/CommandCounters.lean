import ObcZero.CommandSteps
import ObcZero.TelemetryPacking
import ObcZero.UplinkCore

/-! The accounting of command frames: every frame examined is in one column, at
the ceiling of the counters as well as below it, and in telemetry as in memory. -/

namespace ObcZero

open StepSystem BytePacking

def counterCeiling : Nat := obcCmdCounterMax.toNat

def rejectedTotal (rejected : Reject → U32) : Nat :=
  (rejects.map fun reason => (rejected reason).toNat).sum

/-- ADR 0013's identity between saturating counters. -/
structure CountersAgree (examined accepted : U32) (rejected : Reject → U32) : Prop where
  saturating : examined.toNat = min counterCeiling (accepted.toNat + rejectedTotal rejected)

theorem CountersAgree.exact {examined accepted : U32} {rejected : Reject → U32}
    (agree : CountersAgree examined accepted rejected) (below : examined ≠ obcCmdCounterMax) :
    examined.toNat = accepted.toNat + rejectedTotal rejected := by
  have law := agree.saturating
  have apart : examined.toNat ≠ counterCeiling := fun same => below (BitVec.eq_of_toNat_eq same)
  omega

theorem bump_toNat (counter : U32) :
    (bump counter).toNat = min counterCeiling (counter.toNat + 1) := by
  have bound := counter.isLt
  unfold bump counterCeiling obcCmdCounterMax
  split
  · bv_omega
  · bv_omega

theorem rejectedTotal_bump (rejected : Reject → U32) (reason : Reject) :
    rejectedTotal (Function.update rejected reason (bump (rejected reason))) +
        (rejected reason).toNat =
      rejectedTotal rejected + min counterCeiling ((rejected reason).toNat + 1) := by
  have bumped := bump_toNat (rejected reason)
  cases reason <;> simp [rejectedTotal, rejects, Function.update_apply, bumped] <;> omega

theorem CountersAgree.accepted {examined accepted : U32} {rejected : Reject → U32}
    (agree : CountersAgree examined accepted rejected) :
    CountersAgree (bump examined) (bump accepted) rejected := by
  constructor
  have law := agree.saturating
  have bound : accepted.toNat ≤ counterCeiling := Nat.le_of_lt_succ accepted.isLt
  rw [bump_toNat, bump_toNat]
  omega

theorem CountersAgree.refused {examined accepted : U32} {rejected : Reject → U32}
    (agree : CountersAgree examined accepted rejected) (reason : Reject) :
    CountersAgree (bump examined) accepted
      (Function.update rejected reason (bump (rejected reason))) := by
  constructor
  have law := agree.saturating
  have column := rejectedTotal_bump rejected reason
  have bound : (rejected reason).toNat ≤ counterCeiling :=
    Nat.le_of_lt_succ (rejected reason).isLt
  have within : (rejected reason).toNat ≤ rejectedTotal rejected := by
    cases reason <;> simp [rejectedTotal, rejects] <;> omega
  rw [bump_toNat]
  omega

def Accounted (state : CmdState) : Prop :=
  CountersAgree state.examined state.accepted state.rejected

theorem Accounted.ingested {table : List ObcCmd} {state : CmdState} (accounted : Accounted state)
    (frame : Option (Nat → U8)) (len : U32) :
    Accounted (obcCmdIngest table frame len state).2.2 := by
  rcases obcCmdIngest_cases table frame len state with
    unchanged | ⟨reason, refused⟩ | ⟨bytes, row, index, _, _, _, _, _, _, taken⟩
  · rw [unchanged]
    exact accounted
  · obtain ⟨announced, serial, after⟩ :=
      refuse_cases reason { state with examined := bump state.examined }
    rw [refused, after]
    exact CountersAgree.refused accounted reason
  · rw [taken]
    exact CountersAgree.accepted accounted

theorem Accounted.polled {table : List ObcCmd} {state : CmdState} (accounted : Accounted state) :
    Accounted (obcCmdPoll table state) := by
  refine obcCmdPoll_invariant (fun _ _ before => before) ?_ ?_
    (meets_always (fun _ _ => trivial) _ _) accounted
  · intro byte current _ before
    rcases takeByte_cases table byte current with ⟨fill, stored⟩ | ⟨_, completed⟩
    · rw [stored]
      exact before
    · rw [completed]
      have stored : Accounted { current with rx := completedFrame byte current } := before
      exact stored.ingested _ _
  · intro current before
    obtain ⟨announced, serial, after⟩ :=
      refuse_cases .length { current with fill := 0, examined := bump current.examined }
    rw [after]
    exact CountersAgree.refused before .length

theorem Accounted.executed {state : CmdState} (accounted : Accounted state) (row : ObcCmd)
    (fn : CmdFn) (slot : ObcCmdSlot) (now frame : U32) :
    Accounted (execute row fn slot now frame state) := by
  have called := fn.call_frame slot.arg state
  have after : Accounted (fn.call slot.arg state) := by
    unfold Accounted
    rw [called.examined, called.accepted, called.rejected]
    exact accounted
  unfold execute establishArming
  dsimp only
  split <;> exact after

theorem Accounted.ran {table : List ObcCmd} {now frame : U32} {index : Fin obcCmdQueueLen}
    {state : CmdState} (accounted : Accounted state) :
    Accounted (runSlot table now frame index state) := by
  have late := countLate_frame now (state.queue index) (vacate index state)
  have counted : Accounted (countLate now (state.queue index) (vacate index state)) := by
    unfold Accounted
    rw [late.examined, late.accepted, late.rejected]
    exact accounted
  unfold runSlot
  dsimp only
  split
  · exact accounted
  · split
    · exact counted
    · exact counted.executed _ _ _ now frame

theorem cmdStep_accounted (table : List ObcCmd) (input : CmdInput) (state : CmdState)
    (accounted : Accounted state) : Accounted (cmdStep table input state) := by
  cases input with
  | receive bytes => exact accounted
  | ingest frame len => exact accounted.ingested frame len
  | poll => exact accounted.polled
  | queueInit => exact accounted
  | queueRun now frame =>
      refine obcCmdQueueRun_invariant ?_ (fun _ _ _ _ before => before.ran) accounted
      intro current before
      unfold expireArming
      split <;> exact before

theorem Accounted.initial {fields : List ObcCmdField} {table : List ObcCmd} {boot start : CmdState}
    (ready : obcCmdInit fields table boot = (.ok, start)) : Accounted start := by
  rw [obcCmdInit_ok ready]
  exact ⟨rfl⟩

def FrameAgrees (frame : Nat → U8) : Prop :=
  (getU32 frame obcTlmOCmdExamined).toNat =
    min counterCeiling ((getU32 frame obcTlmOCmdAccepted).toNat +
      (rejects.zipIdx.map fun (_, index) =>
        (getU32 frame (obcTlmOCmdRejected + 4 * index)).toNat).sum)

theorem Accounted.emitted {command : CmdState} (accounted : Accounted command)
    (readings : TlmReadings) (downlink : ObcStatus) {state : TlmState}
    (layoutOk : state.layoutOk = true) :
    FrameAgrees (obcTlmEmit readings command downlink state).2.frame := by
  have examined := getU32_emitted downlink layoutOk (show
    putU32 obcTlmOCmdExamined command.examined ∈ tlmFields readings command state by
      simp [tlmFields])
  have accepted := getU32_emitted downlink layoutOk (show
    putU32 obcTlmOCmdAccepted command.accepted ∈ tlmFields readings command state by
      simp [tlmFields])
  have columns : (rejects.zipIdx.map fun (_, index) => (getU32
      (obcTlmEmit readings command downlink state).2.frame
        (obcTlmOCmdRejected + 4 * index)).toNat) =
      rejects.zipIdx.map fun (reason, _) => (command.rejected reason).toNat := by
    refine List.map_congr_left fun (reason, index) member => ?_
    have stored : putU32 (obcTlmOCmdRejected + 4 * index) (command.rejected reason) ∈
        tlmFields readings command state := by
      have column : putU32 (obcTlmOCmdRejected + 4 * index) (command.rejected reason) ∈
          rejects.zipIdx.map fun (reason, index) =>
            putU32 (obcTlmOCmdRejected + 4 * index) (command.rejected reason) :=
        List.mem_map.mpr ⟨(reason, index), member, rfl⟩
      simp only [tlmFields, List.mem_append]
      exact .inl (.inr column)
    exact congrArg BitVec.toNat (getU32_emitted downlink layoutOk stored)
  have total : (rejects.zipIdx.map fun (reason, _) => (command.rejected reason).toNat).sum =
      rejectedTotal command.rejected := rfl
  unfold FrameAgrees
  rw [examined, accepted, columns, total]
  exact accounted.saturating

/-- The accounting identity over every run, in memory and in any frame emitted. -/
theorem examined_accounted {fields : List ObcCmdField} {table : List ObcCmd}
    {boot start : CmdState} (ready : obcCmdInit fields table boot = (.ok, start))
    (inputs : List CmdInput) :
    let state := run (cmdStep table) inputs start
    CountersAgree state.examined state.accepted state.rejected ∧
      (state.examined ≠ obcCmdCounterMax →
        state.examined.toNat = state.accepted.toNat + rejectedTotal state.rejected) ∧
      ∀ readings downlink tlm, tlm.layoutOk = true →
        FrameAgrees (obcTlmEmit readings state downlink tlm).2.frame := by
  intro state
  have accounted : Accounted state :=
    run_invariant (cmdStep_accounted table) inputs (Accounted.initial ready)
  exact ⟨accounted, accounted.exact, fun readings downlink _ layoutOk =>
    accounted.emitted readings downlink layoutOk⟩

theorem flight_examined_accounted :
    let state := run (cmdStep obcCmdTable)
      [.receive (build opPing.toNat 1 0 0 ++ build opSafe.toNat 2 0 0), .poll]
      (obcCmdInit obcCmdFields obcCmdTable clearedCmd).2
    CountersAgree state.examined state.accepted state.rejected ∧
      FrameAgrees (obcTlmEmit quietReadings state .ok readyTlm).2.frame := by
  have ready : obcCmdInit obcCmdFields obcCmdTable clearedCmd =
      (.ok, (obcCmdInit obcCmdFields obcCmdTable clearedCmd).2) := rfl
  have law := examined_accounted ready
    [.receive (build opPing.toNat 1 0 0 ++ build opSafe.toNat 2 0 0), .poll]
  exact ⟨law.1, law.2.2 quietReadings .ok readyTlm rfl⟩

end ObcZero
