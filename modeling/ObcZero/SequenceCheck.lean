import ObcZero.AbandonedFrames
import ObcZero.StreamRecovery

/-! The ground's loss accounting (`harness/runner/tlm_check.py`) against what the
vehicle writes, sheds and resets. -/

namespace ObcZero

open GreedyScan LittleEndian StepSystem

inductive CheckError
  | checkFailed (message : String)
  | keyError (name : String)
  | typeError (name : String)
  deriving DecidableEq, Repr

def TlmFrame.int (frame : TlmFrame) (name : String) : Except CheckError Nat :=
  match frame.values.lookup name with
  | some (.one value) => .ok value
  | some (.many _) => .error (.typeError name)
  | none => .error (.keyError name)

def checkPair (previous current : TlmFrame) : Except CheckError Nat := do
  let before ← previous.int "seq"
  let after ← current.int "seq"
  if after = before + 1 then return 0
  if after = 0 then return 1
  let gap : Int := after - before - 1
  let dropsAfter ← current.int "frames_dropped"
  let dropsBefore ← previous.int "frames_dropped"
  let dropped : Int := dropsAfter - dropsBefore
  if 0 < gap ∧ dropped = gap then return 0
  throw (.checkFailed
    (s!"sequence jumped {before} -> {after} at byte {current.offset}, a gap of {gap}, " ++
      s!"but the drop counter moved by {dropped}: the vehicle did not account for those " ++
      "frames, so they were lost rather than shed"))

def checkSequence : List TlmFrame → Except CheckError Nat
  | previous :: current :: rest => do
      let resets ← checkPair previous current
      let later ← checkSequence (current :: rest)
      return resets + later
  | _ => return 0

def Passes (previous current : TlmFrame) : Prop :=
  ∃ resets, checkPair previous current = .ok resets

theorem checkSequence_ok_iff (frames : List TlmFrame) :
    (∃ resets, checkSequence frames = .ok resets) ↔ frames.IsChain Passes := by
  induction frames with
  | nil => simp [checkSequence, pure, Except.pure]
  | cons previous frames ih =>
      cases frames with
      | nil => simp [checkSequence, pure, Except.pure]
      | cons current rest =>
          rw [List.isChain_cons_cons, ← ih, checkSequence, Passes]
          cases checkPair previous current with
          | error raised => simp [bind, Except.bind]
          | ok resets =>
              cases checkSequence (current :: rest) with
              | error raised => simp [bind, Except.bind]
              | ok later => simp [bind, Except.bind, pure, Except.pure]

structure Tells (frame : TlmFrame) (seq drops : Nat) : Prop where
  seq : frame.int "seq" = .ok seq
  drops : frame.int "frames_dropped" = .ok drops

section

variable {previous current : TlmFrame} {before after dropsBefore dropsAfter : Nat}

theorem passes_zero (told : Tells previous before dropsBefore) (tells : Tells current 0 dropsAfter) :
    Passes previous current := by
  refine ⟨1, ?_⟩
  simp [checkPair, told.seq, tells.seq, bind, Except.bind, pure, Except.pure]

theorem passes_shed (told : Tells previous before dropsBefore) {shed : Nat}
    (tells : Tells current (before + 1 + shed) (dropsBefore + shed)) : Passes previous current := by
  refine ⟨0, ?_⟩
  cases shed with
  | zero => simp [checkPair, told.seq, tells.seq, bind, Except.bind, pure, Except.pure]
  | succ shed =>
      have further : before + 1 + (shed + 1) ≠ before + 1 := by omega
      have nonzero : before + 1 + (shed + 1) ≠ 0 := by omega
      have accounted : (0 : Int) < (before + 1 + (shed + 1) : Nat) - before - 1 ∧
          ((dropsBefore + (shed + 1) : Nat) : Int) - dropsBefore =
            (before + 1 + (shed + 1) : Nat) - before - 1 := by
        omega
      simp only [checkPair, told.seq, tells.seq, told.drops, tells.drops, bind, Except.bind,
        if_neg further, if_neg nonzero, if_pos accounted]
      rfl

end

def delivered (link : Downlink) : List TlmFrame := wholeFrames 0 link.chunks

/-- The downlink, and whether since the last written frame one was shed that no later
frame can show: one numbered zero, or one past the end of the published counter. -/
structure Ledger where
  link : Downlink
  hidden : Bool

def Emission.written (emission : Emission) (tlm : TlmState) : Bool :=
  tlm.layoutOk && (emission.write tlm).1 == .ok

def Emission.shed (emission : Emission) (tlm : TlmState) : Bool :=
  tlm.layoutOk && (emission.write tlm).1 != .ok

def ledgerStep (input : TlmInput) (ledger : Ledger) : Ledger :=
  let tlm := ledger.link.tlm
  { link := tlmStep input ledger.link
    hidden :=
      match input with
      | .subsystemReset => ledger.hidden
      | .emit emission =>
          if emission.written tlm then false
          else ledger.hidden ||
            (emission.shed tlm && (tlm.seq == 0 || decide (0xFFFF ≤ tlm.drops.toNat))) }

/-- Behind a hidden frame, only a frame numbered zero is written. -/
def ShowsShed : TlmInput → Ledger → Prop
  | .subsystemReset, _ => True
  | .emit emission, ledger =>
      emission.written ledger.link.tlm = true → delivered ledger.link ≠ [] →
        ledger.link.tlm.seq ≠ 0 → ledger.hidden = false

theorem wholeFrames_concat (position : Nat) (chunks : List Chunk) (last : Chunk) :
    wholeFrames position (chunks ++ [last]) =
      wholeFrames position chunks ++ wholeFrames (position + (streamOf chunks).length) [last] := by
  induction chunks generalizing position with
  | nil => rfl
  | cons chunk rest ih =>
      have stream : (streamOf (chunk :: rest)).length =
          chunk.bytes.length + (streamOf rest).length := by
        simp [streamOf]
      rw [List.cons_append, wholeFrames, wholeFrames, ih, stream, Nat.add_assoc]
      split
      · rfl
      · rfl

theorem tells_packed (readings : TlmReadings) (command : CmdState) (state : TlmState) (offset : Nat) :
    Tells
      { offset := offset
        values := decodeFrame (frameBytes (packedFrame readings command state)) flightTlm }
      state.seq.toNat (saturated 2 state.drops) := by
  rw [decodeFrame_packed]
  exact ⟨rfl, rfl⟩

/-- What one emission leaves: a frame on the ground, a frame shed and counted, or
nothing at all for want of a passed layout audit. -/
inductive Emitted (emission : Emission) (ledger after : Ledger) : Prop
  | written (done : emission.written ledger.link.tlm = true) (frame : TlmFrame)
      (tells : Tells frame ledger.link.tlm.seq.toNat (saturated 2 ledger.link.tlm.drops))
      (frames : delivered after.link = delivered ledger.link ++ [frame])
      (seq : after.link.tlm.seq = ledger.link.tlm.seq + 1)
      (drops : after.link.tlm.drops = ledger.link.tlm.drops)
  | shed (frames : delivered after.link = delivered ledger.link)
      (seq : after.link.tlm.seq = ledger.link.tlm.seq + 1)
      (drops : after.link.tlm.drops = ledger.link.tlm.drops + 1)
      (shown : after.hidden = false → ledger.hidden = false ∧ ledger.link.tlm.seq ≠ 0 ∧
        ledger.link.tlm.drops.toNat < 0xFFFF)
  | silent (same : after = ledger)

theorem ledgerStep_emitted (emission : Emission) (ledger : Ledger) :
    Emitted emission ledger (ledgerStep (.emit emission) ledger) := by
  by_cases audited : ledger.link.tlm.layoutOk
  swap
  · refine .silent ?_
    simp [ledgerStep, tlmStep, Emission.written, Emission.shed, audited]
  rcases emission.write_cases ledger.link.tlm with whole | ⟨count, _, cut⟩
  · have done : emission.written ledger.link.tlm = true := by
      simp [Emission.written, audited, whole]
    have after : (ledgerStep (.emit emission) ledger).link =
        { tlm := (obcTlmEmit emission.readings emission.command .ok ledger.link.tlm).2
          chunks := ledger.link.chunks ++
            [{ bytes := frameBytes (packedFrame emission.readings emission.command ledger.link.tlm)
               whole := true }] } := by
      simp [ledgerStep, tlmStep, audited, whole]
    refine .written done _
      (tells_packed emission.readings emission.command ledger.link.tlm
        (0 + (streamOf ledger.link.chunks).length)) ?_ ?_ ?_
    · rw [after]
      exact wholeFrames_concat 0 ledger.link.chunks _
    · simp [after, obcTlmEmit, audited]
    · simp [after, obcTlmEmit, audited]
  · have after : (ledgerStep (.emit emission) ledger).link =
        { tlm := (obcTlmEmit emission.readings emission.command .errTimeout ledger.link.tlm).2
          chunks := ledger.link.chunks ++
            [{ bytes := (frameBytes (packedFrame emission.readings emission.command
                 ledger.link.tlm)).take count
               whole := false }] } := by
      simp [ledgerStep, tlmStep, audited, cut]
    refine .shed ?_ ?_ ?_ fun shown => ?_
    · rw [after]
      exact (wholeFrames_concat 0 ledger.link.chunks _).trans (List.append_nil _)
    · simp [after, obcTlmEmit, audited]
    · simp [after, obcTlmEmit, audited]
    · simpa [ledgerStep, Emission.written, Emission.shed, audited, cut] using shown

/-- Every pair of delivered frames passes, and unless a frame is hidden, the sequence
number and the drop counter are as far past the last frame as frames were shed. -/
structure Reconciled (ledger : Ledger) : Prop where
  chain : (delivered ledger.link).IsChain Passes
  last : ∀ frame ∈ (delivered ledger.link).getLast?, ∃ before dropsBefore,
    Tells frame before dropsBefore ∧ (ledger.hidden = false → ledger.link.tlm.seq = 0 ∨
      ∃ shed, ledger.link.tlm.seq.toNat = before + 1 + shed ∧
        saturated 2 ledger.link.tlm.drops = dropsBefore + shed)

theorem next_seq (seq : U32) : seq + 1 = 0 ∨ (seq + 1).toNat = seq.toNat + 1 := by
  bv_omega

theorem saturated_next {drops : U32} (below : drops.toNat < 0xFFFF) :
    saturated 2 (drops + 1) = saturated 2 drops + 1 := by
  unfold saturated
  bv_omega

theorem Reconciled.passes {ledger : Ledger} (reconciled : Reconciled ledger)
    {emission : Emission} (shows : ShowsShed (.emit emission) ledger)
    (done : emission.written ledger.link.tlm = true) {frame : TlmFrame}
    (tells : Tells frame ledger.link.tlm.seq.toNat (saturated 2 ledger.link.tlm.drops)) :
    ∀ previous ∈ (delivered ledger.link).getLast?, Passes previous frame := by
  intro previous isLast
  obtain ⟨before, dropsBefore, told, kept⟩ := reconciled.last previous isLast
  have some : delivered ledger.link ≠ [] := by
    intro none
    rw [none] at isLast
    cases isLast
  by_cases restarted : ledger.link.tlm.seq = 0
  · rw [restarted] at tells
    exact passes_zero told tells
  · rcases kept (shows done some restarted) with zero | ⟨shed, seq, drops⟩
    · exact absurd zero restarted
    · rw [seq, drops] at tells
      exact passes_shed told tells

theorem ledgerStep_reconciled (input : TlmInput) (ledger : Ledger) (shows : ShowsShed input ledger)
    (reconciled : Reconciled ledger) : Reconciled (ledgerStep input ledger) := by
  cases input with
  | subsystemReset =>
      refine ⟨reconciled.chain, fun frame isLast => ?_⟩
      obtain ⟨before, dropsBefore, told, _⟩ := reconciled.last frame isLast
      exact ⟨before, dropsBefore, told, fun _ => .inl rfl⟩
  | emit emission =>
      cases ledgerStep_emitted emission ledger with
      | written done frame tells frames seq drops =>
          constructor
          · rw [frames, List.isChain_append]
            refine ⟨reconciled.chain, List.isChain_singleton frame, fun previous isLast current isHead => ?_⟩
            rw [← Option.some.inj isHead]
            exact reconciled.passes shows done tells previous isLast
          · intro last isLast
            rw [frames, List.getLast?_concat] at isLast
            rw [← Option.some.inj isLast]
            refine ⟨_, _, tells, fun _ => ?_⟩
            rw [seq, drops]
            rcases next_seq ledger.link.tlm.seq with wrapped | next
            · exact .inl wrapped
            · exact .inr ⟨0, next, rfl⟩
      | shed frames seq drops shown =>
          refine ⟨frames ▸ reconciled.chain, fun frame isLast => ?_⟩
          rw [frames] at isLast
          obtain ⟨before, dropsBefore, told, kept⟩ := reconciled.last frame isLast
          refine ⟨before, dropsBefore, told, fun visible => ?_⟩
          obtain ⟨wasVisible, nonzero, below⟩ := shown visible
          rw [seq, drops, saturated_next below]
          rcases next_seq ledger.link.tlm.seq with wrapped | next
          · exact .inl wrapped
          rcases kept wasVisible with zero | ⟨shed, seqBefore, dropsNow⟩
          · exact absurd zero nonzero
          · exact .inr ⟨shed + 1, by omega, by omega⟩
      | silent same =>
          rw [same]
          exact reconciled

theorem run_ledger (inputs : List TlmInput) (ledger : Ledger) :
    (run ledgerStep inputs ledger).link = run tlmStep inputs ledger.link := by
  induction inputs generalizing ledger with
  | nil => rfl
  | cons input rest ih => exact ih (ledgerStep input ledger)

def freshLink (tlm : TlmState) : Downlink := { tlm := tlm, chunks := [] }

/-- In every run in which a hidden frame is followed by none but a frame numbered zero,
the check finds every break in the sequence accounted for. -/
theorem checkSequence_quiet {inputs : List TlmInput} {tlm : TlmState}
    (meets : Meets ledgerStep ShowsShed inputs { link := freshLink tlm, hidden := false }) :
    ∃ resets, checkSequence (delivered (run tlmStep inputs (freshLink tlm))) = .ok resets := by
  have initial : Reconciled { link := freshLink tlm, hidden := false } := by
    refine ⟨List.isChain_nil, fun frame isLast => ?_⟩
    cases isLast
  have reconciled := meets_invariant ledgerStep_reconciled meets initial
  have chain := reconciled.chain
  rw [run_ledger] at chain
  exact (checkSequence_ok_iff _).mpr chain

instance (input : TlmInput) (ledger : Ledger) : Decidable (ShowsShed input ledger) :=
  match input with
  | .subsystemReset => isTrue trivial
  | .emit emission =>
      inferInstanceAs (Decidable (emission.written ledger.link.tlm = true → _ → _ → _))

theorem flight_checkSequence_quiet :
    ∃ resets, checkSequence (delivered (run tlmStep
      [.emit laterEmission, .emit cutEmission, .emit laterEmission, .subsystemReset,
        .emit laterEmission] (freshLink readyTlm))) = .ok resets :=
  checkSequence_quiet (by decide +kernel)

/-- The frame that would have shown the reset is shed, and the one behind it looks like
a jump from 1 to 1. Nothing was lost. -/
theorem shed_zero_raises :
    ¬∃ resets, checkSequence (delivered (run tlmStep
      [.emit laterEmission, .emit laterEmission, .subsystemReset, .emit cutEmission,
        .emit laterEmission] (freshLink readyTlm))) = .ok resets := by
  rintro ⟨resets, quiet⟩
  have raised : (checkSequence (delivered (run tlmStep
      [.emit laterEmission, .emit laterEmission, .subsystemReset, .emit cutEmission,
        .emit laterEmission] (freshLink readyTlm)))).toOption = none := by
    decide +kernel
  rw [quiet] at raised
  cases raised

end ObcZero
