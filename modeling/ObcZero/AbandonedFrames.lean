import ObcZero.FrameSearch
import ObcZero.StepSystem

/-! Frames the downlink refused half way, and what they do to the frames behind them. -/

namespace ObcZero

open GreedyScan LittleEndian StepSystem

/-- Inside no cut frame does the host read a frame, made of what is left of the cut
one and of the bytes that go out behind it. -/
def CutsUnread : List Chunk → Prop
  | [] => True
  | chunk :: rest =>
      (chunk.whole = false → ∀ inside < chunk.bytes.length,
        ¬ReadsAsFrame (chunk.bytes ++ streamOf rest) inside) ∧ CutsUnread rest

theorem downlinkWrite_cases (full : Nat → Nat) (index allowance : Nat) (bytes : List U8) :
    downlinkWrite full index allowance bytes = (.ok, bytes) ∨
      ∃ count < bytes.length,
        downlinkWrite full index allowance bytes = (.errTimeout, bytes.take count) := by
  induction bytes generalizing index allowance with
  | nil => exact .inl rfl
  | cons byte rest ih =>
      rw [downlinkWrite]
      by_cases granted : full index ≤ allowance
      · rw [if_pos granted]
        rcases ih (index + 1) (allowance - full index) with whole | ⟨count, short, cut⟩
        · rw [whole]
          exact .inl rfl
        · rw [cut]
          exact .inr ⟨count + 1, Nat.succ_lt_succ short, rfl⟩
      · rw [if_neg granted]
        exact .inr ⟨0, Nat.succ_pos _, rfl⟩

theorem downlinkWrite_never_full (index allowance : Nat) (bytes : List U8) :
    downlinkWrite (fun _ => 0) index allowance bytes = (.ok, bytes) := by
  induction bytes generalizing index with
  | nil => rfl
  | cons byte rest ih => rw [downlinkWrite, if_pos (Nat.zero_le _), Nat.sub_zero, ih]

theorem downlinkWrite_stalls {count : Nat} {bytes : List U8} (short : count < bytes.length)
    (index allowance : Nat) :
    downlinkWrite (fun place => if place = index + count then allowance + 1 else 0) index allowance
      bytes = (.errTimeout, bytes.take count) := by
  induction bytes generalizing index count with
  | nil => cases short
  | cons byte rest ih =>
      cases count with
      | zero => simp [downlinkWrite]
      | succ count =>
          have later := ih (Nat.lt_of_succ_lt_succ short) (index + 1)
          have free : ¬index = index + (count + 1) := by omega
          rw [Nat.add_assoc, Nat.add_comm 1 count] at later
          simp only [downlinkWrite, free, ↓reduceIte, Nat.zero_le, Nat.sub_zero, later,
            List.take_succ_cons]

theorem Emission.write_cases (emission : Emission) (tlm : TlmState) :
    emission.write tlm =
        (.ok, frameBytes (packedFrame emission.readings emission.command tlm)) ∨
      ∃ count < obcTlmFrameLen,
        emission.write tlm = (.errTimeout,
          (frameBytes (packedFrame emission.readings emission.command tlm)).take count) := by
  have cases := downlinkWrite_cases emission.full 0 obcUartTxRetryTotal
    (frameBytes (packedFrame emission.readings emission.command tlm))
  rw [frameBytes_length] at cases
  exact cases

def WholeAreFrames (link : Downlink) : Prop :=
  ∀ chunk ∈ link.chunks, chunk.whole = true → IsFrame chunk.bytes

theorem tlmStep_wholeAreFrames (input : TlmInput) (link : Downlink) (frames : WholeAreFrames link) :
    WholeAreFrames (tlmStep input link) := by
  cases input with
  | subsystemReset => exact frames
  | emit emission =>
      rw [tlmStep]
      by_cases audited : link.tlm.layoutOk
      · rw [if_pos audited]
        intro chunk member whole
        rcases List.mem_append.mp member with earlier | last
        · exact frames chunk earlier whole
        rw [List.mem_singleton.mp last] at whole ⊢
        rcases emission.write_cases link.tlm with written | ⟨count, _, cut⟩
        · rw [written]
          exact isFrame_packed emission.readings emission.command link.tlm
        · rw [cut] at whole
          cases whole
      · rw [if_neg audited]
        exact frames

theorem readsAsFrame_behind (before rest : List U8) (inside : Nat) :
    ReadsAsFrame (before ++ rest) (before.length + inside) ↔ ReadsAsFrame rest inside := by
  have same : ∀ width, slice (before ++ rest) (before.length + inside) width =
      slice rest inside width := by
    intro width
    rw [slice, slice, ← List.drop_drop, List.drop_left]
  rw [ReadsAsFrame, ReadsAsFrame, same, same, List.length_append, Nat.add_assoc,
    Nat.add_le_add_iff_left]

theorem quiet_iff_cutsUnread (chunks : List Chunk) (before : List U8) :
    Quiet (ReadsAsFrame (before ++ streamOf chunks)) before.length (chunks.map segmentOf) ↔
      CutsUnread chunks := by
  induction chunks generalizing before with
  | nil => exact Iff.rfl
  | cons chunk rest ih =>
      have later := ih (before ++ chunk.bytes)
      rw [List.length_append, ← streamOf_cons] at later
      have here : (∀ inside, before.length ≤ inside → inside < before.length + chunk.bytes.length →
          ¬ReadsAsFrame (before ++ streamOf (chunk :: rest)) inside) ↔
          ∀ inside < chunk.bytes.length, ¬ReadsAsFrame (chunk.bytes ++ streamOf rest) inside := by
        have stream : streamOf (chunk :: rest) = chunk.bytes ++ streamOf rest :=
          streamOf_cons chunk rest []
        rw [stream]
        constructor
        · intro none inside bound reads
          exact none (before.length + inside) (Nat.le_add_right _ _) (by omega)
            ((readsAsFrame_behind before _ inside).mpr reads)
        · intro none inside lower upper reads
          obtain ⟨offset, rfl⟩ := Nat.exists_eq_add_of_le lower
          exact none offset (by omega) ((readsAsFrame_behind before _ offset).mp reads)
      exact and_congr (imp_congr Iff.rfl here) later

/-- The host recovers the complete frames of a run, and nothing else, exactly when it
reads no frame inside a cut one. -/
theorem findFrames_complete_iff (inputs : List TlmInput) (tlm : TlmState) :
    findFrames (streamOf (run tlmStep inputs { tlm := tlm, chunks := [] }).chunks) flightTlm =
        some (wholeFrames 0 (run tlmStep inputs { tlm := tlm, chunks := [] }).chunks) ↔
      CutsUnread (run tlmStep inputs { tlm := tlm, chunks := [] }).chunks := by
  have initial : WholeAreFrames { tlm := tlm, chunks := [] } := by
    intro chunk member
    cases member
  have frames := run_invariant tlmStep_wholeAreFrames inputs initial
  exact (findFrames_exactly frames).trans (quiet_iff_cutsUnread _ [])

def cutEmission : Emission :=
  { readings := quietReadings
    command := clearedCmd
    full := fun index => if index = 81 then obcUartTxRetryTotal + 1 else 0 }

def laterEmission : Emission :=
  { readings := { quietReadings with now := 64514, framesRun := 1 }
    command := clearedCmd
    full := fun _ => 0 }

/-- The uptime of the second frame stands where the sum of the first one would, and is
that sum. The host takes the two for one frame and loses the complete one. -/
theorem cut_frame_swallows_next :
    findFrames (streamOf (run tlmStep [.emit cutEmission, .emit laterEmission]
        { tlm := readyTlm, chunks := [] }).chunks) flightTlm ≠
      some (wholeFrames 0 (run tlmStep [.emit cutEmission, .emit laterEmission]
        { tlm := readyTlm, chunks := [] }).chunks) := by
  decide +kernel

end ObcZero
