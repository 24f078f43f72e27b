import ObcZero.FrameSearchCore
import ObcZero.GreedyScan

/-! The host's search as a greedy scan: it takes whatever reads as a frame, wherever
it looks, and what it makes of a downlink laid out in chunks. -/

namespace ObcZero

open GreedyScan LittleEndian

def tlmSyncBytes : List U8 := littleEndian 4 obcTlmSync.toNat

def tlmSumField : ObcTlmField :=
  { name := "sum", offset := obcTlmOSum, width := 2, count := 1, kind := obcTlmKindSum }

/-- The capture holds a sync word here, and behind it a frame's length of bytes whose
sum is right. -/
def ReadsAsFrame (stream : List U8) (position : Nat) : Prop :=
  position + obcTlmFrameLen ≤ stream.length ∧ slice stream position 4 = tlmSyncBytes ∧
    sumMatches tlmSumField (slice stream position obcTlmFrameLen) = true

instance (stream : List U8) (position : Nat) : Decidable (ReadsAsFrame stream position) :=
  inferInstanceAs (Decidable (_ ∧ _ ∧ _))

def frameAt (stream : List U8) (position : Nat) : TlmFrame :=
  { offset := position
    values := decodeFrame (slice stream position obcTlmFrameLen) flightTlm }

abbrev flightTurns (stream : List U8) : Nat → Nat → List TlmFrame :=
  findFrom flightTlm tlmSyncBytes tlmSumField stream

def searchFrom (stream : List U8) (start : Nat) : List TlmFrame :=
  flightTurns stream (stream.length - start + 1) start

theorem findFrames_flight (stream : List U8) :
    findFrames stream flightTlm = some (searchFrom stream 0) := rfl

section

variable {sync stream : List U8}

theorem findBytes_here {start : Nat} (inside : start < stream.length)
    (here : slice stream start sync.length = sync) : findBytes sync stream start = some start := by
  obtain ⟨rest, more⟩ : ∃ rest, stream.length - start = rest + 1 :=
    ⟨stream.length - start - 1, by omega⟩
  simp [findBytes, more, List.range'_succ, here]

theorem findBytes_later {start : Nat} (elsewhere : slice stream start sync.length ≠ sync) :
    findBytes sync stream start = findBytes sync stream (start + 1) := by
  by_cases inside : start < stream.length
  · have more : stream.length - start = stream.length - (start + 1) + 1 := by omega
    rw [findBytes, more, List.range'_succ, List.find?_cons_of_neg (by simpa using elsewhere),
      findBytes]
  · have none : stream.length - start = 0 := by omega
    have noneLater : stream.length - (start + 1) = 0 := by omega
    rw [findBytes, findBytes, none, noneLater]
    rfl

theorem findBytes_bound {start position : Nat} (found : findBytes sync stream start = some position) :
    start ≤ position := by
  have member := List.mem_of_find?_eq_some found
  simp only [List.mem_range'_1] at member
  exact member.1

end

theorem findFrom_fuel {layout : TlmLayout} (some : 0 < layout.frameLen) (sync : List U8)
    (sumField : ObcTlmField) (stream : List U8) {fuel more start : Nat}
    (enough : stream.length - start < fuel) (enoughMore : stream.length - start < more) :
    findFrom layout sync sumField stream fuel start =
      findFrom layout sync sumField stream more start := by
  induction fuel generalizing more start with
  | zero => omega
  | succ fuel ih =>
      obtain ⟨more, rfl⟩ : ∃ less, more = less + 1 := ⟨more - 1, by omega⟩
      rw [findFrom, findFrom]
      by_cases room : start + layout.frameLen ≤ stream.length
      swap
      · rw [if_neg room, if_neg room]
      rw [if_pos room, if_pos room]
      cases found : findBytes sync stream start with
      | none => rfl
      | some position =>
          have bound := findBytes_bound found
          dsimp only
          by_cases past : stream.length < position + layout.frameLen
          · rw [if_pos past, if_pos past]
          rw [if_neg past, if_neg past]
          have frame : findFrom layout sync sumField stream fuel (position + layout.frameLen) =
              findFrom layout sync sumField stream more (position + layout.frameLen) :=
            ih (by omega) (by omega)
          have byte : findFrom layout sync sumField stream fuel (position + 1) =
              findFrom layout sync sumField stream more (position + 1) :=
            ih (by omega) (by omega)
          rw [frame, byte]

theorem flightTurns_fuel (stream : List U8) {fuel more start : Nat}
    (enough : stream.length - start < fuel) (enoughMore : stream.length - start < more) :
    flightTurns stream fuel start = flightTurns stream more start :=
  findFrom_fuel (by decide) tlmSyncBytes tlmSumField stream enough enoughMore

theorem flightTurns_succ (stream : List U8) (fuel start : Nat) :
    flightTurns stream (fuel + 1) start =
      if start + obcTlmFrameLen ≤ stream.length then
        match findBytes tlmSyncBytes stream start with
        | none => []
        | some position =>
            if stream.length < position + obcTlmFrameLen then []
            else if sumMatches tlmSumField (slice stream position obcTlmFrameLen) then
              frameAt stream position :: flightTurns stream fuel (position + obcTlmFrameLen)
            else flightTurns stream fuel (position + 1)
      else [] := rfl

theorem searchFrom_short {stream : List U8} {start : Nat}
    (short : ¬start + obcTlmFrameLen ≤ stream.length) : searchFrom stream start = [] := by
  rw [searchFrom, flightTurns_succ, if_neg short]

theorem searchFrom_found {stream : List U8} {position : Nat}
    (reads : ReadsAsFrame stream position) :
    searchFrom stream position =
      frameAt stream position :: searchFrom stream (position + obcTlmFrameLen) := by
  obtain ⟨room, sync, sum⟩ := reads
  have positive : 0 < obcTlmFrameLen := by decide
  have rest : flightTurns stream (stream.length - position) (position + obcTlmFrameLen) =
      searchFrom stream (position + obcTlmFrameLen) :=
    flightTurns_fuel stream (by omega) (by omega)
  rw [searchFrom, flightTurns_succ, if_pos room, findBytes_here (by omega) sync]
  dsimp only
  rw [if_neg (Nat.not_lt.mpr room), if_pos sum, rest]

theorem searchFrom_wrongSum {stream : List U8} {position : Nat}
    (room : position + obcTlmFrameLen ≤ stream.length)
    (sync : slice stream position 4 = tlmSyncBytes)
    (wrong : ¬sumMatches tlmSumField (slice stream position obcTlmFrameLen) = true) :
    searchFrom stream position = searchFrom stream (position + 1) := by
  have positive : 0 < obcTlmFrameLen := by decide
  have rest : flightTurns stream (stream.length - position) (position + 1) =
      searchFrom stream (position + 1) := flightTurns_fuel stream (by omega) (by omega)
  rw [searchFrom, flightTurns_succ, if_pos room, findBytes_here (by omega) sync]
  dsimp only
  rw [if_neg (Nat.not_lt.mpr room), if_neg wrong, rest]

theorem searchFrom_noSync {stream : List U8} {position : Nat}
    (room : position + obcTlmFrameLen ≤ stream.length)
    (none : slice stream position 4 ≠ tlmSyncBytes) :
    searchFrom stream position = searchFrom stream (position + 1) := by
  have positive : 0 < obcTlmFrameLen := by decide
  have later : findBytes tlmSyncBytes stream position =
      findBytes tlmSyncBytes stream (position + 1) := findBytes_later none
  rw [searchFrom, flightTurns_succ, if_pos room, later, searchFrom, flightTurns_succ]
  cases found : findBytes tlmSyncBytes stream (position + 1) with
  | none => simp
  | some next =>
      have bound := findBytes_bound found
      dsimp only
      by_cases past : stream.length < next + obcTlmFrameLen
      · simp [past]
      have frame : flightTurns stream (stream.length - position) (next + obcTlmFrameLen) =
          flightTurns stream (stream.length - (position + 1)) (next + obcTlmFrameLen) :=
        flightTurns_fuel stream (by omega) (by omega)
      have byte : flightTurns stream (stream.length - position) (next + 1) =
          flightTurns stream (stream.length - (position + 1)) (next + 1) :=
        flightTurns_fuel stream (by omega) (by omega)
      have roomLater : position + 1 + obcTlmFrameLen ≤ stream.length := by omega
      rw [if_pos roomLater, if_neg past, if_neg past, frame, byte]

theorem search_scans (stream : List U8) :
    Scans (ReadsAsFrame stream) (frameAt stream) obcTlmFrameLen stream.length
      (searchFrom stream) := by
  have positive : 0 < obcTlmFrameLen := by decide
  constructor
  · intro position reads
    exact searchFrom_found reads
  · intro position unread
    by_cases room : position + obcTlmFrameLen ≤ stream.length
    · by_cases sync : slice stream position 4 = tlmSyncBytes
      · exact searchFrom_wrongSum room sync fun sum => unread ⟨room, sync, sum⟩
      · exact searchFrom_noSync room sync
    · rw [searchFrom_short room, searchFrom_short (by omega)]
  · intro position past
    exact searchFrom_short (by omega)

theorem frameAt_injective (stream : List U8) : Function.Injective (frameAt stream) := by
  intro first second same
  exact congrArg TlmFrame.offset same

structure IsFrame (bytes : List U8) : Prop where
  length : bytes.length = obcTlmFrameLen
  sync : slice bytes 0 4 = tlmSyncBytes
  sum : sumMatches tlmSumField bytes = true

theorem isFrame_packed (readings : TlmReadings) (command : CmdState) (state : TlmState) :
    IsFrame (frameBytes (packedFrame readings command state)) := by
  constructor
  · exact frameBytes_length _
  · have member : putU32 obcTlmOSync obcTlmSync ∈ tlmFields readings command state := by
      simp [tlmFields]
    exact packedFrame_slice member
  · rw [sumMatches, beq_iff_eq]
    exact packedFrame_sum.symm

def segmentOf (chunk : Chunk) : Segment :=
  { length := chunk.bytes.length, isItem := chunk.whole }

/-- The frames written completely, with the offsets they have in the stream. -/
def wholeFrames : Nat → List Chunk → List TlmFrame
  | _, [] => []
  | position, chunk :: rest =>
      if chunk.whole then
        { offset := position, values := decodeFrame chunk.bytes flightTlm } ::
          wholeFrames (position + chunk.bytes.length) rest
      else wholeFrames (position + chunk.bytes.length) rest

theorem slice_middle (before bytes after : List U8) :
    slice (before ++ bytes ++ after) before.length bytes.length = bytes := by
  rw [slice, List.append_assoc, List.drop_left, List.take_left]

theorem slice_slice (bytes : List U8) {start width inner count : Nat} (inside : inner + count ≤ width) :
    slice (slice bytes start width) inner count = slice bytes (start + inner) count := by
  rw [slice, slice, slice, List.drop_take, List.take_take, List.drop_drop,
    Nat.min_eq_left (by omega)]

theorem IsFrame.reads {bytes : List U8} (frame : IsFrame bytes) (before after : List U8) :
    ReadsAsFrame (before ++ bytes ++ after) before.length := by
  have whole : slice (before ++ bytes ++ after) before.length obcTlmFrameLen = bytes := by
    rw [← frame.length]
    exact slice_middle before bytes after
  have sync := frame.sync
  have short : 0 + 4 ≤ obcTlmFrameLen := by decide
  refine ⟨?_, ?_, ?_⟩
  · rw [← frame.length]
    simp
  · rw [← whole, slice_slice _ short] at sync
    exact sync
  · rw [whole]
    exact frame.sum

section

variable {chunks : List Chunk}

theorem streamOf_cons (chunk : Chunk) (rest : List Chunk) (before : List U8) :
    before ++ streamOf (chunk :: rest) = before ++ chunk.bytes ++ streamOf rest := by
  simp [streamOf]

theorem placed_chunks (frames : ∀ chunk ∈ chunks, chunk.whole = true → IsFrame chunk.bytes)
    (before : List U8) :
    Placed (ReadsAsFrame (before ++ streamOf chunks)) obcTlmFrameLen before.length
      (chunks.map segmentOf) := by
  induction chunks generalizing before with
  | nil => trivial
  | cons chunk rest ih =>
      have later := ih (fun other member => frames other (List.mem_cons_of_mem _ member))
        (before ++ chunk.bytes)
      rw [List.length_append] at later
      rw [streamOf_cons]
      refine ⟨fun whole => ?_, later⟩
      have frame := frames chunk List.mem_cons_self whole
      exact ⟨frame.reads before (streamOf rest), frame.length⟩

theorem wholeFrames_starts (frames : ∀ chunk ∈ chunks, chunk.whole = true → IsFrame chunk.bytes)
    (before : List U8) :
    (starts before.length (chunks.map segmentOf)).map (frameAt (before ++ streamOf chunks)) =
      wholeFrames before.length chunks := by
  induction chunks generalizing before with
  | nil => rfl
  | cons chunk rest ih =>
      have later := ih (fun other member => frames other (List.mem_cons_of_mem _ member))
        (before ++ chunk.bytes)
      rw [List.length_append] at later
      rw [streamOf_cons, List.map_cons, starts, wholeFrames]
      cases whole : chunk.whole with
      | true =>
          have length := (frames chunk List.mem_cons_self whole).length
          have bytes := slice_middle before chunk.bytes (streamOf rest)
          rw [length] at bytes
          rw [if_pos (show (segmentOf chunk).isItem = true from whole), List.map_cons, frameAt, bytes]
          exact congrArg (List.cons _) later
      | false =>
          rw [if_neg (show ¬(segmentOf chunk).isItem = true by simp [segmentOf, whole])]
          exact later

theorem total_chunks (chunks : List Chunk) :
    total (chunks.map segmentOf) = (streamOf chunks).length := by
  simp [total, streamOf, segmentOf, Function.comp_def]

/-- The search returns the complete frames, neither more nor fewer, exactly when
nothing reads as a frame inside the other chunks. -/
theorem findFrames_exactly (frames : ∀ chunk ∈ chunks, chunk.whole = true → IsFrame chunk.bytes) :
    findFrames (streamOf chunks) flightTlm = some (wholeFrames 0 chunks) ↔
      Quiet (ReadsAsFrame (streamOf chunks)) 0 (chunks.map segmentOf) := by
  have placed := placed_chunks frames []
  have expected := wholeFrames_starts frames []
  rw [List.nil_append, List.length_nil] at placed expected
  rw [findFrames_flight, Option.some.injEq, ← expected]
  exact (search_scans (streamOf chunks)).exactly_iff (frameAt_injective _) placed
    (by rw [total_chunks]; simp)

end

end ObcZero
