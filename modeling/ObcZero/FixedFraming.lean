import Mathlib

/-!
Framing a stream by count and by silence. A stream is cut into chunks of one size and
a remainder; `Cut` keeps the pieces a silence has ended apart from the piece still
open, and a silence that finds a remainder gives it up as truncated.
-/

namespace FixedFraming

variable {Byte : Type*}

def chunks (size : Nat) (stream : List Byte) : List (List Byte) :=
  (List.range (stream.length / size)).map fun index => (stream.drop (size * index)).take size

def remainder (size : Nat) (stream : List Byte) : List Byte :=
  stream.drop (size * (stream.length / size))

theorem length_remainder (size : Nat) (stream : List Byte) :
    (remainder size stream).length = stream.length % size := by
  rw [remainder, List.length_drop, Nat.mod_def]

@[simp] theorem chunks_nil (size : Nat) : chunks size ([] : List Byte) = [] := by
  simp [chunks]

@[simp] theorem remainder_nil (size : Nat) : remainder size ([] : List Byte) = [] := by
  simp [remainder]

theorem chunks_flatten (size : Nat) (stream : List Byte) :
    (chunks size stream).flatten ++ remainder size stream = stream := by
  have taken (count : Nat) (bound : size * count ≤ stream.length) :
      ((List.range count).map fun index => (stream.drop (size * index)).take size).flatten =
        stream.take (size * count) := by
    induction count with
    | zero => simp
    | succ count ih =>
        have before : size * count ≤ stream.length :=
          le_trans (Nat.mul_le_mul_left size (Nat.le_succ count)) bound
        rw [List.range_succ, List.map_append, List.flatten_append, ih before, Nat.mul_succ,
          List.take_add]
        simp
  rw [chunks, taken _ (Nat.mul_div_le stream.length size), remainder, List.take_append_drop]

theorem chunk_length {size : Nat} {stream chunk : List Byte} (member : chunk ∈ chunks size stream) :
    chunk.length = size := by
  obtain ⟨index, inside, cut⟩ := List.mem_map.mp member
  have below := List.mem_range.mp inside
  have reach : size * (index + 1) ≤ stream.length :=
    le_trans (Nat.mul_le_mul_left size below) (Nat.mul_div_le stream.length size)
  rw [← cut, List.length_take, List.length_drop]
  rw [Nat.mul_succ] at reach
  omega

/-- A chunk that the stream already holds is not moved by what comes after it. -/
theorem chunks_prefix {size : Nat} (stream more : List Byte) :
    ((List.range (stream.length / size)).map fun index =>
      ((stream ++ more).drop (size * index)).take size) = chunks size stream := by
  refine List.map_congr_left fun index inside => ?_
  have below := List.mem_range.mp inside
  have reach : size * (index + 1) ≤ stream.length :=
    le_trans (Nat.mul_le_mul_left size below) (Nat.mul_div_le stream.length size)
  rw [Nat.mul_succ] at reach
  rw [List.drop_append_of_le_length (by omega),
    List.take_append_of_le_length (by rw [List.length_drop]; omega)]

theorem snoc_within (size : Nat) (stream : List Byte) (byte : Byte)
    (room : (remainder size stream).length + 1 < size) :
    chunks size (stream ++ [byte]) = chunks size stream ∧
      remainder size (stream ++ [byte]) = remainder size stream ++ [byte] := by
  rw [length_remainder] at room
  have same : (stream ++ [byte]).length / size = stream.length / size := by
    have split := Nat.div_add_mod stream.length size
    rw [List.length_append, List.length_singleton]
    refine Nat.div_eq_of_lt_le ?_ ?_
    · rw [Nat.mul_comm]
      omega
    · rw [Nat.succ_mul, Nat.mul_comm]
      omega
  refine ⟨?_, ?_⟩
  · rw [chunks, same, chunks_prefix]
  · rw [remainder, same, remainder,
      List.drop_append_of_le_length (Nat.mul_div_le stream.length size)]

theorem snoc_full (size : Nat) (stream : List Byte) (byte : Byte)
    (full : (remainder size stream).length + 1 = size) :
    chunks size (stream ++ [byte]) = chunks size stream ++ [remainder size stream ++ [byte]] ∧
      remainder size (stream ++ [byte]) = [] := by
  have held := length_remainder size stream
  have positive : 0 < size := by omega
  have split := Nat.div_add_mod stream.length size
  have reached : (stream ++ [byte]).length = size * (stream.length / size + 1) := by
    rw [List.length_append, List.length_singleton, Nat.mul_succ]
    omega
  have next : (stream ++ [byte]).length / size = stream.length / size + 1 := by
    rw [reached, Nat.mul_div_cancel_left _ positive]
  refine ⟨?_, ?_⟩
  · rw [chunks, next, List.range_succ, List.map_append, chunks_prefix]
    have last : ((stream ++ [byte]).drop (size * (stream.length / size))).take size =
        remainder size stream ++ [byte] := by
      rw [List.drop_append_of_le_length (Nat.mul_div_le stream.length size), ← remainder,
        List.take_of_length_le (by simp; omega)]
    rw [List.map_singleton, last]
  · rw [remainder, next, ← reached, List.drop_length]

inductive Handed (Byte : Type*)
  | chunk (bytes : List Byte)
  | truncated
  deriving DecidableEq

structure Cut (Byte : Type*) where
  ended : List (List Byte)
  unfinished : List Byte

def Cut.hear (cut : Cut Byte) (taken : List Byte) : Cut Byte :=
  if taken.isEmpty then { ended := cut.ended ++ [cut.unfinished], unfinished := [] }
  else { cut with unfinished := cut.unfinished ++ taken }

def endedPiece (size : Nat) (piece : List Byte) : List (Handed Byte) :=
  (chunks size piece).map .chunk ++ if piece.length % size = 0 then [] else [.truncated]

/-- What the pieces give: every ended one its chunks and its truncated remainder, the
open one the chunks it holds so far. -/
def Cut.handed (size : Nat) (cut : Cut Byte) : List (Handed Byte) :=
  cut.ended.flatMap (endedPiece size) ++ (chunks size cut.unfinished).map .chunk

theorem Cut.chunk_length {size : Nat} {cut : Cut Byte} {bytes : List Byte}
    (handed : .chunk bytes ∈ cut.handed size) : bytes.length = size := by
  have inPiece {piece : List Byte} (member : Handed.chunk bytes ∈ (chunks size piece).map .chunk) :
      bytes.length = size := by
    obtain ⟨chunk, inside, same⟩ := List.mem_map.mp member
    exact Handed.chunk.inj same ▸ FixedFraming.chunk_length inside
  rcases List.mem_append.mp handed with ended | unfinished
  · obtain ⟨piece, _, inEnded⟩ := List.mem_flatMap.mp ended
    rcases List.mem_append.mp inEnded with whole | cutOff
    · exact inPiece whole
    · split at cutOff
      · cases cutOff
      · cases List.mem_singleton.mp cutOff
  · exact inPiece unfinished

theorem Cut.hear_flatten (cut : Cut Byte) (taken : List Byte) :
    (cut.hear taken).ended.flatten ++ (cut.hear taken).unfinished =
      cut.ended.flatten ++ cut.unfinished ++ taken := by
  unfold Cut.hear
  split
  · rename_i silent
    rw [List.isEmpty_iff.mp silent]
    simp
  · simp

theorem Cut.handed_silent (size : Nat) (cut : Cut Byte) :
    (cut.hear []).handed size = cut.handed size ++
      if cut.unfinished.length % size = 0 then [] else [.truncated] := by
  simp [Cut.hear, Cut.handed, endedPiece]

end FixedFraming
