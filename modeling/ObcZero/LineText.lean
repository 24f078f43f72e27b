import Mathlib

/-!
Texts of lines, and lines of words. A printer joins the words of a line with one separator
and ends the line with one break; a reader that splits at every break and at every run of
spaces reads back what was printed, and of a text cut short it reads whole lines and at
most one that is cut.
-/

namespace LineText

def lines (isBreak : Char → Bool) : List Char → List (List Char)
  | [] => []
  | ch :: rest =>
      if isBreak ch then [] :: lines isBreak rest
      else
        match lines isBreak rest with
        | [] => [[ch]]
        | line :: later => (ch :: line) :: later

def words (isSpace : Char → Bool) (text : List Char) : List (List Char) :=
  (text.splitOnP isSpace).filter fun word => !word.isEmpty

def joined (separator : Char) : List (List Char) → List Char
  | [] => []
  | [word] => word
  | word :: next :: rest => word ++ separator :: joined separator (next :: rest)

def printed (separator newline : Char) (text : List (List (List Char))) : List Char :=
  text.flatMap fun line => joined separator line ++ [newline]

section

variable {isBreak isSpace : Char → Bool}

theorem lines_line {line rest : List Char} {newline : Char}
    (whole : ∀ ch ∈ line, isBreak ch = false) (ends : isBreak newline = true) :
    lines isBreak (line ++ newline :: rest) = line :: lines isBreak rest := by
  induction line with
  | nil => simp [lines, ends]
  | cons ch later ih =>
      obtain ⟨first, others⟩ := List.forall_mem_cons.mp whole
      rw [List.cons_append, lines, first, ih others]
      rfl

/-- A text without a break is a line of its own, unless it is empty. -/
theorem lines_unbroken {line : List Char} (whole : ∀ ch ∈ line, isBreak ch = false) :
    lines isBreak line = if line = [] then [] else [line] := by
  induction line with
  | nil => rfl
  | cons ch later ih =>
      obtain ⟨first, others⟩ := List.forall_mem_cons.mp whole
      rw [lines, first, ih others, if_neg (List.cons_ne_nil ch later)]
      cases later with
      | nil => rfl
      | cons next rest => rfl

theorem mem_joined {separator ch : Char} {line : List (List Char)}
    (member : ch ∈ joined separator line) : ch = separator ∨ ∃ word ∈ line, ch ∈ word := by
  induction line with
  | nil => cases member
  | cons word rest ih =>
      cases rest with
      | nil => exact .inr ⟨word, by simp, member⟩
      | cons next rest =>
          rcases List.mem_append.mp member with inWord | later
          · exact .inr ⟨word, List.mem_cons_self, inWord⟩
          rcases List.mem_cons.mp later with same | inRest
          · exact .inl same
          rcases ih inRest with same | ⟨other, inLine, found⟩
          · exact .inl same
          · exact .inr ⟨other, List.mem_cons_of_mem word inLine, found⟩

/-- A space parts the words before it from the words after it. -/
theorem words_space {separator : Char} (splits : isSpace separator = true)
    (before after : List Char) :
    words isSpace (before ++ separator :: after) =
      words isSpace before ++ words isSpace after := by
  rw [words, List.splitOnP_append_cons before after splits, List.filter_append]
  rfl

theorem words_solid {word : List Char} (nonempty : word ≠ [])
    (solid : ∀ ch ∈ word, isSpace ch = false) : words isSpace word = [word] := by
  rw [words, List.splitOnP_eq_singleton solid, List.filter_cons, if_pos (by simpa using nonempty)]
  rfl

/-- Words that are not empty and hold no space are read back. -/
theorem joined_words {separator : Char} (splits : isSpace separator = true)
    {line : List (List Char)}
    (solid : ∀ word ∈ line, word ≠ [] ∧ ∀ ch ∈ word, isSpace ch = false) :
    words isSpace (joined separator line) = line := by
  induction line with
  | nil => rfl
  | cons word rest ih =>
      obtain ⟨⟨nonempty, inside⟩, others⟩ := List.forall_mem_cons.mp solid
      cases rest with
      | nil => exact words_solid nonempty inside
      | cons next rest =>
          rw [joined, words_space splits, words_solid nonempty inside, ih others]
          rfl

/-- What is left of a line's words when its text is cut short: whole words, and then at most
one that is cut. -/
inductive CutShort : List (List Char) → List (List Char) → Prop
  | stop (line) : CutShort [] line
  | part {part word rest} (nonempty : part ≠ []) (starts : part <+: word) :
      CutShort [part] (word :: rest)
  | whole {word ws rest} (later : CutShort ws rest) : CutShort (word :: ws) (word :: rest)

theorem words_part {part word : List Char} (solid : ∀ ch ∈ word, isSpace ch = false)
    (starts : part <+: word) (rest : List (List Char)) :
    CutShort (words isSpace part) (word :: rest) := by
  by_cases empty : part = []
  · rw [empty]
    exact .stop _
  · rw [words_solid empty fun ch member => solid ch (starts.subset member)]
    exact .part empty starts

theorem words_take {separator : Char} (splits : isSpace separator = true)
    {line : List (List Char)}
    (solid : ∀ word ∈ line, word ≠ [] ∧ ∀ ch ∈ word, isSpace ch = false) (count : Nat) :
    CutShort (words isSpace ((joined separator line).take count)) line := by
  induction line generalizing count with
  | nil =>
      rw [joined, List.take_nil]
      exact .stop _
  | cons word rest ih =>
      obtain ⟨⟨nonempty, inside⟩, others⟩ := List.forall_mem_cons.mp solid
      cases rest with
      | nil => exact words_part inside (List.take_prefix count word) []
      | cons next rest =>
          rw [joined, List.take_append]
          by_cases short : count ≤ word.length
          · rw [Nat.sub_eq_zero_of_le short, List.take_zero, List.append_nil]
            exact words_part inside (List.take_prefix count word) _
          · obtain ⟨more, enough⟩ := Nat.exists_eq_add_of_lt (Nat.not_le.mp short)
            rw [List.take_of_length_le (by omega), show count - word.length = more + 1 by omega,
              List.take_succ_cons, words_space splits, words_solid nonempty inside]
            exact .whole (ih others more)

section

variable {separator newline : Char} {text : List (List (List Char))}

theorem printed_append (separator newline : Char) (first second : List (List (List Char))) :
    printed separator newline (first ++ second) =
      printed separator newline first ++ printed separator newline second := by
  rw [printed, List.flatMap_append]
  rfl

theorem lines_printed (ends : isBreak newline = true)
    (whole : ∀ line ∈ text, ∀ ch ∈ joined separator line, isBreak ch = false)
    (rest : List Char) :
    lines isBreak (printed separator newline text ++ rest) =
      text.map (joined separator) ++ lines isBreak rest := by
  induction text with
  | nil => rfl
  | cons line later ih =>
      obtain ⟨first, others⟩ := List.forall_mem_cons.mp whole
      have split : printed separator newline (line :: later) ++ rest =
          joined separator line ++ newline :: (printed separator newline later ++ rest) := by
        simp [printed]
      rw [split, lines_line first ends, ih others]
      rfl

/-- Every line of a text cut short is a line of the text, or the beginning of one. -/
theorem mem_lines_take (ends : isBreak newline = true)
    (whole : ∀ line ∈ text, ∀ ch ∈ joined separator line, isBreak ch = false) {count : Nat}
    {line : List Char} (member : line ∈ lines isBreak ((printed separator newline text).take count)) :
    ∃ source ∈ text, line <+: joined separator source := by
  induction text generalizing count with
  | nil => simp [printed, lines] at member
  | cons source later ih =>
      obtain ⟨first, others⟩ := List.forall_mem_cons.mp whole
      have split : printed separator newline (source :: later) =
          joined separator source ++ newline :: printed separator newline later := by
        simp [printed]
      rw [split, List.take_append] at member
      by_cases short : count ≤ (joined separator source).length
      · rw [Nat.sub_eq_zero_of_le short, List.take_zero, List.append_nil, lines_unbroken
          fun ch inside => first ch (List.mem_of_mem_take inside)] at member
        split at member
        · cases member
        · rw [List.mem_singleton.mp member]
          exact ⟨source, List.mem_cons_self, List.take_prefix _ _⟩
      · obtain ⟨more, enough⟩ := Nat.exists_eq_add_of_lt (Nat.not_le.mp short)
        rw [List.take_of_length_le (by omega), show count - (joined separator source).length =
          more + 1 by omega, List.take_succ_cons, lines_line first ends] at member
        rcases List.mem_cons.mp member with same | inLater
        · exact ⟨source, List.mem_cons_self, same ▸ List.prefix_rfl⟩
        · obtain ⟨other, inText, starts⟩ := ih others inLater
          exact ⟨other, List.mem_cons_of_mem source inText, starts⟩

end

end

end LineText
