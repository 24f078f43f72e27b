import ObcZero.PrintedTable

/-! What the host reads back of one printed value: a number, a name. -/

namespace ObcZero

namespace TableText

/-- A text that `strip` leaves as it is. -/
structure Trimmed (text : List Char) : Prop where
  first : ∀ ch ∈ text.head?, isSpace ch = false
  last : ∀ ch ∈ text.getLast?, isSpace ch = false

theorem Trimmed.of_solid {text : List Char} (solid : ∀ ch ∈ text, isSpace ch = false) :
    Trimmed text :=
  ⟨fun ch head => solid ch (List.mem_of_mem_head? head),
    fun ch last => solid ch (List.mem_of_mem_getLast? last)⟩

theorem Trimmed.between {first last : Char} (middle : List Char) (start : isSpace first = false)
    (stop : isSpace last = false) : Trimmed (first :: middle ++ [last]) := by
  constructor
  · rintro ch ⟨⟩
    exact start
  · intro ch found
    rw [List.getLast?_concat] at found
    cases found
    exact stop

theorem dropWhile_space {text : List Char} (first : ∀ ch ∈ text.head?, isSpace ch = false) :
    text.dropWhile isSpace = text := by
  cases text with
  | nil => rfl
  | cons ch rest => rw [List.dropWhile_cons, first ch rfl, if_neg Bool.false_ne_true]

theorem rdropWhile_space {text : List Char} (last : ∀ ch ∈ text.getLast?, isSpace ch = false) :
    text.rdropWhile isSpace = text := by
  apply List.rdropWhile_eq_self_iff.mpr
  intro nonempty space
  rw [last _ (List.getLast?_eq_getLast_of_ne_nil nonempty)] at space
  exact Bool.false_ne_true space

theorem strip_trimmed {text : List Char} (trimmed : Trimmed text) : strip text = text := by
  rw [strip, dropWhile_space trimmed.first, rdropWhile_space trimmed.last]

theorem strip_space (text : List Char) : strip (' ' :: text) = strip text := rfl

theorem strip_padded {text : List Char} (trimmed : Trimmed text) :
    strip (text ++ [' ']) = text := by
  cases text with
  | nil => rfl
  | cons ch rest =>
      have kept : (ch :: rest ++ [' ']).dropWhile isSpace = ch :: rest ++ [' '] :=
        dropWhile_space trimmed.first
      rw [strip, kept, List.rdropWhile_concat_pos _ _ _ rfl, rdropWhile_space trimmed.last]

theorem before_mem {mark : Char} {text rest : List Char} (absent : mark ∉ text) :
    before mark (text ++ mark :: rest) = text := by
  have kept : ∀ ch ∈ text, decide (ch ≠ mark) = true := fun ch member =>
    decide_eq_true fun same => absent (same ▸ member)
  rw [before, List.takeWhile_append_of_pos kept, List.takeWhile_cons, if_neg (by simp),
    List.append_nil]

theorem before_absent {mark : Char} {text : List Char} (absent : mark ∉ text) :
    before mark text = text :=
  List.takeWhile_eq_self_iff.mpr fun _ member =>
    decide_eq_true fun same => absent (same ▸ member)

theorem after_mem {mark : Char} {text rest : List Char} (absent : mark ∉ text) :
    after mark (text ++ mark :: rest) = rest := by
  have kept : ∀ ch ∈ text, decide (ch ≠ mark) = true := fun ch member =>
    decide_eq_true fun same => absent (same ▸ member)
  rw [after, List.dropWhile_append_of_pos kept, List.dropWhile_cons, if_neg (by simp),
    List.tail_cons]

theorem ne_of_kind {kind : Char → Bool} {ch mark : Char} (inside : kind ch = true)
    (outside : kind mark = false) : ch ≠ mark := by
  rintro rfl
  rw [inside] at outside
  exact Bool.noConfusion outside

theorem not_mem_of_kind {kind : Char → Bool} {text : List Char} {mark : Char}
    (inside : ∀ ch ∈ text, kind ch = true) (outside : kind mark = false) : mark ∉ text :=
  fun member => ne_of_kind (inside mark member) outside rfl

theorem not_space_word {ch : Char} (word : wordChar ch = true) : isSpace ch = false := by
  have ranges : 65 ≤ ch.toNat ∧ ch.toNat ≤ 90 ∨ 97 ≤ ch.toNat ∧ ch.toNat ≤ 122 ∨
      48 ≤ ch.toNat ∧ ch.toNat ≤ 57 ∨ ch = '_' := by
    simpa [wordChar, Char.isAlphanum, Char.isAlpha, Char.isUpper, Char.isLower, Char.isDigit,
      or_assoc, UInt32.le_iff_toNat_le] using word
  have codes : 48 ≤ ch.toNat ∧ ch.toNat ≤ 122 := by
    rcases ranges with range | range | range | rfl
    · omega
    · omega
    · omega
    · decide
  simp only [isSpace, Bool.or_eq_false_iff, Bool.and_eq_false_iff, decide_eq_false_iff_not,
    beq_eq_false_iff_ne]
  omega

theorem trimmed_word {text : List Char} (word : ∀ ch ∈ text, wordChar ch = true) : Trimmed text :=
  Trimmed.of_solid fun ch member => not_space_word (word ch member)

theorem digits_decimal {value : Nat} : ∀ ch ∈ decimal value, ch.isDigit = true := fun _ member =>
  Nat.isDigit_of_mem_toDigits (by decide) (by decide) member

theorem word_decimal {value : Nat} : ∀ ch ∈ decimal value, wordChar ch = true := fun ch member => by
  simp [wordChar, Char.isAlphanum, digits_decimal ch member]

theorem word_hexadecimal {address : Nat} : ∀ ch ∈ hexadecimal address, wordChar ch = true := by
  have digit : ∀ code < 16, wordChar (Nat.digitChar code) = true := by decide
  have digits : ∀ ch ∈ Nat.toDigits 16 address, wordChar ch = true := by
    induction address using Nat.strong_induction_on with
    | _ address ih =>
        rw [Nat.toDigits_eq_if (by decide)]
        split
        case isTrue short => simpa using digit address short
        case isFalse long =>
          intro ch member
          rcases List.mem_append.mp member with earlier | last
          · exact ih (address / 16) (by omega) ch earlier
          · rw [List.mem_singleton.mp last]
            exact digit (address % 16) (by omega)
  intro ch member
  rcases List.mem_cons.mp member with rfl | later
  · decide
  · rcases List.mem_cons.mp later with rfl | digitMember
    · decide
    · exact digits ch digitMember

theorem head?_decimal {value : Nat} (positive : 0 < value) : (decimal value).head? ≠ some '0' := by
  induction value using Nat.strong_induction_on with
  | _ value ih =>
      rw [decimal, Nat.toDigits_eq_if (by decide)]
      by_cases short : value < 10
      · rw [if_pos short]
        intro head
        exact absurd (Nat.digitChar_eq_zero.mp (Option.some.inj head)) (by omega)
      · rw [if_neg short, List.head?_append_of_ne_nil _ Nat.toDigits_ne_nil]
        exact ih (value / 10) (by omega) (by omega)

theorem digitValue_digit {ch : Char} (digit : ch.isDigit = true) :
    digitValue 10 ch = some (ch.toNat - 48) := by
  have range := digit
  simp only [Char.isDigit, Bool.and_eq_true, decide_eq_true_eq] at range
  have upper : ch.toNat ≤ 57 := range.2
  rw [digitValue, if_pos digit, Option.filter_some, if_pos (by simp; omega)]

theorem foldlM_digits {text : List Char} (digits : ∀ ch ∈ text, ch.isDigit = true) (total : Nat) :
    text.foldlM (fun total ch => (digitValue 10 ch).map (10 * total + ·)) total =
      some (Nat.ofDigitChars 10 text total) := by
  induction text generalizing total with
  | nil => rw [Nat.ofDigitChars_nil]; rfl
  | cons ch rest ih =>
      rw [List.foldlM_cons, digitValue_digit (digits ch List.mem_cons_self), Nat.ofDigitChars_cons]
      exact ih (fun other member => digits other (List.mem_cons_of_mem ch member)) _

theorem digitsValue_digits {text : List Char} (digits : ∀ ch ∈ text, ch.isDigit = true)
    (nonempty : text ≠ []) : digitsValue 10 text = some (Nat.ofDigitChars 10 text 0) := by
  have absent : '_' ∉ text := not_mem_of_kind digits (by decide)
  have kept : text.filter (· ≠ '_') = text := List.filter_eq_self.mpr fun ch member =>
    decide_eq_true fun same => absent (same ▸ member)
  rw [digitsValue, List.splitOn_eq_singleton absent, if_pos (by simpa using nonempty), kept]
  exact foldlM_digits digits 0

/-- A text of digits names no base. -/
theorem magnitude_digits {text : List Char} (digits : ∀ ch ∈ text, ch.isDigit = true) :
    magnitude text =
      (digitsValue 10 text).filter fun value => value = 0 ∨ text.head? ≠ some '0' := by
  have second (ch : Char) (rest : List Char) (other : ch.isDigit = false) :
      text ≠ '0' :: ch :: rest := by
    rintro rfl
    exact not_mem_of_kind digits other (by simp)
  unfold magnitude
  split
  case h_7 => rfl
  all_goals exact absurd rfl (second _ _ (by decide))

theorem magnitude_decimal (value : Nat) : magnitude (decimal value) = some value := by
  rw [magnitude_digits digits_decimal, digitsValue_digits digits_decimal Nat.toDigits_ne_nil,
    decimal, Nat.ofDigitChars_ten_toDigits, Option.filter_some]
  apply if_pos
  rcases Nat.eq_zero_or_pos value with zero | positive
  · exact decide_eq_true (Or.inl zero)
  · exact decide_eq_true (Or.inr (head?_decimal positive))

theorem intBase0_decimal (value : Nat) : intBase0 (decimal value) = some (value : Int) := by
  have head (ch : Char) (rest : List Char) (other : ch.isDigit = false) :
      decimal value ≠ ch :: rest := fun same =>
    not_mem_of_kind digits_decimal other (same ▸ List.mem_cons_self)
  rw [intBase0, strip_trimmed (trimmed_word word_decimal)]
  split
  case h_3 => rw [magnitude_decimal]; rfl
  case h_1 rest same => exact absurd same (head '-' rest (by decide))
  case h_2 rest same => exact absurd same (head '+' rest (by decide))

theorem scalar_decimal (value : Nat) : scalar (decimal value) = some (value : Int) := by
  rw [scalar, before_absent (not_mem_of_kind word_decimal (by decide)),
    strip_trimmed (trimmed_word word_decimal), intBase0_decimal]

/-- What follows the first single quote is not read. -/
theorem scalar_literal (value : Nat) (rest : List Char) :
    scalar (decimal value ++ ' ' :: '\'' :: rest) = some (value : Int) := by
  have absent : '\'' ∉ decimal value ++ [' '] := by
    rw [List.mem_append]
    exact not_or.mpr ⟨not_mem_of_kind word_decimal (by decide), by decide⟩
  have split : decimal value ++ ' ' :: '\'' :: rest = decimal value ++ [' '] ++ '\'' :: rest := by
    simp
  rw [scalar, split, before_mem absent, strip_padded (trimmed_word word_decimal), intBase0_decimal]

end TableText

end ObcZero
