import ObcZero.ScalarRead

/-!
The scan of `_members` over the fields of a printed record: a member for a field as long
as no bracket, brace or quote of a character literal has been taken for one of the text,
and fewer members than fields from there on.
-/

namespace ObcZero

open QuotedScan

namespace TableText

def memberMarks : List Char := ['{', '[', '}', ']', ',']

def MemberScan.entries (scan : MemberScan) : List (List Char × List Char) :=
  (scan.parts ++ [scan.part]).filterMap entryOf

/-- Where a comma ends the part. -/
structure MemberScan.Calm (scan : MemberScan) : Prop where
  quoting : scan.quoting = outside
  depth : scan.depth = 0

section

variable {scan : MemberScan} {ch : Char} {text : List Char}

theorem membersStep_inert (inert : scan.quoting.bare = true → ch ∉ memberMarks) :
    membersStep scan ch =
      { scan with quoting := scan.quoting.step ch, part := scan.part ++ [ch] } := by
  unfold membersStep
  cases bare : scan.quoting.bare with
  | false => rfl
  | true =>
      have unmarked := inert bare
      simp only [memberMarks, List.mem_cons, List.not_mem_nil, or_false, not_or] at unmarked
      obtain ⟨brace, bracket, endBrace, endBracket, comma⟩ := unmarked
      simp [brace, bracket, endBrace, endBracket, comma]

theorem members_run (inert : Inert memberMarks scan.quoting text) :
    text.foldl membersStep scan =
      { scan with quoting := scan.quoting.run text, part := scan.part ++ text } := by
  induction text generalizing scan with
  | nil => simp [Quoting.run]
  | cons ch rest ih =>
      have step := membersStep_inert inert.1
      rw [List.foldl_cons, step, ih inert.2]
      simp [Quoting.run]

theorem members_pass (quoting : scan.quoting = outside) (passes : PassesBy memberMarks text) :
    text.foldl membersStep scan = { scan with part := scan.part ++ text } := by
  rw [members_run (quoting ▸ passes.inert), quoting, passes.closed]

theorem membersStep_split (calm : scan.Calm) :
    membersStep scan ',' = { scan with part := [], parts := scan.parts ++ [scan.part] } := by
  obtain ⟨quoting, depth⟩ := calm
  simp [membersStep, quoting, depth, Quoting.bare, outside]

theorem membersStep_keeps (stays : ch = ',' → ¬scan.Calm) :
    (membersStep scan ch).part = scan.part ++ [ch] ∧ (membersStep scan ch).parts = scan.parts := by
  unfold membersStep
  dsimp only
  split_ifs with bare deeper shallower splits
  · exact ⟨rfl, rfl⟩
  · exact ⟨rfl, rfl⟩
  · exact absurd ⟨bare_iff.mp bare, splits.1⟩ (stays splits.2)
  · exact ⟨rfl, rfl⟩
  · exact ⟨rfl, rfl⟩

end

theorem entries_split {scan : MemberScan} (calm : scan.Calm) :
    (membersStep scan ',').entries = scan.entries := by
  rw [membersStep_split calm, MemberScan.entries, List.filterMap_append]
  exact List.append_nil _

theorem length_entries (scan : MemberScan) :
    scan.entries.length =
      (scan.parts.filterMap entryOf).length + if '=' ∈ scan.part then 1 else 0 := by
  rw [MemberScan.entries, List.filterMap_append, List.length_append]
  congr 1
  unfold entryOf
  by_cases present : '=' ∈ scan.part
  · simp [present]
  · simp [present]

/-- Only an equals sign makes another member. -/
theorem length_entries_step (scan : MemberScan) (ch : Char) :
    (membersStep scan ch).entries.length ≤ scan.entries.length + if ch = '=' then 1 else 0 := by
  by_cases splits : ch = ',' ∧ scan.Calm
  · obtain ⟨rfl, calm⟩ := splits
    rw [entries_split calm]
    exact Nat.le_add_right _ _
  · obtain ⟨part, parts⟩ := membersStep_keeps (not_and.mp splits)
    have signs : '=' ∈ (membersStep scan ch).part ↔ '=' ∈ scan.part ∨ ch = '=' := by
      rw [part, List.mem_append, List.mem_singleton, eq_comm]
    rw [length_entries, length_entries, parts]
    split_ifs <;> first | omega | tauto

theorem length_entries_run {text : List Char} (absent : '=' ∉ text) (scan : MemberScan) :
    (text.foldl membersStep scan).entries.length ≤ scan.entries.length := by
  induction text generalizing scan with
  | nil => exact Nat.le_refl _
  | cons ch rest ih =>
      obtain ⟨first, later⟩ := List.ne_and_not_mem_of_not_mem_cons absent
      have step := length_entries_step scan ch
      rw [if_neg (Ne.symm first)] at step
      exact (ih later _).trans step

theorem length_entries_kept {scan : MemberScan} {ch : Char} (present : '=' ∈ scan.part)
    (stays : ch = ',' → ¬scan.Calm) :
    (membersStep scan ch).entries.length = scan.entries.length ∧
      '=' ∈ (membersStep scan ch).part := by
  obtain ⟨part, parts⟩ := membersStep_keeps stays
  have kept : '=' ∈ (membersStep scan ch).part := part ▸ List.mem_append_left _ present
  rw [length_entries, length_entries, if_pos kept, if_pos present, parts]
  exact ⟨rfl, kept⟩

/-- A part that has its equals sign takes in whatever has no comma. -/
theorem length_entries_part {text : List Char} {scan : MemberScan} (present : '=' ∈ scan.part)
    (absent : ',' ∉ text) :
    (text.foldl membersStep scan).entries.length ≤ scan.entries.length ∧
      '=' ∈ (text.foldl membersStep scan).part := by
  induction text generalizing scan with
  | nil => exact ⟨Nat.le_refl _, present⟩
  | cons ch rest ih =>
      obtain ⟨first, later⟩ := List.ne_and_not_mem_of_not_mem_cons absent
      have step := length_entries_kept present fun comma : ch = ',' => absurd comma.symm first
      have after := ih step.2 later
      exact ⟨after.1.trans step.1.le, after.2⟩

theorem members_part {text : List Char} (absent : ',' ∉ text) (scan : MemberScan) :
    (text.foldl membersStep scan).part = scan.part ++ text ∧
      (text.foldl membersStep scan).parts = scan.parts := by
  induction text generalizing scan with
  | nil => exact ⟨(List.append_nil _).symm, rfl⟩
  | cons ch rest ih =>
      obtain ⟨first, later⟩ := List.ne_and_not_mem_of_not_mem_cons absent
      obtain ⟨part, parts⟩ :=
        membersStep_keeps fun comma : ch = ',' => absurd comma.symm first
      have after := ih later (membersStep scan ch)
      rw [List.foldl_cons, after.1, after.2, part, parts, List.append_assoc]
      exact ⟨rfl, rfl⟩

theorem plain_word {ch : Char} (word : wordChar ch = true) : Plain memberMarks ch := by
  refine ⟨fun mark => ?_, ne_of_kind word (by decide), ne_of_kind word (by decide)⟩
  have others : memberMarks.all (fun mark => !wordChar mark) = true := rfl
  have other := List.all_eq_true.mp others ch mark
  rw [word] at other
  exact Bool.noConfusion other

theorem passes_word {text : List Char} (word : ∀ ch ∈ text, wordChar ch = true) :
    PassesBy memberMarks text :=
  passes_plain fun ch member => plain_word (word ch member)

theorem passes_space : PassesBy memberMarks [' '] := by decide

theorem zeros_run (zeros : Nat) :
    let content := (List.replicate zeros ['\\', '0', '0', '0']).flatten
    Inert memberMarks { inStr := true, escaped := false } content ∧
      Quoting.run { inStr := true, escaped := false } content =
        { inStr := true, escaped := false } := by
  induction zeros with
  | zero => exact ⟨trivial, rfl⟩
  | succ zeros ih =>
      have one : Inert memberMarks { inStr := true, escaped := false } ['\\', '0', '0', '0'] := by
        decide
      exact ⟨inert_append.mpr ⟨one, ih.1⟩, ih.2⟩

theorem passes_padding (zeros : Nat) : PassesBy memberMarks (Value.padding zeros).text :=
  passes_string (by decide) (zeros_run zeros).1 (zeros_run zeros).2

theorem passes_function (address : Nat) (symbol : Option Word) :
    PassesBy memberMarks (Value.function address symbol).text := by
  have digits : PassesBy memberMarks (hexadecimal address) := passes_word word_hexadecimal
  cases symbol with
  | none => exact digits
  | some symbol =>
      have lead : PassesBy memberMarks [' ', '<'] := by decide
      have close : PassesBy memberMarks ['>'] := by decide
      have named := lead.append ((passes_word symbol.letters).append close)
      simpa [Value.text] using digits.append named

/-- Everything that is printed but the literal of a byte passes the scanners by. -/
theorem passes_value {marks : List Char} (fewer : marks ⊆ memberMarks) {value : Value}
    (literal : ∀ byte, value = .byte byte → PassesBy marks (charLiteral byte)) :
    PassesBy marks value.text := by
  cases value with
  | number value => exact (passes_word word_decimal).mono fewer
  | byte value =>
      have digits : PassesBy memberMarks (decimal value.toNat) := passes_word word_decimal
      have spaced := (digits.append passes_space).mono fewer
      simpa [Value.text] using spaced.append (literal value rfl)
  | padding zeros => exact (passes_padding zeros).mono fewer
  | function address symbol => exact (passes_function address symbol).mono fewer

def Value.settled (value : Value) : Bool := !value.opensText && !value.nests

theorem byte_cases (byte : U8) :
    byte = 44 ∨ (',' ∉ charLiteral byte ∧
      ((Value.byte byte).settled = true → PassesBy memberMarks (charLiteral byte))) := by
  revert byte
  decide +kernel

/-- What `_members` takes for the value: the literal of a comma is split at it. -/
def Value.read : Value → List Char
  | .byte code => if code = 44 then ['4', '4', ' ', '\''] else (Value.byte code).text
  | value => value.text

theorem trimmed_value (value : Value) : Trimmed value.text := by
  cases value with
  | number value => exact trimmed_word word_decimal
  | byte value =>
      obtain ⟨digit, rest, digits⟩ := List.exists_cons_of_ne_nil
        (show decimal value.toNat ≠ [] from Nat.toDigits_ne_nil)
      have start : isSpace digit = false :=
        not_space_word (word_decimal digit (digits ▸ List.mem_cons_self))
      have between := Trimmed.between (rest ++ ' ' :: '\'' :: escapeByte value) start
        (show isSpace '\'' = false by decide)
      simpa [Value.text, charLiteral, digits] using between
  | padding zeros => exact Trimmed.between _ (by decide) (by decide)
  | function address symbol =>
      cases symbol with
      | none => exact trimmed_word word_hexadecimal
      | some symbol =>
          have between := Trimmed.between
            ('x' :: Nat.toDigits 16 address ++ ' ' :: '<' :: symbol.chars)
            (show isSpace '0' = false by decide) (show isSpace '>' = false by decide)
          simpa [Value.text, hexadecimal] using between

theorem entryOf_lead (field : Member) {text : List Char} (trimmed : Trimmed text) :
    entryOf (field.lead ++ text) = some (field.name.chars, text) := by
  have absent : '=' ∉ ' ' :: field.name.chars ++ [' '] := by
    have inName : '=' ∉ field.name.chars := not_mem_of_kind field.name.letters (by decide)
    simp [inName]
  have split : field.lead ++ text = (' ' :: field.name.chars ++ [' ']) ++ '=' :: ' ' :: text := by
    simp [Member.lead]
  have present : '=' ∈ field.lead ++ text := by simp [Member.lead]
  rw [entryOf, if_pos present, split, before_mem absent, after_mem absent, List.cons_append,
    strip_space, strip_space, strip_padded (trimmed_word field.name.letters), strip_trimmed trimmed]

theorem passes_lead (field : Member) : PassesBy memberMarks field.lead := by
  have sign : PassesBy memberMarks [' ', '=', ' '] := by decide
  simpa [Member.lead] using
    passes_space.append ((passes_word field.name.letters).append sign)

theorem lead_run {scan : MemberScan} (calm : scan.Calm) (field : Member) :
    (',' :: field.lead).foldl membersStep scan =
      { scan with part := field.lead, parts := scan.parts ++ [scan.part] } := by
  let fresh : MemberScan := { scan with part := [], parts := scan.parts ++ [scan.part] }
  have run := members_pass (show fresh.quoting = outside from calm.quoting) (passes_lead field)
  rw [List.foldl_cons, membersStep_split calm]
  exact run

/-- What one field does to a scan that a comma ends the part of. -/
structure TakesField (scan next : MemberScan) (field : Member) : Prop where
  entries : next.entries = scan.entries ++ [(field.name.chars, field.value.read)]
  calm : field.value.settled = true → next.Calm
  lost : field.value.settled = false → ¬next.Calm ∧ '=' ∈ next.part

theorem entries_lead {parts : List (List Char)} {field : Member} {text : List Char}
    (trimmed : Trimmed text) :
    (parts ++ [field.lead ++ text]).filterMap entryOf =
      parts.filterMap entryOf ++ [(field.name.chars, text)] := by
  rw [List.filterMap_append]
  simp [entryOf_lead field trimmed]

theorem opening_literal {byte : U8} (opens : (Value.byte byte).opensText = true) :
    ∃ mark, charLiteral byte = ['\'', mark, '\''] ∧ (mark = '"' ∨ mark = '{' ∨ mark = '}') := by
  have codes : byte = 34 ∨ byte = 123 ∨ byte = 125 := by
    revert byte
    decide +kernel
  rcases codes with rfl | rfl | rfl
  · exact ⟨'"', by decide, Or.inl rfl⟩
  · exact ⟨'{', by decide, Or.inr (Or.inl rfl)⟩
  · exact ⟨'}', by decide, Or.inr (Or.inr rfl)⟩

theorem nesting_literal {byte : U8} (nests : (Value.byte byte).nests = true) :
    ∃ mark, charLiteral byte = ['\'', mark, '\''] ∧ (mark = '[' ∨ mark = ']') := by
  have codes : byte = 91 ∨ byte = 93 := by
    revert byte
    decide +kernel
  rcases codes with rfl | rfl
  · exact ⟨'[', by decide, Or.inl rfl⟩
  · exact ⟨']', by decide, Or.inr rfl⟩

/-- What is printed of a byte before the character in its literal. -/
def literalLead (byte : U8) : List Char := decimal byte.toNat ++ [' ', '\'']

theorem passes_literalLead (byte : U8) : PassesBy memberMarks (literalLead byte) := by
  have digits : PassesBy memberMarks (decimal byte.toNat) := passes_word word_decimal
  have quote : PassesBy memberMarks [' ', '\''] := by decide
  exact digits.append quote

theorem literal_text {byte : U8} {mark : Char} (literal : charLiteral byte = ['\'', mark, '\'']) :
    (Value.byte byte).text = literalLead byte ++ [mark, '\''] := by
  simp [Value.text, literalLead, literal]

theorem literal_run {byte : U8} {mark : Char} (literal : charLiteral byte = ['\'', mark, '\''])
    {scan : MemberScan} (calm : scan.Calm) :
    (Value.byte byte).text.foldl membersStep scan = [mark, '\''].foldl membersStep
      { scan with part := scan.part ++ literalLead byte } := by
  rw [literal_text literal, List.foldl_append, members_pass calm.quoting (passes_literalLead byte)]

theorem not_calm_unsettled {byte : U8} (unsettled : (Value.byte byte).settled = false)
    {scan : MemberScan} (calm : scan.Calm) :
    ¬((Value.byte byte).text.foldl membersStep scan).Calm := by
  rw [Value.settled, Bool.and_eq_false_iff, Bool.not_eq_false', Bool.not_eq_false'] at unsettled
  rcases unsettled with opens | nests
  · obtain ⟨mark, literal, marks⟩ := opening_literal opens
    rw [literal_run literal calm]
    obtain ⟨quoting, depth, part, parts⟩ := scan
    obtain ⟨rfl, rfl⟩ := calm
    rintro ⟨quoting, depth⟩
    rcases marks with rfl | rfl | rfl
    · exact absurd (show true = false from congrArg Quoting.inStr quoting) (by decide)
    · exact absurd (show (1 : Int) = 0 from depth) (by decide)
    · exact absurd (show (-1 : Int) = 0 from depth) (by decide)
  · obtain ⟨mark, literal, marks⟩ := nesting_literal nests
    rw [literal_run literal calm]
    obtain ⟨quoting, depth, part, parts⟩ := scan
    obtain ⟨rfl, rfl⟩ := calm
    rintro ⟨_, depth⟩
    rcases marks with rfl | rfl
    · exact absurd (show (1 : Int) = 0 from depth) (by decide)
    · exact absurd (show (-1 : Int) = 0 from depth) (by decide)

theorem comma_run {scan : MemberScan} (calm : scan.Calm) :
    (Value.byte 44).text.foldl membersStep scan =
      { scan with
        part := ['\'']
        parts := scan.parts ++ [scan.part ++ (Value.byte 44).read] } := by
  have literal : charLiteral 44 = ['\'', ',', '\''] := by decide
  have lead : literalLead 44 = (Value.byte 44).read := by decide
  rw [literal_run literal calm, lead]
  obtain ⟨quoting, depth, part, parts⟩ := scan
  obtain ⟨rfl, rfl⟩ := calm
  rfl

theorem opened_comma {scan : MemberScan} (calm : scan.Calm) {field : Member}
    (comma : field.value = .byte 44) :
    TakesField scan (field.text.foldl membersStep scan) field := by
  have openedCalm :
      ({ scan with part := field.lead, parts := scan.parts ++ [scan.part] } : MemberScan).Calm :=
    ⟨calm.quoting, calm.depth⟩
  have split : ∀ parts : List (List Char), (parts ++ [['\'']]).filterMap entryOf =
      parts.filterMap entryOf := fun parts => by
    rw [List.filterMap_append]
    exact List.append_nil _
  have settled : (Value.byte 44).settled = true := by decide
  rw [Member.text, List.foldl_append, lead_run calm field, comma, comma_run openedCalm]
  constructor
  · have trimmed : Trimmed (Value.byte 44).read :=
      show Trimmed ('4' :: ['4', ' '] ++ ['\'']) from Trimmed.between _ (by decide) (by decide)
    rw [MemberScan.entries, split, entries_lead trimmed, comma]
    rfl
  · exact fun _ => ⟨calm.quoting, calm.depth⟩
  · intro unsettled
    rw [comma, settled] at unsettled
    exact Bool.noConfusion unsettled

theorem settled_or_byte (value : Value) : value.settled = true ∨ ∃ byte, value = .byte byte := by
  cases value with
  | byte byte => exact Or.inr ⟨byte, rfl⟩
  | _ => exact Or.inl rfl

theorem comma_not_mem {value : Value} (other : value ≠ .byte 44) : ',' ∉ value.text := by
  cases value with
  | number value => exact not_mem_of_kind word_decimal (by decide)
  | byte byte =>
      have literal := ((byte_cases byte).resolve_left fun same => other (congrArg _ same)).1
      have digits : ',' ∉ decimal byte.toNat := not_mem_of_kind word_decimal (by decide)
      simp [Value.text, digits, literal]
  | padding zeros => simp [Value.text]
  | function address symbol =>
      have digits : ',' ∉ hexadecimal address := not_mem_of_kind word_hexadecimal (by decide)
      cases symbol with
      | none => exact digits
      | some symbol =>
          have letters : ',' ∉ symbol.chars := not_mem_of_kind symbol.letters (by decide)
          simp [Value.text, digits, letters]

theorem settled_passes {value : Value} (other : value ≠ .byte 44) (settled : value.settled = true) :
    PassesBy memberMarks value.text := by
  apply passes_value (List.Subset.refl memberMarks)
  rintro byte rfl
  exact ((byte_cases byte).resolve_left fun same => other (congrArg _ same)).2 settled

theorem read_eq_text {value : Value} (other : value ≠ .byte 44) : value.read = value.text := by
  cases value with
  | byte byte => exact if_neg fun same => other (congrArg _ same)
  | _ => rfl

theorem opened_whole {scan : MemberScan} (calm : scan.Calm) {field : Member}
    (other : field.value ≠ .byte 44) :
    TakesField scan (field.text.foldl membersStep scan) field := by
  let opened : MemberScan := { scan with part := field.lead, parts := scan.parts ++ [scan.part] }
  have openedCalm : opened.Calm := ⟨calm.quoting, calm.depth⟩
  have text : field.text.foldl membersStep scan = field.value.text.foldl membersStep opened := by
    rw [Member.text, List.foldl_append, lead_run calm field]
  obtain ⟨part, parts⟩ := members_part (comma_not_mem other) opened
  rw [text]
  constructor
  · rw [MemberScan.entries, part, parts, entries_lead (trimmed_value field.value),
      read_eq_text other]
    rfl
  · intro settled
    rw [members_pass openedCalm.quoting (settled_passes other settled)]
    exact ⟨calm.quoting, calm.depth⟩
  · intro unsettled
    constructor
    · rcases settled_or_byte field.value with settled | ⟨byte, same⟩
      · rw [settled] at unsettled
        exact Bool.noConfusion unsettled
      · rw [same] at unsettled ⊢
        exact not_calm_unsettled unsettled openedCalm
    · rw [part]
      exact List.mem_append_left _ (by simp [opened, Member.lead])

theorem field_reads {scan : MemberScan} (calm : scan.Calm) (field : Member) :
    TakesField scan (field.text.foldl membersStep scan) field := by
  by_cases comma : field.value = .byte 44
  · exact opened_comma calm comma
  · exact opened_whole calm comma

theorem value_le {scan : MemberScan} (present : '=' ∈ scan.part) (value : Value) :
    (value.text.foldl membersStep scan).entries.length ≤ scan.entries.length := by
  by_cases comma : value = .byte 44
  · subst comma
    exact length_entries_run (by decide) scan
  · exact (length_entries_part present (comma_not_mem comma)).1

/-- From any state, one field makes at most one member. -/
theorem field_le (scan : MemberScan) (field : Member) :
    (field.text.foldl membersStep scan).entries.length ≤ scan.entries.length + 1 := by
  have inName : '=' ∉ field.name.chars := not_mem_of_kind field.name.letters (by decide)
  have unsigned : '=' ∉ ',' :: ' ' :: field.name.chars ++ [' '] := by simp [inName]
  have text : field.text =
      (',' :: ' ' :: field.name.chars ++ [' ']) ++ '=' :: [' '] ++ field.value.text := by
    simp [Member.text, Member.lead]
  have named := length_entries_run unsigned scan
  rw [text, List.foldl_append, List.foldl_append, List.foldl_cons]
  generalize (',' :: ' ' :: field.name.chars ++ [' ']).foldl membersStep scan = before at named ⊢
  have signed := length_entries_step before '='
  have present : '=' ∈ (membersStep before '=').part := by
    rw [(membersStep_keeps fun comma => absurd comma (by decide)).1]
    exact List.mem_append_right _ List.mem_cons_self
  have spaced := length_entries_part present (show ',' ∉ [' '] by decide)
  have valued := value_le spaced.2 field.value
  rw [if_pos rfl] at signed
  omega

/-- Where a comma does not end the part, a field makes none. -/
theorem field_lost {scan : MemberScan} (rough : ¬scan.Calm) (present : '=' ∈ scan.part)
    (field : Member) :
    (field.text.foldl membersStep scan).entries.length ≤ scan.entries.length := by
  have inName : ',' ∉ field.name.chars := not_mem_of_kind field.name.letters (by decide)
  have comma := length_entries_kept present fun _ : ',' = ',' => rough
  have lead := length_entries_part comma.2 (show ',' ∉ field.lead by simp [Member.lead, inName])
  have valued := value_le lead.2 field.value
  rw [Member.text, List.foldl_append, List.foldl_cons]
  omega

theorem fields_le (scan : MemberScan) (fields : List Member) :
    ((fields.flatMap Member.text).foldl membersStep scan).entries.length ≤
      scan.entries.length + fields.length := by
  induction fields generalizing scan with
  | nil => exact Nat.le_refl _
  | cons field rest ih =>
      have first := field_le scan field
      have later := ih (field.text.foldl membersStep scan)
      rw [List.flatMap_cons, List.foldl_append, List.length_cons]
      omega

theorem fields_read {scan : MemberScan} (calm : scan.Calm) {fields : List Member}
    (settled : ∀ field ∈ fields.dropLast, field.value.settled = true) :
    ((fields.flatMap Member.text).foldl membersStep scan).entries =
      scan.entries ++ fields.map fun field => (field.name.chars, field.value.read) := by
  induction fields generalizing scan with
  | nil => simp
  | cons field rest ih =>
      have takes := field_reads calm field
      rw [List.flatMap_cons, List.foldl_append]
      cases rest with
      | nil => simpa using takes.entries
      | cons next more =>
          rw [List.dropLast_cons_of_ne_nil (List.cons_ne_nil next more)] at settled
          rw [ih (takes.calm (settled field List.mem_cons_self))
            (fun other member => settled other (List.mem_cons_of_mem _ member)), takes.entries]
          simp

theorem fields_lost {scan : MemberScan} (calm : scan.Calm) {fields : List Member}
    (unsettled : ∃ field ∈ fields.dropLast, field.value.settled = false) :
    ((fields.flatMap Member.text).foldl membersStep scan).entries.length <
      scan.entries.length + fields.length := by
  induction fields generalizing scan with
  | nil => simp at unsettled
  | cons field rest ih =>
      have takes := field_reads calm field
      have taken := congrArg List.length takes.entries
      rw [List.length_append, List.length_singleton] at taken
      rw [List.flatMap_cons, List.foldl_append, List.length_cons]
      cases rest with
      | nil => simp at unsettled
      | cons next more =>
          cases settled : field.value.settled with
          | true =>
              obtain ⟨other, member, bad⟩ := unsettled
              rw [List.dropLast_cons_of_ne_nil (List.cons_ne_nil next more)] at member
              rcases List.mem_cons.mp member with rfl | later
              · rw [settled] at bad
                exact Bool.noConfusion bad
              · have rest := ih (takes.calm settled) ⟨other, later, bad⟩
                omega
          | false =>
              obtain ⟨rough, present⟩ := takes.lost settled
              have none := field_lost rough present next
              have others := fields_le
                (next.text.foldl membersStep (field.text.foldl membersStep scan)) more
              rw [List.flatMap_cons, List.foldl_append, List.length_cons]
              omega

end TableText

end ObcZero
