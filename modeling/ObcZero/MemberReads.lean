import ObcZero.MemberSplit

/-! What the host recovers of one printed record, and exactly when that is all of it. -/

namespace ObcZero

open QuotedScan

namespace TableText

theorem unbraced_braced (text : List Char) : unbraced ('{' :: text ++ ['}']) = text := by
  rw [unbraced, strip_trimmed (Trimmed.between text (by decide) (by decide))]
  change removeSuffixBrace (text ++ ['}']) = text
  rw [removeSuffixBrace, if_pos List.getLast?_concat, List.dropLast_concat]

theorem passes_quoted (record : Record) : PassesBy memberMarks (quotedName record) := by
  have plain : ∀ ch ∈ record.name, ch ≠ '\\' ∧ ch ≠ '"' := fun ch member =>
    ⟨(record.plain ch member).2.1, (record.plain ch member).1⟩
  exact passes_plainString (by decide) plain

theorem passes_name (record : Record) : PassesBy memberMarks (nameText record) := by
  unfold nameText
  cases record.address with
  | none => exact passes_quoted record
  | some address =>
      have digits : PassesBy memberMarks (hexadecimal address) := passes_word word_hexadecimal
      simpa using (digits.append passes_space).append (passes_quoted record)

theorem trimmed_name (record : Record) : Trimmed (nameText record) := by
  unfold nameText
  cases record.address with
  | none => exact Trimmed.between _ (by decide) (by decide)
  | some address =>
      have between := Trimmed.between ('x' :: Nat.toDigits 16 address ++ ' ' :: '"' :: record.name)
        (show isSpace '0' = false by decide) (show isSpace '"' = false by decide)
      simpa [hexadecimal, quotedName] using between

theorem nameOf_nameText (record : Record) : nameOf (nameText record) = some record.name := by
  have closing : '"' ∉ record.name := fun member => (record.plain '"' member).1 rfl
  have named (lead : List Char) (absent : '"' ∉ lead) :
      nameOf (lead ++ quotedName record) = some record.name := by
    rw [nameOf, quotedName, List.cons_append, List.splitOn_append_cons_self_of_not_mem absent,
      List.splitOn_append_cons_self_of_not_mem closing]
    rfl
  unfold nameText
  cases record.address with
  | none => exact named [] List.not_mem_nil
  | some address =>
      have digits : '"' ∉ hexadecimal address := not_mem_of_kind word_hexadecimal (by decide)
      have lead := named (hexadecimal address ++ [' ']) (by simp [digits])
      simpa using lead

def nameLead : List Char := nameKey ++ [' ', '=', ' ']

theorem entryOf_name (record : Record) :
    entryOf (nameLead ++ nameText record) = some (nameKey, nameText record) := by
  have present : '=' ∈ nameLead ++ nameText record := by simp [nameLead]
  have split : nameLead ++ nameText record =
      (nameKey ++ [' ']) ++ '=' :: ' ' :: nameText record := by
    simp [nameLead]
  have absent : '=' ∉ nameKey ++ [' '] := by decide
  have key : strip (nameKey ++ [' ']) = nameKey := by decide
  rw [entryOf, if_pos present, split, before_mem absent, after_mem absent, key, strip_space,
    strip_trimmed (trimmed_name record)]

theorem passes_bodyLead (record : Record) : PassesBy memberMarks (nameLead ++ nameText record) := by
  have lead : PassesBy memberMarks nameLead := by decide
  exact lead.append (passes_name record)

/-- The scan once it has the name of the record. -/
def named (record : Record) : MemberScan :=
  { quoting := outside, depth := 0, part := nameLead ++ nameText record, parts := [] }

theorem entries_named (record : Record) :
    (named record).entries = [(nameKey, nameText record)] := by
  simp [MemberScan.entries, named, entryOf_name]

theorem memberScan_record (record : Record) :
    memberScan (printRecord record) =
      (record.fields.flatMap Member.text).foldl membersStep (named record) := by
  rw [memberScan, printRecord, unbraced_braced, Record.body, List.foldl_append]
  congr 1
  exact members_pass rfl (passes_bodyLead record)

theorem entries_record (record : Record)
    (settled : ∀ field ∈ record.fields.dropLast, field.value.settled = true) :
    (memberScan (printRecord record)).entries =
      (nameKey, nameText record) ::
        record.fields.map fun field => (field.name.chars, field.value.read) := by
  rw [memberScan_record, fields_read (show (named record).Calm from ⟨rfl, rfl⟩) settled,
    entries_named]
  rfl

theorem members_eq (record : List Char) :
    members record = (memberScan record).entries.foldl setItem [] := rfl

theorem foldl_setItem {dict items : List (List Char × List Char)}
    (distinct : ((dict ++ items).map Prod.fst).Nodup) :
    items.foldl setItem dict = dict ++ items := by
  induction items generalizing dict with
  | nil => exact (List.append_nil dict).symm
  | cons item rest ih =>
      have fresh : dict.any (·.1 == item.1) = false := by
        rw [List.map_append, List.map_cons] at distinct
        have apart := (List.nodup_append.mp distinct).2.2
        rw [List.any_eq_false]
        intro entry member same
        exact apart _ (List.mem_map_of_mem member) _ List.mem_cons_self (beq_iff_eq.mp same)
      have append : dict ++ item :: rest = dict ++ [item] ++ rest := by simp
      rw [List.foldl_cons, setItem, fresh, if_neg Bool.false_ne_true, append]
      exact ih (append ▸ distinct)

theorem length_foldl_setItem (dict items : List (List Char × List Char)) :
    (items.foldl setItem dict).length ≤ dict.length + items.length := by
  induction items generalizing dict with
  | nil => exact Nat.le_refl _
  | cons item rest ih =>
      have step : (setItem dict item).length ≤ dict.length + 1 := by
        unfold setItem
        split_ifs
        · rw [List.length_map]
          omega
        · rw [List.length_append, List.length_singleton]
      have later := ih (setItem dict item)
      rw [List.foldl_cons, List.length_cons]
      omega

theorem item_mem {dict : List (List Char × List Char)} {key value : List Char}
    (distinct : (dict.map Prod.fst).Nodup) (member : (key, value) ∈ dict) :
    item dict key = some value := by
  induction dict with
  | nil => exact absurd member List.not_mem_nil
  | cons entry rest ih =>
      obtain ⟨other, otherValue⟩ := entry
      obtain ⟨fresh, later⟩ := List.nodup_cons.mp distinct
      rcases List.mem_cons.mp member with same | found
      · cases same
        exact List.lookup_cons_self
      · have different : key ≠ other := by
          rintro rfl
          exact fresh (List.mem_map.mpr ⟨(key, value), found, rfl⟩)
        rw [item, List.lookup_cons, beq_false_of_ne different]
        exact ih later found

theorem scalar_read {value : Value} {number : Int} (numeric : number ∈ value.numeric) :
    scalar value.read = some number := by
  cases value with
  | number value =>
      cases numeric
      exact scalar_decimal value
  | byte byte =>
      cases numeric
      by_cases comma : byte = 44
      · subst comma
        decide
      · rw [read_eq_text fun same => comma (Value.byte.inj same)]
        exact scalar_literal byte.toNat _
  | padding zeros => cases numeric
  | function address symbol => cases numeric

theorem members_settled {record : Record}
    (settled : ∀ field ∈ record.fields.dropLast, field.value.settled = true) :
    members (printRecord record) =
      (nameKey, nameText record) ::
        record.fields.map fun field => (field.name.chars, field.value.read) := by
  have distinct := record.distinct
  rw [members_eq, entries_record record settled, foldl_setItem]
  · rfl
  · simpa [Function.comp_def] using distinct

theorem recovered_settled {record : Record}
    (settled : ∀ field ∈ record.fields.dropLast, field.value.settled = true) :
    Recovered record := by
  have entries := members_settled settled
  have names : (members (printRecord record)).map Prod.fst =
      nameKey :: record.fields.map fun field => field.name.chars := by
    rw [entries]
    simp [Function.comp_def]
  have distinct : ((members (printRecord record)).map Prod.fst).Nodup := names ▸ record.distinct
  refine ⟨names, ?_, ?_⟩
  · have label : item (members (printRecord record)) nameKey = some (nameText record) :=
      item_mem distinct (entries ▸ List.mem_cons_self)
    rw [label]
    exact nameOf_nameText record
  · intro field member number numeric
    have value : item (members (printRecord record)) field.name.chars = some field.value.read := by
      apply item_mem distinct
      rw [entries]
      exact List.mem_cons_of_mem _ (List.mem_map.mpr ⟨field, member, rfl⟩)
    rw [value]
    exact scalar_read numeric

theorem Recovered.settled {record : Record} (recovered : Recovered record) :
    ∀ field ∈ record.fields.dropLast, field.value.settled = true := by
  by_contra rough
  push Not at rough
  obtain ⟨field, member, unsettled⟩ := rough
  have calm : (named record).Calm := ⟨rfl, rfl⟩
  have lost := fields_lost calm ⟨field, member, Bool.eq_false_of_not_eq_true unsettled⟩
  have bound := length_foldl_setItem [] (memberScan (printRecord record)).entries
  have names := congrArg List.length recovered.names
  rw [← memberScan_record, entries_named] at lost
  rw [← members_eq] at bound
  simp only [List.length_map, List.length_cons, List.length_nil] at names lost bound
  omega

/-- A record is recovered exactly if only its last field may hold a byte that the scan
takes for a bracket, a brace or a double quote. -/
theorem recovered_iff (record : Record) :
    Recovered record ↔ ∀ field ∈ record.fields.dropLast, field.value.settled = true :=
  ⟨Recovered.settled, recovered_settled⟩

end TableText

end ObcZero
