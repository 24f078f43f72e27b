import ObcZero.MemberReads

/-!
The scan of `_records` over a printed table, and what the host reads of a whole table:
exactly when it is the table.
-/

namespace ObcZero

open QuotedScan

namespace TableText

def recordMarks : List Char := ['{', '}']

theorem recordMarks_subset : recordMarks ⊆ memberMarks := by simp [recordMarks, memberMarks]

def RecordScan.between (out : List (List Char)) : RecordScan :=
  { quoting := outside, depth := 0, cur := [], out := out }

section

variable {scan : RecordScan} {text : List Char}

theorem recordsStep_inert {ch : Char} (deep : 0 < scan.depth)
    (inert : scan.quoting.bare = true → ch ∉ recordMarks) :
    recordsStep scan ch =
      { scan with quoting := scan.quoting.step ch, cur := scan.cur ++ [ch] } := by
  unfold recordsStep
  cases bare : scan.quoting.bare with
  | false => simp [RecordScan.keep, deep]
  | true =>
      have unmarked := inert bare
      simp only [recordMarks, List.mem_cons, List.not_mem_nil, or_false, not_or] at unmarked
      simp [RecordScan.keep, deep, unmarked.1, unmarked.2]

theorem records_run (deep : 0 < scan.depth) (inert : Inert recordMarks scan.quoting text) :
    text.foldl recordsStep scan =
      { scan with quoting := scan.quoting.run text, cur := scan.cur ++ text } := by
  induction text generalizing scan with
  | nil => simp [Quoting.run]
  | cons ch rest ih =>
      have step := recordsStep_inert deep inert.1
      have deeper : 0 < (recordsStep scan ch).depth := by
        rw [step]
        exact deep
      have later := ih deeper (by rw [step]; exact inert.2)
      rw [List.foldl_cons, later, step]
      simp [Quoting.run]

end

/-- The scan inside a record that has been read as far as `text`. -/
def RecordScan.inside (out : List (List Char)) (text : List Char) : RecordScan :=
  { quoting := outside, depth := 1, cur := text, out := out }

theorem inside_run {out : List (List Char)} {cur text : List Char}
    (passes : PassesBy recordMarks text) :
    text.foldl recordsStep (RecordScan.inside out cur) = RecordScan.inside out (cur ++ text) := by
  rw [records_run (show 0 < (1 : Int) by decide) passes.inert]
  exact congrArg (fun quoting => RecordScan.mk quoting 1 (cur ++ text) out) passes.closed

theorem record_run (out : List (List Char)) {body : List Char}
    (passes : PassesBy recordMarks body) :
    ('{' :: body ++ ['}']).foldl recordsStep (RecordScan.between out) =
      RecordScan.between (out ++ ['{' :: body ++ ['}']]) := by
  have opened : recordsStep (RecordScan.between out) '{' = RecordScan.inside out ['{'] := rfl
  rw [List.cons_append, List.foldl_cons, opened, List.foldl_append, inside_run passes]
  rfl

theorem literal_passes {byte : U8} (closed : (Value.byte byte).opensText = false) :
    PassesBy recordMarks (charLiteral byte) := by
  revert byte
  decide +kernel

theorem value_passes {value : Value} (closed : value.opensText = false) :
    PassesBy recordMarks value.text := by
  apply passes_value recordMarks_subset
  rintro byte rfl
  exact literal_passes closed

theorem fields_pass {fields : List Member}
    (closed : ∀ field ∈ fields, field.value.opensText = false) :
    PassesBy recordMarks (fields.flatMap Member.text) := by
  induction fields with
  | nil => decide
  | cons field rest ih =>
      have comma : PassesBy recordMarks [','] := by decide
      have lead := comma.append ((passes_lead field).mono recordMarks_subset)
      have text := lead.append (value_passes (closed field List.mem_cons_self))
      exact text.append (ih fun other member => closed other (List.mem_cons_of_mem field member))

/-- The text of the records, each after the comma that parts it from the one before. -/
def laterText (table : List Record) : List Char :=
  table.flatMap fun record => ',' :: ' ' :: printRecord record

theorem between_run (out : List (List Char)) (text : List Char) :
    (',' :: ' ' :: text).foldl recordsStep (RecordScan.between out) =
      text.foldl recordsStep (RecordScan.between out) := rfl

theorem records_printArray (table : List Record) :
    records (printArray table) =
      ((laterText table).foldl recordsStep (RecordScan.between [])).out := by
  rw [records, printArray, unbraced_braced]
  cases table with
  | nil => rfl
  | cons record rest =>
      rw [laterText, List.flatMap_cons, List.cons_append, List.cons_append, between_run]
      rfl

theorem laterText_run (record : Record) (rest : List Record) (out : List (List Char)) :
    (laterText (record :: rest)).foldl recordsStep (RecordScan.between out) =
      (laterText rest).foldl recordsStep
        ((printRecord record).foldl recordsStep (RecordScan.between out)) := by
  rw [laterText, List.flatMap_cons, List.foldl_append, between_run]
  rfl

theorem closed_record_run {record : Record}
    (closed : ∀ field ∈ record.fields, field.value.opensText = false) (out : List (List Char)) :
    (printRecord record).foldl recordsStep (RecordScan.between out) =
      RecordScan.between (out ++ [printRecord record]) := by
  have lead := (passes_bodyLead record).mono recordMarks_subset
  exact record_run out (lead.append (fields_pass closed))

theorem closed_run {table : List Record}
    (closed : ∀ record ∈ table, ∀ field ∈ record.fields, field.value.opensText = false)
    (out : List (List Char)) :
    (laterText table).foldl recordsStep (RecordScan.between out) =
      RecordScan.between (out ++ table.map printRecord) := by
  induction table generalizing out with
  | nil => rw [List.map_nil, List.append_nil]; rfl
  | cons record rest ih =>
      have later : ∀ other ∈ rest, ∀ field ∈ other.fields, field.value.opensText = false :=
        fun other member => closed other (List.mem_cons_of_mem record member)
      rw [laterText_run, closed_record_run (closed record List.mem_cons_self), ih later,
        List.map_cons, List.append_cons out (printRecord record) (rest.map printRecord)]

theorem recordsStep_out (scan : RecordScan) (ch : Char) :
    scan.out <+: (recordsStep scan ch).out := by
  unfold recordsStep RecordScan.keep
  dsimp only
  split_ifs <;> first | exact List.prefix_append _ _ | exact List.prefix_rfl

theorem out_grows (scan : RecordScan) (text : List Char) :
    scan.out <+: (text.foldl recordsStep scan).out := by
  induction text generalizing scan with
  | nil => exact List.prefix_rfl
  | cons ch rest ih => exact (recordsStep_out scan ch).trans (ih (recordsStep scan ch))

/-- Inside a record, a character is kept; the record then goes on or is put out. -/
theorem recordsStep_deep {scan : RecordScan} (deep : 0 < scan.depth) (ch : Char) :
    (0 < (recordsStep scan ch).depth ∧ (recordsStep scan ch).out = scan.out ∧
        (recordsStep scan ch).cur = scan.cur ++ [ch]) ∨
      (recordsStep scan ch).out = scan.out ++ [scan.cur ++ [ch]] := by
  unfold recordsStep RecordScan.keep
  dsimp only
  split_ifs with bare opens deeper closes done shallower
  · left
    refine ⟨?_, rfl, rfl⟩
    dsimp only
    omega
  · omega
  · exact Or.inr rfl
  · left
    refine ⟨?_, rfl, rfl⟩
    dsimp only
    omega
  · omega
  · exact Or.inl ⟨deep, rfl, rfl⟩
  · exact Or.inl ⟨deep, rfl, rfl⟩

/-- The next record put out is longer than what a record has by now. -/
theorem out_longer {scan : RecordScan} (deep : 0 < scan.depth) (text : List Char) :
    (text.foldl recordsStep scan).out = scan.out ∨ ∃ longer more,
      (text.foldl recordsStep scan).out = scan.out ++ longer :: more ∧
        scan.cur.length < longer.length := by
  induction text generalizing scan with
  | nil => exact Or.inl rfl
  | cons ch rest ih =>
      rw [List.foldl_cons]
      rcases recordsStep_deep deep ch with ⟨still, out, cur⟩ | put
      · have later := ih still
        rw [out, cur, List.length_append, List.length_singleton] at later
        rcases later with same | ⟨longer, more, final, length⟩
        · exact Or.inl same
        · exact Or.inr ⟨longer, more, final, by omega⟩
      · obtain ⟨more, final⟩ := out_grows (recordsStep scan ch) rest
        refine Or.inr ⟨scan.cur ++ [ch], more, ?_, by simp⟩
        rw [← final, put, List.append_assoc, List.singleton_append]

theorem late_record {scan : RecordScan} (deep : 0 < scan.depth) (rest : List Char)
    (more : List (List Char)) :
    (rest.foldl recordsStep scan).out ≠ scan.out ++ scan.cur :: more := by
  intro same
  rcases out_longer deep rest with unchanged | ⟨longer, others, final, length⟩
  · rw [unchanged] at same
    have lengths := congrArg List.length same
    rw [List.length_append, List.length_cons] at lengths
    omega
  · rw [final] at same
    have first := (List.cons.inj (List.append_cancel_left same)).1
    rw [first] at length
    exact absurd length (Nat.lt_irrefl _)

theorem early_record {scan : RecordScan} {out : List (List Char)} {short text : List Char}
    (put : scan.out = out ++ [short]) (different : short ≠ text) (rest : List Char)
    (more : List (List Char)) : (rest.foldl recordsStep scan).out ≠ out ++ text :: more := by
  intro same
  obtain ⟨others, final⟩ := out_grows scan rest
  rw [put, same, List.append_assoc, List.singleton_append] at final
  exact different (List.cons.inj (List.append_cancel_left final)).1

/-- A record whose last literal leaves the scan inside it, or out of it too early, is not
put out as it was printed. -/
theorem misread {lead : List Char} (passes : PassesBy recordMarks lead) {ch : Char}
    (opens : ch = '"' ∨ ch = '{' ∨ ch = '}') (out more : List (List Char)) (rest : List Char) :
    ((('{' :: lead ++ [ch, '\'', '}']) ++ rest).foldl recordsStep (RecordScan.between out)).out ≠
      out ++ ('{' :: lead ++ [ch, '\'', '}']) :: more := by
  have opened : recordsStep (RecordScan.between out) '{' = RecordScan.inside out ['{'] := rfl
  have inside : ('{' :: lead).foldl recordsStep (RecordScan.between out) =
      RecordScan.inside out ('{' :: lead) := by
    rw [List.foldl_cons, opened, inside_run passes]
    rfl
  have text (other : Char) : '{' :: lead ++ [other, '\'', '}'] =
      '{' :: lead ++ [other] ++ ['\''] ++ ['}'] := by simp
  rw [List.foldl_append, List.foldl_append, inside]
  rcases opens with rfl | rfl | rfl
  · -- the string it seems to open runs over the end of the record
    let scan : RecordScan :=
      { quoting := { inStr := true, escaped := false }, depth := 1,
        cur := '{' :: lead ++ ['"'] ++ ['\''] ++ ['}'], out := out }
    rw [text]
    exact late_record (show 0 < scan.depth from Int.one_pos) rest more
  · -- the end of the record closes only the brace of the literal
    let scan : RecordScan :=
      { quoting := outside, depth := 1, cur := '{' :: lead ++ ['{'] ++ ['\''] ++ ['}'], out := out }
    rw [text]
    exact late_record (show 0 < scan.depth from Int.one_pos) rest more
  · have early : ('{' :: lead ++ ['}']) ≠ '{' :: lead ++ ['}', '\'', '}'] := by simp
    rw [← List.foldl_append]
    exact early_record (show (recordsStep (RecordScan.inside out ('{' :: lead)) '}').out =
      out ++ ['{' :: lead ++ ['}']] from rfl) early (['\'', '}'] ++ rest) more

theorem closed_of_settled {value : Value} (settled : value.settled = true) :
    value.opensText = false := by
  rw [Value.settled, Bool.and_eq_true, Bool.not_eq_true'] at settled
  exact settled.1

/-- The printed text of a record that only its last byte upsets. -/
theorem print_open {record : Record} {first : List Member} {last : Member}
    (fields : record.fields = first ++ [last])
    (closed : ∀ field ∈ first, field.value.opensText = false)
    (opens : last.value.opensText = true) :
    ∃ lead ch, printRecord record = '{' :: lead ++ [ch, '\'', '}'] ∧ PassesBy recordMarks lead ∧
      (ch = '"' ∨ ch = '{' ∨ ch = '}') := by
  cases value : last.value with
  | byte byte =>
      rw [value] at opens
      obtain ⟨ch, literal, mark⟩ := opening_literal opens
      have comma : PassesBy recordMarks [','] := by decide
      have name := (passes_bodyLead record).mono recordMarks_subset
      have number := ((passes_lead last).append (passes_literalLead byte)).mono recordMarks_subset
      have lead := (name.append (fields_pass closed)).append (comma.append number)
      refine ⟨_, ch, ?_, lead, mark⟩
      simp [printRecord, Record.body, nameLead, fields, Member.text, value, literal_text literal]
  | _ =>
      rw [value] at opens
      exact Bool.noConfusion opens

theorem closed_or_open {fields : List Member}
    (settled : ∀ field ∈ fields.dropLast, field.value.settled = true) :
    (∀ field ∈ fields, field.value.opensText = false) ∨ ∃ first last, fields = first ++ [last] ∧
      (∀ field ∈ first, field.value.opensText = false) ∧ last.value.opensText = true := by
  rcases List.eq_nil_or_concat' fields with rfl | ⟨first, last, rfl⟩
  · exact Or.inl fun field member => absurd member List.not_mem_nil
  · rw [List.dropLast_concat] at settled
    have closed : ∀ field ∈ first, field.value.opensText = false := fun field member =>
      closed_of_settled (settled field member)
    cases opens : last.value.opensText with
    | true => exact Or.inr ⟨first, last, rfl, closed, opens⟩
    | false =>
        left
        intro field member
        rcases List.mem_append.mp member with earlier | final
        · exact closed field earlier
        · rw [List.mem_singleton.mp final]
          exact opens

/-- The first record that is not closed is the one that `_records` loses. -/
theorem closed_of_split {table : List Record}
    (settled : ∀ record ∈ table, ∀ field ∈ record.fields.dropLast, field.value.settled = true)
    {out : List (List Char)}
    (split : ((laterText table).foldl recordsStep (RecordScan.between out)).out =
      out ++ table.map printRecord) :
    ∀ record ∈ table, ∀ field ∈ record.fields, field.value.opensText = false := by
  induction table generalizing out with
  | nil => exact fun record member => absurd member List.not_mem_nil
  | cons record rest ih =>
      rw [laterText_run] at split
      rcases closed_or_open (settled record List.mem_cons_self) with
        closed | ⟨first, last, fields, closed, opens⟩
      · rw [closed_record_run closed, List.map_cons,
          List.append_cons out (printRecord record) (rest.map printRecord)] at split
        have later :=
          ih (fun other member => settled other (List.mem_cons_of_mem record member)) split
        intro other member
        rcases List.mem_cons.mp member with rfl | found
        · exact closed
        · exact later other found
      · obtain ⟨lead, ch, text, passes, mark⟩ := print_open fields closed opens
        rw [← List.foldl_append, List.map_cons, text] at split
        exact absurd split (misread passes mark out _ _)

theorem readable_iff (record : Record) :
    record.Readable ↔ (∀ field ∈ record.fields, field.value.opensText = false) ∧
      ∀ field ∈ record.fields.dropLast, field.value.settled = true := by
  constructor
  · rintro ⟨closed, level⟩
    refine ⟨closed, fun field member => ?_⟩
    rw [Value.settled, closed field (List.mem_of_mem_dropLast member), level field member]
    rfl
  · rintro ⟨closed, settled⟩
    refine ⟨closed, fun field member => ?_⟩
    have both := settled field member
    rw [Value.settled, Bool.and_eq_true, Bool.not_eq_true', Bool.not_eq_true'] at both
    exact both.2

theorem readBack_of_readable {table : List Record} (readable : ∀ record ∈ table, record.Readable) :
    ReadBack table := by
  constructor
  · rw [records_printArray, closed_run fun record member => (readable record member).closed]
    rfl
  · exact fun record member =>
      (recovered_iff record).mpr ((readable_iff record).mp (readable record member)).2

theorem readable_of_readBack {table : List Record} (readBack : ReadBack table) :
    ∀ record ∈ table, record.Readable := by
  have settled : ∀ record ∈ table, ∀ field ∈ record.fields.dropLast, field.value.settled = true :=
    fun record member => (recovered_iff record).mp (readBack.recovered record member)
  have split := readBack.split
  rw [records_printArray] at split
  have closed := closed_of_split settled (show _ = [] ++ table.map printRecord from split)
  exact fun record member => (readable_iff record).mpr ⟨closed record member, settled record member⟩

/-- The host reads back every record of a printed table, with every name and number,
exactly if no byte of the table is a brace or a double quote and none is a bracket but
in the last field of its record. -/
theorem table_read_back (table : List Record) :
    ReadBack table ↔ ∀ record ∈ table, record.Readable :=
  ⟨readable_of_readBack, readBack_of_readable⟩

def quoteRow : CmdRow where
  name := { address := 0x80003f10, chars := "ping".toList, plain := by simp }
  opcode := 34
  critical := 0
  argMin := 0
  argMax := 0
  handler := 0x80001a2c
  symbol := some (word "cmd_ping" rfl)

theorem quote_opcode_lost : ¬ReadBack [quoteRow.record] := by
  intro readBack
  have none : records (printArray [quoteRow.record]) = [] := by decide +kernel
  have split := readBack.split
  rw [none] at split
  cases split

end TableText

end ObcZero
