import ObcZero.DumpText

/-! What the host reads of a dump, whole or cut short. -/

namespace ObcZero

open LineText TableText

namespace DumpText

theorem isSpace_of_isBreak {ch : Char} (ends : isBreak ch = true) : isSpace ch = true := by
  simp only [isBreak, isSpace, Bool.or_eq_true, Bool.and_eq_true, decide_eq_true_eq,
    beq_iff_eq] at ends ⊢
  omega

theorem intBase10_digits {text : List Char} (digits : ∀ ch ∈ text, ch.isDigit = true)
    (nonempty : text ≠ []) : intBase10 text = .ok (Nat.ofDigitChars 10 text 0 : Int) := by
  have head (ch : Char) (rest : List Char) (other : ch.isDigit = false) : text ≠ ch :: rest :=
    fun same => not_mem_of_kind digits other (same ▸ List.mem_cons_self)
  have word : ∀ ch ∈ text, wordChar ch = true := fun ch member => by
    simp [wordChar, Char.isAlphanum, digits ch member]
  rw [intBase10, strip_trimmed (trimmed_word word)]
  split
  case h_1 rest => exact absurd rfl (head '-' rest (by decide))
  case h_2 rest => exact absurd rfl (head '+' rest (by decide))
  case h_3 =>
    rw [digitsValue_digits digits nonempty]
    rfl

theorem intBase10_decimal (value : Nat) : intBase10 (decimal value) = .ok (value : Int) := by
  rw [intBase10_digits digits_decimal Nat.toDigits_ne_nil, decimal, Nat.ofDigitChars_ten_toDigits]

theorem numeral_digits {text : List Char} (digits : ∀ ch ∈ text, ch.isDigit = true)
    (nonempty : text ≠ []) : numeral text = true := by
  have kept : text.dropWhile (· == '-') = text := by
    cases text with
    | nil => rfl
    | cons ch rest =>
        have other : ch ≠ '-' := ne_of_kind (digits ch List.mem_cons_self) (by decide)
        rw [List.dropWhile_cons, if_neg (by simpa using other)]
  rw [numeral, kept]
  simpa [nonempty] using digits

theorem setKey_absent {Key Value : Type} [BEq Key] [LawfulBEq Key] {dict : List (Key × Value)}
    {key : Key} (absent : key ∉ dict.map Prod.fst) (value : Value) :
    setKey dict key value = dict ++ [(key, value)] := by
  have none : dict.any (·.1 == key) = false := by
    rw [List.any_eq_false]
    intro entry member same
    exact absent (List.mem_map.mpr ⟨entry, member, eq_of_beq same⟩)
  rw [setKey, none, if_neg Bool.false_ne_true]

/-- Keys that are all new are kept in the order they come in. -/
theorem foldl_setKey {Key Value : Type} [BEq Key] [LawfulBEq Key]
    {dict entries : List (Key × Value)} (fresh : ((dict ++ entries).map Prod.fst).Nodup) :
    entries.foldl (fun dict entry => setKey dict entry.1 entry.2) dict = dict ++ entries := by
  induction entries generalizing dict with
  | nil => exact (List.append_nil dict).symm
  | cons entry rest ih =>
      have absent : entry.1 ∉ dict.map Prod.fst := by
        rw [List.map_append, List.map_cons] at fresh
        intro member
        exact List.disjoint_of_nodup_append fresh member List.mem_cons_self
      rw [List.foldl_cons, setKey_absent absent, ih (by simpa using fresh)]
      simp

section

variable {scan : DumpScan}

theorem parseLine_scalar {name : String} (other : name.toList ≠ completeWord) (value : Nat) :
    parseLine scan (scalarLine name value) =
      .ok { scan with scalars := setKey scan.scalars name.toList value } := by
  rw [scalarLine, parseLine, if_neg other, readScalar, numeral_digits digits_decimal Nat.toDigits_ne_nil, if_pos rfl,
    intBase10_decimal]
  rfl

theorem readTask_printed {row : ObcTask} (plain : PlainName row.name.toList) (index : Nat)
    (figures : ObcTaskState) :
    readTask (decimal index) row.name.toList (decimal row.periodFrames.toNat)
        (decimal row.budgetInstr.toNat) (decimal row.essential.toNat)
        (decimal figures.runs.toNat) (decimal figures.overruns.toNat)
        (decimal figures.maxInstr.toNat) = .ok (hostTask row index figures) := by
  have essential : ((row.essential.toNat : Int) != 0) = row.essential := by
    cases row.essential <;> rfl
  simp only [readTask, intBase10_decimal, plain.unquoted]
  exact congrArg (fun essential => Except.ok { hostTask row index figures with essential })
    essential

theorem parseLine_task {row : ObcTask} (plain : PlainName row.name.toList) (index : Nat)
    (figures : ObcTaskState) :
    parseLine scan (taskLine row index figures) =
      .ok { scan with tasks := scan.tasks ++ [hostTask row index figures] } := by
  rw [taskLine, parseLine, if_neg (by decide), if_pos rfl, readTask_printed plain]
  rfl

theorem parseLine_trace (index : U8) (position : Nat) :
    parseLine scan (traceLine index position) =
      .ok { scan with trace := setKey scan.trace position index.toNat } := by
  rw [traceLine, parseLine, if_neg (by decide), if_pos rfl, intBase10_decimal, intBase10_decimal]
  rfl

theorem parseLine_suspension (entry : ObcSuspension) (position : Nat) :
    parseLine scan (suspensionLine entry position) =
      .ok { scan with suspensions := scan.suspensions ++ [hostSuspension entry position] } := by
  rw [suspensionLine, parseLine, if_neg (by decide), if_pos rfl, intBase10_decimal,
    intBase10_decimal, intBase10_decimal]
  rfl

end

theorem foldl_concat {Row Value : Type} (value : Row → Value) (rows : List Row)
    (values : List Value) :
    rows.foldl (fun values row => values ++ [value row]) values = values ++ rows.map value := by
  rw [List.foldl_append_eq_append, ← List.flatMap_def, ← List.map_eq_flatMap]

/-- Lines that are each read make one fold over what they hold. -/
theorem foldlM_ok {Row : Type} {line : Row → List (List Char)} {add : DumpScan → Row → DumpScan}
    {rows : List Row}
    (reads : ∀ scan, ∀ row ∈ rows, parseLine scan (line row) = .ok (add scan row)) (scan : DumpScan) :
    (rows.map line).foldlM parseLine scan = .ok (rows.foldl add scan) := by
  induction rows generalizing scan with
  | nil => rfl
  | cons row rest ih =>
      rw [List.map_cons, List.foldlM_cons, reads scan row List.mem_cons_self]
      exact ih (fun scan row member => reads scan row (List.mem_cons_of_mem _ member)) (add scan row)

theorem foldlM_scalars {pairs : List (String × Nat)}
    (others : ∀ pair ∈ pairs, pair.1.toList ≠ completeWord) {scan : DumpScan}
    (fresh : ((scan.scalars.map Prod.fst) ++ pairs.map fun pair => pair.1.toList).Nodup) :
    (pairs.map fun pair => scalarLine pair.1 pair.2).foldlM parseLine scan =
      .ok { scan with
        scalars := scan.scalars ++ pairs.map fun pair => (pair.1.toList, (pair.2 : Int)) } := by
  rw [foldlM_ok fun scan pair member => parseLine_scalar (others pair member) pair.2]
  have keys : ((scan.scalars ++ pairs.map fun pair => (pair.1.toList, (pair.2 : Int))).map
      Prod.fst).Nodup := by
    rw [List.map_append, List.map_map]
    exact fresh
  rw [← foldl_setKey keys, List.foldl_map]
  exact congrArg Except.ok (List.foldl_hom (fun scalars => { scan with scalars }) fun _ _ => rfl)

theorem foldlM_tasks {table : List ObcTask} (plain : ∀ row ∈ table, PlainName row.name.toList)
    (figures : Nat → ObcTaskState) (scan : DumpScan) :
    (table.zipIdx.map fun entry => taskLine entry.1 entry.2 (figures entry.2)).foldlM parseLine
        scan =
      .ok { scan with
        tasks := scan.tasks ++
          table.zipIdx.map fun entry => hostTask entry.1 entry.2 (figures entry.2) } := by
  rw [foldlM_ok fun scan entry member =>
    parseLine_task (plain _ (List.mem_of_getElem? (List.mem_zipIdx_iff_getElem?.mp member)))
      entry.2 (figures entry.2), ← foldl_concat]
  exact congrArg Except.ok (List.foldl_hom (fun tasks => { scan with tasks }) fun _ _ => rfl)

theorem foldlM_trace (trace : List U8) {scan : DumpScan} (empty : scan.trace = []) :
    (trace.zipIdx.map fun entry => traceLine entry.1 entry.2).foldlM parseLine scan =
      .ok { scan with
        trace := trace.zipIdx.map fun entry => ((entry.2 : Int), (entry.1.toNat : Int)) } := by
  have keys : (([] ++ trace.zipIdx.map fun entry : U8 × Nat =>
      ((entry.2 : Int), (entry.1.toNat : Int))).map Prod.fst).Nodup := by
    have positions : ((trace.zipIdx.map Prod.snd).map fun position : Nat => (position : Int)).Nodup := by
      rw [List.zipIdx_map_snd]
      exact (List.nodup_range' (h := Nat.one_pos)).map fun _ _ => Int.natCast_inj.mp
    rw [List.map_map] at positions
    rwa [List.nil_append, List.map_map]
  have entries := foldl_setKey keys
  rw [List.nil_append, List.foldl_map] at entries
  rw [foldlM_ok fun scan entry _ => parseLine_trace entry.1 entry.2, ← entries, ← empty]
  exact congrArg Except.ok (List.foldl_hom (fun trace => { scan with trace }) fun _ _ => rfl)

theorem foldlM_suspensions (suspensions : List ObcSuspension) (scan : DumpScan) :
    (suspensions.zipIdx.map fun entry => suspensionLine entry.1 entry.2).foldlM parseLine scan =
      .ok { scan with
        suspensions := scan.suspensions ++
          suspensions.zipIdx.map fun entry => hostSuspension entry.1 entry.2 } := by
  rw [foldlM_ok fun scan entry _ => parseLine_suspension entry.1 entry.2, ← foldl_concat]
  exact congrArg Except.ok
    (List.foldl_hom (fun suspensions => { scan with suspensions }) fun _ _ => rfl)

/-- A word of lower-case letters, as every line but the last starts with. -/
def lowerWord (word : List Char) : Bool :=
  !word.isEmpty && word.all fun ch => ch.isLower || ch == '_'

def Solid (word : List Char) : Prop := word ≠ [] ∧ ∀ ch ∈ word, isSpace ch = false

/-- The words after the first one are numbers, a task's name apart. -/
inductive Numbered : List (List Char) → Prop
  | plain {head : List Char} {rest : List (List Char)} (lower : lowerWord head = true)
      (numbers : ∀ word ∈ rest, ∃ value, word = decimal value) : Numbered (head :: rest)
  | task {index name : List Char} {rest : List (List Char)} (solid : Solid name)
      (first : ∃ value, index = decimal value)
      (numbers : ∀ word ∈ rest, ∃ value, word = decimal value) :
      Numbered (taskWord :: index :: name :: rest)

theorem solid_decimal (value : Nat) : Solid (decimal value) :=
  ⟨Nat.toDigits_ne_nil, fun ch member => not_space_word (word_decimal ch member)⟩

theorem lower_chars {word : List Char} (lower : lowerWord word = true) :
    word ≠ [] ∧ ∀ ch ∈ word, ch.isLower = true ∨ ch = '_' := by
  simpa [lowerWord] using lower

theorem solid_lower {word : List Char} (lower : lowerWord word = true) : Solid word := by
  obtain ⟨nonempty, chars⟩ := lower_chars lower
  refine ⟨nonempty, fun ch member => not_space_word ?_⟩
  rcases chars ch member with letter | rfl
  · simp [wordChar, Char.isAlphanum, Char.isAlpha, letter]
  · rfl

theorem lower_ne_complete {word : List Char} (lower : lowerWord word = true) :
    word ≠ completeWord := by
  rintro rfl
  exact Bool.noConfusion lower

theorem Numbered.solid {line : List (List Char)} (numbered : Numbered line) :
    ∀ word ∈ line, Solid word := by
  have numeric {rest : List (List Char)} (numbers : ∀ word ∈ rest, ∃ value, word = decimal value) :
      ∀ word ∈ rest, Solid word := by
    intro word member
    obtain ⟨value, rfl⟩ := numbers word member
    exact solid_decimal value
  cases numbered with
  | plain lower numbers =>
      exact List.forall_mem_cons.mpr ⟨solid_lower lower, numeric numbers⟩
  | task solid first numbers =>
      obtain ⟨value, rfl⟩ := first
      exact List.forall_mem_cons.mpr ⟨solid_lower rfl, List.forall_mem_cons.mpr
        ⟨solid_decimal value, List.forall_mem_cons.mpr ⟨solid, numeric numbers⟩⟩⟩

theorem windowScalars_lower (table : List ObcTask) (state : ExecState) :
    ∀ pair ∈ windowScalars table state, lowerWord pair.1.toList = true := by
  simp only [windowScalars, List.forall_mem_cons]
  decide

theorem suspensionScalars_lower (state : ExecState) :
    ∀ pair ∈ suspensionScalars state, lowerWord pair.1.toList = true := by
  simp only [suspensionScalars, List.forall_mem_cons]
  decide

theorem numbered_dumpLines {table : List ObcTask} (plain : ∀ row ∈ table, PlainName row.name.toList)
    (state : ExecState) : ∀ line ∈ dumpLines table state, Numbered line := by
  have scalars {pairs : List (String × Nat)} (lower : ∀ pair ∈ pairs, lowerWord pair.1.toList = true) :
      ∀ line ∈ pairs.map fun pair => scalarLine pair.1 pair.2, Numbered line := by
    intro line member
    obtain ⟨pair, inPairs, rfl⟩ := List.mem_map.mp member
    exact .plain (lower pair inPairs) (by simp)
  intro line member
  simp only [dumpLines, List.mem_append, or_assoc] at member
  rcases member with scalar | task | trace | scalar | suspension
  · exact scalars (windowScalars_lower table state) line scalar
  · obtain ⟨entry, inTable, rfl⟩ := List.mem_map.mp task
    have name := plain _ (List.mem_of_getElem? (List.mem_zipIdx_iff_getElem?.mp inTable))
    exact .task ⟨name.nonempty, name.solid⟩ ⟨_, rfl⟩ (by simp)
  · obtain ⟨entry, _, rfl⟩ := List.mem_map.mp trace
    exact .plain rfl (by simp)
  · exact scalars (suspensionScalars_lower state) line scalar
  · obtain ⟨entry, _, rfl⟩ := List.mem_map.mp suspension
    exact .plain rfl (by simp)

theorem not_break_joined {line : List (List Char)} (solid : ∀ word ∈ line, Solid word) :
    ∀ ch ∈ joined ' ' line, isBreak ch = false := by
  intro ch member
  rcases mem_joined member with rfl | ⟨word, inLine, inWord⟩
  · rfl
  · have space := (solid word inLine).2 ch inWord
    exact Bool.eq_false_iff.mpr fun ends =>
      Bool.false_ne_true (space.symm.trans (isSpace_of_isBreak ends))

/-- Whole lines are read as the words they were printed from. -/
theorem scanDump_printed {text : List (List (List Char))}
    (solid : ∀ line ∈ text, ∀ word ∈ line, Solid word) (rest : List Char) :
    scanDump (printed ' ' '\n' text ++ rest) =
      text.foldlM parseLine emptyScan >>=
        ((lines isBreak rest).map (words isSpace)).foldlM parseLine := by
  have read : text.map (words isSpace ∘ joined ' ') = text :=
    (List.map_congr_left fun line member => joined_words rfl (solid line member)).trans
      (List.map_id text)
  rw [scanDump, lines_printed rfl (fun line member => not_break_joined (solid line member)),
    List.map_append, List.map_map, read, List.foldlM_append]

/-- What is known of a window when all lines but the last are read. -/
def scanOf (table : List ObcTask) (state : ExecState) : DumpScan :=
  { scalars := (windowScalars table state ++ suspensionScalars state).map fun pair =>
      (pair.1.toList, (pair.2 : Int))
    tasks := table.zipIdx.map fun entry => hostTask entry.1 entry.2 (state.taskState entry.2)
    suspensions := state.suspensions.zipIdx.map fun entry => hostSuspension entry.1 entry.2
    trace := state.trace.zipIdx.map fun entry => ((entry.2 : Int), (entry.1.toNat : Int))
    complete := false }

theorem nodup_scalars (table : List ObcTask) (state : ExecState) :
    ((windowScalars table state).map (fun pair => pair.1.toList) ++
      (suspensionScalars state).map fun pair => pair.1.toList).Nodup := by
  simp only [windowScalars, suspensionScalars, List.map_cons, List.map_nil]
  decide

theorem foldlM_dumpLines {table : List ObcTask} (plain : ∀ row ∈ table, PlainName row.name.toList)
    (state : ExecState) :
    (dumpLines table state).foldlM parseLine emptyScan = .ok (scanOf table state) := by
  have others {pairs : List (String × Nat)} (lower : ∀ pair ∈ pairs, lowerWord pair.1.toList = true) :
      ∀ pair ∈ pairs, pair.1.toList ≠ completeWord :=
    fun pair member => lower_ne_complete (lower pair member)
  have fresh := nodup_scalars table state
  have scan : ((windowScalars table state).map fun pair => (pair.1.toList, (pair.2 : Int))).map
      Prod.fst = (windowScalars table state).map fun pair => pair.1.toList := List.map_map
  rw [dumpLines, List.foldlM_append, List.foldlM_append, List.foldlM_append, List.foldlM_append,
    foldlM_scalars (others (windowScalars_lower table state)) (by simpa [emptyScan] using
      (List.nodup_append.mp fresh).1)]
  simp only [bind, Except.bind]
  rw [foldlM_tasks plain]
  dsimp only
  rw [foldlM_trace _ rfl]
  dsimp only
  rw [foldlM_scalars (others (suspensionScalars_lower state)) (by
    dsimp only [emptyScan]
    rwa [List.nil_append, scan])]
  dsimp only
  rw [foldlM_suspensions]
  simp [scanOf, emptyScan]

theorem sortedBy_zipIdx {Row Value : Type} (key : Value → Int) (value : Row × Nat → Value)
    (keyed : ∀ entry, key (value entry) = entry.2) (rows : List Row) :
    sortedBy key (rows.zipIdx.map value) = rows.zipIdx.map value := by
  have positions : rows.zipIdx.Pairwise fun first second => first.2 < second.2 := by
    apply List.pairwise_map.mp
    rw [List.zipIdx_map_snd]
    exact List.pairwise_lt_range'
  apply List.Pairwise.insertionSort_eq
  rw [List.pairwise_map]
  exact positions.imp fun {first second} earlier => by
    rw [keyed, keyed]
    omega

theorem lookup_pair {pairs : List (String × Nat)}
    (nodup : (pairs.map fun pair => pair.1.toList).Nodup) {pair : String × Nat}
    (member : pair ∈ pairs) :
    (pairs.map fun pair => (pair.1.toList, (pair.2 : Int))).lookup pair.1.toList =
      some (pair.2 : Int) := by
  induction pairs with
  | nil => cases member
  | cons first rest ih =>
      rw [List.map_cons, List.nodup_cons] at nodup
      rw [List.map_cons, List.lookup_cons]
      rcases List.mem_cons.mp member with rfl | later
      · rw [beq_self_eq_true]
      · have differ : (pair.1.toList == first.1.toList) = false :=
          beq_eq_false_iff_ne.mpr fun same => nodup.1 (same ▸ List.mem_map.mpr ⟨pair, later, rfl⟩)
        rw [differ]
        exact ih nodup.2 later

section

variable (table : List ObcTask) (state : ExecState)

theorem lookup_scanOf {name : String} {value : Nat}
    (member : (name, value) ∈ windowScalars table state ++ suspensionScalars state) :
    (scanOf table state).scalars.lookup name.toList = some (value : Int) := by
  have nodup := nodup_scalars table state
  rw [← List.map_append] at nodup
  exact lookup_pair nodup member

theorem dump_scanOf : (scanOf table state).dump = hostDumpOf table state := by
  have scalar {name : String} {value : Nat}
      (member : (name, value) ∈ windowScalars table state ++ suspensionScalars state) :
      (scanOf table state).scalar name = value := by
    rw [DumpScan.scalar, lookup_scanOf table state member, Option.getD_some]
  have trace : (sortedBy Prod.fst (scanOf table state).trace).map Prod.snd =
      state.trace.map fun index => (index.toNat : Int) := by
    have first : (state.trace.zipIdx.map Prod.fst).map (fun index => (index.toNat : Int)) =
        state.trace.map fun index => (index.toNat : Int) := by
      rw [List.zipIdx_map_fst]
    dsimp only [scanOf]
    rw [sortedBy_zipIdx Prod.fst _ fun _ => rfl, List.map_map, ← first, List.map_map]
    rfl
  simp only [DumpScan.dump, hostDumpOf, HostDump.mk.injEq]
  refine ⟨scalar ?_, scalar ?_, scalar ?_, scalar ?_, scalar ?_, scalar ?_, scalar ?_, scalar ?_,
    scalar ?_, scalar ?_, scalar ?_, sortedBy_zipIdx HostSuspension.index _ (fun _ => rfl) _,
    scalar ?_, scalar ?_, sortedBy_zipIdx HostTask.index _ (fun _ => rfl) _, trace⟩
  all_goals simp [windowScalars, suspensionScalars]

theorem required_scanOf :
    required.filter (fun name => ((scanOf table state).scalars.lookup name).isNone) = [] := by
  rw [List.filter_eq_nil_iff]
  intro name member
  have listed : ∃ pair ∈ windowScalars table state ++ suspensionScalars state,
      name = pair.1.toList := by
    simp only [required, List.mem_cons, List.not_mem_nil, or_false] at member
    rcases member with rfl | rfl | rfl | rfl | rfl | rfl | rfl | rfl | rfl | rfl | rfl | rfl | rfl
    all_goals simp [windowScalars, suspensionScalars]
  obtain ⟨pair, inPairs, rfl⟩ := listed
  rw [lookup_scanOf table state inPairs]
  simp

end

/-- A line that is read without complaint and does not end the dump. -/
def Tame (line : List (List Char)) : Prop :=
  ∀ scan, ∃ next, parseLine scan line = .ok next ∧ next.complete = scan.complete

/-- A word that `int` reads. -/
def Readable (word : List Char) : Prop := word ≠ [] ∧ ∀ ch ∈ word, ch.isDigit = true

theorem Readable.int {word : List Char} (readable : Readable word) :
    ∃ value : Int, intBase10 word = .ok value :=
  ⟨_, intBase10_digits readable.2 readable.1⟩

theorem readTask_readable {index name : List Char} {rest : List (List Char)}
    (first : Readable index) (numbers : ∀ word ∈ rest, Readable word)
    {period budget essential runs overruns maxInstr : List Char}
    (six : rest = [period, budget, essential, runs, overruns, maxInstr]) :
    ∃ task, readTask index name period budget essential runs overruns maxInstr = .ok task := by
  subst six
  obtain ⟨_, first⟩ := first.int
  obtain ⟨_, second⟩ := (numbers period (by simp)).int
  obtain ⟨_, third⟩ := (numbers budget (by simp)).int
  obtain ⟨_, fourth⟩ := (numbers essential (by simp)).int
  obtain ⟨_, fifth⟩ := (numbers runs (by simp)).int
  obtain ⟨_, sixth⟩ := (numbers overruns (by simp)).int
  obtain ⟨_, last⟩ := (numbers maxInstr (by simp)).int
  rw [readTask, first, second, third, fourth, fifth, sixth, last]
  exact ⟨_, rfl⟩

theorem tame_numbers {head : List Char} {rest : List (List Char)} (other : head ≠ completeWord)
    (numbers : ∀ word ∈ rest, Readable word) : Tame (head :: rest) := by
  intro scan
  unfold parseLine
  dsimp only
  rw [if_neg other]
  split
  case h_1 value =>
    have digits := numbers value (by simp)
    rw [readScalar, numeral_digits digits.2 digits.1, if_pos rfl,
      intBase10_digits digits.2 digits.1]
    exact ⟨_, rfl, rfl⟩
  case h_2 index task =>
    obtain ⟨position, first⟩ := (numbers index (by simp)).int
    obtain ⟨value, second⟩ := (numbers task (by simp)).int
    rw [first, second]
    split
    · exact ⟨_, rfl, rfl⟩
    · exact ⟨_, rfl, rfl⟩
  case h_3 index task frame =>
    obtain ⟨position, first⟩ := (numbers index (by simp)).int
    obtain ⟨value, second⟩ := (numbers task (by simp)).int
    obtain ⟨when, third⟩ := (numbers frame (by simp)).int
    rw [first, second, third]
    split
    · exact ⟨_, rfl, rfl⟩
    · exact ⟨_, rfl, rfl⟩
  case h_4 index name period budget essential runs overruns maxInstr =>
    obtain ⟨first, later⟩ := List.forall_mem_cons.mp numbers
    obtain ⟨task, read⟩ := @readTask_readable index name _ first (List.forall_mem_cons.mp later).2
      _ _ _ _ _ _ rfl
    rw [read]
    split
    · exact ⟨_, rfl, rfl⟩
    · exact ⟨_, rfl, rfl⟩
  case h_5 => exact ⟨scan, rfl, rfl⟩

/-- The name of a task need not be a number. -/
theorem tame_task {index name : List Char} {rest : List (List Char)} (first : Readable index)
    (numbers : ∀ word ∈ rest, Readable word) : Tame (taskWord :: index :: name :: rest) := by
  intro scan
  unfold parseLine
  dsimp only
  rw [if_neg (by decide)]
  split
  case h_1 same => simp at same
  case h_2 => exact ⟨scan, rfl, rfl⟩
  case h_3 => exact ⟨scan, rfl, rfl⟩
  case h_4 same =>
    simp only [List.cons.injEq] at same
    obtain ⟨rfl, rfl, six⟩ := same
    obtain ⟨task, read⟩ := readTask_readable first numbers six
    rw [if_pos rfl, read]
    exact ⟨_, rfl, rfl⟩
  case h_5 => exact ⟨scan, rfl, rfl⟩

theorem readable_cut {part : List Char} {value : Nat} (nonempty : part ≠ [])
    (starts : part <+: decimal value) : Readable part :=
  ⟨nonempty, fun ch member => digits_decimal ch (starts.subset member)⟩

theorem readable_decimal (value : Nat) : Readable (decimal value) :=
  readable_cut Nat.toDigits_ne_nil List.prefix_rfl

theorem readable_cutShort {ws rest : List (List Char)} (cut : CutShort ws rest)
    (numbers : ∀ word ∈ rest, ∃ value, word = decimal value) : ∀ word ∈ ws, Readable word := by
  induction cut with
  | stop => simp
  | part nonempty starts =>
      obtain ⟨⟨value, rfl⟩, _⟩ := List.forall_mem_cons.mp numbers
      exact List.forall_mem_singleton.mpr (readable_cut nonempty starts)
  | whole later ih =>
      obtain ⟨⟨value, rfl⟩, others⟩ := List.forall_mem_cons.mp numbers
      exact List.forall_mem_cons.mpr ⟨readable_decimal value, ih others⟩

theorem lower_cut {part word : List Char} (lower : lowerWord word = true) (nonempty : part ≠ [])
    (starts : part <+: word) : lowerWord part = true := by
  obtain ⟨_, chars⟩ := lower_chars lower
  simp only [lowerWord, Bool.and_eq_true, List.all_eq_true, Bool.or_eq_true, beq_iff_eq]
  exact ⟨by simpa using nonempty, fun ch member => chars ch (starts.subset member)⟩

theorem Numbered.tame_cut {ws line : List (List Char)} (numbered : Numbered line)
    (cut : CutShort ws line) : Tame ws := by
  have single {part word : List Char} (lower : lowerWord word = true) (nonempty : part ≠ [])
      (starts : part <+: word) : Tame [part] :=
    tame_numbers (lower_ne_complete (lower_cut lower nonempty starts)) (by simp)
  cases numbered with
  | plain lower numbers =>
      cases cut with
      | stop => exact fun scan => ⟨scan, rfl, rfl⟩
      | part nonempty starts => exact single lower nonempty starts
      | whole later => exact tame_numbers (lower_ne_complete lower) (readable_cutShort later numbers)
  | task solid first numbers =>
      obtain ⟨value, rfl⟩ := first
      cases cut with
      | stop => exact fun scan => ⟨scan, rfl, rfl⟩
      | part nonempty starts => exact single rfl nonempty starts
      | whole later =>
          cases later with
          | stop => exact tame_numbers (by decide) (by simp)
          | part nonempty starts =>
              exact tame_numbers (by decide)
                (List.forall_mem_singleton.mpr (readable_cut nonempty starts))
          | whole later =>
              cases later with
              | stop =>
                  exact tame_numbers (by decide) (List.forall_mem_singleton.mpr (readable_decimal value))
              | part nonempty starts => exact tame_task (readable_decimal value) (by simp)
              | whole later =>
                  exact tame_task (readable_decimal value) (readable_cutShort later numbers)

theorem foldlM_tame {text : List (List (List Char))} (tame : ∀ line ∈ text, Tame line)
    (scan : DumpScan) :
    ∃ next, text.foldlM parseLine scan = .ok next ∧ next.complete = scan.complete := by
  induction text generalizing scan with
  | nil => exact ⟨scan, rfl, rfl⟩
  | cons line rest ih =>
      obtain ⟨first, later⟩ := List.forall_mem_cons.mp tame
      obtain ⟨next, read, kept⟩ := first scan
      obtain ⟨final, more, same⟩ := ih later next
      refine ⟨final, ?_, same.trans kept⟩
      rw [List.foldlM_cons, read]
      exact more

theorem parseDump_truncated {text : List Char} {scan : DumpScan}
    (scanned : scanDump text = .ok scan) (incomplete : scan.complete = false) :
    parseDump text = .error .truncated := by
  rw [parseDump, scanned]
  change (if (!scan.complete) = true then _ else _) = _
  rw [incomplete]
  rfl

theorem parseDump_whole {table : List ObcTask} {state : ExecState} {text : List Char}
    (scanned : scanDump text = .ok { scanOf table state with complete := true }) :
    parseDump text = .ok (hostDumpOf table state) := by
  have missing := required_scanOf table state
  rw [parseDump, scanned, ← dump_scanOf]
  change (if required.filter (fun name => ((scanOf table state).scalars.lookup name).isNone) ≠ []
    then _ else _) = _
  rw [missing, if_neg (not_not.mpr rfl)]
  rfl

theorem dumpText_eq (table : List ObcTask) (state : ExecState) :
    dumpText table state =
      printed ' ' '\n' (dumpLines table state) ++ (completeWord ++ ['\n']) := by
  rw [dumpText, printed_append]
  rfl

/-- A dump cut anywhere before its last word is refused as truncated, whatever line the cut
falls in; only a whole one is read, and gives back the figures of the window it was made of. -/
theorem parseDump_take {table : List ObcTask} (plain : ∀ row ∈ table, PlainName row.name.toList)
    (state : ExecState) (count : Nat) :
    parseDump ((dumpText table state).take count) =
      if count + 1 < (dumpText table state).length then .error .truncated
      else .ok (hostDumpOf table state) := by
  have numbered := numbered_dumpLines plain state
  have solid : ∀ line ∈ dumpLines table state, ∀ word ∈ line, Solid word :=
    fun line member => (numbered line member).solid
  have unbroken : ∀ line ∈ dumpLines table state, ∀ ch ∈ joined ' ' line, isBreak ch = false :=
    fun line member => not_break_joined (solid line member)
  have ending : (completeWord ++ ['\n']).length = 14 := by decide
  rw [dumpText_eq, List.take_append, List.length_append, ending]
  by_cases inside : count ≤ (printed ' ' '\n' (dumpLines table state)).length
  · rw [if_pos (by omega), Nat.sub_eq_zero_of_le inside, List.take_zero, List.append_nil]
    have tame : ∀ line ∈ (lines isBreak
        ((printed ' ' '\n' (dumpLines table state)).take count)).map (words isSpace), Tame line := by
      intro ws member
      obtain ⟨line, inText, rfl⟩ := List.mem_map.mp member
      obtain ⟨source, printed, starts⟩ := mem_lines_take rfl unbroken inText
      rw [List.prefix_iff_eq_take.mp starts]
      exact (numbered source printed).tame_cut (words_take rfl (solid source printed) _)
    obtain ⟨scan, scanned, incomplete⟩ := foldlM_tame tame emptyScan
    exact parseDump_truncated scanned incomplete
  obtain ⟨more, enough⟩ := Nat.exists_eq_add_of_lt (Nat.not_le.mp inside)
  rw [List.take_of_length_le (by omega)]
  have scanned := scanDump_printed solid ((completeWord ++ ['\n']).take (more + 1))
  rw [foldlM_dumpLines plain] at scanned
  rw [show count - (printed ' ' '\n' (dumpLines table state)).length = more + 1 by omega]
  by_cases cut : more + 1 < 13
  · rw [if_pos (by omega)]
    have lines : ∀ length < 13, ∀ line ∈ (lines isBreak
        ((completeWord ++ ['\n']).take length)).map (words isSpace),
          line = [completeWord.take length] := by decide
    have shorter : completeWord.take (more + 1) ≠ completeWord := fun same => by
      have length := congrArg List.length same
      rw [List.length_take, show completeWord.length = 13 by decide] at length
      omega
    obtain ⟨scan, read, incomplete⟩ := foldlM_tame (fun line member => by
      rw [lines (more + 1) cut line member]
      exact tame_numbers shorter (by simp)) (scanOf table state)
    exact parseDump_truncated (scanned.trans read) incomplete
  · rw [if_neg (by omega)]
    have lines : (lines isBreak ((completeWord ++ ['\n']).take (more + 1))).map (words isSpace) =
        [[completeWord]] := by
      rcases (show more = 12 ∨ 13 ≤ more by omega) with rfl | past
      · decide
      · rw [List.take_of_length_le (by omega)]
        decide
    rw [lines] at scanned
    exact parseDump_whole scanned

theorem obcTaskTable_plain : ∀ row ∈ obcTaskTable, PlainName row.name.toList := by
  have names : ∀ row ∈ obcTaskTable, lowerWord row.name.toList = true ∧
      unquoted row.name.toList = row.name.toList := by decide
  intro row member
  obtain ⟨lower, unquoted⟩ := names row member
  exact ⟨(solid_lower lower).1, (solid_lower lower).2, unquoted⟩

/-- The flight table before its first window, its dump whole and cut after 300 characters. -/
theorem parseDump_take_obcTaskTable :
    parseDump ((dumpText obcTaskTable (freshExec obcSchedWindowFrames coldMode
        coldBootRecord)).take 2000) =
        .ok (hostDumpOf obcTaskTable (freshExec obcSchedWindowFrames coldMode coldBootRecord)) ∧
      parseDump ((dumpText obcTaskTable (freshExec obcSchedWindowFrames coldMode
        coldBootRecord)).take 300) = .error .truncated := by
  constructor
  · exact (parseDump_take obcTaskTable_plain _ 2000).trans (if_neg (by decide +kernel))
  · exact (parseDump_take obcTaskTable_plain _ 300).trans (if_pos (by decide +kernel))

end DumpText

end ObcZero
