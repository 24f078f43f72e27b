import Mathlib

/-!
The double quotes and backslashes of a text, as a scanner keeps track of them. A mark
is a character the scanner acts on where it stands bare; a text that has none of them
bare, and closes what it opens, passes the scanner by.
-/

namespace QuotedScan

structure Quoting where
  inStr : Bool
  escaped : Bool
  deriving DecidableEq, Repr

def Quoting.bare (quoting : Quoting) : Bool := !quoting.inStr && !quoting.escaped

def outside : Quoting := { inStr := false, escaped := false }

theorem bare_iff {quoting : Quoting} : quoting.bare = true ↔ quoting = outside := by
  obtain ⟨inStr, escaped⟩ := quoting
  cases inStr <;> cases escaped <;> simp [Quoting.bare, outside]

def Quoting.step (quoting : Quoting) (ch : Char) : Quoting :=
  if quoting.escaped then { quoting with escaped := false }
  else if ch = '\\' then { quoting with escaped := true }
  else if ch = '"' then { quoting with inStr := !quoting.inStr }
  else quoting

def Quoting.run (quoting : Quoting) (text : List Char) : Quoting := text.foldl Quoting.step quoting

def Inert (marks : List Char) : Quoting → List Char → Prop
  | _, [] => True
  | quoting, ch :: rest => (quoting.bare = true → ch ∉ marks) ∧ Inert marks (quoting.step ch) rest

instance Inert.decidable (marks : List Char) : ∀ quoting text, Decidable (Inert marks quoting text)
  | _, [] => isTrue trivial
  | quoting, ch :: rest =>
      @instDecidableAnd _ _ inferInstance (Inert.decidable marks (quoting.step ch) rest)

theorem inert_append {marks first second : List Char} {quoting : Quoting} :
    Inert marks quoting (first ++ second) ↔
      Inert marks quoting first ∧ Inert marks (quoting.run first) second := by
  induction first generalizing quoting with
  | nil => simp [Inert, Quoting.run]
  | cons ch rest ih =>
      rw [List.cons_append, Inert, Inert, ih, and_assoc]
      rfl

theorem Inert.mono {marks fewer text : List Char} (fewerMarks : fewer ⊆ marks) {quoting : Quoting}
    (inert : Inert marks quoting text) : Inert fewer quoting text := by
  induction text generalizing quoting with
  | nil => trivial
  | cons ch rest ih =>
      exact ⟨fun bare member => inert.1 bare (fewerMarks member), ih inert.2⟩

structure PassesBy (marks text : List Char) : Prop where
  inert : Inert marks outside text
  closed : outside.run text = outside

instance (marks text : List Char) : Decidable (PassesBy marks text) :=
  decidable_of_iff (Inert marks outside text ∧ outside.run text = outside)
    ⟨fun both => ⟨both.1, both.2⟩, fun passes => ⟨passes.inert, passes.closed⟩⟩

section

variable {marks : List Char}

theorem PassesBy.mono {fewer text : List Char} (fewerMarks : fewer ⊆ marks)
    (passes : PassesBy marks text) : PassesBy fewer text :=
  ⟨passes.inert.mono fewerMarks, passes.closed⟩

theorem PassesBy.append {first second : List Char} (before : PassesBy marks first)
    (after : PassesBy marks second) : PassesBy marks (first ++ second) := by
  constructor
  · apply inert_append.mpr
    rw [before.closed]
    exact ⟨before.inert, after.inert⟩
  · rw [Quoting.run, List.foldl_append]
    exact (congrArg (fun quoting : Quoting => quoting.run second) before.closed).trans after.closed

/-- Neither a mark, nor a quote, nor a backslash. -/
def Plain (marks : List Char) (ch : Char) : Prop := ch ∉ marks ∧ ch ≠ '\\' ∧ ch ≠ '"'

instance (marks : List Char) (ch : Char) : Decidable (Plain marks ch) :=
  inferInstanceAs (Decidable (_ ∧ _))

theorem outside_step {ch : Char} (plain : Plain marks ch) : outside.step ch = outside := by
  obtain ⟨_, backslash, quote⟩ := plain
  simp [Quoting.step, outside, backslash, quote]

theorem passes_plain {text : List Char} (plain : ∀ ch ∈ text, Plain marks ch) :
    PassesBy marks text := by
  induction text with
  | nil => exact ⟨trivial, rfl⟩
  | cons ch rest ih =>
      have first := plain ch List.mem_cons_self
      have later := ih fun other member => plain other (List.mem_cons_of_mem ch member)
      constructor
      · rw [Inert, outside_step first]
        exact ⟨fun _ => first.1, later.inert⟩
      · rw [Quoting.run, List.foldl_cons, outside_step first]
        exact later.closed

theorem inString_step {ch : Char} (backslash : ch ≠ '\\') (quote : ch ≠ '"') :
    Quoting.step { inStr := true, escaped := false } ch = { inStr := true, escaped := false } := by
  simp [Quoting.step, backslash, quote]

theorem inString_run {content : List Char} (plain : ∀ ch ∈ content, ch ≠ '\\' ∧ ch ≠ '"') :
    Inert marks { inStr := true, escaped := false } content ∧
      Quoting.run { inStr := true, escaped := false } content =
        { inStr := true, escaped := false } := by
  induction content with
  | nil => exact ⟨trivial, rfl⟩
  | cons ch rest ih =>
      obtain ⟨backslash, quote⟩ := plain ch List.mem_cons_self
      have later := ih fun other member => plain other (List.mem_cons_of_mem ch member)
      rw [Inert, Quoting.run, List.foldl_cons, inString_step backslash quote]
      exact ⟨⟨fun bare => absurd bare (by decide), later.1⟩, later.2⟩

theorem passes_string (quote : '"' ∉ marks) {content : List Char}
    (inert : Inert marks { inStr := true, escaped := false } content)
    (closed : Quoting.run { inStr := true, escaped := false } content =
      { inStr := true, escaped := false }) :
    PassesBy marks ('"' :: content ++ ['"']) := by
  constructor
  · rw [List.cons_append, Inert]
    refine ⟨fun _ => quote, inert_append.mpr ⟨inert, ?_⟩⟩
    exact ⟨fun _ => quote, trivial⟩
  · rw [List.cons_append, Quoting.run, List.foldl_cons, List.foldl_append]
    change Quoting.run (Quoting.run { inStr := true, escaped := false } content) ['"'] = outside
    rw [closed]
    rfl

theorem passes_plainString (quote : '"' ∉ marks) {content : List Char}
    (plain : ∀ ch ∈ content, ch ≠ '\\' ∧ ch ≠ '"') : PassesBy marks ('"' :: content ++ ['"']) := by
  obtain ⟨inert, closed⟩ := (show Inert marks _ content ∧ _ from inString_run plain)
  exact passes_string quote inert closed

end

end QuotedScan
