import ObcZero.TableText

/-!
The tables of an image as the debugger prints them: an array of records in braces, a
string in double quotes, a number in decimal, and a byte as its number followed by a
character literal in single quotes.
-/

namespace ObcZero

open QuotedScan

namespace TableText

def wordChar (ch : Char) : Bool := ch.isAlphanum || ch == '_'

structure Word where
  chars : List Char
  letters : ∀ ch ∈ chars, wordChar ch = true

def decimal (value : Nat) : List Char := Nat.toDigits 10 value

def hexadecimal (value : Nat) : List Char := '0' :: 'x' :: Nat.toDigits 16 value

/-- What stands between the single quotes of a character literal. -/
def escapeByte (byte : U8) : List Char :=
  let code := byte.toNat
  if code = 39 ∨ code = 92 then ['\\', Char.ofNat code]
  else if 32 ≤ code ∧ code ≤ 126 then [Char.ofNat code]
  else if code = 7 then ['\\', 'a']
  else if code = 8 then ['\\', 'b']
  else if code = 9 then ['\\', 't']
  else if code = 10 then ['\\', 'n']
  else if code = 11 then ['\\', 'v']
  else if code = 12 then ['\\', 'f']
  else if code = 13 then ['\\', 'r']
  else ['\\', Nat.digitChar (code / 64), Nat.digitChar (code / 8 % 8), Nat.digitChar (code % 8)]

def charLiteral (byte : U8) : List Char := '\'' :: escapeByte byte ++ ['\'']

inductive Value
  | number (value : Nat)
  | byte (value : U8)
  /-- An array of bytes that are all zero; its last one is not printed. -/
  | padding (zeros : Nat)
  | function (address : Nat) (symbol : Option Word)

def Value.text : Value → List Char
  | .number value => decimal value
  | .byte value => decimal value.toNat ++ ' ' :: charLiteral value
  | .padding zeros => '"' :: (List.replicate zeros ['\\', '0', '0', '0']).flatten ++ ['"']
  | .function address none => hexadecimal address
  | .function address (some symbol) => hexadecimal address ++ ' ' :: '<' :: symbol.chars ++ ['>']

def Value.numeric : Value → Option Int
  | .number value => some value
  | .byte value => some value.toNat
  | .padding _ => none
  | .function _ _ => none

structure Member where
  name : Word
  value : Value

def nameKey : List Char := ['n', 'a', 'm', 'e']

/-- One row of a table: its name, a string that the image may hold by its address, and
the fields after it. -/
structure Record where
  address : Option Nat
  name : List Char
  fields : List Member
  plain : ∀ ch ∈ name, ch ≠ '"' ∧ ch ≠ '\\' ∧ ch ≠ '{' ∧ ch ≠ '}'
  distinct : (nameKey :: fields.map fun field => field.name.chars).Nodup

def quotedName (record : Record) : List Char := '"' :: record.name ++ ['"']

def nameText (record : Record) : List Char :=
  match record.address with
  | none => quotedName record
  | some address => hexadecimal address ++ ' ' :: quotedName record

def Member.lead (field : Member) : List Char := ' ' :: field.name.chars ++ [' ', '=', ' ']

def Member.text (field : Member) : List Char := ',' :: field.lead ++ field.value.text

def Record.body (record : Record) : List Char :=
  nameKey ++ [' ', '=', ' '] ++ nameText record ++ record.fields.flatMap Member.text

structure RowName where
  address : U32
  chars : List Char
  plain : ∀ ch ∈ chars, ch ≠ '"' ∧ ch ≠ '\\' ∧ ch ≠ '{' ∧ ch ≠ '}'

def word (text : String) (letters : text.toList.all wordChar = true) : Word :=
  { chars := text.toList, letters := List.all_eq_true.mp letters }

/-- `obc_tlm_field_t`. -/
structure TlmRow where
  name : RowName
  offset : U16
  width : U8
  count : U8
  kind : U8

def TlmRow.record (row : TlmRow) : Record where
  address := some row.name.address.toNat
  name := row.name.chars
  fields :=
    [{ name := word "offset" rfl, value := .number row.offset.toNat },
     { name := word "width" rfl, value := .byte row.width },
     { name := word "count" rfl, value := .byte row.count },
     { name := word "kind" rfl, value := .byte row.kind },
     { name := word "pad" rfl, value := .padding 2 }]
  plain := row.name.plain
  distinct := show (nameKey :: ["offset".toList, "width".toList, "count".toList, "kind".toList,
    "pad".toList]).Nodup by decide

/-- `obc_sensor_desc_t`. -/
structure SensorRow where
  name : RowName
  min : U16
  max : U16

def SensorRow.record (row : SensorRow) : Record where
  address := some row.name.address.toNat
  name := row.name.chars
  fields :=
    [{ name := word "min" rfl, value := .number row.min.toNat },
     { name := word "max" rfl, value := .number row.max.toNat }]
  plain := row.name.plain
  distinct := show (nameKey :: ["min".toList, "max".toList]).Nodup by decide

/-- `obc_cmd_field_t`. -/
structure PlaceRow where
  name : RowName
  offset : U16
  width : U8

def PlaceRow.record (row : PlaceRow) : Record where
  address := some row.name.address.toNat
  name := row.name.chars
  fields :=
    [{ name := word "offset" rfl, value := .number row.offset.toNat },
     { name := word "width" rfl, value := .byte row.width },
     { name := word "pad" rfl, value := .byte 0 }]
  plain := row.name.plain
  distinct := show (nameKey :: ["offset".toList, "width".toList, "pad".toList]).Nodup by decide

/-- `obc_cmd_t`. -/
structure CmdRow where
  name : RowName
  opcode : U8
  critical : U8
  argMin : U32
  argMax : U32
  handler : U32
  symbol : Option Word

def CmdRow.record (row : CmdRow) : Record where
  address := some row.name.address.toNat
  name := row.name.chars
  fields :=
    [{ name := word "opcode" rfl, value := .byte row.opcode },
     { name := word "critical" rfl, value := .byte row.critical },
     { name := word "pad" rfl, value := .padding 1 },
     { name := word "arg_min" rfl, value := .number row.argMin.toNat },
     { name := word "arg_max" rfl, value := .number row.argMax.toNat },
     { name := word "fn" rfl, value := .function row.handler.toNat row.symbol }]
  plain := row.name.plain
  distinct := show (nameKey :: ["opcode".toList, "critical".toList, "pad".toList, "arg_min".toList,
    "arg_max".toList, "fn".toList]).Nodup by decide

def printRecord (record : Record) : List Char := '{' :: record.body ++ ['}']

def printRecords : List Record → List Char
  | [] => []
  | record :: rest =>
      printRecord record ++ rest.flatMap fun later => ',' :: ' ' :: printRecord later

def printArray (table : List Record) : List Char := '{' :: printRecords table ++ ['}']

/-- `m[key]`. -/
def item (dict : List (List Char × List Char)) (key : List Char) : Option (List Char) :=
  dict.lookup key

/-- `value.split('"')[1]`. -/
def nameOf (value : List Char) : Option (List Char) := (value.splitOn '"')[1]?

/-- The host finds every field of a printed record under its name, in order, and reads
its number. -/
structure Recovered (record : Record) : Prop where
  names : (members (printRecord record)).map Prod.fst =
    nameKey :: record.fields.map fun field => field.name.chars
  label : (item (members (printRecord record)) nameKey).bind nameOf = some record.name
  numbers : ∀ field ∈ record.fields, ∀ number ∈ field.value.numeric,
    (item (members (printRecord record)) field.name.chars).bind scalar = some number

structure ReadBack (table : List Record) : Prop where
  split : records (printArray table) = table.map printRecord
  recovered : ∀ record ∈ table, Recovered record

/-- The bytes whose literal holds a bare brace or a double quote. -/
def Value.opensText : Value → Bool
  | .byte value => value.toNat ∈ [34, 123, 125]
  | _ => false

/-- The bytes whose literal holds a bare bracket. -/
def Value.nests : Value → Bool
  | .byte value => value.toNat ∈ [91, 93]
  | _ => false

/-- No byte is a brace or a double quote, and none before the last field a bracket. -/
structure Record.Readable (record : Record) : Prop where
  closed : ∀ field ∈ record.fields, field.value.opensText = false
  level : ∀ field ∈ record.fields.dropLast, field.value.nests = false

instance (record : Record) : Decidable record.Readable :=
  decidable_of_iff ((∀ field ∈ record.fields, field.value.opensText = false) ∧
      ∀ field ∈ record.fields.dropLast, field.value.nests = false)
    ⟨fun both => ⟨both.1, both.2⟩, fun readable => ⟨readable.closed, readable.level⟩⟩

end TableText

end ObcZero
