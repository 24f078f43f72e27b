import ObcZero.QueueCore
import ObcZero.SensorCore
import ObcZero.TableReads

/-!
The loops of `load_layout` and `load_uplink` that read the four tables of an image
(`harness/runner/tlm_decode.py`, `harness/runner/uplink.py`), and what they load.
-/

namespace ObcZero

namespace TableText

def nameIn (row : List (List Char × List Char)) : Option (List Char) :=
  (item row nameKey).bind nameOf

/-- `_scalar(m[key])`. -/
def scalarIn (row : List (List Char × List Char)) (key : List Char) : Option Int :=
  (item row key).bind scalar

/-- A loop over the records of a table; an exception leaves it. -/
def loadRows {Row : Type} (read : List (List Char × List Char) → Option Row) (text : List Char) :
    Option (List Row) :=
  (records text).mapM fun record => read (members record)

structure HostField where
  name : List Char
  offset : Int
  width : Int
  count : Int
  kind : Int
  deriving DecidableEq, Repr

def TlmRow.field (row : TlmRow) : HostField :=
  { name := row.name.chars, offset := row.offset.toNat, width := row.width.toNat,
    count := row.count.toNat, kind := row.kind.toNat }

def loadFields (text : List Char) : Option (List HostField) :=
  loadRows (fun row => do
    let name ← nameIn row
    let offset ← scalarIn row "offset".toList
    let width ← scalarIn row "width".toList
    let count ← scalarIn row "count".toList
    let kind ← scalarIn row "kind".toList
    return { name, offset, width, count, kind }) text

structure HostRange where
  name : List Char
  min : Int
  max : Int
  deriving DecidableEq, Repr

def SensorRow.range (row : SensorRow) : HostRange :=
  { name := row.name.chars, min := row.min.toNat, max := row.max.toNat }

def loadRanges (text : List Char) : Option (List HostRange) :=
  loadRows (fun row => do
    let name ← nameIn row
    let min ← scalarIn row "min".toList
    let max ← scalarIn row "max".toList
    return { name, min, max }) text

structure HostPlace where
  name : List Char
  offset : Int
  width : Int
  deriving DecidableEq, Repr

def PlaceRow.place (row : PlaceRow) : HostPlace :=
  { name := row.name.chars, offset := row.offset.toNat, width := row.width.toNat }

/-- The entries in the order they are set; a later one of a name overwrites the earlier. -/
def loadOffsets (text : List Char) : Option (List HostPlace) :=
  loadRows (fun row => do
    let name ← nameIn row
    let offset ← scalarIn row "offset".toList
    let width ← scalarIn row "width".toList
    return { name, offset, width }) text

structure HostCommand where
  name : List Char
  opcode : Int
  critical : Bool
  argMin : Int
  argMax : Int
  deriving DecidableEq, Repr

def CmdRow.command (row : CmdRow) : HostCommand :=
  { name := row.name.chars, opcode := row.opcode.toNat, critical := row.critical != 0,
    argMin := row.argMin.toNat, argMax := row.argMax.toNat }

def loadCommands (text : List Char) : Option (List HostCommand) :=
  loadRows (fun row => do
    let name ← nameIn row
    let opcode ← scalarIn row "opcode".toList
    let critical ← scalarIn row "critical".toList
    let argMin ← scalarIn row "arg_min".toList
    let argMax ← scalarIn row "arg_max".toList
    return { name, opcode, critical := critical != 0, argMin, argMax }) text

theorem mapM_read {Source Row : Type} {read : List Char → Option Row} {printed : Source → List Char}
    {row : Source → Row} {table : List Source}
    (reads : ∀ source ∈ table, read (printed source) = some (row source)) :
    (table.map printed).mapM read = some (table.map row) := by
  induction table with
  | nil => rfl
  | cons source rest ih =>
      have later := ih fun other member => reads other (List.mem_cons_of_mem source member)
      rw [List.map_cons, List.mapM_cons, reads source List.mem_cons_self, later]
      rfl

/-- A loop that reads a row wherever the record is recovered reads a readable table. -/
theorem loadRows_readable {Source Row : Type} {read : List (List Char × List Char) → Option Row}
    {record : Source → Record} {row : Source → Row} {table : List Source}
    (reads : ∀ source, Recovered (record source) →
      read (members (printRecord (record source))) = some (row source))
    (readable : ∀ source ∈ table, (record source).Readable) :
    loadRows read (printArray (table.map record)) = some (table.map row) := by
  have readBack : ReadBack (table.map record) := readBack_of_readable fun printed member => by
    obtain ⟨source, found, rfl⟩ := List.mem_map.mp member
    exact readable source found
  rw [loadRows, readBack.split, List.map_map]
  exact mapM_read fun source member =>
    reads source (readBack.recovered _ (List.mem_map.mpr ⟨source, member, rfl⟩))

theorem Recovered.nameIn {record : Record} (recovered : Recovered record) :
    nameIn (members (printRecord record)) = some record.name := recovered.label

theorem Recovered.scalarIn {record : Record} (recovered : Recovered record) {field : Member}
    (member : field ∈ record.fields) {number : Int} (numeric : number ∈ field.value.numeric) :
    scalarIn (members (printRecord record)) field.name.chars = some number :=
  recovered.numbers field member number numeric

/-- Below the double quote there is no byte that the scanners act on. -/
theorem settled_low {byte : U8} (low : byte.toNat < 34) : (Value.byte byte).settled = true := by
  revert byte
  decide +kernel

theorem readable_of_settled {record : Record}
    (settled : ∀ field ∈ record.fields, field.value.settled = true) : record.Readable :=
  (readable_iff record).mpr ⟨fun field member => closed_of_settled (settled field member),
    fun field member => settled field (List.mem_of_mem_dropLast member)⟩

theorem loadFields_readable {rows : List TlmRow} (readable : ∀ row ∈ rows, row.record.Readable) :
    loadFields (printArray (rows.map TlmRow.record)) = some (rows.map TlmRow.field) := by
  refine loadRows_readable (fun row recovered => ?_) readable
  have offset : scalarIn _ "offset".toList = _ := recovered.scalarIn (.head _) rfl
  have width : scalarIn _ "width".toList = _ := recovered.scalarIn (.tail _ (.head _)) rfl
  have count : scalarIn _ "count".toList = _ := recovered.scalarIn (.tail _ (.tail _ (.head _))) rfl
  have kind : scalarIn _ "kind".toList = _ :=
    recovered.scalarIn (.tail _ (.tail _ (.tail _ (.head _)))) rfl
  rw [recovered.nameIn, offset, width, count, kind]
  rfl

/-- The ranges hold no byte, so every table of them is loaded. -/
theorem loadRanges_printed (rows : List SensorRow) :
    loadRanges (printArray (rows.map SensorRow.record)) = some (rows.map SensorRow.range) := by
  have readable : ∀ row ∈ rows, row.record.Readable := fun row _ =>
    readable_of_settled (by simp [SensorRow.record, Value.settled, Value.opensText, Value.nests])
  refine loadRows_readable (fun row recovered => ?_) readable
  have min : scalarIn _ "min".toList = _ := recovered.scalarIn (.head _) rfl
  have max : scalarIn _ "max".toList = _ := recovered.scalarIn (.tail _ (.head _)) rfl
  rw [recovered.nameIn, min, max]
  rfl

theorem loadOffsets_readable {rows : List PlaceRow} (readable : ∀ row ∈ rows, row.record.Readable) :
    loadOffsets (printArray (rows.map PlaceRow.record)) = some (rows.map PlaceRow.place) := by
  refine loadRows_readable (fun row recovered => ?_) readable
  have offset : scalarIn _ "offset".toList = _ := recovered.scalarIn (.head _) rfl
  have width : scalarIn _ "width".toList = _ := recovered.scalarIn (.tail _ (.head _)) rfl
  rw [recovered.nameIn, offset, width]
  rfl

theorem flag_ne_zero (flag : U8) : ((flag.toNat : Int) != 0) = (flag != 0) := by
  revert flag
  decide +kernel

theorem loadCommands_readable {rows : List CmdRow} (readable : ∀ row ∈ rows, row.record.Readable) :
    loadCommands (printArray (rows.map CmdRow.record)) = some (rows.map CmdRow.command) := by
  refine loadRows_readable (fun row recovered => ?_) readable
  have opcode : scalarIn _ "opcode".toList = _ := recovered.scalarIn (.head _) rfl
  have critical : scalarIn _ "critical".toList = _ := recovered.scalarIn (.tail _ (.head _)) rfl
  have argMin : scalarIn _ "arg_min".toList = _ :=
    recovered.scalarIn (.tail _ (.tail _ (.tail _ (.head _)))) rfl
  have argMax : scalarIn _ "arg_max".toList = _ :=
    recovered.scalarIn (.tail _ (.tail _ (.tail _ (.tail _ (.head _))))) rfl
  rw [recovered.nameIn, opcode, critical, argMin, argMax, CmdRow.command, ← flag_ne_zero]
  rfl

def hostField (field : ObcTlmField) : HostField :=
  { name := field.name.toList, offset := field.offset, width := field.width,
    count := field.count, kind := field.kind }

def hostPlace (field : ObcCmdField) : HostPlace :=
  { name := field.name.toList, offset := field.offset, width := field.width }

def hostCommand (command : ObcCmd) : HostCommand :=
  { name := command.name.toList, opcode := command.opcode.toNat, critical := command.critical,
    argMin := command.argMin.toNat, argMax := command.argMax.toNat }

theorem carried_row {Source Declared Row : Type} {row : Source → Row} {host : Declared → Row}
    {rows : List Source} {table : List Declared} (carried : rows.map row = table.map host)
    {source : Source} (member : source ∈ rows) : ∃ declared ∈ table, host declared = row source :=
  List.mem_map.mp (carried ▸ List.mem_map_of_mem member)

/-- What the host loads of an image that carries the telemetry table is that table. -/
theorem load_obcTlmFields {rows : List TlmRow}
    (carried : rows.map TlmRow.field = obcTlmFields.map hostField) :
    loadFields (printArray (rows.map TlmRow.record)) = some (obcTlmFields.map hostField) := by
  have low : ∀ field ∈ obcTlmFields, field.width < 34 ∧ field.count < 34 ∧ field.kind < 34 := by
    decide
  rw [← carried]
  apply loadFields_readable
  intro row member
  obtain ⟨field, found, same⟩ := carried_row carried member
  obtain ⟨width, count, kind⟩ := low field found
  have rowWidth : field.width = row.width.toNat := Int.ofNat.inj (congrArg HostField.width same)
  have rowCount : field.count = row.count.toNat := Int.ofNat.inj (congrArg HostField.count same)
  have rowKind : field.kind = row.kind.toNat := Int.ofNat.inj (congrArg HostField.kind same)
  have settled := And.intro (settled_low (rowWidth ▸ width))
    (And.intro (settled_low (rowCount ▸ count)) (settled_low (rowKind ▸ kind)))
  apply readable_of_settled
  simpa [TlmRow.record, Value.settled, Value.opensText, Value.nests] using settled

theorem load_obcCmdFields {rows : List PlaceRow}
    (carried : rows.map PlaceRow.place = obcCmdFields.map hostPlace) :
    loadOffsets (printArray (rows.map PlaceRow.record)) = some (obcCmdFields.map hostPlace) := by
  have low : ∀ field ∈ obcCmdFields, field.width < 34 := by decide
  rw [← carried]
  apply loadOffsets_readable
  intro row member
  obtain ⟨field, found, same⟩ := carried_row carried member
  have rowWidth : field.width = row.width.toNat := Int.ofNat.inj (congrArg HostPlace.width same)
  have settled := settled_low (rowWidth ▸ low field found)
  apply readable_of_settled
  simpa [PlaceRow.record, Value.settled, Value.opensText, Value.nests] using settled

/-- The table writes its flags as zero and one, where any other byte would be a one too. -/
theorem load_obcCmdTable {rows : List CmdRow}
    (carried : rows.map CmdRow.command = obcCmdTable.map hostCommand)
    (flags : ∀ row ∈ rows, row.critical = 0 ∨ row.critical = 1) :
    loadCommands (printArray (rows.map CmdRow.record)) = some (obcCmdTable.map hostCommand) := by
  have low : ∀ command ∈ obcCmdTable, command.opcode.toNat < 34 := by decide
  rw [← carried]
  apply loadCommands_readable
  intro row member
  obtain ⟨command, found, same⟩ := carried_row carried member
  have opcode : command.opcode.toNat = row.opcode.toNat :=
    Int.ofNat.inj (congrArg HostCommand.opcode same)
  have flag : row.critical.toNat < 34 := by
    rcases flags row member with clear | set
    · rw [clear]
      decide
    · rw [set]
      decide
  have settled := And.intro (settled_low (opcode ▸ low command found)) (settled_low flag)
  apply readable_of_settled
  simpa [CmdRow.record, Value.settled, Value.opensText, Value.nests] using settled

end TableText

end ObcZero
