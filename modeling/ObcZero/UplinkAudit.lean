import ObcZero.LayoutAudit
import ObcZero.UplinkRoundTrip

/-! The audit of the command descriptor table (`obc_cmd_init` in `flight/cmd/frame.c`)
and what the vehicle reads in the frames that the host builds from an audited table. -/

namespace ObcZero

open ChainedRegions LittleEndian

/-- `load_uplink`, for an image that carries these rows: a later row of the same name
overwrites an earlier one. -/
def loadUplink (fields : List ObcCmdField) : UplinkLayout :=
  { flightUplink with offsets := fields.reverse }

def placeNamed (fields : List ObcCmdField) (name : String) : Option ObcCmdField :=
  fields.reverse.find? fun place => place.name == name

/-- What `obc_cmd_ingest` reads in a frame, at its own offsets. -/
structure ReadAsWritten (opcode counter arg when length sync : Nat) (corruptSum : Bool)
    (frame : Nat → U8) : Prop where
  sync : (getU32 frame obcCmdOSync).toNat = sync
  counter : (getU32 frame obcCmdOCounter).toNat = counter
  length : (getU8 frame obcCmdOLength).toNat = length
  opcode : (frameOpcode frame).toNat = opcode
  when : (getU32 frame obcCmdOWhen).toNat = when
  arg : (getU32 frame obcCmdOArg).toNat = arg
  sum : getU16 frame obcCmdOSum = obcCmdSum frame obcCmdOSum ↔ corruptSum = false

/-- Every frame that the host can build, whatever its keywords, is read as built. -/
def ReadsAsBuilt (fields : List ObcCmdField) : Prop :=
  ∀ (opcode counter arg when : Nat) (length sync : Option Nat) (corruptSum : Bool)
    (bytes : List U8),
    (loadUplink fields).build opcode counter arg when length sync corruptSum = some bytes →
      ReadAsWritten opcode counter arg when (length.getD obcCmdFrameLen)
        (sync.getD obcCmdSync.toNat) corruptSum (bufferOf bytes)

/-- The host finds every field, and the sum has room for the two bytes it takes. -/
def CanBuild (fields : List ObcCmdField) : Prop :=
  (∀ field ∈ obcCmdFields, (placeNamed fields field.name).isSome) ∧
    ∀ place ∈ placeNamed fields "sum", 2 ≤ place.width

/-- A row of no bytes carries nothing; any other starts where the parser reads the field
and ends no later. -/
def WithinField (place field : ObcCmdField) : Prop :=
  place.width = 0 ∨ place.offset = field.offset ∧ place.width ≤ field.width

def DescribesUplink (fields : List ObcCmdField) : Prop :=
  CanBuild fields → ∀ field ∈ obcCmdFields, ∀ place ∈ placeNamed fields field.name,
    WithinField place field

def cmdRegion (field : ObcCmdField) : Region := { offset := field.offset, size := field.width }

theorem fieldsContiguous_iff (fields : List ObcCmdField) (stop : Nat) :
    fieldsContiguous fields = some stop ↔
      (∀ field ∈ fields, True) ∧ Chained 0 (fields.map cmdRegion) stop := by
  apply foldl_chained
  · intro field
    rfl
  · intro expected field next
    dsimp only
    split
    · rename_i elsewhere
      exact iff_of_false nofun fun checked => elsewhere checked.2.1
    · rename_i placed
      rw [not_not] at placed
      constructor
      · intro went
        refine ⟨trivial, placed, ?_⟩
        rw [← Option.some.inj went, ← placed]
        rfl
      · rintro ⟨_, _, rfl⟩
        rw [← placed]
        rfl

theorem obcCmdInit_chained {fields : List ObcCmdField} {table : List ObcCmd} {state : CmdState}
    (accepted : (obcCmdInit fields table state).1 = .ok) :
    Chained 0 (fields.map cmdRegion) obcCmdFrameLen := by
  rw [obcCmdInit] at accepted
  split at accepted
  · cases accepted
  · split at accepted
    · cases accepted
    · rename_i contiguous
      exact ((fieldsContiguous_iff fields obcCmdFrameLen).mp (not_not.mp contiguous)).2

section Places

variable {fields : List ObcCmdField} (chained : Chained 0 (fields.map cmdRegion) obcCmdFrameLen)

include chained

theorem place_inside {name : String} {place : ObcCmdField}
    (found : placeNamed fields name = some place) : place.offset + place.width ≤ obcCmdFrameLen := by
  have member : place ∈ fields := List.mem_reverse.mp (List.mem_of_find?_eq_some found)
  exact (chained.inside (cmdRegion place) (List.mem_map_of_mem member)).2

theorem places_apart {first second : String} (different : first ≠ second)
    {place other : ObcCmdField} (found : placeNamed fields first = some place)
    (foundOther : placeNamed fields second = some other) :
    place.offset + place.width ≤ other.offset ∨ other.offset + other.width ≤ place.offset := by
  have member : place ∈ fields := List.mem_reverse.mp (List.mem_of_find?_eq_some found)
  have memberOther : other ∈ fields := List.mem_reverse.mp (List.mem_of_find?_eq_some foundOther)
  have named := List.find?_some found
  have namedOther := List.find?_some foundOther
  rw [beq_iff_eq] at named namedOther
  refine chained.apart member memberOther ?_
  rintro rfl
  exact different (named.symm.trans namedOther)

end Places

theorem bufferOf_splice (buf bytes : List U8) (offset : Nat)
    (inside : offset + bytes.length ≤ buf.length) (position : Nat) :
    bufferOf (buf.take offset ++ bytes ++ buf.drop (offset + bytes.length)) position =
      if offset ≤ position ∧ position < offset + bytes.length then bufferOf bytes (position - offset)
      else bufferOf buf position := by
  have start : (buf.take offset).length = offset := by
    rw [List.length_take]
    omega
  simp only [bufferOf, List.getD_eq_getElem?_getD]
  by_cases before : position < offset
  · rw [if_neg (by omega), List.append_assoc, List.getElem?_append_left (by omega),
      List.getElem?_take_of_lt before]
  · by_cases within : position < offset + bytes.length
    · rw [if_pos (by omega), List.append_assoc, List.getElem?_append_right (by omega),
        List.getElem?_append_left (by omega), start]
    · rw [if_neg (by omega), List.getElem?_append_right (by rw [List.length_append]; omega),
        List.getElem?_drop, List.length_append, start, Nat.add_sub_cancel' (by omega)]

theorem bufferOf_littleEndian {width index : Nat} (value : Nat) (inside : index < width) :
    bufferOf (littleEndian width value) index = BitVec.ofNat 8 (value >>> (8 * index)) := by
  simp [bufferOf, littleEndian, inside]

theorem byte_past {value width index : Nat} (fits : value < 256 ^ width) (past : width ≤ index) :
    BitVec.ofNat 8 (value >>> (8 * index)) = 0#8 := by
  have power : 2 ^ (8 * index) = 256 ^ index := Nat.pow_mul 2 8 index
  have small : value < 256 ^ index :=
    Nat.lt_of_lt_of_le fits (Nat.pow_le_pow_right (by decide) past)
  rw [Nat.shiftRight_eq_div_pow, power, Nat.div_eq_of_lt small]

section Building

variable {fields : List ObcCmdField}

theorem put_some_iff {name : String} {value : Nat} {buf out : List U8} :
    (loadUplink fields).put name value buf = some out ↔
      ∃ place, placeNamed fields name = some place ∧ value < 256 ^ place.width ∧
        out = buf.take place.offset ++ littleEndian place.width value ++
          buf.drop (place.offset + place.width) := by
  have offsets : ((loadUplink fields).offsets.find? fun place => place.name == name) =
      placeNamed fields name := rfl
  simp only [UplinkLayout.put, offsets, intToBytes, Option.bind_eq_bind, Option.bind_eq_some_iff]
  constructor
  · rintro ⟨place, found, bytes, fits, built⟩
    split at fits
    · rename_i room
      cases fits
      exact ⟨place, found, room, (Option.some.inj built).symm⟩
    · cases fits
  · rintro ⟨place, found, room, rfl⟩
    exact ⟨place, found, _, if_pos room, rfl⟩

/-- The named fields are in the buffer, and nothing else is. -/
structure HostWritten (fields : List ObcCmdField) (values : String → Nat) (names : List String)
    (bytes : List U8) : Prop where
  length : bytes.length = obcCmdFrameLen
  stored : ∀ name ∈ names, ∃ place, placeNamed fields name = some place ∧
    values name < 256 ^ place.width ∧ ∀ index < place.width,
      bufferOf bytes (place.offset + index) = BitVec.ofNat 8 (values name >>> (8 * index))
  untouched : ∀ position, (∀ name ∈ names, ∀ place, placeNamed fields name = some place →
    position < place.offset ∨ place.offset + place.width ≤ position) → bufferOf bytes position = 0

theorem zeros_clear (position : Nat) :
    bufferOf (List.replicate obcCmdFrameLen 0) position = 0 := by
  simp only [bufferOf, List.getD_eq_getElem?_getD, List.getElem?_replicate]
  split
  · rfl
  · rfl

theorem HostWritten.empty (values : String → Nat) :
    HostWritten fields values [] (List.replicate obcCmdFrameLen 0) := by
  refine ⟨List.length_replicate, fun name member => ?_, fun position _ => zeros_clear position⟩
  cases member

theorem HostWritten.stored_at {values : String → Nat} {names : List String} {bytes : List U8}
    (written : HostWritten fields values names bytes) {name : String} (member : name ∈ names)
    {place : ObcCmdField} (found : placeNamed fields name = some place) :
    values name < 256 ^ place.width ∧ ∀ index < place.width,
      bufferOf bytes (place.offset + index) = BitVec.ofNat 8 (values name >>> (8 * index)) := by
  obtain ⟨again, foundAgain, stored⟩ := written.stored name member
  obtain rfl : place = again := Option.some.inj (found.symm.trans foundAgain)
  exact stored

theorem HostWritten.put (chained : Chained 0 (fields.map cmdRegion) obcCmdFrameLen)
    {values : String → Nat} {names : List String} {name : String} {buf out : List U8}
    (written : HostWritten fields values names buf) (fresh : name ∉ names)
    (put : (loadUplink fields).put name (values name) buf = some out) :
    HostWritten fields values (name :: names) out := by
  obtain ⟨place, found, room, rfl⟩ := put_some_iff.mp put
  have inside := place_inside chained found
  have width : (littleEndian place.width (values name)).length = place.width := by
    simp [littleEndian]
  have read := bufferOf_splice buf (littleEndian place.width (values name)) place.offset
    (by rw [width, written.length]; exact inside)
  rw [width] at read
  refine ⟨?_, ?_, ?_⟩
  · have total := written.length
    simp only [List.length_append, List.length_take, List.length_drop, width]
    omega
  · intro other member
    rcases List.mem_cons.mp member with rfl | earlier
    · refine ⟨place, found, room, fun index bound => ?_⟩
      rw [read, if_pos (by omega), Nat.add_sub_cancel_left, bufferOf_littleEndian _ bound]
    · obtain ⟨old, foundOld, roomOld, bytes⟩ := written.stored other earlier
      refine ⟨old, foundOld, roomOld, fun index bound => ?_⟩
      have different : name ≠ other := fun same => fresh (same ▸ earlier)
      have apart := places_apart chained different found foundOld
      rw [read, if_neg (by omega), bytes index bound]
  · intro position elsewhere
    have here := elsewhere name List.mem_cons_self place found
    rw [read, if_neg (by omega)]
    exact written.untouched position fun other member =>
      elsewhere other (List.mem_cons_of_mem name member)

/-- One value under each name, as `build` takes its keywords. -/
def buildNamed (fields : List ObcCmdField) (values : String → Nat) (corruptSum : Bool) :
    Option (List U8) :=
  (loadUplink fields).build (values "opcode") (values "counter") (values "arg") (values "when")
    (some (values "length")) (some (values "sync")) corruptSum

def hostSum (bytes : List U8) (offset : Nat) (corruptSum : Bool) : Nat :=
  if corruptSum then frameSumUpto bytes offset ^^^ 1 else frameSumUpto bytes offset

theorem frameSumUpto_congr {first second : List U8} {upto : Nat}
    (firstReach : upto ≤ first.length) (secondReach : upto ≤ second.length)
    (same : ∀ position < upto, bufferOf first position = bufferOf second position) :
    frameSumUpto first upto = frameSumUpto second upto := by
  rw [← obcCmdSum_frameSum firstReach, ← obcCmdSum_frameSum secondReach, obcCmdSum_congr same]

/-- A built frame holds the seven fields, the sum taken of the bytes before it. -/
theorem buildNamed_written (chained : Chained 0 (fields.map cmdRegion) obcCmdFrameLen)
    {values : String → Nat} {corruptSum : Bool} {bytes : List U8}
    (built : buildNamed fields values corruptSum = some bytes) :
    ∃ place, placeNamed fields "sum" = some place ∧
      HostWritten fields
        (Function.update values "sum" (hostSum bytes place.offset corruptSum))
        ["sum", "arg", "when", "opcode", "length", "counter", "sync"] bytes := by
  simp only [buildNamed, UplinkLayout.build, Option.getD_some, Option.bind_eq_bind,
    Option.bind_eq_some_iff] at built
  obtain ⟨sync, putSync, counter, putCounter, length, putLength, opcode, putOpcode, when, putWhen,
    arg, putArg, place, found, putSum⟩ := built
  have found : placeNamed fields "sum" = some place := found
  let final := Function.update values "sum" (hostSum arg place.offset corruptSum)
  have other (name : String) (different : name ≠ "sum") : values name = final name :=
    (Function.update_of_ne different _ values).symm
  rw [other "sync" (by decide)] at putSync
  rw [other "counter" (by decide)] at putCounter
  rw [other "length" (by decide)] at putLength
  rw [other "opcode" (by decide)] at putOpcode
  rw [other "when" (by decide)] at putWhen
  rw [other "arg" (by decide)] at putArg
  have six : HostWritten fields final ["arg", "when", "opcode", "length", "counter", "sync"] arg :=
    ((((((HostWritten.empty final).put chained (by decide) putSync).put chained (by decide)
      putCounter).put chained (by decide) putLength).put chained (by decide) putOpcode).put chained
      (by decide) putWhen).put chained (by decide) putArg
  have last : (loadUplink fields).put "sum" (final "sum") arg = some bytes := by
    rw [show final "sum" = hostSum arg place.offset corruptSum from Function.update_self ..]
    exact putSum
  have seven := six.put chained (by decide) last
  have before : frameSumUpto bytes place.offset = frameSumUpto arg place.offset := by
    have inside := place_inside chained found
    refine frameSumUpto_congr (by rw [seven.length]; omega) (by rw [six.length]; omega) ?_
    intro position early
    obtain ⟨again, foundAgain, _, rfl⟩ := put_some_iff.mp last
    obtain rfl : again = place := Option.some.inj (foundAgain.symm.trans found)
    have width : (littleEndian again.width (final "sum")).length = again.width := by
      simp [littleEndian]
    have read := bufferOf_splice arg (littleEndian again.width (final "sum")) again.offset
      (by rw [width, six.length]; exact inside) position
    rw [width, if_neg (by omega)] at read
    exact read
  have sum : hostSum bytes place.offset corruptSum = hostSum arg place.offset corruptSum := by
    rw [hostSum, hostSum, before]
  refine ⟨place, found, ?_⟩
  rw [sum]
  exact seven

theorem hostSum_lt (bytes : List U8) (offset : Nat) (corruptSum : Bool) :
    hostSum bytes offset corruptSum < 256 ^ 2 := by
  have bound := frameSum_lt (bytes.take offset)
  rw [hostSum, frameSumUpto]
  split
  · exact Nat.xor_lt_two_pow (n := 16) bound (by decide)
  · exact bound

/-- Where the host finds every field, values that fit make a frame. -/
theorem buildNamed_some (able : CanBuild fields) (values : String → Nat) (corruptSum : Bool)
    (fits : ∀ field ∈ obcCmdFields, field.name ≠ "sum" →
      ∀ place ∈ placeNamed fields field.name, values field.name < 256 ^ place.width) :
    ∃ bytes, buildNamed fields values corruptSum = some bytes := by
  have put (name : String) (member : name ∈ obcCmdFields.map ObcCmdField.name)
      (different : name ≠ "sum") (buf : List U8) :
      ∃ out, (loadUplink fields).put name (values name) buf = some out := by
    obtain ⟨field, known, rfl⟩ := List.mem_map.mp member
    obtain ⟨place, found⟩ := Option.isSome_iff_exists.mp (able.1 field known)
    exact ⟨_, put_some_iff.mpr ⟨place, found, fits field known different place found, rfl⟩⟩
  obtain ⟨sync, putSync⟩ := put "sync" (by decide) (by decide) (List.replicate obcCmdFrameLen 0)
  obtain ⟨counter, putCounter⟩ := put "counter" (by decide) (by decide) sync
  obtain ⟨length, putLength⟩ := put "length" (by decide) (by decide) counter
  obtain ⟨opcode, putOpcode⟩ := put "opcode" (by decide) (by decide) length
  obtain ⟨when, putWhen⟩ := put "when" (by decide) (by decide) opcode
  obtain ⟨arg, putArg⟩ := put "arg" (by decide) (by decide) when
  obtain ⟨place, found⟩ := Option.isSome_iff_exists.mp
    (able.1 { name := "sum", offset := obcCmdOSum, width := obcCmdWSum } (by decide))
  have room : hostSum arg place.offset corruptSum < 256 ^ place.width :=
    Nat.lt_of_lt_of_le (hostSum_lt arg place.offset corruptSum)
      (Nat.pow_le_pow_right (by decide) (able.2 place found))
  have putSum : (loadUplink fields).put "sum" (hostSum arg place.offset corruptSum) arg = some _ :=
    put_some_iff.mpr ⟨place, found, room, rfl⟩
  simp only [buildNamed, UplinkLayout.build, Option.getD_some, Option.bind_eq_bind,
    Option.bind_eq_some_iff]
  exact ⟨_, sync, putSync, counter, putCounter, length, putLength, opcode, putOpcode, when,
    putWhen, arg, putArg, place, found, putSum⟩

theorem obcCmdFields_apart : ∀ field ∈ obcCmdFields, ∀ other ∈ obcCmdFields,
    field.name ≠ other.name →
      field.offset + field.width ≤ other.offset ∨ other.offset + other.width ≤ field.offset := by
  decide

theorem obcCmdFields_end : ∀ field ∈ obcCmdFields, field.offset + field.width ≤ obcCmdFrameLen := by
  decide

/-- Where no row reaches past its field, each field's bytes are the whole value. -/
theorem HostWritten.slice_field {values : String → Nat} {names : List String} {bytes : List U8}
    (written : HostWritten fields values names bytes)
    (within : ∀ field ∈ obcCmdFields, ∀ place ∈ placeNamed fields field.name,
      WithinField place field)
    (known : ∀ name ∈ names, ∃ field ∈ obcCmdFields, field.name = name)
    {field : ObcCmdField} (member : field ∈ obcCmdFields) (named : field.name ∈ names) :
    fromBytes (slice bytes field.offset field.width) = values field.name := by
  obtain ⟨place, found, room, stored⟩ := written.stored field.name named
  have fit := within field member place found
  have fits : values field.name < 256 ^ field.width := by
    refine Nat.lt_of_lt_of_le room (Nat.pow_le_pow_right (by decide) ?_)
    rcases fit with empty | ⟨_, narrow⟩
    · omega
    · exact narrow
  have blank (index : Nat) (inside : index < field.width)
      (past : place.width = 0 ∨ place.width ≤ index) :
      bufferOf bytes (field.offset + index) = 0 := by
    apply written.untouched
    intro name member' other foundOther
    obtain ⟨owner, knownOwner, rfl⟩ := known name member'
    by_cases same : owner.name = field.name
    · rw [same, found] at foundOther
      cases foundOther
      rcases fit with empty | ⟨start, _⟩
      · omega
      · omega
    · have apart := obcCmdFields_apart field member owner knownOwner (Ne.symm same)
      rcases within owner knownOwner other foundOther with empty | ⟨start, narrow⟩
      · omega
      · omega
  have inside := obcCmdFields_end field member
  have bytes_eq : slice bytes field.offset field.width = toBytes field.width (values field.name) := by
    rw [slice_eq_map (by rw [written.length]; exact inside), toBytes]
    refine List.map_congr_left fun index bound => ?_
    rw [List.mem_range] at bound
    by_cases carried : index < place.width
    · rcases fit with empty | ⟨start, _⟩
      · omega
      · rw [← start]
        exact stored index carried
    · rw [blank index bound (by omega)]
      exact (byte_past room (by omega)).symm
  rw [bytes_eq, fromBytes_toBytes, Nat.mod_eq_of_lt fits]

def FieldsRead (values : String → Nat) (bytes : List U8) : Prop :=
  ∀ field ∈ obcCmdFields, field.name ≠ "sum" →
    fromBytes (slice bytes field.offset field.width) = values field.name

theorem readAsWritten_iff {values : String → Nat} {corruptSum : Bool} {bytes : List U8}
    (length : bytes.length = obcCmdFrameLen) :
    ReadAsWritten (values "opcode") (values "counter") (values "arg") (values "when")
        (values "length") (values "sync") corruptSum (bufferOf bytes) ↔
      FieldsRead values bytes ∧
        (getU16 (bufferOf bytes) obcCmdOSum = obcCmdSum (bufferOf bytes) obcCmdOSum ↔
          corruptSum = false) := by
  have word (offset : Nat) (inside : offset + 4 ≤ obcCmdFrameLen) :
      fromBytes (slice bytes offset 4) = (getU32 (bufferOf bytes) offset).toNat :=
    (getU32_slice (by rw [length]; exact inside)).symm
  have byte (offset : Nat) (inside : offset + 1 ≤ obcCmdFrameLen) :
      fromBytes (slice bytes offset 1) = (getU8 (bufferOf bytes) offset).toNat :=
    (getU8_slice (by rw [length]; exact inside)).symm
  have opcode := (byte obcCmdOOpcode (by decide)).trans (frameOpcode_toNat _).symm
  constructor
  · intro read
    refine ⟨?_, read.sum⟩
    intro field member different
    simp only [obcCmdFields, List.mem_cons, List.not_mem_nil, or_false] at member
    rcases member with rfl | rfl | rfl | rfl | rfl | rfl | rfl
    · exact (word _ (by decide)).trans read.sync
    · exact (word _ (by decide)).trans read.counter
    · exact (byte _ (by decide)).trans read.length
    · exact opcode.trans read.opcode
    · exact (word _ (by decide)).trans read.when
    · exact (word _ (by decide)).trans read.arg
    · exact absurd rfl different
  · rintro ⟨read, sum⟩
    simp only [FieldsRead, obcCmdFields, List.forall_mem_cons] at read
    obtain ⟨sync, counter, declared, code, when, arg, _⟩ := read
    exact
      { sync := (word _ (by decide)).symm.trans (sync (by decide))
        counter := (word _ (by decide)).symm.trans (counter (by decide))
        length := (byte _ (by decide)).symm.trans (declared (by decide))
        opcode := opcode.symm.trans (code (by decide))
        when := (word _ (by decide)).symm.trans (when (by decide))
        arg := (word _ (by decide)).symm.trans (arg (by decide))
        sum := sum }

/-- Few bytes leave the top bit of their sum clear, so its complement has it. -/
theorem frameSum_testBit {bytes : List U8} (short : bytes.length ≤ obcCmdFrameLen) :
    (frameSum bytes).testBit 15 = true := by
  have grows (total : Nat) : bytes.foldl (fun total byte =>
      let raised := total + byte.toNat
      (raised + (raised >>> 16)) &&& 0xFFFF) total ≤ total + 255 * bytes.length := by
    clear short
    induction bytes generalizing total with
    | nil => exact Nat.le_refl total
    | cons byte rest ih =>
        have bound := byte.isLt
        have folded : (total + byte.toNat + (total + byte.toNat) >>> 16) &&& 0xFFFF ≤
            total + byte.toNat := by
          by_cases word : total + byte.toNat < 2 ^ 16
          · rw [Nat.shiftRight_eq_div_pow, Nat.div_eq_of_lt word]
            exact Nat.and_le_left
          · exact Nat.le_trans Nat.and_le_right (by omega)
        rw [List.foldl_cons, List.length_cons]
        refine Nat.le_trans (ih _) ?_
        dsimp only
        omega
  have total := grows 0
  have few : obcCmdFrameLen = 20 := rfl
  rw [frameSum, Nat.testBit_xor, Nat.testBit_lt_two_pow (by omega)]
  rfl

theorem hostSum_ge {bytes : List U8} (length : bytes.length = obcCmdFrameLen) (offset : Nat)
    (corruptSum : Bool) : 256 ≤ hostSum bytes offset corruptSum := by
  have top := frameSum_testBit (show (bytes.take offset).length ≤ obcCmdFrameLen by
    rw [List.length_take, length]
    exact Nat.min_le_right _ _)
  have bit : (hostSum bytes offset corruptSum).testBit 15 = true := by
    rw [hostSum, frameSumUpto]
    split
    · rw [Nat.testBit_xor, top]
      rfl
    · exact top
  exact Nat.le_trans (by decide) (Nat.ge_two_pow_of_testBit bit)

/-- The values behind a call of `build`, by name. -/
def keywordValues (opcode counter arg when length sync : Nat) : String → Nat
  | "opcode" => opcode
  | "counter" => counter
  | "arg" => arg
  | "when" => when
  | "length" => length
  | "sync" => sync
  | _ => 0

theorem written_known : ∀ name ∈ ["sum", "arg", "when", "opcode", "length", "counter", "sync"],
    ∃ field ∈ obcCmdFields, field.name = name := by
  decide

theorem written_names : ∀ field ∈ obcCmdFields,
    field.name ∈ ["sum", "arg", "when", "opcode", "length", "counter", "sync"] := by
  decide

theorem canBuild_of_written {values : String → Nat} {corruptSum : Bool} {bytes : List U8}
    {place : ObcCmdField} (found : placeNamed fields "sum" = some place)
    (written : HostWritten fields
      (Function.update values "sum" (hostSum bytes place.offset corruptSum))
      ["sum", "arg", "when", "opcode", "length", "counter", "sync"] bytes) :
    CanBuild fields := by
  constructor
  · intro field member
    obtain ⟨place, found, _⟩ := written.stored field.name (written_names field member)
    exact Option.isSome_iff_exists.mpr ⟨place, found⟩
  · intro other same
    obtain rfl : place = other := Option.some.inj (found.symm.trans same)
    have room := (written.stored_at (show "sum" ∈ _ by decide) found).1
    have large := hostSum_ge written.length place.offset corruptSum
    rw [Function.update_self] at room
    by_contra narrow
    have small : 256 ^ place.width ≤ 256 ^ 1 := Nat.pow_le_pow_right (by decide) (by omega)
    omega

theorem readsAsBuilt_of_describes (chained : Chained 0 (fields.map cmdRegion) obcCmdFrameLen)
    (describes : DescribesUplink fields) : ReadsAsBuilt fields := by
  intro opcode counter arg when length sync corruptSum bytes built
  let values := keywordValues opcode counter arg when (length.getD obcCmdFrameLen)
    (sync.getD obcCmdSync.toNat)
  have named : buildNamed fields values corruptSum = some bytes := built
  obtain ⟨place, found, written⟩ := buildNamed_written chained named
  have able := canBuild_of_written found written
  have within := describes able
  have sized := within { name := "sum", offset := obcCmdOSum, width := obcCmdWSum } (by decide) place
    found
  have start : place.offset = obcCmdOSum := by
    have room := able.2 place found
    rcases sized with empty | ⟨start, _⟩
    · omega
    · exact start
  have read (field : ObcCmdField) (member : field ∈ obcCmdFields) :=
    written.slice_field within written_known member
  have words : FieldsRead values bytes := by
    intro field member different
    have value := read field member (written_names field member)
    rwa [Function.update_of_ne different] at value
  refine (readAsWritten_iff written.length).mpr ⟨words, ?_⟩
  have sum := read { name := "sum", offset := obcCmdOSum, width := obcCmdWSum } (by decide) (by decide)
  rw [Function.update_self, start] at sum
  have stored : (getU16 (bufferOf bytes) obcCmdOSum).toNat = hostSum bytes obcCmdOSum corruptSum :=
    (getU16_slice (by rw [written.length]; decide)).trans sum
  have taken : (obcCmdSum (bufferOf bytes) obcCmdOSum).toNat = frameSumUpto bytes obcCmdOSum :=
    obcCmdSum_frameSum (by rw [written.length]; decide)
  rw [← BitVec.toNat_inj, stored, taken, hostSum]
  cases corruptSum with
  | false => simp
  | true =>
      have flipped : frameSumUpto bytes obcCmdOSum ^^^ 1 ≠ frameSumUpto bytes obcCmdOSum := by
        intro same
        have one := Nat.xor_right_injective (same.trans (Nat.xor_zero _).symm)
        cases one
      simp [flipped]

theorem HostWritten.zero {values : String → Nat} {names : List String} {bytes : List U8}
    (written : HostWritten fields values names bytes) {position : Nat}
    (clear : ∀ name ∈ names, ∀ place, placeNamed fields name = some place →
      place.offset ≤ position → position < place.offset + place.width → values name = 0) :
    bufferOf bytes position = 0 := by
  by_cases covered : ∃ name ∈ names, ∃ place, placeNamed fields name = some place ∧
      place.offset ≤ position ∧ position < place.offset + place.width
  · obtain ⟨name, member, place, found, low, high⟩ := covered
    have byte := (written.stored_at member found).2 (position - place.offset) (by omega)
    rw [Nat.add_sub_cancel' low, clear name member place found low high, Nat.zero_shiftRight] at byte
    exact byte
  · apply written.untouched
    intro name member place found
    by_contra outside
    exact covered ⟨name, member, place, found, by omega, by omega⟩

/-- Twenty bytes of which only the two of a sum at `offset` are not zero. -/
def sumOnly (offset : Nat) : List U8 :=
  (List.range obcCmdFrameLen).map fun position =>
    if position = offset ∨ position = offset + 1 then 0xFF else 0

theorem sumOnly_misread : ∀ offset < obcCmdOSum,
    getU16 (bufferOf (sumOnly offset)) obcCmdOSum ≠
      obcCmdSum (bufferOf (sumOnly offset)) obcCmdOSum := by
  decide +kernel

theorem zeros_sum : ∀ offset ≤ obcCmdOSum,
    frameSumUpto (List.replicate obcCmdFrameLen 0) offset = 0xFFFF := by
  decide +kernel

theorem eq_of_bufferOf {first second : List U8} (length : first.length = second.length)
    (same : ∀ position < first.length, bufferOf first position = bufferOf second position) :
    first = second := by
  refine List.ext_getElem length fun position inside reach => ?_
  have byte := same position inside
  rwa [bufferOf, bufferOf, List.getD_eq_getElem _ _ inside, List.getD_eq_getElem _ _ reach] at byte

/-- A frame with nothing in it is a sum and zeros. -/
theorem zeros_built (chained : Chained 0 (fields.map cmdRegion) obcCmdFrameLen)
    {bytes : List U8} (built : buildNamed fields (fun _ => 0) false = some bytes)
    (able : CanBuild fields) {place : ObcCmdField} (found : placeNamed fields "sum" = some place) :
    bytes = sumOnly place.offset := by
  obtain ⟨again, foundAgain, written⟩ := buildNamed_written chained built
  obtain rfl : place = again := Option.some.inj (found.symm.trans foundAgain)
  have inside := place_inside chained found
  have room := able.2 place found
  have total : obcCmdFrameLen = obcCmdOSum + 2 := rfl
  have outside {position : Nat} (missed : position < place.offset ∨
      place.offset + place.width ≤ position) : bufferOf bytes position = 0 := by
    apply written.zero
    intro name _ other foundOther low high
    by_cases same : name = "sum"
    · subst name
      obtain rfl : place = other := Option.some.inj (found.symm.trans foundOther)
      omega
    · exact Function.update_of_ne same _ _
  have sum : hostSum bytes place.offset false = 0xFFFF := by
    rw [hostSum, if_neg Bool.false_ne_true, ← zeros_sum place.offset (by omega)]
    refine frameSumUpto_congr (by rw [written.length]; omega)
      (by rw [List.length_replicate]; omega) fun position early => ?_
    rw [outside (.inl early), zeros_clear]
  have stored := (written.stored_at (show "sum" ∈ _ by decide) found).2
  rw [Function.update_self, sum] at stored
  refine eq_of_bufferOf (by simp [written.length, sumOnly]) fun position reach => ?_
  rw [written.length] at reach
  have byte : bufferOf (sumOnly place.offset) position =
      if position = place.offset ∨ position = place.offset + 1 then 0xFF else 0 := by
    simp [bufferOf, sumOnly, reach]
  rw [byte]
  by_cases low : position = place.offset
  · subst position
    rw [if_pos (.inl rfl)]
    exact stored 0 (by omega)
  · by_cases high : position = place.offset + 1
    · subst position
      rw [if_pos (.inr rfl)]
      exact stored 1 (by omega)
    · rw [if_neg (by omega)]
      by_cases missed : position < place.offset ∨ place.offset + place.width ≤ position
      · exact outside missed
      · have above := stored (position - place.offset) (by omega)
        rw [Nat.add_sub_cancel' (by omega)] at above
        rw [above]
        exact byte_past (show 0xFFFF < 256 ^ 2 by decide) (by omega)

theorem readsAsBuilt_named (reads : ReadsAsBuilt fields) {values : String → Nat}
    {corruptSum : Bool} {bytes : List U8}
    (built : buildNamed fields values corruptSum = some bytes) :
    ReadAsWritten (values "opcode") (values "counter") (values "arg") (values "when")
      (values "length") (values "sync") corruptSum (bufferOf bytes) :=
  reads _ _ _ _ _ _ _ _ built

theorem sum_placed (chained : Chained 0 (fields.map cmdRegion) obcCmdFrameLen)
    (reads : ReadsAsBuilt fields) (able : CanBuild fields) {place : ObcCmdField}
    (found : placeNamed fields "sum" = some place) : place.offset = obcCmdOSum := by
  obtain ⟨bytes, built⟩ := buildNamed_some able (fun _ => 0) false
    (fun field _ _ place _ => Nat.pow_pos (by decide))
  have inside := place_inside chained found
  have room := able.2 place found
  have total : obcCmdFrameLen = obcCmdOSum + 2 := rfl
  have checked := (readsAsBuilt_named reads built).sum.mpr rfl
  rw [zeros_built chained built able found] at checked
  by_contra elsewhere
  exact sumOnly_misread place.offset (by omega) checked

def singleValue (name : String) (value : Nat) : String → Nat := fun other =>
  if other = name then value else 0

theorem single_read (chained : Chained 0 (fields.map cmdRegion) obcCmdFrameLen)
    (reads : ReadsAsBuilt fields) (able : CanBuild fields) {field : ObcCmdField}
    (member : field ∈ obcCmdFields) (different : field.name ≠ "sum") {place : ObcCmdField}
    (found : placeNamed fields field.name = some place) {value : Nat}
    (fits : value < 256 ^ place.width) :
    ∃ bytes, buildNamed fields (singleValue field.name value) false = some bytes ∧
      bytes.length = obcCmdFrameLen ∧
      fromBytes (slice bytes field.offset field.width) = value := by
  obtain ⟨bytes, built⟩ := buildNamed_some able (singleValue field.name value) false (by
    intro other _ _ place' found'
    rw [singleValue]
    split
    · rename_i same
      rw [same, found] at found'
      cases found'
      exact fits
    · exact Nat.pow_pos (by decide))
  obtain ⟨_, _, written⟩ := buildNamed_written chained built
  have words := ((readAsWritten_iff written.length).mp (readsAsBuilt_named reads built)).1
  refine ⟨bytes, built, written.length, ?_⟩
  rw [words field member different, singleValue, if_pos rfl]

theorem sum_field : ∀ field ∈ obcCmdFields,
    if field.name = "sum" then field.offset = obcCmdOSum ∧ field.width = 2
    else field.offset < obcCmdOSum ∧ 0 < field.width := by
  decide

theorem field_placed (chained : Chained 0 (fields.map cmdRegion) obcCmdFrameLen)
    (reads : ReadsAsBuilt fields) (able : CanBuild fields) {field : ObcCmdField}
    (member : field ∈ obcCmdFields) (different : field.name ≠ "sum") {place : ObcCmdField}
    (found : placeNamed fields field.name = some place) (some : 0 < place.width) :
    place.offset = field.offset := by
  have one : 1 < 256 ^ place.width := Nat.one_lt_pow (by omega) (by decide)
  obtain ⟨bytes, built, length, value⟩ := single_read chained reads able member different found one
  obtain ⟨sumPlace, sumFound, written⟩ := buildNamed_written chained built
  have sumStart := sum_placed chained reads able sumFound
  obtain ⟨early, wide⟩ := (if_neg different).mp (sum_field field member)
  have first : bufferOf bytes field.offset = 1 := by
    obtain ⟨width, wider⟩ := Nat.exists_eq_succ_of_ne_zero wide.ne'
    have inside := obcCmdFields_end field member
    rw [slice_eq_map (by rw [length]; exact inside), wider, List.range_succ_eq_map, List.map_cons,
      fromBytes_cons, Nat.add_zero] at value
    apply BitVec.eq_of_toNat_eq
    have small := (bufferOf bytes field.offset).isLt
    change (bufferOf bytes field.offset).toNat = 1
    omega
  by_contra elsewhere
  have zero : bufferOf bytes field.offset = 0 := by
    by_cases covered : place.offset ≤ field.offset ∧ field.offset < place.offset + place.width
    · have byte := (written.stored_at (written_names field member) found).2
        (field.offset - place.offset) (by omega)
      rw [Nat.add_sub_cancel' covered.1, Function.update_of_ne different, singleValue,
        if_pos rfl] at byte
      rw [byte]
      exact byte_past (show 1 < 256 ^ 1 by decide) (by omega)
    · apply written.zero
      intro name _ other foundOther low high
      by_cases sum : name = "sum"
      · subst name
        obtain rfl : sumPlace = other := Option.some.inj (sumFound.symm.trans foundOther)
        omega
      · rw [Function.update_of_ne sum, singleValue, if_neg]
        rintro rfl
        obtain rfl : place = other := Option.some.inj (found.symm.trans foundOther)
        exact covered ⟨low, high⟩
  rw [first] at zero
  cases zero

theorem describes_of_readsAsBuilt (chained : Chained 0 (fields.map cmdRegion) obcCmdFrameLen)
    (reads : ReadsAsBuilt fields) : DescribesUplink fields := by
  intro able field member place found
  have shape := sum_field field member
  have total : obcCmdFrameLen = obcCmdOSum + 2 := rfl
  by_cases sum : field.name = "sum"
  · rw [if_pos sum] at shape
    have start := sum_placed chained reads able (sum ▸ found)
    have inside := place_inside chained found
    exact .inr ⟨start.trans shape.1.symm, by omega⟩
  · by_cases empty : place.width = 0
    · exact .inl empty
    · have start := field_placed chained reads able member sum found (by omega)
      refine .inr ⟨start, ?_⟩
      by_contra wide
      have fits : 256 ^ field.width < 256 ^ place.width :=
        Nat.pow_lt_pow_right (by decide) (by omega)
      obtain ⟨bytes, _, length, value⟩ := single_read chained reads able member sum found fits
      have small := fromBytes_lt (slice bytes field.offset field.width)
      rw [slice_length (by rw [length]; exact obcCmdFields_end field member), value] at small
      exact Nat.lt_irrefl _ small

end Building

/-- The statics of the telemetry module as the startup code leaves them. -/
def bootTlm : TlmState := { readyTlm with layoutOk := false }

/-- An audit tells the end of the last row and no more: an audited table is one to
decode with, or to build with, exactly when its rows stand where the fields do. -/
theorem audited_layout_exact {fields : List ObcTlmField} {sensors : SensorState} {boot : TlmState}
    {cmdFields : List ObcCmdField} {table : List ObcCmd} {state : CmdState}
    (accepted : (obcTlmInit fields sensors boot).1 = .ok)
    (cmdAccepted : (obcCmdInit cmdFields table state).1 = .ok) :
    (DecodesAsPacked fields sensors boot ↔ DescribesFrame fields) ∧
      (ReadsAsBuilt cmdFields ↔ DescribesUplink cmdFields) := by
  have chained := obcCmdInit_chained cmdAccepted
  exact ⟨⟨describes_of_decodesAsPacked accepted, decodesAsPacked_of_describes accepted⟩,
    describes_of_readsAsBuilt chained, readsAsBuilt_of_describes chained⟩

theorem flight_layout_read :
    DecodesAsPacked obcTlmFields bootSensors bootTlm ∧ ReadsAsBuilt obcCmdFields := by
  have rows : ∀ field ∈ obcTlmFields, rowNamed obcTlmFields field.name = some field := by
    decide +kernel
  have places : ∀ field ∈ obcCmdFields, placeNamed obcCmdFields field.name = some field := by
    decide +kernel
  have audited := audited_layout_exact
    (show (obcTlmInit obcTlmFields bootSensors bootTlm).1 = .ok by decide +kernel)
    (show (obcCmdInit obcCmdFields obcCmdTable clearedCmd).1 = .ok by decide +kernel)
  constructor
  · exact audited.1.mpr fun field member => ⟨field, rows field member, rfl, rfl, rfl⟩
  · apply audited.2.mpr
    rintro _ field member place found
    obtain rfl : field = place := Option.some.inj ((places field member).symm.trans found)
    exact .inr ⟨rfl, Nat.le_refl _⟩

/-- Each of the two rows names the other's offset macro. -/
def swappedTlmFields : List ObcTlmField :=
  obcTlmFields.map fun field =>
    if field.name = "seq" then { field with name := "uptime_ticks" }
    else if field.name = "uptime_ticks" then { field with name := "seq" }
    else field

def swappedCmdFields : List ObcCmdField :=
  obcCmdFields.map fun field =>
    if field.name = "when" then { field with name := "arg" }
    else if field.name = "arg" then { field with name := "when" }
    else field

/-- What the host sends to set 300 at tick 500. -/
def swappedSet : List U8 :=
  [0xC3, 0xA5, 0x3C, 0x5A, 0x01, 0x00, 0x00, 0x00, 0x14, 0x11, 0x2C, 0x01, 0x00, 0x00, 0xF4, 0x01,
    0x00, 0x00, 0xB9, 0xFC]

/-- Both tables pass. The first frame, packed at tick five, decodes to sequence number
five, and the command to set 300 at tick 500 is accepted to set 500 at tick 300. -/
theorem swapped_rows_pass :
    let tlm := (obcTlmInit swappedTlmFields bootSensors bootTlm).2.2
    let emitted := (obcTlmEmit { quietReadings with now := 5 } clearedCmd .ok tlm).2
    let ready := (obcCmdInit swappedCmdFields obcCmdTable clearedCmd).2
    ((obcTlmInit swappedTlmFields bootSensors bootTlm).1 = .ok ∧
      ("seq", .one 0) ∈ emittedValues { quietReadings with now := 5 } clearedCmd tlm ∧
      valueOf (decodeFrame (frameBytes emitted.frame) (loadLayout swappedTlmFields)) "seq" =
        some (.one 5)) ∧
    (obcCmdInit swappedCmdFields obcCmdTable clearedCmd).1 = .ok ∧
      (loadUplink swappedCmdFields).build opSet.toNat 1 300 500 none none false = some swappedSet ∧
      (obcCmdIngest obcCmdTable (some (bufferOf swappedSet)) (BitVec.ofNat 32 swappedSet.length)
        ready).2.2.history = [.accepted opSet 300 500 1 0] := by
  refine ⟨⟨?_, ?_, ?_⟩, ?_, ?_, ?_⟩
  · decide +kernel
  · exact .tail _ (.head _)
  · decide +kernel
  · decide +kernel
  · decide +kernel
  · decide +kernel

end ObcZero
