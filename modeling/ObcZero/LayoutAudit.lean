import ObcZero.AbandonedFrames
import ObcZero.ChainedRegions
import ObcZero.SensorCore
import ObcZero.StreamRecovery

/-! The audit of the telemetry descriptor table (`obc_tlm_init` in `flight/tlm/frame.c`)
and what a table that passes it makes the host decode. -/

namespace ObcZero

open BytePacking ChainedRegions LittleEndian StepSystem

/-- The loop of `obc_tlm_init`; `none` is its return from the middle. -/
def tlmFieldsContiguous (fields : List ObcTlmField) : Option Nat :=
  fields.foldl (fun expected field =>
    match expected with
    | none => none
    | some expected =>
        if field.width ≠ 1 ∧ field.width ≠ 2 ∧ field.width ≠ 4 then none
        else if field.count = 0 then none
        else if field.offset ≠ expected then none
        else some (expected + field.width * field.count)) (some 0)

def obcTlmInit (fields : List ObcTlmField) (sensors : SensorState) (state : TlmState) :
    ObcStatus × SensorState × TlmState :=
  if fields.isEmpty then (.errInvalid, sensors, state)
  else if tlmFieldsContiguous fields ≠ some obcTlmFrameLen then (.errInvalid, sensors, state)
  else (.ok, obcSensorInit sensors, { state with frame := fun _ => 0, seq := 0, layoutOk := true })

/-- `load_layout`, for an image that carries these rows. -/
def loadLayout (fields : List ObcTlmField) : TlmLayout := { flightTlm with fields := fields }

/-- `values[name]`, where a later field of the same name has overwritten an earlier one. -/
def valueOf (values : List (String × TlmValue)) (name : String) : Option TlmValue :=
  values.reverse.lookup name

def rowNamed (fields : List ObcTlmField) (name : String) : Option ObcTlmField :=
  fields.reverse.find? fun field => field.name == name

structure SamePlace (row field : ObcTlmField) : Prop where
  offset : row.offset = field.offset
  width : row.width = field.width
  count : row.count = field.count

/-- Under the name of every field the table has the bytes that the packer writes it to. -/
def DescribesFrame (fields : List ObcTlmField) : Prop :=
  ∀ field ∈ obcTlmFields, ∃ row, rowNamed fields field.name = some row ∧ SamePlace row field

/-- Whatever is emitted after the audit, the host finds in it, under every name, what
was packed. -/
def DecodesAsPacked (fields : List ObcTlmField) (sensors : SensorState) (boot : TlmState) : Prop :=
  ∀ (inputs : List TlmInput) (emission : Emission),
    let link := run tlmStep inputs { tlm := (obcTlmInit fields sensors boot).2.2, chunks := [] }
    let emitted := tlmStep (.emit emission) link
    ∀ packed ∈ emittedValues emission.readings emission.command link.tlm,
      valueOf (decodeFrame (frameBytes emitted.tlm.frame) (loadLayout fields)) packed.1 =
        some packed.2

def tlmRegion (field : ObcTlmField) : Region :=
  { offset := field.offset, size := field.width * field.count }

structure TlmSound (field : ObcTlmField) : Prop where
  width : field.width = 1 ∨ field.width = 2 ∨ field.width = 4
  count : field.count ≠ 0

theorem tlmFieldsContiguous_iff (fields : List ObcTlmField) (stop : Nat) :
    tlmFieldsContiguous fields = some stop ↔
      (∀ field ∈ fields, TlmSound field) ∧ Chained 0 (fields.map tlmRegion) stop := by
  apply foldl_chained
  · intro field
    rfl
  · intro expected field next
    dsimp only
    split
    · rename_i odd
      refine iff_of_false nofun ?_
      rintro ⟨sound, _⟩
      have known := sound.width
      omega
    · split
      · rename_i empty
        exact iff_of_false nofun fun checked => checked.1.count empty
      · split
        · rename_i elsewhere
          exact iff_of_false nofun fun checked => elsewhere checked.2.1
        · rename_i usual counted placed
          rw [not_not] at placed
          constructor
          · intro went
            refine ⟨⟨by omega, counted⟩, placed, ?_⟩
            rw [← Option.some.inj went, ← placed]
            rfl
          · rintro ⟨_, _, rfl⟩
            rw [← placed]
            rfl

section Audited

variable {fields : List ObcTlmField} {sensors : SensorState} {boot : TlmState}

theorem obcTlmInit_ok (accepted : (obcTlmInit fields sensors boot).1 = .ok) :
    tlmFieldsContiguous fields = some obcTlmFrameLen ∧
      (obcTlmInit fields sensors boot).2.2 =
        { boot with frame := fun _ => 0, seq := 0, layoutOk := true } := by
  rw [obcTlmInit] at accepted ⊢
  split at accepted
  · cases accepted
  · rename_i rows
    split at accepted
    · cases accepted
    · rename_i contiguous
      rw [if_neg rows, if_neg contiguous]
      exact ⟨not_not.mp contiguous, rfl⟩

theorem obcTlmInit_layoutOk (accepted : (obcTlmInit fields sensors boot).1 = .ok) :
    (obcTlmInit fields sensors boot).2.2.layoutOk = true := by
  rw [(obcTlmInit_ok accepted).2]

theorem accepted_row (accepted : (obcTlmInit fields sensors boot).1 = .ok) {row : ObcTlmField}
    (member : row ∈ fields) :
    0 < row.width ∧ 0 < row.count ∧ row.offset + row.width * row.count ≤ obcTlmFrameLen := by
  obtain ⟨sound, chained⟩ :=
    (tlmFieldsContiguous_iff fields obcTlmFrameLen).mp (obcTlmInit_ok accepted).1
  have known := (sound row member).width
  have counted := (sound row member).count
  have within := (chained.inside (tlmRegion row) (List.mem_map_of_mem member)).2
  exact ⟨by omega, by omega, within⟩

theorem valueOf_decodeFrame (raw : List U8) (name : String) :
    valueOf (decodeFrame raw (loadLayout fields)) name =
      (rowNamed fields name).map (decodeField raw) := by
  have named (rows : List ObcTlmField) :
      (rows.map fun field => (field.name, decodeField raw field)).lookup name =
        (rows.find? fun field => field.name == name).map (decodeField raw) := by
    induction rows with
    | nil => rfl
    | cons row rest ih =>
        rw [List.map_cons, List.lookup_cons, List.find?_cons, ih]
        by_cases here : row.name = name
        · subst name
          simp
        · have there : (row.name == name) = false := beq_false_of_ne here
          have back : (name == row.name) = false := beq_false_of_ne (Ne.symm here)
          simp [there, back]
  rw [valueOf, decodeFrame, ← List.map_reverse]
  exact named fields.reverse

theorem tlmStep_layoutOk (input : TlmInput) (link : Downlink) (audited : link.tlm.layoutOk = true) :
    (tlmStep input link).tlm.layoutOk = true := by
  cases input with
  | subsystemReset => exact audited
  | emit emission =>
      rcases emission.write_cases link.tlm with whole | ⟨count, _, cut⟩
      · simp [tlmStep, obcTlmEmit, audited, whole]
      · simp [tlmStep, obcTlmEmit, audited, cut]

theorem run_layoutOk (inputs : List TlmInput) {link : Downlink} (audited : link.tlm.layoutOk = true) :
    (run tlmStep inputs link).tlm.layoutOk = true := by
  induction inputs generalizing link with
  | nil => exact audited
  | cons input rest ih => exact ih (tlmStep_layoutOk input link audited)

theorem tlmStep_frame (emission : Emission) (link : Downlink) (audited : link.tlm.layoutOk = true) :
    (tlmStep (.emit emission) link).tlm.frame =
      packedFrame emission.readings emission.command link.tlm := by
  rw [tlmStep, if_pos audited]
  exact obcTlmEmit_frame _ audited

theorem decodeField_samePlace {row field : ObcTlmField} (place : SamePlace row field)
    (raw : List U8) : decodeField raw row = decodeField raw field := by
  simp only [decodeField, place.offset, place.width, place.count]

theorem mem_emittedValues {readings : TlmReadings} {command : CmdState} {state : TlmState}
    {packed : String × TlmValue} :
    packed ∈ emittedValues readings command state ↔ ∃ field ∈ obcTlmFields,
      (field.name, decodeField (frameBytes (packedFrame readings command state)) field) =
        packed := by
  rw [← decodeFrame_packed, decodeFrame, List.mem_map]
  rfl

def fieldElems (raw : List U8) (field : ObcTlmField) : List Nat :=
  (List.range field.count).map fun index =>
    fromBytes (slice raw (field.offset + index * field.width) field.width)

theorem decodeField_elems (raw : List U8) (field : ObcTlmField) : decodeField raw field =
    match fieldElems raw field with
    | [elem] => .one elem
    | elems => .many elems := rfl

theorem fieldElems_of_decodeField {raw : List U8} {row field : ObcTlmField}
    (same : decodeField raw row = decodeField raw field) :
    fieldElems raw row = fieldElems raw field := by
  rw [decodeField_elems raw row, decodeField_elems raw field] at same
  split at same
  · rename_i single
    split at same
    · rename_i other
      rw [single, other, TlmValue.one.inj same]
    · cases same
  · split at same
    · cases same
    · exact TlmValue.many.inj same

/-- Among bytes that are all different and none of them zero, a row that decodes to what
a field decodes to stands where the field stands. -/
theorem samePlace_of_decodeField {raw : List U8} (different : raw.Nodup)
    (set : ∀ byte ∈ raw, byte ≠ 0) {row field : ObcTlmField} (rowWidth : 0 < row.width)
    (rowCount : 0 < row.count) (rowInside : row.offset + row.width ≤ raw.length)
    (fieldWidth : 0 < field.width) (fieldCount : 0 < field.count)
    (fieldInside : field.offset + field.width ≤ raw.length)
    (same : decodeField raw row = decodeField raw field) : SamePlace row field := by
  have elems := fieldElems_of_decodeField same
  have count : row.count = field.count := by
    simpa [fieldElems] using congrArg List.length elems
  have head {row : ObcTlmField} (some : 0 < row.count) :
      (fieldElems raw row)[0]? = .some (fromBytes (slice raw row.offset row.width)) := by
    simp [fieldElems, some]
  have first := congrArg (fun elems => elems[0]?) elems
  rw [head rowCount, head fieldCount] at first
  have nonzero (start width : Nat) : ∀ byte ∈ slice raw start width, byte ≠ 0 :=
    fun byte member => set byte (List.mem_of_mem_drop (List.mem_of_mem_take member))
  have bytes := fromBytes_injective_ne_zero (nonzero _ _) (nonzero _ _) (Option.some.inj first)
  have width := congrArg List.length bytes
  rw [slice_length rowInside, slice_length fieldInside] at width
  have start {row : ObcTlmField} (some : 0 < row.width) (inside : row.offset + row.width ≤ raw.length) :
      (slice raw row.offset row.width)[0]? = .some raw[row.offset] := by
    simp [slice, some]
  have place := congrArg (fun bytes => bytes[0]?) bytes
  rw [start rowWidth rowInside, start fieldWidth fieldInside] at place
  exact ⟨(different.getElem_inj_iff).mp (Option.some.inj place), width, count⟩

end Audited

section Telling

/-- Four, or two, bytes that count up from the first. -/
def countingWord (first : U32) : U32 := first * 0x01010101 + 0x03020100
def countingHalf (first : U32) : U32 := first * 0x0101 + 0x0100

/-- One emission whose frame has no byte twice and no byte zero. -/
def tellingReadings : TlmReadings :=
  { clock := .ok, now := (countingWord 10).setWidth 64, framesRun := countingWord 14
    frameOverruns := countingHalf 18, slackTicksMin := countingHalf 20
    taskOverruns := (List.range obcMaxTasks).map fun task => BitVec.ofNat 32 (22 + task)
    repairs := countingHalf 30, failedVotes := countingHalf 32, suspensionCount := countingHalf 34
    shortBoots := 38, modeIsSafe := true, safeReason := 40, resetCause := 41, sensorFlags := 42
    sensorValue := fun sensor => (countingHalf (BitVec.ofNat 32 (43 + 2 * sensor.val))).setWidth 16 }

def tellingCommand : CmdState :=
  { clearedCmd with
    examined := countingWord 47, accepted := countingWord 51
    rejected := fun reason => countingWord (100 + 4 * reason.index)
    executed := countingHalf 132, queued := 134, late := 135 }

def tellingState : TlmState := { readyTlm with seq := countingWord 6, drops := countingHalf 36 }

def tellingFrame : List U8 := frameBytes (packedFrame tellingReadings tellingCommand tellingState)

theorem tellingFrame_values : tellingFrame.map BitVec.toNat =
    [0x3C, 0x5A, 0xC3, 0xA5] ++ List.range' 6 33 ++ [1] ++ List.range' 40 15 ++
      List.range' 100 36 ++ [0xE3, 0xE7] := by
  decide +kernel

theorem tellingFrame_nodup : tellingFrame.Nodup := by
  apply List.Nodup.of_map BitVec.toNat
  rw [tellingFrame_values]
  decide +kernel

theorem tellingFrame_set : ∀ byte ∈ tellingFrame, byte ≠ 0 := by
  have values : ∀ value ∈ tellingFrame.map BitVec.toNat, value ≠ 0 := by
    rw [tellingFrame_values]
    decide +kernel
  rintro byte member rfl
  exact values 0 (List.mem_map.mpr ⟨0, member, rfl⟩) rfl

/-- Every byte before the sum is packed anew. -/
theorem tlmFields_cover (readings : TlmReadings) (command : CmdState) (state : TlmState) :
    ∀ position < obcTlmOSum, ∃ field ∈ tlmFields readings command state,
      field.offset ≤ position ∧ position < field.offset + field.width := by
  have layout : (tlmFields readings command state).map region =
      (tlmFields quietReadings clearedCmd readyTlm).map region := rfl
  have covered : ∀ position < obcTlmOSum,
      ∃ place ∈ (tlmFields quietReadings clearedCmd readyTlm).map region,
        place.1 ≤ position ∧ position < place.1 + place.2 := by
    decide +kernel
  rw [← layout] at covered
  intro position inside
  obtain ⟨place, member, within⟩ := covered position inside
  obtain ⟨field, present, rfl⟩ := List.mem_map.mp member
  exact ⟨field, present, within⟩

/-- The frame tells nothing of what stood in the buffer. -/
theorem packedFrame_congr {readings : TlmReadings} {command : CmdState} {first second : TlmState}
    (seq : first.seq = second.seq) (drops : first.drops = second.drops) :
    frameBytes (packedFrame readings command first) =
      frameBytes (packedFrame readings command second) := by
  have fields : tlmFields readings command first = tlmFields readings command second := by
    simp only [tlmFields, seq, drops]
  have body : ∀ position < obcTlmOSum, pack (tlmFields readings command first) first.frame position =
      pack (tlmFields readings command second) second.frame position := by
    intro position inside
    obtain ⟨field, member, low, high⟩ := tlmFields_cover readings command first position inside
    have apart := tlmFields_apart readings command first
    have byte (buffer : Nat → U8) := pack_byte apart member
      (show position - field.offset < field.width by omega) buffer
    rw [Nat.add_sub_cancel' low] at byte
    rw [← fields, byte, byte]
  have sum : tlmFrameSum (pack (tlmFields readings command first) first.frame) =
      tlmFrameSum (pack (tlmFields readings command second) second.frame) := obcCmdSum_congr body
  refine List.map_congr_left fun position member => ?_
  have inside := List.mem_range.mp member
  simp only [packedFrame, store, putU16, sum]
  split
  · rfl
  · rename_i before
    have end_eq : obcTlmFrameLen = obcTlmOSum + 2 := rfl
    exact body position (by omega)

def quietEmission (full : Nat → Nat) : Emission :=
  { readings := quietReadings, command := clearedCmd, full := full }

theorem quietEmission_sent (tlm : TlmState) : ((quietEmission fun _ => 0).write tlm).1 = .ok := by
  rw [Emission.write, obcUartDownlinkWrite]
  exact congrArg Prod.fst (downlinkWrite_never_full 0 obcUartTxRetryTotal _)

/-- The port that is full before the first byte. -/
def stalledPort (place : Nat) : Nat := if place = 0 then obcUartTxRetryTotal + 1 else 0

theorem quietEmission_refused (tlm : TlmState) :
    ((quietEmission stalledPort).write tlm).1 = .errTimeout := by
  have short : 0 < (frameBytes (packedFrame quietReadings clearedCmd tlm)).length := by
    rw [frameBytes_length]
    decide
  rw [Emission.write, obcUartDownlinkWrite]
  exact congrArg Prod.fst (downlinkWrite_stalls short 0 obcUartTxRetryTotal)

theorem run_emissions {emission : Emission} {status : ObcStatus}
    (answers : ∀ tlm, (emission.write tlm).1 = status) (count : Nat) {link : Downlink}
    (audited : link.tlm.layoutOk = true) :
    let after := run tlmStep (List.replicate count (.emit emission)) link
    after.tlm.layoutOk = true ∧ after.tlm.seq = link.tlm.seq + BitVec.ofNat 32 count ∧
      after.tlm.drops = link.tlm.drops + BitVec.ofNat 32 (if status = .ok then 0 else count) := by
  induction count generalizing link with
  | zero => simp [run, audited]
  | succ count ih =>
      have one : (tlmStep (.emit emission) link).tlm.seq = link.tlm.seq + 1 ∧
          (tlmStep (.emit emission) link).tlm.drops =
            link.tlm.drops + if status = .ok then 0 else 1 := by
        have answer := answers link.tlm
        simp only [tlmStep, audited, ↓reduceIte, answer]
        by_cases ok : status = .ok
        · simp [obcTlmEmit, audited, ok]
        · simp [obcTlmEmit, audited, ok]
      obtain ⟨still, seq, drops⟩ := ih (tlmStep_layoutOk (.emit emission) link audited)
      refine ⟨still, ?_, ?_⟩
      · rw [List.replicate_succ, run, seq, one.1, Nat.add_comm, BitVec.ofNat_add,
          BitVec.add_assoc]
        rfl
      · rw [List.replicate_succ, run, drops, one.2]
        split
        · simp
        · rw [Nat.add_comm count, BitVec.ofNat_add, BitVec.add_assoc]
          rfl

/-- Whatever the counters are, emissions bring them to any value. -/
theorem counters_reached (seq drops : U32) (link : Downlink) (audited : link.tlm.layoutOk = true) :
    ∃ inputs, (run tlmStep inputs link).tlm.layoutOk = true ∧
      (run tlmStep inputs link).tlm.seq = seq ∧ (run tlmStep inputs link).tlm.drops = drops := by
  have missing (target current : U32) : current + BitVec.ofNat 32 (target - current).toNat = target := by
    rw [BitVec.ofNat_toNat, BitVec.setWidth_eq, add_sub_cancel]
  obtain ⟨still, _, dropped⟩ :=
    run_emissions quietEmission_refused (drops - link.tlm.drops).toNat audited
  generalize List.replicate _ _ = refused at still dropped
  obtain ⟨last, counted, kept⟩ :=
    run_emissions quietEmission_sent (seq - (run tlmStep refused link).tlm.seq).toNat still
  generalize List.replicate _ _ = sent at last counted kept
  refine ⟨refused ++ sent, ?_, ?_, ?_⟩
  · rw [run_append]
    exact last
  · rw [run_append, counted, missing]
  · rw [run_append, kept, dropped, if_pos rfl, if_neg (by decide), missing]
    exact BitVec.add_zero drops

end Telling

section Decoding

variable {fields : List ObcTlmField} {sensors : SensorState} {boot : TlmState}

theorem obcTlmFields_fit : ∀ field ∈ obcTlmFields,
    0 < field.width ∧ 0 < field.count ∧ field.offset + field.width ≤ obcTlmFrameLen := by
  decide

theorem decodesAsPacked_of_describes (accepted : (obcTlmInit fields sensors boot).1 = .ok)
    (describes : DescribesFrame fields) : DecodesAsPacked fields sensors boot := by
  intro inputs emission link emitted packed member
  have audited : link.tlm.layoutOk = true := run_layoutOk inputs (obcTlmInit_layoutOk accepted)
  obtain ⟨field, known, rfl⟩ := mem_emittedValues.mp member
  obtain ⟨row, named, place⟩ := describes field known
  rw [tlmStep_frame emission link audited, valueOf_decodeFrame, named, Option.map_some,
    decodeField_samePlace place]

theorem describes_of_decodesAsPacked (accepted : (obcTlmInit fields sensors boot).1 = .ok)
    (decodes : DecodesAsPacked fields sensors boot) : DescribesFrame fields := by
  obtain ⟨inputs, audited, seq, drops⟩ := counters_reached tellingState.seq tellingState.drops
    { tlm := (obcTlmInit fields sensors boot).2.2, chunks := [] } (obcTlmInit_layoutOk accepted)
  have telling := decodes inputs
    { readings := tellingReadings, command := tellingCommand, full := fun _ => 0 }
  dsimp only at telling
  rw [tlmStep_frame _ _ audited, packedFrame_congr seq drops] at telling
  intro field known
  have value := telling _ (mem_emittedValues.mpr ⟨field, known, rfl⟩)
  rw [packedFrame_congr seq drops, valueOf_decodeFrame, Option.map_eq_some_iff] at value
  obtain ⟨row, named, same⟩ := value
  refine ⟨row, named, ?_⟩
  have member : row ∈ fields := List.mem_reverse.mp (List.mem_of_find?_eq_some named)
  obtain ⟨rowWidth, rowCount, rowInside⟩ := accepted_row accepted member
  obtain ⟨fieldWidth, fieldCount, fieldInside⟩ := obcTlmFields_fit field known
  have element : row.width * 1 ≤ row.width * row.count := Nat.mul_le_mul_left row.width rowCount
  have length : tellingFrame.length = obcTlmFrameLen := frameBytes_length _
  exact samePlace_of_decodeField tellingFrame_nodup tellingFrame_set rowWidth rowCount
    (by rw [length]; omega) fieldWidth fieldCount (by rw [length]; exact fieldInside) same

end Decoding

end ObcZero
