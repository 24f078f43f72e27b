import ObcZero.AbandonedFrames
import ObcZero.SchedRun
import ObcZero.UplinkCore
import ObcZero.VehicleParts

/-! How far the uplink reaches: two vehicles that receive different bytes part in their command
tasks, and in nothing else but the command fields of their telemetry. -/

namespace ObcZero

open BytePacking StepSystem

theorem tlmFields_heads (readings : TlmReadings) (command other : CmdState) {state twin : TlmState}
    (seq : state.seq = twin.seq) (drops : state.drops = twin.drops) :
    (tlmFields readings command state).take 25 = (tlmFields readings other twin).take 25 := by
  simp only [tlmFields, seq, drops]
  rfl

theorem tlmFields_tails (readings : TlmReadings) (command : CmdState) (state : TlmState) :
    ∀ field ∈ (tlmFields readings command state).drop 25, obcTlmOCmdExamined ≤ field.offset := by
  have layout : ((tlmFields readings command state).drop 25).map region =
      ((tlmFields quietReadings clearedCmd readyTlm).drop 25).map region := rfl
  have starts : ∀ place ∈ ((tlmFields quietReadings clearedCmd readyTlm).drop 25).map region,
      obcTlmOCmdExamined ≤ place.1 := by
    decide +kernel
  rw [← layout] at starts
  intro field member
  exact starts (region field) (List.mem_map_of_mem member)

theorem packedFrame_alike (readings : TlmReadings) (command other : CmdState)
    {state twin : TlmState} (seq : state.seq = twin.seq) (drops : state.drops = twin.drops)
    {position : Nat} (before : position < obcTlmOCmdExamined)
    (same : state.frame position = twin.frame position) :
    packedFrame readings command state position = packedFrame readings other twin position := by
  have early (command : CmdState) (state : TlmState) :
      packedFrame readings command state position =
        pack ((tlmFields readings command state).take 25) state.frame position := by
    have short : ¬(obcTlmOSum ≤ position ∧ position < obcTlmOSum + 2) := by
      have inside : obcTlmOCmdExamined ≤ obcTlmOSum := by decide
      omega
    rw [packedFrame, store, if_neg (by simpa only [putU16] using short)]
    conv_lhs => rw [← List.take_append_drop 25 (tlmFields readings command state), pack_append]
    refine pack_outside (fun field member => .inl ?_) _
    exact Nat.lt_of_lt_of_le before (tlmFields_tails readings command state field member)
  rw [early command state, early other twin, tlmFields_heads readings command other seq drops]
  exact pack_congr _ same

/-- Where the port gives up does not depend on the bytes. -/
theorem downlinkWrite_alike (full : Nat → Nat) (index allowance : Nat) {bytes others : List U8}
    (length : bytes.length = others.length) :
    ∃ count, downlinkWrite full index allowance bytes =
        ((downlinkWrite full index allowance others).1, bytes.take count) ∧
      (downlinkWrite full index allowance others).2 = others.take count := by
  induction bytes generalizing index allowance others with
  | nil =>
      obtain rfl := List.length_eq_zero_iff.mp length.symm
      exact ⟨0, rfl, rfl⟩
  | cons byte rest ih =>
      cases others with
      | nil => cases length
      | cons other more =>
          rw [downlinkWrite, downlinkWrite]
          by_cases granted : full index ≤ allowance
          · obtain ⟨count, wrote, took⟩ :=
              ih (index + 1) (allowance - full index) (Nat.succ.inj length)
            rw [if_pos granted, if_pos granted, wrote]
            exact ⟨count + 1, rfl, congrArg (other :: ·) took⟩
          · rw [if_neg granted, if_neg granted]
            exact ⟨0, rfl, rfl⟩

/-- What a chunk of the downlink shows of the fields before the commands'. -/
def Chunk.beforeCommands (chunk : Chunk) : Bool × Nat × List U8 :=
  (chunk.whole, chunk.bytes.length, chunk.bytes.take obcTlmOCmdExamined)

/-- Two downlinks that are the same but for the command fields of their frames and the sums. -/
structure SameButCommands (link other : Downlink) : Prop where
  seq : link.tlm.seq = other.tlm.seq
  drops : link.tlm.drops = other.tlm.drops
  dropsConsecutive : link.tlm.dropsConsecutive = other.tlm.dropsConsecutive
  layoutOk : link.tlm.layoutOk = other.tlm.layoutOk
  serial : link.tlm.serial = other.tlm.serial
  frame : ∀ position < obcTlmOCmdExamined, link.tlm.frame position = other.tlm.frame position
  chunks : link.chunks.map Chunk.beforeCommands = other.chunks.map Chunk.beforeCommands

theorem SameButCommands.refl (link : Downlink) : SameButCommands link link :=
  ⟨rfl, rfl, rfl, rfl, rfl, fun _ _ => rfl, rfl⟩

theorem SameButCommands.write {link other : Downlink} (same : SameButCommands link other)
    (readings : TlmReadings) (command twin : CmdState) (full : Nat → Nat) :
    let first := Emission.write { readings := readings, command := command, full := full } link.tlm
    let second := Emission.write { readings := readings, command := twin, full := full } other.tlm
    first.1 = second.1 ∧ first.2.length = second.2.length ∧
      first.2.take obcTlmOCmdExamined = second.2.take obcTlmOCmdExamined := by
  intro first second
  have heads : (frameBytes (packedFrame readings command link.tlm)).take obcTlmOCmdExamined =
      (frameBytes (packedFrame readings twin other.tlm)).take obcTlmOCmdExamined := by
    simp only [frameBytes, ← List.map_take]
    refine List.map_congr_left fun position member => ?_
    have before : position < obcTlmOCmdExamined := by
      rw [List.take_range] at member
      exact Nat.lt_of_lt_of_le (List.mem_range.mp member) (Nat.min_le_left _ _)
    exact packedFrame_alike readings command twin same.seq same.drops before
      (same.frame position before)
  obtain ⟨count, wrote, took⟩ := @downlinkWrite_alike full 0 obcUartTxRetryTotal
    (frameBytes (packedFrame readings command link.tlm))
    (frameBytes (packedFrame readings twin other.tlm)) (by simp)
  have firstCut : first = (second.1, (frameBytes (packedFrame readings command link.tlm)).take count) :=
    wrote
  have secondCut : second.2 = (frameBytes (packedFrame readings twin other.tlm)).take count := took
  rw [firstCut, secondCut]
  refine ⟨rfl, by simp, ?_⟩
  rw [List.take_take, List.take_take, Nat.min_comm, ← List.take_take, heads, List.take_take]

theorem obcTlmEmit_state (readings : TlmReadings) (command : CmdState) (downlink : ObcStatus)
    {state : TlmState} (audited : state.layoutOk = true) :
    (obcTlmEmit readings command downlink state).2 =
      { state with
        frame := packedFrame readings command state
        seq := state.seq + 1
        drops := if downlink = .ok then state.drops else state.drops + 1
        dropsConsecutive := if downlink = .ok then 0 else state.dropsConsecutive + 1
        serial := if downlink = .ok then state.serial else
          state.serial ++ ["tlm    : downlink refused, frame dropped\r\n"] } := by
  rw [obcTlmEmit, if_pos audited]
  by_cases taken : downlink = .ok
  · simp only [taken, ↓reduceIte]
    rfl
  · simp only [taken, ↓reduceIte]
    rfl

/-- Two inputs of the downlink that differ at most in the commands' counters. -/
inductive SameTelemetry : TlmInput → TlmInput → Prop
  | emit (readings : TlmReadings) (command other : CmdState) (full : Nat → Nat) :
      SameTelemetry (.emit { readings := readings, command := command, full := full })
        (.emit { readings := readings, command := other, full := full })
  | subsystemReset : SameTelemetry .subsystemReset .subsystemReset

theorem SameButCommands.step (input twin : TlmInput) (link other : Downlink)
    (alike : SameTelemetry input twin) (same : SameButCommands link other) :
    SameButCommands (tlmStep input link) (tlmStep twin other) := by
  cases alike with
  | subsystemReset =>
      exact ⟨rfl, same.drops, same.dropsConsecutive, same.layoutOk, same.serial, fun _ _ => rfl,
        same.chunks⟩
  | emit readings command twin full =>
      obtain ⟨status, length, bytes⟩ := same.write readings command twin full
      rw [tlmStep, tlmStep]
      by_cases audited : link.tlm.layoutOk = true
      swap
      · rw [if_neg audited, if_neg (by rwa [← same.layoutOk])]
        exact same
      have auditedTwin : other.tlm.layoutOk = true := by rwa [← same.layoutOk]
      rw [if_pos audited, if_pos auditedTwin]
      dsimp only
      rw [status, obcTlmEmit_state readings command _ audited,
        obcTlmEmit_state readings twin _ auditedTwin]
      refine ⟨congrArg (· + 1) same.seq, ?_, ?_, same.layoutOk, ?_, fun position before => ?_, ?_⟩
      · simp only [same.drops]
      · simp only [same.dropsConsecutive]
      · simp only [same.serial]
      · exact packedFrame_alike readings command twin same.seq same.drops before
          (same.frame position before)
      · simp only [List.map_append, List.map_cons, List.map_nil, same.chunks,
          Chunk.beforeCommands, length, bytes]

/-- Two inputs of the vehicle that differ at most in what the uplink receives. -/
inductive SameButUplink : VehicleInput → VehicleInput → Prop
  | turn (turn : VehicleTurn) (arrived : List U8) :
      SameButUplink (.turn turn) (.turn { turn with arrived := arrived })
  | corrupt (index : Fin 3) (copy : ObcCriticalCopy) :
      SameButUplink (.corrupt index copy) (.corrupt index copy)

/-- Two vehicles that differ in their command tasks and in what these publish. -/
structure Isolated (vehicle other : Vehicle) : Prop where
  exec : vehicle.exec = other.exec
  sensors : vehicle.sensors = other.sensors
  link : SameButCommands vehicle.link other.link
  resetCause : vehicle.resetCause = other.resetCause

section

variable (table : List ObcTask) {input twin : VehicleInput} {vehicle other : Vehicle}

theorem Isolated.execFeed (isolated : Isolated vehicle other) (alike : SameButUplink input twin) :
    execFeed table input vehicle = execFeed table twin other := by
  cases alike with
  | corrupt index copy => rfl
  | turn turn arrived =>
      simp only [ObcZero.execFeed, isolated.exec, Vehicle.rowVotes, Vehicle.votes,
        isolated.link.layoutOk]
      rfl

theorem Isolated.sensorFeed (isolated : Isolated vehicle other) (alike : SameButUplink input twin) :
    sensorFeed table input vehicle = sensorFeed table twin other := by
  cases alike with
  | corrupt index copy => rfl
  | turn turn arrived =>
      simp only [ObcZero.sensorFeed, isolated.exec]
      rfl

theorem Isolated.linkFeed (isolated : Isolated vehicle other) (alike : SameButUplink input twin) :
    List.Forall₂ SameTelemetry (linkFeed table input vehicle) (linkFeed table twin other) := by
  cases alike with
  | corrupt index copy => exact .nil
  | turn turn arrived =>
      have reported : SameTelemetry (.emit (vehicle.reported table turn))
          (.emit (other.reported table { turn with arrived := arrived })) := by
        simp only [Vehicle.reported, Vehicle.emission, Vehicle.published, Vehicle.sample,
          isolated.exec, isolated.sensors, isolated.resetCause]
        exact .emit _ _ _ _
      have resets : vehicle.exec.resets table { turn with arrived := arrived } =
          vehicle.exec.resets table turn := rfl
      rw [ObcZero.linkFeed, ObcZero.linkFeed, ← isolated.exec, resets]
      refine List.rel_append ?_ ?_
      · split
        · exact .cons reported .nil
        · exact .nil
      · split
        · exact .cons .subsystemReset .nil
        · exact .nil

theorem Isolated.step (commands : List ObcCmd) (isolated : Isolated vehicle other)
    (alike : SameButUplink input twin) :
    Isolated (vehicleStep table commands input vehicle) (vehicleStep table commands twin other) := by
  have fed := vehicleStep_fed commands table input vehicle
  have twinFed := vehicleStep_fed commands table twin other
  constructor
  · rw [vehicleStep_exec, vehicleStep_exec, isolated.execFeed table alike, isolated.exec]
  · rw [fed.sensors, twinFed.sensors, isolated.sensorFeed table alike, isolated.sensors]
  · rw [fed.link, twinFed.link]
    exact run_alike SameButCommands.step (isolated.linkFeed table alike) isolated.link
  · rw [fed.resetCause, twinFed.resetCause, isolated.resetCause]

end

/-- Over any two runs that differ in what the uplink receives, and whatever the command tasks
hold at the start: the vehicles differ in nothing but their command tasks, the command fields
of their frames and the sums over these. -/
theorem vehicle_isolates_uplink (table : List ObcTask) (commands : List ObcCmd)
    {inputs twins : List VehicleInput} (alike : List.Forall₂ SameButUplink inputs twins)
    (start : Vehicle) (cmd : CmdState) :
    Isolated (run (vehicleStep table commands) inputs start)
      (run (vehicleStep table commands) twins { start with cmd := cmd }) :=
  run_alike (fun _ _ _ _ same isolated => isolated.step table commands same) alike
    ⟨rfl, rfl, .refl _, rfl⟩

def coldVehicle : Vehicle :=
  { exec := coldExec obcSchedWindowFrames
    sensors := obcSensorInit bootSensors
    link := { tlm := readyTlm, chunks := [] }
    cmd := (obcCmdInit obcCmdFields obcCmdTable clearedCmd).2
    resetCause := 0 }

def hearing (bytes : List U8) : VehicleInput :=
  .turn { clock := .ok, now := 0, used := 0, raw := fun _ => 500, arrived := bytes
          full := fun _ => 0 }

theorem vehicle_isolates_ping :
    let step := vehicleStep obcTaskTable obcCmdTable
    let deaf := List.replicate 5 (hearing [])
    let heard := run step (hearing (build opPing.toNat 1 0 0) :: deaf) coldVehicle
    let spared := run step (hearing [] :: deaf) coldVehicle
    Isolated heard spared ∧ heard.cmd.pingCount = 1 ∧ spared.cmd.pingCount = 0 :=
  ⟨vehicle_isolates_uplink obcTaskTable obcCmdTable
      (.cons (.turn _ []) (List.forall₂_same.mpr fun _ member => by
        rw [List.eq_of_mem_replicate member]
        exact .turn _ []))
      coldVehicle coldVehicle.cmd,
    by decide +kernel, by decide +kernel⟩

end ObcZero
