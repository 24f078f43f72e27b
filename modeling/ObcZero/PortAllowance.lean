import ObcZero.AbandonedFrames
import ObcZero.SchedCore
import ObcZero.UartCore

/-! What the retry allowances of the two ports bound: one for a whole frame on the
downlink, a fresh one for each character on the console. -/

namespace ObcZero

open Uart

/-- How a write ends: every byte was taken within the allowance, or the next one met one
refusal more than it. -/
inductive PortWritten (bytes : List U8) (allowance : Nat) (before : Port) :
    ObcStatus → Port → Prop
  | whole {after : Port} (polls : Nat) (within : polls ≤ allowance)
      (reads : after.reads = before.reads + polls + bytes.length)
      (polled : after.polls = before.polls + polls)
      (taken : after.written = before.written ++ bytes) :
      PortWritten bytes allowance before .ok after
  | cut {after : Port} (count : Nat) (short : count < bytes.length)
      (reads : after.reads = before.reads + (allowance + 1) + count)
      (polled : after.polls = before.polls + (allowance + 1))
      (taken : after.written = before.written ++ bytes.take count) :
      PortWritten bytes allowance before .errTimeout after

section

variable (full : Nat → Bool)

theorem writeBytes_cons (byte : U8) (rest : List U8) (allowance : Nat) (port : Port) :
    writeBytes full (byte :: rest) allowance port =
      if full port.reads then
        match allowance with
        | 0 => (.errTimeout, port.refuse)
        | left + 1 => writeBytes full (byte :: rest) left port.refuse
      else writeBytes full rest allowance (port.take byte) := by
  cases allowance with
  | zero => by_cases busy : full port.reads <;> simp [writeBytes, portPutc, busy]
  | succ left => by_cases busy : full port.reads <;> simp [writeBytes, portPutc, busy]

theorem PortWritten.refused {bytes : List U8} {left : Nat} {port after : Port} {status : ObcStatus}
    (written : PortWritten bytes left port.refuse status after) :
    PortWritten bytes (left + 1) port status after := by
  cases written with
  | whole polls within reads polled taken =>
      refine .whole (polls + 1) (Nat.succ_le_succ within) (reads.trans ?_) (polled.trans ?_) taken
      · simp only [Port.refuse]
        omega
      · simp only [Port.refuse]
        omega
  | cut count short reads polled taken =>
      refine .cut count short (reads.trans ?_) (polled.trans ?_) taken
      · simp only [Port.refuse]
        omega
      · simp only [Port.refuse]
        omega

theorem PortWritten.took {byte : U8} {rest : List U8} {allowance : Nat} {port after : Port}
    {status : ObcStatus} (written : PortWritten rest allowance (port.take byte) status after) :
    PortWritten (byte :: rest) allowance port status after := by
  cases written with
  | whole polls within reads polled taken =>
      refine .whole polls within (reads.trans ?_) polled (taken.trans ?_)
      · simp only [Port.take, List.length_cons]
        omega
      · simp only [Port.take, List.append_assoc, List.singleton_append]
  | cut count short reads polled taken =>
      refine .cut (count + 1) (Nat.succ_lt_succ short) (reads.trans ?_) polled (taken.trans ?_)
      · simp only [Port.take]
        omega
      · simp only [Port.take, List.take_succ_cons, List.append_assoc, List.singleton_append]

theorem writeBytes_written (bytes : List U8) (allowance : Nat) (port : Port) :
    PortWritten bytes allowance port (writeBytes full bytes allowance port).1
      (writeBytes full bytes allowance port).2 := by
  induction bytes generalizing allowance port with
  | nil => exact .whole 0 (Nat.zero_le _) rfl rfl (List.append_nil _).symm
  | cons byte rest ih =>
      induction allowance generalizing port with
      | zero =>
          rw [writeBytes_cons]
          by_cases busy : full port.reads
          · rw [if_pos busy]
            exact .cut 0 (Nat.succ_pos _) rfl rfl (List.append_nil _).symm
          · rw [if_neg busy]
            exact (ih 0 _).took
      | succ left again =>
          rw [writeBytes_cons]
          by_cases busy : full port.reads
          · rw [if_pos busy]
            exact (again _).refused
          · rw [if_neg busy]
            exact (ih (left + 1) _).took

end

structure PrefixWritten (bytes : List U8) (before after : Port) (status : ObcStatus) : Prop where
  taken : ∃ count, count ≤ bytes.length ∧
    after.written = before.written ++ bytes.take count ∧ (status = .ok ↔ count = bytes.length)
  granted : status = .ok → after.polls ≤ before.polls + obcUartTxRetryTotal
  gaveUp : status ≠ .ok → after.polls = before.polls + (obcUartTxRetryTotal + 1)
  reads : after.reads ≤ before.reads + (bytes.length + obcUartTxRetryTotal + 1)

/-- For every buffer and every sequence of full bits: a write takes a prefix, all of it
exactly when it says so, on one allowance for all of its bytes. -/
theorem downlink_write_bounded (full : Nat → Bool) (bytes : Nat → U8) (len : U32)
    (port : Port) :
    let result := Uart.obcUartDownlinkWrite full (some bytes) len port
    PrefixWritten ((List.range len.toNat).map bytes) port result.2 result.1 := by
  intro result
  have written : PortWritten ((List.range len.toNat).map bytes) obcUartTxRetryTotal port result.1
      result.2 := writeBytes_written full _ obcUartTxRetryTotal port
  revert written
  generalize result.1 = status
  generalize result.2 = after
  intro written
  cases written with
  | whole polls within reads polled taken =>
      refine ⟨⟨_, Nat.le_refl _, ?_, by simp⟩, fun _ => ?_, fun failed => absurd rfl failed, ?_⟩
      · rw [taken, List.take_length]
      · omega
      · omega
  | cut count short reads polled taken =>
      refine ⟨⟨count, Nat.le_of_lt short, taken, ?_⟩, nofun, fun _ => polled, ?_⟩
      · exact ⟨nofun, fun all => absurd all (Nat.ne_of_lt short)⟩
      · omega

def clearBits (full : Nat → Bool) : Nat → Nat → Nat
  | _, 0 => 0
  | start, count + 1 => (if full start then 0 else 1) + clearBits full (start + 1) count

theorem clearBits_le (full : Nat → Bool) (start count : Nat) :
    clearBits full start count ≤ count := by
  induction count generalizing start with
  | zero => exact Nat.le_refl 0
  | succ count ih =>
      have later := ih (start + 1)
      rw [clearBits]
      split
      · omega
      · omega

theorem writeBytes_ok_iff (full : Nat → Bool) (bytes : List U8) (allowance : Nat) (port : Port) :
    (writeBytes full bytes allowance port).1 = .ok ↔
      bytes.length ≤ clearBits full port.reads (bytes.length + allowance) := by
  induction bytes generalizing allowance port with
  | nil => simp [writeBytes]
  | cons byte rest ih =>
      induction allowance generalizing port with
      | zero =>
          rw [writeBytes_cons, List.length_cons, Nat.add_zero, clearBits]
          by_cases busy : full port.reads
          · have fewer := clearBits_le full (port.reads + 1) rest.length
            rw [if_pos busy, if_pos busy]
            simp only [reduceCtorEq, false_iff]
            omega
          · rw [if_neg busy, if_neg busy, ih]
            simp only [Port.take, Nat.add_zero]
            omega
      | succ left again =>
          rw [writeBytes_cons, List.length_cons, ← Nat.add_assoc, clearBits]
          by_cases busy : full port.reads
          · rw [if_pos busy, if_pos busy]
            refine (again _).trans ?_
            simp only [Port.refuse, List.length_cons]
            omega
          · rw [if_neg busy, if_neg busy, ih]
            simp only [Port.take, Nat.add_right_comm, ← Nat.add_assoc]
            omega

def putsFrom (full : Nat → Bool) (turns allowance : Nat) (text : List U8) (port : Port) :
    ObcStatus × Port :=
  match turns, text with
  | 0, _ => (.errInvalid, port)
  | _ + 1, [] => (.ok, port)
  | turns + 1, char :: rest =>
      match portPutc full char allowance port with
      | (.ok, _, after) => putsLoop full turns rest after
      | (status, _, after) => (status, after)

section Console

variable (full : Nat → Bool)

theorem putsLoop_fresh (turns : Nat) (text : List U8) (port : Port) :
    putsLoop full turns text port = putsFrom full turns obcUartTxRetryTotal text port := by
  cases turns with
  | zero => rfl
  | succ turns =>
      cases text with
      | nil => rfl
      | cons char rest =>
          rw [putsLoop, putsFrom, obcUartPutc]
          rcases portPutc full char obcUartTxRetryTotal port with ⟨status, left, after⟩
          cases status <;> rfl

theorem putsFrom_cons (turns : Nat) (char : U8) (rest : List U8) (allowance : Nat)
    (port : Port) :
    putsFrom full (turns + 1) allowance (char :: rest) port =
      if full port.reads then
        match allowance with
        | 0 => (.errTimeout, port.refuse)
        | left + 1 => putsFrom full (turns + 1) left (char :: rest) port.refuse
      else putsFrom full turns obcUartTxRetryTotal rest (port.take char) := by
  rw [← putsLoop_fresh]
  cases allowance with
  | zero => by_cases busy : full port.reads <;> simp [putsFrom, portPutc, busy]
  | succ left => by_cases busy : full port.reads <;> simp [putsFrom, portPutc, busy]

theorem putsFrom_polls_le (turns : Nat) (text : List U8) (allowance : Nat) (port : Port) :
    port.polls ≤ (putsFrom full turns allowance text port).2.polls := by
  induction text generalizing turns allowance port with
  | nil => cases turns <;> exact Nat.le_refl _
  | cons char rest ih =>
      cases turns with
      | zero => exact Nat.le_refl _
      | succ turns =>
          induction allowance generalizing port with
          | zero =>
              rw [putsFrom_cons]
              by_cases busy : full port.reads
              · rw [if_pos busy]
                exact Nat.le_succ _
              · rw [if_neg busy]
                exact ih turns _ (port.take char)
          | succ left again =>
              rw [putsFrom_cons]
              by_cases busy : full port.reads
              · rw [if_pos busy]
                exact Nat.le_of_succ_le (again port.refuse)
              · rw [if_neg busy]
                exact ih turns _ (port.take char)

theorem putsFrom_polls_iff {turns : Nat} {text : List U8} (room : text.length < turns)
    {budget allowance : Nat} (within : budget ≤ allowance) (fresh : budget ≤ obcUartTxRetryTotal)
    (port : Port) :
    (putsFrom full turns allowance text port).2.polls ≤ port.polls + budget ↔
      text.length ≤ clearBits full port.reads (text.length + budget) := by
  induction text generalizing turns budget allowance port with
  | nil =>
      cases turns with
      | zero => cases room
      | succ turns => simp [putsFrom]
  | cons char rest ih =>
      cases turns with
      | zero => cases room
      | succ turns =>
          have shorter : rest.length < turns := Nat.lt_of_succ_lt_succ room
          have taken (budget : Nat) (fresh : budget ≤ obcUartTxRetryTotal) (port : Port) :
              (putsFrom full turns obcUartTxRetryTotal rest (port.take char)).2.polls ≤
                  port.polls + budget ↔
                rest.length + 1 ≤ 1 + clearBits full (port.reads + 1) (rest.length + budget) := by
            rw [Nat.add_comm 1, Nat.succ_le_succ_iff]
            exact ih shorter fresh fresh (port.take char)
          induction budget generalizing allowance port with
          | zero =>
              rw [putsFrom_cons, List.length_cons, Nat.add_zero, clearBits]
              by_cases busy : full port.reads
              · have fewer := clearBits_le full (port.reads + 1) rest.length
                rw [if_pos busy, if_pos busy]
                have more : port.polls + 1 ≤ (match allowance with
                    | 0 => (ObcStatus.errTimeout, port.refuse)
                    | left + 1 => putsFrom full (turns + 1) left (char :: rest) port.refuse).2.polls := by
                  cases allowance with
                  | zero => exact Nat.le_refl _
                  | succ left => exact putsFrom_polls_le full (turns + 1) _ left port.refuse
                omega
              · rw [if_neg busy, if_neg busy]
                exact taken 0 fresh port
          | succ budget again =>
              obtain ⟨left, rfl⟩ := Nat.exists_eq_succ_of_ne_zero (Nat.ne_of_gt
                (Nat.lt_of_lt_of_le (Nat.succ_pos budget) within))
              rw [putsFrom_cons, List.length_cons, ← Nat.add_assoc (rest.length + 1) budget 1,
                clearBits]
              by_cases busy : full port.reads
              · rw [if_pos busy, if_pos busy, Nat.zero_add, ← Nat.add_assoc port.polls,
                  Nat.add_right_comm port.polls]
                exact again (Nat.le_of_succ_le_succ within) (Nat.le_of_succ_le fresh) port.refuse
              · rw [if_neg busy, if_neg busy, Nat.add_right_comm rest.length 1 budget]
                exact taken (budget + 1) fresh port

end Console

def refusalCost (before after : UartPorts) : Nat :=
  txPollInstr * ((after.downlink.polls - before.downlink.polls) +
    (after.console.polls - before.console.polls))

def refusedLen : Nat := (asciiBytes refusedText).length

def announcementPolls : Nat :=
  (t1Budget - t1NominalInstr) / txPollInstr - (obcUartTxRetryTotal + 1)

/-- Nothing is emitted, or the downlink takes the whole frame within its allowance, or the
console takes the announcement with few refusals. -/
def PortsDrained (bits : UartBits) (state : TlmState) (ports : UartPorts) : Prop :=
  state.layoutOk = false ∨
    obcTlmFrameLen ≤ clearBits bits.downlink ports.downlink.reads
      (obcTlmFrameLen + obcUartTxRetryTotal) ∨
    refusedLen ≤ clearBits bits.console ports.console.reads (refusedLen + announcementPolls)

theorem obcUartDownlinkWrite_frame (full : Nat → Bool) (frame : Nat → U8) (port : Port) :
    Uart.obcUartDownlinkWrite full (some frame) (BitVec.ofNat 32 obcTlmFrameLen) port =
      writeBytes full (frameBytes frame) obcUartTxRetryTotal port := rfl

theorem obcUartPuts_polls_le (full : Nat → Bool) (text : List U8) (port : Port) :
    port.polls ≤ (obcUartPuts full (some text) port).2.polls := by
  rw [obcUartPuts, putsLoop_fresh]
  exact putsFrom_polls_le full _ text _ port

theorem obcUartPuts_polls_iff (full : Nat → Bool) (port : Port) :
    (obcUartPuts full (some (asciiBytes refusedText)) port).2.polls ≤
        port.polls + announcementPolls ↔
      refusedLen ≤ clearBits full port.reads (refusedLen + announcementPolls) := by
  rw [obcUartPuts, putsLoop_fresh]
  exact putsFrom_polls_iff full (by decide) (by decide) (by decide) port

theorem PortWritten.announcement_fits {bytes : List U8} {before after console announced : Port}
    {status : ObcStatus} (written : PortWritten bytes obcUartTxRetryTotal before status after)
    (told : console.polls ≤ announced.polls) :
    txPollInstr * ((after.polls - before.polls) +
        ((if status = .ok then console else announced).polls - console.polls)) ≤
          t1Budget - t1NominalInstr ↔
      status = .ok ∨ announced.polls ≤ console.polls + announcementPolls := by
  have left : t1Budget - t1NominalInstr = 1915 := rfl
  have cost : txPollInstr = 5 := rfl
  have retries : obcUartTxRetryTotal = 256 := rfl
  have share : announcementPolls = 126 := rfl
  rw [left, cost, share]
  cases written with
  | whole polls within reads polled taken =>
      simp only [↓reduceIte, true_or, iff_true]
      omega
  | cut count short reads polled taken =>
      simp only [reduceCtorEq, ↓reduceIte, false_or]
      omega

/-- For every behaviour of the two ports: the refused polls of an emission fit what the
task has left of its budget if and only if one of the two ports drains well enough. -/
theorem refusals_fit_budget (bits : UartBits) (readings : TlmReadings) (command : CmdState)
    (state : TlmState) (ports : UartPorts) :
    refusalCost ports (emitThrough bits readings command state ports).2 ≤
        t1Budget - t1NominalInstr ↔ PortsDrained bits state ports := by
  rw [PortsDrained, emitThrough]
  cases audited : state.layoutOk with
  | false => simp [refusalCost]
  | true =>
      have written := writeBytes_written bits.downlink
        (frameBytes (packedFrame readings command state)) obcUartTxRetryTotal ports.downlink
      have whole := writeBytes_ok_iff bits.downlink
        (frameBytes (packedFrame readings command state)) obcUartTxRetryTotal ports.downlink
      rw [frameBytes_length] at whole
      have told := obcUartPuts_polls_iff bits.console ports.console
      have more := obcUartPuts_polls_le bits.console (asciiBytes refusedText) ports.console
      rw [← whole, ← told]
      simp only [↓reduceIte, obcUartDownlinkWrite_frame, refusalCost, reduceCtorEq, false_or]
      exact written.announcement_fits more

example : obcTaskTable[1].budgetInstr.toNat = t1Budget := rfl

/-- What a write puts on the port is a write of the stream model, for some counts of how
often its bytes find the port full. -/
theorem PortWritten.simulated {bytes : List U8} {allowance : Nat} {before after : Port}
    {status : ObcStatus} (written : PortWritten bytes allowance before status after) :
    ∃ full taken, downlinkWrite full 0 allowance bytes = (status, taken) ∧
      after.written = before.written ++ taken := by
  cases written with
  | whole polls within reads polled taken =>
      exact ⟨_, bytes, downlinkWrite_never_full 0 allowance bytes, taken⟩
  | cut count short reads polled taken =>
      exact ⟨_, bytes.take count, downlinkWrite_stalls short 0 allowance, taken⟩

/-- An emission through the ports is a step of the stream that the ground reads. -/
theorem emitThrough_simulated (bits : UartBits) (readings : TlmReadings) (command : CmdState)
    {link : Downlink} {ports : UartPorts} (same : ports.downlink.written = streamOf link.chunks) :
    ∃ full,
      let next := tlmStep (.emit { readings := readings, command := command, full := full }) link
      let result := emitThrough bits readings command link.tlm ports
      next.tlm = result.1.2 ∧ result.2.downlink.written = streamOf next.chunks := by
  cases audited : link.tlm.layoutOk with
  | false =>
      refine ⟨fun _ => 0, ?_, ?_⟩
      · simp [tlmStep, emitThrough, obcTlmEmit, audited]
      · simp [tlmStep, emitThrough, audited, same]
  | true =>
      obtain ⟨full, taken, wrote, went⟩ := (writeBytes_written bits.downlink
        (frameBytes (packedFrame readings command link.tlm)) obcUartTxRetryTotal
        ports.downlink).simulated
      have write : ({ readings := readings, command := command, full := full } : Emission).write
          link.tlm = ((writeBytes bits.downlink
            (frameBytes (packedFrame readings command link.tlm)) obcUartTxRetryTotal
            ports.downlink).1, taken) := wrote
      refine ⟨full, ?_, ?_⟩
      · simp only [tlmStep, emitThrough, audited, ↓reduceIte, obcUartDownlinkWrite_frame, write]
      · simp only [tlmStep, emitThrough, audited, ↓reduceIte, obcUartDownlinkWrite_frame, write,
          went, same, streamOf, List.map_append, List.flatten_append, List.map_cons, List.map_nil,
          List.flatten_cons, List.flatten_nil, List.append_nil]

def stalledBits : UartBits := { downlink := fun _ => true, console := fun _ => true }

def idlePorts : UartPorts := { downlink := .idle, console := .idle }

theorem stalled_ports_overspend :
    let ports := (emitThrough stalledBits quietReadings clearedCmd readyTlm idlePorts).2
    ports.downlink.polls = 257 ∧ ports.console.polls = 257 ∧
      ¬refusalCost idlePorts ports ≤ t1Budget - t1NominalInstr := by
  decide +kernel

end ObcZero
