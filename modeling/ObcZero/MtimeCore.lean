import ObcZero.SchedSteps
import ObcZero.TelemetryCore

/-!
The machine timer (`flight/hal/mtime.h`, `flight/hal/mtime.c`) under the
executive: each turn comes with what the timer's registers would answer, and
whoever reads it in that turn reads them. `unstable` is no part of the program:
it records the frames in which a read gave up.
-/

namespace ObcZero

abbrev mtimeReadAttempts : Nat := 4

/-- What the three register reads of one attempt return. -/
structure MtimeSample where
  hi : U32
  lo : U32
  hiAgain : U32
  deriving DecidableEq, Repr

/-- `obc_mtime_read`. `out` is what the caller's pointer holds, `none` for a null
pointer, and the third component is `s_unstable_count`. -/
def obcMtimeRead (samples : Fin mtimeReadAttempts → MtimeSample) (out : Option U64)
    (unstableCount : U32) : ObcStatus × Option U64 × U32 :=
  match out with
  | none => (.errInvalid, none, unstableCount)
  | some before =>
      match (List.finRange mtimeReadAttempts).find? fun attempt =>
          (samples attempt).hi == (samples attempt).hiAgain with
      | some attempt =>
          let sample := samples attempt
          (.ok, some (sample.hi.setWidth 64 <<< 32 ||| sample.lo.setWidth 64), unstableCount)
      | none => (.errUnstable, some before, unstableCount + 1)

/-- What one turn of the executive meets: the timer's registers, and of a task it
dispatches what `Turn` has, with all that an emission publishes. -/
structure TimerTurn where
  samples : Fin mtimeReadAttempts → MtimeSample
  used : U32
  votes : Nat
  published : TlmReadings
  command : CmdState
  downlink : ObcStatus

inductive TimerInput
  | turn (turn : TimerTurn)
  | corrupt (index : Fin 3) (copy : ObcCriticalCopy)

structure TimedExec where
  exec : ExecState
  tlm : TlmState
  unstableCount : U32
  unstable : List U32

def TimerTurn.read (turn : TimerTurn) (unstableCount : U32) : ObcStatus × Option U64 × U32 :=
  obcMtimeRead turn.samples (some 0) unstableCount

def TimerTurn.toTurn (turn : TimerTurn) : Turn :=
  let (status, value, _) := turn.read 0
  { clock := status, now := value.getD 0, used := turn.used, votes := turn.votes }

/-- The task discards the status of its emission, that of the read included. -/
def taskTelemetry (turn : TimerTurn) (tlm : TlmState) : TlmState :=
  (obcTlmEmit
    { turn.published with clock := turn.toTurn.clock, now := turn.toTurn.now }
    turn.command turn.downlink tlm).2

def DispatchesTelemetry (table : List ObcTask) (state : ExecState) : Prop :=
  match state.phase with
  | .visit index =>
      match table[index]? with
      | some row => Dispatches row index state ∧ row.fn = some "task_telemetry"
      | none => False
  | _ => False

/-- An emission whose layout was refused returns before it reads the timer. -/
def EmissionReads (table : List ObcTask) (state : TimedExec) : Prop :=
  DispatchesTelemetry table state.exec ∧ state.tlm.layoutOk = true

/-- The executive reads the timer through `sched_now`. -/
def SchedReads (table : List ObcTask) (state : ExecState) : Prop :=
  match state.phase with
  | .start => ¬(table.length = 0 ∨ obcMaxTasks < table.length)
  | .endPass => True
  | .idle _ => True
  | _ => False

instance (table : List ObcTask) (state : ExecState) :
    Decidable (DispatchesTelemetry table state) :=
  show Decidable
    (match state.phase with
    | .visit index =>
        match table[index]? with
        | some row => Dispatches row index state ∧ row.fn = some "task_telemetry"
        | none => False
    | _ => False) from
  match state.phase with
  | .visit index =>
      show Decidable
        (match table[index]? with
        | some row => Dispatches row index state ∧ row.fn = some "task_telemetry"
        | none => False) from
      match table[index]? with
      | some row =>
          inferInstanceAs (Decidable (Dispatches row index state ∧ row.fn = some "task_telemetry"))
      | none => isFalse id
  | .start => isFalse id
  | .endPass => isFalse id
  | .idle _ => isFalse id
  | .returned _ => isFalse id
  | .reset => isFalse id

instance (table : List ObcTask) (state : TimedExec) : Decidable (EmissionReads table state) :=
  inferInstanceAs (Decidable (_ ∧ _))

instance (table : List ObcTask) (state : ExecState) : Decidable (SchedReads table state) :=
  show Decidable
    (match state.phase with
    | .start => ¬(table.length = 0 ∨ obcMaxTasks < table.length)
    | .endPass => True
    | .idle _ => True
    | _ => False) from
  match state.phase with
  | .start => inferInstanceAs (Decidable ¬(table.length = 0 ∨ obcMaxTasks < table.length))
  | .endPass => isTrue trivial
  | .idle _ => isTrue trivial
  | .visit _ => isFalse id
  | .returned _ => isFalse id
  | .reset => isFalse id

/-- What the rung-2 reset of the telemetry task does to `tlm`, a new sequence number and an
empty frame, is left out: no reading of the timer rests on either. -/
def timedStep (table : List ObcTask) : TimerInput → TimedExec → TimedExec
  | .corrupt index copy, state =>
      { state with exec := execStep table (.corrupt index copy) state.exec }
  | .turn turn, state =>
      let (status, _, unstableCount) := turn.read state.unstableCount
      let reads := EmissionReads table state ∨ SchedReads table state.exec
      { exec := execStep table (.turn turn.toTurn) state.exec
        tlm := if DispatchesTelemetry table state.exec then taskTelemetry turn state.tlm
          else state.tlm
        unstableCount := if reads then unstableCount else state.unstableCount
        unstable := if reads ∧ status = .errUnstable then state.exec.frame :: state.unstable
          else state.unstable }

end ObcZero
