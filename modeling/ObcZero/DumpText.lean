import ObcZero.LineText
import ObcZero.ScalarRead
import ObcZero.WindowVerdict

/-!
The text of a dump: what `harness/runner/dump_trace.gdb` prints of a window, and how
`parse_dump` of `harness/runner/trace_check.py` reads it.
-/

namespace ObcZero

open LineText TableText

namespace DumpText

/-- Where `str.splitlines` breaks a line. A carriage return and its line feed make one break
there and two here, with an empty line between them that the reader skips. -/
def isBreak (ch : Char) : Bool :=
  (10 ≤ ch.toNat && ch.toNat ≤ 13) || (28 ≤ ch.toNat && ch.toNat ≤ 30) || ch.toNat == 0x85 ||
    ch.toNat == 0x2028 || ch.toNat == 0x2029

inductive DumpError
  | literal (text : List Char)
  | truncated
  | missing (fields : List (List Char))
  deriving DecidableEq, Repr

/-- The list of names is sorted, as `required` is. -/
def DumpError.text : DumpError → String
  | .literal text => "invalid literal for int() with base 10: " ++ quoted text
  | .truncated =>
      "the dump is truncated: DUMP-COMPLETE is absent, so the debugger " ++
        "did not finish reading guest memory and any verdict from it would " ++
        "be a verdict on a partial observation"
  | .missing fields =>
      "the dump is missing fields: [" ++ String.intercalate ", " (fields.map quoted) ++ "]"

/-- `int(text)`, over the ASCII digits. -/
def intBase10 (text : List Char) : Except DumpError Int :=
  let value :=
    match strip text with
    | '-' :: rest => (digitsValue 10 rest).map fun value => -(value : Int)
    | '+' :: rest => (digitsValue 10 rest).map fun value => (value : Int)
    | rest => (digitsValue 10 rest).map fun value => (value : Int)
  value.elim (.error (.literal text)) .ok

/-- `text.lstrip("-").isdigit()`, over the ASCII digits. -/
def numeral (text : List Char) : Bool :=
  let digits := text.dropWhile (· == '-')
  !digits.isEmpty && digits.all Char.isDigit

/-- `text.strip('"')`. -/
def unquoted (text : List Char) : List Char :=
  (text.dropWhile (· == '"')).rdropWhile (· == '"')

def setKey {Key Value : Type} [BEq Key] (dict : List (Key × Value)) (key : Key) (value : Value) :
    List (Key × Value) :=
  if dict.any (·.1 == key) then
    dict.map fun entry => if entry.1 == key then (key, value) else entry
  else dict ++ [(key, value)]

structure DumpScan where
  scalars : List (List Char × Int)
  tasks : List HostTask
  suspensions : List HostSuspension
  trace : List (Int × Int)
  complete : Bool

def emptyScan : DumpScan :=
  { scalars := [], tasks := [], suspensions := [], trace := [], complete := false }

def completeWord : List Char := "DUMP-COMPLETE".toList
def taskWord : List Char := "task".toList
def suspensionWord : List Char := "suspension".toList
def traceWord : List Char := "trace".toList

def readTask (index name period budget essential runs overruns maxInstr : List Char) :
    Except DumpError HostTask := do
  let index ← intBase10 index
  let periodFrames ← intBase10 period
  let budgetInstr ← intBase10 budget
  let essential ← intBase10 essential
  let runs ← intBase10 runs
  let overruns ← intBase10 overruns
  let maxInstr ← intBase10 maxInstr
  return { index, name := unquoted name, periodFrames, budgetInstr, essential := essential != 0,
           runs, overruns, maxInstr }

/-- The last branches of the loop, for a line of two words. -/
def readScalar (scan : DumpScan) (word value : List Char) : Except DumpError DumpScan :=
  if numeral value then do
    let value ← intBase10 value
    return { scan with scalars := setKey scan.scalars word value }
  else return scan

/-- One turn of the loop of `parse_dump`, over the words of a line. -/
def parseLine (scan : DumpScan) : List (List Char) → Except DumpError DumpScan
  | [] => return scan
  | word :: rest =>
      if word = completeWord then return { scan with complete := true }
      else
        match rest with
        | [value] => readScalar scan word value
        | [index, task] =>
            if word = traceWord then do
              let index ← intBase10 index
              let task ← intBase10 task
              return { scan with trace := setKey scan.trace index task }
            else return scan
        | [index, task, frame] =>
            if word = suspensionWord then do
              let index ← intBase10 index
              let task ← intBase10 task
              let frame ← intBase10 frame
              return { scan with suspensions := scan.suspensions ++ [{ index, task, frame }] }
            else return scan
        | [index, name, period, budget, essential, runs, overruns, maxInstr] =>
            if word = taskWord then do
              let task ← readTask index name period budget essential runs overruns maxInstr
              return { scan with tasks := scan.tasks ++ [task] }
            else return scan
        | _ => return scan

def required : List (List Char) :=
  ["frame_overruns".toList, "frame_ticks".toList, "frames_run".toList, "mode".toList,
   "safe_entry_frame".toList, "safe_reason".toList, "slack_min".toList,
   "suspension_overflow".toList, "trace_len".toList, "trace_overflow".toList,
   "window_end".toList, "window_frames".toList, "window_start".toList]

def scanDump (text : List Char) : Except DumpError DumpScan :=
  ((lines isBreak text).map (words isSpace)).foldlM parseLine emptyScan

def DumpScan.scalar (scan : DumpScan) (name : String) : Int :=
  (scan.scalars.lookup name.toList).getD 0

/-- `sorted` by a key. -/
def sortedBy {Row : Type} (key : Row → Int) (rows : List Row) : List Row :=
  rows.insertionSort fun first second => key first ≤ key second

def DumpScan.dump (scan : DumpScan) : HostDump :=
  { windowFrames := scan.scalar "window_frames"
    frameTicks := scan.scalar "frame_ticks"
    framesRun := scan.scalar "frames_run"
    traceLen := scan.scalar "trace_len"
    traceOverflow := scan.scalar "trace_overflow"
    frameOverruns := scan.scalar "frame_overruns"
    slackMin := scan.scalar "slack_min"
    mode := scan.scalar "mode"
    safeReason := scan.scalar "safe_reason"
    safeEntryFrame := scan.scalar "safe_entry_frame"
    suspensionOverflow := scan.scalar "suspension_overflow"
    suspensions := sortedBy HostSuspension.index scan.suspensions
    windowStart := scan.scalar "window_start"
    windowEnd := scan.scalar "window_end"
    tasks := sortedBy HostTask.index scan.tasks
    trace := (sortedBy Prod.fst scan.trace).map Prod.snd }

def parseDump (text : List Char) : Except DumpError HostDump := do
  let scan ← scanDump text
  if !scan.complete then throw .truncated
  else
    let missing := required.filter fun name => (scan.scalars.lookup name).isNone
    if missing ≠ [] then throw (.missing missing)
    else return scan.dump

def scalarLine (name : String) (value : Nat) : List (List Char) := [name.toList, decimal value]

def taskLine (row : ObcTask) (index : Nat) (figures : ObcTaskState) : List (List Char) :=
  [taskWord, decimal index, row.name.toList, decimal row.periodFrames.toNat,
   decimal row.budgetInstr.toNat, decimal row.essential.toNat, decimal figures.runs.toNat,
   decimal figures.overruns.toNat, decimal figures.maxInstr.toNat]

def traceLine (index : U8) (position : Nat) : List (List Char) :=
  [traceWord, decimal position, decimal index.toNat]

def suspensionLine (entry : ObcSuspension) (position : Nat) : List (List Char) :=
  [suspensionWord, decimal position, decimal entry.task.toNat, decimal entry.frame.toNat]

def windowScalars (table : List ObcTask) (state : ExecState) : List (String × Nat) :=
  [("window_frames", obcSchedWindowFrames.toNat),
   ("frame_ticks", obcSchedFrameTicks.toNat),
   ("task_count", table.length),
   ("frames_run", state.framesRun.toNat),
   ("trace_len", state.trace.length),
   ("trace_overflow", state.traceOverflow.toNat),
   ("frame_overruns", state.frameOverruns.toNat),
   ("slack_min", state.slackTicksMin.toNat),
   ("mode", state.mode.mode.toNat),
   ("safe_reason", state.mode.safeReason.toNat),
   ("safe_entry_frame", state.safeEntryFrame.toNat),
   ("window_start", state.windowStartTicks.toNat),
   ("window_end", state.windowEndTicks.toNat)]

def suspensionScalars (state : ExecState) : List (String × Nat) :=
  [("suspension_count", state.suspensions.length),
   ("suspension_overflow", state.suspensionOverflow.toNat)]

/-- The words of each `printf`, the last one apart. -/
def dumpLines (table : List ObcTask) (state : ExecState) : List (List (List Char)) :=
  ((windowScalars table state).map fun pair => scalarLine pair.1 pair.2) ++
  (table.zipIdx.map fun entry => taskLine entry.1 entry.2 (state.taskState entry.2)) ++
  (state.trace.zipIdx.map fun entry => traceLine entry.1 entry.2) ++
  ((suspensionScalars state).map fun pair => scalarLine pair.1 pair.2) ++
  state.suspensions.zipIdx.map fun entry => suspensionLine entry.1 entry.2

/-- What `dump_trace.gdb` prints of a window. -/
def dumpText (table : List ObcTask) (state : ExecState) : List Char :=
  printed ' ' '\n' (dumpLines table state ++ [[completeWord]])

/-- A name that stands as one word of a line, with no quote at its ends. -/
structure PlainName (name : List Char) : Prop where
  nonempty : name ≠ []
  solid : ∀ ch ∈ name, isSpace ch = false
  unquoted : unquoted name = name

end DumpText

end ObcZero
