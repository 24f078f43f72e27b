import ObcZero.SchedCore

/-!
The host's side of the dispatch trace (`harness/runner/dump_trace.gdb`,
`harness/runner/trace_check.py`): what a dump holds, and the sequence the checker
expects of it.
-/

namespace ObcZero

def safeEntryNone : Nat := 0xFFFFFFFF

structure DumpTask where
  index : Nat
  periodFrames : Nat
  essential : Bool
  deriving DecidableEq, Repr

structure DumpSuspension where
  task : Nat
  frame : Nat
  deriving DecidableEq, Repr

structure Dump where
  windowFrames : Nat
  safeEntryFrame : Nat
  suspensions : List DumpSuspension
  tasks : List DumpTask
  deriving DecidableEq, Repr

def dumpTask (row : ObcTask) (index : Nat) : DumpTask :=
  { index := index, periodFrames := row.periodFrames.toNat, essential := row.essential }

def dumpTasks (table : List ObcTask) : List DumpTask :=
  table.zipIdx.map fun (row, index) => dumpTask row index

def dumpOf (table : List ObcTask) (state : ExecState) : Dump :=
  { windowFrames := obcSchedWindowFrames.toNat
    safeEntryFrame := state.safeEntryFrame.toNat
    suspensions := state.suspensions.map fun entry =>
      { task := entry.task.toNat, frame := entry.frame.toNat }
    tasks := dumpTasks table }

def withheld (dump : Dump) : List (Nat × Nat) :=
  dump.suspensions.map fun suspension => (suspension.frame, suspension.task)

/-- The body of the checker's inner loop: whether it appends the task. -/
def expects (dump : Dump) (frame : Nat) (task : DumpTask) : Bool :=
  let degraded := dump.safeEntryFrame ≠ safeEntryNone ∧ frame > dump.safeEntryFrame
  if task.periodFrames = 0 then false
  else if degraded ∧ !task.essential then false
  else if frame % task.periodFrames ≠ 0 then false
  else if (frame, task.index) ∈ withheld dump then false
  else true

def expectedInFrame (dump : Dump) (tasks : List DumpTask) (frame : Nat) : List Nat :=
  (tasks.filter (expects dump frame)).map DumpTask.index

def expectedTrace (dump : Dump) : List Nat :=
  (List.range dump.windowFrames).flatMap (expectedInFrame dump dump.tasks)

end ObcZero
