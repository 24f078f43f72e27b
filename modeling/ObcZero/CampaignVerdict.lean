import ObcZero.CriticalPatterns
import ObcZero.VoterMasking

/-!
The voter campaign (`harness/runner/campaign.py`) and the injection it makes
(`harness/faults/critical.gdb`), over windows of the executive: what each run's verdict
is, and what the tally of a whole campaign reports.
-/

namespace ObcZero

open StepSystem

/-- One planned corruption, as `plan` draws it. -/
structure Injection where
  index : Nat
  copies : Nat
  first : Fin 3
  bit : Fin 32
  planned : copies = 1 ∨ copies = 2

structure Verdict where
  injection : Injection
  ok : Bool
  repairs : Nat
  failedVotes : Nat
  mode : Nat
  reason : String

/-- The value word of one copy with the bit flipped, its checksum left alone. -/
def flipValue (bit : Fin 32) (index : Fin 3) (critical : CriticalState) : CriticalState :=
  storeCopy obcCriticalMode index (flipCopyBit (.value bit) (copyAt critical obcCriticalMode index))
    critical

def copyFrom (first : Fin 3) (i : Nat) : Fin 3 :=
  ⟨(first.val + i) % 3, Nat.mod_lt _ (by decide)⟩

theorem copyFrom_zero (first : Fin 3) : copyFrom first 0 = first :=
  Fin.ext (Nat.mod_eq_of_lt first.isLt)

theorem copyFrom_one (first : Fin 3) : copyFrom first 1 = first + 1 := rfl

def injectCopies (injection : Injection) (critical : CriticalState) : CriticalState :=
  (List.range injection.copies).foldl
    (fun current i => flipValue injection.bit (copyFrom injection.first i) current) critical

/-- The executive as the debugger leaves it at the breakpoint on `obc_sched_run`. -/
def injected (injection : Injection) (exec : ExecState) : ExecState :=
  { exec with
    mode := { exec.mode with critical := injectCopies injection exec.mode.critical } }

/-- The end of `run_one`: the three numbers read back, and whether they are what the voter
promises. -/
def judge (injection : Injection) (repairs failedVotes mode : Nat) : Verdict :=
  if injection.copies = 1 then
    let ok := decide (1 ≤ repairs) && failedVotes == 0 && mode == 0
    { injection := injection, ok := ok, repairs := repairs, failedVotes := failedVotes
      mode := mode
      reason := if ok then "" else "a single corruption was not silently repaired" }
  else
    let ok := decide (1 ≤ failedVotes) && mode == 1
    { injection := injection, ok := ok, repairs := repairs, failedVotes := failedVotes
      mode := mode
      reason := if ok then "" else "two corruptions still produced a verdict" }

/-- How far the host gets in one run: no injection is printed, one of its two debuggers
times out, the second one prints no numbers, or it reads them back. -/
inductive HostSession
  | silent
  | timedOut
  | unread
  | readBack
  deriving DecidableEq, Repr

structure BootedWindow where
  frames : U32
  boot : Boot
  found : ModeState
  record : ObcBootRecord
  turns : List Turn

def BootedWindow.begun (window : BootedWindow) : ExecState :=
  freshExec window.frames (executiveState window.boot window.found) window.record

/-- One run of the campaign. `window` is the one that is struck, and `later` the one that
runs when the numbers are read back, if a reset has ended the first. -/
structure Trial where
  injection : Injection
  session : HostSession
  window : BootedWindow
  later : BootedWindow

def Trial.struck (table : List ObcTask) (trial : Trial) : ExecState :=
  run (execStep table) (trial.window.turns.map .turn) (injected trial.injection trial.window.begun)

def BootedWindow.spared (table : List ObcTask) (window : BootedWindow) : ExecState :=
  run (execStep table) (window.turns.map .turn) window.begun

/-- The executive whose numbers the second debugger reads. -/
def Trial.read (table : List ObcTask) (trial : Trial) : ExecState :=
  if (trial.struck table).phase = .reset then trial.later.spared table else trial.struck table

def unjudged (injection : Injection) (reason : String) : Verdict :=
  { injection := injection, ok := false, repairs := 0, failedVotes := 0, mode := 0
    reason := reason }

def runOne (table : List ObcTask) (trial : Trial) : Verdict :=
  match trial.session with
  | .silent => unjudged trial.injection "nothing was injected"
  | .timedOut => unjudged trial.injection "timed out"
  | .unread => unjudged trial.injection "could not read the voter back"
  | .readBack =>
      let mode := (trial.read table).mode
      judge trial.injection mode.critical.repairs.toNat mode.critical.failedVotes.toNat
        mode.mode.toNat

structure Tally where
  done : Nat
  failures : List Verdict
  byCopy : Fin 3 → Nat
  byDepth : Nat → Nat
  repaired : Nat
  failedVotes : Nat

def emptyTally : Tally :=
  { done := 0, failures := [], byCopy := fun _ => 0, byDepth := fun _ => 0, repaired := 0
    failedVotes := 0 }

def Tally.count (tally : Tally) (verdict : Verdict) : Tally :=
  let injection := verdict.injection
  { done := tally.done + 1
    failures := if verdict.ok then tally.failures else tally.failures ++ [verdict]
    byCopy := Function.update tally.byCopy injection.first (tally.byCopy injection.first + 1)
    byDepth := Function.update tally.byDepth injection.copies (tally.byDepth injection.copies + 1)
    repaired := tally.repaired + verdict.repairs
    failedVotes := tally.failedVotes + verdict.failedVotes }

def campaign (table : List ObcTask) (trials : List Trial) : Tally :=
  trials.foldl (fun tally trial => tally.count (runOne table trial)) emptyTally

def exitStatus (tally : Tally) : Nat := if tally.failures.isEmpty then 0 else 1

/-- The window's first turn gets as far as asking for the mode. -/
def opens : List Turn → Bool
  | [] => false
  | first :: _ => first.clock == .ok || first.clock == .errUnstable

/-- The numbers read back are those of the struck window, which took its opening vote. -/
def witnessed (table : List ObcTask) (trial : Trial) : Bool :=
  trial.session == .readBack && opens trial.window.turns && (trial.struck table).phase != .reset

/-- Whether a trial shows the voter's promise kept. -/
def promised (table : List ObcTask) (trial : Trial) : Bool :=
  witnessed table trial &&
    (trial.injection.copies == 2 || (trial.window.spared table).mode.mode == obcModeNominal)

/-- At most so many votes are taken over the turns. -/
def votesWithin (turns : List Turn) : Nat := (turns.map fun turn => 1 + turn.votes).sum

theorem startWindow_mode {table : List ObcTask} (rows : 0 < table.length)
    (limit : table.length ≤ obcMaxTasks) {turn : Turn}
    (asks : turn.clock = .ok ∨ turn.clock = .errUnstable) (state : ExecState) :
    (startWindow table turn state).mode = (obcModeIsSafe state.mode).2 ∨
      (startWindow table turn state).mode =
        obcModeEnterSafe obcSafeClock (obcModeIsSafe state.mode).2 := by
  have size : ¬(table.length = 0 ∨ obcMaxTasks < table.length) := by omega
  have entered (opened : ExecState) : (enterFrame opened).mode = opened.mode := by
    rw [enterFrame]
    split <;> rfl
  rw [startWindow, if_neg size]
  rcases asks with settled | unstable
  · rw [if_neg (by simp [settled]), schedNow_settled settled, entered]
    exact .inl rfl
  · rw [if_pos (by simp [unstable]), schedNow, if_pos unstable]
    cases safe : (obcModeIsSafe state.mode).1 with
    | true =>
        have answer : (askMode (state.record .armHardware)).1 = true := safe
        simp only [answer, ↓reduceIte]
        exact .inl rfl
    | false =>
        have answer : (askMode (state.record .armHardware)).1 = false := safe
        simp only [answer, Bool.false_eq_true, ↓reduceIte]
        exact .inr rfl

theorem run_returned (table : List ObcTask) (turns : List Turn) {state : ExecState}
    {status : ObcStatus} (returned : state.phase = .returned status) :
    run (execStep table) (turns.map .turn) state = state := by
  induction turns with
  | nil => rfl
  | cons turn rest ih =>
      have stays : execStep table (.turn turn) state = state := by
        simp only [execStep, execTurn, returned]
      rw [List.map_cons, run, stays, ih]

section Opened

variable {table : List ObcTask} {holds : Nat → ModeState → Prop}

/-- What the opening vote establishes, and asking, entering and printing keep, holds of
the mode whenever it is read back. -/
theorem opened_holds
    (modes : ModesTogether fun votes left right => left = right ∧ holds votes left)
    (rows : 0 < table.length) (limit : table.length ≤ obcMaxTasks) {turns : List Turn}
    (opened : opens turns = true) {begun : ExecState} (phase : begun.phase = .start)
    (voted : holds 1 (obcModeIsSafe begun.mode).2) :
    holds (votesWithin turns) (run (execStep table) (turns.map .turn) begun).mode := by
  cases turns with
  | nil => cases opened
  | cons first rest =>
      have asks : first.clock = .ok ∨ first.clock = .errUnstable := by
        simpa [opens] using opened
      have opening : holds 1 (startWindow table first begun).mode := by
        rcases startWindow_mode rows limit asks begun with answered | entered
        · rw [answered]
          exact voted
        · rw [entered]
          exact (modes.entered obcSafeClock ⟨rfl, voted⟩).2
      have stepped : execStep table (.turn first) begun = startWindow table first begun := by
        simp only [execStep, execTurn, phase]
      have alike : Alike (fun votes left right => left = right ∧ holds votes left) 1
          (execStep table (.turn first) begun) (execStep table (.turn first) begun) := by
        rw [stepped]
        exact ⟨_, ⟨rfl, opening⟩, rfl⟩
      obtain ⟨mode, ⟨_, held⟩, same⟩ := ((alike.idle modes first.votes).turns modes table rest)
      rw [List.map_cons, run, same]
      exact held

theorem unopened_mode (rows : 0 < table.length) (limit : table.length ≤ obcMaxTasks)
    {turns : List Turn} (closed : opens turns = false) {begun : ExecState}
    (phase : begun.phase = .start) :
    (run (execStep table) (turns.map .turn) begun).mode = begun.mode := by
  cases turns with
  | nil => rfl
  | cons first rest =>
      have size : ¬(table.length = 0 ∨ obcMaxTasks < table.length) := by omega
      obtain ⟨unsettled, stable⟩ : first.clock ≠ .ok ∧ first.clock ≠ .errUnstable := by
        simpa [opens] using closed
      have returned : execStep table (.turn first) begun =
          returnFrom first.clock (begun.record .armHardware) := by
        simp only [execStep, execTurn, phase]
        rw [startWindow, if_neg size, if_pos unsettled, schedNow, if_neg stable]
      rw [List.map_cons, run, returned, run_returned table rest rfl]
      rfl

end Opened

/-- Every copy stands as written, and the voter's counts with it: what one repair leaves, or
none. -/
def Repaired (repairs : U32) (_ : Nat) (mode : ModeState) : Prop :=
  (∃ value, Written obcCriticalMode value mode.critical) ∧ mode.critical.repairs = repairs ∧
    mode.critical.failedVotes = 0

theorem repaired_together (repairs : U32) :
    ModesTogether fun votes left right => left = right ∧ Repaired repairs votes left where
  answer := by
    rintro votes left right ⟨rfl, _⟩
    rfl
  asked := by
    rintro votes left right ⟨rfl, ⟨value, written⟩, counted, quiet⟩
    refine ⟨rfl, ?_⟩
    rw [obcModeIsSafe_writtenBut (written.but 0), written.dissenters_nil]
    exact ⟨⟨value, written_withCopies obcCriticalMode value left.critical⟩, by simp [counted], quiet⟩
  entered := by
    rintro votes left right reason ⟨rfl, written, counts⟩
    refine ⟨rfl, ?_⟩
    by_cases fresh : left.announced = 0
    · rw [obcModeEnterSafe_eq fresh]
      exact ⟨⟨obcModeSafe, written_withCopies obcCriticalMode obcModeSafe left.critical⟩, counts⟩
    · rw [obcModeEnterSafe_announced fresh]
      exact ⟨written, counts⟩
  printed := by
    rintro votes left right text ⟨rfl, repaired⟩
    exact ⟨rfl, repaired⟩
  idle := id

theorem spared_counters (table : List ObcTask) (window : BootedWindow) :
    (window.spared table).mode.critical.repairs = 0 ∧
      (window.spared table).mode.critical.failedVotes = 0 := by
  obtain ⟨written, repairs, failed, _⟩ := executiveState_undisputed window.boot window.found
  have fresh : Alike (fun votes left right => left = right ∧ Repaired 0 votes left) 0
      window.begun window.begun := ⟨window.begun.mode, ⟨rfl, written, repairs, failed⟩, rfl⟩
  obtain ⟨mode, ⟨_, _, counted, quiet⟩, same⟩ :=
    fresh.turns (repaired_together 0) table window.turns
  rw [BootedWindow.spared, same]
  exact ⟨counted, quiet⟩

def Deadlocked (critical : CriticalState) : Prop :=
  ∀ first second value, copyAt critical obcCriticalMode first = writtenCopy obcCriticalMode value first →
    copyAt critical obcCriticalMode second = writtenCopy obcCriticalMode value second → first = second

/-- After the opening vote of a double injection: safe mode is held, by the votes that keep
failing or by the copies that the ladder wrote anew. -/
def HeldSafe (votes : Nat) (mode : ModeState) : Prop :=
  (Deadlocked mode.critical ∨ Written obcCriticalMode obcModeSafe mode.critical) ∧
    mode.mode = obcModeSafe ∧ mode.critical.repairs = 0 ∧
    (votes < 2 ^ 32 → 1 ≤ mode.critical.failedVotes.toNat ∧
      mode.critical.failedVotes.toNat ≤ votes)

theorem obcModeIsSafe_deadlocked {mode : ModeState} (deadlocked : Deadlocked mode.critical) :
    ∃ critical, obcModeIsSafe mode = (true, { mode with critical := critical, mode := obcModeSafe }) ∧
      critical.copies = mode.critical.copies ∧ critical.repairs = mode.critical.repairs ∧
      critical.failedVotes = mode.critical.failedVotes + 1 := by
  cases found : (List.finRange 3).find? fun index =>
      copyIsIntact mode.critical obcCriticalMode index &&
        decide (2 ≤ agreeing mode.critical obcCriticalMode index) with
  | some first =>
      have majority := List.find?_some found
      simp only [Bool.and_eq_true, decide_eq_true_eq, two_le_agreeing_iff] at majority
      obtain ⟨intact, second, different, secondIntact, agree⟩ := majority
      exact absurd (deadlocked second first _
        ((intact_with_value_iff mode.critical obcCriticalMode second _).mp ⟨secondIntact, agree⟩)
        ((intact_with_value_iff mode.critical obcCriticalMode first _).mp ⟨intact, rfl⟩)) different
  | none =>
      simp only [obcModeIsSafe, obcCriticalGet, vote, found]
      exact ⟨_, rfl, by split <;> rfl, by split <;> rfl, by split <;> rfl⟩

theorem heldSafe_together :
    ModesTogether fun votes left right => left = right ∧ HeldSafe votes left where
  answer := by
    rintro votes left right ⟨rfl, _⟩
    rfl
  asked := by
    rintro votes left right ⟨rfl, deadlocked | written, safe, repairs, failed⟩
    · obtain ⟨critical, asked, copies, kept, counted⟩ := obcModeIsSafe_deadlocked deadlocked
      rw [asked]
      refine ⟨rfl, .inl ?_, rfl, kept.trans repairs, fun few => ?_⟩
      · simp only [Deadlocked, copyAt, copies]
        exact deadlocked
      · obtain ⟨least, most⟩ := failed (by omega)
        simp only [counted]
        bv_omega
    · rw [obcModeIsSafe_writtenBut (written.but 0), written.dissenters_nil]
      refine ⟨rfl, .inr (written_withCopies obcCriticalMode obcModeSafe left.critical), rfl,
        by simp [repairs], fun few => ?_⟩
      obtain ⟨least, most⟩ := failed (by omega)
      exact ⟨least, most.trans (Nat.le_succ votes)⟩
  entered := by
    rintro votes left right reason ⟨rfl, held, safe, repairs, failed⟩
    refine ⟨rfl, ?_⟩
    by_cases fresh : left.announced = 0
    · rw [obcModeEnterSafe_eq fresh]
      exact ⟨.inr (written_withCopies obcCriticalMode obcModeSafe left.critical), rfl, repairs, failed⟩
    · rw [obcModeEnterSafe_announced fresh]
      exact ⟨held, safe, repairs, failed⟩
  printed := by
    rintro votes left right text ⟨rfl, held⟩
    exact ⟨rfl, held⟩
  idle := by
    rintro votes left right ⟨rfl, held, safe, repairs, failed⟩
    refine ⟨rfl, held, safe, repairs, fun few => ?_⟩
    obtain ⟨least, most⟩ := failed (by omega)
    exact ⟨least, most.trans (Nat.le_succ votes)⟩

theorem injectCopies_one {injection : Injection} (single : injection.copies = 1)
    (critical : CriticalState) :
    injectCopies injection critical = flipValue injection.bit injection.first critical := by
  simp [injectCopies, single, copyFrom_zero]

theorem injectCopies_two {injection : Injection} (double : injection.copies = 2)
    (critical : CriticalState) :
    injectCopies injection critical = flipValue injection.bit (injection.first + 1)
      (flipValue injection.bit injection.first critical) := by
  simp [injectCopies, double, List.range_succ, copyFrom_zero, copyFrom_one]

theorem copyAt_flipValue_unwritten {critical : CriticalState} {value : U32}
    (bit : Fin 32) {index : Fin 3}
    (written : copyAt critical obcCriticalMode index = writtenCopy obcCriticalMode value index)
    (other : U32) :
    copyAt (flipValue bit index critical) obcCriticalMode index ≠
      writtenCopy obcCriticalMode other index := by
  rw [flipValue, copyAt_storeCopy, if_pos rfl, written]
  exact flipCopyBit_unwritten (.value bit) obcCriticalMode value other index

theorem copyAt_flipValue_apart (critical : CriticalState) (bit : Fin 32) {index other : Fin 3}
    (apart : other ≠ index) :
    copyAt (flipValue bit index critical) obcCriticalMode other =
      copyAt critical obcCriticalMode other := by
  rw [flipValue, copyAt_storeCopy, if_neg apart]

theorem injectCopies_deadlocked {injection : Injection} (double : injection.copies = 2)
    {critical : CriticalState} {value : U32} (written : Written obcCriticalMode value critical) :
    Deadlocked (injectCopies injection critical) := by
  have next : injection.first + 1 ≠ injection.first := by
    have shifted : ∀ first : Fin 3, first + 1 ≠ first := by decide
    exact shifted injection.first
  have pair : ∀ first left right : Fin 3, left ≠ right →
      left = first ∨ left = first + 1 ∨ right = first ∨ right = first + 1 := by decide
  have spoilt (index : Fin 3) (hit : index = injection.first ∨ index = injection.first + 1)
      (other : U32) : copyAt (injectCopies injection critical) obcCriticalMode index ≠
        writtenCopy obcCriticalMode other index := by
    rw [injectCopies_two double]
    rcases hit with rfl | rfl
    · rw [copyAt_flipValue_apart _ _ next.symm]
      exact copyAt_flipValue_unwritten injection.bit (written injection.first) other
    · have second := written (injection.first + 1)
      rw [← copyAt_flipValue_apart critical injection.bit next] at second
      exact copyAt_flipValue_unwritten injection.bit second other
  intro left right other leftWritten rightWritten
  by_contra apart
  rcases pair injection.first left right apart with hit | hit | hit | hit
  · exact spoilt left (.inl hit) other leftWritten
  · exact spoilt left (.inr hit) other leftWritten
  · exact spoilt right (.inl hit) other rightWritten
  · exact spoilt right (.inr hit) other rightWritten

theorem injectCopies_counters (injection : Injection) (critical : CriticalState) :
    (injectCopies injection critical).repairs = critical.repairs ∧
      (injectCopies injection critical).failedVotes = critical.failedVotes := by
  rcases injection.planned with single | double
  · rw [injectCopies_one single]
    exact ⟨rfl, rfl⟩
  · rw [injectCopies_two double]
    exact ⟨rfl, rfl⟩

/-- What one injection leaves of the window, in every figure but the voter's own, is what
the window does without it. -/
theorem single_masked (table : List ObcTask) {trial : Trial}
    (single : trial.injection.copies = 1) :
    (trial.struck table).mode.critical.failedVotes = 0 ∧
      (trial.struck table).mode.mode = (trial.window.spared table).mode.mode := by
  have undisputed := executiveState_undisputed trial.window.boot trial.window.found
  have fresh : Alike (fun _ => OneDisputed) 0 trial.window.begun trial.window.begun :=
    ⟨trial.window.begun.mode, undisputed.oneDisputed, rfl⟩
  have alike : Alike (fun _ => OneDisputed) 0 (injected trial.injection trial.window.begun)
      trial.window.begun := by
    rw [injected, injectCopies_one single]
    obtain ⟨⟨value, written⟩, _⟩ := undisputed
    exact fresh.corrupted table ⟨value, written.but trial.injection.first⟩
  obtain ⟨mode, ⟨_, _, _, _, quiet, settled⟩, same⟩ :=
    alike.turns oneDisputed_together table trial.window.turns
  rw [Trial.struck, BootedWindow.spared, same, settled]
  exact ⟨quiet.1, rfl⟩

section Verdicts

variable {table : List ObcTask} (rows : 0 < table.length) (limit : table.length ≤ obcMaxTasks)
  (trial : Trial)

include rows limit

theorem unopened_counters (closed : opens trial.window.turns = false) :
    (trial.struck table).mode.critical.repairs = 0 ∧
      (trial.struck table).mode.critical.failedVotes = 0 := by
  obtain ⟨_, repairs, failed, _⟩ := executiveState_undisputed trial.window.boot trial.window.found
  have counters := injectCopies_counters trial.injection trial.window.begun.mode.critical
  rw [Trial.struck, unopened_mode rows limit closed rfl]
  exact ⟨counters.1.trans repairs, counters.2.trans failed⟩

theorem single_repaired (opened : opens trial.window.turns = true)
    (single : trial.injection.copies = 1) :
    (trial.struck table).mode.critical.repairs = 1 := by
  obtain ⟨⟨value, written⟩, repairs, failed, _⟩ :=
    executiveState_undisputed trial.window.boot trial.window.found
  let struck := (injected trial.injection trial.window.begun).mode
  have flipped : struck.critical =
      flipValue trial.injection.bit trial.injection.first trial.window.begun.mode.critical :=
    injectCopies_one single trial.window.begun.mode.critical
  have but : WrittenBut obcCriticalMode value trial.injection.first struck.critical := by
    rw [flipped]
    exact (written.but trial.injection.first).storeCopy _
  have spoilt : copyAt struck.critical obcCriticalMode trial.injection.first ≠
      writtenCopy obcCriticalMode value trial.injection.first := by
    rw [flipped]
    exact copyAt_flipValue_unwritten trial.injection.bit (written trial.injection.first) value
  have voted : Repaired 1 1 (obcModeIsSafe struck).2 := by
    rw [obcModeIsSafe_writtenBut but, but.dissenters_length, if_neg spoilt]
    have counters := injectCopies_counters trial.injection trial.window.begun.mode.critical
    have before : struck.critical.repairs = 0 := counters.1.trans repairs
    exact ⟨⟨value, written_withCopies obcCriticalMode value struck.critical⟩, by simp [before],
      counters.2.trans failed⟩
  exact (opened_holds (repaired_together 1) rows limit opened rfl voted).2.1

theorem double_counters (opened : opens trial.window.turns = true)
    (few : votesWithin trial.window.turns < 2 ^ 32) (double : trial.injection.copies = 2) :
    (trial.struck table).mode.critical.repairs = 0 ∧
      1 ≤ (trial.struck table).mode.critical.failedVotes.toNat ∧
      (trial.struck table).mode.mode = obcModeSafe := by
  obtain ⟨⟨value, written⟩, repairs, failed, _⟩ :=
    executiveState_undisputed trial.window.boot trial.window.found
  have counters := injectCopies_counters trial.injection trial.window.begun.mode.critical
  have deadlocked := injectCopies_deadlocked double written
  obtain ⟨critical, asked, copies, kept, counted⟩ :=
    @obcModeIsSafe_deadlocked (injected trial.injection trial.window.begun).mode deadlocked
  have voted : HeldSafe 1 (obcModeIsSafe (injected trial.injection trial.window.begun).mode).2 := by
    rw [asked]
    have fresh : (injected trial.injection trial.window.begun).mode.critical.failedVotes = 0 :=
      counters.2.trans failed
    refine ⟨.inl ?_, rfl, kept.trans (counters.1.trans repairs), fun _ => ?_⟩
    · simp only [Deadlocked, copyAt, copies]
      exact deadlocked
    · simp [counted, fresh]
  obtain ⟨_, safe, unrepaired, failing⟩ :=
    opened_holds heldSafe_together rows limit opened rfl voted
  exact ⟨unrepaired, (failing few).1, safe⟩

theorem read_unwitnessed (session : trial.session = .readBack)
    (missed : witnessed table trial = false) :
    (trial.read table).mode.critical.repairs = 0 ∧
      (trial.read table).mode.critical.failedVotes = 0 := by
  rw [Trial.read]
  by_cases reset : (trial.struck table).phase = .reset
  · rw [if_pos reset]
    exact spared_counters table trial.later
  · rw [if_neg reset]
    have closed : opens trial.window.turns = false := by
      simpa [witnessed, session, reset] using missed
    exact unopened_counters rows limit trial closed

omit rows limit in
theorem read_witnessed (held : witnessed table trial = true) :
    trial.session = .readBack ∧ opens trial.window.turns = true ∧
      trial.read table = trial.struck table := by
  simp only [witnessed, Bool.and_eq_true, beq_iff_eq, bne_iff_ne, ne_eq] at held
  obtain ⟨⟨session, opened⟩, running⟩ := held
  exact ⟨session, opened, if_neg running⟩

/-- One run passes exactly when the host reads the struck window back after its opening vote
and, if one copy was hit, the window would have stayed nominal without the injection. -/
theorem runOne_ok (few : votesWithin trial.window.turns < 2 ^ 32) :
    (runOne table trial).ok = promised table trial := by
  cases held : witnessed table trial with
  | true =>
      obtain ⟨session, opened, read⟩ := read_witnessed trial held
      simp only [runOne, session, read]
      rcases trial.injection.planned with single | double
      · obtain ⟨failed, mirror⟩ := single_masked table single
        have repairs := single_repaired rows limit trial opened single
        have nominal (mode : U32) : (mode.toNat == 0) = (mode == obcModeNominal) := by
          rw [Bool.eq_iff_iff, beq_iff_eq, beq_iff_eq, ← BitVec.toNat_inj]
          rfl
        simp [judge, promised, held, single, repairs, failed, mirror, nominal]
      · obtain ⟨repairs, failed, safe⟩ := double_counters rows limit trial opened few double
        simp [judge, promised, held, double, failed, safe, obcModeSafe]
  | false =>
      have broken : promised table trial = false := by simp [promised, held]
      rw [broken, runOne]
      cases session : trial.session with
      | silent => rfl
      | timedOut => rfl
      | unread => rfl
      | readBack =>
          obtain ⟨repairs, failed⟩ := read_unwitnessed rows limit trial session held
          simp only [repairs, failed, judge]
          split <;> simp

theorem runOne_repairs (few : votesWithin trial.window.turns < 2 ^ 32) :
    (runOne table trial).repairs =
      if witnessed table trial && trial.injection.copies == 1 then 1 else 0 := by
  have told (injection : Injection) (repairs failed mode : Nat) :
      (judge injection repairs failed mode).repairs = repairs := by
    rw [judge]
    split <;> rfl
  cases held : witnessed table trial with
  | true =>
      obtain ⟨session, opened, read⟩ := read_witnessed trial held
      simp only [runOne, session, read, told]
      rcases trial.injection.planned with single | double
      · rw [single_repaired rows limit trial opened single]
        simp [single]
      · rw [(double_counters rows limit trial opened few double).1]
        simp [double]
  | false =>
      rw [runOne]
      cases session : trial.session with
      | silent => rfl
      | timedOut => rfl
      | unread => rfl
      | readBack =>
          simp only [told, (read_unwitnessed rows limit trial session held).1]
          rfl

end Verdicts

theorem runOne_injection (table : List ObcTask) (trial : Trial) :
    (runOne table trial).injection = trial.injection := by
  rw [runOne]
  cases trial.session with
  | silent => rfl
  | timedOut => rfl
  | unread => rfl
  | readBack =>
      simp only [judge]
      split <;> rfl

/-- What the tally of a campaign says of its trials, over the tally it started from. -/
structure Tallies (table : List ObcTask) (before after : Tally) (trials : List Trial) : Prop where
  done : after.done = before.done + trials.length
  failures : after.failures.map Verdict.injection = before.failures.map Verdict.injection ++
    (trials.filter fun trial => !promised table trial).map Trial.injection
  byCopy : ∑ copy, after.byCopy copy = ∑ copy, before.byCopy copy + trials.length
  byDepth : after.byDepth 1 + after.byDepth 2 = before.byDepth 1 + before.byDepth 2 + trials.length
  repaired : after.repaired = before.repaired +
    trials.countP fun trial => witnessed table trial && trial.injection.copies == 1

theorem Tally.count_tallies {table : List ObcTask} (rows : 0 < table.length)
    (limit : table.length ≤ obcMaxTasks) (tally : Tally) {trial : Trial}
    (few : votesWithin trial.window.turns < 2 ^ 32) :
    Tallies table tally (tally.count (runOne table trial)) [trial] where
  done := rfl
  failures := by
    simp only [Tally.count, runOne_ok rows limit trial few]
    cases kept : promised table trial with
    | true => simp [kept]
    | false => simp [kept, runOne_injection]
  byCopy := by
    simp only [Tally.count, runOne_injection, List.length_singleton]
    rw [Finset.sum_update_of_mem (Finset.mem_univ _),
      Finset.sum_eq_add_sum_sdiff_singleton_of_mem (Finset.mem_univ trial.injection.first)]
    omega
  byDepth := by
    simp only [Tally.count, runOne_injection]
    rcases trial.injection.planned with single | double
    · simp [single]
      omega
    · simp [double]
      omega
  repaired := by
    simp only [Tally.count, runOne_repairs rows limit trial few]
    simp [List.countP_cons]

theorem foldl_tallies {table : List ObcTask} (rows : 0 < table.length)
    (limit : table.length ≤ obcMaxTasks) {trials : List Trial}
    (few : ∀ trial ∈ trials, votesWithin trial.window.turns < 2 ^ 32) (tally : Tally) :
    Tallies table tally (trials.foldl (fun tally trial => tally.count (runOne table trial)) tally)
      trials := by
  induction trials generalizing tally with
  | nil => exact ⟨rfl, by simp, rfl, rfl, rfl⟩
  | cons trial rest ih =>
      have first := tally.count_tallies rows limit (few trial List.mem_cons_self)
      have later := ih (fun other member => few other (List.mem_cons_of_mem _ member))
        (tally.count (runOne table trial))
      rw [List.foldl_cons]
      refine ⟨?_, ?_, ?_, ?_, ?_⟩
      · rw [later.done, first.done, List.length_singleton, List.length_cons]
        omega
      · rw [later.failures, first.failures, List.append_assoc, ← List.map_append,
          ← List.filter_append, List.singleton_append]
      · rw [later.byCopy, first.byCopy, List.length_singleton, List.length_cons]
        omega
      · rw [later.byDepth, first.byDepth, List.length_singleton, List.length_cons]
        omega
      · rw [later.repaired, first.repaired, Nat.add_assoc, ← List.countP_append,
          List.singleton_append]

/-- The report of a campaign. Every one-copy injection whose window was read back after its
opening vote was repaired once and no two-copy injection ever was; the runs listed as failures
are, in their order, those that read back no such window, whatever went wrong, and those of one
copy whose window would have degraded by itself; and the campaign passes exactly when there
are none. -/
theorem campaign_report {table : List ObcTask} (rows : 0 < table.length)
    (limit : table.length ≤ obcMaxTasks) {trials : List Trial}
    (few : ∀ trial ∈ trials, votesWithin trial.window.turns < 2 ^ 32) :
    (∀ trial ∈ trials, (runOne table trial).repairs =
      if witnessed table trial && trial.injection.copies == 1 then 1 else 0) ∧
      Tallies table emptyTally (campaign table trials) trials ∧
      (exitStatus (campaign table trials) = 0 ↔ ∀ trial ∈ trials, promised table trial = true) := by
  have tallies : Tallies table emptyTally (campaign table trials) trials :=
    foldl_tallies rows limit few emptyTally
  refine ⟨fun trial member => runOne_repairs rows limit trial (few trial member), tallies, ?_⟩
  have failures : (campaign table trials).failures.length =
      (trials.filter fun trial => !promised table trial).length := by
    simpa [emptyTally] using congrArg List.length tallies.failures
  have passes : exitStatus (campaign table trials) = 0 ↔
      (campaign table trials).failures.length = 0 := by
    rw [exitStatus, List.length_eq_zero_iff]
    cases (campaign table trials).failures <;> simp
  rw [passes, failures, List.length_eq_zero_iff, List.filter_eq_nil_iff]
  simp

/-- A window that has opened and dispatched, and one whose clock fails at once. -/
def openedWindow : BootedWindow :=
  { frames := 1, boot := uneventfulBoot, found := coldMode, record := coldBootRecord
    turns := [{ clock := .ok, now := 0, used := 0, votes := 0 },
      { clock := .ok, now := 0, used := 700, votes := 0 },
      { clock := .ok, now := 0, used := 4000, votes := 1 }] }

def clocklessWindow : BootedWindow :=
  { openedWindow with turns := [{ clock := .errUnstable, now := 0, used := 0, votes := 0 }] }

/-- One copy, and then two, of a machine that has just come up; the third run times out. -/
def someTrials (first second : Fin 3) (bit other : Fin 32) : List Trial :=
  [{ injection := { index := 0, copies := 1, first := first, bit := bit, planned := .inl rfl }
     session := .readBack, window := openedWindow, later := openedWindow },
   { injection := { index := 1, copies := 2, first := second, bit := other, planned := .inr rfl }
     session := .readBack, window := clocklessWindow, later := openedWindow },
   { injection := { index := 2, copies := 1, first := second, bit := bit, planned := .inl rfl }
     session := .timedOut, window := openedWindow, later := openedWindow }]

theorem campaign_report_two :
    (campaign obcTaskTable (someTrials 1 2 0 31)).repaired = 1 ∧
      exitStatus (campaign obcTaskTable ((someTrials 1 2 0 31).take 2)) = 0 ∧
      exitStatus (campaign obcTaskTable (someTrials 1 2 0 31)) ≠ 0 := by
  have few : ∀ trial ∈ someTrials 1 2 0 31, votesWithin trial.window.turns < 2 ^ 32 := by decide
  obtain ⟨_, tallies, passes⟩ :=
    @campaign_report obcTaskTable (by decide) (by decide) (someTrials 1 2 0 31) few
  have first := (@campaign_report obcTaskTable (by decide) (by decide)
    ((someTrials 1 2 0 31).take 2) fun trial member => few trial (List.mem_of_mem_take member)).2.2
  refine ⟨tallies.repaired.trans (by decide +kernel), first.mpr (by decide +kernel), fun zero => ?_⟩
  exact absurd (passes.mp zero) (by decide +kernel)

end ObcZero
