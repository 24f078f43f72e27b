import ObcZero.CriticalDamage
import ObcZero.EdgeTally

/-!
The voter's two counters over whole runs, against a tally kept outside it: how
many votes went unresolved, and for each item how often its vote went from
resolving to not.
-/

namespace ObcZero

open StepSystem EdgeTally

/-- The calls the voter's interface takes, null pointers included, and the
corruption of a copy in between. -/
inductive CriticalCall (count : Nat)
  | set (which : Option (Fin count)) (value : U32)
  | corrupt (which : Fin count) (index : Fin 3) (copy : ObcCriticalCopy)
  | get (which : Option (Fin count)) (out : Option U32)
  | scrub

structure TalliedVotes (count : Nat) where
  state : CriticalState
  tally : Tally (Fin count)

def takeVote (items : List ObcCriticalItem) (current : TalliedVotes items.length)
    (which : Fin items.length) : TalliedVotes items.length :=
  let (status, _, after) := vote items (items.get which) current.state
  { state := after, tally := current.tally.observe which (decide (status = .ok)) }

def criticalCall (items : List ObcCriticalItem) :
    CriticalCall items.length → TalliedVotes items.length → TalliedVotes items.length
  | .set which value, current =>
      { current with state := obcCriticalSet (which.map items.get) value current.state }
  | .corrupt which index copy, current =>
      { current with state := storeCopy (items.get which) index copy current.state }
  | .get which out, current =>
      let (status, _, after) := obcCriticalGet items (which.map items.get) out current.state
      { state := after
        tally := match which, out with
          | some which, some _ => current.tally.observe which (decide (status = .ok))
          | _, _ => current.tally }
  | .scrub, current =>
      { state := (obcCriticalScrub items current.state).2
        tally := ((List.finRange items.length).foldl (takeVote items) current).tally }

theorem criticalCall_scrub (items : List ObcCriticalItem) (current : TalliedVotes items.length) :
    criticalCall items .scrub current =
      (List.finRange items.length).foldl (takeVote items) current := by
  have walk (indices : List (Fin items.length)) (worst : ObcStatus)
      (voted : TalliedVotes items.length) :
      ((indices.map items.get).foldl (fun scrubbed item =>
        let (status, _, after) := vote items item scrubbed.2
        (if status = .ok then scrubbed.1 else status, after)) (worst, voted.state)).2 =
          (indices.foldl (takeVote items) voted).state := by
    induction indices generalizing worst voted with
    | nil => rfl
    | cons which rest ih => exact ih _ (takeVote items voted which)
  have scrubbed := walk (List.finRange items.length) .ok current
  rw [List.map_get_finRange] at scrubbed
  simp only [criticalCall, obcCriticalScrub, scrubbed]

/-- The counters of the voter are a bank of latches, one for every item the
compile-time maximum leaves room for, counted in 32 bits. -/
structure CountsAs (state : CriticalState) (bank : Bank (Fin obcCriticalMaxItems)) : Prop where
  latches : state.wasResolving = bank.latch
  failed : state.failedVotes = BitVec.ofNat 32 bank.failures
  events : state.unresolvableEvents = BitVec.ofNat 32 bank.events

theorem CountsAs.vote {state : CriticalState} {bank : Bank (Fin obcCriticalMaxItems)}
    (counts : CountsAs state bank) (items : List ObcCriticalItem) (item : ObcCriticalItem) :
    CountsAs (vote items item state).2.2
      (bank.observe (itemIndex items item) (decide ((ObcZero.vote items item state).1 = .ok))) := by
  obtain ⟨latches, failed, events⟩ := counts
  cases found : (List.finRange 3).find? fun index =>
      copyIsIntact state item index && decide (2 ≤ agreeing state item index) with
  | some index =>
      simp only [ObcZero.vote, found, repairAll_eq, decide_true, Bank.observe, ↓reduceIte]
      refine ⟨?_, failed, events⟩
      simp [withCopies, latches]
  | none =>
      simp only [ObcZero.vote, found, reduceCtorEq, decide_false, Bank.observe,
        Bool.false_eq_true, ↓reduceIte]
      rw [← latches]
      cases resolving : state.wasResolving (itemIndex items item) with
      | true =>
          constructor
          · simp
          · simp [failed, BitVec.ofNat_add]
          · simp [events, BitVec.ofNat_add]
      | false =>
          have unchanged : Function.update state.wasResolving (itemIndex items item) false =
              state.wasResolving := by
            rw [← resolving, Function.update_eq_self]
          constructor
          · simp [unchanged]
          · simp [failed, BitVec.ofNat_add]
          · simp [events]

theorem registered_at_iff {items : List ObcCriticalItem}
    (distinct : (items.map ObcCriticalItem.place).Nodup) (which : Fin items.length)
    (index : Nat) :
    ((items[index]?).any fun other => other.place == (items.get which).place) = true ↔
      index = which.val := by
  constructor
  · intro held
    obtain ⟨other, found, same⟩ := (Option.any_eq_true _ _).mp held
    obtain ⟨bound, rfl⟩ := List.getElem?_eq_some_iff.mp found
    have places : (items.get ⟨index, bound⟩).place = (items.get which).place := by
      simpa using same
    exact congrArg Fin.val (places_injective distinct places)
  · rintro rfl
    simp

theorem itemIndex_get {items : List ObcCriticalItem}
    (distinct : (items.map ObcCriticalItem.place).Nodup) (which : Fin items.length)
    (registered : which.val < obcCriticalMaxItems) :
    itemIndex items (items.get which) = ⟨which.val, registered⟩ := by
  unfold itemIndex
  set matching := fun index : Fin obcCriticalMaxItems =>
    (items[index.val]?).any fun other => other.place == (items.get which).place with matchingEq
  cases found : (List.finRange obcCriticalMaxItems).find? matching with
  | some index => exact Fin.ext ((registered_at_iff distinct which index).mp
      (@List.find?_some _ matching _ _ found))
  | none =>
      have missed := List.find?_eq_none.mp found ⟨which.val, registered⟩ (List.mem_finRange _)
      exact absurd ((registered_at_iff distinct which which.val).mpr rfl) missed

/-- The search ends before an item past the maximum, and falls back to the
first item's latch. -/
theorem itemIndex_past {items : List ObcCriticalItem}
    (distinct : (items.map ObcCriticalItem.place).Nodup) (which : Fin items.length)
    (past : obcCriticalMaxItems ≤ which.val) : itemIndex items (items.get which) = 0 := by
  have missed : (List.finRange obcCriticalMaxItems).find? (fun index =>
      (items[index.val]?).any fun other => other.place == (items.get which).place) = none := by
    refine List.find?_eq_none.mpr fun index _ held => ?_
    have equal := (registered_at_iff distinct which index.val).mp held
    have before := index.isLt
    omega
  simp only [itemIndex, missed, Option.getD_none]

theorem itemIndex_injective {items : List ObcCriticalItem}
    (distinct : (items.map ObcCriticalItem.place).Nodup)
    (fits : items.length ≤ obcCriticalMaxItems) :
    Function.Injective fun which : Fin items.length => itemIndex items (items.get which) := by
  intro left right same
  simp only [itemIndex_get distinct left (left.isLt.trans_le fits),
    itemIndex_get distinct right (right.isLt.trans_le fits)] at same
  exact Fin.ext (by simpa using same)

/-- No vote taken yet: the counters are zero and every item counts as
resolving, whatever the copies hold. -/
def Unvoted (state : CriticalState) : Prop :=
  state.failedVotes = 0 ∧ state.unresolvableEvents = 0 ∧ state.wasResolving = fun _ => true

/-- What a run keeps: the counters are those of some bank, which has seen every
unresolved vote, and which hears each item through a latch of its own as long as
the registry fits. -/
def BankKept (items : List ObcCriticalItem) (current : TalliedVotes items.length) : Prop :=
  ∃ bank, CountsAs current.state bank ∧ bank.failures = current.tally.failures ∧
    current.tally.total ≤ current.tally.failures ∧
    (items.length ≤ obcCriticalMaxItems →
      Agrees (fun which => itemIndex items (items.get which)) bank current.tally)

section Registry

variable {items : List ObcCriticalItem} (distinct : (items.map ObcCriticalItem.place).Nodup)

omit distinct in
theorem Unvoted.bankKept {start : CriticalState} (unvoted : Unvoted start) :
    BankKept items { state := start, tally := Tally.start } := by
  obtain ⟨failed, events, resolving⟩ := unvoted
  refine ⟨{ latch := fun _ => true, failures := 0, events := 0 }, ⟨resolving, failed, events⟩,
    rfl, ?_, fun _ => ⟨fun _ => rfl, ?_⟩⟩
  · simp [Tally.start_total]
  · simp [Tally.start_total]

omit distinct in
theorem BankKept.elsewhere {current : TalliedVotes items.length} (kept : BankKept items current)
    {after : CriticalState} (latches : after.wasResolving = current.state.wasResolving)
    (failed : after.failedVotes = current.state.failedVotes)
    (events : after.unresolvableEvents = current.state.unresolvableEvents) :
    BankKept items { current with state := after } := by
  obtain ⟨bank, counts, rest⟩ := kept
  exact ⟨bank, ⟨latches.trans counts.latches, failed.trans counts.failed,
    events.trans counts.events⟩, rest⟩

include distinct

theorem BankKept.takeVote {current : TalliedVotes items.length} (kept : BankKept items current)
    (which : Fin items.length) : BankKept items (takeVote items current which) := by
  obtain ⟨bank, counts, failures, bounded, agrees⟩ := kept
  let resolved := decide ((vote items (items.get which) current.state).1 = .ok)
  refine ⟨bank.observe (itemIndex items (items.get which)) resolved,
    counts.vote items (items.get which), ?_, ?_, fun fits => ?_⟩
  · exact (bank.observe_failures _ resolved).trans
      ((congrArg (· + _) failures).trans (current.tally.observe_failures which resolved).symm)
  · exact Tally.total_le_failures_observe bounded which resolved
  · exact (agrees fits).observe (itemIndex_injective distinct fits) which resolved

theorem BankKept.criticalCall (call : CriticalCall items.length)
    (current : TalliedVotes items.length) (kept : BankKept items current) :
    BankKept items (criticalCall items call current) := by
  cases call with
  | set which value =>
      cases which with
      | none => exact kept
      | some which =>
          refine kept.elsewhere ?_ ?_ ?_ <;>
            simp [Option.map_some, obcCriticalSet_eq, withCopies]
  | corrupt which index copy => exact kept.elsewhere rfl rfl rfl
  | get which out =>
      cases which with
      | none => exact kept
      | some which =>
          cases out with
          | none => exact kept
          | some out => exact kept.takeVote distinct which
  | scrub =>
      rw [criticalCall_scrub]
      generalize List.finRange items.length = indices
      induction indices generalizing current with
      | nil => exact kept
      | cons which rest ih => exact ih _ (kept.takeVote distinct which)

end Registry

def VotesCounted {count : Nat} (current : TalliedVotes count) : Prop :=
  current.state.failedVotes.toNat = current.tally.failures ∧
    current.state.unresolvableEvents.toNat = ∑ which, current.tally.edges which

instance {count : Nat} (current : TalliedVotes count) : Decidable (VotesCounted current) :=
  inferInstanceAs (Decidable (_ ∧ _))

theorem BankKept.failedVotes_iff {items : List ObcCriticalItem}
    {current : TalliedVotes items.length} (kept : BankKept items current) :
    current.state.failedVotes.toNat = current.tally.failures ↔
      current.tally.failures < 2 ^ 32 := by
  obtain ⟨bank, counts, failures, _⟩ := kept
  rw [counts.failed, failures]
  exact counter_exact_iff current.tally.failures

theorem BankKept.votesCounted_iff {items : List ObcCriticalItem}
    (fits : items.length ≤ obcCriticalMaxItems) {current : TalliedVotes items.length}
    (kept : BankKept items current) :
    VotesCounted current ↔ current.tally.failures < 2 ^ 32 := by
  refine ⟨fun counted => kept.failedVotes_iff.mp counted.1, fun small => ?_⟩
  refine ⟨kept.failedVotes_iff.mpr small, ?_⟩
  obtain ⟨bank, counts, _, bounded, agrees⟩ := kept
  rw [counts.events, (agrees fits).counted]
  exact (counter_exact_iff current.tally.total).mpr (bounded.trans_lt small)

def spoiltCopy (item : ObcCriticalItem) (index : Fin 3) : ObcCriticalCopy :=
  { value := 0, checksum := checksumOf 0 (item.seeds index) + 1 }

def Spoilt (item : ObcCriticalItem) (state : CriticalState) : Prop :=
  copyIsIntact state item 0 = false ∧ copyIsIntact state item 1 = false

def spoil (item : ObcCriticalItem) (state : CriticalState) : CriticalState :=
  storeCopy item 1 (spoiltCopy item 1) (storeCopy item 0 (spoiltCopy item 0) state)

theorem spoilt_spoil (item : ObcCriticalItem) (state : CriticalState) :
    Spoilt item (spoil item state) := by
  simp [Spoilt, spoil, copyIsIntact, spoiltCopy]

theorem Spoilt.elsewhere {item : ObcCriticalItem} {state after : CriticalState}
    (spoilt : Spoilt item state)
    (same : ∀ index, copyAt after item index = copyAt state item index) : Spoilt item after := by
  simpa only [Spoilt, copyIsIntact, same] using spoilt

theorem Spoilt.vote {item : ObcCriticalItem} {state : CriticalState} (spoilt : Spoilt item state)
    (items : List ObcCriticalItem) :
    (vote items item state).1 = .errUnstable ∧
      (ObcZero.vote items item state).2.2.copies = state.copies := by
  rcases vote_cases items item state with
    ⟨first, second, winner, different, firstWritten, secondWritten, _⟩ |
    ⟨_, after, voted, copies, _⟩
  · have intact {index : Fin 3} (written : copyAt state item index = writtenCopy item winner index) :
        copyIsIntact state item index = true :=
      ((intact_with_value_iff state item index winner).mpr written).1
    have involved : ∀ first second : Fin 3, first ≠ second →
        first = 0 ∨ first = 1 ∨ second = 0 ∨ second = 1 := by decide
    rcases involved first second different with rfl | rfl | rfl | rfl
    · exact absurd (intact firstWritten) (by simp [spoilt.1])
    · exact absurd (intact firstWritten) (by simp [spoilt.2])
    · exact absurd (intact secondWritten) (by simp [spoilt.1])
    · exact absurd (intact secondWritten) (by simp [spoilt.2])
  · rw [voted]
    exact ⟨rfl, copies⟩

def readSpoilt (items : List ObcCriticalItem) (first second : Fin items.length) :
    List (CriticalCall items.length) :=
  [.corrupt first 0 (spoiltCopy (items.get first) 0),
    .corrupt first 1 (spoiltCopy (items.get first) 1),
    .corrupt second 0 (spoiltCopy (items.get second) 0),
    .corrupt second 1 (spoiltCopy (items.get second) 1),
    .get (some first) (some 0), .get (some second) (some 0)]

theorem unvoted_cleared : Unvoted clearedCritical :=
  ⟨rfl, rfl, rfl⟩

theorem readSpoilt_masked {items : List ObcCriticalItem}
    (distinct : (items.map ObcCriticalItem.place).Nodup) {first second : Fin items.length}
    (different : first ≠ second)
    (shared : itemIndex items (items.get first) = itemIndex items (items.get second)) :
    let final := run (criticalCall items) (readSpoilt items first second)
      { state := clearedCritical, tally := Tally.start }
    final.tally.failures = 2 ∧ ¬VotesCounted final := by
  intro final
  set ruined := spoil (items.get second) (spoil (items.get first) clearedCritical) with ruinedEq
  have apart : (items.get first).place ≠ (items.get second).place :=
    fun same => different (places_injective distinct same)
  have secondSpoilt : Spoilt (items.get second) ruined := spoilt_spoil _ _
  have firstSpoilt : Spoilt (items.get first) ruined := by
    refine (spoilt_spoil (items.get first) clearedCritical).elsewhere fun index => ?_
    simp only [ruinedEq, spoil]
    rw [copyAt_storeCopy_elsewhere apart, copyAt_storeCopy_elsewhere apart]
  set between := (vote items (items.get first) ruined).2.2 with betweenEq
  obtain ⟨firstStatus, firstCopies⟩ := firstSpoilt.vote items
  have stillSpoilt : Spoilt (items.get second) between :=
    secondSpoilt.elsewhere fun index => by simp only [copyAt, betweenEq, firstCopies]
  obtain ⟨secondStatus, _⟩ := stillSpoilt.vote items
  -- The bank behind the counters hears both failures through the one latch.
  let bank : Bank (Fin obcCriticalMaxItems) :=
    { latch := fun _ => true, failures := 0, events := 0 }
  have agrees : Agrees (fun which => itemIndex items (items.get which)) bank Tally.start :=
    ⟨fun _ => rfl, (Tally.start_total).symm⟩
  have counts : CountsAs ruined bank := ⟨rfl, rfl, rfl⟩
  have afterFirst := counts.vote items (items.get first)
  rw [firstStatus, ← betweenEq] at afterFirst
  have afterSecond := afterFirst.vote items (items.get second)
  rw [secondStatus] at afterSecond
  have missed := agrees.masked different shared fun _ => rfl
  have finalEq : final =
      { state := (vote items (items.get second) between).2.2
        tally := (Tally.start.observe first false).observe second false } := by
    change takeVote items (takeVote items { state := ruined, tally := Tally.start } first) second = _
    simp only [takeVote, firstStatus, ← betweenEq, secondStatus, reduceCtorEq, decide_false]
  rw [finalEq]
  refine ⟨?_, fun counted => ?_⟩
  · simp [Tally.observe_failures, Tally.start]
  · have heard : ((bank.observe (itemIndex items (items.get first)) false).observe
        (itemIndex items (items.get second)) false).events = 1 := by
      rw [← shared]
      simp [Bank.observe, bank]
    have events := afterSecond.events
    simp only [reduceCtorEq, decide_false] at events
    rw [heard] at events missed
    have total := counted.2
    rw [events] at total
    exact absurd (total.trans missed) (by decide)

/-- The counters are exact, in every run and for as long as 32 bits can hold
them, for the registries no larger than the compile-time maximum and for no
others. The attempts are counted whatever the registry. -/
theorem votes_counted {items : List ObcCriticalItem}
    (distinct : (items.map ObcCriticalItem.place).Nodup) :
    (∀ start calls, Unvoted start →
      let final := run (criticalCall items) calls { state := start, tally := Tally.start }
      final.state.failedVotes.toNat = final.tally.failures ↔ final.tally.failures < 2 ^ 32) ∧
    (items.length ≤ obcCriticalMaxItems ↔ ∀ start calls, Unvoted start →
      let final := run (criticalCall items) calls { state := start, tally := Tally.start }
      VotesCounted final ↔ final.tally.failures < 2 ^ 32) := by
  have kept (start : CriticalState) (calls : List (CriticalCall items.length))
      (unvoted : Unvoted start) :
      BankKept items (run (criticalCall items) calls { state := start, tally := Tally.start }) :=
    run_invariant (BankKept.criticalCall distinct) calls unvoted.bankKept
  refine ⟨fun start calls unvoted => (kept start calls unvoted).failedVotes_iff,
    fun fits start calls unvoted => (kept start calls unvoted).votesCounted_iff fits, ?_⟩
  intro exact
  by_contra past
  have nonempty : 0 < items.length := by omega
  have more : obcCriticalMaxItems < items.length := Nat.lt_of_not_le past
  let first : Fin items.length := ⟨0, nonempty⟩
  let fifth : Fin items.length := ⟨obcCriticalMaxItems, more⟩
  have different : first ≠ fifth := fun same => by simpa [first, fifth] using congrArg Fin.val same
  have shared : itemIndex items (items.get first) = itemIndex items (items.get fifth) := by
    rw [itemIndex_get distinct first (Nat.zero_lt_succ 3), itemIndex_past distinct fifth (le_refl _)]
    rfl
  obtain ⟨two, uncounted⟩ := readSpoilt_masked distinct different shared
  refine uncounted ((exact clearedCritical _ unvoted_cleared).mpr ?_)
  rw [two]
  decide

theorem flight_votes_counted :
    let mode : Fin obcCriticalItems.length := ⟨0, by decide⟩
    let final := run (criticalCall obcCriticalItems)
      [.corrupt mode 0 { value := 9, checksum := 0 }, .corrupt mode 2 { value := 9, checksum := 0 },
        .get (some mode) (some 0), .scrub, .set (some mode) 3, .get (some mode) (some 0)]
      { state := clearedCritical, tally := Tally.start }
    final.tally.failures = 2 ∧ final.state.unresolvableEvents = 1 ∧ VotesCounted final := by
  intro mode final
  have distinct : (obcCriticalItems.map ObcCriticalItem.place).Nodup := by decide
  have failures : final.tally.failures = 2 := by decide +kernel
  refine ⟨failures, by decide +kernel, ?_⟩
  refine ((votes_counted distinct).2.mp (by decide) clearedCritical _ unvoted_cleared).mpr ?_
  exact lt_of_eq_of_lt failures (by decide)

def fiveItems : List ObcCriticalItem :=
  (List.range 5).map fun place => { obcCriticalMode with place := place }

/-- Five distinct items, the first and the last beyond repair and each read
once: two items stopped resolving and one event is counted. -/
theorem fifth_item_masked :
    (fiveItems.map ObcCriticalItem.place).Nodup ∧ Unvoted clearedCritical ∧
    let final := run (criticalCall fiveItems) (readSpoilt fiveItems ⟨0, by decide⟩ ⟨4, by decide⟩)
      { state := clearedCritical, tally := Tally.start }
    final.state.unresolvableEvents.toNat = 1 ∧ ∑ which, final.tally.edges which = 2 ∧
      ¬VotesCounted final := by
  refine ⟨by decide, unvoted_cleared, ?_⟩
  decide +kernel

end ObcZero
