import ObcZero.CriticalVote

/-! Runs in which one copy of an item is damaged between two votes on it. -/

namespace ObcZero

open StepSystem

inductive CriticalInput (count : Nat)
  | set (which : Fin count) (value : U32)
  | damage (which : Fin count) (index : Fin 3) (copy : ObcCriticalCopy)
  | get (which : Fin count) (out : U32)
  | scrub

/-- The memory, with what an observer of the run remembers: the value last set
for each item, and the copy of it hit since it was last voted on or set. -/
structure CriticalRun (count : Nat) where
  state : CriticalState
  last : Fin count → U32
  hit : Fin count → Option (Fin 3)

def criticalStep (items : List ObcCriticalItem) :
    CriticalInput items.length → CriticalRun items.length → CriticalRun items.length
  | .set which value, current =>
      { state := obcCriticalSet (some (items.get which)) value current.state
        last := Function.update current.last which value
        hit := Function.update current.hit which none }
  | .damage which index copy, current =>
      { current with
        state := storeCopy (items.get which) index copy current.state
        hit := Function.update current.hit which (some index) }
  | .get which out, current =>
      { current with
        state := (obcCriticalGet items (some (items.get which)) (some out) current.state).2.2
        hit := Function.update current.hit which none }
  | .scrub, current =>
      { current with
        state := (obcCriticalScrub items current.state).2
        hit := fun _ => none }

/-- At most one copy of an item is damaged between two votes on it. -/
def SingleDamage {count : Nat} : CriticalInput count → CriticalRun count → Prop
  | .damage which index _, current => current.hit which = none ∨ current.hit which = some index
  | _, _ => True

def FreshlySet (items : List ObcCriticalItem) (start : CriticalRun items.length) : Prop :=
  ∀ which, start.hit which = none ∧
    Written (items.get which) (start.last which) start.state

/-- What the record of one item says: unhit, it is as last set, and hit, only
the copy on record can differ. -/
def HitRecord (item : ObcCriticalItem) (value : U32) (hit : Option (Fin 3))
    (state : CriticalState) : Prop :=
  match hit with
  | none => Written item value state
  | some index => WrittenBut item value index state

def OutvotedDamage (items : List ObcCriticalItem) (current : CriticalRun items.length) : Prop :=
  ∀ which, HitRecord (items.get which) (current.last which) (current.hit which) current.state

theorem HitRecord.elsewhere {item : ObcCriticalItem} {value : U32} {hit : Option (Fin 3)}
    {state after : CriticalState} (record : HitRecord item value hit state)
    (same : ∀ position, copyAt after item position = copyAt state item position) :
    HitRecord item value hit after := by
  cases hit with
  | none => exact fun position => (same position).trans (record position)
  | some index => exact fun position away => (same position).trans (record position away)

theorem HitRecord.writtenBut {item : ObcCriticalItem} {value : U32} {hit : Option (Fin 3)}
    {state : CriticalState} (record : HitRecord item value hit state) :
    ∃ index, WrittenBut item value index state := by
  cases hit with
  | none => exact ⟨0, Written.but record 0⟩
  | some index => exact ⟨index, record⟩

theorem HitRecord.writtenButHit {item : ObcCriticalItem} {value : U32} {hit : Option (Fin 3)}
    {state : CriticalState} (record : HitRecord item value hit state) {index : Fin 3}
    (allowed : hit = none ∨ hit = some index) : WrittenBut item value index state := by
  rcases allowed with rfl | rfl
  · exact Written.but record index
  · exact record

theorem FreshlySet.outvoted {items : List ObcCriticalItem} {start : CriticalRun items.length}
    (fresh : FreshlySet items start) : OutvotedDamage items start := by
  intro which
  obtain ⟨unhit, written⟩ := fresh which
  rw [unhit]
  exact written

section DistinctPlaces

variable {items : List ObcCriticalItem} (distinct : (items.map ObcCriticalItem.place).Nodup)

include distinct

theorem places_injective :
    Function.Injective fun which : Fin items.length => (items.get which).place := by
  intro left right same
  have lengths : (items.map ObcCriticalItem.place).length = items.length := List.length_map ..
  have equal : left.cast lengths.symm = right.cast lengths.symm :=
    List.nodup_iff_injective_get.mp distinct (by simpa using same)
  exact Fin.ext (by simpa using congrArg Fin.val equal)

theorem OutvotedDamage.scrub {current : CriticalRun items.length}
    (outvoted : OutvotedDamage items current) :
    (obcCriticalScrub items current.state).1 = .ok ∧
      ∀ which, Written (items.get which) (current.last which)
        (obcCriticalScrub items current.state).2 := by
  let values := Function.extend (fun which : Fin items.length => (items.get which).place)
    current.last fun _ => 0
  have valueOf (which : Fin items.length) :
      values (items.get which).place = current.last which :=
    (places_injective distinct).extend_apply current.last _ which
  have damaged : ∀ item ∈ items, ∃ index,
      WrittenBut item (values item.place) index current.state := by
    intro item member
    obtain ⟨which, rfl⟩ := List.mem_iff_get.mp member
    rw [valueOf which]
    exact (outvoted which).writtenBut
  obtain ⟨answered, restored, _⟩ :=
    scrub_repairs items values items .ok current.state distinct damaged
  refine ⟨answered, fun which => ?_⟩
  have written := restored (items.get which) (List.get_mem ..)
  rwa [valueOf which] at written

theorem criticalStep_outvoted (input : CriticalInput items.length)
    (current : CriticalRun items.length) (allowed : SingleDamage input current)
    (outvoted : OutvotedDamage items current) :
    OutvotedDamage items (criticalStep items input current) := by
  -- An operation on one item leaves the words of every other item as they were.
  have frame {which other : Fin items.length} (different : other ≠ which) :
      (items.get other).place ≠ (items.get which).place :=
    fun same => different (places_injective distinct same)
  cases input with
  | set which value =>
      intro other
      by_cases same : other = which
      · subst same
        simp only [criticalStep, obcCriticalSet_eq, Function.update_self]
        exact written_withCopies (items.get other) value current.state
      · simp only [criticalStep, obcCriticalSet_eq, Function.update_of_ne same]
        exact (outvoted other).elsewhere
          (copyAt_withCopies_elsewhere (frame same) current.state _)
  | damage which index copy =>
      intro other
      by_cases same : other = which
      · subst same
        simp only [criticalStep, Function.update_self]
        exact ((outvoted other).writtenButHit allowed).storeCopy copy
      · simp only [criticalStep, Function.update_of_ne same]
        exact (outvoted other).elsewhere fun position =>
          copyAt_storeCopy_elsewhere (frame same) current.state index position copy
  | get which out =>
      obtain ⟨index, written⟩ := (outvoted which).writtenBut
      intro other
      by_cases same : other = which
      · subst same
        simp only [criticalStep, Function.update_self]
        exact (obcCriticalGet_of_writtenBut items written out).2.2.1
      · simp only [criticalStep, Function.update_of_ne same]
        refine (outvoted other).elsewhere fun position => ?_
        rw [obcCriticalGet, written.vote items]
        exact copyAt_withCopies_elsewhere (frame same) current.state _ position
  | scrub =>
      intro other
      exact (outvoted.scrub distinct).2 other

end DistinctPlaces

/-- What a vote owes an item whose copies were `written` before `copy` was
stored over one of them. -/
structure Outvoted (item : ObcCriticalItem) (index : Fin 3) (copy : ObcCriticalCopy)
    (written : CriticalState) (status : ObcStatus) (after : CriticalState) : Prop where
  answered : status = .ok
  restored : ∀ position, copyAt after item position = copyAt written item position
  counted : after.repairs =
    written.repairs + if copy = copyAt written item index then 0 else 1

theorem obcCriticalGet_outvotes (items : List ObcCriticalItem) (item : ObcCriticalItem)
    (value : U32) (index : Fin 3) (copy : ObcCriticalCopy) (out : U32) (state : CriticalState) :
    let written := obcCriticalSet (some item) value state
    let got := obcCriticalGet items (some item) (some out) (storeCopy item index copy written)
    Outvoted item index copy written got.1 got.2.2 ∧ got.2.1 = some value := by
  intro written got
  have before : Written item value written := by
    simp only [written, obcCriticalSet_eq]
    exact written_withCopies item value state
  have hit := (before.but index).storeCopy copy
  obtain ⟨answered, delivered, restored, counted⟩ :=
    obcCriticalGet_of_writtenBut items hit out
  refine ⟨⟨answered, fun position => (restored position).trans (before position).symm, ?_⟩,
    delivered⟩
  rw [hit.dissenters_length, copyAt_storeCopy, if_pos rfl] at counted
  rw [counted, before index]
  split <;> rfl

theorem values_by_place {items : List ObcCriticalItem}
    (distinct : (items.map ObcCriticalItem.place).Nodup) {holds : ObcCriticalItem → U32 → Prop}
    (each : ∀ item ∈ items, ∃ value, holds item value) :
    ∃ values : Nat → U32, ∀ item ∈ items, holds item (values item.place) := by
  induction items with
  | nil => exact ⟨fun _ => 0, by simp⟩
  | cons item rest ih =>
      obtain ⟨fresh, distinctRest⟩ := List.nodup_cons.mp distinct
      obtain ⟨values, held⟩ := ih distinctRest fun other member => each other (by simp [member])
      obtain ⟨value, here⟩ := each item (by simp)
      refine ⟨Function.update values item.place value, fun other member => ?_⟩
      rcases List.mem_cons.mp member with rfl | later
      · simpa using here
      · have apart : other.place ≠ item.place :=
          fun same => fresh (same ▸ List.mem_map_of_mem later)
        simpa [apart] using held other later

theorem obcCriticalScrub_outvotes {items : List ObcCriticalItem}
    (distinct : (items.map ObcCriticalItem.place).Nodup) {item : ObcCriticalItem}
    (registered : item ∈ items) (value : U32) (index : Fin 3) (copy : ObcCriticalCopy)
    {state : CriticalState} (others : ∀ other ∈ items, ∃ held, Written other held state) :
    let written := obcCriticalSet (some item) value state
    let scrubbed := obcCriticalScrub items (storeCopy item index copy written)
    Outvoted item index copy written scrubbed.1 scrubbed.2 := by
  intro written scrubbed
  have before : Written item value written := by
    simp only [written, obcCriticalSet_eq]
    exact written_withCopies item value state
  have apart {other : ObcCriticalItem} (member : other ∈ items) (different : other ≠ item) :
      other.place ≠ item.place :=
    fun same => different (List.inj_on_of_nodup_map distinct member registered same)
  have each (other : ObcCriticalItem) (member : other ∈ items) :
      ∃ held, Written other held written := by
    by_cases same : other = item
    · exact ⟨value, same ▸ before⟩
    · obtain ⟨held, intact⟩ := others other member
      refine ⟨held, fun position => ?_⟩
      simp only [written, obcCriticalSet_eq]
      rw [copyAt_withCopies_elsewhere (apart member same)]
      exact intact position
  obtain ⟨values, recorded⟩ := values_by_place distinct each
  have valueHere : values item.place = value :=
    writtenCopy_value_inj ((recorded item registered 0).symm.trans (before 0))
  have others {other : ObcCriticalItem} (member : other ∈ items) (different : other ≠ item) :
      Written other (values other.place) (storeCopy item index copy written) := by
    intro position
    rw [copyAt_storeCopy_elsewhere (apart member different)]
    exact recorded other member position
  have hit := (before.but index).storeCopy copy
  obtain ⟨answered, restored, _, counted⟩ :=
    scrub_repairs items values items .ok (storeCopy item index copy written) distinct
      fun other member => by
        by_cases same : other = item
        · exact ⟨index, by rw [same, valueHere]; exact hit⟩
        · exact ⟨0, (others member same).but 0⟩
  refine ⟨answered, fun position => ?_, ?_⟩
  · have back := restored item registered position
    rw [valueHere] at back
    exact back.trans (before position).symm
  · classical
    have total : (items.map fun other => (dissenters (storeCopy item index copy written) other
        (values other.place)).length).sum =
          (dissenters (storeCopy item index copy written) item value).length := by
      rw [List.sum_map_eq_nsmul_single item _ fun other different member =>
        (others member different).dissenters_nil,
        List.count_eq_one_of_mem distinct.of_map registered, one_nsmul, valueHere]
    rw [total, hit.dissenters_length, copyAt_storeCopy, if_pos rfl] at counted
    rw [before index]
    refine counted.trans ?_
    split <;> rfl

/-- Damage confined to one copy is voted away whole, so a run that damages at
most one copy of an item between votes always reads what was last set. -/
theorem singleDamage_outvoted {items : List ObcCriticalItem}
    (distinct : (items.map ObcCriticalItem.place).Nodup) :
    (∀ item value index copy out state,
      let written := obcCriticalSet (some item) value state
      let got := obcCriticalGet items (some item) (some out) (storeCopy item index copy written)
      Outvoted item index copy written got.1 got.2.2 ∧ got.2.1 = some value) ∧
    (∀ item ∈ items, ∀ value index copy state,
      (∀ other ∈ items, ∃ held, Written other held state) →
      let written := obcCriticalSet (some item) value state
      let scrubbed := obcCriticalScrub items (storeCopy item index copy written)
      Outvoted item index copy written scrubbed.1 scrubbed.2) ∧
    (∀ start inputs, FreshlySet items start → Meets (criticalStep items) SingleDamage inputs start →
      let final := run (criticalStep items) inputs start
      (∀ which out,
        let got := obcCriticalGet items (some (items.get which)) (some out) final.state
        got.1 = .ok ∧ got.2.1 = some (final.last which)) ∧
      (obcCriticalScrub items final.state).1 = .ok) := by
  refine ⟨obcCriticalGet_outvotes items, ?_, ?_⟩
  · intro item registered value index copy state others
    exact obcCriticalScrub_outvotes distinct registered value index copy others
  · intro start inputs fresh meets final
    have outvoted : OutvotedDamage items final :=
      meets_invariant (criticalStep_outvoted distinct) meets fresh.outvoted
    refine ⟨fun which out => ?_, (outvoted.scrub distinct).1⟩
    obtain ⟨index, written⟩ := (outvoted which).writtenBut
    have got := obcCriticalGet_of_writtenBut items written out
    exact ⟨got.1, got.2.1⟩

theorem flight_singleDamage_outvoted :
    let mode : Fin obcCriticalItems.length := ⟨0, by decide⟩
    let start : CriticalRun obcCriticalItems.length :=
      { state := obcCriticalSet (some obcCriticalMode) 7 clearedCritical
        last := fun _ => 7, hit := fun _ => none }
    let final := run (criticalStep obcCriticalItems)
      [.damage mode 1 { value := 9, checksum := 0 }, .scrub,
       .damage mode 0 (writtenCopy obcCriticalMode 8 0)] start
    (obcCriticalGet obcCriticalItems (some obcCriticalMode) (some 0) final.state).2.1 = some 7 ∧
      (obcCriticalScrub obcCriticalItems final.state).1 = .ok := by
  intro mode start final
  have fresh : FreshlySet obcCriticalItems start := by
    rintro ⟨which, bound⟩
    obtain rfl : which = 0 := Nat.lt_one_iff.mp bound
    exact ⟨rfl, fun position => by fin_cases position <;> rfl⟩
  have meets : Meets (criticalStep obcCriticalItems) SingleDamage
      [.damage mode 1 { value := 9, checksum := 0 }, .scrub,
       .damage mode 0 (writtenCopy obcCriticalMode 8 0)] start :=
    ⟨.inl rfl, trivial, .inl rfl, trivial⟩
  have distinct : (obcCriticalItems.map ObcCriticalItem.place).Nodup := by decide
  have votes := (singleDamage_outvoted distinct).2.2 start _ fresh meets
  exact ⟨(votes.1 mode 0).2, votes.2⟩

end ObcZero
