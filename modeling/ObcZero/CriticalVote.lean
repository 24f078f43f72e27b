import ObcZero.CriticalCore
import ObcZero.StepSystem

/-! The voter: what one vote does to the three copies, and what it can answer
after one copy, or several, have been corrupted. -/

namespace ObcZero

theorem finRange_three : List.finRange 3 = [0, 1, 2] := by decide

@[simp] theorem copyAt_storeCopy (state : CriticalState) (item : ObcCriticalItem)
    (index other : Fin 3) (copy : ObcCriticalCopy) :
    copyAt (storeCopy item index copy state) item other =
      if other = index then copy else copyAt state item other := by
  simp [copyAt, storeCopy, Function.update_apply]

theorem copyAt_storeCopy_elsewhere {item other : ObcCriticalItem}
    (apart : other.place ≠ item.place) (state : CriticalState) (index position : Fin 3)
    (copy : ObcCriticalCopy) :
    copyAt (storeCopy item index copy state) other position = copyAt state other position := by
  simp [copyAt, storeCopy, apart]

def withCopies (item : ObcCriticalItem) (copies : Fin 3 → ObcCriticalCopy)
    (state : CriticalState) : CriticalState :=
  { state with copies := Function.update state.copies item.place copies }

@[simp] theorem copyAt_withCopies (state : CriticalState) (item : ObcCriticalItem)
    (copies : Fin 3 → ObcCriticalCopy) (index : Fin 3) :
    copyAt (withCopies item copies state) item index = copies index := by
  simp [copyAt, withCopies]

theorem copyAt_withCopies_elsewhere {item other : ObcCriticalItem}
    (apart : other.place ≠ item.place) (state : CriticalState)
    (copies : Fin 3 → ObcCriticalCopy) (index : Fin 3) :
    copyAt (withCopies item copies state) other index = copyAt state other index := by
  simp [copyAt, withCopies, apart]

theorem obcCriticalSet_eq (item : ObcCriticalItem) (value : U32) (state : CriticalState) :
    obcCriticalSet (some item) value state = withCopies item (writtenCopy item value) state := by
  simp only [obcCriticalSet, finRange_three, List.foldl_cons, List.foldl_nil, writeCopy,
    storeCopy, withCopies, Function.update_idem, Function.update_self]
  congr 2
  funext index
  fin_cases index <;> simp

theorem copyIsIntact_iff (state : CriticalState) (item : ObcCriticalItem) (index : Fin 3) :
    copyIsIntact state item index = true ↔
      copyAt state item index = writtenCopy item (copyAt state item index).value index := by
  cases copyEq : copyAt state item index
  simp [copyIsIntact, writtenCopy, copyEq]

theorem intact_with_value_iff (state : CriticalState) (item : ObcCriticalItem) (index : Fin 3)
    (value : U32) :
    (copyIsIntact state item index = true ∧ (copyAt state item index).value = value) ↔
      copyAt state item index = writtenCopy item value index := by
  rw [copyIsIntact_iff]
  constructor
  · rintro ⟨intact, rfl⟩
    exact intact
  · intro written
    rw [written]
    exact ⟨rfl, rfl⟩

theorem two_le_agreeing_iff (state : CriticalState) (item : ObcCriticalItem) (index : Fin 3) :
    2 ≤ agreeing state item index ↔ ∃ other, other ≠ index ∧
      copyIsIntact state item other = true ∧
      (copyAt state item other).value = (copyAt state item index).value := by
  have counted (first second : Prop) [Decidable first] [Decidable second] :
      2 ≤ (if second then (if first then 2 else 1) + 1 else if first then 2 else 1) ↔
        first ∨ second := by
    by_cases first <;> by_cases second <;> simp [*]
  fin_cases index <;> simp [agreeing, finRange_three, Fin.exists_fin_succ, counted]

theorem repairCopy_eq (item : ObcCriticalItem) (winner : U32) (state : CriticalState)
    (index : Fin 3) :
    repairCopy item winner state index =
      if copyAt state item index = writtenCopy item winner index then state
      else { writeCopy item index winner state with repairs := state.repairs + 1 } := by
  have condition := intact_with_value_iff state item index winner
  simp only [repairCopy]
  by_cases same : copyAt state item index = writtenCopy item winner index
  · have kept := condition.mpr same
    rw [if_pos same, if_neg (by simp [kept.1, kept.2])]
  · have changed : ¬(copyIsIntact state item index = true ∧
        (copyAt state item index).value = winner) := fun kept => same (condition.mp kept)
    rw [if_neg same, if_pos]
    simpa [Bool.or_eq_true, imp_iff_not_or] using changed

def dissenters (state : CriticalState) (item : ObcCriticalItem) (winner : U32) : List (Fin 3) :=
  (List.finRange 3).filter fun index => copyAt state item index ≠ writtenCopy item winner index

theorem repairAll_eq (item : ObcCriticalItem) (winner : U32) (state : CriticalState) :
    (List.finRange 3).foldl (repairCopy item winner) state =
      { withCopies item (writtenCopy item winner) state with
        repairs := state.repairs + BitVec.ofNat 32 (dissenters state item winner).length } := by
  have general : ∀ (indices : List (Fin 3)) (current : CriticalState), indices.Nodup →
      indices.foldl (repairCopy item winner) current =
        { withCopies item (fun index => if index ∈ indices then writtenCopy item winner index
            else copyAt current item index) current with
          repairs := current.repairs + BitVec.ofNat 32
            (indices.filter fun index =>
              copyAt current item index ≠ writtenCopy item winner index).length } := by
    intro indices
    induction indices with
    | nil =>
        intro current _
        simp [withCopies, copyAt]
    | cons index rest ih =>
        intro current nodup
        obtain ⟨fresh, nodupRest⟩ := List.nodup_cons.mp nodup
        rw [List.foldl_cons, repairCopy_eq, ih _ nodupRest]
        by_cases same : copyAt current item index = writtenCopy item winner index
        · simp only [same, ↓reduceIte]
          refine CriticalState.ext (congrArg (Function.update current.copies item.place)
            (funext fun position => ?_)) (by simp [same]) rfl rfl rfl
          by_cases here : position = index
          · subst here
            simp [fresh, same]
          · simp [here]
        · simp only [same, ↓reduceIte]
          refine CriticalState.ext ?_ ?_ rfl rfl rfl
          · simp only [withCopies, writeCopy, storeCopy, Function.update_idem]
            refine congrArg (Function.update current.copies item.place)
              (funext fun position => ?_)
            by_cases here : position = index
            · subst here
              simp [fresh, copyAt]
            · simp [here, copyAt]
          · have later : (rest.filter fun position => copyAt (writeCopy item index winner current) item
                position ≠ writtenCopy item winner position) = rest.filter fun position =>
                  copyAt current item position ≠ writtenCopy item winner position := by
              refine List.filter_congr fun position member => ?_
              have apart : position ≠ index := fun equal => fresh (equal ▸ member)
              simp [writeCopy, apart]
            have grown (start : U32) (length : Nat) :
                start + 1 + BitVec.ofNat 32 length = start + BitVec.ofNat 32 (length + 1) := by
              bv_omega
            rw [List.filter_cons_of_pos (by simp [same]), List.length_cons, ← grown]
            exact congrArg (fun kept : List (Fin 3) =>
              current.repairs + 1 + BitVec.ofNat 32 kept.length) later
  rw [general _ state (List.nodup_finRange 3)]
  simp [dissenters]

/-- Everything a vote can do: two copies vouch for one value and the third is
brought to it, or no two do and no copy is touched. -/
theorem vote_cases (items : List ObcCriticalItem) (item : ObcCriticalItem)
    (state : CriticalState) :
    (∃ first second winner, first ≠ second ∧
      copyAt state item first = writtenCopy item winner first ∧
      copyAt state item second = writtenCopy item winner second ∧
      vote items item state = (.ok, some winner,
        { withCopies item (writtenCopy item winner) state with
          repairs := state.repairs + BitVec.ofNat 32 (dissenters state item winner).length
          wasResolving := Function.update state.wasResolving (itemIndex items item) true })) ∨
    ((∀ first second value, copyAt state item first = writtenCopy item value first →
        copyAt state item second = writtenCopy item value second → first = second) ∧
      ∃ after, vote items item state = (.errUnstable, none, after) ∧
        after.copies = state.copies ∧ after.repairs = state.repairs) := by
  cases found : (List.finRange 3).find? fun index =>
      copyIsIntact state item index && decide (2 ≤ agreeing state item index) with
  | some first =>
      left
      have majority := List.find?_some found
      simp only [Bool.and_eq_true, decide_eq_true_eq, two_le_agreeing_iff] at majority
      obtain ⟨intact, second, different, secondIntact, agree⟩ := majority
      refine ⟨first, second, (copyAt state item first).value, different.symm, ?_, ?_, ?_⟩
      · exact (intact_with_value_iff state item first _).mp ⟨intact, rfl⟩
      · exact (intact_with_value_iff state item second _).mp ⟨secondIntact, agree⟩
      · simp only [vote, found, repairAll_eq]
        rfl
  | none =>
      right
      constructor
      · intro first second value firstWritten secondWritten
        by_contra different
        obtain ⟨firstIntact, firstValue⟩ :=
          (intact_with_value_iff state item first value).mpr firstWritten
        obtain ⟨secondIntact, secondValue⟩ :=
          (intact_with_value_iff state item second value).mpr secondWritten
        have passed := List.find?_eq_none.mp found first (List.mem_finRange first)
        have two : 2 ≤ agreeing state item first :=
          (two_le_agreeing_iff state item first).mpr
            ⟨second, Ne.symm different, secondIntact, by rw [secondValue, firstValue]⟩
        simp [firstIntact, two] at passed
      · simp only [vote, found]
        exact ⟨_, rfl, by split <;> rfl, by split <;> rfl⟩

theorem writtenCopy_value_inj {item : ObcCriticalItem} {value other : U32} {index : Fin 3}
    (same : writtenCopy item value index = writtenCopy item other index) : value = other :=
  congrArg ObcCriticalCopy.value same

theorem vote_of_two_written (items : List ObcCriticalItem) {item : ObcCriticalItem}
    {state : CriticalState} {value : U32} {first second : Fin 3} (different : first ≠ second)
    (firstWritten : copyAt state item first = writtenCopy item value first)
    (secondWritten : copyAt state item second = writtenCopy item value second) :
    vote items item state = (.ok, some value,
      { withCopies item (writtenCopy item value) state with
        repairs := state.repairs + BitVec.ofNat 32 (dissenters state item value).length
        wasResolving := Function.update state.wasResolving (itemIndex items item) true }) := by
  rcases vote_cases items item state with
    ⟨left, right, winner, apart, leftWritten, rightWritten, voted⟩ | ⟨alone, _⟩
  · have shared : ∀ a b c d : Fin 3, a ≠ b → c ≠ d → a = c ∨ a = d ∨ b = c ∨ b = d := by decide
    have agreed : winner = value := by
      rcases shared left right first second apart different with same | same | same | same <;>
        subst same
      · exact writtenCopy_value_inj (leftWritten.symm.trans firstWritten)
      · exact writtenCopy_value_inj (leftWritten.symm.trans secondWritten)
      · exact writtenCopy_value_inj (rightWritten.symm.trans firstWritten)
      · exact writtenCopy_value_inj (rightWritten.symm.trans secondWritten)
    rw [voted, agreed]
  · exact absurd (alone first second value firstWritten secondWritten) different

def WrittenBut (item : ObcCriticalItem) (value : U32) (index : Fin 3) (state : CriticalState) :
    Prop :=
  ∀ other, other ≠ index → copyAt state item other = writtenCopy item value other

def Written (item : ObcCriticalItem) (value : U32) (state : CriticalState) : Prop :=
  ∀ index, copyAt state item index = writtenCopy item value index

theorem Written.but {item : ObcCriticalItem} {value : U32} {state : CriticalState}
    (written : Written item value state) (index : Fin 3) : WrittenBut item value index state :=
  fun other _ => written other

theorem written_withCopies (item : ObcCriticalItem) (value : U32) (state : CriticalState) :
    Written item value (withCopies item (writtenCopy item value) state) :=
  fun _ => copyAt_withCopies state item _ _

theorem WrittenBut.storeCopy {item : ObcCriticalItem} {value : U32} {index : Fin 3}
    {state : CriticalState} (written : WrittenBut item value index state)
    (copy : ObcCriticalCopy) : WrittenBut item value index (storeCopy item index copy state) := by
  intro other apart
  rw [copyAt_storeCopy, if_neg apart]
  exact written other apart

theorem WrittenBut.vote {item : ObcCriticalItem} {value : U32} {index : Fin 3}
    {state : CriticalState} (items : List ObcCriticalItem)
    (written : WrittenBut item value index state) :
    vote items item state = (.ok, some value,
      { withCopies item (writtenCopy item value) state with
        repairs := state.repairs + BitVec.ofNat 32 (dissenters state item value).length
        wasResolving := Function.update state.wasResolving (itemIndex items item) true }) := by
  have others : ∀ index : Fin 3, ∃ first second, first ≠ second ∧ first ≠ index ∧
      second ≠ index := by decide
  obtain ⟨first, second, different, firstApart, secondApart⟩ := others index
  exact vote_of_two_written items different (written first firstApart) (written second secondApart)

theorem WrittenBut.dissenters_length {item : ObcCriticalItem} {value : U32} {index : Fin 3}
    {state : CriticalState} (written : WrittenBut item value index state) :
    (dissenters state item value).length =
      if copyAt state item index = writtenCopy item value index then 0 else 1 := by
  have only : dissenters state item value = (List.finRange 3).filter fun position =>
      decide (position = index ∧ copyAt state item index ≠ writtenCopy item value index) := by
    refine List.filter_congr fun position _ => ?_
    by_cases here : position = index
    · simp [here]
    · simp [here, written position here]
  rw [only]
  by_cases same : copyAt state item index = writtenCopy item value index
  · simp [same]
  · have single : ∀ index : Fin 3,
        ((List.finRange 3).filter fun position => decide (position = index)).length = 1 := by
      decide
    simpa [same] using single index

theorem Written.dissenters_nil {item : ObcCriticalItem} {value : U32} {state : CriticalState}
    (written : Written item value state) : (dissenters state item value).length = 0 := by
  rw [(written.but 0).dissenters_length, if_pos (written 0)]

/-- A scrub over items that each have at most one damaged copy answers ok,
restores every one of them and touches nothing else. -/
theorem scrub_repairs (registry : List ObcCriticalItem) (values : Nat → U32) :
    ∀ (pending : List ObcCriticalItem) (status : ObcStatus) (state : CriticalState),
      (pending.map ObcCriticalItem.place).Nodup →
      (∀ item ∈ pending, ∃ index, WrittenBut item (values item.place) index state) →
      let after := pending.foldl (fun current item =>
        let (status, _, after) := vote registry item current.2
        (if status = .ok then current.1 else status, after)) (status, state)
      after.1 = status ∧
      (∀ item ∈ pending, Written item (values item.place) after.2) ∧
      (∀ item, item.place ∉ pending.map ObcCriticalItem.place →
        ∀ index, copyAt after.2 item index = copyAt state item index) ∧
      after.2.repairs = state.repairs + BitVec.ofNat 32
        (pending.map fun item => (dissenters state item (values item.place)).length).sum := by
  intro pending
  induction pending with
  | nil =>
      intro status state _ _
      simp
  | cons item rest ih =>
      intro status state distinct damaged
      simp only [List.map_cons, List.nodup_cons] at distinct
      obtain ⟨fresh, distinctRest⟩ := distinct
      obtain ⟨index, damagedHere⟩ := damaged item (by simp)
      have apart {other : ObcCriticalItem} (member : other ∈ rest) : other.place ≠ item.place :=
        fun same => fresh (same ▸ List.mem_map_of_mem member)
      simp only [List.foldl_cons, damagedHere.vote registry, ↓reduceIte]
      set next : CriticalState := { withCopies item (writtenCopy item (values item.place)) state with
        repairs := state.repairs + BitVec.ofNat 32 (dissenters state item (values item.place)).length
        wasResolving := Function.update state.wasResolving (itemIndex registry item) true }
      have elsewhere (other : ObcCriticalItem) (different : other.place ≠ item.place)
          (position : Fin 3) : copyAt next other position = copyAt state other position :=
        copyAt_withCopies_elsewhere different state _ position
      have damagedRest : ∀ other ∈ rest, ∃ index,
          WrittenBut other (values other.place) index next := by
        intro other member
        obtain ⟨position, written⟩ := damaged other (by simp [member])
        exact ⟨position, fun place away => by
          rw [elsewhere other (apart member)]
          exact written place away⟩
      obtain ⟨statusKept, restored, untouched, counted⟩ := ih status next distinctRest damagedRest
      refine ⟨statusKept, ?_, ?_, ?_⟩
      · intro other member
        rcases List.mem_cons.mp member with rfl | later
        · intro position
          rw [untouched other fresh]
          exact copyAt_withCopies state other _ position
        · exact restored other later
      · intro other outside position
        simp only [List.map_cons, List.mem_cons, not_or] at outside
        rw [untouched other outside.2, elsewhere other outside.1]
      · rw [counted]
        have sameDissent : (rest.map fun other =>
            (dissenters next other (values other.place)).length) =
            rest.map fun other => (dissenters state other (values other.place)).length := by
          refine List.map_congr_left fun other member => ?_
          simp only [dissenters, elsewhere other (apart member)]
        rw [sameDissent, List.map_cons, List.sum_cons]
        change state.repairs + _ + _ = _
        rw [BitVec.ofNat_add, BitVec.add_assoc]

theorem obcCriticalGet_of_writtenBut (items : List ObcCriticalItem) {item : ObcCriticalItem}
    {value : U32} {index : Fin 3} {state : CriticalState}
    (written : WrittenBut item value index state) (out : U32) :
    let got := obcCriticalGet items (some item) (some out) state
    got.1 = .ok ∧ got.2.1 = some value ∧ Written item value got.2.2 ∧
      got.2.2.repairs = state.repairs +
        BitVec.ofNat 32 (dissenters state item value).length := by
  rw [obcCriticalGet, written.vote items]
  exact ⟨rfl, rfl, fun position => copyAt_withCopies state item _ position, rfl⟩

end ObcZero
