import ObcZero.CriticalVote
import ObcZero.ModeCore

/-! Several copies damaged at once: what the checksum and its three seeds tell
apart, and why the voter never answers with a value nobody set. -/

namespace ObcZero

theorem checksumOf_seed_inj {value seed other : U32}
    (same : checksumOf value seed = checksumOf value other) : seed = other := by
  simpa only [checksumOf, BitVec.add_left_inj, BitVec.xor_right_inj] using same

def flipBit (bit : Fin 32) (word : U32) : U32 := word ^^^ BitVec.twoPow 32 bit

theorem getLsbD_flipBit (bit : Fin 32) (word : U32) (position : Nat) :
    (flipBit bit word).getLsbD position =
      (word.getLsbD position ^^ decide (position = bit)) := by
  have inside := bit.isLt
  by_cases here : (bit : Nat) = position
  · subst here
    simp [flipBit, inside]
  · simp [flipBit, here, Ne.symm here]

theorem setWidth_eq_iff (width : Nat) (left right : U32) :
    left.setWidth width = right.setWidth width ↔
      ∀ position < width, left.getLsbD position = right.getLsbD position := by
  constructor
  · intro same position inside
    simpa only [BitVec.getLsbD_setWidth, inside, decide_true, Bool.true_and] using
      congrArg (fun word => BitVec.getLsbD word position) same
  · intro same
    apply BitVec.eq_of_getLsbD_eq
    intro position inside
    simp only [BitVec.getLsbD_setWidth, same position inside]

/-- Truncated to the bits below the one that only the xor, or only the right
shift, moved, the two checksums still differ. -/
theorem checksumOf_flipBit (value seed : U32) (bit : Fin 32) :
    checksumOf (flipBit bit value) seed ≠ checksumOf value seed := by
  intro same
  have shifted (width : Nat) (below : width ≤ bit + 7) :
      (flipBit bit value <<< 7).setWidth width = (value <<< 7).setWidth width := by
    rw [setWidth_eq_iff]
    intro position inside
    simp only [BitVec.getLsbD_shiftLeft, getLsbD_flipBit]
    by_cases early : position < 7
    · simp [early]
    · have apart : position - 7 ≠ bit := by omega
      simp [apart]
  by_cases low : bit.val < 3
  · have truncated := congrArg (BitVec.setWidth (bit + 1)) same
    have dropped : flipBit bit value >>> 3 = value >>> 3 := by
      apply BitVec.eq_of_getLsbD_eq
      intro position _
      have apart : 3 + position ≠ bit := by omega
      simp only [BitVec.getLsbD_ushiftRight, getLsbD_flipBit, apart, decide_false, Bool.xor_false]
    simp only [checksumOf, BitVec.setWidth_add _ _ (show (bit : Nat) + 1 ≤ 32 by omega),
      shifted (bit + 1) (by omega), dropped, BitVec.add_left_inj, setWidth_eq_iff] at truncated
    have flipped := truncated bit (by omega)
    simp only [BitVec.getLsbD_xor, getLsbD_flipBit] at flipped
    simp at flipped
  · have truncated := congrArg (BitVec.setWidth (bit - 2)) same
    have above : (flipBit bit value ^^^ seed).setWidth (bit - 2) =
        (value ^^^ seed).setWidth (bit - 2) := by
      rw [setWidth_eq_iff]
      intro position inside
      have apart : position ≠ bit := by omega
      simp only [BitVec.getLsbD_xor, getLsbD_flipBit, apart, decide_false, Bool.xor_false]
    simp only [checksumOf, BitVec.setWidth_add _ _ (show (bit : Nat) - 2 ≤ 32 by omega),
      shifted (bit - 2) (by omega), above, BitVec.add_right_inj, setWidth_eq_iff] at truncated
    have flipped := truncated (bit - 3) (by omega)
    have back : 3 + (bit.val - 3) = bit := by omega
    simp only [BitVec.getLsbD_ushiftRight, back, getLsbD_flipBit] at flipped
    simp at flipped

inductive CopyBit
  | value (bit : Fin 32)
  | checksum (bit : Fin 32)
  deriving DecidableEq, Repr

def flipCopyBit (flip : CopyBit) (copy : ObcCriticalCopy) : ObcCriticalCopy :=
  match flip with
  | .value bit => { copy with value := flipBit bit copy.value }
  | .checksum bit => { copy with checksum := flipBit bit copy.checksum }

def damageCopies (item : ObcCriticalItem) (hit : Finset (Fin 3))
    (change : Fin 3 → ObcCriticalCopy → ObcCriticalCopy) (state : CriticalState) :
    CriticalState :=
  withCopies item
    (fun index => if index ∈ hit then change index (copyAt state item index)
      else copyAt state item index) state

theorem flipBit_ne (bit : Fin 32) (word : U32) : flipBit bit word ≠ word := by
  intro same
  have flipped := congrArg (fun word => BitVec.getLsbD word bit) same
  simp only [getLsbD_flipBit] at flipped
  simp at flipped

theorem flipCopyBit_unwritten (flip : CopyBit) (item : ObcCriticalItem) (value other : U32)
    (index : Fin 3) :
    flipCopyBit flip (writtenCopy item value index) ≠ writtenCopy item other index := by
  intro same
  cases flip with
  | value bit =>
      have values : flipBit bit value = other := congrArg ObcCriticalCopy.value same
      have checksums : checksumOf value (item.seeds index) = checksumOf other (item.seeds index) :=
        congrArg ObcCriticalCopy.checksum same
      rw [← values] at checksums
      exact checksumOf_flipBit value (item.seeds index) bit checksums.symm
  | checksum bit =>
      have values : value = other := congrArg ObcCriticalCopy.value same
      have checksums : flipBit bit (checksumOf value (item.seeds index)) =
          checksumOf other (item.seeds index) := congrArg ObcCriticalCopy.checksum same
      rw [values] at checksums
      exact flipBit_ne bit _ checksums

theorem writtenCopy_position_inj {item : ObcCriticalItem} {value : U32} {first second : Fin 3}
    (same : writtenCopy item value first = writtenCopy item value second) : first = second :=
  item.seedsDiffer (checksumOf_seed_inj (congrArg ObcCriticalCopy.checksum same))

theorem copyAt_damageCopies (item : ObcCriticalItem) (value : U32) (hit : Finset (Fin 3))
    (change : Fin 3 → ObcCriticalCopy → ObcCriticalCopy) (state : CriticalState)
    (index : Fin 3) :
    copyAt (damageCopies item hit change (obcCriticalSet (some item) value state)) item index =
      if index ∈ hit then change index (writtenCopy item value index)
      else writtenCopy item value index := by
  rw [damageCopies, copyAt_withCopies, obcCriticalSet_eq, copyAt_withCopies]

theorem two_of_three {hit : Finset (Fin 3)} (several : 2 ≤ hit.card) {first second : Fin 3}
    (different : first ≠ second) : first ∈ hit ∨ second ∈ hit := by
  revert hit first second
  decide

/-- One pattern over several copies: either the value last set still has two
copies to its name, or no value has. -/
theorem obcCriticalGet_of_pattern (items : List ObcCriticalItem) (item : ObcCriticalItem)
    (value before : U32) (hit : Finset (Fin 3)) (pattern : ObcCriticalCopy)
    (state : CriticalState) :
    let got := obcCriticalGet items (some item) (some before)
      (damageCopies item hit (fun _ _ => pattern) (obcCriticalSet (some item) value state))
    (got.1 = .ok ∧ got.2.1 = some value) ∨ (got.1 = .errUnstable ∧ got.2.1 = some before) := by
  intro got
  have copies := copyAt_damageCopies item value hit (fun _ _ => pattern) state
  rcases vote_cases items item
      (damageCopies item hit (fun _ _ => pattern) (obcCriticalSet (some item) value state)) with
    ⟨first, second, winner, different, firstWritten, secondWritten, voted⟩ |
      ⟨_, after, voted, _⟩
  · left
    have won : winner = value := by
      rw [copies first] at firstWritten
      rw [copies second] at secondWritten
      by_cases firstHit : first ∈ hit
      · by_cases secondHit : second ∈ hit
        · rw [if_pos firstHit] at firstWritten
          rw [if_pos secondHit] at secondWritten
          exact absurd (writtenCopy_position_inj (firstWritten.symm.trans secondWritten)) different
        · rw [if_neg secondHit] at secondWritten
          exact (writtenCopy_value_inj secondWritten).symm
      · rw [if_neg firstHit] at firstWritten
        exact (writtenCopy_value_inj firstWritten).symm
    simp [got, obcCriticalGet, voted, won]
  · right
    simp [got, obcCriticalGet, voted]

theorem vote_of_flips (items : List ObcCriticalItem) (item : ObcCriticalItem) (value : U32)
    {hit : Finset (Fin 3)} (several : 2 ≤ hit.card) (flips : Fin 3 → CopyBit)
    (state : CriticalState) :
    ∃ after, vote items item (damageCopies item hit (fun index => flipCopyBit (flips index))
      (obcCriticalSet (some item) value state)) = (.errUnstable, none, after) := by
  have copies := copyAt_damageCopies item value hit (fun index => flipCopyBit (flips index)) state
  rcases vote_cases items item (damageCopies item hit (fun index => flipCopyBit (flips index))
      (obcCriticalSet (some item) value state)) with
    ⟨first, second, winner, different, firstWritten, secondWritten, _⟩ | ⟨_, after, voted, _⟩
  · rw [copies first] at firstWritten
    rw [copies second] at secondWritten
    rcases two_of_three several different with firstHit | secondHit
    · rw [if_pos firstHit] at firstWritten
      exact absurd firstWritten (flipCopyBit_unwritten (flips first) item value winner first)
    · rw [if_pos secondHit] at secondWritten
      exact absurd secondWritten (flipCopyBit_unwritten (flips second) item value winner second)
  · exact ⟨after, voted⟩

/-- Damage to several copies never makes the voter answer with another value,
and single flipped bits in several copies always leave it without an answer,
which the mode takes for safe. -/
theorem multiDamage_never_misleads (items : List ObcCriticalItem) (item : ObcCriticalItem)
    (value before : U32) (hit : Finset (Fin 3)) (several : 2 ≤ hit.card) (state : CriticalState) :
    (∀ pattern,
      let got := obcCriticalGet items (some item) (some before)
        (damageCopies item hit (fun _ _ => pattern) (obcCriticalSet (some item) value state))
      (got.1 = .ok ∧ got.2.1 = some value) ∨ (got.1 = .errUnstable ∧ got.2.1 = some before)) ∧
    (∀ flips : Fin 3 → CopyBit,
      let got := obcCriticalGet items (some item) (some before)
        (damageCopies item hit (fun index => flipCopyBit (flips index))
          (obcCriticalSet (some item) value state))
      got.1 = .errUnstable ∧ got.2.1 = some before) ∧
    (∀ (flips : Fin 3 → CopyBit) (mode : ModeState),
      let critical := damageCopies obcCriticalMode hit (fun index => flipCopyBit (flips index))
        (obcCriticalSet (some obcCriticalMode) value mode.critical)
      (obcModeIsSafe { mode with critical := critical }).1 = true) := by
  refine ⟨fun pattern => ?_, fun flips => ?_, fun flips mode => ?_⟩
  · exact obcCriticalGet_of_pattern items item value before hit pattern state
  · obtain ⟨after, voted⟩ := vote_of_flips items item value several flips state
    simp [obcCriticalGet, voted]
  · obtain ⟨after, voted⟩ :=
      vote_of_flips obcCriticalItems obcCriticalMode value several flips mode.critical
    simp only [obcModeIsSafe, obcCriticalGet, voted]

theorem flight_multiDamage_never_misleads :
    (obcModeIsSafe { coldMode with
      critical := damageCopies obcCriticalMode {0, 2}
        (fun index => flipCopyBit (if index = 0 then .value 31 else .checksum 5))
        (obcCriticalSet (some obcCriticalMode) obcModeNominal coldMode.critical) }).1 = true :=
  (multiDamage_never_misleads obcCriticalItems obcCriticalMode obcModeNominal 0 {0, 2} (by decide)
    clearedCritical).2.2 (fun index => if index = 0 then .value 31 else .checksum 5) coldMode

end ObcZero
