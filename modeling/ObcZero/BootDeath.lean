import ObcZero.BootStreak

/-! Where a boot may die once it has begun to rewrite the boot record, and what is left of
the streak for the boot that follows. -/

namespace ObcZero

open StoreSequence StepSystem

/-- A boot dies after some of the stores of `obc_recover_boot_begins`, or at some later
point of its life. -/
inductive BootDeath
  | beginning (stores : Nat)
  | later (life : BootLife)

def recordAtDeath : BootDeath → ObcBootRecord → ObcBootRecord
  | .beginning stores, record => interrupted (bootRecordWrite (bootCount record) 1) stores record
  | .later life, record => bootLife life record

def nextStreak (death : BootDeath) (record : ObcBootRecord) : U32 :=
  obcRecoverShortBoots (obcRecoverBootBegins (recordAtDeath death record)).2

def RoomForTwo (record : ObcBootRecord) : Prop :=
  record.shortBoots.toNat = 2 ^ 32 - 2 → record.inProgress = 0

def DiesWhole (record : ObcBootRecord) : BootDeath → Prop
  | .beginning stores => stores = 0 ∨ 5 ≤ stores ∧ RoomForTwo record
  | .later life => ¬DeclaredHealthy life record ∧ RoomForTwo record

instance (record : ObcBootRecord) : Decidable (RoomForTwo record) :=
  inferInstanceAs (Decidable (_ → _))

instance (record : ObcBootRecord) (death : BootDeath) : Decidable (DiesWhole record death) :=
  match death with
  | .beginning _ => inferInstanceAs (Decidable (_ ∨ _ ∧ _))
  | .later _ => inferInstanceAs (Decidable (¬_ ∧ _))

section Authentic

variable {record : ObcBootRecord} (authentic : bootRecordIsIntact record = true)
  (bound : record.shortBoots.toNat < 2 ^ 32 - 1)

include authentic bound

theorem shortBoots_le_bootCount : record.shortBoots ≤ bootCount record := by
  rw [bootCount, if_pos authentic]
  split
  · bv_omega
  · exact BitVec.le_refl _

theorem shortBoots_le_succ_iff :
    record.shortBoots ≤ bootCount record + 1 ↔ record.shortBoots = 0 ∨ RoomForTwo record := by
  rw [bootCount, if_pos authentic, RoomForTwo]
  by_cases raised : record.inProgress = 0
  · simp only [raised, ne_eq, not_true_eq_false, ↓reduceIte, implies_true, or_true, iff_true]
    bv_omega
  · simp only [raised, ne_eq, not_false_eq_true, ↓reduceIte, imp_false]
    bv_omega

/-- A boot that dies leaves the next one a streak at least as long, if and only if it dies
before the first store of its record or after the last one, or there was nothing to lose. -/
theorem dying_boot_keeps_streak (death : BootDeath) :
    record.shortBoots ≤ nextStreak death record ↔
      record.shortBoots = 0 ∨ DiesWhole record death := by
  rw [nextStreak, obcRecoverShortBoots_begun]
  have lost : record.shortBoots ≤ 0 ↔ record.shortBoots = 0 := by
    constructor
    · intro none
      bv_omega
    · intro none
      rw [none]
      exact BitVec.le_refl _
  cases death with
  | beginning stores =>
      simp only [recordAtDeath, DiesWhole]
      rcases Nat.eq_zero_or_pos stores with none | begun
      · subst none
        have kept := shortBoots_le_bootCount authentic bound
        simpa [interrupted] using kept
      rcases Nat.lt_or_ge stores 5 with short | enough
      · rw [bootCount_torn begun short, lost]
        have inside : ¬(stores = 0 ∨ 5 ≤ stores ∧ RoomForTwo record) := by omega
        simp only [inside, or_false]
      · rw [bootCount_complete enough, if_pos (by decide),
          shortBoots_le_succ_iff authentic bound]
        have past : stores ≠ 0 := by omega
        simp only [past, false_or, enough, true_and]
  | later life =>
      simp only [recordAtDeath, DiesWhole]
      by_cases healthy : DeclaredHealthy life record
      · rw [bootCount_declared healthy, lost]
        simp only [healthy, not_true_eq_false, false_and, or_false]
      · rw [bootLife_short healthy, bootCount_begun, shortBoots_le_succ_iff authentic bound]
        simp only [healthy, not_false_eq_true, true_and]

end Authentic

def thirdShortBoot : ObcBootRecord :=
  { magic := obcBootMagic, checksum := obcBootChecksumSeed ^^^ 3 ^^^ 0x9E3779B9, shortBoots := 3
    inProgress := 1 }

theorem flight_dying_boot_keeps_streak :
    thirdShortBoot.shortBoots ≤ nextStreak (.later loopingLife) thirdShortBoot :=
  (dying_boot_keeps_streak (by decide) (by decide) (.later loopingLife)).mpr (by decide +kernel)

/-- Of a streak of three, raised again by a fourth short boot, nothing is left by a boot
that dies between the first two stores of its record. -/
theorem torn_record_ends_streak :
    bootRecordIsIntact thirdShortBoot = true ∧ bootCount thirdShortBoot = 4 ∧
      nextStreak (.beginning 1) thirdShortBoot = 0 ∧
      ¬thirdShortBoot.shortBoots ≤ nextStreak (.beginning 1) thirdShortBoot := by
  decide +kernel

end ObcZero
