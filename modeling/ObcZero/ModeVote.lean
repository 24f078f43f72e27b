import ObcZero.ModeRestart

/-! Asking for the mode and entering safe mode, as the executive does: what an
answer says about the next one, and about the announcement. -/

namespace ObcZero

open StoreSequence

theorem obcModeIsSafe_again (mode : ModeState) :
    (obcModeIsSafe (obcModeIsSafe mode).2).1 = (obcModeIsSafe mode).1 := by
  rcases vote_cases obcCriticalItems obcCriticalMode mode.critical with
    ⟨_, _, winner, _, _, _, voted⟩ | ⟨alone, after, voted, copies, _⟩
  · have written : Written obcCriticalMode winner (obcModeIsSafe mode).2.critical := by
      simp only [obcModeIsSafe, obcCriticalGet, voted, Option.getD_some]
      exact fun index => copyAt_withCopies mode.critical obcCriticalMode _ index
    rw [obcModeIsSafe_written written]
    simp only [obcModeIsSafe, obcCriticalGet, voted, Option.getD_some]
  · rcases vote_cases obcCriticalItems obcCriticalMode after with
      ⟨first, second, value, different, firstWritten, secondWritten, _⟩ | ⟨_, last, again, _⟩
    · simp only [copyAt, copies] at firstWritten secondWritten
      exact absurd (alone first second value firstWritten secondWritten) different
    · simp only [obcModeIsSafe, obcCriticalGet, voted, again]

theorem obcModeIsSafe_announced (mode : ModeState) :
    (obcModeIsSafe mode).2.announced = mode.announced := by
  simp only [obcModeIsSafe]
  split <;> rfl

theorem obcModeEnterSafe_announced {mode : ModeState} (announced : mode.announced ≠ 0)
    (reason : U32) : obcModeEnterSafe reason mode = mode := by
  rw [obcModeEnterSafe, enterSafeStores, if_pos announced, perform_nil]

theorem obcModeEnterSafe_fresh {mode : ModeState} (fresh : mode.announced = 0) (reason : U32) :
    (obcModeIsSafe (obcModeEnterSafe reason mode)).1 = true := by
  have written : Written obcCriticalMode obcModeSafe (obcModeEnterSafe reason mode).critical := by
    rw [obcModeEnterSafe, enterSafeStores, if_neg (by simp [fresh]), perform_append,
      perform_append, perform_degradeStores, perform_recordStores]
    exact written_obcCriticalSet obcCriticalMode obcModeSafe mode.critical
  rw [obcModeIsSafe_written written]
  rfl

/-- What asking for the mode, however often, leaves as it was. -/
structure ModeKept (before after : ModeState) : Prop where
  answer : (obcModeIsSafe after).1 = (obcModeIsSafe before).1
  announced : after.announced = before.announced
  safeReason : after.safeReason = before.safeReason
  record : after.record = before.record

theorem ModeKept.refl (mode : ModeState) : ModeKept mode mode := ⟨rfl, rfl, rfl, rfl⟩

theorem ModeKept.trans {first second third : ModeState} (left : ModeKept first second)
    (right : ModeKept second third) : ModeKept first third :=
  ⟨right.answer.trans left.answer, right.announced.trans left.announced,
    right.safeReason.trans left.safeReason, right.record.trans left.record⟩

theorem modeKept_asked (mode : ModeState) : ModeKept mode (obcModeIsSafe mode).2 := by
  refine ⟨obcModeIsSafe_again mode, obcModeIsSafe_announced mode, ?_, ?_⟩
  · simp only [obcModeIsSafe]
    split <;> rfl
  · simp only [obcModeIsSafe]
    split <;> rfl

theorem modeKept_uartPuts (text : String) (mode : ModeState) :
    ModeKept mode (uartPuts text mode) := by
  refine ⟨?_, rfl, rfl, rfl⟩
  simp only [obcModeIsSafe, uartPuts]
  split <;> rfl

theorem obcModeEnterSafe_answer {mode : ModeState} (safe : (obcModeIsSafe mode).1 = true)
    (reason : U32) : (obcModeIsSafe (obcModeEnterSafe reason mode)).1 = true := by
  by_cases fresh : mode.announced = 0
  · exact obcModeEnterSafe_fresh fresh reason
  · rw [obcModeEnterSafe_announced fresh]
    exact safe

def AnnouncedIfSafe (mode : ModeState) : Prop :=
  (obcModeIsSafe mode).1 = false → mode.announced = 0

theorem announcedIfSafe_enterSafe {mode : ModeState} (told : AnnouncedIfSafe mode)
    (reason : U32) : AnnouncedIfSafe (obcModeEnterSafe reason mode) := by
  by_cases fresh : mode.announced = 0
  · intro nominal
    rw [obcModeEnterSafe_fresh fresh] at nominal
    cases nominal
  · rw [obcModeEnterSafe_announced fresh]
    exact told

theorem announcedIfSafe_entries (reasons : List U32) {mode : ModeState}
    (told : AnnouncedIfSafe mode) : AnnouncedIfSafe (perform (entriesStores reasons mode) mode) := by
  induction reasons generalizing mode with
  | nil => exact told
  | cons reason rest ih =>
      rw [entriesStores, perform_append]
      exact ih (announcedIfSafe_enterSafe told reason)

theorem announcedIfSafe_restore (cause : U32) (mode : ModeState) :
    AnnouncedIfSafe (obcModeRestore cause mode) := by
  have fresh : AnnouncedIfSafe (perform nominalStores mode) := fun _ => by
    rw [perform_nominalStores]
  rcases obcModeRestore_cases cause mode with trapped | ⟨_, kept⟩ | nominal
  · rw [trapped]
    exact announcedIfSafe_enterSafe fresh obcSafeTrap
  · rw [kept]
    exact announcedIfSafe_enterSafe fresh _
  · rw [nominal]
    exact fresh

theorem executiveState_announced (boot : Boot) (state : ModeState) :
    AnnouncedIfSafe (executiveState boot state) := by
  rw [executiveState, mainStores, perform_append]
  exact announcedIfSafe_entries boot.mainEntries
    (announcedIfSafe_restore boot.previousResetCause (startup state))

end ObcZero
