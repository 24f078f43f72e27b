import ObcZero.SchedCore
import ObcZero.StepSystem

/-!
The writers of the boot record (`flight/core/recover.c`) and the part of a boot
that lies around the executive (`flight/core/main.c`).
-/

namespace ObcZero

open StoreSequence StepSystem

def obcHealthyFrames : U32 := 8

def bootRecordWrite (count inProgress : U32) : List (ObcBootRecord → ObcBootRecord) :=
  [fun record => { record with magic := 0 },
   fun record => { record with shortBoots := count },
   fun record => { record with inProgress := inProgress },
   fun record => { record with checksum := bootChecksum record },
   fun record => { record with magic := obcBootMagic }]

def bootCount (record : ObcBootRecord) : U32 :=
  if bootRecordIsIntact record then
    if record.inProgress ≠ 0 then record.shortBoots + 1 else record.shortBoots
  else 0

def obcRecoverBootBegins (record : ObcBootRecord) : U32 × ObcBootRecord :=
  let count := bootCount record
  (if obcShortBootLimit ≤ count then obcRungResetMachine else obcRungNone,
   perform (bootRecordWrite count 1) record)

def obcRecoverBootIsHealthy (framesCompleted : U32) : List (ObcBootRecord → ObcBootRecord) :=
  if framesCompleted < obcHealthyFrames then [] else bootRecordWrite 0 0

/-- A boot that has completed `obc_recover_boot_begins`: the mode's memory as it
finds it, the reset cause it reads, how the audit of the telemetry layout goes, the
executive's inputs (`none` if it dies before the executive or never runs it), and
how many stores of `obc_recover_boot_is_healthy` it gets to make. -/
structure BootLife where
  found : ModeState
  previousResetCause : U32
  layout : ObcStatus
  executive : Option (List ExecInput)
  healthyStores : Nat

/-- `obc_main` from `obc_mode_restore` to the call of the executive. -/
def beforeExecutive (life : BootLife) (record : ObcBootRecord) : ExecState :=
  let (rung, begun) := obcRecoverBootBegins record
  let restored := freshExec obcSchedWindowFrames
    (obcModeRestore life.previousResetCause (startup life.found)) begun
  let escalated :=
    if rung = obcRungResetMachine then
      obcRecoverEscalate (obcTaskTable.get ⟨0, by decide⟩) obcRungResetMachine 0 0 restored
    else restored
  if escalated.phase = .reset ∨ life.layout = .ok then escalated
  else { escalated with mode := obcModeEnterSafe obcSafeTelemetry escalated.mode }

def afterExecutive (life : BootLife) (record : ObcBootRecord) : ExecState :=
  run (execStep obcTaskTable) (life.executive.getD []) (beforeExecutive life record)

def Phase.hasReturned : Phase → Bool
  | .returned _ => true
  | _ => false

/-- The executive has returned after enough frames, and `obc_recover_boot_is_healthy`
has begun to say so in the record. -/
def DeclaredHealthy (life : BootLife) (record : ObcBootRecord) : Prop :=
  (afterExecutive life record).phase.hasReturned = true ∧
    obcHealthyFrames ≤ (afterExecutive life record).framesRun ∧ 0 < life.healthyStores

instance (life : BootLife) (record : ObcBootRecord) : Decidable (DeclaredHealthy life record) :=
  inferInstanceAs (Decidable (_ ∧ _ ∧ _))

/-- The boot record as a boot leaves it. A boot that never called the executive has
run no frame, and so writes nothing when it asks whether it was healthy. -/
def bootLife (life : BootLife) (record : ObcBootRecord) : ObcBootRecord :=
  let ended := afterExecutive life record
  if ended.phase.hasReturned then
    interrupted (obcRecoverBootIsHealthy ended.framesRun) life.healthyStores ended.boot
  else ended.boot

end ObcZero
