import OpenAgent.Server.UpdateGuard

namespace OpenAgent.Server.SelfUpdate

/-- Where `perform_self_update_sync` is: the download waits for the lock; with it, `apply_update` has the backup of a bare
binary, the staged copy, the removal of an old bundle and the two renames of a bundle, or the replacement of a bare
binary; without it, the swap waits to be recorded. -/
inductive SwapPhase where
  | verified
  | locked
  | saving
  | saved
  | staging
  | staged
  | clearing
  | cleared
  | movedAside
  | swapped
  | unrecorded
  deriving DecidableEq

/-- Where the rollback of `boot_guard` is: before and after the live binary is moved aside, and before its journal is
written. -/
inductive GuardPhase where
  | judging
  | movedAside
  | judged (ok : Bool)
  deriving DecidableEq

inductive Stage where
  | down
  | booting (current : Version)
  | starting (current : Version)
  | running (current : Version)
  | updating (current new : Version) (phase : SwapPhase)
  | guarding (current : Version) (journal : Journal) (phase : GuardPhase)
  deriving DecidableEq

/-- The disk, who has the lock, the processes, and the version that was last confirmed. -/
structure Host where
  bundle : Bool
  disk : Disk
  lock : Option Nat := none
  stages : Nat → Stage := fun _ => .down
  confirmed : Version

/-- `act` is the next operation of a service, which succeeds or fails; `healthy` is where it reaches the serving state. -/
inductive Event where
  | boot (service : Nat)
  | act (service : Nat) (ok : Bool)
  | check (service : Nat) (release : Version)
  | healthy (service : Nat) (ok : Bool)
  | crash (service : Nat)

def partialCopy (binary : Binary) : Binary := { binary with complete := false }

namespace Host

variable (host : Host)

def setStage (service : Nat) (stage : Stage) : Host :=
  { host with stages := fun s => if s = service then stage else host.stages s }

def setDisk (disk : Disk) : Host := { host with disk := disk }

def setLock (lock : Option Nat) : Host := { host with lock := lock }

def isPending : Prop := host.disk.journal.map Journal.state = some .pending

instance : Decidable host.isPending :=
  inferInstanceAs (Decidable (host.disk.journal.map Journal.state = some .pending))

/-- An exception leaves `apply_update`; the lock is given back and nothing is recorded. -/
def giveUp (service : Nat) (current : Version) : Host := (host.setLock none).setStage service (.running current)

/-- `_write_journal`; a write that fails leaves the journal that is there. -/
def writeJournal (journal : Option Journal) (ok : Bool) : Host :=
  if ok then host.setDisk { host.disk with journal := journal } else host

/-- The next operation of `apply_update` and `record_pending`. -/
def actSwap (service : Nat) (current new : Version) (phase : SwapPhase) (ok : Bool) : Option Host :=
  let go (disk : Disk) (phase : SwapPhase) : Option Host :=
    some ((host.setDisk disk).setStage service (.updating current new phase))
  let disk := host.disk
  match phase with
  | .verified =>
    if host.lock = none then some ((host.setLock (some service)).setStage service (.updating current new .locked))
    else none
  | .locked =>
    if host.bundle then
      if ok then go { disk with staged := some ⟨new, false⟩ } .staging
      else some ((host.setDisk { disk with staged := none }).giveUp service current)
    -- a backup that fails is not fatal
    else if ok then go { disk with old := disk.live.map partialCopy } .saving else go disk .saved
  | .saving => if ok then go { disk with old := disk.live } .saved else go disk .saved
  | .saved =>
    if ok then go { disk with staged := some ⟨new, false⟩ } .staging
    else some ((host.setDisk { disk with staged := none }).giveUp service current)
  | .staging =>
    if ok then go { disk with staged := some ⟨new, true⟩ } .staged
    else if host.bundle then some (host.giveUp service current)
    else some ((host.setDisk { disk with staged := none }).giveUp service current)
  | .staged =>
    if host.bundle then
      match disk.old with
      | some old => if ok then go { disk with old := some (partialCopy old) } .clearing else
          some (host.giveUp service current)
      | none => go disk .cleared
    else if ok then go (disk.moveIn .staged) .swapped
    else some ((host.setDisk { disk with staged := none }).giveUp service current)
  | .clearing => if ok then go { disk with old := none } .cleared else some (host.giveUp service current)
  | .cleared =>
    if ok then go { disk with old := disk.live, live := none } .movedAside else some (host.giveUp service current)
  | .movedAside =>
    if ok then go (disk.moveIn .staged) .swapped
    else some ((host.setDisk (disk.moveIn .old)).giveUp service current)
  | .swapped => some ((host.setLock none).setStage service (.updating current new .unrecorded))
  | .unrecorded =>
    if host.lock = none then
      let journal := Journal.recordPending disk.journal disk.old.isSome new current
      some ((host.writeJournal (some journal) ok).setStage service (.running current))
    else none

/-- The next operation of `boot_guard` once its verdict is to roll back. -/
def actGuard (service : Nat) (current : Version) (journal : Journal) (phase : GuardPhase) (ok : Bool) : Option Host :=
  let go (disk : Disk) (phase : GuardPhase) : Option Host :=
    some ((host.setDisk disk).setStage service (.guarding current journal phase))
  let disk := host.disk
  match phase with
  | .judging => match journal.rollbackPath with
    | none => go disk (.judged false)
    | some sidecar =>
      if disk.file sidecar = none then go disk (.judged false)
      else if disk.live = none then
        if ok then go ({ disk with failed := none }.moveIn sidecar) (.judged true) else go disk (.judged false)
      else if ok then go disk.moveAside .movedAside
      else go { disk with failed := none } (.judged false)
  | .movedAside => match journal.rollbackPath with
    | none => go disk (.judged false)
    | some sidecar =>
      if ok then go { disk.moveIn sidecar with failed := none } (.judged true)
      else go (disk.moveIn .failed) (.judged false)
  | .judged done =>
    let host := (host.writeJournal (some (journal.rollBack done)) ok).setLock none
    some (host.setStage service (if done then .down else .starting current))

/-- `boot_guard`, up to its verdict. -/
def judge (service : Nat) (current : Version) (ok : Bool) : Option Host :=
  if host.lock = none then
    match bootVerdict host.disk.journal with
    | .proceed => some (host.setStage service (.starting current))
    | .count journal => some ((host.writeJournal (some journal) ok).setStage service (.starting current))
    | .rollBack journal => some ((host.setLock (some service)).setStage service (.guarding current journal .judging))
  else none

def act (service : Nat) (ok : Bool) : Option Host :=
  match host.stages service with
  | .booting current => host.judge service current ok
  | .updating current new phase => host.actSwap service current new phase ok
  | .guarding current journal phase => host.actGuard service current journal phase ok
  | .down | .starting _ | .running _ => none

/-- The version that `mark_healthy` confirms, or the one that was confirmed before. -/
def confirmedBy (journal : Option Journal) (ok : Bool) : Version :=
  match journal with
  | some journal => if journal.state = .pending ∧ ok then journal.newVersion else host.confirmed
  | none => host.confirmed

/-- `mark_healthy`, in a service that has reached the serving state. -/
def markServing (service : Nat) (current : Version) (ok : Bool) : Option Host :=
  if host.lock = none then
    some { (host.writeJournal (markHealthy host.disk.journal) ok).setStage service (.running current) with
      confirmed := host.confirmedBy host.disk.journal ok }
  else none

def crash (service : Nat) : Host :=
  (if host.lock = some service then host.setLock none else host).setStage service .down

def next (newer : Version → Version → Bool) (host : Host) (e : Event) : Option Host :=
  match e with
  | .boot service => match host.stages service, host.disk.live with
    | .down, some binary => if binary.complete then some (host.setStage service (.booting binary.version)) else none
    | _, _ => none
  | .act service ok => host.act service ok
  | .check service release => match host.stages service with
    | .running current =>
      if checkForUpdate newer host.disk.journal current (some release) = some release then
        some (host.setStage service (.updating current release .verified))
      else none
    | _ => none
  | .healthy service ok => match host.stages service with
    | .starting current => host.markServing service current ok
    | _ => none
  | .crash service => match host.stages service with
    | .down => none
    | _ => some (host.crash service)

end Host

end OpenAgent.Server.SelfUpdate
