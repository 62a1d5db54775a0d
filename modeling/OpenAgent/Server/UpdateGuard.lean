import Mathlib.Data.List.Basic

namespace OpenAgent.Server

abbrev Version := String

/-- An executable file; a copy that is still under way is not complete. -/
structure Binary where
  version : Version
  complete : Bool := true
  deriving DecidableEq

inductive Sidecar where
  | old
  | staged
  | failed
  deriving DecidableEq

inductive UpdateState where
  | pending
  | confirmed
  | rolledBack
  | rollbackFailed
  deriving DecidableEq

def maxBootAttempts : Nat := 3
def maxRememberedBad : Nat := 10

/-- The journal; it remembers the last ten versions that were rolled back. -/
structure Journal where
  state : UpdateState
  newVersion : Version
  prevVersion : Option Version := none
  bootAttempts : Nat := 0
  rollbackPath : Option Sidecar := none
  rollbackAvailable : Bool := false
  rolledBackVersions : List Version := []
  confirmedVersion : Option Version := none
  few : rolledBackVersions.length ≤ maxRememberedBad := by decide
  deriving DecidableEq

structure Disk where
  live : Option Binary := none
  old : Option Binary := none
  staged : Option Binary := none
  failed : Option Binary := none
  journal : Option Journal := none
  deriving DecidableEq

/-- `bad.append(version)` unless it is there, then `bad[-10:]`. -/
def rememberBad (bad : List Version) (version : Version) : List Version :=
  let bad := if version ∈ bad then bad else bad ++ [version]
  bad.drop (bad.length - maxRememberedBad)

theorem length_rememberBad (bad : List Version) (version : Version) :
    (rememberBad bad version).length ≤ maxRememberedBad := by
  rw [rememberBad, List.length_drop]
  omega

theorem mem_rememberBad {bad : List Version} (h : bad.length ≤ maxRememberedBad) (version : Version) :
    version ∈ rememberBad bad version := by
  rw [rememberBad]
  split
  · rename_i hmem
    rw [Nat.sub_eq_zero_of_le h]
    exact hmem
  have hle : (bad ++ [version]).length - maxRememberedBad ≤ bad.length := by
    rw [List.length_append, List.length_singleton, maxRememberedBad]
    omega
  rw [List.drop_append_of_le_length hle]
  simp

namespace Journal

/-- The journal that `record_pending` writes. -/
def recordPending (existing : Option Journal) (oldExists : Bool) (newVersion prevVersion : Version) : Journal where
  state := .pending
  newVersion := newVersion
  prevVersion := if prevVersion ≠ "" then some prevVersion else existing.bind confirmedVersion
  bootAttempts := 0
  rollbackPath := some .old
  rollbackAvailable := oldExists
  rolledBackVersions := (existing.map rolledBackVersions).getD []
  few := by
    cases existing with
    | none => decide
    | some journal => exact journal.few

def rollBack (journal : Journal) (ok : Bool) : Journal :=
  { journal with
    rolledBackVersions := rememberBad journal.rolledBackVersions journal.newVersion
    state := if ok then .rolledBack else .rollbackFailed
    few := length_rememberBad _ _ }

def confirm (journal : Journal) : Journal :=
  { journal with state := .confirmed, confirmedVersion := some journal.newVersion, bootAttempts := 0 }

end Journal

def markHealthy (journal : Option Journal) : Option Journal :=
  match journal with
  | some journal => if journal.state = .pending then some journal.confirm else some journal
  | none => none

/-- What `boot_guard` does with the journal: nothing, count the boot, or roll back once the attempts are used up. -/
inductive Verdict where
  | proceed
  | count (journal : Journal)
  | rollBack (journal : Journal)

def bootVerdict (journal : Option Journal) : Verdict :=
  match journal with
  | none => .proceed
  | some journal =>
    if journal.state = .pending then
      let journal := { journal with bootAttempts := journal.bootAttempts + 1 }
      if journal.bootAttempts ≤ maxBootAttempts then .count journal else .rollBack journal
    else .proceed

def rolledBackVersions (journal : Option Journal) : List Version := (journal.map Journal.rolledBackVersions).getD []

/-- The end of `check_for_update`, for the release that the feed selects: none that was rolled back, none that is not
newer than the running version. -/
def checkForUpdate (newer : Version → Version → Bool) (journal : Option Journal) (current : Version)
    (selected : Option Version) : Option Version :=
  selected.filter (fun release => !(rolledBackVersions journal).contains release && newer release current)

theorem checkForUpdate_of_mem {newer : Version → Version → Bool} {journal : Option Journal} {version : Version}
    (h : version ∈ rolledBackVersions journal) (current : Version) :
    checkForUpdate newer journal current (some version) = none := by
  simp [checkForUpdate, Option.filter, h]

namespace Disk

def file (disk : Disk) (sidecar : Sidecar) : Option Binary :=
  match sidecar with
  | .old => disk.old
  | .staged => disk.staged
  | .failed => disk.failed

/-- `os.rename(anchor, failed)`. -/
def moveAside (disk : Disk) : Disk := { disk with failed := disk.live, live := none }

/-- `os.rename(rollback_path, anchor)`. -/
def moveIn (disk : Disk) (sidecar : Sidecar) : Disk :=
  match sidecar with
  | .old => { disk with live := disk.old, old := none }
  | .staged => { disk with live := disk.staged, staged := none }
  | .failed => { disk with live := disk.failed, failed := none }

end Disk

end OpenAgent.Server
