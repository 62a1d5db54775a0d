import OpenAgent.Server.UpdateGuard
import OpenAgent.Lib.Runs

namespace OpenAgent.Server.BootGuard

open Journal

inductive Process where
  | down
  | starting (version : Version)
  | serving (version : Version)
  deriving DecidableEq

/-- The disk, the process of each service, and the boots since the update: how many, whether one of the new version reached
`mark_healthy`, whether one ended before, and whether one reported a rollback. -/
structure Host where
  disk : Disk
  processes : Nat → Process
  boots : Nat := 0
  healthy : Bool := false
  broken : Bool := false
  reported : Bool := false

inductive Event where
  | boot (service : Nat)
  | crash (service : Nat)
  | healthy (service : Nat)

/-- `_perform_rollback`: the broken binary is moved aside, the old one into its place, and the broken one removed. -/
def performRollback (disk : Disk) (rollbackPath : Option Sidecar) : Disk × Bool :=
  match rollbackPath with
  | none => (disk, false)
  | some sidecar =>
    if disk.file sidecar = none then (disk, false)
    else
      let cleared := { disk with failed := none }
      let aside := if cleared.live = none then cleared else cleared.moveAside
      ({ aside.moveIn sidecar with failed := none }, true)

namespace Host

variable (host : Host)

def setProcess (service : Nat) (process : Process) : Host :=
  { host with processes := fun s => if s = service then process else host.processes s }

def writeJournal (journal : Journal) : Host := { host with disk := { host.disk with journal := some journal } }

/-- A service is started with the live binary, and its `boot_guard` runs. -/
def boot (service : Nat) (version : Version) : Host :=
  let host := { host with boots := host.boots + 1 }
  match bootVerdict host.disk.journal with
  | .proceed => host.setProcess service (.starting version)
  | .count journal => (host.writeJournal journal).setProcess service (.starting version)
  | .rollBack journal =>
    let (disk, ok) := performRollback host.disk journal.rollbackPath
    let host := { host with disk := disk }.writeJournal (journal.rollBack ok)
    if ok then { host with reported := true } else host.setProcess service (.starting version)

/-- A service reaches the serving state, and calls `mark_healthy`. -/
def confirm (new : Version) (service : Nat) (version : Version) : Host :=
  { { host with disk := { host.disk with journal := markHealthy host.disk.journal } }.setProcess service
      (.serving version) with
    healthy := host.healthy || version == new }

def next (new : Version) (host : Host) (e : Event) : Option Host :=
  match e with
  | .boot service => match host.processes service, host.disk.live with
    | .down, some binary => some (host.boot service binary.version)
    | _, _ => none
  | .crash service => match host.processes service with
    | .down => none
    | .starting version => some { host.setProcess service .down with broken := host.broken || version == new }
    | .serving _ => some (host.setProcess service .down)
  | .healthy service => match host.processes service with
    | .starting version => some (host.confirm new service version)
    | _ => none

end Host

def installed (new previous : Version) (old : Binary) (existing : Option Journal) (processes : Nat → Process) : Host where
  disk :=
    { live := some ⟨new, true⟩
      old := some old
      journal := some (Journal.recordPending existing true new previous) }
  processes := processes

/-- The previous binary is back, a boot has reported it, and the version is remembered and not offered. -/
structure Restored (new : Version) (old : Binary) (host : Host) : Prop where
  live : host.disk.live = some old
  state : host.disk.journal.map Journal.state = some .rolledBack
  reported : host.reported = true
  remembered : new ∈ rolledBackVersions host.disk.journal
  skipped : ∀ newer current, checkForUpdate newer host.disk.journal current (some new) = none

/-- A release none of whose boots gets healthy is rolled back by the fourth boot, and one that is rolled back had a boot
that ended before it was healthy. -/
structure Guarded (new : Version) (old : Binary) (host : Host) : Prop where
  rolledBack : host.healthy = false → 4 ≤ host.boots → Restored new old host
  kept : host.disk.journal.map Journal.state = some .rolledBack ∨ host.reported = true → host.broken = true

/-- The fourth boot without a healthy one takes place while the update is pending and after a boot has ended before it
was healthy. -/
def Judged (host : Host) (e : Event) : Prop :=
  match e with
  | .boot _ => host.boots = 3 → host.healthy = false →
      host.disk.journal.map Journal.state = some .pending ∧ host.broken = true
  | .crash _ | .healthy _ => True

inductive Sound (new : Version) (old : Binary) (host : Host) : Prop
  | pending (journal : Journal) (hjournal : host.disk.journal = some journal) (hstate : journal.state = .pending)
      (hlive : host.disk.live = some ⟨new, true⟩) (hold : host.disk.old = some old) (hnew : journal.newVersion = new)
      (hattempts : journal.bootAttempts = host.boots) (hboots : host.boots ≤ 3)
      (hpath : journal.rollbackPath = some .old) (hhealthy : host.healthy = false) (hreported : host.reported = false)
  | confirmed (hstate : host.disk.journal.map Journal.state = some .confirmed) (hreported : host.reported = false)
  | restored (h : Restored new old host) (hboots : 4 ≤ host.boots)

def restoredDisk (disk : Disk) (old : Binary) (journal : Journal) : Disk where
  live := some old
  staged := disk.staged
  journal := some (journal.rollBack true)

section Steps

variable {new : Version} {old : Binary} {host : Host} {h' : Host} {e : Event}

theorem Restored.congr (h : Restored new old host) (hdisk : h'.disk = host.disk) (hreported : h'.reported = host.reported) :
    Restored new old h' :=
  ⟨hdisk ▸ h.live, hdisk ▸ h.state, hreported ▸ h.reported, hdisk ▸ h.remembered, hdisk ▸ h.skipped⟩

theorem Sound.installed {previous : Version} {existing : Option Journal} {processes : Nat → Process} :
    Sound new old (installed new previous old existing processes) :=
  .pending _ rfl rfl rfl rfl rfl rfl (Nat.zero_le _) rfl rfl rfl

theorem boot_counted {journal : Journal} (service : Nat) (version : Version) (hjournal : host.disk.journal = some journal)
    (hstate : journal.state = .pending) (hlt : journal.bootAttempts < 3) :
    host.boot service version = ({ host with boots := host.boots + 1 }.writeJournal
      { journal with bootAttempts := journal.bootAttempts + 1 }).setProcess service (.starting version) := by
  have hle : journal.bootAttempts + 1 ≤ maxBootAttempts := hlt
  simp [Host.boot, bootVerdict, hjournal, hstate, hle]

variable {service : Nat}

theorem boot_proceeds {version : Version}
    (hstate : host.disk.journal.map Journal.state ≠ some .pending) :
    host.boot service version =
      { host with boots := host.boots + 1 }.setProcess service (.starting version) := by
  rw [Host.boot]
  cases hjournal : host.disk.journal with
  | none => simp [bootVerdict]
  | some journal =>
    rw [hjournal] at hstate
    have hne : journal.state ≠ .pending := fun h => hstate (by simp [h])
    simp [bootVerdict, hne]

section RollBack

variable {journal : Journal} (service : Nat) (version : Version) {binary : Binary}
  (hjournal : host.disk.journal = some journal) (hstate : journal.state = .pending) (hge : 3 ≤ journal.bootAttempts)
  (hpath : journal.rollbackPath = some .old) (hold : host.disk.old = some old)
  (hlive : host.disk.live = some binary)

include hjournal hstate hge hpath hold hlive

theorem boot_restored : host.boot service version =
      { host with
        boots := host.boots + 1
        reported := true
        disk := restoredDisk host.disk old { journal with bootAttempts := journal.bootAttempts + 1 } } := by
  have hgt : ¬ journal.bootAttempts + 1 ≤ maxBootAttempts := Nat.not_le.mpr (Nat.lt_succ_of_le hge)
  simp [Host.boot, bootVerdict, hjournal, hstate, hgt, performRollback, hpath, Disk.file, hold, hlive, Disk.moveAside,
    Disk.moveIn, Host.writeJournal, restoredDisk]

theorem restored_of_rollBack (hnew : journal.newVersion = new) :
    Restored new old (host.boot service version) := by
  rw [boot_restored service version hjournal hstate hge hpath hold hlive]
  have hmem : new ∈ rememberBad journal.rolledBackVersions journal.newVersion :=
    hnew ▸ mem_rememberBad journal.few journal.newVersion
  exact ⟨rfl, rfl, rfl, hmem, fun newer current => checkForUpdate_of_mem hmem current⟩

end RollBack

theorem Sound.boot {binary : Binary} (hs : Sound new old host) (hlive : host.disk.live = some binary) :
    Sound new old (host.boot service binary.version) ∧ (Guarded new old host →
      (Guarded new old (host.boot service binary.version) ↔ Judged host (.boot service))) := by
  cases hs with
  | pending journal hjournal hstate hnewL hold hnew hattempts hboots hpath hhealthy hreported =>
    have hpen : host.disk.journal.map state = some .pending := by rw [hjournal, Option.map_some, hstate]
    by_cases hlt : host.boots < 3
    · have hcou := boot_counted service binary.version hjournal hstate (hattempts ▸ hlt)
      rw [hcou]
      refine ⟨.pending _ rfl hstate hnewL hold hnew (congrArg Nat.succ hattempts) hlt hpath hhealthy hreported, fun _ => ?_⟩
      refine iff_of_true ⟨fun _ hfour => ?_, fun hkept => ?_⟩ (fun hthr => absurd hlt (by omega))
      · exact absurd (Nat.le_of_succ_le_succ hfour) (Nat.not_le.mpr hlt)
      rcases hkept with hkept | hkept
      · change some journal.state = some .rolledBack at hkept
        rw [hstate] at hkept
        cases hkept
      · exact absurd (hkept.symm.trans hreported) (by simp)
    have hge : 3 ≤ journal.bootAttempts := hattempts.symm ▸ Nat.le_of_not_lt hlt
    have hres := restored_of_rollBack service binary.version hjournal hstate hge hpath hold hlive hnew
    have hboot := boot_restored service binary.version hjournal hstate hge hpath hold hlive
    have hthr : host.boots = 3 := Nat.le_antisymm hboots (Nat.le_of_not_lt hlt)
    refine ⟨.restored hres ?_, fun _ => ?_⟩
    · rw [hboot]
      exact Nat.succ_le_succ (Nat.le_of_not_lt hlt)
    constructor
    · intro hgua _ _
      refine ⟨hpen, ?_⟩
      have hbro := hgua.kept (.inl hres.state)
      rw [hboot] at hbro
      exact hbro
    intro hjud
    refine ⟨fun _ _ => hres, fun _ => ?_⟩
    rw [hboot]
    exact (hjud hthr hhealthy).2
  | confirmed hstate hreported =>
    have hne : host.disk.journal.map state ≠ some .pending := by simp [hstate]
    rw [boot_proceeds hne]
    refine ⟨.confirmed hstate hreported, fun hg => ?_⟩
    have hkept : ¬ (host.disk.journal.map state = some .rolledBack ∨ host.reported = true) := by
      simp [hstate, hreported]
    constructor
    · intro hgua hthr hhealthy
      have hres := hgua.rolledBack hhealthy (by change 4 ≤ host.boots + 1; omega)
      exact absurd (.inl hres.state) hkept
    intro hjud
    refine ⟨fun hhealthy hfour => ?_, fun h => absurd h hkept⟩
    change 4 ≤ host.boots + 1 at hfour
    by_cases hthr : host.boots = 3
    · exact absurd (hjud hthr hhealthy).1 hne
    · exact absurd (.inl (hg.rolledBack hhealthy (by omega)).state) hkept
  | restored hres hboots =>
    have hne : host.disk.journal.map state ≠ some .pending := by simp [hres.state]
    rw [boot_proceeds hne]
    have hsame : Restored new old ({ host with boots := host.boots + 1 }.setProcess service (.starting binary.version)) :=
      hres.congr rfl rfl
    exact ⟨.restored hsame (Nat.le_succ_of_le hboots), fun hg => iff_of_true ⟨fun _ _ => hsame, hg.kept⟩
      (fun hthr => absurd hboots (by omega))⟩

theorem Sound.quiet (hs : Sound new old host) (hdisk : h'.disk = host.disk)
    (hboots : h'.boots = host.boots) (hhealthy : h'.healthy = host.healthy) (hreported : h'.reported = host.reported)
    (hbro : host.broken = true → h'.broken = true) :
    Sound new old h' ∧ (Guarded new old host → Guarded new old h') := by
  have hres : Restored new old host → Restored new old h' := fun h => h.congr hdisk hreported
  constructor
  · cases hs with
    | pending journal hjournal hstate hlive hold hnew hattempts hle hpath hh hr =>
      exact .pending journal (hdisk ▸ hjournal) hstate (hdisk ▸ hlive) (hdisk ▸ hold) hnew (hboots ▸ hattempts)
        (hboots ▸ hle) hpath (hhealthy ▸ hh) (hreported ▸ hr)
    | confirmed hstate hr => exact .confirmed (hdisk ▸ hstate) (hreported ▸ hr)
    | restored h hle => exact .restored (hres h) (hboots ▸ hle)
  intro hg
  refine ⟨fun hh hle => hres (hg.rolledBack (hhealthy ▸ hh) (hboots ▸ hle)), fun h => hbro (hg.kept ?_)⟩
  rw [hdisk, hreported] at h
  exact h

theorem Sound.confirm {version : Version} (hs : Sound new old host) :
    Sound new old (host.confirm new service version) ∧
      (Guarded new old host → Guarded new old (host.confirm new service version)) := by
  have hunh : (host.healthy || version == new) = false → host.healthy = false := by
    intro h
    rw [Bool.or_eq_false_iff] at h
    exact h.1
  have hmar : host.disk.journal.map state ≠ some .pending →
      markHealthy host.disk.journal = host.disk.journal := by
    intro hne
    cases hjournal : host.disk.journal with
    | none => rfl
    | some journal =>
      rw [hjournal, Option.map_some, Option.some_inj.ne] at hne
      exact if_neg hne
  rw [Host.confirm]
  cases hs with
  | pending journal hjournal hstate hlive hold hnew hattempts hle hpath hh hr =>
    have hmark : markHealthy host.disk.journal = some journal.confirm := by
      rw [hjournal, markHealthy]
      exact if_pos hstate
    rw [hmark]
    refine ⟨.confirmed rfl hr, fun hg => ⟨fun _ hfour => absurd hle (Nat.not_le.mpr hfour), fun h => ?_⟩⟩
    rcases h with h | h
    · cases h
    · exact absurd (h.symm.trans hr) (by simp)
  | confirmed hstate hr =>
    rw [hmar (by simp [hstate])]
    refine ⟨.confirmed hstate hr, fun hg => ⟨fun h hfour => ?_, hg.kept⟩⟩
    exact (hg.rolledBack (hunh h) hfour).congr rfl rfl
  | restored hres hle =>
    rw [hmar (by simp [hres.state])]
    exact ⟨.restored (hres.congr rfl rfl) hle, fun hg => ⟨fun _ _ => hres.congr rfl rfl, hg.kept⟩⟩

theorem Sound.after (hs : Sound new old host) (h : Host.next new host e = some h') :
    Sound new old h' ∧ (Guarded new old host → (Guarded new old h' ↔ Judged host e)) := by
  cases e with
  | boot service =>
    simp only [Host.next] at h
    split at h
    · rename_i binary hdown hlive
      cases h
      exact hs.boot hlive
    · cases h
  | crash service =>
    simp only [Host.next] at h
    have hqui : ∀ h', h'.disk = host.disk → h'.boots = host.boots → h'.healthy = host.healthy →
        h'.reported = host.reported → (host.broken = true → h'.broken = true) →
        Sound new old h' ∧ (Guarded new old host → (Guarded new old h' ↔ Judged host (.crash service))) := by
      intro h' hdisk hboots hhealthy hreported hbro
      obtain ⟨hsou, hgua⟩ := hs.quiet hdisk hboots hhealthy hreported hbro
      exact ⟨hsou, fun hg => iff_of_true (hgua hg) trivial⟩
    split at h
    · cases h
    · cases h
      exact hqui _ rfl rfl rfl rfl (fun hbro => by simp [hbro])
    · cases h
      exact hqui _ rfl rfl rfl rfl id
  | healthy service =>
    simp only [Host.next] at h
    split at h
    · cases h
      obtain ⟨hsou, hgua⟩ := hs.confirm
      exact ⟨hsou, fun hg => iff_of_true (hgua hg) trivial⟩
    · cases h

theorem Guarded.installed {previous : Version} {existing : Option Journal} {processes : Nat → Process} :
    Guarded new old (installed new previous old existing processes) := by
  refine ⟨fun _ hfour => absurd hfour (Nat.not_succ_le_zero 3), fun h => ?_⟩
  rcases h with h | h
  · cases h
  · cases h

end Steps

/-- After an update the releases are judged rightly all along exactly when each fourth boot without a healthy one is
preceded by a boot that broke, and by no confirmation. -/
theorem boots_judged_iff (new previous : Version) (old : Binary) (existing : Option Journal)
    (processes : Nat → Process) (es : List Event) {host : Host}
    (h : Runs.run (Host.next new) (installed new previous old existing processes) es = some host) :
    (∀ before after reached, es = before ++ after →
      Runs.run (Host.next new) (installed new previous old existing processes) before = some reached →
      Guarded new old reached) ↔
    Runs.Meets (Host.next new) Judged (installed new previous old existing processes) es :=
  Runs.always_iff_meets (fun _ _ _ hs he => (hs.after he).1) (fun _ _ _ hs hg he => (hs.after he).2 hg)
    Sound.installed Guarded.installed h

def oldBinary : Binary := ⟨"1.0.0", true⟩

def update : Host := installed "1.1.0" "1.0.0" oldBinary none (fun _ => .down)

def crashLoop : List Event := [.boot 0, .crash 0, .boot 0, .crash 0, .boot 0, .crash 0, .boot 0]

instance (host : Host) (e : Event) : Decidable (Judged host e) := by
  cases e with
  | boot service =>
    exact inferInstanceAs (Decidable (host.boots = 3 → host.healthy = false →
      host.disk.journal.map Journal.state = some .pending ∧ host.broken = true))
  | crash _ | healthy _ => exact instDecidableTrue

theorem crash_loop_judged : ∃ host, Runs.run (Host.next "1.1.0") update crashLoop = some host ∧
    host.disk.live = some oldBinary ∧ Guarded "1.1.0" oldBinary host :=
  ⟨_, rfl, rfl, (boots_judged_iff "1.1.0" "1.0.0" oldBinary none (fun _ => .down) crashLoop rfl).mpr
    (Runs.meets_of_all (p := fun host e => decide (Judged host e)) (fun _ _ => of_decide_eq_true) (by decide))
    crashLoop [] _ (List.append_nil _).symm rfl⟩

def startTogether : List Event := [.boot 0, .boot 1, .boot 2, .boot 3, .healthy 0, .healthy 1, .healthy 2]

/-- A release is rolled back although every boot that went on got healthy. -/
theorem healthy_release_rolled_back :
    ¬ ∀ (new previous : Version) (old : Binary) (existing : Option Journal) (processes : Nat → Process)
      (es : List Event) (host : Host),
      Runs.run (Host.next new) (installed new previous old existing processes) es = some host → Guarded new old host := by
  intro h
  have hgua := h "1.1.0" "1.0.0" oldBinary none (fun _ => .down) startTogether _ rfl
  have hbro := hgua.kept (.inl rfl)
  cases hbro

end OpenAgent.Server.BootGuard
