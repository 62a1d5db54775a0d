import OpenAgent.Server.SelfUpdate
import OpenAgent.Lib.Runs

namespace OpenAgent.Server.SelfUpdate

open Host Option Host

def Host.Names (host : Host) : Prop :=
  ∃ journal, host.disk.journal = some journal ∧ journal.state = .pending ∧ journal.rollbackPath = some .old

/-- The live binary is complete, it is confirmed or the journal says that it is pending, and while an update is pending the
rollback file is the version last confirmed. -/
structure Safe (host : Host) : Prop where
  live : ∃ version, host.disk.live = some ⟨version, true⟩
  journaled : ∀ binary, host.disk.live = some binary → binary.version ≠ host.confirmed → host.Names
  rollback : host.isPending → host.disk.old = some ⟨host.confirmed, true⟩

/-- When the next operation of an update may be made: nothing touches the rollback file of a pending update, unless the
backup is of the confirmed version; a binary is replaced with the confirmed version, or while the journal says pending;
and a swap is recorded over a backup of the confirmed version. -/
def CarefulSwap (host : Host) (new : Version) (phase : SwapPhase) (ok : Bool) : Prop :=
  match phase with
  | .verified | .saved | .staging | .swapped | .movedAside => True
  | .locked => host.bundle = false → ok = true → ¬ host.isPending
  | .saving => ok = true → host.isPending → host.disk.live = some ⟨host.confirmed, true⟩
  | .staged =>
    if host.bundle then host.disk.old ≠ none → ok = true → ¬ host.isPending
    else ok = true → new = host.confirmed ∨ host.Names
  | .clearing => ok = true → ¬ host.isPending
  | .cleared => ok = false
  | .unrecorded => ok = true → host.disk.old = some ⟨host.confirmed, true⟩

def CarefulGuard (host : Host) (journal : Journal) (phase : GuardPhase) (ok : Bool) : Prop :=
  match phase with
  | .judging => ∀ sidecar, journal.rollbackPath = some sidecar → host.disk.file sidecar ≠ none → ok = false
  | .movedAside => True
  | .judged _ => ok = true → host.disk.live = some ⟨host.confirmed, true⟩

def CarefulAct (host : Host) (ok : Bool) (stage : Stage) : Prop :=
  match stage with
  | .updating _ new phase => CarefulSwap host new phase ok
  | .guarding _ journal phase => CarefulGuard host journal phase ok
  | .down | .booting _ | .starting _ | .running _ => True

def Careful (host : Host) (e : Event) : Prop :=
  match e with
  | .act service ok => CarefulAct host ok (host.stages service)
  | .healthy _ ok => ∀ journal, host.disk.journal = some journal → journal.state = .pending → ok = true →
      host.disk.live = some ⟨journal.newVersion, true⟩
  | .boot _ | .check _ _ | .crash _ => True

namespace Stage

def holds (stage : Stage) : Bool :=
  match stage with
  | updating _ _ phase => phase ≠ .verified ∧ phase ≠ .unrecorded
  | guarding _ _ _ => true
  | down | booting _ | starting _ | running _ => false

end Stage

def Fits (host : Host) (stage : Stage) : Prop :=
  match stage with
  | .updating _ new .staged | .updating _ new .clearing | .updating _ new .cleared =>
    host.disk.staged = some ⟨new, true⟩
  | .updating _ _ .movedAside | .guarding _ _ .movedAside => host.disk.live = none
  | _ => True

structure Sound (host : Host) : Prop where
  holder : ∀ service, (host.stages service).holds = true → host.lock = some service
  fits : ∀ service, Fits host (host.stages service)

section Steps

variable {host : Host} {h : Host} {service : Nat}

@[simp] theorem writeJournal_live (host : Host) (journal : Option Journal) (ok : Bool) :
    (host.writeJournal journal ok).disk.live = host.disk.live := by cases ok <;> rfl

@[simp] theorem writeJournal_staged (host : Host) (journal : Option Journal) (ok : Bool) :
    (host.writeJournal journal ok).disk.staged = host.disk.staged := by cases ok <;> rfl

@[simp] theorem writeJournal_lock (host : Host) (journal : Option Journal) (ok : Bool) :
    (host.writeJournal journal ok).lock = host.lock := by cases ok <;> rfl

@[simp] theorem writeJournal_stages (host : Host) (journal : Option Journal) (ok : Bool) :
    (host.writeJournal journal ok).stages = host.stages := by cases ok <;> rfl

theorem writeJournal_same {journal : Option Journal} (hj : host.disk.journal = journal) (ok : Bool) :
    host.writeJournal journal ok = host := by
  subst hj
  cases ok <;> rfl

/-- A step of one process: it has the lock, or takes it, wherever it changes a binary. -/
structure Acts (host : Host) (service : Nat) (h : Host) : Prop where
  others : ∀ s, s ≠ service → h.stages s = host.stages s
  lock : h.lock = host.lock ∨ host.lock = none ∨ host.lock = some service
  files : h.disk.live = host.disk.live ∧ h.disk.staged = host.disk.staged ∨ host.lock = some service
  holds : (h.stages service).holds = true → h.lock = some service
  fits : Fits h (h.stages service)

variable {stage : Stage}

theorem Fits.congr (hf : Fits host stage) (hlive : h.disk.live = host.disk.live)
    (hsta : h.disk.staged = host.disk.staged) : Fits h stage := by
  cases stage with
  | updating _ _ phase | guarding _ _ phase => cases phase <;> simp_all [Fits]
  | _ => trivial

theorem Fits.of_not_holds (hstage : stage.holds = false) : Fits h stage := by
  cases stage with
  | updating current new phase => cases phase <;> simp_all [Fits, Stage.holds]
  | guarding current journal phase => cases hstage
  | _ => trivial

theorem Sound.acts (hs : Sound host) (ha : Acts host service h) : Sound h := by
  constructor
  · intro s hs'
    by_cases hsame : s = service
    · subst hsame
      exact ha.holds hs'
    rw [ha.others s hsame] at hs'
    have hlock := hs.holder s hs'
    rcases ha.lock with hl | hl | hl
    · exact hl.trans hlock
    · rw [hlock] at hl
      cases hl
    · rw [hlock, some_inj] at hl
      exact absurd hl hsame
  intro s
  by_cases hsame : s = service
  · subst hsame
    exact ha.fits
  rw [ha.others s hsame]
  cases hhol : (host.stages s).holds with
  | false => exact Fits.of_not_holds hhol
  | true =>
    have hlock := hs.holder s hhol
    rcases ha.files with ⟨hlive, hsta⟩ | hl
    · exact (hs.fits s).congr hlive hsta
    · rw [hlock, some_inj] at hl
      exact absurd hl hsame

theorem acts_setStage (hsta : h.stages = host.stages)
    (hlock : h.lock = host.lock ∨ host.lock = none ∨ host.lock = some service)
    (hfil : h.disk.live = host.disk.live ∧ h.disk.staged = host.disk.staged ∨ host.lock = some service)
    (hhol : stage.holds = true → h.lock = some service) (hfits : Fits h stage) :
    Acts host service (h.setStage service stage) := by
  have hself : (h.setStage service stage).stages service = stage := if_pos rfl
  refine ⟨fun s hne => ?_, hlock, hfil, ?_, ?_⟩
  · rw [← hsta]
    exact if_neg hne
  · rw [hself]
    exact hhol
  · rw [hself]
    exact Fits.congr hfits rfl rfl

section Elsewhere

variable {old : Option Binary} {q : Prop} (hs : Safe host) (hlive : h.disk.live = host.disk.live)
  (hjournal : h.disk.journal = host.disk.journal) (hcon : h.confirmed = host.confirmed)
include hs hlive hjournal hcon

theorem Safe.old_changed (hold : h.disk.old = old) :
    Safe h ↔ (host.isPending → old = some ⟨host.confirmed, true⟩) := by
  have hpen : h.isPending ↔ host.isPending := by rw [isPending, isPending, hjournal]
  constructor
  · intro hsafe hp
    rw [← hold, ← hcon]
    exact hsafe.rollback (hpen.mpr hp)
  intro hp
  refine ⟨hlive ▸ hs.live, fun binary hb hne => ?_, fun hpend => ?_⟩
  · rw [Names, hjournal]
    exact hs.journaled binary (hlive ▸ hb) (hcon ▸ hne)
  · rw [hold, hcon]
    exact hp (hpen.mp hpend)

theorem Safe.old_lost (hlost : ∀ version, h.disk.old ≠ some ⟨version, true⟩) : Safe h ↔ ¬ host.isPending := by
  rw [hs.old_changed hlive hjournal hcon rfl]
  exact ⟨fun hp hpend => hlost _ (hp hpend), fun hn hpend => absurd hpend hn⟩

theorem Safe.congr (hold : h.disk.old = host.disk.old) : Safe h :=
  (hs.old_changed hlive hjournal hcon hold).mpr hs.rollback

theorem Safe.same (hold : h.disk.old = host.disk.old) (hq : q) : Safe h ↔ q :=
  iff_of_true (hs.congr hlive hjournal hcon hold) hq

end Elsewhere

theorem Safe.replaced (hs : Safe host) {new : Version} (hlive : h.disk.live = some ⟨new, true⟩)
    (hjournal : h.disk.journal = host.disk.journal) (hcon : h.confirmed = host.confirmed)
    (hold : h.disk.old = host.disk.old) : Safe h ↔ new = host.confirmed ∨ host.Names := by
  constructor
  · intro hsafe
    by_cases hnew : new = host.confirmed
    · exact .inl hnew
    have hnames := hsafe.journaled _ hlive (hcon ▸ hnew)
    rw [Names, hjournal] at hnames
    exact .inr hnames
  intro hor
  refine ⟨⟨new, hlive⟩, fun binary hb hne => ?_, fun hpen => ?_⟩
  · rw [hlive, some_inj] at hb
    rw [← hb, hcon] at hne
    rw [Names, hjournal]
    exact hor.resolve_left hne
  rw [isPending, hjournal] at hpen
  rw [hold, hcon]
  exact hs.rollback hpen

theorem not_safe_of_live (hlive : h.disk.live = none) : ¬ Safe h := by
  intro hsafe
  obtain ⟨version, hv⟩ := hsafe.live
  rw [hlive] at hv
  cases hv

theorem Safe.recorded (hs : Safe host) {journal : Journal} (hlive : h.disk.live = host.disk.live)
    (hold : h.disk.old = host.disk.old) (hcon : h.confirmed = host.confirmed)
    (hjournal : h.disk.journal = some journal) (hstate : journal.state = .pending)
    (hpath : journal.rollbackPath = some .old) : Safe h ↔ host.disk.old = some ⟨host.confirmed, true⟩ := by
  constructor
  · intro hsafe
    rw [← hold, ← hcon]
    exact hsafe.rollback (by rw [isPending, hjournal, map_some, hstate])
  · intro ho
    exact ⟨hlive ▸ hs.live, fun _ _ _ => ⟨journal, hjournal, hstate, hpath⟩, fun _ => by rw [hold, ho, hcon]⟩

theorem Safe.concluded (hs : Safe host) {journal : Journal} (hlive : h.disk.live = host.disk.live)
    (hjournal : h.disk.journal = some journal) (hstate : journal.state ≠ .pending) :
    Safe h ↔ host.disk.live = some ⟨h.confirmed, true⟩ := by
  have hnot : ¬ h.isPending := by
    rw [isPending, hjournal, map_some, some_inj]
    exact hstate
  obtain ⟨version, hver⟩ := hs.live
  constructor
  · intro hsafe
    by_contra hne
    obtain ⟨j, hj, hpen, _⟩ := hsafe.journaled ⟨version, true⟩ (hlive.trans hver) (fun heq => hne (by rw [hver, ← heq]))
    rw [hjournal, some_inj] at hj
    exact hstate (hj ▸ hpen)
  intro hl
  refine ⟨⟨h.confirmed, hlive.trans hl⟩, fun binary hb hne => ?_, fun hpen => absurd hpen hnot⟩
  rw [hlive, hl, some_inj] at hb
  exact absurd (by rw [← hb]) hne

theorem partialCopy_ne (binary : Binary) (version : Version) : partialCopy binary ≠ ⟨version, true⟩ := by
  intro h
  cases congrArg Binary.complete h

variable {current new : Version} {phase : SwapPhase} {ok : Bool}

theorem Acts.giveUp (hlock : host.lock = some service) (disk : Disk) :
    Acts host service ((host.setDisk disk).giveUp service current) :=
  acts_setStage rfl (.inr (.inr hlock)) (.inr hlock) Bool.noConfusion trivial

theorem Acts.go (hlock : host.lock = some service) (disk : Disk)
    (hfits : Fits (host.setDisk disk) stage) : Acts host service ((host.setDisk disk).setStage service stage) :=
  acts_setStage rfl (.inl rfl) (.inr hlock) (fun _ => hlock) hfits

theorem Sound.actSwap (hs : Sound host) (hstage : host.stages service = .updating current new phase)
    (hn : host.actSwap service current new phase ok = some h) : Acts host service h := by
  have hfits := hs.fits service
  have hhol := hs.holder service
  rw [hstage] at hfits hhol
  cases phase with
  | verified =>
    simp only [actSwap] at hn
    split at hn
    · rename_i hfree
      cases hn
      exact acts_setStage rfl (.inr (.inl hfree)) (.inl ⟨rfl, rfl⟩) (fun _ => rfl) trivial
    · cases hn
  | locked =>
    have hlock := hhol rfl
    simp only [actSwap] at hn
    split at hn
    · split at hn
      · cases hn
        exact .go hlock _ trivial
      · cases hn
        exact .giveUp hlock _
    split at hn
    · cases hn
      exact .go hlock _ trivial
    · cases hn
      exact .go hlock _ trivial
  | saving =>
    have hlock := hhol rfl
    simp only [actSwap] at hn
    split at hn
    · cases hn
      exact .go hlock _ trivial
    · cases hn
      exact .go hlock _ trivial
  | saved | movedAside =>
    have hlock := hhol rfl
    simp only [actSwap] at hn
    split at hn
    · cases hn
      exact .go hlock _ trivial
    · cases hn
      exact .giveUp hlock _
  | staging =>
    have hlock := hhol rfl
    simp only [actSwap] at hn
    split at hn
    · cases hn
      exact .go hlock _ rfl
    split at hn
    · cases hn
      exact .giveUp hlock host.disk
    · cases hn
      exact .giveUp hlock _
  | staged =>
    have hlock := hhol rfl
    simp only [actSwap] at hn
    split at hn
    · split at hn
      · split at hn
        · cases hn
          exact .go hlock _ hfits
        · cases hn
          exact .giveUp hlock host.disk
      · cases hn
        exact .go hlock _ hfits
    split at hn
    · cases hn
      exact .go hlock _ trivial
    · cases hn
      exact .giveUp hlock _
  | clearing =>
    have hlock := hhol rfl
    simp only [actSwap] at hn
    split at hn
    · cases hn
      exact .go hlock _ hfits
    · cases hn
      exact .giveUp hlock host.disk
  | cleared =>
    have hlock := hhol rfl
    simp only [actSwap] at hn
    split at hn
    · cases hn
      exact .go hlock _ rfl
    · cases hn
      exact .giveUp hlock host.disk
  | swapped =>
    have hlock := hhol rfl
    cases hn
    exact acts_setStage rfl (.inr (.inr hlock)) (.inr hlock) Bool.noConfusion trivial
  | unrecorded =>
    simp only [actSwap] at hn
    split at hn
    · cases hn
      exact acts_setStage (writeJournal_stages ..) (.inl (writeJournal_lock ..))
        (.inl ⟨writeJournal_live .., writeJournal_staged ..⟩) Bool.noConfusion trivial
    · cases hn

theorem Safe.actSwap (hsafe : Safe host) (hfits : Fits host (.updating current new phase))
    (hn : host.actSwap service current new phase ok = some h) : Safe h ↔ CarefulSwap host new phase ok := by
  cases phase with
  | verified =>
    simp only [actSwap] at hn
    split at hn
    · cases hn
      exact hsafe.same rfl rfl rfl rfl trivial
    · cases hn
  | locked =>
    simp only [actSwap] at hn
    rw [CarefulSwap]
    split at hn
    · rename_i hbun
      split at hn
      · cases hn
        exact hsafe.same rfl rfl rfl rfl (by simp [hbun])
      · cases hn
        exact hsafe.same rfl rfl rfl rfl (by simp [hbun])
    rename_i hbun
    split at hn
    · rename_i hok
      cases hn
      simp only [hbun, hok, forall_const]
      refine hsafe.old_lost rfl rfl rfl ?_
      intro version hpar
      obtain ⟨binary, _, hb⟩ := map_eq_some_iff.mp hpar
      exact partialCopy_ne binary version hb
    rename_i hok
    cases hn
    exact hsafe.same rfl rfl rfl rfl (by simp [hok])
  | saving =>
    simp only [actSwap] at hn
    rw [CarefulSwap]
    split at hn
    · rename_i hok
      cases hn
      simp only [hok, forall_const]
      exact hsafe.old_changed rfl rfl rfl rfl
    rename_i hok
    cases hn
    exact hsafe.same rfl rfl rfl rfl (by simp [hok])
  | saved =>
    simp only [actSwap] at hn
    split at hn
    · cases hn
      exact hsafe.same rfl rfl rfl rfl trivial
    · cases hn
      exact hsafe.same rfl rfl rfl rfl trivial
  | staging =>
    simp only [actSwap] at hn
    split at hn
    · cases hn
      exact hsafe.same rfl rfl rfl rfl trivial
    split at hn
    · cases hn
      exact hsafe.same rfl rfl rfl rfl trivial
    · cases hn
      exact hsafe.same rfl rfl rfl rfl trivial
  | staged =>
    simp only [actSwap] at hn
    rw [CarefulSwap]
    split at hn
    · rename_i hbun
      rw [if_pos hbun]
      split at hn
      · rename_i old hold
        split at hn
        · rename_i hok
          cases hn
          simp only [hold, hok, ne_eq, reduceCtorEq, not_false_eq_true, forall_const]
          refine hsafe.old_lost rfl rfl rfl ?_
          intro version hpar
          exact partialCopy_ne old version (some_inj.mp hpar)
        rename_i hok
        cases hn
        exact hsafe.same rfl rfl rfl rfl (by simp [hok])
      rename_i hold
      cases hn
      exact hsafe.same rfl rfl rfl rfl (by simp [hold])
    · rename_i hbun
      rw [if_neg hbun]
      split at hn
      · rename_i hok
        cases hn
        simp only [hok, forall_const]
        exact hsafe.replaced hfits rfl rfl rfl
      rename_i hok
      cases hn
      exact hsafe.same rfl rfl rfl rfl (by simp [hok])
  | clearing =>
    simp only [actSwap] at hn
    rw [CarefulSwap]
    split at hn
    · rename_i hok
      cases hn
      simp only [hok, forall_const]
      refine hsafe.old_lost rfl rfl rfl ?_
      intro version hnone
      cases hnone
    rename_i hok
    cases hn
    exact hsafe.same rfl rfl rfl rfl (by simp [hok])
  | cleared =>
    simp only [actSwap] at hn
    rw [CarefulSwap]
    split at hn
    · rename_i hok
      cases hn
      exact iff_of_false (not_safe_of_live rfl) (by simp [hok])
    rename_i hok
    cases hn
    exact hsafe.same rfl rfl rfl rfl (by simpa using hok)
  | movedAside => exact absurd hsafe (not_safe_of_live hfits)
  | swapped =>
    cases hn
    exact hsafe.same rfl rfl rfl rfl trivial
  | unrecorded =>
    simp only [actSwap] at hn
    split at hn
    · cases ok with
      | false =>
        cases hn
        exact hsafe.same rfl rfl rfl rfl Bool.noConfusion
      | true =>
        cases hn
        simp only [CarefulSwap, forall_const]
        exact hsafe.recorded rfl rfl rfl rfl rfl rfl
    · cases hn

variable {journal : Journal} {guardPhase : GuardPhase}

theorem Sound.actGuard (hs : Sound host) (hstage : host.stages service = .guarding current journal guardPhase)
    (hn : host.actGuard service current journal guardPhase ok = some h) : Acts host service h := by
  have hlock := hs.holder service (by rw [hstage]; rfl)
  cases guardPhase with
  | judging =>
    simp only [actGuard] at hn
    split at hn
    · cases hn
      exact .go hlock _ trivial
    split at hn
    · cases hn
      exact .go hlock _ trivial
    split at hn
    · split at hn
      · cases hn
        exact .go hlock _ trivial
      · cases hn
        exact .go hlock _ trivial
    split at hn
    · cases hn
      exact .go hlock _ rfl
    · cases hn
      exact .go hlock _ trivial
  | movedAside =>
    simp only [actGuard] at hn
    split at hn
    · cases hn
      exact .go hlock _ trivial
    split at hn
    · cases hn
      exact .go hlock _ trivial
    · cases hn
      exact .go hlock _ trivial
  | judged done =>
    cases hn
    refine acts_setStage (writeJournal_stages ..) (.inr (.inr hlock)) (.inr hlock) ?_ ?_
    · cases done <;> exact Bool.noConfusion
    · cases done <;> trivial

theorem rollBack_state_ne (done : Bool) : (journal.rollBack done).state ≠ .pending := by
  cases done <;> exact UpdateState.noConfusion

theorem Safe.actGuard (hsafe : Safe host) (hfits : Fits host (.guarding current journal guardPhase))
    (hn : host.actGuard service current journal guardPhase ok = some h) :
    Safe h ↔ CarefulGuard host journal guardPhase ok := by
  obtain ⟨version, hver⟩ := hsafe.live
  cases guardPhase with
  | judging =>
    simp only [actGuard] at hn
    rw [CarefulGuard]
    split at hn
    · rename_i hpath
      cases hn
      exact hsafe.same rfl rfl rfl rfl (by simp [hpath])
    rename_i sidecar hpath
    split at hn
    · rename_i hfile
      cases hn
      exact hsafe.same rfl rfl rfl rfl (by simp [hpath, hfile])
    rename_i hfile
    rw [if_neg (by simp [hver])] at hn
    split at hn
    · rename_i hok
      cases hn
      exact iff_of_false (not_safe_of_live rfl) (by simp [hpath, hfile, hok])
    rename_i hok
    cases hn
    exact hsafe.same rfl rfl rfl rfl (by simp [hok])
  | movedAside => exact absurd hsafe (not_safe_of_live hfits)
  | judged done =>
    cases ok with
    | false =>
      cases hn
      exact hsafe.same rfl rfl rfl rfl Bool.noConfusion
    | true =>
      cases hn
      simp only [CarefulGuard, forall_const]
      exact hsafe.concluded rfl rfl (rollBack_state_ne done)

theorem Acts.judge (hn : host.judge service current ok = some h) : Acts host service h := by
  simp only [Host.judge] at hn
  split at hn
  · rename_i hfree
    split at hn
    · cases hn
      exact acts_setStage rfl (.inl rfl) (.inl ⟨rfl, rfl⟩) Bool.noConfusion trivial
    · cases hn
      exact acts_setStage (writeJournal_stages ..) (.inl (writeJournal_lock ..))
        (.inl ⟨writeJournal_live .., writeJournal_staged ..⟩) Bool.noConfusion trivial
    · cases hn
      exact acts_setStage rfl (.inr (.inl hfree)) (.inl ⟨rfl, rfl⟩) (fun _ => rfl) trivial
  · cases hn

theorem bootVerdict_count {counted : Journal} (hv : bootVerdict host.disk.journal = .count counted) :
    ∃ journal, host.disk.journal = some journal ∧ counted.state = journal.state ∧
      counted.rollbackPath = journal.rollbackPath := by
  cases hj : host.disk.journal with
  | none =>
    rw [hj] at hv
    cases hv
  | some journal =>
    rw [hj] at hv
    simp only [bootVerdict] at hv
    split at hv
    · split at hv
      · cases hv
        exact ⟨journal, rfl, rfl, rfl⟩
      · cases hv
    · cases hv

theorem Safe.judge (hsafe : Safe host) (hn : host.judge service current ok = some h) : Safe h := by
  simp only [Host.judge] at hn
  split at hn
  · split at hn
    · cases hn
      exact hsafe.congr rfl rfl rfl rfl
    · rename_i counted hv
      obtain ⟨journal, hj, hstate, hpath⟩ := bootVerdict_count hv
      cases ok with
      | false =>
        cases hn
        exact hsafe.congr rfl rfl rfl rfl
      | true =>
        cases hn
        refine ⟨hsafe.live, fun binary hb hne => ?_, fun hpen => hsafe.rollback ?_⟩
        · obtain ⟨journal', hj', hsta', hpath'⟩ := hsafe.journaled binary hb hne
          rw [hj, some_inj] at hj'
          subst hj'
          exact ⟨counted, rfl, hstate.trans hsta', hpath.trans hpath'⟩
        · rw [isPending, hj, map_some, ← hstate]
          exact hpen
    · cases hn
      exact hsafe.congr rfl rfl rfl rfl
  · cases hn

theorem Acts.markServing (hn : host.markServing service current ok = some h) : Acts host service h := by
  simp only [Host.markServing] at hn
  split at hn
  · cases hn
    refine ⟨fun s hne => ?_, .inl (writeJournal_lock ..), .inl ⟨writeJournal_live .., writeJournal_staged ..⟩,
      fun hhol => ?_, Fits.of_not_holds ?_⟩
    · exact (if_neg hne).trans (congrFun (writeJournal_stages ..) s)
    · simp [setStage, Stage.holds] at hhol
    · simp [setStage, Stage.holds]
  · cases hn

theorem Safe.confirmed (hsafe : Safe host) (hlive : h.disk.live = host.disk.live)
    (hjournal : h.disk.journal = some journal.confirm) (hcon : h.confirmed = journal.newVersion) :
    Safe h ↔ host.disk.live = some ⟨journal.newVersion, true⟩ := by
  rw [hsafe.concluded hlive hjournal UpdateState.noConfusion, hcon]

theorem Safe.markServing (hsafe : Safe host) (hn : host.markServing service current ok = some h) :
    Safe h ↔ ∀ journal, host.disk.journal = some journal → journal.state = .pending → ok = true →
      host.disk.live = some ⟨journal.newVersion, true⟩ := by
  simp only [Host.markServing] at hn
  split at hn
  · cases hj : host.disk.journal with
    | none =>
      rw [hj] at hn
      simp only [markHealthy, writeJournal_same hj] at hn
      cases hn
      exact iff_of_true (hsafe.congr rfl rfl rfl rfl) (fun _ hnone => by cases hnone)
    | some journal =>
      rw [hj] at hn
      by_cases hpen : journal.state = .pending
      · cases ok with
        | false =>
          simp only [confirmedBy, Bool.false_eq_true, and_false, if_false] at hn
          cases hn
          exact iff_of_true (hsafe.congr rfl rfl rfl rfl) (by simp)
        | true =>
          simp only [markHealthy, confirmedBy, hpen, and_self, if_true] at hn
          cases hn
          have hser : (∀ j, some journal = some j → j.state = .pending → true = true →
              host.disk.live = some ⟨j.newVersion, true⟩) ↔ host.disk.live = some ⟨journal.newVersion, true⟩ := by
            simp [hpen]
          rw [hser]
          exact hsafe.confirmed rfl rfl rfl
      simp only [markHealthy, confirmedBy, hpen, false_and, if_false, writeJournal_same hj] at hn
      cases hn
      refine iff_of_true (hsafe.congr rfl rfl rfl rfl) (fun j hsome hstate => ?_)
      rw [some_inj] at hsome
      exact absurd (hsome ▸ hstate) hpen
  · cases hn

theorem Acts.crash : Acts host service (host.crash service) := by
  rw [Host.crash]
  split
  · rename_i hlock
    exact acts_setStage rfl (.inr (.inr hlock)) (.inl ⟨rfl, rfl⟩) Bool.noConfusion trivial
  · exact acts_setStage rfl (.inl rfl) (.inl ⟨rfl, rfl⟩) Bool.noConfusion trivial

theorem Safe.crash (hsafe : Safe host) : Safe (host.crash service) := by
  rw [Host.crash]
  split
  · exact hsafe.congr rfl rfl rfl rfl
  · exact hsafe.congr rfl rfl rfl rfl

variable {newer : Version → Version → Bool} {e : Event}

theorem Sound.after (hs : Sound host) (hn : host.next newer e = some h) : Sound h := by
  cases e with
  | boot _ | check _ _ =>
    simp only [next] at hn
    split at hn
    · split at hn
      · cases hn
        exact hs.acts (acts_setStage rfl (.inl rfl) (.inl ⟨rfl, rfl⟩) Bool.noConfusion trivial)
      · cases hn
    · cases hn
  | act service ok =>
    simp only [next, act] at hn
    split at hn
    · exact hs.acts (.judge hn)
    · rename_i hstage
      exact hs.acts (hs.actSwap hstage hn)
    · rename_i hstage
      exact hs.acts (hs.actGuard hstage hn)
    all_goals cases hn
  | healthy service ok =>
    simp only [next] at hn
    split at hn
    · exact hs.acts (.markServing hn)
    · cases hn
  | crash service =>
    simp only [next] at hn
    split at hn
    · cases hn
    · cases hn
      exact hs.acts .crash

theorem Safe.after (hsafe : Safe host) (hs : Sound host) (hn : host.next newer e = some h) :
    Safe h ↔ Careful host e := by
  cases e with
  | boot _ | check _ _ =>
    simp only [next] at hn
    split at hn
    · split at hn
      · cases hn
        exact iff_of_true (hsafe.congr rfl rfl rfl rfl) trivial
      · cases hn
    · cases hn
  | act service ok =>
    have hfits := hs.fits service
    rw [Careful]
    cases hstage : host.stages service with
    | booting current =>
      simp only [next, act, hstage] at hn
      exact iff_of_true (hsafe.judge hn) trivial
    | updating current new phase =>
      simp only [next, act, hstage] at hn hfits
      exact hsafe.actSwap hfits hn
    | guarding current journal phase =>
      simp only [next, act, hstage] at hn hfits
      exact hsafe.actGuard hfits hn
    | _ =>
      simp only [next, act, hstage] at hn
      cases hn
  | healthy service ok =>
    simp only [next] at hn
    split at hn
    · exact hsafe.markServing hn
    · cases hn
  | crash service =>
    simp only [next] at hn
    split at hn
    · cases hn
    · cases hn
      exact iff_of_true hsafe.crash trivial

end Steps

def fresh (bundle : Bool) (version : Version) (old staged failed : Option Binary) : Host where
  bundle := bundle
  disk := { live := some ⟨version, true⟩, old := old, staged := staged, failed := failed }
  confirmed := version

section Fresh

variable {bundle : Bool} {version : Version} {old staged failed : Option Binary}

theorem Sound.fresh : Sound (fresh bundle version old staged failed) :=
  ⟨fun _ hhol => Bool.noConfusion hhol, fun _ => trivial⟩

theorem Safe.fresh : Safe (fresh bundle version old staged failed) := by
  refine ⟨⟨version, rfl⟩, fun binary hlive hne => ?_, fun hpen => by cases hpen⟩
  cases hlive
  exact absurd rfl hne

end Fresh

/-- Whatever the services that share an executable do, the host is safe all along exactly when every step is made with
care. -/
theorem self_updates_safe_iff (newer : Version → Version → Bool) (bundle : Bool) (version : Version)
    (old staged failed : Option Binary) (es : List Event) {host : Host}
    (h : Runs.run (Host.next newer) (fresh bundle version old staged failed) es = some host) :
    (∀ before after reached, es = before ++ after →
      Runs.run (Host.next newer) (fresh bundle version old staged failed) before = some reached → Safe reached) ↔
    Runs.Meets (Host.next newer) Careful (fresh bundle version old staged failed) es :=
  Runs.always_iff_meets (fun _ _ _ hs hn => hs.after hn) (fun _ _ _ hs hsafe hn => hsafe.after hs hn)
    Sound.fresh Safe.fresh h

def otherVersion (release current : Version) : Bool := release ≠ current

instance (host : Host) : Decidable host.Names :=
  match hj : host.disk.journal with
  | some journal => decidable_of_iff (journal.state = .pending ∧ journal.rollbackPath = some .old)
      ⟨fun hnames => ⟨journal, hj, hnames⟩, fun ⟨_, hj', hnames⟩ => Option.some_inj.mp (hj.symm.trans hj') ▸ hnames⟩
  | none => isFalse fun ⟨_, hj', _⟩ => by cases hj.symm.trans hj'

instance (host : Host) (new : Version) (phase : SwapPhase) (ok : Bool) : Decidable (CarefulSwap host new phase ok) := by
  cases phase with
  | locked => exact inferInstanceAs (Decidable (host.bundle = false → ok = true → ¬ host.isPending))
  | saving =>
    exact inferInstanceAs (Decidable (ok = true → host.isPending → host.disk.live = some ⟨host.confirmed, true⟩))
  | staged =>
    exact inferInstanceAs (Decidable (if host.bundle then host.disk.old ≠ none → ok = true → ¬ host.isPending
      else ok = true → new = host.confirmed ∨ host.Names))
  | clearing => exact inferInstanceAs (Decidable (ok = true → ¬ host.isPending))
  | cleared => exact inferInstanceAs (Decidable (ok = false))
  | unrecorded => exact inferInstanceAs (Decidable (ok = true → host.disk.old = some ⟨host.confirmed, true⟩))
  | _ => exact instDecidableTrue

instance (host : Host) (journal : Journal) (phase : GuardPhase) (ok : Bool) :
    Decidable (CarefulGuard host journal phase ok) := by
  cases phase with
  | judging =>
    exact inferInstanceAs (Decidable (∀ sidecar ∈ journal.rollbackPath, host.disk.file sidecar ≠ none → ok = false))
  | movedAside => exact instDecidableTrue
  | judged done => exact inferInstanceAs (Decidable (ok = true → host.disk.live = some ⟨host.confirmed, true⟩))

instance (host : Host) (ok : Bool) (stage : Stage) : Decidable (CarefulAct host ok stage) := by
  cases stage with
  | updating current new phase => exact inferInstanceAs (Decidable (CarefulSwap host new phase ok))
  | guarding current journal phase => exact inferInstanceAs (Decidable (CarefulGuard host journal phase ok))
  | _ => exact instDecidableTrue

instance (host : Host) (e : Event) : Decidable (Careful host e) := by
  cases e with
  | act service ok => exact inferInstanceAs (Decidable (CarefulAct host ok (host.stages service)))
  | healthy service ok =>
    exact inferInstanceAs (Decidable (∀ journal ∈ host.disk.journal, journal.state = .pending → ok = true →
      host.disk.live = some ⟨journal.newVersion, true⟩))
  | _ => exact instDecidableTrue

def stagedOnly : List Event :=
  [.boot 0, .act 0 true, .healthy 0 true, .check 0 "1.1.0", .act 0 true, .act 0 true, .act 0 true, .act 0 true, .act 0 true,
    .crash 0, .boot 1, .act 1 true, .healthy 1 true]

def bareHost : Host := fresh false "1.0.0" none none none

theorem staged_only_safe : ∃ host, Runs.run (Host.next otherVersion) bareHost stagedOnly = some host ∧
    host.disk.old = some ⟨"1.0.0", true⟩ ∧ host.disk.staged = some ⟨"1.1.0", true⟩ ∧ Safe host :=
  ⟨_, rfl, rfl, rfl, (self_updates_safe_iff otherVersion false "1.0.0" none none none stagedOnly rfl).mpr
    (Runs.meets_of_all (p := fun host e => decide (Careful host e)) (fun _ _ => of_decide_eq_true) (by decide))
    stagedOnly [] _ (List.append_nil _).symm rfl⟩

def unrecordedSwap : List Event :=
  [.boot 0, .act 0 true, .healthy 0 true, .check 0 "1.1.0", .act 0 true, .act 0 true, .act 0 true, .act 0 true, .act 0 true,
    .act 0 true, .act 0 true, .crash 0]

/-- A release is live that nothing confirmed, without a journal. -/
theorem swap_unrecorded :
    ¬ ∀ (newer : Version → Version → Bool) (bundle : Bool) (version : Version) (old staged failed : Option Binary)
      (es : List Event) (host : Host),
      Runs.run (Host.next newer) (fresh bundle version old staged failed) es = some host → Safe host := by
  intro h
  have hsafe := h otherVersion false "1.0.0" none none none unrecordedSwap _ rfl
  obtain ⟨journal, hnone, _⟩ := hsafe.journaled _ rfl (by decide)
  cases hnone

/-- Whatever crashes or fails, two services are never both between taking the update lock and giving it up. -/
theorem updates_exclude {newer : Version → Version → Bool} {bundle : Bool} {version : Version}
    {old staged failed : Option Binary} {host : Host}
    (h : Runs.Reaches (Host.next newer) (fresh bundle version old staged failed) host) {a b : Nat}
    (ha : (host.stages a).holds = true) (hb : (host.stages b).holds = true) : a = b ∧ Fits host (host.stages a) := by
  have hs : Sound host := Runs.invariant (fun _ _ _ hs he => hs.after he) Sound.fresh h
  exact ⟨Option.some.inj ((hs.holder a ha).symm.trans (hs.holder b hb)), hs.fits a⟩

theorem updates_exclude_staged : ∃ host, Runs.run (Host.next otherVersion) bareHost (stagedOnly.take 6) = some host ∧
    (host.stages 0).holds = true ∧ ∀ b, (host.stages b).holds = true → 0 = b := by
  have hrun : (Runs.run (Host.next otherVersion) bareHost (stagedOnly.take 6)).any (fun host => (host.stages 0).holds) =
      true := by decide
  obtain ⟨host, hh, h0⟩ := (Option.any_eq_true _ _).mp hrun
  exact ⟨host, hh, h0, fun b hb => (updates_exclude ⟨_, hh⟩ h0 hb).1⟩

end OpenAgent.Server.SelfUpdate
