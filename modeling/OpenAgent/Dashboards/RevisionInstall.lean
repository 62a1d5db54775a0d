import Mathlib.Data.List.Infix
import OpenAgent.Dashboards.Revisions

namespace OpenAgent.Dashboards

open Py Option

open Gateway (Sha256)

section
variable [Sha256] [Compiler]

namespace Repository

structure SameRows (s t : Repository) : Prop where
  views : t.views = s.views
  revisions : t.revisions = s.revisions
  sources : t.sources = s.sources
  actions : t.actions = s.actions

omit [Sha256] [Compiler] in
theorem SameRows.refl (s : Repository) : SameRows s s := ⟨rfl, rfl, rfl, rfl⟩

omit [Sha256] [Compiler] in
theorem SameRows.trans {s t u : Repository} (h : SameRows s t) (k : SameRows t u) : SameRows s u :=
  ⟨k.views.trans h.views, k.revisions.trans h.revisions, k.sources.trans h.sources, k.actions.trans h.actions⟩

def publishes (s : Repository) (view : String) (expected : Nat) (c : Call) (fate : Fate) : Option Files :=
  if fate = .early then none else (s.prepare view expected c).map Prod.snd

def Committed (s : Repository) (view : String) (revision : Nat) : Prop :=
  ∃ row, s.views.get? view = some row ∧ row.latestRevision = revision

structure Installed (s : Repository) (view : String) (revision : Nat) (d : Definition) (files : Files) : Prop where
  latest : s.Committed view revision
  evidence : s.revisions.get? (view, revision) = some (digest files)
  sources : s.sources.get? (view, revision) = some d.sources
  actions : s.actions.get? (view, revision) = some d.actions
  bundle : s.bundles.get? (view, revision) = some files
  written : entries (bundleOf view revision .sidebar d) d.scripts d.assets = some files

section
variable {s t : Repository} {view : String} {expected : Nat} {c : Call} {now : Int} {fate : Fate}
  {d : Definition} {files : Files}

theorem attempt_cases (s : Repository) (view : String) (expected : Nat) (c : Call) (now : Int) (fate : Fate) :
    (s.publishes view expected c fate = none ∧ s.attempt view expected c now fate = (s, false)) ∨
    ∃ d files, fate ≠ .early ∧ s.prepare view expected c = some (d, files) ∧
      ((s.bundles.writeRevision (view, expected + 1) files = none ∧ s.attempt view expected c now fate = (s, false)) ∨
      ∃ bundles evidence, s.bundles.writeRevision (view, expected + 1) files = some (bundles, evidence) ∧
        (s.attempt view expected c now fate = ({ s with bundles }, false) ∨
        ∃ answers u, fate = .commits answers ∧ ({ s with bundles } : Repository).commit view expected c d evidence now = some u ∧
          s.attempt view expected c now fate = (u, answers))) := by
  cases hp : s.prepare view expected c with
  | none =>
    refine .inl ⟨?_, ?_⟩
    · rw [publishes, hp]
      exact ite_self none
    · simp only [attempt, hp]
  | some r =>
    obtain ⟨d, files⟩ := r
    cases fate with
    | early => exact .inl ⟨rfl, by simp only [attempt, hp]⟩
    | late =>
      refine .inr ⟨d, files, nofun, rfl, ?_⟩
      cases hw : s.bundles.writeRevision (view, expected + 1) files with
      | none => exact .inl ⟨rfl, by simp only [attempt, hp, hw]⟩
      | some w => exact .inr ⟨w.1, w.2, rfl, .inl (by simp only [attempt, hp, hw])⟩
    | commits answers =>
      refine .inr ⟨d, files, nofun, rfl, ?_⟩
      cases hw : s.bundles.writeRevision (view, expected + 1) files with
      | none => exact .inl ⟨rfl, by simp only [attempt, hp, hw]⟩
      | some w =>
        refine .inr ⟨w.1, w.2, rfl, ?_⟩
        cases hc : ({ s with bundles := w.1 } : Repository).commit view expected c d w.2 now with
        | none => exact .inl (by simp only [attempt, hp, hw, hc])
        | some u => exact .inr ⟨answers, u, rfl, rfl, by simp only [attempt, hp, hw, hc]⟩

omit [Sha256] [Compiler] in
theorem commit_cases {evidence : BundleEvidence} (h : s.commit view expected c d evidence now = some t) :
    ∃ row, s.views.get? view = some row ∧ row.latestRevision = expected ∧ s.revisions.get? (view, expected + 1) = none ∧
      t = { s with
        views := s.views.set view (commitRow row expected c d now)
        revisions := s.revisions.set (view, expected + 1) evidence
        sources := s.sources.set (view, expected + 1) d.sources
        actions := s.actions.set (view, expected + 1) d.actions } := by
  rw [commit] at h
  split at h
  · cases h
  next hfree =>
    split at h
    next row hrow =>
      split at h
      next hcond =>
        rw [Bool.and_eq_true, decide_eq_true_eq] at hcond
        cases h
        exact ⟨row, hrow, hcond.1, by simpa using hfree, rfl⟩
      · cases h
    · cases h

theorem prepare_cases (h : s.prepare view expected c = some (d, files)) :
    ∃ row, s.views.get? view = some row ∧ row.latestRevision = expected ∧
      (c.isReactivate = true ∨ row.status ≠ .deleted) ∧
      entries (bundleOf view (expected + 1) .sidebar d) d.scripts d.assets = some files := by
  rw [prepare] at h
  obtain ⟨row, hrow, h⟩ := bind_eq_some_iff.mp h
  split at h
  · cases h
  next hcond =>
    obtain ⟨old, _, h⟩ := bind_eq_some_iff.mp h
    obtain ⟨e, _, h⟩ := bind_eq_some_iff.mp h
    obtain ⟨written, hw, h⟩ := bind_eq_some_iff.mp h
    cases h
    simp only [Bool.or_eq_true, Bool.and_eq_true, decide_eq_true_eq, not_or, not_and, Bool.not_eq_true'] at hcond
    refine ⟨row, hrow, not_not.mp hcond.2, ?_, hw⟩
    cases hc : c.isReactivate with
    | true => exact .inl rfl
    | false => exact .inr (fun hd => by simpa [hc] using hcond.1.2 hd)

theorem prepare_congr (h : SameRows s t) (hb : t.bundles.get? (view, expected) = s.bundles.get? (view, expected)) :
    t.prepare view expected c = s.prepare view expected c := by
  have hcur : t.current view expected = s.current view expected := by
    have hv : ∀ e, t.bundles.verify (view, expected) e = s.bundles.verify (view, expected) e := by
      intro e
      rw [BundleStore.verify.eq_def, hb, BundleStore.verify.eq_def]
    simp only [current, h.revisions, h.sources, h.actions, hv, hb]
  rw [prepare, prepare, h.views, hcur]

theorem attempt_bundles (s : Repository) (view : String) (expected : Nat) (c : Call) (now : Int) (fate : Fate)
    (key : String × Nat) :
    (s.attempt view expected c now fate).1.bundles.get? key =
      if key = (view, expected + 1) then (s.bundles.get? key).or (s.publishes view expected c fate)
      else s.bundles.get? key := by
  rcases attempt_cases s view expected c now fate with ⟨hp, he⟩ | ⟨d, files, hfate, hp, hrest⟩
  · rw [he, hp, or_none, ite_self]
  have hpub : s.publishes view expected c fate = some files := by
    rw [publishes, if_neg hfate, hp]
    rfl
  rw [hpub]
  rcases hrest with ⟨hw, he⟩ | ⟨bundles, evidence, hw, hrest⟩
  · obtain ⟨found, hfound⟩ := BundleStore.get?_of_writeRevision_none hw
    rw [he]
    split
    next hkey => rw [hkey, hfound]; rfl
    next => rfl
  have hget := (BundleStore.get?_writeRevision hw).2 key
  have hall : (s.attempt view expected c now fate).1.bundles = bundles := by
    rcases hrest with he | ⟨answers, u, _, hc, he⟩
    · rw [he]
    · obtain ⟨_, _, _, _, hu⟩ := commit_cases hc
      rw [he, hu]
  rw [hall, hget]
  split
  next hkey =>
    rw [hkey]
    cases s.bundles.get? (view, expected + 1) <;> rfl
  next => rfl

theorem attempt_rows (s : Repository) (view : String) (expected : Nat) (c : Call) (now : Int) (fate : Fate) :
    SameRows s (s.attempt view expected c now fate).1 ∨
      (s.attempt view expected c now fate).1.Committed view (expected + 1) := by
  rcases attempt_cases s view expected c now fate with ⟨_, he⟩ | ⟨d, files, _, _, hrest⟩
  · exact .inl (he ▸ SameRows.refl s)
  rcases hrest with ⟨_, he⟩ | ⟨bundles, evidence, _, he | ⟨answers, u, _, hc, he⟩⟩
  · exact .inl (he ▸ SameRows.refl s)
  · exact .inl (he ▸ ⟨rfl, rfl, rfl, rfl⟩)
  obtain ⟨row, _, _, _, hu⟩ := commit_cases hc
  refine .inr ⟨commitRow row expected c d now, ?_, rfl⟩
  rw [he, hu]
  exact Dict.get?_set_self _ _ _

theorem attempt_of_committed (h : s.Committed view (expected + 1)) :
    s.attempt view expected c now fate = (s, false) := by
  obtain ⟨row, hrow, hlat⟩ := h
  have hnone : ∀ d files, s.prepare view expected c ≠ some (d, files) := by
    intro d files hp
    obtain ⟨row', hrow', hlat', _⟩ := prepare_cases hp
    rw [hrow, Option.some.injEq] at hrow'
    rw [← hrow', hlat] at hlat'
    omega
  rcases attempt_cases s view expected c now fate with ⟨_, he⟩ | ⟨d, files, _, hp, _⟩
  · exact he
  · exact absurd hp (hnone d files)

abbrev Try := Call × Int × Fate

def tried (s : Repository) (view : String) (expected : Nat) (tries : List Try) : Repository :=
  tries.foldl (fun s t => (s.attempt view expected t.1 t.2.1 t.2.2).1) s

/-- What is in place for the next revision after the calls: what was there, or what the first of
them that came so far has put there. -/
def published (s : Repository) (view : String) (expected : Nat) (tries : List Try) : Option Files :=
  (s.bundles.get? (view, expected + 1)).or (tries.findSome? (fun t => s.publishes view expected t.1 t.2.2))

theorem tried_concat (s : Repository) (tries : List Try) (t : Try) :
    s.tried view expected (tries ++ [t]) = ((s.tried view expected tries).attempt view expected t.1 t.2.1 t.2.2).1 := by
  rw [tried, List.foldl_append]
  rfl

theorem tried_cases (s : Repository) (view : String) (expected : Nat) (tries : List Try) :
    (SameRows s (s.tried view expected tries) ∧ ∀ key, (s.tried view expected tries).bundles.get? key =
        if key = (view, expected + 1) then s.published view expected tries else s.bundles.get? key) ∨
    (s.tried view expected tries).Committed view (expected + 1) := by
  induction tries using List.reverseRecOn with
  | nil =>
    refine .inl ⟨SameRows.refl s, ?_⟩
    intro key
    rw [published, List.findSome?_nil, or_none]
    split
    next hkey => rw [hkey]; rfl
    next => rfl
  | append_singleton tries t ih =>
    rw [tried_concat]
    rcases ih with ⟨hrows, hbun⟩ | hdone
    · rcases attempt_rows (s.tried view expected tries) view expected t.1 t.2.1 t.2.2 with hsame | hdone
      · refine .inl ⟨hrows.trans hsame, ?_⟩
        intro key
        have hold : (s.tried view expected tries).bundles.get? (view, expected) = s.bundles.get? (view, expected) := by
          rw [hbun, if_neg (by simp)]
        have hpub : (s.tried view expected tries).publishes view expected t.1 t.2.2 =
            s.publishes view expected t.1 t.2.2 := by
          rw [publishes, prepare_congr hrows hold, publishes]
        rw [attempt_bundles, hpub, hbun]
        split
        next =>
          rw [published, published, List.findSome?_append, Option.or_assoc]
          simp
        next => rfl
      · exact .inr hdone
    · rw [attempt_of_committed hdone]
      exact .inr hdone

end

def Numbered (s : Repository) : Prop :=
  ∀ view r evidence, s.revisions.get? (view, r) = some evidence →
    ∃ row, s.views.get? view = some row ∧ r ≤ row.latestRevision

section
variable {s t : Repository} {view : String} {expected : Nat} {c : Call} {now : Int} {fate : Fate}
  {d : Definition} {files : Files}

omit [Sha256] [Compiler] in
theorem Numbered.of_eq (hs : s.Numbered) (hv : t.views = s.views) (hr : t.revisions = s.revisions) : t.Numbered := by
  rw [Numbered, hr, hv]
  exact hs

omit [Sha256] [Compiler] in
theorem Numbered.set_view (hs : s.Numbered) {old : ViewRow} (row : ViewRow) (hold : s.views.get? view = some old)
    (hle : old.latestRevision ≤ row.latestRevision) : ({ s with views := s.views.set view row } : Repository).Numbered := by
  intro v r evidence hr
  obtain ⟨found, hfound, hr⟩ := hs v r evidence hr
  by_cases hv : v = view
  · subst hv
    rw [hold, Option.some.injEq] at hfound
    subst hfound
    exact ⟨row, Dict.get?_set_self _ _ _, hr.trans hle⟩
  · exact ⟨found, (Dict.get?_set_of_ne _ _ hv).trans hfound, hr⟩

omit [Sha256] [Compiler] in
theorem Numbered.add_revision (hs : s.Numbered) {row : ViewRow} (evidence : BundleEvidence) {r : Nat}
    (hrow : s.views.get? view = some row) (hr : r ≤ row.latestRevision) :
    ({ s with revisions := s.revisions.set (view, r) evidence } : Repository).Numbered := by
  intro v r' evidence' h
  rw [Dict.get?_set] at h
  split at h
  next hkey =>
    cases hkey
    exact ⟨row, hrow, hr⟩
  next => exact hs v r' evidence' h

omit [Sha256] [Compiler] in
theorem Numbered.commit {evidence : BundleEvidence} (hs : s.Numbered)
    (h : s.commit view expected c d evidence now = some t) :
    t.Numbered := by
  obtain ⟨row, hrow, hlat, _, ht⟩ := commit_cases h
  have hview := hs.set_view (commitRow row expected c d now) hrow (by rw [hlat]; exact Nat.le_succ _)
  have hrev := hview.add_revision evidence (r := expected + 1) (Dict.get?_set_self _ _ _) le_rfl
  rw [ht]
  exact hrev.of_eq rfl rfl

theorem Numbered.attempt (hs : s.Numbered) : (s.attempt view expected c now fate).1.Numbered := by
  rcases attempt_cases s view expected c now fate with ⟨_, he⟩ | ⟨d, files, _, _, hrest⟩
  · exact he ▸ hs
  rcases hrest with ⟨_, he⟩ | ⟨bundles, evidence, _, he | ⟨answers, u, _, hc, he⟩⟩
  · exact he ▸ hs
  · rw [he]
    exact hs.of_eq rfl rfl
  rw [he]
  have hs' : ({ s with bundles } : Repository).Numbered := hs.of_eq rfl rfl
  exact hs'.commit hc

omit [Compiler] in
theorem Numbered.create {surface : Surface} (hs : s.Numbered) (h : s.create view surface d now fate = some t) :
    t.Numbered := by
  rw [Repository.create.eq_def] at h
  split at h
  · cases h
  next hfre =>
  split at h
  · cases h
    exact hs
  split at h
  · cases h
    exact hs
  · cases h
    exact hs
  next files fate hent _ =>
  dsimp only at h
  split at h
  · cases h
    intro v r evidence hr
    rw [Dict.get?_set] at hr
    split at hr
    next hkey =>
      cases hkey
      exact ⟨_, Dict.get?_set_self _ _ _, le_rfl⟩
    next =>
      obtain ⟨row, hrow, hle⟩ := hs v r evidence hr
      have hne : v ≠ view := by
        intro hv
        rw [hv] at hrow
        rw [hrow] at hfre
        exact hfre rfl
      exact ⟨row, (Dict.get?_set_of_ne _ _ hne).trans hrow, hle⟩
  · cases h
    exact hs.of_eq rfl rfl

theorem Numbered.next {e : RevisionEvent} (hs : s.Numbered) (h : revisionNext s e = some t) :
    t.Numbered := by
  cases e with
  | creates view surface d now fate => exact hs.create h
  | attempts view expected c now fate =>
    cases h
    exact hs.attempt
  | deletes view expected =>
    rw [revisionNext.eq_def] at h
    dsimp only at h
    split at h
    next row hrow =>
      split at h
      · cases h
      · cases h
        exact hs.set_view _ hrow le_rfl
    next => cases h
  | resumesInline view expected expiresAt now =>
    rw [revisionNext.eq_def] at h
    dsimp only at h
    split at h
    next row hrow =>
      split at h
      · cases h
        exact hs.set_view _ hrow le_rfl
      · cases h
    next => cases h

theorem Numbered.run {es : List RevisionEvent} (h : Runs.run revisionNext {} es = some s) : s.Numbered :=
  Runs.invariant (fun _ _ _ hs he => hs.next he) (fun _ _ _ hr => by cases hr) ⟨es, h⟩

theorem Numbered.commits (hs : s.Numbered) (hp : s.prepare view expected c = some (d, files)) (evidence : BundleEvidence)
    (bundles : BundleStore) (now : Int) :
    ∃ row, s.views.get? view = some row ∧ ({ s with bundles } : Repository).commit view expected c d evidence now = some
        { s with
          views := s.views.set view (commitRow row expected c d now)
          revisions := s.revisions.set (view, expected + 1) evidence
          sources := s.sources.set (view, expected + 1) d.sources
          actions := s.actions.set (view, expected + 1) d.actions
          bundles := bundles } := by
  obtain ⟨row, hrow, hlat, hsta, _⟩ := prepare_cases hp
  have hfree : s.revisions.get? (view, expected + 1) = none := by
    by_contra hne
    obtain ⟨old, hold⟩ := ne_none_iff_exists'.mp hne
    obtain ⟨row', hrow', hle⟩ := hs view (expected + 1) old hold
    rw [hrow, Option.some.injEq] at hrow'
    rw [← hrow', hlat] at hle
    omega
  refine ⟨row, hrow, ?_⟩
  rw [Repository.commit]
  dsimp only
  rw [hfree, hrow]
  dsimp only
  rw [if_neg (by simp), if_pos]
  rw [hlat, decide_eq_true rfl, Bool.true_and, Bool.or_eq_true, decide_eq_true_eq]
  exact hsta

/-- A call that nothing interrupts installs its revision exactly if the place of the bundle is empty or holds its files. -/
theorem attempt_installs_iff (hs : s.Numbered) (hp : s.prepare view expected c = some (d, files)) :
    ((s.attempt view expected c now (.commits true)).2 = true ∧
      (s.attempt view expected c now (.commits true)).1.Installed view (expected + 1) d files) ↔
    (s.bundles.get? (view, expected + 1) = none ∨ s.bundles.get? (view, expected + 1) = some files) := by
  constructor
  · rintro ⟨_, hins⟩
    have hpub : s.publishes view expected c (.commits true) = some files := by
      rw [publishes, if_neg nofun, hp]
      rfl
    have hb := hins.bundle
    rw [attempt_bundles, if_pos rfl, hpub] at hb
    cases hget : s.bundles.get? (view, expected + 1) with
    | none => exact .inl rfl
    | some found =>
      rw [hget] at hb
      exact .inr hb
  intro hpla
  obtain ⟨bundles, hw⟩ := BundleStore.writeRevision_isSome hpla
  obtain ⟨row, hrow, hc⟩ := hs.commits hp (digest files) bundles now
  obtain ⟨_, _, _, _, hwri⟩ := prepare_cases hp
  have hbun : bundles.get? (view, expected + 1) = some files := by
    rw [(BundleStore.get?_writeRevision hw).2, if_pos rfl]
    rcases hpla with h | h <;> rw [h] <;> rfl
  simp only [attempt, hp, hw, hc]
  exact ⟨trivial, ⟨_, Dict.get?_set_self _ _ _, rfl⟩, Dict.get?_set_self _ _ _, Dict.get?_set_self _ _ _,
    Dict.get?_set_self _ _ _, hbun, hwri⟩

/-- After any calls with an expected revision, the next call with it that comes to write its bundle installs its
own definition exactly if none before it has left another bundle in the place. -/
theorem later_call_installs_iff {es : List RevisionEvent} (h : Runs.run revisionNext {} es = some s)
    (view : String) (expected : Nat) (tries : List Try) (c : Call) (now : Int)
    (hp : (s.tried view expected tries).prepare view expected c = some (d, files)) :
    (((s.tried view expected tries).attempt view expected c now (.commits true)).2 = true ∧
      ((s.tried view expected tries).attempt view expected c now (.commits true)).1.Installed view (expected + 1) d files) ↔
    (s.published view expected tries = none ∨ s.published view expected tries = some files) := by
  have htri : ∀ tries : List Try, (s.tried view expected tries).Numbered := by
    intro tries
    induction tries using List.reverseRecOn with
    | nil => exact Numbered.run h
    | append_singleton tries t ih =>
      rw [tried_concat]
      exact ih.attempt
  rw [attempt_installs_iff (htri tries) hp]
  rcases tried_cases s view expected tries with ⟨_, hbun⟩ | ⟨row, hrow, hlat⟩
  · rw [hbun, if_pos rfl]
  obtain ⟨row', hrow', hlat', _⟩ := prepare_cases hp
  rw [hrow, Option.some.injEq] at hrow'
  rw [← hrow', hlat] at hlat'
  omega

end

end Repository

end

def notesId : String := "5d41402abc4b2a76b9719d911017c592"

def dividerSpec : Json := .obj [("schemaVersion", .int 1), ("root", .obj [("type", .str "divider")])]

def divider (title : String) : Definition where
  title := title
  description := ""
  spec := dividerSpec

abbrev dividerDigest : Sha256 :=
  ⟨fun bytes =>
    if encodeUtf8 "Notes".toList <:+: bytes then "f0c570e1a1e38b65b36d70502050923b0475e0da8819ddaa0f554156d5767442"
    else if encodeUtf8 "Tasks".toList <:+: bytes then "561f0f40d1da4b978d2a66cd6f9c226441e318b004b30b0929d4d0a654e809e1"
    else if encodeUtf8 "Plans".toList <:+: bytes then "6247957ecf5ec74ce4957cf17c28929496cd45f054d044084a5bb3e93e465510"
    else ""⟩

abbrev dividerCompiler : Compiler where
  compile spec := if spec.canon = dividerSpec.canon then some dividerSpec else none
  loads bytes :=
    if encodeUtf8 "Notes".toList <:+: bytes then
      some (@manifest ⟨fun _ => ""⟩ (bundleOf notesId 1 .sidebar (divider "Notes")) [])
    else if encodeUtf8 "divider".toList <:+: bytes then some dividerSpec
    else none

def notesCreated : List RevisionEvent := [.creates notesId .sidebar (divider "Notes") 0 (.commits true)]

def retitle (title : String) : Call := .update { title := some title }

/-- The same update after it has failed finds its own files in place. -/
theorem retried_call_installs : ∃ s d files,
    Runs.run (@revisionNext dividerCompiler dividerDigest) {} notesCreated = some s ∧
    (@Repository.attempt dividerCompiler dividerDigest
      (@Repository.tried dividerDigest dividerCompiler s notesId 1 [(retitle "Tasks", 1, .late)]) notesId 1 (retitle "Tasks") 2
      (.commits true)).2 = true ∧
    @Repository.Installed dividerDigest (@Repository.attempt dividerCompiler dividerDigest
      (@Repository.tried dividerDigest dividerCompiler s notesId 1 [(retitle "Tasks", 1, .late)]) notesId 1 (retitle "Tasks") 2
      (.commits true)).1 notesId 2 d files := by
  have hrun : (Runs.run (@revisionNext dividerCompiler dividerDigest) {} notesCreated).any (fun s =>
      let t := @Repository.tried dividerDigest dividerCompiler s notesId 1 [(retitle "Tasks", 1, .late)]
      (@Repository.prepare dividerCompiler dividerDigest t notesId 1 (retitle "Tasks")).any (fun r =>
        @Repository.published dividerDigest dividerCompiler s notesId 1 [(retitle "Tasks", 1, .late)] = some r.2)) = true := by
    decide +kernel
  obtain ⟨s, hs, htest⟩ := (any_eq_true _ _).mp hrun
  obtain ⟨⟨d, files⟩, hp, hpub⟩ := (any_eq_true _ _).mp htest
  have h := (@Repository.later_call_installs_iff dividerDigest dividerCompiler s d files notesCreated hs notesId 1
    [(retitle "Tasks", 1, .late)] (retitle "Tasks") 2 hp).mpr (.inr (of_decide_eq_true hpub))
  exact ⟨s, d, files, hs, h.1, h.2⟩

/-- After a failed update, another one raises although nothing hinders its transaction. -/
theorem later_call_blocked : ∃ s d files,
    Runs.run (@revisionNext dividerCompiler dividerDigest) {} notesCreated = some s ∧
    @Repository.prepare dividerCompiler dividerDigest
      (@Repository.tried dividerDigest dividerCompiler s notesId 1 [(retitle "Tasks", 1, .late)]) notesId 1 (retitle "Plans") =
      some (d, files) ∧
    (@Repository.attempt dividerCompiler dividerDigest
      (@Repository.tried dividerDigest dividerCompiler s notesId 1 [(retitle "Tasks", 1, .late)]) notesId 1 (retitle "Plans") 2
      (.commits true)).2 = false := by
  have hrun : (Runs.run (@revisionNext dividerCompiler dividerDigest) {} notesCreated).any (fun s =>
      let t := @Repository.tried dividerDigest dividerCompiler s notesId 1 [(retitle "Tasks", 1, .late)]
      (@Repository.prepare dividerCompiler dividerDigest t notesId 1 (retitle "Plans")).isSome &&
        !(@Repository.attempt dividerCompiler dividerDigest t notesId 1 (retitle "Plans") 2 (.commits true)).2) = true := by
    decide +kernel
  obtain ⟨s, hs, htest⟩ := (any_eq_true _ _).mp hrun
  rw [Bool.and_eq_true] at htest
  obtain ⟨⟨d, files⟩, hp⟩ := isSome_iff_exists.mp htest.1
  exact ⟨s, d, files, hs, hp, by simpa using htest.2⟩

end OpenAgent.Dashboards
