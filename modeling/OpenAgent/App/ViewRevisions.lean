import OpenAgent.App.UIViews

namespace OpenAgent.App.Views

open Py Option Runs

def UIDataEntry.stamp (e : UIDataEntry) : ℕ ×ₗ ℕ ×ₗ ℕ := toLex (e.generation, toLex (e.sequence, e.version))

/-- By generation, sequence and version. -/
instance : Preorder UIDataEntry := Preorder.lift UIDataEntry.stamp

variable {a b : UIDataEntry}

theorem UIDataEntry.le_iff : a ≤ b ↔ a.generation < b.generation ∨ a.generation = b.generation ∧
    (a.sequence < b.sequence ∨ a.sequence = b.sequence ∧ a.version ≤ b.version) := by
  change toLex (a.generation, toLex (a.sequence, a.version)) ≤ toLex (b.generation, toLex (b.sequence, b.version)) ↔ _
  rw [Prod.Lex.toLex_le_toLex, Prod.Lex.toLex_le_toLex]

theorem le_of_newer (h : dataEntryIsNewer a b = true) : b ≤ a := by
  rw [UIDataEntry.le_iff]
  rw [dataEntryIsNewer] at h
  split_ifs at h with hgen hsequ hver
  · exact .inl (of_decide_eq_true h)
  · exact .inr ⟨(not_not.mp hgen).symm, .inl (of_decide_eq_true h)⟩
  · exact .inr ⟨(not_not.mp hgen).symm, .inr ⟨(not_not.mp hsequ).symm, Nat.le_of_lt (of_decide_eq_true h)⟩⟩
  · exact .inr ⟨(not_not.mp hgen).symm, .inr ⟨(not_not.mp hsequ).symm, Nat.le_of_eq (not_not.mp hver).symm⟩⟩

theorem le_of_not_newer (h : dataEntryIsNewer a b = false) : a ≤ b := by
  rw [UIDataEntry.le_iff]
  rw [dataEntryIsNewer] at h
  split_ifs at h with hgen hsequ hver
  · have hle := of_decide_eq_false h
    omega
  · have hle := of_decide_eq_false h
    omega
  · have hle := of_decide_eq_false h
    omega
  · omega

namespace UIView

def Advances (v w : UIView) : Prop := v.revision < w.revision ∨ v.revision = w.revision ∧ v.data.Grows w.data

theorem Advances.refl (v : UIView) : v.Advances v := .inr ⟨rfl, Dict.Grows.refl v.data⟩

theorem Advances.trans {u v w : UIView} (huv : u.Advances v) (hvw : v.Advances w) : u.Advances w := by
  rcases huv with huv | ⟨huv, hgro⟩
  · rcases hvw with hvw | ⟨hvw, -⟩
    · exact .inl (huv.trans hvw)
    · exact .inl (hvw ▸ huv)
  rcases hvw with hvw | ⟨hvw, hgro'⟩
  · exact .inl (huv ▸ hvw)
  · exact .inr ⟨huv.trans hvw, hgro.trans hgro'⟩

end UIView

theorem grows_set_of_le {κ α : Type} [DecidableEq κ] [Preorder α] {d : Dict κ α} {k : κ} {w : α}
    (h : ∀ v, d.get? k = some v → v ≤ w) : d.Grows (d.set k w) := by
  intro j v hv
  rw [Dict.get?_set]
  split
  · next hj =>
      rw [hj] at hv
      exact ⟨w, rfl, h v hv⟩
  · exact ⟨v, hv, le_rfl⟩

@[simp] theorem preserve_id (v : UIView) (current : Option UIView) : (preserveNewerData v current).id = v.id := by
  rw [preserveNewerData.eq_def]
  split
  · split <;> rfl
  · rfl

@[simp] theorem preserve_revision (v : UIView) (current : Option UIView) :
    (preserveNewerData v current).revision = v.revision := by
  rw [preserveNewerData.eq_def]
  split
  · split <;> rfl
  · rfl

theorem advances_preserve {v c : UIView} (hid : c.id = v.id) (hrev : c.revision ≤ v.revision) :
    c.Advances (preserveNewerData v (some c)) := by
  rw [UIView.Advances, preserve_revision]
  rcases Nat.lt_or_eq_of_le hrev with hlt | heq
  · exact .inl hlt
  refine .inr ⟨heq, ?_⟩
  intro key entry hent
  rw [preserveNewerData, if_neg (by rw [not_or, not_not, not_not]; exact ⟨hid, heq⟩)]
  rw [Dict.get?_update, Dict.get?_filter, hent]
  cases hinc : v.data.get? key with
  | none => exact ⟨entry, by simp, le_rfl⟩
  | some incoming =>
    cases hnewe : dataEntryIsNewer entry incoming with
    | true => exact ⟨entry, by simp [Option.filter, hnewe], le_rfl⟩
    | false => exact ⟨incoming, by simp [Option.filter, hnewe], le_of_not_newer hnewe⟩

namespace ViewStore

def Keyed (s : ViewStore) : Prop :=
  ∀ id pinned v, s.views.get? (id, pinned) = some v → v.id = id ∧ ∀ r, pinned = some r → v.revision = r

def Forward (s t : ViewStore) : Prop :=
  ∀ key v w, s.views.get? key = some v → t.views.get? key = some w → v.Advances w

def Current (s : ViewStore) : Event → Prop
  | .view n (some view) => ∀ viewId, s.requests[n]? = some (.reactivate viewId) →
      ∀ c, s.views.get? (view.id, none) = some c → c.Advances view
  | _ => True

def Removes (s : ViewStore) : Event → Prop
  | .error _ _ => True
  | .snapshot subscriptionId view => ∃ sub, s.subscriptionById subscriptionId = some sub ∧ mismatched sub view = true
  | _ => False

variable {sortViews : List UIViewSummary → List UIViewSummary} {s t : ViewStore}

structure Writes (s t : ViewStore) (key : CacheKey) (v : UIView) : Prop where
  views : ∀ j, t.views.get? j = if j = key then some (preserveNewerData v (s.views.get? key)) else s.views.get? j
  id : v.id = key.1
  pinned : ∀ r, key.2 = some r → v.revision = r
  latest : key.2 = none → ∀ c, s.views.get? key = some c → c.revision ≤ v.revision

/-- A step after which entries are under their keys, have advanced and are all there. -/
structure Kept (s t : ViewStore) : Prop where
  keyed : t.Keyed
  forward : Forward s t
  cached : ∀ j, (s.views.get? j).isSome = true → (t.views.get? j).isSome = true

theorem Kept.of_views (h : s.Keyed) (hvie : t.views = s.views) : Kept s t where
  keyed := by
    rw [Keyed, hvie]
    exact h
  forward key v w hv hw := by
    rw [hvie, hv] at hw
    cases hw
    exact .refl v
  cached j hj := by
    rw [hvie]
    exact hj

theorem Kept.trans {u : ViewStore} (hst : Kept s t) (htu : Kept t u) : Kept s u where
  keyed := htu.keyed
  forward key v w hv hw := by
    obtain ⟨x, hx⟩ := isSome_iff_exists.mp (hst.cached key (by rw [hv]; rfl))
    exact (hst.forward key v x hv hx).trans (htu.forward key x w hx hw)
  cached j hj := htu.cached j (hst.cached j hj)

theorem Writes.kept (key : CacheKey) {v : UIView} (hk : s.Keyed) (h : Writes s t key v) : Kept s t where
  keyed id pinned w hw := by
    rw [h.views] at hw
    split at hw
    · next heq =>
        cases hw
        rw [preserve_id, preserve_revision, h.id, ← heq]
        exact ⟨rfl, fun r hr => h.pinned r (by rw [← heq]; exact hr)⟩
    · exact hk id pinned w hw
  forward j c w hc hw := by
    rw [h.views] at hw
    split at hw
    · next heq =>
        cases hw
        rw [heq] at hc
        obtain ⟨hid, hrev⟩ := hk key.1 key.2 c hc
        rw [hc]
        refine advances_preserve (hid.trans h.id.symm) ?_
        cases hpin : key.2 with
        | none => exact h.latest hpin c hc
        | some r => exact Nat.le_of_eq ((hrev r hpin).trans (h.pinned r hpin).symm)
    rw [hc] at hw
    cases hw
    exact .refl c
  cached j hj := by
    rw [h.views]
    split
    · rfl
    · exact hj

theorem loadView_views (s : ViewStore) (viewId : String) (pinnedRevision : Option Nat) (force : Bool) :
    (s.loadView viewId pinnedRevision force).views = s.views := by
  rw [loadView]
  split <;> rfl

theorem subscribe_views (s : ViewStore) (viewId : String) (revision : Option Nat) :
    (s.subscribe viewId revision).views = s.views := by
  rw [subscribe, loadView_views]
  split <;> rfl

theorem dispose_views (s : ViewStore) (viewId : String) (revision : Option Nat) :
    (s.dispose viewId revision).views = s.views := by
  rw [dispose]
  split
  · split <;> rfl
  · rfl

theorem viewChanged_views (s : ViewStore) (viewId : String) (revision : Nat) :
    (s.viewChanged viewId revision).views = s.views := by
  rw [viewChanged]
  split
  · rfl
  dsimp only [request]
  split
  · exact loadView_views s viewId none true
  · rfl

theorem acceptSnapshot_kept (hk : s.Keyed) {pinned : Option Nat} {view : UIView}
    (hpin : ∀ r, pinned = some r → view.revision = r)
    (hlat : pinned = none → ∀ c, s.views.get? (view.id, none) = some c → c.revision ≤ view.revision) :
    Kept s (s.acceptSnapshot sortViews pinned view) := by
  cases pinned with
  | some r =>
    have hr := hpin r rfl
    refine Writes.kept (view.id, some r) hk
      ⟨fun j => ?_, preserve_id view (s.views.get? (view.id, some r)), fun q hq => ?_, fun hn => (by cases hn)⟩
    · rw [acceptSnapshot]
      rw [hr, Dict.get?_set, Dict.get?_set]
      split <;> rfl
    · cases hq
      rw [preserve_revision, hr]
  | none =>
    have hfir : Writes s { s with
        views := s.views.set (view.id, none) (preserveNewerData view (s.views.get? (view.id, none))) }
        (view.id, none) view :=
      ⟨fun j => Dict.get?_set _ _ _ _, rfl, fun r hr => (by cases hr), hlat⟩
    have hkept := hfir.kept (view.id, none) hk
    refine hkept.trans (Writes.kept (view.id, some view.revision) hkept.keyed
      ⟨fun j => ?_, preserve_id view (s.views.get? (view.id, none)), fun q hq => ?_, fun hn => (by cases hn)⟩)
    · rw [acceptSnapshot]
      rw [Dict.get?_set]
      have hne : (view.id, some view.revision) ≠ (view.id, none) := by simp
      rw [Dict.get?_set_of_ne _ _ hne]
    · cases hq
      exact preserve_revision view (s.views.get? (view.id, none))

theorem not_any_lt {o : Option UIView} {n : Nat} (h : ¬ (o.any fun c => decide (c.revision > n)) = true) {c : UIView}
    (hc : o = some c) : c.revision ≤ n := by
  rw [hc] at h
  exact Nat.le_of_not_lt fun hlt => h (decide_eq_true hlt)

theorem erase_safe (hk : s.Keyed) (key : CacheKey) :
    Keyed { s with views := s.views.erase key } ∧ Forward s { s with views := s.views.erase key } := by
  have hsub : ∀ j w, (s.views.erase key).get? j = some w → s.views.get? j = some w := by
    intro j w hw
    rw [Dict.get?_erase] at hw
    split at hw
    · cases hw
    · exact hw
  refine ⟨fun id pinned w hw => hk id pinned w (hsub _ w hw), fun j v w hv hw => ?_⟩
  cases hv.symm.trans (hsub j w hw)
  exact .refl v

theorem snapshot_kept (hk : s.Keyed) (subscriptionId : Option String) (view : UIView)
    (hmat : ¬ s.Removes (.snapshot subscriptionId view)) : Kept s (s.snapshot sortViews subscriptionId view) := by
  rw [snapshot]
  split
  · next sub hsub =>
      rw [if_neg (fun hmis => hmat ⟨sub, hsub, hmis⟩)]
      split
      · exact .of_views hk rfl
      next hcur =>
        have hmark : Kept s (s.markSequences sub.subscriptionId view.data) := .of_views hk rfl
        refine hmark.trans (acceptSnapshot_kept hmark.keyed ?_ ?_)
        · intro r hr
          by_contra hne
          refine hmat ⟨sub, hsub, ?_⟩
          rw [mismatched, hr]
          simp [hne]
        intro hnone c hc
        rw [hnone, isNone_none, Bool.true_and] at hcur
        exact not_any_lt hcur hc
  split
  · exact .of_views hk rfl
  · next hcur =>
      exact acceptSnapshot_kept hk (fun r hr => by cases hr) fun _ c hc => not_any_lt hcur hc

theorem applyEntry_kept (hk : s.Keyed) (viewId key : String) (entry : UIDataEntry) :
    Kept s (s.applyEntry viewId key entry) := by
  have hget : ∀ j, (s.applyEntry viewId key entry).views.get? j = (s.views.get? j).map fun current =>
      if j.1 = viewId ∧ (current.data.get? key).all (dataEntryIsNewer entry ·) then
        { current with data := current.data.set key entry }
      else current := fun j => Dict.get?_mapEntries _ _ j
  have hadv : ∀ (j : CacheKey) (v : UIView), v.Advances
      (if j.1 = viewId ∧ (v.data.get? key).all (dataEntryIsNewer entry ·) then
        { v with data := v.data.set key entry } else v) := by
    intro j v
    split
    · next hnewe =>
        refine .inr ⟨rfl, grows_set_of_le fun prior hpri => ?_⟩
        rw [hpri] at hnewe
        exact le_of_newer hnewe.2
    · exact .refl v
  refine ⟨fun id pinned w hw => ?_, fun j v w hv hw => ?_, fun j hj => ?_⟩
  · rw [hget] at hw
    obtain ⟨v, hv, rfl⟩ := map_eq_some_iff.mp hw
    split
    · exact hk id pinned v hv
    · exact hk id pinned v hv
  · rw [hget, hv] at hw
    cases hw
    exact hadv j v
  · rw [hget, isSome_map]
    exact hj

theorem dataFrame_kept (hk : s.Keyed) (viewId : String) (subscriptionId : Option String) (key : String)
    (entry : UIDataEntry) : Kept s (s.dataFrame viewId subscriptionId key entry) := by
  have happ : ∀ u : ViewStore, u.views = s.views → Kept s (u.applyEntry viewId key entry) := by
    intro u hu
    have hkept : Kept s u := .of_views hk hu
    exact hkept.trans (applyEntry_kept hkept.keyed viewId key entry)
  rw [dataFrame]
  split
  · exact .of_views hk rfl
  apply happ
  split_ifs
  · exact loadView_views s viewId ((s.subscriptionById subscriptionId).bind ActiveSubscription.revision) true
  · rfl
  · exact loadView_views s viewId ((s.subscriptionById subscriptionId).bind ActiveSubscription.revision) true
  · rfl

theorem viewLoaded_kept (hk : s.Keyed) (viewId : String) (pinnedRevision : Option Nat) (answer : Option UIView) :
    Kept s (s.viewLoaded sortViews viewId pinnedRevision answer) := by
  rw [viewLoaded.eq_def]
  split
  · next normalized =>
      split
      · exact .of_views hk rfl
      next hsame =>
        rw [not_or, not_not] at hsame
        dsimp only
        split
        · exact .of_views hk rfl
        next hcur =>
          refine Writes.kept (viewId, pinnedRevision) (v := normalized) hk
            ⟨fun j => Dict.get?_set _ _ _ _, hsame.1, fun r hr => ?_, fun hnone c hc => ?_⟩
          · have hnot := hsame.2
            rw [show pinnedRevision = some r from hr] at hnot
            by_contra hne
            exact hnot (decide_eq_true hne)
          rw [show pinnedRevision = none from hnone, isNone_none, Bool.true_and] at hcur
          rw [show pinnedRevision = none from hnone] at hc
          exact not_any_lt hcur hc
  · exact .of_views hk rfl

variable (sortViews) in
theorem reactivated_forward_iff (hk : s.Keyed) (view : UIView) : (s.reactivated sortViews (some view)).Keyed ∧
    (Forward s (s.reactivated sortViews (some view)) ↔ ∀ c, s.views.get? (view.id, none) = some c → c.Advances view) ∧
    ∀ j, (s.views.get? j).isSome = true → ((s.reactivated sortViews (some view)).views.get? j).isSome = true := by
  have hget : ∀ j, (s.reactivated sortViews (some view)).views.get? j =
      if j = (view.id, none) then some view else s.views.get? j := fun j => Dict.get?_set _ _ _ _
  refine ⟨fun id pinned w hw => ?_, ⟨fun h c hc => ?_, fun h j v w hv hw => ?_⟩, fun j hj => ?_⟩
  · rw [hget] at hw
    split at hw
    · next heq =>
        cases hw
        cases heq
        exact ⟨rfl, fun r hr => by cases hr⟩
    · exact hk id pinned w hw
  · exact h (view.id, none) c view hc (by rw [hget, if_pos rfl])
  · rw [hget] at hw
    split at hw
    · next heq =>
        cases hw
        exact h v (heq ▸ hv)
    · cases hv.symm.trans hw
      exact .refl v
  · rw [hget]
    split
    · rfl
    · exact hj

theorem next_safe {e : Event} (hk : s.Keyed) (he : s.next sortViews e = some t) : t.Keyed ∧
    (Forward s t ↔ s.Current e) ∧ ∀ j, (s.views.get? j).isSome = true → s.Removes e ∨ (t.views.get? j).isSome = true := by
  have hsafe : Kept s t → s.Current e → t.Keyed ∧ (Forward s t ↔ s.Current e) ∧
      ∀ j, (s.views.get? j).isSome = true → s.Removes e ∨ (t.views.get? j).isSome = true :=
    fun h hc => ⟨h.keyed, iff_of_true h.forward hc, fun j hj => .inr (h.cached j hj)⟩
  cases e with
  | subscribes viewId revision =>
    cases he
    exact hsafe (.of_views hk (subscribe_views s viewId revision)) trivial
  | disposes viewId revision =>
    cases he
    exact hsafe (.of_views hk (dispose_views s viewId revision)) trivial
  | loads viewId pinnedRevision force =>
    cases he
    exact hsafe (.of_views hk (loadView_views s viewId pinnedRevision force)) trivial
  | reactivates _ | refreshes =>
    cases he
    exact hsafe (.of_views hk rfl) trivial
  | snapshot subscriptionId view =>
    cases he
    by_cases hmis : s.Removes (.snapshot subscriptionId view)
    · obtain ⟨sub, hsub, hmism⟩ := hmis
      have hera : s.snapshot sortViews subscriptionId view =
          { s with views := s.views.erase (sub.viewId, sub.revision) } := by
        rw [snapshot, hsub]
        exact if_pos hmism
      rw [hera]
      obtain ⟨hkeye, hfor⟩ := erase_safe hk (sub.viewId, sub.revision)
      exact ⟨hkeye, iff_of_true hfor trivial, fun j _ => .inl ⟨sub, hsub, hmism⟩⟩
    · exact hsafe (snapshot_kept hk subscriptionId view hmis) trivial
  | data viewId subscriptionId key entry =>
    cases he
    exact hsafe (dataFrame_kept hk viewId subscriptionId key entry) trivial
  | changed viewId revision =>
    cases he
    exact hsafe (.of_views hk (viewChanged_views s viewId revision)) trivial
  | error viewId subscriptionId =>
    cases he
    rw [viewError]
    split
    · next id hid =>
        obtain ⟨hkeye, hfor⟩ :=
          erase_safe hk (id, (s.subscriptionById subscriptionId).bind ActiveSubscription.revision)
        exact ⟨hkeye, iff_of_true hfor trivial, fun _ _ => .inl trivial⟩
    · have hsame : Kept s s := .of_views hk rfl
      exact ⟨hk, iff_of_true hsame.forward trivial, fun _ _ => .inl trivial⟩
  | view n answer =>
    rw [next.eq_def] at he
    dsimp only at he
    split at he
    · next viewId pinnedRevision hn =>
        cases he
        have hdrop : Kept s { s with requests := s.requests.eraseIdx n } := .of_views hk rfl
        refine hsafe (hdrop.trans (viewLoaded_kept hdrop.keyed viewId pinnedRevision answer)) ?_
        cases answer with
        | none => trivial
        | some view =>
          intro id hid
          rw [hn] at hid
          cases hid
    · next viewId hn =>
        cases he
        cases answer with
        | none => exact hsafe (.of_views hk rfl) trivial
        | some view =>
          have hdrop : Keyed { s with requests := s.requests.eraseIdx n } := hk
          obtain ⟨hkeye, hfor, hcac⟩ := reactivated_forward_iff sortViews hdrop view
          refine ⟨hkeye, ?_, fun j hj => .inr (hcac j hj)⟩
          constructor
          · exact fun h _ _ => hfor.mp h
          · exact fun h => hfor.mpr (h viewId hn)
    · cases he
  | list n answer =>
    rw [next.eq_def] at he
    dsimp only at he
    split at he
    · cases he
      exact hsafe (.of_views hk rfl) trivial
    · cases he

/-- Whatever stays cached advances at each step exactly where no answer to a reactivation is behind what is cached; then
it advances until it is removed, by an error of the view or a snapshot of another one; a pinned revision stays. -/
theorem views_advance (accountId : String) (es : List Event) (s : ViewStore)
    (h : Runs.run (next sortViews) { accountId } es = some s) :
    ((∀ pre e post u v, es = pre ++ e :: post → Runs.run (next sortViews) { accountId } pre = some u →
        u.next sortViews e = some v → Forward u v) ↔ Runs.Meets (next sortViews) Current { accountId } es) ∧
    (Runs.Meets (next sortViews) Current { accountId } es → ∀ pre mid post u v key c w, es = pre ++ (mid ++ post) →
      Runs.run (next sortViews) { accountId } pre = some u → Runs.run (next sortViews) u mid = some v →
      (∀ fore rest x, mid = fore ++ rest → Runs.run (next sortViews) u fore = some x →
        (x.views.get? key).isSome = true) →
      u.views.get? key = some c → v.views.get? key = some w → c.Advances w) ∧
    (∀ pre e post u v key, es = pre ++ e :: post → Runs.run (next sortViews) { accountId } pre = some u →
      u.next sortViews e = some v → (u.views.get? key).isSome = true → u.Removes e ∨ (v.views.get? key).isSome = true) ∧
    ∀ id r v, s.views.get? (id, some r) = some v → v.id = id ∧ v.revision = r := by
  have hini : Keyed { accountId } := fun id pinned v hv => by cases hv
  have hkeye : ∀ {fs u}, run (next sortViews) { accountId } fs = some u → u.Keyed :=
    fun hr => invariant (fun _ _ _ hk he => (next_safe hk he).1) hini ⟨_, hr⟩
  have hstep : ∀ {fs u e v}, run (next sortViews) { accountId } fs = some u → u.next sortViews e = some v →
      (Forward u v ↔ u.Current e) := fun hr he => (next_safe (hkeye hr) he).2.1
  refine ⟨⟨fun hall pre e post u hes hu => ?_, fun hmee pre e post u v hes hu he => ?_⟩, ?_, ?_, ?_⟩
  · rw [hes, run_append, hu, bind_some, run_cons, bind_eq_some_iff] at h
    obtain ⟨v, hv, -⟩ := h
    exact (hstep hu hv).mp (hall pre e post u v hes hu hv)
  · exact (hstep hu he).mpr (hmee pre e post u hes hu)
  · -- along the stretch, one step after the other
    intro hmee pre mid post u v key c w hes hu hv hcac hc hw
    induction mid using List.reverseRecOn generalizing post v w with
    | nil =>
      cases hv
      cases hc.symm.trans hw
      exact .refl c
    | append_singleton mid e ih =>
      obtain ⟨x, hx, he⟩ := run_concat hv
      obtain ⟨b, hb⟩ := isSome_iff_exists.mp (hcac mid [e] x rfl hx)
      have hrea : run (next sortViews) { accountId } (pre ++ mid) = some x := by
        rw [run_append, hu]
        exact hx
      have hcb : c.Advances b := by
        refine ih (e :: post) x b (by rw [hes]; simp) hx (fun fore rest y hy hr => ?_) hb
        exact hcac fore (rest ++ [e]) y (by rw [hy]; simp) hr
      have hcur : x.Current e := hmee (pre ++ mid) e post x (by rw [hes]; simp) hrea
      exact hcb.trans ((hstep hrea he).mpr hcur key b w hb hw)
  · exact fun pre e post u v key hes hu he hj => (next_safe (hkeye hu) he).2.2 key hj
  · exact fun id r v hv => ⟨(hkeye h id (some r) v hv).1, (hkeye h id (some r) v hv).2 r rfl⟩

def currentTest (s : ViewStore) : Event → Bool
  | .view n (some view) =>
    match s.requests[n]? with
    | some (.reactivate _) => (s.views.get? (view.id, none)).all fun c => c.revision < view.revision
    | _ => true
  | _ => true

theorem current_of_test {e : Event} (h : s.currentTest e = true) : s.Current e := by
  cases e with
  | view n answer =>
    cases answer with
    | none => trivial
    | some view =>
      intro viewId hn c hc
      rw [currentTest, hn] at h
      rw [hc] at h
      exact .inl (of_decide_eq_true h)
  | _ => trivial

def boardView (revision : Nat) : UIView :=
  { id := "b0a4d", surface := .sidebar, revision, status := .active, data := Dict.empty }

def reactivationRun : List Event :=
  [.loads "b0a4d" none false, .view 0 (some (boardView 1)), .reactivates "b0a4d", .view 0 (some (boardView 2))]

theorem reactivationRun_advances : ∃ s, Runs.run (next id) { accountId := "acct" } reactivationRun = some s ∧
    ∀ pre mid post u v key c w, reactivationRun = pre ++ (mid ++ post) →
      Runs.run (next id) { accountId := "acct" } pre = some u → Runs.run (next id) u mid = some v →
      (∀ fore rest x, mid = fore ++ rest → Runs.run (next id) u fore = some x → (x.views.get? key).isSome = true) →
      u.views.get? key = some c → v.views.get? key = some w → c.Advances w := by
  have hrun : (run (next id) { accountId := "acct" } reactivationRun).isSome = true := by decide +kernel
  obtain ⟨s, hs⟩ := isSome_iff_exists.mp hrun
  have hall : all currentTest (next id) { accountId := "acct" } reactivationRun = true := by decide +kernel
  exact ⟨s, hs, (views_advance "acct" reactivationRun s hs).2.1 (meets_of_all (fun _ _ => current_of_test) hall)⟩

/-- The view is updated while the answer is on its way, and the snapshot of the update comes first. -/
theorem reactivation_goes_back : ¬ ∀ (accountId : String) (es : List Event) (e : Event) (s t : ViewStore),
    Runs.run (next id) { accountId } es = some s → s.next id e = some t → Forward s t := by
  intro hcla
  have hrun : (run (next id) { accountId := "acct" }
      [.reactivates "b0a4d", .snapshot none (boardView 3)]).any (fun s =>
        (s.views.get? ("b0a4d", none)).map (fun v => v.revision) = some 3 &&
          (s.next id (.view 0 (some (boardView 2)))).any fun t =>
            (t.views.get? ("b0a4d", none)).map (fun v => v.revision) = some 2) = true := by decide +kernel
  obtain ⟨s, hs, hend⟩ := (any_eq_true _ _).mp hrun
  rw [Bool.and_eq_true] at hend
  obtain ⟨t, ht, hback⟩ := (any_eq_true _ _).mp hend.2
  obtain ⟨v, hv, hthr⟩ := map_eq_some_iff.mp (of_decide_eq_true hend.1)
  obtain ⟨w, hw, htwo⟩ := map_eq_some_iff.mp (of_decide_eq_true hback)
  rcases hcla "acct" _ _ s t hs ht _ v w hv hw with hlt | ⟨heq, -⟩
  · omega
  · omega

end ViewStore

end OpenAgent.App.Views
