import OpenAgent.Dashboards.LiveData

namespace OpenAgent.Dashboards

open Py List Option LiveRuntime Dict

@[simp] theorem Datum.order_wire (d : Datum) (now : Int) : (d.wire now).order = d.order := rfl

theorem Commit.order_row {c : Commit} {old row : Datum} {stored : Option Datum} {now : Int}
    (h : c.row stored now = some row) (hs : stored = some old) : old.order < row.order := by
  subst hs
  rw [Commit.row] at h
  split at h
  · cases h
  · obtain ⟨value, _, rfl⟩ := map_eq_some_iff.mp h
    exact Prod.Lex.toLex_lt_toLex.mpr (.inr ⟨rfl, Nat.lt_succ_self _⟩)

namespace LiveRuntime

def top (s : LiveRuntime) (k : SourceKey) : Option Datum := (s.live.get? k).or (s.stored.get? k)

def Dominated (s : LiveRuntime) (k : SourceKey) (d : Stamped) : Prop :=
  ∃ c, s.top k = some c ∧ (d.wire.order < c.order ∨ d.wire = c.wire d.now)

def Covers (s : LiveRuntime) (sub : SubscriptionKey) (view name : String) (d : Datum) (o : Opening) : Prop :=
  (∃ e, o.snapshot name = some e ∧ e.wire = d.wire e.now) ∨
  (∃ f ∈ s.sent.drop o.since, f.sub = sub ∧ f.view = view ∧ f.key = name ∧ f.data.wire = d.wire f.data.now) ∨
  (∃ f, Stage.fans f ∈ s.stages ∧ f.data = some (name, d) ∧ f.view = view ∧ (sub ∈ f.rest ∨ sub ∈ f.dead))

structure Opens (s : LiveRuntime) (view : String) (o : Opening) : Prop where
  since : o.since ≤ s.sent.length
  snapshot : ∀ name d, o.snapshot name = some d → s.Dominated (view, name) d

def Fits (s : LiveRuntime) : Stage → Prop
  | .sends _ view _ _ snapshot since => s.Opens view ⟨snapshot, since⟩
  | .composes _ view rows =>
    ∀ name d, rows name = some d → s.live.get? (view, name) = none → s.Dominated (view, name) d
  | .fans f => ∀ name d now, f.data = some (name, d) → s.Dominated (f.view, name) ⟨d.wire now, now⟩
  | .flushes k _ _ => (s.live.get? k).isSome = true
  | _ => True

structure Consistent (s : LiveRuntime) : Prop where
  indexed : s.subscriptions.Indexed
  opens : ∀ key sub, s.subscriptions.all.get? key = some sub → s.Opens sub.viewId (s.opening key)
  pending : ∀ k d, s.pending.get? k = some d → (s.live.get? k).isSome = true
  sent : ∀ f ∈ s.sent, s.Dominated (f.view, f.key) f.data
  fits : ∀ x ∈ s.stages, s.Fits x
  covered : ∀ key sub name d, s.subscriptions.all.get? key = some sub →
    s.live.get? (sub.viewId, name) = some d → s.Covers key sub.viewId name d (s.opening key)

variable {s t : LiveRuntime} {n : Nat} {k : SourceKey}

structure Rises (s t : LiveRuntime) : Prop where
  top : ∀ k c, s.top k = some c → ∃ c', t.top k = some c' ∧ (c' = c ∨ c.order < c'.order)
  live : ∀ k, (s.live.get? k).isSome = true → (t.live.get? k).isSome = true
  sent : s.sent.length ≤ t.sent.length

theorem Rises.of_eq (hl : t.live = s.live) (hs : t.stored = s.stored) (hn : t.sent = s.sent) : Rises s t where
  top := fun _ c hc => ⟨c, by rw [LiveRuntime.top, hl, hs]; exact hc, .inl rfl⟩
  live := fun _ h => by rw [hl]; exact h
  sent := by rw [hn]

theorem Dominated.rises {d : Stamped} (h : s.Dominated k d) (hr : Rises s t) : t.Dominated k d := by
  obtain ⟨c, hc, hd⟩ := h
  obtain ⟨c', hc', rfl | hlt⟩ := hr.top k c hc
  · exact ⟨c', hc', hd⟩
  refine ⟨c', hc', .inl ?_⟩
  rcases hd with hd | hd
  · exact hd.trans hlt
  · rw [hd, Datum.order_wire]
    exact hlt

theorem Opens.rises {view : String} {o : Opening} (h : s.Opens view o) (hr : Rises s t) : t.Opens view o where
  since := h.since.trans hr.sent
  snapshot := fun name d hd => (h.snapshot name d hd).rises hr

variable {x : Stage}

theorem Fits.rises (h : s.Fits x) (hr : Rises s t) : t.Fits x := by
  cases x with
  | sends => exact Opens.rises h hr
  | composes sub view rows =>
    intro name d hd hl
    refine (h name d hd ?_).rises hr
    cases hs : s.live.get? (view, name) with
    | none => rfl
    | some c =>
      have hsome := hr.live (view, name) (by rw [hs]; rfl)
      rw [hl] at hsome
      cases hsome
  | fans f => exact fun name d now hd => (h name d now hd).rises hr
  | flushes k d c => exact hr.live k h
  | reads | touches | locks | loads | writes | written | done => trivial

theorem top_of_live {c : Datum} (h : s.live.get? k = some c) : s.top k = some c := by rw [top, h]; rfl

theorem dominated_self {c : Datum} (h : s.top k = some c) (now : Int) : s.Dominated k ⟨c.wire now, now⟩ :=
  ⟨c, h, .inr rfl⟩

theorem mem_of_mem_stages (y : Stage) (h : x ∈ s.stages) : s.stages[n]? = some x ∨ x ∈ (s.setStage n y).stages := by
  obtain ⟨i, hi⟩ := mem_iff_getElem?.mp h
  by_cases hn : n = i
  · subst hn
    exact .inl hi
  right
  refine mem_iff_getElem?.mpr ⟨i, ?_⟩
  rw [setStage, List.getElem?_set_ne hn]
  exact hi

theorem mem_setStage_self (h : s.stages[n]? = some x) (y : Stage) : y ∈ (s.setStage n y).stages :=
  mem_set (List.getElem?_eq_some_iff.mp h).1 y

section

variable (h : s.Consistent)

include h

variable {y : Stage}

theorem Consistent.setStage (hy : s.Fits y)
    (hold : ∀ f key sub name d, s.stages[n]? = some (.fans f) → s.subscriptions.all.get? key = some sub →
      f.data = some (name, d) → f.view = sub.viewId → s.live.get? (sub.viewId, name) = some d →
      (key ∈ f.rest ∨ key ∈ f.dead) → (s.setStage n y).Covers key sub.viewId name d (s.opening key)) :
    (s.setStage n y).Consistent where
  indexed := h.indexed
  opens := fun key sub hs => (h.opens key sub hs).rises (.of_eq rfl rfl rfl)
  pending := h.pending
  sent := h.sent
  fits := by
    intro x hx
    rcases mem_or_eq_of_mem_set hx with hx | rfl
    · exact (h.fits x hx).rises (.of_eq rfl rfl rfl)
    · exact hy.rises (.of_eq rfl rfl rfl)
  covered := by
    intro key sub name d hs hl
    rcases h.covered key sub name d hs hl with hc | hc | ⟨f, hf, hd, hv, hkey⟩
    · exact .inl hc
    · exact .inr (.inl hc)
    rcases mem_of_mem_stages (n := n) y hf with hn | hf
    · exact hold f key sub name d hn hs hd hv hl hkey
    · exact .inr (.inr ⟨f, hf, hd, hv, hkey⟩)

theorem Consistent.move (hn : s.stages[n]? = some x) (hx : ∀ f, x ≠ .fans f)
    (hy : s.Fits y) : (s.setStage n y).Consistent := by
  refine h.setStage hy ?_
  intro f key sub name d hf
  rw [hn] at hf
  exact absurd (Option.some.inj hf) (hx f)

theorem Consistent.call (hy : s.Fits y) : (s.call y).Consistent where
  indexed := h.indexed
  opens := fun key sub hs => (h.opens key sub hs).rises (.of_eq rfl rfl rfl)
  pending := h.pending
  sent := h.sent
  fits := by
    intro x hx
    rcases mem_append.mp hx with hx | hx
    · exact (h.fits x hx).rises (.of_eq rfl rfl rfl)
    · rw [mem_singleton.mp hx]
      exact hy.rises (.of_eq rfl rfl rfl)
  covered := by
    intro key sub name d hs hl
    rcases h.covered key sub name d hs hl with hc | hc | ⟨f, hf, hc⟩
    · exact .inl hc
    · exact .inr (.inl hc)
    · exact .inr (.inr ⟨f, mem_append_left _ hf, hc⟩)

theorem Consistent.release (lock : Dict SourceKey Nat) {pending : Dict SourceKey Datum}
    (hp : ∀ k d, pending.get? k = some d → (s.live.get? k).isSome = true) :
    Consistent { s with lock, pending } where
  indexed := h.indexed
  opens := fun key sub hs => (h.opens key sub hs).rises (.of_eq rfl rfl rfl)
  pending := hp
  sent := h.sent
  fits := fun x hx => (h.fits x hx).rises (.of_eq rfl rfl rfl)
  covered := h.covered

theorem Consistent.unlock (k : SourceKey) : (s.unlock k).Consistent := h.release _ h.pending

theorem pending_erase (k l : SourceKey) (d : Datum) (hd : (s.pending.erase k).get? l = some d) :
    (s.live.get? l).isSome = true := by
  rw [get?_erase] at hd
  split at hd
  · cases hd
  · exact h.pending l d hd

theorem Consistent.removeSubscription (key : SubscriptionKey) : (s.removeSubscription key).Consistent := by
  rw [removeSubscription.eq_def]
  split
  next sub hsub =>
    have hold : ∀ j t, (s.subscriptions.discard key sub).all.get? j = some t → s.subscriptions.all.get? j = some t := by
      intro j t hj
      change (s.subscriptions.all.erase key).get? j = some t at hj
      rw [get?_erase] at hj
      split at hj
      · cases hj
      · exact hj
    exact {
      indexed := h.indexed.discard
      opens := fun j t hj => (h.opens j t (hold j t hj)).rises (.of_eq rfl rfl rfl)
      pending := h.pending
      sent := h.sent
      fits := fun x hx => (h.fits x hx).rises (.of_eq rfl rfl rfl)
      covered := fun j t name d hj hl => h.covered j t name d (hold j t hj) hl }
  next => exact h

theorem Consistent.removeAll (keys : List SubscriptionKey) : (s.removeAll keys).Consistent := by
  induction keys generalizing s with
  | nil => exact h
  | cons key keys ih => exact ih (h.removeSubscription key)

theorem Consistent.store (row : Datum)
    (hrow : s.live.get? k = none → ∀ old, s.stored.get? k = some old → old.order < row.order) :
    Consistent { s with stored := s.stored.set k row } := by
  have hris : Rises s { s with stored := s.stored.set k row } := by
    refine ⟨?_, fun _ hl => hl, Nat.le_refl _⟩
    intro l c hc
    rw [top] at hc ⊢
    dsimp only
    cases hl : s.live.get? l with
    | some d =>
      rw [hl] at hc
      exact ⟨c, hc, .inl rfl⟩
    | none =>
      rw [hl, none_or] at hc
      rw [none_or, get?_set]
      split
      next hk =>
        subst hk
        exact ⟨row, rfl, .inr (hrow hl c hc)⟩
      next => exact ⟨c, hc, .inl rfl⟩
  exact {
    indexed := h.indexed
    opens := fun key sub hs => (h.opens key sub hs).rises hris
    pending := h.pending
    sent := fun f hf => (h.sent f hf).rises hris
    fits := fun x hx => (h.fits x hx).rises hris
    covered := h.covered }

theorem Consistent.send {frames : List Frame} (hfra : ∀ f ∈ frames, s.Dominated (f.view, f.key) f.data) :
    Consistent { s with sent := s.sent ++ frames } := by
  have hris : Rises s { s with sent := s.sent ++ frames } :=
    ⟨fun _ c hc => ⟨c, hc, .inl rfl⟩, fun _ hl => hl, by rw [length_append]; exact Nat.le_add_right _ _⟩
  refine ⟨h.indexed, fun key sub hs => (h.opens key sub hs).rises hris, h.pending, ?_,
    fun x hx => (h.fits x hx).rises hris, ?_⟩
  · intro f hf
    rcases mem_append.mp hf with hf | hf
    · exact (h.sent f hf).rises hris
    · exact (hfra f hf).rises hris
  intro key sub name d hs hl
  rcases h.covered key sub name d hs hl with hc | ⟨f, hf, hc⟩ | hc
  · exact .inl hc
  · refine .inr (.inl ⟨f, ?_, hc⟩)
    rw [drop_append]
    exact mem_append_left _ hf
  · exact .inr (.inr hc)

theorem Consistent.add {key : SubscriptionKey} (sub : Subscription) {o : Opening} (ho : s.Opens sub.viewId o)
    (hcov : ∀ name d, s.live.get? (sub.viewId, name) = some d → s.Covers key sub.viewId name d o) :
    Consistent { s with
      subscriptions := s.subscriptions.add key sub
      opening := Function.update s.opening key o } := by
  have hall : ∀ j t, (s.subscriptions.add key sub).all.get? j = some t →
      (j = key ∧ t = sub ∧ Function.update s.opening key o j = o) ∨
      (s.subscriptions.all.get? j = some t ∧ Function.update s.opening key o j = s.opening j) := by
    intro j t hj
    change (s.subscriptions.all.set key sub).get? j = some t at hj
    rw [get?_set] at hj
    by_cases hk : j = key
    · rw [if_pos hk] at hj
      cases hj
      subst hk
      exact .inl ⟨rfl, rfl, Function.update_self ..⟩
    · rw [if_neg hk] at hj
      exact .inr ⟨hj, Function.update_of_ne hk ..⟩
  refine ⟨h.indexed.add, ?_, h.pending, h.sent, fun x hx => (h.fits x hx).rises (.of_eq rfl rfl rfl), ?_⟩
  · intro j t hj
    dsimp only
    rcases hall j t hj with ⟨_, rfl, hopen⟩ | ⟨hold, hopen⟩
    · rw [hopen]
      exact ho.rises (.of_eq rfl rfl rfl)
    · rw [hopen]
      exact (h.opens j t hold).rises (.of_eq rfl rfl rfl)
  intro j t name d hj hl
  dsimp only
  rcases hall j t hj with ⟨rfl, rfl, hopen⟩ | ⟨hold, hopen⟩
  · rw [hopen]
    exact hcov name d hl
  · rw [hopen]
    exact h.covered j t name d hold hl

end

theorem removeSubscription_setStage (key : SubscriptionKey) (x : Stage) :
    (s.setStage n x).removeSubscription key = (s.removeSubscription key).setStage n x := by
  rw [removeSubscription.eq_def, removeSubscription.eq_def]
  have hsame : (s.setStage n x).subscriptions = s.subscriptions := rfl
  rw [hsame]
  cases s.subscriptions.all.get? key with
  | none => rfl
  | some sub => rfl

theorem removeAll_setStage (keys : List SubscriptionKey) (x : Stage) :
    (s.setStage n x).removeAll keys = (s.removeAll keys).setStage n x := by
  induction keys generalizing s with
  | nil => rfl
  | cons key keys ih =>
    change ((s.setStage n x).removeSubscription key).removeAll keys = ((s.removeSubscription key).removeAll keys).setStage n x
    rw [removeSubscription_setStage, ih]

theorem get?_removeSubscription (key j : SubscriptionKey) : (s.removeSubscription key).subscriptions.all.get? j =
      if j = key then none else s.subscriptions.all.get? j := by
  rw [removeSubscription.eq_def]
  split
  next sub _ =>
    change (s.subscriptions.all.erase key).get? j = _
    rw [get?_erase]
  next hnone =>
    split
    next hj => rw [hj, hnone]
    next => rfl

theorem get?_removeAll {keys : List SubscriptionKey} {j : SubscriptionKey} (h : j ∈ keys) :
    (s.removeAll keys).subscriptions.all.get? j = none := by
  have hgone : ∀ (keys : List SubscriptionKey) (s : LiveRuntime), s.subscriptions.all.get? j = none →
      (s.removeAll keys).subscriptions.all.get? j = none := by
    intro keys
    induction keys with
    | nil => exact fun _ hs => hs
    | cons key keys ih =>
      intro s hs
      refine ih _ ?_
      rw [get?_removeSubscription, hs]
      split <;> rfl
  induction keys generalizing s with
  | nil => cases h
  | cons key keys ih =>
    rcases mem_cons.mp h with rfl | h
    · refine hgone keys _ ?_
      rw [get?_removeSubscription, if_pos rfl]
    · exact ih h

theorem setStage_setStage (x y : Stage) : (s.setStage n x).setStage n y = s.setStage n y := by
  rw [setStage, setStage, setStage]
  dsimp only
  rw [set_set]

theorem Consistent.fan {f : Fanout} (h : (s.setStage n (.fans f)).Consistent) : (s.fan n f).Consistent := by
  rw [fan.eq_def]
  split
  · exact h
  next hrest =>
    have hrem := h.removeAll f.dead
    have hend : ∀ y, (s.removeAll f.dead).Fits y → ((s.removeAll f.dead).setStage n y).Consistent := by
      intro y hy
      have hset := hrem.setStage (n := n) (y := y)
      rw [removeAll_setStage, setStage_setStage] at hset
      refine hset (hy.rises (.of_eq rfl rfl rfl)) ?_
      intro g key sub name d hg hs _ _ _ hkey
      -- the one fan-out at this place is `f`, and its dead subscribers are gone
      rw [LiveRuntime.setStage, List.getElem?_set_self'] at hg
      have hfg : f = g := by
        cases hn : (s.removeAll f.dead).stages[n]? with
        | none =>
          rw [hn] at hg
          cases hg
        | some x =>
          rw [hn] at hg
          cases hg
          rfl
      subst hfg
      rcases hkey with hkey | hkey
      · rw [hrest] at hkey
        cases hkey
      have hnone := get?_removeAll (s := s) hkey
      change (s.removeAll f.dead).subscriptions.all.get? key = some sub at hs
      rw [hnone] at hs
      cases hs
    dsimp only
    split
    · split
      · exact hend _ trivial
      · exact hend _ (fun name d now hd => by cases hd)
    · exact hend _ trivial

theorem Consistent.advance (h : s.Consistent) {f g : Fanout} (hn : s.stages[n]? = some (.fans f))
    (hv : g.view = f.view) (hd : g.data = f.data)
    (hlist : ∀ key, (key ∈ f.rest ∨ key ∈ f.dead) → (key ∈ g.rest ∨ key ∈ g.dead) ∨
      ∀ sub name d, s.subscriptions.all.get? key = some sub → f.data = some (name, d) → f.view = sub.viewId →
        ∃ e ∈ s.sent.drop (s.opening key).since, e.sub = key ∧ e.view = sub.viewId ∧ e.key = name ∧
          e.data.wire = d.wire e.data.now) :
    (s.fan n g).Consistent := by
  refine Consistent.fan (h.setStage ?_ ?_)
  · intro name d now hg
    rw [hv]
    exact h.fits _ (mem_of_getElem? hn) name d now (hd ▸ hg)
  intro f' key sub name d hf' hs hdata hview hl hkey
  rw [hn] at hf'
  cases hf'
  rcases hlist key hkey with hkey | hgot
  · exact .inr (.inr ⟨g, mem_setStage_self hn _, hd.trans hdata, hv.trans hview, hkey⟩)
  · exact .inr (.inl (hgot sub name d hs hdata hview))

def Newer (s : LiveRuntime) (k : SourceKey) (d : Datum) : Prop :=
  match s.live.get? k with
  | some c => c.order < d.order
  | none => ∀ row, s.stored.get? k = some row → row.order < d.order ∨ row = d

theorem Newer.rises {d : Datum} (h : s.Newer k d) : Rises s { s with live := s.live.set k d } := by
  refine ⟨?_, ?_, Nat.le_refl _⟩
  · intro l c hc
    by_cases hk : l = k
    · subst hk
      refine ⟨d, top_of_live (get?_set_self ..), ?_⟩
      rw [Newer] at h
      rw [top] at hc
      cases hl : s.live.get? l with
      | some c' =>
        rw [hl] at h hc
        cases hc
        exact .inr h
      | none =>
        rw [hl] at h hc
        rcases h c hc with hlt | rfl
        · exact .inr hlt
        · exact .inl rfl
    refine ⟨c, ?_, .inl rfl⟩
    rw [top]
    dsimp only
    rw [get?_set_of_ne _ _ hk]
    exact hc
  · intro l hl
    dsimp only
    rw [get?_set]
    split
    · rfl
    · exact hl

theorem Consistent.publish (h : s.Consistent) (hn : s.stages[n]? = some x) (hx : ∀ f, x ≠ .fans f)
    {d : Datum} (hnew : s.Newer k d) {pending : Dict SourceKey Datum}
    (hp : ∀ l c, pending.get? l = some c → l = k ∨ s.pending.get? l = some c) (statusFollows : Bool) :
    (LiveRuntime.publish { s with pending } n k d statusFollows).Consistent := by
  have hris : ∀ {t : LiveRuntime}, t.live = s.live.set k d → t.stored = s.stored → t.sent = s.sent → Rises s t := by
    intro t hl hs hsent
    have hr := hnew.rises
    refine ⟨?_, ?_, by rw [hsent]⟩
    · intro l c hc
      rw [top, hl, hs]
      exact hr.top l c hc
    intro l hl'
    rw [hl]
    exact hr.live l hl'
  refine Consistent.fan ?_
  exact {
    indexed := h.indexed
    opens := fun key sub hs => (h.opens key sub hs).rises (hris rfl rfl rfl)
    pending := by
      intro l c hc
      change ((s.live.set k d).get? l).isSome = true
      rw [get?_set]
      split
      · rfl
      next hk =>
        rcases hp l c hc with rfl | hc
        · exact absurd rfl hk
        · exact h.pending l c hc
    sent := fun f hf => (h.sent f hf).rises (hris rfl rfl rfl)
    fits := by
      intro y hy
      rcases mem_or_eq_of_mem_set hy with hy | rfl
      · exact (h.fits y hy).rises (hris rfl rfl rfl)
      intro name c now hc
      cases hc
      exact dominated_self (top_of_live (get?_set_self ..)) now
    covered := by
      intro key sub name c hs hl
      change (s.live.set k d).get? (sub.viewId, name) = some c at hl
      rw [get?_set] at hl
      by_cases hk : (sub.viewId, name) = k
      · rw [if_pos hk] at hl
        cases hl
        subst hk
        exact .inr (.inr ⟨_, mem_setStage_self hn _, rfl, rfl, .inl (h.indexed.mem_items hs)⟩)
      rw [if_neg hk] at hl
      rcases h.covered key sub name c hs hl with hc | hc | ⟨f, hf, hc⟩
      · exact .inl hc
      · exact .inr (.inl hc)
      rcases mem_of_mem_stages (n := n) (.fans ⟨k.1, some (k.2, d), _, [], statusFollows⟩) hf with hf | hf
      · rw [hn] at hf
        exact absurd (Option.some.inj hf) (hx f)
      · exact .inr (.inr ⟨f, hf, hc⟩) }

theorem Consistent.publishOver (h : s.Consistent) (hn : s.stages[n]? = some x) (hx : ∀ f, x ≠ .fans f)
    {p : Publication} {base : Option Datum} {now : Int} (hnew : ∀ d, p.datum base now = some d → s.Newer k d) :
    (s.publishOver n k p base now).Consistent := by
  rw [publishOver.eq_def]
  split
  next d hd =>
    refine h.publish hn hx (hnew d hd) ?_ _
    intro l c hc
    rw [get?_set] at hc
    split at hc
    next hk => exact .inl hk
    next => exact .inr hc
  next => exact (h.unlock k).move hn hx trivial

theorem Consistent.flush (h : s.Consistent) (hn : s.stages[n]? = some x) (hx : ∀ f, x ≠ .fans f)
    (commit : Option Commit) : (s.flush n k commit).Consistent := by
  rw [flush.eq_def]
  split
  next hd =>
    exact (h.release s.lock (pending_erase h k)).move hn hx (h.pending k _ hd)
  next => exact h.move hn hx trivial
  next => exact (h.unlock k).move hn hx trivial

theorem removeSubscription_fields (s : LiveRuntime) (key : SubscriptionKey) :
    ∃ subscriptions, s.removeSubscription key = { s with subscriptions } := by
  rw [removeSubscription.eq_def]
  split
  · exact ⟨_, rfl⟩
  · exact ⟨s.subscriptions, rfl⟩

theorem removeAll_stages (keys : List SubscriptionKey) : (s.removeAll keys).stages = s.stages := by
  induction keys generalizing s with
  | nil => rfl
  | cons key keys ih =>
    obtain ⟨subscriptions, hsubs⟩ := removeSubscription_fields s key
    change ((s.removeSubscription key).removeAll keys).stages = s.stages
    rw [ih, hsubs]

theorem Consistent.register (h : s.Consistent) (key : SubscriptionKey) {view : String} (revision : Nat) {o : Opening}
    (replaces : Bool) (ho : s.Opens view o)
    (hcov : ∀ name d, s.live.get? (view, name) = some d → s.Covers key view name d o) :
    (s.register key view revision replaces o).Consistent := by
  cases replaces with
  | false => exact h.add ⟨view, revision⟩ ho hcov
  | true =>
    obtain ⟨subscriptions, hsubs⟩ := removeSubscription_fields s key
    have hrem := h.removeSubscription key
    rw [LiveRuntime.register, if_pos rfl]
    rw [hsubs] at hrem ⊢
    exact hrem.add ⟨view, revision⟩ (ho.rises (.of_eq rfl rfl rfl)) hcov

def published (s : LiveRuntime) : LiveEvent → Option (SourceKey × Datum)
  | .locks n now =>
    match s.stages[n]? with
    | some (.locks k (.publish p)) =>
      match s.live.get? k with
      | some c => (p.datum (some c) now).map (fun d => (k, d))
      | none => none
    | _ => none
  | .loads n now =>
    match s.stages[n]? with
    | some (.loads k p) => (p.datum (s.stored.get? k) now).map (fun d => (k, d))
    | _ => none
  | .resumes n =>
    match s.stages[n]? with
    | some (.written k d) => some (k, d)
    | _ => none
  | _ => none

/-- The data are published in order; a subscription is registered only when every live datum of its view is in the snapshot
or was emitted to its id; an emission of the live datum is not broken off. -/
structure Careful (s : LiveRuntime) (e : LiveEvent) : Prop where
  ordered : ∀ k d, s.published e = some (k, d) → s.Newer k d
  opened : ∀ n sub view revision replaces snapshot since, e = .sends n true →
    s.stages[n]? = some (.sends sub view revision replaces snapshot since) →
    ∀ name d, s.live.get? (view, name) = some d → s.Covers sub view name d ⟨snapshot, since⟩
  finished : ∀ n f name d, e = .raises n → s.stages[n]? = some (.fans f) → f.data = some (name, d) →
    s.live.get? (f.view, name) ≠ some d

end LiveRuntime

open LiveRuntime

variable {s t : LiveRuntime} {e : LiveEvent}

theorem liveNext_deliver {n : Nat} {outcome : Outcome} {now : Int} (h : s.Consistent)
    (he : liveNext s (.delivers n outcome now) = some t) : t.Consistent := by
  rw [liveNext.eq_def] at he
  dsimp only at he
  split at he
  next f hn =>
    split at he
    next sub rest hrest =>
      split at he
      · cases he
        refine (h.send ?_).advance hn rfl rfl ?_
        · intro g hg
          -- the frame that is sent, where there are data to send
          split at hg
          next key d hd =>
            rw [mem_singleton.mp hg]
            exact h.fits _ (mem_of_getElem? hn) key d now hd
          next => cases hg
        intro key hkey
        by_cases hsub : key = sub
        · right
          intro t name d hs hd hv
          refine ⟨⟨sub, f.view, name, ⟨d.wire now, now⟩⟩, ?_, hsub.symm, hv, rfl, rfl⟩
          rw [drop_append, hd]
          refine mem_append_right _ ?_
          rw [Nat.sub_eq_zero_of_le (h.opens key t hs).since]
          exact mem_singleton_self _
        left
        rcases hkey with hkey | hkey
        · rw [hrest] at hkey
          exact .inl ((mem_cons.mp hkey).resolve_left hsub)
        · exact .inr hkey
      · cases he
        refine h.advance hn rfl rfl ?_
        intro key hkey
        left
        rcases hkey with hkey | hkey
        · rw [hrest] at hkey
          rcases mem_cons.mp hkey with rfl | hkey
          · exact .inr (mem_append_right _ (mem_singleton_self _))
          · exact .inl hkey
        · exact .inr (mem_append_left _ hkey)
    next => cases he
  next => cases he

theorem liveNext_consistent (h : s.Consistent) (hc : s.Careful e) (he : liveNext s e = some t) : t.Consistent := by
  cases e with
  | subscribes | publishes | commits | checkpoints =>
    cases he
    exact h.call trivial
  | unsubscribes sub =>
    cases he
    exact h.removeSubscription sub
  | reads n now =>
    rw [liveNext.eq_def] at he
    dsimp only at he
    split at he
    next sub view hn =>
      cases he
      refine h.move hn (by rintro _ ⟨⟩) ?_
      intro name d hd hl
      obtain ⟨row, hrow, rfl⟩ := map_eq_some_iff.mp hd
      exact dominated_self (by rw [top, hl, hrow]; rfl) now
    next => cases he
  | composes n revision now =>
    rw [liveNext.eq_def] at he
    dsimp only at he
    split at he
    next sub view rows hn =>
      cases he
      refine h.move hn (by rintro _ ⟨⟩) ⟨Nat.le_refl _, ?_⟩
      intro name d hd
      dsimp only at hd
      rw [compose.eq_def] at hd
      split at hd
      next c hl =>
        cases hd
        exact dominated_self (top_of_live hl) now
      next hl => exact h.fits _ (mem_of_getElem? hn) name d hd hl
    next => cases he
  | sends n ok =>
    rw [liveNext.eq_def] at he
    dsimp only at he
    split at he
    next sub view revision replaces snapshot since hn =>
      split at he
      next hok =>
        subst hok
        cases he
        have ho := h.fits _ (mem_of_getElem? hn)
        have hreg := h.register sub revision replaces ho (hc.opened n sub view revision replaces snapshot since rfl hn)
        refine hreg.move (x := .sends sub view revision replaces snapshot since) ?_ (by rintro _ ⟨⟩) trivial
        obtain ⟨subscriptions, hsubs⟩ := removeSubscription_fields s sub
        rw [register]
        cases replaces with
        | false => exact hn
        | true =>
          rw [if_pos rfl, hsubs]
          exact hn
      next =>
        cases he
        exact (h.removeAll _).move (x := .sends sub view revision replaces snapshot since)
          (by rw [removeAll_stages]; exact hn) (by rintro _ ⟨⟩) trivial
    next => cases he
  | touches n =>
    rw [liveNext.eq_def] at he
    dsimp only at he
    split at he
    next sub hn =>
      cases he
      exact h.move hn (by rintro _ ⟨⟩) trivial
    next => cases he
  | locks n now =>
    rw [liveNext.eq_def] at he
    dsimp only at he
    split at he
    next k job hn =>
      split at he
      · cases he
      have hloc := h.release (s.lock.set k n) h.pending
      split at he
      next p =>
        split at he
        next c hl =>
          cases he
          refine hloc.publishOver hn (by rintro _ ⟨⟩) ?_
          intro d hd
          refine hc.ordered k d ?_
          rw [published.eq_def]
          dsimp only
          rw [hn]
          dsimp only
          rw [hl]
          exact congrArg (Option.map _) hd
        next =>
          cases he
          exact hloc.move hn (by rintro _ ⟨⟩) trivial
      next c =>
        cases he
        exact hloc.flush hn (by rintro _ ⟨⟩) _
      next =>
        cases he
        exact hloc.flush hn (by rintro _ ⟨⟩) _
    next => cases he
  | loads n now =>
    rw [liveNext.eq_def] at he
    dsimp only at he
    split at he
    next k p hn =>
      cases he
      refine h.publishOver hn (by rintro _ ⟨⟩) ?_
      intro d hd
      refine hc.ordered k d ?_
      rw [published.eq_def]
      dsimp only
      rw [hn]
      exact congrArg (Option.map _) hd
    next => cases he
  | writes n now =>
    rw [liveNext.eq_def] at he
    dsimp only at he
    split at he
    next k d commit hn =>
      have hlive := h.fits _ (mem_of_getElem? hn)
      have hsto := h.store (k := k) (checkpointRow (s.stored.get? k) d now) (by
        intro hnone
        rw [Fits, hnone] at hlive
        cases hlive)
      split at he
      · cases he
        exact hsto.move hn (by rintro _ ⟨⟩) trivial
      · cases he
        exact (hsto.unlock k).move hn (by rintro _ ⟨⟩) trivial
    next k c hn =>
      obtain ⟨row, hrow, rfl⟩ := map_eq_some_iff.mp he
      refine (h.store (k := k) row ?_).move hn (by rintro _ ⟨⟩) trivial
      intro _ old hold
      exact Commit.order_row hrow hold
    next => cases he
  | resumes n =>
    rw [liveNext.eq_def] at he
    dsimp only at he
    split at he
    next k d hn =>
      cases he
      refine h.publish hn (by rintro _ ⟨⟩) (hc.ordered k d ?_) ?_ false
      · rw [published.eq_def]
        dsimp only
        rw [hn]
      intro l c hcp
      rw [get?_erase] at hcp
      split at hcp
      · cases hcp
      · exact .inr hcp
    next => cases he
  | delivers n outcome now => exact liveNext_deliver h he
  | raises n =>
    rw [liveNext.eq_def] at he
    dsimp only at he
    split at he
    next k _ hn =>
      cases he
      exact (h.unlock k).move hn (by rintro _ ⟨⟩) trivial
    next k _ _ hn =>
      cases he
      exact (h.unlock k).move hn (by rintro _ ⟨⟩) trivial
    next k _ hn =>
      cases he
      exact (h.unlock k).move hn (by rintro _ ⟨⟩) trivial
    next k _ hn =>
      cases he
      exact (h.unlock k).move hn (by rintro _ ⟨⟩) trivial
    next sub hn =>
      cases he
      obtain ⟨subscriptions, hsubs⟩ := removeSubscription_fields s sub
      have hrem := h.removeSubscription sub
      rw [hsubs] at hrem ⊢
      exact hrem.move hn (by rintro _ ⟨⟩) trivial
    next => cases he
    next x _ _ _ _ _ _ hn =>
      cases he
      refine h.setStage trivial ?_
      intro f key sub name d hf _ hd hv hl
      exact absurd (hv ▸ hl) (hc.finished n f name d rfl hf hd)
    next => cases he

namespace LiveRuntime

def received (s : LiveRuntime) (key : SubscriptionKey) (view name : String) : List Stamped :=
  ((s.opening key).snapshot name).toList ++
    ((s.sent.drop (s.opening key).since).filter (fun f => f.sub = key ∧ f.view = view ∧ f.key = name)).map Frame.data

def Settled (s : LiveRuntime) (view : String) : Prop :=
  ∀ f, Stage.fans f ∈ s.stages → f.view = view → f.data = none

def Delivered (s : LiveRuntime) : Prop :=
  ∀ key sub name d, s.subscriptions.all.get? key = some sub → s.Settled sub.viewId →
    s.live.get? (sub.viewId, name) = some d → s.received key sub.viewId name ≠ [] ∧
      ∀ e ∈ s.received key sub.viewId name, (∀ g ∈ s.received key sub.viewId name, g.wire.order ≤ e.wire.order) →
        e.wire = d.wire e.now

theorem mem_received_of_covers {key : SubscriptionKey} {view name : String} {d : Datum} (hs : s.Settled view)
    (h : s.Covers key view name d (s.opening key)) :
    ∃ e ∈ s.received key view name, e.wire = d.wire e.now := by
  rcases h with ⟨e, he, hw⟩ | ⟨f, hf, hkey, hv, hname, hw⟩ | ⟨f, hf, hd, hv, _⟩
  · refine ⟨e, mem_append_left _ ?_, hw⟩
    rw [he]
    exact mem_singleton_self _
  · refine ⟨f.data, mem_append_right _ (mem_map_of_mem ?_), hw⟩
    exact mem_filter.mpr ⟨hf, by simp [hkey, hv, hname]⟩
  · rw [hs f hf hv] at hd
    cases hd

theorem Consistent.dominated (h : s.Consistent) {key : SubscriptionKey} {sub : Subscription} {name : String}
    (hs : s.subscriptions.all.get? key = some sub) {e : Stamped} (he : e ∈ s.received key sub.viewId name) :
    s.Dominated (sub.viewId, name) e := by
  rcases mem_append.mp he with he | he
  · exact (h.opens key sub hs).snapshot name e (mem_toList.mp he)
  obtain ⟨f, hf, rfl⟩ := mem_map.mp he
  obtain ⟨hf, hkey⟩ := mem_filter.mp hf
  simp only [decide_eq_true_eq] at hkey
  obtain ⟨_, hv, hname⟩ := hkey
  have hdom := h.sent f (mem_of_mem_drop hf)
  rw [hv, hname] at hdom
  exact hdom

theorem Consistent.delivered (h : s.Consistent) : s.Delivered := by
  intro key sub name d hs hset hl
  obtain ⟨e, he, hw⟩ := mem_received_of_covers hset (h.covered key sub name d hs hl)
  refine ⟨ne_nil_of_mem he, ?_⟩
  intro g hg hmax
  obtain ⟨c, hc, hlt | hgw⟩ := h.dominated hs hg
  · rw [top_of_live hl] at hc
    cases hc
    have hle := hmax e he
    rw [hw, Datum.order_wire] at hle
    exact absurd (hlt.trans_le hle) (lt_irrefl _)
  rw [top_of_live hl] at hc
  cases hc
  exact hgw

def restored (stored : Dict SourceKey Datum) : LiveRuntime := { stored }

theorem consistent_restored (stored : Dict SourceKey Datum) : (restored stored).Consistent where
  indexed := Subscriptions.indexed_empty
  opens := fun _ _ hs => by cases hs
  pending := fun _ _ hp => by cases hp
  sent := fun _ hf => by cases hf
  fits := fun _ hx => by cases hx
  covered := fun _ _ _ _ hs => by cases hs

end LiveRuntime

/-- No subscriber misses a live datum in a run whose steps are all careful. -/
theorem delivered_run (stored : Dict SourceKey Datum)
    (h : Runs.ReachesUnder liveNext LiveRuntime.Careful (restored stored) t) : t.Delivered :=
  (Runs.invariant_under (fun _ _ _ hs hc he => liveNext_consistent hs hc he) (consistent_restored stored) h).delivered

def clockValue : Publication := .value 1 { value := .str "12:00" }

def clockEvents : List LiveEvent :=
  [.subscribes (1, "s") "view", .reads 0 0, .composes 0 1 0, .sends 0 true, .touches 0,
    .publishes ("view", "clock") clockValue, .locks 1 1, .loads 1 2, .delivers 1 .sent 3]

def carefulTest (s : LiveRuntime) (e : LiveEvent) : Bool :=
  (match s.published e with
    | some (k, d) =>
      match s.live.get? k with
      | some c => decide (c.order < d.order)
      | none => (s.stored.get? k).all (fun row => decide (row.order < d.order))
    | none => true) &&
  (match e with
    | .sends _ _ => s.live.entries.isEmpty
    | .raises _ => false
    | _ => true)

theorem careful_of_test (h : carefulTest s e = true) : s.Careful e := by
  obtain ⟨hpub, heve⟩ := (Bool.and_eq_true _ _).mp h
  refine ⟨?_, ?_, ?_⟩
  · intro k d hk
    rw [hk] at hpub
    dsimp only at hpub
    rw [Newer]
    split
    next c hl =>
      rw [hl] at hpub
      exact of_decide_eq_true hpub
    next hl =>
      intro row hrow
      rw [hl, hrow] at hpub
      exact .inl (of_decide_eq_true hpub)
  · rintro n sub view revision replaces snapshot since rfl _ name d hl
    have hemp : s.live.entries = [] := isEmpty_iff.mp heve
    rw [get?, hemp] at hl
    cases hl
  · rintro n f name d rfl
    cases heve

theorem clock_delivered : ∃ t, Runs.run liveNext (restored Dict.empty) clockEvents = some t ∧
    t.live.keys = [("view", "clock")] ∧ t.Delivered := by
  have hrun : (Runs.run liveNext (restored empty) clockEvents).any
      (fun t => t.live.keys = [("view", "clock")]) = true := by decide +kernel
  obtain ⟨t, ht, hkeys⟩ := (any_eq_true _ _).mp hrun
  refine ⟨t, ht, of_decide_eq_true hkeys, delivered_run empty ⟨clockEvents, ?_, ht⟩⟩
  exact Runs.meets_of_all (p := carefulTest) (fun _ _ h => careful_of_test h) (by decide +kernel)

def Stage.isDone : Stage → Bool
  | .done => true
  | _ => false

/-- The value is published between the snapshot and the registration of a subscription. -/
theorem value_missed : ∃ es t, Runs.run liveNext (restored Dict.empty) es = some t ∧ ¬ t.Delivered := by
  have hrun : (Runs.run liveNext (restored empty) [.subscribes (1, "s") "view", .reads 0 0, .composes 0 1 0,
        .publishes ("view", "clock") clockValue, .locks 1 1, .loads 1 2, .sends 0 true, .touches 0]).any
      (fun t => (t.subscriptions.all.get? (1, "s")).any (fun sub => sub.viewId = "view") && t.stages.all Stage.isDone &&
        (t.live.get? ("view", "clock")).isSome && (t.received (1, "s") "view" "clock").isEmpty) = true := by
    decide +kernel
  obtain ⟨t, ht, htest⟩ := (any_eq_true _ _).mp hrun
  simp only [Bool.and_eq_true] at htest
  obtain ⟨⟨⟨hsub, hdone⟩, hlive⟩, hnone⟩ := htest
  obtain ⟨sub, hsub, hview⟩ := (any_eq_true _ _).mp hsub
  obtain ⟨d, hd⟩ := isSome_iff_exists.mp hlive
  have hview : sub.viewId = "view" := of_decide_eq_true hview
  refine ⟨_, t, ht, ?_⟩
  intro h
  refine (h (1, "s") sub "clock" d hsub ?_ (hview ▸ hd)).1 (hview ▸ isEmpty_iff.mp hnone)
  intro f hf
  have hfan := all_eq_true.mp hdone _ hf
  cases hfan

end OpenAgent.Dashboards
