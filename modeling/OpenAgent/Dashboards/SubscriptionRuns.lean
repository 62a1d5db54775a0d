import OpenAgent.Dashboards.Producers

namespace OpenAgent.Dashboards

open Py List Dict

namespace Subscriptions

variable {s : Subscriptions} {key k : SubscriptionKey} {sub : Subscription} {view : String}

/-- `_view_subscriptions` has what `_subscriptions` has, under the views it says. -/
def Exact (s : Subscriptions) : Prop :=
  ∀ view key, key ∈ s.keys view ↔ ∃ sub, s.all.get? key = some sub ∧ sub.viewId = view

theorem Exact.discard (h : s.Exact) (hsub : s.all.get? key = some sub) : (s.discard key sub).Exact := by
  intro view k
  rw [mem_keys_discard_iff, h view k]
  change _ ↔ ∃ x, (s.all.erase key).get? k = some x ∧ _
  rw [get?_erase]
  by_cases hk : k = key
  · subst hk
    rw [if_pos rfl, hsub]
    simp only [Option.some.injEq, exists_eq_left', reduceCtorEq, false_and, exists_false, iff_false]
    rintro ⟨hview, hne⟩
    exact hne hview.symm rfl
  · simp [hk]

theorem Exact.add (h : s.Exact) (hnone : s.all.get? key = none) : (s.add key sub).Exact := by
  intro view k
  have hold : k ∈ (s.add key sub).keys view ↔ k ∈ s.keys view ∨ k = key ∧ view = sub.viewId := by
    rw [keys_add]
    split
    next hv =>
      split
      next hmem => exact ⟨.inl, fun h => h.elim id (fun h => h.1 ▸ hmem)⟩
      next => simp [hv]
    next hv => simp [hv]
  rw [hold, h view k]
  change _ ↔ ∃ x, (s.all.set key sub).get? k = some x ∧ _
  rw [get?_set]
  by_cases hk : k = key
  · subst hk
    simp [hnone, eq_comm]
  · simp [hk]

end Subscriptions

namespace Runtime

variable {r s t : Runtime} {sub : SubscriptionKey} {view : String}

def Bounded (r : Runtime) : Prop :=
  (∀ ws, (r.subscriptions.all.keys.filter (fun key => key.1 = ws)).length ≤ r.maxSubscriptionsPerSocket) ∧
    r.subscriptions.all.size ≤ r.maxSubscriptionsTotal

/-- A view that has lost its last producer subscription has a stop-grace task. -/
def Releases (r s : Runtime) : Prop :=
  ∀ view, r.hasProducerSubscription view = true → s.hasProducerSubscription view = false →
    (s.stopGraceTasks.get? view).isSome = true

/-- The latest revision of a view that has producer subscriptions is the one that is recorded. -/
def Steady (r : Runtime) (view : String) (revision : Nat) : Prop :=
  r.hasProducerSubscription view = true → r.latestRevisions.get? view = some revision

/-- A coroutine has no stop-grace task to take out, or is none that subscribes. -/
def Todo.subscribes : Todo → Bool
  | .readsView .. | .sendsSnapshot .. | .dropsGhost _ => true
  | _ => false

def Routine.Plain (c : Routine) : Prop :=
  (∀ view, Todo.graceOver view ∉ c.todo) ∨ ∀ x ∈ c.todo, Todo.subscribes x = false

def Plain (r : Runtime) : Prop := ∀ c ∈ r.routines, Routine.Plain c

theorem producer_iff (h : r.subscriptions.Exact) : r.hasProducerSubscription view = true ↔
    ∃ key sub, r.subscriptions.all.get? key = some sub ∧ sub.viewId = view ∧
      r.latestRevisions.get? view = some sub.revision := by
  rw [hasProducerSubscription]
  cases hlatest : r.latestRevisions.get? view with
  | none => simp
  | some latest =>
    simp only [any_eq_true, decide_eq_true_eq, Subscriptions.items, mem_filterMap, Option.map_eq_some_iff,
      Option.some.injEq]
    constructor
    · rintro ⟨e, ⟨key, hkey, sub, hsub, rfl⟩, hrev⟩
      obtain ⟨x, hx, hview⟩ := (h view key).mp hkey
      exact ⟨key, sub, hsub, Option.some.inj (hx.symm.trans hsub) ▸ hview, hrev.symm⟩
    · rintro ⟨key, sub, hsub, hview, hrev⟩
      exact ⟨(key, sub), ⟨key, (h view key).mpr ⟨sub, hsub, hview⟩, sub, hsub, rfl⟩, hrev.symm⟩

/-- Subscriptions go, and nothing else happens to them. -/
structure Sheds (r s : Runtime) : Prop where
  perSocket : s.maxSubscriptionsPerSocket = r.maxSubscriptionsPerSocket
  total : s.maxSubscriptionsTotal = r.maxSubscriptionsTotal
  latest : s.latestRevisions = r.latestRevisions
  all : ∀ k sub, s.subscriptions.all.get? k = some sub → r.subscriptions.all.get? k = some sub
  grace : ∀ view, (r.stopGraceTasks.get? view).isSome = true → (s.stopGraceTasks.get? view).isSome = true
  exact : r.subscriptions.Exact → s.subscriptions.Exact ∧ r.Releases s
  plain : r.Plain → s.Plain

theorem Sheds.same (hperSocket : s.maxSubscriptionsPerSocket = r.maxSubscriptionsPerSocket)
    (htotal : s.maxSubscriptionsTotal = r.maxSubscriptionsTotal) (hlatest : s.latestRevisions = r.latestRevisions)
    (hsubs : s.subscriptions = r.subscriptions) (hgrace : s.stopGraceTasks = r.stopGraceTasks)
    (hplain : r.Plain → s.Plain) : r.Sheds s where
  perSocket := hperSocket
  total := htotal
  latest := hlatest
  all _ _ h := hsubs ▸ h
  grace _ h := hgrace ▸ h
  exact h := by
    refine ⟨hsubs ▸ h, ?_⟩
    intro view hr hs
    rw [hasProducerSubscription, hlatest, hsubs] at hs
    rw [hasProducerSubscription, hs] at hr
    cases hr
  plain := hplain

theorem Sheds.refl (r : Runtime) : r.Sheds r := .same rfl rfl rfl rfl rfl id

theorem Sheds.trans (h : r.Sheds s) (k : s.Sheds t) : r.Sheds t where
  perSocket := k.perSocket.trans h.perSocket
  total := k.total.trans h.total
  latest := k.latest.trans h.latest
  all key sub hsub := h.all key sub (k.all key sub hsub)
  grace view hview := k.grace view (h.grace view hview)
  exact hexact := by
    obtain ⟨hs, hrs⟩ := h.exact hexact
    obtain ⟨ht, hst⟩ := k.exact hs
    refine ⟨ht, ?_⟩
    intro view hr hlost
    cases hview : s.hasProducerSubscription view with
    | true => exact hst view hview hlost
    | false => exact k.grace view (hrs view hr hview)
  plain hplain := k.plain (h.plain hplain)

theorem Plain.createTask (h : r.Plain) {todo : List Todo} (htodo : Routine.Plain { todo }) :
    (r.createTask todo).Plain := by
  intro c hc
  rcases mem_append.mp hc with hc | hc
  · exact h c hc
  · rw [mem_singleton.mp hc]
    exact htodo

theorem sheds_removeSubscription (r : Runtime) (key : SubscriptionKey) : r.Sheds (r.removeSubscription key) := by
  rw [removeSubscription]
  split
  · exact .refl r
  next sub hsub =>
    dsimp only
    have hall : ∀ k x, (r.subscriptions.discard key sub).all.get? k = some x → r.subscriptions.all.get? k = some x := by
      intro k x hx
      change (r.subscriptions.all.erase key).get? k = some x at hx
      rw [get?_erase] at hx
      split at hx
      · cases hx
      · exact hx
    -- A view that loses its producer is the one that the key was indexed under.
    have hlost : r.subscriptions.Exact → ∀ view, r.hasProducerSubscription view = true →
        hasProducerSubscription { r with subscriptions := r.subscriptions.discard key sub } view = false →
        view = sub.viewId ∧ (r.subscriptions.byView.get? view).isSome = true := by
      intro hexact view hr hs
      obtain ⟨k, x, hx, hview, hlatest⟩ := (producer_iff hexact).mp hr
      by_cases hk : k = key
      · subst hk
        have hmem := (hexact view k).mpr ⟨x, hx, hview⟩
        refine ⟨by rw [← hview, Option.some.inj (hx.symm.trans hsub)], ?_⟩
        by_contra hnone
        rw [Subscriptions.keys, Option.not_isSome_iff_eq_none.mp hnone] at hmem
        cases hmem
      have hkept : (r.subscriptions.all.erase key).get? k = some x := by rwa [get?_erase_of_ne _ hk]
      have hstill := (producer_iff (r := { r with subscriptions := _ }) (hexact.discard hsub)).mpr
        ⟨k, x, hkept, hview, hlatest⟩
      exact (Bool.false_ne_true (hs.symm.trans hstill)).elim
    split
    next hgrace =>
      refine ⟨rfl, rfl, rfl, hall, ?_, fun hexact => ⟨hexact.discard hsub, ?_⟩, fun h => h.createTask (.inr ?_)⟩
      · intro view hview
        change ((r.stopGraceTasks.set _ _).get? view).isSome = true
        rw [get?_set]
        split
        · rfl
        · exact hview
      · intro view hr hs
        rw [(hlost hexact view hr hs).1]
        change ((r.stopGraceTasks.set _ _).get? _).isSome = true
        rw [get?_set_self]
        rfl
      · simp [Todo.subscribes]
    next hgrace =>
      refine ⟨rfl, rfl, rfl, hall, fun _ h => h, fun hexact => ⟨hexact.discard hsub, ?_⟩, id⟩
      intro view hr hs
      obtain ⟨rfl, hindexed⟩ := hlost hexact view hr hs
      rw [hindexed, hs] at hgrace
      simpa [Option.isNone_iff_eq_none, Option.isSome_iff_ne_none] using hgrace

theorem sheds_removeSubscriptions (keys : List SubscriptionKey) (r : Runtime) :
    r.Sheds (keys.foldl removeSubscription r) := by
  induction keys generalizing r with
  | nil => exact .refl r
  | cons key keys ih => exact (sheds_removeSubscription r key).trans (ih _)

theorem Plain.cancel (h : r.Plain) (n : Nat) : (r.cancel n).Plain := by
  intro c hc
  obtain ⟨i, hi, rfl⟩ := mem_iff_getElem.mp hc
  have hlen : i < r.routines.length := by simpa [Runtime.cancel] using hi
  simp only [Runtime.cancel, getElem_modify]
  split
  · exact h r.routines[i] (getElem_mem _)
  · exact h r.routines[i] (getElem_mem _)

theorem length_filter_keys (d : Dict SubscriptionKey Subscription) (ws : Nat) :
    (d.keys.filter (fun key => key.1 = ws)).length = d.sumBy (fun key _ => if key.1 = ws then 1 else 0) := by
  rw [Dict.keys, sumBy]
  induction d.entries with
  | nil => rfl
  | cons e es ih =>
    rw [map_cons, filter_cons, map_cons, sum_cons, ← ih]
    split
    next h => rw [if_pos (of_decide_eq_true h), length_cons, Nat.add_comm]
    next h => rw [if_neg (fun he => h (decide_eq_true he)), Nat.zero_add]

theorem sumBy_add_le {d e : Dict SubscriptionKey Subscription} {f : SubscriptionKey → Nat} {k : SubscriptionKey}
    {v : Subscription} {n : Nat} (hsub : ∀ k v, d.get? k = some v → e.get? k = some v) (hnone : d.get? k = none)
    (hroom : e.get? k = none → e.sumBy (fun k _ => f k) + f k ≤ n) (hle : e.sumBy (fun k _ => f k) ≤ n) :
    (d.set k v).sumBy (fun k _ => f k) ≤ n := by
  have hrest : d.sumBy (fun k _ => f k) ≤ (e.erase k).sumBy (fun k _ => f k) := by
    refine sumBy_le_of_subset ?_ _
    intro j x hx
    rw [get?_erase_of_ne _ (by rintro rfl; rw [hnone] at hx; cases hx)]
    exact hsub j x hx
  rw [sumBy_set, erase_of_get?_none _ hnone]
  cases he : e.get? k with
  | none =>
    have hn := hroom he
    rw [erase_of_get?_none _ he] at hrest
    omega
  | some old =>
    have hsum := sumBy_erase e (fun k _ => f k) he
    omega

/-- `subscribe` adds its key: what it found when it checked must still be so. -/
structure Admitted (r : Runtime) (sub : SubscriptionKey) (view : String) (record : ViewRecord) (replaces : Bool) :
    Prop where
  replaced : replaces = true ∨ r.subscriptions.all.get? sub = none
  room : r.limitExceeded sub = false
  steady : r.Steady view record.latestRevision

theorem get?_removeSubscription_self (r : Runtime) (key : SubscriptionKey) :
    (r.removeSubscription key).subscriptions.all.get? key = none := by
  rw [removeSubscription]
  split
  next h => exact h
  next sub h =>
    dsimp only
    split
    · exact get?_erase_self _ _
    · exact get?_erase_self _ _

theorem register_eq (r : Runtime) (sub : SubscriptionKey) (view : String) (record : ViewRecord) (replaces : Bool) :
    r.register sub view record replaces =
      (if replaces then r.removeSubscription sub else r).register sub view record false := by
  cases replaces with
  | false => rfl
  | true => rfl

theorem register_cases {u v : Runtime} {record : ViewRecord} (h : u.register sub view record false = v) :
    v.subscriptions = u.subscriptions.add sub ⟨view, record.revision⟩ ∧
      v.latestRevisions = u.latestRevisions.set view record.latestRevision ∧
      v.maxSubscriptionsPerSocket = u.maxSubscriptionsPerSocket ∧
      v.maxSubscriptionsTotal = u.maxSubscriptionsTotal ∧ (u.Plain → v.Plain) ∧
      ∀ w, (u.stopGraceTasks.get? w).isSome = true →
        w = view ∧ v.hasProducerSubscription view = true ∨ (v.stopGraceTasks.get? w).isSome = true := by
  rw [register] at h
  simp only [Bool.false_eq_true, if_false] at h
  split at h
  next hproducer =>
    split at h
    next n hgrace =>
      subst h
      refine ⟨rfl, rfl, rfl, rfl, fun h => Plain.cancel h n, ?_⟩
      intro w hw
      by_cases hview : w = view
      · exact .inl ⟨hview, hproducer⟩
      right
      change (get? (erase _ view) w).isSome = true
      rwa [get?_erase_of_ne _ hview]
    next =>
      subst h
      exact ⟨rfl, rfl, rfl, rfl, id, fun w hw => .inr hw⟩
  next =>
    subst h
    exact ⟨rfl, rfl, rfl, rfl, id, fun w hw => .inr hw⟩

/-- What holds of the subscriptions in every state. -/
structure Sound (r : Runtime) : Prop where
  bounded : r.Bounded
  exact : r.subscriptions.Exact
  plain : r.Plain

theorem Sound.sheds (h : r.Sound) (k : r.Sheds s) : s.Sound where
  bounded := by
    refine ⟨?_, ?_⟩
    · intro ws
      rw [length_filter_keys, k.perSocket]
      have hle := h.bounded.1 ws
      rw [length_filter_keys] at hle
      exact (sumBy_le_of_subset k.all _).trans hle
    · rw [k.total]
      exact (size_le_of_subset k.all).trans h.bounded.2
  exact := (k.exact h.exact).1
  plain := k.plain h.plain

theorem Sound.register (h : r.Sound) {record : ViewRecord} {replaces : Bool}
    (ha : r.Admitted sub view record replaces) :
    (r.register sub view record replaces).Sound ∧ r.Releases (r.register sub view record replaces) := by
  obtain ⟨u, hu⟩ : ∃ u, (if replaces then r.removeSubscription sub else r) = u := ⟨_, rfl⟩
  obtain ⟨v, hv⟩ : ∃ v, u.register sub view record false = v := ⟨_, rfl⟩
  rw [register_eq, hu, hv]
  obtain ⟨hsubs, hlatest, hperSocket, htotal, hplain, hgrace⟩ := register_cases hv
  have hsheds : r.Sheds u := by
    rw [← hu]
    split
    · exact sheds_removeSubscription r sub
    · exact .refl r
  have hnone : u.subscriptions.all.get? sub = none := by
    rw [← hu]
    split
    · exact get?_removeSubscription_self r sub
    next h => exact ha.replaced.resolve_left h
  have hu := h.sheds hsheds
  have hexact : v.subscriptions.Exact := hsubs ▸ hu.exact.add hnone
  have hall : v.subscriptions.all = u.subscriptions.all.set sub ⟨view, record.revision⟩ := by rw [hsubs]; rfl
  have hroom := ha.room
  rw [limitExceeded] at hroom
  refine ⟨⟨⟨?_, ?_⟩, hexact, hplain hu.plain⟩, ?_⟩
  · intro ws
    have hle := h.bounded.1 ws
    rw [length_filter_keys] at hle ⊢
    rw [hall, hperSocket, hsheds.perSocket]
    refine sumBy_add_le hsheds.all hnone ?_ hle
    intro hold
    rw [hold] at hroom
    split
    next hws =>
      subst hws
      rw [← length_filter_keys]
      simp at hroom
      omega
    next => exact hle
  · have hle := h.bounded.2
    rw [size_eq_sumBy] at hle ⊢
    rw [hall, htotal, hsheds.total]
    refine sumBy_add_le (f := fun _ => 1) hsheds.all hnone ?_ hle
    intro hold
    rw [hold] at hroom
    rw [← size_eq_sumBy]
    simp at hroom
    omega
  intro w hr hlost
  -- The producer is not in `u` any more: what is registered then does not take one away.
  have hgone : u.hasProducerSubscription w = false := by
    by_contra hkept
    obtain ⟨k, x, hx, hview, hrev⟩ := (producer_iff hu.exact).mp (Bool.eq_true_of_not_eq_false hkept)
    have hne : k ≠ sub := by
      rintro rfl
      rw [hnone] at hx
      cases hx
    have hstill := (producer_iff hexact).mpr ⟨k, x, by rwa [hall, get?_set_of_ne _ _ hne], hview, ?_⟩
    · rw [hlost] at hstill
      cases hstill
    rw [hlatest, get?_set]
    split
    next hw =>
      subst hw
      rw [← ha.steady hr, ← hsheds.latest, hrev]
    next => exact hrev
  rcases hgrace w ((hsheds.exact h.exact).2 w hr hgone) with ⟨rfl, hproducer⟩ | hkept
  · rw [hlost] at hproducer
    cases hproducer
  · exact hkept

theorem Sound.stays (h : r.Sound) (hsubs : s.subscriptions = r.subscriptions)
    (hperSocket : s.maxSubscriptionsPerSocket = r.maxSubscriptionsPerSocket)
    (htotal : s.maxSubscriptionsTotal = r.maxSubscriptionsTotal)
    (hlatest : ∀ view, r.hasProducerSubscription view = true →
      s.latestRevisions.get? view = r.latestRevisions.get? view)
    (hplain : r.Plain → s.Plain) : s.Sound ∧ r.Releases s := by
  refine ⟨⟨?_, hsubs ▸ h.exact, hplain h.plain⟩, ?_⟩
  · rw [Bounded, hsubs, hperSocket, htotal]
    exact h.bounded
  intro view hr hs
  rw [hasProducerSubscription, hsubs, hlatest view hr] at hs
  rw [hasProducerSubscription, hs] at hr
  cases hr

theorem Sound.setLatestRevision (h : r.Sound) {revision : Nat} (hsteady : r.Steady view revision) :
    (r.setLatestRevision view revision).Sound ∧ r.Releases (r.setLatestRevision view revision) := by
  refine h.stays rfl rfl rfl ?_ id
  intro w hw
  change (r.latestRevisions.set view revision).get? w = _
  rw [get?_set]
  split
  next hview => exact (hsteady (hview ▸ hw)).symm.trans (by rw [hview])
  next => rfl

theorem sheds_place (r : Runtime) (n : Nat) {todo : List Todo} (htodo : Routine.Plain { todo }) :
    r.Sheds (r.place n todo) := by
  refine .same rfl rfl rfl rfl rfl ?_
  intro h c hc
  rcases mem_or_eq_of_mem_set hc with hc | rfl
  · exact h c hc
  · exact htodo

theorem Sound.place (h : s.Sound ∧ r.Releases s) (n : Nat) {todo : List Todo} (htodo : Routine.Plain { todo }) :
    (s.place n todo).Sound ∧ r.Releases (s.place n todo) := ⟨h.1.sheds (sheds_place s n htodo), h.2⟩

theorem sheds_unwind {todo : List Todo} (r : Runtime) (h : ∀ view, Todo.graceOver view ∉ todo) :
    r.Sheds (r.unwind todo) := by
  induction todo generalizing r with
  | nil => exact .refl r
  | cons x todo ih =>
    have hrest : ∀ view, Todo.graceOver view ∉ todo := fun view hview => h view (mem_cons_of_mem _ hview)
    cases x with
    | dropsGhost sub => exact (sheds_removeSubscription r sub).trans (ih _ hrest)
    | graceOver view => exact absurd mem_cons_self (h view)
    | _ => exact ih r hrest

theorem unwind_stays {todo : List Todo} (r : Runtime) (h : ∀ x ∈ todo, Todo.subscribes x = false) :
    ∃ tasks, r.unwind todo = { r with stopGraceTasks := tasks } := by
  induction todo generalizing r with
  | nil => exact ⟨r.stopGraceTasks, rfl⟩
  | cons x todo ih =>
    have hrest : ∀ y ∈ todo, Todo.subscribes y = false := fun y hy => h y (mem_cons_of_mem _ hy)
    cases x with
    | dropsGhost sub => exact absurd (h _ mem_cons_self) Bool.true_eq_false.mp
    | graceOver view =>
      obtain ⟨tasks, htasks⟩ := ih { r with stopGraceTasks := r.stopGraceTasks.erase view } hrest
      exact ⟨tasks, htasks⟩
    | _ => exact ih r hrest

theorem perform_todo {x : Todo} {a : Answer} {rest : List Todo} (h : r.perform x a = some (s, rest)) :
    (∀ view, Todo.graceOver view ∉ rest) ∧ (Todo.subscribes x = false → ∀ y ∈ rest, Todo.subscribes y = false) := by
  have hvisible : ∀ view record, (∀ w, Todo.graceOver w ∉ startVisibleSources view record) ∧
      ∀ y ∈ startVisibleSources view record, Todo.subscribes y = false := by
    intro view record
    rw [startVisibleSources]
    split
    · simp
    simp only [mem_map]
    refine ⟨?_, ?_⟩
    · rintro w ⟨_, _, hw⟩
      cases hw
    · rintro y ⟨_, _, rfl⟩
      rfl
  cases x with
  | touchesViewed view record =>
    cases a with
    | returned =>
      rw [perform.eq_def] at h
      cases h
      split
      · exact ⟨(hvisible view record).1, fun _ => (hvisible view record).2⟩
      · simp
    | _ => cases h
  | _ =>
    cases a <;> first | (cases h; done) | skip
    all_goals
      rw [perform.eq_def] at h
      dsimp only at h
      repeat' split at h
    all_goals cases h
    all_goals simp +contextual [Todo.subscribes, or_imp, @eq_comm Todo]

/-- What `subscribe` finds when it registers, and who is subscribed when a latest revision is set. -/
def Agrees (r : Runtime) : Todo → Answer → Prop
  | .sendsSnapshot sub view record replaces, .sent true => r.Admitted sub view record replaces
  | .readsInternal view, .view record => r.Steady view record.revision
  | .viewChanged view revision _, _ => r.Steady view revision
  | _, _ => True

theorem Sound.perform {x : Todo} {a : Answer} {rest : List Todo} (h : r.Sound) (hc : r.Agrees x a)
    (hp : r.perform x a = some (s, rest)) : s.Sound ∧ r.Releases s := by
  have hsheds : r.Sheds s → s.Sound ∧ r.Releases s := fun k => ⟨h.sheds k, (k.exact h.exact).2⟩
  cases x with
  | sendsSnapshot sub view record replaces =>
    cases a with
    | sent ok =>
      cases ok with
      | true =>
        cases hp
        exact h.register hc
      | false =>
        cases hp
        exact hsheds (sheds_removeSubscriptions _ r)
    | _ => cases hp
  | readsInternal view =>
    cases a with
    | view record =>
      cases hp
      exact h.setLatestRevision hc
    | _ => cases hp
  | viewChanged view revision stops =>
    cases a with
    | returned =>
      cases hp
      exact h.setLatestRevision hc
    | _ => cases hp
  | graceOver view =>
    cases a with
    | returned =>
      cases hp
      exact h.stays rfl rfl rfl (fun _ _ => rfl) id
    | _ => cases hp
  | startFreezeLoop =>
    cases a with
    | returned =>
      rw [perform.eq_def] at hp
      dsimp only at hp
      split at hp
      · cases hp
        exact hsheds (.refl r)
      · cases hp
        exact hsheds (.same rfl rfl rfl rfl rfl (fun k => k.createTask (.inl (by simp))))
    | _ => cases hp
  | _ =>
    -- the rest takes subscriptions away, or does not touch them
    cases a <;> first | (cases hp; done) | skip
    all_goals
      rw [perform.eq_def] at hp
      dsimp only at hp
      repeat' split at hp
    all_goals cases hp
    all_goals
      first
      | exact hsheds (.same rfl rfl rfl rfl rfl id)
      | exact hsheds (sheds_removeSubscription r _)
      | exact hsheds (sheds_removeSubscriptions _ r)

theorem Plain.todo (h : r.Plain) (n : Nat) : Routine.Plain { todo := r.todo n } := by
  rw [Runtime.todo]
  cases hn : r.routines[n]? with
  | none => exact .inl (by simp)
  | some c => exact h c (mem_of_getElem? hn)

/-- An event that resumes a coroutine finds what its next piece of code counts on. -/
def Careful (r : Runtime) : RuntimeEvent → Prop
  | .resumes n a => ∀ x ∈ (r.todo n).head?, r.Agrees x a
  | _ => True

theorem Sound.next {e : RuntimeEvent} (h : r.Sound) (hc : r.Careful e)
    (he : runtimeNext r e = some s) : s.Sound ∧ r.Releases s := by
  have hsheds : ∀ u, r.Sheds u → u.Sound ∧ r.Releases u := fun u k => ⟨h.sheds k, (k.exact h.exact).2⟩
  cases e with
  | calls op =>
    rw [runtimeNext.eq_def] at he
    dsimp only at he
    split at he
    · cases he
      have hplain : Routine.Plain { todo := op.todo } := by
        refine .inl ?_
        intro view hview
        cases op <;> simp [Operation.todo] at hview
        split at hview <;> simp at hview
      have hcreate : r.Sheds (r.createTask op.todo) := .same rfl rfl rfl rfl rfl (fun k => k.createTask hplain)
      exact hsheds _ (hcreate.trans (sheds_place _ _ hplain))
    · cases he
  | resumes n a =>
    obtain ⟨x, rest, p, htodo, hp, rfl⟩ := next_perform he
    refine Sound.place (h.perform (hc x (by rw [htodo]; rfl)) hp) n ?_
    obtain ⟨hgrace, hsub⟩ := perform_todo hp
    rcases htodo ▸ h.plain.todo n with hplain | hplain
    · refine .inl ?_
      intro view hview
      rcases mem_append.mp hview with hview | hview
      · exact hgrace view hview
      · exact hplain view (mem_cons_of_mem _ hview)
    refine .inr ?_
    intro y hy
    rcases mem_append.mp hy with hy | hy
    · exact hsub (hplain x mem_cons_self) y hy
    · exact hplain y (mem_cons_of_mem _ hy)
  | raises n =>
    rw [runtimeNext.eq_def] at he
    dsimp only at he
    split at he
    next x rest cancelled hroutine =>
      have hplain := h.plain _ (mem_of_getElem? hroutine)
      split at he
      · cases he
      split at he
      · cases he
        refine Sound.place ?_ n (.inl (by simp))
        rcases hplain with hgrace | hsub
        · exact hsheds _ (sheds_unwind r hgrace)
        obtain ⟨tasks, htasks⟩ := unwind_stays r hsub
        rw [htasks]
        exact h.stays rfl rfl rfl (fun _ _ => rfl) id
      · cases he
    · cases he
  | fansOut t dead =>
    rw [runtimeNext.eq_def] at he
    dsimp only at he
    split at he
    · cases he
      exact hsheds _ (sheds_removeSubscriptions dead r)
    · cases he
  | _ =>
    rw [runtimeNext.eq_def] at he
    dsimp only at he
    split at he
    · cases he
      exact hsheds _ (.same rfl rfl rfl rfl rfl id)
    · cases he

end Runtime

/-- Where every subscription finds at its registration what it found at its check, and no latest revision changes under a
producer subscription, the limits and the index hold, and a view without producers has a stop-grace task. -/
theorem subscriptions_kept {perSocket total : Nat} {r : Runtime}
    (h : Runs.ReachesUnder runtimeNext Runtime.Careful (Runtime.new perSocket total) r) :
    r.Bounded ∧ r.subscriptions.Exact ∧ ∀ e s, r.Careful e → runtimeNext r e = some s → r.Releases s := by
  have hs : r.Sound := by
    refine Runs.invariant_under (fun _ _ _ hs hc he => (hs.next hc he).1) ⟨⟨?_, ?_⟩, ?_, ?_⟩ h
    · exact fun ws => Nat.zero_le _
    · exact Nat.zero_le _
    · exact fun view key => ⟨fun hkey => (by cases hkey), fun ⟨_, hsub, _⟩ => (by cases hsub)⟩
    · exact fun c hc => absurd hc not_mem_nil
  exact ⟨hs.bounded, hs.exact, fun e s hc he => (hs.next hc he).2⟩

def pageRecord : ViewRecord := ⟨1, 1, true, false, none, []⟩

/-- A subscription, up to where its snapshot is being sent. -/
def pageCheck (n : Nat) (id : String) : List RuntimeEvent :=
  [.calls (.subscribe (0, id) "page"), .resumes n (.view pageRecord)]

instance {r : Runtime} {view : String} {revision : Nat} : Decidable (r.Steady view revision) :=
  inferInstanceAs (Decidable (_ = true → _ = some revision))

instance {r : Runtime} {sub : SubscriptionKey} {view : String} {record : ViewRecord} {replaces : Bool} :
    Decidable (r.Admitted sub view record replaces) :=
  decidable_of_iff ((replaces = true ∨ (r.subscriptions.all.get? sub).isNone = true) ∧ r.limitExceeded sub = false ∧
      r.Steady view record.latestRevision)
    ⟨fun ⟨h, k, l⟩ => ⟨h.imp_right Option.isNone_iff_eq_none.mp, k, l⟩,
      fun h => ⟨h.replaced.imp_right Option.isNone_iff_eq_none.mpr, h.room, h.steady⟩⟩

instance careful_decidable (r : Runtime) (e : RuntimeEvent) : Decidable (r.Careful e) := by
  have hagrees : ∀ x a, Decidable (r.Agrees x a) := by
    intro x a
    unfold Runtime.Agrees
    split <;> infer_instance
  unfold Runtime.Careful
  split <;> infer_instance

theorem one_subscription_kept : ∃ r, Runs.run runtimeNext (Runtime.new 1 1)
    (pageCheck 0 "a" ++ [.resumes 0 (.sent true)]) = some r ∧ r.Bounded := by
  have hrun : (Runs.run runtimeNext (Runtime.new 1 1) (pageCheck 0 "a" ++ [.resumes 0 (.sent true)])).any
      (fun _ => true) = true := by decide +kernel
  obtain ⟨r, hr, _⟩ := (Option.any_eq_true _ _).mp hrun
  exact ⟨r, hr, (subscriptions_kept (Runs.reachesUnder_of_all (by decide +kernel) hr)).1⟩

/-- Both subscriptions are past the check of the limit before one of them is registered. -/
theorem subscription_limit_exceeded : ¬ ∀ (perSocket total : Nat) (r : Runtime),
    Runs.Reaches runtimeNext (Runtime.new perSocket total) r →
      r.Bounded ∧ r.subscriptions.Exact ∧ ∀ e s, runtimeNext r e = some s → r.Releases s := by
  intro h
  have hrun : (Runs.run runtimeNext (Runtime.new 1 1) (pageCheck 0 "a" ++ pageCheck 1 "b" ++
      [.resumes 0 (.sent true), .resumes 1 (.sent true)])).any
      (fun r => r.maxSubscriptionsTotal < r.subscriptions.all.size) = true := by decide +kernel
  obtain ⟨r, hr, hsize⟩ := (Option.any_eq_true _ _).mp hrun
  exact absurd (h 1 1 r ⟨_, hr⟩).1.2 (Nat.not_le_of_gt (of_decide_eq_true hsize))

end OpenAgent.Dashboards
