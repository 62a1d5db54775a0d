import OpenAgent.Lib.Dict

namespace OpenAgent.Dashboards

open Py List

abbrev SourceKey := String × String

/-- A socket and a `subscriptionId`. -/
abbrev SubscriptionKey := Nat × String

structure Subscription where
  viewId : String
  revision : Nat

/-- `_subscriptions` and `_view_subscriptions`. -/
structure Subscriptions where
  all : Dict SubscriptionKey Subscription := Dict.empty
  byView : Dict String (List SubscriptionKey) := Dict.empty

namespace Subscriptions

def keys (s : Subscriptions) (view : String) : List SubscriptionKey := (s.byView.get? view).getD []

/-- `_subscriber_items`. -/
def items (s : Subscriptions) (view : String) : List (SubscriptionKey × Subscription) :=
  (s.keys view).filterMap (fun key => (s.all.get? key).map (fun sub => (key, sub)))

/-- `_view_subscriptions.setdefault(view_id, set()).add(key)`. -/
def add (s : Subscriptions) (key : SubscriptionKey) (sub : Subscription) : Subscriptions where
  all := s.all.set key sub
  byView := s.byView.set sub.viewId (if key ∈ s.keys sub.viewId then s.keys sub.viewId else s.keys sub.viewId ++ [key])

def discard (s : Subscriptions) (key : SubscriptionKey) (sub : Subscription) : Subscriptions where
  all := s.all.erase key
  byView :=
    if (s.byView.get? sub.viewId).isNone then s.byView
    else
      let rest := (s.keys sub.viewId).filter (fun k => k ≠ key)
      if rest.isEmpty then s.byView.erase sub.viewId else s.byView.set sub.viewId rest

def Indexed (s : Subscriptions) : Prop := ∀ key sub, s.all.get? key = some sub → key ∈ s.keys sub.viewId

variable {s : Subscriptions} {key k : SubscriptionKey} {sub : Subscription} {view : String}

theorem keys_add : (s.add key sub).keys view =
    if view = sub.viewId then (if key ∈ s.keys view then s.keys view else s.keys view ++ [key]) else s.keys view := by
  rw [keys, add, Dict.get?_set]
  by_cases hv : view = sub.viewId
  · rw [if_pos hv, if_pos hv, hv]
    rfl
  · rw [if_neg hv, if_neg hv]
    rfl

theorem mem_keys_add_self : key ∈ (s.add key sub).keys sub.viewId := by
  rw [keys_add, if_pos rfl]
  split
  next h => exact h
  next => exact mem_append_right _ (mem_singleton_self key)

theorem mem_keys_add (h : k ∈ s.keys view) : k ∈ (s.add key sub).keys view := by
  rw [keys_add]
  split
  · split
    · exact h
    · exact mem_append_left _ h
  · exact h

theorem keys_discard : (s.discard key sub).keys view =
    if view = sub.viewId then (s.keys view).filter (fun k => k ≠ key) else s.keys view := by
  rw [keys, discard]
  dsimp only
  by_cases hv : view = sub.viewId
  · subst hv
    rw [if_pos rfl]
    cases hkeys : s.byView.get? sub.viewId with
    | none => simp [keys, hkeys]
    | some ks =>
      rw [if_neg (by simp), keys, hkeys, Option.getD_some]
      split
      next hrest => rw [Dict.get?_erase_self, isEmpty_iff.mp hrest, Option.getD_none]
      next => rw [Dict.get?_set_self, Option.getD_some]
  rw [if_neg hv]
  split
  · rfl
  split
  · rw [Dict.get?_erase_of_ne _ hv]
    rfl
  · rw [Dict.get?_set_of_ne _ _ hv]
    rfl

theorem mem_keys_discard_iff : k ∈ (s.discard key sub).keys view ↔ k ∈ s.keys view ∧ (view = sub.viewId → k ≠ key) := by
  rw [keys_discard]
  split
  next hv => simp [hv]
  next hv => simp [hv]

theorem Indexed.add (h : s.Indexed) : (s.add key sub).Indexed := by
  intro k t ht
  change (s.all.set key sub).get? k = some t at ht
  rw [Dict.get?_set] at ht
  by_cases hk : k = key
  · rw [if_pos hk] at ht
    cases ht
    subst hk
    exact mem_keys_add_self
  · rw [if_neg hk] at ht
    exact mem_keys_add (h k t ht)

theorem Indexed.discard (h : s.Indexed) : (s.discard key sub).Indexed := by
  intro k t ht
  change (s.all.erase key).get? k = some t at ht
  rw [Dict.get?_erase] at ht
  by_cases hk : k = key
  · rw [if_pos hk] at ht
    cases ht
  · rw [if_neg hk] at ht
    exact mem_keys_discard_iff.mpr ⟨h k t ht, fun _ => hk⟩

theorem Indexed.mem_items (h : s.Indexed) (hk : s.all.get? key = some sub) :
    key ∈ (s.items sub.viewId).map Prod.fst := by
  refine mem_map.mpr ⟨(key, sub), ?_, rfl⟩
  exact mem_filterMap.mpr ⟨key, h key sub hk, by rw [hk]; rfl⟩

theorem indexed_empty : Indexed {} := by
  intro key sub h
  cases h

end Subscriptions

end OpenAgent.Dashboards
