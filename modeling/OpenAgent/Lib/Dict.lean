import Mathlib.Data.List.Nodup
import Mathlib.Algebra.GroupWithZero.Nat
import Mathlib.Algebra.BigOperators.Group.List.Basic
import Mathlib.Algebra.Order.BigOperators.Group.List
import Mathlib.Algebra.Order.Group.Nat

namespace Py

open List

universe u v

variable {κ : Type u} {α : Type v} [DecidableEq κ]

namespace Assoc

def get? (l : List (κ × α)) (k : κ) : Option α := (l.find? (fun e => e.1 = k)).map Prod.snd

def set (l : List (κ × α)) (k : κ) (v : α) : List (κ × α) :=
  if k ∈ l.map Prod.fst then l.map (fun e => if e.1 = k then (k, v) else e) else l ++ [(k, v)]

def erase (l : List (κ × α)) (k : κ) : List (κ × α) := l.filter (fun e => e.1 ≠ k)

@[simp] theorem get?_nil (k : κ) : get? ([] : List (κ × α)) k = none := rfl

@[simp] theorem get?_cons (e : κ × α) (l : List (κ × α)) (k : κ) :
    get? (e :: l) k = if e.1 = k then some e.2 else get? l k := by
  by_cases h : e.1 = k <;> simp [get?, h]

theorem get?_append (l m : List (κ × α)) (k : κ) : get? (l ++ m) k = (get? l k).or (get? m k) := by
  induction l with
  | nil => simp
  | cons e l ih => by_cases h : e.1 = k <;> simp [h, ih]

theorem get?_eq_none_iff (l : List (κ × α)) (k : κ) : get? l k = none ↔ k ∉ l.map Prod.fst := by
  induction l with
  | nil => simp
  | cons e l ih =>
    by_cases h : e.1 = k
    · simp [h]
    · simp only [get?_cons, h, if_false, ih, map_cons, mem_cons, not_or]
      exact ⟨fun hn => ⟨fun he => h he.symm, hn⟩, fun hn => hn.2⟩

variable {l : List (κ × α)} {k : κ} {v : α}

theorem mem_of_get? (h : get? l k = some v) : (k, v) ∈ l := by
  induction l with
  | nil => simp at h
  | cons e l ih =>
    by_cases he : e.1 = k
    · simp only [get?_cons, he, if_true, Option.some.injEq] at h
      exact mem_cons.mpr (.inl (by rw [← he, ← h]))
    · simp only [get?_cons, he, if_false] at h
      exact mem_cons_of_mem _ (ih h)

theorem get?_of_mem (hn : (l.map Prod.fst).Nodup) (h : (k, v) ∈ l) : get? l k = some v := by
  induction l with
  | nil => simp at h
  | cons e l ih =>
    rw [map_cons, nodup_cons] at hn
    rcases mem_cons.mp h with rfl | h
    · simp
    · have hne : e.1 ≠ k := fun he => hn.1 (he ▸ mem_map_of_mem h)
      simp [hne, ih hn.2 h]

theorem set_keys (l : List (κ × α)) (k : κ) (v : α) :
    (set l k v).map Prod.fst = if k ∈ l.map Prod.fst then l.map Prod.fst else l.map Prod.fst ++ [k] := by
  unfold set
  split
  · rw [map_map]
    refine map_congr_left (fun e _ => ?_)
    by_cases he : e.1 = k <;> simp [he]
  · simp

theorem get?_set (l : List (κ × α)) (k j : κ) (v : α) : get? (set l k v) j = if j = k then some v else get? l j := by
  unfold set
  split
  · rename_i hk
    induction l with
    | nil => simp at hk
    | cons e l ih =>
      by_cases he : e.1 = k
      · by_cases hj : j = k
        · simp [he, hj]
        · have hl : get? (l.map (fun e => if e.1 = k then (k, v) else e)) j = get? l j := by
            clear ih hk
            induction l with
            | nil => rfl
            | cons d l ih =>
              by_cases hd : d.1 = k
              · simp [hd, Ne.symm hj, ih]
              · simp [hd, ih]
          simp [he, Ne.symm hj, hj, hl]
      have hk' : k ∈ l.map Prod.fst := by
        rcases mem_cons.mp hk with h | h
        · exact absurd h.symm he
        · exact h
      simp only [map_cons, he, if_false, get?_cons, ih hk']
      by_cases hj : j = k
      · simp [hj, he]
      · simp [hj]
  · rename_i hk
    rw [← get?_eq_none_iff] at hk
    rw [get?_append]
    by_cases hj : j = k
    · simp [hj, hk]
    · simp [hj, Ne.symm hj]

theorem get?_erase (l : List (κ × α)) (k j : κ) : get? (erase l k) j = if j = k then none else get? l j := by
  induction l with
  | nil => simp [erase]
  | cons e l ih =>
    unfold erase at ih ⊢
    by_cases he : e.1 = k
    · rw [filter_cons_of_neg (by simp [he]), ih]
      by_cases hj : j = k
      · simp [hj]
      · simp [hj, he, Ne.symm hj]
    rw [filter_cons_of_pos (by simp [he]), get?_cons, ih, get?_cons]
    by_cases hj : e.1 = j
    · simp [hj, hj ▸ he]
    · simp [hj]

theorem erase_of_not_mem (h : k ∉ l.map Prod.fst) : erase l k = l := by
  refine filter_eq_self.mpr (fun e he => ?_)
  have hne : e.1 ≠ k := fun heq => h (heq ▸ mem_map_of_mem he)
  simp [hne]

theorem perm_erase (hn : (l.map Prod.fst).Nodup)
    (h : get? l k = some v) : l.Perm ((k, v) :: erase l k) := by
  induction l with
  | nil => simp at h
  | cons e l ih =>
    rw [map_cons, nodup_cons] at hn
    by_cases he : e.1 = k
    · have hv : e = (k, v) := by
        rw [get?_cons, if_pos he, Option.some.injEq] at h
        rw [← he, ← h]
      subst hv
      have ht := erase_of_not_mem hn.1
      rw [erase, filter_cons_of_neg (by simp)]
      exact List.Perm.of_eq (by rw [erase] at ht; rw [ht])
    rw [get?_cons, if_neg he] at h
    rw [erase, filter_cons_of_pos (by simp [he])]
    exact ((ih hn.2 h).cons e).trans (List.Perm.swap _ _ _)

theorem nodup_set (hn : (l.map Prod.fst).Nodup) (k : κ) (v : α) :
    ((set l k v).map Prod.fst).Nodup := by
  rw [set_keys]
  split
  · exact hn
  rename_i h
  rw [← concat_eq_append]
  exact hn.concat h

theorem perm_set (hn : (l.map Prod.fst).Nodup) (k : κ) (v : α) :
    (set l k v).Perm ((k, v) :: erase l k) := by
  have hk := nodup_set hn k v
  have he : erase (set l k v) k = erase l k := by
    unfold set
    split
    · rw [erase, filter_map]
      have hp : ((fun e : κ × α => decide (e.1 ≠ k)) ∘ fun e => if e.1 = k then (k, v) else e) =
          fun e : κ × α => decide (e.1 ≠ k) := by
        funext e
        by_cases h : e.1 = k <;> simp [h]
      rw [hp, erase]
      refine (map_congr_left (fun e hm => ?_)).trans (map_id _)
      have hne := (mem_filter.mp hm).2
      simp only [ne_eq, decide_not, Bool.not_eq_eq_eq_not, Bool.not_true, decide_eq_false_iff_not] at hne
      simp [hne]
    · simp [erase]
  have hg : get? (set l k v) k = some v := by simp [get?_set]
  exact he ▸ perm_erase hk hg

section MapValues

variable {β : Type v} (f : α → β)

theorem get?_mapValues (l : List (κ × α)) (k : κ) : get? (l.map (fun e => (e.1, f e.2))) k = (get? l k).map f := by
  induction l with
  | nil => rfl
  | cons e l ih => by_cases h : e.1 = k <;> simp [h, ih]

theorem set_mapValues (l : List (κ × α)) (k : κ) (v : α) :
    set (l.map (fun e => (e.1, f e.2))) k (f v) = (set l k v).map (fun e => (e.1, f e.2)) := by
  have hkeys : (l.map (fun e => (e.1, f e.2))).map Prod.fst = l.map Prod.fst := by
    rw [map_map]
    rfl
  rw [set, set, hkeys]
  split
  · rw [map_map, map_map]
    refine map_congr_left fun e _ => ?_
    by_cases he : e.1 = k <;> simp [he]
  · simp

end MapValues

theorem mem_set {e : κ × α} (h : e ∈ set l k v) : e = (k, v) ∨ e ∈ l := by
  rw [set] at h
  split at h
  · obtain ⟨d, hd, he⟩ := mem_map.mp h
    split at he
    · exact .inl he.symm
    · exact .inr (he ▸ hd)
  rcases mem_append.mp h with h | h
  · exact .inr h
  · exact .inl (mem_singleton.mp h)

theorem nodup_erase (hn : (l.map Prod.fst).Nodup) (k : κ) : ((erase l k).map Prod.fst).Nodup := hn.sublist (filter_sublist.map Prod.fst)

end Assoc

/-- An insertion-ordered dictionary. The field keeps the keys distinct, so
that a lookup and a membership of the entry list say the same. -/
structure Dict (κ : Type u) (α : Type v) where
  entries : List (κ × α)
  nodup : (entries.map Prod.fst).Nodup

namespace Dict

def empty : Dict κ α := ⟨[], by simp⟩

def keys (d : Dict κ α) : List κ := d.entries.map Prod.fst

def values (d : Dict κ α) : List α := d.entries.map Prod.snd

def size (d : Dict κ α) : Nat := d.entries.length

def get? (d : Dict κ α) (k : κ) : Option α := Assoc.get? d.entries k

def set (d : Dict κ α) (k : κ) (v : α) : Dict κ α :=
  ⟨Assoc.set d.entries k v, Assoc.nodup_set d.nodup k v⟩

def erase (d : Dict κ α) (k : κ) : Dict κ α :=
  ⟨Assoc.erase d.entries k, Assoc.nodup_erase d.nodup k⟩

def filter (d : Dict κ α) (p : κ → α → Bool) : Dict κ α :=
  ⟨d.entries.filter (fun e => p e.1 e.2), d.nodup.sublist (List.filter_sublist.map Prod.fst)⟩

def mapEntries (d : Dict κ α) (f : κ → α → α) : Dict κ α :=
  ⟨d.entries.map (fun e => (e.1, f e.1 e.2)), by rw [List.map_map]; exact d.nodup⟩

def update (d e : Dict κ α) : Dict κ α := e.entries.foldl (fun d p => d.set p.1 p.2) d

def sumBy (d : Dict κ α) (f : κ → α → Nat) : Nat := (d.entries.map (fun e => f e.1 e.2)).sum

omit [DecidableEq κ] in
variable {d e : Dict κ α}

@[ext] theorem ext {d e : Dict κ α} (h : d.entries = e.entries) : d = e := by
  cases d; cases e; cases h; rfl

@[simp] theorem get?_empty (k : κ) : (empty : Dict κ α).get? k = none := rfl

omit [DecidableEq κ] in
@[simp] theorem entries_empty : (empty : Dict κ α).entries = [] := rfl

section

variable (d : Dict κ α)

include d

theorem get?_eq_some_iff (k : κ) (v : α) : d.get? k = some v ↔ (k, v) ∈ d.entries :=
  ⟨Assoc.mem_of_get?, Assoc.get?_of_mem d.nodup⟩

theorem get?_set (k j : κ) (v : α) : (d.set k v).get? j = if j = k then some v else d.get? j := Assoc.get?_set _ _ _ _

theorem get?_erase (k j : κ) : (d.erase k).get? j = if j = k then none else d.get? j := Assoc.get?_erase _ _ _

@[simp] theorem get?_set_self (k : κ) (v : α) : (d.set k v).get? k = some v := by
  simp [get?_set]

@[simp] theorem get?_erase_self (k : κ) : (d.erase k).get? k = none := by
  simp [get?_erase]

theorem get?_set_of_ne {k j : κ} (v : α) (h : j ≠ k) : (d.set k v).get? j = d.get? j := by simp [get?_set, h]

theorem get?_erase_of_ne {k j : κ} (h : j ≠ k) : (d.erase k).get? j = d.get? j := by simp [get?_erase, h]

theorem get?_filter (p : κ → α → Bool) (k : κ) : (d.filter p).get? k = (d.get? k).filter (p k) := by
  cases h : d.get? k with
  | none =>
    rw [Option.filter_none]
    rw [get?, Assoc.get?_eq_none_iff] at h ⊢
    exact fun hk => h ((filter_sublist.map Prod.fst).subset hk)
  | some v =>
    rw [get?_eq_some_iff] at h
    by_cases hp : p k v = true
    · rw [Option.filter_some, if_pos hp, get?_eq_some_iff]
      exact mem_filter.mpr ⟨h, hp⟩
    rw [Option.filter_some, if_neg hp, get?, Assoc.get?_eq_none_iff]
    intro hk
    obtain ⟨⟨j, w⟩, he, rfl⟩ := mem_map.mp hk
    obtain ⟨hm, hw⟩ := mem_filter.mp he
    have hvw : some v = some w := by
      rw [← (get?_eq_some_iff d j v).mpr h, ← (get?_eq_some_iff d j w).mpr hm]
    cases hvw
    exact hp hw

theorem get?_mapEntries (f : κ → α → α) (k : κ) : (d.mapEntries f).get? k = (d.get? k).map (f k) := by
  cases h : d.get? k with
  | none =>
    rw [get?, Assoc.get?_eq_none_iff] at h
    rw [Option.map_none, get?, Assoc.get?_eq_none_iff]
    intro hk
    refine h ?_
    rw [mapEntries, map_map] at hk
    exact hk
  | some v =>
    rw [get?_eq_some_iff] at h
    rw [Option.map_some, get?_eq_some_iff]
    exact mem_map.mpr ⟨(k, v), h, rfl⟩

theorem mem_values_iff (v : α) : v ∈ d.values ↔ ∃ k, d.get? k = some v := by
  unfold values
  constructor
  · intro h
    obtain ⟨⟨k, w⟩, he, rfl⟩ := mem_map.mp h
    exact ⟨k, (get?_eq_some_iff d k w).mpr he⟩
  · rintro ⟨k, h⟩
    exact mem_map.mpr ⟨(k, v), (get?_eq_some_iff d k v).mp h, rfl⟩

theorem mem_keys_iff (k : κ) : k ∈ d.keys ↔ ∃ v, d.get? k = some v := by
  cases h : d.get? k with
  | none =>
    rw [get?, Assoc.get?_eq_none_iff] at h
    simp [keys, h]
  | some v =>
    rw [get?_eq_some_iff] at h
    exact ⟨fun _ => ⟨v, rfl⟩, fun _ => mem_map_of_mem h⟩

theorem sumBy_erase (f : κ → α → Nat) {k : κ} {v : α} (h : d.get? k = some v) :
    d.sumBy f = f k v + (d.erase k).sumBy f := by
  have hp := (Assoc.perm_erase d.nodup h).map (fun e => f e.1 e.2)
  simpa [sumBy, erase] using hp.sum_eq

theorem erase_of_get?_none {k : κ} (h : d.get? k = none) : d.erase k = d :=
  ext (Assoc.erase_of_not_mem ((Assoc.get?_eq_none_iff _ _).mp h))

theorem sumBy_set (f : κ → α → Nat) (k : κ) (v : α) : (d.set k v).sumBy f = f k v + (d.erase k).sumBy f := by
  have hp := (Assoc.perm_set d.nodup k v).map (fun e => f e.1 e.2)
  simpa [sumBy, erase, set] using hp.sum_eq

end

omit [DecidableEq κ] in
theorem sumBy_filter (d : Dict κ α) (f : κ → α → Nat) (p : κ → α → Bool) :
    d.sumBy f = (d.filter p).sumBy f + (d.filter (fun k v => !p k v)).sumBy f := by
  unfold sumBy filter
  simp only
  induction d.entries with
  | nil => rfl
  | cons e l ih => cases h : p e.1 e.2 <;> simp_all <;> omega

theorem values_set_of_none (d : Dict κ α) {k : κ} {v : α} (h : d.get? k = none) :
    (d.set k v).values = d.values ++ [v] := by
  have hk : k ∉ d.entries.map Prod.fst := (Assoc.get?_eq_none_iff _ _).mp h
  simp only [values, set, Assoc.set, if_neg hk, map_append, map_cons, map_nil]

theorem sumBy_congr (d : Dict κ α) {f g : κ → α → Nat}
    (h : ∀ k v, d.get? k = some v → f k v = g k v) : d.sumBy f = d.sumBy g := by
  unfold sumBy
  rw [map_congr_left (fun e he => h e.1 e.2 ((get?_eq_some_iff d e.1 e.2).mpr he))]

theorem sumBy_eq_zero_iff (d : Dict κ α) (f : κ → α → Nat) : d.sumBy f = 0 ↔ ∀ k v, d.get? k = some v → f k v = 0 := by
  rw [sumBy, List.sum_eq_zero_iff_forall_eq_nat]
  simp only [List.mem_map, forall_exists_index, and_imp, Prod.forall, get?_eq_some_iff]
  exact ⟨fun h k v hm => h _ k v hm rfl, fun h _ k v hm he => he ▸ h k v hm⟩

theorem le_sumBy (d : Dict κ α) (f : κ → α → Nat) {k : κ} {v : α} (h : d.get? k = some v) : f k v ≤ d.sumBy f := by
  rw [sumBy_erase d f h]
  exact Nat.le_add_right _ _

theorem existsUnique_of_sumBy_eq_one (d : Dict κ α) (f : κ → α → Nat) (h : d.sumBy f = 1) :
    ∃ k v, d.get? k = some v ∧ f k v = 1 ∧ ∀ j w, d.get? j = some w → f j w ≠ 0 → j = k := by
  have hex : ¬ ∀ k v, d.get? k = some v → f k v = 0 := by
    rw [← sumBy_eq_zero_iff]
    omega
  push Not at hex
  obtain ⟨k, v, hk, hf⟩ := hex
  have hs := sumBy_erase d f hk
  refine ⟨k, v, hk, by omega, fun j w hj hw => ?_⟩
  by_contra hne
  have hle := le_sumBy (d.erase k) f ((get?_erase_of_ne d hne).trans hj)
  omega

omit [DecidableEq κ] in
theorem size_eq_sumBy (d : Dict κ α) : d.size = d.sumBy (fun _ _ => 1) := by
  simp [size, sumBy]

theorem sumBy_le_of_subset {d e : Dict κ α} (h : ∀ k v, d.get? k = some v → e.get? k = some v)
    (f : κ → α → Nat) : d.sumBy f ≤ e.sumBy f := by
  have hs : d.entries ⊆ e.entries := by
    rintro ⟨k, v⟩ hm
    exact (get?_eq_some_iff e k v).mp (h k v ((get?_eq_some_iff d k v).mpr hm))
  obtain ⟨l, hp, hl⟩ := subperm_of_subset d.nodup.of_map hs
  have hsum := (hp.map (fun e => f e.1 e.2)).sum_eq
  unfold sumBy
  rw [← hsum]
  exact (hl.map _).sum_le_sum (fun _ _ => Nat.zero_le _)

theorem size_le_of_subset {d e : Dict κ α} (h : ∀ k v, d.get? k = some v → e.get? k = some v) : d.size ≤ e.size := by
  rw [size_eq_sumBy, size_eq_sumBy]
  exact sumBy_le_of_subset h _

theorem sumBy_of_subset {d e : Dict κ α} (h : ∀ k v, d.get? k = some v → e.get? k = some v)
    {f : κ → α → Nat} (hz : ∀ k v, e.get? k = some v → d.get? k = none → f k v = 0) :
    d.sumBy f = e.sumBy f := by
  rw [sumBy_filter e f (fun k _ => (d.get? k).isSome)]
  have hrest : (e.filter (fun k _ => !(d.get? k).isSome)).sumBy f = 0 := by
    rw [sumBy_eq_zero_iff]
    intro k v hk
    rw [get?_filter, Option.filter_eq_some_iff] at hk
    exact hz k v hk.1 (by simpa using hk.2)
  rw [hrest, Nat.add_zero]
  apply le_antisymm
  · refine sumBy_le_of_subset (fun k v hk => ?_) f
    rw [get?_filter, Option.filter_eq_some_iff]
    exact ⟨h k v hk, by rw [hk]; rfl⟩
  refine sumBy_le_of_subset (fun k v hk => ?_) f
  rw [get?_filter, Option.filter_eq_some_iff] at hk
  obtain ⟨w, hw⟩ := Option.isSome_iff_exists.mp hk.2
  rw [hw, ← h k w hw, hk.1]

def Grows [Preorder α] (d e : Dict κ α) : Prop :=
  ∀ k v, d.get? k = some v → ∃ w, e.get? k = some w ∧ v ≤ w

theorem Grows.refl [Preorder α] (d : Dict κ α) : d.Grows d := fun _ v h => ⟨v, h, le_rfl⟩

theorem Grows.trans [Preorder α] {d e f : Dict κ α} (h : d.Grows e) (g : e.Grows f) : d.Grows f := by
  intro k v hv
  obtain ⟨w, hw, hvw⟩ := h k v hv
  obtain ⟨u, hu, hwu⟩ := g k w hw
  exact ⟨u, hu, hvw.trans hwu⟩

theorem grows_set [LinearOrder α] (d : Dict κ α) (k : κ) (v least : α) :
    d.Grows (d.set k (max ((d.get? k).getD least) v)) := by
  intro j w hw
  rw [get?_set]
  split
  · rename_i hj
    subst hj
    rw [hw]
    exact ⟨_, rfl, le_max_left _ _⟩
  · exact ⟨w, hw, le_rfl⟩

theorem get?_update (d e : Dict κ α) (k : κ) : (d.update e).get? k = (e.get? k).or (d.get? k) := by
  obtain ⟨l, hn⟩ := e
  unfold update get?
  simp only
  induction l generalizing d with
  | nil => simp
  | cons p l ih =>
    rw [map_cons, nodup_cons] at hn
    rw [foldl_cons, ih _ hn.2, Assoc.get?_cons]
    have hs := get?_set d p.1 k p.2
    unfold get? at hs
    rw [hs]
    by_cases hk : k = p.1
    · subst hk
      simp [(Assoc.get?_eq_none_iff l p.1).mpr hn.1]
    · simp [hk, Ne.symm hk]

theorem update_empty (e : Dict κ α) : (empty : Dict κ α).update e = e := by
  have hl : ∀ (l : List (κ × α)) (d : Dict κ α), ((d.entries ++ l).map Prod.fst).Nodup →
      (l.foldl (fun d p => d.set p.1 p.2) d).entries = d.entries ++ l := by
    intro l
    induction l with
    | nil => simp
    | cons p l ih =>
      intro d hn
      have hp : p.1 ∉ d.entries.map Prod.fst := by
        intro hm
        rw [map_append, nodup_append] at hn
        exact hn.2.2 p.1 hm p.1 (by simp) rfl
      have hd : (d.set p.1 p.2).entries = d.entries ++ [p] := by
        simp only [set, Assoc.set, if_neg hp]
      rw [foldl_cons, ih _ (by simpa [hd] using hn), hd]
      simp
  exact ext ((hl e.entries empty (by simpa using e.nodup)).trans (by simp))

end Dict

end Py
