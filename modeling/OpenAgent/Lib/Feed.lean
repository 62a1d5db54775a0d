import Mathlib.Data.List.Basic

namespace Feed

open List

universe u

variable {α : Type u} (cursor : α → Nat)

def after (c : Nat) (log : List α) : List α := log.filter (fun e => decide (c < cursor e))

def upto (c : Nat) (log : List α) : List α := log.filter (fun e => decide (cursor e ≤ c))

def Increasing (log : List α) : Prop := log.Pairwise (fun a b => cursor a < cursor b)

variable {cursor} {c : Nat} {log : List α} {e : α}

theorem Increasing.append (h : Increasing cursor log) (he : ∀ x ∈ log, cursor x < cursor e) :
    Increasing cursor (log ++ [e]) := by
  refine pairwise_append.mpr ⟨h, pairwise_singleton _ e, ?_⟩
  intro x hx y hy
  rw [mem_singleton.mp hy]
  exact he x hx

theorem upto_eq_nil_of_lt (h : ∀ x ∈ log, c < cursor x) : upto cursor c log = [] := by
  refine filter_eq_nil_iff.mpr ?_
  intro x hx
  simpa using h x hx

theorem after_eq_self_of_lt (h : ∀ x ∈ log, c < cursor x) : after cursor c log = log := by
  refine filter_eq_self.mpr ?_
  intro x hx
  simpa using h x hx

theorem upto_append_after (h : Increasing cursor log) : upto cursor c log ++ after cursor c log = log := by
  induction log with
  | nil => rfl
  | cons x log ih =>
    rw [Increasing, pairwise_cons] at h
    obtain ⟨hx, hlog⟩ := h
    by_cases hc : cursor x ≤ c
    · have hu : upto cursor c (x :: log) = x :: upto cursor c log := by simp [upto, hc]
      have ha : after cursor c (x :: log) = after cursor c log := by simp [after, hc]
      rw [hu, ha, cons_append, ih hlog]
    have hall : ∀ y ∈ x :: log, c < cursor y := by
      intro y hy
      rcases mem_cons.mp hy with rfl | hy
      · exact Nat.lt_of_not_le hc
      · exact Nat.lt_trans (Nat.lt_of_not_le hc) (hx y hy)
    rw [upto_eq_nil_of_lt hall, after_eq_self_of_lt hall, nil_append]

theorem upto_append (h : c < cursor e) : upto cursor c (log ++ [e]) = upto cursor c log := by
  simp [upto, filter_append, Nat.not_le.mpr h]

theorem after_append (h : c < cursor e) : after cursor c (log ++ [e]) = after cursor c log ++ [e] := by
  simp [after, filter_append, h]

theorem advance {rest : List α} (h : Increasing cursor log) (ha : after cursor c log = e :: rest) :
    upto cursor (cursor e) log = upto cursor c log ++ [e] ∧ after cursor (cursor e) log = rest := by
  have hlog : upto cursor c log ++ e :: rest = log := by rw [← ha, upto_append_after h]
  have hspl := hlog.symm ▸ h
  obtain ⟨-, hrest, hcro⟩ := pairwise_append.mp hspl
  obtain ⟨hnext, -⟩ := pairwise_cons.mp hrest
  have hpast : ∀ x ∈ upto cursor c log, cursor x ≤ cursor e := by
    intro x hx
    exact Nat.le_of_lt (hcro x hx e mem_cons_self)
  constructor
  · have hkeep : (upto cursor c log).filter (fun x => decide (cursor x ≤ cursor e)) = upto cursor c log :=
      filter_eq_self.mpr (fun x hx => by simpa using hpast x hx)
    have hdrop : rest.filter (fun x => decide (cursor x ≤ cursor e)) = [] :=
      filter_eq_nil_iff.mpr (fun x hx => by simpa using hnext x hx)
    rw [upto, ← hlog, filter_append, hlog, hkeep, filter_cons_of_pos (by simp), hdrop]
  have hdrop : (upto cursor c log).filter (fun x => decide (cursor e < cursor x)) = [] :=
    filter_eq_nil_iff.mpr (fun x hx => by simpa using hpast x hx)
  have hkeep : rest.filter (fun x => decide (cursor e < cursor x)) = rest :=
    filter_eq_self.mpr (fun x hx => by simpa using hnext x hx)
  rw [after, ← hlog, filter_append, hdrop, filter_cons_of_neg (by simp), hkeep, nil_append]

end Feed
