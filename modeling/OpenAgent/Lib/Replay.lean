import Mathlib.Data.List.Induction
import OpenAgent.Lib.Dict

namespace Replay

open Py List

universe u v

variable {α : Type u} {κ : Type v} [DecidableEq κ]

inductive Change (α : Type u)
  | put (a : α)
  | drop (a : α)
deriving DecidableEq

def Change.subject : Change α → α
  | .put a => a
  | .drop a => a

variable (key : α → Option κ)

def apply (d : Dict κ α) : Change α → Dict κ α
  | .put a => match key a with
      | some k => d.set k a
      | none => d
  | .drop a => match key a with
      | some k => d.erase k
      | none => d

def table (changes : List (Change α)) : Dict κ α := changes.foldl (apply key) Dict.empty

variable {key}

theorem table_concat (changes : List (Change α)) (c : Change α) :
    table key (changes ++ [c]) = apply key (table key changes) c := by
  rw [table, foldl_append]
  rfl

theorem get?_apply_of_ne (d : Dict κ α) {c : Change α} {k : κ} (h : key c.subject ≠ some k) :
    (apply key d c).get? k = d.get? k := by
  cases c with
  | put a =>
    rw [apply]
    split
    · rename_i j hj
      exact Dict.get?_set_of_ne _ _ (fun he => h (he ▸ hj))
    · rfl
  | drop a =>
    rw [apply]
    split
    · rename_i j hj
      exact Dict.get?_erase_of_ne _ (fun he => h (he ▸ hj))
    · rfl

/-- An entry is in the table when its key was not changed since it was put there. -/
theorem get?_table_iff {changes : List (Change α)} {k : κ} {a : α} : (table key changes).get? k = some a ↔
      ∃ pre post, changes = pre ++ .put a :: post ∧ key a = some k ∧ ∀ c ∈ post, key c.subject ≠ some k := by
  induction changes using List.reverseRecOn with
  | nil =>
    constructor
    · intro h
      cases h
    rintro ⟨pre, post, h, -⟩
    cases pre with
    | nil => cases h
    | cons _ _ => cases h
  | append_singleton changes c ih =>
    rw [table_concat]
    by_cases hc : key c.subject = some k
    · constructor
      · intro h
        cases c with
        | put b =>
          have hb : key b = some k := hc
          rw [apply, hb] at h
          rw [Dict.get?_set_self] at h
          cases h
          exact ⟨changes, [], rfl, hb, fun _ hmem => by cases hmem⟩
        | drop b =>
          have hb : key b = some k := hc
          rw [apply, hb] at h
          rw [Dict.get?_erase_self] at h
          cases h
      · rintro ⟨pre, post, hspl, ha, hpost⟩
        cases post using List.reverseRecOn with
        | nil =>
          obtain ⟨-, hlast⟩ := append_inj' hspl rfl
          cases hlast
          rw [apply, ha]
          exact Dict.get?_set_self _ _ _
        | append_singleton post e =>
          rw [← cons_append, ← append_assoc] at hspl
          obtain ⟨-, hlast⟩ := append_inj' hspl rfl
          cases hlast
          exact absurd hc (hpost c (mem_append_right _ (mem_singleton_self c)))
    · rw [get?_apply_of_ne _ hc, ih]
      constructor
      · rintro ⟨pre, post, rfl, ha, hpost⟩
        refine ⟨pre, post ++ [c], by rw [append_assoc, cons_append], ha, ?_⟩
        intro e he
        rcases mem_append.mp he with he | he
        · exact hpost e he
        · rw [mem_singleton.mp he]
          exact hc
      rintro ⟨pre, post, hspl, ha, hpost⟩
      cases post using List.reverseRecOn with
      | nil =>
        obtain ⟨-, hlast⟩ := append_inj' hspl rfl
        cases hlast
        exact absurd ha hc
      | append_singleton post e =>
        rw [← cons_append, ← append_assoc] at hspl
        obtain ⟨hpre, -⟩ := append_inj' hspl rfl
        exact ⟨pre, post, hpre, ha, fun x hx => hpost x (mem_append_left _ hx)⟩

end Replay
