import Mathlib.Data.List.Basic

/-- The writes that were committed and those in the open transaction, each with its task. -/
structure Journal (τ ω : Type) where
  saved : List (τ × ω) := []
  unsaved : List (τ × ω) := []

namespace Journal

open List

variable {τ ω σ : Type} {j : Journal τ ω} {x : τ × ω} {i : τ} {w : ω}

def all (j : Journal τ ω) : List (τ × ω) := j.saved ++ j.unsaved

def write (j : Journal τ ω) (i : τ) (w : ω) : Journal τ ω := { j with unsaved := j.unsaved ++ [(i, w)] }

def commit (j : Journal τ ω) : Journal τ ω := ⟨j.all, []⟩

def rollback (j : Journal τ ω) : Journal τ ω := ⟨j.saved, []⟩

@[simp] theorem all_commit : j.commit.all = j.all := append_nil _
@[simp] theorem all_rollback : j.rollback.all = j.saved := append_nil _

@[simp] theorem all_write : (j.write i w).all = j.all ++ [(i, w)] := (append_assoc _ _ _).symm

theorem mem_all_of_saved (h : x ∈ j.saved) : x ∈ j.all := mem_append_left _ h

theorem mem_all_iff : x ∈ j.all ↔ x ∈ j.saved ∨ x ∈ j.unsaved := mem_append

theorem mem_all_write : x ∈ (j.write i w).all ↔ x ∈ j.all ∨ x = (i, w) := by
  rw [all_write, mem_append, mem_singleton]

def replay (run : ω → σ → σ) (s : σ) (l : List (τ × ω)) : σ := l.foldl (fun s x => run x.2 s) s

theorem replay_concat (run : ω → σ → σ) (s : σ) (l : List (τ × ω)) (i : τ) (w : ω) :
    replay run s (l ++ [(i, w)]) = run w (replay run s l) := by
  rw [replay, foldl_append]
  rfl

end Journal
