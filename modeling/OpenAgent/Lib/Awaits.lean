import Mathlib.Data.List.Basic

/-- What a computation ends with: its value, the moment, and the notes it left. -/
structure Outcome (E α : Type) where
  value : α
  time : Nat
  notes : List E

/-- A computation that finds the world `w t` at moment `t`. -/
def Awaits (W E α : Type) : Type := (Nat → W) → Nat → Outcome E α

namespace Awaits

variable {W E α β : Type}

instance : Monad (Awaits W E) where
  pure a := fun _ t => ⟨a, t, []⟩
  bind x f := fun w t =>
    let first := x w t
    let second := f first.value w first.time
    ⟨second.value, second.time, first.notes ++ second.notes⟩

def await (f : W → α) : Awaits W E α := fun w t => ⟨f (w (t + 1)), t + 1, []⟩

def peek (f : W → α) : Awaits W E α := fun w t => ⟨f (w t), t, []⟩

def note (e : Nat → E) : Awaits W E Unit := fun _ t => ⟨(), t, [e t]⟩

section Values

variable {w : Nat → W} {t : Nat} {x : Awaits W E α} {f : α → Awaits W E β}

@[simp] theorem value_pure (a : α) : ((pure a : Awaits W E α) w t).value = a := rfl

@[simp] theorem time_pure (a : α) : ((pure a : Awaits W E α) w t).time = t := rfl

@[simp] theorem notes_pure (a : α) : ((pure a : Awaits W E α) w t).notes = [] := rfl

theorem value_bind : ((x >>= f) w t).value = (f (x w t).value w (x w t).time).value := rfl

theorem time_bind : ((x >>= f) w t).time = (f (x w t).value w (x w t).time).time := rfl

theorem notes_bind : ((x >>= f) w t).notes = (x w t).notes ++ (f (x w t).value w (x w t).time).notes := rfl

end Values

section Stamps

variable (stamp : E → Nat)

/-- Time goes on, and the notes bear moments from the beginning to the end of the computation. -/
structure Timely (x : Awaits W E α) : Prop where
  forward : ∀ w t, t ≤ (x w t).time
  stamps : ∀ w t, ∀ e ∈ (x w t).notes, stamp e ≤ (x w t).time

variable {stamp} {x : Awaits W E α} {f : α → Awaits W E β}

theorem Timely.pure (a : α) : Timely stamp (Pure.pure a : Awaits W E α) := ⟨fun _ _ => Nat.le_refl _, by simp⟩

theorem Timely.await (g : W → α) : Timely stamp (await g : Awaits W E α) :=
  ⟨fun _ t => Nat.le_succ t, by simp [Awaits.await]⟩

theorem Timely.note {e : Nat → E} (h : ∀ t, stamp (e t) ≤ t) : Timely stamp (note e : Awaits W E Unit) :=
  ⟨fun _ _ => Nat.le_refl _, fun _ t e' he => by
    rw [List.mem_singleton.mp he]
    exact h t⟩

theorem Timely.bind (hx : Timely stamp x) (hf : ∀ a, Timely stamp (f a)) : Timely stamp (x >>= f) where
  forward w t := Nat.le_trans (hx.forward w t) ((hf _).forward w _)
  stamps w t e he := by
    rw [notes_bind] at he
    rw [time_bind]
    rcases List.mem_append.mp he with h | h
    · exact Nat.le_trans (hx.stamps w t e h) ((hf _).forward w _)
    · exact (hf _).stamps w _ e h

theorem Timely.ite {p : Prop} [Decidable p] {y : Awaits W E α} (hx : Timely stamp x) (hy : Timely stamp y) :
    Timely stamp (if p then x else y) := by
  split
  · exact hx
  · exact hy

end Stamps

end Awaits
