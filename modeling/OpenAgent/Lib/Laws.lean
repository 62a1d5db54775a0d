import Mathlib.Data.List.Basic

namespace Laws

universe u

variable {A : Type u} {law : List A → A → Prop}

variable (law) in
def Lawful (trace : List A) : Prop := ∀ pre a post, trace = pre ++ a :: post → law pre a

theorem lawful_nil : Lawful law [] := by
  intro pre a post h
  cases pre <;> cases h

theorem lawful_concat {trace : List A} {a : A} : Lawful law (trace ++ [a]) ↔ Lawful law trace ∧ law trace a := by
  constructor
  · intro h
    exact ⟨fun pre b post heq => h pre b (post ++ [a]) (by simp [heq]), h trace a [] rfl⟩
  rintro ⟨h, ha⟩ pre b post heq
  rcases List.eq_nil_or_concat' post with rfl | ⟨post, c, rfl⟩
  · obtain ⟨rfl, hb⟩ := List.append_inj' heq rfl
    cases hb
    exact ha
  have heq' : trace ++ [a] = (pre ++ b :: post) ++ [c] := by simpa using heq
  obtain ⟨rfl, -⟩ := List.append_inj' heq' rfl
  exact h pre b post rfl

end Laws
