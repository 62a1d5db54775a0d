namespace Lockstep

universe u v w

variable {S : Type u} {T : Type v} {E : Type w} (f : S → E → S) (g : T → E → T)

def Steady (C : S → E → Prop) : S → List E → Prop
  | _, [] => True
  | s, e :: es => C s e ∧ Steady C (f s e) es

instance decSteady (C : S → E → Prop) [∀ s e, Decidable (C s e)] : ∀ s es, Decidable (Steady f C s es)
  | _, [] => isTrue trivial
  | s, e :: es =>
    have := decSteady C (f s e) es
    inferInstanceAs (Decidable (C s e ∧ Steady f C (f s e) es))

variable {f g} {C : S → E → Prop} {Together Apart : S → T → Prop}

theorem apart_of_apart (hapa : ∀ s t e, Apart s t → Apart (f s e) (g t e)) {s : S} {t : T} (h : Apart s t)
    (es : List E) : Apart (es.foldl f s) (es.foldl g t) := by
  induction es generalizing s t with
  | nil => exact h
  | cons e es ih => exact ih (hapa s t e h)

theorem together_or_apart (hkeep : ∀ s t e, Together s t → C s e → Together (f s e) (g t e))
    (hbre : ∀ s t e, Together s t → ¬ C s e → Apart (f s e) (g t e))
    (hapa : ∀ s t e, Apart s t → Apart (f s e) (g t e)) {s : S} {t : T} (h : Together s t) (es : List E) :
    (Steady f C s es ∧ Together (es.foldl f s) (es.foldl g t)) ∨
      (¬ Steady f C s es ∧ Apart (es.foldl f s) (es.foldl g t)) := by
  induction es generalizing s t with
  | nil => exact .inl ⟨trivial, h⟩
  | cons e es ih =>
    by_cases hc : C s e
    · obtain ⟨hs, ht⟩ | ⟨hs, ht⟩ := ih (hkeep s t e h hc)
      · exact .inl ⟨⟨hc, hs⟩, ht⟩
      · exact .inr ⟨fun k => hs k.2, ht⟩
    · exact .inr ⟨fun k => hc k.1, apart_of_apart hapa (hbre s t e h hc) es⟩

end Lockstep
