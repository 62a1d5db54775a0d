import Mathlib.Data.List.Basic

namespace Effects

universe u v w

abbrev Act (σ : Type u) (ε : Type v) := σ → σ × Option ε

variable {σ : Type u} {ε : Type v} {α : Type w}

def seq (a b : Act σ ε) : Act σ ε := fun s =>
  match a s with
  | (t, none) => b t
  | (t, some e) => (t, some e)

/-- `try: a`, `finally: b`, where the cleanup raises nothing. -/
def ensure (a : Act σ ε) (b : σ → σ) : Act σ ε := fun s => (b (a s).1, (a s).2)

def forEach (body : α → Act σ ε) (xs : List α) : Act σ ε := fun s =>
  match xs with
  | [] => (s, none)
  | x :: xs => match body x s with
    | (t, none) => forEach body xs t
    | (t, some e) => (t, some e)

/-- In the states `R`, which are not entered again once they are left, the statement brings `P` about exactly from `C`,
and never undoes it. -/
structure Settles (P R C : σ → Prop) (a : Act σ ε) : Prop where
  back : ∀ s, R (a s).1 → R s
  iff : ∀ s, R (a s).1 → (P (a s).1 ↔ P s ∨ C s)

/-- A statement that has nothing to do with `P`. -/
abbrev Calm (P R : σ → Prop) (a : Act σ ε) : Prop := Settles P R (fun _ => False) a

section Rules

variable {P R C D : σ → Prop} {a b : Act σ ε} {body : α → Act σ ε} {s t : σ} {e : ε}

theorem seq_of_none (h : a s = (t, none)) : seq a b s = b t := by rw [seq, h]

theorem seq_of_some (h : a s = (t, some e)) : seq a b s = (t, some e) := by rw [seq, h]

theorem forEach_of_none {x : α} {xs : List α} (h : body x s = (t, none)) :
    forEach body (x :: xs) s = forEach body xs t := by rw [forEach, h]

theorem forEach_of_some {x : α} {xs : List α} (h : body x s = (t, some e)) :
    forEach body (x :: xs) s = (t, some e) := by rw [forEach, h]

theorem Calm.iff_self (h : Calm P R a) (hR : R (a s).1) : P (a s).1 ↔ P s :=
  (h.iff s hR).trans (or_iff_left id)

theorem Settles.seq (ha : Settles P R C a) (hb : Settles P R D b) :
    Settles P R (fun s => C s ∨ ∃ t, a s = (t, none) ∧ D t) (seq a b) := by
  have hfir : ∀ {s t r}, a s = (t, r) → R t → R s ∧ (P t ↔ P s ∨ C s) := by
    intro s t r hs hR
    have ht : (a s).1 = t := by rw [hs]
    exact ⟨ha.back s (ht ▸ hR), ht ▸ ha.iff s (ht ▸ hR)⟩
  constructor
  · intro s hR
    rcases hs : a s with ⟨t, _ | e⟩
    · rw [seq_of_none hs] at hR
      exact (hfir hs (hb.back t hR)).1
    · rw [seq_of_some hs] at hR
      exact (hfir hs hR).1
  intro s hR
  rcases hs : a s with ⟨t, _ | e⟩
  · rw [seq_of_none hs] at hR ⊢
    rw [hb.iff t hR, (hfir hs (hb.back t hR)).2]
    simp [or_assoc]
  rw [seq_of_some hs] at hR ⊢
  rw [(hfir hs hR).2]
  simp

theorem Calm.seq (ha : Calm P R a) (hb : Calm P R b) : Calm P R (Effects.seq a b) := by
  have h := Settles.seq ha hb
  exact ⟨h.back, fun s hR => (h.iff s hR).trans (by simp)⟩

theorem Settles.forEach {C : α → σ → Prop} (h : ∀ x, Settles P R (C x) (body x)) (xs : List α) :
    Settles P R (fun s => ∃ before x after t,
      xs = before ++ x :: after ∧ Effects.forEach body before s = (t, none) ∧ C x t) (Effects.forEach body xs) := by
  induction xs with
  | nil => exact ⟨fun s hR => hR, fun s hR => by simp [Effects.forEach]⟩
  | cons x xs ih =>
    have hfir : ∀ {s t r}, body x s = (t, r) → R t → R s ∧ (P t ↔ P s ∨ C x s) := by
      intro s t r hs hR
      have ht : (body x s).1 = t := by rw [hs]
      exact ⟨(h x).back s (ht ▸ hR), ht ▸ (h x).iff s (ht ▸ hR)⟩
    constructor
    · intro s hR
      rcases hs : body x s with ⟨t, _ | e⟩
      · rw [forEach_of_none hs] at hR
        exact (hfir hs (ih.back t hR)).1
      · rw [forEach_of_some hs] at hR
        exact (hfir hs hR).1
    intro s hR
    rcases hs : body x s with ⟨t, _ | e⟩
    · rw [forEach_of_none hs] at hR ⊢
      rw [ih.iff t hR, (hfir hs (ih.back t hR)).2, or_assoc]
      refine or_congr_right ⟨?_, ?_⟩
      · rintro (hC | ⟨before, y, after, u, rfl, hu, hC⟩)
        · exact ⟨[], x, xs, s, rfl, rfl, hC⟩
        · exact ⟨x :: before, y, after, u, rfl, (forEach_of_none hs).trans hu, hC⟩
      rintro ⟨before, y, after, u, hxs, hu, hC⟩
      cases before with
      | nil =>
        cases hxs
        cases hu
        exact .inl hC
      | cons z before =>
        cases hxs
        rw [forEach_of_none hs] at hu
        exact .inr ⟨before, y, after, u, rfl, hu, hC⟩
    · rw [forEach_of_some hs] at hR ⊢
      rw [(hfir hs hR).2]
      refine or_congr_right ⟨fun hC => ⟨[], x, xs, s, rfl, rfl, hC⟩, ?_⟩
      rintro ⟨before, y, after, u, hxs, hu, hC⟩
      cases before with
      | nil =>
        cases hxs
        cases hu
        exact hC
      | cons z before =>
        cases hxs
        rw [forEach_of_some hs] at hu
        cases hu

theorem Calm.forEach (h : ∀ x, Calm P R (body x)) (xs : List α) : Calm P R (Effects.forEach body xs) := by
  have hs := Settles.forEach h xs
  exact ⟨hs.back, fun s hR => (hs.iff s hR).trans (by simp)⟩

end Rules

end Effects
