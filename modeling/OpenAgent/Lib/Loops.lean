import Mathlib.Data.List.Induction

namespace Loops

universe u v w

variable {ε : Type u} {σ : Type v} {α : Type w}

/-- `for x in xs:` with a body that changes a state, or raises. -/
def loop (body : σ → α → Except ε σ) (s : σ) (xs : List α) : Except ε σ :=
  match xs with
  | [] => .ok s
  | x :: xs => match body s x with
    | .ok t => loop body t xs
    | .error e => .error e

variable {body : σ → α → Except ε σ} {s t : σ} {xs : List α}

@[simp] theorem loop_nil : loop body s [] = .ok s := rfl

variable {x : α}

theorem loop_cons_ok (h : body s x = .ok t) : loop body s (x :: xs) = loop body t xs := by
  rw [loop, h]

theorem loop_cons_error {e : ε} (h : body s x = .error e) : loop body s (x :: xs) = .error e := by
  rw [loop, h]

theorem loop_cons_eq_ok (h : loop body s (x :: xs) = .ok t) :
    ∃ u, body s x = .ok u ∧ loop body u xs = .ok t := by
  cases hx : body s x with
  | ok u => exact ⟨u, rfl, loop_cons_ok hx ▸ h⟩
  | error e =>
    rw [loop_cons_error hx] at h
    cases h

theorem loop_concat_ok (h : loop body s xs = .ok t) : loop body s (xs ++ [x]) = body t x := by
  induction xs generalizing s with
  | nil =>
    cases h
    rw [List.nil_append]
    cases hx : body t x with
    | ok u => rw [loop_cons_ok hx, loop_nil]
    | error e => rw [loop_cons_error hx]
  | cons y ys ih =>
    obtain ⟨u, hu, hrest⟩ := loop_cons_eq_ok h
    rw [List.cons_append, loop_cons_ok hu, ih hrest]

theorem loop_append_error {ys : List α} {e : ε} (h : loop body s xs = .error e) : loop body s (xs ++ ys) = .error e := by
  induction xs generalizing s with
  | nil => cases h
  | cons x xs ih =>
    rw [List.cons_append]
    cases hx : body s x with
    | error f =>
      rw [loop_cons_error hx] at h ⊢
      exact h
    | ok u =>
      rw [loop_cons_ok hx] at h ⊢
      exact ih h

/-- What the body keeps up, for the elements that are done, holds after the loop. -/
theorem invariant {I : List α → σ → Prop} (hs : I [] s)
    (hstep : ∀ done x u v, I done u → body u x = .ok v → I (done ++ [x]) v) (h : loop body s xs = .ok t) : I xs t := by
  have hall : ∀ done u, I done u → loop body u xs = .ok t → I (done ++ xs) t := by
    clear h hs
    induction xs with
    | nil =>
      intro done u hu h
      cases h
      simpa using hu
    | cons x xs ih =>
      intro done u hu h
      obtain ⟨v, hv, hrest⟩ := loop_cons_eq_ok h
      rw [List.append_cons done x xs]
      exact ih (done ++ [x]) v (hstep done x u v hu hv) hrest
  exact hall [] s hs h

theorem forall_error_iff {Q : ε → Prop} : (∀ e, loop body s xs = .error e → Q e) ↔
      ∀ before x after u, xs = before ++ x :: after → loop body s before = .ok u → ∀ e, body u x = .error e → Q e := by
  induction xs generalizing s with
  | nil =>
    refine iff_of_true (fun e h => by cases h) (fun before x after u hxs => ?_)
    simp at hxs
  | cons y ys ih =>
    cases hy : body s y with
    | error e =>
      constructor
      · intro h before x after u hxs hu f hf
        cases before with
        | nil =>
          cases hxs
          cases hu
          rw [hy] at hf
          cases hf
          exact h e (loop_cons_error hy)
        | cons z before =>
          cases hxs
          rw [loop_cons_error hy] at hu
          cases hu
      intro h f hf
      rw [loop_cons_error hy] at hf
      cases hf
      exact h [] y ys s rfl rfl e hy
    | ok v =>
      rw [loop_cons_ok hy, ih]
      constructor
      · intro h before x after u hxs hu f hf
        cases before with
        | nil =>
          cases hxs
          cases hu
          rw [hy] at hf
          cases hf
        | cons z before =>
          cases hxs
          rw [loop_cons_ok hy] at hu
          exact h before x after u rfl hu f hf
      · intro h before x after u hxs hu
        exact h (y :: before) x after u (by rw [hxs]; rfl) (by rw [loop_cons_ok hy]; exact hu)

end Loops
