import Mathlib.Data.List.Induction

namespace Runs

universe u v

variable {S : Type u} {E : Type v} (next : S → E → Option S)

def run (s : S) (es : List E) : Option S := es.foldlM next s

def Meets (C : S → E → Prop) (s : S) (es : List E) : Prop :=
  ∀ pre e post t, es = pre ++ e :: post → run next s pre = some t → C t e

def Reaches (s t : S) : Prop := ∃ es, run next s es = some t

def ReachesUnder (C : S → E → Prop) (s t : S) : Prop :=
  ∃ es, Meets next C s es ∧ run next s es = some t

variable {next}

@[simp] theorem run_nil (s : S) : run next s [] = some s := rfl

theorem run_cons (s : S) (e : E) (es : List E) : run next s (e :: es) = (next s e).bind (fun t => run next t es) := rfl

theorem run_append (s : S) (es fs : List E) :
    run next s (es ++ fs) = (run next s es).bind (fun t => run next t fs) := by
  induction es generalizing s with
  | nil => rfl
  | cons e es ih =>
    rw [List.cons_append, run_cons, run_cons]
    cases next s e with
    | none => rfl
    | some t => simpa using ih t

theorem run_concat {s u : S} {es : List E} {e : E} (h : run next s (es ++ [e]) = some u) :
    ∃ t, run next s es = some t ∧ next t e = some u := by
  rw [run_append, Option.bind_eq_some_iff] at h
  obtain ⟨t, ht, hu⟩ := h
  rw [run_cons, Option.bind_eq_some_iff] at hu
  obtain ⟨u', hu', he⟩ := hu
  exact ⟨t, ht, by rw [hu']; exact he⟩

theorem Reaches.refl (s : S) : Reaches next s s := ⟨[], rfl⟩

theorem Reaches.trans {s t u : S} (h : Reaches next s t) (k : Reaches next t u) : Reaches next s u := by
  obtain ⟨es, hs⟩ := h
  obtain ⟨fs, ht⟩ := k
  exact ⟨es ++ fs, by rw [run_append, hs]; exact ht⟩

theorem Reaches.step {s t u : S} {e : E} (h : Reaches next s t) (he : next t e = some u) : Reaches next s u :=
  h.trans ⟨[e], by simp [run_cons, he]⟩

def all (p : S → E → Bool) (next : S → E → Option S) : S → List E → Bool
  | _, [] => true
  | s, e :: es => p s e && (match next s e with
      | some t => all p next t es
      | none => true)

theorem meets_of_all {C : S → E → Prop} {p : S → E → Bool} (hp : ∀ s e, p s e = true → C s e)
    {s : S} {es : List E} (h : all p next s es = true) : Meets next C s es := by
  induction es generalizing s with
  | nil =>
    intro pre e post t hes
    cases pre <;> cases hes
  | cons e es ih =>
    unfold all at h
    rw [Bool.and_eq_true] at h
    obtain ⟨he, hrest⟩ := h
    intro pre f post t hes ht
    cases pre with
    | nil =>
      cases hes
      cases ht
      exact hp s e he
    | cons g pre =>
      cases hes
      rw [run_cons, Option.bind_eq_some_iff] at ht
      obtain ⟨u, hu, ht⟩ := ht
      rw [hu] at hrest
      exact ih hrest pre f post t rfl ht

theorem reachesUnder_of_all {C : S → E → Prop} [∀ s e, Decidable (C s e)] {s t : S} {es : List E}
    (h : all (fun s e => decide (C s e)) next s es = true) (hr : run next s es = some t) :
    ReachesUnder next C s t :=
  ⟨es, meets_of_all (fun _ _ => of_decide_eq_true) h, hr⟩

/-- An invariant that the guarded steps preserve holds wherever a guarded run ends. -/
theorem invariant_under {I : S → Prop} {C : S → E → Prop} (hstep : ∀ s e t, I s → C s e → next s e = some t → I t)
    {s t : S} (hs : I s) (h : ReachesUnder next C s t) : I t := by
  obtain ⟨es, hC, hr⟩ := h
  induction es using List.reverseRecOn generalizing t with
  | nil => cases hr; exact hs
  | append_singleton es e ih =>
    obtain ⟨u, hu, he⟩ := run_concat hr
    refine hstep u e t (ih ?_ hu) (hC es e [] u rfl hu) he
    intro pre f post v hv hp
    exact hC pre f (post ++ [e]) v (by simp [hv]) hp

theorem invariant {I : S → Prop} (hstep : ∀ s e t, I s → next s e = some t → I t)
    {s t : S} (hs : I s) (h : Reaches next s t) : I t := by
  obtain ⟨es, hr⟩ := h
  exact invariant_under (C := fun _ _ => True) (fun s e t hI _ he => hstep s e t hI he) hs
    ⟨es, fun _ _ _ _ _ _ => trivial, hr⟩

theorem history {P : List E → S → Prop} {s : S} (hs : P [] s)
    (hstep : ∀ es t e u, P es t → next t e = some u → P (es ++ [e]) u)
    {es : List E} {t : S} (h : run next s es = some t) : P es t := by
  induction es using List.reverseRecOn generalizing t with
  | nil => cases h; exact hs
  | append_singleton es e ih =>
    obtain ⟨u, hu, he⟩ := run_concat h
    exact hstep es u e t (ih hu) he

theorem Meets.initial {C : S → E → Prop} {s : S} {es fs : List E} (h : Meets next C s (es ++ fs)) :
    Meets next C s es := by
  intro pre e post t hes ht
  exact h pre e (post ++ fs) t (by simp [hes]) ht

/-- A property that a step keeps exactly under a condition, from the states of an invariant that
comes with it, holds all along a run exactly when every step meets the condition. -/
theorem always_iff_meets_of {P I J : S → Prop} {C : S → E → Prop} (hP : ∀ s, I s → P s)
    (hJ : ∀ s e t, J s → next s e = some t → J t)
    (hstep : ∀ s e t, J s → I s → next s e = some t → (P t ↔ C s e) ∧ (P t → I t))
    {s t : S} (hs : J s) (hI : I s) {es : List E} (h : run next s es = some t) :
    (∀ pre post u, es = pre ++ post → run next s pre = some u → P u) ↔ Meets next C s es := by
  have reached : ∀ {fs u}, run next s fs = some u → J u := fun hr => invariant hJ hs ⟨_, hr⟩
  constructor
  · intro hall
    have hfull : ∀ pre post u, es = pre ++ post → run next s pre = some u → I u := by
      intro pre
      induction pre using List.reverseRecOn with
      | nil =>
        intro post u _ hu
        cases hu
        exact hI
      | append_singleton pre e ih =>
        intro post u hes hu
        obtain ⟨v, hv, he⟩ := run_concat hu
        exact (hstep v e u (reached hv) (ih (e :: post) v (by simp [hes]) hv) he).2 (hall _ post u hes hu)
    intro pre e post u hes hu
    rw [hes, run_append, hu, Option.bind_some, run_cons, Option.bind_eq_some_iff] at h
    obtain ⟨v, hv, _⟩ := h
    have hrun : run next s (pre ++ [e]) = some v := by rw [run_append, hu]; simp [run_cons, hv]
    exact (hstep u e v (reached hu) (hfull pre (e :: post) u hes hu) hv).1.mp
      (hall (pre ++ [e]) post v (by simp [hes]) hrun)
  · intro hC pre post u hes hu
    have hboth := invariant_under (I := fun s => J s ∧ I s)
      (fun s e t hs hc he => ⟨hJ s e t hs.1 he, (hstep s e t hs.1 hs.2 he).2 ((hstep s e t hs.1 hs.2 he).1.mpr hc)⟩)
      ⟨hs, hI⟩ ⟨pre, (hes ▸ hC).initial, hu⟩
    exact hP u hboth.2

theorem always_iff_meets {I J : S → Prop} {C : S → E → Prop} (hJ : ∀ s e t, J s → next s e = some t → J t)
    (hstep : ∀ s e t, J s → I s → next s e = some t → (I t ↔ C s e))
    {s t : S} (hs : J s) (hI : I s) {es : List E} (h : run next s es = some t) :
    (∀ pre post u, es = pre ++ post → run next s pre = some u → I u) ↔ Meets next C s es :=
  always_iff_meets_of (fun _ h => h) hJ (fun s e t hs hI he => ⟨hstep s e t hs hI he, id⟩) hs hI h

/-- A preorder that every step respects, from the states an invariant describes on, relates
the two ends of a run. -/
theorem monotone {I : S → Prop} {R : S → S → Prop} (hrefl : ∀ s, R s s) (htra : ∀ s t u, R s t → R t u → R s u)
    (hstep : ∀ s e t, I s → next s e = some t → I t)
    (hR : ∀ s e t, I s → next s e = some t → R s t)
    {s t : S} (hs : I s) (h : Reaches next s t) : R s t := by
  have hall : ∀ u, Reaches next s u → I u ∧ R s u := by
    intro u hu
    obtain ⟨es, hr⟩ := hu
    induction es using List.reverseRecOn generalizing u with
    | nil => cases hr; exact ⟨hs, hrefl _⟩
    | append_singleton es e ih =>
      obtain ⟨v, hv, he⟩ := run_concat hr
      obtain ⟨hI, hsv⟩ := ih v hv
      exact ⟨hstep v e u hI he, htra _ _ _ hsv (hR v e u hI he)⟩
  exact (hall t h).2

end Runs
