import Mathlib.Data.List.Nodup

abbrev Work (S E α : Type) := StateT S (Except E) α

namespace Work

open List

variable {S E α β : Type}

def raise (e : E) : Work S E α := fun _ => .error e

def raiseUnless (condition : Bool) (e : E) : Work S E Unit := if condition then pure () else raise e

def ofOption (value : Option α) (e : E) : Work S E α :=
  match value with
  | some a => pure a
  | none => raise e

def each {ι : Type} (body : ι → Work S E α) : List ι → Work S E (List α)
  | [] => pure []
  | x :: l => do
    let a ← body x
    let rest ← each body l
    pure (a :: rest)

def transaction (work : Work S E α) (s : S) : S × Except E α :=
  match work s with
  | .ok (a, t) => (t, .ok a)
  | .error e => (s, .error e)

section Success

variable {s t : S} {a : α} {b : β} {e : E}

@[simp] theorem pure_ok {c : α} : (pure a : Work S E α) s = .ok (c, t) ↔ a = c ∧ s = t := by
  show Except.ok (a, s) = _ ↔ _
  simp

@[simp] theorem bind_ok {x : Work S E α} {f : α → Work S E β} :
    (x >>= f) s = .ok (b, t) ↔ ∃ a u, x s = .ok (a, u) ∧ f a u = .ok (b, t) := by
  show (x s >>= fun p => f p.1 p.2) = _ ↔ _
  cases hx : x s with
  | error e => simp [bind, Except.bind]
  | ok p =>
    constructor
    · intro h
      exact ⟨p.1, p.2, rfl, h⟩
    rintro ⟨a, u, hp, h⟩
    cases hp
    exact h

@[simp] theorem map_ok {x : Work S E α} {f : α → β} : (f <$> x) s = .ok (b, t) ↔ ∃ a, x s = .ok (a, t) ∧ f a = b := by
  rw [map_eq_pure_bind, bind_ok]
  constructor
  · rintro ⟨a, u, hx, hf⟩
    obtain ⟨hb, rfl⟩ := pure_ok.mp hf
    exact ⟨a, hx, hb⟩
  · rintro ⟨a, hx, hf⟩
    exact ⟨a, t, hx, pure_ok.mpr ⟨hf, rfl⟩⟩

@[simp] theorem raise_ok : (raise e : Work S E α) s = .ok (a, t) ↔ False := by
  simp [raise]

@[simp] theorem get_ok {r : S} : (get : Work S E S) s = .ok (r, t) ↔ s = r ∧ s = t := by
  show Except.ok (s, s) = _ ↔ _
  simp

@[simp] theorem modify_ok {f : S → S} {x : PUnit} : (modify f : Work S E PUnit) s = .ok (x, t) ↔ f s = t := by
  show Except.ok (PUnit.unit, f s) = _ ↔ _
  simp

@[simp] theorem raiseUnless_ok {condition : Bool} {x : Unit} :
    (raiseUnless condition e : Work S E Unit) s = .ok (x, t) ↔ condition = true ∧ s = t := by
  cases condition
  · simp [raiseUnless]
  · rw [raiseUnless, if_pos rfl, pure_ok]
    simp

@[simp] theorem ofOption_ok {value : Option α} :
    (ofOption value e : Work S E α) s = .ok (a, t) ↔ value = some a ∧ s = t := by
  cases value with
  | none => simp [ofOption]
  | some c =>
    rw [ofOption, pure_ok]
    simp

theorem transaction_ok {work : Work S E α} (h : transaction work s = (t, .ok a)) : work s = .ok (a, t) := by
  rw [transaction] at h
  cases hw : work s with
  | error e => simp [hw] at h
  | ok p =>
    rw [hw] at h
    cases h
    rfl

theorem transaction_error {work : Work S E α} (h : transaction work s = (t, .error e)) : t = s := by
  rw [transaction] at h
  cases hw : work s with
  | error e =>
    rw [hw] at h
    cases h
    rfl
  | ok p => simp [hw] at h

end Success

section Loops

variable {ι κ : Type} {body : ι → Work S E α} {l : List ι} {s t : S} {as : List α}

theorem each_cons_ok {x : ι} : each body (x :: l) s = .ok (as, t) ↔
    ∃ a u rest, body x s = .ok (a, u) ∧ each body l u = .ok (rest, t) ∧ a :: rest = as := by
  rw [each, bind_ok]
  simp

theorem each_keeps {R : S → S → Prop} (hrefl : ∀ s, R s s) (htra : ∀ s t u, R s t → R t u → R s u)
    (h : ∀ x ∈ l, ∀ s a t, body x s = .ok (a, t) → R s t) (hl : each body l s = .ok (as, t)) : R s t := by
  induction l generalizing s as with
  | nil =>
    rw [each, pure_ok] at hl
    exact hl.2 ▸ hrefl s
  | cons x l ih =>
    obtain ⟨a, u, rest, hx, hu, _⟩ := each_cons_ok.mp hl
    exact htra s u t (h x mem_cons_self s a u hx) (ih (fun y hy => h y (mem_cons_of_mem _ hy)) hu)

/-- A round for `x` sees to what `key x` is about, and rounds for other keys leave that as it is. -/
theorem each_establishes {key : ι → κ} {I : S → Prop} {Q : ι → S → Prop} (hdis : (l.map key).Nodup)
    (hI : ∀ x ∈ l, ∀ s a t, I s → body x s = .ok (a, t) → I t)
    (hset : ∀ x ∈ l, ∀ s a t, I s → body x s = .ok (a, t) → Q x t)
    (hkeep : ∀ x y, key x ≠ key y → ∀ s a t, Q x s → body y s = .ok (a, t) → Q x t)
    (hs : I s) (hl : each body l s = .ok (as, t)) : ∀ x ∈ l, Q x t := by
  induction l generalizing s as with
  | nil => simp
  | cons x l ih =>
    obtain ⟨a, u, rest, hx, hu, _⟩ := each_cons_ok.mp hl
    rw [map_cons, nodup_cons] at hdis
    intro y hy
    rcases mem_cons.mp hy with rfl | hy
    · have hoth : ∀ z ∈ l, key y ≠ key z := fun z hz he => hdis.1 (he ▸ mem_map_of_mem hz)
      exact each_keeps (R := fun u v => Q y u → Q y v) (fun _ h => h) (fun _ _ _ h k => k ∘ h)
        (fun z hz v b w hb hq => hkeep y z (hoth z hz) v b w hq hb) hu
        (hset y mem_cons_self s a u hs hx)
    · exact ih hdis.2 (fun z hz => hI z (mem_cons_of_mem _ hz))
        (fun z hz => hset z (mem_cons_of_mem _ hz)) (hI x mem_cons_self s a u hs hx) hu y hy

end Loops

end Work
