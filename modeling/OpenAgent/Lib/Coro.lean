import OpenAgent.Lib.Runs

/-- A coroutine has returned, or waits for its next turn: given what the environment brings, a turn acts on
the shared state, leaves an event and goes on. -/
inductive Coro (ε σ ω α : Type) where
  | done (a : α)
  | turn (act : ε → σ → σ × ω) (next : ε → σ → Coro ε σ ω α)

namespace Coro

abbrev TaskId := Nat

variable {ε σ ω α β χ : Type}

def bind : Coro ε σ ω α → (α → Coro ε σ ω β) → Coro ε σ ω β
  | .done a, k => k a
  | .turn act next, k => .turn act (fun e s => (next e s).bind k)

instance : Monad (Coro ε σ ω) where
  pure := .done
  bind := bind

def step (f : ε → σ → α × σ × ω) : Coro ε σ ω α :=
  .turn (fun e s => (f e s).2) (fun e s => .done (f e s).1)

theorem bind_done (c : Coro ε σ ω α) : c.bind .done = c := by
  induction c with
  | done a => rfl
  | turn act next ih =>
    rw [bind]
    congr 1
    funext e s
    exact ih e s

theorem bind_assoc (c : Coro ε σ ω α) (f : α → Coro ε σ ω β) (g : β → Coro ε σ ω χ) :
    (c.bind f).bind g = c.bind (fun a => (f a).bind g) := by
  induction c with
  | done a => rfl
  | turn act next ih =>
    rw [bind, bind, bind]
    congr 1
    funext e s
    exact ih e s

instance : LawfulMonad (Coro ε σ ω) :=
  LawfulMonad.mk' _ (fun c => bind_done c) (fun _ _ => rfl) (fun c f g => bind_assoc c f g)

/-- Running alone: the turns follow each other, and the environment brings `env k` to turn `k`. -/
def run (env : Nat → ε) : Coro ε σ ω α → Nat → σ → α × σ
  | .done a, _, s => (a, s)
  | .turn act next, k, s => run env (next (env k) s) (k + 1) (act (env k) s).1

def turns (env : Nat → ε) : Coro ε σ ω α → Nat → σ → Nat
  | .done _, k, _ => k
  | .turn act next, k, s => turns env (next (env k) s) (k + 1) (act (env k) s).1

theorem run_bind (env : Nat → ε) (c : Coro ε σ ω α) (f : α → Coro ε σ ω β) (k : Nat) (s : σ) :
    (c.bind f).run env k s = (f (c.run env k s).1).run env (c.turns env k s) (c.run env k s).2 := by
  induction c generalizing k s with
  | done a => rfl
  | turn act next ih => exact ih (env k) s (k + 1) _

theorem turns_bind (env : Nat → ε) (c : Coro ε σ ω α) (f : α → Coro ε σ ω β) (k : Nat) (s : σ) :
    (c.bind f).turns env k s = (f (c.run env k s).1).turns env (c.turns env k s) (c.run env k s).2 := by
  induction c generalizing k s with
  | done a => rfl
  | turn act next ih => exact ih (env k) s (k + 1) _

/-- Running alone from turn `k` on, a coroutine ends with a result, before turn `l`, in a state. -/
structure Ends (env : Nat → ε) (c : Coro ε σ ω α) (k : Nat) (s : σ) (a : α) (l : Nat) (t : σ) : Prop where
  run : c.run env k s = (a, t)
  turns : c.turns env k s = l

section Alone

variable {env : Nat → ε} {c : Coro ε σ ω α} {k l n : Nat} {s t u : σ} {a : α} {b : β}

theorem Ends.done : Ends env (.done a : Coro ε σ ω α) k s a k s := ⟨rfl, rfl⟩

theorem Ends.step {f : ε → σ → α × σ × ω} {o : ω} (h : f (env k) s = (a, t, o)) :
    Ends env (Coro.step f) k s a (k + 1) t := by
  refine ⟨?_, rfl⟩
  change ((f (env k) s).1, (f (env k) s).2.1) = _
  rw [h]

theorem Ends.bind {f : α → Coro ε σ ω β} (h : Ends env c k s a l t) (hf : Ends env (f a) l t b n u) :
    Ends env (c.bind f) k s b n u := by
  refine ⟨?_, ?_⟩
  · rw [run_bind, h.run, h.turns]
    exact hf.run
  · rw [turns_bind, h.run, h.turns]
    exact hf.turns

variable {κ : Type}

theorem Ends.andThen {x : ExceptT κ (Coro ε σ ω) α} {f : α → ExceptT κ (Coro ε σ ω) β} {b : Except κ β}
    (h : Ends env x.run k s (.ok a) l t) (hf : Ends env (f a).run l t b n u) :
    Ends env (x >>= f).run k s b n u := h.bind hf

theorem Ends.run_andThen {x : ExceptT κ (Coro ε σ ω) α} {f : α → ExceptT κ (Coro ε σ ω) β}
    (h : Ends env x.run k s (.ok a) l t) : (x >>= f).run.run env k s = (f a).run.run env l t := by
  change (Coro.bind x.run (ExceptT.bindCont f)).run env k s = _
  rw [run_bind, h.run, h.turns]
  rfl

theorem Ends.raises {x : ExceptT κ (Coro ε σ ω) α} {f : α → ExceptT κ (Coro ε σ ω) β} {e : κ}
    (h : Ends env x.run k s (.error e) l t) : Ends env (x >>= f).run k s (.error e) l t := h.bind Ends.done

theorem Ends.tried {x : ExceptT κ (Coro ε σ ω) α} {f : κ → ExceptT κ (Coro ε σ ω) α}
    (h : Ends env x.run k s (.ok a) l t) : Ends env (tryCatch x f).run k s (.ok a) l t := h.bind Ends.done

theorem Ends.caught {x : ExceptT κ (Coro ε σ ω) α} {f : κ → ExceptT κ (Coro ε σ ω) α} {e : κ}
    {b : Except κ α} (h : Ends env x.run k s (.error e) l t) (hf : Ends env (f e).run l t b n u) :
    Ends env (tryCatch x f).run k s b n u := h.bind hf

end Alone

/-- A turn that was taken: whose it was, the state it found, and its event. -/
structure Entry (σ ω : Type) where
  task : TaskId
  before : σ
  event : ω

structure Moment (σ ω : Type) where
  shared : σ
  trace : List (Entry σ ω)

def Moment.after (m : Moment σ ω) (i : TaskId) (r : σ × ω) : Moment σ ω :=
  ⟨r.1, m.trace ++ [⟨i, m.shared, r.2⟩]⟩

/-- What a group of coroutines keeps to: an invariant of the shared state, the steps that are allowed, and for
each coroutine what it relies on the others to leave alone. -/
structure Contract (σ ω : Type) where
  inv : Moment σ ω → Prop
  allowed : Moment σ ω → TaskId → ω → Prop
  rely : TaskId → Moment σ ω → Moment σ ω → Prop
  refl : ∀ i m, rely i m m
  trans : ∀ i l m n, rely i l m → rely i m n → rely i l n

/-- A step of coroutine `i` that keeps the invariant and what the others rely on. -/
def Contract.Fair (K : Contract σ ω) (i : TaskId) (m n : Moment σ ω) : Prop :=
  K.inv n ∧ ∀ j, j ≠ i → K.rely j m n

/-- From here on every allowed turn of the coroutine is fair, whatever fair steps others take between, and
what it returns satisfies `Q`. -/
def Keeps (K : Contract σ ω) (i : TaskId) (Q : α → Moment σ ω → Prop) : Coro ε σ ω α → Moment σ ω → Prop
  | .done a, m => ∀ n, K.rely i m n → K.inv n → Q a n
  | .turn act next, m => ∀ n, K.rely i m n → K.inv n → ∀ e, K.allowed n i (act e n.shared).2 →
      K.Fair i n (n.after i (act e n.shared)) ∧ Keeps K i Q (next e n.shared) (n.after i (act e n.shared))

section Rules

variable {K : Contract σ ω} {i : TaskId} {Q : α → Moment σ ω → Prop} {P : β → Moment σ ω → Prop}
  {c : Coro ε σ ω α} {m n : Moment σ ω}

theorem Keeps.rely (h : Keeps K i Q c m) (hr : K.rely i m n) : Keeps K i Q c n := by
  cases c with
  | done _ | turn _ _ => exact fun l hl => h l (K.trans i m n l hr hl)

/-- What is known of every moment that the coroutine may find may be used of the first one. -/
theorem Keeps.of_found (h : ∀ n, K.rely i m n → K.inv n → Keeps K i Q c n) : Keeps K i Q c m := by
  cases c with
  | done _ | turn _ _ => exact fun n hr hn => h n hr hn n (K.refl i n) hn

theorem Keeps.mono {R : α → Moment σ ω → Prop} (h : Keeps K i Q c m) (hQ : ∀ a n, Q a n → R a n) : Keeps K i R c m := by
  induction c generalizing m with
  | done a => exact fun n hr hn => hQ a n (h n hr hn)
  | turn act next ih =>
    intro n hr hn e he
    obtain ⟨hfair, hnext⟩ := h n hr hn e he
    exact ⟨hfair, ih e n.shared hnext⟩

theorem Keeps.bind {f : α → Coro ε σ ω β} (h : Keeps K i (fun a n => Keeps K i P (f a) n) c m) :
    Keeps K i P (c.bind f) m := by
  induction c generalizing m with
  | done a => exact Keeps.of_found h
  | turn act next ih =>
    intro n hr hn e he
    obtain ⟨hfair, hnext⟩ := h n hr hn e he
    exact ⟨hfair, ih e n.shared hnext⟩

theorem Keeps.step {f : ε → σ → α × σ × ω} (h : ∀ n, K.rely i m n → K.inv n → ∀ e, K.allowed n i (f e n.shared).2.2 →
      K.Fair i n (n.after i (f e n.shared).2) ∧
        ∀ l, K.rely i (n.after i (f e n.shared).2) l → K.inv l → Q (f e n.shared).1 l) :
    Keeps K i Q (Coro.step f) m := h

def All (kind : σ → σ × ω → Prop) : Coro ε σ ω α → Prop
  | .done _ => True
  | .turn act next => ∀ e s, kind s (act e s) ∧ All kind (next e s)

variable {kind : σ → σ × ω → Prop}

theorem All.bind {f : α → Coro ε σ ω β} (hc : All kind c) (hf : ∀ a, All kind (f a)) : All kind (c.bind f) := by
  induction c with
  | done a => exact hf a
  | turn act next ih => exact fun e s => ⟨(hc e s).1, ih e s (hc e s).2⟩

theorem All.step {f : ε → σ → α × σ × ω} (h : ∀ e s, kind s (f e s).2) : All kind (Coro.step f) :=
  fun e s => ⟨h e s, trivial⟩

/-- What every step of the kind keeps holds where a coroutine of such steps ends when it runs alone. -/
theorem All.alone {A : σ → Prop} (hstep : ∀ s r, A s → kind s r → A r.1) (hc : All kind c) (env : Nat → ε) (k : Nat)
    {s : σ} (hs : A s) : A (c.run env k s).2 := by
  induction c generalizing k s with
  | done a => exact hs
  | turn act next ih =>
    obtain ⟨hkind, hnext⟩ := hc (env k) s
    exact ih (env k) s hnext (k + 1) (hstep s _ hs hkind)

/-- Where each step of the kind is fair and keeps an assertion on which the others leave their hands, a
coroutine of such steps keeps it all along. -/
theorem Keeps.of_all {A : Moment σ ω → Prop} (hstable : ∀ m n, A m → K.rely i m n → K.inv n → A n)
    (hstep : ∀ n r, K.inv n → A n → kind n.shared r → K.allowed n i r.2 → K.Fair i n (n.after i r) ∧ A (n.after i r))
    (hc : All kind c) (hA : A m) : Keeps K i (fun _ n => A n) c m := by
  induction c generalizing m with
  | done a => exact fun n hr hn => hstable m n hA hr hn
  | turn act next ih =>
    intro n hr hn e he
    obtain ⟨hkind, hnext⟩ := hc e n.shared
    obtain ⟨hfair, hA'⟩ := hstep n _ hn (hstable m n hA hr hn) hkind he
    exact ⟨hfair, ih e n.shared hnext hA'⟩

end Rules

section Failing

variable {κ : Type} {K : Contract σ ω} {i : TaskId} {m : Moment σ ω} {P : Except κ β → Moment σ ω → Prop}
  {Q : Except κ α → Moment σ ω → Prop}

def post (B : α → Moment σ ω → Prop) (Z : κ → Moment σ ω → Prop) : Except κ α → Moment σ ω → Prop
  | .ok a => B a
  | .error e => Z e

variable {x : ExceptT κ (Coro ε σ ω) α} {f : α → ExceptT κ (Coro ε σ ω) β}

theorem Keeps.andThen (h : Keeps K i (post (fun a n => Keeps K i P (f a).run n)
      (fun e n => Keeps K i P (.done (.error e) : Coro ε σ ω _) n)) x.run m) :
    Keeps K i P (x >>= f).run m := by
  apply Keeps.bind
  apply h.mono
  intro r n hr
  cases r with
  | ok _ | error _ => exact hr

theorem Keeps.catching {f : κ → ExceptT κ (Coro ε σ ω) α}
    (h : Keeps K i (post (fun a n => Keeps K i Q (.done (.ok a) : Coro ε σ ω _) n)
      (fun e n => Keeps K i Q (f e).run n)) x.run m) :
    Keeps K i Q (tryCatch x f).run m := by
  apply Keeps.bind
  apply h.mono
  intro r n hr
  cases r with
  | ok _ | error _ => exact hr

theorem Keeps.through
    {B : α → Moment σ ω → Prop} {Z : κ → Moment σ ω → Prop} (hx : Keeps K i (post B Z) x.run m)
    (hf : ∀ a n, B a n → Keeps K i P (f a).run n)
    (hz : ∀ e n, Z e n → Keeps K i P (.done (.error e) : Coro ε σ ω _) n) : Keeps K i P (x >>= f).run m := by
  apply Keeps.andThen
  apply hx.mono
  intro r n hr
  cases r with
  | ok a => exact hf a n hr
  | error e => exact hz e n hr

theorem All.andThen {kind : σ → σ × ω → Prop}
    (hx : All kind x.run) (hf : ∀ a, All kind (f a).run) : All kind (x >>= f).run := by
  apply hx.bind
  intro r
  cases r with
  | ok a => exact hf a
  | error e => exact trivial

theorem All.catching {kind : σ → σ × ω → Prop} {f : κ → ExceptT κ (Coro ε σ ω) α}
    (hx : All kind x.run) (hf : ∀ e, All kind (f e).run) : All kind (tryCatch x f).run := by
  apply hx.bind
  intro r
  cases r with
  | ok a => exact trivial
  | error e => exact hf e

end Failing

/-- Started where the assertion holds, a coroutine keeps to the contract and leaves the assertion to whoever
goes on. -/
def Maintains (K : Contract σ ω) (i : TaskId) (A : Moment σ ω → Prop) (c : Coro ε σ ω α) : Prop :=
  ∀ m, A m → Keeps K i (fun _ n => A n) c m

section Maintaining

variable {κ : Type} {K : Contract σ ω} {i : TaskId} {A : Moment σ ω → Prop}
  (hstable : ∀ m n, A m → K.rely i m n → K.inv n → A n)
include hstable

theorem Maintains.done (a : α) : Maintains K i A (.done a : Coro ε σ ω α) :=
  fun m hA n hr hn => hstable m n hA hr hn

theorem Maintains.andThen {x : ExceptT κ (Coro ε σ ω) α} {f : α → ExceptT κ (Coro ε σ ω) β}
    (hx : Maintains K i A x.run) (hf : ∀ a, Maintains K i A (f a).run) : Maintains K i A (x >>= f).run := by
  intro m hA
  apply Keeps.andThen
  apply (hx m hA).mono
  intro r n hn
  cases r with
  | ok a => exact hf a n hn
  | error e => exact fun l hl hi => hstable n l hn hl hi

theorem Maintains.catching {x : ExceptT κ (Coro ε σ ω) α} {f : κ → ExceptT κ (Coro ε σ ω) α}
    (hx : Maintains K i A x.run) (hf : ∀ e, Maintains K i A (f e).run) : Maintains K i A (tryCatch x f).run := by
  intro m hA
  apply Keeps.catching
  apply (hx m hA).mono
  intro r n hn
  cases r with
  | ok a => exact fun l hl hi => hstable n l hn hl hi
  | error e => exact hf e n hn

end Maintaining

structure Pool (ε σ ω α : Type) where
  now : Moment σ ω
  coro : TaskId → Coro ε σ ω α

namespace Pool

variable {p q : Pool ε σ ω α} {x : TaskId × ε}

def next (p : Pool ε σ ω α) (x : TaskId × ε) : Option (Pool ε σ ω α) :=
  match p.coro x.1 with
  | .done _ => none
  | .turn act next => some
      { now := p.now.after x.1 (act x.2 p.now.shared)
        coro := fun j => if j = x.1 then next x.2 p.now.shared else p.coro j }

def event (p : Pool ε σ ω α) (x : TaskId × ε) : Option ω :=
  match p.coro x.1 with
  | .done _ => none
  | .turn act _ => some (act x.2 p.now.shared).2

def Allowed (allowed : Moment σ ω → TaskId → ω → Prop) (p : Pool ε σ ω α) (x : TaskId × ε) : Prop :=
  ∀ o, p.event x = some o → allowed p.now x.1 o

instance {allowed : Moment σ ω → TaskId → ω → Prop} [∀ m i o, Decidable (allowed m i o)] :
    Decidable (Allowed allowed p x) :=
  inferInstanceAs (Decidable (∀ o ∈ p.event x, allowed p.now x.1 o))

theorem next_cases (h : p.next x = some q) : ∃ act next, p.coro x.1 = .turn act next ∧
    p.event x = some (act x.2 p.now.shared).2 ∧
    q = ⟨p.now.after x.1 (act x.2 p.now.shared), fun j => if j = x.1 then next x.2 p.now.shared else p.coro j⟩ := by
  rw [Pool.next] at h
  cases hc : p.coro x.1 with
  | done a =>
    rw [hc] at h
    cases h
  | turn act next =>
    rw [hc] at h
    cases h
    refine ⟨act, next, rfl, ?_, rfl⟩
    rw [event, hc]

def Sound (K : Contract σ ω) (p : Pool ε σ ω α) : Prop :=
  K.inv p.now ∧ ∀ i, Keeps K i (fun _ _ => True) (p.coro i) p.now

variable {K : Contract σ ω}

theorem Sound.fair (h : Sound K p) (ha : Allowed K.allowed p x) (hq : p.next x = some q) :
    K.Fair x.1 p.now q.now ∧ Sound K q := by
  obtain ⟨act, next, hc, he, rfl⟩ := next_cases hq
  have hturn := h.2 x.1
  rw [hc] at hturn
  obtain ⟨hfair, hnext⟩ := hturn p.now (K.refl _ _) h.1 x.2 (ha _ he)
  refine ⟨hfair, hfair.1, ?_⟩
  intro j
  by_cases hj : j = x.1
  · subst hj
    simpa using hnext
  dsimp only
  rw [if_neg hj]
  exact (h.2 j).rely (hfair.2 j hj)

theorem Sound.reaches (h : Sound K p) (hr : Runs.ReachesUnder Pool.next (Allowed K.allowed) p q) : Sound K q :=
  Runs.invariant_under (fun _ _ _ hs ha hn => (hs.fair ha hn).2) h hr

end Pool

end Coro
