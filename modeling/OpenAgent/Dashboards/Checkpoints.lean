import OpenAgent.Dashboards.LiveDelivery

namespace OpenAgent.Dashboards

open Py Dict

/-- The source whose lock a coroutine holds where it awaits. -/
def Stage.locked : Stage → Option SourceKey
  | .loads k _ | .flushes k _ _ | .writes k _ | .written k _ => some k
  | _ => none

namespace LiveRuntime

/-- The lock of a source has one holder, and what a checkpoint is writing is pending no more. -/
structure Exclusive (s : LiveRuntime) : Prop where
  held : ∀ (n : Nat) x k, s.stages[n]? = some x → x.locked = some k → s.lock.get? k = some n
  taken : ∀ (n : Nat) k d c, s.stages[n]? = some (.flushes k d c) → s.pending.get? k = none

/-- Only the coroutine at the place `n` moves, and only the entries of the source `k` change. -/
structure Moves (s t : LiveRuntime) (n : Nat) (k : SourceKey) (y : Stage) : Prop where
  stages : t.stages = s.stages.set n y
  lock : ∀ j, j ≠ k → t.lock.get? j = s.lock.get? j
  pending : ∀ j, j ≠ k → t.pending.get? j = s.pending.get? j

variable {s t : LiveRuntime} {n : Nat} {k : SourceKey} {x y : Stage}

theorem Exclusive.moves (h : s.Exclusive) (hm : Moves s t n k y) (hown : s.lock.get? k = none ∨ s.lock.get? k = some n)
    (hy : y.locked = none ∨ y.locked = some k ∧ t.lock.get? k = some n)
    (hflu : ∀ d c, y = .flushes k d c → t.pending.get? k = none) : t.Exclusive := by
  obtain ⟨held, taken⟩ := h
  obtain ⟨hsta, hlock, hpen⟩ := hm
  constructor
  · grind
  · grind [Stage.locked]

theorem Exclusive.append (h : s.Exclusive) (hx : x.locked = none) : (s.call x).Exclusive := by
  obtain ⟨held, taken⟩ := h
  constructor
  · grind [call]
  · grind [call, Stage.locked]

theorem Exclusive.idle (h : s.Exclusive) (hl : t.lock = s.lock) (hp : t.pending = s.pending)
    (hs : t.stages = s.stages ∨ t.stages = s.stages.set n y ∧ y.locked = none) : t.Exclusive := by
  obtain ⟨held, taken⟩ := h
  constructor
  · grind
  · grind [Stage.locked]

theorem removeAll_fields (s : LiveRuntime) (keys : List SubscriptionKey) :
    ∃ subscriptions, s.removeAll keys = { s with subscriptions } := by
  induction keys generalizing s with
  | nil => exact ⟨_, rfl⟩
  | cons key keys ih =>
    obtain ⟨one, hone⟩ := removeSubscription_fields s key
    obtain ⟨rest, hrest⟩ := ih (s.removeSubscription key)
    refine ⟨rest, ?_⟩
    change (s.removeSubscription key).removeAll keys = _
    rw [hrest, hone]

theorem fan_fields (s : LiveRuntime) (n : Nat) (f : Fanout) : ∃ subscriptions y, y.locked = none ∧
    s.fan n f = { s with subscriptions, stages := s.stages.set n y } := by
  obtain ⟨subscriptions, hsubs⟩ := removeAll_fields s f.dead
  rw [fan]
  split
  · exact ⟨_, .fans f, rfl, rfl⟩
  rw [hsubs]
  dsimp only
  split
  · split
    · exact ⟨_, .done, rfl, rfl⟩
    · exact ⟨_, .fans _, rfl, rfl⟩
  · exact ⟨_, .done, rfl, rfl⟩

/-- The coroutine at the place `n` gives the lock of `k` back. -/
def Frees (s t : LiveRuntime) (n : Nat) (k : SourceKey) : Prop :=
  ∃ y, y.locked = none ∧ t.stages = s.stages.set n y ∧ t.lock = s.lock.erase k ∧
    ∀ j, j ≠ k → t.pending.get? j = s.pending.get? j

theorem publish_frees (s : LiveRuntime) (n : Nat) (k : SourceKey) (d : Datum) (statusFollows : Bool)
    {pending : Dict SourceKey Datum} (h : ∀ j, j ≠ k → pending.get? j = s.pending.get? j) :
    Frees s (publish { s with pending } n k d statusFollows) n k := by
  obtain ⟨_, y, hy, hfan⟩ := fan_fields { s with live := s.live.set k d, pending, lock := s.lock.erase k } n
    ⟨k.1, some (k.2, d), (s.subscriptions.items k.1).map Prod.fst, [], statusFollows⟩
  refine ⟨y, hy, ?_⟩
  rw [publish, hfan]
  exact ⟨rfl, rfl, h⟩

theorem publishOver_frees (s : LiveRuntime) (n : Nat) (k : SourceKey) (p : Publication) (base : Option Datum)
    (now : Int) : Frees s (s.publishOver n k p base now) n k := by
  rw [publishOver.eq_def]
  split
  · exact publish_frees s n k _ _ (fun _ hj => get?_set_of_ne _ _ hj)
  · exact ⟨.done, rfl, rfl, rfl, fun _ _ => rfl⟩

theorem Exclusive.frees (h : s.Exclusive) (hown : s.lock.get? k = none ∨ s.lock.get? k = some n)
    {lock : Dict SourceKey Nat} (hlock : ∀ j, j ≠ k → lock.get? j = s.lock.get? j)
    (hf : Frees { s with lock } t n k) : t.Exclusive := by
  obtain ⟨y, hy, hsta, hfre, hpen⟩ := hf
  refine h.moves (y := y) ⟨hsta, ?_, hpen⟩ hown (.inl hy) ?_
  · intro j hj
    rw [hfre, get?_erase_of_ne _ hj]
    exact hlock j hj
  · rintro d c rfl
    cases hy

theorem flush_exclusive (h : s.Exclusive) (hfree : s.lock.get? k = none) (commit : Option Commit) :
    (flush { s with lock := s.lock.set k n } n k commit).Exclusive := by
  have hlock : ∀ j, j ≠ k → (s.lock.set k n).get? j = s.lock.get? j := fun _ hj => get?_set_of_ne _ _ hj
  rw [flush.eq_def]
  dsimp only
  split
  next d _ =>
    refine h.moves (y := .flushes k d _) ⟨rfl, hlock, ?_⟩ (.inl hfree)
      (.inr ⟨rfl, get?_set_self _ _ _⟩) (fun _ _ _ => get?_erase_self _ _)
    intro j hj
    exact get?_erase_of_ne _ hj
  next c _ =>
    exact h.moves (y := .writes k c) ⟨rfl, hlock, fun _ _ => rfl⟩ (.inl hfree)
      (.inr ⟨rfl, get?_set_self _ _ _⟩) (fun _ _ hy => by cases hy)
  next =>
    refine h.moves (y := .done) (k := k) ⟨rfl, ?_, fun _ _ => rfl⟩ (.inl hfree) (.inl rfl) (fun _ _ hy => by cases hy)
    intro j hj
    exact (get?_erase_of_ne _ hj).trans (hlock j hj)

theorem Exclusive.unlock (h : s.Exclusive) (hn : s.stages[n]? = some x) (hx : x.locked = some k) :
    ((s.unlock k).setStage n .done).Exclusive :=
  h.moves (y := .done) (k := k) ⟨rfl, fun _ hj => get?_erase_of_ne _ hj, fun _ _ => rfl⟩
    (.inr (h.held n x k hn hx)) (.inl rfl) (fun _ _ hy => by cases hy)

theorem next_exclusive {e : LiveEvent} (h : s.Exclusive) (he : liveNext s e = some t) : t.Exclusive := by
  cases e with
  | subscribes | publishes | commits | checkpoints =>
    cases he
    exact h.append rfl
  | unsubscribes sub =>
    cases he
    obtain ⟨subscriptions, hsubs⟩ := removeSubscription_fields s sub
    rw [hsubs]
    exact h.idle (n := 0) (y := .done) rfl rfl (.inl rfl)
  | reads n | composes n | touches n =>
    rw [liveNext.eq_def] at he
    dsimp only at he
    split at he <;> cases he
    exact h.idle rfl rfl (.inr ⟨rfl, rfl⟩)
  | sends n ok =>
    rw [liveNext.eq_def] at he
    dsimp only at he
    split at he
    next sub view revision replaces snapshot since _ =>
      split at he
      · cases he
        refine h.idle (n := n) (y := .touches sub) ?_ ?_ (.inr ⟨?_, rfl⟩)
        all_goals
          rw [register]
          obtain ⟨subscriptions, hsubs⟩ := removeSubscription_fields s sub
          cases replaces <;> simp [setStage, hsubs]
      cases he
      obtain ⟨subscriptions, hsubs⟩ := removeAll_fields s (s.subscriptions.all.keys.filter (fun key => key.1 = sub.1))
      rw [disconnect, hsubs]
      exact h.idle rfl rfl (.inr ⟨rfl, rfl⟩)
    next => cases he
  | locks n now =>
    rw [liveNext.eq_def] at he
    dsimp only at he
    split at he
    next k job hn =>
      split at he
      · cases he
      next hnone =>
        have hfree : s.lock.get? k = none := by simpa using hnone
        have hlock : ∀ j, j ≠ k → (s.lock.set k n).get? j = s.lock.get? j :=
          fun _ hj => get?_set_of_ne _ _ hj
        split at he
        next p =>
          split at he
          · cases he
            exact h.frees (.inl hfree) hlock (publishOver_frees _ n k p _ now)
          cases he
          exact h.moves (y := .loads k p) ⟨rfl, hlock, fun _ _ => rfl⟩ (.inl hfree)
            (.inr ⟨rfl, get?_set_self _ _ _⟩) (fun _ _ hy => by cases hy)
        next c =>
          cases he
          exact flush_exclusive h hfree _
        next =>
          cases he
          exact flush_exclusive h hfree _
    next => cases he
  | loads n now =>
    rw [liveNext.eq_def] at he
    dsimp only at he
    split at he
    next k p hn =>
      cases he
      exact h.frees (.inr (h.held n _ k hn rfl)) (fun _ _ => rfl) (publishOver_frees s n k p _ now)
    next => cases he
  | writes n now =>
    rw [liveNext.eq_def] at he
    dsimp only at he
    split at he
    next k d commit hn =>
      have hown := h.held n _ k hn rfl
      split at he
      next c =>
        cases he
        exact h.moves (y := .writes k c) ⟨rfl, fun _ _ => rfl, fun _ _ => rfl⟩ (.inr hown) (.inr ⟨rfl, hown⟩) (fun _ _ hy => by cases hy)
      next =>
        cases he
        have hsto : Exclusive { s with stored := s.stored.set k (checkpointRow (s.stored.get? k) d now) } :=
          h.idle (n := 0) (y := .done) rfl rfl (.inl rfl)
        exact hsto.unlock hn rfl
    next k c hn =>
      obtain ⟨row, _, rfl⟩ := Option.map_eq_some_iff.mp he
      have hown := h.held n _ k hn rfl
      exact h.moves (y := .written k row) ⟨rfl, fun _ _ => rfl, fun _ _ => rfl⟩ (.inr hown) (.inr ⟨rfl, hown⟩) (fun _ _ hy => by cases hy)
    next => cases he
  | resumes n =>
    rw [liveNext.eq_def] at he
    dsimp only at he
    split at he
    next k d hn =>
      cases he
      exact h.frees (.inr (h.held n _ k hn rfl)) (fun _ _ => rfl)
        (publish_frees s n k d false (fun _ hj => get?_erase_of_ne _ hj))
    next => cases he
  | delivers n outcome now =>
    rw [liveNext.eq_def] at he
    dsimp only at he
    split at he
    next f hn =>
      split at he
      · split at he
        all_goals
          cases he
          obtain ⟨subscriptions, y, hy, hfan⟩ := fan_fields _ n _
          rw [hfan]
          exact h.idle rfl rfl (.inr ⟨rfl, hy⟩)
      · cases he
    next => cases he
  | raises n =>
    rw [liveNext.eq_def] at he
    dsimp only at he
    split at he
    next hn => cases he; exact h.unlock hn rfl
    next hn => cases he; exact h.unlock hn rfl
    next hn => cases he; exact h.unlock hn rfl
    next hn => cases he; exact h.unlock hn rfl
    next sub hn =>
      cases he
      obtain ⟨subscriptions, hsubs⟩ := removeSubscription_fields s sub
      rw [hsubs]
      exact h.idle rfl rfl (.inr ⟨rfl, rfl⟩)
    next => cases he
    next =>
      cases he
      exact h.idle rfl rfl (.inr ⟨rfl, rfl⟩)
    next => cases he

theorem exclusive_restored (stored : Dict SourceKey Datum) : (restored stored).Exclusive where
  held := fun _ _ _ hn => by cases hn
  taken := fun _ _ _ _ hn => by cases hn

/-- The datum of a checkpoint is pending, or a newer one is. -/
def StillPending (s : LiveRuntime) (k : SourceKey) (d : Datum) : Prop :=
  ∃ e, s.pending.get? k = some e ∧ (e = d ∨ d.order < e.order)

end LiveRuntime

open LiveRuntime

variable {stored : Dict SourceKey Datum} {s : LiveRuntime} {n : Nat} {k : SourceKey} {d : Datum} {commit : Option Commit}

/-- A checkpoint takes its datum out of the pending ones before it writes, and a failure puts none back. -/
theorem failed_checkpoint_lost (hs : Runs.Reaches liveNext (restored stored) s)
    (hn : s.stages[n]? = some (.flushes k d commit)) :
    ∃ t, liveNext s (.raises n) = some t ∧ ¬ t.StillPending k d := by
  have hkept : s.Exclusive := Runs.invariant (fun _ _ _ h he => next_exclusive h he) (exclusive_restored stored) hs
  refine ⟨(s.unlock k).setStage n .done, by rw [liveNext, hn], ?_⟩
  rintro ⟨e, he, -⟩
  have hnone : s.pending.get? k = some e := he
  rw [hkept.taken n k d commit hn] at hnone
  cases hnone

/-- A value is published, and its checkpoint writes. -/
def checkpointEvents : List LiveEvent :=
  [.publishes ("view", "clock") clockValue, .locks 0 1, .loads 0 2, .checkpoints ("view", "clock"), .locks 1 3]

def Stage.flushing (k : SourceKey) : Stage → Bool
  | .flushes k' _ _ => k' = k
  | _ => false

theorem checkpointEvents_write : ∃ s d commit, Runs.run liveNext (restored Dict.empty) checkpointEvents = some s ∧
    s.stages[1]? = some (.flushes ("view", "clock") d commit) ∧ s.pending.get? ("view", "clock") = none := by
  have hrun : (Runs.run liveNext (restored empty) checkpointEvents).any (fun s : LiveRuntime =>
      (s.pending.get? ("view", "clock")).isNone && s.stages[1]?.any (Stage.flushing ("view", "clock"))) = true := by
    decide +kernel
  obtain ⟨s, hs, htest⟩ := (Option.any_eq_true _ _).mp hrun
  obtain ⟨hnone, hstage⟩ := (Bool.and_eq_true _ _).mp htest
  obtain ⟨stage, hn, hstage⟩ := (Option.any_eq_true _ _).mp hstage
  cases stage with
  | flushes k d commit => exact ⟨s, d, commit, hs, of_decide_eq_true hstage ▸ hn, Option.isNone_iff_eq_none.mp hnone⟩
  | _ => cases hstage

theorem clock_checkpoint_lost : ∃ s t d, Runs.run liveNext (restored Dict.empty) checkpointEvents = some s ∧
    liveNext s (.raises 1) = some t ∧ ¬ t.StillPending ("view", "clock") d := by
  obtain ⟨s, d, commit, hs, hn, _⟩ := checkpointEvents_write
  obtain ⟨t, ht, hlost⟩ := failed_checkpoint_lost ⟨_, hs⟩ hn
  exact ⟨s, t, d, hs, ht, hlost⟩

theorem checkpoint_drops_pending : ¬ ∀ (s t : LiveRuntime) (n : Nat) (k : SourceKey) (d : Datum)
    (commit : Option Commit), Runs.Reaches liveNext (restored Dict.empty) s →
    s.stages[n]? = some (.flushes k d commit) → liveNext s (.raises n) = some t → t.StillPending k d := by
  intro h
  obtain ⟨s, d, commit, hs, hn, hnone⟩ := checkpointEvents_write
  obtain ⟨e, he, -⟩ := h s ((s.unlock ("view", "clock")).setStage 1 .done) 1 _ d commit ⟨_, hs⟩ hn (by rw [liveNext, hn])
  have hsome : s.pending.get? ("view", "clock") = some e := he
  rw [hnone] at hsome
  cases hsome

end OpenAgent.Dashboards
