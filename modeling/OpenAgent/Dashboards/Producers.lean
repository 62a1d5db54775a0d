import OpenAgent.Dashboards.Runtime

namespace OpenAgent.Dashboards

open Py Option Runtime

namespace Runtime

variable {r s : Runtime}

@[simp] theorem createTask_sourceTasks (r : Runtime) (todo : List Todo) :
    (r.createTask todo).sourceTasks = r.sourceTasks := rfl

@[simp] theorem cancel_sourceTasks (r : Runtime) (n : Nat) : (r.cancel n).sourceTasks = r.sourceTasks := rfl

@[simp] theorem place_sourceTasks (r : Runtime) (n : Nat) (todo : List Todo) :
    (r.place n todo).sourceTasks = r.sourceTasks := rfl

@[simp] theorem setLatestRevision_sourceTasks (r : Runtime) (view : String) (revision : Nat) :
    (r.setLatestRevision view revision).sourceTasks = r.sourceTasks := rfl

@[simp] theorem removeSubscription_sourceTasks (r : Runtime) (key : SubscriptionKey) :
    (r.removeSubscription key).sourceTasks = r.sourceTasks := by
  rw [removeSubscription.eq_def]
  split
  · rfl
  dsimp only
  split
  · rfl
  · rfl

@[simp] theorem removeSubscriptions_sourceTasks (keys : List SubscriptionKey) (r : Runtime) :
    (keys.foldl removeSubscription r).sourceTasks = r.sourceTasks := by
  induction keys generalizing r with
  | nil => rfl
  | cons key keys ih => rw [List.foldl_cons, ih, removeSubscription_sourceTasks]

@[simp] theorem disconnect_sourceTasks (r : Runtime) (ws : Nat) : (r.disconnect ws).sourceTasks = r.sourceTasks :=
  removeSubscriptions_sourceTasks _ r

@[simp] theorem register_sourceTasks (r : Runtime) (sub : SubscriptionKey) (view : String) (record : ViewRecord)
    (replaces : Bool) : (r.register sub view record replaces).sourceTasks = r.sourceTasks := by
  cases replaces with
  | false =>
    simp only [register, Bool.false_eq_true, if_false]
    split
    · split
      · rfl
      · rfl
    · rfl
  | true =>
    simp only [register, if_true]
    split
    · split
      · exact removeSubscription_sourceTasks r sub
      · exact removeSubscription_sourceTasks r sub
    · exact removeSubscription_sourceTasks r sub

@[simp] theorem unwind_sourceTasks (todo : List Todo) (r : Runtime) : (r.unwind todo).sourceTasks = r.sourceTasks := by
  induction todo generalizing r with
  | nil => rfl
  | cons x todo ih => cases x <;> simp [unwind, ih]

/-- What a coroutine does to `_source_tasks`. -/
def performTask (r : Runtime) : Todo → Answer → Jobs.Op SourceKey SourceRun
  | .readsData k force, .generation stored => .launch k ⟨r.nextGeneration k stored, force⟩
  | .stopSource k, _ => .take k
  | _, _ => .none

theorem perform_sourceTasks {x : Todo} {a : Answer} {rest : List Todo} (h : r.perform x a = some (s, rest)) :
    s.sourceTasks = r.sourceTasks.apply (r.performTask x a) := by
  cases x with
  | stopSource k =>
    cases a with
    | returned =>
      rw [perform.eq_def] at h
      dsimp only at h
      rw [performTask, Jobs.apply]
      split at h
      · cases h
        rfl
      next hnone =>
        cases h
        rw [Jobs.take, hnone]
    | _ => cases h
  | readsData k force =>
    cases a with
    | generation stored =>
      cases h
      rfl
    | _ => cases h
  | _ =>
    -- nothing else touches them
    cases a <;> first | (cases h; done) | skip
    all_goals
      rw [perform.eq_def] at h
      dsimp only at h
      repeat' split at h
    all_goals
      cases h
      try simp [performTask, Jobs.apply]

/-- What an event does to `_source_tasks`. -/
def eventTask (r : Runtime) : RuntimeEvent → Jobs.Op SourceKey SourceRun
  | .resumes n answer =>
    match r.todo n with
    | x :: _ => r.performTask x answer
    | [] => .none
  | .finishes t => .finish t
  | .reports t => .report t
  | _ => .none

theorem next_perform {n : Nat} {a : Answer} (h : runtimeNext r (.resumes n a) = some s) :
    ∃ x rest p, r.todo n = x :: rest ∧ r.perform x a = some p ∧ s = p.1.place n (p.2 ++ rest) := by
  rw [runtimeNext.eq_def] at h
  dsimp only at h
  split at h
  next x rest cancelled hrou =>
    have htodo : r.todo n = x :: rest := by rw [todo, hrou]; rfl
    split at h
    · split at h
      · obtain ⟨p, hp, hs⟩ := map_eq_some_iff.mp h
        exact ⟨_, rest, p, htodo, hp, hs.symm⟩
      · split at h
        · cases h
        · obtain ⟨p, hp, hs⟩ := map_eq_some_iff.mp h
          exact ⟨_, rest, p, htodo, hp, hs.symm⟩
    · cases h
  next => cases h

theorem next_sourceTasks {e : RuntimeEvent} (h : runtimeNext r e = some s) :
    s.sourceTasks = r.sourceTasks.apply (r.eventTask e) ∧ r.sourceTasks.Reports (r.eventTask e) := by
  cases e with
  | calls _ | finishes _ =>
    rw [runtimeNext.eq_def] at h
    dsimp only at h
    split at h
    · cases h
      exact ⟨rfl, trivial⟩
    · cases h
  | resumes n a =>
    obtain ⟨x, rest, p, htodo, hp, rfl⟩ := next_perform h
    rw [eventTask, htodo, place_sourceTasks]
    refine ⟨perform_sourceTasks hp, ?_⟩
    dsimp only
    rw [performTask.eq_def]
    split <;> trivial
  | raises n =>
    rw [runtimeNext.eq_def] at h
    dsimp only at h
    split at h
    · split at h
      · cases h
      · split at h
        · cases h
          exact ⟨by simp [eventTask, Jobs.apply], trivial⟩
        · cases h
    · cases h
  | fansOut t dead =>
    rw [runtimeNext.eq_def] at h
    dsimp only at h
    split at h
    · cases h
      exact ⟨by simp [eventTask, Jobs.apply], trivial⟩
    · cases h
  | reports t =>
    rw [runtimeNext.eq_def] at h
    dsimp only at h
    split at h
    next hdone =>
      cases h
      refine ⟨rfl, ?_⟩
      intro k hrun
      obtain ⟨x, hx, _, hf⟩ := hrun
      rw [hx, any_some, hf, Bool.and_false] at hdone
      cases hdone
    · cases h

def new (perSocket total : Nat) : Runtime :=
  { maxSubscriptionsPerSocket := perSocket, maxSubscriptionsTotal := total }

end Runtime

structure OneProducer (r : Runtime) : Prop where
  recorded : ∀ t k, r.sourceTasks.Running t k → r.sourceTasks.slot.get? k = some t
  unique : ∀ t u k, r.sourceTasks.Running t k → r.sourceTasks.Running u k → t = u
  /-- A `stop_source` that pops now cancels every producer of its key. -/
  stopped : ∀ t k, r.sourceTasks.Running t k → (r.sourceTasks.take k).Cancelled t

/-- Where `start_source` records its task, and where `stop_source` pops the recorded one, the task that is
recorded for the source is done, or there is none. -/
def Undisturbed (r : Runtime) (e : RuntimeEvent) : Prop := r.sourceTasks.quiet (r.eventTask e) = true

theorem oneProducer_iff {r : Runtime} : OneProducer r ↔ r.sourceTasks.Exclusive := by
  constructor
  · intro h
    exact h.recorded
  intro h
  refine ⟨h, ?_, ?_⟩
  · intro t u k ht hu
    exact h.unique ht hu
  · intro t k ht
    exact h.covered.take_cancels ht

theorem next_sound {r s : Runtime} {e : RuntimeEvent} (hs : r.sourceTasks.Sound) (h : runtimeNext r e = some s) :
    s.sourceTasks.Sound := by
  rw [(next_sourceTasks h).1]
  exact hs.apply _

theorem next_oneProducer_iff {r s : Runtime} {e : RuntimeEvent} (hs : r.sourceTasks.Sound) (hr : OneProducer r)
    (h : runtimeNext r e = some s) : OneProducer s ↔ Undisturbed r e := by
  obtain ⟨htas, hrep⟩ := next_sourceTasks h
  rw [oneProducer_iff, htas]
  exact Jobs.exclusive_apply_iff hs (oneProducer_iff.mp hr) hrep

theorem sound_new (perSocket total : Nat) : (Runtime.new perSocket total).sourceTasks.Sound := by
  intro k i hi
  cases hi

theorem exclusive_new (perSocket total : Nat) : (Runtime.new perSocket total).sourceTasks.Exclusive := by
  intro i k hrun
  obtain ⟨x, hx, _⟩ := hrun
  cases hx

/-- There is one producer for each source at every moment of a run exactly when no task is recorded, and none
popped, over one that still runs. -/
theorem one_producer_iff {perSocket total : Nat} {es : List RuntimeEvent} {r : Runtime}
    (h : Runs.run runtimeNext (Runtime.new perSocket total) es = some r) :
    (∀ pre post s, es = pre ++ post → Runs.run runtimeNext (Runtime.new perSocket total) pre = some s → OneProducer s) ↔
    Runs.Meets runtimeNext Undisturbed (Runtime.new perSocket total) es :=
  Runs.always_iff_meets (fun _ _ _ hs he => next_sound hs he) (fun _ _ _ hs hr he => next_oneProducer_iff hs hr he)
    (sound_new perSocket total) (oneProducer_iff.mpr (exclusive_new perSocket total)) h

def clockRecord : ViewRecord × SourceRecord :=
  (⟨1, 1, true, false, none, [("clock", ⟨true, .always, none⟩)]⟩, ⟨true, .always, none⟩)

/-- `start_source` of one source, to the record of its task. -/
def clockStart (n : Nat) : List RuntimeEvent :=
  [.resumes n (.source (some clockRecord) 0), .resumes n (.generation none)]

def clockRun : List RuntimeEvent :=
  [.calls (.startSource ("view", "clock") false), .resumes 0 .returned] ++ clockStart 0 ++
    [.finishes 0, .calls (.stopSource ("view", "clock")), .resumes 1 .returned]

theorem clock_one_producer : ∃ r, Runs.run runtimeNext (Runtime.new 64 4096) clockRun = some r ∧ OneProducer r := by
  have hrun : (Runs.run runtimeNext (new 64 4096) clockRun).any (fun _ => true) = true := by decide +kernel
  obtain ⟨r, hr, _⟩ := (any_eq_true _ _).mp hrun
  refine ⟨r, hr, (one_producer_iff hr).mpr (Runs.meets_of_all
    (p := fun (r : Runtime) e => r.sourceTasks.quiet (r.eventTask e)) (fun _ _ h => h) ?_) clockRun [] r
    (List.append_nil _).symm hr⟩
  decide +kernel

/-- Two `start_source` of one source are both past their check before one of them records its task. -/
theorem two_producers : ∃ es r, Runs.run runtimeNext (Runtime.new 64 4096) es = some r ∧ ¬ OneProducer r := by
  have hrun : (Runs.run runtimeNext (new 64 4096)
      ([.calls (.startSource ("view", "clock") false), .resumes 0 .returned,
        .calls (.startSource ("view", "clock") false), .resumes 1 .returned] ++ clockStart 0 ++ clockStart 1)).any
      (fun r => r.sourceTasks.jobs.map (fun x => (x.key, x.finished)) ==
        [(("view", "clock"), false), (("view", "clock"), false)]) = true := by decide +kernel
  obtain ⟨r, hr, hjobs⟩ := (any_eq_true _ _).mp hrun
  refine ⟨_, r, hr, ?_⟩
  intro h
  have hrunn : ∀ t, t < 2 → r.sourceTasks.Running t ("view", "clock") := by
    intro t ht
    have hget := congrArg (fun l => l[t]?) (beq_iff_eq.mp hjobs)
    rw [List.getElem?_map] at hget
    obtain ⟨x, hx, hfst⟩ : ∃ x, r.sourceTasks.jobs[t]? = some x ∧ (x.key, x.finished) = (("view", "clock"), false) := by
      rcases Nat.le_one_iff_eq_zero_or_eq_one.mp (Nat.le_of_lt_succ ht) with rfl | rfl
      · exact map_eq_some_iff.mp hget
      · exact map_eq_some_iff.mp hget
    exact ⟨x, hx, congrArg Prod.fst hfst, congrArg Prod.snd hfst⟩
  exact absurd (h.unique 0 1 _ (hrunn 0 (by decide)) (hrunn 1 (by decide))) (by decide)

/-- Where `start_source` records a task only for a source that has none unfinished. -/
def RecordsFree (r : Runtime) (e : RuntimeEvent) : Prop :=
  ∀ k run, r.eventTask e = .launch k run → r.sourceTasks.idle k = true

/-- `stop_source` still reaches every producer where only the recording waits: one that is not recorded was
cancelled when it was popped. -/
theorem stop_reaches {perSocket total : Nat} {r : Runtime}
    (h : Runs.ReachesUnder runtimeNext RecordsFree (Runtime.new perSocket total) r) {t : Nat} {k : SourceKey}
    (hrun : r.sourceTasks.Running t k) : (r.sourceTasks.take k).Cancelled t := by
  have hboth : r.sourceTasks.Sound ∧ r.sourceTasks.Covered := by
    refine Runs.invariant_under (I := fun r => r.sourceTasks.Sound ∧ r.sourceTasks.Covered) ?_
      ⟨sound_new perSocket total, (exclusive_new perSocket total).covered⟩ h
    intro r e s hr hfree he
    obtain ⟨htas, hrep⟩ := next_sourceTasks he
    refine ⟨next_sound hr.1 he, ?_⟩
    rw [htas]
    exact hr.2.apply hr.1 hrep hfree
  exact hboth.2.take_cancels hrun

theorem stop_reaches_clock : ∃ r, Runs.run runtimeNext (Runtime.new 64 4096) (clockRun.take 4) = some r ∧
    (r.sourceTasks.take ("view", "clock")).Cancelled 0 := by
  have hrun : (Runs.run runtimeNext (Runtime.new 64 4096) (clockRun.take 4)).any
      (fun r => r.sourceTasks.jobs.map (fun x => (x.key, x.finished)) == [(("view", "clock"), false)]) = true := by
    decide +kernel
  obtain ⟨r, hr, hjobs⟩ := (any_eq_true _ _).mp hrun
  have hget := congrArg (fun l => l[0]?) (beq_iff_eq.mp hjobs)
  rw [List.getElem?_map] at hget
  obtain ⟨x, hx, hfst⟩ := map_eq_some_iff.mp hget
  refine ⟨r, hr, stop_reaches ⟨_, Runs.meets_of_all
    (p := fun (r : Runtime) e => r.sourceTasks.quiet (r.eventTask e)) (fun r e h k run he => ?_) ?_, hr⟩
    ⟨x, hx, congrArg Prod.fst hfst, congrArg Prod.snd hfst⟩⟩
  · rw [he] at h
    exact h
  · decide +kernel

end OpenAgent.Dashboards
