import OpenAgent.Gateway.Collaboration.Requests

namespace OpenAgent.Gateway.Collaboration

open Py

/-- What every event but the start of a task leaves alone, or lets grow. -/
structure Carries (d d' : Desk) : Prop where
  nextTask : d'.nextTask = d.nextTask
  submission : ∀ t, (d'.task t).submission = (d.task t).submission
  userId : ∀ t, (d'.task t).userId = (d.task t).userId
  entries : ∀ k e, d'.requests.get? k = some e →
    ∃ e₀, d.requests.get? k = some e₀ ∧ e.task = e₀.task ∧ e.fingerprint = e₀.fingerprint
  cancelled : ∀ t, (d.task t).cancelRequested = true → (d'.task t).cancelRequested = true
  prepared : ∀ r ∈ d.prepared, r ∈ d'.prepared
  trace : ∀ e ∈ d.trace, e ∈ d'.trace

namespace Carries

theorem refl (d : Desk) : Carries d d :=
  ⟨rfl, fun _ => rfl, fun _ => rfl, fun _ e h => ⟨e, h, rfl, rfl⟩, fun _ => id, fun _ => id, fun _ => id⟩

theorem trans {d d' d'' : Desk} (h : Carries d d') (k : Carries d' d'') : Carries d d'' where
  nextTask := k.nextTask.trans h.nextTask
  submission := fun t => (k.submission t).trans (h.submission t)
  userId := fun t => (k.userId t).trans (h.userId t)
  entries := by
    intro j e he
    obtain ⟨e₁, h₁, ht₁, hf₁⟩ := k.entries j e he
    obtain ⟨e₀, h₀, ht₀, hf₀⟩ := h.entries j e₁ h₁
    exact ⟨e₀, h₀, ht₁.trans ht₀, hf₁.trans hf₀⟩
  cancelled := fun t ht => k.cancelled t (h.cancelled t ht)
  prepared := fun r hr => k.prepared r (h.prepared r hr)
  trace := fun e he => k.trace e (h.trace e he)

end Carries

namespace Desk

variable (d : Desk)

theorem carries_setTask (t : TaskId) {x : Task} (hs : x.submission = (d.task t).submission)
    (hu : x.userId = (d.task t).userId)
    (hc : (d.task t).cancelRequested = true → x.cancelRequested = true) : Carries d (d.setTask t x) where
  nextTask := rfl
  submission := by
    intro u
    by_cases h : u = t
    · subst h
      simpa [setTask] using hs
    · simp [setTask, Function.update_of_ne h]
  userId := by
    intro u
    by_cases h : u = t
    · subst h
      simpa [setTask] using hu
    · simp [setTask, Function.update_of_ne h]
  entries := fun _ e h => ⟨e, h, rfl, rfl⟩
  cancelled := by
    intro u hcan
    by_cases h : u = t
    · subst h
      simpa [setTask] using hc hcan
    · simpa [setTask, Function.update_of_ne h] using hcan
  prepared := fun _ => id
  trace := fun _ => id

theorem carries_setStage (t : TaskId) (s : TaskStage) : Carries d (d.setStage t s) :=
  d.carries_setTask t rfl rfl id

theorem carries_rest {d' : Desk} (hn : d'.nextTask = d.nextTask) (ht : d'.task = d.task)
    (hr : d'.requests = d.requests) (hp : ∀ r ∈ d.prepared, r ∈ d'.prepared)
    (htra : ∀ e ∈ d.trace, e ∈ d'.trace) : Carries d d' where
  nextTask := hn
  submission := fun t => by rw [ht]
  userId := fun t => by rw [ht]
  entries := fun k e h => ⟨e, by rw [← hr]; exact h, rfl, rfl⟩
  cancelled := fun t h => by rw [ht]; exact h
  prepared := hp
  trace := htra

theorem carries_emit (e : Effect) : Carries d (d.emit e) :=
  d.carries_rest rfl rfl rfl (fun _ => id) (fun _ => List.mem_append_left _)

theorem carries_setRuntime (rt : RuntimeId) (x : Runtime) : Carries d (d.setRuntime rt x) :=
  d.carries_rest rfl rfl rfl (fun _ => id) (fun _ => id)

theorem carries_setStop (n : StopId) (s : StopStage) : Carries d (d.setStop n s) :=
  d.carries_rest rfl rfl rfl (fun _ => id) (fun _ => id)

theorem carries_setChat (n : ChatId) (s : ChatStage) : Carries d (d.setChat n s) :=
  d.carries_rest rfl rfl rfl (fun _ => id) (fun _ => id)

theorem carries_prune (now : Int) : Carries d (d.prune now) where
  nextTask := rfl
  submission := fun _ => rfl
  userId := fun _ => rfl
  entries := by
    intro k e h
    rw [prune, Dict.get?_filter, Option.filter_eq_some_iff] at h
    exact ⟨e, h.1, rfl, rfl⟩
  cancelled := fun _ => id
  prepared := fun _ => id
  trace := fun _ => id

theorem carries_completed (t : TaskId) (outcome : Outcome) (now : Int) : Carries d (d.completed t outcome now) := by
  have hrep : Carries d (d.setTask t { d.task t with reported := true }) :=
    d.carries_setTask t rfl rfl id
  refine hrep.trans ?_
  rw [completed]
  split
  · rename_i e he
    split
    · exact Carries.refl _
    split
    · refine ⟨rfl, fun _ => rfl, fun _ => rfl, fun k f hf => ⟨f, ?_, rfl, rfl⟩, fun _ => id, fun _ => id, fun _ => id⟩
      rw [Dict.get?_erase] at hf
      split at hf
      · cases hf
      · exact hf
    refine ⟨rfl, fun _ => rfl, fun _ => rfl, fun k f hf => ?_, fun _ => id, fun _ => id, fun _ => id⟩
    rw [Dict.get?_set] at hf
    split at hf
    · rename_i hk
      cases hf
      exact ⟨e, by rw [hk]; exact he, rfl, rfl⟩
    · exact ⟨f, hf, rfl, rfl⟩
  · exact Carries.refl _

theorem carries_unwind (t : TaskId) : Carries d (d.unwind t) := by
  rw [unwind]
  split
  · exact d.carries_rest rfl rfl rfl (fun _ => id) (fun _ => id)
  · exact d.carries_setRuntime _ _
  · exact d.carries_setRuntime _ _
  · exact d.carries_setRuntime _ _
  · exact d.carries_setRuntime _ _
  · exact d.carries_setRuntime _ _
  · exact (d.carries_setRuntime _ _).trans (carries_setRuntime _ _ _)
  · exact Carries.refl d

theorem carries_finish (t : TaskId) (outcome : Outcome) : Carries d (d.finish t outcome) :=
  (d.carries_unwind t).trans (carries_setStage _ _ _)

theorem carries_requestCancel (actor : Actor) (t : TaskId) : Carries d (d.requestCancel actor t) := by
  rw [requestCancel]
  split
  · exact Carries.refl d
  have hflag : Carries d (d.setTask t { d.task t with cancelRequested := true }) :=
    d.carries_setTask t rfl rfl (fun _ => rfl)
  exact hflag.trans (carries_emit _ _)

theorem carries_interrupt (actor : Actor) (rt : RuntimeId) (execution identity : Bool) :
    Carries d (d.interrupt actor rt execution identity).1 := by
  rw [interrupt]
  split
  · exact Carries.refl d
  split
  · exact Carries.refl d
  split
  · split
    · exact Carries.refl d
    · exact d.carries_emit _
  · exact d.carries_setTask _ rfl rfl id

theorem carries_interruptStep (actor : Actor) (rt : RuntimeId) (a : TaskId) (phase : Phase) :
    Carries d (d.interruptStep actor rt a phase).1 := by
  cases phase with
  | context => exact d.carries_emit _
  | cancelling => exact d.carries_setTask _ rfl rfl id
  | dispatch =>
    rw [interruptStep]
    split
    · exact d.carries_emit _
    · exact Carries.refl d
  | turn =>
    rw [interruptStep]
    split
    · exact d.carries_requestCancel _ _
    · exact Carries.refl d

theorem carries_afterInterrupt (t : TaskId) (rt : RuntimeId) (p : Option (TaskId × Phase)) :
    Carries d (d.afterInterrupt t rt p) := by
  cases p with
  | none => exact (d.carries_setRuntime _ _).trans (carries_setStage _ _ _)
  | some p => exact d.carries_setStage _ _

theorem carries_runTask {d d' : Desk} {t : TaskId} (h : d.runTask t = some d') : Carries d d' := by
  rw [runTask] at h
  split at h
  · cases h; exact d.carries_setStage _ _
  · split at h
    · cases h
    · split at h
      · cases h; exact d.carries_setStage _ _
      · cases h
        have hnew : Carries d { d.setRuntime d.nextRuntime {} with
            nextRuntime := d.nextRuntime + 1
            registry := some t
            runtimes := d.runtimes.set (d.task t).submission.sid d.nextRuntime } :=
          d.carries_rest rfl rfl rfl (fun _ => id) (fun _ => id)
        exact hnew.trans (carries_setStage _ _ _)
  · cases h
    have hfree : Carries d { d with registry := none } :=
      d.carries_rest rfl rfl rfl (fun _ => id) (fun _ => id)
    exact hfree.trans (carries_setStage _ _ _)
  · cases h; exact d.carries_setStage _ _
  · split at h
    · cases h
    · cases h
      exact (d.carries_setRuntime _ _).trans (carries_setStage _ _ _)
  · split at h
    · cases h; exact d.carries_setStage _ _
    · cases h
      exact (d.carries_interrupt _ _ _ _).trans (carries_afterInterrupt _ _ _ _)
    · cases h; exact d.carries_afterInterrupt _ _ _
  · rename_i rt steers hstage
    have hadm : Carries d { d.emit (.admitted t) with
        prepared := (d.task t).submission.requestId :: d.prepared } :=
      d.carries_rest rfl rfl rfl (fun _ => List.mem_cons_of_mem _) (fun _ => List.mem_append_left _)
    split at h
    · cases h
      exact hadm.trans ((carries_interrupt _ _ _ _ _).trans (carries_afterInterrupt _ _ _ _))
    · cases h
      exact hadm.trans (carries_afterInterrupt _ _ _ _)
  · cases h
    exact (d.carries_interruptStep _ _ _ _).trans (carries_afterInterrupt _ _ _ _)
  · split at h
    · cases h
    · cases h
      exact (d.carries_setRuntime _ _).trans (carries_setStage _ _ _)
  · cases h
    exact (d.carries_setRuntime _ _).trans (carries_setStage _ _ _)
  · cases h; exact d.carries_finish _ _
  · cases h; exact d.carries_finish _ _
  · cases h

theorem carries_stepTask {d d' : Desk} {t : TaskId} {reply : Reply} (h : d.stepTask t reply = some d') :
    Carries d d' := by
  rw [stepTask.eq_def] at h
  split at h
  · cases h
  split at h
  · exact carries_runTask h
  · split at h
    · cases h; exact d.carries_finish _ _
    · cases h
  split at h
  · split at h
    · cases h; exact d.carries_finish _ _
    · cases h; exact d.carries_setStage _ _
  · cases h

theorem carries_cancelTask {d d' : Desk} {t : TaskId} (h : d.cancelTask t = some d') : Carries d d' := by
  rw [cancelTask] at h
  split at h
  · cases h
  split at h
  · cases h; exact d.carries_finish _ _
  · cases h; exact d.carries_finish _ _

theorem carries_runStop {d d' : Desk} {n : StopId} (h : d.runStop n = some d') : Carries d d' := by
  rw [runStop] at h
  split at h
  · split at h
    · cases h; exact d.carries_setStop _ _
    · split at h
      · cases h; exact d.carries_setStop _ _
      · cases h
        exact (d.carries_requestCancel _ _).trans (carries_setStop _ _ _)
  · split at h
    · cases h
    · cases h
      exact (d.carries_setRuntime _ _).trans (carries_setStop _ _ _)
  · rename_i rt t _
    have hi := d.carries_interrupt (.stop n) rt true false
    split at h
    · split at h
      · rename_i he
        cases h
        rw [he] at hi
        exact hi.trans (carries_setStop _ _ _)
      · rename_i he
        cases h
        rw [he] at hi
        exact hi.trans ((carries_setRuntime _ _ _).trans (carries_setStop _ _ _))
    · cases h
      exact (d.carries_requestCancel _ _).trans ((carries_setRuntime _ _ _).trans (carries_setStop _ _ _))
  · rename_i rt t a phase _
    have hi := d.carries_interruptStep (.stop n) rt a phase
    split at h
    · rename_i he
      cases h
      rw [he] at hi
      exact hi.trans (carries_setStop _ _ _)
    rename_i he
    cases h
    rw [he] at hi
    exact hi.trans ((carries_setRuntime _ _ _).trans (carries_setStop _ _ _))
  · cases h

theorem carries_failStop {d d' : Desk} {n : StopId} (h : d.failStop n = some d') : Carries d d' := by
  rw [failStop] at h
  split at h
  · cases h; exact d.carries_setStop _ _
  · cases h; exact (d.carries_setRuntime _ _).trans (carries_setStop _ _ _)
  · cases h; exact (d.carries_setRuntime _ _).trans (carries_setStop _ _ _)
  · cases h

theorem carries_dropRuntime {d d' : Desk} {sid : String} (h : d.dropRuntime sid = some d') : Carries d d' := by
  rw [dropRuntime] at h
  split at h
  · split at h
    · cases h
      exact d.carries_rest rfl rfl rfl (fun _ => id) (fun _ => id)
    · cases h
  · cases h

end Desk

theorem deskNext_carries {publicRef : Json → Json} {d d' : Desk} {e : DeskEvent}
    (h : deskNext publicRef d e = some d') :
    Carries d d' ∨ ∃ n s u, e = .chatLooks n ∧ d.chat n = some (.looking s u) ∧ d' = d.look n s u := by
  cases e with
  | chat n body =>
    rw [deskNext] at h
    split at h
    · cases h
    · cases h; exact .inl (d.carries_setChat _ _)
  | chatChecked n userId =>
    rw [deskNext] at h
    split at h
    · cases h; exact .inl (d.carries_setChat _ _)
    · cases h
  | chatPruned n now =>
    rw [deskNext] at h
    split at h
    · cases h
      split
      · exact .inl ((d.carries_prune _).trans (Desk.carries_setChat _ _ _))
      · exact .inl (d.carries_setChat _ _)
    · cases h
  | chatLooks n =>
    rw [deskNext] at h
    split at h
    · rename_i s u hs
      cases h
      exact .inr ⟨n, s, u, rfl, hs, rfl⟩
    · cases h
  | chatAnswers n checked =>
    rw [deskNext] at h
    split at h
    · split at h
      · cases h; exact .inl (d.carries_setChat _ _)
      · cases h; exact .inl (d.carries_setChat _ _)
      · cases h
    · cases h
  | step t reply =>
    rw [deskNext] at h
    split at h
    · exact .inl (Desk.carries_stepTask h)
    · cases h
  | cancelled t =>
    rw [deskNext] at h
    split at h
    · exact .inl (Desk.carries_cancelTask h)
    · cases h
  | completed t now =>
    rw [deskNext] at h
    split at h
    · split at h
      · cases h
      · cases h; exact .inl (d.carries_completed _ _ _)
    · cases h
  | prune now => cases h; exact .inl (d.carries_prune _)
  | dropRuntime sid => exact .inl (Desk.carries_dropRuntime h)
  | stopRequest n sid requestId =>
    rw [deskNext] at h
    split at h
    · cases h
    split at h
    · cases h; exact .inl (d.carries_setStop _ _)
    · cases h; exact .inl (d.carries_setStop _ _)
  | stopStep n => exact .inl (Desk.carries_runStop h)
  | stopFails n => exact .inl (Desk.carries_failStop h)

def Faithful (d : Desk) : Prop :=
  ∀ k e, d.requests.get? k = some e → e.task < d.nextTask ∧ (d.task e.task).submission.key = k ∧
    e.fingerprint = (d.task e.task).submission.fingerprint (d.task e.task).userId

theorem Faithful.carries {d d' : Desk} (hf : Faithful d) (h : Carries d d') : Faithful d' := by
  intro k e he
  obtain ⟨e₀, he₀, ht, hp⟩ := h.entries k e he
  obtain ⟨hlt, hkey, hpri⟩ := hf k e₀ he₀
  rw [h.nextTask, h.submission, h.userId, ht, hp]
  exact ⟨hlt, hkey, hpri⟩

theorem look_cases (d : Desk) (n : ChatId) (s : Submission) (u : String) : (∃ e, d.requests.get? s.key = some e ∧
      d.look n s u = d.setChat n (if e.fingerprint = s.fingerprint u then .waiting s u e.task else .answered .conflict)) ∨
    (d.requests.get? s.key = none ∧ d.look n s u = d.setChat n (.answered .tooMany)) ∨
    (d.requests.get? s.key = none ∧ d.look n s u =
      ({ ({ d.setTask d.nextTask { userId := u, submission := s } with nextTask := d.nextTask + 1 } : Desk) with
          requests := d.requests.set s.key ⟨s.fingerprint u, d.nextTask, none⟩ }.emit
        (.ran d.nextTask)).setChat n (.waiting s u d.nextTask)) := by
  rw [Desk.look]
  split
  · rename_i e he
    refine .inl ⟨e, he, ?_⟩
    by_cases hp : e.fingerprint = s.fingerprint u
    · rw [if_neg (not_not_intro hp), if_pos hp]
    · rw [if_pos hp, if_neg hp]
  rename_i he
  split
  · exact .inr (.inl ⟨he, rfl⟩)
  · exact .inr (.inr ⟨he, rfl⟩)

theorem Faithful.look {d : Desk} (hf : Faithful d) (n : ChatId) (s : Submission) (u : String) :
    Faithful (d.look n s u) := by
  rcases look_cases d n s u with ⟨e, -, hl⟩ | ⟨-, hl⟩ | ⟨-, hl⟩
  · rw [hl]
    exact hf.carries (d.carries_setChat _ _)
  · rw [hl]
    exact hf.carries (d.carries_setChat _ _)
  rw [hl]
  intro k e he
  simp only [Desk.setChat, Desk.emit, Desk.setTask] at he ⊢
  rw [Dict.get?_set] at he
  split at he
  · rename_i hk
    cases he
    rw [Function.update_self]
    exact ⟨Nat.lt_succ_self _, hk.symm, rfl⟩
  obtain ⟨hlt, hkey, hpri⟩ := hf k e he
  rw [Function.update_of_ne (Nat.ne_of_lt hlt)]
  exact ⟨hlt.trans (Nat.lt_succ_self _), hkey, hpri⟩

theorem faithful_reachable {publicRef : Json → Json} {d : Desk} (hr : ReachableDesk publicRef d) : Faithful d := by
  refine Runs.invariant (fun d e d' hf he => ?_) ?_ hr
  · rcases deskNext_carries he with hc | ⟨n, s, u, -, -, rfl⟩
    · exact hf.carries hc
    · exact hf.look n s u
  · intro k e he
    cases he

/-- The fields that a fingerprint is made of agree; attachments are compared as values. -/
structure SameFingerprint (s r : Submission) (u v : String) : Prop where
  userId : u = v
  text : s.text = r.text
  delivery : s.delivery = r.delivery
  attachments : (Json.arr s.attachments).canon = (Json.arr r.attachments).canon
  instanceId : s.instanceId = r.instanceId

def SameRequest (s r : Submission) (u v : String) : Prop :=
  SameFingerprint s r u v ∧ s.appConnectionId = r.appConnectionId

theorem fingerprint_eq_iff (s r : Submission) (u v : String) :
    r.fingerprint v = s.fingerprint u ↔ SameFingerprint s r u v := by
  rw [Submission.fingerprint, Submission.fingerprint, Fingerprint.mk.injEq, Json.dumpsSorted_eq_iff]
  constructor
  · rintro ⟨hu, ht, hd, ha, hi⟩
    exact ⟨hu.symm, ht.symm, hd.symm, ha.symm, hi.symm⟩
  · rintro ⟨hu, ht, hd, ha, hi⟩
    exact ⟨hu.symm, ht.symm, hd.symm, ha.symm, hi.symm⟩

/-- A submission whose key is still in the table is answered from the first one's task only if the two are the same
request, and starts no task, if and only if they name the same app connection or differ in a field of the fingerprint. -/
theorem request_identity_iff {publicRef : Json → Json} {d d' : Desk} (hr : ReachableDesk publicRef d)
    {n : ChatId} {s : Submission} {u : String} (hn : d.chat n = some (.looking s u)) {e : Entry}
    (he : d.requests.get? s.key = some e) (hd : deskNext publicRef d (.chatLooks n) = some d') :
    ((d'.chat n = some (.waiting s u e.task) → SameRequest s (d.task e.task).submission u (d.task e.task).userId) ∧
      (¬ SameRequest s (d.task e.task).submission u (d.task e.task).userId → d'.chat n = some (.answered .conflict)) ∧
      d'.nextTask = d.nextTask ∧ d'.trace = d.trace) ↔
    (s.appConnectionId = (d.task e.task).submission.appConnectionId ∨
      ¬ SameFingerprint s (d.task e.task).submission u (d.task e.task).userId) := by
  obtain ⟨-, -, hpri⟩ := faithful_reachable hr _ _ he
  have hsame : e.fingerprint = s.fingerprint u ↔
      SameFingerprint s (d.task e.task).submission u (d.task e.task).userId := by
    rw [hpri]
    exact fingerprint_eq_iff _ _ _ _
  simp only [deskNext, hn, Option.some.injEq] at hd
  obtain ⟨f, hf, hl⟩ : ∃ f, d.requests.get? s.key = some f ∧ d.look n s u = d.setChat n
      (if f.fingerprint = s.fingerprint u then .waiting s u f.task else .answered .conflict) := by
    rcases look_cases d n s u with h | ⟨hnone, -⟩ | ⟨hnone, -⟩
    · exact h
    · rw [hnone] at he; cases he
    · rw [hnone] at he; cases he
  rw [he] at hf
  cases hf
  rw [hl] at hd
  subst hd
  simp only [Desk.setChat, Function.update_self, Option.some.injEq]
  by_cases hp : e.fingerprint = s.fingerprint u
  · rw [if_pos hp]
    constructor
    · rintro ⟨honly, -⟩
      exact .inl (honly rfl).2
    rintro (happ | hdiff)
    · exact ⟨fun _ => ⟨hsame.mp hp, happ⟩, fun hne => absurd ⟨hsame.mp hp, happ⟩ hne, trivial, trivial⟩
    · exact absurd (hsame.mp hp) hdiff
  · rw [if_neg hp]
    exact ⟨fun _ => .inr (fun h => hp (hsame.mpr h)), fun _ => ⟨nofun, fun _ => rfl, trivial, trivial⟩⟩

def hello (app : String) : Json :=
  .obj [("session_id", .str "chat"), ("request_id", .str "request"), ("message", .str "Hello"),
    ("app_connection_id", .str app)]

def sentTwice (first second : String) : List DeskEvent :=
  [.chat 0 (hello first), .chatChecked 0 (some "user"), .chatPruned 0 (some 0), .chatLooks 0,
    .chat 1 (hello second), .chatChecked 1 (some "user"), .chatPruned 1 (some 0)]

def findsFirst (sameApp : Bool) (d : Desk) : Bool :=
  match d.chat 1 with
  | some (.looking s u) =>
    match d.requests.get? s.key with
    | some e => decide (e.fingerprint = s.fingerprint u) &&
        decide (s.appConnectionId = (d.task e.task).submission.appConnectionId) == sameApp
    | none => false
  | _ => false

theorem findsFirst_holds {sameApp : Bool} {d : Desk} (h : findsFirst sameApp d = true) :
    ∃ s u e, d.chat 1 = some (.looking s u) ∧ d.requests.get? s.key = some e ∧ e.fingerprint = s.fingerprint u ∧
      decide (s.appConnectionId = (d.task e.task).submission.appConnectionId) = sameApp := by
  rw [findsFirst] at h
  split at h
  · rename_i s u hs
    split at h
    · rename_i e he
      rw [Bool.and_eq_true, decide_eq_true_eq, beq_iff_eq] at h
      exact ⟨s, u, e, hs, he, h.1, h.2⟩
    · cases h
  · cases h

theorem look_waits {d : Desk} {s : Submission} {u : String} {e : Entry} (n : ChatId)
    (he : d.requests.get? s.key = some e) (hp : e.fingerprint = s.fingerprint u) :
    (d.look n s u).chat n = some (.waiting s u e.task) := by
  simp [Desk.look, he, hp, Desk.setChat]

theorem app_connection_ignored : ¬ ∀ d d' n s u e, ReachableDesk id d → d.chat n = some (.looking s u) →
    d.requests.get? s.key = some e → deskNext id d (.chatLooks n) = some d' →
    d'.chat n = some (.waiting s u e.task) → SameRequest s (d.task e.task).submission u (d.task e.task).userId := by
  intro hall
  have hrun : (Runs.run (deskNext id) {} (sentTwice "app-1" "app-2")).any (findsFirst false) = true := by
    decide +kernel
  obtain ⟨d, hd, hfin⟩ := (Option.any_eq_true _ _).mp hrun
  obtain ⟨s, u, e, hs, he, hp, happ⟩ := findsFirst_holds hfin
  have hlook : deskNext id d (.chatLooks 1) = some (d.look 1 s u) := by simp only [deskNext, hs]
  exact of_decide_eq_false happ (hall d _ 1 s u e ⟨_, hd⟩ hs he hlook (look_waits 1 he hp)).2

theorem request_identity_repeated : ∃ d, ReachableDesk id d ∧ ∃ s u e, d.chat 1 = some (.looking s u) ∧
    d.requests.get? s.key = some e ∧ SameRequest s (d.task e.task).submission u (d.task e.task).userId := by
  have hrun : (Runs.run (deskNext id) {} (sentTwice "app-1" "app-1")).any (findsFirst true) = true := by
    decide +kernel
  obtain ⟨d, hd, hfin⟩ := (Option.any_eq_true _ _).mp hrun
  obtain ⟨s, u, e, hs, he, hp, happ⟩ := findsFirst_holds hfin
  have hr : ReachableDesk id d := ⟨_, hd⟩
  have hlook : deskNext id d (.chatLooks 1) = some (d.look 1 s u) := by simp only [deskNext, hs]
  have hiff := request_identity_iff hr hs he hlook
  exact ⟨d, hr, s, u, e, hs, he, (hiff.mpr (.inl (of_decide_eq_true happ))).1 (look_waits 1 he hp)⟩

end OpenAgent.Gateway.Collaboration
