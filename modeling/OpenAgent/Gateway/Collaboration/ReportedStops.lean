import OpenAgent.Gateway.Collaboration.Stopping

namespace OpenAgent.Gateway.Collaboration

open Py List Option Collaboration Calm Desk

/-- A stop cancels the observer of a task only where its run was not admitted or is cancelled already, and
cancels a turn only where the active one is of the request that it was asked to stop. -/
def StopsExactly (d : Desk) : DeskEvent → Prop
  | .stopStep n =>
    match d.stop n with
    | some (.checking sid requestId) => ∀ e, d.requests.get? (sid, requestId) = some e →
        d.isDone e.task = false → d.runtimes.get? sid = none →
        .admitted e.task ∉ d.trace ∨ RunCancelled d e.task
    | some (.admissionCheck rt t) => (∀ a, (d.runtime rt).active = some a → d.requestId a ≠ d.requestId t) →
        .admitted t ∉ d.trace ∨ RunCancelled d t
    | some (.interrupting rt t _ .dispatch) =>
      ∀ b, (d.runtime rt).active = some b → d.requestId b = d.requestId t
    | _ => True
  | _ => True

namespace Desk

variable {d : Desk} {n : StopId} {b : TaskId}

theorem hit_emit {e : Effect} (h : Hit (d.emit e) n b) :
    Hit d n b ∨ e = .turnCancelled (.stop n) b ∨ e = .taskCancelled (.stop n) b := by
  rcases h with h | h
  · rcases mem_append.mp h with h | h
    · exact .inl (.inl h)
    · exact .inr (.inl (mem_singleton.mp h).symm)
  rcases mem_append.mp h with h | h
  · exact .inl (.inr h)
  · exact .inr (.inr (mem_singleton.mp h).symm)

theorem hit_requestCancel {t : TaskId} (h : Hit (d.requestCancel (.stop n) t) n b) : Hit d n b ∨ b = t := by
  rw [requestCancel] at h
  split at h
  · exact .inl h
  rcases hit_emit h with h | h | h
  · exact .inl h
  · cases h
  · cases h
    exact .inr rfl

variable {rt : RuntimeId} {a : TaskId}

theorem hit_interruptStep {phase : Phase} (h : Hit (d.interruptStep (.stop n) rt a phase).1 n b) :
    Hit d n b ∨ (phase = .dispatch ∧ (d.runtime rt).active = some b) ∨ b = a := by
  cases phase with
  | context =>
    rcases hit_emit h with h | h | h
    · exact .inl h
    · cases h
    · cases h
  | cancelling => exact .inl h
  | dispatch =>
    rw [interruptStep] at h
    split at h
    · rename_i c hc
      rcases hit_emit h with h | h | h
      · exact .inl h
      · cases h
        exact .inr (.inl ⟨rfl, hc⟩)
      · cases h
    · exact .inl h
  | turn =>
    rw [interruptStep] at h
    split at h
    · exact (hit_requestCancel h).imp id .inr
    · exact .inl h

variable {actor : Actor}

theorem interrupt_admitted
    (ha : (d.runtime rt).active = some a) (hp : d.isCommand a = false → d.requestId a ∈ d.prepared) :
    d.interrupt actor rt true false = if d.isCommand a then (d, none)
      else (d.emit (.runCancelled actor (d.requestId a)), some (a, .cancelling)) := by
  rw [interrupt, ha]
  dsimp only
  split
  · rfl
  rename_i hcom
  have hmem := hp (Bool.not_eq_true _ ▸ hcom)
  simp [hmem]

theorem interruptStep_phase {phase next : Phase}
    (h : (d.interruptStep actor rt a phase).2 = some next) : next ≠ .context := by
  rintro rfl
  cases phase with
  | context => cases h
  | cancelling => cases h
  | dispatch | turn =>
    rw [interruptStep] at h
    split at h
    · cases h
    · cases h

theorem settled_requestCancel {t : TaskId} (h : .admitted t ∉ d.trace ∨ RunCancelled d t) :
    Settled (d.requestCancel actor t) t := by
  have hc : Calm actor d (d.requestCancel actor t) := Calm.requestCancel d t
  rcases h with h | h
  · refine .inr ⟨fun hadm => h ((hc.admitted t).mp hadm), ?_⟩
    rw [requestCancel]
    split
    · rename_i hdone
      exact .inr hdone
    · exact .inl (by simp [emit, setTask])
  · exact .inl (hc.carries.runCancelled h)

end Desk

namespace Orderly

variable {d d' : Desk} {n : StopId}

theorem noHit (h : Orderly d) (hs : stopTarget (d.stop n) = none) (b : TaskId) : ¬ Hit d n b := by
  intro hb
  obtain ⟨-, t, ht, -⟩ := h.tidy.hits n b hb
  rw [hs] at ht
  cases ht

theorem setStop (h : Orderly d) {d₁ : Desk} {st : StopStage} (hc : Calm (.stop n) d d₁)
    (hst : StopSound d₁ (some st)) (hhit : ∀ b, Hit d₁ n b →
      b < d.nextTask ∧ ∃ t, stopTarget (some st) = some t ∧ d.requestId b = d.requestId t) :
    Orderly (d₁.setStop n st) := by
  have hset : Calm (.stop n) d₁ (d₁.setStop n st) := Calm.setStop d₁ n st
  have hself : (d₁.setStop n st).stop n = some st := by simp [Desk.setStop]
  refine h.calm (hc.trans hset) ?_
  rintro m ⟨rfl⟩
  rw [Exact, hself]
  refine ⟨hset.onward.stopSound hst, ?_⟩
  intro b hb
  obtain ⟨hlt, t, ht, hsame⟩ := hhit b hb
  have hcar := hc.carries.trans hset.carries
  exact ⟨hcar.nextTask.symm ▸ hlt, t, ht, by rw [hcar.requestId, hcar.requestId, hsame]⟩

theorem leaves (h : Orderly d) {d₁ : Desk} {st : StopStage} (rt : RuntimeId) (hc : Calm (.stop n) d d₁)
    (hst : StopSound d₁ (some st)) (hhit : ∀ b, Hit d₁ n b →
      b < d.nextTask ∧ ∃ t, stopTarget (some st) = some t ∧ d.requestId b = d.requestId t) :
    Orderly ((d₁.releaseAdmission rt).setStop n st) := by
  have hrel : Calm (.stop n) d₁ (d₁.releaseAdmission rt) := setRuntime d₁ rt rfl
  exact h.setStop (hc.trans hrel) (hrel.onward.stopSound hst) hhit

theorem runStop (h : Orderly d) (hf : Faithful d) (hexa : StopsExactly d (.stopStep n))
    (hd : d.runStop n = some d') : Orderly d' := by
  rw [Desk.runStop] at hd
  rw [StopsExactly] at hexa
  have hsou := h.tidy.stops n
  split at hd
  · rename_i sid requestId hs
    rw [hs] at hexa
    have hno := h.noHit (n := n) (by rw [hs]; rfl)
    split at hd
    · cases hd
      exact h.setStop (refl d) trivial (fun b hb => absurd hb (hno b))
    rename_i e he
    rw [filter_eq_some_iff] at he
    obtain ⟨he, hdone⟩ := he
    have hlt := (hf _ e he).1
    split at hd
    · cases hd
      exact h.setStop (refl d) hlt (fun b hb => absurd hb (hno b))
    rename_i hrt
    cases hd
    have hc : Calm (.stop n) d (d.requestCancel (.stop n) e.task) := requestCancel d e.task
    have hok := hexa e he (by simpa using hdone) hrt
    refine h.setStop hc ⟨hc.onward.nextTask.trans_lt' hlt, fun _ => settled_requestCancel hok⟩ ?_
    intro b hb
    rcases hit_requestCancel hb with hb | rfl
    · exact absurd hb (hno b)
    · exact ⟨hlt, _, rfl, rfl⟩
  · rename_i rt t hs
    rw [hs] at hsou
    have hno := h.noHit (n := n) (by rw [hs]; rfl)
    split at hd
    · cases hd
    · cases hd
      exact h.setStop (setRuntime d rt rfl) hsou (fun b hb => absurd hb (hno b))
  · rename_i rt t hs
    rw [hs] at hsou hexa
    have hlt : t < d.nextTask := hsou
    have hno := h.noHit (n := n) (by rw [hs]; rfl)
    split at hd
    · rename_i hany
      obtain ⟨a, ha, hsame⟩ := (any_eq_true _ _).mp hany
      have hsame : d.requestId a = d.requestId t := of_decide_eq_true hsame
      have hpre : d.isCommand a = false → d.requestId a ∈ d.prepared := by
        intro hcom
        have hlate : (d.task a).stage.late = true := by rw [h.tidy.active rt a ha]; rfl
        exact h.tidy.prepared a ((h.staged a).2 hlate hcom)
      rw [interrupt_admitted ha hpre] at hd
      split at hd
      · rename_i d₁ b phase hi
        cases hd
        split at hi
        · cases hi
        cases hi
        have hc : Calm (.stop n) d (d.emit (.runCancelled (.stop n) (d.requestId a))) :=
          emit d (.inl ⟨_, rfl⟩)
        refine h.setStop hc ⟨hlt, h.tidy.lt_of_active ha, hsame, by rintro ⟨⟩, .stop n, ?_⟩ ?_
        · rw [← show d.requestId a = (d.emit _).requestId t from hsame]
          exact mem_append_right _ (mem_singleton_self _)
        intro b hb
        rcases hit_emit hb with hb | hb | hb
        · exact absurd hb (hno b)
        · cases hb
        · cases hb
      rename_i d₁ hi
      cases hd
      split at hi
      · cases hi
        exact h.leaves rt (refl d) ⟨hlt, by rintro ⟨⟩⟩ (fun b hb => absurd hb (hno b))
      · cases hi
    · rename_i hany
      cases hd
      have hoth : ∀ a, (d.runtime rt).active = some a → d.requestId a ≠ d.requestId t := by
        intro a ha hsame
        exact hany (by rw [ha]; simpa using hsame)
      have hc : Calm (.stop n) d (d.requestCancel (.stop n) t) := requestCancel d t
      have hset : Settled (d.requestCancel (.stop n) t) t := settled_requestCancel (hexa hoth)
      refine h.leaves rt hc ⟨hc.onward.nextTask.trans_lt' hlt, fun _ => hset⟩ ?_
      intro b hb
      rcases hit_requestCancel hb with hb | rfl
      · exact absurd hb (hno b)
      · exact ⟨hlt, _, rfl, rfl⟩
  · rename_i rt t a phase hs
    rw [hs] at hsou
    obtain ⟨hlt, halt, hsame, hpha, hcan⟩ := hsou
    have hc : Calm (.stop n) d (d.interruptStep (.stop n) rt a phase).1 := interruptStep d rt a phase
    have hhit : ∀ b, Hit (d.interruptStep (.stop n) rt a phase).1 n b →
        b < d.nextTask ∧ d.requestId b = d.requestId t := by
      intro b hb
      rcases hit_interruptStep hb with hb | ⟨rfl, hact⟩ | rfl
      · obtain ⟨hb', u, hu, hsame'⟩ := h.tidy.hits n b hb
        rw [hs] at hu
        cases hu
        exact ⟨hb', hsame'⟩
      · rw [hs] at hexa
        exact ⟨h.tidy.lt_of_active hact, hexa b hact⟩
      · exact ⟨halt, hsame⟩
    have hcan' := hc.carries.runCancelled hcan
    have hlt' := hc.onward.nextTask.trans_lt' hlt
    split at hd
    · rename_i d₁ next hi
      cases hd
      have hnext := interruptStep_phase (congrArg Prod.snd hi)
      rw [hi] at hc hhit hcan' hlt'
      refine h.setStop hc ⟨hlt', hc.onward.nextTask.trans_lt' halt, ?_, hnext, hcan'⟩ ?_
      · rw [hc.carries.requestId, hc.carries.requestId, hsame]
      · exact fun b hb => ⟨(hhit b hb).1, t, rfl, (hhit b hb).2⟩
    rename_i d₁ hi
    cases hd
    rw [hi] at hc hhit hcan' hlt'
    refine h.leaves rt hc ⟨hlt', fun _ => .inl hcan'⟩ ?_
    exact fun b hb => ⟨(hhit b hb).1, t, rfl, (hhit b hb).2⟩
  · cases hd

theorem failStop (h : Orderly d) (hd : d.failStop n = some d') : Orderly d' := by
  rw [Desk.failStop] at hd
  have hsou := h.tidy.stops n
  split at hd
  · rename_i hs
    cases hd
    exact h.setStop (refl d) trivial (fun b hb => absurd hb (h.noHit (by rw [hs]; rfl) b))
  · rename_i rt t hs
    rw [hs] at hsou
    cases hd
    exact h.leaves rt (refl d) ⟨hsou, by rintro ⟨⟩⟩ (fun b hb => absurd hb (h.noHit (by rw [hs]; rfl) b))
  · rename_i rt t a phase hs
    rw [hs] at hsou
    cases hd
    refine h.leaves rt (refl d) ⟨hsou.1, by rintro ⟨⟩⟩ ?_
    intro b hb
    have hold := h.tidy.hits n b hb
    rw [hs] at hold
    exact hold
  · cases hd

theorem completed (h : Orderly d) (t : TaskId) (outcome : Outcome) (now : Int) :
    Orderly (d.completed t outcome now) := by
  have hrep : Calm (.task 0) d (d.setTask t { d.task t with reported := true }) :=
    setTask d t (d.carries_setTask t rfl rfl id) rfl
  have hc := d.carries_completed t outcome now
  have hsha : ∃ r, d.completed t outcome now =
      { d.setTask t { d.task t with reported := true } with requests := r } := by
    rw [Desk.completed]
    split
    · split
      · exact ⟨_, rfl⟩
      · split
        · exact ⟨_, rfl⟩
        · exact ⟨_, rfl⟩
    · exact ⟨_, rfl⟩
  obtain ⟨r, hr⟩ := hsha
  rw [hr] at hc ⊢
  have hcalm : Calm (.task 0) d { d.setTask t { d.task t with reported := true } with requests := r } :=
    ⟨hc, hrep.stage, fun _ _ => rfl, fun _ => rfl, fun _ => .inl⟩
  exact h.calm hcalm (by rintro _ ⟨⟩)

theorem deskNext {publicRef : Json → Json} {e : DeskEvent} (h : Orderly d) (hf : Faithful d)
    (hexa : StopsExactly d e) (hd : deskNext publicRef d e = some d') : Orderly d' := by
  cases e with
  | chat n body =>
    rw [Collaboration.deskNext] at hd
    split at hd
    · cases hd
    · cases hd; exact h.tables (d.carries_setChat _ _) rfl rfl rfl rfl
  | chatChecked n userId =>
    rw [Collaboration.deskNext] at hd
    split at hd
    · cases hd; exact h.tables (d.carries_setChat _ _) rfl rfl rfl rfl
    · cases hd
  | chatPruned n now =>
    rw [Collaboration.deskNext] at hd
    split at hd
    · cases hd
      split
      · exact h.tables ((d.carries_prune _).trans (carries_setChat _ _ _)) rfl rfl rfl rfl
      · exact h.tables (d.carries_setChat _ _) rfl rfl rfl rfl
    · cases hd
  | chatLooks n =>
    rw [Collaboration.deskNext] at hd
    split at hd
    · cases hd
      exact h.look _ _ _
    · cases hd
  | chatAnswers n checked =>
    rw [Collaboration.deskNext] at hd
    split at hd
    · split at hd
      · cases hd; exact h.tables (d.carries_setChat _ _) rfl rfl rfl rfl
      · cases hd; exact h.tables (d.carries_setChat _ _) rfl rfl rfl rfl
      · cases hd
    · cases hd
  | step t reply =>
    rw [Collaboration.deskNext] at hd
    split at hd
    · rename_i hlt
      exact h.stepTask hlt hd
    · cases hd
  | cancelled t =>
    rw [Collaboration.deskNext] at hd
    split at hd
    · rename_i hlt
      exact h.cancelTask hlt hd
    · cases hd
  | completed t now =>
    rw [Collaboration.deskNext] at hd
    split at hd
    · split at hd
      · cases hd
      · cases hd; exact h.completed _ _ _
    · cases hd
  | prune now => cases hd; exact h.tables (d.carries_prune _) rfl rfl rfl rfl
  | dropRuntime sid =>
    have hc := carries_dropRuntime hd
    rw [Collaboration.deskNext, dropRuntime] at hd
    split at hd
    · split at hd
      · cases hd; exact h.tables hc rfl rfl rfl rfl
      · cases hd
    · cases hd
  | stopRequest n sid requestId =>
    rw [Collaboration.deskNext] at hd
    split at hd
    · cases hd
    rename_i hs
    have hno : ∀ b, ¬ Hit d n b := h.noHit (by rw [hs]; rfl)
    split at hd
    · cases hd; exact h.setStop (refl d) trivial (fun b hb => absurd hb (hno b))
    · cases hd; exact h.setStop (refl d) trivial (fun b hb => absurd hb (hno b))
  | stopStep n => exact h.runStop hf hexa hd
  | stopFails n => exact h.failStop hd

end Orderly

theorem orderly_start : Orderly {} := by
  refine ⟨⟨nofun, nofun, fun t _ => ⟨nofun, rfl⟩, fun _ => trivial, ?_⟩, fun t => ⟨nofun, nofun⟩⟩
  intro n b hb
  rcases hb with hb | hb
  · cases hb
  · cases hb

/-- In every run whose stops meet `StopsExactly`: a request that was reported stopped was never admitted or its
run was cancelled, and a stop interrupts or cancels no turn of another request. -/
theorem reported_stop_stops {publicRef : Json → Json} {d : Desk}
    (hr : Runs.ReachesUnder (deskNext publicRef) StopsExactly {} d) :
    (∀ n t, d.stop n = some (.answered (some t) (some true)) → .admitted t ∉ d.trace ∨ RunCancelled d t) ∧
    ∀ n b, Hit d n b → ∃ t, stopTarget (d.stop n) = some t ∧ d.requestId b = d.requestId t := by
  have hall : Orderly d ∧ Faithful d := by
    refine Runs.invariant_under (I := fun d => Orderly d ∧ Faithful d) (fun d e d' h hexa hd => ?_)
      ⟨orderly_start, by intro k e he; cases he⟩ hr
    refine ⟨h.1.deskNext h.2 hexa hd, ?_⟩
    rcases deskNext_carries hd with hc | ⟨n, s, u, -, -, rfl⟩
    · exact h.2.carries hc
    · exact h.2.look n s u
  obtain ⟨hord, -⟩ := hall
  constructor
  · intro n t hn
    have hsou := hord.tidy.stops n
    rw [hn] at hsou
    rcases hsou.2 rfl with hc | ⟨hno, -⟩
    · exact .inr hc
    · exact .inl hno
  · exact fun n b hb => (hord.tidy.hits n b hb).2

def asks (n : ChatId) (requestId : String) : List DeskEvent :=
  [.chat n (.obj [("session_id", .str "chat"), ("request_id", .str requestId), ("message", .str "Hello")]),
    .chatChecked n (some "user"), .chatPruned n (some 0), .chatLooks n]

def goesOn (t : TaskId) (steps : Nat) : List DeskEvent := List.replicate steps (.step t .ok)

def stops (requestId : String) (steps : Nat) : List DeskEvent :=
  .stopRequest 0 "chat" requestId :: List.replicate steps (.stopStep 0)

/-- The stop was answered with `stopped` for the task. -/
def reports (d : Desk) (t : TaskId) : Bool :=
  match d.stop 0 with
  | some (.answered (some u) (some true)) => t == u
  | _ => false

theorem reports_holds {d : Desk} {t : TaskId} (h : reports d t = true) :
    d.stop 0 = some (.answered (some t) (some true)) := by
  rw [reports] at h
  split at h
  · rename_i u hu
    rw [beq_iff_eq] at h
    rw [h]
    exact hu
  · cases h

def cancelsRun (d : Desk) (t : TaskId) : Bool :=
  d.trace.any (fun e => match e with
    | .runCancelled _ r => r == d.requestId t
    | _ => false)

/-- One request runs, a second one is admitted and waits for the turn lock, and is stopped. -/
theorem waiting_run_not_cancelled : ¬ ∀ d, ReachableDesk id d →
    (∀ n t, d.stop n = some (.answered (some t) (some true)) → .admitted t ∉ d.trace ∨ RunCancelled d t) ∧
    ∀ n b, Hit d n b → ∃ t, stopTarget (d.stop n) = some t ∧ d.requestId b = d.requestId t := by
  intro hall
  have hrun : (Runs.run (deskNext id) {} (asks 0 "first" ++ goesOn 0 9 ++ asks 1 "second" ++ goesOn 1 6 ++
      stops "second" 3)).any (fun d => reports d 1 && decide (.admitted 1 ∈ d.trace) && !cancelsRun d 1) = true := by
    decide +kernel
  obtain ⟨d, hd, htest⟩ := (any_eq_true _ _).mp hrun
  simp only [Bool.and_eq_true, decide_eq_true_eq, Bool.not_eq_true'] at htest
  obtain ⟨⟨hrep, hadm⟩, hnone⟩ := htest
  rcases (hall d ⟨_, hd⟩).1 0 1 (reports_holds hrep) with hno | ⟨actor, hcan⟩
  · exact hno hadm
  have hany : cancelsRun d 1 = true := any_eq_true.mpr ⟨_, hcan, by simp⟩
  rw [hnone] at hany
  cases hany

/-- A test for steps that meet `StopsExactly`: no waiting task is cancelled. -/
def stopsActive (d : Desk) : DeskEvent → Bool
  | .stopStep n =>
    match d.stop n with
    | some (.checking sid _) => (d.runtimes.get? sid).isSome
    | some (.admissionCheck rt t) => (d.runtime rt).active.any (fun a => d.requestId a == d.requestId t)
    | some (.interrupting rt t _ .dispatch) =>
      (d.runtime rt).active.all (fun b => d.requestId b == d.requestId t)
    | _ => true
  | _ => true

theorem stopsExactly_of_active (d : Desk) (e : DeskEvent) (h : stopsActive d e = true) : StopsExactly d e := by
  rw [stopsActive.eq_def] at h
  rw [StopsExactly.eq_def]
  split
  · rename_i n
    dsimp only at h
    split
    · rename_i hs
      rw [hs] at h
      intro e _ _ hnone
      dsimp only at h
      rw [hnone] at h
      cases h
    · rename_i hs
      rw [hs] at h
      intro hoth
      obtain ⟨a, ha, hsame⟩ := (any_eq_true _ _).mp h
      exact absurd (beq_iff_eq.mp hsame) (hoth a ha)
    · rename_i hs
      rw [hs] at h
      intro b hb
      dsimp only at h
      rw [hb] at h
      exact beq_iff_eq.mp h
    · trivial
  · trivial

theorem reported_stop_stops_active : ∃ d, Runs.ReachesUnder (deskNext id) StopsExactly {} d ∧
    d.stop 0 = some (.answered (some 0) (some true)) ∧ (.admitted 0 ∉ d.trace ∨ RunCancelled d 0) := by
  have hall : Runs.all stopsActive (deskNext id) {} (asks 0 "first" ++ goesOn 0 9 ++ stops "first" 6) = true := by
    decide +kernel
  have hrun : (Runs.run (deskNext id) {} (asks 0 "first" ++ goesOn 0 9 ++ stops "first" 6)).any
      (fun d => reports d 0) = true := by
    decide +kernel
  obtain ⟨d, hd, hrep⟩ := (any_eq_true _ _).mp hrun
  have hr : Runs.ReachesUnder (deskNext id) StopsExactly {} d := ⟨_, Runs.meets_of_all stopsExactly_of_active hall, hd⟩
  exact ⟨d, hr, reports_holds hrep, (reported_stop_stops hr).1 0 0 (reports_holds hrep)⟩

end OpenAgent.Gateway.Collaboration
