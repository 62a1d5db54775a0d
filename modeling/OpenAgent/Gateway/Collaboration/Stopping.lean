import OpenAgent.Gateway.Collaboration.RequestIdentity

namespace OpenAgent.Gateway.Collaboration

open Py List Desk Nat

namespace TaskStage

def early : TaskStage → Bool
  | .checking | .opening | .starting _ | .preparing _ | .admissionWait _ | .admissionCheck _ | .admitting _ _ => true
  | _ => false

def late : TaskStage → Bool
  | .interrupting _ _ _ | .lockWait _ | .lockCheck _ | .waitingRun _ | .running _ => true
  | _ => false

end TaskStage

def RunCancelled (d : Desk) (t : TaskId) : Prop := ∃ actor, .runCancelled actor (d.requestId t) ∈ d.trace

def Settled (d : Desk) (t : TaskId) : Prop :=
  RunCancelled d t ∨ (.admitted t ∉ d.trace ∧ ((d.task t).cancelRequested = true ∨ d.isDone t = true))

def StopSound (d : Desk) : Option StopStage → Prop
  | some (.admissionWait _ t) => t < d.nextTask
  | some (.admissionCheck _ t) => t < d.nextTask
  | some (.interrupting _ t a phase) => t < d.nextTask ∧ a < d.nextTask ∧ d.requestId a = d.requestId t ∧
      phase ≠ .context ∧ RunCancelled d t
  | some (.answered (some t) stopped) => t < d.nextTask ∧ (stopped = some true → Settled d t)
  | _ => True

def stopTarget : Option StopStage → Option TaskId
  | some (.interrupting _ t _ _) => some t
  | some (.answered target _) => target
  | _ => none

def Hit (d : Desk) (n : StopId) (b : TaskId) : Prop :=
  .turnCancelled (.stop n) b ∈ d.trace ∨ .taskCancelled (.stop n) b ∈ d.trace

def Exact (d : Desk) (n : StopId) : Prop :=
  ∀ b, Hit d n b → b < d.nextTask ∧ ∃ t, stopTarget (d.stop n) = some t ∧ d.requestId b = d.requestId t

structure Tidy (d : Desk) : Prop where
  prepared : ∀ t, .admitted t ∈ d.trace → d.requestId t ∈ d.prepared
  active : ∀ rt a, (d.runtime rt).active = some a → (d.task a).stage = .running rt
  unborn : ∀ t, d.nextTask ≤ t → .admitted t ∉ d.trace ∧ (d.task t).stage = .checking
  stops : ∀ n, StopSound d (d.stop n)
  hits : ∀ n, Exact d n

def Staged (d : Desk) (t : TaskId) : Prop :=
  (.admitted t ∈ d.trace → (d.task t).stage.early = false) ∧
  ((d.task t).stage.late = true → d.isCommand t = false → .admitted t ∈ d.trace)

structure Calm (actor : Actor) (d d' : Desk) : Prop where
  carries : Carries d d'
  stage : ∀ t, (d'.task t).stage = (d.task t).stage
  stop : ∀ n, actor ≠ .stop n → d'.stop n = d.stop n
  active : ∀ rt, (d'.runtime rt).active = (d.runtime rt).active
  effects : ∀ e ∈ d'.trace, e ∈ d.trace ∨ (∃ r, e = .runCancelled actor r) ∨
    (∃ b, e = .turnCancelled actor b) ∨ ∃ b, e = .taskCancelled actor b

variable {d' : Desk}

variable {d : Desk}

theorem Carries.requestId (h : Carries d d') (t : TaskId) : d'.requestId t = d.requestId t := by
  rw [Desk.requestId, h.submission]
  rfl

theorem Carries.isCommand (h : Carries d d') (t : TaskId) : d'.isCommand t = d.isCommand t := by
  rw [Desk.isCommand, h.submission]
  rfl

theorem Carries.runCancelled (h : Carries d d') {t : TaskId} (hc : RunCancelled d t) :
    RunCancelled d' t := by
  obtain ⟨actor, ha⟩ := hc
  exact ⟨actor, by rw [h.requestId]; exact h.trace _ ha⟩

namespace Calm

variable {actor : Actor} {d d' d'' : Desk}

theorem refl (d : Desk) : Calm actor d d :=
  ⟨Carries.refl d, fun _ => rfl, fun _ _ => rfl, fun _ => rfl, fun _ h => .inl h⟩

theorem trans (h : Calm actor d d') (k : Calm actor d' d'') : Calm actor d d'' where
  carries := h.carries.trans k.carries
  stage := fun t => (k.stage t).trans (h.stage t)
  stop := fun n hn => (k.stop n hn).trans (h.stop n hn)
  active := fun rt => (k.active rt).trans (h.active rt)
  effects := by
    intro e he
    rcases k.effects e he with he | he
    · exact h.effects e he
    · exact .inr he

theorem admitted (h : Calm actor d d') (t : TaskId) : .admitted t ∈ d'.trace ↔ .admitted t ∈ d.trace := by
  constructor
  · intro ht
    rcases h.effects _ ht with ht | ⟨_, he⟩ | ⟨_, he⟩ | ⟨_, he⟩
    · exact ht
    · cases he
    · cases he
    · cases he
  · exact h.carries.trace _

theorem emit (d : Desk) {e : Effect} (he : (∃ r, e = .runCancelled actor r) ∨
    (∃ b, e = .turnCancelled actor b) ∨ ∃ b, e = .taskCancelled actor b) : Calm actor d (d.emit e) where
  carries := d.carries_emit e
  stage := fun _ => rfl
  stop := fun _ _ => rfl
  active := fun _ => rfl
  effects := by
    intro f hf
    rcases mem_append.mp hf with hf | hf
    · exact .inl hf
    · rw [mem_singleton.mp hf]
      exact .inr he

theorem tables (hc : Carries d d') (ht : d'.task = d.task) (hs : d'.stop = d.stop) (hr : d'.runtime = d.runtime)
    (he : d'.trace = d.trace) : Calm actor d d' where
  carries := hc
  stage := fun t => by rw [ht]
  stop := fun n _ => by rw [hs]
  active := fun rt => by rw [hr]
  effects := fun e h => .inl (he ▸ h)

theorem setTask (d : Desk) (t : TaskId) {x : Task} (hc : Carries d (d.setTask t x))
    (hs : x.stage = (d.task t).stage) : Calm actor d (d.setTask t x) where
  carries := hc
  stage := by
    intro u
    by_cases h : u = t
    · subst h
      simpa [Desk.setTask] using hs
    · simp [Desk.setTask, Function.update_of_ne h]
  stop := fun _ _ => rfl
  active := fun _ => rfl
  effects := fun _ => .inl

theorem setRuntime (d : Desk) (rt : RuntimeId) {x : Runtime} (hx : x.active = (d.runtime rt).active) :
    Calm actor d (d.setRuntime rt x) where
  carries := d.carries_setRuntime rt x
  stage := fun _ => rfl
  stop := fun _ _ => rfl
  active := by
    intro r
    by_cases h : r = rt
    · subst h
      simpa [Desk.setRuntime] using hx
    · simp [Desk.setRuntime, Function.update_of_ne h]
  effects := fun _ => .inl

theorem setStop (d : Desk) (n : StopId) (s : StopStage) : Calm (.stop n) d (d.setStop n s) where
  carries := d.carries_setStop n s
  stage := fun _ => rfl
  stop := by
    intro m hm
    have hne : m ≠ n := by
      rintro rfl
      exact hm rfl
    simp [Desk.setStop, Function.update_of_ne hne]
  active := fun _ => rfl
  effects := fun _ => .inl

theorem requestCancel (d : Desk) (t : TaskId) : Calm actor d (d.requestCancel actor t) := by
  rw [Desk.requestCancel]
  split
  · exact refl d
  have hflag : Calm actor d (d.setTask t { d.task t with cancelRequested := true }) :=
    setTask d t (d.carries_setTask t rfl rfl (fun _ => rfl)) rfl
  exact hflag.trans (emit _ (.inr (.inr ⟨t, rfl⟩)))

theorem interrupted (d : Desk) (a : TaskId) : Calm actor d (d.setTask a { d.task a with interrupted := true }) :=
  setTask d a (d.carries_setTask a rfl rfl id) rfl

theorem interrupt (d : Desk) (rt : RuntimeId) (execution identity : Bool) :
    Calm actor d (d.interrupt actor rt execution identity).1 := by
  rw [Desk.interrupt]
  split
  · exact refl d
  split
  · exact refl d
  split
  · split
    · exact refl d
    · exact emit d (.inl ⟨_, rfl⟩)
  · exact interrupted d _

theorem interruptStep (d : Desk) (rt : RuntimeId) (a : TaskId) (phase : Phase) :
    Calm actor d (d.interruptStep actor rt a phase).1 := by
  cases phase with
  | context => exact emit d (.inl ⟨_, rfl⟩)
  | cancelling => exact interrupted d a
  | dispatch =>
    rw [Desk.interruptStep]
    split
    · exact emit d (.inr (.inl ⟨_, rfl⟩))
    · exact refl d
  | turn =>
    rw [Desk.interruptStep]
    split
    · exact requestCancel d a
    · exact refl d

end Calm

/-- What the promises of the stops rest on: nothing that was done or cancelled is admitted later. -/
structure Onward (d d' : Desk) : Prop where
  nextTask : d.nextTask ≤ d'.nextTask
  requestId : ∀ t < d.nextTask, d'.requestId t = d.requestId t
  cancelled : ∀ t < d.nextTask, (d.task t).cancelRequested = true → (d'.task t).cancelRequested = true
  done : ∀ t < d.nextTask, d.isDone t = true → d'.isDone t = true
  trace : ∀ e ∈ d.trace, e ∈ d'.trace
  admitted : ∀ t < d.nextTask, .admitted t ∈ d'.trace → .admitted t ∈ d.trace ∨
    ((d.task t).cancelRequested = false ∧ d.isDone t = false)

namespace Onward

variable {d d' : Desk} {t : TaskId}

theorem runCancelled (h : Onward d d') (ht : t < d.nextTask) (hc : RunCancelled d t) : RunCancelled d' t := by
  obtain ⟨actor, ha⟩ := hc
  refine ⟨actor, ?_⟩
  rw [h.requestId t ht]
  exact h.trace _ ha

theorem settled (h : Onward d d') (ht : t < d.nextTask) (hs : Settled d t) : Settled d' t := by
  rcases hs with hs | ⟨hno, hend⟩
  · exact .inl (h.runCancelled ht hs)
  refine .inr ⟨?_, ?_⟩
  · intro hadm
    rcases h.admitted t ht hadm with hold | ⟨hc, hd⟩
    · exact hno hold
    rcases hend with he | he
    · rw [hc] at he; cases he
    · rw [hd] at he; cases he
  · exact hend.imp (h.cancelled t ht) (h.done t ht)

theorem stopSound (h : Onward d d') {st : Option StopStage} (hs : StopSound d st) : StopSound d' st := by
  match st, hs with
  | none, _ => trivial
  | some (.checking _ _), _ => trivial
  | some (.admissionWait _ _), hs => exact lt_of_lt_of_le hs h.nextTask
  | some (.admissionCheck _ _), hs => exact lt_of_lt_of_le hs h.nextTask
  | some (.interrupting _ u a _), ⟨hu, ha, hsame, hpha, hc⟩ =>
    refine ⟨lt_of_lt_of_le hu h.nextTask, lt_of_lt_of_le ha h.nextTask, ?_, hpha, h.runCancelled hu hc⟩
    rw [h.requestId a ha, h.requestId u hu, hsame]
  | some (.answered none _), _ => trivial
  | some (.answered (some u) _), ⟨hu, hs⟩ =>
    exact ⟨lt_of_lt_of_le hu h.nextTask, fun hst => h.settled hu (hs hst)⟩

end Onward

variable {actor : Actor}

theorem Calm.onward (h : Calm actor d d') : Onward d d' where
  nextTask := h.carries.nextTask.ge
  requestId := fun t _ => h.carries.requestId t
  cancelled := fun t _ => h.carries.cancelled t
  done := by
    intro t _ hd
    rw [isDone, h.stage]
    exact hd
  trace := h.carries.trace
  admitted := fun t _ ha => .inl ((h.admitted t).mp ha)
variable {s : TaskStage}

namespace Tidy

variable {d d' : Desk} {t : TaskId}

theorem lt_of_active (h : Tidy d) {rt : RuntimeId} {a : TaskId} (ha : (d.runtime rt).active = some a) :
    a < d.nextTask := by
  by_contra hge
  have hstage := (h.unborn a (Nat.le_of_not_lt hge)).2
  rw [h.active rt a ha] at hstage
  cases hstage

theorem calm (h : Tidy d) (hc : Calm actor d d')
    (hself : ∀ n, actor = .stop n → StopSound d' (d'.stop n) ∧ Exact d' n) : Tidy d' where
  prepared := by
    intro t ht
    rw [hc.carries.requestId]
    exact hc.carries.prepared _ (h.prepared t ((hc.admitted t).mp ht))
  active := by
    intro rt a ha
    rw [hc.active] at ha
    rw [hc.stage]
    exact h.active rt a ha
  unborn := by
    intro t ht
    rw [hc.carries.nextTask] at ht
    rw [hc.admitted, hc.stage]
    exact h.unborn t ht
  stops := by
    intro n
    by_cases hn : actor = .stop n
    · exact (hself n hn).1
    · rw [hc.stop n hn]
      exact hc.onward.stopSound (h.stops n)
  hits := by
    intro n
    by_cases hn : actor = .stop n
    · exact (hself n hn).2
    intro b hb
    have hold : Hit d n b := by
      rcases hb with hb | hb
      · rcases hc.effects _ hb with hb | ⟨_, he⟩ | ⟨_, he⟩ | ⟨_, he⟩
        · exact .inl hb
        · cases he
        · cases he; exact absurd rfl hn
        · cases he
      rcases hc.effects _ hb with hb | ⟨_, he⟩ | ⟨_, he⟩ | ⟨_, he⟩
      · exact .inr hb
      · cases he
      · cases he
      · cases he; exact absurd rfl hn
    obtain ⟨hlt, u, hu, hsame⟩ := h.hits n b hold
    refine ⟨hc.carries.nextTask.symm ▸ hlt, u, ?_, ?_⟩
    · rw [hc.stop n hn]; exact hu
    · rw [hc.carries.requestId, hc.carries.requestId, hsame]

theorem setStage (h : Tidy d) (hlt : t < d.nextTask) (hdone : d.isDone t = false)
    (hidle : ∀ rt, (d.runtime rt).active ≠ some t) : Tidy (d.setStage t s) := by
  have hstage : ∀ u, u ≠ t → ((d.setStage t s).task u) = d.task u := by
    intro u hu
    simp [Desk.setStage, Desk.setTask, Function.update_of_ne hu]
  have hc := d.carries_setStage t s
  have hon : Onward d (d.setStage t s) := by
    refine ⟨le_refl _, fun u _ => hc.requestId u, fun u _ => hc.cancelled u, ?_, hc.trace, fun u _ => .inl⟩
    intro u _ hu
    have hne : u ≠ t := by
      rintro rfl
      rw [hdone] at hu
      cases hu
    rw [isDone, hstage u hne]
    exact hu
  constructor
  · intro u hu
    rw [hc.requestId]
    exact h.prepared u hu
  · intro rt a ha
    have hne : a ≠ t := by
      rintro rfl
      exact hidle rt ha
    rw [hstage a hne]
    exact h.active rt a ha
  · intro u hu
    have hne : u ≠ t := ne_of_gt (lt_of_lt_of_le hlt hu)
    rw [hstage u hne]
    exact h.unborn u hu
  · exact fun n => hon.stopSound (h.stops n)
  · intro n b hb
    obtain ⟨hb', u, hu, hsame⟩ := h.hits n b hb
    exact ⟨hb', u, hu, by rw [hc.requestId, hc.requestId, hsame]⟩

theorem setRuntime (h : Tidy d) (rt : RuntimeId) {x : Runtime}
    (hx : ∀ a, x.active = some a → (d.task a).stage = .running rt) : Tidy (d.setRuntime rt x) := by
  refine ⟨h.prepared, ?_, h.unborn, h.stops, h.hits⟩
  intro r a ha
  rw [Desk.setRuntime] at ha
  dsimp only at ha
  by_cases hr : r = rt
  · subst hr
    rw [Function.update_self] at ha
    exact hx a ha
  · rw [Function.update_of_ne hr] at ha
    exact h.active r a ha

theorem releaseLock (h : Tidy d) (rt : RuntimeId) : Tidy (d.releaseLock rt) :=
  h.setRuntime rt (h.active rt)

theorem admits (h : Tidy d) (hlt : t < d.nextTask) (hcan : (d.task t).cancelRequested = false)
    (hdone : d.isDone t = false) :
    Tidy { d.emit (.admitted t) with prepared := (d.task t).submission.requestId :: d.prepared } := by
  have hnew : ∀ u, .admitted u ∈ d.trace ++ [Effect.admitted t] → .admitted u ∈ d.trace ∨ u = t := by
    intro u hu
    rcases mem_append.mp hu with hu | hu
    · exact .inl hu
    · cases mem_singleton.mp hu
      exact .inr rfl
  have hon : Onward d { d.emit (.admitted t) with prepared := (d.task t).submission.requestId :: d.prepared } := by
    refine ⟨le_refl _, fun _ _ => rfl, fun _ _ => id, fun _ _ => id, fun _ => mem_append_left _, ?_⟩
    intro u _ hu
    rcases hnew u hu with hu | rfl
    · exact .inl hu
    · exact .inr ⟨hcan, hdone⟩
  constructor
  · intro u hu
    rcases hnew u hu with hu | rfl
    · exact mem_cons_of_mem _ (h.prepared u hu)
    · exact mem_cons_self
  · exact h.active
  · intro u hu
    refine ⟨fun hadm => ?_, (h.unborn u hu).2⟩
    rcases hnew u hadm with hadm | rfl
    · exact (h.unborn u hu).1 hadm
    · exact lt_irrefl _ (lt_of_lt_of_le hlt hu)
  · exact fun n => hon.stopSound (h.stops n)
  · intro n b hb
    refine h.hits n b ?_
    rcases hb with hb | hb
    · rcases mem_append.mp hb with hb | hb
      · exact .inl hb
      · cases mem_singleton.mp hb
    rcases mem_append.mp hb with hb | hb
    · exact .inr hb
    · cases mem_singleton.mp hb

end Tidy

theorem TaskStage.early_of_late (h : s.late = true) : s.early = false := by
  cases s with
  | checking => cases h
  | opening => cases h
  | starting _ => cases h
  | preparing _ => cases h
  | admissionWait _ => cases h
  | admissionCheck _ => cases h
  | admitting _ _ => cases h
  | _ => rfl

theorem TaskStage.done_of_isDone (h : s.isDone = true) : ∃ outcome, s = .done outcome := by
  cases s with
  | done outcome => exact ⟨outcome, rfl⟩
  | _ => cases h

structure Orderly (d : Desk) : Prop where
  tidy : Tidy d
  staged : ∀ t, Staged d t

theorem Staged.calm {t : TaskId} (h : Staged d t) (hc : Calm actor d d') : Staged d' t := by
  rw [Staged, hc.admitted, hc.stage, hc.carries.isCommand]
  exact h

namespace Orderly

variable {d d' : Desk} {t : TaskId}

theorem calm (h : Orderly d) (hc : Calm actor d d')
    (hself : ∀ n, actor = .stop n → StopSound d' (d'.stop n) ∧ Exact d' n) : Orderly d' :=
  ⟨h.tidy.calm hc hself, fun t => (h.staged t).calm hc⟩

theorem tables (h : Orderly d) (hc : Carries d d') (ht : d'.task = d.task) (hs : d'.stop = d.stop)
    (hr : d'.runtime = d.runtime) (he : d'.trace = d.trace) : Orderly d' := by
  have hcalm : Calm (.task 0) d d' := Calm.tables hc ht hs hr he
  exact h.calm hcalm (by rintro _ ⟨⟩)

theorem restage (h : Tidy d) (hoth : ∀ u, u ≠ t → Staged d u) (hlt : t < d.nextTask)
    (hdone : d.isDone t = false) (hidle : ∀ rt, (d.runtime rt).active ≠ some t)
    (hear : .admitted t ∈ d.trace → s.early = false)
    (hlate : s.late = true → d.isCommand t = false → .admitted t ∈ d.trace) : Orderly (d.setStage t s) := by
  refine ⟨h.setStage hlt hdone hidle, ?_⟩
  intro u
  by_cases hu : u = t
  · subst hu
    have hself : ((d.setStage u s).task u).stage = s := by
      simp [setStage, setTask]
    rw [Staged, hself, (d.carries_setStage u s).isCommand]
    exact ⟨hear, hlate⟩
  have hothe : (d.setStage t s).task u = d.task u := by
    simp [setStage, setTask, Function.update_of_ne hu]
  rw [Staged, hothe, (d.carries_setStage t s).isCommand]
  exact hoth u hu

variable (h : Orderly d)

include h

theorem idle (hrun : ∀ rt, (d.task t).stage ≠ .running rt) (rt : RuntimeId) : (d.runtime rt).active ≠ some t := by
  intro ha
  exact hrun rt (h.tidy.active rt t ha)

variable {d₁ : Desk}

theorem enters (hc : Calm (.task t) d d₁) (hlt : t < d.nextTask)
    (hdone : d.isDone t = false) (hrun : ∀ rt, (d.task t).stage ≠ .running rt)
    (hear : (d.task t).stage.early = false → s.early = false)
    (hlate : s.late = true → d.isCommand t = true ∨ (d.task t).stage.late = true) :
    Orderly (d₁.setStage t s) := by
  have h₁ : Orderly d₁ := h.calm hc (by rintro _ ⟨⟩)
  refine restage h₁.tidy (fun u _ => h₁.staged u) ?_ ?_ ?_ ?_ ?_
  · rw [hc.carries.nextTask]
    exact hlt
  · rw [isDone, hc.stage]
    exact hdone
  · intro rt
    rw [hc.active]
    exact h.idle hrun rt
  · intro hadm
    exact hear ((h.staged t).1 ((hc.admitted t).mp hadm))
  · intro hs hcomm
    rw [hc.carries.isCommand] at hcomm
    rw [hc.admitted]
    rcases hlate hs with hcom | hl
    · rw [hcomm] at hcom
      cases hcom
    · exact (h.staged t).2 hl hcomm

theorem finish (hlt : t < d.nextTask) (hdone : d.isDone t = false) (outcome : Outcome) :
    Orderly (d.finish t outcome) := by
  by_cases hrun : ∃ rt, (d.task t).stage = .running rt
  · obtain ⟨rt, hrun⟩ := hrun
    have hun : d.unwind t = (d.setRuntime rt { d.runtime rt with active := none }).releaseLock rt := by
      rw [Desk.unwind, hrun]
    rw [Desk.finish, hun]
    have htidy : Tidy (d.setRuntime rt { d.runtime rt with active := none }) :=
      h.tidy.setRuntime rt (by rintro _ ⟨⟩)
    refine restage (htidy.releaseLock rt) (fun u _ => h.staged u) hlt hdone ?_ (fun _ => rfl) (by rintro ⟨⟩)
    intro r ha
    have hstage : (d.task t).stage = .running r := (htidy.releaseLock rt).active r t ha
    have hr : r = rt := by
      rw [hrun] at hstage
      cases hstage
      rfl
    subst hr
    simp [releaseLock, setRuntime] at ha
  have hrun : ∀ rt, (d.task t).stage ≠ .running rt := fun rt hr => hrun ⟨rt, hr⟩
  have hun : Calm (.task t) d (d.unwind t) := by
    rw [unwind]
    split
    · exact Calm.tables (d.carries_rest rfl rfl rfl (fun _ => id) (fun _ => id)) rfl rfl rfl rfl
    · exact Calm.setRuntime d _ rfl
    · exact Calm.setRuntime d _ rfl
    · exact Calm.setRuntime d _ rfl
    · exact Calm.setRuntime d _ rfl
    · exact Calm.setRuntime d _ rfl
    · rename_i rt hr
      exact absurd hr (hrun rt)
    · exact Calm.refl d
  exact h.enters hun hlt hdone hrun (fun _ => rfl) (by rintro ⟨⟩)

variable {rt : RuntimeId}

theorem admits {s : TaskStage} {steers : Bool}
    (hstage : (d.task t).stage = .admitting rt steers) (hlt : t < d.nextTask)
    (hcan : (d.task t).cancelRequested = false)
    (hc : Calm (.task t) { d.emit (.admitted t) with
      prepared := (d.task t).submission.requestId :: d.prepared } d₁) (hs : s.late = true) :
    Orderly (d₁.setStage t s) := by
  have hdone : d.isDone t = false := by rw [isDone, hstage]; rfl
  have htidy := (h.tidy.admits hlt hcan hdone).calm hc (by rintro _ ⟨⟩)
  have hidle : ∀ r, (d.runtime r).active ≠ some t := h.idle (fun r hr => by rw [hstage] at hr; cases hr)
  refine restage htidy ?_ ?_ ?_ ?_ ?_ ?_
  · intro u hu
    have hoth : Staged { d.emit (.admitted t) with
        prepared := (d.task t).submission.requestId :: d.prepared } u := by
      refine ⟨fun hadm => (h.staged u).1 ?_, fun hl hcom => mem_append_left _ ((h.staged u).2 hl hcom)⟩
      rcases mem_append.mp hadm with hadm | hadm
      · exact hadm
      · cases mem_singleton.mp hadm
        exact absurd rfl hu
    exact hoth.calm hc
  · rw [hc.carries.nextTask]
    exact hlt
  · rw [isDone, hc.stage]
    exact hdone
  · intro r
    rw [hc.active]
    exact hidle r
  · exact fun _ => TaskStage.early_of_late hs
  · intro _ _
    exact hc.carries.trace _ (mem_append_right _ (mem_singleton_self _))

theorem begins (hstage : (d.task t).stage = .lockCheck rt) (hlt : t < d.nextTask) :
    Orderly ((d.setRuntime rt { d.runtime rt with active := some t }).setStage t (.running rt)) := by
  have hdone : d.isDone t = false := by rw [isDone, hstage]; rfl
  have hrun : ∀ r, (d.task t).stage ≠ .running r := fun r hr => by rw [hstage] at hr; cases hr
  have hent : Orderly (d.setStage t (.running rt)) :=
    h.enters (Calm.refl d) hlt hdone hrun (fun _ => rfl) (fun _ => .inr (by rw [hstage]; rfl))
  refine ⟨hent.tidy.setRuntime rt ?_, hent.staged⟩
  intro a ha
  cases ha
  simp [setStage, setTask]

theorem after (hc : Calm (.task t) d d₁) (hlt : t < d.nextTask)
    (hdone : d.isDone t = false) (hrun : ∀ rt, (d.task t).stage ≠ .running rt) (rt : RuntimeId)
    (p : Option (TaskId × Phase)) (hlate : d.isCommand t = true ∨ (d.task t).stage.late = true) :
    Orderly (d₁.afterInterrupt t rt p) := by
  cases p with
  | some p => exact h.enters hc hlt hdone hrun (fun _ => rfl) (fun _ => hlate)
  | none =>
    have hrel : Calm (.task t) d (d₁.releaseAdmission rt) := hc.trans (Calm.setRuntime d₁ rt rfl)
    exact h.enters (s := .lockWait rt) hrel hlt hdone hrun (fun _ => rfl) (fun _ => hlate)

theorem admits_after {steers : Bool}
    (hstage : (d.task t).stage = .admitting rt steers) (hlt : t < d.nextTask)
    (hcan : (d.task t).cancelRequested = false)
    (hc : Calm (.task t) { d.emit (.admitted t) with
      prepared := (d.task t).submission.requestId :: d.prepared } d₁) (p : Option (TaskId × Phase)) :
    Orderly (d₁.afterInterrupt t rt p) := by
  cases p with
  | some p => exact h.admits hstage hlt hcan hc rfl
  | none => exact h.admits hstage hlt hcan (hc.trans (Calm.setRuntime d₁ rt rfl)) rfl

theorem runTask (hlt : t < d.nextTask) (hcan : (d.task t).cancelRequested = false)
    (hd : d.runTask t = some d') : Orderly d' := by
  have hdone : d.isDone t = false := by
    by_contra hne
    obtain ⟨outcome, hs⟩ := TaskStage.done_of_isDone (Bool.not_eq_false _ ▸ hne)
    rw [Desk.runTask, hs] at hd
    cases hd
  by_cases hrun : ∃ rt, (d.task t).stage = .running rt
  · obtain ⟨rt, hrun⟩ := hrun
    rw [Desk.runTask, hrun] at hd
    cases hd
    exact h.finish hlt hdone _
  have hrun : ∀ rt, (d.task t).stage ≠ .running rt := fun rt hr => hrun ⟨rt, hr⟩
  have hmove : ∀ {d₁ : Desk} {s : TaskStage}, Calm (.task t) d d₁ →
      ((d.task t).stage.early = true ∧ s.early = true ∨ (d.task t).stage.late = true ∧ s.late = true) →
      Orderly (d₁.setStage t s) := by
    intro d₁ s hc hs
    refine h.enters hc hlt hdone hrun ?_ ?_
    · intro hno
      rcases hs with ⟨he, -⟩ | ⟨-, hl⟩
      · rw [he] at hno; cases hno
      · exact TaskStage.early_of_late hl
    intro hl
    rcases hs with ⟨-, he⟩ | ⟨hlate, -⟩
    · rw [TaskStage.early_of_late hl] at he; cases he
    · exact .inr hlate
  rw [Desk.runTask] at hd
  split at hd
  · rename_i hs
    cases hd
    exact hmove (Calm.refl d) (.inl ⟨by rw [hs]; rfl, rfl⟩)
  · rename_i hs
    split at hd
    · cases hd
    split at hd
    · cases hd
      exact hmove (Calm.refl d) (.inl ⟨by rw [hs]; rfl, rfl⟩)
    cases hd
    have hnew : Orderly (d.setRuntime d.nextRuntime {}) := ⟨h.tidy.setRuntime _ (by rintro _ ⟨⟩), h.staged⟩
    have htab : Calm (.task t) (d.setRuntime d.nextRuntime {}) { d.setRuntime d.nextRuntime {} with
        nextRuntime := d.nextRuntime + 1
        registry := some t
        runtimes := d.runtimes.set (d.task t).submission.sid d.nextRuntime } :=
      Calm.tables (carries_rest _ rfl rfl rfl (fun _ => id) (fun _ => id)) rfl rfl rfl rfl
    exact hnew.enters (s := .starting d.nextRuntime) htab hlt hdone hrun
      (fun he => absurd he (by rw [show ((d.setRuntime d.nextRuntime {}).task t).stage = _ from hs]; rintro ⟨⟩))
      (by rintro ⟨⟩)
  · rename_i rt hs
    cases hd
    have hfree : Calm (.task t) d { d with registry := none } :=
      Calm.tables (d.carries_rest rfl rfl rfl (fun _ => id) (fun _ => id)) rfl rfl rfl rfl
    exact hmove (s := .preparing rt) hfree (.inl ⟨by rw [hs]; rfl, rfl⟩)
  · rename_i hs
    cases hd
    exact hmove (Calm.refl d) (.inl ⟨by rw [hs]; rfl, rfl⟩)
  · rename_i rt hs
    split at hd
    · cases hd
    · cases hd
      exact hmove (Calm.setRuntime d rt rfl) (.inl ⟨by rw [hs]; rfl, rfl⟩)
  · rename_i rt hs
    split at hd
    · cases hd
      exact hmove (Calm.refl d) (.inl ⟨by rw [hs]; rfl, rfl⟩)
    · rename_i hcom
      cases hd
      exact h.after (Calm.interrupt d _ _ _) hlt hdone hrun _ _ (.inl (by rw [isCommand, hcom]; rfl))
    rename_i hcom
    cases hd
    exact h.after (Calm.refl d) hlt hdone hrun _ _ (.inl (by rw [isCommand, hcom]; rfl))
  · rename_i rt steers hs
    split at hd
    · cases hd
      exact h.admits_after hs hlt hcan (Calm.interrupt _ _ _ _) _
    · cases hd
      exact h.admits_after hs hlt hcan (Calm.refl _) _
  · rename_i hs
    cases hd
    exact h.after (Calm.interruptStep d _ _ _) hlt hdone hrun _ _ (.inr (by rw [hs]; rfl))
  · rename_i rt hs
    split at hd
    · cases hd
    · cases hd
      exact hmove (Calm.setRuntime d rt rfl) (.inr ⟨by rw [hs]; rfl, rfl⟩)
  · rename_i rt hs
    cases hd
    exact h.begins hs hlt
  · cases hd
    exact h.finish hlt hdone _
  · cases hd
    exact h.finish hlt hdone _
  · cases hd

theorem stepTask (hlt : t < d.nextTask) {reply : Reply} (hd : d.stepTask t reply = some d') : Orderly d' := by
  rw [stepTask.eq_def] at hd
  split at hd
  · cases hd
  rename_i hcan
  rw [Bool.not_eq_true] at hcan
  split at hd
  · exact h.runTask hlt hcan hd
  · split at hd
    · rename_i hrai
      cases hd
      refine h.finish hlt ?_ _
      by_contra hne
      obtain ⟨o, hs⟩ := TaskStage.done_of_isDone (Bool.not_eq_false _ ▸ hne)
      rw [hs] at hrai
      cases hrai
    · cases hd
  split at hd
  · rename_i rt hs
    have hdone : d.isDone t = false := by rw [isDone, hs]; rfl
    split at hd
    · cases hd
      exact h.finish hlt hdone _
    cases hd
    exact h.enters (s := .waitingRun rt) (Calm.refl d) hlt hdone (fun r hr => by rw [hs] at hr; cases hr)
      (fun _ => rfl) (fun _ => .inr (by rw [hs]; rfl))
  · cases hd

theorem cancelTask (hlt : t < d.nextTask) (hd : d.cancelTask t = some d') : Orderly d' := by
  rw [Desk.cancelTask] at hd
  split at hd
  · cases hd
  rename_i hcond
  have hdone : d.isDone t = false := by
    by_contra hne
    rw [Bool.not_eq_false] at hne
    exact hcond (by rw [hne, Bool.or_true])
  split at hd
  · cases hd
    exact h.finish hlt hdone _
  · cases hd
    exact h.finish hlt hdone _

theorem starts (hnext : d'.nextTask = d.nextTask + 1)
    (htask : ∀ t, t ≠ d.nextTask → d'.task t = d.task t) (hnew : (d'.task d.nextTask).stage = .checking)
    (hrun : d'.runtime = d.runtime) (hstop : d'.stop = d.stop) (hpre : d'.prepared = d.prepared)
    (htra : d'.trace = d.trace ++ [.ran d.nextTask]) : Orderly d' := by
  have hadm : ∀ t, .admitted t ∈ d'.trace ↔ .admitted t ∈ d.trace := by
    intro t
    rw [htra, mem_append, mem_singleton]
    exact or_iff_left (by rintro ⟨⟩)
  have hhit : ∀ n b, Hit d' n b ↔ Hit d n b := by
    intro n b
    rw [Hit, Hit, htra, mem_append, mem_append, mem_singleton, mem_singleton]
    exact or_congr (or_iff_left (by rintro ⟨⟩)) (or_iff_left (by rintro ⟨⟩))
  have hunb : .admitted d.nextTask ∉ d.trace := (h.tidy.unborn _ (le_refl _)).1
  have hreq : ∀ t, t < d.nextTask → d'.requestId t = d.requestId t := by
    intro t ht
    rw [requestId, htask t (Nat.ne_of_lt ht)]
    rfl
  have hon : Onward d d' := by
    refine ⟨?_, hreq, ?_, ?_, ?_, fun t _ ht => .inl ((hadm t).mp ht)⟩
    · rw [hnext]
      exact le_succ _
    · intro t ht hc
      rw [htask t (Nat.ne_of_lt ht)]
      exact hc
    · intro t ht hc
      rw [isDone, htask t (Nat.ne_of_lt ht)]
      exact hc
    · rw [htra]
      exact fun _ => mem_append_left _
  refine ⟨⟨?_, ?_, ?_, ?_, ?_⟩, ?_⟩
  · intro t ht
    have hold := (hadm t).mp ht
    have hne : t ≠ d.nextTask := fun he => hunb (he ▸ hold)
    rw [requestId, htask t hne, hpre]
    exact h.tidy.prepared t hold
  · intro rt a ha
    rw [hrun] at ha
    rw [htask a (Nat.ne_of_lt (h.tidy.lt_of_active ha))]
    exact h.tidy.active rt a ha
  · intro t ht
    rw [hnext] at ht
    rw [hadm, htask t (ne_of_gt ht)]
    exact h.tidy.unborn t (le_of_succ_le ht)
  · intro n
    rw [hstop]
    exact hon.stopSound (h.tidy.stops n)
  · intro n b hb
    obtain ⟨hlt, t, ht, hsame⟩ := h.tidy.hits n b ((hhit n b).mp hb)
    have hlt' : t < d.nextTask := by
      have hsou := h.tidy.stops n
      revert ht hsou
      generalize d.stop n = st
      intro ht hsou
      match st, ht, hsou with
      | some (.interrupting _ _ _ _), ht, hsou => cases ht; exact hsou.1
      | some (.answered (some _) _), ht, hsou => cases ht; exact hsou.1
    refine ⟨?_, t, ?_, ?_⟩
    · rw [hnext]
      exact lt_succ_of_lt hlt
    · rw [hstop]
      exact ht
    · rw [hreq b hlt, hreq t hlt', hsame]
  · intro t
    by_cases ht : t = d.nextTask
    · subst ht
      rw [Staged, hadm, hnew]
      exact ⟨fun hold => absurd hold hunb, by rintro ⟨⟩⟩
    · rw [Staged, hadm, isCommand, htask t ht]
      exact h.staged t

theorem look (n : ChatId) (s : Submission) (u : String) : Orderly (d.look n s u) := by
  rcases look_cases d n s u with ⟨e, -, hl⟩ | ⟨-, hl⟩ | ⟨-, hl⟩
  · rw [hl]
    exact h.tables (d.carries_setChat _ _) rfl rfl rfl rfl
  · rw [hl]
    exact h.tables (d.carries_setChat _ _) rfl rfl rfl rfl
  rw [hl]
  refine h.starts rfl ?_ ?_ rfl rfl rfl rfl
  · intro t ht
    simp [setChat, emit, setTask, Function.update_of_ne ht]
  · simp [setChat, emit, setTask]

end Orderly

end OpenAgent.Gateway.Collaboration
