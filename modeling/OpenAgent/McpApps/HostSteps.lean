import OpenAgent.McpApps.HostCustody
import OpenAgent.McpApps.HostViews

namespace OpenAgent.McpApps.Host

open Py Laws List Option Service

variable {client : Client}

theorem noteActs_closes {v : Nat} {reply : Reply} {auth : Auth} :
    ∀ a ∈ noteActs client v reply auth, ∀ n, a.closes n = false := by
  intro a ha n
  rcases noteActs_of ha with ⟨owner, rfl⟩ | rfl
  · rfl
  · rfl

structure Kept (o : Options) (s : Service) : Prop where
  custody : Custody o s
  standing : Standing s

namespace Kept

variable {o : Options} {s t : Service}

theorem setStage (h : Kept o s) (r : Nat) (handler : Handler) {stage : Stage}
    (hstage : ∀ result, stage ≠ .publish .passed result) : Kept o (s.setStage r handler stage) :=
  ⟨h.custody.setStage r handler stage, h.standing.setStage r handler hstage⟩

variable {view : View}

theorem setView (h : Kept o s) {v : Nat} {view' : View} (hv : s.views.get? v = some view)
    (hok : view'.Ok s.trace v) (hlis : view'.listed = view.listed) (hses : view'.session = view.session) :
    Kept o (s.setView v view') :=
  ⟨h.custody.setView hv hlis hses, h.standing.setView hv hok⟩

theorem retire (h : Kept o s) (v : Nat) : Kept o (s.retire v) := ⟨h.custody.retire v, h.standing.retire v⟩

theorem retireAll (h : Kept o s) (vs : List Nat) : Kept o (s.retireAll vs) :=
  ⟨h.custody.retireAll vs, h.standing.retireAll vs⟩

theorem same (h : Kept o s) (hope : t.opens = s.opens) (hcou : t.openCount = s.openCount) (hview : t.views = s.views)
    (hret : t.retiring = s.retiring) (hses : t.sessions = s.sessions) (hclo : s.closed = true → t.closed = true)
    (htra : t.trace = s.trace) (hvie : t.viewCount = s.viewCount) (hhan : t.handlers = s.handlers) :
    Kept o t :=
  ⟨h.custody.frame (htra.trans (append_nil _).symm) (fun _ ha => by cases ha) hope hcou
    (fun _ _ => by rw [hview]) hret hses hclo, h.standing.same htra hview hvie hhan⟩

theorem noted (h : Kept o s) (hcli : ∀ r, client ≠ .handler r) {v : Nat} {view' : View}
    (hv : s.views.get? v = some view) {auth auth' : Auth} {reply : Reply}
    (hnext : auth.next (s.live v) view.owner reply = some auth') (hok : view'.Ok s.trace v)
    (hlis : view'.listed = view.listed) (hses : view'.session = view.session) :
    Kept o ((s.setView v view').note client v reply auth') := by
  refine ⟨?_, h.standing.noted hcli hv hnext hok⟩
  rw [note_eq]
  exact (h.custody.setView hv hlis hses).frame rfl noteActs_closes rfl rfl (fun _ _ => rfl) rfl rfl id

theorem answers (h : Kept o s) {reply : Reply} (ht : s.answers client reply = some t) : Kept o t := by
  unfold Service.answers at ht
  cases client with
  | handler r =>
    dsimp only at ht
    split at ht
    swap
    · cases ht
    rename_i handler hr
    rcases hv : s.views.get? handler.view with _ | view
    · rw [hv] at ht
      cases ht
    rcases hauth : handler.stage.auth with _ | auth
    · rw [hv, hauth] at ht
      cases ht
    rw [hv, hauth] at ht
    obtain ⟨auth', hnext, rfl⟩ := map_eq_some_iff.mp ht
    refine ⟨?_, h.standing.noted_handler hv hnext⟩
    rw [note_eq]
    exact h.custody.frame (s := s) rfl noteActs_closes rfl rfl (fun _ _ => rfl) rfl rfl id
  | once v id =>
    dsimp only at ht
    split at ht
    swap
    · cases ht
    rename_i view hv
    split at ht
    swap
    · cases ht
    rename_i once hid
    rcases hstage : once.stage with _ | auth | _ | _ | _
    all_goals rw [hstage] at ht
    all_goals try cases ht
    obtain ⟨auth', hnext, rfl⟩ := map_eq_some_iff.mp ht
    refine h.noted (fun r hf => by cases hf) hv hnext ?_ rfl rfl
    exact (h.standing.views v view hv).withOnce hid (fun _ => by simp [Once.busy, hstage])
      fun _ => by simp [Once.fresh, hstage]
  | policy v =>
    dsimp only at ht
    split at ht
    swap
    · cases ht
    rename_i view hv
    split at ht
    swap
    · cases ht
    rename_i task htask
    split at ht
    swap
    · cases ht
    rename_i auth hauth
    obtain ⟨auth', hnext, rfl⟩ := map_eq_some_iff.mp ht
    refine h.noted (fun r hf => by cases hf) hv hnext ?_ rfl rfl
    refine (h.standing.views v view hv).withTask htask ?_
    unfold PolicyTask.settled
    cases hstage : task.stage with
    | settled ok =>
      rw [hstage] at hauth
      cases hauth
    | _ => rfl
  | verify v =>
    dsimp only at ht
    split at ht
    swap
    · cases ht
    rename_i view hv
    split at ht
    swap
    · cases ht
    rename_i task htask
    split at ht
    swap
    · cases ht
    rename_i auth hver
    obtain ⟨auth', hnext, rfl⟩ := map_eq_some_iff.mp ht
    refine h.noted (fun r hf => by cases hf) hv hnext ?_ rfl rfl
    exact (h.standing.views v view hv).withTask htask rfl

section Policy

variable {v : Nat} {view : View} {task : PolicyTask}

theorem setTask (h : Kept o s) (hv : s.views.get? v = some view) (htask : view.task = some task)
    (hset : task.settled = false) {stage : PolicyStage}
    (hstage : ({ task with stage := stage } : PolicyTask).settled = false) : Kept o (s.setTask v view task stage) :=
  h.setView hv ((h.standing.views v view hv).withTask htask (hstage.trans hset.symm)) rfl rfl

theorem dismiss (h : Kept o s) (hv : s.views.get? v = some view) (htask : view.task = some task)
    (hset : task.settled = false) : Kept o (s.dismiss v view task) :=
  (h.setTask hv htask hset rfl).retire v

theorem decided (h : Kept o s) (hv : s.views.get? v = some view) (htask : view.task = some task)
    (hset : task.settled = false) {policy : Policy} {info decision : Json}
    (hcon : policy.Contained info decision) :
    Kept o ((s.settle v { view with policy := policy } task true).act (.decided v policy info decision)) := by
  have hok := h.standing.views v view hv
  have hund : ∀ p i d, .decided v p i d ∉ s.trace := by
    refine hok.undecided fun other ho => ?_
    cases htask.symm.trans ho
    exact hset
  constructor
  · refine Custody.act ?_ fun _ => rfl
    exact h.custody.setView hv rfl rfl
  refine h.standing.about hv ⟨hcon, hund⟩ ?_ ?_ ?_ fun _ => rfl
  · have hsett := hok.settle htask hset
      (show PolicyTask.settled { task with stage := .settled true } = true from rfl) policy
    refine ⟨hsett.once, hsett.task, fun id hid => ?_, fun hall => ?_, ?_, mem_append_left _ hok.viewed⟩
    · rw [mem_append, mem_singleton, not_or]
      exact ⟨hsett.unoperated id hid, fun hf => by cases hf⟩
    · cases hall _ rfl
    · rw [mem_append, mem_singleton, or_iff_left fun hf => by cases hf]
      exact hsett.listed
  · intro w other hwv hoth
    refine Standing.ok_other hoth ⟨fun hf => (by cases hf), fun _ hf => (by cases hf), fun _ _ _ hf => ?_⟩
    cases hf
    exact hwv rfl
  intro w hwv
  refine ⟨fun _ hf => (by cases hf), fun hf => (by cases hf), fun _ hf => (by cases hf), fun _ _ _ hf => ?_⟩
  cases hf
  exact hwv rfl

theorem resumePolicy (h : Kept o s) (hv : s.views.get? v = some view) (htask : view.task = some task)
    (ht : s.resumePolicy o v view task = some t) : Kept o t := by
  have hset : task.settled = false := by
    unfold PolicyTask.settled
    cases hstage : task.stage with
    | settled ok =>
      unfold Service.resumePolicy at ht
      rw [hstage] at ht
      cases ht
    | _ => rfl
  have hkeep : ∀ stage : PolicyStage, ({ task with stage := stage } : PolicyTask).settled = false →
      Kept o (s.setTask v view task stage) := fun _ hstage => h.setTask hv htask hset hstage
  have hdis : Kept o (s.dismiss v view task) := h.dismiss hv htask hset
  unfold Service.resumePolicy at ht
  rcases hstage : task.stage with auth | _ | request | ⟨auth, request, decision⟩ | ⟨request, decision⟩ | _ | ok
  all_goals rw [hstage] at ht
  · cases auth with
    | owner | session | current => cases ht
    | passed =>
      simp only [Option.some.injEq] at ht
      rw [← ht]
      split
      · exact hdis
      · exact hkeep _ rfl
    | failed =>
      cases ht
      exact hdis
  · dsimp only at ht
    rcases happ : approvableResourcePolicy o.platform view.resource with _ | request
    · rw [happ, Option.some.injEq] at ht
      rw [← ht]
      exact hdis
    rw [happ] at ht
    dsimp only at ht
    split at ht
    · rw [Option.some.injEq] at ht
      rw [← ht]
      split
      · exact hkeep _ rfl
      · exact hdis
    rw [Option.some.injEq] at ht
    rw [← ht]
    exact hkeep _ rfl
  · cases ht
  · cases auth with
    | owner | session | current => cases ht
    | passed =>
      simp only [Option.some.injEq] at ht
      rw [← ht]
      split
      · exact hdis
      · exact hkeep _ rfl
    | failed =>
      cases ht
      exact hdis
  · dsimp only at ht
    rcases hcla : clampPolicy view.resource request (orEmpty decision) with _ | policy
    · rw [hcla] at ht
      cases ht
      exact hdis
    rw [hcla] at ht
    cases ht
    exact h.decided hv htask hset (clampPolicy_contained hcla)
  · cases ht
    exact h.setView hv ((h.standing.views v view hv).settle htask hset rfl view.policy) rfl rfl
  · cases ht

theorem approves (h : Kept o s) {answer : Option Json} (ht : s.approves v answer = some t) : Kept o t := by
  unfold Service.approves at ht
  split at ht
  swap
  · cases ht
  rename_i view hv
  split at ht
  swap
  · cases ht
  rename_i task htask
  rcases hstage : task.stage with _ | _ | request | _ | _ | _ | _
  all_goals rw [hstage] at ht
  all_goals try cases ht
  have hset : task.settled = false := by simp [PolicyTask.settled, hstage]
  cases answer with
  | none =>
    cases ht
    exact h.dismiss hv htask hset
  | some decision =>
    cases ht
    exact h.setTask hv htask hset rfl

theorem verifies (h : Kept o s) (ht : s.verifies v = some t) : Kept o t := by
  unfold Service.verifies at ht
  split at ht
  swap
  · cases ht
  rename_i view hv
  split at ht
  swap
  · cases ht
  rename_i task htask
  split at ht
  · cases ht
  · cases ht
    exact h.setView hv ((h.standing.views v view hv).withTask htask rfl) rfl rfl

theorem resumeVerify (h : Kept o s) (hv : s.views.get? v = some view) (htask : view.task = some task)
    (ht : s.resumeVerify v view task = some t) : Kept o t := by
  have hok := h.standing.views v view hv
  unfold Service.resumeVerify at ht
  split at ht
  · cases ht
    exact h.setView hv (hok.withTask htask rfl) rfl rfl
  · cases ht
    exact h.setView hv (hok.withTask htask rfl) rfl rfl
  · cases ht

end Policy

section Once

variable {v : Nat} {view : View} {id : String} {once : Once}

theorem setOnce (h : Kept o s) (hv : s.views.get? v = some view) (hid : view.requests.get? id = some once)
    {stage : OnceStage} (hbusy : ({ once with stage := stage } : Once).busy = true → once.busy = true)
    (hfre : ({ once with stage := stage } : Once).fresh = true → once.fresh = true) :
    Kept o (s.setOnce v view id once stage) :=
  h.setView hv ((h.standing.views v view hv).withOnce hid hbusy hfre) rfl rfl

theorem operated (h : Kept o s) (hv : s.views.get? v = some view) (hid : view.requests.get? id = some once)
    (hfre : once.fresh = true) (hbusy : once.busy = true) (hlive : s.live v = true) :
    Kept o ((s.setOnce v view id once .running).act (.operates v id)) := by
  have hok := h.standing.views v view hv
  have huno : .operates v id ∉ s.trace := by
    refine hok.unoperated id fun other ho => ?_
    cases hid.symm.trans ho
    exact hfre
  constructor
  · refine Custody.act ?_ fun _ => rfl
    exact h.custody.setView hv rfl rfl
  refine h.standing.about hv ⟨hok.listed.mp (live_listed hv hlive), huno⟩ ?_ ?_ ?_ fun _ => rfl
  · have hrun : View.Ok s.trace v { view with requests := view.requests.set id { once with stage := .running } } :=
      hok.withOnce hid (fun _ => hbusy) fun hf => by cases hf
    refine ⟨hrun.once, hrun.task, fun other hall => ?_, fun hall p i d => ?_, ?_, mem_append_left _ hok.viewed⟩
    · rw [mem_append, mem_singleton, not_or]
      refine ⟨hrun.unoperated other hall, fun hf => ?_⟩
      cases hf
      cases hall { once with stage := .running } (Dict.get?_set_self _ _ _)
    · rw [mem_append, mem_singleton, not_or]
      exact ⟨hrun.undecided hall p i d, fun hf => by cases hf⟩
    · rw [mem_append, mem_singleton, or_iff_left fun hf => by cases hf]
      exact hrun.listed
  · intro w other hwv hoth
    refine Standing.ok_other hoth ⟨fun hf => (by cases hf), fun _ hf => ?_, fun _ _ _ hf => by cases hf⟩
    cases hf
    exact hwv rfl
  intro w hwv
  refine ⟨fun _ hf => (by cases hf), fun hf => (by cases hf), fun _ hf => ?_, fun _ _ _ hf => by cases hf⟩
  cases hf
  exact hwv rfl

theorem resumeOnce (h : Kept o s) (hv : s.views.get? v = some view) (hid : view.requests.get? id = some once)
    (ht : s.resumeOnce v view id once = some t) : Kept o t := by
  unfold Service.resumeOnce at ht
  rcases hstage : once.stage with _ | auth | _ | _ | _
  all_goals rw [hstage] at ht
  all_goals try cases ht
  have hbusy : once.busy = true := by simp [Once.busy, hstage]
  have hfre : once.fresh = true := by simp [Once.fresh, hstage]
  have hset : Kept o (s.setOnce v view id once (.settling none)) :=
    h.setOnce hv hid (fun _ => hbusy) fun _ => hfre
  cases auth with
  | owner | session | current => cases ht
  | passed =>
    by_cases hlive : s.live v = true
    · rw [if_pos hlive, Option.some.injEq] at ht
      rw [← ht]
      exact h.operated hv hid hfre hbusy hlive
    rw [if_neg hlive, Option.some.injEq] at ht
    rw [← ht]
    exact hset
  | failed =>
    cases ht
    exact hset

theorem starts (h : Kept o s) (ht : s.starts v id = some t) : Kept o t := by
  unfold Service.starts at ht
  split at ht
  swap
  · cases ht
  rename_i view hv
  split at ht
  swap
  · cases ht
  rename_i once hid
  rcases hstage : once.stage with _ | _ | _ | _ | _
  all_goals rw [hstage] at ht
  all_goals cases ht
  exact h.setOnce hv hid (fun _ => by simp [Once.busy, hstage]) fun _ => by simp [Once.fresh, hstage]

theorem operates (h : Kept o s) {outcome : Option Json} (ht : s.operates v id outcome = some t) : Kept o t := by
  unfold Service.operates at ht
  split at ht
  swap
  · cases ht
  rename_i view hv
  split at ht
  swap
  · cases ht
  rename_i once hid
  rcases hstage : once.stage with _ | _ | _ | _ | _
  all_goals rw [hstage] at ht
  all_goals cases ht
  exact h.setOnce hv hid (fun _ => by simp [Once.busy, hstage]) fun hf => by cases hf

theorem finishes (h : Kept o s) (ht : s.finishes v id = some t) : Kept o t := by
  unfold Service.finishes at ht
  split at ht
  swap
  · cases ht
  rename_i view hv
  split at ht
  swap
  · cases ht
  rename_i once hid
  rcases hstage : once.stage with _ | _ | _ | _ | _
  all_goals rw [hstage] at ht
  all_goals cases ht
  exact h.setView hv ((h.standing.views v view hv).release hid (by simp [Once.busy, hstage]) rfl rfl) rfl rfl

end Once

section Handlers

variable {r : Nat} {handler : Handler}

theorem publish_ne {v : Nat} {value result : Json} : Stage.publish (s.authorize v) value ≠ .publish .passed result := by
  intro hf
  injection hf with hp
  exact authorize_ne_passed s v hp

variable (h : Kept o s)

include h

theorem publish (result : Json) : Kept o (s.publish r handler result) :=
  h.setStage r handler fun _ => publish_ne

theorem done : Kept o (s.setStage r handler .done) := h.setStage r handler fun _ hf => by cases hf

theorem resourcePolicy (hv : s.views.get? handler.view = some view) : Kept o (s.resourcePolicy r handler view) := by
  unfold Service.resourcePolicy
  rcases htask : view.task with _ | task
  · rcases hfree : view.interactive with _ | token
    · refine setStage ?_ r handler fun _ hf => by cases hf
      exact h.setView hv ((h.standing.views _ view hv).begin htask hfree _) rfl rfl
    · exact h.done
  · exact h.setStage r handler fun _ hf => by cases hf

theorem once (hv : s.views.get? handler.view = some view) (input : Input) : Kept o (s.once o r handler view input) := by
  unfold Service.once
  rcases hid : view.requests.get? input.id with _ | previous
  · dsimp only
    by_cases hfull : (decide (2048 ≤ view.requests.size) || view.interactive.isSome) = true
    · rw [if_pos hfull]
      exact h.done
    rw [if_neg hfull]
    have hfree : view.interactive = none := by
      rw [Bool.or_eq_true, not_or] at hfull
      simpa using hfull.2
    refine setStage ?_ r handler fun _ hf => by cases hf
    exact h.setView hv ((h.standing.views _ view hv).enter hid hfree _) rfl rfl
  refine h.setStage r handler fun _ hf => ?_
  split at hf
  · cases hf
  · cases hf

theorem dispatch (hv : s.views.get? handler.view = some view) (input : Input) :
    Kept o (s.dispatch o r handler view input) := by
  unfold Service.dispatch
  split
  · exact h.done
  split
  · split
    · exact h.once hv input
    · exact h.done
  split
  · split
    · exact h.once hv input
    · exact h.done
  · exact h.setStage r handler fun _ hf => by cases hf

theorem admitted (hv : s.views.get? handler.view = some view) : Kept o (s.admitted r handler view) := by
  unfold Service.admitted
  split
  · exact h.resourcePolicy hv
  · exact (h.setStage r handler fun _ hf => by cases hf).retire _
  · exact h.setStage r handler fun _ hf => by cases hf
  · exact h.done

theorem responds (hr : s.handlers.get? r = some handler) {result : Json}
    (hstage : handler.stage = .publish .passed result) :
    Kept o ((s.setStage r handler .done).act (.response r handler.view)) := by
  have hdone : Kept o (s.setStage r handler .done) := h.done
  have hlast := h.standing.published r handler result hr hstage
  refine ⟨hdone.custody.act fun _ => rfl, ?_⟩
  refine hdone.standing.frame (t := (s.setStage r handler .done).act (.response r handler.view)) rfl ?_
    (lawful_concat.mpr ⟨h.standing.lawful, hlast⟩) rfl rfl fun q other value hq hs => ?_
  · intro a ha
    rw [mem_singleton.mp ha]
    rfl
  have hget : (s.handlers.set r { handler with stage := .done }).get? q = some other := hq
  rw [Dict.get?_set] at hget
  by_cases hqr : q = r
  · rw [if_pos hqr, Option.some.injEq] at hget
    rw [← hget] at hs
    cases hs
  rw [if_neg hqr] at hget
  have hoth : last (.handler q) (s.trace ++ [.response r handler.view]) = last (.handler q) s.trace := by
    refine last_append fun a ha => ?_
    rw [mem_singleton.mp ha]
    exact decide_eq_false fun hf => hqr (by cases hf; rfl)
  exact hoth.trans (h.standing.published q other value hget hs)

theorem resumeHandler (hr : s.handlers.get? r = some handler)
    (ht : s.resumeHandler o r handler = some t) : Kept o t := by
  unfold Service.resumeHandler at ht
  split at ht
  · rename_i view _ hv
    cases ht
    exact h.admitted hv
  · rename_i view _ hv
    split at ht
    · split at ht
      · cases ht
        split
        · exact h.publish _
        · exact h.done
      · cases ht
    · cases ht
  · rename_i input view _ hv
    cases ht
    exact h.dispatch hv input
  · split at ht
    · split at ht
      · cases ht
        exact h.publish _
      · cases ht
        exact h.done
      · cases ht
    · cases ht
  · rename_i result hstage
    cases ht
    exact h.responds hr hstage
  all_goals cases ht
  all_goals exact h.done

theorem requests (route : Route) (v : Nat) (sameOrigin : Bool) : Kept o (s.requests route v sameOrigin) := by
  refine ⟨h.custody.frame (s := s) (append_nil _).symm (fun _ ha => by cases ha) rfl rfl (fun _ _ => rfl) rfl rfl id, ?_⟩
  refine h.standing.frame (s := s) (append_nil _).symm (fun _ ha => by cases ha) h.standing.lawful rfl rfl ?_
  intro q other result hq hs
  have hget : (s.handlers.set s.handlerCount ⟨route, v, sameOrigin, .admission (s.authorize v)⟩).get? q = some other := hq
  rw [Dict.get?_set] at hget
  split at hget
  · rw [Option.some.injEq] at hget
    rw [← hget] at hs
    cases hs
  · exact h.standing.published q other result hget hs

theorem body {value : Option Json} (ht : s.body r value = some t) : Kept o t := by
  unfold Service.body at ht
  split at ht
  swap
  · cases ht
  rename_i handler hr
  split at ht
  · split at ht
    · cases ht
      exact h.setStage r handler fun _ hf => by cases hf
    · cases ht
      exact h.done
  · cases ht

theorem settles {answer : Option Json} (ht : s.settles r answer = some t) : Kept o t := by
  unfold Service.settles at ht
  split at ht
  swap
  · cases ht
  rename_i handler hr
  split at ht
  · split at ht
    · cases ht
      exact h.publish _
    · cases ht
      exact h.done
  · cases ht

theorem hangs (ht : s.hangs r = some t) : Kept o t := by
  unfold Service.hangs at ht
  split at ht
  swap
  · cases ht
  rename_i handler hr
  split at ht
  · cases ht
  · cases ht
    exact h.retire _
  · cases ht
    exact h

end Handlers

theorem release_fields (s : Service) (k : Nat) (call : Open) :
    (s.release k call).trace = s.trace ∧ (s.release k call).views = s.views ∧
      (s.release k call).viewCount = s.viewCount ∧ (s.release k call).handlers = s.handlers := by
  unfold release
  split
  · exact ⟨rfl, rfl, rfl, rfl⟩
  · exact ⟨rfl, rfl, rfl, rfl⟩

theorem fails_standing (h : Standing s) (k : Nat) (call : Open) : Standing (s.fails k call) := by
  unfold fails
  obtain ⟨retiring, heq⟩ := cleanup_eq s call
  rw [heq]
  obtain ⟨htra, hvie, hcou, hhan⟩ := release_fields { s with retiring := retiring } k
    { call with stage := .ended false, cleaned := call.cleaned || call.session.isSome }
  exact h.same htra hvie hcou hhan

theorem newView_eq {owner : Owner} {reference : Json} {session : Session}
    (h : s.newView o owner reference session = some view) :
    view.owner = owner ∧ view.listed = true ∧ view.task = none ∧ view.requests = Dict.empty := by
  unfold newView at h
  split at h
  · split at h
    · split at h
      · cases h
        exact ⟨rfl, rfl, rfl, rfl⟩
      · cases h
    · cases h
  · cases h

theorem place_standing (h : Standing s) (k : Nat) (call : Open) (owner : Owner) : Standing (s.place o k call owner) := by
  unfold place
  rcases hview : call.session.bind (s.newView o owner call.reference) with _ | view
  · exact fails_standing h k call
  obtain ⟨session, -, hnew⟩ := bind_eq_some_iff.mp hview
  obtain ⟨hown, hlis, htask, hreq⟩ := newView_eq hnew
  obtain ⟨hnone, hvie, hret, hope, hdec⟩ := h.fresh s.viewCount le_rfl
  obtain ⟨htra, hviews, hcou, hhan⟩ := release_fields
    { (s.setView s.viewCount view).act (.viewed s.viewCount owner) with viewCount := s.viewCount + 1 } k
    { call with stage := .ended true }
  refine Standing.same ?_ htra hviews hcou hhan
  refine ⟨lawful_concat.mpr ⟨h.lawful, hvie⟩, fun w other hw => ?_, fun w hw => ?_, fun q other result hq hs => ?_⟩
  · have hget : (s.views.set s.viewCount view).get? w = some other := hw
    show other.Ok (s.trace ++ [.viewed s.viewCount owner]) w
    rw [Dict.get?_set] at hget
    by_cases hwv : w = s.viewCount
    · rw [if_pos hwv, Option.some.injEq] at hget
      subst hget
      rw [hwv]
      refine ⟨fun id once hid => ?_, fun task ht => ?_, fun id _ => ?_, fun _ p i d => ?_, ?_, ?_⟩
      · rw [hreq] at hid
        cases hid
      · cases htask.symm.trans ht
      · rw [mem_append, mem_singleton, not_or]
        exact ⟨hope id, fun hf => by cases hf⟩
      · rw [mem_append, mem_singleton, not_or]
        exact ⟨hdec p i d, fun hf => by cases hf⟩
      · rw [mem_append, mem_singleton, not_or]
        exact iff_of_true hlis ⟨hret, fun hf => by cases hf⟩
      · rw [hown]
        exact mem_append_right _ (mem_singleton_self _)
    rw [if_neg hwv] at hget
    exact Standing.ok_other (h.views w other hget)
      ⟨fun hf => (by cases hf), fun _ hf => (by cases hf), fun _ _ _ hf => by cases hf⟩
  · have hlt : s.viewCount + 1 ≤ w := hw
    obtain ⟨hnone', hvie', hret', hope', hdec'⟩ := h.fresh w (by omega)
    have hne : w ≠ s.viewCount := by omega
    show (s.views.set s.viewCount view).get? w = none ∧ (∀ owner', .viewed w owner' ∉ s.trace ++ [.viewed s.viewCount owner]) ∧
      .retired w ∉ s.trace ++ [.viewed s.viewCount owner] ∧ (∀ id, .operates w id ∉ s.trace ++ [.viewed s.viewCount owner]) ∧
        ∀ p i d, .decided w p i d ∉ s.trace ++ [.viewed s.viewCount owner]
    simp only [mem_append, mem_singleton, not_or]
    refine ⟨(Dict.get?_set_of_ne _ _ hne).trans hnone', fun owner' => ⟨hvie' owner', fun hf => ?_⟩,
      ⟨hret', fun hf => by cases hf⟩, fun id => ⟨hope' id, fun hf => by cases hf⟩,
      fun p i d => ⟨hdec' p i d, fun hf => by cases hf⟩⟩
    cases hf
    exact hne rfl
  · have hlast : last (.handler q) (s.trace ++ [.viewed s.viewCount owner]) = last (.handler q) s.trace := by
      refine last_append fun a ha => ?_
      rw [mem_singleton.mp ha]
      rfl
    exact hlast.trans (h.published q other result hq hs)

variable {k : Nat}

theorem continues (h : Kept o s) (ht : s.continues o k = some t) : Kept o t := by
  refine ⟨h.custody.continues (h.standing.fresh s.viewCount le_rfl).1 ht, ?_⟩
  unfold Service.continues at ht
  split at ht
  swap
  · cases ht
  rename_i call hk
  have hfai := fails_standing h.standing k call
  split at ht
  · cases ht
  split at ht
  · cases ht
    exact hfai
  split at ht
  · split at ht
    · cases ht
      exact h.standing.same rfl rfl rfl rfl
    · cases ht
      exact hfai
  · cases ht
    exact h.standing.same rfl rfl rfl rfl
  · split at ht
    · cases ht
      exact place_standing h.standing k call _
    · cases ht
      exact hfai
  · cases ht
    exact hfai

theorem ownerAnswers (h : Kept o s) {answer : Option Owner} (ht : s.ownerAnswers k answer = some t) :
    Kept o t := by
  refine ⟨h.custody.ownerAnswers ht, ?_⟩
  unfold Service.ownerAnswers at ht
  split at ht
  · split at ht
    · cases ht
      exact h.standing.same rfl rfl rfl rfl
    · cases ht
  · cases ht

theorem callsOpen (h : Kept o s) (ht : s.callsOpen k = some t) : Kept o t := by
  refine ⟨h.custody.callsOpen ht, ?_⟩
  unfold Service.callsOpen at ht
  split at ht
  · split at ht
    · cases ht
      exact h.standing.same rfl rfl rfl rfl
    · cases ht
  · cases ht

theorem receives_standing (h : Standing s) (k : Nat) (call : Open) : Standing (s.receives k call) := by
  unfold receives
  split
  · obtain ⟨retiring, heq⟩ := cleanup_eq s call
    rw [heq]
    exact h.same rfl rfl rfl rfl
  · exact h.same rfl rfl rfl rfl

variable (h : Kept o s)

include h

theorem sessionAnswers {answer : Option Json} (ht : s.sessionAnswers k answer = some t) : Kept o t := by
  refine ⟨h.custody.sessionAnswers ht, ?_⟩
  unfold Service.sessionAnswers at ht
  split at ht
  · split at ht
    · split at ht
      · cases ht
        refine receives_standing ?_ k _
        exact h.standing.same rfl rfl rfl rfl
      · cases ht
        exact receives_standing h.standing k _
    · cases ht
      exact h.standing.same rfl rfl rfl rfl
    · cases ht
  · cases ht

theorem untracks (ht : s.untracks k = some t) : Kept o t := by
  refine ⟨h.custody.untracks ht, ?_⟩
  unfold Service.untracks at ht
  split at ht
  · split at ht
    · cases ht
      obtain ⟨htra, hvie, hcou, hhan⟩ := release_fields s k _
      exact h.standing.same htra hvie hcou hhan
    · cases ht
  · cases ht

theorem opening (reference : Json) : Kept o (s.opening o reference) := by
  refine ⟨h.custody.opening reference, ?_⟩
  unfold Service.opening
  dsimp only
  have hret := h.standing.retireAll
    ((s.views.entries.filter fun e => e.2.listed && decide (e.2.expires ≤ s.now)).map Prod.fst)
  split
  · exact hret
  · exact hret.same rfl rfl rfl rfl

theorem revokeViews (predicate : Json → Bool) : Kept o (s.revokeViews predicate) :=
  retireAll (s := s.abortOpens predicate) ⟨h.custody.abortOpens predicate, h.standing.same rfl rfl rfl rfl⟩ _

theorem shutdown : Kept o s.shutdown :=
  revokeViews (s := { s with closed := true }) (h.same rfl rfl rfl rfl rfl (fun _ => rfl) rfl rfl rfl) _

theorem closeView (v : Nat) : Kept o (s.closeView v) := by
  unfold Service.closeView
  split
  · split
    · exact h.same rfl rfl rfl rfl rfl id rfl rfl rfl
    · exact h
  · exact h

theorem closeAnswers {c : Nat} {answer : Option Owner} (ht : s.closeAnswers c answer = some t) : Kept o t := by
  have hera : Kept o { s with closers := s.closers.erase c } := h.same rfl rfl rfl rfl rfl id rfl rfl rfl
  unfold Service.closeAnswers at ht
  split at ht
  · dsimp only at ht
    split at ht
    · cases ht
      split
      · exact hera.retire _
      · exact hera
    · cases ht
      exact hera
  · cases ht

theorem closes {n : Nat} (ht : s.closes n = some t) : Kept o t := by
  obtain ⟨hcus, hunc⟩ := h.custody.closes ht
  refine ⟨hcus, ?_⟩
  unfold Service.closes at ht
  split at ht
  · cases ht
    refine h.standing.frame (s := s) rfl ?_ (lawful_concat.mpr ⟨h.standing.lawful, hunc⟩) rfl
      rfl fun q other result hq hs => ?_
    · intro a ha
      rw [mem_singleton.mp ha]
      rfl
    have hlast : last (.handler q) (s.trace ++ [.closed n]) = last (.handler q) s.trace := by
      refine last_append fun a ha => ?_
      rw [mem_singleton.mp ha]
      rfl
    exact hlast.trans (h.standing.published q other result hq hs)
  · cases ht

theorem resumes (ht : s.resumes o client = some t) : Kept o t := by
  unfold Service.resumes at ht
  cases client with
  | handler r =>
    dsimp only at ht
    rcases hr : s.handlers.get? r with _ | handler
    · rw [hr] at ht
      cases ht
    · rw [hr] at ht
      exact h.resumeHandler hr ht
  | once v id =>
    dsimp only at ht
    split at ht
    swap
    · cases ht
    rename_i view hv
    rcases hid : view.requests.get? id with _ | once
    · rw [hid] at ht
      cases ht
    · rw [hid] at ht
      exact h.resumeOnce hv hid ht
  | policy v =>
    dsimp only at ht
    split at ht
    swap
    · cases ht
    rename_i view hv
    rcases htask : view.task with _ | task
    · rw [htask] at ht
      cases ht
    · rw [htask] at ht
      exact h.resumePolicy hv htask ht
  | verify v =>
    dsimp only at ht
    split at ht
    swap
    · cases ht
    rename_i view hv
    rcases htask : view.task with _ | task
    · rw [htask] at ht
      cases ht
    · rw [htask] at ht
      exact h.resumeVerify hv htask ht

theorem next {e : Event} (ht : s.next o e = some t) : Kept o t := by
  cases e with
  | opening reference =>
    cases ht
    exact h.opening reference
  | revokeViews predicate =>
    cases ht
    exact h.revokeViews predicate
  | closeView v =>
    cases ht
    exact h.closeView v
  | shutdown =>
    cases ht
    exact h.shutdown
  | requests route v sameOrigin =>
    cases ht
    exact h.requests route v sameOrigin
  | ticks time =>
    cases ht
    exact h.same rfl rfl rfl rfl rfl id rfl rfl rfl
  | expires v =>
    cases ht
    exact h.retire v
  | body r value => exact h.body ht
  | hangs r => exact h.hangs ht
  | verifies v => exact h.verifies ht
  | ownerAnswers k answer => exact h.ownerAnswers ht
  | sessionAnswers k answer => exact h.sessionAnswers ht
  | closeAnswers c answer => exact h.closeAnswers ht
  | answers client reply => exact h.answers ht
  | approves v answer => exact h.approves ht
  | operates v id outcome => exact h.operates ht
  | settles r answer => exact h.settles ht
  | callsOpen k => exact h.callsOpen ht
  | untracks k => exact h.untracks ht
  | continues k => exact h.continues ht
  | starts v id => exact h.starts ht
  | finishes v id => exact h.finishes ht
  | resumes client => exact h.resumes ht
  | closes n => exact h.closes ht

end Kept

end OpenAgent.McpApps.Host
