import OpenAgent.McpApps.SessionLaws

namespace OpenAgent.McpApps

open Py Laws List Option Act Task

theorem tame_abort : Tame fun _ task => task.abort := by
  intro key task
  rcases task with ⟨method, params, aborted, stage⟩
  refine ⟨fun operation hg => ?_, fun hu => ?_, fun _ => rfl, fun hd => ?_, rfl⟩
  · rcases stage with (_ | _ | _ | _) | _ | _ | ⟨_ | _ | _ | _, _⟩ | _
    all_goals exact hg
  · rcases stage with _ | _ | _ | _ | _
    all_goals exact hu
  · rcases stage with _ | _ | _ | _ | _
    all_goals exact hd

theorem tame_abortRecheck : Tame fun _ task => task.abortRecheck := by
  intro key task
  rcases task with ⟨method, params, aborted, stage⟩
  cases stage with
  | recheck auth failure => exact ⟨fun _ hg => (by cases hg), fun hu => (by cases hu), id, id, rfl⟩
  | _ => exact ⟨fun _ hg => hg, id, id, id, rfl⟩

theorem Tame.comp {f g : Json → Task → Task} (hf : Tame f) (hg : Tame g) : Tame fun key task => f key (g key task) := by
  intro key task
  obtain ⟨hfg, hfu, hfa, hfd, hfm⟩ := hf key (g key task)
  obtain ⟨hgg, hgu, hga, hgd, hgm⟩ := hg key task
  exact ⟨fun operation h => hgg operation (hfg operation h), fun h => hgu (hfu h), fun h => hfa (hga h),
    fun h => hgd (hfd h), hfm.trans hgm⟩

theorem tame_abort_if (p : Json → Bool) : Tame fun key task => if p key then task.abort else task := by
  intro key task
  by_cases hp : p key = true
  · simp only [hp, if_true]
    exact tame_abort key task
  · simp only [hp]
    exact tame_id key task

variable {s : Session}

namespace Session

theorem abort_standing (h : Standing s) (p : Json → Bool) :
    Standing { s with pending := s.pending.mapEntries fun key task => if p key then task.abort else task } := by
  have hget : ∀ key, ({ s with
      pending := s.pending.mapEntries fun key task => if p key then task.abort else task } : Session).pending.get? key =
        (s.pending.get? key).map fun task => if p key then task.abort else task :=
    fun key => Dict.get?_mapEntries _ _ _
  refine ⟨?_, ?_, ?_⟩
  · refine h.phase.frame (append_nil s.trace).symm (fun _ ha => by cases ha) Iff.rfl rfl ?_
    intro ha key task hk
    rw [hget] at hk
    obtain ⟨old, hold, rfl⟩ := map_eq_some_iff.mp hk
    exact (tame_abort_if p key old).2.2.1 (h.phase.aborted ha key old hold)
  · exact h.counted.frame (append_nil s.trace).symm (fun _ ha => by cases ha) (tame_abort_if p) hget rfl
  · exact h.notices.frame (append_nil s.trace).symm (fun _ ha => by cases ha) (.inl rfl) rfl rfl rfl rfl rfl
      (.inl rfl) id

theorem abortPending_standing (h : Standing s) : Standing s.abortPending :=
  abort_standing h fun _ => true

theorem revoke_keeps (h : Standing s) (cause : Cause) :
    Keeps s (s.revoke cause) (s.aborted = true ∨ cause ≠ .cancelled) := by
  unfold revoke
  by_cases hclo : s.state = .closed
  · rw [if_pos hclo]
    exact h.refl.congr (iff_of_true trivial (.inl (aborted_of_closed hclo)))
  rw [if_neg hclo]
  have hget : ∀ key, ((s.abortSession).abortPending).pending.get? key =
      (s.pending.get? key).map fun task => (task.abortRecheck).abort := by
    intro key
    show ((s.pending.mapEntries fun _ task => task.abortRecheck).mapEntries fun _ task => task.abort).get? key = _
    rw [Dict.get?_mapEntries, Dict.get?_mapEntries, Option.map_map]
    rfl
  refine Keeps.congr (Standing.acts (a := .closed (if s.state = .closing then .disposed else cause)) ?_ rfl) ?_
  · refine ⟨⟨?_, ?_, ?_⟩, ?_, ?_⟩
    · exact iff_of_true rfl ⟨_, mem_append_right _ (mem_singleton.mpr rfl)⟩
    · exact iff_of_true (aborted_of_closed rfl) (.inl ⟨_, mem_append_right _ (mem_singleton.mpr rfl)⟩)
    · intro _ key task hk
      obtain ⟨old, hold, rfl⟩ := map_eq_some_iff.mp ((hget key).symm.trans hk)
      rfl
    · refine h.counted.frame rfl ?_ (tame_abort.comp tame_abortRecheck) hget rfl
      intro a ha
      rw [mem_singleton.mp ha]
      rfl
    · refine h.notices.frame rfl ?_ (.inr rfl) rfl rfl rfl rfl rfl (.inr rfl) fun _ => rfl
      intro a ha
      rw [mem_singleton.mp ha]
      rfl
  show (if s.state = .closing then Cause.disposed else cause) ≠ .cancelled ↔ _
  by_cases hclos : s.state = .closing
  · rw [if_pos hclos]
    exact iff_of_true (by decide) (.inl (by simp [aborted, hclos]))
  · rw [if_neg hclos]
    simp [aborted, hclos, hclo]

theorem revoke_keeps_of (h : Standing s) {cause : Cause} (hc : cause ≠ .cancelled) : Keeps s (s.revoke cause) True :=
  (revoke_keeps h cause).congr (iff_of_true (.inr hc) trivial)

theorem revoke_closed (s : Session) (cause : Cause) : (s.revoke cause).state = .closed := by
  unfold revoke
  by_cases hclo : s.state = .closed
  · rw [if_pos hclo]
    exact hclo
  · rw [if_neg hclo]

theorem revoke_pending (s : Session) (cause : Cause) (key : Json) :
    ((s.revoke cause).pending.get? key).isSome = (s.pending.get? key).isSome := by
  unfold revoke
  by_cases hclo : s.state = .closed
  · rw [if_pos hclo]
  rw [if_neg hclo]
  show (((s.pending.mapEntries fun _ task => task.abortRecheck).mapEntries fun _ task => task.abort).get? key).isSome
    = _
  rw [Dict.get?_mapEntries, Dict.get?_mapEntries, isSome_map, isSome_map]

end Session

structure Ends (key : Json) (a : Act) : Prop where
  counted : ∀ k, [a].countP (Act.requests k) = 0 ∧
    [a].countP (Act.answers k) + [a].countP (Act.drops k) = if k = key then 1 else 0
  dispatched : ∀ k name, a ≠ .dispatched k name
  goesOn : a.goesOn = true
  unsent : a.unsent = true

variable {key : Json}

theorem ends_of_settles {a : Act} (h : (∃ code message, a = .error key code message) ∨
    (∃ method value, a = .result key method value) ∨ a = .dropped key) : Ends key a := by
  rcases h with ⟨_, _, rfl⟩ | ⟨_, _, rfl⟩ | rfl
  all_goals
    refine ⟨fun k => ⟨rfl, ?_⟩, fun _ _ h => (by cases h), rfl, rfl⟩
    by_cases hk : k = key
    · simp [answers, drops, hk]
    · simp [answers, drops, hk, Ne.symm hk]

theorem ends_error (code : Int) (message : String) : Ends key (.error key code message) :=
  ends_of_settles (.inl ⟨_, _, rfl⟩)

theorem ends_result (method : String) (value : Json) : Ends key (.result key method value) :=
  ends_of_settles (.inr (.inl ⟨_, _, rfl⟩))

theorem ends_dropped : Ends key (.dropped key) := ends_of_settles (.inr (.inr rfl))

theorem Counted.finish (h : Counted s) (hk : (s.pending.get? key).isSome) {a : Act}
    (ha : Ends key a) : Counted (s.finish key a) := by
  have hget : ∀ k, (s.finish key a).pending.get? k = if k = key then none else s.pending.get? k :=
    fun k => Dict.get?_erase _ _ _
  have hsome : ∀ k task, (s.finish key a).pending.get? k = some task → s.pending.get? k = some task := by
    intro k task hs
    rw [hget] at hs
    by_cases hkk : k = key
    · rw [if_pos hkk] at hs
      cases hs
    · rwa [if_neg hkk] at hs
  have hdis : ∀ k name, .dispatched k name ∈ (s.finish key a).trace → .dispatched k name ∈ s.trace := by
    intro k name hm
    rcases mem_append.mp hm with hm | hm
    · exact hm
    · exact absurd (mem_singleton.mp hm).symm (ha.dispatched k name)
  refine ⟨?_, ?_, ?_, ?_, ?_, fun k task ht => h.methods k task (hsome k task ht)⟩
  · intro k
    obtain ⟨hreq, hends⟩ := ha.counted k
    have hcou := h.counts k
    show (s.trace ++ [a]).countP _ = (s.trace ++ [a]).countP _ + (s.trace ++ [a]).countP _ + _
    rw [countP_append, countP_append, countP_append, hreq, hget]
    by_cases hkk : k = key
    · subst hkk
      rw [if_pos rfl] at hends ⊢
      rw [if_pos hk] at hcou
      rw [if_neg (by simp)]
      omega
    · rw [if_neg hkk] at hends ⊢
      omega
  · intro k hs
    obtain ⟨task, ht⟩ := isSome_iff_exists.mp hs
    exact h.seen k (by rw [hsome k task ht]; rfl)
  · exact fun k name hm => h.dispatched k name (hdis k name hm)
  · exact fun k task ht hu name hm => h.undispatched k task (hsome k task ht) hu name (hdis k name hm)
  · exact fun k task operation ht hg => mem_append_left _ (h.granted k task operation (hsome k task ht) hg)

namespace Session

theorem finish_keeps (h : Standing s) (hk : (s.pending.get? key).isSome) {a : Act}
    (ha : Ends key a) : Keeps s (s.finish key a) (law s.trace a) := by
  refine Standing.acts ⟨?_, h.counted.finish hk ha, ?_⟩ rfl
  · refine h.phase.frame (t := s.finish key a) rfl ?_ Iff.rfl rfl ?_
    · intro b hb
      rw [mem_singleton.mp hb]
      exact ha.goesOn
    · intro habo k task ht
      have hget : (s.finish key a).pending.get? k = if k = key then none else s.pending.get? k :=
        Dict.get?_erase _ _ _
      rw [hget] at ht
      split at ht
      · cases ht
      · exact h.phase.aborted habo k task ht
  refine h.notices.frame (t := s.finish key a) rfl ?_ (.inl rfl) rfl rfl rfl rfl rfl (.inl rfl) id
  intro b hb
  rw [mem_singleton.mp hb]
  exact ha.unsent

theorem unanswered (h : Counted s) (hk : (s.pending.get? key).isSome) :
    s.trace.countP (Act.answers key) < s.trace.countP (Act.requests key) := by
  have hcou := h.counts key
  rw [if_pos hk] at hcou
  omega

theorem replyFailure_keeps (h : Standing s) (hk : (s.pending.get? key).isSome)
    (failure : Failure) : Keeps s (s.replyFailure key failure) True := by
  unfold replyFailure
  by_cases hclo : s.state = .closed
  · rw [if_pos hclo]
    refine (finish_keeps h hk ends_dropped).congr (iff_of_true ?_ trivial)
    exact h.phase.ended.mp (aborted_of_closed hclo)
  rw [if_neg hclo]
  refine (finish_keeps h hk (ends_error _ _)).congr (iff_of_true ?_ trivial)
  exact ⟨h.phase.not_closed hclo, unanswered h.counted hk⟩

theorem giveUp_keeps (h : Standing s) (hk : (s.pending.get? key).isSome) (aborted : Bool) :
    Keeps s (s.giveUp key aborted) (aborted = true → s.aborted = true) := by
  have hrev := revoke_keeps h (if aborted then .cancelled else .refused)
  have hk' : ((s.revoke (if aborted then .cancelled else .refused)).pending.get? key).isSome := by
    rw [revoke_pending]
    exact hk
  refine (hrev.trans (finish_keeps hrev.1 hk' ends_dropped)).congr ?_
  have hend : law (s.revoke (if aborted then .cancelled else .refused)).trace (.dropped key) :=
    hrev.1.phase.ended.mp (aborted_of_closed (revoke_closed s _))
  rw [and_iff_left hend]
  cases aborted with
  | false => exact iff_of_true (.inr (by decide)) (fun hf => by cases hf)
  | true => simp

end Session

variable {t : Session} {task : Task}

theorem Counted.setStage (h : Counted s) {task' : Task}
    (hk : s.pending.get? key = some task) (hpen : t.pending = s.pending.set key task') (hseen : t.seen = s.seen)
    {acts : List Act} (htra : t.trace = s.trace ++ acts) (hcou : ∀ k, acts.countP (Act.requests k) = 0 ∧
      acts.countP (Act.answers k) = 0 ∧ acts.countP (Act.drops k) = 0)
    (hdis : ∀ k name, .dispatched k name ∈ acts → k = key ∧ task'.undispatched = false)
    (hund : task'.undispatched = true → task.undispatched = true)
    (hmet : task'.dispatches = true → task'.method ≠ "ui/initialize")
    (hgra : ∀ operation, task'.grant = some operation → .granted (.request key) operation ∈ t.trace) : Counted t := by
  have hget : ∀ k, t.pending.get? k = if k = key then some task' else s.pending.get? k := by
    intro k
    rw [hpen, Dict.get?_set]
  refine ⟨?_, ?_, ?_, ?_, ?_, ?_⟩
  · intro k
    obtain ⟨hreq, hans, hdro⟩ := hcou k
    have hsome : (t.pending.get? k).isSome = (s.pending.get? k).isSome := by
      rw [hget]
      by_cases hkk : k = key
      · rw [if_pos hkk, hkk, hk]
        rfl
      · rw [if_neg hkk]
    rw [htra, countP_append, countP_append, countP_append, hreq, hans, hdro, hsome]
    exact h.counts k
  · intro k hs
    rw [hseen]
    rw [hget] at hs
    by_cases hkk : k = key
    · rw [hkk]
      exact h.seen key (by rw [hk]; rfl)
    · rw [if_neg hkk] at hs
      exact h.seen k hs
  · intro k name hm
    rw [hseen]
    rw [htra] at hm
    rcases mem_append.mp hm with hm | hm
    · exact h.dispatched k name hm
    · rw [(hdis k name hm).1]
      exact h.seen key (by rw [hk]; rfl)
  · intro k other ht hu name hm
    rw [hget] at ht
    rw [htra] at hm
    by_cases hkk : k = key
    · rw [if_pos hkk, Option.some.injEq] at ht
      subst ht
      rcases mem_append.mp hm with hm | hm
      · exact h.undispatched key task hk (hund hu) name (hkk ▸ hm)
      · rw [(hdis k name hm).2] at hu
        cases hu
    rw [if_neg hkk] at ht
    rcases mem_append.mp hm with hm | hm
    · exact h.undispatched k other ht hu name hm
    · exact hkk (hdis k name hm).1
  · intro k other operation ht hg
    rw [hget] at ht
    by_cases hkk : k = key
    · rw [if_pos hkk, Option.some.injEq] at ht
      subst ht
      rw [hkk]
      exact hgra operation hg
    rw [if_neg hkk] at ht
    rw [htra]
    exact mem_append_left _ (h.granted k other operation ht hg)
  · intro k other ht
    rw [hget] at ht
    split at ht
    · rw [Option.some.injEq] at ht
      subst ht
      exact hmet
    · exact h.methods k other ht

theorem Phase.setStage (h : Phase s) {task' : Task}
    (hk : s.pending.get? key = some task) (hpen : t.pending = s.pending.set key task')
    (habo : task'.aborted = task.aborted) {acts : List Act} (htra : t.trace = s.trace ++ acts)
    (hacts : ∀ a ∈ acts, a.goesOn = true) (hstate : t.state = s.state) : Phase t := by
  refine h.frame htra hacts (by rw [hstate]) (by rw [Session.aborted, hstate]; rfl) ?_
  intro ha k other ht
  rw [hpen, Dict.get?_set] at ht
  split at ht
  · rw [Option.some.injEq] at ht
    subst ht
    rw [habo]
    exact h.aborted ha key task hk
  · exact h.aborted ha k other ht

namespace Session

theorem setStage_keeps (h : Standing s) (hk : s.pending.get? key = some task) {stage : Stage}
    (hund : ({ task with stage := stage } : Task).undispatched = true → task.undispatched = true)
    (hmet : ({ task with stage := stage } : Task).dispatches = true → task.method ≠ "ui/initialize")
    (hgra : ({ task with stage := stage } : Task).grant = none) : Keeps s (s.setStage key task stage) True := by
  have htra : (s.setStage key task stage).trace = s.trace ++ [] := (append_nil s.trace).symm
  refine Standing.quiet ⟨?_, ?_, ?_⟩ rfl
  · exact h.phase.setStage (t := s.setStage key task stage) hk rfl rfl htra (fun _ ha => by cases ha) rfl
  · refine h.counted.setStage (t := s.setStage key task stage) hk rfl rfl htra (fun _ => ⟨rfl, rfl, rfl⟩)
      (fun _ _ hm => by cases hm) hund hmet ?_
    intro operation hg
    rw [hgra] at hg
    cases hg
  · exact h.notices.frame (t := s.setStage key task stage) htra (fun _ ha => by cases ha) (.inl rfl) rfl rfl rfl rfl rfl
      (.inl rfl) id

theorem isSome_of_eq (hk : s.pending.get? key = some task) : (s.pending.get? key).isSome := by
  rw [hk]
  rfl

theorem authorize_ne_passed (s : Session) (signal : Bool) : s.authorize signal ≠ .passed := by
  unfold authorize
  split
  · exact fun hp => by cases hp
  cases signal with
  | false | true => exact fun hp => by cases hp

theorem caught_keeps (h : Standing s) (hk : s.pending.get? key = some task) (failure : Failure) (aborted : Bool) :
    Keeps s (s.caught key task failure aborted) (failure.code = appRevoked.code → aborted = true → s.aborted = true) := by
  unfold caught
  by_cases hcode : failure.code = appRevoked.code
  · rw [if_pos hcode]
    exact (giveUp_keeps h (isSome_of_eq hk) aborted).congr ⟨fun hc _ => hc, fun hc => hc hcode⟩
  rw [if_neg hcode]
  have htriv : True ↔ (failure.code = appRevoked.code → aborted = true → s.aborted = true) :=
    iff_of_true trivial fun hc => absurd hc hcode
  split
  · exact (setStage_keeps h hk (fun hu => by cases hu) (fun hd => by cases hd) rfl).congr htriv
  · exact (replyFailure_keeps h (isSome_of_eq hk) failure).congr htriv

theorem caught_keeps_of (h : Standing s) (hk : s.pending.get? key = some task) (failure : Failure) :
    Keeps s (s.caught key task failure false) True :=
  (caught_keeps h hk failure false).congr (iff_of_true (fun _ hf => by cases hf) trivial)

theorem sendResult_keeps (o : Options) (h : Standing s)
    (hk : s.pending.get? key = some task) (hgra : task.grant = some (resultOf task.method)) (result : Json) :
    Keeps s (s.sendResult o key task result) (task.aborted = true → s.aborted = true) := by
  unfold sendResult
  cases habo : task.aborted with
  | true =>
    refine (finish_keeps h (isSome_of_eq hk) ends_dropped).congr ?_
    exact ⟨fun he _ => h.phase.ended.mpr he, fun hc => h.phase.ended.mp (hc rfl)⟩
  | false =>
    have htriv : ∀ {p : Prop}, p → (p ↔ (false = true → s.aborted = true)) :=
      fun hp => iff_of_true hp fun hf => by cases hf
    by_cases hclo : s.state = .closed
    · rw [if_neg (by simp [hclo])]
      exact (finish_keeps h (isSome_of_eq hk) ends_dropped).congr
        (htriv (h.phase.ended.mp (aborted_of_closed hclo)))
    rw [if_pos (by simp [hclo])]
    split
    · refine (finish_keeps h (isSome_of_eq hk) (ends_result _ _)).congr (htriv ?_)
      exact ⟨h.phase.not_closed hclo, unanswered h.counted (isSome_of_eq hk), h.counted.granted key task _ hk hgra⟩
    · exact (caught_keeps_of h hk _).congr (htriv trivial)

theorem running_stage (task : Task) (known : Option (Except Failure Json)) (own : Option Json) :
    ({ task with stage := task.running known own } : Task).undispatched = false ∧
      ({ task with stage := task.running known own } : Task).grant = none := by
  unfold running
  cases task.aborted with
  | false | true => exact ⟨rfl, rfl⟩

def calls (o : Options) (task : Task) : Bool :=
  match dispatch o.platform o.broker task.method task.params with
  | .calls _ _ _ => true
  | _ => false

theorem dispatchRequest_keeps (o : Options) (h : Standing s)
    (hk : s.pending.get? key = some task) (hu : task.undispatched = true) (hmet : task.method ≠ "ui/initialize") :
    Keeps s (s.dispatchRequest o key task) (calls o task = true → s.state ≠ .closed) := by
  unfold dispatchRequest calls
  have hstage := running_stage task
  have hset : ∀ outcome, Keeps s (s.setStage key task (task.running (some outcome) none)) True := fun outcome =>
    setStage_keeps h hk (fun hf => absurd hf (by rw [(hstage _ _).1]; decide)) (fun _ => hmet) (hstage _ _).2
  rcases dispatch o.platform o.broker task.method task.params with failure | result | ⟨name, args, own⟩
  · exact (hset _).congr (iff_of_true trivial fun hf => by cases hf)
  · exact (hset _).congr (iff_of_true trivial fun hf => by cases hf)
  dsimp only
  have hact : ∀ {p : Act → Prop}, p (.dispatched key name) → ∀ a ∈ [dispatched key name], p a := by
    intro p hp a ha
    rw [mem_singleton.mp ha]
    exact hp
  refine Keeps.congr (Standing.acts (a := .dispatched key name) ⟨?_, ?_, ?_⟩ rfl) ?_
  · exact h.phase.setStage (t := (s.setStage key task (task.running none own)).act (.dispatched key name)) hk rfl rfl
      rfl (hact rfl) rfl
  · refine h.counted.setStage (t := (s.setStage key task (task.running none own)).act (.dispatched key name)) hk rfl
      rfl rfl (fun _ => ⟨rfl, rfl, rfl⟩) ?_ ?_ (fun _ => hmet) ?_
    · intro k other hm
      cases mem_singleton.mp hm
      exact ⟨rfl, (hstage _ _).1⟩
    · intro hf
      rw [(hstage _ _).1] at hf
      cases hf
    · intro operation hg
      rw [(hstage _ _).2] at hg
      cases hg
  · exact h.notices.frame (t := (s.setStage key task (task.running none own)).act (.dispatched key name)) rfl
      (hact rfl) (.inl rfl) rfl rfl rfl rfl rfl (.inl rfl) id
  · refine ⟨fun hl _ hc => hl.2 (h.phase.closed.mp hc), fun hc => ⟨?_, h.phase.not_closed (hc rfl)⟩⟩
    exact h.counted.undispatched key task hk hu

def requestGoesOn (o : Options) (s : Session) (task : Task) : Prop :=
  match task.stage with
  | .admission .passed =>
    if task.method = "ui/initialize" then task.aborted = true → s.aborted = true
    else calls o task = true → s.state ≠ .closed
  | .publish .passed _ => task.aborted = true → s.aborted = true
  | .admission (.threw failure aborted) | .publish (.threw failure aborted) _ =>
    failure.code = appRevoked.code → aborted = true → s.aborted = true
  | _ => True

theorem resumeRequest_keeps (o : Options) (h : Standing s)
    (hk : s.pending.get? key = some task) (ht : s.resumeRequest o key task = some t) :
    Keeps s t (requestGoesOn o s task) := by
  unfold resumeRequest at ht
  unfold requestGoesOn
  rcases hstage : task.stage with (_ | _ | _ | ⟨failure, aborted⟩) | ⟨known, own⟩ | (failure | result) |
    ⟨_ | _ | _ | ⟨failure, aborted⟩, result⟩ | ⟨_ | _ | _ | ⟨failure, aborted⟩, cause⟩
  all_goals rw [hstage] at ht
  all_goals dsimp only at ht ⊢
  all_goals cases ht
  · by_cases hinit : task.method = "ui/initialize"
    · rw [if_pos hinit, if_pos hinit]
      refine sendResult_keeps o h hk ?_ _
      rw [grant, hstage]
      simp [admitOf, resultOf, hinit]
    · rw [if_neg hinit, if_neg hinit]
      refine dispatchRequest_keeps o h hk ?_ hinit
      rw [undispatched, hstage]
  · exact caught_keeps h hk failure aborted
  · exact caught_keeps_of h hk failure
  · have hmet := h.counted.methods key task hk (by rw [dispatches, hstage])
    refine setStage_keeps h hk (fun hu => by cases hu) (fun _ => hmet) ?_
    have hne := authorize_ne_passed s task.aborted
    unfold grant
    dsimp only
    cases hauth : s.authorize task.aborted with
    | passed => exact absurd hauth hne
    | _ => rfl
  · have hmet := h.counted.methods key task hk (by rw [dispatches, hstage])
    refine sendResult_keeps o h hk ?_ result
    rw [grant, hstage]
    simp [resultOf, hmet]
  · exact caught_keeps h hk failure aborted
  · exact replyFailure_keeps h (isSome_of_eq hk) cause
  · exact (giveUp_keeps h (isSome_of_eq hk) false).congr (iff_of_true (fun hf => by cases hf) trivial)

theorem settles_keeps (h : Standing s) {answer : Except Failure Json}
    (ht : s.settles key answer = some t) : Keeps s t True := by
  unfold settles at ht
  rcases hk : s.pending.get? key with _ | task
  · rw [hk] at ht
    cases ht
  rw [hk] at ht
  dsimp only at ht
  rcases hstage : task.stage with auth | ⟨known, own⟩ | outcome | ⟨auth, result⟩ | ⟨auth, failure⟩
  all_goals rw [hstage] at ht
  all_goals cases ht
  have hmet := h.counted.methods key task hk (by rw [dispatches, hstage])
  exact setStage_keeps h hk (fun hu => by cases hu) (fun _ => hmet) rfl

theorem answers_request_keeps (h : Standing s) {answer : Answer}
    (ht : s.answers (.request key) answer = some t) : Keeps s t True := by
  unfold answers at ht
  rcases hk : s.pending.get? key with _ | task
  · simp only [hk] at ht
    cases ht
  simp only [hk] at ht
  rcases hstage : task.stage with (_ | _ | _ | _) | ⟨known, own⟩ | outcome | ⟨_ | _ | _ | _, result⟩ |
    ⟨_ | _ | _ | _, failure⟩
  all_goals rw [hstage] at ht
  all_goals cases ht
  · exact setStage_keeps h hk (fun _ => by rw [undispatched, hstage]) (fun hd => by cases hd) rfl
  · have hmet := h.counted.methods key task hk (by rw [dispatches, hstage])
    exact setStage_keeps h hk (fun hu => by cases hu) (fun _ => hmet) rfl
  · exact setStage_keeps h hk (fun hu => by cases hu) (fun hd => by cases hd) rfl

theorem check_passed {signal : Bool} {answer : Answer} (h : s.check signal answer = .passed) :
    s.state ≠ .closed ∧ signal = false := by
  unfold check at h
  cases answer with
  | allow =>
    dsimp only at h
    by_cases hclo : s.state = .closed
    · rw [if_pos hclo] at h
      cases h
    rw [if_neg hclo] at h
    cases signal with
    | false => exact ⟨hclo, rfl⟩
    | true => cases h
  | other | throws => cases h

theorem note_keeps (h : Standing s) (hk : s.pending.get? key = some task)
    {stage : Stage} {auth : Auth} {operation : Operation}
    (hund : ({ task with stage := stage } : Task).undispatched = true → task.undispatched = true)
    (hmet : ({ task with stage := stage } : Task).dispatches = true → task.method ≠ "ui/initialize")
    (hgra : ∀ other, ({ task with stage := stage } : Task).grant = some other → auth = .passed ∧ other = operation)
    (hopen : auth = .passed → s.aborted = false) :
    Keeps s ((s.setStage key task stage).note (.request key) operation auth) True := by
  cases auth with
  | passed =>
    refine Keeps.congr (Standing.acts (a := .granted (.request key) operation) ⟨?_, ?_, ?_⟩ rfl)
      (iff_of_true (h.phase.not_ended (hopen rfl)) trivial)
    · refine h.phase.setStage (t := (s.setStage key task stage).act (.granted (.request key) operation)) hk rfl rfl
        rfl ?_ rfl
      intro a ha
      rw [mem_singleton.mp ha]
      rfl
    · refine h.counted.setStage (t := (s.setStage key task stage).act (.granted (.request key) operation)) hk rfl rfl
        rfl (fun _ => ⟨rfl, rfl, rfl⟩) ?_ hund hmet ?_
      · intro k name hm
        cases mem_singleton.mp hm
      · intro other hg
        rw [(hgra other hg).2]
        exact mem_append_right _ (mem_singleton.mpr rfl)
    refine h.notices.frame (t := (s.setStage key task stage).act (.granted (.request key) operation)) rfl ?_
      (.inl rfl) rfl rfl rfl rfl rfl (.inl rfl) id
    intro a ha
    rw [mem_singleton.mp ha]
    rfl
  | asked | answered | threw =>
    refine setStage_keeps h hk hund hmet (eq_none_iff_forall_not_mem.mpr fun other hg => ?_)
    cases (hgra other hg).1

theorem checks_request_keeps (h : Standing s) (ht : s.checks (.request key) = some t) : Keeps s t True := by
  unfold checks at ht
  rcases hk : s.pending.get? key with _ | task
  · simp only [hk] at ht
    cases ht
  simp only [hk] at ht
  -- the signal of a request is aborted with that of the session
  have hopen : ∀ {answer}, s.check task.aborted answer = .passed → s.aborted = false := by
    intro answer hp
    have hsig := (check_passed hp).2
    cases hs : s.aborted with
    | false => rfl
    | true => rw [h.phase.aborted hs key task hk] at hsig; cases hsig
  rcases hstage : task.stage with (_ | answer | _ | _) | ⟨known, own⟩ | outcome | ⟨_ | answer | _ | _, result⟩ |
    ⟨_ | answer | _ | _, failure⟩
  all_goals rw [hstage] at ht
  all_goals cases ht
  · refine note_keeps h hk (fun _ => by rw [undispatched, hstage]) (fun hd => by cases hd) ?_ hopen
    intro other hg
    unfold grant at hg
    dsimp only at hg
    cases hauth : s.check task.aborted answer
    all_goals rw [hauth] at hg
    all_goals cases hg
    exact ⟨rfl, rfl⟩
  · have hmet := h.counted.methods key task hk (by rw [dispatches, hstage])
    refine note_keeps h hk (fun hu => by cases hu) (fun _ => hmet) ?_ hopen
    intro other hg
    unfold grant at hg
    dsimp only at hg
    cases hauth : s.check task.aborted answer
    all_goals rw [hauth] at hg
    all_goals cases hg
    exact ⟨rfl, rfl⟩
  · refine note_keeps h hk (fun hu => by cases hu) (fun hd => by cases hd) (fun other hg => by cases hg) ?_
    exact fun hp => (check_passed hp).2

theorem admitRequest_keeps (h : Standing s)
    (hk : s.pending.get? key = some task) (hstage : task.stage = .admission .asked) (hopen : s.aborted = false) :
    Keeps s (s.admitRequest key task) True := by
  have hcau : ∀ code, Keeps s (s.caught key task (mcpAppError code) false) True :=
    fun code => caught_keeps_of h hk _
  have hask : s.authorize false = .asked := by
    unfold authorize
    rw [if_neg fun hc => by rw [aborted_of_closed hc] at hopen; cases hopen]
    rfl
  unfold admitRequest
  split
  · by_cases hbad : (s.state ≠ .new || !validInitialize task.params) = true
    · rw [if_pos hbad]
      exact hcau _
    rw [if_neg hbad]
    have hnew : s.state = .new := by
      by_contra hne
      simp [hne] at hbad
    have hini : Standing { s with state := .initializing } := by
      have htra : s.trace = s.trace ++ [] := (append_nil s.trace).symm
      refine ⟨?_, ?_, ?_⟩
      · refine h.phase.frame (t := { s with state := .initializing }) htra (fun _ ha => by cases ha) ?_ ?_ h.phase.aborted
        · simp [hnew]
        · simp [aborted, hnew]
      · exact h.counted.frame (t := { s with state := .initializing }) htra (fun _ ha => by cases ha) tame_id
          (fun key => by simp) rfl
      · exact h.notices.frame (t := { s with state := .initializing }) htra (fun _ ha => by cases ha) (.inl rfl) rfl
          rfl rfl rfl rfl (.inl rfl) fun hc => by rw [hnew] at hc; cases hc
    have hkee : Keeps _ (setStage _ key task (.admission (s.authorize false))) True :=
      setStage_keeps hini hk (fun _ => by rw [undispatched, hstage]) (fun hd => by cases hd) (by rw [hask]; rfl)
    exact ((hini.quiet rfl).trans hkee).congr (by simp)
  split
  · exact hcau _
  · exact setStage_keeps h hk (fun _ => by rw [undispatched, hstage]) (fun hd => by cases hd) (by rw [hask]; rfl)

theorem refused_keeps (h : Standing s) (hopen : s.aborted = false) (key : Json) (code : Int)
    (message : String) : Keeps s ((s.act (.request key)).act (.error key code message)) True := by
  have htra : ((s.act (.request key)).act (.error key code message)).trace =
      s.trace ++ [.request key, .error key code message] := by
    simp [act]
  refine ⟨⟨?_, ?_, ?_⟩, ?_⟩
  · refine h.phase.frame htra ?_ Iff.rfl rfl h.phase.aborted
    intro a ha
    simp only [mem_cons, not_mem_nil, or_false] at ha
    rcases ha with rfl | rfl <;> rfl
  · have hdis : ∀ k name, .dispatched k name ∈ ((s.act (.request key)).act (.error key code message)).trace →
        .dispatched k name ∈ s.trace := by
      intro k name hm
      rw [htra] at hm
      simpa using hm
    refine ⟨?_, h.counted.seen, fun k name hm => h.counted.dispatched k name (hdis k name hm), ?_, ?_,
      h.counted.methods⟩
    · intro k
      have hcou := h.counted.counts k
      rw [htra, countP_append, countP_append, countP_append]
      show _ = _ + _ + (if (s.pending.get? k).isSome then 1 else 0)
      by_cases hk : key = k
      · simp only [countP_cons, countP_nil, Act.requests, Act.answers, Act.drops, hk]
        simp
        omega
      · simp only [countP_cons, countP_nil, Act.requests, Act.answers, Act.drops, hk]
        simpa using hcou
    · exact fun k task ht hu name hm => h.counted.undispatched k task ht hu name (hdis k name hm)
    intro k task operation ht hg
    rw [htra]
    exact mem_append_left _ (h.counted.granted k task operation ht hg)
  · refine h.notices.frame htra ?_ (.inl rfl) rfl rfl rfl rfl rfl (.inl rfl) id
    intro a ha
    simp only [mem_cons, not_mem_nil, or_false] at ha
    rcases ha with rfl | rfl <;> rfl
  · rw [show ((s.act (.request key)).act (.error key code message)).trace =
      (s.trace ++ [.request key]) ++ [.error key code message] from rfl, lawful_concat, lawful_concat]
    have hlaw : law (s.trace ++ [.request key]) (.error key code message) := by
      refine ⟨?_, ?_⟩
      · rw [closed_append fun a ha => by rw [mem_singleton.mp ha]; rfl]
        exact not_closed_of_ended (h.phase.not_ended hopen)
      have hcou := h.counted.counts key
      rw [countP_append, countP_append]
      simp only [countP_cons, countP_nil, Act.requests, Act.answers]
      simp
      omega
    have hreq : law s.trace (.request key) := trivial
    exact ⟨fun hl => ⟨hl.1.1, trivial⟩, fun hl => ⟨⟨hl.1, hreq⟩, hlaw⟩⟩

theorem admitted_keeps (h : Standing s) (hopen : s.aborted = false) (hnew : key ∉ s.seen)
    (hstage : task.stage = .admission .asked) :
    Keeps s { s.act (.request key) with seen := s.seen ++ [key], pending := s.pending.set key task } True := by
  have hnone : s.pending.get? key = none := by
    rw [← not_isSome_iff_eq_none]
    exact fun hs => hnew (h.counted.seen key hs)
  have hget : ∀ k, (s.pending.set key task).get? k = if k = key then some task else s.pending.get? k :=
    fun k => Dict.get?_set _ _ _ _
  have hdis : ∀ k name, .dispatched k name ∈ s.trace ++ [.request key] → .dispatched k name ∈ s.trace := by
    intro k name hm
    simpa using hm
  refine Keeps.congr (Standing.acts (a := .request key) ⟨?_, ?_, ?_⟩ rfl) (iff_of_true trivial trivial)
  · refine h.phase.frame rfl ?_ Iff.rfl rfl ?_
    · intro a ha
      rw [mem_singleton.mp ha]
      rfl
    · intro ha
      rw [hopen] at ha
      cases ha
  · refine ⟨?_, ?_, ?_, ?_, ?_, ?_⟩
    · intro k
      have hcou := h.counted.counts k
      show (s.trace ++ [Act.request key]).countP _ = (s.trace ++ [Act.request key]).countP _ +
        (s.trace ++ [Act.request key]).countP _ + (if ((s.pending.set key task).get? k).isSome then 1 else 0)
      rw [countP_append, countP_append, countP_append, hget]
      by_cases hk : k = key
      · subst hk
        rw [hnone] at hcou
        simp only [countP_cons, countP_nil, Act.requests, Act.answers, Act.drops]
        simp at hcou ⊢
        omega
      rw [if_neg hk]
      simp only [countP_cons, countP_nil, Act.requests, Act.answers, Act.drops, Ne.symm hk]
      simpa using hcou
    · intro k hs
      rw [hget] at hs
      by_cases hk : k = key
      · rw [hk]
        exact mem_append_right _ (mem_singleton.mpr rfl)
      · rw [if_neg hk] at hs
        exact mem_append_left _ (h.counted.seen k hs)
    · exact fun k name hm => mem_append_left _ (h.counted.dispatched k name (hdis k name hm))
    · intro k other ht hu name hm
      rw [hget] at ht
      by_cases hk : k = key
      · exact hnew (hk ▸ h.counted.dispatched k name (hdis k name hm))
      · rw [if_neg hk] at ht
        exact h.counted.undispatched k other ht hu name (hdis k name hm)
    · intro k other operation ht hg
      rw [hget] at ht
      split at ht
      · rw [Option.some.injEq] at ht
        subst ht
        rw [grant, hstage] at hg
        cases hg
      · exact mem_append_left _ (h.counted.granted k other operation ht hg)
    · intro k other ht hd
      rw [hget] at ht
      split at ht
      · rw [Option.some.injEq] at ht
        subst ht
        rw [dispatches, hstage] at hd
        cases hd
      · exact h.counted.methods k other ht hd
  · refine h.notices.frame rfl ?_ (.inl rfl) rfl rfl rfl rfl rfl (.inl rfl) id
    intro a ha
    rw [mem_singleton.mp ha]
    rfl

theorem receiveRequest_keeps (h : Standing s) (hopen : s.aborted = false) (key : Json)
    (method : String) (params : Json) : Keeps s (s.receiveRequest key method params) True := by
  unfold receiveRequest
  split
  · exact revoke_keeps_of h (by decide)
  dsimp only
  by_cases hrefu : ((s.act (.request key)).seen.contains key || decide (4096 ≤ (s.act (.request key)).seen.length) ||
      decide (16 ≤ (s.act (.request key)).pending.size)) = true
  · rw [if_pos hrefu]
    exact refused_keeps h hopen key _ _
  rw [if_neg hrefu]
  have hnew : key ∉ s.seen := by
    intro hm
    simp [act, hm] at hrefu
  have hadm := admitted_keeps h hopen hnew
    (show ({ method := method, params := params, stage := .admission .asked } : Task).stage = .admission .asked
      from rfl)
  have hgo := admitRequest_keeps hadm.1 (Dict.get?_set_self _ _ _) rfl hopen
  exact (hadm.trans hgo).congr (by simp)

end Session

end OpenAgent.McpApps
