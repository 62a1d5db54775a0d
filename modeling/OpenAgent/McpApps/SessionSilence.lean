import OpenAgent.McpApps.SessionRequests

namespace OpenAgent.McpApps

open Py Option

/-- Whether `broker.authorize` is awaited. -/
def Auth.asking : Auth → Bool
  | .asked => true
  | _ => false

def Task.asking (task : Task) : Bool :=
  match task.stage with
  | .admission auth | .publish auth _ | .recheck auth _ => auth.asking
  | _ => false

def Hushed (s : Session) : Prop :=
  s.state = .closed → (∀ key task, s.pending.get? key = some task → task.asking = false) ∧
      ∀ n wait, s.waits.get? n = some wait → wait.auth.asking = false

variable {s : Session}

theorem hushed_of_open (h : s.state ≠ .closed) : Hushed s := fun hc => absurd hc h

theorem Auth.abort_asking (auth : Auth) : auth.abort.asking = false := by
  cases auth with
  | asked | answered | passed | threw => rfl

theorem Task.abort_asking {task : Task} (h : task.asking = false) : task.abort.asking = false := by
  obtain ⟨method, params, aborted, stage⟩ := task
  cases stage with
  | admission auth | publish auth _ => exact auth.abort_asking
  | running | ran => rfl
  | recheck auth failure => exact h

theorem Task.abortRecheck_abort_asking (task : Task) : task.abortRecheck.abort.asking = false := by
  obtain ⟨method, params, aborted, stage⟩ := task
  cases stage with
  | admission auth | publish auth _ | recheck auth _ => exact auth.abort_asking
  | running | ran => rfl

variable {t : Session}

theorem Hushed.frame (h : Hushed s) (hclo : t.state = .closed → s.state = .closed)
    (hpen : ∀ key task, t.pending.get? key = some task → task.asking = true →
      ∃ k old, s.pending.get? k = some old ∧ old.asking = true)
    (hwai : t.state = .closed → ∀ n wait, t.waits.get? n = some wait → wait.auth.asking = true →
      ∃ m old, s.waits.get? m = some old ∧ old.auth.asking = true) : Hushed t := by
  intro hc
  obtain ⟨hp, hw⟩ := h (hclo hc)
  constructor
  · intro key task hk
    by_contra ha
    obtain ⟨k, old, hold, ho⟩ := hpen key task hk (by simpa using ha)
    rw [hp k old hold] at ho
    cases ho
  intro n wait hn
  by_contra ha
  obtain ⟨m, old, hold, ho⟩ := hwai hc n wait hn (by simpa using ha)
  rw [hw m old hold] at ho
  cases ho

theorem Hushed.same (h : Hushed s) (hstate : t.state = s.state) (hpen : t.pending = s.pending)
    (hwai : t.waits = s.waits) : Hushed t := by
  intro hc
  rw [hpen, hwai]
  exact h (hstate.symm.trans hc)

namespace Session

theorem revoke_hushed (h : Hushed s) (cause : Cause) : Hushed (s.revoke cause) := by
  unfold revoke
  split
  · exact h
  refine fun _ => ⟨fun key task hk => ?_, fun n wait hn => ?_⟩
  · have hget : ((s.pending.mapEntries fun _ task => task.abortRecheck).mapEntries fun _ task => task.abort).get? key =
        some task := hk
    rw [Dict.get?_mapEntries, Dict.get?_mapEntries, map_map] at hget
    obtain ⟨old, -, rfl⟩ := map_eq_some_iff.mp hget
    exact old.abortRecheck_abort_asking
  have hget : (s.waits.mapEntries fun _ wait => { wait with auth := wait.auth.abort }).get? n = some wait := hn
  rw [Dict.get?_mapEntries] at hget
  obtain ⟨old, -, rfl⟩ := map_eq_some_iff.mp hget
  exact old.auth.abort_asking

theorem abort_hushed (h : Hushed s) (p : Json → Bool) :
    Hushed { s with pending := s.pending.mapEntries fun key task => if p key then task.abort else task } := by
  refine h.frame id (fun key task hk ha => ?_) fun _ n wait hn ha => ⟨n, wait, hn, ha⟩
  have hget : (s.pending.mapEntries fun key task => if p key then task.abort else task).get? key = some task := hk
  rw [Dict.get?_mapEntries] at hget
  obtain ⟨old, hold, rfl⟩ := map_eq_some_iff.mp hget
  refine ⟨key, old, hold, ?_⟩
  by_contra ho
  rw [Bool.not_eq_true] at ho
  cases hp : p key with
  | true =>
    rw [hp, if_pos rfl, old.abort_asking ho] at ha
    cases ha
  | false =>
    rw [hp, if_neg (by decide), ho] at ha
    cases ha

theorem authorize_asking {signal : Bool} (hclo : s.state = .closed) : (s.authorize signal).asking = false := by
  unfold authorize
  rw [if_pos hclo]
  rfl

theorem check_asking (s : Session) (signal : Bool) (answer : Answer) : (s.check signal answer).asking = false := by
  cases answer with
  | allow =>
    unfold check
    by_cases hclo : s.state = .closed
    · rw [if_pos hclo]
      rfl
    rw [if_neg hclo]
    cases signal with
    | false => rfl
    | true => rfl
  | other | throws => rfl

theorem start_hushed (h : Hushed s) (purpose : Purpose) : Hushed (s.start purpose) := by
  refine h.frame id (fun key task hk ha => ⟨key, task, hk, ha⟩) fun hclo n wait hn ha => ?_
  have hget : (s.waits.set s.waitCount ⟨purpose, s.authorize s.aborted⟩).get? n = some wait := hn
  rw [Dict.get?_set] at hget
  split at hget
  · rw [Option.some.injEq] at hget
    rw [← hget] at ha
    have hqui : (s.authorize s.aborted).asking = false := authorize_asking hclo
    cases hqui.symm.trans ha
  · exact ⟨n, wait, hget, ha⟩

theorem finish_hushed (h : Hushed s) (key : Json) (a : Act) : Hushed (s.finish key a) := by
  refine h.frame id (fun k task hk ha => ?_) fun _ n wait hn ha => ⟨n, wait, hn, ha⟩
  have hget : (s.pending.erase key).get? k = some task := hk
  rw [Dict.get?_erase] at hget
  split at hget
  · cases hget
  · exact ⟨k, task, hget, ha⟩

theorem setStage_hushed (h : Hushed s) (key : Json) (task : Task) {stage : Stage}
    (hstage : s.state = .closed → ({ task with stage := stage } : Task).asking = false) :
    Hushed (s.setStage key task stage) := by
  intro hclo
  obtain ⟨hp, hw⟩ := h hclo
  refine ⟨fun k other hk => ?_, hw⟩
  have hget : (s.pending.set key { task with stage := stage }).get? k = some other := hk
  rw [Dict.get?_set] at hget
  split at hget
  · rw [Option.some.injEq] at hget
    rw [← hget]
    exact hstage hclo
  · exact hp k other hget

theorem act_hushed (h : Hushed s) (a : Act) : Hushed (s.act a) := h.same rfl rfl rfl

theorem note_hushed (h : Hushed s) (waiter : Waiter) (operation : Operation) (auth : Auth) :
    Hushed (s.note waiter operation auth) := by
  cases auth with
  | passed => exact act_hushed h _
  | asked | answered | threw => exact h

theorem giveUp_hushed (h : Hushed s) (key : Json) (aborted : Bool) : Hushed (s.giveUp key aborted) :=
  finish_hushed (revoke_hushed h _) key _

theorem replyFailure_hushed (h : Hushed s) (key : Json) (failure : Failure) : Hushed (s.replyFailure key failure) := by
  unfold replyFailure
  split
  · exact finish_hushed h key _
  · exact finish_hushed h key _

theorem caught_hushed (h : Hushed s) (key : Json) (task : Task) (failure : Failure) (aborted : Bool) :
    Hushed (s.caught key task failure aborted) := by
  unfold caught
  split
  · exact giveUp_hushed h key aborted
  by_cases hrea : s.state = .ready
  · rw [if_pos hrea]
    exact setStage_hushed h key task fun hc => absurd (hrea.symm.trans hc) (by decide)
  · rw [if_neg hrea]
    exact replyFailure_hushed h key failure

variable (o : Options)

theorem sendResult_hushed (h : Hushed s) (key : Json) (task : Task) (result : Json) :
    Hushed (s.sendResult o key task result) := by
  unfold sendResult
  split
  · split
    · exact finish_hushed h key _
    · exact caught_hushed h key task _ _
  · exact finish_hushed h key _

theorem running_asking (task : Task) (known : Option (Except Failure Json)) (own : Option Json) :
    ({ task with stage := task.running known own } : Task).asking = false := by
  unfold Task.running
  cases task.aborted with
  | false => rfl
  | true => rfl

section

variable (h : Hushed s)

include h

theorem dispatchRequest_hushed (key : Json) (task : Task) : Hushed (s.dispatchRequest o key task) := by
  have hset : ∀ known own, Hushed (s.setStage key task (task.running known own)) :=
    fun known own => setStage_hushed h key task fun _ => running_asking task known own
  unfold dispatchRequest
  rcases dispatch o.platform o.broker task.method task.params with failure | result | ⟨name, args, own⟩
  · exact hset _ _
  · exact hset _ _
  · exact act_hushed (hset _ _) _

theorem resumeRequest_hushed {key : Json} {task : Task} (ht : s.resumeRequest o key task = some t) : Hushed t := by
  unfold resumeRequest at ht
  rcases hstage : task.stage with (_ | _ | _ | ⟨failure, aborted⟩) | ⟨known, own⟩ | (failure | result) |
    ⟨_ | _ | _ | ⟨failure, aborted⟩, result⟩ | ⟨_ | _ | _ | ⟨failure, aborted⟩, cause⟩
  all_goals rw [hstage] at ht
  all_goals cases ht
  · split
    · exact sendResult_hushed o h key task _
    · exact dispatchRequest_hushed o h key task
  · exact caught_hushed h key task failure aborted
  · exact caught_hushed h key task failure false
  · exact setStage_hushed h key task fun hc => authorize_asking hc
  · exact sendResult_hushed o h key task result
  · exact caught_hushed h key task failure aborted
  · exact replyFailure_hushed h key cause
  · exact giveUp_hushed h key false

theorem settles_hushed {key : Json} {answer : Except Failure Json} (ht : s.settles key answer = some t) : Hushed t := by
  unfold settles at ht
  split at ht
  swap
  · cases ht
  rename_i task hk
  rcases hstage : task.stage with _ | _ | _ | _ | _
  all_goals rw [hstage] at ht
  all_goals cases ht
  exact setStage_hushed h key task fun _ => rfl

theorem answers_hushed {waiter : Waiter} {answer : Answer} (ht : s.answers waiter answer = some t) : Hushed t := by
  unfold answers at ht
  cases waiter with
  | request key =>
    dsimp only at ht
    split at ht
    swap
    · cases ht
    rename_i task hk
    rcases hstage : task.stage with (_ | _ | _ | _) | _ | _ | ⟨_ | _ | _ | _, _⟩ | ⟨_ | _ | _ | _, _⟩
    all_goals rw [hstage] at ht
    all_goals cases ht
    all_goals exact setStage_hushed h key task fun _ => rfl
  | wait n =>
    dsimp only at ht
    rcases hn : s.waits.get? n with _ | ⟨purpose, _ | _ | _ | _⟩
    all_goals rw [hn] at ht
    all_goals cases ht
    refine h.frame id (fun key task hk ha => ⟨key, task, hk, ha⟩) fun _ m wait hm ha => ?_
    have hget : (s.waits.set n ⟨purpose, .answered answer⟩).get? m = some wait := hm
    rw [Dict.get?_set] at hget
    split at hget
    · rw [Option.some.injEq] at hget
      rw [← hget] at ha
      cases ha
    · exact ⟨m, wait, hget, ha⟩

theorem checks_hushed {waiter : Waiter} (ht : s.checks waiter = some t) : Hushed t := by
  unfold checks at ht
  cases waiter with
  | request key =>
    dsimp only at ht
    split at ht
    swap
    · cases ht
    rename_i task hk
    rcases hstage : task.stage with (_ | answer | _ | _) | _ | _ | ⟨_ | answer | _ | _, _⟩ | ⟨_ | answer | _ | _, _⟩
    all_goals rw [hstage] at ht
    all_goals cases ht
    all_goals refine note_hushed (setStage_hushed h key task fun _ => ?_) _ _ _
    all_goals exact check_asking s _ answer
  | wait n =>
    dsimp only at ht
    rcases hn : s.waits.get? n with _ | ⟨purpose, _ | answer | _ | _⟩
    all_goals rw [hn] at ht
    all_goals cases ht
    refine note_hushed ?_ _ _ _
    refine h.frame id (fun key task hk ha => ⟨key, task, hk, ha⟩) fun _ m wait hm ha => ?_
    have hget : (s.waits.set n ⟨purpose, s.check s.aborted answer⟩).get? m = some wait := hm
    rw [Dict.get?_set] at hget
    split at hget
    · rw [Option.some.injEq] at hget
      rw [← hget, check_asking] at ha
      cases ha
    · exact ⟨m, wait, hget, ha⟩

theorem published_hushed (notice : Notice) : Hushed (s.published notice) := by
  unfold published
  rcases notice.queued with _ | input
  · exact h
  · exact h.same rfl rfl rfl

theorem resumeWait_hushed {n : Nat} {wait : Wait} (ht : s.resumeWait o n wait = some t) : Hushed t := by
  have hlea : Hushed { s with waits := s.waits.erase n } := by
    refine h.frame id (fun key task hk ha => ⟨key, task, hk, ha⟩) fun _ m wait hm ha => ?_
    have hget : (s.waits.erase n).get? m = some wait := hm
    rw [Dict.get?_erase] at hget
    split at hget
    · cases hget
    · exact ⟨m, wait, hget, ha⟩
  obtain ⟨purpose, auth⟩ := wait
  unfold resumeWait at ht
  rcases purpose with notice | _ | _
  all_goals rcases auth with _ | _ | _ | _
  all_goals cases ht
  · refine published_hushed ?_ notice
    split
    · exact hlea
    split
    · exact act_hushed hlea _
    · exact revoke_hushed hlea _
  · exact published_hushed (revoke_hushed hlea _) notice
  · exact hlea
  · exact revoke_hushed hlea _
  · exact act_hushed hlea _
  · exact hlea

theorem flushRest_hushed : Hushed s.flushRest := by
  have hidle : Hushed { s with flushing := none } := h.same rfl rfl rfl
  unfold flushRest
  by_cases hwait : (!s.inputSent || s.state ≠ .ready) = true
  · rw [if_pos hwait]
    exact hidle
  rw [if_neg hwait]
  have hrea : s.state = .ready := by
    by_contra hn
    exact hwait (by simp [hn])
  have hopen : ∀ t : Session, t.state = s.state → Hushed t := by
    intro t ht
    refine hushed_of_open ?_
    rw [ht, hrea]
    decide
  rcases s.cancelled with _ | reason
  · rcases s.result with _ | result
    · exact hidle
    · exact hopen _ rfl
  · exact hopen _ rfl

theorem flushNow_hushed : Hushed s.flushNow := by
  unfold flushNow
  by_cases hrea : s.state ≠ .ready
  · rw [if_pos hrea]
    exact h
  rw [if_neg hrea]
  rw [not_not] at hrea
  rcases s.input with _ | arguments
  · exact flushRest_hushed h
  rcases s.inputSent with _ | _
  · refine hushed_of_open ?_
    show s.state ≠ .closed
    rw [hrea]
    decide
  · exact flushRest_hushed h

theorem flushes_hushed (ht : s.flushes = some t) : Hushed t := by
  unfold flushes at ht
  rcases hflu : s.flushing with _ | _ | (_ | _)
  all_goals rw [hflu] at ht
  all_goals dsimp only at ht
  · split at ht
    · cases ht
    · rw [Option.some.injEq] at ht
      rw [← ht]
      exact flushNow_hushed (h.same rfl rfl rfl)
  · cases ht
  · cases ht
    exact h.same rfl rfl rfl
  · cases ht
    exact flushRest_hushed h

theorem flush_hushed : Hushed s.flush := h.same rfl rfl rfl

theorem setToolInput_hushed (arguments : Json) : Hushed (s.setToolInput o arguments) := by
  have hset : Hushed { s with input := some arguments } := h.same rfl rfl rfl
  unfold setToolInput
  split
  · exact h
  split
  · exact h
  split
  · exact flush_hushed hset
  · exact hset

theorem setToolInputUnavailable_hushed : Hushed s.setToolInputUnavailable := by
  unfold setToolInputUnavailable
  split
  · exact h
  · exact h.same rfl rfl rfl

theorem setToolInputPartial_hushed (arguments : Json) : Hushed (s.setToolInputPartial o arguments) := by
  unfold setToolInputPartial
  split
  · exact h
  split
  · exact start_hushed h _
  · exact h

theorem setToolResult_hushed (result : Json) : Hushed (s.setToolResult o result) := by
  unfold setToolResult
  split
  · exact h
  split
  · exact h
  · exact h.same rfl rfl rfl

theorem setHostContext_hushed (context : Json) : Hushed (s.setHostContext o context) := by
  have hset : Hushed { s with hostContext := context, contextCount := s.contextCount + 1 } := h.same rfl rfl rfl
  unfold setHostContext
  split
  · exact h
  dsimp only
  split
  · exact start_hushed hset _
  · exact hset

theorem dispose_hushed : Hushed s.dispose := by
  unfold dispose
  split
  · exact h
  · exact hushed_of_open (show State.closing ≠ .closed by decide)

end

theorem receiveNotification_hushed (hopen : s.state ≠ .closed) (method : String) (params : Json) :
    Hushed (s.receiveNotification o method params) := by
  have h := hushed_of_open hopen
  unfold receiveNotification
  split
  · split
    · exact revoke_hushed h _
    · exact hushed_of_open (show State.ready ≠ .closed by decide)
  split
  · exact h
  split
  · exact hushed_of_open hopen
  split
  · split
    · exact start_hushed h _
    · exact h
  split
  · exact start_hushed h _
  · exact h

theorem admitRequest_hushed (hopen : s.state ≠ .closed) (key : Json) (task : Task) :
    Hushed (s.admitRequest key task) := by
  have h := hushed_of_open hopen
  unfold admitRequest
  split
  · split
    · exact caught_hushed h key task _ _
    · exact hushed_of_open (show State.initializing ≠ .closed by decide)
  split
  · exact caught_hushed h key task _ _
  · exact hushed_of_open hopen

theorem receiveRequest_hushed (hopen : s.state ≠ .closed) (key : Json) (method : String) (params : Json) :
    Hushed (s.receiveRequest key method params) := by
  unfold receiveRequest
  split
  · exact revoke_hushed (hushed_of_open hopen) _
  by_cases hrefu : ((s.act (.request key)).seen.contains key || decide (4096 ≤ (s.act (.request key)).seen.length) ||
      decide (16 ≤ (s.act (.request key)).pending.size)) = true
  · rw [if_pos hrefu]
    exact hushed_of_open hopen
  rw [if_neg hrefu]
  exact admitRequest_hushed (s := { s.act (.request key) with
    seen := s.seen ++ [key]
    pending := s.pending.set key { method := method, params := params, stage := .admission .asked } }) hopen key _

theorem receive_hushed (h : Hushed s) (raw : Option Json) : Hushed (s.receive o raw) := by
  unfold receive
  by_cases hend : (s.state = .closed || s.state = .closing) = true
  · rw [if_pos hend]
    exact h
  rw [if_neg hend]
  have hopen : s.state ≠ .closed := fun hc => hend (by simp [hc])
  cases raw with
  | none => exact revoke_hushed h _
  | some frame =>
    dsimp only
    split
    · exact revoke_hushed h _
    split
    · split
      · exact revoke_hushed h _
      split
      · exact receiveRequest_hushed hopen _ _ _
      · exact receiveNotification_hushed o hopen _ _
    · exact revoke_hushed h _

theorem next_hushed (h : Hushed s) {e : Event} (ht : s.next o e = some t) : Hushed t := by
  cases e with
  | answers waiter answer => exact answers_hushed h ht
  | settles key answer => exact settles_hushed h ht
  | checks waiter => exact checks_hushed h ht
  | flushes => exact flushes_hushed h ht
  | resumes waiter =>
    have hres : s.resumes o waiter = some t := ht
    unfold resumes at hres
    cases waiter with
    | request key =>
      dsimp only at hres
      rcases hk : s.pending.get? key with _ | task
      · rw [hk] at hres
        cases hres
      · rw [hk] at hres
        exact resumeRequest_hushed o h hres
    | wait n =>
      dsimp only at hres
      rcases hn : s.waits.get? n with _ | wait
      · rw [hn] at hres
        cases hres
      · rw [hn] at hres
        exact resumeWait_hushed o h hres
  | disposes =>
    have hdis : (if s.state = .closing then some (s.revoke .disposed) else none) = some t := ht
    split at hdis
    · rw [Option.some.injEq] at hdis
      rw [← hdis]
      exact revoke_hushed h _
    · cases hdis
  | timesOut key =>
    cases ht
    simpa using abort_hushed h fun k => decide (k = key)
  | frame raw =>
    cases ht
    exact receive_hushed o h raw
  | setToolInput arguments =>
    cases ht
    exact setToolInput_hushed o h arguments
  | setToolInputUnavailable =>
    cases ht
    exact setToolInputUnavailable_hushed h
  | setToolInputPartial arguments =>
    cases ht
    exact setToolInputPartial_hushed o h arguments
  | setToolResult result =>
    cases ht
    exact setToolResult_hushed o h result
  | setHostContext context =>
    cases ht
    exact setHostContext_hushed o h context
  | cancel reason =>
    cases ht
    exact (abort_hushed h fun _ => true).same rfl rfl rfl
  | revoke =>
    cases ht
    exact revoke_hushed h _
  | dispose =>
    cases ht
    exact dispose_hushed h

def moves (s : Session) (key : Json) : Prop :=
  (∀ answer, (s.answers (.request key) answer).isSome) ∨ (∀ answer, (s.settles key answer).isSome) ∨
    (s.checks (.request key)).isSome ∨ (s.resumes o (.request key)).isSome

theorem moves_of_pending {key : Json} (h : (s.pending.get? key).isSome) : s.moves o key := by
  obtain ⟨task, hk⟩ := isSome_iff_exists.mp h
  unfold moves answers settles checks resumes resumeRequest
  simp only [hk]
  rcases task.stage with (_ | _ | _ | _) | _ | (_ | _) | ⟨_ | _ | _ | _, _⟩ | ⟨_ | _ | _ | _, _⟩
  all_goals simp

end Session

end OpenAgent.McpApps
