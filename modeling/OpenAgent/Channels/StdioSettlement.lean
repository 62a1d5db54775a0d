import OpenAgent.Channels.StdioRequests

namespace OpenAgent.Channels.Stdio

open List Option Transport

variable {α : Type}

section Recent

variable {β : Type}

def lastOf (n : Nat) (l : List β) : List β := l.drop (l.length - n)

theorem mem_of_mem_lastOf {n : Nat} {l : List β} {x : β} (h : x ∈ lastOf n l) : x ∈ l := mem_of_mem_drop h

theorem lastOf_concat {n : Nat} (l : List β) (x : β) (hn : 0 < n) : lastOf n (l ++ [x]) =
      if n < (lastOf n l ++ [x]).length then (lastOf n l ++ [x]).tail else lastOf n l ++ [x] := by
  have hlen : (lastOf n l ++ [x]).length = min n l.length + 1 := by
    simp only [lastOf, length_append, length_drop, length_singleton]
    omega
  by_cases hfull : n ≤ l.length
  · rw [if_pos (by omega), lastOf, lastOf, ← drop_append_of_le_length (by omega), tail_drop]
    congr 1
    simp
    omega
  have hsho : (l ++ [x]).length - n = 0 := by
    simp only [length_append, length_singleton]
    omega
  rw [if_neg (by omega), lastOf, lastOf, hsho, show l.length - n = 0 by omega, drop_zero, drop_zero]

theorem mem_lastOf_concat {n : Nat} (l : List β) (x : β) (hn : 0 < n) : x ∈ lastOf n (l ++ [x]) := by
  rw [lastOf, drop_append_of_le_length]
  · simp
  · simp
    omega

end Recent

def Ending.isCancelled (ending : Ending α) : Bool :=
  match ending with
  | cancelled => true
  | returned _ | invalid | rejected | closed | callbackFailed | unsent => false

def Event.advances (id : Nat) (e : Event α) : Prop :=
  match e with
  | .sent other ok => other = id ∧ ok = true
  | .resume other _ | .start other _ | .finish other _ _ | .skip other _ _ | .settle other _ => other = id
  | .request _ | .frame _ | .eof | .cancel _ => False

namespace Transport

variable (transport : Transport α)

def cancellations : List Nat := (transport.endings.filter (fun ending => ending.2.isCancelled)).map Prod.fst

def recent : List Nat := lastOf (2 * maxPending) transport.cancellations

def Cancelled (id : Nat) : Prop :=
  id ∈ transport.recent ∨ ∃ call : Call α, transport.calls[id]? = some call ∧
    (call.registered = true ∧ call.future.isCancelled = true ∨ call.stage = .closing .cancelled)

def Awaited (id : Nat) : Prop :=
  ∃ call : Call α, transport.calls[id]? = some call ∧ call.registered = true ∧ call.future.done = false

def EndsBy (id : Nat) (call : Call α) (how : Ending α) : Prop :=
  match how with
  | .returned value => (id, value) ∈ transport.answers ∧ ∀ callback ∈ call.callbacks, callback.state = .ok
  | .invalid => ∃ value, (id, value) ∈ transport.answers
  | .rejected => call.future = .rejected
  | .closed => call.future = .closed
  | .callbackFailed => ∃ callback ∈ call.callbacks, callback.state = .failed
  | .cancelled => True
  | .unsent => False

end Transport

/-- The requests settle once, by what is theirs, their callbacks run in order and to the end, late frames of cancelled
requests are ignored and other strange frames rejected, and the numbers are bounded. -/
structure Orderly (transport : Transport α) : Prop where
  once : (transport.endings.map Prod.fst).Nodup
  goes : ∀ (id : Nat) (call : Call α), transport.calls[id]? = some call → Open call.stage →
    (call.stage ≠ .emitting → call.future.done = true) → ∃ e, Event.advances id e ∧ (transport.next e).isSome = true
  ends : ∀ (id : Nat) (call : Call α) (how : Ending α), transport.calls[id]? = some call → Leaving call.stage how →
    transport.EndsBy id call how
  ordered : ∀ call ∈ transport.calls, Ordered call
  quiet : ∀ call ∈ transport.calls, ∀ how, call.stage = .ended how → ∀ callback ∈ call.callbacks, callback.state.done = true
  late : ∀ frame : Frame α, transport.Cancelled frame.requestId → transport.receive frame = .ok transport
  strange : ∀ frame : Frame α, ¬ transport.Cancelled frame.requestId → ¬ transport.Awaited frame.requestId →
    transport.receive frame = .error .unknownRequest
  others : ∀ (frame : Frame α) (after : Transport α), transport.receive frame = .ok after →
    ∀ other, other ≠ frame.requestId → after.calls[other]? = transport.calls[other]?
  requests : transport.pendingCount ≤ maxPending
  events : transport.eventCount ≤ maxPending
  idle : (∀ call ∈ transport.calls, ∃ how, call.stage = .ended how) → transport.pendingCount = 0 ∧ transport.eventCount = 0

def Call.Tidy (call : Call α) : Prop :=
  ¬ Leaving call.stage .unsent ∧ call.stage ≠ .closing .cancelled ∧
    (call.future.isCancelled = true → call.stage = .waiting ∨ call.stage = .ended .cancelled)

structure Tidy (transport : Transport α) : Prop where
  graves : transport.cancelledRequests = transport.recent
  calls : ∀ call ∈ transport.calls, call.Tidy

section Progress

variable {transport : Transport α} {call : Call α} {id : Nat}

theorem next_of_callback {callback : Callback} {k : Nat} {f : Call α → Callback → Option (Transport α)}
    (hid : transport.calls[id]? = some call) (hk : call.callbacks[k]? = some callback) :
    transport.withCallback id k f = f call callback := by
  simp [withCallback, withCall, hid, hk]

theorem next_of_call {f : Call α → Option (Transport α)} (hid : transport.calls[id]? = some call) :
    transport.withCall id f = f call := by
  simp [withCall, hid]

theorem goes_of_live (hid : transport.calls[id]? = some call) {k : Nat} {callback : Callback}
    (hk : call.callbacks[k]? = some callback) (hlive : callback.state.done = false) :
    ∃ e, Event.advances id e ∧ (transport.next e).isSome = true := by
  induction k generalizing callback with
  | zero =>
    cases hstate : callback.state with
    | queued =>
      refine ⟨.start id 0, rfl, ?_⟩
      simp [Transport.next, next_of_callback hid hk, startCallback, hstate, Call.previous]
    | running =>
      refine ⟨.finish id 0 .ok, rfl, ?_⟩
      simp [Transport.next, next_of_callback hid hk, finishCallback, hstate]
    | _ => simp [hstate, TaskState.done] at hlive
  | succ k ih =>
    cases hstate : callback.state with
    | queued =>
      have hlt := lt_of_getElem?_eq_some hk
      have hbef : call.callbacks[k]? = some call.callbacks[k] := List.getElem?_eq_getElem (by omega)
      have hpre : call.previous (k + 1) = some call.callbacks[k] := by simp [Call.previous, hbef]
      cases hdone : call.callbacks[k].state.done with
      | false => exact ih hbef hdone
      | true =>
        by_cases hfai : call.callbacks[k].state.fails = true
        · refine ⟨.skip id (k + 1) true, rfl, ?_⟩
          simp [Transport.next, next_of_callback hid hk, skipCallback, hstate, hpre, hfai]
        by_cases hcan : call.callbacks[k].state.cancels = true
        · refine ⟨.skip id (k + 1) false, rfl, ?_⟩
          simp [Transport.next, next_of_callback hid hk, skipCallback, hstate, hpre, hcan]
        have hok := TaskState.ok_of_done hdone hfai hcan
        refine ⟨.start id (k + 1), rfl, ?_⟩
        simp [Transport.next, next_of_callback hid hk, startCallback, hstate, hpre, hok]
    | running =>
      refine ⟨.finish id (k + 1) .ok, rfl, ?_⟩
      simp [Transport.next, next_of_callback hid hk, finishCallback, hstate]
    | _ => simp [hstate, TaskState.done] at hlive

theorem tail_done (h : ∀ callback ∈ call.callbacks, callback.state.done = true) : call.tail.done = true := by
  cases hlast : call.callbacks.getLast? with
  | none => simp [Call.tail, hlast, TaskState.done]
  | some last =>
    rw [tail_eq hlast]
    exact h last (mem_of_getLast? hlast)

theorem departure_isSome (hdone : call.future.done = true) (htail : call.tail.done = true) (valid : Bool) :
    ∃ how, call.departure valid = some how := by
  unfold Call.departure
  cases hfut : call.future with
  | pending => simp [hfut, Future.done] at hdone
  | result value =>
    dsimp only
    split
    · exact ⟨_, rfl⟩
    · exact ⟨_, rfl⟩
  | _ => exact ⟨_, rfl⟩

theorem goes_on (hid : transport.calls[id]? = some call) (hopen : Open call.stage)
    (hdone : call.stage ≠ .emitting → call.future.done = true) :
    ∃ e, Event.advances id e ∧ (transport.next e).isSome = true := by
  by_cases hlive : ∃ (k : Nat) (callback : Callback), call.callbacks[k]? = some callback ∧ callback.state.done = false
  · obtain ⟨k, callback, hk, hlive⟩ := hlive
    exact goes_of_live hid hk hlive
  have hcalm : ∀ callback ∈ call.callbacks, callback.state.done = true := by
    intro callback hmem
    obtain ⟨k, hk⟩ := mem_iff_getElem?.mp hmem
    by_contra hstate
    exact hlive ⟨k, callback, hk, by simpa using hstate⟩
  by_cases hact : call.active = 0
  · cases hstage : call.stage with
    | emitting =>
      refine ⟨.sent id true, ⟨rfl, rfl⟩, ?_⟩
      simp [Transport.next, next_of_call hid, sentCall, hstage]
    | waiting | draining =>
      obtain ⟨how, hhow⟩ := departure_isSome (hdone (by simp [hstage])) (tail_done hcalm) true
      refine ⟨.resume id true, rfl, ?_⟩
      simp [Transport.next, next_of_call hid, resumeCall, hstage, hhow]
    | closing how =>
      refine ⟨.resume id true, rfl, ?_⟩
      simp [Transport.next, next_of_call hid, resumeCall, hstage, hact]
    | ended how => exact absurd hstage (hopen how)
  · obtain ⟨callback, hmem, huns⟩ := countP_pos_iff.mp (Nat.pos_of_ne_zero hact)
    obtain ⟨k, hk⟩ := mem_iff_getElem?.mp hmem
    refine ⟨.settle id k, rfl, ?_⟩
    simp [Transport.next, next_of_callback hid hk, settleCallback, hcalm callback hmem,
      show callback.settled = false by simpa using huns]

end Progress

section Orderly

variable {transport t : Transport α} {call call' : Call α} {id : Nat} {how : Ending α}

theorem Sound.endsBy (hs : Sound transport) (hid : transport.calls[id]? = some call) (hlea : Leaving call.stage how)
    (hsent : how ≠ .unsent) : transport.EndsBy id call how := by
  have hends := (hs.fit call (mem_of_getElem? hid)).ends how hlea
  cases how with
  | returned value => exact ⟨hs.owned id call value hid hends.1, hends.2⟩
  | invalid =>
    obtain ⟨value, hval⟩ := hends
    exact ⟨value, hs.owned id call value hid hval⟩
  | callbackFailed => exact hends.2
  | unsent => exact hsent rfl
  | _ => exact hends

theorem Sound.quiet (hs : Sound transport) (hmem : call ∈ transport.calls) (hend : call.stage = .ended how)
    {callback : Callback} (hcal : callback ∈ call.callbacks) : callback.state.done = true := by
  have hfit := hs.fit call hmem
  have hqui := countP_eq_zero.mp (hfit.quiet how hend) callback hcal
  exact hfit.settled callback hcal (by simpa using hqui)

theorem Sound.idle (hs : Sound transport) (h : ∀ call ∈ transport.calls, ∃ how, call.stage = .ended how) :
    transport.pendingCount = 0 ∧ transport.eventCount = 0 := by
  constructor
  · refine List.countP_eq_zero.mpr fun call hmem => ?_
    obtain ⟨how, hend⟩ := h call hmem
    simp [Call.registered, hend, Stage.registered]
  rw [hs.count, List.sum_eq_zero_iff_forall_eq_nat]
  intro active hact
  obtain ⟨call, hmem, rfl⟩ := List.mem_map.mp hact
  obtain ⟨how, hend⟩ := h call hmem
  exact (hs.fit call hmem).quiet how hend

theorem pending_any {p : Call α → Bool} : (transport.pending id).any p = true ↔
      ∃ call, transport.calls[id]? = some call ∧ call.registered = true ∧ p call = true := by
  simp [pending, Option.any_eq_true]

theorem Tidy.cancelled_iff (ht : Tidy transport) : transport.Cancelled id ↔
      id ∈ transport.cancelledRequests ∨ (transport.pending id).any (fun call => call.future.isCancelled) = true := by
  rw [Cancelled, ht.graves, pending_any]
  refine or_congr Iff.rfl ⟨?_, ?_⟩
  · rintro ⟨call, hid, ⟨hreg, hcan⟩ | hclo⟩
    · exact ⟨call, hid, hreg, hcan⟩
    · exact absurd hclo (ht.calls call (mem_of_getElem? hid)).2.1
  · rintro ⟨call, hid, hreg, hcan⟩
    exact ⟨call, hid, .inl ⟨hreg, hcan⟩⟩

theorem accept_others {body : FrameBody α} (h : transport.accept id call body = .ok t) {other : Nat}
    (hne : other ≠ id) : t.calls[other]? = transport.calls[other]? := by
  have hset : ∀ call' : Call α, (transport.calls.set id call')[other]? = transport.calls[other]? :=
    fun _ => List.getElem?_set_ne (Ne.symm hne)
  cases body with
  | result value =>
    cases h
    exact hset _
  | error valid =>
    cases valid with
    | false => cases h
    | true =>
      cases h
      exact hset _
  | event valid =>
    simp only [accept] at h
    split at h
    · cases h
    split at h
    · cases h
      exact hset _
    · cases h

theorem receive_others {frame : Frame α} (h : transport.receive frame = .ok t) {other : Nat}
    (hne : other ≠ frame.requestId) : t.calls[other]? = transport.calls[other]? := by
  simp only [receive] at h
  split at h
  · cases h
    rfl
  split at h
  · cases h
  split at h
  · cases h
  · exact accept_others h hne

theorem orderly_of_tidy (hs : Sound transport) (ht : Tidy transport) : Orderly transport where
  once := hs.once
  goes _ _ hid hopen hdone := goes_on hid hopen hdone
  ends id call how hid hlea := by
    refine hs.endsBy hid hlea ?_
    rintro rfl
    exact (ht.calls call (mem_of_getElem? hid)).1 hlea
  ordered call hmem := (hs.fit call hmem).ordered
  quiet _ hmem _ hend _ hcal := hs.quiet hmem hend hcal
  late frame h := by rw [receive, if_pos (ht.cancelled_iff.mp h)]
  strange frame hcan hawa := by
    rw [receive, if_neg (fun h => hcan (ht.cancelled_iff.mpr h))]
    cases hpen : transport.pending frame.requestId with
    | none => rfl
    | some call =>
      obtain ⟨hid, hreg⟩ := pending_eq_some hpen
      have hdone : call.future.done = true := by
        by_contra hnot
        exact hawa ⟨call, hid, hreg, by simpa using hnot⟩
      simp [hdone]
  others _ _ h _ hne := receive_others h hne
  requests := hs.requests
  events := hs.events
  idle := hs.idle

theorem not_orderly_of_lost (hcan : t.Cancelled id) (hid : t.calls[id]? = some call')
    (hleft : call'.registered = false) (hgra : id ∉ t.cancelledRequests) : ¬ Orderly t := by
  intro hord
  have hpen : t.pending id = none := by simp [pending, hid, hleft]
  have hlate := hord.late { requestId := id, body := .error true } hcan
  simp [receive, hgra, hpen] at hlate

end Orderly

def Future.isResult (future : Future α) : Bool :=
  match future with
  | result _ => true
  | pending | rejected | closed | cancelled => false

def Call.Undisturbed (call : Call α) : Prop :=
  if call.registered then
    if call.future.isCancelled then call.active = 0
    else call.mustCancel = false ∧ (call.future.isResult = true → call.tail.cancels = false)
  else call.mustCancel = false

def Undisturbed (transport : Transport α) (e : Event α) : Prop :=
  match e with
  | .sent _ ok => ok = true
  | .cancel id => ∀ call : Call α, transport.calls[id]? = some call → call.stage = .emitting →
      call.future.done = false ∧ call.active = 0
  | .resume id _ => ∀ call : Call α, transport.calls[id]? = some call → call.Undisturbed
  | .request _ | .frame _ | .eof | .start _ _ | .finish _ _ _ | .skip _ _ _ | .settle _ _ => True

instance (call : Call α) : Decidable call.Undisturbed :=
  inferInstanceAs (Decidable (if call.registered then
    if call.future.isCancelled then call.active = 0
    else call.mustCancel = false ∧ (call.future.isResult = true → call.tail.cancels = false)
  else call.mustCancel = false))

instance [DecidableEq α] (transport : Transport α) (e : Event α) : Decidable (Undisturbed transport e) :=
  match e with
  | .sent _ ok => inferInstanceAs (Decidable (ok = true))
  | .cancel id => inferInstanceAs (Decidable (∀ call : Call α, transport.calls[id]? = some call → call.stage = .emitting →
      call.future.done = false ∧ call.active = 0))
  | .resume id _ =>
    inferInstanceAs (Decidable (∀ call : Call α, transport.calls[id]? = some call → call.Undisturbed))
  | .request _ | .frame _ | .eof | .start _ _ | .finish _ _ _ | .skip _ _ _ | .settle _ _ =>
    inferInstanceAs (Decidable True)

section Steps

variable {transport t : Transport α} {call call' : Call α} {id : Nat} {how : Ending α}

theorem Tidy.of_set (ht : Tidy transport) (hcal : t.calls = transport.calls.set id call') (hcall : call'.Tidy)
    (hgra : t.cancelledRequests = transport.cancelledRequests) (hend : t.endings = transport.endings) :
    Tidy t where
  graves := by rw [hgra, ht.graves, recent, recent, cancellations,
    cancellations, hend]
  calls other hmem := by
    rw [hcal] at hmem
    rcases mem_set_of hmem with hold | rfl
    · exact ht.calls other hold
    · exact hcall

theorem Tidy.not_buried (ht : Tidy transport) (hs : Sound transport) (hid : transport.calls[id]? = some call)
    (hopen : Open call.stage) : id ∉ transport.cancelledRequests := by
  intro hmem
  rw [ht.graves] at hmem
  obtain ⟨⟨other, how⟩, hend, rfl⟩ := mem_map.mp (mem_of_mem_lastOf hmem)
  obtain ⟨found, hfound, hende⟩ := (hs.ended _ how).mp (mem_filter.mp hend).1
  rw [hid, some_inj] at hfound
  subst hfound
  exact hopen how hende

theorem cancellations_concat (h : t.endings = transport.endings ++ [(id, how)]) : t.cancellations =
      if how.isCancelled = true then transport.cancellations ++ [id] else transport.cancellations := by
  cases hhow : how.isCancelled <;> simp [cancellations, h, filter_append, hhow]

theorem Tidy.conclude_done (ht : Tidy transport) (hmust : call.mustCancel = false) (hdone : call.future.done = true)
    (hcan : call.future.isCancelled = false) (hhow : how.isCancelled = false) (hsent : how ≠ .unsent) :
    Tidy (transport.conclude id call how) := by
  have hcon : transport.conclude id call how =
      { transport.update id { call with stage := .ended how } with endings := transport.endings ++ [(id, how)] } := by
    simp [conclude, hmust, hdone, hcan]
    rfl
  rw [hcon]
  refine ⟨?_, ?_⟩
  · rw [recent, cancellations_concat rfl, if_neg (by simp [hhow])]
    exact ht.graves
  intro other hmem
  rcases mem_set_of hmem with hold | rfl
  · exact ht.calls other hold
  refine ⟨?_, by simp, by simp [hcan]⟩
  rintro (h | h)
  · cases h
  · cases h
    exact hsent rfl

theorem Tidy.conclude_cancelled (ht : Tidy transport) (hmust : call.mustCancel = false)
    (hfut : call.future.done = false ∨ call.future.isCancelled = true) :
    Tidy (transport.conclude id call .cancelled) := by
  have hcan : (if call.future.done = true then call.future else .cancelled) = .cancelled := by
    cases h : call.future <;> simp_all [Future.done, Future.isCancelled]
  have hcon : transport.conclude id call .cancelled =
      { transport.update id { call with stage := .ended .cancelled, future := .cancelled } with
        cancelledRequests := transport.buried id, endings := transport.endings ++ [(id, .cancelled)] } := by
    simp only [conclude, hmust, hcan]
    rfl
  rw [hcon]
  refine ⟨?_, ?_⟩
  · rw [recent, cancellations_concat rfl, if_pos (show (Ending.cancelled : Ending α).isCancelled = true from rfl),
       lastOf_concat _ _ (by decide)]
    simp only [buried, ht.graves, recent]
  intro other hmem
  rcases mem_set_of hmem with hold | rfl
  · exact ht.calls other hold
  · exact ⟨by simp [Leaving], by simp, by simp⟩

theorem Tidy.leave_answered (ht : Tidy transport) (hdone : call.future.done = true)
    (hcan : call.future.isCancelled = false) (hhow : how.isCancelled = false) (hsent : how ≠ .unsent) :
    Tidy (transport.leave id call how) := by
  unfold leave
  split
  · exact ht.conclude_done rfl hdone hcan hhow hsent
  refine ht.of_set rfl ⟨?_, ?_, by simp [hcan]⟩ rfl rfl
  · rintro (h | h)
    · cases h
      exact hsent rfl
    · cases h
  intro h
  cases h
  cases hhow

theorem Tidy.leave_cancelled (ht : Tidy transport) (hact : call.active = 0)
    (hfut : call.future.done = false ∨ call.future.isCancelled = true) :
    Tidy (transport.leave id call .cancelled) := by
  rw [leave, if_pos hact]
  exact ht.conclude_cancelled rfl hfut

theorem cancels_of_fails {state : TaskState} (h : state.fails = true) : state.cancels = false := by
  cases state with
  | skipped failure => cases failure <;> simp_all [TaskState.fails, TaskState.cancels]
  | _ => simp_all [TaskState.fails, TaskState.cancels]

variable {valid : Bool}

theorem departure_cases (hreg : call.registered = true) (h : call.departure valid = some how) :
    call.Undisturbed ∧ (call.future.isCancelled = true ∧ call.active = 0 ∧ how = .cancelled ∨
        call.future.done = true ∧ call.future.isCancelled = false ∧ how.isCancelled = false ∧ how ≠ .unsent) ∨
      ¬ call.Undisturbed ∧ how = .cancelled ∧
        (call.active ≠ 0 ∨ call.future.done = true ∧ call.future.isCancelled = false) := by
  rw [Call.Undisturbed, if_pos hreg]
  unfold Call.departure at h
  cases hfut : call.future with
  | pending => simp [hfut] at h
  | cancelled =>
    simp only [hfut, some_inj] at h
    by_cases hact : call.active = 0
    · exact .inl ⟨hact, .inl ⟨rfl, hact, h.symm⟩⟩
    · exact .inr ⟨hact, h.symm, .inl hact⟩
  | rejected | closed =>
    simp only [hfut, some_inj] at h
    cases hmust : call.mustCancel with
    | true => simp_all [Future.done, Future.isCancelled]
    | false =>
      rw [if_neg (by simp [hmust])] at h
      subst h
      exact .inl ⟨by simp [Future.isCancelled, Future.isResult], .inr ⟨rfl, rfl, rfl, by simp⟩⟩
  | result value =>
    simp only [hfut] at h
    cases hmust : call.mustCancel with
    | true => simp_all [Future.done, Future.isCancelled]
    | false =>
      rw [if_neg (by simp [hmust])] at h
      obtain ⟨_, htail⟩ := ite_none_right_eq_some.mp h
      rw [some_inj, Call.afterTail] at htail
      split at htail
      · subst htail
        exact .inl ⟨⟨rfl, fun _ => cancels_of_fails ‹_›⟩, .inr ⟨rfl, rfl, rfl, by simp⟩⟩
      split at htail
      · subst htail
        refine .inr ⟨fun hall => ?_, rfl, .inr ⟨rfl, rfl⟩⟩
        have hnev := hall.2 rfl
        simp_all
      refine .inl ⟨⟨rfl, fun _ => by simpa using ‹¬ call.tail.cancels = true›⟩, .inr ⟨rfl, rfl, ?_, ?_⟩⟩
      · subst htail
        split <;> rfl
      · subst htail
        split <;> simp

theorem not_cancels_of_live {state : TaskState} (h : state.done = false) : state.cancels = false := by
  cases state <;> simp_all [TaskState.done, TaskState.cancels]

theorem waits_of_departure (hdone : call.future.done = true) (h : call.departure valid = none) :
    ∃ value, call.future = .result value ∧ call.mustCancel = false ∧ call.tail.done = false := by
  unfold Call.departure at h
  cases hfut : call.future with
  | pending => simp [hfut, Future.done] at hdone
  | result value =>
    simp only [hfut] at h
    split at h
    · cases h
    split at h
    · cases h
    · exact ⟨value, rfl, by simpa using ‹¬ call.mustCancel = true›, by simpa using ‹¬ call.tail.done = true›⟩
  | _ => simp [hfut] at h

theorem done_of_endsAs (h : EndsAs call how) (hhow : how.isCancelled = false) (hsent : how ≠ .unsent) :
    call.future.done = true := by
  cases how with
  | returned value => rw [h.1]; rfl
  | invalid =>
    obtain ⟨value, hval⟩ := h
    rw [hval]
    rfl
  | rejected => rw [show call.future = .rejected from h]; rfl
  | closed => rw [show call.future = .closed from h]; rfl
  | callbackFailed =>
    obtain ⟨⟨value, hval⟩, _⟩ := h
    rw [hval]
    rfl
  | cancelled => cases hhow
  | unsent => exact absurd rfl hsent

def Decides (transport : Transport α) (e : Event α) (t : Transport α) : Prop :=
  Undisturbed transport e ∧ Tidy t ∨ ¬ Undisturbed transport e ∧ ¬ Orderly t

section OneCall

variable (hid : transport.calls[id]? = some call)
include hid

theorem conclude_lost (hgra : id ∉ transport.cancelledRequests)
    (hver : verdict call' how = .cancelled)
    (hsame : (transport.conclude id call' how).cancelledRequests = transport.cancelledRequests) :
    ¬ Orderly (transport.conclude id call' how) := by
  have hself : (transport.conclude id call' how).calls[id]? = some (concluded call' how) := by
    rw [conclude_calls, getElem?_set_self_of hid]
  refine not_orderly_of_lost (.inl ?_) hself ?_ (hsame ▸ hgra)
  · rw [recent, cancellations_concat conclude_endings, hver,
      if_pos (show (Ending.cancelled : Ending α).isCancelled = true from rfl)]
    exact mem_lastOf_concat _ _ (by decide)
  · rw [Call.registered, concluded_stage]
    rfl

theorem leave_lost (hgra : id ∉ transport.cancelledRequests)
    (h : call.active ≠ 0 ∨ call.future.done = true ∧ call.future.isCancelled = false) :
    ¬ Orderly (transport.leave id call .cancelled) := by
  unfold leave
  split
  case isTrue hact =>
    obtain ⟨hdone, hcan⟩ := h.resolve_left (fun hnot => hnot hact)
    exact conclude_lost hid hgra rfl (by simp [conclude, update, hdone, hcan])
  case isFalse =>
    exact not_orderly_of_lost (.inr ⟨_, getElem?_set_self_of hid, .inr rfl⟩) (getElem?_set_self_of hid) rfl hgra

theorem leave_unsent : ¬ Orderly (transport.leave id call .unsent) := by
  intro hord
  have hends := hord.ends id
  unfold leave at hends
  split at hends
  · exact hends (concluded { call with mustCancel := false } .unsent) .unsent
      (by rw [conclude_calls, getElem?_set_self_of hid]) (.inr concluded_stage)
  · exact hends _ .unsent (getElem?_set_self_of hid) (.inl rfl)

theorem decides_sent (ht : Tidy transport) {ok : Bool}
    (h : transport.sentCall id call ok = some t) : Decides transport (.sent id ok) t := by
  unfold sentCall at h
  cases hstage : call.stage with
  | emitting =>
    simp only [hstage] at h
    cases ok with
    | true =>
      cases h
      exact .inl ⟨rfl, ht.of_set rfl ⟨by simp [Leaving], by simp, by simp⟩ rfl rfl⟩
    | false =>
      cases h
      exact .inr ⟨by simp [Undisturbed], leave_unsent hid⟩
  | _ => simp [hstage] at h

theorem decides_cancel (hs : Sound transport) (ht : Tidy transport)
    (h : transport.cancelCall id call = some t) : Decides transport (.cancel id) t := by
  have hcall := ht.calls call (mem_of_getElem? hid)
  have hcalm : call.stage ≠ .emitting → Undisturbed transport (.cancel id) := by
    intro hne found hfound hemi
    rw [hid, some_inj] at hfound
    exact absurd (hfound ▸ hemi) hne
  unfold cancelCall at h
  cases hstage : call.stage with
  | emitting =>
    simp only [hstage] at h
    cases h
    by_cases hear : call.future.done = false ∧ call.active = 0
    · refine .inl ⟨?_, ht.leave_cancelled hear.2 (.inl hear.1)⟩
      intro found hfound _
      rw [hid, some_inj] at hfound
      exact hfound ▸ hear
    refine .inr ⟨fun hall => hear (hall call hid hstage), ?_⟩
    have hcan : call.future.isCancelled = false := by
      by_contra hnot
      simpa [hstage] using hcall.2.2 (by simpa using hnot)
    refine leave_lost hid (ht.not_buried hs hid (by simp [Open, hstage])) ?_
    by_cases hdone : call.future.done = true
    · exact .inr ⟨hdone, hcan⟩
    · exact .inl (fun hact => hear ⟨by simpa using hdone, hact⟩)
  | waiting =>
    simp only [hstage] at h
    split at h
    all_goals
      cases h
      exact .inl ⟨hcalm (by simp [hstage]), ht.of_set rfl ⟨by simp [Leaving], by simp, by simp⟩ rfl rfl⟩
  | draining =>
    have htidy : call.future.isCancelled = false := by
      by_contra hnot
      simpa [hstage] using hcall.2.2 (by simpa using hnot)
    simp only [hstage] at h
    split at h
    all_goals
      cases h
      exact .inl ⟨hcalm (by simp [hstage]), ht.of_set rfl ⟨by simp [Leaving], by simp, by simp [htidy]⟩ rfl rfl⟩
  | closing how =>
    simp only [hstage] at h
    cases h
    refine .inl ⟨hcalm (by simp [hstage]), ht.of_set rfl ?_ rfl rfl⟩
    simp only [Call.Tidy, hstage] at hcall
    exact hcall
  | ended how => simp [hstage] at h

theorem undisturbed_resume (h : call.Undisturbed) : Undisturbed transport (.resume id valid) := by
  intro found hfound
  rw [hid, some_inj] at hfound
  exact hfound ▸ h

theorem decides_departure (hs : Sound transport) (ht : Tidy transport) (hreg : call.registered = true) (h : call.departure valid = some how) :
    Decides transport (.resume id valid) (transport.leave id call how) := by
  rcases departure_cases hreg h with ⟨hcall, hlea⟩ | ⟨hcall, rfl, hlost⟩
  · refine .inl ⟨undisturbed_resume hid hcall, ?_⟩
    rcases hlea with ⟨hcan, hact, rfl⟩ | ⟨hdone, hcan, hhow, hsent⟩
    · exact ht.leave_cancelled hact (.inr hcan)
    · exact ht.leave_answered hdone hcan hhow hsent
  · exact .inr ⟨fun hall => hcall (hall call hid),
      leave_lost hid (ht.not_buried hs hid (open_of_registered hreg)) hlost⟩

theorem decides_resume (hs : Sound transport) (ht : Tidy transport)
    (h : transport.resumeCall id call valid = some t) : Decides transport (.resume id valid) t := by
  have hcall := ht.calls call (mem_of_getElem? hid)
  rcases resumeCall_cases h with ⟨how, hreg, hdep, rfl⟩ | ⟨hstage, hdep, hdone, rfl⟩ | ⟨how, hstage, -, rfl⟩
  · exact decides_departure hid hs ht hreg hdep
  · have hreg : call.registered = true := by rw [Call.registered, hstage]; rfl
    obtain ⟨value, hfut, hmust, htail⟩ := waits_of_departure hdone hdep
    refine .inl ⟨undisturbed_resume hid ?_, ht.of_set rfl ⟨?_, by simp, ?_⟩ rfl rfl⟩
    · rw [Call.Undisturbed, if_pos hreg, if_neg (by simp [hfut, Future.isCancelled])]
      exact ⟨hmust, fun _ => not_cancels_of_live htail⟩
    · simp [Leaving]
    · simp [hfut, Future.isCancelled]
  · have hreg : call.registered = false := by rw [Call.registered, hstage]; rfl
    have hopen : Open call.stage := by simp [Open, hstage]
    have hnotH : how.isCancelled = false := by
      cases how with
      | cancelled => exact absurd hstage hcall.2.1
      | _ => rfl
    have hsent : how ≠ .unsent := by
      rintro rfl
      exact hcall.1 (.inl hstage)
    cases hmust : call.mustCancel with
    | true =>
      refine .inr ⟨fun hall => ?_, conclude_lost hid (ht.not_buried hs hid hopen) (by simp [verdict, hmust])
        (by simp [conclude, update, hmust])⟩
      have hcle := hall call hid
      simp [Call.Undisturbed, hreg, hmust] at hcle
    | false =>
      have hends := (hs.fit call (mem_of_getElem? hid)).ends how (.inl hstage)
      have hcan : call.future.isCancelled = false := by
        by_contra hnot
        simpa [hstage] using hcall.2.2 (by simpa using hnot)
      refine .inl ⟨undisturbed_resume hid (by simp [Call.Undisturbed, hreg, hmust]), ?_⟩
      exact ht.conclude_done hmust (done_of_endsAs hends hnotH hsent) hcan hnotH hsent

theorem Tidy.accept (ht : Tidy transport) (hcan : call.future.isCancelled = false) {body : FrameBody α} (h : transport.accept id call body = .ok t) :
    Tidy t := by
  have hcall := ht.calls call (mem_of_getElem? hid)
  cases body with
  | result value =>
    cases h
    exact ht.of_set rfl ⟨hcall.1, hcall.2.1, by simp [Future.isCancelled]⟩ rfl rfl
  | error valid =>
    cases valid with
    | false => cases h
    | true =>
      cases h
      exact ht.of_set rfl ⟨hcall.1, hcall.2.1, by simp [Future.isCancelled]⟩ rfl rfl
  | event valid =>
    simp only [Transport.accept] at h
    split at h
    · cases h
    split at h
    · cases h
      exact ht.of_set rfl ⟨hcall.1, hcall.2.1, by simp [hcan]⟩ rfl rfl
    · cases h

end OneCall

theorem Tidy.receive (ht : Tidy transport) {frame : Frame α} (h : transport.receive frame = .ok t) : Tidy t := by
  simp only [Transport.receive] at h
  split at h
  · cases h
    exact ht
  case isFalse hstr =>
    split at h
    · cases h
    case h_2 found hpen =>
      split at h
      · cases h
      obtain ⟨hid, hreg⟩ := pending_eq_some hpen
      refine ht.accept hid ?_ h
      by_contra hnot
      exact hstr (.inr (pending_any.mpr ⟨found, hid, hreg, by simpa using hnot⟩))

theorem Tidy.callback {callback : Callback} {k : Nat} (ht : Tidy transport) (hid : transport.calls[id]? = some call) :
    Tidy (transport.setCallback id call k callback) :=
  ht.of_set rfl (ht.calls call (mem_of_getElem? hid)) rfl rfl

theorem Tidy.request (ht : Tidy transport) (progress : Bool) :
    Tidy { transport with calls := transport.calls ++ [{ progress := progress }] } where
  graves := ht.graves
  calls call hmem := by
    rcases mem_append.mp hmem with hold | hnew
    · exact ht.calls call hold
    · rw [mem_singleton.mp hnew]
      exact ⟨by simp [Leaving], by simp, by simp [Future.isCancelled]⟩

theorem Tidy.close (ht : Tidy transport) : Tidy transport.close where
  graves := ht.graves
  calls call hmem := by
    obtain ⟨old, hold, rfl⟩ := mem_map.mp hmem
    obtain ⟨huns, hclo, hcan⟩ := ht.calls old hold
    unfold Call.shut
    split
    · exact ⟨huns, hclo, by simp [Future.isCancelled]⟩
    · exact ⟨huns, hclo, hcan⟩

theorem Tidy.decides {e : Event α} (hs : Sound transport) (ht : Tidy transport) (h : transport.next e = some t) :
    Decides transport e t := by
  cases e with
  | request progress =>
    simp only [Transport.next] at h
    split at h
    · cases h
      exact .inl ⟨trivial, ht⟩
    · cases h
      exact .inl ⟨trivial, ht.request progress⟩
  | sent id ok =>
    obtain ⟨call, hid, hnext⟩ := withCall_eq_some h
    exact decides_sent hid ht hnext
  | frame frame =>
    simp only [Transport.next] at h
    split at h
    · cases h
      exact .inl ⟨trivial, ht.receive ‹_›⟩
    · cases h
      exact .inl ⟨trivial, ht⟩
  | eof =>
    cases h
    exact .inl ⟨trivial, ht.close⟩
  | cancel id =>
    obtain ⟨call, hid, hnext⟩ := withCall_eq_some h
    exact decides_cancel hid hs ht hnext
  | resume id valid =>
    obtain ⟨call, hid, hnext⟩ := withCall_eq_some h
    exact decides_resume hid hs ht hnext
  | start _ _ | finish _ _ _ | skip _ _ _ =>
    obtain ⟨call, callback, hid, _, hnext⟩ := withCallback_eq_some h
    obtain ⟨_, hset⟩ := ite_none_right_eq_some.mp hnext
    cases hset
    exact .inl ⟨trivial, ht.callback hid⟩
  | settle id k =>
    obtain ⟨call, callback, hid, _, hnext⟩ := withCallback_eq_some h
    obtain ⟨_, hset⟩ := ite_none_right_eq_some.mp hnext
    cases hset
    exact .inl ⟨trivial, ht.of_set rfl (ht.calls call (mem_of_getElem? hid)) rfl rfl⟩

theorem Tidy.initial : Tidy ({} : Transport α) :=
  ⟨by simp [recent, cancellations, lastOf], by simp⟩

end Steps

/-- In every run the requests stay orderly exactly as long as no write fails, no cancellation meets a request that is
being written once it is answered or has callbacks, and no request ends cancelled but by its future. -/
theorem requests_settle_iff {transport : Transport α} {es : List (Event α)}
    (h : Runs.run Transport.next ({} : Transport α) es = some transport) :
    (∀ pre post reached, es = pre ++ post → Runs.run Transport.next ({} : Transport α) pre = some reached → Orderly reached) ↔
      Runs.Meets Transport.next Undisturbed {} es := by
  refine Runs.always_iff_meets_of (I := fun transport => Sound transport ∧ Tidy transport) (J := Sound)
    (fun _ hs => orderly_of_tidy hs.1 hs.2) (fun _ _ _ hs he => hs.next he) ?_ Sound.initial
    ⟨Sound.initial, Tidy.initial⟩ h
  intro before e after hs hI he
  rcases hI.2.decides hs he with ⟨hcle, htidy⟩ | ⟨hdis, hbro⟩
  · exact ⟨iff_of_true (orderly_of_tidy (hs.next he) htidy) hcle, fun _ => ⟨hs.next he, htidy⟩⟩
  · exact ⟨iff_of_false hbro hdis, fun hord => absurd hord hbro⟩

def quietRun : List (Event Nat) :=
  [.request true, .sent 0 true, .frame { requestId := 0, body := .event true }, .start 0 0, .finish 0 0 .ok, .settle 0 0,
    .cancel 0, .resume 0 true, .frame { requestId := 0, body := .result 5 }, .request false, .sent 1 true,
    .frame { requestId := 1, body := .result 7 }, .resume 1 true, .eof]

def racedRun : List (Event Nat) :=
  [.request true, .sent 0 true, .frame { requestId := 0, body := .event true }, .start 0 0, .cancel 0, .resume 0 true]

theorem quiet_run_settles : ∃ reached, Runs.run Transport.next ({} : Transport Nat) quietRun = some reached ∧
    reached.endings.map Prod.fst = [0, 1] ∧ Orderly reached :=
  ⟨_, rfl, rfl, (requests_settle_iff rfl).mpr
    (Runs.meets_of_all (p := fun transport e => decide (Undisturbed transport e)) (fun _ _ => of_decide_eq_true) (by decide))
    quietRun [] _ (append_nil _).symm rfl⟩

theorem late_answer_rejected : ¬ ∀ (es : List (Event Nat)) (transport : Transport Nat),
      Runs.run Transport.next ({} : Transport Nat) es = some transport → Orderly transport := by
  intro hall
  have hord := hall racedRun _ rfl
  exact not_orderly_of_lost (.inr ⟨_, rfl, .inr rfl⟩ : Cancelled _ 0) rfl rfl (by decide) hord

end OpenAgent.Channels.Stdio
