import OpenAgent.Gateway.Capabilities.Frames

namespace OpenAgent.Gateway.Capabilities

open Py World

def World.hosts (w : World) (o : TurnExecutionOrigin) (c : ConnId) : Prop :=
  w.connections.get? o.key = some c ∧ (w.conn c).generation = o.generation ∧ (w.conn c).authEpoch = o.authEpoch

structure Quiet (w u : World) : Prop where
  inert : Inert w u
  calls : u.calls = w.calls
  trace : u.trace = w.trace
  pending : ∀ r, u.pending r = { w.pending r with future := (u.pending r).future } ∧
    ((u.pending r).future = (w.pending r).future ∨ (u.pending r).future = .cancelled)

namespace Quiet

theorem refl (w : World) : Quiet w w := ⟨Inert.refl w, rfl, rfl, fun _ => ⟨rfl, .inl rfl⟩⟩

theorem popPending (w : World) (id : CallId) (t : CallTask) : Quiet w (w.popPending id t) :=
  ⟨popPending_inert w id t, rfl, rfl, fun _ => ⟨rfl, .inl rfl⟩⟩

theorem cancelFuture (w : World) (id : CallId) (t : CallTask) : Quiet w (w.cancelFuture id t) where
  inert := cancelFuture_inert w id t
  calls := rfl
  trace := rfl
  pending := by
    intro r
    by_cases hr : r = ⟨id, t.attempt⟩
    · subst hr
      simp only [World.cancelFuture, World.setPending, Function.update_self]
      split
      · exact ⟨rfl, .inl rfl⟩
      · exact ⟨rfl, .inr rfl⟩
    · simp [World.cancelFuture, World.setPending, hr]

theorem hosts {w u : World} (h : Quiet w u) {o : TurnExecutionOrigin} {c : ConnId}
    (hc : u.hosts o c) : w.hosts o c := by
  obtain ⟨hk, hg, he⟩ := hc
  have hi := h.inert.identity c
  have hcon : u.connections = w.connections := by rw [h.inert.rest]
  exact ⟨hcon ▸ hk, (congrArg Identity.generation hi).symm.trans hg, (congrArg Identity.authEpoch hi).symm.trans he⟩

end Quiet

def CallTask.continues (t s : CallTask) : Prop :=
  s = { t with conn := s.conn, attempt := s.attempt, phase := s.phase }

def CallTask.retries (t : CallTask) : Prop :=
  t.classification.safeToRetry = true ∨ t.phase = .reconnecting

def Ends (w : World) (id : CallId) (t : CallTask) (o : Outcome) : Prop :=
  let p := w.pending ⟨id, t.attempt⟩
  o = .cancelled ∨ (∃ e, o = .raised (.capability e) ∧ e.code = "CLIENT_RESULT_INDETERMINATE") ∨
    p.determinateResponseReceived = true ∨ p.resultMayBeIndeterminate = false ∨
    (∃ value, p.future = .result value) ∨ t.retries

/-- One turn of the retry loop, on a connection that the registry has just returned. -/
inductive Attempts (w : World) (id : CallId) (t : CallTask) : World → Prop
  | fails (u : World) (s : CallTask) (e : ClientCapabilityError) (hu : Quiet w u)
      (hs : t.continues s) (hc : w.hosts t.origin s.conn) : Attempts w id t (u.fail id s e)
  | opens (u : World) (s : CallTask) (hu : Quiet w u) (hs : t.continues s)
      (hc : w.hosts t.origin s.conn) :
      Attempts w id t ((u.openAttempt id s).setCall id { s with phase := .recording })
  | dispatches (u : World) (s : CallTask) (hu : Quiet w u) (hs : t.continues s)
      (hc : w.hosts t.origin s.conn) : Attempts w id t ((u.openAttempt id s).sendCall id s)

inductive CallMove (w : World) (id : CallId) (t : CallTask) : World → Prop
  | ends (u : World) (o : Outcome) (hu : Quiet w u) (ho : Ends w id t o) :
      CallMove w id t (u.endCall id t o)
  | cancels (u : World) (cause : CancelCause) (hu : Quiet w u) :
      CallMove w id t (u.sendCancel id t cause)
  | waits (ht : t.phase = .sending) : CallMove w id t (w.setCall id { t with phase := .awaitingResult })
  | parks (u : World) (hu : Quiet w u) (ht : t.retries) :
      CallMove w id t (u.setCall id { t with phase := .reconnecting })
  | attempts (v : World) (ht : t.retries) (h : Attempts w id t v) : CallMove w id t v

namespace World

variable {w u : World} {id : CallId} {t : CallTask}

theorem fail_moves (hu : Quiet w u) (ht : t.retries) (e : ClientCapabilityError) :
    CallMove w id t (u.fail id t e) := .ends u _ hu (by simp [Ends, ht])

theorem attempt_attempts {s : CallTask} (hu : Quiet w u) (hs : t.continues s)
    (hc : w.hosts t.origin s.conn) (now : Int) : Attempts w id t (u.attempt id s now) := by
  have hs' : t.continues { s with attempt := s.attempt + 1 } := by
    unfold CallTask.continues at hs ⊢
    rw [hs]
  simp only [attempt]
  split
  · exact .fails u _ _ hu hs' hc
  split
  · exact .fails u _ _ hu hs' hc
  split
  · exact .fails u _ _ hu hs' hc
  split
  · exact .opens u _ hu hs' hc
  · exact .dispatches u _ hu hs' hc

theorem reconnect_moves (hu : Quiet w u) (ht : t.retries) (now : Int) : CallMove w id t (u.reconnect id t now) := by
  have hfail : ∀ e, CallMove w id t (u.fail id t e) :=
    fun e => fail_moves hu ht e
  have hwait : ∀ e, CallMove w id t (if t.deadlineAt - now ≤ 0 then u.fail id t e
      else u.setCall id { t with phase := .reconnecting }) := by
    intro e
    split
    · exact hfail e
    · exact .parks u hu ht
  simp only [reconnect]
  split
  · exact hfail _
  split
  · exact hfail _
  cases hk : u.connections.get? t.origin.key with
  | none => exact hwait _
  | some candidate =>
    simp only
    split
    · exact hfail _
    split
    · rename_i hc
      have hs : t.continues { t with conn := candidate } := rfl
      exact .attempts _ ht (attempt_attempts hu hs (hu.hosts ⟨hk, hc.2⟩) now)
    · exact hwait _

theorem handleException_moves (e : PyException) (now : Int) : CallMove w id t (w.handleException id t e now) := by
  have hp := Quiet.popPending w id t
  have hind : ∀ p, CallMove w id t ((w.popPending id t).fail id t (indeterminateError p)) :=
    fun p => .ends _ _ hp (.inr (.inl ⟨_, rfl, rfl⟩))
  cases e with
  | timeout => exact .cancels w _ (Quiet.refl w)
  | capability error =>
    simp only [handleException]
    split
    · exact hind _
    rename_i hpass
    split
    · rename_i hr
      simp only [Bool.and_eq_true] at hr
      exact reconnect_moves hp (.inl hr.1.1) now
    refine .ends _ _ hp ?_
    simp only [Bool.and_eq_true, bne_iff_ne, Bool.not_eq_true', not_and, not_not] at hpass
    by_cases h1 : (w.pending ⟨id, t.attempt⟩).resultMayBeIndeterminate = true
    · by_cases h2 : (w.pending ⟨id, t.attempt⟩).determinateResponseReceived = true
      · exact .inr (.inr (.inl h2))
      · exact .inr (.inl ⟨error, rfl, hpass ⟨h1, Bool.eq_false_iff.mpr h2⟩⟩)
    · exact .inr (.inr (.inr (.inl (Bool.eq_false_iff.mpr h1))))
  | other name =>
    simp only [handleException]
    split
    · exact hind _
    rename_i hpass
    split
    · rename_i hr
      simp only [Bool.and_eq_true] at hr
      exact reconnect_moves hp (.inl hr.1) now
    refine .ends _ _ hp ?_
    simp only [Bool.and_eq_true, Bool.not_eq_true', not_and, Bool.not_eq_false] at hpass
    by_cases h1 : (w.pending ⟨id, t.attempt⟩).resultMayBeIndeterminate = true
    · exact .inr (.inr (.inl (hpass h1)))
    · exact .inr (.inr (.inr (.inl (Bool.eq_false_iff.mpr h1))))

theorem sendDone_moves (ht : t.phase = .sending) (r : Except PyException Bool) (now : Int) :
    CallMove w id t (w.sendDone id t r now) := by
  rcases r with e | _ | _
  · exact handleException_moves e now
  · simp only [sendDone]
    exact handleException_moves _ now
  · exact .waits ht

theorem cancelDone_moves (cause : CancelCause) : CallMove w id t (w.cancelDone id t cause) := by
  have hp := Quiet.popPending w id t
  cases cause with
  | serverCancelled => exact .ends _ _ hp (.inl rfl)
  | deadlineExceeded =>
    simp only [cancelDone]
    split
    · exact .ends _ _ hp (.inr (.inl ⟨_, rfl, rfl⟩))
    · rename_i h
      exact .ends _ _ hp (.inr (.inr (.inr (.inl (Bool.eq_false_iff.mpr h)))))

variable {v : World}

theorem resultReady_moves (now : Int) (h : w.resultReady id t now = some v) : CallMove w id t v := by
  unfold resultReady at h
  split at h <;> cases h
  · rename_i value hf
    exact .ends _ _ (Quiet.popPending w id t) (.inr (.inr (.inr (.inr (.inl ⟨value, hf⟩)))))
  · exact handleException_moves _ now

theorem callTimeout_moves (h : w.callTimeout id t = some v) : CallMove w id t v := by
  unfold callTimeout at h
  split at h <;> cases h
  · exact .cancels _ _ (Quiet.cancelFuture w id t)
  · rename_i hr
    exact fail_moves (Quiet.refl w) (.inr hr) _

theorem callCancel_moves (h : w.callCancel id t = some v) : CallMove w id t v := by
  unfold callCancel at h
  split at h <;> cases h
  · exact .cancels _ _ (Quiet.refl w)
  · exact .cancels _ _ (Quiet.refl w)
  · exact .cancels _ _ (Quiet.cancelFuture w id t)
  · exact .ends w _ (Quiet.refl w) (.inl rfl)

theorem resume_moves (now : Int) (what : Resume) (h : w.resume id t now what = some v) :
    (what = .recorded (.ok ()) ∧ t.phase = .recording ∧ v = w.sendCall id t) ∨ CallMove w id t v := by
  cases what with
  | recorded outcome =>
    simp only [resume, Option.ite_none_right_eq_some, Option.some.injEq] at h
    cases outcome with
    | ok => exact .inl ⟨rfl, h.1, h.2.symm⟩
    | error e => exact .inr (h.2 ▸ handleException_moves e now)
  | sent outcome =>
    simp only [resume, Option.ite_none_right_eq_some, Option.some.injEq] at h
    exact .inr (h.2 ▸ sendDone_moves h.1 outcome now)
  | resultReady =>
    simp only [resume, Option.ite_none_right_eq_some] at h
    exact .inr (resultReady_moves now h.2)
  | timeout => exact .inr (callTimeout_moves h)
  | cancelled => exact .inr (callCancel_moves h)
  | cancelSent =>
    simp only [resume] at h
    split at h <;> cases h
    exact .inr (cancelDone_moves _)
  | connectionChanged =>
    simp only [resume, Option.ite_none_right_eq_some, Option.some.injEq] at h
    exact .inr (h.2 ▸ reconnect_moves (Quiet.refl w) (.inr h.1) now)

theorem requireOrigin_hosts {o : TurnExecutionOrigin} {c : ConnId} (h : w.requireOrigin o = .ok c) : w.hosts o c := by
  unfold requireOrigin at h
  split at h
  · rename_i d hd
    split at h
    · rename_i hc
      cases h
      exact ⟨hd, hc⟩
    · split at h <;> cases h
  · cases h

theorem describeTool_hosts {o : TurnExecutionOrigin} {server tool : String} {c : ConnId}
    {manifest : ToolManifest} (h : w.describeTool o server tool = .ok (c, manifest)) : w.hosts o c := by
  unfold describeTool at h
  split at h
  · cases h
  rename_i d hd
  split at h
  · cases h
  split at h
  · cases h
  · cases h
    exact requireOrigin_hosts hd

theorem prepareCall_hosts {r : ToolCall} {now : Int} (h : w.prepareCall r now = .ok t) : w.hosts t.origin t.conn := by
  unfold prepareCall at h
  split at h
  · cases h
  rename_i c tool hd
  have hc := describeTool_hosts hd
  split at h
  · cases h
  split at h
  · cases h
  split at h
  · cases h
  · cases h
    exact hc

theorem callTool_attempts (r : ToolCall) (now : Int) :
    w.callTool id r now = w ∨ ∃ t, Attempts w id t (w.callTool id r now) := by
  unfold callTool
  cases hp : w.prepareCall r now with
  | error e => exact .inl rfl
  | ok t =>
    have hs : t.continues t := rfl
    exact .inr ⟨t, attempt_attempts (Quiet.refl w) hs (prepareCall_hosts hp) now⟩

theorem resume_live {now : Int} {what : Resume} (h : w.resume id t now what = some v)
    (o : Outcome) : t.phase ≠ .ended o := by
  intro ho
  cases what <;> simp [resume, callTimeout, callCancel, ho] at h

end World

namespace Attempts

variable {w v : World} {id : CallId} {t : CallTask}

theorem inert (h : Attempts w id t v) : Inert w v := by
  cases h with
  | fails u s e hu => exact hu.inert.trans (fail_inert u id s e)
  | opens u s hu => exact (hu.inert.trans (openAttempt_inert u id s)).trans (Inert.setCall _ id _)
  | dispatches u s hu =>
    exact (hu.inert.trans (openAttempt_inert u id s)).trans (sendCall_inert _ id s)

theorem calls (h : Attempts w id t v) : ∃ s, v.calls = Function.update w.calls id (some s) ∧
    t.continues s ∧ w.hosts t.origin s.conn := by
  cases h with
  | fails u s e hu hs hc => exact ⟨{ s with phase := .ended (.raised (.capability e)) },
      by rw [← hu.calls]; rfl, by rw [hs]; rfl, hc⟩
  | opens u s hu hs hc =>
    exact ⟨{ s with phase := .recording }, by rw [← hu.calls]; rfl, by rw [hs]; rfl, hc⟩
  | dispatches u s hu hs hc =>
    exact ⟨{ s with phase := .sending }, by rw [← hu.calls]; rfl, by rw [hs]; rfl, hc⟩

theorem sends (h : Attempts w id t v) : ∃ tr, v.trace = w.trace ++ tr ∧
    ∀ c frame, .toolCallSent c frame ∈ tr → frame.callId = id ∧ w.hosts t.origin c ∧
      ∃ s, v.calls id = some s ∧ s.origin = t.origin := by
  cases h with
  | fails u s e hu => exact ⟨[.callEnded id (.raised (.capability e))], by rw [← hu.trace]; rfl, by simp⟩
  | opens u s hu => exact ⟨[], hu.trace.trans (List.append_nil _).symm, by simp⟩
  | dispatches u s hu hs hc =>
    refine ⟨_, congrArg (· ++ [_]) hu.trace, ?_⟩
    intro c frame hm
    cases List.mem_singleton.mp hm
    refine ⟨rfl, hc, { s with phase := .sending }, Function.update_self .., ?_⟩
    rw [hs]

end Attempts

namespace CallMove

variable {w v : World} {id : CallId} {t : CallTask}

theorem inert (h : CallMove w id t v) : Inert w v := by
  cases h with
  | ends u o hu => exact hu.inert.trans (endCall_inert u id t o)
  | cancels u cause hu => exact hu.inert.trans (sendCancel_inert u id t cause)
  | waits => exact Inert.setCall w id _
  | parks u hu => exact hu.inert.trans (Inert.setCall u id _)
  | attempts _ _ h => exact h.inert

theorem calls (h : CallMove w id t v) : ∃ s, v.calls = Function.update w.calls id (some s) ∧
    t.continues s ∧ (s.conn = t.conn ∨ w.hosts t.origin s.conn) := by
  cases h with
  | ends u o hu => exact ⟨{ t with phase := .ended o }, by rw [← hu.calls]; rfl, rfl, .inl rfl⟩
  | cancels u cause hu =>
    exact ⟨{ t with phase := .cancelling cause }, by rw [← hu.calls]; rfl, rfl, .inl rfl⟩
  | waits => exact ⟨{ t with phase := .awaitingResult }, rfl, rfl, .inl rfl⟩
  | parks u hu => exact ⟨{ t with phase := .reconnecting }, by rw [← hu.calls]; rfl, rfl, .inl rfl⟩
  | attempts _ _ h =>
    obtain ⟨s, hs, ht, hc⟩ := h.calls
    exact ⟨s, hs, ht, .inr hc⟩

theorem sends (h : CallMove w id t v) : ∃ tr, v.trace = w.trace ++ tr ∧
    ∀ c frame, .toolCallSent c frame ∈ tr → frame.callId = id ∧ w.hosts t.origin c ∧
      ∃ s, v.calls id = some s ∧ s.origin = t.origin := by
  cases h with
  | ends u o hu => exact ⟨[.callEnded id o], by rw [← hu.trace]; rfl, by simp⟩
  | cancels u cause hu => exact ⟨[.toolCancelSent t.conn id cause], by rw [← hu.trace]; rfl, by simp⟩
  | waits => exact ⟨[], (List.append_nil _).symm, by simp⟩
  | parks u hu => exact ⟨[], hu.trace.trans (List.append_nil _).symm, by simp⟩
  | attempts _ _ h => exact h.sends

end CallMove

end OpenAgent.Gateway.Capabilities
