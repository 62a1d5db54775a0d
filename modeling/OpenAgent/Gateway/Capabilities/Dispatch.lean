import OpenAgent.Gateway.Capabilities.Admission

namespace OpenAgent.Gateway.Capabilities

open List

def Effect.about (id : CallId) : Effect → Bool
  | .toolCallSent _ frame => frame.callId == id
  | .callEnded id' _ => id' == id
  | _ => false

def isSent (id : CallId) : Effect → Bool
  | .toolCallSent _ frame => frame.callId == id
  | _ => false

/-- How many `client_tool_call` frames of a call were handed to any connection. -/
def sentCount (trace : List Effect) (id : CallId) : Nat := trace.countP (isSent id)

def Answered (trace : List Effect) (id : CallId) : Prop :=
  ∃ r : PendingRef, .determinateResponse r ∈ trace ∧ r.callId = id

def Unknown (o : Outcome) : Prop :=
  o = .cancelled ∨ ∃ e, o = .raised (.capability e) ∧ e.code = "CLIENT_RESULT_INDETERMINATE"

def EndsUnknown (trace : List Effect) (id : CallId) : Prop :=
  ∀ pre o post, trace = pre ++ .callEnded id o :: post → 0 < sentCount pre id → ¬ Answered pre id → Unknown o

structure AtMostOnce (w : World) (id : CallId) (t : CallTask) : Prop where
  unparked : t.phase ≠ .reconnecting
  sent : sentCount w.trace id ≤ 1
  live : (∀ o, t.phase ≠ .ended o) → (w.pending ⟨id, t.attempt⟩).classification = .mutating ∧
    sentCount w.trace id = (w.pending ⟨id, t.attempt⟩).dispatchStarted.toNat
  recording : t.phase = .recording → (w.pending ⟨id, t.attempt⟩).dispatchStarted = false
  ended : EndsUnknown w.trace id

structure CallsSound (w : World) : Prop where
  pending : ∀ r, PendingSound w.trace r (w.pending r)
  fresh : ∀ id, w.calls id = none → ∀ e ∈ w.trace, e.about id = false
  mutating : ∀ id t, w.calls id = some t → t.classification = .mutating → AtMostOnce w id t

structure Local (w v : World) (id : CallId) : Prop where
  calls : ∀ j, j ≠ id → v.calls j = w.calls j
  contract : ∀ r : PendingRef, r.callId ≠ id → (v.pending r).classification = (w.pending r).classification ∧
    (v.pending r).dispatchStarted = (w.pending r).dispatchStarted
  sound : ∀ r, PendingSound w.trace r (w.pending r) → PendingSound v.trace r (v.pending r)
  trace : ∃ tr, v.trace = w.trace ++ tr ∧ ∀ e ∈ tr, ∀ j, j ≠ id → e.about j = false

variable {id : CallId}

theorem isSent_of_about {e : Effect} (h : e.about id = false) : isSent id e = false := by
  cases e with
  | toolCallSent => exact h
  | _ => rfl

theorem about_of_isDispatch {e : Effect} (h : e.isDispatch = false) (id : CallId) : e.about id = false := by
  cases e with
  | toolCallSent | callEnded => cases h
  | _ => rfl

theorem sentCount_append (tr us : List Effect) (id : CallId) :
    sentCount (tr ++ us) id = sentCount tr id + sentCount us id := countP_append

theorem sentCount_of_about {tr : List Effect} (h : ∀ e ∈ tr, e.about id = false) :
    sentCount tr id = 0 := by
  rw [sentCount, countP_eq_zero]
  intro e he
  rw [isSent_of_about (h e he)]
  exact Bool.false_ne_true

section Endings

variable {tr us : List Effect} {id : CallId}

theorem ended_cases {pre post : List Effect} {o : Outcome} (h : tr ++ us = pre ++ .callEnded id o :: post) :
    (∃ rest, tr = pre ++ .callEnded id o :: rest) ∨ (∃ mid, pre = tr ++ mid ∧ us = mid ++ .callEnded id o :: post) := by
  rcases append_eq_append_iff.mp h with ⟨mid, hp, hu⟩ | ⟨mid, ht, hm⟩
  · exact .inr ⟨mid, hp, hu⟩
  cases mid with
  | nil => exact .inr ⟨[], by simpa using ht.symm, by simpa using hm.symm⟩
  | cons e mid =>
    rw [cons_append, List.cons.injEq] at hm
    exact .inl ⟨mid, by rw [ht, ← hm.1]⟩

theorem EndsUnknown.append (h : EndsUnknown tr id) (hu : ∀ e ∈ us, e.about id = false) : EndsUnknown (tr ++ us) id := by
  intro pre o post he
  rcases ended_cases he with ⟨rest, ht⟩ | ⟨mid, _, hm⟩
  · exact h pre o rest ht
  · have ha := hu (.callEnded id o) (hm ▸ mem_append_right _ mem_cons_self)
    simp [Effect.about] at ha

theorem EndsUnknown.end (h : EndsUnknown tr id) {o : Outcome}
    (ho : 0 < sentCount tr id → ¬ Answered tr id → Unknown o) :
    EndsUnknown (tr ++ [.callEnded id o]) id := by
  intro pre o' post he
  rcases ended_cases he with ⟨rest, ht⟩ | ⟨mid, hp, hm⟩
  · exact h pre o' rest ht
  cases mid with
  | nil =>
    cases hm
    rw [append_nil] at hp
    rw [hp]
    exact ho
  | cons e mid => simp at hm

theorem EndsUnknown.of_about (h : ∀ e ∈ tr, e.about id = false) : EndsUnknown tr id := by
  intro pre o post he
  have ha := h (.callEnded id o) (he ▸ mem_append_right _ mem_cons_self)
  simp [Effect.about] at ha

end Endings

variable {t : CallTask}

theorem AtMostOnce.kept {w v : World} {tr : List Effect}
    (h : AtMostOnce w id t) (hv : v.trace = w.trace ++ tr) (htr : ∀ e ∈ tr, e.about id = false)
    (hc : (v.pending ⟨id, t.attempt⟩).classification = (w.pending ⟨id, t.attempt⟩).classification ∧
      (v.pending ⟨id, t.attempt⟩).dispatchStarted = (w.pending ⟨id, t.attempt⟩).dispatchStarted) :
    AtMostOnce v id t := by
  have hsent : sentCount v.trace id = sentCount w.trace id := by
    rw [hv, sentCount_append, sentCount_of_about htr, Nat.add_zero]
  exact ⟨h.unparked, hsent ▸ h.sent, fun hl => by rw [hc.1, hc.2, hsent]; exact h.live hl,
    fun hr => hc.2 ▸ h.recording hr, hv ▸ h.ended.append htr⟩

namespace Local

variable {w v u : World} {id : CallId}

theorem trans (h : Local w v id) (k : Local v u id) : Local w u id where
  calls := fun j hj => (k.calls j hj).trans (h.calls j hj)
  contract := fun r hr =>
    ⟨(k.contract r hr).1.trans (h.contract r hr).1, (k.contract r hr).2.trans (h.contract r hr).2⟩
  sound := fun r hr => k.sound r (h.sound r hr)
  trace := by
    obtain ⟨tr, hv, htr⟩ := h.trace
    obtain ⟨us, hu, hus⟩ := k.trace
    refine ⟨tr ++ us, by rw [hu, hv, append_assoc], fun e he => ?_⟩
    rcases mem_append.mp he with he | he
    · exact htr e he
    · exact hus e he

theorem of_kept (h : CallsKept w v) : Local w v id where
  calls := fun j _ => by rw [h.calls]
  contract := fun r _ => h.contract r
  sound := h.sound
  trace := by
    obtain ⟨tr, hv, htr⟩ := h.trace
    exact ⟨tr, hv, fun e he j _ => about_of_isDispatch (htr e he) j⟩

theorem of_quiet (h : Quiet w v) : Local w v id where
  calls := fun j _ => by rw [h.calls]
  contract := fun r _ => by rw [(h.pending r).1]; exact ⟨rfl, rfl⟩
  sound := by
    intro r hr
    obtain ⟨hp, hf⟩ := h.pending r
    have hd : (v.pending r).determinateResponseReceived = (w.pending r).determinateResponseReceived := by
      rw [hp]
    refine ⟨fun ⟨value, hv⟩ => ?_, fun hv => ?_⟩
    · rw [hd]
      rcases hf with hf | hf
      · exact hr.1 ⟨value, hf ▸ hv⟩
      · rw [hf] at hv
        cases hv
    · rw [h.trace]
      exact hr.2 (hd ▸ hv)
  trace := ⟨[], h.trace.trans (append_nil _).symm, by simp⟩

theorem setCall (w : World) (id : CallId) (t : CallTask) : Local w (w.setCall id t) id where
  calls := fun _ hj => Function.update_of_ne hj _ _
  contract := fun _ _ => ⟨rfl, rfl⟩
  sound := fun _ h => h
  trace := ⟨[], (append_nil _).symm, by simp⟩

theorem emit (w : World) {e : Effect} (he : ∀ j, j ≠ id → e.about j = false) : Local w (w.emit e) id where
  calls := fun _ _ => rfl
  contract := fun _ _ => ⟨rfl, rfl⟩
  sound := fun _ h => h.of_prefix ⟨_, rfl⟩
  trace := ⟨[e], rfl, by simpa using he⟩

theorem setPending (w : World) (r : PendingRef) {f : PendingCall → PendingCall}
    (hf : PendingSound w.trace r (w.pending r) → PendingSound w.trace r (f (w.pending r))) :
    Local w (w.setPending r f) r.callId where
  calls := fun _ _ => rfl
  contract := by
    intro q hq
    have hne : q ≠ r := fun h => hq (h ▸ rfl)
    simp [World.setPending, hne]
  sound := by
    intro q hq
    by_cases hqr : q = r
    · subst hqr
      simpa [World.setPending] using hf hq
    · simpa [World.setPending, hqr] using hq
  trace := ⟨[], (append_nil _).symm, by simp⟩

theorem endCall (w : World) (id : CallId) (t : CallTask) (o : Outcome) : Local w (w.endCall id t o) id :=
  (setCall w id _).trans (emit _ (fun j hj => by simpa [Effect.about] using hj.symm))

theorem sendCall (w : World) (id : CallId) (t : CallTask) : Local w (w.sendCall id t) id :=
  ((setPending w ⟨id, t.attempt⟩ (fun h => h)).trans (setCall _ id _)).trans
    (emit _ (fun j hj => by simpa [Effect.about] using hj.symm))

theorem openAttempt (w : World) (id : CallId) (t : CallTask) : Local w (w.openAttempt id t) id :=
  (setPending w ⟨id, t.attempt⟩ (fun _ => by exact ⟨fun ⟨_, h⟩ => (nomatch h), fun h => nomatch h⟩)).trans
    (of_kept (Removes.setConn _ _ (fun _ => by rfl)).toCallsKept)

theorem of_attempts (h : Attempts w id t v) : Local w v id := by
  cases h with
  | fails u s e hu => exact (of_quiet hu).trans (endCall u id s _)
  | opens u s hu => exact ((of_quiet hu).trans (openAttempt u id s)).trans (setCall _ id _)
  | dispatches u s hu => exact ((of_quiet hu).trans (openAttempt u id s)).trans (sendCall _ id s)

theorem of_move (h : CallMove w id t v) : Local w v id := by
  cases h with
  | ends u o hu => exact (of_quiet hu).trans (endCall u id t o)
  | cancels u cause hu => exact ((of_quiet hu).trans (setCall u id _)).trans (emit _ (fun _ _ => rfl))
  | waits => exact setCall w id _
  | parks u hu => exact (of_quiet hu).trans (setCall u id _)
  | attempts _ _ h => exact of_attempts h

theorem atMostOnce (h : Local w v id) {j : CallId} (hj : j ≠ id) (ht : AtMostOnce w j t) : AtMostOnce v j t := by
  obtain ⟨tr, hv, htr⟩ := h.trace
  exact ht.kept hv (fun e he => htr e he j hj) (h.contract _ hj)

theorem callsSound (h : Local w v id) (hw : CallsSound w) (ht : v.calls id = some t)
    (hid : t.classification = .mutating → AtMostOnce v id t) : CallsSound v where
  pending := fun r => h.sound r (hw.pending r)
  fresh := by
    intro j hj
    have hne : j ≠ id := by
      rintro rfl
      rw [ht] at hj
      cases hj
    obtain ⟨tr, hv, htr⟩ := h.trace
    rw [h.calls j hne] at hj
    rw [hv]
    intro e he
    rcases mem_append.mp he with he | he
    · exact hw.fresh j hj e he
    · exact htr e he j hne
  mutating := by
    intro j s hs hm
    by_cases hj : j = id
    · subst hj
      rw [ht] at hs
      cases hs
      exact hid hm
    · rw [h.calls j hj] at hs
      exact h.atMostOnce hj (hw.mutating j s hs hm)

end Local

theorem CallsKept.callsSound {w v : World} (h : CallsKept w v) (hw : CallsSound w) : CallsSound v where
  pending := fun r => h.sound r (hw.pending r)
  fresh := by
    intro j hj
    obtain ⟨tr, hv, htr⟩ := h.trace
    rw [h.calls] at hj
    rw [hv]
    intro e he
    rcases mem_append.mp he with he | he
    · exact hw.fresh j hj e he
    · exact about_of_isDispatch (htr e he) j
  mutating := by
    intro j s hs hm
    obtain ⟨tr, hv, htr⟩ := h.trace
    rw [h.calls] at hs
    exact (hw.mutating j s hs hm).kept hv (fun e he => about_of_isDispatch (htr e he) j) (h.contract _)

section Moves

variable {w v : World} {id : CallId} {t : CallTask}

theorem CallTask.continues.classification {s : CallTask} (h : t.continues s) : s.classification = t.classification := by
  rw [h]

theorem sentCount_callEnded (id' : CallId) (o : Outcome) : sentCount [.callEnded id' o] id = 0 := rfl

theorem sentCount_sendCall (u : World) (s : CallTask) :
    sentCount (u.sendCall id s).trace id = sentCount u.trace id + 1 := by
  have hs : (u.sendCall id s).trace = u.trace ++ [_] := rfl
  rw [hs, sentCount_append]
  simp [sentCount, isSent]

theorem sendCall_pending (u : World) (s : CallTask) : (u.sendCall id s).pending ⟨id, s.attempt⟩ =
    { u.pending ⟨id, s.attempt⟩ with dispatchStarted := true } := Function.update_self ..

theorem openAttempt_pending (u : World) (id : CallId) (s : CallTask) :
    ((u.openAttempt id s).pending ⟨id, s.attempt⟩).classification = s.classification ∧
      ((u.openAttempt id s).pending ⟨id, s.attempt⟩).dispatchStarted = false := by
  simp [World.openAttempt, World.setPending, World.setConn]

theorem AtMostOnce.end (hu : Quiet w v) {o : Outcome} (s : CallTask) (hs : sentCount w.trace id ≤ 1)
    (he : EndsUnknown w.trace id) (ho : 0 < sentCount w.trace id → ¬ Answered w.trace id → Unknown o) :
    AtMostOnce (v.endCall id s o) id { s with phase := .ended o } where
  unparked := by simp
  sent := by
    have ht : (v.endCall id s o).trace = w.trace ++ [.callEnded id o] := congrArg (· ++ [_]) hu.trace
    rw [ht, sentCount_append, sentCount_callEnded]
    exact hs
  live := fun hl => absurd rfl (hl o)
  recording := by simp
  ended := by
    have ht : (v.endCall id s o).trace = w.trace ++ [.callEnded id o] := congrArg (· ++ [_]) hu.trace
    rw [ht]
    exact he.end ho

theorem AtMostOnce.send {u : World} {s : CallTask} (hs : sentCount u.trace id = 0)
    (hc : (u.pending ⟨id, s.attempt⟩).classification = .mutating) (he : EndsUnknown u.trace id) :
    AtMostOnce (u.sendCall id s) id { s with phase := .sending } where
  unparked := by simp
  sent := by rw [sentCount_sendCall, hs]
  live := by
    intro _
    rw [sendCall_pending, sentCount_sendCall, hs]
    exact ⟨hc, rfl⟩
  recording := by simp
  ended := by
    intro pre o post ht
    rcases ended_cases (ht : u.trace ++ [_] = _) with ⟨rest, hp⟩ | ⟨mid, _, hm⟩
    · exact he pre o rest hp
    cases mid with
    | nil => cases hm
    | cons e mid => simp at hm

theorem Attempts.sound (h : Attempts w id t v) (hw : CallsSound w) (hfre : w.calls id = none) : CallsSound v := by
  have hab := hw.fresh id hfre
  have hzero := sentCount_of_about hab
  have hends := EndsUnknown.of_about hab
  have hl := Local.of_attempts h
  cases h with
  | fails u s e hu hs hc =>
    refine hl.callsSound hw (Function.update_self ..) (fun _ => ?_)
    refine AtMostOnce.end hu s (hzero ▸ Nat.zero_le 1) hends (fun hpos => ?_)
    rw [hzero] at hpos
    cases hpos
  | opens u s hu hs hc =>
    refine hl.callsSound hw (Function.update_self ..) (fun hm => ?_)
    obtain ⟨hcl, hds⟩ := openAttempt_pending u id s
    have hs0 : sentCount u.trace id = 0 := hu.trace ▸ hzero
    exact ⟨by simp, hs0.le.trans (Nat.zero_le 1), fun _ => ⟨hcl.trans hm,
      hs0.trans (congrArg Bool.toNat hds).symm⟩, fun _ => hds, (hu.trace ▸ hends : EndsUnknown u.trace id)⟩
  | dispatches u s hu hs hc =>
    refine hl.callsSound hw (Function.update_self ..) (fun hm => ?_)
    refine AtMostOnce.send (hu.trace ▸ hzero : sentCount u.trace id = 0) ?_ (hu.trace ▸ hends : EndsUnknown u.trace id)
    exact (openAttempt_pending u id s).1.trans hm

theorem AtMostOnce.setPhase (h : AtMostOnce w id t) (hlive : ∀ o, t.phase ≠ .ended o) {p : Phase}
    (hp : p ≠ .reconnecting) (hr : p ≠ .recording) : AtMostOnce w id { t with phase := p } :=
  ⟨hp, h.sent, fun _ => h.live hlive, fun hc => absurd hc hr, h.ended⟩

theorem Quiet.atMostOnce (hu : Quiet w v) (h : AtMostOnce w id t) : AtMostOnce v id t :=
  h.kept (hu.trace.trans (append_nil _).symm) (by simp) (by rw [(hu.pending _).1]; exact ⟨rfl, rfl⟩)

theorem AtMostOnce.not_retries (h : AtMostOnce w id t) (hm : t.classification = .mutating) : ¬ t.retries := by
  rintro (hr | hr)
  · rw [hm] at hr
    cases hr
  · exact h.unparked hr

theorem AtMostOnce.unknown (h : AtMostOnce w id t) (hp : ∀ r, PendingSound w.trace r (w.pending r))
    (hm : t.classification = .mutating) (hlive : ∀ o, t.phase ≠ .ended o) {o : Outcome}
    (ho : Ends w id t o) (hsent : 0 < sentCount w.trace id) (hans : ¬ Answered w.trace id) : Unknown o := by
  obtain ⟨hcl, hcou⟩ := h.live hlive
  have hdet : (w.pending ⟨id, t.attempt⟩).determinateResponseReceived ≠ true :=
    fun hd => hans ⟨_, (hp _).2 hd, rfl⟩
  rcases ho with ho | ho | ho | ho | ho | ho
  · exact .inl ho
  · exact .inr ho
  · exact absurd ho hdet
  · have hds : (w.pending ⟨id, t.attempt⟩).dispatchStarted = false := by
      simpa [PendingCall.resultMayBeIndeterminate, hcl] using ho
    rw [hcou, hds] at hsent
    cases hsent
  · exact absurd ((hp _).1 ho) hdet
  · exact absurd ho (h.not_retries hm)

theorem CallMove.sound (h : CallMove w id t v) (hw : CallsSound w) (ht : w.calls id = some t)
    (hlive : ∀ o, t.phase ≠ .ended o) : CallsSound v := by
  have hl := Local.of_move h
  cases h with
  | ends u o hu ho =>
    refine hl.callsSound hw (Function.update_self ..) (fun hm => ?_)
    have ha := hw.mutating id t ht hm
    exact AtMostOnce.end hu t ha.sent ha.ended (ha.unknown hw.pending hm hlive ho)
  | cancels u cause hu =>
    refine hl.callsSound hw (Function.update_self ..) (fun hm => ?_)
    have ha := hu.atMostOnce (hw.mutating id t ht hm)
    refine AtMostOnce.setPhase (t := t) ?_ hlive (by simp) (by simp)
    exact ha.kept (rfl : _ = u.trace ++ [.toolCancelSent t.conn id cause]) (by simp [Effect.about]) ⟨rfl, rfl⟩
  | waits =>
    refine hl.callsSound hw (Function.update_self ..) (fun hm => ?_)
    refine AtMostOnce.setPhase (t := t) ?_ hlive (by simp) (by simp)
    exact (hw.mutating id t ht hm).kept (append_nil _).symm (by simp) ⟨rfl, rfl⟩
  | parks u hu hr =>
    refine hl.callsSound hw (Function.update_self ..) (fun hm => ?_)
    exact absurd hr ((hw.mutating id t ht hm).not_retries hm)
  | attempts _ hr h =>
    obtain ⟨s, hs, hcont, _⟩ := h.calls
    refine hl.callsSound hw (t := s) (by rw [hs, Function.update_self]) (fun hm => ?_)
    rw [hcont.classification] at hm
    exact absurd hr ((hw.mutating id t ht hm).not_retries hm)

theorem sendCall_sound (hw : CallsSound w) (ht : w.calls id = some t) (hr : t.phase = .recording) :
    CallsSound (w.sendCall id t) := by
  refine (Local.sendCall w id t).callsSound hw (Function.update_self ..) (fun hm => ?_)
  have ha := hw.mutating id t ht hm
  obtain ⟨hcl, hcou⟩ := ha.live (by simp [hr])
  rw [ha.recording hr] at hcou
  exact AtMostOnce.send hcou hcl ha.ended

end Moves

section Runs

variable [Sha256]

theorem step_callsSound {w v : World} {e : Int × Event} (hs : RegistrySound w) (hw : CallsSound w)
    (h : step w e = some v) : CallsSound v := by
  rcases step_cases h with ⟨_, conn, _, _, rfl⟩ | ⟨device, reason, epoch, _, rfl⟩ |
    ⟨id, t, hfre, hm⟩ | ⟨id, t, ht, hlive, hm⟩ | ⟨id, t, ht, hr, _, rfl⟩ | hr
  · have hk : Removes (w.install conn e.1) _ := commitRegister_removes e.1 hs
    exact hk.toCallsKept.callsSound ⟨hw.pending, hw.fresh, fun id t ht hm =>
      (hw.mutating id t ht hm).kept (append_nil _).symm (by simp) ⟨rfl, rfl⟩⟩
  · have hk := closeDevice_removes w device reason epoch e.1
    exact hk.toCallsKept.callsSound ⟨hw.pending, hw.fresh, fun id t ht hm =>
      (hw.mutating id t ht hm).kept (append_nil _).symm (by simp) ⟨rfl, rfl⟩⟩
  · exact hm.sound hw hfre
  · exact hm.sound hw ht hlive
  · exact sendCall_sound hw ht hr
  · exact hr.toCallsKept.callsSound hw

omit [Sha256] in
theorem start_callsSound (jobs recorder : Bool) : CallsSound (start jobs recorder) where
  pending := fun _ => ⟨fun ⟨_, h⟩ => (nomatch h), fun h => nomatch h⟩
  fresh := fun _ _ _ h => nomatch h
  mutating := fun _ _ h => nomatch h

theorem reachable_callsSound {w : World} (h : Reachable w) : CallsSound w := by
  obtain ⟨jobs, recorder, h⟩ := h
  exact (Runs.invariant (I := fun w => RegistrySound w ∧ CallsSound w)
    (fun _ _ _ hI he => ⟨step_sound hI.1 he, step_callsSound hI.1 hI.2 he⟩)
    ⟨start_sound jobs recorder, start_callsSound jobs recorder⟩ h).2

/-- A mutating call is sent at most once over all connections, and if it was sent and never answered
it ends with an indeterminate result or with the caller's own cancellation. -/
theorem mutating_call_at_most_once (w : World) (hw : Reachable w) (id : CallId) (t : CallTask)
    (ht : w.calls id = some t) (hm : t.classification = .mutating) :
    sentCount w.trace id ≤ 1 ∧
    ∀ pre o post, w.trace = pre ++ .callEnded id o :: post → 0 < sentCount pre id → ¬ Answered pre id → o = .cancelled ∨
        ∃ e, o = .raised (.capability e) ∧ e.code = "CLIENT_RESULT_INDETERMINATE" := by
  have ha := (reachable_callsSound hw).mutating id t ht hm
  exact ⟨ha.sent, ha.ended⟩

end Runs

def lostCall : List (Int × Event) :=
  [(0, .register (laptopHello 0)), (10, .callTool "call" (writeNote none)), (20, .resume "call" (.sent (.ok true))),
    (30, .unregister 0 "CLIENT_OFFLINE" "client capability host disconnected"),
    (40, .resume "call" .resultReady)]

theorem mutating_call_at_most_once_lost :
    let w := (Runs.run (@step noDigest) (start true true) lostCall).getD (start true true)
    sentCount w.trace "call" = 1 ∧ sentCount w.trace "call" ≤ 1 ∧
      ∃ pre o, w.trace = pre ++ [.callEnded "call" o] ∧ Unknown o := by
  intro w
  have hw : @Reachable noDigest w := ⟨true, true, lostCall, rfl⟩
  have htra : w.trace = [.toolCallSent 0 _, .connectionRemoved 0] ++ .callEnded "call" _ :: [] := rfl
  have ht : w.calls "call" = some _ := rfl
  have h := @mutating_call_at_most_once noDigest w hw "call" _ ht rfl
  refine ⟨by decide, h.1, _, _, htra, h.2 _ _ _ htra (by decide) ?_⟩
  rintro ⟨r, hr, _⟩
  simp at hr

end OpenAgent.Gateway.Capabilities
