import OpenAgent.Gateway.Capabilities.Steps

namespace OpenAgent.Gateway.Capabilities

open Py

structure Identity where
  key : Key
  generation : Int
  authEpoch : Int

def CapabilityConnection.identity (c : CapabilityConnection) : Identity :=
  ⟨c.key, c.generation, c.authEpoch⟩

def Effect.isCall : Effect → Bool
  | .toolCallSent .. | .toolCancelSent .. | .determinateResponse _ | .callEnded .. => true
  | .connectionRemoved _ | .shellRecorded .. | .shellCompleted .. => false

/-- Registered connections, their identities and every shell container are what they were. -/
structure Inert (w v : World) : Prop where
  rest : v = { w with conn := v.conn, pending := v.pending, calls := v.calls, trace := v.trace }
  identity : ∀ c, (v.conn c).identity = (w.conn c).identity
  shells : ∀ c, (v.conn c).clientShells = (w.conn c).clientShells
  history : ∃ tr, v.trace = w.trace ++ tr ∧ ∀ e ∈ tr, e.isCall

open Inert

namespace Inert

theorem refl (w : World) : Inert w w := ⟨rfl, fun _ => rfl, fun _ => rfl, [], by simp, by simp⟩

theorem trans {w v u : World} (h : Inert w v) (k : Inert v u) : Inert w u where
  rest := by
    rw [k.rest]
    simp only
    rw [h.rest]
  identity := fun c => (k.identity c).trans (h.identity c)
  shells := fun c => (k.shells c).trans (h.shells c)
  history := by
    obtain ⟨tr, hv, htr⟩ := h.history
    obtain ⟨us, hu, hus⟩ := k.history
    refine ⟨tr ++ us, by rw [hu, hv, List.append_assoc], fun e he => ?_⟩
    rcases List.mem_append.mp he with he | he
    · exact htr e he
    · exact hus e he

theorem emit (w : World) {e : Effect} (h : e.isCall) : Inert w (w.emit e) :=
  ⟨rfl, fun _ => rfl, fun _ => rfl, [e], rfl, by simpa using h⟩

theorem setPending (w : World) (r : PendingRef) (f : PendingCall → PendingCall) : Inert w (w.setPending r f) :=
  ⟨rfl, fun _ => rfl, fun _ => rfl, [], by simp [World.setPending], by simp⟩

theorem setCall (w : World) (id : CallId) (t : CallTask) : Inert w (w.setCall id t) :=
  ⟨rfl, fun _ => rfl, fun _ => rfl, [], by simp [World.setCall], by simp⟩

theorem setConn (w : World) (c : ConnId) {f : CapabilityConnection → CapabilityConnection}
    (hi : ∀ conn, (f conn).identity = conn.identity)
    (hs : ∀ conn, (f conn).clientShells = conn.clientShells) : Inert w (w.setConn c f) where
  rest := rfl
  identity := by
    intro d
    by_cases hd : d = c
    · subst hd
      simpa [World.setConn] using hi _
    · simp [World.setConn, hd]
  shells := by
    intro d
    by_cases hd : d = c
    · subst hd
      simpa [World.setConn] using hs _
    · simp [World.setConn, hd]
  history := ⟨[], by simp [World.setConn], by simp⟩

theorem failPending (w : World) (c : ConnId) (code message : String) : Inert w (w.failPending c code message) :=
  trans (v := { w with pending := fun r =>
      if r ∈ (w.conn c).pending.values then failFuture code message (w.pending r) else w.pending r })
    ⟨rfl, fun _ => rfl, fun _ => rfl, [], by simp, by simp⟩
    (setConn _ c (fun _ => rfl) (fun _ => rfl))

end Inert

namespace World

variable (w : World) (id : CallId) (t : CallTask)

theorem endCall_inert (o : Outcome) : Inert w (w.endCall id t o) :=
  (Inert.setCall w id _).trans (Inert.emit _ rfl)

theorem fail_inert (e : ClientCapabilityError) : Inert w (w.fail id t e) := endCall_inert w id t _

theorem sendCall_inert : Inert w (w.sendCall id t) :=
  ((Inert.setPending w _ _).trans (Inert.setCall _ id _)).trans (Inert.emit _ rfl)

theorem openAttempt_inert : Inert w (w.openAttempt id t) :=
  (Inert.setPending w _ _).trans (Inert.setConn _ _ (fun _ => rfl) (fun _ => rfl))

theorem popPending_inert : Inert w (w.popPending id t) :=
  Inert.setConn w _ (fun _ => rfl) (fun _ => rfl)

theorem sendCancel_inert (cause : CancelCause) : Inert w (w.sendCancel id t cause) :=
  (Inert.setCall w id _).trans (Inert.emit _ rfl)

theorem attempt_inert (now : Int) : Inert w (w.attempt id t now) := by
  simp only [attempt]
  split
  · exact fail_inert w id _ _
  split
  · exact fail_inert w id _ _
  split
  · exact fail_inert w id _ _
  split
  · exact (openAttempt_inert w id _).trans (Inert.setCall _ id _)
  · exact (openAttempt_inert w id _).trans (sendCall_inert _ id _)

theorem callTool_inert (r : ToolCall) (now : Int) : Inert w (w.callTool id r now) := by
  simp only [callTool]
  cases w.prepareCall r now with
  | error e => exact refl w
  | ok t => exact attempt_inert w id t now

theorem reconnect_inert (now : Int) : Inert w (w.reconnect id t now) := by
  have hwait : ∀ (e : ClientCapabilityError) (u : CallTask),
      Inert w (if t.deadlineAt - now ≤ 0 then w.fail id t e else w.setCall id u) := by
    intro e u
    split
    · exact fail_inert w id t e
    · exact Inert.setCall w id u
  simp only [reconnect]
  split
  · exact fail_inert w id t _
  split
  · exact fail_inert w id t _
  cases w.connections.get? t.origin.key with
  | none => exact hwait _ _
  | some candidate =>
    simp only
    split
    · exact fail_inert w id t _
    split
    · exact attempt_inert w id _ now
    · exact hwait _ _

theorem handleException_inert (e : PyException) (now : Int) : Inert w (w.handleException id t e now) := by
  have hp := popPending_inert w id t
  cases e with
  | timeout => exact sendCancel_inert w id t _
  | capability error =>
    simp only [handleException]
    split
    · exact hp.trans (fail_inert _ id t _)
    split
    · exact hp.trans (reconnect_inert _ id t now)
    · exact hp.trans (fail_inert _ id t _)
  | other name =>
    simp only [handleException]
    split
    · exact hp.trans (fail_inert _ id t _)
    split
    · exact hp.trans (reconnect_inert _ id t now)
    · exact hp.trans (endCall_inert _ id t _)

theorem recordDone_inert (r : Except PyException Unit) (now : Int) : Inert w (w.recordDone id t r now) := by
  cases r with
  | ok => exact sendCall_inert w id t
  | error e => exact handleException_inert w id t e now

theorem sendDone_inert (r : Except PyException Bool) (now : Int) : Inert w (w.sendDone id t r now) := by
  rcases r with e | _ | _
  · exact handleException_inert w id t e now
  · simp only [sendDone]
    exact handleException_inert w id t _ now
  · exact Inert.setCall w id _

theorem cancelFuture_inert : Inert w (w.cancelFuture id t) := Inert.setPending w _ _

theorem cancelDone_inert (cause : CancelCause) : Inert w (w.cancelDone id t cause) := by
  have hp := popPending_inert w id t
  cases cause with
  | serverCancelled => exact hp.trans (endCall_inert _ id t _)
  | deadlineExceeded =>
    simp only [cancelDone]
    split
    · exact hp.trans (fail_inert _ id t _)
    · exact hp.trans (fail_inert _ id t _)

variable {v : World}

theorem resultReady_inert (now : Int) (h : w.resultReady id t now = some v) : Inert w v := by
  unfold resultReady at h
  split at h <;> cases h
  · exact (popPending_inert w id t).trans (endCall_inert _ id t _)
  · exact handleException_inert w id t _ now

theorem callTimeout_inert (h : w.callTimeout id t = some v) : Inert w v := by
  unfold callTimeout at h
  split at h <;> cases h
  · exact (cancelFuture_inert w id t).trans (sendCancel_inert _ id t _)
  · exact fail_inert w id t _

theorem callCancel_inert (h : w.callCancel id t = some v) : Inert w v := by
  unfold callCancel at h
  split at h <;> cases h
  · exact sendCancel_inert w id t _
  · exact sendCancel_inert w id t _
  · exact (cancelFuture_inert w id t).trans (sendCancel_inert _ id t _)
  · exact endCall_inert w id t _

theorem resume_inert (now : Int) (what : Resume) (h : w.resume id t now what = some v) : Inert w v := by
  cases what with
  | recorded outcome =>
    simp only [resume, Option.ite_none_right_eq_some, Option.some.injEq] at h
    exact h.2 ▸ recordDone_inert w id t outcome now
  | sent outcome =>
    simp only [resume, Option.ite_none_right_eq_some, Option.some.injEq] at h
    exact h.2 ▸ sendDone_inert w id t outcome now
  | resultReady =>
    simp only [resume, Option.ite_none_right_eq_some] at h
    exact resultReady_inert w id t now h.2
  | timeout => exact callTimeout_inert w id t h
  | cancelled => exact callCancel_inert w id t h
  | cancelSent =>
    simp only [resume] at h
    split at h <;> cases h
    exact cancelDone_inert w id t _
  | connectionChanged =>
    simp only [resume, Option.ite_none_right_eq_some, Option.some.injEq] at h
    exact h.2 ▸ reconnect_inert w id t now

variable (c : ConnId)

theorem updateCatalog_inert (generation : Int) (servers : Except ClientCapabilityError Catalog) :
    Inert w (w.updateCatalog c generation servers).1 := by
  unfold updateCatalog
  split
  · exact refl w
  cases servers with
  | error e => exact refl w
  | ok catalog =>
    simp only
    split
    · exact refl w
    split
    · exact refl w
    · dsimp only
      exact Inert.setConn w c (fun _ => rfl) (fun _ => rfl)

variable [Sha256]

theorem receiveChunk_inert (frame : ChunkFrame) : Inert w (w.receiveChunk c frame).1 := by
  unfold receiveChunk
  split
  · exact refl w
  split
  · exact refl w
  · dsimp only
    exact Inert.setPending w _ _

end World

end OpenAgent.Gateway.Capabilities
