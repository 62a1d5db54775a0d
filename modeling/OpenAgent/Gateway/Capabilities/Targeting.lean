import OpenAgent.Gateway.Capabilities.Admission

namespace OpenAgent.Gateway.Capabilities

open Py List

def TurnExecutionOrigin.identity (o : TurnExecutionOrigin) : Identity := ⟨o.key, o.generation, o.authEpoch⟩

def Aimed (w : World) : Prop :=
  ∀ id t, w.calls id = some t → t.conn < w.nextConn ∧ (w.conn t.conn).identity = t.origin.identity

/-- What a dispatch to a connection is to be: to the registered, unrevoked host of the call's origin. -/
structure Targeted (w : World) (id : CallId) (c : ConnId) : Prop where
  registered : w.registered c
  origin : ∃ t, w.calls id = some t ∧ (w.conn c).key = t.origin.key ∧
    (w.conn c).generation = t.origin.generation ∧ (w.conn c).authEpoch = t.origin.authEpoch
  unrevoked : w.blockEpoch (w.conn c).deviceId ≤ (w.conn c).authEpoch

variable {w : World}

theorem RegistrySound.hosts (hw : RegistrySound w) {o : TurnExecutionOrigin} {c : ConnId}
    (hc : w.hosts o c) : c < w.nextConn ∧ (w.conn c).identity = o.identity := by
  obtain ⟨hk, hg, he⟩ := hc
  refine ⟨hw.known _ _ hk, ?_⟩
  unfold CapabilityConnection.identity TurnExecutionOrigin.identity
  rw [hw.keyed _ _ hk, hg, he]

theorem RegistrySound.unrevoked (hw : RegistrySound w) {c : ConnId} (hc : w.registered c) :
    w.blockEpoch (w.conn c).deviceId ≤ (w.conn c).authEpoch := hw.epoch _ _ hc

theorem CallTask.continues.origin {t s : CallTask} (h : t.continues s) : s.origin = t.origin := by
  rw [CallTask.continues] at h
  rw [h]

variable {id : CallId}

section Aim

variable {w v : World}

theorem Aimed.of_calls (ha : Aimed w) (hc : v.calls = w.calls) (hn : w.nextConn ≤ v.nextConn)
    (hi : ∀ c, c < w.nextConn → (v.conn c).identity = (w.conn c).identity) : Aimed v := by
  intro id t ht
  rw [hc] at ht
  obtain ⟨hlt, hid⟩ := ha id t ht
  exact ⟨hlt.trans_le hn, (hi _ hlt).trans hid⟩

theorem Inert.nextConn (h : Inert w v) : v.nextConn = w.nextConn := by rw [h.rest]

theorem Aimed.update (ha : Aimed w) (hv : Inert w v) {s : CallTask}
    (hc : v.calls = Function.update w.calls id (some s)) (hlt : s.conn < w.nextConn)
    (hid : (w.conn s.conn).identity = s.origin.identity) : Aimed v := by
  intro j t ht
  rw [hc, Function.update_apply] at ht
  rw [hv.nextConn, hv.identity]
  split at ht
  · cases ht
    exact ⟨hlt, hid⟩
  · exact ha j t ht

theorem Attempts.aimed {t : CallTask} (h : Attempts w id t v) (hw : RegistrySound w) (ha : Aimed w) : Aimed v := by
  obtain ⟨s, hs, hcont, hc⟩ := h.calls
  obtain ⟨hlt, hid⟩ := hw.hosts hc
  exact ha.update h.inert hs hlt (hid.trans (congrArg _ hcont.origin.symm))

theorem CallMove.aimed {t : CallTask} (h : CallMove w id t v) (hw : RegistrySound w)
    (ha : Aimed w) (ht : w.calls id = some t) : Aimed v := by
  obtain ⟨s, hs, hcont, hconn⟩ := h.calls
  have hid : s.conn < w.nextConn ∧ (w.conn s.conn).identity = s.origin.identity := by
    rw [hcont.origin]
    rcases hconn with hc | hc
    · rw [hc]
      exact ha id t ht
    · exact hw.hosts hc
  exact ha.update h.inert hs hid.1 hid.2

theorem Removes.aimed (h : Removes w v) (ha : Aimed w) : Aimed v :=
  ha.of_calls h.calls h.nextConn.ge (fun c _ => h.identity c)

theorem commitRegister_aimed {conn : CapabilityConnection} (now : Int) (hw : RegistrySound w)
    (ha : Aimed w) : Aimed (w.commitRegister conn now) := by
  refine (commitRegister_removes now hw).aimed (ha.of_calls rfl (Nat.le_succ _) ?_)
  intro c hc
  rw [install_conn, if_neg hc.ne]

end Aim

section Runs

variable [Sha256]

variable {v : World}

theorem step_aimed {e : Int × Event} (hw : RegistrySound w) (ha : Aimed w)
    (h : step w e = some v) : Aimed v := by
  rcases step_cases h with ⟨_, conn, _, _, rfl⟩ | ⟨device, reason, epoch, _, rfl⟩ |
    ⟨id, t, _, hm⟩ | ⟨id, t, ht, _, hm⟩ | ⟨id, t, ht, _, _, rfl⟩ | hr
  · exact commitRegister_aimed e.1 hw ha
  · exact (closeDevice_removes w device reason epoch e.1).aimed (ha.of_calls rfl le_rfl (fun _ _ => rfl))
  · exact hm.aimed hw ha
  · exact hm.aimed hw ha ht
  · exact ha.update (World.sendCall_inert w id t) rfl (ha id t ht).1 (ha id t ht).2
  · exact hr.aimed ha

theorem reachable_aimed (h : Reachable w) : Aimed w := by
  obtain ⟨jobs, recorder, h⟩ := h
  exact (Runs.invariant (I := fun w => RegistrySound w ∧ Aimed w)
    (fun _ _ _ hI he => ⟨step_sound hI.1 he, step_aimed hI.1 hI.2 he⟩)
    ⟨start_sound jobs recorder, fun _ _ h => nomatch h⟩ h).2

def SendsTargeted (w : World) (e : Int × Event) : Prop :=
  ∀ v tr c frame, step w e = some v → v.trace = w.trace ++ tr → .toolCallSent c frame ∈ tr → Targeted v frame.callId c

/-- When the device-use recorder returns to a call, no removal of the connection the call has chosen is
on record. -/
def RecordsInTime (w : World) (e : Int × Event) : Prop :=
  ∀ id t, e.2 = .resume id (.recorded (.ok ())) → w.calls id = some t → t.phase = .recording →
    .connectionRemoved t.conn ∉ w.trace

omit [Sha256] in
theorem Inert.targeted (hi : Inert w v) (hw : RegistrySound w)
    {c : ConnId} {s : CallTask} (hc : w.registered c) (hs : v.calls id = some s)
    (hid : (w.conn c).identity = s.origin.identity) : Targeted v id c := by
  have hv := (Shrinks.of_inert hi).sound hw
  have hr : v.registered c := by
    unfold World.registered
    rw [identity_key (hi.identity c), hi.rest]
    exact hc
  have he := (hi.identity c).trans hid
  exact ⟨hr, ⟨s, hs, congrArg Identity.key he, congrArg Identity.generation he,
    congrArg Identity.authEpoch he⟩, hv.unrevoked hr⟩

omit [Sha256] in
theorem sendCall_targeted_iff (hw : RegistrySound w) (ha : Accounted w) (hi : Aimed w)
    {t : CallTask} (ht : w.calls id = some t) :
    Targeted (w.sendCall id t) id t.conn ↔ .connectionRemoved t.conn ∉ w.trace := by
  have hin := World.sendCall_inert w id t
  obtain ⟨hlt, hid⟩ := hi id t ht
  constructor
  · intro h hr
    exact (ha.departed _ hr).2 ((Shrinks.of_inert hin).registered h.registered)
  intro hn
  have hc := (ha.kept _ hlt).resolve_right hn
  exact hin.targeted hw hc (s := { t with phase := .sending }) (Function.update_self ..) hid

omit [Sha256] in
theorem CallsKept.no_dispatch (h : CallsKept w v) {tr : List Effect} {c : ConnId}
    {frame : ToolCallFrame} (ht : v.trace = w.trace ++ tr) : .toolCallSent c frame ∉ tr := by
  obtain ⟨us, hu, hus⟩ := h.trace
  rw [hu, append_cancel_left_eq] at ht
  intro hm
  cases hus _ (ht ▸ hm)

theorem sendsTargeted_iff (hw : Reachable w) (e : Int × Event) : SendsTargeted w e ↔ RecordsInTime w e := by
  obtain ⟨hs, ha⟩ := reachable_sound hw
  have hi := reachable_aimed hw
  constructor
  · intro h id t he ht hr
    have hstep : step w e = some (w.sendCall id t) := by
      obtain ⟨now, e⟩ := e
      subst he
      simp [step, ht, World.resume, hr, World.recordDone]
    exact (sendCall_targeted_iff hs ha hi ht).mp (h _ _ _ _ hstep rfl (mem_singleton.mpr rfl))
  intro hrec v tr c frame hstep htr hm
  rcases step_cases hstep with ⟨_, conn, _, _, rfl⟩ | ⟨device, reason, epoch, _, rfl⟩ |
    ⟨id, t, _, hmove⟩ | ⟨id, t, _, _, hmove⟩ | ⟨id, t, ht, hr, he, rfl⟩ | hkept
  · have hk : Removes (w.install conn e.1) _ := commitRegister_removes e.1 hs
    exact absurd hm (hk.toCallsKept.no_dispatch htr)
  · have hk := closeDevice_removes w device reason epoch e.1
    exact absurd hm (hk.toCallsKept.no_dispatch htr)
  · obtain ⟨us, hus, hsen⟩ := hmove.sends
    rw [hus, append_cancel_left_eq] at htr
    obtain ⟨rfl, hc, s, hcall, ho⟩ := hsen c frame (htr ▸ hm)
    exact hmove.inert.targeted hs (hs.registered hc.1) hcall (ho ▸ (hs.hosts hc).2)
  · obtain ⟨us, hus, hsen⟩ := hmove.sends
    rw [hus, append_cancel_left_eq] at htr
    obtain ⟨rfl, hc, s, hcall, ho⟩ := hsen c frame (htr ▸ hm)
    exact hmove.inert.targeted hs (hs.registered hc.1) hcall (ho ▸ (hs.hosts hc).2)
  · have hus : (w.sendCall id t).trace = w.trace ++ [_] := rfl
    rw [hus, append_cancel_left_eq] at htr
    subst htr
    cases mem_singleton.mp hm
    exact (sendCall_targeted_iff hs ha hi ht).mpr (hrec id t he ht hr)
  · exact absurd hm (hkept.toCallsKept.no_dispatch htr)

/-- Along any run, every dispatch goes to the registered, unrevoked host of its call's origin exactly
when no device-use recorder outlasts the connection its call had chosen. -/
theorem dispatches_targeted_iff (jobs recorder : Bool) (es : List (Int × Event)) :
    Runs.Meets step SendsTargeted (start jobs recorder) es ↔
      Runs.Meets step RecordsInTime (start jobs recorder) es := by
  constructor
  · intro h pre e post w hes hw
    exact (sendsTargeted_iff ⟨jobs, recorder, pre, hw⟩ e).mp (h pre e post w hes hw)
  · intro h pre e post w hes hw
    exact (sendsTargeted_iff ⟨jobs, recorder, pre, hw⟩ e).mpr (h pre e post w hes hw)

end Runs

/-- The device is revoked while `record_device_use` runs. -/
def revokedWhileRecording : List (Int × Event) :=
  [(0, .register (laptopHello 0)), (10, .callTool "call" (writeNote (some "session"))),
    (20, .closeDevice "device" "device revoked" (some 1))]

def recorderReturns : Int × Event := (30, .resume "call" (.recorded (.ok ())))

theorem dispatch_after_revocation : ¬ Runs.Meets (@step noDigest) (@SendsTargeted noDigest) (start true true)
      (revokedWhileRecording ++ [recorderReturns]) := by
  intro h
  let w := (Runs.run (@step noDigest) (start true true) revokedWhileRecording).getD (start true true)
  let v := (@step noDigest w recorderReturns).getD w
  have hw : Runs.run (@step noDigest) (start true true) revokedWhileRecording = some w := rfl
  have hv : @step noDigest w recorderReturns = some v := rfl
  have ht := h _ _ [] w rfl hw v _ 0 _ hv rfl (mem_singleton.mpr rfl)
  exact absurd ht.registered (by decide)

end OpenAgent.Gateway.Capabilities
