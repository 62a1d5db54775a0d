import OpenAgent.Gateway.Capabilities.Holding

namespace OpenAgent.Gateway.Capabilities

open Py World

/-- The shells an accepted registration takes over: from the ledger, while the grace period of exactly
this host lasts, or from the connection of the same generation that it replaces. -/
inductive Inherits (w : World) (conn : CapabilityConnection) (now : Int) (b : BindingId) : Prop
  | restored (d : DetachedClientShells) (hd : w.restorable conn now = some d) (h : b ∈ d.bindings.values)
  | replaced (old : ConnId) (ho : w.connections.get? conn.key = some old)
      (hg : (w.conn old).generation = conn.generation) (h : b ∈ (w.conn old).clientShells.values)

def InheritsOwnEpoch (w : World) (e : Int × Event) : Prop :=
  ∀ hello conn b c, e.2 = .register hello → w.accept hello = .ok conn → Inherits w conn e.1 b →
    (w.binding b).completed = false → .shellRecorded b c ∈ w.trace →
    (w.conn c).authEpoch = conn.authEpoch

def EpochKept (w : World) : Prop :=
  ∀ b c d, .shellRecorded b c ∈ w.trace → b ∈ (w.conn d).clientShells.values →
    (w.binding b).completed = false → (w.conn d).authEpoch = (w.conn c).authEpoch

variable {w : World}

theorem Completes.conn {v : World} {bs : List BindingId} (h : Completes w v bs) : v.conn = w.conn := by
  obtain ⟨tr, hv, _⟩ := h.rest
  rw [hv]

theorem replaceOld_inherits (w : World) (now : Int) {old c : ConnId} (hne : c ≠ old) {b : BindingId}
    (hb : b ∈ ((w.replaceOld old c now).conn c).clientShells.values) :
    b ∈ (w.conn c).clientShells.values ∨
      ((w.conn old).generation = (w.conn c).generation ∧ b ∈ (w.conn old).clientShells.values) := by
  unfold replaceOld at hb
  rw [(Inert.failPending _ old _ _).shells] at hb
  change b ∈ ((if _ then _ else _ : World).conn c).clientShells.values at hb
  split at hb
  · rename_i hg
    simp only [handOver, setConn, Function.update_of_ne hne, Function.update_self] at hb
    rcases mem_update_values hb with hb | hb
    · exact .inl hb
    · exact .inr ⟨hg, hb⟩
  · rw [(orphanShellBindings_completes _ _ _ now).conn] at hb
    exact .inl hb

theorem commitRegister_inherits (hs : RegistrySound w) {conn : CapabilityConnection} (now : Int) {b : BindingId}
    (hb : b ∈ ((w.commitRegister conn now).conn w.nextConn).clientShells.values) :
    Inherits w conn now b := by
  have hnew : b ∈ ((w.install conn now).conn w.nextConn).clientShells.values → Inherits w conn now b := by
    intro h
    rw [install_clientShells] at h
    cases hr : w.restorable conn now with
    | none =>
      rw [hr] at h
      cases h
    | some d =>
      rw [hr] at h
      exact .restored d hr h
  unfold commitRegister at hb
  have hconn := (orphanDetached_completes (w.install conn now) (w.displaced conn now) "CLIENT_REPLACED" now).conn
  cases ho : w.connections.get? conn.key with
  | none =>
    rw [ho] at hb
    simp only at hb
    rw [hconn] at hb
    exact hnew hb
  | some old =>
    rw [ho] at hb
    have hne : w.nextConn ≠ old := (hs.known _ _ ho).ne'
    have hold : (w.install conn now).conn old = w.conn old := by
      simp [install, hne.symm]
    have hgen : ((w.install conn now).conn w.nextConn).generation = conn.generation := by
      simp [install]
    rcases replaceOld_inherits _ now hne hb with h | ⟨hg, h⟩
    · rw [hconn] at h
      exact hnew h
    rw [hconn, hold, hgen] at hg
    rw [hconn, hold] at h
    exact .replaced old ho hg h

section Steps

variable [Sha256]

variable {v : World}

theorem step_identity {e : Int × Event} (hs : RegistrySound w) (h : step w e = some v) :
    (∀ c, c < w.nextConn → (v.conn c).identity = (w.conn c).identity) ∧
    (v.nextConn = w.nextConn ∨ ∃ hello conn, e.2 = .register hello ∧ w.accept hello = .ok conn ∧
      v = w.commitRegister conn e.1 ∧ v.nextConn = w.nextConn + 1) := by
  rcases step_cases h with ⟨hello, conn, he, ha, rfl⟩ | ⟨device, reason, epoch, _, rfl⟩ |
    ⟨_, _, _, hm⟩ | ⟨_, _, _, _, hm⟩ | ⟨id, t, _, _, _, rfl⟩ | hr
  · have hk : Removes (w.install conn e.1) _ := commitRegister_removes e.1 hs
    refine ⟨fun c hc => ?_, .inr ⟨hello, conn, he, ha, rfl, hk.nextConn⟩⟩
    rw [hk.identity, install_conn, if_neg hc.ne]
  · have hk := closeDevice_removes w device reason epoch e.1
    exact ⟨fun c _ => hk.identity c, .inl hk.nextConn⟩
  · exact ⟨fun c _ => hm.inert.identity c, .inl (Shrinks.of_inert hm.inert).nextConn⟩
  · exact ⟨fun c _ => hm.inert.identity c, .inl (Shrinks.of_inert hm.inert).nextConn⟩
  · have hi := sendCall_inert w id t
    exact ⟨fun c _ => hi.identity c, .inl (Shrinks.of_inert hi).nextConn⟩
  · exact ⟨fun c _ => hr.identity c, .inl hr.nextConn⟩

omit [Sha256] in
theorem Records.epochKept {c₀ : ConnId} {shellId : String} {shell : ClientShellBinding}
    (h : Records w c₀ shellId shell v) (hsh : ShellsSound w) (hw : EpochKept w) : EpochKept v := by
  have hid : ∀ c, (v.conn c).identity = (w.conn c).identity := fun c =>
    (h.inert.identity c).trans ((recordShell_removes w c₀ shellId shell).identity c)
  intro b c d hrec hb hc
  rw [h.inert.shells] at hb
  have hrec := (Settling.of_inert h.inert).recorded b c hrec
  rw [identity_authEpoch (hid c), identity_authEpoch (hid d)]
  rcases List.mem_append.mp (hrec : _ ∈ w.trace ++ [.shellRecorded w.nextBinding c₀]) with hr | hr
  · have hlt := (hsh.recorded b c hr).1
    rcases recordShell_values hb with hb | ⟨_, rfl⟩
    · refine hw b c d hr hb ?_
      have hbind : v.binding b = w.binding b := by
        rw [h.inert.rest]
        simp [recordShell, setConn, emit, hlt.ne]
      rw [← hbind]
      exact hc
    · exact absurd hlt (Nat.lt_irrefl _)
  cases List.mem_singleton.mp hr
  rcases recordShell_values hb with hb | ⟨rfl, _⟩
  · exact absurd (hsh.known _ (.connection d hb)) (Nat.lt_irrefl _)
  · rfl

theorem step_epochKept {e : Int × Event} (hs : RegistrySound w) (hsh : ShellsSound w)
    (hw : EpochKept w) (hC : InheritsOwnEpoch w e) (h : step w e = some v) : EpochKept v := by
  obtain ⟨hid, hnext⟩ := step_identity hs h
  rcases step_shells h with ⟨_, _, _, _, _, _, _, _, hr⟩ | hset
  · exact hr.epochKept hsh hw
  intro b c d hrec hb hc
  have hrecw := hset.recorded b c hrec
  have hcw : (w.binding b).completed = false := by
    by_contra hdone
    rw [hset.kept b (Bool.eq_true_of_not_eq_false hdone)] at hc
    cases hc
  have hold : d < w.nextConn → (v.conn d).authEpoch = (v.conn c).authEpoch := by
    intro hd
    rw [identity_authEpoch (hid d hd), identity_authEpoch (hid c (hsh.recorded b c hrecw).2)]
    exact hw b c d hrecw (hset.narrow d b (.inl hd) hb) hcw
  have hd : d < v.nextConn := by
    by_contra hge
    exact (step_shellsSound hsh h).bare d b (Nat.le_of_not_lt hge) hb
  rcases hnext with hn | ⟨hello, conn, he, ha, rfl, hn⟩
  · exact hold (hn ▸ hd)
  rw [hn] at hd
  rcases Nat.lt_succ_iff_lt_or_eq.mp hd with hd | rfl
  · exact hold hd
  have hk : Removes (w.install conn e.1) _ := commitRegister_removes e.1 hs
  have hnew := (hk.identity w.nextConn).trans (install_conn w conn e.1 w.nextConn)
  rw [if_pos rfl] at hnew
  rw [identity_authEpoch hnew, identity_authEpoch (hid c (hsh.recorded b c hrecw).2)]
  exact (hC hello conn b c he ha (commitRegister_inherits hs e.1 hb) hcw hrecw).symm

/-- In a run whose registrations inherit only within their own epoch, a running shell is never held by
a connection of another epoch than the one it was recorded under. -/
theorem shells_keep_epoch (w : World) (hw : ReachableUnder InheritsOwnEpoch w) (b : BindingId)
    (c d : ConnId) (hrec : .shellRecorded b c ∈ w.trace) (hb : b ∈ (w.conn d).clientShells.values)
    (hc : (w.binding b).completed = false) : (w.conn d).authEpoch = (w.conn c).authEpoch := by
  obtain ⟨jobs, recorder, hr⟩ := hw
  have hI : RegistrySound w ∧ ShellsSound w ∧ EpochKept w := by
    refine Runs.invariant_under (I := fun w => RegistrySound w ∧ ShellsSound w ∧ EpochKept w) ?_ ?_ hr
    · intro s e t ⟨hs, hsh, hk⟩ hC he
      exact ⟨step_sound hs he, step_shellsSound hsh he, step_epochKept hs hsh hk hC he⟩
    · exact ⟨start_sound jobs recorder, start_shellsSound jobs recorder, fun _ _ _ h => nomatch h⟩
  exact hI.2.2 b c d hrec hb hc

end Steps

def reconnectOvertakes : List (Int × Event) :=
  [(0, .register (shellHello 0)), (10, .callTool "call" startShell), (20, .resolveResult 0 shellStarted),
    (30, .register (shellHello 2))]

def shellTakenOver (w : World) : Bool :=
  w.trace.any (fun | .shellRecorded 0 0 => true
                   | _ => false) &&
    decide (0 ∈ (w.conn 1).clientShells.values) && !(w.binding 0).completed

theorem shellTakenOver_holds (h : shellTakenOver w = true) :
    .shellRecorded 0 0 ∈ w.trace ∧ 0 ∈ (w.conn 1).clientShells.values ∧ (w.binding 0).completed = false := by
  simp only [shellTakenOver, Bool.and_eq_true, decide_eq_true_eq, Bool.not_eq_true', List.any_eq_true] at h
  obtain ⟨⟨⟨e, he, hrec⟩, hb⟩, hc⟩ := h
  split at hrec
  · exact ⟨he, hb, hc⟩
  · cases hrec

theorem shell_crosses_epochs : ¬ ∀ w, @Reachable shellDigest w → EpochKept w := by
  intro h
  have hrun : (Runs.run (@step shellDigest) (start true false) reconnectOvertakes).any
      (fun w => shellTakenOver w && decide ((w.conn 1).authEpoch ≠ (w.conn 0).authEpoch)) = true := by
    decide +kernel
  obtain ⟨w, hw, hcro⟩ := (Option.any_eq_true _ _).mp hrun
  rw [Bool.and_eq_true, decide_eq_true_eq] at hcro
  obtain ⟨hrec, hb, hc⟩ := shellTakenOver_holds hcro.1
  exact hcro.2 (h w ⟨true, false, reconnectOvertakes, hw⟩ 0 0 1 hrec hb hc)

def reconnectKeepsEpoch : List (Int × Event) :=
  [(0, .register (shellHello 0)), (10, .callTool "call" startShell), (20, .resolveResult 0 shellStarted),
    (30, .register (shellHello 0))]

def oneEpoch (w : World) (e : Int × Event) : Bool :=
  match e.2 with
  | .register hello => w.trace.all
      (fun | .shellRecorded _ c => decide ((w.conn c).authEpoch = hello.authEpoch.getD (-1))
           | _ => true)
  | _ => true

theorem inheritsOwnEpoch_of_oneEpoch {e : Int × Event} (h : oneEpoch w e = true) : InheritsOwnEpoch w e := by
  intro hello conn b c he ha _ _ hrec
  unfold oneEpoch at h
  rw [he] at h
  rw [accept_authEpoch ha]
  exact of_decide_eq_true (List.all_eq_true.mp h _ hrec)

theorem shells_keep_epoch_reconnect : ∃ w : World, .shellRecorded 0 0 ∈ w.trace ∧
    0 ∈ (w.conn 1).clientShells.values ∧ (w.conn 1).authEpoch = (w.conn 0).authEpoch := by
  have hrun : (Runs.run (@step shellDigest) (start true false) reconnectKeepsEpoch).any shellTakenOver =
      true := by decide +kernel
  have hall : Runs.all oneEpoch (@step shellDigest) (start true false) reconnectKeepsEpoch = true := by
    decide +kernel
  obtain ⟨w, hw, htak⟩ := (Option.any_eq_true _ _).mp hrun
  obtain ⟨hrec, hb, hc⟩ := shellTakenOver_holds htak
  have hrea : @ReachableUnder shellDigest InheritsOwnEpoch w :=
    ⟨true, false, reconnectKeepsEpoch, Runs.meets_of_all (fun _ _ => inheritsOwnEpoch_of_oneEpoch) hall, hw⟩
  exact ⟨w, hrec, hb, @shells_keep_epoch shellDigest w hrea 0 0 1 hrec hb hc⟩

end OpenAgent.Gateway.Capabilities
