import OpenAgent.Gateway.Capabilities.Admission

namespace OpenAgent.Gateway.Capabilities

open Py List Option World Dict

/-- A binding that some connection object, the ledger or a suspended sweep still refers to. -/
inductive Known (w : World) (b : BindingId) : Prop
  | connection (c : ConnId) (h : b ∈ (w.conn c).clientShells.values)
  | ledger (k : HostKey) (d : DetachedClientShells) (hd : w.detachedShells.get? k = some d)
      (h : b ∈ d.bindings.values)
  | sweep (n : Nat) (stale : List ConnId) (expired : List DetachedClientShells) (d : DetachedClientShells)
      (hn : w.sweeps n = some (.reap stale expired)) (hd : d ∈ expired) (h : b ∈ d.bindings.values)

/-- No binding comes into being, no connection gains one from elsewhere unless it is new, and every
completion is the first of its binding. -/
structure Settling (w v : World) : Prop where
  nextBinding : v.nextBinding = w.nextBinding
  nextConn : w.nextConn ≤ v.nextConn
  narrow : ∀ c b, (c < w.nextConn ∨ v.nextConn ≤ c) → b ∈ (v.conn c).clientShells.values →
    b ∈ (w.conn c).clientShells.values
  known : ∀ b, Known v b → Known w b
  completed : ∀ b, (v.binding b).completed = true → (w.binding b).completed = true ∨ Known w b
  kept : ∀ b, (w.binding b).completed = true → (v.binding b).completed = true
  counted : ∀ b, completions v.trace b + (w.binding b).completed.toNat =
    completions w.trace b + (v.binding b).completed.toNat
  recorded : ∀ b c, .shellRecorded b c ∈ v.trace → .shellRecorded b c ∈ w.trace

open Settling

def Effect.isShell : Effect → Bool
  | .shellRecorded .. | .shellCompleted .. => true
  | _ => false

theorem isShell_of_isCall {e : Effect} (h : e.isCall) : e.isShell = false := by
  cases e with
  | shellRecorded | shellCompleted => cases h
  | _ => rfl

theorem completions_of_isShell {tr : List Effect} (h : ∀ e ∈ tr, e.isShell = false) (b : BindingId) :
    completions tr b = 0 := by
  rw [completions, countP_eq_zero]
  intro e he
  have hs := h e he
  cases e with
  | shellCompleted => cases hs
  | _ => exact Bool.false_ne_true

namespace Settling

variable {w v u : World}

theorem trans (h : Settling w v) (k : Settling v u) : Settling w u where
  nextBinding := k.nextBinding.trans h.nextBinding
  nextConn := h.nextConn.trans k.nextConn
  narrow := by
    intro c b hc hb
    rcases hc with hc | hc
    · exact h.narrow c b (.inl hc) (k.narrow c b (.inl (hc.trans_le h.nextConn)) hb)
    · exact h.narrow c b (.inr (k.nextConn.trans hc)) (k.narrow c b (.inr hc) hb)
  known := fun b hb => h.known b (k.known b hb)
  completed := by
    intro b hb
    rcases k.completed b hb with hv | hv
    · exact h.completed b hv
    · exact .inr (h.known b hv)
  kept := fun b hb => k.kept b (h.kept b hb)
  counted := by
    intro b
    have h1 := h.counted b
    have h2 := k.counted b
    omega
  recorded := fun b c hb => h.recorded b c (k.recorded b c hb)

theorem complete (h : Settling w v) {bs : List BindingId} (k : Completes v u bs)
    (hb : ∀ b ∈ bs, Known w b) : Settling w u where
  nextBinding := by
    obtain ⟨tr, hu, _⟩ := k.rest
    rw [hu]
    exact h.nextBinding
  nextConn := by
    obtain ⟨tr, hu, _⟩ := k.rest
    rw [hu]
    exact h.nextConn
  narrow := by
    obtain ⟨tr, hu, _⟩ := k.rest
    rw [hu]
    exact h.narrow
  known := by
    intro b hk
    apply h.known
    obtain ⟨tr, hu, _⟩ := k.rest
    rw [hu] at hk
    cases hk with
    | connection c hc => exact .connection c hc
    | ledger j d hd hc => exact .ledger j d hd hc
    | sweep n stale expired d hn hd hc => exact .sweep n stale expired d hn hd hc
  completed := by
    intro b hc
    rw [k.completed, Bool.or_eq_true, decide_eq_true_eq] at hc
    rcases hc with hc | hc
    · exact h.completed b hc
    · exact .inr (hb b hc)
  kept := by
    intro b hc
    rw [k.completed, h.kept b hc]
    rfl
  counted := by
    intro b
    have h1 := h.counted b
    rw [k.counted, k.completed]
    by_cases hm : b ∈ bs <;> cases hc : (v.binding b).completed <;> simp [hm, hc] at h1 ⊢ <;> omega
  recorded := by
    intro b c hm
    apply h.recorded
    obtain ⟨tr, hu, htr⟩ := k.rest
    rw [hu] at hm
    rcases mem_append.mp hm with hm | hm
    · exact hm
    · obtain ⟨_, _, he⟩ := htr _ hm
      cases he

theorem of_moves (hn : v.nextBinding = w.nextBinding) (hm : v.nextConn = w.nextConn) (hb : v.binding = w.binding)
    (hc : ∀ c b, b ∈ (v.conn c).clientShells.values → b ∈ (w.conn c).clientShells.values)
    (hl : ∀ k d b, v.detachedShells.get? k = some d → b ∈ d.bindings.values → Known w b)
    (hs : v.sweeps = w.sweeps) {tr : List Effect} (ht : v.trace = w.trace ++ tr)
    (htr : ∀ e ∈ tr, e.isShell = false) : Settling w v where
  nextBinding := hn
  nextConn := hm.ge
  narrow := fun c b _ => hc c b
  known := by
    intro b hk
    cases hk with
    | connection c h => exact .connection c (hc c b h)
    | ledger k d hd h => exact hl k d b hd h
    | sweep n stale expired d hn hd h => exact .sweep n stale expired d (hs ▸ hn) hd h
  completed := fun b h => .inl (hb ▸ h)
  kept := fun b h => hb ▸ h
  counted := by
    intro b
    rw [hb, ht, completions_append, completions_of_isShell htr]
    rfl
  recorded := by
    intro b c hm
    rw [ht] at hm
    rcases mem_append.mp hm with hm | hm
    · exact hm
    · cases htr _ hm

theorem refl (w : World) : Settling w w :=
  of_moves rfl rfl rfl (fun _ _ h => h) (fun k d _ hd h => .ledger k d hd h) rfl (append_nil _).symm (by simp)

theorem of_completes {bs : List BindingId} (k : Completes w v bs) (hb : ∀ b ∈ bs, Known w b) :
    Settling w v := (refl w).complete k hb

theorem of_inert (h : Inert w v) : Settling w v := by
  obtain ⟨tr, ht, htr⟩ := h.history
  have hr := h.rest
  refine of_moves ?_ ?_ ?_ (fun c b hb => h.shells c ▸ hb) ?_ ?_ ht (fun e he => isShell_of_isCall (htr e he))
  · rw [hr]
  · rw [hr]
  · rw [hr]
  · intro k d b hd hb
    rw [hr] at hd
    exact .ledger k d hd hb
  · rw [hr]

theorem foldl {α : Type} {f : World → α → World} (hf : ∀ w a, Settling w (f w a)) (l : List α)
    (w : World) : Settling w (l.foldl f w) := by
  induction l generalizing w with
  | nil => exact refl w
  | cons a l ih => exact (hf w a).trans (ih _)

end Settling

theorem orphans_known {w : World} {ds : List DetachedClientShells} (h : ∀ d ∈ ds, ∀ b ∈ d.bindings.values, Known w b) :
    ∀ b ∈ ds.flatMap (fun d => d.bindings.values), Known w b := by
  intro b hb
  obtain ⟨d, hd, hm⟩ := mem_flatMap.mp hb
  exact h d hd b hm

theorem ledgerWith_get? (ledger : Ledger) (host : HostKey) (bindings : Dict String BindingId)
    (at' : Int) (k : HostKey) : (ledgerWith ledger host bindings at').get? k =
      if k = host then some ⟨at', (((ledger.get? host).map DetachedClientShells.bindings).getD
        Dict.empty).update bindings⟩ else ledger.get? k := get?_set _ _ _ _

theorem mem_update_values {d e : Dict String BindingId} {b : BindingId}
    (h : b ∈ (d.update e).values) : b ∈ d.values ∨ b ∈ e.values := by
  rw [mem_values_iff] at h
  obtain ⟨k, hk⟩ := h
  rw [get?_update, or_eq_some_iff] at hk
  rcases hk with hk | ⟨_, hk⟩
  · exact .inr ((mem_values_iff _ _).mpr ⟨k, hk⟩)
  · exact .inl ((mem_values_iff _ _).mpr ⟨k, hk⟩)

variable {v : World}

namespace World

variable (w : World) (c : ConnId) (now : Int)

theorem ledgerWith_known (detachedAt : Int) {k : HostKey} {d : DetachedClientShells} {b : BindingId}
    (hd : (ledgerWith w.detachedShells (w.conn c).clientHost (w.conn c).clientShells detachedAt).get? k =
      some d) (hb : b ∈ d.bindings.values) : Known w b := by
  rw [ledgerWith_get?] at hd
  split at hd
  · cases hd
    rcases mem_update_values hb with hb | hb
    · cases he : w.detachedShells.get? (w.conn c).clientHost with
      | none =>
        rw [he] at hb
        cases hb
      | some d =>
        rw [he] at hb
        exact .ledger _ d he hb
    · exact .connection c hb
  · exact .ledger k d hd hb

theorem detachShells_settling (detachedAt : Int) : Settling w (w.detachShells c detachedAt now) := by
  simp only [detachShells]
  split
  · exact refl w
  refine complete ?_ (orphanDetached_completes _ _ _ now) (orphans_known fun d hd b hb => ?_)
  · refine of_moves rfl rfl rfl ?_ ?_ rfl (append_nil _).symm (by simp)
    · intro d b hb
      by_cases hd : d = c
      · subst hd
        simp [setConn, values] at hb
      · simpa [setConn, hd] using hb
    · intro k d b hd hb
      exact ledgerWith_known w c detachedAt (expire_get? _ hd).1 hb
  · obtain ⟨k, hk⟩ := expire_mem _ hd
    exact ledgerWith_known w c detachedAt hk hb

theorem emit_settling {e : Effect} (he : e.isShell = false) : Settling w (w.emit e) :=
  of_moves rfl rfl rfl (fun _ _ h => h) (fun k d _ hd h => .ledger k d hd h) rfl
    (rfl : _ = w.trace ++ [e]) (by simpa using he)

theorem removeConnection_settling : Settling w (w.removeConnection c) := by
  unfold removeConnection
  split
  · exact of_moves rfl rfl rfl (fun _ _ h => h) (fun k d _ hd h => .ledger k d hd h) rfl
      (rfl : _ = w.trace ++ [.connectionRemoved c]) (by simp [Effect.isShell])
  · exact refl w

theorem failPending_settling (code message : String) : Settling w (w.failPending c code message) :=
  of_inert (Inert.failPending w c code message)

theorem unregister_settling (code message : String) : Settling w (w.unregister c code message now) := by
  unfold unregister
  refine trans ?_ (failPending_settling _ c code message)
  split
  · exact (removeConnection_settling w c).trans (detachShells_settling _ c now now)
  · exact refl w

theorem dropStale_settling (checkedAt : Int) : Settling w (dropStale checkedAt now w c) := by
  unfold dropStale
  split
  · exact (removeConnection_settling w c).trans (detachShells_settling _ c now checkedAt)
  · exact refl w

theorem setLedger_settling {ledger : Ledger} (h : ∀ k d, ledger.get? k = some d → w.detachedShells.get? k = some d) :
    Settling w { w with detachedShells := ledger } :=
  of_moves rfl rfl rfl (fun _ _ h => h) (fun k d _ hd hb => .ledger k d (h k d hd) hb) rfl
    (append_nil _).symm (by simp)

theorem reapLocked_settling (checkedAt maxIdle : Int) : Settling w (w.reapLocked checkedAt maxIdle now).1 ∧
      ∀ d ∈ (w.reapLocked checkedAt maxIdle now).2, ∀ b ∈ d.bindings.values, Known w b := by
  have hdrop := foldl (fun w c => dropStale_settling w c now checkedAt)
    (w.staleConnections checkedAt maxIdle) w
  refine ⟨hdrop.trans (setLedger_settling _ fun k d hd => (expire_get? _ hd).1), ?_⟩
  intro d hd b hb
  obtain ⟨k, hk⟩ := expire_mem _ hd
  exact hdrop.known b (.ledger k d hk hb)

theorem setSweep_settling {w : World} (h : Settling w v) (n : Nat) {s : Option Sweep}
    (hs : ∀ stale expired, s = some (.reap stale expired) →
      ∀ d ∈ expired, ∀ b ∈ d.bindings.values, Known w b) : Settling w (v.setSweep n s) where
  nextBinding := h.nextBinding
  nextConn := h.nextConn
  narrow := h.narrow
  known := by
    intro b hk
    cases hk with
    | connection c hc => exact h.known b (.connection c hc)
    | ledger k d hd hc => exact h.known b (.ledger k d hd hc)
    | sweep m stale expired d hm hd hc =>
      by_cases hmn : m = n
      · subst hmn
        exact hs stale expired (by simpa [setSweep] using hm) d hd b hc
      · exact h.known b (.sweep m stale expired d (by simpa [setSweep, hmn] using hm) hd hc)
  completed := h.completed
  kept := h.kept
  counted := h.counted
  recorded := h.recorded

theorem reapRest_settling {w : World} (h : Settling w v) (now : Int) (expired : List DetachedClientShells)
    (hx : ∀ d ∈ expired, ∀ b ∈ d.bindings.values, Known w b) (stale : List ConnId) (n : Nat) :
    Settling w ((v.reapRest now expired stale).1.setSweep n (v.reapRest now expired stale).2) := by
  induction stale generalizing v with
  | nil =>
    refine setSweep_settling ?_ n (fun _ _ hs => by cases hs)
    exact h.complete (orphanDetached_completes v expired _ now) (orphans_known hx)
  | cons c stale ih =>
    have hfail := h.trans (failPending_settling v c "CLIENT_OFFLINE" "client capability heartbeat expired")
    simp only [reapRest]
    split
    · exact ih hfail
    refine setSweep_settling hfail n (fun _ _ hs => ?_)
    cases hs
    exact hx

theorem reapStale_settling (checkedAt maxIdle : Int) (n : Nat) :
    Settling w ((w.reapStale checkedAt maxIdle now).1.setSweep n (w.reapStale checkedAt maxIdle now).2) := by
  obtain ⟨hl, hx⟩ := reapLocked_settling w now checkedAt maxIdle
  exact reapRest_settling hl now _ hx _ n

theorem orphanLedger_settling : Settling w (w.orphanLedger now) := by
  refine complete (setLedger_settling w ?_)
    (orphanDetached_completes _ _ _ now) (orphans_known fun d hd b hb => ?_)
  · exact fun _ _ h => by cases h
  · obtain ⟨k, hk⟩ := (mem_values_iff _ _).mp hd
    exact .ledger k d hk hb

theorem closeRest_settling {w : World} (h : Settling w v) (now : Int) (cs : List ConnId) (n : Nat) :
    Settling w ((v.closeRest now cs).1.setSweep n (v.closeRest now cs).2) := by
  induction cs generalizing v with
  | nil => exact setSweep_settling (h.trans (orphanLedger_settling v now)) n (fun _ _ hs => by cases hs)
  | cons c cs ih =>
    have hclo := h.trans (unregister_settling v c now "CLIENT_OFFLINE" "client capability host disconnected")
    simp only [closeRest]
    split
    · exact ih hclo
    · exact setSweep_settling hclo n (fun _ _ hs => by cases hs)

theorem resumeSweep_settling {n : Nat} {s : Sweep} (hn : w.sweeps n = some s) :
    Settling w ((w.resumeSweep now s).1.setSweep n (w.resumeSweep now s).2) := by
  cases s with
  | reap stale expired =>
    exact reapRest_settling (refl w) now expired (fun d hd b hb => .sweep n stale expired d hn hd hb) stale n
  | shutdown rest => exact closeRest_settling (refl w) now rest n

theorem revokeConnection_settling (reason : String) : Settling w (revokeConnection reason now w c) := by
  have hi := Inert.failPending w c "CLIENT_REVOKED" reason
  exact (of_inert hi).complete (orphanShellBindings_completes _ _ _ now) (fun b hb => .connection c hb)

theorem closeDevice_settling (device reason : String) (epoch : Option Int) :
    Settling w (w.closeDevice device reason epoch now) := by
  have hblo : Settling w (w.blocked device epoch) := by
    refine of_moves rfl rfl rfl (fun _ _ h => h) (fun k d b hd hb => ?_) rfl (append_nil _).symm (by simp)
    have hd : (w.detachedShells.filter (fun k _ => k.1 != device)).get? k = some d := hd
    rw [get?_filter, filter_eq_some_iff] at hd
    exact .ledger k d hd.1 hb
  have hrem := foldl removeConnection_settling
    (w.revokedConnections device (w.revokedBelow device epoch)) (w.blocked device epoch)
  have hrev := foldl (fun w c => revokeConnection_settling w c now reason)
    (w.revokedConnections device (w.revokedBelow device epoch))
    ((w.revokedConnections device (w.revokedBelow device epoch)).foldl removeConnection (w.blocked device epoch))
  refine ((hblo.trans hrem).trans hrev).complete (orphanDetached_completes _ _ _ now)
    (orphans_known fun d hd b hb => ?_)
  obtain ⟨k, hk⟩ := (mem_values_iff _ _).mp hd
  rw [get?_filter, filter_eq_some_iff] at hk
  exact .ledger k d hk.1 hb

theorem receiveToolEvent_settling (frame : ToolEventFrame) : Settling w (w.receiveToolEvent c frame now).1 := by
  rcases receiveToolEvent_cases w c now frame with h | ⟨b, u, hb, _, hu, h⟩
  · rw [h]
    exact refl w
  rw [h]
  refine (of_completes hu ?_).trans (of_inert (Inert.setConn u c (fun _ => by rfl) (fun _ => by rfl)))
  intro b' hb'
  cases mem_singleton.mp hb'
  exact .connection c ((mem_values_iff _ _).mpr ⟨_, hb⟩)

theorem restorable_get? {conn : CapabilityConnection} {d : DetachedClientShells} (h : w.restorable conn now = some d) :
    w.detachedShells.get? conn.clientHost = some d ∧ graceOver now d = false := by
  unfold restorable at h
  rw [filter_eq_some_iff] at h
  exact ⟨h.1, by simpa using h.2⟩

theorem install_clientShells (conn : CapabilityConnection) : ((w.install conn now).conn w.nextConn).clientShells =
      ((w.restorable conn now).map DetachedClientShells.bindings).getD Dict.empty := by
  simp only [install, Function.update_self]
  rw [update_empty]

theorem install_detached (conn : CapabilityConnection) {k : HostKey} {d : DetachedClientShells} :
    (w.install conn now).detachedShells.get? k = some d ↔ w.detachedShells.get? k = some d ∧ k ≠ conn.clientHost ∧
        otherGeneration conn.key conn.generation k = false := by
  simp only [install, get?_filter, filter_eq_some_iff, get?_erase]
  by_cases hk : k = conn.clientHost <;> simp [hk]

theorem install_settling (conn : CapabilityConnection) : Settling w (w.install conn now) where
  nextBinding := rfl
  nextConn := Nat.le_succ _
  narrow := by
    intro c b hc hb
    have hne : c ≠ w.nextConn := by
      rcases hc with hc | hc
      · exact hc.ne
      · exact (Nat.lt_of_succ_le hc).ne'
    simpa [install, hne] using hb
  known := by
    intro b hk
    cases hk with
    | connection c h =>
      by_cases hc : c = w.nextConn
      · subst hc
        rw [install_clientShells] at h
        cases hr : w.restorable conn now with
        | none =>
          rw [hr] at h
          cases h
        | some d =>
          rw [hr] at h
          exact .ledger _ d (restorable_get? w now hr).1 h
      · exact .connection c (by simpa [install, hc] using h)
    | ledger k d hd h => exact .ledger k d ((install_detached w now conn).mp hd).1 h
    | sweep n stale expired d hn hd h => exact .sweep n stale expired d hn hd h
  completed := fun _ h => .inl h
  kept := fun _ h => h
  counted := fun _ => rfl
  recorded := fun _ _ h => h

theorem displaced_known (conn : CapabilityConnection) :
    ∀ d ∈ w.displaced conn now, ∀ b ∈ d.bindings.values, Known w b := by
  intro d hd b hb
  rcases mem_append.mp hd with hd | hd
  · rw [mem_toList, filter_eq_some_iff] at hd
    exact .ledger _ d hd.1 hb
  obtain ⟨k, hk⟩ := (mem_values_iff _ _).mp hd
  rw [get?_filter, filter_eq_some_iff, get?_erase] at hk
  obtain ⟨hk, _⟩ := hk
  split at hk
  · cases hk
  · exact .ledger k d hk hb

theorem handOver_settling {w : World} (h : Settling w v) (old : ConnId) {c : ConnId}
    (hc : w.nextConn ≤ c) (hv : c < v.nextConn) : Settling w (v.handOver old c) := by
  have hshe : ∀ d b, b ∈ ((v.handOver old c).conn d).clientShells.values →
      (d ≠ c ∧ b ∈ (v.conn d).clientShells.values) ∨
        b ∈ (v.conn c).clientShells.values ∨ b ∈ (v.conn old).clientShells.values := by
    intro d b hb
    by_cases hd : d = old
    · subst hd
      simp [handOver, setConn, values] at hb
    by_cases hdc : d = c
    · subst hdc
      simp only [handOver, setConn, Function.update_of_ne hd, Function.update_self] at hb
      exact .inr (mem_update_values hb)
    · simp only [handOver, setConn, Function.update_of_ne hd, Function.update_of_ne hdc] at hb
      exact .inl ⟨hdc, hb⟩
  refine ⟨h.nextBinding, h.nextConn, fun d b hd hb => ?_, fun b hk => ?_, h.completed, h.kept, h.counted, h.recorded⟩
  · by_cases hold : d = old
    · subst hold
      simp [handOver, setConn, values] at hb
    · have hne : d ≠ c := by
        rcases hd with hd | hd
        · exact (hd.trans_le hc).ne
        · exact (hv.trans_le hd).ne'
      simp only [handOver, setConn, Function.update_of_ne hold, Function.update_of_ne hne] at hb
      exact h.narrow d b hd hb
  apply h.known
  cases hk with
  | connection d hb =>
    rcases hshe d b hb with ⟨_, hb⟩ | hb | hb
    · exact .connection d hb
    · exact .connection c hb
    · exact .connection old hb
  | ledger k d hd hb => exact .ledger k d hd hb
  | sweep n stale expired d hn hd hb => exact .sweep n stale expired d hn hd hb

theorem replaceOld_settling {w : World} (h : Settling w v) (old : ConnId) {c : ConnId}
    (hc : w.nextConn ≤ c) (hv : c < v.nextConn) : Settling w (v.replaceOld old c now) := by
  unfold replaceOld
  refine trans ?_ (failPending_settling _ old _ _)
  refine trans ?_ (emit_settling _ rfl)
  split
  · exact handOver_settling h old hc hv
  · exact h.complete (orphanShellBindings_completes _ _ _ now) (fun b hb => h.known b (.connection old hb))

theorem commitRegister_settling (conn : CapabilityConnection) : Settling w (w.commitRegister conn now) := by
  unfold commitRegister
  have hd := (install_settling w now conn).complete
    (orphanDetached_completes _ (w.displaced conn now) "CLIENT_REPLACED" now)
    (orphans_known (displaced_known w now conn))
  cases w.connections.get? conn.key with
  | none => exact hd
  | some old =>
    refine replaceOld_settling now hd old le_rfl ?_
    rw [(orphanDetached_removes _ now _ _).nextConn]
    exact Nat.lt_succ_self _

end World

structure Records (w : World) (c : ConnId) (shellId : String) (shell : ClientShellBinding) (v : World) :
    Prop where
  conn : c < w.nextConn
  unused : (w.conn c).clientShells.get? shellId = none
  running : shell.completed = false
  inert : Inert (w.recordShell c shellId shell) v

section Steps

variable [Sha256]
variable {shell : ClientShellBinding} {shellId : String} {w : World}

theorem trackedShell_some {c : ConnId} {p : PendingCall} {result : Json}
    (h : w.trackedShell c p result = .ok (some (shellId, shell))) :
    (w.conn c).clientShells.get? shellId = none ∧ shell.completed = false := by
  simp only [trackedShell] at h
  split at h
  · cases h
  split at h
  · cases h
  split at h
  · cases h
  split at h
  · cases h
  split at h
  · cases h
  rename_i hnone _
  cases h
  exact ⟨by simpa using hnone, rfl⟩

theorem judgeResult_some {c : ConnId} {p : PendingCall} {result : Option Json} {value : Json}
    (h : w.judgeResult c p result = .ok (value, some (shellId, shell))) :
    (w.conn c).clientShells.get? shellId = none ∧ shell.completed = false := by
  unfold judgeResult at h
  split at h
  · cases h
  simp only at h
  split at h
  · cases h
  split at h
  · cases h
  split at h
  · cases h
  rename_i ht
  cases h
  exact trackedShell_some ht

theorem resolveResult_inert (w : World) (c : ConnId) (now : Int) (frame : ResultFrame) :
    Inert w (w.resolveResult c frame now).1 ∨
    ∃ ref value shell, w.accepts c frame ref value (some shell) ∧
      Inert (w.recordShell c shell.1 shell.2) (w.resolveResult c frame now).1 := by
  rcases resolveResult_cases w c now frame with h | ⟨ref, ⟨e, h⟩ | ⟨e, h⟩ | ⟨value, shell, ha, h⟩⟩
  · rw [h]
    exact .inl (Inert.refl w)
  · rw [h]
    exact .inl ((Inert.setPending w ref _).trans (Inert.emit _ rfl))
  · rw [h]
    exact .inl (Inert.setPending w ref _)
  · have hin : Inert (w.recordTracked c shell) (w.resolveResult c frame now).1 := by
      rw [h]
      exact ((Inert.setPending _ ref _).trans (Inert.emit _ rfl)).trans
        (Inert.setConn _ c (fun _ => by rfl) (fun _ => by rfl))
    cases shell with
    | none => exact .inl hin
    | some shell => exact .inr ⟨ref, value, shell, ha, hin⟩

theorem step_shells {e : Int × Event} (h : step w e = some v) :
    (∃ c frame ref value shellId shell, e.2 = .resolveResult c frame ∧
      w.accepts c frame ref value (some (shellId, shell)) ∧ Records w c shellId shell v) ∨ Settling w v := by
  obtain ⟨now, e⟩ := e
  cases stepped h with
  | refused => exact .inr (refl _)
  | @registered _ conn => exact .inr (commitRegister_settling w now conn)
  | @closed device reason epoch => exact .inr (closeDevice_settling w now device reason epoch)
  | @called id request => exact .inr (of_inert (callTool_inert w id request now))
  | @resumed id what t _ _ h => exact .inr (of_inert (resume_inert w id t now what h))
  | @updated c generation servers => exact .inr (of_inert (updateCatalog_inert w c generation servers))
  | @unregistered c code message => exact .inr (unregister_settling w c now code message)
  | @reaped n checkedAt maxIdle => exact .inr (reapStale_settling w now checkedAt maxIdle n)
  | @closedAll n => exact .inr (closeRest_settling (refl w) now _ n)
  | resumedSweep hs => exact .inr (resumeSweep_settling w now hs)
  | @cancelledSweep n => exact .inr (setSweep_settling (refl w) n (fun _ _ hs => by cases hs))
  | @socketClosed c | @beat c => exact .inr (of_inert (Inert.setConn w c (fun _ => rfl) (fun _ => rfl)))
  | @resolved c frame hc =>
    rcases resolveResult_inert w c now frame with hin | ⟨ref, value, shell, ha, hin⟩
    · exact .inr (of_inert hin)
    · obtain ⟨hu, hr⟩ := judgeResult_some ha.2.2.2.2
      exact .inl ⟨c, frame, ref, value, shell.1, shell.2, rfl, ha, hc, hu, hr, hin⟩
  | @told c frame => exact .inr (receiveToolEvent_settling w c now frame)
  | @received c frame => exact .inr (of_inert (receiveChunk_inert w c frame))

/-- Every binding that is kept or completed was recorded, and is completed once if at all. -/
structure ShellsSound (w : World) : Prop where
  known : ∀ b, Known w b → b < w.nextBinding
  born : ∀ b, (w.binding b).completed = true → b < w.nextBinding
  recorded : ∀ b c, .shellRecorded b c ∈ w.trace → b < w.nextBinding ∧ c < w.nextConn
  bare : ∀ c b, w.nextConn ≤ c → b ∉ (w.conn c).clientShells.values
  counted : ∀ b, completions w.trace b = (w.binding b).completed.toNat

omit [Sha256] in
theorem start_shellsSound (jobs recorder : Bool) : ShellsSound (start jobs recorder) where
  known := by
    intro b hk
    cases hk with
    | connection c h => cases h
    | ledger k d hd h => cases hd
    | sweep n stale expired d hn hd h => cases hn
  born := fun _ h => nomatch h
  recorded := fun _ _ h => nomatch h
  bare := fun _ _ _ h => nomatch h
  counted := fun _ => rfl

omit [Sha256] in
theorem Settling.sound (h : Settling w v) (hw : ShellsSound w) : ShellsSound v where
  known := fun b hk => h.nextBinding ▸ hw.known b (h.known b hk)
  born := by
    intro b hb
    rw [h.nextBinding]
    rcases h.completed b hb with hc | hc
    · exact hw.born b hc
    · exact hw.known b hc
  recorded := by
    intro b c hb
    obtain ⟨hlt, hc⟩ := hw.recorded b c (h.recorded b c hb)
    exact ⟨h.nextBinding ▸ hlt, hc.trans_le h.nextConn⟩
  bare := fun c b hc hb => hw.bare c b (h.nextConn.trans hc) (h.narrow c b (.inr hc) hb)
  counted := by
    intro b
    have h1 := h.counted b
    have h2 := hw.counted b
    omega

omit [Sha256] in
theorem recordShell_values {c : ConnId} {d : ConnId} {b : BindingId}
    (hb : b ∈ ((w.recordShell c shellId shell).conn d).clientShells.values) :
    b ∈ (w.conn d).clientShells.values ∨ (d = c ∧ b = w.nextBinding) := by
  by_cases hd : d = c
  · subst hd
    simp only [recordShell, setConn, emit, Function.update_self] at hb
    obtain ⟨k, hk⟩ := (mem_values_iff _ _).mp hb
    rw [get?_set] at hk
    split at hk
    · exact .inr ⟨rfl, (Option.some.inj hk).symm⟩
    · exact .inl ((mem_values_iff _ _).mpr ⟨k, hk⟩)
  · exact .inl (by simpa [recordShell, setConn, emit, hd] using hb)

omit [Sha256] in
theorem Records.sound {c : ConnId} (h : Records w c shellId shell v) (hw : ShellsSound w) : ShellsSound v := by
  refine (of_inert h.inert).sound ⟨fun b hk => ?_, fun b hb => ?_, fun b d hm => ?_,
    fun d b hd hb => ?_, fun b => ?_⟩
  · change b < w.nextBinding + 1
    cases hk with
    | connection d hb =>
      rcases recordShell_values hb with hb | ⟨_, rfl⟩
      · exact Nat.lt_succ_of_lt (hw.known b (.connection d hb))
      · exact Nat.lt_succ_self _
    | ledger k d hd hb => exact Nat.lt_succ_of_lt (hw.known b (.ledger k d hd hb))
    | sweep n stale expired d hn hd hb =>
      exact Nat.lt_succ_of_lt (hw.known b (.sweep n stale expired d hn hd hb))
  · change b < w.nextBinding + 1
    by_cases hn : b = w.nextBinding
    · subst hn
      exact Nat.lt_succ_self _
    · exact Nat.lt_succ_of_lt (hw.born b (by simpa [recordShell, setConn, emit, hn] using hb))
  · change b < w.nextBinding + 1 ∧ d < w.nextConn
    rcases mem_append.mp (hm : _ ∈ w.trace ++ [.shellRecorded w.nextBinding c]) with hm | hm
    · exact ⟨Nat.lt_succ_of_lt (hw.recorded b d hm).1, (hw.recorded b d hm).2⟩
    · cases mem_singleton.mp hm
      exact ⟨Nat.lt_succ_self _, h.conn⟩
  · rcases recordShell_values hb with hb | ⟨rfl, _⟩
    · exact hw.bare d b hd hb
    · exact absurd h.conn (Nat.not_lt.mpr hd)
  · have ht : (w.recordShell c shellId shell).trace = w.trace ++ [.shellRecorded w.nextBinding c] := rfl
    have h1 := hw.counted b
    have hnone : completions [.shellRecorded w.nextBinding c] b = 0 := rfl
    rw [ht, completions_append, hnone, h1]
    by_cases hn : b = w.nextBinding
    · subst hn
      have hfal : (w.binding w.nextBinding).completed = false := by
        by_contra hc
        exact Nat.lt_irrefl _ (hw.born _ (Bool.eq_true_of_not_eq_false hc))
      simp [recordShell, setConn, emit, h.running, hfal]
    · simp [recordShell, setConn, emit, hn]

theorem step_shellsSound {e : Int × Event} (hw : ShellsSound w) (h : step w e = some v) : ShellsSound v := by
  rcases step_shells h with ⟨_, _, _, _, _, _, _, _, hr⟩ | hs
  · exact hr.sound hw
  · exact hs.sound hw

end Steps

end OpenAgent.Gateway.Capabilities
