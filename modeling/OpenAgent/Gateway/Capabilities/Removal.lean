import OpenAgent.Gateway.Capabilities.Moves

namespace OpenAgent.Gateway.Capabilities

open Py List Option World

/-- Connections are only removed, each removal on record, and nothing else of the registry changes. -/
structure Shrinks (w v : World) : Prop where
  connections : ∀ k c, v.connections.get? k = some c → w.connections.get? k = some c
  floors : v.generationFloor = w.generationFloor
  blocks : v.deviceBlockEpoch = w.deviceBlockEpoch
  nextConn : v.nextConn = w.nextConn
  identity : ∀ c, (v.conn c).identity = (w.conn c).identity
  removed : ∀ k c, w.connections.get? k = some c → v.connections.get? k = some c ∨ .connectionRemoved c ∈ v.trace
  departed : ∀ c, .connectionRemoved c ∈ v.trace → .connectionRemoved c ∈ w.trace ∨
    ((w.registered c ∨ c < w.nextConn) ∧ ¬ v.registered c)
  history : w.trace <+: v.trace

def Effect.isRemoval : Effect → Bool
  | .connectionRemoved _ => true
  | _ => false

theorem isRemoval_of_isCall {e : Effect} (h : e.isCall) : e.isRemoval = false := by
  cases e with
  | connectionRemoved => cases h
  | _ => rfl

def Effect.isDispatch : Effect → Bool
  | .toolCallSent .. | .callEnded .. => true
  | _ => false

def PendingSound (trace : List Effect) (r : PendingRef) (p : PendingCall) : Prop :=
  ((∃ value, p.future = .result value) → p.determinateResponseReceived = true) ∧
    (p.determinateResponseReceived = true → .determinateResponse r ∈ trace)

structure CallsKept (w v : World) : Prop where
  calls : v.calls = w.calls
  contract : ∀ r, (v.pending r).classification = (w.pending r).classification ∧
    (v.pending r).dispatchStarted = (w.pending r).dispatchStarted
  sound : ∀ r, PendingSound w.trace r (w.pending r) → PendingSound v.trace r (v.pending r)
  trace : ∃ tr, v.trace = w.trace ++ tr ∧ ∀ e ∈ tr, e.isDispatch = false

structure Removes (w v : World) : Prop extends Shrinks w v, CallsKept w v

open Removes

variable {a b : CapabilityConnection}

theorem identity_key (h : a.identity = b.identity) : a.key = b.key :=
  congrArg Identity.key h

theorem identity_generation (h : a.identity = b.identity) : a.generation = b.generation := congrArg Identity.generation h

theorem identity_authEpoch (h : a.identity = b.identity) : a.authEpoch = b.authEpoch := congrArg Identity.authEpoch h

variable {tr : List Effect}

theorem PendingSound.of_prefix {us : List Effect} {r : PendingRef} {p : PendingCall}
    (h : PendingSound tr r p) (hp : tr <+: us) : PendingSound us r p :=
  ⟨h.1, fun hd => hp.subset (h.2 hd)⟩

namespace Shrinks

variable {w v u : World}

theorem refl (w : World) : Shrinks w w :=
  ⟨fun _ _ h => h, rfl, rfl, rfl, fun _ => rfl, fun _ _ h => .inl h, fun _ h => .inl h, prefix_rfl⟩

theorem registered (h : Shrinks w v) {c : ConnId} (hc : v.registered c) : w.registered c := by
  unfold World.registered at hc ⊢
  rw [identity_key (h.identity c)] at hc
  exact h.connections _ _ hc

theorem trans (h : Shrinks w v) (k : Shrinks v u) : Shrinks w u where
  connections := fun key c hc => h.connections key c (k.connections key c hc)
  floors := k.floors.trans h.floors
  blocks := k.blocks.trans h.blocks
  nextConn := k.nextConn.trans h.nextConn
  identity := fun c => (k.identity c).trans (h.identity c)
  removed := by
    intro key c hc
    rcases h.removed key c hc with hv | hv
    · exact k.removed key c hv
    · exact .inr (k.history.subset hv)
  departed := by
    intro c hc
    rcases k.departed c hc with hv | ⟨hr, hu⟩
    · rcases h.departed c hv with hw | ⟨hr, hn⟩
      · exact .inl hw
      · exact .inr ⟨hr, fun hu => hn (k.registered hu)⟩
    refine .inr ⟨?_, hu⟩
    rcases hr with hr | hr
    · exact .inl (h.registered hr)
    · exact .inr (h.nextConn ▸ hr)
  history := h.history.trans k.history

theorem of_connections (hc : v.connections = w.connections)
    (hf : v.generationFloor = w.generationFloor) (hb : v.deviceBlockEpoch = w.deviceBlockEpoch)
    (hn : v.nextConn = w.nextConn) (hi : ∀ c, (v.conn c).identity = (w.conn c).identity)
    (ht : v.trace = w.trace ++ tr) (htr : ∀ e ∈ tr, e.isRemoval = false) :
    Shrinks w v where
  connections := fun _ _ h => hc ▸ h
  floors := hf
  blocks := hb
  nextConn := hn
  identity := hi
  removed := fun _ _ h => .inl (hc ▸ h)
  departed := by
    intro c hm
    rw [ht] at hm
    rcases mem_append.mp hm with hm | hm
    · exact .inl hm
    · cases htr _ hm
  history := ⟨tr, ht.symm⟩

theorem of_silent (hc : v.connections = w.connections) (hf : v.generationFloor = w.generationFloor)
    (hb : v.deviceBlockEpoch = w.deviceBlockEpoch) (hn : v.nextConn = w.nextConn)
    (hi : ∀ c, (v.conn c).identity = (w.conn c).identity) (ht : v.trace = w.trace) : Shrinks w v :=
  of_connections hc hf hb hn hi (ht.trans (append_nil _).symm) (by simp)

theorem of_inert (h : Inert w v) : Shrinks w v := by
  obtain ⟨tr, ht, htr⟩ := h.history
  have hrest := h.rest
  refine of_connections ?_ ?_ ?_ ?_ h.identity ht (fun e he => ?_)
  · rw [hrest]
  · rw [hrest]
  · rw [hrest]
  · rw [hrest]
  · exact isRemoval_of_isCall (htr e he)

theorem blockEpoch (h : Shrinks w v) (d : String) : v.blockEpoch d = w.blockEpoch d := by
  rw [World.blockEpoch, h.blocks]
  rfl

end Shrinks

namespace Removes

variable {w v u : World}

theorem trans (h : Removes w v) (k : Removes v u) : Removes w u where
  toShrinks := h.toShrinks.trans k.toShrinks
  calls := k.calls.trans h.calls
  contract := fun r => ⟨(k.contract r).1.trans (h.contract r).1, (k.contract r).2.trans (h.contract r).2⟩
  sound := fun r hr => k.sound r (h.sound r hr)
  trace := by
    obtain ⟨tr, hv, htr⟩ := h.trace
    obtain ⟨us, hu, hus⟩ := k.trace
    refine ⟨tr ++ us, by rw [hu, hv, append_assoc], fun e he => ?_⟩
    rcases mem_append.mp he with he | he
    · exact htr e he
    · exact hus e he

theorem of_shrinks (h : Shrinks w v) (hc : v.calls = w.calls) (hp : v.pending = w.pending)
    (ht : v.trace = w.trace ++ tr) (htr : ∀ e ∈ tr, e.isDispatch = false) :
    Removes w v where
  toShrinks := h
  calls := hc
  contract := fun r => by rw [hp]; exact ⟨rfl, rfl⟩
  sound := fun r hr => by rw [hp]; exact hr.of_prefix h.history
  trace := ⟨tr, ht, htr⟩

theorem refl (w : World) : Removes w w :=
  of_shrinks (Shrinks.refl w) rfl rfl (append_nil _).symm (by simp)

theorem emit (w : World) {e : Effect} (hr : e.isRemoval = false) (hd : e.isDispatch = false) : Removes w (w.emit e) :=
  of_shrinks (Shrinks.of_connections rfl rfl rfl rfl (fun _ => rfl)
    (rfl : _ = w.trace ++ [e]) (by simpa using hr)) rfl rfl rfl (by simpa using hd)

theorem setConn (w : World) (c : ConnId) {f : CapabilityConnection → CapabilityConnection}
    (hf : ∀ conn, (f conn).identity = conn.identity) : Removes w (w.setConn c f) := by
  refine of_shrinks (Shrinks.of_silent rfl rfl rfl rfl (fun d => ?_) rfl) rfl rfl (append_nil _).symm (by simp)
  by_cases hd : d = c
  · subst hd
    simpa [World.setConn] using hf _
  · simp [World.setConn, hd]

theorem setPendings (w : World) (f : PendingRef → PendingCall)
    (hf : ∀ r, (f r).classification = (w.pending r).classification ∧
      (f r).dispatchStarted = (w.pending r).dispatchStarted)
    (hs : ∀ r, PendingSound w.trace r (w.pending r) → PendingSound w.trace r (f r)) :
    Removes w { w with pending := f } where
  toShrinks := Shrinks.of_silent rfl rfl rfl rfl (fun _ => rfl) rfl
  calls := rfl
  contract := hf
  sound := hs
  trace := ⟨[], (append_nil _).symm, by simp⟩

theorem of_completes {bs : List BindingId} (h : Completes w v bs) : Removes w v := by
  obtain ⟨tr, hv, htr⟩ := h.rest
  rw [hv]
  refine of_shrinks (Shrinks.of_connections rfl rfl rfl rfl (fun _ => rfl) rfl ?_) rfl rfl rfl ?_
  · intro e he
    obtain ⟨b, event, rfl⟩ := htr e he
    rfl
  intro e he
  obtain ⟨b, event, rfl⟩ := htr e he
  rfl

theorem foldl {α : Type} {f : World → α → World} (hf : ∀ w a, Removes w (f w a)) (l : List α)
    (w : World) : Removes w (l.foldl f w) := by
  induction l generalizing w with
  | nil => exact refl w
  | cons a l ih => exact (hf w a).trans (ih _)

end Removes

namespace World

variable (w : World) (c : ConnId) (now : Int)

theorem removeConnection_not_registered : ¬ (w.removeConnection c).registered c := by
  unfold removeConnection
  split
  · simp [registered, emit]
  · assumption

theorem removeConnection_removes : Removes w (w.removeConnection c) := by
  have hnot := removeConnection_not_registered w c
  unfold removeConnection at hnot ⊢
  split
  · rename_i hr
    rw [if_pos hr] at hnot
    refine of_shrinks ?_ rfl rfl (rfl : _ = w.trace ++ [.connectionRemoved c]) (by simp [Effect.isDispatch])
    refine ⟨fun k d h => ?_, rfl, rfl, rfl, fun _ => rfl, fun k d h => ?_, fun d h => ?_, ⟨_, rfl⟩⟩
    · simp only [emit, Dict.get?_erase] at h
      split at h
      · cases h
      · exact h
    · by_cases hk : k = (w.conn c).key
      · subst hk
        cases Option.some.inj (hr.symm.trans h)
        exact .inr (by simp [emit])
      · exact .inl ((Dict.get?_erase_of_ne _ hk).trans h)
    simp only [emit, mem_append, mem_singleton, Effect.connectionRemoved.injEq] at h
    rcases h with h | rfl
    · exact .inl h
    · exact .inr ⟨.inl hr, hnot⟩
  · exact refl w

theorem foldl_removeConnection_not_registered {cs : List ConnId} (hc : c ∈ cs) :
    ¬ (cs.foldl removeConnection w).registered c := by
  induction cs generalizing w with
  | nil => cases hc
  | cons d cs ih =>
    rcases mem_cons.mp hc with rfl | hc
    · intro hr
      exact removeConnection_not_registered w c ((foldl removeConnection_removes cs _).registered hr)
    · exact ih _ hc

theorem failFuture_sound {r : PendingRef} {p : PendingCall} (code message : String)
    (h : PendingSound tr r p) : PendingSound tr r (failFuture code message p) := by
  unfold failFuture
  split
  · exact h
  · exact ⟨fun ⟨_, hv⟩ => (nomatch hv), h.2⟩

theorem failFuture_contract (code message : String) (p : PendingCall) :
    (failFuture code message p).classification = p.classification ∧
      (failFuture code message p).dispatchStarted = p.dispatchStarted := by
  unfold failFuture
  split
  · exact ⟨rfl, rfl⟩
  · exact ⟨rfl, rfl⟩

theorem failPending_removes (code message : String) : Removes w (w.failPending c code message) := by
  unfold failPending
  refine Removes.trans (Removes.setPendings w _ ?_ ?_) (Removes.setConn _ c (fun _ => by rfl))
  · intro r
    split
    · exact failFuture_contract code message _
    · exact ⟨rfl, rfl⟩
  intro r h
  split
  · exact failFuture_sound code message h
  · exact h

theorem orphanDetached_removes (ds : List DetachedClientShells) (signal : String) :
    Removes w (w.orphanDetached ds signal now) :=
  of_completes (orphanDetached_completes w ds signal now)

theorem orphanShellBindings_removes (bs : List BindingId) (signal : String) :
    Removes w (w.orphanShellBindings bs signal now) :=
  of_completes (orphanShellBindings_completes w bs signal now)

theorem setLedger_removes (ledger : Ledger) : Removes w { w with detachedShells := ledger } :=
  of_shrinks (Shrinks.of_silent rfl rfl rfl rfl (fun _ => rfl) rfl) rfl rfl (append_nil _).symm (by simp)

theorem setSweep_removes (n : Nat) (s : Option Sweep) : Removes w (w.setSweep n s) :=
  of_shrinks (Shrinks.of_silent rfl rfl rfl rfl (fun _ => rfl) rfl) rfl rfl (append_nil _).symm (by simp)

theorem detachShells_removes (detachedAt : Int) : Removes w (w.detachShells c detachedAt now) := by
  simp only [detachShells]
  split
  · exact Removes.refl w
  · exact ((setLedger_removes w _).trans (Removes.setConn _ c (fun _ => by rfl))).trans
      (orphanDetached_removes _ now _ _)

theorem unregister_removes (code message : String) : Removes w (w.unregister c code message now) := by
  unfold unregister
  refine trans ?_ (failPending_removes _ c code message)
  split
  · exact (removeConnection_removes w c).trans (detachShells_removes _ c now now)
  · exact refl w

theorem dropStale_removes (checkedAt : Int) : Removes w (dropStale checkedAt now w c) := by
  unfold dropStale
  split
  · exact (removeConnection_removes w c).trans (detachShells_removes _ c now checkedAt)
  · exact refl w

theorem reapRest_removes (expired : List DetachedClientShells) (stale : List ConnId) :
    Removes w (w.reapRest now expired stale).1 := by
  induction stale generalizing w with
  | nil => exact orphanDetached_removes w now expired _
  | cons c stale ih =>
    simp only [reapRest]
    split
    · exact (failPending_removes w c _ _).trans (ih _)
    · exact failPending_removes w c _ _

theorem reapLocked_removes (checkedAt maxIdle : Int) : Removes w (w.reapLocked checkedAt maxIdle now).1 :=
  (foldl (fun w c => dropStale_removes w c now checkedAt)
    (w.staleConnections checkedAt maxIdle) w).trans (setLedger_removes _ _)

theorem reapStale_removes (checkedAt maxIdle : Int) : Removes w (w.reapStale checkedAt maxIdle now).1 :=
  (reapLocked_removes w now checkedAt maxIdle).trans (reapRest_removes _ now _ _)

theorem closeRest_removes (cs : List ConnId) : Removes w (w.closeRest now cs).1 := by
  induction cs generalizing w with
  | nil => exact (setLedger_removes w _).trans (orphanDetached_removes _ now _ _)
  | cons c cs ih =>
    simp only [closeRest]
    split
    · exact (unregister_removes w c now _ _).trans (ih _)
    · exact unregister_removes w c now _ _

theorem resumeSweep_removes (s : Sweep) : Removes w (w.resumeSweep now s).1 := by
  cases s with
  | reap stale expired => exact reapRest_removes w now expired stale
  | shutdown rest => exact closeRest_removes w now rest

theorem updateCatalog_removes (generation : Int) (servers : Except ClientCapabilityError Catalog) :
    Removes w (w.updateCatalog c generation servers).1 := by
  unfold updateCatalog
  split
  · exact refl w
  cases servers with
  | error e => exact refl w
  | ok catalog =>
    dsimp only
    split
    · exact refl w
    split
    · exact refl w
    · dsimp only
      exact Removes.setConn w c (fun _ => by rfl)

theorem recordShell_removes (shellId : String) (shell : ClientShellBinding) :
    Removes w (w.recordShell c shellId shell) := by
  unfold recordShell
  refine Removes.trans (Removes.trans ?_ (Removes.setConn _ c (fun _ => by rfl))) (Removes.emit _ rfl rfl)
  exact Removes.of_shrinks (Shrinks.of_silent rfl rfl rfl rfl (fun _ => rfl) rfl) rfl
    rfl (append_nil _).symm (by simp)

theorem settle_removes (ref : PendingRef) (e : ClientCapabilityError) : Removes w (w.settle ref (.exception e)) := by
  refine setPendings w _ (fun r => ?_) (fun r h => ?_)
  · by_cases hr : r = ref <;> simp [hr]
  by_cases hr : r = ref
  · subst hr
    rw [Function.update_self]
    exact ⟨fun hv => by simp at hv, h.2⟩
  · rw [Function.update_of_ne hr]
    exact h

theorem settleDeterminate_removes (ref : PendingRef) (future : FutureState) :
    Removes w (w.settleDeterminate ref future) where
  toShrinks := Shrinks.of_connections rfl rfl rfl rfl (fun _ => rfl)
    (rfl : _ = w.trace ++ [.determinateResponse ref]) (by simp [Effect.isRemoval])
  calls := rfl
  contract := by
    intro r
    by_cases hr : r = ref <;> simp [settleDeterminate, setPending, emit, hr]
  sound := by
    intro r h
    by_cases hr : r = ref
    · subst hr
      simp [PendingSound, settleDeterminate, setPending, emit]
    · simp only [settleDeterminate, setPending, emit, Function.update_of_ne hr]
      exact h.of_prefix ⟨_, rfl⟩
  trace := ⟨[.determinateResponse ref], rfl, by simp [Effect.isDispatch]⟩

variable [Sha256]

/-- Whether `resolve_result` accepts a frame, with the result and the shell that it records, if any. -/
def accepts (frame : ResultFrame) (ref : PendingRef) (value : Json)
    (shell : Option (String × ClientShellBinding)) : Prop :=
  (w.conn c).pending.get? frame.callId = some ref ∧ frame.generation = (w.pending ref).generation ∧
    (w.pending ref).future.done = false ∧ frame.error.isObj = false ∧
    w.judgeResult c (w.pending ref) frame.result = .ok (value, shell)

theorem resolveResult_cases (frame : ResultFrame) : (w.resolveResult c frame now).1 = w ∨
    ∃ ref, ((∃ e, (w.resolveResult c frame now).1 = w.settleDeterminate ref (.exception e)) ∨
      (∃ e, (w.resolveResult c frame now).1 = w.settle ref (.exception e)) ∨
      ∃ value shell, w.accepts c frame ref value shell ∧ (w.resolveResult c frame now).1 =
          ((w.recordTracked c shell).settleDeterminate ref (.result value)).setConn c
            (fun conn => { conn with lastSeenAt := now })) := by
  simp only [resolveResult]
  cases hp : (w.conn c).pending.get? frame.callId with
  | none => exact .inl rfl
  | some ref =>
    simp only
    split
    · exact .inl rfl
    rename_i hg
    split
    · exact .inl rfl
    rename_i hd
    refine .inr ⟨ref, ?_⟩
    split
    · exact .inl ⟨_, rfl⟩
    rename_i he
    cases hj : w.judgeResult c (w.pending ref) frame.result with
    | error e => exact .inr (.inl ⟨e, rfl⟩)
    | ok judged => exact .inr (.inr ⟨judged.1, judged.2, ⟨hp, not_not.mp hg,
        Bool.eq_false_iff.mpr hd, Bool.eq_false_iff.mpr he, hj⟩, rfl⟩)

theorem resolveResult_removes (frame : ResultFrame) : Removes w (w.resolveResult c frame now).1 := by
  rcases resolveResult_cases w c now frame with h | ⟨ref, ⟨e, h⟩ | ⟨e, h⟩ | ⟨value, shell, _, h⟩⟩
  · rw [h]
    exact refl w
  · rw [h]
    exact settleDeterminate_removes w ref _
  · rw [h]
    exact settle_removes w ref e
  · rw [h]
    refine Removes.trans (Removes.trans ?_ (settleDeterminate_removes _ ref _)) (Removes.setConn _ c (fun _ => by rfl))
    cases shell with
    | none => exact refl w
    | some shell => exact recordShell_removes w c shell.1 shell.2

omit [Sha256] in
theorem receiveToolEvent_cases (frame : ToolEventFrame) : (w.receiveToolEvent c frame now).1 = w ∨
    ∃ b u, (w.conn c).clientShells.get? (strip frame.shellId) = some b ∧
      (w.binding b).completed = false ∧ Completes w u [b] ∧
      (w.receiveToolEvent c frame now).1 = u.setConn c (fun conn => { conn with lastSeenAt := now }) := by
  simp only [receiveToolEvent]
  iterate 4 (split; exact .inl rfl)
  cases hb : (w.conn c).clientShells.get? (strip frame.shellId) with
  | none => exact .inl rfl
  | some b =>
    simp only
    split
    · exact .inl rfl
    split
    · exact .inl rfl
    rename_i hc
    cases terminalOf frame with
    | error e => exact .inl rfl
    | ok t =>
      rw [Bool.not_eq_true] at hc
      exact .inr ⟨b, _, rfl, hc, completeShell_completes w b hc _ _ _ _ _ _, rfl⟩

omit [Sha256] in
theorem receiveToolEvent_removes (frame : ToolEventFrame) : Removes w (w.receiveToolEvent c frame now).1 := by
  rcases receiveToolEvent_cases w c now frame with h | ⟨b, u, _, _, hu, h⟩
  · rw [h]
    exact refl w
  · rw [h]
    exact (Removes.of_completes hu).trans (Removes.setConn u c (fun _ => by rfl))

theorem receiveChunk_removes (frame : ChunkFrame) : Removes w (w.receiveChunk c frame).1 := by
  unfold receiveChunk
  split
  · exact refl w
  rename_i ref _
  split
  · exact refl w
  refine setPendings w _ (fun r => ?_) (fun r h => ?_)
  · by_cases hr : r = ref <;> simp [hr]
  by_cases hr : r = ref
  · subst hr
    rw [Function.update_self]
    exact h
  · rw [Function.update_of_ne hr]
    exact h

end World

variable [Sha256]

def Sends (w v : World) (e : Int × Event) : Prop :=
  ∃ id t, w.calls id = some t ∧ t.phase = .recording ∧ e.2 = .resume id (.recorded (.ok ())) ∧ v = w.sendCall id t

theorem step_cases {w v : World} {e : Int × Event} (h : step w e = some v) :
    (∃ hello conn, e.2 = .register hello ∧ w.accept hello = .ok conn ∧ v = w.commitRegister conn e.1) ∨
    (∃ device reason epoch, e.2 = .closeDevice device reason epoch ∧ v = w.closeDevice device reason epoch e.1) ∨
    (∃ id t, w.calls id = none ∧ Attempts w id t v) ∨
    (∃ id t, w.calls id = some t ∧ (∀ o, t.phase ≠ .ended o) ∧ CallMove w id t v) ∨
    Sends w v e ∨ Removes w v := by
  obtain ⟨now, e⟩ := e
  cases stepped h
  case registered hello conn ha => exact .inl ⟨hello, conn, rfl, ha, rfl⟩
  case closed device reason epoch => exact .inr (.inl ⟨device, reason, epoch, rfl, rfl⟩)
  case called id request hfre =>
    rcases callTool_attempts request now with hm | ⟨t, hm⟩
    · rw [hm]
      exact .inr (.inr (.inr (.inr (.inr (refl w)))))
    · exact .inr (.inr (.inl ⟨id, t, hfre, hm⟩))
  case resumed id what t ht h =>
    rcases resume_moves now what h with ⟨rfl, hr, rfl⟩ | hm
    · exact .inr (.inr (.inr (.inr (.inl ⟨id, t, ht, hr, rfl, rfl⟩))))
    · exact .inr (.inr (.inr (.inl ⟨id, t, ht, resume_live h, hm⟩)))
  all_goals refine .inr (.inr (.inr (.inr (.inr ?_))))
  case refused => exact refl w
  case updated c generation servers _ => exact updateCatalog_removes w c generation servers
  case unregistered c code message _ => exact unregister_removes w c now code message
  case reaped n checkedAt maxIdle _ => exact (reapStale_removes w now checkedAt maxIdle).trans (setSweep_removes _ n _)
  case closedAll n _ => exact (closeRest_removes w now _).trans (setSweep_removes _ n _)
  case resumedSweep n s _ => exact (resumeSweep_removes w now s).trans (setSweep_removes _ n _)
  case cancelledSweep n _ _ => exact setSweep_removes w n none
  case socketClosed c _ | beat c _ => exact setConn w c fun _ => rfl
  case resolved c frame _ => exact resolveResult_removes w c now frame
  case told c frame _ => exact receiveToolEvent_removes w c now frame
  case received c frame _ => exact receiveChunk_removes w c frame

end OpenAgent.Gateway.Capabilities
