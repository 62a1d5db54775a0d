import OpenAgent.Desktop.CapabilityManager

namespace OpenAgent.Desktop.CapabilityManager

open Py List Option CapabilityManager Bool

/-- What a revocation promises: no socket and no admitted call while it stands, and a tombstone for an emergency. -/
structure Safe (s : State) : Prop where
  detached : s.revoked → s.sockets = .empty
  invoke : s.revoked → ∀ accountId call, ∃ e, invoke s accountId call = .error e
  readResource : s.revoked → ∀ accountId call, ∃ e, readResource s accountId call = .error e
  tombstone : s.emergency → s.emergencyRevokePending

def Task.timely (s : State) (task : Task) (answer : Answer) : Bool :=
  match task.continuation, answer with
  | .consentWritten true, .done => task.called || (!s.revoked && !s.emergency)
  | .initialized _, .status (some consent) | .statusRead _ _, .status (some consent) =>
    !consent.enabled || task.fresh || !s.revoked || s.emergencyRevokePending || s.consentWriteInProgress
  | .pollRead, .status (some consent) =>
    !consent.enabled || (task.called && task.fresh) || !s.revoked || s.consent.enabled
  | .persisting .poll, .done => task.called || !s.emergency
  | _, _ => true

def Timely (s : State) (event : Event) : Prop :=
  match event with
  | .resumes i _ => ∀ task ∈ s.tasks[i]?, ∀ answer ∈ task.answer, task.timely s answer = true
  | _ => True

def Continuation.enables (continuation : Continuation) : Bool :=
  match continuation with
  | .enabling enabled | .consentWritten enabled => enabled
  | _ => false

def Enabling (s : State) : Prop := ∃ task ∈ s.tasks, task.continuation.enables = true ∧ task.called = true

structure Guarded (s : State) : Prop where
  blocked : s.revoked = true → s.emergencyBlocked = true
  detached : s.revoked = true → s.sockets = .empty
  tombstone : s.emergency = true → s.emergencyRevokePending = true
  superseded : s.emergency = true → ¬ Enabling s

open Guarded

/-- What the parts of an operation that write no flag leave as it was. -/
structure Keeps (s t : State) : Prop where
  blocked : t.emergencyBlocked = s.emergencyBlocked
  pending : t.emergencyRevokePending = s.emergencyRevokePending
  revoked : t.revoked = s.revoked
  emergency : t.emergency = s.emergency
  detached : s.emergencyBlocked = true → s.sockets = .empty → t.sockets = .empty
  enabling : Enabling t → Enabling s

namespace Keeps

variable {s t u : State}

theorem refl (s : State) : Keeps s s := ⟨rfl, rfl, rfl, rfl, fun _ h => h, id⟩

theorem trans (h : Keeps s t) (k : Keeps t u) : Keeps s u where
  blocked := k.blocked.trans h.blocked
  pending := k.pending.trans h.pending
  revoked := k.revoked.trans h.revoked
  emergency := k.emergency.trans h.emergency
  detached hb hd := k.detached (h.blocked.trans hb) (h.detached hb hd)
  enabling := h.enabling ∘ k.enabling

end Keeps

variable {s : State}

theorem Guarded.mono {s t : State} (hs : Guarded s) (h : Keeps s t) : Guarded t where
  blocked hr := h.blocked.trans (hs.blocked (h.revoked ▸ hr))
  detached hr := h.detached (hs.blocked (h.revoked ▸ hr)) (hs.detached (h.revoked ▸ hr))
  tombstone he := h.pending.trans (hs.tombstone (h.emergency ▸ he))
  superseded he := hs.superseded (h.emergency ▸ he) ∘ h.enabling

theorem Enabling.of_append {task : Task} {tasks : List Task}
    (hn : task.continuation.enables = false ∨ task.called = false)
    (h : ∃ u ∈ tasks ++ [task], u.continuation.enables = true ∧ u.called = true) (hs : tasks = s.tasks) :
    Enabling s := by
  obtain ⟨u, hu, he, hc⟩ := h
  rcases mem_append.mp hu with hu | hu
  · exact ⟨u, hs ▸ hu, he, hc⟩
  · rw [mem_singleton.mp hu] at he hc
    rcases hn with hn | hn <;> simp_all

variable {called : Bool}

section Helpers

variable (s : State)

theorem keeps_wait {k : Continuation} (request : Request)
    (hn : k.enables = false ∨ called = false) : Keeps s (wait s k request called) :=
  ⟨rfl, rfl, rfl, rfl, fun _ h => h, fun h => Enabling.of_append hn h rfl⟩

theorem keeps_settle {k : Continuation} (answer : Answer)
    (hn : k.enables = false ∨ called = false) : Keeps s (settle s k answer called) :=
  ⟨rfl, rfl, rfl, rfl, fun _ h => h, fun h => Enabling.of_append hn h rfl⟩

theorem keeps_map (f : Task → Task) (hk : ∀ task, (f task).continuation = task.continuation)
    (hc : ∀ task, (f task).called = true → task.called = true) : Keeps s { s with tasks := s.tasks.map f } where
  blocked := rfl
  pending := rfl
  revoked := rfl
  emergency := rfl
  detached _ h := h
  enabling := by
    rintro ⟨u, hu, he, hu'⟩
    obtain ⟨task, ht, rfl⟩ := mem_map.mp hu
    exact ⟨task, ht, hk task ▸ he, hc task hu'⟩

theorem keeps_rejectPending : Keeps s (rejectPending s) := by
  apply keeps_map
  · intro task
    split <;> rfl
  · intro task h
    split at h <;> exact h

theorem keeps_attachSocket (accountId : String) : Keeps s (attachSocket s accountId) := by
  rw [attachSocket]
  split
  · exact .refl s
  rename_i hopen
  split
  · exact .refl s
  split
  · exact .refl s
  -- a socket is attached only while nothing is blocked
  refine ⟨rfl, rfl, rfl, rfl, fun hb _ => ?_, id⟩
  simp [hb] at hopen

theorem keeps_attachAll : Keeps s (attachAll s) := by
  rw [attachAll]
  generalize s.targets.keys = accounts
  induction accounts generalizing s with
  | nil => exact .refl s
  | cons accountId accounts ih => exact (keeps_attachSocket s accountId).trans (ih _)

theorem keeps_startStatusPolling : Keeps s (startStatusPolling s) := by
  rw [startStatusPolling]
  split
  · exact .refl s
  · exact ⟨rfl, rfl, rfl, rfl, fun _ h => h, id⟩

theorem keeps_startCatalogPolling : Keeps s (startCatalogPolling s) := by
  rw [startCatalogPolling]
  split
  · exact .refl s
  · exact ⟨rfl, rfl, rfl, rfl, fun _ h => h, id⟩

theorem keeps_scheduleHostRetry : Keeps s (scheduleHostRetry s) := by
  rw [scheduleHostRetry]
  split
  · exact .refl s
  · exact ⟨rfl, rfl, rfl, rfl, fun _ h => h, id⟩

theorem keeps_disableRuntime : Keeps s (disableRuntime s) := by
  refine Keeps.trans ?_ (keeps_startStatusPolling _)
  exact ⟨rfl, rfl, rfl, rfl, fun _ _ => rfl, id⟩

theorem keeps_ensureHost (controlOnly : Bool) : Keeps s (ensureHost s controlOnly).1 := by
  rw [ensureHost]
  split
  · exact .refl s
  split
  · dsimp only
    split
    · exact (keeps_startStatusPolling s).trans (keeps_attachAll _)
    · exact keeps_startStatusPolling s
  split
  · exact .refl s
  · exact (keeps_wait s .start (.inl rfl)).trans ⟨rfl, rfl, rfl, rfl, fun _ h => h, id⟩

theorem keeps_startEnded : Keeps s (startEnded s) := by
  refine Keeps.trans (t := { s with hostStarting := false }) ⟨rfl, rfl, rfl, rfl, fun _ h => h, id⟩ ?_
  apply keeps_map
  · intro task
    split <;> rfl
  · intro task h
    split at h <;> exact h

theorem keeps_startFailed : Keeps s (startFailed s) := by
  refine Keeps.trans ?_ (keeps_scheduleHostRetry _)
  refine Keeps.trans ?_ (keeps_startEnded _)
  exact ⟨rfl, rfl, rfl, rfl, fun _ h => h, id⟩

theorem keeps_handBack (caller : Refresher) (answer : Answer) (called : Bool) :
    Keeps s (handBack s (served caller) answer called) := by
  cases caller with
  | start | enable | poll => exact keeps_settle s answer (.inl rfl)
  | tick => exact .refl s

theorem keeps_refreshCatalog (caller : Refresher) (called : Bool) : Keeps s (refreshCatalog s caller called) := by
  rw [refreshCatalog]
  split
  · exact keeps_handBack s caller .done called
  · exact keeps_wait s .catalog (.inl rfl)

theorem persistedFor_enables (caller : Revoker) : (persistedFor caller).enables = false := by
  cases caller <;> rfl

theorem keeps_persistEmergencyRevocation (caller : Revoker) (called : Bool) :
    Keeps s (persistEmergencyRevocation s caller called) := by
  rw [persistEmergencyRevocation]
  split
  · exact keeps_settle s .done (.inl (persistedFor_enables caller))
  split
  · exact keeps_settle s .failed (.inl (persistedFor_enables caller))
  · exact keeps_wait s _ (.inl rfl)

theorem keeps_releaseNext (controlOnly : Bool) : Keeps s (releaseNext s controlOnly) := by
  rw [releaseNext]
  split
  · exact keeps_settle s .done (.inl rfl)
  · exact keeps_wait s _ (.inl rfl)

theorem keeps_releaseStalePrincipals (controlOnly : Bool) : Keeps s (releaseStalePrincipals s controlOnly) := by
  rw [releaseStalePrincipals]
  split
  · exact keeps_settle s .done (.inl rfl)
  · exact keeps_releaseNext s controlOnly

theorem keeps_startGranted (controlOnly : Bool) : Keeps s (startGranted s controlOnly) :=
  (keeps_startStatusPolling s).trans (keeps_releaseStalePrincipals _ controlOnly)

theorem keeps_hardStop : Keeps s (hardStop s) := by
  refine Keeps.trans ?_ (keeps_wait _ .hardStop (.inl rfl))
  exact (keeps_rejectPending s).trans ⟨rfl, rfl, rfl, rfl, fun _ h => h, id⟩

theorem keeps_rebind (remaining : Option String) : Keeps s (rebind s remaining) := by
  cases remaining with
  | none => exact .refl s
  | some accountId =>
    rw [rebind]
    split
    · exact keeps_attachSocket s accountId
    · exact .refl s

theorem keeps_syncCanonicalConsent : Keeps s (syncCanonicalConsent s) := by
  rw [syncCanonicalConsent]
  split
  · exact .refl s
  refine Keeps.trans (t := { s with statusSync := true }) ⟨rfl, rfl, rfl, rfl, fun _ h => h, id⟩ ?_
  dsimp only
  split
  · exact keeps_persistEmergencyRevocation _ .poll true
  · exact keeps_wait _ .status (.inl rfl)

theorem keeps_addLoopback (target : LoopbackTarget) : Keeps s (addLoopback s target) := by
  rw [addLoopback]
  split
  · exact .refl s
  refine Keeps.trans (t := { s with targets := s.targets.set target.accountId target })
    ⟨rfl, rfl, rfl, rfl, fun _ h => h, id⟩ ?_
  dsimp only
  split
  · exact (keeps_ensureHost _ false).trans (keeps_wait _ _ (.inl rfl))
  · exact .refl _

theorem keeps_removeLoopback (accountId : String) : Keeps s (removeLoopback s accountId) := by
  rw [removeLoopback]
  split
  · exact .refl s
  rename_i target _
  dsimp only
  have hera : Keeps s { s with targets := s.targets.erase accountId } :=
    ⟨rfl, rfl, rfl, rfl, fun _ h => h, id⟩
  have hdet : Keeps s { s with targets := s.targets.erase accountId, sockets := s.sockets.erase target.gatewayKey } :=
    ⟨rfl, rfl, rfl, rfl, fun _ h => by rw [h]; rfl, id⟩
  split
  · exact hera
  split
  · exact hera
  split
  · exact hdet.trans (keeps_wait _ _ (.inl rfl))
  · exact hdet.trans (keeps_rebind _ _)

theorem keeps_beginShutdown : Keeps s (beginShutdown s) := by
  rw [beginShutdown]
  split
  · exact .refl s
  · exact ⟨rfl, rfl, rfl, rfl, fun _ _ => rfl, id⟩

theorem keeps_handleHostExit : Keeps s (handleHostExit s) := by
  rw [handleHostExit]
  split
  · exact ⟨rfl, rfl, rfl, rfl, fun _ _ => rfl, id⟩
  · refine Keeps.trans ?_ (keeps_scheduleHostRetry _)
    exact ⟨rfl, rfl, rfl, rfl, fun _ _ => rfl, id⟩

theorem keeps_handled (request : Request) (answer : Answer) : Keeps s (handled s request answer) := by
  unfold handled
  split
  · exact ⟨rfl, rfl, rfl, rfl, fun _ h => h, id⟩
  · exact .refl s

end Helpers

variable {consent : CapabilityConsent}

namespace Guarded

variable {s : State}

theorem wait (hs : Guarded s) {k : Continuation} (request : Request)
    (hn : s.emergency = true → k.enables = false ∨ called = false) : Guarded (wait s k request called) where
  blocked := hs.blocked
  detached := hs.detached
  tombstone := hs.tombstone
  superseded he h := hs.superseded he (Enabling.of_append (hn he) h rfl)

theorem startRead (hs : Guarded s) (controlOnly : Bool) (now : String) (hc : s.revoked = true → consent.enabled = true →
      s.emergencyRevokePending = true ∨ s.consentWriteInProgress = true) :
    Guarded (startRead s controlOnly consent now) := by
  rw [CapabilityManager.startRead]
  have hread : Keeps s { cacheCanonical s consent now with consentVerified := true } :=
    ⟨rfl, rfl, rfl, rfl, fun _ h => h, id⟩
  split
  · exact hs.mono (hread.trans (keeps_persistEmergencyRevocation _ _ true))
  rename_i hpen
  split
  · exact hs.mono (hread.trans (keeps_startGranted _ controlOnly))
  rename_i hwri
  refine mono ?_ (keeps_startGranted _ controlOnly)
  refine { blocked := fun hr => ?_, detached := hs.detached, tombstone := hs.tombstone, superseded := hs.superseded }
  cases he : consent.enabled with
  | false => rfl
  | true => exact ((hc hr he).elim hpen hwri).elim

theorem revocationPersisted (hs : Guarded s) (he : ¬ s.emergency = true) (now : String) :
    Guarded (revocationPersisted s now) where
  blocked _ := rfl
  detached := hs.detached
  tombstone h := (he h).elim
  superseded h := (he h).elim

theorem consentWritten (hs : Guarded s) (enabled : Bool) (he : ¬ s.emergency = true)
    (hr : enabled = true → ¬ s.revoked = true) (called : Bool) (now : String) :
    Guarded (consentWritten s enabled called now) := by
  cases enabled with
  | false =>
    refine mono ?_ (Keeps.trans (keeps_disableRuntime _) (keeps_settle _ .done (.inl rfl)))
    exact ⟨fun _ => rfl, hs.detached, fun h => (he h).elim, fun h => (he h).elim⟩
  | true =>
    refine mono ?_ (keeps_refreshCatalog _ .enable called)
    exact ⟨fun h => (hr rfl h).elim, hs.detached, fun h => (he h).elim, fun h => (he h).elim⟩

theorem pollRead (hs : Guarded s) {canonical : CapabilityConsent} (called : Bool) (now : String)
    (hc : s.revoked = true → canonical.enabled = true → s.consent.enabled = true) :
    Guarded (pollRead s canonical called now) := by
  rw [CapabilityManager.pollRead]
  split
  · exact hs.mono ⟨rfl, rfl, rfl, rfl, fun _ h => h, id⟩
  split
  · exact hs.mono ⟨rfl, rfl, rfl, rfl, fun _ h => h, id⟩
  rename_i hcha
  split
  · rename_i hena
    refine mono ?_ (keeps_refreshCatalog _ .poll called)
    refine ⟨fun hr => ?_, hs.detached, hs.tombstone, hs.superseded⟩
    exact (hcha fun hne => hne (hena.trans (hc hr hena).symm)).elim
  rename_i hdis
  refine mono ?_ (Keeps.trans (keeps_disableRuntime _) (keeps_settle _ .done (.inl rfl)))
  refine ⟨fun _ => ?_, hs.detached, hs.tombstone, hs.superseded⟩
  simpa using hdis

theorem marked_setEnabled (hs : Guarded s) (enabled : Bool) :
    Guarded (setEnabled (mark s (.setEnabled enabled)) enabled) := by
  cases hq : s.shuttingDown with
  | true =>
    have hm : mark s (.setEnabled enabled) = s := by cases enabled <;> simp [mark, hq]
    rw [hm, setEnabled, if_pos hq]
    exact hs
  | false =>
    rw [setEnabled]
    cases enabled with
    | true =>
      simp only [mark, hq, false_eq_true, if_false]
      refine wait (mono ?_ (keeps_ensureHost _ true)) _ ?_
      · refine ⟨fun _ => rfl, fun _ => rfl, ?_, ?_⟩ <;> intro he <;> cases he
      · intro he
        cases (keeps_ensureHost _ true).emergency.symm.trans he
    | false =>
      simp only [mark, hq, revoke, false_eq_true, if_false]
      refine wait (mono ?_ (keeps_ensureHost _ true)) _ (fun _ => .inl rfl)
      refine ⟨fun _ => rfl, fun _ => rfl, hs.tombstone, ?_⟩
      rintro - ⟨u, hu, -, hc⟩
      obtain ⟨task, -, rfl⟩ := mem_map.mp hu
      cases hc

theorem marked_emergencyDisable (s : State) : Guarded (emergencyDisable (mark s .emergencyDisable)) := by
  have hmar : Guarded { stopSockets (mark s .emergencyDisable) with
      emergencyRevokePending := true, emergencyBlocked := true } := by
    refine ⟨fun _ => rfl, fun _ => rfl, fun _ => rfl, ?_⟩
    rintro - ⟨u, hu, -, hc⟩
    obtain ⟨task, -, rfl⟩ := mem_map.mp hu
    cases hc
  rw [emergencyDisable]
  dsimp only
  split
  · exact hmar
  have hcou : Guarded { stopSockets (mark s .emergencyDisable) with
      emergencyRevokePending := true, emergencyBlocked := true,
      generation := (mark s .emergencyDisable).generation + 1 } :=
    hmar.mono ⟨rfl, rfl, rfl, rfl, fun _ h => h, id⟩
  split
  · exact hcou.mono (keeps_persistEmergencyRevocation _ .emergency true)
  · exact hcou.mono (Keeps.trans (keeps_ensureHost _ true) (keeps_wait _ _ (.inl rfl)))

end Guarded

def resumed (s : State) (i : Nat) (task : Task) (answer : Answer) : State :=
  { s with
    revoked := s.revoked && !task.grants answer
    emergency := s.emergency && !task.relieves answer
    tasks := s.tasks.eraseIdx i }

theorem Guarded.resumed (hs : Guarded s) (i : Nat) (task : Task) (answer : Answer) :
    Guarded (resumed s i task answer) where
  blocked hr := hs.blocked (and_elim_left hr)
  detached hr := hs.detached (and_elim_left hr)
  tombstone he := hs.tombstone (and_elim_left he)
  superseded he := by
    rintro ⟨u, hu, hk, hc⟩
    exact hs.superseded (and_elim_left he) ⟨u, mem_of_mem_eraseIdx hu, hk, hc⟩

section Resumption

variable {s : State} {task : Task} {answer : Answer} {i : Nat}

theorem not_emergency_of_relieves (h : task.relieves answer = true) : ¬ (resumed s i task answer).emergency = true := by
  simp [resumed, h]

theorem not_revoked_of_grants (h : task.grants answer = true) : ¬ (resumed s i task answer).revoked = true := by
  simp [resumed, h]

theorem keeps_ready (s : State) : Keeps s { s with hostReady := true } :=
  ⟨rfl, rfl, rfl, rfl, fun _ h => h, id⟩

theorem keeps_attachServed (s : State) : Keeps s (attachAll (startCatalogPolling s)) :=
  (keeps_startCatalogPolling s).trans (keeps_attachAll _)

theorem keeps_pollEnded (s : State) : Keeps s (pollEnded s) := ⟨rfl, rfl, rfl, rfl, fun _ h => h, id⟩

theorem keeps_writeEnded (s : State) : Keeps s (writeEnded s) := ⟨rfl, rfl, rfl, rfl, fun _ h => h, id⟩

theorem Guarded.proceed_start (hs : Guarded s) {controlOnly : Bool} (now : String)
    (hr : s.revoked = true → consent.enabled = true →
      s.emergencyRevokePending = true ∨ s.consentWriteInProgress = true) :
    Guarded (CapabilityManager.startRead { s with hostReady := true } controlOnly consent now) :=
  (hs.mono (keeps_ready s)).startRead controlOnly now hr

theorem held_of_status {c : Bool} {request : Request} {answered : Option Answer}
    {fresh : Bool} {k : Continuation} (hk : k = .initialized c ∨ ∃ explicit, k = .statusRead c explicit)
    (ht : Task.timely s ⟨k, request, answered, called, fresh⟩ (.status (some consent)) = true) (i : Nat) :
    (resumed s i ⟨k, request, answered, called, fresh⟩ (.status (some consent))).revoked = true →
      consent.enabled = true → s.emergencyRevokePending = true ∨ s.consentWriteInProgress = true := by
  intro hr he
  rcases hk with rfl | ⟨explicit, rfl⟩ <;>
    simp only [resumed, Task.grants, Task.timely, he, Bool.true_and, Bool.not_true, Bool.false_or,
      Bool.and_eq_true, Bool.or_eq_true, Bool.not_eq_true'] at hr ht <;>
    · obtain ⟨hrev, hfre⟩ := hr
      simpa [hrev, hfre] using ht

theorem Guarded.proceed (hs : Guarded s) (hm : task ∈ s.tasks) (ht : task.timely s answer = true) (now : String) :
    Guarded (proceed (CapabilityManager.resumed s i task answer) task answer now) := by
  have hr := hs.resumed i task answer
  obtain ⟨k, request, answered, called, fresh⟩ := task
  cases k with
  | initialized c =>
    cases answer with
    | done => exact hr.mono ((keeps_ready _).trans (keeps_wait _ _ (.inl rfl)))
    | status reply =>
      cases reply with
      | none => exact hr.mono ((keeps_ready _).trans (keeps_wait _ _ (.inl rfl)))
      | some consent => exact hr.proceed_start now (held_of_status (.inl rfl) ht i)
    | catalog | failed => exact hr.mono (keeps_startFailed _)
  | statusRead c explicit =>
    cases answer with
    | status reply =>
      cases reply with
      | none =>
        cases explicit with
        | false => exact hr.mono (keeps_wait _ _ (.inl rfl))
        | true => exact hr.mono (keeps_startFailed _)
      | some consent => exact hr.startRead c now (held_of_status (.inr ⟨explicit, rfl⟩) ht i)
    | done | catalog | failed => exact hr.mono (keeps_startFailed _)
  | startGranted c =>
    cases answer with
    | done => exact hr.mono (keeps_startGranted _ c)
    | status | catalog | failed => exact hr.mono (keeps_startFailed _)
  | principalReleased c principal =>
    cases answer with
    | done =>
      refine mono ?_ (keeps_releaseNext _ c)
      exact hr.mono ⟨rfl, rfl, rfl, rfl, fun _ h => h, id⟩
    | failed => exact hr.mono (keeps_settle _ _ (.inl rfl))
    | status | catalog => exact hr
  | stalesReleased c =>
    cases answer with
    | done =>
      simp only [CapabilityManager.proceed]
      split
      · exact hr.mono (keeps_refreshCatalog _ _ _)
      · exact hr.mono (keeps_startEnded _)
    | status | catalog | failed => exact hr.mono (keeps_startFailed _)
  | startServed c =>
    cases answer with
    | done =>
      cases c with
      | false => exact hr.mono ((keeps_attachServed _).trans (keeps_startEnded _))
      | true => exact hr.mono ((keeps_startCatalogPolling _).trans (keeps_startEnded _))
    | status | catalog | failed => cases c <;> exact hr.mono (keeps_startFailed _)
  | refreshing caller =>
    cases answer with
    | catalog servers =>
      refine mono ?_ (keeps_handBack _ caller .done called)
      exact hr.mono ⟨rfl, rfl, rfl, rfl, fun _ h => h, id⟩
    | done | status | failed => exact hr.mono (keeps_handBack _ caller .failed called)
  | persisting caller =>
    have hnext := persistedFor_enables caller
    cases answer with
    | done =>
      refine mono (hr.revocationPersisted ?_ now) (keeps_settle _ .done (.inl hnext))
      cases caller with
      | start | emergency => exact not_emergency_of_relieves rfl
      | poll =>
        cases called with
        | true => exact not_emergency_of_relieves rfl
        | false =>
          have hnone : s.emergency = false := by simpa [Task.timely] using ht
          simp [CapabilityManager.resumed, hnone]
    | status | catalog | failed => exact hr.mono (keeps_settle _ .failed (.inl hnext))
  | enabling enabled =>
    simp only [CapabilityManager.proceed]
    split
    · refine hr.wait _ fun he => ?_
      cases enabled with
      | false => exact .inl rfl
      | true =>
        cases called with
        | false => exact .inr rfl
        | true => exact (hs.superseded (Bool.and_elim_left he) ⟨_, hm, rfl, rfl⟩).elim
    · exact hr.mono (keeps_writeEnded _)
  | consentWritten enabled =>
    cases answer with
    | done =>
      cases enabled with
      | false => exact hr.consentWritten false (not_emergency_of_relieves rfl) (fun h => by cases h) called now
      | true =>
        cases called with
        | true =>
          exact hr.consentWritten true (fun he => hs.superseded (Bool.and_elim_left he) ⟨_, hm, rfl, rfl⟩)
            (fun _ => not_revoked_of_grants rfl) true now
        | false =>
          simp only [Task.timely, Bool.false_or, Bool.and_eq_true, Bool.not_eq_true'] at ht
          refine hr.consentWritten true ?_ (fun _ => ?_) false now
          · simp [CapabilityManager.resumed, ht.2]
          · simp [CapabilityManager.resumed, ht.1]
    | status | catalog | failed => cases enabled <;> exact hr.mono (keeps_writeEnded _)
  | enableServed =>
    cases answer with
    | done => exact hr.mono ((keeps_attachServed _).trans (keeps_writeEnded _))
    | status | catalog | failed => exact hr.mono (keeps_writeEnded _)
  | runtimeDisabled => exact hr.mono (keeps_writeEnded _)
  | hardStopping => exact hr.mono (keeps_hardStop _)
  | hardStopped =>
    cases answer with
    | done =>
      refine mono ?_ (keeps_scheduleHostRetry _)
      exact hr.mono ⟨rfl, rfl, rfl, rfl, fun _ h => h, id⟩
    | status | catalog | failed => exact hr
  | pollRead =>
    cases answer with
    | status reply =>
      cases reply with
      | none => exact hr.mono (keeps_pollEnded _)
      | some consent =>
        refine hr.pollRead called now fun hrev he => ?_
        simp only [CapabilityManager.resumed, Task.grants, he, Bool.true_and, Bool.and_eq_true,
          Bool.not_eq_true'] at hrev
        have hcac : s.consent.enabled = true := by
          simpa [Task.timely, he, hrev.1, hrev.2] using ht
        exact hcac
    | done | catalog | failed => exact hr.mono (keeps_pollEnded _)
  | pollPersisted =>
    cases answer with
    | done => exact hr.mono ((keeps_disableRuntime _).trans (keeps_settle _ .done (.inl rfl)))
    | status | catalog | failed => exact hr.mono (keeps_pollEnded _)
  | pollServed =>
    cases answer with
    | done => exact hr.mono ((keeps_attachServed _).trans (keeps_pollEnded _))
    | status | catalog | failed => exact hr.mono (keeps_pollEnded _)
  | pollDone => cases answer <;> exact hr.mono (keeps_pollEnded _)
  | attaching accountId => exact hr.mono (keeps_attachSocket _ accountId)
  | removing remaining => exact hr.mono (keeps_rebind _ remaining)
  | emergencyHosted =>
    simp only [CapabilityManager.proceed]
    split
    · exact hr.mono (keeps_persistEmergencyRevocation _ .emergency called)
    · exact hr.mono (keeps_hardStop _)

end Resumption

theorem Guarded.next {s t : State} {event : Event} (hs : Guarded s) (hc : Timely s event)
    (h : next s event = some t) : Guarded t := by
  cases event with
  | start => cases h; exact hs.mono (keeps_ensureHost s false)
  | setEnabled enabled => cases h; exact hs.marked_setEnabled enabled
  | emergencyDisable => cases h; exact marked_emergencyDisable s
  | addLoopback target => cases h; exact hs.mono (keeps_addLoopback s target)
  | removeLoopback accountId => cases h; exact hs.mono (keeps_removeLoopback s accountId)
  | beginShutdown => cases h; exact hs.mono (keeps_beginShutdown s)
  | retryFires =>
    obtain ⟨-, ht⟩ := ite_none_right_eq_some.mp h
    cases ht
    refine mono ?_ (keeps_ensureHost _ _)
    exact hs.mono ⟨rfl, rfl, rfl, rfl, fun _ h => h, id⟩
  | catalogTick =>
    obtain ⟨-, ht⟩ := ite_none_right_eq_some.mp h
    cases ht
    exact hs.mono (keeps_refreshCatalog s .tick true)
  | catalogChanged =>
    have hstep : step s .catalogChanged = some t := h
    simp only [step, Option.some.injEq] at hstep
    subst hstep
    split
    · exact hs
    · exact hs.mono (keeps_refreshCatalog s .tick true)
  | pollTick =>
    obtain ⟨-, ht⟩ := ite_none_right_eq_some.mp h
    cases ht
    exact hs.mono (keeps_syncCanonicalConsent s)
  | hostSpawns =>
    obtain ⟨-, ht⟩ := ite_none_right_eq_some.mp h
    cases ht
    exact hs.mono ⟨rfl, rfl, rfl, rfl, fun _ h => h, id⟩
  | hostExits =>
    obtain ⟨-, ht⟩ := ite_none_right_eq_some.mp h
    cases ht
    refine mono ?_ (keeps_handleHostExit _)
    exact hs.mono ((keeps_rejectPending s).trans ⟨rfl, rfl, rfl, rfl, fun _ h => h, id⟩)
  | hostStops =>
    cases h
    exact hs.mono ((keeps_rejectPending s).trans ⟨rfl, rfl, rfl, rfl, fun _ h => h, id⟩)
  | hostDecides enabled => cases h; exact hs.mono ⟨rfl, rfl, rfl, rfl, fun _ h => h, id⟩
  | answers i answer =>
    simp only [CapabilityManager.next, step, mark] at h
    split at h
    · rename_i task htask
      obtain ⟨-, ht⟩ := ite_none_right_eq_some.mp h
      cases ht
      refine mono ?_ (keeps_handled _ _ _)
      refine hs.mono ⟨rfl, rfl, rfl, rfl, fun _ h => h, ?_⟩
      rintro ⟨u, hu, hk, hcal⟩
      rcases mem_or_eq_of_mem_set hu with hu | rfl
      · exact ⟨u, hu, hk, hcal⟩
      · exact ⟨task, mem_of_getElem? htask, hk, hcal⟩
    · cases h
  | resumes i now =>
    cases htask : s.tasks[i]? with
    | none => simp [CapabilityManager.next, step, mark, htask] at h
    | some task =>
      cases hans : task.answer with
      | none => simp [CapabilityManager.next, step, mark, htask, hans] at h
      | some answer =>
        simp only [CapabilityManager.next, step, mark, htask, hans, Option.some.injEq] at h
        subst h
        exact hs.proceed (mem_of_getElem? htask) (hc task htask answer hans) now

theorem guarded_opening (cached : CapabilityConsent) (tombstone canonical : Bool) :
    Guarded (opening cached tombstone canonical) := by
  refine ⟨?_, ?_, ?_, ?_⟩ <;> intro h <;> cases h

theorem Guarded.safe (hs : Guarded s) : Safe s where
  detached := hs.detached
  invoke hr accountId call := ⟨_, by simp [invoke, hs.blocked hr, Checks.refuse]; rfl⟩
  readResource hr accountId call := ⟨_, by simp [readResource, hs.blocked hr, Checks.refuse]; rfl⟩
  tombstone := hs.tombstone

/-- While no overtaken answer comes back, a revocation stands in every state of every run. -/
theorem revocation_stands (cached : CapabilityConsent) (tombstone canonical : Bool) {s : State}
    (h : Runs.ReachesUnder next Timely (opening cached tombstone canonical) s) : Safe s :=
  (Runs.invariant_under (fun _ _ _ hs hc ht => Guarded.next hs hc ht)
    (guarded_opening cached tombstone canonical) h).safe

instance (s : State) (event : Event) : Decidable (Timely s event) :=
  match event with
  | .resumes i _ => inferInstanceAs (Decidable (∀ task ∈ s.tasks[i]?, ∀ answer ∈ task.answer, _ = true))
  | .start | .setEnabled _ | .emergencyDisable | .addLoopback _ | .removeLoopback _ | .beginShutdown | .retryFires
  | .catalogTick | .catalogChanged | .pollTick | .hostSpawns | .hostExits | .hostStops | .hostDecides _
  | .answers _ _ => inferInstanceAs (Decidable True)

def loopback : LoopbackTarget := ⟨"acc", "http://127.0.0.1", "gw", "net", "dev"⟩

def shellServer : CapabilityServer := { name := "shell", tools := ["run"] }

def enablingRun : List Event :=
  [.addLoopback loopback, .start, .hostSpawns, .answers 0 (.status (some { enabled := false })), .resumes 0 "t",
    .resumes 0 "t", .setEnabled true, .resumes 0 "t", .answers 0 .done]

def overtakenRun : List Event :=
  enablingRun ++ [.emergencyDisable, .resumes 0 "t", .answers 1 (.catalog [shellServer]), .resumes 1 "t", .resumes 1 "t"]

theorem overtaken_enable_attaches :
    ¬ ∀ cached tombstone canonical es s, Runs.run next (opening cached tombstone canonical) es = some s → Safe s := by
  intro hall
  have hrun : (Runs.run next (opening { enabled := false } false false) overtakenRun).map
      (fun s => (s.revoked, s.sockets.keys)) = some (true, ["gw"]) := by decide +kernel
  obtain ⟨s, hs, hend⟩ := map_eq_some_iff.mp hrun
  have hsafe := hall _ _ _ _ _ hs
  obtain ⟨hrev, hkeys⟩ := Prod.mk.inj hend
  rw [hsafe.detached hrev] at hkeys
  cases hkeys

def grantedAgain : List Event :=
  enablingRun ++ [.resumes 0 "t", .answers 0 (.catalog [shellServer]), .resumes 0 "t", .resumes 0 "t",
    .emergencyDisable, .answers 0 .done, .resumes 0 "u", .resumes 0 "u", .answers 0 .done, .resumes 0 "u"]

theorem granted_again_stands : ∃ s, Runs.run next (opening { enabled := false } false false) grantedAgain = some s ∧
      s.revoked = true ∧ s.emergencyRevokePending = false ∧ s.sockets.keys = [] ∧ Safe s := by
  have hrun : (Runs.run next (opening { enabled := false } false false) grantedAgain).map
      (fun s => (s.revoked, s.emergencyRevokePending, s.sockets.keys)) = some (true, false, []) := by
    decide +kernel
  obtain ⟨s, hs, hend⟩ := map_eq_some_iff.mp hrun
  obtain ⟨hrev, hrest⟩ := Prod.mk.inj hend
  obtain ⟨hpen, hkeys⟩ := Prod.mk.inj hrest
  have hall : Runs.all (fun s e => decide (Timely s e)) next (opening { enabled := false } false false)
      grantedAgain = true := by decide +kernel
  exact ⟨s, hs, hrev, hpen, hkeys,
    revocation_stands { enabled := false } false false (Runs.reachesUnder_of_all hall hs)⟩

end OpenAgent.Desktop.CapabilityManager
