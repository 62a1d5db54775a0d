import OpenAgent.Desktop.LoopbackClaims

namespace OpenAgent.Desktop.Loopbacks

open Py List Option Loopbacks

def targetOf (s : State) (loopback : Nat) : Option VerifiedLoopbackTarget :=
  (s.loopbacks[loopback]?).map Loopback.target

structure Untouched (s t : State) : Prop where
  vault : t.vault = s.vault
  logins : t.logins = s.logins
  forgotten : t.forgotten = s.forgotten
  replies : t.replies = s.replies
  requests : t.requests = s.requests
  generations : t.generations = s.generations
  targets : ∀ l, targetOf t l = targetOf s l

theorem Untouched.refl (s : State) : Untouched s s := ⟨rfl, rfl, rfl, rfl, rfl, rfl, fun _ => rfl⟩

theorem Untouched.trans {s t u : State} (h : Untouched s t) (k : Untouched t u) : Untouched s u :=
  ⟨k.vault.trans h.vault, k.logins.trans h.logins, k.forgotten.trans h.forgotten, k.replies.trans h.replies,
    k.requests.trans h.requests, k.generations.trans h.generations, fun l => (k.targets l).trans (h.targets l)⟩

section Frames

variable (s : State) (account : String)

theorem untouched_beginTeardown (loopback : Nat) (stop : Queued) (queue : List Queued) :
    Untouched s (beginTeardown s account loopback stop queue) := by
  refine ⟨rfl, rfl, rfl, rfl, rfl, rfl, fun l => ?_⟩
  simp only [targetOf, beginTeardown, List.getElem?_modify, Option.map_eq_map, Option.map_map]
  congr 1
  funext lb
  split <;> rfl

theorem untouched_stopLoopback (all : Bool) : Untouched s (stopLoopback s account all).1 := by
  rw [stopLoopback]
  split
  · exact ⟨rfl, rfl, rfl, rfl, rfl, rfl, fun _ => rfl⟩
  · refine Untouched.trans ?_ (untouched_beginTeardown _ account _ _ _)
    exact ⟨rfl, rfl, rfl, rfl, rfl, rfl, fun _ => rfl⟩
  · exact ⟨rfl, rfl, rfl, rfl, rfl, rfl, fun _ => rfl⟩

theorem untouched_stopLoopbackIfUnclaimed : Untouched s (stopLoopbackIfUnclaimed s account).1 := by
  rw [stopLoopbackIfUnclaimed]
  split
  · exact .refl s
  · exact untouched_stopLoopback s account false

theorem untouched_releaseLoopbackClaim (renderer : Nat) (token : Option Nat) :
    Untouched s (releaseLoopbackClaim s account renderer token) := by
  obtain ⟨consumers, hc⟩ := release_fields s account renderer token
  rw [releaseLoopbackClaim, hc]
  refine Untouched.trans ?_ (untouched_stopLoopbackIfUnclaimed _ account)
  exact ⟨rfl, rfl, rfl, rfl, rfl, rfl, fun _ => rfl⟩

theorem untouched_claim (renderer : Nat) (token : Option Nat) : Untouched s (claim s account renderer token) := by
  obtain ⟨consumers, lifetimes, hc⟩ := claim_fields s account renderer token
  rw [hc]
  exact ⟨rfl, rfl, rfl, rfl, rfl, rfl, fun _ => rfl⟩

theorem untouched_observeRenderer (renderer : Nat) : Untouched s (observeRenderer s renderer) :=
  ⟨rfl, rfl, rfl, rfl, rfl, rfl, fun _ => rfl⟩

theorem untouched_stops (accounts : List String) {stop : State → String → State}
    (h : ∀ s account, Untouched s (stop s account)) : Untouched s (accounts.foldl stop s) := by
  induction accounts generalizing s with
  | nil => exact .refl s
  | cons account accounts ih => exact (h s account).trans (ih _)

theorem untouched_stopAllLoopbacks : Untouched s (stopAllLoopbacks s) :=
  untouched_stops s _ fun s account => untouched_stopLoopback s account true

theorem untouched_rendererDestroyed (renderer : Nat) : Untouched s (rendererDestroyed s renderer) := by
  rw [rendererDestroyed]
  split
  · refine Untouched.trans ?_ (untouched_stops _ _ fun s account => untouched_stopLoopbackIfUnclaimed s account)
    exact ⟨rfl, rfl, rfl, rfl, rfl, rfl, fun _ => rfl⟩
  · exact .refl s

end Frames

section Trust

variable [Platform]

/-- Every non-blank field of a request names the credential's own. -/
structure Matches (credential : RememberedCredentialRecord) (request : StartArgs) : Prop where
  handle : asserts request.handle (fun handle => handle = credential.target.handle) = true
  network : asserts request.network (fun network =>
    network = credential.target.networkName || network = credential.target.networkId) = true
  agent : asserts request.agent (fun agent => agent = credential.target.agentHandle) = true

def Authentic (vault : Dict String RememberedCredentialRecord) (logins : List Login) : Prop :=
  ∀ a record, vault.get? a = some record → isAccountId a = true ∧
    ⟨a, record.password, record.target.toVerifiedLoopbackTarget⟩ ∈ logins

structure Trustworthy (s : State) : Prop where
  authentic : Authentic s.vault s.logins
  forgotten : ∀ a ∈ s.forgotten, s.vault.get? a = none
  bound : ∀ reply ∈ s.replies, ∀ credential request, reply.remembered = some (credential, request) →
    reply.target = some credential.target.toVerifiedLoopbackTarget ∧ Matches credential request

/-- A landing login saves nothing that was forgotten and brings each remembered start its target, and a remembered
request without a network names no other handle or agent. -/
def Faithful (s : State) (event : Event) : Prop :=
  match event with
  | .startRemembered _ args => ∀ credential ∈ (loadRememberedCredential s args.accountId).2,
      isBlankField args.network = true → asserts args.handle (fun handle => handle = credential.target.handle) = true ∧
          asserts args.agent (fun agent => agent = credential.target.agentHandle) = true
  | .nativeFinishes account found none => ∀ owner ∈ s.flights.get? account,
      (shouldSaveAuthenticatedOwner s owner = true → owner.account ∉ s.forgotten) ∧
        ∀ r ∈ s.requests, isFlying owner.account r = true → ∀ remembered ∈ r.remembered,
          found.normalized = remembered.1.target.toVerifiedLoopbackTarget
  | _ => True

def Bound (s : State) (r : Request) : Prop :=
  ∀ credential request, r.remembered = some (credential, request) → Matches credential request ∧
    ∀ t l, r.stage = .reaping t l → targetOf s l = some credential.target.toVerifiedLoopbackTarget

structure Vaulted (s : State) : Prop where
  trustworthy : Trustworthy s
  requests : ∀ r ∈ s.requests, Bound s r

theorem Untouched.vaulted {s t : State} (h : Untouched s t) (hs : Vaulted s) : Vaulted t where
  trustworthy :=
    ⟨by rw [h.vault, h.logins]; exact hs.trustworthy.authentic,
      by rw [h.vault, h.forgotten]; exact hs.trustworthy.forgotten,
      by rw [h.replies]; exact hs.trustworthy.bound⟩
  requests := by
    intro r hr credential request hrem
    rw [h.requests] at hr
    obtain ⟨hmat, htar⟩ := hs.requests r hr credential request hrem
    exact ⟨hmat, fun t l hstage => (h.targets l).trans (htar t l hstage)⟩

section Starts

variable {s : State} {r : Request} {loopback : Nat}

theorem Bound.untouched {t : State} (h : Bound s r) (hst : Untouched s t) : Bound t r := by
  intro credential request hrem
  obtain ⟨hmat, htar⟩ := h credential request hrem
  exact ⟨hmat, fun t l hstage => (hst.targets l).trans (htar t l hstage)⟩

theorem Bound.matched (h : Bound s r) {credential : RememberedCredentialRecord} {request : StartArgs}
    (hrem : r.remembered = some (credential, request)) : Matches credential request :=
  (h credential request hrem).1

def Fits (s : State) (r : Request) (loopback : Nat) : Prop :=
  ∀ remembered ∈ r.remembered, targetOf s loopback = some remembered.1.target.toVerifiedLoopbackTarget

theorem Vaulted.answer (hs : Vaulted s) (hr : Bound s r) (hf : Fits s r loopback) : Vaulted (answer s r loopback) := by
  refine ⟨⟨hs.trustworthy.authentic, hs.trustworthy.forgotten, ?_⟩, hs.requests⟩
  intro reply hrep credential request hrem
  rcases mem_append.mp hrep with hrep | hrep
  · exact hs.trustworthy.bound reply hrep credential request hrem
  · rw [mem_singleton.mp hrep] at hrem ⊢
    exact ⟨hf _ hrem, hr.matched hrem⟩

theorem Vaulted.afterStart (hs : Vaulted s) (hr : Bound s r) (hf : Fits s r loopback) :
    Vaulted (afterStart s r loopback) ∧ (∀ l, targetOf (afterStart s r loopback) l = targetOf s l) := by
  have hst := untouched_stopLoopbackIfUnclaimed s r.account
  rw [Loopbacks.afterStart]
  revert hst
  generalize stopLoopbackIfUnclaimed s r.account = stopped
  obtain ⟨t, teardown⟩ := stopped
  intro hst
  have ht := hst.vaulted hs
  have hft : Fits t r loopback := fun remembered hrem => (hst.targets loopback).trans (hf remembered hrem)
  cases teardown with
  | none => exact ⟨ht.answer (hr.untouched hst) hft, hst.targets⟩
  | some teardown =>
    refine ⟨⟨⟨ht.trustworthy.authentic, ht.trustworthy.forgotten, ht.trustworthy.bound⟩, fun q hq => ?_⟩, hst.targets⟩
    rcases mem_append.mp hq with hq | hq
    · exact ht.requests q hq
    rw [mem_singleton.mp hq]
    intro credential request hrem
    refine ⟨hr.matched hrem, fun u l hstage => ?_⟩
    cases hstage
    exact hft _ hrem

variable {waiting : List Request}

theorem Vaulted.afterStarts
    (hw : ∀ r ∈ waiting, (∀ remembered ∈ r.remembered, Matches remembered.1 remembered.2) ∧ Fits s r loopback ∧
      r.stage = .flight) (hs : Vaulted s) : Vaulted (waiting.foldl (fun s r => Loopbacks.afterStart s r loopback) s) := by
  induction waiting generalizing s with
  | nil => exact hs
  | cons r waiting ih =>
    obtain ⟨hmat, hfits, hstage⟩ := hw r mem_cons_self
    have hbou : Bound s r := fun credential request hrem =>
      ⟨hmat _ hrem, fun t l h => by cases hstage.symm.trans h⟩
    obtain ⟨hs', htar⟩ := hs.afterStart hbou hfits
    refine ih (fun q hq => ?_) hs'
    obtain ⟨hm, hf, hst⟩ := hw q (mem_cons_of_mem _ hq)
    exact ⟨hm, fun remembered hrem => (htar loopback).trans (hf remembered hrem), hst⟩

theorem Vaulted.fewer {vault : Dict String RememberedCredentialRecord} (hs : Vaulted s)
    (h : ∀ a record, vault.get? a = some record → s.vault.get? a = some record) : Vaulted { s with vault } := by
  refine ⟨⟨fun a record ha => hs.trustworthy.authentic a record (h a record ha), fun a ha => ?_,
    hs.trustworthy.bound⟩, hs.requests⟩
  have hnone := hs.trustworthy.forgotten a ha
  cases hget : vault.get? a with
  | none => rfl
  | some record => cases hnone.symm.trans (h a record hget)

omit [Platform] in
theorem erase_fewer (vault : Dict String RememberedCredentialRecord) (account a : String)
    (record : RememberedCredentialRecord) (h : (vault.erase account).get? a = some record) :
    vault.get? a = some record := by
  rw [Dict.get?_erase] at h
  split at h
  · cases h
  · exact h

theorem Vaulted.removeRememberedCredential (hs : Vaulted s) (account : String) :
    Vaulted (removeRememberedCredential s account) := by
  rw [Loopbacks.removeRememberedCredential]
  split
  · exact hs.fewer (erase_fewer s.vault account)
  · exact hs

theorem Vaulted.forgets (hs : Vaulted s) (account : String) (generations : Dict String Nat) :
    Vaulted (Loopbacks.removeRememberedCredential
      { s with generations, forgotten := account :: s.forgotten } account) := by
  rw [Loopbacks.removeRememberedCredential]
  split
  · refine ⟨⟨fun a record ha => hs.trustworthy.authentic a record (erase_fewer s.vault account a record ha),
      fun a ha => ?_, hs.trustworthy.bound⟩, hs.requests⟩
    rw [Dict.get?_erase]
    split
    · rfl
    · rename_i hne
      exact hs.trustworthy.forgotten a ((mem_cons.mp ha).resolve_left hne)
  rename_i hid
  refine ⟨⟨hs.trustworthy.authentic, fun a ha => ?_, hs.trustworthy.bound⟩, hs.requests⟩
  rcases mem_cons.mp ha with rfl | ha
  · cases hget : s.vault.get? a with
    | none => rfl
    | some record => exact (hid (hs.trustworthy.authentic a record hget).1).elim
  · exact hs.trustworthy.forgotten a ha

theorem Vaulted.failStart (hs : Vaulted s) (message : String) : Vaulted (failStart s r message) := by
  have hrel := (untouched_releaseLoopbackClaim s r.account r.renderer r.args.attemptToken).vaulted hs
  rw [Loopbacks.failStart]
  split
  · exact hrel.removeRememberedCredential r.account
  · exact hrel

theorem Vaulted.failStarts (message : String) (hs : Vaulted s) :
    Vaulted (waiting.foldl (fun s r => Loopbacks.failStart s r message) s) := by
  induction waiting generalizing s with
  | nil => exact hs
  | cons r waiting ih => exact ih (hs.failStart message)

theorem Vaulted.joined (hs : Vaulted s) {flights : Dict String Request}
    (hr : ∀ remembered ∈ r.remembered, Matches remembered.1 remembered.2) (stage : Stage)
    (hstage : ∀ t l, stage ≠ .reaping t l) :
    Vaulted { s with flights, requests := s.requests ++ [{ r with stage }] } := by
  refine ⟨⟨hs.trustworthy.authentic, hs.trustworthy.forgotten, hs.trustworthy.bound⟩, fun q hq => ?_⟩
  rcases mem_append.mp hq with hq | hq
  · exact hs.requests q hq
  · rw [mem_singleton.mp hq]
    exact fun credential request hrem => ⟨hr _ hrem, fun t l h => (hstage t l h).elim⟩

theorem Vaulted.proceedStart (hs : Vaulted s) (hr : ∀ remembered ∈ r.remembered, Matches remembered.1 remembered.2)
    (hstage : ∀ t l, r.stage ≠ .reaping t l) : Vaulted (proceedStart s r) := by
  rw [Loopbacks.proceedStart]
  split
  · rename_i loopback _
    split
    · rename_i hexp
      have hbou : Bound s r := fun credential request hrem => ⟨hr _ hrem, fun t l h => (hstage t l h).elim⟩
      refine (hs.afterStart hbou fun remembered hrem => ?_).1
      rw [Request.expectedTarget, mem_def.mp hrem, map_some, all_some,
        any_eq_true_iff_get] at hexp
      obtain ⟨hlive, htar⟩ := hexp
      rw [targetOf, ← some_get hlive, map_some, of_decide_eq_true htar]
    · exact hs.failStart _
  · exact hs.joined hr .flight fun t l h => by cases h

theorem Vaulted.proceedStarts (hw : ∀ r ∈ waiting, (∀ remembered ∈ r.remembered, Matches remembered.1 remembered.2) ∧
      ∀ t l, r.stage ≠ .reaping t l)
    (hs : Vaulted s) : Vaulted (waiting.foldl (fun s r => Loopbacks.proceedStart s r) s) := by
  induction waiting generalizing s with
  | nil => exact hs
  | cons r waiting ih =>
    obtain ⟨hr, hstage⟩ := hw r mem_cons_self
    exact ih (fun q hq => hw q (mem_cons_of_mem _ hq)) (hs.proceedStart hr hstage)

theorem Vaulted.beginPreference (hs : Vaulted s) (account : String) (remember : Option Bool) :
    Vaulted (beginPreference s account remember).1 := by
  rw [beginPreference.eq_def]
  split
  · exact hs
  · exact ⟨⟨hs.trustworthy.authentic, fun a ha => hs.trustworthy.forgotten a (mem_of_mem_filter ha),
      hs.trustworthy.bound⟩, hs.requests⟩
  · exact hs.forgets account _

theorem Vaulted.startLoopback (hs : Vaulted s) (renderer : Nat) (args : StartArgs)
    {remembered : Option (RememberedCredentialRecord × StartArgs)}
    (h : ∀ credential ∈ remembered, Matches credential.1 credential.2) :
    Vaulted (startLoopback s renderer args remembered) := by
  have hbeg := hs.beginPreference args.accountId args.remember
  rw [Loopbacks.startLoopback]
  revert hbeg
  generalize Loopbacks.beginPreference s args.accountId args.remember = begun
  obtain ⟨t, lease⟩ := begun
  intro hbeg
  dsimp only
  split
  · refine ⟨⟨hbeg.trustworthy.authentic, hbeg.trustworthy.forgotten, hbeg.trustworthy.bound⟩, fun q hq => ?_⟩
    rcases mem_append.mp hq with hq | hq
    · exact hbeg.requests q hq
    · rw [mem_singleton.mp hq]
      exact fun credential request hrem => ⟨h _ hrem, fun t l hstage => by cases hstage⟩
  · exact hbeg.proceedStart h fun t l hstage => by cases hstage

theorem Vaulted.handleStart (hs : Vaulted s) (renderer : Nat) (args : StartArgs) :
    Vaulted (handleStart s renderer args) := by
  rw [Loopbacks.handleStart]
  split
  · have hcla := ((untouched_observeRenderer s renderer).trans
      (untouched_claim _ args.accountId renderer args.attemptToken)).vaulted hs
    exact hcla.startLoopback renderer args fun _ h => by cases h
  · exact hs

theorem loaded_eq (s : State) (account : String) : (loadRememberedCredential s account).2 =
    if s.available then (s.vault.get? account).bind (parseRecord account) else none := by
  rw [loadRememberedCredential]
  split
  · cases s.vault.get? account with
    | none => rfl
    | some record =>
      rw [bind_some]
      dsimp only
      cases parseRecord account record <;> rfl
  · rfl

theorem Vaulted.loadRememberedCredential (hs : Vaulted s) (account : String) :
    Vaulted (loadRememberedCredential s account).1 := by
  rw [Loopbacks.loadRememberedCredential]
  split
  · split
    · exact hs
    · split
      · exact hs
      · exact hs.fewer (erase_fewer s.vault account)
  · exact hs

theorem asserts_of_blank {value : Option String} (h : isBlankField value = true) (accepts : String → Bool) :
    asserts value accepts = true := by
  cases value with
  | none => rfl
  | some value =>
    rw [isBlankField, all_some] at h
    rw [asserts, all_some, h, Bool.true_or]

theorem matches_of_check {credential : RememberedCredentialRecord} {request : StartArgs}
    (h : rememberedCredentialMatchesRequest credential request = true)
    (hbla : isBlankField request.network = true →
      asserts request.handle (fun handle => handle = credential.target.handle) = true ∧
        asserts request.agent (fun agent => agent = credential.target.agentHandle) = true) :
    Matches credential request := by
  rw [rememberedCredentialMatchesRequest, Bool.and_eq_true, Bool.or_eq_true] at h
  rcases h.2 with h | h
  · obtain ⟨hhan, hage⟩ := hbla h
    exact ⟨hhan, asserts_of_blank h _, hage⟩
  · simp only [Bool.and_eq_true] at h
    exact ⟨h.1.1, h.1.2, h.2⟩

theorem Vaulted.handleStartRemembered (hs : Vaulted s) (renderer : Nat) (args : StartArgs)
    (h : Faithful s (.startRemembered renderer args)) : Vaulted (handleStartRemembered s renderer args) := by
  have hobs := (untouched_observeRenderer s renderer).vaulted hs
  rw [Loopbacks.handleStartRemembered]
  split
  · dsimp only
    split
    · have hloa := hobs.loadRememberedCredential args.accountId
      have hsame : (Loopbacks.loadRememberedCredential (observeRenderer s renderer) args.accountId).2 =
          (Loopbacks.loadRememberedCredential s args.accountId).2 := by
        rw [loaded_eq, loaded_eq]
        rfl
      split
      · rename_i t heq
        rw [heq] at hloa
        exact hloa
      rename_i t credential heq
      rw [heq] at hloa hsame
      split
      · rename_i hche
        have hcla := (untouched_claim t args.accountId renderer args.attemptToken).vaulted hloa
        refine hcla.startLoopback renderer _ fun remembered hrem => ?_
        cases hrem
        exact matches_of_check hche (h credential hsame.symm)
      · exact hloa.removeRememberedCredential _
    · exact hobs
  · exact hs

theorem normalizeTargetField_normalized {value field : String}
    (h : normalizeTargetField (normalizedTargetValue value) = some field) : field = normalizedTargetValue value := by
  obtain ⟨-, he⟩ := ite_none_left_eq_some.mp h
  exact (Option.some.inj he).symm.trans (Platform.toLowerCase_trim value)

variable {found : VerifiedLoopbackTarget}

theorem recordFor_normalized {account password : String} {record : RememberedCredentialRecord}
    (h : recordFor account password { found.normalized with accountId := account } = some record) :
    isAccountId account = true ∧ record.password = password ∧
      record.target.toVerifiedLoopbackTarget = found.normalized := by
  obtain ⟨hche, h⟩ := ite_none_right_eq_some.mp h
  rw [Bool.and_eq_true] at hche
  obtain ⟨target, htar, h⟩ := bind_eq_some_iff.mp h
  obtain ⟨-, h⟩ := ite_none_right_eq_some.mp h
  refine ⟨hche.1, ?_⟩
  cases h
  refine ⟨rfl, ?_⟩
  obtain ⟨-, htar⟩ := ite_none_right_eq_some.mp htar
  simp only [bind_eq_bind, bind_eq_some_iff] at htar
  obtain ⟨networkName, h1, networkId, h2, handle, h3, coordinatorNodeId, h4, agentHandle, h5, agentNodeId, h6, h⟩ :=
    htar
  cases h
  rw [normalizeTargetField_normalized h1, normalizeTargetField_normalized h2, normalizeTargetField_normalized h3,
    normalizeTargetField_normalized h4, normalizeTargetField_normalized h5, normalizeTargetField_normalized h6]
  rfl

theorem Vaulted.landed (hs : Vaulted s) (account : String) : Vaulted (landed s account).1 :=
  ⟨⟨hs.trustworthy.authentic, hs.trustworthy.forgotten, hs.trustworthy.bound⟩,
    fun r hr => hs.requests r (mem_of_mem_filter hr)⟩

theorem Vaulted.failFlight (hs : Vaulted s) (account message : String) : Vaulted (failFlight s account message) :=
  (hs.landed account).failStarts message

omit [Platform] in
theorem targetOf_append {l : Nat} {target : VerifiedLoopbackTarget} (loopback : Loopback)
    (h : targetOf s l = some target) :
    ((s.loopbacks ++ [loopback])[l]?).map Loopback.target = some target := by
  obtain ⟨lb, hlb, ht⟩ := map_eq_some_iff.mp h
  rw [List.getElem?_append_left (List.getElem?_eq_some_iff.mp hlb).1, hlb, map_some, ht]

theorem Vaulted.installLoopback (hs : Vaulted s) (owner : Request) (target : VerifiedLoopbackTarget) :
    Vaulted (installLoopback s owner target) := by
  refine ⟨⟨fun a record ha => ?_, hs.trustworthy.forgotten, hs.trustworthy.bound⟩, fun r hr => ?_⟩
  · obtain ⟨hid, hlog⟩ := hs.trustworthy.authentic a record ha
    exact ⟨hid, mem_append_left _ hlog⟩
  intro credential request hrem
  obtain ⟨hmat, hrea⟩ := hs.requests r (mem_of_mem_filter hr) credential request hrem
  exact ⟨hmat, fun t l hstage => targetOf_append _ (hrea t l hstage)⟩

theorem Vaulted.persistOwner (hs : Vaulted s) {owner : Request}
    (hlog : ⟨owner.account, owner.args.password, found.normalized⟩ ∈ s.logins)
    (hkeep : shouldSaveAuthenticatedOwner s owner = true → owner.account ∉ s.forgotten) :
    Vaulted (persistOwner s owner found.normalized) := by
  rw [Loopbacks.persistOwner]
  split
  · rename_i hsave
    rw [saveRememberedCredential]
    split
    · rename_i record hrec
      obtain ⟨hid, hpas, htar⟩ := recordFor_normalized hrec
      split
      · refine ⟨⟨fun a kept ha => ?_, fun a ha => ?_, hs.trustworthy.bound⟩, hs.requests⟩
        · dsimp only at ha
          rw [Dict.get?_set] at ha
          split at ha
          · rename_i he
            cases ha
            subst he
            exact ⟨hid, by rw [hpas, htar]; exact hlog⟩
          · exact hs.trustworthy.authentic a kept ha
        · dsimp only
          rw [Dict.get?_set, if_neg]
          · exact hs.trustworthy.forgotten a ha
          · rintro rfl
            exact hkeep hsave ha
      · exact hs
    · exact hs
  · exact hs

theorem Vaulted.finishFlight (hs : Vaulted s) {owner : Request} {hook : Option String}
    (h : hook = none → (shouldSaveAuthenticatedOwner s owner = true → owner.account ∉ s.forgotten) ∧
      ∀ r ∈ s.requests, isFlying owner.account r = true → ∀ remembered ∈ r.remembered,
        found.normalized = remembered.1.target.toVerifiedLoopbackTarget) :
    Vaulted (finishFlight s owner found.normalized hook) := by
  have hset := hs.installLoopback owner found.normalized
  cases hook with
  | some message => exact hset.failStarts message
  | none =>
    obtain ⟨hkeep, hfits⟩ := h rfl
    have hlog : ⟨owner.account, owner.args.password, found.normalized⟩ ∈
        (Loopbacks.installLoopback s owner found.normalized).logins :=
      mem_append_right _ (mem_singleton_self _)
    have hper := hset.persistOwner hlog hkeep
    refine Vaulted.afterStarts (fun r hr => ?_) hper
    obtain ⟨hr, hfly⟩ := mem_filter.mp hr
    refine ⟨fun _ hrem => (hs.requests r hr).matched hrem, fun remembered hrem => ?_, ?_⟩
    · obtain ⟨vault, hv⟩ := persistOwner_fields (Loopbacks.installLoopback s owner found.normalized) owner
        found.normalized
      rw [hv, ← hfits r hr hfly remembered hrem]
      simp [targetOf, Loopbacks.installLoopback]
    · rw [isFlying, Bool.and_eq_true] at hfly
      exact of_decide_eq_true hfly.2

theorem Vaulted.answerReaped (hw : ∀ r ∈ waiting, Bound s r) (hs : Vaulted s) :
    Vaulted (waiting.foldl answerReaped s) := by
  induction waiting generalizing s with
  | nil => exact hs
  | cons r waiting ih =>
    have hr := hw r mem_cons_self
    have hans : Vaulted (answerReaped s r) := by
      rw [answerReaped]
      split
      · rename_i t l hstage
        exact hs.answer hr fun remembered hrem => (hr remembered.1 remembered.2 hrem).2 t l hstage
      · exact hs
      · exact hs
    refine ih (fun q hq => ?_) hans
    obtain ⟨replies, he⟩ := answerReaped_fields s r
    rw [he]
    exact hw q (mem_cons_of_mem _ hq)

theorem Vaulted.withRequests (hs : Vaulted s) {requests : List Request} (h : ∀ r ∈ requests, r ∈ s.requests) :
    Vaulted { s with requests } :=
  ⟨⟨hs.trustworthy.authentic, hs.trustworthy.forgotten, hs.trustworthy.bound⟩, fun r hr => hs.requests r (h r hr)⟩

theorem Vaulted.resolveStops (hs : Vaulted s) (done : List Nat) : Vaulted (resolveStops s done) := by
  refine Vaulted.answerReaped (fun r hr => ?_) (hs.withRequests fun r hr => mem_of_mem_filter hr)
  exact hs.requests r (mem_of_mem_filter hr)

theorem Vaulted.liftBarrier (hs : Vaulted s) (account : String) : Vaulted (liftBarrier s account) := by
  refine Vaulted.proceedStarts (fun r hr => ?_) ?_
  · obtain ⟨hr, hbar⟩ := mem_filter.mp hr
    rw [isBarred, Bool.and_eq_true] at hbar
    refine ⟨fun _ hrem => (hs.requests r hr).matched hrem, fun t l hstage => ?_⟩
    cases hstage.symm.trans (of_decide_eq_true hbar.2)
  · exact ⟨⟨hs.trustworthy.authentic, hs.trustworthy.forgotten, hs.trustworthy.bound⟩,
      fun r hr => hs.requests r (mem_of_mem_filter hr)⟩

theorem Vaulted.settleStops (hs : Vaulted s) (account : String) (done : List Nat) (queue : List Queued) :
    Vaulted (settleStops s account done queue) := by
  induction queue generalizing done with
  | nil =>
    exact (hs.resolveStops done).liftBarrier account
  | cons stop queue ih =>
    rw [Loopbacks.settleStops]
    split
    · exact (untouched_beginTeardown _ account _ _ queue).vaulted (hs.resolveStops done)
    · exact ih (stop.id :: done)

theorem Vaulted.getPort (hs : Vaulted s) (renderer : Nat) (account : String) : Vaulted (getPort s renderer account) := by
  rw [Loopbacks.getPort]
  split
  · exact hs
  split
  · have hcla := ((untouched_observeRenderer s renderer).trans (untouched_claim _ account renderer none)).vaulted hs
    refine ⟨⟨hcla.trustworthy.authentic, hcla.trustworthy.forgotten, ?_⟩, hcla.requests⟩
    intro reply hrep credential request hrem
    rcases mem_append.mp hrep with hrep | hrep
    · exact hcla.trustworthy.bound reply hrep credential request hrem
    · rw [mem_singleton.mp hrep] at hrem
      cases hrem
  · exact hs

theorem Vaulted.next {t : State} {event : Event} (hs : Vaulted s) (hc : Faithful s event)
    (h : next s event = some t) : Vaulted t := by
  cases event with
  | start renderer args => cases h; exact hs.handleStart renderer args
  | startRemembered renderer args => cases h; exact hs.handleStartRemembered renderer args hc
  | stop renderer account => cases h; exact (untouched_releaseLoopbackClaim s account renderer none).vaulted hs
  | releaseAttempt renderer account token =>
    cases h
    split
    · exact (untouched_releaseLoopbackClaim s account renderer _).vaulted hs
    · exact hs
  | getPort renderer account => cases h; exact hs.getPort renderer account
  | destroyed renderer => cases h; exact (untouched_rendererDestroyed s renderer).vaulted hs
  | stopAll => cases h; exact (untouched_stopAllLoopbacks s).vaulted hs
  | removeCredential account => cases h; exact hs.forgets account s.generations
  | keychain available =>
    cases h
    exact ⟨⟨hs.trustworthy.authentic, hs.trustworthy.forgotten, hs.trustworthy.bound⟩, hs.requests⟩
  | nativeFinishes account found hook =>
    simp only [Loopbacks.next] at h
    split at h
    · rename_i owner hfli
      obtain ⟨-, ht⟩ := ite_none_right_eq_some.mp h
      cases ht
      refine hs.finishFlight fun hnone => ?_
      subst hnone
      exact hc owner hfli
    · cases h
  | nativeFails account message =>
    obtain ⟨-, ht⟩ := ite_none_right_eq_some.mp h
    cases ht
    exact hs.failFlight account message
  | nativeTimesOut account =>
    obtain ⟨-, ht⟩ := ite_none_right_eq_some.mp h
    cases ht
    have hfai := hs.failFlight account "loopback startup timed out after 30000ms"
    exact ⟨⟨hfai.trustworthy.authentic, hfai.trustworthy.forgotten, hfai.trustworthy.bound⟩, hfai.requests⟩
  | orphanFinishes i found =>
    obtain ⟨account, -, ht⟩ := map_eq_some_iff.mp h
    cases ht
    refine ⟨⟨hs.trustworthy.authentic, hs.trustworthy.forgotten, hs.trustworthy.bound⟩, fun r hr => ?_⟩
    intro credential request hrem
    obtain ⟨hmat, hrea⟩ := hs.requests r hr credential request hrem
    exact ⟨hmat, fun t l hstage => targetOf_append _ (hrea t l hstage)⟩
  | hookEnds account =>
    simp only [Loopbacks.next] at h
    split at h
    · obtain ⟨-, hend⟩ := ite_none_right_eq_some.mp h
      cases hend
      exact ⟨⟨hs.trustworthy.authentic, hs.trustworthy.forgotten, hs.trustworthy.bound⟩, hs.requests⟩
    · cases h
  | nativeStops account =>
    simp only [Loopbacks.next] at h
    split at h
    · obtain ⟨-, hend⟩ := ite_none_right_eq_some.mp h
      cases hend
      exact hs.settleStops account _ _
    · cases h
  | barrierExpires i =>
    simp only [Loopbacks.next] at h
    split at h
    · obtain ⟨-, hend⟩ := ite_none_right_eq_some.mp h
      cases hend
      exact (hs.withRequests fun _ hr => mem_of_mem_eraseIdx hr).failStart _
    · cases h
  | reapingExpires i =>
    simp only [Loopbacks.next] at h
    split at h
    · split at h
      · cases h
        exact (hs.withRequests fun _ hr => mem_of_mem_eraseIdx hr).failStart _
      · cases h
      · cases h
    · cases h

end Starts

theorem vaulted_opening {vault : Dict String RememberedCredentialRecord} {available : Bool} {logins : List Login}
    (h : Authentic vault logins) : Vaulted (opening vault available logins) := by
  refine ⟨⟨h, ?_, ?_⟩, ?_⟩ <;> intro x hx <;> cases hx

/-- Every run whose landings and remembered requests are faithful keeps the vault authentic and forgetful, and answers a
remembered start only with the target of its credential and its request. -/
theorem remembered_credentials_trustworthy {vault : Dict String RememberedCredentialRecord} {logins : List Login}
    (hvault : Authentic vault logins) (available : Bool) {s : State}
    (h : Runs.ReachesUnder next Faithful (opening vault available logins) s) : Trustworthy s := by
  have hs : Vaulted s := Runs.invariant_under (fun _ _ _ hs hc ht => Vaulted.next hs hc ht) (vaulted_opening hvault) h
  exact hs.trustworthy

instance (s : State) (event : Event) : Decidable (Faithful s event) :=
  match event with
  | .startRemembered _ args => inferInstanceAs (Decidable (∀ credential ∈ (loadRememberedCredential s args.accountId).2,
      isBlankField args.network = true → asserts args.handle _ = true ∧ asserts args.agent _ = true))
  | .nativeFinishes account found none => inferInstanceAs (Decidable (∀ owner ∈ s.flights.get? account,
      (shouldSaveAuthenticatedOwner s owner = true → owner.account ∉ s.forgotten) ∧
        ∀ r ∈ s.requests, isFlying owner.account r = true → ∀ remembered ∈ r.remembered,
          found.normalized = remembered.1.target.toVerifiedLoopbackTarget))
  | .nativeFinishes _ _ (some _) | .start _ _ | .getPort _ _ | .stop _ _ | .releaseAttempt _ _ _ | .destroyed _
  | .stopAll | .removeCredential _ | .keychain _ | .nativeFails _ _ | .nativeTimesOut _ | .orphanFinishes _ _
  | .hookEnds _ | .nativeStops _ | .barrierExpires _ | .reapingExpires _ => inferInstanceAs (Decidable True)

end Trust

theorem authentic_empty : Authentic .empty [] := by
  intro a record h
  cases h

def adaRemembers : StartArgs := { adaStarts with remember := some true }

def rememberedRun : List Event :=
  [.start 1 adaRemembers, .nativeFinishes "acc" home none, .stop 1 "acc", .hookEnds "acc", .nativeStops "acc",
    .startRemembered 2 { accountId := "acc", network := some "Home ", handle := some "ADA" },
    .nativeFinishes "acc" home none, .removeCredential "acc"]

theorem remembered_run_trustworthy : ∃ s, Runs.run (@next ascii) (opening .empty true []) rememberedRun = some s ∧
      s.replies.map (fun r => r.remembered.isSome) = [false, true] ∧ s.vault.keys = [] ∧ @Trustworthy ascii s := by
  have hrun : (Runs.run (@next ascii) (opening .empty true []) rememberedRun).map
      (fun s => (s.replies.map (fun r => r.remembered.isSome), s.vault.keys)) = some ([false, true], []) := by
    decide +kernel
  obtain ⟨s, hs, hend⟩ := map_eq_some_iff.mp hrun
  obtain ⟨hrep, hkeys⟩ := Prod.mk.inj hend
  have hall : Runs.all (fun s e => decide (@Faithful ascii s e)) (@next ascii) (opening .empty true []) rememberedRun =
      true := by decide +kernel
  exact ⟨s, hs, hrep, hkeys,
    @remembered_credentials_trustworthy ascii _ _ authentic_empty true s (Runs.reachesUnder_of_all hall hs)⟩

def removedInFlight : List Event :=
  [.start 1 adaRemembers, .removeCredential "acc", .nativeFinishes "acc" home none]

theorem removal_does_not_cancel_save :
    ¬ ∀ es s, Runs.run (@next ascii) (opening .empty true []) es = some s → @Trustworthy ascii s := by
  intro hall
  have hrun : (Runs.run (@next ascii) (opening .empty true []) removedInFlight).map
      (fun s => (s.forgotten, s.vault.keys)) = some (["acc"], ["acc"]) := by decide +kernel
  obtain ⟨s, hs, hend⟩ := map_eq_some_iff.mp hrun
  obtain ⟨hfor, hkeys⟩ := Prod.mk.inj hend
  have hnone := @Trustworthy.forgotten ascii s (hall _ s hs) "acc" (by simp [hfor])
  obtain ⟨record, hget⟩ := (Dict.mem_keys_iff s.vault "acc").mp (by simp [hkeys])
  cases hnone.symm.trans hget

end OpenAgent.Desktop.Loopbacks
