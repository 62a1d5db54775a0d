import OpenAgent.Identity.Service

namespace OpenAgent.Identity

open Py

variable {Session α β : Type} {P : Platform} {T : Action → Prop}

def Honest (P : Platform) (c : Coordinator Session) (r : Coordinator Session × Event) : Prop :=
  match r.2.action with
  | .wrote w => r.1.working = w.run P c.working ∧ r.1.committed = c.committed
  | .committed => r.1.working = c.working ∧ r.1.committed = c.working
  | .rolledBack => r.1.working = c.committed ∧ r.1.committed = c.committed
  | .readDevice devicePubkey row =>
    (r.1.working = c.working ∧ r.1.committed = c.committed) ∧ row = c.working.devices.get? devicePubkey
  | .readUserDevices handle any =>
    (r.1.working = c.working ∧ r.1.committed = c.committed) ∧
      any = c.working.devices.values.any (fun d => d.userHandle = handle)
  | _ => r.1.working = c.working ∧ r.1.committed = c.committed

theorem proveLogin_cases (S : Service Session) (stateId : String) (ke3 devicePubkey : Bytes) (c : Coordinator Session) :
    (∃ e logins, S.proveLogin stateId ke3 devicePubkey c = (.error e, { c with logins }, .nothing)) ∨
    ∃ handle m2 logins, S.proveLogin stateId ke3 devicePubkey c =
      (.ok (handle, m2), { c with logins }, .began handle devicePubkey) := by
  rw [Service.proveLogin]
  split
  · exact .inl ⟨_, c.logins, rfl⟩
  split
  · exact .inl ⟨_, _, rfl⟩
  · exact .inl ⟨_, _, rfl⟩
  · exact .inr ⟨_, _, _, rfl⟩

def Acts (P : Platform) (T : Action → Prop) (x : Act Session α) : Prop :=
  Coro.All (fun c r => Honest P c r ∧ T r.2.action) x.run

namespace Acts

theorem bind {x : Act Session α} {f : α → Act Session β} (hx : Acts P T x) (hf : ∀ a, Acts P T (f a)) :
    Acts P T (x >>= f) := Coro.All.andThen hx hf

theorem catching {x : Act Session α} {f : Exn → Act Session α} (hx : Acts P T x) (hf : ∀ e, Acts P T (f e)) :
    Acts P T (tryCatch x f) := Coro.All.catching hx hf

theorem pure (a : α) : Acts P T (Pure.pure a : Act Session α) := trivial

theorem throw (e : Exn) : Acts P T (MonadExcept.throw e : Act Session α) := trivial

theorem lift (x : Except Exn α) : Acts P T (Service.lift x : Act Session α) := by
  cases x with
  | ok a => trivial
  | error e => trivial

theorem statement {f : Turn → Coordinator Session → Except Exn α × Coordinator Session × Action}
    (hf : ∀ t c e, Honest P c ((f t c).2.1, ⟨(f t c).2.2, e⟩) ∧ T (f t c).2.2) (h : T .nothing) :
    Acts P T (statement f) := by
  apply Coro.All.step
  intro t c
  rw [perform.eq_def]
  split
  · exact hf t c _
  · exact ⟨⟨rfl, rfl⟩, h⟩
  · exact hf t c _
  · exact ⟨⟨rfl, rfl⟩, h⟩

theorem atomic {f : Turn → Coordinator Session → Except Exn α × Coordinator Session × Action}
    (hf : ∀ t c e, Honest P c ((f t c).2.1, ⟨(f t c).2.2, e⟩) ∧ T (f t c).2.2) : Acts P T (atomic f) :=
  Coro.All.step (fun t c => hf t c _)

theorem select {query : Turn → Db → α} {a : α → Action}
    (hq : ∀ t (c : Coordinator Session) e, Honest P c (c, ⟨a (query t c.working), e⟩))
    (ha : ∀ x, T (a x)) (h : T .nothing) : Acts P T (select query a : Act Session α) :=
  statement (fun t c e => ⟨hq t c e, ha _⟩) h

theorem execute {w : Turn → Write} (hw : ∀ t, T (.wrote (w t))) (h : T .nothing) :
    Acts P T (execute P w : Act Session Nat) := by
  apply statement _ h
  intro t c e
  split
  · exact ⟨⟨rfl, rfl⟩, h⟩
  · exact ⟨⟨rfl, rfl⟩, hw t⟩

theorem commit (hc : T .committed) (h : T .nothing) : Acts P T (commit : Act Session Unit) :=
  statement (fun _ _ _ => ⟨⟨rfl, rfl⟩, hc⟩) h

theorem rollback (hr : T .rolledBack) (h : T .nothing) : Acts P T (rollback : Act Session Unit) :=
  statement (fun _ _ _ => ⟨⟨rfl, rfl⟩, hr⟩) h

theorem mark {a : Action} (hm : ∀ (c : Coordinator Session) e, Honest P c (c, ⟨a, e⟩)) (ha : T a) :
    Acts P T (mark a : Act Session Time) :=
  atomic (fun _ c e => ⟨hm c e, ha⟩)

variable (P)

theorem getUser (handle : String) (h : T .nothing) : Acts P T (getUser handle : Act Session (Option UserRow)) :=
  select (fun _ _ _ => ⟨rfl, rfl⟩) (fun _ => h) h

theorem listUsers (h : T .nothing) : Acts P T (listUsers : Act Session (List UserRow)) :=
  select (fun _ _ _ => ⟨rfl, rfl⟩) (fun _ => h) h

theorem getDevice (devicePubkey : Bytes) (h : T .nothing) (hr : ∀ row, T (.readDevice devicePubkey row)) :
    Acts P T (getDevice devicePubkey : Act Session (Option DeviceRow)) :=
  select (fun _ _ _ => ⟨⟨rfl, rfl⟩, rfl⟩) hr h

theorem userHasDevices (handle : String) (h : T .nothing) (hr : ∀ any, T (.readUserDevices handle any)) :
    Acts P T (userHasDevices handle : Act Session Bool) :=
  select (fun _ _ _ => ⟨⟨rfl, rfl⟩, rfl⟩) hr h

theorem claimBootstrapAgent (handle : String) (claim : Bool) (h : T .nothing) (ha : T (.wrote (.claimAgent handle))) :
    Acts P T (claimBootstrapAgent P handle claim : Act Session Bool) := by
  rw [Identity.claimBootstrapAgent]
  split
  · exact bind (execute (fun _ => ha) h) (fun _ => pure _)
  · exact pure _

theorem createUser (handle : String) (pakeRecord : Bytes) (pakeAlgo : String) (claim : Bool) (h : T .nothing)
    (hi : ∀ row, T (.wrote (.insertUser row))) (ha : T (.wrote (.claimAgent handle))) (hc : T .committed)
    (hr : T .rolledBack) : Acts P T (createUser P handle pakeRecord pakeAlgo claim : Act Session Bool) := by
  apply catching
  · apply bind (execute (fun t => hi _) h)
    intro _
    apply bind (claimBootstrapAgent P handle claim h ha)
    intro _
    exact bind (commit hc h) (fun _ => pure _)
  intro e
  split
  · exact bind (rollback hr h) (fun _ => throw e)
  · exact throw e

theorem setUserStatus (handle status : String) (h : T .nothing)
    (hw : ∀ st, T (.wrote (.setUserStatus handle st))) (hc : T .committed) :
    Acts P T (setUserStatus P handle status : Act Session Bool) := by
  have hset : ∀ st, Acts P T (setUserStatus.set P handle st : Act Session Bool) := by
    intro st
    apply bind (execute (fun _ => hw st) h)
    intro _
    exact bind (commit hc h) (fun _ => pure _)
  rw [Identity.setUserStatus.eq_def]
  split
  · exact hset _
  · exact hset _
  · exact throw _

theorem deleteUser (handle : String) (h : T .nothing) (hd : T (.wrote (.deleteDevices handle)))
    (hu : T (.wrote (.deleteUser handle))) (hc : T .committed) :
    Acts P T (deleteUser P handle : Act Session Bool) := by
  apply bind (execute (fun _ => hd) h)
  intro _
  apply bind (execute (fun _ => hu) h)
  intro _
  exact bind (commit hc h) (fun _ => pure _)

theorem addDevice (devicePubkey : Bytes) (userHandle : String) (label : Cbor) (h : T .nothing)
    (hw : ∀ now, T (.wrote (.upsertDevice devicePubkey userHandle label now))) (hc : T .committed) :
    Acts P T (addDevice P devicePubkey userHandle label : Act Session Unit) :=
  bind (execute (fun t => hw t.now) h) (fun _ => commit hc h)

theorem revokeDevice (devicePubkey : Bytes) (h : T .nothing) (hw : T (.wrote (.revokeDevice devicePubkey)))
    (hc : T .committed) : Acts P T (revokeDevice P devicePubkey : Act Session Bool) := by
  apply bind (execute (fun _ => hw) h)
  intro _
  exact bind (commit hc h) (fun _ => pure _)

theorem touchDevice (devicePubkey : Bytes) (h : T .nothing)
    (hw : ∀ now, T (.wrote (.touchDevice devicePubkey now))) (hc : T .committed) :
    Acts P T (touchDevice P devicePubkey : Act Session Unit) :=
  bind (execute (fun t => hw t.now) h) (fun _ => commit hc h)

theorem registerAgent (handle nodeId ownerHandle : String) (label : Cbor) (h : T .nothing)
    (hw : ∀ now, T (.wrote (.upsertAgent handle nodeId ownerHandle label now))) (hc : T .committed) :
    Acts P T (registerAgent P handle nodeId ownerHandle label : Act Session Unit) :=
  bind (execute (fun t => hw t.now) h) (fun _ => commit hc h)

theorem consumeInvitation (codeInput : String) (h : T .nothing)
    (hr : ∀ valid, T (.readInvitation (normalizeInviteCode P codeInput) valid))
    (hw : ∀ now, T (.wrote (.spendInvitation (normalizeInviteCode P codeInput) now))) (hc : T .committed)
    (hm : ∀ invite, T (.redeemed (normalizeInviteCode P codeInput) invite)) :
    Acts P T (consumeInvitation P codeInput : Act Session (Option InvitationRow)) := by
  apply bind
  · apply select _ (fun _ => hr _) h
    exact fun _ _ _ => ⟨rfl, rfl⟩
  intro row
  cases row with
  | none => exact pure _
  | some invite =>
    apply bind (execute (fun t => hw t.now) h)
    intro _
    apply bind (commit hc h)
    intro _
    exact bind (mark (fun _ _ => ⟨rfl, rfl⟩) (hm invite)) (fun _ => pure _)

section Service

variable (S : Service Session)

theorem issueCert (handle : String) (devicePubkey : Bytes)
    (capabilities : List String) (h : T .nothing) (hi : ∀ cert, T (.issued cert)) :
    Acts S.platform T (S.issueCert handle devicePubkey capabilities) := by
  apply atomic
  intro t c e
  split
  · exact ⟨⟨rfl, rfl⟩, h⟩
  · exact ⟨⟨rfl, rfl⟩, hi _⟩

theorem verifyAdminCert (wire : Cbor) (h : T .nothing) : Acts S.platform T (S.verifyAdminCert wire) := by
  apply bind
  · apply mark _ h
    exact fun _ _ => ⟨rfl, rfl⟩
  intro now
  apply bind (lift _)
  intro cert
  split
  · exact pure _
  · exact throw _

theorem takeLogin (stateId : String) (ke3 devicePubkey : Bytes)
    (h : T .nothing) (hb : ∀ handle, T (.began handle devicePubkey)) :
    Acts S.platform T (S.takeLogin stateId ke3 devicePubkey) := by
  apply atomic
  intro t c e
  rcases proveLogin_cases S stateId ke3 devicePubkey c with ⟨e', logins, hf⟩ | ⟨handle, m2, logins, hf⟩
  · rw [hf]
    exact ⟨⟨rfl, rfl⟩, h⟩
  · rw [hf]
    exact ⟨⟨rfl, rfl⟩, hb handle⟩

theorem loginInit (params : Params) (h : T .nothing) : Acts S.platform T (S.loginInit params) := by
  apply bind (lift _)
  intro handle
  apply bind (lift _)
  intro ke1
  apply bind (getUser S.platform _ h)
  intro user
  split
  · exact throw _
  apply atomic
  intro t c e
  split
  · exact ⟨⟨rfl, rfl⟩, h⟩
  · exact ⟨⟨rfl, rfl⟩, h⟩
  · exact ⟨⟨rfl, rfl⟩, h⟩

theorem revokeDeviceRpc (params : Params) (h : T .nothing)
    (hw : ∀ devicePubkey, T (.wrote (.revokeDevice devicePubkey))) (hc : T .committed) :
    Acts S.platform T (S.revokeDevice params) := by
  apply bind (lift _)
  intro wire
  apply bind (verifyAdminCert S _ h)
  intro cert
  apply bind (lift _)
  intro devicePubkey
  apply bind (revokeDevice S.platform _ h (hw _) hc)
  exact fun _ => pure _

theorem failure (e : Exn) : Acts P T (Service.failure e : Act Session Response) := by
  cases e with
  | cancelled => exact throw _
  | _ => exact pure _

end Service

end Acts

section Rules

open Coro

variable {K : Contract (Coordinator Session) Event} {i : TaskId} {m : Moment (Coordinator Session) Event}

section Database

variable {f : Turn → Coordinator Session → Except Exn α × Coordinator Session × Action}
  {B : α → Moment (Coordinator Session) Event → Prop} {Z : Exn → Moment (Coordinator Session) Event → Prop}
  (hB : ∀ a l n, B a l → K.rely i l n → K.inv n → B a n)
  (hZ : ∀ e l n, Z e l → K.rely i l n → K.inv n → Z e n)
  (hok : ∀ n, K.rely i m n → K.inv n → ∀ t a, (f t n.shared).1 = .ok a → K.allowed n i ⟨(f t n.shared).2.2, none⟩ →
    K.Fair i n (n.after i ((f t n.shared).2.1, ⟨(f t n.shared).2.2, none⟩)) ∧
      B a (n.after i ((f t n.shared).2.1, ⟨(f t n.shared).2.2, none⟩)))

include hB hZ hok

theorem keeps_statement
    (hrai : ∀ n, K.rely i m n → K.inv n → ∀ t e c a,
      (c = n.shared ∧ a = .nothing) ∨ (c = (f t n.shared).2.1 ∧ a = (f t n.shared).2.2) →
      K.allowed n i ⟨a, some e⟩ →
      K.Fair i n (n.after i (c, ⟨a, some e⟩)) ∧ Z e (n.after i (c, ⟨a, some e⟩))) :
    Keeps K i (post B Z) (statement f).run m := by
  apply Keeps.step
  intro n hr hn t
  have hfau : ∀ e : Exn, K.allowed n i ⟨.nothing, some e⟩ → K.Fair i n (n.after i (n.shared, ⟨.nothing, some e⟩)) ∧
        ∀ l, K.rely i (n.after i (n.shared, ⟨.nothing, some e⟩)) l → K.inv l → Z e l := by
    intro e ha
    obtain ⟨hfair, hz⟩ := hrai n hr hn t e _ _ (.inl ⟨rfl, rfl⟩) ha
    exact ⟨hfair, fun l hl hi => hZ _ _ l hz hl hi⟩
  rw [perform.eq_def]
  split
  · cases hf : (f t n.shared).1 with
    | ok a =>
      intro ha
      obtain ⟨hfair, hb⟩ := hok n hr hn t a hf ha
      exact ⟨hfair, fun l hl hi => hB a _ l hb hl hi⟩
    | error e =>
      intro ha
      obtain ⟨hfair, hz⟩ := hrai n hr hn t e _ _ (.inr ⟨rfl, rfl⟩) ha
      exact ⟨hfair, fun l hl hi => hZ _ _ l hz hl hi⟩
  · exact hfau _
  · intro ha
    obtain ⟨hfair, hz⟩ := hrai n hr hn t _ _ _ (.inr ⟨rfl, rfl⟩) ha
    exact ⟨hfair, fun l hl hi => hZ _ _ l hz hl hi⟩
  · exact hfau _

theorem keeps_atomic
    (hrai : ∀ n, K.rely i m n → K.inv n → ∀ t e, (f t n.shared).1 = .error e →
      K.allowed n i ⟨(f t n.shared).2.2, some e⟩ →
      K.Fair i n (n.after i ((f t n.shared).2.1, ⟨(f t n.shared).2.2, some e⟩)) ∧
        Z e (n.after i ((f t n.shared).2.1, ⟨(f t n.shared).2.2, some e⟩))) :
    Keeps K i (post B Z) (atomic f).run m := by
  apply Keeps.step
  intro n hr hn t
  dsimp only
  cases hf : (f t n.shared).1 with
  | ok a =>
    intro ha
    obtain ⟨hfair, hb⟩ := hok n hr hn t a hf ha
    exact ⟨hfair, fun l hl hi => hB a _ l hb hl hi⟩
  | error e =>
    intro ha
    obtain ⟨hfair, hz⟩ := hrai n hr hn t e hf ha
    exact ⟨hfair, fun l hl hi => hZ e _ l hz hl hi⟩

end Database

end Rules

end OpenAgent.Identity
