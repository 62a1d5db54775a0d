import OpenAgent.Identity.Redemptions

namespace OpenAgent.Identity

open Py Service Acts Write Cbor
open Coro hiding bind_assoc

variable {Session α β : Type}

def spared (env : Nat → Turn) (k : Nat) : Turn := { env k with fault := none }

def InvitationRow.boundTo (r : InvitationRow) : Option String := r.bindToHandle.filter (· != "")

def Request.entries (request : Request) : Params :=
  match request.params with
  | .map entries => entries
  | _ => []

def Service.served (S : Service Session) (params : Params) (reply : Reply) (db : Db) : Option String :=
  match reply with
  | .registered handle => some handle
  | .certificate cert _ => some cert.handle
  | .done | .agentCertificate _ _ _ => ((params.find? "handle").bind Cbor.asText).bind (fun handle =>
    (db.agents.get? (S.normalizeHandle handle)).map (·.ownerHandle))
  | .challenge _ _ | .revoked _ _ => none

/-- A request that is not granted leaves the invitations as they were, and one that is granted for an invitation
bound to a handle serves that handle. -/
structure Accounted (S : Service Session) (params : Params) (db : Db) (reply : Option Reply)
    (after : Coordinator Session) : Prop where
  rejected : reply = none → after.working.invitations = db.invitations ∧ after.committed.invitations = db.invitations
  bound : ∀ r ∈ reply, ∀ code invite handle, db.invitations.get? code = some invite →
    after.working.invitations.get? code ≠ some invite → invite.boundTo = some handle →
      S.served params r after.working = some handle

section Alone

variable {env : Nat → Turn} {k : Nat} {P : Platform} {s t : Coordinator Session}

theorem ends_statement {f : Turn → Coordinator Session → Except Exn α × Coordinator Session × Action}
    {r : Except Exn α} {a : Action} (h : f (spared env k) s = (r, t, a)) :
    Ends (spared env) (statement f).run k s r (k + 1) t := by
  apply Ends.step (o := ⟨a, raisedBy r⟩)
  change ((f (spared env k) s).1, (f (spared env k) s).2.1, _) = _
  rw [h]

theorem ends_atomic {f : Turn → Coordinator Session → Except Exn α × Coordinator Session × Action}
    {r : Except Exn α} {a : Action} (h : f (spared env k) s = (r, t, a)) :
    Ends (spared env) (atomic f).run k s r (k + 1) t := by
  apply Ends.step (o := ⟨a, raisedBy r⟩)
  rw [h]

theorem ends_select (query : Turn → Db → α) (a : α → Action) :
    Ends (spared env) (select query a : Act Session α).run k s (.ok (query (spared env k) s.working)) (k + 1) s :=
  ends_statement rfl

theorem ends_execute {w : Turn → Write} (h : (w (spared env k)).refused P s.working = false) :
    Ends (spared env) (execute P w : Act Session Nat).run k s (.ok ((w (spared env k)).rowcount s.working)) (k + 1)
      { s with working := (w (spared env k)).run P s.working } := by
  apply ends_statement (a := .wrote (w (spared env k)))
  rw [h]
  rfl

theorem ends_refused {w : Turn → Write} (h : (w (spared env k)).refused P s.working = true) :
    Ends (spared env) (execute P w : Act Session Nat).run k s (.error (.sqlite false)) (k + 1) s := by
  apply ends_statement (a := .nothing)
  rw [h]
  rfl

theorem ends_commit : Ends (spared env) (commit : Act Session Unit).run k s (.ok ()) (k + 1)
    { s with committed := s.working } := ends_statement rfl

theorem ends_rollback : Ends (spared env) (rollback : Act Session Unit).run k s (.ok ()) (k + 1)
    { s with working := s.committed } := ends_statement rfl

/-- The invitation that is redeemed from turn `k` on. -/
def redeemedAt (P : Platform) (env : Nat → Turn) (k : Nat) (codeInput : String) (db : Db) : Option InvitationRow :=
  (redeemable (normalizeInviteCode P codeInput) (env k).now db).filter (fun _ =>
    !(Write.spendInvitation (normalizeInviteCode P codeInput) (env (k + 1)).now).refused P db)

def spentAt (P : Platform) (env : Nat → Turn) (k : Nat) (codeInput : String) (db : Db) : Db :=
  (Write.spendInvitation (normalizeInviteCode P codeInput) (env (k + 1)).now).run P db

def takenAt (env : Nat → Turn) (k : Nat) (invite : InvitationRow) : InvitationRow :=
  { invite with
    usesLeft := invite.usesLeft - 1
    usedAt := some ((invite.usedAt.filter (· != 0)).getD (env (k + 3)).now) }

def resting (db : Db) (logins : Dict String (LoginInProgress Session)) : Coordinator Session := ⟨db, db, logins⟩

variable {codeInput : String} {db : Db} (logins : Dict String (LoginInProgress Session)) {invite : InvitationRow}

theorem ends_redeemed (h : redeemedAt P env k codeInput db = some invite) :
    Ends (spared env) (consumeInvitation P codeInput : Act Session _).run k (resting db logins)
      (.ok (some (takenAt env k invite))) (k + 4) (resting (spentAt P env k codeInput db) logins) := by
  obtain ⟨hrow, hrefu⟩ := Option.filter_eq_some_iff.mp h
  have hacc : (spendInvitation (normalizeInviteCode P codeInput) (env (k + 1)).now).refused P db = false := by
    simpa using hrefu
  apply (ends_select _ _).andThen
  rw [show redeemable _ (spared env k).now (resting db logins).working = some invite from hrow]
  apply (ends_execute hacc).andThen
  apply ends_commit.andThen
  apply (ends_atomic rfl).andThen
  exact Ends.done

theorem ends_unredeemed (h : redeemedAt P env k codeInput db = none) :
    ∃ r l, Ends (spared env) (consumeInvitation P codeInput : Act Session _).run k (resting db logins) r l
      (resting db logins) ∧ (r = .ok none ∨ ∃ e, r = .error e) := by
  cases hrow : redeemable (normalizeInviteCode P codeInput) (env k).now db with
  | none =>
    refine ⟨.ok none, k + 1, (ends_select _ _).andThen ?_, .inl rfl⟩
    rw [show redeemable _ (spared env k).now (resting db logins).working = none from hrow]
    exact Ends.done
  | some invite =>
    rw [redeemedAt, hrow, Option.filter_some] at h
    have hrefu : (spendInvitation (normalizeInviteCode P codeInput) (env (k + 1)).now).refused P db = true := by
      simpa using h
    refine ⟨.error (.sqlite false), k + 2, (ends_select _ _).andThen ?_, .inr ⟨_, rfl⟩⟩
    rw [show redeemable _ (spared env k).now (resting db logins).working = some invite from hrow]
    exact (ends_refused hrefu).raises

def Unspending : Action → Prop
  | .wrote (.spendInvitation _ _) => False
  | _ => True

theorem invitations_run {w : Write} (hw : Unspending (.wrote w)) : (w.run P db).invitations = db.invitations := by
  cases w with
  | spendInvitation code now => exact absurd hw id
  | _ => rfl

def Holds (I : Dict String InvitationRow) (s : Coordinator Session) : Prop :=
  s.working.invitations = I ∧ s.committed.invitations = I

variable {I : Dict String InvitationRow}

theorem holds_step {r : Coordinator Session × Event} (hs : Holds I s) (hk : Honest P s r ∧ Unspending r.2.action) :
    Holds I r.1 := by
  obtain ⟨c, a, e⟩ := r
  obtain ⟨hk, hu⟩ := hk
  cases a with
  | wrote w =>
    refine ⟨?_, (congrArg _ hk.2).trans hs.2⟩
    rw [hk.1, invitations_run hu]
    exact hs.1
  | committed => exact ⟨(congrArg _ hk.1).trans hs.1, (congrArg _ hk.2).trans hs.1⟩
  | rolledBack => exact ⟨(congrArg _ hk.1).trans hs.2, (congrArg _ hk.2).trans hs.2⟩
  | readDevice _ _ | readUserDevices _ _ => exact ⟨(congrArg _ hk.1.1).trans hs.1, (congrArg _ hk.1.2).trans hs.2⟩
  | _ => exact ⟨(congrArg _ hk.1).trans hs.1, (congrArg _ hk.2).trans hs.2⟩

theorem Acts.holds {x : Act Session α} (hx : Acts P Unspending x) (env : Nat → Turn) (k : Nat) (hs : Holds I s) :
    Holds I (x.run.run env k s).2 :=
  All.alone (fun _ _ hs hk => holds_step hs hk) hx env k hs

theorem holds_andThen {x : Act Session α} {f : α → Act Session β}
    (hx : Holds I (x.run.run env k s).2) (hf : ∀ a, Acts P Unspending (f a)) :
    Holds I ((x >>= f).run.run env k s).2 := by
  change Holds I ((x.run.bind _).run env k s).2
  rw [run_bind]
  cases (x.run.run env k s).1 with
  | ok a => exact (hf a).holds env _ hx
  | error e => exact hx

variable {S : Service Session} {params : Params} {reply : Option Reply}

theorem accounted_of_holds (h : Holds db.invitations s) : Accounted S params db reply s where
  rejected _ := h
  bound _ _ _ _ _ hrow hcha := absurd (h.1.symm ▸ hrow) hcha

theorem get?_spentAt (code : String) : (spentAt P env k codeInput db).invitations.get? code =
    (db.invitations.get? code).map (fun r => if code = normalizeInviteCode P codeInput then
      { r with usesLeft := r.usesLeft - 1, usedAt := r.usedAt.orElse (fun _ => some (env (k + 1)).now) } else r) := by
  rw [spentAt, Write.run.eq_def]
  rw [Dict.get?_mapEntries]

/-- Where an invitation was redeemed, all is well exactly when the request was granted, and for the handle that
the invitation is bound to. -/
theorem accounted_redeemed_iff (h : redeemedAt P env k codeInput db = some invite)
    (hs : Holds (spentAt P env k codeInput db).invitations s) : Accounted S params db reply s ↔
      ∃ r, reply = some r ∧ ∀ handle, invite.boundTo = some handle → S.served params r s.working = some handle := by
  have hrow : db.invitations.get? (normalizeInviteCode P codeInput) = some invite :=
    (Option.filter_eq_some_iff.mp (Option.filter_eq_some_iff.mp h).1).1
  have hspe : s.working.invitations.get? (normalizeInviteCode P codeInput) ≠ some invite := by
    rw [hs.1, get?_spentAt, hrow, Option.map_some, if_pos rfl]
    intro heq
    have huses := congrArg InvitationRow.usesLeft (Option.some.inj heq)
    dsimp only at huses
    omega
  constructor
  · intro ha
    cases reply with
    | none =>
      obtain ⟨hsame, _⟩ := ha.rejected rfl
      exact absurd (hsame ▸ hrow) hspe
    | some r => exact ⟨r, rfl, fun handle => ha.bound r rfl _ invite handle hrow hspe⟩
  rintro ⟨r, rfl, hser⟩
  refine ⟨by rintro ⟨⟩, ?_⟩
  rintro _ ⟨⟩ code invite' handle hrow' hcha hbou
  by_cases hcode : code = normalizeInviteCode P codeInput
  · rw [hcode, hrow] at hrow'
    cases hrow'
    exact hser handle hbou
  · refine absurd ?_ hcha
    rw [hs.1, get?_spentAt, hrow', Option.map_some, if_neg hcode]

end Alone

variable (S : Service Session) {env : Nat → Turn} {k : Nat} {db : Db} {logins : Dict String (LoginInProgress Session)}
  {s : Coordinator Session} {invite : InvitationRow}
  {P : Platform} {handle : String} {params : Params} {r : Reply}

section Register

/-- What `register` does once the handle is known to be free. -/
def Service.enrol (handle : String) (record : Bytes) (invite : InvitationRow) : Act Session Reply := do
  let claimBootstrapOwner ← claimsBootstrapOwner invite
  let validated ← Service.lift (S.pake.registerFinalize handle record)
  let _ ← createUser S.platform handle validated S.pake.algo claimBootstrapOwner
  return .registered handle

def Service.registerWith (handle : String) (record : Bytes) (invite : Option InvitationRow) : Act Session Reply :=
  match invite.filter (fun i => i.role = .user) with
  | none => throw (.rpc "invalid_invite" "invite missing/expired/wrong-role")
  | some invite => do
    let existing ← getUser handle
    if existing.isSome then throw (.rpc "conflict" ("handle '" ++ handle ++ "' already taken"))
    else S.enrol handle record invite

def claims (invite : InvitationRow) (db : Db) : Bool :=
  invite.createdBy = some "auto-bootstrap" && db.users.values.isEmpty

structure Creates (P : Platform) (db : Db) (row : UserRow) (claim : Bool) : Prop where
  inserted : (Write.insertUser row).refused P db = false
  claimed : claim = true → (Write.claimAgent row.handle).refused P ((Write.insertUser row).run P db) = false

theorem ends_claimsBootstrapOwner : Ends (spared env) (Service.claimsBootstrapOwner invite).run k s
    (.ok (claims invite s.working)) (if invite.createdBy = some "auto-bootstrap" then k + 1 else k) s := by
  rw [claimsBootstrapOwner, claims]
  split
  · apply (ends_select _ _).andThen
    rw [decide_eq_true ‹_›, Bool.true_and]
    exact Ends.done
  · rw [decide_eq_false ‹_›]
    exact Ends.done

theorem ends_claimBootstrapAgent (env : Nat → Turn) (k : Nat) (s : Coordinator Session)
    (h : (Write.claimAgent handle).refused P s.working = false) : ∃ b l t,
      Ends (spared env) (claimBootstrapAgent P handle true : Act Session Bool).run k s (.ok b) l t :=
  ⟨_, _, _, (ends_execute h).andThen Ends.done⟩

variable {record : Bytes}

theorem ends_createUser {algo : String} {claim : Bool}
    (h : Creates P s.working ⟨handle, record, algo, .active, (env k).now⟩ claim) : ∃ b l t,
      Ends (spared env) (createUser P handle record algo claim : Act Session Bool).run k s (.ok b) l t := by
  have hins := ends_execute (w := fun t => .insertUser ⟨handle, record, algo, .active, t.now⟩) h.inserted
  cases claim with
  | false => exact ⟨_, _, _, (hins.andThen (Ends.done.andThen (ends_commit.andThen Ends.done))).tried⟩
  | true =>
    obtain ⟨b, l, t, hcla⟩ := ends_claimBootstrapAgent env (k + 1) { s with working := _ } (h.claimed rfl)
    exact ⟨_, _, _, (hins.andThen (hcla.andThen (ends_commit.andThen Ends.done))).tried⟩

theorem ends_createUser_refused {algo : String} {claim : Bool}
    (h : ¬ Creates P s.working ⟨handle, record, algo, .active, (env k).now⟩ claim) : ∃ e l t,
      Ends (spared env) (createUser P handle record algo claim : Act Session Bool).run k s (.error e) l t := by
  cases hi : (insertUser ⟨handle, record, algo, .active, (env k).now⟩).refused P s.working with
  | true =>
    have hins := ends_refused (w := fun t => .insertUser ⟨handle, record, algo, .active, t.now⟩) hi
    exact ⟨_, _, _, hins.raises.caught (ends_rollback.andThen Ends.done)⟩
  | false =>
    have hins := ends_execute (w := fun t => .insertUser ⟨handle, record, algo, .active, t.now⟩) hi
    cases claim with
    | false => exact absurd ⟨hi, by rintro ⟨⟩⟩ h
    | true =>
      cases hc : (claimAgent handle).refused P
          ((insertUser ⟨handle, record, algo, .active, (env k).now⟩).run P s.working) with
      | false => exact absurd ⟨hi, fun _ => hc⟩ h
      | true =>
        exact ⟨_, _, _, (hins.andThen (ends_refused (w := fun _ => .claimAgent handle) hc).raises.raises).caught
          (ends_rollback.andThen Ends.done)⟩

def Grants (env : Nat → Turn) (x : Act Session Reply) (k : Nat) (s : Coordinator Session) (r : Reply) : Prop :=
  (x.run.run (spared env) k s).1.toOption = some r

section Grants

variable {x : Act Session α} {f : α → Act Session Reply} {a : α} {e : Exn} {l : Nat} {t : Coordinator Session}
  {r r' : Reply}

theorem grants_andThen (h : Ends (spared env) x.run k s (.ok a) l t) :
    Grants env (x >>= f) k s r ↔ Grants env (f a) l t r := by
  rw [Grants, h.run_andThen]
  rfl

theorem not_grants_raises (h : Ends (spared env) x.run k s (.error e) l t) : ¬ Grants env (x >>= f) k s r := by
  rw [Grants, h.raises.run]
  rintro ⟨⟩

theorem not_grants_throw : ¬ Grants env (throw e : Act Session Reply) k s r := by
  rintro ⟨⟩

theorem grants_pure : Grants env (pure r' : Act Session Reply) k s r ↔ r = r' := by
  rw [eq_comm]
  exact Option.some_inj

end Grants

variable {S}

theorem grants_lift_iff {y : Except Exn α} {f : α → Act Session Reply} :
    Grants env (Service.lift y >>= f) k s r ↔ ∃ a, y = .ok a ∧ Grants env (f a) k s r := by
  cases y with
  | error e => exact iff_of_false (not_grants_raises Ends.done) (by rintro ⟨_, ⟨⟩, _⟩)
  | ok a =>
    rw [grants_andThen (x := lift (.ok a)) Ends.done]
    constructor
    · exact fun h => ⟨a, rfl, h⟩
    · rintro ⟨_, ⟨⟩, h⟩
      exact h

theorem enrol_iff : Grants env (S.enrol handle record invite) k s r ↔
    r = .registered handle ∧ ∃ validated, S.pake.registerFinalize handle record = .ok validated ∧
      Creates S.platform s.working ⟨handle, validated, S.pake.algo, .active,
        (env (if invite.createdBy = some "auto-bootstrap" then k + 1 else k)).now⟩ (claims invite s.working) := by
  rw [enrol, grants_andThen ends_claimsBootstrapOwner, grants_lift_iff, ← exists_and_left]
  refine exists_congr fun validated => ?_
  rw [and_left_comm]
  refine and_congr_right fun _ => ?_
  by_cases hcre : Creates S.platform s.working ⟨handle, validated, S.pake.algo, .active,
      (env (if invite.createdBy = some "auto-bootstrap" then k + 1 else k)).now⟩ (claims invite s.working)
  · obtain ⟨b, l, t, hends⟩ := ends_createUser hcre
    rw [grants_andThen hends, grants_pure]
    exact ⟨fun h => ⟨h, hcre⟩, fun h => h.1⟩
  · obtain ⟨e, l, t, hends⟩ := ends_createUser_refused hcre
    exact iff_of_false (not_grants_raises hends) (fun h => hcre h.2)

theorem registerWith_iff : Grants env (S.registerWith handle record (some invite)) k s r ↔
      invite.role = .user ∧ s.working.users.get? handle = none ∧ Grants env (S.enrol handle record invite) (k + 1) s r := by
  rw [registerWith, Option.filter_some]
  by_cases hrole : invite.role = .user
  · rw [if_pos (decide_eq_true hrole)]
    rw [getUser, grants_andThen (ends_select _ _)]
    cases huser : s.working.users.get? handle with
    | some user => exact iff_of_false not_grants_throw (by rintro ⟨_, ⟨⟩, _⟩)
    | none => exact ⟨fun h => ⟨hrole, rfl, h⟩, fun h => h.2.2⟩
  · rw [if_neg (by simpa using hrole)]
    exact iff_of_false not_grants_throw (fun h => hrole h.1)

theorem acts_enrol : Acts S.platform Unspending (S.enrol handle record invite) := by
  apply Acts.bind
  · rw [claimsBootstrapOwner]
    split
    · exact Acts.bind (Acts.listUsers _ trivial) (fun _ => Acts.pure _)
    · exact Acts.pure _
  intro claim
  apply Acts.bind (Acts.lift _)
  intro validated
  apply Acts.bind (Acts.createUser _ _ _ _ _ trivial (fun _ => trivial) trivial trivial trivial)
  exact fun _ => pure _

theorem acts_registerWith {invite : Option InvitationRow} :
    Acts S.platform Unspending (S.registerWith handle record invite) := by
  rw [registerWith]
  split
  · exact Acts.throw _
  apply Acts.bind (Acts.getUser _ _ trivial)
  intro existing
  split
  · exact Acts.throw _
  · exact acts_enrol

/-- Run alone from turn `k` on, the act accounts for the invitations that the request found. -/
abbrev Accounts (S : Service Session) (env : Nat → Turn) (params : Params) (db : Db) (x : Act Session Reply) (k : Nat)
    (s : Coordinator Session) : Prop :=
  Accounted S params db (x.run.run (spared env) k s).1.toOption (x.run.run (spared env) k s).2

theorem accounts_of_acts {x : Act Session Reply} (hx : Acts P Unspending x) :
    Accounts S env params db x k (resting db logins) :=
  accounted_of_holds (hx.holds _ _ ⟨rfl, rfl⟩)

theorem accounts_andThen {x : Act Session α} {f : α → Act Session Reply} {a : α} {l : Nat}
    {t : Coordinator Session} (h : Ends (spared env) x.run k s (.ok a) l t) :
    Accounts S env params db (x >>= f) k s ↔ Accounts S env params db (f a) l t := by
  rw [Accounts, h.run_andThen]

theorem accounts_lift_iff {x : Except Exn α} {f : α → Act Session Reply} {C : α → Prop}
    (h : ∀ a, x = .ok a → (Accounts S env params db (f a) k (resting db logins) ↔ C a)) :
    Accounts S env params db (Service.lift x >>= f) k (resting db logins) ↔ ∀ a, x = .ok a → C a := by
  cases x with
  | error e => exact iff_of_true (accounted_of_holds ⟨rfl, rfl⟩) (by rintro _ ⟨⟩)
  | ok a =>
    apply (h a rfl).trans
    constructor
    · rintro hC _ ⟨⟩
      exact hC
    · exact fun hC => hC a rfl

theorem accounts_redeem_iff {codeInput : String}
    {f : Option InvitationRow → Act Session Reply} {C : InvitationRow → Prop}
    (hf : ∀ invite, Acts P Unspending (f invite)) (hC : ∀ invite, redeemedAt P env k codeInput db = some invite →
      ((∃ r, Grants env (f (some (takenAt env k invite))) (k + 4) (resting (spentAt P env k codeInput db) logins) r ∧
        ∀ handle, invite.boundTo = some handle → S.served params r ((f (some (takenAt env k invite))).run.run
          (spared env) (k + 4) (resting (spentAt P env k codeInput db) logins)).2.working = some handle) ↔ C invite)) :
    Accounts S env params db (consumeInvitation P codeInput >>= f) k (resting db logins) ↔
      ∀ invite, redeemedAt P env k codeInput db = some invite → C invite := by
  cases hinv : redeemedAt P env k codeInput db with
  | none =>
    refine iff_of_true (accounted_of_holds ?_) (by rintro _ ⟨⟩)
    obtain ⟨r, l, hends, hr⟩ := ends_unredeemed logins hinv
    apply holds_andThen (P := P) _ hf
    rw [hends.run]
    exact ⟨rfl, rfl⟩
  | some invite =>
    have hends := ends_redeemed logins hinv
    rw [Accounts, hends.run_andThen, accounted_redeemed_iff hinv ((hf _).holds _ _ ⟨rfl, rfl⟩)]
    apply (hC invite hinv).trans
    constructor
    · rintro h _ ⟨⟩
      exact h
    · exact fun h => h invite rfl

variable (S)

/-- Where `register` gets an invitation, the invitation is for a user and bound to nobody else, the handle is free,
and nothing else stands against the new user. -/
def Service.RegisterHonours (env : Nat → Turn) (db : Db) (params : Params) : Prop :=
  ∀ inviteCode, params.required "invite" Cbor.asText = .ok inviteCode →
    ∀ handle, params.required "handle" Cbor.asText = .ok handle →
      ∀ record, params.required "pake_record" Cbor.asBytes = .ok record →
        ∀ invite, redeemedAt S.platform env 0 inviteCode db = some invite → invite.role = .user ∧
          (∀ bound, invite.boundTo = some bound → bound = S.normalizeHandle handle) ∧
          db.users.get? (S.normalizeHandle handle) = none ∧
          ∃ validated, S.pake.registerFinalize (S.normalizeHandle handle) record = .ok validated ∧
            Creates S.platform (spentAt S.platform env 0 inviteCode db) ⟨S.normalizeHandle handle, validated,
              S.pake.algo, .active, (env (if invite.createdBy = some "auto-bootstrap" then 6 else 5)).now⟩
              (claims invite db)

theorem register_accounts_iff (params : Params) : Accounts S env params db (S.register params) 0 (resting db logins) ↔
    S.RegisterHonours env db params := by
  apply accounts_lift_iff
  intro inviteCode _
  apply accounts_lift_iff
  intro handle _
  apply accounts_lift_iff
  intro record _
  apply accounts_redeem_iff (f := S.registerWith (S.normalizeHandle handle) record) (fun _ => acts_registerWith)
  intro invite _
  simp only [registerWith_iff, enrol_iff]
  constructor
  · rintro ⟨_, ⟨hrole, hfree, rfl, hcre⟩, hser⟩
    exact ⟨hrole, fun bound hbou => (Option.some.inj (hser bound hbou)).symm, hfree, hcre⟩
  · rintro ⟨hrole, hbou, hfree, hcre⟩
    exact ⟨_, ⟨hrole, hfree, rfl, hcre⟩, fun bound h => congrArg some (hbou bound h).symm⟩

end Register

variable {devicePubkey : Bytes} {label : Cbor}

section LoginFinish

theorem bound_ok_iff : invite.bindToHandle.any (fun bound => bound != "" && bound != handle) = false ↔
      ∀ bound, invite.boundTo = some bound → bound = handle := by
  rw [InvitationRow.boundTo]
  cases invite.bindToHandle with
  | none => exact iff_of_true rfl (by rintro _ ⟨⟩)
  | some b =>
    by_cases hb : b = ""
    · simp [hb]
    · simp [hb]

/-- What `login_finish` does with a new device. -/
def Service.addLoginDevice (handle : String) (devicePubkey : Bytes) (label : Cbor) (m2 : Bytes) : Act Session Reply := do
  addDevice S.platform devicePubkey handle label
  let cert ← S.issueCert handle devicePubkey []
  return .certificate cert m2

def Service.pairWith (handle : String) (devicePubkey : Bytes) (label : Cbor) (m2 : Bytes) (inv : Option InvitationRow) :
    Act Session Reply :=
  match inv.filter (fun i => i.role = .user || i.role = .device) with
  | none => throw (.rpc "invalid_invite" "device invite missing/expired/wrong-role")
  | some inv =>
    if inv.bindToHandle.any (fun bound => bound != "" && bound != handle) then
      throw (.rpc "invalid_invite" "device invite is for a different handle")
    else S.addLoginDevice handle devicePubkey label m2

variable {S}
variable {m2 : Bytes}

theorem acts_addLoginDevice : Acts S.platform Unspending (S.addLoginDevice handle devicePubkey label m2) := by
  apply Acts.bind (Acts.addDevice _ _ _ _ trivial (fun _ => trivial) trivial)
  intro _
  exact Acts.bind (Acts.issueCert S _ _ _ trivial (fun _ => trivial)) (fun _ => Acts.pure _)

theorem acts_pairWith {inv : Option InvitationRow} :
    Acts S.platform Unspending (S.pairWith handle devicePubkey label m2 inv) := by
  rw [pairWith]
  split
  · exact throw _
  split
  · exact throw _
  · exact acts_addLoginDevice

theorem ends_issueCert {capabilities : List String}
    (h : devicePubkey.length = pubkeyLength) : Ends (spared env) (S.issueCert handle devicePubkey capabilities).run k s
      (.ok ⟨handle, devicePubkey, S.networkId, (env k).now, (env k).now + certTtlSeconds, capabilities⟩) (k + 1) s := by
  apply ends_atomic (a := .issued _)
  rw [if_neg (not_not.mpr h)]
  rfl

theorem ends_issueCert_wrong {capabilities : List String}
    (h : devicePubkey.length ≠ pubkeyLength) : Ends (spared env) (S.issueCert handle devicePubkey capabilities).run k s
      (.error (.value ("device_pubkey must be 32 bytes, got " ++ toString devicePubkey.length))) (k + 1) s := by
  apply ends_atomic (a := .nothing)
  rw [if_pos h]

theorem addLoginDevice_iff : Grants env (S.addLoginDevice handle devicePubkey label m2) k s r ↔
      r = .certificate ⟨handle, devicePubkey, S.networkId, (env (k + 2)).now, (env (k + 2)).now + certTtlSeconds, []⟩ m2 ∧
        (Write.upsertDevice devicePubkey handle label (env k).now).refused S.platform s.working = false ∧
          devicePubkey.length = pubkeyLength := by
  rw [addLoginDevice]
  cases hrefu : (upsertDevice devicePubkey handle label (env k).now).refused S.platform s.working with
  | true =>
    have hexe := ends_refused (w := fun t => .upsertDevice devicePubkey handle label t.now) hrefu
    refine iff_of_false ?_ (by rintro ⟨_, ⟨⟩, _⟩)
    exact not_grants_raises (x := addDevice S.platform devicePubkey handle label) hexe.raises
  | false =>
    have hexe := ends_execute (w := fun t => .upsertDevice devicePubkey handle label t.now) hrefu
    rw [grants_andThen (x := addDevice S.platform devicePubkey handle label) (hexe.andThen ends_commit)]
    by_cases hlen : devicePubkey.length = pubkeyLength
    · rw [grants_andThen (ends_issueCert hlen), grants_pure]
      exact ⟨fun h => ⟨h, rfl, hlen⟩, fun h => h.1⟩
    · exact iff_of_false (not_grants_raises (ends_issueCert_wrong hlen)) (fun h => hlen h.2.2)

theorem pairWith_iff : Grants env (S.pairWith handle devicePubkey label m2 (some invite)) k s r ↔
      (invite.role = .user ∨ invite.role = .device) ∧ (∀ bound, invite.boundTo = some bound → bound = handle) ∧
        Grants env (S.addLoginDevice handle devicePubkey label m2) k s r := by
  rw [pairWith, Option.filter_some]
  by_cases hrole : invite.role = .user ∨ invite.role = .device
  · rw [if_pos (by simpa using hrole)]
    dsimp only
    cases hbou : invite.bindToHandle.any (fun bound => bound != "" && bound != handle) with
    | true =>
      refine iff_of_false not_grants_throw (fun h => ?_)
      rw [bound_ok_iff.mpr h.2.1] at hbou
      cases hbou
    | false =>
      exact ⟨fun h => ⟨hrole, bound_ok_iff.mp hbou, h⟩, fun h => h.2.2⟩
  · rw [if_neg (by simpa using hrole)]
    exact iff_of_false not_grants_throw (fun h => hrole h.1)

/-- The rest of `login_finish`, from the lookup of the device on. -/
def Service.finishLogin (S : Service Session) (handle : String) (m2 devicePubkey : Bytes) (label inviteCode : Cbor) :
    Act Session Reply := do
  let existingDevice ← getDevice devicePubkey
  S.bindDevice existingDevice handle devicePubkey label inviteCode
  let cert ← S.issueCert handle devicePubkey []
  return .certificate cert m2

/-- Where `login_finish` gets an invitation to add device `k`, it is for a user or a device and bound to nobody else, and
nothing else stands against the new device. -/
def Service.PairingHonours (S : Service Session) (env : Nat → Turn) (db : Db) (handle : String) (k : Bytes)
    (label inviteCode : Cbor) : Prop :=
  db.devices.get? k = none → db.devices.values.any (fun d => d.userHandle = handle) →
    ∀ code, inviteCode = .text code → code ≠ "" → ∀ invite, redeemedAt S.platform env 3 code db = some invite →
      (invite.role = .user ∨ invite.role = .device) ∧ (∀ bound, invite.boundTo = some bound → bound = handle) ∧
      (Write.upsertDevice k handle label (env 7).now).refused S.platform (spentAt S.platform env 3 code db) = false ∧
      k.length = pubkeyLength

theorem pairWith_eq {code : String} (hcode : code ≠ "") :
    ((S.pairWithInvite true (.text code) handle >>= fun _ => addDevice S.platform devicePubkey handle label) >>=
      fun _ => do
        let cert ← S.issueCert handle devicePubkey []
        return Reply.certificate cert m2) =
      consumeInvitation S.platform code >>= S.pairWith handle devicePubkey label m2 := by
  rw [pairWithInvite, Bool.not_true, if_neg (by decide), if_neg (by simp [truthy, hcode]), bind_assoc,
    bind_assoc, redeem.eq_def]
  congr 1
  funext inv
  rw [pairWith]
  cases inv.filter (fun i => i.role = .user || i.role = .device) with
  | none => rfl
  | some inv =>
    dsimp only
    split
    · rfl
    · rfl

theorem finishLogin_accounts_iff {inviteCode : Cbor} :
    Accounts S env params db (S.finishLogin handle m2 devicePubkey label inviteCode) 1 (resting db logins) ↔
      S.PairingHonours env db handle devicePubkey label inviteCode := by
  have hiss : Acts S.platform Unspending (do
      let cert ← S.issueCert handle devicePubkey []
      return Reply.certificate cert m2) :=
    bind (issueCert S _ _ _ trivial (fun _ => trivial)) (fun _ => pure _)
  change Accounts S env params db (S.bindDevice (db.devices.get? devicePubkey) _ _ _ _ >>= _) 2 _ ↔ _
  cases hdev : db.devices.get? devicePubkey with
  | some device =>
    refine iff_of_true (accounts_of_acts (P := S.platform) (bind ?_ (fun _ => hiss))) ?_
    · rw [bindDevice.eq_def]
      dsimp only
      split
      · exact Acts.throw _
      apply Acts.catching (Acts.touchDevice _ _ trivial (fun _ => trivial) trivial)
      intro e
      split
      · exact pure _
      · exact throw _
    intro hnone
    rw [hdev] at hnone
    cases hnone
  | none =>
  change Accounts S env params db ((S.pairWithInvite (db.devices.values.any _) inviteCode handle >>= _) >>= _) 3 _ ↔ _
  cases hany : db.devices.values.any (fun d => d.userHandle = handle) with
  | false =>
    refine iff_of_true (accounts_of_acts (P := S.platform) (Acts.bind ?_ (fun _ => hiss))) ?_
    · exact Acts.bind (Acts.pure _) (fun _ => Acts.addDevice _ _ _ _ trivial (fun _ => trivial) trivial)
    intro _ hany'
    rw [hany] at hany'
    cases hany'
  | true =>
  cases inviteCode with
  | text code =>
    by_cases hcode : code = ""
    · rw [pairWithInvite, Bool.not_true, if_neg (by decide), if_pos (by simp [truthy, hcode])]
      refine iff_of_true (accounted_of_holds ⟨rfl, rfl⟩) ?_
      rintro _ _ _ ⟨⟩ hne
      exact absurd hcode hne
    rw [pairWith_eq hcode]
    refine (accounts_redeem_iff (C := fun invite => (invite.role = .user ∨ invite.role = .device) ∧
      (∀ bound, invite.boundTo = some bound → bound = handle) ∧
      (upsertDevice devicePubkey handle label (env 7).now).refused S.platform
        (spentAt S.platform env 3 code db) = false ∧ devicePubkey.length = pubkeyLength)
      (fun _ => acts_pairWith) ?_).trans ?_
    · intro invite _
      simp only [pairWith_iff, addLoginDevice_iff]
      constructor
      · rintro ⟨_, ⟨hrole, hbou, _, hrest⟩, _⟩
        exact ⟨hrole, hbou, hrest⟩
      · rintro ⟨hrole, hbou, hrest⟩
        exact ⟨_, ⟨hrole, hbou, rfl, hrest⟩, fun bound h => congrArg some (hbou bound h).symm⟩
    constructor
    · rintro h _ _ _ ⟨⟩ _
      exact h
    · exact fun h => h hdev hany code rfl hcode
  | _ =>
    refine iff_of_true ?_ (by rintro _ _ code ⟨⟩)
    rw [pairWithInvite, Bool.not_true, if_neg (by decide)]
    split
    · exact accounted_of_holds ⟨rfl, rfl⟩
    · exact accounted_of_holds ⟨rfl, rfl⟩

variable (S)

/-- The same of `login_finish`, where the client holds the device and proves the login. -/
def Service.LoginHonours (env : Nat → Turn) (db : Db) (logins : Dict String (LoginInProgress Session)) (params : Params)
    (peerNodeId : String) : Prop :=
  ∀ stateId, params.required "state_id" Cbor.asText = .ok stateId →
    ∀ ke3, params.required "ke3" Cbor.asBytes = .ok ke3 →
      ∀ devicePubkey, params.required "device_pubkey" Cbor.asBytes = .ok devicePubkey →
        S.checkPeer peerNodeId devicePubkey = .ok () → ∀ state, logins.get? stateId = some state →
          ∀ m2, S.pake.loginFinish state.session ke3 = .ok m2 →
            S.PairingHonours env db state.handle devicePubkey (params.get "label") (params.get "invite")

theorem loginFinish_accounts_iff (params : Params) (peerNodeId : String) :
    Accounts S env params db (S.loginFinish params peerNodeId) 0 (resting db logins) ↔
      S.LoginHonours env db logins params peerNodeId := by
  apply accounts_lift_iff
  intro stateId _
  apply accounts_lift_iff
  intro ke3 _
  apply accounts_lift_iff
  intro devicePubkey _
  refine (accounts_lift_iff (C := fun _ => ∀ state, logins.get? stateId = some state →
    ∀ m2, S.pake.loginFinish state.session ke3 = .ok m2 →
      S.PairingHonours env db state.handle devicePubkey (params.get "label") (params.get "invite")) ?_).trans
    ⟨fun h => h (), fun h _ => h⟩
  intro _ _
  cases hstate : logins.get? stateId with
  | none =>
    have htake : Ends (spared env) (S.takeLogin stateId ke3 devicePubkey).run 0 (resting db logins)
        (.error (.rpc "expired" "login state not found or expired")) 1 (resting db logins) := by
      apply ends_atomic (a := .nothing)
      rw [proveLogin, show (resting db logins).logins.get? stateId = none from hstate]
    refine iff_of_true ?_ (by rintro _ ⟨⟩)
    rw [Accounts, htake.raises.run]
    exact accounted_of_holds ⟨rfl, rfl⟩
  | some state =>
  cases hfin : S.pake.loginFinish state.session ke3 with
  | error e =>
    have htake : ∃ e', Ends (spared env) (S.takeLogin stateId ke3 devicePubkey).run 0 (resting db logins)
        (.error e') 1 (resting db (logins.erase stateId)) := by
      have hpro : ∃ e', S.proveLogin stateId ke3 devicePubkey (resting db logins) =
          (.error e', resting db (logins.erase stateId), .nothing) := by
        rw [proveLogin, show (resting db logins).logins.get? stateId = some state from hstate]
        dsimp only
        rw [hfin]
        cases e with
        | pake message => exact ⟨_, rfl⟩
        | _ => exact ⟨_, rfl⟩
      obtain ⟨e', he'⟩ := hpro
      exact ⟨e', ends_atomic he'⟩
    obtain ⟨e', htake⟩ := htake
    refine iff_of_true ?_ ?_
    · rw [Accounts, htake.raises.run]
      exact accounted_of_holds ⟨rfl, rfl⟩
    rintro _ ⟨⟩ m2 hm2
    rw [hfin] at hm2
    cases hm2
  | ok m2 =>
    have htake : Ends (spared env) (S.takeLogin stateId ke3 devicePubkey).run 0 (resting db logins)
        (.ok (state.handle, m2)) 1 (resting db (logins.erase stateId)) := by
      apply ends_atomic (a := .began state.handle devicePubkey)
      rw [proveLogin, show (resting db logins).logins.get? stateId = some state from hstate]
      dsimp only
      rw [hfin]
      rfl
    rw [accounts_andThen htake]
    refine finishLogin_accounts_iff.trans ⟨?_, fun h => h state rfl m2 hfin⟩
    rintro h _ ⟨⟩ m2' hm2'
    exact h

end LoginFinish

section Agents

theorem required_eq_ok_iff {name : String} {ty : Cbor → Option α} {a : α} :
    params.required name ty = .ok a ↔ (params.find? name).bind ty = some a := by
  rw [Params.required]
  cases params.find? name with
  | none => exact iff_of_false (by rintro ⟨⟩) (by rintro ⟨⟩)
  | some val =>
    rw [Option.bind_some]
    dsimp only
    cases ty val with
    | none => exact iff_of_false (by rintro ⟨⟩) (by rintro ⟨⟩)
    | some b => exact ⟨fun h => congrArg some (Except.ok.inj h), fun h => congrArg Except.ok (Option.some.inj h)⟩

def enlisted (P : Platform) (w : Write) (s : Coordinator Session) : Coordinator Session :=
  ⟨w.run P s.working, w.run P s.working, s.logins⟩

variable {nodeId owner : String}

theorem ends_registerAgent (h : (Write.upsertAgent handle nodeId owner label (env k).now).refused P s.working = false) :
    Ends (spared env) (registerAgent P handle nodeId owner label : Act Session Unit).run k s (.ok ()) (k + 2)
      (enlisted P (.upsertAgent handle nodeId owner label (env k).now) s) :=
  (ends_execute (w := fun t => .upsertAgent handle nodeId owner label t.now) h).andThen ends_commit

theorem ends_registerAgent_refused
    (h : (Write.upsertAgent handle nodeId owner label (env k).now).refused P s.working = true) :
    Ends (spared env) (registerAgent P handle nodeId owner label : Act Session Unit).run k s (.error (.sqlite false))
      (k + 1) s :=
  (ends_refused (w := fun t => .upsertAgent handle nodeId owner label t.now) h).raises

theorem grants_registerAgent_iff {f : Unit → Act Session Reply} :
    Grants env (registerAgent P handle nodeId owner label >>= f) k s r ↔
      (Write.upsertAgent handle nodeId owner label (env k).now).refused P s.working = false ∧
        Grants env (f ()) (k + 2) (enlisted P (.upsertAgent handle nodeId owner label (env k).now) s) r := by
  cases hrefu : (upsertAgent handle nodeId owner label (env k).now).refused P s.working with
  | true => exact iff_of_false (not_grants_raises (ends_registerAgent_refused hrefu)) (by rintro ⟨⟨⟩, _⟩)
  | false =>
    rw [grants_andThen (ends_registerAgent hrefu)]
    exact ⟨fun h => ⟨rfl, h⟩, fun h => h.2⟩

theorem served_enlisted {now : Time} (hhan : params.required "handle" Cbor.asText = .ok handle)
    (hr : r = .done ∨ ∃ cert networkId name, r = .agentCertificate cert networkId name) :
    S.served params r (enlisted P (.upsertAgent (S.normalizeHandle handle) nodeId owner label now) s).working = some owner := by
  have hage : ((params.find? "handle").bind asText).bind (fun handle =>
      ((enlisted P (.upsertAgent (S.normalizeHandle handle) nodeId owner label now) s).working.agents.get?
        (S.normalizeHandle handle)).map (·.ownerHandle)) = some owner := by
    rw [required_eq_ok_iff.mp hhan, Option.bind_some]
    dsimp only [enlisted, Write.run]
    rw [Dict.get?_set, if_pos rfl]
    split
    · rfl
    · rfl
  rw [required_eq_ok_iff.mp hhan] at hage
  rcases hr with rfl | ⟨cert, networkId, name, rfl⟩
  · rw [served, required_eq_ok_iff.mp hhan]
    exact hage
  · rw [served, required_eq_ok_iff.mp hhan]
    exact hage

theorem ownerOf_bound (h : invite.boundTo = some handle) : Service.ownerOf invite = handle := by
  rw [InvitationRow.boundTo] at h
  rw [ownerOf, h]
  rfl

/-- What `add_agent` does for the owner. -/
def Service.enlist (params : Params) (ownerHandle : String) : Act Session Reply := do
  let handle := S.normalizeHandle (← Service.lift (params.required "handle" Cbor.asText))
  let nodeId ← Service.lift (params.required "node_id" Cbor.asText)
  registerAgent S.platform handle nodeId ownerHandle (params.get "label")
  return .done

def Service.enlistWith (params : Params) (inv : Option InvitationRow) : Act Session Reply :=
  match inv.filter (fun i => i.role = .agent) with
  | none => throw (.rpc "invalid_invite" "agent invite missing/expired/wrong-role")
  | some inv => S.enlist params (Service.ownerOf inv)

variable {S}

theorem ends_enlist (owner : String) (hhan : params.required "handle" Cbor.asText = .ok handle)
    (hnode : params.required "node_id" Cbor.asText = .ok nodeId)
    (h : (Write.upsertAgent (S.normalizeHandle handle) nodeId owner (params.get "label") (env k).now).refused S.platform
      s.working = false) : Ends (spared env) (S.enlist params owner).run k s (.ok .done) (k + 2)
        (enlisted S.platform (.upsertAgent (S.normalizeHandle handle) nodeId owner (params.get "label") (env k).now) s) := by
  rw [enlist, hhan, hnode]
  apply Ends.andThen (x := lift (.ok handle)) Ends.done
  apply Ends.andThen (x := lift (.ok nodeId)) Ends.done
  exact (ends_registerAgent h).andThen Ends.done

theorem ends_enlist_refused (owner : String) (hhan : params.required "handle" Cbor.asText = .ok handle)
    (hnode : params.required "node_id" Cbor.asText = .ok nodeId)
    (h : (Write.upsertAgent (S.normalizeHandle handle) nodeId owner (params.get "label") (env k).now).refused S.platform
      s.working = true) : Ends (spared env) (S.enlist params owner).run k s (.error (.sqlite false)) (k + 1) s := by
  rw [enlist, hhan, hnode]
  apply Ends.andThen (x := lift (.ok handle)) Ends.done
  apply Ends.andThen (x := lift (.ok nodeId)) Ends.done
  exact (ends_registerAgent_refused h).raises

theorem enlist_iff : Grants env (S.enlist params owner) k s r ↔
    r = .done ∧ ∃ handle, params.required "handle" Cbor.asText = .ok handle ∧
      ∃ nodeId, params.required "node_id" Cbor.asText = .ok nodeId ∧
        (Write.upsertAgent (S.normalizeHandle handle) nodeId owner (params.get "label") (env k).now).refused S.platform
          s.working = false := by
  rw [enlist]
  simp only [grants_lift_iff, grants_registerAgent_iff, grants_pure]
  constructor
  · rintro ⟨handle, hhan, nodeId, hnode, h, hr⟩
    exact ⟨hr, handle, hhan, nodeId, hnode, h⟩
  · rintro ⟨hr, handle, hhan, nodeId, hnode, h⟩
    exact ⟨handle, hhan, nodeId, hnode, h, hr⟩

theorem acts_enlist : Acts S.platform Unspending (S.enlist params owner) := by
  apply Acts.bind (Acts.lift _)
  intro handle
  apply Acts.bind (Acts.lift _)
  intro nodeId
  apply Acts.bind (Acts.registerAgent _ _ _ _ _ trivial (fun _ => trivial) trivial)
  exact fun _ => Acts.pure _

theorem acts_enlistWith {inv : Option InvitationRow} : Acts S.platform Unspending (S.enlistWith params inv) := by
  rw [enlistWith]
  split
  · exact throw _
  · exact acts_enlist

variable (S)

/-- Where `add_agent` gets an invitation, the invitation is for an agent, the request names the agent, and nothing
else stands against it. -/
def Service.AddAgentHonours (env : Nat → Turn) (db : Db) (params : Params) : Prop :=
  (params.get "cert").truthy = false → ∀ code, params.get "invite" = .text code → code ≠ "" →
    ∀ invite, redeemedAt S.platform env 0 code db = some invite → invite.role = .agent ∧
      ∃ handle, params.required "handle" Cbor.asText = .ok handle ∧
        ∃ nodeId, params.required "node_id" Cbor.asText = .ok nodeId ∧
          (Write.upsertAgent (S.normalizeHandle handle) nodeId (Service.ownerOf invite) (params.get "label")
            (env 4).now).refused S.platform (spentAt S.platform env 0 code db) = false

theorem enlistWith_eq {cert : Cbor} {code : String} (hcert : cert.truthy = false) (hcode : code ≠ "") :
    S.addAgentOwner cert (.text code) >>= S.enlist params =
      consumeInvitation S.platform code >>= S.enlistWith params := by
  rw [addAgentOwner, if_neg (by rw [hcert]; decide), if_pos (by simp [truthy, hcode]), bind_assoc,
    redeem.eq_def]
  congr 1
  funext inv
  rw [enlistWith]
  cases inv.filter (fun i => i.role = .agent) with
  | none => rfl
  | some inv => rfl

theorem enlistWith_agent (invite : InvitationRow) (h : invite.role = .agent) :
    S.enlistWith params (some invite) = S.enlist params (Service.ownerOf invite) := by
  rw [enlistWith, Option.filter_some, if_pos (decide_eq_true h)]

theorem enlistWith_iff : Grants env (S.enlistWith params (some invite)) k s r ↔
    invite.role = .agent ∧ Grants env (S.enlist params (Service.ownerOf invite)) k s r := by
  by_cases hrole : invite.role = .agent
  · rw [enlistWith_agent S invite hrole]
    exact ⟨fun h => ⟨hrole, h⟩, fun h => h.2⟩
  · rw [enlistWith, Option.filter_some, if_neg (by simpa using hrole)]
    exact iff_of_false not_grants_throw (fun h => hrole h.1)

theorem addAgent_accounts_iff (params : Params) : Accounts S env params db (S.addAgent params) 0 (resting db logins) ↔
    S.AddAgentHonours env db params := by
  change Accounts S env params db (S.addAgentOwner (params.get "cert") (params.get "invite") >>= S.enlist params) _ _ ↔ _
  by_cases hcert : (params.get "cert").truthy
  · rw [addAgentOwner, if_pos hcert]
    refine iff_of_true (accounts_of_acts (P := S.platform) ?_) (fun h => absurd hcert (by rw [h]; decide))
    apply bind _ (fun _ => acts_enlist)
    exact bind (verifyAdminCert S _ trivial) (fun _ => pure _)
  cases hinv : params.get "invite" with
  | text code =>
    by_cases hcode : code = ""
    · rw [addAgentOwner, if_neg hcert, if_neg (by simp [truthy, hcode])]
      refine iff_of_true (accounted_of_holds ⟨rfl, rfl⟩) ?_
      rw [AddAgentHonours, hinv]
      rintro _ _ ⟨⟩ hne
      exact absurd hcode hne
    rw [enlistWith_eq S (by simpa using hcert) hcode]
    refine (accounts_redeem_iff (C := fun invite => invite.role = .agent ∧
      ∃ handle, params.required "handle" asText = .ok handle ∧
        ∃ nodeId, params.required "node_id" asText = .ok nodeId ∧
          (upsertAgent (S.normalizeHandle handle) nodeId (ownerOf invite) (params.get "label")
            (env 4).now).refused S.platform (spentAt S.platform env 0 code db) = false)
      (fun _ => acts_enlistWith) ?_).trans ?_
    · intro invite _
      simp only [enlistWith_iff, enlist_iff]
      constructor
      · rintro ⟨_, ⟨hrole, _, hrest⟩, _⟩
        exact ⟨hrole, hrest⟩
      rintro ⟨hrole, handle, hhan, nodeId, hnode, h⟩
      refine ⟨_, ⟨hrole, rfl, handle, hhan, nodeId, hnode, h⟩, fun bound hbou => ?_⟩
      rw [enlistWith_agent S (takenAt env 0 invite) hrole]
      change S.served params _ ((S.enlist params (ownerOf invite)).run.run _ _ _).2.working = _
      rw [(ends_enlist _ hhan hnode h).run, served_enlisted S hhan (.inl rfl), ownerOf_bound hbou]
    rw [AddAgentHonours, hinv]
    constructor
    · rintro h _ _ ⟨⟩ _
      exact h
    · exact fun h => h (by simpa using hcert) code rfl hcode
  | _ =>
    refine iff_of_true ?_ (by rw [AddAgentHonours, hinv]; rintro _ code ⟨⟩)
    rw [addAgentOwner, if_neg hcert]
    split
    · exact accounted_of_holds ⟨rfl, rfl⟩
    · exact accounted_of_holds ⟨rfl, rfl⟩

/-- What `agent_login` does for the owner. -/
def Service.enrolAgent (handle nodeId ownerHandle : String) (label : Cbor) : Act Session Reply := do
  registerAgent S.platform handle nodeId ownerHandle label
  match S.publicKey nodeId with
  | none => throw .crashed
  | some devicePubkey => do
    let cert ← S.issueCert handle devicePubkey ["agent"]
    return .agentCertificate cert S.networkId S.networkName

def Service.enrolAgentWith (handle nodeId : String) (label : Cbor) (inv : Option InvitationRow) : Act Session Reply :=
  match inv.filter (fun i => i.role = .agent) with
  | none => throw (.rpc "invalid_invite" "agent invite missing/expired/wrong-role")
  | some inv => S.enrolAgent handle nodeId (Service.ownerOf inv) label

/-- The same of `agent_login`, where the peer is the node that it names; the agent's key has to be a device key. -/
def Service.AgentLoginHonours (env : Nat → Turn) (db : Db) (params : Params) (peerNodeId : String) : Prop :=
  ∀ code, params.required "invite" Cbor.asText = .ok code →
    ∀ handle, params.required "handle" Cbor.asText = .ok handle →
      ∀ nodeId, params.required "node_id" Cbor.asText = .ok nodeId →
        S.platform.lower peerNodeId = S.platform.lower nodeId →
          ∀ invite, redeemedAt S.platform env 0 code db = some invite → invite.role = .agent ∧
            (Write.upsertAgent (S.normalizeHandle handle) nodeId (Service.ownerOf invite) (params.get "label")
              (env 4).now).refused S.platform (spentAt S.platform env 0 code db) = false ∧
            ∃ devicePubkey, S.publicKey nodeId = some devicePubkey ∧ devicePubkey.length = pubkeyLength

variable {S}

theorem acts_enrolAgentWith {inv : Option InvitationRow} :
    Acts S.platform Unspending (S.enrolAgentWith handle nodeId label inv) := by
  rw [enrolAgentWith]
  split
  · exact Acts.throw _
  apply Acts.bind (Acts.registerAgent _ _ _ _ _ trivial (fun _ => trivial) trivial)
  intro _
  split
  · exact Acts.throw _
  · exact Acts.bind (Acts.issueCert S _ _ _ trivial (fun _ => trivial)) (fun _ => Acts.pure _)

theorem ends_enrolAgent (owner : String) (label : Cbor)
    (h : (Write.upsertAgent handle nodeId owner label (env k).now).refused S.platform s.working = false)
    (hkey : S.publicKey nodeId = some devicePubkey) (hlen : devicePubkey.length = pubkeyLength) : ∃ cert,
      Ends (spared env) (S.enrolAgent handle nodeId owner label).run k s
        (.ok (.agentCertificate cert S.networkId S.networkName)) (k + 3)
        (enlisted S.platform (.upsertAgent handle nodeId owner label (env k).now) s) := by
  refine ⟨⟨handle, devicePubkey, S.networkId, (env (k + 2)).now, (env (k + 2)).now + certTtlSeconds, ["agent"]⟩, ?_⟩
  apply (ends_registerAgent h).andThen
  rw [hkey]
  exact (ends_issueCert hlen).andThen Ends.done

theorem enrolAgent_iff : (∃ r, Grants env (S.enrolAgent handle nodeId owner label) k s r) ↔
      (Write.upsertAgent handle nodeId owner label (env k).now).refused S.platform s.working = false ∧
        ∃ devicePubkey, S.publicKey nodeId = some devicePubkey ∧ devicePubkey.length = pubkeyLength := by
  constructor
  · rintro ⟨r, h⟩
    rw [enrolAgent, grants_registerAgent_iff] at h
    obtain ⟨hrefu, h⟩ := h
    cases hkey : S.publicKey nodeId with
    | none =>
      rw [hkey] at h
      exact absurd h not_grants_throw
    | some devicePubkey =>
      rw [hkey] at h
      refine ⟨hrefu, devicePubkey, rfl, ?_⟩
      by_contra hlen
      exact not_grants_raises (ends_issueCert_wrong hlen) h
  rintro ⟨h, devicePubkey, hkey, hlen⟩
  obtain ⟨cert, hends⟩ := ends_enrolAgent owner label h hkey hlen
  exact ⟨.agentCertificate cert S.networkId S.networkName, by rw [Grants, hends.run]; rfl⟩

variable (S)

theorem agentLogin_accounts_iff (params : Params) (peerNodeId : String) :
    Accounts S env params db (S.agentLogin params peerNodeId) 0 (resting db logins) ↔
      S.AgentLoginHonours env db params peerNodeId := by
  apply accounts_lift_iff
  intro code _
  apply accounts_lift_iff
  intro handle hhan
  apply accounts_lift_iff
  intro nodeId _
  by_cases hpeer : S.platform.lower peerNodeId = S.platform.lower nodeId
  swap
  · rw [if_pos hpeer]
    exact iff_of_true (accounted_of_holds ⟨rfl, rfl⟩) (fun h => absurd h hpeer)
  rw [if_neg (not_not.mpr hpeer)]
  refine (accounts_redeem_iff (f := S.enrolAgentWith (S.normalizeHandle handle) nodeId (params.get "label"))
    (C := fun invite => invite.role = .agent ∧
      (upsertAgent (S.normalizeHandle handle) nodeId (ownerOf invite) (params.get "label")
        (env 4).now).refused S.platform (spentAt S.platform env 0 code db) = false ∧
      ∃ devicePubkey, S.publicKey nodeId = some devicePubkey ∧ devicePubkey.length = pubkeyLength)
    (fun _ => acts_enrolAgentWith) ?_).trans ⟨fun h _ => h, fun h => h hpeer⟩
  intro invite _
  by_cases hrole : invite.role = .agent
  swap
  · have hrole' : ¬ (takenAt env 0 invite).role = .agent := hrole
    rw [enrolAgentWith, Option.filter_some, if_neg (by simpa using hrole')]
    exact iff_of_false (by rintro ⟨_, h, _⟩; exact not_grants_throw h) (fun h => hrole h.1)
  have hwith : S.enrolAgentWith (S.normalizeHandle handle) nodeId (params.get "label") (some (takenAt env 0 invite)) =
      S.enrolAgent (S.normalizeHandle handle) nodeId (ownerOf invite) (params.get "label") := by
    rw [enrolAgentWith, Option.filter_some, if_pos (decide_eq_true (show (takenAt env 0 invite).role = .agent from hrole))]
    rfl
  rw [hwith]
  constructor
  · rintro ⟨r, h, _⟩
    exact ⟨hrole, enrolAgent_iff.mp ⟨r, h⟩⟩
  rintro ⟨_, h, devicePubkey, hkey, hlen⟩
  obtain ⟨cert, hends⟩ := ends_enrolAgent (ownerOf invite) (params.get "label") (k := 4)
    (s := resting (spentAt S.platform env 0 code db) logins) h hkey hlen
  refine ⟨.agentCertificate cert S.networkId S.networkName, by rw [Grants, hends.run]; rfl, fun bound hbou => ?_⟩
  rw [hends.run, served_enlisted S hhan (.inr ⟨_, _, _, rfl⟩), ownerOf_bound hbou]

end Agents

section Requests

def Service.Honours (env : Nat → Turn) (db : Db) (logins : Dict String (LoginInProgress Session)) (request : Request) :
    Prop :=
  match request.method with
  | .register => S.RegisterHonours env db request.entries
  | .loginFinish => S.LoginHonours env db logins request.entries request.peerNodeId
  | .addAgent => S.AddAgentHonours env db request.entries
  | .agentLogin => S.AgentLoginHonours env db request.entries request.peerNodeId
  | .loginInit | .revokeDevice => True

def granted : Except Exn Response → Option Reply
  | .ok (.result reply) => some reply
  | _ => none

theorem handler_accounts_iff (request : Request) :
    Accounts S env request.entries db (S.handler request.method request.entries request.peerNodeId) 0 (resting db logins) ↔
      S.Honours env db logins request := by
  obtain ⟨method, params, peerNodeId⟩ := request
  cases method with
  | register => exact register_accounts_iff S _
  | loginInit => exact iff_of_true (accounts_of_acts (loginInit S _ trivial)) trivial
  | loginFinish => exact loginFinish_accounts_iff S _ _
  | addAgent => exact addAgent_accounts_iff S _
  | agentLogin => exact agentLogin_accounts_iff S _ _
  | revokeDevice =>
    exact iff_of_true (accounts_of_acts (revokeDeviceRpc S _ trivial (fun _ => trivial) trivial)) trivial

theorem honours_nil (request : Request) (h : request.entries = []) : S.Honours env db logins request := by
  obtain ⟨method, params, peerNodeId⟩ := request
  rw [Honours]
  rw [h]
  cases method with
  | register | loginFinish | agentLogin => rintro _ ⟨⟩
  | addAgent => rintro _ _ ⟨⟩
  | _ => trivial

theorem dispatch_accounts_iff (request : Request) :
    Accounts S env request.entries db (S.dispatch request) 0 (resting db logins) ↔ S.Honours env db logins request := by
  rw [← handler_accounts_iff S request, dispatch]
  split
  · have hnil : request.entries = [] := by
      rw [Request.entries]
      cases hp : request.params with
      | map entries => simp_all [truthy]
      | _ => rfl
    rw [hnil]
  split
  · have hent : request.entries = ‹List (Cbor × Cbor)› := by
      rw [Request.entries, ‹request.params = _›]
    rw [hent]
  have hnil : request.entries = [] := by
    rw [Request.entries]
    cases hp : request.params with
    | map entries => simp_all
    | _ => rfl
  exact iff_of_true (accounted_of_holds ⟨rfl, rfl⟩) ((handler_accounts_iff S request).mpr (honours_nil S request hnil))

theorem ends_answered {k : Nat} {s : Coordinator Session} (response : Response) : Ends (spared env) (do
      let _ ← mark (.answered (Service.Response.ok response))
      return response : Act Session Response).run k s (.ok response) (k + 1) s :=
  (ends_atomic rfl).andThen Ends.done

/-- The answer to a request grants it where the handler did, and leaves the state as the handler did. -/
theorem handleOneRpc_run (env : Nat → Turn) (request : Request) (s : Coordinator Session) :
    granted ((S.handleOneRpc request).run.run (spared env) 0 s).1 =
        ((S.dispatch request).run.run (spared env) 0 s).1.toOption ∧
      ((S.handleOneRpc request).run.run (spared env) 0 s).2 = ((S.dispatch request).run.run (spared env) 0 s).2 := by
  rcases h : (S.dispatch request).run.run (spared env) 0 s with ⟨r, t⟩
  have hends : Ends (spared env) (S.dispatch request).run 0 s r _ t := ⟨h, rfl⟩
  have hans : ∀ {r' : Except Exn Response} {l : Nat} {t' : Coordinator Session},
      Ends (spared env) (S.handleOneRpc request).run 0 s r' l t' → granted r' = r.toOption → t' = t →
      granted ((S.handleOneRpc request).run.run (spared env) 0 s).1 = r.toOption ∧
        ((S.handleOneRpc request).run.run (spared env) 0 s).2 = t := by
    rintro r' l t' hends' hr rfl
    rw [hends'.run]
    exact ⟨hr, rfl⟩
  cases r with
  | ok reply => exact hans ((hends.andThen Ends.done).tried.andThen (ends_answered (.result reply))) rfl rfl
  | error e =>
    cases e with
    | rpc code message =>
      exact hans ((hends.raises.caught Ends.done).andThen (ends_answered (.error code message))) rfl rfl
    | pake message | value message =>
      exact hans ((hends.raises.caught Ends.done).andThen (ends_answered (.error "bad_request" message))) rfl rfl
    | sqlite _ | crashed => exact hans ((hends.raises.caught Ends.done).andThen (ends_answered .internal)) rfl rfl
    | cancelled => exact hans (hends.raises.caught (f := failure) Ends.done).raises rfl rfl

/-- Run without interference from any state at rest, a request accounts for the invitations exactly when it meets
what the invitation that it gets demands. -/
theorem redemption_accounted_iff (request : Request) :
    Accounted S request.entries db (granted ((S.handleOneRpc request).run.run (spared env) 0 (resting db logins)).1)
      ((S.handleOneRpc request).run.run (spared env) 0 (resting db logins)).2 ↔ S.Honours env db logins request := by
  obtain ⟨hgra, hstate⟩ := handleOneRpc_run S env request (resting db logins)
  rw [hgra, hstate]
  exact dispatch_accounts_iff S request

def registering : Request :=
  ⟨.register, .map [(.text "invite", .text "abcd"), (.text "handle", .text "fox"), (.text "pake_record", .bytes [])], "peer"⟩

theorem rejected_registration_spends_ticket : ¬ Accounted Service.sample registering.entries oneTicket
      (granted ((Service.sample.handleOneRpc registering).run.run (spared (fun _ => { now := 1 })) 0
        (resting oneTicket Dict.empty)).1)
      ((Service.sample.handleOneRpc registering).run.run (spared (fun _ => { now := 1 })) 0
        (resting oneTicket Dict.empty)).2 := by
  intro h
  obtain ⟨hsame, _⟩ := h.rejected rfl
  have huses : usesLeft "abcd" ((sample.handleOneRpc registering).run.run (spared (fun _ => { now := 1 })) 0
      (resting oneTicket Dict.empty)).2.working = some 0 := by decide
  rw [usesLeft, hsame] at huses
  exact absurd huses (by decide)

end Requests

end OpenAgent.Identity
