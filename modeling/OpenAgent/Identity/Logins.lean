import OpenAgent.Identity.Effects

namespace OpenAgent.Identity

open Py List Option Acts Coro

variable {Session α β : Type}

inductive Operation where
  | loginInit (params : Cbor) (peerNodeId : String)
  | loginFinish (params : Cbor) (peerNodeId : String)
  | revokeDevice (params : Cbor) (peerNodeId : String)
  | setUserStatus (handle status : String)
  | deleteUser (handle : String)

def Service.perform (S : Service Session) : Operation → Act Session Unit
  | .loginInit params peerNodeId => do let _ ← S.handleOneRpc ⟨.loginInit, params, peerNodeId⟩
  | .loginFinish params peerNodeId => do let _ ← S.handleOneRpc ⟨.loginFinish, params, peerNodeId⟩
  | .revokeDevice params peerNodeId => do let _ ← S.handleOneRpc ⟨.revokeDevice, params, peerNodeId⟩
  | .setUserStatus handle status => do let _ ← Identity.setUserStatus S.platform handle status
  | .deleteUser handle => do let _ ← Identity.deleteUser S.platform handle

def Service.administering (S : Service Session) (operations : Coro.TaskId → Operation) (c : Coordinator Session) :
    Coro.Pool Turn (Coordinator Session) Event (Except Exn Unit) where
  now := ⟨c, []⟩
  coro := fun i => (S.perform (operations i)).run

abbrev Log (Session : Type) := List (Coro.Entry (Coordinator Session) Event)

def ActiveUser (roster : Db) (handle : String) : Prop :=
  ∃ user, roster.users.get? handle = some user ∧ user.status = .active

def BoundTo (roster : Db) (handle : String) (devicePubkey : Bytes) : Prop :=
  ∃ row, roster.devices.get? devicePubkey = some row ∧ row.userHandle = handle

def Enrolled (roster : Db) (handle : String) (devicePubkey : Bytes) : Prop :=
  ∃ row, roster.devices.get? devicePubkey = some row ∧ row.status = .active ∧ row.userHandle = handle

def HasOther (roster : Db) (handle : String) (devicePubkey : Bytes) : Prop :=
  ∃ k row, k ≠ devicePubkey ∧ roster.devices.get? k = some row ∧ row.userHandle = handle

instance {roster : Db} {handle : String} : Decidable (ActiveUser roster handle) :=
  inferInstanceAs (Decidable (∃ user ∈ roster.users.get? handle, user.status = .active))

instance {roster : Db} {handle : String} {devicePubkey : Bytes} : Decidable (BoundTo roster handle devicePubkey) :=
  inferInstanceAs (Decidable (∃ row ∈ roster.devices.get? devicePubkey, row.userHandle = handle))

theorem hasOther_iff {roster : Db} {handle : String} {devicePubkey : Bytes} : HasOther roster handle devicePubkey ↔
    ∃ e ∈ roster.devices.entries, e.1 ≠ devicePubkey ∧ e.2.userHandle = handle := by
  constructor
  · rintro ⟨k, row, hk, hrow, huser⟩
    exact ⟨(k, row), (Dict.get?_eq_some_iff _ _ _).mp hrow, hk, huser⟩
  · rintro ⟨⟨k, row⟩, hrow, hk, huser⟩
    exact ⟨k, row, hk, (Dict.get?_eq_some_iff _ _ _).mpr hrow, huser⟩

instance {roster : Db} {handle : String} {devicePubkey : Bytes} : Decidable (HasOther roster handle devicePubkey) :=
  decidable_of_iff _ hasOther_iff.symm

def PairedWith (log : Log Session) (i : Coro.TaskId) (handle : String) : Prop :=
  ∃ x ∈ log, x.task = i ∧ ∃ code invite, x.event.action = .redeemed code invite ∧
    (invite.role = .user ∨ invite.role = .device) ∧ ∀ bound, invite.bindToHandle = some bound → bound ≠ "" → bound = handle

/-- What a certificate stands for, when task `i` issues it after the turns of the log. -/
structure Certified (log : Log Session) (i : Coro.TaskId) (roster : Db) (cert : DeviceCert) : Prop where
  enrolled : Enrolled roster cert.handle cert.devicePubkey
  login : ∃ b ∈ log, b.task = i ∧ b.event.action = .began cert.handle cert.devicePubkey ∧
    ActiveUser b.before.working cert.handle ∧
    (HasOther b.before.working cert.handle cert.devicePubkey →
      BoundTo b.before.working cert.handle cert.devicePubkey ∨ PairedWith log i cert.handle)

def AllCertified (log : Log Session) : Prop :=
  ∀ pre x post cert, log = pre ++ x :: post → x.event.action = .issued cert → Certified pre x.task x.before.working cert

/-- A login under way: `holding` once its device was found active or was added, until the certificate. -/
structure Login where
  handle : String
  devicePubkey : Bytes
  roster : Db
  holding : Bool

namespace Login

def next (l : Option Login) (x : Coro.Entry (Coordinator Session) Event) : Option Login :=
  match x.event.raised, x.event.action with
  | some .cancelled, _ => none
  | _, .began handle devicePubkey => some ⟨handle, devicePubkey, x.before.working, false⟩
  | _, .readDevice _ (some row) => if row.status = .active then l.map (fun l => { l with holding := true }) else l
  | _, .wrote (.upsertDevice _ _ _ _) => l.map (fun l => { l with holding := true })
  | _, .issued _ | _, .answered _ => none
  | _, _ => l

end Login

/-- The login of task `i`. -/
def loginOf (i : Coro.TaskId) (log : Log Session) : Option Login :=
  log.foldl (fun l x => if x.task = i then Login.next l x else l) none

def SparesLogin (P : Platform) (l : Login) : Write → Prop
  | .revokeDevice devicePubkey => l.devicePubkey ≠ devicePubkey
  | .deleteDevices handle => l.handle ≠ handle
  | .deleteUser handle => P.cascades = true → l.handle ≠ handle
  | .upsertDevice devicePubkey userHandle _ _ => l.devicePubkey = devicePubkey → l.handle = userHandle
  | _ => True

/-- Where a login begins the account is active; a row found active is the user's, and was before if the user had another
device; where it finds no device there was none; and no other task takes the device from a login that holds it. -/
def Heeded (P : Platform) (m : Coro.Moment (Coordinator Session) Event) (i : Coro.TaskId) (e : Event) : Prop :=
  match e.action with
  | .began handle _ => ActiveUser m.shared.working handle
  | .readDevice devicePubkey (some row) => row.status = .active → ∀ l ∈ loginOf i m.trace,
      row.userHandle = l.handle ∧ (HasOther l.roster l.handle devicePubkey → BoundTo l.roster l.handle devicePubkey)
  | .readUserDevices _ false => ∀ l ∈ loginOf i m.trace, ¬ HasOther l.roster l.handle l.devicePubkey
  | .wrote w => ∀ j, j ≠ i → ∀ l ∈ loginOf j m.trace, l.holding = true → SparesLogin P l w
  | _ => True

instance {P : Platform} {l : Login} {w : Write} : Decidable (SparesLogin P l w) :=
  match w with
  | .revokeDevice devicePubkey => inferInstanceAs (Decidable (l.devicePubkey ≠ devicePubkey))
  | .deleteDevices handle => inferInstanceAs (Decidable (l.handle ≠ handle))
  | .deleteUser handle => inferInstanceAs (Decidable (P.cascades = true → l.handle ≠ handle))
  | .upsertDevice devicePubkey userHandle _ _ =>
    inferInstanceAs (Decidable (l.devicePubkey = devicePubkey → l.handle = userHandle))
  | .insertUser _ | .claimAgent _ | .setUserStatus _ _ | .touchDevice _ _ | .upsertAgent _ _ _ _ _
  | .spendInvitation _ _ => .isTrue trivial

variable {log : Log Session}

theorem mem_of_loginOf {j : Coro.TaskId} {l : Login} (h : loginOf j log = some l) : ∃ x ∈ log, x.task = j := by
  induction log using List.reverseRecOn with
  | nil => cases h
  | append_singleton log x ih =>
    by_cases hx : x.task = j
    · exact ⟨x, mem_append_right _ (mem_singleton_self x), hx⟩
    rw [loginOf, foldl_append] at h
    obtain ⟨y, hy, hj⟩ := ih ((if_neg hx).symm.trans h)
    exact ⟨y, mem_append_left _ hy, hj⟩

instance (P : Platform) (m : Coro.Moment (Coordinator Session) Event) (i : Coro.TaskId) (e : Event) :
    Decidable (Heeded P m i e) :=
  match e with
  | ⟨.began handle _, _⟩ => inferInstanceAs (Decidable (ActiveUser m.shared.working handle))
  | ⟨.readDevice devicePubkey (some row), _⟩ =>
    inferInstanceAs (Decidable (row.status = .active → ∀ l ∈ loginOf i m.trace, row.userHandle = l.handle ∧
        (HasOther l.roster l.handle devicePubkey → BoundTo l.roster l.handle devicePubkey)))
  | ⟨.readUserDevices _ false, _⟩ =>
    inferInstanceAs (Decidable (∀ l ∈ loginOf i m.trace, ¬ HasOther l.roster l.handle l.devicePubkey))
  | ⟨.wrote w, _⟩ =>
    decidable_of_iff (∀ x ∈ m.trace, x.task ≠ i → ∀ l ∈ loginOf x.task m.trace,
      l.holding = true → SparesLogin P l w) (by
        constructor
        · intro h j hj l hl
          obtain ⟨x, hx, rfl⟩ := mem_of_loginOf hl
          exact h x hx hj l hl
        · exact fun h x _ hx => h x.task hx)
  | ⟨.nothing, _⟩ | ⟨.readInvitation _ _, _⟩ | ⟨.readDevice _ none, _⟩ | ⟨.readUserDevices _ true, _⟩
  | ⟨.committed, _⟩ | ⟨.rolledBack, _⟩ | ⟨.redeemed _ _, _⟩ | ⟨.issued _, _⟩ | ⟨.answered _, _⟩ => .isTrue trivial

variable {P : Platform} {m n : Coro.Moment (Coordinator Session) Event} {i j : Coro.TaskId}
  {r : Coordinator Session × Event} {l : Login} {db : Db}

section Steps

theorem loginOf_after : loginOf j (m.after i r).trace =
    if i = j then Login.next (loginOf j m.trace) ⟨i, m.shared, r.2⟩ else loginOf j m.trace := by
  rw [loginOf, Moment.after, foldl_append]
  rfl

theorem prefix_after : m.trace <+: (m.after i r).trace := prefix_append _ _

theorem mem_after : (⟨i, m.shared, r.2⟩ : Coro.Entry _ _) ∈ (m.after i r).trace :=
  mem_append_right _ (mem_singleton_self _)

theorem Enrolled.run {w : Write} (h : Enrolled db l.handle l.devicePubkey) (hs : SparesLogin P l w) :
    Enrolled (w.run P db) l.handle l.devicePubkey := by
  obtain ⟨row, hrow, hact, huser⟩ := h
  have hfil : ∀ handle, l.handle ≠ handle →
      ∃ row, (db.devices.filter (fun _ d => d.userHandle != handle)).get? l.devicePubkey = some row ∧
        row.status = .active ∧ row.userHandle = l.handle := by
    intro handle hne
    refine ⟨row, ?_, hact, huser⟩
    rw [Dict.get?_filter, hrow, filter_some, if_pos]
    rw [huser]
    exact bne_iff_ne.mpr hne
  cases w with
  | deleteDevices handle => exact hfil handle hs
  | deleteUser handle =>
    rw [Write.run.eq_def]
    dsimp only
    cases hc : P.cascades with
    | true => exact hfil handle (hs hc)
    | false => exact ⟨row, hrow, hact, huser⟩
  | upsertDevice devicePubkey userHandle label now =>
    rw [Write.run.eq_def, Enrolled]
    dsimp only
    rw [Dict.get?_set]
    by_cases hk : l.devicePubkey = devicePubkey
    · rw [if_pos hk, ← hk, hrow]
      exact ⟨_, rfl, rfl, (hs hk).symm⟩
    · rw [if_neg hk]
      exact ⟨row, hrow, hact, huser⟩
  | revokeDevice devicePubkey =>
    rw [Write.run.eq_def, Enrolled]
    dsimp only
    rw [Dict.get?_mapEntries, hrow]
    refine ⟨row, ?_, hact, huser⟩
    rw [map_some, if_neg (fun hk => hs hk.1)]
  | touchDevice devicePubkey now =>
    rw [Write.run.eq_def, Enrolled]
    dsimp only
    rw [Dict.get?_mapEntries, hrow, map_some]
    split
    · exact ⟨_, rfl, hact, huser⟩
    · exact ⟨row, rfl, hact, huser⟩
  | _ => exact ⟨row, hrow, hact, huser⟩

theorem allCertified_concat {x : Coro.Entry (Coordinator Session) Event} (h : AllCertified log)
    (hx : ∀ cert, x.event.action = .issued cert → Certified log x.task x.before.working cert) :
    AllCertified (log ++ [x]) := by
  intro pre y post cert hspl hcert
  rcases eq_nil_or_concat post with rfl | ⟨post, z, rfl⟩
  · obtain ⟨rfl, hy⟩ := append_inj' hspl rfl
    cases hy
    exact hx cert hcert
  have hspl' : log ++ [x] = (pre ++ y :: post) ++ [z] := by rw [hspl]; simp
  obtain ⟨rfl, _⟩ := append_inj' hspl' rfl
  exact h pre y post cert rfl hcert

structure Undisturbed (i : Coro.TaskId) (m n : Coro.Moment (Coordinator Session) Event) : Prop where
  trace : m.trace <+: n.trace
  login : loginOf i n.trace = loginOf i m.trace
  held : ∀ l, loginOf i m.trace = some l → l.holding = true →
    Enrolled m.shared.working l.handle l.devicePubkey → Enrolled n.shared.working l.handle l.devicePubkey

def certifying (P : Platform) : Coro.Contract (Coordinator Session) Event where
  inv m := AllCertified m.trace
  allowed := Heeded P
  rely := Undisturbed
  refl _ _ := ⟨List.prefix_rfl, rfl, fun _ _ _ h => h⟩
  trans _ _ _ _ h k := ⟨h.trace.trans k.trace, k.login.trans h.login, fun l hl hh he =>
    k.held l (h.login.trans hl) hh (h.held l hl hh he)⟩

theorem fair_step (h : AllCertified m.trace) (hk : Honest P m.shared r) (hr : r.2.action ≠ .rolledBack)
    (ha : Heeded P m i r.2)
    (hiss : ∀ cert, r.2.action = .issued cert → Certified m.trace i m.shared.working cert) :
    (certifying P).Fair i m (m.after i r) := by
  refine ⟨allCertified_concat h hiss, fun j hj => ⟨prefix_after, ?_, ?_⟩⟩
  · rw [loginOf_after, if_neg (Ne.symm hj)]
  intro l hl hhol henr
  obtain ⟨c, a, e⟩ := r
  change Enrolled c.working l.handle l.devicePubkey
  cases a with
  | wrote w =>
    rw [hk.1]
    exact henr.run (ha j hj l hl hhol)
  | rolledBack => exact absurd rfl hr
  | readDevice _ _ | readUserDevices _ _ =>
    rw [hk.1.1]
    exact henr
  | _ =>
    rw [hk.1]
    exact henr

end Steps

def Entitled (i : Coro.TaskId) (l : Login) (log : Log Session) : Prop :=
  HasOther l.roster l.handle l.devicePubkey → BoundTo l.roster l.handle l.devicePubkey ∨ PairedWith log i l.handle

/-- Login `l` of task `i` is under way. -/
structure Underway (i : Coro.TaskId) (l : Login) (m : Coro.Moment (Coordinator Session) Event) : Prop where
  login : loginOf i m.trace = some l
  began : ∃ b ∈ m.trace, b.task = i ∧ b.event.action = .began l.handle l.devicePubkey ∧ b.before.working = l.roster
  active : ActiveUser l.roster l.handle
  held : l.holding = true → Enrolled m.shared.working l.handle l.devicePubkey

section Walk

theorem PairedWith.mono {log' : Log Session} {handle : String} (h : PairedWith log i handle)
    (hp : log <+: log') : PairedWith log' i handle := by
  obtain ⟨x, hx, hrest⟩ := h
  exact ⟨x, hp.subset hx, hrest⟩

theorem Entitled.mono (log log' : Log Session) (h : Entitled i l log) (hp : log <+: log') : Entitled i l log' :=
  fun ho => (h ho).imp_right (fun hw => hw.mono hp)

theorem Underway.stable (h : Underway i l m) (hr : Undisturbed i m n) : Underway i l n := by
  obtain ⟨b, hb, hrest⟩ := h.began
  exact ⟨hr.login.trans h.login, ⟨b, hr.trace.subset hb, hrest⟩, h.active, fun hh => hr.held l h.login hh (h.held hh)⟩

theorem Underway.after (h : Underway i l m) {l' : Login} (hh : l'.handle = l.handle)
    (hd : l'.devicePubkey = l.devicePubkey) (hros : l'.roster = l.roster)
    (hl : Login.next (some l) ⟨i, m.shared, r.2⟩ = some l')
    (he : l'.holding = true → Enrolled r.1.working l.handle l.devicePubkey) : Underway i l' (m.after i r) := by
  obtain ⟨b, hb, hrest⟩ := h.began
  refine ⟨?_, ⟨b, prefix_after.subset hb, ?_⟩, ?_, ?_⟩
  · rw [loginOf_after, if_pos rfl, h.login]
    exact hl
  · rw [hh, hd, hros]
    exact hrest
  · rw [hh, hros]
    exact h.active
  · rw [hh, hd]
    exact he

def Passing : Action → Prop
  | .nothing | .readInvitation _ _ | .readUserDevices _ _ | .committed | .redeemed _ _ => True
  | .wrote (.spendInvitation _ _) | .wrote (.touchDevice _ _) => True
  | _ => False

theorem next_of_passing {x : Coro.Entry (Coordinator Session) Event} (ht : Passing x.event.action)
    (hc : x.event.raised ≠ some .cancelled) : Login.next (some l) x = some l := by
  obtain ⟨i, c, ⟨a, e⟩⟩ := x
  have hnext : ∀ {e}, e ≠ some Exn.cancelled → Login.next (some l) ⟨i, c, ⟨a, e⟩⟩ = some l := by
    intro e he
    rw [Login.next.eq_def]
    dsimp only
    split
    · exact absurd rfl he
    all_goals first | exact absurd ht id | rfl
  exact hnext hc

theorem passing_step (h : AllCertified m.trace) (hl : Underway i l m) (hk : Honest P m.shared r)
    (ht : Passing r.2.action) (ha : Heeded P m i r.2) : (certifying P).Fair i m (m.after i r) ∧
      (r.2.raised ≠ some .cancelled → Underway i l (m.after i r)) := by
  obtain ⟨c, a, e⟩ := r
  have hr : a ≠ .rolledBack := by
    rintro rfl
    exact ht
  have hi : ∀ cert, a ≠ .issued cert := by
    rintro cert rfl
    exact ht
  refine ⟨fair_step h hk hr ha (fun cert hc => absurd hc (hi cert)), fun he => ?_⟩
  apply hl.after rfl rfl rfl (next_of_passing ht he)
  intro hh
  have henr := hl.held hh
  change Enrolled c.working l.handle l.devicePubkey
  cases a with
  | wrote w =>
    rw [hk.1]
    cases w with
    | spendInvitation code now => exact henr
    | touchDevice devicePubkey now => exact henr.run trivial
    | _ => exact absurd ht id
  | readUserDevices h any =>
    rw [hk.1.1]
    exact henr
  | began | readDevice | rolledBack | issued | answered => exact absurd ht id
  | _ =>
    rw [hk.1]
    exact henr

/-- What the login keeps while others take their turns, with what only the log has to bear out. -/
structure Firm (i : Coro.TaskId) (l : Login) (X : Log Session → Prop) (m : Coro.Moment (Coordinator Session) Event) :
    Prop where
  underway : Underway i l m
  fact : X m.trace

variable {X : Log Session → Prop} (hX : ∀ log log', X log → log <+: log' → X log')
include hX

theorem Firm.stable (h : Firm i l X m) (hr : Undisturbed i m n) : Firm i l X n :=
  ⟨h.underway.stable hr, hX _ _ h.fact hr.trace⟩

theorem keeps_passing {f : Turn → Coordinator Session → Except Exn α × Coordinator Session × Action}
    (hf : ∀ t c e, Honest P c ((f t c).2.1, ⟨(f t c).2.2, e⟩) ∧ Passing (f t c).2.2) (h : Firm i l X m) :
    Coro.Keeps (certifying P) i (Coro.post (fun _ => Firm i l X) (fun e n => e ≠ .cancelled → Firm i l X n))
      (statement f).run m := by
  have hstep : ∀ n c a e, Undisturbed i m n → AllCertified n.trace → Honest P n.shared (c, ⟨a, e⟩) → Passing a →
      Heeded P n i ⟨a, e⟩ → (certifying P).Fair i n (n.after i (c, ⟨a, e⟩)) ∧
        (e ≠ some .cancelled → Firm i l X (n.after i (c, ⟨a, e⟩))) := by
    intro n c a e hr hn hk ht ha
    have hfirm := h.stable hX hr
    obtain ⟨hfair, hafter⟩ := passing_step hn hfirm.underway hk ht ha
    exact ⟨hfair, fun he => ⟨hafter he, hX _ _ hfirm.fact prefix_after⟩⟩
  apply keeps_statement
  · exact fun _ _ _ hl hr _ => hl.stable hX hr
  · exact fun _ _ _ hl hr _ he => (hl he).stable hX hr
  · intro n hr hn t a _ ha
    obtain ⟨hk, ht⟩ := hf t n.shared none
    obtain ⟨hfair, hafter⟩ := hstep n _ _ none hr hn hk ht ha
    exact ⟨hfair, hafter (by rintro ⟨⟩)⟩
  · intro n hr hn t e c a hca ha
    rcases hca with ⟨rfl, rfl⟩ | ⟨rfl, rfl⟩
    · obtain ⟨hfair, hafter⟩ := hstep n n.shared .nothing (some e) hr hn ⟨rfl, rfl⟩ trivial ha
      exact ⟨hfair, fun he => hafter (by rintro ⟨⟩; exact he rfl)⟩
    obtain ⟨hk, ht⟩ := hf t n.shared (some e)
    obtain ⟨hfair, hafter⟩ := hstep n _ _ (some e) hr hn hk ht ha
    exact ⟨hfair, fun he => hafter (by rintro ⟨⟩; exact he rfl)⟩

end Walk

def Holding (i : Coro.TaskId) (l : Login) (m : Coro.Moment (Coordinator Session) Event) : Prop :=
  Firm i { l with holding := true } (Entitled i l) m

section Finish

variable (S : Service Session)

theorem keeps_takeLogin (stateId : String) (ke3 devicePubkey : Bytes) : Coro.Keeps (certifying S.platform) i
      (Coro.post (fun login n => ∃ roster, Underway i ⟨login.1, devicePubkey, roster, false⟩ n) (fun _ _ => True))
      (S.takeLogin stateId ke3 devicePubkey).run m := by
  apply keeps_atomic
  · exact fun _ _ _ ⟨roster, hl⟩ hr _ => ⟨roster, hl.stable hr⟩
  · exact fun _ _ _ _ _ _ => trivial
  · intro n hr hn t login hlog ha
    rcases proveLogin_cases S stateId ke3 devicePubkey n.shared with ⟨e, logins, hf⟩ | ⟨handle, m2, logins, hf⟩
    · rw [hf] at hlog
      cases hlog
    rw [hf] at hlog ha ⊢
    cases hlog
    refine ⟨fair_step hn ⟨rfl, rfl⟩ (by rintro ⟨⟩) ha (by rintro _ ⟨⟩), n.shared.working, ?_⟩
    refine ⟨?_, ⟨_, mem_after, rfl, rfl, rfl⟩, ha, by rintro ⟨⟩⟩
    rw [loginOf_after, if_pos rfl]
    rfl
  · intro n hr hn t e he ha
    rcases proveLogin_cases S stateId ke3 devicePubkey n.shared with ⟨e, logins, hf⟩ | ⟨handle, m2, logins, hf⟩
    · rw [hf] at ha ⊢
      exact ⟨fair_step hn ⟨rfl, rfl⟩ (by rintro ⟨⟩) ha (by rintro _ ⟨⟩), trivial⟩
    · rw [hf] at he
      cases he

def Looked (i : Coro.TaskId) (l : Login) : Option DeviceRow → Coro.Moment (Coordinator Session) Event → Prop
  | none, m => Underway i l m
  | some row, m => row.status = .active → Holding i l m

def Plain : Action → Prop
  | .rolledBack | .issued _ => False
  | _ => True

theorem fair_plain {P : Platform} {r : Coordinator Session × Event} (h : AllCertified m.trace)
    (hk : Honest P m.shared r) (hp : Plain r.2.action) (ha : Heeded P m i r.2) :
    (certifying P).Fair i m (m.after i r) := by
  apply fair_step h hk _ ha
  · intro cert hc
    rw [hc] at hp
    exact absurd hp id
  intro hr
  rw [hr] at hp
  exact hp

variable {B : α → Coro.Moment (Coordinator Session) Event → Prop}

theorem keeps_turn {f : Turn → Coordinator Session → Except Exn α × Coordinator Session × Action}
    (hB : ∀ a k n, B a k → Undisturbed i k n → B a n)
    (hf : ∀ t c e, Honest S.platform c ((f t c).2.1, ⟨(f t c).2.2, e⟩) ∧ Plain (f t c).2.2)
    (hok : ∀ n, Undisturbed i m n → ∀ t a, (f t n.shared).1 = .ok a → Heeded S.platform n i ⟨(f t n.shared).2.2, none⟩ →
      B a (n.after i ((f t n.shared).2.1, ⟨(f t n.shared).2.2, none⟩))) :
    Coro.Keeps (certifying S.platform) i (Coro.post B (fun _ _ => True)) (statement f).run m := by
  apply keeps_statement
  · exact fun a k n hk hr _ => hB a k n hk hr
  · exact fun _ _ _ _ _ _ => trivial
  · intro n hr hn t a heq ha
    exact ⟨fair_plain hn (hf t _ _).1 (hf t n.shared none).2 ha, hok n hr t a heq ha⟩
  · intro n hr hn t e c a hca ha
    rcases hca with ⟨rfl, rfl⟩ | ⟨rfl, rfl⟩
    · exact ⟨fair_plain hn ⟨rfl, rfl⟩ trivial ha, trivial⟩
    · exact ⟨fair_plain hn (hf t _ _).1 (hf t n.shared none).2 ha, trivial⟩

theorem keeps_getDevice (h : Underway i l m) : Coro.Keeps (certifying S.platform) i
    (Coro.post (Looked i l) (fun _ _ => True))
    (getDevice l.devicePubkey : Act Session (Option DeviceRow)).run m := by
  apply keeps_turn
  · intro row k n hl hr
    cases row with
    | none => exact Underway.stable hl hr
    | some row => exact fun hact => Firm.stable Entitled.mono (hl hact) hr
  · exact fun _ _ _ => ⟨⟨⟨rfl, rfl⟩, rfl⟩, trivial⟩
  intro n hr t row hrow ha
  cases hrow
  have hl := h.stable hr
  dsimp only at ha ⊢
  cases hrow : n.shared.working.devices.get? l.devicePubkey with
  | none => exact hl.after rfl rfl rfl rfl hl.held
  | some row =>
    intro hact
    rw [hrow] at ha
    obtain ⟨huser, hbou⟩ := ha hact l hl.login
    refine ⟨hl.after rfl rfl rfl (if_pos hact) (fun _ => ⟨row, hrow, hact, huser⟩), ?_⟩
    exact fun ho => .inl (hbou ho)

theorem keeps_userHasDevices (h : Underway i l m) : Coro.Keeps (certifying S.platform) i
    (Coro.post (fun any => Firm i l (fun log => any = false → Entitled i l log)) (fun _ _ => True))
    (userHasDevices l.handle : Act Session Bool).run m := by
  apply keeps_turn
  · exact fun any k n hl hr => hl.stable (fun _ _ hx hp ha => Entitled.mono _ _ (hx ha) hp) hr
  · exact fun _ _ _ => ⟨⟨⟨rfl, rfl⟩, rfl⟩, trivial⟩
  intro n hr t any hany ha
  cases hany
  have hl := h.stable hr
  dsimp only at ha ⊢
  refine ⟨hl.after rfl rfl rfl rfl hl.held, ?_⟩
  intro hnone ho
  rw [hnone] at ha
  exact absurd ho (ha l hl.login)

def RedeemedBy (log : Log Session) (i : Coro.TaskId) (inv : InvitationRow) : Prop :=
  ∃ x ∈ log, x.task = i ∧ ∃ code invite, x.event.action = .redeemed code invite ∧
    invite.role = inv.role ∧ invite.bindToHandle = inv.bindToHandle

theorem RedeemedBy.mono {log' : Log Session} {inv : InvitationRow} (h : RedeemedBy log i inv)
    (hp : log <+: log') : RedeemedBy log' i inv := by
  obtain ⟨x, hx, hrest⟩ := h
  exact ⟨x, hp.subset hx, hrest⟩

theorem returned {a : α}
    (hstable : ∀ n, Undisturbed i m n → B a n) : Coro.Keeps (certifying S.platform) i (Coro.post B (fun _ _ => True))
      (.done (.ok a) : Coro Turn (Coordinator Session) Event (Except Exn α)) m :=
  fun n hr _ => hstable n hr

theorem raises (e : Exn) : Coro.Keeps (certifying S.platform) i (Coro.post B (fun _ _ => True))
      (.done (.error e) : Coro Turn (Coordinator Session) Event (Except Exn α)) m :=
  fun _ _ _ => trivial

theorem keeps_redeemed (code : String) (inv : InvitationRow) (h : Underway i l m) : Coro.Keeps (certifying S.platform) i
      (Coro.post (fun _ => Firm i l (fun log => RedeemedBy log i inv)) (fun _ _ => True))
      (mark (.redeemed code inv) : Act Session Time).run m := by
  apply keeps_atomic
  · exact fun _ _ _ hl hr _ => hl.stable (fun _ _ hx hp => hx.mono hp) hr
  · exact fun _ _ _ _ _ _ => trivial
  · intro n hr hn t a _ ha
    have hk : Honest S.platform n.shared (n.shared, ⟨.redeemed code inv, none⟩) := ⟨rfl, rfl⟩
    obtain ⟨hfair, hafter⟩ := passing_step hn (h.stable hr) hk trivial ha
    exact ⟨hfair, hafter (by rintro ⟨⟩), _, mem_after, rfl, code, inv, rfl, rfl, rfl⟩
  · rintro n _ _ t e ⟨⟩

theorem keeps_consume (codeInput : String) (h : Underway i l m) : Coro.Keeps (certifying S.platform) i
    (Coro.post (fun inv => Firm i l (fun log => ∀ inv', inv = some inv' → RedeemedBy log i inv')) (fun _ _ => True))
    (consumeInvitation S.platform codeInput : Act Session (Option InvitationRow)).run m := by
  have hX : ∀ log log' : Log Session, True → log <+: log' → True := fun _ _ _ _ => trivial
  have hR : ∀ inv, ∀ log log' : Log Session, (∀ inv', inv = some inv' → RedeemedBy log i inv') → log <+: log' →
      ∀ inv', inv = some inv' → RedeemedBy log' i inv' := fun _ _ _ hx hp inv' he => (hx inv' he).mono hp
  apply (keeps_passing hX _ (Firm.mk h trivial)).through _ (fun e _ _ => raises S e)
  · exact fun t c e => ⟨⟨rfl, rfl⟩, trivial⟩
  intro row m hm
  cases row with
  | none =>
    apply returned
    exact fun n hr => ⟨hm.underway.stable hr, by rintro _ ⟨⟩⟩
  | some invite =>
    apply (keeps_passing hX _ hm).through _ (fun e _ _ => raises S e)
    · intro t c e
      dsimp only
      split
      · exact ⟨⟨rfl, rfl⟩, trivial⟩
      · exact ⟨⟨rfl, rfl⟩, trivial⟩
    intro _ m hm
    apply (keeps_passing hX _ hm).through _ (fun e _ _ => raises S e)
    · exact fun t c e => ⟨⟨rfl, rfl⟩, trivial⟩
    intro _ m hm
    apply (keeps_redeemed S _ invite hm.underway).through _ (fun e _ _ => raises S e)
    intro now m hm
    apply returned
    intro n hr
    refine ⟨hm.underway.stable hr, ?_⟩
    rintro _ ⟨⟩
    obtain ⟨x, hx, hi, code, invite', ha, hrole, hbind⟩ := hm.fact.mono hr.trace
    exact ⟨x, hx, hi, code, invite', ha, hrole, hbind⟩

theorem keeps_pairWithInvite (any : Bool) (inviteCode : Cbor)
    (h : Firm i l (fun log => any = false → Entitled i l log) m) : Coro.Keeps (certifying S.platform) i
      (Coro.post (fun _ => Firm i l (Entitled i l)) (fun _ _ => True))
      (S.pairWithInvite any inviteCode l.handle).run m := by
  rw [Service.pairWithInvite]
  cases any with
  | false =>
    apply returned
    exact fun n hr => Firm.stable Entitled.mono ⟨h.underway, h.fact rfl⟩ hr
  | true =>
    rw [if_neg (by decide)]
    split
    · exact raises S _
    rw [Service.redeem.eq_def]
    split
    · apply (keeps_consume S _ h.underway).through _ (fun e _ _ => raises S e)
      intro inv m hm
      cases hf : inv.filter (fun i => i.role = .user || i.role = .device) with
      | none => exact raises S _
      | some inv' =>
        obtain ⟨hinv, hrole⟩ := filter_eq_some_iff.mp hf
        dsimp only
        split
        · exact raises S _
        apply returned
        intro n hr
        refine Firm.stable Entitled.mono ⟨hm.underway, fun _ => .inr ?_⟩ hr
        obtain ⟨x, hx, hi, code, invite, ha, hrole', hbind⟩ := hm.fact inv' hinv
        refine ⟨x, hx, hi, code, invite, ha, ?_, ?_⟩
        · rw [hrole']
          simpa using hrole
        intro bound hbou hne
        rw [hbind] at hbou
        simp_all
    · exact raises S _

theorem enrolled_upsert (db : Db) (devicePubkey : Bytes) (handle : String) (label : Cbor) (now : Time) :
    Enrolled ((Write.upsertDevice devicePubkey handle label now).run S.platform db) handle devicePubkey := by
  rw [Write.run.eq_def, Enrolled]
  dsimp only
  rw [Dict.get?_set, if_pos rfl]
  split
  · exact ⟨_, rfl, rfl, rfl⟩
  · exact ⟨_, rfl, rfl, rfl⟩

theorem keeps_upsert (label : Cbor) (h : Firm i l (Entitled i l) m) : Coro.Keeps (certifying S.platform) i
    (Coro.post (fun _ => Holding i l) (fun _ _ => True))
    (execute S.platform (fun t => .upsertDevice l.devicePubkey l.handle label t.now) : Act Session Nat).run m := by
  apply keeps_turn
  · exact fun _ _ _ hl hr => Firm.stable Entitled.mono hl hr
  · intro t c e
    dsimp only
    split
    · exact ⟨⟨rfl, rfl⟩, trivial⟩
    · exact ⟨⟨rfl, rfl⟩, trivial⟩
  intro n hr t a ha _
  have hfirm := h.stable Entitled.mono hr
  dsimp only at ha ⊢
  split at ha
  · cases ha
  rw [if_neg ‹_›]
  refine ⟨hfirm.underway.after rfl rfl rfl rfl (fun _ => enrolled_upsert S _ _ _ _ _), ?_⟩
  exact Entitled.mono _ _ hfirm.fact prefix_after

theorem keeps_addDevice (label : Cbor) (h : Firm i l (Entitled i l) m) : Coro.Keeps (certifying S.platform) i
    (Coro.post (fun _ => Holding i l) (fun _ _ => True))
    (addDevice S.platform l.devicePubkey l.handle label : Act Session Unit).run m := by
  apply (keeps_upsert S label h).through _ (fun e _ _ => raises S e)
  intro _ m hm
  apply (keeps_passing Entitled.mono _ hm).mono
  · intro r n hn
    cases r with
    | ok a => exact hn
    | error e => exact trivial
  · exact fun t c e => ⟨⟨rfl, rfl⟩, trivial⟩

theorem keeps_touchDevice (h : Holding i l m) : Coro.Keeps (certifying S.platform) i
    (Coro.post (fun _ => Holding i l) (fun e n => e ≠ .cancelled → Holding i l n))
    (touchDevice S.platform l.devicePubkey : Act Session Unit).run m := by
  apply (keeps_passing Entitled.mono _ h).through
  · intro _ m hm
    apply keeps_passing Entitled.mono _ hm
    exact fun t c e => ⟨⟨rfl, rfl⟩, trivial⟩
  · exact fun e n hz k hr _ he => Firm.stable Entitled.mono (hz he) hr
  intro t c e
  dsimp only
  split
  · exact ⟨⟨rfl, rfl⟩, trivial⟩
  · exact ⟨⟨rfl, rfl⟩, trivial⟩

theorem keeps_bindDevice (existingDevice : Option DeviceRow) (label inviteCode : Cbor)
    (h : Looked i l existingDevice m) : Coro.Keeps (certifying S.platform) i
    (Coro.post (fun _ => Holding i l) (fun _ _ => True))
    (S.bindDevice existingDevice l.handle l.devicePubkey label inviteCode).run m := by
  have hret : ∀ n, Holding i l n → Keeps (certifying S.platform) i
      (post (fun _ => Holding i l) (fun _ _ => True))
      (.done (.ok ()) : Coro Turn (Coordinator Session) Event (Except Exn Unit)) n :=
    fun n hn => returned S (fun k hr => Firm.stable Entitled.mono hn hr)
  rw [Service.bindDevice.eq_def]
  cases existingDevice with
  | none =>
    apply (keeps_userHasDevices S h).through _ (fun e _ _ => raises S e)
    intro any m hm
    apply (keeps_pairWithInvite S any inviteCode hm).through _ (fun e _ _ => raises S e)
    exact fun _ m hm => keeps_addDevice S label hm
  | some row =>
    dsimp only
    split
    · exact raises S _
    have hact : row.status = .active := not_not.mp ‹_›
    apply Keeps.catching
    apply (keeps_touchDevice S (h hact)).mono
    intro r n hn
    cases r with
    | ok a => exact hret n hn
    | error e =>
      dsimp only [post]
      split
      · exact hret n (hn (by rintro ⟨⟩))
      · exact raises S _

theorem keeps_issueCert (capabilities : List String) (h : Holding i l m) : Coro.Keeps (certifying S.platform) i
    (Coro.post (fun _ _ => True) (fun _ _ => True))
    (S.issueCert l.handle l.devicePubkey capabilities).run m := by
  apply keeps_atomic
  · exact fun _ _ _ _ _ _ => trivial
  · exact fun _ _ _ _ _ _ => trivial
  · intro n hr hn t cert hcert ha
    obtain ⟨hl, hent⟩ := Firm.stable Entitled.mono h hr
    dsimp only at hcert ha ⊢
    split at hcert
    · cases hcert
    rw [if_neg ‹_›] at ha ⊢
    refine ⟨fair_step hn ⟨rfl, rfl⟩ (by rintro ⟨⟩) ha ?_, trivial⟩
    rintro _ ⟨⟩
    obtain ⟨b, hb, hi, hbeg, hros⟩ := hl.began
    refine ⟨hl.held rfl, b, hb, hi, hbeg, ?_, ?_⟩
    · rw [hros]
      exact hl.active
    · rw [hros]
      exact hent
  · intro n hr hn t e he ha
    dsimp only at he ha ⊢
    split at he
    · rw [if_pos ‹_›] at ha ⊢
      exact ⟨fair_plain hn ⟨rfl, rfl⟩ trivial ha, trivial⟩
    · cases he

end Finish

section Operations

variable (S : Service Session)

abbrev Abides (i : Coro.TaskId) (x : Act Session α) : Prop :=
  Coro.Maintains (certifying S.platform) i (fun _ => True) x.run

variable {S}

theorem Abides.andThen {x : Act Session α} {f : α → Act Session β} (hx : Abides S i x)
    (hf : ∀ a, Abides S i (f a)) : Abides S i (x >>= f) :=
  Maintains.andThen (fun _ _ _ _ _ => trivial) hx hf

theorem abides_plain {x : Act Session α} (hx : Acts S.platform Plain x) : Abides S i x :=
  fun _ _ => Keeps.of_all (fun _ _ _ _ _ => trivial)
    (fun _ _ hn _ hk ha => ⟨fair_plain hn hk.1 hk.2 ha, trivial⟩) hx trivial

variable (S)

theorem abides_loginFinish (params : Params) (peerNodeId : String) : Abides S i (S.loginFinish params peerNodeId) := by
  apply Abides.andThen (abides_plain (lift _))
  intro stateId
  apply Abides.andThen (abides_plain (lift _))
  intro ke3
  apply Abides.andThen (abides_plain (lift _))
  intro devicePubkey
  apply Abides.andThen (abides_plain (lift _))
  intro _ m _
  have hrai : ∀ (e : Exn) (n : Moment (Coordinator Session) Event), True →
      Keeps (certifying S.platform) i (fun _ _ => True)
        (.done (.error e) : Coro Turn (Coordinator Session) Event (Except Exn Reply)) n :=
    fun _ _ _ _ _ _ => trivial
  apply (keeps_takeLogin S stateId ke3 devicePubkey).through _ hrai
  rintro ⟨handle, m2⟩ n ⟨roster, hl⟩
  apply (keeps_getDevice S hl).through _ hrai
  intro existing n hloo
  apply (keeps_bindDevice S existing _ _ hloo).through _ hrai
  intro _ n hhol
  apply (keeps_issueCert S [] hhol).through _ hrai
  exact fun _ _ _ _ _ _ => trivial

theorem abides_loginInit (params : Params) : Abides S i (S.loginInit params) :=
  abides_plain (loginInit S params trivial)

theorem abides_revokeDevice (params : Params) : Abides S i (S.revokeDevice params) :=
  abides_plain (revokeDeviceRpc S params trivial (fun _ => trivial) trivial)

theorem abides_handleOneRpc (request : Request)
    (h : ∀ params, Abides S i (S.handler request.method params request.peerNodeId)) :
    Abides S i (S.handleOneRpc request) := by
  apply Abides.andThen
  · apply Maintains.catching (fun _ _ _ _ _ => trivial)
    · apply Abides.andThen
      · rw [Service.dispatch]
        split
        · exact h _
        split
        · exact h _
        · exact abides_plain (throw _)
      · exact fun _ => abides_plain (pure _)
    · exact fun e => abides_plain (failure _ e)
  intro response
  apply abides_plain
  apply Acts.bind
  · apply Acts.mark _ trivial
    exact fun _ _ => ⟨rfl, rfl⟩
  exact fun _ => pure _

theorem abides_perform (operation : Operation) : Abides S i (S.perform operation) := by
  have hdone : ∀ {α : Type} (_ : α), Abides S i (pure () : Act Session Unit) := fun _ => abides_plain (pure _)
  cases operation with
  | loginInit params peerNodeId =>
    exact Abides.andThen (abides_handleOneRpc S _ (fun params => abides_loginInit S params)) hdone
  | loginFinish params peerNodeId =>
    exact Abides.andThen (abides_handleOneRpc S _ (fun params => abides_loginFinish S params _)) hdone
  | revokeDevice params peerNodeId =>
    exact Abides.andThen (abides_handleOneRpc S _ (fun params => abides_revokeDevice S params)) hdone
  | setUserStatus handle status =>
    exact abides_plain (Acts.bind (Acts.setUserStatus _ _ _ trivial (fun _ => trivial) trivial) (fun _ => Acts.pure _))
  | deleteUser handle =>
    exact abides_plain (Acts.bind (Acts.deleteUser _ _ trivial trivial trivial trivial) (fun _ => Acts.pure _))

/-- Every certificate stands for an active device of the user, an account that was active when the login began, and a device
that was the user's or was paired with an invitation, where the steps heed the logins under way. -/
theorem certificates_match_roster {operations : Coro.TaskId → Operation} {c : Coordinator Session}
    {q : Coro.Pool Turn (Coordinator Session) Event (Except Exn Unit)}
    (h : Runs.ReachesUnder Coro.Pool.next (Coro.Pool.Allowed (Heeded S.platform)) (S.administering operations c) q) :
    AllCertified q.now.trace := by
  have hsou : Pool.Sound (certifying S.platform) (S.administering operations c) := by
    refine ⟨?_, fun j => (abides_perform S (operations j) _ trivial).mono (fun _ _ _ => trivial)⟩
    intro pre x post cert hspl
    exact absurd (append_eq_nil_iff.mp hspl.symm).2 (cons_ne_nil _ _)
  exact (hsou.reaches h).1

end Operations

section Run

def laptop : Bytes := List.replicate 32 7

def household : Db where
  coordinatorNodeId := none
  users := (Dict.empty.set "alice" ⟨"alice", [1], "srp6a", .active, 0⟩).set "bob" ⟨"bob", [2], "srp6a", .active, 0⟩
  devices := Dict.empty.set laptop ⟨laptop, "alice", .null, .active, 0, none⟩
  agents := Dict.empty
  invitations := Dict.empty

def signingIn (handle : String) (proof : UInt8) (i : Coro.TaskId) : Operation :=
  if i = 0 then
    .loginInit (.map [(.text "handle", .text handle), (.text "ke1", .bytes [])]) "inproc:a"
  else
    .loginFinish (.map [(.text "state_id", .text "s"), (.text "ke3", .bytes [proof]),
      (.text "device_pubkey", .bytes laptop)]) "inproc:a"

def signIn (handle : String) (proof : UInt8) : Coro.Pool Turn (Coordinator Bytes) Event (Except Exn Unit) :=
  Service.sample.administering (signingIn handle proof) ⟨household, household, Dict.empty⟩

def bothMessages : List (Coro.TaskId × Turn) :=
  List.replicate 3 (0, { now := 5, uuid := "s" }) ++ List.replicate 5 (1, { now := 6 })

theorem alice_certified : ∃ q, Runs.run Coro.Pool.next (signIn "alice" 1) bothMessages = some q ∧
    AllCertified q.now.trace := by
  have hrun : (Runs.run Pool.next (signIn "alice" 1) bothMessages).isSome := by decide
  obtain ⟨q, hq⟩ := isSome_iff_exists.mp hrun
  exact ⟨q, hq, certificates_match_roster Service.sample (Runs.reachesUnder_of_all (by decide) hq)⟩

def strays (log : Log Session) : Bool :=
  log.any (fun x => match x.event.action with
    | .issued cert => (x.before.working.devices.get? cert.devicePubkey).all (fun d => d.userHandle ≠ cert.handle)
    | _ => false)

theorem not_allCertified (h : strays log) : ¬ AllCertified log := by
  intro hall
  obtain ⟨x, hx, hstr⟩ := any_eq_true.mp h
  obtain ⟨pre, post, rfl⟩ := append_of_mem hx
  split at hstr
  · obtain ⟨row, hrow, _, huser⟩ := (hall pre x post _ rfl ‹_›).enrolled
    rw [hrow] at hstr
    exact of_decide_eq_true hstr huser
  · cases hstr

theorem bob_certified_on_device_of_alice : ∃ q, Runs.run Coro.Pool.next (signIn "bob" 2) bothMessages = some q ∧
    ¬ AllCertified q.now.trace := by
  have hrun : (Runs.run Pool.next (signIn "bob" 2) bothMessages).map (fun q => strays q.now.trace) = some true := by
    decide
  obtain ⟨q, hq, hstr⟩ := map_eq_some_iff.mp hrun
  exact ⟨q, hq, not_allCertified hstr⟩

end Run

end OpenAgent.Identity
