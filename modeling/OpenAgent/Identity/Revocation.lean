import OpenAgent.Identity.Logins

namespace OpenAgent.Identity

open Py List Option Acts

variable {Session α β : Type}

inductive Call where
  | loginInit (params : Cbor) (peerNodeId : String)
  | loginFinish (params : Cbor) (peerNodeId : String)
  | revokeDevice (devicePubkey : Bytes)

def Service.answer (S : Service Session) : Call → Act Session Unit
  | .loginInit params peerNodeId => do let _ ← S.handleOneRpc ⟨.loginInit, params, peerNodeId⟩
  | .loginFinish params peerNodeId => do let _ ← S.handleOneRpc ⟨.loginFinish, params, peerNodeId⟩
  | .revokeDevice devicePubkey => do let _ ← Identity.revokeDevice S.platform devicePubkey

def Service.answering (S : Service Session) (calls : Coro.TaskId → Call) (c : Coordinator Session) :
    Coro.Pool Turn (Coordinator Session) Event (Except Exn Unit) where
  now := ⟨c, []⟩
  coro := fun i => (S.answer (calls i)).run

def HasStatus (status : DeviceStatus) (roster : Db) (devicePubkey : Bytes) : Prop :=
  ∃ row, roster.devices.get? devicePubkey = some row ∧ row.status = status

def revokes (devicePubkey : Bytes) (x : Coro.Entry (Coordinator Session) Event) : Bool :=
  match x.event.action with
  | .committed => (x.before.working.devices.get? devicePubkey).any (fun d => d.status = .revoked)
  | _ => false

def revokedIn (devicePubkey : Bytes) (log : Log Session) : Bool := log.any (revokes devicePubkey)

namespace Action

def admits : Action → Option Bytes
  | .wrote (.upsertDevice devicePubkey _ _ _) => some devicePubkey
  | .issued cert => some cert.devicePubkey
  | _ => none

def lookup : Action → Option (Bytes × Option DeviceRow)
  | .readDevice devicePubkey row => some (devicePubkey, row)
  | _ => none

end Action

/-- What task `i` has looked up. -/
def lookups (i : Coro.TaskId) (log : Log Session) : List (Bytes × Option DeviceRow) :=
  (log.filter (fun x => x.task = i)).filterMap (fun x => x.event.action.lookup)

/-- A revocation of the device was committed since task `i` last looked it up. -/
def stale (i : Coro.TaskId) (devicePubkey : Bytes) (log : Log Session) : Bool :=
  log.foldl (fun s x => (s || revokes devicePubkey x) &&
    !(x.task = i && x.event.action.lookup.any (fun e => e.1 = devicePubkey))) false

/-- Once its revocation was committed, no device is active again, and none is certified. -/
structure RevocationsFinal (m : Coro.Moment (Coordinator Session) Event) : Prop where
  inactive : ∀ k, revokedIn k m.trace →
    ¬ HasStatus .active m.shared.working k ∧ ¬ HasStatus .active m.shared.committed k
  uncertified : ∀ pre x post cert, m.trace = pre ++ x :: post → x.event.action = .issued cert →
    ¬ revokedIn cert.devicePubkey pre

def LookedUpSince (m : Coro.Moment (Coordinator Session) Event) (i : Coro.TaskId) (e : Event) : Prop :=
  ∀ k ∈ e.action.admits, stale i k m.trace = false

instance (m : Coro.Moment (Coordinator Session) Event) (i : Coro.TaskId) (e : Event) :
    Decidable (LookedUpSince m i e) :=
  inferInstanceAs (Decidable (∀ k ∈ e.action.admits, stale i k m.trace = false))

/-- A committed revocation stands in both views, and a task that looked the device up since then has found it
revoked. -/
structure Settled (m : Coro.Moment (Coordinator Session) Event) : Prop where
  stands : ∀ k, revokedIn k m.trace → HasStatus .revoked m.shared.working k ∧ HasStatus .revoked m.shared.committed k
  seen : ∀ i k, revokedIn k m.trace → stale i k m.trace = false →
    ∃ row, (k, some row) ∈ lookups i m.trace ∧ row.status = .revoked
  uncertified : ∀ pre x post cert, m.trace = pre ++ x :: post → x.event.action = .issued cert →
    ¬ revokedIn cert.devicePubkey pre

section Steps

variable {P : Platform} {m n : Coro.Moment (Coordinator Session) Event} {i j : Coro.TaskId}
  {r : Coordinator Session × Event} {k : Bytes} {db : Db}

theorem revokedIn_after : revokedIn k (m.after i r).trace = (revokedIn k m.trace || revokes k ⟨i, m.shared, r.2⟩) := by
  rw [revokedIn, Coro.Moment.after, any_append, any_cons, any_nil, Bool.or_false]
  rfl

theorem stale_after : stale j k (m.after i r).trace = ((stale j k m.trace || revokes k ⟨i, m.shared, r.2⟩) &&
    !(i = j && r.2.action.lookup.any (fun e => e.1 = k))) := by
  rw [stale, Coro.Moment.after, foldl_append]
  rfl

theorem lookups_after : lookups j (m.after i r).trace =
    lookups j m.trace ++ if i = j then r.2.action.lookup.toList else [] := by
  rw [lookups, Coro.Moment.after, filter_append, filterMap_append, lookups]
  congr 1
  rw [filter_cons]
  by_cases hij : i = j
  · rw [if_pos (decide_eq_true hij), if_pos hij, filter_nil]
    cases h : r.2.action.lookup with
    | none | some _ => simp [h]
  · rw [if_neg (by simpa using hij), if_neg hij]
    rfl

theorem HasStatus.ne {s t : DeviceStatus} (h : HasStatus s db k) (hst : s ≠ t) : ¬ HasStatus t db k := by
  obtain ⟨row, hrow, rfl⟩ := h
  rintro ⟨row', hrow', rfl⟩
  rw [hrow] at hrow'
  cases hrow'
  exact hst rfl

theorem Settled.final (h : Settled m) : RevocationsFinal m where
  inactive k hk := ⟨(h.stands k hk).1.ne (by decide), (h.stands k hk).2.ne (by decide)⟩
  uncertified := h.uncertified

def Lasting : Action → Prop
  | .rolledBack | .wrote (.deleteDevices _) | .wrote (.deleteUser _) => False
  | _ => True

theorem HasStatus.run {w : Write} (h : HasStatus .revoked db k) (hl : Lasting (.wrote w))
    (hk : ∀ k' ∈ (Action.wrote w).admits, k' ≠ k) : HasStatus .revoked (w.run P db) k := by
  obtain ⟨row, hrow, hsta⟩ := h
  cases w with
  | deleteDevices _ | deleteUser _ => exact absurd hl id
  | upsertDevice devicePubkey userHandle label now =>
    refine ⟨row, ?_, hsta⟩
    exact (Dict.get?_set_of_ne _ _ (hk devicePubkey rfl).symm).trans hrow
  | revokeDevice devicePubkey =>
    rw [Write.run.eq_def, HasStatus]
    rw [Dict.get?_mapEntries, hrow]
    refine ⟨row, ?_, hsta⟩
    rw [map_some, if_neg]
    rintro ⟨_, hact⟩
    rw [hsta] at hact
    cases hact
  | touchDevice devicePubkey now =>
    rw [Write.run.eq_def, HasStatus]
    rw [Dict.get?_mapEntries, hrow, map_some]
    split
    · exact ⟨_, rfl, hsta⟩
    · exact ⟨row, rfl, hsta⟩
  | _ => exact ⟨row, hrow, hsta⟩

theorem views_cases (hk : Honest P m.shared r) (hl : Lasting r.2.action) :
    (∃ w, r.2.action = .wrote w ∧ r.1.working = w.run P m.shared.working ∧ r.1.committed = m.shared.committed) ∨
    (r.1.working = m.shared.working ∧ (r.2.action = .committed ∧ r.1.committed = m.shared.working ∨
        (∀ k, revokes k (⟨i, m.shared, r.2⟩ : Coro.Entry _ _) = false) ∧ r.1.committed = m.shared.committed)) := by
  obtain ⟨c, a, e⟩ := r
  cases a with
  | wrote w => exact .inl ⟨w, rfl, hk⟩
  | committed => exact .inr ⟨hk.1, .inl ⟨rfl, hk.2⟩⟩
  | rolledBack => exact absurd hl id
  | readDevice _ _ | readUserDevices _ _ => exact .inr ⟨hk.1.1, .inr ⟨fun _ => rfl, hk.1.2⟩⟩
  | _ => exact .inr ⟨hk.1, .inr ⟨fun _ => rfl, hk.2⟩⟩

def Open (i : Coro.TaskId) (k : Bytes) (log : Log Session) : Prop :=
  ∀ row, (k, some row) ∈ lookups i log → row.status ≠ .revoked

theorem Settled.unrevoked (h : Settled m) (ho : Open i k m.trace) (hs : stale i k m.trace = false) :
    ¬ revokedIn k m.trace := by
  intro hrev
  obtain ⟨row, hrow, hsta⟩ := h.seen i k hrev hs
  exact ho row hrow hsta

theorem Settled.stands_after (h : Settled m) (hk : Honest P m.shared r) (hl : Lasting r.2.action)
    (hopen : ∀ k ∈ r.2.action.admits, ¬ revokedIn k m.trace) (k : Bytes) (hr : revokedIn k (m.after i r).trace) :
    HasStatus .revoked r.1.working k ∧ HasStatus .revoked r.1.committed k := by
  rw [revokedIn_after, Bool.or_eq_true] at hr
  rcases views_cases (i := i) hk hl with ⟨w, hw, hwor, hcom⟩ | ⟨hwor, ⟨hc, hcom⟩ | ⟨hn, hcom⟩⟩
  · have hrev : revokes k (⟨i, m.shared, r.2⟩ : Coro.Entry _ _) = false := by
      rw [revokes, hw]
    have hbef := hr.resolve_right (by rw [hrev]; decide)
    obtain ⟨hs, hs'⟩ := h.stands k hbef
    rw [hwor, hcom]
    refine ⟨hs.run (hw ▸ hl) ?_, hs'⟩
    rintro k' hk' rfl
    exact hopen k' (hw ▸ hk') hbef
  · have hs : HasStatus .revoked m.shared.working k := by
      rcases hr with hr | hr
      · exact (h.stands k hr).1
      rw [revokes, hc] at hr
      obtain ⟨row, hrow, hsta⟩ := (any_eq_true _ _).mp hr
      exact ⟨row, hrow, of_decide_eq_true hsta⟩
    rw [hwor, hcom]
    exact ⟨hs, hs⟩
  · rw [hwor, hcom]
    exact h.stands k (hr.resolve_right (by rw [hn k]; decide))

theorem Settled.seen_after (h : Settled m) (hk : Honest P m.shared r) (k : Bytes)
    (hr : revokedIn k (m.after i r).trace) (hs : stale j k (m.after i r).trace = false) :
    ∃ row, (k, some row) ∈ lookups j (m.after i r).trace ∧ row.status = .revoked := by
  rw [revokedIn_after] at hr
  rw [stale_after, Bool.and_eq_false_iff] at hs
  rcases hs with hs | hs
  · obtain ⟨hstal, hn⟩ := Bool.or_eq_false_iff.mp hs
    rw [hn, Bool.or_false] at hr
    obtain ⟨row, hrow, hsta⟩ := h.seen j k hr hstal
    refine ⟨row, ?_, hsta⟩
    rw [lookups_after]
    exact mem_append_left _ hrow
  -- the turn looks the device up
  obtain ⟨hij, hloo⟩ := (Bool.and_eq_true_iff ..).mp ((Bool.not_eq_false' ..).mp hs)
  obtain ⟨⟨k', row⟩, hfound, hk'⟩ := (any_eq_true _ _).mp hloo
  obtain rfl : k' = k := of_decide_eq_true hk'
  obtain rfl : i = j := of_decide_eq_true hij
  obtain ⟨c, a, e⟩ := r
  cases a with
  | readDevice devicePubkey row' =>
    cases hfound
    have hbef : revokedIn k' m.trace := by simpa [revokes] using hr
    obtain ⟨⟨row', hrow', hsta⟩, _⟩ := h.stands k' hbef
    refine ⟨row', ?_, hsta⟩
    rw [lookups_after, if_pos rfl]
    apply mem_append_right
    rw [hk.2, hrow']
    exact mem_singleton_self _
  | _ => cases hfound

def finality : Coro.Contract (Coordinator Session) Event where
  inv := Settled
  allowed := LookedUpSince
  rely i m n := lookups i n.trace = lookups i m.trace
  refl _ _ := rfl
  trans _ _ _ _ h k := k.trans h

theorem settled_step (h : Settled m) (hk : Honest P m.shared r) (hl : Lasting r.2.action)
    (ha : LookedUpSince m i r.2) (hopen : ∀ k ∈ r.2.action.admits, Open i k m.trace) :
    finality.Fair i m (m.after i r) := by
  have hunr : ∀ k ∈ r.2.action.admits, ¬ revokedIn k m.trace :=
    fun k hadm => h.unrevoked (hopen k hadm) (ha k hadm)
  refine ⟨⟨h.stands_after hk hl hunr, fun j k => h.seen_after hk k, ?_⟩, ?_⟩
  · intro pre x post cert hspl hcert
    rcases eq_nil_or_concat post with rfl | ⟨post, z, rfl⟩
    · obtain ⟨rfl, hx⟩ := append_inj' hspl rfl
      cases hx
      exact hunr cert.devicePubkey (by rw [hcert]; rfl)
    have hspl' : m.trace ++ [⟨i, m.shared, r.2⟩] = (pre ++ x :: post) ++ [z] :=
      hspl.trans (by simp)
    obtain ⟨htra, _⟩ := append_inj' hspl' rfl
    exact h.uncertified pre x post cert htra hcert
  intro j hj
  change lookups j _ = _
  rw [lookups_after, if_neg (Ne.symm hj), append_nil]

/-- A task that has looked nothing up, or whose lookups leave the devices `k` open, and which admits no others. -/
structure Admitting (k : Option Bytes) (a : Action) : Prop where
  lasting : Lasting a
  lookup : a.lookup = none
  admits : ∀ k' ∈ a.admits, k' ∈ k

def Opened (i : Coro.TaskId) (k : Option Bytes) (m : Coro.Moment (Coordinator Session) Event) : Prop :=
  ∀ k' ∈ k, Open i k' m.trace

theorem keeps_admitting {k : Option Bytes} {A : List (Bytes × Option DeviceRow) → Prop} {x : Act Session α}
    (hx : Acts P (Admitting k) x) (hA : ∀ m : Coro.Moment (Coordinator Session) Event, A (lookups i m.trace) → Opened i k m)
    (h : A (lookups i m.trace)) : Coro.Keeps finality i (fun _ n => A (lookups i n.trace)) x.run m := by
  apply Coro.Keeps.of_all _ _ hx h
  · intro m n hm hr _
    rw [hr]
    exact hm
  intro n r hn hAn hk ha
  refine ⟨settled_step hn hk.1 hk.2.lasting ha (fun k' hk' => hA n hAn k' (hk.2.admits k' hk')), ?_⟩
  rw [lookups_after, if_pos rfl, hk.2.lookup]
  simpa using hAn

end Steps

section Calls

variable (S : Service Session) {m : Coro.Moment (Coordinator Session) Event} {i : Coro.TaskId}

abbrev Respects (i : Coro.TaskId) (x : Act Session α) : Prop :=
  ∀ m : Coro.Moment (Coordinator Session) Event, lookups i m.trace = [] →
    Coro.Keeps finality i (fun _ _ => True) x.run m

theorem opened_of_none (h : lookups i m.trace = []) {k : Option Bytes} : Opened i k m := by
  intro k' _ row hrow
  rw [h] at hrow
  cases hrow

theorem keeps_quiet {P : Platform} {x : Act Session α} (hx : Acts P (Admitting none) x)
    (m : Coro.Moment (Coordinator Session) Event) : Coro.Keeps finality i (fun _ _ => True) x.run m :=
  (keeps_admitting hx (A := fun _ => True) (fun _ _ => by rintro _ ⟨⟩) trivial).mono (fun _ _ _ => trivial)

theorem keeps_lookup (P : Platform) (k : Bytes) (h : lookups i m.trace = []) : Coro.Keeps finality i
    (Coro.post (fun row n => lookups i n.trace = [(k, row)]) (fun _ _ => True))
    (getDevice k : Act Session (Option DeviceRow)).run m := by
  apply keeps_statement
  · intro row n l hn hr _
    exact hr.trans hn
  · exact fun _ _ _ _ _ _ => trivial
  · intro n hr hn t row hrow ha
    cases hrow
    refine ⟨settled_step (P := P) hn ⟨⟨rfl, rfl⟩, rfl⟩ trivial ha (by rintro _ ⟨⟩), ?_⟩
    rw [lookups_after, if_pos rfl, hr, h]
    rfl
  · intro n hr hn t e c a hca ha
    rcases hca with ⟨rfl, rfl⟩ | ⟨rfl, rfl⟩
    · exact ⟨settled_step (P := P) hn ⟨rfl, rfl⟩ trivial ha (by rintro _ ⟨⟩), trivial⟩
    · exact ⟨settled_step (P := P) hn ⟨⟨rfl, rfl⟩, rfl⟩ trivial ha (by rintro _ ⟨⟩), trivial⟩

theorem admits_finish (existingDevice : Option DeviceRow) (handle : String) (k : Bytes) (label inviteCode : Cbor)
    (m2 : Bytes) : Acts S.platform (Admitting (some k)) (do
      S.bindDevice existingDevice handle k label inviteCode
      let cert ← S.issueCert handle k []
      return Reply.certificate cert m2) := by
  have hqui : ∀ {a : Action}, Lasting a → a.lookup = none → a.admits = none → Admitting (some k) a := by
    intro a hl hloo hadm
    refine ⟨hl, hloo, ?_⟩
    rw [hadm]
    rintro _ ⟨⟩
  have hnot : Admitting (some k) .nothing := hqui trivial rfl rfl
  apply Acts.bind
  · rw [Service.bindDevice.eq_def]
    split
    · apply Acts.bind
      · exact Acts.userHasDevices _ _ hnot (fun _ => hqui trivial rfl rfl)
      intro any
      apply Acts.bind
      · rw [Service.pairWithInvite]
        split
        · exact Acts.pure _
        split
        · exact Acts.throw _
        apply Acts.bind
        · rw [Service.redeem.eq_def]
          split
          · exact Acts.consumeInvitation _ _ hnot (fun _ => hqui trivial rfl rfl)
              (fun _ => hqui trivial rfl rfl) (hqui trivial rfl rfl) (fun _ => hqui trivial rfl rfl)
          · exact Acts.throw _
        intro inv
        split
        · exact Acts.throw _
        split
        · exact Acts.throw _
        · exact Acts.pure _
      · exact fun _ => Acts.addDevice _ _ _ _ hnot (fun _ => ⟨trivial, rfl, fun _ h => h⟩) (hqui trivial rfl rfl)
    · split
      · exact Acts.throw _
      · apply Acts.catching
        · exact Acts.touchDevice _ _ hnot (fun _ => hqui trivial rfl rfl) (hqui trivial rfl rfl)
        · intro e
          split
          · exact Acts.pure _
          · exact Acts.throw _
  intro _
  apply Acts.bind
  · apply Acts.atomic
    intro t c e
    split
    · exact ⟨⟨rfl, rfl⟩, hnot⟩
    · exact ⟨⟨rfl, rfl⟩, trivial, rfl, fun _ h => h⟩
  · exact fun _ => Acts.pure _

theorem respects_loginFinish (params : Params) (peerNodeId : String) :
    Respects i (S.loginFinish params peerNodeId) := by
  intro m hm
  have hrai : ∀ {n : Coro.Moment (Coordinator Session) Event} (e : Exn), Coro.Keeps finality i (fun _ _ => True)
      (.done (.error e) : Coro Turn (Coordinator Session) Event (Except Exn Reply)) n := fun _ _ _ _ => trivial
  have hlift : ∀ {γ : Type} (x : Except Exn γ) (f : γ → Act Session Reply) {n : Coro.Moment (Coordinator Session) Event},
      (∀ a, Coro.Keeps finality i (fun _ _ => True) (f a).run n) →
      Coro.Keeps finality i (fun _ _ => True) (Service.lift x >>= f).run n := by
    intro γ x f n hf
    cases x with
    | ok a => exact hf a
    | error e => exact hrai e
  apply hlift
  intro stateId
  apply hlift
  intro ke3
  apply hlift
  intro devicePubkey
  apply hlift
  intro _
  apply Coro.Keeps.andThen
  have htake := takeLogin S stateId ke3 devicePubkey (T := Admitting none) ⟨trivial, rfl, by rintro _ ⟨⟩⟩
    (fun _ => ⟨trivial, rfl, by rintro _ ⟨⟩⟩)
  apply (keeps_admitting htake (A := (· = [])) (fun _ hn => opened_of_none hn) hm).mono
  intro login n hn
  cases login with
  | error e => exact hrai e
  | ok login =>
    apply (keeps_lookup S.platform devicePubkey hn).through _ (fun e _ _ => hrai e)
    intro row n hn
    by_cases hrow : ∃ d, row = some d ∧ d.status = .revoked
    · obtain ⟨d, rfl, hd⟩ := hrow
      rw [Service.bindDevice.eq_def]
      dsimp only
      rw [if_pos (by rw [hd]; decide)]
      exact hrai _
    apply (keeps_admitting (admits_finish S row _ devicePubkey _ _ _) (A := (· = [(devicePubkey, row)])) _ hn).mono
    · exact fun _ _ _ => trivial
    intro l hl k hk d hd
    cases hk
    rw [hl] at hd
    cases mem_singleton.mp hd
    exact fun hsta => hrow ⟨d, rfl, hsta⟩

theorem respects_handleOneRpc (request : Request)
    (h : ∀ params, Respects i (S.handler request.method params request.peerNodeId)) :
    Respects i (S.handleOneRpc request) := by
  intro m hm
  have hans : ∀ (response : Response) (n : Coro.Moment (Coordinator Session) Event),
      Coro.Keeps finality i (fun _ _ => True) (do
        let _ ← mark (.answered (Service.Response.ok response))
        return response : Act Session Response).run n := by
    intro response
    apply keeps_quiet (P := S.platform)
    apply Acts.bind
    · apply Acts.mark
      · exact fun _ _ => ⟨rfl, rfl⟩
      · exact ⟨trivial, rfl, by rintro _ ⟨⟩⟩
    · exact fun _ => pure _
  apply Coro.Keeps.through (B := fun _ _ => True) (Z := fun _ _ => True)
  · apply Coro.Keeps.catching
    apply Coro.Keeps.andThen
    apply Coro.Keeps.mono (Q := fun _ _ => True)
    · rw [Service.dispatch]
      split
      · exact h _ m hm
      split
      · exact h _ m hm
      · exact fun _ _ _ => trivial
    intro r n _
    cases r with
    | ok reply => exact fun _ _ _ _ _ _ => trivial
    | error e => exact fun _ _ _ => (keeps_quiet (failure S.platform e) _).mono (fun r _ _ => by cases r <;> trivial)
  · exact fun response n _ => hans response n
  · exact fun _ _ _ _ _ _ => trivial

theorem respects_answer (call : Call) : Respects i (S.answer call) := by
  have hqui : ∀ {a : Action}, Lasting a → a.lookup = none → a.admits = none → Admitting none a := by
    intro a hl hloo hadm
    refine ⟨hl, hloo, ?_⟩
    rw [hadm]
    rintro _ ⟨⟩
  have hdone : ∀ {γ : Type} {x : Act Session γ}, Respects i x → Respects i (do let _ ← x : Act Session Unit) := by
    intro γ x hx m hm
    apply Coro.Keeps.andThen
    apply (hx m hm).mono
    intro r n _
    cases r with
    | ok _ | error _ => exact fun _ _ _ => trivial
  cases call with
  | loginInit params peerNodeId =>
    apply hdone
    apply respects_handleOneRpc
    exact fun params m _ => keeps_quiet (loginInit S params (hqui trivial rfl rfl)) m
  | loginFinish params peerNodeId =>
    apply hdone
    apply respects_handleOneRpc
    exact fun params => respects_loginFinish S params _
  | revokeDevice devicePubkey =>
    apply hdone
    intro m _
    apply keeps_quiet (P := S.platform)
    exact Acts.revokeDevice _ _ (hqui trivial rfl rfl) (hqui trivial rfl rfl) (hqui trivial rfl rfl)

/-- However logins and revocations interleave, a device whose revocation was committed is never active again and
never certified, where every login looks its device up after the last revocation of it. -/
theorem revocations_final {calls : Coro.TaskId → Call} {c : Coordinator Session}
    {q : Coro.Pool Turn (Coordinator Session) Event (Except Exn Unit)}
    (h : Runs.ReachesUnder Coro.Pool.next (Coro.Pool.Allowed LookedUpSince) (S.answering calls c) q) :
    RevocationsFinal q.now := by
  have hsou : Coro.Pool.Sound finality (S.answering calls c) := by
    refine ⟨⟨by rintro _ ⟨⟩, by rintro _ _ ⟨⟩, ?_⟩, fun j => respects_answer S (calls j) _ rfl⟩
    intro pre x post cert hspl
    exact absurd (append_eq_nil_iff.mp hspl.symm).2 (cons_ne_nil _ _)
  exact (hsou.reaches h).1.final

end Calls

section Run

def newcomer : Db where
  coordinatorNodeId := none
  users := Dict.empty.set "alice" ⟨"alice", [1], "srp6a", .active, 0⟩
  devices := Dict.empty
  agents := Dict.empty
  invitations := Dict.empty

def revoking (i : Coro.TaskId) : Call :=
  if i = 2 then .revokeDevice laptop
  else .loginFinish (.map [(.text "state_id", .text (if i = 0 then "s" else "t")), (.text "ke3", .bytes [1]),
    (.text "device_pubkey", .bytes laptop)]) "inproc:a"

def twoLogins : Coro.Pool Turn (Coordinator Bytes) Event (Except Exn Unit) :=
  Service.sample.answering revoking
    ⟨newcomer, newcomer, (Dict.empty.set "s" ⟨"alice", [1], 0⟩).set "t" ⟨"alice", [1], 0⟩⟩

def oneByOne : List (Coro.TaskId × Turn) :=
  List.replicate 6 (0, { now := 1 }) ++ List.replicate 2 (2, { now := 2 }) ++ List.replicate 2 (1, { now := 3 })

def crossed : List (Coro.TaskId × Turn) :=
  List.replicate 3 (0, { now := 1 }) ++ List.replicate 3 (1, { now := 1 }) ++ List.replicate 3 (0, { now := 1 }) ++
    List.replicate 2 (2, { now := 2 }) ++ List.replicate 3 (1, { now := 3 })

theorem revoked_laptop_stays_out : ∃ q, Runs.run Coro.Pool.next twoLogins oneByOne = some q ∧
    RevocationsFinal q.now := by
  have hrun : (Runs.run Coro.Pool.next twoLogins oneByOne).isSome := by decide
  obtain ⟨q, hq⟩ := isSome_iff_exists.mp hrun
  exact ⟨q, hq, revocations_final Service.sample (Runs.reachesUnder_of_all (by decide) hq)⟩

instance {status : DeviceStatus} {roster : Db} {devicePubkey : Bytes} :
    Decidable (HasStatus status roster devicePubkey) :=
  inferInstanceAs (Decidable (∃ row ∈ roster.devices.get? devicePubkey, row.status = status))

theorem revoked_laptop_comes_back : ∃ q, Runs.run Coro.Pool.next twoLogins crossed = some q ∧
    ¬ RevocationsFinal q.now := by
  have hrun : (Runs.run Coro.Pool.next twoLogins crossed).map (fun q =>
      revokedIn laptop q.now.trace && decide (HasStatus .active q.now.shared.committed laptop)) = some true := by
    decide
  obtain ⟨q, hq, hresult⟩ := map_eq_some_iff.mp hrun
  obtain ⟨hrev, hact⟩ := (Bool.and_eq_true_iff ..).mp hresult
  exact ⟨q, hq, fun h => (h.inactive laptop hrev).2 (of_decide_eq_true hact)⟩

end Run

end OpenAgent.Identity
