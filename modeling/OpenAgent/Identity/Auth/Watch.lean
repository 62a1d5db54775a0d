import OpenAgent.Identity.Auth.Middleware

namespace OpenAgent.Identity.Auth

open Py List Middleware Mark

namespace Mark

def disconnects (device : Bytes) : Mark → Bool
  | disconnected d => d = device
  | _ => false

def admission? : Mark → Option Annotations
  | verdict (.handed (some a)) => if a.authKind = .deviceCert then some a else none
  | _ => none

def plain : Mark → Bool
  | snapshot _ _ => false
  | m => m.admission?.isNone

end Mark

abbrev Log := List (TaskId × Mark)

def disconnections (device : Bytes) (log : Log) : Nat := log.countP (fun x => x.2.disconnects device)

def Unbroken (log : Log) : Prop :=
  ∀ pre i m post a, log = pre ++ (i, m) :: post → m.admission? = some a →
    ∃ e before between, a.deviceAuthEpoch = some e ∧
      pre = before ++ (i, .snapshot a.deviceCert.devicePubkey e) :: between ∧
      disconnections a.deviceCert.devicePubkey between = 0

def Admitted (log : Log) (device : Bytes) (epoch : Nat) : Prop :=
  ∃ x ∈ log, ∃ a ∈ x.2.admission?, a.deviceCert.devicePubkey = device ∧
    a.deviceCert.capabilities.contains "bridge" = false ∧ a.deviceAuthEpoch = some epoch

def Watched (g : Gateway) : Prop :=
  ∀ device, Admitted g.marks device (g.auth.deviceEpoch device) → device ∈ g.auth.observedActiveDevices

def Spares (g : Gateway) (x : TaskId × Turn) : Prop :=
  ∀ key, g.stages x.1 = .looking key → (x.2.lookup key).active = .ok false →
    ¬ Admitted g.marks key (g.auth.deviceEpoch key)

/-- From here on the next revalidation that runs to its end without a proof that a watched device is active
advances the device's epoch and notifies every listener, whatever happens in between. -/
def Followed (G : Middleware) (g : Gateway) : Prop :=
  ∀ i t v es w t' w', g.stages i = .start .revalidateObservedDevices → g.next G (i, t) = some v →
    Runs.run (Gateway.next G) v es = some w → (∀ x ∈ es, x.1 ≠ i) → w.next G (i, t') = some w' →
    (∀ key ∈ g.auth.observedActiveDevices, (t'.lookup key).active ≠ .error false) →
    ∀ key ∈ g.auth.observedActiveDevices, (t'.lookup key).active ≠ .ok true →
      w.auth.deviceEpoch key < w'.auth.deviceEpoch key ∧
        ∃ new, w'.marks = w.marks ++ new ∧ ∀ l ∈ w.auth.revocationListeners, (i, .notified l key) ∈ new

variable {m : Mark}

section Log

variable {log : Log} {device : Bytes} {x : TaskId × Mark} {e : Nat}

theorem disconnections_append (log new : Log) :
    disconnections device (log ++ new) = disconnections device log + disconnections device new := countP_append

theorem admitted_append {new : Log} : Admitted (log ++ new) device e ↔ Admitted log device e ∨ Admitted new device e := by
  simp only [Admitted, mem_append, or_and_right, exists_or]

theorem admission_of_plain (h : m.plain = true) : m.admission? = none := by
  cases m with
  | snapshot d e => cases h
  | _ => exact Option.isNone_iff_eq_none.mp h

end Log

section Ledgers

variable {l l' l'' : Ledger} {new new' : List Mark} {key : Bytes}

/-- Within a turn a watch is lost only where the device is disconnected. -/
structure Follows (l l' : Ledger) (new : List Mark) : Prop where
  marks : l'.marks = l.marks ++ new
  listeners : l'.state.revocationListeners = l.state.revocationListeners
  epochs : ∀ k, l'.state.deviceEpoch k = l.state.deviceEpoch k + new.countP (Mark.disconnects k)
  watch : ∀ k ∈ l.state.observedActiveDevices, k ∈ l'.state.observedActiveDevices ∨ Mark.disconnected k ∈ new
  plain : ∀ m ∈ new, m.plain = true

namespace Follows

theorem refl : Follows l l [] := ⟨(append_nil _).symm, rfl, fun _ => rfl, fun _ => .inl, by rintro _ ⟨⟩⟩

theorem trans (h : Follows l l' new) (h' : Follows l' l'' new') : Follows l l'' (new ++ new') := by
  refine ⟨?_, h'.listeners.trans h.listeners, fun k => ?_, fun k hk => ?_, fun m hm => ?_⟩
  · rw [h'.marks, h.marks, append_assoc]
  · rw [h'.epochs, h.epochs, countP_append, Nat.add_assoc]
  · rcases h.watch k hk with hk | hk
    · exact (h'.watch k hk).imp_right (mem_append_right _)
    · exact .inr (mem_append_left _ hk)
  · rcases mem_append.mp hm with hm | hm
    · exact h.plain m hm
    · exact h'.plain m hm

theorem note (hp : m.plain = true) (hd : ∀ k, m.disconnects k = false) : Follows l (l.note m) [m] := by
  refine ⟨rfl, rfl, fun k => ?_, fun _ => .inl, by simpa using hp⟩
  simp only [countP_cons, countP_nil, hd]
  rfl

theorem observe : Follows l { l with state := l.state.observe key } [] :=
  ⟨(append_nil _).symm, rfl, fun _ => rfl, fun _ hk => .inl (mem_insert_of_mem hk), by rintro _ ⟨⟩⟩

abbrev closing (listeners : List Listener) (key : Bytes) : List Mark :=
  .disconnected key :: listeners.map (.notified · key)

theorem countP_closing (listeners : List Listener) (k : Bytes) :
    (closing listeners key).countP (Mark.disconnects k) = if k = key then 1 else 0 := by
  have hrest : (listeners.map (notified · key)).countP (disconnects k) = 0 := by
    rw [countP_eq_zero]
    intro m hm
    obtain ⟨_, _, rfl⟩ := mem_map.mp hm
    exact Bool.false_ne_true
  rw [countP_cons, hrest, Nat.zero_add]
  by_cases h : k = key
  · simp [disconnects, h]
  · simp [disconnects, h, Ne.symm h]

theorem disconnect_epochs (k : Bytes) : (l.disconnect key).state.deviceEpoch k =
    l.state.deviceEpoch k + (closing l.state.revocationListeners key).countP (Mark.disconnects k) := by
  rw [countP_closing, Ledger.disconnect, NetworkAuthState.deviceEpoch, Dict.get?_set]
  split
  · rename_i hk
    rw [hk]
    rfl
  · rfl

theorem closing_plain {listeners : List Listener} : ∀ m ∈ closing listeners key, m.plain = true := by
  intro m hm
  rcases mem_cons.mp hm with rfl | hm
  · rfl
  · obtain ⟨_, _, rfl⟩ := mem_map.mp hm
    rfl

theorem disconnect : Follows l (l.disconnect key) (closing l.state.revocationListeners key) :=
  ⟨rfl, rfl, disconnect_epochs, fun _ => .inl, closing_plain⟩

theorem of_discard (k : Bytes) (hk : k ∈ l.state.observedActiveDevices) :
    k ∈ (l.discard key).state.observedActiveDevices ∨ .disconnected k ∈ closing l.state.revocationListeners key := by
  by_cases h : k = key
  · subst h
    exact .inr mem_cons_self
  · exact .inl (mem_filter.mpr ⟨hk, by simpa using h⟩)

theorem close : Follows l ((l.discard key).disconnect key) (closing l.state.revocationListeners key) :=
  ⟨rfl, rfl, fun k => disconnect_epochs k, of_discard, closing_plain⟩

theorem revoke : Follows l (l.revoke key) (closing l.state.revocationListeners key) :=
  ⟨rfl, rfl, fun k => disconnect_epochs k, of_discard, closing_plain⟩

theorem closeInactive (results : List (Bytes × Bool)) : ∃ new, Follows l (l.closeInactive results) new ∧
    ∀ k, (k, false) ∈ results → ∀ m ∈ closing l.state.revocationListeners k, m ∈ new := by
  induction results generalizing l with
  | nil => exact ⟨[], refl, by rintro _ ⟨⟩⟩
  | cons p results ih =>
    obtain ⟨k, active⟩ := p
    cases active with
    | true =>
      obtain ⟨new, hnew, hall⟩ := ih (l := l)
      exact ⟨new, hnew, fun d hd => hall d (by simpa using hd)⟩
    | false =>
      obtain ⟨new, hnew, hall⟩ := ih (l := (l.discard k).disconnect k)
      refine ⟨_, close.trans hnew, fun d hd m hm => ?_⟩
      rcases mem_cons.mp hd with heq | hd
      · cases heq
        exact mem_append_left _ hm
      · exact mem_append_right _ (hall d hd m hm)

end Follows

end Ledgers

section Steps

variable {G : Middleware} {g g' : Gateway} {i : TaskId} {t : Turn} {stage : Stage} {l : Ledger}

inductive Effect (g : Gateway) (i : TaskId) (t : Turn) : Stage → Ledger → Prop
  | follows {stage : Stage} {l : Ledger} {new : List Mark} (h : Follows ⟨g.auth, []⟩ l new)
      (hstage : ∀ cert e, stage ≠ .authenticating cert e)
      (hlook : ∀ key, g.stages i = .looking key → (t.lookup key).active ≠ .ok false) : Effect g i t stage l
  | waits {cert : DeviceCert} (hstage : ∀ key, g.stages i ≠ .looking key)
      (hcert : cert.capabilities.contains "bridge" = false) :
      Effect g i t (.authenticating cert (g.auth.deviceEpoch cert.devicePubkey))
        ⟨g.auth, [.snapshot cert.devicePubkey (g.auth.deviceEpoch cert.devicePubkey)]⟩
  | bridges {cert : DeviceCert} (hstage : ∀ key, g.stages i ≠ .looking key)
      (hcert : cert.capabilities.contains "bridge" = true) :
      Effect g i t .ended ⟨g.auth, [.snapshot cert.devicePubkey (g.auth.deviceEpoch cert.devicePubkey),
        .verdict (Middleware.annotated cert (some (g.auth.deviceEpoch cert.devicePubkey)) .deviceCert cert.networkId)]⟩
  | admits {cert : DeviceCert} (hstage : g.stages i = .authenticating cert (g.auth.deviceEpoch cert.devicePubkey)) :
      Effect g i t .ended ⟨g.auth.observe cert.devicePubkey,
        [.verdict (Middleware.annotated cert (some (g.auth.deviceEpoch cert.devicePubkey)) .deviceCert cert.networkId)]⟩
  | forgets {key : Bytes} (hstage : g.stages i = .looking key) (hlook : (t.lookup key).active = .ok false) :
      Effect g i t .ended ⟨g.auth.discard key, [.isActive (.ok false)]⟩

def Denies {α : Type} (x : Except Verdict α) : Prop := ∀ v, x = .error v → (Mark.verdict v).plain = true

namespace Denies

variable {α β : Type}

theorem pure (a : α) : Denies (Pure.pure a : Except Verdict α) := by rintro _ ⟨⟩

theorem throw {v : Verdict} (h : (Mark.verdict v).plain = true) : Denies (MonadExcept.throw v : Except Verdict α) := by
  rintro _ ⟨⟩
  exact h

theorem bind {x : Except Verdict α} {f : α → Except Verdict β} (hx : Denies x) (hf : ∀ a, Denies (f a)) :
    Denies (x >>= f) := by
  cases x with
  | error v => exact fun w hw => hx w (by cases hw; rfl)
  | ok a => exact hf a

theorem guard {c : Prop} [Decidable c] {v : Verdict} {rest : PUnit → Except Verdict α}
    (hv : c → (Mark.verdict v).plain = true) (hrest : Denies (rest ⟨⟩)) :
    Denies (if c then MonadExcept.throw v >>= rest else rest ⟨⟩) := by
  split
  · exact bind (throw (hv ‹c›)) (fun _ => hrest)
  · exact hrest

theorem anyAccepted (candidates accepted : List String) : Denies (anyAccepted candidates accepted) := by
  have hfold : ∀ (pairs : List (String × String)) (found : Bool), Denies (pairs.foldlM
      (fun found p => if found then .ok true else compareDigest p.1 p.2) found) := by
    intro pairs
    induction pairs with
    | nil => exact fun found => pure found
    | cons p pairs ih =>
      intro found
      rw [foldlM_cons]
      apply bind _ ih
      split
      · exact pure true
      rw [compareDigest]
      split
      · exact pure _
      · exact throw rfl
  exact hfold _ false

theorem deviceCert (r : Request) : Denies (G.deviceCert r t) := by
  rw [Middleware.deviceCert]
  apply guard (fun _ => rfl)
  apply bind
  · rw [verified]
    split
    · exact pure _
    · exact throw rfl
    · exact throw rfl
  intro cert
  split
  · exact throw rfl
  split
  · exact throw rfl
  · exact pure _

theorem certify (r : Request) (s : NetworkAuthState) : Denies (G.certify r t s) := by
  rw [Middleware.certify]
  apply guard (fun _ => rfl)
  apply guard (fun _ => rfl)
  apply bind (anyAccepted _ _)
  intro found
  apply guard (fun _ => rfl)
  apply guard
  · intro _
    rw [agentAccess]
    split
    · rfl
    · rfl
  · apply bind (deviceCert r)
    exact fun cert => guard (fun _ => rfl) (pure cert)

end Denies

theorem judge_unchanged {cert : DeviceCert} {epoch : Nat} (h : l.state.deviceEpoch cert.devicePubkey = epoch) :
    Middleware.judge cert epoch (.ok true) l =
      l.note (.verdict (Middleware.annotated cert (some epoch) .deviceCert cert.networkId)) :=
  if_neg (not_not_intro h)

theorem judge_changed {cert : DeviceCert} {epoch : Nat} (h : l.state.deviceEpoch cert.devicePubkey ≠ epoch) :
    Middleware.judge cert epoch (.ok true) l = l.note (.verdict (.response 401 "device authorization changed")) :=
  if_pos h

theorem Effect.of_follows {new : List Mark} (hlook : ∀ key, g.stages i ≠ .looking key)
    (hstage : ∀ cert e, stage ≠ .authenticating cert e) (h : Follows ⟨g.auth, []⟩ l new) : Effect g i t stage l :=
  .follows h hstage (fun key hkey => absurd hkey (hlook key))

theorem begin_effect {call : Call} (hl : G.hasLookup = true) (hstage : g.stages i = .start call) :
    Effect g i t (G.begin call t ⟨g.auth, []⟩).1 (G.begin call t ⟨g.auth, []⟩).2 := by
  have hlook : ∀ key, g.stages i ≠ .looking key := by
    intro key hkey
    rw [hstage] at hkey
    cases hkey
  have hend : ∀ cert e, Stage.ended ≠ .authenticating cert e := by rintro _ _ ⟨⟩
  have hnote : ∀ {m : Mark}, m.plain = true → (∀ k, m.disconnects k = false) →
      Effect g i t .ended (Ledger.note ⟨g.auth, []⟩ m) :=
    fun hp hd => .of_follows hlook hend (Follows.note hp hd)
  cases call with
  | authMiddleware r =>
    rw [begin]
    cases hcert : G.certify r t g.auth with
    | error v => exact hnote (Denies.certify r g.auth v hcert) (fun _ => rfl)
    | ok cert =>
      dsimp only
      cases hbri : cert.capabilities.contains "bridge" with
      | true =>
        have hepo : (Ledger.note ⟨g.auth, []⟩ (.snapshot cert.devicePubkey
            (g.auth.deviceEpoch cert.devicePubkey))).state.deviceEpoch cert.devicePubkey =
            g.auth.deviceEpoch cert.devicePubkey := rfl
        rw [if_pos rfl, judge_unchanged hepo]
        exact .bridges hlook hbri
      | false =>
        rw [if_neg Bool.false_ne_true, if_pos hl]
        exact .waits hlook hbri
  | deviceIsActive key =>
    rw [begin, if_pos hl]
    exact .of_follows hlook (by rintro _ _ ⟨⟩) Follows.refl
  | requestDeviceStillAuthorized annotations cert =>
    rw [begin]
    split
    · exact hnote rfl (fun _ => rfl)
    dsimp only
    split
    · exact hnote rfl (fun _ => rfl)
    split
    · exact hnote rfl (fun _ => rfl)
    split
    · exact hnote rfl (fun _ => rfl)
    · exact .of_follows hlook (by rintro _ _ ⟨⟩) Follows.refl
  | revalidateObservedDevices =>
    rw [begin]
    split
    · exact hnote rfl (fun _ => rfl)
    · exact .of_follows hlook (by rintro _ _ ⟨⟩) Follows.refl
  | revoke key => exact .of_follows hlook hend Follows.revoke
  | disconnect key => exact .of_follows hlook hend Follows.disconnect

theorem advance_effect (hl : G.hasLookup = true) (h : G.advance (g.stages i) t ⟨g.auth, []⟩ = some (stage, l)) :
    Effect g i t stage l := by
  have hend : ∀ cert e, Stage.ended ≠ .authenticating cert e := by rintro _ _ ⟨⟩
  cases hstage : g.stages i with
  | start call =>
    rw [hstage] at h
    obtain ⟨rfl, rfl⟩ := Prod.mk.inj (Option.some.inj h)
    exact begin_effect hl hstage
  | authenticating cert epoch =>
    rw [hstage] at h
    have hlook : ∀ key, g.stages i ≠ .looking key := by
      intro key hkey
      rw [hstage] at hkey
      cases hkey
    cases h
    cases (t.lookup cert.devicePubkey).active with
    | error isException =>
      cases isException with
      | false | true => exact .of_follows hlook hend (Follows.note rfl (fun _ => rfl))
    | ok active =>
      cases active with
      | false => exact .of_follows hlook hend (Follows.close.trans (Follows.note rfl (fun _ => rfl)))
      | true =>
        dsimp only [Ledger.deviceIsActive]
        by_cases hepo : (g.auth.observe cert.devicePubkey).deviceEpoch cert.devicePubkey = epoch
        · rw [judge_unchanged hepo]
          subst hepo
          exact .admits hstage
        · rw [judge_changed hepo]
          exact .of_follows hlook hend (Follows.observe.trans (Follows.note rfl (fun _ => rfl)))
  | looking key =>
    rw [hstage] at h
    cases h
    cases hact : (t.lookup key).active with
    | error isException =>
      refine .follows (Follows.note rfl (fun _ => rfl)) hend ?_
      intro k hk
      rw [hstage] at hk
      cases hk
      rw [hact]
      rintro ⟨⟩
    | ok active =>
      cases active with
      | false => exact .forgets hstage hact
      | true =>
        refine .follows (Follows.observe.trans (Follows.note rfl (fun _ => rfl))) hend ?_
        intro k hk
        rw [hstage] at hk
        cases hk
        rw [hact]
        rintro ⟨⟩
  | confirming cert expected =>
    rw [hstage] at h
    have hlook : ∀ key, g.stages i ≠ .looking key := by
      intro key hkey
      rw [hstage] at hkey
      cases hkey
    cases h
    cases (t.lookup cert.devicePubkey).active with
    | error isException =>
      cases isException with
      | false => exact .of_follows hlook hend Follows.refl
      | true => exact .of_follows hlook hend (Follows.disconnect.trans (Follows.note rfl (fun _ => rfl)))
    | ok active =>
      cases active with
      | false => exact .of_follows hlook hend (Follows.close.trans (Follows.note rfl (fun _ => rfl)))
      | true => exact .of_follows hlook hend (Follows.observe.trans (Follows.note rfl (fun _ => rfl)))
  | polling keys =>
    rw [hstage] at h
    have hlook : ∀ key, g.stages i ≠ .looking key := by
      intro key hkey
      rw [hstage] at hkey
      cases hkey
    cases h
    split
    · exact .of_follows hlook hend Follows.refl
    · obtain ⟨_, hfol, _⟩ := Follows.closeInactive (l := ⟨g.auth, []⟩) ‹List (Bytes × Bool)›
      exact .of_follows hlook hend (hfol.trans (Follows.note rfl (fun _ => rfl)))
  | ended =>
    rw [hstage] at h
    cases h

end Steps

section Invariant

variable {G : Middleware} {g g' : Gateway} {i : TaskId} {t : Turn} {log new : Log} {device : Bytes} {e : Nat}

def Snapped (log : Log) : Prop :=
  ∀ pre i device e post, log = pre ++ (i, .snapshot device e) :: post → e = disconnections device pre

structure Sound (g : Gateway) : Prop where
  counted : ∀ device, g.auth.deviceEpoch device = disconnections device g.marks
  snapped : Snapped g.marks
  unbroken : Unbroken g.marks
  waiting : ∀ i cert e, g.stages i = .authenticating cert e → (i, .snapshot cert.devicePubkey e) ∈ g.marks

theorem split_append {pre post : Log} {x : TaskId × Mark} (h : log ++ new = pre ++ x :: post) :
    (∃ rest, log = pre ++ x :: rest) ∨ ∃ between, pre = log ++ between ∧ new = between ++ x :: post := by
  rcases append_eq_append_iff.mp h with ⟨rest, hpre, hnew⟩ | ⟨rest, hlog, hpost⟩
  · exact .inr ⟨rest, hpre, hnew⟩
  cases rest with
  | nil => exact .inr ⟨[], by rw [hlog, append_nil, append_nil], hpost.symm⟩
  | cons y rest =>
    obtain ⟨rfl, rfl⟩ := List.cons.inj hpost
    exact .inl ⟨rest, hlog⟩

theorem Snapped.append (h : Snapped log) (hnew : ∀ pre j k e post, new = pre ++ (j, .snapshot k e) :: post →
    e = disconnections k (log ++ pre)) : Snapped (log ++ new) := by
  intro pre j k e post hspl
  rcases split_append hspl with ⟨rest, hlog⟩ | ⟨between, rfl, hrest⟩
  · exact h pre j k e rest hlog
  · exact hnew between j k e post hrest

theorem Unbroken.append (h : Unbroken log) (hnew : ∀ pre j m post a, new = pre ++ (j, m) :: post →
    m.admission? = some a → ∃ e before between, a.deviceAuthEpoch = some e ∧
      log ++ pre = before ++ (j, .snapshot a.deviceCert.devicePubkey e) :: between ∧
      disconnections a.deviceCert.devicePubkey between = 0) : Unbroken (log ++ new) := by
  intro pre j m post a hspl ha
  rcases split_append hspl with ⟨rest, hlog⟩ | ⟨between, rfl, hrest⟩
  · exact h pre j m rest a hlog ha
  · exact hnew between j m post a hrest ha

theorem Snapped.concat (h : Snapped log) (hm : ∀ k e, m = .snapshot k e → e = disconnections k log) :
    Snapped (log ++ [(i, m)]) := by
  apply h.append
  intro pre j k e post hspl
  cases pre with
  | nil =>
    cases hspl
    rw [append_nil]
    exact hm k e rfl
  | cons y pre => cases pre <;> cases hspl

theorem Unbroken.concat (h : Unbroken log) (hm : ∀ a, m.admission? = some a →
    ∃ e before between, a.deviceAuthEpoch = some e ∧
      log = before ++ (i, .snapshot a.deviceCert.devicePubkey e) :: between ∧
      disconnections a.deviceCert.devicePubkey between = 0) : Unbroken (log ++ [(i, m)]) := by
  apply h.append
  intro pre j m' post a hspl ha
  cases pre with
  | nil =>
    cases hspl
    rw [append_nil]
    exact hm a ha
  | cons y pre => cases pre <;> cases hspl

variable {marks : List Mark}

theorem plain_of_mem (h : ∀ m ∈ marks, m.plain = true) {pre post : Log} {j : TaskId}
    (hspl : marks.map (fun m => (i, m)) = pre ++ (j, m) :: post) : m.plain = true := by
  have hmem : (j, m) ∈ marks.map (fun m => (i, m)) := by
    rw [hspl]
    exact mem_append_right _ mem_cons_self
  obtain ⟨m', hm', heq⟩ := mem_map.mp hmem
  cases heq
  exact h m hm'

theorem Snapped.plain (h : Snapped log) (hp : ∀ m ∈ marks, m.plain = true) :
    Snapped (log ++ marks.map (fun m => (i, m))) := by
  apply h.append
  intro pre j k e post hspl
  cases plain_of_mem hp hspl

theorem Unbroken.plain (h : Unbroken log) (hp : ∀ m ∈ marks, m.plain = true) :
    Unbroken (log ++ marks.map (fun m => (i, m))) := by
  apply h.append
  intro pre j m post a hspl ha
  rw [admission_of_plain (plain_of_mem hp hspl)] at ha
  cases ha

theorem disconnections_map :
    disconnections device (marks.map (fun m => (i, m))) = marks.countP (Mark.disconnects device) := countP_map

theorem next_cases (h : g.next G (i, t) = some g') : ∃ stage l, G.advance (g.stages i) t ⟨g.auth, []⟩ = some (stage, l) ∧
    g' = ⟨l.state, fun j => if j = i then stage else g.stages j, g.marks ++ l.marks.map (fun m => (i, m))⟩ := by
  obtain ⟨⟨stage, l⟩, hr, rfl⟩ := Option.map_eq_some_iff.mp h
  exact ⟨stage, l, hr, rfl⟩

theorem disconnections_of_split {before between : Log} {x : TaskId × Mark}
    (hx : x.2.disconnects device = false) (hlog : log = before ++ x :: between)
    (heq : disconnections device before = disconnections device log) : disconnections device between = 0 := by
  have hcou : disconnections device log = disconnections device before + disconnections device between := by
    rw [hlog, disconnections_append, disconnections, disconnections, disconnections, countP_cons, hx]
    rfl
  omega

theorem marks_pair {m' : Mark} : log ++ [m, m'].map (fun m => (i, m)) = (log ++ [(i, m)]) ++ [(i, m')] :=
  (append_assoc log [(i, m)] [(i, m')]).symm

theorem Sound.step (h : Sound g) (hl : G.hasLookup = true) (hg : g.next G (i, t) = some g') : Sound g' := by
  obtain ⟨stage, l, hadv, rfl⟩ := next_cases hg
  have hkept : ∀ {new : Log} {s : Stage}, (∀ cert e, s ≠ .authenticating cert e) → ∀ j cert e,
      (if j = i then s else g.stages j) = .authenticating cert e →
      (j, .snapshot cert.devicePubkey e) ∈ g.marks ++ new := by
    intro new s hs j cert e hj
    split at hj
    · exact absurd hj (hs cert e)
    · exact mem_append_left _ (h.waiting j cert e hj)
  have hend : ∀ cert e, Stage.ended ≠ .authenticating cert e := by rintro _ _ ⟨⟩
  have hsnap : ∀ cert : DeviceCert, Snapped
      (g.marks ++ [(i, .snapshot cert.devicePubkey (g.auth.deviceEpoch cert.devicePubkey))]) := by
    intro cert
    apply h.snapped.concat
    rintro _ _ ⟨⟩
    exact h.counted _
  have hbre : ∀ k e, Unbroken (g.marks ++ [(i, .snapshot k e)]) := by
    intro k e
    apply h.unbroken.concat
    rintro _ ⟨⟩
  cases advance_effect hl hadv with
  | @follows _ _ new hfol hstage _ =>
    have hmar : l.marks = new := hfol.marks
    rw [hmar]
    refine ⟨fun k => ?_, h.snapped.plain hfol.plain, h.unbroken.plain hfol.plain, hkept hstage⟩
    rw [disconnections_append, disconnections_map, ← h.counted]
    exact hfol.epochs k
  | @waits cert _ _ =>
    refine ⟨fun k => ?_, hsnap cert, hbre _ _, ?_⟩
    · rw [disconnections_append, ← h.counted]
      rfl
    intro j cert e hj
    dsimp only at hj
    split at hj
    · cases hj
      subst j
      exact mem_append_right _ mem_cons_self
    · exact mem_append_left _ (h.waiting j cert e hj)
  | @bridges cert _ _ =>
    refine ⟨fun k => ?_, ?_, ?_, hkept hend⟩
    · rw [disconnections_append, ← h.counted]
      rfl
    · rw [marks_pair]
      apply (hsnap cert).concat
      rintro _ _ ⟨⟩
    rw [marks_pair]
    apply (hbre _ _).concat
    rintro _ ⟨⟩
    exact ⟨_, g.marks, [], rfl, rfl, rfl⟩
  | @admits cert hstage =>
    refine ⟨fun k => ?_, ?_, ?_, hkept hend⟩
    · rw [disconnections_append, ← h.counted]
      rfl
    · apply h.snapped.concat
      rintro _ _ ⟨⟩
    apply h.unbroken.concat
    rintro _ ⟨⟩
    obtain ⟨before, between, hlog⟩ := append_of_mem (h.waiting i cert _ hstage)
    refine ⟨_, before, between, rfl, hlog, disconnections_of_split rfl hlog ?_⟩
    rw [← h.snapped before i _ _ between hlog, h.counted]
  | @forgets key _ _ =>
    have hpla : ∀ m ∈ [isActive (.ok false)], m.plain = true := by simp [plain, admission?]
    refine ⟨fun k => ?_, h.snapped.plain hpla, h.unbroken.plain hpla, hkept hend⟩
    rw [disconnections_append, ← h.counted]
    rfl

theorem Sound.admitted_le (h : Sound g) (ha : Admitted g.marks device e) : e ≤ g.auth.deviceEpoch device := by
  obtain ⟨⟨i, m⟩, hx, a, ham, rfl, _, hepo⟩ := ha
  obtain ⟨pre, post, hspl⟩ := append_of_mem hx
  obtain ⟨e', before, between, he', rfl, _⟩ := h.unbroken pre i m post a hspl ham
  cases hepo.symm.trans he'
  rw [h.counted, hspl, h.snapped before i _ e _ (by rw [hspl, append_assoc]; rfl), disconnections_append,
    disconnections_append]
  omega

theorem not_admitted_plain (hp : ∀ m ∈ marks, m.plain = true) : ¬ Admitted (marks.map (fun m => (i, m))) device e := by
  rintro ⟨x, hx, a, ha, _⟩
  obtain ⟨m, hm, rfl⟩ := mem_map.mp hx
  rw [admission_of_plain (hp m hm)] at ha
  cases ha

theorem watched_step (h : Sound g) (hl : G.hasLookup = true) (hw : Watched g) (hg : g.next G (i, t) = some g') :
    Watched g' ↔ Spares g (i, t) := by
  obtain ⟨stage, l, hadv, rfl⟩ := next_cases hg
  have hspa : (∀ key, g.stages i ≠ .looking key) → Spares g (i, t) := fun hstage key hkey => absurd hkey (hstage key)
  cases advance_effect hl hadv with
  | @follows _ _ new hfol _ hlook =>
    refine iff_of_true ?_ (fun key hkey hact => absurd hact (hlook key hkey))
    have hmar : l.marks = new := hfol.marks
    rw [hmar]
    intro k hk
    have hold := (admitted_append.mp hk).resolve_right (not_admitted_plain hfol.plain)
    have hle : l.state.deviceEpoch k ≤ g.auth.deviceEpoch k := h.admitted_le hold
    have hepo : l.state.deviceEpoch k = g.auth.deviceEpoch k + new.countP (disconnects k) := hfol.epochs k
    have hnone : new.countP (disconnects k) = 0 := by omega
    have hsame : l.state.deviceEpoch k = g.auth.deviceEpoch k := by omega
    have hadm : Admitted g.marks k (g.auth.deviceEpoch k) := hsame ▸ hold
    rcases hfol.watch k (hw k hadm) with hwat | hclo
    · exact hwat
    · exact absurd (decide_eq_true rfl) (countP_eq_zero.mp hnone _ hclo)
  | waits hstage _ =>
    refine iff_of_true ?_ (hspa hstage)
    intro k hk
    rcases admitted_append.mp hk with hk | ⟨x, hx, a, ha, _⟩
    · exact hw k hk
    · cases mem_singleton.mp hx
      cases ha
  | bridges hstage hbri =>
    refine iff_of_true ?_ (hspa hstage)
    intro k hk
    rcases admitted_append.mp hk with hk | ⟨x, hx, a, ha, _, hpla, _⟩
    · exact hw k hk
    rcases mem_cons.mp hx with rfl | hx
    · cases ha
    cases mem_singleton.mp hx
    cases ha
    rw [hbri] at hpla
    cases hpla
  | admits hstage =>
    refine iff_of_true ?_ (hspa (by rw [hstage]; rintro _ ⟨⟩))
    intro k hk
    rcases admitted_append.mp hk with hk | ⟨x, hx, a, ha, rfl, _⟩
    · exact mem_insert_of_mem (hw k hk)
    cases mem_singleton.mp hx
    cases ha
    exact mem_insert_self
  | @forgets key hstage hact =>
    have hpla : ∀ m ∈ [isActive (.ok false)], m.plain = true := by simp [plain, admission?]
    have hsame : ∀ {k e}, Admitted (g.marks ++ [isActive (.ok false)].map (fun m => (i, m))) k e ↔
        Admitted g.marks k e := by
      intro k e
      rw [admitted_append, or_iff_left (not_admitted_plain hpla)]
    constructor
    · intro hnext key' hkey hina hadm
      rw [hstage] at hkey
      cases hkey
      have hkept := hnext key (hsame.mpr hadm)
      exact of_decide_eq_true (mem_filter.mp hkept).2 rfl
    intro hcond k hk
    have hold := hsame.mp hk
    refine mem_filter.mpr ⟨hw k hold, ?_⟩
    apply decide_eq_true
    rintro rfl
    exact hcond k hstage hact hold

theorem stage_of_run {es : List (TaskId × Turn)} (h : Runs.run (Gateway.next G) g es = some g')
    (hi : ∀ x ∈ es, x.1 ≠ i) : g'.stages i = g.stages i := by
  induction es generalizing g with
  | nil =>
    cases h
    rfl
  | cons x es ih =>
    rw [Runs.run_cons, Option.bind_eq_some_iff] at h
    obtain ⟨u, hu, h⟩ := h
    rw [ih h (fun y hy => hi y (mem_cons_of_mem _ hy))]
    obtain ⟨stage, l, _, rfl⟩ := next_cases hu
    exact if_neg (Ne.symm (hi x mem_cons_self))

theorem checks_eq {keys : List Bytes} (h : ∀ key ∈ keys, (t.lookup key).active ≠ .error false) :
    ∃ results, keys.mapM (fun key => (check (t.lookup key)).map (fun active => (key, active))) = .ok results ∧
      ∀ key ∈ keys, (t.lookup key).active ≠ .ok true → (key, false) ∈ results := by
  induction keys with
  | nil => exact ⟨[], rfl, by rintro _ ⟨⟩⟩
  | cons key keys ih =>
    obtain ⟨results, hres, hall⟩ := ih (fun k hk => h k (mem_cons_of_mem _ hk))
    obtain ⟨active, hact, hfal⟩ : ∃ active, check (t.lookup key) = .ok active ∧
        ((t.lookup key).active ≠ .ok true → active = false) := by
      have hkey := h key mem_cons_self
      rw [check]
      cases hlook : (t.lookup key).active with
      | error isException =>
        cases isException with
        | false => exact absurd hlook hkey
        | true => exact ⟨false, rfl, fun _ => rfl⟩
      | ok active =>
        refine ⟨active, rfl, fun hne => ?_⟩
        cases active with
        | false => rfl
        | true => exact absurd rfl hne
    refine ⟨(key, active) :: results, ?_, fun k hk hne => ?_⟩
    · rw [mapM_cons, hact, hres]
      rfl
    rcases mem_cons.mp hk with rfl | hk
    · rw [hfal hne]
      exact mem_cons_self
    · exact mem_cons_of_mem _ (hall k hk hne)

theorem followed (hl : G.hasLookup = true) : Followed G g := by
  intro i t v es w t' w' hstage hv hrun hi hw' hrai key hkey hina
  obtain ⟨stage, l, hadv, rfl⟩ := next_cases hv
  rw [hstage, advance, begin] at hadv
  have hwat : (!G.hasLookup || g.auth.observedActiveDevices.isEmpty) = false := by
    rw [hl]
    cases hobs : g.auth.observedActiveDevices with
    | nil =>
      rw [hobs] at hkey
      cases hkey
    | cons => rfl
  rw [if_neg (by rw [hwat]; exact Bool.false_ne_true)] at hadv
  cases hadv
  have hpol : w.stages i = .polling g.auth.observedActiveDevices := by
    rw [stage_of_run hrun hi]
    exact if_pos rfl
  obtain ⟨stage, l, hadv, rfl⟩ := next_cases hw'
  obtain ⟨results, hres, hall⟩ := checks_eq hrai
  rw [hpol, advance, hres] at hadv
  cases hadv
  obtain ⟨new, hfol, hclo⟩ := Follows.closeInactive (l := ⟨w.auth, []⟩) results
  have hmem := hclo key (hall key hkey hina)
  refine ⟨?_, _, rfl, fun listener hlis => ?_⟩
  · have hepo : (Ledger.closeInactive ⟨w.auth, []⟩ results).state.deviceEpoch key =
        w.auth.deviceEpoch key + new.countP (disconnects key) := hfol.epochs key
    have hpos : 0 < new.countP (disconnects key) :=
      countP_pos_iff.mpr ⟨_, hmem _ mem_cons_self, decide_eq_true rfl⟩
    change w.auth.deviceEpoch key < (Ledger.closeInactive ⟨w.auth, []⟩ results).state.deviceEpoch key
    omega
  apply mem_map_of_mem
  have hmar : (Ledger.closeInactive ⟨w.auth, []⟩ results).marks = new := hfol.marks
  apply mem_append_left
  rw [hmar]
  exact hmem _ (mem_cons_of_mem _ (mem_map_of_mem hlis))

theorem sound_opened {revoked : List Bytes} {listeners : List Listener} {calls : TaskId → Call} :
    Sound (.opened (.new revoked listeners) calls) := by
  refine ⟨fun _ => rfl, ?_, ?_, ?_⟩
  · intro pre _ _ _ _ hspl
    cases pre <;> cases hspl
  · intro pre _ _ _ _ hspl
    cases pre <;> cases hspl
  · rintro _ _ _ ⟨⟩

end Invariant

/-- Each admission is at the epoch that its request took down, with no disconnection since; the next revalidation follows
up every watched device; and every device admitted at its current epoch is watched, exactly when no lookup of its own
comes back inactive for such a device. -/
theorem admitted_devices_watched {G : Middleware} (hl : G.hasLookup = true) {revoked : List Bytes}
    {listeners : List Listener} {calls : TaskId → Call} {es : List (TaskId × Turn)} {g : Gateway}
    (h : Runs.run (Gateway.next G) (.opened (.new revoked listeners) calls) es = some g) :
    Unbroken g.marks ∧ Followed G g ∧ ((∀ pre post u, es = pre ++ post →
          Runs.run (Gateway.next G) (.opened (.new revoked listeners) calls) pre = some u → Watched u) ↔
        Runs.Meets (Gateway.next G) Spares (.opened (.new revoked listeners) calls) es) := by
  have hsou : Sound g := Runs.invariant (fun _ _ _ hs hn => hs.step hl hn) sound_opened ⟨es, h⟩
  refine ⟨hsou.unbroken, followed hl, ?_⟩
  apply Runs.always_iff_meets (fun _ _ _ hs hn => hs.step hl hn) _ sound_opened _ h
  · exact fun _ _ _ hs hw hn => watched_step hs hl hw hn
  · rintro _ ⟨_, ⟨⟩, _⟩

section Run

instance {log : Log} {device : Bytes} {epoch : Nat} : Decidable (Admitted log device epoch) :=
  inferInstanceAs (Decidable (∃ x ∈ log, ∃ a ∈ x.2.admission?, _))

def sparing (g : Gateway) (x : TaskId × Turn) : Bool :=
  match g.stages x.1 with
  | .looking key => decide (¬ Admitted g.marks key (g.auth.deviceEpoch key))
  | _ => true

theorem spares_of_test {g : Gateway} {x : TaskId × Turn} (h : sparing g x = true) : Spares g x := by
  intro key hkey _
  rw [sparing, hkey] at h
  exact of_decide_eq_true h

def homeGateway : Middleware where
  networkId := "home"
  httpToken := ""
  llmToken := ""
  hasLookup := true
  verifyCert := fun wire now => .ok ⟨"alice", wire, "home", now, now + 60, []⟩
  irohNodeIdPublicBytes := fun _ => some [7]
  sha256 := id
  checkPeerRequest := fun _ _ _ => some "agent protocol is closed: network.peers is not configured"

def deviceCalls (i : TaskId) : Call :=
  if i = 0 then .authMiddleware { method := "GET", path := "/ws", peerNodeId := "07", certWire := [7] }
  else if i = 1 then .deviceIsActive [7]
  else .disconnect [7]

def activeTurn : Turn := { now := 1, lookup := fun _ => .row (some "active") }

def suspendedFirst : List (TaskId × Turn) :=
  [(0, activeTurn), (1, activeTurn), (0, activeTurn), (2, activeTurn), (1, { now := 2 })]

def foundInactive : List (TaskId × Turn) :=
  [(1, activeTurn), (0, activeTurn), (0, activeTurn), (1, { now := 2 })]

theorem suspended_device_watched : ∃ g,
    Runs.run (Gateway.next homeGateway) (.opened (.new [] [0]) deviceCalls) suspendedFirst = some g ∧
      Unbroken g.marks ∧ Followed homeGateway g ∧ Watched g := by
  have hrun : (Runs.run (Gateway.next homeGateway) (.opened (.new [] [0]) deviceCalls) suspendedFirst).isSome := by
    decide
  obtain ⟨g, hg⟩ := Option.isSome_iff_exists.mp hrun
  obtain ⟨hunb, hfol, hwat⟩ := admitted_devices_watched rfl hg
  have hmee := Runs.meets_of_all (fun _ _ => spares_of_test) (show Runs.all sparing (Gateway.next homeGateway)
    (.opened (.new [] [0]) deviceCalls) suspendedFirst = true by decide)
  exact ⟨g, hg, hunb, hfol, hwat.mpr hmee _ [] g (append_nil _).symm hg⟩

theorem admitted_device_unwatched : ∃ g,
    Runs.run (Gateway.next homeGateway) (.opened (.new [] [0]) deviceCalls) foundInactive = some g ∧ ¬ Watched g := by
  have hrun : (Runs.run (Gateway.next homeGateway) (.opened (.new [] [0]) deviceCalls) foundInactive).map
      (fun g => decide (Admitted g.marks [7] (g.auth.deviceEpoch [7])) && g.auth.observedActiveDevices.isEmpty) =
        some true := by decide
  obtain ⟨g, hg, hlost⟩ := Option.map_eq_some_iff.mp hrun
  obtain ⟨hadm, hnone⟩ := Bool.and_eq_true_iff.mp hlost
  refine ⟨g, hg, fun h => ?_⟩
  have hmem := h [7] (of_decide_eq_true hadm)
  rw [isEmpty_iff.mp hnone] at hmem
  cases hmem

end Run

end OpenAgent.Identity.Auth
