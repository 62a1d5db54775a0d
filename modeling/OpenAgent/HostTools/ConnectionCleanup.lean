import OpenAgent.HostTools.ControlConnection

namespace OpenAgent.HostTools

open Py Replay List CapabilityHost

def HandlerStage.reclaims : HandlerStage → Bool
  | .releasing _ | .closed => true
  | _ => false

/-- The table is what the uses and releases left of it, and is reclaimed from the first to the last entry. -/
structure Bookkept (c : ControlConnection) : Prop where
  table : c.principals = Replay.table LocalBroker.principalId c.history
  unborn : ∀ t, c.nextTask ≤ t → c.task t = .done
  quiet : c.stage.reclaims = true → ∀ t, c.task t = .done
  fresh : c.stage.reclaims = false → c.attempted = []
  releasing : ∀ rest, c.stage = .releasing rest → c.attempted ++ rest = c.principals.values
  closed : c.stage = .closed → c.attempted = c.principals.values

namespace Bookkept

variable {c c' : ControlConnection}

variable {t : Nat}

theorem task (h : Bookkept c) (ht : c.task t ≠ .done) (hstage : c'.stage = c.stage)
    (hatt : c'.attempted = c.attempted) (hnext : c'.nextTask = c.nextTask)
    (hoth : ∀ u, u ≠ t → c'.task u = c.task u)
    (htab : c'.principals = Replay.table LocalBroker.principalId c'.history) : Bookkept c' := by
  have hser : c.stage.reclaims = false := by
    by_contra hno
    exact ht (h.quiet (Bool.not_eq_false _ ▸ hno) t)
  have hlt : t < c.nextTask := by
    by_contra hge
    exact ht (h.unborn t (Nat.le_of_not_lt hge))
  refine ⟨htab, ?_, ?_, ?_, ?_, ?_⟩
  · intro u hu
    rw [hnext] at hu
    rw [hoth u (Nat.ne_of_gt (Nat.lt_of_lt_of_le hlt hu))]
    exact h.unborn u hu
  · intro hr
    rw [hstage, hser] at hr
    cases hr
  · intro _
    rw [hatt]
    exact h.fresh hser
  · intro rest hr
    rw [hstage] at hr
    rw [hr] at hser
    cases hser
  · intro hr
    rw [hstage] at hr
    rw [hr] at hser
    cases hser

theorem setTask (h : Bookkept c) (ht : c.task t ≠ .done) (s : ProcessStage) : Bookkept (c.setTask t s) := by
  refine h.task ht rfl rfl rfl ?_ h.table
  intro u hu
  exact Function.update_of_ne hu _ _

theorem begin (h : Bookkept c) (ht : c.task t ≠ .done) (request : Json) : Bookkept (c.begin t request) := by
  rw [ControlConnection.begin]
  dsimp only
  split
  · exact h.setTask ht _
  split
  · split
    · rename_i k hk
      refine h.task ht rfl rfl rfl (fun u hu => Function.update_of_ne hu _ _) ?_
      rw [table_concat, ← h.table, apply, hk]
    · exact h.setTask ht _
  · exact h.setTask ht _

theorem answer (h : Bookkept c) (ht : c.task t ≠ .done) (request principal : Json) (host : Bool) :
    Bookkept (c.answer t request principal host) := by
  rw [ControlConnection.answer]
  dsimp only
  split
  · split
    · rename_i k hk
      refine h.task ht rfl rfl rfl (fun u hu => Function.update_of_ne hu _ _) ?_
      rw [table_concat, ← h.table, apply, hk]
    · rename_i hk
      refine h.task ht rfl rfl rfl (fun u hu => Function.update_of_ne hu _ _) ?_
      rw [table_concat, ← h.table, apply, hk]
      rfl
  · exact h.setTask ht _

theorem serves (h : Bookkept c) (hold : c.stage.reclaims = false) (hnew : c'.stage.reclaims = false)
    (hpri : c'.principals = c.principals) (hhis : c'.history = c.history)
    (hatt : c'.attempted = c.attempted) (hunb : ∀ t, c'.nextTask ≤ t → c'.task t = .done) :
    Bookkept c' := by
  refine ⟨?_, hunb, ?_, ?_, ?_, ?_⟩
  · rw [hpri, hhis]
    exact h.table
  · intro hr
    rw [hnew] at hr
    cases hr
  · intro _
    rw [hatt]
    exact h.fresh hold
  · intro rest hr
    rw [hr] at hnew
    cases hnew
  · intro hr
    rw [hr] at hnew
    cases hnew

theorem step (h : Bookkept c) {e : ConnectionEvent} (hc : connectionNext c e = some c') : Bookkept c' := by
  cases e with
  | receives request =>
    rw [connectionNext] at hc
    split at hc
    · rename_i hs
      cases hc
      refine h.serves (by rw [hs]; rfl) ?_ rfl rfl rfl ?_
      · dsimp only
        split
        · rfl
        · rfl
      intro t ht
      have hlt : c.nextTask < t := ht
      show Function.update c.task c.nextTask _ t = _
      rw [Function.update_of_ne (Nat.ne_of_gt hlt)]
      exact h.unborn t (Nat.le_of_lt hlt)
    · cases hc
  | starts t =>
    rw [connectionNext] at hc
    split at hc
    · rename_i request hs
      cases hc
      exact h.begin (by rw [hs]; nofun) request
    · cases hc
  | answers t host =>
    rw [connectionNext] at hc
    split at hc
    · rename_i request principal hs
      cases hc
      exact h.answer (by rw [hs]; nofun) request principal host
    · cases hc
  | writes t =>
    rw [connectionNext] at hc
    split at hc
    · rename_i close hs
      cases hc
      have hset : Bookkept (c.setTask t .done) := h.setTask (by rw [hs]; nofun) .done
      exact ⟨hset.table, hset.unborn, hset.quiet, hset.fresh, hset.releasing, hset.closed⟩
    · cases hc
  | cancelled t =>
    rw [connectionNext] at hc
    split at hc
    · rename_i hs
      cases hc
      exact h.setTask (by rw [hs]; nofun) _
    · rename_i request principal _ hs
      cases hc
      exact h.answer (by rw [hs]; nofun) request principal false
    · rename_i hs
      cases hc
      exact h.setTask (by rw [hs]; nofun) _
    · cases hc
  | ends =>
    rw [connectionNext] at hc
    split at hc
    · rename_i hs
      cases hc
      exact h.serves (by rw [hs]; rfl) rfl rfl rfl rfl h.unborn
    · rename_i hs
      split at hc
      · cases hc
        exact h.serves (by rw [hs]; rfl) rfl rfl rfl rfl h.unborn
      · cases hc
    · cases hc
  | gathered =>
    rw [connectionNext] at hc
    split at hc
    · rename_i hs
      split at hc
      · rename_i hall
        cases hc
        have hdone : ∀ t, c.task t = .done := by
          intro t
          by_cases ht : t < c.nextTask
          · have htest := all_eq_true.mp hall t (mem_range.mpr ht)
            split at htest
            · assumption
            · cases htest
          · exact h.unborn t (Nat.le_of_not_lt ht)
        refine ⟨h.table, h.unborn, fun _ => hdone, nofun, ?_, nofun⟩
        rintro rest ⟨rfl⟩
        have hfre : c.attempted = [] := h.fresh (by rw [hs]; rfl)
        rw [hfre]
        rfl
      · cases hc
    · cases hc
  | releases =>
    rw [connectionNext] at hc
    split at hc
    · rename_i p rest hs
      cases hc
      refine ⟨h.table, h.unborn, fun _ => h.quiet (by rw [hs]; rfl), nofun, ?_, nofun⟩
      rintro rest' ⟨rfl⟩
      rw [append_assoc, singleton_append]
      exact h.releasing _ hs
    · rename_i hs
      cases hc
      refine ⟨h.table, h.unborn, fun _ => h.quiet (by rw [hs]; rfl), nofun, nofun, fun _ => ?_⟩
      have hall := h.releasing [] hs
      rw [append_nil] at hall
      exact hall
    · cases hc

end Bookkept

theorem bookkept_start : Bookkept {} :=
  ⟨rfl, fun _ _ => rfl, nofun, fun _ => rfl, nofun, nofun⟩

def Owed (history : List (Change Json)) (id : String) : Prop :=
  ∃ pre p post, history = pre ++ .put p :: post ∧ CapabilityHost.principalId p = some id ∧
    ∀ q, .drop q ∈ post → CapabilityHost.principalId q ≠ some id

def Kept (history : List (Change Json)) : Prop :=
  ∀ id, Owed history id → ∃ pre p post, history = pre ++ .put p :: post ∧ CapabilityHost.principalId p = some id ∧
    ∀ e ∈ post, LocalBroker.principalId e.subject ≠ LocalBroker.principalId p

theorem CapabilityHost.broker_knows {p : Json} {id : String} (h : CapabilityHost.principalId p = some id) :
    ∃ k, LocalBroker.principalId p = some k := by
  cases p with
  | str _ | obj _ => exact ⟨_, rfl⟩
  | null => cases h
  | bool _ => cases h
  | int _ => cases h
  | float _ => cases h
  | arr _ => cases h

/-- When a connection has ended, a release was attempted for every principal used on it and not released since, under the
host's own identity, if and only if its uses and releases are `Kept`. -/
theorem connection_cleanup_iff {c : ControlConnection} (hr : Runs.Reaches connectionNext {} c)
    (hclosed : c.stage = .closed) :
    (∀ id, Owed c.history id → ∃ p ∈ c.attempted, CapabilityHost.principalId p = some id) ↔ Kept c.history := by
  have h : Bookkept c := Runs.invariant (fun _ _ _ h he => h.step he) bookkept_start hr
  have hrea : ∀ id, (∃ p ∈ c.attempted, principalId p = some id) ↔
      ∃ pre p post, c.history = pre ++ .put p :: post ∧ principalId p = some id ∧
        ∀ e ∈ post, LocalBroker.principalId e.subject ≠ LocalBroker.principalId p := by
    intro id
    rw [h.closed hclosed, h.table]
    constructor
    · rintro ⟨p, hp, hid⟩
      obtain ⟨k, hk⟩ := (Dict.mem_values_iff _ p).mp hp
      obtain ⟨pre, post, hspl, hkey, hpost⟩ := get?_table_iff.mp hk
      refine ⟨pre, p, post, hspl, hid, ?_⟩
      rw [hkey]
      exact hpost
    rintro ⟨pre, p, post, hspl, hid, hpost⟩
    obtain ⟨k, hk⟩ := broker_knows hid
    rw [hk] at hpost
    exact ⟨p, (Dict.mem_values_iff _ p).mpr ⟨k, get?_table_iff.mpr ⟨pre, post, hspl, hk, hpost⟩⟩, hid⟩
  exact forall_congr' (fun id => imp_congr Iff.rfl (hrea id))

theorem kept_of_same_identities {history : List (Change Json)}
    (h : ∀ e ∈ history, CapabilityHost.principalId e.subject = LocalBroker.principalId e.subject) :
    Kept history := by
  rintro id ⟨pre, p, post, hspl, hid, hkept⟩
  have hsame : ∀ e ∈ pre ++ .put p :: post, principalId e.subject = LocalBroker.principalId e.subject :=
    hspl ▸ h
  rw [hspl]
  clear hspl h
  -- by induction on what follows the use: the last change under its key is a use of the same identity
  induction post using List.reverseRecOn with
  | nil => exact ⟨pre, p, [], rfl, hid, nofun⟩
  | append_singleton post e ih =>
    have hear := ih (fun q hq => hkept q (mem_append_left _ hq)) (by
      intro x hx
      refine hsame x ?_
      rw [← cons_append, ← append_assoc]
      exact mem_append_left _ hx)
    have he : principalId e.subject = LocalBroker.principalId e.subject := by
      refine hsame e ?_
      rw [← cons_append, ← append_assoc]
      exact mem_append_right _ (mem_singleton_self e)
    by_cases hkey : principalId e.subject = some id
    · cases e with
      | put q => exact ⟨pre ++ .put p :: post, q, [], by simp, hkey, nofun⟩
      | drop q => exact absurd hkey (hkept q (mem_append_right _ (mem_singleton_self _)))
    obtain ⟨pre', q, post', hspl', hq, hpost'⟩ := hear
    have hqkey : LocalBroker.principalId q = some id := by
      rw [← hq]
      refine (hsame (.put q) ?_).symm
      rw [← cons_append, ← append_assoc, hspl']
      exact mem_append_left _ (mem_append_right _ mem_cons_self)
    refine ⟨pre', q, post' ++ [e], ?_, hq, ?_⟩
    · rw [← cons_append, ← append_assoc, hspl', append_assoc, cons_append]
    intro x hx
    rcases mem_append.mp hx with hx | hx
    · exact hpost' x hx
    · rw [mem_singleton.mp hx, hqkey, ← he]
      exact hkey

def clientIn (digit : Char) : Json :=
  .obj [("client_instance_id", .str "client"), ("browser_scope", .str (String.ofList (List.replicate 64 digit)))]

def call (principal : Json) : Json := .obj [("id", .int 1), ("type", .str "call"), ("principal", principal)]

def calls (first second : Json) (releases : Nat) : List ConnectionEvent :=
  [.receives (some (call first)), .starts 0, .answers 0 true, .writes 0, .receives (some (call second)), .starts 1,
    .answers 1 true, .writes 1, .ends, .gathered] ++ List.replicate releases .releases

def endedWith (history : List (Change Json)) (attempted : List Json) (c : ControlConnection) : Bool :=
  match c.stage with
  | .closed => decide (c.history = history) && decide (c.attempted = attempted)
  | _ => false

theorem endedWith_holds {history : List (Change Json)} {attempted : List Json} {c : ControlConnection}
    (h : endedWith history attempted c = true) :
    c.stage = .closed ∧ c.history = history ∧ c.attempted = attempted := by
  rw [endedWith] at h
  split at h
  · rename_i hs
    rw [Bool.and_eq_true, decide_eq_true_eq, decide_eq_true_eq] at h
    exact ⟨hs, h⟩
  · cases h

theorem scope_not_reclaimed : ¬ ∀ c, Runs.Reaches connectionNext {} c → c.stage = .closed →
    ∀ id, Owed c.history id → ∃ p ∈ c.attempted, CapabilityHost.principalId p = some id := by
  intro hall
  have hrun : (Runs.run connectionNext {} (calls (clientIn 'a') (clientIn 'b') 2)).any
      (endedWith [.put (clientIn 'a'), .put (clientIn 'b')] [clientIn 'b']) = true := by
    decide +kernel
  have hids : (principalId (clientIn 'a')).any
      (fun id => decide (principalId (clientIn 'b') ≠ some id)) = true := by
    decide +kernel
  obtain ⟨c, hc, hend⟩ := (Option.any_eq_true _ _).mp hrun
  obtain ⟨id, hid, hoth⟩ := (Option.any_eq_true _ _).mp hids
  obtain ⟨hclo, hhis, hatt⟩ := endedWith_holds hend
  have howed : Owed c.history id := by
    rw [hhis]
    refine ⟨[], _, _, rfl, hid, ?_⟩
    intro q hq
    cases mem_singleton.mp hq
  obtain ⟨p, hp, hpid⟩ := hall c ⟨_, hc⟩ hclo id howed
  rw [hatt, mem_singleton] at hp
  rw [hp] at hpid
  exact of_decide_eq_true hoth hpid

/-- Two clients, named by strings: both are reclaimed. -/
theorem connection_cleanup_strings : ∃ c, Runs.Reaches connectionNext {} c ∧ c.stage = .closed ∧
    ∀ id, Owed c.history id → ∃ p ∈ c.attempted, CapabilityHost.principalId p = some id := by
  have hrun : (Runs.run connectionNext {} (calls (.str "first") (.str "second") 3)).any
      (endedWith [.put (.str "first"), .put (.str "second")] [.str "first", .str "second"]) = true := by
    decide +kernel
  obtain ⟨c, hc, hend⟩ := (Option.any_eq_true _ _).mp hrun
  obtain ⟨hclo, hhis, -⟩ := endedWith_holds hend
  have hr : Runs.Reaches connectionNext {} c := ⟨_, hc⟩
  have hkept : Kept c.history := by
    refine kept_of_same_identities ?_
    rw [hhis]
    intro e he
    rcases mem_cons.mp he with rfl | he
    · rfl
    · rw [mem_singleton.mp he]
      rfl
  exact ⟨c, hr, hclo, (connection_cleanup_iff hr hclo).mpr hkept⟩

end OpenAgent.HostTools
