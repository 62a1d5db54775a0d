import OpenAgent.Identity.SpentInvitations

namespace OpenAgent.Identity

open Py List Option Service
open Coro hiding bind_assoc

variable {Session α β : Type}

structure Visit where
  request : Request
  env : Nat → Turn

def Visit.ByInvitation (v : Visit) : Prop :=
  v.request.method = .agentLogin ∨ v.request.method = .addAgent ∧ (v.request.entries.get "cert").truthy = false

def Service.visit (S : Service Session) (s : Coordinator Session) (v : Visit) : Coordinator Session :=
  ((S.handleOneRpc v.request).run.run (spared v.env) 0 s).2

def Service.visits (S : Service Session) (s : Coordinator Session) (vs : List Visit) : Coordinator Session :=
  vs.foldl S.visit s

def Service.Authenticated (S : Service Session) (vs : List Visit) (nodeId : String) : Prop :=
  ∃ v ∈ vs, S.platform.lower v.request.peerNodeId = S.platform.lower nodeId

/-- The coordinator's own agent: of those under its node id, the one that was added first. -/
structure OwnAgent (db : Db) (handle : String) (row : AgentRow) : Prop where
  found : db.agents.get? handle = some row
  node : db.coordinatorNodeId = some row.nodeId
  first : ∀ h other, h ≠ handle → db.agents.get? h = some other → other.nodeId = row.nodeId →
    row.addedAt < other.addedAt

/-- No agent is taken over whose node did not call: it keeps its node and its owner, and the coordinator's own
stays first in every list that `list_agents` may return. -/
structure AgentsKept (authenticated : String → Prop) (before after : Db) : Prop where
  bound : ∀ handle row, before.agents.get? handle = some row → ¬ authenticated row.nodeId →
    ∃ row', after.agents.get? handle = some row' ∧ row'.nodeId = row.nodeId ∧ row'.ownerHandle = row.ownerHandle
  own : ∀ handle row, OwnAgent before handle row → ¬ authenticated row.nodeId →
    ∃ row', after.agents.get? handle = some row' ∧ ∀ rows, ListsAgents after rows → rows.head? = some row'

structure Enlistment where
  handle : String
  nodeId : String
  ownerHandle : String
  label : Cbor
  addedAt : Time

def Enlistment.write (e : Enlistment) : Write := .upsertAgent e.handle e.nodeId e.ownerHandle e.label e.addedAt

namespace Service

variable (S : Service Session)

def enlistment (v : Visit) (code handle nodeId : String) (db : Db) : Option Enlistment := do
  let invite ← redeemedAt S.platform v.env 0 code db
  if invite.role = .agent then
    let e : Enlistment :=
      ⟨S.normalizeHandle handle, nodeId, ownerOf invite, v.request.entries.get "label", (v.env 4).now⟩
    if e.write.refused S.platform (spentAt S.platform v.env 0 code db) then none else some e
  else none

def enlists (v : Visit) (db : Db) : Option Enlistment := do
  let handle ← (v.request.entries.required "handle" Cbor.asText).toOption
  let nodeId ← (v.request.entries.required "node_id" Cbor.asText).toOption
  match v.request.method with
  | .addAgent =>
    let code ← (v.request.entries.get "invite").asText
    if code = "" then none else S.enlistment v code handle nodeId db
  | .agentLogin =>
    let code ← (v.request.entries.required "invite" Cbor.asText).toOption
    if S.platform.lower v.request.peerNodeId = S.platform.lower nodeId then S.enlistment v code handle nodeId db
    else none
  | _ => none

end Service

/-- The enrolment takes the name of no agent but one of its own node and owner, or one whose node called, and
enters nothing under the coordinator's node id before the coordinator's own agent. -/
structure Unobtrusive (authenticated : String → Prop) (db : Db) (e : Enlistment) : Prop where
  free : ∀ row, db.agents.get? e.handle = some row → ¬ authenticated row.nodeId →
    row.nodeId = e.nodeId ∧ row.ownerHandle = e.ownerHandle
  later : ∀ handle row, OwnAgent db handle row → ¬ authenticated row.nodeId → e.nodeId = row.nodeId → handle ≠ e.handle →
    row.addedAt < ((db.agents.get? e.handle).map (·.addedAt)).getD e.addedAt

def Service.AllUnobtrusive (S : Service Session) (authenticated : String → Prop) :
    List Visit → Coordinator Session → Prop
  | [], _ => True
  | v :: vs, s => (∀ e ∈ S.enlists v s.working, Unobtrusive authenticated s.working e) ∧
      S.AllUnobtrusive authenticated vs (S.visit s v)

variable {handle : String}

section Directory

variable {P : Platform} {db db' : Db} {authenticated : String → Prop} {e : Enlistment}

theorem get?_write (h : db'.agents = (e.write.run P db).agents) (handle : String) :
    db'.agents.get? handle = if handle = e.handle then
      some ⟨((db.agents.get? e.handle).map (·.handle)).getD e.handle, e.nodeId, e.label, e.ownerHandle,
        ((db.agents.get? e.handle).map (·.addedAt)).getD e.addedAt, (db.agents.get? e.handle).bind (·.lastSeen)⟩
    else db.agents.get? handle := by
  rw [h, Enlistment.write, Write.run.eq_def]
  rw [Dict.get?_set]
  cases db.agents.get? e.handle with
  | none => rfl
  | some a => rfl

variable {row : AgentRow}

theorem bound_write (hu : Unobtrusive authenticated db e) (h : db'.agents = (e.write.run P db).agents)
    (hrow : db.agents.get? handle = some row) (ha : ¬ authenticated row.nodeId) :
    ∃ row', db'.agents.get? handle = some row' ∧ row'.nodeId = row.nodeId ∧ row'.ownerHandle = row.ownerHandle ∧
      row'.addedAt = row.addedAt := by
  rw [get?_write h]
  by_cases hh : handle = e.handle
  · subst hh
    obtain ⟨hnode, hown⟩ := hu.free row hrow ha
    rw [if_pos rfl, hrow]
    exact ⟨_, rfl, hnode.symm, hown.symm, rfl⟩
  · rw [if_neg hh]
    exact ⟨row, hrow, rfl, rfl, rfl⟩

theorem ownAgent_write (hu : Unobtrusive authenticated db e) (h : db'.agents = (e.write.run P db).agents)
    (hc : db'.coordinatorNodeId = db.coordinatorNodeId) (ho : OwnAgent db handle row)
    (ha : ¬ authenticated row.nodeId) : ∃ row', OwnAgent db' handle row' ∧ row'.nodeId = row.nodeId := by
  obtain ⟨row', hrow', hnode', _, hadd'⟩ := bound_write hu h ho.found ha
  refine ⟨row', ⟨hrow', ?_, ?_⟩, hnode'⟩
  · rw [hc, hnode']
    exact ho.node
  intro k other hk hoth hsame
  rw [hadd']
  rw [hnode'] at hsame
  rw [get?_write h] at hoth
  by_cases hh : k = e.handle
  · rw [if_pos hh] at hoth
    cases hoth
    exact hu.later handle row ho ha hsame (fun he => hk (hh.trans he.symm))
  · rw [if_neg hh] at hoth
    exact ho.first k other hk hoth hsame

theorem OwnAgent.head (ho : OwnAgent db handle row) {rows : List AgentRow}
    (hl : ListsAgents db rows) : rows.head? = some row := by
  obtain ⟨hperm, hsor⟩ := hl
  have hmem : row ∈ rows := hperm.mem_iff.mpr ((Dict.mem_values_iff _ _).mpr ⟨handle, ho.found⟩)
  cases rows with
  | nil => cases hmem
  | cons first rest =>
    rcases mem_cons.mp hmem with rfl | hrest
    · rfl
    -- the first is not after the own agent, so it is under the same node, and was not added later
    obtain ⟨hown, hadd⟩ := (pairwise_cons.mp hsor).1 row hrest
    have hnode : first.nodeId = row.nodeId := by
      have hfir := of_decide_eq_true (hown (decide_eq_true (by rw [ho.node]; rfl)))
      rw [hfir, ho.node]
      rfl
    obtain ⟨k, hk⟩ := (Dict.mem_values_iff _ _).mp (hperm.mem_iff.mp (mem_cons_self (a := first)))
    by_cases hkh : k = handle
    · rw [hkh, ho.found] at hk
      exact hk.symm
    have hlt := ho.first k first hkh hk hnode
    have hle := hadd (by simp [hnode])
    exact absurd hlt (Int.not_lt.mpr hle)

end Directory

section Visits

variable (S : Service Session) {db : Db} {logins : Dict String (LoginInProgress Session)} {v : Visit}

def Leaves (v : Visit) (db : Db) (logins : Dict String (LoginInProgress Session)) (s : Coordinator Session) : Prop :=
  ∃ db', s = resting db' logins ∧ db'.coordinatorNodeId = db.coordinatorNodeId ∧
    (db'.agents = db.agents ∨ ∃ e, S.enlists v db = some e ∧ db'.agents = (e.write.run S.platform db).agents)

theorem leaves_resting {db' : Db} (hc : db'.coordinatorNodeId = db.coordinatorNodeId) (ha : db'.agents = db.agents) :
    Leaves S v db logins (resting db' logins) := ⟨db', rfl, hc, .inl ha⟩

theorem leaves_redeem {code : String} {f : Option InvitationRow → Act Session Reply}
    (hnone : ∀ k s, ((f none).run.run (spared v.env) k s).2 = s)
    (hsome : ∀ invite, redeemedAt S.platform v.env 0 code db = some invite → Leaves S v db logins
      ((f (some (takenAt v.env 0 invite))).run.run (spared v.env) 4 (resting (spentAt S.platform v.env 0 code db) logins)).2) :
    Leaves S v db logins ((consumeInvitation S.platform code >>= f).run.run (spared v.env) 0 (resting db logins)).2 := by
  cases hinv : redeemedAt S.platform v.env 0 code db with
  | none =>
    obtain ⟨r, l, hends, rfl | ⟨e, rfl⟩⟩ := ends_unredeemed logins hinv
    · rw [hends.run_andThen, hnone]
      exact leaves_resting S rfl rfl
    · rw [hends.raises.run]
      exact leaves_resting S rfl rfl
  | some invite =>
    rw [(ends_redeemed logins hinv).run_andThen]
    exact hsome invite hinv

theorem enlistment_eq {code nodeId : String} {invite : InvitationRow}
    (hred : redeemedAt S.platform v.env 0 code db = some invite) (hrole : invite.role = .agent)
    (hrefu : (Write.upsertAgent (S.normalizeHandle handle) nodeId (Service.ownerOf invite)
      (v.request.entries.get "label") (v.env 4).now).refused S.platform (spentAt S.platform v.env 0 code db) = false) :
    S.enlistment v code handle nodeId db = some ⟨S.normalizeHandle handle, nodeId, Service.ownerOf invite,
      v.request.entries.get "label", (v.env 4).now⟩ := by
  rw [enlistment, hred]
  dsimp only [bind_eq_bind, bind_some]
  rw [if_pos hrole, if_neg]
  rw [Enlistment.write, hrefu]
  decide

theorem leaves_addAgent (hm : v.request.method = .addAgent) (hcert : (v.request.entries.get "cert").truthy = false) :
    Leaves S v db logins ((S.addAgent v.request.entries).run.run (spared v.env) 0 (resting db logins)).2 := by
  change Leaves S v db logins ((S.addAgentOwner (v.request.entries.get "cert") (v.request.entries.get "invite") >>=
    S.enlist v.request.entries).run.run _ _ _).2
  cases hinv : v.request.entries.get "invite" with
  | text code =>
    by_cases hcode : code = ""
    · rw [addAgentOwner, if_neg (by rw [hcert]; decide), if_neg (by simp [Cbor.truthy, hcode])]
      exact leaves_resting S rfl rfl
    rw [enlistWith_eq S hcert hcode]
    apply leaves_redeem
    · exact fun _ _ => rfl
    intro invite hred
    by_cases hrole : invite.role = .agent
    swap
    · have hrole' : ¬ (takenAt v.env 0 invite).role = .agent := hrole
      rw [enlistWith, filter_some, if_neg (by simpa using hrole')]
      exact leaves_resting S rfl rfl
    rw [enlistWith_agent S (takenAt v.env 0 invite) hrole]
    cases hhan : v.request.entries.required "handle" Cbor.asText with
    | error e =>
      rw [enlist, hhan]
      exact leaves_resting S rfl rfl
    | ok handle =>
    cases hnode : v.request.entries.required "node_id" Cbor.asText with
    | error e =>
      rw [enlist, hhan, hnode]
      exact leaves_resting S rfl rfl
    | ok nodeId =>
    cases hrefu : (Write.upsertAgent (S.normalizeHandle handle) nodeId (ownerOf invite)
        (v.request.entries.get "label") (v.env 4).now).refused S.platform (spentAt S.platform v.env 0 code db) with
    | true =>
      rw [(ends_enlist_refused (k := 4) (ownerOf (takenAt v.env 0 invite)) hhan hnode hrefu).run]
      exact leaves_resting S rfl rfl
    | false =>
      rw [(ends_enlist (k := 4) (ownerOf (takenAt v.env 0 invite)) hhan hnode hrefu).run]
      refine ⟨_, rfl, rfl, .inr ⟨_, by
        rw [enlists, hhan, hnode, hm, hinv]
        exact (if_neg hcode).trans (enlistment_eq S hred hrole hrefu), rfl⟩⟩
  | _ =>
    rw [addAgentOwner, if_neg (by rw [hcert]; decide)]
    split
    · exact leaves_resting S rfl rfl
    · exact leaves_resting S rfl rfl

theorem enrolAgent_state {env : Nat → Turn} {k : Nat} {s : Coordinator Session} {nodeId owner : String} {label : Cbor}
    (h : (Write.upsertAgent handle nodeId owner label (env k).now).refused S.platform s.working = false) :
    ((S.enrolAgent handle nodeId owner label).run.run (spared env) k s).2 =
      enlisted S.platform (.upsertAgent handle nodeId owner label (env k).now) s := by
  rw [enrolAgent, (ends_registerAgent h).run_andThen]
  cases S.publicKey nodeId with
  | none => rfl
  | some devicePubkey =>
    by_cases hlen : devicePubkey.length = pubkeyLength
    · exact congrArg Prod.snd ((ends_issueCert hlen).andThen Ends.done).run
    · exact congrArg Prod.snd (ends_issueCert_wrong hlen).raises.run

theorem enrolAgent_refused {env : Nat → Turn} {k : Nat} {s : Coordinator Session} {nodeId owner : String}
    {label : Cbor} (h : (Write.upsertAgent handle nodeId owner label (env k).now).refused S.platform s.working = true) :
    ((S.enrolAgent handle nodeId owner label).run.run (spared env) k s).2 = s := by
  exact congrArg Prod.snd (ends_registerAgent_refused h).raises.run

theorem leaves_agentLogin (hm : v.request.method = .agentLogin) : Leaves S v db logins
    ((S.agentLogin v.request.entries v.request.peerNodeId).run.run (spared v.env) 0 (resting db logins)).2 := by
  rw [agentLogin]
  cases hcode : v.request.entries.required "invite" Cbor.asText with
  | error e => exact leaves_resting S rfl rfl
  | ok code =>
  cases hhan : v.request.entries.required "handle" Cbor.asText with
  | error e => exact leaves_resting S rfl rfl
  | ok handle =>
  cases hnode : v.request.entries.required "node_id" Cbor.asText with
  | error e => exact leaves_resting S rfl rfl
  | ok nodeId =>
  change Leaves S v db logins ((if S.platform.lower v.request.peerNodeId ≠ S.platform.lower nodeId then throw _ else
    consumeInvitation S.platform code >>= S.enrolAgentWith (S.normalizeHandle handle) nodeId
      (v.request.entries.get "label") : Act Session Reply).run.run (spared v.env) 0 (resting db logins)).2
  by_cases hpeer : S.platform.lower v.request.peerNodeId = S.platform.lower nodeId
  swap
  · rw [if_pos hpeer]
    exact leaves_resting S rfl rfl
  rw [if_neg (not_not.mpr hpeer)]
  apply leaves_redeem
  · exact fun _ _ => rfl
  intro invite hred
  have hrole' : (takenAt v.env 0 invite).role = invite.role := rfl
  rw [enrolAgentWith, filter_some, hrole']
  by_cases hrole : invite.role = .agent
  swap
  · rw [if_neg (by simpa using hrole)]
    exact leaves_resting S rfl rfl
  rw [if_pos (decide_eq_true hrole)]
  cases hrefu : (Write.upsertAgent (S.normalizeHandle handle) nodeId (ownerOf invite)
      (v.request.entries.get "label") (v.env 4).now).refused S.platform (spentAt S.platform v.env 0 code db) with
  | true =>
    rw [enrolAgent_refused S hrefu]
    exact leaves_resting S rfl rfl
  | false =>
    rw [enrolAgent_state S hrefu]
    refine ⟨_, rfl, rfl, .inr ⟨⟨S.normalizeHandle handle, nodeId, ownerOf invite,
      v.request.entries.get "label", (v.env 4).now⟩, ?_, rfl⟩⟩
    rw [enlists, hhan, hnode, hm, hcode]
    exact (if_pos hpeer).trans (enlistment_eq S hred hrole hrefu)

theorem dispatch_state (request : Request) (env : Nat → Turn) (k : Nat) (s : Coordinator Session) :
    ((S.dispatch request).run.run env k s).2 =
      ((S.handler request.method request.entries request.peerNodeId).run.run env k s).2 := by
  have hnil : ((S.handler request.method [] request.peerNodeId).run.run env k s).2 = s := by
    cases request.method with
    | _ => rfl
  obtain ⟨method, params, peerNodeId⟩ := request
  rw [dispatch, Request.entries]
  cases params with
  | map entries =>
    cases entries with
    | nil => rfl
    | cons entry entries => rfl
  | _ =>
    split
    · rfl
    · exact hnil.symm

theorem leaves_visit (db : Db) (logins : Dict String (LoginInProgress Session)) (hv : v.ByInvitation) : Leaves S v db logins (S.visit (resting db logins) v) := by
  obtain ⟨_, hstate⟩ := handleOneRpc_run S v.env v.request (resting db logins)
  rw [visit, hstate, dispatch_state]
  rcases hv with hm | ⟨hm, hcert⟩
  · rw [hm]
    exact leaves_agentLogin S hm
  · rw [hm]
    exact leaves_addAgent S hm hcert

variable {authenticated : String → Prop}

/-- The agents of `before` whose nodes did not call are there, and the coordinator's own leads. -/
structure Standing (authenticated : String → Prop) (before db : Db) : Prop where
  bound : ∀ handle row, before.agents.get? handle = some row → ¬ authenticated row.nodeId →
    ∃ row', db.agents.get? handle = some row' ∧ row'.nodeId = row.nodeId ∧ row'.ownerHandle = row.ownerHandle
  own : ∀ handle row, OwnAgent before handle row → ¬ authenticated row.nodeId →
    ∃ row', OwnAgent db handle row' ∧ row'.nodeId = row.nodeId

variable {before : Db}

theorem Standing.kept (h : Standing authenticated before db) : AgentsKept authenticated before db where
  bound := h.bound
  own handle row ho ha := by
    obtain ⟨row', ho', _⟩ := h.own handle row ho ha
    exact ⟨row', ho'.found, fun _ => ho'.head⟩

theorem Standing.same {db' : Db} (h : Standing authenticated before db)
    (hc : db'.coordinatorNodeId = db.coordinatorNodeId) (ha : db'.agents = db.agents) :
    Standing authenticated before db' where
  bound := ha ▸ h.bound
  own handle row ho hn := by
    obtain ⟨row', ho', hnode⟩ := h.own handle row ho hn
    exact ⟨row', ⟨ha ▸ ho'.found, hc ▸ ho'.node, ha ▸ ho'.first⟩, hnode⟩

theorem Standing.write {P : Platform} {db' : Db} {e : Enlistment} (h : Standing authenticated before db)
    (hu : Unobtrusive authenticated db e) (hc : db'.coordinatorNodeId = db.coordinatorNodeId)
    (ha : db'.agents = (e.write.run P db).agents) : Standing authenticated before db' where
  bound handle row hrow hn := by
    obtain ⟨row', hrow', hnode, hown⟩ := h.bound handle row hrow hn
    obtain ⟨row'', hrow'', hnode', hown', _⟩ := bound_write hu ha hrow' (hnode ▸ hn)
    exact ⟨row'', hrow'', hnode'.trans hnode, hown'.trans hown⟩
  own handle row ho hn := by
    obtain ⟨row', ho', hnode⟩ := h.own handle row ho hn
    obtain ⟨row'', ho'', hnode'⟩ := ownAgent_write hu ha hc ho' (hnode ▸ hn)
    exact ⟨row'', ho'', hnode'.trans hnode⟩

theorem standing_visits {vs : List Visit} (hv : ∀ v ∈ vs, v.ByInvitation)
    (hu : S.AllUnobtrusive authenticated vs (resting db logins)) (h : Standing authenticated before db) :
    ∃ db', S.visits (resting db logins) vs = resting db' logins ∧ Standing authenticated before db' := by
  induction vs generalizing db with
  | nil => exact ⟨db, rfl, h⟩
  | cons v vs ih =>
    obtain ⟨hv, hvs⟩ := forall_mem_cons.mp hv
    obtain ⟨hu, hus⟩ := hu
    obtain ⟨db', hs, hc, ha | ⟨e, he, ha⟩⟩ := leaves_visit S db logins hv
    · rw [hs] at hus
      rw [visits, foldl_cons, hs]
      exact ih hvs hus (h.same hc ha)
    rw [hs] at hus
    rw [visits, foldl_cons, hs]
    exact ih hvs hus (h.write (hu e he) hc ha)

/-- Enrolment by invitation takes over no agent whose node did not call, where every enrolment is unobtrusive. -/
theorem enrolment_keeps_agents {vs : List Visit} (hv : ∀ v ∈ vs, v.ByInvitation)
    (hu : S.AllUnobtrusive (S.Authenticated vs) vs (resting db logins)) :
    AgentsKept (S.Authenticated vs) db (S.visits (resting db logins) vs).working := by
  have hsta : Standing (S.Authenticated vs) db db :=
    ⟨fun handle row hrow _ => ⟨row, hrow, rfl, rfl⟩, fun handle row ho _ => ⟨row, ho, rfl⟩⟩
  obtain ⟨db', hs, h⟩ := standing_visits S hv hu hsta
  rw [hs]
  exact h.kept

end Visits

section Run

def directory : Db where
  coordinatorNodeId := some "n0"
  users := Dict.empty
  devices := Dict.empty
  agents := Dict.empty.set "fox" ⟨"fox", "n0", .null, "alice", 0, none⟩
  invitations := Dict.empty.set "abcd" ticket

def enlisting (handle : String) : Visit where
  request := ⟨.addAgent, .map [(.text "invite", .text "abcd"), (.text "handle", .text handle),
    (.text "node_id", .text "m")], "m"⟩
  env := fun _ => { now := 1 }

theorem owl_joins_fox : AgentsKept (Service.sample.Authenticated [enlisting "owl"]) directory
    (Service.sample.visits (resting directory Dict.empty) [enlisting "owl"]).working := by
  apply enrolment_keeps_agents
  · intro v hv
    cases mem_singleton.mp hv
    exact .inr ⟨rfl, rfl⟩
  refine ⟨fun e he => ?_, trivial⟩
  have hname : (sample.enlists (enlisting "owl") directory).map (fun e => (e.handle, e.nodeId)) =
      some ("owl", "m") := by decide
  rw [show sample.enlists (enlisting "owl") directory = some e from he] at hname
  obtain ⟨hhan, hnode⟩ := Prod.mk.inj (Option.some.inj hname)
  refine ⟨fun row hrow _ => ?_, fun handle row ho _ hsame _ => ?_⟩
  · rw [hhan] at hrow
    cases hrow
  · rw [hnode] at hsame
    exact absurd ho.node (by rw [← hsame]; decide)

theorem fox_taken_over : ¬ AgentsKept (Service.sample.Authenticated [enlisting "fox"]) directory
    (Service.sample.visits (resting directory Dict.empty) [enlisting "fox"]).working := by
  intro h
  obtain ⟨row, hrow, hnode, _⟩ := h.bound "fox" ⟨"fox", "n0", .null, "alice", 0, none⟩ rfl (by
    rintro ⟨v, hv, hpeer⟩
    cases mem_singleton.mp hv
    exact absurd hpeer (by decide))
  have hafter : ((sample.visits (resting directory Dict.empty) [enlisting "fox"]).working.agents.get? "fox").map
      (·.nodeId) = some "m" := by decide
  rw [hrow, map_some, hnode] at hafter
  exact absurd hafter (by decide)

end Run

end OpenAgent.Identity
