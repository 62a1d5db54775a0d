import OpenAgent.Automation.Captures
import OpenAgent.Lib.Runs

namespace OpenAgent.Automation

open Py List Work

variable {managed : String} {names : List String} {env : Environment} {s t u : Database} {context : ExecutionContext}
  {kind : Kind} {name : String}

section Checks

theorem keepIdentity_ok {x : Unit} (h : keepIdentity env context s = .ok (x, t)) : s = t := by
  simp only [keepIdentity, bind_ok, raiseUnless_ok, reach_ok] at h
  obtain ⟨_, _, ⟨_, rfl⟩, _, rfl⟩ := h
  rfl

theorem mem_fromKeys : name ∈ fromKeys names ↔ name ∈ names := by
  rw [fromKeys, mem_reverse, mem_dedup, mem_reverse]

theorem getter_not_mutation {kind : Kind} {getter key : String} (h : execution name = some (getter, key)) : getter ∉ mutations kind := by
  unfold execution at h
  split at h <;> cases h <;> cases kind <;> decide

theorem managedKind_iff {kind other : Kind} (h : managedKind managed = some kind) :
    managedKind managed = some other ↔ other = kind := by
  rw [h, Option.some.injEq, eq_comm]

theorem done_transaction {α : Type} (work : Managing α) (s : Database) :
    (done (Work.transaction work s)).1 = s ∧ (∃ e, (done (Work.transaction work s)).2 = .error e) ∨
      ∃ a t, work s = .ok (a, t) ∧ done (Work.transaction work s) = (t, .ok ()) := by
  cases hwork : transaction work s with
  | mk t result =>
    cases result with
    | error e => exact .inl ⟨transaction_error hwork, e, rfl⟩
    | ok a => exact .inr ⟨a, t, transaction_ok hwork, rfl⟩

end Checks

variable {results : List Captured}

section Approvals

variable [Foundations] {identifier : String} {definition : Definition} {principal : PrincipalRef}

theorem settled_of_same (hview : view t kind name = view s kind name) (hgra : grantsOf t kind name = grantsOf s kind name)
    (h : Settled s kind name principal) : Settled t kind name principal := by
  rw [view, view] at hview
  rw [Settled] at h ⊢
  cases hs : s.definition kind name with
  | none =>
    rw [hs, Option.map_none, Option.map_eq_none_iff] at hview
    rw [hs] at h
    rw [hview]
    exact (liveGrants_eq hgra).trans h
  | some old =>
    rw [hs, Option.map_some, Option.map_eq_some_iff] at hview
    obtain ⟨row, hrow, hjud⟩ := hview
    rw [hs] at h
    rw [hrow]
    obtain ⟨hdig, hswi⟩ := Prod.mk.inj hjud
    have hid : row.id = old.id := (Table.id_of_find hrow).trans (Table.id_of_find hs).symm
    have hena : row.enabled = old.enabled := by
      rw [Table.enabled_of_find hrow, Table.enabled_of_find hs, hswi]
    have hlive : liveGrants t kind row.id = liveGrants s kind old.id := by
      rw [hid, Table.id_of_find hs]
      exact liveGrants_eq hgra
    show Granted t kind row principal
    rw [Granted, hena, hlive, hdig]
    exact h

structure Recaptured (kind : Kind) (name : String) (principal : PrincipalRef) (s t : Database) : Prop where
  views : ∀ other name, view t other name = view s other name
  others : ∀ other name', ¬(other = kind ∧ name' = name) → grantsOf t other name' = grantsOf s other name'
  settled : Settled t kind name principal
  revoked : StaysRevoked s t

theorem recaptured {n : Nat} {result : Option String} (hdef : s.definition kind name = some definition)
    (hcap : capture env kind definition context s = .ok (result, u))
    (hrec : reconcileScheduleCursor env kind definition u = .ok (n, t)) :
    Recaptured kind name context.initiator s t := by
  have hid := Table.id_of_find hdef
  obtain ⟨hspa, hgra⟩ := capture_ok hcap
  have hine := reconcile_ok hrec
  have hsto : ∀ kind name, u.definition kind name = s.definition kind name := fun kind name => by
    rw [Database.definition, Database.definition, hspa.store]
  have hgran : ∀ kind name, grantsOf t kind name = grantsOf u kind name := fun kind name => by
    rw [grantsOf, grantsOf, hine.grants]
  refine ⟨fun other name' => ?_, fun other name' hne => ?_, ?_, ?_⟩
  · rw [hine.view, view, view, hsto]
  · rw [hgran]
    exact hspa.others other name' (by rw [hid]; exact hne)
  · refine settled_of_same (hine.view kind name) (hgran kind name) ?_
    rw [Settled, hsto, hdef]
    exact hgra
  · exact hspa.revoked.trans (.of_grants hine.grants)

theorem mutate_ok {operation : Store → Store × Except Error Json} {result : Json}
    (h : mutate env managed operation context s = .ok (result, t)) :
    ∃ kind, managedKind managed = some kind ∧ manage env kind operation context s = .ok (result, t) := by
  simp only [mutate, bind_ok, ofOption_ok, requireAuthorized_ok] at h
  obtain ⟨kind, _, ⟨hkind, rfl⟩, _, _, ⟨_, rfl⟩, _, u, hide, hman⟩ := h
  cases keepIdentity_ok hide
  exact ⟨kind, hkind, hman⟩

theorem approve_ok {digest : Json} {result : Approval}
    (h : approveAuthorization env managed identifier digest context s = .ok (result, t)) :
    ∃ kind, managedKind managed = some kind ∧ Recaptured kind identifier context.initiator s t := by
  simp only [approveAuthorization, bind_ok, ofOption_ok, requireAuthorized_ok, definitionOf_ok, digestOf_ok,
    raiseUnless_ok, reach_ok, pure_ok] at h
  obtain ⟨kind, _, ⟨hkind, rfl⟩, _, _, ⟨_, rfl⟩, _, _, ⟨_, rfl⟩, _, u, hide, definition, _, ⟨hdef, rfl⟩, _, _,
    ⟨_, rfl⟩, _, _, ⟨_, rfl⟩, _, _, ⟨_, rfl⟩, grant, v, hcap, n, w, hrec, _, _, ⟨_, rfl⟩, _, rfl⟩ := h
  cases keepIdentity_ok hide
  exact ⟨kind, hkind, recaptured hdef hcap hrec⟩

theorem captureCurrent_ok {result : Captured} (h : captureCurrent env kind context name s = .ok (result, t)) :
    Recaptured kind name context.initiator s t := by
  simp only [captureCurrent, bind_ok, definitionOf_ok, pure_ok] at h
  obtain ⟨definition, _, ⟨hdef, rfl⟩, grant, v, hcap, n, w, hrec, _, rfl⟩ := h
  exact recaptured hdef hcap hrec

theorem Recaptured.effect (h : Recaptured kind name principal s t) :
    Effect (fun other name' => other = kind ∧ name' = name) principal s t where
  untouched other name' hnot _ := h.others other name' hnot
  revoked := h.revoked
  settled other name' hcha := by
    obtain ⟨rfl, rfl⟩ := hcha.resolve_right fun hne => hne (h.views other name')
    exact h.settled

theorem captureAll_ok (hdis : names.Nodup)
    (h : Work.each (captureCurrent env kind context) names s = .ok (results, t)) :
    Effect (fun other name => other = kind ∧ name ∈ names) context.initiator s t := by
  have hvie : ∀ other name, view t other name = view s other name := by
    intro other name
    exact each_keeps (R := fun s t => view t other name = view s other name) (fun _ => rfl)
      (fun _ _ _ h k => k.trans h) (fun _ _ _ _ _ hrou => (captureCurrent_ok hrou).views other name) h
  refine ⟨⟨?_, ?_⟩, ?_⟩
  rotate_left 2
  · intro other name hcha
    obtain ⟨rfl, hmem⟩ := hcha.resolve_right fun hne => hne (hvie other name)
    have hkeys : (names.map id).Nodup := by rwa [map_id]
    refine each_establishes (I := fun _ => True) (Q := fun name t => Settled t other name context.initiator) hkeys
      (fun _ _ _ _ _ _ _ => trivial) (fun name _ u _ v _ hrou => (captureCurrent_ok hrou).settled)
      (fun name name' hne u _ v hset hrou => ?_) trivial h name hmem
    have hrou := captureCurrent_ok hrou
    exact settled_of_same (hrou.views other name) (hrou.others other name fun hboth => hne hboth.2) hset
  · intro other name hnot _
    refine each_keeps (R := fun s t => grantsOf t other name = grantsOf s other name) (fun _ => rfl)
      (fun _ _ _ h k => k.trans h) (fun name' hmem u _ v hrou => ?_) h
    exact (captureCurrent_ok hrou).others other name fun hboth => hnot ⟨hboth.1, hboth.2 ▸ hmem⟩
  · exact each_keeps StaysRevoked.refl (fun _ _ _ => StaysRevoked.trans)
      (fun _ _ _ _ _ hrou => (captureCurrent_ok hrou).revoked) h

theorem captureCurrentAuthorizations_ok
    (h : captureCurrentAuthorizations env managed names context s = .ok (results, t)) :
    ∃ kind, managedKind managed = some kind ∧
      Effect (fun other name => other = kind ∧ name ∈ fromKeys names) context.initiator s t := by
  simp only [captureCurrentAuthorizations, bind_ok, ofOption_ok, requireAuthorized_ok, reach_ok, pure_ok] at h
  obtain ⟨kind, _, ⟨hkind, rfl⟩, _, _, ⟨_, rfl⟩, _, u, hide, _, v, hall, _, _, ⟨_, rfl⟩, _, rfl⟩ := h
  cases keepIdentity_ok hide
  exact ⟨kind, hkind, captureAll_ok (nodup_reverse.mpr (nodup_dedup _)) hall⟩

end Approvals

section Calls

variable [Foundations] {db : Database} {arguments : List (String × Json)}

def Harmless (operation : Store → Store × Except Error Json) : Prop :=
  ∀ (db : Database) kind name, view { db with store := (operation db.store).1 } kind name = view db kind name

/-- What the named calls of the repository do: a mutation keeps to the definitions of its kind, and any other call
only reads, enqueues or stops. -/
structure Environment.Documented (env : Environment) : Prop where
  mutation : ∀ managed kind name arguments context, managedKind managed = some kind → name ∈ mutations kind →
    Confined kind (env.core managed name arguments context)
  harmless : ∀ managed kind name arguments context, managedKind managed = some kind → name ∉ mutations kind →
    Harmless (env.core managed name arguments context)

theorem inert_loosely {operation : Store → Store × Except Error Json} (h : Harmless operation) :
    Inert db (loosely operation db).1 :=
  ⟨rfl, fun kind name => h db kind name⟩

theorem callTarget_keeps {R : Database → Database → Prop} (hrefl : ∀ s, R s s)
    (htra : ∀ s t u, R s t → R t u → R s u) {getter key : String}
    (hget : ∀ value db, R db (loosely (env.core managed getter [(key, value)] context) db).1)
    (hcall : ∀ db, R db (loosely (env.core managed name arguments context) db).1) :
    R db (callTarget env kind managed name getter key arguments context db).1 := by
  rw [callTarget]
  split
  · exact hrefl db
  rename_i value _
  have hrow := hget value db
  split
  · rename_i heq
    rw [heq] at hrow
    exact hrow
  rename_i heq
  rw [heq] at hrow
  split
  · exact hrow
  · exact htra _ _ _ hrow (hcall _)

theorem callDirectly_keeps {R : Database → Database → Prop} (hrefl : ∀ s, R s s) (htra : ∀ s t u, R s t → R t u → R s u)
    (hget : ∀ getter key, execution name = some (getter, key) →
      ∀ value db, R db (loosely (env.core managed getter [(key, value)] context) db).1)
    (hcall : ∀ db, R db (loosely (env.core managed name arguments context) db).1) :
    R db (callDirectly env kind managed name arguments context db).1 := by
  rw [callDirectly]
  split
  · exact callTarget_keeps hrefl htra (hget _ _ ‹_›) hcall
  · exact hcall db

theorem inert_callDirectly (hdoc : env.Documented) (hkind : managedKind managed = some kind)
    (hname : name ∉ mutations kind) : Inert db (callDirectly env kind managed name arguments context db).1 :=
  callDirectly_keeps Inert.refl (fun _ _ _ => Inert.trans) (fun getter _ heq _ _ =>
      inert_loosely (hdoc.harmless managed kind getter _ context hkind (getter_not_mutation heq)))
    (fun _ => inert_loosely (hdoc.harmless managed kind name arguments context hkind hname))

theorem grants_callDirectly : (callDirectly env kind managed name arguments context db).1.grants = db.grants :=
  callDirectly_keeps (R := fun s t => t.grants = s.grants) (fun _ => rfl) (fun _ _ _ h k => k.trans h)
    (fun _ _ _ _ _ => rfl) (fun _ => rfl)

theorem admission_ok {s t : Database} (h : admission env managed name context s = .ok (kind, t)) :
    managedKind managed = some kind := by
  simp only [admission, bind_ok, ofOption_ok, pure_ok] at h
  obtain ⟨_, _, ⟨hkind, _⟩, _, _, _, _, _, _, rfl, _⟩ := h
  exact hkind

theorem call_cases (env : Environment) (managed name : String) (arguments : List (String × Json))
    (context : ExecutionContext) (db : Database) : (call env managed name arguments context db).1.grants = db.grants ∧
      (env.Documented → Inert db (call env managed name arguments context db).1) ∨
    ∃ kind result t, managedKind managed = some kind ∧ name ∈ mutations kind ∧
      call env managed name arguments context db = (t, .ok result) ∧
      manage env kind (env.core managed name arguments context) context db = .ok (result, t) := by
  rw [call]
  cases hadm : transaction (admission env managed name context) db with
  | mk s outcome =>
    cases outcome with
    | error e => exact .inl ⟨rfl, fun _ => Inert.refl db⟩
    | ok kind =>
      have hkind := admission_ok (transaction_ok hadm)
      by_cases hname : name ∈ mutations kind
      · simp only [contains_iff_mem.mpr hname, if_true]
        cases hwork : transaction (manage env kind (env.core managed name arguments context) context) db with
        | mk t result =>
          cases result with
          | error e =>
            cases transaction_error hwork
            exact .inl ⟨rfl, fun _ => Inert.refl _⟩
          | ok result => exact .inr ⟨kind, result, t, hkind, hname, rfl, transaction_ok hwork⟩
      have hnot : ¬(mutations kind).contains name = true := fun h => hname (contains_iff_mem.mp h)
      simp only [hnot]
      exact .inl ⟨grants_callDirectly, fun hdoc => inert_callDirectly hdoc hkind hname⟩

end Calls

section Requests

variable [Foundations] {s t u : Database} {request : Request} {requests : List Request} {kind : Kind} {name : String}

/-- What a request relies on that is not here: the operations of the definition store. -/
structure Request.Documented (request : Request) : Prop where
  calls : request.env.Documented
  operation : ∀ managed operation kind, request.operation = .mutate managed operation → managedKind managed = some kind →
    Confined kind operation

def Request.Names (request : Request) (kind : Kind) (name : String) : Prop :=
  match request.operation with
  | .approveAuthorization managed identifier _ => managedKind managed = some kind ∧ name = identifier
  | .captureCurrentAuthorizations managed identifiers => managedKind managed = some kind ∧ name ∈ identifiers
  | _ => False

def Request.Touches (request : Request) (s : Database) (kind : Kind) (name : String) : Prop :=
  (perform s request).2 = .ok () ∧ (request.Names kind name ∨ view (perform s request).1 kind name ≠ view s kind name)

def Tracked (s : Database) : Prop :=
  ∀ kind name definition, s.definition kind name = some definition →
    (liveGrants s kind name).length ≤ 1 ∧ ∀ grant ∈ liveGrants s kind name, some grant.digest = definition.digest kind

theorem Effect.congr {principal : PrincipalRef} {named other : Kind → String → Prop} (h : Effect named principal s t)
    (hnam : ∀ kind name, other kind name ↔ named kind name) : Effect other principal s t where
  untouched kind name hnot := h.untouched kind name fun hname => hnot ((hnam kind name).mpr hname)
  revoked := h.revoked
  settled kind name hcha := h.settled kind name (hcha.imp_left (hnam kind name).mp)

theorem approve_effect {env : Environment} {context : ExecutionContext} {identifier : String} {digest : Json}
    {result : Approval} (h : approveAuthorization env managed identifier digest context s = .ok (result, t)) :
    Effect (Request.Names ⟨.approveAuthorization managed identifier digest, context, env⟩) context.initiator s t := by
  obtain ⟨kind, hkind, hrec⟩ := approve_ok h
  exact hrec.effect.congr fun other name => and_congr_left' (managedKind_iff hkind)

theorem captures_effect {env : Environment} {context : ExecutionContext}
    (h : captureCurrentAuthorizations env managed names context s = .ok (results, t)) :
    Effect (Request.Names ⟨.captureCurrentAuthorizations managed names, context, env⟩) context.initiator s t := by
  obtain ⟨kind, hkind, heff⟩ := captureCurrentAuthorizations_ok h
  exact heff.congr fun other name => and_congr (managedKind_iff hkind) mem_fromKeys.symm

/-- What a request does that is no change within a transaction, or that fails. -/
structure Idle (s : Database) (request : Request) : Prop where
  grants : (perform s request).1.grants = s.grants
  inert : request.Documented → Inert s (perform s request).1
  unnamed : (perform s request).2 = .ok () → ∀ kind name, ¬request.Names kind name

theorem idle_of_error {e : Error} (hs : (perform s request).1 = s) (he : (perform s request).2 = .error e) :
    Idle s request where
  grants := by rw [hs]
  inert _ := hs.symm ▸ Inert.refl s
  unnamed hok := by cases he.symm.trans hok

structure Effective (s : Database) (request : Request) : Prop where
  succeeds : (perform s request).2 = .ok ()
  preserves : Preserves request.Names s (perform s request).1
  effect : request.Documented → Effect request.Names request.context.initiator s (perform s request).1

theorem effective_of_done (hdone : perform s request = (t, .ok ())) (hpre : Preserves request.Names s t)
    (heff : request.Documented → Effect request.Names request.context.initiator s t) : Effective s request := by
  refine ⟨congrArg Prod.snd hdone, ?_, ?_⟩
  · rw [hdone]
    exact hpre
  · rw [hdone]
    exact heff

theorem perform_cases (s : Database) (request : Request) : Idle s request ∨ Effective s request := by
  obtain ⟨operation, context, env⟩ := request
  cases operation with
  | mutate managed operation =>
    rcases done_transaction (mutate env managed operation context) s with ⟨hs, e, he⟩ | ⟨a, t, h, hdone⟩
    · exact .inl (idle_of_error hs he)
    obtain ⟨kind, hkind, hman⟩ := mutate_ok h
    exact .inr (effective_of_done hdone (manage_preserves hman) fun hdoc =>
      manage_ok (hdoc.operation managed operation kind rfl hkind) hman)
  | call managed name arguments =>
    rcases call_cases env managed name arguments context s with
      h | ⟨kind, result, t, hkind, hname, hcall, hman⟩
    · exact .inl ⟨h.1, fun hdoc => h.2 hdoc.calls, fun _ _ _ => not_false⟩
    · exact .inr (effective_of_done (congrArg done hcall) (manage_preserves hman) fun hdoc =>
        manage_ok (hdoc.calls.mutation managed kind name arguments context hkind hname) hman)
  | approveAuthorization managed identifier digest =>
    rcases done_transaction (approveAuthorization env managed identifier digest context) s with
      ⟨hs, e, he⟩ | ⟨a, t, h, hdone⟩
    · exact .inl (idle_of_error hs he)
    · exact .inr (effective_of_done hdone (approve_effect h).toPreserves fun _ => approve_effect h)
  | captureCurrentAuthorizations managed identifiers =>
    rcases done_transaction (captureCurrentAuthorizations env managed identifiers context) s with
      ⟨hs, e, he⟩ | ⟨a, t, h, hdone⟩
    · exact .inl (idle_of_error hs he)
    · exact .inr (effective_of_done hdone (captures_effect h).toPreserves fun _ => captures_effect h)

theorem perform_preserves (s : Database) (request : Request) : Preserves request.Names s (perform s request).1 := by
  rcases perform_cases s request with hidle | heff
  · exact .of_grants hidle.grants
  · exact heff.preserves

theorem grantsOf_of_untouched (hdoc : request.Documented) (h : ¬request.Touches s kind name) :
    view (perform s request).1 kind name = view s kind name ∧
      grantsOf (perform s request).1 kind name = grantsOf s kind name := by
  rcases perform_cases s request with hidle | ⟨hok, hpre, _⟩
  · exact ⟨(hidle.inert hdoc).view kind name, by rw [grantsOf, grantsOf, hidle.grants]⟩
  have hnot := fun hboth => h ⟨hok, hboth⟩
  have hview : view (perform s request).1 kind name = view s kind name := by
    by_contra hne
    exact hnot (.inr hne)
  exact ⟨hview, hpre.untouched kind name (fun hnam => hnot (.inl hnam)) hview⟩

theorem settled_of_touches (hdoc : request.Documented) (h : request.Touches s kind name) :
    Settled (perform s request).1 kind name request.context.initiator := by
  rcases perform_cases s request with hidle | ⟨_, _, heff⟩
  · rcases h.2 with hnam | hview
    · exact absurd hnam (hidle.unnamed h.1 kind name)
    · exact absurd ((hidle.inert hdoc).view kind name) hview
  · exact (heff hdoc).settled kind name h.2

theorem tracked_of_settled {definition : Definition} {principal : PrincipalRef} (h : Settled s kind name principal)
    (hdef : s.definition kind name = some definition) :
    (liveGrants s kind name).length ≤ 1 ∧ ∀ grant ∈ liveGrants s kind name, some grant.digest = definition.digest kind := by
  rw [Settled, hdef] at h
  change Granted s kind definition principal at h
  rw [Granted, Table.id_of_find hdef] at h
  split at h
  · obtain ⟨grant, hlive, hdig, _⟩ := h
    rw [hlive]
    exact ⟨Nat.le_refl 1, fun other hoth => mem_singleton.mp hoth ▸ hdig⟩
  · rw [h]
    exact ⟨Nat.zero_le 1, fun grant hgra => absurd hgra not_mem_nil⟩

theorem tracked_perform (hdoc : request.Documented) (h : Tracked s) : Tracked (perform s request).1 := by
  intro kind name definition hdef
  by_cases htou : request.Touches s kind name
  · exact tracked_of_settled (settled_of_touches hdoc htou) hdef
  obtain ⟨hview, hgra⟩ := grantsOf_of_untouched hdoc htou
  rw [view, view, hdef, Option.map_some] at hview
  obtain ⟨old, hold, hjud⟩ := Option.map_eq_some_iff.mp hview.symm
  rw [liveGrants_eq hgra, ← (Prod.mk.inj hjud).1]
  exact h kind name old hold

def Untouched (s : Database) (requests : List Request) (kind : Kind) (name : String) : Prop :=
  Runs.Meets next (fun s request => ¬request.Touches s kind name) s requests

theorem run_induction {I : Database → Prop} {C : Database → Request → Prop}
    (hstep : ∀ u request, request.Documented → I u → C u request → I (perform u request).1)
    (hdoc : ∀ request ∈ requests, request.Documented) (hmee : Runs.Meets next C s requests) (hs : I s)
    (hrun : Runs.run next s requests = some t) : I t := by
  refine Runs.invariant_under (C := fun u request => request.Documented ∧ C u request) (fun u request v hu hC hv => ?_) hs
    ⟨requests, fun pre request post u hes hu => ⟨hdoc request (by simp [hes]), hmee pre request post u hes hu⟩, hrun⟩
  cases hv
  exact hstep u request hC.1 hu hC.2

theorem same_of_untouched (hdoc : ∀ request ∈ requests, request.Documented) (h : Untouched s requests kind name)
    (hrun : Runs.run next s requests = some t) :
    view t kind name = view s kind name ∧ grantsOf t kind name = grantsOf s kind name := by
  refine run_induction (I := fun u => view u kind name = view s kind name ∧ grantsOf u kind name = grantsOf s kind name)
    (fun u request hr hu htou => ?_) hdoc h ⟨rfl, rfl⟩ hrun
  obtain ⟨hview, hgra⟩ := grantsOf_of_untouched hr htou
  exact ⟨hview.trans hu.1, hgra.trans hu.2⟩

theorem meets_true : Runs.Meets next (fun _ _ => True) s requests := fun _ _ _ _ _ _ => trivial

theorem staysRevoked_run (hdoc : ∀ request ∈ requests, request.Documented)
    (hrun : Runs.run next s requests = some t) : StaysRevoked s t :=
  run_induction (fun u request _ hu _ => hu.trans (perform_preserves u request).revoked) hdoc meets_true
    (StaysRevoked.refl s) hrun

/-- Over any sequence of requests: the last one to change a definition settles its grants, a request that fails and a
request about other definitions leave them as they are, and a grant that was revoked is never live again. -/
theorem grants_track_definitions (hdocumented : ∀ request ∈ requests, request.Documented) (hstart : Tracked s)
    (hrun : Runs.run next s requests = some t) :
    Tracked t ∧ (∀ pre request post u kind name, requests = pre ++ request :: post → Runs.run next s pre = some u →
        (perform u request).2 = .ok () → view (perform u request).1 kind name ≠ view u kind name →
        Untouched (perform u request).1 post kind name → Settled t kind name request.context.initiator) ∧
      (∀ kind name, Untouched s requests kind name → grantsOf t kind name = grantsOf s kind name) ∧
      (∀ pre request post u e, requests = pre ++ request :: post → Runs.run next s pre = some u →
        (perform u request).2 = .error e → (perform u request).1.grants = u.grants) ∧
      (∀ pre post u, requests = pre ++ post → Runs.run next s pre = some u →
        ∀ grant ∈ u.grants, grant.revoked → ∀ kept ∈ t.grants, kept.id = grant.id → kept.revoked) := by
  have hrest : ∀ {pre post u}, requests = pre ++ post → Runs.run next s pre = some u → Runs.run next u post = some t := by
    intro pre post u hes hu
    rw [hes, Runs.run_append, hu] at hrun
    exact hrun
  refine ⟨?_, fun pre request post u kind name hes hu hok hne hunt => ?_, fun kind name hunt => ?_,
    fun pre request post u e hes hu he => ?_, fun pre post u hes hu grant hgran hr kept hkept hid => ?_⟩
  · exact run_induction (fun _ _ hr hu _ => tracked_perform hr hu) hdocumented meets_true hstart hrun
  · have hpost := hrest hes hu
    have hset := settled_of_touches (s := u) (hdocumented request (by simp [hes])) ⟨hok, .inr hne⟩
    obtain ⟨hview, hgra⟩ := same_of_untouched (fun r hr => hdocumented r (by simp [hes, hr])) hunt hpost
    exact settled_of_same hview hgra hset
  · exact (same_of_untouched hdocumented hunt hrun).2
  · rcases perform_cases u request with hidle | ⟨hok, _⟩
    · exact hidle.grants
    · cases he.symm.trans hok
  · have hpost := staysRevoked_run (fun r hr => hdocumented r (by simp [hes, hr])) (hrest hes hu)
    obtain ⟨last, hlast, hsame, hrev⟩ := hpost grant hgran
    rw [grant_eq_of_id hkept hlast (hid.trans hsame.symm)]
    exact hrev hr

end Requests

section Edit

abbrev promptHash : Foundations where
  sha256 _ definition :=
    match Definition.get definition "prompt" with
    | .str prompt => prompt
    | _ => ""
  isOneShotExpression _ := false

def promptTask (prompt : String) : Definition := [("id", .str "digest"), ("prompt", .str prompt), ("enabled", .int 1)]

def promptTable (prompt : String) : Table where
  rows := [promptTask prompt]
  identified := by
    intro row hrow
    rw [List.mem_singleton.mp hrow]
    rfl
  switched := by
    intro row hrow
    rw [List.mem_singleton.mp hrow]
    rfl
  distinct := List.nodup_singleton _

def noTable : Table := ⟨[], by simp, by simp, by simp⟩

def promptStore (prompt : String) : Store := ⟨fun kind => if kind = .task then promptTable prompt else noTable, []⟩

def editor : PrincipalRef := ⟨"openagent", "home", "alice", "user"⟩

def rewording (store : Store) : Store × Except Error Json :=
  (⟨Function.update store.tables .task (promptTable "new"), store.schedules⟩, .ok .null)

def edit : Request where
  operation := .mutate "scheduled_task" rewording
  context :=
    { author := editor, initiator := editor, authority := editor, tenantId := "home", sessionId := "", agentId := "",
      audience := [editor] }
  env := { authorized := fun _ _ _ => true, uuid := fun name => "grant-" ++ name, core := fun _ _ _ _ store => (store, .ok .null) }

theorem edit_documented : @Request.Documented promptHash edit := by
  let _ := promptHash
  refine ⟨⟨fun _ _ _ _ _ _ _ _ _ _ => rfl, fun _ _ _ _ _ _ _ _ _ _ => rfl⟩, fun managed operation kind h hkind => ?_⟩
  cases h
  cases hkind
  intro store other hoth
  exact Function.update_of_ne hoth _ _

def unedited : Database := ⟨promptStore "old", [], List.nodup_nil⟩

/-- An edit of an enabled task leaves the one grant of its editor. -/
theorem edit_settles : ∃ t, Runs.run (@next promptHash) unedited [edit] = some t ∧
    @Settled promptHash t .task "digest" editor := by
  let _ := promptHash
  have hsta : Tracked unedited := fun _ _ _ _ => by simp [liveGrants, grantsOf, unedited]
  have hdoc : ∀ request ∈ [edit], request.Documented := by simpa using edit_documented
  have hrun : Runs.run next unedited [edit] = some (perform unedited edit).1 := rfl
  have hlast : Untouched (perform unedited edit).1 [] .task "digest" := fun _ _ _ _ h _ => by simp at h
  exact ⟨_, hrun, (grants_track_definitions hdoc hsta hrun).2.1 [] edit [] unedited .task "digest" rfl rfl rfl
    (by decide) hlast⟩

end Edit

end OpenAgent.Automation
