import OpenAgent.Automation.Executions

namespace OpenAgent.Automation.Executions

open Py List Option

variable {s t : State} {kind : Kind} {name identifier : String} {grant : Grant} {context : ExecutionContext}

section Lookups

theorem id_bind {α β : Type} (a : α) (f : α → Id β) : ((a : Id α) >>= f) = f a := rfl

theorem find_of_mem {p : Grant → Bool} {grants : List Grant} (h : grant ∈ grants) (hp : p grant)
    (honly : ∀ other ∈ grants, p other → other = grant) : grants.find? p = some grant := by
  cases hfind : grants.find? p with
  | none => exact absurd hp (List.find?_eq_none.mp hfind grant h)
  | some other => rw [honly other (mem_of_find?_eq_some hfind) (List.find?_some hfind)]

theorem mem_liveGrants {db : Database} : grant ∈ liveGrants db kind name ↔
    grant ∈ db.grants ∧ grant.concerns kind name = true ∧ grant.revoked = false := by
  rw [liveGrants, grantsOf, mem_filter, mem_filter, and_assoc]
  simp

theorem reads_live (hmem : grant ∈ s.db.grants) (hlive : grant.revoked = false) : s.reads.grant grant.id = some grant :=
  find_of_mem hmem (by simp [hlive]) fun other hoth hp => by
    simp only [Bool.and_eq_true, decide_eq_true_eq] at hp
    exact grant_eq_of_id hoth hmem hp.1

theorem reads_revoked (hmem : grant ∈ s.db.grants) (hrev : grant.revoked) : s.reads.grant grant.id = none := by
  refine List.find?_eq_none.mpr fun other hoth hp => ?_
  simp only [Bool.and_eq_true, decide_eq_true_eq, Bool.not_eq_true'] at hp
  rw [grant_eq_of_id hoth hmem hp.1, hrev] at hp
  cases hp.2

variable [Foundations]

theorem not_validates (hmem : grant ∈ s.db.grants) (hrev : grant.revoked) (hcon : context.delegationId = some grant.id) :
    s.validates context = false := by
  rw [State.validates, validate]
  split
  · rfl
  · rw [hcon, getD_some, reads_revoked hmem hrev]
    rfl

end Lookups

variable {definition : Definition} {host : Host}

section Standing

variable [Foundations]

/-- The definition is enabled, and the one live grant of it is for the revision as it stands. -/
structure Approved (db : Database) (name : String) (definition : Definition) (grant : Grant) : Prop where
  row : db.definition .task name = some definition
  enabled : definition.enabled = true
  live : liveGrants db .task name = [grant]
  digest : some grant.digest = definition.digest .task
  named : grant.id ≠ ""

theorem Approved.found (h : Approved s.db name definition grant) :
    grant ∈ s.db.grants ∧ grant.kind = .task ∧ grant.definitionId = name ∧ grant.revoked = false := by
  have hmem : grant ∈ liveGrants s.db .task name := by
    rw [h.live]
    exact mem_singleton_self _
  obtain ⟨hgra, hcon, hlive⟩ := mem_liveGrants.mp hmem
  obtain ⟨hkind, hdef⟩ := concerns_iff.mp hcon
  exact ⟨hgra, hkind, hdef, hlive⟩

theorem Approved.granted (h : Approved s.db name definition grant) :
    s.db.granted .task name grant.digest = some grant.id := by
  obtain ⟨hgra, hkind, hdef, hlive⟩ := h.found
  have hcon : grant.concerns .task name := concerns_iff.mpr ⟨hkind, hdef⟩
  rw [Database.granted, find_of_mem hgra (by simp [hcon, hlive]) fun other hoth hp => ?_]
  · rfl
  simp only [Bool.and_eq_true, decide_eq_true_eq, Bool.not_eq_true'] at hp
  have hoth' := mem_liveGrants.mpr ⟨hoth, hp.1.1, hp.2⟩
  rw [h.live] at hoth'
  exact mem_singleton.mp hoth'

theorem Approved.validates (h : Approved s.db name definition grant)
    (hact : s.directory.principalActive grant.principal = true) (sessionId : String) :
    validate (m := Id) s.reads (grant.occurrenceContext host.agentName sessionId) = true := by
  obtain ⟨hgra, hkind, hdef, hlive⟩ := h.found
  have hread : s.db.grants.find? (fun other => other.id = grant.id && !other.revoked) = some grant := reads_live hgra hlive
  have hrow : s.db.definition grant.kind grant.definitionId = some definition := by
    rw [hkind, hdef]
    exact h.row
  have hdig : definition.digest grant.kind = some grant.digest := by rw [hkind, h.digest]
  have hgiv : given (some grant.id) = true := by simp [given, h.named]
  have hsub : subset grant.scopes grant.scopes = true := by simp [subset]
  have hena : enabledFor (m := Id) s.reads grant definition (grant.occurrenceContext host.agentName sessionId) = true := by
    rw [enabledFor, if_pos h.enabled]
    rfl
  rw [Grant.occurrenceContext] at hena ⊢
  simp only [validate, hgiv, isEmpty_nil, getD_some, id_bind, hread, hsub, hrow, hena, hdig]
  simp [given, hact]

theorem Approved.resolves (h : Approved s.db name definition grant)
    (hact : s.directory.principalActive grant.principal = true) {occurrence sessionId : String} (hocc : occurrence ≠ "") :
    s.resolve host definition occurrence sessionId = .ok (grant.occurrenceContext host.agentName sessionId) := by
  obtain ⟨hgra, hkind, hdef, hlive⟩ := h.found
  have hid : definition.id = name := Table.id_of_find h.row
  rw [State.resolve, Automation.resolve, if_neg hocc, ← h.digest, hid]
  have hread : s.db.grants.find? (fun other => other.id = grant.id && !other.revoked) = some grant := reads_live hgra hlive
  simp only [h.granted, id_bind, hread, h.validates hact, if_true]
  rfl

theorem given_of_validate {context : ExecutionContext} (h : s.validates context = true) : given context.delegationId = true := by
  rw [State.validates, validate] at h
  by_contra hnot
  rw [if_pos (by simp [hnot])] at h
  cases h

theorem resolve_delegation {occurrence sessionId : String} {context : ExecutionContext}
    (h : s.resolve host definition occurrence sessionId = .ok context) :
    ∃ grant ∈ s.db.grants, context.delegationId = some grant.id ∧ grant.id ≠ "" := by
  rw [State.resolve, Automation.resolve] at h
  split at h
  · cases h
  split at h
  · cases h
  rw [id_bind] at h
  split at h
  · cases h
  rw [id_bind] at h
  split at h
  · cases h
  rename_i grant hgra
  rw [id_bind] at h
  split at h
  · rename_i hval
    cases h
    have hgiv := given_of_validate hval
    refine ⟨grant, mem_of_find?_eq_some hgra, rfl, ?_⟩
    simpa [given, Grant.occurrenceContext] using hgiv
  · cases h

end Standing

variable {execution : Execution}

section Completions

variable {db : Database}

theorem completeOccurrence_stays : StaysRevoked db (completeOccurrence db context) := by
  rw [completeOccurrence]
  split
  · intro grant hgra
    refine ⟨_, mem_map_of_mem hgra, ?_⟩
    split
    · exact ⟨rfl, fun _ => rfl⟩
    · exact ⟨rfl, id⟩
  · exact .refl db

theorem completeOccurrence_revokes (hgra : grant ∈ db.grants) (hcon : context.delegationId = some grant.id)
    (hnam : grant.id ≠ "") : ∃ kept ∈ (completeOccurrence db context).grants, kept.id = grant.id ∧ kept.revoked := by
  have hgiv : given context.delegationId = true := by simp [hcon, given, hnam]
  rw [completeOccurrence, if_pos hgiv]
  refine ⟨_, mem_map_of_mem hgra, ?_⟩
  rw [if_pos hcon.symm]
  exact ⟨rfl, rfl⟩

theorem running_stays (hsta : StaysRevoked s.db t.db)
    (h : ∃ grant ∈ s.db.grants, execution.context.delegationId = some grant.id ∧ grant.id ≠ "") :
    ∃ grant ∈ t.db.grants, execution.context.delegationId = some grant.id ∧ grant.id ≠ "" := by
  obtain ⟨grant, hgra, hcon, hnam⟩ := h
  obtain ⟨kept, hkept, hid, _⟩ := hsta grant hgra
  exact ⟨kept, hkept, by rw [hcon, hid], by rw [hid]; exact hnam⟩

theorem observed_stays (hsta : StaysRevoked s.db t.db) {identifier : String}
    (h : ∃ grant ∈ s.db.grants, grant.id = identifier ∧ grant.revoked) :
    ∃ grant ∈ t.db.grants, grant.id = identifier ∧ grant.revoked := by
  obtain ⟨grant, hgra, hid, hrev⟩ := h
  obtain ⟨kept, hkept, hsame, hr⟩ := hsta grant hgra
  exact ⟨kept, hkept, hsame.trans hid, hr hrev⟩

end Completions

section Invariant

variable [Foundations] {event : Event}

/-- The executions under way carry grants that are there; the definition stays approved until the schedule claims it or
somebody edits it; and what was observed is revoked. -/
structure Standing (name : String) (s : State) : Prop where
  running : ∀ execution ∈ s.running, ∃ grant ∈ s.db.grants, execution.context.delegationId = some grant.id ∧ grant.id ≠ ""
  approved : s.claims = [] → s.edited = false → ∃ definition grant, Approved s.db name definition grant
  observed : ∀ identifier ∈ s.observed, ∃ grant ∈ s.db.grants, grant.id = identifier ∧ grant.revoked

/-- No execution retires the grant before the schedule has claimed the task, and the retirement after its own occurrence
goes through. -/
def Sheltered (s : State) (event : Event) : Prop :=
  match event with
  | .observe index _ cleans => ∀ execution ∈ s.running[index]?, execution.submitted → execution.canonical.oneShot →
      (s.claims = [] → s.edited = false → cleans = false) ∧ (execution.preclaimed → cleans = true)
  | _ => True

theorem Standing.frame (h : Standing name s) (hdb : t.db = s.db) (hcla : t.claims = s.claims) (hedi : t.edited = s.edited)
    (hobs : t.observed = s.observed) (hrun : ∀ execution ∈ t.running, ∃ old ∈ s.running, execution.context = old.context) :
    Standing name t where
  running execution hmem := by
    obtain ⟨old, hold, hcon⟩ := hrun execution hmem
    rw [hcon, hdb]
    exact h.running old hold
  approved := by
    rw [hcla, hedi, hdb]
    exact h.approved
  observed := by
    rw [hobs, hdb]
    exact h.observed

theorem standing_claim {run : String} (h : Standing name s) : Standing name (claim name s run) where
  running := h.running
  approved hcla := by cases hcla
  observed := h.observed

theorem standing_begin {call : TaskCall} (h : Standing name s) : Standing name (begin host name s call) := by
  rw [begin]
  split
  · exact h
  split
  · exact h
  rename_i hres
  have hfound := resolve_delegation hres
  refine ⟨fun execution hmem => ?_, h.approved, h.observed⟩
  rcases mem_append.mp hmem with hmem | hmem
  · exact h.running execution hmem
  · rw [mem_singleton.mp hmem]
    exact hfound

theorem approved_of_same {db db' : Database} (hview : view db' .task name = view db .task name)
    (hgra : grantsOf db' .task name = grantsOf db .task name)
    (h : Approved db name definition grant) : ∃ definition, Approved db' name definition grant := by
  rw [view, view, h.row, map_some, map_eq_some_iff] at hview
  obtain ⟨row, hrow, hjud⟩ := hview
  obtain ⟨hdig, hswi⟩ := Prod.mk.inj hjud
  have hena : row.enabled = definition.enabled := by
    rw [Table.enabled_of_find hrow, Table.enabled_of_find h.row, hswi]
  exact ⟨row, hrow, hena.trans h.enabled, (liveGrants_eq hgra).trans h.live, h.digest.trans hdig.symm, h.named⟩

theorem standing_manages {request : Request} (h : Standing name s) : Standing name (manages name s request) := by
  have hpre := perform_preserves s.db request
  refine ⟨fun execution hmem => ?_, fun hcla hedi => ?_, fun identifier hmem => ?_⟩
  · exact running_stays (t := manages name s request) hpre.revoked (h.running execution hmem)
  · simp only [manages, Bool.or_eq_false_iff, decide_eq_false_iff_not, not_not] at hedi
    obtain ⟨⟨hbef, hnam⟩, hview⟩ := hedi
    obtain ⟨definition, grant, happ⟩ := h.approved hcla hbef
    obtain ⟨row, hrow⟩ := approved_of_same hview (hpre.untouched .task name hnam hview) happ
    exact ⟨row, grant, hrow⟩
  · exact observed_stays (t := manages name s request) hpre.revoked (h.observed identifier hmem)

theorem standing_retire {cleans : Bool} (h : Standing name s)
    (hkee : s.claims = [] → s.edited = false → (execution.canonical.oneShot && cleans) = false) :
    Standing name (retire s execution cleans) := by
  rw [retire]
  split
  · rename_i hret
    have hsta : StaysRevoked s.db (completeOccurrence s.db execution.context) := completeOccurrence_stays
    refine ⟨fun other hmem => ?_, fun hcla hedi => ?_, fun identifier hmem => ?_⟩
    · exact running_stays (t := { s with db := completeOccurrence s.db execution.context }) hsta (h.running other hmem)
    · cases hret.symm.trans (hkee hcla hedi)
    · exact observed_stays (t := { s with db := completeOccurrence s.db execution.context }) hsta (h.observed identifier hmem)
  · exact h

theorem standing_remember {status : Option String} (h : Standing name s)
    (hrev : execution.preclaimed → execution.canonical.oneShot →
      ∀ identifier ∈ execution.context.delegationId, ∃ grant ∈ s.db.grants, grant.id = identifier ∧ grant.revoked) :
    Standing name (remember s execution status) := by
  rw [remember]
  split
  · rename_i hsch
    simp only [Bool.and_eq_true] at hsch
    refine ⟨h.running, h.approved, fun identifier hmem => ?_⟩
    rcases mem_append.mp hmem with hmem | hmem
    · exact hrev hsch.1.1 hsch.1.2 identifier (mem_toList.mp hmem)
    · exact h.observed identifier hmem
  · exact h

theorem standing_conclude {status : Option String} {cleans : Bool} (h : Standing name s)
    (hfound : ∃ grant ∈ s.db.grants, execution.context.delegationId = some grant.id ∧ grant.id ≠ "")
    (hshe : execution.canonical.oneShot → (s.claims = [] → s.edited = false → cleans = false) ∧
      (execution.preclaimed → cleans = true)) : Standing name (conclude s execution status cleans) := by
  have hsame : (timeOut s execution status).db = s.db ∧ (timeOut s execution status).claims = s.claims ∧
      (timeOut s execution status).edited = s.edited ∧ (timeOut s execution status).observed = s.observed ∧
      (timeOut s execution status).running = s.running := by
    rw [timeOut]
    split <;> exact ⟨rfl, rfl, rfl, rfl, rfl⟩
  obtain ⟨hdb, hcla, hedi, hobs, hrun⟩ := hsame
  have htim : Standing name (timeOut s execution status) :=
    h.frame hdb hcla hedi hobs fun other hmem => ⟨other, hrun ▸ hmem, rfl⟩
  refine standing_remember (standing_retire htim fun hnone hnot => ?_) fun hpre hshot identifier hmem => ?_
  · cases hshot : execution.canonical.oneShot with
    | false => rfl
    | true => exact (hshe hshot).1 (hcla ▸ hnone) (hedi ▸ hnot)
  obtain ⟨grant, hgra, hcon, hnam⟩ := hfound
  rw [hcon, mem_some_iff] at hmem
  have hcle := (hshe hshot).2 hpre
  have hdone : (retire (timeOut s execution status) execution cleans).db = completeOccurrence s.db execution.context := by
    rw [retire, hshot, hcle, ← hdb]
    rfl
  rw [hdone, ← hmem]
  exact completeOccurrence_revokes hgra hcon hnam

theorem standing_step (h : Standing name s) (hshe : Sheltered s event) (hnext : next host name s event = some t) :
    Standing name t := by
  cases event with
  | claim run =>
    obtain ⟨_, hnext⟩ := ite_none_right_eq_some.mp hnext
    cases hnext
    exact standing_claim h
  | runTask call =>
    obtain ⟨_, hnext⟩ := ite_none_left_eq_some.mp hnext
    cases hnext
    exact standing_begin h
  | submit index =>
    simp only [next] at hnext
    split at hnext
    · rename_i execution hexe
      obtain ⟨_, hnext⟩ := ite_none_left_eq_some.mp hnext
      cases hnext
      refine h.frame rfl rfl rfl rfl fun other hmem => ?_
      rcases mem_or_eq_of_mem_set hmem with hmem | rfl
      · exact ⟨other, hmem, rfl⟩
      · exact ⟨execution, mem_of_getElem? hexe, rfl⟩
    · cases hnext
  | refuse index =>
    simp only [next] at hnext
    split at hnext
    · obtain ⟨_, hnext⟩ := ite_none_left_eq_some.mp hnext
      cases hnext
      exact h.frame rfl rfl rfl rfl fun other hmem => ⟨other, mem_of_mem_eraseIdx hmem, rfl⟩
    · cases hnext
  | observe index status cleans =>
    simp only [next] at hnext
    split at hnext
    · rename_i execution hexe
      obtain ⟨hsub, hnext⟩ := ite_none_right_eq_some.mp hnext
      cases hnext
      have hrest : Standing name { s with running := s.running.eraseIdx index } :=
        h.frame rfl rfl rfl rfl fun other hmem => ⟨other, mem_of_mem_eraseIdx hmem, rfl⟩
      exact standing_conclude hrest (h.running execution (mem_of_getElem? hexe)) (hshe execution hexe hsub)
    · cases hnext
  | project _ _ _ | accept _ _ | direct _ =>
    cases hnext
    exact h.frame rfl rfl rfl rfl fun other hmem => ⟨other, hmem, rfl⟩
  | wait later =>
    obtain ⟨_, hnext⟩ := ite_none_right_eq_some.mp hnext
    cases hnext
    exact h.frame rfl rfl rfl rfl fun other hmem => ⟨other, hmem, rfl⟩
  | manage request =>
    cases hnext
    exact standing_manages h

end Invariant

section Lawfulness

variable [Foundations] {host : Host} {name : String} {s t : State}

/-- What the authorization of a one-shot task is to be, wherever a run has come. -/
structure Lawful (host : Host) (name : String) (s : State) : Prop where
  authorized : s.claims = [] → s.edited = false →
    (∀ grant ∈ liveGrants s.db .task name, s.directory.principalActive grant.principal = true) →
    ∃ definition, s.db.definition .task name = some definition ∧ ∀ occurrence sessionId, occurrence ≠ "" →
      ∃ context, s.resolve host definition occurrence sessionId = .ok context
  retired : ∀ identifier ∈ s.observed, ∀ context : ExecutionContext, context.delegationId = some identifier →
    s.validates context = false

structure Opening (name : String) (s : State) : Prop where
  running : s.running = []
  claims : s.claims = []
  edited : s.edited = false
  observed : s.observed = []
  approved : ∃ definition grant, Approved s.db name definition grant ∧ definition.oneShot = true

theorem Opening.standing (h : Opening name s) : Standing name s where
  running := by simp [h.running]
  approved _ _ := by
    obtain ⟨definition, grant, happ, _⟩ := h.approved
    exact ⟨definition, grant, happ⟩
  observed := by simp [h.observed]

theorem Standing.lawful (h : Standing name s) : Lawful host name s where
  authorized hcla hedi hact := by
    obtain ⟨definition, grant, happ⟩ := h.approved hcla hedi
    refine ⟨definition, happ.row, fun occurrence sessionId hocc => ⟨_, happ.resolves ?_ hocc⟩⟩
    exact hact grant (by rw [happ.live]; exact mem_singleton_self _)
  retired identifier hmem context hcon := by
    obtain ⟨grant, hgra, hid, hrev⟩ := h.observed identifier hmem
    exact not_validates hgra hrev (by rw [hcon, hid])

/-- Wherever a run comes whose executions shelter the grant, the task is authorized until it is claimed, and no longer
once its occurrence was observed. -/
theorem sheltered_one_shots_lawful (hstart : Opening name s)
    (h : Runs.ReachesUnder (next host name) Sheltered s t) : Lawful host name t :=
  (Runs.invariant_under (fun _ _ _ hs hshe hnext => standing_step hs hshe hnext) hstart.standing h).lawful

instance (s : State) (event : Event) : Decidable (Sheltered s event) :=
  match event with
  | .observe index _ cleans => inferInstanceAs (Decidable (∀ execution ∈ s.running[index]?, execution.submitted →
      execution.canonical.oneShot → (s.claims = [] → s.edited = false → cleans = false) ∧ (execution.preclaimed → cleans = true)))
  | .claim _ | .runTask _ | .submit _ | .refuse _ | .project _ _ _ | .accept _ _ | .direct _ | .wait _ | .manage _ =>
    inferInstanceAs (Decidable True)

end Lawfulness

section Runs

abbrev onceHash : Foundations := { promptHash with isOneShotExpression := fun _ => true }

def reminder : State where
  db :=
    { store := promptStore "remind"
      grants := [⟨"grant", .task, "digest", "remind", editor, [editor], [], false⟩]
      distinct := List.nodup_singleton _ }
  directory := { resolver := some fun _ => true }

def laptop : Host := ⟨"agent", fun text => text⟩

theorem reminder_opening : @Opening onceHash "digest" reminder :=
  let _ := onceHash
  ⟨rfl, rfl, rfl, rfl, promptTask "remind", ⟨"grant", .task, "digest", "remind", editor, [editor], [], false⟩,
    ⟨rfl, rfl, by decide, rfl, by decide⟩, rfl⟩

def scheduledRun : List Event :=
  [.claim "run", .runTask { preclaimed := some "run", fresh := "" }, .submit 0, .observe 0 (some "success") true]

theorem scheduled_run_lawful : ∃ t, Runs.run (@next onceHash laptop "digest") reminder scheduledRun = some t ∧
    t.observed = ["grant"] ∧ @Lawful onceHash laptop "digest" t := by
  let _ := onceHash
  refine ⟨_, rfl, rfl, ?_⟩
  have hshe : Runs.all (fun s e => decide (Sheltered s e)) (next laptop "digest") reminder scheduledRun = true := by
    decide
  exact sheltered_one_shots_lawful reminder_opening (Runs.reachesUnder_of_all hshe rfl)

def manualRun : List Event :=
  [.runTask { requestId := some "by hand", fresh := "" }, .submit 0, .observe 0 (some "success") true]

/-- A run by hand takes the authorization of the scheduled occurrence away. -/
theorem manual_run_retires : ¬∀ (host : Host) (name : String) (s : State) (events : List Event) (t : State),
    @Opening onceHash name s → Runs.run (@next onceHash host name) s events = some t → @Lawful onceHash host name t := by
  intro hall
  let _ := onceHash
  have hlaw := hall laptop "digest" reminder manualRun _ reminder_opening rfl
  obtain ⟨definition, hrow, hres⟩ := hlaw.authorized rfl rfl (fun _ _ => rfl)
  obtain ⟨context, hcon⟩ := hres "due" "" (by decide)
  cases hrow
  cases hcon

end Runs

end OpenAgent.Automation.Executions
