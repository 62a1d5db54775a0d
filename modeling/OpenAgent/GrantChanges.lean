import OpenAgent.Grants
import Mathlib.Data.List.Dedup

namespace OpenAgent

open Py List Option

open Dashboards (StoredView)

def aclPrincipalTypes : List String := ["user", "agent", "device", "system", "installation", "role"]

def Permission.text : Permission → String
  | .view => "view"
  | .search => "search"
  | .revealSensitive => "reveal_sensitive"
  | .admin => "admin"

def Permission.ofText (text : String) : Option Permission :=
  [.view, .search, .revealSensitive, .admin].find? (fun p => p.text = text)

/-- How a transaction ends: it fails and is rolled back, or it commits; the answer can fail after that. -/
inductive Ending
  | fails
  | commits (answers : Bool)
deriving DecidableEq

/-- What becomes of a call; the answer to a change that is committed lists the grants. -/
inductive Outcome
  | refused
  | rolledBack
  | committed (answer : Option (List Grant))
deriving DecidableEq

def isHandle (s : String) : Bool :=
  match s.toList with
  | c :: cs => c.isAlphanum && cs.length ≤ 127 && cs.all (fun c => c.isAlphanum || c = '_' || c = '.' || c = '-')
  | [] => false

def memberBody : Json → Option (String × Option Permission)
  | .obj entries =>
    let body := Json.obj entries
    if !entries.all (fun e => e.1 = "handle" || e.1 = "permission") || !body.has "handle" || !body.has "permission" then none
    else match body.field "handle", body.field "permission" with
      | .str handle, .null => if isHandle handle then some (handle, none) else none
      | .str handle, .str permission =>
        if !isHandle handle then none
        else if permission = "view" then some (handle, some .view)
        else if permission = "admin" then some (handle, some .admin)
        else none
      | _, _ => none
  | _ => none

/-- What a sharing request meets: whether the host manages sharing itself, whether the device is still authorized at each
check, and the directory of the users. -/
structure MemberRequest where
  hostManaged : Bool
  authorizedFirst : Bool
  body : Json
  directory : Option (String → Bool)
  authorizedAgain : Bool
  now : Int
  ending : Ending
  authorizedLast : Bool

def principalAccepted (p : Principal) : Bool := aclPrincipalTypes.contains p.1 && 1 ≤ p.2.length && p.2.length ≤ 512

/-- The permissions of a call, sorted; `none` if there are none, or one is unknown. -/
def permissionSet (permissions : List String) : Option (List Permission) :=
  let texts := permissions.dedup.insertionSort (fun a b => a ≤ b)
  if texts = [] || texts.any (fun text => Permission.ofText text = none) then none
  else some (texts.filterMap Permission.ofText)

def newGrant (r : Resource) (p : Principal) (version : Nat) (grantedBy : String) (now : Int) (permission : Permission) : Grant where
  tenantId := r.tenantId
  resourceType := r.resourceType
  resourceId := r.id
  principalType := p.1
  principalId := p.2
  permission := permission
  aclVersion := version
  grantedBy := some grantedBy
  grantedAtMs := now

/-- `ORDER BY principal_type, principal_id, permission`. -/
def grantKey (g : Grant) : List String := [g.principalType, g.principalId, g.permission.text]

namespace AclStore

def inForce (s : AclStore) (r : Resource) (version : Nat) : List Grant :=
  (s.grants.rows.values.filter (fun g => g.resource = r && g.aclVersion = version)).insertionSort
    (fun g h => grantKey g ≤ grantKey h)

variable [AccessPolicy]

def authorizedRow (s : AclStore) (view : String) (access : AccessContext) (permission : Permission) : Option StoredView :=
  match s.views.get? view with
  | some row =>
    if row.status = .deleted || !AccessPolicy.resourceIsVisible s.grants.rows.values row.aclRow access permission then none
    else some row
  | none => none

def viewResource (row : StoredView) (view : String) : Resource := ⟨row.tenantId, .uiView, view⟩

def listGrants (s : AclStore) (view : String) (access : AccessContext) : Option (List Grant) :=
  (s.authorizedRow view access .admin).map (fun row => s.inForce (viewResource row view) row.aclVersion)

def sessionMembers (s : AclStore) (r : Resource) (version : Nat) : List Grant :=
  (s.inForce r version).filter (fun g => g.principalType = "user")

/-- What the transaction of `set_grant` writes, and that of `delete_grant`, which inserts nothing. -/
def regranted (s : AclStore) (row : StoredView) (view : String) (access : AccessContext) (p : Principal)
    (permissions : List Permission) (now : Int) : AclStore :=
  let expected := row.aclVersion
  let next := expected + 1
  let r := viewResource row view
  { s with
    grants := ((s.grants.advance r expected next).delete r [p]).insertAll
      (permissions.map (newGrant r p next access.principalId now))
    views := s.views.set view { row with aclVersion := next, updatedAtMs := now } }

def grantTransaction (s : AclStore) (row : StoredView) (view : String) (access : AccessContext) (p : Principal)
    (permissions : List Permission) (now : Int) : Ending → AclStore × Outcome
  | .fails => (s, .rolledBack)
  | .commits answers =>
    match s.views.get? view with
    | some current =>
      -- the update of the view has to meet its row at the expected version
      if current.aclVersion = row.aclVersion then
        let t := s.regranted current view access p permissions now
        (t, .committed (if answers then t.listGrants view access else none))
      else (s, .rolledBack)
    | none => (s, .rolledBack)

def setGrant (s : AclStore) (view : String) (access : AccessContext) (p : Principal) (permissions : List String)
    (expected : Int) (now : Int) (ending : Ending) : AclStore × Outcome :=
  if !principalAccepted p then (s, .refused)
  else match permissionSet permissions, s.authorizedRow view access .admin with
    | some permissions, some row =>
      if (row.aclVersion : Int) ≠ expected then (s, .refused)
      else s.grantTransaction row view access p permissions now ending
    | _, _ => (s, .refused)

def deleteGrant (s : AclStore) (view : String) (access : AccessContext) (p : Principal) (expected : Int) (now : Int)
    (ending : Ending) : AclStore × Outcome :=
  if !principalAccepted p then (s, .refused)
  else match s.authorizedRow view access .admin with
    | some row =>
      if (row.aclVersion : Int) ≠ expected then (s, .refused)
      else if !s.grants.rows.values.any (fun g => g.resource = viewResource row view && g.principal = p) then (s, .refused)
      else s.grantTransaction row view access p [] now ending
    | none => (s, .refused)

def memberPrincipals (handle : String) : List Principal := [("user", handle), ("user", "user:" ++ handle)]

def reshared (s : AclStore) (row : StoredSession) (session : String) (access : AccessContext) (handle : String)
    (permission : Option Permission) (now : Int) : AclStore :=
  let r : Resource := ⟨access.tenantId, .session, session⟩
  let next := row.aclVersion + 1
  { s with
    grants := ((s.grants.delete r (memberPrincipals handle)).advance r row.aclVersion next).insertAll
      (permission.toList.map (newGrant r ("user", handle) next access.principalId now))
    sessions := s.sessions.set session { row with aclVersion := next } }

/-- `handle_members`, of a PUT request. -/
def putMember (s : AclStore) (session : String) (access : AccessContext) (q : MemberRequest) : AclStore × Outcome :=
  if q.hostManaged || !q.authorizedFirst then (s, .refused)
  else match s.sessions.get? session with
    | none => (s, .refused)
    | some row =>
      if row.deletedAtMs.isSome ||
          !AccessPolicy.resourceIsVisible s.grants.rows.values (row.aclRow session) access .view then (s, .refused)
      else if !(access.principalIds.contains row.ownerPrincipalId && row.tenantId = access.tenantId) then (s, .refused)
      else match memberBody q.body with
        | none => (s, .refused)
        | some (handle, permission) =>
          if permission.isSome && !q.directory.any (fun active => active handle) then (s, .refused)
          else if !q.authorizedAgain then (s, .refused)
          else match q.ending with
            | .fails => (s, .rolledBack)
            | .commits answers =>
              let t := s.reshared row session access handle permission q.now
              let r : Resource := ⟨access.tenantId, .session, session⟩
              (t, .committed (if answers && q.authorizedLast then some (t.sessionMembers r (row.aclVersion + 1)) else none))

end AclStore

inductive GrantRequest
  | setGrant (view : String) (access : AccessContext) (p : Principal) (permissions : List String) (expected : Int)
      (now : Int) (ending : Ending)
  | deleteGrant (view : String) (access : AccessContext) (p : Principal) (expected : Int) (now : Int) (ending : Ending)
  | putMember (session : String) (access : AccessContext) (q : MemberRequest)

namespace GrantRequest

def target : GrantRequest → ResourceType × String
  | .setGrant view .. | .deleteGrant view .. => (.uiView, view)
  | .putMember session .. => (.session, session)

def named : GrantRequest → List Principal
  | .setGrant _ _ p .. | .deleteGrant _ _ p .. => [p]
  | .putMember _ _ q => ((memberBody q.body).map (fun b => AclStore.memberPrincipals b.1)).getD []

def granted : GrantRequest → Principal → Set Permission
  | .setGrant _ _ p permissions .., p' => { permission | p' = p ∧ permission.text ∈ permissions }
  | .deleteGrant .., _ => ∅
  | .putMember _ _ q, p' => { permission | ∃ handle, memberBody q.body = some (handle, some permission) ∧ p' = ("user", handle) }

end GrantRequest

def AclStore.change [AccessPolicy] (s : AclStore) : GrantRequest → AclStore × Outcome
  | .setGrant view access p permissions expected now ending => s.setGrant view access p permissions expected now ending
  | .deleteGrant view access p expected now ending => s.deleteGrant view access p expected now ending
  | .putMember session access q => s.putMember session access q

def changeNext [AccessPolicy] (s : AclStore) (q : GrantRequest) : Option AclStore := some (s.change q).1

theorem Permission.ofText_eq_some (text : String) (p : Permission) : Permission.ofText text = some p ↔ p.text = text := by
  constructor
  · intro h
    simpa using List.find?_some h
  · rintro rfl
    cases p <;> rfl

theorem mem_permissionSet {permissions : List String} {ps : List Permission} (h : permissionSet permissions = some ps)
    (p : Permission) : p ∈ ps ↔ p.text ∈ permissions := by
  rw [permissionSet.eq_def] at h
  dsimp only at h
  split at h
  · cases h
  cases h
  rw [mem_filterMap]
  constructor
  · rintro ⟨text, htext, hp⟩
    rw [Permission.ofText_eq_some] at hp
    rw [hp]
    exact mem_dedup.mp ((perm_insertionSort _ _).mem_iff.mp htext)
  · intro hp
    exact ⟨p.text, (perm_insertionSort _ _).mem_iff.mpr (mem_dedup.mpr hp), (Permission.ofText_eq_some _ _).mpr rfl⟩

theorem newGrants_granted (r : Resource) (p : Principal) (version : Nat) (grantedBy : String) (now : Int)
    (ps : List Permission) (p' : Principal) :
    { permission | ∃ g ∈ ps.map (newGrant r p version grantedBy now), g.principal = p' ∧ g.permission = permission } =
      { permission | p' = p ∧ permission ∈ ps } := by
  apply Set.ext
  intro permission
  constructor
  · rintro ⟨g, hg, rfl, rfl⟩
    obtain ⟨permission, hp, rfl⟩ := mem_map.mp hg
    exact ⟨rfl, hp⟩
  · rintro ⟨rfl, hp⟩
    exact ⟨_, mem_map_of_mem hp, rfl, rfl⟩

namespace AclStore

variable {s t : AclStore} {r : Resource} {version : Nat}
variable {row : StoredView} {view : String}

theorem version_view (hrow : s.views.get? view = some row) :
    s.version (viewResource row view) = some row.aclVersion := by
  rw [version, viewResource]
  rw [hrow, filter_some, if_pos (by simp)]
  rfl

theorem version_set_view (hrow : s.views.get? view = some row) (next : Nat) (now : Int)
    (grants : GrantTable) (r : Resource) :
    ({ s with views := s.views.set view { row with aclVersion := next, updatedAtMs := now }, grants } : AclStore).version r =
      if r = viewResource row view then some next else s.version r := by
  obtain ⟨tenant, kind, id⟩ := r
  cases kind with
  | session =>
    rw [if_neg (by simp [viewResource])]
    rfl
  | uiView =>
    rw [version, version]
    rw [Dict.get?_set]
    by_cases hid : id = view
    · subst hid
      rw [if_pos rfl, hrow]
      by_cases hten : row.tenantId = tenant
      · simp [viewResource, hten]
      · simp [viewResource, filter_some, hten, Ne.symm hten]
    · rw [if_neg hid, if_neg (by simp [viewResource, hid])]

theorem version_set_session {row : StoredSession} {session : String} (hrow : s.sessions.get? session = some row) (next : Nat)
    (grants : GrantTable) (r : Resource) :
    ({ s with sessions := s.sessions.set session { row with aclVersion := next }, grants } : AclStore).version r =
      if r = ⟨row.tenantId, .session, session⟩ then some next else s.version r := by
  obtain ⟨tenant, kind, id⟩ := r
  cases kind with
  | uiView =>
    rw [if_neg (by simp)]
    rfl
  | session =>
    rw [version, version]
    rw [Dict.get?_set]
    by_cases hid : id = session
    · subst hid
      rw [if_pos rfl, hrow]
      by_cases hten : row.tenantId = tenant
      · simp [hten]
      · simp [filter_some, hten, Ne.symm hten]
    · rw [if_neg hid, if_neg (by simp [hid])]

variable [AccessPolicy]

variable {access : AccessContext}

theorem authorizedRow_eq_some {permission : Permission}
    (h : s.authorizedRow view access permission = some row) : s.views.get? view = some row := by
  rw [authorizedRow] at h
  split at h
  next found hfound =>
    split at h
    · cases h
    · cases h
      exact hfound
  next => cases h

omit [AccessPolicy] in
theorem regranted_changed (hrow : s.views.get? view = some row) (access : AccessContext)
    (p : Principal) (permissions : List Permission) (now : Int) :
    s.Changed (s.regranted row view access p permissions now) (viewResource row view) row.aclVersion [p]
      (permissions.map (newGrant (viewResource row view) p (row.aclVersion + 1) access.principalId now)) := by
  refine ⟨version_view hrow, version_set_view hrow _ _ _, s.grants.replaced_advance_delete _ _ _ _, ?_⟩
  intro g hg
  obtain ⟨permission, _, rfl⟩ := mem_map.mp hg
  exact ⟨rfl, rfl, mem_singleton.mpr rfl⟩

omit [AccessPolicy] in
theorem reshared_changed {row : StoredSession} {session : String} (hrow : s.sessions.get? session = some row)
    (hten : row.tenantId = access.tenantId) (handle : String) (permission : Option Permission)
    (now : Int) :
    s.Changed (s.reshared row session access handle permission now) ⟨access.tenantId, .session, session⟩ row.aclVersion
      (memberPrincipals handle) (permission.toList.map
        (newGrant ⟨access.tenantId, .session, session⟩ ("user", handle) (row.aclVersion + 1) access.principalId now)) := by
  refine ⟨?_, ?_, s.grants.replaced_delete_advance _ _ _ _, ?_⟩
  · rw [version]
    rw [hrow, filter_some, if_pos (by simp [hten])]
    rfl
  · rw [← hten]
    exact version_set_session hrow _ _
  intro g hg
  obtain ⟨permission, _, rfl⟩ := mem_map.mp hg
  exact ⟨rfl, rfl, mem_cons_self⟩

theorem grantTransaction_cases {p : Principal}
    {permissions : List Permission} {now : Int} {ending : Ending} (hrow : s.views.get? view = some row) :
    s.grantTransaction row view access p permissions now ending = (s, .rolledBack) ∨
    ∃ t answer, s.grantTransaction row view access p permissions now ending = (t, .committed answer) ∧
      s.Changed t (viewResource row view) row.aclVersion [p]
        (permissions.map (newGrant (viewResource row view) p (row.aclVersion + 1) access.principalId now)) := by
  cases ending with
  | fails => exact .inl rfl
  | commits answers =>
    rw [grantTransaction, hrow]
    dsimp only
    rw [if_pos rfl]
    exact .inr ⟨_, _, rfl, regranted_changed hrow access p permissions now⟩

theorem change_cases (s : AclStore) (q : GrantRequest) :
    ((s.change q).1 = s ∧ ((s.change q).2 = .refused ∨ (s.change q).2 = .rolledBack)) ∨
    ∃ r version added answer, (s.change q).2 = .committed answer ∧ s.Changed (s.change q).1 r version q.named added ∧
      (r.resourceType, r.id) = q.target ∧
      ∀ p, { permission | ∃ g ∈ added, g.principal = p ∧ g.permission = permission } = q.granted p := by
  cases q with
  | setGrant view access p permissions expected now ending =>
    rw [change, setGrant]
    split
    · exact .inl ⟨rfl, .inl rfl⟩
    split
    next ps row hps hrow =>
      split
      · exact .inl ⟨rfl, .inl rfl⟩
      rcases s.grantTransaction_cases (authorizedRow_eq_some hrow) with he | ⟨t, answer, he, hcha⟩
      · rw [he]
        exact .inl ⟨rfl, .inr rfl⟩
      rw [he]
      refine .inr ⟨_, _, _, answer, rfl, hcha, rfl, ?_⟩
      intro p'
      rw [newGrants_granted, GrantRequest.granted]
      apply Set.ext
      intro permission
      rw [Set.mem_ofPred_eq, Set.mem_ofPred_eq, mem_permissionSet hps]
    next => exact .inl ⟨rfl, .inl rfl⟩
  | deleteGrant view access p expected now ending =>
    rw [change, deleteGrant]
    split
    · exact .inl ⟨rfl, .inl rfl⟩
    split
    next row hrow =>
      split
      · exact .inl ⟨rfl, .inl rfl⟩
      split
      · exact .inl ⟨rfl, .inl rfl⟩
      rcases s.grantTransaction_cases (authorizedRow_eq_some hrow) with he | ⟨t, answer, he, hcha⟩
      · rw [he]
        exact .inl ⟨rfl, .inr rfl⟩
      rw [he]
      refine .inr ⟨_, _, _, answer, rfl, hcha, rfl, ?_⟩
      intro p'
      rw [newGrants_granted, GrantRequest.granted]
      apply Set.ext
      simp
    next => exact .inl ⟨rfl, .inl rfl⟩
  | putMember session access q =>
    rw [change, putMember]
    split
    · exact .inl ⟨rfl, .inl rfl⟩
    split
    · exact .inl ⟨rfl, .inl rfl⟩
    next row hrow =>
    split
    · exact .inl ⟨rfl, .inl rfl⟩
    split
    · exact .inl ⟨rfl, .inl rfl⟩
    next hown =>
    split
    · exact .inl ⟨rfl, .inl rfl⟩
    next handle permission hbody =>
    split
    · exact .inl ⟨rfl, .inl rfl⟩
    split
    · exact .inl ⟨rfl, .inl rfl⟩
    have hten : row.tenantId = access.tenantId := by
      simp only [Bool.not_eq_true', Bool.not_eq_false, Bool.and_eq_true, decide_eq_true_eq] at hown
      exact hown.2
    split
    · exact .inl ⟨rfl, .inr rfl⟩
    have hnam : (GrantRequest.putMember session access q).named = memberPrincipals handle := by
      rw [GrantRequest.named, hbody]
      rfl
    refine .inr ⟨_, _, _, _, rfl, hnam ▸ reshared_changed hrow hten handle permission q.now, rfl, ?_⟩
    intro p'
    rw [newGrants_granted, GrantRequest.granted]
    apply Set.ext
    intro permission'
    rw [Set.mem_ofPred_eq, Set.mem_ofPred_eq, hbody, mem_toList]
    constructor
    · rintro ⟨rfl, rfl⟩
      exact ⟨handle, rfl, rfl⟩
    rintro ⟨hand', he, rfl⟩
    cases he
    exact ⟨rfl, rfl⟩

theorem bounded_change (s : AclStore) (q : GrantRequest) (hs : s.Bounded) : (s.change q).1.Bounded := by
  rcases change_cases s q with ⟨he, _⟩ | ⟨_, _, _, _, _, hcha, _⟩
  · rw [he]
    exact hs
  · exact hcha.bounded hs

/-- A call that commits replaces what the principal holds that it names, any other changes nothing, and a grant that was
not in force is not in force afterwards. -/
theorem grant_changes_exact {s₀ s : AclStore} (h₀ : s₀.Bounded) {qs : List GrantRequest}
    (h : Runs.run changeNext s₀ qs = some s) (q : GrantRequest) :
    (∀ answer, (s.change q).2 = .committed answer → ∃ r, (s.version r).isSome ∧ (r.resourceType, r.id) = q.target ∧
      (s.change q).1.access = s.access.replace r q.named q.granted) ∧
    ((s.change q).2 = .refused ∨ (s.change q).2 = .rolledBack → (s.change q).1 = s) ∧
    ∀ n g g', s.grants.rows.get? n = some g → (s.change q).1.grants.rows.get? n = some g' →
      ¬ s.Valid g → ¬ (s.change q).1.Valid g' := by
  have hs : s.Bounded := by
    refine Runs.invariant ?_ h₀ ⟨qs, h⟩
    intro s q t hs he
    cases he
    exact bounded_change s q hs
  rcases change_cases s q with ⟨he, hout⟩ | ⟨r, version, added, answer, hout, hcha, htar, hgra⟩
  · refine ⟨?_, fun _ => he, ?_⟩
    · intro answer hcom
      rw [hcom] at hout
      rcases hout with hout | hout <;> cases hout
    · intro n g g' hg hg' hval
      rw [he] at hg' ⊢
      rw [hg, Option.some.injEq] at hg'
      exact hg' ▸ hval
  refine ⟨?_, ?_, ?_⟩
  · intro _ _
    refine ⟨r, by rw [hcha.before]; rfl, htar, ?_⟩
    rw [hcha.access hs]
    apply congrArg
    funext p
    exact hgra p
  · rw [hout]
    rintro (he | he) <;> cases he
  · intro n g g' hg hg' hval
    exact hcha.not_revived hs hg hg' hval

end AclStore

def staleGrant : Grant where
  tenantId := "tenant"
  resourceType := .uiView
  resourceId := "v"
  principalType := "user"
  principalId := "user:carol"
  permission := .view
  aclVersion := 0
  grantedBy := none
  grantedAtMs := 0

def staleStore : AclStore where
  views := Dict.empty.set "v" (Dashboards.privateView "user:alice" 0)
  grants := ({} : GrantTable).insert staleGrant

def shareWithBob : GrantRequest := .setGrant "v" Dashboards.alice ("user", "user:bob") ["view"] 1 0 (.commits true)

def unshareFromBob : GrantRequest := .deleteGrant "v" Dashboards.alice ("user", "user:bob") 2 0 (.commits true)

theorem staleStore_bounded : staleStore.Bounded := by
  intro n g version hg hver
  rw [staleStore, GrantTable.get?_insert] at hg
  split at hg
  · cases hg
    exact Nat.zero_le _
  · cases hg

theorem unshared_view : ∃ s r, Runs.run (@changeNext Dashboards.ownerPolicy) staleStore [shareWithBob] = some s ∧
    r.id = "v" ∧ (@AclStore.change Dashboards.ownerPolicy s unshareFromBob).1.access =
      s.access.replace r [("user", "user:bob")] (fun _ => ∅) := by
  have hrun : (Runs.run (@changeNext Dashboards.ownerPolicy) staleStore [shareWithBob]).any (fun s =>
      match (@AclStore.change Dashboards.ownerPolicy s unshareFromBob).2 with
      | .committed _ => true
      | _ => false) = true := by decide +kernel
  obtain ⟨s, hs, htest⟩ := (any_eq_true _ _).mp hrun
  split at htest
  next answer hout =>
    obtain ⟨hexa, _⟩ := @AclStore.grant_changes_exact Dashboards.ownerPolicy staleStore s staleStore_bounded [shareWithBob] hs
      unshareFromBob
    obtain ⟨r, _, htar, hacc⟩ := hexa answer hout
    exact ⟨s, r, hs, congrArg Prod.snd htar, hacc⟩
  next => cases htest

namespace AclStore

variable [AccessPolicy]

/-- Versions only grow, and whoever no request on a resource names keeps what it may do with it. -/
theorem unnamed_access_kept {s₀ s : AclStore} (h₀ : s₀.Bounded) {qs : List GrantRequest}
    (h : Runs.run changeNext s₀ qs = some s) :
    (∀ r v, s₀.version r = some v → ∃ v', s.version r = some v' ∧ v ≤ v') ∧
    ∀ r p, (∀ q ∈ qs, q.target = (r.resourceType, r.id) → p ∉ q.named) → s.access r p = s₀.access r p := by
  induction qs generalizing s₀ with
  | nil =>
    cases h
    exact ⟨fun r v hv => ⟨v, hv, Nat.le_refl v⟩, fun _ _ _ => rfl⟩
  | cons q qs ih =>
    obtain ⟨hver, hacc⟩ := ih (bounded_change s₀ q h₀) h
    rcases change_cases s₀ q with ⟨he, _⟩ | ⟨r', version, added, answer, _, hcha, htar, _⟩
    · rw [he] at hver hacc
      exact ⟨hver, fun r p hq => hacc r p fun q' hq' => hq q' (mem_cons_of_mem q hq')⟩
    constructor
    · intro r v hv
      have hstep : ∃ v', (s₀.change q).1.version r = some v' ∧ v ≤ v' := by
        rw [hcha.after]
        split
        next hr =>
          rw [hr, hcha.before, some_inj] at hv
          exact ⟨_, rfl, by omega⟩
        next => exact ⟨v, hv, Nat.le_refl v⟩
      obtain ⟨v', hv', hle⟩ := hstep
      obtain ⟨w, hw, hle'⟩ := hver r v' hv'
      exact ⟨w, hw, hle.trans hle'⟩
    · intro r p hq
      rw [hacc r p fun q' hq' => hq q' (mem_cons_of_mem q hq'), hcha.access h₀, AccessMap.replace, if_neg]
      rintro ⟨rfl, hp⟩
      exact hq q mem_cons_self htar.symm hp

end AclStore

theorem unnamed_access_kept_carol : ∃ s, Runs.run (@changeNext Dashboards.ownerPolicy) staleStore [shareWithBob] = some s ∧
    ∀ r, s.access r ("user", "user:carol") = staleStore.access r ("user", "user:carol") := by
  have hrun : (Runs.run (@changeNext Dashboards.ownerPolicy) staleStore [shareWithBob]).isSome = true := by
    decide +kernel
  obtain ⟨s, hs⟩ := Option.isSome_iff_exists.mp hrun
  refine ⟨s, hs, fun r => (@AclStore.unnamed_access_kept Dashboards.ownerPolicy staleStore s staleStore_bounded _ hs).2
    r _ fun q hq _ => ?_⟩
  rw [List.mem_singleton.mp hq]
  decide

end OpenAgent
