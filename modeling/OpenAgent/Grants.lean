import OpenAgent.Dashboards.Listing

namespace OpenAgent

open Py Option

open Dashboards (StoredView)

structure Resource where
  tenantId : String
  resourceType : ResourceType
  id : String
deriving DecidableEq

/-- `(principal_type, principal_id)`. -/
abbrev Principal := String × String

local instance : LawfulBEq Principal := inferInstance

def AccessMap := Resource → Principal → Set Permission

def AccessMap.replace (m : AccessMap) (r : Resource) (named : List Principal) (granted : Principal → Set Permission) : AccessMap :=
  fun r' p => if r' = r ∧ p ∈ named then granted p else m r' p

def Grant.resource (g : Grant) : Resource := ⟨g.tenantId, g.resourceType, g.resourceId⟩

def Grant.principal (g : Grant) : Principal := (g.principalType, g.principalId)

def Grant.advanced (g : Grant) (r : Resource) (version next : Nat) : Grant :=
  if g.resource = r ∧ g.aclVersion = version then { g with aclVersion := next } else g

@[simp] theorem Grant.advanced_resource (g : Grant) (r : Resource) (version next : Nat) :
    (g.advanced r version next).resource = g.resource := by
  rw [advanced]
  split <;> rfl

@[simp] theorem Grant.advanced_principal (g : Grant) (r : Resource) (version next : Nat) :
    (g.advanced r version next).principal = g.principal := by
  rw [advanced]
  split <;> rfl

@[simp] theorem Grant.advanced_permission (g : Grant) (r : Resource) (version next : Nat) :
    (g.advanced r version next).permission = g.permission := by
  rw [advanced]
  split <;> rfl

/-- `resource_acl`. The numbers tell a row from later ones with the same columns. -/
structure GrantTable where
  rows : Dict Nat Grant := Dict.empty
  next : Nat := 0
  fresh : ∀ n g, rows.get? n = some g → n < next := by intro n g h; cases h

namespace GrantTable

/-- `UPDATE resource_acl SET acl_version=? WHERE … AND acl_version=?`. -/
def advance (table : GrantTable) (r : Resource) (version next : Nat) : GrantTable where
  rows := table.rows.mapEntries (fun _ g => g.advanced r version next)
  next := table.next
  fresh := by
    intro n g h
    rw [Dict.get?_mapEntries] at h
    obtain ⟨g', hg', _⟩ := Option.map_eq_some_iff.mp h
    exact table.fresh n g' hg'

/-- `DELETE FROM resource_acl`, of the rows of some principals. -/
def delete (table : GrantTable) (r : Resource) (named : List Principal) : GrantTable where
  rows := table.rows.filter (fun _ g => !(g.resource = r && named.contains g.principal))
  next := table.next
  fresh := by
    intro n g h
    rw [Dict.get?_filter] at h
    exact table.fresh n g (Option.filter_eq_some_iff.mp h).1

def insert (table : GrantTable) (g : Grant) : GrantTable where
  rows := table.rows.set table.next g
  next := table.next + 1
  fresh := by
    intro n g' h
    rw [Dict.get?_set] at h
    split at h
    next hn => exact hn ▸ Nat.lt_succ_self _
    next => exact (table.fresh n g' h).trans (Nat.lt_succ_self _)

def insertAll (table : GrantTable) (gs : List Grant) : GrantTable := gs.foldl insert table

theorem get?_insert (table : GrantTable) (g : Grant) (n : Nat) :
    (table.insert g).rows.get? n = if n = table.next then some g else table.rows.get? n := Dict.get?_set _ _ _ _

theorem get?_insertAll (table : GrantTable) (gs : List Grant) :
    (∀ n, n < table.next → (table.insertAll gs).rows.get? n = table.rows.get? n) ∧
    (∀ n g, table.next ≤ n → (table.insertAll gs).rows.get? n = some g → g ∈ gs) ∧
    ∀ g ∈ gs, ∃ n, table.next ≤ n ∧ (table.insertAll gs).rows.get? n = some g := by
  induction gs generalizing table with
  | nil =>
    refine ⟨fun _ _ => rfl, ?_, nofun⟩
    intro n g hn h
    have hlt := table.fresh n g h
    omega
  | cons g gs ih =>
    obtain ⟨hold, hnew, hall⟩ := ih (table.insert g)
    refine ⟨?_, ?_, ?_⟩
    · intro n hn
      refine (hold n (hn.trans (Nat.lt_succ_self _))).trans ?_
      rw [get?_insert, if_neg (Nat.ne_of_lt hn)]
    · intro n g' hn h
      rcases Nat.eq_or_lt_of_le hn with rfl | hlt
      · have hhead := (hold table.next (Nat.lt_succ_self _)).symm.trans h
        rw [get?_insert, if_pos rfl, Option.some.injEq] at hhead
        exact List.mem_cons.mpr (.inl hhead.symm)
      · exact List.mem_cons_of_mem _ (hnew n g' hlt h)
    intro g' hg'
    rcases List.mem_cons.mp hg' with rfl | hg'
    · refine ⟨table.next, le_rfl, ?_⟩
      refine (hold table.next (Nat.lt_succ_self _)).trans ?_
      rw [get?_insert, if_pos rfl]
    · obtain ⟨n, hn, h⟩ := hall g' hg'
      exact ⟨n, Nat.le_of_succ_le hn, h⟩

end GrantTable

/-- The rows of the named principals are gone, those in force are at the next version, and the new rows are there. -/
structure GrantTable.Replaced (s t : GrantTable) (r : Resource) (version : Nat) (named : List Principal) (added : List Grant) :
    Prop where
  carried : ∀ n g, s.rows.get? n = some g →
    t.rows.get? n = if g.resource = r ∧ g.principal ∈ named then none else some (g.advanced r version (version + 1))
  new : ∀ n g, s.rows.get? n = none → t.rows.get? n = some g → g ∈ added
  present : ∀ g ∈ added, ∃ n, s.rows.get? n = none ∧ t.rows.get? n = some g

theorem GrantTable.Replaced.of_insertAll {s t : GrantTable} {r : Resource} {version : Nat} {named : List Principal}
    (added : List Grant) (hnext : t.next = s.next)
    (h : ∀ n, t.rows.get? n = (s.rows.get? n).bind (fun g =>
      if g.resource = r ∧ g.principal ∈ named then none else some (g.advanced r version (version + 1)))) :
    s.Replaced (t.insertAll added) r version named added := by
  obtain ⟨hold, hnew, hall⟩ := t.get?_insertAll added
  refine ⟨?_, ?_, ?_⟩
  · intro n g hg
    have hlt := s.fresh n g hg
    rw [hold n (by omega), h, hg]
    rfl
  · intro n g hg ht
    by_cases hlt : n < t.next
    · rw [hold n hlt, h, hg] at ht
      cases ht
    · exact hnew n g (Nat.le_of_not_lt hlt) ht
  intro g hg
  obtain ⟨n, hn, ht⟩ := hall g hg
  refine ⟨n, ?_, ht⟩
  by_contra hne
  obtain ⟨old, hold⟩ := ne_none_iff_exists'.mp hne
  have hlt := s.fresh n old hold
  omega

theorem GrantTable.replaced_advance_delete (s : GrantTable) (r : Resource) (version : Nat) (named : List Principal)
    (added : List Grant) :
    s.Replaced (((s.advance r version (version + 1)).delete r named).insertAll added) r version named added := by
  refine Replaced.of_insertAll added rfl ?_
  intro n
  rw [delete, advance, Dict.get?_filter, Dict.get?_mapEntries]
  cases s.rows.get? n with
  | none => rfl
  | some g =>
    by_cases hg : g.resource = r ∧ g.principal ∈ named
    · simp [filter_some, hg]
    · simp [filter_some, hg]

theorem GrantTable.replaced_delete_advance (s : GrantTable) (r : Resource) (version : Nat) (named : List Principal)
    (added : List Grant) :
    s.Replaced (((s.delete r named).advance r version (version + 1)).insertAll added) r version named added := by
  refine Replaced.of_insertAll added rfl ?_
  intro n
  rw [advance, delete, Dict.get?_mapEntries, Dict.get?_filter]
  cases s.rows.get? n with
  | none => rfl
  | some g =>
    by_cases hg : g.resource = r ∧ g.principal ∈ named
    · simp [filter_some, hg]
    · simp [filter_some, hg]

/-- A row of `sessions_v2`. -/
structure StoredSession where
  tenantId : String
  ownerPrincipalId : String
  visibility : String
  aclVersion : Nat
  deletedAtMs : Option Int
deriving DecidableEq

def StoredSession.aclRow (s : StoredSession) (id : String) : AclRow where
  tenantId := s.tenantId
  ownerPrincipalId := s.ownerPrincipalId
  visibility := s.visibility
  aclVersion := s.aclVersion
  resourceType := .session
  resourceId := id

structure AclStore where
  views : Dict String StoredView := Dict.empty
  sessions : Dict String StoredSession := Dict.empty
  grants : GrantTable := {}

namespace AclStore

def version (s : AclStore) (r : Resource) : Option Nat :=
  match r.resourceType with
  | .uiView => ((s.views.get? r.id).filter (fun v => v.tenantId = r.tenantId)).map StoredView.aclVersion
  | .session => ((s.sessions.get? r.id).filter (fun v => v.tenantId = r.tenantId)).map StoredSession.aclVersion

def Valid (s : AclStore) (g : Grant) : Prop := s.version g.resource = some g.aclVersion

def access (s : AclStore) : AccessMap :=
  fun r p => { permission | ∃ n g, s.grants.rows.get? n = some g ∧ s.Valid g ∧
    g.resource = r ∧ g.principal = p ∧ g.permission = permission }

def Bounded (s : AclStore) : Prop :=
  ∀ n g version, s.grants.rows.get? n = some g → s.version g.resource = some version → g.aclVersion ≤ version

/-- One resource has gone to its next version, with the rows of the named principals replaced. -/
structure Changed (s t : AclStore) (r : Resource) (version : Nat) (named : List Principal) (added : List Grant) : Prop where
  before : s.version r = some version
  after : ∀ r', t.version r' = if r' = r then some (version + 1) else s.version r'
  grants : s.grants.Replaced t.grants r version named added
  added : ∀ g ∈ added, g.resource = r ∧ g.aclVersion = version + 1 ∧ g.principal ∈ named

section
variable {s t : AclStore} {r : Resource} {version : Nat} {named : List Principal} {added : List Grant}

theorem Changed.valid_advanced (h : s.Changed t r version named added) (hs : s.Bounded) {n : Nat} {g : Grant}
    (hg : s.grants.rows.get? n = some g) : t.Valid (g.advanced r version (version + 1)) ↔ s.Valid g := by
  rw [Valid, Valid, Grant.advanced_resource, h.after, Grant.advanced]
  by_cases hr : g.resource = r
  · rw [if_pos hr, hr, h.before]
    by_cases hv : g.aclVersion = version
    · rw [if_pos ⟨rfl, hv⟩, hv]
      simp
    rw [if_neg (by simp [hv])]
    have hle := hs n g version hg (hr ▸ h.before)
    simp only [Option.some.injEq]
    omega
  · rw [if_neg hr, if_neg (by simp [hr])]

theorem Changed.bounded (h : s.Changed t r version named added) (hs : s.Bounded) : t.Bounded := by
  intro n g v hg hv
  rw [h.after] at hv
  cases hold : s.grants.rows.get? n with
  | none =>
    obtain ⟨hr, hver, _⟩ := h.added g (h.grants.new n g hold hg)
    rw [if_pos hr, Option.some.injEq] at hv
    omega
  | some old =>
    have hc := h.grants.carried n old hold
    rw [hg] at hc
    split at hc
    · cases hc
    rw [Option.some.injEq] at hc
    rw [hc, Grant.advanced_resource] at hv
    rw [hc, Grant.advanced]
    split at hv
    next hr =>
      have hle := hs n old version hold (hr ▸ h.before)
      rw [Option.some.injEq] at hv
      split
      · exact hv.le
      · omega
    next hr =>
      rw [if_neg (by simp [hr])]
      exact hs n old v hold hv

theorem Changed.access (h : s.Changed t r version named added) (hs : s.Bounded) :
    t.access = s.access.replace r named (fun p => { permission | ∃ g ∈ added, g.principal = p ∧ g.permission = permission }) := by
  funext r' p
  apply Set.ext
  intro permission
  rw [AccessMap.replace]
  constructor
  · rintro ⟨n, g, hg, hval, rfl, rfl, rfl⟩
    cases hold : s.grants.rows.get? n with
    | none =>
      have hnew := h.grants.new n g hold hg
      obtain ⟨hr, _, hp⟩ := h.added g hnew
      rw [if_pos ⟨hr, hp⟩]
      exact ⟨g, hnew, rfl, rfl⟩
    | some old =>
      have hc := h.grants.carried n old hold
      rw [hg] at hc
      split at hc
      · cases hc
      next hkept =>
        rw [Option.some.injEq] at hc
        rw [hc] at hval
        rw [hc, Grant.advanced_resource, Grant.advanced_principal, Grant.advanced_permission, if_neg hkept]
        exact ⟨n, old, hold, (h.valid_advanced hs hold).mp hval, rfl, rfl, rfl⟩
  · intro hperm
    split at hperm
    next hnam =>
      obtain ⟨g, hg, rfl, rfl⟩ := hperm
      obtain ⟨n, _, hn⟩ := h.grants.present g hg
      obtain ⟨hr, hver, _⟩ := h.added g hg
      refine ⟨n, g, hn, ?_, hr.trans hnam.1.symm, rfl, rfl⟩
      rw [Valid, h.after, if_pos hr, hver]
    next hkept =>
      obtain ⟨n, g, hg, hval, rfl, rfl, rfl⟩ := hperm
      have hc := h.grants.carried n g hg
      rw [if_neg hkept] at hc
      exact ⟨n, _, hc, (h.valid_advanced hs hg).mpr hval, by simp, by simp, by simp⟩

theorem Changed.not_revived (h : s.Changed t r version named added) (hs : s.Bounded) {n : Nat} {g g' : Grant}
    (hg : s.grants.rows.get? n = some g) (hg' : t.grants.rows.get? n = some g') (hval : ¬ s.Valid g) : ¬ t.Valid g' := by
  have hc := h.grants.carried n g hg
  rw [hg'] at hc
  split at hc
  · cases hc
  rw [Option.some.injEq] at hc
  rw [hc, h.valid_advanced hs hg]
  exact hval

end

end AclStore

end OpenAgent
