import OpenAgent.Access
import OpenAgent.Dashboards.Revisions
import OpenAgent.Lib.Like
import OpenAgent.Lib.Paging

namespace OpenAgent.Dashboards

open Py List

/-- `str.casefold`. -/
class Casefold where
  casefold : List Char → List Char

/-- A row of `ui_views`. -/
structure StoredView where
  id : String
  tenantId : String
  ownerPrincipalId : String
  visibility : String
  aclVersion : Nat
  surface : Surface
  sessionId : Option String
  title : String
  description : String
  icon : Option String
  status : ViewStatus
  schemaVersion : Nat
  latestRevision : Nat
  searchText : String
  sidebarOrder : Int
  sidebarGroup : Option String
  lastViewedAtMs : Option Int
  frozen : Bool
  frozenAtMs : Option Int
  expiresAtMs : Option Int
  createdAtMs : Int
  updatedAtMs : Int
  deletedAtMs : Option Int
deriving DecidableEq

/-- `ui_views`, whose primary key is the id. -/
structure ViewTable where
  rows : List StoredView
  nodup : (rows.map StoredView.id).Nodup

structure Summary where
  id : String
  surface : Surface
  title : String
  description : String
  icon : Option String
  revision : Nat
  aclVersion : Nat
  schemaVersion : Nat
  status : ViewStatus
  sessionId : Option String
  expiresAt : Option Int
  sidebarOrder : Int
  sidebarGroup : Option String
  lastViewedAt : Option Int
  frozen : Bool
  frozenAt : Option Int
  createdAt : Int
  updatedAt : Int
  deletedAt : Option Int
  canExecute : Bool
deriving DecidableEq

namespace StoredView

def aclRow (v : StoredView) : AclRow where
  tenantId := v.tenantId
  ownerPrincipalId := v.ownerPrincipalId
  visibility := v.visibility
  aclVersion := v.aclVersion
  resourceType := .uiView
  resourceId := v.id

def isRunnable (v : StoredView) (now : Int) : Bool :=
  v.status = .active && !v.frozen && v.expiresAtMs.all (fun e => now < e)

/-- `_summary`, and `canExecute`; the clock is read once for each. -/
def summary (v : StoredView) (clock : Int × Int) (admin : Bool) : Summary where
  id := v.id
  surface := v.surface
  title := v.title
  description := v.description
  icon := v.icon
  revision := v.latestRevision
  aclVersion := v.aclVersion
  schemaVersion := v.schemaVersion
  status := if v.status = .active && v.expiresAtMs.any (fun e => e ≤ clock.1) then .expired else v.status
  sessionId := v.sessionId
  expiresAt := v.expiresAtMs
  sidebarOrder := v.sidebarOrder
  sidebarGroup := v.sidebarGroup
  lastViewedAt := v.lastViewedAtMs
  frozen := v.frozen
  frozenAt := v.frozenAtMs
  createdAt := v.createdAtMs
  updatedAt := v.updatedAtMs
  deletedAt := v.deletedAtMs
  canExecute := v.isRunnable clock.2 && admin

end StoredView

/-- The arguments of `list` that select views. -/
structure ViewFilter where
  surface : Option String := none
  sessionId : Option String := none
  query : Option String := none
  includeDeleted : Bool := false

def maxQueryBytes : Nat := 16384
def maxQueryTerms : Nat := 32
def maxCandidates : Nat := 2000

def ViewFilter.accepted (filter : ViewFilter) : Bool :=
  filter.surface.all (fun surface => surface = "inline" || surface = "sidebar") &&
  filter.query.all (fun query => query.utf8ByteSize ≤ maxQueryBytes)

/-- `str.split()`. -/
def splitWords (s : String) : List (List Char) := (s.toList.splitOnP isSpace).filter (fun w => w ≠ [])

/-- `ORDER BY updated_at_ms DESC, id`. -/
def listedBefore (v w : StoredView) : Prop := w.updatedAtMs < v.updatedAtMs ∨ (v.updatedAtMs = w.updatedAtMs ∧ v.id ≤ w.id)

instance : DecidableRel listedBefore := fun _ _ => inferInstanceAs (Decidable (_ ∨ _))

section
variable [Casefold]

def queryTerms (query : String) : List (List Char) := ((splitWords query).map Casefold.casefold).take maxQueryTerms

/-- The `WHERE` clause. -/
def matchesFilter (access : AccessContext) (filter : ViewFilter) (v : StoredView) : Bool :=
  v.tenantId = access.tenantId &&
  (filter.includeDeleted || v.status ≠ .deleted) &&
  filter.surface.all (fun surface => v.surface.wire = surface) &&
  filter.sessionId.all (fun session => session = "" || v.sessionId = some session) &&
  filter.query.all (fun query => query = "" || (queryTerms query).all (fun term =>
    Sql.like ('%' :: (Sql.escapeLike term ++ ['%'])) (v.searchText.toList.map Sql.lowerAscii)))

def ViewTable.matching (table : ViewTable) (access : AccessContext) (filter : ViewFilter) : List StoredView :=
  (table.rows.filter (matchesFilter access filter)).insertionSort listedBefore

variable [AccessPolicy]

def mayView (grants : List Grant) (access : AccessContext) (v : StoredView) : Bool :=
  AccessPolicy.resourceIsVisible grants v.aclRow access .view

def mayAdminister (grants : List Grant) (access : AccessContext) (v : StoredView) : Bool :=
  AccessPolicy.resourceIsVisible grants v.aclRow access .admin

/-- `list`; `none` where it raises. -/
def ViewTable.list (table : ViewTable) (grants : List Grant) (access : AccessContext) (filter : ViewFilter)
    (clock : String → Int × Int) (limit offset : Int) : Option (List Summary × Bool) :=
  if !filter.accepted then none
  else if ¬ (1 ≤ limit ∧ limit ≤ 100) ∨ offset < 0 ∨ offset > 100000 then none
  else
    let candidateLimit := min (maxCandidates : Int) ((offset + limit + 1) * 4)
    let rows := (table.matching access filter).take candidateLimit.toNat
    let visible := (rows.filter (mayView grants access)).map (fun v =>
      v.summary (clock v.id) (mayAdminister grants access v))
    some ((visible.drop offset.toNat).take limit.toNat, decide (offset + limit < visible.length))

/-- The pages at 0, `limit`, twice `limit` and so on, while `list` reports more. -/
def ViewTable.walk (table : ViewTable) (grants : List Grant) (access : AccessContext) (filter : ViewFilter)
    (clock : Nat → String → Int × Int) (limit : Nat) : Option (List Summary) :=
  Paging.walk (fun offset => table.list grants access filter (clock offset) limit offset) limit maxCandidates 0

def ViewTable.visible (table : ViewTable) (grants : List Grant) (access : AccessContext) (filter : ViewFilter) : List StoredView :=
  (table.rows.filter (fun v => matchesFilter access filter v && mayView grants access v)).insertionSort listedBefore

end

theorem listedBefore_total (v w : StoredView) : listedBefore v w ∨ listedBefore w v := by
  rcases lt_trichotomy v.updatedAtMs w.updatedAtMs with h | h | h
  · exact .inr (.inl h)
  · rcases le_total v.id w.id with hid | hid
    · exact .inl (.inr ⟨h, hid⟩)
    · exact .inr (.inr ⟨h.symm, hid⟩)
  · exact .inl (.inl h)

theorem listedBefore_trans {u v w : StoredView} (h : listedBefore u v) (k : listedBefore v w) : listedBefore u w := by
  rcases h with h | ⟨h, hid⟩ <;> rcases k with k | ⟨k, kid⟩
  · exact .inl (k.trans h)
  · exact .inl (k ▸ h)
  · exact .inl (h ▸ k)
  · exact .inr ⟨h.trans k, hid.trans kid⟩

theorem sorted_eq_of_perm {l m : List StoredView} (hid : (l.map StoredView.id).Nodup) (hp : l.Perm m)
    (hl : l.Pairwise listedBefore) (hm : m.Pairwise listedBefore) : l = m := by
  refine hp.eq_of_pairwise (fun v w hv hw hvw hwv => ?_) hl hm
  have hsame : v.id = w.id := by
    rcases hvw with h | ⟨_, hle⟩ <;> rcases hwv with k | ⟨_, kle⟩
    · omega
    · omega
    · omega
    · exact le_antisymm hle kle
  exact inj_on_of_nodup_map hid hv (hp.mem_iff.mpr hw) hsame

section
variable [Casefold] [AccessPolicy] (table : ViewTable) (grants : List Grant) (access : AccessContext) (filter : ViewFilter)

omit [AccessPolicy] in
theorem ViewTable.matching_pairwise : (table.matching access filter).Pairwise listedBefore := by
  have htot : Std.Total listedBefore := ⟨listedBefore_total⟩
  have htra : IsTrans StoredView listedBefore := ⟨fun _ _ _ => listedBefore_trans⟩
  exact pairwise_insertionSort listedBefore _

omit [AccessPolicy] in
theorem ViewTable.matching_perm : (table.matching access filter).Perm (table.rows.filter (matchesFilter access filter)) :=
  perm_insertionSort listedBefore _

theorem ViewTable.visible_eq :
    table.visible grants access filter = (table.matching access filter).filter (mayView grants access) := by
  have htot : Std.Total listedBefore := ⟨listedBefore_total⟩
  have htra : IsTrans StoredView listedBefore := ⟨fun _ _ _ => listedBefore_trans⟩
  have hperm := perm_insertionSort listedBefore
    (table.rows.filter (fun v => matchesFilter access filter v && mayView grants access v))
  have hfil : table.rows.filter (fun v => matchesFilter access filter v && mayView grants access v) =
      (table.rows.filter (matchesFilter access filter)).filter (mayView grants access) := by
    rw [filter_filter]
    apply filter_congr
    intro v _
    exact Bool.and_comm _ _
  apply sorted_eq_of_perm
  · refine (hperm.map StoredView.id).nodup_iff.mpr ?_
    exact table.nodup.sublist (filter_sublist.map StoredView.id)
  · refine hperm.trans ?_
    rw [hfil]
    exact ((table.matching_perm access filter).filter _).symm
  · exact pairwise_insertionSort listedBefore _
  · exact (table.matching_pairwise access filter).filter _

variable {table grants access filter}

theorem ViewTable.list_eq (hfil : filter.accepted = true) (hfew : (table.matching access filter).length < maxCandidates)
    (clock : String → Int × Int) {limit offset : Nat} (hl : 1 ≤ limit) (hl' : limit ≤ 100) (ho : offset ≤ 100000) :
    table.list grants access filter clock limit offset =
      some (((Paging.page (fun n => (n + 1) * 4) (mayView grants access) (table.matching access filter) limit offset).1.map
        (fun v => v.summary (clock v.id) (mayAdminister grants access v))),
        (Paging.page (fun n => (n + 1) * 4) (mayView grants access) (table.matching access filter) limit offset).2) := by
  have hran : ¬ (¬ ((1 : Int) ≤ limit ∧ (limit : Int) ≤ 100) ∨ (offset : Int) < 0 ∨ (offset : Int) > 100000) := by omega
  have htake : (table.matching access filter).take
      (min (maxCandidates : Int) (((offset : Int) + limit + 1) * 4)).toNat =
      (table.matching access filter).take ((offset + limit + 1) * 4) := by
    rw [take_eq_take_iff]
    have hmin : (min (maxCandidates : Int) (((offset : Int) + limit + 1) * 4)).toNat =
        min maxCandidates ((offset + limit + 1) * 4) := by omega
    omega
  rw [list, hfil, if_neg (by decide), if_neg hran]
  dsimp only
  rw [htake, ← map_drop, ← map_take, length_map, Int.toNat_natCast, Int.toNat_natCast]
  refine congrArg some (Prod.ext rfl ?_)
  apply decide_eq_decide.mpr
  rw [Paging.found]
  omega

theorem ViewTable.list_more (hfil : filter.accepted = true) (hfew : (table.matching access filter).length < maxCandidates)
    {clock : String → Int × Int} {limit offset : Nat} (hl : 1 ≤ limit) (hl' : limit ≤ 100) {views : List Summary}
    (h : table.list grants access filter clock limit offset = some (views, true)) : offset + limit < maxCandidates := by
  by_cases ho : offset ≤ 100000
  · rw [list_eq hfil hfew clock hl hl' ho, Option.some.injEq, Prod.mk.injEq] at h
    have hmore := of_decide_eq_true h.2
    have hle := Paging.found_length_le (fun n => (n + 1) * 4) (mayView grants access) (table.matching access filter)
      (offset + limit)
    omega
  · rw [list, hfil, if_neg (by decide), if_pos (by omega)] at h
    cases h

/-- Walking through the pages shows every visible view that matches, each once and in order, exactly if no page
that finds at most `n` visible views among its `4 (n + 1)` candidates leaves one behind. -/
theorem ViewTable.listing_complete_iff (hfilter : filter.accepted = true)
    (hfew : (table.matching access filter).length < maxCandidates) (clock : Nat → String → Int × Int) {limit : Nat}
    (hl : 1 ≤ limit) (hl' : limit ≤ 100) :
    ∃ views, table.walk grants access filter clock limit = some views ∧
      (views.map Summary.id = (table.visible grants access filter).map StoredView.id ↔ ∀ i n, n = (i + 1) * limit →
          (((table.matching access filter).take ((n + 1) * 4)).filter (mayView grants access)).length ≤ n →
          ∀ v ∈ (table.matching access filter).drop ((n + 1) * 4), mayView grants access v = false) := by
  have hb : Monotone (fun n : Nat => (n + 1) * 4) := fun m n h => by dsimp only; omega
  obtain ⟨rows, hwalk, hrows, hiff⟩ := Paging.walk_complete_iff (p := mayView grants access) hb hl hfew
  have hids : (table.walk grants access filter clock limit).map (List.map Summary.id) = some (rows.map StoredView.id) := by
    rw [walk, Paging.walk_map, ← Option.map_some, ← hwalk, Paging.walk_map]
    apply Paging.walk_congr 100000
    · intro offset ids hmore
      obtain ⟨⟨views, more⟩, hlist, he⟩ := Option.map_eq_some_iff.mp hmore
      cases he
      have hend := list_more hfilter hfew hl hl' hlist
      rw [maxCandidates] at hend
      omega
    · intro offset ho
      rw [list_eq hfilter hfew (clock offset) hl hl' ho, Option.map_some, Option.map_some, map_map]
      rfl
    · exact Nat.zero_le _
  obtain ⟨views, hvie, hsame⟩ := Option.map_eq_some_iff.mp hids
  refine ⟨views, hvie, ?_⟩
  have hsub : rows.map StoredView.id = ((table.matching access filter).filter (mayView grants access)).map StoredView.id ↔
      rows = (table.matching access filter).filter (mayView grants access) := by
    constructor
    · intro h
      have hlen := congrArg List.length h
      rw [length_map, length_map] at hlen
      exact hrows.eq_of_length hlen
    · exact congrArg _
  rw [hsame, visible_eq, hsub, hiff]
  constructor
  · rintro h i n rfl hn
    exact h i (Nat.not_lt.mpr hn)
  · intro h i hn
    exact h i _ rfl (Nat.not_lt.mp hn)

end

abbrev ownerPolicy : AccessPolicy :=
  ⟨fun grants row access permission =>
    row.tenantId = access.tenantId && (access.principalIds.contains row.ownerPrincipalId ||
        grants.any (fun g => g.tenantId = row.tenantId && g.resourceType = row.resourceType && g.resourceId = row.resourceId &&
          g.aclVersion = row.aclVersion && access.grantIdentities.contains (g.principalType, g.principalId) &&
          (g.permission = permission || g.permission = .admin)))⟩

abbrev asciiCasefold : Casefold := ⟨List.map Sql.lowerAscii⟩

def alice : AccessContext where
  tenantId := "tenant"
  principalId := "user:alice"
  principalType := "user"
  handle := "alice"
  deviceId := "device"
  principalIds := ["user:alice"]
  grantIdentities := [("user", "user:alice")]

def privateView (owner : String) (n : Nat) : StoredView where
  id := String.ofList (List.replicate (n + 1) 'v')
  tenantId := "tenant"
  ownerPrincipalId := owner
  visibility := "private"
  aclVersion := 1
  surface := .sidebar
  sessionId := none
  title := "View"
  description := ""
  icon := none
  status := .active
  schemaVersion := 1
  latestRevision := 1
  searchText := "View"
  sidebarOrder := 0
  sidebarGroup := none
  lastViewedAtMs := none
  frozen := false
  frozenAtMs := none
  expiresAtMs := none
  createdAtMs := 0
  updatedAtMs := n
  deletedAtMs := none

/-- The view of `alice` was updated before the eight of `bob`, or after them. -/
def nineViews (last : Bool) : ViewTable where
  rows := privateView "user:alice" (if last then 8 else 0) ::
    (List.range 8).map (fun n => privateView "user:bob" (if last then n else n + 1))
  nodup := by cases last <;> decide +kernel

def oneView (last : Bool) : Option (List String) :=
  (@ViewTable.walk asciiCasefold ownerPolicy (nineViews last) [] alice {} (fun _ _ => (0, 0)) 1).map (List.map Summary.id)

/-- The newest view is listed before those that may not be seen. -/
theorem newest_view_listed : oneView true =
    some ((@ViewTable.visible asciiCasefold ownerPolicy (nineViews true) [] alice {}).map StoredView.id) := by
  have hhid : ((@ViewTable.matching asciiCasefold (nineViews true) alice {}).drop 8).all
      (fun v => !@mayView ownerPolicy [] alice v) = true := by decide +kernel
  obtain ⟨views, hwalk, hiff⟩ := @ViewTable.listing_complete_iff asciiCasefold ownerPolicy (nineViews true) [] alice {} (by decide)
    (by decide +kernel) (fun _ _ => (0, 0)) 1 le_rfl (by decide)
  rw [oneView, hwalk, Option.map_some, Option.some.injEq]
  refine hiff.mpr (fun i n hn _ v hv => ?_)
  have hv8 := drop_subset_drop_left _ (show 8 ≤ (n + 1) * 4 by omega) hv
  simpa using all_eq_true.mp hhid v hv8

/-- The oldest of nine views is not listed, although it may be seen. -/
theorem oldest_view_missed : oneView false = some [] ∧
    (@ViewTable.visible asciiCasefold ownerPolicy (nineViews false) [] alice {}).map StoredView.id ≠ [] ∧
    (@ViewTable.matching asciiCasefold (nineViews false) alice {}).length < maxCandidates := by
  decide +kernel

end OpenAgent.Dashboards
