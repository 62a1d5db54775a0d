import OpenAgent.Gateway.Operational.Links
import Mathlib.Data.List.Dedup
import Mathlib.Data.List.Sort

namespace OpenAgent.Gateway.Operational

structure ActivityColumns where
  origin : Option String
  parentType : Option String
  parentId : Option String
  occurredAtMs : Int

structure SessionColumns where
  parentSessionId : Option String
  lastActivityAtMs : Int

structure ToolColumns where
  createdAtMs : Int
  ordinal : Int

/-- The tables, with the columns that order and filter their rows under the rows' primary keys, and the keys and checks
that the schema declares. -/
structure Tables extends Store where
  activityColumns : String → ActivityColumns
  sessionColumns : String → SessionColumns
  toolColumns : String → ToolColumns
  activityIds : (activities.map ActivityRow.activityId).Nodup
  activityKeys : (activities.map fun row => (row.tenantId, row.kind, row.resourceType, row.resourceId)).Nodup
  toolIds : (tools.map ToolRow.id).Nodup
  properParents : ∀ id, (sessionColumns id).parentSessionId ≠ some id

def maxSnapshotItems : Nat := 50000

def bounded {α : Type} (rows : List α) : Option (List α) := if maxSnapshotItems < rows.length then none else some rows

section History

structure HistoryFilters where
  kinds : List String
  statuses : List String
  origin : Option String
  parentType : Option String
  parentId : Option String
  fromMs : Option Int
  toMs : Option Int
  includeChildren : Bool
deriving DecidableEq

variable [Foundations] (tables : Tables) (access : AccessContext)

/-- `lower` of SQLite, which knows the ASCII letters. -/
def sqlLower (text : String) : String := String.ofList (text.toList.map Char.toLower)

def isChildSession (row : ActivityRow) : Bool :=
  row.resourceType = "session" && ["workflow", "scheduler", "scheduled", "event"].contains
    (sqlLower ((tables.activityColumns row.activityId).origin.getD ""))

def admitted (filters : HistoryFilters) (row : ActivityRow) : Bool :=
  let columns := tables.activityColumns row.activityId
  row.tenantId = access.tenantId && !row.deleted && row.visibility ≠ "quarantined" &&
    sqlAuthorized tables.toStore access row.acl &&
    (filters.kinds.isEmpty || filters.kinds.contains row.kind) &&
    (filters.statuses.isEmpty || row.status.any filters.statuses.contains) &&
    filters.origin.all (fun origin => columns.origin = some origin) &&
    filters.parentType.all (fun parentType => columns.parentType = some parentType) &&
    filters.parentId.all (fun parentId => columns.parentId = some parentId) &&
    filters.fromMs.all (fun start => start ≤ columns.occurredAtMs) &&
    filters.toMs.all (fun stop => columns.occurredAtMs < stop) &&
    (filters.includeChildren || !isChildSession tables row)

def activityOrder (a b : ActivityRow) : Bool :=
  ((compare (tables.activityColumns b.activityId).occurredAtMs (tables.activityColumns a.activityId).occurredAtMs).then
    ((compare a.kind b.kind).then (compare a.activityId b.activityId))).isLE

/-- `none` where the snapshot is too large. -/
def activityRows (filters : HistoryFilters) : Option (List ActivityRow) :=
  (bounded ((tables.activities.filter (admitted tables access filters)).insertionSort fun a b => activityOrder tables a b)).map
    fun rows => rows.filter fun row => isVisible tables.toStore access row.acl

end History

section Descendants

variable (tables : Tables) (access : AccessContext)

def maxSessionTreeDepth : Nat := 128

structure TreeNode where
  session : SessionRow
  depth : Nat
  path : List String

def childrenOf (node : TreeNode) : List TreeNode :=
  (tables.sessions.filter fun row =>
    row.tenantId = access.tenantId && (tables.sessionColumns row.id).parentSessionId = some node.session.id &&
      !row.deleted && !node.path.contains row.id).map fun row => ⟨row, node.depth + 1, node.path ++ [row.id]⟩

def rootChildren (sessionId : String) : List TreeNode :=
  (tables.sessions.filter fun row =>
    row.tenantId = access.tenantId && (tables.sessionColumns row.id).parentSessionId = some sessionId && !row.deleted).map
      fun row => ⟨row, 1, [sessionId, row.id]⟩

def treeLevels : Nat → List TreeNode → List TreeNode
  | 0, _ => []
  | levels + 1, nodes => nodes ++ treeLevels levels (nodes.flatMap (childrenOf tables access))

def sessionTree (sessionId : String) : List TreeNode :=
  treeLevels tables access maxSessionTreeDepth (rootChildren tables access sessionId)

def treeOrder (a b : TreeNode) : Bool :=
  ((compare a.depth b.depth).then
    ((compare (tables.sessionColumns b.session.id).lastActivityAtMs (tables.sessionColumns a.session.id).lastActivityAtMs).then
      (compare a.session.id b.session.id))).isLE

/-- A session of the subtree; its parent is named only where the caller may see it too. -/
structure TreeRow where
  sessionId : String
  parentSessionId : Option String
  lineageRedacted : Bool
  depth : Nat
deriving DecidableEq

def treeRow (sessionId : String) (visibleIds : List String) (node : TreeNode) : TreeRow :=
  let parentId := link (tables.sessionColumns node.session.id).parentSessionId
  let shown := parentId.filter fun parent => parent = sessionId || visibleIds.contains parent
  ⟨node.session.id, shown, parentId.isSome && shown.isNone, node.depth⟩

def visibleNodes (sessionId : String) : List TreeNode :=
  ((sessionTree tables access sessionId).filter fun node =>
    node.session.visibility ≠ "quarantined" && sqlAuthorized tables.toStore access node.session.acl).insertionSort
      fun a b => treeOrder tables a b

def sessionTreeCandidates (sessionId : String) : Option (List TreeRow) :=
  (bounded (visibleNodes tables access sessionId)).map fun nodes =>
    nodes.map (treeRow tables sessionId (nodes.map fun node => node.session.id))

end Descendants

section RelatedRuns

variable [Foundations] (tables : Tables) (access : AccessContext)

structure RelatedEntry extends Candidate where
  causeCount : Nat
  sourceSessionDepth : Nat

structure LinkedTarget where
  target : RunTarget
  toolInvocationId : String
  sourceSessionId : String
  sourceSessionDepth : Nat

def LinkedTarget.key (linked : LinkedTarget) : RunKind × String := (linked.target.kind, linked.target.resourceId)

def toolOrder (a b : ToolRow × Nat) : Bool :=
  let columns := tables.toolColumns
  ((compare (columns a.1.id).createdAtMs (columns b.1.id).createdAtMs).then
    ((compare (columns a.1.id).ordinal (columns b.1.id).ordinal).then (compare a.1.id b.1.id))).isLE

def scopedTools (sessionScopes : List (String × Nat)) : List (ToolRow × Nat) :=
  ((tables.tools.filter fun tool =>
    tool.tenantId = access.tenantId && tool.rootKind = "session" && tool.rootId = tool.sessionId).flatMap fun tool =>
      (sessionScopes.filter fun scope => scope.1 = tool.sessionId).map fun scope => (tool, scope.2)).insertionSort
        fun a b => toolOrder tables a b

def linkedTargets (tools : List (ToolRow × Nat)) : List LinkedTarget :=
  tools.flatMap fun entry =>
    (safeToolRunTargets entry.1).map fun target => ⟨target, entry.1.id, entry.1.sessionId, entry.2⟩

def validActivities (linked : LinkedTarget) : List ActivityRow :=
  if (runParent tables.toStore linked.target.kind linked.target.resourceId).any fun parent =>
      linked.target.expectedParentId.all fun expected => expected = parent then
    tables.activities.filter fun row =>
      row.tenantId = access.tenantId && row.kind = linked.target.kind.name && row.resourceType = linked.target.kind.name &&
        row.resourceId = linked.target.resourceId && !row.deleted && row.visibility ≠ "quarantined" &&
        sqlAuthorized tables.toStore access row.acl
  else []

def validLinks (linked : List LinkedTarget) : List (LinkedTarget × ActivityRow) :=
  linked.flatMap fun target => (validActivities tables access target).map fun row => (target, row)

def firstCauses (valid : List (LinkedTarget × ActivityRow)) : List (RelatedEntry × Int) :=
  (valid.map fun entry => entry.1.key).dedup.filterMap fun key =>
    (valid.find? fun entry => entry.1.key = key).map fun first =>
      (⟨⟨key.1, key.2, first.1.toolInvocationId, first.1.sourceSessionId⟩,
        valid.countP fun entry => entry.1.key = key, first.1.sourceSessionDepth⟩,
        (tables.activityColumns first.2.activityId).occurredAtMs)

def relatedOrder (a b : RelatedEntry × Int) : Bool :=
  ((compare b.2 a.2).then ((compare a.1.kind.name b.1.kind.name).then (compare a.1.resourceId b.1.resourceId))).isLE

def relatedRunCandidates (sessionScopes : List (String × Nat)) : Option (List RelatedEntry) := do
  let tools ← bounded (scopedTools tables access sessionScopes)
  let linked ← bounded (linkedTargets tools)
  let causes ← bounded ((firstCauses tables (validLinks tables access linked)).insertionSort fun a b => relatedOrder a b)
  pure (causes.map Prod.fst)

end RelatedRuns

section Search

/-- The columns of an indexed chunk that filters, groups and pages read. -/
structure SearchRow where
  tenantId : String
  status : Option String
  origin : Option String
  parentType : Option String
  parentId : Option String
  rootKind : String
  rootId : String
  occurredAtMs : Int
  chunkId : String
  sourceVersion : Int
  contentHash : String
deriving DecidableEq

inductive SearchSort where
  | relevance
  | recent
deriving DecidableEq

inductive Grouping where
  | root
  | match
deriving DecidableEq

/-- The filters of a search, with its timestamps as they were written. -/
structure SearchFilters where
  status : Option (List String)
  fromText : Option String
  toText : Option String
  origin : Option String
  parentType : Option String
  parentId : Option String
  root : Option (String × String)
deriving DecidableEq

structure SearchQuery where
  query : String
  scopes : List String
  filters : SearchFilters
  sort : SearchSort
  grouping : Grouping
deriving DecidableEq

structure NormalizedRequest where
  queryDigest : String
  scopes : List String
  filters : SearchFilters
  sort : SearchSort
  grouping : Grouping
deriving DecidableEq

inductive Digested where
  | filters (filters : HistoryFilters)
  | request (request : NormalizedRequest)
deriving DecidableEq

structure SearchEntry where
  row : SearchRow
  found : List SearchRow

def SearchRow.root (row : SearchRow) : String × String := (row.rootKind, row.rootId)

def grouped (grouping : Grouping) (rows : List SearchRow) : List SearchEntry :=
  match grouping with
  | .match => rows.map fun row => ⟨row, [row]⟩
  | .root =>
    (rows.map SearchRow.root).reverse.dedup.reverse.filterMap fun root =>
      match rows.filter fun row => row.root = root with
      | [] => none
      | row :: others => some ⟨row, row :: others⟩

end Search

section Distinct

variable {tables : Tables} {access : AccessContext}

theorem bounded_eq_some {α : Type} {rows kept : List α} (h : bounded rows = some kept) : kept = rows := by
  obtain ⟨_, h⟩ := Option.ite_none_left_eq_some.mp h
  cases h
  rfl

theorem activityRows_nodup [Foundations] {filters : HistoryFilters} {rows : List ActivityRow}
    (h : activityRows tables access filters = some rows) : (rows.map ActivityRow.activityId).Nodup := by
  obtain ⟨found, hfound, rfl⟩ := Option.map_eq_some_iff.mp h
  have hsor := bounded_eq_some hfound
  subst hsor
  apply List.Nodup.sublist (List.Sublist.map _ List.filter_sublist)
  rw [List.Perm.nodup_iff (List.Perm.map _ (List.perm_insertionSort _ _))]
  exact tables.activityIds.sublist (List.Sublist.map _ List.filter_sublist)

theorem map_filterMap_sublist {α κ : Type} {f : κ → Option α} {g : α → κ} (hg : ∀ k a, f k = some a → g a = k)
    (keys : List κ) : ((keys.filterMap f).map g).Sublist keys := by
  induction keys with
  | nil => exact List.Sublist.slnil
  | cons k keys ih =>
    cases hf : f k with
    | none =>
      rw [List.filterMap_cons_none hf]
      exact ih.cons k
    | some a =>
      rw [List.filterMap_cons_some hf, List.map_cons, hg k a hf]
      exact ih.cons_cons k

def RelatedEntry.key (entry : RelatedEntry) : RunKind × String := (entry.kind, entry.resourceId)

theorem firstCauses_nodup (valid : List (LinkedTarget × ActivityRow)) :
    ((firstCauses tables valid).map fun cause => cause.1.key).Nodup := by
  apply List.Nodup.sublist (map_filterMap_sublist ?_ _) (List.nodup_dedup (valid.map fun entry => entry.1.key))
  intro key cause h
  obtain ⟨first, _, rfl⟩ := Option.map_eq_some_iff.mp h
  rfl

theorem relatedRunCandidates_nodup [Foundations] {scopes : List (String × Nat)} {rows : List RelatedEntry}
    (h : relatedRunCandidates tables access scopes = some rows) : (rows.map RelatedEntry.key).Nodup := by
  obtain ⟨tools, _, h⟩ := Option.bind_eq_some_iff.mp h
  obtain ⟨linked, _, h⟩ := Option.bind_eq_some_iff.mp h
  obtain ⟨causes, hcau, h⟩ := Option.bind_eq_some_iff.mp h
  cases h
  have hsor := bounded_eq_some hcau
  subst hsor
  rw [List.map_map]
  have hperm := List.Perm.map (fun cause : RelatedEntry × Int => cause.1.key)
    (List.perm_insertionSort (fun a b => relatedOrder a b = true)
      (firstCauses tables (validLinks tables access linked)))
  exact hperm.nodup_iff.mpr (firstCauses_nodup _)

theorem grouped_nodup (rows : List SearchRow) : ((grouped .root rows).map fun entry => entry.row.root).Nodup := by
  have hroo : (rows.map SearchRow.root).reverse.dedup.reverse.Nodup := List.nodup_reverse.mpr (List.nodup_dedup _)
  apply List.Nodup.sublist (map_filterMap_sublist ?_ _) hroo
  intro root entry h
  have hmem : ∀ row ∈ rows.filter fun row => row.root = root, row.root = root := by
    simpa using (List.mem_filter.mp hrow).2
  split at h
  next => cases h
  next row others hrows =>
    cases h
    exact hmem row (by rw [hrows]; exact List.mem_cons_self ..)

end Distinct

end OpenAgent.Gateway.Operational
