import OpenAgent.Gateway.Operational.Candidates
import Mathlib.Data.Prod.Lex
import Mathlib.Data.String.Basic

namespace OpenAgent.Gateway.Operational

open List

/-- A walk of so many child links, over sessions that are not deleted. -/
inductive Descends (tables : Tables) (access : AccessContext) (root : String) : Nat → SessionRow → Prop
  | child {row : SessionRow} (hrow : row ∈ tables.sessions) (htenant : row.tenantId = access.tenantId)
      (hkept : row.deleted = false) (hparent : (tables.sessionColumns row.id).parentSessionId = some root) :
      Descends tables access root 1 row
  | step {steps : Nat} {above row : SessionRow} (habove : Descends tables access root steps above)
      (hrow : row ∈ tables.sessions) (htenant : row.tenantId = access.tenantId) (hkept : row.deleted = false)
      (hparent : (tables.sessionColumns row.id).parentSessionId = some above.id) :
      Descends tables access root (steps + 1) row

def Distance (tables : Tables) (access : AccessContext) (root : String) (steps : Nat) (row : SessionRow) : Prop :=
  Descends tables access root steps row ∧ ∀ other, Descends tables access root other row → steps ≤ other

def Sees (tables : Tables) (access : AccessContext) (row : SessionRow) : Prop :=
  row.visibility ≠ "quarantined" ∧ sqlAuthorized tables.toStore access row.acl = true

/-- What belongs to the subtree of a session, and how far from it. -/
def Listed (tables : Tables) (access : AccessContext) (root : String) (depth : Nat) (row : SessionRow) : Prop :=
  row.id ≠ root ∧ Distance tables access root depth row ∧ depth ≤ maxSessionTreeDepth ∧ Sees tables access row

def treeKey (tables : Tables) (depth : Nat) (id : String) : ℕ ×ₗ ℤᵒᵈ ×ₗ String :=
  toLex (depth, toLex (OrderDual.toDual (tables.sessionColumns id).lastActivityAtMs, id))

def levelAt (tables : Tables) (access : AccessContext) (root : String) : Nat → List TreeNode
  | 0 => rootChildren tables access root
  | level + 1 => (levelAt tables access root level).flatMap (childrenOf tables access)

variable {tables : Tables} {access : AccessContext} {root : String} {row : SessionRow} {node : TreeNode} {level : Nat}

theorem Descends.mem {steps : Nat} (h : Descends tables access root steps row) : 0 < steps ∧ row ∈ tables.sessions := by
  cases h with
  | child hrow => exact ⟨Nat.one_pos, hrow⟩
  | step _ hrow => exact ⟨Nat.succ_pos _, hrow⟩

theorem eq_of_sessionId {a b : SessionRow} (ha : a ∈ tables.sessions) (hb : b ∈ tables.sessions) (h : a.id = b.id) : a = b :=
  inj_on_of_nodup_map tables.distinct ha hb h

theorem mem_rootChildren : node ∈ rootChildren tables access root ↔ ∃ row ∈ tables.sessions,
    row.tenantId = access.tenantId ∧ (tables.sessionColumns row.id).parentSessionId = some root ∧ row.deleted = false ∧
      node = ⟨row, 1, [root, row.id]⟩ := by
  simp only [rootChildren, mem_map, mem_filter, Bool.and_eq_true, decide_eq_true_eq, Bool.not_eq_true']
  exact ⟨fun ⟨row, ⟨hrow, ⟨hten, hpar⟩, hdel⟩, he⟩ => ⟨row, hrow, hten, hpar, hdel, he.symm⟩,
    fun ⟨row, hrow, hten, hpar, hdel, he⟩ => ⟨row, ⟨hrow, ⟨hten, hpar⟩, hdel⟩, he.symm⟩⟩

theorem mem_children {child : TreeNode} : child ∈ childrenOf tables access node ↔ ∃ row ∈ tables.sessions,
    row.tenantId = access.tenantId ∧ (tables.sessionColumns row.id).parentSessionId = some node.session.id ∧
      row.deleted = false ∧ row.id ∉ node.path ∧ child = ⟨row, node.depth + 1, node.path ++ [row.id]⟩ := by
  simp only [childrenOf, mem_map, mem_filter, Bool.and_eq_true, decide_eq_true_eq, Bool.not_eq_true',
    contains_eq_mem, decide_eq_false_iff_not]
  exact ⟨fun ⟨row, ⟨hrow, ⟨⟨hten, hpar⟩, hdel⟩, hnew⟩, he⟩ => ⟨row, hrow, hten, hpar, hdel, hnew, he.symm⟩,
    fun ⟨row, hrow, hten, hpar, hdel, hnew, he⟩ => ⟨row, ⟨hrow, ⟨⟨hten, hpar⟩, hdel⟩, hnew⟩, he.symm⟩⟩

structure AtLevel (tables : Tables) (access : AccessContext) (root : String) (level : Nat) (node : TreeNode) : Prop where
  depth : node.depth = level + 1
  proper : node.session.id ≠ root
  distance : Distance tables access root (level + 1) node.session
  root_mem : root ∈ node.path
  path : ∀ id ∈ node.path, id = root ∨
    ∃ row steps, row.id = id ∧ steps ≤ level + 1 ∧ Descends tables access root steps row

theorem atLevel (h : node ∈ levelAt tables access root level) : AtLevel tables access root level node := by
  induction level generalizing node with
  | zero =>
    obtain ⟨row, hrow, hten, hpar, hdel, rfl⟩ := mem_rootChildren.mp h
    have hdesc := Descends.child hrow hten hdel hpar
    refine ⟨rfl, fun heq => tables.properParents row.id (hpar.trans (by rw [heq])), ⟨hdesc, fun _ hd => hd.mem.1⟩,
      mem_cons_self .., ?_⟩
    intro id hid
    rcases mem_pair.mp hid with rfl | rfl
    · exact .inl rfl
    · exact .inr ⟨row, 1, rfl, Nat.le_refl _, hdesc⟩
  | succ level ih =>
    obtain ⟨above, habove, hchild⟩ := mem_flatMap.mp h
    obtain ⟨row, hrow, hten, hpar, hdel, hnew, rfl⟩ := mem_children.mp hchild
    have ha := ih habove
    have hdesc := Descends.step ha.distance.1 hrow hten hdel hpar
    refine ⟨congrArg Nat.succ ha.depth, fun heq => hnew (heq ▸ ha.root_mem), ⟨hdesc, ?_⟩,
      mem_append_left _ ha.root_mem, ?_⟩
    · intro other hother
      cases hother with
      | child _ _ _ hroot => exact absurd (Option.some.inj (hpar.symm.trans hroot)) ha.proper
      | step hup _ _ _ hup' =>
        have heq := eq_of_sessionId hup.mem.2 ha.distance.1.mem.2 (Option.some.inj (hup'.symm.trans hpar))
        exact Nat.succ_le_succ (ha.distance.2 _ (heq ▸ hup))
    · intro id hid
      rcases mem_append.mp hid with hid | hid
      · exact (ha.path id hid).imp_right fun ⟨row, steps, hrow, hle, hd⟩ => ⟨row, steps, hrow, Nat.le_succ_of_le hle, hd⟩
      · exact .inr ⟨row, level + 2, (mem_singleton.mp hid).symm, Nat.le_refl _, hdesc⟩

theorem filter_sessions_nodup (p : SessionRow → Bool) : ((tables.sessions.filter p).map SessionRow.id).Nodup :=
  tables.distinct.sublist (Sublist.map _ filter_sublist)

theorem levelAt_nodup (level : Nat) : ((levelAt tables access root level).map fun node => node.session.id).Nodup := by
  induction level with
  | zero =>
    rw [levelAt, rootChildren, map_map]
    exact filter_sessions_nodup _
  | succ level ih =>
    rw [levelAt, map_flatMap, nodup_flatMap]
    constructor
    · intro node _
      rw [childrenOf, map_map]
      exact filter_sessions_nodup _
    -- a session has one parent, so two nodes have no child in common
    rw [List.Nodup, pairwise_map] at ih
    refine ih.imp fun {a b} hne id ha hb => ?_
    obtain ⟨child, hchild, rfl⟩ := mem_map.mp ha
    obtain ⟨other, hother, hid⟩ := mem_map.mp hb
    obtain ⟨row, _, _, hparent, _, _, rfl⟩ := mem_children.mp hchild
    obtain ⟨row', _, _, hparent', _, _, rfl⟩ := mem_children.mp hother
    dsimp only at hid
    rw [hid, hparent] at hparent'
    exact hne (Option.some.inj hparent')

/-- Whatever has a distance stands on its level: on the way to it nothing comes twice. -/
theorem exists_atLevel (h : Distance tables access root (level + 1) row) (hne : row.id ≠ root) :
    ∃ node ∈ levelAt tables access root level, node.session = row := by
  induction level generalizing row with
  | zero =>
    cases h.1 with
    | child hrow hten hdel hpar => exact ⟨_, mem_rootChildren.mpr ⟨row, hrow, hten, hpar, hdel, rfl⟩, rfl⟩
    | step habove => exact absurd habove.mem.1 (Nat.lt_irrefl 0)
  | succ level ih =>
    cases h.1 with
    | @step _ above _ habove hrow hten hdel hpar =>
      have hdist : Distance tables access root (level + 1) above :=
        ⟨habove, fun other hother => Nat.le_of_succ_le_succ (h.2 _ (hother.step hrow hten hdel hpar))⟩
      have hproper : above.id ≠ root := by
        rintro heq
        have hone := h.2 1 (.child hrow hten hdel (heq ▸ hpar))
        omega
      obtain ⟨node, hnode, rfl⟩ := ih hdist hproper
      refine ⟨_, mem_flatMap.mpr ⟨node, hnode, mem_children.mpr ⟨row, hrow, hten, hpar, hdel, ?_, rfl⟩⟩, rfl⟩
      intro hmem
      obtain ⟨row', steps, hid, hle, hdesc⟩ := ((atLevel hnode).path row.id hmem).resolve_left hne
      have hmin := h.2 steps (eq_of_sessionId hdesc.mem.2 hrow hid ▸ hdesc)
      omega

theorem mem_treeLevels (levels : Nat) : node ∈ treeLevels tables access levels (levelAt tables access root level) ↔
    ∃ more < levels, node ∈ levelAt tables access root (level + more) := by
  induction levels generalizing level with
  | zero => simp [treeLevels]
  | succ levels ih =>
    rw [treeLevels, mem_append]
    change _ ∨ node ∈ treeLevels tables access levels (levelAt tables access root (level + 1)) ↔ _
    rw [ih, Nat.exists_lt_succ_left]
    simp only [Nat.add_zero, Nat.add_assoc, Nat.add_comm 1]

theorem treeLevels_nodup (levels level : Nat) :
    ((treeLevels tables access levels (levelAt tables access root level)).map fun node => node.session.id).Nodup := by
  induction levels generalizing level with
  | zero => exact nodup_nil
  | succ levels ih =>
    rw [treeLevels, map_append, nodup_append']
    refine ⟨levelAt_nodup level, ih (level + 1), fun id hid hid' => ?_⟩
    obtain ⟨node, hnode, rfl⟩ := mem_map.mp hid
    obtain ⟨other, hother, hsame⟩ := mem_map.mp hid'
    change other ∈ treeLevels tables access levels (levelAt tables access root (level + 1)) at hother
    obtain ⟨more, _, hother⟩ := (mem_treeLevels levels).mp hother
    have hnear := (atLevel hnode).distance
    have hfar := (atLevel hother).distance
    rw [eq_of_sessionId hfar.1.mem.2 hnear.1.mem.2 hsame] at hfar
    have hle := hfar.2 _ hnear.1
    omega

theorem visibleNodes_nodup (tables : Tables) (access : AccessContext) (root : String) :
    ((visibleNodes tables access root).map fun node => node.session.id).Nodup := by
  rw [visibleNodes, Perm.nodup_iff (Perm.map _ (perm_insertionSort _ _))]
  exact (treeLevels_nodup maxSessionTreeDepth 0).sublist (Sublist.map _ filter_sublist)

theorem sessionTreeCandidates_nodup {rows : List TreeRow} (h : sessionTreeCandidates tables access root = some rows) :
    (rows.map TreeRow.sessionId).Nodup := by
  obtain ⟨nodes, hnodes, rfl⟩ := Option.map_eq_some_iff.mp h
  have hall := bounded_eq_some hnodes
  subst hall
  rw [map_map]
  exact visibleNodes_nodup tables access root

theorem mem_visibleNodes : node ∈ visibleNodes tables access root ↔
    (∃ level < maxSessionTreeDepth, node ∈ levelAt tables access root level) ∧ Sees tables access node.session := by
  rw [visibleNodes, mem_insertionSort, mem_filter, sessionTree]
  change node ∈ treeLevels tables access maxSessionTreeDepth (levelAt tables access root 0) ∧ _ ↔ _
  simp only [mem_treeLevels, Nat.zero_add, Sees, Bool.and_eq_true, decide_eq_true_eq]

theorem treeOrder_iff {a b : TreeNode} : treeOrder tables a b = true ↔
    treeKey tables a.depth a.session.id ≤ treeKey tables b.depth b.session.id := by
  rw [treeOrder, Ordering.isLE_then_iff_or, Ordering.isLE_then_iff_or, treeKey, treeKey, Prod.Lex.toLex_le_toLex,
    Prod.Lex.toLex_le_toLex]
  simp only [OrderDual.toDual_lt_toDual, OrderDual.toDual_inj, compare_lt_iff_lt, compare_eq_iff_eq,
    Ordering.isLE_iff_ne_gt, compare_gt_iff_gt, not_lt,
    eq_comm (a := (tables.sessionColumns a.session.id).lastActivityAtMs)]

theorem visibleNodes_sorted (tables : Tables) (access : AccessContext) (root : String) :
    (visibleNodes tables access root).Pairwise fun a b =>
      treeKey tables a.depth a.session.id ≤ treeKey tables b.depth b.session.id := by
  have htotal : Std.Total fun a b => treeOrder tables a b = true :=
    ⟨fun a b => by simp only [treeOrder_iff]; exact le_total _ _⟩
  have htrans : IsTrans TreeNode fun a b => treeOrder tables a b = true :=
    ⟨fun a b c hab hbc => treeOrder_iff.mpr ((treeOrder_iff.mp hab).trans (treeOrder_iff.mp hbc))⟩
  exact (pairwise_insertionSort _ _).imp treeOrder_iff.mp

theorem listed_iff {depth : Nat} : (∃ node ∈ visibleNodes tables access root, node.session = row ∧ node.depth = depth) ↔
    Listed tables access root depth row := by
  constructor
  · rintro ⟨node, hnode, rfl, rfl⟩
    obtain ⟨⟨level, hlevel, hmem⟩, hsees⟩ := mem_visibleNodes.mp hnode
    have hat := atLevel hmem
    rw [hat.depth]
    exact ⟨hat.proper, hat.distance, hlevel, hsees⟩
  · rintro ⟨hproper, hdist, hdepth, hsees⟩
    obtain ⟨level, rfl⟩ := Nat.exists_eq_add_one.mpr hdist.1.mem.1
    obtain ⟨node, hmem, rfl⟩ := exists_atLevel hdist hproper
    exact ⟨node, mem_visibleNodes.mpr ⟨⟨level, hdepth, hmem⟩, hsees⟩, rfl, (atLevel hmem).depth⟩

/-- The subtree is listed as it is, or refused where it is too large. -/
theorem session_tree_exact (tables : Tables) (access : AccessContext) (root : String) :
    (∀ rows, sessionTreeCandidates tables access root = some rows →
      rows.length ≤ maxSnapshotItems ∧ (rows.map TreeRow.sessionId).Nodup ∧
      (∀ id depth, (∃ shown ∈ rows, shown.sessionId = id ∧ shown.depth = depth) ↔
        ∃ row, row.id = id ∧ Listed tables access root depth row) ∧
      rows.Pairwise (fun a b => treeKey tables a.depth a.sessionId ≤ treeKey tables b.depth b.sessionId) ∧
      ∀ shown ∈ rows, ∀ parent, shown.parentSessionId = some parent →
        (tables.sessionColumns shown.sessionId).parentSessionId = some parent ∧
          (parent = root ∨ parent ∈ rows.map TreeRow.sessionId)) ∧
    (sessionTreeCandidates tables access root = none → ∃ listed : List SessionRow, maxSnapshotItems < listed.length ∧
      listed.Nodup ∧ ∀ row ∈ listed, ∃ depth, Listed tables access root depth row) := by
  constructor
  · intro rows h
    have hnodup := sessionTreeCandidates_nodup h
    obtain ⟨nodes, hnodes, rfl⟩ := Option.map_eq_some_iff.mp h
    have hall := bounded_eq_some hnodes
    subst hall
    have hids : (visibleNodes tables access root).map (fun node => node.session.id) =
        ((visibleNodes tables access root).map (treeRow tables root
          ((visibleNodes tables access root).map fun node => node.session.id))).map TreeRow.sessionId := by
      rw [map_map]
      rfl
    refine ⟨?_, hnodup, ?_, ?_, ?_⟩
    · rw [length_map]
      exact Nat.not_lt.mp (Option.ite_none_left_eq_some.mp hnodes).1
    · intro id depth
      constructor
      · rintro ⟨shown, hshown, rfl, rfl⟩
        obtain ⟨node, hnode, rfl⟩ := mem_map.mp hshown
        exact ⟨node.session, rfl, listed_iff.mp ⟨node, hnode, rfl, rfl⟩⟩
      · rintro ⟨row, rfl, hrow⟩
        obtain ⟨node, hnode, rfl, rfl⟩ := listed_iff.mpr hrow
        exact ⟨_, mem_map_of_mem hnode, rfl, rfl⟩
    · exact pairwise_map.mpr (visibleNodes_sorted tables access root)
    · intro shown hshown parent hparent
      obtain ⟨node, hnode, rfl⟩ := mem_map.mp hshown
      obtain ⟨hlink, hvisible⟩ := Option.filter_eq_some_iff.mp hparent
      refine ⟨(Option.filter_eq_some_iff.mp hlink).1, ?_⟩
      rw [← hids]
      simpa using hvisible
  · intro h
    have hmany : maxSnapshotItems < (visibleNodes tables access root).length := by
      have hnone := Option.map_eq_none_iff.mp h
      by_contra hle
      rw [bounded, if_neg hle] at hnone
      cases hnone
    refine ⟨(visibleNodes tables access root).map TreeNode.session, by rwa [length_map], ?_, ?_⟩
    · apply Nodup.of_map SessionRow.id
      rw [map_map]
      exact visibleNodes_nodup tables access root
    · intro row hrow
      obtain ⟨node, hnode, rfl⟩ := mem_map.mp hrow
      exact ⟨node.depth, listed_iff.mp ⟨node, hnode, rfl, rfl⟩⟩

section Sample

def crowdId (n : Nat) : String := String.ofList (List.replicate (n + 1) 'a')

theorem crowdId_injective : Function.Injective crowdId := by
  intro m n h
  have hlen := congrArg List.length (String.ofList_injective h)
  simpa using hlen

theorem crowdId_ne (n : Nat) : crowdId n ≠ "r" := by
  intro h
  have hchars : 'a' :: List.replicate n 'a' = ['r'] := String.ofList_injective h
  exact absurd (List.cons.inj hchars).1 (by decide)

def crowdSession (n : Nat) : SessionRow := ⟨crowdId n, "home", some "ann", "private", 1, false⟩

/-- One session with 50001 children. -/
def crowd : Tables where
  sessions := (List.range (maxSnapshotItems + 1)).map crowdSession
  distinct := by
    rw [List.map_map]
    exact List.nodup_range.map crowdId_injective
  activityColumns _ := ⟨none, none, none, 0⟩
  sessionColumns id := ⟨if id = "r" then none else some "r", 0⟩
  toolColumns _ := ⟨0, 0⟩
  activities := []
  tools := []
  activityIds := List.nodup_nil
  activityKeys := List.nodup_nil
  toolIds := List.nodup_nil
  properParents id := by
    by_cases h : id = "r"
    · rw [if_pos h]
      exact nofun
    · rw [if_neg h]
      exact fun heq => h (Option.some.inj heq).symm

def crowdReader : AccessContext := ⟨"home", "ann", "user", "ann", "laptop", ["ann"], []⟩

theorem crowded_tree_refused : sessionTreeCandidates crowd crowdReader "r" = none ∧
    crowd.sessions.length = maxSnapshotItems + 1 ∧ ∀ row ∈ crowd.sessions, Listed crowd crowdReader "r" 1 row := by
  have hlen : crowd.sessions.length = maxSnapshotItems + 1 := by
    rw [crowd, length_map, length_range]
  have hlisted : ∀ row ∈ crowd.sessions, Listed crowd crowdReader "r" 1 row := by
    intro row hrow
    obtain ⟨n, rfl⟩ : ∃ n, crowdSession n = row := by
      simp only [crowd, mem_map] at hrow
      exact hrow.imp fun _ h => h.2
    refine ⟨crowdId_ne n, ⟨.child hrow rfl rfl (if_neg (crowdId_ne n)), fun _ h => h.mem.1⟩, by decide,
      (by decide : "private" ≠ "quarantined"), rfl⟩
  refine ⟨?_, hlen, hlisted⟩
  have hsub : crowd.sessions ⊆ (visibleNodes crowd crowdReader "r").map TreeNode.session := by
    intro row hrow
    obtain ⟨node, hnode, rfl, _⟩ := listed_iff.mpr (hlisted row hrow)
    exact mem_map_of_mem hnode
  have hle := (subperm_of_subset crowd.distinct.of_map hsub).length_le
  rw [length_map, hlen] at hle
  rw [sessionTreeCandidates, bounded, if_pos (Nat.lt_of_succ_le hle)]
  rfl

end Sample

end OpenAgent.Gateway.Operational
