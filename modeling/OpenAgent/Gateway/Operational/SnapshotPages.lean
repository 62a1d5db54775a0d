import OpenAgent.Gateway.Operational.Snapshots
import OpenAgent.Gateway.Operational.Subtrees
import OpenAgent.Lib.Cuts

namespace OpenAgent.Gateway.Operational.Snapshots

open Py OpenAgent.Gateway.Operational Checks List Platform Nat

/-- What these handlers rely on: digests and drawn identifiers do not collide, the answers about rows come one for each
row, and the index returns a chunk once. -/
structure Documented [Platform] : Prop where
  digest : Function.Injective Platform.digest
  sha256 : Function.Injective Platform.sha256
  tokenHex : Function.Injective Platform.tokenHex
  batched : ∀ tables access rows,
    Platform.searchRowsVisible tables access rows = rows.map (Platform.searchRowVisible tables access)
  chunks : ∀ index query access granted,
    ((Platform.readSearchRows index query access granted).map SearchRow.chunkId).Nodup

section Specification

variable [Platform]

/-- An entry is still there, and the caller may see it. A run takes its definition, the call that caused it, and the
session of this call; a search result takes one of its matches. -/
def readable (moment : Moment) (access : AccessContext) (ftsQuery : String) (entry : Entry) : Bool :=
  let store := moment.tables.toStore
  match entry with
  | .activity id => store.activities.any fun row => row.activityId = id && !row.deleted && isVisible store access row.acl
  | .session row => store.sessions.any fun session =>
    session.id = row.sessionId && !session.deleted && isVisible store access session.acl
  | .run run =>
    (runParent store run.kind run.resourceId).isSome && (store.activities.any fun activity =>
        activity.kind = run.kind.name && activity.resourceType = run.kind.name && activity.resourceId = run.resourceId &&
          activity.tenantId = access.tenantId && !activity.deleted && isVisible store access activity.acl) &&
      (store.tools.any fun cause =>
        cause.id = run.toolInvocationId && cause.tenantId = access.tenantId && cause.sessionId = run.sourceSessionId &&
          cause.rootKind = "session" && cause.rootId = cause.sessionId &&
          (safeToolRunTargets cause).any fun target => target.kind = run.kind && target.resourceId = run.resourceId) &&
      (store.sessions.any fun source =>
        source.id = run.sourceSessionId && source.tenantId = access.tenantId && !source.deleted &&
          isVisible store access source.acl)
  | .result entry => entry.found.any fun row =>
    Platform.searchRowVisible moment.tables access row && (highlight moment ftsQuery row).isSome

end Specification

section Rendering

def Renders (item : Item) (entry : Entry) : Prop :=
  match item, entry with
  | .activity item, .activity id => item.id = id
  | .session item, .session row => item.sessionId = row.sessionId
  | .run item, .run run => item.kind = run.kind ∧ item.resourceId = run.resourceId
  | .result item, .result entry => item.found ≠ [] ∧ ∀ shown ∈ item.found, shown.1 ∈ entry.found
  | _, _ => False

inductive Key where
  | activity (id : String)
  | session (id : String)
  | run (key : RunKind × String)
  | result (root : String × String) (chunkId : String)

def Entry.key (entry : Entry) : Key :=
  match entry with
  | .activity id => .activity id
  | .session row => .session row.sessionId
  | .run entry => .run entry.key
  | .result entry => .result entry.row.root entry.row.chunkId

def Answers (answer : List Item) (entry : Entry) (shown : Bool) : Prop :=
  if shown then ∃ item, answer = [item] ∧ Renders item entry else answer = []

theorem answers_of_mem {answer : List Item} {entry : Entry} {shown : Bool} (hlen : answer.length ≤ 1)
    (hmem : ∀ item ∈ answer, Renders item entry) (hiff : answer ≠ [] ↔ shown = true) : Answers answer entry shown := by
  cases shown with
  | false =>
    by_contra hne
    exact Bool.false_ne_true (hiff.mp hne)
  | true =>
    obtain ⟨item, rest, hans⟩ := exists_cons_of_ne_nil (hiff.mpr rfl)
    subst hans
    have hrest : rest = [] := eq_nil_of_length_eq_zero (by rw [length_cons] at hlen; omega)
    exact ⟨item, by rw [hrest], hmem item (mem_cons_self ..)⟩

theorem forall₂_of_answers {γ : Type} {entries : List γ} {answer : γ → List Item} {entry : γ → Entry} {shown : γ → Bool}
    (h : ∀ e ∈ entries, Answers (answer e) (entry e) (shown e)) :
    List.Forall₂ Renders (entries.flatMap answer) ((entries.filter shown).map entry) := by
  induction entries with
  | nil => exact Forall₂.nil
  | cons e entries ih =>
    have hfir := h e (mem_cons_self ..)
    have hrest := ih fun other hmem => h other (mem_cons_of_mem _ hmem)
    rw [flatMap_cons]
    cases hs : shown e with
    | false =>
      rw [Answers, hs, if_neg Bool.false_ne_true] at hfir
      rw [hfir, filter_cons_of_neg (by rw [hs]; exact Bool.false_ne_true)]
      exact hrest
    | true =>
      rw [Answers, hs, if_pos rfl] at hfir
      obtain ⟨item, hitem, hren⟩ := hfir
      rw [hitem, filter_cons_of_pos hs, map_cons]
      exact Forall₂.cons hren hrest

end Rendering

section Keys

variable {α κ : Type}

variable {key : α → κ} {rows : List α}

theorem length_filter_le_one (hn : (rows.map key).Nodup) {p : α → Bool}
    (hp : ∀ a b, p a = true → p b = true → key a = key b) : (rows.filter p).length ≤ 1 := by
  have hsub : ((rows.filter p).map key).Nodup := hn.sublist (Sublist.map _ filter_sublist)
  match hrows : rows.filter p with
  | [] => exact zero_le _
  | [_] => exact le_refl _
  | a :: b :: rest =>
    have hpa : p a = true := (mem_filter.mp (hrows ▸ mem_cons_self ..)).2
    have hpb : p b = true := (mem_filter.mp (hrows ▸ mem_cons_of_mem _ (mem_cons_self ..))).2
    rw [hrows, map_cons, map_cons, hp a b hpa hpb] at hsub
    exact absurd (mem_cons_self ..) (nodup_cons.mp hsub).1

theorem length_flatMap_le_one {β : Type} {f : α → List β} (h : rows.length ≤ 1)
    (hf : ∀ a, (f a).length ≤ 1) : (rows.flatMap f).length ≤ 1 := by
  match rows with
  | [] => exact zero_le _
  | [a] =>
    rw [flatMap_singleton]
    exact hf a
  | _ :: _ :: _ =>
    rw [length_cons, length_cons] at h
    omega

theorem find?_eq_some_of_key (hn : (rows.map key).Nodup) {p : α → Bool}
    (hp : ∀ a b, p a = true → p b = true → key a = key b) {a : α} (ha : a ∈ rows) (hpa : p a = true) :
    rows.find? p = some a := by
  cases hf : rows.find? p with
  | none => exact absurd hpa (by simpa using List.find?_eq_none.mp hf a ha)
  | some b =>
    rw [inj_on_of_nodup_map hn (mem_of_find?_eq_some hf) ha (hp b a (List.find?_some hf) hpa)]

theorem nodup_map_of_imp {β : Type} {other : α → β} (hn : (rows.map key).Nodup)
    (h : ∀ a b, other a = other b → key a = key b) : (rows.map other).Nodup := by
  rw [List.Nodup, pairwise_map] at hn ⊢
  exact hn.imp fun hne heq => hne (h _ _ heq)

end Keys

section Answers

variable [Platform] (moment : Moment) (access : AccessContext) (ftsQuery : String)

theorem historyAnswer_answers (activityId : String) :
    Answers ((historyAnswer access moment activityId).map .activity) (.activity activityId)
      (readable moment access ftsQuery (.activity activityId)) := by
  have hans : historyAnswer access moment activityId =
      ((historyRow moment.tables.toStore access activityId).toList).map activityJson := by
    rw [historyAnswer, Operational.handleHistory]
    cases hrow : historyRow moment.tables.toStore access activityId with
    | none => rw [filterMap_cons_none hrow]; rfl
    | some row => rw [filterMap_cons_some hrow]; rfl
  have hkey : ∀ a b : ActivityRow, (a.activityId = activityId && !a.deleted) = true →
      (b.activityId = activityId && !b.deleted) = true → a.activityId = b.activityId := by
    intro a b ha hb
    simp only [Bool.and_eq_true, decide_eq_true_eq] at ha hb
    rw [ha.1, hb.1]
  apply answers_of_mem
  · rw [hans, length_map, length_map]
    cases historyRow moment.tables.toStore access activityId <;> simp
  · intro item hitem
    obtain ⟨json, hjson, rfl⟩ := mem_map.mp hitem
    obtain ⟨row, hrow, rfl⟩ := mem_map.mp hjson
    have hfound := (Option.filter_eq_some_iff.mp (Option.mem_toList.mp hrow)).1
    have hsame := List.find?_some hfound
    simp only [Bool.and_eq_true, decide_eq_true_eq] at hsame
    exact hsame.1
  rw [hans, readable, any_eq_true]
  constructor
  · intro hne
    obtain ⟨item, hitem⟩ := exists_mem_of_ne_nil _ hne
    obtain ⟨json, hjson, rfl⟩ := mem_map.mp hitem
    obtain ⟨row, hrow, rfl⟩ := mem_map.mp hjson
    obtain ⟨hfound, hvis⟩ := Option.filter_eq_some_iff.mp (Option.mem_toList.mp hrow)
    exact ⟨row, mem_of_find?_eq_some hfound, by rw [List.find?_some hfound, hvis]; rfl⟩
  rintro ⟨row, hrow, hvis⟩
  rw [Bool.and_eq_true] at hvis
  have hfound := find?_eq_some_of_key moment.tables.activityIds hkey hrow hvis.1
  rw [historyRow, hfound, Option.filter_some, if_pos hvis.2]
  simp

theorem sessionVisible_iff (sessionId : String) :
    sessionVisible moment.tables.toStore access sessionId = moment.tables.sessions.any fun session =>
      session.id = sessionId && !session.deleted && isVisible moment.tables.toStore access session.acl := by
  have hkey : ∀ a b : SessionRow, (a.id = sessionId && !a.deleted) = true → (b.id = sessionId && !b.deleted) = true →
      a.id = b.id := by
    intro a b ha hb
    simp only [Bool.and_eq_true, decide_eq_true_eq] at ha hb
    rw [ha.1, hb.1]
  rw [Bool.eq_iff_iff, any_eq_true, sessionVisible, Option.any_eq_true]
  constructor
  · rintro ⟨acl, hacl, hvis⟩
    obtain ⟨session, hfound, rfl⟩ := Option.map_eq_some_iff.mp hacl
    exact ⟨session, mem_of_find?_eq_some hfound, by rw [List.find?_some hfound, hvis]; rfl⟩
  rintro ⟨session, hses, hvis⟩
  rw [Bool.and_eq_true] at hvis
  have hfound := find?_eq_some_of_key moment.tables.distinct hkey hses hvis.1
  exact ⟨session.acl, by rw [sessionAclRow, hfound]; rfl, hvis.2⟩

theorem descendantAnswer_answers (sessionId : String) (row : TreeRow) :
    Answers ((descendantAnswer access sessionId moment row).map .session) (.session row)
      (readable moment access ftsQuery (.session row)) := by
  rw [readable, ← sessionVisible_iff, descendantAnswer]
  cases hvis : sessionVisible moment.tables.toStore access row.sessionId with
  | false =>
    rfl
  | true =>
    rw [Answers, if_pos rfl, if_pos rfl]
    split
    · exact ⟨_, rfl, rfl⟩
    · exact ⟨_, rfl, rfl⟩

variable {moment access}

theorem mem_joinedDetails {candidate : Candidate} {detail : Detail} :
    detail ∈ joinedDetails moment.tables.toStore access candidate ↔
      ∃ activity ∈ moment.tables.activities, (activity.kind = candidate.kind.name &&
        activity.resourceType = candidate.kind.name && activity.resourceId = candidate.resourceId &&
          activity.tenantId = access.tenantId && !activity.deleted) = true ∧
      ∃ cause ∈ moment.tables.tools, (cause.id = candidate.toolInvocationId && cause.tenantId = access.tenantId &&
        cause.sessionId = candidate.sourceSessionId && cause.rootKind = "session" && cause.rootId = cause.sessionId) = true ∧
      ∃ source ∈ moment.tables.sessions, (source.id = candidate.sourceSessionId && source.tenantId = access.tenantId &&
        !source.deleted) = true ∧
      ∃ parentId, runParent moment.tables.toStore candidate.kind candidate.resourceId = some parentId ∧
        let downstream := downstreamOf moment.tables.toStore candidate.kind candidate.resourceId
        detail = ⟨candidate.kind, activity, cause, source, parentId,
          detailSession moment.tables.toStore candidate.kind candidate.resourceId, downstream.bind (·.workflowRunId),
          downstream.bind (·.taskRunId)⟩ := by
  simp only [joinedDetails, bind_eq_flatMap, mem_flatMap, mem_filter, Option.mem_toList, pure_def,
    mem_singleton, and_assoc]

theorem joinedDetails_length (candidate : Candidate) :
    (joinedDetails moment.tables.toStore access candidate).length ≤ 1 := by
  apply length_flatMap_le_one
  · apply length_filter_le_one moment.tables.activityKeys
    intro a b ha hb
    simp only [Bool.and_eq_true, decide_eq_true_eq] at ha hb
    simp only [ha.1, hb.1]
  intro activity
  apply length_flatMap_le_one
  · apply length_filter_le_one moment.tables.toolIds
    intro a b ha hb
    simp only [Bool.and_eq_true, decide_eq_true_eq] at ha hb
    rw [ha.1.1.1.1, hb.1.1.1.1]
  intro cause
  apply length_flatMap_le_one
  · apply length_filter_le_one moment.tables.distinct
    intro a b ha hb
    simp only [Bool.and_eq_true, decide_eq_true_eq] at ha hb
    rw [ha.1.1, hb.1.1]
  intro source
  apply length_flatMap_le_one
  · cases runParent moment.tables.toStore candidate.kind candidate.resourceId <;> simp
  intro parentId
  exact le_refl _

theorem relatedAnswer_answers (entry : RelatedEntry) :
    Answers ((relatedAnswer access moment entry).map .run) (.run entry) (readable moment access ftsQuery (.run entry)) := by
  have hdet : relatedRunDetails moment.tables.toStore access [entry.toCandidate] =
      (joinedDetails moment.tables.toStore access entry.toCandidate).filter fun detail =>
        detail.stillCaused && isVisible moment.tables.toStore access detail.source.acl &&
          isVisible moment.tables.toStore access detail.activity.acl := by
    rw [relatedRunDetails, flatMap_singleton]
  apply answers_of_mem
  · rw [relatedAnswer, length_map, length_map, hdet]
    exact (length_filter_le _ _).trans (joinedDetails_length _)
  · intro item hitem
    obtain ⟨run, hrun, rfl⟩ := mem_map.mp hitem
    obtain ⟨detail, hdeta, rfl⟩ := mem_map.mp hrun
    rw [hdet] at hdeta
    obtain ⟨activity, _, hact, cause, _, _, source, _, _, parentId, _, rfl⟩ :=
      mem_joinedDetails.mp (mem_filter.mp hdeta).1
    simp only [Bool.and_eq_true, decide_eq_true_eq] at hact
    exact ⟨rfl, hact.1.1.2⟩
  constructor
  · intro hne
    obtain ⟨item, hitem⟩ := exists_mem_of_ne_nil _ hne
    obtain ⟨run, hrun, rfl⟩ := mem_map.mp hitem
    obtain ⟨detail, hdeta, rfl⟩ := mem_map.mp hrun
    rw [hdet] at hdeta
    obtain ⟨hjoi, hkept⟩ := mem_filter.mp hdeta
    obtain ⟨activity, hmem, hact, cause, hcau, hcause, source, hsou, hsour, parentId, hpar, rfl⟩ :=
      mem_joinedDetails.mp hjoi
    rw [Bool.and_eq_true, Bool.and_eq_true] at hkept
    obtain ⟨⟨hcaus, hsee⟩, hsee'⟩ := hkept
    have hsame : activity.resourceId = entry.resourceId := by
      simp only [Bool.and_eq_true, decide_eq_true_eq] at hact
      exact hact.1.1.2
    rw [Detail.stillCaused] at hcaus
    rw [hsame] at hcaus
    simp only [readable, Bool.and_eq_true, any_eq_true]
    refine ⟨⟨⟨by rw [hpar]; rfl, activity, hmem, ?_⟩, cause, hcau, ?_⟩, source, hsou, ?_⟩
    · exact ⟨by simpa using hact, hsee'⟩
    · exact ⟨by simpa using hcause, by simpa using hcaus⟩
    · exact ⟨by simpa using hsour, hsee⟩
  · intro hrea
    simp only [readable, Bool.and_eq_true, any_eq_true, decide_eq_true_eq] at hrea
    obtain ⟨⟨⟨hpar, activity, hmem, hact, hsee⟩, cause, hcau, hcause, hcaus⟩, source, hsou, hsour, hsee'⟩ := hrea
    obtain ⟨parentId, hpar⟩ := Option.isSome_iff_exists.mp hpar
    have hjoi := mem_joinedDetails.mpr ⟨activity, hmem, by simpa using hact, cause, hcau, by simpa using hcause,
      source, hsou, by simpa using hsour, parentId, hpar, rfl⟩
    have hkept : ∀ detail : Detail, detail.kind = entry.kind → detail.activity = activity → detail.cause = cause →
        detail.source = source → (detail.stillCaused && isVisible moment.tables.toStore access detail.source.acl &&
          isVisible moment.tables.toStore access detail.activity.acl) = true := by
      intro detail hkind ha hc hs
      rw [Detail.stillCaused, hkind, ha, hc, hs, hsee, hsee', hact.1.1.2]
      simpa using hcaus
    rw [relatedAnswer, hdet]
    refine ne_nil_of_mem (mem_map_of_mem (mem_map_of_mem (mem_filter.mpr ⟨hjoi, ?_⟩)))
    exact hkept _ rfl rfl rfl rfl

end Answers

section Collecting

def collect (shows : SearchRow → Option String) (visible : SearchRow → Bool) : List SearchRow → Shown → Shown
  | [], shown => shown
  | row :: rows, shown =>
    let counted := { shown with visible := shown.visible + 1 }
    if !visible row then collect shows visible rows shown
    else if 2 ≤ shown.current.length then collect shows visible rows counted
    else match shows row with
      | none => collect shows visible rows counted
      | some text => collect shows visible rows { counted with current := shown.current ++ [(row, text)] }

variable {shows : SearchRow → Option String}

theorem collect_ne_nil (visible : SearchRow → Bool) (rows : List SearchRow) (shown : Shown) :
    (collect shows visible rows shown).current ≠ [] ↔ shown.current ≠ [] ∨
      ∃ row ∈ rows, visible row = true ∧ (shows row).isSome = true := by
  induction rows generalizing shown with
  | nil => simp [collect]
  | cons row rows ih =>
    rw [collect]
    cases hv : visible row with
    | false =>
      rw [Bool.not_false, if_pos rfl, ih]
      simp [hv]
    | true =>
      rw [Bool.not_true, if_neg Bool.false_ne_true]
      split
      next hfull =>
        have hne : shown.current ≠ [] := by
          intro hnil
          rw [hnil] at hfull
          exact absurd hfull (by decide)
        rw [ih]
        simp [hne]
      · cases hh : shows row with
        | none | some _ =>
          rw [ih]
          simp [hv, hh]

theorem mem_collect {visible : SearchRow → Bool} {rows : List SearchRow} {shown : Shown} {entry : SearchRow × String}
    (h : entry ∈ (collect shows visible rows shown).current) : entry ∈ shown.current ∨ entry.1 ∈ rows := by
  induction rows generalizing shown with
  | nil => exact .inl h
  | cons row rows ih =>
    have hrest : ∀ {other : Shown}, entry ∈ (collect shows visible rows other).current →
        (entry ∈ other.current → entry ∈ shown.current ∨ entry.1 = row) → entry ∈ shown.current ∨ entry.1 ∈ row :: rows := by
      intro other hoth hback
      rcases ih hoth with hcur | hrow
      · exact (hback hcur).imp id fun hsame => by rw [hsame]; exact mem_cons_self ..
      · exact .inr (mem_cons_of_mem _ hrow)
    rw [collect] at h
    split at h
    · exact hrest h .inl
    split at h
    · exact hrest h .inl
    split at h
    · exact hrest h .inl
    apply hrest h
    intro hcur
    rcases mem_append.mp hcur with hcur | hnew
    · exact .inl hcur
    · exact .inr (by rw [mem_singleton.mp hnew])

end Collecting

section Matches

variable [Platform] (moment : Moment) (access : AccessContext) (ftsQuery : String)

theorem readMatches_eq (visible : SearchRow → Bool) (rows : List SearchRow) (pending : List Bool) (shown : Shown) :
    readMatches moment ftsQuery rows (rows.map visible ++ pending) shown =
      some (collect (highlight moment ftsQuery) visible rows shown, pending) := by
  induction rows generalizing shown with
  | nil => rw [map_nil, nil_append, readMatches.eq_1, collect]
  | cons row rows ih =>
    rw [map_cons, cons_append, collect]
    cases hv : visible row with
    | false =>
      exact ih shown
    | true =>
      rw [readMatches, Bool.not_true, if_neg Bool.false_ne_true]
      split
      · exact ih _
      cases highlight moment ftsQuery row with
      | none | some _ => exact ih _

def searchAnswer (grouping : Grouping) (entry : SearchEntry) : List SearchItem :=
  searchItem grouping (collect (highlight moment ftsQuery) (Platform.searchRowVisible moment.tables access) entry.found {})

theorem searchAnswer_answers (grouping : Grouping) (entry : SearchEntry) :
    Answers ((searchAnswer moment access ftsQuery grouping entry).map .result) (.result entry)
      (readable moment access ftsQuery (.result entry)) := by
  have hiff : (collect (highlight moment ftsQuery) (searchRowVisible moment.tables access) entry.found {}).current ≠ [] ↔
      readable moment access ftsQuery (.result entry) = true := by
    rw [collect_ne_nil, readable, any_eq_true]
    simp only [ne_eq, not_true_eq_false, false_or, Bool.and_eq_true]
  rw [searchAnswer, searchItem]
  cases hcur : (collect (highlight moment ftsQuery) (searchRowVisible moment.tables access) entry.found {}).current with
  | nil =>
    have hhid : readable moment access ftsQuery (.result entry) = false :=
      Bool.eq_false_iff.mpr fun hrea => hiff.mpr hrea hcur
    rw [hhid, Answers, if_neg Bool.false_ne_true]
    rfl
  | cons first rest =>
    have hsho : readable moment access ftsQuery (.result entry) = true :=
      hiff.mp (by rw [hcur]; exact cons_ne_nil _ _)
    rw [hsho, Answers, if_pos rfl]
    refine ⟨_, rfl, cons_ne_nil _ _, ?_⟩
    intro shown hmem
    rw [← hcur] at hmem
    exact (mem_collect hmem).resolve_left not_mem_nil

def batchStart (position : Nat) : Nat := position / searchPageLookahead * searchPageLookahead

/-- Answers are pending for the entries from here to the end of those that were looked at together. -/
structure Ahead (call : Call) (entries : List SearchEntry) (position through : Nat) (pending : List Bool) : Prop where
  pos : position < through
  le : through ≤ batchStart position + searchPageLookahead
  full : through = batchStart position + searchPageLookahead ∨ through = position + entries.length
  pending : pending = ((entries.take (through - position)).flatMap SearchEntry.found).map
    (Platform.searchRowVisible (call.moments (batchStart position)).tables call.access)

def Aligned (call : Call) (entries : List SearchEntry) (position through : Nat) (pending : List Bool) : Prop :=
  entries ≠ [] → (through ≤ position ∧ batchStart position = position) ∨ Ahead call entries position through pending

variable {access ftsQuery} {call : Call} {entry : SearchEntry} {rest : List SearchEntry} {position through : Nat}
  {pending : List Bool}

theorem ahead_of_aligned (hdoc : Documented) (h : Aligned call (entry :: rest) position through pending) :
    Ahead call (entry :: rest) position
      (if through ≤ position then position + ((entry :: rest).take searchPageLookahead).length else through)
      (if through ≤ position then Platform.searchRowsVisible (call.moments position).tables call.access
        (((entry :: rest).take searchPageLookahead).flatMap SearchEntry.found) else pending) := by
  rcases h (cons_ne_nil _ _) with ⟨hle, hsta⟩ | hahe
  · rw [if_pos hle, if_pos hle, length_take, length_cons]
    have hpos : 0 < searchPageLookahead := by decide
    refine ⟨by omega, by omega, ?_, ?_⟩
    · rw [hsta, length_cons]
      omega
    have htake : (entry :: rest).take (min searchPageLookahead (rest.length + 1)) =
        (entry :: rest).take searchPageLookahead := by
      rw [take_eq_take_iff, length_cons]
      omega
    rw [hdoc.batched, hsta, Nat.add_sub_cancel_left, htake]
  · rw [if_neg (Nat.not_le.mpr hahe.pos), if_neg (Nat.not_le.mpr hahe.pos)]
    exact hahe

theorem aligned_of_ahead (h : Ahead call (entry :: rest) position through pending) : ∃ others, pending = entry.found.map
        (Platform.searchRowVisible (call.moments (batchStart position)).tables call.access) ++ others ∧
      Aligned call rest (position + 1) through others := by
  obtain ⟨count, hcou⟩ : ∃ count, through - position = count + 1 := ⟨through - position - 1, by have := h.pos; omega⟩
  have hpen := h.pending
  rw [hcou, take_succ_cons, flatMap_cons, map_append] at hpen
  refine ⟨_, hpen, ?_⟩
  intro hne
  have hle := h.le
  have hfull := h.full
  have hlen : 0 < rest.length := length_pos_of_ne_nil hne
  rw [length_cons] at hfull
  simp only [batchStart, searchPageLookahead] at hle hfull
  by_cases hlast : through ≤ position + 1
  · left
    refine ⟨hlast, ?_⟩
    simp only [batchStart, searchPageLookahead]
    omega
  right
  have hsta : batchStart (position + 1) = batchStart position := by
    simp only [batchStart, searchPageLookahead]
    omega
  refine ⟨by omega, ?_, ?_, ?_⟩
  · rw [hsta]
    exact h.le
  · rw [hsta]
    simp only [batchStart, searchPageLookahead]
    omega
  rw [hsta]
  have hsame : through - (position + 1) = count := by omega
  rw [hsame]

def searchMoment (call : Call) (position : Nat) : Moment :=
  ⟨(call.moments (batchStart position)).tables, (call.moments position).index⟩

theorem scan_eq (hdoc : Documented) (query : SearchQuery) (entries : List SearchEntry) {output : List SearchItem}
    (h : Aligned call entries position through pending) :
    ∃ count, count ≤ entries.length ∧ (entries ≠ [] → output.length < call.limit.value → 0 < count) ∧
      scan call query entries position through pending output = some
        (output ++ ((entries.take count).zipIdx position).flatMap (fun e =>
          searchAnswer (searchMoment call e.2) call.access (Platform.literalFtsQuery query.query) query.grouping e.1),
          position + count) := by
  induction entries generalizing position through pending output with
  | nil => exact ⟨0, le_refl _, fun hne => absurd rfl hne, by simp [scan]⟩
  | cons entry rest ih =>
    by_cases hlim : call.limit.value ≤ output.length
    · refine ⟨0, zero_le _, fun _ hlt => absurd hlt (not_lt.mpr hlim), ?_⟩
      rw [scan, if_pos hlim]
      simp
    obtain ⟨others, hpen, hali⟩ := aligned_of_ahead (ahead_of_aligned hdoc h)
    have hmat := readMatches_eq (call.moments position) (literalFtsQuery query.query)
      (searchRowVisible (call.moments (batchStart position)).tables call.access) entry.found others {}
    rw [scan, if_neg hlim]
    dsimp only
    rw [hpen, hmat]
    obtain ⟨count, hcou, _, hscan⟩ := @ih (position + 1) _ others (output ++ searchItem query.grouping
      (collect (highlight (call.moments position) (literalFtsQuery query.query))
        (searchRowVisible (call.moments (batchStart position)).tables call.access) entry.found {})) hali
    refine ⟨count + 1, succ_le_succ hcou, fun _ _ => succ_pos _, ?_⟩
    dsimp only
    rw [hscan, take_succ_cons, zipIdx_cons, flatMap_cons, append_assoc, add_assoc,
      add_comm 1 count]
    rfl

end Matches

section Fitting

variable [Platform]

def Request.ftsQuery (request : Request) : String :=
  match request with
  | .search query => Platform.literalFtsQuery query.query
  | _ => ""

def momentAt (request : Request) (call : Call) (position : Nat) : Moment :=
  match request with
  | .search _ => searchMoment call position
  | _ => call.moments position

def Served.covered (served : Served) : List (Moment × Entry) :=
  (Cuts.piece served.frozen.entries served.offset served.stop).zipIdx.map fun e =>
    (momentAt served.request served.call e.2, e.1)

def Served.shows (served : Served) (read : Moment × Entry) : Bool :=
  readable read.1 served.call.access served.request.ftsQuery read.2

def Request.Admits (request : Request) (scope : Scope) : Prop :=
  match request, scope with
  | .history filters, .history digest => digest = Platform.digest (.filters filters)
  | .descendants sessionId, .descendants bound => bound = sessionId
  | .relatedRuns sessionId includeParam, .relatedRuns bound includeDescendants =>
    bound = sessionId ∧ ∀ asked ∈ includeParam, asked = includeDescendants
  | .search query, .search digest => digest = Platform.digest (.request (normalized query))
  | _, _ => False

/-- The snapshot is one that the request may be served from, at this offset. -/
structure Granted (request : Request) (call : Call) (frozen : Frozen) (offset : Nat) : Prop where
  tenant : frozen.tenantId = call.access.tenantId
  principal : frozen.principalId = call.access.principalId
  admits : request.Admits frozen.scope
  first : call.cursor = none → offset = 0
  resumed : ∀ token, call.cursor = some token → token.cursor.s = frozen.id ∧ token.cursor.o = some (offset : Int)

structure Served.Fits (served : Served) : Prop where
  granted : Granted served.request served.call served.frozen served.offset
  le : served.offset ≤ served.stop
  moves : served.offset < served.frozen.entries.length →
    served.offset < served.stop ∧ served.stop ≤ served.frozen.entries.length
  leads : ∀ token, served.nextCursor = some token → token.cursor.s = served.frozen.id ∧
    token.cursor.o = some (served.stop : Int) ∧ served.stop < served.frozen.entries.length
  ends : served.nextCursor = none → served.frozen.entries.length ≤ served.stop
  items : List.Forall₂ Renders served.items ((served.covered.filter served.shows).map Prod.snd)

variable {β ρ ι : Type} {state : CursorState} {cursor : Cursor} {stop count : Nat}

theorem nextCursor_some {token : Token} (h : nextCursor state cursor stop count = some token) :
    stop < count ∧ token.cursor.s = cursor.s ∧ token.cursor.o = some (stop : Int) := by
  obtain ⟨hlt, h⟩ := Option.ite_none_right_eq_some.mp h
  cases h
  exact ⟨hlt, rfl, rfl⟩

theorem nextCursor_none (h : nextCursor state cursor stop count = none) : count ≤ stop := by
  rw [nextCursor] at h
  split at h
  · cases h
  · omega

variable {request : Request}

variable {call : Call}

theorem fits_of_answers {scope : β → Scope} {entry : ρ → Entry} {item : ι → Item}
    {page : Page (Snapshot β ρ) ι} (answer : Moment → ρ → List ι) (cursor : Cursor)
    (hgra : Granted request call (frozen scope entry page.snapshot) page.offset)
    (hans : ∀ moment row, Answers ((answer moment row).map item) (entry row)
      (readable moment call.access request.ftsQuery (entry row))) (hcur : cursor.s = page.snapshot.snapshotId)
    (hnext : page.nextCursor = nextCursor state cursor page.stop page.snapshot.rows.length)
    (hle : page.offset ≤ page.stop)
    (hmov : page.offset < page.snapshot.rows.length → page.offset < page.stop ∧ page.stop ≤ page.snapshot.rows.length)
    (hite : page.items = (Cuts.piece page.snapshot.rows page.offset page.stop).zipIdx.flatMap fun e =>
      answer (momentAt request call e.2) e.1) :
    (page.served request call (frozen scope entry) item).Fits := by
  have hlen : (page.snapshot.rows.map entry).length = page.snapshot.rows.length := length_map _
  refine ⟨hgra, hle, ?_, ?_, ?_, ?_⟩
  · intro hlt
    change _ < (page.snapshot.rows.map entry).length at hlt
    change _ ∧ _ ≤ (page.snapshot.rows.map entry).length
    rw [hlen] at hlt ⊢
    exact hmov hlt
  · intro token htok
    change page.nextCursor = some token at htok
    rw [hnext] at htok
    obtain ⟨hlt, hs, ho⟩ := nextCursor_some htok
    refine ⟨hs.trans hcur, ho, ?_⟩
    change _ < (page.snapshot.rows.map entry).length
    rw [hlen]
    exact hlt
  · intro hnone
    change page.nextCursor = none at hnone
    change (page.snapshot.rows.map entry).length ≤ _
    rw [hnext] at hnone
    rw [hlen]
    exact nextCursor_none hnone
  · have hcov : (page.served request call (frozen scope entry) item).covered =
        (Cuts.piece page.snapshot.rows page.offset page.stop).zipIdx.map fun e =>
          (momentAt request call e.2, entry e.1) := by
      change (Cuts.piece (page.snapshot.rows.map entry) page.offset page.stop).zipIdx.map _ = _
      rw [Cuts.piece_map, zipIdx_map, map_map]
      rfl
    rw [hcov, filter_map, map_map]
    change List.Forall₂ Renders (page.items.map item) _
    rw [hite, map_flatMap]
    exact forall₂_of_answers fun e _ => hans (momentAt request call e.2) e.1

variable {offset : Nat}

theorem slicedPage_fits {scope : β → Scope} {entry : ρ → Entry} {item : ι → Item}
    {snapshot : Snapshot β ρ} {answer : Moment → ρ → List ι}
    (hgra : Granted request call (frozen scope entry snapshot) offset)
    (hmom : ∀ position, momentAt request call position = call.moments position)
    (hans : ∀ moment row, Answers ((answer moment row).map item) (entry row)
      (readable moment call.access request.ftsQuery (entry row))) (hcur : cursor.s = snapshot.snapshotId) :
    ((slicedPage state call snapshot offset cursor answer).served request call (frozen scope entry) item).Fits := by
  apply fits_of_answers answer cursor hgra hans hcur rfl (le_add_right _ _)
  · intro hlt
    have hpos := call.limit.pos
    change offset < snapshot.rows.length at hlt
    change offset < offset + ((snapshot.rows.drop offset).take call.limit.value).length ∧
      offset + ((snapshot.rows.drop offset).take call.limit.value).length ≤ snapshot.rows.length
    rw [length_take, length_drop]
    omega
  change ((snapshot.rows.drop offset).take call.limit.value).zipIdx.flatMap _ = _
  rw [Cuts.take_drop_eq_piece]
  apply flatMap_congr
  intro e _
  rw [hmom]

variable {query : SearchQuery} {snapshot : SearchSnapshot}

theorem searchPage_fits (hdoc : Documented)
    {page : Page SearchSnapshot SearchItem} (h : searchPage call query state snapshot offset = .ok page)
    (hgra : Granted (.search query) call (frozenSearch snapshot) offset) :
    (page.served (.search query) call frozenSearch .result).Fits := by
  obtain ⟨scanned, hsca, h⟩ := bind_eq_ok h
  cases h
  have hsta : Aligned call (snapshot.rows.drop offset) 0 0 [] := fun _ => .inl ⟨le_refl _, rfl⟩
  obtain ⟨count, hcou, hmove, hscan⟩ := @scan_eq _ call 0 0 [] hdoc query _ [] hsta
  rw [hscan] at hsca
  cases hsca
  have hlen : (snapshot.rows.drop offset).length = snapshot.rows.length - offset := length_drop
  apply fits_of_answers (fun moment => searchAnswer moment call.access (literalFtsQuery query.query) query.grouping)
    ⟨"search", snapshot.snapshotId, none, none⟩ hgra ?_ rfl rfl (le_add_right _ _)
  · intro hlt
    change offset < snapshot.rows.length at hlt
    have hne : snapshot.rows.drop offset ≠ [] := ne_nil_of_length_pos (by omega)
    have hpos := hmove hne call.limit.pos
    change offset < offset + (0 + count) ∧ offset + (0 + count) ≤ snapshot.rows.length
    omega
  · change List.flatMap _ ((snapshot.rows.drop offset).take count).zipIdx = List.flatMap _ (List.zipIdx (Cuts.piece _ _ _))
    have hpie : Cuts.piece snapshot.rows offset (offset + (0 + count)) = (snapshot.rows.drop offset).take count := by
      rw [Cuts.piece, Nat.add_sub_cancel_left, Nat.zero_add]
    rw [hpie]
    rfl
  · intro moment row
    exact searchAnswer_answers moment call.access (literalFtsQuery query.query) query.grouping row

omit [Platform] in
theorem offsetOf_eq_ok (h : offsetOf cursor = .ok offset) : cursor.o = some (offset : Int) := by
  rw [offsetOf] at h
  cases ho : cursor.o with
  | none =>
    rw [ho] at h
    cases h
  | some value =>
    rw [ho, Option.getD_some] at h
    split at h
    · cases h
    · cases h
      rw [Int.toNat_of_nonneg (by omega)]

theorem decode_eq_ok {token : Token} (h : state.decode token = .ok cursor) : cursor = token.cursor := by
  rw [CursorState.decode] at h
  split at h
  · cases h
    rfl
  · cases h

omit [Platform] in
theorem otherAccount_eq_false {snapshot : Snapshot β ρ} {access : AccessContext}
    (h : otherAccount snapshot access = false) :
    snapshot.tenantId = access.tenantId ∧ snapshot.principalId = access.principalId := by
  simpa [otherAccount] using h

variable {call : Call} {token : Token} {offset drawn : Nat}

theorem granted_of_resumed {frozen : Frozen} (hcall : call.cursor = some token)
    (hten : frozen.tenantId = call.access.tenantId) (hpri : frozen.principalId = call.access.principalId)
    (hid : token.cursor.s = frozen.id) (hadm : request.Admits frozen.scope) (hoff : offsetOf token.cursor = .ok offset) :
    Granted request call frozen offset := by
  refine ⟨hten, hpri, hadm, ?_, ?_⟩
  · intro hnone
    rw [hcall] at hnone
    cases hnone
  intro other hoth
  rw [hcall] at hoth
  cases hoth
  exact ⟨hid, offsetOf_eq_ok hoff⟩

theorem granted_of_opened {frozen : Frozen} (hcall : call.cursor = none)
    (hten : frozen.tenantId = call.access.tenantId) (hpri : frozen.principalId = call.access.principalId)
    (hadm : request.Admits frozen.scope) : Granted request call frozen 0 := by
  refine ⟨hten, hpri, hadm, fun _ => rfl, ?_⟩
  intro other hoth
  rw [hcall] at hoth
  cases hoth

theorem resumeHistory_granted {filters : HistoryFilters} {snapshot : HistorySnapshot}
    (h : resumeHistory call filters state token = .ok (snapshot, offset)) (hcall : call.cursor = some token) :
    state.history.get? token.cursor.s = some snapshot ∧ (token.cursor.s = snapshot.snapshotId →
      Granted (.history filters) call (frozenHistory snapshot) offset) := by
  obtain ⟨cursor, hcur, h⟩ := bind_eq_ok h
  obtain ⟨found, hfound, h⟩ := bind_eq_ok h
  obtain ⟨_, _, h⟩ := bind_eq_ok h
  obtain ⟨_, hacc, h⟩ := bind_eq_ok h
  obtain ⟨_, hfil, h⟩ := bind_eq_ok h
  obtain ⟨at_, hoff, h⟩ := bind_eq_ok h
  cases h
  cases decode_eq_ok hcur
  obtain ⟨hten, hpri⟩ := otherAccount_eq_false (refuse_eq_ok hacc)
  refine ⟨found_eq_ok hfound, fun hid => granted_of_resumed hcall hten hpri hid ?_ hoff⟩
  have hbou : snapshot.bound = digest (.filters filters) := by simpa using refuse_eq_ok hfil
  exact hbou

variable {sessionId : String}

theorem resumeSessionTree_granted {snapshot : SessionTreeSnapshot}
    (h : resumeSessionTree call sessionId state token = .ok (snapshot, offset)) (hcall : call.cursor = some token) :
    state.sessionTrees.get? token.cursor.s = some snapshot ∧ (token.cursor.s = snapshot.snapshotId →
      Granted (.descendants sessionId) call (frozenSessionTree snapshot) offset) := by
  obtain ⟨cursor, hcur, h⟩ := bind_eq_ok h
  obtain ⟨_, _, h⟩ := bind_eq_ok h
  obtain ⟨found, hfound, h⟩ := bind_eq_ok h
  obtain ⟨_, hbou, h⟩ := bind_eq_ok h
  obtain ⟨at_, hoff, h⟩ := bind_eq_ok h
  obtain ⟨_, _, h⟩ := bind_eq_ok h
  cases h
  cases decode_eq_ok hcur
  obtain ⟨hacc, hses⟩ := Bool.or_eq_false_iff.mp (refuse_eq_ok hbou)
  obtain ⟨hten, hpri⟩ := otherAccount_eq_false hacc
  refine ⟨found_eq_ok hfound, fun hid => granted_of_resumed hcall hten hpri hid ?_ hoff⟩
  have hsame : snapshot.bound = sessionId := by simpa using hses
  exact hsame

theorem resumeRelatedRuns_granted {includeParam : Option Bool} {snapshot : RelatedRunsSnapshot}
    (h : resumeRelatedRuns call sessionId includeParam state token = .ok (snapshot, offset))
    (hcall : call.cursor = some token) :
    state.relatedRuns.get? token.cursor.s = some snapshot ∧ (token.cursor.s = snapshot.snapshotId →
      Granted (.relatedRuns sessionId includeParam) call (frozenRelatedRuns snapshot) offset) := by
  obtain ⟨cursor, hcur, h⟩ := bind_eq_ok h
  obtain ⟨_, _, h⟩ := bind_eq_ok h
  obtain ⟨_, hask, h⟩ := bind_eq_ok h
  obtain ⟨found, hfound, h⟩ := bind_eq_ok h
  obtain ⟨_, _, h⟩ := bind_eq_ok h
  obtain ⟨_, hbou, h⟩ := bind_eq_ok h
  obtain ⟨at_, hoff, h⟩ := bind_eq_ok h
  obtain ⟨_, _, h⟩ := bind_eq_ok h
  cases h
  cases decode_eq_ok hcur
  obtain ⟨hbou, hinc⟩ := Bool.or_eq_false_iff.mp (refuse_eq_ok hbou)
  obtain ⟨hacc, hses⟩ := Bool.or_eq_false_iff.mp hbou
  obtain ⟨hten, hpri⟩ := otherAccount_eq_false hacc
  refine ⟨found_eq_ok hfound, fun hid => granted_of_resumed hcall hten hpri hid ?_ hoff⟩
  have hsame : snapshot.bound.1 = sessionId := by simpa using hses
  have hinc : snapshot.bound.2 = token.cursor.d.getD false := by simpa using hinc
  refine ⟨hsame, ?_⟩
  intro asked hmem
  have hrefu := refuse_eq_ok hask
  rw [Option.mem_def.mp hmem, Option.any_some] at hrefu
  have heq : asked = token.cursor.d.getD false := by simpa using hrefu
  exact heq.trans hinc.symm

theorem resumeSearch_granted
    (h : resumeSearch call query state token = .ok (snapshot, offset)) (hcall : call.cursor = some token) :
    state.search.get? token.cursor.s = some snapshot ∧ (token.cursor.s = snapshot.snapshotId →
      Granted (.search query) call (frozenSearch snapshot) offset) := by
  obtain ⟨cursor, hcur, h⟩ := bind_eq_ok h
  obtain ⟨found, hfound, h⟩ := bind_eq_ok h
  obtain ⟨_, _, h⟩ := bind_eq_ok h
  obtain ⟨_, hacc, h⟩ := bind_eq_ok h
  obtain ⟨_, hque, h⟩ := bind_eq_ok h
  obtain ⟨_, _, h⟩ := bind_eq_ok h
  obtain ⟨at_, hoff, h⟩ := bind_eq_ok h
  cases h
  cases decode_eq_ok hcur
  obtain ⟨hten, hpri⟩ := otherAccount_eq_false (refuse_eq_ok hacc)
  refine ⟨found_eq_ok hfound, fun hid => granted_of_resumed hcall hten hpri hid ?_ hoff⟩
  have hbou : snapshot.bound.requestDigest = digest (.request (normalized query)) := by
    simpa using refuse_eq_ok hque
  exact hbou

structure Opened (request : Request) (call : Call) (drawn : Nat) (frozen : Frozen) : Prop where
  id : frozen.id = Platform.tokenHex drawn
  granted : call.cursor = none → Granted request call frozen 0
  distinct : (frozen.entries.map Entry.key).Nodup

theorem openHistory_opened {filters : HistoryFilters} {snapshot : HistorySnapshot}
    (h : openHistory drawn call filters = .ok snapshot) :
    Opened (.history filters) call drawn (frozenHistory snapshot) := by
  obtain ⟨rows, hrows, h⟩ := bind_eq_ok h
  cases h
  refine ⟨rfl, fun hcall => granted_of_opened hcall rfl rfl rfl, ?_⟩
  change (((rows.map ActivityRow.activityId).map Entry.activity).map Entry.key).Nodup
  rw [map_map, map_map]
  exact nodup_map_of_imp (activityRows_nodup (found_eq_ok hrows)) fun _ _ hkey => Key.activity.inj hkey

theorem openSessionTree_opened {snapshot : SessionTreeSnapshot}
    (h : openSessionTree drawn call sessionId = .ok snapshot) :
    Opened (.descendants sessionId) call drawn (frozenSessionTree snapshot) := by
  obtain ⟨rows, hrows, h⟩ := bind_eq_ok h
  cases h
  refine ⟨rfl, fun hcall => granted_of_opened hcall rfl rfl rfl, ?_⟩
  change ((rows.map Entry.session).map Entry.key).Nodup
  rw [map_map]
  exact nodup_map_of_imp (sessionTreeCandidates_nodup (found_eq_ok hrows)) fun _ _ hkey => Key.session.inj hkey

theorem openRelatedRuns_opened {includeParam : Option Bool} {snapshot : RelatedRunsSnapshot}
    (h : openRelatedRuns drawn call sessionId (includeParam.getD false) = .ok snapshot) :
    Opened (.relatedRuns sessionId includeParam) call drawn (frozenRelatedRuns snapshot) := by
  obtain ⟨descendants, _, h⟩ := bind_eq_ok h
  obtain ⟨rows, hrows, h⟩ := bind_eq_ok h
  cases h
  refine ⟨rfl, fun hcall => granted_of_opened hcall rfl rfl ⟨rfl, ?_⟩, ?_⟩
  · intro asked hmem
    rw [Option.mem_def.mp hmem]
    rfl
  change ((rows.map Entry.run).map Entry.key).Nodup
  rw [map_map]
  exact nodup_map_of_imp (relatedRunCandidates_nodup (found_eq_ok hrows)) fun _ _ hkey => Key.run.inj hkey

theorem authorizedRows_nodup (hdoc : Documented) {rows : List SearchRow}
    (h : authorizedRows call query = .ok rows) : (rows.map SearchRow.chunkId).Nodup := by
  rw [authorizedRows] at h
  split at h
  · cases h
  cases h
  apply Nodup.sublist (Sublist.map _ ?_)
    (hdoc.chunks call.arrival.index query call.access (grantedSearchResources call.arrival.tables call.access))
  refine (Sublist.map Prod.fst filter_sublist).trans ?_
  rw [map_fst_zip (by rw [hdoc.batched, length_map])]

theorem openSearch_opened (hdoc : Documented)
    (h : openSearch drawn call query = .ok snapshot) : Opened (.search query) call drawn (frozenSearch snapshot) := by
  obtain ⟨rows, hrows, h⟩ := bind_eq_ok h
  cases h
  refine ⟨rfl, fun hcall => granted_of_opened hcall rfl rfl rfl, ?_⟩
  change (((grouped query.grouping rows).map Entry.result).map Entry.key).Nodup
  rw [map_map]
  cases query.grouping with
  | root => exact nodup_map_of_imp (grouped_nodup rows) fun _ _ hkey => (Key.result.inj hkey).1
  | «match» =>
    rw [grouped, map_map]
    exact nodup_map_of_imp (authorizedRows_nodup hdoc hrows) fun _ _ hkey => (Key.result.inj hkey).2

end Fitting

end OpenAgent.Gateway.Operational.Snapshots
