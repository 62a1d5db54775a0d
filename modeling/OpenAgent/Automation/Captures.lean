import OpenAgent.Automation.Management

namespace OpenAgent.Automation

open Py List Definition Work Database

variable {grant : Grant} {env : Environment} {db s t : Database} {kind other : Kind} {identifier name : String}
  {definition : Definition} {context : ExecutionContext}

section Rows

def grantsOf (db : Database) (kind : Kind) (identifier : String) : List Grant :=
  db.grants.filter fun grant => grant.concerns kind identifier

def liveGrants (db : Database) (kind : Kind) (identifier : String) : List Grant :=
  (grantsOf db kind identifier).filter fun grant => !grant.revoked

def judged [Foundations] (kind : Kind) (definition : Definition) : Option String × Json :=
  (definition.digest kind, Definition.get definition "enabled")

def view [Foundations] (db : Database) (kind : Kind) (identifier : String) : Option (Option String × Json) :=
  (db.definition kind identifier).map (judged kind)

def StaysRevoked (s t : Database) : Prop :=
  ∀ grant ∈ s.grants, ∃ kept ∈ t.grants, kept.id = grant.id ∧ (grant.revoked → kept.revoked)

theorem StaysRevoked.refl (s : Database) : StaysRevoked s s := fun grant h => ⟨grant, h, rfl, id⟩

theorem StaysRevoked.trans {u : Database} (h : StaysRevoked s t) (k : StaysRevoked t u) : StaysRevoked s u := by
  intro grant hgra
  obtain ⟨kept, hkept, hid, hr⟩ := h grant hgra
  obtain ⟨last, hlast, hid', hr'⟩ := k kept hkept
  exact ⟨last, hlast, hid'.trans hid, hr' ∘ hr⟩

theorem StaysRevoked.of_grants (h : t.grants = s.grants) : StaysRevoked s t :=
  fun grant hgra => ⟨grant, h ▸ hgra, rfl, id⟩

structure Keeps (s t : Database) : Prop where
  store : t.store = s.store
  revoked : StaysRevoked s t

theorem Keeps.refl (s : Database) : Keeps s s := ⟨rfl, .refl s⟩

theorem Keeps.trans (s t u : Database) (h : Keeps s t) (k : Keeps t u) : Keeps s u :=
  ⟨k.store.trans h.store, h.revoked.trans k.revoked⟩

theorem grant_eq_of_id {a b : Grant} (ha : a ∈ db.grants) (hb : b ∈ db.grants) (h : a.id = b.id) : a = b :=
  inj_on_of_nodup_map db.distinct ha hb h

theorem staysRevoked_revoke : StaysRevoked s (s.revoke kind identifier) := by
  intro grant hgra
  refine ⟨_, mem_map_of_mem hgra, ?_⟩
  split
  · exact ⟨rfl, fun _ => rfl⟩
  · exact ⟨rfl, id⟩

theorem insert_grants (h : s.insert grant = some t) : t.store = s.store ∧ t.grants = s.grants ++ [grant] := by
  rw [Database.insert] at h
  split at h
  · cases h
  · cases h
    exact ⟨rfl, rfl⟩

theorem staysRevoked_insert (h : s.insert grant = some t) : StaysRevoked s t := by
  intro kept hkept
  rw [(insert_grants h).2]
  exact ⟨kept, mem_append_left _ hkept, rfl, id⟩

theorem concerns_iff : grant.concerns kind identifier = true ↔ grant.kind = kind ∧ grant.definitionId = identifier := by
  rw [Grant.concerns, Bool.and_eq_true, decide_eq_true_iff, decide_eq_true_iff]

theorem grantsOf_revoke_other (h : ¬(other = kind ∧ name = identifier)) :
    grantsOf (s.revoke kind identifier) other name = grantsOf s other name := by
  show List.filter _ (List.map _ s.grants) = List.filter _ s.grants
  rw [filter_map]
  have hsame : ((fun grant : Grant => grant.concerns other name) ∘ fun grant : Grant =>
      if grant.concerns kind identifier then { grant with revoked := true } else grant) =
        fun grant => grant.concerns other name := by
    funext grant
    rw [Function.comp_apply]
    split <;> rfl
  rw [hsame]
  refine (map_congr_left fun grant hgra => ?_).trans (map_id _)
  have hcon := concerns_iff.mp (mem_filter.mp hgra).2
  rw [if_neg, id_eq]
  intro hthis
  obtain ⟨hkind, hname⟩ := concerns_iff.mp hthis
  exact h ⟨hcon.1 ▸ hkind, hcon.2 ▸ hname⟩

theorem liveGrants_revoke : liveGrants (s.revoke kind identifier) kind identifier = [] := by
  rw [liveGrants, filter_eq_nil_iff]
  intro grant hgra
  obtain ⟨hmem, hcon⟩ := mem_filter.mp hgra
  obtain ⟨old, _, hold⟩ := mem_map.mp hmem
  split at hold
  · rw [← hold]
    simp
  · exact absurd (hold ▸ hcon) ‹_›

theorem grantsOf_append_other (hgra : t.grants = s.grants ++ [grant])
    (h : ¬grant.concerns kind identifier) : grantsOf t kind identifier = grantsOf s kind identifier := by
  rw [grantsOf, hgra, filter_append, grantsOf]
  simp [h]

theorem liveGrants_append (hgra : t.grants = s.grants ++ [grant]) (h : grant.concerns kind identifier)
    (hlive : grant.revoked = false) : liveGrants t kind identifier = liveGrants s kind identifier ++ [grant] := by
  rw [liveGrants, liveGrants, grantsOf, hgra, filter_append, filter_append, grantsOf]
  simp [h, hlive]

theorem liveGrants_eq (h : grantsOf t kind identifier = grantsOf s kind identifier) :
    liveGrants t kind identifier = liveGrants s kind identifier := by
  rw [liveGrants, liveGrants, h]

end Rows

variable {operation : Store → Store × Except Error Json} {result : Option String}

section Parts

/-- What any part of an operation leaves alone: the store, and the grants of other definitions. -/
structure Spares (s t : Database) (kind : Kind) (identifier : String) : Prop extends Keeps s t where
  others : ∀ other name, ¬(other = kind ∧ name = identifier) → grantsOf t other name = grantsOf s other name

theorem Spares.refl (s : Database) : Spares s s kind identifier := ⟨.refl s, fun _ _ _ => rfl⟩

theorem Spares.trans {u : Database} (h : Spares s t kind identifier) (k : Spares t u kind identifier) :
    Spares s u kind identifier :=
  ⟨Keeps.trans s t u h.toKeeps k.toKeeps, fun other name hne => (k.others other name hne).trans (h.others other name hne)⟩

@[simp] theorem reach_ok {point : Point} {x : Unit} : reach env point s = .ok (x, t) ↔ env.fails point = none ∧ s = t := by
  rw [reach]
  cases env.fails point with
  | none => simp
  | some e => simp

@[simp] theorem requireAuthorized_ok {action : String} {resource : ResourceRef} {x : Unit} :
    requireAuthorized env context action resource s = .ok (x, t) ↔
      env.authorized context action resource = true ∧ s = t := by
  rw [requireAuthorized, raiseUnless_ok]

@[simp] theorem definitionOf_ok : definitionOf kind identifier s = .ok (definition, t) ↔
    s.definition kind identifier = some definition ∧ s = t := by
  rw [definitionOf]
  simp [and_comm]

theorem revoke_ok {x : Unit} (h : revoke env kind identifier context s = .ok (x, t)) : t = s.revoke kind identifier := by
  simp only [revoke, bind_ok, requireAuthorized_ok, reach_ok, modify_ok] at h
  obtain ⟨_, _, ⟨_, rfl⟩, _, _, ⟨_, rfl⟩, rfl⟩ := h
  rfl

theorem spares_revoke : Spares s (s.revoke kind identifier) kind identifier :=
  ⟨⟨rfl, staysRevoked_revoke⟩, fun _ _ h => grantsOf_revoke_other h⟩

theorem spares_insert (h : s.insert grant = some t) : Spares s t grant.kind grant.definitionId := by
  obtain ⟨hsto, hgra⟩ := insert_grants h
  refine ⟨⟨hsto, staysRevoked_insert h⟩, fun other name hne => grantsOf_append_other hgra ?_⟩
  intro hcon
  obtain ⟨hkind, hname⟩ := concerns_iff.mp hcon
  exact hne ⟨hkind.symm, hname.symm⟩

theorem replaceGrant_ok {digest : String} (h : replaceGrant env kind definition digest context s = .ok (result, t)) :
    (s.revoke kind definition.id).insert (newGrant env kind definition digest context) = some t := by
  simp only [replaceGrant, bind_ok, reach_ok, modify_ok, get_ok, ofOption_ok, pure_ok] at h
  obtain ⟨_, _, ⟨_, rfl⟩, _, _, rfl, _, _, ⟨_, rfl⟩, _, _, ⟨rfl, rfl⟩, inserted, _, ⟨hins, rfl⟩, _, _, hset, _, rfl⟩ := h
  cases hset
  exact hins

theorem retireGrant_ok (h : retireGrant env kind definition context s = .ok (result, t)) :
    t = s.revoke kind definition.id := by
  simp only [retireGrant, bind_ok, pure_ok] at h
  obtain ⟨_, u, hrev, _, rfl⟩ := h
  exact revoke_ok hrev

theorem gone_ok {gone : List Definition} {results : List Unit} (hdis : (gone.map Definition.id).Nodup)
    (h : Work.each (fun row => revoke env kind (Definition.id row) context) gone s = .ok (results, t)) :
    Keeps s t ∧ (∀ row ∈ gone, liveGrants t kind (Definition.id row) = []) ∧
      ∀ other name, (∀ row ∈ gone, ¬(other = kind ∧ name = Definition.id row)) →
        grantsOf t other name = grantsOf s other name := by
  refine ⟨?_, ?_, ?_⟩
  · refine each_keeps Keeps.refl Keeps.trans (fun row _ u _ v hrow => ?_) h
    cases revoke_ok hrow
    exact spares_revoke.toKeeps
  · refine each_establishes (I := fun _ => True) (Q := fun row t => liveGrants t kind (Definition.id row) = [])
      hdis (fun _ _ _ _ _ _ _ => trivial) (fun row _ u _ v _ hrow => ?_)
      (fun row row' hne u _ v hlive hrow => ?_) trivial h
    · cases revoke_ok hrow
      exact liveGrants_revoke
    · cases revoke_ok hrow
      rw [← hlive]
      exact liveGrants_eq (grantsOf_revoke_other fun hboth => hne hboth.2)
  intro other name hnot
  refine each_keeps (R := fun s t => grantsOf t other name = grantsOf s other name) (fun _ => rfl)
    (fun _ _ _ h k => k.trans h) (fun row hmem u _ v hrow => ?_) h
  cases revoke_ok hrow
  exact grantsOf_revoke_other (hnot row hmem)

def Confined (kind : Kind) (operation : Store → Store × Except Error Json) : Prop :=
  ∀ store other, other ≠ kind → (operation store).1.tables other = store.tables other

theorem rowsOf_ok {point : Point} {table : Table} (h : rowsOf env point kind s = .ok (table, t)) :
    table = s.store.tables kind ∧ s = t := by
  simp only [rowsOf, bind_ok, reach_ok, get_ok, pure_ok] at h
  obtain ⟨_, _, ⟨_, rfl⟩, _, _, ⟨rfl, rfl⟩, htab, hsame⟩ := h
  exact ⟨htab.symm, hsame⟩

theorem apply_ok {result : Json} (h : apply operation s = .ok (result, t)) :
    t.store = (operation s.store).1 ∧ t.grants = s.grants := by
  rw [apply] at h
  split at h
  · rename_i heq
    cases h
    rw [heq]
    exact ⟨rfl, rfl⟩
  · cases h

end Parts

section Captures

variable [Foundations]

def Granted (db : Database) (kind : Kind) (definition : Definition) (principal : PrincipalRef) : Prop :=
  if definition.enabled then
    ∃ grant, liveGrants db kind definition.id = [grant] ∧ some grant.digest = definition.digest kind ∧
      grant.principal = principal
  else liveGrants db kind definition.id = []

@[simp] theorem digestOf_ok {digest : String} :
    digestOf kind definition s = .ok (digest, t) ↔ definition.digest kind = some digest ∧ s = t := by
  rw [digestOf, ofOption_ok]

theorem capture_ok (h : capture env kind definition context s = .ok (result, t)) :
    Spares s t kind definition.id ∧ Granted t kind definition context.initiator := by
  simp only [capture, bind_ok, requireAuthorized_ok, raiseUnless_ok, definitionOf_ok, digestOf_ok] at h
  obtain ⟨_, _, ⟨_, rfl⟩, _, _, ⟨_, rfl⟩, current, _, ⟨_, rfl⟩, digest, _, ⟨hdig, rfl⟩, found, _, ⟨_, rfl⟩, _, _,
    ⟨_, rfl⟩, hbra⟩ := h
  split at hbra
  · rename_i hena
    have hins := replaceGrant_ok hbra
    refine ⟨spares_revoke.trans (spares_insert hins), ?_⟩
    rw [Granted, if_pos hena]
    refine ⟨newGrant env kind definition digest context, ?_, hdig.symm, rfl⟩
    have hcon : (newGrant env kind definition digest context).concerns kind definition.id :=
      concerns_iff.mpr ⟨rfl, rfl⟩
    rw [liveGrants_append (insert_grants hins).2 hcon rfl, liveGrants_revoke, nil_append]
  rename_i hdis
  have hrev := retireGrant_ok hbra
  subst hrev
  refine ⟨spares_revoke, ?_⟩
  rw [Granted, if_neg hdis]
  exact liveGrants_revoke

theorem granted_of_grantsOf {principal : PrincipalRef} (h : grantsOf t kind definition.id = grantsOf s kind definition.id)
    (hs : Granted s kind definition principal) : Granted t kind definition principal := by
  rw [Granted] at hs ⊢
  rw [liveGrants_eq h]
  exact hs

end Captures

section Tables

variable {table : Table} {row : Definition}

theorem Table.id_of_find (h : table.find identifier = some row) : Definition.id row = identifier := by
  simpa using List.find?_some h

theorem Table.find_of_mem (h : row ∈ table.rows) : table.find (Definition.id row) = some row := by
  cases hf : table.find (id row) with
  | none => exact absurd (List.find?_eq_none.mp hf row h) (by simp)
  | some found =>
    exact congrArg some (inj_on_of_nodup_map table.distinct (mem_of_find?_eq_some hf) h (id_of_find hf))

theorem Table.mem_of_find (h : table.find identifier = some row) : row ∈ table.rows := mem_of_find?_eq_some h

theorem Table.enabled_of_find (h : table.find identifier = some row) :
    Definition.enabled row = (Definition.get row "enabled").truthy := by
  obtain ⟨value, hval⟩ := Option.isSome_iff_exists.mp (table.switched row (mem_of_find h))
  rw [Definition.enabled, Definition.get, hval]
  rfl

theorem Table.find_update {f : Definition → Definition} (hf : Updates f) : (table.update identifier f hf).find name =
      (table.find name).map fun row => if Definition.id row = identifier then f row else row := by
  show List.find? _ (List.map _ table.rows) = _
  rw [List.find?_map]
  congr 2
  funext row
  rw [Function.comp_apply]
  split
  · rw [id_of_get (hf.id row)]
  · rfl

theorem filter_set {α : Type} (p : String × α → Bool) {key : String} {value : α} (h : ∀ value, p (key, value) = false)
    (l : List (String × α)) : (Assoc.set l key value).filter p = l.filter p := by
  rw [Assoc.set]
  split
  · clear ‹key ∈ _›
    induction l with
    | nil => rfl
    | cons entry l ih =>
      obtain ⟨k, v⟩ := entry
      by_cases hk : k = key
      · subst hk
        simp [h, ih]
      · simp [hk, ih, filter_cons]
  · rw [filter_append]
    simp [h]

theorem behaviour_set {key : String} {value : Json} (h : operational.contains key = true) :
    Definition.behaviour (Assoc.set row key value) = Definition.behaviour row :=
  filter_set _ (fun _ => by rw [h, Bool.not_true, Bool.false_and]) row

end Tables

section Cursors

variable [Foundations] {row : Definition}

theorem digest_moveCursor : (moveCursor env definition row).digest kind = row.digest kind := by
  have hide : (moveCursor env definition row).identifier = row.identifier := by
    rw [Definition.identifier, Definition.identifier, Definition.get, Definition.get,
      (moveCursor_updates env definition).id]
  rw [digest, digest, hide, moveCursor, behaviour_set (by decide), behaviour_set (by decide)]

theorem view_moveTask (db : Database) :
    view { db with store := db.store.moveTask env definition } other name = view db other name := by
  by_cases hoth : other = .task
  · subst hoth
    have htab : (db.store.moveTask env definition).tables .task =
        (db.store.tables .task).update definition.id (moveCursor env definition) (moveCursor_updates env definition) := by
      simp [Store.moveTask]
    rw [view, view, Database.definition, Database.definition, htab, Table.find_update, Option.map_map]
    congr 1
    funext row
    rw [Function.comp_apply]
    split
    · rw [judged, digest_moveCursor, Definition.get, moveCursor_get? env (by decide) (by decide)]
      rfl
    · rfl
  have htab : (db.store.moveTask env definition).tables other = db.store.tables other := by
    simp [Store.moveTask, hoth]
  rw [view, view, Database.definition, Database.definition, htab]

/-- What an approval does besides its capture touches neither grants nor what definitions are judged by. -/
structure Inert (s t : Database) : Prop where
  grants : t.grants = s.grants
  view : ∀ kind name, view t kind name = view s kind name

theorem Inert.refl (s : Database) : Inert s s := ⟨rfl, fun _ _ => rfl⟩

theorem Inert.trans {u : Database} (h : Inert s t) (k : Inert t u) : Inert s u :=
  ⟨k.grants.trans h.grants, fun kind name => (k.view kind name).trans (h.view kind name)⟩

theorem overdue_ok {expression nextRun : Json} {due : Bool} (h : overdue env expression nextRun s = .ok (due, t)) :
    t = s := by
  rw [overdue] at h
  split at h
  · exact (pure_ok.mp h).2.symm
  split at h
  · exact (pure_ok.mp h).2.symm
  · exact (ofOption_ok.mp h).2.symm

theorem moveIf_ok {due : Bool} {move : Store → Store} {n : Nat} (hmove : ∀ db : Database, Inert db { db with store := move db.store })
    (h : moveIf due move s = .ok (n, t)) : Inert s t := by
  rw [moveIf] at h
  split at h
  · simp only [bind_ok, modify_ok, pure_ok] at h
    obtain ⟨_, _, rfl, _, rfl⟩ := h
    exact hmove s
  · rw [pure_ok] at h
    exact h.2 ▸ Inert.refl s

theorem reconcileSchedule_ok {schedule : WorkflowSchedule} {n : Nat} (h : reconcileSchedule env schedule s = .ok (n, t)) :
    Inert s t := by
  simp only [reconcileSchedule, bind_ok] at h
  obtain ⟨due, u, hdue, hmove⟩ := h
  cases overdue_ok hdue
  exact moveIf_ok (fun _ => ⟨rfl, fun _ _ => rfl⟩) hmove

theorem reconcile_ok {n : Nat} (h : reconcileScheduleCursor env kind definition s = .ok (n, t)) : Inert s t := by
  simp only [reconcileScheduleCursor, bind_ok, reach_ok] at h
  obtain ⟨_, _, ⟨_, rfl⟩, h⟩ := h
  cases kind with
  | task =>
    simp only [reconcileTask] at h
    split at h
    · obtain ⟨due, u, hdue, hmove⟩ := bind_ok.mp h
      cases overdue_ok hdue
      exact moveIf_ok (fun db => ⟨rfl, fun _ _ => view_moveTask db⟩) hmove
    · exact (pure_ok.mp h).2 ▸ Inert.refl s
  | workflow =>
    simp only [reconcileWorkflow, bind_ok, get_ok, pure_ok] at h
    obtain ⟨_, _, ⟨rfl, rfl⟩, rounds, _, hrou, _, rfl⟩ := h
    exact each_keeps Inert.refl (fun _ _ _ => Inert.trans) (fun _ _ _ _ _ hroun => reconcileSchedule_ok hroun) hrou
  | event => exact (pure_ok.mp h).2 ▸ Inert.refl s

end Cursors

section Changes

variable [Foundations] {before : Table}

def Settled (db : Database) (kind : Kind) (name : String) (principal : PrincipalRef) : Prop :=
  match db.definition kind name with
  | none => liveGrants db kind name = []
  | some definition => Granted db kind definition principal

theorem captureIf_ok {changed : Bool} (h : captureIf env kind definition context changed s = .ok (result, t)) :
    Spares s t kind definition.id ∧ if changed then Granted t kind definition context.initiator else t = s := by
  cases changed with
  | true => exact capture_ok h
  | false =>
    cases (pure_ok.mp h).2
    exact ⟨Spares.refl s, rfl⟩

theorem captureChange_ok (h : captureChange env kind before context definition s = .ok (result, t)) :
    Spares s t kind definition.id ∧ ((before.find definition.id).map (judged kind) ≠ some (judged kind definition) →
        Granted t kind definition context.initiator) ∧
      ((before.find definition.id).map (judged kind) = some (judged kind definition) → t = s) := by
  rw [captureChange] at h
  cases hfind : before.find definition.id with
  | none =>
    rw [hfind] at h
    obtain ⟨hspa, hgra⟩ := capture_ok h
    exact ⟨hspa, fun _ => hgra, fun hsame => by cases hsame⟩
  | some old =>
    rw [hfind] at h
    simp only [bind_ok, digestOf_ok] at h
    obtain ⟨oldDigest, _, ⟨hold, rfl⟩, digest, _, ⟨hdig, rfl⟩, h⟩ := h
    obtain ⟨hspa, hbra⟩ := captureIf_ok h
    have hsame : (some old).map (judged kind) = some (judged kind definition) ↔
        ¬(decide (oldDigest ≠ digest) || decide (get old "enabled" ≠ get definition "enabled")) := by
      simp [judged, hold, hdig]
    refine ⟨hspa, fun hne => ?_, fun heq => ?_⟩
    · rw [ne_eq, hsame, not_not] at hne
      rw [if_pos hne] at hbra
      exact hbra
    · rw [if_neg (hsame.mp heq)] at hbra
      exact hbra

theorem kept_ok {rows : List Definition} {results : List (Option String)} (hdis : (rows.map Definition.id).Nodup)
    (h : Work.each (captureChange env kind before context) rows s = .ok (results, t)) :
    Keeps s t ∧ (∀ row ∈ rows, (before.find (Definition.id row)).map (judged kind) ≠ some (judged kind row) →
        Granted t kind row context.initiator) ∧
      ∀ other name, (∀ row ∈ rows, other = kind → name = Definition.id row →
        (before.find (Definition.id row)).map (judged kind) = some (judged kind row)) →
          grantsOf t other name = grantsOf s other name := by
  refine ⟨?_, ?_, ?_⟩
  · exact each_keeps Keeps.refl Keeps.trans (fun _ _ _ _ _ hrow => (captureChange_ok hrow).1.toKeeps) h
  · refine each_establishes (I := fun _ => True)
      (Q := fun row t => (before.find (Definition.id row)).map (judged kind) ≠ some (judged kind row) →
        Granted t kind row context.initiator)
      hdis (fun _ _ _ _ _ _ _ => trivial) (fun row _ u _ v _ hrow => (captureChange_ok hrow).2.1)
      (fun row row' hne u _ v hgra hrow hcha => ?_) trivial h
    exact granted_of_grantsOf ((captureChange_ok hrow).1.others kind _ fun hboth => hne hboth.2) (hgra hcha)
  intro other name hsame
  refine each_keeps (R := fun s t => grantsOf t other name = grantsOf s other name) (fun _ => rfl)
    (fun _ _ _ h k => k.trans h) (fun row hmem u _ v hrow => ?_) h
  by_cases hthis : other = kind ∧ name = Definition.id row
  · rw [(captureChange_ok hrow).2.2 (hsame row hmem hthis.1 hthis.2)]
  · exact (captureChange_ok hrow).1.others other name hthis

/-- What any operation leaves alone, besides the definitions it names. -/
structure Preserves (named : Kind → String → Prop) (s t : Database) : Prop where
  untouched : ∀ kind name, ¬named kind name → view t kind name = view s kind name →
    grantsOf t kind name = grantsOf s kind name
  revoked : StaysRevoked s t

theorem Preserves.of_grants {named : Kind → String → Prop} (h : t.grants = s.grants) : Preserves named s t where
  untouched kind name _ _ := by rw [grantsOf, grantsOf, h]
  revoked := .of_grants h

/-- What a successful operation on behalf of a principal does to the grants, those it names among them. -/
structure Effect (named : Kind → String → Prop) (principal : PrincipalRef) (s t : Database) : Prop
    extends Preserves named s t where
  settled : ∀ kind name, named kind name ∨ view t kind name ≠ view s kind name → Settled t kind name principal

theorem view_eq_find {table : Table} (h : s.store.tables kind = table) :
    view s kind name = (table.find name).map (judged kind) := by
  rw [view, definition, h]

theorem captureChanges_ok {x : Unit} (h : captureChanges env kind before context s = .ok (x, t)) : Keeps s t ∧
      (∀ name, (before.find name).map (judged kind) ≠ view s kind name → Settled t kind name context.initiator) ∧
      ∀ other name, (other = kind → (before.find name).map (judged kind) = view s kind name) →
        grantsOf t other name = grantsOf s other name := by
  simp only [captureChanges, bind_ok, pure_ok] at h
  obtain ⟨after, v, hrows, _, u, hgone, _, w, hkept, _, hend⟩ := h
  obtain ⟨hafter, hv⟩ := rowsOf_ok hrows
  subst hv hend
  have hdis : ((before.rows.filter fun row => (after.find (Definition.id row)).isNone).map Definition.id).Nodup :=
    before.distinct.sublist (filter_sublist.map _)
  obtain ⟨hkee, hnone, hoth⟩ := gone_ok hdis hgone
  obtain ⟨hkee', hcha, hsame⟩ := kept_ok after.distinct hkept
  have hview : ∀ name, view s kind name = (after.find name).map (judged kind) := fun name => view_eq_find hafter.symm
  have hdef : ∀ name, definition w kind name = after.find name := fun name => by
    rw [definition, hkee'.store, hkee.store, hafter]
  refine ⟨Keeps.trans _ _ _ hkee hkee', fun name hne => ?_, fun other name hsame' => ?_⟩
  · rw [Settled, hdef]
    cases hfind : after.find name with
    | some row =>
      have hid := Table.id_of_find hfind
      refine hcha row (Table.mem_of_find hfind) ?_
      rw [hview, hfind] at hne
      rw [hid]
      exact hne
    | none =>
      rw [hview, hfind] at hne
      cases hbef : before.find name with
      | none => simp [hbef] at hne
      | some row =>
        have hid := Table.id_of_find hbef
        have hmem : row ∈ before.rows.filter fun row => (after.find (Definition.id row)).isNone :=
          mem_filter.mpr ⟨Table.mem_of_find hbef, by rw [hid, hfind]; rfl⟩
        have hlive := hnone row hmem
        rw [hid] at hlive
        rw [← hlive]
        refine liveGrants_eq (hsame kind name fun row' hmem' _ hname => ?_)
        have hfound := Table.find_of_mem hmem'
        rw [← hname, hfind] at hfound
        cases hfound
  · have hthe : ∀ row ∈ after.rows, other = kind → name = Definition.id row →
        (before.find (Definition.id row)).map (judged kind) = some (judged kind row) := by
      intro row hmem hkind hname
      rw [← hname, hsame' hkind, hview, hname, Table.find_of_mem hmem]
      rfl
    rw [hsame other name hthe]
    refine hoth other name fun row hmem hthis => ?_
    obtain ⟨hmem, hisN⟩ := mem_filter.mp hmem
    have hequ := hsame' hthis.1
    rw [hview, hthis.2, Table.find_of_mem hmem, Option.isNone_iff_eq_none.mp hisN] at hequ
    cases hequ

variable {result : Json}

theorem manage_parts (h : manage env kind operation context s = .ok (result, t)) :
    ∃ u, u.store = (operation s.store).1 ∧ u.grants = s.grants ∧
      ∃ x, captureChanges env kind (s.store.tables kind) context u = .ok (x, t) := by
  simp only [manage, bind_ok, reach_ok, pure_ok] at h
  obtain ⟨before, r, hrows, _, u, hope, x, v, hcha, _, w, ⟨_, hw⟩, _, hend⟩ := h
  obtain ⟨rfl, hr⟩ := rowsOf_ok hrows
  subst hr hw hend
  exact ⟨u, (apply_ok hope).1, (apply_ok hope).2, x, hcha⟩

theorem view_of_store (h : t.store = s.store) (kind : Kind) (name : String) : view t kind name = view s kind name := by
  rw [view, view, definition, definition, h]

theorem manage_preserves
    (h : manage env kind operation context s = .ok (result, t)) : Preserves (fun _ _ => False) s t := by
  obtain ⟨u, _, hgra, x, hcha⟩ := manage_parts h
  obtain ⟨hkee, _, hunt⟩ := captureChanges_ok hcha
  refine ⟨fun other name _ hview => ?_, (StaysRevoked.of_grants hgra).trans hkee.revoked⟩
  rw [view_of_store hkee.store] at hview
  have hsame : grantsOf u other name = grantsOf s other name := by rw [grantsOf, grantsOf, hgra]
  rw [← hsame]
  refine hunt other name fun hkind => ?_
  subst hkind
  exact hview.symm

theorem manage_ok (hcon : Confined kind operation)
    (h : manage env kind operation context s = .ok (result, t)) :
    Effect (fun _ _ => False) context.initiator s t := by
  refine ⟨manage_preserves h, fun other name hcha => ?_⟩
  obtain ⟨u, hsto, _, x, hchan⟩ := manage_parts h
  obtain ⟨hkee, hset, _⟩ := captureChanges_ok hchan
  have hview := hcha.resolve_left not_false
  rw [view_of_store hkee.store] at hview
  by_cases hkind : other = kind
  · subst hkind
    exact hset name (Ne.symm hview)
  · refine absurd ?_ hview
    rw [view, view, definition, definition, hsto, hcon s.store other hkind]

end Changes

end OpenAgent.Automation
