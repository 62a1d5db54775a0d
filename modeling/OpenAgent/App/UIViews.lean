import Mathlib.Data.Prod.Lex
import OpenAgent.Lib.Json
import OpenAgent.Lib.Runs

namespace OpenAgent.App.Views

open Py

inductive DataStatus
  | ready
  | loading
  | empty
  | stale
  | error
deriving DecidableEq

structure UIDataEntry where
  value : Json
  version : Nat
  generation : Nat
  sequence : Nat
  updatedAt : Int
  status : DataStatus
  error : Option String := none
deriving DecidableEq

inductive Surface
  | inline
  | sidebar
deriving DecidableEq

inductive ViewStatus
  | active
  | stale
  | expired
  | deleted
  | error
deriving DecidableEq

/-- What the store reads of a `UIViewSummary`. -/
structure UIViewSummary where
  id : String
  surface : Surface
  revision : Nat
  status : ViewStatus

structure UIView extends UIViewSummary where
  data : Dict String UIDataEntry

/-- `id`, or `id@revision`. -/
abbrev CacheKey := String × Option Nat

structure ActiveSubscription where
  count : Nat
  subscriptionId : String
  viewId : String
  revision : Option Nat

inductive Request
  | loadView (viewId : String) (pinnedRevision : Option Nat)
  | reactivate (viewId : String)
  | loadList

structure ViewStore where
  accountId : String
  items : List UIViewSummary := []
  views : Dict CacheKey UIView := Dict.empty
  activeSubscriptions : Dict CacheKey ActiveSubscription := Dict.empty
  lastSequences : Dict (String × String × Nat) Nat := Dict.empty
  subscriptionNonce : Nat := 0
  requests : List Request := []

def dataEntryIsNewer (candidate current : UIDataEntry) : Bool :=
  if candidate.generation ≠ current.generation then decide (candidate.generation > current.generation)
  else if candidate.sequence ≠ current.sequence then decide (candidate.sequence > current.sequence)
  else if candidate.version ≠ current.version then decide (candidate.version > current.version)
  else decide (candidate.updatedAt ≥ current.updatedAt)

def preserveNewerData (candidate : UIView) (current : Option UIView) : UIView :=
  match current with
  | some c =>
    if c.id ≠ candidate.id ∨ c.revision ≠ candidate.revision then candidate
    else
      let kept := c.data.filter fun key entry => (candidate.data.get? key).all (dataEntryIsNewer entry ·)
      { candidate with data := candidate.data.update kept }
  | none => candidate

namespace ViewStore

variable (sortViews : List UIViewSummary → List UIViewSummary)

/-- `sortViews` is the sort by `compareSidebarViews`. -/
def mergeSummary (items : List UIViewSummary) (summary : UIViewSummary) : List UIViewSummary :=
  if summary.surface ≠ .sidebar then items
  else if items.any (fun item => item.id = summary.id && item.revision > summary.revision) then items
  else
    let kept := items.filter fun item => item.id ≠ summary.id
    sortViews (if summary.status ≠ .deleted then kept ++ [summary] else kept)

def subscriptionById (s : ViewStore) (subscriptionId : Option String) : Option ActiveSubscription :=
  subscriptionId.bind fun id => s.activeSubscriptions.values.find? fun sub => sub.subscriptionId = id

def subscriptionForView (s : ViewStore) (viewId : String) : Option ActiveSubscription :=
  s.activeSubscriptions.values.find? fun sub => sub.viewId = viewId && sub.revision.isNone

def request (s : ViewStore) (r : Request) : ViewStore := { s with requests := s.requests ++ [r] }

/-- `loadView`, up to its await. -/
def loadView (s : ViewStore) (viewId : String) (pinnedRevision : Option Nat) (force : Bool) : ViewStore :=
  if !force && (s.views.get? (viewId, pinnedRevision)).isSome then s else s.request (.loadView viewId pinnedRevision)

/-- `reconcileSubscriptionSnapshot`. -/
def reconcile (s : ViewStore) (viewId : String) (subscriptionId : Option String) : ViewStore :=
  s.loadView viewId ((s.subscriptionById subscriptionId).bind ActiveSubscription.revision) true

def markSequences (s : ViewStore) (subscriptionId : String) (data : Dict String UIDataEntry) : ViewStore :=
  { s with lastSequences := data.entries.foldl (fun d e =>
      if 0 < e.2.sequence then d.set (subscriptionId, e.1, e.2.generation) e.2.sequence else d) s.lastSequences }

def acceptSnapshot (s : ViewStore) (pinned : Option Nat) (view : UIView) : ViewStore :=
  let merged := preserveNewerData view (s.views.get? (view.id, pinned))
  let revisionKey := (view.id, some view.revision)
  { s with
    views := (s.views.set (view.id, pinned) merged).set revisionKey
      (preserveNewerData merged (s.views.get? revisionKey))
    items := if pinned.isSome then s.items else mergeSummary sortViews s.items merged.toUIViewSummary }

def mismatched (sub : ActiveSubscription) (view : UIView) : Bool :=
  view.id ≠ sub.viewId || sub.revision.any (fun r => view.revision ≠ r)

/-- A `ui_snapshot`. -/
def snapshot (s : ViewStore) (subscriptionId : Option String) (view : UIView) : ViewStore :=
  match s.subscriptionById subscriptionId with
  | some sub =>
    if mismatched sub view then { s with views := s.views.erase (sub.viewId, sub.revision) }
    else if sub.revision.isNone && (s.views.get? (view.id, none)).any (fun c => c.revision > view.revision) then s
    else (s.markSequences sub.subscriptionId view.data).acceptSnapshot sortViews sub.revision view
  | none =>
    if (s.views.get? (view.id, none)).any (fun c => c.revision > view.revision) then s
    else s.acceptSnapshot sortViews none view

def applyEntry (s : ViewStore) (viewId key : String) (entry : UIDataEntry) : ViewStore :=
  { s with views := s.views.mapEntries fun cacheKey current =>
      if cacheKey.1 = viewId ∧ (current.data.get? key).all (dataEntryIsNewer entry ·) then
        { current with data := current.data.set key entry }
      else current }

/-- A `ui_data`. -/
def dataFrame (s : ViewStore) (viewId : String) (subscriptionId : Option String) (key : String)
    (entry : UIDataEntry) : ViewStore :=
  let sequenceKey := (subscriptionId.getD viewId, key, entry.generation)
  let lastSequence := s.lastSequences.get? sequenceKey
  if entry.sequence ≠ 0 ∧ lastSequence.any (fun last => entry.sequence ≤ last) then s
  else
    let gap := entry.sequence ≠ 0 ∧ lastSequence.any (fun last => entry.sequence > last + 1)
    let s := if gap then s.reconcile viewId subscriptionId else s
    let s := if entry.sequence ≠ 0 then { s with lastSequences := s.lastSequences.set sequenceKey entry.sequence } else s
    s.applyEntry viewId key entry

/-- A `ui_view_changed`. -/
def viewChanged (s : ViewStore) (viewId : String) (revision : Nat) : ViewStore :=
  if (s.views.get? (viewId, none)).any (fun current => revision ≤ current.revision) then s
  else
    let s := if (s.subscriptionForView viewId).isSome then s.loadView viewId none true else s
    s.request .loadList

/-- A `ui_error`. -/
def viewError (s : ViewStore) (viewId subscriptionId : Option String) : ViewStore :=
  let subscription := s.subscriptionById subscriptionId
  match viewId.or (subscription.map ActiveSubscription.viewId) with
  | some viewId => { s with views := s.views.erase (viewId, subscription.bind ActiveSubscription.revision) }
  | none => s

/-- The answer to a `loadView`; `none` where it fails, or is no view. -/
def viewLoaded (s : ViewStore) (viewId : String) (pinnedRevision : Option Nat) (answer : Option UIView) : ViewStore :=
  match answer with
  | some normalized =>
    if normalized.id ≠ viewId ∨ pinnedRevision.any (fun r => normalized.revision ≠ r) then s
    else
      let current := s.views.get? (viewId, pinnedRevision)
      if pinnedRevision.isNone && current.any (fun c => c.revision > normalized.revision) then s
      else
        let view := preserveNewerData normalized current
        { s with
          views := s.views.set (viewId, pinnedRevision) view
          items := mergeSummary sortViews s.items view.toUIViewSummary }
  | none => s

/-- The answer to a `reactivate`. -/
def reactivated (s : ViewStore) (answer : Option UIView) : ViewStore :=
  match answer with
  | some view =>
    { s with
      views := s.views.set (view.id, none) view
      items := mergeSummary sortViews s.items view.toUIViewSummary }
  | none => s

def subscribe (s : ViewStore) (viewId : String) (revision : Option Nat) : ViewStore :=
  let s := match s.activeSubscriptions.get? (viewId, revision) with
    | some sub => { s with
        activeSubscriptions := s.activeSubscriptions.set (viewId, revision) { sub with count := sub.count + 1 } }
    | none =>
      let nonce := s.subscriptionNonce + 1
      { s with
        subscriptionNonce := nonce
        activeSubscriptions := s.activeSubscriptions.set (viewId, revision)
          { count := 1
            subscriptionId := "ui:" ++ s.accountId ++ ":" ++ viewId ++ ":" ++ (revision.elim "latest" toString) ++ ":" ++
              toString nonce
            viewId
            revision } }
  s.loadView viewId revision false

/-- The function that `subscribe` returns. -/
def dispose (s : ViewStore) (viewId : String) (revision : Option Nat) : ViewStore :=
  match s.activeSubscriptions.get? (viewId, revision) with
  | some sub =>
    if 1 < sub.count then
      { s with activeSubscriptions := s.activeSubscriptions.set (viewId, revision) { sub with count := sub.count - 1 } }
    else
      { s with
        activeSubscriptions := s.activeSubscriptions.erase (viewId, revision)
        lastSequences := s.lastSequences.filter fun k _ => k.1 ≠ sub.subscriptionId }
  | none => s

end ViewStore

inductive Event
  | subscribes (viewId : String) (revision : Option Nat)
  | disposes (viewId : String) (revision : Option Nat)
  /-- `loadView`, and the end of `invokeAction`. -/
  | loads (viewId : String) (pinnedRevision : Option Nat) (force : Bool)
  | reactivates (viewId : String)
  | refreshes
  -- frames
  | snapshot (subscriptionId : Option String) (view : UIView)
  | data (viewId : String) (subscriptionId : Option String) (key : String) (entry : UIDataEntry)
  | changed (viewId : String) (revision : Nat)
  | error (viewId subscriptionId : Option String)
  -- answers to the request at the place `n`
  | view (n : Nat) (answer : Option UIView)
  | list (n : Nat) (answer : Option (List UIViewSummary))

namespace ViewStore

variable (sortViews : List UIViewSummary → List UIViewSummary)

def next (s : ViewStore) : Event → Option ViewStore
  | .subscribes viewId revision => some (s.subscribe viewId revision)
  | .disposes viewId revision => some (s.dispose viewId revision)
  | .loads viewId pinnedRevision force => some (s.loadView viewId pinnedRevision force)
  | .reactivates viewId => some (s.request (.reactivate viewId))
  | .refreshes => some (s.request .loadList)
  | .snapshot subscriptionId view => some (s.snapshot sortViews subscriptionId view)
  | .data viewId subscriptionId key entry => some (s.dataFrame viewId subscriptionId key entry)
  | .changed viewId revision => some (s.viewChanged viewId revision)
  | .error viewId subscriptionId => some (s.viewError viewId subscriptionId)
  | .view n answer =>
    let s' := { s with requests := s.requests.eraseIdx n }
    match s.requests[n]? with
    | some (.loadView viewId pinnedRevision) => some (s'.viewLoaded sortViews viewId pinnedRevision answer)
    | some (.reactivate _) => some (s'.reactivated sortViews answer)
    | _ => none
  | .list n answer =>
    match s.requests[n]? with
    | some .loadList => some { s with
        requests := s.requests.eraseIdx n
        items := (answer.map sortViews).getD s.items }
    | _ => none

end ViewStore

end OpenAgent.App.Views
