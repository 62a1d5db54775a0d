import Mathlib.Data.List.Sort
import OpenAgent.Lib.Calls
import OpenAgent.Lib.Runs

namespace OpenAgent.App.Search

open Py

inductive ActivityKind
  | chat
  | delegatedSession
  | workflowRun
  | scheduledRun
  | eventDelivery
deriving DecidableEq

/-- `ACTIVITY_KINDS`, and `ORDERED_ACTIVITY_KINDS`. -/
def ACTIVITY_KINDS : List ActivityKind := [.chat, .delegatedSession, .workflowRun, .scheduledRun, .eventDelivery]

inductive SearchScope
  | chats
  | tools
  | workflows
  | scheduled
  | events
  | views
deriving DecidableEq

def SEARCH_SCOPES : List SearchScope := [.chats, .tools, .workflows, .scheduled, .events, .views]

inductive SearchTargetKind
  | chat
  | chatMessage
  | chatTool
  | workflowDefinition
  | workflowRun
  | scheduledDefinition
  | scheduledRun
  | eventDefinition
  | eventDelivery
  | uiView
deriving DecidableEq

def SEARCH_TARGET_KINDS : List SearchTargetKind :=
  [.chat, .chatMessage, .chatTool, .workflowDefinition, .workflowRun, .scheduledDefinition, .scheduledRun,
    .eventDefinition, .eventDelivery, .uiView]

inductive RunStatus
  | pending
  | queued
  | received
  | running
  | success
  | failed
  | cancelled
  | rejected
  | interrupted
  | skipped
  | timedOut
deriving DecidableEq

def ERROR_STATUSES : List RunStatus := [.failed, .rejected, .timedOut]

inductive SearchPeriod
  | any
  | day
  | week
  | month
deriving DecidableEq

/-- `none` for the selection `all`. -/
abbrev ScopeSelection := Option SearchScope

inductive SearchState
  | unavailable
  | warming
  | ready
  | degraded
deriving DecidableEq

structure GlobalSearchFeature where
  version : Nat
  scopes : List SearchScope
  targets : List SearchTargetKind

structure Capabilities where
  historyVersion : Option Nat
  globalSearch : Option GlobalSearchFeature
  searchState : SearchState

inductive Support
  | unknown
  | v2
  | legacy
  | error
deriving DecidableEq

structure ActivityItem where
  id : String
  title : String
  occurredAt : Int
deriving DecidableEq

structure SearchResult where
  resultId : String
  title : String
deriving DecidableEq

structure HistoryPage where
  items : List ActivityItem
  nextCursor : Option String
  hasMore : Bool

structure SearchPage where
  items : List SearchResult
  nextCursor : Option String
  hasMore : Bool

/-- What the fetch of a request rejects with; a timeout is an `AbortError` where `fetch` does not hand on the reason. -/
inductive Failure
  | api (status : Nat) (code : String)
  | abortError
  | other
deriving DecidableEq

namespace Failure

def isAbort (f : Failure) : Bool := f = .abortError

def hasCode (code : String) : Failure → Bool
  | .api _ c => c = code
  | _ => false

def isUnsupportedByAgent : Failure → Bool
  | .api status _ => status = 404 || status = 405
  | _ => false

def isExplicitlyUnsupported : Failure → Bool
  | .api status code => status = 501 && code = "unsupported"
  | _ => false

def isDenied : Failure → Bool
  | .api status _ => status = 401 || status = 403
  | _ => false

end Failure

def normalizeHistoryKinds (kinds : List ActivityKind) : List ActivityKind :=
  ACTIVITY_KINDS.filter (kinds.contains ·)

/-- `historyRequestKey`, before it is made a text. -/
structure HistoryKey where
  accountId : String
  kinds : List ActivityKind
  generation : Nat
deriving DecidableEq

structure Query where
  draft : String := ""
  scope : ScopeSelection := none
  statuses : List RunStatus := []
  errorsOnly : Bool := false
  period : SearchPeriod := .any
deriving DecidableEq

/-- `searchRequestFingerprint`, before it is made a text; `since` is the filter `from`. -/
structure Fingerprint where
  query : String
  scopes : List SearchScope
  status : List RunStatus
  since : Option Int
deriving DecidableEq

def scopesFor (selection : ScopeSelection) : List SearchScope := selection.elim SEARCH_SCOPES fun scope => [scope]

/-- `isoFromPeriod`, in milliseconds. -/
def sincePeriod (now : Int) : SearchPeriod → Option Int
  | .any => none
  | .day => some (now - 24 * 3600000)
  | .week => some (now - 24 * 7 * 3600000)
  | .month => some (now - 24 * 30 * 3600000)

/-- `trim` is `String.prototype.trim`. -/
def searchRequestFingerprint (trim : String → String) (now : Int) (q : Query) : Fingerprint where
  query := trim q.draft
  scopes := scopesFor q.scope
  status := if q.errorsOnly then ERROR_STATUSES else q.statuses
  since := sincePeriod now q.period

def canUseUnifiedHistoryCache (_query : String) (_q : Query) : Bool := false

def hasRequiredSearchContract (c : Capabilities) : Bool :=
  c.globalSearch.any fun feature =>
    feature.version = 1 && SEARCH_SCOPES.all (feature.scopes.contains ·) &&
      SEARCH_TARGET_KINDS.all (feature.targets.contains ·)

structure CapabilityCall where
  accountId : String
  generation : Nat
  force : Bool
  sameAccount : Bool
  support : Support
  hadItems : Bool

/-- A history request, and the kinds and the cursor it goes out with. -/
structure HistoryCall where
  reset : Bool
  key : HistoryKey
  cursor : Option String
deriving DecidableEq

/-- A search request; `query` and `accountId` are whom and what it was issued for. -/
structure SearchCall where
  paging : Bool
  generation : Nat
  fingerprint : Fingerprint
  cursor : Option String
  query : Query
  accountId : Option String

structure Store where
  accountId : Option String := none
  support : Support := .unknown
  capabilities : Option Capabilities := none
  capabilityLoading : Bool := false
  historyItems : List ActivityItem := []
  historyKinds : List ActivityKind := ACTIVITY_KINDS
  historyCursor : Option String := none
  historyHasMore : Bool := false
  historyLoading : Bool := false
  historyPaginating : Bool := false
  historyGeneration : Nat := 0
  query : Query := {}
  results : List SearchResult := []
  searchCursor : Option String := none
  searchHasMore : Bool := false
  searchLoading : Bool := false
  searchPaginating : Bool := false
  displayedRequestFingerprint : Option Fingerprint := none
  activeRequest : Option Fingerprint := none
  resultsUpdated : Bool := false
  requestGeneration : Nat := 0
  capability : Calls CapabilityCall := .empty
  history : Calls HistoryCall := .empty
  search : Calls SearchCall := .empty

namespace Store

def historyKey (s : Store) : HistoryKey :=
  ⟨s.accountId.getD "", normalizeHistoryKinds s.historyKinds, s.historyGeneration⟩

/-- `reset ? state.historyLoading : state.historyPaginating`. -/
def underWay (s : Store) (reset : Bool) : Bool := if reset then s.historyLoading else s.historyPaginating

def loadHistory (s : Store) (reset : Bool) : Store :=
  if s.support ≠ .v2 then s
  else if s.historyKinds = [] then
    { s with
      historyItems := []
      historyCursor := none
      historyHasMore := false
      historyLoading := false
      historyPaginating := false }
  else if s.underWay reset then s
  else if !reset && (!s.historyHasMore || s.historyCursor.getD "" = "") then s
  else
    let cursor := if reset then none else s.historyCursor
    let history := s.history.abort.start ⟨reset, s.historyKey, cursor⟩
    if reset then { s with history, historyLoading := true } else
    { s with history, historyPaginating := true }

def setHistoryKinds (s : Store) (kinds : List ActivityKind) : Store :=
  let normalized := normalizeHistoryKinds kinds
  if normalized = normalizeHistoryKinds s.historyKinds then s
  else
    let s := { s with
      history := s.history.abort.drop
      historyKinds := normalized
      historyItems := []
      historyCursor := none
      historyHasMore := false
      historyLoading := false
      historyPaginating := false
      historyGeneration := s.historyGeneration + 1 }
    if s.support = .v2 ∧ normalized ≠ [] then s.loadHistory true else s

def cleared (s : Store) (accountId : Option String) : Store where
  accountId := accountId
  historyGeneration := s.historyGeneration + 1
  requestGeneration := s.requestGeneration + 1
  capability := s.capability.abort.drop
  history := s.history.abort.drop
  search := s.search.abort.drop

def renewed (s : Store) : Store :=
  { s with
    historyLoading := false
    historyPaginating := false
    searchLoading := false
    searchPaginating := false
    historyGeneration := s.historyGeneration + 1
    requestGeneration := s.requestGeneration + 1
    history := s.history.abort.drop
    search := s.search.abort.drop }

/-- `initialize`, up to its await. -/
def initializeAccount (s : Store) (accountId : String) (force : Bool) : Store :=
  let sameAccount : Bool := s.accountId = some accountId
  if !force && sameAccount && s.support ≠ .unknown then
    if s.support = .v2 && s.historyItems.isEmpty && !s.historyLoading then s.loadHistory true else s
  else
    let t := if sameAccount then
        let t := { s with capability := s.capability.abort.drop }
        if force then t.renewed else t
      else s.cleared (some accountId)
    { t with
      capabilityLoading := true
      capability := t.capability.start
        ⟨accountId, t.requestGeneration, force, sameAccount, s.support, !s.historyItems.isEmpty⟩ }

def refilter (s : Store) (query : Query) : Store :=
  { s with query, requestGeneration := s.requestGeneration + 1, search := s.search.abort }

def setDraft (s : Store) (draft : String) : Store :=
  { s.refilter { s.query with draft } with searchLoading := false, searchPaginating := false }

def setScope (s : Store) (scope : ScopeSelection) : Store :=
  if scope = some .chats ∨ scope = some .views then
    s.refilter { s.query with scope, statuses := [], errorsOnly := false }
  else s.refilter { s.query with scope }

def setStatuses (s : Store) (statuses : List RunStatus) : Store :=
  s.refilter { s.query with statuses, errorsOnly := false }

def setErrorsOnly (s : Store) (errorsOnly : Bool) : Store := s.refilter { s.query with errorsOnly, statuses := [] }

def setPeriod (s : Store) (period : SearchPeriod) : Store := s.refilter { s.query with period }

def clearFilters (s : Store) : Store := s.refilter { s.query with statuses := [], errorsOnly := false, period := .any }

def executeSearch (trim : String → String) (now : Int) (s : Store) : Store :=
  let fingerprint := searchRequestFingerprint trim now s.query
  if canUseUnifiedHistoryCache (trim s.query.draft) s.query && normalizeHistoryKinds s.historyKinds = ACTIVITY_KINDS then
    { s with
      results := []
      searchCursor := none
      searchHasMore := false
      searchLoading := false
      searchPaginating := false
      displayedRequestFingerprint := some fingerprint
      activeRequest := none
      search := s.search.abort }
  else if s.support ≠ .v2 ∨ s.capabilities.any hasRequiredSearchContract = false then s
  else
    { s with
      results := []
      searchCursor := none
      searchHasMore := false
      searchLoading := true
      searchPaginating := false
      requestGeneration := s.requestGeneration + 1
      resultsUpdated := false
      displayedRequestFingerprint := some fingerprint
      activeRequest := some fingerprint
      search := s.search.abort.start ⟨false, s.requestGeneration + 1, fingerprint, none, s.query, s.accountId⟩ }

def loadMoreSearch (trim : String → String) (now : Int) (s : Store) : Store :=
  match s.activeRequest with
  | none => s
  | some request =>
    if s.searchLoading || s.searchPaginating || !s.searchHasMore || s.searchCursor.getD "" = "" then s
    else if some (searchRequestFingerprint trim now s.query) ≠ s.displayedRequestFingerprint then s
    else
      { s with
        searchPaginating := true
        requestGeneration := s.requestGeneration + 1
        search := s.search.start ⟨true, s.requestGeneration + 1, request, s.searchCursor, s.query, s.accountId⟩ }

def acceptUpdatedResults (trim : String → String) (now : Int) (s : Store) : Store :=
  { s with resultsUpdated := false, searchCursor := none, searchHasMore := false }.executeSearch trim now

def clear (s : Store) : Store := s.cleared none

end Store

def MAX_RETAINED_HISTORY_ITEMS : Nat := 600

def MAX_RETAINED_SEARCH_RESULTS : Nat := 400

def byId {α : Type} (id : α → String) (items : List α) : List α :=
  (items.foldl (fun d item => d.set (id item) item) (Dict.empty : Dict String α)).values

def mergeBoundedHistory (previous incoming : List ActivityItem) (reset : Bool) : List ActivityItem :=
  ((byId ActivityItem.id ((if reset then [] else previous) ++ incoming)).insertionSort
    fun a b => b.occurredAt ≤ a.occurredAt).take MAX_RETAINED_HISTORY_ITEMS

namespace Store

/-- The rest of `initialize`, with capabilities. -/
def capabilitiesArrived (s : Store) (call : CapabilityCall) (capabilities : Capabilities) : Store :=
  if s.accountId ≠ some call.accountId ∨ s.requestGeneration ≠ call.generation then s
  else if capabilities.historyVersion ≠ some 2 then
    { s with
      support := if capabilities.searchState = .warming then .legacy else .error
      capabilities := some capabilities
      capabilityLoading := false }
  else
    let s := { s with support := .v2, capabilities := some capabilities, capabilityLoading := false }
    if call.force || !call.sameAccount || call.support ≠ .v2 || !call.hadItems then s.loadHistory true else s

def capabilitiesFailed (s : Store) (call : Call CapabilityCall) (f : Failure) : Store :=
  if call.aborted ∨ s.accountId ≠ some call.sent.accountId then s
  else if f.hasCode "warming" || f.isUnsupportedByAgent || f.isExplicitlyUnsupported then
    { s with support := .legacy, capabilityLoading := false }
  else if call.sent.sameAccount && call.sent.support = .v2 && !f.isDenied then { s with capabilityLoading := false }
  else
    { s with support := .error, capabilityLoading := false }

def historyArrived (s : Store) (call : Call HistoryCall) (page : HistoryPage) : Store :=
  if call.aborted ∨ call.sent.key ≠ s.historyKey then s
  else
    let historyItems := mergeBoundedHistory s.historyItems page.items call.sent.reset
    let atRetentionLimit := historyItems.length ≥ MAX_RETAINED_HISTORY_ITEMS
    { s with
      historyItems
      historyCursor := if atRetentionLimit then none else page.nextCursor
      historyHasMore := page.hasMore && !atRetentionLimit
      historyLoading := false
      historyPaginating := false }

def historyFailed (s : Store) (call : Call HistoryCall) (f : Failure) : Store :=
  if call.aborted || f.isAbort then s
  else if call.sent.key ≠ s.historyKey then s
  else if f.isExplicitlyUnsupported then
    { s with support := .legacy, historyLoading := false, historyPaginating := false }
  else if !call.sent.reset && f.hasCode "cursor_stale" then
    { s with historyCursor := none, historyHasMore := false, historyPaginating := false }.loadHistory true
  else
    { s with historyLoading := false, historyPaginating := false }

def searchArrived (s : Store) (call : Call SearchCall) (page : SearchPage) : Store :=
  if call.aborted ∨ s.requestGeneration ≠ call.sent.generation then s
  else if call.sent.paging then
    let results := (byId SearchResult.resultId (s.results ++ page.items)).take MAX_RETAINED_SEARCH_RESULTS
    let atRetentionLimit := results.length ≥ MAX_RETAINED_SEARCH_RESULTS
    { s with
      results
      searchCursor := if atRetentionLimit then none else page.nextCursor
      searchHasMore := page.hasMore && !atRetentionLimit
      searchPaginating := false }
  else
    { s with
      results := page.items
      searchCursor := page.nextCursor
      searchHasMore := page.hasMore
      searchLoading := false
      displayedRequestFingerprint := some call.sent.fingerprint
      activeRequest := some call.sent.fingerprint }

def searchFailed (s : Store) (call : Call SearchCall) (f : Failure) : Store :=
  if call.aborted || f.isAbort || s.requestGeneration ≠ call.sent.generation then s
  else if call.sent.paging then
    { s with searchPaginating := false, resultsUpdated := f.hasCode "cursor_stale" || s.resultsUpdated }
  else
    { s with searchLoading := false }

end Store

/-- Actions of the user and of the app, and the answers to requests. -/
inductive Event
  | initializeAccount (accountId : String) (force : Bool)
  | setHistoryKinds (kinds : List ActivityKind)
  | loadHistory (reset : Bool)
  | setDraft (draft : String)
  | setScope (scope : ScopeSelection)
  | setStatuses (statuses : List RunStatus)
  | setErrorsOnly (value : Bool)
  | setPeriod (period : SearchPeriod)
  | clearFilters
  | executeSearch (now : Int)
  | loadMoreSearch (now : Int)
  | acceptUpdatedResults (now : Int)
  | clear
  | capabilities (id : Nat) (answer : Except Failure Capabilities)
  | historyPage (id : Nat) (answer : Except Failure HistoryPage)
  | searchPage (id : Nat) (answer : Except Failure SearchPage)

/-- One event; `none` for an answer to nothing. -/
def next (trim : String → String) (s : Store) : Event → Option Store
  | .initializeAccount accountId force => some (s.initializeAccount accountId force)
  | .setHistoryKinds kinds => some (s.setHistoryKinds kinds)
  | .loadHistory reset => some (s.loadHistory reset)
  | .setDraft draft => some (s.setDraft draft)
  | .setScope scope => some (s.setScope scope)
  | .setStatuses statuses => some (s.setStatuses statuses)
  | .setErrorsOnly value => some (s.setErrorsOnly value)
  | .setPeriod period => some (s.setPeriod period)
  | .clearFilters => some s.clearFilters
  | .executeSearch now => some (s.executeSearch trim now)
  | .loadMoreSearch now => some (s.loadMoreSearch trim now)
  | .acceptUpdatedResults now => some (s.acceptUpdatedResults trim now)
  | .clear => some s.clear
  | .capabilities id answer => (s.capability.pending.get? id).map fun call =>
    let s := { s with capability := s.capability.settle id }
    let s := match answer with
      | .ok capabilities => s.capabilitiesArrived call.sent capabilities
      | .error f => s.capabilitiesFailed call f
    { s with capability := s.capability.finish id }
  | .historyPage id answer => (s.history.pending.get? id).map fun call =>
    let s := { s with history := s.history.settle id }
    let s := match answer with
      | .ok page => s.historyArrived call page
      | .error f => s.historyFailed call f
    { s with history := s.history.finish id }
  | .searchPage id answer => (s.search.pending.get? id).map fun call =>
    let s := { s with search := s.search.settle id }
    let s := match answer with
      | .ok page => s.searchArrived call page
      | .error f => s.searchFailed call f
    { s with search := s.search.finish id }

end OpenAgent.App.Search
