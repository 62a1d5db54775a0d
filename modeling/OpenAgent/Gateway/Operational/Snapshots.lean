import OpenAgent.Gateway.Operational.Candidates
import OpenAgent.Lib.Checks
import OpenAgent.Lib.Runs
import Mathlib.Data.List.MinMax

namespace OpenAgent.Gateway.Operational.Snapshots

open Py OpenAgent.Gateway.Operational Checks

/-- The signed contents of a cursor: its kind, its snapshot, its offset, and whether descendants were included. -/
structure Cursor where
  k : String
  s : String
  o : Option Int
  d : Option Bool := none
deriving DecidableEq

structure Token where
  cursor : Cursor
  signature : String
deriving DecidableEq

/-- What these handlers take from elsewhere: digests, signatures and random identifiers, the index of the search, and
the decision about its rows. -/
class Platform extends Foundations where
  Digest : Type
  digestEq : DecidableEq Digest
  Index : Type
  sha256 : String → String
  digest : Digested → Digest
  tokenHex : Nat → String
  hmac : Nat → Cursor → String
  parseIso : String → Option Int
  literalFtsQuery : String → String
  grantedSearchResources : Tables → AccessContext → List (String × String × Int)
  readSearchRows : Index → SearchQuery → AccessContext → List (String × String × Int) → List SearchRow
  searchRowVisible : Tables → AccessContext → SearchRow → Bool
  searchRowsVisible : Tables → AccessContext → List SearchRow → List Bool
  readAuthorizedHighlight : Index → String → Int → String → String → Option String

attribute [instance] Platform.digestEq

inductive StaleReason where
  | invalidSignature
  | snapshotMissing
  | expired
  | aclChanged
  | filterMismatch
  | requestChanged
  | generationChanged
deriving DecidableEq

inductive Problem where
  | warming
  | degraded
  | targetNotFound
  | tooBroad
  | internalError
  | cursorStale (reason : StaleReason)
deriving DecidableEq

def snapshotTtlMs : Int := 5 * 60 * 1000
def maxSnapshotsPerPrincipal : Nat := 4
def maxSnapshotsGlobal : Nat := 32
def maxSnapshotRowsGlobal : Nat := 100000
def searchPageLookahead : Nat := 128

section State

/-- A snapshot for one principal, with what its requests have to repeat. -/
structure Snapshot (β ρ : Type) where
  snapshotId : String
  tenantId : String
  principalId : String
  bound : β
  revision : Int
  rows : List ρ
  expiresAtMs : Int

variable [Platform]

structure SearchBound where
  requestDigest : Platform.Digest
  indexGeneration : String

abbrev HistorySnapshot := Snapshot Platform.Digest String
abbrev SearchSnapshot := Snapshot SearchBound SearchEntry
abbrev RelatedRunsSnapshot := Snapshot (String × Bool) RelatedEntry
abbrev SessionTreeSnapshot := Snapshot String TreeRow

inductive Table where
  | history
  | search
  | relatedRuns
  | sessionTrees
deriving DecidableEq

structure CursorState where
  secret : Nat
  history : Dict String HistorySnapshot := .empty
  search : Dict String SearchSnapshot := .empty
  relatedRuns : Dict String RelatedRunsSnapshot := .empty
  sessionTrees : Dict String SessionTreeSnapshot := .empty
  serial : Nat := 0
  order : Dict (Table × String) Nat := .empty

structure Stored where
  table : Table
  key : String
  principalId : String
  rows : Nat

def searchRows (snapshot : SearchSnapshot) : Nat := (snapshot.rows.map fun entry => max 1 entry.found.length).sum

namespace CursorState

def entries (state : CursorState) : List Stored :=
  state.history.entries.map (fun e => ⟨.history, e.1, e.2.principalId, e.2.rows.length⟩) ++
    state.search.entries.map (fun e => ⟨.search, e.1, e.2.principalId, searchRows e.2⟩) ++
    state.relatedRuns.entries.map (fun e => ⟨.relatedRuns, e.1, e.2.principalId, e.2.rows.length⟩) ++
    state.sessionTrees.entries.map (fun e => ⟨.sessionTrees, e.1, e.2.principalId, e.2.rows.length⟩)

def discard (state : CursorState) (table : Table) (key : String) : CursorState :=
  let state := { state with order := state.order.erase (table, key) }
  match table with
  | .history => { state with history := state.history.erase key }
  | .search => { state with search := state.search.erase key }
  | .relatedRuns => { state with relatedRuns := state.relatedRuns.erase key }
  | .sessionTrees => { state with sessionTrees := state.sessionTrees.erase key }

def ownedBy (state : CursorState) (principalId : String) : Nat :=
  state.entries.countP fun entry => entry.principalId = principalId

def withinQuotas (state : CursorState) (principalId : String) : Bool :=
  state.entries.length ≤ maxSnapshotsGlobal && state.ownedBy principalId ≤ maxSnapshotsPerPrincipal &&
    (state.entries.map Stored.rows).sum ≤ maxSnapshotRowsGlobal

def oldest (state : CursorState) (principalId : String) : Option Stored :=
  (state.entries.filter fun entry =>
    state.ownedBy principalId ≤ maxSnapshotsPerPrincipal || entry.principalId = principalId).argmin fun entry =>
      (state.order.get? (entry.table, entry.key)).getD 0

def enforceQuotas (principalId : String) : Nat → CursorState → CursorState
  | 0, state => state
  | rounds + 1, state =>
    if state.withinQuotas principalId then state
    else match state.oldest principalId with
      | some entry => enforceQuotas principalId rounds (state.discard entry.table entry.key)
      | none => state

def registered (state : CursorState) (table : Table) (snapshotId principalId : String) : CursorState :=
  let state := { state with serial := state.serial + 1, order := state.order.set (table, snapshotId) (state.serial + 1) }
  enforceQuotas principalId state.entries.length state

def putHistory (state : CursorState) (snapshot : HistorySnapshot) : CursorState :=
  { state with history := state.history.set snapshot.snapshotId snapshot }.registered .history snapshot.snapshotId
    snapshot.principalId

def putSearch (state : CursorState) (snapshot : SearchSnapshot) : CursorState :=
  { state with search := state.search.set snapshot.snapshotId snapshot }.registered .search snapshot.snapshotId
    snapshot.principalId

def putRelatedRuns (state : CursorState) (snapshot : RelatedRunsSnapshot) : CursorState :=
  { state with relatedRuns := state.relatedRuns.set snapshot.snapshotId snapshot }.registered .relatedRuns
    snapshot.snapshotId snapshot.principalId

def putSessionTree (state : CursorState) (snapshot : SessionTreeSnapshot) : CursorState :=
  { state with sessionTrees := state.sessionTrees.set snapshot.snapshotId snapshot }.registered .sessionTrees
    snapshot.snapshotId snapshot.principalId

def holds (state : CursorState) (table : Table) (key : String) : Bool :=
  match table with
  | .history => (state.history.get? key).isSome
  | .search => (state.search.get? key).isSome
  | .relatedRuns => (state.relatedRuns.get? key).isSome
  | .sessionTrees => (state.sessionTrees.get? key).isSome

def prune (state : CursorState) (nowMs : Int) : CursorState :=
  let live := { state with
    history := state.history.filter fun _ snapshot => nowMs < snapshot.expiresAtMs
    search := state.search.filter fun _ snapshot => nowMs < snapshot.expiresAtMs
    relatedRuns := state.relatedRuns.filter fun _ snapshot => nowMs < snapshot.expiresAtMs
    sessionTrees := state.sessionTrees.filter fun _ snapshot => nowMs < snapshot.expiresAtMs }
  { live with order := live.order.filter fun key _ => live.holds key.1 key.2 }

def encode (state : CursorState) (cursor : Cursor) : Token := ⟨cursor, Platform.hmac state.secret cursor⟩

def decode (state : CursorState) (token : Token) : Except Problem Cursor :=
  if token.signature = Platform.hmac state.secret token.cursor then .ok token.cursor
  else .error (.cursorStale .invalidSignature)

end CursorState

end State

section Handlers

variable [Platform]

structure Moment where
  tables : Tables
  index : Platform.Index

structure PageLimit where
  value : Nat
  pos : 1 ≤ value
  le : value ≤ 100

/-- A request in its circumstances: who calls, when, what the server's statements find until the snapshot is there,
and what they find for each entry of the page. -/
structure Call where
  access : AccessContext
  limit : PageLimit
  cursor : Option Token
  nowMs : Int
  ready : Bool
  revision : Int
  indexGeneration : String
  arrival : Moment
  moments : Nat → Moment

structure Page (σ ι : Type) where
  snapshot : σ
  offset : Nat
  stop : Nat
  items : List ι
  nextCursor : Option Token

/-- `int(cursor.get("o", -1))`, which must not be negative. -/
def offsetOf (cursor : Cursor) : Except Problem Nat :=
  let offset := cursor.o.getD (-1)
  if offset < 0 then .error (.cursorStale .invalidSignature) else .ok offset.toNat

def serve {σ ι : Type} (state : CursorState) (call : Call) (resume : CursorState → Token → Except Problem (σ × Nat))
    (opened : Except Problem σ) (put : CursorState → σ → CursorState)
    (page : CursorState → σ → Nat → Except Problem (Page σ ι)) : CursorState × Except Problem (Page σ ι) :=
  match call.cursor with
  | some token =>
    let pruned := state.prune call.nowMs
    (pruned, (resume pruned token).bind fun at_ => page pruned at_.1 at_.2)
  | none =>
    match opened with
    | .error problem => (state, .error problem)
    | .ok snapshot => (put state snapshot, page (put state snapshot) snapshot 0)

def otherAccount {β ρ : Type} (snapshot : Snapshot β ρ) (access : AccessContext) : Bool :=
  snapshot.tenantId ≠ access.tenantId || snapshot.principalId ≠ access.principalId

def nextCursor (state : CursorState) (cursor : Cursor) (stop count : Nat) : Option Token :=
  if stop < count then some (state.encode { cursor with o := some stop }) else none

def slicedPage {β ρ ι : Type} (state : CursorState) (call : Call) (snapshot : Snapshot β ρ) (offset : Nat) (cursor : Cursor)
    (answer : Moment → ρ → List ι) : Page (Snapshot β ρ) ι :=
  let selected := (snapshot.rows.drop offset).take call.limit.value
  let stop := offset + selected.length
  ⟨snapshot, offset, stop, selected.zipIdx.flatMap fun entry => answer (call.moments entry.2) entry.1,
    nextCursor state cursor stop snapshot.rows.length⟩

def openHistory (drawn : Nat) (call : Call) (filters : HistoryFilters) : Except Problem HistorySnapshot := do
  let rows ← found (activityRows call.arrival.tables call.access filters) .degraded
  pure ⟨Platform.tokenHex drawn, call.access.tenantId, call.access.principalId, Platform.digest (.filters filters),
    call.revision, rows.map ActivityRow.activityId, call.nowMs + snapshotTtlMs⟩

def resumeHistory (call : Call) (filters : HistoryFilters) (state : CursorState) (token : Token) :
    Except Problem (HistorySnapshot × Nat) := do
  let cursor ← state.decode token
  let snapshot ← found (state.history.get? cursor.s) (.cursorStale .snapshotMissing)
  refuse (snapshot.expiresAtMs ≤ call.nowMs) (.cursorStale .expired)
  refuse (otherAccount snapshot call.access) (.cursorStale .aclChanged)
  refuse (snapshot.bound ≠ Platform.digest (.filters filters)) (.cursorStale .filterMismatch)
  let offset ← offsetOf cursor
  pure (snapshot, offset)

def historyAnswer (access : AccessContext) (moment : Moment) (activityId : String) : List HistoryItem :=
  Operational.handleHistory moment.tables.toStore access [activityId]

def historyPage (call : Call) (state : CursorState) (snapshot : HistorySnapshot) (offset : Nat) :
    Page HistorySnapshot HistoryItem :=
  slicedPage state call snapshot offset ⟨"history", snapshot.snapshotId, none, none⟩ (historyAnswer call.access)

def handleHistory (state : CursorState) (drawn : Nat) (call : Call) (filters : HistoryFilters) :
    CursorState × Except Problem (Page HistorySnapshot HistoryItem) :=
  if call.ready then
    serve state call (resumeHistory call filters) (openHistory drawn call filters) .putHistory
      fun state snapshot offset => .ok (historyPage call state snapshot offset)
  else (state, .error .warming)

def openSessionTree (drawn : Nat) (call : Call) (sessionId : String) : Except Problem SessionTreeSnapshot := do
  let rows ← found (sessionTreeCandidates call.arrival.tables call.access sessionId) .degraded
  pure ⟨Platform.tokenHex drawn, call.access.tenantId, call.access.principalId, sessionId, call.revision, rows,
    call.nowMs + snapshotTtlMs⟩

def resumeSessionTree (call : Call) (sessionId : String) (state : CursorState) (token : Token) :
    Except Problem (SessionTreeSnapshot × Nat) := do
  let cursor ← state.decode token
  refuse (cursor.k ≠ "session_tree") (.cursorStale .invalidSignature)
  let snapshot ← found (state.sessionTrees.get? cursor.s) (.cursorStale .snapshotMissing)
  refuse (otherAccount snapshot call.access || snapshot.bound ≠ sessionId) (.cursorStale .aclChanged)
  let offset ← offsetOf cursor
  refuse (snapshot.rows.length < offset) (.cursorStale .invalidSignature)
  pure (snapshot, offset)

def descendantAnswer (access : AccessContext) (sessionId : String) (moment : Moment) (row : TreeRow) : List TreeRow :=
  let visible := sessionVisible moment.tables.toStore access
  if visible row.sessionId then
    if (link row.parentSessionId).any fun parent => parent ≠ sessionId && !visible parent then
      [{ row with parentSessionId := none, lineageRedacted := true }]
    else [row]
  else []

def sessionTreePage (call : Call) (sessionId : String) (state : CursorState) (snapshot : SessionTreeSnapshot)
    (offset : Nat) : Page SessionTreeSnapshot TreeRow :=
  slicedPage state call snapshot offset ⟨"session_tree", snapshot.snapshotId, none, none⟩
    (descendantAnswer call.access sessionId)

def handleSessionDescendants (state : CursorState) (drawn : Nat) (call : Call) (sessionId : String) :
    CursorState × Except Problem (Page SessionTreeSnapshot TreeRow) :=
  if !call.ready then (state, .error .warming)
  else if sessionVisible call.arrival.tables.toStore call.access sessionId then
    serve state call (resumeSessionTree call sessionId) (openSessionTree drawn call sessionId) .putSessionTree
      fun state snapshot offset => .ok (sessionTreePage call sessionId state snapshot offset)
  else (state, .error .targetNotFound)

def openRelatedRuns (drawn : Nat) (call : Call) (sessionId : String) (includeDescendants : Bool) :
    Except Problem RelatedRunsSnapshot := do
  let descendants ← found (if includeDescendants then sessionTreeCandidates call.arrival.tables call.access sessionId
    else some []) .degraded
  let rows ← found (relatedRunCandidates call.arrival.tables call.access
    ((sessionId, 0) :: descendants.map fun row => (row.sessionId, row.depth))) .degraded
  pure ⟨Platform.tokenHex drawn, call.access.tenantId, call.access.principalId, (sessionId, includeDescendants),
    call.revision, rows, call.nowMs + snapshotTtlMs⟩

def resumeRelatedRuns (call : Call) (sessionId : String) (includeParam : Option Bool) (state : CursorState)
    (token : Token) : Except Problem (RelatedRunsSnapshot × Nat) := do
  let cursor ← state.decode token
  refuse (cursor.k ≠ "related_runs") (.cursorStale .invalidSignature)
  let includeDescendants := cursor.d.getD false
  refuse (includeParam.any fun asked => asked ≠ includeDescendants) (.cursorStale .requestChanged)
  let snapshot ← found (state.relatedRuns.get? cursor.s) (.cursorStale .snapshotMissing)
  refuse (snapshot.expiresAtMs ≤ call.nowMs) (.cursorStale .expired)
  refuse (otherAccount snapshot call.access || snapshot.bound.1 ≠ sessionId || snapshot.bound.2 ≠ includeDescendants)
    (.cursorStale .aclChanged)
  let offset ← offsetOf cursor
  refuse (snapshot.rows.length < offset) (.cursorStale .invalidSignature)
  pure (snapshot, offset)

def relatedAnswer (access : AccessContext) (moment : Moment) (entry : RelatedEntry) : List RelatedRun :=
  (relatedRunDetails moment.tables.toStore access [entry.toCandidate]).map relatedRunJson

def relatedRunsPage (call : Call) (state : CursorState) (snapshot : RelatedRunsSnapshot) (offset : Nat) :
    Page RelatedRunsSnapshot RelatedRun :=
  slicedPage state call snapshot offset ⟨"related_runs", snapshot.snapshotId, none, some snapshot.bound.2⟩
    (relatedAnswer call.access)

def handleSessionRelatedRuns (state : CursorState) (drawn : Nat) (call : Call) (sessionId : String)
    (includeParam : Option Bool) : CursorState × Except Problem (Page RelatedRunsSnapshot RelatedRun) :=
  if !call.ready then (state, .error .warming)
  else if sessionVisible call.arrival.tables.toStore call.access sessionId then
    serve state call (resumeRelatedRuns call sessionId includeParam)
      (openRelatedRuns drawn call sessionId (includeParam.getD false)) .putRelatedRuns
      fun state snapshot offset => .ok (relatedRunsPage call state snapshot offset)
  else (state, .error .targetNotFound)

def kept (access : AccessContext) (filters : SearchFilters) (row : SearchRow) : Bool :=
  row.tenantId = access.tenantId &&
    ((filters.status.getD []).isEmpty || row.status.any (filters.status.getD []).contains) &&
    (filters.fromText.bind Platform.parseIso).all (fun start => start ≤ row.occurredAtMs) &&
    (filters.toText.bind Platform.parseIso).all (fun stop => row.occurredAtMs < stop) &&
    filters.origin.all (fun origin => row.origin = some origin) &&
    filters.parentType.all (fun parentType => row.parentType = some parentType && row.parentId = filters.parentId) &&
    filters.root.all (fun root => row.root = root)

def maxSearchCandidates : Nat := 50000

def authorizedRows (call : Call) (query : SearchQuery) : Except Problem (List SearchRow) :=
  let tables := call.arrival.tables
  let candidates := Platform.readSearchRows call.arrival.index query call.access
    (Platform.grantedSearchResources tables call.access)
  if maxSearchCandidates < candidates.length then .error .tooBroad
  else .ok (((candidates.zip (Platform.searchRowsVisible tables call.access candidates)).filter fun entry =>
    kept call.access query.filters entry.1 && entry.2).map Prod.fst)

def normalized (query : SearchQuery) : NormalizedRequest :=
  ⟨Platform.sha256 query.query, query.scopes, query.filters, query.sort, query.grouping⟩

def openSearch (drawn : Nat) (call : Call) (query : SearchQuery) : Except Problem SearchSnapshot := do
  let rows ← authorizedRows call query
  pure ⟨Platform.tokenHex drawn, call.access.tenantId, call.access.principalId,
    ⟨Platform.digest (.request (normalized query)), call.indexGeneration⟩, call.revision, grouped query.grouping rows,
    call.nowMs + snapshotTtlMs⟩

def resumeSearch (call : Call) (query : SearchQuery) (state : CursorState) (token : Token) :
    Except Problem (SearchSnapshot × Nat) := do
  let cursor ← state.decode token
  let snapshot ← found (state.search.get? cursor.s) (.cursorStale .snapshotMissing)
  refuse (snapshot.expiresAtMs ≤ call.nowMs) (.cursorStale .expired)
  refuse (otherAccount snapshot call.access) (.cursorStale .aclChanged)
  refuse (snapshot.bound.requestDigest ≠ Platform.digest (.request (normalized query))) (.cursorStale .filterMismatch)
  refuse (snapshot.bound.indexGeneration ≠ call.indexGeneration) (.cursorStale .generationChanged)
  let offset ← offsetOf cursor
  pure (snapshot, offset)

/-- What the matches of an entry come to: those to show, and how many are visible. -/
structure Shown where
  current : List (SearchRow × String) := []
  visible : Nat := 0

def highlight (moment : Moment) (ftsQuery : String) (row : SearchRow) : Option String :=
  Platform.readAuthorizedHighlight moment.index row.chunkId row.sourceVersion row.contentHash ftsQuery

/-- Every match takes one answer of the iterator; `none` where the iterator is exhausted. -/
def readMatches (moment : Moment) (ftsQuery : String) : List SearchRow → List Bool → Shown → Option (Shown × List Bool)
  | [], pending, shown => some (shown, pending)
  | _ :: _, [], _ => none
  | _ :: rows, false :: pending, shown => readMatches moment ftsQuery rows pending shown
  | row :: rows, true :: pending, shown =>
    let counted := { shown with visible := shown.visible + 1 }
    if 2 ≤ shown.current.length then readMatches moment ftsQuery rows pending counted
    else match highlight moment ftsQuery row with
      | none => readMatches moment ftsQuery rows pending counted
      | some text => readMatches moment ftsQuery rows pending { counted with current := shown.current ++ [(row, text)] }

structure SearchItem where
  resultId : String
  root : String × String
  found : List (SearchRow × String)
  matchCount : Nat

def searchItem (grouping : Grouping) (shown : Shown) : List SearchItem :=
  match shown.current with
  | [] => []
  | first :: _ =>
    [⟨if grouping = .root then first.1.rootKind ++ ":" ++ first.1.rootId else first.1.chunkId, first.1.root,
      shown.current, shown.visible⟩]

/-- The loop of the page, from its offset on. The answers about the next rows are asked for together. -/
def scan (call : Call) (query : SearchQuery) : List SearchEntry → Nat → Nat → List Bool → List SearchItem →
    Option (List SearchItem × Nat)
  | [], position, _, _, output => some (output, position)
  | entry :: rest, position, through, pending, output =>
    if call.limit.value ≤ output.length then some (output, position)
    else
      let ahead := (entry :: rest).take searchPageLookahead
      let pending := if through ≤ position then
        Platform.searchRowsVisible (call.moments position).tables call.access (ahead.flatMap SearchEntry.found) else pending
      let through := if through ≤ position then position + ahead.length else through
      match readMatches (call.moments position) (Platform.literalFtsQuery query.query) entry.found pending {} with
      | none => none
      | some (shown, pending) =>
        scan call query rest (position + 1) through pending (output ++ searchItem query.grouping shown)

def searchPage (call : Call) (query : SearchQuery) (state : CursorState) (snapshot : SearchSnapshot) (offset : Nat) :
    Except Problem (Page SearchSnapshot SearchItem) := do
  let scanned ← found (scan call query (snapshot.rows.drop offset) 0 0 [] []) .internalError
  let stop := offset + scanned.2
  pure ⟨snapshot, offset, stop, scanned.1, nextCursor state ⟨"search", snapshot.snapshotId, none, none⟩ stop
    snapshot.rows.length⟩

def handleSearch (state : CursorState) (drawn : Nat) (call : Call) (query : SearchQuery) :
    CursorState × Except Problem (Page SearchSnapshot SearchItem) :=
  if call.ready then
    serve state call (resumeSearch call query) (openSearch drawn call query) .putSearch (searchPage call query)
  else (state, .error .warming)

end Handlers

section Runs

variable [Platform]

inductive Request where
  | history (filters : HistoryFilters)
  | descendants (sessionId : String)
  | relatedRuns (sessionId : String) (includeParam : Option Bool)
  | search (query : SearchQuery)

inductive Entry where
  | activity (id : String)
  | session (row : TreeRow)
  | run (entry : RelatedEntry)
  | result (entry : SearchEntry)

inductive Item where
  | activity (item : HistoryItem)
  | session (row : TreeRow)
  | run (run : RelatedRun)
  | result (item : SearchItem)

inductive Scope where
  | history (digest : Platform.Digest)
  | descendants (sessionId : String)
  | relatedRuns (sessionId : String) (includeDescendants : Bool)
  | search (digest : Platform.Digest)

structure Frozen where
  id : String
  tenantId : String
  principalId : String
  scope : Scope
  entries : List Entry

def frozen {β ρ : Type} (scope : β → Scope) (entry : ρ → Entry) (snapshot : Snapshot β ρ) : Frozen :=
  ⟨snapshot.snapshotId, snapshot.tenantId, snapshot.principalId, scope snapshot.bound, snapshot.rows.map entry⟩

def frozenHistory : HistorySnapshot → Frozen := frozen .history .activity
def frozenSessionTree : SessionTreeSnapshot → Frozen := frozen .descendants .session
def frozenRelatedRuns : RelatedRunsSnapshot → Frozen := frozen (fun bound => .relatedRuns bound.1 bound.2) .run
def frozenSearch : SearchSnapshot → Frozen := frozen (fun bound => .search bound.requestDigest) .result

/-- A page that was served, with the snapshot that it was cut from. -/
structure Served where
  request : Request
  call : Call
  frozen : Frozen
  offset : Nat
  stop : Nat
  items : List Item
  nextCursor : Option Token

def Page.served {σ ι : Type} (page : Page σ ι) (request : Request) (call : Call) (frozen : σ → Frozen) (item : ι → Item) :
    Served :=
  ⟨request, call, frozen page.snapshot, page.offset, page.stop, page.items.map item, page.nextCursor⟩

def handle (state : CursorState) (drawn : Nat) (call : Call) (request : Request) : CursorState × Except Problem Served :=
  match request with
  | .history filters =>
    (handleHistory state drawn call filters).map id (Except.map fun page => page.served request call frozenHistory .activity)
  | .descendants sessionId =>
    (handleSessionDescendants state drawn call sessionId).map id
      (Except.map fun page => page.served request call frozenSessionTree .session)
  | .relatedRuns sessionId includeParam =>
    (handleSessionRelatedRuns state drawn call sessionId includeParam).map id
      (Except.map fun page => page.served request call frozenRelatedRuns .run)
  | .search query =>
    (handleSearch state drawn call query).map id (Except.map fun page => page.served request call frozenSearch .result)

inductive Event where
  | arrived (nowMs : Int)
  | stopped
  | requested (request : Request) (call : Call)

/-- The snapshots, the number of identifiers drawn, and the pages that were served. -/
structure State where
  cursors : CursorState
  drawn : Nat
  log : List Served

def State.initial : State := ⟨{ secret := 0 }, 0, []⟩

def next (s : State) (e : Event) : Option State :=
  match e with
  | .arrived nowMs => some { s with cursors := s.cursors.prune nowMs }
  | .stopped => some { s with cursors := { secret := s.cursors.secret + 1 } }
  | .requested request call =>
    match handle s.cursors s.drawn call request with
    | (cursors, .ok served) => some ⟨cursors, s.drawn + 1, s.log ++ [served]⟩
    | (cursors, .error _) => some ⟨cursors, s.drawn + 1, s.log⟩

end Runs

end OpenAgent.Gateway.Operational.Snapshots
