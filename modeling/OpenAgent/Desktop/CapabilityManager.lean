import OpenAgent.Desktop.CapabilitySocket
import OpenAgent.Lib.Checks
import OpenAgent.Lib.Runs

namespace OpenAgent.Desktop.CapabilityManager

open Py Checks

structure CapabilityConsent where
  enabled : Bool
  version : Int := 1
  updatedAt : Option String := none
deriving DecidableEq

structure LoopbackTarget where
  accountId : String
  baseUrl : String
  gatewayKey : String
  networkId : String
  deviceId : String
deriving DecidableEq

structure CapabilityServer where
  name : String
  tools : List String
  resourceProtocol : Option String := none
deriving DecidableEq

/-- `accountPrincipal`, without the two fields that every principal of the manager has alike. -/
structure Principal where
  accountId : String
  clientAccountId : String
  channelId : String
  deviceId : String
  generation : Nat
deriving DecidableEq

structure CapabilityProtocolError where
  code : String
  message : String
deriving DecidableEq

structure ToolCall extends ClientToolCall where
  networkId : Option String := none
  idempotencyKey : String
  argumentsSha256 : String

/-- What `invoke` hands to the host. -/
structure HostCall where
  call : ToolCall
  principal : Principal

/-- What `readResource` hands to the host. -/
structure HostRead where
  read : ClientResourceRead
  principal : Principal

inductive Request where
  | settled
  | hostStarting
  | start
  | status
  | setConsent (enabled : Bool)
  | catalog
  | releasePrincipal (principal : Principal)
  | hardStop
deriving DecidableEq

inductive Answer where
  | done
  | status (canonical : Option CapabilityConsent)
  | catalog (servers : List CapabilityServer)
  | failed
deriving DecidableEq

/-- Who awaits `refreshCatalog`. -/
inductive Refresher where
  | start (controlOnly : Bool)
  | enable
  | poll
  | tick
deriving DecidableEq

/-- Who awaits `persistEmergencyRevocation`. -/
inductive Revoker where
  | start (controlOnly : Bool)
  | poll
  | emergency
deriving DecidableEq

inductive Continuation where
  | initialized (controlOnly : Bool)
  | statusRead (controlOnly explicit : Bool)
  | startGranted (controlOnly : Bool)
  | principalReleased (controlOnly : Bool) (principal : Principal)
  | stalesReleased (controlOnly : Bool)
  | refreshing (caller : Refresher)
  | startServed (controlOnly : Bool)
  | persisting (caller : Revoker)
  | enabling (enabled : Bool)
  | consentWritten (enabled : Bool)
  | enableServed
  | runtimeDisabled
  | hardStopping
  | hardStopped
  | pollRead
  | pollPersisted
  | pollServed
  | pollDone
  | attaching (accountId : String)
  | removing (remaining : Option String)
  | emergencyHosted
deriving DecidableEq

/-- A suspended operation. `called` says that it was called after the latest revocation, and `fresh` that the host
answered its request after it had persisted that revocation. -/
structure Task where
  continuation : Continuation
  request : Request
  answer : Option Answer := none
  called : Bool := true
  fresh : Bool := false
deriving DecidableEq

/-- The manager, its host and three marks: a revocation was called and nothing has granted access since, the host has
persisted a refusal since, and an emergency was called and no refusal was acknowledged since. -/
structure State where
  consent : CapabilityConsent
  generation : Nat := 1
  servers : List CapabilityServer := []
  targets : Dict String LoopbackTarget := .empty
  sockets : Dict String String := .empty
  stalePrincipals : List Principal := []
  hostReady : Bool := false
  consentVerified : Bool := false
  hostStarting : Bool := false
  hostRetry : Bool := false
  catalogTimer : Bool := false
  statusTimer : Bool := false
  statusSync : Bool := false
  shuttingDown : Bool := false
  emergencyBlocked : Bool
  emergencyRevokePending : Bool
  consentWriteInProgress : Bool := false
  tasks : List Task := []
  hostRunning : Bool := false
  canonical : Bool
  revoked : Bool := false
  persisted : Bool := false
  emergency : Bool := false

def opening (cached : CapabilityConsent) (tombstone canonical : Bool) : State :=
  { consent := cached
    emergencyRevokePending := tombstone
    emergencyBlocked := tombstone || !cached.enabled
    canonical }

def cacheCanonical (s : State) (consent : CapabilityConsent) (now : String) : State :=
  { s with consent := { consent with updatedAt := some (consent.updatedAt.getD now) } }

def isBridge (request : Request) : Bool :=
  match request with
  | .settled | .hostStarting => false
  | .start | .status | .setConsent _ | .catalog | .releasePrincipal _ | .hardStop => true

def isPiped (request : Request) : Bool :=
  match request with
  | .settled | .hostStarting | .start | .hardStop => false
  | .status | .setConsent _ | .catalog | .releasePrincipal _ => true

def wait (s : State) (continuation : Continuation) (request : Request) (called : Bool) : State :=
  { s with
    tasks := s.tasks ++
      [{ continuation, request, called
         answer := if isPiped request && !s.hostRunning then some .failed
           else if request = .settled then some .done else none }] }

def settle (s : State) (continuation : Continuation) (answer : Answer) (called : Bool) : State :=
  { s with tasks := s.tasks ++ [{ continuation, request := .settled, answer := some answer, called }] }

def rejectPending (s : State) : State :=
  { s with tasks := s.tasks.map fun task =>
      if isPiped task.request then { task with answer := some .failed } else task }

def stopSockets (s : State) : State := { s with sockets := .empty }

def accountPrincipal (s : State) (accountId certifiedAccountId : String) :
    Except CapabilityProtocolError Principal := do
  let target ← found (s.targets.get? accountId)
    ⟨"account_context_unavailable", "Local capability account has no certified loopback binding"⟩
  refuse (certifiedAccountId ≠ target.networkId)
    ⟨"account_mismatch", "Capability call account does not match its certified loopback"⟩
  return { accountId := target.networkId, clientAccountId := accountId, channelId := target.gatewayKey,
           deviceId := target.deviceId, generation := s.generation }

def attachSocket (s : State) (accountId : String) : State :=
  if s.shuttingDown || s.emergencyBlocked || !s.consent.enabled || !s.hostReady then s
  else match s.targets.get? accountId with
  | none => s
  | some target =>
    if (s.sockets.get? target.gatewayKey).isSome then s
    else { s with sockets := s.sockets.set target.gatewayKey accountId }

def attachAll (s : State) : State := s.targets.keys.foldl attachSocket s

def startStatusPolling (s : State) : State :=
  if s.statusTimer || s.shuttingDown || !s.hostRunning then s else { s with statusTimer := true }

def startCatalogPolling (s : State) : State :=
  if s.catalogTimer || !s.consent.enabled || s.emergencyBlocked || s.emergencyRevokePending then s
  else { s with catalogTimer := true }

def scheduleHostRetry (s : State) : State :=
  if s.shuttingDown || s.hostRetry || s.hostStarting then s else { s with hostRetry := true }

def disableRuntime (s : State) : State :=
  startStatusPolling { stopSockets s with catalogTimer := false, hostReady := s.hostRunning, servers := [] }

/-- `ensureHost`, with what its caller then awaits. -/
def ensureHost (s : State) (controlOnly : Bool) : State × Request :=
  if s.shuttingDown then (s, .settled)
  else if s.hostReady && s.hostRunning && !s.emergencyRevokePending then
    let s := startStatusPolling s
    if !controlOnly && !s.emergencyBlocked && s.consentVerified && s.consent.enabled then (attachAll s, .settled)
    else (s, .settled)
  else if s.hostStarting then (s, .hostStarting)
  else ({ wait s (.initialized controlOnly) .start true with hostStarting := true }, .hostStarting)

/-- The end of the start, and of the promise that `ensureHost` has given out. -/
def startEnded (s : State) : State :=
  { s with
    hostStarting := false
    tasks := s.tasks.map fun task =>
      if task.request = .hostStarting then { task with answer := some .done } else task }

def startFailed (s : State) : State := scheduleHostRetry (startEnded { s with hostReady := false })

/-- A catalog as `sanitizeCatalog` leaves it: named servers, the first of each name, with their named tools. -/
def sanitizeCatalog (servers : List CapabilityServer) : List CapabilityServer :=
  servers.foldl (fun clean server =>
    if server.name = "" || clean.any (fun seen => seen.name = server.name) then clean
    else clean ++ [{ server with tools := server.tools.filter (fun tool => tool ≠ "") }]) []

def served (caller : Refresher) : Option Continuation :=
  match caller with
  | .start controlOnly => some (.startServed controlOnly)
  | .enable => some .enableServed
  | .poll => some .pollServed
  | .tick => none

def handBack (s : State) (continuation : Option Continuation) (answer : Answer) (called : Bool) : State :=
  match continuation with
  | some k => settle s k answer called
  | none => s

def refreshCatalog (s : State) (caller : Refresher) (called : Bool) : State :=
  if !s.consent.enabled || s.emergencyBlocked || s.emergencyRevokePending || !s.hostRunning then
    handBack s (served caller) .done called
  else wait s (.refreshing caller) .catalog called

def persistedFor (caller : Revoker) : Continuation :=
  match caller with
  | .start controlOnly => .startGranted controlOnly
  | .poll => .pollPersisted
  | .emergency => .hardStopping

def persistEmergencyRevocation (s : State) (caller : Revoker) (called : Bool) : State :=
  if !s.emergencyRevokePending then settle s (persistedFor caller) .done called
  else if !s.hostRunning then settle s (persistedFor caller) .failed called
  else wait s (.persisting caller) (.setConsent false) called

/-- An acknowledged `setConsent(false)` of `persistEmergencyRevocation`. -/
def revocationPersisted (s : State) (now : String) : State :=
  { cacheCanonical s { enabled := false } now with
    consentVerified := true
    emergencyBlocked := true
    stalePrincipals := []
    emergencyRevokePending := false }

def releaseNext (s : State) (controlOnly : Bool) : State :=
  match s.stalePrincipals with
  | [] => settle s (.stalesReleased controlOnly) .done true
  | principal :: _ => wait s (.principalReleased controlOnly principal) (.releasePrincipal principal) true

def releaseStalePrincipals (s : State) (controlOnly : Bool) : State :=
  if s.shuttingDown || !s.hostRunning then settle s (.stalesReleased controlOnly) .done true
  else releaseNext s controlOnly

def setEnabled (s : State) (enabled : Bool) : State :=
  if s.shuttingDown then s
  else
    let s := { stopSockets s with
      consentWriteInProgress := true
      emergencyBlocked := true
      emergencyRevokePending := !enabled && s.emergencyRevokePending }
    let (s, request) := ensureHost s true
    wait s (.enabling enabled) request true

def emergencyDisable (s : State) : State :=
  let s := { stopSockets s with emergencyRevokePending := true, emergencyBlocked := true }
  if s.shuttingDown then s
  else
    let s := { s with generation := s.generation + 1 }
    if s.hostRunning then persistEmergencyRevocation s .emergency true
    else
      let (s, request) := ensureHost s true
      wait s .emergencyHosted request true

def addLoopback (s : State) (target : LoopbackTarget) : State :=
  if target.accountId = "" || target.baseUrl = "" || target.gatewayKey = "" || target.networkId = "" ||
      target.deviceId = "" then s
  else
    let s := { s with targets := s.targets.set target.accountId target }
    if !s.emergencyBlocked && s.consentVerified && s.consent.enabled then
      let (s, request) := ensureHost s false
      wait s (.attaching target.accountId) request true
    else s

def rebind (s : State) (remaining : Option String) : State :=
  match remaining with
  | some accountId => if s.consent.enabled && !s.emergencyBlocked then attachSocket s accountId else s
  | none => s

def removeLoopback (s : State) (accountId : String) : State :=
  match s.targets.get? accountId with
  | none => s
  | some target =>
    let principal := (accountPrincipal s accountId target.networkId).toOption
    let s := { s with targets := s.targets.erase accountId }
    if s.shuttingDown then s
    else
      let remaining := s.targets.values.find? fun candidate => candidate.gatewayKey = target.gatewayKey
      if remaining.isSome && s.sockets.get? target.gatewayKey ≠ some accountId then s
      else
        let s := { s with sockets := s.sockets.erase target.gatewayKey }
        let rest := remaining.map (fun candidate => candidate.accountId)
        match s.hostRunning, principal with
        | true, some p => wait s (.removing rest) (.releasePrincipal p) true
        | _, _ => rebind s rest

def beginShutdown (s : State) : State :=
  if s.shuttingDown then s
  else
    { stopSockets s with
      shuttingDown := true
      hostRetry := false
      catalogTimer := false
      statusTimer := false }

def handleHostExit (s : State) : State :=
  let s := { s with catalogTimer := false, statusTimer := false, hostReady := false }
  if s.shuttingDown then stopSockets s
  else
    let stale := s.sockets.values.filterMap fun accountId =>
      (s.targets.get? accountId).bind fun target => (accountPrincipal s accountId target.networkId).toOption
    scheduleHostRetry
      { stopSockets s with
        stalePrincipals := stale.foldl (fun l p => if p ∈ l then l else l ++ [p]) s.stalePrincipals }

def hardStop (s : State) : State :=
  wait { rejectPending s with hostRunning := false } .hardStopped .hardStop true

def startGranted (s : State) (controlOnly : Bool) : State :=
  releaseStalePrincipals (startStatusPolling s) controlOnly

def startRead (s : State) (controlOnly : Bool) (consent : CapabilityConsent) (now : String) : State :=
  let s := { cacheCanonical s consent now with consentVerified := true }
  if s.emergencyRevokePending then persistEmergencyRevocation s (.start controlOnly) true
  else if s.consentWriteInProgress then startGranted s controlOnly
  else startGranted { s with emergencyBlocked := !consent.enabled } controlOnly

def pollEnded (s : State) : State := { s with statusSync := false }

def pollRead (s : State) (canonical : CapabilityConsent) (called : Bool) (now : String) : State :=
  let enabledChanged := canonical.enabled ≠ s.consent.enabled
  let metadataChanged := canonical.version ≠ s.consent.version ∨ canonical.updatedAt ≠ s.consent.updatedAt
  if ¬ enabledChanged ∧ ¬ metadataChanged then pollEnded s
  else
    let s := { cacheCanonical s canonical now with consentVerified := true }
    if ¬ enabledChanged then pollEnded s
    else
      let s := { s with generation := s.generation + 1, emergencyBlocked := !canonical.enabled }
      if canonical.enabled then refreshCatalog { s with hostReady := true } .poll called
      else settle (disableRuntime s) .pollDone .done called

/-- `syncCanonicalConsent`, at a tick of the status timer. -/
def syncCanonicalConsent (s : State) : State :=
  if s.statusSync || s.shuttingDown || !s.hostRunning || s.consentWriteInProgress then s
  else
    let s := { s with statusSync := true }
    if s.emergencyRevokePending then persistEmergencyRevocation s .poll true
    else wait s .pollRead .status true

def writeEnded (s : State) : State := { s with consentWriteInProgress := false }

def consentWritten (s : State) (enabled called : Bool) (now : String) : State :=
  let s := { cacheCanonical { s with emergencyRevokePending := false, emergencyBlocked := !enabled }
      { enabled } now with
    consentVerified := true
    generation := s.generation + 1 }
  if enabled then refreshCatalog { s with hostReady := true } .enable called
  else settle (disableRuntime s) .runtimeDisabled .done called

def proceed (s : State) (task : Task) (answer : Answer) (now : String) : State :=
  match task.continuation, answer with
  | .initialized c, .done => wait { s with hostReady := true } (.statusRead c false) .status task.called
  | .initialized c, .status (some consent) => startRead { s with hostReady := true } c consent now
  | .initialized c, .status none => wait { s with hostReady := true } (.statusRead c true) .status task.called
  | .statusRead c _, .status (some consent) => startRead s c consent now
  | .statusRead c false, .status none => wait s (.statusRead c true) .status task.called
  | .startGranted c, .done => startGranted s c
  | .principalReleased c principal, .done =>
    releaseNext { s with stalePrincipals := s.stalePrincipals.erase principal } c
  | .principalReleased c _, .failed => settle s (.stalesReleased c) .failed task.called
  | .stalesReleased c, .done =>
    if s.consent.enabled && !s.emergencyBlocked && !s.emergencyRevokePending then
      refreshCatalog s (.start c) task.called
    else startEnded s
  | .startServed true, .done => startEnded (startCatalogPolling s)
  | .startServed false, .done => startEnded (attachAll (startCatalogPolling s))
  | .initialized _, _ | .statusRead _ _, _ | .startGranted _, _ | .stalesReleased _, _ | .startServed _, _ =>
    startFailed s
  | .refreshing caller, .catalog servers =>
    handBack { s with servers := sanitizeCatalog servers } (served caller) .done task.called
  | .refreshing caller, _ => handBack s (served caller) .failed task.called
  | .persisting caller, .done => settle (revocationPersisted s now) (persistedFor caller) .done task.called
  | .persisting caller, _ => settle s (persistedFor caller) .failed task.called
  | .enabling enabled, _ =>
    if s.hostRunning then wait s (.consentWritten enabled) (.setConsent enabled) task.called else writeEnded s
  | .consentWritten enabled, .done => consentWritten s enabled task.called now
  | .enableServed, .done => writeEnded (attachAll (startCatalogPolling s))
  | .consentWritten _, _ | .enableServed, _ | .runtimeDisabled, _ => writeEnded s
  | .emergencyHosted, _ =>
    if s.hostRunning then persistEmergencyRevocation s .emergency task.called else hardStop s
  | .hardStopping, _ => hardStop s
  | .hardStopped, .done => scheduleHostRetry { s with hostReady := false, servers := [] }
  | .pollRead, .status (some consent) => pollRead s consent task.called now
  | .pollPersisted, .done => settle (disableRuntime s) .pollDone .done task.called
  | .pollServed, .done => pollEnded (attachAll (startCatalogPolling s))
  | .pollRead, _ | .pollPersisted, _ | .pollServed, _ | .pollDone, _ => pollEnded s
  | .attaching accountId, _ => attachSocket s accountId
  | .removing remaining, _ => rebind s remaining
  | .principalReleased _ _, _ | .hardStopped, _ => s

/-- The answers that the host can give now; `start` finds the host running or has its first status. -/
def replies (s : State) (request : Request) (answer : Answer) : Bool :=
  match request, answer with
  | .start, .done | .setConsent _, .done | .releasePrincipal _, .done | .catalog, .catalog _ => s.hostRunning
  | .start, .status reply | .status, .status reply =>
    s.hostRunning && reply.all (fun consent => consent.enabled = s.canonical)
  | .hardStop, .done => true
  | request, .failed => isBridge request
  | _, _ => false

def stores (s : State) (enabled : Bool) : State :=
  { s with canonical := enabled, persisted := s.persisted || !enabled }

def handled (s : State) (request : Request) (answer : Answer) : State :=
  match request, answer with
  | .setConsent enabled, .done => stores s enabled
  | _, _ => s

inductive Event where
  | start
  | setEnabled (enabled : Bool)
  | emergencyDisable
  | addLoopback (target : LoopbackTarget)
  | removeLoopback (accountId : String)
  | beginShutdown
  | retryFires
  | catalogTick
  | catalogChanged
  | pollTick
  | hostSpawns
  | hostExits
  | hostStops
  | hostDecides (enabled : Bool)
  | answers (index : Nat) (answer : Answer)
  | resumes (index : Nat) (now : String)

def step (s : State) (event : Event) : Option State :=
  match event with
  | .start => some (ensureHost s false).1
  | .setEnabled enabled => some (setEnabled s enabled)
  | .emergencyDisable => some (emergencyDisable s)
  | .addLoopback target => some (addLoopback s target)
  | .removeLoopback accountId => some (removeLoopback s accountId)
  | .beginShutdown => some (beginShutdown s)
  | .retryFires =>
    if s.hostRetry then some (ensureHost { s with hostRetry := false } s.emergencyRevokePending).1 else none
  | .catalogTick => if s.catalogTimer then some (refreshCatalog s .tick true) else none
  | .catalogChanged => some (if s.shuttingDown then s else refreshCatalog s .tick true)
  | .pollTick => if s.statusTimer then some (syncCanonicalConsent s) else none
  | .hostSpawns =>
    if s.tasks.any (fun task => task.request = .start && task.answer.isNone) then
      some { s with hostRunning := true }
    else none
  | .hostExits =>
    if s.hostRunning then some (handleHostExit { rejectPending s with hostRunning := false }) else none
  | .hostStops => some { rejectPending s with hostRunning := false }
  | .hostDecides enabled => some (stores s enabled)
  | .answers i answer =>
    match s.tasks[i]? with
    | some task =>
      if (task.answer.isNone || answer = .failed) && replies s task.request answer then
        some (handled { s with tasks := s.tasks.set i { task with answer := some answer, fresh := s.persisted } }
          task.request answer)
      else none
    | none => none
  | .resumes i now =>
    match s.tasks[i]? with
    | some task =>
      match task.answer with
      | some answer => some (proceed { s with tasks := s.tasks.eraseIdx i } task answer now)
      | none => none
    | none => none

def Task.grants (task : Task) (answer : Answer) : Bool :=
  match task.continuation, answer with
  | .consentWritten true, .done => task.called
  | .initialized _, .status (some consent) | .statusRead _ _, .status (some consent) =>
    consent.enabled && task.fresh
  | .pollRead, .status (some consent) => consent.enabled && task.called && task.fresh
  | _, _ => false

def Task.relieves (task : Task) (answer : Answer) : Bool :=
  match task.continuation, answer with
  | .persisting .poll, .done => task.called
  | .persisting _, .done | .consentWritten false, .done => true
  | _, _ => false

def revoke (s : State) : State :=
  { s with
    revoked := true
    persisted := false
    tasks := s.tasks.map fun task => { task with called := false, fresh := false } }

def mark (s : State) (event : Event) : State :=
  match event with
  | .setEnabled true => if s.shuttingDown then s else { s with emergency := false }
  | .setEnabled false => if s.shuttingDown then s else revoke s
  | .emergencyDisable => { revoke s with emergency := true }
  | .resumes i _ =>
    match s.tasks[i]? with
    | some task =>
      match task.answer with
      | some answer =>
        { s with
          revoked := s.revoked && !task.grants answer
          emergency := s.emergency && !task.relieves answer }
      | none => s
    | none => s
  | _ => s

def next (s : State) (event : Event) : Option State := step (mark s event) event

def invoke (s : State) (accountId : String) (call : ToolCall) : Except CapabilityProtocolError HostCall := do
  refuse (s.emergencyBlocked || !s.consent.enabled) ⟨"consent_required", "Local computer access is disabled"⟩
  refuse (!s.hostReady || !s.hostRunning) ⟨"host_unavailable", "Local capability host is unavailable"⟩
  let server := s.servers.find? fun server => server.name = call.server
  refuse (!server.any fun server => server.tools.contains call.tool)
    ⟨"unknown_tool", "Tool " ++ call.server ++ "." ++ call.tool ++ " is not in this client's advertised catalog"⟩
  let target := s.targets.get? accountId
  refuse (call.networkId.isSome && call.networkId ≠ target.map (fun target => target.networkId))
    ⟨"network_mismatch", "Capability call network does not match its certified loopback"⟩
  let principal ← accountPrincipal s accountId call.accountId
  return { call, principal }

def readResource (s : State) (accountId : String) (call : ClientResourceRead) :
    Except CapabilityProtocolError HostRead := do
  let target := s.targets.get? accountId
  let server := s.servers.find? fun server => server.name = call.server
  refuse (s.emergencyBlocked || !s.consent.enabled || !s.hostReady || !s.hostRunning || target.isNone ||
      (call.networkId.isSome && call.networkId ≠ target.map (fun target => target.networkId)) ||
      server.bind (fun server => server.resourceProtocol) ≠ some "mcp-app-resources/1")
    ⟨"capability_revoked", "Exact resource host is unavailable"⟩
  let principal ← accountPrincipal s accountId call.accountId
  return { read := call, principal }

end OpenAgent.Desktop.CapabilityManager
