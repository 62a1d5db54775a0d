import OpenAgent.Gateway.Capabilities.Shells

namespace OpenAgent.Gateway.Capabilities

open Py

def capabilityHeartbeatTimeout : Int := 90000
def maxActiveCapabilityConnections : Nat := 128
def maxActiveCapabilityConnectionsPerDevice : Nat := 8
def maxKnownClientInstances : Nat := 4096
def maxKnownClientInstancesPerDevice : Nat := 64

/-- What `register` is called with. `generation` and `authEpoch` are `none` where `int` raises, and
`currentAuthEpoch` is what the epoch reader returns under the lock, `none` without a reader. -/
structure Hello where
  deviceId : String
  accountId : String
  clientInstanceId : String
  generation : Option Int
  deviceLabel : String
  wsClosed : Bool := false
  servers : Except ClientCapabilityError Catalog
  mediaProtocols : Json := .null
  networkId : Option String := none
  authEpoch : Option Int := some 0
  currentAuthEpoch : Option Int := none

def indeterminateError (p : PendingCall) : ClientCapabilityError :=
  ⟨"CLIENT_RESULT_INDETERMINATE", "the client connection ended after a mutating tool call was sent; " ++
      "the operation may have taken effect and will not be retried",
    .obj [("classification", .str p.classification.text), ("retryable", .bool false)]⟩

def FutureState.done : FutureState → Bool
  | .waiting => false
  | _ => true

def Classification.safeToRetry : Classification → Bool
  | .readOnly | .idempotent => true
  | .mutating => false

def transportError (code : String) : Bool := code == "CLIENT_OFFLINE" || code == "CLIENT_REPLACED"

def failFuture (code message : String) (p : PendingCall) : PendingCall :=
  if p.future.done then p
  else
    { p with future := .exception (if p.resultMayBeIndeterminate then indeterminateError p
        else ⟨code, message, .obj [("classification", .str p.classification.text),
          ("retryable", .bool (transportError code && p.classification.safeToRetry))]⟩) }

def devicesOf {α : Type} (d : Dict Key α) (deviceId : String) : Nat :=
  d.sumBy (fun k _ => if k.1 = deviceId then 1 else 0)

/-- The connection object of a hello that passes the checks `register` makes before its lock. -/
def Hello.connection (h : Hello) : Except ClientCapabilityError CapabilityConnection :=
  let clientInstanceId := strip h.clientInstanceId
  let deviceLabel := if strip h.deviceLabel = "" then "Client device" else strip h.deviceLabel
  let generation := h.generation.getD 0
  let authEpoch := h.authEpoch.getD (-1)
  if clientInstanceId = "" ∨ clientInstanceId.length > 200 then
    .error ⟨"INVALID_HELLO", "client_instance_id is required (max 200 characters)", .null⟩
  else if generation < 1 then .error ⟨"INVALID_HELLO", "generation must be >= 1", .null⟩
  else if authEpoch < 0 then .error ⟨"INVALID_HELLO", "auth_epoch must be non-negative", .null⟩
  else match h.servers with
  | .error e => .error e
  | .ok catalog =>
    if h.mediaProtocols ∉ [.null, .arr [], .arr [.str "openagent-video/1"]] then
      .error ⟨"INVALID_HELLO", "Unsupported live media protocol", .null⟩
    else .ok
      { deviceId := h.deviceId, accountId := h.accountId, clientInstanceId, generation
        deviceLabel := prefixOf 200 deviceLabel, wsClosed := h.wsClosed, catalog
        networkId := h.networkId.map strip, authEpoch }

namespace World

/-- `_fail_pending`: every call still pending on a connection ends, and its table is cleared. -/
def failPending (w : World) (c : ConnId) (code message : String) : World :=
  { w with pending := fun r =>
      if r ∈ (w.conn c).pending.values then failFuture code message (w.pending r) else w.pending r }.setConn c
    (fun conn => { conn with pending := Dict.empty })

def removeConnection (w : World) (c : ConnId) : World :=
  if w.registered c then
    ({ w with connections := w.connections.erase (w.conn c).key }).emit (.connectionRemoved c)
  else w

/-- What `register` refuses under its lock, in the order it checks. -/
def refusal (w : World) (conn : CapabilityConnection) (currentAuthEpoch : Option Int) : Option ClientCapabilityError :=
  if currentAuthEpoch.getD conn.authEpoch ≠ conn.authEpoch ∨ conn.authEpoch < w.blockEpoch conn.deviceId then
    some ⟨"CLIENT_REVOKED", "device authorization changed before capability registration",
      .obj [("retryable", .bool false)]⟩
  else if w.generationFloor.get? conn.key = none ∧ w.generationFloor.size ≥ maxKnownClientInstances then
    some ⟨"CLIENT_INSTANCE_QUOTA", "gateway client-instance history limit reached", .null⟩
  else if w.generationFloor.get? conn.key = none ∧
      devicesOf w.generationFloor conn.deviceId ≥ maxKnownClientInstancesPerDevice then
    some ⟨"CLIENT_INSTANCE_QUOTA", "device client-instance history limit reached", .null⟩
  else if w.connections.get? conn.key = none ∧ w.connections.size ≥ maxActiveCapabilityConnections then
    some ⟨"CAPABILITY_CONNECTION_QUOTA", "gateway capability connection limit reached", .null⟩
  else if w.connections.get? conn.key = none ∧
      devicesOf w.connections conn.deviceId ≥ maxActiveCapabilityConnectionsPerDevice then
    some ⟨"CAPABILITY_CONNECTION_QUOTA", "device capability connection limit reached", .null⟩
  else if conn.generation < w.floor conn.key then
    some ⟨"STALE_GENERATION",
      s!"generation {conn.generation} is older than accepted generation {w.floor conn.key}", .null⟩
  else none

def accept (w : World) (h : Hello) : Except ClientCapabilityError CapabilityConnection :=
  match h.connection with
  | .error e => .error e
  | .ok conn =>
    match w.refusal conn h.currentAuthEpoch with
    | some e => .error e
    | none => .ok conn

def otherGeneration (key : Key) (generation : Int) (k : HostKey) : Bool :=
  k.1 == key.1 && k.2.1 == key.2 && k.2.2 != generation

def restorable (w : World) (conn : CapabilityConnection) (now : Int) : Option DetachedClientShells :=
  (w.detachedShells.get? conn.clientHost).filter (fun d => !graceOver now d)

def displaced (w : World) (conn : CapabilityConnection) (now : Int) : List DetachedClientShells :=
  ((w.detachedShells.get? conn.clientHost).filter (graceOver now)).toList ++
    ((w.detachedShells.erase conn.clientHost).filter (fun k _ => otherGeneration conn.key conn.generation k)).values

/-- The locked part of an accepted `register`, with the restored bindings already in place. -/
def install (w : World) (conn : CapabilityConnection) (now : Int) : World :=
  { w with
    detachedShells := (w.detachedShells.erase conn.clientHost).filter
      (fun k _ => !otherGeneration conn.key conn.generation k)
    connections := w.connections.set conn.key w.nextConn
    generationFloor := w.generationFloor.set conn.key (max (w.floor conn.key) conn.generation)
    conn := Function.update w.conn w.nextConn { conn with
      lastSeenAt := now
      clientShells := Dict.empty.update (((w.restorable conn now).map DetachedClientShells.bindings).getD Dict.empty) }
    nextConn := w.nextConn + 1 }

def handOver (w : World) (old c : ConnId) : World :=
  (w.setConn c (fun conn =>
    { conn with clientShells := conn.clientShells.update (w.conn old).clientShells })).setConn old
    (fun conn => { conn with clientShells := Dict.empty })

/-- What `register` does to the connection it replaced. -/
def replaceOld (w : World) (old c : ConnId) (now : Int) : World :=
  let inherited :=
    if (w.conn old).generation = (w.conn c).generation then w.handOver old c
    else w.orphanShellBindings (w.conn old).clientShells.values "CLIENT_REPLACED" now
  (inherited.emit (.connectionRemoved old)).failPending old "CLIENT_REPLACED" "capability host was replaced"

def commitRegister (w : World) (conn : CapabilityConnection) (now : Int) : World :=
  let installed := (w.install conn now).orphanDetached (w.displaced conn now) "CLIENT_REPLACED" now
  match w.connections.get? conn.key with
  | none => installed
  | some old => installed.replaceOld old w.nextConn now

def register (w : World) (h : Hello) (now : Int) : World × Except ClientCapabilityError ConnId :=
  match w.accept h with
  | .error e => (w, .error e)
  | .ok conn => (w.commitRegister conn now, .ok w.nextConn)

def updateCatalog (w : World) (c : ConnId) (generation : Int)
    (servers : Except ClientCapabilityError Catalog) : World × Except ClientCapabilityError Unit :=
  if generation ≠ (w.conn c).generation then
    (w, .error ⟨"STALE_GENERATION", "catalog generation does not match connection", .null⟩)
  else match servers with
  | .error e => (w, .error e)
  | .ok catalog =>
    if ¬ w.registered c then
      (w, .error ⟨"CLIENT_OFFLINE", "capability connection is no longer current", .null⟩)
    else if w.blockEpoch (w.conn c).deviceId > (w.conn c).authEpoch then
      (w, .error ⟨"CLIENT_REVOKED", "device authorization was revoked", .obj [("retryable", .bool false)]⟩)
    else (w.setConn c (fun conn => { conn with catalog }), .ok ())

def unregister (w : World) (c : ConnId) (code message : String) (now : Int) : World :=
  (if w.registered c then (w.removeConnection c).detachShells c now now else w).failPending c code message

def revokedBelow (w : World) (deviceId : String) (revocationEpoch : Option Int) : Int :=
  match revocationEpoch with
  | some epoch => epoch
  | none =>
    let epochs := (w.connections.entries.filter (fun e => e.1.1 = deviceId)).map (fun e => (w.conn e.2).authEpoch + 1)
    epochs.foldl max (max 1 (w.blockEpoch deviceId + 1))

def revokedConnections (w : World) (deviceId : String) (epoch : Int) : List ConnId :=
  ((w.connections.entries.filter (fun e => e.1.1 = deviceId && decide ((w.conn e.2).authEpoch < epoch))).map Prod.snd)

def revokeConnection (reason : String) (now : Int) (w : World) (c : ConnId) : World :=
  (w.failPending c "CLIENT_REVOKED" reason).orphanShellBindings (w.conn c).clientShells.values "CLIENT_REVOKED" now

def closeDevice (w : World) (deviceId reason : String) (revocationEpoch : Option Int) (now : Int) : World :=
  let epoch := w.revokedBelow deviceId revocationEpoch
  let targets := w.revokedConnections deviceId epoch
  let detached := (w.detachedShells.filter (fun k _ => k.1 == deviceId)).values
  let locked := targets.foldl removeConnection
    { w with
      deviceBlockEpoch := w.deviceBlockEpoch.set deviceId (max (w.blockEpoch deviceId) epoch)
      detachedShells := w.detachedShells.filter (fun k _ => k.1 != deviceId) }
  (targets.foldl (revokeConnection reason now) locked).orphanDetached detached "CLIENT_REVOKED" now

def staleConnections (w : World) (checkedAt maxIdle : Int) : List ConnId :=
  w.connections.values.filter (fun c => checkedAt - (w.conn c).lastSeenAt > max 100 maxIdle)

def reapRest (now : Int) (expired : List DetachedClientShells) (w : World) : List ConnId → World × Option Sweep
  | [] => (w.orphanDetached expired "CLIENT_OFFLINE" now, none)
  | c :: stale =>
    let failed := w.failPending c "CLIENT_OFFLINE" "client capability heartbeat expired"
    if (w.conn c).wsClosed then reapRest now expired failed stale
    else (failed, some (.reap stale expired))

def dropStale (checkedAt now : Int) (w : World) (c : ConnId) : World :=
  if w.registered c then (w.removeConnection c).detachShells c checkedAt now else w

/-- The locked part of `reap_stale`. -/
def reapLocked (w : World) (checkedAt maxIdle now : Int) : World × List DetachedClientShells :=
  let dropped := (w.staleConnections checkedAt maxIdle).foldl (dropStale checkedAt now) w
  let swept := expireDetachedShells dropped.detachedShells checkedAt
  ({ dropped with detachedShells := swept.1 }, swept.2)

def reapStale (w : World) (checkedAt maxIdle now : Int) : World × Option Sweep :=
  let locked := w.reapLocked checkedAt maxIdle now
  reapRest now locked.2 locked.1 (w.staleConnections checkedAt maxIdle)

def orphanLedger (w : World) (now : Int) : World :=
  ({ w with detachedShells := Dict.empty }).orphanDetached w.detachedShells.values "GATEWAY_SHUTDOWN" now

/-- `close_all` from some connection of its list on. -/
def closeRest (now : Int) (w : World) : List ConnId → World × Option Sweep
  | [] => (w.orphanLedger now, none)
  | c :: rest =>
    let closed := w.unregister c "CLIENT_OFFLINE" "client capability host disconnected" now
    if (w.conn c).wsClosed then closeRest now closed rest else (closed, some (.shutdown rest))

def closeAll (w : World) (now : Int) : World × Option Sweep := closeRest now w w.connections.values

end World

end OpenAgent.Gateway.Capabilities
