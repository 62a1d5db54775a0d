import OpenAgent.Identity.Store

namespace OpenAgent.Identity.Auth

open Py

inductive Lookup where
  | row (status : Option String)
  | missing
  | raised (isException : Bool)

inductive AuthKind where
  | httpToken
  | agent
  | deviceCert
  deriving DecidableEq

structure Annotations where
  deviceCert : DeviceCert
  clientId : String
  userHandle : String
  networkId : String
  deviceAuthEpoch : Option Nat
  authKind : AuthKind

inductive Verdict where
  | handed (annotations : Option Annotations)
  | response (status : Nat) (text : String)
  | raised

inductive Mark where
  | snapshot (device : Bytes) (epoch : Nat)
  | disconnected (device : Bytes)
  | notified (listener : Nat) (device : Bytes)
  | verdict (v : Verdict)
  | isActive (active : Except Bool Bool)
  | authorized (ok : Bool)
  | revalidated (disconnected : List Bytes)

abbrev Listener := Nat

structure NetworkAuthState where
  revokedPubkeys : List Bytes
  observedActiveDevices : List Bytes
  deviceEpochs : Dict Bytes Nat
  revocationListeners : List Listener

structure Ledger where
  state : NetworkAuthState
  marks : List Mark := []

structure Turn where
  now : Time
  tokenBytes : Bytes := []
  lookup : Bytes → Lookup := fun _ => .missing

namespace Lookup

/-- `row is not None and getattr(row, "status", None) == "active"`, or the exception. -/
def active : Lookup → Except Bool Bool
  | row status => .ok (status = some "active")
  | missing => .ok false
  | raised isException => .error isException

end Lookup

namespace NetworkAuthState

def new (revokedPubkeys : List Bytes) (revocationListeners : List Listener) : NetworkAuthState where
  revokedPubkeys := revokedPubkeys
  observedActiveDevices := []
  deviceEpochs := Dict.empty
  revocationListeners := revocationListeners

def deviceEpoch (s : NetworkAuthState) (devicePubkey : Bytes) : Nat := (s.deviceEpochs.get? devicePubkey).getD 0

def observe (s : NetworkAuthState) (key : Bytes) : NetworkAuthState :=
  { s with observedActiveDevices := s.observedActiveDevices.insert key }

def discard (s : NetworkAuthState) (key : Bytes) : NetworkAuthState :=
  { s with observedActiveDevices := s.observedActiveDevices.filter (· ≠ key) }

end NetworkAuthState

namespace Ledger

def note (l : Ledger) (m : Mark) : Ledger := { l with marks := l.marks ++ [m] }

def disconnect (l : Ledger) (key : Bytes) : Ledger where
  state := { l.state with deviceEpochs := l.state.deviceEpochs.set key (l.state.deviceEpoch key + 1) }
  marks := l.marks ++ .disconnected key :: l.state.revocationListeners.map (.notified · key)

def discard (l : Ledger) (key : Bytes) : Ledger := { l with state := l.state.discard key }

def revoke (l : Ledger) (key : Bytes) : Ledger :=
  ({ l with state := { l.state with revokedPubkeys := l.state.revokedPubkeys.insert key } }.discard key).disconnect key

/-- `device_is_active`, from the roster's answer on: the watch follows the answer. -/
def deviceIsActive (l : Ledger) (key : Bytes) (answer : Except Bool Bool) : Except Bool Bool × Ledger :=
  match answer with
  | .error isException => (.error isException, l)
  | .ok true => (.ok true, { l with state := l.state.observe key })
  | .ok false => (.ok false, l.discard key)

end Ledger

/-- What the middleware is built with: the certificate's check, which may reject or raise, the key of a node id, and the
peers' policy. -/
structure Middleware where
  networkId : String
  httpToken : String
  llmToken : String
  hasLookup : Bool
  verifyCert : Bytes → Time → Except (Option String) DeviceCert
  irohNodeIdPublicBytes : String → Option Bytes
  sha256 : Bytes → Bytes
  checkPeerRequest : String → String → String → Option String

structure Request where
  method : String
  path : String
  xToken : String := ""
  authorization : String := ""
  handleHint : String := ""
  isAgent : Bool := false
  peerNodeId : String := ""
  certWire : Bytes := []

def hex (b : Bytes) : String :=
  String.ofList (b.flatMap (fun x => [hexDigit (x.toNat / 16), hexDigit (x.toNat % 16)]))

/-- `a or b`. -/
def orElse (a b : String) : String := if a = "" then b else a

/-- `secrets.compare_digest` of text, which raises unless both are ASCII. -/
def compareDigest (a b : String) : Except Verdict Bool :=
  if a.toList.all (fun c => c.toNat < 128) && b.toList.all (fun c => c.toNat < 128) then .ok (a = b)
  else .error .raised

def anyAccepted (candidates accepted : List String) : Except Verdict Bool :=
  (candidates.flatMap (fun c => accepted.map (fun tok => (c, tok)))).foldlM
    (fun found p => if found then .ok true else compareDigest p.1 p.2) false

namespace Request

def candidates (r : Request) : List String :=
  let xToken := strip r.xToken
  let authz := strip r.authorization
  let bearer := if lower (prefixOf 7 authz) = "bearer " then strip (String.ofList (authz.toList.drop 7)) else ""
  [xToken, bearer].filter (· ≠ "")

end Request

namespace Middleware

variable (G : Middleware)

def accepted (path : String) : List String :=
  (if G.httpToken ≠ "" then [G.httpToken] else []) ++
    if G.llmToken ≠ "" && "/api/llm/".toList.isPrefixOf path.toList then [G.llmToken] else []

def annotated (cert : DeviceCert) (deviceAuthEpoch : Option Nat) (authKind : AuthKind) (networkId : String) : Verdict :=
  .handed (some ⟨cert, hex cert.devicePubkey, cert.handle, networkId, deviceAuthEpoch, authKind⟩)

def tokenAccess (r : Request) (t : Turn) : Verdict :=
  let handle := prefixOf 64 (orElse r.handleHint "http-bridge")
  annotated ⟨handle, t.tokenBytes, G.networkId, t.now, t.now + 365 * 24 * 3600, []⟩ none .httpToken G.networkId

def agentAccess (r : Request) (t : Turn) : Verdict :=
  let peerId := orElse r.peerNodeId "unknown-agent"
  match G.checkPeerRequest peerId r.method r.path with
  | some denial => .response 403 denial
  | none =>
    let devicePubkey := G.sha256 ("agent:" ++ peerId).toUTF8.toList
    annotated ⟨"agent:" ++ prefixOf 16 peerId, devicePubkey, G.networkId, t.now, t.now + 3600, ["agent"]⟩ none
      .agent G.networkId

def verified (wire : Bytes) (now : Time) : Except Verdict DeviceCert :=
  match G.verifyCert wire now with
  | .ok cert => .ok cert
  | .error none => .error .raised
  | .error (some e) => .error (.response 401 ("cert rejected: " ++ e))

def deviceCert (r : Request) (t : Turn) : Except Verdict DeviceCert := do
  if r.certWire.isEmpty then throw (.response 401 "missing device cert")
  let cert ← G.verified r.certWire t.now
  match G.irohNodeIdPublicBytes r.peerNodeId with
  | none => throw (.response 401 "device cert peer identity unavailable")
  | some peerPubkey =>
    if peerPubkey ≠ cert.devicePubkey then throw (.response 401 "device cert does not belong to Iroh peer")
    else return cert

/-- `auth_middleware` up to the device's epoch: a verdict, or the certificate of a device to look up. -/
def certify (r : Request) (t : Turn) (s : NetworkAuthState) : Except Verdict DeviceCert := do
  if r.method = "OPTIONS" then throw (.handed none)
  if r.path = "/api/health" then throw (.handed none)
  if ← anyAccepted r.candidates (G.accepted r.path) then throw (G.tokenAccess r t)
  if r.isAgent then throw (G.agentAccess r t)
  let cert ← G.deviceCert r t
  if s.revokedPubkeys.contains cert.devicePubkey then throw (.response 401 "device revoked")
  return cert

/-- `auth_middleware` from the answer on the device's liveness to the handler. -/
def judge (cert : DeviceCert) (deviceAuthEpoch : Nat) (deviceActive : Except Bool Bool) (l : Ledger) : Ledger :=
  match deviceActive with
  | .error false => l.note (.verdict .raised)
  | .error true => l.note (.verdict (.response 503 "device membership unavailable"))
  | .ok false => (l.disconnect cert.devicePubkey).note (.verdict (.response 401 "device inactive or removed"))
  | .ok true =>
    if l.state.deviceEpoch cert.devicePubkey ≠ deviceAuthEpoch then
      l.note (.verdict (.response 401 "device authorization changed"))
    else l.note (.verdict (annotated cert (some deviceAuthEpoch) .deviceCert cert.networkId))

def unrevoked (key : Bytes) (s : NetworkAuthState) : Except Bool Bool := .ok (!s.revokedPubkeys.contains key)

end Middleware

inductive Call where
  | authMiddleware (request : Request)
  | deviceIsActive (devicePubkey : Bytes)
  | requestDeviceStillAuthorized (annotations : Option Annotations) (cert : DeviceCert)
  | revalidateObservedDevices
  | revoke (devicePubkey : Bytes)
  | disconnect (devicePubkey : Bytes)

/-- Where an operation is: before its first turn, waiting for the roster, or over. -/
inductive Stage where
  | start (call : Call)
  | authenticating (cert : DeviceCert) (deviceAuthEpoch : Nat)
  | looking (key : Bytes)
  | confirming (cert : DeviceCert) (expectedEpoch : Nat)
  | polling (keys : List Bytes)
  | ended

/-- `check`: an exception counts as inactive. -/
def check (answer : Lookup) : Except Bool Bool :=
  match answer.active with
  | .error true => .ok false
  | active => active

def Ledger.closeInactive (l : Ledger) (results : List (Bytes × Bool)) : Ledger :=
  results.foldl (fun l p => if p.2 then l else (l.discard p.1).disconnect p.1) l

/-- `device_is_active` for a caller of its own. -/
def Ledger.askActive (l : Ledger) (key : Bytes) (answer : Except Bool Bool) : Ledger :=
  let (active, l) := l.deviceIsActive key answer
  l.note (.isActive active)

/-- `_request_device_still_authorized` after the lookup. -/
def stillActive (cert : DeviceCert) (expectedEpoch : Nat) (deviceActive : Except Bool Bool) (l : Ledger) : Ledger :=
  match deviceActive with
  | .error false => l
  | .error true | .ok false => (l.disconnect cert.devicePubkey).note (.authorized false)
  | .ok true => l.note (.authorized (l.state.deviceEpoch cert.devicePubkey = expectedEpoch))

namespace Middleware

variable (G : Middleware)

def begin (call : Call) (t : Turn) (l : Ledger) : Stage × Ledger :=
  match call with
  | .authMiddleware r =>
    match G.certify r t l.state with
    | .error v => (.ended, l.note (.verdict v))
    | .ok cert =>
      let key := cert.devicePubkey
      let epoch := l.state.deviceEpoch key
      let l := l.note (.snapshot key epoch)
      if cert.capabilities.contains "bridge" then (.ended, judge cert epoch (.ok true) l)
      else if G.hasLookup then (.authenticating cert epoch, l)
      else
        let (active, l) := l.deviceIsActive key (unrevoked key l.state)
        (.ended, judge cert epoch active l)
  | .deviceIsActive key =>
    if G.hasLookup then (.looking key, l) else (.ended, l.askActive key (unrevoked key l.state))
  | .requestDeviceStillAuthorized annotations cert =>
    match annotations.filter (fun a => a.authKind = .deviceCert) with
    | none => (.ended, l.note (.authorized true))
    | some a =>
      let key := cert.devicePubkey
      match a.deviceAuthEpoch with
      | none => (.ended, l.note (.authorized false))
      | some expected =>
        if l.state.deviceEpoch key ≠ expected ∨ l.state.revokedPubkeys.contains key then
          (.ended, l.note (.authorized false))
        else if cert.capabilities.contains "bridge" then (.ended, l.note (.authorized true))
        else if G.hasLookup then (.confirming cert expected, l)
        else
          let (active, l) := l.deviceIsActive key (unrevoked key l.state)
          (.ended, stillActive cert expected active l)
  | .revalidateObservedDevices =>
    if !G.hasLookup || l.state.observedActiveDevices.isEmpty then (.ended, l.note (.revalidated []))
    else (.polling l.state.observedActiveDevices, l)
  | .revoke key => (.ended, l.revoke key)
  | .disconnect key => (.ended, l.disconnect key)

def advance (stage : Stage) (t : Turn) (l : Ledger) : Option (Stage × Ledger) :=
  match stage with
  | .start call => some (G.begin call t l)
  | .authenticating cert epoch =>
    let (active, l) := l.deviceIsActive cert.devicePubkey (t.lookup cert.devicePubkey).active
    some (.ended, judge cert epoch active l)
  | .looking key => some (.ended, l.askActive key (t.lookup key).active)
  | .confirming cert expected =>
    let (active, l) := l.deviceIsActive cert.devicePubkey (t.lookup cert.devicePubkey).active
    some (.ended, stillActive cert expected active l)
  | .polling keys => some (.ended,
      match keys.mapM (fun key => (check (t.lookup key)).map (fun active => (key, active))) with
      | .error _ => l
      | .ok results => (l.closeInactive results).note (.revalidated ((results.filter (!·.2)).map Prod.fst)))
  | .ended => none

end Middleware

abbrev TaskId := Nat

structure Gateway where
  auth : NetworkAuthState
  stages : TaskId → Stage
  marks : List (TaskId × Mark) := []

namespace Gateway

def opened (s : NetworkAuthState) (calls : TaskId → Call) : Gateway where
  auth := s
  stages := fun i => .start (calls i)

def next (G : Middleware) (g : Gateway) (x : TaskId × Turn) : Option Gateway :=
  (G.advance (g.stages x.1) x.2 ⟨g.auth, []⟩).map (fun r =>
    { auth := r.2.state
      stages := fun j => if j = x.1 then r.1 else g.stages j
      marks := g.marks ++ r.2.marks.map (fun m => (x.1, m)) })

end Gateway

end OpenAgent.Identity.Auth
