import OpenAgent.Identity.Store

namespace OpenAgent.Identity

open Py

structure PakeBackend (Session : Type) where
  algo : String
  registerFinalize : String → Bytes → Except Exn Bytes
  loginInit : String → Bytes → Bytes → Nat → Except Exn (Session × Bytes)
  loginFinish : Session → Bytes → Except Exn Bytes

structure Service (Session : Type) where
  platform : Platform
  networkId : String
  networkName : String
  pake : PakeBackend Session
  /-- `iroh.PublicKey.from_string` and `to_bytes`. -/
  publicKey : String → Option Bytes
  verifyCert : Cbor → Time → Except Exn DeviceCert

inductive Reply where
  | registered (handle : String)
  | challenge (stateId : String) (response : Bytes)
  | certificate (cert : DeviceCert) (m2 : Bytes)
  | agentCertificate (cert : DeviceCert) (networkId name : String)
  | done
  | revoked (ok : Bool) (revokedBy : String)

namespace Cbor

def asText : Cbor → Option String
  | .text s => some s
  | _ => none

def asBytes : Cbor → Option Bytes
  | .bytes b => some b
  | _ => none

end Cbor

abbrev Params := List (Cbor × Cbor)

namespace Params

def find? (params : Params) (name : String) : Option Cbor :=
  (List.find? (fun e => e.1.asText = some name) params).map Prod.snd

def get (params : Params) (name : String) : Cbor := (params.find? name).getD .null

def required {α : Type} (params : Params) (name : String) (ty : Cbor → Option α) : Except Exn α :=
  match params.find? name with
  | none => .error (.rpc "bad_request" ("missing param: " ++ name))
  | some val =>
    match ty val with
    | none => .error (.rpc "bad_request" ("param '" ++ name ++ "' wrong type"))
    | some a => .ok a

end Params

def certTtlSeconds : Time := 30 * 24 * 3600

def pubkeyLength : Nat := 32

namespace Service

variable {Session : Type} (S : Service Session)

def lift {α : Type} (x : Except Exn α) : Act Session α := x

def normalizeHandle (handle : String) : String := S.platform.lower (strip handle)

/-- `iroh_node_id_public_bytes`, where it does not raise. -/
def irohNodeIdPublicBytes (nodeId : String) : Option Bytes :=
  if strip nodeId = "" then none
  else (S.publicKey (strip nodeId)).filter (fun raw => raw.length = pubkeyLength)

def issueCert (handle : String) (devicePubkey : Bytes) (capabilities : List String) : Act Session DeviceCert :=
  atomic (fun t c =>
    if devicePubkey.length ≠ pubkeyLength then
      (.error (.value ("device_pubkey must be 32 bytes, got " ++ toString devicePubkey.length)), c, .nothing)
    else
      let cert : DeviceCert :=
        ⟨handle, devicePubkey, S.networkId, t.now, t.now + certTtlSeconds, capabilities⟩
      (.ok cert, c, .issued cert))

def verifyAdminCert (wire : Cbor) : Act Session DeviceCert := do
  let now ← mark .nothing
  let cert ← lift (S.verifyCert wire now)
  if cert.capabilities.contains "coordinator_admin" then return cert
  else throw (.rpc "forbidden" "missing coordinator_admin capability")

/-- `consume_invitation` of a value of the request: one that is not text has no `strip`. -/
def redeem (code : Cbor) : Act Session (Option InvitationRow) :=
  match code with
  | .text s => consumeInvitation S.platform s
  | _ => throw .crashed

def claimsBootstrapOwner (invite : InvitationRow) : Act Session Bool :=
  if invite.createdBy = some "auto-bootstrap" then do
    let users ← listUsers
    return users.isEmpty
  else return false

def register (params : Params) : Act Session Reply := do
  let inviteCode ← lift (params.required "invite" Cbor.asText)
  let handle := S.normalizeHandle (← lift (params.required "handle" Cbor.asText))
  let record ← lift (params.required "pake_record" Cbor.asBytes)
  let invite ← consumeInvitation S.platform inviteCode
  match invite.filter (fun i => i.role = .user) with
  | none => throw (.rpc "invalid_invite" "invite missing/expired/wrong-role")
  | some invite =>
    let existing ← getUser handle
    if existing.isSome then throw (.rpc "conflict" ("handle '" ++ handle ++ "' already taken"))
    else do
      let claimBootstrapOwner ← claimsBootstrapOwner invite
      let validated ← lift (S.pake.registerFinalize handle record)
      let _ ← createUser S.platform handle validated S.pake.algo claimBootstrapOwner
      return .registered handle

def loginInit (params : Params) : Act Session Reply := do
  let handle := S.normalizeHandle (← lift (params.required "handle" Cbor.asText))
  let ke1 ← lift (params.required "ke1" Cbor.asBytes)
  let user ← getUser handle
  match user.filter (fun u => u.status = .active) with
  | none => throw (.rpc "unauthorized" "login failed")
  | some user =>
    atomic (fun t c =>
      match S.pake.loginInit handle user.pakeRecord ke1 t.nonce with
      | .error (.pake message) => (.error (.rpc "unauthorized" message), c, .nothing)
      | .error e => (.error e, c, .nothing)
      | .ok (session, response) =>
        (.ok (.challenge t.uuid response), { c with logins := c.logins.set t.uuid ⟨handle, session, t.now⟩ }, .nothing))

def checkPeer (peerNodeId : String) (devicePubkey : Bytes) : Except Exn Unit :=
  if "inproc:".toList.isPrefixOf peerNodeId.toList then .ok ()
  else
    match S.irohNodeIdPublicBytes peerNodeId with
    | none => .error (.rpc "unauthorized" "login stream has no valid Iroh peer identity")
    | some peerPubkey =>
      if peerPubkey = devicePubkey then .ok ()
      else .error (.rpc "unauthorized" "device_pubkey does not match the authenticated Iroh peer")

def proveLogin (stateId : String) (ke3 devicePubkey : Bytes) (c : Coordinator Session) :
    Except Exn (String × Bytes) × Coordinator Session × Action :=
  match c.logins.get? stateId with
  | none => (.error (.rpc "expired" "login state not found or expired"), c, .nothing)
  | some state =>
    match S.pake.loginFinish state.session ke3 with
    | .error (.pake message) =>
      (.error (.rpc "unauthorized" message), { c with logins := c.logins.erase stateId }, .nothing)
    | .error e => (.error e, { c with logins := c.logins.erase stateId }, .nothing)
    | .ok m2 =>
      (.ok (state.handle, m2), { c with logins := c.logins.erase stateId }, .began state.handle devicePubkey)

def takeLogin (stateId : String) (ke3 devicePubkey : Bytes) : Act Session (String × Bytes) :=
  atomic (fun _ => S.proveLogin stateId ke3 devicePubkey)

def pairWithInvite (userHasOtherDevices : Bool) (inviteCode : Cbor) (handle : String) : Act Session Unit :=
  if !userHasOtherDevices then return ()
  else if !inviteCode.truthy then throw (.rpc "invalid_invite" "adding a new device requires an invite")
  else do
    let inv ← S.redeem inviteCode
    match inv.filter (fun i => i.role = .user || i.role = .device) with
    | none => throw (.rpc "invalid_invite" "device invite missing/expired/wrong-role")
    | some inv =>
      if inv.bindToHandle.any (fun bound => bound != "" && bound != handle) then
        throw (.rpc "invalid_invite" "device invite is for a different handle")
      else return ()

def bindDevice (existingDevice : Option DeviceRow) (handle : String) (devicePubkey : Bytes) (label inviteCode : Cbor) :
    Act Session Unit :=
  match existingDevice with
  | none => do
    let userHasOtherDevices ← userHasDevices handle
    S.pairWithInvite userHasOtherDevices inviteCode handle
    addDevice S.platform devicePubkey handle label
  | some device =>
    if device.status ≠ .active then throw (.rpc "revoked" "device has been revoked")
    else tryCatch (touchDevice S.platform devicePubkey) (fun e => match e with
      | .sqlite true => return ()
      | e => throw e)

def loginFinish (params : Params) (peerNodeId : String) : Act Session Reply := do
  let stateId ← lift (params.required "state_id" Cbor.asText)
  let ke3 ← lift (params.required "ke3" Cbor.asBytes)
  let devicePubkey ← lift (params.required "device_pubkey" Cbor.asBytes)
  lift (S.checkPeer peerNodeId devicePubkey)
  let (handle, m2) ← S.takeLogin stateId ke3 devicePubkey
  let existingDevice ← getDevice devicePubkey
  S.bindDevice existingDevice handle devicePubkey (params.get "label") (params.get "invite")
  let cert ← S.issueCert handle devicePubkey []
  return .certificate cert m2

def ownerOf (inv : InvitationRow) : String := (inv.bindToHandle.filter (· != "")).getD "system"

def addAgentOwner (certWire inviteCode : Cbor) : Act Session String :=
  if certWire.truthy then do
    let cert ← S.verifyAdminCert certWire
    return cert.handle
  else if inviteCode.truthy then do
    let inv ← S.redeem inviteCode
    match inv.filter (fun i => i.role = .agent) with
    | none => throw (.rpc "invalid_invite" "agent invite missing/expired/wrong-role")
    | some inv => return ownerOf inv
  else throw (.rpc "unauthorized" "add_agent requires admin cert or invite")

def addAgent (params : Params) : Act Session Reply := do
  let ownerHandle ← S.addAgentOwner (params.get "cert") (params.get "invite")
  let handle := S.normalizeHandle (← lift (params.required "handle" Cbor.asText))
  let nodeId ← lift (params.required "node_id" Cbor.asText)
  registerAgent S.platform handle nodeId ownerHandle (params.get "label")
  return .done

def agentLogin (params : Params) (peerNodeId : String) : Act Session Reply := do
  let inviteCode ← lift (params.required "invite" Cbor.asText)
  let handle := S.normalizeHandle (← lift (params.required "handle" Cbor.asText))
  let nodeId ← lift (params.required "node_id" Cbor.asText)
  if S.platform.lower peerNodeId ≠ S.platform.lower nodeId then
    throw (.rpc "unauthorized"
      ("node_id mismatch: claimed " ++ reprString nodeId ++ " but stream is from " ++ reprString peerNodeId))
  else do
    let inv ← consumeInvitation S.platform inviteCode
    match inv.filter (fun i => i.role = .agent) with
    | none => throw (.rpc "invalid_invite" "agent invite missing/expired/wrong-role")
    | some inv => do
      registerAgent S.platform handle nodeId (ownerOf inv) (params.get "label")
      match S.publicKey nodeId with
      | none => throw .crashed
      | some devicePubkey => do
        let cert ← S.issueCert handle devicePubkey ["agent"]
        return .agentCertificate cert S.networkId S.networkName

def revokeDevice (params : Params) : Act Session Reply := do
  let wire ← lift (params.required "cert" Cbor.asBytes)
  let cert ← S.verifyAdminCert (.bytes wire)
  let devicePubkey ← lift (params.required "device_pubkey" Cbor.asBytes)
  let ok ← Identity.revokeDevice S.platform devicePubkey
  return .revoked ok cert.handle

end Service

inductive Method where
  | register
  | loginInit
  | loginFinish
  | addAgent
  | agentLogin
  | revokeDevice
  deriving DecidableEq

structure Request where
  method : Method
  params : Cbor
  peerNodeId : String

inductive Response where
  | result (r : Reply)
  | error (code message : String)
  | internal

namespace Service

variable {Session : Type} (S : Service Session)

def handler (method : Method) (params : Params) (peerNodeId : String) : Act Session Reply :=
  match method with
  | .register => S.register params
  | .loginInit => S.loginInit params
  | .loginFinish => S.loginFinish params peerNodeId
  | .addAgent => S.addAgent params
  | .agentLogin => S.agentLogin params peerNodeId
  | .revokeDevice => S.revokeDevice params

def dispatch (request : Request) : Act Session Reply :=
  if !request.params.truthy then S.handler request.method [] request.peerNodeId
  else
    match request.params with
    | .map entries => S.handler request.method entries request.peerNodeId
    | _ => throw .crashed

def failure : Exn → Act Session Response
  | .rpc code message => return .error code message
  | .pake message | .value message => return .error "bad_request" message
  | .sqlite _ | .crashed => return .internal
  | .cancelled => throw .cancelled

def Response.ok : Response → Bool
  | .result _ => true
  | _ => false

def handleOneRpc (request : Request) : Act Session Response := do
  let response ← tryCatch (do return .result (← S.dispatch request)) failure
  let _ ← mark (.answered (Response.ok response))
  return response

def serving (requests : Coro.TaskId → Request) (c : Coordinator Session) :
    Coro.Pool Turn (Coordinator Session) Event (Except Exn Response) where
  now := ⟨c, []⟩
  coro := fun i => (S.handleOneRpc (requests i)).run

def sample : Service Bytes where
  platform := ⟨Py.lower, true, fun _ _ => false⟩
  networkId := "net"
  networkName := "home"
  pake :=
    { algo := "srp6a"
      registerFinalize := fun _ record => .ok record
      loginInit := fun _ record _ _ => .ok (record, record)
      loginFinish := fun proof ke3 => if ke3 = proof then .ok proof else .error (.pake "login proof verification failed") }
  publicKey := fun _ => none
  verifyCert := fun _ _ => .error (.rpc "unauthorized" "cert rejected: cert too short")

end Service

end OpenAgent.Identity
