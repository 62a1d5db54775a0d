import OpenAgent.Lib.Coro
import OpenAgent.Lib.Json

namespace OpenAgent.Identity

open Py

abbrev Bytes := List UInt8

abbrev Time := Int

inductive Cbor where
  | null
  | bool (b : Bool)
  | int (n : Int)
  | float (x : PyFloat)
  | text (s : String)
  | bytes (b : Bytes)
  | array (items : List Cbor)
  | map (entries : List (Cbor × Cbor))
  | other

namespace Cbor

def truthy : Cbor → Bool
  | null => false
  | bool b => b
  | int n => n != 0
  | float x => (Json.float x).truthy
  | text s => s != ""
  | bytes b => !b.isEmpty
  | array items => !items.isEmpty
  | map entries => !entries.isEmpty
  | other => true

end Cbor

inductive UserStatus where
  | active
  | suspended
  deriving DecidableEq

inductive DeviceStatus where
  | active
  | revoked
  deriving DecidableEq

inductive InviteRole where
  | user
  | device
  | agent
  deriving DecidableEq

structure UserRow where
  handle : String
  pakeRecord : Bytes
  pakeAlgo : String
  status : UserStatus
  createdAt : Time

structure DeviceRow where
  devicePubkey : Bytes
  userHandle : String
  label : Cbor
  status : DeviceStatus
  addedAt : Time
  lastSeen : Option Time

structure AgentRow where
  handle : String
  nodeId : String
  label : Cbor
  ownerHandle : String
  addedAt : Time
  lastSeen : Option Time

structure InvitationRow where
  code : String
  role : InviteRole
  createdBy : Option String
  bindToHandle : Option String
  usesLeft : Int
  expiresAt : Time
  createdAt : Time
  usedAt : Option Time

structure Db where
  coordinatorNodeId : Option String
  users : Dict String UserRow
  devices : Dict Bytes DeviceRow
  agents : Dict String AgentRow
  invitations : Dict String InvitationRow

inductive Write where
  | insertUser (row : UserRow)
  | claimAgent (handle : String)
  | setUserStatus (handle : String) (status : UserStatus)
  | deleteDevices (handle : String)
  | deleteUser (handle : String)
  | upsertDevice (devicePubkey : Bytes) (userHandle : String) (label : Cbor) (now : Time)
  | revokeDevice (devicePubkey : Bytes)
  | touchDevice (devicePubkey : Bytes) (now : Time)
  | upsertAgent (handle nodeId ownerHandle : String) (label : Cbor) (now : Time)
  | spendInvitation (code : String) (now : Time)

/-- What the store runs on: `str.lower`, whether the schema deletes a user's devices with the user, and which
writes the constraints of the schema refuse besides the keys that the statements name. -/
structure Platform where
  lower : String → String
  cascades : Bool
  refuses : Write → Db → Bool

namespace Write

variable (P : Platform)

def unclaimed (db : Db) (a : AgentRow) : Bool :=
  a.ownerHandle = "system" && db.coordinatorNodeId = some a.nodeId

def run (w : Write) (db : Db) : Db :=
  match w with
  | insertUser row => { db with users := db.users.set row.handle row }
  | claimAgent handle => { db with
      agents := db.agents.mapEntries (fun _ a => if unclaimed db a then { a with ownerHandle := handle } else a) }
  | setUserStatus handle status => { db with
      users := db.users.mapEntries (fun h u => if h = handle then { u with status } else u) }
  | deleteDevices handle => { db with devices := db.devices.filter (fun _ d => d.userHandle != handle) }
  | deleteUser handle => { db with
      users := db.users.erase handle
      devices := if P.cascades then db.devices.filter (fun _ d => d.userHandle != handle) else db.devices }
  | upsertDevice devicePubkey userHandle label now => { db with
      devices := db.devices.set devicePubkey (match db.devices.get? devicePubkey with
        | some d => { d with userHandle, label, status := .active }
        | none => ⟨devicePubkey, userHandle, label, .active, now, none⟩) }
  | revokeDevice devicePubkey => { db with
      devices := db.devices.mapEntries (fun k d =>
        if k = devicePubkey ∧ d.status = .active then { d with status := .revoked } else d) }
  | touchDevice devicePubkey now => { db with
      devices := db.devices.mapEntries (fun k d => if k = devicePubkey then { d with lastSeen := some now } else d) }
  | upsertAgent handle nodeId ownerHandle label now => { db with
      agents := db.agents.set handle (match db.agents.get? handle with
        | some a => { a with nodeId, label, ownerHandle }
        | none => ⟨handle, nodeId, label, ownerHandle, now, none⟩) }
  | spendInvitation code now => { db with
      invitations := db.invitations.mapEntries (fun k r =>
        if k = code then { r with usesLeft := r.usesLeft - 1, usedAt := r.usedAt.orElse (fun _ => some now) } else r) }

def rowcount (w : Write) (db : Db) : Nat :=
  match w with
  | claimAgent _ => (db.agents.values.filter (unclaimed db)).length
  | setUserStatus handle _ | deleteUser handle => if (db.users.get? handle).isSome then 1 else 0
  | revokeDevice devicePubkey => if (db.devices.get? devicePubkey).any (fun d => d.status = .active) then 1 else 0
  | _ => 1

def refused (w : Write) (db : Db) : Bool :=
  P.refuses w db || match w with
    | insertUser row => (db.users.get? row.handle).isSome
    | _ => false

end Write

structure LoginInProgress (Session : Type) where
  handle : String
  session : Session
  createdAt : Time

/-- The shared connection's two views of the database, and the logins in progress. -/
structure Coordinator (Session : Type) where
  committed : Db
  working : Db
  logins : Dict String (LoginInProgress Session)

structure DeviceCert where
  handle : String
  devicePubkey : Bytes
  networkId : String
  issuedAt : Time
  expiresAt : Time
  capabilities : List String

inductive Exn where
  | rpc (code message : String)
  | pake (message : String)
  | value (message : String)
  | sqlite (operational : Bool)
  | cancelled
  | crashed

inductive Action where
  | nothing
  | readInvitation (code : String) (valid : Bool)
  | readDevice (devicePubkey : Bytes) (row : Option DeviceRow)
  | readUserDevices (handle : String) (any : Bool)
  | wrote (w : Write)
  | committed
  | rolledBack
  | began (handle : String) (devicePubkey : Bytes)
  | redeemed (code : String) (invite : InvitationRow)
  | issued (cert : DeviceCert)
  | answered (ok : Bool)

structure Event where
  action : Action
  raised : Option Exn

/-- A statement fails and does nothing, or the task that waits for it is cancelled before or after it runs. -/
inductive Fault where
  | refused (operational : Bool)
  | cancelled (ran : Bool)

structure Turn where
  now : Time
  fault : Option Fault := none
  uuid : String := ""
  nonce : Nat := 0

abbrev Act (Session α : Type) := ExceptT Exn (Coro Turn (Coordinator Session) Event) α

section Statements

variable {Session α : Type}

def raisedBy : Except Exn α → Option Exn
  | .ok _ => none
  | .error e => some e

def perform (f : Turn → Coordinator Session → Except Exn α × Coordinator Session × Action)
    (t : Turn) (c : Coordinator Session) : Except Exn α × Coordinator Session × Event :=
  match t.fault with
  | none => ((f t c).1, (f t c).2.1, ⟨(f t c).2.2, raisedBy (f t c).1⟩)
  | some (.refused operational) => (.error (.sqlite operational), c, ⟨.nothing, some (.sqlite operational)⟩)
  | some (.cancelled true) => (.error .cancelled, (f t c).2.1, ⟨(f t c).2.2, some .cancelled⟩)
  | some (.cancelled false) => (.error .cancelled, c, ⟨.nothing, some .cancelled⟩)

def statement (f : Turn → Coordinator Session → Except Exn α × Coordinator Session × Action) : Act Session α :=
  Coro.step (perform f)

def atomic (f : Turn → Coordinator Session → Except Exn α × Coordinator Session × Action) : Act Session α :=
  Coro.step (fun t c => ((f t c).1, (f t c).2.1, ⟨(f t c).2.2, raisedBy (f t c).1⟩))

def mark (a : Action) : Act Session Time := atomic (fun t c => (.ok t.now, c, a))

def select (query : Turn → Db → α) (a : α → Action) : Act Session α :=
  statement (fun t c => (.ok (query t c.working), c, a (query t c.working)))

def execute (P : Platform) (w : Turn → Write) : Act Session Nat :=
  statement (fun t c =>
    if (w t).refused P c.working then (.error (.sqlite false), c, .nothing)
    else (.ok ((w t).rowcount c.working), { c with working := (w t).run P c.working }, .wrote (w t)))

def commit : Act Session Unit := statement (fun _ c => (.ok (), { c with committed := c.working }, .committed))

def rollback : Act Session Unit := statement (fun _ c => (.ok (), { c with working := c.committed }, .rolledBack))

end Statements

/-- Caught by `except Exception`. -/
def Exn.isException : Exn → Bool
  | .cancelled => false
  | _ => true

section Store

variable {Session : Type} (P : Platform)

def normalizeInviteCode (maybePretty : String) : String :=
  String.ofList ((P.lower (strip maybePretty)).toList.filter (fun c => c != '-' && c != ' '))

def getUser (handle : String) : Act Session (Option UserRow) :=
  select (fun _ db => db.users.get? handle) (fun _ => .nothing)

def claimBootstrapAgent (handle : String) (claim : Bool) : Act Session Bool :=
  if claim then do
    let rowcount ← execute P (fun _ => .claimAgent handle)
    return rowcount != 0
  else return false

def createUser (handle : String) (pakeRecord : Bytes) (pakeAlgo : String) (claimBootstrapAgentOwner : Bool) :
    Act Session Bool :=
  tryCatch (do
      let _ ← execute P (fun t => .insertUser ⟨handle, pakeRecord, pakeAlgo, .active, t.now⟩)
      let claimed ← claimBootstrapAgent P handle claimBootstrapAgentOwner
      commit
      return claimed)
    (fun e => if e.isException then do rollback; throw e else throw e)

def listUsers : Act Session (List UserRow) := select (fun _ db => db.users.values) (fun _ => .nothing)

def setUserStatus (handle status : String) : Act Session Bool :=
  match status with
  | "active" => set .active
  | "suspended" => set .suspended
  | _ => throw (.value ("invalid status: " ++ reprString status))
where
  set (status : UserStatus) : Act Session Bool := do
    let rowcount ← execute P (fun _ => .setUserStatus handle status)
    commit
    return rowcount != 0

def deleteUser (handle : String) : Act Session Bool := do
  let _ ← execute P (fun _ => .deleteDevices handle)
  let rowcount ← execute P (fun _ => .deleteUser handle)
  commit
  return rowcount != 0

def addDevice (devicePubkey : Bytes) (userHandle : String) (label : Cbor) : Act Session Unit := do
  let _ ← execute P (fun t => .upsertDevice devicePubkey userHandle label t.now)
  commit

def userHasDevices (userHandle : String) : Act Session Bool :=
  select (fun _ db => db.devices.values.any (fun d => d.userHandle = userHandle)) (.readUserDevices userHandle)

def getDevice (devicePubkey : Bytes) : Act Session (Option DeviceRow) :=
  select (fun _ db => db.devices.get? devicePubkey) (.readDevice devicePubkey)

def revokeDevice (devicePubkey : Bytes) : Act Session Bool := do
  let rowcount ← execute P (fun _ => .revokeDevice devicePubkey)
  commit
  return 0 < rowcount

def touchDevice (devicePubkey : Bytes) : Act Session Unit := do
  let _ ← execute P (fun t => .touchDevice devicePubkey t.now)
  commit

def registerAgent (handle nodeId ownerHandle : String) (label : Cbor) : Act Session Unit := do
  let _ ← execute P (fun t => .upsertAgent handle nodeId ownerHandle label t.now)
  commit

def InvitationRow.valid (now : Time) (r : InvitationRow) : Bool := !(r.usesLeft ≤ 0) && !(r.expiresAt < now)

/-- The row that `consume_invitation` reads, where it goes on with it. -/
def redeemable (code : String) (now : Time) (db : Db) : Option InvitationRow :=
  (db.invitations.get? code).filter (·.valid now)

def consumeInvitation (codeInput : String) : Act Session (Option InvitationRow) := do
  let code := normalizeInviteCode P codeInput
  let row ← select (fun t => redeemable code t.now) (fun row => .readInvitation code row.isSome)
  match row with
  | none => return none
  | some invite =>
    let _ ← execute P (fun t => .spendInvitation code t.now)
    commit
    let now ← mark (.redeemed code invite)
    return some { invite with
      usesLeft := invite.usesLeft - 1
      usedAt := some ((invite.usedAt.filter (· != 0)).getD now) }

/-- What the statement behind `list_agents` may return: it orders by two keys and leaves ties open. -/
def ListsAgents (db : Db) (rows : List AgentRow) : Prop :=
  rows.Perm db.agents.values ∧ rows.Pairwise (fun a b =>
    let own (r : AgentRow) : Bool := r.nodeId = db.coordinatorNodeId.getD ""
    (own b = true → own a = true) ∧ (own a = own b → a.addedAt ≤ b.addedAt))

end Store

end OpenAgent.Identity
