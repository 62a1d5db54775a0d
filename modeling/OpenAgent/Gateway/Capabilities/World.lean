import OpenAgent.Gateway.Capabilities.Catalog
import OpenAgent.Lib.Runs

namespace OpenAgent.Gateway.Capabilities

open Py

abbrev ConnId := Nat
abbrev BindingId := Nat
abbrev CallId := String

abbrev Key := String × String

abbrev HostKey := String × String × Int

structure PendingRef where
  callId : CallId
  attempt : Nat
deriving DecidableEq

inductive FutureState
  | waiting
  | result (value : Json)
  | exception (error : ClientCapabilityError)
  | cancelled
deriving DecidableEq

structure PendingCall where
  future : FutureState := .waiting
  generation : Int := 0
  argumentsSha256 : String := ""
  serverName : String := ""
  toolName : String := ""
  sessionId : Option String := none
  classification : Classification := .mutating
  dispatchStarted : Bool := false
  determinateResponseReceived : Bool := false
  backgroundRequested : Bool := false
  contextKey : Option String := none
  sourceId : Option String := none
  artifacts : Artifacts := Dict.empty

def PendingCall.resultMayBeIndeterminate (p : PendingCall) : Bool :=
  p.dispatchStarted && p.classification == .mutating

structure ClientShellBinding where
  clientShellId : String := ""
  internalShellId : String := ""
  sessionId : String := ""
  clientHost : HostKey := ("", "", 0)
  contextKey : String := ""
  sourceId : String := ""
  completed : Bool := false

structure DetachedClientShells where
  disconnectedAt : Int
  bindings : Dict String BindingId

structure CapabilityConnection where
  deviceId : String := ""
  accountId : String := ""
  clientInstanceId : String := ""
  generation : Int := 0
  deviceLabel : String := ""
  wsClosed : Bool := false
  catalog : Catalog := Dict.empty
  networkId : Option String := none
  authEpoch : Int := 0
  lastSeenAt : Int := 0
  pending : Dict CallId PendingRef := Dict.empty
  clientShells : Dict String BindingId := Dict.empty

def CapabilityConnection.key (c : CapabilityConnection) : Key := (c.deviceId, c.clientInstanceId)

def CapabilityConnection.clientHost (c : CapabilityConnection) : HostKey :=
  (c.deviceId, c.clientInstanceId, c.generation)

/-- The frozen identity of a turn's client host, as `TurnExecutionOrigin` carries it. -/
structure TurnExecutionOrigin where
  deviceId : String
  clientInstanceId : String
  generation : Int
  authEpoch : Int
  executionHost : Json

def TurnExecutionOrigin.key (o : TurnExecutionOrigin) : Key := (o.deviceId, o.clientInstanceId)

/-- What a suspended await ends with: an exception the registry raised itself, a time-out, or any other. -/
inductive PyException
  | capability (error : ClientCapabilityError)
  | timeout
  | other (name : String)
deriving DecidableEq

inductive Outcome
  | returned (value : Json)
  | raised (exception : PyException)
  | cancelled
deriving DecidableEq

inductive CancelCause
  | deadlineExceeded
  | serverCancelled
deriving DecidableEq

/-- Where a running `call_tool` is suspended. -/
inductive Phase
  | recording
  | sending
  | awaitingResult
  | cancelling (cause : CancelCause)
  | reconnecting
  | ended (outcome : Outcome)
deriving DecidableEq

structure CallTask where
  origin : TurnExecutionOrigin
  serverName : String
  toolName : String
  args : Json
  sessionId : Option String
  classification : Classification
  argumentsSha256 : String
  deadlineAt : Int
  backgroundRequested : Bool
  contextKey : Option String
  sourceId : Option String
  conn : ConnId
  attempt : Nat := 0
  phase : Phase := .reconnecting

/-- The rest of a `reap_stale` or of a `close_all` that is suspended in a socket's closing handshake. -/
inductive Sweep
  | reap (stale : List ConnId) (expired : List DetachedClientShells)
  | shutdown (rest : List ConnId)

structure ToolCallFrame where
  callId : CallId
  generation : Int
  server : String
  tool : String
  args : Json
  deadlineAt : Int
  sessionId : Option String
  accountId : String
  networkId : Option String
  argumentsSha256 : String

structure JobEvent where
  jobId : String
  kind : String
  sourceId : String
  shellId : String
  summary : String
  time : Int

/-- What a run does that can be observed from outside a single state. -/
inductive Effect
  | connectionRemoved (conn : ConnId)
  | toolCallSent (conn : ConnId) (frame : ToolCallFrame)
  | toolCancelSent (conn : ConnId) (callId : CallId) (cause : CancelCause)
  | determinateResponse (pending : PendingRef)
  | callEnded (callId : CallId) (outcome : Outcome)
  | shellRecorded (binding : BindingId) (conn : ConnId)
  | shellCompleted (binding : BindingId) (event : JobEvent)

/-- `backgroundJobs` and `recordsDeviceUse` say which optional collaborators the gateway installed. -/
structure World where
  backgroundJobs : Bool := true
  recordsDeviceUse : Bool := true
  connections : Dict Key ConnId := Dict.empty
  generationFloor : Dict Key Int := Dict.empty
  deviceBlockEpoch : Dict String Int := Dict.empty
  detachedShells : Dict HostKey DetachedClientShells := Dict.empty
  conn : ConnId → CapabilityConnection := fun _ => {}
  nextConn : ConnId := 0
  binding : BindingId → ClientShellBinding := fun _ => {}
  nextBinding : BindingId := 0
  pending : PendingRef → PendingCall := fun _ => {}
  calls : CallId → Option CallTask := fun _ => none
  sweeps : Nat → Option Sweep := fun _ => none
  trace : List Effect := []

namespace World

def emit (w : World) (e : Effect) : World := { w with trace := w.trace ++ [e] }

def setConn (w : World) (c : ConnId) (f : CapabilityConnection → CapabilityConnection) : World :=
  { w with conn := Function.update w.conn c (f (w.conn c)) }

def setPending (w : World) (r : PendingRef) (f : PendingCall → PendingCall) : World :=
  { w with pending := Function.update w.pending r (f (w.pending r)) }

def setCall (w : World) (id : CallId) (t : CallTask) : World :=
  { w with calls := Function.update w.calls id (some t) }

def registered (w : World) (c : ConnId) : Prop := w.connections.get? (w.conn c).key = some c

instance (w : World) (c : ConnId) : Decidable (w.registered c) :=
  inferInstanceAs (Decidable (_ = _))

/-- The epoch below which a device's connections are revoked; `-1` before any revocation. -/
def blockEpoch (w : World) (deviceId : String) : Int := (w.deviceBlockEpoch.get? deviceId).getD (-1)

def floor (w : World) (key : Key) : Int := (w.generationFloor.get? key).getD 0

end World

end OpenAgent.Gateway.Capabilities
