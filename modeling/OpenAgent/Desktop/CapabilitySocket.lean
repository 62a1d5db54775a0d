import OpenAgent.HostTools.Classifications
import Mathlib.Data.Rat.Defs
import Mathlib.Algebra.Order.Ring.Rat

namespace OpenAgent.Desktop

open Py OpenAgent.HostTools

abbrev SocketId := Nat

inductive ReadyState where
  | connecting
  | opened
  | closing
  deriving DecidableEq

structure Socket where
  id : SocketId
  readyState : ReadyState
  deriving DecidableEq

/-- The abort controller of a call, and the socket that the call was admitted on, which the code does not keep. -/
structure Controller where
  id : Nat
  socket : SocketId
  deriving DecidableEq

/-- A rejection: a `CapabilityProtocolError` with its code, or any other error. -/
inductive Fault where
  | protocol (code : String)
  | other
  deriving DecidableEq

inductive Frame where
  | artifactChunk
  | toolResult
  | toolError (code : String)
  deriving DecidableEq

/-- A frame on the outbound queue, with the socket and the epoch it was enqueued for. -/
structure Task where
  socket : SocketId
  epoch : Nat
  frame : Frame
  written : Bool := false
  deriving DecidableEq

inductive Work where
  | toolCall (mutating : Bool)
  | resourceRead
  deriving DecidableEq

inductive Stage where
  | invoking
  | sending (task : Task) (rest : List Frame)
  | replying (task : Task)
  | ended
  deriving DecidableEq

structure Handler where
  controller : Controller
  callId : String
  work : Work
  timed : Bool
  stage : Stage
  deriving DecidableEq

/-- The error frame of a call that was not admitted; afterwards the channel may be closed. -/
structure Refusal where
  task : Option Task
  closes : Bool
  deriving DecidableEq

/-- What the handlers of admitted calls do to a socket or to the table of active calls. -/
inductive Effect where
  | enqueued (by_ : Controller) (socket : SocketId)
  | written (by_ : Controller) (socket : SocketId) (frame : Frame)
  | terminated (by_ : Controller) (socket : SocketId)
  | removed (by_ owner : Controller)
  deriving DecidableEq

structure CapabilitySocketOptions where
  trustedAccountId : String
  trustedDeviceId : String
  clientInstanceId : String
  readsResources : Bool
  reconnect : Bool := true

structure CapabilityOffer where
  generation : Nat
  servers : List Json

structure Turn where
  offer : CapabilityOffer
  now : ℚ := 0

structure HelloAck where
  protocol : String
  deviceId : String
  accountId : String
  networkId : Option String := none
  clientInstanceId : String
  generation : Nat
  accepted : Bool

structure ClientToolCall where
  callId : String
  generation : Nat
  server : String
  tool : String
  args : Json
  accountId : String
  deadlineMs : Option ℚ := none

structure ClientResourceRead where
  callId : String
  generation : Nat
  server : String
  uri : String
  accountId : String
  networkId : Option String := none
  deadlineMs : Option ℚ := none

inductive ServerFrame where
  | helloAck (ack : HelloAck)
  | toolCall (call : ClientToolCall)
  | resourceRead (call : ClientResourceRead)
  | toolCancel (callId : String) (generation : Nat)

/-- How `invoke` or `readResource` settles: a result, with the number of its artifact chunks or the error of
preparing it, or a rejection. -/
inductive Settlement where
  | resolved (prepared : Except Fault Nat)
  | rejected (fault : Fault)

/-- How a frame on the outbound queue fares: it comes to its next step, or it fails. -/
inductive Progress where
  | proceeds
  | fails (fault : Fault)

inductive Event where
  | start
  | stop
  | reconnect
  | connectTimeout (s : SocketId)
  | opened (s : SocketId)
  | closing (s : SocketId)
  | closed (s : SocketId)
  | detachedFailure
  | message (s : SocketId) (frame : ServerFrame) (turn : Turn)
  | deadline (h : Nat)
  | settled (h : Nat) (settlement : Settlement)
  | progressed (h : Nat) (progress : Progress)
  | refusalProgressed (r : Nat) (progress : Progress)

/-- The channel, with the controllers that are aborted, the handlers of the calls it admitted, each under its
controller's number, and what they did. -/
structure CapabilitySocket where
  socket : Option Socket := none
  stopped : Bool := true
  acknowledged : Bool := false
  reconnectTimer : Bool := false
  outboundEpoch : Nat := 0
  active : Dict String Controller := Dict.empty
  sockets : Nat := 0
  aborted : List Controller := []
  handlers : List Handler := []
  refusals : List Refusal := []
  effects : List Effect := []

def capabilityProtocol : String := "client-capabilities/1"

def maxActiveToolCalls : Nat := 32

namespace Fault

def transportLost : Fault := .protocol "capability_transport_lost"

def cancelled : Fault := .protocol "cancelled"

def isAmbiguousHostTransportError (f : Fault) : Bool :=
  match f with
  | .protocol code => ["host_transport_lost", "host_timeout", "host_stopped", "host_protocol_error",
      "capability_transport_lost"].contains code
  | .other => false

def protocolError (f : Fault) : String :=
  match f with
  | .protocol code => if code = "idempotency_indeterminate" then "CLIENT_RESULT_INDETERMINATE" else code
  | .other => "client_tool_error"

end Fault

def Work.dropsChannel (w : Work) (f : Fault) : Bool :=
  match w with
  | .toolCall mutating => f.isAmbiguousHostTransportError || mutating && f = .cancelled
  | .resourceRead => false

def Work.frames (w : Work) (chunks : Nat) : List Frame :=
  match w with
  | .toolCall _ => List.replicate chunks .artifactChunk ++ [.toolResult]
  | .resourceRead => [.toolResult]

def HelloAck.registers (ack : HelloAck) (O : CapabilitySocketOptions) (t : Turn) : Bool :=
  ack.protocol = capabilityProtocol && ack.deviceId = O.trustedDeviceId && ack.accountId = O.trustedAccountId
    && ack.networkId.all (· = O.trustedAccountId) && ack.clientInstanceId = O.clientInstanceId
    && ack.generation = t.offer.generation && ack.accepted

def declares (uri : String) (tool : Json) : Bool :=
  let about := tool.field "_meta"
  (about.field "ui").field "resourceUri" = .str uri || about.field "ui/resourceUri" = .str uri

namespace ClientResourceRead

def available (call : ClientResourceRead) (O : CapabilitySocketOptions) (t : Turn) : Bool :=
  match t.offer.servers.find? (fun server => server.field "name" = .str call.server) with
  | none => false
  | some server =>
    call.accountId = O.trustedAccountId && call.networkId.all (· = O.trustedAccountId)
      && call.generation = t.offer.generation && server.field "resource_protocol" = .str "mcp-app-resources/1"
      && (offeredTools server).any (declares call.uri) && O.readsResources

def elapsed (call : ClientResourceRead) (t : Turn) : Bool :=
  match call.deadlineMs with
  | none => false
  | some deadline => deadline ≤ 0 || 1000000000000 < deadline && deadline ≤ t.now

end ClientResourceRead

namespace ClientToolCall

def mutating (call : ClientToolCall) (t : Turn) : Bool :=
  let classification := Desktop.toolClassification t.offer.servers call.server call.tool call.args
  classification ≠ .str "read_only" && classification ≠ .str "idempotent"

end ClientToolCall

namespace CapabilitySocket

def new : CapabilitySocket := {}

variable (st : CapabilitySocket)

/-- `this.socket?.readyState === WebSocket.OPEN`. -/
def isOpen : Bool :=
  match st.socket with
  | some s => s.readyState = .opened
  | none => false

def closeSocket : CapabilitySocket :=
  { st with socket := st.socket.map (fun s => { s with readyState := .closing }) }

def note (e : Effect) : CapabilitySocket := { st with effects := st.effects ++ [e] }

/-- `this.socket?.terminate()` in the handler of a call. -/
def terminate (c : Controller) : CapabilitySocket :=
  match st.socket with
  | none => st
  | some s => st.closeSocket.note (.terminated c s.id)

def enqueueSend (frame : Frame) : Option Task :=
  match st.socket with
  | some s => if s.readyState = .opened then some ⟨s.id, st.outboundEpoch, frame, false⟩ else none
  | none => none

/-- `assertCurrentTransport`, with the signal's state. -/
def currentTransport (task : Task) (signalAborted : Bool) : Bool :=
  !signalAborted && st.socket = some ⟨task.socket, .opened⟩ && st.outboundEpoch = task.epoch

def abortAll : CapabilitySocket :=
  { st with aborted := st.active.values ++ st.aborted, active := Dict.empty }

def abort (c : Controller) : CapabilitySocket := { st with aborted := c :: st.aborted }

def setStage (hd : Handler) (stage : Stage) : CapabilitySocket :=
  { st with handlers := st.handlers.set hd.controller.id { hd with stage := stage } }

def removal (hd : Handler) : List Effect :=
  match st.active.get? hd.callId with
  | some owner => [.removed hd.controller owner]
  | none => []

/-- The `finally` of a handler. -/
def finish (hd : Handler) : CapabilitySocket :=
  { st.setStage hd .ended with
    active := st.active.erase hd.callId
    effects := st.effects ++ st.removal hd }

def handleOutboundFailure (c : Controller) : CapabilitySocket :=
  if st.stopped then st else if st.isOpen then st.terminate c else st

/-- A handler whose error frame fails ends, and its rejection comes to `handleOutboundFailure`. -/
def giveUp (hd : Handler) : CapabilitySocket := (st.finish hd).handleOutboundFailure hd.controller

def sendError (hd : Handler) (f : Fault) : CapabilitySocket :=
  match st.enqueueSend (.toolError f.protocolError) with
  | none => st.giveUp hd
  | some task => (st.setStage hd (.replying task)).note (.enqueued hd.controller task.socket)

/-- The `catch` of a handler, and what follows. -/
def recover (hd : Handler) (f : Fault) : CapabilitySocket :=
  if hd.work.dropsChannel f then (st.terminate hd.controller).finish hd
  else if hd.work = .resourceRead ∧ hd.controller ∈ st.aborted then st.finish hd
  else st.sendError hd f

def sendFrames (hd : Handler) (frames : List Frame) : CapabilitySocket :=
  match frames with
  | [] => st.finish hd
  | frame :: rest => match st.enqueueSend frame with
    | none => st.recover hd .transportLost
    | some task => (st.setStage hd (.sending task rest)).note (.enqueued hd.controller task.socket)

def outcome (hd : Handler) (settlement : Settlement) : Except Fault (List Frame) :=
  match settlement with
  | .rejected f => .error f
  | .resolved prepared =>
    if hd.controller ∈ st.aborted then .error .cancelled else prepared.map hd.work.frames

/-- The handler from the moment that `invoke` or `readResource` settles. -/
def settle (hd : Handler) (settlement : Settlement) : CapabilitySocket :=
  match st.outcome hd settlement with
  | .error f => st.recover hd f
  | .ok frames => st.sendFrames hd frames

def advance (task : Task) (signalAborted : Bool) (progress : Progress) : Except Fault (Option Task) :=
  match progress with
  | .fails f => .error f
  | .proceeds =>
    if st.currentTransport task signalAborted then
      .ok (if task.written then none else some { task with written := true })
    else .error .transportLost

def proceed (hd : Handler) (progress : Progress) : Option CapabilitySocket :=
  match hd.stage with
  | .sending task rest => match st.advance task (hd.controller ∈ st.aborted) progress with
    | .error f => some (st.recover hd f)
    | .ok (some task) => some ((st.setStage hd (.sending task rest)).note
        (.written hd.controller task.socket task.frame))
    | .ok none => some (st.sendFrames hd rest)
  | .replying task => match st.advance task false progress with
    | .error _ => some (st.giveUp hd)
    | .ok (some task) => some ((st.setStage hd (.replying task)).note
        (.written hd.controller task.socket task.frame))
    | .ok none => some (st.finish hd)
  | _ => none

def setRefusal (r : Nat) (refusal : Refusal) : CapabilitySocket := { st with refusals := st.refusals.set r refusal }

/-- `handleOutboundFailure` where no admitted call is behind it. -/
def detachedFailure : CapabilitySocket := if st.stopped then st else if st.isOpen then st.closeSocket else st

def proceedRefusal (r : Nat) (refusal : Refusal) (progress : Progress) : Option CapabilitySocket :=
  refusal.task.map (fun task => match st.advance task false progress with
    | .error _ => (st.setRefusal r { refusal with task := none }).detachedFailure
    | .ok (some task) => st.setRefusal r { refusal with task := some task }
    | .ok none =>
      let st := st.setRefusal r { refusal with task := none }
      if refusal.closes then st.closeSocket else st)

def refuse (code : String) (closes : Bool) : CapabilitySocket :=
  match st.enqueueSend (.toolError code) with
  | none => st.detachedFailure
  | some task => { st with refusals := st.refusals ++ [⟨some task, closes⟩] }

def admitCall (s : SocketId) (callId : String) (work : Work) (timed : Bool) : CapabilitySocket :=
  let controller : Controller := ⟨st.handlers.length, s⟩
  { st with
    active := st.active.set callId controller
    handlers := st.handlers ++ [⟨controller, callId, work, timed, .invoking⟩] }

def handleToolCall (O : CapabilitySocketOptions) (t : Turn) (s : SocketId) (call : ClientToolCall) : CapabilitySocket :=
  if !st.acknowledged then st.refuse "not_registered" false
  else if call.accountId ≠ O.trustedAccountId then st.refuse "account_mismatch" true
  else if call.generation ≠ t.offer.generation then st.refuse "stale_generation" false
  else if (st.active.get? call.callId).isSome then st.refuse "duplicate_call" false
  else if maxActiveToolCalls ≤ st.active.size then st.refuse "client_backpressure" false
  else st.admitCall s call.callId (.toolCall (call.mutating t)) call.deadlineMs.isSome

def handleResourceRead (O : CapabilitySocketOptions) (t : Turn) (s : SocketId) (call : ClientResourceRead) :
    CapabilitySocket :=
  if !(st.acknowledged && call.available O t) then st.refuse "mcp_app_resources_unavailable" false
  else if call.elapsed t then st.refuse "deadline_exceeded" false
  else if (st.active.get? call.callId).isSome || maxActiveToolCalls ≤ st.active.size then
    st.refuse "client_backpressure" false
  else st.admitCall s call.callId .resourceRead true

def handleHelloAck (O : CapabilitySocketOptions) (t : Turn) (ack : HelloAck) : CapabilitySocket :=
  if ack.registers O t then { st with acknowledged := true } else st.closeSocket

def handleCancel (t : Turn) (callId : String) (generation : Nat) : CapabilitySocket :=
  if generation ≠ t.offer.generation then st
  else match st.active.get? callId with
    | some c => st.abort c
    | none => st

def handleMessage (O : CapabilitySocketOptions) (t : Turn) (s : SocketId) (frame : ServerFrame) : CapabilitySocket :=
  match frame with
  | .helloAck ack => st.handleHelloAck O t ack
  | .toolCall call => st.handleToolCall O t s call
  | .resourceRead call => st.handleResourceRead O t s call
  | .toolCancel callId generation => st.handleCancel t callId generation

def connect : CapabilitySocket :=
  if st.stopped then st
  else { st with socket := some ⟨st.sockets, .connecting⟩, sockets := st.sockets + 1 }

def start : CapabilitySocket := if st.stopped then { st with stopped := false }.connect else st

def stop : CapabilitySocket :=
  { st.abortAll with
    stopped := true
    acknowledged := false
    reconnectTimer := false
    outboundEpoch := st.outboundEpoch + 1
    socket := none }

/-- The `close` handler of the current socket. -/
def onClose (O : CapabilitySocketOptions) : CapabilitySocket :=
  { st.abortAll with
    socket := none
    outboundEpoch := st.outboundEpoch + 1
    acknowledged := false
    reconnectTimer := !st.stopped && O.reconnect }

/-- The `open` handler of the current socket. -/
def onOpen (s : SocketId) : CapabilitySocket :=
  { st with socket := some ⟨s, .opened⟩, acknowledged := false, outboundEpoch := st.outboundEpoch + 1 }

/-- `this.socket === socket` for a socket made earlier. -/
def isCurrent (s : SocketId) : Bool := st.socket.any (·.id = s)

def next (O : CapabilitySocketOptions) (st : CapabilitySocket) (e : Event) : Option CapabilitySocket :=
  match e with
  | .start => some st.start
  | .stop => some st.stop
  | .reconnect => if st.reconnectTimer then some { st with reconnectTimer := false }.connect else none
  | .connectTimeout s => some (if st.socket = some ⟨s, .connecting⟩ then st.closeSocket else st)
  | .opened s =>
    if !st.isCurrent s then some st
    else if st.socket = some ⟨s, .connecting⟩ then some (st.onOpen s) else none
  | .closing s => some (if st.isCurrent s then st.closeSocket else st)
  | .closed s => some (if st.isCurrent s then st.onClose O else st)
  | .detachedFailure => some st.detachedFailure
  | .message s frame t =>
    if !st.isCurrent s || st.stopped then some st
    else if st.socket = some ⟨s, .connecting⟩ then none else some (st.handleMessage O t s frame)
  | .deadline h => match st.handlers[h]? with
    | some hd => if hd.timed && hd.stage ≠ .ended then some (st.abort hd.controller) else none
    | none => none
  | .settled h settlement => match st.handlers[h]? with
    | some hd => if hd.stage = .invoking then some (st.settle hd settlement) else none
    | none => none
  | .progressed h progress => (st.handlers[h]?).bind (fun hd => st.proceed hd progress)
  | .refusalProgressed r progress => (st.refusals[r]?).bind (fun refusal => st.proceedRefusal r refusal progress)

end CapabilitySocket

end OpenAgent.Desktop
