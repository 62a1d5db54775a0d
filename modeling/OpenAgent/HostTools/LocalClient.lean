import OpenAgent.Lib.Dict
import OpenAgent.Lib.Runs

namespace OpenAgent.HostTools.LocalClient

open Py

abbrev TransportId := Nat

/-- The number in `py-n`. -/
abbrev RequestId := Nat

inductive Cause
  | reply (transport : TransportId)
  | loss (transport : TransportId)
  | close
deriving DecidableEq

/-- What a future is settled with: a result, the broker's error or `_disconnect_error`. -/
inductive Settlement
  | result
  | hostError
  | disconnected (indeterminate : Bool)
deriving DecidableEq

inductive Future
  | settled (s : Settlement)
  | cancelled

structure Registration where
  transport : TransportId
  mutating : Bool
deriving DecidableEq

inductive Effect
  | settled (id : RequestId) (cause : Cause) (s : Settlement)
  /-- `_request` raised `_disconnect_error` after its `send` had failed. -/
  | raised (id : RequestId) (indeterminate : Bool)
deriving DecidableEq

inductive Task
  | listener (t : TransportId)
  | caller (n : Nat)
deriving DecidableEq

/-- Who awaits a `_connection_lost`. -/
inductive LostBy
  | send (id : RequestId)
  | start
  | listen

inductive Frame
  -- `_request`
  | requestStarts (mutating : Bool)
  | sending (id : RequestId) (t : TransportId)
  | waiting (id : RequestId)
  -- `start`
  | startLocks
  | connecting (stale : Option TransportId)
  | closingStale (t : TransportId)
  | initializing (t : TransportId)
  -- `_connection_lost`
  | lostLocks (t : TransportId) (by_ : LostBy)
  | lostCloses (t : TransportId) (by_ : LostBy)
  | notifying (t : TransportId) (by_ : LostBy)
  -- `_listen`
  | listening (t : TransportId)
  | sinking (t : TransportId)
  -- `close`
  | shuttingDown (t : TransportId) (listener : Option TransportId)
  | closeLocks (t listener : Option TransportId)
  | gathering (t : Option TransportId) (listener : TransportId)
  | closing

structure Client where
  transport : Option TransportId := none
  listener : Option TransportId := none
  nextTransport : TransportId := 0
  nextId : RequestId := 0
  /-- The keys of `_pending`; the future of a key is `future key`. -/
  pending : List RequestId := []
  pendingTransport : Dict RequestId TransportId := Dict.empty
  indeterminate : List RequestId := []
  future : RequestId → Option Future := fun _ => none
  lifecycleLock : Bool := false
  /-- `none` is a task that was not created, `some []` one that is done. -/
  task : Task → Option (List Frame) := fun _ => none
  inside : Nat → Option TransportId := fun _ => none
  registered : RequestId → Option Registration := fun _ => none
  trace : List Effect := []

namespace Client

def setTask (c : Client) (t : Task) (stack : List Frame) : Client :=
  { c with task := Function.update c.task t (some stack) }

def listenerDone (c : Client) (t : TransportId) : Bool :=
  match c.task (.listener t) with
  | some (_ :: _) => false
  | _ => true

/-- `future = self._pending.get(id)`, settled where it is there and not done. -/
def settle (c : Client) (id : RequestId) (cause : Cause) (s : Settlement) : Client :=
  if c.pending.contains id && (c.future id).isNone then
    { c with
      future := Function.update c.future id (some (.settled s))
      trace := c.trace ++ [.settled id cause s] }
  else c

def disconnectError (c : Client) (id : RequestId) : Settlement := .disconnected (c.indeterminate.contains id)

/-- The last loop of `_connection_lost`. -/
def settleLoss (c : Client) (t : TransportId) : Client :=
  ((c.pendingTransport.filter (fun _ u => u = t)).keys).foldl
    (fun c id => c.settle id (.loss t) (c.disconnectError id)) c

/-- The end of `close`. -/
def settleClose (c : Client) : Client :=
  { c.pending.foldl (fun c id => c.settle id .close (c.disconnectError id)) c with
    pending := []
    pendingTransport := Dict.empty
    indeterminate := [] }

/-- The `finally` of `_request`. -/
def forget (c : Client) (id : RequestId) : Client :=
  { c with
    pending := c.pending.filter (fun i => i ≠ id)
    pendingTransport := c.pendingTransport.erase id
    indeterminate := c.indeterminate.filter (fun i => i ≠ id) }

/-- `_request` from the transport it has to its `send`; `none` is the failed assertion, which leaves the
future behind. -/
def register (c : Client) (mutating : Bool) : Client × Option Frame :=
  let id := c.nextId + 1
  let c := { c with
    nextId := id
    pending := c.pending ++ [id]
    indeterminate := if mutating then c.indeterminate ++ [id] else c.indeterminate }
  match c.transport with
  | some t =>
    ({ c with
      pendingTransport := c.pendingTransport.set id t
      registered := Function.update c.registered id (some ⟨t, mutating⟩) }, some (.sending id t))
  | none => (c, none)

/-- The frames below an `await` go on with what it returned. -/
def resume (c : Client) (ok : Bool) : List Frame → Client × List Frame
  | .requestStarts mutating :: rest =>
    if ok then
      match c.register mutating with
      | (c, some f) => (c, f :: rest)
      | (c, none) => c.resume false rest
    else c.resume false rest
  | .initializing t :: rest => if ok then c.resume true rest else (c, .lostLocks t .start :: rest)
  | .shuttingDown t listener :: rest => (c, .closeLocks (some t) listener :: rest)
  | stack => (c, stack)

/-- `_request` from its call to its first await. -/
def enterRequest (c : Client) (mutating : Bool) (rest : List Frame) : Client × List Frame :=
  match c.transport with
  | none => (c, .startLocks :: .requestStarts mutating :: rest)
  | some _ =>
    match c.register mutating with
    | (c, some f) => (c, f :: rest)
    | (c, none) => c.resume false rest

/-- `_connection_lost` returns. -/
def lostReturns (c : Client) (rest : List Frame) : LostBy → Client × List Frame
  | .send id =>
    let raised := c.indeterminate.contains id
    let c : Client := { c with trace := c.trace ++ [.raised id raised] }
    (c.forget id).resume false rest
  | .start => c.resume false rest
  | .listen => c.resume true rest

/-- `close` after the listener. -/
def closeTransport (c : Client) (t : Option TransportId) (rest : List Frame) : Client × List Frame :=
  match t with
  | some _ => (c, .closing :: rest)
  | none => c.settleClose.resume true rest

def cleanUp (c : Client) : Frame → Client
  | .sending id _ => c.forget id
  | .waiting id =>
    let future := (c.future id).getD .cancelled
    { c with future := Function.update c.future id (some future) }.forget id
  | .connecting _ => { c with lifecycleLock := false }
  | .lostLocks _ (.send id) | .lostCloses _ (.send id) | .notifying _ (.send id) => c.forget id
  | _ => c

def unwind (c : Client) : List Frame → Client × List Frame
  | [] => (c, [])
  | .listening t :: rest => (c, .lostLocks t .listen :: rest)
  | .sinking t :: rest => (c, .lostLocks t .listen :: rest)
  | f :: rest => (c.cleanUp f).unwind rest

end Client

/-- How an await on something outside the client ends: a transport error is an `OSError`, an `EOFError` or a
`ConnectionError`. -/
inductive Outcome
  | ok
  | transportError
  | error
deriving DecidableEq

namespace Client

/-- One coroutine from an await to the next; `here` is the listener task it runs in. -/
def advance (c : Client) (here : Option TransportId) (outcome : Outcome) : List Frame → Option (Client × List Frame)
  | .sending id t :: rest =>
    match outcome with
    | .ok =>
      match c.future id with
      | some (.settled .result) => some ((c.forget id).resume true rest)
      | some _ => some ((c.forget id).resume false rest)
      | none => some (c, .waiting id :: rest)
    | .transportError => some (c, .lostLocks t (.send id) :: rest)
    | .error => some ((c.forget id).resume false rest)
  | .waiting id :: rest =>
    match c.future id with
    | some (.settled .result) => some ((c.forget id).resume true rest)
    | some _ => some ((c.forget id).resume false rest)
    | none => none
  | .startLocks :: rest =>
    if c.lifecycleLock then none
    else if c.transport.isSome && c.listener.any (fun l => !c.listenerDone l) then some (c.resume true rest)
    else some ({ c with lifecycleLock := true }, .connecting c.transport :: rest)
  | .connecting stale :: rest =>
    match outcome with
    | .ok =>
      let t := c.nextTransport
      let c := { c.setTask (.listener t) [.listening t] with
        nextTransport := t + 1
        transport := some t
        listener := some t
        lifecycleLock := false }
      match stale with
      | some s => some (c, .closingStale s :: .initializing t :: rest)
      | none => some (c.enterRequest false (.initializing t :: rest))
    | _ => some ({ c with lifecycleLock := false }.resume false rest)
  | .closingStale _ :: .initializing t :: rest =>
    match outcome with
    | .ok => some (c.enterRequest false (.initializing t :: rest))
    | _ => some (c.resume false rest)
  | .lostLocks t by_ :: rest =>
    if c.lifecycleLock then none
    else if c.transport ≠ some t then some (c.lostReturns rest by_)
    else some ({ c with
      transport := none
      listener := if c.listener = here then none else c.listener }, .lostCloses t by_ :: rest)
  | .lostCloses t by_ :: rest => some (c, .notifying t by_ :: rest)
  | .notifying t by_ :: rest => some ((c.settleLoss t).lostReturns rest by_)
  | .sinking t :: rest => some (c, .listening t :: rest)
  | .closeLocks t listener :: rest =>
    if c.lifecycleLock then none
    else
      let c := { c with
        transport := if c.transport = t then none else c.transport
        listener := if c.listener = listener then none else c.listener }
      match listener with
      | some l => if here = some l then some (c.closeTransport t rest) else some (c, .gathering t l :: rest)
      | none => some (c.closeTransport t rest)
  | .gathering t l :: rest => if c.listenerDone l then some (c.closeTransport t rest) else none
  | .closing :: rest =>
    match outcome with
    | .ok => some (c.settleClose.resume true rest)
    | _ => some (c.resume false rest)
  | _ => none

def place (t : Task) (r : Client × List Frame) : Client := r.1.setTask t r.2

def here (c : Client) : Task → Option TransportId
  | .listener t => some t
  | .caller n => c.inside n

/-- A call from outside; `inside` is the listener task whose sink makes it. -/
def call (c : Client) (n : Nat) (inside : Option TransportId) (stack : Client × List Frame) : Option Client :=
  match c.task (.caller n) with
  | none => some { place (.caller n) stack with inside := Function.update c.inside n inside }
  | some _ => none

end Client

/-- What a listener receives. The broker answers a request on the connection that the request came on. -/
inductive Received
  | event
  | reply (id : RequestId) (ok : Bool)
  | lost

inductive ClientEvent
  | request (n : Nat) (inside : Option TransportId) (mutating : Bool)
  | start (n : Nat) (inside : Option TransportId)
  | close (n : Nat) (inside : Option TransportId)
  | advances (t : Task) (outcome : Outcome)
  | receives (t : TransportId) (frame : Received)
  | cancelled (t : Task)

def clientNext (c : Client) : ClientEvent → Option Client
  | .request n inside mutating => c.call n inside (c.enterRequest mutating [])
  | .start n inside => c.call n inside (c, [.startLocks])
  | .close n inside =>
    match c.transport with
    | some t => c.call n inside (c.enterRequest false [.shuttingDown t c.listener])
    | none => c.call n inside (c, [.closeLocks none c.listener])
  | .advances t outcome =>
    match c.task t with
    | some stack => (c.advance (c.here t) outcome stack).map (Client.place t)
    | none => none
  | .receives t frame =>
    match c.task (.listener t) with
    | some (.listening _ :: rest) =>
      match frame with
      | .event => some (c.setTask (.listener t) (.sinking t :: rest))
      | .reply id ok =>
        if (c.registered id).any (fun r => r.transport = t) then
          some (c.settle id (.reply t) (if ok then .result else .hostError))
        else none
      | .lost => some (c.setTask (.listener t) (.lostLocks t .listen :: rest))
    | _ => none
  | .cancelled t =>
    match c.task t with
    | some (f :: rest) => some (Client.place t (c.unwind (f :: rest)))
    | _ => none

end OpenAgent.HostTools.LocalClient
