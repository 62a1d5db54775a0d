import Mathlib.Data.List.Basic

namespace OpenAgent.Channels.Stdio

def maxPending : Nat := 64

inductive WireError where
  | unknownRequest
  | invalidProgress
  | malformed
  deriving DecidableEq

/-- A callback task: `stopped` is one that is cancelled in `on_event`, `skipped` one that ends without calling it, with the
failure of an earlier one or cancelled. -/
inductive TaskState where
  | queued
  | running
  | ok
  | failed
  | stopped
  | skipped (failure : Bool)
  deriving DecidableEq

/-- A task of `pending.events`; it is settled once its `delivered` callback has run. -/
structure Callback where
  state : TaskState := .queued
  settled : Bool := false
  deriving DecidableEq

inductive Future (α : Type) where
  | pending
  | result (value : α)
  | rejected
  | closed
  | cancelled
  deriving DecidableEq

inductive Ending (α : Type) where
  | returned (value : α)
  | invalid
  | rejected
  | closed
  | callbackFailed
  | cancelled
  | unsent
  deriving DecidableEq

/-- Where `_request` awaits: the write of its frame, its future, the last callback, in `finally` the callbacks that are
left; or it has ended. -/
inductive Stage (α : Type) where
  | emitting
  | waiting
  | draining
  | closing (how : Ending α)
  | ended (how : Ending α)
  deriving DecidableEq

structure Call (α : Type) where
  progress : Bool
  stage : Stage α := .emitting
  future : Future α := .pending
  mustCancel : Bool := false
  cancelling : Bool := false
  callbacks : List Callback := []
  deriving DecidableEq

inductive FrameBody (α : Type) where
  | result (value : α)
  | error (valid : Bool)
  | event (valid : Bool)

structure Frame (α : Type) where
  requestId : Nat
  body : FrameBody α

/-- The transport; a request is named by the place of its call. It remembers what the host has answered, and how the
requests have ended. -/
structure Transport (α : Type) where
  calls : List (Call α) := []
  cancelledRequests : List Nat := []
  eventCount : Nat := 0
  closed : Bool := false
  answers : List (Nat × α) := []
  endings : List (Nat × Ending α) := []

/-- `resume` is a call that goes on, with a result that `result_dto` takes or not. -/
inductive Event (α : Type) where
  | request (progress : Bool)
  | sent (id : Nat) (ok : Bool)
  | frame (frame : Frame α)
  | eof
  | cancel (id : Nat)
  | resume (id : Nat) (valid : Bool)
  | start (id k : Nat)
  | finish (id k : Nat) (state : TaskState)
  | skip (id k : Nat) (failure : Bool)
  | settle (id k : Nat)

namespace TaskState

def done (state : TaskState) : Bool :=
  match state with
  | queued | running => false
  | ok | failed | stopped | skipped _ => true

/-- Whether `on_event` was called. -/
def started (state : TaskState) : Bool :=
  match state with
  | running | ok | failed | stopped => true
  | queued | skipped _ => false

def fails (state : TaskState) : Bool :=
  match state with
  | failed | skipped true => true
  | queued | running | ok | stopped | skipped false => false

def cancels (state : TaskState) : Bool :=
  match state with
  | stopped | skipped false => true
  | queued | running | ok | failed | skipped true => false

end TaskState

namespace Future

variable {α : Type} (future : Future α)

def done : Bool :=
  match future with
  | pending => false
  | result _ | rejected | closed | cancelled => true

def isCancelled : Bool :=
  match future with
  | cancelled => true
  | pending | result _ | rejected | closed => false

end Future

namespace Stage

variable {α : Type}

/-- Whether the request is in the table `_pending`. -/
def registered (stage : Stage α) : Bool :=
  match stage with
  | emitting | waiting | draining => true
  | closing _ | ended _ => false

end Stage

namespace Call

variable {α : Type} (call : Call α)

def registered : Bool := call.stage.registered

/-- The callbacks that are still among `pending.events`. -/
def active : Nat := call.callbacks.countP (fun callback => !callback.settled)

/-- `pending.event_tail`, where a request without events has none. -/
def tail : TaskState := (call.callbacks.getLast?.map Callback.state).getD .ok

def previous (k : Nat) : Option Callback := if k = 0 then none else call.callbacks[k - 1]?

def afterTail (value : α) (valid : Bool) : Ending α :=
  if call.tail.fails then .callbackFailed
  else if call.tail.cancels then .cancelled
  else if valid then .returned value else .invalid

/-- How a call leaves the `try` when its task goes on from its future, or from the last callback; a call whose last
callback has not ended does not leave. -/
def departure (valid : Bool) : Option (Ending α) :=
  match call.future with
  | .pending => none
  | .cancelled => some .cancelled
  | .rejected => some (if call.mustCancel then .cancelled else .rejected)
  | .closed => some (if call.mustCancel then .cancelled else .closed)
  | .result value =>
    if call.mustCancel then some .cancelled
    else if call.tail.done then some (call.afterTail value valid)
    else none

/-- `set_exception(HostClosed())`, for a request that is pending. -/
def shut : Call α :=
  if call.registered ∧ call.future.done = false then { call with future := .closed } else call

end Call

namespace Transport

variable {α : Type} (transport : Transport α)

/-- `len(self._pending)`. -/
def pendingCount : Nat := transport.calls.countP Call.registered

def update (id : Nat) (call : Call α) : Transport α := { transport with calls := transport.calls.set id call }

/-- `self._pending.get(request_id)`. -/
def pending (id : Nat) : Option (Call α) := transport.calls[id]?.filter Call.registered

/-- `self._cancelled_requests[request_id] = None`, and the oldest goes when there are more than 128. -/
def buried (id : Nat) : List Nat :=
  let cancelled := transport.cancelledRequests ++ [id]
  if 2 * maxPending < cancelled.length then cancelled.tail else cancelled

/-- The end of `finally`, behind the callbacks: a second cancellation skips the tombstone. -/
def conclude (id : Nat) (call : Call α) (how : Ending α) : Transport α :=
  if call.mustCancel then
    { transport.update id { call with stage := .ended .cancelled } with
      endings := transport.endings ++ [(id, .cancelled)] }
  else
    let future := if call.future.done then call.future else .cancelled
    { transport.update id { call with stage := .ended how, future := future } with
      cancelledRequests := if future.isCancelled then transport.buried id else transport.cancelledRequests
      endings := transport.endings ++ [(id, how)] }

/-- `finally`: the request leaves the table, and its callbacks are waited for. -/
def leave (id : Nat) (call : Call α) (how : Ending α) : Transport α :=
  if call.active = 0 then transport.conclude id { call with mustCancel := false } how
  else transport.update id { call with stage := .closing how, mustCancel := false }

def accept (id : Nat) (call : Call α) (body : FrameBody α) : Except WireError (Transport α) :=
  match body with
  | .result value =>
    .ok { transport.update id { call with future := .result value } with
      answers := transport.answers ++ [(id, value)] }
  | .error valid => if valid then .ok (transport.update id { call with future := .rejected }) else .error .malformed
  | .event valid =>
    if call.progress = false ∨ maxPending ≤ transport.eventCount then .error .invalidProgress
    else if valid then
      .ok { transport.update id { call with callbacks := call.callbacks ++ [{}] } with
        eventCount := transport.eventCount + 1 }
    else .error .malformed

/-- `receive`, for the frames that answer a request. -/
def receive (frame : Frame α) : Except WireError (Transport α) :=
  let pending := transport.pending frame.requestId
  if frame.requestId ∈ transport.cancelledRequests ∨ pending.any (fun call => call.future.isCancelled) then
    .ok transport
  else match pending with
    | none => .error .unknownRequest
    | some call =>
      if call.future.done then .error .unknownRequest else transport.accept frame.requestId call frame.body

def sentCall (id : Nat) (call : Call α) (ok : Bool) : Option (Transport α) :=
  match call.stage with
  | .emitting =>
    some (if ok then transport.update id { call with stage := .waiting } else transport.leave id call .unsent)
  | .waiting | .draining | .closing _ | .ended _ => none

def cancelCall (id : Nat) (call : Call α) : Option (Transport α) :=
  match call.stage with
  | .emitting => some (transport.leave id call .cancelled)
  | .waiting =>
    if call.future.done then some (transport.update id { call with mustCancel := true })
    else some (transport.update id { call with future := .cancelled })
  | .draining =>
    -- a last callback that has not ended gets the cancellation
    if call.tail.done then some (transport.update id { call with mustCancel := true })
    else some (transport.update id { call with cancelling := true })
  | .closing _ => some (transport.update id { call with mustCancel := true })
  | .ended _ => none

def resumeCall (id : Nat) (call : Call α) (valid : Bool) : Option (Transport α) :=
  match call.stage with
  | .emitting | .ended _ => none
  | .waiting => match call.departure valid with
    | some how => some (transport.leave id call how)
    | none => if call.future.done then some (transport.update id { call with stage := .draining }) else none
  | .draining => match call.departure valid with
    | some how => some (transport.leave id call how)
    | none => none
  | .closing how => if call.active = 0 then some (transport.conclude id call how) else none

def setCallback (id : Nat) (call : Call α) (k : Nat) (callback : Callback) : Transport α :=
  transport.update id { call with callbacks := call.callbacks.set k callback }

/-- `await previous`, then `on_event`. -/
def startCallback (id : Nat) (call : Call α) (k : Nat) (callback : Callback) : Option (Transport α) :=
  if callback.state = .queued ∧ (call.previous k).all (fun earlier => earlier.state = .ok) then
    some (transport.setCallback id call k { callback with state := .running })
  else none

def finishCallback (id : Nat) (call : Call α) (k : Nat) (callback : Callback) (state : TaskState) :
    Option (Transport α) :=
  if callback.state = .running ∧ state ∈ [.ok, .failed, .stopped] then
    some (transport.setCallback id call k { callback with state := state })
  else none

def skipCallback (id : Nat) (call : Call α) (k : Nat) (callback : Callback) (failure : Bool) : Option (Transport α) :=
  let cancelled := call.registered = false ∨ call.cancelling ∨ (call.previous k).any (fun earlier => earlier.state.cancels)
  if callback.state = .queued ∧ (if failure then (call.previous k).any (fun earlier => earlier.state.fails) = true
      else cancelled) then
    some (transport.setCallback id call k { callback with state := .skipped failure })
  else none

def settleCallback (id : Nat) (call : Call α) (k : Nat) (callback : Callback) : Option (Transport α) :=
  if callback.state.done ∧ callback.settled = false then
    some { transport.setCallback id call k { callback with settled := true } with
      eventCount := transport.eventCount - 1 }
  else none

/-- `eof`. -/
def close : Transport α := { transport with closed := true, calls := transport.calls.map Call.shut }

def withCall (id : Nat) (f : Call α → Option (Transport α)) : Option (Transport α) := transport.calls[id]?.bind f

def withCallback (id k : Nat) (f : Call α → Callback → Option (Transport α)) : Option (Transport α) :=
  transport.withCall id (fun call => call.callbacks[k]?.bind (f call))

def next (transport : Transport α) (e : Event α) : Option (Transport α) :=
  match e with
  | .request progress =>
    if transport.closed ∨ maxPending ≤ transport.pendingCount then some transport
    else some { transport with calls := transport.calls ++ [{ progress := progress }] }
  | .sent id ok => transport.withCall id (fun call => transport.sentCall id call ok)
  | .frame frame => match transport.receive frame with
    | .ok after => some after
    | .error _ => some transport
  | .eof => some transport.close
  | .cancel id => transport.withCall id (transport.cancelCall id)
  | .resume id valid => transport.withCall id (fun call => transport.resumeCall id call valid)
  | .start id k => transport.withCallback id k (fun call => transport.startCallback id call k)
  | .finish id k state =>
    transport.withCallback id k (fun call callback => transport.finishCallback id call k callback state)
  | .skip id k failure =>
    transport.withCallback id k (fun call callback => transport.skipCallback id call k callback failure)
  | .settle id k => transport.withCallback id k (fun call => transport.settleCallback id call k)

end Transport

end OpenAgent.Channels.Stdio
