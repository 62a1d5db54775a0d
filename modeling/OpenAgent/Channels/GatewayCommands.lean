import OpenAgent.Lib.Runs

namespace OpenAgent.Channels.Commands

/-- A `command_result` with the command that it answers, which is not on the wire, or an error with its text. -/
inductive Result
  | result (c : Nat)
  | error (text : String)
  deriving DecidableEq

/-- Where a call of `_legacy_command_full` stands. A frame is on the wire once its send was called. -/
inductive Stage
  | locks
  | sends
  | waits
  | returned (result : Result)
  | raised
  | cancelled
  deriving DecidableEq

structure Call where
  stage : Stage := .locks
  future : Option Result := none
  deriving DecidableEq

/-- The commands that the gateway has yet to answer, and its answers on their way. -/
structure Socket where
  commands : List Nat := []
  answers : List (Nat × Bool) := []

/-- What starts, listens to and stops the connection; the bridge starts and stops its transport under one lock. -/
inductive Phase
  | down
  | dialing
  | authenticating
  | listening
  | halting
  deriving DecidableEq

structure Transport where
  calls : List Call := []
  commandLock : Option Nat := none
  commandFuture : Option Nat := none
  ws : Option Socket := none
  phase : Phase := .down
  shouldStop : Bool := false
  gatewayGeneration : Nat := 0
  /-- The pending cleanup, with its generation. -/
  lossCleanup : Option Nat := none
  /-- The answers that were handled. -/
  handled : List (Nat × Bool) := []

inductive Event
  | begins
  /-- A call gets the lock; its send may raise. -/
  | acquires (c : Nat) (raises : Bool)
  | resumes (c : Nat)
  | cancels (c : Nat)
  /-- The gateway answers the next command. -/
  | answers (ok : Bool)
  | handles
  | loses (streamPending : Bool)
  | graceExpires
  | dials
  | opens
  | listens
  | fails
  | stops
  | stopped

namespace Transport

/-- `set_result`, where the future is not done. -/
def setResult (r : Result) (call : Call) : Call :=
  if call.future = none then { call with future := some r } else call

/-- What becomes of the future in the slot. -/
def resolve (s : Transport) (r : Result) : Transport :=
  match s.commandFuture with
  | some c => { s with calls := s.calls.modify c (setResult r), commandFuture := none }
  | none => s

/-- A call ends: the slot is emptied, if it is still its own, and the lock released. -/
def leave (s : Transport) (c : Nat) (call : Call) (stage : Stage) : Transport :=
  { s with
    calls := s.calls.set c { call with stage := stage }
    commandFuture := if s.commandFuture = some c then none else s.commandFuture
    commandLock := none }

def acquire (s : Transport) (c : Nat) (call : Call) (raises : Bool) : Transport :=
  match s.ws, raises with
  | some ws, false =>
    { s with
      calls := s.calls.set c { call with stage := .sends }
      commandLock := some c
      commandFuture := some c
      ws := some { ws with commands := ws.commands ++ [c] } }
  | _, _ => { s.leave c call .raised with commandFuture := none }

def resume (s : Transport) (c : Nat) (call : Call) : Option Transport :=
  match call.stage, call.future with
  | .sends, some r | .waits, some r => some (s.leave c call (.returned r))
  | .sends, none => some { s with calls := s.calls.set c { call with stage := .waits } }
  | _, _ => none

def cancel (s : Transport) (c : Nat) (call : Call) : Option Transport :=
  match call.stage with
  | .locks => some { s with calls := s.calls.set c { call with stage := .cancelled } }
  -- `except Exception` does not see a cancellation: the future stays in the slot
  | .sends => some { s with calls := s.calls.set c { call with stage := .cancelled }, commandLock := none }
  | .waits => some (s.leave c call .cancelled)
  | _ => none

/-- `_handle_gateway_frame`: an error frame is logged, or folded into a stream. -/
def handle (s : Transport) (answer : Nat × Bool) : Transport :=
  let s := { s with handled := s.handled ++ [answer] }
  if answer.2 then s.resolve (.result answer.1) else s

/-- The `finally` of the listener, with `_schedule_gateway_loss_cleanup`. -/
def lose (s : Transport) (streamPending : Bool) : Transport :=
  let s := { s with ws := none, phase := .down }
  if s.shouldStop then s.resolve (.error "Bridge stopped")
  else { s with lossCleanup := if streamPending || s.commandFuture.isSome then some s.gatewayGeneration else none }

def cleanup (s : Transport) (generation : Nat) : Transport :=
  if s.shouldStop || s.gatewayGeneration ≠ generation then { s with lossCleanup := none }
  else { s.resolve (.error "Gateway connection lost") with lossCleanup := none }

def next (s : Transport) : Event → Option Transport
  | .begins => some { s with calls := s.calls ++ [{}] }
  | .acquires c raises => s.calls[c]?.bind fun call =>
    if call.stage = .locks ∧ s.commandLock = none then some (s.acquire c call raises) else none
  | .resumes c => s.calls[c]?.bind (s.resume c)
  | .cancels c => s.calls[c]?.bind (s.cancel c)
  | .answers ok => s.ws.bind fun ws =>
    match ws.commands with
    | c :: rest => some { s with ws := some ⟨rest, ws.answers ++ [(c, ok)]⟩ }
    | [] => none
  | .handles => s.ws.bind fun ws =>
    match ws.answers with
    | answer :: rest =>
      if s.phase = .listening then some ({ s with ws := some ⟨ws.commands, rest⟩ }.handle answer) else none
    | [] => none
  | .loses streamPending => if s.phase = .listening then some (s.lose streamPending) else none
  | .graceExpires => s.lossCleanup.map s.cleanup
  | .dials => if s.phase = .down then some { s with phase := .dialing, shouldStop := false, ws := none } else none
  | .opens => if s.phase = .dialing then some { s with phase := .authenticating, ws := some {} } else none
  | .listens =>
    if s.phase = .authenticating then
      some { s with
        phase := .listening
        gatewayGeneration := s.gatewayGeneration + 1
        lossCleanup := none }
    else none
  | .fails =>
    if s.phase = .dialing ∨ s.phase = .authenticating then some { s with phase := .down, ws := none } else none
  | .stops =>
    if s.phase = .down ∨ s.phase = .listening then
      some { s with phase := .halting, shouldStop := true, lossCleanup := none }
    else none
  | .stopped =>
    if s.phase = .halting then some { s.resolve (.error "Bridge stopped") with phase := .down, ws := none } else none

end Transport

end OpenAgent.Channels.Commands
