import OpenAgent.Lib.Dict
import OpenAgent.Lib.Runs

namespace OpenAgent.Gateway.Terminals

open Py

/-- `(connection_id, terminal_id)`. -/
abbrev Key := String × String

/-- The shell of a session, from `create_subprocess_exec` on. -/
inductive Process where
  | spawning
  | failed
  | running
  | exited
deriving DecidableEq

structure Session where
  key : Key
  process : Process := .spawning
  closing : Bool := false
  sender : Bool := false
  hup : Bool := false
  kill : Bool := false
deriving DecidableEq

/-- Where `TerminalSession.close` waits: for the child, for the child once more after SIGKILL, or for the sender task. -/
inductive Stage where
  | reaping
  | killed
  | flushing
deriving DecidableEq

/-- What an operation of the manager does once a session is closed. -/
inductive Rest where
  | done
  | opening (key : Key)
  | connection (keys : List Key)
  | all (sessions : List Nat)
deriving DecidableEq

def Rest.keys (rest : Rest) : List Key :=
  match rest with
  | .connection keys => keys
  | .done | .opening _ | .all _ => []

def Rest.sessions (rest : Rest) : List Nat :=
  match rest with
  | .all sessions => sessions
  | .done | .opening _ | .connection _ => []

structure Operation where
  session : Nat
  stage : Stage
  rest : Rest
deriving DecidableEq

/-- `disconnected` notes the connections that were closed. -/
structure Manager where
  sessions : List Session := []
  table : Dict Key Nat := .empty
  operations : List Operation := []
  disconnected : List String := []

namespace Manager

variable (s : Manager)

def setSession (i : Nat) (session : Session) : Manager := { s with sessions := s.sessions.set i session }

def wait (i : Nat) (stage : Stage) (rest : Rest) : Manager :=
  { s with operations := s.operations ++ [{ session := i, stage := stage, rest := rest }] }

def drop (k : Nat) : Manager := { s with operations := s.operations.eraseIdx k }

def pop (key : Key) : Manager := { s with table := s.table.erase key }

/-- `is_running`: the shell was made and has not returned. -/
def isRunning (i : Nat) : Bool := (s.sessions[i]?).any fun session => session.process = .running

/-- `TerminalSession.close` until it waits, if it does: a second call returns at once. -/
def closeSession (i : Nat) : Manager × Option Stage :=
  match s.sessions[i]? with
  | none => (s, none)
  | some session =>
    if session.closing then (s, none)
    else if session.process = .running then
      (s.setSession i { session with closing := true, hup := true }, some .reaping)
    else (s.setSession i { session with closing := true }, if session.sender then some .flushing else none)

def closeThen (i : Nat) (rest : Rest) (onward : Manager → Manager) : Manager :=
  match s.closeSession i with
  | (t, some stage) => t.wait i stage rest
  | (t, none) => onward t

/-- The session is registered, and `start` runs up to the creation of its process. -/
def create (key : Key) : Manager :=
  { s with sessions := s.sessions ++ [{ key := key }], table := s.table.set key s.sessions.length }

def openTerminal (key : Key) : Manager :=
  match s.table.get? key with
  | none => s.create key
  | some i => if s.isRunning i then s else s.closeThen i (.opening key) fun t => t.create key

def close (key : Key) : Manager :=
  match s.table.get? key with
  | none => s
  | some i => (s.pop key).closeThen i .done id

def closeKeys (s : Manager) (keys : List Key) : Manager :=
  match keys with
  | [] => s
  | key :: rest => match s.table.get? key with
      | none => closeKeys s rest
      | some i => (s.pop key).closeThen i (.connection rest) fun t => closeKeys t rest

def closeSessions (s : Manager) (sessions : List Nat) : Manager :=
  match sessions with
  | [] => s
  | i :: rest => s.closeThen i (.all rest) fun t => closeSessions t rest

def closeForConnection (connection : String) : Manager :=
  { s with disconnected := s.disconnected ++ [connection] }.closeKeys
    (s.table.keys.filter fun key => key.1 == connection)

def closeAll : Manager := { s with table := .empty }.closeSessions s.table.values

def resume (rest : Rest) : Manager :=
  match rest with
  | .done => s
  | .opening key => s.create key
  | .connection keys => s.closeKeys keys
  | .all sessions => s.closeSessions sessions

def flush (op : Operation) : Manager :=
  if (s.sessions[op.session]?).any Session.sender then s.wait op.session .flushing op.rest else s.resume op.rest

def updateSession (i : Nat) (f : Session → Session) : Manager := { s with sessions := s.sessions.modify i f }

end Manager

/-- What is called on the manager, and what the processes, waits and tasks under way do. -/
inductive Event where
  | openTerminal (key : Key)
  | close (key : Key)
  | closeForConnection (connection : String)
  | closeAll
  | spawned (session : Nat)
  | failed (session : Nat)
  | exited (session : Nat)
  | finalized (session : Nat)
  | reaped (operation : Nat)
  | timeout (operation : Nat)
  | flushed (operation : Nat)
deriving DecidableEq

def next (s : Manager) (e : Event) : Option Manager :=
  match e with
  | .openTerminal key => some (s.openTerminal key)
  | .close key => some (s.close key)
  | .closeForConnection connection => some (s.closeForConnection connection)
  | .closeAll => some s.closeAll
  | .spawned i => s.sessions[i]?.bind fun session =>
    if session.process = .spawning then
      some (s.updateSession i fun x => { x with process := .running, sender := true })
    else none
  | .failed i => s.sessions[i]?.bind fun session =>
    if session.process = .spawning then
      some ((s.updateSession i fun x => { x with process := .failed }).pop session.key)
    else none
  | .exited i =>
    if s.isRunning i then some (s.updateSession i fun x => { x with process := .exited }) else none
  | .finalized i => s.sessions[i]?.bind fun session =>
    if session.process = .running ∨ session.process = .exited then
      some (s.updateSession i fun x => { x with sender := false })
    else none
  | .reaped k => s.operations[k]?.bind fun op =>
    if op.stage ≠ .flushing ∧ s.isRunning op.session = false then some ((s.drop k).flush op) else none
  | .timeout k => s.operations[k]?.bind fun op => match op.stage with
      | .reaping => some (((s.drop k).updateSession op.session fun x => { x with kill := x.process = .running }).wait
          op.session .killed op.rest)
      | .killed => some ((s.drop k).flush op)
      | .flushing => none
  | .flushed k => s.operations[k]?.bind fun op =>
    if op.stage = .flushing then
      some (((s.drop k).updateSession op.session fun x => { x with sender := false }).resume op.rest)
    else none

end OpenAgent.Gateway.Terminals
