import Mathlib.Algebra.GroupWithZero.Nat
import OpenAgent.Lib.Runs
import Mathlib.Data.List.Basic

namespace OpenAgent.Gateway.Sessions

def maxQueueSize : Nat := 20

abbrev Key := String × String

def sessionKey (client : String) (session : Option String) : Key :=
  match session with
  | none => (client, "__anon__:" ++ client)
  | some sid => (client, if sid.isEmpty then "__anon__:" ++ client else sid)

/-- A handler waits in a queue until a worker makes its task; a task that is cancelled before its first step ends
without running the handler. -/
inductive Stage where
  | fresh
  | made (cancelled : Bool)
  | running
  | ended
deriving DecidableEq

def Stage.cancel (stage : Stage) : Stage :=
  match stage with
  | .made _ => .made true
  | .fresh | .running | .ended => stage

/-- A handler with the session it was accepted for and the object whose queue it was put on. -/
structure Handler where
  key : Key
  object : Nat
  stage : Stage := .fresh
deriving DecidableEq

/-- The worker task of a queue: none or done, made but not yet run, or awaiting the task of a handler. -/
inductive Worker where
  | idle
  | created (cancelled : Bool)
  | awaiting (handler : Nat)
deriving DecidableEq

/-- `Task.cancel` on a worker: before its first step the worker never runs; later the cancellation goes to the task it
awaits, and the loop takes the error of either task for the handler's. -/
def Worker.cancel (worker : Worker) : Worker :=
  match worker with
  | .created _ => .created true
  | .idle | .awaiting _ => worker

structure SessionState where
  key : Key
  pending : List Nat := []
  worker : Worker := .idle
  workers : Nat := 0
deriving DecidableEq

def SessionState.cancelWorker (state : SessionState) : SessionState := { state with worker := state.worker.cancel }

def SessionState.clear (state : SessionState) : SessionState := { state with pending := [] }

def SessionState.accept (state : SessionState) (h : Nat) : SessionState :=
  { state with
    pending := state.pending ++ [h]
    worker := if state.worker = .idle then .created false else state.worker
    workers := if state.worker = .idle then state.workers + 1 else state.workers }

structure Gathering where
  handlers : List Nat
  workers : List (Nat × Nat)
deriving DecidableEq

/-- An observer notes which handlers began (`started`), which were queued at a reset, a deletion, a clearing or a shutdown
(`doomed`), and which an operation on one session cancelled. -/
structure Manager where
  handlers : List Handler := []
  objects : List SessionState := []
  states : Key → Option Nat := fun _ => none
  gatherings : List Gathering := []
  started : List Nat := []
  doomed : List Nat := []
  cancels : List (Key × Nat) := []

namespace Manager

variable (s : Manager)

def stage (h : Nat) : Option Stage := s.handlers[h]?.map Handler.stage

/-- `current_task`, when it is not done. -/
def currentTask (state : SessionState) : Option Nat :=
  match state.worker with
  | .awaiting h => if s.stage h = some .ended then none else some h
  | .idle | .created _ => none

def registered (i : Nat) (state : SessionState) : Bool := s.states state.key = some i

def inScope (scope : Key → Bool) (i : Nat) (state : SessionState) : Bool :=
  s.registered i state && scope state.key

def onScope (scope : Key → Bool) (f : SessionState → SessionState) : Manager :=
  { s with objects := s.objects.mapIdx fun i state => if s.inScope scope i state then f state else state }

def currents (scope : Key → Bool) : List Nat :=
  s.objects.zipIdx.filterMap fun entry => if s.inScope scope entry.2 entry.1 then s.currentTask entry.1 else none

def queued (scope : Key → Bool) : List Nat :=
  (s.objects.filter fun state => scope state.key).flatMap SessionState.pending

def cancelHandlers (ids : List Nat) : Manager :=
  { s with handlers := s.handlers.mapIdx fun h handler =>
      if h ∈ ids then { handler with stage := handler.stage.cancel } else handler }

def cancelCurrent (scope : Key → Bool) : Manager := s.cancelHandlers (s.currents scope)

def cancelWorkers (scope : Key → Bool) : Manager :=
  (s.cancelCurrent scope).onScope scope SessionState.cancelWorker

def clear (scope : Key → Bool) : Manager := s.onScope scope SessionState.clear

def forget (scope : Key → Bool) : Manager :=
  { s with states := fun key => if scope key then none else s.states key }

def doom (ids : List Nat) : Manager := { s with doomed := s.doomed ++ ids }

def note (key : Key) (ids : List Nat) : Manager := { s with cancels := s.cancels ++ ids.map fun h => (key, h) }

def setStage (h : Nat) (stage : Stage) : Manager :=
  { s with handlers := s.handlers.modify h fun handler => { handler with stage := stage } }

def setObject (i : Nat) (state : SessionState) : Manager := { s with objects := s.objects.set i state }

def register (key : Key) : Manager :=
  { s with
    objects := s.objects ++ [{ key := key }]
    states := fun other => if other = key then some s.objects.length else s.states other }

/-- `_session_state`: the object of the session and its place, made where there is none. -/
def sessionState (key : Key) : Manager × Nat :=
  match s.states key with
  | some i => (s, i)
  | none => (s.register key, s.objects.length)

def put (i : Nat) (state : SessionState) : Manager :=
  { s with
    handlers := s.handlers ++ [{ key := state.key, object := i }]
    objects := s.objects.set i (state.accept s.handlers.length) }

def enqueueAt (i : Nat) : Manager × Int :=
  match s.objects[i]? with
  | none => (s, -1)
  | some state =>
    if maxQueueSize ≤ state.pending.length then (s, -1)
    else (s.put i state, state.pending.length + (if (s.currentTask state).isSome then 1 else 0))

def enqueue (client : String) (session : Option String) : Manager × Int :=
  let found := s.sessionState (sessionKey client session)
  found.1.enqueueAt found.2

def take (i h : Nat) (rest : List Nat) (state : SessionState) : Manager :=
  (s.setStage h (.made false)).setObject i { state with pending := rest, worker := .awaiting h }

def drain (i : Nat) (state : SessionState) : Manager :=
  match state.pending with
  | [] => s.setObject i { state with worker := .idle }
  | h :: rest => s.take i h rest state

def workerStep (i : Nat) (state : SessionState) : Option Manager :=
  match state.worker with
  | .idle => none
  | .created cancelled => some (if cancelled then s.setObject i { state with worker := .idle } else s.drain i state)
  | .awaiting h => if s.stage h = some .ended then some (s.drain i state) else none

def begin (h : Nat) (cancelled : Bool) : Manager :=
  if cancelled then s.setStage h .ended else { s.setStage h .running with started := s.started ++ [h] }

def stopCurrent (client : String) (session : Option String) : Manager × Bool :=
  match session with
  | some sid =>
    let scope := fun key => key == (client, sid)
    ((s.cancelCurrent scope).note (client, sid) (s.currents scope), !(s.currents scope).isEmpty)
  | none => (s.cancelCurrent fun key => key.1 == client, !(s.currents fun key => key.1 == client).isEmpty)

def depth (scope : Key → Bool) : Nat :=
  (s.objects.zipIdx.map fun entry => if s.inScope scope entry.2 entry.1 then entry.1.pending.length else 0).sum

def clearScope (scope : Key → Bool) : Manager × Nat := ((s.clear scope).doom (s.queued scope), s.depth scope)

def clearQueue (client : String) : Manager × Nat := s.clearScope fun key => key.1 == client

def clearQueueForSession (client sid : String) : Manager × Nat := s.clearScope fun key => key == (client, sid)

def resetSession (client sid : String) : Manager :=
  let scope := fun key => key == (client, sid)
  (((s.cancelWorkers scope).forget scope).doom (s.queued scope)).note (client, sid) (s.currents scope)

/-- As `reset_session`, with the current handler cancelled by itself before the worker is. -/
def deleteSession (client sid : String) : Manager :=
  let scope := fun key => key == (client, sid)
  ((((s.cancelCurrent scope).cancelWorkers scope).forget scope).doom (s.queued scope)).note (client, sid)
    (s.currents scope)

def everything : Key → Bool := fun _ => true

def liveWorkers : List (Nat × Nat) :=
  s.objects.zipIdx.filterMap fun entry =>
    if s.registered entry.2 entry.1 && decide (entry.1.worker ≠ .idle) then some (entry.2, entry.1.workers) else none

/-- The first half of `shutdown`, up to its `gather`; with no task to wait for the table is cleared at once. -/
def shutdown (persisting : Bool) : Manager :=
  let cancelled := ((s.cancelCurrent everything).cancelWorkers everything).doom (s.queued everything)
  if !persisting && (s.currents everything).isEmpty && s.liveWorkers.isEmpty then cancelled.forget everything
  else { cancelled with gatherings := s.gatherings ++ [{ handlers := s.currents everything, workers := s.liveWorkers }] }

def gathered (gathering : Gathering) : Bool :=
  gathering.handlers.all (fun h => s.stage h = some .ended) &&
    gathering.workers.all fun worker => match s.objects[worker.1]? with
      | none => true
      | some state => state.worker = .idle || state.workers != worker.2

def finishShutdown (k : Nat) : Manager := { s.forget everything with gatherings := s.gatherings.eraseIdx k }

end Manager

inductive Event where
  | enqueue (client : String) (session : Option String)
  | workerStep (object : Nat)
  | begin (handler : Nat)
  | finish (handler : Nat)
  | stopCurrent (client : String) (session : Option String)
  | clearQueue (client : String)
  | clearQueueForSession (client sid : String)
  | resetSession (client sid : String)
  | deleteSession (client sid : String)
  | shutdown (persisting : Bool)
  | finishShutdown (gathering : Nat)
deriving DecidableEq

def next (s : Manager) (e : Event) : Option Manager :=
  match e with
  | .enqueue client session => some (s.enqueue client session).1
  | .workerStep i => s.objects[i]?.bind (s.workerStep i)
  | .begin h => match s.stage h with
      | some (.made cancelled) => some (s.begin h cancelled)
      | _ => none
  | .finish h => if s.stage h = some .running then some (s.setStage h .ended) else none
  | .stopCurrent client session => some (s.stopCurrent client session).1
  | .clearQueue client => some (s.clearQueue client).1
  | .clearQueueForSession client sid => some (s.clearQueueForSession client sid).1
  | .resetSession client sid => some (s.resetSession client sid)
  | .deleteSession client sid => some (s.deleteSession client sid)
  | .shutdown persisting => some (s.shutdown persisting)
  | .finishShutdown k => s.gatherings[k]?.bind fun gathering =>
    if s.gathered gathering then some (s.finishShutdown k) else none

end OpenAgent.Gateway.Sessions
