import OpenAgent.Dashboards.LiveData

namespace OpenAgent.Dashboards

open Py

inductive SourceStatus
  | starting
  | idle
  | running
  | error
  | stopped
  | expired
deriving DecidableEq

inductive Driver
  | push
  | static
  | fileWatch
  | commandPoll
  | commandStream
deriving DecidableEq

def Driver.loops : Driver → Bool
  | .fileWatch | .commandPoll | .commandStream => true
  | .push | .static => false

/-- A `ui_source_status` frame. -/
structure StatusFrame where
  status : SourceStatus
  error : Option WireError
  generation : Nat
  seq : Nat
deriving DecidableEq

/-- Where `_run_source` is. -/
inductive RunStage
  | starting
  | driving
  /-- A value was published; its `running` comes next. -/
  | published
  | failed (sequence : Nat) (code : String)
  | over
deriving DecidableEq

structure SourceTask where
  driver : Driver
  once : Bool
  generation : Nat
  stage : RunStage := .starting
deriving DecidableEq

def SourceTask.rest (t : SourceTask) : RunStage := if t.driver.loops && !t.once then .driving else .over

def maxSafeInteger : Nat := 2 ^ 53 - 1

/-- `revision`, of a number that is no fraction and not negative. -/
def revisionNumber (n : Nat) : Nat := if n ≤ maxSafeInteger then n else 0

/-- `UISourceRuntimeStatus`, without its time. -/
structure RuntimeStatus where
  status : SourceStatus
  error : Option String
deriving DecidableEq

def StatusFrame.shown (f : StatusFrame) : RuntimeStatus :=
  ⟨f.status, (f.error.map WireError.message).filter fun message => 0 < message.length⟩

/-- What the store keeps for a source and one of its subscriptions: `lastSequences` by generation. -/
structure StatusClient where
  lastSequences : Nat → Option Nat := fun _ => none
  sourceStatus : Option RuntimeStatus := none

/-- `handleWsMessage` of a `ui_source_status`; the snapshot it may ask for holds no status. -/
def StatusClient.handle (c : StatusClient) (f : StatusFrame) : StatusClient :=
  let sequence := revisionNumber f.seq
  let generation := revisionNumber f.generation
  if sequence ≠ 0 ∧ (c.lastSequences generation).any (fun last => sequence ≤ last) then c
  else
    { lastSequences :=
        if sequence ≠ 0 then Function.update c.lastSequences generation (some sequence) else c.lastSequences
      sourceStatus := some f.shown }

structure Sourced where
  live : Option Datum := none
  /-- `_generation.get(task_key, 0)`. -/
  generation : Nat := 0
  stored : Option Datum := none
  tasks : List SourceTask := []
  /-- Calls of `_source_status` whose frame the subscriber has not got. -/
  calls : List StatusFrame := []
  sent : List StatusFrame := []
  client : StatusClient := {}

namespace Sourced

def sourceStatus (s : Sourced) (status : SourceStatus) (generation sequence : Option Nat)
    (errorCode : Option String) : Sourced :=
  { s with calls := s.calls ++ [{
      status
      error := errorCode.map fun code => ⟨code, "Data source update failed"⟩
      generation := generation.getD ((s.live.map Datum.generation).getD s.generation)
      seq := sequence.getD ((s.live.map Datum.sequence).getD 0) }] }

def setStage (s : Sourced) (n : Nat) (stage : RunStage) : Sourced :=
  { s with tasks := s.tasks.modify n fun t => { t with stage } }

/-- `_publish_source_value` or `_publish_error`, where the datum can be published. -/
def publish (s : Sourced) (p : Publication) (now : Int) : Option (Sourced × Datum) :=
  (p.datum (s.live.or s.stored) now).map fun d => ({ s with live := some d }, d)

end Sourced

inductive SourceEvent
  /-- `start_source`, of a source that is expired or not. -/
  | starts (driver : Driver) (once expired : Bool)
  | begins (n : Nat)
  | idles (n : Nat)
  | ticks (n : Nat) (w : Write) (now : Int)
  | fails (n : Nat) (code : String) (now : Int)
  | reports (n : Nat)
  | expires (n : Nat)
  | ends (n : Nat)
  /-- The status of `stop_source`. -/
  | stops
  | commits (d : Datum)
  | checkpoints (now : Int)
  | restarts
  | delivers (i : Nat)
  | drops (i : Nat)

namespace Sourced

/-- The status that `_run_source` owes after what it published. -/
def report (s : Sourced) (n : Nat) (t : SourceTask) : Option Sourced :=
  match t.stage with
  | .published => some ((s.sourceStatus .running (some t.generation) none none).setStage n t.rest)
  | .failed sequence code =>
    some ((s.sourceStatus .error (some t.generation) (some sequence) (some code)).setStage n t.rest)
  | _ => none

def next (s : Sourced) : SourceEvent → Option Sourced
  | .starts driver once expired =>
    if expired then some (s.sourceStatus .expired none none none)
    else
      let generation := max s.generation ((s.stored.map Datum.generation).getD 0) + 1
      some { s with generation, tasks := s.tasks ++ [{ driver, once, generation }] }
  | .begins n => (s.tasks[n]?).bind fun t =>
    if t.stage = .starting then some ((s.sourceStatus .starting (some t.generation) none none).setStage n .driving)
    else none
  | .idles n => (s.tasks[n]?).bind fun t =>
    if t.stage = .driving ∧ t.driver = .push then
      some ((s.sourceStatus .idle (some t.generation) none none).setStage n .over)
    else none
  | .ticks n w now => (s.tasks[n]?).bind fun t =>
    if t.stage = .driving ∧ t.driver ≠ .push then
      (s.publish (.value t.generation w) now).map fun r => r.1.setStage n .published
    else none
  | .fails n code now => (s.tasks[n]?).bind fun t =>
    if t.stage = .driving ∨ t.stage = .published then
      (s.publish (.error t.generation code) now).map fun r => r.1.setStage n (.failed r.2.sequence code)
    else none
  | .reports n => (s.tasks[n]?).bind fun t => s.report n t
  | .expires n => (s.tasks[n]?).bind fun t =>
    if t.stage = .driving ∧ t.driver.loops then
      some ((s.sourceStatus .expired (some t.generation) none none).setStage n .over)
    else none
  | .ends n => some (s.setStage n .over)
  | .stops => some (s.sourceStatus .stopped none none none)
  | .commits d => some { s with live := some d, generation := max s.generation d.generation }
  | .checkpoints now => some { s with stored := (s.live.map fun d => checkpointRow s.stored d now).or s.stored }
  | .restarts => some { stored := s.stored, sent := s.sent, client := s.client }
  | .delivers i => (s.calls[i]?).map fun f =>
    { s with calls := s.calls.eraseIdx i, sent := s.sent ++ [f], client := s.client.handle f }
  | .drops i => (s.calls[i]?).map fun _ => { s with calls := s.calls.eraseIdx i }

end Sourced

end OpenAgent.Dashboards
