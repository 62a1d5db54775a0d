import OpenAgent.Gateway.Collaboration.Access
import OpenAgent.Lib.JsonDumps
import OpenAgent.Lib.Runs

namespace OpenAgent.Gateway.Collaboration

open Py

abbrev TaskId := Nat
abbrev ChatId := Nat
abbrev StopId := Nat
abbrev RuntimeId := Nat

inductive TurnDelivery
  | queue
  | steer
deriving DecidableEq

structure Submission where
  sid : String := ""
  requestId : String := ""
  text : String := ""
  delivery : TurnDelivery := .queue
  attachments : List Json := []
  instanceId : Option String := none
  appConnectionId : Option String := none

namespace Submission

def key (s : Submission) : String × String := (s.sid, s.requestId)

/-- `text.strip() or "[Attachments]"`. -/
def input (s : Submission) : String := if strip s.text = "" then "[Attachments]" else strip s.text

def command (s : Submission) : Option String :=
  match s.input.toList with
  | '/' :: cs => some (lower (String.ofList (cs.takeWhile (fun c => !isSpace c))))
  | _ => none

end Submission

def stringOf : Json → Option String
  | .str s => some s
  | _ => none

def identifierOf (j : Json) : Option String := (stringOf j).filter (fun s => isIdentifier s)

/-- An optional identifier: `none` where it is not one, `some none` where it is missing. -/
def optionalIdentifier : Json → Option (Option String)
  | .null => some none
  | j => (identifierOf j).map some

def deliveryOf (body : Json) : Option TurnDelivery :=
  if !body.has "delivery" then some .queue
  else match body.field "delivery" with
    | .str "queue" => some .queue
    | .str "steer" => some .steer
    | _ => none

def chatFields : List String :=
  ["session_id", "message", "request_id", "delivery", "attachments", "client_instance_id", "app_connection_id"]

/-- The checks of `handle_chat` on the body; `none` is its 400. `publicRef` is `public_attachment_ref`. -/
def parseChat (publicRef : Json → Json) (body : Json) : Option Submission :=
  match body with
  | .obj entries =>
    if entries.any (fun e => !chatFields.contains e.1) then none
    else do
      let sid ← identifierOf (body.field "session_id")
      let requestId ← identifierOf (body.field "request_id")
      let attachments ← match (body.field "attachments").orElse (.arr []) with
        | .arr items => if items.length > 32 then none else some items
        | _ => none
      if attachments.any (fun a => !a.isObj || (stringOf (a.field "artifact_id")).isNone ||
          a.dumps.length > 8192) then none
      else
        let appConnectionId ← optionalIdentifier (body.field "app_connection_id")
        let instanceId ← optionalIdentifier (body.field "client_instance_id")
        let text ← stringOf (body.field "message")
        if (strip text = "" && attachments.isEmpty) || text.length > 131072 then none
        else
          let delivery ← deliveryOf body
          some { sid, requestId, text, delivery, attachments := attachments.map publicRef
                 instanceId, appConnectionId }
  | _ => none

structure Fingerprint where
  userId : String
  text : String
  delivery : TurnDelivery
  attachments : String
  instanceId : Option String
deriving DecidableEq

def Submission.fingerprint (s : Submission) (userId : String) : Fingerprint :=
  ⟨userId, s.text, s.delivery, (Json.arr s.attachments).dumpsSorted, s.instanceId⟩

/-- How a task ended: with a result, cancelled, or by one of the exceptions that `handle_chat` tells apart. -/
inductive Outcome
  | result
  | permission
  | busy
  | idempotency
  | artifactNotFound
  | artifactIntegrity
  | attachmentTooLarge
  | artifact
  | cancelled
  | other
deriving DecidableEq

def Outcome.status : Outcome → Nat
  | .result | .cancelled => 200
  | .permission => 403
  | .busy | .idempotency => 409
  | .artifactNotFound => 404
  | .artifactIntegrity => 503
  | .attachmentTooLarge => 413
  | .artifact => 400
  | .other => 500

inductive Actor
  | task (t : TaskId)
  | stop (n : StopId)
deriving DecidableEq

/-- Where an `_interrupt` waits. -/
inductive Phase
  | context
  | cancelling
  | dispatch
  | turn
deriving DecidableEq

/-- Where a `_run` waits. -/
inductive TaskStage
  | checking
  | opening
  | starting (rt : RuntimeId)
  | preparing (rt : RuntimeId)
  | admissionWait (rt : RuntimeId)
  | admissionCheck (rt : RuntimeId)
  | admitting (rt : RuntimeId) (steers : Bool)
  | interrupting (rt : RuntimeId) (active : TaskId) (phase : Phase)
  | lockWait (rt : RuntimeId)
  | lockCheck (rt : RuntimeId)
  | waitingRun (rt : RuntimeId)
  | running (rt : RuntimeId)
  | done (outcome : Outcome)
deriving DecidableEq

def TaskStage.isDone : TaskStage → Bool
  | .done _ => true
  | _ => false

/-- One `_run`, with what `handle_chat` passed to it. -/
structure Task where
  userId : String := ""
  submission : Submission := {}
  stage : TaskStage := .checking
  cancelRequested : Bool := false
  interrupted : Bool := false
  reported : Bool := false

structure Entry where
  fingerprint : Fingerprint
  task : TaskId
  /-- `none` is `float("inf")`. -/
  finishedAt : Option Int

inductive ChatAnswer
  | badRequest
  | unavailable
  | conflict
  | tooMany
  | ofTask (status : Nat)
deriving DecidableEq

inductive ChatStage
  | checking (s : Submission)
  | pruning (s : Submission) (userId : String)
  | looking (s : Submission) (userId : String)
  | waiting (s : Submission) (userId : String) (task : TaskId)
  | answered (a : ChatAnswer)

inductive StopStage
  | checking (sid requestId : String)
  | admissionWait (rt : RuntimeId) (target : TaskId)
  | admissionCheck (rt : RuntimeId) (target : TaskId)
  | interrupting (rt : RuntimeId) (target active : TaskId) (phase : Phase)
  | answered (target : Option TaskId) (stopped : Option Bool)

structure Runtime where
  admission : Option Actor := none
  lock : Option TaskId := none
  active : Option TaskId := none

inductive Effect
  | ran (t : TaskId)
  | admitted (t : TaskId)
  | runCancelled (actor : Actor) (requestId : String)
  | turnCancelled (actor : Actor) (t : TaskId)
  | taskCancelled (actor : Actor) (t : TaskId)
deriving DecidableEq

structure Desk where
  requests : Dict (String × String) Entry := Dict.empty
  nextTask : TaskId := 0
  task : TaskId → Task := fun _ => {}
  chat : ChatId → Option ChatStage := fun _ => none
  stop : StopId → Option StopStage := fun _ => none
  runtimes : Dict String RuntimeId := Dict.empty
  nextRuntime : RuntimeId := 0
  runtime : RuntimeId → Runtime := fun _ => {}
  registry : Option TaskId := none
  /-- The keys of `prepared_runs`. -/
  prepared : List String := []
  trace : List Effect := []

namespace Desk

def setTask (d : Desk) (t : TaskId) (x : Task) : Desk := { d with task := Function.update d.task t x }

def setStage (d : Desk) (t : TaskId) (s : TaskStage) : Desk := d.setTask t { d.task t with stage := s }

def setChat (d : Desk) (n : ChatId) (s : ChatStage) : Desk :=
  { d with chat := Function.update d.chat n (some s) }

def setStop (d : Desk) (n : StopId) (s : StopStage) : Desk :=
  { d with stop := Function.update d.stop n (some s) }

def setRuntime (d : Desk) (rt : RuntimeId) (x : Runtime) : Desk :=
  { d with runtime := Function.update d.runtime rt x }

def emit (d : Desk) (e : Effect) : Desk := { d with trace := d.trace ++ [e] }

def requestId (d : Desk) (t : TaskId) : String := (d.task t).submission.requestId

def isCommand (d : Desk) (t : TaskId) : Bool := (d.task t).submission.command.isSome

def isDone (d : Desk) (t : TaskId) : Bool := (d.task t).stage.isDone

/-- The first loop of `prune`. -/
def prune (d : Desk) (now : Int) : Desk :=
  { d with requests := d.requests.filter (fun _ e =>
      !(d.isDone e.task && (e.finishedAt.map (fun at_ => decide (now - at_ > 60000))).getD false)) }

def look (d : Desk) (n : ChatId) (s : Submission) (userId : String) : Desk :=
  match d.requests.get? s.key with
  | some e =>
    if e.fingerprint ≠ s.fingerprint userId then d.setChat n (.answered .conflict)
    else d.setChat n (.waiting s userId e.task)
  | none =>
    if d.requests.size ≥ 256 then d.setChat n (.answered .tooMany)
    else
      let t := d.nextTask
      let d := { d.setTask t { userId, submission := s } with nextTask := t + 1 }
      let d := { d with requests := d.requests.set s.key ⟨s.fingerprint userId, t, none⟩ }
      (d.emit (.ran t)).setChat n (.waiting s userId t)

/-- `completed`, the callback of a finished task. -/
def completed (d : Desk) (t : TaskId) (outcome : Outcome) (now : Int) : Desk :=
  let key := (d.task t).submission.key
  let d := d.setTask t { d.task t with reported := true }
  match d.requests.get? key with
  | some e =>
    if e.task ≠ t then d
    else if outcome = .busy then { d with requests := d.requests.erase key }
    else { d with requests := d.requests.set key { e with finishedAt := some now } }
  | none => d

def releaseAdmission (d : Desk) (rt : RuntimeId) : Desk :=
  d.setRuntime rt { d.runtime rt with admission := none }

def releaseLock (d : Desk) (rt : RuntimeId) : Desk :=
  d.setRuntime rt { d.runtime rt with lock := none }

/-- What the `finally` and the context managers around an await undo. -/
def unwind (d : Desk) (t : TaskId) : Desk :=
  match (d.task t).stage with
  | .starting _ => { d with registry := none, runtimes := d.runtimes.erase (d.task t).submission.sid }
  | .admissionCheck rt | .admitting rt _ | .interrupting rt _ _ => d.releaseAdmission rt
  | .lockCheck rt | .waitingRun rt => d.releaseLock rt
  | .running rt => (d.setRuntime rt { d.runtime rt with active := none }).releaseLock rt
  | _ => d

def finish (d : Desk) (t : TaskId) (outcome : Outcome) : Desk := (d.unwind t).setStage t (.done outcome)

def requestCancel (d : Desk) (actor : Actor) (t : TaskId) : Desk :=
  if d.isDone t then d
  else (d.setTask t { d.task t with cancelRequested := true }).emit (.taskCancelled actor t)

/-- `_interrupt` up to its first await; `none` where it returns `False`. -/
def interrupt (d : Desk) (actor : Actor) (rt : RuntimeId) (cancelExecution withIdentity : Bool) :
    Desk × Option (TaskId × Phase) :=
  match (d.runtime rt).active with
  | none => (d, none)
  | some a =>
    if d.isCommand a then (d, none)
    else if cancelExecution && d.prepared.contains (d.requestId a) then
      if withIdentity then (d, some (a, .context))
      else (d.emit (.runCancelled actor (d.requestId a)), some (a, .cancelling))
    else (d.setTask a { d.task a with interrupted := true }, some (a, .dispatch))

/-- `_interrupt` from one await to the next; `none` where it returns `True`. -/
def interruptStep (d : Desk) (actor : Actor) (rt : RuntimeId) (a : TaskId) : Phase → Desk × Option Phase
  | .context => (d.emit (.runCancelled actor (d.requestId a)), some .cancelling)
  | .cancelling => (d.setTask a { d.task a with interrupted := true }, some .dispatch)
  | .dispatch =>
    -- `_cancel_active_turn` takes no argument: it meets whichever turn is active now
    match (d.runtime rt).active with
    | some b => (d.emit (.turnCancelled actor b), some .turn)
    | none => (d, some .turn)
  | .turn =>
    if (d.runtime rt).active = some a then (d.requestCancel actor a, none) else (d, none)

def afterInterrupt (d : Desk) (t : TaskId) (rt : RuntimeId) : Option (TaskId × Phase) → Desk
  | some (a, phase) => d.setStage t (.interrupting rt a phase)
  | none => (d.releaseAdmission rt).setStage t (.lockWait rt)

end Desk

inductive Reply
  | ok
  | noCapacity
  | raises (outcome : Outcome)

namespace Desk

def mayRaise : TaskStage → Bool
  | .admissionWait _ | .lockWait _ | .done _ => false
  | _ => true

/-- `_run` from one await to the next. -/
def runTask (d : Desk) (t : TaskId) : Option Desk :=
  let s := (d.task t).submission
  match (d.task t).stage with
  | .checking => some (d.setStage t .opening)
  | .opening =>
    if d.registry.isSome then none
    else match d.runtimes.get? s.sid with
      | some rt => some (d.setStage t (.preparing rt))
      | none =>
        let rt := d.nextRuntime
        some ({ d.setRuntime rt {} with
          nextRuntime := rt + 1
          registry := some t
          runtimes := d.runtimes.set s.sid rt }.setStage t (.starting rt))
  | .starting rt => some ({ d with registry := none }.setStage t (.preparing rt))
  | .preparing rt => some (d.setStage t (.admissionWait rt))
  | .admissionWait rt =>
    if (d.runtime rt).admission.isSome then none
    else some ((d.setRuntime rt { d.runtime rt with admission := some (.task t) }).setStage t (.admissionCheck rt))
  | .admissionCheck rt =>
    match s.command with
    | none =>
      let active := (d.runtime rt).active.filter (fun a => !d.isCommand a)
      some (d.setStage t (.admitting rt (s.delivery = .steer && active.isSome)))
    | some "stop" =>
      let i := d.interrupt (.task t) rt true true
      some (i.1.afterInterrupt t rt i.2)
    | some _ => some (d.afterInterrupt t rt none)
  | .admitting rt steers =>
    let d := { d.emit (.admitted t) with prepared := s.requestId :: d.prepared }
    if steers then
      let i := d.interrupt (.task t) rt false false
      some (i.1.afterInterrupt t rt i.2)
    else some (d.afterInterrupt t rt none)
  | .interrupting rt a phase =>
    let i := d.interruptStep (.task t) rt a phase
    some (i.1.afterInterrupt t rt (i.2.map (fun p => (a, p))))
  | .lockWait rt =>
    if (d.runtime rt).lock.isSome then none
    else some ((d.setRuntime rt { d.runtime rt with lock := some t }).setStage t (.lockCheck rt))
  | .lockCheck rt => some ((d.setRuntime rt { d.runtime rt with active := some t }).setStage t (.running rt))
  | .waitingRun _ | .running _ => some (d.finish t .result)
  | .done _ => none

def stepTask (d : Desk) (t : TaskId) (reply : Reply) : Option Desk :=
  if (d.task t).cancelRequested then none
  else match reply with
    | .ok => d.runTask t
    | .raises outcome => if mayRaise (d.task t).stage then some (d.finish t outcome) else none
    | .noCapacity =>
      match (d.task t).stage with
      | .lockCheck rt =>
        if d.isCommand t then some (d.finish t .busy) else some (d.setStage t (.waitingRun rt))
      | _ => none

/-- `CancelledError` is thrown into the await; a turn that was interrupted answers with what it has. -/
def cancelTask (d : Desk) (t : TaskId) : Option Desk :=
  if !(d.task t).cancelRequested || d.isDone t then none
  else match (d.task t).stage with
    | .running _ => some (d.finish t (if (d.task t).interrupted then .result else .cancelled))
    | _ => some (d.finish t .cancelled)

def answerStop (d : Desk) (n : StopId) (target : Option TaskId) (stopped : Option Bool) : Desk :=
  d.setStop n (.answered target stopped)

/-- `handle_stop` from one await to the next. -/
def runStop (d : Desk) (n : StopId) : Option Desk :=
  match d.stop n with
  | some (.checking sid requestId) =>
    match (d.requests.get? (sid, requestId)).filter (fun e => !d.isDone e.task) with
    | none => some (d.answerStop n none (some false))
    | some e =>
      match d.runtimes.get? sid with
      | some rt => some (d.setStop n (.admissionWait rt e.task))
      | none => some ((d.requestCancel (.stop n) e.task).answerStop n (some e.task) (some true))
  | some (.admissionWait rt t) =>
    if (d.runtime rt).admission.isSome then none
    else some ((d.setRuntime rt { d.runtime rt with admission := some (.stop n) }).setStop n (.admissionCheck rt t))
  | some (.admissionCheck rt t) =>
    if (d.runtime rt).active.any (fun a => d.requestId a = d.requestId t) then
      match d.interrupt (.stop n) rt true false with
      | (d, some (a, phase)) => some (d.setStop n (.interrupting rt t a phase))
      -- the active turn is a command, which completes under the session lock
      | (d, none) => some ((d.releaseAdmission rt).answerStop n (some t) none)
    else some (((d.requestCancel (.stop n) t).releaseAdmission rt).answerStop n (some t) (some true))
  | some (.interrupting rt t a phase) =>
    match d.interruptStep (.stop n) rt a phase with
    | (d, some phase) => some (d.setStop n (.interrupting rt t a phase))
    | (d, none) => some ((d.releaseAdmission rt).answerStop n (some t) (some true))
  | _ => none

/-- An await of `handle_stop` raised: an answer without `stopped`. -/
def failStop (d : Desk) (n : StopId) : Option Desk :=
  match d.stop n with
  | some (.checking _ _) => some (d.answerStop n none none)
  | some (.admissionCheck rt t) | some (.interrupting rt t _ _) =>
    some ((d.releaseAdmission rt).answerStop n (some t) none)
  | _ => none

/-- `prune` and `release_idle` let go of a runtime that no request is using. -/
def dropRuntime (d : Desk) (sid : String) : Option Desk :=
  match d.runtimes.get? sid with
  | some rt =>
    if d.registry.isNone && (d.runtime rt).active.isNone && (List.range d.nextTask).all (fun t =>
        (d.task t).submission.sid ≠ sid || d.isDone t || (d.task t).stage = .checking ||
          (d.task t).stage = .opening) then
      some { d with runtimes := d.runtimes.erase sid }
    else none
  | none => none

end Desk

inductive DeskEvent
  | chat (n : ChatId) (body : Json)
  | chatChecked (n : ChatId) (userId : Option String)
  | chatPruned (n : ChatId) (now : Option Int)
  | chatLooks (n : ChatId)
  | chatAnswers (n : ChatId) (checked : Bool)
  | step (t : TaskId) (reply : Reply)
  | cancelled (t : TaskId)
  | completed (t : TaskId) (now : Int)
  | prune (now : Int)
  | dropRuntime (sid : String)
  | stopRequest (n : StopId) (sid requestId : String)
  | stopStep (n : StopId)
  | stopFails (n : StopId)

/-- One event; `none` where nothing that could cause it is pending. -/
def deskNext (publicRef : Json → Json) (d : Desk) : DeskEvent → Option Desk
  | .chat n body =>
    match d.chat n with
    | some _ => none
    | none => some (d.setChat n (match parseChat publicRef body with
        | some s => .checking s
        | none => .answered .badRequest))
  | .chatChecked n userId =>
    match d.chat n with
    | some (.checking s) => some (d.setChat n (match userId with
        | some u => .pruning s u
        | none => .answered .unavailable))
    | _ => none
  | .chatPruned n now =>
    match d.chat n with
    | some (.pruning s u) => some (match now with
        | some now => (d.prune now).setChat n (.looking s u)
        | none => d.setChat n (.answered .unavailable))
    | _ => none
  | .chatLooks n =>
    match d.chat n with
    | some (.looking s u) => some (d.look n s u)
    | _ => none
  | .chatAnswers n checked =>
    match d.chat n with
    | some (.waiting _ _ t) =>
      match (d.task t).stage with
      | .done .result => some (d.setChat n (.answered (.ofTask (if checked then 200 else 403))))
      | .done outcome => some (d.setChat n (.answered (.ofTask outcome.status)))
      | _ => none
    | _ => none
  | .step t reply => if t < d.nextTask then d.stepTask t reply else none
  | .cancelled t => if t < d.nextTask then d.cancelTask t else none
  | .completed t now =>
    match (d.task t).stage with
    | .done outcome => if (d.task t).reported then none else some (d.completed t outcome now)
    | _ => none
  | .prune now => some (d.prune now)
  | .dropRuntime sid => d.dropRuntime sid
  | .stopRequest n sid requestId =>
    match d.stop n with
    | some _ => none
    | none => if isIdentifier sid && isIdentifier requestId then some (d.setStop n (.checking sid requestId))
        else some (d.setStop n (.answered none none))
  | .stopStep n => d.runStop n
  | .stopFails n => d.failStop n

def ReachableDesk (publicRef : Json → Json) (d : Desk) : Prop := Runs.Reaches (deskNext publicRef) {} d

end OpenAgent.Gateway.Collaboration
