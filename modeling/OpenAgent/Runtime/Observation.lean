import OpenAgent.Lib.Feed
import OpenAgent.Lib.JsonDumps
import OpenAgent.Lib.Runs

namespace OpenAgent.Runtime

open Py

structure RunEvent where
  cursor : Nat
  kind : String
  payload : Json

structure RunRecord where
  status : String := "queued"
  terminal : Bool := false
  output : Json := .null

structure PreparedRun where
  runId : String
  cancelOnDetach : Bool := true

/-- What the observer awaits: `runtime.events`, the handling of what it got, `get_run` or the sleep. -/
inductive Stage
  | reading
  | handling (events : List RunEvent)
  | checking
  | sleeping
  | returned
  | raised

structure Observer where
  stage : Stage := .reading
  cursor : Nat := 0
  completedFrame : Bool := false
  toolStatuses : Dict Json Json := Dict.empty
  yielded : List Json := []
  reported : List String := []

structure World where
  log : List RunEvent := []
  record : RunRecord := {}
  observer : Observer := {}
  /-- `runtime.cancel` was called. -/
  cancelled : Bool := false

def isDone (payload : Json) : Bool := payload.field "kind" = .str "done"

/-- `value[key]`; `none` is the `KeyError`. -/
def item (j : Json) (k : String) : Option Json := if j.has k then some (j.field k) else none

def putItem (j : Json) (k : String) (v : Json) : Json :=
  match j with
  | .obj entries => .obj (Assoc.set entries k v)
  | j => j

def toolStatus (payload : Json) : Option Json := do
  let callId ← item payload "call_id"
  let binding ← item payload "binding"
  let name ← item binding "name"
  let source ← item binding "source_id"
  let ref ← item binding "tool_ref"
  let arguments ← item payload "arguments"
  some (.obj [("tool_call_id", callId), ("tool_name", name), ("tool_server", source), ("tool_ref", ref),
    ("metadata", (item binding "metadata").getD (.obj [])), ("tool_args", arguments),
    ("execution_host", binding.field "execution_host"), ("result", .null)])

def completeStatus (status payload : Json) : Json :=
  let result := (item payload "result").getD (payload.field "error")
  putItem (putItem status "result" (.str result.dumps)) "tool_call_error"
    (.bool (payload.field "status" ≠ .str "success"))

def callStatus (known : Option Json) (e : RunEvent) : Option Json := do
  let status ← match known with
    | some status => if e.kind = "tool.invoking" then toolStatus e.payload else some status
    | none => toolStatus e.payload
  some (if e.kind = "tool.completed" then completeStatus status e.payload else status)

namespace Observer

def hidden (status : Option Json) : Bool :=
  match status with
  | some status => status.isObj && status.field "tool_name" = .str "tool_search_call_tool"
  | none => false

/-- One event of a batch; `loads` is `json.loads`, and `none` an exception. -/
def handle (loads : String → Option Json) (onStatus : Bool) (o : Observer) (e : RunEvent) : Option Observer :=
  if e.kind = "run.stream" then
    some { o with
      cursor := e.cursor
      completedFrame := o.completedFrame || isDone e.payload
      yielded := o.yielded ++ [e.payload] }
  else if e.kind = "run.status" && onStatus then
    let text := ((e.payload.field "text").orElse (.str "")).pyStr
    some { o with cursor := e.cursor, reported := if hidden (loads text) then o.reported else o.reported ++ [text] }
  else if (e.kind = "tool.invoking" || e.kind = "tool.completed") && onStatus then do
    let callId ← item e.payload "call_id"
    let status ← callStatus (o.toolStatuses.get? callId) e
    some { o with
      cursor := e.cursor
      toolStatuses := o.toolStatuses.set callId status
      reported := o.reported ++ [status.dumps] }
  else some { o with cursor := e.cursor }

def isActive (o : Observer) : Bool :=
  match o.stage with
  | .returned | .raised => false
  | _ => true

end Observer

def donePayload (runId : String) (output : Json) : Json :=
  .obj [("kind", .str "done"), ("text", output.orElse (.str "")), ("run_id", .str runId)]

inductive Event
  | appends (e : RunEvent)
  | updates (record : RunRecord)
  | events
  | handles
  | getRun
  | wakes
  | fails
  | cancels

namespace World

variable (loads : String → Option Json) (onStatus : Bool) (prepared : PreparedRun)

def enter (w : World) (s : Stage) : World := { w with observer := { w.observer with stage := s } }

def settle (w : World) : World :=
  if w.record.terminal then
    if w.record.status ≠ "success" then w.enter .raised
    else { w with observer := { w.observer with
      stage := .returned
      yielded := if w.observer.completedFrame then w.observer.yielded
        else w.observer.yielded ++ [donePayload prepared.runId w.record.output] } }
  else w.enter .sleeping

def next (w : World) : Event → Option World
  | .appends e =>
    if !w.record.terminal && decide (0 < e.cursor) && w.log.all (fun x => decide (x.cursor < e.cursor)) then
      some { w with log := w.log ++ [e] }
    else none
  | .updates record => if w.record.terminal then none else some { w with record }
  | .events =>
    match w.observer.stage with
    | .reading => some (w.enter (.handling (Feed.after RunEvent.cursor w.observer.cursor w.log)))
    | _ => none
  | .handles =>
    match w.observer.stage with
    | .handling (e :: rest) => some (match w.observer.handle loads onStatus e with
        | some o => { w with observer := { o with stage := .handling rest } }
        | none => w.enter .raised)
    | .handling [] => some (w.enter .checking)
    | _ => none
  | .getRun =>
    match w.observer.stage with
    | .checking => some (w.settle prepared)
    | _ => none
  | .wakes =>
    match w.observer.stage with
    | .sleeping => some (w.enter .reading)
    | _ => none
  | .fails => if w.observer.isActive then some (w.enter .raised) else none
  | .cancels =>
    if w.observer.isActive then
      some { w.enter .raised with cancelled := w.cancelled || prepared.cancelOnDetach }
    else none

end World

def payloads (log : List RunEvent) : List Json :=
  (log.filter (fun e => decide (e.kind = "run.stream"))).map RunEvent.payload

def World.expected (w : World) (prepared : PreparedRun) : List Json :=
  payloads w.log ++ if (payloads w.log).any isDone then [] else [donePayload prepared.runId w.record.output]

/-- The events that were appended after the last answer of `runtime.events`. -/
def missed : List Event → List RunEvent :=
  List.foldl (fun late e => match e with
    | .appends x => late ++ [x]
    | .events => []
    | _ => late) []

end OpenAgent.Runtime
