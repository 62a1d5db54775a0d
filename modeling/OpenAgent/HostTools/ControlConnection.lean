import OpenAgent.HostTools.Principals
import OpenAgent.Lib.Replay
import OpenAgent.Lib.Runs

namespace OpenAgent.HostTools

open Py Replay

/-- Where a `process` task waits. -/
inductive ProcessStage
  | queued (request : Json)
  | dispatching (request principal : Json)
  | writing (close : Bool)
  | done

inductive HandlerStage
  | serving
  | waiting
  | ending
  | releasing (principals : List Json)
  | closed

structure ControlConnection where
  stage : HandlerStage := .serving
  shouldClose : Bool := false
  nextTask : Nat := 0
  task : Nat → ProcessStage := fun _ => .done
  principals : Dict String Json := Dict.empty
  /-- The principals for which `host.release_principal` was called at the end. -/
  attempted : List Json := []
  history : List (Change Json) := []

/-- `reply.frame["ok"]` and `reply.close` of `dispatch_control`; `host` tells whether the host's operation returned. -/
def dispatchControl (request : Json) (host : Bool) : Bool × Bool :=
  if request.field "id" = .null || request.field "id" = .str "" then (false, false)
  else if request.field "type" = .str "shutdown" then (true, true)
  else if request.field "type" = .str "release_principal" then ((request.field "principal").truthy && host, false)
  else (host, false)

def hashable : Json → Bool
  | .arr _ | .obj _ => false
  | _ => true

def usesPrincipal (request : Json) : Bool :=
  ["call", "provider_control", "read_resource"].any (fun t => request.field "type" = .str t)

namespace ControlConnection

def setTask (c : ControlConnection) (t : Nat) (s : ProcessStage) : ControlConnection :=
  { c with task := Function.update c.task t s }

/-- `process` up to the dispatch. -/
def begin (c : ControlConnection) (t : Nat) (request : Json) : ControlConnection :=
  let principal := request.field "principal"
  if !hashable (request.field "type") then c.setTask t .done
  else if usesPrincipal request then
    let principal := principal.orElse (.str "local-control-client")
    match LocalBroker.principalId principal with
    | some k => { c.setTask t (.dispatching request principal) with
        principals := c.principals.set k principal
        history := c.history ++ [.put principal] }
    | none => c.setTask t .done
  else c.setTask t (.dispatching request principal)

/-- `process` from the answer of the dispatch to the write. -/
def answer (c : ControlConnection) (t : Nat) (request principal : Json) (host : Bool) : ControlConnection :=
  let (ok, close) := dispatchControl request host
  if request.field "type" = .str "release_principal" && ok && principal.truthy then
    match LocalBroker.principalId principal with
    | some k => { c.setTask t (.writing close) with
        principals := c.principals.erase k
        history := c.history ++ [.drop principal] }
    | none => { c.setTask t .done with history := c.history ++ [.drop principal] }
  else c.setTask t (.writing close)

end ControlConnection

inductive ConnectionEvent
  /-- A line, with the object that it holds; `none` where it holds none. -/
  | receives (request : Option Json)
  | starts (t : Nat)
  | answers (t : Nat) (host : Bool)
  | writes (t : Nat)
  | cancelled (t : Nat)
  | ends
  | gathered
  | releases

def connectionNext (c : ControlConnection) : ConnectionEvent → Option ControlConnection
  | .receives request =>
    match c.stage with
    | .serving =>
      let request := (request.filter Json.isObj).getD (.obj [("id", .null), ("type", .str "invalid")])
      some { c.setTask c.nextTask (.queued request) with
        nextTask := c.nextTask + 1
        stage := if request.field "type" = .str "shutdown" then .waiting else .serving }
    | _ => none
  | .starts t =>
    match c.task t with
    | .queued request => some (c.begin t request)
    | _ => none
  | .answers t host =>
    match c.task t with
    | .dispatching request principal => some (c.answer t request principal host)
    | _ => none
  | .writes t =>
    match c.task t with
    | .writing close => some { c.setTask t .done with shouldClose := c.shouldClose || close }
    | _ => none
  | .cancelled t =>
    match c.stage, c.task t with
    | .ending, .queued _ => some (c.setTask t .done)
    -- `dispatch_control` turns the cancellation into an error reply
    | .ending, .dispatching request principal => some (c.answer t request principal false)
    | .ending, .writing _ => some (c.setTask t .done)
    | _, _ => none
  | .ends =>
    match c.stage with
    | .serving => some { c with stage := .ending }
    | .waiting => if c.shouldClose then some { c with stage := .ending } else none
    | _ => none
  | .gathered =>
    match c.stage with
    | .ending =>
      if (List.range c.nextTask).all (fun t => match c.task t with
          | .done => true
          | _ => false) then
        some { c with stage := .releasing c.principals.values }
      else none
    | _ => none
  | .releases =>
    match c.stage with
    | .releasing (p :: rest) => some { c with stage := .releasing rest, attempted := c.attempted ++ [p] }
    | .releasing [] => some { c with stage := .closed }
    | _ => none

end OpenAgent.HostTools
