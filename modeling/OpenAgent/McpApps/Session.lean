import OpenAgent.Lib.Runs
import OpenAgent.McpApps.Protocol

namespace OpenAgent.McpApps

open Py

inductive State
  | new
  | initializing
  | ready
  | closing
  | closed
deriving DecidableEq

structure Operation where
  kind : String
  method : String := ""
deriving DecidableEq

def publishOf (method : String) : Operation := ⟨"publish", method⟩

def admitOf (method : String) : Operation := if method = "ui/initialize" then ⟨"initialize", ""⟩ else ⟨method, ""⟩

def resultOf (method : String) : Operation :=
  if method = "ui/initialize" then ⟨"initialize", ""⟩ else publishOf method

/-- What `broker.authorize` comes to: `true`, anything else, or an error. -/
inductive Answer
  | allow
  | other
  | throws (failure : Failure)

def appRevoked : Failure := mcpAppError "app_revoked"

def operationCancelled : Failure := mcpAppError "operation_cancelled"

/-- A call of `authorize`. -/
inductive Auth
  | asked
  | answered (answer : Answer)
  | passed
  /-- `aborted`: all that it had against the operation was that its signal is aborted. -/
  | threw (failure : Failure) (aborted : Bool)

inductive Stage
  | admission (auth : Auth)
  /-- Awaits `dispatch`; what that comes to where it calls no function of the broker, else what it returns after. -/
  | running (known : Option (Except Failure Json)) (own : Option Json)
  | ran (outcome : Except Failure Json)
  | publish (auth : Auth) (result : Json)
  | recheck (auth : Auth) (failure : Failure)

structure Task where
  method : String
  params : Json
  aborted : Bool := false
  stage : Stage

inductive Notice
  | toolInput (arguments : Json)
  | toolInputPartial (arguments : Json)
  | toolResult (result : Json)
  | toolCancelled (reason : String)
  /-- The `n`th context that the host set. -/
  | hostContext (n : Nat) (context : Json)

def Notice.method : Notice → String
  | .toolInput _ => "ui/notifications/tool-input"
  | .toolInputPartial _ => "ui/notifications/tool-input-partial"
  | .toolResult _ => "ui/notifications/tool-result"
  | .toolCancelled _ => "ui/notifications/tool-cancelled"
  | .hostContext _ _ => "ui/notifications/host-context-changed"

def Notice.params : Notice → Json
  | .toolInput arguments | .toolInputPartial arguments => .obj [("arguments", arguments)]
  | .toolResult result => result
  | .toolCancelled reason => .obj [("reason", .str reason)]
  | .hostContext _ context => context

/-- Whether `flushNow` publishes it, as the input or at the end. -/
def Notice.queued : Notice → Option Bool
  | .toolInput _ => some true
  | .toolResult _ | .toolCancelled _ => some false
  | .toolInputPartial _ | .hostContext _ _ => none

inductive Purpose
  | publish (notice : Notice)
  | resize
  | log

def Purpose.operation : Purpose → Operation
  | .publish notice => publishOf notice.method
  | .resize => ⟨"resize", ""⟩
  | .log => ⟨"log", ""⟩

structure Wait where
  purpose : Purpose
  auth : Auth

inductive Waiter
  | request (key : Json)
  | wait (n : Nat)
deriving DecidableEq

/-- `flushNow`, which awaits a publication or goes on after it. -/
inductive Flush
  | publishing (n : Nat) (input : Bool)
  | published (input : Bool)
deriving DecidableEq

inductive Cause
  | refused
  | invalid
  | revoked
  | disposed
  | cancelled
deriving DecidableEq

inductive Act
  | request (key : Json)
  | dispatched (key : Json) (name : String)
  | granted (waiter : Waiter) (operation : Operation)
  | result (key : Json) (method : String) (value : Json)
  | error (key : Json) (code : Int) (message : String)
  | dropped (key : Json)
  | notice (n : Nat) (notice : Notice)
  | logged
  | inputEnded
  | ready
  | teardown
  | disposed
  | closed (cause : Cause)

structure Options where
  platform : Platform
  broker : Broker
  hostInfo : Json
  policy : Json

structure Session where
  state : State := .new
  seen : List Json := []
  pending : Dict Json Task := Dict.empty
  waits : Dict Nat Wait := Dict.empty
  waitCount : Nat := 0
  hostContext : Json := empty
  contextCount : Nat := 0
  input : Option Json := none
  result : Option Json := none
  cancelled : Option String := none
  inputSent : Bool := false
  toolCancelled : Bool := false
  /-- The flushes that wait behind `delivery`. -/
  delivery : Nat := 0
  flushing : Option Flush := none
  trace : List Act := []

namespace Session

def act (s : Session) (a : Act) : Session := { s with trace := s.trace ++ [a] }

def aborted (s : Session) : Bool := s.state = .closing || s.state = .closed

end Session

def Auth.abort : Auth → Auth
  | .asked => .threw operationCancelled false
  | auth => auth

/-- `controller.abort()` of a request. -/
def Task.abort (task : Task) : Task :=
  { task with
    aborted := true
    stage := match task.stage with
      | .admission auth => .admission auth.abort
      | .running _ _ => .ran (.error operationCancelled)
      | .publish auth result => .publish auth.abort result
      | stage => stage }

/-- `dispatch` is awaited, unless the request was aborted before. -/
def Task.running (task : Task) (known : Option (Except Failure Json)) (own : Option Json) : Stage :=
  if task.aborted then .ran (.error operationCancelled) else .running known own

def Task.abortRecheck (task : Task) : Task :=
  { task with stage := match task.stage with
      | .recheck auth failure => .recheck auth.abort failure
      | stage => stage }

namespace Session

variable (o : Options)

def abortPending (s : Session) : Session := { s with pending := s.pending.mapEntries fun _ task => task.abort }

/-- `this.controller.abort()`. -/
def abortSession (s : Session) : Session :=
  { s with
    pending := s.pending.mapEntries fun _ task => task.abortRecheck
    waits := s.waits.mapEntries fun _ wait => { wait with auth := wait.auth.abort } }

/-- `revoke`; a session that is being disposed of is closed by that. -/
def revoke (s : Session) (cause : Cause) : Session :=
  if s.state = .closed then s
  else
    let cause := if s.state = .closing then .disposed else cause
    { (s.abortSession.abortPending.act (.closed cause)) with state := .closed, input := none, result := none }

/-- `authorize`, up to the broker: the guard, for a signal that is aborted or not. -/
def authorize (s : Session) (signal : Bool) : Auth :=
  if s.state = .closed then .threw appRevoked false else if signal then .threw appRevoked true else .asked

/-- `authorize`, after the broker. -/
def check (s : Session) (signal : Bool) : Answer → Auth
  | .allow =>
    if s.state = .closed then .threw appRevoked false else if signal then .threw appRevoked true else .passed
  | .other => .threw appRevoked false
  | .throws failure => .threw failure false

def start (s : Session) (purpose : Purpose) : Session :=
  { s with
    waits := s.waits.set s.waitCount ⟨purpose, s.authorize s.aborted⟩
    waitCount := s.waitCount + 1 }

def flush (s : Session) : Session := { s with delivery := s.delivery + 1 }

def setToolInput (s : Session) (arguments : Json) : Session :=
  if s.inputSent || s.input.isSome then s
  else if !fits o.platform arguments MiB then s
  else
    let s := { s with input := some arguments }
    if arguments.isObj then s.flush else s

def setToolInputUnavailable (s : Session) : Session :=
  if s.inputSent || s.input.isSome then s else ({ s with inputSent := true }.act .inputEnded).flush

def setToolInputPartial (s : Session) (arguments : Json) : Session :=
  if s.inputSent then s
  else if s.state = .ready && fits o.platform arguments MiB then s.start (.publish (.toolInputPartial arguments))
  else s

def setToolResult (s : Session) (result : Json) : Session :=
  if s.toolCancelled then s
  else if !fits o.platform result (16 * MiB) then s
  else { s with result := some result }.flush

def setHostContext (s : Session) (context : Json) : Session :=
  if !fits o.platform context MiB then s
  else
    let n := s.contextCount
    let s := { s with hostContext := context, contextCount := n + 1 }
    if s.state = .ready then s.start (.publish (.hostContext n context)) else s

def cancel (s : Session) (reason : String) : Session :=
  { s.abortPending with toolCancelled := true, result := none, cancelled := some reason }.flush

def dispose (s : Session) : Session :=
  if s.state = .closed || s.state = .closing then s
  else
    let s := if s.state = .ready then s.act .teardown else s
    { (s.abortSession.abortPending.act .disposed) with state := .closing }

/-- `flushNow`, after the input stage. -/
def flushRest (s : Session) : Session :=
  let s := { s with flushing := none }
  if !s.inputSent || s.state ≠ .ready then s
  else
    match s.cancelled, s.result with
    | some reason, _ =>
      { ({ s with cancelled := none }.start (.publish (.toolCancelled reason))) with
        flushing := some (.publishing s.waitCount false) }
    | none, some result =>
      { ({ s with result := none }.start (.publish (.toolResult result))) with
        flushing := some (.publishing s.waitCount false) }
    | none, none => s

def flushNow (s : Session) : Session :=
  if s.state ≠ .ready then s
  else
    match s.input, s.inputSent with
    | some arguments, false =>
      { ({ s with inputSent := true }.start (.publish (.toolInput arguments))) with
        flushing := some (.publishing s.waitCount true) }
    | _, _ => s.flushRest

def flushes (s : Session) : Option Session :=
  match s.flushing with
  | none => if s.delivery = 0 then none else some { s with delivery := s.delivery - 1 }.flushNow
  | some (.published true) => some s.flushRest
  | some (.published false) => some { s with flushing := none }
  | some (.publishing _ _) => none

def finish (s : Session) (key : Json) (a : Act) : Session :=
  { s.act a with pending := s.pending.erase key }

def setStage (s : Session) (key : Json) (task : Task) (stage : Stage) : Session :=
  { s with pending := s.pending.set key { task with stage := stage } }

def failureCode (failure : Failure) : Int := if failure.code = some "method_not_found" then -32601 else -32000

def failureMessage (failure : Failure) : String :=
  if failure.known then failure.code.getD "" else "App operation failed"

def replyFailure (s : Session) (key : Json) (failure : Failure) : Session :=
  if s.state = .closed then s.finish key (.dropped key)
  else s.finish key (.error key (failureCode failure) (failureMessage failure))

def giveUp (s : Session) (key : Json) (aborted : Bool) : Session :=
  (s.revoke (if aborted then .cancelled else .refused)).finish key (.dropped key)

def caught (s : Session) (key : Json) (task : Task) (failure : Failure) (aborted : Bool) : Session :=
  if failure.code = appRevoked.code then s.giveUp key aborted
  else if s.state = .ready then s.setStage key task (.recheck (s.authorize s.aborted) failure)
  else s.replyFailure key failure

def sendResult (s : Session) (key : Json) (task : Task) (result : Json) : Session :=
  if !task.aborted && s.state ≠ .closed then
    if fits o.platform (orEmpty result) (16 * MiB) then s.finish key (.result key task.method (orEmpty result))
    else s.caught key task (mcpAppError "payload_limit") false
  else s.finish key (.dropped key)

def capabilities : Json :=
  .obj ((if o.broker.callTool then [("serverTools", empty)] else []) ++
    (if o.broker.readResource then [("serverResources", empty)] else []) ++
    (if o.broker.openLink then [("openLinks", empty)] else []) ++
    (if o.broker.log then [("logging", empty)] else []) ++ [("sandbox", o.policy)])

def initializeResult (s : Session) : Json :=
  .obj [("protocolVersion", .str MCP_APPS_VERSION), ("hostInfo", o.hostInfo), ("hostCapabilities", capabilities o),
    ("hostContext", s.hostContext)]

def dispatchRequest (s : Session) (key : Json) (task : Task) : Session :=
  match dispatch o.platform o.broker task.method task.params with
  | .throws failure => s.setStage key task (task.running (some (.error failure)) none)
  | .returns result => s.setStage key task (task.running (some (.ok result)) none)
  | .calls name _ own => (s.setStage key task (task.running none own)).act (.dispatched key name)

/-- A request goes on after its authorization, or after `dispatch`. -/
def resumeRequest (s : Session) (key : Json) (task : Task) : Option Session :=
  match task.stage with
  | .admission .passed =>
    some (if task.method = "ui/initialize" then s.sendResult o key task (s.initializeResult o)
      else s.dispatchRequest o key task)
  | .admission (.threw failure aborted) => some (s.caught key task failure aborted)
  | .ran (.ok result) => some (s.setStage key task (.publish (s.authorize task.aborted) result))
  | .ran (.error failure) => some (s.caught key task failure false)
  | .publish .passed result => some (s.sendResult o key task result)
  | .publish (.threw failure aborted) _ => some (s.caught key task failure aborted)
  | .recheck .passed failure => some (s.replyFailure key failure)
  | .recheck (.threw _ _) _ => some (s.giveUp key false)
  | _ => none

/-- `dispatch` settles, with the answer of the broker where it called it. -/
def settles (s : Session) (key : Json) (answer : Except Failure Json) : Option Session :=
  match s.pending.get? key with
  | some task =>
    match task.stage with
    | .running known own =>
      let outcome := known.getD (answer.map fun value => own.getD value)
      some (s.setStage key task (.ran outcome))
    | _ => none
  | none => none

def answers (s : Session) (waiter : Waiter) (answer : Answer) : Option Session :=
  match waiter with
  | .request key =>
    match s.pending.get? key with
    | some task =>
      match task.stage with
      | .admission .asked => some (s.setStage key task (.admission (.answered answer)))
      | .publish .asked result => some (s.setStage key task (.publish (.answered answer) result))
      | .recheck .asked failure => some (s.setStage key task (.recheck (.answered answer) failure))
      | _ => none
    | none => none
  | .wait n =>
    match s.waits.get? n with
    | some ⟨purpose, .asked⟩ => some { s with waits := s.waits.set n ⟨purpose, .answered answer⟩ }
    | _ => none

def note (s : Session) (waiter : Waiter) (operation : Operation) : Auth → Session
  | .passed => s.act (.granted waiter operation)
  | _ => s

/-- `authorize` looks at the answer. -/
def checks (s : Session) (waiter : Waiter) : Option Session :=
  match waiter with
  | .request key =>
    match s.pending.get? key with
    | some task =>
      match task.stage with
      | .admission (.answered answer) =>
        let auth := s.check task.aborted answer
        some ((s.setStage key task (.admission auth)).note waiter (admitOf task.method) auth)
      | .publish (.answered answer) result =>
        let auth := s.check task.aborted answer
        some ((s.setStage key task (.publish auth result)).note waiter (publishOf task.method) auth)
      | .recheck (.answered answer) failure =>
        let auth := s.check s.aborted answer
        some ((s.setStage key task (.recheck auth failure)).note waiter (publishOf task.method) auth)
      | _ => none
    | none => none
  | .wait n =>
    match s.waits.get? n with
    | some ⟨purpose, .answered answer⟩ =>
      let auth := s.check s.aborted answer
      some ({ s with waits := s.waits.set n ⟨purpose, auth⟩ }.note waiter purpose.operation auth)
    | _ => none

/-- A publication returns, to `flushNow` where that awaits it. -/
def published (s : Session) (notice : Notice) : Session :=
  match notice.queued with
  | some input => { s with flushing := some (.published input) }
  | none => s

def resumeWait (s : Session) (n : Nat) (wait : Wait) : Option Session :=
  let s := { s with waits := s.waits.erase n }
  match wait.purpose, wait.auth with
  | .publish notice, .passed =>
    some ((if s.state = .closed then s else if fits o.platform notice.params (16 * MiB) then s.act (.notice n notice)
      else s.revoke .refused).published notice)
  | .publish notice, .threw _ _ => some ((s.revoke .refused).published notice)
  | .resize, .passed => some s
  | .resize, .threw _ _ => some (s.revoke .refused)
  | .log, .passed => some (s.act .logged)
  | .log, .threw _ _ => some s
  | _, _ => none

def resumes (s : Session) (waiter : Waiter) : Option Session :=
  match waiter with
  | .request key =>
    match s.pending.get? key with
    | some task => s.resumeRequest o key task
    | none => none
  | .wait n =>
    match s.waits.get? n with
    | some wait => s.resumeWait o n wait
    | none => none

def receiveNotification (s : Session) (method : String) (params : Json) : Session :=
  if method = "ui/notifications/initialized" then
    if s.state ≠ .initializing then s.revoke .invalid else ({ s with state := .ready }.act .ready).flush
  else if s.state ≠ .ready then s
  else if method = "notifications/cancelled" then
    { s with pending := s.pending.mapEntries fun key task => if key = params.field "requestId" then task.abort else task }
  else if method = "ui/notifications/size-changed" then
    if sized o.platform params then s.start .resize else s
  else if method = "notifications/message" && o.broker.log then s.start .log
  else s

def validInitialize (params : Json) : Bool :=
  params.field "protocolVersion" = .str MCP_APPS_VERSION && (params.field "appInfo").isObj &&
    safeString ((params.field "appInfo").field "name") 128 && safeString ((params.field "appInfo").field "version") 64 &&
    (params.field "appCapabilities").isObj

def admitRequest (s : Session) (key : Json) (task : Task) : Session :=
  if task.method = "ui/initialize" then
    if s.state ≠ .new || !validInitialize task.params then
      s.caught key task (mcpAppError "unsupported_ui_protocol") false
    else { s with state := .initializing }.setStage key task (.admission (s.authorize false))
  else if s.state ≠ .ready then s.caught key task (mcpAppError "app_not_initialized") false
  else s.setStage key task (.admission (s.authorize false))

def receiveRequest (s : Session) (key : Json) (method : String) (params : Json) : Session :=
  if !validId key then s.revoke .invalid
  else
    let s := s.act (.request key)
    if s.seen.contains key || 4096 ≤ s.seen.length || 16 ≤ s.pending.size then
      s.act (.error key (-32600) "Duplicate request or session request limit")
    else
      let task : Task := { method := method, params := params, stage := .admission .asked }
      { s with seen := s.seen ++ [key], pending := s.pending.set key task }.admitRequest key task

/-- `receive`; `none` is a value that has no text. -/
def receive (s : Session) (raw : Option Json) : Session :=
  if s.state = .closed || s.state = .closing then s
  else
    match raw with
    | none => s.revoke .invalid
    | some frame =>
      if !fits o.platform frame MiB then s.revoke .invalid
      else
        match frame.field "jsonrpc", frame.field "method" with
        | .str "2.0", .str method =>
          if !optionally frame "params" Json.isObj then s.revoke .invalid
          else
            let params := orEmpty (frame.field "params")
            if frame.has "id" then s.receiveRequest (frame.field "id") method params
            else s.receiveNotification o method params
        | _, _ => s.revoke .invalid

end Session

inductive Event
  | frame (raw : Option Json)
  -- of the host
  | setToolInput (arguments : Json)
  | setToolInputUnavailable
  | setToolInputPartial (arguments : Json)
  | setToolResult (result : Json)
  | setHostContext (context : Json)
  | cancel (reason : String)
  | revoke
  | dispose
  -- timers
  | timesOut (key : Json)
  | disposes
  -- awaits
  | answers (waiter : Waiter) (answer : Answer)
  | settles (key : Json) (answer : Except Failure Json)
  | checks (waiter : Waiter)
  | resumes (waiter : Waiter)
  | flushes

namespace Session

variable (o : Options)

def next (s : Session) : Event → Option Session
  | .frame raw => some (s.receive o raw)
  | .setToolInput arguments => some (s.setToolInput o arguments)
  | .setToolInputUnavailable => some s.setToolInputUnavailable
  | .setToolInputPartial arguments => some (s.setToolInputPartial o arguments)
  | .setToolResult result => some (s.setToolResult o result)
  | .setHostContext context => some (s.setHostContext o context)
  | .cancel reason => some (s.cancel reason)
  | .revoke => some (s.revoke .revoked)
  | .dispose => some s.dispose
  | .timesOut key => some { s with
      pending := s.pending.mapEntries fun k task => if k = key then task.abort else task }
  | .disposes => if s.state = .closing then some (s.revoke .disposed) else none
  | .answers waiter answer => s.answers waiter answer
  | .settles key answer => s.settles key answer
  | .checks waiter => s.checks waiter
  | .resumes waiter => s.resumes o waiter
  | .flushes => s.flushes

end Session

end OpenAgent.McpApps
