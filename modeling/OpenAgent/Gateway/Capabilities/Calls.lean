import OpenAgent.Gateway.Capabilities.Registry

namespace OpenAgent.Gateway.Capabilities

open Py

def maxPendingCallsPerConnection : Nat := 64
def maxCallTimeout : Int := 600000

/-- The execution context a call is made under, as far as the registry reads it. -/
structure ExecutionContext where
  coalescingKey : String
  sessionId : Option String
  deferred : Bool
  leaseSources : List String

/-- The arguments of `call_tool`; `argumentsSha256` is `none` where hashing the arguments raises. -/
structure ToolCall where
  origin : TurnExecutionOrigin
  serverName : String
  toolName : String
  args : Option Json
  sessionId : Option String
  timeout : Int
  executionContext : Option ExecutionContext
  sourceId : Option String
  argumentsSha256 : Option String

/-- A `client_tool_result` frame; `error` is null when the key is absent. -/
structure ResultFrame where
  callId : CallId
  generation : Int
  error : Json := .null
  result : Option Json := none

/-- A `client_tool_event` frame after the registry's coercions: `none` for a number that does not convert. -/
structure ToolEventFrame where
  generation : Int
  isObject : Bool := true
  type : String
  server : String := "shell"
  shellId : String
  status : String := "exited"
  outputBytes : Option Int := some 0
  stdoutBytes : Option (Option Int) := some none
  stderrBytes : Option Int := some 0
  exitCode : Option (Option Int) := some none
  signal : Option String := none
  time : Option Int := none

def truthyText (s : Option String) : Bool := s.getD "" != ""

namespace ToolCall

def arguments (r : ToolCall) (tool : ToolManifest) : Except ClientCapabilityError Json :=
  let args := r.args.getD (.obj [])
  if args.isObj = false then .error ⟨"INVALID_ARGUMENTS", "args must be an object", .null⟩
  else if r.serverName = "computer-control" ∧ r.toolName = "computer" then desktopArguments tool args
  else .ok args

def background (r : ToolCall) (args : Json) : Bool :=
  r.serverName == "shell" && r.toolName == "shell_exec" && args.field "run_in_background" == .bool true

def authorized (r : ToolCall) : Bool :=
  truthyText r.sourceId && match r.executionContext with
    | none => false
    | some context => context.sessionId == r.sessionId && !context.deferred &&
        context.leaseSources.any (fun s => some s == r.sourceId)

end ToolCall

def retryable (b : Bool) : Json := .obj [("retryable", .bool b)]

def classified (c : Classification) (retry : Bool) : Json :=
  .obj [("classification", .str c.text), ("retryable", .bool retry)]

def backgroundShellId (result : Json) : Option String :=
  let ids := ([result, result.field "structuredContent", result.field "structured_content"].filter
    Json.isObj).map (fun candidate => strip ((candidate.field "shell_id").orElse (.str "")).pyStr)
  ids.find? (fun s => s ≠ "")

def internalShellId [Sha256] (host : HostKey) (shellId : String) : String :=
  "client_" ++ prefixOf 32 (Sha256.hexdigest
    (String.intercalate "\x00" [host.1, host.2.1, toString host.2.2, shellId]).toUTF8.toList)

def withExecutionHost (host : Json) : Json → Json
  | .obj entries =>
    let own := match Assoc.get? entries "_meta" with
      | some (.obj metadata) => metadata
      | _ => []
    .obj (Assoc.set (Assoc.set entries "_meta" (.obj (Assoc.set own "executionHost" host))) "execution_host" host)
  | result => .obj [("content", result), ("execution_host", host),
      ("_meta", .obj [("executionHost", host)])]

namespace World

def requireOrigin (w : World) (o : TurnExecutionOrigin) : Except ClientCapabilityError ConnId :=
  match w.connections.get? o.key with
  | some c =>
    if (w.conn c).generation = o.generation ∧ (w.conn c).authEpoch = o.authEpoch then .ok c
    else if (w.conn c).authEpoch > o.authEpoch then
      .error ⟨"CLIENT_REVOKED", "this turn predates the client's current authorization", retryable false⟩
    else .error ⟨"CLIENT_OFFLINE", "the client capability host for this turn is offline", .null⟩
  | none => .error ⟨"CLIENT_OFFLINE", "the client capability host for this turn is offline", .null⟩

def describeTool (w : World) (o : TurnExecutionOrigin) (serverName toolName : String) :
    Except ClientCapabilityError (ConnId × ToolManifest) :=
  match w.requireOrigin o with
  | .error e => .error e
  | .ok c =>
    match (w.conn c).catalog.get? serverName with
    | none => .error ⟨"MCP_NOT_FOUND",
        s!"client MCP {reprString serverName} is not advertised by this host", .null⟩
    | some server =>
      match server.tools.find? (fun t => t.name = toolName) with
      | none => .error ⟨"TOOL_NOT_FOUND",
          s!"client MCP {reprString serverName} has no tool {reprString toolName}", .null⟩
      | some tool => .ok (c, tool)

def endCall (w : World) (id : CallId) (t : CallTask) (outcome : Outcome) : World :=
  (w.setCall id { t with phase := .ended outcome }).emit (.callEnded id outcome)

def fail (w : World) (id : CallId) (t : CallTask) (e : ClientCapabilityError) : World :=
  w.endCall id t (.raised (.capability e))

def sendCall (w : World) (id : CallId) (t : CallTask) : World :=
  let conn := w.conn t.conn
  ((w.setPending ⟨id, t.attempt⟩ (fun p => { p with dispatchStarted := true })).setCall id
    { t with phase := .sending }).emit
    (.toolCallSent t.conn
      { callId := id, generation := conn.generation, server := t.serverName, tool := t.toolName
        args := t.args, deadlineAt := t.deadlineAt, sessionId := t.sessionId
        accountId := conn.accountId, networkId := conn.networkId, argumentsSha256 := t.argumentsSha256 })

def openAttempt (w : World) (id : CallId) (t : CallTask) : World :=
  (w.setPending ⟨id, t.attempt⟩ (fun _ =>
    { generation := (w.conn t.conn).generation, argumentsSha256 := t.argumentsSha256
      serverName := t.serverName, toolName := t.toolName, sessionId := t.sessionId
      classification := t.classification, backgroundRequested := t.backgroundRequested
      contextKey := t.contextKey, sourceId := t.sourceId })).setConn t.conn
    (fun conn => { conn with pending := conn.pending.set id ⟨id, t.attempt⟩ })

def attempt (w : World) (id : CallId) (previous : CallTask) (now : Int) : World :=
  let t := { previous with attempt := previous.attempt + 1 }
  if t.deadlineAt - now ≤ 0 then
    w.fail id t ⟨"CLIENT_TIMEOUT", "client tool call timed out while waiting for its exact host",
      classified t.classification t.classification.safeToRetry⟩
  else if (findTool (w.conn t.conn).catalog t.serverName t.toolName).map
      (fun tool => classificationForArguments tool t.args) ≠ some t.classification then
    w.fail id t ⟨"CLIENT_CAPABILITY_CHANGED", "the exact client tool contract changed before retry", .null⟩
  else if (w.conn t.conn).pending.size ≥ maxPendingCallsPerConnection then
    w.fail id t ⟨"CLIENT_BACKPRESSURE", "client capability host has too many pending tool calls", .null⟩
  else if w.recordsDeviceUse && truthyText t.sessionId then
    (w.openAttempt id t).setCall id { t with phase := .recording }
  else (w.openAttempt id t).sendCall id t

/-- What `call_tool` decides before its retry loop. -/
def prepareCall (w : World) (r : ToolCall) (now : Int) : Except ClientCapabilityError CallTask :=
  match w.describeTool r.origin r.serverName r.toolName with
  | .error e => .error e
  | .ok (c, tool) =>
    match r.arguments tool with
    | .error e => .error e
    | .ok args =>
      if r.background args && !(w.backgroundJobs && r.authorized) then
        .error ⟨"MISSING_EXECUTION_CONTEXT", "background jobs require their authorized capability context", .null⟩
      else match r.argumentsSha256 with
      | none => .error ⟨"INVALID_ARGUMENTS", "args must contain only finite JSON values", .null⟩
      | some argumentsSha256 => .ok
          { origin := r.origin, serverName := r.serverName, toolName := r.toolName, args
            sessionId := r.sessionId, classification := classificationForArguments tool args
            argumentsSha256, deadlineAt := now + max 100 (min r.timeout maxCallTimeout)
            backgroundRequested := r.background args
            contextKey := r.executionContext.map ExecutionContext.coalescingKey
            sourceId := r.sourceId, conn := c }

def callTool (w : World) (id : CallId) (r : ToolCall) (now : Int) : World :=
  match w.prepareCall r now with
  | .error _ => w
  | .ok t => w.attempt id t now

/-- One turn of `_wait_for_exact_reconnect`, and the next attempt when the exact host is back. -/
def reconnect (w : World) (id : CallId) (t : CallTask) (now : Int) : World :=
  if w.blockEpoch t.origin.deviceId > (w.conn t.conn).authEpoch then
    w.fail id t ⟨"CLIENT_REVOKED", "device authorization was revoked while waiting for reconnect", retryable false⟩
  else if w.floor t.origin.key > t.origin.generation then
    w.fail id t ⟨"STALE_GENERATION", "a newer generation replaced this turn's client host", retryable false⟩
  else
    let waiting := if t.deadlineAt - now ≤ 0 then
        w.fail id t ⟨"CLIENT_TIMEOUT", "the exact client capability host did not reconnect before the deadline",
          classified t.classification true⟩
      else w.setCall id { t with phase := .reconnecting }
    match w.connections.get? t.origin.key with
    | none => waiting
    | some candidate =>
      if (w.conn candidate).authEpoch > t.origin.authEpoch then
        w.fail id t ⟨"CLIENT_REVOKED", "a newly authorized client host cannot inherit an older turn", retryable false⟩
      else if candidate ≠ t.conn ∧ (w.conn candidate).generation = t.origin.generation ∧
          (w.conn candidate).authEpoch = t.origin.authEpoch then
        w.attempt id { t with conn := candidate } now
      else waiting

/-- The `finally` of an attempt. -/
def popPending (w : World) (id : CallId) (t : CallTask) : World :=
  w.setConn t.conn (fun conn => { conn with pending := conn.pending.erase id })

def sendCancel (w : World) (id : CallId) (t : CallTask) (cause : CancelCause) : World :=
  (w.setCall id { t with phase := .cancelling cause }).emit (.toolCancelSent t.conn id cause)

def handleException (w : World) (id : CallId) (t : CallTask) (e : PyException) (now : Int) : World :=
  let p := w.pending ⟨id, t.attempt⟩
  match e with
  | .timeout => w.sendCancel id t .deadlineExceeded
  | .capability error =>
    if p.resultMayBeIndeterminate && !p.determinateResponseReceived && error.code != "CLIENT_RESULT_INDETERMINATE" then
      (w.popPending id t).fail id t (indeterminateError p)
    else if t.classification.safeToRetry && !p.determinateResponseReceived && transportError error.code then
      (w.popPending id t).reconnect id t now
    else (w.popPending id t).fail id t error
  | .other name =>
    if p.resultMayBeIndeterminate && !p.determinateResponseReceived then
      (w.popPending id t).fail id t (indeterminateError p)
    else if t.classification.safeToRetry && !p.determinateResponseReceived then
      (w.popPending id t).reconnect id t now
    else (w.popPending id t).endCall id t (.raised (.other name))

def recordDone (w : World) (id : CallId) (t : CallTask) (r : Except PyException Unit) (now : Int) : World :=
  match r with
  | .ok () => w.sendCall id t
  | .error e => w.handleException id t e now

def sendDone (w : World) (id : CallId) (t : CallTask) (r : Except PyException Bool) (now : Int) : World :=
  let p := w.pending ⟨id, t.attempt⟩
  match r with
  | .ok true => w.setCall id { t with phase := .awaitingResult }
  | .ok false =>
    let error := if p.resultMayBeIndeterminate then indeterminateError p
      else ⟨"CLIENT_OFFLINE", "client capability host is offline",
        classified t.classification t.classification.safeToRetry⟩
    w.handleException id t (.capability error) now
  | .error e => w.handleException id t e now

def resultReady (w : World) (id : CallId) (t : CallTask) (now : Int) : Option World :=
  match (w.pending ⟨id, t.attempt⟩).future with
  | .result value =>
    some ((w.popPending id t).endCall id t (.returned (withExecutionHost t.origin.executionHost value)))
  | .exception error => some (w.handleException id t (.capability error) now)
  | .waiting | .cancelled => none

def cancelFuture (w : World) (id : CallId) (t : CallTask) : World :=
  w.setPending ⟨id, t.attempt⟩ (fun p => if p.future.done then p else { p with future := .cancelled })

def callTimeout (w : World) (id : CallId) (t : CallTask) : Option World :=
  match t.phase with
  | .awaitingResult => some ((w.cancelFuture id t).sendCancel id t .deadlineExceeded)
  | .reconnecting => some (w.fail id t ⟨"CLIENT_TIMEOUT",
      "the exact client capability host did not reconnect before the deadline",
      classified t.classification true⟩)
  | _ => none

def callCancel (w : World) (id : CallId) (t : CallTask) : Option World :=
  match t.phase with
  | .recording | .sending => some (w.sendCancel id t .serverCancelled)
  | .awaitingResult => some ((w.cancelFuture id t).sendCancel id t .serverCancelled)
  | .reconnecting => some (w.endCall id t .cancelled)
  | .cancelling _ | .ended _ => none

def cancelDone (w : World) (id : CallId) (t : CallTask) (cause : CancelCause) : World :=
  let p := w.pending ⟨id, t.attempt⟩
  match cause with
  | .serverCancelled => (w.popPending id t).endCall id t .cancelled
  | .deadlineExceeded =>
    if p.resultMayBeIndeterminate then (w.popPending id t).fail id t (indeterminateError p)
    else (w.popPending id t).fail id t ⟨"CLIENT_TIMEOUT", "client tool call timed out",
      classified t.classification t.classification.safeToRetry⟩

/-- `_track_background_shell`: the shell id and binding an accepted result records, if it does. -/
def trackedShell [Sha256] (w : World) (c : ConnId) (p : PendingCall) (result : Json) :
    Except ClientCapabilityError (Option (String × ClientShellBinding)) :=
  if p.backgroundRequested = false then .ok none
  else if truthyText p.sessionId = false then
    .error ⟨"INVALID_RESULT", "background client shell is missing its originating session", .null⟩
  else match (backgroundShellId result).filter (fun s => s.length ≤ 200) with
  | none => .error ⟨"INVALID_RESULT",
      "background shell result requires a bounded structured shell_id", .null⟩
  | some shellId =>
    let conn := w.conn c
    if (conn.clientShells.get? shellId).isSome then
      .error ⟨"CLIENT_SHELL_ID_COLLISION", "client capability host reused a background shell id", .null⟩
    else if w.backgroundJobs = false ∨ truthyText p.contextKey = false ∨ truthyText p.sourceId = false then
      .error ⟨"MISSING_EXECUTION_CONTEXT", "background job context was lost", .null⟩
    else .ok (some (shellId,
      { clientShellId := shellId, internalShellId := internalShellId conn.clientHost shellId
        sessionId := p.sessionId.getD "", clientHost := conn.clientHost
        contextKey := p.contextKey.getD "", sourceId := p.sourceId.getD "" }))

def recordShell (w : World) (c : ConnId) (shellId : String) (shell : ClientShellBinding) : World :=
  (({ w with binding := Function.update w.binding w.nextBinding shell, nextBinding := w.nextBinding + 1 }).setConn c
    (fun conn => { conn with clientShells := conn.clientShells.set shellId w.nextBinding })).emit
    (.shellRecorded w.nextBinding c)

def recordTracked (w : World) (c : ConnId) : Option (String × ClientShellBinding) → World
  | none => w
  | some (shellId, shell) => w.recordShell c shellId shell

def settle (w : World) (ref : PendingRef) (future : FutureState) : World :=
  w.setPending ref (fun p => { p with future })

def settleDeterminate (w : World) (ref : PendingRef) (future : FutureState) : World :=
  (w.setPending ref (fun p => { p with future, determinateResponseReceived := true })).emit (.determinateResponse ref)

/-- What a result frame does to the pending call it names: an accepted result, with the shell it
records, or the exception that ends the call. -/
def judgeResult [Sha256] (w : World) (c : ConnId) (p : PendingCall) (result : Option Json) :
    Except ClientCapabilityError (Json × Option (String × ClientShellBinding)) :=
  match result with
  | none => .error ⟨"INVALID_RESULT", "client_tool_result requires result or error", .null⟩
  | some value =>
    let incomplete := (p.artifacts.entries.filter (fun e => !e.2.complete)).map Prod.fst
    if incomplete ≠ [] then
      .error ⟨"INCOMPLETE_ARTIFACT", "result arrived before artifact transfers completed: " ++
        (Json.arr (incomplete.map .str)).repr, .null⟩
    else match materialiseArtifactRefs value p.artifacts with
    | .error e => .error e
    | .ok materialised =>
      match w.trackedShell c p materialised with
      | .error e => .error e
      | .ok shell => .ok (materialised, shell)

def explicitError (error : Json) : ClientCapabilityError :=
  ⟨((error.field "code").orElse (.str "CLIENT_TOOL_ERROR")).pyStr,
    ((error.field "message").orElse (.str "client tool failed")).pyStr, error.field "data"⟩

def resolveResult [Sha256] (w : World) (c : ConnId) (frame : ResultFrame) (now : Int) :
    World × Except ClientCapabilityError Unit :=
  match (w.conn c).pending.get? frame.callId with
  | none => (w, .error ⟨"UNKNOWN_CALL", s!"unknown or completed call_id {reprString frame.callId}", .null⟩)
  | some ref =>
    let p := w.pending ref
    if frame.generation ≠ p.generation then
      (w, .error ⟨"STALE_GENERATION", "result generation does not match call", .null⟩)
    else if p.future.done then (w, .ok ())
    else if frame.error.isObj then
      (w.settleDeterminate ref (.exception (explicitError frame.error)), .ok ())
    else match w.judgeResult c p frame.result with
    | .error e => (w.settle ref (.exception e), .ok ())
    | .ok (value, shell) =>
      (((w.recordTracked c shell).settleDeterminate ref (.result value)).setConn c
        (fun conn => { conn with lastSeenAt := now }), .ok ())

def terminalKind (status : String) : Option String :=
  if status = "exited" ∨ status = "completed" then some "completed"
  else if status = "timed_out" ∨ status = "timeout" then some "timed_out"
  else if status = "killed" ∨ status = "cancelled" ∨ status = "canceled" then some "killed"
  else none

def nonnegative (name : String) : Option Int → Except ClientCapabilityError Int
  | none => .error ⟨"INVALID_TOOL_EVENT", s!"{name} must be an integer", .null⟩
  | some n => if n < 0 then .error ⟨"INVALID_TOOL_EVENT", s!"{name} must be non-negative", .null⟩ else .ok n

structure Terminal where
  kind : String
  stdoutBytes : Int
  stderrBytes : Int
  exitCode : Option Int

def terminalOf (frame : ToolEventFrame) : Except ClientCapabilityError Terminal := do
  let kind ← match terminalKind (lower frame.status) with
    | some kind => pure kind
    | none => throw ⟨"INVALID_TOOL_EVENT",
        s!"unsupported shell terminal status {reprString (lower frame.status)}", .null⟩
  let outputBytes ← nonnegative "output_bytes" frame.outputBytes
  let stdoutBytes ← nonnegative "stdout_bytes" (frame.stdoutBytes.map (fun n => n.getD outputBytes))
  let stderrBytes ← nonnegative "stderr_bytes" frame.stderrBytes
  let exitCode ← match frame.exitCode with
    | some exitCode => pure exitCode
    | none => throw ⟨"INVALID_TOOL_EVENT", "exit_code must be an integer or null", .null⟩
  return { kind, stdoutBytes, stderrBytes, exitCode }

def receiveToolEvent (w : World) (c : ConnId) (frame : ToolEventFrame) (now : Int) :
    World × Except ClientCapabilityError Bool :=
  let conn := w.conn c
  if frame.generation ≠ conn.generation then
    (w, .error ⟨"STALE_GENERATION", "event generation does not match connection", .null⟩)
  else if frame.isObject = false then
    (w, .error ⟨"INVALID_TOOL_EVENT", "client_tool_event.event must be an object", .null⟩)
  else if frame.type ≠ "shell_completed" then
    (w, .error ⟨"INVALID_TOOL_EVENT", "unsupported client tool event type", .null⟩)
  else if frame.server ≠ "shell" then
    (w, .error ⟨"INVALID_TOOL_EVENT", "shell event has an invalid server", .null⟩)
  else match conn.clientShells.get? (strip frame.shellId) with
  | none => (w, .error ⟨"UNKNOWN_CLIENT_SHELL",
      "shell event is not correlated to this capability instance", .null⟩)
  | some b =>
    if (w.binding b).clientHost ≠ conn.clientHost then
      (w, .error ⟨"STALE_GENERATION", "shell belongs to a different capability host", .null⟩)
    else if (w.binding b).completed then (w, .ok true)
    else match terminalOf frame with
    | .error e => (w, .error e)
    | .ok t =>
      (((w.completeShell b t.kind t.exitCode (frame.signal.map (prefixOf 64)) t.stdoutBytes
        t.stderrBytes (frame.time.getD now)).markCompleted b).setConn c
        (fun conn => { conn with lastSeenAt := now }), .ok false)

def declaredSizes (w : World) (c : ConnId) : DeclaredSizes :=
  let onConnection := fun c => ((w.conn c).pending.values.map (fun r => declaredSize (w.pending r).artifacts)).sum
  { forConnection := onConnection c
    forDevice := w.connections.sumBy
      (fun _ c' => if (w.conn c').deviceId = (w.conn c).deviceId then onConnection c' else 0)
    globally := w.connections.sumBy (fun _ c' => onConnection c') }

def receiveChunk [Sha256] (w : World) (c : ConnId) (frame : ChunkFrame) : World × Except ClientCapabilityError Unit :=
  match (w.conn c).pending.get? frame.callId with
  | none => (w, .error ⟨"UNKNOWN_CALL", s!"unknown call_id {reprString frame.callId}", .null⟩)
  | some ref =>
    if frame.generation ≠ (w.pending ref).generation then
      (w, .error ⟨"STALE_GENERATION", "artifact generation does not match call", .null⟩)
    else
      let received := receiveArtifactChunk (w.pending ref).artifacts (w.declaredSizes c) frame
      (w.setPending ref (fun p => { p with artifacts := received.1 }), received.2)

end World

end OpenAgent.Gateway.Capabilities
