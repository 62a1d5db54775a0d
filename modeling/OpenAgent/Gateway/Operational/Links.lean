import OpenAgent.Gateway.Operational.Rows
import Mathlib.Data.List.Sort

namespace OpenAgent.Gateway.Operational

open Py

inductive RunKind where
  | workflowRun
  | scheduledRun
  | eventDelivery
deriving DecidableEq

def RunKind.name (kind : RunKind) : String :=
  match kind with
  | .workflowRun => "workflow_run"
  | .scheduledRun => "scheduled_run"
  | .eventDelivery => "event_delivery"

inductive Link where
  | session (id : String)
  | run (kind : RunKind) (id : String)
deriving DecidableEq

structure Linked where
  field : String
  target : Link

section Targets

def maxRunTargetEnvelopeChars : Nat := 128 * 1024
def maxRunTargetIdChars : Nat := 512

structure RunTarget where
  kind : RunKind
  resourceId : String
  expectedParentId : Option String

def boundedRunTargetId (value : Json) : Option String :=
  match value with
  | .str text =>
    let normalized := strip text
    if normalized = "" || maxRunTargetIdChars < normalized.length ||
        normalized.toList.any (fun char => char.toNat < 32 || char.toNat = 127) then none
    else some normalized
  | _ => none

variable [Foundations]

def unwrapped (value : Json) : Option Json :=
  match value with
  | .str text => if text.length ≤ maxRunTargetEnvelopeChars then Foundations.loads text else some value
  | _ => some value

def resultObject (raw : String) : Option (List (String × Json)) :=
  if raw = "" || maxRunTargetEnvelopeChars < raw.length then none
  else match (Foundations.loads raw).bind unwrapped with
    | some (.obj entries) =>
      match Assoc.get? entries "result" with
      | some (.obj nested) => some nested
      | _ => some entries
    | _ => none

def boundedResultObject (resultJson resultText : Option String) : Option (List (String × Json)) :=
  (resultJson.bind resultObject).or (resultText.bind resultObject)

def routingName (value : Option Json) : Option String :=
  match value with
  | some (.str text) => if strip text = "" || 256 < (strip text).length then none else some (strip text)
  | _ => none

def effectiveToolIdentity (toolName : String) (rawArgs : Option String) : Option String × Option String :=
  match link rawArgs with
  | none => (none, none)
  | some raw =>
    if toolName ≠ "tool_search_call_tool" || maxRunTargetEnvelopeChars < raw.length then (none, none)
    else match Foundations.loads raw with
      | some (.obj entries) => (routingName (Assoc.get? entries "server"), routingName (Assoc.get? entries "tool"))
      | _ => (none, none)

def normalizedName (name : String) : String :=
  String.ofList ((lower name).toList.map fun char => if char = '-' then '_' else char)

/-- A launch tool under the names it goes by: its full name, its server, the server's prefix, and its leaf. -/
structure LaunchTool where
  full : String
  server : String
  directPrefix : String
  leaf : String
  kind : RunKind
  parentField : String

def launchTools : List LaunchTool :=
  [⟨"workflow_manager_run_workflow", "workflow_manager", "workflow", "run_workflow", .workflowRun, "workflow_id"⟩,
    ⟨"scheduler_run_scheduled_task_now", "scheduler", "scheduler", "run_scheduled_task_now", .scheduledRun, "task_id"⟩,
    ⟨"events_manager_trigger_event", "events_manager", "events", "trigger_event", .eventDelivery, "event_id"⟩]

def launches (tool : ToolRow) (launch : LaunchTool) : Bool :=
  let rawName := strip tool.toolName
  let rawServer := strip (tool.toolServer.getD "")
  let effective := effectiveToolIdentity rawName tool.argsJson
  let server := normalizedName (effective.1.getD rawServer)
  let name := normalizedName (effective.2.getD rawName)
  (rawName = "tool_search_call_tool" && name = launch.full) ||
    (normalizedName rawName = launch.full && [launch.server, launch.directPrefix].contains (normalizedName rawServer)) ||
    (server = launch.server && name = launch.leaf)

def explicitTargets (tool : ToolRow) : List RunTarget :=
  [(.workflowRun, tool.workflowRunId), (.scheduledRun, tool.taskRunId), (.eventDelivery, tool.eventDeliveryId)].filterMap
    fun column : RunKind × Option String =>
      (column.2.bind fun raw => boundedRunTargetId (.str raw)).map fun id => ⟨column.1, id, none⟩

def fallbackTarget (tool : ToolRow) (launch : LaunchTool) : Option RunTarget := do
  let payload ← boundedResultObject tool.resultJson tool.resultText
  let delivery := (Assoc.get? payload "delivery_id").getD .null
  let run := Json.orElse ((Assoc.get? payload "run_id").getD .null) ((Assoc.get? payload "id").getD .null)
  let id ← boundedRunTargetId (if launch.kind = .eventDelivery && delivery.truthy then delivery else run)
  pure ⟨launch.kind, id, boundedRunTargetId ((Assoc.get? payload launch.parentField).getD .null)⟩

def safeToolRunTargets (tool : ToolRow) : List RunTarget :=
  match launchTools.find? (launches tool) with
  | none => explicitTargets tool
  | some launch =>
    if (explicitTargets tool).any fun target => target.kind = launch.kind then explicitTargets tool
    else explicitTargets tool ++ (fallbackTarget tool launch).toList

end Targets

section Handlers

variable [Foundations] (store : Store) (access : AccessContext)

def runParent (kind : RunKind) (id : String) : Option String :=
  match kind with
  | .workflowRun => ((store.workflowRuns.find? fun run => run.id = id).map (·.workflowId)).filter store.workflows.contains
  | .scheduledRun => ((store.taskRuns.find? fun run => run.id = id).map (·.taskId)).filter store.tasks.contains
  | .eventDelivery => ((store.deliveries.find? fun run => run.id = id).map (·.eventId)).filter store.events.contains

def runAcl (kind : RunKind) (id : String) : Option Acl :=
  match kind with
  | .workflowRun => workflowRunAcl store access id
  | .scheduledRun => scheduledRunAcl store access id
  | .eventDelivery => deliveryAcl store access id

def accepts (target : Link) : Bool :=
  match target with
  | .session id => sessionVisible store access id
  | .run kind id => (runAcl store access kind id).any (isVisible store access)

def historyRow (activityId : String) : Option ActivityRow :=
  (store.activities.find? fun row => row.activityId = activityId && !row.deleted).filter fun row =>
    isVisible store access row.acl

structure HistoryItem where
  id : String
  kind : String
  resourceId : String
  status : Option String
  sessionId : Option String

def activityJson (row : ActivityRow) : HistoryItem :=
  ⟨row.activityId, row.kind, row.resourceId, row.status, link row.sessionId⟩

def handleHistory (selectedIds : List String) : List HistoryItem :=
  (selectedIds.filterMap (historyRow store access)).map activityJson

structure Candidate where
  kind : RunKind
  resourceId : String
  toolInvocationId : String
  sourceSessionId : String

/-- A row of the statement of `_related_run_details`. -/
structure Detail where
  kind : RunKind
  activity : ActivityRow
  cause : ToolRow
  source : SessionRow
  parentId : String
  detailSessionId : Option String
  downstreamWorkflowRunId : Option String
  downstreamTaskRunId : Option String

def detailSession (kind : RunKind) (id : String) : Option String :=
  match kind with
  | .workflowRun => none
  | .scheduledRun => (store.taskRuns.find? fun run => run.id = id).bind (·.sessionId)
  | .eventDelivery => (store.deliveries.find? fun run => run.id = id).bind (·.sessionId)

def downstreamOf (kind : RunKind) (id : String) : Option Delivery :=
  if kind = .eventDelivery then store.deliveries.find? fun run => run.id = id else none

def joinedDetails (candidate : Candidate) : List Detail := do
  let activity ← store.activities.filter fun row =>
    row.kind = candidate.kind.name && row.resourceType = candidate.kind.name && row.resourceId = candidate.resourceId &&
      row.tenantId = access.tenantId && !row.deleted
  let cause ← store.tools.filter fun row =>
    row.id = candidate.toolInvocationId && row.tenantId = access.tenantId && row.sessionId = candidate.sourceSessionId &&
      row.rootKind = "session" && row.rootId = row.sessionId
  let source ← store.sessions.filter fun row =>
    row.id = candidate.sourceSessionId && row.tenantId = access.tenantId && !row.deleted
  let parentId ← (runParent store candidate.kind candidate.resourceId).toList
  let downstream := downstreamOf store candidate.kind candidate.resourceId
  pure ⟨candidate.kind, activity, cause, source, parentId, detailSession store candidate.kind candidate.resourceId,
    downstream.bind (·.workflowRunId), downstream.bind (·.taskRunId)⟩

def Detail.stillCaused (detail : Detail) : Bool :=
  (safeToolRunTargets detail.cause).any fun target =>
    target.kind = detail.kind && target.resourceId = detail.activity.resourceId

def relatedRunDetails (candidates : List Candidate) : List Detail :=
  (candidates.flatMap (joinedDetails store access)).filter fun detail =>
    detail.stillCaused && isVisible store access detail.source.acl && isVisible store access detail.activity.acl

structure Downstream where
  sessionId : Option String
  workflowRunId : Option String
  scheduledRunId : Option String

structure RelatedRun where
  id : String
  kind : RunKind
  resourceId : String
  parentId : String
  sessionId : Option String
  downstream : Option Downstream
  causedBySession : String

def relatedRunJson (detail : Detail) : RelatedRun where
  id := detail.activity.activityId
  kind := detail.kind
  resourceId := detail.activity.resourceId
  parentId := detail.parentId
  sessionId := link detail.detailSessionId
  downstream :=
    if detail.kind = .eventDelivery && ((link detail.detailSessionId).isSome ||
        (link detail.downstreamWorkflowRunId).isSome || (link detail.downstreamTaskRunId).isSome) then
      some ⟨link detail.detailSessionId, link detail.downstreamWorkflowRunId, link detail.downstreamTaskRunId⟩
    else none
  causedBySession := detail.source.id

def handleSessionRelatedRuns (sessionId : String) (selected : List Candidate) : Option (List RelatedRun) :=
  if sessionVisible store access sessionId then some ((relatedRunDetails store access selected).map relatedRunJson)
  else none

inductive Window where
  | around (messageId : String) (before after : Nat)
  | cursor (boundary : Int) (backwards : Bool) (limit : Nat)
  | latest (limit : Nat)

abbrev Joined := MessageRow × Option ToolRow

def toolsOf (message : MessageRow) : List ToolRow :=
  store.tools.filter fun tool =>
    tool.rootKind = "session" && tool.sessionId = message.sessionId && tool.sessionRunId.isSome &&
      tool.sessionRunId = message.runId && tool.toolCallId.isSome && tool.toolCallId = message.toolCallId

def joinedMessages (sessionId : String) : List Joined :=
  (store.messages.filter fun message => message.sessionId = sessionId && message.visibility = "user_visible").flatMap
    fun message =>
      if (toolsOf store message).isEmpty then [(message, none)]
      else (toolsOf store message).map fun tool => (message, some tool)

def ascending (rows : List Joined) : List Joined := rows.insertionSort fun a b => a.1.sequence ≤ b.1.sequence

def newest (limit : Nat) (rows : List Joined) : List Joined := ((ascending rows).reverse.take limit).reverse

def messagePage (sessionId : String) (window : Window) : List Joined :=
  let rows := joinedMessages store sessionId
  match window with
  | .around messageId before after =>
    match store.messages.find? fun message =>
        message.sessionId = sessionId && message.id = messageId && message.visibility = "user_visible" with
    | none => []
    | some anchor =>
      newest (before + 1) (rows.filter fun row => row.1.sequence ≤ anchor.sequence) ++
        (ascending (rows.filter fun row => anchor.sequence < row.1.sequence)).take after
  | .cursor boundary backwards limit =>
    if backwards then newest limit (rows.filter fun row => row.1.sequence < boundary)
    else (ascending (rows.filter fun row => boundary < row.1.sequence)).take limit
  | .latest limit => newest limit rows

structure LaunchTarget where
  toolId : String
  kind : RunKind
  runId : String
  parentId : String

/-- The rows that the statement of `_validated_message_run_targets` finds for one target of a tool. -/
def validatedTargets (tool : ToolRow) (target : RunTarget) : List LaunchTarget := do
  let activity ← store.activities.filter fun row =>
    row.tenantId = access.tenantId && row.kind = target.kind.name && row.resourceType = target.kind.name &&
      row.resourceId = target.resourceId && !row.deleted && row.visibility ≠ "quarantined"
  let parentId ← (runParent store target.kind target.resourceId).toList
  if target.expectedParentId.all (fun expected => expected = parentId) && sqlAuthorized store access activity.acl then
    [⟨tool.id, target.kind, target.resourceId, parentId⟩]
  else []

def validatedMessageRunTargets (rows : List Joined) : List LaunchTarget :=
  (rows.filterMap Prod.snd).flatMap fun tool => (safeToolRunTargets tool).flatMap (validatedTargets store access tool)

def runTargetOf (rows : List Joined) (tool : ToolRow) : Option LaunchTarget :=
  (validatedMessageRunTargets store access rows).find? fun target => target.toolId = tool.id

structure ToolSummary where
  id : String
  childSessionId : Option String
  runTarget : Option LaunchTarget

structure Message where
  id : String
  sessionId : String
  toolSummary : Option ToolSummary

def messageJson (rows : List Joined) (row : Joined) : Message :=
  ⟨row.1.id, row.1.sessionId,
    row.2.map fun tool => ⟨tool.id, link tool.childSessionId, runTargetOf store access rows tool⟩⟩

def handleSessionMessages (sessionId : String) (window : Window) : Option (List Message) :=
  if sessionVisible store access sessionId then
    some ((messagePage store sessionId window).map (messageJson store access (messagePage store sessionId window)))
  else none

structure ToolInvocation where
  id : String
  sessionId : Option String
  workflowRunId : Option String
  scheduledRunId : Option String
  eventDeliveryId : Option String
  childSessionId : Option String

def visibleTool (toolId : String) : Option ToolRow :=
  (store.tools.find? fun tool => tool.id = toolId && tool.rootKind = "session" &&
    store.sessions.any fun session => session.id = tool.sessionId && session.tenantId = tool.tenantId && !session.deleted).filter
      fun tool => sessionVisible store access tool.sessionId

def handleToolInvocation (toolId : String) : Option ToolInvocation :=
  (visibleTool store access toolId).map fun tool =>
    ⟨toolId, link (some tool.sessionId), link tool.workflowRunId, link tool.taskRunId, link tool.eventDeliveryId,
      link tool.childSessionId⟩

structure ScheduledRunDetail where
  id : String
  taskId : String
  sessionId : Option String

def handleScheduledRun (runId : String) : Option ScheduledRunDetail := do
  let run ← store.taskRuns.find? fun run => run.id = runId && store.tasks.contains run.taskId
  let acl := automationAclRow store access "scheduled_run" runId ("scheduled_definition", run.taskId)
  if isVisible store access acl then
    pure ⟨runId, run.taskId, visibleSessionLink store access run.sessionId⟩
  else none

/-- `str(raw["child_session_id"]) if raw.get("child_session_id") else None`. -/
def childSession (step : Json) : Option String :=
  match step with
  | .obj entries =>
    match Assoc.get? entries "child_session_id" with
    | some value => if value.truthy then some value.pyStr else none
    | none => none
  | _ => none

def traceOf (trace : Json) : List Json :=
  match trace with
  | .arr steps => steps
  | _ => []

def safeStep (visibleChildIds : List String) (step : Json) : Json :=
  match step, childSession step with
  | .obj entries, some child =>
    if visibleChildIds.contains child then step else .obj (Assoc.set entries "child_session_id" .null)
  | _, _ => step

def safeTrace (visibleChildIds : List String) (trace : Json) : Json :=
  match trace with
  | .arr steps => .arr (steps.map (safeStep visibleChildIds))
  | _ => trace

structure WorkflowRunDetail where
  id : String
  traceSteps : List (Option String)
  trace : Json

def decorateWorkflowRunDetail (run : WorkflowRun) : Option WorkflowRunDetail :=
  let acl := automationAclRow store access "workflow_run" run.id ("workflow_definition", run.workflowId)
  if isVisible store access acl then
    let steps := ((traceOf run.trace).filter Json.isObj).map fun step => visibleSessionLink store access (childSession step)
    some ⟨run.id, steps, safeTrace (steps.filterMap id) run.trace⟩
  else none

inductive DownstreamTarget where
  | workflowRun (runId workflowId : String)
  | scheduledRun (runId taskId : String)
  | chat (sessionId : String)

structure DeliveryDetail where
  id : String
  sessionId : Option String
  workflowRunId : Option String
  taskRunId : Option String
  downstreamTarget : Option DownstreamTarget

def downstreamTarget (delivery : Delivery) (sessionId : Option String) : Option DownstreamTarget :=
  match link delivery.workflowRunId with
  | some runId => do
    let run ← store.workflowRuns.find? fun run => run.id = runId
    let acl := automationAclRow store access "workflow_run" runId ("workflow_definition", run.workflowId)
    if isVisible store access acl then pure (.workflowRun runId run.workflowId) else none
  | none =>
    match link delivery.taskRunId with
    | some runId => do
      let run ← store.taskRuns.find? fun run => run.id = runId
      let acl := automationAclRow store access "scheduled_run" runId ("scheduled_definition", run.taskId)
      if isVisible store access acl then pure (.scheduledRun runId run.taskId) else none
    | none => (link sessionId).map .chat

def decorateEventDeliveryDetail (delivery : Delivery) : Option DeliveryDetail :=
  let acl := automationAclRow store access "event_delivery" delivery.id ("event_definition", delivery.eventId)
  if isVisible store access acl then
    let sessionId := visibleSessionLink store access delivery.sessionId
    let target := downstreamTarget store access delivery sessionId
    some
      { id := delivery.id
        sessionId := sessionId
        workflowRunId := target.bind fun
          | .workflowRun runId _ => some runId
          | _ => none
        taskRunId := target.bind fun
          | .scheduledRun runId _ => some runId
          | _ => none
        downstreamTarget := target }
  else none

end Handlers

inductive Request where
  | history (selectedIds : List String)
  | relatedRuns (sessionId : String) (selected : List Candidate)
  | messages (sessionId : String) (window : Window)
  | toolInvocation (toolId : String)
  | scheduledRun (runId : String)
  | workflowRun (run : WorkflowRun)
  | delivery (delivery : Delivery)

inductive Response where
  | history (items : List HistoryItem)
  | relatedRuns (sessionId : String) (items : List RelatedRun)
  | messages (sessionId : String) (items : List Message)
  | toolInvocation (detail : ToolInvocation)
  | scheduledRun (detail : ScheduledRunDetail)
  | workflowRun (detail : WorkflowRunDetail)
  | delivery (detail : DeliveryDetail)

def respond [Foundations] (store : Store) (access : AccessContext) (request : Request) : Option Response :=
  match request with
  | .history selectedIds => some (.history (handleHistory store access selectedIds))
  | .relatedRuns sessionId selected => (handleSessionRelatedRuns store access sessionId selected).map (.relatedRuns sessionId)
  | .messages sessionId window => (handleSessionMessages store access sessionId window).map (.messages sessionId)
  | .toolInvocation toolId => (handleToolInvocation store access toolId).map .toolInvocation
  | .scheduledRun runId => (handleScheduledRun store access runId).map .scheduledRun
  | .workflowRun run => (decorateWorkflowRunDetail store access run).map .workflowRun
  | .delivery delivery => (decorateEventDeliveryDetail store access delivery).map .delivery

end OpenAgent.Gateway.Operational
