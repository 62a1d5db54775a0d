import OpenAgent.Access
import OpenAgent.Lib.Json

namespace OpenAgent.Gateway.Operational

open Py

/-- A row of `resource_acl`. -/
structure AclGrant where
  tenantId : String
  resourceType : String
  resourceId : String
  principalType : String
  principalId : String
  permission : String
  aclVersion : Int
deriving DecidableEq

structure Acl where
  tenantId : String
  resourceType : String
  resourceId : String
  ownerPrincipalId : Option String
  visibility : String
  aclVersion : Int
deriving DecidableEq

/-- What is not part of this code: the decision about a row, and `json.loads` (`none` where it raises). -/
class Foundations where
  resourceIsVisible : List AclGrant → Acl → AccessContext → Bool
  loads : String → Option Json

structure SessionRow where
  id : String
  tenantId : String
  ownerPrincipalId : Option String
  visibility : String
  aclVersion : Int
  deleted : Bool

structure ActivityRow where
  activityId : String
  tenantId : String
  kind : String
  resourceType : String
  resourceId : String
  ownerPrincipalId : Option String
  visibility : String
  aclVersion : Int
  deleted : Bool
  status : Option String
  sessionId : Option String

structure ToolRow where
  id : String
  tenantId : String
  rootKind : String
  rootId : String
  sessionId : String
  sessionRunId : Option String
  toolCallId : Option String
  toolServer : Option String
  toolName : String
  argsJson : Option String
  resultJson : Option String
  resultText : Option String
  workflowRunId : Option String
  taskRunId : Option String
  eventDeliveryId : Option String
  childSessionId : Option String

structure MessageRow where
  id : String
  sessionId : String
  runId : Option String
  toolCallId : Option String
  sequence : Int
  visibility : String

structure WorkflowRun where
  id : String
  workflowId : String
  trace : Json

structure ScheduledRun where
  id : String
  taskId : String
  sessionId : Option String

structure Delivery where
  id : String
  eventId : String
  sessionId : Option String
  workflowRunId : Option String
  taskRunId : Option String

/-- A row of `operational_resource_owners`. -/
structure OwnerRow where
  tenantId : String
  resourceType : String
  resourceId : String
  ownerPrincipalId : Option String
  visibility : String
  aclVersion : Int

structure Store where
  sessions : List SessionRow := []
  activities : List ActivityRow := []
  tools : List ToolRow := []
  messages : List MessageRow := []
  workflowRuns : List WorkflowRun := []
  taskRuns : List ScheduledRun := []
  deliveries : List Delivery := []
  workflows : List String := []
  tasks : List String := []
  events : List String := []
  owners : List OwnerRow := []
  grants : List AclGrant := []
  /-- The primary key of `sessions_v2`. -/
  distinct : (sessions.map SessionRow.id).Nodup

def SessionRow.acl (row : SessionRow) : Acl :=
  ⟨row.tenantId, "session", row.id, row.ownerPrincipalId, row.visibility, row.aclVersion⟩

def ActivityRow.acl (row : ActivityRow) : Acl :=
  ⟨row.tenantId, row.resourceType, row.resourceId, row.ownerPrincipalId, row.visibility, row.aclVersion⟩

/-- `str(value) if value else None`. -/
def link (value : Option String) : Option String := value.filter fun text => text ≠ ""

section Visibility

variable [Foundations] (store : Store) (access : AccessContext)

def isVisible (acl : Acl) : Bool := Foundations.resourceIsVisible store.grants acl access

def sessionAclRow (sessionId : String) : Option Acl :=
  (store.sessions.find? fun row => row.id = sessionId && !row.deleted).map SessionRow.acl

def sessionVisible (sessionId : String) : Bool := (sessionAclRow store sessionId).any (isVisible store access)

def visibleSessionLink (value : Option String) : Option String := value.filter (sessionVisible store access)

/-- The condition that the statements of the lists put on a row in place of `resource_is_visible`. -/
def sqlAuthorized (acl : Acl) : Bool :=
  ["installation_shared", "public"].contains acl.visibility ||
    acl.ownerPrincipalId.any (fun owner => access.principalIds.contains owner) ||
    store.grants.any fun grant =>
      grant.tenantId = acl.tenantId && grant.resourceType = acl.resourceType && grant.resourceId = acl.resourceId &&
        ["view", "admin"].contains grant.permission && grant.aclVersion = acl.aclVersion &&
        access.grantIdentities.contains (grant.principalType, grant.principalId)

def ownerRow (resourceType resourceId : String) : Option OwnerRow :=
  store.owners.find? fun row =>
    row.tenantId = access.tenantId && row.resourceType = resourceType && row.resourceId = resourceId

def automationAclRow (resourceType resourceId : String) (parent : String × String) : Acl :=
  match (ownerRow store access resourceType resourceId).or (ownerRow store access parent.1 parent.2) with
  | some owner => ⟨access.tenantId, resourceType, resourceId, owner.ownerPrincipalId, owner.visibility, owner.aclVersion⟩
  | none => ⟨access.tenantId, resourceType, resourceId, none, "installation_shared", 1⟩

def workflowRunAcl (runId : String) : Option Acl :=
  (store.workflowRuns.find? fun run => run.id = runId).map fun run =>
    automationAclRow store access "workflow_run" runId ("workflow_definition", run.workflowId)

def scheduledRunAcl (runId : String) : Option Acl :=
  (store.taskRuns.find? fun run => run.id = runId).map fun run =>
    automationAclRow store access "scheduled_run" runId ("scheduled_definition", run.taskId)

def deliveryAcl (deliveryId : String) : Option Acl :=
  (store.deliveries.find? fun delivery => delivery.id = deliveryId).map fun delivery =>
    automationAclRow store access "event_delivery" deliveryId ("event_definition", delivery.eventId)

end Visibility

end OpenAgent.Gateway.Operational
