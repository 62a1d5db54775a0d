import OpenAgent.Automation.Contracts
import Mathlib.Data.Rat.Defs

namespace OpenAgent.Automation

open Py

inductive Kind where
  | task
  | event
  | workflow
deriving DecidableEq

def Kind.name (kind : Kind) : String :=
  match kind with
  | .task => "task"
  | .event => "event"
  | .workflow => "workflow"

abbrev Definition := List (String × Json)

def operational : List String :=
  ["created_at", "updated_at", "last_run", "next_run", "last_run_at", "next_run_at", "last_triggered_at", "enabled",
    "secret_enc", "secret_hint"]

/-- What comes from elsewhere: the hash of a canonical record, and the reading of schedules. -/
class Foundations where
  sha256 : Kind → Definition → String
  isOneShotExpression : Json → Bool

namespace Definition

variable (definition : Definition)

def get (key : String) : Json := (Assoc.get? definition key).getD .null

def identifier : Option String :=
  match Definition.get definition "id" with
  | .str id => if id = "" then none else some id
  | _ => none

/-- `definition["id"]`, the key of its row. -/
def id : String :=
  match Definition.get definition "id" with
  | .str id => id
  | _ => ""

/-- `bool(definition.get("enabled", True))`. -/
def enabled : Bool :=
  match Assoc.get? definition "enabled" with
  | none => true
  | some value => value.truthy

def behaviour : Definition :=
  definition.filter fun entry => !(operational.contains entry.1) && !("_".toList.isPrefixOf entry.1.toList)

/-- A definition without an identifier raises `ValueError`. -/
def digest [Foundations] (kind : Kind) : Option String :=
  (identifier definition).map fun _ => Foundations.sha256 kind (behaviour definition)

def oneShot [Foundations] : Bool := Foundations.isOneShotExpression (Definition.get definition "cron_expression")

end Definition

/-- A row of `standalone_automation_grants`. -/
structure Grant where
  id : String
  kind : Kind
  definitionId : String
  digest : String
  principal : PrincipalRef
  audience : List PrincipalRef
  scopes : List String
  revoked : Bool := false
deriving DecidableEq

structure Accepted where
  delegationId : Option String
  authority : PrincipalRef
  initiator : PrincipalRef
  audience : List PrincipalRef
  scopes : List String
  sessionId : String
  parentRunId : Option String
deriving DecidableEq

/-- The columns of a `task_runs` row that a validation reads, for a run of the schedule. -/
structure TaskRun where
  status : String
  finishedAt : Option Rat
deriving DecidableEq

structure Reads (m : Type → Type) where
  grant : String → m (Option Grant)
  definition : Kind → String → m (Option Definition)
  accepted : String → m (Option Accepted)
  taskRun : String → String → m (Option TaskRun)
  clock : m Rat
  principalActive : PrincipalRef → m Bool

/-- The directory of the network, read by `principal_active` where no resolver stands in for it. -/
structure Directory where
  resolver : Option (PrincipalRef → Bool) := none
  network : Option (String × String) := none
  ownerBridge : PrincipalRef → Bool := fun _ => false
  ownerBridgeActive : PrincipalRef → Bool := fun _ => false
  userStatus : String → Option String := fun _ => none
  agents : String → Bool := fun _ => false

def Directory.principalActive (directory : Directory) (principal : PrincipalRef) : Bool :=
  match directory.resolver with
  | some resolver => resolver principal
  | none =>
    if principal.authority ≠ "openagent" then false
    else if directory.ownerBridge principal then
      match directory.network with
      | none => false
      | some (_, network) => network = principal.tenantId && directory.ownerBridgeActive principal
    else match directory.network with
      | none => false
      | some (role, network) =>
        if role ≠ "coordinator" || network ≠ principal.tenantId then false
        else if principal.kind = "user" then directory.userStatus principal.subjectId = some "active"
        else if principal.kind = "agent" then directory.agents principal.subjectId
        else false

inductive Error where
  | value (message : String)
  | permission (message : String)
  | lookup (identifier : String)
  | subscript
  | integrity
  | revisionChanged (message : String)
  | elsewhere (message : String)
deriving DecidableEq

section Validation

variable {m : Type → Type} [Monad m] (reads : Reads m)

def subset (scopes granted : List String) : Bool := scopes.all fun scope => granted.contains scope

/-- The walk of `_claimed_occurrence_id` up the persisted requests of the same delegation. -/
def claimedAncestor (grant : Grant) (context : ExecutionContext) (start : String) (fuel : Nat) (seen : List String)
    (parent : Option String) : m (Option String) :=
  match fuel, parent with
  | 0, _ => pure none
  | _, none => pure none
  | fuel + 1, some run =>
    if run = "" || seen.contains run then pure none
    else do
      match ← reads.accepted run with
      | none => pure none
      | some accepted =>
        if accepted.delegationId ≠ some grant.id || accepted.authority ≠ context.authority ||
            accepted.initiator ≠ context.initiator || accepted.audience ≠ context.audience ||
            !(subset context.scopes accepted.scopes) then pure none
        else match afterPrefix start accepted.sessionId with
          | some occurrence => pure (some occurrence)
          | none => claimedAncestor grant context start fuel (run :: seen) accepted.parentRunId

def claimedOccurrenceId (grant : Grant) (context : ExecutionContext) (start : String) : m (Option String) :=
  match afterPrefix start context.sessionId with
  | some occurrence => pure (some occurrence)
  | none => claimedAncestor reads grant context start 32 [] context.parentRunId

def claimedOneShotIsActive [Foundations] (grant : Grant) (definition : Definition) (context : ExecutionContext) : m Bool :=
  if grant.kind ≠ .task || !definition.oneShot then pure false
  else do
    let identifier := definition.identifier.getD ""
    match ← claimedOccurrenceId reads grant context ("automation:task:" ++ identifier ++ ":") with
    | none => pure false
    | some occurrence =>
      if occurrence = "" then pure false
      else do
        match ← reads.taskRun occurrence identifier with
        | none => pure false
        | some run =>
          if run.status = "running" then pure true
          else do
            let now ← reads.clock
            match run.finishedAt with
            | none => pure false
            | some finished => pure (finished ≠ 0 && decide (now - 300 ≤ finished))

def enabledFor [Foundations] (grant : Grant) (definition : Definition) (context : ExecutionContext) : m Bool :=
  if definition.enabled then pure true else claimedOneShotIsActive reads grant definition context

def validate [Foundations] (context : ExecutionContext) : m Bool :=
  if !(given context.delegationId) || !context.capabilities.isEmpty || given context.ingressId then pure false
  else do
    match ← reads.grant (context.delegationId.getD "") with
    | none => pure false
    | some grant =>
      if context.authority ≠ grant.principal || context.initiator ≠ grant.principal then pure false
      else if context.audience ≠ grant.audience then pure false
      else if !(subset context.scopes grant.scopes) then pure false
      else do
        match ← reads.definition grant.kind grant.definitionId with
        | none => pure false
        | some current =>
          let enabled ← enabledFor reads grant current context
          if enabled && current.digest grant.kind = some grant.digest then reads.principalActive grant.principal
          else pure false

def Grant.occurrenceContext (grant : Grant) (agentName sessionId : String) : ExecutionContext :=
  { author := ⟨"openagent", grant.principal.tenantId, agentName, "agent"⟩, initiator := grant.principal,
    authority := grant.principal, tenantId := grant.principal.tenantId, sessionId := sessionId, agentId := agentName,
    audience := grant.audience, scopes := grant.scopes, delegationId := some grant.id, deferred := true }

/-- The context of one occurrence under the grant of this revision, which `granted` looks for among the rows. -/
def resolve [Foundations] (granted : Kind → String → String → m (Option String)) (agentName : String) (kind : Kind)
    (definition : Definition) (occurrence sessionId : String) : m (Except Error ExecutionContext) :=
  if occurrence = "" then pure (.error (.value "An existing durable occurrence ID is required"))
  else match definition.digest kind with
    | none => pure (.error (.value "A known persisted automation definition is required"))
    | some digest => do
      match ← granted kind definition.id digest with
      | none => pure (.error (.permission "This automation revision has no active durable authorization"))
      | some identifier => do
        match ← reads.grant identifier with
        | none => pure (.error .subscript)
        | some grant =>
          let context := grant.occurrenceContext agentName sessionId
          if ← validate reads context then pure (.ok context)
          else pure (.error (.permission "Automation authority changed"))

end Validation

end OpenAgent.Automation
