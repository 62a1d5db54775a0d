import OpenAgent.Automation.Authority
import OpenAgent.Lib.Awaits

namespace OpenAgent.RuntimeAccess

open Py Automation

/-- An identity of `OnBehalfIdentity`. -/
structure Identity where
  tenantId : String
  principalType : String
  handle : String
  deviceId : String
  source : String
deriving DecidableEq

structure Certificate where
  devicePubkey : String
  capabilities : List String := []
deriving DecidableEq

/-- The trusted part of a request; the epoch is `none` where it is not an integer. -/
structure Request where
  authKind : String
  deviceAuthEpoch : Option Int
deriving DecidableEq

structure Binding where
  identity : Identity
  request : Request
  certificate : Certificate
deriving DecidableEq

structure ChannelBinding where
  context : ExecutionContext
  host : Nat
  validatesChildren : Bool := false
  capabilities : List CapabilityLease := []
deriving DecidableEq

structure SessionRow where
  resourceId : String
  tenantId : String
  ownerPrincipalId : Option String
  visibility : String
  aclVersion : Int
  rootSessionId : Option String
deriving DecidableEq

structure AclGrant where
  principalType : String
  principalId : String
deriving DecidableEq

/-- What answers at one moment: the bindings, the state of device authorization, the durable rows and grants, and the
callbacks. -/
structure World where
  channels : String → Option ChannelBinding := fun _ => none
  channelValid : Nat → Bool := fun _ => false
  childValid : Nat → ExecutionContext → Bool := fun _ _ => false
  bindings : String → Option Binding := fun _ => none
  deviceEpoch : Option (String → Int) := none
  revokedPubkeys : List String := []
  deviceIsActive : String → Bool := fun _ => false
  grant : String → Option Automation.Grant := fun _ => none
  definition : Kind → String → Option Definition := fun _ _ => none
  accepted : String → Option Accepted := fun _ => none
  taskRun : String → String → Option TaskRun := fun _ _ => none
  clock : Rat := 0
  directory : Directory := {}
  session : String → Option SessionRow := fun _ => none
  acl : SessionRow → List AclGrant := fun _ => []
  audienceResolver : Option (String → String → List PrincipalRef) := none
  visible : SessionRow → Identity → String → Bool := fun _ _ _ => false
  memory : ExecutionContext → String → ResourceRef → List PrincipalRef → Bool := fun _ _ _ _ => false
  source : ExecutionContext → String → ResourceRef → List PrincipalRef → Bool := fun _ _ _ _ => false

structure Authorizer where
  delegations : Bool := true
  memoryAuthorizer : Bool := true
  sourceAuthorizer : Bool := true
deriving DecidableEq

/-- Functions of the contracts package: the key of a principal, and the principal that a JSON text records. -/
class Contracts where
  key : PrincipalRef → String
  record : String → Option PrincipalRef

/-- What is noted: the ingress was confirmed from one moment to another, the session's row was read, or another policy
read or callback of the host was completed. -/
inductive Step where
  | confirmed (start stop : Nat)
  | session (found : Bool) (completed : Nat)
  | policy (completed : Nat)
deriving DecidableEq

abbrev Auth := Awaits World Step

open Awaits

def policyRead {α : Type} (f : World → α) : Auth α := do
  let answer ← await f
  note Step.policy
  pure answer

def confirming {α : Type} (check : Auth (Option α)) : Auth (Option α) := fun w t =>
  ⟨(check w t).value, (check w t).time,
    (check w t).notes ++ if (check w t).value.isSome then [.confirmed t (check w t).time] else []⟩

/-- `_principal`. -/
def principalOf [Contracts] (value : Option String) (tenant : String) : Option PrincipalRef :=
  if !(given value) then none
  else
    let text := value.getD ""
    match Contracts.record text with
    | some principal => if principal.tenantId = tenant then some principal else none
    | none =>
      let kind := String.ofList (text.toList.takeWhile (· != ':'))
      let subject := String.ofList ((text.toList.dropWhile (· != ':')).drop 1)
      if text.toList.contains ':' && (kind = "user" || kind = "agent") && subject != "" then
        some ⟨"openagent", tenant, subject, kind⟩
      else none

section Ingress

variable (context : ExecutionContext)

def childOf (binding : ChannelBinding) (child : ExecutionContext) : Bool :=
  child.initiator = binding.context.initiator && child.authority = binding.context.authority &&
    child.agentId = binding.context.agentId && child.audience = binding.context.audience &&
    child.scopes = binding.context.scopes && child.capabilities = binding.context.capabilities &&
    child.delegationId = binding.context.delegationId && child.deferred = binding.context.deferred &&
    child.ingressId = binding.context.ingressId && child.author.kind = "agent" &&
    child.author.tenantId = binding.context.tenantId && given child.parentRunId && binding.validatesChildren

def admitted (binding : ChannelBinding) (child : ExecutionContext) : Auth Bool :=
  if child = binding.context then pure true
  else if childOf binding child then await fun world => world.childValid binding.host child
  else pure false

def channelCheck : Auth (Option ChannelBinding) := do
  match ← peek fun world => world.channels (context.ingressId.getD "") with
  | none => pure none
  | some binding =>
    if !(context.capabilities.all fun lease => binding.capabilities.contains lease) then pure none
    else do
      let ok ← admitted binding { context with capabilities := binding.context.capabilities }
      if ok then do
        let valid ← await fun world => world.channelValid binding.host
        pure (if valid then some binding else none)
      else pure none

def channel : Auth (Option ChannelBinding) := confirming (channelCheck context)

/-- `_request_device_still_authorized`. -/
def deviceStillAuthorized (request : Request) (certificate : Certificate) : Auth Bool := do
  if request.authKind ≠ "device_cert" then pure true
  else do
    let current ← peek fun world => world.deviceEpoch.map fun epoch => epoch certificate.devicePubkey
    let revoked ← peek fun world => world.revokedPubkeys.contains certificate.devicePubkey
    if current = none || request.deviceAuthEpoch = none || current ≠ request.deviceAuthEpoch || revoked then pure false
    else if certificate.capabilities.contains "bridge" then pure true
    else do
      let active ← await fun world => world.deviceIsActive certificate.devicePubkey
      let later ← peek fun world => world.deviceEpoch.map fun epoch => epoch certificate.devicePubkey
      pure (active && later = request.deviceAuthEpoch)

def bindingCheck : Auth (Option Binding) := do
  match ← peek fun world => world.bindings (context.ingressId.getD "") with
  | none => pure none
  | some binding =>
    if context.authority ≠ context.initiator || context.initiator.authority ≠ "openagent" ||
        context.initiator.tenantId ≠ binding.identity.tenantId ||
        context.initiator.subjectId ≠ binding.identity.handle ||
        context.initiator.kind ≠ binding.identity.principalType then pure none
    else do
      let authorized ← deviceStillAuthorized binding.request binding.certificate
      pure (if authorized then some binding else none)

def binding : Auth (Option Binding) := confirming (bindingCheck context)

abbrev reads : Reads Auth where
  grant id := await fun world => world.grant id
  definition kind id := await fun world => world.definition kind id
  accepted run := await fun world => world.accepted run
  taskRun occurrence id := await fun world => world.taskRun occurrence id
  clock := peek World.clock
  principalActive principal := await fun world => world.directory.principalActive principal

def delegation [Foundations] : Auth (Option Identity) := confirming do
  let valid ← validate reads context
  pure (if valid then
    some ⟨context.authority.tenantId, context.authority.kind, context.authority.subjectId,
      "delegation:" ++ context.delegationId.getD "", "delegation"⟩
  else none)

end Ingress

section Policy

variable [Contracts]

def readSession (id : String) : Auth (Option SessionRow) := do
  let row ← await fun world => world.session id
  note (Step.session row.isSome)
  pure row

def sortedRecipients (recipients : List (String × PrincipalRef)) : List PrincipalRef :=
  (recipients.mergeSort fun a b => decide (a.1 ≤ b.1)).map Prod.snd

/-- A member of another tenant raises `PermissionError`, as does the want of a resolver. -/
def expandedAudience (row : SessionRow) (recipients : List (String × PrincipalRef)) : Auth (Option (List PrincipalRef)) := do
  match ← policyRead fun world => world.audienceResolver.map fun resolver => resolver row.resourceId row.tenantId with
  | none => pure none
  | some members =>
    if members.any fun member => member.tenantId ≠ row.tenantId then pure none
    else pure (some (sortedRecipients
      (members.foldl (fun found member => Assoc.set found (Contracts.key member) member) recipients)))

def granted (tenant : String) (recipients : List (String × PrincipalRef)) (grants : List AclGrant) :
    List (String × PrincipalRef) × Bool :=
  match grants with
  | [] => (recipients, false)
  | grant :: rest =>
    if grant.principalType = "user" || grant.principalType = "agent" then
      let recipient := (principalOf (some grant.principalId) tenant).getD
        ⟨"openagent", tenant, grant.principalId, grant.principalType⟩
      granted tenant (Assoc.set recipients (Contracts.key recipient) recipient) rest
    else (recipients, true)

def audienceOf (row : SessionRow) : Auth (Option (List PrincipalRef)) :=
  match principalOf row.ownerPrincipalId row.tenantId with
  | none => pure none
  | some owner => do
    let grants ← policyRead fun world => world.acl row
    let found := granted row.tenantId [(Contracts.key owner, owner)] grants
    if found.2 || row.visibility = "installation_shared" || row.visibility = "public" then
      expandedAudience row found.1
    else pure (some (sortedRecipients found.1))

end Policy

def channelActions : List String :=
  ["run.submit", "run.execute", "run.publish", "run.read", "run.replay", "run.cancel", "run.delegate", "session.read",
    "session.publish", "session.list", "session.search"]

def historyActions : List String :=
  ["run.read", "run.replay", "session.read", "session.publish", "session.list", "session.search"]

def isMemory (action : String) : Bool := "memory.".toList.isPrefixOf action.toList

def sameMembers (a b : List PrincipalRef) : Bool := a.all (fun p => b.contains p) && b.all fun p => a.contains p

section Authorize

variable [Contracts] [Foundations] (authorizer : Authorizer) (context : ExecutionContext) (action : String)
  (resource : ResourceRef) (audience : List PrincipalRef)

def recheckChannel : Auth (Option Bool) := do
  let found ← channel context
  pure (some found.isSome)

def channelSession (opened : ChannelBinding) : Auth (Option Bool) :=
  if !(channelActions.contains action) then pure (some false)
  else if audience ≠ context.audience then pure (some false)
  else do
    let row ← readSession resource.resourceId
    if resource.resourceId ≠ context.sessionId && !(historyActions.contains action &&
        (row.any fun row => row.rootSessionId = some opened.context.sessionId)) then pure (some false)
    else match row with
      | none => if action = "run.submit" then recheckChannel context else pure (some false)
      | some row =>
        if row.tenantId ≠ context.tenantId then pure (some false)
        else do
          match ← audienceOf row with
          | none => pure none
          | some current =>
            if sameMembers current context.audience then recheckChannel context else pure (some false)

def memoryAllows : Auth Bool :=
  if authorizer.memoryAuthorizer then policyRead fun world => world.memory context action resource audience
  else pure false

def sourceAllows : Auth Bool :=
  if authorizer.sourceAuthorizer then policyRead fun world => world.source context action resource audience
  else pure false

def channelAllows : Auth Bool :=
  if isMemory action then memoryAllows authorizer context action resource audience
  else if audience ≠ context.audience then pure false
  else sourceAllows authorizer context action resource audience

def channelOther : Auth (Option Bool) := do
  let allowed ← channelAllows authorizer context action resource audience
  if allowed then recheckChannel context else pure (some false)

def authorizeChannel : Auth (Option Bool) := do
  match ← channel context with
  | none => pure (some false)
  | some opened =>
    if resource.tenantId ≠ context.tenantId then pure (some false)
    else if resource.kind = "session" then channelSession context action resource audience opened
    else channelOther authorizer context action resource audience

def ingress : Auth (Option Identity) :=
  if given context.delegationId then
    if authorizer.delegations then delegation context else pure none
  else do
    let found ← binding context
    pure (found.map Binding.identity)

def recheckIngress : Auth (Option Bool) := do
  let found ← ingress authorizer context
  pure (some found.isSome)

def viewActions : List String := ["run.read", "run.replay", "session.read"]

def audienceHolds (row : SessionRow) : Auth (Option Bool) :=
  if action = "run.execute" || action = "run.publish" then do
    let current ← audienceOf row
    pure (current.map fun current => sameMembers current context.audience)
  else pure (some true)

def visibleTo (row : SessionRow) (identity : Identity) : Auth Bool :=
  if principalOf row.ownerPrincipalId context.tenantId = some context.initiator then pure true
  else policyRead fun world => world.visible row identity (if viewActions.contains action then "view" else "admin")

def authorizeRow (identity : Identity) (row : SessionRow) : Auth (Option Bool) :=
  if row.tenantId ≠ context.tenantId then pure (some false)
  else do
    let visible ← visibleTo context action row identity
    if !visible then pure (some false)
    else do
      match ← audienceHolds context action row with
      | none => pure none
      | some false => pure (some false)
      | some true => recheckIngress authorizer context

def authorizeSession (identity : Identity) : Auth (Option Bool) := do
  match ← readSession resource.resourceId with
  | none => pure (some (action = "run.submit" && context.audience = [context.initiator]))
  | some row => authorizeRow authorizer context action identity row

def authorizeOther : Auth (Option Bool) := do
  match ← ingress authorizer context with
  | none => pure (some false)
  | some identity =>
    if resource.tenantId ≠ context.tenantId then pure (some false)
    else if isMemory action then do
      let allowed ← memoryAllows authorizer context action resource audience
      pure (some allowed)
    else if resource.kind ≠ "session" then do
      let allowed ← sourceAllows authorizer context action resource audience
      pure (some allowed)
    else authorizeSession authorizer context action resource identity

def fromChannel : Bool := "channel:".toList.isPrefixOf (context.ingressId.getD "").toList

/-- `authorize`: the answer, or `none` where `PermissionError` is raised. -/
def authorize : Auth (Option Bool) :=
  if fromChannel context then authorizeChannel authorizer context action resource audience
  else authorizeOther authorizer context action resource audience

end Authorize

end OpenAgent.RuntimeAccess
