import OpenAgent.Lib.Json

namespace OpenAgent

structure PrincipalRef where
  authority : String
  tenantId : String
  subjectId : String
  kind : String
deriving DecidableEq

structure ResourceRef where
  kind : String
  tenantId : String
  resourceId : String
deriving DecidableEq

structure CapabilityLease where
  sourceId : String
  lease : String
deriving DecidableEq

structure ExecutionContext where
  author : PrincipalRef
  initiator : PrincipalRef
  authority : PrincipalRef
  tenantId : String
  sessionId : String
  agentId : String
  audience : List PrincipalRef
  scopes : List String := []
  capabilities : List CapabilityLease := []
  delegationId : Option String := none
  deferred : Bool := false
  ingressId : Option String := none
  parentRunId : Option String := none
deriving DecidableEq

def given (value : Option String) : Bool := value.any fun text => text != ""

/-- `text[len(start):]` where the text starts so. -/
def afterPrefix (start text : String) : Option String :=
  if start.toList.isPrefixOf text.toList then some (String.ofList (text.toList.drop start.toList.length)) else none

end OpenAgent
