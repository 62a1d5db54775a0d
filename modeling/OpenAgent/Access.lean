import Mathlib.Data.List.Basic

namespace OpenAgent

structure AccessContext where
  tenantId : String
  principalId : String
  principalType : String
  handle : String
  deviceId : String
  principalIds : List String
  grantIdentities : List (String × String)
deriving DecidableEq

inductive ResourceType
  | uiView
  | session
deriving DecidableEq

inductive Permission
  | view
  | search
  | revealSensitive
  | admin
deriving DecidableEq

/-- A row of `resource_acl`. -/
structure Grant where
  tenantId : String
  resourceType : ResourceType
  resourceId : String
  principalType : String
  principalId : String
  permission : Permission
  aclVersion : Nat
  grantedBy : Option String
  grantedAtMs : Int
deriving DecidableEq

structure AclRow where
  tenantId : String
  ownerPrincipalId : String
  visibility : String
  aclVersion : Nat
  resourceType : ResourceType
  resourceId : String
deriving DecidableEq

/-- `resource_is_visible`. -/
class AccessPolicy where
  resourceIsVisible : List Grant → AclRow → AccessContext → Permission → Bool

end OpenAgent
