import OpenAgent.Lib.JsonDumps

namespace OpenAgent.HostTools

open Py

def principalFields : List String :=
  ["kind", "client_instance_id", "device_label", "account_id", "network_id", "client_account_id", "channel_id",
    "device_id", "generation"]

def allowed (value : Json) : List (String × Json) := principalFields.map (fun f => (f, value.field f))

namespace LocalBroker

/-- `none` is the exception for a value that is neither a string nor an object. -/
def principalId : Json → Option String
  | .str s => some (strip s)
  | .obj entries => some (Json.obj (allowed (.obj entries))).compactSorted
  | _ => none

end LocalBroker

/-- `none` where the scope is no trusted scope hash. -/
def browserScope (value : Json) : Option (List (String × Json)) :=
  match value.field "browser_scope" with
  | .null => some []
  | .str scope =>
    if scope.length = 64 && scope.toList.all (fun ch => "0123456789abcdef".toList.contains ch) then
      some [("browser_scope", .str scope)]
    else none
  | _ => none

namespace CapabilityHost

/-- `none` is the `HostError`. -/
def principalId : Json → Option String
  | .str s => some (strip s)
  | .obj entries => do
    let scope ← browserScope (.obj entries)
    if (Json.field (.obj entries) "client_instance_id").truthy then
      some (Json.obj (allowed (.obj entries) ++ scope)).compactSorted
    else none
  | _ => none

end CapabilityHost

end OpenAgent.HostTools
