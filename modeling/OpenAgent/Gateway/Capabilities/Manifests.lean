import OpenAgent.Gateway.Capabilities.Catalog
import OpenAgent.Lib.JsonDumps

namespace OpenAgent.Gateway.Capabilities

open Py

def maxCapabilityCatalogBytes : Nat := 1024 * 1024
def maxCapabilityServers : Nat := 128
def maxCapabilityTools : Nat := 4096
def maxToolsPerCapabilityServer : Nat := 1024
def maxCapabilityNameLength : Nat := 200
def maxCapabilityDescriptionLength : Nat := 64 * 1024
def maxCapabilityInstructionsLength : Nat := 128 * 1024
def maxToolMetadataBytes : Nat := 65536

/-- A catalog is refused with an error for the host, or the check itself raises. -/
inductive Refusal where
  | error (e : ClientCapabilityError)
  | crashed

def invalidCatalog {α : Type} (message : String) : Except Refusal α := .error (.error ⟨"INVALID_CATALOG", message, .null⟩)

def catalogQuota {α : Type} (message : String) : Except Refusal α := .error (.error ⟨"CATALOG_QUOTA", message, .null⟩)

/-- `str(value or "")`. -/
def textOrEmpty (j : Json) : String := (j.orElse (.str "")).pyStr

/-- `str(value).strip().lower().replace("-", "_")`. -/
def spelling (raw : Json) : String :=
  String.ofList ((lower (strip raw.pyStr)).toList.map (fun c => if c = '-' then '_' else c))

def Classification.ofText (text : String) : Option Classification :=
  if text = "read_only" ∨ text = "readonly" then some .readOnly
  else if text = "idempotent" then some .idempotent
  else if text = "mutating" then some .mutating
  else none

def Classification.ofSpelling (raw : Json) : Option Classification := ofText (spelling raw)

def toolName (item : Json) : String := strip (textOrEmpty (item.field "name"))

def serverName (item : Json) : String := strip (((item.field "name").orElse ((item.field "id").orElse (.str ""))).pyStr)

def normaliseOption (name : String) (option : String × Json) : Except Refusal (String × Classification) :=
  if option.1 = "" ∨ option.1.length > maxCapabilityNameLength then
    invalidCatalog ("invalid classification option for " ++ reprString name)
  else match Classification.ofSpelling option.2 with
    | none => invalidCatalog ("unsupported classification rule for " ++ reprString name ++ ": " ++ option.2.repr)
    | some classification => .ok (option.1, classification)

def normaliseRule (name : String) (rule : String × Json) : Except Refusal (String × List (String × Classification)) :=
  match rule.2 with
  | .obj options =>
    if rule.1 = "" ∨ rule.1.length > maxCapabilityNameLength then
      invalidCatalog ("invalid classification rule for " ++ reprString name)
    else (options.mapM (normaliseOption name)).map (fun options => (rule.1, options))
  | _ => invalidCatalog ("invalid classification rule for " ++ reprString name)

def normaliseClassificationRules (raw : Json) (name : String) :
    Except Refusal (List (String × List (String × Classification))) :=
  match raw with
  | .null => .ok []
  | .obj rules => rules.mapM (normaliseRule name)
  | _ => invalidCatalog ("classification_by_argument for " ++ reprString name ++ " must be an object")

def normaliseClassification (raw : Json) (name : String) : Except Refusal Classification :=
  if raw = .null then .ok .mutating
  else match Classification.ofSpelling raw with
    | none => invalidCatalog ("unsupported classification for " ++ reprString name ++ ": " ++ raw.repr)
    | some classification => .ok classification

def normaliseSchema (item : Json) (name : String) : Except Refusal Json :=
  match if item.has "input_schema" then item.field "input_schema" else item.field "inputSchema" with
  | .null => .ok (.obj [])
  | .obj schema => .ok (.obj schema)
  | _ => invalidCatalog ("input_schema for " ++ reprString name ++ " must be an object")

def checkMetadata (item : Json) : Except Refusal Unit :=
  match (item.field "_meta").orElse (.obj []) with
  | .obj metadata =>
    if Json.finite (.obj metadata) = false then .error .crashed
    else if (Json.dumps (.obj metadata)).utf8ByteSize > maxToolMetadataBytes then
      invalidCatalog "Tool presentation metadata exceeds its bound"
    else .ok ()
  | _ => invalidCatalog "Tool presentation metadata exceeds its bound"

def normaliseTool (seen : List String) (item : Json) : Except Refusal ToolManifest := do
  if item.isObj = false then invalidCatalog "each tool must be an object"
  let name := toolName item
  if name = "" ∨ name.length > maxCapabilityNameLength ∨ seen.contains name then
    invalidCatalog ("tool name is empty, too long, or duplicated: " ++ reprString name)
  let inputSchema ← normaliseSchema item name
  let classification ← normaliseClassification (item.field "classification") name
  if (textOrEmpty (item.field "description")).length > maxCapabilityDescriptionLength then
    catalogQuota ("description for " ++ reprString name ++ " exceeds the limit")
  let classificationByArgument ← normaliseClassificationRules (item.field "classification_by_argument") name
  let _ ← checkMetadata item
  return { name, inputSchema, classification, classificationByArgument }

def normaliseTools (raw : Json) : Except Refusal (List ToolManifest) :=
  match raw with
  | .arr items =>
    if items.length > maxToolsPerCapabilityServer then
      catalogQuota "tool count exceeds the per-server catalog limit"
    else items.foldlM
      (fun tools item => (normaliseTool (tools.map ToolManifest.name) item).map (fun t => tools ++ [t])) []
  | _ => invalidCatalog "tools must be a list"

def checkResourceProtocol (item : Json) : Except Refusal Unit :=
  match item.field "resource_protocol" with
  | .null | .str "mcp-app-resources/1" => .ok ()
  | .arr _ | .obj _ => .error .crashed
  | _ => invalidCatalog "Unsupported resource transport protocol"

def normaliseServer (so : Catalog × Nat) (item : Json) : Except Refusal (Catalog × Nat) := do
  if item.isObj = false then invalidCatalog "each server must be an object"
  let name := serverName item
  if name = "" ∨ name.length > maxCapabilityNameLength ∨ (so.1.get? name).isSome ∨ name.toList.contains ':' then
    invalidCatalog ("server name is empty, duplicated, or contains ':': " ++ reprString name)
  if (textOrEmpty (item.field "version")).length > maxCapabilityNameLength then
    catalogQuota ("version for " ++ reprString name ++ " exceeds the limit")
  if (textOrEmpty (item.field "instructions")).length > maxCapabilityInstructionsLength then
    catalogQuota ("instructions for " ++ reprString name ++ " exceed the limit")
  let tools ← normaliseTools ((item.field "tools").orElse (.arr []))
  if so.2 + tools.length > maxCapabilityTools then catalogQuota "total tool count exceeds the catalog limit"
  let _ ← checkResourceProtocol item
  return (so.1.set name ⟨tools⟩, so.2 + tools.length)

/-- `normalise_catalog` of a list, after the bounds on its size. -/
def normaliseServers (raw : List Json) : Except Refusal Catalog :=
  (raw.foldlM normaliseServer (Dict.empty, 0)).map Prod.fst

def normaliseCatalog (raw : Json) : Except Refusal Catalog :=
  match raw with
  | .arr servers =>
    if Json.finite raw = false then invalidCatalog "catalog must contain only finite JSON values"
    else if (String.ofList (Json.compactChars raw)).utf8ByteSize > maxCapabilityCatalogBytes then
      catalogQuota "catalog exceeds the encoded-size limit"
    else if servers.length > maxCapabilityServers then catalogQuota "server count exceeds the catalog limit"
    else normaliseServers servers
  | _ => invalidCatalog "servers must be a list"

end OpenAgent.Gateway.Capabilities
