import OpenAgent.Gateway.Artifacts

namespace OpenAgent.Gateway.Capabilities

open Py

inductive Classification
  | readOnly
  | idempotent
  | mutating
deriving DecidableEq

def Classification.text : Classification → String
  | .readOnly => "read_only"
  | .idempotent => "idempotent"
  | .mutating => "mutating"

def Classification.risk : Classification → Nat
  | .readOnly => 0
  | .idempotent => 1
  | .mutating => 2

/-- A tool of a catalog that `normalise_catalog` accepted. -/
structure ToolManifest where
  name : String
  inputSchema : Json
  classification : Classification
  classificationByArgument : List (String × List (String × Classification)) := []

structure ServerManifest where
  tools : List ToolManifest

abbrev Catalog := Dict String ServerManifest

def matchedRule (args : Json) (rule : String × List (String × Classification)) : Option Classification :=
  match args.field rule.1 with
  | .str value => Assoc.get? rule.2 value
  | _ => none

def riskier (a b : Classification) : Classification := if a.risk < b.risk then b else a

def classificationForArguments (tool : ToolManifest) (args : Json) : Classification :=
  match tool.classificationByArgument.filterMap (matchedRule args) with
  | [] => tool.classification
  | c :: cs => cs.foldl riskier c

/-- The actions a desktop tool's schema offers: an inline enum, or the local union `Action`. -/
def desktopChoices (schema actionSchema : Json) : Option (List Json) :=
  if actionSchema.field "$ref" = .str "#/$defs/Action" then
    match ((schema.field "$defs").field "Action").field "oneOf" with
    | .arr variants => some ((variants.filter Json.isObj).map (fun item => item.field "const"))
    | _ => none
  else match actionSchema.field "enum" with
    | .arr choices => some choices
    | _ => none

def unsupportedAction : ClientCapabilityError :=
  ⟨"INVALID_ARGUMENTS", "Unsupported desktop action. Use the exact action from the tool schema, " ++
    "such as get_screenshot for a screenshot.", .null⟩

def desktopArguments (tool : ToolManifest) (args : Json) : Except ClientCapabilityError Json :=
  let actionSchema := (tool.inputSchema.field "properties").field "action"
  if actionSchema.isObj = false then .ok args
  else match desktopChoices tool.inputSchema actionSchema with
  | none => .ok args
  | some choices =>
    if .str "get_screenshot" ∉ choices then .ok args
    else match args.field "action" with
    | .str action =>
      if .str action ∈ choices then .ok args
      else if action = "screenshot" then
        let canonical := match args with
          | .obj entries => Json.obj (Assoc.set entries "action" (.str "get_screenshot"))
          | j => j
        if classificationForArguments tool canonical = .readOnly then .ok canonical
        else .error unsupportedAction
      else .error unsupportedAction
    | _ => .error unsupportedAction

def findTool (catalog : Catalog) (serverName toolName : String) : Option ToolManifest :=
  (catalog.get? serverName).bind (fun server => server.tools.find? (fun t => t.name = toolName))

end OpenAgent.Gateway.Capabilities
