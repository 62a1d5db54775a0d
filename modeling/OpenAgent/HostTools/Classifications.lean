import OpenAgent.Gateway.Capabilities.Manifests

namespace OpenAgent.HostTools

open Py

def classifications : List String := ["read_only", "idempotent", "mutating"]

abbrev ToolKey := String × String

/-- `_wire_classification_rules`: a classification in any other spelling is left out. -/
def wireClassificationRules (value : Json) : List (String × List (String × String)) :=
  match value with
  | .obj rules => rules.filterMap (fun rule => match rule.2 with
      | .obj options => some (rule.1, (options.filter (fun o => classifications.contains o.2.pyStr)).map
          (fun o => (o.1, o.2.pyStr)))
      | _ => none)
  | _ => []

structure LocalCatalog where
  toolClassifications : Dict ToolKey String
  toolClassificationRules : Dict ToolKey (List (String × List (String × String)))

def offeredServerName (server : Json) : String :=
  ((server.field "name").orElse ((server.field "id").orElse (.str ""))).pyStr

def offeredToolName (tool : Json) : String := ((tool.field "name").orElse (.str "")).pyStr

/-- `server.get("tools") or []`, where it is a list. -/
def offeredTools (server : Json) : List Json :=
  match server.field "tools" with
  | .arr tools => tools
  | _ => []

def toolEntries (servers : List Json) : List (ToolKey × Json) :=
  (servers.filter Json.isObj).flatMap (fun server => ((offeredTools server).filter Json.isObj).map
    (fun tool => ((offeredServerName server, offeredToolName tool), tool)))

def dictOf {κ α : Type} [DecidableEq κ] (entries : List (κ × α)) : Dict κ α :=
  entries.foldl (fun d e => d.set e.1 e.2) Dict.empty

def baseClassification (tool : Json) : String := ((tool.field "classification").orElse (.str "mutating")).pyStr

def installCatalog (servers : List Json) : LocalCatalog where
  toolClassifications := dictOf ((toolEntries servers).map (fun e => (e.1, baseClassification e.2)))
  toolClassificationRules := dictOf (((toolEntries servers).filter
    (fun e => (e.2.field "classification_by_argument").truthy)).map
      (fun e => (e.1, wireClassificationRules (e.2.field "classification_by_argument"))))

/-- `risk.__getitem__`, for the spellings that the rules keep. -/
def riskOf (classification : String) : Nat :=
  if classification = "read_only" then 0 else if classification = "idempotent" then 1 else 2

def matchedOption (args : Json) (rule : String × List (String × String)) : Option String :=
  match args.field rule.1 with
  | .str value => Assoc.get? rule.2 value
  | _ => none

def classificationForArguments (base : String) (rules : List (String × List (String × String))) (args : Json) : String :=
  match rules.filterMap (matchedOption args) with
  | [] => if classifications.contains base then base else "mutating"
  | c :: cs => cs.foldl (fun a b => if riskOf a < riskOf b then b else a) c

/-- `_ensure_tool_classification`, over the tables as they are. -/
def LocalCatalog.toolClassification (catalog : LocalCatalog) (server tool : String) (args : Json) : String :=
  classificationForArguments ((catalog.toolClassifications.get? (server, tool)).getD "mutating")
    ((catalog.toolClassificationRules.get? (server, tool)).getD []) args

namespace Desktop

/-- The names that every JavaScript object has from `Object.prototype`. -/
def inherited : List String :=
  ["constructor", "hasOwnProperty", "isPrototypeOf", "propertyIsEnumerable", "toLocaleString", "toString", "valueOf",
    "__proto__", "__defineGetter__", "__defineSetter__", "__lookupGetter__", "__lookupSetter__"]

/-- `risk[candidate] ?? risk.mutating` as a number; nothing where it is no number. -/
def risk (candidate : String) : Option Nat :=
  if candidate = "read_only" then some 0
  else if candidate = "idempotent" then some 1
  else if candidate = "mutating" then some 2
  else if inherited.contains candidate then none
  else some 2

def riskier (candidate mostRestrictive : String) : Bool :=
  match risk candidate, risk mostRestrictive with
  | some a, some b => b < a
  | _, _ => false

def isDigits (key : String) : Bool := key ≠ "" && key.toList.all (fun c => '0' ≤ c ∧ c ≤ '9')

def arrayIndex (key : String) : Option Nat :=
  let n := key.toList.foldl (fun n c => n * 10 + (c.toNat - 48)) 0
  if isDigits key && toString n == key && n < 2 ^ 32 - 1 then some n else none

/-- `Object.entries`: array indices in ascending order, then the other keys in the order they came. -/
def objectEntries (j : Json) : List (String × Json) :=
  match j with
  | .obj entries =>
    (entries.filter (fun e => (arrayIndex e.1).isSome)).mergeSort
      (fun a b => (arrayIndex a.1).getD 0 ≤ (arrayIndex b.1).getD 0) ++
    entries.filter (fun e => (arrayIndex e.1).isNone)
  | _ => []

def matchedOption (args : Json) (rule : String × Json) : Option String :=
  match args.field rule.1 with
  | .str value => match rule.2.field value with
    | .str classification => some classification
    | _ => none
  | _ => none

/-- `classificationForArguments`; a tool that is not there, and a field that is not there, count as null. -/
def classificationForArguments (tool : Option Json) (args : Json) : Json :=
  let toolField := fun name => (tool.map (fun t => t.field name)).getD .null
  match (objectEntries (toolField "classification_by_argument")).filterMap (matchedOption args) with
  | [] => toolField "classification"
  | c :: cs => .str (cs.foldl (fun mostRestrictive candidate =>
    if riskier candidate mostRestrictive then candidate else mostRestrictive) c)

def toolManifest (servers : List Json) (server tool : String) : Option Json :=
  (servers.find? (fun s => s.field "name" = .str server)).bind
    (fun s => (offeredTools s).find? (fun t => t.field "name" = .str tool))

/-- What a call counts as, as `handleToolCall` has it. -/
def toolClassification (servers : List Json) (server tool : String) (args : Json) : Json :=
  classificationForArguments (toolManifest servers server tool) args

end Desktop

end OpenAgent.HostTools
