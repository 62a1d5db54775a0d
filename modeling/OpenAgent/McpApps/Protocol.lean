import Mathlib.Data.Rat.Defs
import OpenAgent.Lib.Json

namespace OpenAgent.McpApps

open Py

structure Url where
  protocol : String
  username : String
  password : String
  href : String

/-- What the language brings: how a float is written and what it stands for, and `new URL`. -/
structure Platform where
  numeral : PyFloat → String
  number : PyFloat → ℚ
  url : String → Option Url

def MCP_APPS_VERSION : String := "2026-01-26"

/-- A thrown error: its `code`, and whether it is an `McpAppError`. -/
structure Failure where
  code : Option String
  known : Bool
deriving DecidableEq

def mcpAppError (code : String) : Failure := ⟨some code, true⟩

def charLength (c : Char) : Nat :=
  if c = '"' || c = '\\' then 2
  else if [0x8, 0x9, 0xa, 0xc, 0xd].contains c.toNat then 2
  else if c.toNat < 0x20 then 6
  else c.utf8Size

def stringLength (s : String) : Nat := (s.toList.map charLength).sum + 2

variable (platform : Platform)

mutual

/-- The bytes of `JSON.stringify(value)`. -/
def jsonLength : Json → Nat
  | .null => 4
  | .bool b => if b then 4 else 5
  | .int n => (toString n).utf8ByteSize
  | .float f => (platform.numeral f).utf8ByteSize
  | .str s => stringLength s
  | .arr items => itemsLength items + 2
  | .obj entries => entriesLength entries + 2

def itemsLength : List Json → Nat
  | [] => 0
  | [item] => jsonLength item
  | item :: items => jsonLength item + 1 + itemsLength items

def entriesLength : List (String × Json) → Nat
  | [] => 0
  | [(key, value)] => stringLength key + 1 + jsonLength value
  | (key, value) :: entries => stringLength key + 1 + jsonLength value + 1 + entriesLength entries

end

/-- Whether `boundedCopy` returns; the copy is the value. -/
def fits (value : Json) (max : Nat) : Bool := jsonLength platform value ≤ max

def MiB : Nat := 1024 * 1024

def units (s : String) : Nat := (s.toList.map fun c => if c.toNat < 0x10000 then 1 else 2).sum

def safeText (s : String) (max : Nat) : Bool :=
  0 < units s && units s ≤ max && s.toList.all fun c => 0x1f < c.toNat && c.toNat ≠ 0x7f

def safeString (value : Json) (max : Nat) : Bool :=
  match value with
  | .str s => safeText s max
  | _ => false

def externalUrl (value : Json) : Except Failure String :=
  match value with
  | .str s =>
    if safeText s 4096 then
      match platform.url s with
      | some url =>
        if ["https:", "http:"].contains url.protocol && url.username = "" && url.password = "" then .ok url.href
        else .error (mcpAppError "invalid_url")
      | none => .error (mcpAppError "invalid_url")
    else .error (mcpAppError "invalid_url")
  | _ => .error (mcpAppError "invalid_url")

def textBlock (block : Json) : Option Json :=
  match block.field "type", block.field "text" with
  | .str "text", .str text => some (.obj [("type", .str "text"), ("text", .str text)])
  | _, _ => none

def normalizeTextMessage (params : Json) : Except Failure Json :=
  let content := match params.field "content" with
    | .arr items => items
    | .obj entries => [.obj entries]
    | _ => []
  if params.field "role" = .str "user" && !content.isEmpty && content.length ≤ 32 then
    match content.mapM textBlock with
    | some blocks =>
      let message := Json.obj [("role", .str "user"), ("content", .arr blocks)]
      if fits platform message (64 * 1024) then .ok message else .error (mcpAppError "payload_limit")
    | none => .error (mcpAppError "invalid_message")
  else .error (mcpAppError "invalid_message")

/-- The functions that the broker has beside `authorize`. -/
structure Broker where
  callTool : Bool
  readResource : Bool
  openLink : Bool
  sendMessage : Bool
  updateContext : Bool
  requestDisplayMode : Bool
  log : Bool

/-- What `dispatch` comes to. -/
inductive Dispatch
  | throws (failure : Failure)
  | returns (result : Json)
  /-- A function of the broker is called; `own` is returned in place of its answer. -/
  | calls (name : String) (args : Json) (own : Option Json)

def empty : Json := .obj []

/-- `value ?? {}`. -/
def orEmpty (value : Json) : Json := if value = .null then empty else value

def optionally (params : Json) (key : String) (shape : Json → Bool) : Bool :=
  !params.has key || shape (params.field key)

def isArr : Json → Bool
  | .arr _ => true
  | _ => false

def pick (params : Json) (keys : List String) : Json :=
  .obj ((keys.filter fun key => params.has key).map fun key => (key, params.field key))

def dispatch (broker : Broker) (method : String) (params : Json) : Dispatch :=
  let missing := Dispatch.throws (mcpAppError "method_not_found")
  if method = "ping" then .returns empty
  else if method = "tools/call" then
    if !broker.callTool then missing
    else if !safeString (params.field "name") 128 || !optionally params "arguments" Json.isObj then
      .throws (mcpAppError "invalid_arguments")
    else if !fits platform (orEmpty (params.field "arguments")) MiB then .throws (mcpAppError "payload_limit")
    else
      .calls "callTool" (.obj [("name", params.field "name"), ("arguments", orEmpty (params.field "arguments"))]) none
  else if method = "resources/read" then
    if !broker.readResource then missing
    else
      match params.field "uri" with
      | .str uri =>
        if safeText uri 2048 && "ui://".toList.isPrefixOf uri.toList then
          .calls "readResource" (.obj [("uri", .str uri)]) none
        else .throws (mcpAppError "invalid_resource_uri")
      | _ => .throws (mcpAppError "invalid_resource_uri")
  else if method = "ui/open-link" then
    if !broker.openLink then missing
    else
      match externalUrl platform (params.field "url") with
      | .ok href => .calls "openLink" (.obj [("url", .str href)]) (some empty)
      | .error failure => .throws failure
  else if method = "ui/message" then
    if !broker.sendMessage then missing
    else
      match normalizeTextMessage platform params with
      | .ok message => .calls "sendMessage" message (some empty)
      | .error failure => .throws failure
  else if method = "ui/update-model-context" then
    if !broker.updateContext then missing
    else if !optionally params "content" isArr || !optionally params "structuredContent" Json.isObj then
      .throws (mcpAppError "invalid_context")
    else if !fits platform (pick params ["content", "structuredContent"]) (64 * 1024) then
      .throws (mcpAppError "payload_limit")
    else .calls "updateContext" (pick params ["content", "structuredContent"]) (some empty)
  else if method = "ui/request-display-mode" then
    if !([Json.str "inline", .str "fullscreen", .str "pip"].contains (params.field "mode")) then
      .throws (mcpAppError "invalid_display_mode")
    else if broker.requestDisplayMode then
      .calls "requestDisplayMode" (.obj [("mode", params.field "mode")]) none
    else .returns (.obj [("mode", .str "inline")])
  else missing

/-- The bounds of `ui/notifications/size-changed`, for a number. -/
def within (value : Json) (max : Nat) : Bool :=
  match value with
  | .int n => 0 ≤ n && n ≤ max
  | .float f => 0 ≤ platform.number f && platform.number f ≤ max
  | _ => false

def sized (params : Json) : Bool :=
  within platform (params.field "height") 4096 && optionally params "width" fun width => within platform width 8192

def validId : Json → Bool
  | .str s => safeText s 128
  | .int n => n.natAbs ≤ 2 ^ 53 - 1
  | _ => false

end OpenAgent.McpApps
