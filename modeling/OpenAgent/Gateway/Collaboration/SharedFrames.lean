import OpenAgent.Gateway.Collaboration.Hub
import OpenAgent.Lib.JsonLengths

namespace OpenAgent.Gateway.Collaboration

open Py

def givenEntry (key : String) (value : Option Json) : List (String × Json) :=
  match value with
  | some v => [(key, v)]
  | none => []

def Message.entries (m : Message) : List (String × Json) :=
  [("id", .str m.id), ("role", .str m.role), ("text", .str m.text), ("timestamp", .float m.timestamp)] ++
    givenEntry "author" m.author ++ givenEntry "model" m.model ++ givenEntry "attachments" m.attachments ++
    givenEntry "parts" m.parts

def Message.json (m : Message) : Json := .obj m.entries

def idJson : Option String → Json
  | some id => .str id
  | none => .null

def Turn.entries (t : Turn) : List (String × Json) :=
  [("id", .str t.id), ("runId", idJson t.runId), ("active", .bool t.active), ("startedAt", .float t.startedAt),
    ("messages", .arr (t.messages.map Message.json))] ++
    givenEntry "truncated" (t.truncated.map .bool) ++ givenEntry "providerRunId" (t.providerRunId.map .str) ++
    givenEntry "finishedAt" (t.finishedAt.map .float) ++ givenEntry "status" (t.status.map .str) ++
    givenEntry "tools" (t.tools.map fun tools => .arr (tools.map ToolCard.json)) ++
    givenEntry "reasoning" (t.reasoning.map .bool) ++ givenEntry "error" (t.error.map .str)

def Turn.json (t : Turn) : Json := .obj t.entries

/-- `{"type": "shared_state", "session_id": sid, **payload}`; `seconds` is the float that
`time.time()` gave for the milliseconds of the clock. -/
def sharedState (seconds : Int → PyFloat) (sid : String) (s : Session) : Json :=
  .obj ([("type", .str "shared_state"), ("session_id", .str sid), ("turns", .arr (s.turns.map Turn.json)),
    ("revision", .int s.revision)] ++ givenEntry "updatedAt" (s.updatedAt.map fun now => .float (seconds now)))

/-- `value.key`: `none` where it is `undefined`. -/
def prop (j : Json) (key : String) : Option Json :=
  match j with
  | .obj entries => Assoc.get? entries key
  | _ => none

/-- `value.length` of a string. -/
def unitsOf (s : String) : Nat := (s.toList.map fun c => if c.toNat < 0x10000 then 1 else 2).sum

def isTextOf (most : Nat) : Option Json → Bool
  | some (.str s) => unitsOf s ≤ most
  | _ => false

/-- `Number.isFinite`, of a number whose text was read. -/
def isFiniteNumber : Option Json → Bool
  | some (.int n) => n.natAbs < 2 ^ 1024 - 2 ^ 970
  | some (.float f) => Json.finite (.float f)
  | _ => false

def isSafeInteger : Option Json → Bool
  | some (.int n) => n.natAbs ≤ 9007199254740991
  | _ => false

/-- `!!value`. -/
def jsTruthy : Json → Bool
  | .arr _ | .obj _ => true
  | j => j.truthy

def validAuthor (author : Json) : Bool :=
  (prop author "kind" = some (.str "human") || prop author "kind" = some (.str "agent")) &&
    ["userId", "handle", "display"].all fun key => prop author key = none || isTextOf 1024 (prop author key)

def validMessage (message : Json) : Bool :=
  jsTruthy message && (match prop message "id" with
    | some (.str _) => true
    | _ => false) &&
    (prop message "role" = some (.str "user") || prop message "role" = some (.str "assistant")) &&
    isTextOf 262144 (prop message "text") && isFiniteNumber (prop message "timestamp") &&
    (match prop message "author" with
    | some author => !jsTruthy author || validAuthor author
    | none => true)

def validTool (tool : Json) : Bool :=
  isTextOf 256 (prop tool "id") && isFiniteNumber (prop tool "timestamp") && (match prop tool "toolInfo" with
    | some info => jsTruthy info && (match prop info "tool_name" with
        | some (.str _) => true
        | _ => false) && prop info "tool_call_id" = prop tool "id"
    | none => false)

def validTurn (turn : Json) : Bool :=
  jsTruthy turn && isTextOf 128 (prop turn "id") && (match prop turn "active" with
    | some (.bool _) => true
    | _ => false) && isFiniteNumber (prop turn "startedAt") &&
    (match prop turn "messages" with
    | some (.arr messages) => messages.length ≤ 2 && messages.all validMessage
    | _ => false) &&
    (match prop turn "tools" with
    | none => true
    | some (.arr tools) => tools.length ≤ 128 && tools.all validTool
    | some _ => false)

def validSharedSnapshot (state : Json) : Bool :=
  jsTruthy state && (match prop state "session_id" with
    | some (.str sid) => isIdentifier sid
    | _ => false) && isSafeInteger (prop state "revision") &&
    (match prop state "revision" with
    | some (.int n) => 0 ≤ n
    | _ => false) &&
    (match prop state "turns" with
    | some (.arr turns) => turns.length ≤ 8 && turns.all validTurn
    | _ => false)

/-- The text is not too long, `JSON.parse` reads it, and the snapshot is valid: the client keeps its
states and its socket. Python writes no other text than JSON for numbers that are numbers. -/
def clientAccepts (frame : Json) : Bool :=
  frame.dumps.length ≤ 4194304 && frame.finite && validSharedSnapshot frame

/-- The author of a shared turn: `principal.principal_type == "agent"`, the access it was checked
with, and `principal.handle`. -/
structure Author where
  agent : Bool
  userId : String
  display : String
  handle : Option String

def Author.json (a : Author) : Json :=
  .obj [("kind", .str (if a.agent then "agent" else "human")), ("userId", .str a.userId),
    ("display", .str a.display), ("handle", idJson a.handle)]

/-- What `_run` is called with, as far as the hub sees it. -/
structure TurnRequest where
  sid : String
  text : String
  author : Author
  requestId : String
  command : Bool
  attachments : List Json

/-- `live["messages"][0]["attachments"] = list(attachments)`. -/
def Turn.attach (t : Turn) (attachments : List Json) : Turn :=
  { t with messages := t.messages.modify 0 fun m => { m with attachments := some (.arr attachments) } }

/-- What `_run` does to its turn before anything is awaited. -/
def Turn.started (t : Turn) (q : TurnRequest) : Turn :=
  let t := if q.command then t else { t with providerRunId := some q.requestId }
  if q.attachments = [] then t else t.attach q.attachments

def Projection.run (p : Projection) (r : Reading) (q : TurnRequest) : Projection :=
  let (begun, p) := p.begin r q.sid q.text q.author.json (some q.requestId)
  if begun then
    match p.sessions.get? q.sid with
    | some s => ⟨p.sessions.set q.sid { s with turns := modifyLast (Turn.started · q) s.turns }, p.revision⟩
    | none => p
  else p

/-- What `time.time()` and `uuid4().hex` give. -/
structure Tick extends Reading where
  time_finite : (Json.float time).finite = true
  hex_length : hex.length = 32

/-- The hub from outside: shared turns, published frames, and everything about its observers. -/
inductive Move
  | run (r : Tick) (request : TurnRequest)
  | publish (r : Tick) (frame : Frame)
  | connect (c : ClientId) (user : User)
  | disconnect (c : ClientId)
  | received (c : ClientId) (text : String)
  | prune (now : Int)
  | resource (resource action : String) (resourceId : Option String)
  | deliver (c : ClientId) (now : Int)
  | authorized (c : ClientId) (result : Access)
  | sendDone (c : ClientId)
  | deliveryFailed (c : ClientId)

def move (codec : Codec) (h : Hub) : Move → Option Hub
  | .run r request => some { h with projection := h.projection.run r.toReading request }
  | .publish r frame => next codec h (.publish r.toReading frame)
  | .connect c user => next codec h (.connect c user)
  | .disconnect c => next codec h (.disconnect c)
  | .received c text => next codec h (.received c text)
  | .prune now => next codec h (.prune now)
  | .resource resource action resourceId => next codec h (.resource resource action resourceId)
  | .deliver c now => next codec h (.deliver c now)
  | .authorized c result => next codec h (.authorized c result)
  | .sendDone c => next codec h (.sendDone c)
  | .deliveryFailed c => next codec h (.deliveryFailed c)

def Observed (seconds : Int → PyFloat) (h : Hub) : Prop :=
  ∀ c sid payload, .state sid payload ∈ (h.observer c).outbox → clientAccepts (sharedState seconds sid payload) = true

end OpenAgent.Gateway.Collaboration
