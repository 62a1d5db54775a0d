import Mathlib.Data.List.Infix
import OpenAgent.Channels.Contracts
import OpenAgent.Gateway.Artifacts

namespace OpenAgent.Channels.HostedSlack

open Py Gateway

def isAsciiAlnum (ch : Char) : Bool :=
  ('A' ≤ ch && ch ≤ 'Z') || ('a' ≤ ch && ch ≤ 'z') || ('0' ≤ ch && ch ≤ '9')

def identifier (value : Json) : Bool :=
  match value with
  | .str s => match s.toList with
    | [] => false
    | ch :: rest => isAsciiAlnum ch && rest.length ≤ 511 &&
        rest.all (fun c => isAsciiAlnum c || c == '.' || c == '_' || c == '-')
  | _ => false

def textOf (value : Json) : String :=
  match value with
  | .str s => s
  | _ => ""

def isStr (value : Json) : Bool :=
  match value with
  | .str _ => true
  | _ => false

/-- `re.fullmatch(r"[0-9]{1,20}\.[0-9]{1,10}", value)`. -/
def isTimestamp (value : Json) : Bool :=
  match value with
  | .str s =>
    let whole := s.toList.takeWhile (fun c => '0' ≤ c && c ≤ '9')
    let rest := s.toList.dropWhile (fun c => '0' ≤ c && c ≤ '9')
    1 ≤ whole.length && whole.length ≤ 20 && rest.head? == some '.' &&
      1 ≤ rest.tail.length && rest.tail.length ≤ 10 && rest.tail.all (fun c => '0' ≤ c && c ≤ '9')
  | _ => false

/-- `value.get(key, default)`. -/
def fieldOr (value : Json) (key : String) (default : Json) : Json :=
  if value.has key then value.field key else default

structure Config where
  serviceBindingId : String
  serviceAppId : String
  allowedUsers : Option (List String) := none
  listenChannels : Option (List String) := none

structure Identity where
  teamId : String
  channelId : String
  botUserId : String
  version : Int
  deriving DecidableEq

inductive Outcome where
  | accepted
  | denied
  deriving DecidableEq

def deliveryId (delivery : Json) : String := textOf (delivery.field "id")

def bodySha256 (delivery : Json) : String := textOf (delivery.field "body_sha256")

def event (delivery : Json) : Json := (delivery.field "payload").field "event"

structure HostedSlackClient where
  delivery : Json
  channelId : String
  failed : Bool := false
  denied : Bool := false
  runtimeCompleted : Bool := false
  postCounter : Nat := 0

inductive Request where
  | inbox
  | api (deliveryId method : String) (arguments : List (String × Json)) (operationId : Option String)
  | ack (deliveryId bodySha256 : String) (outcome : Outcome)

inductive Record where
  | seen (deliveryId bodySha256 : String)
  | handled (deliveryId bodySha256 : String)
  | requested (request : Request)
  | completed (deliveryId : String)
  | denied (deliveryId : String)
  | failed (deliveryId : Option String)

/-- Where `poll_once` waits: for the inbox, for the handler of a delivery, with its calls that are in flight, or for an
acknowledgement. -/
inductive Stage where
  | idle
  | fetching
  | handling (client : HostedSlackClient) (inFlight : Nat) (rest : List Json)
  | acking (rest : List Json)

structure Bridge where
  sessionDead : Bool := false
  shouldStop : Bool := false
  hostedIdentity : Option Identity := none
  outcomes : List (String × String × Outcome) := []
  stage : Stage := .idle
  log : List Record := []

/-- How a request ends: with a body, with any failure, forbidden, or with the cancellation of its task. -/
inductive Response where
  | received (body : Json)
  | failed
  | forbidden
  | cancelled

/-- How the `send_message` of the parent class ends. -/
inductive SendOutcome where
  | result (type : String) (hasAttachment : Bool)
  | permission
  | raised

inductive HandlerEnd where
  | returned
  | permission
  | raised
  deriving DecidableEq

inductive Event where
  | poll
  | setStop (stop : Bool)
  | respond (response : Response)
  | cancel
  | call (method : String) (arguments : List (String × Json)) (write : Bool)
  | callEnd (response : Response)
  | deny
  | sendMessage (outcome : SendOutcome)
  | finish (end_ : HandlerEnd)

def maxOutcomes : Nat := 4096

def validateBinding (config : Config) (hostedIdentity : Option Identity) (result : Json) : Option Identity :=
  let binding := result.field "binding"
  match result.field "deliveries", binding.field "version" with
  | .arr deliveries, .int version =>
    if result.field "protocol" ≠ .str "openagent-slack-channel/v1" ∨ ¬ binding.isObj ∨ 100 < deliveries.length ∨
        binding.field "id" ≠ .str config.serviceBindingId ∨ binding.field "status" ≠ .str "active" ∨
        ¬ (identifier (binding.field "team_id") ∧ identifier (binding.field "channel_id") ∧
          identifier (binding.field "bot_user_id")) ∨ version ≤ 0 then none
    else
      let identity : Identity := ⟨textOf (binding.field "team_id"), textOf (binding.field "channel_id"),
        textOf (binding.field "bot_user_id"), version⟩
      if hostedIdentity = none ∨ hostedIdentity = some identity then some identity else none
  | _, _ => none

def validEnvelope (config : Config) (identity : Identity) (delivery : Json) : Bool :=
  let payload := delivery.field "payload"
  delivery.isObj && identifier (delivery.field "id") &&
    decide (delivery.field "binding_id" = .str config.serviceBindingId) &&
    decide (delivery.field "team_id" = .str identity.teamId) &&
    decide (delivery.field "binding_version" = .int identity.version) &&
    decide (delivery.field "status" = .str "pending") &&
    isStr (delivery.field "body_sha256") && isDigest (bodySha256 delivery).toList &&
    payload.isObj && decide (payload.field "type" = .str "event_callback") &&
    decide (payload.field "api_app_id" = .str config.serviceAppId) &&
    decide (payload.field "team_id" = .str identity.teamId) &&
    identifier (delivery.field "event_id") && decide (payload.field "event_id" = delivery.field "event_id")

def validEvent (identity : Identity) (event : Json) : Bool :=
  event.isObj && decide (event.field "channel" = .str identity.channelId) &&
    decide (fieldOr event "team" (.str identity.teamId) = .str identity.teamId) &&
    identifier (event.field "user") && isStr (fieldOr event "text" (.str "")) && isTimestamp (event.field "ts") &&
    (decide (event.field "thread_ts" = .null) || isTimestamp (event.field "thread_ts"))

def validDeliveries (config : Config) (identity : Identity) (outcomes : List (String × String × Outcome)) :
    List Json → List String → Bool
  | [], _ => true
  | delivery :: rest, seen =>
    validEnvelope config identity delivery && !seen.contains (deliveryId delivery) &&
      validEvent identity (event delivery) &&
      ((Assoc.get? outcomes (deliveryId delivery)).all (fun previous => previous.1 == bodySha256 delivery)) &&
      validDeliveries config identity outcomes rest (deliveryId delivery :: seen)

def validateInbox (config : Config) (bridge : Bridge) (result : Json) : Option (Identity × List Json) :=
  match validateBinding config bridge.hostedIdentity result, result.field "deliveries" with
  | some identity, .arr deliveries =>
    if validDeliveries config identity bridge.outcomes deliveries [] then some (identity, deliveries) else none
  | _, _ => none

def listened (config : Config) (identity : Identity) : Option (List String) :=
  match config.listenChannels with
  | none => some [identity.channelId]
  | some [] => none
  | some channels => some channels

def admitted (config : Config) (identity : Identity) (event : Json) : Option Bool :=
  let channel := textOf (event.field "channel")
  let isDm := decide (fieldOr event "channel_type" (.str "") = .str "im") || channel.toList.head? == some 'D'
  let mention := ("<@" ++ identity.botUserId ++ ">").toList
  let text := stripChars (textOf (fieldOr event "text" (.str ""))).toList
  let substantive :=
    if mention.isPrefixOf text then stripChars ((text.drop mention.length).dropWhile (fun c => c == ':' || c == ' '))
    else text
  let user := textOf (event.field "user")
  if (event.field "files").truthy || (event.field "bot_id").truthy || decide (event.field "subtype" ≠ .null) then
    some false
  else
    match event.field "type" with
    | .arr _ | .obj _ => none
    | type => some (
        (decide (type = .str "app_mention") || decide (type = .str "message")) && !substantive.isEmpty &&
        user != identity.botUserId && config.allowedUsers.all (fun users => users.contains user) &&
        (isDm || (listened config identity).any (fun channels => channels.contains channel)) &&
        (isDm || decide (mention <:+: text)))

namespace Bridge

variable (bridge : Bridge)

def record (r : Record) : Bridge := { bridge with log := bridge.log ++ [r] }

def haltIntake : Bridge := { bridge with sessionDead := true, shouldStop := true }

/-- A failure that leaves `poll_once`. -/
def abort (id : Option String) : Bridge := { (bridge.record (.failed id)).haltIntake with stage := .idle }

/-- `_service_request`, up to the response; nothing is sent in a dead session. -/
def request (r : Request) : Option Bridge :=
  if bridge.sessionDead || bridge.shouldStop then none else some (bridge.record (.requested r))

def acknowledge (delivery : Json) (outcome : Outcome) (rest : List Json) : Bridge :=
  match bridge.request (.ack (deliveryId delivery) (bodySha256 delivery) outcome) with
  | some sent => { sent with stage := .acking rest }
  | none => bridge.abort none

def settle (delivery : Json) (outcome : Outcome) (rest : List Json) : Bridge :=
  { bridge with outcomes := Assoc.set bridge.outcomes (deliveryId delivery) (bodySha256 delivery, outcome) }.acknowledge
    delivery outcome rest

/-- The loop of `poll_once`, up to its next await. -/
def proceed (config : Config) (deliveries : List Json) : Bridge :=
  match deliveries with
  | [] => { bridge with stage := .idle }
  | delivery :: rest =>
    match Assoc.get? bridge.outcomes (deliveryId delivery) with
    | some previous => bridge.acknowledge delivery previous.2 rest
    | none =>
      if maxOutcomes ≤ bridge.outcomes.length then bridge.abort none
      else match bridge.hostedIdentity with
        | none => bridge.abort none
        | some identity => match admitted config identity (event delivery) with
          | none => bridge.abort none
          | some false => (bridge.record (.denied (deliveryId delivery))).settle delivery .denied rest
          | some true =>
            { bridge.record (.handled (deliveryId delivery) (bodySha256 delivery)) with
              stage := .handling ⟨delivery, identity.channelId, false, false, false, 0⟩ 0 rest }

def receiveInbox (config : Config) (response : Response) : Bridge :=
  match response with
  | .received result => match validateInbox config bridge result with
    | some (identity, deliveries) =>
      { bridge with
        hostedIdentity := some identity
        log := bridge.log ++ deliveries.map (fun delivery => Record.seen (deliveryId delivery) (bodySha256 delivery))
        }.proceed config deliveries
    | none => bridge.abort none
  | .failed | .forbidden | .cancelled => bridge.abort none

def receiveAck (config : Config) (response : Response) (rest : List Json) : Bridge :=
  match response with
  | .received body => if body.isObj then bridge.proceed config rest else bridge.abort none
  | .failed | .forbidden | .cancelled => bridge.abort none

def fail (client : HostedSlackClient) (inFlight : Nat) (rest : List Json) : Bridge :=
  { bridge.record (.failed (some (deliveryId client.delivery))) with
    stage := .handling { client with failed := true } inFlight rest }

def deny (client : HostedSlackClient) (inFlight : Nat) (rest : List Json) : Bridge :=
  { bridge.record (.denied (deliveryId client.delivery)) with
    stage := .handling { client with denied := true } inFlight rest }

def complete (client : HostedSlackClient) (inFlight : Nat) (rest : List Json) : Bridge :=
  { bridge.record (.completed (deliveryId client.delivery)) with
    stage := .handling { client with runtimeCompleted := true } inFlight rest }

/-- `HostedSlackClient._call`, up to the request. -/
def call [Sha256] (client : HostedSlackClient) (inFlight : Nat) (rest : List Json) (method : String)
    (arguments : List (String × Json)) (write : Bool) : Bridge :=
  if client.failed || client.denied then bridge
  else if (Assoc.get? arguments "channel").any (fun channel => channel ≠ .str client.channelId) then
    bridge.deny client inFlight rest
  else if write && decide ((Json.obj arguments).field "thread_ts" ≠
      Json.orElse ((event client.delivery).field "thread_ts") .null) then
    bridge.deny client inFlight rest
  else
    let operation := Sha256.hexdigest (utf8 (deliveryId client.delivery ++ ":post:" ++ toString client.postCounter))
    let client := if write then { client with postCounter := client.postCounter + 1 } else client
    match bridge.request (.api (deliveryId client.delivery) method arguments (if write then some operation else none)) with
    | some sent => { sent with stage := .handling client (inFlight + 1) rest }
    | none => bridge.fail client inFlight rest

def callEnd (client : HostedSlackClient) (inFlight : Nat) (rest : List Json) (response : Response) : Bridge :=
  match response with
  | .received body =>
    if body.field "ok" = .bool true then { bridge with stage := .handling client inFlight rest }
    else bridge.fail client inFlight rest
  | .forbidden => bridge.haltIntake.fail client inFlight rest
  | .failed | .cancelled => bridge.fail client inFlight rest

def sendMessage (client : HostedSlackClient) (inFlight : Nat) (rest : List Json) (outcome : SendOutcome) : Bridge :=
  match outcome with
  | .result type hasAttachment =>
    if hasAttachment then bridge.deny client inFlight rest
    else if type = "response" ∨ type = "duplicate" then bridge.complete client inFlight rest
    else bridge.fail client inFlight rest
  | .permission => bridge.deny client inFlight rest
  | .raised => bridge.fail client inFlight rest

/-- What `poll_once` makes of a delivery whose handler has ended. -/
def conclude (client : HostedSlackClient) (rest : List Json) : Bridge :=
  if client.failed then bridge.abort (some (deliveryId client.delivery))
  else bridge.settle client.delivery (if client.denied then .denied else .accepted) rest

def finish (client : HostedSlackClient) (rest : List Json) (end_ : HandlerEnd) : Bridge :=
  match end_ with
  | .raised => bridge.abort (some (deliveryId client.delivery))
  | .returned =>
    if !client.runtimeCompleted && !client.denied then bridge.conclude { client with failed := true } rest
    else bridge.conclude client rest
  | .permission =>
    (bridge.record (.denied (deliveryId client.delivery))).conclude { client with denied := true } rest

def poll : Bridge :=
  match bridge.request .inbox with
  | some sent => { sent with stage := .fetching }
  | none => bridge

def next [Sha256] (config : Config) (bridge : Bridge) (e : Event) : Option Bridge :=
  match e, bridge.stage with
  | .setStop stop, _ => some { bridge with shouldStop := stop }
  | .poll, .idle => some bridge.poll
  | .respond response, .fetching => some (bridge.receiveInbox config response)
  | .respond response, .acking rest => some (bridge.receiveAck config response rest)
  | .cancel, .fetching | .cancel, .acking _ => some (bridge.abort none)
  | .cancel, .handling client _ _ => some (bridge.abort (some (deliveryId client.delivery)))
  | .call method arguments write, .handling client inFlight rest =>
    some (bridge.call client inFlight rest method arguments write)
  | .callEnd response, .handling client (inFlight + 1) rest => some (bridge.callEnd client inFlight rest response)
  | .deny, .handling client inFlight rest => some (bridge.deny client inFlight rest)
  | .sendMessage outcome, .handling client inFlight rest => some (bridge.sendMessage client inFlight rest outcome)
  | .finish end_, .handling client 0 rest => some (bridge.finish client rest end_)
  | _, _ => none

end Bridge

end OpenAgent.Channels.HostedSlack
