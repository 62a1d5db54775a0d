import Mathlib.Algebra.Order.Ring.Unbundled.Rat
import OpenAgent.McpApps.Policies

namespace OpenAgent.McpApps.Host

open Py

/-- `null`, or a string. -/
abbrev Owner := Option String

def signedIn (owner : Owner) : Bool := owner ≠ none && owner ≠ some ""

inductive Reply
  | owner (owner : Owner)
  | session (result : Json)
  | throws

/-- A call of `authorize`, by what it awaits. -/
inductive Auth
  | owner
  | session
  | current
  | passed
  | failed
deriving DecidableEq

def Auth.next (live : Bool) (owner : Owner) : Auth → Reply → Option Auth
  | .owner, .owner answer => some (if live && answer = owner then .session else .failed)
  | .session, .session result => some (if live && result.field "authorized" = .bool true then .current else .failed)
  | .current, .owner answer => some (if live && answer = owner then .passed else .failed)
  | .owner, .throws | .session, .throws | .current, .throws => some .failed
  | _, _ => none

/-- A session, as the `n`th that `openSession` returned. -/
structure Session where
  n : Nat
  value : Json

def present : Json → Bool
  | .null => false
  | .bool b => b
  | .int n => n ≠ 0
  | .float f => f.repr ≠ "0.0" && f.repr ≠ "-0.0" && f.repr ≠ "nan"
  | .str s => s ≠ ""
  | .arr _ | .obj _ => true

inductive Outcome
  | owner (owner : Owner)
  | opened
  | fails

/-- The work that a call of `open` tracks. -/
inductive Work
  | idle
  | owner
  /-- `openSession` is called next. -/
  | queued
  | session
  | settling (outcome : Outcome)

inductive OpenStage
  | owner
  | session (owner : Owner)
  | current (owner : Owner)
  | ended (placed : Bool)

structure Open where
  reference : Json
  aborted : Bool := false
  stage : OpenStage := .owner
  work : Work := .owner
  outcome : Option Outcome := none
  session : Option Session := none
  cleaned : Bool := false

def Open.done (call : Open) : Bool :=
  match call.stage with
  | .ended _ => true
  | _ => false

def Open.idle (call : Open) : Bool :=
  match call.work with
  | .idle => true
  | _ => false

inductive OnceStage
  | queued
  | authorizing (auth : Auth)
  | running
  | settling (outcome : Option Json)
  | settled (outcome : Option Json)

structure Once where
  digest : String
  stage : OnceStage := .queued

inductive PolicyStage
  | checking (auth : Auth)
  | checked
  | approving (request : PolicyRequest)
  | rechecking (auth : Auth) (request : PolicyRequest) (decision : Json)
  | rechecked (request : PolicyRequest) (decision : Json)
  | retiring
  | settled (ok : Bool)

structure PolicyTask where
  cancelled : Bool := false
  verify : Option Auth := none
  stage : PolicyStage

def PolicyTask.settled (task : PolicyTask) : Bool :=
  match task.stage with
  | .settled _ => true
  | _ => false

inductive Token
  | policy
  | request (id : String)
deriving DecidableEq

structure View where
  owner : Owner
  session : Session
  resource : Resource
  reference : Json
  expires : ℚ
  listed : Bool := true
  policy : Policy
  task : Option PolicyTask := none
  interactive : Option Token := none
  requests : Dict String Once := Dict.empty

def View.unlist (view : View) : View :=
  { view with listed := false, task := view.task.map fun task => { task with cancelled := true } }

inductive Route
  | page
  | data
  | close
  | rpc
  | other
deriving DecidableEq

structure Input where
  id : String
  method : String
  params : Json

inductive Stage
  | admission (auth : Auth)
  | policy
  | body
  | authorized (auth : Auth) (input : Input)
  | once (id : String)
  /-- Awaits `requestSession`. -/
  | asking
  | publish (auth : Auth) (result : Json)
  | closing
  | done

structure Handler where
  route : Route
  view : Nat
  sameOrigin : Bool
  stage : Stage

inductive Client
  | handler (r : Nat)
  | once (v : Nat) (id : String)
  | policy (v : Nat)
  | verify (v : Nat)
deriving DecidableEq

inductive Act
  | viewed (v : Nat) (owner : Owner)
  | retired (v : Nat)
  | closed (n : Nat)
  | answered (client : Client) (owner : Owner)
  | granted (client : Client) (v : Nat)
  | operates (v : Nat) (id : String)
  | decided (v : Nat) (policy : Policy) (info decision : Json)
  | response (r v : Nat)

structure Options where
  platform : HostPlatform
  maxViews : Nat
  digest : Json → String
  approvePolicy : Bool
  openLink : Bool
  sendMessage : Bool

structure Service where
  closed : Bool := false
  now : ℚ := 0
  opens : Dict Nat Open := Dict.empty
  openCount : Nat := 0
  views : Dict Nat View := Dict.empty
  viewCount : Nat := 0
  handlers : Dict Nat Handler := Dict.empty
  handlerCount : Nat := 0
  /-- The calls of `close` that await the owner. -/
  closers : Dict Nat Nat := Dict.empty
  closerCount : Nat := 0
  /-- The sessions that `closeSession` is called for next. -/
  retiring : List Nat := []
  sessions : Nat := 0
  trace : List Act := []

namespace Service

variable (o : Options)

def act (s : Service) (a : Act) : Service := { s with trace := s.trace ++ [a] }

def setView (s : Service) (v : Nat) (view : View) : Service := { s with views := s.views.set v view }

def setOpen (s : Service) (k : Nat) (call : Open) : Service := { s with opens := s.opens.set k call }

def setStage (s : Service) (r : Nat) (handler : Handler) (stage : Stage) : Service :=
  { s with handlers := s.handlers.set r { handler with stage := stage } }

def live (s : Service) (v : Nat) : Bool :=
  match s.views.get? v with
  | some view => !s.closed && view.listed && s.now < view.expires
  | none => false

/-- `authorize`, up to its first await. -/
def authorize (s : Service) (v : Nat) : Auth := if s.live v then .owner else .failed

def retire (s : Service) (v : Nat) : Service :=
  match s.views.get? v with
  | some view =>
    if view.listed then
      ({ s with retiring := s.retiring ++ [view.session.n] }.setView v view.unlist).act (.retired v)
    else s
  | none => s

def listed (s : Service) : List Nat := (s.views.entries.filter fun e => e.2.listed).map Prod.fst

def retireAll (s : Service) (vs : List Nat) : Service := vs.foldl retire s

/-- Calls of `open` are aborted. -/
def abortOpens (s : Service) (predicate : Json → Bool) : Service :=
  { s with opens := s.opens.mapEntries fun _ call =>
      if predicate call.reference then { call with aborted := true } else call }

def revokeViews (s : Service) (predicate : Json → Bool) : Service :=
  (s.abortOpens predicate).retireAll
    ((s.views.entries.filter fun e => e.2.listed && predicate e.2.reference).map Prod.fst)

def shutdown (s : Service) : Service := { s with closed := true }.revokeViews fun _ => true

def opening (s : Service) (reference : Json) : Service :=
  let s := s.retireAll ((s.views.entries.filter fun e => e.2.listed && decide (e.2.expires ≤ s.now)).map Prod.fst)
  if s.closed || o.maxViews ≤ s.listed.length + s.opens.size then s
  else { s.setOpen s.openCount { reference := reference } with openCount := s.openCount + 1 }

def release (s : Service) (k : Nat) (call : Open) : Service :=
  if call.done && call.idle then { s with opens := s.opens.erase k } else s.setOpen k call

def cleanup (s : Service) (call : Open) : Service :=
  match call.session, call.cleaned with
  | some session, false => { s with retiring := s.retiring ++ [session.n] }
  | _, _ => s

/-- A call of `open` throws. -/
def fails (s : Service) (k : Nat) (call : Open) : Service :=
  (s.cleanup call).release k { call with stage := .ended false, cleaned := call.cleaned || call.session.isSome }

def lifetime (value : Json) : Option ℚ :=
  match value.field "expiresInMs" with
  | .null => some 300000
  | .int n => if 0 < n then some (min n 300000) else none
  | .float f =>
    if o.platform.finite f && 0 < o.platform.number f then some (min (o.platform.number f) 300000) else none
  | _ => none

def newView (s : Service) (owner : Owner) (reference : Json) (session : Session) : Option View :=
  match parseUiResource o.platform (session.value.field "resource")
      (item (((session.value.field "tool").field "_meta").field "ui") "resourceUri") with
  | some resource =>
    match approvableResourcePolicy o.platform resource with
    | some request =>
      match clampPolicy resource request empty, lifetime o session.value with
      | some policy, some lifetime =>
        some { owner, session, resource, reference, expires := s.now + lifetime, policy }
      | _, _ => none
    | none => none
  | none => none

/-- The end of `open`. -/
def place (s : Service) (k : Nat) (call : Open) (owner : Owner) : Service :=
  match call.session.bind (s.newView o owner call.reference) with
  | some view =>
    { (s.setView s.viewCount view).act (.viewed s.viewCount owner) with viewCount := s.viewCount + 1 }.release k
      { call with stage := .ended true }
  | none => s.fails k call

/-- A call of `open` goes on, when its work has settled or it was aborted. -/
def continues (s : Service) (k : Nat) : Option Service :=
  match s.opens.get? k with
  | some call =>
    if call.done || !call.aborted && call.outcome.isNone then none
    else if call.aborted || s.closed then some (s.fails k call)
    else
      match call.stage, call.outcome with
      | .owner, some (.owner owner) =>
        if signedIn owner then
          some (s.setOpen k { call with stage := .session owner, work := .queued, outcome := none })
        else some (s.fails k call)
      | .session owner, some .opened =>
        some (s.setOpen k { call with stage := .current owner, work := .owner, outcome := none })
      | .current owner, some (.owner current) =>
        if current = owner then some (s.place o k call owner) else some (s.fails k call)
      | _, _ => some (s.fails k call)
  | none => none

/-- `openSession` is called, unless the call was aborted. -/
def callsOpen (s : Service) (k : Nat) : Option Service :=
  match s.opens.get? k with
  | some call =>
    match call.work with
    | .queued =>
      some (s.setOpen k { call with work := if s.closed || call.aborted then .settling .fails else .session })
    | _ => none
  | none => none

/-- `currentOwner` answers a call of `open`. -/
def ownerAnswers (s : Service) (k : Nat) (answer : Option Owner) : Option Service :=
  match s.opens.get? k with
  | some call =>
    match call.work with
    | .owner =>
      some (s.setOpen k { call with work := .settling (answer.elim .fails .owner) })
    | _ => none
  | none => none

def receives (s : Service) (k : Nat) (call : Open) : Service :=
  if call.aborted || s.closed then
    (s.cleanup call).setOpen k { call with work := .settling .fails, cleaned := call.cleaned || call.session.isSome }
  else s.setOpen k { call with work := .settling .opened }

/-- `openSession` returns. -/
def sessionAnswers (s : Service) (k : Nat) (answer : Option Json) : Option Service :=
  match s.opens.get? k with
  | some call =>
    match call.work, answer with
    | .session, some value =>
      if present value then
        some ({ s with sessions := s.sessions + 1 }.receives k { call with session := some ⟨s.sessions, value⟩ })
      else some (s.receives k call)
    | .session, none => some (s.setOpen k { call with work := .settling .fails })
    | _, _ => none
  | none => none

def untracks (s : Service) (k : Nat) : Option Service :=
  match s.opens.get? k with
  | some call =>
    match call.work with
    | .settling outcome => some (s.release k { call with work := .idle, outcome := some outcome })
    | _ => none
  | none => none

end Service

def Stage.auth : Stage → Option Auth
  | .admission auth | .authorized auth _ | .publish auth _ => some auth
  | _ => none

def Stage.withAuth (auth : Auth) : Stage → Stage
  | .admission _ => .admission auth
  | .authorized _ input => .authorized auth input
  | .publish _ result => .publish auth result
  | stage => stage

def OnceStage.auth : OnceStage → Option Auth
  | .authorizing auth => some auth
  | _ => none

def PolicyStage.auth : PolicyStage → Option Auth
  | .checking auth | .rechecking auth _ _ => some auth
  | _ => none

def PolicyStage.withAuth (auth : Auth) : PolicyStage → PolicyStage
  | .checking _ => .checking auth
  | .rechecking _ request decision => .rechecking auth request decision
  | stage => stage

namespace Service

variable (o : Options)

def note (s : Service) (client : Client) (v : Nat) (reply : Reply) (auth : Auth) : Service :=
  let s := match reply with
    | .owner owner => s.act (.answered client owner)
    | _ => s
  if auth = .passed then s.act (.granted client v) else s

/-- The host answers a call of `authorize`. -/
def answers (s : Service) (client : Client) (reply : Reply) : Option Service :=
  match client with
  | .handler r =>
    match s.handlers.get? r with
    | some handler =>
      match s.views.get? handler.view, handler.stage.auth with
      | some view, some auth =>
        (auth.next (s.live handler.view) view.owner reply).map fun auth =>
          (s.setStage r handler (handler.stage.withAuth auth)).note client handler.view reply auth
      | _, _ => none
    | none => none
  | .once v id =>
    match s.views.get? v with
    | some view =>
      match view.requests.get? id with
      | some once =>
        match once.stage.auth with
        | some auth =>
          (auth.next (s.live v) view.owner reply).map fun auth =>
            (s.setView v { view with
              requests := view.requests.set id { once with stage := .authorizing auth } }).note client v reply auth
        | none => none
      | none => none
    | none => none
  | .policy v =>
    match s.views.get? v with
    | some view =>
      match view.task with
      | some task =>
        match task.stage.auth with
        | some auth =>
          (auth.next (s.live v) view.owner reply).map fun auth =>
            (s.setView v { view with
              task := some { task with stage := task.stage.withAuth auth } }).note client v reply auth
        | none => none
      | none => none
    | none => none
  | .verify v =>
    match s.views.get? v with
    | some view =>
      match view.task with
      | some task =>
        match task.verify with
        | some auth =>
          (auth.next (s.live v) view.owner reply).map fun auth =>
            (s.setView v { view with task := some { task with verify := some auth } }).note client v reply auth
        | none => none
      | none => none
    | none => none

def setTask (s : Service) (v : Nat) (view : View) (task : PolicyTask) (stage : PolicyStage) : Service :=
  s.setView v { view with task := some { task with stage := stage } }

def settle (s : Service) (v : Nat) (view : View) (task : PolicyTask) (ok : Bool) : Service :=
  s.setView v { view with
    task := some { task with stage := .settled ok }
    interactive := if view.interactive = some .policy then none else view.interactive }

def dismiss (s : Service) (v : Nat) (view : View) (task : PolicyTask) : Service :=
  (s.setTask v view task .retiring).retire v

/-- `check`, up to its first await. -/
def check (s : Service) (v : Nat) (task : PolicyTask) : Auth := if task.cancelled then .failed else s.authorize v

/-- `slice(0, max)` -/
def cut : Nat → List Char → List Char
  | _, [] => []
  | max, c :: text => if units c.toString ≤ max then c :: cut (max - units c.toString) text else []

def label (value : Json) (default : String) : String :=
  String.ofList (cut 512 (if value = .null then default else o.platform.text value).toList)

def requestJson (view : View) (request : PolicyRequest) : Json :=
  .obj [("resourceUri", request.resourceUri), ("declaredCsp", cspJson request.declaredCsp),
    ("declaredPermissions", .obj (request.declaredPermissions.map fun key => (key, empty))),
    ("blockedDomains", .arr (request.blockedDomains.map Json.str)),
    ("toolName", .str (label o ((view.session.value.field "tool").field "name") "Interactive tool")),
    ("sourceId", .str (label o ((view.session.value.field "binding").field "sourceId") ""))]

def declares (request : PolicyRequest) : Bool :=
  CSP_KEYS.any (fun key => !(request.declaredCsp key).isEmpty) || !request.declaredPermissions.isEmpty ||
    !request.blockedDomains.isEmpty

def resumePolicy (s : Service) (v : Nat) (view : View) (task : PolicyTask) : Option Service :=
  match task.stage with
  | .checking .passed => some (if task.cancelled then s.dismiss v view task else s.setTask v view task .checked)
  | .checking .failed => some (s.dismiss v view task)
  | .checked =>
    match approvableResourcePolicy o.platform view.resource with
    | some request =>
      if declares request && o.approvePolicy then
        some (if fits o.platform.toPlatform (requestJson o view request) MiB then
          s.setTask v view task (.approving request) else s.dismiss v view task)
      else some (s.setTask v view task (.rechecking (s.check v task) request empty))
    | none => some (s.dismiss v view task)
  | .rechecking .passed request decision =>
    some (if task.cancelled then s.dismiss v view task else s.setTask v view task (.rechecked request decision))
  | .rechecking .failed _ _ => some (s.dismiss v view task)
  | .rechecked request decision =>
    match clampPolicy view.resource request (orEmpty decision) with
    | some policy =>
      some ((s.settle v { view with policy := policy } task true).act
        (.decided v policy view.resource.info (orEmpty decision)))
    | none => some (s.dismiss v view task)
  | .retiring => some (s.settle v view task false)
  | _ => none

/-- `approvePolicy` settles. -/
def approves (s : Service) (v : Nat) (answer : Option Json) : Option Service :=
  match s.views.get? v with
  | some view =>
    match view.task with
    | some task =>
      match task.stage with
      | .approving request =>
        match answer with
        | some decision => some (s.setTask v view task (.rechecking (s.check v task) request decision))
        | none => some (s.dismiss v view task)
      | _ => none
    | none => none
  | none => none

def verifies (s : Service) (v : Nat) : Option Service :=
  match s.views.get? v with
  | some view =>
    match view.task with
    | some task =>
      if task.settled || task.verify.isSome then none
      else some (s.setView v { view with task := some { task with verify := some (s.check v task) } })
    | none => none
  | none => none

def resumeVerify (s : Service) (v : Nat) (view : View) (task : PolicyTask) : Option Service :=
  match task.verify with
  | some .passed => some (s.setView v { view with task := some { task with verify := none } })
  | some .failed => some (s.setView v { view with task := some { task with verify := none, cancelled := true } })
  | _ => none

def setOnce (s : Service) (v : Nat) (view : View) (id : String) (once : Once) (stage : OnceStage) : Service :=
  s.setView v { view with requests := view.requests.set id { once with stage := stage } }

def starts (s : Service) (v : Nat) (id : String) : Option Service :=
  match s.views.get? v with
  | some view =>
    match view.requests.get? id with
    | some once =>
      match once.stage with
      | .queued => some (s.setOnce v view id once (.authorizing (s.authorize v)))
      | _ => none
    | none => none
  | none => none

def resumeOnce (s : Service) (v : Nat) (view : View) (id : String) (once : Once) : Option Service :=
  match once.stage with
  | .authorizing .passed =>
    some (if s.live v then (s.setOnce v view id once .running).act (.operates v id)
      else s.setOnce v view id once (.settling none))
  | .authorizing .failed => some (s.setOnce v view id once (.settling none))
  | _ => none

def operates (s : Service) (v : Nat) (id : String) (outcome : Option Json) : Option Service :=
  match s.views.get? v with
  | some view =>
    match view.requests.get? id with
    | some once =>
      match once.stage with
      | .running => some (s.setOnce v view id once (.settling outcome))
      | _ => none
    | none => none
  | none => none

def finishes (s : Service) (v : Nat) (id : String) : Option Service :=
  match s.views.get? v with
  | some view =>
    match view.requests.get? id with
    | some once =>
      match once.stage with
      | .settling outcome =>
        some (s.setOnce v { view with
          interactive := if view.interactive = some (.request id) then none else view.interactive } id once
          (.settled outcome))
      | _ => none
    | none => none
  | none => none

def requests (s : Service) (route : Route) (v : Nat) (sameOrigin : Bool) : Service :=
  { s with
    handlers := s.handlers.set s.handlerCount ⟨route, v, sameOrigin, .admission (s.authorize v)⟩
    handlerCount := s.handlerCount + 1 }

def resourcePolicy (s : Service) (r : Nat) (handler : Handler) (view : View) : Service :=
  match view.task, view.interactive with
  | some _, _ => s.setStage r handler .policy
  | none, some _ => s.setStage r handler .done
  | none, none =>
    (s.setView handler.view { view with
      interactive := some .policy
      task := some { stage := .checking (s.authorize handler.view) } }).setStage r handler .policy

def once (s : Service) (r : Nat) (handler : Handler) (view : View) (input : Input) : Service :=
  let digest := o.digest (.obj [("method", .str input.method), ("params", input.params)])
  match view.requests.get? input.id with
  | some previous => s.setStage r handler (if previous.digest = digest then .once input.id else .done)
  | none =>
    if 2048 ≤ view.requests.size || view.interactive.isSome then s.setStage r handler .done
    else
      (s.setView handler.view { view with
        interactive := some (.request input.id)
        requests := view.requests.set input.id { digest := digest } }).setStage r handler (.once input.id)

def validLink (value : Json) : Bool :=
  match o.platform.url (o.platform.text value) with
  | some link => ["https:", "http:"].contains link.protocol && link.username = "" && link.password = ""
  | none => false

/-- An `rpc` request, after it was authorized. -/
def dispatch (s : Service) (r : Nat) (handler : Handler) (view : View) (input : Input) : Service :=
  if input.method = "ui/open-link" && !o.openLink || input.method = "ui/message" && !o.sendMessage then
    s.setStage r handler .done
  else if input.method = "ui/open-link" then
    if validLink o (input.params.field "url") then s.once o r handler view input else s.setStage r handler .done
  else if input.method = "ui/message" then
    match normalizeTextMessage o.platform.toPlatform input.params with
    | .ok _ => s.once o r handler view input
    | .error _ => s.setStage r handler .done
  else s.setStage r handler .asking

def admitted (s : Service) (r : Nat) (handler : Handler) (view : View) : Service :=
  match handler.route, handler.sameOrigin with
  | .data, _ => s.resourcePolicy r handler view
  | .close, true => (s.setStage r handler .closing).retire handler.view
  | .rpc, true => s.setStage r handler .body
  | _, _ => s.setStage r handler .done

def publish (s : Service) (r : Nat) (handler : Handler) (result : Json) : Service :=
  s.setStage r handler (.publish (s.authorize handler.view) result)

def resumeHandler (s : Service) (r : Nat) (handler : Handler) : Option Service :=
  match handler.stage, s.views.get? handler.view with
  | .admission .passed, some view => some (s.admitted r handler view)
  | .policy, some view =>
    match view.task with
    | some task =>
      match task.stage with
      | .settled ok => some (if ok then s.publish r handler empty else s.setStage r handler .done)
      | _ => none
    | none => none
  | .authorized .passed input, some view => some (s.dispatch o r handler view input)
  | .once id, some view =>
    match view.requests.get? id with
    | some once =>
      match once.stage with
      | .settled (some result) => some (s.publish r handler result)
      | .settled none => some (s.setStage r handler .done)
      | _ => none
    | none => none
  | .publish .passed _, _ => some ((s.setStage r handler .done).act (.response r handler.view))
  | .admission .failed, _ | .authorized .failed _, _ | .publish .failed _, _ | .closing, _ =>
    some (s.setStage r handler .done)
  | _, _ => none

def METHODS : List String :=
  ["authorize", "tools/call", "resources/read", "ui/open-link", "ui/message", "ui/update-model-context"]

def validInput (body : Json) : Option Input :=
  match body.field "id", body.field "method" with
  | .str id, .str method =>
    if 0 < units id && units id ≤ 128 && (body.field "params").isObj && METHODS.contains method then
      some ⟨id, method, body.field "params"⟩
    else none
  | _, _ => none

def body (s : Service) (r : Nat) (value : Option Json) : Option Service :=
  match s.handlers.get? r with
  | some handler =>
    match handler.stage with
    | .body =>
      match value.bind validInput with
      | some input => some (s.setStage r handler (.authorized (s.authorize handler.view) input))
      | none => some (s.setStage r handler .done)
    | _ => none
  | none => none

/-- `requestSession` settles. -/
def settles (s : Service) (r : Nat) (answer : Option Json) : Option Service :=
  match s.handlers.get? r with
  | some handler =>
    match handler.stage with
    | .asking =>
      match answer with
      | some result => some (s.publish r handler result)
      | none => some (s.setStage r handler .done)
    | _ => none
  | none => none

def hangs (s : Service) (r : Nat) : Option Service :=
  match s.handlers.get? r with
  | some handler =>
    match handler.route, handler.stage with
    | _, .done => none
    | .data, _ => some (s.retire handler.view)
    | _, _ => some s
  | none => none

def resumes (s : Service) (client : Client) : Option Service :=
  match client with
  | .handler r =>
    match s.handlers.get? r with
    | some handler => s.resumeHandler o r handler
    | none => none
  | .once v id =>
    match s.views.get? v with
    | some view =>
      match view.requests.get? id with
      | some once => s.resumeOnce v view id once
      | none => none
    | none => none
  | .policy v =>
    match s.views.get? v with
    | some view =>
      match view.task with
      | some task => s.resumePolicy o v view task
      | none => none
    | none => none
  | .verify v =>
    match s.views.get? v with
    | some view =>
      match view.task with
      | some task => s.resumeVerify v view task
      | none => none
    | none => none

def closeView (s : Service) (v : Nat) : Service :=
  match s.views.get? v with
  | some view =>
    if view.listed then { s with closers := s.closers.set s.closerCount v, closerCount := s.closerCount + 1 } else s
  | none => s

def closeAnswers (s : Service) (c : Nat) (answer : Option Owner) : Option Service :=
  match s.closers.get? c with
  | some v =>
    let s := { s with closers := s.closers.erase c }
    match s.views.get? v, answer with
    | some view, some owner => some (if owner = view.owner then s.retire v else s)
    | _, _ => some s
  | none => none

/-- `closeSession` is called. -/
def closes (s : Service) (n : Nat) : Option Service :=
  if s.retiring.contains n then some ({ s with retiring := s.retiring.erase n }.act (.closed n)) else none

end Service

inductive Event
  -- of the host
  | opening (reference : Json)
  | revokeViews (predicate : Json → Bool)
  | closeView (v : Nat)
  | shutdown
  -- of the pages
  | requests (route : Route) (v : Nat) (sameOrigin : Bool)
  | body (r : Nat) (value : Option Json)
  | hangs (r : Nat)
  -- timers
  | ticks (time : Nat)
  | expires (v : Nat)
  | verifies (v : Nat)
  -- what the functions of the host come to
  | ownerAnswers (k : Nat) (answer : Option Owner)
  | sessionAnswers (k : Nat) (answer : Option Json)
  | closeAnswers (c : Nat) (answer : Option Owner)
  | answers (client : Client) (reply : Reply)
  | approves (v : Nat) (answer : Option Json)
  | operates (v : Nat) (id : String) (outcome : Option Json)
  | settles (r : Nat) (answer : Option Json)
  -- what goes on
  | callsOpen (k : Nat)
  | untracks (k : Nat)
  | continues (k : Nat)
  | starts (v : Nat) (id : String)
  | finishes (v : Nat) (id : String)
  | resumes (client : Client)
  | closes (n : Nat)

namespace Service

variable (o : Options)

def next (s : Service) : Event → Option Service
  | .opening reference => some (s.opening o reference)
  | .revokeViews predicate => some (s.revokeViews predicate)
  | .closeView v => some (s.closeView v)
  | .shutdown => some s.shutdown
  | .requests route v sameOrigin => some (s.requests route v sameOrigin)
  | .body r value => s.body r value
  | .hangs r => s.hangs r
  | .ticks time => some { s with now := s.now + time }
  | .expires v => some (s.retire v)
  | .verifies v => s.verifies v
  | .ownerAnswers k answer => s.ownerAnswers k answer
  | .sessionAnswers k answer => s.sessionAnswers k answer
  | .closeAnswers c answer => s.closeAnswers c answer
  | .answers client reply => s.answers client reply
  | .approves v answer => s.approves v answer
  | .operates v id outcome => s.operates v id outcome
  | .settles r answer => s.settles r answer
  | .callsOpen k => s.callsOpen k
  | .untracks k => s.untracks k
  | .continues k => s.continues o k
  | .starts v id => s.starts v id
  | .finishes v id => s.finishes v id
  | .resumes client => s.resumes o client
  | .closes n => s.closes n

end Service

end OpenAgent.McpApps.Host
