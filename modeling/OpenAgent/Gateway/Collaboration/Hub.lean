import OpenAgent.Gateway.Collaboration.Access
import OpenAgent.Gateway.Collaboration.Projection
import OpenAgent.Lib.Runs

namespace OpenAgent.Gateway.Collaboration

open Py

abbrev ClientId := Nat

structure ResourceFrame where
  resource : String
  action : String
  id : Option String := none
deriving DecidableEq

def ResourceFrame.target? (f : ResourceFrame) : Option Target :=
  match Kind.ofText f.resource, f.id with
  | some kind, some id => some ⟨kind, id⟩
  | _, _ => none

abbrev Table := Dict (String × Option String) ResourceFrame

/-- What one call of `resource` does to the table of one client. -/
def Table.invalidate (t : Table) (resource action : String) (resourceId : Option String) : Table :=
  let t := t.set (resource, resourceId) ⟨resource, action, resourceId.filter (· ≠ "")⟩
  if t.size > 64 then Dict.empty.set (resource, none) ⟨resource, "updated", none⟩ else t

structure User where
  userId : String
  name : String

/-- What is handed to a client's `ws.send_json`. -/
inductive SharedFrame
  | presence (people : Json)
  | revoked (sessionId : String)
  | state (sessionId : String) (payload : Session)
  | resource (frame : ResourceFrame)
  | authError

/-- Where the delivery to a client stands: before its first step, or in an await. -/
inductive Stage
  | idle
  | views (generation : Nat) (targets : List Target)
  | presence (generation : Nat) (allowed : List Target)
  | session (generation : Nat) (allowed : List Target) (sid : String) (rest : List String)
  | stated (generation : Nat) (allowed : List Target) (rest : List String)
  | revoked (generation : Nat) (allowed : List Target) (sid : String) (rest : List String)
  | frame (allowed : List Target) (frame : ResourceFrame) (target : Target) (rest : List ResourceFrame)
  | sending (allowed : List Target) (rest : List ResourceFrame)
  | stopped
deriving DecidableEq

inductive Act
  | asked (targets allowed : List Target)
  | swapped (frames : List ResourceFrame)
  | handed (frame : SharedFrame)
  | finished

structure Observer where
  user : User := ⟨"", ""⟩
  sessions : List String := []
  focus : Option Target := none
  requestedFocus : Option Target := none
  sent : Dict String Nat := Dict.empty
  roster : String := ""
  resources : Table := Dict.empty
  generation : Nat := 0
  stage : Stage := .idle
  outbox : List SharedFrame := []
  trail : List Act := []

namespace Observer

def hand (o : Observer) (f : SharedFrame) : Observer :=
  { o with outbox := o.outbox ++ [f], trail := o.trail ++ [.handed f] }

def note (o : Observer) (a : Act) : Observer := { o with trail := o.trail ++ [a] }

def nextFrame (o : Observer) (allowed : List Target) : List ResourceFrame → Observer
  | [] => { o.note .finished with stage := .idle }
  | f :: rest =>
    match f.target? with
    | some t => { o with stage := .frame allowed f t rest }
    | none => { o.hand (.resource f) with stage := .sending allowed rest }

/-- The loop over the sessions, up to its next await; after it `client.resources` is swapped out. -/
def nextSession (o : Observer) (generation : Nat) (allowed : List Target) : List String → Observer
  | [] => ({ o.note (.swapped o.resources.values) with resources := Dict.empty }).nextFrame allowed
      o.resources.values
  | sid :: rest => { o with stage := .session generation allowed sid rest }

end Observer

/-- `if target not in targets: targets.append(target)`. -/
def addTarget (targets : List Target) (t : Target) : List Target :=
  if t ∈ targets then targets else targets ++ [t]

structure Hub where
  projection : Projection
  clients : List ClientId
  observer : ClientId → Observer

namespace Hub

def setObserver (h : Hub) (c : ClientId) (o : Observer) : Hub :=
  { h with observer := Function.update h.observer c o }

def resource (h : Hub) (resource action : String) (resourceId : Option String) : Hub :=
  { h with observer := fun c =>
      if c ∈ h.clients then
        { h.observer c with resources := (h.observer c).resources.invalidate resource action resourceId }
      else h.observer c }

def targets (h : Hub) (o : Observer) : List Target :=
  let targets := o.sessions.map (Target.mk .session)
  let targets := (h.clients.filterMap (fun p => (h.observer p).focus)).foldl addTarget targets
  let targets := o.requestedFocus.toList.foldl addTarget targets
  (o.resources.values.filterMap ResourceFrame.target?).foldl
    (fun ts t => if ts.length < 64 then addTarget ts t else ts) targets

def deliver (h : Hub) (c : ClientId) (now : Int) : Hub :=
  let h := { h with projection := h.projection.prune now }
  let o := h.observer c
  h.setObserver c { o with stage := .views o.generation (h.targets o), trail := [] }

def rosterKey (p : User × Target) : List String := [p.2.kind.text, p.2.id, p.1.userId]

def roster (h : Hub) (allowed : List Target) : Json :=
  let seen := (h.clients.filterMap (fun p =>
    ((h.observer p).focus.filter (· ∈ allowed)).map (fun t => ((h.observer p).user, t)))).foldl
      (fun people p => if people.any (fun q => rosterKey q = rosterKey p) then people else people ++ [p]) []
  .arr ((seen.insertionSort (fun p q => rosterKey p ≤ rosterKey q)).map (fun p =>
    .obj [("userId", .str p.1.userId), ("name", .str p.1.name), ("target", p.2.json)]))

def viewsAuthorized (h : Hub) (c : ClientId) (generation : Nat) (targets : List Target) (access : Access) : Hub :=
  let o := (h.observer c).note (.asked targets access.allowed)
  if o.generation ≠ generation then h.setObserver c { o with stage := .idle }
  else
    let o := { o with
      user := ⟨access.userId, access.name⟩
      focus := o.requestedFocus.filter (· ∈ access.allowed) }
    let people := (h.setObserver c o).roster access.allowed
    if people.dumpsSorted ≠ o.roster then
      h.setObserver c { o.hand (.presence people) with
        roster := people.dumpsSorted
        stage := .presence generation access.allowed }
    else h.setObserver c (o.nextSession generation access.allowed o.sessions)

end Hub

/-- `self.sessions.get(sid, {"revision": self.revision, "turns": []})`. -/
def Projection.stateFor (p : Projection) (sid : String) : Session :=
  (p.sessions.get? sid).getD { turns := [], revision := p.revision }

namespace Hub

def sessionAuthorized (h : Hub) (c : ClientId) (generation : Nat) (allowed : List Target) (sid : String)
    (rest : List String) (access : Access) : Hub :=
  let target : Target := ⟨.session, sid⟩
  let o := (h.observer c).note (.asked [target] access.allowed)
  if o.generation ≠ generation then h.setObserver c { o with stage := .idle }
  else
    let allowed := if target ∈ access.allowed then addTarget allowed target else allowed.filter (· ≠ target)
    if target ∉ allowed then
      h.setObserver c { o.hand (.revoked sid) with stage := .revoked generation allowed sid rest }
    else
      let state := h.projection.stateFor sid
      if o.sent.get? sid ≠ some state.revision then
        h.setObserver c { o.hand (.state sid state) with
          sent := o.sent.set sid state.revision
          stage := .stated generation allowed rest }
      else h.setObserver c (o.nextSession generation allowed rest)

def frameAuthorized (h : Hub) (c : ClientId) (allowed : List Target) (f : ResourceFrame) (t : Target)
    (rest : List ResourceFrame) (access : Access) : Hub :=
  let o := (h.observer c).note (.asked [t] access.allowed)
  if t ∉ access.allowed then h.setObserver c (o.nextFrame allowed rest)
  else if t ∉ allowed then h.setObserver c (o.nextFrame allowed rest)
  else h.setObserver c { o.hand (.resource f) with stage := .sending allowed rest }

/-- An `authorize` that the delivery waits for has returned. -/
def authorized (h : Hub) (c : ClientId) (result : Access) : Option Hub :=
  match (h.observer c).stage with
  | .views generation targets =>
    (authorize targets result).map (h.viewsAuthorized c generation targets)
  | .session generation allowed sid rest =>
    (authorize [⟨.session, sid⟩] result).map (h.sessionAuthorized c generation allowed sid rest)
  | .frame allowed f t rest => (authorize [t] result).map (h.frameAuthorized c allowed f t rest)
  | _ => none

/-- A `send_json` that the delivery waits for has returned. -/
def sendDone (h : Hub) (c : ClientId) : Option Hub :=
  let o := h.observer c
  match o.stage with
  | .presence generation allowed =>
    some (h.setObserver c (o.nextSession generation allowed o.sessions))
  | .stated generation allowed rest => some (h.setObserver c (o.nextSession generation allowed rest))
  | .revoked generation allowed sid rest =>
    some (h.setObserver c ({ o with sent := o.sent.erase sid }.nextSession generation allowed rest))
  | .sending allowed rest => some (h.setObserver c (o.nextFrame allowed rest))
  | _ => none

def deliveryFailed (h : Hub) (c : ClientId) : Option Hub :=
  let o := h.observer c
  if o.stage = .idle ∨ o.stage = .stopped then none
  else some (h.setObserver c { o with stage := .stopped, outbox := o.outbox ++ [.authError] })

def connect (h : Hub) (c : ClientId) (user : User) : Option Hub :=
  if c ∈ h.clients ∨ h.clients.length ≥ 32 then none
  else some { h.setObserver c { user } with clients := h.clients ++ [c] }

def disconnect (h : Hub) (c : ClientId) : Hub :=
  { h.setObserver c { h.observer c with stage := .stopped } with clients := h.clients.filter (· ≠ c) }

end Hub

inductive Observation
  | ping
  | observe (sessions : List String) (focus : Option Target)

/-- `none` where reading the frame raises, and the connection is closed. -/
def readObservation (codec : Codec) (text : String) : Option Observation :=
  match codec.loads text with
  | some (.obj entries) =>
    let frame := Json.obj entries
    if frame.field "type" = .str "ping" then some .ping
    else if frame.field "type" ≠ .str "observe" ||
        entries.any (fun e => !(["type", "sessions", "focus"].contains e.1)) then none
    else
      match (Assoc.get? entries "sessions").getD (.arr []) with
      | .arr items =>
        if items.length > 16 then none
        else
          (items.mapM (fun sid => targetKey (.obj [("kind", .str "session"), ("id", sid)]))).bind (fun views =>
              let sessions := (views.map Target.id).eraseDups
              if frame.field "focus" = .null then some (.observe sessions none)
              else (targetKey (frame.field "focus")).map (fun focus => .observe sessions (some focus)))
      | _ => none
  | _ => none

def Observer.observe (o : Observer) (sessions : List String) (focus : Option Target) : Observer :=
  { o with
    sessions
    sent := o.sent.filter (fun sid _ => sessions.contains sid)
    requestedFocus := focus
    focus := if o.focus ≠ focus then none else o.focus
    generation := o.generation + 1 }

def Hub.received (h : Hub) (codec : Codec) (c : ClientId) (text : String) : Hub :=
  match readObservation codec text with
  | some .ping => h
  | some (.observe sessions focus) => h.setObserver c ((h.observer c).observe sessions focus)
  | none => h.disconnect c

inductive Event
  | connect (c : ClientId) (user : User)
  | disconnect (c : ClientId)
  | received (c : ClientId) (text : String)
  | begin (r : Reading) (sid text : String) (author : Json) (runId : Option String)
  | publish (r : Reading) (frame : Frame)
  | prune (now : Int)
  | resource (resource action : String) (resourceId : Option String)
  | deliver (c : ClientId) (now : Int)
  | authorized (c : ClientId) (result : Access)
  | sendDone (c : ClientId)
  | deliveryFailed (c : ClientId)

/-- One event; `none` where nothing that could cause it is pending. -/
def next (codec : Codec) (h : Hub) : Event → Option Hub
  | .connect c user => h.connect c user
  | .disconnect c => if c ∈ h.clients then some (h.disconnect c) else none
  | .received c text => if c ∈ h.clients then some (h.received codec c text) else none
  | .begin r sid text author runId =>
    some { h with projection := (h.projection.begin r sid text author runId).2 }
  | .publish r frame => some { h with projection := h.projection.publish codec r frame }
  | .prune now => some { h with projection := h.projection.prune now }
  | .resource resource action resourceId => some (h.resource resource action resourceId)
  | .deliver c now =>
    if c ∈ h.clients ∧ (h.observer c).stage = .idle then some (h.deliver c now) else none
  | .authorized c result => h.authorized c result
  | .sendDone c => h.sendDone c
  | .deliveryFailed c => h.deliveryFailed c

def Hub.empty : Hub := ⟨Projection.empty, [], fun _ => {}⟩

def Reachable (codec : Codec) (h : Hub) : Prop := Runs.Reaches (next codec) Hub.empty h

end OpenAgent.Gateway.Collaboration
