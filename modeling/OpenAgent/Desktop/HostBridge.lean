import OpenAgent.Lib.Json
import OpenAgent.Lib.Runs

namespace OpenAgent.Desktop.Host

open Py

abbrev Text := List Char

def MAX_LINE_BYTES : Nat := 96 * 1024 * 1024

/-- `Buffer.byteLength(text, 'utf8')`. -/
def byteLength (text : Text) : Nat := (text.map Char.utf8Size).sum

/-- The white space and line ends that `trim` takes off. -/
def isSpace (c : Char) : Bool :=
  [0x9, 0xa, 0xb, 0xc, 0xd, 0x20, 0xa0, 0x1680, 0x2028, 0x2029, 0x202f, 0x205f, 0x3000, 0xfeff].contains c.toNat ||
    (0x2000 ≤ c.toNat && c.toNat ≤ 0x200a)

def trim (text : Text) : Text := ((text.dropWhile isSpace).reverse.dropWhile isSpace).reverse

/-- What a request asks for; a `cancel` names the request of its `call_id`. -/
inductive Kind
  /-- The `initialize` of the handshake. -/
  | handshake
  | shutdown
  /-- `call`, `provider_control` and `read_resource`. -/
  | call
  | cancel (request : Nat)
  /-- `catalog`, `set_consent`, `status`, `release_principal`. -/
  | control
deriving DecidableEq

/-- An entry of `pending`, with the process that the request went to. -/
structure Pending where
  child : Nat
  kind : Kind

inductive Outcome
  | result (child : Nat)
  | rejected
deriving DecidableEq

structure Child where
  /-- `exitCode` or `signalCode` is there; no signal is sent from then on. -/
  exited : Bool := false
  gone : Bool := false
  killed : Bool := false
  closed : Bool := false
  errored : Bool := false
  /-- It stopped being the current one through its own `exit` or `error`. -/
  lost : Bool := false
  givenUp : Bool := false

structure Join where
  waiting : List Nat
  failed : Bool := false
deriving DecidableEq

/-- The operation behind `startPromise`. -/
inductive StartStage
  /-- Awaits `stopPromise`; `some` once that is settled, with whether it failed. -/
  | stop (ended : Option Bool)
  | retiring (j : Join)
  | handshake (child id : Nat)
  /-- The handshake failed: awaits `hardStop`, or the termination of the process. -/
  | hardStop (ended : Option Bool)
  | retire (j : Join)
  | settled
deriving DecidableEq

/-- The operation behind `stopPromise`. -/
inductive StopStage
  | retiring (j : Join)
  | shutdown (child id : Nat)
  | grace (child : Nat)
  | terminate (child : Nat)
  | force (child : Nat)
  | settled (failed : Bool)
deriving DecidableEq

/-- `terminateDetachedChild`. -/
inductive RetireStage
  | terminate
  | force
  | settled (failed : Bool)
deriving DecidableEq

structure Bridge where
  /-- There is no `unavailableReason`. -/
  available : Bool := true
  children : List Child := []
  child : Option Nat := none
  stdoutBuffer : Text := []
  requestSequence : Nat := 0
  pending : Dict Nat Pending := Dict.empty
  startPromise : Option StartStage := none
  stopPromise : Option StopStage := none
  retiringChildren : Dict Nat RetireStage := Dict.empty
  issued : List Nat := []
  settled : List (Nat × Outcome) := []
  written : List (Nat × Nat × Kind) := []
  /-- What `handleStdout` took from a process, the lines that it handled, and the events that were emitted. -/
  received : Nat → Text := fun _ => []
  handled : List (Nat × Text) := []
  emitted : List (Nat × Json) := []
  spawned : List (Bool × List Nat) := []

def requestId (n : Nat) : String := "desktop-" ++ toString n

namespace Bridge

def get (s : Bridge) (c : Nat) : Child := s.children.getD c {}

def update (s : Bridge) (c : Nat) (f : Child → Child) : Bridge := { s with children := s.children.modify c f }

/-- `child.kill`, which notes a signal that was sent. -/
def kill (s : Bridge) (c : Nat) : Bridge :=
  if (s.get c).exited then s else s.update c fun x => { x with killed := x.killed || !x.gone }

def running (s : Bridge) : Bool := s.child.any fun c => !(s.get c).exited && !(s.get c).killed

def settle (s : Bridge) (id : Nat) (outcome : Outcome) : Bridge :=
  { s with pending := s.pending.erase id, settled := s.settled ++ [(id, outcome)] }

def rejectPending (s : Bridge) : Bridge :=
  { s with pending := Dict.empty, settled := s.settled ++ s.pending.keys.map fun id => (id, .rejected) }

/-- A request whose signal is aborted already, or that cannot be serialized, is not written. -/
inductive Dispatch
  | aborted
  | unserializable
  | written
deriving DecidableEq

/-- `request`, with the id where it was not rejected at once. -/
def request (s : Bridge) (kind : Kind) (dispatch : Dispatch) : Bridge × Option Nat :=
  match s.child with
  | none => (s, none)
  | some c =>
    if (s.get c).exited || (s.get c).killed then (s, none)
    else
      let id := s.requestSequence + 1
      let s := { s with requestSequence := id, issued := s.issued ++ [id] }
      match dispatch with
      | .aborted | .unserializable => ({ s with settled := s.settled ++ [(id, .rejected)] }, some id)
      | .written =>
        ({ s with pending := s.pending.set id ⟨c, kind⟩, written := s.written ++ [(c, id, kind)] }, some id)

/-- `cancelRemote`, of a request that was written. -/
def cancelRemote (s : Bridge) (id : Nat) (p : Pending) : Bridge :=
  if p.kind = .call ∧ s.child = some p.child then (s.request (.cancel id) .written).1 else s

def expire (s : Bridge) (id : Nat) : Bridge :=
  match s.pending.get? id with
  | some p => (s.settle id .rejected).cancelRemote id p
  | none => s

def writeFails (s : Bridge) (id : Nat) : Bridge := if (s.pending.get? id).isSome then s.settle id .rejected else s

def retireChild (s : Bridge) (c : Nat) : Bridge :=
  if (s.retiringChildren.get? c).isSome then s
  else { s.kill c with retiringChildren := s.retiringChildren.set c .terminate }

def handleExit (s : Bridge) (c : Nat) : Bridge := if s.child = some c then { s with child := none }.rejectPending else s

/-- `exit` and `error`. -/
def lose (s : Bridge) (c : Nat) : Bridge :=
  if s.child = some c then (s.update c fun x => { x with lost := true }).handleExit c else s

def failProtocol (s : Bridge) (c : Nat) : Bridge :=
  if s.child = some c then { (s.retireChild c).handleExit c with stdoutBuffer := [] } else s

end Bridge

/-- What `handleLine` makes of a line. -/
inductive Reading
  | failed
  | event (frame : Json)
  | response (id : String) (ok : Bool)

def isString : Json → Bool
  | .str _ => true
  | _ => false

/-- `parse` is `JSON.parse`. -/
def readLine (parse : Text → Option Json) (line : Text) : Reading :=
  match parse line with
  | none => .failed
  | some frame =>
    if !frame.isObj then .failed
    else if frame.field "type" = .str "event" then
      if (frame.field "event").isObj && isString ((frame.field "event").field "type") then .event frame else .failed
    else
      match frame.field "type", frame.field "id", frame.field "ok" with
      | .str kind, .str id, .bool ok =>
        let error := frame.field "error"
        if kind ≠ "response" ||
            (!ok && !(error.isObj && isString (error.field "code") && isString (error.field "message"))) then .failed
        else .response id ok
      | _, _, _ => .failed

namespace Bridge

variable (parse : Text → Option Json)

def pendingId (s : Bridge) (id : String) : Option Nat := s.pending.keys.find? fun n => requestId n = id

def handleLine (s : Bridge) (c : Nat) (line : Text) : Bridge :=
  match readLine parse line with
  | .failed => s.failProtocol c
  | .event frame => { s with emitted := s.emitted ++ [(c, frame)] }
  | .response id ok =>
    match s.pendingId id with
    | some n => s.settle n (if ok then .result c else .rejected)
    | none => s

def handleRaw (s : Bridge) (c : Nat) (raw rest : Text) : Bridge :=
  let s := { s with stdoutBuffer := rest, handled := s.handled ++ [(c, raw)] }
  if byteLength raw > MAX_LINE_BYTES then s.failProtocol c
  else if trim raw = [] then s
  else s.handleLine parse c (trim raw)

end Bridge

def splitLines : Text → List Text × Text
  | [] => ([], [])
  | ch :: text =>
    let (lines, rest) := splitLines text
    if ch = '\n' then ([] :: lines, rest)
    else
      match lines with
      | line :: lines => ((ch :: line) :: lines, rest)
      | [] => ([], ch :: rest)

def joinLines (lines : List Text) (rest : Text) : Text := lines.flatMap (· ++ ['\n']) ++ rest

namespace Bridge

variable (parse : Text → Option Json)

/-- The loop of `handleStdout`. -/
def handleLines (s : Bridge) (c : Nat) : List Text → Text → Bridge
  | [], rest => if byteLength rest > MAX_LINE_BYTES then s.failProtocol c else s
  | raw :: lines, rest =>
    let s := s.handleRaw parse c raw (joinLines lines rest)
    if s.child = some c then handleLines s c lines rest else s

def handleStdout (s : Bridge) (c : Nat) (chunk : Text) : Bridge :=
  if s.child = some c then
    let buffer := s.stdoutBuffer ++ chunk
    { s with stdoutBuffer := buffer, received := Function.update s.received c (s.received c ++ chunk) }.handleLines parse c
      (splitLines buffer).1 (splitLines buffer).2
  else s

end Bridge

namespace Bridge

def openChildren (s : Bridge) : List Nat :=
  (List.range s.children.length).filter fun c => !(s.get c).closed && !(s.get c).givenUp

def spawn (s : Bridge) : Bridge :=
  { s with
    spawned := s.spawned ++ [(s.stopPromise.isSome, s.openChildren)]
    stdoutBuffer := []
    children := s.children ++ [({} : Child)]
    child := some s.children.length }

/-- The rest of `startChild`, once nothing is to be awaited. -/
def launch (s : Bridge) : Bridge :=
  if s.running || !s.available then { s with startPromise := some .settled }
  else
    let r := s.spawn.request .handshake .written
    { r.1 with startPromise := some (match r.2 with
      | some id => .handshake s.children.length id
      | none => .settled) }

/-- `startChild`, from its look at `retiringChildren`. -/
def startRetired (s : Bridge) : Bridge :=
  if s.retiringChildren.keys ≠ [] then { s with startPromise := some (.retiring ⟨s.retiringChildren.keys, false⟩) }
  else s.launch

def start (s : Bridge) : Bridge :=
  if s.startPromise.isSome then s
  else if s.stopPromise.isSome then { s with startPromise := some (.stop none) }
  else s.startRetired

/-- `startStop`. -/
def stop (s : Bridge) (immediate : Bool) : Bridge :=
  if s.stopPromise.isSome then s
  else
    match s.child with
    | none =>
      let s := if immediate then s.rejectPending else s
      { s with stopPromise := some (.retiring ⟨s.retiringChildren.keys, false⟩) }
    | some c =>
      if immediate then { s.rejectPending.kill c with stopPromise := some (.terminate c) }
      else
        let r := s.request .shutdown .written
        { r.1 with stopPromise := some (match r.2 with
          | some id => .shutdown c id
          | none => .grace c) }

def resumeStart (s : Bridge) : Option Bridge :=
  match s.startPromise with
  | some (.stop (some failed)) => some (if failed then { s with startPromise := some .settled } else s.startRetired)
  | some (.retiring j) =>
    if j.failed then some { s with startPromise := some .settled }
    else if j.waiting = [] then some s.launch
    else none
  | some (.handshake c id) =>
    if (s.pending.get? id).isSome then none
    else if s.settled.contains (id, .result c) then some { s with startPromise := some .settled }
    else if s.child = some c then some { s.stop true with startPromise := some (.hardStop none) }
    else some { s.retireChild c with startPromise := some (.retire ⟨[c], false⟩) }
  | some (.hardStop (some _)) => some { s with startPromise := some .settled }
  | some (.retire j) =>
    if j.failed ∨ j.waiting = [] then some { s with startPromise := some .settled } else none
  | _ => none

def finishStop (s : Bridge) (c : Nat) : Bridge :=
  { s with
    child := if s.child = some c then none else s.child
    stopPromise := some (.settled false) }

def resumeStop (s : Bridge) : Option Bridge :=
  match s.stopPromise with
  | some (.retiring j) =>
    if j.failed ∨ j.waiting = [] then some { s with stopPromise := some (.settled j.failed) } else none
  | some (.shutdown c id) =>
    if (s.pending.get? id).isSome then none else some { s with stopPromise := some (.grace c) }
  | some (.grace c) | some (.terminate c) | some (.force c) => if (s.get c).closed then some (s.finishStop c) else none
  | _ => none

def expireStop (s : Bridge) : Option Bridge :=
  match s.stopPromise with
  | some (.grace c) => if (s.get c).closed then none else some { s.kill c with stopPromise := some (.terminate c) }
  | some (.terminate c) => if (s.get c).closed then none else some { s.kill c with stopPromise := some (.force c) }
  | some (.force c) =>
    if (s.get c).closed then none
    else some { s.update c (fun x => { x with givenUp := true }) with stopPromise := some (.settled true) }
  | _ => none

/-- The handler that clears `stopPromise`, before whoever awaits it. -/
def clearStop (s : Bridge) : Option Bridge :=
  match s.stopPromise with
  | some (.settled failed) => some { s with
      stopPromise := none
      startPromise := s.startPromise.map fun stage => match stage with
        | .stop none => .stop (some failed)
        | .hardStop none => .hardStop (some failed)
        | stage => stage }
  | _ => none

def resumeRetire (s : Bridge) (c : Nat) : Option Bridge :=
  match s.retiringChildren.get? c with
  | some .terminate | some .force =>
    if (s.get c).closed then some { s with retiringChildren := s.retiringChildren.set c (.settled false) } else none
  | _ => none

def expireRetire (s : Bridge) (c : Nat) : Option Bridge :=
  match s.retiringChildren.get? c with
  | some .terminate =>
    if (s.get c).closed then none
    else some { s.kill c with retiringChildren := s.retiringChildren.set c .force }
  | some .force =>
    if (s.get c).closed then none
    else some { s.update c (fun x => { x with givenUp := true }) with
      retiringChildren := s.retiringChildren.set c (.settled true) }
  | _ => none

def Join.leave (j : Join) (c : Nat) (failed : Bool) : Join :=
  if c ∈ j.waiting then ⟨j.waiting.filter (· ≠ c), j.failed || failed⟩ else j

def clearRetire (s : Bridge) (c : Nat) : Option Bridge :=
  match s.retiringChildren.get? c with
  | some (.settled failed) => some { s with
      retiringChildren := s.retiringChildren.erase c
      startPromise := s.startPromise.map fun stage => match stage with
        | .retiring j => .retiring (Join.leave j c failed)
        | .retire j => .retire (Join.leave j c failed)
        | stage => stage
      stopPromise := s.stopPromise.map fun stage => match stage with
        | .retiring j => .retiring (Join.leave j c failed)
        | stage => stage }
  | _ => none

end Bridge

inductive Event
  | start
  | stop (immediate : Bool)
  /-- A call from outside; `providerControl` takes a number for its `call_id` first. -/
  | requests (kind : Kind) (numbered : Bool) (dispatch : Bridge.Dispatch)
  | expires (id : Nat)
  | writeFails (id : Nat)
  -- of a process
  | stdout (c : Nat) (chunk : Text)
  | stdinError (c : Nat)
  | error (c : Nat)
  | gone (c : Nat)
  | exit (c : Nat)
  | close (c : Nat)
  -- operations
  | startResumes
  | startClears
  | stopResumes
  | stopExpires
  | stopClears
  | retireResumes (c : Nat)
  | retireExpires (c : Nat)
  | retireClears (c : Nat)

namespace Bridge

variable (parse : Text → Option Json)

/-- One turn; a process closes after its `exit` or its `error`. -/
def next (s : Bridge) : Event → Option Bridge
  | .start => some s.start
  | .stop immediate => some (s.stop immediate)
  | .requests kind numbered dispatch =>
    if kind = .call ∨ kind = .control then
      let s := if numbered then { s with requestSequence := s.requestSequence + 1 } else s
      some (s.request kind dispatch).1
    else none
  | .expires id => if (s.pending.get? id).isSome then some (s.expire id) else none
  | .writeFails id => some (s.writeFails id)
  | .stdout c chunk => some (s.handleStdout parse c chunk)
  | .stdinError c => some (if s.child = some c then (s.retireChild c).handleExit c else s)
  | .error c => some ((s.update c fun x => { x with errored := true }).lose c)
  | .gone c => some (s.update c fun x => { x with gone := true })
  | .exit c => some ((s.update c fun x => { x with exited := true }).lose c)
  | .close c =>
    if (s.get c).exited || (s.get c).errored then some (s.update c fun x => { x with closed := true }) else none
  | .startResumes => s.resumeStart
  | .startClears => if s.startPromise = some .settled then some { s with startPromise := none } else none
  | .stopResumes => s.resumeStop
  | .stopExpires => s.expireStop
  | .stopClears => s.clearStop
  | .retireResumes c => s.resumeRetire c
  | .retireExpires c => s.expireRetire c
  | .retireClears c => s.clearRetire c

end Bridge

end OpenAgent.Desktop.Host
