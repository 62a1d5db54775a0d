import Mathlib.Logic.Function.Basic
import OpenAgent.Lib.Runs

namespace OpenAgent.Channels.Replies

inductive Body
  | status
  | sessionCompacted
  | event (text : String)
  | error (text : String)
  | turnComplete
  deriving DecidableEq

/-- A frame, with the turn that the gateway emitted it for, which is not on the wire. -/
structure Frame where
  turn : Nat
  body : Body
  deriving DecidableEq

/-- Status and compaction frames go to callbacks, what is left to `fold_outbound_event`. -/
def Frame.folds (f : Frame) : Bool := f.body ≠ .status && f.body ≠ .sessionCompacted

/-- `fold_outbound_event` of the core returns `True`. -/
def Frame.ends (f : Frame) : Bool :=
  match f.body with
  | .error _ | .turnComplete => true
  | _ => false

/-- `to_legacy_reply` is a function of what was folded and of the target. -/
structure StreamCollector where
  folded : List Frame := []
  latestTarget : Option String := none
  done : Bool := false
  deriving DecidableEq

/-- Where a call stands. A frame is on the wire once its send was called; `send_json` may go on to wait for the buffer. -/
inductive Stage
  | opens
  | sends
  | waits
  | duplicate
  | replied (reply : StreamCollector)
  | cancelled
  deriving DecidableEq

structure Call where
  target : Option String
  stage : Stage := .opens
  collector : Option Nat := none
  isOwner : Bool := false

structure Turn where
  messages : List Nat
  frames : List Frame := []
  completed : Bool := false

/-- What the transport (`_stream_opened`, `_stream_pending`) and the gateway hold for one session. -/
structure Lane where
  opened : Bool := false
  pending : Option Nat := none
  collectors : List StreamCollector := []
  calls : List Call := []
  turns : List Turn := []

namespace Lane

/-- The collector that a call joins, where it is not the owner. -/
def existing (l : Lane) : Option Nat := l.pending.filter fun k => l.collectors[k]?.any fun x => !x.done

def stash (target : Option String) (x : StreamCollector) : StreamCollector :=
  { x with latestTarget := target <|> x.latestTarget }

/-- The ownership check, up to the send of the text. -/
def submit (l : Lane) (c : Nat) (call : Call) : Lane :=
  match l.existing with
  | none =>
    { l with
      pending := some l.collectors.length
      collectors := l.collectors ++ [stash call.target {}]
      calls := l.calls.set c { call with stage := .sends, collector := some l.collectors.length, isOwner := true } }
  | some k =>
    { l with
      collectors := l.collectors.modify k (stash call.target)
      calls := l.calls.set c { call with stage := .sends, collector := some k, isOwner := false } }

/-- The owner leaves its slot, if the slot is still its own. -/
def leave (l : Lane) (k : Nat) : Lane := { l with pending := l.pending.filter (· ≠ k) }

def setStage (l : Lane) (c : Nat) (call : Call) (stage : Stage) : Lane :=
  { l with calls := l.calls.set c { call with stage := stage } }

/-- `collector.done.wait()`, and what follows once it is set. -/
def await (l : Lane) (c : Nat) (call : Call) (k : Nat) : Option Lane :=
  match l.collectors[k]? with
  | some x => if x.done then some ((l.setStage c call (.replied x)).leave k) else some (l.setStage c call .waits)
  | none => none

def sent (l : Lane) (c : Nat) : Option Lane :=
  match l.calls[c]? with
  | some call =>
    match call.stage, call.collector with
    | .sends, some k => if call.isOwner then l.await c call k else some (l.setStage c call .duplicate)
    | .waits, some k => if l.collectors[k]?.any (·.done) then l.await c call k else none
    | _, _ => none
  | none => none

def cancel (l : Lane) (c : Nat) : Option Lane :=
  match l.calls[c]? with
  | some call =>
    match call.stage, call.collector with
    | .opens, _ => some (l.setStage c call .cancelled)
    -- `except Exception` does not see a cancellation: the collector stays
    | .sends, _ => some (l.setStage c call .cancelled)
    | .waits, some k => some ((l.setStage c call .cancelled).leave k)
    | _, _ => none
  | none => none

/-- The turn that the gateway has not completed. -/
def current (l : Lane) : Option Turn := l.turns.getLast?.filter fun turn => !turn.completed

def setCurrent (l : Lane) (turn : Turn) : Lane := { l with turns := l.turns.set (l.turns.length - 1) turn }

/-- The gateway takes a text into the current turn, or begins one with it. -/
def receive (l : Lane) (c : Nat) : Lane :=
  match l.current with
  | some turn => l.setCurrent { turn with messages := turn.messages ++ [c] }
  | none =>
    { l with turns := l.turns ++ [{ messages := [c] }] }

def emit (l : Lane) (f : Frame) : Option Lane :=
  l.current.map fun turn =>
    l.setCurrent { turn with frames := turn.frames ++ [f], completed := f.body = .turnComplete }

/-- `_handle_gateway_frame`: what is folded goes to the collector that is pending. -/
def handle (l : Lane) (f : Frame) : Lane :=
  match l.pending with
  | some k =>
    if f.folds then
      { l with collectors := l.collectors.modify k fun x =>
        { x with folded := x.folded ++ [f], done := x.done || f.ends } }
    else l
  | none => l

end Lane

/-- The lanes, the texts on their way to the gateway and the frames on their way back. -/
structure Transport where
  lanes : String → Lane := fun _ => {}
  uplink : List (String × Nat) := []
  downlink : List (String × Frame) := []

inductive Event
  /-- A call of `_legacy_send_message` begins. -/
  | begins (session : String) (target : Option String)
  /-- `SessionOpen` was sent. -/
  | opened (session : String) (c : Nat)
  /-- A call goes on after its send, or once its collector is done. -/
  | resumes (session : String) (c : Nat)
  | cancels (session : String) (c : Nat)
  | receives
  | emits (session : String) (body : Body)
  | handles

namespace Transport

def put (s : Transport) (session : String) (l : Lane) : Transport :=
  { s with lanes := Function.update s.lanes session l }

def submit (s : Transport) (session : String) (l : Lane) (c : Nat) (call : Call) : Transport :=
  { s.put session (l.submit c call) with uplink := s.uplink ++ [(session, c)] }

def next (s : Transport) : Event → Option Transport
  | .begins session target =>
    let l := s.lanes session
    let l' := { l with calls := l.calls ++ [{ target := target }] }
    some (if l.opened then s.submit session l' l.calls.length { target := target } else s.put session l')
  | .opened session c =>
    let l := s.lanes session
    match l.calls[c]? with
    | some call => if call.stage = .opens then some (s.submit session { l with opened := true } c call) else none
    | none => none
  | .resumes session c => ((s.lanes session).sent c).map (s.put session)
  | .cancels session c => ((s.lanes session).cancel c).map (s.put session)
  | .receives =>
    match s.uplink with
    | (session, c) :: rest => some { s.put session ((s.lanes session).receive c) with uplink := rest }
    | [] => none
  | .emits session body =>
    let l := s.lanes session
    let f := ⟨l.turns.length - 1, body⟩
    (l.emit f).map fun l' => { s.put session l' with downlink := s.downlink ++ [(session, f)] }
  | .handles =>
    match s.downlink with
    | (session, f) :: rest => some { s.put session ((s.lanes session).handle f) with downlink := rest }
    | [] => none

end Transport

end OpenAgent.Channels.Replies
