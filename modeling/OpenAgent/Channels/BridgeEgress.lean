import OpenAgent.Lib.Runs

namespace OpenAgent.Channels.Egress

/-- The methods that `__init_subclass__` guards. -/
inductive Primitive where
  | sendTextChunk
  | sendAttachment
  | postStatus
  | updateStatus
  | clearStatus
  | streamText
  | sendChoiceButtons
  | renderPicker
  | postCompactionNotice
  | resolveCompactionNotice
  | ackFollower
  deriving DecidableEq

/-- Where a turn is: at the host, with the generation it has read; admitted, and how many stops there had been; refused. -/
inductive Turn where
  | entering (generation : Nat)
  | admitted (stops : Nat)
  | refused
  deriving DecidableEq

/-- Where `_prepare_delivery_context` waits: for the host, for `_delivery_context`, for the host on what it gave, for
`authorize_delivery`. -/
inductive Stage where
  | admission
  | refreshing
  | recheck
  | granting
  | begun
  | raised
  deriving DecidableEq

/-- A guarded call: the generation that `_prepare_delivery_context` has read, the one that the `authorize_context` in it
has read, and the stops before the admission of its turn. -/
structure Check where
  turn : Nat
  primitive : Primitive
  admitted : Nat
  generation : Nat
  inner : Nat
  stage : Stage := .admission
  deriving DecidableEq

/-- A guarded method that has begun, and how many stops there had been then. -/
structure Delivery where
  turn : Nat
  primitive : Primitive
  admitted : Nat
  stops : Nat
  deriving DecidableEq

/-- A bridge. `policy` says that its transport has `authorize_delivery`; `stops` counts how often `_should_stop` was set. -/
structure Bridge where
  policy : Bool
  shouldStop : Bool := false
  generation : Nat := 0
  starting : Bool := false
  turns : List Turn := []
  checks : List Check := []
  stops : Nat := 0
  deliveries : List Delivery := []
  deriving DecidableEq

/-- `stopSubclass` is the first statement of the `stop` of a subclass such as `SlackBridge`, which calls the one of
`BaseBridge` later. -/
inductive Event where
  | start
  | ended
  | stopSubclass
  | stop
  | enter
  | admission (turn : Nat) (ok : Bool)
  | call (turn : Nat) (primitive : Primitive)
  | answer (check : Nat) (ok : Bool)
  deriving DecidableEq

namespace Stage

def waits (stage : Stage) : Bool :=
  match stage with
  | admission | refreshing | recheck | granting => true
  | begun | raised => false

end Stage

namespace Bridge

variable (bridge : Bridge)

/-- `self._should_stop or generation != self._generation`. -/
def changed (generation : Nat) : Bool := bridge.shouldStop || generation != bridge.generation

/-- `stop` of `BaseBridge`, up to its first `await`. -/
def stop : Bridge :=
  { bridge with
    generation := if bridge.shouldStop then bridge.generation else bridge.generation + 1
    shouldStop := true
    stops := bridge.stops + 1 }

/-- The first statement of `stop` of `SlackBridge`. -/
def stopSubclass : Bridge := { bridge with shouldStop := true, stops := bridge.stops + 1 }

/-- `start`, up to its first `await`: nothing while an earlier one runs. -/
def start : Bridge := if bridge.starting then bridge else { bridge with starting := true, shouldStop := false }

/-- `authorize_context` of a turn that begins, up to the call of the host. -/
def enter : Bridge :=
  { bridge with turns := bridge.turns ++ [if bridge.shouldStop then .refused else .entering bridge.generation] }

def admitTurn (turn : Nat) (ok : Bool) : Option Bridge :=
  match bridge.turns[turn]? with
  | some (.entering generation) =>
    let admitted := ok && !bridge.changed generation
    some { bridge with turns := bridge.turns.set turn (if admitted then .admitted bridge.stops else .refused) }
  | some (.admitted _) | some .refused | none => none

/-- A guarded method is called: `_authorize_outbound` up to the first call of the host. -/
def call (turn : Nat) (primitive : Primitive) : Option Bridge :=
  match bridge.turns[turn]? with
  | some (.admitted stops) =>
    let stage : Stage := if bridge.shouldStop then .raised else .admission
    some { bridge with checks := bridge.checks ++
      [{ turn := turn, primitive := primitive, admitted := stops, generation := bridge.generation,
         inner := bridge.generation, stage := stage }] }
  | some (.entering _) | some .refused | none => none

def setCheck (k : Nat) (check : Check) : Bridge := { bridge with checks := bridge.checks.set k check }

def raise (k : Nat) (check : Check) : Bridge := bridge.setCheck k { check with stage := .raised }

/-- `_prepare_delivery_context` has returned, and the method begins. -/
def begin (k : Nat) (check : Check) : Bridge :=
  { bridge.setCheck k { check with stage := .begun } with
    deliveries := bridge.deliveries ++
      [{ turn := check.turn, primitive := check.primitive, admitted := check.admitted, stops := bridge.stops }] }

/-- What a guarded call does with an answer; `ok` is what the host or the provider says, and that the context resolves. -/
def advance (k : Nat) (check : Check) (ok : Bool) : Option Bridge :=
  match check.stage with
  | .admission =>
    -- `authorize_context` looks at its own generation, `_authorize_generation` at the caller's
    some (if ok && !bridge.changed check.inner && check.generation == bridge.generation then
      bridge.setCheck k { check with stage := .refreshing }
    else bridge.raise k check)
  | .refreshing =>
    some (if ok && !bridge.changed check.generation then
      bridge.setCheck k { check with stage := .recheck, inner := bridge.generation }
    else bridge.raise k check)
  | .recheck =>
    some (if ok && !bridge.changed check.inner && check.generation == bridge.generation then
      (if bridge.policy then bridge.setCheck k { check with stage := .granting } else bridge.begin k check)
    else bridge.raise k check)
  | .granting =>
    some (if ok && !bridge.changed check.generation then bridge.begin k check else bridge.raise k check)
  | .begun | .raised => none

def next (bridge : Bridge) (e : Event) : Option Bridge :=
  match e with
  | .start => some bridge.start
  | .ended => some { bridge with starting := false }
  | .stopSubclass => some bridge.stopSubclass
  | .stop => some bridge.stop
  | .enter => some bridge.enter
  | .admission turn ok => bridge.admitTurn turn ok
  | .call turn primitive => bridge.call turn primitive
  | .answer k ok => bridge.checks[k]?.bind (fun check => bridge.advance k check ok)

end Bridge

end OpenAgent.Channels.Egress
