import OpenAgent.Dashboards.Subscriptions
import OpenAgent.Lib.Jobs
import OpenAgent.Lib.Runs

namespace OpenAgent.Dashboards

open Py

inductive Activation
  | whileVisible
  | always
  | manual
deriving DecidableEq

structure SourceRecord where
  enabled : Bool
  activation : Activation
  expiresAt : Option Int

structure ViewRecord where
  revision : Nat
  latestRevision : Nat
  active : Bool
  frozen : Bool
  expiresAt : Option Int
  sources : List (String × SourceRecord)

/-- The arguments of `_run_source`. -/
structure SourceRun where
  generation : Nat
  once : Bool

/-- What a coroutine has still to do: what it awaits, or the code up to its next await. -/
inductive Todo
  -- `subscribe`
  | readsView (sub : SubscriptionKey) (view : String)
  | sendsSnapshot (sub : SubscriptionKey) (view : String) (record : ViewRecord) (replaces : Bool)
  | touchesViewed (view : String) (record : ViewRecord)
  | dropsGhost (sub : SubscriptionKey)
  | removes (sub : SubscriptionKey)
  | disconnects (ws : Nat)
  -- `start_source`
  | startSource (k : SourceKey) (force : Bool)
  | readsRuntime (k : SourceKey) (force : Bool)
  | readsData (k : SourceKey) (force : Bool)
  -- `stop_source`
  | stopSource (k : SourceKey)
  | joins (t : Nat)
  | flushes (k : SourceKey)
  -- `stop_view`
  | stopView (view : String) (includeAlways : Bool)
  | readsActivation (k : SourceKey)
  -- `refresh_source`
  | checksSource (k : SourceKey)
  -- `reconcile_view`
  | readsInternal (view : String)
  | reconcileSource (k : SourceKey) (activation : Activation)
  -- `_fanout`
  | fanout (view : String)
  | sends (subs : List SubscriptionKey)
  -- `_stop_after_grace`
  | sleepsGrace (view : String)
  | graceOver (view : String)
  -- `start` and `_freeze_loop`
  | freezesInactive
  | viewChanged (view : String) (revision : Nat) (stops : Bool)
  | listsAlways
  | startFreezeLoop
  | sleepsFreeze

def Todo.awaits : Todo → Bool
  | .readsView .. | .sendsSnapshot .. | .touchesViewed .. | .readsRuntime .. | .readsData .. | .joins _ | .flushes _
  | .readsActivation _ | .checksSource _ | .readsInternal _ | .sends _ | .sleepsGrace _ | .freezesInactive
  | .listsAlways | .sleepsFreeze => true
  | _ => false

/-- What an await returns, with the time where the code asks for it. -/
inductive Answer
  | returned
  | sent (ok : Bool)
  | view (record : ViewRecord)
  /-- `none` where the repository raises `CustomViewNotFound`. -/
  | source (found : Option (ViewRecord × SourceRecord)) (now : Int)
  | generation (stored : Option Nat)
  | dead (subs : List SubscriptionKey)
  | sources (keys : List SourceKey)
  | frozen (views : List (String × Nat))

structure Routine where
  todo : List Todo
  cancelled : Bool := false

structure Runtime where
  maxSubscriptionsPerSocket : Nat
  maxSubscriptionsTotal : Nat
  subscriptions : Subscriptions := {}
  latestRevisions : Dict String Nat := Dict.empty
  sourceTasks : Jobs SourceKey SourceRun := {}
  stopGraceTasks : Dict String Nat := Dict.empty
  generation : Dict SourceKey Nat := Dict.empty
  freezeTask : Option Nat := none
  routines : List Routine := []
  running : Option Nat := none

namespace Runtime

def hasProducerSubscription (r : Runtime) (view : String) : Bool :=
  match r.latestRevisions.get? view with
  | some latest => (r.subscriptions.items view).any (fun e => e.2.revision = latest)
  | none => false

def createTask (r : Runtime) (todo : List Todo) : Runtime := { r with routines := r.routines ++ [{ todo }] }

def cancel (r : Runtime) (n : Nat) : Runtime :=
  { r with routines := r.routines.modify n (fun c => { c with cancelled := true }) }

def removeSubscription (r : Runtime) (key : SubscriptionKey) : Runtime :=
  match r.subscriptions.all.get? key with
  | none => r
  | some sub =>
    let indexed := (r.subscriptions.byView.get? sub.viewId).isSome
    let r := { r with subscriptions := r.subscriptions.discard key sub }
    if indexed && !r.hasProducerSubscription sub.viewId && (r.stopGraceTasks.get? sub.viewId).isNone then
      { r.createTask [.sleepsGrace sub.viewId, .graceOver sub.viewId] with
        stopGraceTasks := r.stopGraceTasks.set sub.viewId r.routines.length }
    else r

def disconnect (r : Runtime) (ws : Nat) : Runtime :=
  (r.subscriptions.all.keys.filter (fun key => key.1 = ws)).foldl removeSubscription r

def limitExceeded (r : Runtime) (sub : SubscriptionKey) : Bool :=
  (r.subscriptions.all.get? sub).isNone &&
    (decide ((r.subscriptions.all.keys.filter (fun key => key.1 = sub.1)).length ≥ r.maxSubscriptionsPerSocket) ||
      decide (r.subscriptions.all.size ≥ r.maxSubscriptionsTotal))

/-- `subscribe` once its snapshot is sent. -/
def register (r : Runtime) (sub : SubscriptionKey) (view : String) (record : ViewRecord) (replaces : Bool) : Runtime :=
  let r := if replaces then r.removeSubscription sub else r
  let r := { r with
    subscriptions := r.subscriptions.add sub ⟨view, record.revision⟩
    latestRevisions := r.latestRevisions.set view record.latestRevision }
  if r.hasProducerSubscription view then
    match r.stopGraceTasks.get? view with
    | some n => { r.cancel n with stopGraceTasks := r.stopGraceTasks.erase view }
    | none => r
  else r

def startVisibleSources (view : String) (record : ViewRecord) : List Todo :=
  if !record.active || record.frozen then []
  else (record.sources.filter (fun e => e.2.enabled && e.2.activation = .whileVisible)).map
    (fun e => .startSource (view, e.1) false)

/-- A source is expired at a time by its own `expiresAt`, or the view's where it has none. -/
def expired (record : ViewRecord) (source : SourceRecord) (now : Int) : Bool :=
  let expires := match source.expiresAt with
    | some e => if e = 0 then record.expiresAt else some e
    | none => record.expiresAt
  expires.any (fun e => e ≤ now)

/-- The generation that `start_source` gives its task. -/
def nextGeneration (r : Runtime) (k : SourceKey) (stored : Option Nat) : Nat :=
  max ((r.generation.get? k).getD 0) (stored.getD 0) + 1

/-- The end of `start_source`. -/
def recordTask (r : Runtime) (k : SourceKey) (force : Bool) (stored : Option Nat) : Runtime :=
  { r with
    generation := r.generation.set k (r.nextGeneration k stored)
    sourceTasks := r.sourceTasks.launch k ⟨r.nextGeneration k stored, force⟩ }

/-- Whether `reconcile_view` starts a source. -/
def wanted (r : Runtime) (view : String) (activation : Activation) : Bool :=
  activation = .always || (activation = .whileVisible && r.hasProducerSubscription view)

def setLatestRevision (r : Runtime) (view : String) (revision : Nat) : Runtime :=
  { r with latestRevisions := r.latestRevisions.set view revision }

def perform (r : Runtime) : Todo → Answer → Option (Runtime × List Todo)
  | .readsView sub view, .view record =>
    if r.limitExceeded sub then some (r, [])
    else some (r, [.sendsSnapshot sub view record (r.subscriptions.all.get? sub).isSome])
  | .sendsSnapshot sub view record replaces, .sent ok =>
    if ok then some (r.register sub view record replaces, [.touchesViewed view record, .dropsGhost sub])
    else some (r.disconnect sub.1, [])
  | .touchesViewed view record, .returned =>
    some (r, if record.revision = record.latestRevision then startVisibleSources view record else [])
  | .dropsGhost _, .returned => some (r, [])
  | .removes sub, .returned => some (r.removeSubscription sub, [])
  | .disconnects ws, .returned => some (r.disconnect ws, [])
  | .startSource k force, .returned => some (r, if r.sourceTasks.idle k then [.readsRuntime k force] else [])
  | .readsRuntime k force, .source found now =>
    match found with
    | none => some (r, [])
    | some (record, source) =>
      if !force && (source.activation = .manual ||
          (source.activation = .whileVisible && !r.hasProducerSubscription k.1)) then some (r, [])
      else if expired record source now then some (r, [.fanout k.1])
      else some (r, [.readsData k force])
  | .readsData k force, .generation stored => some (r.recordTask k force stored, [])
  | .stopSource k, .returned =>
    match r.sourceTasks.slot.get? k with
    | some t => some ({ r with sourceTasks := r.sourceTasks.take k }, [.joins t, .flushes k, .fanout k.1])
    | none => some (r, [.flushes k, .fanout k.1])
  | .joins t, .returned =>
    if (r.sourceTasks.jobs[t]?).all Job.finished then some (r, []) else none
  | .flushes _, .returned => some (r, [])
  | .stopView view includeAlways, .returned =>
    let keys := r.sourceTasks.slot.keys.filter (fun k => k.1 = view)
    some (r, keys.map (fun k => if includeAlways then .stopSource k else .readsActivation k))
  | .readsActivation k, .source found _ =>
    some (r, if found.any (fun f => f.2.activation = .always) then [] else [.stopSource k])
  | .checksSource k, .returned => some (r, [.stopSource k, .startSource k true])
  | .readsInternal view, .view record =>
    some (r.setLatestRevision view record.revision, if !record.active || record.frozen then []
      else (record.sources.filter (fun e => e.2.enabled)).map (fun e => .reconcileSource (view, e.1) e.2.activation))
  | .reconcileSource k activation, .returned =>
    some (r, if r.wanted k.1 activation then [.startSource k false] else [])
  | .fanout view, .returned => some (r, [.sends ((r.subscriptions.items view).map Prod.fst)])
  | .sends subs, .dead dead =>
    if dead.all subs.contains then some (dead.foldl removeSubscription r, []) else none
  | .sleepsGrace view, .returned =>
    some (r, if r.hasProducerSubscription view then [] else [.stopView view false])
  | .graceOver view, .returned => some ({ r with stopGraceTasks := r.stopGraceTasks.erase view }, [])
  | .freezesInactive, .frozen views =>
    some (r, views.flatMap (fun v => [.stopView v.1 true, .viewChanged v.1 v.2 true]))
  | .viewChanged view revision stops, .returned =>
    some (r.setLatestRevision view revision, if stops then [.stopView view true, .fanout view] else [.fanout view])
  | .listsAlways, .sources keys => some (r, keys.map (fun k => .startSource k false))
  | .startFreezeLoop, .returned =>
    if r.freezeTask.any (fun n => (r.routines[n]?).any (fun c => !c.todo.isEmpty)) then some (r, [])
    else some ({ r.createTask [.sleepsFreeze] with freezeTask := some r.routines.length }, [])
  | .sleepsFreeze, .returned => some (r, [.freezesInactive, .sleepsFreeze])
  | _, _ => none

def unwind (r : Runtime) : List Todo → Runtime
  | .dropsGhost sub :: rest => (r.removeSubscription sub).unwind rest
  | .graceOver view :: rest => unwind { r with stopGraceTasks := r.stopGraceTasks.erase view } rest
  | _ :: rest => r.unwind rest
  | [] => r

def place (r : Runtime) (n : Nat) (todo : List Todo) : Runtime :=
  { r with
    routines := r.routines.set n { todo }
    running := if (todo.head?).any (fun x => !x.awaits) then some n else none }

def todo (r : Runtime) (n : Nat) : List Todo := ((r.routines[n]?).map Routine.todo).getD []

end Runtime

inductive Operation
  | subscribe (sub : SubscriptionKey) (view : String)
  | unsubscribe (sub : SubscriptionKey)
  | disconnect (ws : Nat)
  | startSource (k : SourceKey) (force : Bool)
  | stopSource (k : SourceKey)
  | refreshSource (k : SourceKey)
  | stopView (view : String) (includeAlways : Bool)
  | reconcileView (view : String)
  /-- `stops` for the actions `deleted` and `frozen`. -/
  | notifyViewChanged (view : String) (revision : Nat) (stops : Bool)
  | start (resumeAlways : Bool)

def Operation.todo : Operation → List Todo
  | .subscribe sub view => [.readsView sub view]
  | .unsubscribe sub => [.removes sub]
  | .disconnect ws => [.disconnects ws]
  | .startSource k force => [.startSource k force]
  | .stopSource k => [.stopSource k]
  | .refreshSource k => [.checksSource k]
  | .stopView view includeAlways => [.stopView view includeAlways]
  | .reconcileView view => [.stopView view true, .readsInternal view]
  | .notifyViewChanged view revision stops => [.viewChanged view revision stops]
  | .start resumeAlways =>
    if resumeAlways then [.freezesInactive, .listsAlways, .startFreezeLoop] else [.freezesInactive, .startFreezeLoop]

inductive RuntimeEvent
  | calls (op : Operation)
  | resumes (n : Nat) (answer : Answer)
  | raises (n : Nat)
  /-- A fan-out of a `_run_source` task has found dead subscriptions. -/
  | fansOut (t : Nat) (dead : List SubscriptionKey)
  | finishes (t : Nat)
  /-- `_source_done`. -/
  | reports (t : Nat)

def runtimeNext (r : Runtime) : RuntimeEvent → Option Runtime
  | .calls op =>
    if r.running.isNone then some ((r.createTask op.todo).place r.routines.length op.todo) else none
  | .resumes n answer =>
    match r.routines[n]? with
    | some ⟨x :: rest, cancelled⟩ =>
      if r.running.all (fun m => m = n) then
        match x with
        -- a cancellation does not come through the `suppress` around the task that is stopped
        | .joins _ => (r.perform x answer).map (fun p => p.1.place n (p.2 ++ rest))
        | _ => if cancelled then none else (r.perform x answer).map (fun p => p.1.place n (p.2 ++ rest))
      else none
    | _ => none
  | .raises n =>
    match r.routines[n]? with
    | some ⟨x :: rest, _⟩ =>
      match x with
      | .joins _ => none
      | _ => if r.running.isNone && x.awaits then some ((r.unwind (x :: rest)).place n []) else none
    | _ => none
  | .fansOut t dead =>
    if r.running.isNone && (r.sourceTasks.jobs[t]?).any (fun x => !x.finished) then
      some (dead.foldl Runtime.removeSubscription r)
    else none
  | .finishes t =>
    if r.running.isNone && (r.sourceTasks.jobs[t]?).any (fun x => !x.finished) then
      some { r with sourceTasks := r.sourceTasks.finish t }
    else none
  | .reports t =>
    if r.running.isNone && (r.sourceTasks.jobs[t]?).any Job.finished then
      some { r with sourceTasks := r.sourceTasks.report t }
    else none

end OpenAgent.Dashboards
