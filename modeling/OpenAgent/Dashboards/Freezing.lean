import OpenAgent.Dashboards.LiveData
import OpenAgent.Lib.Jobs

namespace OpenAgent.Dashboards

open Py

inductive FreezeTodo
  -- `_flush_checkpoint`
  | flushAll
  | flush (k : SourceKey)
  | waits (n : Nat)
  -- the repository, to its commit and to its return
  | freezesInline
  | frozeInline (views : List String)
  | setsFrozen (view : String)
  | readsFrozen (view : String)
  -- `stop_view` and `stop_source`
  | stopView (view : String)
  | stopSource (k : SourceKey)
  | joins (t : Nat)
  -- `notify_view_changed`
  | fans (view : String)
  | staleLive (view : String)

def FreezeTodo.awaits : FreezeTodo → Bool
  | .waits _ | .freezesInline | .frozeInline _ | .setsFrozen _ | .readsFrozen _ | .joins _ | .fans _ => true
  | _ => false

inductive FreezeAnswer
  | returned
  | froze (views : List String) (now : Int)
  | set (now : Int)

structure FreezeState where
  data : LiveRuntime := {}
  /-- `ui_views.frozen`. -/
  frozen : String → Bool := fun _ => false
  frozenHere : String → Bool := fun _ => false
  sourceTasks : Jobs SourceKey Unit := {}
  routines : List (List FreezeTodo) := []
  running : Option Nat := none

def Datum.freeze (d : Datum) : Datum := if d.status.fresh then { d with status := .stale } else d

def Datum.freezeRow (d : Datum) (now : Int) : Datum :=
  if d.status.fresh then { d with status := .stale, updatedAt := now } else d

def Datum.thawRow (d : Datum) (now : Int) : Datum :=
  if d.status = .stale then { d with status := statusOf d.value, updatedAt := now } else d

namespace FreezeState

def mapRows (s : FreezeState) (views : List String) (f : Datum → Datum) : FreezeState :=
  { s with data := { s.data with
      stored := s.data.stored.mapEntries (fun k d => if views.contains k.1 then f d else d) } }

/-- The transactions of `freeze_inactive_inline` and of `set_frozen`. -/
def freezeViews (s : FreezeState) (views : List String) (now : Int) : FreezeState :=
  { s.mapRows views (fun d => d.freezeRow now) with
    frozen := fun view => views.contains view || s.frozen view
    frozenHere := fun view => views.contains view || s.frozenHere view }

/-- `set_frozen` with `False`, and the branch of `reactivate` for inline views. -/
def thawView (s : FreezeState) (view : String) (now : Int) : FreezeState :=
  { s.mapRows [view] (fun d => d.thawRow now) with
    frozen := fun v => if v = view then false else s.frozen v
    frozenHere := fun v => if v = view then false else s.frozenHere v }

def staleLive (s : FreezeState) (view : String) : FreezeState :=
  let freeze := fun (k : SourceKey) (d : Datum) => if k.1 = view then d.freeze else d
  { s with data := { s.data with
      live := s.data.live.mapEntries freeze
      pending := s.data.pending.mapEntries freeze
      stages := s.data.stages.map (fun x => match x with
        | .fans f =>
          .fans { f with data := f.data.map (fun e =>
            if s.data.live.get? (f.view, e.1) = some e.2 then (e.1, freeze (f.view, e.1) e.2) else e) }
        | x => x) } }

def perform (s : FreezeState) : FreezeTodo → FreezeAnswer → Option (FreezeState × List FreezeTodo)
  | .flushAll, .returned => some (s, s.data.pending.keys.map .flush)
  | .flush k, .returned =>
    some ({ s with data := s.data.call (.locks k .flush) }, [.waits s.data.stages.length])
  | .waits n, .returned =>
    match s.data.stages[n]? with
    | some .done => some (s, [])
    | _ => none
  | .freezesInline, .froze views now =>
    if views.any s.frozen then none
    else some (s.freezeViews views now, [.frozeInline views])
  | .frozeInline views, .returned =>
    some (s, views.flatMap (fun v => [.stopView v, .stopView v, .staleLive v, .fans v]))
  | .setsFrozen view, .set now => some (s.freezeViews [view] now, [.readsFrozen view])
  | .readsFrozen view, .returned => some (s, [.stopView view, .staleLive view, .fans view])
  | .stopView view, .returned =>
    some (s, (s.sourceTasks.slot.keys.filter (fun k => k.1 = view)).map .stopSource)
  | .stopSource k, .returned =>
    match s.sourceTasks.slot.get? k with
    | some t => some ({ s with sourceTasks := s.sourceTasks.take k }, [.joins t, .flush k, .fans k.1])
    | none => some (s, [.flush k, .fans k.1])
  | .joins t, .returned => if (s.sourceTasks.jobs[t]?).all Job.finished then some (s, []) else none
  | .fans _, .returned => some (s, [])
  | .staleLive view, .returned => some (s.staleLive view, [])
  | _, _ => none

def place (s : FreezeState) (n : Nat) (todo : List FreezeTodo) : FreezeState :=
  { s with
    routines := s.routines.set n todo
    running := if (todo.head?).any (fun x => !x.awaits) then some n else none }

def ticking (s : FreezeState) (k : SourceKey) : Bool := s.sourceTasks.jobs.any (fun x => x.key = k && !x.finished)

/-- Whether the live data may do this now: a source ticks from its tasks, and `set_data` refuses a frozen view. -/
def allows (s : FreezeState) : LiveEvent → Bool
  | .publishes k _ => s.ticking k
  | .writes n _ =>
    match s.data.stages[n]? with
    | some (.writes k _) => !s.frozen k.1
    | _ => true
  | _ => true

end FreezeState

inductive FreezeEvent
  | data (e : LiveEvent)
  /-- `start_source` records its task. -/
  | launches (k : SourceKey)
  | finishes (t : Nat)
  | reports (t : Nat)
  | freezeInactive
  /-- `stops` where the service was started. -/
  | setFrozen (view : String) (stops : Bool)
  | thaws (view : String) (now : Int)
  | resumes (n : Nat) (answer : FreezeAnswer)
  | raises (n : Nat)

open FreezeState in
def freezeNext (s : FreezeState) : FreezeEvent → Option FreezeState
  | .data e =>
    if s.running.isNone && s.allows e then (liveNext s.data e).map (fun data => { s with data }) else none
  | .launches k => if s.running.isNone then some { s with sourceTasks := s.sourceTasks.launch k () } else none
  | .finishes t => if s.running.isNone then some { s with sourceTasks := s.sourceTasks.finish t } else none
  | .reports t =>
    if s.running.isNone && (s.sourceTasks.jobs[t]?).any Job.finished then
      some { s with sourceTasks := s.sourceTasks.report t }
    else none
  | .freezeInactive =>
    if s.running.isNone then
      some (place { s with routines := s.routines ++ [[]] } s.routines.length [.flushAll, .freezesInline])
    else none
  | .setFrozen view stops =>
    if s.running.isNone then
      some (place { s with routines := s.routines ++ [[]] } s.routines.length
        (if stops then [.stopView view, .setsFrozen view] else [.setsFrozen view]))
    else none
  | .thaws view now => if s.running.isNone then some (s.thawView view now) else none
  | .resumes n answer =>
    match s.routines[n]? with
    | some (x :: rest) =>
      if s.running.all (fun m => m = n) then
        (s.perform x answer).map (fun p => p.1.place n (p.2 ++ rest))
      else none
    | _ => none
  | .raises n =>
    match s.routines[n]? with
    | some (x :: _) => if s.running.isNone && x.awaits then some (s.place n []) else none
    | _ => none

end OpenAgent.Dashboards
