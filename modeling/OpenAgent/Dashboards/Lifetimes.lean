import OpenAgent.Dashboards.LiveData

namespace OpenAgent.Dashboards

open Py

/-- What a producer publishes: `_publish_source_value` or `_publish_error`. -/
inductive Tick
  | value (w : Write)
  | error (code : String)

def Tick.publication (generation : Nat) : Tick → Publication
  | .value w => .value generation w
  | .error code => .error generation code

inductive Inside
  /-- `data_state_for_runtime`, as there is no live datum. -/
  | loads (p : Publication)
  /-- `checkpoint_data`, before a commit or alone. -/
  | flushes (d : Datum) (commit : Option Commit)
  /-- `set_data`, to its commit. -/
  | writes (c : Commit)
  /-- `set_data`, to its return. -/
  | written (row : Datum)

/-- `start_source` at an await: `source_runtime_record`, and `data_state_for_runtime` before and after its read. -/
inductive Starting
  | finds
  | reads
  | read (persisted : Nat)
  | done

structure Producer where
  generation : Nat
  finished : Bool := false

structure Course where
  live : Option Datum := none
  /-- `_generation.get(task_key, 0)`. -/
  generation : Nat := 0
  pending : Option Datum := none
  inside : Option Inside := none
  starts : List Starting := []
  producers : List Producer := []
  /-- `_source_tasks.get(task_key)`. -/
  recorded : Option Nat := none
  /-- The row of `ui_data_state`. -/
  stored : Option Datum := none
  /-- What `_emit_data` was called with, in all lifetimes. -/
  emitted : List Datum := []

namespace Course

def producing (s : Course) : Bool := s.recorded.any fun t => s.producers[t]?.any fun p => !p.finished

def publish (s : Course) (d : Datum) : Course := { s with live := some d, inside := none, emitted := s.emitted ++ [d] }

/-- `_publish_source_value` and `_publish_error` over the datum that they found. -/
def publishOver (s : Course) (p : Publication) (base : Option Datum) (now : Int) : Course :=
  match p.datum base now with
  | some d => { s with pending := some d }.publish d
  | none => { s with inside := none }

/-- `_flush_checkpoint_locked`, to its write. -/
def flush (s : Course) (commit : Option Commit) : Course :=
  match s.pending with
  | some d => { s with pending := none, inside := some (.flushes d commit) }
  | none => { s with inside := commit.map .writes }

/-- `self._generation[task_key] = max(...)`. -/
def noteGeneration (s : Course) (generation : Nat) : Course := { s with generation := max s.generation generation }

def ended (s : Course) : Course where
  stored := s.stored
  emitted := s.emitted

end Course

inductive CourseEvent
  -- `start_source`
  | starts
  | finds (n : Nat) (launches : Bool)
  | reads (n : Nat)
  | launches (n : Nat)
  /-- `stop_source` takes the task off the record. -/
  | stops
  | ends (t : Nat)
  -- a producer, a commit or a checkpoint takes the lock
  | publishes (t : Nat) (tick : Tick) (now : Int)
  | commits (c : Commit)
  | checkpoints
  -- what is under the lock goes on
  | loads (now : Int)
  | writes (now : Int)
  | returns
  | raises
  /-- `notify_committed_data`. -/
  | notifies (item : Datum)
  | crashes
  /-- The process ends after `close`: no checkpoint is pending and nothing is under way. -/
  | closes

namespace Course

def next (s : Course) : CourseEvent → Option Course
  | .starts => some (if s.producing then s else { s with starts := s.starts ++ [.finds] })
  | .finds n launches =>
    match s.starts[n]? with
    | some .finds => some { s with starts := s.starts.set n (if launches then .reads else .done) }
    | _ => none
  | .reads n =>
    match s.starts[n]? with
    | some .reads => some { s with starts := s.starts.set n (.read ((s.stored.map Datum.generation).getD 0)) }
    | _ => none
  | .launches n =>
    match s.starts[n]? with
    | some (.read persisted) =>
      let generation := max s.generation persisted + 1
      some { s with
        starts := s.starts.set n .done
        generation
        producers := s.producers ++ [⟨generation, false⟩]
        recorded := some s.producers.length }
    | _ => none
  | .stops => some { s with recorded := none }
  | .ends t =>
    some { s with
      producers := s.producers.modify t fun p => { p with finished := true }
      recorded := if s.recorded = some t then none else s.recorded }
  | .publishes t tick now =>
    match s.producers[t]?, s.inside with
    | some ⟨generation, false⟩, none =>
      match s.live with
      | some c => some (s.publishOver (tick.publication generation) (some c) now)
      | none => some { s with inside := some (.loads (tick.publication generation)) }
    | _, _ => none
  | .commits c => if s.inside.isSome then none else some (s.flush (some c))
  | .checkpoints => if s.inside.isSome then none else some (s.flush none)
  | .loads now =>
    match s.inside with
    | some (.loads p) => some (s.publishOver p s.stored now)
    | _ => none
  | .writes now =>
    match s.inside with
    | some (.flushes d commit) =>
      some { s with stored := some (checkpointRow s.stored d now), inside := commit.map .writes }
    | some (.writes c) =>
      (c.row s.stored now).map fun row => { s with stored := some row, inside := some (.written row) }
    | _ => none
  | .returns =>
    match s.inside with
    | some (.written row) => some ({ s with pending := none }.publish row |>.noteGeneration row.generation)
    | _ => none
  | .raises => if s.inside.isSome then some { s with inside := none } else none
  | .notifies item =>
    if s.inside.isSome then none
    else some ({ s with pending := none }.publish item |>.noteGeneration item.generation)
  | .crashes => some s.ended
  | .closes => if s.inside.isSome || s.pending.isSome then none else some s.ended

end Course

end OpenAgent.Dashboards
