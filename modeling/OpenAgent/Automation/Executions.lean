import OpenAgent.Automation.GrantTracking

namespace OpenAgent.Automation.Executions

open Py

/-- A row of `task_runs`. -/
structure TaskRow where
  id : String
  taskId : String
  trigger : String
  status : String
  finishedAt : Option Rat

/-- An execution that was resolved: what `_execute` holds while it waits. -/
structure Execution where
  runId : String
  context : ExecutionContext
  canonical : Definition
  preclaimed : Bool
  submitted : Bool := false

/-- The last three fields are its history: what was claimed, whether the definition was managed in between, and which
delegations it was executed and observed under. -/
structure State where
  db : Database
  taskRuns : List TaskRow := []
  accepted : String → Option Accepted := fun _ => none
  directory : Directory := {}
  now : Rat := 0
  running : List Execution := []
  claims : List String := []
  edited : Bool := false
  observed : List String := []

/-- What a call of `run_task` is made with. -/
structure TaskCall where
  preclaimed : Option String := none
  requestId : Option String := none
  currentRun : Option String := none
  fresh : String

structure Host where
  agentName : String
  uuid5 : String → String

inductive Event where
  | claim (run : String)
  | runTask (call : TaskCall)
  | submit (index : Nat)
  | refuse (index : Nat)
  | observe (index : Nat) (status : Option String) (cleans : Bool)
  | project (run : String) (status : String) (finishedAt : Option Rat)
  | accept (run : String) (request : Accepted)
  | direct (directory : Directory)
  | wait (later : Rat)
  | manage (request : Request)

def TaskCall.occurrence (call : TaskCall) : String :=
  if given call.preclaimed then call.preclaimed.getD ""
  else if given call.requestId then call.requestId.getD ""
  else if given call.currentRun then call.currentRun.getD ""
  else call.fresh

def disable (row : Definition) : Definition := Assoc.set row "enabled" (.int 0)

theorem disable_updates : Table.Updates disable where
  id row := by rw [disable, Assoc.get?_set, if_neg (by decide)]
  enabled row _ := by
    rw [disable, Assoc.get?_set, if_pos rfl]
    rfl

section Steps

variable [Foundations] (host : Host) (name : String)

abbrev State.reads (s : State) : Reads Id where
  grant identifier := s.db.grants.find? fun grant => grant.id = identifier && !grant.revoked
  definition kind identifier := s.db.definition kind identifier
  accepted := s.accepted
  taskRun run task :=
    (s.taskRuns.find? fun row => row.id = run && row.taskId = task && row.trigger = "schedule").map fun row =>
      ⟨row.status, row.finishedAt⟩
  clock := s.now
  principalActive := s.directory.principalActive

def State.resolve (s : State) (definition : Definition) (occurrence sessionId : String) : Except Error ExecutionContext :=
  Automation.resolve (m := Id) s.reads s.db.granted host.agentName .task definition occurrence sessionId

def State.validates (s : State) (context : ExecutionContext) : Bool := validate (m := Id) s.reads context

def claim (s : State) (run : String) : State :=
  let table := (s.db.store.tables .task).update name disable disable_updates
  { s with
    db := { s.db with store := { s.db.store with tables := Function.update s.db.store.tables .task table } }
    taskRuns := s.taskRuns ++ [⟨run, name, "schedule", "running", none⟩]
    claims := run :: s.claims }

def claimable (s : State) (run : String) : Bool :=
  (s.db.definition .task name).any (fun definition => definition.enabled && definition.oneShot) &&
    !(s.taskRuns.any fun row => row.id = run)

/-- `_execute` up to its submission; where it raises, nothing has happened. -/
def begin (s : State) (call : TaskCall) : State :=
  match s.db.definition .task name with
  | none => s
  | some canonical =>
    match s.resolve host canonical call.occurrence ("automation:task:" ++ name ++ ":" ++ call.occurrence) with
    | .error _ => s
    | .ok context =>
      let runId := if given call.preclaimed then call.preclaimed.getD ""
        else host.uuid5 ("task:" ++ name ++ ":" ++ call.occurrence)
      let parent := if given call.currentRun then call.currentRun else context.parentRunId
      { s with running := s.running ++ [⟨runId, { context with parentRunId := parent }, canonical, given call.preclaimed, false⟩] }

def State.projected (s : State) (run status : String) (finishedAt : Option Rat) : State :=
  { s with taskRuns := s.taskRuns.map fun row => if row.id = run then { row with status := status, finishedAt := finishedAt } else row }

/-- `complete_occurrence`: the delegation of the context is revoked, whichever occurrence it is of. -/
def completeOccurrence (db : Database) (context : ExecutionContext) : Database :=
  if given context.delegationId then
    { db with
      grants := db.grants.map fun grant => if some grant.id = context.delegationId then { grant with revoked := true } else grant
      distinct := by
        have hids : (db.grants.map fun grant => if some grant.id = context.delegationId then { grant with revoked := true }
            else grant).map Grant.id = db.grants.map Grant.id := by
          rw [List.map_map]
          refine List.map_congr_left fun grant _ => ?_
          rw [Function.comp_apply]
          split <;> rfl
        rw [hids]
        exact db.distinct }
  else db

/-- The last part of `_execute`; `cleans` says whether the write of the retirement goes through, and an error of it is
logged and dropped. -/
def retire (s : State) (execution : Execution) (cleans : Bool) : State :=
  if execution.canonical.oneShot && cleans then { s with db := completeOccurrence s.db execution.context } else s

def timeOut (s : State) (execution : Execution) (status : Option String) : State :=
  if status = some "timed_out" && execution.runId ≠ "" then s.projected execution.runId "timed_out" (some s.now) else s

def remember (s : State) (execution : Execution) (status : Option String) : State :=
  if execution.preclaimed && execution.canonical.oneShot && status.isSome then
    { s with observed := execution.context.delegationId.toList ++ s.observed }
  else s

def conclude (s : State) (execution : Execution) (status : Option String) (cleans : Bool) : State :=
  remember (retire (timeOut s execution status) execution cleans) execution status

instance (request : Request) (kind : Kind) (name : String) : Decidable (request.Names kind name) :=
  match request with
  | ⟨.approveAuthorization _ _ _, _, _⟩ => inferInstanceAs (Decidable (_ ∧ _))
  | ⟨.captureCurrentAuthorizations _ _, _, _⟩ => inferInstanceAs (Decidable (_ ∧ _))
  | ⟨.mutate _ _, _, _⟩ => inferInstanceAs (Decidable False)
  | ⟨.call _ _ _, _, _⟩ => inferInstanceAs (Decidable False)

def manages (s : State) (request : Request) : State :=
  { s with
    db := (perform s.db request).1
    edited := s.edited || decide (request.Names .task name) ||
      decide (view (perform s.db request).1 .task name ≠ view s.db .task name) }

def next (s : State) (event : Event) : Option State :=
  match event with
  | .claim run => if claimable name s run then some (claim name s run) else none
  | .runTask call =>
    if given call.preclaimed && !(s.claims.contains (call.preclaimed.getD "")) then none else some (begin host name s call)
  | .submit index =>
    match s.running[index]? with
    | some execution =>
      if execution.submitted then none
      else some { s with running := s.running.set index { execution with submitted := true } }
    | none => none
  | .refuse index =>
    match s.running[index]? with
    | some execution => if execution.submitted then none else some { s with running := s.running.eraseIdx index }
    | none => none
  | .observe index status cleans =>
    match s.running[index]? with
    | some execution =>
      if execution.submitted then some (conclude { s with running := s.running.eraseIdx index } execution status cleans)
      else none
    | none => none
  | .project run status finishedAt => some (s.projected run status finishedAt)
  | .accept run request => some { s with accepted := fun other => if other = run then some request else s.accepted other }
  | .direct directory => some { s with directory := directory }
  | .wait later => if s.now ≤ later then some { s with now := later } else none
  | .manage request => some (manages name s request)

end Steps

end OpenAgent.Automation.Executions
