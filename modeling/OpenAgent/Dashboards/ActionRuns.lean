import OpenAgent.Lib.Text

namespace OpenAgent.Dashboards.Actions

open Py

abbrev CallId := Nat
abbrev TaskId := Nat
abbrev RunId := Nat

structure ActionSlot where
  tenantId : String
  viewId : String
  actionId : String
  actionRevision : Nat
  actorPrincipalId : String
  deriving DecidableEq

inductive RunStatus where
  | running
  | completed
  | failed
  deriving DecidableEq

/-- A row of `ui_action_runs`. -/
structure ActionRun where
  id : RunId
  slot : ActionSlot
  idempotencyKey : String
  status : RunStatus := .running
  result : Option String := none
  errorCode : Option String := none
  createdAtMs : Nat
  completedAtMs : Option Nat := none
  deriving DecidableEq

/-- The arguments of `invoke_action`. -/
structure Invocation where
  tenantId : String
  viewId : String
  actionId : String
  principalId : String
  idempotencyKey : String

/-- The arguments of `finish_action_run`. -/
structure Completion where
  runId : RunId
  result : Option String := none
  errorCode : Option String := none
  deriving DecidableEq

/-- Where `finish_action_run` waits. -/
inductive FinishStage where
  | connecting
  | locking (nowMs : Nat)
  | updating
  | committing
  | done
  deriving DecidableEq

inductive Outcome where
  | raised
  | cancelled
  | replayed (run : ActionRun)
  | completed (c : Completion)
  deriving DecidableEq

/-- Where `invoke_action` waits: for the definition, in `begin_action_run`, for the action, in one of its two
`finish_action_run`, or for the shielded one. -/
inductive Stage where
  | defining
  | connecting (revision : Nat)
  | locking (revision : Nat)
  | authorizing (revision : Nat)
  | looking (run : ActionRun) (existing : Option ActionRun)
  | counting (run : ActionRun) (recent running : Nat)
  | inserting (run : ActionRun) (inserted : Bool)
  | rollingBack (run : ActionRun)
  | rereading (existing : Option ActionRun)
  | committing (run : ActionRun)
  | executing (runId : RunId)
  | completing (c : Completion) (f : FinishStage)
  | failing (c : Completion) (f : FinishStage)
  | shielding (runId : RunId) (task : TaskId)
  | ended (created : Option RunId) (outcome : Outcome)

inductive Owner where
  | call (i : CallId)
  | task (k : TaskId)
  deriving DecidableEq

/-- A `finish_action_run` that was shielded from the cancellation of its caller. -/
structure FinishTask where
  completion : Completion
  stage : FinishStage
  deriving DecidableEq

structure Execution where
  runId : RunId
  slot : ActionSlot
  idempotencyKey : String
  deriving DecidableEq

/-- What the environment brings to a turn: the revision of the action that was found, with a valid input; whether the view
is still the actor's and current; whether the foreign keys hold; and what the action comes to. -/
structure Turn where
  definition : Option Nat := none
  authorized : Bool := true
  foreignKeys : Bool := true
  execution : Except String String := .ok "null"

/-- The table as the connection sees it and as it is committed, the calls, the shielded tasks, the executions, and the
statuses that were written. -/
structure ActionService where
  nowMs : Nat := 0
  lock : Option Owner := none
  table : List ActionRun := []
  durable : List ActionRun := []
  runs : Nat := 0
  stages : CallId → Stage := fun _ => .defining
  tasks : List FinishTask := []
  executed : List Execution := []
  written : List (RunId × RunStatus) := []

inductive Event where
  | resume (i : CallId) (turn : Turn)
  | cancel (i : CallId)
  | resumeTask (k : TaskId)
  | act (i : CallId) (commits : Bool)
  | tick (elapsedMs : Nat)

def maxPerMinute : Nat := 30
def maxConcurrent : Nat := 4

def sameKey (slot : ActionSlot) (key : String) (run : ActionRun) : Bool :=
  run.slot = slot && run.idempotencyKey = key

def isRecent (slot : ActionSlot) (fromMs : Nat) (run : ActionRun) : Bool :=
  run.slot = slot && fromMs ≤ run.createdAtMs

def isRunning (slot : ActionSlot) (nowMs : Nat) (run : ActionRun) : Bool :=
  run.slot = slot && run.status = .running && nowMs ≤ run.createdAtMs + 10 * 60000

namespace Completion

def status (c : Completion) : RunStatus :=
  match c.errorCode with
  | some code => if code = "" then .completed else .failed
  | none => .completed

/-- `UPDATE ui_action_runs SET … WHERE id=? AND status='running'`. -/
def apply (c : Completion) (nowMs : Nat) (run : ActionRun) : ActionRun :=
  if run.id = c.runId ∧ run.status = .running then
    { run with status := c.status, result := c.result, errorCode := c.errorCode, completedAtMs := some nowMs }
  else run

end Completion

namespace ActionService

variable (st : ActionService)

def setStage (i : CallId) (stage : Stage) : ActionService :=
  { st with stages := fun j => if j = i then stage else st.stages j }

def release : ActionService := { st with lock := none }

def commit : ActionService := { st with durable := st.table }

def rollback : ActionService := { st with table := st.durable }

def update (c : Completion) (nowMs : Nat) : ActionService :=
  { st with
    table := st.table.map (c.apply nowMs)
    written := st.written ++
      if st.table.any (fun run => run.id = c.runId ∧ run.status = .running) then [(c.runId, c.status)] else [] }

/-- `finish_action_run`, from one await to the next. -/
def resumeFinish (owner : Owner) (c : Completion) (f : FinishStage) : Option (ActionService × FinishStage) :=
  match f with
  | .connecting => some (st, .locking st.nowMs)
  | .locking nowMs =>
    if st.lock = none then some ({ st.update c nowMs with lock := some owner }, .updating) else none
  | .updating => some (st.commit, .committing)
  | .committing => some (st.release, .done)
  | .done => none

def execute (run : ActionRun) : ActionService :=
  { st with executed := st.executed ++ [⟨run.id, run.slot, run.idempotencyKey⟩] }

def newRun (call : Invocation) (revision : Nat) : ActionRun where
  id := st.runs
  slot := ⟨call.tenantId, call.viewId, call.actionId, revision, call.principalId⟩
  idempotencyKey := call.idempotencyKey
  createdAtMs := st.nowMs

/-- `INSERT INTO ui_action_runs`, which fails where the key has a row or a foreign key does not hold. -/
def insert (i : CallId) (run : ActionRun) (foreignKeys : Bool) : ActionService :=
  if foreignKeys ∧ !st.table.any (sameKey run.slot run.idempotencyKey) then
    { st with table := st.table ++ [run] }.setStage i (.inserting run true)
  else st.setStage i (.inserting run false)

/-- `begin_action_run` gives back the row that the key has, or raises. -/
def replay (i : CallId) (existing : Option ActionRun) : ActionService :=
  match existing with
  | some run => st.release.setStage i (.ended none (.replayed run))
  | none => st.release.setStage i (.ended none .raised)

def resume (calls : CallId → Invocation) (i : CallId) (t : Turn) : Option ActionService :=
  match st.stages i with
  | .defining => match t.definition with
    | none => some (st.setStage i (.ended none .raised))
    | some revision =>
      if 1 ≤ (calls i).idempotencyKey.length ∧ (calls i).idempotencyKey.length ≤ 256 then
        some (st.setStage i (.connecting revision))
      else some (st.setStage i (.ended none .raised))
  | .connecting revision => some (st.setStage i (.locking revision))
  | .locking revision =>
    if st.lock = none then some ({ st with lock := some (.call i) }.setStage i (.authorizing revision)) else none
  | .authorizing revision =>
    if t.authorized then
      let run := st.newRun (calls i) revision
      some ({ st with runs := st.runs + 1 }.setStage i
        (.looking run (st.table.find? (sameKey run.slot run.idempotencyKey))))
    else some (st.release.setStage i (.ended none .raised))
  | .looking _ (some existing) => some (st.replay i (some existing))
  | .looking run none => some (st.setStage i (.counting run
      (st.table.countP (isRecent run.slot (run.createdAtMs - 60000)))
      (st.table.countP (isRunning run.slot run.createdAtMs))))
  | .counting run recent running =>
    if maxPerMinute ≤ recent then some (st.release.setStage i (.ended none .raised))
    else if maxConcurrent ≤ running then some (st.release.setStage i (.ended none .raised))
    else some (st.insert i run t.foreignKeys)
  | .inserting run true => some (st.commit.setStage i (.committing run))
  | .inserting run false => some (st.rollback.setStage i (.rollingBack run))
  | .rollingBack run => some (st.setStage i
      (.rereading (st.table.find? (sameKey run.slot run.idempotencyKey))))
  | .rereading existing => some (st.replay i existing)
  | .committing run => some ((st.release.execute run).setStage i (.executing run.id))
  | .executing runId => match t.execution with
    | .ok result => some (st.setStage i (.completing ⟨runId, some result, none⟩ .connecting))
    | .error name => some (st.setStage i (.failing ⟨runId, none, some (prefixOf 128 name)⟩ .connecting))
  | .completing c f => (st.resumeFinish (.call i) c f).map (fun r => match r.2 with
    | .done => r.1.setStage i (.ended (some c.runId) (.completed c))
    | f => r.1.setStage i (.completing c f))
  | .failing c f => (st.resumeFinish (.call i) c f).map (fun r => match r.2 with
    | .done => r.1.setStage i (.ended (some c.runId) .raised)
    | f => r.1.setStage i (.failing c f))
  | .shielding runId k => match st.tasks[k]? with
    | some ⟨_, .done⟩ => some (st.setStage i (.ended (some runId) .cancelled))
    | _ => none
  | .ended _ _ => none

/-- The lock is given back by the `async with` of the call that holds it. -/
def giveBack (i : CallId) : ActionService := if st.lock = some (.call i) then st.release else st

/-- The branch of `invoke_action` for a cancellation: the run is to fail, shielded. -/
def shield (i : CallId) (runId : RunId) : ActionService :=
  let task : FinishTask := ⟨⟨runId, none, some "CancelledError"⟩, .connecting⟩
  { st.giveBack i with tasks := st.tasks ++ [task] }.setStage i (.shielding runId st.tasks.length)

/-- `CancelledError` at the await where a call is. -/
def cancel (i : CallId) : Option ActionService :=
  match st.stages i with
  | .ended _ _ => none
  | .inserting run true | .committing run => some ((st.giveBack i).setStage i (.ended (some run.id) .cancelled))
  | .executing runId => some (st.shield i runId)
  | .completing c _ => some (st.shield i c.runId)
  | .failing c _ => some ((st.giveBack i).setStage i (.ended (some c.runId) .cancelled))
  | .shielding runId _ => some (st.setStage i (.ended (some runId) .cancelled))
  | _ => some ((st.giveBack i).setStage i (.ended none .cancelled))

def resumeTask (k : TaskId) : Option ActionService :=
  (st.tasks[k]?).bind (fun task => (st.resumeFinish (.task k) task.completion task.stage).map (fun r =>
    { r.1 with tasks := r.1.tasks.set k { task with stage := r.2 } }))

def act (i : CallId) (commits : Bool) : Option ActionService :=
  match st.stages i with
  | .executing _ =>
    if st.lock = none then some (if commits then st.commit else st.rollback) else none
  | _ => none

def next (calls : CallId → Invocation) (st : ActionService) (e : Event) : Option ActionService :=
  match e with
  | .resume i t => st.resume calls i t
  | .cancel i => st.cancel i
  | .resumeTask k => st.resumeTask k
  | .act i commits => st.act i commits
  | .tick elapsedMs => some { st with nowMs := st.nowMs + elapsedMs }

end ActionService

end OpenAgent.Dashboards.Actions
