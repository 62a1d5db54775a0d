import OpenAgent.Automation.Authority
import OpenAgent.Lib.Transactions
import Mathlib.Data.List.Sort
import Mathlib.Data.List.Dedup

namespace OpenAgent.Automation

open Py Definition

/-- The rows of a kind's table under their primary key; every one has the column of its switch. -/
structure Table where
  rows : List Definition
  identified : ∀ row ∈ rows, Definition.get row "id" = .str (Definition.id row)
  switched : ∀ row ∈ rows, (Assoc.get? row "enabled").isSome
  distinct : (rows.map Definition.id).Nodup

namespace Table

variable (table : Table)

def find (identifier : String) : Option Definition := table.rows.find? fun row => Definition.id row = identifier

theorem id_of_get {row other : Definition} (h : Assoc.get? row "id" = Assoc.get? other "id") :
    Definition.id row = Definition.id other := by
  rw [Definition.id, Definition.id, Definition.get, Definition.get, h]

/-- An update of a row writes neither its key, nor takes a column away. -/
structure Updates (f : Definition → Definition) : Prop where
  id : ∀ row, Assoc.get? (f row) "id" = Assoc.get? row "id"
  enabled : ∀ row, (Assoc.get? row "enabled").isSome → (Assoc.get? (f row) "enabled").isSome

def update (identifier : String) (f : Definition → Definition) (hf : Updates f) : Table where
  rows := table.rows.map fun row => if Definition.id row = identifier then f row else row
  identified := by
    intro row hrow
    obtain ⟨old, hold, rfl⟩ := List.mem_map.mp hrow
    split
    · rw [Definition.get, hf.id old, id_of_get (hf.id old)]
      exact table.identified old hold
    · exact table.identified old hold
  switched := by
    intro row hrow
    obtain ⟨old, hold, rfl⟩ := List.mem_map.mp hrow
    split
    · exact hf.enabled old (table.switched old hold)
    · exact table.switched old hold
  distinct := by
    have hkeys : (table.rows.map fun row => if Definition.id row = identifier then f row else row).map Definition.id =
        table.rows.map Definition.id := by
      rw [List.map_map]
      refine List.map_congr_left fun row _ => ?_
      rw [Function.comp_apply]
      split
      · exact id_of_get (hf.id row)
      · rfl
    rw [hkeys]
    exact table.distinct

end Table

structure WorkflowSchedule where
  id : String
  workflowId : String
  enabled : Bool
  cronExpression : Json
  nextRunAt : Json
  timezone : Json
  updatedAt : Json

structure Store where
  tables : Kind → Table
  schedules : List WorkflowSchedule

structure Database where
  store : Store
  grants : List Grant
  distinct : (grants.map Grant.id).Nodup

def Grant.concerns (grant : Grant) (kind : Kind) (identifier : String) : Bool :=
  grant.kind = kind && grant.definitionId = identifier

def revokeRows (kind : Kind) (identifier : String) (grants : List Grant) : List Grant :=
  grants.map fun grant => if grant.concerns kind identifier then { grant with revoked := true } else grant

theorem revokeRows_ids (kind : Kind) (identifier : String) (grants : List Grant) :
    (revokeRows kind identifier grants).map Grant.id = grants.map Grant.id := by
  rw [revokeRows, List.map_map]
  refine List.map_congr_left fun grant _ => ?_
  rw [Function.comp_apply]
  split <;> rfl

namespace Database

variable (db : Database)

def revoke (kind : Kind) (identifier : String) : Database :=
  { db with grants := revokeRows kind identifier db.grants, distinct := by rw [revokeRows_ids]; exact db.distinct }

theorem distinct_insert {grant : Grant} (h : grant.id ∉ db.grants.map Grant.id) :
    ((db.grants ++ [grant]).map Grant.id).Nodup := by
  rw [List.map_append, List.map_singleton, ← List.concat_eq_append]
  exact db.distinct.concat h

def insert (grant : Grant) : Option Database :=
  if h : grant.id ∈ db.grants.map Grant.id then none
  else some { db with grants := db.grants ++ [grant], distinct := db.distinct_insert h }

def definition (kind : Kind) (identifier : String) : Option Definition := (db.store.tables kind).find identifier

end Database

/-- Where an operation can be made to fail, besides the checks of its own. -/
inductive Point where
  | entry
  | before
  | after
  | revoking (identifier : String)
  | discovering (identifier : String)
  | inserting (identifier : String)
  | reconciling (identifier : String)
  | commit

structure Environment where
  authorized : ExecutionContext → String → ResourceRef → Bool
  active : Option ExecutionContext := none
  fails : Point → Option Error := fun _ => none
  discover : ExecutionContext → List String := fun _ => []
  uuid : String → String
  /-- `time.time()`, as it is stored and as it is compared. -/
  stamp : Json := .null
  now : Rat := 0
  /-- `float(value) <= now`, if `value` is a number. -/
  reached : Json → Option Bool := fun _ => none
  nextRun : Json → Json → Json := fun _ _ => .null
  agentName : String := "agent"
  directory : Directory := {}
  accepted : String → Option Accepted := fun _ => none
  taskRun : String → String → Option TaskRun := fun _ _ => none
  core : String → String → List (String × Json) → ExecutionContext → Store → Store × Except Error Json

def managedKind (kind : String) : Option Kind :=
  match kind with
  | "scheduled_task" => some .task
  | "event" => some .event
  | "workflow" => some .workflow
  | _ => none

def mutations (kind : Kind) : List String :=
  match kind with
  | .task => ["create_scheduled_task", "create_one_shot_task", "update_scheduled_task", "delete_scheduled_task"]
  | .event =>
    ["create_event", "update_event", "enable_event", "disable_event", "rotate_event_secret", "delete_event",
      "guarded_update_event"]
  | .workflow =>
    ["create_workflow", "update_workflow", "delete_workflow", "add_block", "update_block", "remove_block",
      "connect_blocks", "disconnect_blocks"]

def execution (name : String) : Option (String × String) :=
  match name with
  | "run_scheduled_task_now" => some ("get_scheduled_task", "task_id")
  | "run_workflow" => some ("get_workflow", "id_or_name")
  | "trigger_event" => some ("get_event", "id_or_slug")
  | "trigger_events" => some ("get_event", "id_or_slug")
  | _ => none

/-- `tuple(sorted(set(values)))`. -/
def sortedSet (values : List String) : List String := values.dedup.insertionSort (fun a b => a ≤ b)

/-- `dict.fromkeys(values)`: every value once, where it came first. -/
def fromKeys (values : List String) : List String := values.reverse.dedup.reverse

abbrev Managing := Work Database Error

section Cursors

variable (env : Environment)

def moveCursor (definition : Definition) (row : Definition) : Definition :=
  Assoc.set (Assoc.set row "next_run"
      (env.nextRun (Definition.get definition "cron_expression") (Definition.get definition "timezone")))
    "updated_at" env.stamp

theorem moveCursor_get? {definition row : Definition} {key : String} (h : key ≠ "next_run") (h' : key ≠ "updated_at") :
    Assoc.get? (moveCursor env definition row) key = Assoc.get? row key := by
  rw [moveCursor, Assoc.get?_set, if_neg h', Assoc.get?_set, if_neg h]

theorem moveCursor_updates (definition : Definition) : Table.Updates (moveCursor env definition) where
  id row := moveCursor_get? env (by decide) (by decide)
  enabled row h := by rwa [moveCursor_get? env (by decide) (by decide)]

def Store.moveTask (store : Store) (definition : Definition) : Store :=
  { store with
    tables := Function.update store.tables .task
      ((store.tables .task).update definition.id (moveCursor env definition) (moveCursor_updates env definition)) }

def Store.moveSchedule (store : Store) (schedule : WorkflowSchedule) : Store :=
  { store with
    schedules := store.schedules.map fun row =>
      if row.id = schedule.id then
        { row with nextRunAt := env.nextRun schedule.cronExpression schedule.timezone, updatedAt := env.stamp }
      else row }

end Cursors

section Management

variable [Foundations] (env : Environment)

def reach (point : Point) : Managing Unit :=
  match env.fails point with
  | none => pure ()
  | some e => Work.raise e

def requireAuthorized (context : ExecutionContext) (action : String) (resource : ResourceRef) : Managing Unit :=
  Work.raiseUnless (env.authorized context action resource) (.permission action)

def definitionOf (kind : Kind) (identifier : String) : Managing Definition := do
  let db ← get
  Work.ofOption (db.definition kind identifier) (.lookup identifier)

def digestOf (kind : Kind) (definition : Definition) : Managing String :=
  Work.ofOption (definition.digest kind) (.value "A known persisted automation definition is required")

def revoke (kind : Kind) (identifier : String) (context : ExecutionContext) : Managing Unit := do
  requireAuthorized env context "automation.manage" ⟨"automation", context.tenantId, kind.name ++ "/" ++ identifier⟩
  reach env (.revoking identifier)
  modify fun db => db.revoke kind identifier

def newGrant (kind : Kind) (definition : Definition) (digest : String) (context : ExecutionContext) : Grant :=
  let sources := (env.discover context).filter fun source => !((context.capabilities.map (·.sourceId)).contains source)
  { id := env.uuid definition.id, kind := kind, definitionId := definition.id, digest := digest,
    principal := context.initiator, audience := context.audience,
    scopes := sortedSet (context.scopes ++ sources.map fun source => "capability:" ++ source) }

def replaceGrant (kind : Kind) (definition : Definition) (digest : String) (context : ExecutionContext) :
    Managing (Option String) := do
  reach env (.discovering definition.id)
  modify fun db => db.revoke kind definition.id
  reach env (.inserting definition.id)
  let db ← get
  let inserted ← Work.ofOption (db.insert (newGrant env kind definition digest context)) .integrity
  set inserted
  pure (some (env.uuid definition.id))

def retireGrant (kind : Kind) (definition : Definition) (context : ExecutionContext) : Managing (Option String) := do
  revoke env kind definition.id context
  pure none

def capture (kind : Kind) (definition : Definition) (context : ExecutionContext) : Managing (Option String) := do
  requireAuthorized env context "automation.manage" ⟨"automation", context.tenantId, kind.name ++ "/" ++ definition.id⟩
  Work.raiseUnless (!context.deferred && context.authority = context.initiator)
    (.permission "A new durable grant requires its verified initiating principal")
  let current ← definitionOf kind definition.id
  let digest ← digestOf kind definition
  let found ← digestOf kind current
  Work.raiseUnless (found = digest) (.value "Automation changed while authorization was being captured")
  if definition.enabled then replaceGrant env kind definition digest context
  else retireGrant env kind definition context

def rowsOf (point : Point) (kind : Kind) : Managing Table := do
  reach env point
  let db ← get
  pure (db.store.tables kind)

def captureIf (kind : Kind) (definition : Definition) (context : ExecutionContext) (changed : Bool) :
    Managing (Option String) :=
  if changed then capture env kind definition context else pure none

def captureChange (kind : Kind) (before : Table) (context : ExecutionContext) (definition : Definition) :
    Managing (Option String) :=
  match before.find definition.id with
  | none => capture env kind definition context
  | some old => do
    let oldDigest ← digestOf kind old
    let digest ← digestOf kind definition
    captureIf env kind definition context
      (oldDigest ≠ digest || Definition.get old "enabled" ≠ Definition.get definition "enabled")

def captureChanges (kind : Kind) (before : Table) (context : ExecutionContext) : Managing Unit := do
  let after ← rowsOf env .after kind
  let gone := before.rows.filter fun row => (after.find (Definition.id row)).isNone
  let _ ← Work.each (fun row => revoke env kind (Definition.id row) context) gone
  let _ ← Work.each (captureChange env kind before context) after.rows
  pure ()

/-- `_reconcile_schedule_cursor` looks for recurring schedules whose next moment is missing or past. -/
def overdue (expression nextRun : Json) : Managing Bool :=
  if !expression.truthy || Foundations.isOneShotExpression expression then pure false
  else if nextRun = .null then pure true
  else Work.ofOption (env.reached nextRun) (.value "could not convert string to float")

def moveIf (due : Bool) (move : Store → Store) : Managing Nat :=
  if due then do
    modify fun db => { db with store := move db.store }
    pure 1
  else pure 0

def reconcileTask (definition : Definition) : Managing Nat :=
  if definition.enabled then do
    let due ← overdue env (Definition.get definition "cron_expression") (Definition.get definition "next_run")
    moveIf due fun store => store.moveTask env definition
  else pure 0

def reconcileSchedule (schedule : WorkflowSchedule) : Managing Nat := do
  let due ← overdue env schedule.cronExpression schedule.nextRunAt
  moveIf due fun store => store.moveSchedule env schedule

def reconcileWorkflow (definition : Definition) : Managing Nat := do
  let db ← get
  let rounds ← Work.each (reconcileSchedule env)
    (db.store.schedules.filter fun row => row.workflowId = definition.id && row.enabled)
  pure rounds.sum

def reconcileScheduleCursor (kind : Kind) (definition : Definition) : Managing Nat := do
  reach env (.reconciling definition.id)
  match kind with
  | .task => reconcileTask env definition
  | .workflow => reconcileWorkflow env definition
  | .event => pure 0

def keepIdentity (context : ExecutionContext) : Managing Unit := do
  Work.raiseUnless (env.active.all fun active => active = context)
    (.permission "Management cannot replace an active turn identity")
  reach env .entry

def apply (operation : Store → Store × Except Error Json) : Managing Json := fun db =>
  match operation db.store with
  | (store, .ok result) => .ok (result, { db with store := store })
  | (_, .error e) => .error e

def manage (kind : Kind) (operation : Store → Store × Except Error Json) (context : ExecutionContext) : Managing Json := do
  let before ← rowsOf env .before kind
  let result ← apply operation
  captureChanges env kind before context
  reach env .commit
  pure result

def mutate (kind : String) (operation : Store → Store × Except Error Json) (context : ExecutionContext) :
    Managing Json := do
  let managed ← Work.ofOption (managedKind kind) (.value "Unknown automation kind")
  requireAuthorized env context "automation.manage" ⟨"automation", context.tenantId, kind⟩
  keepIdentity env context
  manage env managed operation context

structure Approval where
  delegationId : Option String
  digest : String
  schedulesReconciled : Nat

def exactDigest (digest : Json) : Option String :=
  match digest with
  | .str text => if text.length = 64 then some text else none
  | _ => none

def approveAuthorization (kind identifier : String) (digest : Json) (context : ExecutionContext) : Managing Approval := do
  let managed ← Work.ofOption (managedKind kind) (.value "Unknown automation kind")
  let reviewed ← Work.ofOption (exactDigest digest) (.value "Supply the exact digest returned by revision review")
  requireAuthorized env context "automation.manage" ⟨"automation", context.tenantId, kind⟩
  keepIdentity env context
  let definition ← definitionOf managed identifier
  let current ← digestOf managed definition
  Work.raiseUnless (current = reviewed) (.revisionChanged "Automation changed since review")
  Work.raiseUnless definition.enabled (.value "Enable the definition before approving scheduled execution")
  let grant ← capture env managed definition context
  let reconciled ← reconcileScheduleCursor env managed definition
  reach env .commit
  pure ⟨grant, reviewed, reconciled⟩

structure Captured where
  id : String
  authorized : Bool
  schedulesReconciled : Nat

def captureCurrent (kind : Kind) (context : ExecutionContext) (identifier : String) : Managing Captured := do
  let definition ← definitionOf kind identifier
  let grant ← capture env kind definition context
  let reconciled ← reconcileScheduleCursor env kind definition
  pure ⟨identifier, grant.isSome, reconciled⟩

def captureCurrentAuthorizations (kind : String) (identifiers : List String) (context : ExecutionContext) :
    Managing (List Captured) := do
  let managed ← Work.ofOption (managedKind kind) (.value "Unknown automation kind")
  requireAuthorized env context "automation.manage" ⟨"automation", context.tenantId, kind⟩
  keepIdentity env context
  let results ← Work.each (captureCurrent env managed context) (fromKeys identifiers)
  reach env .commit
  pure results

abbrev Database.reads (db : Database) : Reads Id where
  grant identifier := db.grants.find? fun grant => grant.id = identifier && !grant.revoked
  definition kind identifier := db.definition kind identifier
  accepted := env.accepted
  taskRun := env.taskRun
  clock := env.now
  principalActive := env.directory.principalActive

def Database.granted (db : Database) (kind : Kind) (identifier digest : String) : Option String :=
  (db.grants.find? fun grant => grant.concerns kind identifier && grant.digest = digest && !grant.revoked).map Grant.id

def delegatedExecution (name : String) (context : ExecutionContext) : Bool :=
  (execution name).isSome && context.deferred && given context.delegationId

def admitCall (managed : Kind) (kind name : String) (context : ExecutionContext) : Managing Unit := do
  let db ← get
  if delegatedExecution name context then
    Work.raiseUnless (validate (m := Id) (db.reads env) context) (.permission "Automation delegation is revoked")
  else
    requireAuthorized env context (if (mutations managed).contains name then "automation.manage" else "automation.read")
      ⟨"automation", context.tenantId, kind⟩

def loosely (operation : Store → Store × Except Error Json) (db : Database) : Database × Except Error Json :=
  ({ db with store := (operation db.store).1 }, (operation db.store).2)

def checkTarget (managed : Kind) (name : String) (context : ExecutionContext) (row : Json) (db : Database) :
    Except Error Unit :=
  match row.field "id" with
  | .str identifier =>
    match db.definition managed identifier with
    | none => .error (.lookup identifier)
    | some definition =>
      match resolve (m := Id) (db.reads env) db.granted env.agentName managed definition "manual-admission"
          context.sessionId with
      | .error e => .error e
      | .ok admitted =>
        if delegatedExecution name context && (admitted.authority ≠ context.authority ||
            admitted.initiator ≠ context.initiator || admitted.audience ≠ context.audience) then
          .error (.permission "Automation target belongs to another principal boundary")
        else .ok ()
  | _ => .error (.lookup "id")

def callTarget (managed : Kind) (kind name getter key : String) (arguments : List (String × Json))
    (context : ExecutionContext) (db : Database) : Database × Except Error Json :=
  match Assoc.get? arguments key with
  | none => (db, .error (.lookup key))
  | some value =>
    match loosely (env.core kind getter [(key, value)] context) db with
    | (db, .error e) => (db, .error e)
    | (db, .ok row) =>
      match checkTarget env managed name context row db with
      | .error e => (db, .error e)
      | .ok _ => loosely (env.core kind name arguments context) db

def callDirectly (managed : Kind) (kind name : String) (arguments : List (String × Json)) (context : ExecutionContext)
    (db : Database) : Database × Except Error Json :=
  match execution name with
  | some (getter, key) => callTarget env managed kind name getter key arguments context db
  | none => loosely (env.core kind name arguments context) db

def admission (kind name : String) (context : ExecutionContext) : Managing Kind := do
  let managed ← Work.ofOption (managedKind kind) (.value "Unknown automation kind")
  admitCall env managed kind name context
  keepIdentity env context
  pure managed

def call (kind name : String) (arguments : List (String × Json)) (context : ExecutionContext) (db : Database) :
    Database × Except Error Json :=
  match (Work.transaction (admission env kind name context) db).2 with
  | .error e => (db, .error e)
  | .ok managed =>
    if (mutations managed).contains name then
      Work.transaction (manage env managed (env.core kind name arguments context) context) db
    else callDirectly env managed kind name arguments context db

end Management

inductive Operation where
  | mutate (kind : String) (operation : Store → Store × Except Error Json)
  | call (kind name : String) (arguments : List (String × Json))
  | approveAuthorization (kind identifier : String) (digest : Json)
  | captureCurrentAuthorizations (kind : String) (identifiers : List String)

/-- An operation, on whose behalf it is, and what it finds around it. -/
structure Request where
  operation : Operation
  context : ExecutionContext
  env : Environment

section Runs

variable [Foundations]

def done {α : Type} (outcome : Database × Except Error α) : Database × Except Error Unit :=
  (outcome.1, outcome.2.map fun _ => ())

def perform (db : Database) (request : Request) : Database × Except Error Unit :=
  match request.operation with
  | .mutate kind operation => done (Work.transaction (mutate request.env kind operation request.context) db)
  | .call kind name arguments => done (call request.env kind name arguments request.context db)
  | .approveAuthorization kind identifier digest =>
    done (Work.transaction (approveAuthorization request.env kind identifier digest request.context) db)
  | .captureCurrentAuthorizations kind identifiers =>
    done (Work.transaction (captureCurrentAuthorizations request.env kind identifiers request.context) db)

def next (db : Database) (request : Request) : Option Database := some (perform db request).1

end Runs

end OpenAgent.Automation
