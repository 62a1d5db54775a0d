import Mathlib.Data.Prod.Lex
import OpenAgent.Dashboards.Subscriptions
import OpenAgent.Lib.Json
import OpenAgent.Lib.Runs

namespace OpenAgent.Dashboards

open Py

inductive Status
  | loading
  | ready
  | empty
  | stale
  | error
deriving DecidableEq

def Status.fresh : Status → Bool
  | .loading | .ready | .empty => true
  | .stale | .error => false

/-- A `_LiveDatum`, and a row of `ui_data_state`. -/
structure Datum where
  value : Json
  version : Nat
  generation : Nat
  sequence : Nat
  status : Status
  errorCode : Option String
  updatedAt : Int
  expiresAt : Option Int
deriving DecidableEq

structure WireError where
  code : String
  message : String
deriving DecidableEq

structure Wire where
  value : Json
  version : Nat
  generation : Nat
  seq : Nat
  status : Status
  error : Option WireError
  updatedAt : Int
  expiresAt : Option Int
deriving DecidableEq

/-- `_LiveDatum.wire` and an entry of `_load_data`. -/
def Datum.wire (d : Datum) (now : Int) : Wire where
  value := d.value
  version := d.version
  generation := d.generation
  seq := d.sequence
  status := if d.expiresAt.any (fun e => e ≤ now) && d.status.fresh then .stale else d.status
  error := d.errorCode.map (fun code => ⟨code, "Data source update failed"⟩)
  updatedAt := d.updatedAt
  expiresAt := d.expiresAt

def Datum.order (d : Datum) : ℕ ×ₗ ℕ := toLex (d.generation, d.sequence)

def Wire.order (w : Wire) : ℕ ×ₗ ℕ := toLex (w.generation, w.seq)

inductive Mode
  | replace
  | merge
  | append
deriving DecidableEq

def maxAppendItems : Nat := 10000

/-- `apply_data_mode`; `none` where it raises. -/
def applyDataMode (current incoming : Json) (mode : Mode) (maxItems : Nat) : Option Json :=
  if maxItems < 1 || maxItems > maxAppendItems then none
  else match mode with
    | .replace => some incoming
    | .merge =>
      match current, incoming with
      | .obj c, .obj i => some (.obj (i.foldl (fun l e => Assoc.set l e.1 e.2) c))
      | _, _ => none
    | .append =>
      let existing := match current with
        | .arr items => items
        | _ => []
      let additions := match incoming with
        | .arr items => items
        | v => [v]
      let result := existing ++ additions
      some (.arr (result.drop (result.length - maxItems)))

def emptyValue : Json → Bool
  | .null => true
  | .arr items => items.isEmpty
  | .obj entries => entries.isEmpty
  | .str s => s = ""
  | _ => false

def statusOf (value : Json) : Status := if emptyValue value then .empty else .ready

/-- A value on its way into a source; `accepts` is what `_json` and the output schema say of the result. -/
structure Write where
  value : Json
  mode : Mode := .replace
  maxItems : Nat := 1000
  accepts : Json → Bool := fun _ => true
  expiresAt : Option Int := none

def Write.apply (w : Write) (base : Option Datum) : Option Json :=
  (applyDataMode ((base.map Datum.value).getD .null) w.value w.mode w.maxItems).filter w.accepts

inductive Publication
  /-- `_publish_source_value`. -/
  | value (generation : Nat) (w : Write)
  /-- `_publish_error`. -/
  | error (generation : Nat) (code : String)

def Publication.datum (p : Publication) (base : Option Datum) (now : Int) : Option Datum :=
  let version := (base.map Datum.version).getD 0
  let sequence := (base.map Datum.sequence).getD 0
  match p with
  | .value generation w =>
    (w.apply base).map (fun value =>
      ⟨value, version + 1, generation, sequence + 1, statusOf value, none, now, w.expiresAt⟩)
  | .error generation code =>
    some ⟨(base.map Datum.value).getD .null, version + 1, generation, sequence + 1, .error, some code, now, none⟩

/-- The arguments of `commit_data`. -/
structure Commit where
  write : Write
  expectedVersion : Option Nat := none

/-- The row that `set_data` writes over the stored one. -/
def Commit.row (c : Commit) (stored : Option Datum) (now : Int) : Option Datum :=
  let version := (stored.map Datum.version).getD 0
  if c.expectedVersion.any (fun v => v ≠ version) then none
  else (c.write.apply stored).map (fun value =>
    ⟨value, version + 1, (stored.map Datum.generation).getD 0, (stored.map Datum.sequence).getD 0 + 1,
      statusOf value, none, now, c.write.expiresAt⟩)

/-- The guard of the upsert in `checkpoint_data`. -/
def Datum.supersedes (d old : Datum) : Bool :=
  decide (d.version > old.version) || (d.version = old.version && decide (old.order < d.order))

/-- The row that `checkpoint_data` leaves. -/
def checkpointRow (stored : Option Datum) (d : Datum) (now : Int) : Datum :=
  match stored with
  | none => { d with updatedAt := now }
  | some old => if d.supersedes old then { d with updatedAt := now } else old

structure Stamped where
  wire : Wire
  now : Int

/-- A `ui_data` frame. -/
structure Frame where
  sub : SubscriptionKey
  view : String
  key : String
  data : Stamped

structure Fanout where
  view : String
  /-- What a `ui_data` frame carries; `none` for a `ui_source_status` frame. -/
  data : Option (String × Datum)
  rest : List SubscriptionKey
  dead : List SubscriptionKey := []
  /-- A `_source_status` comes after it. -/
  statusFollows : Bool := false

inductive Locked
  | publish (p : Publication)
  | commit (c : Commit)
  /-- `_flush_checkpoint`. -/
  | flush

abbrev Snapshot := String → Option Stamped

inductive Stage
  -- `subscribe`
  | reads (sub : SubscriptionKey) (view : String)
  | composes (sub : SubscriptionKey) (view : String) (rows : Snapshot)
  | sends (sub : SubscriptionKey) (view : String) (revision : Nat) (replaces : Bool) (snapshot : Snapshot) (since : Nat)
  | touches (sub : SubscriptionKey)
  -- under the lock of a source
  | locks (k : SourceKey) (job : Locked)
  | loads (k : SourceKey) (p : Publication)
  | flushes (k : SourceKey) (d : Datum) (commit : Option Commit)
  | writes (k : SourceKey) (c : Commit)
  | written (k : SourceKey) (d : Datum)
  -- `_fanout`
  | fans (f : Fanout)
  | done

/-- How a subscription began: its snapshot, and how many frames were sent before that was composed. -/
structure Opening where
  snapshot : Snapshot := fun _ => none
  since : Nat := 0

structure LiveRuntime where
  subscriptions : Subscriptions := {}
  live : Dict SourceKey Datum := Dict.empty
  pending : Dict SourceKey Datum := Dict.empty
  /-- `ui_data_state`. -/
  stored : Dict SourceKey Datum := Dict.empty
  lock : Dict SourceKey Nat := Dict.empty
  stages : List Stage := []
  /-- The `ui_data` frames that were sent. -/
  sent : List Frame := []
  opening : SubscriptionKey → Opening := fun _ => {}

namespace LiveRuntime

def setStage (s : LiveRuntime) (n : Nat) (stage : Stage) : LiveRuntime := { s with stages := s.stages.set n stage }

def call (s : LiveRuntime) (stage : Stage) : LiveRuntime := { s with stages := s.stages ++ [stage] }

def unlock (s : LiveRuntime) (k : SourceKey) : LiveRuntime := { s with lock := s.lock.erase k }

def removeSubscription (s : LiveRuntime) (key : SubscriptionKey) : LiveRuntime :=
  match s.subscriptions.all.get? key with
  | some sub => { s with subscriptions := s.subscriptions.discard key sub }
  | none => s

def removeAll (s : LiveRuntime) (keys : List SubscriptionKey) : LiveRuntime := keys.foldl removeSubscription s

def disconnect (s : LiveRuntime) (ws : Nat) : LiveRuntime :=
  s.removeAll (s.subscriptions.all.keys.filter (fun key => key.1 = ws))

def compose (s : LiveRuntime) (view : String) (rows : Snapshot) (now : Int) : Snapshot := fun key =>
  match s.live.get? (view, key) with
  | some d => some ⟨d.wire now, now⟩
  | none => rows key

def fan (s : LiveRuntime) (n : Nat) (f : Fanout) : LiveRuntime :=
  match f.rest with
  | _ :: _ => s.setStage n (.fans f)
  | [] =>
    let s := s.removeAll f.dead
    if f.statusFollows then
      match (s.subscriptions.items f.view).map Prod.fst with
      | [] => s.setStage n .done
      | rest => s.setStage n (.fans ⟨f.view, none, rest, [], false⟩)
    else s.setStage n .done

/-- The datum becomes the live one, and `_emit_data` lists the subscribers, before anything else runs. -/
def publish (s : LiveRuntime) (n : Nat) (k : SourceKey) (d : Datum) (statusFollows : Bool) : LiveRuntime :=
  fan { s with live := s.live.set k d, lock := s.lock.erase k } n
    ⟨k.1, some (k.2, d), (s.subscriptions.items k.1).map Prod.fst, [], statusFollows⟩

/-- `_publish_source_value` and `_publish_error` over the datum that they found. -/
def publishOver (s : LiveRuntime) (n : Nat) (k : SourceKey) (p : Publication) (base : Option Datum) (now : Int) :
    LiveRuntime :=
  match p.datum base now with
  | some d =>
    publish { s with pending := s.pending.set k d } n k d (match p with
      | .error .. => true
      | .value .. => false)
  | none => (s.unlock k).setStage n .done

/-- `_flush_checkpoint_locked`, to its write. -/
def flush (s : LiveRuntime) (n : Nat) (k : SourceKey) (commit : Option Commit) : LiveRuntime :=
  match s.pending.get? k, commit with
  | some d, _ => { s with pending := s.pending.erase k }.setStage n (.flushes k d commit)
  | none, some c => s.setStage n (.writes k c)
  | none, none => (s.unlock k).setStage n .done

/-- `subscribe` once its snapshot is sent. -/
def register (s : LiveRuntime) (sub : SubscriptionKey) (view : String) (revision : Nat) (replaces : Bool)
    (o : Opening) : LiveRuntime :=
  let s := if replaces then s.removeSubscription sub else s
  { s with
    subscriptions := s.subscriptions.add sub ⟨view, revision⟩
    opening := Function.update s.opening sub o }

end LiveRuntime

inductive Outcome
  | sent
  | failed
  | revoked
deriving DecidableEq

inductive LiveEvent
  | subscribes (sub : SubscriptionKey) (view : String)
  | publishes (k : SourceKey) (p : Publication)
  | commits (k : SourceKey) (c : Commit)
  | checkpoints (k : SourceKey)
  | unsubscribes (sub : SubscriptionKey)
  -- the coroutine at the place `n` goes on
  | reads (n : Nat) (now : Int)
  | composes (n : Nat) (revision : Nat) (now : Int)
  | sends (n : Nat) (ok : Bool)
  | touches (n : Nat)
  | locks (n : Nat) (now : Int)
  | loads (n : Nat) (now : Int)
  | writes (n : Nat) (now : Int)
  | resumes (n : Nat)
  | delivers (n : Nat) (outcome : Outcome) (now : Int)
  | raises (n : Nat)

open LiveRuntime in
def liveNext (s : LiveRuntime) : LiveEvent → Option LiveRuntime
  | .subscribes sub view => some (s.call (.reads sub view))
  | .publishes k p => some (s.call (.locks k (.publish p)))
  | .commits k c => some (s.call (.locks k (.commit c)))
  | .checkpoints k => some (s.call (.locks k .flush))
  | .unsubscribes sub => some (s.removeSubscription sub)
  | .reads n now =>
    match s.stages[n]? with
    | some (.reads sub view) =>
      some (s.setStage n (.composes sub view (fun key => (s.stored.get? (view, key)).map (fun d => ⟨d.wire now, now⟩))))
    | _ => none
  | .composes n revision now =>
    match s.stages[n]? with
    | some (.composes sub view rows) =>
      let replaces := (s.subscriptions.all.get? sub).isSome
      some (s.setStage n (.sends sub view revision replaces (s.compose view rows now) s.sent.length))
    | _ => none
  | .sends n ok =>
    match s.stages[n]? with
    | some (.sends sub view revision replaces snapshot since) =>
      if ok then some ((s.register sub view revision replaces ⟨snapshot, since⟩).setStage n (.touches sub))
      else some ((s.disconnect sub.1).setStage n .done)
    | _ => none
  | .touches n =>
    match s.stages[n]? with
    | some (.touches _) => some (s.setStage n .done)
    | _ => none
  | .locks n now =>
    match s.stages[n]? with
    | some (.locks k job) =>
      if (s.lock.get? k).isSome then none
      else
        let s := { s with lock := s.lock.set k n }
        match job with
        | .publish p =>
          match s.live.get? k with
          | some c => some (s.publishOver n k p (some c) now)
          | none => some (s.setStage n (.loads k p))
        | .commit c => some (s.flush n k (some c))
        | .flush => some (s.flush n k none)
    | _ => none
  | .loads n now =>
    match s.stages[n]? with
    | some (.loads k p) => some (s.publishOver n k p (s.stored.get? k) now)
    | _ => none
  | .writes n now =>
    match s.stages[n]? with
    | some (.flushes k d commit) =>
      let s := { s with stored := s.stored.set k (checkpointRow (s.stored.get? k) d now) }
      match commit with
      | some c => some (s.setStage n (.writes k c))
      | none => some ((s.unlock k).setStage n .done)
    | some (.writes k c) =>
      (c.row (s.stored.get? k) now).map (fun row =>
        { s with stored := s.stored.set k row }.setStage n (.written k row))
    | _ => none
  | .resumes n =>
    match s.stages[n]? with
    | some (.written k d) => some (publish { s with pending := s.pending.erase k } n k d false)
    | _ => none
  | .delivers n outcome now =>
    match s.stages[n]? with
    | some (.fans f) =>
      match f.rest with
      | sub :: rest =>
        match outcome with
        | .sent =>
          let frames := match f.data with
            | some (key, d) => [⟨sub, f.view, key, ⟨d.wire now, now⟩⟩]
            | none => []
          some (fan { s with sent := s.sent ++ frames } n { f with rest })
        | _ => some (s.fan n { f with rest, dead := f.dead ++ [sub] })
      | [] => none
    | _ => none
  | .raises n =>
    match s.stages[n]? with
    | some (.loads k _) | some (.flushes k _ _) | some (.writes k _) | some (.written k _) =>
      some ((s.unlock k).setStage n .done)
    | some (.touches sub) => some ((s.removeSubscription sub).setStage n .done)
    | some .done => none
    | some _ => some (s.setStage n .done)
    | none => none

end OpenAgent.Dashboards
