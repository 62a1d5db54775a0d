import OpenAgent.Dashboards.Bundles
import OpenAgent.Lib.Runs

namespace OpenAgent.Dashboards

open Py

open Gateway (Sha256)

/-- `compile_oaui` and `json.loads`. -/
class Compiler where
  compile : Json → Option Json
  loads : Bytes → Option Json

inductive Surface
  | inline
  | sidebar
deriving DecidableEq

def Surface.wire : Surface → String
  | .inline => "inline"
  | .sidebar => "sidebar"

inductive ViewStatus
  | active
  | expired
  | deleted
deriving DecidableEq

structure ViewRow where
  surface : Surface
  status : ViewStatus
  latestRevision : Nat
deriving DecidableEq

/-- What a revision consists of; sources and actions are by their keys. -/
structure Definition where
  title : String
  description : String
  icon : Option String := none
  markup : Option String := none
  spec : Json
  expiresAt : Option Int := none
  scripts : Files := []
  assets : Files := []
  sources : List (String × Json) := []
  actions : List (String × Json) := []
deriving DecidableEq

structure Repository where
  views : Dict String ViewRow := Dict.empty
  revisions : Dict (String × Nat) BundleEvidence := Dict.empty
  sources : Dict (String × Nat) (List (String × Json)) := Dict.empty
  actions : Dict (String × Nat) (List (String × Json)) := Dict.empty
  bundles : BundleStore := Dict.empty

def maxTitle : Nat := 256

def maxDescription : Nat := 4096

/-- `_bundle_payload`. -/
def bundleOf (view : String) (revision : Nat) (surface : Surface) (d : Definition) : Bundle where
  id := view
  revision := revision
  surface := surface.wire
  title := d.title
  description := d.description
  icon := d.icon
  expiresAt := d.expiresAt
  markup := d.markup
  spec := d.spec

def decodeUtf8 (b : Bytes) : Option String := String.fromUTF8? ⟨b.toArray⟩

def asStr : Json → Option String
  | .str s => some s
  | _ => none

def asInt : Json → Option Int
  | .int n => some n
  | _ => none

mutual

def nodeActions : Json → List String
  | .obj entries => (asStr (((Json.obj entries).field "props").field "action")).toList ++ childActions entries
  | _ => []

def nodesActions : List Json → List String
  | [] => []
  | j :: js => nodeActions j ++ nodesActions js

def childActions : List (String × Json) → List String
  | [] => []
  | (k, .arr nodes) :: entries => if k = "children" then nodesActions nodes else childActions entries
  | (k, _) :: entries => if k = "children" then [] else childActions entries

end

def referencedActions (spec : Json) : List String :=
  nodeActions (spec.field "root") ++ match spec.field "states" with
    | .obj states => nodesActions (states.map Prod.snd)
    | _ => []

def scriptReferences (d : Definition) : List String :=
  (d.sources ++ d.actions).filterMap (fun e =>
    let script := (e.2.field "config").field "script"
    if script = .null then none else some script.pyStr)

/-- `_validate_bundle_script_references`. -/
def scriptsPresent (d : Definition) : Bool :=
  (scriptReferences d).all (fun name => d.scripts.any (fun e => e.1 = name))

/-- `_validate_action_references`. -/
def actionsPresent (d : Definition) : Bool :=
  (referencedActions d.spec).all (fun name => d.actions.any (fun e => e.1 = name))

section
variable [Compiler]

/-- `read_revision`, once the files are verified. -/
def readRevision (files : Files) : Option Bundle := do
  let manifest ← (Assoc.get? files "manifest.json").bind Compiler.loads
  let spec ← (Assoc.get? files "compiled.json").bind Compiler.loads
  let view := manifest.field "view"
  let markup ← if manifest.field "sourceKind" = .null || manifest.field "sourceKind" = .str "markup" then
      ((Assoc.get? files "view.oaui").bind decodeUtf8).map some
    else some none
  some {
    id := ← asStr (view.field "id")
    revision := (← asInt (view.field "revision")).toNat
    surface := ← asStr (view.field "surface")
    title := ← asStr (view.field "title")
    description := ← asStr (view.field "description")
    icon := asStr (view.field "icon")
    expiresAt := asInt (view.field "expiresAt")
    markup := markup
    spec := spec }

/-- The arguments of `update` that a revision holds, after their normalization; `none` leaves what there is. -/
structure Update where
  title : Option String := none
  description : Option String := none
  icon : Option (Option String) := none
  layout : Option (Option String × Json) := none
  expiresAt : Option (Option Int) := none
  actions : Option (List (String × Json)) := none
  scripts : Option Files := none
  assets : Option Files := none

inductive Call
  | update (u : Update)
  | reactivate (expiresAt : Option Int)
  | configureSource (key : String) (source : Json) (scripts : Option Files)
  | deleteSource (key : String)

def Call.isReactivate : Call → Bool
  | .reactivate _ => true
  | _ => false

/-- What the call makes of the definition of the current revision; `none` where it raises. -/
def Call.definition (c : Call) (current : Definition) : Option Definition :=
  match c with
  | .update u =>
    let d := { current with
      title := u.title.getD current.title
      description := u.description.getD current.description
      icon := u.icon.getD current.icon
      markup := (u.layout.map Prod.fst).getD current.markup
      spec := (u.layout.map Prod.snd).getD current.spec
      expiresAt := u.expiresAt.getD current.expiresAt
      actions := u.actions.getD current.actions
      scripts := u.scripts.getD current.scripts
      assets := u.assets.getD current.assets }
    if d.title = "" || d.title.length > maxTitle || d.description.length > maxDescription then none
    else if actionsPresent d && scriptsPresent d then some d else none
  | .reactivate expiresAt => some { current with expiresAt }
  | .configureSource key source scripts =>
    let d := { current with
      sources := Assoc.set current.sources key source
      scripts := (scripts.getD []).foldl (fun l e => Assoc.set l e.1 e.2) current.scripts }
    if scriptsPresent d then some d else none
  | .deleteSource key =>
    let d := { current with sources := Assoc.erase current.sources key }
    if current.sources.any (fun e => e.1 = key) && scriptsPresent d then some d else none

variable [Sha256]

namespace Repository

/-- `_full` with `_revision_files`: the definition of a revision, verified. -/
def current (s : Repository) (view : String) (revision : Nat) : Option Definition := do
  let evidence ← s.revisions.get? (view, revision)
  if !s.bundles.verify (view, revision) evidence then none
  let files ← s.bundles.get? (view, revision)
  let b ← readRevision files
  let spec ← Compiler.compile b.spec
  some {
    title := b.title
    description := b.description
    icon := b.icon
    markup := b.markup
    spec := spec
    expiresAt := b.expiresAt
    scripts := readFiles files "scripts"
    assets := readFiles files "assets"
    sources := (s.sources.get? (view, revision)).getD []
    actions := (s.actions.get? (view, revision)).getD [] }

def prepare (s : Repository) (view : String) (expected : Nat) (c : Call) : Option (Definition × Files) := do
  let row ← s.views.get? view
  if row.surface = .inline || (row.status = .deleted && !c.isReactivate) || row.latestRevision ≠ expected then none
  let current ← s.current view expected
  let d ← c.definition current
  let files ← entries (bundleOf view (expected + 1) .sidebar d) d.scripts d.assets
  some (d, files)

def statusAt (d : Definition) (now : Int) : ViewStatus := if d.expiresAt.any (fun e => e ≤ now) then .expired else .active

def commitRow (row : ViewRow) (expected : Nat) (c : Call) (d : Definition) (now : Int) : ViewRow :=
  { row with
    latestRevision := expected + 1
    status := match c with
      | .update _ | .reactivate _ => statusAt d now
      | _ => row.status }

def commit (s : Repository) (view : String) (expected : Nat) (c : Call) (d : Definition) (evidence : BundleEvidence)
    (now : Int) : Option Repository :=
  -- the primary key of `ui_view_revisions`
  if (s.revisions.get? (view, expected + 1)).isSome then none
  else match s.views.get? view with
    | some row =>
      if row.latestRevision = expected && (c.isReactivate || row.status ≠ .deleted) then
        some { s with
          views := s.views.set view (commitRow row expected c d now)
          revisions := s.revisions.set (view, expected + 1) evidence
          sources := s.sources.set (view, expected + 1) d.sources
          actions := s.actions.set (view, expected + 1) d.actions }
      else none
    | none => none

end Repository

/-- How far a call comes: it fails or is cancelled before the bundle is in place, or after that and before the
commit, or it commits; its answer can still fail then. -/
inductive Fate
  | early
  | late
  | commits (answers : Bool)
deriving DecidableEq

def Repository.attempt (s : Repository) (view : String) (expected : Nat) (c : Call) (now : Int) (fate : Fate) :
    Repository × Bool :=
  match s.prepare view expected c, fate with
  | none, _ | _, .early => (s, false)
  | some (d, files), fate =>
    match s.bundles.writeRevision (view, expected + 1) files with
    | none => (s, false)
    | some (bundles, evidence) =>
      let s := { s with bundles }
      match fate with
      | .commits answers =>
        match s.commit view expected c d evidence now with
        | some s => (s, answers)
        | none => (s, false)
      | _ => (s, false)

/-- `create`, of a view with a fresh id. -/
def Repository.create (s : Repository) (view : String) (surface : Surface) (d : Definition) (now : Int) (fate : Fate) :
    Option Repository :=
  if (s.views.get? view).isSome || (s.bundles.get? (view, 1)).isSome then none
  else if !actionsPresent d || !scriptsPresent d then some s
  else
    match entries (bundleOf view 1 surface d) d.scripts d.assets, fate with
    | none, _ | _, .early => some s
    | some files, fate =>
      let s := { s with bundles := s.bundles.set (view, 1) files }
      match fate with
      | .commits _ => some { s with
          views := s.views.set view ⟨surface, Repository.statusAt d now, 1⟩
          revisions := s.revisions.set (view, 1) (digest files)
          sources := s.sources.set (view, 1) d.sources
          actions := s.actions.set (view, 1) d.actions }
      | _ => some s

inductive RevisionEvent
  | creates (view : String) (surface : Surface) (d : Definition) (now : Int) (fate : Fate)
  | attempts (view : String) (expected : Nat) (c : Call) (now : Int) (fate : Fate)
  | deletes (view : String) (expected : Nat)
  /-- `reactivate` of an inline view, which makes no revision. -/
  | resumesInline (view : String) (expected : Nat) (expiresAt : Option Int) (now : Int)

def revisionNext (s : Repository) : RevisionEvent → Option Repository
  | .creates view surface d now fate => s.create view surface d now fate
  | .attempts view expected c now fate => some (s.attempt view expected c now fate).1
  | .deletes view expected =>
    match s.views.get? view with
    | some row =>
      if row.surface = .inline || row.latestRevision ≠ expected || row.status = .deleted then none
      else some { s with views := s.views.set view { row with status := .deleted } }
    | none => none
  | .resumesInline view expected expiresAt now =>
    match s.views.get? view with
    | some row =>
      if row.surface = .inline && row.latestRevision = expected then
        let status := if expiresAt.any (fun e => e ≤ now) then ViewStatus.expired else .active
        some { s with views := s.views.set view { row with status } }
      else none
    | none => none

end

end OpenAgent.Dashboards
