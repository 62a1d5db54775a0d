import OpenAgent.Lib.Json

namespace OpenAgent.Gateway.Collaboration

open Py

/-- `KINDS`. -/
inductive Kind
  | session
  | workflow
  | scheduledTask
  | event
deriving DecidableEq

namespace Kind

def text : Kind → String
  | .session => "session"
  | .workflow => "workflow"
  | .scheduledTask => "scheduled_task"
  | .event => "event"

def ofText (s : String) : Option Kind :=
  [session, workflow, scheduledTask, event].find? (fun k => k.text = s)

end Kind

structure Target where
  kind : Kind
  id : String
deriving DecidableEq

def isAlphanumeric (c : Char) : Bool :=
  ('A' ≤ c && c ≤ 'Z') || ('a' ≤ c && c ≤ 'z') || ('0' ≤ c && c ≤ '9')

/-- `IDENTIFIER.fullmatch`. -/
def isIdentifier (s : String) : Bool :=
  match s.toList with
  | [] => false
  | c :: cs => isAlphanumeric c && cs.length ≤ 127 && cs.all (fun c => isAlphanumeric c || "_.:@-".toList.contains c)

/-- `target_key`; `none` where it raises `ValueError`. -/
def targetKey : Json → Option Target
  | .obj entries =>
    if (entries.map Prod.fst).Perm ["kind", "id"] then
      match (Json.obj entries).field "kind", (Json.obj entries).field "id" with
      | .str kind, .str id =>
        (Kind.ofText kind).bind (fun k => if isIdentifier id then some ⟨k, id⟩ else none)
      | _, _ => none
    else none
  | _ => none

def Target.json (t : Target) : Json := .obj [("kind", .str t.kind.text), ("id", .str t.id)]

/-- What a policy answers, and `authorize` hands on. -/
structure Access where
  userId : String
  name : String
  allowed : List Target

/-- `authorize` on an answer of the policy; `none` where it raises. -/
def authorize (targets : List Target) (result : Access) : Option Access :=
  if targets.any (fun t => !isIdentifier t.id) then none
  else if result.userId = "" || result.userId.length > 1024 || result.name.length > 1024
      || result.allowed.length > targets.length || result.allowed.any (fun t => !targets.contains t) then none
  else some result

theorem authorize_eq_some {targets : List Target} {result access : Access}
    (h : authorize targets result = some access) :
    access = result ∧ ∀ t ∈ result.allowed, t ∈ targets := by
  rw [authorize] at h
  split_ifs at h with _ hsco
  simp only [Bool.or_eq_true, not_or, List.any_eq_true, not_exists, not_and] at hsco
  refine ⟨(Option.some.inj h).symm, fun t ht => ?_⟩
  simpa using hsco.2 t ht

end OpenAgent.Gateway.Collaboration
