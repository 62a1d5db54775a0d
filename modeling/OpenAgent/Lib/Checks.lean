import Mathlib.Data.List.Basic

namespace Checks

universe u v w

variable {ε : Type u} {α : Type v} {β : Type w}

def refuse (condition : Bool) (problem : ε) : Except ε Unit := if condition then .error problem else .ok ()

def found (value : Option α) (problem : ε) : Except ε α :=
  match value with
  | some value => .ok value
  | none => .error problem

theorem refuse_eq_ok {condition : Bool} {problem : ε} {unit : Unit} (h : refuse condition problem = .ok unit) :
    condition = false := by
  cases condition with
  | false => rfl
  | true => cases h

theorem found_eq_ok {value : Option α} {problem : ε} {a : α} (h : found value problem = .ok a) : value = some a := by
  cases value with
  | none => cases h
  | some b =>
    cases h
    rfl

theorem bind_eq_ok {x : Except ε α} {f : α → Except ε β} {b : β} (h : x.bind f = .ok b) :
    ∃ a, x = .ok a ∧ f a = .ok b := by
  cases x with
  | error e => cases h
  | ok a => exact ⟨a, rfl, h⟩

end Checks
