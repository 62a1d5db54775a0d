import OpenAgent.Lib.Dict

open Py

universe u

structure Call (α : Type u) where
  sent : α
  aborted : Bool := false

structure Calls (α : Type u) where
  pending : Dict Nat (Call α)
  controller : Option Nat
  next : Nat
  fresh : ∀ id, next ≤ id → pending.get? id = none

namespace Calls

variable {α : Type u}

def empty : Calls α := ⟨Dict.empty, none, 0, fun _ _ => rfl⟩

/-- `controller?.abort()`. -/
def abort (c : Calls α) : Calls α where
  pending := c.pending.mapEntries fun id call => { call with aborted := call.aborted || c.controller = some id }
  controller := c.controller
  next := c.next
  fresh id h := by rw [Dict.get?_mapEntries, c.fresh id h, Option.map_none]

/-- `controller = null`. -/
def drop (c : Calls α) : Calls α := { c with controller := none }

def start (c : Calls α) (a : α) : Calls α where
  pending := c.pending.set c.next ⟨a, false⟩
  controller := some c.next
  next := c.next + 1
  fresh id h := by rw [Dict.get?_set_of_ne _ _ (by omega), c.fresh id (by omega)]

def settle (c : Calls α) (id : Nat) : Calls α where
  pending := c.pending.erase id
  controller := c.controller
  next := c.next
  fresh j h := by
    rw [Dict.get?_erase]
    split
    · rfl
    · exact c.fresh j h

/-- `if (controller === own) controller = null`. -/
def finish (c : Calls α) (id : Nat) : Calls α := if c.controller = some id then c.drop else c

def Live (c : Calls α) (id : Nat) (a : α) : Prop := c.pending.get? id = some ⟨a, false⟩

def Single (c : Calls α) : Prop := ∀ id a, c.Live id a → c.controller = some id

theorem single_empty : (empty : Calls α).Single := fun _ _ h => by cases h

variable {c : Calls α} {id own : Nat} {a : α}

theorem live_abort (h : c.abort.Live id a) : c.Live id a ∧ c.controller ≠ some id := by
  rw [Live, abort, Dict.get?_mapEntries] at h
  obtain ⟨call, hget, hcall⟩ := Option.map_eq_some_iff.mp h
  rw [Call.mk.injEq, Bool.or_eq_false_iff, decide_eq_false_iff_not] at hcall
  obtain ⟨hsent, hlive, hoth⟩ := hcall
  refine ⟨?_, hoth⟩
  rw [Live, hget]
  cases call
  cases hsent
  cases hlive
  rfl

theorem Single.abort (h : c.Single) (id : Nat) (a : α) : ¬ c.abort.Live id a := by
  intro hl
  obtain ⟨hlive, hoth⟩ := live_abort hl
  exact hoth (h id a hlive)

theorem live_start {b : α} : (c.start b).Live id a ↔ (id = c.next ∧ a = b) ∨ c.Live id a := by
  rw [Live, start, Dict.get?_set]
  split
  · next hid =>
      have hnot : ¬ c.Live id a := by
        rw [Live, hid, c.fresh c.next (Nat.le_refl _)]
        exact fun he => by cases he
      rw [Option.some.injEq, Call.mk.injEq]
      constructor
      · exact fun he => .inl ⟨hid, he.1.symm⟩
      rintro (he | he)
      · exact ⟨he.2.symm, rfl⟩
      · exact absurd he hnot
  next hid =>
    constructor
    · exact .inr
    rintro (he | he)
    · exact absurd he.1 hid
    · exact he

theorem live_settle : (c.settle own).Live id a ↔ id ≠ own ∧ c.Live id a := by
  rw [Live, settle, Dict.get?_erase]
  split
  · next hid => exact iff_of_false (fun he => by cases he) (fun he => he.1 hid)
  · next hid => exact ⟨fun he => ⟨hid, he⟩, And.right⟩

theorem live_finish : (c.finish own).Live id a ↔ c.Live id a := by
  rw [finish]
  split <;> rfl

theorem single_start (h : ∀ id a, ¬ c.Live id a) (b : α) : (c.start b).Single := by
  intro id a hl
  rcases live_start.mp hl with ⟨rfl, -⟩ | hl
  · rfl
  · exact absurd hl (h id a)

theorem Single.start (h : c.Single) (b : α) : (c.abort.start b).Single := single_start h.abort b

theorem Single.settle (h : c.Single) (own : Nat) : (c.settle own).Single :=
  fun id a hl => h id a (live_settle.mp hl).2

theorem Single.finish (h : c.Single) (hown : ∀ a, ¬ c.Live own a) : (c.finish own).Single := by
  intro id a hl
  rw [live_finish] at hl
  have hcon := h id a hl
  rw [Calls.finish, if_neg]
  · exact hcon
  intro he
  have hid : id = own := Option.some.inj (hcon.symm.trans he)
  exact hown a (hid ▸ hl)

theorem not_live_settle {c d : Calls α} {own : Nat} (h : d = c.settle own) (a : α) : ¬ d.Live own a := by
  rw [h]
  exact fun hl => (live_settle.mp hl).1 rfl

theorem not_live_start {call : Call α} (hget : c.pending.get? own = some call) (hs : c.Single)
    (b a : α) : ¬ ((c.settle own).abort.start b).Live own a := by
  intro hl
  rcases live_start.mp hl with ⟨hown, -⟩ | hl
  · have hnone := c.fresh own (Nat.le_of_eq hown.symm)
    rw [hget] at hnone
    cases hnone
  · exact (hs.settle own).abort own a hl

theorem single_of_none (h : ∀ id a, ¬ c.Live id a) : c.Single := fun id a hl => absurd hl (h id a)

theorem Single.settle_none (h : c.Single) {b : α} (hown : c.Live own b) (id : Nat) (a : α) :
    ¬ (c.settle own).Live id a := by
  intro hl
  obtain ⟨hne, hlive⟩ := live_settle.mp hl
  exact hne (Option.some.inj ((h id a hlive).symm.trans (h own b hown)))

theorem live_of_aborted {call : Call α} (hget : c.pending.get? own = some call)
    (habo : call.aborted = true) (h : c.Live id a) : (c.settle own).Live id a := by
  refine live_settle.mpr ⟨?_, h⟩
  rintro rfl
  rw [Live, hget, Option.some.injEq] at h
  rw [h] at habo
  cases habo

end Calls
