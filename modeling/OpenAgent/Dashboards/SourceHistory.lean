import OpenAgent.Dashboards.LiveData
import OpenAgent.Lib.JsonDumps

namespace OpenAgent.Dashboards

open Py List

def maxDataBytes : Nat := 1024 * 1024

/-- `_json` does not raise. -/
def jsonFits (value : Json) : Bool := value.finite && value.compactSorted.utf8ByteSize ≤ maxDataBytes

/-- How a source is configured to keep its values; `schema` is what `validate_output_value` lets through. -/
structure Keeping where
  mode : Mode
  maxItems : Nat
  positive : 1 ≤ maxItems
  bounded : maxItems ≤ maxAppendItems
  schema : Json → Bool := fun _ => true

structure SourceTick where
  value : Json
  generation : Nat := 0
  now : Int := 0
  expiresAt : Option Int := none
  /-- The name of the exception, if one is raised. -/
  code : String := "CustomViewInputError"

def itemsOf : Json → List Json
  | .arr items => items
  | v => [v]

def lastItems (n : Nat) (items : List Json) : List Json := items.drop (items.length - n)

namespace Keeping

variable (k : Keeping)

/-- The call of `_publish_source_value`. -/
def publication (t : SourceTick) : Publication :=
  .value t.generation ⟨t.value, k.mode, k.maxItems, fun v => jsonFits v && k.schema v, t.expiresAt⟩

def published (live : Option Datum) (t : SourceTick) : Option Datum := (k.publication t).datum live t.now

/-- A tick of a driver, which publishes an error where the value is refused. -/
def tick (live : Option Datum) (t : SourceTick) : Option Datum :=
  (k.published live t).or ((Publication.error t.generation t.code).datum live t.now)

def run (ts : List SourceTick) : Option Datum := ts.foldl k.tick none

def acceptable (t : SourceTick) : Bool :=
  match k.mode with
  | .merge => t.value.isObj
  | .append | .replace => jsonFits (.arr [t.value])

def fits (items : List Json) : Bool := jsonFits (.arr items) && k.schema (.arr items)

/-- The items so far, without those of a tick whose last items would not fit. -/
def stream (ts : List SourceTick) : List Json :=
  ts.foldl (fun all t =>
    if k.fits (lastItems k.maxItems (all ++ itemsOf t.value)) then all ++ itemsOf t.value else all) []

def mergeAll (ts : List SourceTick) : Json :=
  .obj (ts.foldl (fun all t =>
    match t.value with
    | .obj entries => entries.foldl (fun l e => Assoc.set l e.1 e.2) all
    | _ => all) [])

def Holds (ts : List SourceTick) (value : Json) : Prop :=
  match k.mode with
  | .merge => value = mergeAll ts
  | .append | .replace => ∃ kept, value = .arr kept ∧ kept <:+ k.stream ts ∧ kept.length ≤ k.maxItems

/-- Every acceptable tick is published, over all that came before it. -/
def Accumulates (ts : List SourceTick) : Prop :=
  ∀ pre t post, ts = pre ++ t :: post → k.acceptable t = true →
    ∃ d, k.published (k.run pre) t = some d ∧ k.Holds (pre ++ [t]) d.value

/-- Nothing is merged, and what an appended tick leaves of the items fits each time. -/
def Fits (ts : List SourceTick) : Prop :=
  ∀ pre t post, ts = pre ++ t :: post → k.acceptable t = true →
    k.mode ≠ .merge ∧ k.fits (lastItems k.maxItems (k.stream pre ++ itemsOf t.value)) = true

end Keeping

def valueOf (live : Option Datum) : Json := (live.map Datum.value).getD .null

theorem lastItems_append (n : Nat) (all more : List Json) :
    lastItems n (lastItems n all ++ more) = lastItems n (all ++ more) := by
  have hcut : lastItems n all ++ more = (all ++ more).drop (all.length - n) := by
    rw [lastItems, drop_append_of_le_length (Nat.sub_le _ _)]
  rw [hcut, lastItems, lastItems, drop_drop, length_drop, length_append]
  congr 1
  omega

variable {k : Keeping} {live : Option Datum} {t : SourceTick}

theorem valueOf_tick : valueOf (k.tick live t) = ((k.published live t).map Datum.value).getD (valueOf live) := by
  rw [Keeping.tick]
  cases k.published live t <;> rfl

theorem published_merge (hm : k.mode = .merge) (h : (valueOf live).isObj = false) : k.published live t = none := by
  have hmerge : applyDataMode (valueOf live) t.value k.mode k.maxItems = none := by
    unfold applyDataMode
    split
    · rfl
    · rw [hm]
      cases hv : valueOf live with
      | obj entries =>
        rw [hv] at h
        cases h
      | _ => rfl
  rw [Keeping.published, Keeping.publication, Publication.datum, Write.apply]
  exact congrArg (fun o => Option.map _ (Option.filter _ o)) hmerge

theorem run_concat (ts : List SourceTick) (t : SourceTick) : k.run (ts ++ [t]) = k.tick (k.run ts) t := by
  rw [Keeping.run, foldl_append]
  rfl

theorem stream_concat (ts : List SourceTick) (t : SourceTick) : k.stream (ts ++ [t]) =
    if k.fits (lastItems k.maxItems (k.stream ts ++ itemsOf t.value)) then k.stream ts ++ itemsOf t.value
    else k.stream ts := by
  rw [Keeping.stream, foldl_append]
  rfl

/-- Nothing is ever merged: the first object finds no object to be merged into. -/
theorem run_merge (hm : k.mode = .merge) (ts : List SourceTick) : valueOf (k.run ts) = .null := by
  induction ts using List.reverseRecOn with
  | nil => rfl
  | append_singleton ts t ih =>
    rw [run_concat, valueOf_tick, published_merge hm (by rw [ih]; rfl)]
    exact ih

/-- The list that a tick finds. -/
def heldItems : Json → List Json
  | .arr items => items
  | _ => []

theorem published_append (hm : k.mode = .append) : (k.published live t).map Datum.value =
    if k.fits (lastItems k.maxItems (heldItems (valueOf live) ++ itemsOf t.value)) then
      some (.arr (lastItems k.maxItems (heldItems (valueOf live) ++ itemsOf t.value))) else none := by
  have happend : applyDataMode (valueOf live) t.value k.mode k.maxItems =
      some (.arr (lastItems k.maxItems (heldItems (valueOf live) ++ itemsOf t.value))) := by
    have hin : (k.maxItems < 1 || k.maxItems > maxAppendItems) = false := by
      have := k.positive
      have := k.bounded
      simp
      omega
    unfold applyDataMode
    rw [hm, hin]
    cases valueOf live <;> cases t.value <;> rfl
  have hdatum : (k.published live t).map Datum.value = (applyDataMode (valueOf live) t.value k.mode k.maxItems).filter
      (fun v => jsonFits v && k.schema v) := by
    rw [Keeping.published, Keeping.publication, Publication.datum, Write.apply, Option.map_map]
    exact Option.map_id'
  rw [hdatum, happend, Option.filter_some]
  rfl

/-- A source that appends holds the last items of the stream. -/
theorem run_append (hm : k.mode = .append) (ts : List SourceTick) :
    heldItems (valueOf (k.run ts)) = lastItems k.maxItems (k.stream ts) := by
  induction ts using List.reverseRecOn with
  | nil => exact (drop_nil).symm
  | append_singleton ts t ih =>
    rw [run_concat, stream_concat, valueOf_tick, published_append hm, ih, lastItems_append]
    split
    · rfl
    · exact ih

theorem accumulates_iff (hm : k.mode ≠ .replace) (ts : List SourceTick) : k.Accumulates ts ↔ k.Fits ts := by
  refine forall_congr' fun pre => forall_congr' fun t => forall_congr' fun post => forall_congr' fun _ =>
    forall_congr' fun _ => ?_
  cases hmode : k.mode with
  | replace => exact absurd hmode hm
  | merge =>
    refine iff_of_false ?_ (fun h => h.1 rfl)
    rintro ⟨d, hd, _⟩
    rw [published_merge hmode (by rw [run_merge hmode]; rfl)] at hd
    cases hd
  | append =>
    have hpub := @published_append k (k.run pre) t hmode
    rw [run_append hmode, lastItems_append] at hpub
    constructor
    · rintro ⟨d, hd, _⟩
      rw [hd] at hpub
      refine ⟨Mode.noConfusion, ?_⟩
      by_contra hfit
      rw [if_neg hfit] at hpub
      cases hpub
    · rintro ⟨_, hfit⟩
      rw [if_pos hfit, Option.map_eq_some_iff] at hpub
      obtain ⟨d, hd, hvalue⟩ := hpub
      refine ⟨d, hd, ?_⟩
      rw [Keeping.Holds, hmode]
      refine ⟨_, hvalue, ?_, ?_⟩
      · rw [stream_concat, if_pos hfit]
        exact drop_suffix _ _
      · rw [lastItems, length_drop]
        omega

def lastTwo : Keeping := { mode := .append, maxItems := 2, positive := by decide, bounded := by decide }

theorem numbers_accumulate : lastTwo.Accumulates [⟨.int 1, 0, 0, none, ""⟩, ⟨.int 2, 0, 0, none, ""⟩] ↔
    lastTwo.Fits [⟨.int 1, 0, 0, none, ""⟩, ⟨.int 2, 0, 0, none, ""⟩] :=
  accumulates_iff (by decide) _

/-- The first object of a source that merges is refused. -/
theorem first_object_refused : ¬ ∀ k : Keeping, k.mode ≠ .replace → ∀ ts : List SourceTick, k.Accumulates ts := by
  intro h
  obtain ⟨d, hd, _⟩ := h { lastTwo with mode := .merge } (by decide) [⟨.obj [("count", .int 1)], 0, 0, none, ""⟩] []
    ⟨.obj [("count", .int 1)], 0, 0, none, ""⟩ [] rfl rfl
  cases hd

end OpenAgent.Dashboards
