import Mathlib.Data.List.Sort
import Mathlib.Data.String.Basic
import OpenAgent.Lib.Dict
import OpenAgent.Lib.Text

namespace Py

open List

def isFloatRepr (r : String) : Bool :=
  r == "inf" || r == "-inf" || r == "nan" ||
    (r.toList.all (fun c => c.isDigit || c == '.' || c == 'e' || c == '+' || c == '-') &&
      r.toList.any (fun c => c == '.' || c == 'e'))

/-- A float is carried as its shortest representation, which determines it. -/
structure PyFloat where
  repr : String
  shape : isFloatRepr repr = true
deriving DecidableEq

inductive Json
  | null
  | bool (b : Bool)
  | int (n : Int)
  | float (f : PyFloat)
  | str (s : String)
  | arr (items : List Json)
  | obj (entries : List (String × Json))
deriving Inhabited

namespace Json

mutual

def decEq : (a b : Json) → Decidable (a = b)
  | .null, b => match b with
    | .null => isTrue rfl
    | .bool _ | .int _ | .float _ | .str _ | .arr _ | .obj _ => isFalse (by simp)
  | .bool x, b => match b with
    | .bool y => if h : x = y then isTrue (by rw [h]) else isFalse (by simpa using h)
    | .null | .int _ | .float _ | .str _ | .arr _ | .obj _ => isFalse (by simp)
  | .int x, b => match b with
    | .int y => if h : x = y then isTrue (by rw [h]) else isFalse (by simpa using h)
    | .null | .bool _ | .float _ | .str _ | .arr _ | .obj _ => isFalse (by simp)
  | .float x, b => match b with
    | .float y => if h : x = y then isTrue (by rw [h]) else isFalse (by simpa using h)
    | .null | .bool _ | .int _ | .str _ | .arr _ | .obj _ => isFalse (by simp)
  | .str x, b => match b with
    | .str y => if h : x = y then isTrue (by rw [h]) else isFalse (by simpa using h)
    | .null | .bool _ | .int _ | .float _ | .arr _ | .obj _ => isFalse (by simp)
  | .arr xs, b => match b with
    | .arr ys => match decEqList xs ys with
      | isTrue h => isTrue (by rw [h])
      | isFalse h => isFalse (by simpa using h)
    | .null | .bool _ | .int _ | .float _ | .str _ | .obj _ => isFalse (by simp)
  | .obj xs, b => match b with
    | .obj ys => match decEqEntries xs ys with
      | isTrue h => isTrue (by rw [h])
      | isFalse h => isFalse (by simpa using h)
    | .null | .bool _ | .int _ | .float _ | .str _ | .arr _ => isFalse (by simp)

def decEqList : (a b : List Json) → Decidable (a = b)
  | [], [] => isTrue rfl
  | [], _ :: _ | _ :: _, [] => isFalse (by simp)
  | x :: xs, y :: ys => match decEq x y, decEqList xs ys with
    | isTrue h, isTrue k => isTrue (by rw [h, k])
    | isFalse h, _ => isFalse (by simp [h])
    | _, isFalse k => isFalse (by simp [k])

def decEqEntries : (a b : List (String × Json)) → Decidable (a = b)
  | [], [] => isTrue rfl
  | [], _ :: _ | _ :: _, [] => isFalse (by simp)
  | (i, x) :: xs, (j, y) :: ys => match decEq x y, decEqEntries xs ys with
    | isTrue h, isTrue k => if hi : i = j then isTrue (by rw [h, k, hi]) else isFalse (by simp [hi])
    | isFalse h, _ => isFalse (by simp [h])
    | _, isFalse k => isFalse (by simp [k])

end

instance : DecidableEq Json := decEq

/-- `value.get(key)` on an object, with Python's `None` for a missing key and for any other value. -/
def field (j : Json) (k : String) : Json :=
  match j with
  | .obj entries => (Assoc.get? entries k).getD .null
  | _ => .null

/-- `key in value` for an object. -/
def has (j : Json) (k : String) : Bool :=
  match j with
  | .obj entries => (Assoc.get? entries k).isSome
  | _ => false

def isObj : Json → Bool
  | .obj _ => true
  | _ => false

def truthy : Json → Bool
  | .null => false
  | .bool b => b
  | .int n => n != 0
  | .float f => f.repr != "0.0" && f.repr != "-0.0"
  | .str s => s != ""
  | .arr items => !items.isEmpty
  | .obj entries => !entries.isEmpty

/-- Python's `a or b`. -/
def orElse (a b : Json) : Json := if a.truthy then a else b

mutual

def repr : Json → String
  | .null => "None"
  | .bool b => if b then "True" else "False"
  | .int n => toString n
  | .float f => f.repr
  | .str s => reprString s
  | .arr items => "[" ++ ", ".intercalate (reprList items) ++ "]"
  | .obj entries => "\x7b" ++ ", ".intercalate (reprEntries entries) ++ "\x7d"

def reprList : List Json → List String
  | [] => []
  | j :: js => repr j :: reprList js

def reprEntries : List (String × Json) → List String
  | [] => []
  | (k, j) :: es => (reprString k ++ ": " ++ repr j) :: reprEntries es

end

/-- Python's `str(value)`. -/
def pyStr : Json → String
  | .str s => s
  | j => repr j

mutual

def Everywhere (P : List (String × Json) → Prop) : Json → Prop
  | .arr items => EverywhereList P items
  | .obj entries => P entries ∧ EverywhereEntries P entries
  | _ => True

def EverywhereList (P : List (String × Json) → Prop) : List Json → Prop
  | [] => True
  | j :: js => Everywhere P j ∧ EverywhereList P js

def EverywhereEntries (P : List (String × Json) → Prop) : List (String × Json) → Prop
  | [] => True
  | (_, j) :: es => Everywhere P j ∧ EverywhereEntries P es

end

def KeysDistinct (j : Json) : Prop := j.Everywhere (fun entries => (entries.map Prod.fst).Nodup)

mutual

def nodeCount : Json → Nat
  | .arr items => 1 + nodeCountList items
  | .obj entries => 1 + nodeCountEntries entries
  | _ => 1

def nodeCountList : List Json → Nat
  | [] => 0
  | j :: js => nodeCount j + nodeCountList js

def nodeCountEntries : List (String × Json) → Nat
  | [] => 0
  | (_, j) :: es => nodeCount j + nodeCountEntries es

end

def setPath : List String → Json → Json → Json
  | [], value, _ => value
  | k :: ks, value, .obj entries =>
    .obj (Assoc.set entries k (setPath ks value ((Assoc.get? entries k).getD .null)))
  | _ :: _, _, j => j

def sortKeys (es : List (String × Json)) : List (String × Json) :=
  es.insertionSort (fun a b => a.1 ≤ b.1)

mutual

def canon : Json → Json
  | .arr items => .arr (canonList items)
  | .obj entries => .obj (sortKeys (canonEntries entries))
  | j => j

def canonList : List Json → List Json
  | [] => []
  | j :: js => canon j :: canonList js

def canonEntries : List (String × Json) → List (String × Json)
  | [] => []
  | (k, j) :: es => (k, canon j) :: canonEntries es

end

theorem canonEntries_eq_map (es : List (String × Json)) : canonEntries es = es.map (fun e => (e.1, canon e.2)) := by
  induction es with
  | nil => rfl
  | cons e es ih => rw [canonEntries, ih, map_cons]

theorem sortKeys_perm (es : List (String × Json)) : (sortKeys es).Perm es :=
  perm_insertionSort _ es

theorem sortKeys_pairwise (es : List (String × Json)) : (sortKeys es).Pairwise (fun a b => a.1 ≤ b.1) := by
  have : Std.Total (fun a b : String × Json => a.1 ≤ b.1) := ⟨fun a b => le_total a.1 b.1⟩
  have : IsTrans (String × Json) (fun a b => a.1 ≤ b.1) := ⟨fun _ _ _ h k => le_trans h k⟩
  exact pairwise_insertionSort _ es

variable {es : List (String × Json)}

theorem eq_of_mem_of_nodup (hn : (es.map Prod.fst).Nodup)
    {a b : String × Json} (ha : a ∈ es) (hb : b ∈ es) (h : a.1 = b.1) : a = b := by
  have hga := Assoc.get?_of_mem hn (k := a.1) (v := a.2) ha
  have hgb := Assoc.get?_of_mem hn (k := b.1) (v := b.2) hb
  rw [h, hgb] at hga
  exact Prod.ext h (Option.some.inj hga).symm

theorem sortKeys_eq_of_perm {es fs : List (String × Json)} (hn : (es.map Prod.fst).Nodup)
    (h : es.Perm fs) : sortKeys es = sortKeys fs := by
  refine List.Perm.eq_of_pairwise ?_ (sortKeys_pairwise es) (sortKeys_pairwise fs)
    ((sortKeys_perm es).trans (h.trans (sortKeys_perm fs).symm))
  intro a b ha hb hab hba
  have ha' := (sortKeys_perm es).mem_iff.mp ha
  have hb' := h.mem_iff.mpr ((sortKeys_perm fs).mem_iff.mp hb)
  exact eq_of_mem_of_nodup hn ha' hb' (le_antisymm hab hba)

theorem everywhereEntries_iff {P : List (String × Json) → Prop} (es : List (String × Json)) :
    EverywhereEntries P es ↔ ∀ e ∈ es, e.2.Everywhere P := by
  induction es with
  | nil => simp [EverywhereEntries]
  | cons e es ih => simp [EverywhereEntries, ih]

theorem nodeCountEntries_eq_sum (es : List (String × Json)) :
    nodeCountEntries es = (es.map (fun e => e.2.nodeCount)).sum := by
  induction es with
  | nil => rfl
  | cons e es ih => rw [nodeCountEntries, ih, map_cons, sum_cons]

theorem mem_canonEntries (hn : (es.map Prod.fst).Nodup) (k : String) (j : Json) :
    (k, j) ∈ canonEntries es ↔ (Assoc.get? es k).map canon = some j := by
  rw [canonEntries_eq_map, mem_map, Option.map_eq_some_iff]
  constructor
  · rintro ⟨⟨i, x⟩, he, h⟩
    cases h
    exact ⟨x, Assoc.get?_of_mem hn he, rfl⟩
  · rintro ⟨x, hx, rfl⟩
    exact ⟨(k, x), Assoc.mem_of_get? hx, rfl⟩

theorem canon_obj_ext {es fs : List (String × Json)} (hn : (es.map Prod.fst).Nodup) (hm : (fs.map Prod.fst).Nodup)
    (h : ∀ k, (Assoc.get? es k).map canon = (Assoc.get? fs k).map canon) :
    canon (.obj es) = canon (.obj fs) := by
  have hkeys : ∀ gs : List (String × Json), (canonEntries gs).map Prod.fst = gs.map Prod.fst := by
    intro gs
    rw [canonEntries_eq_map, map_map]
    rfl
  have hperm : (canonEntries es).Perm (canonEntries fs) := by
    rw [perm_ext_iff_of_nodup]
    · rintro ⟨k, j⟩
      rw [mem_canonEntries hn, mem_canonEntries hm, h]
    · exact List.Nodup.of_map Prod.fst (by rw [hkeys]; exact hn)
    · exact List.Nodup.of_map Prod.fst (by rw [hkeys]; exact hm)
  rw [canon, canon, sortKeys_eq_of_perm _ hperm]
  rw [hkeys]
  exact hn

/-- A JSON document in which, as in Python, no object has a key twice. -/
structure Doc where
  json : Json
  distinct : json.KeysDistinct

end Json

end Py
