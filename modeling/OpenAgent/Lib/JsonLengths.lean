import Mathlib.Algebra.Order.BigOperators.Group.List
import OpenAgent.Lib.JsonDumps

namespace Py.Json

open List

def textLength (s : String) : Nat := (escape s.toList).length

def entryLength (e : String × Json) : Nat := textLength e.1 + (dumpsChars e.2).length + 6

def entriesLength (es : List (String × Json)) : Nat := (es.map entryLength).sum

def itemLength (j : Json) : Nat := (dumpsChars j).length + 2

def itemsLength (js : List Json) : Nat := (js.map itemLength).sum

@[simp] theorem entriesLength_nil : entriesLength [] = 0 := rfl

@[simp] theorem entriesLength_cons (e : String × Json) (es : List (String × Json)) :
    entriesLength (e :: es) = entryLength e + entriesLength es := rfl

@[simp] theorem entriesLength_append (es fs : List (String × Json)) :
    entriesLength (es ++ fs) = entriesLength es + entriesLength fs := by
  rw [entriesLength, map_append, sum_append]
  rfl

@[simp] theorem itemsLength_nil : itemsLength [] = 0 := rfl

@[simp] theorem itemsLength_cons (j : Json) (js : List Json) :
    itemsLength (j :: js) = itemLength j + itemsLength js := rfl

@[simp] theorem itemsLength_append (js ks : List Json) : itemsLength (js ++ ks) = itemsLength js + itemsLength ks := by
  rw [itemsLength, map_append, sum_append]
  rfl

theorem length_dumps (j : Json) : j.dumps.length = (dumpsChars j).length := by
  rw [dumps, String.length_ofList]

theorem length_dumpsItems (js : List Json) : (dumpsItems js).length = itemsLength js + 1 := by
  induction js with
  | nil => rfl
  | cons j js ih =>
    rw [dumpsItems, itemsLength_cons, itemLength]
    simp only [length_cons, length_append, ih]
    omega

theorem length_dumpsEntries (es : List (String × Json)) : (dumpsEntries es).length = entriesLength es + 1 := by
  induction es with
  | nil => rfl
  | cons e es ih =>
    obtain ⟨k, j⟩ := e
    rw [dumpsEntries, entriesLength_cons, entryLength, textLength]
    simp only [length_cons, length_append, ih]
    omega

theorem length_dumps_arr (js : List Json) : (dumpsChars (.arr js)).length = max 2 (itemsLength js) := by
  cases js with
  | nil => rfl
  | cons j js =>
    rw [dumpsChars, itemsLength_cons, itemLength]
    simp only [length_cons, length_append, length_dumpsItems]
    omega

theorem length_dumps_obj (e : String × Json) (es : List (String × Json)) :
    (dumpsChars (.obj (e :: es))).length = entriesLength (e :: es) := by
  obtain ⟨k, j⟩ := e
  rw [dumpsChars, entriesLength_cons, entryLength, textLength]
  simp only [length_cons, length_append, length_dumpsEntries]
  omega

theorem length_dumps_str (s : String) : (dumpsChars (.str s)).length = textLength s + 2 := by
  rw [dumpsChars, textLength]
  simp only [length_cons, length_append, length_nil]

theorem textLength_append (s t : String) : textLength (s ++ t) = textLength s + textLength t := by
  rw [textLength, textLength, textLength, String.toList_append, escape, flatMap_append, length_append]
  rfl

theorem textLength_prefixOf_le (n : Nat) (s : String) : textLength (prefixOf n s) ≤ textLength s := by
  have hcut : escape s.toList = escape (s.toList.take n) ++ escape (s.toList.drop n) := by
    rw [escape, escape, escape, ← flatMap_append, take_append_drop]
  rw [textLength, textLength, prefixOf, String.toList_ofList, hcut, length_append]
  exact Nat.le_add_right _ _

/-- A text that is continued and cut is the text before, cut, and what still has room of the rest. -/
theorem textLength_prefixOf_append_le (n : Nat) (s t : String) :
    textLength (prefixOf n (s ++ t)) ≤ textLength s + textLength (prefixOf (n - s.toList.length) t) := by
  have hcut : prefixOf n (s ++ t) = prefixOf n s ++ prefixOf (n - s.toList.length) t := by
    apply String.toList_injective
    simp only [prefixOf, String.toList_append, String.toList_ofList, take_append]
  rw [hcut, textLength_append]
  exact Nat.add_le_add_right (textLength_prefixOf_le n s) _

theorem textLength_le (s : String) : textLength s ≤ 12 * s.toList.length := by
  have hchar : ∀ c : Char, (escapeChar c).length ≤ 12 := by
    intro c
    unfold escapeChar
    split_ifs <;> simp [hex4]
  rw [textLength, escape]
  induction s.toList with
  | nil => exact Nat.le_refl _
  | cons c cs ih =>
    have hc := hchar c
    rw [flatMap_cons, length_append, length_cons]
    omega

theorem finiteEntries_iff (es : List (String × Json)) : finiteEntries es = true ↔ ∀ e ∈ es, e.2.finite = true := by
  induction es with
  | nil => simp [finiteEntries]
  | cons e es ih => simp [finiteEntries, ih]

theorem finiteItems_iff (js : List Json) : finiteItems js = true ↔ ∀ j ∈ js, j.finite = true := by
  induction js with
  | nil => simp [finiteItems]
  | cons j js ih => simp [finiteItems, ih]

end Py.Json
