import Mathlib.Data.List.Basic
import Mathlib.Data.List.Nodup

namespace Cuts

open List

universe u v

def piece {α : Type u} (rows : List α) (start stop : Nat) : List α := (rows.drop start).take (stop - start)

variable {α : Type u} {π : Type v} (start stop : π → Nat)

/-- Pages of which the first begins at one offset, each begins where the one before it ends, and the last ends at the
other offset. -/
def Joined : Nat → List π → Nat → Prop
  | begins, [], ends => begins = ends
  | begins, page :: pages, ends => start page = begins ∧ begins ≤ stop page ∧ Joined (stop page) pages ends

variable {start stop}

variable {pages : List π} {begins ends : Nat}

theorem Joined.le (h : Joined start stop begins pages ends) : begins ≤ ends := by
  induction pages generalizing begins with
  | nil => exact Nat.le_of_eq h
  | cons page pages ih => exact Nat.le_trans h.2.1 (ih h.2.2)

theorem piece_append (rows : List α) {a b c : Nat} (hab : a ≤ b) (hbc : b ≤ c) :
    piece rows a b ++ piece rows b c = piece rows a c := by
  have hdrop : rows.drop b = (rows.drop a).drop (b - a) := by rw [drop_drop, Nat.add_sub_cancel' hab]
  have hlen : c - a = (b - a) + (c - b) := by omega
  rw [piece, piece, piece, hdrop, hlen, take_add]

theorem piece_self (rows : List α) (a : Nat) : piece rows a a = [] := by simp [piece]

theorem Joined.flatMap_piece (rows : List α) (h : Joined start stop begins pages ends) :
    pages.flatMap (fun page => piece rows (start page) (stop page)) = piece rows begins ends := by
  induction pages generalizing begins with
  | nil =>
    cases h
    rw [piece_self]
    rfl
  | cons page pages ih =>
    obtain ⟨rfl, hle, hrest⟩ := h
    rw [flatMap_cons, ih hrest]
    exact piece_append rows hle hrest.le

theorem Joined.length_le (h : Joined start stop begins pages ends)
    (hmove : ∀ page ∈ pages, start page < stop page) : pages.length ≤ ends - begins := by
  induction pages generalizing begins with
  | nil => exact Nat.zero_le _
  | cons page pages ih =>
    obtain ⟨rfl, _, hrest⟩ := h
    have hpage := hmove page (mem_cons_self ..)
    have hle := hrest.le
    have hpag := ih hrest (fun other hmem => hmove other (mem_cons_of_mem _ hmem))
    rw [length_cons]
    omega

theorem piece_zero (rows : List α) (stop : Nat) : piece rows 0 stop = rows.take stop := by simp [piece]

theorem piece_map {β : Type v} (f : α → β) (rows : List α) (start stop : Nat) :
    piece (rows.map f) start stop = (piece rows start stop).map f := by
  rw [piece, piece, ← map_drop, ← map_take]

theorem take_drop_eq_piece (rows : List α) (offset limit : Nat) :
    (rows.drop offset).take limit = piece rows offset (offset + ((rows.drop offset).take limit).length) := by
  rw [piece, Nat.add_sub_cancel_left, length_take]
  rcases Nat.le_total limit (rows.drop offset).length with h | h
  · rw [Nat.min_eq_left h]
  · rw [Nat.min_eq_right h, take_of_length_le h, take_length]

end Cuts
