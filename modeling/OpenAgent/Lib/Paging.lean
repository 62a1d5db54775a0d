import Mathlib.Data.List.Basic
import Mathlib.Data.List.Infix
import Mathlib.Order.Monotone.Defs

namespace Paging

open List

universe u v

section Walk

variable {β : Type v} (next : Nat → Option (List β × Bool)) (step : Nat)

/-- The pages at `offset`, `offset + step`, and so on while there is more; `none` if one of them
is refused, or the fuel is used up. -/
def walk : Nat → Nat → Option (List β)
  | 0, _ => none
  | fuel + 1, offset =>
    match next offset with
    | some (views, true) => (walk fuel (offset + step)).map (views ++ ·)
    | some (views, false) => some views
    | none => none

theorem walk_congr {next next' : Nat → Option (List β × Bool)} {step : Nat} (last : Nat)
    (hmore : ∀ offset views, next offset = some (views, true) → offset + step ≤ last)
    (h : ∀ offset, offset ≤ last → next offset = next' offset) (fuel offset : Nat) (ho : offset ≤ last) :
    walk next step fuel offset = walk next' step fuel offset := by
  induction fuel generalizing offset with
  | zero => rfl
  | succ fuel ih =>
    rw [walk, walk, ← h offset ho]
    cases hn : next offset with
    | none => rfl
    | some page =>
      obtain ⟨views, more⟩ := page
      cases more with
      | false => rfl
      | true =>
        dsimp only
        rw [ih (offset + step) (hmore offset views hn)]

theorem walk_map {γ : Type u} (f : β → γ) (fuel offset : Nat) : (walk next step fuel offset).map (List.map f) =
      walk (fun o => (next o).map (fun r => (r.1.map f, r.2))) step fuel offset := by
  induction fuel generalizing offset with
  | zero => rfl
  | succ fuel ih =>
    rw [walk, walk]
    cases hn : next offset with
    | none => rfl
    | some page =>
      obtain ⟨views, more⟩ := page
      cases more with
      | false => rfl
      | true =>
        dsimp only [Option.map_some]
        rw [← ih, Option.map_map, Option.map_map]
        apply congrArg (fun g => Option.map g _)
        funext rest
        simp

end Walk

section Found

variable {α : Type u} (bound : Nat → Nat) (p : α → Bool) (rows : List α)

/-- What passes among the candidates for the first `n` results. -/
def found (n : Nat) : List α := (rows.take (bound n)).filter p

def page (limit offset : Nat) : List α × Bool :=
  let visible := found bound p rows (offset + limit)
  ((visible.drop offset).take limit, decide (offset + limit < visible.length))

/-- The candidates for the first `n` results hold more than these. -/
def More (n : Nat) : Prop := n < (found bound p rows n).length

instance (n : Nat) : Decidable (More bound p rows n) := inferInstanceAs (Decidable (_ < _))

theorem found_append (n : Nat) : found bound p rows n ++ (rows.drop (bound n)).filter p = rows.filter p := by
  rw [found, ← filter_append, take_append_drop]

theorem found_length_le (n : Nat) : (found bound p rows n).length ≤ rows.length := by
  have h := congrArg List.length (found_append bound p rows n)
  have hp := length_filter_le p rows
  rw [length_append] at h
  omega

variable {bound p rows}

theorem found_isPrefix (hb : Monotone bound) {m n : Nat} (h : m ≤ n) : found bound p rows m <+: found bound p rows n := by
  have ht : rows.take (bound m) <+: rows.take (bound n) := take_prefix_take_left (hb h)
  exact ht.filter p

theorem found_eq_iff (n : Nat) : found bound p rows n = rows.filter p ↔ ∀ a ∈ rows.drop (bound n), p a = false := by
  have h := found_append bound p rows n
  constructor
  · intro he
    rw [he, append_right_eq_self, filter_eq_nil_iff] at h
    intro a ha
    simpa using h a ha
  intro hnone
  have hrest : (rows.drop (bound n)).filter p = [] := by
    rw [filter_eq_nil_iff]
    intro a ha
    simp [hnone a ha]
  rw [← h, hrest, append_nil]

theorem walk_from (hb : Monotone bound) {limit : Nat} (hl : 0 < limit) (fuel i : Nat) (hfuel : rows.length < fuel + i)
    (hmore : ∀ j, j < i → More bound p rows ((j + 1) * limit)) :
    ∃ k, i ≤ k ∧ ¬ More bound p rows ((k + 1) * limit) ∧ (∀ j, j < k → More bound p rows ((j + 1) * limit)) ∧
      walk (fun offset => some (page bound p rows limit offset)) limit fuel (i * limit) =
        some ((found bound p rows ((k + 1) * limit)).drop (i * limit)) := by
  induction fuel generalizing i with
  | zero =>
    -- each page with more has shown a row of its own
    cases i with
    | zero => omega
    | succ i =>
      have hlast := hmore i (Nat.lt_succ_self i)
      have hle := found_length_le bound p rows ((i + 1) * limit)
      have hpos : i + 1 ≤ (i + 1) * limit := Nat.le_mul_of_pos_right _ hl
      rw [More] at hlast
      omega
  | succ fuel ih =>
    have hend : i * limit + limit = (i + 1) * limit := (Nat.succ_mul i limit).symm
    have hpage : page bound p rows limit (i * limit) =
        (((found bound p rows ((i + 1) * limit)).drop (i * limit)).take limit,
          decide (More bound p rows ((i + 1) * limit))) := by
      rw [page, hend]
      rfl
    by_cases hm : More bound p rows ((i + 1) * limit)
    · have hmore' : ∀ j, j < i + 1 → More bound p rows ((j + 1) * limit) := by
        intro j hj
        rcases Nat.lt_succ_iff_lt_or_eq.mp hj with hj | rfl
        · exact hmore j hj
        · exact hm
      obtain ⟨k, hk, hstop, hbef, hwalk⟩ := ih (i + 1) (by omega) hmore'
      refine ⟨k, by omega, hstop, hbef, ?_⟩
      rw [walk, hpage, decide_eq_true hm]
      dsimp only
      rw [hend, hwalk, Option.map_some, Option.some.injEq]
      obtain ⟨rest, hrest⟩ : found bound p rows ((i + 1) * limit) <+: found bound p rows ((k + 1) * limit) :=
        found_isPrefix hb (Nat.mul_le_mul_right limit (by omega))
      rw [More] at hm
      rw [← hrest, drop_append_of_le_length (by omega), drop_append_of_le_length (by omega),
        ← append_assoc, ← hend, ← drop_drop, take_append_drop]
    refine ⟨i, le_rfl, hm, hmore, ?_⟩
    rw [walk, hpage, decide_eq_false hm]
    dsimp only
    rw [More] at hm
    rw [take_of_length_le]
    rw [length_drop]
    omega

/-- The pages together are everything that passes exactly if no page ends the walk while
something passes after its candidates. -/
theorem walk_complete_iff (hb : Monotone bound) {limit : Nat} (hl : 0 < limit) {fuel : Nat} (hfuel : rows.length < fuel) :
    ∃ views, walk (fun offset => some (page bound p rows limit offset)) limit fuel 0 = some views ∧
      views <+: rows.filter p ∧ (views = rows.filter p ↔
        ∀ i, ¬ More bound p rows ((i + 1) * limit) → ∀ a ∈ rows.drop (bound ((i + 1) * limit)), p a = false) := by
  obtain ⟨k, _, hstop, hbef, hwalk⟩ := walk_from (p := p) hb hl fuel 0 (by omega) nofun
  rw [Nat.zero_mul, drop_zero] at hwalk
  refine ⟨_, hwalk, ⟨_, found_append bound p rows _⟩, ?_⟩
  constructor
  · intro hall i hi
    have hki : k ≤ i := by
      by_contra hlt
      exact hi (hbef i (by omega))
    -- the candidates only grow, so a later page leaves nothing out either
    have hpre : found bound p rows ((k + 1) * limit) <+: found bound p rows ((i + 1) * limit) :=
      found_isPrefix hb (Nat.mul_le_mul_right limit (by omega))
    rw [← found_eq_iff]
    apply List.IsPrefix.eq_of_length_le ⟨_, found_append bound p rows ((i + 1) * limit)⟩
    rw [← hall]
    exact hpre.length_le
  · intro hrest
    exact (found_eq_iff _).mpr (hrest k hstop)

end Found

end Paging
