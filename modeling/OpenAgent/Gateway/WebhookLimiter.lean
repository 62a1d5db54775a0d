import OpenAgent.Lib.Dict
import OpenAgent.Lib.Runs

namespace OpenAgent.Gateway

open Py List

/-- A call of `allow`; its moment, in milliseconds, is what `time.monotonic` reads. -/
structure HookCall where
  eventId : String
  limitPerMin : Int
  now : Int

/-- The deques of a `_RateLimiter`, and the calls that it has let pass until `now`. -/
structure RateLimiter where
  hits : Dict String (List Int) := Dict.empty
  now : Int := 0
  passed : List HookCall := []

namespace RateLimiter

def dq (hits : Dict String (List Int)) (eventId : String) : List Int := (hits.get? eventId).getD []

def allow (hits : Dict String (List Int)) (c : HookCall) : Dict String (List Int) × Bool :=
  if c.limitPerMin ≤ 0 then (hits, true)
  else
    let kept := (dq hits c.eventId).dropWhile (· < c.now - 60000)
    if c.limitPerMin ≤ kept.length then (hits.set c.eventId kept, false)
    else (hits.set c.eventId (kept ++ [c.now]), true)

def next (s : RateLimiter) (c : HookCall) : Option RateLimiter :=
  if c.now < s.now then none
  else
    let asked := allow s.hits c
    some ⟨asked.1, c.now, s.passed ++ if asked.2 then [c] else []⟩

/-- The moments at which an event was let pass under a limit. -/
def counted (eventId : String) (passed : List HookCall) : List Int :=
  (passed.filter (fun c => c.eventId = eventId && 0 < c.limitPerMin)).map HookCall.now

/-- The deques hold, in order, what counts in any minute that ends from now on. -/
structure Remembers (s : RateLimiter) : Prop where
  recent : ∀ eventId since, s.now - 60000 ≤ since →
    (dq s.hits eventId).filter (since ≤ ·) = (counted eventId s.passed).filter (since ≤ ·)
  sorted : ∀ eventId, (dq s.hits eventId).Pairwise (· ≤ ·)
  past : ∀ eventId, ∀ t ∈ dq s.hits eventId, t ≤ s.now

variable {s t : RateLimiter}

theorem dq_set (hits : Dict String (List Int)) (i j : String) (l : List Int) :
    dq (hits.set i l) j = if j = i then l else dq hits j := by
  rw [dq, Dict.get?_set]
  split <;> rfl

theorem dropWhile_lt {l : List Int} (h : l.Pairwise (· ≤ ·)) (c : Int) :
    l.dropWhile (· < c) = l.filter (c ≤ ·) := by
  induction l with
  | nil => rfl
  | cons x l ih =>
    obtain ⟨hx, hl⟩ := pairwise_cons.mp h
    rw [dropWhile_cons]
    split
    next hlt =>
      rw [ih hl, filter_cons_of_neg]
      simpa using hlt
    next hge =>
      have hcx : c ≤ x := by simpa using hge
      exact (filter_eq_self.mpr (by grind)).symm

theorem dq_allow (hs : s.Remembers) (c : HookCall) (j : String) : dq (allow s.hits c).1 j =
    if j = c.eventId ∧ 0 < c.limitPerMin then
      (dq s.hits j).filter (c.now - 60000 ≤ ·) ++ if (allow s.hits c).2 then [c.now] else []
    else dq s.hits j := by
  rw [← dropWhile_lt (hs.sorted j), allow]
  grind [dq_set]

theorem counted_concat (j : String) (passed : List HookCall) (c : HookCall) : counted j (passed ++ [c]) =
    counted j passed ++ if j = c.eventId ∧ 0 < c.limitPerMin then [c.now] else [] := by
  rw [counted, counted, filter_append, map_append]
  grind

theorem remembers_next {c : HookCall} (hs : s.Remembers) (h : s.next c = some t) : t.Remembers := by
  rw [next] at h
  split at h
  next => cases h
  next hnow =>
    cases h
    have hcounted : ∀ j, counted j (s.passed ++ if (allow s.hits c).2 then [c] else []) = counted j s.passed ++
        if (j = c.eventId ∧ 0 < c.limitPerMin) ∧ (allow s.hits c).2 = true then [c.now] else [] := by
      intro j
      grind [counted_concat]
    constructor
    · intro j since hsince
      have hrec := hs.recent j since (by dsimp at hsince; omega)
      dsimp only at hsince ⊢
      rw [dq_allow hs, hcounted, filter_append, ← hrec]
      split
      next hj =>
        rw [filter_append, filter_filter]
        congr 1
        · refine filter_congr fun x _ => ?_
          grind
        · grind
      next => grind
    · intro j
      dsimp only
      rw [dq_allow hs]
      have hsort := hs.sorted j
      have hpast := hs.past j
      grind
    · intro j x hx
      have hpast := hs.past j
      dsimp only at hx ⊢
      rw [dq_allow hs] at hx
      grind

/-- The deques answer as a count of all that ever passed would. -/
def Exact (s : RateLimiter) : Prop := ∀ c : HookCall, s.now ≤ c.now → ((allow s.hits c).2 = true ↔
  c.limitPerMin ≤ 0 ∨ ((counted c.eventId s.passed).countP (c.now - 60000 ≤ ·) : Int) < c.limitPerMin)

theorem Remembers.exact (hs : s.Remembers) : s.Exact := by
  intro c hnow
  have hrec := congrArg List.length (hs.recent c.eventId (c.now - 60000) (by omega))
  rw [countP_eq_length_filter, ← hrec, ← dropWhile_lt (hs.sorted _), allow]
  grind

def inMinute (eventId : String) (since : Int) (c : HookCall) : Bool :=
  c.eventId = eventId && since ≤ c.now && c.now ≤ since + 60000

/-- In any minute, no more calls pass for an event than the largest limit they pass under. -/
def Within (s : RateLimiter) : Prop := ∀ eventId since (limit : Nat),
  (∀ c ∈ s.passed, inMinute eventId since c → 0 < c.limitPerMin ∧ c.limitPerMin ≤ limit) →
    s.passed.countP (inMinute eventId since) ≤ limit

theorem within_next {c : HookCall} (hs : s.Remembers) (hw : s.Within) (h : s.next c = some t) : t.Within := by
  intro eventId since limit hlim
  rw [next] at h
  split at h
  next => cases h
  cases h
  have hle := hw eventId since limit fun d hd => hlim d (mem_append_left _ hd)
  dsimp only at hlim ⊢
  split at hlim
  next hallow =>
    rw [if_pos hallow, countP_append, countP_singleton]
    split
    next hin =>
      obtain ⟨hpos, hcl⟩ := hlim c (by simp) hin
      have hroom := ((hs.exact c (by omega)).mp hallow).resolve_left (by omega)
      have hcount : s.passed.countP (inMinute eventId since) ≤
          (counted c.eventId s.passed).countP (c.now - 60000 ≤ ·) := by
        rw [counted, countP_map, countP_filter]
        refine countP_mono_left fun d hd hind => ?_
        have hd := hlim d (mem_append_left _ hd) hind
        grind [inMinute]
      omega
    next => exact hle
  next hallow =>
    rw [if_neg hallow, append_nil]
    exact hle

theorem limiter_exact (h : Runs.Reaches next {} s) : s.Exact ∧ s.Within := by
  have hs : s.Remembers ∧ s.Within := Runs.invariant (I := fun s => s.Remembers ∧ s.Within)
    (fun _ _ _ hI he => ⟨remembers_next hI.1 he, within_next hI.1 hI.2 he⟩)
    ⟨⟨fun _ _ _ => rfl, fun _ => Pairwise.nil, fun _ _ h => by cases h⟩, fun _ _ _ _ => Nat.zero_le _⟩ h
  exact ⟨hs.1.exact, hs.2⟩

def hooks : List HookCall := [⟨"event", 1, 5⟩, ⟨"event", 1, 59000⟩, ⟨"event", 1, 60006⟩]

theorem hooks_exact : ∃ s, Runs.run next {} hooks = some s ∧ s.Exact ∧ s.Within := by
  have hrun : (Runs.run next {} hooks).isSome = true := by decide +kernel
  obtain ⟨s, hs⟩ := Option.isSome_iff_exists.mp hrun
  exact ⟨s, hs, limiter_exact ⟨_, hs⟩⟩

end RateLimiter

end OpenAgent.Gateway
