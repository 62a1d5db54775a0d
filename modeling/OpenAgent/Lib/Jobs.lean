import OpenAgent.Lib.Dict

universe u v

structure Job (κ : Type u) (α : Type v) where
  key : κ
  data : α
  cancelled : Bool := false
  finished : Bool := false

def Job.cancel {κ : Type u} {α : Type v} (x : Job κ α) : Job κ α := { x with cancelled := true }

def Job.finish {κ : Type u} {α : Type v} (x : Job κ α) : Job κ α := { x with finished := true }

structure Jobs (κ : Type u) (α : Type v) [DecidableEq κ] where
  jobs : List (Job κ α) := []
  slot : Py.Dict κ Nat := Py.Dict.empty

namespace Jobs

open Py.Dict

variable {κ : Type u} {α : Type v} [DecidableEq κ]

inductive Op (κ : Type u) (α : Type v)
  | none
  | launch (k : κ) (data : α)
  | take (k : κ)
  | finish (i : Nat)
  | report (i : Nat)

def launch (j : Jobs κ α) (k : κ) (data : α) : Jobs κ α :=
  ⟨j.jobs ++ [{ key := k, data }], j.slot.set k j.jobs.length⟩

def take (j : Jobs κ α) (k : κ) : Jobs κ α :=
  match j.slot.get? k with
  | some i => ⟨j.jobs.modify i Job.cancel, j.slot.erase k⟩
  | Option.none => j

def finish (j : Jobs κ α) (i : Nat) : Jobs κ α :=
  { j with jobs := j.jobs.modify i Job.finish }

def report (j : Jobs κ α) (i : Nat) : Jobs κ α :=
  match j.jobs[i]? with
  | some x => if j.slot.get? x.key = some i then { j with slot := j.slot.erase x.key } else j
  | Option.none => j

def apply (j : Jobs κ α) : Op κ α → Jobs κ α
  | .none => j
  | .launch k data => j.launch k data
  | .take k => j.take k
  | .finish i => j.finish i
  | .report i => j.report i

def Running (j : Jobs κ α) (i : Nat) (k : κ) : Prop :=
  ∃ x, j.jobs[i]? = some x ∧ x.key = k ∧ x.finished = false

def Cancelled (j : Jobs κ α) (i : Nat) : Prop := ∃ x, j.jobs[i]? = some x ∧ x.cancelled = true

def Sound (j : Jobs κ α) : Prop := ∀ k i, j.slot.get? k = some i → ∃ x, j.jobs[i]? = some x ∧ x.key = k

def Exclusive (j : Jobs κ α) : Prop := ∀ i k, j.Running i k → j.slot.get? k = some i

def Covered (j : Jobs κ α) : Prop := ∀ i k, j.Running i k → j.slot.get? k = some i ∨ j.Cancelled i

def idle (j : Jobs κ α) (k : κ) : Bool :=
  (j.slot.get? k).all (fun i => (j.jobs[i]?).all Job.finished)

variable {j : Jobs κ α} {i n : Nat} {k l : κ} {data : α}

theorem idle_iff (h : j.Sound) : j.idle k = true ↔ ∀ i, j.slot.get? k = some i → ¬ j.Running i k := by
  constructor
  · intro hidle i hi hrun
    obtain ⟨x, hx, _, hf⟩ := hrun
    rw [idle, hi, Option.all_some, hx, Option.all_some, hf] at hidle
    cases hidle
  intro hnone
  rw [idle]
  cases hi : j.slot.get? k with
  | none => rfl
  | some i =>
    obtain ⟨x, hx, hk⟩ := h k i hi
    rw [Option.all_some, hx, Option.all_some]
    cases hf : x.finished with
    | true => rfl
    | false => exact absurd ⟨x, hx, hk, hf⟩ (hnone i hi)

theorem Exclusive.unique (h : j.Exclusive) (hi : j.Running i k) (hn : j.Running n k) : i = n := by
  have hslot := h i k hi
  rw [h n k hn] at hslot
  exact (Option.some.inj hslot).symm

theorem running_launch : (j.launch k data).Running i l ↔ j.Running i l ∨ (i = j.jobs.length ∧ l = k) := by
  unfold Running launch
  rcases Nat.lt_trichotomy i j.jobs.length with hi | hi | hi
  · simp only [List.getElem?_append_left hi]
    constructor
    · exact .inl
    rintro (h | ⟨rfl, _⟩)
    · exact h
    · exact absurd hi (Nat.lt_irrefl _)
  · subst hi
    rw [List.getElem?_concat_length, List.getElem?_eq_none (Nat.le_refl _)]
    constructor
    · rintro ⟨x, hx, rfl, _⟩
      cases hx
      exact .inr ⟨rfl, rfl⟩
    rintro (⟨x, hx, _⟩ | ⟨_, rfl⟩)
    · cases hx
    · exact ⟨_, rfl, rfl, rfl⟩
  rw [List.getElem?_eq_none (by simpa using Nat.succ_le_of_lt hi), List.getElem?_eq_none (Nat.le_of_lt hi)]
  constructor
  · rintro ⟨x, hx, _⟩
    cases hx
  rintro (⟨x, hx, _⟩ | ⟨rfl, _⟩)
  · cases hx
  · exact absurd hi (Nat.lt_irrefl _)

theorem running_take : (j.take k).Running i l ↔ j.Running i l := by
  unfold take
  cases j.slot.get? k with
  | none => rfl
  | some n =>
    unfold Running
    rw [List.getElem?_modify]
    by_cases hn : n = i
    · subst hn
      cases j.jobs[n]? <;> simp [Job.cancel]
    · simp [hn]

theorem running_finish : (j.finish n).Running i l ↔ n ≠ i ∧ j.Running i l := by
  unfold Running finish
  rw [List.getElem?_modify]
  by_cases hn : n = i
  · subst hn
    cases j.jobs[n]? <;> simp [Job.finish]
  · simp [hn]

theorem running_report : (j.report n).Running i l ↔ j.Running i l := by
  unfold report
  split
  · split <;> rfl
  · rfl

theorem slot_report (hn : ¬ j.Running n l) (h : j.Running i l) :
    (j.report n).slot.get? l = some i ↔ j.slot.get? l = some i := by
  rw [report.eq_def]
  split
  next x hx =>
    by_cases hslot : j.slot.get? x.key = some n
    · rw [if_pos hslot]
      by_cases hl : l = x.key
      · subst hl
        have hi : i ≠ n := by
          rintro rfl
          exact hn h
        simp [hslot, Ne.symm hi]
      · rw [get?_erase_of_ne _ hl]
    · rw [if_neg hslot]
  next => rfl

theorem Sound.launch (h : j.Sound) : (j.launch k data).Sound := by
  intro l i hi
  rw [Jobs.launch, get?_set] at hi
  by_cases hl : l = k
  · subst hl
    rw [if_pos rfl] at hi
    cases hi
    exact ⟨_, List.getElem?_concat_length, rfl⟩
  rw [if_neg hl] at hi
  obtain ⟨x, hx, hk⟩ := h l i hi
  exact ⟨x, by rw [Jobs.launch, List.getElem?_append_left (List.getElem?_eq_some_iff.mp hx).1, hx], hk⟩

theorem Sound.modify (h : j.Sound) (f : Job κ α → Job κ α) (hf : ∀ x, (f x).key = x.key) (n : Nat) :
    Sound { j with jobs := j.jobs.modify n f } := by
  intro l i hi
  obtain ⟨x, hx, hk⟩ := h l i hi
  dsimp only
  rw [List.getElem?_modify, hx]
  by_cases hn : n = i
  · exact ⟨f x, by simp [hn], (hf x).trans hk⟩
  · exact ⟨x, by simp [hn], hk⟩

theorem Sound.erase (h : j.Sound) : Sound { j with slot := j.slot.erase k } := by
  intro l i hi
  dsimp only at hi
  rw [get?_erase] at hi
  split at hi
  · cases hi
  · exact h l i hi

theorem Sound.apply (h : j.Sound) (op : Op κ α) : (j.apply op).Sound := by
  cases op with
  | none => exact h
  | launch k data => exact h.launch
  | take k =>
    rw [Jobs.apply, take.eq_def]
    split
    · exact (h.modify Job.cancel (fun _ => rfl) _).erase
    · exact h
  | finish i => exact h.modify Job.finish (fun _ => rfl) i
  | report i =>
    rw [Jobs.apply, report.eq_def]
    split
    · split
      · exact h.erase
      · exact h
    · exact h

theorem exclusive_launch_iff (hs : j.Sound) (h : j.Exclusive) : (j.launch k data).Exclusive ↔ j.idle k = true := by
  rw [idle_iff hs]
  constructor
  · intro hnew i hi hrun
    have hslot := hnew i k (running_launch.mpr (.inl hrun))
    rw [launch, get?_set_self] at hslot
    obtain ⟨x, hx, _⟩ := hrun
    exact absurd (List.getElem?_eq_some_iff.mp hx).1 (Nat.not_lt.mpr (Nat.le_of_eq (Option.some.inj hslot)))
  intro hidle i l hrun
  rcases running_launch.mp hrun with hold | ⟨rfl, rfl⟩
  · have hslot := h i l hold
    have hl : l ≠ k := by
      rintro rfl
      exact hidle i hslot hold
    rw [launch, get?_set_of_ne _ _ hl, hslot]
  · rw [launch, get?_set_self]

theorem exclusive_take_iff (hs : j.Sound) (h : j.Exclusive) : (j.take k).Exclusive ↔ j.idle k = true := by
  rw [idle_iff hs]
  constructor
  · intro hnew i hi hrun
    have hslot := hnew i k (running_take.mpr hrun)
    rw [take, hi, get?_erase_self] at hslot
    cases hslot
  intro hidle i l hrun
  have hold := running_take.mp hrun
  have hslot := h i l hold
  have hl : l ≠ k := by
    rintro rfl
    exact hidle i hslot hold
  rw [take.eq_def]
  split
  · rw [get?_erase_of_ne _ hl, hslot]
  · exact hslot

theorem Exclusive.finish (h : j.Exclusive) (n : Nat) : (j.finish n).Exclusive := by
  intro i l hrun
  exact h i l (running_finish.mp hrun).2

theorem Exclusive.report (h : j.Exclusive) (hn : ∀ l, ¬ j.Running n l) : (j.report n).Exclusive := by
  intro i l hrun
  have hold := running_report.mp hrun
  exact (slot_report (hn l) hold).mpr (h i l hold)

def quiet (j : Jobs κ α) : Op κ α → Bool
  | .launch k _ | .take k => j.idle k
  | _ => true

def Reports (j : Jobs κ α) : Op κ α → Prop
  | .report n => ∀ l, ¬ j.Running n l
  | _ => True

theorem exclusive_apply_iff (hs : j.Sound) (h : j.Exclusive) {op : Op κ α} (hr : j.Reports op) :
    (j.apply op).Exclusive ↔ j.quiet op = true := by
  cases op with
  | none => exact ⟨fun _ => rfl, fun _ => h⟩
  | launch k data => exact exclusive_launch_iff hs h
  | take k => exact exclusive_take_iff hs h
  | finish n => exact ⟨fun _ => rfl, fun _ => h.finish n⟩
  | report n => exact ⟨fun _ => rfl, fun _ => h.report hr⟩

theorem take_cancels (hs : j.slot.get? k = some i) (h : j.Running i k) : (j.take k).Cancelled i := by
  obtain ⟨x, hx, _⟩ := h
  refine ⟨x.cancel, ?_, rfl⟩
  rw [take, hs]
  dsimp only
  rw [List.getElem?_modify, hx]
  simp

theorem Cancelled.apply (h : j.Cancelled i) (op : Op κ α) : (j.apply op).Cancelled i := by
  obtain ⟨x, hx, hc⟩ := h
  cases op with
  | none => exact ⟨x, hx, hc⟩
  | launch k data =>
    refine ⟨x, ?_, hc⟩
    rw [Jobs.apply, launch, List.getElem?_append_left (List.getElem?_eq_some_iff.mp hx).1, hx]
  | take k =>
    rw [Jobs.apply, take.eq_def]
    split
    next n hn =>
      unfold Cancelled
      rw [List.getElem?_modify, hx]
      by_cases hi : n = i <;> simp [hi, hc, Job.cancel]
    next => exact ⟨x, hx, hc⟩
  | finish n =>
    unfold Cancelled
    rw [Jobs.apply, finish, List.getElem?_modify, hx]
    by_cases hi : n = i <;> simp [hi, hc, Job.finish]
  | report n =>
    rw [Jobs.apply, report.eq_def]
    split
    · split
      · exact ⟨x, hx, hc⟩
      · exact ⟨x, hx, hc⟩
    · exact ⟨x, hx, hc⟩

/-- Where only a launch waits for an idle key, a running job outside its slot was cancelled. -/
theorem Covered.apply (hs : j.Sound) (h : j.Covered) {op : Op κ α} (hr : j.Reports op)
    (hl : ∀ k data, op = .launch k data → j.idle k = true) : (j.apply op).Covered := by
  intro i l hrun
  cases op with
  | none => exact h i l hrun
  | launch k data =>
    rcases running_launch.mp hrun with hold | ⟨rfl, rfl⟩
    · rcases h i l hold with hslot | hc
      · left
        have hl : l ≠ k := by
          rintro rfl
          exact (idle_iff hs).mp (hl l data rfl) i hslot hold
        rw [Jobs.apply, launch, get?_set_of_ne _ _ hl, hslot]
      · exact .inr (hc.apply (.launch k data))
    · left
      rw [Jobs.apply, launch, get?_set_self]
  | take k =>
    have hold := running_take.mp hrun
    rcases h i l hold with hslot | hc
    · by_cases hk : l = k
      · subst hk
        exact .inr (take_cancels hslot hold)
      · left
        rw [Jobs.apply, take.eq_def]
        split
        · rw [get?_erase_of_ne _ hk, hslot]
        · exact hslot
    · exact .inr (hc.apply (.take k))
  | finish n =>
    rcases h i l (running_finish.mp hrun).2 with hslot | hc
    · exact .inl hslot
    · exact .inr (hc.apply (.finish n))
  | report n =>
    have hold := running_report.mp hrun
    rcases h i l hold with hslot | hc
    · exact .inl ((slot_report (hr l) hold).mpr hslot)
    · exact .inr (hc.apply (.report n))

theorem Covered.take_cancels (h : j.Covered) (hrun : j.Running i k) : (j.take k).Cancelled i := by
  rcases h i k hrun with hslot | hc
  · exact Jobs.take_cancels hslot hrun
  · exact hc.apply (.take k)

theorem Exclusive.covered (h : j.Exclusive) : j.Covered := fun i k hrun => .inl (h i k hrun)

end Jobs
