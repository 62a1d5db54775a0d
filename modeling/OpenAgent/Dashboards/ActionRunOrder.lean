import OpenAgent.Dashboards.ActionRunHistory

namespace OpenAgent.Dashboards.Actions

open Py List

namespace ActionService

/-- One execution for a key, at most thirty runs of a slot created in a minute and four of them running, a status that
is written once and stands, and no run left running by a call that has ended. -/
structure Orderly (st : ActionService) : Prop where
  once : (st.executed.map (fun x => (x.slot, x.idempotencyKey))).Nodup
  recent : ∀ slot fromMs, st.table.countP (inMinute slot fromMs) ≤ maxPerMinute
  concurrent : ∀ slot, st.table.countP (isRunning slot st.nowMs) ≤ maxConcurrent
  terminal : Terminal st
  closed : ∀ i id out, st.stages i = .ended (some id) out → st.Settled id

def Clean (st : ActionService) (e : Event) : Prop :=
  (∀ id ∈ st.leaves e, st.Settled id) ∧ (st.rollsBack e = true → Kept st)

instance (st : ActionService) (id : RunId) : Decidable (st.Settled id) :=
  inferInstanceAs (Decidable (∀ run ∈ st.table ++ st.durable, run.id = id → run.status ≠ .running))

instance (st : ActionService) : Decidable st.Kept :=
  inferInstanceAs (Decidable (∀ run ∈ st.table, run.status ≠ .running →
    ∃ old ∈ st.durable, old.id = run.id ∧ old.status = run.status))

instance (st : ActionService) (e : Event) : Decidable (st.Clean e) :=
  inferInstanceAs (Decidable ((∀ id ∈ st.leaves e, st.Settled id) ∧ (st.rollsBack e = true → Kept st)))

section Steps

variable {st u : ActionService} {calls : CallId → Invocation} {e : Event}

theorem Sound.executed_once (hs : Sound st) : (st.executed.map (fun x => (x.slot, x.idempotencyKey))).Nodup := by
  have hkeys := hs.tables.rollback.keys
  rw [map_key_eq] at hkeys
  rw [List.Nodup, pairwise_map]
  refine (pairwise_map.mp hs.executedOnce).imp_of_mem (fun {x y} hx hy hne hkey => hne ?_)
  obtain ⟨t, ht⟩ := hs.executedRows x hx
  obtain ⟨t', ht'⟩ := hs.executedRows y hy
  exact congrArg Prod.fst (inj_on_of_nodup_map hkeys ht ht' hkey)

theorem Sound.orderly (hs : Sound st) (hter : Terminal st)
    (hclo : ∀ i id out, st.stages i = .ended (some id) out → st.Settled id) : Orderly st :=
  ⟨hs.executed_once, hs.tables.recent, fun slot => (hs.tables.concurrent slot).1, hter, hclo⟩

/-- The calls that end with a step are closed unless the step left a run that was not over. -/
theorem Acts.closed_iff {o : Owner} {rolls : Bool} {left : Option RunId} (ha : Acts st o rolls left u)
    (hclo : ∀ i id out, st.stages i = .ended (some id) out → st.Settled id) :
    (∀ i id out, u.stages i = .ended (some id) out → u.Settled id) ↔ ∀ id ∈ left, st.Settled id := by
  have hsame : ∀ id, left = some id → (u.Settled id ↔ st.Settled id) := by
    intro id hid
    obtain ⟨htab, hdur, _⟩ := ha.left id hid
    rw [Settled, htab, hdur]
    rfl
  constructor
  · intro h id hid
    obtain ⟨_, _, i, _, hi⟩ := ha.left id hid
    exact (hsame id hid).mp (h i id _ hi)
  intro h i id out hi
  by_cases hoi : o = .call i
  · rcases ha.ended i id out hoi hi with hid | hid
    · exact (hsame id hid).mpr (h id hid)
    · exact hid
  · rw [ha.others i hoi] at hi
    exact ha.settled i id (by rw [hi]; rfl) (hclo i id out hi)

theorem Sound.orderly_step (hs : Sound st) (ho : Orderly st) (h : next calls st e = some u) :
    Orderly u ↔ st.Clean e := by
  have hu := hs.after h
  rcases hs.steps h with ⟨o, ha⟩ | ⟨t, rfl, rfl⟩
  · have hter := ha.terminal ho.terminal
    have hclo := ha.closed_iff ho.closed
    exact ⟨fun h => ⟨hclo.mp h.closed, hter.mp h.terminal⟩, fun h => hu.orderly (hter.mpr h.2) (hclo.mpr h.1)⟩
  · exact iff_of_true (hu.orderly ho.terminal ho.closed) ⟨by simp [leaves], by simp [rollsBack]⟩

end Steps

/-- The runs are in order exactly when no cancellation leaves a run that is not over, in its admission, in the write of
its failure or in the shielded write, and no rollback discards a status that was written. -/
theorem action_runs_orderly_iff (calls : CallId → Invocation) {st : ActionService} (es : List Event)
    (h : Runs.run (next calls) {} es = some st) :
    (∀ pre post u, es = pre ++ post → Runs.run (next calls) {} pre = some u → Orderly u) ↔
      Runs.Meets (next calls) Clean {} es :=
  Runs.always_iff_meets (fun _ _ _ hs he => hs.after he) (fun _ _ _ hs ho he => hs.orderly_step ho he)
    Sound.initial (Sound.initial.orderly ⟨nodup_nil, by simp⟩ (by simp)) h

def sampleCalls : CallId → Invocation := fun _ => ⟨"tenant", "view", "send", "actor", "key"⟩

def admission (i : CallId) : List Event :=
  .resume i { definition := some 1 } :: List.replicate 6 (.resume i {})

def cancelledAction : List Event :=
  admission 0 ++ [.resume 0 {}, .cancel 0] ++ List.replicate 4 (.resumeTask 0) ++ [.resume 0 {}]

theorem cancelled_action_orderly : ∃ st, Runs.run (next sampleCalls) {} cancelledAction = some st ∧
      st.table.map ActionRun.status = [.failed] ∧ Orderly st :=
  ⟨_, rfl, rfl, (action_runs_orderly_iff sampleCalls cancelledAction rfl).mpr
    (Runs.meets_of_all (p := fun st e => decide (Clean st e)) (fun _ _ => of_decide_eq_true) (by decide))
    cancelledAction [] _ (append_nil _).symm rfl⟩

/-- A call cancelled in its admission commit ends and leaves its run running. -/
theorem cancelled_admission_hangs : ¬ ∀ (calls : CallId → Invocation) (es : List Event) (st : ActionService),
      Runs.run (next calls) {} es = some st → Orderly st := by
  intro h
  have hclo := (h sampleCalls (admission 0 ++ [.cancel 0]) _ rfl).closed 0 0 .cancelled rfl
  exact hclo _ (mem_cons_self) rfl rfl

end ActionService

end OpenAgent.Dashboards.Actions
