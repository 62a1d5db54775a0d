import OpenAgent.Dashboards.ActionRuns
import OpenAgent.Lib.Runs
import Mathlib.Data.List.Infix
import Mathlib.Data.List.Nodup

namespace OpenAgent.Dashboards.Actions

open Py List Stage

def ActionRun.ident (run : ActionRun) : RunId × (ActionSlot × String) × Nat :=
  (run.id, (run.slot, run.idempotencyKey), run.createdAtMs)

def inMinute (slot : ActionSlot) (fromMs : Nat) (run : ActionRun) : Bool :=
  run.slot = slot && fromMs ≤ run.createdAtMs && run.createdAtMs ≤ fromMs + 60000

/-- What holds of the two tables, the time and the statuses that were written. -/
structure Tables (nowMs : Nat) (table durable : List ActionRun) (written : List (RunId × RunStatus)) : Prop where
  initial : durable.map ActionRun.ident <+: table.map ActionRun.ident
  ids : (table.map ActionRun.id).Nodup
  keys : (table.map (fun run => (run.slot, run.idempotencyKey))).Nodup
  recent : ∀ slot fromMs, table.countP (inMinute slot fromMs) ≤ maxPerMinute
  concurrent : ∀ slot, table.countP (isRunning slot nowMs) ≤ maxConcurrent ∧
    durable.countP (isRunning slot nowMs) ≤ maxConcurrent
  logged : ∀ run ∈ table ++ durable, run.status ≠ .running → (run.id, run.status) ∈ written

section Tables

variable {nowMs : Nat} {table durable : List ActionRun} {written : List (RunId × RunStatus)} {c : Completion}
  {run : ActionRun}

theorem Completion.apply_ident (c : Completion) (nowMs : Nat) (run : ActionRun) :
    (c.apply nowMs run).ident = run.ident := by
  rw [Completion.apply]
  split
  · rfl
  · rfl

theorem map_apply_ident (c : Completion) (nowMs : Nat) (l : List ActionRun) :
    (l.map (c.apply nowMs)).map ActionRun.ident = l.map ActionRun.ident := by
  rw [map_map]
  exact map_congr_left (fun run _ => c.apply_ident nowMs run)

theorem map_id_eq (l : List ActionRun) : l.map ActionRun.id = (l.map ActionRun.ident).map Prod.fst := by
  rw [map_map]
  rfl

theorem map_key_eq (l : List ActionRun) :
    l.map (fun run => (run.slot, run.idempotencyKey)) = (l.map ActionRun.ident).map (fun x => x.2.1) := by
  rw [map_map]
  rfl

theorem countP_inMinute_eq (l : List ActionRun) (slot : ActionSlot) (fromMs : Nat) :
    l.countP (inMinute slot fromMs) = (l.map ActionRun.ident).countP
      (fun x => x.2.1.1 = slot && fromMs ≤ x.2.2 && x.2.2 ≤ fromMs + 60000) := by
  rw [countP_map]
  rfl

theorem Completion.status_ne (c : Completion) : c.status ≠ .running := by
  rw [Completion.status]
  split
  · split
    · exact RunStatus.noConfusion
    · exact RunStatus.noConfusion
  · exact RunStatus.noConfusion

theorem isRunning_apply {slot : ActionSlot} {t : Nat} (h : isRunning slot t (c.apply nowMs run) = true) :
    isRunning slot t run = true := by
  rw [Completion.apply] at h
  split at h
  · have hsta := c.status_ne
    simp [isRunning, hsta] at h
  · exact h

theorem isRunning_later {slot : ActionSlot} {t : Nat} (h : isRunning slot (nowMs + t) run = true) :
    isRunning slot nowMs run = true := by
  simp only [isRunning, Bool.and_eq_true, decide_eq_true_eq] at h ⊢
  exact ⟨h.1, by omega⟩

theorem Tables.tick (h : Tables nowMs table durable written) (t : Nat) : Tables (nowMs + t) table durable written := by
  refine ⟨h.initial, h.ids, h.keys, h.recent, fun slot => ⟨?_, ?_⟩, h.logged⟩
  · exact (countP_mono_left (fun _ _ => isRunning_later)).trans (h.concurrent slot).1
  · exact (countP_mono_left (fun _ _ => isRunning_later)).trans (h.concurrent slot).2

theorem Tables.commit (h : Tables nowMs table durable written) : Tables nowMs table table written := by
  refine ⟨prefix_rfl, h.ids, h.keys, h.recent, fun slot => ⟨(h.concurrent slot).1, (h.concurrent slot).1⟩, ?_⟩
  intro run hrun
  rw [mem_append, or_self] at hrun
  exact h.logged run (mem_append_left _ hrun)

theorem Tables.rollback (h : Tables nowMs table durable written) : Tables nowMs durable durable written := by
  have hsub := h.initial.sublist
  refine ⟨prefix_rfl, ?_, ?_, fun slot fromMs => ?_,
    fun slot => ⟨(h.concurrent slot).2, (h.concurrent slot).2⟩, ?_⟩
  · have hids := h.ids
    rw [map_id_eq] at hids ⊢
    exact (hsub.map _).nodup hids
  · have hkeys := h.keys
    rw [map_key_eq] at hkeys ⊢
    exact (hsub.map _).nodup hkeys
  · have hrec := h.recent slot fromMs
    rw [countP_inMinute_eq] at hrec ⊢
    exact hsub.countP_le.trans hrec
  · intro run hrun
    rw [mem_append, or_self] at hrun
    exact h.logged run (mem_append_right _ hrun)

theorem mem_map_apply (h : run ∈ table.map (c.apply nowMs)) : run ∈ table ∨
    run.id = c.runId ∧ run.status = c.status ∧ ∃ old ∈ table, old.id = c.runId ∧ old.status = .running := by
  obtain ⟨old, hold, rfl⟩ := mem_map.mp h
  rw [Completion.apply]
  split
  · rename_i hruns
    exact .inr ⟨hruns.1, rfl, old, hold, hruns⟩
  · exact .inl hold

theorem Tables.update (h : Tables nowMs table durable written) (c : Completion) (t : Nat) :
    Tables nowMs (table.map (c.apply t)) durable (written ++
      if table.any (fun run => run.id = c.runId ∧ run.status = .running) then [(c.runId, c.status)] else []) := by
  refine ⟨?_, ?_, ?_, fun slot fromMs => ?_, fun slot => ⟨?_, (h.concurrent slot).2⟩, ?_⟩
  · rw [map_apply_ident]
    exact h.initial
  · rw [map_id_eq, map_apply_ident, ← map_id_eq]
    exact h.ids
  · rw [map_key_eq, map_apply_ident, ← map_key_eq]
    exact h.keys
  · rw [countP_inMinute_eq, map_apply_ident, ← countP_inMinute_eq]
    exact h.recent slot fromMs
  · rw [countP_map]
    exact (countP_mono_left (fun _ _ => isRunning_apply)).trans (h.concurrent slot).1
  · intro run hrun hsta
    rcases mem_append.mp hrun with hrun | hrun
    · rcases mem_map_apply hrun with hrun | ⟨hid, hst, old, hold, hruns⟩
      · exact mem_append_left _ (h.logged run (mem_append_left _ hrun) hsta)
      · refine mem_append_right _ ?_
        rw [if_pos (any_eq_true.mpr ⟨old, hold, decide_eq_true hruns⟩), hid, hst]
        exact mem_singleton_self _
    · exact mem_append_left _ (h.logged run (mem_append_right _ hrun) hsta)

theorem Tables.insert (h : Tables nowMs table durable written)
    (hid : run.id ∉ table.map ActionRun.id) (hkey : table.any (sameKey run.slot run.idempotencyKey) = false)
    (hsta : run.status = .running) (hcre : run.createdAtMs ≤ nowMs)
    (hrec : table.countP (isRecent run.slot (run.createdAtMs - 60000)) < maxPerMinute)
    (hrun : table.countP (isRunning run.slot run.createdAtMs) < maxConcurrent) :
    Tables nowMs (table ++ [run]) durable written := by
  have hfre : (run.slot, run.idempotencyKey) ∉ table.map (fun run => (run.slot, run.idempotencyKey)) := by
    intro hmem
    obtain ⟨old, hold, heq⟩ := mem_map.mp hmem
    rw [Prod.mk.injEq] at heq
    rw [← Bool.not_eq_true] at hkey
    exact hkey (any_eq_true.mpr ⟨old, hold, by simp [sameKey, heq.1, heq.2]⟩)
  refine ⟨?_, ?_, ?_, fun slot fromMs => ?_, fun slot => ⟨?_, (h.concurrent slot).2⟩, ?_⟩
  · rw [map_append]
    exact h.initial.trans (prefix_append _ _)
  · rw [map_append, map_singleton, ← concat_eq_append]
    exact h.ids.concat hid
  · rw [map_append, map_singleton, ← concat_eq_append]
    exact h.keys.concat hfre
  · rw [countP_append, countP_singleton]
    split
    · rename_i hin
      simp only [inMinute, Bool.and_eq_true, decide_eq_true_eq] at hin
      obtain ⟨⟨rfl, hfrom⟩, hto⟩ := hin
      have hmono : table.countP (inMinute run.slot fromMs) ≤
          table.countP (isRecent run.slot (run.createdAtMs - 60000)) := by
        refine countP_mono_left (fun old _ hold => ?_)
        simp only [inMinute, isRecent, Bool.and_eq_true, decide_eq_true_eq] at hold ⊢
        exact ⟨hold.1.1, by omega⟩
      omega
    · exact h.recent slot fromMs
  · rw [countP_append, countP_singleton]
    split
    · rename_i hin
      simp only [isRunning, Bool.and_eq_true, decide_eq_true_eq] at hin
      obtain ⟨⟨rfl, _⟩, _⟩ := hin
      have hmono : table.countP (isRunning run.slot nowMs) ≤ table.countP (isRunning run.slot run.createdAtMs) := by
        refine countP_mono_left (fun old _ hold => ?_)
        simp only [isRunning, Bool.and_eq_true, decide_eq_true_eq] at hold ⊢
        exact ⟨hold.1, by omega⟩
      omega
    · exact (h.concurrent slot).1
  · intro old hold hne
    rw [mem_append, mem_append, mem_singleton] at hold
    rcases hold with (hold | rfl) | hold
    · exact h.logged old (mem_append_left _ hold) hne
    · exact absurd hsta hne
    · exact h.logged old (mem_append_right _ hold) hne

end Tables

namespace FinishStage

def holds (f : FinishStage) : Bool :=
  match f with
  | updating | committing => true
  | connecting | locking _ | done => false

end FinishStage

namespace Stage

def run? (stage : Stage) : Option RunId :=
  match stage with
  | looking run _ | counting run _ _ | inserting run _ | rollingBack run | committing run => some run.id
  | executing runId | shielding runId _ => some runId
  | completing c _ | failing c _ => some c.runId
  | ended created _ => created
  | defining | connecting _ | locking _ | authorizing _ | rereading _ => none

def created (stage : Stage) : Option RunId :=
  match stage with
  | inserting run true | committing run => some run.id
  | executing runId | shielding runId _ => some runId
  | completing c _ | failing c _ => some c.runId
  | ended created _ => created
  | _ => none

def ran (stage : Stage) : Option RunId :=
  match stage with
  | executing runId | shielding runId _ => some runId
  | completing c _ | failing c _ => some c.runId
  | ended created _ => created
  | _ => none

def holds (stage : Stage) : Bool :=
  match stage with
  | authorizing _ | looking _ _ | counting _ _ _ | inserting _ _ | rollingBack _ | rereading _ | committing _ => true
  | completing _ f | failing _ f => f.holds
  | _ => false

theorem run?_of_created {stage : Stage} {id : RunId} (h : stage.created = some id) : stage.run? = some id := by
  cases stage with
  | inserting run inserted =>
    cases inserted with
    | true => exact h
    | false => cases h
  | committing | executing | completing | failing | shielding | ended => exact h
  | _ => cases h

theorem created_of_ran {stage : Stage} {id : RunId} (h : stage.ran = some id) : stage.created = some id := by
  cases stage with
  | executing | completing | failing | shielding | ended => exact h
  | _ => cases h

end Stage

namespace ActionService

def Settled (st : ActionService) (id : RunId) : Prop :=
  ∀ run ∈ st.table ++ st.durable, run.id = id → run.status ≠ .running

/-- How far a `finish_action_run` has come. -/
def Progressed (st : ActionService) (c : Completion) (f : FinishStage) : Prop :=
  (f = .updating → ∀ run ∈ st.table, run.id = c.runId → run.status ≠ .running) ∧
    (f = .committing ∨ f = .done → st.Settled c.runId)

def Fits (st : ActionService) (stage : Stage) : Prop :=
  match stage with
  | .looking run _ | .inserting run false => run.status = .running ∧ run.createdAtMs ≤ st.nowMs
  | .inserting run true => run.ident ∈ st.table.map ActionRun.ident
  | .committing run => run.ident ∈ st.durable.map ActionRun.ident
  | .counting run recent running => run.status = .running ∧ run.createdAtMs ≤ st.nowMs ∧
      recent = st.table.countP (isRecent run.slot (run.createdAtMs - 60000)) ∧
        running = st.table.countP (isRunning run.slot run.createdAtMs)
  | .completing c f | .failing c f => st.Progressed c f
  | .shielding runId k => ∃ task, st.tasks[k]? = some task ∧ task.completion.runId = runId
  | _ => True

structure Sound (st : ActionService) : Prop where
  tables : Tables st.nowMs st.table st.durable st.written
  drawn : ∀ i id, (st.stages i).run? = some id → id < st.runs
  apart : ∀ i j id, (st.stages i).run? = some id → (st.stages j).run? = some id → i = j
  owned : ∀ run ∈ st.table ++ st.durable, ∃ i, (st.stages i).created = some run.id
  holder : ∀ i, (st.stages i).holds = true → st.lock = some (.call i)
  taskHolder : ∀ k task, st.tasks[k]? = some task → task.stage.holds = true → st.lock = some (.task k)
  fits : ∀ i, st.Fits (st.stages i)
  taskFits : ∀ (k : Nat) (task : FinishTask), st.tasks[k]? = some task → st.Progressed task.completion task.stage
  taskOwned : ∀ (k : Nat) (task : FinishTask), st.tasks[k]? = some task →
    ∃ i, (st.stages i).created = some task.completion.runId
  executedRows : ∀ x ∈ st.executed, ∃ t, (x.runId, (x.slot, x.idempotencyKey), t) ∈ st.durable.map ActionRun.ident
  executedOnce : (st.executed.map Execution.runId).Nodup
  executedRan : ∀ x ∈ st.executed, ∃ i, (st.stages i).ran = some x.runId

def Terminal (st : ActionService) : Prop :=
  (st.written.map Prod.fst).Nodup ∧ ∀ x ∈ st.written, x.2 ≠ .running ∧ ∃ run ∈ st.table, run.id = x.1 ∧ run.status = x.2

def Kept (st : ActionService) : Prop :=
  ∀ run ∈ st.table, run.status ≠ .running → ∃ old ∈ st.durable, old.id = run.id ∧ old.status = run.status

/-- A step of a call or a task, which may roll the connection back and may leave a run behind: the others stay where
they are, and the tables change in the hands of the lock only. -/
structure Acts (st : ActionService) (o : Owner) (rolls : Bool) (left : Option RunId) (u : ActionService) : Prop where
  others : ∀ j, o ≠ .call j → u.stages j = st.stages j
  runs : st.runs ≤ u.runs
  run : ∀ i id, o = .call i → (u.stages i).run? = some id → (st.stages i).run? = some id ∨ st.runs ≤ id ∧ id < u.runs
  created : ∀ i id, o = .call i → (st.stages i).created = some id → (u.stages i).created = some id
  ran : ∀ i id, o = .call i → (st.stages i).ran = some id → (u.stages i).ran = some id
  fits : ∀ i, o = .call i → u.Fits (u.stages i)
  holds : ∀ i, o = .call i → (u.stages i).holds = true → u.lock = some (.call i)
  tasks : ∀ k task, u.tasks[k]? = some task → o ≠ .task k ∧ st.tasks[k]? = some task ∨
    u.Progressed task.completion task.stage ∧ (task.stage.holds = true → u.lock = some (.task k)) ∧
      ∃ i, (st.stages i).created = some task.completion.runId
  tasksKept : ∀ (k : Nat) (task : FinishTask), st.tasks[k]? = some task →
    ∃ task', u.tasks[k]? = some task' ∧ task'.completion.runId = task.completion.runId
  lock : u.lock = st.lock ∨ st.lock = none ∨ st.lock = some o
  data : u.table = st.table ∧ u.durable = st.durable ∨ st.lock = none ∨ st.lock = some o
  now : u.nowMs = st.nowMs
  tables : Tables u.nowMs u.table u.durable u.written
  settled : ∀ i id, (st.stages i).created = some id → st.Settled id → u.Settled id
  rows : ∀ run ∈ u.table ++ u.durable, (∃ old ∈ st.table ++ st.durable, old.id = run.id) ∨
    ∃ i, o = .call i ∧ (u.stages i).created = some run.id
  durable : ∀ x ∈ st.durable.map ActionRun.ident, x ∈ u.durable.map ActionRun.ident
  executed : u.executed = st.executed ∨ ∃ i run, o = .call i ∧ st.stages i = .committing run ∧
    (u.stages i).ran = some run.id ∧ u.executed = st.executed ++ [⟨run.id, run.slot, run.idempotencyKey⟩]
  terminal : Terminal st → (Terminal u ↔ (rolls = true → Kept st))
  ended : ∀ i id out, o = .call i → u.stages i = .ended (some id) out → left = some id ∨ u.Settled id
  left : ∀ id, left = some id → u.table = st.table ∧ u.durable = st.durable ∧
    ∃ i, o = .call i ∧ u.stages i = .ended (some id) .cancelled

section Steps

variable {st u : ActionService} {o : Owner} {rolls : Bool} {left : Option RunId} {c : Completion} {f : FinishStage}
  {stage : Stage}

theorem Progressed.keep (h : st.Progressed c f) (hheld : f.holds = true → u.table = st.table ∧ u.durable = st.durable)
    (hset : st.Settled c.runId → u.Settled c.runId) : u.Progressed c f := by
  refine ⟨fun hf => ?_, fun hf => hset (h.2 hf)⟩
  rw [(hheld (hf ▸ rfl)).1]
  exact h.1 hf

theorem Fits.keep (h : st.Fits stage) (hheld : stage.holds = true → u.table = st.table ∧ u.durable = st.durable)
    (hnow : u.nowMs = st.nowMs) (hset : ∀ id, stage.created = some id → st.Settled id → u.Settled id)
    (htas : ∀ (k : Nat) (task : FinishTask), st.tasks[k]? = some task →
      ∃ task', u.tasks[k]? = some task' ∧ task'.completion.runId = task.completion.runId) : u.Fits stage := by
  cases stage with
  | looking run existing =>
    rw [Fits, hnow]
    exact h
  | inserting run inserted =>
    cases inserted with
    | true =>
      rw [Fits, (hheld rfl).1]
      exact h
    | false =>
      rw [Fits, hnow]
      exact h
  | committing run =>
    rw [Fits, (hheld rfl).2]
    exact h
  | counting run recent running =>
    rw [Fits, (hheld rfl).1, hnow]
    exact h
  | completing _ _ | failing _ _ => exact Progressed.keep h hheld (hset _ rfl)
  | shielding runId k =>
    obtain ⟨task, htask, hid⟩ := h
    obtain ⟨task', htask', hid'⟩ := htas k task htask
    exact ⟨task', htask', hid'.trans hid⟩
  | _ => trivial

theorem Sound.acts (hs : Sound st) (ha : Acts st o rolls left u) : Sound u := by
  -- whoever else has the lock is not disturbed
  have hlock : ∀ o', o ≠ o' → st.lock = some o' → u.lock = some o' ∧ u.table = st.table ∧ u.durable = st.durable := by
    intro o' hne hheld
    refine ⟨?_, ?_⟩
    · rcases ha.lock with h | h | h
      · exact h.trans hheld
      · rw [hheld] at h
        cases h
      · rw [hheld, Option.some_inj] at h
        exact absurd h.symm hne
    rcases ha.data with h | h | h
    · exact h
    · rw [hheld] at h
      cases h
    · rw [hheld, Option.some_inj] at h
      exact absurd h.symm hne
  have hrun : ∀ j id, (u.stages j).run? = some id → (st.stages j).run? = some id ∨
      o = .call j ∧ st.runs ≤ id ∧ id < u.runs := by
    intro j id h
    by_cases hj : o = .call j
    · rcases ha.run j id hj h with h | h
      · exact .inl h
      · exact .inr ⟨hj, h⟩
    · rw [ha.others j hj] at h
      exact .inl h
  have hcre : ∀ j id, (st.stages j).created = some id → (u.stages j).created = some id := by
    intro j id h
    by_cases hj : o = .call j
    · exact ha.created j id hj h
    · rw [ha.others j hj]
      exact h
  have hran : ∀ j id, (st.stages j).ran = some id → (u.stages j).ran = some id := by
    intro j id h
    by_cases hj : o = .call j
    · exact ha.ran j id hj h
    · rw [ha.others j hj]
      exact h
  refine ⟨ha.tables, ?_, ?_, ?_, ?_, ?_, ?_, ?_, ?_, ?_, ?_, ?_⟩
  · intro i id h
    rcases hrun i id h with h | h
    · exact (hs.drawn i id h).trans_le ha.runs
    · exact h.2.2
  · intro i j id hi hj
    rcases hrun i id hi with hi | hi <;> rcases hrun j id hj with hj | hj
    · exact hs.apart i j id hi hj
    · exact absurd (hs.drawn i id hi) (Nat.not_lt.mpr hj.2.1)
    · exact absurd (hs.drawn j id hj) (Nat.not_lt.mpr hi.2.1)
    · have hsame := hi.1.symm.trans hj.1
      rw [Owner.call.injEq] at hsame
      exact hsame
  · intro run hmem
    rcases ha.rows run hmem with ⟨old, hold, hid⟩ | ⟨i, _, hi⟩
    · obtain ⟨i, hi⟩ := hs.owned old hold
      exact ⟨i, hid ▸ hcre i _ hi⟩
    · exact ⟨i, hi⟩
  · intro i hi
    by_cases hoi : o = .call i
    · exact ha.holds i hoi hi
    · rw [ha.others i hoi] at hi
      exact (hlock _ hoi (hs.holder i hi)).1
  · intro k task htask hheld
    rcases ha.tasks k task htask with ⟨hok, htask⟩ | ⟨_, hnew, _⟩
    · exact (hlock _ hok (hs.taskHolder k task htask hheld)).1
    · exact hnew hheld
  · intro i
    by_cases hoi : o = .call i
    · exact ha.fits i hoi
    rw [ha.others i hoi]
    exact (hs.fits i).keep (fun hheld => (hlock _ hoi (hs.holder i hheld)).2) ha.now (ha.settled i) ha.tasksKept
  · intro k task htask
    rcases ha.tasks k task htask with ⟨hok, htask⟩ | ⟨hnew, _⟩
    · obtain ⟨i, hi⟩ := hs.taskOwned k task htask
      exact (hs.taskFits k task htask).keep (fun hheld => (hlock _ hok (hs.taskHolder k task htask hheld)).2)
        (ha.settled i _ hi)
    · exact hnew
  · intro k task htask
    rcases ha.tasks k task htask with ⟨_, htask⟩ | ⟨_, _, i, hi⟩
    · obtain ⟨i, hi⟩ := hs.taskOwned k task htask
      exact ⟨i, hcre i _ hi⟩
    · exact ⟨i, hcre i _ hi⟩
  · intro x hx
    rcases ha.executed with he | ⟨i, run, hoi, hstage, _, he⟩
    · obtain ⟨t, ht⟩ := hs.executedRows x (he ▸ hx)
      exact ⟨t, ha.durable _ ht⟩
    rw [he, mem_append, mem_singleton] at hx
    rcases hx with hx | rfl
    · obtain ⟨t, ht⟩ := hs.executedRows x hx
      exact ⟨t, ha.durable _ ht⟩
    have hfits := hs.fits i
    rw [hstage] at hfits
    exact ⟨_, ha.durable _ hfits⟩
  · rcases ha.executed with he | ⟨i, run, hoi, hstage, _, he⟩
    · rw [he]
      exact hs.executedOnce
    · rw [he, map_append, map_singleton, ← concat_eq_append]
      refine hs.executedOnce.concat fun hid => ?_
      obtain ⟨x, hx, hxid⟩ := mem_map.mp hid
      obtain ⟨j, hj⟩ := hs.executedRan x hx
      have hji := hs.apart i j run.id (by rw [hstage]; rfl)
        (run?_of_created (created_of_ran (by rw [hj, hxid])))
      rw [← hji, hstage] at hj
      cases hj
  · intro x hx
    rcases ha.executed with he | ⟨i, run, hoi, hstage, hran', he⟩
    · obtain ⟨j, hj⟩ := hs.executedRan x (he ▸ hx)
      exact ⟨j, hran j _ hj⟩
    rw [he, mem_append, mem_singleton] at hx
    rcases hx with hx | rfl
    · obtain ⟨j, hj⟩ := hs.executedRan x hx
      exact ⟨j, hran j _ hj⟩
    · exact ⟨i, hran'⟩

/-- What a step does to the tables: rows come in under one new id at most, and what is over stays over, unless the step
rolls the connection back. -/
structure Alters (st : ActionService) (rolls : Bool) (new : Option RunId) (u : ActionService) : Prop where
  now : u.nowMs = st.nowMs
  tables : Tables u.nowMs u.table u.durable u.written
  settled : ∀ id, new ≠ some id → st.Settled id → u.Settled id
  rows : ∀ run ∈ u.table ++ u.durable, (∃ old ∈ st.table ++ st.durable, old.id = run.id) ∨ new = some run.id
  durable : ∀ x ∈ st.durable.map ActionRun.ident, x ∈ u.durable.map ActionRun.ident
  terminal : Terminal st → (Terminal u ↔ (rolls = true → Kept st))

theorem Terminal.keep (htab : u.table = st.table) (hwri : u.written = st.written) (h : Terminal st) :
    Terminal u ↔ (false = true → Kept st) := by
  simpa [Terminal, htab, hwri] using h

theorem alters_of_subset {rolls : Bool} (hnow : u.nowMs = st.nowMs)
    (htab : Tables st.nowMs u.table u.durable u.written)
    (hold : ∀ run ∈ u.table ++ u.durable, run ∈ st.table ++ st.durable)
    (hdur : ∀ x ∈ st.durable.map ActionRun.ident, x ∈ u.durable.map ActionRun.ident)
    (hter : Terminal st → (Terminal u ↔ (rolls = true → Kept st))) : Alters st rolls none u :=
  ⟨hnow, hnow.symm ▸ htab, fun _ _ h run hrun => h run (hold run hrun),
    fun run hrun => .inl ⟨run, hold run hrun, rfl⟩, hdur, hter⟩

theorem Sound.alters_same (hs : Sound st) (hnow : u.nowMs = st.nowMs) (htab : u.table = st.table)
    (hdur : u.durable = st.durable) (hwri : u.written = st.written) : Alters st false none u := by
  refine alters_of_subset hnow ?_ ?_ (hdur ▸ fun _ hx => hx) (Terminal.keep htab hwri)
  · rw [htab, hdur, hwri]
    exact hs.tables
  · rw [htab, hdur]
    exact fun _ hrun => hrun

theorem Sound.alters_commit (hs : Sound st) (hnow : u.nowMs = st.nowMs) (htab : u.table = st.table)
    (hdur : u.durable = st.table) (hwri : u.written = st.written) : Alters st false none u := by
  refine alters_of_subset hnow ?_ (fun run hrun => ?_) ?_ (Terminal.keep htab hwri)
  · rw [htab, hdur, hwri]
    exact hs.tables.commit
  · rw [htab, hdur, mem_append, or_self] at hrun
    exact mem_append_left _ hrun
  · rw [hdur]
    exact fun x hx => hs.tables.initial.subset hx

theorem Sound.terminal_rollback (hs : Sound st) (htab : u.table = st.durable) (hwri : u.written = st.written)
    (h : Terminal st) : Terminal u ↔ (true = true → Kept st) := by
  rw [Terminal, htab, hwri]
  constructor
  · intro hu _ run hrun hsta
    exact (hu.2 _ (hs.tables.logged run (mem_append_left _ hrun) hsta)).2
  intro hkept
  refine ⟨h.1, fun x hx => ?_⟩
  obtain ⟨hne, run, hrun, hid, hsta⟩ := h.2 x hx
  obtain ⟨old, hold, hoid, hosta⟩ := hkept rfl run hrun (hsta.symm ▸ hne)
  exact ⟨hne, old, hold, hoid.trans hid, hosta.trans hsta⟩

theorem Sound.alters_rollback (hs : Sound st) (hnow : u.nowMs = st.nowMs) (htab : u.table = st.durable)
    (hdur : u.durable = st.durable) (hwri : u.written = st.written) : Alters st true none u := by
  refine alters_of_subset hnow ?_ (fun run hrun => ?_) (hdur ▸ fun _ hx => hx) (hs.terminal_rollback htab hwri)
  · rw [htab, hdur, hwri]
    exact hs.tables.rollback
  · rw [htab, hdur, mem_append, or_self] at hrun
    exact mem_append_right _ hrun

variable {run : ActionRun}

theorem Completion.apply_of_finished (t : Nat) (h : run.status ≠ .running) : c.apply t run = run := if_neg (fun hrun => h hrun.2)

theorem Sound.terminal_update (hs : Sound st) (t : Nat) (h : Terminal st) : Terminal (st.update c t) := by
  have hkeep : ∀ x ∈ st.written, x.2 ≠ .running ∧ ∃ run ∈ st.table.map (c.apply t), run.id = x.1 ∧ run.status = x.2 := by
    intro x hx
    obtain ⟨hne, run, hrun, hid, hsta⟩ := h.2 x hx
    exact ⟨hne, run, mem_map.mpr ⟨run, hrun, Completion.apply_of_finished t (hsta.symm ▸ hne)⟩, hid, hsta⟩
  rw [Terminal, update]
  split
  · rename_i hany
    simp only [any_eq_true, decide_eq_true_eq] at hany
    obtain ⟨old, hold, hid, hrunn⟩ := hany
    constructor
    · rw [map_append, map_singleton, ← concat_eq_append]
      refine h.1.concat fun hmem => ?_
      obtain ⟨x, hx, hxid⟩ := mem_map.mp hmem
      obtain ⟨hne, run, hrun, hrid, hsta⟩ := h.2 x hx
      have hsame := inj_on_of_nodup_map hs.tables.ids hrun hold (by rw [hrid, hxid, hid])
      rw [hsame, hrunn] at hsta
      exact hne hsta.symm
    intro x hx
    rw [mem_append, mem_singleton] at hx
    rcases hx with hx | rfl
    · exact hkeep x hx
    refine ⟨c.status_ne, _, mem_map_of_mem hold, ?_⟩
    rw [Completion.apply, if_pos ⟨hid, hrunn⟩]
    exact ⟨hid, rfl⟩
  · rw [append_nil]
    exact ⟨h.1, hkeep⟩

theorem Sound.alters_update (hs : Sound st) (c : Completion) (t : Nat) (hnow : u.nowMs = st.nowMs)
    (htab : u.table = (st.update c t).table) (hdur : u.durable = st.durable)
    (hwri : u.written = (st.update c t).written) : Alters st false none u := by
  refine ⟨hnow, ?_, ?_, ?_, ?_, fun h => ?_⟩
  · rw [hnow, htab, hdur, hwri]
    exact hs.tables.update c t
  · intro id _ h run hrun hid
    rw [htab, hdur, mem_append] at hrun
    rcases hrun with hrun | hrun
    · rcases mem_map_apply hrun with hrun | ⟨_, hsta, _⟩
      · exact h run (mem_append_left _ hrun) hid
      · rw [hsta]
        exact c.status_ne
    · exact h run (mem_append_right _ hrun) hid
  · intro run hrun
    rw [htab, hdur, mem_append] at hrun
    rcases hrun with hrun | hrun
    · obtain ⟨old, hold, rfl⟩ := mem_map.mp hrun
      exact .inl ⟨old, mem_append_left _ hold, (congrArg Prod.fst (c.apply_ident t old)).symm⟩
    · exact .inl ⟨run, mem_append_right _ hrun, rfl⟩
  · rw [hdur]
    exact fun x hx => hx
  · simpa [Terminal, htab, hwri] using hs.terminal_update t h

theorem alters_insert
    (htab : Tables st.nowMs (st.table ++ [run]) st.durable st.written) (hnow : u.nowMs = st.nowMs)
    (htabl : u.table = st.table ++ [run]) (hdur : u.durable = st.durable) (hwri : u.written = st.written) :
    Alters st false (some run.id) u := by
  have hold : ∀ old ∈ u.table ++ u.durable, old ∈ st.table ++ st.durable ∨ old = run := by
    intro old h
    rw [htabl, hdur, mem_append, mem_append, mem_singleton] at h
    rcases h with (h | h) | h
    · exact .inl (mem_append_left _ h)
    · exact .inr h
    · exact .inl (mem_append_right _ h)
  refine ⟨hnow, ?_, ?_, ?_, ?_, ?_⟩
  · rw [hnow, htabl, hdur, hwri]
    exact htab
  · intro id hne h old hmem hid
    rcases hold old hmem with hmem | rfl
    · exact h old hmem hid
    · exact absurd (congrArg some hid) hne
  · intro old hmem
    rcases hold old hmem with hmem | rfl
    · exact .inl ⟨old, hmem, rfl⟩
    · exact .inr rfl
  · rw [hdur]
    exact fun x hx => hx
  · intro h
    refine iff_of_true ⟨hwri.symm ▸ h.1, fun x hx => ?_⟩ Bool.noConfusion
    obtain ⟨hne, old, hmem, hx⟩ := h.2 x (hwri ▸ hx)
    exact ⟨hne, old, htabl.symm ▸ mem_append_left _ hmem, hx⟩

structure Follows (st : ActionService) (i : CallId) (new : Option RunId) (v : ActionService) (stage : Stage) : Prop where
  run : ∀ id, stage.run? = some id → (st.stages i).run? = some id ∨ st.runs ≤ id ∧ id < v.runs
  created : ∀ id, (st.stages i).created = some id → stage.created = some id
  ran : ∀ id, (st.stages i).ran = some id → stage.ran = some id
  new : ∀ id, new = some id → stage.created = some id ∧ (st.stages i).created = none ∧ (st.stages i).run? = some id

variable {i : CallId}

variable {v : ActionService}

theorem follows_created {id : RunId} (hold : (st.stages i).created = some id)
    (hrun : stage.run? = some id) (hcre : stage.created = some id) (hran : stage.ran = some id) :
    Follows st i none v stage := by
  refine ⟨?_, ?_, ?_, by simp⟩
  · rw [hrun, run?_of_created hold]
    exact fun x hx => .inl hx
  · rw [hold, hcre]
    exact fun x hx => hx
  intro x hx
  rw [created_of_ran hx] at hold
  rw [hran, hold]

/-- What a step of a call leaves alone, unless the call has the lock. -/
structure Minds (st : ActionService) (i : CallId) (v : ActionService) : Prop where
  stages : v.stages = st.stages
  runs : st.runs ≤ v.runs
  tasks : v.tasks = st.tasks ∨ ∃ c, v.tasks = st.tasks ++ [⟨c, .connecting⟩] ∧ (st.stages i).created = some c.runId
  lock : v.lock = st.lock ∨ st.lock = none ∨ st.lock = some (.call i)
  data : v.table = st.table ∧ v.durable = st.durable ∨ st.lock = none ∨ st.lock = some (.call i)

theorem Sound.acts_call (hs : Sound st) {new : Option RunId}
    (ha : Alters st rolls new v) (hm : Minds st i v) (hf : Follows st i new v stage)
    (hexe : v.executed = st.executed ∨ ∃ run, st.stages i = .committing run ∧ stage.ran = some run.id ∧
      v.executed = st.executed ++ [⟨run.id, run.slot, run.idempotencyKey⟩])
    (hfits : v.Fits stage) (hhol : stage.holds = true → v.lock = some (.call i))
    (hend : ∀ id out, stage = .ended (some id) out → left = some id ∨ v.Settled id)
    (hleft : ∀ id, left = some id → v.table = st.table ∧ v.durable = st.durable ∧ stage = .ended (some id) .cancelled) :
    Acts st (.call i) rolls left (v.setStage i stage) := by
  have hself : (v.setStage i stage).stages i = stage := if_pos rfl
  have hoth : ∀ j, j ≠ i → (v.setStage i stage).stages j = st.stages j := fun j hj => by
    rw [← hm.stages]
    exact if_neg hj
  refine ⟨?_, hm.runs, ?_, ?_, ?_, ?_, ?_, ?_, ?_, hm.lock, hm.data, ha.now, ha.tables, ?_, ?_, ha.durable, ?_,
    ha.terminal, ?_, ?_⟩
  · exact fun j hj => hoth j (fun h => hj (h ▸ rfl))
  · rintro j id ⟨⟩ h
    rw [hself] at h
    exact hf.run id h
  · rintro j id ⟨⟩ h
    rw [hself]
    exact hf.created id h
  · rintro j id ⟨⟩ h
    rw [hself]
    exact hf.ran id h
  · rintro j ⟨⟩
    rw [hself]
    exact hfits
  · rintro j ⟨⟩ h
    rw [hself] at h
    exact hhol h
  · intro k task htask
    change v.tasks[k]? = some task at htask
    rcases hm.tasks with h | ⟨c, h, hc⟩
    · exact .inl ⟨Owner.noConfusion, h ▸ htask⟩
    rw [h, List.getElem?_append] at htask
    split at htask
    · exact .inl ⟨Owner.noConfusion, htask⟩
    rw [List.getElem?_singleton] at htask
    split at htask
    · cases htask
      exact .inr ⟨⟨FinishStage.noConfusion, by rintro (h | h) <;> cases h⟩, Bool.noConfusion, i, hc⟩
    · cases htask
  · intro k task htask
    refine ⟨task, ?_, rfl⟩
    change v.tasks[k]? = some task
    rcases hm.tasks with h | ⟨c, h, hc⟩
    · exact h.symm ▸ htask
    · rw [h, List.getElem?_append_left (List.getElem?_eq_some_iff.mp htask).1]
      exact htask
  · intro j id hj h
    refine ha.settled id (fun hnew => ?_) h
    obtain ⟨_, hnone, hrun⟩ := hf.new id hnew
    rw [← hs.apart j i id (run?_of_created hj) hrun, hj] at hnone
    cases hnone
  · intro run hrun
    rcases ha.rows run hrun with h | h
    · exact .inl h
    · exact .inr ⟨i, rfl, by rw [hself]; exact (hf.new _ h).1⟩
  · rcases hexe with h | ⟨run, hstage, hran, h⟩
    · exact .inl h
    · exact .inr ⟨i, run, rfl, hstage, by rw [hself]; exact hran, h⟩
  · rintro j id out ⟨⟩ h
    rw [hself] at h
    exact hend id out h
  · intro id h
    obtain ⟨htab, hdur, hstage⟩ := hleft id h
    exact ⟨htab, hdur, i, rfl, by rw [hself]; exact hstage⟩

theorem Sound.acts_lock (hs : Sound st) {lock : Option Owner}
    (hlock : lock = st.lock ∨ st.lock = none ∨ st.lock = some (.call i)) (hf : Follows st i none st stage)
    (hfits : st.Fits stage) (hhol : stage.holds = true → lock = some (.call i))
    (hend : ∀ id out, stage = .ended (some id) out → left = some id ∨ st.Settled id)
    (hleft : ∀ id, left = some id → stage = .ended (some id) .cancelled) :
    Acts st (.call i) false left ({ st with lock := lock }.setStage i stage) := by
  have hfits' : Fits { st with lock := lock } stage := by
    cases stage with
    | inserting run inserted => cases inserted <;> exact hfits
    | _ => exact hfits
  exact hs.acts_call (hs.alters_same rfl rfl rfl rfl) ⟨rfl, Nat.le_refl _, .inl rfl, hlock, .inl ⟨rfl, rfl⟩⟩ ⟨hf.1, hf.2, hf.3, hf.4⟩
    (.inl rfl) hfits' hhol hend (fun id h => ⟨rfl, rfl, hleft id h⟩)

theorem Sound.acts_out (hs : Sound st) {out : Outcome} {lock : Option Owner}
    (hlock : lock = st.lock ∨ st.lock = none ∨ st.lock = some (.call i)) (hnone : (st.stages i).created = none) :
    Acts st (.call i) false none ({ st with lock := lock }.setStage i (.ended none out)) := by
  have hran : (st.stages i).ran = none := by
    by_contra h
    obtain ⟨id, hid⟩ := Option.ne_none_iff_exists'.mp h
    rw [created_of_ran hid] at hnone
    cases hnone
  refine hs.acts_lock hlock ⟨?_, ?_, ?_, ?_⟩ trivial Bool.noConfusion ?_ ?_
  · simp [run?]
  · simp [hnone]
  · simp [hran]
  · simp
  · simp
  · simp

theorem Sound.holds_lock (hs : Sound st) (hstage : st.stages i = stage) (hheld : stage.holds = true) :
    st.lock = some (.call i) := hs.holder i (hstage.symm ▸ hheld)

theorem Sound.acts_replay (hs : Sound st) (existing : Option ActionRun)
    (hstage : st.stages i = stage) (hheld : stage.holds = true) (hnone : stage.created = none) :
    Acts st (.call i) false none (st.replay i existing) := by
  cases existing with
  | none | some _ => exact hs.acts_out (.inr (.inr (hs.holds_lock hstage hheld))) (hstage.symm ▸ hnone)

theorem Sound.acts_insert (hs : Sound st) {recent running : Nat} (foreignKeys : Bool)
    (hstage : st.stages i = .counting run recent running) (hrec : recent < maxPerMinute)
    (hrun : running < maxConcurrent) : Acts st (.call i) false none (st.insert i run foreignKeys) := by
  have hlock := hs.holds_lock hstage rfl
  have hfits := hs.fits i
  rw [hstage] at hfits
  obtain ⟨hsta, hcre, rfl, rfl⟩ := hfits
  have hfre : run.id ∉ st.table.map ActionRun.id := by
    intro hmem
    obtain ⟨old, hold, hid⟩ := mem_map.mp hmem
    obtain ⟨j, hj⟩ := hs.owned old (mem_append_left _ hold)
    have hji := hs.apart j i run.id (hid ▸ run?_of_created hj) (by rw [hstage]; rfl)
    rw [hji, hstage] at hj
    cases hj
  rw [insert]
  split
  · rename_i hok
    have htab := hs.tables.insert hfre (by simpa using hok.2) hsta hcre hrec hrun
    refine hs.acts_call (alters_insert htab rfl rfl rfl rfl)
      ⟨rfl, Nat.le_refl _, .inl rfl, .inl rfl, .inr (.inr hlock)⟩ ⟨?_, ?_, ?_, ?_⟩ (.inl rfl) ?_ (fun _ => hlock) ?_ ?_
    · simp [hstage, run?]
    · simp [hstage, created]
    · simp [hstage, ran]
    · simp [hstage, created, run?]
    · simp [Fits]
    · simp
    · simp
  refine hs.acts_lock (.inl rfl) ⟨?_, ?_, ?_, ?_⟩ ⟨hsta, hcre⟩ (fun _ => hlock) ?_ ?_
  · simp [hstage, run?]
  · simp [hstage, created]
  · simp [hstage, ran]
  · simp
  · simp
  · simp

/-- What a turn of `finish_action_run` comes to. -/
structure Finishes (st : ActionService) (o : Owner) (c : Completion) (v : ActionService) (f : FinishStage) : Prop where
  alters : Alters st false none v
  stages : v.stages = st.stages
  runs : v.runs = st.runs
  tasks : v.tasks = st.tasks
  executed : v.executed = st.executed
  progressed : v.Progressed c f
  holds : f.holds = true → v.lock = some o
  lock : v.lock = st.lock ∨ st.lock = none ∨ st.lock = some o
  data : v.table = st.table ∧ v.durable = st.durable ∨ st.lock = none ∨ st.lock = some o

theorem Sound.finishes (hs : Sound st) {g : FinishStage} (hp : st.Progressed c f)
    (hheld : f.holds = true → st.lock = some o) (h : st.resumeFinish o c f = some (u, g)) : Finishes st o c u g := by
  cases f with
  | connecting =>
    cases h
    exact ⟨hs.alters_same rfl rfl rfl rfl, rfl, rfl, rfl, rfl, ⟨FinishStage.noConfusion, by simp⟩, Bool.noConfusion,
      .inl rfl, .inl ⟨rfl, rfl⟩⟩
  | locking nowMs =>
    rw [resumeFinish] at h
    split at h
    · rename_i hfree
      cases h
      refine ⟨hs.alters_update c nowMs rfl rfl rfl rfl, rfl, rfl, rfl, rfl, ⟨fun _ run hrun hid => ?_, by simp⟩,
        fun _ => rfl, .inr (.inl hfree), .inr (.inl hfree)⟩
      obtain ⟨old, hold, rfl⟩ := mem_map.mp hrun
      rw [Completion.apply] at hid ⊢
      split at hid
      · rename_i hruns
        rw [if_pos hruns]
        exact c.status_ne
      rename_i hruns
      rw [if_neg hruns]
      exact fun hst => hruns ⟨hid, hst⟩
    · cases h
  | updating =>
    cases h
    have hlock := hheld rfl
    refine ⟨hs.alters_commit rfl rfl rfl rfl, rfl, rfl, rfl, rfl, ⟨FinishStage.noConfusion, fun _ run hrun => ?_⟩,
      fun _ => hlock, .inl rfl, .inr (.inr hlock)⟩
    rw [mem_append] at hrun
    exact hp.1 rfl run (hrun.elim id id)
  | committing =>
    cases h
    have hlock := hheld rfl
    exact ⟨hs.alters_same rfl rfl rfl rfl, rfl, rfl, rfl, rfl, ⟨FinishStage.noConfusion, fun _ => hp.2 (.inl rfl)⟩,
      Bool.noConfusion, .inr (.inr hlock), .inl ⟨rfl, rfl⟩⟩
  | done => cases h

theorem Sound.acts_finish (hs : Sound st) {g : FinishStage}
    (hv : Finishes st (.call i) c v g) (hran : (st.stages i).ran = some c.runId)
    (hrun : stage.run? = some c.runId) (hcre : stage.created = some c.runId) (hran' : stage.ran = some c.runId)
    (hfits : v.Fits stage) (hhol : stage.holds = true → v.lock = some (.call i))
    (hend : ∀ id out, stage = .ended (some id) out → v.Settled id) :
    Acts st (.call i) false none (v.setStage i stage) := by
  exact hs.acts_call hv.alters ⟨hv.stages, hv.runs.symm.le, .inl hv.tasks, hv.lock, hv.data⟩
    (follows_created (created_of_ran hran) hrun hcre hran') (.inl hv.executed) hfits hhol
    (fun id out h => .inr (hend id out h)) (by simp)

def rollsBack (st : ActionService) (e : Event) : Bool :=
  match e with
  | .resume i _ => match st.stages i with
    | .inserting _ false => true
    | _ => false
  | .act _ commits => !commits
  | _ => false

/-- The run that a cancellation leaves behind as it is: the call is in the admission, in the write of a failure, or in
the shielded write. -/
def leaves (st : ActionService) (e : Event) : Option RunId :=
  match e with
  | .cancel i => match st.stages i with
    | .inserting run true | .committing run => some run.id
    | .failing c _ => some c.runId
    | .shielding runId _ => some runId
    | _ => none
  | _ => none

variable {calls : CallId → Invocation}

theorem Sound.resume {t : Turn} (hs : Sound st)
    (h : st.resume calls i t = some u) : Acts st (.call i) (st.rollsBack (.resume i t)) none u := by
  have hfits := hs.fits i
  rw [ActionService.resume] at h
  rw [rollsBack]
  cases hstage : st.stages i with
  | defining =>
    rw [hstage] at h
    have hnone : (st.stages i).created = none := by rw [hstage]; rfl
    cases hdef : t.definition with
    | none =>
      rw [hdef] at h
      cases h
      exact hs.acts_out (.inl rfl) hnone
    | some revision =>
      simp only [hdef] at h
      split at h
      · cases h
        exact hs.acts_lock (.inl rfl) ⟨by simp [run?], by simp [hnone], by simp [hstage, ran], by simp⟩
          trivial Bool.noConfusion (by simp) (by simp)
      · cases h
        exact hs.acts_out (.inl rfl) hnone
  | connecting revision =>
    rw [hstage] at h
    cases h
    exact hs.acts_lock (.inl rfl)
      ⟨by simp [run?], by simp [hstage, created], by simp [hstage, ran], by simp⟩
      trivial Bool.noConfusion (by simp) (by simp)
  | locking revision =>
    simp only [hstage] at h
    split at h
    · rename_i hfree
      cases h
      exact hs.acts_lock (.inr (.inl hfree))
        ⟨by simp [run?], by simp [hstage, created], by simp [hstage, ran], by simp⟩
        trivial (fun _ => rfl) (by simp) (by simp)
    · cases h
  | authorizing revision =>
    simp only [hstage] at h
    have hlock := hs.holds_lock hstage rfl
    split at h
    · cases h
      refine hs.acts_call (hs.alters_same rfl rfl rfl rfl)
        ⟨rfl, Nat.le_succ _, .inl rfl, .inl rfl, .inl ⟨rfl, rfl⟩⟩ ⟨?_, ?_, ?_, ?_⟩ (.inl rfl)
        ⟨rfl, Nat.le_refl _⟩ (fun _ => hlock) (by simp) (by simp)
      · simp [run?, newRun]
      · simp [hstage, created]
      · simp [hstage, ran]
      · simp
    · cases h
      exact hs.acts_out (.inr (.inr hlock)) (by rw [hstage]; rfl)
  | looking run existing =>
    rw [hstage] at h hfits
    cases existing with
    | some old =>
      cases h
      exact hs.acts_replay _ hstage rfl rfl
    | none =>
      cases h
      exact hs.acts_lock (.inl rfl) ⟨by simp [hstage, run?], by simp [hstage, created],
          by simp [hstage, ran], by simp⟩ ⟨hfits.1, hfits.2, rfl, rfl⟩ (fun _ => hs.holds_lock hstage rfl)
        (by simp) (by simp)
  | counting run recent running =>
    simp only [hstage] at h
    have hlock := hs.holds_lock hstage rfl
    have hnone : (st.stages i).created = none := by rw [hstage]; rfl
    split at h
    · cases h
      exact hs.acts_out (.inr (.inr hlock)) hnone
    rename_i hrec
    split at h
    · cases h
      exact hs.acts_out (.inr (.inr hlock)) hnone
    rename_i hrun
    cases h
    exact hs.acts_insert _ hstage (Nat.lt_of_not_le hrec) (Nat.lt_of_not_le hrun)
  | inserting run inserted =>
    rw [hstage] at h hfits
    have hlock := hs.holds_lock hstage rfl
    cases inserted with
    | true =>
      cases h
      exact hs.acts_call (hs.alters_commit rfl rfl rfl rfl) ⟨rfl, Nat.le_refl _, .inl rfl, .inl rfl, .inr (.inr hlock)⟩
        ⟨by simp [hstage, run?], by simp [hstage, created], by simp [hstage, ran], by simp⟩
        (.inl rfl) hfits (fun _ => hlock) (by simp) (by simp)
    | false =>
      cases h
      exact hs.acts_call (hs.alters_rollback rfl rfl rfl rfl)
        ⟨rfl, Nat.le_refl _, .inl rfl, .inl rfl, .inr (.inr hlock)⟩
        ⟨by simp [hstage, run?], by simp [hstage, created], by simp [hstage, ran], by simp⟩
        (.inl rfl) trivial (fun _ => hlock) (by simp) (by simp)
  | rollingBack run =>
    rw [hstage] at h
    cases h
    exact hs.acts_lock (.inl rfl)
      ⟨by simp [run?], by simp [hstage, created], by simp [hstage, ran], by simp⟩
      trivial (fun _ => hs.holds_lock hstage rfl) (by simp) (by simp)
  | rereading existing =>
    rw [hstage] at h
    cases h
    exact hs.acts_replay _ hstage rfl rfl
  | committing run =>
    rw [hstage] at h hfits
    cases h
    exact hs.acts_call (hs.alters_same rfl rfl rfl rfl)
      ⟨rfl, Nat.le_refl _, .inl rfl, .inr (.inr (hs.holds_lock hstage rfl)), .inl ⟨rfl, rfl⟩⟩
      ⟨by simp [hstage, run?], by simp [hstage, created], by simp [hstage, ran], by simp⟩
      (.inr ⟨run, hstage, rfl, rfl⟩) trivial Bool.noConfusion (by simp) (by simp)
  | executing runId =>
    rw [hstage] at h
    have hfol : ∀ (c : Completion), c.runId = runId → ∀ next,
        next = .completing c .connecting ∨ next = .failing c .connecting → Follows st i none st next := by
      rintro c rfl next (rfl | rfl)
      · exact ⟨by simp [hstage, run?], by simp [hstage, created], by simp [hstage, ran], by simp⟩
      · exact ⟨by simp [hstage, run?], by simp [hstage, created], by simp [hstage, ran], by simp⟩
    cases hexec : t.execution with
    | ok result =>
      simp only [hexec] at h
      cases h
      exact hs.acts_lock (.inl rfl) (hfol _ rfl _ (.inl rfl)) ⟨FinishStage.noConfusion, by simp⟩
        Bool.noConfusion (by simp) (by simp)
    | error name =>
      simp only [hexec] at h
      cases h
      exact hs.acts_lock (.inl rfl) (hfol _ rfl _ (.inr rfl)) ⟨FinishStage.noConfusion, by simp⟩
        Bool.noConfusion (by simp) (by simp)
  | completing c _ | failing c _ =>
    rw [hstage] at h hfits
    obtain ⟨⟨v, g⟩, hr, rfl⟩ := Option.map_eq_some_iff.mp h
    have hv := hs.finishes hfits (hs.holds_lock hstage) hr
    have hran : (st.stages i).ran = some c.runId := by rw [hstage]; rfl
    cases g with
    | done =>
      refine hs.acts_finish hv hran rfl rfl rfl (trivial : v.Fits (.ended (some c.runId) _)) Bool.noConfusion ?_
      rintro id out ⟨⟩
      exact hv.progressed.2 (.inr rfl)
    | _ => exact hs.acts_finish hv hran rfl rfl rfl hv.progressed hv.holds (by simp)
  | shielding runId k =>
    simp only [hstage] at h
    rw [hstage] at hfits
    obtain ⟨task, htask, rfl⟩ := hfits
    split at h
    · rename_i c hdone
      cases h
      rw [hdone] at htask
      cases htask
      exact hs.acts_lock (.inl rfl)
        ⟨by simp [hstage, run?], by simp [hstage, created], by simp [hstage, ran], by simp⟩
        trivial Bool.noConfusion
        (by rintro id out ⟨⟩; exact .inr ((hs.taskFits k _ hdone).2 (.inr rfl))) (by simp)
    · cases h
  | ended created out =>
    rw [hstage] at h
    cases h

theorem Sound.acts_giveBack (hs : Sound st) (hf : Follows st i none st stage)
    (hfits : st.Fits stage) (hhol : stage.holds = false)
    (hend : ∀ id out, stage = .ended (some id) out → left = some id ∨ st.Settled id)
    (hleft : ∀ id, left = some id → stage = .ended (some id) .cancelled) :
    Acts st (.call i) false left ((st.giveBack i).setStage i stage) := by
  have hhol' : ∀ {p : Prop}, stage.holds = true → p := fun h => by
    rw [hhol] at h
    cases h
  rw [giveBack]
  split
  · rename_i hlock
    exact hs.acts_lock (.inr (.inr hlock)) hf hfits hhol' hend hleft
  · exact hs.acts_lock (.inl rfl) hf hfits hhol' hend hleft

theorem Sound.acts_shield (hs : Sound st) {runId : RunId} (hran : (st.stages i).ran = some runId) :
    Acts st (.call i) false none (st.shield i runId) := by
  have hold := created_of_ran hran
  have hlock : (st.giveBack i).lock = st.lock ∨ st.lock = none ∨ st.lock = some (.call i) := by
    rw [giveBack]
    split
    · exact .inr (.inr ‹_›)
    · exact .inl rfl
  have hsame : (st.giveBack i).nowMs = st.nowMs ∧ (st.giveBack i).table = st.table ∧
      (st.giveBack i).durable = st.durable ∧ (st.giveBack i).written = st.written ∧
      (st.giveBack i).stages = st.stages ∧ (st.giveBack i).runs = st.runs ∧ (st.giveBack i).tasks = st.tasks ∧
      (st.giveBack i).executed = st.executed := by
    rw [giveBack]
    split <;> exact ⟨rfl, rfl, rfl, rfl, rfl, rfl, rfl, rfl⟩
  obtain ⟨hnow, htab, hdur, hwri, hsta, hruns, htas, hexe⟩ := hsame
  refine hs.acts_call (hs.alters_same hnow htab hdur hwri)
    ⟨hsta, hruns.symm.le, .inr ⟨_, rfl, hold⟩, hlock, .inl ⟨htab, hdur⟩⟩
    (follows_created hold rfl rfl rfl) (.inl hexe)
    ⟨⟨⟨runId, none, some "CancelledError"⟩, .connecting⟩, List.getElem?_concat_length, rfl⟩
    Bool.noConfusion (by simp) (by simp)

theorem Sound.cancel (hs : Sound st) (h : st.cancel i = some u) :
    Acts st (.call i) false (st.leaves (.cancel i)) u := by
  -- a call without a run of its own just ends
  have hout : (st.stages i).created = none →
      Acts st (.call i) false none ((st.giveBack i).setStage i (.ended none .cancelled)) := by
    intro hnone
    rw [giveBack]
    split
    · exact hs.acts_out (.inr (.inr ‹_›)) hnone
    · exact hs.acts_out (.inl rfl) hnone
  -- and one whose run is not looked after leaves it
  have hlea : ∀ id, (st.stages i).created = some id →
      Acts st (.call i) false (some id) ((st.giveBack i).setStage i (.ended (some id) .cancelled)) := by
    intro id hcre
    refine hs.acts_giveBack (follows_created hcre rfl rfl rfl) trivial rfl ?_ (by simp)
    rintro x out ⟨⟩
    exact .inl rfl
  rw [ActionService.cancel] at h
  rw [leaves]
  cases hstage : st.stages i with
  | ended created out =>
    rw [hstage] at h
    cases h
  | inserting run inserted =>
    rw [hstage] at h hlea hout
    cases inserted with
    | true =>
      cases h
      exact hlea _ rfl
    | false =>
      cases h
      exact hout rfl
  | committing _ | failing _ _ =>
    rw [hstage] at h hlea
    cases h
    exact hlea _ rfl
  | executing _ | completing _ _ =>
    rw [hstage] at h
    cases h
    exact hs.acts_shield (hstage ▸ rfl)
  | shielding runId k =>
    rw [hstage] at h
    cases h
    exact hs.acts_lock (.inl rfl)
      ⟨by simp [hstage, run?], by simp [hstage, created], by simp [hstage, ran], by simp⟩
      trivial Bool.noConfusion (by rintro id out ⟨⟩; exact .inl rfl) (by simp)
  | _ =>
    rw [hstage] at h hout
    cases h
    exact hout rfl

theorem Sound.resumeTask {k : TaskId} (hs : Sound st) (h : st.resumeTask k = some u) :
    Acts st (.task k) false none u := by
  obtain ⟨task, htask, h⟩ := Option.bind_eq_some_iff.mp h
  obtain ⟨⟨v, g⟩, hr, rfl⟩ := Option.map_eq_some_iff.mp h
  have hv := hs.finishes (hs.taskFits k task htask) (hs.taskHolder k task htask) hr
  have ha := hv.alters
  refine ⟨fun j _ => congrFun hv.stages j, hv.runs.symm.le, ?_, ?_, ?_, ?_, ?_, ?_, ?_, hv.lock, hv.data, ha.now, ha.tables,
    fun i id _ => ha.settled id (by simp), ?_, ha.durable, .inl hv.executed, ha.terminal, ?_, ?_⟩
  · intro i id hi
    cases hi
  · intro i id hi
    cases hi
  · intro i id hi
    cases hi
  · intro i hi
    cases hi
  · intro i hi
    cases hi
  · intro j task' htask'
    rw [hv.tasks, List.getElem?_set] at htask'
    split at htask'
    · rename_i hkj
      subst hkj
      split at htask'
      · cases htask'
        exact .inr ⟨hv.progressed, hv.holds, hs.taskOwned k task htask⟩
      · cases htask'
    · rename_i hkj
      exact .inl ⟨fun heq => hkj (Owner.task.inj heq), htask'⟩
  · intro j old hold
    rw [hv.tasks, List.getElem?_set]
    split
    · rename_i hkj
      subst hkj
      rw [htask] at hold
      cases hold
      rw [if_pos (List.getElem?_eq_some_iff.mp htask).1]
      exact ⟨_, rfl, rfl⟩
    · exact ⟨old, hold, rfl⟩
  · intro run hrun
    rcases ha.rows run hrun with hrun | hrun
    · exact .inl hrun
    · cases hrun
  · intro i id out hi
    cases hi
  · intro id hid
    cases hid

theorem Sound.act {commits : Bool} (hs : Sound st) (h : st.act i commits = some u) :
    Acts st (.call i) (!commits) none u := by
  rw [ActionService.act] at h
  cases hstage : st.stages i with
  | executing runId =>
    simp only [hstage] at h
    split at h
    · rename_i hfree
      have hself : ∀ v : ActionService, v.stages = st.stages → v.setStage i (.executing runId) = v := by
        intro v hv
        have hsta : (fun j => if j = i then executing runId else v.stages j) = v.stages := by
          funext j
          split
          · rename_i hj
            rw [hv, hj, hstage]
          · rfl
        rw [setStage, hsta]
      have hfol : ∀ v : ActionService, Follows st i none v (.executing runId) := fun v =>
        ⟨by simp [hstage, run?], by simp [hstage, created], by simp [hstage, ran], by simp⟩
      have hacts : ∀ v : ActionService, Alters st (!commits) none v → v.stages = st.stages → v.runs = st.runs →
          v.tasks = st.tasks → v.lock = st.lock → v.executed = st.executed → Acts st (.call i) (!commits) none v := by
        intro v ha hsta hruns htas hlock hexe
        rw [← hself v hsta]
        exact hs.acts_call ha ⟨hsta, hruns.symm.le, .inl htas, .inl hlock, .inr (.inl hfree)⟩ (hfol v)
          (.inl hexe) trivial Bool.noConfusion (by simp) (by simp)
      cases h
      cases commits with
      | true => exact hacts _ (hs.alters_commit rfl rfl rfl rfl) rfl rfl rfl rfl rfl
      | false => exact hacts _ (hs.alters_rollback rfl rfl rfl rfl) rfl rfl rfl rfl rfl
    · cases h
  | _ =>
    rw [hstage] at h
    cases h

theorem Sound.tick (hs : Sound st) (t : Nat) : Sound { st with nowMs := st.nowMs + t } := by
  refine ⟨hs.tables.tick t, hs.drawn, hs.apart, hs.owned, hs.holder, hs.taskHolder, fun i => ?_, hs.taskFits,
    hs.taskOwned, hs.executedRows, hs.executedOnce, hs.executedRan⟩
  have hfits := hs.fits i
  generalize st.stages i = stage at hfits ⊢
  cases stage with
  | looking run existing => exact ⟨hfits.1, hfits.2.trans (Nat.le_add_right _ _)⟩
  | inserting run inserted =>
    cases inserted with
    | true => exact hfits
    | false => exact ⟨hfits.1, hfits.2.trans (Nat.le_add_right _ _)⟩
  | counting run recent running => exact ⟨hfits.1, hfits.2.1.trans (Nat.le_add_right _ _), hfits.2.2⟩
  | _ => exact hfits

theorem Sound.steps {e : Event} (hs : Sound st) (h : next calls st e = some u) :
    (∃ o, Acts st o (st.rollsBack e) (st.leaves e) u) ∨ ∃ t, e = .tick t ∧ u = { st with nowMs := st.nowMs + t } := by
  cases e with
  | resume i t => exact .inl ⟨_, hs.resume h⟩
  | cancel i => exact .inl ⟨_, hs.cancel h⟩
  | resumeTask k => exact .inl ⟨_, hs.resumeTask h⟩
  | act i commits => exact .inl ⟨_, hs.act h⟩
  | tick t =>
    cases h
    exact .inr ⟨t, rfl, rfl⟩

theorem Sound.after {e : Event} (hs : Sound st) (h : next calls st e = some u) : Sound u := by
  rcases hs.steps h with ⟨o, ha⟩ | ⟨t, _, rfl⟩
  · exact hs.acts ha
  · exact hs.tick t

theorem Sound.initial : Sound {} where
  tables := by constructor <;> simp
  drawn := by simp [run?]
  apart := by simp [run?]
  owned := by simp
  holder := by simp [holds]
  taskHolder := by simp
  fits := fun _ => trivial
  taskFits := by simp
  taskOwned := by simp
  executedRows := by simp
  executedOnce := nodup_nil
  executedRan := by simp

end Steps

end ActionService

end OpenAgent.Dashboards.Actions
