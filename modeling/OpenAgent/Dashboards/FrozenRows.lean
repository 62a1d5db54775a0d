import OpenAgent.Dashboards.Freezing

namespace OpenAgent.Dashboards

open Py Option

namespace LiveRuntime

variable {s t : LiveRuntime} {e : LiveEvent}

@[simp] theorem removeSubscription_stored (key : SubscriptionKey) : (s.removeSubscription key).stored = s.stored := by
  rw [removeSubscription.eq_def]
  split <;> rfl

@[simp] theorem removeAll_stored (keys : List SubscriptionKey) : (s.removeAll keys).stored = s.stored := by
  induction keys generalizing s with
  | nil => rfl
  | cons key keys ih =>
    change ((s.removeSubscription key).removeAll keys).stored = s.stored
    rw [ih, removeSubscription_stored]

@[simp] theorem fan_stored (n : Nat) (f : Fanout) : (s.fan n f).stored = s.stored := by
  rw [fan.eq_def]
  split
  · rfl
  dsimp only
  split
  · split
    · exact removeAll_stored f.dead
    · exact removeAll_stored f.dead
  · exact removeAll_stored f.dead

@[simp] theorem publishOver_stored (n : Nat) (k : SourceKey) (p : Publication) (base : Option Datum) (now : Int) :
    (s.publishOver n k p base now).stored = s.stored := by
  rw [publishOver.eq_def]
  split
  · exact fan_stored ..
  · rfl

@[simp] theorem flush_stored (n : Nat) (k : SourceKey) (commit : Option Commit) :
    (s.flush n k commit).stored = s.stored := by
  rw [flush.eq_def]
  split <;> rfl

theorem register_stored (key : SubscriptionKey) (view : String) (revision : Nat) (replaces : Bool) (o : Opening) :
    (s.register key view revision replaces o).stored = s.stored := by
  cases replaces with
  | false => rfl
  | true => exact removeSubscription_stored key

theorem next_writes {n : Nat} {now : Int} (h : liveNext s (.writes n now) = some t) :
    (∃ k d commit, s.stages[n]? = some (.flushes k d commit) ∧
      t.stored = s.stored.set k (checkpointRow (s.stored.get? k) d now)) ∨
    (∃ k c row, s.stages[n]? = some (.writes k c) ∧ t.stored = s.stored.set k row) := by
  rw [liveNext.eq_def] at h
  dsimp only at h
  split at h
  next k d commit hn =>
    refine .inl ⟨k, d, commit, hn, ?_⟩
    split at h
    · cases h
      rfl
    · cases h
      rfl
  next k c hn =>
    obtain ⟨row, _, rfl⟩ := map_eq_some_iff.mp h
    exact .inr ⟨k, c, row, hn, rfl⟩
  next => cases h

theorem next_stored (h : liveNext s e = some t) (he : ∀ n now, e ≠ .writes n now) : t.stored = s.stored := by
  cases e with
  | subscribes | publishes | commits | checkpoints =>
    cases h
    rfl
  | unsubscribes sub =>
    cases h
    exact removeSubscription_stored sub
  | writes n now => exact absurd rfl (he n now)
  | sends n ok =>
    rw [liveNext.eq_def] at h
    dsimp only at h
    split at h
    next sub view revision replaces snapshot since _ =>
      split at h
      · cases h
        exact register_stored sub view revision replaces ⟨snapshot, since⟩
      · cases h
        exact removeAll_stored _
    next => cases h
  | locks n now =>
    rw [liveNext.eq_def] at h
    dsimp only at h
    split at h
    · split at h
      · cases h
      · split at h
        · split at h
          · cases h
            exact publishOver_stored ..
          · cases h
            rfl
        · cases h
          exact flush_stored ..
        · cases h
          exact flush_stored ..
    · cases h
  | loads n now =>
    rw [liveNext.eq_def] at h
    dsimp only at h
    split at h
    · cases h
      exact publishOver_stored ..
    · cases h
  | resumes n =>
    rw [liveNext.eq_def] at h
    dsimp only at h
    split at h
    · cases h
      exact fan_stored ..
    · cases h
  | delivers n outcome now =>
    rw [liveNext.eq_def] at h
    dsimp only at h
    split at h
    · split at h
      · split at h
        · cases h
          exact fan_stored ..
        · cases h
          exact fan_stored ..
      · cases h
    · cases h
  | raises n =>
    rw [liveNext.eq_def] at h
    dsimp only at h
    split at h
    next =>
      cases h
      rfl
    next =>
      cases h
      rfl
    next =>
      cases h
      rfl
    next =>
      cases h
      rfl
    next =>
      cases h
      exact removeSubscription_stored _
    next => cases h
    next =>
      cases h
      rfl
    next => cases h
  | reads | composes | touches =>
    rw [liveNext.eq_def] at h
    dsimp only at h
    split at h
    · cases h
      rfl
    · cases h

end LiveRuntime

theorem Datum.fresh_freezeRow (d : Datum) (now : Int) : (d.freezeRow now).status.fresh = false := by
  rw [freezeRow]
  split
  · rfl
  next h => exact Bool.eq_false_iff.mpr h

theorem status_checkpointRow (stored : Option Datum) (d : Datum) (now : Int) :
    ((∀ old, stored = some old → d.supersedes old = true) ∧ (checkpointRow stored d now).status = d.status) ∨
    (∃ old, stored = some old ∧ d.supersedes old = false ∧ checkpointRow stored d now = old) := by
  cases stored with
  | none => exact .inl ⟨nofun, rfl⟩
  | some old =>
    cases hsup : d.supersedes old with
    | true =>
      refine .inl ⟨?_, ?_⟩
      · intro o ho
        cases ho
        exact hsup
      · rw [checkpointRow, if_pos hsup]
    | false =>
      refine .inr ⟨old, rfl, hsup, ?_⟩
      rw [checkpointRow, if_neg (by rw [hsup]; exact Bool.false_ne_true)]

def RowsStale (s : FreezeState) : Prop :=
  ∀ k d, s.frozenHere k.1 = true → s.data.stored.get? k = some d → d.status.fresh = false

def NoFreshCheckpoint (s : FreezeState) (e : FreezeEvent) : Prop :=
  ∀ n now k d commit, e = .data (.writes n now) → s.data.stages[n]? = some (.flushes k d commit) →
    s.frozenHere k.1 = true → d.status.fresh = true → ∃ old, s.data.stored.get? k = some old ∧ d.supersedes old = false

def Marked (s : FreezeState) : Prop := ∀ view, s.frozenHere view = true → s.frozen view = true

variable {s t : FreezeState} {e : FreezeEvent}

theorem rowsStale_of_eq (h : RowsStale s) (hf : t.frozenHere = s.frozenHere) (hr : t.data.stored = s.data.stored) :
    RowsStale t := by
  intro k d hk hd
  rw [hf] at hk
  rw [hr] at hd
  exact h k d hk hd

theorem rowsStale_mapRows {views : List String} {f : Datum → Datum} {here : String → Bool}
    (hf : ∀ k d, here k.1 = true → s.data.stored.get? k = some d →
      (if views.contains k.1 then f d else d).status.fresh = false)
    (ht : t.data = (s.mapRows views f).data) (hh : t.frozenHere = here) : RowsStale t := by
  intro k d hk hd
  rw [ht] at hd
  rw [hh] at hk
  change (s.data.stored.mapEntries _).get? k = some d at hd
  rw [Dict.get?_mapEntries] at hd
  obtain ⟨old, hold, rfl⟩ := map_eq_some_iff.mp hd
  exact hf k old hk hold

theorem RowsStale.freezeViews (h : RowsStale s) (views : List String) (now : Int) :
    RowsStale (s.freezeViews views now) := by
  refine rowsStale_mapRows ?_ rfl rfl
  intro k d hk hd
  split
  · exact d.fresh_freezeRow now
  next hview =>
    rcases (Bool.or_eq_true _ _).mp hk with hk | hk
    · exact absurd hk hview
    · exact h k d hk hd

theorem RowsStale.thawView (h : RowsStale s) (view : String) (now : Int) : RowsStale (s.thawView view now) := by
  refine rowsStale_mapRows ?_ rfl rfl
  intro k d hk hd
  change (if k.1 = view then false else s.frozenHere k.1) = true at hk
  split at hk
  · cases hk
  next hview =>
    rw [if_neg (by simpa using hview)]
    exact h k d hk hd

theorem perform_rows {x : FreezeTodo} {a : FreezeAnswer} {rest : List FreezeTodo} (h : s.perform x a = some (t, rest)) :
    (∃ views now, t = s.freezeViews views now) ∨
    (t.frozen = s.frozen ∧ t.frozenHere = s.frozenHere ∧ t.data.stored = s.data.stored) := by
  cases x with
  | freezesInline =>
    cases a with
    | froze views now =>
      rw [FreezeState.perform.eq_def] at h
      dsimp only at h
      split at h
      · cases h
      · cases h
        exact .inl ⟨views, now, rfl⟩
    | _ => cases h
  | setsFrozen view =>
    cases a with
    | set now =>
      cases h
      exact .inl ⟨[view], now, rfl⟩
    | _ => cases h
  | waits _ | joins _ =>
    cases a with
    | returned =>
      rw [FreezeState.perform.eq_def] at h
      dsimp only at h
      split at h
      · cases h
        exact .inr ⟨rfl, rfl, rfl⟩
      · cases h
    | _ => cases h
  | stopSource k =>
    cases a with
    | returned =>
      rw [FreezeState.perform.eq_def] at h
      dsimp only at h
      split at h
      · cases h
        exact .inr ⟨rfl, rfl, rfl⟩
      · cases h
        exact .inr ⟨rfl, rfl, rfl⟩
    | _ => cases h
  | flushAll | flush | frozeInline | readsFrozen | stopView | fans | staleLive =>
    cases a with
    | returned =>
      cases h
      exact .inr ⟨rfl, rfl, rfl⟩
    | _ => cases h

inductive Touches (s t : FreezeState) : FreezeEvent → Prop
  | rows {e : LiveEvent} (ha : s.allows e = true) (hd : liveNext s.data e = some t.data) (hf : t.frozen = s.frozen)
      (hh : t.frozenHere = s.frozenHere) : Touches s t (.data e)
  | freezes {e : FreezeEvent} (he : ∀ f, e ≠ .data f) (views : List String) (now : Int)
      (hd : t.data = (s.freezeViews views now).data) (hf : t.frozen = (s.freezeViews views now).frozen)
      (hh : t.frozenHere = (s.freezeViews views now).frozenHere) : Touches s t e
  | thaws (view : String) (now : Int) (ht : t = s.thawView view now) : Touches s t (.thaws view now)
  | nothing {e : FreezeEvent} (he : ∀ f, e ≠ .data f) (hf : t.frozen = s.frozen) (hh : t.frozenHere = s.frozenHere)
      (hr : t.data.stored = s.data.stored) : Touches s t e

theorem freezeNext_touches (h : freezeNext s e = some t) : Touches s t e := by
  cases e with
  | data e =>
    rw [freezeNext.eq_def] at h
    dsimp only at h
    split at h
    next hall =>
      obtain ⟨data, hd, rfl⟩ := map_eq_some_iff.mp h
      exact .rows ((Bool.and_eq_true _ _).mp hall).2 hd rfl rfl
    next => cases h
  | thaws view now =>
    rw [freezeNext.eq_def] at h
    dsimp only at h
    split at h
    · cases h
      exact .thaws view now rfl
    · cases h
  | resumes n a =>
    rw [freezeNext.eq_def] at h
    dsimp only at h
    split at h
    · split at h
      · obtain ⟨p, hp, rfl⟩ := map_eq_some_iff.mp h
        rcases perform_rows hp with ⟨views, now, hv⟩ | ⟨hf, hh, hr⟩
        · refine .freezes nofun views now ?_ ?_ ?_
          · rw [← hv]
            rfl
          · rw [← hv]
            rfl
          · rw [← hv]
            rfl
        · exact .nothing nofun hf hh hr
      · cases h
    · cases h
  | raises n =>
    rw [freezeNext.eq_def] at h
    dsimp only at h
    split at h
    · split at h
      · cases h
        exact .nothing nofun rfl rfl rfl
      · cases h
    · cases h
  | launches | finishes | reports | freezeInactive | setFrozen =>
    rw [freezeNext.eq_def] at h
    dsimp only at h
    split at h
    · cases h
      exact .nothing nofun rfl rfl rfl
    · cases h

theorem freezeNext_marked (hs : Marked s) (h : freezeNext s e = some t) : Marked t := by
  intro view hv
  cases freezeNext_touches h with
  | rows _ _ hf hh | nothing _ hf hh _ =>
    rw [hf]
    rw [hh] at hv
    exact hs view hv
  | freezes _ views now _ hf hh =>
    rw [hf]
    rw [hh] at hv
    rcases (Bool.or_eq_true _ _).mp hv with hv | hv
    · exact (Bool.or_eq_true _ _).mpr (.inl hv)
    · exact (Bool.or_eq_true _ _).mpr (.inr (hs view hv))
  | thaws v now ht =>
    subst ht
    change (if view = v then false else s.frozenHere view) = true at hv
    change (if view = v then false else s.frozen view) = true
    split at hv
    · cases hv
    next hne =>
      rw [if_neg hne]
      exact hs view hv

theorem rowsStale_set {k : SourceKey} {row : Datum} (h : RowsStale s) (hd : t.data.stored = s.data.stored.set k row)
    (hh : t.frozenHere = s.frozenHere) :
    RowsStale t ↔ (s.frozenHere k.1 = true → row.status.fresh = false) := by
  constructor
  · intro ht hk
    refine ht k row ?_ ?_
    · rw [hh]
      exact hk
    · rw [hd, Dict.get?_set_self]
  intro hrow l d hl hd'
  rw [hh] at hl
  rw [hd, Dict.get?_set] at hd'
  split at hd'
  next hk =>
    subst hk
    cases hd'
    exact hrow hl
  next => exact h l d hl hd'

theorem rowsStale_checkpoint {n : Nat} {now : Int} {k : SourceKey} {d : Datum} {commit : Option Commit}
    (h : RowsStale s) (hn : s.data.stages[n]? = some (.flushes k d commit))
    (hd : t.data.stored = s.data.stored.set k (checkpointRow (s.data.stored.get? k) d now))
    (hh : t.frozenHere = s.frozenHere) : RowsStale t ↔ NoFreshCheckpoint s (.data (.writes n now)) := by
  rw [rowsStale_set h hd hh]
  constructor
  · intro hrow n' now' k' d' commit' he hn' hk hfre
    cases he
    rw [hn] at hn'
    cases hn'
    rcases status_checkpointRow (s.data.stored.get? k) d now with ⟨_, hsta⟩ | ⟨old, hold, hsup, _⟩
    · have hstal := hrow hk
      rw [hsta, hfre] at hstal
      cases hstal
    · exact ⟨old, hold, hsup⟩
  intro hno hk
  rcases status_checkpointRow (s.data.stored.get? k) d now with ⟨hsup, hsta⟩ | ⟨old, hold, _, hrow⟩
  · rw [hsta, Bool.eq_false_iff]
    intro hfre
    obtain ⟨old, hold, hno⟩ := hno n now k d commit rfl hn hk hfre
    rw [hsup old hold] at hno
    cases hno
  · rw [hrow]
    exact h k old hk hold

theorem noFreshCheckpoint_of_not_writes (h : ∀ n now, e ≠ .data (.writes n now)) : NoFreshCheckpoint s e :=
  fun n now _ _ _ he => absurd he (h n now)

theorem freezeNext_rowsStale_iff (hm : Marked s) (hs : RowsStale s) (h : freezeNext s e = some t) :
    RowsStale t ↔ NoFreshCheckpoint s e := by
  cases freezeNext_touches h with
  | freezes he views now hd hf hh =>
    refine iff_of_true ?_ (noFreshCheckpoint_of_not_writes (fun n now => he (.writes n now)))
    exact rowsStale_of_eq (hs.freezeViews views now) hh (by rw [hd])
  | thaws view now ht =>
    subst ht
    refine iff_of_true (hs.thawView view now) (noFreshCheckpoint_of_not_writes ?_)
    intro n now he
    cases he
  | nothing he hf hh hr =>
    exact iff_of_true (rowsStale_of_eq hs hh hr) (noFreshCheckpoint_of_not_writes (fun n now => he (.writes n now)))
  | @rows f ha hd hf hh =>
    by_cases hw : ∃ n now, f = .writes n now
    · obtain ⟨n, now, rfl⟩ := hw
      rcases LiveRuntime.next_writes hd with ⟨k, d, commit, hn, hsto⟩ | ⟨k, c, row, hn, hsto⟩
      · exact rowsStale_checkpoint hs hn hsto hh
      -- `set_data` does not write the row of a frozen view
      refine iff_of_true ((rowsStale_set hs hsto hh).mpr ?_) ?_
      · intro hk
        rw [FreezeState.allows, hn] at ha
        dsimp only at ha
        rw [hm k.1 hk] at ha
        cases ha
      intro n' now' k' d' commit' he hn'
      cases he
      rw [hn] at hn'
      cases hn'
    have hsto := LiveRuntime.next_stored hd (fun n now he => hw ⟨n, now, he⟩)
    refine iff_of_true (rowsStale_of_eq hs hh hsto) (noFreshCheckpoint_of_not_writes ?_)
    intro n now he
    cases he
    exact hw ⟨n, now, rfl⟩

def FreezeState.began (stored : Dict SourceKey Datum) (frozen : String → Bool) : FreezeState where
  data := { stored }
  frozen := frozen

/-- From the freeze on no row of the view is fresh, all along a run, exactly when no step lets a fresh checkpoint
through. -/
theorem frozen_rows_iff {stored : Dict SourceKey Datum} {frozen : String → Bool} {es : List FreezeEvent}
    (h : Runs.run freezeNext (.began stored frozen) es = some t) :
    (∀ pre post s, es = pre ++ post → Runs.run freezeNext (.began stored frozen) pre = some s → RowsStale s) ↔
    Runs.Meets freezeNext NoFreshCheckpoint (.began stored frozen) es := by
  refine Runs.always_iff_meets (fun _ _ _ hm he => freezeNext_marked hm he)
    (fun _ _ _ hm hs he => freezeNext_rowsStale_iff hm hs he) ?_ ?_ h
  · intro view hv
    cases hv
  · intro k d hk
    cases hk

def tick (n : Nat) (value : String) : List FreezeEvent :=
  [.data (.publishes ("view", "clock") (.value 1 { value := .str value })), .data (.locks n 0), .data (.loads n 0)]

def stoppedFreeze : List FreezeEvent :=
  .launches ("view", "clock") :: tick 0 "12:00" ++
    [FreezeEvent.setFrozen "view" true, .resumes 0 .returned, .resumes 0 .returned, .finishes 0, .resumes 0 .returned,
      .resumes 0 .returned, .data (.locks 1 0), .data (.writes 1 1), .resumes 0 .returned, .resumes 0 .returned,
      .resumes 0 (.set 2), .resumes 0 .returned, .resumes 0 .returned, .resumes 0 .returned, .resumes 0 .returned]

def noFreshCheckpointTest (s : FreezeState) : FreezeEvent → Bool
  | .data (.writes n _) =>
    match s.data.stages[n]? with
    | some (.flushes k d _) =>
      !s.frozenHere k.1 || !d.status.fresh || (s.data.stored.get? k).any (fun old => !d.supersedes old)
    | _ => true
  | _ => true

theorem noFreshCheckpoint_of_test (h : noFreshCheckpointTest s e = true) : NoFreshCheckpoint s e := by
  rintro n now k d commit rfl hn hk hfre
  rw [noFreshCheckpointTest] at h
  rw [hn] at h
  dsimp only at h
  rw [hk, hfre, Bool.not_true, Bool.false_or, Bool.false_or] at h
  obtain ⟨old, hold, hsup⟩ := (any_eq_true _ _).mp h
  exact ⟨old, hold, by simpa using hsup⟩

theorem stopped_freeze_stale : ∃ t, Runs.run freezeNext (.began Dict.empty (fun _ => false)) stoppedFreeze = some t ∧
    t.frozenHere "view" = true ∧ RowsStale t := by
  have hrun : (Runs.run freezeNext (.began Dict.empty (fun _ => false)) stoppedFreeze).any
      (fun s => s.frozenHere "view" && (s.data.stored.get? ("view", "clock")).isSome) = true := by decide +kernel
  obtain ⟨t, ht, hfro⟩ := (any_eq_true _ _).mp hrun
  refine ⟨t, ht, (Bool.and_eq_true_iff.mp hfro).1, (frozen_rows_iff ht).mpr (Runs.meets_of_all
    (p := noFreshCheckpointTest) (fun _ _ h => noFreshCheckpoint_of_test h) ?_) stoppedFreeze [] t
    (List.append_nil _).symm ht⟩
  decide +kernel

/-- A tick comes between the flush of `_freeze_inactive` and its transaction. -/
def inactiveFreeze : List FreezeEvent :=
  .launches ("view", "clock") :: tick 0 "12:00" ++
    [FreezeEvent.freezeInactive, .resumes 0 .returned, .resumes 0 .returned, .data (.locks 1 0), .data (.writes 1 1),
      .resumes 0 .returned] ++
    [FreezeEvent.data (.publishes ("view", "clock") (.value 1 { value := .str "12:01" })), .data (.locks 2 2)] ++
    [FreezeEvent.resumes 0 (.froze ["view"] 3), .resumes 0 .returned, .resumes 0 .returned, .resumes 0 .returned, .finishes 0,
      .resumes 0 .returned, .resumes 0 .returned, .data (.locks 3 4), .data (.writes 3 5), .resumes 0 .returned,
      .resumes 0 .returned, .resumes 0 .returned, .resumes 0 .returned, .resumes 0 .returned]

/-- The freeze is over, and the row of the frozen view is ready. -/
theorem frozen_row_ready : ∃ s k d, Runs.run freezeNext (.began Dict.empty (fun _ => false)) inactiveFreeze = some s ∧
    s.routines = [[]] ∧ s.frozen k.1 = true ∧ s.data.stored.get? k = some d ∧ d.status = .ready ∧ ¬ RowsStale s := by
  have hrun : (Runs.run freezeNext (.began Dict.empty (fun _ => false)) inactiveFreeze).any
      (fun s => s.routines.length = 1 && s.routines.all List.isEmpty && s.frozen "view" && s.frozenHere "view" &&
        (s.data.stored.get? ("view", "clock")).any (fun d => d.status = .ready)) = true := by decide +kernel
  obtain ⟨s, hs, htest⟩ := (any_eq_true _ _).mp hrun
  simp only [Bool.and_eq_true] at htest
  obtain ⟨⟨⟨⟨hlen, hdone⟩, hfro⟩, hhere⟩, hrow⟩ := htest
  obtain ⟨d, hd, hrea⟩ := (any_eq_true _ _).mp hrow
  have hrea : d.status = .ready := of_decide_eq_true hrea
  refine ⟨s, ("view", "clock"), d, hs, ?_, hfro, hd, hrea, ?_⟩
  · obtain ⟨todo, htodo⟩ := List.length_eq_one_iff.mp (of_decide_eq_true hlen)
    rw [htodo] at hdone ⊢
    rw [List.all_cons, Bool.and_eq_true] at hdone
    rw [List.isEmpty_iff.mp hdone.1]
  intro h
  have hsta := h ("view", "clock") d hhere hd
  rw [hrea] at hsta
  cases hsta

end OpenAgent.Dashboards
