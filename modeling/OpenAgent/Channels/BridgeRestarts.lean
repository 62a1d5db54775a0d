import OpenAgent.Channels.BridgeEgress
import Mathlib.Data.List.Basic

namespace OpenAgent.Channels.Egress

open Bridge List Option Bridge

def Silent (bridge : Bridge) : Prop := ∀ delivery ∈ bridge.deliveries, delivery.admitted = delivery.stops

def Event.isAnswer (e : Event) : Bool :=
  match e with
  | .answer _ _ => true
  | .start | .ended | .stopSubclass | .stop | .enter | .admission _ _ | .call _ _ => false

def StaysSilent (bridge : Bridge) : Prop :=
  ∀ es reached, (∀ e ∈ es, Event.isAnswer e = true) → Runs.run next bridge es = some reached → Silent reached

def Alive (bridge : Bridge) (check : Check) : Prop :=
  check.stage.waits = true ∧ check.generation = bridge.generation

/-- A turn calls guarded methods only until the next stop or while the bridge is stopped, and a bridge starts again only
when no guarded call from before is alive. -/
def Quiet (bridge : Bridge) (e : Event) : Prop :=
  match e with
  | .call turn _ => bridge.shouldStop = true ∨ bridge.turns[turn]? = some (.admitted bridge.stops)
  | .start => bridge.starting = true ∨ ∀ check ∈ bridge.checks, Alive bridge check → check.admitted = bridge.stops
  | .ended | .stopSubclass | .stop | .enter | .admission _ _ | .answer _ _ => True

def Dated (bridge : Bridge) : Prop :=
  ∀ check ∈ bridge.checks, check.generation ≤ check.inner ∧ check.inner ≤ bridge.generation

structure Held (bridge : Bridge) : Prop where
  silent : Silent bridge
  checks : ∀ check ∈ bridge.checks, Alive bridge check → check.admitted = bridge.stops ∨ bridge.shouldStop = true

section Answers

variable {bridge after : Bridge} {check new : Check} {k : Nat} {ok : Bool}

theorem mem_setCheck {other : Check} (h : other ∈ (bridge.setCheck k new).checks) : other ∈ bridge.checks ∨ other = new :=
  mem_or_eq_of_mem_set h

theorem unchanged {generation : Nat} (h : bridge.changed generation = false) :
    bridge.shouldStop = false ∧ generation = bridge.generation := by
  simpa [changed] using h

theorem advance_cases (h : bridge.advance k check ok = some after) :
    check.stage.waits = true ∧ (after = bridge.raise k check ∨
      bridge.shouldStop = false ∧ check.generation = bridge.generation ∧ (after = bridge.begin k check ∨
        ∃ stage inner, (inner = check.inner ∨ inner = bridge.generation) ∧
          after = bridge.setCheck k { check with stage := stage, inner := inner })) := by
  unfold advance at h
  cases hstage : check.stage with
  | admission =>
    simp only [hstage, some_inj] at h
    refine ⟨rfl, ?_⟩
    split at h
    case isTrue hpass =>
      simp only [Bool.and_eq_true, Bool.not_eq_true', beq_iff_eq] at hpass
      exact .inr ⟨(unchanged hpass.1.2).1, hpass.2, .inr ⟨.refreshing, check.inner, .inl rfl, h.symm⟩⟩
    case isFalse => exact .inl h.symm
  | refreshing =>
    simp only [hstage, some_inj] at h
    refine ⟨rfl, ?_⟩
    split at h
    case isTrue hpass =>
      simp only [Bool.and_eq_true, Bool.not_eq_true'] at hpass
      have hsame := unchanged hpass.2
      exact .inr ⟨hsame.1, hsame.2, .inr ⟨.recheck, bridge.generation, .inr rfl, h.symm⟩⟩
    case isFalse => exact .inl h.symm
  | recheck =>
    simp only [hstage, some_inj] at h
    refine ⟨rfl, ?_⟩
    split at h
    case isTrue hpass =>
      simp only [Bool.and_eq_true, Bool.not_eq_true', beq_iff_eq] at hpass
      refine .inr ⟨(unchanged hpass.1.2).1, hpass.2, ?_⟩
      split at h
      · exact .inr ⟨.granting, check.inner, .inl rfl, h.symm⟩
      · exact .inl h.symm
    case isFalse => exact .inl h.symm
  | granting =>
    simp only [hstage, some_inj] at h
    refine ⟨rfl, ?_⟩
    split at h
    case isTrue hpass =>
      simp only [Bool.and_eq_true, Bool.not_eq_true'] at hpass
      have hsame := unchanged hpass.2
      exact .inr ⟨hsame.1, hsame.2, .inl h.symm⟩
    case isFalse => exact .inl h.symm
  | begun | raised => simp [hstage] at h

theorem Dated.setCheck (new : Check) (hd : Dated bridge) (hnew : new.generation ≤ new.inner ∧ new.inner ≤ bridge.generation) :
    Dated (bridge.setCheck k new) := by
  intro other hmem
  rcases mem_setCheck hmem with hold | rfl
  · exact hd other hold
  · exact hnew

theorem Dated.advance (hd : Dated bridge) (hk : bridge.checks[k]? = some check)
    (h : bridge.advance k check ok = some after) : Dated after := by
  have hche := hd check (mem_of_getElem? hk)
  obtain ⟨_, rfl | ⟨_, hgen, rfl | ⟨stage, inner, hinn, rfl⟩⟩⟩ := advance_cases h
  · exact hd.setCheck _ hche
  · exact hd.setCheck { check with stage := .begun } hche
  refine hd.setCheck _ ?_
  rcases hinn with rfl | rfl
  · exact hche
  · exact ⟨Nat.le_of_eq hgen, Nat.le_refl _⟩

theorem Held.setCheck (new : Check) (hh : Held bridge)
    (hnew : Alive bridge new → new.admitted = bridge.stops ∨ bridge.shouldStop = true) : Held (bridge.setCheck k new) where
  silent := hh.silent
  checks other hmem hali := by
    rcases mem_setCheck hmem with hold | rfl
    · exact hh.checks other hold hali
    · exact hnew hali

theorem Held.advance (hh : Held bridge) (hk : bridge.checks[k]? = some check)
    (h : bridge.advance k check ok = some after) : Held after := by
  have hche := hh.checks check (mem_of_getElem? hk)
  obtain ⟨hwai, rfl | ⟨hstop, hgen, rfl | ⟨stage, inner, _, rfl⟩⟩⟩ := advance_cases h
  · exact hh.setCheck _ (fun hali => by cases hali.1)
  · have hset := hh.setCheck (k := k) { check with stage := .begun } (fun hali => by cases hali.1)
    refine ⟨?_, hset.checks⟩
    intro delivery hmem
    rcases mem_append.mp hmem with hold | hnew
    · exact hh.silent delivery hold
    · rw [mem_singleton.mp hnew]
      exact (hche ⟨hwai, hgen⟩).resolve_right (by simp [hstop])
  · exact hh.setCheck _ (fun _ => hche ⟨hwai, hgen⟩)

theorem next_answer (hk : bridge.checks[k]? = some check) : next bridge (.answer k ok) = bridge.advance k check ok := by
  simp [Bridge.next, hk]

theorem answer_eq_some (h : next bridge (.answer k ok) = some after) :
    ∃ check, bridge.checks[k]? = some check ∧ bridge.advance k check ok = some after := bind_eq_some_iff.mp h

def Delivers (bridge : Bridge) (delivery : Delivery) : Prop :=
  ∃ es reached, (∀ e ∈ es, Event.isAnswer e = true) ∧ Runs.run next bridge es = some reached ∧ delivery ∈ reached.deliveries

theorem Delivers.step {delivery : Delivery} (h : Delivers after delivery) (hk : bridge.checks[k]? = some check)
    (hnext : bridge.advance k check ok = some after) : Delivers bridge delivery := by
  obtain ⟨es, reached, hans, hrun, hmem⟩ := h
  refine ⟨.answer k ok :: es, reached, ?_, ?_, hmem⟩
  · intro e he
    rcases mem_cons.mp he with rfl | he
    · rfl
    · exact hans e he
  · rw [Runs.run_cons, next_answer hk, hnext]
    exact hrun

theorem delivers_of_mem {delivery : Delivery} (h : delivery ∈ bridge.deliveries) : Delivers bridge delivery :=
  ⟨[], bridge, by simp, rfl, h⟩

theorem getElem?_setCheck (new : Check) (hk : bridge.checks[k]? = some check) : (bridge.setCheck k new).checks[k]? = some new :=
  List.getElem?_set_self (List.getElem?_eq_some_iff.mp hk).1

def Check.delivery (check : Check) (stops : Nat) : Delivery :=
  { turn := check.turn, primitive := check.primitive, admitted := check.admitted, stops := stops }

theorem delivers_granting (hk : bridge.checks[k]? = some check) (hstage : check.stage = .granting)
    (hstop : bridge.shouldStop = false) (hgen : check.generation = bridge.generation) :
    Delivers bridge (check.delivery bridge.stops) := by
  have hnext : bridge.advance k check true = some (bridge.begin k check) := by
    simp [advance, hstage, changed, hstop, hgen]
  exact (delivers_of_mem (mem_append_right _ (mem_singleton.mpr rfl))).step hk hnext

theorem delivers_recheck (hk : bridge.checks[k]? = some check) (hstage : check.stage = .recheck)
    (hstop : bridge.shouldStop = false) (hgen : check.generation = bridge.generation)
    (hinn : check.inner = bridge.generation) : Delivers bridge (check.delivery bridge.stops) := by
  cases hpol : bridge.policy with
  | true =>
    have hnext : bridge.advance k check true = some (bridge.setCheck k { check with stage := .granting }) := by
      simp [advance, hstage, changed, hstop, hgen, hinn, hpol]
    exact (delivers_granting (getElem?_setCheck { check with stage := .granting } hk) rfl hstop hgen).step hk hnext
  | false =>
    have hnext : bridge.advance k check true = some (bridge.begin k check) := by
      simp [advance, hstage, changed, hstop, hgen, hinn, hpol]
    exact (delivers_of_mem (mem_append_right _ (mem_singleton.mpr rfl))).step hk hnext

theorem delivers_refreshing (hk : bridge.checks[k]? = some check) (hstage : check.stage = .refreshing)
    (hstop : bridge.shouldStop = false) (hgen : check.generation = bridge.generation) :
    Delivers bridge (check.delivery bridge.stops) := by
  have hnext : bridge.advance k check true =
      some (bridge.setCheck k { check with stage := .recheck, inner := bridge.generation }) := by
    simp [advance, hstage, changed, hstop, hgen]
  exact (delivers_recheck (getElem?_setCheck { check with stage := .recheck, inner := bridge.generation } hk) rfl hstop hgen rfl).step hk hnext

theorem delivers_of_alive (hd : Dated bridge) (hk : bridge.checks[k]? = some check) (hali : Alive bridge check)
    (hstop : bridge.shouldStop = false) : Delivers bridge (check.delivery bridge.stops) := by
  obtain ⟨hwai, hgen⟩ := hali
  have hinn : check.inner = bridge.generation := by
    have hdat := hd check (mem_of_getElem? hk)
    omega
  cases hstage : check.stage with
  | admission =>
    have hnext : bridge.advance k check true = some (bridge.setCheck k { check with stage := .refreshing }) := by
      simp [advance, hstage, changed, hstop, hgen, hinn]
    exact (delivers_refreshing (getElem?_setCheck { check with stage := .refreshing } hk) rfl hstop hgen).step hk hnext
  | refreshing => exact delivers_refreshing hk hstage hstop hgen
  | recheck => exact delivers_recheck hk hstage hstop hgen hinn
  | granting => exact delivers_granting hk hstage hstop hgen
  | begun | raised => simp [hstage, Stage.waits] at hwai

theorem not_staysSilent (hd : Dated bridge) (hk : bridge.checks[k]? = some check) (hali : Alive bridge check)
    (hstop : bridge.shouldStop = false) (hold : check.admitted ≠ bridge.stops) : ¬ StaysSilent bridge := by
  intro hsil
  obtain ⟨es, reached, hans, hrun, hmem⟩ := delivers_of_alive hd hk hali hstop
  exact hold (hsil es reached hans hrun _ hmem)

end Answers

section Steps

variable {bridge after : Bridge} {e : Event}

theorem admitTurn_cases {turn : Nat} {ok : Bool} (h : bridge.admitTurn turn ok = some after) :
    ∃ turns, after = { bridge with turns := turns } := by
  unfold admitTurn at h
  split at h
  · cases h
    exact ⟨_, rfl⟩
  · cases h
  · cases h
  · cases h

theorem call_cases {turn : Nat} {primitive : Primitive} (h : bridge.call turn primitive = some after) :
    ∃ stops, bridge.turns[turn]? = some (.admitted stops) ∧ after = { bridge with checks := bridge.checks ++
      [{ turn := turn, primitive := primitive, admitted := stops, generation := bridge.generation,
         inner := bridge.generation, stage := if bridge.shouldStop then .raised else .admission }] } := by
  unfold call at h
  split at h
  · cases h
    exact ⟨_, ‹_›, rfl⟩
  · cases h
  · cases h
  · cases h

theorem Dated.next (hd : Dated bridge) (h : next bridge e = some after) : Dated after := by
  cases e with
  | start =>
    cases h
    unfold start
    split <;> exact hd
  | ended | stopSubclass | enter =>
    cases h
    exact hd
  | stop =>
    cases h
    intro check hmem
    have hdat := hd check hmem
    simp only [stop]
    split <;> omega
  | admission turn ok =>
    obtain ⟨turns, rfl⟩ := admitTurn_cases h
    exact hd
  | call turn primitive =>
    obtain ⟨stops, _, rfl⟩ := call_cases h
    intro check hmem
    rcases mem_append.mp hmem with hold | hnew
    · exact hd check hold
    · rw [mem_singleton.mp hnew]
      exact ⟨Nat.le_refl _, Nat.le_refl _⟩
  | answer k ok =>
    obtain ⟨check, hk, hadv⟩ := answer_eq_some h
    exact hd.advance hk hadv

theorem Held.next (hh : Held bridge) (hq : Quiet bridge e) (h : next bridge e = some after) : Held after := by
  cases e with
  | start =>
    cases h
    unfold start
    split
    case isTrue => exact hh
    case isFalse hsta =>
      exact ⟨hh.silent, fun check hmem hali => .inl (hq.resolve_left hsta check hmem hali)⟩
  | ended | enter =>
    cases h
    exact ⟨hh.silent, hh.checks⟩
  | stopSubclass | stop =>
    cases h
    exact ⟨hh.silent, fun _ _ _ => .inr rfl⟩
  | admission turn ok =>
    obtain ⟨turns, rfl⟩ := admitTurn_cases h
    exact ⟨hh.silent, hh.checks⟩
  | call turn primitive =>
    obtain ⟨stops, hturn, rfl⟩ := call_cases h
    refine ⟨hh.silent, fun check hmem hali => ?_⟩
    rcases mem_append.mp hmem with hold | hnew
    · exact hh.checks check hold hali
    rw [mem_singleton.mp hnew]
    refine (hq.imp id fun hadm => ?_).symm
    rw [hturn, some_inj, Turn.admitted.injEq] at hadm
    exact hadm
  | answer k ok =>
    obtain ⟨check, hk, hadv⟩ := answer_eq_some h
    exact hh.advance hk hadv

theorem Held.staysSilent (hh : Held bridge) : StaysSilent bridge := by
  intro es reached hans hrun
  have hqui : Runs.Meets Egress.Bridge.next Quiet bridge es := by
    intro pre e post t hes _
    have hansw := hans e (by simp [hes])
    cases e <;> first | exact trivial | cases hansw
  exact (Runs.invariant_under (fun _ _ _ hh hq he => hh.next hq he) hh ⟨es, hqui, hrun⟩ : Held reached).silent

theorem loud (hd : Dated bridge) (hq : ¬ Quiet bridge e) (h : next bridge e = some after) : ¬ StaysSilent after := by
  have hdat := hd.next h
  cases e with
  | start =>
    simp only [Quiet, not_or, not_forall] at hq
    obtain ⟨hsta, check, hmem, hali, hold⟩ := hq
    cases h
    obtain ⟨k, hk⟩ := mem_iff_getElem?.mp hmem
    simp only [start, if_neg hsta] at hdat ⊢
    exact not_staysSilent hdat hk hali rfl hold
  | call turn primitive =>
    simp only [Quiet, not_or] at hq
    obtain ⟨hstop, hfre⟩ := hq
    obtain ⟨stops, hturn, rfl⟩ := call_cases h
    refine not_staysSilent hdat (k := bridge.checks.length) (List.getElem?_concat_length) ?_ (by simpa using hstop) ?_
    · exact ⟨by simp [hstop, Stage.waits], rfl⟩
    intro hsame
    rw [show stops = bridge.stops from hsame] at hturn
    exact hfre hturn
  | _ => exact absurd trivial hq

end Steps

/-- A turn that a stop came after delivers nothing, and nothing under way can make it, exactly as long as its guarded calls
are made only while the bridge is stopped, and it is not started again while one from before is alive. -/
theorem stopped_turns_silent_iff {policy : Bool} {es : List Event} {bridge : Bridge}
    (h : Runs.run next { policy := policy } es = some bridge) :
    (∀ pre post reached, es = pre ++ post → Runs.run next { policy := policy } pre = some reached → StaysSilent reached) ↔
      Runs.Meets next Quiet { policy := policy } es := by
  refine Runs.always_iff_meets_of (I := Held) (J := Dated) (fun _ hh => hh.staysSilent) (fun _ _ _ hd he => hd.next he) ?_
    (by simp [Dated]) ⟨by simp [Silent], by simp⟩ h
  intro before e after hd hh he
  by_cases hq : Quiet before e
  · have hheld := hh.next hq he
    exact ⟨iff_of_true hheld.staysSilent hq, fun _ => hheld⟩
  · have hloud := loud hd hq he
    exact ⟨iff_of_false hloud hq, fun hsil => absurd hsil hloud⟩

instance (bridge : Bridge) (check : Check) : Decidable (Alive bridge check) := instDecidableAnd

instance (bridge : Bridge) (e : Event) : Decidable (Quiet bridge e) :=
  match e with
  | .call turn _ => inferInstanceAs (Decidable
      (bridge.shouldStop = true ∨ bridge.turns[turn]? = some (.admitted bridge.stops)))
  | .start => inferInstanceAs (Decidable
      (bridge.starting = true ∨ ∀ check ∈ bridge.checks, Alive bridge check → check.admitted = bridge.stops))
  | .ended | .stopSubclass | .stop | .enter | .admission _ _ | .answer _ _ => inferInstanceAs (Decidable True)

def restartedRun : List Event :=
  [.start, .enter, .admission 0 true, .call 0 .sendTextChunk, .answer 0 true, .answer 0 true, .answer 0 true,
    .call 0 .sendTextChunk, .stop, .answer 1 true, .call 0 .sendTextChunk, .ended, .start, .enter, .admission 1 true,
    .call 1 .sendTextChunk, .answer 3 true, .answer 3 true, .answer 3 true]

def slackRestart : List Event :=
  [.start, .enter, .admission 0 true, .call 0 .sendTextChunk, .stopSubclass, .stop, .ended, .start, .answer 0 true,
    .answer 0 true, .answer 0 true]

theorem restarted_run_silent : ∃ reached, Runs.run next ({ policy := false } : Bridge) restartedRun = some reached ∧
    reached.deliveries.map Delivery.turn = [0, 1] ∧ StaysSilent reached := by
  have hrun : ∃ reached, Runs.run next ({ policy := false } : Bridge) restartedRun = some reached ∧
      reached.deliveries.map Delivery.turn = [0, 1] := ⟨_, rfl, rfl⟩
  obtain ⟨reached, hrea, htur⟩ := hrun
  have hqui : Runs.Meets next Quiet ({ policy := false } : Bridge) restartedRun :=
    Runs.meets_of_all (p := fun bridge e => decide (Quiet bridge e)) (fun _ _ => of_decide_eq_true) (by decide)
  exact ⟨reached, hrea, htur,
    (stopped_turns_silent_iff hrea).mpr hqui restartedRun [] reached (append_nil _).symm hrea⟩

theorem old_turn_delivers : ¬ ∀ (policy : Bool) (es : List Event) (bridge : Bridge),
      Runs.run next { policy := policy } es = some bridge → Silent bridge := by
  intro hall
  have hsil := hall false slackRestart _ rfl
  exact absurd (hsil { turn := 0, primitive := .sendTextChunk, admitted := 0, stops := 2 } (by decide)) (by decide)

end OpenAgent.Channels.Egress
