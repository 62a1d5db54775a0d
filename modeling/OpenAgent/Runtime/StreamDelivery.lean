import OpenAgent.Runtime.Observation

namespace OpenAgent.Runtime

open Py List World

theorem payloads_append (l k : List RunEvent) : payloads (l ++ k) = payloads l ++ payloads k := by
  rw [payloads, filter_append, map_append]
  rfl

theorem missed_concat (es : List Event) (e : Event) : missed (es ++ [e]) = match e with
    | .appends x => missed es ++ [x]
    | .events => []
    | _ => missed es := by
  rw [missed, foldl_append]
  rfl

def seen (w : World) : List RunEvent := Feed.upto RunEvent.cursor w.observer.cursor w.log

def unseen (w : World) : List RunEvent := Feed.after RunEvent.cursor w.observer.cursor w.log

def Stage.Ahead (late unseen : List RunEvent) : Stage → Prop
  | .handling rest => unseen = rest ++ late
  | .checking => unseen = late
  | .returned => unseen = late
  | _ => True

def closing (prepared : PreparedRun) (w : World) : List Json :=
  if w.observer.completedFrame then [] else [donePayload prepared.runId w.record.output]

def Yielded (prepared : PreparedRun) (w : World) : Prop :=
  match w.observer.stage with
  | .returned => w.record.terminal = true ∧ w.observer.yielded = payloads (seen w) ++ closing prepared w
  | _ => w.observer.yielded = payloads (seen w)

structure Following (prepared : PreparedRun) (es : List Event) (w : World) : Prop where
  increasing : Feed.Increasing RunEvent.cursor w.log
  behind : ∀ c, 0 < c → (∀ x ∈ w.log, x.cursor < c) → w.observer.cursor < c
  completed : w.observer.completedFrame = (payloads (seen w)).any isDone
  ahead : w.observer.stage.Ahead (missed es) (unseen w)
  yielded : Yielded prepared w

namespace Following

variable {prepared : PreparedRun} {es : List Event} {w w' : World}

theorem start : Following prepared [] {} :=
  ⟨List.Pairwise.nil, fun _ hc _ => hc, rfl, trivial, rfl⟩

theorem split (h : Following prepared es w) : seen w ++ unseen w = w.log := Feed.upto_append_after h.increasing

theorem enter (h : Following prepared es w) {s : Stage} {e : Event} (hs : s.Ahead (missed (es ++ [e])) (unseen w))
    (hold : w.observer.stage ≠ .returned) (hnew : s ≠ .returned) : Following prepared (es ++ [e]) (w.enter s) := by
  refine ⟨h.increasing, h.behind, h.completed, hs, ?_⟩
  have hy := h.yielded
  rw [Yielded] at hy ⊢
  split at hy
  · rename_i hr
    exact absurd hr hold
  split
  · rename_i hr
    exact absurd hr hnew
  · exact hy

theorem appends (h : Following prepared es w) {x : RunEvent} (hter : w.record.terminal = false)
    (hpos : 0 < x.cursor) (hlast : ∀ y ∈ w.log, y.cursor < x.cursor) :
    Following prepared (es ++ [.appends x]) { w with log := w.log ++ [x] } := by
  have hlt := h.behind x.cursor hpos hlast
  have hseen : seen { w with log := w.log ++ [x] } = seen w := Feed.upto_append hlt
  have huns : unseen { w with log := w.log ++ [x] } = unseen w ++ [x] := Feed.after_append hlt
  refine ⟨h.increasing.append hlast, ?_, ?_, ?_, ?_⟩
  · intro c hc hall
    exact h.behind c hc (fun y hy => hall y (mem_append_left _ hy))
  · rw [hseen]
    exact h.completed
  · have ha := h.ahead
    rw [missed_concat, huns]
    show w.observer.stage.Ahead (missed es ++ [x]) (unseen w ++ [x])
    revert ha
    cases w.observer.stage with
    | handling rest =>
      intro ha
      have ha : unseen w = rest ++ missed es := ha
      show unseen w ++ [x] = rest ++ (missed es ++ [x])
      rw [ha, append_assoc]
    | checking | returned => exact fun ha => congrArg (· ++ [x]) ha
    | reading | sleeping | raised => exact fun _ => trivial
  · have hy := h.yielded
    rw [Yielded] at hy ⊢
    rw [hseen]
    split at hy
    · rename_i hr
      rw [hter] at hy
      cases hy.1
    · exact hy

theorem updates (h : Following prepared es w) {record : RunRecord} (hter : w.record.terminal = false) :
    Following prepared (es ++ [.updates record]) { w with record } := by
  refine ⟨h.increasing, h.behind, h.completed, ?_, ?_⟩
  · rw [missed_concat]
    exact h.ahead
  have hy := h.yielded
  rw [Yielded] at hy ⊢
  split at hy
  · rw [hter] at hy
    cases hy.1
  · exact hy

end Following

variable {loads : String → Option Json} {onStatus : Bool}

theorem Observer.handle_spec {o o' : Observer} {e : RunEvent}
    (h : o.handle loads onStatus e = some o') : o'.cursor = e.cursor ∧ o'.yielded = o.yielded ++ payloads [e] ∧
      o'.completedFrame = (o.completedFrame || (payloads [e]).any isDone) := by
  rw [Observer.handle] at h
  by_cases hs : e.kind = "run.stream"
  · have hp : payloads [e] = [e.payload] := by simp [payloads, hs]
    rw [if_pos hs] at h
    cases h
    rw [hp]
    exact ⟨rfl, rfl, by simp⟩
  have hp : payloads [e] = [] := by simp [payloads, hs]
  rw [if_neg hs] at h
  rw [hp, append_nil, any_nil, Bool.or_false]
  split at h
  · cases h
    exact ⟨rfl, rfl, rfl⟩
  split at h
  · simp only [Option.bind_eq_bind, Option.bind_eq_some_iff] at h
    obtain ⟨_, -, _, -, h⟩ := h
    cases h
    exact ⟨rfl, rfl, rfl⟩
  · cases h
    exact ⟨rfl, rfl, rfl⟩
variable {prepared : PreparedRun}

variable {es : List Event} {w : World}

theorem Following.handles (h : Following prepared es w)
    {e : RunEvent} {rest : List RunEvent} {o : Observer}
    (hstage : w.observer.stage = .handling (e :: rest)) (ho : w.observer.handle loads onStatus e = some o) :
    Following prepared (es ++ [.handles]) { w with observer := { o with stage := .handling rest } } := by
  obtain ⟨hcur, hyie, hcom⟩ := Observer.handle_spec ho
  have hahe : unseen w = e :: (rest ++ missed es) := by
    have ha := h.ahead
    rw [hstage] at ha
    exact ha
  obtain ⟨hupto, hafter⟩ := Feed.advance h.increasing hahe
  have hmem : e ∈ w.log := by
    rw [← h.split, hahe]
    exact mem_append_right _ mem_cons_self
  have hseen : seen { w with observer := { o with stage := .handling rest } } = seen w ++ [e] := by
    rw [seen]
    show Feed.upto RunEvent.cursor o.cursor w.log = _
    rw [hcur]
    exact hupto
  have hy : w.observer.yielded = payloads (seen w) := by
    have hy := h.yielded
    rw [Yielded, hstage] at hy
    exact hy
  refine ⟨h.increasing, ?_, ?_, ?_, ?_⟩
  · intro c _ hall
    show o.cursor < c
    rw [hcur]
    exact hall e hmem
  · show o.completedFrame = _
    rw [hseen, payloads_append, any_append, ← h.completed, hcom]
  · rw [missed_concat]
    show unseen _ = rest ++ missed es
    rw [unseen]
    show Feed.after RunEvent.cursor o.cursor w.log = _
    rw [hcur]
    exact hafter
  · rw [Yielded]
    show o.yielded = _
    rw [hseen, payloads_append, ← hy, hyie]

theorem Following.settle (h : Following prepared es w)
    (hstage : w.observer.stage = .checking) : Following prepared (es ++ [.getRun]) (w.settle prepared) := by
  have hahe : unseen w = missed es := by
    have ha := h.ahead
    rw [hstage] at ha
    exact ha
  have hy : w.observer.yielded = payloads (seen w) := by
    have hy := h.yielded
    rw [Yielded, hstage] at hy
    exact hy
  have hold : w.observer.stage ≠ .returned := by rw [hstage]; nofun
  rw [World.settle]
  split
  · rename_i hter
    split
    · exact h.enter trivial hold nofun
    refine ⟨h.increasing, h.behind, h.completed, ?_, ?_⟩
    · rw [missed_concat]
      exact hahe
    refine ⟨hter, ?_⟩
    show (if w.observer.completedFrame then w.observer.yielded else _) = payloads (seen w) ++ closing prepared _
    rw [closing, hy]
    split
    · exact (append_nil _).symm
    · rfl
  · exact h.enter trivial hold nofun

theorem following_next (es : List Event) (w : World) (e : Event) (w' : World) (h : Following prepared es w)
    (hn : w.next loads onStatus prepared e = some w') : Following prepared (es ++ [e]) w' := by
  have hact : w.observer.isActive = true → w.observer.stage ≠ .returned := by
    intro ha hs
    rw [Observer.isActive, hs] at ha
    cases ha
  cases e with
  | appends x =>
    rw [World.next] at hn
    split at hn
    · rename_i hok
      cases hn
      simp only [Bool.and_eq_true, Bool.not_eq_true', decide_eq_true_eq, all_eq_true] at hok
      exact h.appends hok.1.1 hok.1.2 hok.2
    · cases hn
  | updates record =>
    rw [World.next] at hn
    split at hn
    · cases hn
    rename_i hter
    cases hn
    exact h.updates (Bool.not_eq_true _ ▸ hter)
  | events =>
    rw [World.next] at hn
    split at hn
    · rename_i hs
      cases hn
      refine h.enter ?_ (by rw [hs]; nofun) nofun
      rw [missed_concat]
      exact (append_nil _).symm
    · cases hn
  | handles =>
    rw [World.next] at hn
    split at hn
    · rename_i x rest hs
      cases hn
      split
      · rename_i o ho
        exact h.handles hs ho
      · exact h.enter trivial (by rw [hs]; nofun) nofun
    · rename_i hs
      cases hn
      refine h.enter ?_ (by rw [hs]; nofun) nofun
      have ha := h.ahead
      rw [hs] at ha
      rw [missed_concat]
      exact ha
    · cases hn
  | getRun =>
    rw [World.next] at hn
    split at hn
    · rename_i hs
      cases hn
      exact h.settle hs
    · cases hn
  | wakes =>
    rw [World.next] at hn
    split at hn
    · rename_i hs
      cases hn
      exact h.enter trivial (by rw [hs]; nofun) nofun
    · cases hn
  | fails =>
    rw [World.next] at hn
    split at hn
    · rename_i ha
      cases hn
      exact h.enter trivial (hact ha) nofun
    · cases hn
  | cancels =>
    rw [World.next] at hn
    split at hn
    · rename_i ha
      cases hn
      have hrai := h.enter (s := .raised) (e := .cancels) trivial (hact ha) nofun
      exact ⟨hrai.increasing, hrai.behind, hrai.completed, hrai.ahead, hrai.yielded⟩
    · cases hn

/-- Nothing was appended to the stream after the last read, or only the very frame that the observer adds
when there was none. -/
def Covered (prepared : PreparedRun) (es : List Event) (w : World) : Prop :=
  payloads (missed es) = [] ∨ payloads (missed es) = [donePayload prepared.runId w.record.output] ∧
      ∃ before, payloads w.log = before ++ payloads (missed es) ∧ before.any isDone = false

theorem isDone_donePayload (runId : String) (output : Json) : isDone (donePayload runId output) = true := by
  rw [isDone, donePayload]
  rfl

theorem returned_misses (h : Following prepared es w)
    (hs : w.observer.stage = .returned) : payloads w.log = payloads (seen w) ++ payloads (missed es) := by
  have ha := h.ahead
  rw [hs] at ha
  have ha : unseen w = missed es := ha
  rw [← h.split, payloads_append, ha]

theorem closing_iff (taken late : List Json) {frame : Json} (hf : isDone frame = true) :
    ((if taken.any isDone then [] else [frame]) = late ++ if taken.any isDone || late.any isDone then [] else [frame]) ↔
    late = [] ∨ late = [frame] ∧ taken.any isDone = false := by
  cases ht : taken.any isDone with
  | true =>
    rw [if_pos rfl, Bool.true_or, if_pos rfl, append_nil]
    constructor
    · exact fun h => .inl h.symm
    rintro (h | ⟨-, h⟩)
    · exact h.symm
    · cases h
  | false =>
    rw [if_neg Bool.false_ne_true, Bool.false_or]
    cases hl : late.any isDone with
    | true =>
      rw [if_pos rfl, append_nil]
      constructor
      · exact fun h => .inr ⟨h.symm, rfl⟩
      rintro (rfl | ⟨h, -⟩)
      · cases hl
      · exact h.symm
    | false =>
      rw [if_neg Bool.false_ne_true]
      constructor
      · intro h
        exact .inl (self_eq_append_left.mp h)
      rintro (rfl | ⟨rfl, -⟩)
      · rfl
      · simp [hf] at hl

/-- When an observer returns it has yielded the whole stream, with one done frame added where there was none,
if and only if its last read was `Covered`. -/
theorem observe_run_iff {loads : String → Option Json} {onStatus : Bool} {prepared : PreparedRun} {es : List Event}
    {w : World} (hr : Runs.run (fun w e => World.next loads onStatus prepared w e) {} es = some w)
    (hs : w.observer.stage = .returned) :
    w.observer.yielded = w.expected prepared ↔ Covered prepared es w := by
  have h : Following prepared es w := Runs.history Following.start following_next hr
  have hlog := returned_misses h hs
  have hy := h.yielded
  rw [Yielded, hs] at hy
  rw [hy.2, expected, closing, h.completed, Covered, hlog, any_append, append_assoc,
    append_cancel_left_eq]
  refine (closing_iff _ _ (isDone_donePayload _ _)).trans (or_congr Iff.rfl (and_congr Iff.rfl ?_))
  constructor
  · intro hnone
    exact ⟨_, rfl, hnone⟩
  rintro ⟨before, hbef, hnone⟩
  rw [append_cancel_right hbef]
  exact hnone

def delta (text : String) : Json := .obj [("kind", .str "delta"), ("text", .str text)]

def endsBetween : List Event :=
  [.events, .handles, .appends ⟨1, "run.stream", delta "Hello"⟩, .updates ⟨"success", true, .str "Hello"⟩, .getRun]

def endsBefore : List Event :=
  [.appends ⟨1, "run.stream", delta "Hello"⟩, .updates ⟨"success", true, .str "Hello"⟩,
    .events, .handles, .handles, .getRun]

def returns (w : World) : Bool :=
  match w.observer.stage with
  | .returned => true
  | _ => false

theorem returns_holds (h : returns w = true) : w.observer.stage = .returned := by
  rw [returns] at h
  split at h
  · assumption
  · cases h

theorem last_event_lost : ¬ ∀ es w,
    Runs.run (fun w e => World.next (fun _ => none) false ⟨"run", true⟩ w e) {} es = some w →
    w.observer.stage = .returned → w.observer.yielded = w.expected ⟨"run", true⟩ := by
  intro hall
  have hrun : (Runs.run (fun w e => next (fun _ => none) false ⟨"run", true⟩ w e) {} endsBetween).any
      (fun w => returns w && decide (w.observer.yielded ≠ w.expected ⟨"run", true⟩)) = true := by
    decide +kernel
  obtain ⟨w, hw, htest⟩ := (Option.any_eq_true _ _).mp hrun
  rw [Bool.and_eq_true, decide_eq_true_eq] at htest
  exact htest.2 (hall _ w hw (returns_holds htest.1))

theorem observe_run_covered : ∃ w,
    Runs.run (fun w e => World.next (fun _ => none) false ⟨"run", true⟩ w e) {} endsBefore = some w ∧
    w.observer.stage = .returned ∧ w.observer.yielded = w.expected ⟨"run", true⟩ := by
  have hrun : (Runs.run (fun w e => next (fun _ => none) false ⟨"run", true⟩ w e) {} endsBefore).any
      returns = true := by
    decide +kernel
  obtain ⟨w, hw, hs⟩ := (Option.any_eq_true _ _).mp hrun
  exact ⟨w, hw, returns_holds hs, (observe_run_iff hw (returns_holds hs)).mpr (.inl rfl)⟩

variable {loads : String → Option Json} {onStatus : Bool}

/-- Whatever the reads raced with, the events come out in the order of the log, without gap or repetition, and one done
frame is added at most, to a stream that has none. -/
theorem observer_yields_in_order {prepared : PreparedRun} {es : List Event} {w : World}
    (hr : Runs.run (fun w e => World.next loads onStatus prepared w e) {} es = some w) :
    ∃ read, read <+: w.log ∧ (w.observer.yielded = payloads read ∨
      w.observer.stage = .returned ∧ w.record.terminal = true ∧ (payloads read).any isDone = false ∧
        w.observer.yielded = payloads read ++ [donePayload prepared.runId w.record.output]) := by
  have h : Following prepared es w := Runs.history Following.start following_next hr
  refine ⟨seen w, ⟨unseen w, h.split⟩, ?_⟩
  have hy := h.yielded
  rw [Yielded] at hy
  split at hy
  next hs =>
    rw [closing, h.completed] at hy
    cases hdone : (payloads (seen w)).any isDone with
    | true => exact .inl (by rw [hy.2, hdone, if_pos rfl, append_nil])
    | false => exact .inr ⟨hs, hy.1, rfl, by rw [hy.2, hdone, if_neg Bool.false_ne_true]⟩
  next => exact .inl hy

theorem observer_yields_hello : ∃ w read,
    Runs.run (fun w e => World.next (fun _ => none) false ⟨"run", true⟩ w e) {} endsBefore = some w ∧ read <+: w.log := by
  have hrun : (Runs.run (fun w e => World.next (fun _ => none) false ⟨"run", true⟩ w e) {} endsBefore).isSome = true := by
    decide +kernel
  obtain ⟨w, hw⟩ := Option.isSome_iff_exists.mp hrun
  obtain ⟨read, hread, _⟩ := observer_yields_in_order hw
  exact ⟨w, read, hw, hread⟩

end OpenAgent.Runtime
