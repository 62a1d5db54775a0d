import Mathlib.Data.List.DropRight
import OpenAgent.Lib.Text

namespace OpenAgent.Channels.LiveNarration

open List

abbrev Text := List Char

inductive RunEvent where
  | stream (kind : String) (text : Option Text)
  | status (text : Text)
  | other
  deriving DecidableEq

structure BridgeEvent where
  kind : String
  text : Text

inductive Part (α : Type) where
  | text (text : Text)
  | attachment (attachment : α)

/-- The visible text of `parse_response_markers`, and the line of a tool status. -/
structure Rendering where
  visible : Text → Text
  formatToolMessage : Text → Option Text

structure LiveProgress where
  postedChars : Nat := 0
  postedAny : Bool := false
  latest : Text := []

/-- The progress of a turn and the spans that it handed to `send_response_text`, before their markers are stripped. -/
structure Turn where
  live : LiveProgress := {}
  spans : List Text := []

/-- What `NativeChannelTransport.send` passes on of an event of the run. -/
def bridgeEvent (event : RunEvent) : Option BridgeEvent :=
  match event with
  | .stream kind text => if kind = "delta" then some ⟨"text", text.getD []⟩ else none
  | .status text => some ⟨"status", text⟩
  | .other => none

def onDelta (runningText : Text) (turn : Turn) : Turn :=
  if turn.live.latest.length < runningText.length then { turn with live := { turn.live with latest := runningText } }
  else turn

namespace Rendering

variable (r : Rendering)

def blank (segment : Text) : Bool := Py.stripChars (r.visible segment) = []

def line (raw : Text) : Option Text := (r.formatToolMessage raw).filter (· ≠ [])

def liveFlushText (accumulated : Text) (turn : Turn) : Turn :=
  if accumulated = [] then turn
  else if accumulated.length ≤ turn.live.postedChars then turn
  else
    let segment := accumulated.drop turn.live.postedChars
    let live := { turn.live with postedChars := accumulated.length }
    if r.blank segment then { turn with live := live }
    else ⟨{ live with postedAny := true }, turn.spans ++ [segment]⟩

/-- `on_status`; a native transport has no collector. -/
def onStatus (raw : Text) (turn : Turn) : Turn :=
  let turn := r.liveFlushText turn.live.latest turn
  if r.line raw = none then turn else { turn with live := { turn.live with postedAny := true } }

/-- `on_event` of `send_message`; the notices of a compaction leave the progress alone. -/
def onEvent (event : BridgeEvent) (turn : Turn) : Turn :=
  if event.kind = "status" then r.onStatus event.text turn
  else if event.kind ∈ ["text", "delta", "text_delta"] then onDelta event.text turn
  else turn

def step (turn : Turn) (event : RunEvent) : Turn :=
  match bridgeEvent event with
  | some event => r.onEvent event turn
  | none => turn

end Rendering

variable {α : Type}

/-- The spans of `_deliver_typed_parts`, where `skip` characters were posted before. -/
def deliverTypedParts (skip : Nat) : List (Part α) → List Text
  | [] => []
  | .text text :: parts =>
    let consumed := min skip text.length
    text.drop consumed :: deliverTypedParts (skip - consumed) parts
  | .attachment _ :: parts => deliverTypedParts skip parts

/-- The spans of `_dispatch_turn`. -/
def dispatchTurn (r : Rendering) (events : List RunEvent) (parts : List (Part α)) : List Text :=
  let turn := events.foldl r.step {}
  turn.spans ++ deliverTypedParts (if turn.live.postedAny then turn.live.postedChars else 0) parts

def answer (parts : List (Part α)) : Text :=
  parts.flatMap (fun part => match part with
    | .text text => text
    | .attachment _ => [])

def increment (event : RunEvent) : Option Text :=
  match event with
  | .stream kind text => if kind = "delta" then some (text.getD []) else none
  | .status _ | .other => none

def increments (events : List RunEvent) : List Text := events.filterMap increment

def longest (texts : List Text) : Text :=
  texts.foldl (fun best text => if best.length < text.length then text else best) []

def isStatus (event : RunEvent) : Bool :=
  match event with
  | .status _ => true
  | .stream _ _ | .other => false

def marked (events : List RunEvent) : Nat :=
  (longest (increments (events.rdropWhile (fun event => !isStatus event)))).length

def cut (events : List RunEvent) : Text := (longest (increments events)).drop (marked events)

def Silent (r : Rendering) (events : List RunEvent) : Prop :=
  ∀ before raw after, events = before ++ .status raw :: after →
    r.line raw = none ∧ (cut before = [] ∨ r.blank (cut before) = true)

def InPlace (r : Rendering) (text : Text) (events : List RunEvent) : Prop :=
  ∀ before raw after, events = before ++ .status raw :: after → cut before = [] ∨ r.blank (cut before) = false ∧
      cut before = (text.take (longest (increments before)).length).drop (marked before)

theorem longest_concat (texts : List Text) (text : Text) :
    longest (texts ++ [text]) = if (longest texts).length < text.length then text else longest texts := by
  rw [longest, foldl_append]
  rfl

theorem length_longest_le (texts : List Text) (text : Text) :
    (longest texts).length ≤ (longest (texts ++ [text])).length := by
  rw [longest_concat]
  split <;> omega

variable {event : RunEvent}

theorem increments_none (events : List RunEvent) (h : increment event = none) :
    increments (events ++ [event]) = increments events := by
  simp [increments, h]

theorem increments_some (events : List RunEvent) {text : Text} (h : increment event = some text) :
    increments (events ++ [event]) = increments events ++ [text] := by
  simp [increments, h]

theorem marked_status (events : List RunEvent) (raw : Text) :
    marked (events ++ [.status raw]) = (longest (increments events)).length := by
  rw [marked, rdropWhile_concat_neg _ _ _ (by simp [isStatus]), increments_none _ rfl]

theorem marked_concat (events : List RunEvent) (h : isStatus event = false) :
    marked (events ++ [event]) = marked events := by
  rw [marked, rdropWhile_concat_pos _ _ _ (by simp [h]), ← marked]

theorem forall_status_concat {P : List RunEvent → Text → Prop} (events : List RunEvent) (event : RunEvent) :
    (∀ before raw after, events ++ [event] = before ++ .status raw :: after → P before raw) ↔
      (∀ before raw after, events = before ++ .status raw :: after → P before raw) ∧
        ∀ raw, event = .status raw → P events raw := by
  constructor
  · intro h
    exact ⟨fun before raw after hes => h before raw (after ++ [event]) (by simp [hes]),
      fun raw hraw => h events raw [] (by simp [hraw])⟩
  rintro ⟨hbef, hlast⟩ before raw after hes
  rcases eq_nil_or_concat after with rfl | ⟨init, last, rfl⟩
  · obtain ⟨rfl, hsame⟩ := append_inj' hes rfl
    exact hlast raw (singleton_inj.mp hsame)
  · rw [concat_eq_append, ← cons_append, ← append_assoc] at hes
    exact hbef before raw init (append_inj' hes rfl).1

theorem Silent.concat_iff {r : Rendering} {events : List RunEvent} : Silent r (events ++ [event]) ↔ Silent r events ∧
      ∀ raw, event = .status raw → r.line raw = none ∧ (cut events = [] ∨ r.blank (cut events) = true) :=
  forall_status_concat (P := fun before raw => r.line raw = none ∧ (cut before = [] ∨ r.blank (cut before) = true))
    events event

theorem InPlace.concat_iff {r : Rendering} {text : Text} {events : List RunEvent} :
    InPlace r text (events ++ [event]) ↔ InPlace r text events ∧
      ∀ raw, event = .status raw → cut events = [] ∨ r.blank (cut events) = false ∧
        cut events = (text.take (longest (increments events)).length).drop (marked events) :=
  forall_status_concat (P := fun before _ => cut before = [] ∨ r.blank (cut before) = false ∧
    cut before = (text.take (longest (increments before)).length).drop (marked before)) events event

structure Follows (r : Rendering) (text : Text) (events : List RunEvent) (turn : Turn) : Prop where
  latest : turn.live.latest = longest (increments events)
  posted : turn.live.postedChars = marked events
  silent : turn.live.postedAny = false ↔ Silent r events
  unposted : turn.live.postedAny = false → turn.spans = []
  short : turn.spans.flatten.length ≤ turn.live.postedChars
  inPlace : (longest (increments events)).length ≤ text.length →
    (turn.spans.flatten = text.take turn.live.postedChars ↔ InPlace r text events)

theorem longest_le (events : List RunEvent) (event : RunEvent) :
    (longest (increments events)).length ≤ (longest (increments (events ++ [event]))).length := by
  cases h : increment event with
  | none => rw [increments_none _ h]
  | some text =>
    rw [increments_some _ h]
    exact length_longest_le _ _

theorem marked_le (events : List RunEvent) : marked events ≤ (longest (increments events)).length := by
  induction events using List.reverseRecOn with
  | nil => exact Nat.le_refl _
  | append_singleton events event ih =>
    cases event with
    | status raw => rw [marked_status, increments_none _ rfl]
    | stream _ _ | other =>
      rw [marked_concat _ rfl]
      exact ih.trans (longest_le events _)

section Steps

variable {r : Rendering} {text : Text} {events : List RunEvent} {turn : Turn}

theorem Follows.initial : Follows r text [] {} where
  latest := rfl
  posted := rfl
  silent := iff_of_true rfl (fun before _ _ hes => by simp at hes)
  unposted := fun _ => rfl
  short := Nat.le_refl _
  inPlace := fun _ => iff_of_true rfl (fun before _ _ hes => by simp at hes)

theorem Follows.still (hf : Follows r text events turn) (heve : isStatus event = false)
    {latest : Text} (hlat : latest = longest (increments (events ++ [event]))) :
    Follows r text (events ++ [event]) { turn with live := { turn.live with latest := latest } } := by
  have hnone : ∀ raw, event ≠ .status raw := by
    rintro raw rfl
    cases heve
  refine ⟨hlat, hf.posted.trans (marked_concat _ heve).symm, ?_, hf.unposted, hf.short, fun hle => ?_⟩
  · rw [Silent.concat_iff]
    exact hf.silent.trans ⟨fun h => ⟨h, fun raw heq => absurd heq (hnone raw)⟩, And.left⟩
  rw [InPlace.concat_iff]
  exact (hf.inPlace ((longest_le _ _).trans hle)).trans ⟨fun h => ⟨h, fun raw heq => absurd heq (hnone raw)⟩, And.left⟩

theorem append_eq_take_iff {shown more : Text} {p q : Nat} (hsho : shown.length ≤ p)
    (hmore : more.length = q - p) (hpq : p ≤ q) (hq : q ≤ text.length) :
    shown ++ more = text.take q ↔ shown = text.take p ∧ more = (text.take q).drop p := by
  have htake : (text.take q).take p = text.take p := by rw [take_take, Nat.min_eq_left hpq]
  constructor
  · intro h
    have hlen : shown.length = p := by
      have := congrArg List.length h
      rw [length_append, length_take] at this
      omega
    rw [← htake, ← h, ← hlen]
    simp
  · rintro ⟨hshow, hrest⟩
    rw [hshow, hrest, ← htake, take_append_drop]

theorem liveFlushText_nil (h : turn.live.latest.drop turn.live.postedChars = []) :
    r.liveFlushText turn.live.latest turn = turn := by
  rw [Rendering.liveFlushText]
  split
  · rfl
  · rw [if_pos (drop_eq_nil_iff.mp h)]

theorem liveFlushText_cons (h : turn.live.latest.drop turn.live.postedChars ≠ []) :
    r.liveFlushText turn.live.latest turn = if r.blank (turn.live.latest.drop turn.live.postedChars) then
        { turn with live := { turn.live with postedChars := turn.live.latest.length } }
      else ⟨{ turn.live with postedChars := turn.live.latest.length, postedAny := true },
        turn.spans ++ [turn.live.latest.drop turn.live.postedChars]⟩ := by
  rw [Rendering.liveFlushText, if_neg, if_neg]
  · exact fun hle => h (drop_eq_nil_iff.mpr hle)
  intro hnil
  rw [hnil] at h
  exact h drop_nil

/-- The progress of a turn after a flush, before the line of the status. -/
structure Flushed (r : Rendering) (text : Text) (events : List RunEvent) (turn : Turn) : Prop where
  latest : turn.live.latest = longest (increments events)
  posted : turn.live.postedChars = (longest (increments events)).length
  silent : turn.live.postedAny = false ↔ Silent r events ∧ (cut events = [] ∨ r.blank (cut events) = true)
  unposted : turn.live.postedAny = false → turn.spans = []
  short : turn.spans.flatten.length ≤ turn.live.postedChars
  inPlace : (longest (increments events)).length ≤ text.length →
    (turn.spans.flatten = text.take turn.live.postedChars ↔ InPlace r text events ∧ (cut events = [] ∨
      r.blank (cut events) = false ∧ cut events = (text.take (longest (increments events)).length).drop (marked events)))

theorem Follows.flush (hf : Follows r text events turn) :
    Flushed r text events (r.liveFlushText turn.live.latest turn) := by
  have hcut : turn.live.latest.drop turn.live.postedChars = cut events := by rw [hf.latest, hf.posted, cut]
  have hle := marked_le events
  by_cases hnil : cut events = []
  · have hlen : (longest (increments events)).length = marked events :=
      Nat.le_antisymm (drop_eq_nil_iff.mp hnil) hle
    rw [liveFlushText_nil (hcut.trans hnil)]
    refine ⟨hf.latest, hf.posted.trans hlen.symm, ?_, hf.unposted, hf.short, fun htext => ?_⟩
    · exact hf.silent.trans ⟨fun h => ⟨h, .inl hnil⟩, And.left⟩
    · exact (hf.inPlace htext).trans ⟨fun h => ⟨h, .inl hnil⟩, And.left⟩
  rw [liveFlushText_cons (by rwa [hcut]), hcut, hf.latest]
  have hmore : (cut events).length = (longest (increments events)).length - marked events := length_drop
  have hpos : 0 < (cut events).length := length_pos_of_ne_nil hnil
  have hsho := hf.short
  rw [hf.posted] at hsho
  cases hbla : r.blank (cut events) with
  | true =>
    rw [if_pos rfl]
    refine ⟨hf.latest, rfl, ?_, hf.unposted, hsho.trans hle, fun htext => ?_⟩
    · exact hf.silent.trans ⟨fun h => ⟨h, .inr hbla⟩, And.left⟩
    refine iff_of_false (fun heq => ?_) (fun h => ?_)
    · have := congrArg List.length heq
      rw [length_take] at this
      simp only at this
      omega
    rcases h.2 with h | h
    · exact hnil h
    · rw [hbla] at h
      cases h.1
  | false =>
    rw [if_neg Bool.false_ne_true]
    refine ⟨hf.latest, rfl, ?_, fun h => (by cases h), ?_, fun htext => ?_⟩
    · refine iff_of_false Bool.noConfusion (fun h => ?_)
      rcases h.2 with h | h
      · exact hnil h
      · rw [hbla] at h
        cases h
    · simp only [flatten_append, flatten_singleton, length_append]
      omega
    rw [flatten_append, flatten_singleton, append_eq_take_iff hsho hmore hle htext]
    have hbef := hf.inPlace htext
    rw [hf.posted] at hbef
    rw [hbef]
    simp [hnil, hbla]

theorem Follows.onStatus (hf : Follows r text events turn) (raw : Text) :
    Follows r text (events ++ [.status raw]) (r.onStatus raw turn) := by
  have hflu := hf.flush
  have hinc : increments (events ++ [.status raw]) = increments events := increments_none events rfl
  have hpost := hflu.posted.trans (marked_status events raw).symm
  have hpla : (longest (increments (events ++ [.status raw]))).length ≤ text.length →
      ((r.liveFlushText turn.live.latest turn).spans.flatten =
          text.take (r.liveFlushText turn.live.latest turn).live.postedChars ↔
        InPlace r text (events ++ [.status raw])) := by
    intro htext
    rw [hinc] at htext
    rw [hflu.inPlace htext, InPlace.concat_iff]
    simp
  simp only [Rendering.onStatus]
  split
  · rename_i hline
    refine ⟨hflu.latest.trans (by rw [hinc]), hpost, ?_, hflu.unposted, hflu.short, hpla⟩
    rw [hflu.silent, Silent.concat_iff]
    simp [hline]
  rename_i hline
  refine ⟨hflu.latest.trans (by rw [hinc]), hpost, ?_, fun h => (by cases h), hflu.short, hpla⟩
  rw [Silent.concat_iff]
  simp [hline]

theorem Follows.step (hf : Follows r text events turn) (event : RunEvent) :
    Follows r text (events ++ [event]) (r.step turn event) := by
  cases event with
  | status raw => exact hf.onStatus raw
  | other => exact hf.still rfl (hf.latest.trans (by rw [increments_none _ rfl]))
  | stream kind delta =>
    by_cases hkind : kind = "delta"
    · have hdel : increment (.stream kind delta) = some (delta.getD []) := if_pos hkind
      have hstep : r.step turn (.stream kind delta) = onDelta (delta.getD []) turn := by
        simp [Rendering.step, bridgeEvent, hkind, Rendering.onEvent]
      have hlat := longest_concat (increments events) (delta.getD [])
      rw [← increments_some _ hdel, ← hf.latest] at hlat
      rw [hstep, onDelta]
      split
      · rename_i hlon
        exact hf.still rfl (by rw [hlat, if_pos hlon])
      · rename_i hsho
        exact hf.still rfl (by rw [hlat, if_neg hsho])
    have hdel : increment (.stream kind delta) = none := if_neg hkind
    have hstep : r.step turn (.stream kind delta) = turn := by simp [Rendering.step, bridgeEvent, hkind]
    rw [hstep]
    exact hf.still rfl (hf.latest.trans (by rw [increments_none _ hdel]))

theorem Follows.run (r : Rendering) (text : Text) (events : List RunEvent) :
    Follows r text events (events.foldl r.step {}) := by
  induction events using List.reverseRecOn with
  | nil => exact .initial
  | append_singleton events event ih =>
    rw [foldl_append]
    exact ih.step event

end Steps

theorem flatten_deliverTypedParts (skip : Nat) (parts : List (Part α)) :
    (deliverTypedParts skip parts).flatten = (answer parts).drop skip := by
  induction parts generalizing skip with
  | nil => simp [deliverTypedParts, answer]
  | cons part parts ih =>
    cases part with
    | text text =>
      have hcon : text.drop (min skip text.length) = text.drop skip := by
        rcases Nat.le_total skip text.length with h | h
        · rw [Nat.min_eq_left h]
        · rw [Nat.min_eq_right h, drop_length, drop_eq_nil_of_le h]
      have hrest : skip - min skip text.length = skip - text.length := by omega
      have hans : answer (.text text :: parts) = text ++ answer parts := rfl
      rw [deliverTypedParts, flatten_cons, ih, hcon, hrest, hans, drop_append]
    | attachment attachment => exact ih skip

theorem length_longest_le_flatten (texts : List Text) : (longest texts).length ≤ texts.flatten.length := by
  induction texts using List.reverseRecOn with
  | nil => exact Nat.le_refl _
  | append_singleton texts text ih =>
    rw [longest_concat, flatten_append, flatten_singleton, length_append]
    split <;> omega

/-- When the increments of a run make up its answer, the spans handed to rendering do so exactly when no status gets
anything posted, or all that the longest increment has grown by is in its place. -/
theorem narration_exact_iff (r : Rendering) (events : List RunEvent) (parts : List (Part α))
    (h : (increments events).flatten = answer parts) :
    (dispatchTurn r events parts).flatten = answer parts ↔ Silent r events ∨ InPlace r (answer parts) events := by
  have hf := Follows.run r (answer parts) events
  have hlon : (longest (increments events)).length ≤ (answer parts).length :=
    h ▸ length_longest_le_flatten (increments events)
  have hpla := hf.inPlace hlon
  rw [dispatchTurn, flatten_append, flatten_deliverTypedParts]
  cases hany : (events.foldl r.step {}).live.postedAny with
  | false =>
    refine iff_of_true ?_ (.inl (hf.silent.mp hany))
    rw [hf.unposted hany]
    simp
  | true =>
    have hnot : ¬ Silent r events := fun hs => by
      rw [hf.silent.mpr hs] at hany
      cases hany
    rw [or_iff_right hnot, ← hpla, if_pos rfl]
    constructor
    · intro heq
      exact append_cancel_right (heq.trans (take_append_drop _ _).symm)
    · intro heq
      rw [heq, take_append_drop]

def plain : Rendering where
  visible := id
  formatToolMessage := some

def greeting : List (Part Unit) := [.text ['h', 'e', 'y', ' '], .attachment (), .text ['y', 'o', 'u']]

def greetingRun : List RunEvent :=
  [.stream "delta" (some ['h', 'e', 'y', ' ']), .status ['t', 'o', 'o', 'l'], .stream "delta" (some ['y', 'o', 'u']),
    .stream "done" none]

theorem greeting_in_place : Silent plain greetingRun ∨ InPlace plain (answer greeting) greetingRun :=
  (narration_exact_iff plain greetingRun greeting rfl).mp (by decide)

/-- The second increment is taken for the whole text so far; its beginning is posted, and the answer goes on behind it. -/
theorem increment_posted_as_text : ¬ ∀ (r : Rendering) (events : List RunEvent) (parts : List (Part Unit)),
      (increments events).flatten = answer parts → (dispatchTurn r events parts).flatten = answer parts := by
  intro h
  have hsho := h plain [.stream "delta" (some ['h', 'e']), .stream "delta" (some ['l', 'l', 'o']), .status ['t']]
    [.text ['h', 'e', 'l', 'l', 'o']] rfl
  revert hsho
  decide

end OpenAgent.Channels.LiveNarration
