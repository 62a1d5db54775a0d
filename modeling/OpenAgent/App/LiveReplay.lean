import OpenAgent.App.TurnRows
import OpenAgent.Lib.JsonDumps
import OpenAgent.Lib.Lockstep

namespace OpenAgent.App

open Py List Option Message Chat

variable {A P : Type} (host : Host A P)

def Message.owner (m : Message A P) : Role × Option ToolInfo := (m.role, m.toolInfo)

variable {rows : List (Message A P)}

theorem InTurn.of_owners {rows' : List (Message A P)} (h : InTurn rows)
    (hsame : rows'.map Message.owner = rows.map Message.owner) : InTurn rows' := by
  obtain ⟨before, turn, rfl, h⟩ := h
  rw [map_append] at hsame
  obtain ⟨before', turn', rfl, hbef, hturn⟩ := map_eq_append_iff.mp hsame
  have hmem : ∀ m ∈ turn', ∃ m' ∈ turn, m'.owner = m.owner := by
    intro m hm
    have hin := mem_map_of_mem (f := owner) hm
    rw [hturn] at hin
    exact mem_map.mp hin
  refine ⟨before', turn', rfl, ?_, ?_, ?_, ?_⟩
  · have hrol := congrArg (fun l => l.getLast?.map Prod.fst) hbef
    simp only [List.getLast?_map, Option.map_map] at hrol
    exact hrol.trans h.opened
  · intro m hm
    obtain ⟨m', hm', he⟩ := hmem m hm
    have hrole : m'.role = m.role := congrArg Prod.fst he
    rw [← hrole]
    exact h.answer m' hm'
  · intro m hm hcard
    obtain ⟨m', hm', he⟩ := hmem m hm
    have hrole : m'.role = m.role := congrArg Prod.fst he
    have htool : m'.toolInfo = m.toolInfo := congrArg Prod.snd he
    rw [← hrole]
    exact h.tools m' hm' (htool ▸ hcard)
  · intro id hid
    have hcou : ∀ l : List (Message A P), l.countP (named id) =
        (l.map owner).countP (fun k => strictEq (k.2.bind (·.get? "tool_call_id")) id) := by
      intro l
      rw [countP_map]
      rfl
    rw [hcou, hturn, ← hcou]
    exact h.distinct id hid

theorem InTurn.compacted (h : InTurn rows) (info : CompactionInfo) :
    InTurn (Chat.compacted rows info) ∧ Persist EndedCard rows (Chat.compacted rows info) := by
  obtain ⟨before, turn, rfl, h⟩ := h
  have hpush : InTurn (appendCompaction (before ++ turn) info) ∧
      Persist EndedCard (before ++ turn) (appendCompaction (before ++ turn) info) := by
    refine ⟨⟨before, _, append_assoc _ _ _, h.push (fun hr => by cases hr) rfl⟩, ?_⟩
    exact (persist_concat _ _).mono ended_of_same
  rw [compacted]
  split
  · exact hpush
  next hpha =>
    cases hpat : patchLast compacting (fun m => { m with compactionInfo := some info }) (before ++ turn) with
    | none => exact hpush
    | some rows =>
      obtain ⟨pre, m, post, hcut, hm, rfl⟩ := patchLast_eq_some hpat
      rw [hcut, getD_some]
      constructor
      · refine InTurn.of_owners ⟨before, turn, rfl, h⟩ ?_
        rw [hcut]
        simp [owner]
      intro i a ⟨hget, hsett⟩
      have hlen : (pre ++ { m with compactionInfo := some info } :: post).length = (pre ++ m :: post).length := by simp
      by_cases hi : i = pre.length
      · rw [hi, List.getElem?_append_right (Nat.le_refl _), Nat.sub_self, List.getElem?_cons_zero] at hget
        cases hget
        refine ⟨{ m with compactionInfo := some info }, ⟨?_, ?_⟩, ⟨rfl, rfl, rfl⟩, fun hn => ?_⟩
        · rw [hi, List.getElem?_append_right (Nat.le_refl _), Nat.sub_self, List.getElem?_cons_zero]
        · rw [hlen]
          exact hsett
        · rw [hm] at hn
          cases hn
      refine ⟨a, ⟨?_, ?_⟩, ⟨rfl, rfl, rfl⟩, id⟩
      · have hne : pre.length ≠ i := Ne.symm hi
        have hset : pre ++ { m with compactionInfo := some info } :: post =
            (pre ++ m :: post).set pre.length { m with compactionInfo := some info } := by simp
        rw [hset, List.getElem?_set_ne hne, hget]
      · rw [hlen]
        exact hsett

def Chat.shown (c : Chat A P) : List (Message A P) :=
  if c.buffered = "" then c.messages else appendDelta c.messages c.buffered

theorem messages_flush (c : Chat A P) : c.flush.messages = c.shown ∧ c.flush.shown = c.shown := by
  rw [flush]
  split
  · next hemp => exact ⟨by rw [shown, if_pos hemp], rfl⟩
  · next htext => exact ⟨by rw [shown, if_neg htext], by rw [shown, shown, if_pos rfl, if_neg htext]⟩

variable {c : Chat A P}

theorem InTurn.shown (h : InTurn c.messages) : InTurn c.shown ∧ Persist SameCard c.messages c.shown := by
  rw [Chat.shown]
  split
  · exact ⟨h, persist_refl _⟩
  obtain ⟨before, turn, hrows, h⟩ := h
  rw [hrows]
  obtain ⟨heq, hdel⟩ := h.delta c.buffered
  exact ⟨⟨before, _, heq, hdel⟩, persist_amend _ _ _⟩

theorem InTurn.rowsAfter (h : InTurn rows) (f : Frame) :
    InTurn (App.rowsAfter host rows f) ∧ Persist SameCard rows (App.rowsAfter host rows f) := by
  obtain ⟨before, turn, rfl, h⟩ := h
  obtain ⟨heq, hafter⟩ := h.rowsAfter host f
  exact ⟨⟨before, _, heq, hafter⟩, h.persist_rowsAfter host f⟩

theorem messages_frame (c : Chat A P) (f : Frame) : (c.live host (.frame f)).messages = match f with
    | .sessionCompacted info => Chat.compacted c.messages info.read
    | .delta _ => c.messages
    | f => rowsAfter host c.messages f := by
  cases f with
  | status text =>
    rw [live, handleServerMessage]
    split <;> rfl
  | _ => rfl

theorem InTurn.live (h : InTurn c.messages) (e : Event) :
    InTurn (c.live host e).messages ∧ Persist EndedCard c.messages (c.live host e).messages := by
  have hsame : ∀ {rows : List (Message A P)}, InTurn rows ∧ Persist SameCard c.messages rows →
      InTurn rows ∧ Persist EndedCard c.messages rows := fun hk => ⟨hk.1, hk.2.mono ended_of_same⟩
  cases e with
  | flush =>
    rw [Chat.live, (messages_flush c).1]
    exact hsame h.shown
  | frame f =>
    rw [messages_frame]
    cases f with
    | sessionCompacted info => exact h.compacted info.read
    | delta text => exact ⟨h, (persist_refl _).mono ended_of_same⟩
    | reasoning _ | status _ | response _ _ _ _ _ | error _ => exact hsame (h.rowsAfter host _)

def Together (c : Chat A P) (rows : List (Message A P)) : Prop := InTurn c.messages ∧ rows = c.shown

def Differ (a b : Message A P) : Prop :=
  a.role ≠ b.role ∨ a.text ≠ b.text ∨ a.failed ≠ b.failed ∨ (a.compacting = false ∧ b.compacting = true)

def Apart (c : Chat A P) (rows : List (Message A P)) : Prop :=
  InTurn c.messages ∧ InTurn rows ∧ ∃ i a b, Settled c.messages i a ∧ Settled rows i b ∧ Differ a b

def replay (rows : List (Message A P)) : Event → List (Message A P)
  | .frame f => rowsAfter host rows f
  | .flush => rows

theorem Differ.persist {a b a' b' : Message A P} (h : Differ a b) (ha : Alike a a') (hb : Alike b b')
    (hend : EndedCard a a') (hsame : SameCard b b') : Differ a' b' := by
  rw [Differ, ha.role, hb.role, ha.text, hb.text, ha.failed, hb.failed, show b'.compacting = b.compacting from hsame]
  rcases h with h | h | h | ⟨hover, hopen⟩
  · exact .inl h
  · exact .inr (.inl h)
  · exact .inr (.inr (.inl h))
  · exact .inr (.inr (.inr ⟨hend hover, hopen⟩))

theorem Apart.step {c : Chat A P} {rows : List (Message A P)} (h : Apart c rows) (e : Event) :
    Apart (c.live host e) (replay host rows e) := by
  obtain ⟨hlive, hrows, i, a, b, ha, hb, hdif⟩ := h
  obtain ⟨hlive', hper⟩ := hlive.live host e
  have hrep : InTurn (replay host rows e) ∧ Persist SameCard rows (replay host rows e) := by
    cases e with
    | frame f => exact hrows.rowsAfter host f
    | flush => exact ⟨hrows, persist_refl _⟩
  obtain ⟨a', ha', hali, hend⟩ := hper i a ha
  obtain ⟨b', hb', hbli, hsame⟩ := hrep.2 i b hb
  exact ⟨hlive', hrep.1, i, a', b', ha', hb', hdif.persist hali hbli hend hsame⟩

def Host.quiet (rows : List (Message A P)) (text : String) : Bool :=
  match host.toolOf text with
  | some toolInfo => (host.patchTool toolInfo (splitTurn rows).2).isSome
  | none => !text.startsWith "Using "

/-- The steps that keep the views together: no row is added while a text waits, and no compaction ends
whose card is open. -/
def Keeps (c : Chat A P) : Event → Prop
  | .frame (.sessionCompacted info) =>
    c.buffered = "" ∧ (info.read.phase = "running" ∨ ∀ m ∈ c.messages, m.compacting = false)
  | .frame (.status text) => c.buffered = "" ∨ host.quiet c.messages text = true
  | .frame (.error _) => c.buffered = ""
  | _ => True

instance (c : Chat A P) : (e : Event) → Decidable (Keeps host c e)
  | .frame (.sessionCompacted _) => inferInstanceAs (Decidable (_ ∧ (_ ∨ ∀ m ∈ c.messages, _)))
  | .frame (.status _) => inferInstanceAs (Decidable (_ ∨ _))
  | .frame (.error _) => inferInstanceAs (Decidable (_ = _))
  | .frame (.reasoning _) | .frame (.delta _) | .frame (.response _ _ _ _ _) | .flush =>
    inferInstanceAs (Decidable True)

variable {fresh : Message A P}

theorem amend_amend {change change' : Message A P → Message A P} {fresh fresh' : Message A P}
    (hcha : ∀ m, m.bubble = true → (change m).bubble = true) (hfre : fresh.bubble = true)
    (rows : List (Message A P)) :
    amend change' fresh' (amend change fresh rows) = amend (fun m => change' (change m)) (change' fresh) rows := by
  rw [amend.eq_def change fresh, amend.eq_def (fun m => change' (change m))]
  split
  · next last hlast =>
      have hbub := hcha last (filter_eq_some_iff.mp hlast).2
      rw [amend, List.getLast?_concat, filter_some_pos hbub]
      rw [dropLast_concat]
  · rw [amend, List.getLast?_concat, filter_some_pos hfre]
    rw [dropLast_concat]

theorem appendDelta_appendDelta (rows : List (Message A P)) (text more : String) :
    appendDelta (appendDelta rows text) more = appendDelta rows (text ++ more) := by
  refine (amend_amend ?_ rfl rows).trans ?_
  · exact fun _ hm => hm
  · simp only [appendDelta, String.append_assoc]

theorem appendResponse_appendDelta (rows : List (Message A P)) (waiting text : String)
    (attachments parts artifacts : Json) (model : Option String) :
    host.appendResponse (appendDelta rows waiting) text attachments parts artifacts model =
      host.appendResponse rows text attachments parts artifacts model := by
  refine (amend_amend ?_ rfl rows).trans rfl
  exact fun _ hm => hm

theorem patchTool_appendDelta {before turn : List (Message A P)} (h : OneTurn before turn) (t : ToolInfo)
    (text : String) : host.patchTool t (appendDelta turn text) = (host.patchTool t turn).map (appendDelta · text) := by
  have hpla : ∀ m ∈ turn, m.bubble = true → m.toolInfo = none := by
    intro m hm hbub
    rw [bubble, Bool.and_eq_true, decide_eq_true_eq] at hbub
    cases htool : m.toolInfo with
    | none => rfl
    | some _ => cases hbub.1.symm.trans (h.tools m hm (by rw [htool]; rfl))
  cases hlast : turn.getLast?.filter bubble with
  | some last =>
    obtain ⟨hget, hbub⟩ := filter_eq_some_iff.mp hlast
    obtain ⟨init, rfl⟩ := List.getLast?_eq_some_iff.mp hget
    have hnone := hpla last (mem_append_right _ (mem_singleton_self _)) hbub
    have happ : ∀ rows : List (Message A P), appendDelta (rows ++ [last]) text =
        rows ++ [{ last with text := last.text ++ text }] := by
      intro rows
      rw [appendDelta, amend, List.getLast?_concat, filter_some_pos hbub]
      rw [dropLast_concat]
    rw [happ, patchTool_concat host t init hnone, patchTool_concat, Option.map_map]
    · congr 1
      funext rows
      exact (happ rows).symm
    · exact hnone
  | none =>
    have happ : ∀ rows : List (Message A P), rows.map bare = turn.map bare →
        appendDelta rows text = rows ++ [{ role := .assistant, text, streaming := true }] := by
      intro rows hbare
      have hsame := congrArg (fun l => l.getLast?.filter bubble) hbare
      simp only [List.getLast?_map, Option.filter_map] at hsame
      have hrows : rows.getLast?.filter bubble = none := by
        have hcomp : (bubble ∘ bare : Message A P → Bool) = bubble := rfl
        rw [hcomp, hlast, Option.map_none, Option.map_eq_none_iff] at hsame
        exact hsame
      rw [appendDelta, amend, hrows]
    rw [happ turn rfl, patchTool_concat host t turn rfl]
    cases hpat : host.patchTool t turn with
    | none => rfl
    | some rows =>
      rw [map_some, map_some, happ rows (patched_patchTool host h.distinct hpat).bare]

theorem append_ne_self {a b : String} (h : b ≠ "") : a ≠ a ++ b := by
  intro he
  have hlen := congrArg String.length he
  rw [String.length_append] at hlen
  exact h (String.length_eq_zero_iff.mp (by omega))

/-- A row that is added while a text waits comes before the text, or behind it, and stays there. -/
theorem differ_of_overtaken {text : String} (htext : text ≠ "")
    (hfre : fresh.role ≠ .assistant ∨ fresh.failed = true) (hbub : fresh.bubble = false) :
    ∃ i a b, Settled (rows ++ [fresh]) i a ∧ Settled (appendDelta rows text ++ [fresh]) i b ∧ Differ a b := by
  rw [appendDelta, amend]
  split
  · next last hlast =>
      obtain ⟨init, rfl⟩ := List.getLast?_eq_some_iff.mp (filter_eq_some_iff.mp hlast).1
      rw [dropLast_concat]
      refine ⟨init.length, last, { last with text := last.text ++ text }, ⟨?_, .inl (by simp)⟩, ⟨?_, .inl (by simp)⟩,
        .inr (.inl (append_ne_self htext))⟩
      · rw [append_assoc, List.getElem?_append_right (Nat.le_refl _), Nat.sub_self]
        rfl
      · rw [append_assoc, List.getElem?_append_right (Nat.le_refl _), Nat.sub_self]
        rfl
  refine ⟨rows.length, fresh, { role := .assistant, text, streaming := true },
    ⟨List.getElem?_concat_length, .inr hbub⟩, ⟨?_, .inl (by simp)⟩, ?_⟩
  · rw [append_assoc, List.getElem?_append_right (Nat.le_refl _), Nat.sub_self]
    rfl
  rcases hfre with hrole | hfai
  · exact .inl hrole
  · exact .inr (.inr (.inl (by rw [hfai]; exact fun hf => by cases hf)))

theorem Together.inTurn (h : Together c rows) : InTurn rows := by
  rw [h.2]
  exact h.1.shown.1

variable {e : Event}

theorem Together.keep (h : Together c rows)
    (hkee : Keeps host c e) : Together (c.live host e) (replay host rows e) := by
  refine ⟨(h.1.live host e).1, ?_⟩
  obtain ⟨hturn, rfl⟩ := h
  have hsho : c.buffered = "" → c.shown = c.messages := fun hemp => by rw [shown, if_pos hemp]
  cases e with
  | flush => exact (messages_flush c).2.symm
  | frame f =>
    cases f with
    | reasoning active => rfl
    | sessionCompacted info =>
      obtain ⟨hemp, hcar⟩ := hkee
      have hpush : compacted c.messages info.read = appendCompaction c.messages info.read := by
        rw [compacted]
        split
        · rfl
        next hpha =>
          rw [patchLast_eq_none.mpr (hcar.resolve_left hpha)]
          rfl
      rw [replay, rowsAfter, hsho hemp, live, handleServerMessage, shown, if_pos hemp, hpush]
    | delta text =>
      rw [replay, rowsAfter, live, handleServerMessage]
      by_cases htext : text = ""
      · rw [if_pos htext, htext, String.append_empty]
      have hlong : c.buffered ++ text ≠ "" := by
        intro he
        have hlen := congrArg String.length he
        rw [String.length_append, String.length_empty] at hlen
        exact htext (String.length_eq_zero_iff.mp (by omega))
      rw [if_neg htext, shown, shown]
      split
      · next hemp => rw [hemp, String.empty_append]
      · exact appendDelta_appendDelta _ _ _
    | response text attachments parts artifacts model =>
      rw [replay, rowsAfter, live, handleServerMessage, shown, shown]
      split
      · rfl
      · exact appendResponse_appendDelta host _ _ _ _ _ _ _
    | error text =>
      have hemp : c.buffered = "" := hkee
      rw [replay, rowsAfter, hsho hemp, live, handleServerMessage, shown, if_pos hemp]
    | status text =>
      have hlive : (c.live host (.frame (.status text))).shown = if c.buffered = "" then
          host.appendStatus c.messages text else appendDelta (host.appendStatus c.messages text) c.buffered := by
        rw [live, handleServerMessage]
        split <;> rfl
      rw [hlive, replay, rowsAfter]
      by_cases hemp : c.buffered = ""
      · rw [if_pos hemp, hsho hemp]
      rw [if_neg hemp, shown, if_neg hemp]
      have hqui := hkee.resolve_left hemp
      obtain ⟨before, turn, hrows, h⟩ := hturn
      rw [hrows] at hqui ⊢
      rw [Host.quiet] at hqui
      rw [(h.delta c.buffered).1, Host.appendStatus, Host.appendStatus]
      cases htool : host.toolOf text with
      | none =>
        rw [htool] at hqui
        rw [Bool.not_eq_true'] at hqui
        rw [hqui, if_neg Bool.false_ne_true, if_neg Bool.false_ne_true, (h.delta c.buffered).1]
      | some t =>
        rw [htool] at hqui
        dsimp only at hqui ⊢
        rw [splitTurn_append h.opened h.answer] at hqui
        obtain ⟨patched, hpat⟩ := isSome_iff_exists.mp hqui
        have hafter := h.tool host t
        rw [hpat, getD_some] at hafter
        rw [appendOrPatchTool_eq host h.opened (h.delta c.buffered).2.answer,
          appendOrPatchTool_eq host h.opened h.answer, patchTool_appendDelta host h, hpat, map_some,
          getD_some, getD_some, (hafter.delta c.buffered).1]

theorem Together.overtaken (h : Together c rows) (htext : c.buffered ≠ "")
    (hfre : fresh.role ≠ .assistant ∨ fresh.failed = true)
    (hbub : fresh.bubble = false) (hlive : (c.live host e).messages = c.messages ++ [fresh])
    (hrep : replay host rows e = rows ++ [fresh]) (hturn : InTurn (replay host rows e)) :
    Apart (c.live host e) (replay host rows e) := by
  refine ⟨(h.1.live host e).1, hturn, ?_⟩
  obtain ⟨hin, rfl⟩ := h
  rw [hlive, hrep, shown, if_neg htext]
  exact differ_of_overtaken htext hfre hbub

theorem Together.part (h : Together c rows)
    (hkee : ¬ Keeps host c e) : Apart (c.live host e) (replay host rows e) := by
  cases e with
  | flush => exact absurd trivial hkee
  | frame f =>
    have hturn : InTurn (replay host rows (.frame f)) := (h.inTurn.rowsAfter host f).1
    cases f with
    | reasoning _ | delta _ | response _ _ _ _ _ => exact absurd trivial hkee
    | error text => exact h.overtaken host hkee (.inr rfl) rfl rfl rfl hturn
    | sessionCompacted info =>
      rw [Keeps, not_and_or] at hkee
      by_cases hcar : info.read.phase = "running" ∨ ∀ m ∈ c.messages, m.compacting = false
      · have hwai := hkee.resolve_right (fun hn => hn hcar)
        refine h.overtaken host hwai (.inl (fun hr => by cases hr)) rfl ?_ rfl hturn
        rw [messages_frame]
        dsimp only
        rw [compacted]
        split
        · rfl
        next hpha =>
          rw [patchLast_eq_none.mpr (hcar.resolve_left hpha)]
          rfl
      refine ⟨(h.1.live host _).1, hturn, ?_⟩
      rw [not_or] at hcar
      rw [messages_frame]
      dsimp only
      rw [compacted, if_neg hcar.1]
      cases hpat : patchLast compacting (fun m => { m with compactionInfo := some info.read }) c.messages with
      | none => exact absurd (patchLast_eq_none.mp hpat) hcar.2
      | some patched =>
        obtain ⟨pre, m, post, hcut, hm, rfl⟩ := patchLast_eq_some hpat
        -- the open card is settled, and stays open for one who replays
        have hget : c.messages[pre.length]? = some m := by
          rw [hcut, List.getElem?_append_right (Nat.le_refl _), Nat.sub_self]
          rfl
        have hnot : m.bubble = false := by
          rw [compacting, Bool.and_eq_true, decide_eq_true_eq] at hm
          rw [bubble, hm.1]
          rfl
        obtain ⟨b, hb, -, hbca⟩ := h.1.shown.2 pre.length m ⟨hget, .inr hnot⟩
        obtain ⟨b', hb', -, hbca'⟩ := persist_concat c.shown
          { role := .compaction, text := "", compactionInfo := some info.read } pre.length b hb
        refine ⟨pre.length, { m with compactionInfo := some info.read }, b', ⟨?_, .inr hnot⟩, ?_, ?_⟩
        · rw [getD_some, List.getElem?_append_right (Nat.le_refl _), Nat.sub_self]
          rfl
        · rw [h.2]
          exact hb'
        · refine .inr (.inr (.inr ⟨?_, (hbca'.trans hbca).trans hm⟩))
          simp [compacting, hcar.1]
    | status text =>
      rw [Keeps, not_or] at hkee
      obtain ⟨hwai, hloud⟩ := hkee
      obtain ⟨before, turn, hrows, hone⟩ := h.1
      have hsho : rows = before ++ appendDelta turn c.buffered := by
        rw [h.2, shown, if_neg hwai, hrows]
        exact (hone.delta c.buffered).1
      rw [Host.quiet, hrows] at hloud
      cases htool : host.toolOf text with
      | none =>
        rw [htool] at hloud
        rw [Bool.not_eq_true', Bool.not_eq_false] at hloud
        have hpush : ∀ l : List (Message A P), host.appendStatus l text = l ++ [{ role := .tool, text }] := by
          intro l
          rw [Host.appendStatus, htool]
          rw [if_pos hloud]
        refine h.overtaken host hwai (.inl (fun hr => by cases hr)) rfl ?_ (hpush rows) hturn
        rw [messages_frame]
        exact hpush _
      | some t =>
        rw [htool] at hloud
        rw [splitTurn_append hone.opened hone.answer, not_isSome_iff_eq_none] at hloud
        have hcard : (host.toolCard t : Message A P).role ≠ .assistant := fun hr => by cases hr
        refine h.overtaken host hwai (.inl hcard) rfl ?_ ?_ hturn
        · rw [messages_frame]
          dsimp only
          rw [rowsAfter, Host.appendStatus, htool, hrows]
          dsimp only
          rw [appendOrPatchTool_eq host hone.opened hone.answer, hloud, getD_none, append_assoc]
        rw [replay, rowsAfter, Host.appendStatus, htool, hsho]
        dsimp only
        rw [appendOrPatchTool_eq host hone.opened (hone.delta c.buffered).2.answer,
          patchTool_appendDelta host hone, hloud, map_none, getD_none, append_assoc]

/-- A session in which a user has just written: nothing of an earlier turn waits. -/
structure Chat.Started (c : Chat A P) : Prop where
  user : c.messages.getLast?.map Message.role = some .user
  flushed : c.buffered = ""

theorem settle_text (m : Message A P) : m.settle.text = m.text := by
  rw [settle]
  split <;> rfl

theorem not_differ_of_settle {a b : Message A P} (h : a.settle = b.settle) : ¬ Differ a b := by
  have hread : ∀ m : Message A P, m.settle.role = m.role ∧ m.settle.failed = m.failed ∧
      m.settle.compacting = m.compacting := by
    intro m
    rw [settle]
    split
    · exact ⟨rfl, rfl, rfl⟩
    · exact ⟨rfl, rfl, rfl⟩
  rw [Differ, ← (hread a).1, ← (hread b).1, ← settle_text a, ← settle_text b, ← (hread a).2.1, ← (hread b).2.1,
    ← (hread a).2.2, ← (hread b).2.2, h]
  rintro (hne | hne | hne | ⟨hover, hopen⟩)
  · exact hne rfl
  · exact hne rfl
  · exact hne rfl
  · rw [hover] at hopen
    cases hopen

theorem Apart.settle_ne (h : Apart c rows) : c.messages.map Message.settle ≠ rows.map Message.settle := by
  obtain ⟨-, -, i, a, b, ha, hb, hdif⟩ := h
  intro he
  have hrow := congrArg (·[i]?) he
  simp only [List.getElem?_map, ha.1, hb.1, map_some, Option.some.injEq] at hrow
  exact not_differ_of_settle hrow hdif

theorem settle_appendDelta_ne (rows : List (Message A P)) {text : String} (htext : text ≠ "") :
    rows.map Message.settle ≠ (appendDelta rows text).map Message.settle := by
  rw [appendDelta, amend]
  split
  · next last hlast =>
      obtain ⟨init, rfl⟩ := List.getLast?_eq_some_iff.mp (filter_eq_some_iff.mp hlast).1
      rw [dropLast_concat, map_append, map_append]
      intro he
      have hrow := congrArg (fun l => l.map Message.text) (append_cancel_left he)
      simp only [map_cons, map_nil, settle_text, List.cons.injEq, and_true] at hrow
      exact append_ne_self htext hrow
  intro he
  have hlen := congrArg List.length he
  rw [length_map, length_map, length_append, length_singleton] at hlen
  omega

theorem messages_replayed (es : List Event) (v : Replayed A P) :
    ((es.filterMap Event.message?).foldl (Replayed.step host) v).messages = es.foldl (replay host) v.messages := by
  induction es generalizing v with
  | nil => rfl
  | cons e es ih =>
    cases e with
    | flush => exact ih v
    | frame f =>
      have hcons : (Event.frame f :: es).filterMap Event.message? =
        ServerMessage.frame f :: es.filterMap Event.message? := rfl
      rw [hcons, foldl_cons, foldl_cons, ih, messages_step]
      rfl

theorem OneTurn.foldl_replay {before turn : List (Message A P)} (h : OneTurn before turn) (es : List Event) :
    es.foldl (replay host) (before ++ turn) = before ++ es.foldl (replay host) turn := by
  induction es generalizing turn with
  | nil => rfl
  | cons e es ih =>
    cases e with
    | flush => exact ih h
    | frame f =>
      obtain ⟨heq, hnext⟩ := h.rowsAfter host f
      rw [foldl_cons, foldl_cons, replay, replay, heq, ih hnext]

/-- The view that a turn leaves is the one of its frames, behind what was there, exactly where no row overtook a text,
no compaction that ended had its card open, and no text waited at the end. -/
theorem live_eq_replayed_iff {c : Chat A P} (hc : c.Started) (es : List Event) (active : Bool) :
    (es.foldl (Chat.live host) c).finaliseStreaming.messages = c.messages.map Message.settle ++
        (liveMessagesFromFrames host (es.filterMap Event.message? ++ [.turnComplete]) active).messages ↔
      Lockstep.Steady (Chat.live host) (Keeps host) c es ∧ (es.foldl (Chat.live host) c).buffered = "" := by
  have hsta : OneTurn c.messages [] := OneTurn.start hc.user
  have hrep : c.messages.map settle ++
      (liveMessagesFromFrames host (es.filterMap Event.message? ++ [.turnComplete]) active).messages =
      (es.foldl (replay host) c.messages).map settle := by
    have hrows := hsta.foldl_replay host es
    rw [append_nil] at hrows
    rw [liveMessagesFromFrames, foldl_append, foldl_cons, foldl_nil, Replayed.step, messages_replayed,
      hrows, map_append]
  have htog : Together c c.messages :=
    ⟨⟨c.messages, [], (append_nil _).symm, hsta⟩, by rw [shown, if_pos hc.flushed]⟩
  rw [hrep, finaliseStreaming]
  obtain ⟨hste, hend⟩ | ⟨hste, hend⟩ := Lockstep.together_or_apart (f := live host) (g := replay host)
    (C := Keeps host) (fun _ _ _ h hk => Together.keep host h hk) (fun _ _ _ h hk => Together.part host h hk)
    (fun _ _ e h => Apart.step host h e) htog es
  · rw [hend.2]
    constructor
    · intro he
      refine ⟨hste, ?_⟩
      by_contra htext
      rw [shown, if_neg htext] at he
      exact settle_appendDelta_ne _ htext he
    · intro hemp
      rw [shown, if_pos hemp.2]
  · exact iff_of_false hend.settle_ne (fun h => hste h.1)

def bashStarts : Json := .obj [("tool_name", .str "bash"), ("tool_call_id", .str "call")]

/-- Reads the text of `bashStarts`. -/
def bashHost : Host Unit Unit where
  parse text := if text = bashStarts.dumps then some bashStarts else none
  string
    | .str s => s
    | _ => ""
  display _ := ("Running command", "")
  normalizedAttachments _ := none
  normalizeMessageContent _ _ _ _ := none

def asked : Chat Unit Unit := { messages := [{ role := .user, text := "List the files" }] }

def bashTurn : List Event :=
  [.frame (.delta "Let me "), .frame (.delta "look."), .flush, .frame (.status bashStarts.dumps), .frame (.delta "Two"),
    .frame (.status bashStarts.dumps), .flush, .frame (.error "stopped")]

theorem live_eq_replayed_bash : (bashTurn.foldl (Chat.live bashHost) asked).finaliseStreaming.messages =
    asked.messages.map Message.settle ++
      (liveMessagesFromFrames bashHost (bashTurn.filterMap Event.message? ++ [.turnComplete]) true).messages :=
  (live_eq_replayed_iff bashHost ⟨rfl, rfl⟩ bashTurn true).mpr ⟨by decide +kernel, by decide +kernel⟩

/-- A text that no animation frame has shown yet is gone when its turn ends. -/
theorem waiting_text_dropped : ¬ ∀ (host : Host Unit Unit) (c : Chat Unit Unit), c.Started →
    ∀ (es : List Event) (active : Bool),
      (es.foldl (Chat.live host) c).finaliseStreaming.messages = c.messages.map Message.settle ++
        (liveMessagesFromFrames host (es.filterMap Event.message? ++ [.turnComplete]) active).messages := by
  intro h
  have hrows := congrArg List.length (h bashHost asked ⟨rfl, rfl⟩ [.frame (.delta "Hi")] true)
  revert hrows
  decide

end OpenAgent.App
