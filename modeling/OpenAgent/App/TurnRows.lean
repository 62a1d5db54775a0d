import OpenAgent.App.ChatTurns

namespace OpenAgent.App

open Py List Message

variable {A P : Type} (host : Host A P)

structure OneTurn (before turn : List (Message A P)) : Prop where
  opened : before.getLast?.map Message.role = some .user
  answer : ∀ m ∈ turn, m.role ≠ .user
  tools : ∀ m ∈ turn, m.toolInfo.isSome = true → m.role = .tool
  distinct : Distinct turn

def InTurn (rows : List (Message A P)) : Prop := ∃ before turn, rows = before ++ turn ∧ OneTurn before turn

variable {before : List (Message A P)}

theorem OneTurn.start (h : before.getLast?.map Message.role = some .user) : OneTurn before [] :=
  ⟨h, forall_mem_nil _, forall_mem_nil _, fun _ _ => Nat.zero_le _⟩
variable {m : Message A P} {turn : List (Message A P)}

theorem distinct_concat (h : Distinct turn)
    (hm : ∀ id, truthy id = true → m.named id = true → turn.countP (Message.named id) = 0) :
    Distinct (turn ++ [m]) := by
  intro id hid
  have hone := h id hid
  have hzero := hm id hid
  rw [countP_append, countP_singleton]
  split
  · next hn => rw [hzero hn]
  · exact hone

theorem OneTurn.concat (h : OneTurn before turn)
    (hrole : m.role ≠ .user) (htool : m.toolInfo.isSome = true → m.role = .tool)
    (hm : ∀ id, truthy id = true → m.named id = true → turn.countP (Message.named id) = 0) :
    OneTurn before (turn ++ [m]) where
  opened := h.opened
  answer := forall_mem_append.mpr ⟨h.answer, forall_mem_singleton.mpr hrole⟩
  tools := forall_mem_append.mpr ⟨h.tools, forall_mem_singleton.mpr htool⟩
  distinct := distinct_concat h.distinct hm

theorem OneTurn.push (h : OneTurn before turn)
    (hrole : m.role ≠ .user) (hm : m.toolInfo = none) : OneTurn before (turn ++ [m]) :=
  h.concat hrole (by rw [hm]; exact fun hsome => by cases hsome)
    (fun id hid hn => by rw [named_of_none hm hid] at hn; cases hn)

theorem OneTurn.getLast? (h : OneTurn before turn) (hm : (before ++ turn).getLast?.filter Message.bubble = some m) :
    ∃ init, turn = init ++ [m] ∧ m.bubble = true := by
  obtain ⟨hlast, hbub⟩ := Option.filter_eq_some_iff.mp hm
  rcases eq_nil_or_concat' turn with rfl | ⟨init, l, rfl⟩
  · rw [append_nil] at hlast
    have huser := h.opened
    rw [hlast] at huser
    rw [bubble, Bool.and_eq_true, decide_eq_true_eq] at hbub
    cases hbub.1.symm.trans (Option.some.inj huser)
  rw [← append_assoc, List.getLast?_concat] at hlast
  cases hlast
  exact ⟨init, rfl, hbub⟩

theorem OneTurn.amend (h : OneTurn before turn) {change : Message A P → Message A P} {fresh : Message A P}
    (hfre : fresh.role = .assistant ∧ fresh.toolInfo = none)
    (hrole : ∀ m, (change m).role = m.role) (htool : ∀ m, (change m).toolInfo = m.toolInfo) :
    amend change fresh (before ++ turn) = before ++ amend change fresh turn ∧ OneTurn before (amend change fresh turn) := by
  rw [App.amend, App.amend]
  cases hlast : (before ++ turn).getLast?.filter bubble with
  | some m =>
    obtain ⟨init, rfl, hbub⟩ := h.getLast? hlast
    rw [List.getLast?_concat, Option.filter_some_pos hbub]
    have hnam : ∀ id, named id (change m) = named id m := by
      intro id
      rw [named, named, toolField, toolField, htool]
    have hcut : (before ++ (init ++ [m])).dropLast ++ [change m] =
        before ++ ((init ++ [m]).dropLast ++ [change m]) := by
      rw [← append_assoc, dropLast_concat, dropLast_concat, append_assoc]
    refine ⟨hcut, ?_⟩
    dsimp only
    rw [dropLast_concat]
    refine ⟨h.opened, ?_, ?_, ?_⟩
    · have hans := forall_mem_append.mp h.answer
      exact forall_mem_append.mpr ⟨hans.1, by simpa [hrole] using hans.2⟩
    · have htoo := forall_mem_append.mp h.tools
      exact forall_mem_append.mpr ⟨htoo.1, by simpa [hrole, htool] using htoo.2⟩
    intro id hid
    have hone := h.distinct id hid
    simpa [hnam] using hone
  | none =>
    have hturn : turn.getLast?.filter bubble = none := by
      rcases eq_nil_or_concat' turn with rfl | ⟨init, l, rfl⟩
      · rfl
      · rw [← append_assoc, List.getLast?_concat] at hlast
        rw [List.getLast?_concat, hlast]
    rw [hturn]
    exact ⟨append_assoc _ _ _, h.push (by rw [hfre.1]; decide) hfre.2⟩

theorem countP_of_patchTool {t : ToolInfo} (h : host.patchTool t turn = none)
    {id : Option Json} (hid : truthy id = true) (hn : (host.toolCard t : Message A P).named id = true) :
    turn.countP (Message.named id) = 0 := by
  have hsame : t.get? "tool_call_id" = id := eq_of_strictEq hn
  rw [Host.patchTool] at h
  dsimp only at h
  split at h
  · cases h
  next hkeep =>
    rw [hsame, if_pos hid] at hkeep
    exact countP_of_findIdx hkeep

theorem OneTurn.tool (h : OneTurn before turn) (t : ToolInfo) :
    OneTurn before ((host.patchTool t turn).getD (turn ++ [host.toolCard t])) := by
  cases hpat : host.patchTool t turn with
  | none =>
    exact h.concat (fun hr => by cases hr) (fun _ => rfl) (fun id hid hn => countP_of_patchTool host hpat hid hn)
  | some rows =>
    have hp := patched_patchTool host h.distinct hpat
    have hsha : rows.map (fun m => (m.role, m.toolInfo.isSome)) = turn.map fun m => (m.role, m.toolInfo.isSome) := by
      have hrol : rows.map role = turn.map role := by
        have hbare := congrArg (List.map role) hp.bare
        rw [map_map, map_map] at hbare
        exact hbare
      have hzip : ∀ l : List (Message A P), l.map (fun m => (m.role, m.toolInfo.isSome)) =
          (l.map role).zip (l.map fun m => m.toolInfo.isSome) := fun l => by
        rw [zip_map']
      rw [hzip, hzip, hrol, hp.cards]
    have hmem : ∀ m ∈ rows, ∃ m' ∈ turn, m'.role = m.role ∧ m'.toolInfo.isSome = m.toolInfo.isSome := by
      intro m hm
      have hin := mem_map_of_mem (f := fun m : Message A P => (m.role, m.toolInfo.isSome)) hm
      rw [hsha] at hin
      obtain ⟨m', hm', he⟩ := mem_map.mp hin
      exact ⟨m', hm', congrArg Prod.fst he, congrArg Prod.snd he⟩
    refine ⟨h.opened, fun m hm => ?_, fun m hm hcard => ?_, hp.distinct⟩
    · obtain ⟨m', hm', hrole, -⟩ := hmem m hm
      rw [← hrole]
      exact h.answer m' hm'
    obtain ⟨m', hm', hrole, hsome⟩ := hmem m hm
    rw [← hrole]
    exact h.tools m' hm' (hsome.trans hcard)

def rowsAfter (rows : List (Message A P)) : Frame → List (Message A P)
  | .reasoning _ => rows
  | .sessionCompacted info => appendCompaction rows info.read
  | .status text => host.appendStatus rows text
  | .delta text => if text = "" then rows else appendDelta rows text
  | .response text attachments parts artifacts model => host.appendResponse rows text attachments parts artifacts model
  | .error text => appendError rows text

theorem messages_step (v : Replayed A P) (f : Frame) :
    (v.step host (.frame f)).messages = rowsAfter host v.messages f := by
  cases f with
  | delta text =>
    rw [Replayed.step, rowsAfter]
    split <;> rfl
  | _ => rfl

theorem OneTurn.status (h : OneTurn before turn) (text : String) :
    host.appendStatus (before ++ turn) text = before ++ host.appendStatus turn text ∧
      OneTurn before (host.appendStatus turn text) := by
  rw [Host.appendStatus, Host.appendStatus]
  cases host.toolOf text with
  | some t =>
    have halo : host.appendOrPatchTool turn t = (host.patchTool t turn).getD (turn ++ [host.toolCard t]) := by
      rw [Host.appendOrPatchTool, splitTurn_of_not_user h.answer]
      dsimp only
      cases host.patchTool t turn <;> rfl
    dsimp only
    rw [halo, appendOrPatchTool_eq host h.opened h.answer]
    exact ⟨rfl, h.tool host t⟩
  | none =>
    dsimp only
    split
    · exact ⟨append_assoc _ _ _, h.push (fun hr => by cases hr) rfl⟩
    · exact ⟨rfl, h⟩

theorem OneTurn.delta (h : OneTurn before turn) (text : String) :
    appendDelta (before ++ turn) text = before ++ appendDelta turn text ∧ OneTurn before (appendDelta turn text) :=
  h.amend ⟨rfl, rfl⟩ (fun _ => rfl) (fun _ => rfl)

theorem OneTurn.rowsAfter (h : OneTurn before turn) (f : Frame) :
    rowsAfter host (before ++ turn) f = before ++ rowsAfter host turn f ∧ OneTurn before (rowsAfter host turn f) := by
  cases f with
  | reasoning active => exact ⟨rfl, h⟩
  | sessionCompacted _ | error _ => exact ⟨append_assoc _ _ _, h.push (fun hr => by cases hr) rfl⟩
  | status text => exact h.status host text
  | delta text =>
    rw [App.rowsAfter, App.rowsAfter]
    split
    · exact ⟨rfl, h⟩
    · exact h.delta text
  | response text attachments parts artifacts model => exact h.amend ⟨rfl, rfl⟩ (fun _ => rfl) (fun _ => rfl)

def Settled (rows : List (Message A P)) (i : Nat) (m : Message A P) : Prop :=
  rows[i]? = some m ∧ (i + 1 < rows.length ∨ m.bubble = false)

structure Alike (a b : Message A P) : Prop where
  role : b.role = a.role
  text : b.text = a.text
  failed : b.failed = a.failed

def Persist (card : Message A P → Message A P → Prop) (rows rows' : List (Message A P)) : Prop :=
  ∀ i m, Settled rows i m → ∃ m', Settled rows' i m' ∧ Alike m m' ∧ card m m'

def SameCard (a b : Message A P) : Prop := b.compacting = a.compacting

def EndedCard (a b : Message A P) : Prop := a.compacting = false → b.compacting = false

theorem Persist.mono {card card' : Message A P → Message A P → Prop} (hcard : ∀ a b, card a b → card' a b)
    {rows rows' : List (Message A P)} (h : Persist card rows rows') : Persist card' rows rows' := by
  intro i m hm
  obtain ⟨m', hm', hali, hsame⟩ := h i m hm
  exact ⟨m', hm', hali, hcard m m' hsame⟩

theorem ended_of_same (a b : Message A P) (h : SameCard a b) : EndedCard a b := fun hn => h.trans hn

theorem persist_refl (rows : List (Message A P)) : Persist SameCard rows rows :=
  fun _ m hm => ⟨m, hm, ⟨rfl, rfl, rfl⟩, rfl⟩

theorem persist_concat (rows : List (Message A P)) (fresh : Message A P) : Persist SameCard rows (rows ++ [fresh]) := by
  intro i m ⟨hget, _⟩
  have hlt := (List.getElem?_eq_some_iff.mp hget).1
  refine ⟨m, ⟨?_, .inl ?_⟩, ⟨rfl, rfl, rfl⟩, rfl⟩
  · rw [List.getElem?_append_left hlt, hget]
  · rw [length_append, length_singleton]
    omega

theorem persist_amend (change : Message A P → Message A P) (fresh : Message A P) (rows : List (Message A P)) :
    Persist SameCard rows (amend change fresh rows) := by
  rw [amend]
  split
  · next last hlast =>
      obtain ⟨hlast, hbub⟩ := Option.filter_eq_some_iff.mp hlast
      obtain ⟨init, rfl⟩ := List.getLast?_eq_some_iff.mp hlast
      rw [dropLast_concat]
      intro i m ⟨hget, hset⟩
      have hlt := (List.getElem?_eq_some_iff.mp hget).1
      rw [length_append, length_singleton] at hlt hset
      -- the bubble itself is not settled
      have hi : i < init.length := by
        rcases Nat.lt_or_ge i init.length with hi | hi
        · exact hi
        have heq : i = init.length := by omega
        rw [heq, List.getElem?_concat_length] at hget
        cases hget
        rcases hset with hs | hs
        · omega
        · rw [hbub] at hs
          cases hs
      rw [List.getElem?_append_left hi] at hget
      refine ⟨m, ⟨?_, .inl ?_⟩, ⟨rfl, rfl, rfl⟩, rfl⟩
      · rw [List.getElem?_append_left hi, hget]
      · rw [length_append, length_singleton]
        omega
  · exact persist_concat rows fresh

theorem alike_of_bare {m' : Message A P} (h : m'.bare = m.bare) :
    Alike m m' ∧ m'.bubble = m.bubble ∧ m'.compacting = m.compacting := by
  rw [bare, bare, mk.injEq] at h
  obtain ⟨hrole, htext, -, -, -, hinfo, -, hstr, hfai⟩ := h
  refine ⟨⟨hrole, htext, hfai⟩, ?_, ?_⟩
  · rw [bubble, bubble, hrole, hstr]
  · rw [compacting, compacting, hrole, hinfo]

theorem persist_of_bare {rows : List (Message A P)} (h : rows.map Message.bare = turn.map Message.bare) :
    Persist SameCard (before ++ turn) (before ++ rows) := by
  have hall : (before ++ rows).map bare = (before ++ turn).map bare := by
    rw [map_append, map_append, h]
  intro i m ⟨hget, hset⟩
  have hbare := congrArg (·[i]?) hall
  simp only [List.getElem?_map, hget, Option.map_some] at hbare
  obtain ⟨m', hm', he⟩ := Option.map_eq_some_iff.mp hbare
  have hlen : (before ++ rows).length = (before ++ turn).length := by simpa using congrArg List.length hall
  obtain ⟨hali, hbub, hcard⟩ := alike_of_bare he
  refine ⟨m', ⟨hm', ?_⟩, hali, hcard⟩
  rw [hlen, hbub]
  exact hset

theorem OneTurn.persist_status (h : OneTurn before turn) (text : String) :
    Persist SameCard (before ++ turn) (host.appendStatus (before ++ turn) text) := by
  rw [Host.appendStatus]
  cases host.toolOf text with
  | some t =>
    dsimp only
    rw [appendOrPatchTool_eq host h.opened h.answer]
    cases hpat : host.patchTool t turn with
    | none =>
      rw [Option.getD_none, ← append_assoc]
      exact persist_concat _ _
    | some rows => exact persist_of_bare (patched_patchTool host h.distinct hpat).bare
  | none =>
    dsimp only
    split
    · exact persist_concat _ _
    · exact persist_refl _

theorem OneTurn.persist_rowsAfter (h : OneTurn before turn) (f : Frame) :
    Persist SameCard (before ++ turn) (App.rowsAfter host (before ++ turn) f) := by
  cases f with
  | reasoning active => exact persist_refl _
  | sessionCompacted _ | error _ => exact persist_concat _ _
  | status text => exact h.persist_status host text
  | delta text =>
    rw [App.rowsAfter]
    split
    · exact persist_refl _
    · exact persist_amend _ _ _
  | response text attachments parts artifacts model => exact persist_amend _ _ _

end OpenAgent.App
