import OpenAgent.Gateway.Collaboration.SharedFrames

namespace OpenAgent.Gateway.Collaboration

open Py Py.Json List Option ToolCard

def jsonLength (j : Json) : Nat := (dumpsChars j).length

def turnsLength (turns : List Turn) : Nat := itemsLength (turns.map Turn.json)

def envelope (sid : String) (shown : Nat) : Nat := textLength sid + shown + 128

def margin (r : Reading) : Nat := 512 + 4 * jsonLength (.float r.time)

def Turn.answer (t : Turn) : String :=
  ((t.messages.find? (fun m => m.id = "response")).map Message.text).getD ""

def carried (keep : Bool) (value : Json) : Nat := if keep then jsonLength value else 0

def Turn.brings (t : Turn) (codec : Codec) (f : Frame) : Nat :=
  match f.type with
  | .delta => textLength (prefixOf (131072 - t.answer.toList.length) f.text) + carried f.model.truthy f.model
  | .response => (textLength (prefixOf 131072 f.text) - textLength t.answer) + carried f.model.truthy f.model +
      carried (f.attachments.truthy && f.attachments.dumps.length ≤ 262144) f.attachments +
      carried (f.parts.truthy && f.parts.dumps.length ≤ 262144) f.parts
  | .status => textLength (prefixOf 16384 f.text) +
      (match codec.tool f.text with
      | some tool => jsonLength (tool.field "tool_call_id") + jsonLength (trimTool tool)
      | none => 0)
  | .error => textLength (prefixOf 16384 f.text)
  | _ => 0

theorem itemLength_turn (t : Turn) : itemLength t.json = entriesLength t.entries + 2 := by
  exact congrArg (· + 2) (length_dumps_obj _ _)

theorem itemLength_message (m : Message) : itemLength m.json = entriesLength m.entries + 2 := by
  exact congrArg (· + 2) (length_dumps_obj _ _)

theorem itemLength_card (c : ToolCard) :
    itemLength c.json = jsonLength c.id + jsonLength c.toolInfo + jsonLength (.float c.timestamp) + 39 := by
  have hid : textLength "id" = 2 := rfl
  have hinfo : textLength "toolInfo" = 8 := rfl
  have htime : textLength "timestamp" = 9 := rfl
  rw [itemLength, json, length_dumps_obj]
  simp only [entriesLength_cons, entriesLength_nil, entryLength, hid, hinfo, htime, jsonLength]
  omega

theorem entriesLength_turn (t : Turn) : entriesLength t.entries =
    entriesLength [("id", .str t.id), ("runId", idJson t.runId), ("startedAt", .float t.startedAt)] +
    entryLength ("active", .bool t.active) +
    (14 + max 2 (itemsLength (t.messages.map Message.json))) +
    entriesLength (givenEntry "truncated" (t.truncated.map .bool)) +
    entriesLength (givenEntry "providerRunId" (t.providerRunId.map .str)) +
    entriesLength (givenEntry "finishedAt" (t.finishedAt.map .float)) +
    entriesLength (givenEntry "status" (t.status.map .str)) +
    entriesLength (givenEntry "tools" (t.tools.map fun tools => .arr (tools.map ToolCard.json))) +
    entriesLength (givenEntry "reasoning" (t.reasoning.map .bool)) +
    entriesLength (givenEntry "error" (t.error.map .str)) := by
  have hmes : textLength "messages" = 8 := rfl
  simp only [Turn.entries, entriesLength_append, entriesLength_cons, entriesLength_nil, entryLength, hmes,
    length_dumps_arr]
  omega

theorem entry_bool_le (key : String) (value : Option Bool) :
    entriesLength (givenEntry key (value.map .bool)) ≤ textLength key + 11 := by
  cases value with
  | none => exact Nat.zero_le _
  | some b => cases b <;> simp [givenEntry, entryLength, dumpsChars]

theorem entry_str (key : String) (s : String) :
    entriesLength (givenEntry key ((some s).map .str)) = textLength key + textLength s + 8 := by
  have hs := length_dumps_str s
  simp only [map_some, givenEntry, entriesLength_cons, entriesLength_nil, entryLength, hs]
  omega

theorem entry_float (key : String) (f : PyFloat) :
    entriesLength (givenEntry key ((some f).map .float)) = textLength key + jsonLength (.float f) + 6 := by
  simp only [map_some, givenEntry, entriesLength_cons, entriesLength_nil, entryLength, jsonLength, Nat.add_zero]

theorem dropTools_suffix (tools : List ToolCard) : (dropTools tools).2 <:+ tools := by
  induction tools with
  | nil => exact suffix_refl _
  | cons c cs ih =>
    rw [dropTools]
    split
    · exact ih.trans (suffix_cons c cs)
    · exact suffix_refl _

theorem itemsLength_suffix {α : Type} (f : α → Json) {l m : List α} (h : l <:+ m) :
    itemsLength (l.map f) ≤ itemsLength (m.map f) := by
  obtain ⟨k, rfl⟩ := h
  rw [map_append, itemsLength_append]
  exact Nat.le_add_left _ _

theorem itemsLength_modify {α : Type} (f : α → Json) (g : α → α) {i : Nat} {l : List α} {a : α} (h : l[i]? = some a) :
    itemsLength ((l.modify i g).map f) + itemLength (f a) = itemsLength (l.map f) + itemLength (f (g a)) := by
  induction l generalizing i with
  | nil => cases h
  | cons b l ih =>
    cases i with
    | zero =>
      cases h
      simp only [modify_zero_cons, map_cons, itemsLength_cons]
      omega
    | succ i =>
      have hl := ih (i := i) (by simpa using h)
      simp only [modify_succ_cons, map_cons, itemsLength_cons]
      omega

theorem found_at {α : Type} {p : α → Bool} {i : Nat} {l : List α} (h : l.findIdx? p = some i) :
    ∃ a, l[i]? = some a ∧ l.find? p = some a := by
  induction l generalizing i with
  | nil => cases h
  | cons b l ih =>
    rw [List.findIdx?_cons] at h
    by_cases hb : p b = true
    · rw [if_pos hb] at h
      cases h
      exact ⟨b, rfl, List.find?_cons_of_pos hb⟩
    rw [if_neg hb, map_eq_some_iff] at h
    obtain ⟨j, hj, rfl⟩ := h
    obtain ⟨a, ha, hfound⟩ := ih hj
    exact ⟨a, ha, (List.find?_cons_of_neg hb).trans hfound⟩

theorem length_tools (tools : Option (List ToolCard)) :
    entriesLength (givenEntry "tools" (tools.map fun tools => .arr (tools.map ToolCard.json))) ≤
      13 + itemsLength ((tools.getD []).map ToolCard.json) := by
  have hkey : textLength "tools" = 5 := rfl
  cases tools with
  | none => exact Nat.zero_le _
  | some tools =>
    simp only [map_some, givenEntry, entriesLength_cons, entriesLength_nil, entryLength, hkey, length_dumps_arr,
      getD_some]
    omega

theorem tools_le_length (tools : Option (List ToolCard)) : itemsLength ((tools.getD []).map ToolCard.json) ≤
      entriesLength (givenEntry "tools" (tools.map fun tools => .arr (tools.map ToolCard.json))) := by
  cases tools with
  | none => exact Nat.le_refl _
  | some tools =>
    simp only [map_some, givenEntry, entriesLength_cons, entriesLength_nil, entryLength, length_dumps_arr,
      getD_some]
    omega

theorem length_withTools (t : Turn) (tools : List ToolCard) (truncated : Option Bool) :
    entriesLength { t with tools := some tools, truncated }.entries +
      itemsLength ((t.tools.getD []).map ToolCard.json) ≤
        entriesLength t.entries + itemsLength (tools.map ToolCard.json) + 33 := by
  have hflag : textLength "truncated" = 9 := rfl
  have hbef := tools_le_length t.tools
  have hafter := length_tools (some tools)
  have htru := entry_bool_le "truncated" truncated
  rw [getD_some] at hafter
  rw [entriesLength_turn, entriesLength_turn t]
  dsimp only
  omega

theorem length_showTool (t : Turn) (codec : Codec) (r : Reading) (tool : Json) :
    entriesLength (t.showTool codec r tool).entries ≤ entriesLength t.entries +
      (jsonLength (tool.field "tool_call_id") + jsonLength tool) + (jsonLength (.float r.time) + 72) := by
  rw [Turn.showTool]
  split
  · next i hi =>
      obtain ⟨c, hc, _⟩ := found_at hi
      have hcard : itemLength { c with toolInfo := tool }.json ≤ itemLength c.json + jsonLength tool := by
        rw [itemLength_card, itemLength_card]
        dsimp only
        omega
      have hmod := itemsLength_modify json (fun c => { c with toolInfo := tool }) hc
      have hdrop := itemsLength_suffix json
        (dropTools_suffix ((t.tools.getD []).modify i (fun c => { c with toolInfo := tool })))
      refine Nat.le_of_add_le_add_right ((length_withTools t _ _).trans ?_)
      omega
  have hold : itemsLength ((if (t.tools.getD []).length ≥ 128 then (t.tools.getD []).tail else t.tools.getD []).map
      json) ≤ itemsLength ((t.tools.getD []).map json) := by
    split
    · exact itemsLength_suffix _ (tail_suffix _)
    · exact Nat.le_refl _
  have hcard := itemLength_card { id := tool.field "tool_call_id", toolInfo := tool, timestamp := r.time }
  have hdrop := itemsLength_suffix json (dropTools_suffix
    ((if (t.tools.getD []).length ≥ 128 then (t.tools.getD []).tail else t.tools.getD []) ++
      [{ id := tool.field "tool_call_id", toolInfo := tool, timestamp := r.time }]))
  simp only [map_append, itemsLength_append, map_cons, map_nil, itemsLength_cons, itemsLength_nil,
    hcard] at hdrop
  refine Nat.le_of_add_le_add_right ((length_withTools t _ _).trans ?_)
  omega

theorem field_setPath {key other : String} (h : other ≠ key) (value j : Json) :
    (setPath [key] value j).field other = j.field other := by
  cases j with
  | obj entries =>
    rw [setPath, setPath, field, field, Assoc.get?_set, if_neg h]
  | null | bool _ | int _ | float _ | str _ | arr _ => rfl

theorem field_trimTool (tool : Json) {key : String} (hresult : key ≠ "result") (hargs : key ≠ "tool_args") :
    (trimTool tool).field key = tool.field key := by
  have htri : ∀ j : Json, j.field key = tool.field key → (if (j.field "tool_args").dumps.length > 12000 then
        setPath ["tool_args"] (.obj [("truncated", .bool true)]) j else j).field key = tool.field key := by
    intro j hj
    split
    · rw [field_setPath hargs, hj]
    · exact hj
  rw [trimTool]
  cases tool.field "result" with
  | null => exact htri tool rfl
  | str result => exact htri _ (field_setPath hresult _ _)
  | bool _ | int _ | float _ | arr _ | obj _ => exact htri _ (field_setPath hresult _ _)

theorem entriesLength_message (m : Message) : entriesLength m.entries =
    entriesLength [("id", .str m.id), ("role", .str m.role), ("timestamp", .float m.timestamp)] +
    (textLength m.text + 12) + entriesLength (givenEntry "author" m.author) + entriesLength (givenEntry "model" m.model) +
    entriesLength (givenEntry "attachments" m.attachments) + entriesLength (givenEntry "parts" m.parts) := by
  have htext : textLength "text" = 4 := rfl
  have hs := length_dumps_str m.text
  simp only [Message.entries, entriesLength_append, entriesLength_cons, entriesLength_nil, entryLength, htext, hs]
  omega

theorem length_replaced (key : String) (keep : Bool) (value : Json) (old : Option Json) :
    entriesLength (givenEntry key (if keep then some value else old)) ≤
      entriesLength (givenEntry key old) + carried keep value + (textLength key + 6) := by
  cases keep with
  | false => exact (Nat.le_add_right _ _).trans (Nat.le_add_right _ _)
  | true =>
    simp only [if_true, givenEntry, entriesLength_cons, entriesLength_nil, entryLength, carried, jsonLength]
    omega

/-- How `say` changes the answer. -/
def spoken (f : Frame) (value : String) (m : Message) : Message :=
  { m with
    text := prefixOf 131072 value
    model := if f.model.truthy then some f.model else m.model
    attachments := if f.type = .response then boundedField f.attachments m.attachments else m.attachments
    parts := if f.type = .response then boundedField f.parts m.parts else m.parts }

def Frame.extras (f : Frame) : Nat :=
  carried f.model.truthy f.model + (if f.type = .response then
    carried (f.attachments.truthy && f.attachments.dumps.length ≤ 262144) f.attachments +
      carried (f.parts.truthy && f.parts.dumps.length ≤ 262144) f.parts else 0)

theorem length_spoken (f : Frame) (value : String) (m : Message) :
    itemLength (spoken f value m).json + textLength m.text ≤
      itemLength m.json + textLength (prefixOf 131072 value) + f.extras + 60 := by
  have hmod : textLength "model" = 5 := rfl
  have hatt : textLength "attachments" = 11 := rfl
  have hpar : textLength "parts" = 5 := rfl
  have hmode := length_replaced "model" f.model.truthy f.model m.model
  have hatta := length_replaced "attachments" (f.attachments.truthy && f.attachments.dumps.length ≤ 262144)
    f.attachments m.attachments
  have hpart := length_replaced "parts" (f.parts.truthy && f.parts.dumps.length ≤ 262144) f.parts m.parts
  rw [itemLength_message, itemLength_message, entriesLength_message, entriesLength_message m]
  simp only [spoken, boundedField, Frame.extras]
  by_cases hres : f.type = .response
  · simp only [if_pos hres]
    omega
  · simp only [if_neg hres]
    omega

theorem length_onResponse (t : Turn) (r : Reading) (f : Frame) (value : String) :
    itemsLength ((onResponse t.messages r (spoken f value)).map Message.json) + textLength t.answer ≤
      itemsLength (t.messages.map Message.json) + textLength (prefixOf 131072 value) + f.extras +
        (jsonLength (.float r.time) + 160) := by
  rw [onResponse, Turn.answer]
  split
  · next i hi =>
      obtain ⟨m, hm, hfound⟩ := found_at hi
      have hmod := itemsLength_modify Message.json (spoken f value) hm
      have hm' := length_spoken f value m
      rw [hfound, map_some, getD_some]
      omega
  next hnone =>
    have hfound : t.messages.find? (fun m => m.id = "response") = none := by
      rw [List.find?_eq_none]
      rw [List.findIdx?_eq_none_iff] at hnone
      intro m hm
      rw [hnone m hm]
      exact Bool.false_ne_true
    have hnew := length_spoken f value { id := "response", role := "assistant", text := "", timestamp := r.time }
    have hemp : itemLength (Message.json { id := "response", role := "assistant", text := "", timestamp := r.time }) =
        jsonLength (.float r.time) + 68 := by
      have hid : (dumpsChars (.str "response")).length = 10 := rfl
      have hrole : (dumpsChars (.str "assistant")).length = 11 := rfl
      have hidK : textLength "id" = 2 := rfl
      have hrol : textLength "role" = 4 := rfl
      have htim : textLength "timestamp" = 9 := rfl
      have htext : textLength "" = 0 := rfl
      rw [itemLength_message, entriesLength_message]
      simp only [entriesLength_cons, entriesLength_nil, entryLength, givenEntry, hid, hrole, hidK, hrol, htim,
        htext, jsonLength]
      omega
    have htext : textLength "" = 0 := rfl
    rw [hfound, map_none, getD_none, map_append, itemsLength_append]
    simp only [map_cons, map_nil, itemsLength_cons, itemsLength_nil]
    omega

theorem say_eq (t : Turn) (r : Reading) (f : Frame) : ∃ truncated, t.say r f =
    { t with
      truncated
      messages := onResponse t.messages r (spoken f (if f.type = .delta then t.answer ++ f.text else f.text)) } :=
  ⟨_, rfl⟩

theorem length_say (t : Turn) (r : Reading) (f : Frame) :
    entriesLength (t.say r f).entries + textLength t.answer ≤ entriesLength t.entries +
      textLength (prefixOf 131072 (if f.type = .delta then t.answer ++ f.text else f.text)) + f.extras +
      (jsonLength (.float r.time) + 190) := by
  obtain ⟨truncated, hsay⟩ := say_eq t r f
  have hmes := length_onResponse t r f (if f.type = .delta then t.answer ++ f.text else f.text)
  have hflag : textLength "truncated" = 9 := rfl
  have htru := entry_bool_le "truncated" truncated
  rw [hsay, entriesLength_turn, entriesLength_turn t]
  dsimp only
  omega

theorem length_close (t : Turn) (r : Reading) :
    entriesLength (t.close r.time).entries ≤ entriesLength t.entries + (jsonLength (.float r.time) + 40) := by
  have hkey : textLength "finishedAt" = 10 := rfl
  have hfin := entry_float "finishedAt" r.time
  have hfal : entryLength ("active", .bool false) = 17 := rfl
  have htrue : 16 ≤ entryLength ("active", .bool t.active) := by
    cases t.active <;> decide
  rw [entriesLength_turn, entriesLength_turn t, Turn.close]
  dsimp only
  omega

theorem length_record (t : Turn) (codec : Codec) (r : Reading) (f : Frame) :
    entriesLength (t.record codec r f).entries ≤ entriesLength t.entries + t.brings codec f +
      (jsonLength (.float r.time) + 200) := by
  rw [Turn.record, Turn.brings]
  cases htype : f.type with
  | delta =>
    have hsay := length_say t r f
    have hcut := textLength_prefixOf_append_le 131072 t.answer f.text
    simp only [Frame.extras, htype, if_true, reduceCtorEq, if_false] at hsay ⊢
    omega
  | response =>
    have hsay := length_say t r f
    simp only [Frame.extras, htype, if_true, reduceCtorEq, if_false] at hsay ⊢
    omega
  | status =>
    have hkey : textLength "status" = 6 := rfl
    have hsta := entry_str "status" (prefixOf 16384 f.text)
    have hset : entriesLength { t with status := some (prefixOf 16384 f.text) }.entries ≤
        entriesLength t.entries + textLength (prefixOf 16384 f.text) + 14 := by
      rw [entriesLength_turn, entriesLength_turn t]
      dsimp only
      omega
    cases htool : codec.tool f.text with
    | none =>
      dsimp only
      omega
    | some tool =>
      have hshow := length_showTool { t with status := some (prefixOf 16384 f.text) } codec r (trimTool tool)
      rw [field_trimTool tool (by decide) (by decide)] at hshow
      change entriesLength (Turn.showTool _ codec r (trimTool tool)).entries ≤ entriesLength t.entries +
        (textLength (prefixOf 16384 f.text) + (jsonLength (tool.field "tool_call_id") + jsonLength (trimTool tool))) +
        (jsonLength (.float r.time) + 200)
      omega
  | reasoning =>
    have hkey : textLength "reasoning" = 9 := rfl
    have hrea := entry_bool_le "reasoning" (some (decide (f.active = .bool true)))
    rw [entriesLength_turn, entriesLength_turn t]
    dsimp only
    omega
  | error =>
    have hkey : textLength "error" = 5 := rfl
    have herr := entry_str "error" (prefixOf 16384 f.text)
    rw [entriesLength_turn, entriesLength_turn t]
    dsimp only
    omega
  | turnComplete =>
    have hclo := length_close t r
    dsimp only
    omega
  | seed | other => exact (Nat.le_add_right _ _).trans (Nat.le_add_right _ _)

@[simp] theorem turnsLength_nil : turnsLength [] = 0 := rfl

theorem turnsLength_append (turns more : List Turn) :
    turnsLength (turns ++ more) = turnsLength turns + turnsLength more := by
  rw [turnsLength, turnsLength, turnsLength, map_append, itemsLength_append]

theorem turnsLength_singleton (t : Turn) : turnsLength [t] = entriesLength t.entries + 2 := by
  simp only [turnsLength, map_cons, map_nil, itemsLength_cons, itemsLength_nil, itemLength_turn, Nat.add_zero]

def staying (turns : List Turn) : List Turn := turns.drop (turns.length - 7)

theorem turnsLength_modifyLast (turns : List Turn) (g : Turn → Turn) (n : Nat)
    (h : ∀ t, turns.getLast? = some t → entriesLength (g t).entries ≤ entriesLength t.entries + n) :
    turnsLength (modifyLast g turns) ≤ turnsLength turns + n := by
  rcases eq_nil_or_concat turns with rfl | ⟨before, t, rfl⟩
  · exact Nat.zero_le _
  rw [concat_eq_append] at h ⊢
  have ht := h t List.getLast?_concat
  rw [modifyLast, List.getLast?_concat]
  rw [dropLast_concat, turnsLength_append, turnsLength_append, turnsLength_singleton, turnsLength_singleton]
  omega

theorem modifyLast_drop (g : Turn → Turn) (n : Nat) (turns : List Turn) (h : n < turns.length) :
    (modifyLast g turns).drop n = modifyLast g (turns.drop n) := by
  rcases eq_nil_or_concat turns with rfl | ⟨before, t, rfl⟩
  · cases h
  rw [concat_eq_append] at *
  rw [length_append, length_singleton] at h
  have hn : n ≤ before.length := by omega
  rw [modifyLast, List.getLast?_concat, drop_append_of_le_length hn, modifyLast, List.getLast?_concat]
  rw [dropLast_concat, dropLast_concat, drop_append_of_le_length hn]

theorem turnsLength_turnsWith (turns : List Turn) (r : Reading) (turn : Turn) :
    turnsLength (Projection.turnsWith turns r turn) + 38 ≤
      turnsLength (staying turns) + entriesLength turn.entries + (jsonLength (.float r.time) + 80) := by
  have hclo : ∀ t : Turn, entriesLength (if t.active then t.close r.time else t).entries ≤
      entriesLength t.entries + (jsonLength (.float r.time) + 40) := by
    intro t
    split
    · exact length_close t r
    · exact Nat.le_add_right _ _
  rw [Projection.turnsWith, length_modifyLast, turnsLength_append, turnsLength_singleton]
  by_cases hlong : turns.length - 7 < turns.length
  · have hmod := turnsLength_modifyLast (staying turns) (fun t => if t.active then t.close r.time else t) _
      (fun t _ => hclo t)
    rw [modifyLast_drop _ _ _ hlong]
    rw [staying] at hmod ⊢
    omega
  have hnil : turns = [] := by
    rw [← length_eq_zero_iff]
    omega
  subst hnil
  have hemp : turnsLength ((modifyLast (fun t => if t.active then t.close r.time else t) []).drop 0) = 0 := rfl
  simp only [length_nil, Nat.zero_sub]
  omega

end OpenAgent.Gateway.Collaboration
