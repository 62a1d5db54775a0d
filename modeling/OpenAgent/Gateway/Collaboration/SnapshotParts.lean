import OpenAgent.Gateway.Collaboration.SnapshotRoom

namespace OpenAgent.Gateway.Collaboration

open Py Py.Json List

/-- Python's `==` compares strings by their characters. -/
structure PyCodec extends Codec where
  same_str : ∀ a b, same (.str a) (.str b) = decide (a = b)

/-- `time.time()` for a clock reading of so many milliseconds. -/
structure Clock where
  seconds : Int → PyFloat
  finite : ∀ now, (Json.float (seconds now)).finite = true

def LIMIT : Nat := 4194304

structure Message.Valid (m : Message) : Prop where
  role : m.role = "user" ∨ m.role = "assistant"
  text : m.text.toList.length ≤ 131072
  timestamp : (Json.float m.timestamp).finite = true
  author : ∀ a, m.author = some a → (jsTruthy a = false ∨ validAuthor a = true) ∧ a.finite = true
  model : ∀ j, m.model = some j → j.finite = true
  attachments : ∀ j, m.attachments = some j → j.finite = true
  parts : ∀ j, m.parts = some j → j.finite = true

def isText : Json → Bool
  | .str _ => true
  | _ => false

structure NamedTool (tool : Json) : Prop where
  name : isText (tool.field "tool_name") = true
  id : isTextOf 256 (some (tool.field "tool_call_id")) = true
  isObj : tool.isObj = true
  finite : tool.finite = true

structure ToolCard.Valid (c : ToolCard) : Prop where
  info : NamedTool c.toolInfo
  id : c.id = c.toolInfo.field "tool_call_id"
  timestamp : (Json.float c.timestamp).finite = true

structure Turn.Valid (t : Turn) : Prop where
  id : unitsOf t.id ≤ 128
  startedAt : (Json.float t.startedAt).finite = true
  finishedAt : ∀ f, t.finishedAt = some f → (Json.float f).finite = true
  messages : ∀ m ∈ t.messages, m.Valid
  few : t.messages.length ≤ 2 ∧ ((∀ m ∈ t.messages, m.id ≠ "response") → t.messages.length ≤ 1)
  tools : ∀ tools, t.tools = some tools → tools.length ≤ 128 ∧ ∀ c ∈ tools, c.Valid

variable {tool : Json}

theorem NamedTool.named (h : NamedTool tool) : ∃ name, tool.field "tool_name" = .str name := by
  have hname := h.name
  cases hfie : tool.field "tool_name" with
  | str name => exact ⟨name, rfl⟩
  | null | bool _ | int _ | float _ | arr _ | obj _ => rw [hfie] at hname; cases hname

theorem NamedTool.call (h : NamedTool tool) :
    ∃ id, tool.field "tool_call_id" = .str id ∧ unitsOf id ≤ 256 := by
  have hid := h.id
  cases hfie : tool.field "tool_call_id" with
  | str id =>
    rw [hfie] at hid
    exact ⟨id, rfl, of_decide_eq_true hid⟩
  | null | bool _ | int _ | float _ | arr _ | obj _ => rw [hfie] at hid; cases hid

instance (tool : Json) : Decidable (NamedTool tool) :=
  decidable_of_iff (isText (tool.field "tool_name") = true ∧ isTextOf 256 (some (tool.field "tool_call_id")) = true ∧
    tool.isObj = true ∧ tool.finite = true)
    ⟨fun ⟨name, id, isObj, finite⟩ => ⟨name, id, isObj, finite⟩, fun h => ⟨h.name, h.id, h.isObj, h.finite⟩⟩

theorem unitsOf_le (s : String) : unitsOf s ≤ 2 * s.toList.length := by
  rw [unitsOf]
  induction s.toList with
  | nil => exact Nat.le_refl _
  | cons c cs ih =>
    rw [map_cons, sum_cons, length_cons]
    split <;> omega

theorem prop_append (es fs : List (String × Json)) (key : String) :
    prop (.obj (es ++ fs)) key = (prop (.obj es) key).or (prop (.obj fs) key) := Assoc.get?_append _ _ _

theorem prop_givenEntry (key other : String) (value : Option Json) :
    prop (.obj (givenEntry key value)) other = if key = other then value else none := by
  cases value with
  | none => split <;> rfl
  | some v =>
    by_cases h : key = other
    · simp [givenEntry, prop, h]
    · simp [givenEntry, prop, h]

theorem finite_obj (es : List (String × Json)) : (Json.obj es).finite = true ↔ ∀ e ∈ es, e.2.finite = true :=
  finiteEntries_iff es

theorem finite_arr (js : List Json) : (Json.arr js).finite = true ↔ ∀ j ∈ js, j.finite = true := finiteItems_iff js

theorem finite_givenEntry (key : String) (value : Option Json) :
    (∀ e ∈ givenEntry key value, e.2.finite = true) ↔ ∀ j, value = some j → j.finite = true := by
  cases value with
  | none | some _ => simp [givenEntry]

theorem finite_idJson (id : Option String) : (idJson id).finite = true := by
  cases id <;> rfl

variable {m : Message}

theorem Message.Valid.finite (h : m.Valid) : m.json.finite = true := by
  rw [Message.json, finite_obj]
  simp only [Message.entries, forall_mem_append, forall_mem_cons, not_mem_nil, false_implies,
    implies_true, and_true, finite_givenEntry]
  exact ⟨⟨⟨⟨⟨rfl, rfl, rfl, h.timestamp⟩, fun a ha => (h.author a ha).2⟩, h.model⟩, h.attachments⟩, h.parts⟩

theorem Message.Valid.valid (h : m.Valid) : validMessage m.json = true := by
  have htext : unitsOf m.text ≤ 262144 := (unitsOf_le m.text).trans (by have := h.text; omega)
  have hrole : (prop m.json "role" = some (.str "user") ∨ prop m.json "role" = some (.str "assistant")) := by
    have hprop : prop m.json "role" = some (.str m.role) := rfl
    rw [hprop]
    exact h.role.imp (fun hr => by rw [hr]) (fun hr => by rw [hr])
  have haut : prop m.json "author" = m.author := by
    simp only [Message.json, Message.entries, prop_append, prop_givenEntry]
    cases m.author <;> simp [prop]
  have hid : prop m.json "id" = some (.str m.id) := rfl
  have htex : prop m.json "text" = some (.str m.text) := rfl
  have htime : prop m.json "timestamp" = some (.float m.timestamp) := rfl
  have hobj : jsTruthy m.json = true := rfl
  have hfin := h.timestamp
  rw [validMessage, hobj, hid, htex, htime, haut]
  cases ha : m.author with
  | none => simp [isTextOf, isFiniteNumber, htext, hfin, hrole]
  | some a =>
    have hval := (h.author a ha).1
    simp only [isTextOf, isFiniteNumber, htext, hfin, hrole, Bool.or_eq_true, decide_eq_true_eq, Bool.and_eq_true,
      Bool.not_eq_true', decide_true, and_self, true_and]
    exact hval

theorem prop_of_field {j : Json} {key : String} {s : String} (h : j.field key = .str s) :
    prop j key = some (.str s) := by
  cases j with
  | obj entries =>
    rw [field] at h
    rw [prop]
    cases hget : Assoc.get? entries key with
    | none => rw [hget] at h; cases h
    | some v => rw [hget] at h; exact congrArg some h
  | null | bool _ | int _ | float _ | str _ | arr _ => cases h

theorem ToolCard.Valid.finite {c : ToolCard} (h : c.Valid) : c.json.finite = true := by
  obtain ⟨id, hid, _⟩ := h.info.call
  rw [ToolCard.json, finite_obj]
  simp only [forall_mem_cons, not_mem_nil, false_implies, implies_true, and_true, h.id, hid]
  exact ⟨rfl, h.info.finite, h.timestamp⟩

theorem ToolCard.Valid.valid {c : ToolCard} (h : c.Valid) : validTool c.json = true := by
  obtain ⟨id, hid, huni⟩ := h.info.call
  obtain ⟨name, hname⟩ := h.info.named
  have hobj : jsTruthy c.toolInfo = true := by
    have hisO := h.info.isObj
    cases hinfo : c.toolInfo with
    | obj entries => rfl
    | null | bool _ | int _ | float _ | str _ | arr _ => rw [hinfo] at hisO; cases hisO
  have hcar : prop c.json "id" = some (.str id) := by rw [← hid, ← h.id]; rfl
  have hcard : prop c.json "timestamp" = some (.float c.timestamp) := rfl
  have hcardI : prop c.json "toolInfo" = some c.toolInfo := rfl
  have hfin := h.timestamp
  rw [validTool, hcar, hcard, hcardI]
  simp [isTextOf, isFiniteNumber, huni, hfin, hobj, prop_of_field hname, prop_of_field hid]

variable {t : Turn}

theorem Turn.Valid.finite (h : t.Valid) : t.json.finite = true := by
  rw [Turn.json, finite_obj]
  simp only [Turn.entries, forall_mem_append, forall_mem_cons, not_mem_nil, false_implies,
    implies_true, and_true, finite_givenEntry, finite_arr]
  have hmes : ∀ j ∈ t.messages.map Message.json, j.finite = true := by
    intro j hj
    obtain ⟨m, hm, rfl⟩ := mem_map.mp hj
    exact (h.messages m hm).finite
  have htoo : ∀ j, t.tools.map (fun tools => Json.arr (tools.map ToolCard.json)) = some j → j.finite = true := by
    intro j hj
    obtain ⟨tools, htoo, rfl⟩ := Option.map_eq_some_iff.mp hj
    rw [finite_arr]
    intro k hk
    obtain ⟨c, hc, rfl⟩ := mem_map.mp hk
    exact ((h.tools tools htoo).2 c hc).finite
  have hbool : ∀ (value : Option Bool) j, value.map Json.bool = some j → j.finite = true := by
    intro value j hj
    obtain ⟨b, _, rfl⟩ := Option.map_eq_some_iff.mp hj
    rfl
  have hstr : ∀ (value : Option String) j, value.map Json.str = some j → j.finite = true := by
    intro value j hj
    obtain ⟨s, _, rfl⟩ := Option.map_eq_some_iff.mp hj
    rfl
  have hflo : ∀ j, t.finishedAt.map Json.float = some j → j.finite = true := by
    intro j hj
    obtain ⟨f, hf, rfl⟩ := Option.map_eq_some_iff.mp hj
    exact h.finishedAt f hf
  exact ⟨⟨⟨⟨⟨⟨⟨⟨rfl, finite_idJson _, rfl, h.startedAt, hmes⟩, hbool _⟩, hstr _⟩, hflo⟩, hstr _⟩, htoo⟩,
    hbool _⟩, hstr _⟩

theorem Turn.Valid.valid (h : t.Valid) : validTurn t.json = true := by
  have htoo : prop t.json "tools" = t.tools.map fun tools => .arr (tools.map ToolCard.json) := by
    simp only [Turn.json, Turn.entries, prop_append, prop_givenEntry]
    cases t.tools <;> simp [prop]
  have hid : prop t.json "id" = some (.str t.id) := rfl
  have hact : prop t.json "active" = some (.bool t.active) := rfl
  have hsta : prop t.json "startedAt" = some (.float t.startedAt) := rfl
  have hmes : prop t.json "messages" = some (.arr (t.messages.map Message.json)) := rfl
  have hobj : jsTruthy t.json = true := rfl
  have huni := h.id
  have hfin := h.startedAt
  have hfew := h.few.1
  have hall : (t.messages.map Message.json).all validMessage = true := by
    rw [all_map, all_eq_true]
    exact fun m hm => (h.messages m hm).valid
  rw [validTurn, hobj, hid, hact, hsta, hmes, htoo]
  cases htoo' : t.tools with
  | none => simp [isTextOf, isFiniteNumber, huni, hfin, hfew, hall]
  | some tools =>
    obtain ⟨hmany, hval⟩ := h.tools tools htoo'
    have hcar : (tools.map ToolCard.json).all validTool = true := by
      rw [all_map, all_eq_true]
      exact fun c hc => (hval c hc).valid
    simp [isTextOf, isFiniteNumber, huni, hfin, hfew, hall, hmany, hcar]

theorem length_sharedState (seconds : Int → PyFloat) (sid : String) (s : Session)
    (hrevi : s.revision ≤ 9007199254740991) :
    (sharedState seconds sid s).dumps.length ≤ turnsLength s.turns +
      envelope sid ((s.updatedAt.map fun now => jsonLength (.float (seconds now))).getD 0) := by
  have hdig : (dumpsChars (.int s.revision)).length ≤ 16 := by
    have hlen := (Nat.length_toDigits_le_iff (b := 10) (n := s.revision) (k := 16) (by decide) (by decide)).mpr
      (by omega)
    exact hlen
  have htype : textLength "type" = 4 := rfl
  have hsha : (dumpsChars (.str "shared_state")).length = 14 := rfl
  have hsid : textLength "session_id" = 10 := rfl
  have htur : textLength "turns" = 5 := rfl
  have hrev : textLength "revision" = 8 := rfl
  have hdate : textLength "updatedAt" = 9 := rfl
  have hstr := length_dumps_str sid
  have hupd : entriesLength (givenEntry "updatedAt" (s.updatedAt.map fun now => .float (seconds now))) ≤
      (s.updatedAt.map fun now => jsonLength (.float (seconds now))).getD 0 + 15 := by
    cases s.updatedAt with
    | none => exact Nat.zero_le _
    | some now =>
      simp only [Option.map_some, givenEntry, entriesLength_cons, entriesLength_nil, entryLength, hdate, jsonLength,
        Option.getD_some]
      omega
  rw [length_dumps, sharedState, cons_append, length_dumps_obj]
  simp only [cons_append, nil_append, entriesLength_cons, htype, hsha, entryLength, hsid, hstr,
    htur, length_dumps_arr, hrev, envelope, turnsLength] at hupd ⊢
  omega

theorem accepted_of_valid (clock : Clock) {sid : String} {s : Session} (hsid : isIdentifier sid = true)
    (htur : ∀ t ∈ s.turns, t.Valid) (hfew : s.turns.length ≤ 8) (hrevi : s.revision ≤ 9007199254740991)
    (hroom : turnsLength s.turns +
      envelope sid ((s.updatedAt.map fun now => jsonLength (.float (clock.seconds now))).getD 0) ≤ LIMIT) :
    clientAccepts (sharedState clock.seconds sid s) = true := by
  have hlen : (sharedState clock.seconds sid s).dumps.length ≤ 4194304 :=
    (length_sharedState clock.seconds sid s hrevi).trans hroom
  have hfin : (sharedState clock.seconds sid s).finite = true := by
    rw [sharedState, finite_obj]
    simp only [forall_mem_append, forall_mem_cons, not_mem_nil, false_implies, implies_true, and_true,
      finite_givenEntry, finite_arr]
    refine ⟨⟨rfl, rfl, ?_, rfl⟩, ?_⟩
    · intro j hj
      obtain ⟨t, ht, rfl⟩ := mem_map.mp hj
      exact (htur t ht).finite
    intro j hj
    obtain ⟨now, _, rfl⟩ := Option.map_eq_some_iff.mp hj
    exact clock.finite now
  have hid : prop (sharedState clock.seconds sid s) "session_id" = some (.str sid) := rfl
  have hrev : prop (sharedState clock.seconds sid s) "revision" = some (.int s.revision) := rfl
  have hprop : prop (sharedState clock.seconds sid s) "turns" = some (.arr (s.turns.map Turn.json)) := rfl
  have hobj : jsTruthy (sharedState clock.seconds sid s) = true := rfl
  have hall : (s.turns.map Turn.json).all validTurn = true := by
    rw [all_map, all_eq_true]
    exact fun t ht => (htur t ht).valid
  have hval : validSharedSnapshot (sharedState clock.seconds sid s) = true := by
    rw [validSharedSnapshot, hobj, hid, hrev, hprop]
    simp [isSafeInteger, hsid, hrevi, hfew, hall]
  simp [clientAccepts, hlen, hfin, hval]

def AuthorFit (author : Json) : Prop :=
  author.truthy = true → (jsTruthy author = false ∨ validAuthor author = true) ∧ author.finite = true

instance (author : Json) : Decidable (AuthorFit author) :=
  inferInstanceAs (Decidable (_ → _ ∧ _))

theorem valid_opened (r : Tick) {text : String} {author : Json} (haut : text ≠ "" → AuthorFit author)
    (runId : Option String) : (Turn.opened r.toReading text author runId).Valid := by
  have hhex : unitsOf r.hex ≤ 128 := by
    have huni := unitsOf_le r.hex
    have hlen : r.hex.toList.length = 32 := r.hex_length
    omega
  have hmes : ∀ a : Json, text ≠ "" → a = author.orElse (.obj [("kind", .str "agent"), ("display", .str "Agent")]) →
      (jsTruthy a = false ∨ validAuthor a = true) ∧ a.finite = true := by
    intro a htext ha
    rw [Json.orElse] at ha
    split at ha
    · next htru =>
        rw [ha]
        exact haut htext htru
    · rw [ha]
      exact ⟨.inr (by decide), by decide⟩
  refine ⟨hhex, r.time_finite, (by simp [Turn.opened]), ?_, ?_, (by simp [Turn.opened])⟩
  · intro m hm
    simp only [Turn.opened] at hm
    split at hm
    · cases hm
    next htext =>
      rw [mem_singleton.mp hm]
      refine ⟨.inl rfl, ?_, r.time_finite, fun a ha => hmes a htext (Option.some.inj ha).symm, (by simp), (by simp),
        (by simp)⟩
      simp only [prefixOf, String.toList_ofList, length_take]
      omega
  · simp only [Turn.opened]
    split <;> simp

theorem Turn.Valid.started (h : t.Valid) {q : TurnRequest}
    (hatt : ∀ j ∈ q.attachments, j.finite = true) : (t.started q).Valid := by
  have hnam : (if q.command then t else { t with providerRunId := some q.requestId }).Valid := by
    split
    · exact h
    · exact ⟨h.id, h.startedAt, h.finishedAt, h.messages, h.few, h.tools⟩
  rw [Turn.started]
  split
  · exact hnam
  generalize (if q.command then t else { t with providerRunId := some q.requestId }) = live at hnam
  have hids : ∀ m ∈ live.messages.modify 0 (fun m => { m with attachments := some (.arr q.attachments) }),
      ∃ old ∈ live.messages, m = old ∨ m = { old with attachments := some (.arr q.attachments) } := by
    intro m hm
    cases hmes : live.messages with
    | nil => rw [hmes] at hm; cases hm
    | cons first rest =>
      rw [hmes, modify_zero_cons] at hm
      rcases mem_cons.mp hm with rfl | hm
      · exact ⟨first, mem_cons_self, .inr rfl⟩
      · exact ⟨m, mem_cons_of_mem _ hm, .inl rfl⟩
  rw [Turn.attach]
  refine ⟨hnam.id, hnam.startedAt, hnam.finishedAt, ?_, ?_, hnam.tools⟩
  · intro m hm
    obtain ⟨old, hold, rfl | rfl⟩ := hids m hm
    · exact hnam.messages m hold
    obtain ⟨hrole, htext, htime, haut, hmod, _, hpar⟩ := hnam.messages old hold
    refine ⟨hrole, htext, htime, haut, hmod, ?_, hpar⟩
    intro j hj
    cases hj
    exact (finite_arr _).mpr hatt
  rw [length_modify]
  refine ⟨hnam.few.1, fun hnone => hnam.few.2 fun m hm hid => ?_⟩
  cases hmes : live.messages with
  | nil => rw [hmes] at hm; cases hm
  | cons first rest =>
    rw [hmes] at hm hnone
    rcases mem_cons.mp hm with rfl | hm
    · exact hnone _ mem_cons_self hid
    · exact hnone m (mem_cons_of_mem _ hm) hid

theorem Turn.Valid.close (h : t.Valid) (r : Tick) : (t.close r.time).Valid := by
  refine ⟨h.id, h.startedAt, ?_, h.messages, h.few, h.tools⟩
  intro f hf
  cases hf
  exact r.time_finite

/-- What the frame carries is what the client reads: envelopes with strings for the tool's name and
call, and no number that JSON has not. -/
structure Frame.Plain (codec : Codec) (f : Frame) : Prop where
  tool : f.type = .status → ∀ tool, codec.tool f.text = some tool → NamedTool (trimTool tool)
  model : f.model.truthy = true → f.model.finite = true
  attachments : f.type = .response → f.attachments.truthy = true → f.attachments.dumps.length ≤ 262144 →
    f.attachments.finite = true
  parts : f.type = .response → f.parts.truthy = true → f.parts.dumps.length ≤ 262144 → f.parts.finite = true

instance (codec : Codec) (f : Frame) : Decidable (f.Plain codec) :=
  decidable_of_iff ((f.type = .status → ∀ tool ∈ codec.tool f.text, NamedTool (trimTool tool)) ∧
    (f.model.truthy = true → f.model.finite = true) ∧
    (f.type = .response → f.attachments.truthy = true → f.attachments.dumps.length ≤ 262144 →
      f.attachments.finite = true) ∧
    (f.type = .response → f.parts.truthy = true → f.parts.dumps.length ≤ 262144 → f.parts.finite = true))
    ⟨fun ⟨tool, model, attachments, parts⟩ => ⟨tool, model, attachments, parts⟩,
      fun h => ⟨h.tool, h.model, h.attachments, h.parts⟩⟩

theorem boundedField_finite {value : Json} {old : Option Json}
    (hval : value.truthy = true → value.dumps.length ≤ 262144 → value.finite = true)
    (hold : ∀ j, old = some j → j.finite = true) : ∀ j, boundedField value old = some j → j.finite = true := by
  intro j hj
  rw [boundedField] at hj
  split at hj
  · next hkept =>
      rw [Bool.and_eq_true, decide_eq_true_eq] at hkept
      cases hj
      exact hval hkept.1 hkept.2
  · exact hold j hj

variable {f : Frame}

theorem Message.Valid.spoken (h : m.Valid) {codec : Codec} (hf : f.Plain codec)
    (value : String) : (spoken f value m).Valid := by
  refine ⟨h.role, ?_, h.timestamp, h.author, ?_, ?_, ?_⟩
  · simp only [Collaboration.spoken, prefixOf, String.toList_ofList, length_take]
    omega
  · intro j hj
    simp only [Collaboration.spoken] at hj
    split at hj
    · next htru =>
        cases hj
        exact hf.model htru
    · exact h.model j hj
  · simp only [Collaboration.spoken]
    split
    · next htype => exact boundedField_finite (hf.attachments htype) h.attachments
    · exact h.attachments
  · simp only [Collaboration.spoken]
    split
    · next htype => exact boundedField_finite (hf.parts htype) h.parts
    · exact h.parts

theorem Turn.Valid.say (h : t.Valid) (r : Tick) {codec : Codec} (hf : f.Plain codec) :
    (t.say r.toReading f).Valid := by
  obtain ⟨truncated, hsay⟩ := say_eq t r.toReading f
  rw [hsay]
  generalize (if f.type = .delta then t.answer ++ f.text else f.text) = value
  refine ⟨h.id, h.startedAt, h.finishedAt, ?_, ?_, h.tools⟩
  · intro m hm
    rw [onResponse] at hm
    split at hm
    · next i _ =>
        obtain ⟨j, hj⟩ := mem_iff_getElem?.mp hm
        rw [List.getElem?_modify, Option.map_eq_map, Option.map_eq_some_iff] at hj
        obtain ⟨old, hold, rfl⟩ := hj
        have hval := h.messages old (mem_of_getElem? hold)
        split
        · exact hval.spoken hf value
        · exact hval
    rcases mem_append.mp hm with hm | hm
    · exact h.messages m hm
    rw [mem_singleton.mp hm]
    refine Message.Valid.spoken ?_ hf value
    exact ⟨.inr rfl, (by simp), r.time_finite, (by simp), (by simp), (by simp), (by simp)⟩
  · dsimp only
    rw [onResponse]
    split
    · next i hi =>
        obtain ⟨m, hm, hfound⟩ := found_at hi
        rw [length_modify]
        have hid : m.id = "response" := by
          have hp := List.find?_some hfound
          simpa using hp
        refine ⟨h.few.1, fun hnone => absurd hid (hnone (spoken f value m) ?_)⟩
        · refine mem_iff_getElem?.mpr ⟨i, ?_⟩
          rw [List.getElem?_modify, hm]
          simp
    next hnone =>
      rw [List.findIdx?_eq_none_iff] at hnone
      have hone := h.few.2 fun m hm hid => by
        have hno := hnone m hm
        rw [decide_eq_false_iff_not] at hno
        exact hno hid
      rw [length_append, length_singleton]
      refine ⟨by omega, fun hno => ?_⟩
      exact absurd rfl (hno _ (mem_append_right _ mem_cons_self))

theorem Turn.Valid.withTools (h : t.Valid) {tools : List ToolCard} (hlen : tools.length ≤ 128)
    (htoo : ∀ c ∈ tools, c.Valid) (truncated : Option Bool) :
    Turn.Valid { t with tools := some tools, truncated } := by
  refine ⟨h.id, h.startedAt, h.finishedAt, h.messages, h.few, ?_⟩
  intro kept hkept
  cases hkept
  exact ⟨hlen, htoo⟩

theorem Turn.Valid.showTool (h : t.Valid) (codec : PyCodec) (r : Tick)
    (hnam : NamedTool tool) : (t.showTool codec.toCodec r.toReading tool).Valid := by
  have hcar : (t.tools.getD []).length ≤ 128 ∧ ∀ c ∈ t.tools.getD [], c.Valid := by
    cases htoo : t.tools with
    | none => exact ⟨Nat.zero_le _, forall_mem_nil _⟩
    | some tools => exact h.tools tools htoo
  rw [Turn.showTool]
  split
  · next i hi =>
      obtain ⟨c, hc, hfound⟩ := found_at hi
      have hval := hcar.2 c (mem_of_getElem? hc)
      have hsame := List.find?_some hfound
      obtain ⟨id, hid, _⟩ := hval.info.call
      obtain ⟨call, hcall, _⟩ := hnam.call
      have hcid : c.id = .str id := hval.id.trans hid
      have hequ : id = call := by
        rw [hcid, hcall, codec.same_str] at hsame
        exact of_decide_eq_true hsame
      have hcard : ToolCard.Valid { c with toolInfo := tool } :=
        ⟨hnam, by rw [hcall, ← hequ]; exact hcid, hval.timestamp⟩
      have hdrop := dropTools_suffix ((t.tools.getD []).modify i (fun c => { c with toolInfo := tool }))
      refine h.withTools ?_ ?_ _
      · refine hdrop.length_le.trans ?_
        rw [length_modify]
        exact hcar.1
      intro k hk
      obtain ⟨j, hj⟩ := mem_iff_getElem?.mp (hdrop.subset hk)
      rw [List.getElem?_modify, Option.map_eq_map, Option.map_eq_some_iff] at hj
      obtain ⟨old, hold, rfl⟩ := hj
      by_cases hij : i = j
      · subst hij
        rw [hc] at hold
        cases hold
        rw [if_pos rfl]
        exact hcard
      · rw [if_neg hij]
        exact hcar.2 old (mem_of_getElem? hold)
  · have hnew : ToolCard.Valid { id := tool.field "tool_call_id", toolInfo := tool, timestamp := r.time } :=
      ⟨hnam, rfl, r.time_finite⟩
    have hold : ((if (t.tools.getD []).length ≥ 128 then (t.tools.getD []).tail else t.tools.getD [])).length ≤ 127 ∧
        ∀ c ∈ (if (t.tools.getD []).length ≥ 128 then (t.tools.getD []).tail else t.tools.getD []), c.Valid := by
      split
      · rw [length_tail]
        exact ⟨by omega, fun c hc => hcar.2 c (mem_of_mem_tail hc)⟩
      · exact ⟨by omega, hcar.2⟩
    have hdrop := dropTools_suffix
      ((if (t.tools.getD []).length ≥ 128 then (t.tools.getD []).tail else t.tools.getD []) ++
        [{ id := tool.field "tool_call_id", toolInfo := tool, timestamp := r.time }])
    refine h.withTools ?_ ?_ _
    · refine hdrop.length_le.trans ?_
      rw [length_append, length_singleton]
      omega
    intro k hk
    rcases mem_append.mp (hdrop.subset hk) with hk | hk
    · exact hold.2 k hk
    · rw [mem_singleton.mp hk]
      exact hnew

theorem Turn.Valid.record (h : t.Valid) {codec : PyCodec} (r : Tick)
    (hf : f.Plain codec.toCodec) : (t.record codec.toCodec r.toReading f).Valid := by
  rw [Turn.record]
  cases htype : f.type with
  | delta | response => exact h.say r hf
  | status =>
    have hset : Turn.Valid { t with status := some (prefixOf 16384 f.text) } :=
      ⟨h.id, h.startedAt, h.finishedAt, h.messages, h.few, h.tools⟩
    cases htool : codec.tool f.text with
    | none => exact hset
    | some tool => exact hset.showTool codec r (hf.tool htype tool htool)
  | reasoning | error => exact ⟨h.id, h.startedAt, h.finishedAt, h.messages, h.few, h.tools⟩
  | turnComplete => exact h.close r
  | seed | other => exact h

end OpenAgent.Gateway.Collaboration
