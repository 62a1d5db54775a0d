import OpenAgent.Lib.JsonDumps

namespace OpenAgent.Gateway.Collaboration

open Py List

/-- What of Python's values the projection leans on and never looks into:
`json.loads`, `none` where it raises `ValueError`, and `==`. -/
structure Codec where
  loads : String → Option Json
  same : Json → Json → Bool

/-- What one call reads from its surroundings: the clock, in milliseconds and as the float that is
shown, and a fresh `uuid4().hex`. -/
structure Reading where
  now : Int
  time : PyFloat
  hex : String

structure Message where
  id : String
  role : String
  text : String
  timestamp : PyFloat
  author : Option Json := none
  model : Option Json := none
  attachments : Option Json := none
  parts : Option Json := none

structure ToolCard where
  id : Json
  toolInfo : Json
  timestamp : PyFloat

structure Turn where
  id : String
  runId : Option String
  active : Bool
  startedAt : PyFloat
  messages : List Message
  finishedAt : Option PyFloat := none
  truncated : Option Bool := none
  status : Option String := none
  tools : Option (List ToolCard) := none
  reasoning : Option Bool := none
  error : Option String := none
  providerRunId : Option String := none

structure Session where
  turns : List Turn
  revision : Nat
  updatedAt : Option Int := none

inductive FrameType
  | delta
  | response
  | status
  | reasoning
  | turnComplete
  | error
  | seed
  | other
deriving DecidableEq

/-- The fields of a published frame that the projection reads; `null` stands for a missing one. -/
structure Frame where
  sessionId : Option String
  type : FrameType
  text : String := ""
  author : Json := .null
  model : Json := .null
  attachments : Json := .null
  parts : Json := .null
  active : Json := .null

/-- `state["turns"][-1]["active"]`. -/
def Session.lastActive (s : Session) : Bool := (s.turns.getLast?.map Turn.active).getD false

def Session.expired (s : Session) (now : Int) : Bool :=
  !s.lastActive && (s.updatedAt.map (fun t => decide (now - t > 60000))).getD false

def Turn.close (t : Turn) (time : PyFloat) : Turn := { t with active := false, finishedAt := some time }

def modifyLast (f : Turn → Turn) (turns : List Turn) : List Turn :=
  match turns.getLast? with
  | some t => turns.dropLast ++ [f t]
  | none => []

def ToolCard.json (c : ToolCard) : Json :=
  .obj [("id", c.id), ("toolInfo", c.toolInfo), ("timestamp", .float c.timestamp)]

def toolsLength (tools : List ToolCard) : Nat := (Json.arr (tools.map ToolCard.json)).dumps.length

/-- `while len(json.dumps(tools)) > 131072`: whether a card is dropped, and those that stay. -/
def dropTools : List ToolCard → Bool × List ToolCard
  | [] => (false, [])
  | c :: cs => if toolsLength (c :: cs) > 131072 then (true, (dropTools cs).2) else (false, c :: cs)

/-- The first message with the id `response`, or a new one at the end, changed. -/
def onResponse (messages : List Message) (r : Reading) (change : Message → Message) : List Message :=
  match messages.findIdx? (fun m => m.id = "response") with
  | some i => messages.modify i change
  | none => messages ++ [change { id := "response", role := "assistant", text := "", timestamp := r.time }]

/-- `if frame.get(field) and len(json.dumps(frame[field])) <= 262144`. -/
def boundedField (value : Json) (old : Option Json) : Option Json :=
  if value.truthy && value.dumps.length ≤ 262144 then some value else old

def Codec.tool (codec : Codec) (text : String) : Option Json :=
  (codec.loads text).filter (fun tool =>
    tool.isObj && (tool.field "tool_name").truthy && (tool.field "tool_call_id").truthy)

def trimTool (tool : Json) : Json :=
  let tool := match tool.field "result" with
    | .null => tool
    | .str result => Json.setPath ["result"] (.str (prefixOf 12000 result)) tool
    | result => Json.setPath ["result"] (.str (prefixOf 12000 result.dumps)) tool
  if (tool.field "tool_args").dumps.length > 12000 then
    Json.setPath ["tool_args"] (.obj [("truncated", .bool true)]) tool
  else tool

namespace Turn

def say (t : Turn) (r : Reading) (f : Frame) : Turn :=
  let before := ((t.messages.find? (fun m => m.id = "response")).map Message.text).getD ""
  let value := if f.type = .delta then before ++ f.text else f.text
  { t with
    truncated := some (value.length > 131072 || t.truncated.getD false)
    messages := onResponse t.messages r (fun m =>
      { m with
        text := prefixOf 131072 value
        model := if f.model.truthy then some f.model else m.model
        attachments := if f.type = .response then boundedField f.attachments m.attachments else m.attachments
        parts := if f.type = .response then boundedField f.parts m.parts else m.parts }) }

def showTool (t : Turn) (codec : Codec) (r : Reading) (tool : Json) : Turn :=
  let tools := t.tools.getD []
  let full := tools.length ≥ 128
  match tools.findIdx? (fun c => codec.same c.id (tool.field "tool_call_id")) with
  | some i =>
    let kept := dropTools (tools.modify i (fun c => { c with toolInfo := tool }))
    { t with
      tools := some kept.2
      truncated := if kept.1 then some true else t.truncated }
  | none =>
    let kept := dropTools ((if full then tools.tail else tools) ++
      [{ id := tool.field "tool_call_id", toolInfo := tool, timestamp := r.time }])
    { t with
      tools := some kept.2
      truncated := if full || kept.1 then some true else t.truncated }

def record (t : Turn) (codec : Codec) (r : Reading) (f : Frame) : Turn :=
  match f.type with
  | .delta | .response => t.say r f
  | .status =>
    let t := { t with status := some (prefixOf 16384 f.text) }
    match codec.tool f.text with
    | some tool => t.showTool codec r (trimTool tool)
    | none => t
  | .reasoning => { t with reasoning := some (decide (f.active = .bool true)) }
  | .error => { t with error := some (prefixOf 16384 f.text) }
  | .turnComplete => t.close r.time
  | .seed | .other => t

/-- The turn that `begin` appends. -/
def opened (r : Reading) (text : String) (author : Json) (runId : Option String) : Turn :=
  { id := r.hex
    runId
    active := true
    startedAt := r.time
    messages := if text = "" then [] else
      [{ id := "input", role := "user", text := prefixOf 131072 text, timestamp := r.time
         author := some (author.orElse (.obj [("kind", .str "agent"), ("display", .str "Agent")])) }]
    truncated := if text.length > 131072 then some true else none }

end Turn

/-- The sessions of `SharedAgentHub` with its counter. -/
structure Projection where
  sessions : Dict String Session
  revision : Nat

open Projection

variable {p : Projection}

namespace Projection

def empty : Projection := ⟨Dict.empty, 0⟩

def pruneOne (now : Int) (p : Projection) (entry : String × Session) : Projection :=
  if entry.2.expired now then ⟨p.sessions.erase entry.1, p.revision + 1⟩ else p

def prune (p : Projection) (now : Int) : Projection := p.sessions.entries.foldl (pruneOne now) p

/-- `changed`, with the state stored under its session. -/
def changed (p : Projection) (sid : String) (s : Session) (now : Int) : Projection :=
  ⟨p.sessions.set sid { s with revision := p.revision + 1, updatedAt := some now }, p.revision + 1⟩

/-- The turns after `begin`: the last one is over, at most seven stay, the new one follows. -/
def turnsWith (turns : List Turn) (r : Reading) (turn : Turn) : List Turn :=
  let turns := modifyLast (fun t => if t.active then t.close r.time else t) turns
  turns.drop (turns.length - 7) ++ [turn]

def begin (p : Projection) (r : Reading) (sid text : String) (author : Json) (runId : Option String) :
    Bool × Projection :=
  let p := p.prune r.now
  if (p.sessions.get? sid).isNone && p.sessions.size ≥ 128 then (false, p)
  else
    let s := (p.sessions.get? sid).getD { turns := [], revision := 0 }
    (true, p.changed sid { s with turns := turnsWith s.turns r (Turn.opened r text author runId) } r.now)

def record (p : Projection) (codec : Codec) (r : Reading) (sid : String) (f : Frame) : Projection :=
  match p.sessions.get? sid with
  | none => p
  | some s => p.changed sid { s with turns := modifyLast (fun t => t.record codec r f) s.turns } r.now

def publish (p : Projection) (codec : Codec) (r : Reading) (f : Frame) : Projection :=
  match f.sessionId, f.type with
  | none, _ | some "", _ | _, .other => p
  | some sid, .seed => (p.begin r sid f.text f.author none).2
  | some sid, type =>
    if ((p.sessions.get? sid).map Session.lastActive).getD false then p.record codec r sid f
    else if type = .turnComplete ∨ type = .response ∨ type = .error ∨ type = .reasoning then p
    else (p.begin r sid "" .null none).2.record codec r sid f

/-- The revision never falls, and rises wherever a session changes or goes; what a changed session
is stamped with is above every revision there was. -/
structure Advances (p q : Projection) : Prop where
  revision : p.revision ≤ q.revision
  changed : ∀ sid, q.sessions.get? sid = p.sessions.get? sid ∨
    (p.revision < q.revision ∧ ∀ s, q.sessions.get? sid = some s → p.revision < s.revision)

theorem Advances.refl (p : Projection) : Advances p p := ⟨le_rfl, fun _ => .inl rfl⟩

theorem Advances.trans {q v : Projection} (h : Advances p q) (k : Advances q v) : Advances p v where
  revision := h.revision.trans k.revision
  changed := by
    intro sid
    rcases k.changed sid with hk | ⟨hlt, hs⟩
    · rcases h.changed sid with hh | ⟨hlt, hs⟩
      · exact .inl (hk.trans hh)
      · exact .inr ⟨hlt.trans_le k.revision, fun s hg => hs s (hk ▸ hg)⟩
    · exact .inr ⟨h.revision.trans_lt hlt, fun s hg => h.revision.trans_lt (hs s hg)⟩

theorem advances_pruneOne (now : Int) (p : Projection) (e : String × Session) : Advances p (p.pruneOne now e) := by
  rw [pruneOne]
  split
  · refine ⟨Nat.le_succ _, fun sid => ?_⟩
    by_cases hs : sid = e.1
    · refine .inr ⟨Nat.lt_succ_self _, fun s hg => ?_⟩
      rw [Dict.get?_erase, if_pos hs] at hg
      cases hg
    · exact .inl (Dict.get?_erase_of_ne _ hs)
  · exact Advances.refl p

theorem advances_prune (p : Projection) (now : Int) : Advances p (p.prune now) := by
  have hfold : ∀ (es : List (String × Session)) (q : Projection), Advances q (es.foldl (pruneOne now) q) := by
    intro es
    induction es with
    | nil => exact Advances.refl
    | cons e es ih => exact fun q => (advances_pruneOne now q e).trans (ih _)
  exact hfold _ _

theorem advances_changed (p : Projection) (sid : String) (s : Session) (now : Int) :
    Advances p (p.changed sid s now) where
  revision := Nat.le_succ _
  changed := by
    intro j
    by_cases hj : j = sid
    · refine .inr ⟨Nat.lt_succ_self _, fun t ht => ?_⟩
      rw [changed, Dict.get?_set, if_pos hj] at ht
      cases ht
      exact Nat.lt_succ_self _
    · exact .inl (Dict.get?_set_of_ne _ _ hj)

theorem advances_begin (p : Projection) (r : Reading) (sid text : String) (author : Json)
    (runId : Option String) : Advances p (p.begin r sid text author runId).2 := by
  rw [begin]
  dsimp only
  split
  · exact advances_prune p _
  · exact (advances_prune p _).trans (advances_changed _ _ _ _)

theorem advances_record (p : Projection) (codec : Codec) (r : Reading) (sid : String) (f : Frame) :
    Advances p (p.record codec r sid f) := by
  rw [record]
  split
  · exact Advances.refl p
  · exact advances_changed _ _ _ _

theorem advances_publish (p : Projection) (codec : Codec) (r : Reading) (f : Frame) :
    Advances p (p.publish codec r f) := by
  rw [publish]
  split
  · exact Advances.refl p
  · exact Advances.refl p
  · exact Advances.refl p
  · exact advances_begin _ _ _ _ _ _
  · split_ifs
    · exact advances_record _ _ _ _ _
    · exact Advances.refl p
    · exact (advances_begin _ _ _ _ _ _).trans (advances_record _ _ _ _ _)

end Projection

/-- Between one and eight turns, of which only the last may be active. -/
structure Session.Shaped (s : Session) : Prop where
  nonempty : 1 ≤ s.turns.length
  bounded : s.turns.length ≤ 8
  settled : ∀ t ∈ s.turns.dropLast, t.active = false

theorem length_modifyLast (f : Turn → Turn) (turns : List Turn) : (modifyLast f turns).length = turns.length := by
  rw [modifyLast]
  cases turns with
  | nil => rfl
  | cons t ts => simp [List.getLast?_cons]

theorem dropLast_modifyLast (f : Turn → Turn) (turns : List Turn) : (modifyLast f turns).dropLast = turns.dropLast := by
  rw [modifyLast]
  split
  · exact dropLast_concat
  · rename_i h
    rw [List.getLast?_eq_none_iff.mp h]

theorem Session.Shaped.modifyLast {s : Session} (h : s.Shaped) (f : Turn → Turn) :
    ({ s with turns := Collaboration.modifyLast f s.turns } : Session).Shaped where
  nonempty := by rw [length_modifyLast]; exact h.nonempty
  bounded := by rw [length_modifyLast]; exact h.bounded
  settled := by rw [dropLast_modifyLast]; exact h.settled

theorem shaped_turnsWith {turns : List Turn} (h : ∀ t ∈ turns.dropLast, t.active = false) (r : Reading)
    (turn : Turn) (revision : Nat) (updatedAt : Option Int) :
    (Session.mk (Projection.turnsWith turns r turn) revision updatedAt).Shaped := by
  have hover : ∀ t ∈ modifyLast (fun t => if t.active then t.close r.time else t) turns, t.active = false := by
    intro t ht
    rw [modifyLast] at ht
    split at ht
    · rcases mem_append.mp ht with ht | ht
      · exact h t ht
      · rw [mem_singleton.mp ht]
        split
        · rfl
        · rename_i hn
          simpa using hn
    · cases ht
  constructor
  · simp [turnsWith]
  · simp only [turnsWith, length_append, length_drop, length_singleton]
    omega
  intro t ht
  rw [turnsWith] at ht
  dsimp only at ht
  rw [dropLast_concat] at ht
  exact hover t (mem_of_mem_drop ht)

/-- What holds of the projection whatever was begun, published and pruned. -/
structure Projection.Sound (p : Projection) : Prop where
  shaped : ∀ sid s, p.sessions.get? sid = some s → s.Shaped
  stamped : ∀ sid s, p.sessions.get? sid = some s → s.revision ≤ p.revision

namespace Projection

theorem sound_empty : Sound empty := ⟨nofun, nofun⟩

theorem Sound.pruneOne (h : p.Sound) (now : Int) (e : String × Session) : (p.pruneOne now e).Sound := by
  rw [Projection.pruneOne]
  split
  · have hsub : ∀ sid s, (p.sessions.erase e.1).get? sid = some s → p.sessions.get? sid = some s := by
      intro sid s hg
      rw [Dict.get?_erase] at hg
      split at hg
      · cases hg
      · exact hg
    exact ⟨fun sid s hg => h.shaped sid s (hsub sid s hg),
      fun sid s hg => (h.stamped sid s (hsub sid s hg)).trans (Nat.le_succ _)⟩
  · exact h

theorem Sound.prune (h : p.Sound) (now : Int) : (p.prune now).Sound := by
  have hfold : ∀ (es : List (String × Session)) (q : Projection), q.Sound →
      (es.foldl (Projection.pruneOne now) q).Sound := by
    intro es
    induction es with
    | nil => exact fun q hq => hq
    | cons e es ih => exact fun q hq => ih _ (hq.pruneOne now e)
  exact hfold _ _ h

theorem Sound.changed (h : p.Sound) (sid : String) {s : Session} (now : Int)
    (hs : ∀ revision updatedAt, (Session.mk s.turns revision updatedAt).Shaped) :
    (p.changed sid s now).Sound := by
  constructor
  · intro j t hg
    rw [Projection.changed, Dict.get?_set] at hg
    split at hg
    · cases hg
      exact hs _ _
    · exact h.shaped j t hg
  intro j t hg
  rw [Projection.changed, Dict.get?_set] at hg
  split at hg
  · cases hg
    exact le_rfl
  · exact (h.stamped j t hg).trans (Nat.le_succ _)

theorem Sound.begin (h : p.Sound) (r : Reading) (sid text : String) (author : Json)
    (runId : Option String) : (p.begin r sid text author runId).2.Sound := by
  rw [Projection.begin]
  dsimp only
  split
  · exact h.prune _
  refine (h.prune r.now).changed sid _ (fun _ _ => shaped_turnsWith ?_ _ _ _ _)
  intro t ht
  cases hg : (p.prune r.now).sessions.get? sid with
  | none => rw [hg] at ht; cases ht
  | some s =>
    rw [hg] at ht
    exact ((h.prune r.now).shaped sid s hg).settled t ht

theorem Sound.record (h : p.Sound) (codec : Codec) (r : Reading) (sid : String)
    (f : Frame) : (p.record codec r sid f).Sound := by
  rw [Projection.record]
  split
  · exact h
  rename_i s hg
  refine h.changed sid _ (fun _ _ => ?_)
  obtain ⟨hne, hle, hset⟩ := (h.shaped sid s hg).modifyLast (fun t => t.record codec r f)
  exact ⟨hne, hle, hset⟩

theorem Sound.publish (h : p.Sound) (codec : Codec) (r : Reading) (f : Frame) : (p.publish codec r f).Sound := by
  rw [Projection.publish]
  split
  · exact h
  · exact h
  · exact h
  · exact h.begin _ _ _ _ _
  · split_ifs
    · exact h.record _ _ _ _
    · exact h
    · exact (h.begin _ _ _ _ _).record _ _ _ _

end Projection

end OpenAgent.Gateway.Collaboration
