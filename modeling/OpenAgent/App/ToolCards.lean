import OpenAgent.Lib.Json

namespace OpenAgent.App

open Py List

/-- `!!value`, of a value that may be `undefined`. -/
def truthy : Option Json → Bool
  | none => false
  | some (.arr _) | some (.obj _) => true
  | some j => j.truthy

/-- `a === b` for values that `JSON.parse` made: no two objects are the same. -/
def strictEq : Option Json → Option Json → Bool
  | some (.arr _), _ | some (.obj _), _ => false
  | a, b => decide (a = b)

abbrev ToolInfo := Dict String Json

/-- What the reducers of a chat call and hand on: parts of the language, and helpers whose values they
only show. -/
structure Host (A P : Type) where
  /-- `JSON.parse`; `none` where it throws. -/
  parse : String → Option Json
  /-- `String(value)`. -/
  string : Json → String
  /-- The title of `toolDisplay`, and its detail (`""` where there is none). -/
  display : ToolInfo → String × String
  normalizedAttachments : Json → Option A
  normalizeMessageContent : Json → Json → String → Option A → Option P

inductive ToolPhase
  | running
  | completed
  | stopped
  | error
deriving DecidableEq

/-- `TOOL_PHASE_PRECEDENCE`. -/
def ToolPhase.precedence : ToolPhase → Nat
  | .running => 0
  | .completed => 1
  | .stopped => 2
  | .error => 3

inductive Role
  | user
  | assistant
  | tool
  | compaction
deriving DecidableEq

structure CompactionInfo where
  phase : String
  foldedRuns : Option Int := none
  keptRuns : Option Int := none
  summaryChars : Option Int := none
  tokensBefore : Option Int := none
  tokensAfter : Option Int := none
deriving DecidableEq

/-- A row. `streaming` is only read for its truth. `failed`, which no step reads, tells the row of an error from an
answer that reads the same. -/
structure Message (A P : Type) where
  role : Role
  text : String
  attachments : Option A := none
  parts : Option P := none
  toolInfo : Option ToolInfo := none
  compactionInfo : Option CompactionInfo := none
  model : Option String := none
  streaming : Bool := false
  failed : Bool := false

open Message

variable {A P : Type}

/-- `parsed && parsed.tool_name`, of the text of a status. -/
def Host.toolOf (host : Host A P) (text : String) : Option ToolInfo :=
  match host.parse text with
  | some (.obj entries) =>
    some (entries.foldl (fun d e => d.set e.1 e.2) Dict.empty) |>.filter fun t => truthy (t.get? "tool_name")
  | _ => none

def Host.toolPhase (host : Host A P) (t : ToolInfo) : ToolPhase :=
  let status := (if truthy (t.get? "status") then ((t.get? "status").map host.string).getD "" else "").toLower
  if status = "cancelled" ∨ status = "interrupted" then .stopped
  else if truthy (t.get? "tool_call_error") then .error
  else if ((t.get? "result").getD .null) ≠ .null then .completed
  else .running

/-- The value of a key as `existing` has it, or the key gone. -/
def restoreKey (existing merged : ToolInfo) (key : String) : ToolInfo :=
  match existing.get? key with
  | some value => merged.set key value
  | none => merged.erase key

def Host.mergeToolLifecycle (host : Host A P) (existing incoming : ToolInfo) : ToolInfo :=
  let merged := existing.update incoming
  if (host.toolPhase incoming).precedence ≥ (host.toolPhase existing).precedence then merged
  else ["status", "tool_call_error", "result"].foldl (restoreKey existing) merged

/-- Changes the last element that a test holds of; `none` where there is none. -/
def patchLast {α : Type} (p : α → Bool) (f : α → α) : List α → Option (List α)
  | [] => none
  | a :: l =>
    match patchLast p f l with
    | some l' => some (a :: l')
    | none => if p a then some (f a :: l) else none

namespace Message

/-- `message.toolInfo?.[key]`. -/
def toolField (m : Message A P) (key : String) : Option Json := m.toolInfo.bind (·.get? key)

/-- `toolInfo?.tool_call_id === id`. -/
def named (id : Option Json) (m : Message A P) : Bool := strictEq (m.toolField "tool_call_id") id

def merge (host : Host A P) (toolInfo : ToolInfo) (m : Message A P) : Message A P :=
  { m with toolInfo := m.toolInfo.map fun existing => host.mergeToolLifecycle existing toolInfo }

end Message

/-- `matches(existing)`. -/
def sameInvocation (toolInfo existing : ToolInfo) : Bool :=
  let callId := toolInfo.get? "tool_call_id"
  let childSid := toolInfo.get? "child_session_id"
  if truthy callId && truthy (existing.get? "tool_call_id") then strictEq (existing.get? "tool_call_id") callId
  else if truthy childSid && truthy (existing.get? "child_session_id") then
    strictEq (existing.get? "child_session_id") childSid
  else strictEq (existing.get? "tool_name") (toolInfo.get? "tool_name")

/-- The rows of the current turn when the frame finds the card of its invocation; `none` where it is
the first of it. -/
def Host.patchTool (host : Host A P) (toolInfo : ToolInfo) (turn : List (Message A P)) : Option (List (Message A P)) :=
  let callId := toolInfo.get? "tool_call_id"
  let childSid := toolInfo.get? "child_session_id"
  match if truthy callId then turn.findIdx? (Message.named callId) else none with
  | some keep =>
    -- duplicates that an earlier client left are folded into the first of them
    let merged := (turn.drop (keep + 1)).foldl (fun t m =>
      if m.named callId then (m.toolInfo.map (host.mergeToolLifecycle t)).getD t else t)
      ((turn[keep]?.bind Message.toolInfo).getD Dict.empty)
    some ((turn.take keep) ++ (turn[keep]?.toList.map fun m =>
      { m with toolInfo := some (host.mergeToolLifecycle merged toolInfo) }) ++
      (turn.drop (keep + 1)).filter fun m => !m.named callId)
  | none =>
    match if !truthy callId && truthy childSid then
        patchLast (fun m => strictEq (m.toolField "child_session_id") childSid) (Message.merge host toolInfo) turn
      else none with
    | some rows => some rows
    | none =>
      if host.toolPhase toolInfo = .running then none
      else patchLast (fun m => m.toolInfo.any fun existing =>
        sameInvocation toolInfo existing && host.toolPhase existing = .running) (Message.merge host toolInfo) turn

def Host.toolCard (host : Host A P) (toolInfo : ToolInfo) : Message A P :=
  let name := ((toolInfo.get? "tool_name").map host.string).getD "undefined"
  let (title, detail) := host.display toolInfo
  { role := .tool
    text := match host.toolPhase toolInfo with
      | .running => if detail = "" then title else title ++ " " ++ detail
      | .error => "✗ " ++ name ++ " failed"
      | .stopped => name ++ " stopped"
      | .completed => "✓ " ++ name ++ " done"
    toolInfo := some toolInfo }

def splitTurn : List (Message A P) → List (Message A P) × List (Message A P)
  | [] => ([], [])
  | m :: ms =>
    let (before, turn) := splitTurn ms
    if before ≠ [] ∨ m.role = .user then (m :: before, turn) else ([], m :: turn)

def Host.appendOrPatchTool (host : Host A P) (messages : List (Message A P)) (toolInfo : ToolInfo) :
    List (Message A P) :=
  let (before, turn) := splitTurn messages
  match host.patchTool toolInfo turn with
  | some turn => before ++ turn
  | none => messages ++ [host.toolCard toolInfo]

theorem eq_of_strictEq {a b : Option Json} (h : strictEq a b = true) : a = b := by
  unfold strictEq at h
  split at h
  · cases h
  · cases h
  · exact of_decide_eq_true h

section patchLast

variable {α : Type} {p : α → Bool} {f : α → α}

theorem patchLast_eq_some {l l' : List α} (h : patchLast p f l = some l') :
    ∃ pre a post, l = pre ++ a :: post ∧ p a = true ∧ l' = pre ++ f a :: post := by
  induction l generalizing l' with
  | nil => cases h
  | cons a l ih =>
    rw [patchLast] at h
    split at h
    · next rows hrows =>
        cases h
        obtain ⟨pre, b, post, rfl, hb, rfl⟩ := ih hrows
        exact ⟨a :: pre, b, post, rfl, hb, rfl⟩
    split at h
    · next ha =>
        cases h
        exact ⟨[], a, l, rfl, ha, rfl⟩
    · cases h

theorem patchLast_concat {a : α} (h : p a = false) (l : List α) :
    patchLast p f (l ++ [a]) = (patchLast p f l).map (· ++ [a]) := by
  induction l with
  | nil => simp [patchLast, h]
  | cons b l ih =>
    rw [cons_append, patchLast, patchLast, ih]
    cases patchLast p f l with
    | some rows => rfl
    | none =>
      dsimp only [Option.map_none]
      split <;> rfl

theorem patchLast_eq_none {l : List α} : patchLast p f l = none ↔ ∀ a ∈ l, p a = false := by
  induction l with
  | nil => simp [patchLast]
  | cons a l ih =>
    rw [patchLast, forall_mem_cons]
    split
    · next rows hrows =>
        rw [← ih, hrows]
        simp
    next hrows =>
      rw [← ih, hrows]
      cases p a <;> simp

end patchLast

variable (host : Host A P)

theorem callId_merge (existing incoming : ToolInfo) : (host.mergeToolLifecycle existing incoming).get? "tool_call_id" =
      (incoming.get? "tool_call_id").or (existing.get? "tool_call_id") := by
  have hres : ∀ (t : ToolInfo) (key : String), "tool_call_id" ≠ key →
      (restoreKey existing t key).get? "tool_call_id" = t.get? "tool_call_id" := by
    intro t key hne
    rw [restoreKey]
    split
    · exact Dict.get?_set_of_ne _ _ hne
    · exact Dict.get?_erase_of_ne _ hne
  rw [Host.mergeToolLifecycle]
  split
  · exact Dict.get?_update _ _ _
  simp only [foldl_cons, foldl_nil]
  rw [hres _ _ (by decide), hres _ _ (by decide), hres _ _ (by decide)]
  exact Dict.get?_update _ _ _

def Distinct (turn : List (Message A P)) : Prop := ∀ id, truthy id = true → turn.countP (Message.named id) ≤ 1

def Message.bare (m : Message A P) : Message A P := { m with toolInfo := none }

/-- One card has another tool in it, and none of another row's invocation. -/
structure Patched (turn rows : List (Message A P)) : Prop where
  bare : rows.map Message.bare = turn.map Message.bare
  distinct : Distinct rows
  cards : rows.map (fun m => m.toolInfo.isSome) = turn.map (fun m => m.toolInfo.isSome)

variable {m : Message A P}

theorem patched_of_split {pre post : List (Message A P)} {merged : ToolInfo}
    (hd : Distinct (pre ++ m :: post)) (hm : m.toolInfo.isSome = true)
    (hid : ∀ id, truthy id = true → strictEq (merged.get? "tool_call_id") id = true →
      m.named id = true ∨ (pre ++ m :: post).countP (Message.named id) = 0) :
    Patched (pre ++ m :: post) (pre ++ { m with toolInfo := some merged } :: post) where
  bare := by simp [bare]
  distinct := by
    intro id hid'
    have hone := hd id hid'
    have hnam := hid id hid'
    simp only [countP_append, countP_cons] at hone hnam ⊢
    have hfie : named id { m with toolInfo := some merged } = strictEq (merged.get? "tool_call_id") id := rfl
    rw [hfie]
    by_cases hn : strictEq (merged.get? "tool_call_id") id = true
    · rw [if_pos hn]
      rcases hnam hn with h | h
      · rw [if_pos h] at hone
        omega
      · omega
    · rw [if_neg hn]
      split at hone <;> omega
  cards := by simp [hm]

variable {id : Option Json}

theorem named_of_none (h : m.toolInfo = none) (hid : truthy id = true) : m.named id = false := by
  rw [named, toolField, h, Bool.eq_false_iff]
  intro he
  rw [← eq_of_strictEq he] at hid
  cases hid

variable {t : ToolInfo}

theorem callId_merge_of_not {t existing : ToolInfo} (ht : truthy (t.get? "tool_call_id") = false) {id : Option Json}
    (hid : truthy id = true)
    (h : strictEq ((host.mergeToolLifecycle existing t).get? "tool_call_id") id = true) :
    strictEq (existing.get? "tool_call_id") id = true := by
  rw [callId_merge] at h
  cases hcall : t.get? "tool_call_id" with
  | none =>
    rw [hcall, Option.none_or] at h
    exact h
  | some j =>
    rw [hcall, Option.some_or] at h
    rw [← eq_of_strictEq h, ← hcall, ht] at hid
    cases hid

theorem callId_merge_of_truthy {t existing : ToolInfo} (ht : truthy (t.get? "tool_call_id") = true) :
    (host.mergeToolLifecycle existing t).get? "tool_call_id" = t.get? "tool_call_id" := by
  rw [callId_merge]
  cases hcall : t.get? "tool_call_id" with
  | none => rw [hcall] at ht; cases ht
  | some j => rfl

variable {turn : List (Message A P)}

theorem countP_of_findIdx
    (h : turn.findIdx? (Message.named id) = none) : turn.countP (Message.named id) = 0 := by
  rw [List.findIdx?_eq_none_iff] at h
  exact countP_eq_zero.mpr (fun m hm => by rw [h m hm]; decide)

theorem patched_of_patchLast {rows : List (Message A P)} (hd : Distinct turn)
    {test : Message A P → Bool} (htest : ∀ m, test m = true → m.toolInfo.isSome = true)
    (hfre : truthy (t.get? "tool_call_id") = true → turn.countP (Message.named (t.get? "tool_call_id")) = 0)
    (h : patchLast test (Message.merge host t) turn = some rows) : Patched turn rows := by
  obtain ⟨pre, m, post, rfl, hm, rfl⟩ := patchLast_eq_some h
  have hcard := htest m hm
  obtain ⟨existing, hexi⟩ := Option.isSome_iff_exists.mp hcard
  rw [Message.merge, hexi]
  refine patched_of_split hd hcard (fun id hid hsame => ?_)
  cases hcall : truthy (t.get? "tool_call_id") with
  | true =>
    rw [callId_merge_of_truthy host hcall] at hsame
    rw [← eq_of_strictEq hsame]
    exact .inr (hfre hcall)
  | false =>
    left
    rw [named, toolField, hexi]
    exact callId_merge_of_not host hcall hid hsame

/-- A frame that names its call finds the one card of it. -/
theorem patchTool_named {keep : Nat} (hcall : truthy (t.get? "tool_call_id") = true)
    (hone : turn.countP (Message.named (t.get? "tool_call_id")) ≤ 1)
    (hkeep : turn.findIdx? (Message.named (t.get? "tool_call_id")) = some keep) :
    ∃ pre m post existing, turn = pre ++ m :: post ∧ m.toolInfo = some existing ∧
      m.named (t.get? "tool_call_id") = true ∧ host.patchTool t turn =
        some (pre ++ { m with toolInfo := some (host.mergeToolLifecycle existing t) } :: post) := by
  obtain ⟨hlt, hnam, -⟩ := List.findIdx?_eq_some_iff_getElem.mp hkeep
  have hcut : turn = turn.take keep ++ turn[keep] :: turn.drop (keep + 1) := by
    rw [← drop_eq_getElem_cons hlt, take_append_drop]
  obtain ⟨existing, hexi⟩ : ∃ existing, turn[keep].toolInfo = some existing := by
    cases htool : turn[keep].toolInfo with
    | some existing => exact ⟨existing, rfl⟩
    | none =>
      rw [named_of_none htool hcall] at hnam
      cases hnam
  -- the rows behind the first of its name have another, so that none is folded away
  have hrest : ∀ m ∈ turn.drop (keep + 1), m.named (t.get? "tool_call_id") = false := by
    rw [hcut, countP_append, countP_cons, if_pos hnam] at hone
    intro m hm
    have hzero : (turn.drop (keep + 1)).countP (named (t.get? "tool_call_id")) = 0 := by omega
    rw [Bool.eq_false_iff]
    exact countP_eq_zero.mp hzero m hm
  refine ⟨_, _, _, existing, hcut, hexi, hnam, ?_⟩
  rw [Host.patchTool]
  dsimp only
  rw [if_pos hcall, hkeep]
  dsimp only
  have hfold : ∀ known, (turn.drop (keep + 1)).foldl (fun known m =>
      if m.named (t.get? "tool_call_id") then (m.toolInfo.map (host.mergeToolLifecycle known)).getD known else known)
        known = known := by
    intro known
    rw [foldl_ext _ (fun known _ => known) _ fun known m hm => by rw [hrest m hm]; rfl, foldl_fixed]
  rw [List.getElem?_eq_getElem hlt, filter_eq_self.mpr fun m hm => by rw [hrest m hm]; rfl, hfold]
  simp [hexi]

theorem patched_patchTool {rows : List (Message A P)} (hd : Distinct turn)
    (h : host.patchTool t turn = some rows) : Patched turn rows := by
  cases hkeep : if truthy (t.get? "tool_call_id") then turn.findIdx? (named (t.get? "tool_call_id")) else none with
  | some keep =>
    split at hkeep
    · next hcall =>
        obtain ⟨pre, m, post, existing, rfl, hexi, hnam, hpat⟩ := patchTool_named host hcall (hd _ hcall) hkeep
        cases hpat.symm.trans h
        refine patched_of_split hd (by rw [hexi]; rfl) fun id _ hsame => .inl ?_
        rw [callId_merge_of_truthy host hcall] at hsame
        rw [← eq_of_strictEq hsame]
        exact hnam
    · cases hkeep
  | none =>
    rw [Host.patchTool] at h
    dsimp only at h
    rw [hkeep] at h
    dsimp only at h
    have hfre : truthy (t.get? "tool_call_id") = true → turn.countP (named (t.get? "tool_call_id")) = 0 := by
      intro hcall
      rw [if_pos hcall] at hkeep
      exact countP_of_findIdx hkeep
    split at h
    · next patched hchi =>
        cases h
        split at hchi
        · next hsid =>
            refine patched_of_patchLast host hd (fun m hm => ?_) hfre hchi
            rw [Bool.and_eq_true] at hsid
            cases htool : m.toolInfo with
            | some _ => rfl
            | none =>
              rw [toolField, htool] at hm
              have hsame := eq_of_strictEq hm
              rw [← hsame] at hsid
              cases hsid.2
        · cases hchi
    split at h
    · cases h
    refine patched_of_patchLast host hd (fun m hm => ?_) hfre h
    cases htool : m.toolInfo with
    | some _ => rfl
    | none => rw [htool] at hm; cases hm

theorem patchTool_concat (t : ToolInfo) (turn : List (Message A P)) (hm : m.toolInfo = none) :
    host.patchTool t (turn ++ [m]) = (host.patchTool t turn).map (· ++ [m]) := by
  rw [Host.patchTool, Host.patchTool]
  have hfind : (if truthy (t.get? "tool_call_id") then (turn ++ [m]).findIdx? (named (t.get? "tool_call_id"))
      else none) =
      if truthy (t.get? "tool_call_id") then turn.findIdx? (named (t.get? "tool_call_id")) else none := by
    split
    · next hcall =>
        rw [List.findIdx?_append, List.findIdx?_singleton, named_of_none hm hcall]
        simp
    · rfl
  rw [hfind]
  split
  · next keep hkeep =>
      split at hkeep
      · next hcall =>
          obtain ⟨hlt, -, -⟩ := List.findIdx?_eq_some_iff_getElem.mp hkeep
          rw [take_append_of_le_length (by omega), drop_append_of_le_length (by omega),
            List.getElem?_append_left hlt, filter_append, foldl_append]
          simp [named_of_none hm hcall]
      · cases hkeep
  have hchi : (if !truthy (t.get? "tool_call_id") && truthy (t.get? "child_session_id") then
        patchLast (fun m => strictEq (m.toolField "child_session_id") (t.get? "child_session_id"))
          (merge host t) (turn ++ [m]) else none) =
      (if !truthy (t.get? "tool_call_id") && truthy (t.get? "child_session_id") then
        patchLast (fun m => strictEq (m.toolField "child_session_id") (t.get? "child_session_id"))
          (merge host t) turn else none).map (· ++ [m]) := by
    split
    · next hsid =>
        refine patchLast_concat ?_ turn
        rw [Bool.and_eq_true] at hsid
        rw [Bool.eq_false_iff, toolField, hm]
        intro he
        rw [← eq_of_strictEq he] at hsid
        cases hsid.2
    · rfl
  rw [hchi]
  cases (if !truthy (t.get? "tool_call_id") && truthy (t.get? "child_session_id") then
      patchLast (fun m => strictEq (m.toolField "child_session_id") (t.get? "child_session_id"))
        (merge host t) turn else none) with
  | some rows => rfl
  | none =>
    dsimp only [Option.map_none]
    split
    · rfl
    · exact patchLast_concat (by rw [hm]; rfl) turn

theorem splitTurn_of_not_user (h : ∀ m ∈ turn, m.role ≠ .user) : splitTurn turn = ([], turn) := by
  induction turn with
  | nil => rfl
  | cons m turn ih =>
    obtain ⟨hm, hturn⟩ := forall_mem_cons.mp h
    rw [splitTurn, ih hturn]
    dsimp only
    rw [if_neg (by simp [hm])]

theorem splitTurn_append {prior : List (Message A P)} (hpri : prior.getLast?.map Message.role = some .user)
    (h : ∀ m ∈ turn, m.role ≠ .user) : splitTurn (prior ++ turn) = (prior, turn) := by
  induction prior with
  | nil => cases hpri
  | cons m prior ih =>
    rw [cons_append, splitTurn]
    cases prior with
    | nil =>
      rw [nil_append, splitTurn_of_not_user h]
      dsimp only
      rw [if_pos (.inr (by simpa using hpri))]
    | cons u prior =>
      rw [ih hpri]
      dsimp only
      rw [if_pos (.inl (cons_ne_nil _ _))]

theorem appendOrPatchTool_eq {prior : List (Message A P)}
    (hpri : prior.getLast?.map Message.role = some .user) (h : ∀ m ∈ turn, m.role ≠ .user) (t : ToolInfo) :
    host.appendOrPatchTool (prior ++ turn) t = prior ++ (host.patchTool t turn).getD (turn ++ [host.toolCard t]) := by
  rw [Host.appendOrPatchTool, splitTurn_append hpri h]
  dsimp only
  cases host.patchTool t turn with
  | some rows => rfl
  | none => exact append_assoc _ _ _

end OpenAgent.App
