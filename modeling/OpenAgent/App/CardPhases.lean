import OpenAgent.App.LiveReplay
import Mathlib.Data.Fintype.Option
import Mathlib.Data.List.Dedup

namespace OpenAgent.App

open Py List

variable {A P : Type}

def ToolPhase.stronger (a b : ToolPhase) : ToolPhase := if a.precedence ≤ b.precedence then b else a

theorem ToolPhase.running_stronger (b : ToolPhase) : ToolPhase.running.stronger b = b := if_pos (Nat.zero_le _)

/-- A frame of a call that has a name. -/
def Carried (t : ToolInfo) : Prop := ∃ id, id ≠ "" ∧ t.get? "tool_call_id" = some (.str id)

def callId (t : ToolInfo) : String :=
  match t.get? "tool_call_id" with
  | some (.str id) => id
  | _ => ""

def Message.card (m : Message A P) : Option String := m.toolInfo.map callId

/-- The calls in the order of their first frames. -/
def calls (fs : List ToolInfo) : List String := (fs.map callId).reverse.dedup.reverse

def Host.strongest (host : Host A P) (fs : List ToolInfo) (id : String) : ToolPhase :=
  ((fs.filter fun t => callId t = id).map host.toolPhase).foldl ToolPhase.stronger .running

/-- The cards of a turn are those of its frames. -/
structure Cards (host : Host A P) (fs : List ToolInfo) (turn : List (Message A P)) : Prop where
  answer : ∀ m ∈ turn, m.role ≠ .user
  carried : ∀ m ∈ turn, ∀ info ∈ m.toolInfo, Carried info
  order : turn.filterMap Message.card = calls fs
  phases : ∀ m ∈ turn, ∀ info ∈ m.toolInfo, host.toolPhase info = host.strongest fs (callId info)

section Phases

variable {host : Host A P} {t u : ToolInfo}

/-- The failure of a call whose card has stopped, where the frame itself says nothing of a status. -/
def Host.overlooked (host : Host A P) (before : ToolPhase) (t : ToolInfo) : Bool :=
  before = .stopped && host.toolPhase t = .error && (t.get? "status").isNone

def phaseBy (halted failed answered : Bool) : ToolPhase :=
  if halted then .stopped else if failed then .error else if answered then .completed else .running

theorem toLower_eq_iff (s t : String) : s.toLower = t ↔ s.toList.map Char.toLower = t.toList := by
  rw [← String.toList_inj, show s.toLower = s.map Char.toLower from rfl, String.toList_map]

theorem exists_phaseBy (host : Host A P) : ∃ halts : Option Json → Bool, halts none = false ∧ ∀ t : ToolInfo,
    host.toolPhase t = phaseBy (halts (t.get? "status")) (truthy (t.get? "tool_call_error"))
      (((t.get? "result").getD .null) ≠ .null) := by
  let word (s : Option Json) : String := (if truthy s then (s.map host.string).getD "" else "").toLower
  refine ⟨fun s => word s = "cancelled" ∨ word s = "interrupted", ?_, fun t => ?_⟩
  · simp [word, toLower_eq_iff, truthy]
  · simp only [Host.toolPhase, phaseBy, decide_eq_true_eq]
    rfl

theorem phaseBy_merge (halted failed answered : Bool) (halted' failed' answered' : Option Bool)
    (h : (phaseBy halted failed answered).precedence ≤
      (phaseBy (halted'.getD false) (failed'.getD false) (answered'.getD false)).precedence) :
    phaseBy (halted'.getD halted) (failed'.getD failed) (answered'.getD answered) =
      if phaseBy halted failed answered = .stopped &&
        phaseBy (halted'.getD false) (failed'.getD false) (answered'.getD false) = .error && halted'.isNone then .stopped
      else phaseBy (halted'.getD false) (failed'.getD false) (answered'.getD false) := by
  revert halted failed answered halted' failed' answered'
  decide

theorem restored (e t : ToolInfo) {key : String} (hkey : key ∈ ["status", "tool_call_error", "result"]) :
    (["status", "tool_call_error", "result"].foldl (restoreKey e) t).get? key = e.get? key := by
  have hone : ∀ (u : ToolInfo) (k : String), (restoreKey e u k).get? key = if key = k then e.get? key else u.get? key := by
    intro u k
    rw [restoreKey]
    split <;> by_cases h : key = k <;> simp_all [Dict.get?_set, Dict.get?_erase]
  simp only [mem_cons, not_mem_nil, or_false] at hkey
  simp only [foldl_cons, foldl_nil, hone]
  grind

theorem toolPhase_merge (e t : ToolInfo) : host.toolPhase (host.mergeToolLifecycle e t) =
    if host.overlooked (host.toolPhase e) t then .stopped else (host.toolPhase e).stronger (host.toolPhase t) := by
  obtain ⟨halts, hnone, hphase⟩ := exists_phaseBy host
  rw [Host.mergeToolLifecycle, ToolPhase.stronger, Host.overlooked]
  split
  next hle =>
    have hor : ∀ (f : Option Json → Bool), f none = false → ∀ x y : Option Json,
        f (x.or y) = (x.map (f ∘ some)).getD (f y) ∧ f x = (x.map (f ∘ some)).getD false := by
      intro f hf x y
      cases x with
      | none => exact ⟨rfl, hf⟩
      | some j => exact ⟨rfl, rfl⟩
    rw [hphase e, hphase t] at hle
    rw [hphase, hphase e, hphase t, Dict.get?_update, Dict.get?_update, Dict.get?_update]
    have hs := hor halts hnone (t.get? "status") (e.get? "status")
    have he := hor truthy rfl (t.get? "tool_call_error") (e.get? "tool_call_error")
    have hr := hor (fun x => decide (x.getD .null ≠ .null)) rfl (t.get? "result") (e.get? "result")
    rw [hs.2, he.2, hr.2] at hle
    rw [hs.1, he.1, hr.1, hs.2, he.2, hr.2]
    have hmerge := phaseBy_merge _ _ _ _ _ _ hle
    rw [Option.isNone_map] at hmerge
    exact hmerge
  next hlt =>
    rw [if_neg]
    · rw [hphase, restored _ _ (by simp), restored _ _ (by simp), restored _ _ (by simp), ← hphase]
    · intro ho
      simp only [Bool.and_eq_true, decide_eq_true_eq] at ho
      rw [ho.1.1, ho.1.2] at hlt
      exact hlt (by decide)

end Phases

section Frames

variable {host : Host A P} {fs : List ToolInfo} {t info : ToolInfo} {turn : List (Message A P)} {m : Message A P}

theorem Carried.get? (h : Carried t) : t.get? "tool_call_id" = some (.str (callId t)) ∧
    truthy (t.get? "tool_call_id") = true := by
  obtain ⟨id, hid, hget⟩ := h
  rw [callId, hget]
  exact ⟨rfl, by simpa [truthy, Json.truthy] using hid⟩

theorem named_iff (ht : Carried t) (hinfo : Carried info) :
    strictEq (info.get? "tool_call_id") (t.get? "tool_call_id") = true ↔ callId info = callId t := by
  rw [ht.get?.1, hinfo.get?.1]
  simp [strictEq]

theorem calls_concat (fs : List ToolInfo) (t : ToolInfo) :
    calls (fs ++ [t]) = if callId t ∈ calls fs then calls fs else calls fs ++ [callId t] := by
  rw [calls, calls, map_append, reverse_append]
  change (List.dedup (callId t :: (fs.map callId).reverse)).reverse = _
  by_cases h : callId t ∈ (fs.map callId).reverse
  · rw [dedup_cons_of_mem h, if_pos (mem_reverse.mpr (mem_dedup.mpr h))]
  · rw [dedup_cons_of_notMem h, if_neg fun hm => h (mem_dedup.mp (mem_reverse.mp hm)),
      reverse_cons]

theorem strongest_concat (fs : List ToolInfo) (t : ToolInfo) (id : String) : host.strongest (fs ++ [t]) id =
    if callId t = id then (host.strongest fs id).stronger (host.toolPhase t) else host.strongest fs id := by
  rw [Host.strongest, filter_append]
  by_cases h : callId t = id
  · rw [if_pos h, filter_cons_of_pos (by simpa using h), map_append, foldl_append]
    rfl
  · rw [if_neg h, filter_cons_of_neg (by simpa using h), filter_nil, append_nil]
    rfl

theorem strongest_of_not_mem (h : callId t ∉ calls fs) : host.strongest fs (callId t) = .running := by
  have hnone : fs.filter (fun f => callId f = callId t) = [] := by
    refine filter_eq_nil_iff.mpr fun f hf hid => h ?_
    rw [← of_decide_eq_true hid]
    exact mem_reverse.mpr (mem_dedup.mpr (mem_reverse.mpr (mem_map_of_mem hf)))
  rw [Host.strongest, hnone]
  rfl

theorem mem_calls_of_mem (h : Cards host fs turn) (hm : m ∈ turn) (hinfo : info ∈ m.toolInfo) : callId info ∈ calls fs := by
  rw [← h.order]
  exact mem_filterMap.mpr ⟨m, hm, by rw [Message.card, Option.mem_def.mp hinfo]; rfl⟩

theorem named_card (h : Cards host fs turn) (ht : Carried t) (hm : m ∈ turn) :
    m.named (t.get? "tool_call_id") = true ↔ m.card = some (callId t) := by
  rw [Message.named, Message.toolField, Message.card]
  cases hinfo : m.toolInfo with
  | none =>
    refine iff_of_false (fun he => ?_) (by rintro ⟨⟩)
    have hnone := eq_of_strictEq he
    rw [ht.get?.1] at hnone
    cases hnone
  | some info => simpa using named_iff ht (h.carried m hm info hinfo)

theorem patchTool_new (h : Cards host fs turn) (ht : Carried t) (hnew : callId t ∉ calls fs) :
    host.patchTool t turn = none := by
  have hnone : ∀ m ∈ turn, m.named (t.get? "tool_call_id") = false := by
    intro m hm
    rw [Bool.eq_false_iff]
    intro hn
    obtain ⟨info, hinfo, hid⟩ := Option.map_eq_some_iff.mp ((named_card h ht hm).mp hn)
    exact hnew (hid ▸ mem_calls_of_mem h hm hinfo)
  rw [Host.patchTool]
  dsimp only
  rw [if_pos ht.get?.2, List.findIdx?_eq_none_iff.mpr hnone, ht.get?.2]
  rw [if_neg (by rw [Bool.not_true, Bool.false_and]; exact Bool.false_ne_true)]
  dsimp only
  split
  · rfl
  refine patchLast_eq_none.mpr fun m hm => ?_
  rw [Option.any_eq_false]
  intro info hinfo
  have hother := hnone m hm
  rw [Message.named, Message.toolField, hinfo, Option.bind_some] at hother
  rw [sameInvocation, ht.get?.2, (h.carried m hm info hinfo).get?.2, Bool.and_true, if_pos rfl, hother]
  rfl

theorem forall_mem_middle {α : Type} {q : α → Prop} {pre post : List α} {a : α} :
    (∀ b ∈ pre ++ a :: post, q b) ↔ q a ∧ ∀ b ∈ pre ++ post, q b := by
  rw [forall_mem_append, forall_mem_cons, and_left_comm, ← forall_mem_append]

theorem cards_new (h : Cards host fs turn) (ht : Carried t) (hnew : callId t ∉ calls fs) :
    Cards host (fs ++ [t]) (turn ++ [host.toolCard t]) where
  answer := forall_mem_append.mpr ⟨h.answer, forall_mem_singleton.mpr nofun⟩
  carried := forall_mem_append.mpr ⟨h.carried, forall_mem_singleton.mpr (by rintro _ ⟨⟩; exact ht)⟩
  order := by
    rw [filterMap_append, h.order, calls_concat, if_neg hnew]
    rfl
  phases := by
    refine forall_mem_append.mpr ⟨fun m hm info hinfo => ?_, forall_mem_singleton.mpr ?_⟩
    · rw [strongest_concat, if_neg fun heq => hnew (by rw [heq]; exact mem_calls_of_mem h hm hinfo)]
      exact h.phases m hm info hinfo
    · rintro _ ⟨⟩
      rw [strongest_concat, if_pos rfl, strongest_of_not_mem hnew, ToolPhase.running_stronger]

theorem cards_merged {pre post : List (Message A P)} {e : ToolInfo} (h : Cards host fs (pre ++ m :: post)) (ht : Carried t)
    (he : m.toolInfo = some e) (hid : callId e = callId t) :
    Cards host (fs ++ [t]) (pre ++ { m with toolInfo := some (host.mergeToolLifecycle e t) } :: post) ↔
      host.overlooked (host.strongest fs (callId t)) t = false := by
  have hcall : (host.mergeToolLifecycle e t).get? "tool_call_id" = t.get? "tool_call_id" :=
    callId_merge_of_truthy host ht.get?.2
  have hid' : callId (host.mergeToolLifecycle e t) = callId t := by rw [callId, hcall, ← callId]
  obtain ⟨hphase, hphases⟩ := forall_mem_middle.mp h.phases
  have hmerged := @toolPhase_merge _ _ host e t
  rw [hphase e he, hid] at hmerged
  constructor
  · intro hc
    have hlast := (forall_mem_middle.mp hc.phases).1 _ rfl
    rw [hid', strongest_concat, if_pos rfl, hmerged] at hlast
    by_contra ho
    rw [Bool.not_eq_false] at ho
    rw [if_pos ho] at hlast
    simp only [Host.overlooked, Bool.and_eq_true, decide_eq_true_eq] at ho
    rw [ho.1.1, ho.1.2] at hlast
    cases hlast
  intro ho
  have hcard : m.card = some (callId t) := by rw [Message.card, he, Option.map_some, hid]
  have hcard' : Message.card { m with toolInfo := some (host.mergeToolLifecycle e t) } = m.card := by
    rw [hcard, Message.card, Option.map_some, hid']
  -- no other card has the call, so that no other strongest frame changes
  have hother : ∀ m' ∈ pre ++ post, ∀ info ∈ m'.toolInfo, callId t ≠ callId info := by
    have hnodup : ((pre ++ m :: post).filterMap Message.card).Nodup := by
      rw [h.order]
      exact nodup_reverse.mpr (nodup_dedup _)
    rw [filterMap_append, filterMap_cons_some hcard, nodup_middle, nodup_cons,
      ← filterMap_append] at hnodup
    intro m' hm' info hinfo heq
    refine hnodup.1 (mem_filterMap.mpr ⟨m', hm', ?_⟩)
    rw [Message.card, Option.mem_def.mp hinfo, Option.map_some, heq]
  refine ⟨forall_mem_middle.mpr (forall_mem_middle.mp h.answer),
    forall_mem_middle.mpr ⟨?_, (forall_mem_middle.mp h.carried).2⟩, ?_,
    forall_mem_middle.mpr ⟨?_, fun m' hm' info hinfo => ?_⟩⟩
  · rintro _ ⟨⟩
    obtain ⟨id, hne, hget⟩ := ht
    exact ⟨id, hne, hcall.trans hget⟩
  · have hmem : callId e ∈ calls fs := mem_calls_of_mem h (mem_append_right _ (mem_cons_self ..)) he
    rw [calls_concat, if_pos (hid ▸ hmem), ← h.order]
    simp only [filterMap_append, filterMap_cons, hcard']
  · rintro _ ⟨⟩
    rw [hid', strongest_concat, if_pos rfl, hmerged, if_neg (by rw [ho]; exact Bool.false_ne_true)]
  · rw [strongest_concat, if_neg (hother m' hm' info hinfo)]
    exact hphases m' hm' info hinfo

/-- A frame leaves the cards of the other calls as they are, and strengthens its own, unless it is overlooked. -/
theorem cards_frame (h : Cards host fs turn) (ht : Carried t) :
    Cards host (fs ++ [t]) ((host.patchTool t turn).getD (turn ++ [host.toolCard t])) ↔
      host.overlooked (host.strongest fs (callId t)) t = false := by
  by_cases hmem : callId t ∈ calls fs
  · have hone : turn.countP (Message.named (t.get? "tool_call_id")) ≤ 1 := by
      have hcount : turn.countP (Message.named (t.get? "tool_call_id")) = (turn.filterMap Message.card).count (callId t) := by
        rw [List.count, countP_filterMap]
        refine countP_congr fun m hm => (named_card h ht hm).trans ?_
        cases m.card <;> simp
      rw [hcount, h.order]
      exact nodup_iff_count_le_one.mp (nodup_reverse.mpr (nodup_dedup _)) _
    obtain ⟨keep, hkeep⟩ : ∃ keep, turn.findIdx? (Message.named (t.get? "tool_call_id")) = some keep := by
      rw [← Option.isSome_iff_exists, List.findIdx?_isSome, any_eq_true]
      rw [← h.order] at hmem
      obtain ⟨m, hm, hid⟩ := mem_filterMap.mp hmem
      exact ⟨m, hm, (named_card h ht hm).mpr hid⟩
    obtain ⟨pre, m, post, e, rfl, he, hnam, hpat⟩ := patchTool_named host ht.get?.2 hone hkeep
    have hcard := (named_card h ht (mem_append_right _ (mem_cons_self ..))).mp hnam
    rw [Message.card, he] at hcard
    rw [hpat]
    exact cards_merged h ht he (Option.some.inj hcard)
  · rw [patchTool_new h ht hmem, strongest_of_not_mem hmem]
    exact iff_of_true (cards_new h ht hmem) rfl

end Frames

section Turns

variable {host : Host A P}

/-- A transcript whose last turn has at most one card for each call. -/
structure OpenTurn (A P : Type) where
  before : List (Message A P)
  turn : List (Message A P)
  opened : before = [] ∨ before.getLast?.map Message.role = some .user
  answer : ∀ m ∈ turn, m.role ≠ .user
  carried : ∀ m ∈ turn, ∀ info ∈ m.toolInfo, Carried info
  distinct : (turn.filterMap Message.card).Nodup

def OpenTurn.frames (start : OpenTurn A P) : List ToolInfo := start.turn.filterMap Message.toolInfo

/-- The transcript has the same rows before the turn, and the cards of the frames in it. -/
def Shown (host : Host A P) (before : List (Message A P)) (fs : List ToolInfo) (rows : List (Message A P)) : Prop :=
  ∃ turn, rows = before ++ turn ∧ Cards host fs turn

theorem append_open {before turn : List (Message A P)} {t : ToolInfo}
    (hopen : before = [] ∨ before.getLast?.map Message.role = some .user) (h : ∀ m ∈ turn, m.role ≠ .user) :
    host.appendOrPatchTool (before ++ turn) t = before ++ (host.patchTool t turn).getD (turn ++ [host.toolCard t]) := by
  rcases hopen with rfl | hopen
  · rw [nil_append, Host.appendOrPatchTool, splitTurn_of_not_user h]
    dsimp only
    cases host.patchTool t turn <;> rfl
  · exact appendOrPatchTool_eq host hopen h t

theorem shown_start (start : OpenTurn A P) : Shown host start.before start.frames (start.before ++ start.turn) := by
  have hids : start.frames.map callId = start.turn.filterMap Message.card := map_filterMap ..
  refine ⟨start.turn, rfl, start.answer, start.carried, ?_, fun m hm info hinfo => ?_⟩
  · rw [calls, hids, dedup_eq_self.mpr (nodup_reverse.mpr start.distinct), reverse_reverse]
  have hmem : info ∈ start.frames := mem_filterMap.mpr ⟨m, hm, hinfo⟩
  have hnodup := start.distinct
  rw [← hids] at hnodup
  obtain ⟨pre, post, hcut⟩ := append_of_mem hmem
  rw [hcut, map_append, map_cons, nodup_middle, nodup_cons, ← map_append] at hnodup
  have hnone : (pre ++ post).filter (fun t => callId t = callId info) = [] :=
    filter_eq_nil_iff.mpr fun t ht hid => hnodup.1 (mem_map.mpr ⟨t, ht, of_decide_eq_true hid⟩)
  rw [filter_append, append_eq_nil_iff] at hnone
  rw [Host.strongest, hcut, filter_append, hnone.1, filter_cons_of_pos (by simp), hnone.2]
  exact (ToolPhase.running_stronger _).symm

variable (host) (start : OpenTurn A P)

def OpenTurn.after (frames : List {t : ToolInfo // Carried t}) : List (Message A P) :=
  frames.foldl (fun rows t => host.appendOrPatchTool rows t.1) (start.before ++ start.turn)

/-- All frames until now. -/
def OpenTurn.all (frames : List {t : ToolInfo // Carried t}) : List ToolInfo := start.frames ++ frames.map Subtype.val

theorem shown_concat (frames : List {t : ToolInfo // Carried t}) (t : {t : ToolInfo // Carried t})
    (h : Shown host start.before (start.all frames) (start.after host frames)) :
    Shown host start.before (start.all (frames ++ [t])) (start.after host (frames ++ [t])) ↔
      host.overlooked (host.strongest (start.all frames) (callId t.1)) t.1 = false := by
  obtain ⟨turn, hrows, hcards⟩ := h
  have hafter : start.after host (frames ++ [t]) = host.appendOrPatchTool (start.after host frames) t.1 := foldl_append ..
  have hall : start.all (frames ++ [t]) = start.all frames ++ [t.1] := by
    rw [OpenTurn.all, map_append, ← append_assoc]
    rfl
  rw [hafter, hall, hrows, append_open start.opened hcards.answer, ← cards_frame hcards t.2]
  refine ⟨?_, fun hc => ⟨_, rfl, hc⟩⟩
  rintro ⟨turn', hsame, hc⟩
  rwa [append_cancel_left hsame]

/-- The cards of a turn say of every call what its strongest frame says, as long as no failure without a status
arrives for a call that has stopped. -/
theorem cards_strongest_iff (frames : List {t : ToolInfo // Carried t}) :
    (∀ seen, seen <+: frames → Shown host start.before (start.all seen) (start.after host seen)) ↔
      ∀ seen t, seen ++ [t] <+: frames → host.overlooked (host.strongest (start.all seen) (callId t.1)) t.1 = false := by
  induction frames using List.reverseRecOn with
  | nil =>
    refine iff_of_true (fun seen hseen => ?_) fun seen t hseen => ?_
    · rw [prefix_nil.mp hseen, OpenTurn.all, map_nil, append_nil]
      exact shown_start start
    · simp at hseen
  | append_singleton frames t ih =>
    constructor
    · intro h seen u hseen
      have hold := fun seen hs => h seen (List.IsPrefix.trans hs (prefix_append ..))
      rcases prefix_concat_iff.mp hseen with heq | hseen
      · obtain ⟨rfl, rfl⟩ := append_singleton_inj.mp heq
        exact (shown_concat host start _ _ (hold _ prefix_rfl)).mp (h _ prefix_rfl)
      · exact ih.mp hold seen u hseen
    · intro h seen hseen
      have hold := ih.mpr fun seen u hs => h seen u (List.IsPrefix.trans hs (prefix_append ..))
      rcases prefix_concat_iff.mp hseen with rfl | hseen
      · exact (shown_concat host start _ _ (hold _ prefix_rfl)).mpr (h frames t prefix_rfl)
      · exact hold seen hseen

theorem stopped_card_kept : ¬ ∀ (host : Host Unit Unit) (start : OpenTurn Unit Unit) (frames : List {t : ToolInfo // Carried t}),
    Shown host start.before (start.all frames) (start.after host frames) := by
  intro h
  let stop : ToolInfo := ⟨[("tool_call_id", .str "call"), ("status", .str "cancelled")], by decide⟩
  let fail : ToolInfo := ⟨[("tool_call_id", .str "call"), ("tool_call_error", .bool true)], by decide⟩
  let start : OpenTurn Unit Unit :=
    ⟨asked.messages, [], .inr rfl, forall_mem_nil _, forall_mem_nil _, nodup_nil⟩
  have hstop : bashHost.toolPhase stop = .stopped :=
    if_pos (.inl ((toLower_eq_iff "cancelled" "cancelled").mpr (by decide)))
  have hfail : bashHost.toolPhase fail = .error := by
    rw [Host.toolPhase, if_neg]
    · rfl
    · rintro (he | he) <;> exact absurd ((toLower_eq_iff "" _).mp he) (by decide)
  have hbefore : bashHost.strongest ([] ++ [stop]) "call" = .stopped := by
    rw [strongest_concat, if_pos (by decide), hstop]
    rfl
  have hkept : bashHost.overlooked (bashHost.strongest ([] ++ [stop]) "call") fail = false :=
    (shown_concat bashHost start [⟨stop, "call", by decide, rfl⟩] ⟨fail, "call", by decide, rfl⟩ (h ..)).mp (h ..)
  rw [hbefore, Host.overlooked, hfail] at hkept
  revert hkept
  decide

end Turns

end OpenAgent.App
