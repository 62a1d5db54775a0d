import OpenAgent.McpApps.HostLaws

namespace OpenAgent.McpApps.Host

open Py Laws List

namespace View.Ok

variable {trace : List Act} {v : Nat} {view : View}

theorem withTask (h : view.Ok trace v) {task task' : PolicyTask} (htask : view.task = some task)
    (hset : task'.settled = task.settled) : View.Ok trace v { view with task := some task' } := by
  refine ⟨h.once, fun other ho hs => ?_, h.unoperated, fun hall => ?_, h.listed, h.viewed⟩
  · cases ho
    exact h.task task htask (hset.symm.trans hs)
  refine h.undecided fun other ho => ?_
  cases htask.symm.trans ho
  exact hset.symm.trans (hall task' rfl)

variable {id : String}

theorem withOnce (h : view.Ok trace v) {once once' : Once} (hid : view.requests.get? id = some once)
    (hbusy : once'.busy = true → once.busy = true) (hfre : once'.fresh = true → once.fresh = true) :
    View.Ok trace v { view with requests := view.requests.set id once' } := by
  refine ⟨fun other old ho hb => ?_, h.task, fun other hall => ?_, h.undecided, h.listed, h.viewed⟩
  · have hget : (view.requests.set id once').get? other = some old := ho
    rw [Dict.get?_set] at hget
    by_cases hoi : other = id
    · rw [if_pos hoi, Option.some.injEq] at hget
      rw [hoi]
      exact h.once id once hid (hbusy (by rw [hget]; exact hb))
    · rw [if_neg hoi] at hget
      exact h.once other old hget hb
  refine h.unoperated other fun old ho => ?_
  have hget : (view.requests.set id once').get? other = if other = id then some once' else view.requests.get? other :=
    Dict.get?_set _ _ _ _
  by_cases hoi : other = id
  · rw [hoi, hid, Option.some.injEq] at ho
    rw [← ho]
    exact hfre (hall once' (by rw [hget, if_pos hoi]))
  · exact hall old (by rw [hget, if_neg hoi]; exact ho)

theorem release (h : view.Ok trace v) {once : Once} (hid : view.requests.get? id = some once)
    (hbusy : once.busy = true) {once' : Once} (hbusy' : once'.busy = false) (hfre' : once'.fresh = false) :
    View.Ok trace v { view with
      interactive := if view.interactive = some (.request id) then none else view.interactive
      requests := view.requests.set id once' } := by
  have htok := h.once id once hid hbusy
  refine ⟨fun other old ho hb => ?_, fun task htask hs => ?_, fun other hall => ?_, h.undecided, h.listed, h.viewed⟩
  · have hget : (view.requests.set id once').get? other = some old := ho
    rw [Dict.get?_set] at hget
    by_cases hoi : other = id
    · rw [if_pos hoi, Option.some.injEq] at hget
      rw [← hget, hbusy'] at hb
      cases hb
    rw [if_neg hoi] at hget
    cases htok.symm.trans (h.once other old hget hb)
    exact absurd rfl hoi
  · cases htok.symm.trans (h.task task htask hs)
  refine h.unoperated other fun old ho => ?_
  have hget : (view.requests.set id once').get? other = if other = id then some once' else view.requests.get? other :=
    Dict.get?_set _ _ _ _
  by_cases hoi : other = id
  · have hf := hall once' (by rw [hget, if_pos hoi])
    rw [hfre'] at hf
    cases hf
  · exact hall old (by rw [hget, if_neg hoi]; exact ho)

theorem enter (h : view.Ok trace v) (hid : view.requests.get? id = none) (hfree : view.interactive = none)
    (digest : String) :
    View.Ok trace v { view with
      interactive := some (.request id), requests := view.requests.set id { digest := digest } } := by
  refine ⟨fun other old ho hb => ?_, fun task htask hs => ?_, fun other hall => ?_, h.undecided, h.listed, h.viewed⟩
  · have hget : (view.requests.set id { digest := digest }).get? other = some old := ho
    rw [Dict.get?_set] at hget
    by_cases hoi : other = id
    · rw [hoi]
    · rw [if_neg hoi] at hget
      cases hfree.symm.trans (h.once other old hget hb)
  · cases hfree.symm.trans (h.task task htask hs)
  refine h.unoperated other fun old ho => ?_
  by_cases hoi : other = id
  · cases (hoi ▸ hid).symm.trans ho
  refine hall old ?_
  show (view.requests.set id { digest := digest }).get? other = some old
  rw [Dict.get?_set_of_ne _ _ hoi]
  exact ho

theorem begin (h : view.Ok trace v) (htask : view.task = none) (hfree : view.interactive = none) (task : PolicyTask) :
    View.Ok trace v { view with interactive := some .policy, task := some task } := by
  refine ⟨fun id once hid hb => ?_, fun _ _ _ => rfl, h.unoperated, fun _ => ?_, h.listed, h.viewed⟩
  · cases hfree.symm.trans (h.once id once hid hb)
  · exact h.undecided fun other ho => by cases htask.symm.trans ho

theorem settle (h : view.Ok trace v) {task : PolicyTask} (htask : view.task = some task) (hset : task.settled = false)
    {task' : PolicyTask} (hset' : task'.settled = true) (policy : Policy) :
    View.Ok trace v { view with
      policy := policy
      task := some task'
      interactive := if view.interactive = some .policy then none else view.interactive } := by
  have htok := h.task task htask hset
  refine ⟨fun id once hid hb => ?_, fun other ho hs => ?_, h.unoperated, fun hall => ?_, h.listed, h.viewed⟩
  · cases htok.symm.trans (h.once id once hid hb)
  · cases ho
    rw [hset'] at hs
    cases hs
  have hs := hall task' rfl
  rw [hset'] at hs
  cases hs

end View.Ok

def noteActs (client : Client) (v : Nat) (reply : Reply) (auth : Auth) : List Act :=
  (match reply with
    | .owner owner => [.answered client owner]
    | _ => []) ++ if auth = .passed then [.granted client v] else []

theorem note_eq (s : Service) (client : Client) (v : Nat) (reply : Reply) (auth : Auth) :
    s.note client v reply auth = { s with trace := s.trace ++ noteActs client v reply auth } := by
  unfold Service.note noteActs
  cases reply with
  | owner owner =>
    by_cases hp : auth = .passed
    · simp [hp, Service.act]
    · simp [hp, Service.act]
  | session | throws =>
    by_cases hp : auth = .passed
    · simp [hp, Service.act]
    · simp [hp]

variable {auth : Auth} {client : Client} {reply : Reply} {v : Nat}

theorem noteActs_of {a : Act} (ha : a ∈ noteActs client v reply auth) :
    (∃ owner, a = .answered client owner) ∨ a = .granted client v := by
  unfold noteActs at ha
  rcases mem_append.mp ha with ha | ha
  · cases reply with
    | owner owner => exact .inl ⟨owner, mem_singleton.mp ha⟩
    | session | throws => cases ha
  split at ha
  · exact .inr (mem_singleton.mp ha)
  · cases ha

theorem noteActs_plain : ∀ a ∈ noteActs client v reply auth, a.plain = true := by
  intro a ha
  rcases noteActs_of ha with ⟨owner, rfl⟩ | rfl
  · rfl
  · rfl

theorem noteActs_other {other : Client} (hne : client ≠ other) :
    ∀ a ∈ noteActs client v reply auth, a.of other = false := by
  intro a ha
  rcases noteActs_of ha with ⟨owner, rfl⟩ | rfl
  · exact decide_eq_false hne
  · exact decide_eq_false hne

theorem Auth.next_passed {live : Bool} {owner : Owner}
    (h : auth.next live owner reply = some .passed) : live = true ∧ reply = .owner owner := by
  unfold Auth.next at h
  split at h
  all_goals simp only [Option.some.injEq, reduceCtorEq] at h
  · split at h
    · cases h
    · cases h
  · split at h
    · cases h
    · cases h
  split at h
  · rename_i answer hok
    rw [Bool.and_eq_true, decide_eq_true_eq] at hok
    exact ⟨hok.1, by rw [hok.2]⟩
  · cases h

theorem live_listed {s : Service} {view : View} (hv : s.views.get? v = some view) (h : s.live v = true) :
    view.listed = true := by
  unfold Service.live at h
  rw [hv] at h
  simp only [Bool.and_eq_true] at h
  exact h.1.2

theorem authorize_ne_passed (s : Service) (v : Nat) : s.authorize v ≠ .passed := by
  unfold Service.authorize
  split
  · exact fun h => by cases h
  · exact fun h => by cases h

namespace Standing

variable {s t : Service}

variable {auth' : Auth}

theorem noted_lawful (h : Standing s) {view : View} (hv : s.views.get? v = some view)
    (hnext : auth.next (s.live v) view.owner reply = some auth') :
    Lawful law (s.trace ++ noteActs client v reply auth') := by
  have hok := h.views v view hv
  by_cases hp : auth' = .passed
  · rw [hp] at hnext
    obtain ⟨hlive, rfl⟩ := Auth.next_passed hnext
    have hacts : noteActs client v (.owner view.owner) auth' = [.answered client view.owner, .granted client v] := by
      simp [noteActs, hp]
    have hans : Lawful law (s.trace ++ [.answered client view.owner]) := lawful_concat.mpr ⟨h.lawful, trivial⟩
    rw [hacts]
    show Lawful law (s.trace ++ ([.answered client view.owner] ++ [.granted client v]))
    rw [← append_assoc]
    refine lawful_concat.mpr ⟨hans, ?_, view.owner, mem_append_left _ hok.viewed, ?_⟩
    · rw [mem_append, mem_singleton, not_or]
      exact ⟨hok.listed.mp (live_listed hv hlive), fun hf => by cases hf⟩
    · exact last_concat (decide_eq_true rfl)
  cases reply with
  | owner owner =>
    have hacts : noteActs client v (.owner owner) auth' = [.answered client owner] := by simp [noteActs, hp]
    rw [hacts]
    exact lawful_concat.mpr ⟨h.lawful, trivial⟩
  | session result =>
    have hacts : noteActs client v (.session result) auth' = [] := by simp [noteActs, hp]
    rw [hacts, append_nil]
    exact h.lawful
  | throws =>
    have hacts : noteActs client v .throws auth' = [] := by simp [noteActs, hp]
    rw [hacts, append_nil]
    exact h.lawful

theorem noted (h : Standing s) (hcli : ∀ r, client ≠ .handler r) {view view' : View}
    (hv : s.views.get? v = some view)
    (hnext : auth.next (s.live v) view.owner reply = some auth') (hok : view'.Ok s.trace v) :
    Standing ((s.setView v view').note client v reply auth') := by
  have hset := h.setView hv hok
  rw [note_eq]
  refine hset.frame rfl noteActs_plain (h.noted_lawful hv hnext) rfl rfl fun r handler result hr hstage => ?_
  have hlast : last (.handler r) ((s.setView v view').trace ++ noteActs client v reply auth') = _ :=
    last_append (noteActs_other (hcli r))
  exact hlast.trans (hset.published r handler result hr hstage)

theorem noted_handler (h : Standing s) {r : Nat} {handler : Handler} {view : View}
    (hv : s.views.get? handler.view = some view)
    (hnext : auth.next (s.live handler.view) view.owner reply = some auth') :
    Standing ((s.setStage r handler (handler.stage.withAuth auth')).note (.handler r) handler.view reply auth') := by
  rw [note_eq]
  refine h.frame (s := s) rfl noteActs_plain (h.noted_lawful hv hnext) rfl rfl fun q other result hq hstage => ?_
  have hget : (s.handlers.set r { handler with stage := handler.stage.withAuth auth' }).get? q = some other := hq
  rw [Dict.get?_set] at hget
  show last (.handler q) (s.trace ++ noteActs (.handler r) handler.view reply auth') = _
  by_cases hqr : q = r
  · rw [if_pos hqr, Option.some.injEq] at hget
    subst hget
    have hp : auth' = .passed := by
      cases hs : handler.stage with
      | publish auth value =>
        have hw : handler.stage.withAuth auth' = .publish .passed result := hstage
        rw [hs] at hw
        injection hw
      | admission | authorized | policy | body | once | asking | closing | done =>
        have hw : handler.stage.withAuth auth' = .publish .passed result := hstage
        rw [hs] at hw
        cases hw
    rw [hp] at hnext ⊢
    obtain ⟨-, rfl⟩ := Auth.next_passed hnext
    have hacts : s.trace ++ noteActs (.handler r) handler.view (.owner view.owner) .passed =
        (s.trace ++ [.answered (.handler r) view.owner]) ++ [.granted (.handler r) handler.view] := by
      simp [noteActs]
    rw [hqr, hacts]
    exact last_concat (decide_eq_true rfl)
  · rw [if_neg hqr] at hget
    rw [last_append (noteActs_other fun hf => hqr (by cases hf; rfl))]
    exact h.published q other result hget hstage

end Standing

end OpenAgent.McpApps.Host
