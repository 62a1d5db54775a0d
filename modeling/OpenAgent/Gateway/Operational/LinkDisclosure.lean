import OpenAgent.Gateway.Operational.Links

namespace OpenAgent.Gateway.Operational

open Py Option List

def linkFields : List String := ["session_id", "child_session_id", "run_target", "downstream", "downstream_target", "trace"]

def sessionLink (field : String) (id : Option String) : List Linked := id.toList.map fun id => ⟨field, .session id⟩

def runLink (field : String) (kind : RunKind) (id : Option String) : List Linked :=
  id.toList.map fun id => ⟨field, .run kind id⟩

def Downstream.links (downstream : Downstream) : List Linked :=
  sessionLink "downstream" downstream.sessionId ++ runLink "downstream" .workflowRun downstream.workflowRunId ++
    runLink "downstream" .scheduledRun downstream.scheduledRunId

def RelatedRun.links (run : RelatedRun) : List Linked :=
  sessionLink "session_id" run.sessionId ++ sessionLink "session_id" (some run.causedBySession) ++
    run.downstream.toList.flatMap Downstream.links

def ToolSummary.links (summary : ToolSummary) : List Linked :=
  sessionLink "child_session_id" summary.childSessionId ++
    summary.runTarget.toList.map fun target => ⟨"run_target", .run target.kind target.runId⟩

def Message.links (message : Message) : List Linked :=
  sessionLink "session_id" (some message.sessionId) ++ message.toolSummary.toList.flatMap ToolSummary.links

def DownstreamTarget.link (target : DownstreamTarget) : Link :=
  match target with
  | .workflowRun runId _ => .run .workflowRun runId
  | .scheduledRun runId _ => .run .scheduledRun runId
  | .chat sessionId => .session sessionId

def Response.links (response : Response) : List Linked :=
  match response with
  | .history items => items.flatMap fun item => sessionLink "session_id" item.sessionId
  | .relatedRuns sessionId items => sessionLink "session_id" (some sessionId) ++ items.flatMap RelatedRun.links
  | .messages sessionId items => sessionLink "session_id" (some sessionId) ++ items.flatMap Message.links
  | .toolInvocation detail =>
    sessionLink "session_id" detail.sessionId ++ sessionLink "child_session_id" detail.childSessionId ++
      runLink "workflow_run_id" .workflowRun detail.workflowRunId ++
      runLink "scheduled_run_id" .scheduledRun detail.scheduledRunId ++
      runLink "event_delivery_id" .eventDelivery detail.eventDeliveryId
  | .scheduledRun detail => sessionLink "session_id" detail.sessionId
  | .workflowRun detail =>
    (detail.traceSteps.flatMap (sessionLink "child_session_id")) ++
      (traceOf detail.trace).flatMap fun step => sessionLink "trace" (childSession step)
  | .delivery detail =>
    sessionLink "session_id" detail.sessionId ++ runLink "workflow_run_id" .workflowRun detail.workflowRunId ++
      runLink "task_run_id" .scheduledRun detail.taskRunId ++
      detail.downstreamTarget.toList.map fun target => ⟨"downstream_target", target.link⟩

section Disclosure

variable [Foundations] (store : Store) (access : AccessContext)

def Discreet (request : Request) : Prop :=
  ∀ response ∈ respond store access request, ∀ linked ∈ response.links, linked.field ∈ linkFields →
    accepts store access linked.target = true

def optionAccepts (target : String → Link) (value : Option String) : Prop :=
  ∀ text ∈ link value, accepts store access (target text) = true

def Covered (request : Request) : Prop :=
  match request with
  | .history selectedIds => ∀ activityId ∈ selectedIds, ∀ row ∈ historyRow store access activityId,
      optionAccepts store access .session row.sessionId
  | .relatedRuns sessionId selected => sessionVisible store access sessionId →
      ∀ detail ∈ relatedRunDetails store access selected, optionAccepts store access .session detail.detailSessionId ∧
        optionAccepts store access (.run .workflowRun) detail.downstreamWorkflowRunId ∧
        optionAccepts store access (.run .scheduledRun) detail.downstreamTaskRunId
  | .messages sessionId window => sessionVisible store access sessionId →
      ∀ row ∈ messagePage store sessionId window, ∀ tool ∈ row.2,
        optionAccepts store access .session tool.childSessionId ∧
        ∀ target ∈ runTargetOf store access (messagePage store sessionId window) tool,
          accepts store access (.run target.kind target.runId) = true
  | .toolInvocation toolId => ∀ tool ∈ visibleTool store access toolId,
      optionAccepts store access .session tool.childSessionId
  | .scheduledRun _ | .workflowRun _ | .delivery _ => True

end Disclosure

section Links

variable [Foundations] {store : Store} {access : AccessContext} {field : String} {id : Option String}

def Fine (store : Store) (access : AccessContext) (links : List Linked) : Prop :=
  ∀ linked ∈ links, linked.field ∈ linkFields → accepts store access linked.target = true

@[simp] theorem fine_nil : Fine store access [] := fun _ h => absurd h not_mem_nil

@[simp] theorem fine_append {links others : List Linked} :
    Fine store access (links ++ others) ↔ Fine store access links ∧ Fine store access others := forall_mem_append

@[simp] theorem fine_flatMap {α : Type} {f : α → List Linked} {items : List α} :
    Fine store access (items.flatMap f) ↔ ∀ item ∈ items, Fine store access (f item) := by
  simp only [Fine, mem_flatMap]
  exact ⟨fun h item hitem linked hlin => h linked ⟨item, hitem, hlin⟩,
    fun h linked ⟨item, hitem, hlin⟩ => h item hitem linked hlin⟩

theorem fine_sessionLink (h : field ∈ linkFields) :
    Fine store access (sessionLink field id) ↔ ∀ session ∈ id, sessionVisible store access session = true := by
  cases id with
  | none => simp [sessionLink]
  | some session => simp [sessionLink, Fine, h, accepts]

theorem fine_runLink {kind : RunKind} (h : field ∈ linkFields) :
    Fine store access (runLink field kind id) ↔ ∀ run ∈ id, accepts store access (.run kind run) = true := by
  cases id with
  | none => simp [runLink]
  | some run => simp [runLink, Fine, h]

theorem fine_otherLink {kind : RunKind} (h : field ∉ linkFields) : Fine store access (runLink field kind id) := by
  cases id with
  | none => simp [runLink]
  | some run => simp [runLink, Fine, h]

theorem fine_single {target : Link} (h : field ∈ linkFields) :
    Fine store access [⟨field, target⟩] ↔ accepts store access target = true := by
  simp [Fine, h]

end Links

variable {row : Joined} {sessionId : String}

section Pages

variable {store : Store}

theorem mem_ascending {rows : List Joined} (h : row ∈ ascending rows) : row ∈ rows :=
  (perm_insertionSort _ _).mem_iff.mp h

theorem mem_newest {limit : Nat} {rows : List Joined} (h : row ∈ newest limit rows) : row ∈ rows :=
  mem_ascending (mem_reverse.mp (mem_of_mem_take (mem_reverse.mp h)))

theorem mem_messagePage {window : Window} (h : row ∈ messagePage store sessionId window) :
    row ∈ joinedMessages store sessionId := by
  cases window with
  | around messageId before after =>
    simp only [messagePage] at h
    split at h
    · cases h
    rcases mem_append.mp h with h | h
    · exact (mem_filter.mp (mem_newest h)).1
    · exact (mem_filter.mp (mem_ascending (mem_of_mem_take h))).1
  | cursor boundary backwards limit =>
    simp only [messagePage] at h
    split at h
    · exact (mem_filter.mp (mem_newest h)).1
    · exact (mem_filter.mp (mem_ascending (mem_of_mem_take h))).1
  | latest limit => exact mem_newest h

theorem sessionId_of_joined (h : row ∈ joinedMessages store sessionId) : row.1.sessionId = sessionId := by
  obtain ⟨message, hmes, hrow⟩ := mem_flatMap.mp h
  have hses : message.sessionId = sessionId := by
    have hkept := (mem_filter.mp hmes).2
    simp only [Bool.and_eq_true, decide_eq_true_eq] at hkept
    exact hkept.1
  split at hrow
  · rw [mem_singleton.mp hrow]
    exact hses
  · obtain ⟨tool, _, rfl⟩ := mem_map.mp hrow
    exact hses

theorem session_field : "session_id" ∈ linkFields := by decide

theorem mem_link {value : Option String} {text : String} (h : text ∈ link value) : value = some text :=
  (filter_eq_some_iff.mp h).1

theorem childSession_safeStep {ids : List String} {step : Json} {session : String}
    (h : childSession (safeStep ids step) = some session) : session ∈ ids := by
  cases hchi : childSession step with
  | none =>
    have hsame : safeStep ids step = step := by
      unfold safeStep
      rw [hchi]
      cases step <;> rfl
    rw [hsame, hchi] at h
    cases h
  | some child =>
    cases step with
    | obj entries =>
      simp only [safeStep, hchi] at h
      split at h
      · rename_i hvis
        rw [hchi, Option.some.injEq] at h
        exact h ▸ contains_iff_mem.mp hvis
      · simp [childSession, Assoc.get?_set, Json.truthy] at h
    | _ => cases hchi

theorem mem_visible_of_safeTrace {ids : List String} {trace step : Json} {session : String}
    (hstep : step ∈ traceOf (safeTrace ids trace)) (h : session ∈ childSession step) : session ∈ ids := by
  cases trace with
  | arr steps =>
    obtain ⟨raw, _, rfl⟩ := mem_map.mp hstep
    exact childSession_safeStep h
  | _ => cases hstep

end Pages

section Rows

variable [Foundations] {store : Store} {access : AccessContext}

theorem sessionVisible_of_row {row : SessionRow} (hrow : row ∈ store.sessions) (hlive : row.deleted = false)
    (hvis : isVisible store access row.acl = true) : sessionVisible store access row.id = true := by
  have hfind : store.sessions.find? (fun other => other.id = row.id && !other.deleted) = some row := by
    cases hf : store.sessions.find? fun other => other.id = row.id && !other.deleted with
    | none => exact absurd (by simp [hlive]) (List.find?_eq_none.mp hf row hrow)
    | some other =>
      have hid : other.id = row.id := by
        have hp := List.find?_some hf
        simp only [Bool.and_eq_true, decide_eq_true_eq] at hp
        exact hp.1
      rw [inj_on_of_nodup_map store.distinct (mem_of_find?_eq_some hf) hrow hid]
  rw [sessionVisible, sessionAclRow, hfind]
  exact hvis

theorem detail_facts {candidates : List Candidate} {detail : Detail} (h : detail ∈ relatedRunDetails store access candidates) :
    sessionVisible store access detail.source.id = true ∧
      (detail.kind ≠ .eventDelivery → detail.downstreamWorkflowRunId = none ∧ detail.downstreamTaskRunId = none) := by
  obtain ⟨hjoi, hkept⟩ := mem_filter.mp h
  obtain ⟨candidate, _, hdet⟩ := List.mem_flatMap.mp hjoi
  simp only [joinedDetails, List.bind_eq_flatMap, List.mem_flatMap, List.pure_def, List.mem_singleton] at hdet
  obtain ⟨activity, _, cause, _, source, hsou, parent, _, rfl⟩ := hdet
  obtain ⟨hrow, hlive⟩ := List.mem_filter.mp hsou
  simp only [Bool.and_eq_true, Bool.not_eq_true'] at hlive hkept
  refine ⟨sessionVisible_of_row hrow hlive.2 hkept.1.2, fun hkind => ?_⟩
  have hnone : downstreamOf store candidate.kind candidate.resourceId = none := if_neg hkind
  simp [hnone]

end Rows

section Handlers

variable [Foundations] (store : Store) (access : AccessContext)

theorem discreet_iff {request : Request} {response : Response} (h : respond store access request = some response) :
    Discreet store access request ↔ Fine store access response.links := by
  simp [Discreet, h, Fine]

theorem discreet_of_none {request : Request} (h : respond store access request = none) : Discreet store access request := by
  simp [Discreet, h]

theorem history_iff (selectedIds : List String) :
    Discreet store access (.history selectedIds) ↔ Covered store access (.history selectedIds) := by
  rw [discreet_iff store access rfl, Response.links, fine_flatMap, handleHistory, List.forall_mem_map]
  simp only [List.mem_filterMap, activityJson, fine_sessionLink session_field]
  constructor
  · intro h activityId hid row hrow
    exact h row ⟨activityId, hid, hrow⟩
  · rintro h row ⟨activityId, hid, hrow⟩
    exact h activityId hid row hrow

theorem relatedRun_iff {candidates : List Candidate} {detail : Detail} (h : detail ∈ relatedRunDetails store access candidates) :
    Fine store access (relatedRunJson detail).links ↔ optionAccepts store access .session detail.detailSessionId ∧
      optionAccepts store access (.run .workflowRun) detail.downstreamWorkflowRunId ∧
      optionAccepts store access (.run .scheduledRun) detail.downstreamTaskRunId := by
  obtain ⟨hsou, hoth⟩ := detail_facts h
  have hdow : "downstream" ∈ linkFields := by decide
  rw [RelatedRun.links, fine_append, fine_append, fine_flatMap, fine_sessionLink session_field, fine_sessionLink session_field]
  have hcau : ∀ session ∈ some (relatedRunJson detail).causedBySession, sessionVisible store access session = true := by
    rintro session hses
    rw [← Option.some.inj hses]
    exact hsou
  have hlin : (∀ downstream ∈ (relatedRunJson detail).downstream.toList, Fine store access downstream.links) ↔
      (detail.kind = .eventDelivery → optionAccepts store access .session detail.detailSessionId) ∧
        optionAccepts store access (.run .workflowRun) detail.downstreamWorkflowRunId ∧
        optionAccepts store access (.run .scheduledRun) detail.downstreamTaskRunId := by
    by_cases hkind : detail.kind = .eventDelivery
    · by_cases hany : ((link detail.detailSessionId).isSome || (link detail.downstreamWorkflowRunId).isSome ||
          (link detail.downstreamTaskRunId).isSome) = true
      · simp only [relatedRunJson, hkind, hany, decide_true, Bool.and_true, if_true, toList_some, forall_mem_singleton,
          Downstream.links, fine_append, fine_sessionLink hdow, fine_runLink hdow, forall_const, and_assoc]
        exact Iff.rfl
      · simp only [Bool.or_eq_true, not_or, not_isSome_iff_eq_none] at hany
        simp [relatedRunJson, optionAccepts, hany]
    · simp [relatedRunJson, hkind, optionAccepts, hoth hkind, link]
  rw [hlin]
  constructor
  · rintro ⟨⟨hses, _⟩, _, hwor, htask⟩
    exact ⟨hses, hwor, htask⟩
  · rintro ⟨hses, hwor, htask⟩
    exact ⟨⟨hses, hcau⟩, fun _ => hses, hwor, htask⟩

theorem relatedRuns_iff (sessionId : String) (selected : List Candidate) :
    Discreet store access (.relatedRuns sessionId selected) ↔ Covered store access (.relatedRuns sessionId selected) := by
  by_cases hvis : sessionVisible store access sessionId = true
  · have hres : respond store access (.relatedRuns sessionId selected) =
        some (.relatedRuns sessionId ((relatedRunDetails store access selected).map relatedRunJson)) := by
      rw [respond, handleSessionRelatedRuns, if_pos hvis]
      rfl
    rw [discreet_iff store access hres, Response.links, fine_append, fine_flatMap, List.forall_mem_map,
      fine_sessionLink session_field]
    constructor
    · rintro ⟨_, h⟩ _ detail hdet
      exact (relatedRun_iff store access hdet).mp (h detail hdet)
    intro h
    refine ⟨fun session hses => Option.some.inj hses ▸ hvis, fun detail hdet => ?_⟩
    exact (relatedRun_iff store access hdet).mpr (h hvis detail hdet)
  have hres : respond store access (.relatedRuns sessionId selected) = none := by
    rw [respond, handleSessionRelatedRuns, if_neg hvis]
    rfl
  exact iff_of_true (discreet_of_none store access hres) fun h => absurd h hvis

theorem message_iff (hvis : sessionVisible store access sessionId = true) {rows : List Joined}
    (hrow : row.1.sessionId = sessionId) :
    Fine store access (messageJson store access rows row).links ↔ ∀ tool ∈ row.2,
      optionAccepts store access .session tool.childSessionId ∧
        ∀ target ∈ runTargetOf store access rows tool, accepts store access (.run target.kind target.runId) = true := by
  have hchi : "child_session_id" ∈ linkFields := by decide
  have htar : "run_target" ∈ linkFields := by decide
  have hses : ∀ session ∈ some row.1.sessionId, sessionVisible store access session = true := by
    rintro session hses
    rw [← Option.some.inj hses, hrow]
    exact hvis
  rw [Message.links, fine_append, fine_flatMap, fine_sessionLink session_field]
  cases htool : row.2 with
  | none => simpa [messageJson, htool] using hses
  | some tool =>
    simp only [messageJson, htool, map_some, toList_some, forall_mem_singleton, ToolSummary.links,
      fine_append, fine_sessionLink hchi]
    have hrun : Fine store access ((runTargetOf store access rows tool).toList.map fun target =>
        ⟨"run_target", .run target.kind target.runId⟩) ↔
        ∀ target ∈ runTargetOf store access rows tool, accepts store access (.run target.kind target.runId) = true := by
      cases runTargetOf store access rows tool with
      | none => simp
      | some target => simp [fine_single htar]
    rw [hrun]
    constructor
    · rintro ⟨_, hrest⟩ _ hmem
      rw [← Option.some.inj hmem]
      exact hrest
    · intro h
      exact ⟨hses, h tool rfl⟩

theorem messages_iff (sessionId : String) (window : Window) :
    Discreet store access (.messages sessionId window) ↔ Covered store access (.messages sessionId window) := by
  by_cases hvis : sessionVisible store access sessionId = true
  · have hres : respond store access (.messages sessionId window) = some (.messages sessionId
        ((messagePage store sessionId window).map (messageJson store access (messagePage store sessionId window)))) := by
      rw [respond, handleSessionMessages, if_pos hvis]
      rfl
    have hrows : ∀ row ∈ messagePage store sessionId window, row.1.sessionId = sessionId :=
      fun row hrow => sessionId_of_joined (mem_messagePage hrow)
    rw [discreet_iff store access hres, Response.links, fine_append, fine_flatMap, List.forall_mem_map,
      fine_sessionLink session_field]
    constructor
    · rintro ⟨_, h⟩ _ row hrow
      exact (message_iff store access hvis (hrows row hrow)).mp (h row hrow)
    intro h
    refine ⟨fun session hses => Option.some.inj hses ▸ hvis, fun row hrow => ?_⟩
    exact (message_iff store access hvis (hrows row hrow)).mpr (h hvis row hrow)
  have hres : respond store access (.messages sessionId window) = none := by
    rw [respond, handleSessionMessages, if_neg hvis]
    rfl
  exact iff_of_true (discreet_of_none store access hres) fun h => absurd h hvis

theorem toolInvocation_iff (toolId : String) :
    Discreet store access (.toolInvocation toolId) ↔ Covered store access (.toolInvocation toolId) := by
  have hchi : "child_session_id" ∈ linkFields := by decide
  cases htool : visibleTool store access toolId with
  | none =>
    have hres : respond store access (.toolInvocation toolId) = none := by
      rw [respond, handleToolInvocation, htool]
      rfl
    exact iff_of_true (discreet_of_none store access hres) (by simp [Covered, htool])
  | some tool =>
    have hres : respond store access (.toolInvocation toolId) = some (.toolInvocation ⟨toolId, link (some tool.sessionId),
        link tool.workflowRunId, link tool.taskRunId, link tool.eventDeliveryId, link tool.childSessionId⟩) := by
      rw [respond, handleToolInvocation, htool]
      rfl
    have hvis : sessionVisible store access tool.sessionId = true := (filter_eq_some_iff.mp htool).2
    have hses : ∀ session ∈ link (some tool.sessionId), sessionVisible store access session = true := by
      intro session hmem
      rw [← Option.some.inj (mem_link hmem)]
      exact hvis
    rw [discreet_iff store access hres, Response.links]
    simp only [fine_append, fine_sessionLink session_field, fine_sessionLink hchi, fine_otherLink (by decide : "workflow_run_id" ∉ linkFields),
      fine_otherLink (by decide : "scheduled_run_id" ∉ linkFields), fine_otherLink (by decide : "event_delivery_id" ∉ linkFields),
      and_true, Covered, htool]
    constructor
    · rintro ⟨_, h⟩ _ hmem
      rw [← Option.some.inj hmem]
      exact h
    · intro h
      exact ⟨hses, h tool rfl⟩

theorem visible_of_link {value : Option String} : ∀ session ∈ visibleSessionLink store access value,
    sessionVisible store access session = true :=
  fun _ h => (filter_eq_some_iff.mp h).2

theorem scheduledRun_discreet (runId : String) : Discreet store access (.scheduledRun runId) := by
  intro response hres
  obtain ⟨detail, hdet, rfl⟩ := map_eq_some_iff.mp hres
  change Fine store access _
  rw [handleScheduledRun, bind_eq_bind, bind_eq_some_iff] at hdet
  obtain ⟨run, _, hdet⟩ := hdet
  obtain ⟨_, hdet⟩ := ite_none_right_eq_some.mp hdet
  cases hdet
  exact (fine_sessionLink session_field).mpr (visible_of_link store access)

theorem workflowRun_discreet (run : WorkflowRun) : Discreet store access (.workflowRun run) := by
  have hchi : "child_session_id" ∈ linkFields := by decide
  have htra : "trace" ∈ linkFields := by decide
  intro response hres
  obtain ⟨detail, hdet, rfl⟩ := map_eq_some_iff.mp hres
  change Fine store access _
  obtain ⟨_, hdet⟩ := ite_none_right_eq_some.mp hdet
  cases hdet
  rw [Response.links, fine_append, fine_flatMap, fine_flatMap]
  refine ⟨fun step hstep => ?_, fun step hstep => ?_⟩
  · obtain ⟨raw, _, rfl⟩ := mem_map.mp hstep
    exact (fine_sessionLink hchi).mpr (visible_of_link store access)
  rw [fine_sessionLink htra]
  intro session hses
  obtain ⟨step', hstep', hid⟩ := mem_filterMap.mp (mem_visible_of_safeTrace hstep hses)
  obtain ⟨raw, _, rfl⟩ := mem_map.mp hstep'
  exact visible_of_link store access session hid

theorem downstreamTarget_accepts {delivery : Delivery} {sessionId : Option String} {target : DownstreamTarget}
    (hses : ∀ session ∈ sessionId, sessionVisible store access session = true)
    (h : downstreamTarget store access delivery sessionId = some target) : accepts store access target.link = true := by
  rw [downstreamTarget] at h
  split at h
  · rw [bind_eq_bind, bind_eq_some_iff] at h
    obtain ⟨run, hrun, h⟩ := h
    obtain ⟨hvis, h⟩ := ite_none_right_eq_some.mp h
    cases h
    simp [DownstreamTarget.link, accepts, runAcl, workflowRunAcl, hrun, hvis]
  split at h
  · rw [bind_eq_bind, bind_eq_some_iff] at h
    obtain ⟨run, hrun, h⟩ := h
    obtain ⟨hvis, h⟩ := ite_none_right_eq_some.mp h
    cases h
    simp [DownstreamTarget.link, accepts, runAcl, scheduledRunAcl, hrun, hvis]
  · obtain ⟨session, hmem, rfl⟩ := map_eq_some_iff.mp h
    exact hses session (mem_link hmem)

theorem delivery_discreet (delivery : Delivery) : Discreet store access (.delivery delivery) := by
  intro response hres
  obtain ⟨detail, hdet, rfl⟩ := map_eq_some_iff.mp hres
  change Fine store access _
  obtain ⟨_, hdet⟩ := ite_none_right_eq_some.mp hdet
  cases hdet
  have hses : ∀ session ∈ visibleSessionLink store access delivery.sessionId,
      sessionVisible store access session = true := visible_of_link store access
  rw [Response.links]
  simp only [fine_append, fine_sessionLink session_field, fine_otherLink (by decide : "workflow_run_id" ∉ linkFields),
    fine_otherLink (by decide : "task_run_id" ∉ linkFields), and_true]
  refine ⟨hses, fun linked hmem _ => ?_⟩
  obtain ⟨target, htar, rfl⟩ := mem_map.mp hmem
  exact downstreamTarget_accepts store access hses (mem_toList.mp htar)

/-- A request is answered with links to what the caller may see, exactly where the rows of its page link nothing else. -/
theorem discreet_iff_covered (request : Request) : Discreet store access request ↔ Covered store access request := by
  cases request with
  | history selectedIds => exact history_iff store access selectedIds
  | relatedRuns sessionId selected => exact relatedRuns_iff store access sessionId selected
  | messages sessionId window => exact messages_iff store access sessionId window
  | toolInvocation toolId => exact toolInvocation_iff store access toolId
  | scheduledRun runId => exact iff_of_true (scheduledRun_discreet store access runId) trivial
  | workflowRun run => exact iff_of_true (workflowRun_discreet store access run) trivial
  | delivery delivery => exact iff_of_true (delivery_discreet store access delivery) trivial

end Handlers

section Leak

abbrev ownersOnly : Foundations where
  resourceIsVisible _ acl access :=
    acl.visibility = "installation_shared" || acl.ownerPrincipalId.any fun owner => access.principalIds.contains owner
  loads _ := none

def sharedRun : Store where
  sessions := [⟨"private", "home", some "alice", "private", 1, false⟩]
  activities :=
    [⟨"a1", "home", "scheduled_run", "scheduled_run", "r1", none, "installation_shared", 1, false, some "success", some "private"⟩]
  distinct := List.nodup_singleton _

def bob : AccessContext := ⟨"home", "bob", "user", "bob", "device", ["bob"], []⟩

/-- The history names a session that the caller may not see. -/
theorem history_links_private_session : ¬∀ (store : Store) (access : AccessContext) (request : Request),
    @Discreet ownersOnly store access request := by
  intro hall
  let _ := ownersOnly
  have hlin : (⟨"session_id", .session "private"⟩ : Linked) ∈
      (Response.history (handleHistory sharedRun bob ["a1"])).links := mem_singleton_self _
  cases hall sharedRun bob (.history ["a1"]) _ rfl _ hlin session_field

end Leak

end OpenAgent.Gateway.Operational
