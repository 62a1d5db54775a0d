import OpenAgent.App.SearchFlags

namespace OpenAgent.App.Search

open Py Option

/-- A step that leaves no flag without its request: no filter changes under a search, the capabilities arrive before the
generation moves on, and no failure is passed over by its handler. -/
def Settles (s : Store) : Event → Prop
  | .setScope _ | .setStatuses _ | .setErrorsOnly _ | .setPeriod _ | .clearFilters =>
    s.searchLoading = false ∧ s.searchPaginating = false
  | .capabilities id (.ok _) => ∀ call ∈ s.capability.pending.get? id,
      call.aborted = true ∨ s.requestGeneration = call.sent.generation ∨ s.capabilityLoading = false
  | .historyPage id (.error f) => ∀ call ∈ s.history.pending.get? id, f.Clean s call
  | .searchPage id (.error f) => ∀ call ∈ s.search.pending.get? id, call.aborted = true ∨ f.isAbort = false
  | _ => True

variable {trim : String → String}
variable {s t : Store}

theorem step_capabilities (hk : Kept s) {id : Nat}
    {answer : Except Failure Capabilities} (h : next trim s (.capabilities id answer) = some t) :
    Kept t ∧ (Truthful s → (Truthful t ↔ Settles s (.capabilities id answer))) := by
  obtain ⟨call, hget, rfl⟩ := map_eq_some_iff.mp h
  cases answer with
  | ok capabilities =>
    obtain ⟨hkept, hcal, htru⟩ := capability_arrived hk hget capabilities
    obtain ⟨hfin, hsame⟩ := finish_capability (Calls.not_live_settle hcal) hkept
    refine ⟨hfin, fun ht => hsame.trans ((htru ht).trans ?_)⟩
    rw [Settles, hget]
    simp
  | error f =>
    obtain ⟨hkept, hcal, htru⟩ := capability_failed hk hget f
    obtain ⟨hfin, hsame⟩ := finish_capability (Calls.not_live_settle hcal) hkept
    exact ⟨hfin, fun ht => iff_of_true (hsame.mpr (htru ht)) trivial⟩

theorem step_historyPage (hk : Kept s) {id : Nat}
    {answer : Except Failure HistoryPage} (h : next trim s (.historyPage id answer) = some t) :
    Kept t ∧ (Truthful s → (Truthful t ↔ Settles s (.historyPage id answer))) := by
  obtain ⟨call, hget, rfl⟩ := map_eq_some_iff.mp h
  cases answer with
  | ok page =>
    obtain ⟨hkept, hcal, htru⟩ := history_arrived hk hget page
    obtain ⟨hfin, hsame⟩ := finish_history (Calls.not_live_settle hcal) hkept
    exact ⟨hfin, fun ht => iff_of_true (hsame.mpr (htru ht)) trivial⟩
  | error f =>
    obtain ⟨hkept, hgone, htru⟩ := history_failed hk hget f
    obtain ⟨hfin, hsame⟩ := finish_history hgone hkept
    refine ⟨hfin, fun ht => hsame.trans ((htru ht).trans ?_)⟩
    rw [Settles, hget]
    simp

theorem step_searchPage (hk : Kept s) {id : Nat}
    {answer : Except Failure SearchPage} (h : next trim s (.searchPage id answer) = some t) :
    Kept t ∧ (Truthful s → (Truthful t ↔ Settles s (.searchPage id answer))) := by
  obtain ⟨call, hget, rfl⟩ := map_eq_some_iff.mp h
  cases answer with
  | ok page =>
    obtain ⟨hkept, hcal, htru⟩ := search_arrived hk hget page
    obtain ⟨hfin, hsame⟩ := finish_search (Calls.not_live_settle hcal) hkept
    exact ⟨hfin, fun ht => iff_of_true (hsame.mpr (htru ht)) trivial⟩
  | error f =>
    obtain ⟨hkept, hcal, htru⟩ := search_failed hk hget f
    obtain ⟨hfin, hsame⟩ := finish_search (Calls.not_live_settle hcal) hkept
    refine ⟨hfin, fun ht => hsame.trans ((htru ht).trans ?_)⟩
    rw [Settles, hget]
    simp

theorem step_refilter (hk : Kept s) {query : Query} (h : t = s.refilter query) :
    Kept t ∧ (Truthful s → (Truthful t ↔ s.searchLoading = false ∧ s.searchPaginating = false)) := by
  rw [h]
  exact ⟨kept_refilter hk query, fun ht => truthful_refilter hk ht query⟩

theorem step_sound {e : Event} (hk : Kept s) (h : next trim s e = some t) :
    Kept t ∧ (Truthful s → (Truthful t ↔ Settles s e)) := by
  cases e with
  | initializeAccount accountId force =>
    cases h
    exact ⟨kept_initializeAccount hk accountId force, fun ht => iff_of_true (truthful_initializeAccount ht accountId force) trivial⟩
  | setHistoryKinds kinds =>
    cases h
    obtain ⟨hcap, hsea⟩ := setHistoryKinds_lanes s kinds
    exact ⟨hk.ofHistory hcap hsea (setHistoryKinds_kept hk.history kinds),
      fun ht => iff_of_true (ht.ofHistory hcap hsea (setHistoryKinds_truthful ht.history kinds)) trivial⟩
  | loadHistory reset =>
    cases h
    exact ⟨kept_loadHistory hk reset, fun ht => iff_of_true (truthful_loadHistory ht reset) trivial⟩
  | setDraft draft =>
    cases h
    exact ⟨kept_setDraft hk draft, fun ht => iff_of_true (truthful_setDraft ht draft) trivial⟩
  | setScope scope =>
    cases h
    rw [Settles, Store.setScope]
    split
    · exact step_refilter hk rfl
    · exact step_refilter hk rfl
  | setStatuses _ | setErrorsOnly _ | setPeriod _ | clearFilters =>
    cases h
    exact step_refilter hk rfl
  | executeSearch now =>
    cases h
    exact ⟨kept_executeSearch hk now, fun ht => iff_of_true (truthful_executeSearch ht now) trivial⟩
  | loadMoreSearch now =>
    cases h
    exact ⟨kept_loadMoreSearch hk now, fun ht => iff_of_true (truthful_loadMoreSearch ht now) trivial⟩
  | acceptUpdatedResults now =>
    cases h
    have hkept : Kept { s with resultsUpdated := false, searchCursor := none, searchHasMore := false } :=
      ⟨hk.capability, hk.history, hk.search⟩
    have htru : Truthful s → Truthful { s with resultsUpdated := false, searchCursor := none, searchHasMore := false } :=
      fun ht => ⟨ht.capability, ht.history, ht.search⟩
    exact ⟨kept_executeSearch hkept now, fun ht => iff_of_true (truthful_executeSearch (htru ht) now) trivial⟩
  | clear =>
    cases h
    exact ⟨kept_cleared hk none, fun ht => iff_of_true (truthful_cleared s none) trivial⟩
  | capabilities id answer => exact step_capabilities hk h
  | historyPage id answer => exact step_historyPage hk h
  | searchPage id answer => exact step_searchPage hk h

structure Store.Quiet (s : Store) : Prop where
  capability : ∀ id a, s.capability.Live id a → s.accountId ≠ some a.accountId
  history : ∀ id a, s.history.Live id a → s.historyKey.accountId ≠ a.key.accountId
  search : ∀ id a, s.search.Live id a → s.accountId ≠ a.accountId

structure Store.Idle (s : Store) : Prop where
  capabilityLoading : s.capabilityLoading = false
  historyLoading : s.historyLoading = false
  historyPaginating : s.historyPaginating = false
  searchLoading : s.searchLoading = false
  searchPaginating : s.searchPaginating = false

theorem down_of_none {α : Type} {c : Calls α} {flag : Bool} (h : flag = true → ∃ id a, c.Live id a)
    (hnone : ∀ id a, ¬ c.Live id a) : flag = false := by
  by_contra hflag
  obtain ⟨id, a, hl⟩ := h (by simpa using hflag)
  exact hnone id a hl

theorem Truthful.idle (hk : Kept s) (ht : Truthful s) (hq : s.Quiet) : s.Idle := by
  have hcap : s.capabilityLoading = false :=
    down_of_none ht.capability fun id a hl => hq.capability id a hl (hk.capability.account id a hl)
  have hhis : (s.historyLoading || s.historyPaginating) = false := by
    refine down_of_none ht.history fun id a hl => hq.history id a hl ?_
    rw [hk.history.current id a hl]
    rfl
  have hsea : (s.searchLoading || s.searchPaginating) = false :=
    down_of_none ht.search fun id a hl => hq.search id a hl (hk.search.current id a hl).2.2.symm
  rw [Bool.or_eq_false_iff] at hhis hsea
  exact ⟨hcap, hhis.1, hhis.2, hsea.1, hsea.2⟩

def Stale (s : Store) : Event → Prop
  | .capabilities id _ => ∀ call ∈ s.capability.pending.get? id, s.accountId ≠ some call.sent.accountId
  | .historyPage id _ => ∀ call ∈ s.history.pending.get? id,
      call.sent.key.accountId ≠ s.accountId.getD "" ∨ call.sent.key.kinds ≠ normalizeHistoryKinds s.historyKinds
  | .searchPage id _ => ∀ call ∈ s.search.pending.get? id,
      call.sent.accountId ≠ s.accountId ∨ call.sent.query ≠ s.query ∨ call.sent.generation ≠ s.requestGeneration
  | _ => False

theorem stale_unchanged {e : Event} (hk : Kept s) (hsta : Stale s e) (h : next trim s e = some t) :
    t.historyItems = s.historyItems ∧ t.results = s.results := by
  cases e with
  | capabilities id answer =>
    obtain ⟨call, hget, rfl⟩ := map_eq_some_iff.mp h
    have hacc : s.accountId ≠ some call.sent.accountId := hsta call hget
    cases answer with
    | ok capabilities =>
      dsimp only
      rw [Store.capabilitiesArrived, if_pos (.inl hacc)]
      exact ⟨rfl, rfl⟩
    | error f =>
      dsimp only
      rw [Store.capabilitiesFailed, if_pos (.inr hacc)]
      exact ⟨rfl, rfl⟩
  | historyPage id answer =>
    obtain ⟨call, hget, rfl⟩ := map_eq_some_iff.mp h
    have hkey : call.sent.key ≠ s.historyKey := by
      intro he
      rcases hsta call hget with hne | hne
      · exact hne (congrArg HistoryKey.accountId he)
      · exact hne (congrArg HistoryKey.kinds he)
    cases answer with
    | ok page =>
      dsimp only
      rw [Store.historyArrived, if_pos (.inr hkey)]
      exact ⟨rfl, rfl⟩
    | error f =>
      dsimp only
      rw [Store.historyFailed]
      split
      · exact ⟨rfl, rfl⟩
      split
      · exact ⟨rfl, rfl⟩
      · next hsame => exact absurd (not_not.mp hsame) hkey
  | searchPage id answer =>
    obtain ⟨call, hget, rfl⟩ := map_eq_some_iff.mp h
    -- a request that counts is the one of the query and the account in the store
    have hvoid : call.aborted = true ∨ s.requestGeneration ≠ call.sent.generation := by
      by_contra hcou
      rw [not_or, Bool.not_eq_true, not_not] at hcou
      obtain ⟨-, hque, hacc⟩ := hk.search.current id _ (live_of_not_aborted hget hcou.1)
      rcases hsta call hget with hne | hne | hne
      · exact hne hacc
      · exact hne hque
      · exact hne hcou.2.symm
    cases answer with
    | ok page =>
      dsimp only
      rw [Store.searchArrived, if_pos hvoid]
      exact ⟨rfl, rfl⟩
    | error f =>
      dsimp only
      rw [Store.searchFailed]
      split_ifs
      · exact ⟨rfl, rfl⟩
      · exact ⟨rfl, rfl⟩
      · exact ⟨rfl, rfl⟩
  | _ => exact absurd hsta id

theorem kept_initial : Kept {} where
  capability := ⟨Calls.single_empty, fun _ _ hl => by cases hl⟩
  history := .idle fun _ _ hl => by cases hl
  search := .idle fun _ _ hl => by cases hl

theorem truthful_initial : Truthful {} := ⟨not_true_of_false rfl, not_true_of_false rfl, not_true_of_false rfl⟩

/-- Every flag that is up has its request exactly where no step leaves one behind; then an account that waits for nothing
has no flag up. -/
theorem flags_truthful (es : List Event) (s : Store) (h : Runs.run (next trim) {} es = some s) :
    ((∀ pre post u, es = pre ++ post → Runs.run (next trim) {} pre = some u → Truthful u) ↔
        Runs.Meets (next trim) Settles {} es) ∧
      (Runs.Meets (next trim) Settles {} es →
        ∀ pre post u, es = pre ++ post → Runs.run (next trim) {} pre = some u → u.Quiet → u.Idle) ∧
      ∀ pre e post u v, es = pre ++ e :: post → Runs.run (next trim) {} pre = some u → next trim u e = some v →
        Stale u e → v.historyItems = u.historyItems ∧ v.results = u.results := by
  have hkept : ∀ {pre u}, Runs.run (next trim) {} pre = some u → Kept u :=
    fun hr => Runs.invariant (fun _ _ _ hk he => (step_sound hk he).1) kept_initial ⟨_, hr⟩
  have hiff : (∀ pre post u, es = pre ++ post → Runs.run (next trim) {} pre = some u → Truthful u) ↔
      Runs.Meets (next trim) Settles {} es :=
    Runs.always_iff_meets (fun _ _ _ hk he => (step_sound hk he).1) (fun _ _ _ hk ht he => (step_sound hk he).2 ht)
      kept_initial truthful_initial h
  refine ⟨hiff, fun hmee pre post u hes hu hq => ?_, fun pre e post u v _ hu he hsta => ?_⟩
  · exact (hiff.mpr hmee pre post u hes hu).idle (hkept hu) hq
  · exact stale_unchanged (hkept hu) hsta he

instance Failure.clean_decidable (f : Failure) (s : Store) (call : Call HistoryCall) : Decidable (f.Clean s call) :=
  inferInstanceAs (Decidable (_ ∨ (_ ∧ (_ ∨ _ ∨ _))))

instance settles_decidable (s : Store) : (e : Event) → Decidable (Settles s e)
  | .setScope _ | .setStatuses _ | .setErrorsOnly _ | .setPeriod _ | .clearFilters => inferInstanceAs (Decidable (_ ∧ _))
  | .capabilities id (.ok _) => inferInstanceAs (Decidable (∀ call ∈ s.capability.pending.get? id, _ ∨ _ ∨ _))
  | .historyPage id (.error f) => inferInstanceAs (Decidable (∀ call ∈ s.history.pending.get? id, f.Clean s call))
  | .searchPage id (.error _) => inferInstanceAs (Decidable (∀ call ∈ s.search.pending.get? id, _ ∨ _))
  | .capabilities _ (.error _) | .historyPage _ (.ok _) | .searchPage _ (.ok _) | .initializeAccount _ _
  | .setHistoryKinds _ | .loadHistory _ | .setDraft _ | .executeSearch _ | .loadMoreSearch _ | .acceptUpdatedResults _
  | .clear => inferInstanceAs (Decidable True)

def fullCapabilities : Capabilities := ⟨some 2, some ⟨1, SEARCH_SCOPES, SEARCH_TARGET_KINDS⟩, .ready⟩

def searchRun : List Event :=
  [.initializeAccount "acct" false, .capabilities 0 (.ok fullCapabilities), .historyPage 0 (.ok ⟨[], none, false⟩),
    .setDraft "report", .executeSearch 0, .searchPage 0 (.ok ⟨[⟨"r1", "Report"⟩], none, false⟩)]

theorem not_live_of_isEmpty {α : Type} {c : Calls α} (h : c.pending.entries.isEmpty = true) (id : Nat) (a : α) :
    ¬ c.Live id a := by
  intro hl
  rw [Calls.Live, Dict.get?, List.isEmpty_iff.mp h] at hl
  cases hl

def answered (s : Store) : Bool :=
  s.capability.pending.entries.isEmpty && s.history.pending.entries.isEmpty && s.search.pending.entries.isEmpty

theorem quiet_of_answered (h : answered s = true) : s.Quiet := by
  rw [answered, Bool.and_eq_true, Bool.and_eq_true] at h
  obtain ⟨⟨hcap, hhis⟩, hsea⟩ := h
  exact ⟨fun id a hl => absurd hl (not_live_of_isEmpty hcap id a),
    fun id a hl => absurd hl (not_live_of_isEmpty hhis id a),
    fun id a hl => absurd hl (not_live_of_isEmpty hsea id a)⟩

theorem searchRun_idle : ∃ s, Runs.run (next id) {} searchRun = some s ∧ s.Idle := by
  have hrun : (Runs.run (next id) {} searchRun).any answered = true := by decide +kernel
  obtain ⟨s, hs, hend⟩ := (any_eq_true _ _).mp hrun
  have hall : Runs.all (fun s e => decide (Settles s e)) (next id) {} searchRun = true := by decide +kernel
  exact ⟨s, hs, (flags_truthful searchRun s hs).2.1 (Runs.meets_of_all (fun _ _ => of_decide_eq_true) hall)
    searchRun [] s (List.append_nil _).symm hs (quiet_of_answered hend)⟩

def scopeRun : List Event :=
  [.initializeAccount "acct" false, .capabilities 0 (.ok fullCapabilities), .historyPage 0 (.ok ⟨[], none, false⟩),
    .executeSearch 0, .setScope (some .tools), .searchPage 0 (.error .abortError)]

theorem scope_change_sticks : ¬ ∀ (es : List Event) (s : Store), Runs.run (next id) {} es = some s → s.Quiet →
    s.Idle := by
  intro hcla
  have hrun : (Runs.run (next id) {} scopeRun).any (fun s => s.searchLoading && answered s) = true := by
    decide +kernel
  obtain ⟨s, hs, hend⟩ := (any_eq_true _ _).mp hrun
  obtain ⟨hloa, hans⟩ := (Bool.and_eq_true _ _).mp hend
  have hdown := (hcla scopeRun s hs (quiet_of_answered hans)).searchLoading
  rw [hloa] at hdown
  cases hdown

end OpenAgent.App.Search
