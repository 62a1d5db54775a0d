import OpenAgent.App.SearchStore

namespace OpenAgent.App.Search

open Py Calls Store

structure CapabilityLane where
  calls : Calls CapabilityCall
  accountId : Option String
  loading : Bool

structure HistoryLane where
  calls : Calls HistoryCall
  key : HistoryKey
  kinds : List ActivityKind
  accountId : Option String
  loading : Bool
  paginating : Bool

structure SearchLane where
  calls : Calls SearchCall
  generation : Nat
  query : Query
  accountId : Option String
  loading : Bool
  paginating : Bool

namespace Store

def capabilityLane (s : Store) : CapabilityLane := ⟨s.capability, s.accountId, s.capabilityLoading⟩

def historyLane (s : Store) : HistoryLane :=
  ⟨s.history, s.historyKey, s.historyKinds, s.accountId, s.historyLoading, s.historyPaginating⟩

def searchLane (s : Store) : SearchLane :=
  ⟨s.search, s.requestGeneration, s.query, s.accountId, s.searchLoading, s.searchPaginating⟩

end Store

structure CapabilityLane.Kept (l : CapabilityLane) : Prop where
  single : l.calls.Single
  account : ∀ id a, l.calls.Live id a → l.accountId = some a.accountId

def CapabilityLane.Truthful (l : CapabilityLane) : Prop := l.loading = true → ∃ id a, l.calls.Live id a

structure HistoryLane.Kept (l : HistoryLane) : Prop where
  single : l.calls.Single
  current : ∀ id a, l.calls.Live id a → a.key = l.key
  kinds : ∀ id a, l.calls.Live id a → l.kinds ≠ []
  flagged : ∀ id a, l.calls.Live id a → (l.loading || l.paginating) = true

def HistoryLane.Truthful (l : HistoryLane) : Prop := (l.loading || l.paginating) = true → ∃ id a, l.calls.Live id a

structure SearchLane.Kept (l : SearchLane) : Prop where
  single : l.calls.Single
  current : ∀ id a, l.calls.Live id a → a.generation = l.generation ∧ a.query = l.query ∧ a.accountId = l.accountId
  flagged : ∀ id a, l.calls.Live id a → l.loading = !a.paging ∧ l.paginating = a.paging

def SearchLane.Truthful (l : SearchLane) : Prop := (l.loading || l.paginating) = true → ∃ id a, l.calls.Live id a

theorem SearchLane.Kept.idle {l : SearchLane} (h : ∀ id a, ¬ l.calls.Live id a) : l.Kept :=
  ⟨single_of_none h, fun id a hl => absurd hl (h id a), fun id a hl => absurd hl (h id a)⟩

theorem HistoryLane.Kept.idle {l : HistoryLane} (h : ∀ id a, ¬ l.calls.Live id a) : l.Kept :=
  ⟨single_of_none h, fun id a hl => absurd hl (h id a), fun id a hl => absurd hl (h id a),
    fun id a hl => absurd hl (h id a)⟩

theorem not_true_of_false {b : Bool} (h : b = false) {p : Prop} : b = true → p := by
  rw [h]
  exact fun hb => by cases hb

theorem loadHistory_cases (s : Store) (reset : Bool) : s.loadHistory reset = s ∨
    (s.historyKinds = [] ∧ s.loadHistory reset = { s with
      historyItems := []
      historyCursor := none
      historyHasMore := false
      historyLoading := false
      historyPaginating := false }) ∨
    ((s.historyKinds ≠ [] ∧ s.underWay reset = false) ∧ ∃ cursor, s.loadHistory reset = { s with
      history := s.history.abort.start ⟨reset, s.historyKey, cursor⟩
      historyLoading := reset || s.historyLoading
      historyPaginating := !reset || s.historyPaginating }) := by
  rw [loadHistory]
  split
  · exact .inl rfl
  split
  · next hkin => exact .inr (.inl ⟨hkin, rfl⟩)
  next hkin =>
    split
    · exact .inl rfl
    next hfree =>
    split
    · exact .inl rfl
    · refine .inr (.inr ⟨⟨hkin, Bool.eq_false_iff.mpr hfree⟩, if reset then none else s.historyCursor, ?_⟩)
      cases reset <;> rfl

theorem loadHistory_lanes (s : Store) (reset : Bool) : (s.loadHistory reset).capabilityLane = s.capabilityLane ∧
    (s.loadHistory reset).searchLane = s.searchLane := by
  obtain h | ⟨-, h⟩ | ⟨-, cursor, h⟩ := loadHistory_cases s reset
  · rw [h]
    exact ⟨rfl, rfl⟩
  · rw [h]
    exact ⟨rfl, rfl⟩
  · rw [h]
    exact ⟨rfl, rfl⟩

variable {s : Store}

theorem loadHistory_kept (h : s.historyLane.Kept) (reset : Bool) : (s.loadHistory reset).historyLane.Kept := by
  obtain he | ⟨hkin, he⟩ | ⟨⟨hkin, -⟩, cursor, he⟩ := loadHistory_cases s reset
  · rw [he]
    exact h
  · rw [he]
    exact .idle fun id a hl => h.kinds id a hl hkin
  rw [he]
  refine ⟨h.single.start _, fun id a hl => ?_, fun _ _ _ => hkin, fun _ _ _ => ?_⟩
  · rcases live_start.mp hl with ⟨-, rfl⟩ | hl
    · rfl
    · exact absurd hl (h.single.abort id a)
  · cases reset <;> simp [historyLane]

/-- Nothing that is loaded is left without a request, and the reload takes whatever flag was up. -/
theorem loadHistory_truthful (h : s.historyLane.Truthful) (reset : Bool) :
    (s.loadHistory reset).historyLane.Truthful := by
  obtain he | ⟨-, he⟩ | ⟨-, cursor, he⟩ := loadHistory_cases s reset
  · rw [he]
    exact h
  · rw [he]
    exact not_true_of_false rfl
  · rw [he]
    exact fun _ => ⟨_, _, live_start.mpr (.inl ⟨rfl, rfl⟩)⟩

theorem setHistoryKinds_lanes (s : Store) (kinds : List ActivityKind) :
    (s.setHistoryKinds kinds).capabilityLane = s.capabilityLane ∧
      (s.setHistoryKinds kinds).searchLane = s.searchLane := by
  rw [setHistoryKinds]
  dsimp only
  split_ifs
  · exact ⟨rfl, rfl⟩
  · exact loadHistory_lanes _ true
  · exact ⟨rfl, rfl⟩

theorem setHistoryKinds_kept (h : s.historyLane.Kept) (kinds : List ActivityKind) :
    (s.setHistoryKinds kinds).historyLane.Kept := by
  rw [setHistoryKinds]
  dsimp only
  split_ifs
  · exact h
  · refine loadHistory_kept ?_ true
    exact .idle h.single.abort
  · exact .idle h.single.abort

theorem setHistoryKinds_truthful (h : s.historyLane.Truthful) (kinds : List ActivityKind) :
    (s.setHistoryKinds kinds).historyLane.Truthful := by
  rw [setHistoryKinds]
  dsimp only
  split_ifs
  · exact h
  · refine loadHistory_truthful ?_ true
    exact not_true_of_false rfl
  · exact not_true_of_false rfl

structure Kept (s : Store) : Prop where
  capability : s.capabilityLane.Kept
  history : s.historyLane.Kept
  search : s.searchLane.Kept

structure Truthful (s : Store) : Prop where
  capability : s.capabilityLane.Truthful
  history : s.historyLane.Truthful
  search : s.searchLane.Truthful

variable {t : Store}

theorem Kept.ofHistory (h : Kept s) (hc : t.capabilityLane = s.capabilityLane)
    (hs : t.searchLane = s.searchLane) (hh : t.historyLane.Kept) : Kept t :=
  ⟨hc ▸ h.capability, hh, hs ▸ h.search⟩

theorem Truthful.ofHistory (h : Truthful s) (hc : t.capabilityLane = s.capabilityLane)
    (hs : t.searchLane = s.searchLane) (hh : t.historyLane.Truthful) : Truthful t :=
  ⟨hc ▸ h.capability, hh, hs ▸ h.search⟩

theorem kept_loadHistory (h : Kept s) (reset : Bool) : Kept (s.loadHistory reset) :=
  h.ofHistory (loadHistory_lanes s reset).1 (loadHistory_lanes s reset).2 (loadHistory_kept h.history reset)

theorem truthful_loadHistory (h : Truthful s) (reset : Bool) : Truthful (s.loadHistory reset) :=
  h.ofHistory (loadHistory_lanes s reset).1 (loadHistory_lanes s reset).2 (loadHistory_truthful h.history reset)

theorem kept_cleared (h : Kept s) (accountId : Option String) : Kept (s.cleared accountId) where
  capability := ⟨single_of_none h.capability.single.abort,
    fun id a hl => absurd hl (h.capability.single.abort id a)⟩
  history := .idle h.history.single.abort
  search := .idle h.search.single.abort

theorem truthful_cleared (s : Store) (accountId : Option String) : Truthful (s.cleared accountId) :=
  ⟨not_true_of_false rfl, not_true_of_false rfl, not_true_of_false rfl⟩

theorem kept_initializeAccount (h : Kept s) (accountId : String) (force : Bool) :
    Kept (s.initializeAccount accountId force) := by
  have hlane : ∀ (calls : Calls CapabilityCall) (a : CapabilityCall) (account : Option String),
      (∀ id b, ¬ calls.Live id b) → account = some a.accountId →
        CapabilityLane.Kept ⟨calls.start a, account, true⟩ := by
    intro calls a account hnone ha
    refine ⟨single_start hnone a, fun id b hl => ?_⟩
    rcases live_start.mp hl with ⟨-, rfl⟩ | hl
    · exact ha
    · exact absurd hl (hnone id b)
  rw [initializeAccount]
  split_ifs with hrea hload hsame hfor
  · exact kept_loadHistory h true
  · exact h
  · exact ⟨hlane _ _ _ h.capability.single.abort (of_decide_eq_true hsame), .idle h.history.single.abort,
      .idle h.search.single.abort⟩
  · exact ⟨hlane _ _ _ h.capability.single.abort (of_decide_eq_true hsame), h.history, h.search⟩
  · have hkept := kept_cleared h (some accountId)
    exact ⟨hlane _ _ _ h.capability.single.abort rfl, hkept.history, hkept.search⟩

theorem truthful_initializeAccount (h : Truthful s) (accountId : String) (force : Bool) :
    Truthful (s.initializeAccount accountId force) := by
  rw [initializeAccount]
  split_ifs with hrea hload hsame hfor
  · exact truthful_loadHistory h true
  · exact h
  · exact ⟨fun _ => ⟨_, _, live_start.mpr (.inl ⟨rfl, rfl⟩)⟩, not_true_of_false rfl, not_true_of_false rfl⟩
  · exact ⟨fun _ => ⟨_, _, live_start.mpr (.inl ⟨rfl, rfl⟩)⟩, h.history, h.search⟩
  · exact ⟨fun _ => ⟨_, _, live_start.mpr (.inl ⟨rfl, rfl⟩)⟩, not_true_of_false rfl, not_true_of_false rfl⟩

theorem kept_refilter (h : Kept s) (query : Query) : Kept (s.refilter query) :=
  ⟨h.capability, h.history, .idle h.search.single.abort⟩

theorem truthful_refilter (hkept : Kept s) (h : Truthful s) (query : Query) :
    Truthful (s.refilter query) ↔ s.searchLoading = false ∧ s.searchPaginating = false := by
  rw [← Bool.or_eq_false_iff]
  constructor
  · intro ht
    by_contra hflag
    obtain ⟨id, a, hl⟩ := ht.search (Bool.not_eq_false _ ▸ hflag)
    exact hkept.search.single.abort id a hl
  · exact fun hflag => ⟨h.capability, h.history, not_true_of_false hflag⟩

theorem kept_setDraft (h : Kept s) (draft : String) : Kept (s.setDraft draft) :=
  ⟨h.capability, h.history, .idle h.search.single.abort⟩

theorem truthful_setDraft (h : Truthful s) (draft : String) : Truthful (s.setDraft draft) :=
  ⟨h.capability, h.history, not_true_of_false rfl⟩

variable {trim : String → String}

theorem kept_executeSearch (h : Kept s) (now : Int) : Kept (s.executeSearch trim now) := by
  rw [executeSearch]
  split_ifs
  · exact ⟨h.capability, h.history, .idle h.search.single.abort⟩
  · exact h
  refine ⟨h.capability, h.history, h.search.single.start _, fun id a hl => ?_, fun id a hl => ?_⟩
  all_goals
    rcases live_start.mp hl with ⟨-, rfl⟩ | hl
    · exact ⟨rfl, by first | rfl | exact ⟨rfl, rfl⟩⟩
    · exact absurd hl (h.search.single.abort id a)

theorem truthful_executeSearch (h : Truthful s) (now : Int) : Truthful (s.executeSearch trim now) := by
  rw [executeSearch]
  split_ifs
  · exact ⟨h.capability, h.history, not_true_of_false rfl⟩
  · exact h
  · exact ⟨h.capability, h.history, fun _ => ⟨_, _, live_start.mpr (.inl ⟨rfl, rfl⟩)⟩⟩

theorem kept_loadMoreSearch (h : Kept s) (now : Int) : Kept (s.loadMoreSearch trim now) := by
  rw [loadMoreSearch]
  split
  · exact h
  split_ifs with hbusy hoth
  · exact h
  · exact h
  -- where no flag is up, no request counts that could be overwritten
  have hfla : s.searchLoading = false ∧ s.searchPaginating = false := by
    simp only [Bool.or_eq_true, not_or, Bool.not_eq_true] at hbusy
    exact ⟨hbusy.1.1.1, hbusy.1.1.2⟩
  have hnone : ∀ id a, ¬ s.search.Live id a := by
    intro id a hl
    obtain ⟨hloa, hpag⟩ := h.search.flagged id a hl
    have hfal : (!a.paging) = false := hloa.symm.trans hfla.1
    have hpagi : a.paging = false := hpag.symm.trans hfla.2
    rw [hpagi] at hfal
    cases hfal
  refine ⟨h.capability, h.history, single_start hnone _, fun id a hl => ?_, fun id a hl => ?_⟩
  all_goals rcases live_start.mp hl with ⟨-, rfl⟩ | hl
  · exact ⟨rfl, rfl, rfl⟩
  · exact absurd hl (hnone id a)
  · exact ⟨hfla.1, rfl⟩
  · exact absurd hl (hnone id a)

theorem truthful_loadMoreSearch (h : Truthful s) (now : Int) : Truthful (s.loadMoreSearch trim now) := by
  rw [loadMoreSearch]
  split
  · exact h
  split_ifs
  · exact h
  · exact h
  · exact ⟨h.capability, h.history, fun _ => ⟨_, _, live_start.mpr (.inl ⟨rfl, rfl⟩)⟩⟩

variable {own : Nat}

theorem truthful_of_aborted {α : Type} {c : Calls α} {call : Call α}
    (hget : c.pending.get? own = some call) (habo : call.aborted = true) {flag : Bool}
    (h : flag = true → ∃ id a, c.Live id a) : flag = true → ∃ id a, (c.settle own).Live id a := by
  intro hflag
  obtain ⟨id, a, hl⟩ := h hflag
  exact ⟨id, a, live_of_aborted hget habo hl⟩

theorem truthful_of_live {α : Type} {c : Calls α} (hs : c.Single) {call : Call α}
    (hget : c.pending.get? own = some call) (hlive : call.aborted = false) {flag : Bool} :
    (flag = true → ∃ id a, (c.settle own).Live id a) ↔ flag = false := by
  have hown : c.Live own call.sent := by
    rw [Live, hget, ← hlive]
  constructor
  · intro h
    by_contra hflag
    obtain ⟨id, a, hl⟩ := h (by simpa using hflag)
    exact hs.settle_none hown id a hl
  · exact fun hflag => not_true_of_false hflag

theorem live_of_not_aborted {α : Type} {c : Calls α} {call : Call α}
    (hget : c.pending.get? own = some call) (hlive : call.aborted = false) : c.Live own call.sent := by
  rw [Live, hget, ← hlive]

def Store.settledCapability (s : Store) (id : Nat) : Store := { s with capability := s.capability.settle id }

def Store.settledHistory (s : Store) (id : Nat) : Store := { s with history := s.history.settle id }

def Store.settledSearch (s : Store) (id : Nat) : Store := { s with search := s.search.settle id }

theorem Kept.settledCapability (h : Kept s) (id : Nat) : Kept (s.settledCapability id) where
  capability := ⟨h.capability.single.settle id, fun j a hl => h.capability.account j a (live_settle.mp hl).2⟩
  history := h.history
  search := h.search

theorem Kept.settledHistory (h : Kept s) (id : Nat) : Kept (s.settledHistory id) where
  capability := h.capability
  history := ⟨h.history.single.settle id, fun j a hl => h.history.current j a (live_settle.mp hl).2,
    fun j a hl => h.history.kinds j a (live_settle.mp hl).2,
    fun j a hl => h.history.flagged j a (live_settle.mp hl).2⟩
  search := h.search

theorem Kept.settledSearch (h : Kept s) (id : Nat) : Kept (s.settledSearch id) where
  capability := h.capability
  history := h.history
  search := ⟨h.search.single.settle id, fun j a hl => h.search.current j a (live_settle.mp hl).2,
    fun j a hl => h.search.flagged j a (live_settle.mp hl).2⟩

theorem capabilitiesArrived_cases (s : Store) (call : CapabilityCall) (capabilities : Capabilities) :
    ((s.accountId ≠ some call.accountId ∨ s.requestGeneration ≠ call.generation) ∧
        s.capabilitiesArrived call capabilities = s) ∨
      ((s.accountId = some call.accountId ∧ s.requestGeneration = call.generation) ∧ ∃ support,
        let t := { s with support, capabilities := some capabilities, capabilityLoading := false }
        s.capabilitiesArrived call capabilities = t ∨ s.capabilitiesArrived call capabilities = t.loadHistory true) := by
  rw [capabilitiesArrived]
  split
  · next hoth => exact .inl ⟨hoth, rfl⟩
  next hsame =>
    rw [not_or, not_not, not_not] at hsame
    refine .inr ⟨hsame, ?_⟩
    split
    · exact ⟨_, .inl rfl⟩
    dsimp only
    split
    · exact ⟨.v2, .inr rfl⟩
    · exact ⟨.v2, .inl rfl⟩

variable {id : Nat}

theorem capability_arrived (hk : Kept s) {call : Call CapabilityCall}
    (hget : s.capability.pending.get? id = some call) (capabilities : Capabilities) :
    let t := (s.settledCapability id).capabilitiesArrived call.sent capabilities
    Kept t ∧ t.capability = s.capability.settle id ∧ (Truthful s → (Truthful t ↔ call.aborted = true ∨
      s.requestGeneration = call.sent.generation ∨ s.capabilityLoading = false)) := by
  have hset := hk.settledCapability id
  obtain ⟨hoth, he⟩ | ⟨hsame, support, he⟩ := capabilitiesArrived_cases (s.settledCapability id) call.sent capabilities
  · rw [he]
    refine ⟨hset, rfl, fun ht => ?_⟩
    have hlane : Truthful (s.settledCapability id) ↔
        (s.capabilityLoading = true → ∃ j a, (s.capability.settle id).Live j a) :=
      ⟨fun h => h.capability, fun h => ⟨h, ht.history, ht.search⟩⟩
    rw [hlane]
    cases habo : call.aborted with
    | true => exact iff_of_true (truthful_of_aborted hget habo ht.capability) (.inl rfl)
    | false =>
      have hacc := hk.capability.account id _ (live_of_not_aborted hget habo)
      have hgen : s.requestGeneration ≠ call.sent.generation := hoth.resolve_left (fun hn => hn hacc)
      rw [truthful_of_live (c := s.capability) hk.capability.single hget habo]
      exact ⟨fun h => .inr (.inr h), fun h => (h.resolve_left (fun hf => by cases hf)).resolve_left hgen⟩
  have hkept : Kept { s.settledCapability id with
      support, capabilities := some capabilities, capabilityLoading := false } :=
    ⟨⟨hset.capability.single, hset.capability.account⟩, hset.history, hset.search⟩
  have htru : Truthful s → Truthful { s.settledCapability id with
      support, capabilities := some capabilities, capabilityLoading := false } :=
    fun ht => ⟨not_true_of_false rfl, ht.history, ht.search⟩
  rcases he with he | he
  · rw [he]
    exact ⟨hkept, rfl, fun ht => iff_of_true (htru ht) (.inr (.inl hsame.2))⟩
  rw [he]
  exact ⟨kept_loadHistory hkept true, congrArg CapabilityLane.calls (loadHistory_lanes _ true).1,
    fun ht => iff_of_true (truthful_loadHistory (htru ht) true) (.inr (.inl hsame.2))⟩

theorem capability_failed (hk : Kept s) {call : Call CapabilityCall}
    (hget : s.capability.pending.get? id = some call) (f : Failure) :
    let t := (s.settledCapability id).capabilitiesFailed call f
    Kept t ∧ t.capability = s.capability.settle id ∧ (Truthful s → Truthful t) := by
  have hset := hk.settledCapability id
  rw [capabilitiesFailed]
  split
  · next hvoid =>
      have habo : call.aborted = true := by
        by_contra hlive
        rw [Bool.not_eq_true] at hlive
        rcases hvoid with h | h
        · rw [hlive] at h
          cases h
        · exact h (hk.capability.account id _ (live_of_not_aborted hget hlive))
      exact ⟨hset, rfl, fun ht => ⟨truthful_of_aborted hget habo ht.capability, ht.history, ht.search⟩⟩
  have hkept : ∀ support, Kept { s.settledCapability id with support, capabilityLoading := false } :=
    fun _ => ⟨⟨hset.capability.single, hset.capability.account⟩, hset.history, hset.search⟩
  have htru : ∀ support, Truthful s → Truthful { s.settledCapability id with support, capabilityLoading := false } :=
    fun _ ht => ⟨not_true_of_false rfl, ht.history, ht.search⟩
  split
  · exact ⟨hkept .legacy, rfl, htru .legacy⟩
  split
  · exact ⟨hkept s.support, rfl, htru s.support⟩
  · exact ⟨hkept .error, rfl, htru .error⟩

variable {call : Call HistoryCall}

theorem history_idle (hk : Kept s)
    (hget : s.history.pending.get? id = some call) (hlive : call.aborted = false) (j : Nat) (a : HistoryCall) :
    ¬ (s.history.settle id).Live j a :=
  Single.settle_none hk.history.single (live_of_not_aborted hget hlive) j a

theorem history_void (ht : Truthful s)
    (hget : s.history.pending.get? id = some call) (habo : call.aborted = true) :
    Truthful (s.settledHistory id) :=
  ⟨ht.capability, truthful_of_aborted hget habo ht.history, ht.search⟩

theorem history_arrived (hk : Kept s)
    (hget : s.history.pending.get? id = some call) (page : HistoryPage) :
    let t := (s.settledHistory id).historyArrived call page
    Kept t ∧ t.history = s.history.settle id ∧ (Truthful s → Truthful t) := by
  rw [historyArrived]
  cases habo : call.aborted with
  | true =>
    exact ⟨hk.settledHistory id, rfl, fun ht => history_void ht hget habo⟩
  | false =>
    have hkey : call.sent.key = s.historyKey := hk.history.current id _ (live_of_not_aborted hget habo)
    rw [if_neg (by rw [not_or]; exact ⟨Bool.false_ne_true, not_not.mpr hkey⟩)]
    exact ⟨⟨hk.capability, .idle (history_idle hk hget habo), hk.search⟩, rfl,
      fun ht => ⟨ht.capability, not_true_of_false rfl, ht.search⟩⟩

def Failure.Clean (f : Failure) (s : Store) (call : Call HistoryCall) : Prop :=
  call.aborted = true ∨ (f.isAbort = false ∧
    (call.sent.reset = true ∨ f.hasCode "cursor_stale" = false ∨ s.historyLoading = false))

theorem isExplicitlyUnsupported_of_stale {f : Failure} (h : f.hasCode "cursor_stale" = true) :
    f.isExplicitlyUnsupported = false := by
  cases f with
  | api status code =>
    have hcode : code = "cursor_stale" := of_decide_eq_true h
    rw [Failure.isExplicitlyUnsupported, hcode]
    simp
  | abortError => rfl
  | other => rfl

theorem history_failed (hk : Kept s) (hget : s.history.pending.get? id = some call) (f : Failure) :
    let t := (s.settledHistory id).historyFailed call f
    Kept t ∧ (∀ a, ¬ t.history.Live id a) ∧ (Truthful s → (Truthful t ↔ f.Clean s call)) := by
  have hset := hk.settledHistory id
  have hgone : ∀ a, ¬ (s.settledHistory id).history.Live id a := not_live_settle rfl
  rw [historyFailed, Failure.Clean]
  cases habo : call.aborted with
  | true =>
    exact ⟨hset, hgone, fun ht => iff_of_true (history_void ht hget habo) (.inl rfl)⟩
  | false =>
    have hlive := live_of_not_aborted hget habo
    have hkey : call.sent.key = s.historyKey := hk.history.current id _ hlive
    have hflag : (s.historyLoading || s.historyPaginating) = true := hk.history.flagged id _ hlive
    have hidle := history_idle hk hget habo
    have hdown : ∀ t : Store, t.capabilityLane = s.capabilityLane → t.searchLane = s.searchLane →
        t.history = s.history.settle id → (t.historyLoading || t.historyPaginating) = false →
        Kept t ∧ (∀ a, ¬ t.history.Live id a) ∧ (Truthful s → Truthful t) := by
      intro t hc hs hcal hfla
      refine ⟨⟨hc ▸ hk.capability, .idle ?_, hs ▸ hk.search⟩, ?_,
        fun ht => ⟨hc ▸ ht.capability, not_true_of_false hfla, hs ▸ ht.search⟩⟩
      · intro j a hl
        rw [historyLane, hcal] at hl
        exact hidle j a hl
      · rw [hcal]
        exact hgone
    rw [Bool.false_or]
    split
    · next habor =>
        refine ⟨hset, hgone, fun _ => iff_of_false ?_ ?_⟩
        · intro h
          obtain ⟨j, a, hl⟩ := h.history hflag
          exact hidle j a hl
        · rw [habor]
          rintro (h | ⟨h, -⟩) <;> cases h
    next hoth =>
      split
      · next hnew => exact absurd hkey hnew
      split
      · next huns =>
          refine And.imp_right (And.imp_right fun htru ht => iff_of_true (htru ht)
            (.inr ⟨Bool.eq_false_iff.mpr hoth, .inr (.inl ?_)⟩)) (hdown _ rfl rfl rfl rfl)
          by_contra hsta
          rw [isExplicitlyUnsupported_of_stale (Bool.not_eq_false _ ▸ hsta)] at huns
          cases huns
      split
      · next hsta =>
          rw [Bool.and_eq_true, Bool.not_eq_true'] at hsta
          have hcle : (false = true ∨ f.isAbort = false ∧ (call.sent.reset = true ∨
              f.hasCode "cursor_stale" = false ∨ s.historyLoading = false)) ↔ s.historyLoading = false := by
            rw [hsta.1, hsta.2, Bool.eq_false_iff.mpr hoth]
            simp
          rw [hcle]
          obtain he | ⟨hkin, -⟩ | ⟨⟨-, hfree⟩, cursor, he⟩ := loadHistory_cases { s.settledHistory id with
            historyCursor := none, historyHasMore := false, historyPaginating := false } true
          · rw [he]
            refine ⟨⟨hk.capability, .idle hidle, hk.search⟩, hgone, fun ht => ?_⟩
            rw [← Bool.or_false s.historyLoading, ← truthful_of_live (c := s.history) hk.history.single hget habo]
            exact ⟨fun h => h.history, fun h => ⟨ht.capability, h, ht.search⟩⟩
          · exact absurd hkin (hk.history.kinds id _ hlive)
          have hkept : Kept { s.settledHistory id with
            historyCursor := none, historyHasMore := false, historyPaginating := false } :=
            ⟨hk.capability, .idle hidle, hk.search⟩
          have htru : Truthful s → Truthful { s.settledHistory id with
            historyCursor := none, historyHasMore := false, historyPaginating := false } :=
            fun ht => ⟨ht.capability, not_true_of_false ((Bool.or_false _).trans hfree), ht.search⟩
          refine ⟨kept_loadHistory hkept true, ?_, fun ht => iff_of_true (truthful_loadHistory (htru ht) true) hfree⟩
          rw [he]
          exact not_live_start hget hk.history.single _
      · next hfre =>
          refine And.imp_right (And.imp_right fun htru ht => iff_of_true (htru ht)
            (.inr ⟨Bool.eq_false_iff.mpr hoth, ?_⟩)) (hdown _ rfl rfl rfl rfl)
          rw [Bool.and_eq_true, not_and_or, Bool.not_eq_true', Bool.not_eq_false, Bool.not_eq_true] at hfre
          rcases hfre with h | h
          · exact .inl h
          · exact .inr (.inl h)

variable {call : Call SearchCall}

theorem search_idle (hk : Kept s)
    (hget : s.search.pending.get? id = some call) (hlive : call.aborted = false) (j : Nat) (a : SearchCall) :
    ¬ (s.search.settle id).Live j a :=
  Single.settle_none hk.search.single (live_of_not_aborted hget hlive) j a

theorem search_void (ht : Truthful s) (hget : s.search.pending.get? id = some call) (habo : call.aborted = true) :
    Truthful (s.settledSearch id) :=
  ⟨ht.capability, ht.history, truthful_of_aborted hget habo ht.search⟩

theorem search_down (hk : Kept s)
    (hget : s.search.pending.get? id = some call) (hlive : call.aborted = false)
    (hc : t.capabilityLane = s.capabilityLane) (hh : t.historyLane = s.historyLane)
    (hcal : t.search = s.search.settle id) (hloa : t.searchLoading = (call.sent.paging && s.searchLoading))
    (hpag : t.searchPaginating = (!call.sent.paging && s.searchPaginating)) :
    Kept t ∧ t.search = s.search.settle id ∧ (Truthful s → Truthful t) := by
  obtain ⟨hl, hp⟩ := hk.search.flagged id _ (live_of_not_aborted hget hlive)
  have hfla : (t.searchLoading || t.searchPaginating) = false := by
    rw [hloa, hpag, show s.searchLoading = !call.sent.paging from hl,
      show s.searchPaginating = call.sent.paging from hp]
    cases call.sent.paging <;> rfl
  refine ⟨⟨hc ▸ hk.capability, hh ▸ hk.history, .idle ?_⟩, hcal,
    fun ht => ⟨hc ▸ ht.capability, hh ▸ ht.history, not_true_of_false hfla⟩⟩
  intro j a hj
  rw [searchLane, hcal] at hj
  exact search_idle hk hget hlive j a hj

theorem search_arrived (hk : Kept s) (hget : s.search.pending.get? id = some call) (page : SearchPage) :
    let t := (s.settledSearch id).searchArrived call page
    Kept t ∧ t.search = s.search.settle id ∧ (Truthful s → Truthful t) := by
  rw [searchArrived]
  cases habo : call.aborted with
  | true =>
    exact ⟨hk.settledSearch id, rfl, fun ht => search_void ht hget habo⟩
  | false =>
    have hcur : call.sent.generation = s.requestGeneration :=
      (hk.search.current id _ (live_of_not_aborted hget habo)).1
    rw [if_neg (by rw [not_or]; exact ⟨Bool.false_ne_true, not_not.mpr hcur.symm⟩)]
    split
    · next hpag => exact search_down hk hget habo rfl rfl rfl (by rw [hpag]; rfl) (by rw [hpag]; rfl)
    · next hpag =>
        rw [Bool.not_eq_true] at hpag
        exact search_down hk hget habo rfl rfl rfl (by rw [hpag]; rfl) (by rw [hpag]; rfl)

theorem search_failed (hk : Kept s) (hget : s.search.pending.get? id = some call) (f : Failure) :
    let t := (s.settledSearch id).searchFailed call f
    Kept t ∧ t.search = s.search.settle id ∧ (Truthful s → (Truthful t ↔ call.aborted = true ∨ f.isAbort = false)) := by
  rw [searchFailed]
  cases habo : call.aborted with
  | true =>
    exact ⟨hk.settledSearch id, rfl, fun ht => iff_of_true (search_void ht hget habo) (.inl rfl)⟩
  | false =>
    have hlive := live_of_not_aborted hget habo
    have hcur : call.sent.generation = s.requestGeneration := (hk.search.current id _ hlive).1
    have hsame : decide ((s.settledSearch id).requestGeneration ≠ call.sent.generation) = false :=
      decide_eq_false (not_not.mpr hcur.symm)
    rw [Bool.false_or, hsame, Bool.or_false]
    split
    · next habor =>
        refine ⟨hk.settledSearch id, rfl, fun _ => iff_of_false ?_ ?_⟩
        · intro h
          obtain ⟨hloa, hpag⟩ := hk.search.flagged id _ hlive
          have hflag : (s.searchLoading || s.searchPaginating) = true := by
            rw [show s.searchLoading = !call.sent.paging from hloa,
              show s.searchPaginating = call.sent.paging from hpag]
            cases call.sent.paging <;> rfl
          obtain ⟨j, a, hl⟩ := h.search hflag
          exact search_idle hk hget habo j a hl
        · rw [habor]
          rintro (h | h) <;> cases h
    next hoth =>
      refine And.imp_right (And.imp_right fun (htru : _ → Truthful _) ht =>
        iff_of_true (htru ht) (.inr (Bool.eq_false_iff.mpr hoth))) ?_
      split
      · next hpagi => exact search_down hk hget habo rfl rfl rfl (by rw [hpagi]; rfl) (by rw [hpagi]; rfl)
      · next hpagi =>
          rw [Bool.not_eq_true] at hpagi
          exact search_down hk hget habo rfl rfl rfl (by rw [hpagi]; rfl) (by rw [hpagi]; rfl)

theorem finish_capability (hown : ∀ a, ¬ s.capability.Live id a) (hk : Kept s) :
    Kept { s with capability := s.capability.finish id } ∧
      (Truthful { s with capability := s.capability.finish id } ↔ Truthful s) := by
  have hlane : CapabilityLane.Truthful ⟨s.capability.finish id, s.accountId, s.capabilityLoading⟩ ↔
      s.capabilityLane.Truthful := by
    simp only [CapabilityLane.Truthful, live_finish, capabilityLane]
  refine ⟨⟨⟨hk.capability.single.finish hown, fun j a hl => ?_⟩, hk.history, hk.search⟩, ?_⟩
  · exact hk.capability.account j a (live_finish.mp hl)
  · exact ⟨fun h => ⟨hlane.mp h.capability, h.history, h.search⟩, fun h => ⟨hlane.mpr h.capability, h.history, h.search⟩⟩

theorem finish_history (hown : ∀ a, ¬ s.history.Live id a) (hk : Kept s) :
    Kept { s with history := s.history.finish id } ∧ (Truthful { s with history := s.history.finish id } ↔ Truthful s) := by
  have hlane : HistoryLane.Truthful ⟨s.history.finish id, s.historyKey, s.historyKinds, s.accountId, s.historyLoading,
      s.historyPaginating⟩ ↔ s.historyLane.Truthful := by
    simp only [HistoryLane.Truthful, live_finish, historyLane]
  refine ⟨⟨hk.capability, ⟨hk.history.single.finish hown, fun j a hl => ?_, fun j a hl => ?_, fun j a hl => ?_⟩,
    hk.search⟩, ?_⟩
  · exact hk.history.current j a (live_finish.mp hl)
  · exact hk.history.kinds j a (live_finish.mp hl)
  · exact hk.history.flagged j a (live_finish.mp hl)
  · exact ⟨fun h => ⟨h.capability, hlane.mp h.history, h.search⟩, fun h => ⟨h.capability, hlane.mpr h.history, h.search⟩⟩

theorem finish_search (hown : ∀ a, ¬ s.search.Live id a) (hk : Kept s) :
    Kept { s with search := s.search.finish id } ∧ (Truthful { s with search := s.search.finish id } ↔ Truthful s) := by
  have hlane : SearchLane.Truthful ⟨s.search.finish id, s.requestGeneration, s.query, s.accountId, s.searchLoading,
      s.searchPaginating⟩ ↔ s.searchLane.Truthful := by
    simp only [SearchLane.Truthful, live_finish, searchLane]
  refine ⟨⟨hk.capability, hk.history, ⟨hk.search.single.finish hown, fun j a hl => ?_, fun j a hl => ?_⟩⟩, ?_⟩
  · exact hk.search.current j a (live_finish.mp hl)
  · exact hk.search.flagged j a (live_finish.mp hl)
  · exact ⟨fun h => ⟨h.capability, h.history, hlane.mp h.search⟩, fun h => ⟨h.capability, h.history, hlane.mpr h.search⟩⟩

end OpenAgent.App.Search
