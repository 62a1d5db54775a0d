import OpenAgent.Gateway.Operational.SnapshotPages

namespace OpenAgent.Gateway.Operational.Snapshots

open Py OpenAgent.Gateway.Operational Checks List Served

section Tables

variable [Platform]

def CursorState.find (state : CursorState) (table : Table) (id : String) : Option Frozen :=
  match table with
  | .history => (state.history.get? id).map frozenHistory
  | .search => (state.search.get? id).map frozenSearch
  | .relatedRuns => (state.relatedRuns.get? id).map frozenRelatedRuns
  | .sessionTrees => (state.sessionTrees.get? id).map frozenSessionTree

def Shrinks (before after : CursorState) : Prop :=
  ∀ table id frozen, after.find table id = some frozen → before.find table id = some frozen

theorem Shrinks.refl (state : CursorState) : Shrinks state state := fun _ _ _ h => h

open Shrinks

theorem Shrinks.trans {a b c : CursorState} (h : Shrinks a b) (k : Shrinks b c) : Shrinks a c :=
  fun table id frozen hc => h table id frozen (k table id frozen hc)

theorem map_get?_erase {α : Type} {f : α → Frozen} {dict : Dict String α} {key id : String} {frozen : Frozen}
    (h : ((dict.erase key).get? id).map f = some frozen) : (dict.get? id).map f = some frozen := by
  rw [Dict.get?_erase] at h
  split at h
  · cases h
  · exact h

theorem discard_shrinks (state : CursorState) (table : Table) (key : String) : Shrinks state (state.discard table key) := by
  intro other id frozen h
  cases table <;> cases other <;> first | exact h | exact map_get?_erase h

theorem enforceQuotas_shrinks (principalId : String) (rounds : Nat) (state : CursorState) :
    Shrinks state (CursorState.enforceQuotas principalId rounds state) := by
  induction rounds generalizing state with
  | zero => exact refl state
  | succ rounds ih =>
    rw [CursorState.enforceQuotas]
    split
    · exact refl state
    split
    · exact (discard_shrinks state _ _).trans (ih _)
    · exact refl state

theorem registered_shrinks (state : CursorState) (table : Table) (snapshotId principalId : String) :
    Shrinks state (state.registered table snapshotId principalId) := by
  have hsame : Shrinks state { state with
      serial := state.serial + 1, order := state.order.set (table, snapshotId) (state.serial + 1) } := by
    intro other id frozen h
    cases other <;> exact h
  exact hsame.trans (enforceQuotas_shrinks _ _ _)

theorem map_get?_filter {α : Type} {f : α → Frozen} {dict : Dict String α} {p : String → α → Bool} {id : String}
    {frozen : Frozen} (h : ((dict.filter p).get? id).map f = some frozen) : (dict.get? id).map f = some frozen := by
  obtain ⟨a, ha, rfl⟩ := Option.map_eq_some_iff.mp h
  rw [Dict.get?_filter] at ha
  rw [(Option.filter_eq_some_iff.mp ha).1]
  rfl

theorem prune_shrinks (state : CursorState) (nowMs : Int) : Shrinks state (state.prune nowMs) := by
  intro table id frozen h
  cases table <;> exact map_get?_filter h

def Adds (before after : CursorState) (added : Frozen) : Prop :=
  ∀ table id frozen, after.find table id = some frozen →
    before.find table id = some frozen ∨ (id = added.id ∧ frozen = added)

theorem map_get?_set {α : Type} {f : α → Frozen} {dict : Dict String α} {key id : String} {a : α} {frozen : Frozen}
    (h : ((dict.set key a).get? id).map f = some frozen) :
    (dict.get? id).map f = some frozen ∨ (id = key ∧ frozen = f a) := by
  rw [Dict.get?_set] at h
  split at h
  next hid =>
    cases h
    exact .inr ⟨hid, rfl⟩
  · exact .inl h

theorem Adds.shrinks {before middle after : CursorState} {added : Frozen} (h : Adds before middle added)
    (hs : Shrinks middle after) : Adds before after added :=
  fun table id frozen hfound => h table id frozen (hs table id frozen hfound)

theorem putHistory_adds (state : CursorState) (snapshot : HistorySnapshot) :
    Adds state (state.putHistory snapshot) (frozenHistory snapshot) := by
  apply Adds.shrinks ?_ (registered_shrinks _ _ _ _)
  intro table id frozen h
  cases table with
  | history => exact map_get?_set h
  | search | relatedRuns | sessionTrees => exact .inl h

theorem putSearch_adds (state : CursorState) (snapshot : SearchSnapshot) :
    Adds state (state.putSearch snapshot) (frozenSearch snapshot) := by
  apply Adds.shrinks ?_ (registered_shrinks _ _ _ _)
  intro table id frozen h
  cases table with
  | search => exact map_get?_set h
  | history | relatedRuns | sessionTrees => exact .inl h

theorem putRelatedRuns_adds (state : CursorState) (snapshot : RelatedRunsSnapshot) :
    Adds state (state.putRelatedRuns snapshot) (frozenRelatedRuns snapshot) := by
  apply Adds.shrinks ?_ (registered_shrinks _ _ _ _)
  intro table id frozen h
  cases table with
  | relatedRuns => exact map_get?_set h
  | history | search | sessionTrees => exact .inl h

theorem putSessionTree_adds (state : CursorState) (snapshot : SessionTreeSnapshot) :
    Adds state (state.putSessionTree snapshot) (frozenSessionTree snapshot) := by
  apply Adds.shrinks ?_ (registered_shrinks _ _ _ _)
  intro table id frozen h
  cases table with
  | sessionTrees => exact map_get?_set h
  | history | search | relatedRuns => exact .inl h

end Tables

section Outcomes

variable [Platform]

inductive Outcome (state : CursorState) (drawn : Nat) (request : Request) (call : Call) :
    CursorState × Except Problem Served → Prop
  | refused {after : CursorState} {problem : Problem} (hafter : Shrinks state after) :
      Outcome state drawn request call (after, .error problem)
  | resumed {after : CursorState} {served : Served} {token : Token} {table : Table} (hafter : Shrinks state after)
      (hcall : served.call.cursor = some token) (hfound : state.find table token.cursor.s = some served.frozen)
      (hfits : token.cursor.s = served.frozen.id → served.Fits) : Outcome state drawn request call (after, .ok served)
  | opened {after : CursorState} {served : Served} (hafter : Adds state after served.frozen)
      (hopened : Opened request call drawn served.frozen) (hfits : served.Fits) :
      Outcome state drawn request call (after, .ok served)

open Outcome

variable {σ ι : Type} {state : CursorState} {drawn : Nat} {call : Call} {request : Request}

theorem serve_outcome {frozenOf : σ → Frozen} {item : ι → Item}
    {resume : CursorState → Token → Except Problem (σ × Nat)} {opened : Except Problem σ}
    {put : CursorState → σ → CursorState} {page : CursorState → σ → Nat → Except Problem (Page σ ι)}
    (hresu : ∀ token snapshot offset, resume (state.prune call.nowMs) token = .ok (snapshot, offset) →
      call.cursor = some token → (∃ table, (state.prune call.nowMs).find table token.cursor.s = some (frozenOf snapshot)) ∧
        (token.cursor.s = (frozenOf snapshot).id → Granted request call (frozenOf snapshot) offset))
    (hopened : ∀ snapshot, opened = .ok snapshot → Opened request call drawn (frozenOf snapshot))
    (hput : ∀ snapshot, Adds state (put state snapshot) (frozenOf snapshot))
    (hpage : ∀ state snapshot offset, ∃ served, page state snapshot offset = .ok served ∧
      served.snapshot = snapshot ∧ (Granted request call (frozenOf snapshot) offset →
        (served.served request call frozenOf item).Fits)) :
    Outcome state drawn request call
      ((serve state call resume opened put page).map id (Except.map fun page => page.served request call frozenOf item)) := by
  cases hcur : call.cursor with
  | some token =>
    have hpru := prune_shrinks state call.nowMs
    have hserv : serve state call resume opened put page = (state.prune call.nowMs,
        (resume (state.prune call.nowMs) token).bind fun at_ => page (state.prune call.nowMs) at_.1 at_.2) := by
      rw [serve.eq_def, hcur]
    rw [hserv]
    cases hres : resume (state.prune call.nowMs) token with
    | error problem => exact refused hpru
    | ok at_ =>
      obtain ⟨snapshot, offset⟩ := at_
      obtain ⟨⟨table, hfound⟩, hgra⟩ := hresu token snapshot offset hres hcur
      obtain ⟨served, hser, rfl, hfits⟩ := hpage (state.prune call.nowMs) snapshot offset
      have hans : (Except.ok (served.snapshot, offset)).bind
          (fun at_ : σ × Nat => page (state.prune call.nowMs) at_.1 at_.2) = .ok served := hser
      rw [hans]
      exact resumed hpru hcur (hpru table _ _ hfound) fun hid => hfits (hgra hid)
  | none =>
    cases hopen : opened with
    | error problem =>
      have hserv : serve state call resume (.error problem) put page = (state, .error problem) := by
        rw [serve.eq_def, hcur]
      rw [hserv]
      exact refused (Shrinks.refl state)
    | ok snapshot =>
      obtain ⟨served, hser, rfl, hfits⟩ := hpage (put state snapshot) snapshot 0
      have hserv : serve state call resume (.ok served.snapshot) put page =
          (put state served.snapshot, .ok served) := by
        rw [serve.eq_def, hcur]
        exact congrArg (Prod.mk _) hser
      rw [hserv]
      exact Outcome.opened (hput served.snapshot) (hopened served.snapshot hopen)
        (hfits ((hopened served.snapshot hopen).granted hcur))

theorem handleHistory_outcome (state : CursorState) (drawn : Nat) (call : Call) (filters : HistoryFilters) :
    Outcome state drawn (.history filters) call (handle state drawn call (.history filters)) := by
  rw [handle, handleHistory]
  split
  · apply serve_outcome
    · intro token snapshot offset h hcall
      obtain ⟨hfound, hgra⟩ := resumeHistory_granted h hcall
      exact ⟨⟨.history, by rw [CursorState.find, hfound]; rfl⟩, hgra⟩
    · exact fun snapshot h => openHistory_opened h
    · exact putHistory_adds state
    · intro state snapshot offset
      refine ⟨_, rfl, rfl, fun hgra => ?_⟩
      exact slicedPage_fits hgra (fun _ => rfl) (fun moment row => historyAnswer_answers moment call.access _ row) rfl
  · exact refused (Shrinks.refl state)

theorem handleSessionDescendants_outcome (state : CursorState) (drawn : Nat) (call : Call) (sessionId : String) :
    Outcome state drawn (.descendants sessionId) call (handle state drawn call (.descendants sessionId)) := by
  rw [handle, handleSessionDescendants]
  split
  · exact refused (Shrinks.refl state)
  split
  · apply serve_outcome
    · intro token snapshot offset h hcall
      obtain ⟨hfound, hgra⟩ := resumeSessionTree_granted h hcall
      exact ⟨⟨.sessionTrees, by rw [CursorState.find, hfound]; rfl⟩, hgra⟩
    · exact fun snapshot h => openSessionTree_opened h
    · exact putSessionTree_adds state
    · intro state snapshot offset
      refine ⟨_, rfl, rfl, fun hgra => ?_⟩
      exact slicedPage_fits hgra (fun _ => rfl)
        (fun moment row => descendantAnswer_answers moment call.access _ sessionId row) rfl
  · exact refused (Shrinks.refl state)

theorem handleSessionRelatedRuns_outcome (state : CursorState) (drawn : Nat) (call : Call) (sessionId : String)
    (includeParam : Option Bool) : Outcome state drawn (.relatedRuns sessionId includeParam) call
      (handle state drawn call (.relatedRuns sessionId includeParam)) := by
  rw [handle, handleSessionRelatedRuns]
  split
  · exact refused (Shrinks.refl state)
  split
  · apply serve_outcome
    · intro token snapshot offset h hcall
      obtain ⟨hfound, hgra⟩ := resumeRelatedRuns_granted h hcall
      exact ⟨⟨.relatedRuns, by rw [CursorState.find, hfound]; rfl⟩, hgra⟩
    · exact fun snapshot h => openRelatedRuns_opened h
    · exact putRelatedRuns_adds state
    · intro state snapshot offset
      refine ⟨_, rfl, rfl, fun hgra => ?_⟩
      exact slicedPage_fits hgra (fun _ => rfl) (fun moment row => relatedAnswer_answers _ row) rfl
  · exact refused (Shrinks.refl state)

theorem searchPage_eq_ok (hdoc : Documented) (call : Call) (query : SearchQuery) (state : CursorState)
    (snapshot : SearchSnapshot) (offset : Nat) :
    ∃ page, searchPage call query state snapshot offset = .ok page ∧ page.snapshot = snapshot ∧ page.offset = offset := by
  have hsta : Aligned call (snapshot.rows.drop offset) 0 0 [] := fun _ => .inl ⟨Nat.le_refl _, rfl⟩
  obtain ⟨count, _, _, hscan⟩ := @scan_eq _ call 0 0 [] hdoc query _ [] hsta
  rw [searchPage, hscan]
  exact ⟨_, rfl, rfl, rfl⟩

theorem handleSearch_outcome (hdoc : Documented) (state : CursorState) (drawn : Nat) (call : Call) (query : SearchQuery) :
    Outcome state drawn (.search query) call (handle state drawn call (.search query)) := by
  rw [handle, handleSearch]
  split
  · apply serve_outcome
    · intro token snapshot offset h hcall
      obtain ⟨hfound, hgra⟩ := resumeSearch_granted h hcall
      exact ⟨⟨.search, by rw [CursorState.find, hfound]; rfl⟩, hgra⟩
    · exact fun snapshot h => openSearch_opened hdoc h
    · exact putSearch_adds state
    · intro state snapshot offset
      obtain ⟨page, hpage, hsna, hoff⟩ := searchPage_eq_ok hdoc call query state snapshot offset
      refine ⟨page, hpage, hsna, fun hgra => ?_⟩
      exact searchPage_fits hdoc hpage hgra
  · exact refused (Shrinks.refl state)

theorem handle_outcome (hdoc : Documented) (state : CursorState) (drawn : Nat) (call : Call) (request : Request) :
    Outcome state drawn request call (handle state drawn call request) := by
  cases request with
  | history filters => exact handleHistory_outcome state drawn call filters
  | descendants sessionId => exact handleSessionDescendants_outcome state drawn call sessionId
  | relatedRuns sessionId includeParam => exact handleSessionRelatedRuns_outcome state drawn call sessionId includeParam
  | search query => exact handleSearch_outcome hdoc state drawn call query

end Outcomes

section Invariant

variable [Platform]

/-- Every stored snapshot is one that a page was served from, and its identifier tells it from all others. -/
structure Consistent (s : State) : Prop where
  stored : ∀ table id frozen, s.cursors.find table id = some frozen →
    frozen.id = id ∧ ∃ page ∈ s.log, page.frozen = frozen
  drawn : ∀ page ∈ s.log, ∃ n, n < s.drawn ∧ page.frozen.id = Platform.tokenHex n
  agree : ∀ page ∈ s.log, ∀ other ∈ s.log, page.frozen.id = other.frozen.id → page.frozen = other.frozen
  fits : ∀ page ∈ s.log, page.Fits
  distinct : ∀ page ∈ s.log, (page.frozen.entries.map Entry.key).Nodup

theorem consistent_initial : Consistent State.initial := by
  refine ⟨?_, ?_, ?_, ?_, ?_⟩
  · intro table id frozen h
    cases table <;> cases h
  all_goals exact fun page h => absurd h not_mem_nil

variable {s : State}

theorem Consistent.shrunk (h : Consistent s) {after : CursorState} (hafter : Shrinks s.cursors after) (drawn : Nat)
    (hdra : s.drawn ≤ drawn) : Consistent ⟨after, drawn, s.log⟩ := by
  refine ⟨fun table id frozen hfound => h.stored table id frozen (hafter table id frozen hfound), ?_, h.agree, h.fits,
    h.distinct⟩
  intro page hpage
  obtain ⟨n, hn, hid⟩ := h.drawn page hpage
  exact ⟨n, Nat.lt_of_lt_of_le hn hdra, hid⟩

theorem Consistent.resumed (h : Consistent s) {page known : Served} (hkno : known ∈ s.log)
    (hsame : page.frozen = known.frozen) (hfits : page.Fits) : Consistent { s with log := s.log ++ [page] } := by
  have hback : ∀ other ∈ s.log ++ [page], ∃ kept ∈ s.log, other.frozen = kept.frozen := by
    intro other hoth
    rcases mem_append.mp hoth with hold | hnew
    · exact ⟨other, hold, rfl⟩
    · rw [mem_singleton.mp hnew]
      exact ⟨known, hkno, hsame⟩
  refine ⟨?_, ?_, ?_, ?_, ?_⟩
  · intro table id frozen hfound
    obtain ⟨hid, kept, hkept, hfro⟩ := h.stored table id frozen hfound
    exact ⟨hid, kept, mem_append_left _ hkept, hfro⟩
  · intro other hoth
    obtain ⟨kept, hkept, hfro⟩ := hback other hoth
    rw [hfro]
    exact h.drawn kept hkept
  · intro left hleft right hrig hid
    obtain ⟨a, ha, hleft⟩ := hback left hleft
    obtain ⟨b, hb, hrig⟩ := hback right hrig
    rw [hleft, hrig] at hid ⊢
    exact h.agree a ha b hb hid
  · intro other hoth
    rcases mem_append.mp hoth with hold | hnew
    · exact h.fits other hold
    · rw [mem_singleton.mp hnew]
      exact hfits
  · intro other hoth
    obtain ⟨kept, hkept, hfro⟩ := hback other hoth
    rw [hfro]
    exact h.distinct kept hkept

theorem Consistent.opened (hdoc : Documented) (h : Consistent s) {request : Request} {call : Call} {page : Served}
    {after : CursorState} (hafter : Adds s.cursors after page.frozen) (hopened : Opened request call s.drawn page.frozen)
    (hfits : page.Fits) : Consistent ⟨after, s.drawn + 1, s.log ++ [page]⟩ := by
  have hfre : ∀ other ∈ s.log, other.frozen.id ≠ page.frozen.id := by
    intro other hoth hid
    obtain ⟨n, hn, hdra⟩ := h.drawn other hoth
    rw [hdra, hopened.id] at hid
    exact absurd (hdoc.tokenHex hid) (Nat.ne_of_lt hn)
  refine ⟨?_, ?_, ?_, ?_, ?_⟩
  · intro table id frozen hfound
    rcases hafter table id frozen hfound with hold | ⟨hid, hnew⟩
    · obtain ⟨hid, kept, hkept, hfro⟩ := h.stored table id frozen hold
      exact ⟨hid, kept, mem_append_left _ hkept, hfro⟩
    · rw [hid, hnew]
      exact ⟨rfl, page, mem_append_right _ (mem_singleton.mpr rfl), rfl⟩
  · intro other hoth
    rcases mem_append.mp hoth with hold | hnew
    · obtain ⟨n, hn, hid⟩ := h.drawn other hold
      exact ⟨n, Nat.lt_succ_of_lt hn, hid⟩
    · rw [mem_singleton.mp hnew]
      exact ⟨s.drawn, Nat.lt_succ_self _, hopened.id⟩
  · intro left hleft right hrig hid
    rcases mem_append.mp hleft with hold | hnew <;> rcases mem_append.mp hrig with hold' | hnew'
    · exact h.agree left hold right hold' hid
    · rw [mem_singleton.mp hnew'] at hid
      exact absurd hid (hfre left hold)
    · rw [mem_singleton.mp hnew] at hid
      exact absurd hid.symm (hfre right hold')
    · rw [mem_singleton.mp hnew, mem_singleton.mp hnew']
  · intro other hoth
    rcases mem_append.mp hoth with hold | hnew
    · exact h.fits other hold
    · rw [mem_singleton.mp hnew]
      exact hfits
  · intro other hoth
    rcases mem_append.mp hoth with hold | hnew
    · exact h.distinct other hold
    · rw [mem_singleton.mp hnew]
      exact hopened.distinct

theorem next_consistent (hdoc : Documented) {e : Event} {t : State} (h : Consistent s) (hnext : next s e = some t) :
    Consistent t := by
  cases e with
  | arrived nowMs =>
    cases hnext
    exact h.shrunk (prune_shrinks s.cursors nowMs) s.drawn (Nat.le_refl _)
  | stopped =>
    cases hnext
    refine h.shrunk ?_ s.drawn (Nat.le_refl _)
    intro table id frozen hfound
    cases table <;> cases hfound
  | requested request call =>
    have hout := handle_outcome hdoc s.cursors s.drawn call request
    rw [next] at hnext
    generalize handle s.cursors s.drawn call request = outcome at hout hnext
    cases hout with
    | refused hafter =>
      cases hnext
      exact h.shrunk hafter (s.drawn + 1) (Nat.le_succ _)
    | resumed hafter hcall hfound hfits =>
      cases hnext
      obtain ⟨hid, known, hkno, hsame⟩ := h.stored _ _ _ hfound
      exact (h.shrunk hafter (s.drawn + 1) (Nat.le_succ _)).resumed hkno hsame.symm (hfits hid.symm)
    | opened hafter hopened hfits =>
      cases hnext
      exact h.opened hdoc hafter hopened hfits

end Invariant

section Walks

variable [Platform]

/-- Pages of a log, from a first request along the cursors that the pages return. -/
structure IsWalk (log : List Served) (first : Served) (rest : List Served) : Prop where
  mem : ∀ page ∈ first :: rest, page ∈ log
  starts : first.call.cursor = none
  along : List.IsChain (fun page next => ∃ token, page.nextCursor = some token ∧ next.call.cursor = some token)
    (first :: rest)

def Served.asked (served : Served) : Request :=
  match served.request, served.frozen.scope with
  | .relatedRuns sessionId none, .relatedRuns _ includeDescendants => .relatedRuns sessionId (some includeDescendants)
  | request, _ => request

/-- Two pages for one principal, of one list, with the same session and filters. -/
structure SameRequest (page next : Served) : Prop where
  asked : next.asked = page.asked
  tenant : next.call.access.tenantId = page.call.access.tenantId
  principal : next.call.access.principalId = page.call.access.principalId

def shownEntries (pages : List Served) : List Entry :=
  (pages.flatMap fun page => page.covered.filter page.shows).map Prod.snd

/-- What a walk amounts to: it goes through the snapshot of its first page in order, to the end if it has one, and its
items are the entries that could be shown. -/
structure Exact (first : Served) (rest : List Served) : Prop where
  same : ∀ page ∈ rest, page.frozen = first.frozen ∧ SameRequest first page
  distinct : (first.frozen.entries.map Entry.key).Nodup
  covers : ∀ last ∈ (first :: rest).getLast?,
    ((first :: rest).flatMap Served.covered).map Prod.snd = first.frozen.entries.take last.stop ∧
      (last.nextCursor = none → first.frozen.entries.take last.stop = first.frozen.entries)
  items : List.Forall₂ Renders ((first :: rest).flatMap Served.items) (shownEntries (first :: rest))
  inOrder : (shownEntries (first :: rest)).Sublist first.frozen.entries
  ends : (first :: rest).length ≤ max 1 first.frozen.entries.length

variable {s : State}

theorem Consistent.follows (h : Consistent s) {page next : Served} (hpage : page ∈ s.log) (hnext : next ∈ s.log)
    {token : Token} (htok : page.nextCursor = some token) (hcur : next.call.cursor = some token) :
    next.frozen = page.frozen ∧ next.offset = page.stop ∧ page.stop < page.frozen.entries.length := by
  obtain ⟨hid, hoff, hlt⟩ := (h.fits page hpage).leads token htok
  obtain ⟨hid', hoff'⟩ := (h.fits next hnext).granted.resumed token hcur
  refine ⟨h.agree next hnext page hpage (hid'.symm.trans hid), ?_, hlt⟩
  rw [hoff] at hoff'
  exact (Int.ofNat_inj.mp (Option.some.inj hoff')).symm

theorem normalized_injective (hdoc : Documented) {query other : SearchQuery} (h : normalized query = normalized other) :
    query = other := by
  obtain ⟨hdig, hsco, hfil, hsort, hgro⟩ := NormalizedRequest.mk.injEq .. ▸ h
  cases query
  cases other
  cases hdoc.sha256 hdig
  cases hsco
  cases hfil
  cases hsort
  cases hgro
  rfl

theorem asked_eq (hdoc : Documented) {page next : Served} (hpage : page.request.Admits page.frozen.scope)
    (hnext : next.request.Admits next.frozen.scope) (hsame : next.frozen = page.frozen) : next.asked = page.asked := by
  rw [hsame] at hnext
  rw [asked, asked, hsame]
  generalize page.frozen.scope = scope at hpage hnext
  generalize page.request = request at hpage
  generalize next.request = other at hnext
  cases scope with
  | history digest =>
    cases request <;> try exact hpage.elim
    cases other <;> try exact hnext.elim
    have hfil := hdoc.digest (hnext.symm.trans hpage)
    cases hfil
    rfl
  | descendants sessionId =>
    cases request <;> try exact hpage.elim
    cases other <;> try exact hnext.elim
    cases hpage
    cases hnext
    rfl
  | relatedRuns sessionId includeDescendants =>
    cases request with
    | relatedRuns asked includeParam =>
      cases other with
      | relatedRuns asked' includeParam' =>
        obtain ⟨rfl, hinc⟩ := hpage
        obtain ⟨rfl, hinc'⟩ := hnext
        cases includeParam with
        | none =>
          cases includeParam' with
          | none => rfl
          | some other => rw [hinc' other rfl]
        | some first =>
          cases includeParam' with
          | none => rw [hinc first rfl]
          | some other => rw [hinc first rfl, hinc' other rfl]
      | history _ | descendants _ | search _ => exact hnext.elim
    | history _ | descendants _ | search _ => exact hpage.elim
  | search digest =>
    cases request <;> try exact hpage.elim
    cases other <;> try exact hnext.elim
    have hque := normalized_injective hdoc (Digested.request.inj (hdoc.digest (hnext.symm.trans hpage)))
    cases hque
    rfl

theorem sameRequest_of_same (hdoc : Documented) (h : Consistent s) {page next : Served} (hpage : page ∈ s.log)
    (hnext : next ∈ s.log) (hsame : next.frozen = page.frozen) : SameRequest page next := by
  have hgra := (h.fits page hpage).granted
  have hgra' := (h.fits next hnext).granted
  refine ⟨asked_eq hdoc hgra.admits hgra'.admits hsame, ?_, ?_⟩
  · rw [← hgra.tenant, ← hgra'.tenant, hsame]
  · rw [← hgra.principal, ← hgra'.principal, hsame]

theorem Consistent.joined (h : Consistent s) {first : Served} {rest : List Served}
    (hmem : ∀ page ∈ first :: rest, page ∈ s.log)
    (hcha : List.IsChain (fun page next => ∃ token, page.nextCursor = some token ∧ next.call.cursor = some token)
      (first :: rest)) :
    (∀ page ∈ rest, page.frozen = first.frozen ∧ page.offset < page.stop ∧ page.stop ≤ first.frozen.entries.length) ∧
      ∀ last ∈ (first :: rest).getLast?, Cuts.Joined Served.offset Served.stop first.offset (first :: rest) last.stop := by
  induction rest generalizing first with
  | nil =>
    refine ⟨fun page hpage => absurd hpage not_mem_nil, ?_⟩
    intro last hlast
    cases hlast
    exact ⟨rfl, (h.fits first (hmem first (mem_cons_self ..))).le, rfl⟩
  | cons next rest ih =>
    have hfir := hmem first (mem_cons_self ..)
    have hnext := hmem next (mem_cons_of_mem _ (mem_cons_self ..))
    obtain ⟨⟨token, htok, hcur⟩, hcha⟩ := isChain_cons_cons.mp hcha
    obtain ⟨hsame, hoff, hlt⟩ := h.follows hfir hnext htok hcur
    obtain ⟨hrest, hjoi⟩ := ih (fun page hpage => hmem page (mem_cons_of_mem _ hpage)) hcha
    have hmove : next.offset < next.stop ∧ next.stop ≤ next.frozen.entries.length := by
      apply (h.fits next hnext).moves
      rw [hoff, hsame]
      exact hlt
    rw [hsame] at hmove hrest
    constructor
    · intro page hpage
      rcases mem_cons.mp hpage with rfl | hpage
      · exact ⟨hsame, hmove⟩
      · exact hrest page hpage
    intro last hlast
    refine ⟨rfl, (h.fits first hfir).le, ?_⟩
    rw [← hoff]
    exact hjoi last hlast

theorem covered_entries (served : Served) :
    served.covered.map Prod.snd = Cuts.piece served.frozen.entries served.offset served.stop := by
  rw [covered, map_map]
  exact zipIdx_map_fst ..

theorem forall₂_items {pages : List Served} (h : ∀ page ∈ pages, page.Fits) :
    List.Forall₂ Renders (pages.flatMap Served.items) (shownEntries pages) := by
  induction pages with
  | nil => exact Forall₂.nil
  | cons page pages ih =>
    rw [flatMap_cons, shownEntries, flatMap_cons, map_append]
    exact rel_append (h page (mem_cons_self ..)).items
      (ih fun other hoth => h other (mem_cons_of_mem _ hoth))

theorem shownEntries_sublist (pages : List Served) :
    (shownEntries pages).Sublist ((pages.flatMap Served.covered).map Prod.snd) := by
  apply Sublist.map
  induction pages with
  | nil => exact Sublist.slnil
  | cons page pages ih =>
    exact Sublist.append filter_sublist ih

theorem Consistent.exact (hdoc : Documented) (h : Consistent s) {first : Served} {rest : List Served}
    (hwalk : IsWalk s.log first rest) : Exact first rest := by
  have hfir := hwalk.mem first (mem_cons_self ..)
  have hsta := (h.fits first hfir).granted.first hwalk.starts
  obtain ⟨hrest, hjoi⟩ := h.joined hwalk.mem hwalk.along
  have hsame : ∀ page ∈ first :: rest, page.frozen = first.frozen := by
    intro page hpage
    rcases mem_cons.mp hpage with rfl | hpage
    · rfl
    · exact (hrest page hpage).1
  have hcove : ((first :: rest).flatMap covered).map Prod.snd =
      (first :: rest).flatMap fun page => Cuts.piece first.frozen.entries page.offset page.stop := by
    rw [map_flatMap]
    apply flatMap_congr
    intro page hpage
    rw [covered_entries, hsame page hpage]
  have hcov : ∀ last ∈ (first :: rest).getLast?,
      ((first :: rest).flatMap covered).map Prod.snd = first.frozen.entries.take last.stop := by
    intro last hlast
    rw [hcove, (hjoi last hlast).flatMap_piece, hsta, Cuts.piece_zero]
  have hlas : ∃ last, last ∈ (first :: rest).getLast? := ⟨_, List.getLast?_cons ..⟩
  refine ⟨?_, h.distinct first hfir, ?_, ?_, ?_, ?_⟩
  · intro page hpage
    exact ⟨(hrest page hpage).1,
      sameRequest_of_same hdoc h hfir (hwalk.mem page (mem_cons_of_mem _ hpage)) (hrest page hpage).1⟩
  · intro last hlast
    refine ⟨hcov last hlast, ?_⟩
    intro hnone
    have hmem := mem_of_getLast? (Option.mem_def.mp hlast)
    have hend := (h.fits last (hwalk.mem last hmem)).ends hnone
    rw [hsame last hmem] at hend
    exact take_of_length_le hend
  · exact forall₂_items fun page hpage => h.fits page (hwalk.mem page hpage)
  · obtain ⟨last, hlast⟩ := hlas
    have hsub := shownEntries_sublist (first :: rest)
    rw [hcov last hlast] at hsub
    exact hsub.trans (take_sublist _ _)
  · obtain ⟨last, hlast⟩ := hlas
    cases rest with
    | nil => exact Nat.le_max_left 1 _
    | cons next rest =>
      have hnext := hwalk.mem next (mem_cons_of_mem _ (mem_cons_self ..))
      obtain ⟨⟨token, htok, hcur⟩, _⟩ := isChain_cons_cons.mp hwalk.along
      have hlt := (h.follows hfir hnext htok hcur).2.2
      have hmove := (h.fits first hfir).moves (by omega)
      have hall : ∀ page ∈ first :: next :: rest, page.offset < page.stop ∧ page.stop ≤ first.frozen.entries.length := by
        intro page hpage
        rcases mem_cons.mp hpage with rfl | hpage
        · exact hmove
        · exact (hrest page hpage).2
      have hlen := (hjoi last hlast).length_le fun page hpage => (hall page hpage).1
      have hlast := (hall last (mem_of_getLast? (Option.mem_def.mp hlast))).2
      exact Nat.le_trans (Nat.le_trans hlen (Nat.le_trans (Nat.sub_le _ _) hlast)) (Nat.le_max_right 1 _)

/-- Every walk is exact, and a cursor is honoured for nobody and nothing but what it was made for. -/
theorem snapshot_walks_exact (hdoc : Documented) {es : List Event} (hrun : Runs.run next State.initial es = some s) :
    (∀ first rest, IsWalk s.log first rest → Exact first rest) ∧
      ∀ page ∈ s.log, ∀ token, page.nextCursor = some token → ∀ other ∈ s.log, other.call.cursor = some token →
        SameRequest page other := by
  have hcon : Consistent s :=
    Runs.invariant (fun _ _ _ h hnext => next_consistent hdoc h hnext) consistent_initial ⟨es, hrun⟩
  refine ⟨fun first rest hwalk => hcon.exact hdoc hwalk, ?_⟩
  intro page hpage token htok other hoth hcur
  exact sameRequest_of_same hdoc hcon hpage hoth (hcon.follows hpage hoth htok hcur).1

end Walks

section Sample

abbrev ownersPlatform : Platform where
  resourceIsVisible _ acl access := acl.ownerPrincipalId = some access.principalId
  loads _ := none
  Digest := Digested
  digestEq := inferInstance
  Index := Unit
  sha256 text := text
  digest := id
  tokenHex n := String.ofList (List.replicate (n + 1) 'a')
  hmac secret cursor := String.ofList (List.replicate secret '.') ++ cursor.k ++ cursor.s
  parseIso _ := none
  literalFtsQuery text := text
  grantedSearchResources _ _ := []
  readSearchRows _ _ _ _ := []
  searchRowVisible _ _ _ := false
  searchRowsVisible _ _ rows := rows.map fun _ => false
  readAuthorizedHighlight _ _ _ _ _ := none

theorem ownersPlatform_documented : @Documented ownersPlatform := by
  refine @Documented.mk ownersPlatform (fun _ _ h => h) (fun _ _ h => h) ?_ (fun _ _ _ => rfl) (fun _ _ _ _ => nodup_nil)
  intro m n h
  have hcha : List.replicate (m + 1) 'a' = List.replicate (n + 1) 'a' := String.ofList_injective h
  have hlen := congrArg List.length hcha
  simpa using hlen

def ann : AccessContext := ⟨"home", "ann", "user", "ann", "laptop", ["ann"], []⟩

def chat (id : String) (deleted : Bool) : ActivityRow :=
  ⟨id, "home", "chat", "session", id, some "ann", "private", 1, deleted, none, none⟩

def threeChats (deleted : Bool) : Tables where
  activities := [chat "first" false, chat "second" deleted, chat "third" false]
  sessions := []
  tools := []
  distinct := List.nodup_nil
  activityColumns _ := ⟨none, none, none, 0⟩
  sessionColumns _ := ⟨none, 0⟩
  toolColumns _ := ⟨0, 0⟩
  activityIds := by cases deleted <;> decide
  activityKeys := by cases deleted <;> decide
  toolIds := List.nodup_nil
  properParents _ := by simp

def annsCall (deleted : Bool) (cursor : Option Token) : @Call ownersPlatform :=
  let _ := ownersPlatform
  { access := ann
    limit := ⟨1, by decide, by decide⟩
    cursor := cursor
    nowMs := 0
    ready := true
    revision := 7
    indexGeneration := ""
    arrival := ⟨threeChats deleted, ()⟩
    moments := fun _ => ⟨threeChats deleted, ()⟩ }

def allHistory : HistoryFilters := ⟨[], [], none, none, none, none, none, false⟩

def chatsFrom (offset : Int) : Token := ⟨⟨"history", "a", some offset, none⟩, "historya"⟩

def deletingRun : List (@Event ownersPlatform) :=
  let _ := ownersPlatform
  [.arrived 0, .requested (.history allHistory) (annsCall false none),
    .requested (.history allHistory) (annsCall true (some (chatsFrom 1))), .arrived 1,
    .requested (.history allHistory) (annsCall true (some (chatsFrom 2)))]

def outline (page : @Served ownersPlatform) : Option Token × Option Token × Nat :=
  let _ := ownersPlatform
  (page.call.cursor, page.nextCursor, page.items.length)

/-- A walk over three pages, of which the second is empty. -/
theorem deletingRun_exact : ∃ (s : @State ownersPlatform) (first second third : @Served ownersPlatform),
    @Runs.run _ _ (@next ownersPlatform) (@State.initial ownersPlatform) deletingRun = some s ∧
      @IsWalk ownersPlatform (@State.log ownersPlatform s) first [second, third] ∧ (outline second).2.2 = 0 ∧
        @Exact ownersPlatform first [second, third] := by
  let _ := ownersPlatform
  have hrun : ((Runs.run next State.initial deletingRun).map fun s => s.log.map outline) =
      some [(none, some (chatsFrom 1), 1), (some (chatsFrom 1), some (chatsFrom 2), 0), (some (chatsFrom 2), none, 1)] := by
    decide +kernel
  obtain ⟨s, hrun, hlog⟩ := Option.map_eq_some_iff.mp hrun
  obtain ⟨first, rest, hlog, hfir, hrest⟩ := map_eq_cons_iff.mp hlog
  obtain ⟨second, last, rfl, hsec, hlast⟩ := map_eq_cons_iff.mp hrest
  obtain ⟨third, none, rfl, hthi, hnone⟩ := map_eq_cons_iff.mp hlast
  cases map_eq_nil_iff.mp hnone
  obtain ⟨hfir, htok, _⟩ := Prod.mk.inj hfir |>.imp id Prod.mk.inj
  obtain ⟨hcur, hoth, hemp⟩ := Prod.mk.inj hsec |>.imp id Prod.mk.inj
  obtain ⟨hcur', _⟩ := Prod.mk.inj hthi
  have hwalk : IsWalk s.log first [second, third] := by
    rw [hlog]
    exact ⟨fun _ h => h, hfir, IsChain.cons_cons ⟨_, htok, hcur⟩
      (IsChain.cons_cons ⟨_, hoth, hcur'⟩ (List.IsChain.singleton _))⟩
  exact ⟨s, first, second, third, hrun, hwalk, hemp,
    (snapshot_walks_exact ownersPlatform_documented hrun).1 first [second, third] hwalk⟩

end Sample

end OpenAgent.Gateway.Operational.Snapshots
