import OpenAgent.Gateway.Terminals

namespace OpenAgent.Gateway.Terminals

open Py List Option Manager

namespace Manager

variable (s : Manager)

def Stored (i : Nat) (session : Session) : Prop := s.table.get? session.key = some i

def BeingClosed (i : Nat) : Prop :=
  ∃ op ∈ s.operations, (op.session = i ∧ op.stage ≠ .flushing) ∨ i ∈ op.rest.sessions

def Quiet : Prop := s.operations = [] ∧ ∀ session ∈ s.sessions, session.process ≠ .spawning

def KeyPending (key : Key) : Prop := ∃ op ∈ s.operations, key ∈ op.rest.keys

def SessionPending (i : Nat) : Prop := ∃ op ∈ s.operations, i ∈ op.rest.sessions

/-- The operation is an `open` whose new session takes the place of one whose shell runs. -/
def Overwrites (k : Nat) : Prop :=
  ∃ op ∈ s.operations[k]?, ∃ key ∈ (match op.rest with
    | .opening key => some key
    | .done | .connection _ | .all _ => none), ∃ j ∈ s.table.get? key, s.isRunning j = true

end Manager

/-- Every running shell belongs to the session under its key, but for those that an operation under way is closing; and a
shell whose session or connection was closed was sent SIGHUP or has exited. -/
structure Owned (s : Manager) : Prop where
  held : ∀ (i : Nat) (x : Session), s.sessions[i]? = some x → x.process = .running → s.Stored i x ∨ s.BeingClosed i
  single : ∀ (i j : Nat) (x y : Session), s.sessions[i]? = some x → s.sessions[j]? = some y → x.key = y.key →
    x.process = .running → y.process = .running → i = j ∨ s.BeingClosed i ∨ s.BeingClosed j
  settled : s.Quiet → ∀ (i : Nat) (x : Session), s.sessions[i]? = some x → x.process = .running →
    s.Stored i x ∧ ∀ (j : Nat) (y : Session), s.sessions[j]? = some y → y.key = x.key → y.process = .running → i = j
  closed : s.Quiet → ∀ (i : Nat) (x : Session), s.sessions[i]? = some x → x.process = .running ∨ x.process = .exited →
    (x.closing = true ∨ ¬ s.Stored i x ∨ x.key.1 ∈ s.disconnected) → x.hup = true ∨ x.process = .exited

/-- A process is made only for a session that no close came before and whose connection is there or about to be closed;
what takes a session from the table leaves no running shell, and a SIGKILL is followed by the exit. -/
def Tended (s : Manager) (e : Event) : Prop :=
  match e with
  | .spawned i => ∀ x ∈ s.sessions[i]?, x.closing = false ∧
      (s.SessionPending i ∨ (s.Stored i x ∧ (x.key.1 ∈ s.disconnected → s.KeyPending x.key)))
  | .failed i => ∀ x ∈ s.sessions[i]?, ∀ j ∈ s.table.get? x.key, s.isRunning j = false
  | .timeout k => ¬ s.Overwrites k ∧ ∀ op ∈ s.operations[k]?, op.stage = .killed → s.isRunning op.session = false
  | .reaped k | .flushed k => ¬ s.Overwrites k
  | .openTerminal _ | .close _ | .closeForConnection _ | .closeAll | .exited _ | .finalized _ => True

/-- A running shell's session is stored and open, or what remains of an operation will close it, or one waits for the
shell that was sent SIGHUP. -/
def Safe (s : Manager) (keys : List Key) (sessions : List Nat) (i : Nat) (x : Session) : Prop :=
  (x.closing = false ∧ s.Stored i x ∧ (x.key.1 ∈ s.disconnected → x.key ∈ keys ∨ s.KeyPending x.key)) ∨
  (x.closing = false ∧ (i ∈ sessions ∨ s.SessionPending i)) ∨
  (x.hup = true ∧ ∃ op ∈ s.operations, op.session = i ∧ op.stage ≠ .flushing)

def SafeBut (s : Manager) (keys : List Key) (sessions : List Nat) : Prop :=
  ∀ (i : Nat) (x : Session), s.sessions[i]? = some x → x.process = .running → Safe s keys sessions i x

variable {key : Key}

section Safety

variable {s t : Manager} {keys keys' : List Key} {sessions sessions' : List Nat} {i : Nat} {x : Session}

theorem SafeBut.owned (hs : SafeBut s [] []) : Owned s := by
  have hheld : ∀ (i : Nat) (x : Session), s.sessions[i]? = some x → x.process = .running → s.Stored i x ∨ s.BeingClosed i := by
    intro i x hx hrun
    rcases hs i x hx hrun with ⟨_, hsto, _⟩ | ⟨_, hpen⟩ | ⟨_, op, hop, hwai⟩
    · exact .inl hsto
    · obtain ⟨op, hop, hmem⟩ := hpen.resolve_left (by simp)
      exact .inr ⟨op, hop, .inr hmem⟩
    · exact .inr ⟨op, hop, .inl hwai⟩
  have hqui : s.Quiet → ∀ (i : Nat) (x : Session), s.sessions[i]? = some x → x.process = .running →
      x.closing = false ∧ s.Stored i x ∧ x.key.1 ∉ s.disconnected := by
    intro hq i x hx hrun
    have hnone := hq.1
    rcases hs i x hx hrun with ⟨hopen, hsto, hcon⟩ | ⟨_, hpen⟩ | ⟨_, op, hop, _⟩
    · refine ⟨hopen, hsto, fun hgone => ?_⟩
      obtain ⟨op, hop, _⟩ := (hcon hgone).resolve_left (by simp)
      simp [hnone] at hop
    · obtain ⟨op, hop, _⟩ := hpen.resolve_left (by simp)
      simp [hnone] at hop
    · simp [hnone] at hop
  refine ⟨hheld, ?_, ?_, ?_⟩
  · intro i j x y hx hy hkey hxr hyr
    rcases hheld i x hx hxr with hi | hi
    · rcases hheld j y hy hyr with hj | hj
      · rw [Stored, hkey, show s.table.get? y.key = some j from hj, some_inj] at hi
        exact .inl hi.symm
      · exact .inr (.inr hj)
    · exact .inr (.inl hi)
  · intro hq i x hx hrun
    obtain ⟨_, hsto, _⟩ := hqui hq i x hx hrun
    refine ⟨hsto, fun j y hy hkey hyr => ?_⟩
    obtain ⟨_, hoth, _⟩ := hqui hq j y hy hyr
    rw [Stored, hkey, show s.table.get? x.key = some i from hsto, some_inj] at hoth
    exact hoth
  intro hq i x hx hmade hgone
  refine .inr (hmade.resolve_left fun hrun => ?_)
  obtain ⟨hopen, hsto, hcon⟩ := hqui hq i x hx hrun
  rcases hgone with hclo | hlost | hdis
  · rw [hopen] at hclo
    cases hclo
  · exact hlost hsto
  · exact hcon hdis

theorem isRunning_iff : s.isRunning i = true ↔ ∃ x, s.sessions[i]? = some x ∧ x.process = .running := by
  simp [isRunning, Option.any_eq_true]

theorem Safe.mono (hkeys : ∀ key ∈ keys, key ∈ keys' ∨ t.KeyPending key)
    (hses : ∀ j ∈ sessions, j ∈ sessions' ∨ t.SessionPending j) (hope : s.operations ⊆ t.operations)
    (htab : s.Stored i x → t.Stored i x) (hdis : t.disconnected ⊆ s.disconnected)
    (h : Safe s keys sessions i x) : Safe t keys' sessions' i x := by
  rcases h with ⟨hopen, hsto, hcon⟩ | ⟨hopen, hpen⟩ | ⟨hhup, op, hop, hwai⟩
  · refine .inl ⟨hopen, htab hsto, fun hgone => ?_⟩
    rcases hcon (hdis hgone) with hkey | ⟨op, hop, hkey⟩
    · exact hkeys _ hkey
    · exact .inr ⟨op, hope hop, hkey⟩
  · refine .inr (.inl ⟨hopen, ?_⟩)
    rcases hpen with hsess | ⟨op, hop, hsess⟩
    · exact hses _ hsess
    · exact .inr ⟨op, hope hop, hsess⟩
  · exact .inr (.inr ⟨hhup, op, hope hop, hwai⟩)

theorem getElem?_setSession (hx : s.sessions[i]? = some x) (y : Session) (j : Nat) :
    (s.setSession i y).sessions[j]? = if i = j then some y else s.sessions[j]? := by
  simp only [setSession, List.getElem?_set]
  split
  case isTrue heq =>
    rw [if_pos (List.getElem?_eq_some_iff.mp hx).1]
  case isFalse => rfl

theorem closeSession_cases {stage : Option Stage} (h : s.closeSession i = (t, stage)) :
    (t = s ∧ stage = none ∧ ∀ x ∈ s.sessions[i]?, x.closing = true) ∨
    ∃ x, s.sessions[i]? = some x ∧
      ((x.process = .running ∧ t = s.setSession i { x with closing := true, hup := true } ∧ stage = some .reaping) ∨
        (x.process ≠ .running ∧ t = s.setSession i { x with closing := true })) := by
  unfold closeSession at h
  cases hx : s.sessions[i]? with
  | none =>
    simp only [hx, Prod.mk.injEq] at h
    exact .inl ⟨h.1.symm, h.2.symm, by simp⟩
  | some x =>
    simp only [hx] at h
    split at h
    case isTrue hclo =>
      rw [Prod.mk.injEq] at h
      exact .inl ⟨h.1.symm, h.2.symm, by simpa using hclo⟩
    case isFalse =>
      refine .inr ⟨x, rfl, ?_⟩
      split at h
      case isTrue hrun =>
        rw [Prod.mk.injEq] at h
        exact .inl ⟨hrun, h.1.symm, h.2.symm⟩
      case isFalse hrun =>
        rw [Prod.mk.injEq] at h
        exact .inr ⟨hrun, h.1.symm⟩

variable {y : Session}

theorem setSession_isRunning (hx : s.sessions[i]? = some x) (hy : y.process = x.process) (j : Nat) :
    (s.setSession i y).isRunning j = s.isRunning j := by
  rw [isRunning, getElem?_setSession hx, isRunning]
  split
  case isTrue heq => simp [← heq, hx, hy]
  case isFalse => rfl

variable {rest : Rest}

theorem Safe.wait {stage : Stage} (hkeys : ∀ key ∈ keys, key ∈ rest.keys)
    (hses : ∀ j ∈ sessions, j ∈ rest.sessions) {j : Nat} (h : Safe s keys sessions j x) :
    Safe (s.wait i stage rest) [] [] j x := by
  have hlast : { session := i, stage := stage, rest := rest } ∈ (s.wait i stage rest).operations :=
    mem_append_right _ (mem_singleton.mpr rfl)
  exact h.mono (fun key hkey => .inr ⟨_, hlast, hkeys key hkey⟩) (fun j hj => .inr ⟨_, hlast, hses j hj⟩)
    (subset_append_left _ _) id (List.Subset.refl _)

theorem safe_closeThen {onward : Manager → Manager}
    (hoth : ∀ (j : Nat) (x : Session), s.sessions[j]? = some x → x.process = .running → j ≠ i → Safe s keys sessions j x)
    (hself : ∀ x, s.sessions[i]? = some x → x.process = .running → x.closing = false ∨ Safe s keys sessions i x)
    (hkeys : ∀ key ∈ keys, key ∈ rest.keys) (hses : ∀ j ∈ sessions, j ∈ rest.sessions)
    (honw : ∀ t : Manager, t.table = s.table → (∀ j, t.isRunning j = s.isRunning j) → SafeBut t keys sessions →
      SafeBut (onward t) [] []) : SafeBut (s.closeThen i rest onward) [] [] := by
  unfold closeThen
  rcases hclos : s.closeSession i with ⟨t, stage⟩
  rcases closeSession_cases hclos with ⟨rfl, rfl, hclo⟩ | ⟨x, hx, ⟨hrun, rfl, rfl⟩ | ⟨hrun, rfl⟩⟩
  · refine honw t rfl (fun _ => rfl) fun j y hy hyr => ?_
    by_cases hji : j = i
    · subst hji
      refine (hself y hy hyr).resolve_left fun hopen => ?_
      rw [hclo y hy] at hopen
      cases hopen
    · exact hoth j y hy hyr hji
  · intro j y hy hyr
    have hy' : (if i = j then some { x with closing := true, hup := true } else s.sessions[j]?) = some y := by
      rw [← getElem?_setSession hx]
      exact hy
    split at hy'
    case isTrue heq =>
      subst heq
      rw [some_inj] at hy'
      subst hy'
      exact .inr (.inr ⟨rfl, { session := i, stage := .reaping, rest := rest },
        mem_append_right _ (mem_singleton.mpr rfl), rfl, by simp⟩)
    case isFalse hne =>
      have hold := hoth j y hy' hyr (Ne.symm hne)
      have hmar : Safe (s.setSession i { x with closing := true, hup := true }) keys sessions j y := hold
      exact hmar.wait hkeys hses
  have hmar : SafeBut (s.setSession i { x with closing := true }) keys sessions := by
    intro j y hy hyr
    rw [getElem?_setSession hx] at hy
    split at hy
    case isTrue =>
      rw [some_inj] at hy
      subst hy
      exact absurd hyr hrun
    case isFalse hne => exact hoth j y hy hyr (Ne.symm hne)
  cases stage with
  | none => exact honw _ rfl (setSession_isRunning hx rfl) hmar
  | some stage => exact fun j y hy hyr => (hmar j y hy hyr).wait hkeys hses

theorem safe_create (hs : SafeBut s [] []) (hfree : ∀ j ∈ s.table.get? key, s.isRunning j = false) :
    SafeBut (s.create key) [] [] := by
  intro j y hy hyr
  have hold : s.sessions[j]? = some y := by
    simp only [create, List.getElem?_append] at hy
    split at hy
    case isTrue => exact hy
    case isFalse =>
      have hnew := mem_of_getElem? hy
      rw [mem_singleton.mp hnew] at hyr
      cases hyr
  refine Safe.mono (s := s) (by simp) (by simp) (List.Subset.refl _) (fun hsto => ?_) (List.Subset.refl _)
    (hs j y hold hyr)
  have hne : y.key ≠ key := by
    intro heq
    have hrun := hfree j (by rw [← heq]; exact hsto)
    rw [isRunning_iff.mpr ⟨y, hold, hyr⟩] at hrun
    cases hrun
  show (s.table.set key s.sessions.length).get? y.key = some j
  rw [Dict.get?_set_of_ne _ _ hne]
  exact hsto

theorem closing_of_safe (h : Safe s keys sessions i x) :
    x.closing = false ∨ (x.hup = true ∧ ∃ op ∈ s.operations, op.session = i ∧ op.stage ≠ .flushing) := by
  rcases h with ⟨hopen, _⟩ | ⟨hopen, _⟩ | hwai
  · exact .inl hopen
  · exact .inl hopen
  · exact .inr hwai

theorem safe_pop (hsto : s.table.get? key = some i)
    (hkeys : ∀ k ∈ keys, k ≠ key → k ∈ keys') (hs : SafeBut s keys sessions) {j : Nat}
    (hy : s.sessions[j]? = some y) (hyr : y.process = .running) (hji : j ≠ i) :
    Safe (s.pop key) keys' sessions j y := by
  rcases hs j y hy hyr with ⟨hopen, hin, hcon⟩ | hpen | hwai
  · have hne : y.key ≠ key := by
      intro heq
      rw [Stored, heq, hsto, some_inj] at hin
      exact hji hin.symm
    refine .inl ⟨hopen, ?_, fun hgone => (hcon hgone).imp (fun hkey => hkeys _ hkey hne) id⟩
    show (s.table.erase key).get? y.key = some j
    rw [Dict.get?_erase_of_ne _ hne]
    exact hin
  · exact .inr (.inl hpen)
  · exact .inr (.inr hwai)

theorem safe_popped (hs : SafeBut s keys sessions) (hy : s.sessions[i]? = some y)
    (hyr : y.process = .running) : y.closing = false ∨ Safe (s.pop key) keys' sessions' i y :=
  (closing_of_safe (hs i y hy hyr)).imp id fun hwai => .inr (.inr hwai)

theorem safe_closeKeys (hs : SafeBut s keys []) : SafeBut (s.closeKeys keys) [] [] := by
  induction keys generalizing s with
  | nil => exact hs
  | cons key rest ih =>
    unfold closeKeys
    have htail : ∀ k ∈ key :: rest, k ≠ key → k ∈ rest := fun k hk hne => (mem_cons.mp hk).resolve_left hne
    cases hsto : s.table.get? key with
    | none =>
      refine ih fun j y hy hyr => ?_
      rcases hs j y hy hyr with ⟨hopen, hin, hcon⟩ | hpen | hwai
      · refine .inl ⟨hopen, hin, fun hgone => (hcon hgone).imp (fun hkey => htail _ hkey ?_) id⟩
        intro heq
        rw [Stored, heq, hsto] at hin
        cases hin
      · exact .inr (.inl hpen)
      · exact .inr (.inr hwai)
    | some i =>
      exact safe_closeThen (fun j y hy hyr hji => safe_pop hsto htail hs hy hyr hji)
        (fun y hy hyr => safe_popped hs hy hyr) (fun k hk => hk) (by simp) fun t _ _ ht => ih ht

theorem safe_closeSessions (hs : SafeBut s [] sessions) : SafeBut (s.closeSessions sessions) [] [] := by
  induction sessions generalizing s with
  | nil => exact hs
  | cons i rest ih =>
    have hoth : ∀ (j : Nat) (y : Session), s.sessions[j]? = some y → y.process = .running → j ≠ i →
        Safe s [] rest j y := by
      intro j y hy hyr hji
      rcases hs j y hy hyr with hsto | ⟨hopen, hpen⟩ | hwai
      · exact .inl hsto
      · exact .inr (.inl ⟨hopen, hpen.imp (fun hj => (mem_cons.mp hj).resolve_left hji) id⟩)
      · exact .inr (.inr hwai)
    exact safe_closeThen hoth (fun y hy hyr => (closing_of_safe (hs i y hy hyr)).imp id fun hwai =>
      .inr (.inr hwai)) (by simp) (fun j hj => hj) fun t _ _ ht => ih ht

theorem safe_resume (hs : SafeBut s rest.keys rest.sessions)
    (hfree : ∀ key, rest = .opening key → ∀ j ∈ s.table.get? key, s.isRunning j = false) :
    SafeBut (s.resume rest) [] [] := by
  cases rest with
  | done => exact hs
  | opening key => exact safe_create hs (hfree key rfl)
  | connection keys => exact safe_closeKeys hs
  | all sessions => exact safe_closeSessions hs

theorem safe_flush {op : Operation} (hs : SafeBut s op.rest.keys op.rest.sessions)
    (hfree : ∀ key, op.rest = .opening key → ∀ j ∈ s.table.get? key, s.isRunning j = false) :
    SafeBut (s.flush op) [] [] := by
  unfold flush
  split
  · exact fun j y hy hyr => (hs j y hy hyr).wait (fun _ h => h) fun _ h => h
  · exact safe_resume hs hfree

end Safety

section Steps

variable {s t : Manager} {keys : List Key} {sessions : List Nat} {i k : Nat} {op : Operation} {e : Event}

theorem mem_drop (hk : s.operations[k]? = some op) {other : Operation} (hoth : other ∈ s.operations) :
    other = op ∨ other ∈ (s.drop k).operations := by
  obtain ⟨j, hj⟩ := mem_iff_getElem?.mp hoth
  by_cases hjk : j = k
  · rw [hjk, hk, some_inj] at hj
    exact .inl hj.symm
  · exact .inr (mem_eraseIdx_iff_getElem?.mpr ⟨j, hjk, hj⟩)

/-- What the dropped operation was to close is safe but for its rest, unless that is what the operation waits for. -/
theorem safe_dropped (hs : SafeBut s [] []) (hk : s.operations[k]? = some op) {j : Nat} {y : Session}
    (hy : s.sessions[j]? = some y) (hyr : y.process = .running) :
    Safe (s.drop k) op.rest.keys op.rest.sessions j y ∨ (y.hup = true ∧ op.session = j ∧ op.stage ≠ .flushing) := by
  rcases hs j y hy hyr with ⟨hopen, hsto, hcon⟩ | ⟨hopen, hpen⟩ | ⟨hhup, other, hmem, hsame, hwai⟩
  · refine .inl (.inl ⟨hopen, hsto, fun hgone => ?_⟩)
    obtain ⟨other, hmem, hkey⟩ := (hcon hgone).resolve_left (by simp)
    rcases mem_drop hk hmem with rfl | hrest
    · exact .inl hkey
    · exact .inr ⟨other, hrest, hkey⟩
  · obtain ⟨other, hmem, hses⟩ := hpen.resolve_left (by simp)
    refine .inl (.inr (.inl ⟨hopen, ?_⟩))
    rcases mem_drop hk hmem with rfl | hrest
    · exact .inl hses
    · exact .inr ⟨other, hrest, hses⟩
  rcases mem_drop hk hmem with rfl | hrest
  · exact .inr ⟨hhup, hsame, hwai⟩
  · exact .inl (.inr (.inr ⟨hhup, other, hrest, hsame, hwai⟩))

theorem safe_drop (hs : SafeBut s [] []) (hk : s.operations[k]? = some op)
    (hover : op.stage = .flushing ∨ s.isRunning op.session = false) :
    SafeBut (s.drop k) op.rest.keys op.rest.sessions := by
  intro j y hy hyr
  refine (safe_dropped hs hk hy hyr).resolve_right ?_
  rintro ⟨_, rfl, hwai⟩
  have hrun : s.isRunning op.session = true := isRunning_iff.mpr ⟨y, hy, hyr⟩
  rw [hover.resolve_left hwai] at hrun
  cases hrun

theorem safe_killed (hs : SafeBut s [] []) (hk : s.operations[k]? = some op) :
    SafeBut ((s.drop k).wait op.session .killed op.rest) [] [] := by
  have hlast : { session := op.session, stage := .killed, rest := op.rest } ∈
      ((s.drop k).wait op.session .killed op.rest).operations := mem_append_right _ (mem_singleton.mpr rfl)
  intro j y hy hyr
  rcases safe_dropped hs hk hy hyr with hsafe | ⟨hhup, hsame, _⟩
  · exact hsafe.wait (fun _ h => h) fun _ h => h
  · exact .inr (.inr ⟨hhup, _, hlast, hsame, by simp⟩)

/-- A session that keeps its key, its marks and, unless it is not running any more, its process. -/
structure SameShell (x y : Session) : Prop where
  key : y.key = x.key
  closing : y.closing = x.closing
  hup : y.hup = x.hup
  process : y.process = .running → x.process = .running

theorem getElem?_updateSession (f : Session → Session) (j : Nat) :
    (s.updateSession i f).sessions[j]? = s.sessions[j]?.map fun x => if i = j then f x else x := by
  simp only [updateSession, List.getElem?_modify]
  rfl

theorem safe_updateSession {f : Session → Session} (hf : ∀ x, SameShell x (f x)) (hs : SafeBut s keys sessions) :
    SafeBut (s.updateSession i f) keys sessions := by
  intro j y hy hyr
  rw [getElem?_updateSession, map_eq_some_iff] at hy
  obtain ⟨x, hx, rfl⟩ := hy
  split at hyr
  case isTrue heq =>
    have hsafe := hs j x hx ((hf x).process hyr)
    simp only [heq, if_true]
    unfold Safe Stored at hsafe ⊢
    rw [(hf x).key, (hf x).closing, (hf x).hup]
    exact hsafe
  case isFalse hne =>
    simp only [hne, if_false]
    exact hs j x hx hyr

theorem updateSession_isRunning {f : Session → Session} (hf : ∀ x, (f x).process = x.process) (j : Nat) :
    (s.updateSession i f).isRunning j = s.isRunning j := by
  rw [isRunning, getElem?_updateSession, isRunning]
  cases s.sessions[j]? with
  | none => rfl
  | some x =>
    simp only [map_some, any_some]
    split
    · rw [hf]
    · rfl

theorem not_overwrites (hk : s.operations[k]? = some op) (h : ¬ s.Overwrites k) :
    ∀ key, op.rest = .opening key → ∀ j ∈ (s.drop k).table.get? key, (s.drop k).isRunning j = false := by
  intro key hrest j hj
  by_contra hrun
  exact h ⟨op, hk, key, by rw [hrest]; rfl, j, hj, Bool.eq_true_of_not_eq_false hrun⟩

variable (hs : SafeBut s [] [])

include hs

theorem safe_spawned (hten : Tended s (.spawned i)) :
    SafeBut (s.updateSession i fun x => { x with process := .running, sender := true }) [] [] := by
  intro j y hy hyr
  rw [getElem?_updateSession, map_eq_some_iff] at hy
  obtain ⟨z, hz, rfl⟩ := hy
  by_cases hij : i = j
  · subst hij
    rw [if_pos rfl]
    obtain ⟨hopen, hkept⟩ := hten z hz
    rcases hkept with hpen | ⟨hsto, hcon⟩
    · exact .inr (.inl ⟨hopen, .inr hpen⟩)
    · exact .inl ⟨hopen, hsto, fun hgone => .inr (hcon hgone)⟩
  · rw [if_neg hij] at hyr ⊢
    exact hs j z hz hyr

theorem safe_failed {x : Session} (hx : s.sessions[i]? = some x) (hten : Tended s (.failed i)) :
    SafeBut ((s.updateSession i fun x => { x with process := .failed }).pop x.key) [] [] := by
  have hupd : SafeBut (s.updateSession i fun x => { x with process := .failed }) [] [] :=
    safe_updateSession (fun x => ⟨rfl, rfl, rfl, fun h => by cases h⟩) hs
  intro j y hy hyr
  rcases hupd j y hy hyr with ⟨hopen, hsto, hcon⟩ | hpen | hwai
  · have hne : y.key ≠ x.key := by
      intro heq
      have hfree := hten x hx j (by rw [← heq]; exact hsto)
      have hold : s.isRunning j = true := by
        have hy' := hy
        rw [show ((s.updateSession i fun x => { x with process := .failed }).pop x.key).sessions =
          (s.updateSession i fun x => { x with process := .failed }).sessions from rfl, getElem?_updateSession,
          map_eq_some_iff] at hy'
        obtain ⟨z, hz, rfl⟩ := hy'
        split at hyr
        · cases hyr
        · exact isRunning_iff.mpr ⟨z, hz, hyr⟩
      rw [hold] at hfree
      cases hfree
    refine .inl ⟨hopen, ?_, hcon⟩
    show (s.table.erase x.key).get? y.key = some j
    rw [Dict.get?_erase_of_ne _ hne]
    exact hsto
  · exact .inr (.inl hpen)
  · exact .inr (.inr hwai)

theorem safe_openTerminal : SafeBut (s.openTerminal key) [] [] := by
  unfold openTerminal
  cases hsto : s.table.get? key with
  | none => exact safe_create hs (by simp [hsto])
  | some i =>
    simp only
    split
    · exact hs
    case isFalse hidle =>
      refine safe_closeThen (fun j y hy hyr _ => hs j y hy hyr) (fun y hy hyr => .inr (hs i y hy hyr)) (by simp) (by simp)
        fun t htab hrun ht => safe_create ht fun j hj => ?_
      rw [htab, hsto] at hj
      rw [hrun, ← some_inj.mp hj]
      simpa using hidle

theorem safe_close : SafeBut (s.close key) [] [] := by
  unfold close
  cases hsto : s.table.get? key with
  | none => exact hs
  | some i =>
    exact safe_closeThen (fun j y hy hyr hji => safe_pop hsto (by simp) hs hy hyr hji)
      (fun y hy hyr => safe_popped hs hy hyr) (by simp) (by simp) fun t _ _ ht => ht

theorem safe_closeForConnection {connection : String} : SafeBut (s.closeForConnection connection) [] [] := by
  refine safe_closeKeys fun j y hy hyr => ?_
  rcases hs j y hy hyr with ⟨hopen, hsto, hcon⟩ | ⟨hopen, hpen⟩ | hwai
  · refine .inl ⟨hopen, hsto, fun hgone => ?_⟩
    rcases mem_append.mp hgone with hold | hnew
    · exact .inr ((hcon hold).resolve_left (by simp))
    · refine .inl (mem_filter.mpr ⟨(s.table.mem_keys_iff y.key).mpr ⟨j, hsto⟩, ?_⟩)
      simpa using mem_singleton.mp hnew
  · exact .inr (.inl ⟨hopen, hpen⟩)
  · exact .inr (.inr hwai)

theorem safe_closeAll : SafeBut s.closeAll [] [] := by
  refine safe_closeSessions fun j y hy hyr => ?_
  rcases hs j y hy hyr with ⟨hopen, hsto, _⟩ | ⟨hopen, hpen⟩ | hwai
  · exact .inr (.inl ⟨hopen, .inl ((s.table.mem_values_iff j).mpr ⟨y.key, hsto⟩)⟩)
  · exact .inr (.inl ⟨hopen, .inr (hpen.resolve_left (by simp))⟩)
  · exact .inr (.inr hwai)

theorem safe_next (hten : Tended s e) (h : next s e = some t) : SafeBut t [] [] := by
  cases e with
  | openTerminal key =>
    cases h
    exact safe_openTerminal hs
  | close key =>
    cases h
    exact safe_close hs
  | closeForConnection connection =>
    cases h
    exact safe_closeForConnection hs
  | closeAll =>
    cases h
    exact safe_closeAll hs
  | spawned i =>
    obtain ⟨x, hx, h⟩ := bind_eq_some_iff.mp h
    obtain ⟨_, h⟩ := ite_none_right_eq_some.mp h
    cases h
    exact safe_spawned hs hten
  | failed i =>
    obtain ⟨x, hx, h⟩ := bind_eq_some_iff.mp h
    obtain ⟨_, h⟩ := ite_none_right_eq_some.mp h
    cases h
    exact safe_failed hs hx hten
  | exited i =>
    obtain ⟨_, h⟩ := ite_none_right_eq_some.mp h
    cases h
    exact safe_updateSession (fun x => ⟨rfl, rfl, rfl, fun h => by cases h⟩) hs
  | finalized i =>
    obtain ⟨x, hx, h⟩ := bind_eq_some_iff.mp h
    obtain ⟨_, h⟩ := ite_none_right_eq_some.mp h
    cases h
    exact safe_updateSession (fun x => ⟨rfl, rfl, rfl, id⟩) hs
  | reaped k =>
    obtain ⟨op, hk, h⟩ := bind_eq_some_iff.mp h
    obtain ⟨hwai, h⟩ := ite_none_right_eq_some.mp h
    cases h
    have hfree := not_overwrites hk hten
    exact safe_flush (safe_drop hs hk (.inr hwai.2)) hfree
  | timeout k =>
    obtain ⟨op, hk, h⟩ := bind_eq_some_iff.mp h
    cases hstage : op.stage with
    | reaping =>
      simp only [hstage, some_inj] at h
      subst h
      have hkill : SafeBut (s.updateSession op.session fun x => { x with kill := x.process = .running }) [] [] :=
        safe_updateSession (fun x => ⟨rfl, rfl, rfl, id⟩) hs
      exact safe_killed hkill hk
    | killed =>
      simp only [hstage, some_inj] at h
      subst h
      have hfree := not_overwrites hk hten.1
      exact safe_flush (safe_drop hs hk (.inr (hten.2 op hk hstage))) hfree
    | flushing => simp [hstage] at h
  | flushed k =>
    obtain ⟨op, hk, h⟩ := bind_eq_some_iff.mp h
    obtain ⟨hflu, h⟩ := ite_none_right_eq_some.mp h
    cases h
    refine safe_resume (safe_updateSession (fun x => ⟨rfl, rfl, rfl, id⟩) (safe_drop hs hk (.inl hflu))) ?_
    intro key hrest j hj
    have hsame := updateSession_isRunning (s := s.drop k) (i := op.session)
      (f := fun x : Session => { x with sender := false }) (fun _ => rfl) j
    rw [hsame]
    exact not_overwrites hk hten key hrest j hj

end Steps

/-- Over every interleaving, as long as no process is made for a session that was closed, replaced or left without its
connection before. -/
theorem tended_terminals_owned {s : Manager} (h : Runs.ReachesUnder next Tended {} s) : Owned s :=
  SafeBut.owned (Runs.invariant_under (fun _ _ _ hs hten he => safe_next hs hten he) (by simp [SafeBut]) h)

section Decisions

variable (s : Manager)

instance (i : Nat) : Decidable (Manager.SessionPending s i) :=
  inferInstanceAs (Decidable (∃ op ∈ s.operations, i ∈ op.rest.sessions))

instance (key : Key) : Decidable (Manager.KeyPending s key) :=
  inferInstanceAs (Decidable (∃ op ∈ s.operations, key ∈ op.rest.keys))

instance (i : Nat) (x : Session) : Decidable (Manager.Stored s i x) :=
  inferInstanceAs (Decidable (s.table.get? x.key = some i))

instance (k : Nat) : Decidable (Manager.Overwrites s k) :=
  inferInstanceAs (Decidable (∃ op ∈ s.operations[k]?, ∃ key ∈ (match op.rest with
    | .opening key => some key
    | .done | .connection _ | .all _ => none), ∃ j ∈ s.table.get? key, s.isRunning j = true))

instance (e : Event) : Decidable (Tended s e) :=
  match e with
  | .spawned i => inferInstanceAs (Decidable (∀ x ∈ s.sessions[i]?, x.closing = false ∧
      (s.SessionPending i ∨ (s.Stored i x ∧ (x.key.1 ∈ s.disconnected → s.KeyPending x.key)))))
  | .failed i => inferInstanceAs (Decidable (∀ x ∈ s.sessions[i]?, ∀ j ∈ s.table.get? x.key, s.isRunning j = false))
  | .timeout k => inferInstanceAs (Decidable (¬ s.Overwrites k ∧ ∀ op ∈ s.operations[k]?, op.stage = .killed →
      s.isRunning op.session = false))
  | .reaped k | .flushed k => inferInstanceAs (Decidable (¬ s.Overwrites k))
  | .openTerminal _ | .close _ | .closeForConnection _ | .closeAll | .exited _ | .finalized _ =>
    inferInstanceAs (Decidable True)

end Decisions

/-- A terminal is attached to again and replaced once its shell has exited; another is closed with a SIGKILL while one
more is being made. -/
def tendedRun : List Event :=
  [.openTerminal ("c", "a"), .spawned 0, .openTerminal ("c", "a"), .exited 0, .openTerminal ("c", "a"), .flushed 0,
    .spawned 1, .openTerminal ("c", "b"), .spawned 2, .close ("c", "b"), .timeout 0, .exited 2, .reaped 0, .flushed 0,
    .openTerminal ("c", "b"), .closeForConnection "c", .spawned 3, .exited 1, .reaped 0, .flushed 0, .exited 3, .reaped 0,
    .flushed 0]

theorem tended_run_owned : ∃ s, Runs.run next {} tendedRun = some s ∧
    s.sessions.map Session.hup = [false, true, true, true] ∧ s.Quiet ∧ Owned s := by
  have hrun : ∃ s, Runs.run next {} tendedRun = some s ∧ s.sessions.map Session.hup = [false, true, true, true] ∧
      s.operations = [] ∧ ∀ x ∈ s.sessions, x.process ≠ .spawning := ⟨_, rfl, rfl, rfl, by decide⟩
  obtain ⟨s, hs, hhup, hope, hpro⟩ := hrun
  exact ⟨s, hs, hhup, ⟨hope, hpro⟩, tended_terminals_owned (Runs.reachesUnder_of_all (by decide) hs)⟩

def closedEarly : List Event := [.openTerminal ("c", "a"), .close ("c", "a"), .spawned 0]

theorem early_close_leaves_shell : ¬ ∀ es s, Runs.run next {} es = some s → Owned s := by
  intro hall
  have hown := hall closedEarly _ rfl
  obtain ⟨hsto, _⟩ := hown.settled ⟨rfl, by decide⟩ 0
    { key := ("c", "a"), process := .running, closing := true, sender := true } rfl rfl
  exact absurd hsto (by decide)

end OpenAgent.Gateway.Terminals
