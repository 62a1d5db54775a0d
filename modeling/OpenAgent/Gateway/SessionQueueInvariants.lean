import OpenAgent.Gateway.SessionQueues

namespace OpenAgent.Gateway.Sessions

open List Option Manager

def Manager.keyOf (s : Manager) (h : Nat) : Option Key := s.handlers[h]?.map Handler.key

structure Disciplined (s : Manager) : Prop where
  alone : ∀ (a b : Nat) (x y : Handler), s.handlers[a]? = some x → s.handlers[b]? = some y →
    x.stage = .running → y.stage = .running → x.key = y.key → a = b
  ordered : ∀ key, (s.started.filter fun h => s.keyOf h == some key).Pairwise (· < ·)
  silent : ∀ h ∈ s.doomed, h ∉ s.started
  own : ∀ entry ∈ s.cancels, s.keyOf entry.2 = some entry.1

def SessionState.draining (state : SessionState) : Bool :=
  match state.worker with
  | .idle => false
  | .created cancelled => !cancelled
  | .awaiting _ => true

def SessionState.serving (state : SessionState) : Bool :=
  match state.worker with
  | .awaiting _ => true
  | .idle | .created _ => false

namespace Manager

variable (s : Manager)

def live (state : SessionState) : Bool :=
  match state.worker with
  | .awaiting h => s.stage h = some (.made false) || s.stage h = some .running
  | .idle | .created _ => false

def busy (state : SessionState) : Bool := s.live state || (state.draining && !state.pending.isEmpty)

def accepts (key : Key) : Bool :=
  match (s.states key).bind (s.objects[·]?) with
  | none => true
  | some state => state.pending.length < maxQueueSize

def Abandoned (scope : Key → Bool) : Prop :=
  ∃ entry ∈ s.objects.zipIdx, scope entry.1.key = true ∧ s.registered entry.2 entry.1 = false ∧
    entry.1.draining = true ∧ entry.1.pending ≠ []

def Backlogged (scope : Key → Bool) : Prop :=
  ∃ entry ∈ s.objects.zipIdx, scope entry.1.key = true ∧ entry.1.serving = true ∧ entry.1.pending ≠ []

def Settled (key : Key) : Prop :=
  ∀ entry ∈ s.objects.zipIdx, entry.1.key = key → s.registered entry.2 entry.1 = false → s.busy entry.1 = false

def Fresh (key : Key) : Prop :=
  ∀ entry ∈ s.objects.zipIdx, entry.1.key = key → s.registered entry.2 entry.1 = true → entry.1.worker = .idle →
    ∀ h ∈ entry.1.pending, h ∉ s.doomed

end Manager

/-- A session is reset or deleted, and the manager shut down, only when nothing waits behind a running handler, and a
session whose queue was taken away gets new work only when that has ended. -/
def Spared (s : Manager) (e : Event) : Prop :=
  match e with
  | .enqueue client session =>
    s.accepts (sessionKey client session) = true →
      s.Settled (sessionKey client session) ∧ s.Fresh (sessionKey client session)
  | .clearQueue client => ¬ s.Abandoned fun key => key.1 == client
  | .clearQueueForSession client sid => ¬ s.Abandoned fun key => key == (client, sid)
  | .resetSession client sid | .deleteSession client sid =>
    ¬ (s.Abandoned fun key => key == (client, sid)) ∧ ¬ s.Backlogged fun key => key == (client, sid)
  | .shutdown _ => ¬ s.Abandoned Manager.everything ∧ ¬ s.Backlogged Manager.everything
  | .workerStep _ | .begin _ | .finish _ | .stopCurrent _ _ | .finishShutdown _ => True

structure Sound (s : Manager) : Prop where
  home : ∀ (h : Nat) (x : Handler), s.handlers[h]? = some x → ∃ state, s.objects[x.object]? = some state ∧ state.key = x.key
  pending : ∀ (i : Nat) (state : SessionState), s.objects[i]? = some state → ∀ h ∈ state.pending,
    ∃ x, s.handlers[h]? = some x ∧ x.object = i ∧ x.stage = .fresh
  sorted : ∀ (i : Nat) (state : SessionState), s.objects[i]? = some state → state.pending.Pairwise (· < ·)
  awaiting : ∀ (i : Nat) (state : SessionState) (h : Nat), s.objects[i]? = some state → state.worker = .awaiting h →
    (∃ x, s.handlers[h]? = some x ∧ x.object = i ∧ x.stage ≠ .fresh) ∧ ∀ p ∈ state.pending, h < p
  live : ∀ (h : Nat) (x : Handler), s.handlers[h]? = some x → x.stage ≠ .fresh → x.stage ≠ .ended →
    ∃ state, s.objects[x.object]? = some state ∧ state.worker = .awaiting h
  table : ∀ key i, s.states key = some i → ∃ state, s.objects[i]? = some state ∧ state.key = key
  started : ∀ h ∈ s.started, ∃ x, s.handlers[h]? = some x ∧ (x.stage = .running ∨ x.stage = .ended)
  own : ∀ entry ∈ s.cancels, s.keyOf entry.2 = some entry.1

def Active (s : Manager) (i : Nat) (state : SessionState) : Prop :=
  s.live state = true ∨ (state.pending ≠ [] ∧ (s.registered i state = true ∨ state.draining = true))

structure Kept (s : Manager) : Prop where
  single : ∀ (i j : Nat) (a b : SessionState), s.objects[i]? = some a → s.objects[j]? = some b → a.key = b.key →
    Active s i a → Active s j b → i = j
  ordered : ∀ key, (s.started.filter fun h => s.keyOf h == some key).Pairwise (· < ·)
  ahead : ∀ (i : Nat) (state : SessionState), s.objects[i]? = some state → Active s i state →
    ∀ a ∈ s.started, s.keyOf a = some state.key →
      (∀ p ∈ state.pending, a < p) ∧ ∀ h, state.worker = .awaiting h → s.stage h = some (.made false) → a < h
  silent : ∀ d ∈ s.doomed, s.stage d = some .fresh ∧
    ∀ (i : Nat) (state : SessionState), s.objects[i]? = some state → d ∈ state.pending → state.draining = false

section Reads

variable {s : Manager} {h : Nat} {x : Handler}

@[simp] theorem stage_of (hx : s.handlers[h]? = some x) : s.stage h = some x.stage := by simp [stage, hx]

@[simp] theorem keyOf_of (hx : s.handlers[h]? = some x) : s.keyOf h = some x.key := by simp [keyOf, hx]

theorem of_stage {st : Stage} (hs : s.stage h = some st) : ∃ x, s.handlers[h]? = some x ∧ x.stage = st := by
  simpa [stage, map_eq_some_iff] using hs

theorem live_of {state : SessionState} (hl : s.live state = true) :
    ∃ h, state.worker = .awaiting h ∧ (s.stage h = some (.made false) ∨ s.stage h = some .running) := by
  unfold live at hl
  cases hw : state.worker with
  | awaiting h => exact ⟨h, rfl, by simpa [hw] using hl⟩
  | idle | created _ => simp [hw] at hl

theorem live_awaiting {state : SessionState} (hw : state.worker = .awaiting h)
    (hs : s.stage h = some (.made false) ∨ s.stage h = some .running) : s.live state = true := by
  simpa [live, hw] using hs

end Reads

theorem Kept.disciplined {s : Manager} (hk : Kept s) (hs : Sound s) : Disciplined s where
  alone a b x y ha hb hx hy hkey := by
    obtain ⟨p, hp, hpw⟩ := hs.live a x ha (by simp [hx]) (by simp [hx])
    obtain ⟨q, hq, hqw⟩ := hs.live b y hb (by simp [hy]) (by simp [hy])
    have hpkey : p.key = x.key := by
      obtain ⟨p', hp', hkey'⟩ := hs.home a x ha
      rw [hp, some_inj] at hp'
      rw [hp', hkey']
    have hqkey : q.key = y.key := by
      obtain ⟨q', hq', hkey'⟩ := hs.home b y hb
      rw [hq, some_inj] at hq'
      rw [hq', hkey']
    have hact := hk.single _ _ p q hp hq (by rw [hpkey, hqkey, hkey])
      (.inl (live_awaiting hpw (.inr (by rw [stage_of ha, hx])))) (.inl (live_awaiting hqw (.inr (by rw [stage_of hb, hy]))))
    rw [hact, hq, some_inj] at hp
    rw [hp, hpw, Worker.awaiting.injEq] at hqw
    exact hqw
  ordered := hk.ordered
  silent d hd hsta := by
    obtain ⟨x, hx, hstage⟩ := hs.started d hsta
    have hfre := (hk.silent d hd).1
    rw [stage_of hx, some_inj] at hfre
    rcases hstage with h | h <;> rw [h] at hfre <;> cases hfre
  own := hs.own

section Subsiding

inductive Ebbs : Stage → Stage → Prop where
  | same (stage) : Ebbs stage stage
  | cancelled (c) : Ebbs (.made c) (.made true)
  | unrun (c) : Ebbs (.made c) .ended
  | finished : Ebbs .running .ended

/-- A queue loses handlers, and its worker is cancelled or returns. -/
structure Wanes (s : Manager) (before after : SessionState) : Prop where
  key : after.key = before.key
  pending : after.pending.Sublist before.pending
  worker : after.worker = before.worker ∨ (∃ c, before.worker = .created c ∧ after.worker = .created true) ∨
    (after.worker = .idle ∧ ∀ h, before.worker = .awaiting h → s.stage h = some .ended)

def GoesOn (x y : Handler) : Prop := y.key = x.key ∧ y.object = x.object ∧ Ebbs x.stage y.stage

structure Subsides (s t : Manager) : Prop where
  handlers : ∀ h : Nat, Option.Rel GoesOn s.handlers[h]? t.handlers[h]?
  objects : ∀ i : Nat, Option.Rel (Wanes s) s.objects[i]? t.objects[i]?
  states : ∀ key i, t.states key = some i → s.states key = some i
  started : t.started = s.started
  doomed : t.doomed = s.doomed
  cancels : t.cancels = s.cancels

variable {s t : Manager}

theorem rel_some_left {α β : Type} {R : α → β → Prop} {x : α} {o : Option α} {o' : Option β} (hr : Option.Rel R o o')
    (ho : o = some x) : ∃ y, o' = some y ∧ R x y := by
  subst ho
  cases hr with
  | some h => exact ⟨_, rfl, h⟩

theorem rel_some_right {α β : Type} {R : α → β → Prop} {y : β} {o : Option α} {o' : Option β} (hr : Option.Rel R o o')
    (ho : o' = some y) : ∃ x, o = some x ∧ R x y := by
  subst ho
  cases hr with
  | some h => exact ⟨_, rfl, h⟩

variable {a b : Stage}

theorem Ebbs.fresh_iff (h : Ebbs a b) : b = .fresh ↔ a = .fresh := by
  cases h <;> simp

theorem Ebbs.of_live (h : Ebbs a b) (hb : b = .made false ∨ b = .running) : b = a := by
  cases h with
  | same => rfl
  | cancelled | unrun | finished => simp at hb

theorem Ebbs.under_way (h : Ebbs a b) (hfre : b ≠ .fresh) (hend : b ≠ .ended) :
    a ≠ .fresh ∧ a ≠ .ended := by
  cases h with
  | same => exact ⟨hfre, hend⟩
  | cancelled => simp
  | unrun | finished => simp at hend

theorem Ebbs.begun (h : Ebbs a b) (ha : a = .running ∨ a = .ended) : b = .running ∨ b = .ended := by
  cases h with
  | same => exact ha
  | cancelled => simp at ha
  | unrun => simp
  | finished => simp

theorem Wanes.refl (s : Manager) (state : SessionState) : Wanes s state state := ⟨rfl, List.Sublist.refl _, .inl rfl⟩

theorem Wanes.awaiting {a b : SessionState} {h : Nat} (hw : Wanes s a b) (hb : b.worker = .awaiting h) :
    a.worker = .awaiting h := by
  rcases hw.worker with hsame | ⟨c, _, hcan⟩ | ⟨hidle, _⟩
  · rw [← hsame, hb]
  · rw [hb] at hcan
    cases hcan
  · rw [hb] at hidle
    cases hidle

theorem Wanes.draining {a b : SessionState} (hw : Wanes s a b) (hb : b.draining = true) : a.draining = true := by
  rcases hw.worker with hsame | ⟨c, _, hcan⟩ | ⟨hidle, _⟩
  · rw [SessionState.draining, ← hsame]
    exact hb
  · simp [SessionState.draining, hcan] at hb
  · simp [SessionState.draining, hidle] at hb

theorem Subsides.keyOf (hst : Subsides s t) (h : Nat) : t.keyOf h = s.keyOf h := by
  have hr := hst.handlers h
  unfold Manager.keyOf
  cases hs : s.handlers[h]? with
  | none =>
    rw [hs] at hr
    cases ht : t.handlers[h]? with
    | none => rfl
    | some y =>
      rw [ht] at hr
      cases hr
  | some x =>
    obtain ⟨y, hy, hkey, _⟩ := rel_some_left hr hs
    simp [hy, hkey]

theorem Subsides.of_stage (hst : Subsides s t) {h : Nat} {st : Stage} (ht : t.stage h = some st) :
    ∃ st', s.stage h = some st' ∧ Ebbs st' st := by
  obtain ⟨y, hy, rfl⟩ := Sessions.of_stage ht
  obtain ⟨x, hx, _, _, hebbs⟩ := rel_some_right (hst.handlers h) hy
  exact ⟨x.stage, stage_of hx, hebbs⟩

theorem Subsides.of_live (hst : Subsides s t) {h : Nat}
    (ht : t.stage h = some (.made false) ∨ t.stage h = some .running) :
    t.stage h = s.stage h := by
  rcases ht with ht | ht
  · obtain ⟨st, hs, hebbs⟩ := hst.of_stage ht
    rw [ht, hs, hebbs.of_live (.inl rfl)]
  · obtain ⟨st, hs, hebbs⟩ := hst.of_stage ht
    rw [ht, hs, hebbs.of_live (.inr rfl)]

theorem Subsides.registered (hst : Subsides s t) {i : Nat} {a b : SessionState} (hw : Wanes s a b)
    (hb : t.registered i b = true) : s.registered i a = true := by
  simp only [Manager.registered, decide_eq_true_eq, hw.key] at hb ⊢
  exact hst.states _ _ hb

theorem Subsides.active (hst : Subsides s t) {i : Nat} {a b : SessionState} (hw : Wanes s a b) (hb : Active t i b) :
    Active s i a := by
  rcases hb with hlive | ⟨hpen, hser⟩
  · obtain ⟨h, hawa, hstage⟩ := live_of hlive
    refine .inl (live_awaiting (hw.awaiting hawa) ?_)
    rw [← hst.of_live hstage]
    exact hstage
  refine .inr ⟨fun hnil => hpen ?_, ?_⟩
  · have hsub := hw.pending
    rw [hnil] at hsub
    exact sublist_nil.mp hsub
  · exact hser.imp (hst.registered hw) hw.draining

theorem Subsides.sound (hst : Subsides s t) (hs : Sound s) : Sound t where
  home h y hy := by
    obtain ⟨x, hx, hkey, hobj, _⟩ := rel_some_right (hst.handlers h) hy
    obtain ⟨a, ha, hak⟩ := hs.home h x hx
    obtain ⟨b, hb, hw⟩ := rel_some_left (hst.objects x.object) ha
    exact ⟨b, by rw [hobj]; exact hb, by rw [hw.key, hak, hkey]⟩
  pending i b hb h hh := by
    obtain ⟨a, ha, hw⟩ := rel_some_right (hst.objects i) hb
    obtain ⟨x, hx, hobj, hfre⟩ := hs.pending i a ha h (hw.pending.subset hh)
    obtain ⟨y, hy, _, hsame, hebbs⟩ := rel_some_left (hst.handlers h) hx
    exact ⟨y, hy, by rw [hsame, hobj], hebbs.fresh_iff.mpr hfre⟩
  sorted i b hb := by
    obtain ⟨a, ha, hw⟩ := rel_some_right (hst.objects i) hb
    exact (hs.sorted i a ha).sublist hw.pending
  awaiting i b h hb hawa := by
    obtain ⟨a, ha, hw⟩ := rel_some_right (hst.objects i) hb
    obtain ⟨⟨x, hx, hobj, hstage⟩, hbeh⟩ := hs.awaiting i a h ha (hw.awaiting hawa)
    obtain ⟨y, hy, _, hsame, hebbs⟩ := rel_some_left (hst.handlers h) hx
    exact ⟨⟨y, hy, by rw [hsame, hobj], fun hfre => hstage (hebbs.fresh_iff.mp hfre)⟩,
      fun p hp => hbeh p (hw.pending.subset hp)⟩
  live h y hy hfre hend := by
    obtain ⟨x, hx, _, hobj, hebbs⟩ := rel_some_right (hst.handlers h) hy
    have hway := hebbs.under_way hfre hend
    obtain ⟨a, ha, hawa⟩ := hs.live h x hx hway.1 hway.2
    obtain ⟨b, hb, hw⟩ := rel_some_left (hst.objects x.object) ha
    refine ⟨b, by rw [hobj]; exact hb, ?_⟩
    rcases hw.worker with hsame | ⟨c, hcre, _⟩ | ⟨_, hover⟩
    · rw [hsame, hawa]
    · rw [hawa] at hcre
      cases hcre
    have hstage := hover h hawa
    rw [stage_of hx, some_inj] at hstage
    exact absurd hstage hway.2
  table key i hi := by
    obtain ⟨a, ha, hkey⟩ := hs.table key i (hst.states key i hi)
    obtain ⟨b, hb, hw⟩ := rel_some_left (hst.objects i) ha
    exact ⟨b, hb, by rw [hw.key, hkey]⟩
  started h hh := by
    rw [hst.started] at hh
    obtain ⟨x, hx, hbeg⟩ := hs.started h hh
    obtain ⟨y, hy, _, _, hebbs⟩ := rel_some_left (hst.handlers h) hx
    exact ⟨y, hy, hebbs.begun hbeg⟩
  own entry hent := by
    rw [hst.cancels] at hent
    rw [hst.keyOf, hs.own entry hent]

theorem Subsides.kept (hst : Subsides s t) (hk : Kept s) : Kept t where
  single i j b b' hb hb' hkey hact hact' := by
    obtain ⟨a, ha, hw⟩ := rel_some_right (hst.objects i) hb
    obtain ⟨a', ha', hw'⟩ := rel_some_right (hst.objects j) hb'
    exact hk.single i j a a' ha ha' (by rw [← hw.key, ← hw'.key, hkey]) (hst.active hw hact) (hst.active hw' hact')
  ordered key := by
    simp only [hst.started, hst.keyOf]
    exact hk.ordered key
  ahead i b hb hact p hp hkey := by
    obtain ⟨a, ha, hw⟩ := rel_some_right (hst.objects i) hb
    rw [hst.started] at hp
    rw [hst.keyOf, hw.key] at hkey
    obtain ⟨hpen, hmade⟩ := hk.ahead i a ha (hst.active hw hact) p hp hkey
    refine ⟨fun q hq => hpen q (hw.pending.subset hq), fun h hawa hstage => ?_⟩
    exact hmade h (hw.awaiting hawa) (by rw [← hst.of_live (.inl hstage), hstage])
  silent d hd := by
    rw [hst.doomed] at hd
    obtain ⟨hfre, hsti⟩ := hk.silent d hd
    refine ⟨?_, fun i b hb hmem => ?_⟩
    · obtain ⟨x, hx, hxs⟩ := Sessions.of_stage hfre
      obtain ⟨y, hy, _, _, hebbs⟩ := rel_some_left (hst.handlers d) hx
      rw [stage_of hy, hebbs.fresh_iff.mpr hxs]
    obtain ⟨a, ha, hw⟩ := rel_some_right (hst.objects i) hb
    have hno := hsti i a ha (hw.pending.subset hmem)
    cases hdra : b.draining with
    | false => rfl
    | true => rw [hw.draining hdra] at hno; cases hno

end Subsiding

abbrev Held (s : Manager) : Prop := Sound s ∧ Kept s

section Operations

variable {s t : Manager} {scope : Key → Bool} {ids : List Nat} {h i : Nat} {x : Handler} {state : SessionState}

theorem Subsides.held (hst : Subsides s t) (hs : Held s) : Held t := ⟨hst.sound hs.1, hst.kept hs.2⟩

theorem rel_map {α : Type} {R : α → α → Prop} {o : Option α} {f : α → α} (hf : ∀ a, o = some a → R a (f a)) :
    Option.Rel R o (o.map f) := by
  cases o with
  | none => exact .none
  | some a => exact .some (hf a rfl)

theorem rel_self {α : Type} {R : α → α → Prop} (hR : ∀ a, R a a) (o : Option α) : Option.Rel R o o := by
  cases o with
  | none => exact .none
  | some a => exact .some (hR a)

theorem GoesOn.refl (x : Handler) : GoesOn x x := ⟨rfl, rfl, .same _⟩

theorem ebbs_cancel (stage : Stage) : Ebbs stage stage.cancel := by
  cases stage with
  | made c => exact .cancelled c
  | fresh | running | ended => exact .same _

theorem subsides_cancelHandlers (s : Manager) (ids : List Nat) : Subsides s (s.cancelHandlers ids) where
  handlers h := by
    simp only [cancelHandlers, List.getElem?_mapIdx]
    refine rel_map fun x _ => ?_
    split
    · exact ⟨rfl, rfl, ebbs_cancel _⟩
    · exact GoesOn.refl x
  objects i := rel_self (Wanes.refl s) _
  states _ _ hi := hi
  started := rfl
  doomed := rfl
  cancels := rfl

theorem subsides_onScope (scope : Key → Bool) {f : SessionState → SessionState} (hf : ∀ state, Wanes s state (f state)) :
    Subsides s (s.onScope scope f) where
  handlers h := rel_self GoesOn.refl _
  objects i := by
    simp only [onScope, List.getElem?_mapIdx]
    refine rel_map fun state _ => ?_
    split
    · exact hf state
    · exact Wanes.refl s state
  states _ _ hi := hi
  started := rfl
  doomed := rfl
  cancels := rfl

theorem subsides_forget (s : Manager) (scope : Key → Bool) : Subsides s (s.forget scope) where
  handlers h := rel_self GoesOn.refl _
  objects i := rel_self (Wanes.refl s) _
  states key i hi := by
    simp only [forget] at hi
    split at hi
    · cases hi
    · exact hi
  started := rfl
  doomed := rfl
  cancels := rfl

theorem subsides_setStage {st : Stage} (hx : s.handlers[h]? = some x) (hebbs : Ebbs x.stage st) :
    Subsides s (s.setStage h st) where
  handlers a := by
    simp only [setStage, List.getElem?_modify]
    refine rel_map fun y hy => ?_
    split
    case isTrue heq =>
      rw [← heq, hx, some_inj] at hy
      subst hy
      exact ⟨rfl, rfl, hebbs⟩
    case isFalse => exact GoesOn.refl y
  objects i := rel_self (fun b => ⟨rfl, List.Sublist.refl _, .inl rfl⟩) _
  states _ _ hi := hi
  started := rfl
  doomed := rfl
  cancels := rfl

theorem subsides_setObject {after : SessionState} (hi : s.objects[i]? = some state) (hw : Wanes s state after) :
    Subsides s (s.setObject i after) where
  handlers a := rel_self GoesOn.refl _
  objects j := by
    simp only [setObject, List.getElem?_set]
    by_cases hij : i = j
    · subst hij
      rw [if_pos rfl, if_pos (List.getElem?_eq_some_iff.mp hi).1, hi]
      exact .some hw
    · rw [if_neg hij]
      exact rel_self (Wanes.refl s) _
  states _ _ hi := hi
  started := rfl
  doomed := rfl
  cancels := rfl

theorem wanes_cancelWorker (s : Manager) (state : SessionState) : Wanes s state state.cancelWorker := by
  refine ⟨rfl, List.Sublist.refl _, ?_⟩
  cases hw : state.worker with
  | created c => exact .inr (.inl ⟨c, rfl, by simp [SessionState.cancelWorker, Worker.cancel, hw]⟩)
  | idle | awaiting _ => exact .inl (by simp [SessionState.cancelWorker, Worker.cancel, hw])

theorem wanes_clear (s : Manager) (state : SessionState) : Wanes s state state.clear :=
  ⟨rfl, nil_sublist _, .inl rfl⟩

theorem held_cancelCurrent (hs : Held s) (scope : Key → Bool) : Held (s.cancelCurrent scope) :=
  (subsides_cancelHandlers s _).held hs

theorem held_cancelWorkers (hs : Held s) (scope : Key → Bool) : Held (s.cancelWorkers scope) :=
  (subsides_onScope scope (wanes_cancelWorker _)).held (held_cancelCurrent hs scope)

theorem held_clear (hs : Held s) (scope : Key → Bool) : Held (s.clear scope) :=
  (subsides_onScope scope (wanes_clear s)).held hs

theorem held_forget (hs : Held s) (scope : Key → Bool) : Held (s.forget scope) := (subsides_forget s scope).held hs

theorem held_doom (hs : Held s) (hids : ∀ d ∈ ids, s.stage d = some .fresh ∧
    ∀ (i : Nat) (state : SessionState), s.objects[i]? = some state → d ∈ state.pending → state.draining = false) :
    Held (s.doom ids) := by
  refine ⟨⟨hs.1.home, hs.1.pending, hs.1.sorted, hs.1.awaiting, hs.1.live, hs.1.table, hs.1.started, hs.1.own⟩,
    ⟨hs.2.single, hs.2.ordered, hs.2.ahead, fun d hd => ?_⟩⟩
  rcases mem_append.mp hd with hold | hnew
  · exact hs.2.silent d hold
  · exact hids d hnew

theorem held_note {key : Key} (hs : Held s) (hids : ∀ d ∈ ids, s.keyOf d = some key) : Held (s.note key ids) := by
  refine ⟨⟨hs.1.home, hs.1.pending, hs.1.sorted, hs.1.awaiting, hs.1.live, hs.1.table, hs.1.started,
    fun entry hent => ?_⟩, ⟨hs.2.single, hs.2.ordered, hs.2.ahead, hs.2.silent⟩⟩
  rcases mem_append.mp hent with hold | hnew
  · exact hs.1.own entry hold
  · obtain ⟨d, hd, rfl⟩ := mem_map.mp hnew
    exact hids d hd

theorem held_gatherings (hs : Held s) (gatherings : List Gathering) : Held { s with gatherings := gatherings } :=
  ⟨⟨hs.1.home, hs.1.pending, hs.1.sorted, hs.1.awaiting, hs.1.live, hs.1.table, hs.1.started, hs.1.own⟩,
    ⟨hs.2.single, hs.2.ordered, hs.2.ahead, hs.2.silent⟩⟩

theorem mem_currents (hh : h ∈ s.currents scope) :
    ∃ (i : Nat) (state : SessionState), s.objects[i]? = some state ∧ scope state.key = true ∧ state.worker = .awaiting h := by
  obtain ⟨⟨state, i⟩, hmem, hcur⟩ := mem_filterMap.mp hh
  have hi := mem_zipIdx_iff_getElem?.mp hmem
  split at hcur
  case isFalse => cases hcur
  case isTrue hin =>
    simp only [inScope, Bool.and_eq_true] at hin
    refine ⟨i, state, hi, hin.2, ?_⟩
    unfold currentTask at hcur
    cases hw : state.worker with
    | awaiting a =>
      simp only [hw, ite_none_left_eq_some, some_inj] at hcur
      rw [hcur.2]
    | idle | created _ => simp [hw] at hcur

theorem keyOf_awaiting (hs : Sound s) (hi : s.objects[i]? = some state) (hw : state.worker = .awaiting h) :
    s.keyOf h = some state.key := by
  obtain ⟨⟨x, hx, hobj, _⟩, _⟩ := hs.awaiting i state h hi hw
  obtain ⟨home, hhome, hkey⟩ := hs.home h x hx
  rw [hobj, hi, some_inj] at hhome
  rw [keyOf_of hx, ← hkey, hhome]

theorem keyOf_currents {key : Key} (hs : Sound s) (hsco : ∀ k, scope k = true → k = key) :
    ∀ d ∈ s.currents scope, s.keyOf d = some key := by
  intro d hd
  obtain ⟨i, state, hi, hin, hw⟩ := mem_currents hd
  rw [keyOf_awaiting hs hi hw, hsco _ hin]

theorem mem_queued (hh : h ∈ s.queued scope) :
    ∃ (i : Nat) (state : SessionState), s.objects[i]? = some state ∧ scope state.key = true ∧ h ∈ state.pending := by
  obtain ⟨state, hmem, hpen⟩ := mem_flatMap.mp hh
  obtain ⟨hobj, hsco⟩ := mem_filter.mp hmem
  obtain ⟨i, hi⟩ := mem_iff_getElem?.mp hobj
  exact ⟨i, state, hi, hsco, hpen⟩

theorem Subsides.fresh (hst : Subsides s t) (hfre : s.stage h = some .fresh) : t.stage h = some .fresh := by
  obtain ⟨x, hx, hstage⟩ := Sessions.of_stage hfre
  obtain ⟨y, hy, _, _, hebbs⟩ := rel_some_left (hst.handlers h) hx
  rw [stage_of hy, hebbs.fresh_iff.mpr hstage]

theorem held_doom_queued {f : SessionState → SessionState} (hs : Sound s) (ht : Held t)
    (hobj : ∀ j : Nat, t.objects[j]? = s.objects[j]?.map fun a => if s.inScope scope j a then f a else a)
    (hfre : ∀ d, s.stage d = some .fresh → t.stage d = some .fresh)
    (hf : ∀ a d, d ∈ (f a).pending → d ∈ a.pending)
    (hqui : ∀ (j : Nat) (a : SessionState), s.objects[j]? = some a → scope a.key = true → a.pending ≠ [] →
      (if s.inScope scope j a then f a else a).pending = [] ∨ (if s.inScope scope j a then f a else a).draining = false) :
    Held (t.doom (s.queued scope)) := by
  refine held_doom ht fun d hd => ?_
  obtain ⟨i, a, ha, hsco, hpen⟩ := mem_queued hd
  obtain ⟨x, hx, hobje, hstage⟩ := hs.pending i a ha d hpen
  refine ⟨hfre d (by rw [stage_of hx, hstage]), fun j b hb hmem => ?_⟩
  rw [hobj, map_eq_some_iff] at hb
  obtain ⟨a', ha', rfl⟩ := hb
  have hmem' : d ∈ a'.pending := by
    split at hmem
    · exact hf a' d hmem
    · exact hmem
  -- the handler is in one queue only
  obtain ⟨x', hx', hobj', _⟩ := hs.pending j a' ha' d hmem'
  have hij : i = j := by
    rw [hx, some_inj] at hx'
    rw [← hobje, ← hobj', hx']
  subst hij
  rw [ha, some_inj] at ha'
  subst ha'
  rcases hqui i a ha hsco (ne_nil_of_mem hpen) with hnil | hdone
  · rw [hnil] at hmem
    cases hmem
  · exact hdone

theorem draining_of_abandoned (hno : ¬ s.Abandoned scope) (hi : s.objects[i]? = some state) (hsco : scope state.key = true)
    (hreg : s.registered i state = false) (hpen : state.pending ≠ []) : state.draining = false := by
  by_contra hdra
  exact hno ⟨(state, i), mem_zipIdx_iff_getElem?.mpr hi, hsco, hreg, by simpa using hdra, hpen⟩

theorem not_inScope (hsco : scope state.key = true) (h : ¬ s.inScope scope i state = true) :
    s.registered i state = false := by
  simpa [inScope, hsco] using h

theorem held_clearScope (hs : Held s) (hno : ¬ s.Abandoned scope) : Held (s.clearScope scope).1 := by
  refine held_doom_queued hs.1 (held_clear hs scope) (f := SessionState.clear) (fun j => ?_) (fun d hd => hd)
    (fun a d hd => by cases hd) (fun j a ha hsco hpen => ?_)
  · simp [clear, onScope, List.getElem?_mapIdx]
  split
  case isTrue => exact .inl rfl
  case isFalse hout =>
    exact .inr (draining_of_abandoned hno ha hsco (not_inScope hsco hout) hpen)

theorem held_cancelled (hs : Held s) (hno : ¬ s.Abandoned scope) (hbac : ¬ s.Backlogged scope) (ht : Held t)
    (hobj : ∀ j : Nat, t.objects[j]? = s.objects[j]?.map fun a => if s.inScope scope j a then a.cancelWorker else a)
    (hfre : ∀ d, s.stage d = some .fresh → t.stage d = some .fresh) : Held (t.doom (s.queued scope)) := by
  refine held_doom_queued hs.1 ht hobj hfre (fun a d hd => hd) fun j a ha hsco hpen => .inr ?_
  split
  case isFalse hout => exact draining_of_abandoned hno ha hsco (not_inScope hsco hout) hpen
  case isTrue =>
    cases hw : a.worker with
    | idle | created _ => simp [SessionState.draining, SessionState.cancelWorker, Worker.cancel, hw]
    | awaiting h =>
      exact absurd ⟨(a, j), mem_zipIdx_iff_getElem?.mpr ha, hsco, by simp [SessionState.serving, hw], hpen⟩ hbac

end Operations

end OpenAgent.Gateway.Sessions
