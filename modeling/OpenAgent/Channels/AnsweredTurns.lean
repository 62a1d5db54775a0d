import OpenAgent.Channels.GatewayCollectors

namespace OpenAgent.Channels.Replies

open List Transport Lane

def Call.Apt (collectors : List StreamCollector) (pending : Option Nat) (call : Call) : Prop :=
  match call.stage with
  | .opens => call.collector = none ∧ call.isOwner = false
  | .duplicate => call.isOwner = false
  | .waits => call.isOwner = true
  | .replied r => call.isOwner = true ∧ r.done = true ∧
      ∃ k, call.collector = some k ∧ collectors[k]? = some r ∧ pending ≠ some k
  | _ => True

def Staged (l : Lane) : Prop := ∀ (c : Nat) call, l.calls[c]? = some call → call.Apt l.collectors l.pending

variable {l l' : Lane} {up : List Nat} {down : List Frame} {c k : Nat} {call : Call}

theorem Staged.change (h : Staged l) (hrep : ∀ (k : Nat) r, l.collectors[k]? = some r → l.pending ≠ some k →
      l'.collectors[k]? = some r ∧ l'.pending ≠ some k)
    (hcal : ∀ (c : Nat) call, l'.calls[c]? = some call →
      l.calls[c]? = some call ∨ call.Apt l'.collectors l'.pending) : Staged l' := by
  intro c call hc
  rcases hcal c call hc with hold | hnew
  · have hapt := h c call hold
    unfold Call.Apt at hapt ⊢
    cases hs : call.stage with
    | replied r =>
      rw [hs] at hapt
      obtain ⟨hown, hdone, k, hk, hr, hp⟩ := hapt
      exact ⟨hown, hdone, k, hk, hrep k r hr hp⟩
    | _ =>
      rw [hs] at hapt
      exact hapt
  · exact hnew

structure Good (l : Lane) (up : List Nat) (down : List Frame) : Prop where
  kept : Kept l up down
  staged : Staged l

namespace Lane

/-- A call that submits its text becomes an owner when nothing of another owner is underway, or joins one that was not
cancelled. -/
def clear (l : Lane) (up : List Nat) (down : List Frame) : Bool :=
  match l.existing with
  | none => l.turns.all (·.completed) && down.isEmpty && up.all fun c => l.calls[c]?.all fun call => !call.isOwner
  | some k => l.calls.all fun call => !(call.isOwner && call.collector = some k && call.stage = .cancelled)

/-- The text of an owner, or one that comes while the turn that its owner began has not completed. -/
def prompt (l : Lane) (c : Nat) : Bool :=
  l.calls[c]?.any fun call => call.isOwner || l.current.any fun turn => turn.messages.any fun o =>
    l.calls[o]?.any fun other => other.isOwner && other.collector = call.collector

/-- No other call counts on this one. -/
def alone (l : Lane) (c : Nat) : Bool :=
  l.calls[c]?.all fun call => !call.isOwner || (List.range l.calls.length).all fun d =>
    d = c || l.calls[d]?.all fun other => other.collector ≠ call.collector || other.stage = .cancelled

end Lane

theorem Staged.set (h : Staged l) {call' : Call} (hcal : l'.calls = l.calls.set c call')
    (hrep : ∀ (k : Nat) r, l.collectors[k]? = some r → l.pending ≠ some k →
      l'.collectors[k]? = some r ∧ l'.pending ≠ some k)
    (hapt : call'.Apt l'.collectors l'.pending) : Staged l' := by
  refine h.change hrep fun d other hd => ?_
  rw [hcal, List.getElem?_set] at hd
  split at hd
  · split at hd
    · cases hd
      exact .inr hapt
    · cases hd
  · exact .inl hd

theorem leave_pending {j : Nat} (h : l.pending ≠ some j) : (l.leave k).pending ≠ some j := by
  intro hp
  exact h (Option.filter_eq_some_iff.mp hp).1

namespace Good

theorem submit (h : Good l up down) (hc : l.calls[c]? = some call) (hope : call.stage = .opens)
    (hcle : l.clear up down = true) : Good (l.submit c call) (up ++ [c]) down := by
  have hapt := h.staged c call hc
  rw [Call.Apt, hope] at hapt
  obtain ⟨hk, hown⟩ := hapt
  unfold clear at hcle
  rcases hexi : l.existing with _ | k
  · rw [hexi] at hcle
    simp only [Bool.and_eq_true, List.all_eq_true, List.isEmpty_iff] at hcle
    obtain ⟨⟨hall, hdown⟩, hup⟩ := hcle
    refine ⟨h.kept.own hc hk hexi hall hdown ?_, ?_⟩
    · rintro d hd j ⟨other, ho, hisO, -⟩
      have hnot := hup d hd
      simp [ho, hisO] at hnot
    rw [Lane.submit, hexi]
    refine h.staged.set rfl ?_ trivial
    grind
  rw [hexi] at hcle
  refine ⟨h.kept.join hc hk hexi ?_, ?_⟩
  · rintro o ⟨other, ho, hisO, hcol⟩
    refine ⟨other, ho, fun hs => ?_⟩
    have hnot := List.all_eq_true.mp hcle other (List.mem_of_getElem? ho)
    simp [hisO, hcol, hs] at hnot
  rw [Lane.submit, hexi]
  have hpen := (Option.filter_eq_some_iff.mp hexi).1
  refine h.staged.set rfl ?_ trivial
  grind

variable {t : Lane}

theorem await (h : Good l up down) (hc : l.calls[c]? = some call) (hk : call.collector = some k)
    (hown : call.isOwner = true) (hstage : call.stage ≠ .cancelled) (ht : l.await c call k = some t) :
    Good t up down := by
  unfold Lane.await at ht
  split at ht
  next x hx =>
    split at ht
    next hdone =>
      cases ht
      constructor
      · refine (h.kept.setStage hc hstage fun hf => by cases hf).leave fun d y _ _ hy => ?_
        cases hx.symm.trans hy
        exact hdone
      refine h.staged.set rfl (fun j r hr hp => ⟨hr, leave_pending hp⟩) ?_
      refine ⟨hown, hdone, k, hk, hx, fun hp => ?_⟩
      have hne := (Option.filter_eq_some_iff.mp hp).2
      simp at hne
    next =>
      cases ht
      exact ⟨h.kept.setStage hc hstage (fun hf => by cases hf), h.staged.set rfl (fun _ _ hr hp => ⟨hr, hp⟩) hown⟩
  next => cases ht

theorem sent (h : Good l up down) (ht : l.sent c = some t) : Good t up down := by
  unfold Lane.sent at ht
  split at ht
  next call hc =>
    split at ht
    next k hs hk =>
      have hstage : call.stage ≠ .cancelled := by rw [hs]; decide
      split at ht
      next hown => exact h.await hc hk hown hstage ht
      next hown =>
        cases ht
        exact ⟨h.kept.setStage hc hstage (fun hf => by cases hf),
          h.staged.set rfl (fun _ _ hr hp => ⟨hr, hp⟩) (Bool.eq_false_iff.mpr hown)⟩
    next k hs hk =>
      have hapt := h.staged c call hc
      rw [Call.Apt, hs] at hapt
      split at ht
      · exact h.await hc hk hapt (by rw [hs]; decide) ht
      · cases ht
    next => cases ht
  next => cases ht

theorem cancel (h : Good l up down) (halo : l.alone c = true) (ht : l.cancel c = some t) :
    Good t up down := by
  unfold Lane.cancel at ht
  split at ht
  next call hc =>
    have hkept : call.stage ≠ .cancelled → Kept (l.setStage c call .cancelled) up down := by
      intro hstage
      refine h.kept.setStage hc hstage fun _ j d ho hd hlive => ?_
      obtain ⟨call', hc', hisO, hcol⟩ := ho
      obtain ⟨other, hoth, hj⟩ := hd
      obtain ⟨other', hoth', hs⟩ := hlive
      cases hc.symm.trans hc'
      cases hoth.symm.trans hoth'
      unfold alone at halo
      simp only [hc, Option.all_some, hisO, Bool.not_true, Bool.false_or, all_eq_true] at halo
      have hd := halo d (mem_range.mpr (List.getElem?_eq_some_iff.mp hoth).1)
      simpa [hoth, hj, hcol, hs] using hd
    have hsta : Staged (l.setStage c call .cancelled) := h.staged.set rfl (fun _ _ hr hp => ⟨hr, hp⟩) trivial
    split at ht
    next hs =>
      cases ht
      exact ⟨hkept (by rw [hs]; decide), hsta⟩
    next hs =>
      cases ht
      exact ⟨hkept (by rw [hs]; decide), hsta⟩
    next k hs hk =>
      cases ht
      have hstage : call.stage ≠ .cancelled := by rw [hs]; decide
      refine ⟨(hkept hstage).leave fun o x ho hlive _ => ?_,
        h.staged.set rfl (fun _ _ hr hp => ⟨hr, leave_pending hp⟩) trivial⟩
      have hapt := h.staged c call hc
      rw [Call.Apt, hs] at hapt
      have hset : (l.calls.set c { call with stage := .cancelled })[c]? = some { call with stage := .cancelled } :=
        List.getElem?_set_self (List.getElem?_eq_some_iff.mp hc).1
      have hsame : o = c := (hkept hstage).owner k o c ho ⟨_, hset, hapt, hk⟩
      obtain ⟨other, hoth, hlive⟩ := hlive
      rw [hsame] at hoth
      cases hset.symm.trans hoth
      exact absurd rfl hlive
    next => cases ht
  next => cases ht

theorem receive (h : Good l (c :: up) down) (hpro : l.prompt c = true) : Good (l.receive c) up down := by
  have hsta : Staged (l.receive c) := by
    unfold Lane.receive
    split
    · exact h.staged
    · exact h.staged
  refine ⟨?_, hsta⟩
  unfold prompt at hpro
  obtain ⟨call, hc, hcase⟩ := (Option.any_eq_true _ _).mp hpro
  obtain ⟨k, call', hc', hk⟩ := h.kept.comes c (mem_cons_self ..)
  cases hc.symm.trans hc'
  rcases Bool.or_eq_true _ _ ▸ hcase with hown | hjoi
  · exact h.kept.receive_owner ⟨call, hc, hown, hk⟩
  obtain ⟨turn, hturn, hany⟩ := (Option.any_eq_true _ _).mp hjoi
  obtain ⟨o, ho, hany⟩ := any_eq_true.mp hany
  obtain ⟨other, hoth, hsame⟩ := (Option.any_eq_true _ _).mp hany
  have hsame : other.isOwner = true ∧ other.collector = call.collector := by simpa using hsame
  exact h.kept.receive_follower hturn ⟨other, hoth, hsame.1, hsame.2.trans hk⟩ ho ⟨call, hc, hk⟩

theorem emit (h : Good l up down) {body : Body} (ht : l.emit ⟨l.turns.length - 1, body⟩ = some t) :
    Good t up (down ++ [⟨l.turns.length - 1, body⟩]) := by
  refine ⟨h.kept.emit ht, ?_⟩
  obtain ⟨turn, -, rfl⟩ := Option.map_eq_some_iff.mp ht
  exact h.staged

theorem handle {f : Frame} (h : Good l up (f :: down)) : Good (l.handle f) up down := by
  refine ⟨h.kept.handle, ?_⟩
  unfold Lane.handle
  split
  next j hj =>
    split
    · refine h.staged.change (fun k r hr hp => ?_) fun _ _ hc => .inl hc
      grind
    · exact h.staged
  next => exact h.staged

theorem appendCall (h : Good l up down) (target : Option String) :
    Good { l with calls := l.calls ++ [{ target := target }] } up down := by
  refine ⟨h.kept.appendCall rfl, h.staged.change (fun _ _ hr hp => ⟨hr, hp⟩) fun d other hd => ?_⟩
  rw [List.getElem?_append] at hd
  split at hd
  · exact .inl hd
  · obtain ⟨-, rfl⟩ := List.getElem?_eq_some_iff.mp hd
    simp [Call.Apt]

theorem clear_append (h : Good l up down) (target : Option String) (hcle : l.clear up down = true) :
    Lane.clear { l with calls := l.calls ++ [{ target := target }] } up down = true := by
  unfold clear at hcle ⊢
  have hexi : existing { l with calls := l.calls ++ [{ target := target }] } = l.existing := rfl
  rw [hexi]
  split at hcle
  · simp only [Bool.and_eq_true, all_eq_true] at hcle ⊢
    refine ⟨hcle.1, fun c hc => ?_⟩
    obtain ⟨k, call, hcall, -⟩ := h.kept.comes c hc
    rw [List.getElem?_append_left (List.getElem?_eq_some_iff.mp hcall).1]
    exact hcle.2 c hc
  · simpa using hcle

end Good

def Lane.reply (l : Lane) (call : Call) : Option StreamCollector :=
  match call.stage with
  | .replied r => some r
  | .sends | .waits => if call.isOwner then call.collector.bind fun k => l.collectors[k]?.filter (·.done) else none
  | _ => none

/-- A call of the turn has returned its reply, the folded frames of the turn up to the end of them, or does so when it
goes on. -/
def Lane.Gets (l : Lane) (turn : Turn) (c : Nat) : Prop :=
  c ∈ turn.messages ∧ ∃ call r, l.calls[c]? = some call ∧ l.reply call = some r ∧
    r.folded <+: turn.frames.filter Frame.folds ∧ r.folded.any Frame.ends = true

/-- No call returns frames of a turn without its message, and once the end of a turn was handled, exactly one call gets
its reply, unless all calls of the turn were cancelled. -/
structure Answers (l : Lane) (down : List Frame) : Prop where
  own : ∀ (c : Nat) call r, l.calls[c]? = some call → call.stage = .replied r →
    ∀ f ∈ r.folded, ∃ turn, l.turns[f.turn]? = some turn ∧ c ∈ turn.messages
  answered : ∀ (T : Nat) turn, l.turns[T]? = some turn → turn.completed = true → (∀ f ∈ down, f.turn ≠ T) →
    (∃ c ∈ turn.messages, Live l.calls c) → ∃! c, l.Gets turn c

theorem Good.reply_owner (h : Good l up down) {r : StreamCollector} (hc : l.calls[c]? = some call)
    (hr : l.reply call = some r) (hk : call.collector = some k) : Owns l.calls k c := by
  have hapt := h.staged c call hc
  unfold Call.Apt at hapt
  unfold reply at hr
  refine ⟨call, hc, ?_, hk⟩
  split at hr
  next hs =>
    rw [hs] at hapt
    exact hapt.1
  next =>
    split at hr
    · assumption
    · cases hr
  next =>
    split at hr
    · assumption
    · cases hr
  next => cases hr

theorem Good.reply_of_done (h : Good l up down) {x : StreamCollector} (ho : Owns l.calls k c) (hlive : Live l.calls c)
    (hx : l.collectors[k]? = some x) (hdone : x.done = true) :
    ∃ call, l.calls[c]? = some call ∧ l.reply call = some x := by
  obtain ⟨call, hc, hown, hk⟩ := ho
  obtain ⟨call', hc', hs⟩ := hlive
  cases hc.symm.trans hc'
  refine ⟨call, hc, ?_⟩
  have hapt := h.staged c call hc
  have hfil : (l.collectors[k]?.filter (·.done)) = some x := by simp [hx, hdone]
  unfold Call.Apt at hapt
  unfold reply
  cases hstage : call.stage with
  | opens =>
    rw [hstage] at hapt
    cases hown.symm.trans hapt.2
  | sends | waits => simpa [hown, hk] using hfil
  | duplicate =>
    rw [hstage] at hapt
    cases hown.symm.trans hapt
  | replied r =>
    rw [hstage] at hapt
    obtain ⟨-, -, j, hj, hr, -⟩ := hapt
    cases hk.symm.trans hj
    rw [hx] at hr
    exact hr.symm
  | cancelled => exact absurd hstage hs

theorem Good.answers (h : Good l up down) : Answers l down := by
  constructor
  · intro c call r hc hstage f hf
    have hapt := h.staged c call hc
    rw [Call.Apt, hstage] at hapt
    obtain ⟨hown, -, k, hk, hr, hp⟩ := hapt
    have hlive : Live l.calls c := ⟨call, hc, by rw [hstage]; simp⟩
    rcases h.kept.collects k c r ⟨call, hc, hown, hk⟩ hlive hr with ⟨-, -, hp'⟩ | ⟨T, turn, hT, hmem, hpre, -⟩
    · exact absurd hp' hp
    · rw [h.kept.frames T turn hT f (mem_filter.mp (hpre.subset hf)).1]
      exact ⟨turn, hT, hmem⟩
  rintro T turn hT hcom hhan ⟨c, hc, hlive⟩
  obtain ⟨k, o, ho, hmem, hall⟩ := h.kept.led turn (mem_of_getElem? hT)
  have holi := h.kept.leader k c o (hall c hc) hlive ho
  obtain ⟨x, hx⟩ : ∃ x, l.collectors[k]? = some x := ⟨_, List.getElem?_eq_getElem (h.kept.joined k o ho.joined)⟩
  have hdone := h.kept.done x (mem_of_getElem? hx)
  rcases h.kept.collects k o x ho holi hx with ⟨hup, -⟩ | ⟨U, turn', hU, hmem', hpre, hpen, hund⟩
  · exact absurd hup (h.kept.unmerged turn (mem_of_getElem? hT) o hmem)
  have hsame : T = U := h.kept.once T U turn turn' hT hU o hmem hmem'
  subst hsame
  cases hT.symm.trans hU
  have hends : x.folded.any Frame.ends = true := by
    by_contra hnot
    have hfal := hdone.trans (Bool.eq_false_iff.mpr hnot)
    obtain ⟨hlast, heq⟩ := hpen (hund hfal)
    -- the turn is the last, so nothing is on its way
    have hnil : down = [] := by
      refine eq_nil_iff_forall_not_mem.mpr fun f hf => hhan f hf ?_
      have := h.kept.last f hf
      omega
    obtain ⟨f, hf, hbody⟩ := h.kept.completed turn (mem_of_getElem? hT) hcom
    rw [hnil, filter_nil, append_nil] at heq
    refine hnot (any_eq_true.mpr ⟨f, ?_, ?_⟩)
    · rw [heq]
      exact mem_filter.mpr ⟨hf, by simp [Frame.folds, hbody]⟩
    · simp [Frame.ends, hbody]
  obtain ⟨call, hcall, hrep⟩ := h.reply_of_done ho holi hx (hdone.trans hends)
  refine ⟨o, ⟨hmem, call, x, hcall, hrep, hpre, hends⟩, ?_⟩
  rintro d ⟨hd, call', r, hd', hr, -⟩
  obtain ⟨other, hoth, hk⟩ := hall d hd
  cases hd'.symm.trans hoth
  exact h.kept.owner k d o (h.reply_owner hd' hr hk) ho

def of {α : Type} (session : String) (q : List (String × α)) : List α := (q.filter fun x => x.1 = session).map Prod.snd

variable {session : String}

theorem of_append {α : Type} {q r : List (String × α)} : of session (q ++ r) = of session q ++ of session r := by
  simp [of]

@[simp] theorem of_self {α : Type} {x : α} {q : List (String × α)} :
    of session ((session, x) :: q) = x :: of session q := by
  simp [of]

theorem of_other {α : Type} {other : String} (h : other ≠ session) {x : α} {q : List (String × α)} :
    of session ((other, x) :: q) = of session q := by
  simp [of, h]

def Transport.orderly (s : Transport) : Event → Bool
  | .begins session _ => !(s.lanes session).opened ||
      (s.lanes session).clear (of session s.uplink) (of session s.downlink)
  | .opened session _ => (s.lanes session).clear (of session s.uplink) (of session s.downlink)
  | .receives => s.uplink.head?.all fun x => (s.lanes x.1).prompt x.2
  | .cancels session c => (s.lanes session).alone c
  | _ => true

def Sound (s : Transport) : Prop := ∀ session, Good (s.lanes session) (of session s.uplink) (of session s.downlink)

theorem Sound.put {s : Transport} (h : Sound s) {up : List (String × Nat)}
    {down : List (String × Frame)} (hup : ∀ other, session ≠ other → of other up = of other s.uplink)
    (hdown : ∀ other, session ≠ other → of other down = of other s.downlink)
    (hl : Good l (of session up) (of session down)) :
    Sound { lanes := Function.update s.lanes session l, uplink := up, downlink := down } := by
  intro other
  dsimp only
  by_cases hoth : session = other
  · subst hoth
    rw [Function.update_self]
    exact hl
  · rw [Function.update_of_ne (Ne.symm hoth), hup other hoth, hdown other hoth]
    exact h other

theorem Sound.submit {s : Transport} (h : Sound s)
    (hl : Good l (of session s.uplink) (of session s.downlink)) (hc : l.calls[c]? = some call)
    (hope : call.stage = .opens) (hcle : l.clear (of session s.uplink) (of session s.downlink) = true) :
    Sound (s.submit session l c call) := by
  refine h.put (fun other hne => ?_) (fun _ _ => rfl) ?_
  · rw [of_append, of_other hne]
    exact append_nil _
  · rw [of_append, of_self]
    exact hl.submit hc hope hcle

theorem Sound.next {s t : Transport} (h : Sound s) {e : Event} (hord : s.orderly e = true)
    (he : s.next e = some t) : Sound t := by
  unfold Transport.next at he
  split at he
  next session target =>
    cases he
    split
    next hopened =>
      refine h.submit ((h session).appendCall target) (by simp) rfl ((h session).clear_append target ?_)
      simpa [orderly, hopened] using hord
    next => exact h.put (fun _ _ => rfl) (fun _ _ => rfl) ((h session).appendCall target)
  next session c =>
    dsimp only at he
    split at he
    next call hc =>
      split at he
      next hope =>
        cases he
        have hgood : Good { s.lanes session with opened := true } (of session s.uplink) (of session s.downlink) :=
          ⟨{ (h session).kept with }, (h session).staged⟩
        exact h.submit hgood hc hope hord
      next => cases he
    next => cases he
  next session c =>
    obtain ⟨l, hl, rfl⟩ := Option.map_eq_some_iff.mp he
    exact h.put (fun _ _ => rfl) (fun _ _ => rfl) ((h session).sent hl)
  next session c =>
    obtain ⟨l, hl, rfl⟩ := Option.map_eq_some_iff.mp he
    exact h.put (fun _ _ => rfl) (fun _ _ => rfl) ((h session).cancel hord hl)
  next =>
    split at he
    next session c rest hup =>
      cases he
      have hgood := h session
      rw [hup, of_self] at hgood
      refine h.put (fun other hne => ?_) (fun _ _ => rfl) (hgood.receive ?_)
      · rw [hup, of_other hne]
      · simpa [orderly, hup] using hord
    next => cases he
  next session body =>
    obtain ⟨l, hl, rfl⟩ := Option.map_eq_some_iff.mp he
    refine h.put (fun _ _ => rfl) (fun other hne => ?_) ?_
    · rw [of_append, of_other hne]
      exact append_nil _
    · rw [of_append, of_self]
      exact (h session).emit hl
  next =>
    split at he
    next session f rest hdown =>
      cases he
      have hgood := h session
      rw [hdown, of_self] at hgood
      refine h.put (fun _ _ => rfl) (fun other hne => ?_) hgood.handle
      rw [hdown, of_other hne]
    next => cases he

theorem sound_new : Sound {} := by
  intro session
  have hnone : ∀ {k c : Nat}, ¬Owns [] k c := by
    rintro k c ⟨call, hc, -⟩
    cases hc
  have hjoi : ∀ {k c : Nat}, ¬Joined [] k c := by
    rintro k c ⟨call, hc, -⟩
    cases hc
  refine ⟨?_, fun c call hc => by cases hc⟩
  constructor <;> simp [of, hnone, hjoi]

/-- In an orderly run every turn is answered once. -/
theorem turns_answered {s : Transport}
    (h : Runs.ReachesUnder Transport.next (fun s e => s.orderly e = true) {} s) (session : String) :
    Answers (s.lanes session) (of session s.downlink) :=
  (Runs.invariant_under (I := Sound) (fun _ _ _ hs hc he => hs.next hc he) sound_new h session).answers

/-- A call opens the session and begins a turn. -/
def firstTurn : List Event :=
  [.begins "s" none, .opened "s" 0, .receives, .emits "s" .status, .emits "s" (.event "a")]

/-- A second call joins the turn of the first. -/
def joinedRun : List Event :=
  firstTurn ++ [.begins "s" (some "b"), .receives, .emits "s" .turnComplete, .resumes "s" 0, .resumes "s" 1, .handles,
    .handles, .handles, .resumes "s" 0]

theorem joinedRun_answered : ∃ s, Runs.run Transport.next {} joinedRun = some s ∧
    ∀ session, Answers (s.lanes session) (of session s.downlink) := by
  have hrun : (Runs.run next {} joinedRun).isSome = true := by decide +kernel
  have hall : Runs.all (fun s e => decide (s.orderly e = true)) next {} joinedRun = true := by decide +kernel
  obtain ⟨s, hs⟩ := Option.isSome_iff_exists.mp hrun
  exact ⟨s, hs, turns_answered (Runs.reachesUnder_of_all hall hs)⟩

/-- The turn completes around the send of the second call. -/
def overtakenRun : List Event :=
  firstTurn ++ [.begins "s" none, .emits "s" .turnComplete, .receives, .resumes "s" 0, .resumes "s" 1, .handles, .handles,
    .handles, .resumes "s" 0, .emits "s" (.event "b"), .emits "s" .turnComplete, .handles, .handles]

theorem overtaken_unanswered : ¬∀ s, Runs.Reaches Transport.next {} s →
    ∀ session, Answers (s.lanes session) (of session s.downlink) := by
  intro hcla
  have hrun : (Runs.run next {} overtakenRun).any (fun s => s.downlink = [] ∧
      ((s.lanes "s").turns[1]?.map fun turn => (turn.messages, turn.completed)) = some ([1], true) ∧
      (s.lanes "s").calls[1]?.map Call.stage = some .duplicate) = true := by
    decide +kernel
  obtain ⟨s, hs, hend⟩ := (Option.any_eq_true _ _).mp hrun
  obtain ⟨hdown, hturn, hcall⟩ := of_decide_eq_true hend
  obtain ⟨turn, hT, hturn⟩ := Option.map_eq_some_iff.mp hturn
  obtain ⟨call, hc, hstage⟩ := Option.map_eq_some_iff.mp hcall
  obtain ⟨hmes, hcom⟩ := Prod.mk.inj hturn
  have hans := (hcla s ⟨_, hs⟩ "s").answered 1 turn hT hcom
    (by rw [hdown]; intro f hf; cases hf) ⟨1, by rw [hmes]; simp, call, hc, by rw [hstage]; decide⟩
  obtain ⟨c, ⟨hmem, call', r, hc', hr, -⟩, -⟩ := hans
  rw [hmes, mem_singleton] at hmem
  rw [hmem] at hc'
  cases hc.symm.trans hc'
  rw [reply, hstage] at hr
  cases hr

end OpenAgent.Channels.Replies
