import OpenAgent.Gateway.Collaboration.Hub

namespace OpenAgent.Gateway.Collaboration

open Py Option Projection Hub Observer

/-- The payload of the last `shared_state` that was sent for a session. -/
def lastState (outbox : List SharedFrame) (sid : String) : Option Session :=
  outbox.foldl (fun last f => match f with
    | .state s payload => if s = sid then some payload else last
    | _ => last) none

theorem lastState_concat (outbox : List SharedFrame) (f : SharedFrame) (sid : String) :
    lastState (outbox ++ [f]) sid = match f with
      | .state s payload => if s = sid then some payload else lastState outbox sid
      | _ => lastState outbox sid := by
  rw [lastState, List.foldl_append]
  rfl

def Fresh (p : Projection) (o : Observer) : Prop :=
  ∀ sid v, o.sent.get? sid = some v → v ≤ p.revision ∧ ∃ payload, lastState o.outbox sid = some payload ∧
    (v = (p.stateFor sid).revision → payload.turns = (p.stateFor sid).turns)

variable {o : Observer}

theorem Fresh.advances {p q : Projection} (h : Fresh p o) (hpq : p.Advances q) : Fresh q o := by
  intro sid v hv
  obtain ⟨hle, payload, hlast, htur⟩ := h sid v hv
  refine ⟨hle.trans hpq.revision, payload, hlast, fun heq => ?_⟩
  rcases hpq.changed sid with hsame | ⟨hlt, hnew⟩
  · cases hs : p.sessions.get? sid with
    | some s =>
      simp only [stateFor, hsame, hs, getD_some] at heq htur ⊢
      exact htur heq
    | none =>
      -- absent before and after: the counter itself is compared, and it can only have stood still
      simp only [stateFor, hsame, hs, getD_none] at heq htur ⊢
      exact htur (le_antisymm hle (heq ▸ hpq.revision))
  exfalso
  cases hs : q.sessions.get? sid with
  | some s =>
    simp only [stateFor, hs, getD_some] at heq
    have := hnew s hs
    omega
  | none =>
    simp only [stateFor, hs, getD_none] at heq
    omega

structure Quiet (o o' : Observer) : Prop where
  sent : o'.sent = o.sent
  last : ∀ sid, lastState o'.outbox sid = lastState o.outbox sid

theorem Quiet.trans {o' o'' : Observer} (h : Quiet o o') (k : Quiet o' o'') : Quiet o o'' :=
  ⟨k.sent.trans h.sent, fun sid => (k.last sid).trans (h.last sid)⟩

theorem Fresh.quiet {p : Projection} {o' : Observer} (h : Fresh p o) (hq : Quiet o o') : Fresh p o' := by
  intro sid v hv
  rw [hq.sent] at hv
  rw [hq.last]
  exact h sid v hv

theorem Fresh.forget {p : Projection} {o' : Observer} (h : Fresh p o)
    (hsent : ∀ sid v, o'.sent.get? sid = some v → o.sent.get? sid = some v) (hout : o'.outbox = o.outbox) : Fresh p o' := by
  intro sid v hv
  rw [hout]
  exact h sid v (hsent sid v hv)

namespace Observer

theorem quiet_nextFrame (o : Observer) (allowed : List Target) (pending : List ResourceFrame) :
    Quiet o (o.nextFrame allowed pending) := by
  cases pending with
  | nil => exact ⟨rfl, fun _ => rfl⟩
  | cons f rest =>
    rw [nextFrame]
    split
    · exact ⟨rfl, fun _ => rfl⟩
    · exact ⟨rfl, fun sid => lastState_concat _ _ _⟩

theorem quiet_nextSession (o : Observer) (generation : Nat) (allowed : List Target) (sids : List String) :
    Quiet o (o.nextSession generation allowed sids) := by
  cases sids with
  | nil =>
    have hswap : Quiet o { o.note (.swapped o.resources.values) with resources := Dict.empty } :=
      ⟨rfl, fun _ => rfl⟩
    exact hswap.trans (quiet_nextFrame _ _ _)
  | cons sid rest => exact ⟨rfl, fun _ => rfl⟩

end Observer

variable {c : ClientId} {h h' : Hub}

namespace Hub

def Fresh (h : Hub) : Prop := ∀ c, Collaboration.Fresh h.projection (h.observer c)

theorem fresh_setObserver (hf : h.Fresh) (ho : Collaboration.Fresh h.projection o) : (h.setObserver c o).Fresh := by
  intro d
  by_cases hd : d = c
  · subst hd
    simp only [setObserver, Function.update_self]
    exact ho
  · simp only [setObserver, Function.update_of_ne hd]
    exact hf d

theorem fresh_projection (hf : h.Fresh) {p : Projection} (hp : h.projection.Advances p) :
    Fresh { h with projection := p } := fun c => (hf c).advances hp

theorem fresh_viewsAuthorized (hf : h.Fresh) (c : ClientId) (generation : Nat)
    (targets : List Target) (access : Access) : (h.viewsAuthorized c generation targets access).Fresh := by
  rw [viewsAuthorized]
  split
  · exact fresh_setObserver hf ((hf c).quiet ⟨rfl, fun _ => rfl⟩)
  dsimp only
  split
  · exact fresh_setObserver hf ((hf c).quiet ⟨rfl, fun _ => lastState_concat _ _ _⟩)
  refine fresh_setObserver hf ((hf c).quiet (Quiet.trans ⟨?_, ?_⟩ (quiet_nextSession _ _ _ _)))
  · rfl
  · exact fun _ => rfl

theorem fresh_sessionAuthorized (hf : h.Fresh) (hs : h.projection.Sound) (c : ClientId)
    (generation : Nat) (allowed : List Target) (sid : String) (rest : List String) (access : Access) :
    (h.sessionAuthorized c generation allowed sid rest access).Fresh := by
  rw [sessionAuthorized]
  split
  · exact fresh_setObserver hf ((hf c).quiet ⟨rfl, fun _ => rfl⟩)
  dsimp only
  generalize (if (⟨.session, sid⟩ : Target) ∈ access.allowed then addTarget allowed ⟨.session, sid⟩
    else allowed.filter (· ≠ ⟨.session, sid⟩)) = after
  split
  · exact fresh_setObserver hf ((hf c).quiet ⟨rfl, fun _ => lastState_concat _ _ _⟩)
  split
  · refine fresh_setObserver hf ?_
    intro j v hv
    dsimp only [hand, note] at hv ⊢
    rw [lastState_concat]
    dsimp only
    rw [Dict.get?_set] at hv
    split at hv
    · rename_i hj
      cases hv
      subst hj
      refine ⟨?_, _, if_pos rfl, fun _ => rfl⟩
      rw [stateFor]
      cases hget : h.projection.sessions.get? j with
      | none => exact le_rfl
      | some s => exact hs.stamped j s hget
    rename_i hj
    rw [if_neg (Ne.symm hj)]
    exact hf c j v hv
  · refine fresh_setObserver hf ((hf c).quiet (Quiet.trans ⟨?_, ?_⟩ (quiet_nextSession _ _ _ _)))
    · rfl
    · exact fun _ => rfl

theorem fresh_frameAuthorized (hf : h.Fresh) (c : ClientId) (allowed : List Target)
    (f : ResourceFrame) (t : Target) (rest : List ResourceFrame) (access : Access) :
    (h.frameAuthorized c allowed f t rest access).Fresh := by
  have hnote : Quiet (h.observer c) ((h.observer c).note (.asked [t] access.allowed)) := ⟨rfl, fun _ => rfl⟩
  have hnext := hnote.trans (quiet_nextFrame _ allowed rest)
  rw [frameAuthorized]
  dsimp only
  split
  · exact fresh_setObserver hf ((hf c).quiet hnext)
  split
  · exact fresh_setObserver hf ((hf c).quiet hnext)
  · exact fresh_setObserver hf ((hf c).quiet ⟨rfl, fun _ => lastState_concat _ _ _⟩)

theorem fresh_authorized (hf : h.Fresh) (hs : h.projection.Sound)
    {result : Access} (he : h.authorized c result = some h') : h'.Fresh := by
  rw [authorized] at he
  split at he
  · obtain ⟨access, -, rfl⟩ := map_eq_some_iff.mp he
    exact fresh_viewsAuthorized hf _ _ _ _
  · obtain ⟨access, -, rfl⟩ := map_eq_some_iff.mp he
    exact fresh_sessionAuthorized hf hs _ _ _ _ _ _
  · obtain ⟨access, -, rfl⟩ := map_eq_some_iff.mp he
    exact fresh_frameAuthorized hf _ _ _ _ _ _
  · cases he

theorem fresh_sendDone (hf : h.Fresh) (he : h.sendDone c = some h') : h'.Fresh := by
  rw [sendDone] at he
  split at he
  · cases he
    exact fresh_setObserver hf ((hf c).quiet (quiet_nextSession _ _ _ _))
  · cases he
    exact fresh_setObserver hf ((hf c).quiet (quiet_nextSession _ _ _ _))
  · rename_i generation allowed sid rest hstage
    cases he
    have hera : Collaboration.Fresh h.projection { h.observer c with sent := (h.observer c).sent.erase sid } := by
      refine (hf c).forget ?_ rfl
      intro j v hv
      rw [Dict.get?_erase] at hv
      split at hv
      · cases hv
      · exact hv
    exact fresh_setObserver hf (hera.quiet (quiet_nextSession _ _ _ _))
  · cases he
    exact fresh_setObserver hf ((hf c).quiet (quiet_nextFrame _ _ _))
  · cases he

theorem fresh_received (hf : h.Fresh) (codec : Codec) (c : ClientId) (text : String) :
    (h.received codec c text).Fresh := by
  rw [received]
  split
  · exact hf
  · refine fresh_setObserver hf ((hf c).forget ?_ rfl)
    intro j v hv
    rw [observe, Dict.get?_filter, filter_eq_some_iff] at hv
    exact hv.1
  have hstop := fresh_setObserver hf (c := c) (o := { h.observer c with stage := .stopped })
    ((hf c).quiet ⟨rfl, fun _ => rfl⟩)
  exact fun d => hstop d

end Hub

theorem projection_authorized {result : Access} (he : h.authorized c result = some h') : h'.projection = h.projection := by
  rw [authorized] at he
  split at he
  · obtain ⟨access, -, rfl⟩ := map_eq_some_iff.mp he
    rw [viewsAuthorized]
    split
    · rfl
    · dsimp only
      split <;> rfl
  · obtain ⟨access, -, rfl⟩ := map_eq_some_iff.mp he
    rw [sessionAuthorized]
    split
    · rfl
    dsimp only
    generalize (if (⟨.session, _⟩ : Target) ∈ access.allowed then _ else _) = after
    split
    · rfl
    · split <;> rfl
  · obtain ⟨access, -, rfl⟩ := map_eq_some_iff.mp he
    rw [frameAuthorized]
    dsimp only
    split
    · rfl
    · split <;> rfl
  · cases he

theorem projection_sendDone (he : h.sendDone c = some h') : h'.projection = h.projection := by
  rw [sendDone] at he
  split at he
  · cases he; rfl
  · cases he; rfl
  · cases he; rfl
  · cases he; rfl
  · cases he

theorem projection_next {codec : Codec} {e : Event} (he : next codec h e = some h') :
    h.projection.Advances h'.projection ∧ (h.projection.Sound → h'.projection.Sound) := by
  have hsame : ∀ {p : Projection}, p = h.projection → h.projection.Advances p ∧ (h.projection.Sound → p.Sound) :=
    fun hp => hp ▸ ⟨Advances.refl _, id⟩
  cases e with
  | begin r sid text author runId =>
    cases he
    exact ⟨advances_begin _ _ _ _ _ _, fun hs => hs.begin _ _ _ _ _⟩
  | publish r frame =>
    cases he
    exact ⟨advances_publish _ _ _ _, fun hs => hs.publish _ _ _⟩
  | prune now =>
    cases he
    exact ⟨advances_prune _ _, fun hs => hs.prune _⟩
  | deliver c now =>
    rw [next] at he
    split at he
    · cases he
      exact ⟨advances_prune _ _, fun hs => hs.prune _⟩
    · cases he
  | authorized c result => exact hsame (projection_authorized he)
  | sendDone c => exact hsame (projection_sendDone he)
  | resource resource action resourceId => cases he; exact hsame rfl
  | connect c user =>
    rw [next, connect] at he
    split at he
    · cases he
    · cases he; exact hsame rfl
  | disconnect c =>
    rw [next] at he
    split at he
    · cases he; exact hsame rfl
    · cases he
  | received c text =>
    rw [next] at he
    split at he
    · cases he
      refine hsame ?_
      rw [received]
      split <;> rfl
    · cases he
  | deliveryFailed c =>
    rw [next, deliveryFailed] at he
    split at he
    · cases he
    · cases he; exact hsame rfl

theorem fresh_next {codec : Codec} {e : Event} (hs : h.projection.Sound) (hf : h.Fresh)
    (he : next codec h e = some h') : h'.Fresh := by
  have hkeep : ∀ {c : ClientId} {stage : Stage} {trail : List Act},
      (h.setObserver c { h.observer c with stage, trail }).Fresh :=
    fun {c _ _} => fresh_setObserver hf ((hf c).quiet ⟨rfl, fun _ => rfl⟩)
  cases e with
  | begin r sid text author runId =>
    cases he
    exact fresh_projection hf (advances_begin _ _ _ _ _ _)
  | publish r frame =>
    cases he
    exact fresh_projection hf (advances_publish _ _ _ _)
  | prune now =>
    cases he
    exact fresh_projection hf (advances_prune _ _)
  | deliver c now =>
    rw [next] at he
    split at he
    · cases he
      have hpru := fresh_projection hf (advances_prune h.projection now)
      exact fresh_setObserver hpru ((hpru c).quiet ⟨rfl, fun _ => rfl⟩)
    · cases he
  | authorized c result => exact fresh_authorized hf hs he
  | sendDone c => exact fresh_sendDone hf he
  | resource resource action resourceId =>
    cases he
    intro c
    rw [Hub.resource]
    dsimp only
    split
    · exact (hf c).quiet ⟨rfl, fun _ => rfl⟩
    · exact hf c
  | connect c user =>
    rw [next, connect] at he
    split at he
    · cases he
    cases he
    have hnew := fresh_setObserver (c := c) (o := { user }) hf nofun
    exact fun d => hnew d
  | disconnect c =>
    rw [next] at he
    split at he
    · cases he
      exact fun d => hkeep d
    · cases he
  | received c text =>
    rw [next] at he
    split at he
    · cases he
      exact fresh_received hf codec c text
    · cases he
  | deliveryFailed c =>
    rw [next, deliveryFailed] at he
    split at he
    · cases he
    · cases he
      exact fresh_setObserver hf ((hf c).quiet ⟨rfl, fun _ => lastState_concat _ _ _⟩)

def watching : Codec :=
  ⟨fun _ => some (.obj [("type", .str "observe"), ("sessions", .arr [.str "chat"])]), fun _ _ => false⟩

def midnight : Reading := ⟨0, ⟨"0.0", by decide⟩, "turn"⟩

def chat : Target := ⟨.session, "chat"⟩

def watchedChat : List Event :=
  [.begin midnight "chat" "Hello" .null none, .connect 0 ⟨"user", "User"⟩, .received 0 "observe", .deliver 0 0,
    .authorized 0 ⟨"user", "User", [chat]⟩, .sendDone 0, .authorized 0 ⟨"user", "User", [chat]⟩,
    .publish midnight { sessionId := some "chat", type := .turnComplete }, .sendDone 0, .deliver 0 0,
    .authorized 0 ⟨"user", "User", [chat]⟩, .authorized 0 ⟨"user", "User", [chat]⟩]

end OpenAgent.Gateway.Collaboration
