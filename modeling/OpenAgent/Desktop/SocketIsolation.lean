import OpenAgent.Desktop.CapabilitySocket
import OpenAgent.Lib.Runs

namespace OpenAgent.Desktop

open Py List Option

def Stage.task? (stage : Stage) : Option Task :=
  match stage with
  | .sending task _ | .replying task => some task
  | .invoking | .ended => none

def Stage.replies (stage : Stage) : Bool :=
  match stage with
  | .replying _ => true
  | _ => false

def Settlement.fault (settlement : Settlement) : Fault :=
  match settlement with
  | .resolved _ => .cancelled
  | .rejected f => f

def Progress.fault (progress : Progress) : Fault :=
  match progress with
  | .proceeds => .transportLost
  | .fails f => f

namespace Effect

def agent (e : Effect) : Controller :=
  match e with
  | enqueued c _ | written c _ _ | terminated c _ | removed c _ => c

def target (e : Effect) : SocketId :=
  match e with
  | enqueued _ s | written _ s _ | terminated _ s => s
  | removed _ owner => owner.socket

def Kept (e : Effect) : Prop := e.target ≤ e.agent.socket

end Effect

namespace CapabilitySocket

def current (st : CapabilitySocket) : Option SocketId := st.socket.map Socket.id

/-- No effect reaches a later socket, and each unfinished call of the current socket has its entry, by which a cancel
reaches its own controller. -/
structure Isolated (O : CapabilitySocketOptions) (st : CapabilitySocket) : Prop where
  kept : ∀ e ∈ st.effects, e.Kept
  entry : ∀ hd ∈ st.handlers, hd.stage ≠ .ended → st.current = some hd.controller.socket →
    st.active.get? hd.callId = some hd.controller
  cancels : ∀ hd ∈ st.handlers, hd.stage ≠ .ended → st.current = some hd.controller.socket → ∀ t v,
    next O st (.message hd.controller.socket (.toolCancel hd.callId t.offer.generation) t) = some v →
      hd.controller ∈ v.aborted

variable (st : CapabilitySocket)

def Superseded (hd : Handler) : Prop := ∃ s ∈ st.current, hd.controller.socket < s

/-- The call id was not admitted again, and the handler has nothing to say: it read a resource for a caller that is
gone, or it finds no open socket and does not take the channel down. -/
def Unheard (hd : Handler) (f : Fault) : Prop :=
  st.active.get? hd.callId = none ∧ (hd.stage.replies = false ∧ hd.work = .resourceRead ∧ hd.controller ∈ st.aborted ∨
      st.isOpen = false ∧ (hd.stage.replies = true ∨ hd.work.dropsChannel f = false))

def Timely (st : CapabilitySocket) (e : Event) : Prop :=
  match e with
  | .settled h settlement =>
    ∀ hd ∈ st.handlers[h]?, st.Superseded hd → st.Unheard hd settlement.fault
  | .progressed h progress =>
    ∀ hd ∈ st.handlers[h]?, st.Superseded hd → st.Unheard hd progress.fault
  | _ => True

structure Sound (st : CapabilitySocket) : Prop where
  numbered : ∀ (i : Nat) (hd : Handler), st.handlers[i]? = some hd → hd.controller.id = i
  made : ∀ hd ∈ st.handlers, hd.controller.socket < st.sockets
  latest : ∀ s, st.current = some s → s + 1 = st.sockets
  alone : st.stopped = true ∨ st.reconnectTimer = true → st.socket = none
  resting : st.stopped = true → st.reconnectTimer = false
  entries : ∀ k c, st.active.get? k = some c → ∃ hd, st.handlers[c.id]? = some hd ∧ hd.controller = c ∧
    hd.callId = k ∧ hd.stage ≠ .ended ∧ st.current = some c.socket
  queued : ∀ hd ∈ st.handlers, ∀ task, hd.stage.task? = some task →
    Effect.enqueued hd.controller task.socket ∈ st.effects

/-- What comes with isolation: the calls of the sockets before are aborted. -/
structure Full (st : CapabilitySocket) : Prop where
  kept : ∀ e ∈ st.effects, e.Kept
  entry : ∀ hd ∈ st.handlers, hd.stage ≠ .ended → st.current = some hd.controller.socket →
    st.active.get? hd.callId = some hd.controller
  revoked : ∀ hd ∈ st.handlers, hd.stage ≠ .ended → st.current ≠ some hd.controller.socket → hd.controller ∈ st.aborted

/-- The turn of a handler: it comes to a stage, with effects on the current socket and its entries only. -/
structure Turned (st : CapabilitySocket) (hd : Handler) (stage : Stage) (es : List Effect) (u : CapabilitySocket) :
    Prop where
  handlers : u.handlers = st.handlers.set hd.controller.id { hd with stage := stage }
  active : u.active = if stage = .ended then st.active.erase hd.callId else st.active
  current : u.current = st.current
  aborted : u.aborted = st.aborted
  sockets : u.sockets = st.sockets
  idle : u.stopped = st.stopped ∧ u.reconnectTimer = st.reconnectTimer
  effects : u.effects = st.effects ++ es
  agents : ∀ e ∈ es, e.agent = hd.controller ∧ st.current = some e.target
  removed : stage = .ended → ∀ e ∈ st.removal hd, e ∈ es
  queued : ∀ task, stage.task? = some task → Effect.enqueued hd.controller task.socket ∈ u.effects

/-- A step that leaves the handlers, their entries and their sockets as they are. -/
structure Alike (st u : CapabilitySocket) : Prop where
  handlers : u.handlers = st.handlers
  active : u.active = st.active
  current : u.current = st.current
  sockets : u.sockets = st.sockets
  idle : u.stopped = st.stopped ∧ u.reconnectTimer = st.reconnectTimer
  effects : u.effects = st.effects
  aborted : ∀ c ∈ st.aborted, c ∈ u.aborted

structure Connected (st u : CapabilitySocket) : Prop where
  handlers : u.handlers = st.handlers
  active : u.active = st.active
  socket : st.socket = none ∧ u.current = some st.sockets
  sockets : u.sockets = st.sockets + 1
  idle : u.stopped = false ∧ u.reconnectTimer = false
  effects : u.effects = st.effects
  aborted : u.aborted = st.aborted

structure Cleared (st u : CapabilitySocket) : Prop where
  handlers : u.handlers = st.handlers
  active : u.active = Dict.empty
  socket : u.socket = none
  sockets : u.sockets = st.sockets
  idle : u.stopped = true → u.reconnectTimer = false
  effects : u.effects = st.effects
  aborted : ∀ c, c ∈ st.aborted ∨ (∃ k, st.active.get? k = some c) → c ∈ u.aborted

def Admitted (st u : CapabilitySocket) : Prop :=
  ∃ s callId work timed, st.current = some s ∧ st.active.get? callId = none ∧ u = st.admitCall s callId work timed

def Calm (st u : CapabilitySocket) : Prop := Alike st u ∨ Connected st u ∨ Cleared st u ∨ Admitted st u

section Steps

variable {st u : CapabilitySocket} {hd : Handler} {stage : Stage} {es : List Effect} {f : Fault}
variable {s : SocketId}

theorem current_eq_some : st.current = some s ↔ st.isCurrent s = true := by
  rw [current, isCurrent]
  cases st.socket with
  | none => simp
  | some s' => simp

theorem current_closeSocket (st : CapabilitySocket) : st.closeSocket.current = st.current := by
  rw [current, current, closeSocket, Option.map_map]
  rfl

theorem terminate_effects (st : CapabilitySocket) (c : Controller) :
    (st.terminate c).effects = st.effects ++ (st.current.map (Effect.terminated c)).toList := by
  rw [terminate, current]
  cases st.socket with
  | none => exact (append_nil _).symm
  | some s => rfl

theorem terminate_rest (st : CapabilitySocket) (c : Controller) : (st.terminate c).handlers = st.handlers ∧
    (st.terminate c).active = st.active ∧ (st.terminate c).current = st.current ∧
      (st.terminate c).aborted = st.aborted ∧ (st.terminate c).sockets = st.sockets ∧
        (st.terminate c).stopped = st.stopped ∧ (st.terminate c).reconnectTimer = st.reconnectTimer := by
  have hcur := current_closeSocket st
  rw [terminate]
  cases st.socket with
  | none => exact ⟨rfl, rfl, rfl, rfl, rfl, rfl, rfl⟩
  | some s => exact ⟨rfl, rfl, hcur, rfl, rfl, rfl, rfl⟩

theorem terminated_agents {c : Controller} {e : Effect} (h : e ∈ (st.current.map (Effect.terminated c)).toList) :
    e.agent = c ∧ st.current = some e.target := by
  rw [mem_toList, map_eq_some_iff] at h
  obtain ⟨s, hs, rfl⟩ := h
  exact ⟨rfl, hs⟩

theorem Sound.removal_agents (hs : Sound st) {e : Effect} (h : e ∈ st.removal hd) :
    e.agent = hd.controller ∧ st.current = some e.target := by
  rw [removal] at h
  cases hget : st.active.get? hd.callId with
  | none => simp [hget] at h
  | some owner =>
    rw [hget] at h
    obtain rfl := mem_singleton.mp h
    obtain ⟨_, _, _, _, _, hcur⟩ := hs.entries _ _ hget
    exact ⟨rfl, hcur⟩

theorem Sound.turned_finish (hs : Sound st) (hd : Handler) : Turned st hd .ended (st.removal hd) (st.finish hd) where
  handlers := rfl
  active := rfl
  current := rfl
  aborted := rfl
  sockets := rfl
  idle := ⟨rfl, rfl⟩
  effects := rfl
  agents := fun _ h => hs.removal_agents h
  removed := fun _ _ h => h
  queued := fun _ h => by cases h

theorem Turned.terminate (h : Turned st hd stage es u) :
    Turned st hd stage (es ++ (st.current.map (Effect.terminated hd.controller)).toList)
      (u.terminate hd.controller) := by
  obtain ⟨hhan, hact, hcur, habo, hsoc, hsto, htim⟩ := terminate_rest u hd.controller
  have heff := terminate_effects u hd.controller
  rw [h.current, h.effects, append_assoc] at heff
  refine ⟨hhan.trans h.handlers, hact.trans h.active, hcur.trans h.current, habo.trans h.aborted,
    hsoc.trans h.sockets, ⟨hsto.trans h.idle.1, htim.trans h.idle.2⟩, heff, ?_, ?_, ?_⟩
  · intro e he
    rcases mem_append.mp he with he | he
    · exact h.agents e he
    · exact terminated_agents he
  · intro hend e he
    exact mem_append_left _ (h.removed hend e he)
  intro task htask
  rw [terminate_effects]
  exact mem_append_left _ (h.queued task htask)

theorem Sound.turned_terminate_finish (hs : Sound st) (hd : Handler) :
    Turned st hd .ended ((st.current.map (Effect.terminated hd.controller)).toList ++ st.removal hd)
      ((st.terminate hd.controller).finish hd) := by
  obtain ⟨hhan, hact, hcur, habo, hsoc, hsto, htim⟩ :=
    terminate_rest st hd.controller
  have hrem : (st.terminate hd.controller).removal hd = st.removal hd := by rw [removal, removal, hact]
  refine ⟨congrArg (fun l => List.set l _ _) hhan, congrArg (fun d => Dict.erase d _) hact, hcur, habo,
    hsoc, ⟨hsto, htim⟩, ?_, ?_, fun _ e he => mem_append_right _ he, fun _ h => by cases h⟩
  · rw [finish, hrem, terminate_effects, append_assoc]
  intro e he
  rcases mem_append.mp he with he | he
  · exact terminated_agents he
  · exact hs.removal_agents he

variable {task : Task}

theorem turned_queue {e : Effect} (htask : stage.task? = some task)
    (he : e.agent = hd.controller) (hcur : st.current = some e.target)
    (hque : Effect.enqueued hd.controller task.socket ∈ st.effects ++ [e]) :
    Turned st hd stage [e] ((st.setStage hd stage).note e) where
  handlers := rfl
  active := by
    rw [if_neg]
    · rfl
    · rintro rfl
      cases htask
  current := rfl
  aborted := rfl
  sockets := rfl
  idle := ⟨rfl, rfl⟩
  effects := rfl
  agents := fun e' he' => by
    obtain rfl := mem_singleton.mp he'
    exact ⟨he, hcur⟩
  removed := by
    rintro rfl
    cases htask
  queued := fun task' htask' => by
    rw [htask, some_inj] at htask'
    exact htask' ▸ hque

theorem enqueueSend_socket {frame : Frame} (h : st.enqueueSend frame = some task) :
    st.current = some task.socket ∧ st.isOpen = true := by
  rw [enqueueSend] at h
  rw [current, isOpen]
  cases hsoc : st.socket with
  | none => simp [hsoc] at h
  | some s =>
    simp only [hsoc] at h
    split at h
    · rename_i hopened
      obtain rfl := Option.some.inj h
      exact ⟨rfl, by simp [hopened]⟩
    · cases h

theorem enqueueSend_none {frame : Frame} : st.enqueueSend frame = none ↔ st.isOpen = false := by
  rw [enqueueSend, isOpen]
  cases st.socket with
  | none => simp
  | some s => simp

theorem Sound.turned_giveUp (hs : Sound st) (hd : Handler) : ∃ es, Turned st hd .ended es (st.giveUp hd) := by
  have hfin := hs.turned_finish hd
  rw [giveUp, handleOutboundFailure]
  split
  · exact ⟨_, hfin⟩
  split
  · exact ⟨_, hfin.terminate⟩
  · exact ⟨_, hfin⟩

theorem Sound.turned_sendError (hs : Sound st) (hd : Handler) (f : Fault) :
    ∃ stage es, Turned st hd stage es (st.sendError hd f) := by
  rw [sendError]
  cases henq : st.enqueueSend (.toolError f.protocolError) with
  | none => exact ⟨.ended, hs.turned_giveUp hd⟩
  | some task =>
    exact ⟨.replying task, _, turned_queue rfl rfl (enqueueSend_socket henq).1
      (mem_append_right _ (mem_singleton_self _))⟩

theorem Sound.turned_recover (hs : Sound st) (hd : Handler) (f : Fault) :
    ∃ stage es, Turned st hd stage es (st.recover hd f) := by
  rw [recover]
  split
  · exact ⟨_, _, hs.turned_terminate_finish hd⟩
  split
  · exact ⟨_, _, hs.turned_finish hd⟩
  · exact hs.turned_sendError hd f

theorem Sound.turned_sendFrames (hs : Sound st) (hd : Handler) (frames : List Frame) :
    ∃ stage es, Turned st hd stage es (st.sendFrames hd frames) := by
  cases frames with
  | nil => exact ⟨_, _, hs.turned_finish hd⟩
  | cons frame rest =>
    rw [sendFrames]
    cases henq : st.enqueueSend frame with
    | none => exact hs.turned_recover hd .transportLost
    | some task =>
      exact ⟨.sending task rest, _, turned_queue rfl rfl (enqueueSend_socket henq).1
        (mem_append_right _ (mem_singleton_self _))⟩

theorem Sound.turned_settle (hs : Sound st) (hd : Handler) (settlement : Settlement) :
    ∃ stage es, Turned st hd stage es (st.settle hd settlement) := by
  rw [settle]
  cases st.outcome hd settlement with
  | error f => exact hs.turned_recover hd f
  | ok frames => exact hs.turned_sendFrames hd frames

variable {progress : Progress}

theorem advance_some {task task' : Task} {b : Bool} (h : st.advance task b progress = .ok (some task')) :
    task' = { task with written := true } ∧ st.current = some task.socket := by
  cases progress with
  | fails f => cases h
  | proceeds =>
    rw [advance] at h
    split at h
    · rename_i htra
      rw [currentTransport, Bool.and_eq_true, Bool.and_eq_true] at htra
      have hsoc := of_decide_eq_true htra.1.2
      split at h
      · cases h
      · cases h
        exact ⟨rfl, by rw [current, hsoc]; rfl⟩
    · cases h

theorem Sound.turned_proceed (hs : Sound st) {h : Nat} (hget : st.handlers[h]? = some hd)
    (hpro : st.proceed hd progress = some u) : ∃ stage es, Turned st hd stage es u := by
  have hque := hs.queued hd (mem_of_getElem? hget)
  rw [proceed] at hpro
  cases hstage : hd.stage with
  | invoking | ended => simp [hstage] at hpro
  | sending task rest =>
    have htask := hque task (by rw [hstage]; rfl)
    simp only [hstage] at hpro
    split at hpro
    · cases hpro
      exact hs.turned_recover hd _
    · rename_i task' hadv
      obtain ⟨rfl, hcur⟩ := advance_some hadv
      cases hpro
      exact ⟨_, _, turned_queue rfl rfl hcur (mem_append_left _ htask)⟩
    · cases hpro
      exact hs.turned_sendFrames hd rest
  | replying task =>
    have htask := hque task (by rw [hstage]; rfl)
    simp only [hstage] at hpro
    split at hpro
    · cases hpro
      exact ⟨_, hs.turned_giveUp hd⟩
    · rename_i task' hadv
      obtain ⟨rfl, hcur⟩ := advance_some hadv
      cases hpro
      exact ⟨_, _, turned_queue rfl rfl hcur (mem_append_left _ htask)⟩
    · cases hpro
      exact ⟨_, _, hs.turned_finish hd⟩

theorem mem_set_cases {l : List Handler} {i : Nat} {x y : Handler} (h : y ∈ l.set i x) :
    y = x ∨ ∃ j, j ≠ i ∧ l[j]? = some y := by
  obtain ⟨j, hj⟩ := mem_iff_getElem?.mp h
  by_cases hij : i = j
  · rw [List.getElem?_set, if_pos hij] at hj
    split at hj
    · exact .inl (Option.some.inj hj).symm
    · cases hj
  · rw [List.getElem?_set_ne hij] at hj
    exact .inr ⟨j, fun hji => hij hji.symm, hj⟩

theorem Sound.turned (hs : Sound st) {h : Nat} (hget : st.handlers[h]? = some hd)
    (ht : Turned st hd stage es u) : Sound u := by
  have hnum := hs.numbered h hd hget
  have hlen : h < st.handlers.length := (List.getElem?_eq_some_iff.mp hget).1
  have hoth : ∀ {j : Nat}, j ≠ h → u.handlers[j]? = st.handlers[j]? := by
    intro j hj
    rw [ht.handlers, hnum]
    exact List.getElem?_set_ne (Ne.symm hj)
  have hself : u.handlers[h]? = some { hd with stage := stage } := by
    rw [ht.handlers, hnum]
    exact List.getElem?_set_self hlen
  refine ⟨?_, ?_, ?_, ?_, ?_, ?_, ?_⟩
  · intro i hd' hi
    by_cases hih : i = h
    · subst hih
      rw [hself, some_inj] at hi
      rw [← hi]
      exact hnum
    · rw [hoth hih] at hi
      exact hs.numbered i hd' hi
  · intro hd' hmem
    rw [ht.sockets]
    rw [ht.handlers] at hmem
    rcases mem_set_cases hmem with rfl | ⟨j, _, hj⟩
    · exact hs.made hd (mem_of_getElem? hget)
    · exact hs.made hd' (mem_of_getElem? hj)
  · intro s hcur
    rw [ht.sockets]
    exact hs.latest s (ht.current ▸ hcur)
  · intro hidle
    rw [ht.idle.1, ht.idle.2] at hidle
    have hnone := hs.alone hidle
    have hcur := ht.current
    rw [current, current, hnone] at hcur
    exact map_eq_none_iff.mp hcur
  · intro hsto
    rw [ht.idle.1] at hsto
    rw [ht.idle.2]
    exact hs.resting hsto
  · intro k c hent
    have hold : st.active.get? k = some c ∧ (stage = .ended → k ≠ hd.callId) := by
      rw [ht.active] at hent
      split at hent
      · rw [Dict.get?_erase] at hent
        split at hent
        · cases hent
        · rename_i hk
          exact ⟨hent, fun _ => hk⟩
      · rename_i hstage
        exact ⟨hent, fun hend => absurd hend hstage⟩
    obtain ⟨hd', hc, hctl, hcall, hlive', hcur⟩ := hs.entries k c hold.1
    by_cases hch : c.id = h
    · have hsame : hd = hd' := some_inj.mp (hget.symm.trans (hch ▸ hc))
      subst hsame
      refine ⟨{ hd with stage := stage }, hch ▸ hself, hctl, hcall, ?_, ht.current ▸ hcur⟩
      exact fun hend => hold.2 hend hcall.symm
    · exact ⟨hd', (hoth hch).trans hc, hctl, hcall, hlive', ht.current ▸ hcur⟩
  · intro hd' hmem task htask
    rw [ht.handlers] at hmem
    rcases mem_set_cases hmem with rfl | ⟨j, _, hj⟩
    · exact ht.queued task htask
    · rw [ht.effects]
      exact mem_append_left _ (hs.queued hd' (mem_of_getElem? hj) task htask)

theorem Full.turned (hf : Full st) (hs : Sound st) {h : Nat} (hget : st.handlers[h]? = some hd)
    (hlive : hd.stage ≠ .ended) (ht : Turned st hd stage es u) (hkept : ∀ e ∈ u.effects, e.Kept) : Full u := by
  have hmem := mem_of_getElem? hget
  refine ⟨hkept, ?_, ?_⟩
  · intro hd' hmem' hlive' hcur
    rw [ht.current] at hcur
    rw [ht.handlers] at hmem'
    rcases mem_set_cases hmem' with rfl | ⟨j, hj, hget'⟩
    · rw [ht.active, if_neg hlive']
      exact hf.entry hd hmem hlive hcur
    have hent := hf.entry hd' (mem_of_getElem? hget') hlive' hcur
    rw [ht.active]
    split
    · rename_i hend
      rw [Dict.get?_erase, if_neg, hent]
      -- an entry under the same call id would be another call's, of this socket
      intro hcall
      rw [hcall] at hent
      have hrem : Effect.removed hd.controller hd'.controller ∈ st.removal hd := by
        rw [removal, hent]
        exact mem_singleton_self _
      have hle : hd'.controller.socket ≤ hd.controller.socket := by
        refine hkept (.removed hd.controller hd'.controller) ?_
        rw [ht.effects]
        exact mem_append_right _ (ht.removed hend _ hrem)
      have hmade := hs.made hd hmem
      rw [← hs.latest _ hcur] at hmade
      have hsoc := Nat.le_antisymm hle (Nat.lt_succ_iff.mp hmade)
      have hown := hf.entry hd hmem hlive (hsoc ▸ hcur)
      rw [hent, some_inj] at hown
      refine hj ?_
      rw [← hs.numbered j hd' hget', hown]
    · exact hent
  · intro hd' hmem' hlive' hcur
    rw [ht.current] at hcur
    rw [ht.aborted]
    rw [ht.handlers] at hmem'
    rcases mem_set_cases hmem' with rfl | ⟨j, _, hget'⟩
    · exact hf.revoked hd hmem hlive hcur
    · exact hf.revoked hd' (mem_of_getElem? hget') hlive' hcur

theorem Sound.alike (hs : Sound st) (ha : Alike st u) : Sound u := by
  refine ⟨?_, ?_, ?_, ?_, ?_, ?_, ?_⟩
  · rw [ha.handlers]
    exact hs.numbered
  · rw [ha.handlers, ha.sockets]
    exact hs.made
  · rw [ha.current, ha.sockets]
    exact hs.latest
  · intro hidle
    rw [ha.idle.1, ha.idle.2] at hidle
    have hcur := ha.current
    rw [current, current, hs.alone hidle] at hcur
    exact map_eq_none_iff.mp hcur
  · rw [ha.idle.1, ha.idle.2]
    exact hs.resting
  · rw [ha.handlers, ha.active, ha.current]
    exact hs.entries
  · rw [ha.handlers, ha.effects]
    exact hs.queued

theorem Full.alike (hf : Full st) (ha : Alike st u) : Full u := by
  refine ⟨?_, ?_, ?_⟩
  · rw [ha.effects]
    exact hf.kept
  · rw [ha.handlers, ha.active, ha.current]
    exact hf.entry
  · rw [ha.handlers, ha.current]
    exact fun hd hmem hlive hcur => ha.aborted _ (hf.revoked hd hmem hlive hcur)

theorem Sound.connected (hs : Sound st) (hc : Connected st u) : Sound u := by
  have hnone : st.current = none := by rw [current, hc.socket.1]; rfl
  refine ⟨?_, ?_, ?_, ?_, ?_, ?_, ?_⟩
  · rw [hc.handlers]
    exact hs.numbered
  · intro hd hmem
    rw [hc.sockets]
    exact (hs.made hd (hc.handlers ▸ hmem)).trans (Nat.lt_succ_self _)
  · intro s hcur
    rw [hc.socket.2, some_inj] at hcur
    rw [hc.sockets, hcur]
  · intro hidle
    rw [hc.idle.1, hc.idle.2] at hidle
    simp at hidle
  · intro hsto
    exact hc.idle.2
  · intro k c hent
    rw [hc.active] at hent
    obtain ⟨_, _, _, _, _, hcur⟩ := hs.entries k c hent
    rw [hnone] at hcur
    cases hcur
  · rw [hc.handlers, hc.effects]
    exact hs.queued

theorem Full.connected (hf : Full st) (hs : Sound st) (hc : Connected st u) : Full u := by
  refine ⟨?_, ?_, ?_⟩
  · rw [hc.effects]
    exact hf.kept
  · intro hd hmem _ hcur
    rw [hc.socket.2, some_inj] at hcur
    exact absurd hcur.symm (Nat.ne_of_lt (hs.made hd (hc.handlers ▸ hmem)))
  intro hd hmem hlive _
  rw [hc.aborted]
  refine hf.revoked hd (hc.handlers ▸ hmem) hlive ?_
  rw [current, hc.socket.1]
  rintro ⟨⟩

theorem Sound.cleared (hs : Sound st) (hc : Cleared st u) : Sound u := by
  have hnone : u.current = none := by rw [current, hc.socket]; rfl
  refine ⟨?_, ?_, ?_, fun _ => hc.socket, hc.idle, ?_, ?_⟩
  · rw [hc.handlers]
    exact hs.numbered
  · rw [hc.handlers, hc.sockets]
    exact hs.made
  · intro s hcur
    rw [hnone] at hcur
    cases hcur
  · intro k c hent
    rw [hc.active] at hent
    cases hent
  · rw [hc.handlers, hc.effects]
    exact hs.queued

theorem Full.cleared (hf : Full st) (hc : Cleared st u) : Full u := by
  refine ⟨?_, ?_, ?_⟩
  · rw [hc.effects]
    exact hf.kept
  · intro hd _ _ hcur
    rw [current, hc.socket] at hcur
    cases hcur
  intro hd hmem hlive _
  rw [hc.handlers] at hmem
  refine hc.aborted _ ?_
  by_cases hcur : st.current = some hd.controller.socket
  · exact .inr ⟨_, hf.entry hd hmem hlive hcur⟩
  · exact .inl (hf.revoked hd hmem hlive hcur)

theorem Sound.admitted (hs : Sound st) (ha : Admitted st u) : Sound u := by
  obtain ⟨s, callId, work, timed, hcur, hnew, rfl⟩ := ha
  have hlast : (st.admitCall s callId work timed).handlers[st.handlers.length]?
      = some ⟨⟨st.handlers.length, s⟩, callId, work, timed, .invoking⟩ := List.getElem?_concat_length
  refine ⟨?_, ?_, hs.latest, hs.alone, hs.resting, ?_, ?_⟩
  · intro i hd hi
    rcases Nat.lt_trichotomy i st.handlers.length with hlt | heq | hgt
    · exact hs.numbered i hd ((List.getElem?_append_left hlt).symm.trans hi)
    · rw [heq, hlast, some_inj] at hi
      rw [heq, ← hi]
    rw [admitCall, List.getElem?_eq_none] at hi
    · cases hi
    · rw [length_append]
      exact Nat.succ_le_of_lt hgt
  · intro hd hmem
    rcases mem_append.mp hmem with hmem | hmem
    · exact hs.made hd hmem
    · obtain rfl := mem_singleton.mp hmem
      exact Nat.lt_of_succ_le (Nat.le_of_eq (hs.latest s hcur))
  · intro k c hent
    rw [admitCall, Dict.get?_set] at hent
    split at hent
    · rename_i hk
      obtain rfl := Option.some.inj hent
      exact ⟨_, hlast, rfl, hk.symm, Stage.noConfusion, hcur⟩
    obtain ⟨hd, hget, hrest⟩ := hs.entries k c hent
    refine ⟨hd, ?_, hrest⟩
    rw [admitCall, List.getElem?_append_left (List.getElem?_eq_some_iff.mp hget).1]
    exact hget
  · intro hd hmem task htask
    rcases mem_append.mp hmem with hmem | hmem
    · exact hs.queued hd hmem task htask
    · obtain rfl := mem_singleton.mp hmem
      cases htask

theorem Full.admitted (hf : Full st) (ha : Admitted st u) : Full u := by
  obtain ⟨s, callId, work, timed, hcur, hnew, rfl⟩ := ha
  refine ⟨hf.kept, ?_, ?_⟩
  · intro hd hmem hlive hon
    rw [admitCall, Dict.get?_set]
    rcases mem_append.mp hmem with hmem | hmem
    · have hent := hf.entry hd hmem hlive hon
      rw [if_neg, hent]
      intro hcall
      rw [hcall, hnew] at hent
      cases hent
    · obtain rfl := mem_singleton.mp hmem
      exact if_pos rfl
  intro hd hmem hlive hon
  rcases mem_append.mp hmem with hmem | hmem
  · exact hf.revoked hd hmem hlive hon
  · obtain rfl := mem_singleton.mp hmem
    exact absurd hcur hon

theorem Sound.calm (hs : Sound st) (hc : Calm st u) : Sound u := by
  rcases hc with ha | hc | hc | ha
  · exact hs.alike ha
  · exact hs.connected hc
  · exact hs.cleared hc
  · exact hs.admitted ha

theorem Full.calm (hf : Full st) (hs : Sound st) (hc : Calm st u) : Full u := by
  rcases hc with ha | hc | hc | ha
  · exact hf.alike ha
  · exact hf.connected hs hc
  · exact hf.cleared hc
  · exact hf.admitted ha

theorem Alike.refl (st : CapabilitySocket) : Alike st st := ⟨rfl, rfl, rfl, rfl, ⟨rfl, rfl⟩, rfl, fun _ h => h⟩

theorem alike_closeSocket (st : CapabilitySocket) : Alike st st.closeSocket :=
  ⟨rfl, rfl, current_closeSocket st, rfl, ⟨rfl, rfl⟩, rfl, fun _ h => h⟩

theorem alike_abort (st : CapabilitySocket) (c : Controller) : Alike st (st.abort c) :=
  ⟨rfl, rfl, rfl, rfl, ⟨rfl, rfl⟩, rfl, fun _ h => mem_cons_of_mem _ h⟩

theorem alike_detachedFailure (st : CapabilitySocket) : Alike st st.detachedFailure := by
  rw [detachedFailure]
  split
  · exact .refl st
  split
  · exact alike_closeSocket st
  · exact .refl st

theorem alike_refuse (st : CapabilitySocket) (code : String) (closes : Bool) : Alike st (st.refuse code closes) := by
  rw [refuse]
  split
  · exact alike_detachedFailure st
  · exact ⟨rfl, rfl, rfl, rfl, ⟨rfl, rfl⟩, rfl, fun _ h => h⟩

theorem alike_proceedRefusal {r : Nat} {refusal : Refusal}
    (h : st.proceedRefusal r refusal progress = some u) : Alike st u := by
  rw [proceedRefusal, map_eq_some_iff] at h
  obtain ⟨task, _, rfl⟩ := h
  split
  · have hfai := alike_detachedFailure (st.setRefusal r { refusal with task := none })
    exact ⟨hfai.1, hfai.2, hfai.3, hfai.4, hfai.5, hfai.6, hfai.7⟩
  · exact ⟨rfl, rfl, rfl, rfl, ⟨rfl, rfl⟩, rfl, fun _ h => h⟩
  dsimp only
  split
  · have hclo := alike_closeSocket (st.setRefusal r { refusal with task := none })
    exact ⟨hclo.1, hclo.2, hclo.3, hclo.4, hclo.5, hclo.6, hclo.7⟩
  · exact ⟨rfl, rfl, rfl, rfl, ⟨rfl, rfl⟩, rfl, fun _ h => h⟩

theorem calm_handleToolCall (O : CapabilitySocketOptions) (t : Turn) (call : ClientToolCall)
    (hcur : st.current = some s) : Calm st (st.handleToolCall O t s call) := by
  rw [handleToolCall]
  split
  · exact .inl (alike_refuse ..)
  split
  · exact .inl (alike_refuse ..)
  split
  · exact .inl (alike_refuse ..)
  split
  · exact .inl (alike_refuse ..)
  split
  · exact .inl (alike_refuse ..)
  rename_i hent _
  rw [Bool.not_eq_true, isSome_eq_false_iff, isNone_iff_eq_none] at hent
  exact .inr (.inr (.inr ⟨s, _, _, _, hcur, hent, rfl⟩))

theorem calm_handleResourceRead (O : CapabilitySocketOptions) (t : Turn) (call : ClientResourceRead)
    (hcur : st.current = some s) : Calm st (st.handleResourceRead O t s call) := by
  rw [handleResourceRead]
  split
  · exact .inl (alike_refuse ..)
  split
  · exact .inl (alike_refuse ..)
  split
  · exact .inl (alike_refuse ..)
  rename_i hent
  rw [Bool.or_eq_true, not_or, Bool.not_eq_true, isSome_eq_false_iff, isNone_iff_eq_none] at hent
  exact .inr (.inr (.inr ⟨s, _, _, _, hcur, hent.1, rfl⟩))

theorem calm_handleMessage (O : CapabilitySocketOptions) (t : Turn) (frame : ServerFrame)
    (hcur : st.current = some s) : Calm st (st.handleMessage O t s frame) := by
  cases frame with
  | helloAck ack =>
    rw [handleMessage, handleHelloAck]
    split
    · exact .inl ⟨rfl, rfl, rfl, rfl, ⟨rfl, rfl⟩, rfl, fun _ h => h⟩
    · exact .inl (alike_closeSocket st)
  | toolCall call => exact calm_handleToolCall O t call hcur
  | resourceRead call => exact calm_handleResourceRead O t call hcur
  | toolCancel callId generation =>
    rw [handleMessage, handleCancel]
    split
    · exact .inl (.refl st)
    split
    · exact .inl (alike_abort st _)
    · exact .inl (.refl st)

theorem Sound.connect (hs : Sound st) (h : st.stopped = true ∨ st.reconnectTimer = true) :
    Connected st { st with stopped := false, reconnectTimer := false }.connect :=
  ⟨rfl, rfl, ⟨hs.alone h, rfl⟩, rfl, ⟨rfl, rfl⟩, rfl, rfl⟩

theorem cleared_stop (st : CapabilitySocket) : Cleared st st.stop := by
  refine ⟨rfl, rfl, rfl, rfl, fun _ => rfl, rfl, fun c hc => ?_⟩
  rcases hc with hc | ⟨k, hk⟩
  · exact mem_append_right _ hc
  · exact mem_append_left _ ((Dict.mem_values_iff _ _).mpr ⟨k, hk⟩)

theorem cleared_onClose (O : CapabilitySocketOptions) (st : CapabilitySocket) : Cleared st (st.onClose O) := by
  refine ⟨rfl, rfl, rfl, rfl, ?_, rfl, fun c hc => ?_⟩
  · intro hsto
    have hsto : st.stopped = true := hsto
    rw [onClose, hsto]
    rfl
  rcases hc with hc | ⟨k, hk⟩
  · exact mem_append_right _ hc
  · exact mem_append_left _ ((Dict.mem_values_iff _ _).mpr ⟨k, hk⟩)

def Event.isTurn (e : Event) : Bool :=
  match e with
  | .settled .. | .progressed .. => true
  | _ => false

variable {O : CapabilitySocketOptions} {e : Event}

theorem next_calm (hs : Sound st) (hturn : Event.isTurn e = false)
    (h : next O st e = some u) : Calm st u := by
  cases e with
  | start =>
    obtain rfl := Option.some.inj h
    rw [start]
    split
    · rename_i hsto
      have hcon := hs.connect (.inl hsto)
      have hres := hs.resting hsto
      have hsame : { st with stopped := false, reconnectTimer := false } = { st with stopped := false } := by
        rw [← hres]
      exact .inr (.inl (hsame ▸ hcon))
    · exact .inl (.refl st)
  | stop =>
    obtain rfl := Option.some.inj h
    exact .inr (.inr (.inl (cleared_stop st)))
  | reconnect =>
    rw [next] at h
    split at h
    · rename_i htim
      obtain rfl := Option.some.inj h
      have hrun : st.stopped = false := by
        rw [← Bool.not_eq_true]
        intro hsto
        rw [hs.resting hsto] at htim
        cases htim
      have hsame : { st with stopped := false, reconnectTimer := false } = { st with reconnectTimer := false } := by
        rw [← hrun]
      exact .inr (.inl (hsame ▸ hs.connect (.inr htim)))
    · cases h
  | connectTimeout _ | closing _ =>
    obtain rfl := Option.some.inj h
    split
    · exact .inl (alike_closeSocket st)
    · exact .inl (.refl st)
  | opened s =>
    rw [next] at h
    split at h
    · obtain rfl := Option.some.inj h
      exact .inl (.refl st)
    split at h
    · rename_i hsoc
      obtain rfl := Option.some.inj h
      refine .inl ⟨rfl, rfl, ?_, rfl, ⟨rfl, rfl⟩, rfl, fun _ h => h⟩
      rw [current, current, hsoc]
      rfl
    · cases h
  | closed s =>
    obtain rfl := Option.some.inj h
    split
    · exact .inr (.inr (.inl (cleared_onClose O st)))
    · exact .inl (.refl st)
  | detachedFailure =>
    obtain rfl := Option.some.inj h
    exact .inl (alike_detachedFailure st)
  | message s frame t =>
    rw [next] at h
    split at h
    · obtain rfl := Option.some.inj h
      exact .inl (.refl st)
    rename_i hcur
    rw [Bool.or_eq_true, not_or, Bool.not_eq_true', Bool.not_eq_false] at hcur
    split at h
    · cases h
    · obtain rfl := Option.some.inj h
      exact calm_handleMessage O t frame (current_eq_some.mpr hcur.1)
  | deadline i =>
    rw [next] at h
    split at h
    · split at h
      · obtain rfl := Option.some.inj h
        exact .inl (alike_abort st _)
      · cases h
    · cases h
  | settled | progressed => cases hturn
  | refusalProgressed r progress =>
    obtain ⟨refusal, _, h⟩ := bind_eq_some_iff.mp h
    exact .inl (alike_proceedRefusal h)

theorem next_turned (hturn : Event.isTurn e = true)
    (h : next O st e = some u) : ∃ i hd, st.handlers[i]? = some hd ∧ hd.stage ≠ .ended ∧
      ((∃ settlement, e = .settled i settlement ∧ hd.stage = .invoking ∧ u = st.settle hd settlement) ∨
        ∃ progress, e = .progressed i progress ∧ st.proceed hd progress = some u) := by
  cases e with
  | settled i settlement =>
    rw [next] at h
    split at h
    · rename_i hd hget
      split at h
      · rename_i hstage
        obtain rfl := Option.some.inj h
        refine ⟨i, hd, hget, ?_, .inl ⟨settlement, rfl, hstage, rfl⟩⟩
        rw [hstage]
        exact Stage.noConfusion
      · cases h
    · cases h
  | progressed i progress =>
    obtain ⟨hd, hget, h⟩ := bind_eq_some_iff.mp h
    refine ⟨i, hd, hget, ?_, .inr ⟨progress, rfl, h⟩⟩
    intro hend
    rw [proceed, hend] at h
    cases h
  | _ => cases hturn

theorem Full.kept_iff (hf : Full st) (ht : Turned st hd stage es u) :
    (∀ e ∈ u.effects, e.Kept) ↔ (st.Superseded hd → u.effects = st.effects) := by
  rw [ht.effects, append_right_eq_self]
  constructor
  · rintro hkept ⟨s, hs, hlat⟩
    refine eq_nil_iff_forall_not_mem.mpr (fun e he => ?_)
    obtain ⟨hage, htar⟩ := ht.agents e he
    have hle : e.target ≤ e.agent.socket := hkept e (mem_append_right _ he)
    rw [hage, some_inj.mp (htar.symm.trans hs)] at hle
    exact absurd hle (Nat.not_le.mpr hlat)
  intro hqui e he
  rcases mem_append.mp he with he | he
  · exact hf.kept e he
  obtain ⟨hage, htar⟩ := ht.agents e he
  rw [Effect.Kept, hage]
  refine Nat.not_lt.mp (fun hlat => ?_)
  rw [hqui ⟨_, htar, hlat⟩] at he
  cases he

theorem removal_eq_nil : st.removal hd = [] ↔ st.active.get? hd.callId = none := by
  rw [removal]
  cases st.active.get? hd.callId with
  | none => simp
  | some owner => simp

theorem finish_quiet : (st.finish hd).effects = st.effects ↔ st.active.get? hd.callId = none := by
  exact append_right_eq_self.trans removal_eq_nil

theorem giveUp_quiet (hcur : st.current = some s) (hrun : st.stopped = false) :
    (st.giveUp hd).effects = st.effects ↔ st.active.get? hd.callId = none ∧ st.isOpen = false := by
  have hsto : (st.finish hd).stopped = false := hrun
  have hopen : (st.finish hd).isOpen = st.isOpen := rfl
  have hsame : (st.finish hd).current = some s := hcur
  rw [giveUp, handleOutboundFailure, hsto, if_neg Bool.false_ne_true, hopen]
  cases hopened : st.isOpen with
  | false =>
    rw [if_neg Bool.false_ne_true, finish_quiet]
    exact (and_iff_left rfl).symm
  | true =>
    rw [if_pos rfl, terminate_effects, hsame, finish, append_assoc, append_right_eq_self]
    simp

theorem recover_quiet (hcur : st.current = some s) (hrun : st.stopped = false) (habo : hd.controller ∈ st.aborted) :
    (st.recover hd f).effects = st.effects ↔ st.active.get? hd.callId = none ∧
      (hd.work = .resourceRead ∨ st.isOpen = false ∧ hd.work.dropsChannel f = false) := by
  rw [recover]
  cases hdro : hd.work.dropsChannel f with
  | true =>
    have hwork : hd.work ≠ .resourceRead := by
      intro hwork
      rw [hwork] at hdro
      cases hdro
    rw [if_pos rfl, finish, terminate_effects, hcur, append_assoc, append_right_eq_self]
    simp [hwork]
  | false =>
    rw [if_neg Bool.false_ne_true]
    by_cases hwork : hd.work = .resourceRead
    · rw [if_pos ⟨hwork, habo⟩, finish_quiet]
      exact (and_iff_left (.inl hwork)).symm
    rw [if_neg (fun h => hwork h.1), sendError]
    cases henq : st.enqueueSend (.toolError f.protocolError) with
    | none =>
      rw [giveUp_quiet hcur hrun, enqueueSend_none.mp henq]
      simp
    | some task =>
      have hopened := (enqueueSend_socket henq).2
      have hsent : ((st.setStage hd (.replying task)).note (.enqueued hd.controller task.socket)).effects
          = st.effects ++ [.enqueued hd.controller task.socket] := rfl
      rw [hsent, append_right_eq_self, hopened]
      simp [hwork]

theorem advance_past {b : Bool} (h : st.current ≠ some task.socket) :
    st.advance task b progress = .error progress.fault := by
  cases progress with
  | fails f => rfl
  | proceeds =>
    rw [advance, if_neg]
    · rfl
    rw [currentTransport, Bool.and_eq_true, Bool.and_eq_true]
    intro htra
    have hsoc := of_decide_eq_true htra.1.2
    exact h (by rw [current, hsoc]; rfl)

theorem Full.superseded (hf : Full st) (hs : Sound st) (hmem : hd ∈ st.handlers) (hlive : hd.stage ≠ .ended)
    (hlate : st.Superseded hd) : ∃ s, st.current = some s ∧ hd.controller.socket < s ∧ st.stopped = false ∧
      hd.controller ∈ st.aborted := by
  obtain ⟨s, hcur, hlat⟩ := hlate
  refine ⟨s, hcur, hlat, ?_, hf.revoked hd hmem hlive ?_⟩
  · rw [← Bool.not_eq_true]
    intro hsto
    rw [mem_def, current, hs.alone (.inl hsto)] at hcur
    cases hcur
  · rw [mem_def.mp hcur, ne_eq, some_inj]
    exact Nat.ne_of_gt hlat

theorem Full.settle_quiet (hf : Full st) (hs : Sound st) (hmem : hd ∈ st.handlers) (hstage : hd.stage = .invoking)
    (hlate : st.Superseded hd) (settlement : Settlement) :
    (st.settle hd settlement).effects = st.effects ↔ st.Unheard hd settlement.fault := by
  have hlive : hd.stage ≠ .ended := by rw [hstage]; exact Stage.noConfusion
  obtain ⟨s, hcur, _, hrun, habo⟩ := hf.superseded hs hmem hlive hlate
  have hout : st.outcome hd settlement = .error settlement.fault := by
    cases settlement with
    | rejected f => rfl
    | resolved prepared => exact if_pos habo
  have hrep : hd.stage.replies = false := by rw [hstage]; rfl
  rw [settle, hout]
  rw [recover_quiet hcur hrun habo, Unheard, hrep]
  simp [habo]

theorem Full.proceed_quiet (hf : Full st) (hs : Sound st) (hmem : hd ∈ st.handlers) (hlate : st.Superseded hd)
    (h : st.proceed hd progress = some u) :
    u.effects = st.effects ↔ st.Unheard hd progress.fault := by
  have hlive : hd.stage ≠ .ended := by
    intro hend
    rw [proceed, hend] at h
    cases h
  obtain ⟨s, hcur, hlat, hrun, habo⟩ := hf.superseded hs hmem hlive hlate
  -- the frame at hand was queued for the call's own socket, which is gone
  have hpast : ∀ task, hd.stage.task? = some task → st.current ≠ some task.socket := by
    intro task htask hsame
    have hle : task.socket ≤ hd.controller.socket := hf.kept _ (hs.queued hd hmem task htask)
    rw [hcur, some_inj] at hsame
    rw [← hsame] at hle
    exact Nat.not_le.mpr hlat hle
  rw [proceed] at h
  cases hstage : hd.stage with
  | invoking => simp [hstage] at h
  | ended => exact absurd hstage hlive
  | sending task rest =>
    simp only [hstage, advance_past (hpast task (by rw [hstage]; rfl)), some_inj] at h
    have hrep : hd.stage.replies = false := by rw [hstage]; rfl
    rw [← h, recover_quiet hcur hrun habo, Unheard, hrep]
    simp [habo]
  | replying task =>
    simp only [hstage, advance_past (hpast task (by rw [hstage]; rfl)), some_inj] at h
    have hrep : hd.stage.replies = true := by rw [hstage]; rfl
    rw [← h, giveUp_quiet hcur hrun, Unheard, hrep]
    simp

theorem Sound.next (hs : Sound st) (h : next O st e = some u) : Sound u := by
  cases hturn : Event.isTurn e with
  | false => exact hs.calm (next_calm hs hturn h)
  | true =>
    obtain ⟨i, hd, hget, _, ⟨settlement, rfl, _, rfl⟩ | ⟨progress, rfl, hpro⟩⟩ := next_turned hturn h
    · obtain ⟨stage, es, ht⟩ := hs.turned_settle hd settlement
      exact hs.turned hget ht
    · obtain ⟨stage, es, ht⟩ := hs.turned_proceed hget hpro
      exact hs.turned hget ht

theorem Full.isolated (hf : Full st) (hs : Sound st) (O : CapabilitySocketOptions) : Isolated O st := by
  refine ⟨hf.kept, hf.entry, ?_⟩
  intro hd hmem hlive hcur t v h
  have hrun : st.stopped = false := by
    rw [← Bool.not_eq_true]
    intro hsto
    rw [current, hs.alone (.inl hsto)] at hcur
    cases hcur
  rw [CapabilitySocket.next, current_eq_some.mp hcur, hrun, if_neg (by decide)] at h
  split at h
  · cases h
  obtain rfl := Option.some.inj h
  rw [handleMessage, handleCancel, if_neg (fun h => h rfl), hf.entry hd hmem hlive hcur]
  exact mem_cons_self

theorem Full.step (hf : Full st) (hs : Sound st)
    (h : CapabilitySocket.next O st e = some u) : (Isolated O u ↔ Timely st e) ∧ (Isolated O u → Full u) := by
  have hsou := hs.next h
  suffices hkept : (∀ e' ∈ u.effects, e'.Kept) ↔ Timely st e by
    suffices hfull : (∀ e' ∈ u.effects, e'.Kept) → Full u by
      exact ⟨⟨fun hi => hkept.mp hi.kept, fun ht => (hfull (hkept.mpr ht)).isolated hsou O⟩, fun hi => hfull hi.kept⟩
    cases hturn : Event.isTurn e with
    | false => exact fun _ => hf.calm hs (next_calm hs hturn h)
    | true =>
      obtain ⟨i, hd, hget, hlive, ⟨settlement, rfl, _, rfl⟩ | ⟨progress, rfl, hpro⟩⟩ := next_turned hturn h
      · obtain ⟨stage, es, ht⟩ := hs.turned_settle hd settlement
        exact hf.turned hs hget hlive ht
      · obtain ⟨stage, es, ht⟩ := hs.turned_proceed hget hpro
        exact hf.turned hs hget hlive ht
  cases hturn : Event.isTurn e with
  | false =>
    have htim : Timely st e := by
      cases e with
      | settled | progressed => cases hturn
      | _ => trivial
    exact iff_of_true (hf.calm hs (next_calm hs hturn h)).kept htim
  | true =>
    obtain ⟨i, hd, hget, hlive, ⟨settlement, rfl, hstage, rfl⟩ | ⟨progress, rfl, hpro⟩⟩ := next_turned hturn h
    · obtain ⟨stage, es, ht⟩ := hs.turned_settle hd settlement
      rw [hf.kept_iff ht, Timely, hget]
      simp only [mem_def, some_inj, forall_eq']
      exact forall_congr' (fun hlate => hf.settle_quiet hs (mem_of_getElem? hget) hstage hlate settlement)
    obtain ⟨stage, es, ht⟩ := hs.turned_proceed hget hpro
    rw [hf.kept_iff ht, Timely, hget]
    simp only [mem_def, some_inj, forall_eq']
    exact forall_congr' (fun hlate => hf.proceed_quiet hs (mem_of_getElem? hget) hlate hpro)

end Steps

theorem sound_new : Sound new where
  numbered := fun _ _ h => by cases h
  made := fun _ h => by cases h
  latest := fun _ h => by cases h
  alone := fun _ => rfl
  resting := fun _ => rfl
  entries := fun _ _ h => by cases h
  queued := fun _ h => by cases h

theorem full_new : Full new where
  kept := fun _ h => by cases h
  entry := fun _ h => by cases h
  revoked := fun _ h => by cases h

/-- The calls of a socket keep to it all along a run exactly when no handler of an earlier socket is heard while a
later one is in place. -/
theorem sockets_isolated_iff (O : CapabilitySocketOptions) {es : List Event} {st : CapabilitySocket}
    (h : Runs.run (next O) new es = some st) :
    (∀ before after u, es = before ++ after → Runs.run (next O) new before = some u → Isolated O u) ↔
      Runs.Meets (next O) Timely new es :=
  Runs.always_iff_meets_of (I := fun st => Sound st ∧ Full st) (fun _ hI => hI.2.isolated hI.1 O)
    (fun _ _ _ hs hn => hs.next hn)
    (fun _ _ _ hs hI hn => ⟨(hI.2.step hs hn).1, fun hi => ⟨hs.next hn, (hI.2.step hs hn).2 hi⟩⟩) 
    sound_new ⟨sound_new, full_new⟩ h

section Decidable

variable (st : CapabilitySocket)

instance (hd : Handler) : Decidable (st.Superseded hd) :=
  inferInstanceAs (Decidable (∃ s ∈ st.current, hd.controller.socket < s))

instance (hd : Handler) (f : Fault) : Decidable (st.Unheard hd f) := by
  unfold Unheard
  infer_instance

instance (e : Event) : Decidable (Timely st e) := by
  unfold Timely
  split <;> infer_instance

end Decidable

def readingOptions : CapabilitySocketOptions := ⟨"network", "device", "desktop", true, true⟩

def readingTurn : Turn where
  offer := ⟨1, [.obj [("name", .str "files"), ("resource_protocol", .str "mcp-app-resources/1"),
    ("tools", .arr [.obj [("name", .str "list"), ("classification", .str "read_only"),
      ("_meta", .obj [("ui/resourceUri", .str "ui://list")])]])]]⟩

def readingAck : HelloAck where
  protocol := capabilityProtocol
  deviceId := "device"
  accountId := "network"
  clientInstanceId := "desktop"
  generation := 1
  accepted := true

def readingCall : ClientToolCall where
  callId := "call"
  generation := 1
  server := "files"
  tool := "list"
  args := .obj []
  accountId := "network"

def resourceCall : ClientResourceRead where
  callId := "resource"
  generation := 1
  server := "files"
  uri := "ui://list"
  accountId := "network"

def connection (s : SocketId) : List Event := [.opened s, .message s (.helloAck readingAck) readingTurn]

def resentRun : List Event :=
  .start :: connection 0 ++ [.message 0 (.toolCall readingCall) readingTurn, .closed 0, .reconnect] ++ connection 1 ++
    [.message 1 (.toolCall readingCall) readingTurn, .settled 0 (.resolved (.ok 0)), .progressed 0 .proceeds,
      .progressed 0 .proceeds]

theorem late_settlement_heard : ∃ st, Runs.run (next readingOptions) new resentRun = some st ∧
    .written ⟨0, 0⟩ 1 (.toolError "cancelled") ∈ st.effects ∧ .removed ⟨0, 0⟩ ⟨1, 1⟩ ∈ st.effects ∧
      ¬ Isolated readingOptions st := by
  have hrun : (Runs.run (next readingOptions) new resentRun).map effects = some
      [.enqueued ⟨0, 0⟩ 1, .written ⟨0, 0⟩ 1 (.toolError "cancelled"), .removed ⟨0, 0⟩ ⟨1, 1⟩] := by decide
  obtain ⟨st, hst, heff⟩ := map_eq_some_iff.mp hrun
  have hwri : .written ⟨0, 0⟩ 1 (.toolError "cancelled") ∈ st.effects := by
    rw [heff]
    simp
  refine ⟨st, hst, hwri, ?_, fun hiso => ?_⟩
  · rw [heff]
    simp
  · have hle : 1 ≤ 0 := hiso.kept _ hwri
    exact Nat.not_succ_le_zero 0 hle

def resourceRun : List Event :=
  .start :: connection 0 ++ [.message 0 (.resourceRead resourceCall) readingTurn, .closed 0, .reconnect] ++ connection 1 ++
    [.message 1 (.toolCall readingCall) readingTurn, .settled 0 (.resolved (.ok 0)), .settled 1 (.resolved (.ok 1)),
      .progressed 1 .proceeds]

theorem late_resource_unheard : ∃ st, Runs.run (next readingOptions) new resourceRun = some st ∧
    (∀ before after u, resourceRun = before ++ after → Runs.run (next readingOptions) new before = some u →
      Isolated readingOptions u) := by
  have hsome : (Runs.run (next readingOptions) new resourceRun).isSome = true := by decide
  have htim : Runs.all (fun s e => decide (Timely s e)) (next readingOptions) new resourceRun = true := by decide
  obtain ⟨st, hst⟩ := isSome_iff_exists.mp hsome
  exact ⟨st, hst, (sockets_isolated_iff readingOptions hst).mpr (Runs.meets_of_all (fun _ _ => of_decide_eq_true) htim)⟩

end CapabilitySocket

end OpenAgent.Desktop
