import OpenAgent.Channels.GatewayReplies

namespace OpenAgent.Channels.Replies

open List Option

def Owns (calls : List Call) (k c : Nat) : Prop :=
  ∃ call, calls[c]? = some call ∧ call.isOwner = true ∧ call.collector = some k

def Joined (calls : List Call) (k c : Nat) : Prop := ∃ call, calls[c]? = some call ∧ call.collector = some k

def Live (calls : List Call) (c : Nat) : Prop := ∃ call, calls[c]? = some call ∧ call.stage ≠ .cancelled

/-- How far the reply of a call that owns a collector has come: its text is on its way, or the collector has the frames
of its turn that were handled. -/
def Collects (turns : List Turn) (pending : Option Nat) (up : List Nat) (down : List Frame) (k c : Nat)
    (x : StreamCollector) : Prop :=
  (c ∈ up ∧ x.folded = [] ∧ pending = some k) ∨
  ∃ (T : Nat) (turn : Turn), turns[T]? = some turn ∧ c ∈ turn.messages ∧ x.folded <+: turn.frames.filter Frame.folds ∧
    (pending = some k → T + 1 = turns.length ∧ x.folded ++ down.filter Frame.folds = turn.frames.filter Frame.folds) ∧
    (x.done = false → pending = some k)

structure Kept (l : Lane) (up : List Nat) (down : List Frame) : Prop where
  joined : ∀ k c, Joined l.calls k c → k < l.collectors.length
  owner : ∀ k c d, Owns l.calls k c → Owns l.calls k d → c = d
  owned : ∀ k, k < l.collectors.length → ∃ c, Owns l.calls k c
  leader : ∀ k c o, Joined l.calls k c → Live l.calls c → Owns l.calls k o → Live l.calls o
  comes : ∀ c ∈ up, ∃ k, Joined l.calls k c
  nodup : up.Nodup
  unmerged : ∀ turn ∈ l.turns, ∀ c ∈ turn.messages, c ∉ up
  once : ∀ (T U : Nat) turn other, l.turns[T]? = some turn → l.turns[U]? = some other →
    ∀ c ∈ turn.messages, c ∈ other.messages → T = U
  led : ∀ turn ∈ l.turns, ∃ k o, Owns l.calls k o ∧ o ∈ turn.messages ∧ ∀ c ∈ turn.messages, Joined l.calls k c
  last : ∀ f ∈ down, f.turn + 1 = l.turns.length
  past : ∀ (T : Nat) turn, l.turns[T]? = some turn → turn.completed = false → T + 1 = l.turns.length
  frames : ∀ (T : Nat) turn, l.turns[T]? = some turn → ∀ f ∈ turn.frames, f.turn = T
  completed : ∀ turn ∈ l.turns, turn.completed = true → ∃ f ∈ turn.frames, f.body = .turnComplete
  slot : ∀ k, l.pending = some k → k + 1 = l.collectors.length
  coming : ∀ k, ∀ c ∈ up, Owns l.calls k c →
    k + 1 = l.collectors.length ∧ down = [] ∧ ∀ turn ∈ l.turns, turn.completed = true
  done : ∀ x ∈ l.collectors, x.done = x.folded.any Frame.ends
  collects : ∀ (k c : Nat) x, Owns l.calls k c → Live l.calls c → l.collectors[k]? = some x →
    Collects l.turns l.pending up down k c x

variable {l : Lane} {up : List Nat} {down : List Frame} {c k : Nat} {call : Call}

theorem Owns.joined {calls : List Call} (h : Owns calls k c) : Joined calls k c := by
  obtain ⟨call, hc, -, hk⟩ := h
  exact ⟨call, hc, hk⟩

theorem Joined.unique {calls : List Call} {j : Nat} (h : Joined calls j c) (h' : Joined calls k c) : j = k := by
  obtain ⟨call, hc, hj⟩ := h
  obtain ⟨call', hc', hk⟩ := h'
  cases hc.symm.trans hc'
  exact Option.some.inj (hj.symm.trans hk)

theorem current_eq {turn : Turn} (h : l.current = some turn) :
    l.turns[l.turns.length - 1]? = some turn ∧ l.turns.length - 1 + 1 = l.turns.length ∧ turn.completed = false := by
  obtain ⟨hlast, hturn⟩ := filter_eq_some_iff.mp h
  rw [List.getLast?_eq_getElem?] at hlast
  have hlt := (List.getElem?_eq_some_iff.mp hlast).1
  exact ⟨hlast, by omega, by simpa using hturn⟩

theorem current_eq_none (h : ∀ turn ∈ l.turns, turn.completed = true) : l.current = none := by
  refine filter_eq_none_iff.mpr fun turn hturn => ?_
  simp [h turn (mem_of_getLast? hturn)]

namespace Kept

theorem receive_owner (h : Kept l (c :: up) down) (ho : Owns l.calls k c) : Kept (l.receive c) up down := by
  obtain ⟨hk, hdown, hall⟩ := h.coming k c (mem_cons_self ..) ho
  rw [Lane.receive, current_eq_none hall]
  rcases id h with ⟨⟩
  have hj := ho.joined
  refine { h with
    comes := by grind
    nodup := by grind
    unmerged := by grind
    once := by grind
    led := by grind
    last := by grind
    past := by grind
    frames := by grind
    completed := by grind
    coming := by grind
    collects := ?_ }
  intro k' o x hk' hlive hx
  rcases h.collects k' o x hk' hlive hx with ⟨hup, hfol, hpen⟩ | ⟨T, turn, hT, ho', hpre, hpen, hdone⟩
  · rcases mem_cons.mp hup with rfl | hup
    · refine .inr ⟨l.turns.length, { messages := [o] }, by simp, by simp, ?_⟩
      simp [hfol, hdown, hpen]
    · exact .inl ⟨hup, hfol, hpen⟩
  · refine .inr ⟨T, turn, by grind, ho', hpre, fun hp => ?_, hdone⟩
    grind

theorem receive_follower (h : Kept l (c :: up) down) {turn : Turn} (hturn : l.current = some turn) {o : Nat}
    (ho : Owns l.calls k o) (hmem : o ∈ turn.messages) (hc : Joined l.calls k c) : Kept (l.receive c) up down := by
  obtain ⟨hT, hlast, hcom⟩ := current_eq hturn
  rw [Lane.receive, hturn]
  dsimp only [Lane.setCurrent]
  rcases id h with ⟨⟩
  refine { h with
    comes := by grind
    nodup := by grind
    unmerged := by grind
    once := by grind
    led := ?_
    last := by grind
    past := by grind
    frames := by grind
    completed := by grind
    coming := by grind
    collects := ?_ }
  · intro t ht
    rcases mem_or_eq_of_mem_set ht with ht | rfl
    · exact h.led t ht
    obtain ⟨k', o', ho', hmem', hall⟩ := h.led turn (mem_of_getElem? hT)
    have hk : k' = k := (hall o hmem).unique ho.joined
    exact ⟨k', o', ho', by simp [hmem'], by grind⟩
  intro k' o x hk' hlive hx
  rcases h.collects k' o x hk' hlive hx with ⟨hup, hfol, hpen⟩ | ⟨T, turn, hT', ho', hpre, hpen, hdone⟩
  · exact .inl ⟨by grind, hfol, hpen⟩
  by_cases hsame : T = l.turns.length - 1
  · refine .inr ⟨T, { turn with messages := turn.messages ++ [c] }, by grind, by grind, ?_, ?_, hdone⟩
    · grind
    · grind
  · exact .inr ⟨T, turn, by grind, ho', hpre, by grind, hdone⟩

theorem emit (h : Kept l up down) {body : Body} {t : Lane} (ht : l.emit ⟨l.turns.length - 1, body⟩ = some t) :
    Kept t up (down ++ [⟨l.turns.length - 1, body⟩]) := by
  obtain ⟨turn, hturn, rfl⟩ := map_eq_some_iff.mp ht
  obtain ⟨hT, hlast, hcom⟩ := current_eq hturn
  dsimp only [Lane.setCurrent]
  rcases id h with ⟨⟩
  refine { h with
    unmerged := by grind
    once := by grind
    led := by grind
    last := by grind
    past := by grind
    frames := by grind
    completed := ?_
    coming := by grind
    collects := ?_ }
  · intro t ht hc
    rcases mem_or_eq_of_mem_set ht with ht | rfl
    · exact h.completed t ht hc
    · exact ⟨_, mem_append_right _ (mem_singleton_self _), of_decide_eq_true hc⟩
  intro k o x hk hlive hx
  rcases h.collects k o x hk hlive hx with ⟨hup, -⟩ | ⟨T, turn', hT', ho', hpre, hpen, hdone⟩
  · have hclo := (h.coming k o hup hk).2.2 turn (mem_of_getElem? hT)
    grind
  by_cases hsame : T = l.turns.length - 1
  · have hequ : turn' = turn := by grind
    refine .inr ⟨T, { turn' with
      frames := turn'.frames ++ [⟨l.turns.length - 1, body⟩]
      completed := body = .turnComplete }, by grind, ho', ?_, fun hp => ?_, hdone⟩
    · rw [filter_append]
      exact hpre.trans (prefix_append _ _)
    · rw [length_set, filter_append, filter_append, ← append_assoc, (hpen hp).2]
      exact ⟨(hpen hp).1, rfl⟩
  · exact .inr ⟨T, turn', by grind, ho', hpre, by grind, hdone⟩

theorem handle {f : Frame} (h : Kept l up (f :: down)) : Kept (l.handle f) up down := by
  rcases id h with ⟨⟩
  unfold Lane.handle
  split
  · next j hj =>
    split
    · next hfol =>
      refine { h with
        joined := by grind
        owned := by grind
        last := by grind
        slot := by grind
        coming := by grind
        done := ?_
        collects := ?_ }
      · intro x hx
        obtain ⟨i, hi⟩ := mem_iff_getElem?.mp hx
        grind
      intro k o x hk hlive hx
      have hfil : (f :: down).filter Frame.folds = f :: down.filter Frame.folds := filter_cons_of_pos hfol
      by_cases hkj : j = k
      · subst hkj
        obtain ⟨old, hold, rfl⟩ : ∃ old, l.collectors[j]? = some old ∧
            x = { old with folded := old.folded ++ [f], done := old.done || f.ends } := by
          grind
        rcases h.collects j o old hk hlive hold with ⟨hup, -⟩ | ⟨T, turn, hT, ho, hpre, hpen, hdone⟩
        · cases (h.coming j o hup hk).2.1
        obtain ⟨hlast, heq⟩ := hpen hj
        rw [hfil, append_cons] at heq
        exact .inr ⟨T, turn, hT, ho, ⟨_, heq⟩, fun _ => ⟨hlast, heq⟩, fun _ => hj⟩
      have hsame : l.collectors[k]? = some x := by grind
      rcases h.collects k o x hk hlive hsame with ⟨-, -, hp⟩ | ⟨T, turn, hT, ho, hpre, -, hdone⟩
      · cases hj.symm.trans hp
        exact absurd rfl hkj
      refine .inr ⟨T, turn, hT, ho, hpre, fun hp => ?_, hdone⟩
      cases hj.symm.trans hp
      exact absurd rfl hkj
    · next hfol =>
      refine { h with last := by grind, coming := by grind, collects := fun k o x hk hlive hx => ?_ }
      rcases h.collects k o x hk hlive hx with hup | ⟨T, turn, hT, ho, hpre, hpen, hdone⟩
      · exact .inl hup
      · rw [filter_cons_of_neg hfol] at hpen
        exact .inr ⟨T, turn, hT, ho, hpre, hpen, hdone⟩
  · next hnone =>
    refine { h with last := by grind, coming := by grind, collects := fun k o x hk hlive hx => ?_ }
    rcases h.collects k o x hk hlive hx with hup | ⟨T, turn, hT, ho, hpre, -, hdone⟩
    · exact .inl hup
    · exact .inr ⟨T, turn, hT, ho, hpre, fun hp => (by cases hnone.symm.trans hp), hdone⟩

theorem withCalls (h : Kept l up down) {calls : List Call} (howns : ∀ j d, Owns calls j d ↔ Owns l.calls j d)
    (hjoi : ∀ j d, Joined calls j d ↔ Joined l.calls j d)
    (hlive : ∀ j d, Joined l.calls j d → Live calls d → Live l.calls d)
    (hlea : ∀ j d o, Joined l.calls j d → Live calls d → Owns l.calls j o → Live calls o) :
    Kept { l with calls := calls } up down := by
  refine { h with
    joined := by simpa only [hjoi] using h.joined
    owner := by simpa only [howns] using h.owner
    owned := by simpa only [howns] using h.owned
    leader := by simpa only [howns, hjoi] using hlea
    comes := by simpa only [hjoi] using h.comes
    led := by simpa only [howns, hjoi] using h.led
    coming := by simpa only [howns] using h.coming
    collects := ?_ }
  intro j o x ho hol hx
  rw [howns] at ho
  exact h.collects j o x ho (hlive j o ho.joined hol) hx

theorem setStage (h : Kept l up down) (hc : l.calls[c]? = some call) (hstage : call.stage ≠ .cancelled) {stage : Stage}
    (halo : stage = .cancelled → ∀ k d, Owns l.calls k c → Joined l.calls k d → Live l.calls d → d = c) :
    Kept (l.setStage c call stage) up down := by
  have hlive : ∀ d, Live (l.calls.set c { call with stage := stage }) d ↔
      Live l.calls d ∧ (d = c → stage ≠ .cancelled) := by
    unfold Live
    grind
  refine h.withCalls ?_ ?_ (fun j d _ hd => ((hlive d).mp hd).1) fun j d o hd hdl ho => ?_
  · unfold Owns
    grind
  · unfold Joined
    grind
  rw [hlive] at hdl ⊢
  refine ⟨h.leader j d o hd hdl.1 ho, ?_⟩
  rintro rfl hcan
  exact hdl.2 (halo hcan j d ho hd hdl.1) hcan

theorem leave (h : Kept l up down)
    (hdone : ∀ c x, Owns l.calls k c → Live l.calls c → l.collectors[k]? = some x → x.done = true) :
    Kept (l.leave k) up down := by
  have hpen : ∀ j, (l.leave k).pending = some j ↔ l.pending = some j ∧ j ≠ k := by
    simp [Lane.leave, filter_eq_some_iff]
  refine { h with slot := fun j hj => h.slot j ((hpen j).mp hj).1, collects := ?_ }
  intro j o x hj hlive hx
  have hfol := h.done x (mem_of_getElem? hx)
  rcases h.collects j o x hj hlive hx with ⟨hup, hemp, hp⟩ | ⟨T, turn, hT, ho, hpre, hp, hund⟩
  · refine .inl ⟨hup, hemp, (hpen j).mpr ⟨hp, ?_⟩⟩
    rintro rfl
    rw [hdone o x hj hlive hx, hemp] at hfol
    cases hfol
  refine .inr ⟨T, turn, hT, ho, hpre, fun hp' => hp ((hpen j).mp hp').1, fun hd => ?_⟩
  refine (hpen j).mpr ⟨hund hd, ?_⟩
  rintro rfl
  rw [hdone o x hj hlive hx] at hd
  cases hd

theorem appendCall (h : Kept l up down) (hk : call.collector = none) :
    Kept { l with calls := l.calls ++ [call] } up down := by
  have hlive : ∀ j d, Joined l.calls j d → (Live (l.calls ++ [call]) d ↔ Live l.calls d) := by
    unfold Live Joined
    grind
  refine h.withCalls ?_ ?_ (fun j d hd => (hlive j d hd).mp) fun j d o hd hdl ho => ?_
  · unfold Owns
    grind
  · unfold Joined
    grind
  · exact (hlive j o ho.joined).mpr (h.leader j d o hd ((hlive j d hd).mp hdl) ho)

end Kept

section submitted

variable {calls : List Call} (hc : calls[c]? = some call) (hk : call.collector = none) (k : Nat) (isOwner : Bool)

include hc hk

theorem owns_submitted (j d : Nat) :
    Owns (calls.set c { call with stage := .sends, collector := some k, isOwner := isOwner }) j d ↔
      Owns calls j d ∨ isOwner = true ∧ j = k ∧ d = c := by
  unfold Owns
  grind

theorem joined_submitted (j d : Nat) :
    Joined (calls.set c { call with stage := .sends, collector := some k, isOwner := isOwner }) j d ↔
      Joined calls j d ∨ j = k ∧ d = c := by
  unfold Joined
  grind

theorem live_submitted {j d : Nat} (hd : Joined calls j d) :
    Live (calls.set c { call with stage := .sends, collector := some k, isOwner := isOwner }) d ↔ Live calls d := by
  unfold Live
  unfold Joined at hd
  grind

theorem not_joined (j : Nat) : ¬Joined calls j c := by
  unfold Joined
  grind

end submitted

namespace Kept

theorem join (h : Kept l up down) (hc : l.calls[c]? = some call) (hk : call.collector = none)
    (hexi : l.existing = some k) (hlive : ∀ o, Owns l.calls k o → Live l.calls o) :
    Kept (l.submit c call) (up ++ [c]) down := by
  obtain ⟨hpen, hund⟩ := filter_eq_some_iff.mp hexi
  have hnew := not_joined hc hk
  have howns := owns_submitted hc hk k false
  have hjoi := joined_submitted hc hk k false
  have hsame : ∀ j d, Joined l.calls j d → _ := fun j d hd => live_submitted hc hk k false hd
  simp only [Bool.false_eq_true, false_and, or_false] at howns
  rw [Lane.submit, hexi]
  rcases id h with ⟨⟩
  refine { h with
    joined := by simp only [hjoi]; grind
    owner := by simpa only [howns] using h.owner
    owned := by simp only [howns, length_modify]; exact h.owned
    leader := ?_
    comes := by simp only [hjoi]; grind
    nodup := by grind
    unmerged := by grind
    led := by simp only [howns, hjoi]; grind
    slot := by grind
    coming := ?_
    done := ?_
    collects := ?_ }
  · intro j d o hd hdl ho
    rw [howns] at ho
    rw [hsame j o ho.joined]
    rcases (hjoi j d).mp hd with hd | ⟨rfl, rfl⟩
    · exact h.leader j d o hd ((hsame j d hd).mp hdl) ho
    · exact hlive o ho
  · intro j d hd ho
    rw [howns] at ho
    rw [length_modify]
    rcases mem_append.mp hd with hd | hd
    · exact h.coming j d hd ho
    · rw [mem_singleton.mp hd] at ho
      exact absurd ho.joined (hnew j)
  · intro x hx
    obtain ⟨i, hi⟩ := mem_iff_getElem?.mp hx
    rw [List.getElem?_modify] at hi
    obtain ⟨y, hy, rfl⟩ := map_eq_some_iff.mp hi
    have hdone := h.done y (mem_of_getElem? hy)
    split
    · exact hdone
    · exact hdone
  · intro j o x ho hol hx
    rw [howns] at ho
    rw [hsame j o ho.joined] at hol
    rw [List.getElem?_modify] at hx
    obtain ⟨y, hy, hxy⟩ := map_eq_some_iff.mp hx
    have hsame : x.folded = y.folded ∧ x.done = y.done := by
      rw [← hxy]
      split <;> exact ⟨rfl, rfl⟩
    rw [Collects, hsame.1, hsame.2]
    exact (h.collects j o y ho hol hy).imp_left fun hup => ⟨mem_append_left _ hup.1, hup.2⟩

theorem own (h : Kept l up down) (hc : l.calls[c]? = some call) (hk : call.collector = none)
    (hexi : l.existing = none) (hall : ∀ turn ∈ l.turns, turn.completed = true) (hdown : down = [])
    (hup : ∀ d ∈ up, ∀ j, ¬Owns l.calls j d) : Kept (l.submit c call) (up ++ [c]) down := by
  have hnew := not_joined hc hk
  have howns := owns_submitted hc hk l.collectors.length true
  have hjoi := joined_submitted hc hk l.collectors.length true
  have hsame : ∀ j d, Joined l.calls j d → _ := fun j d hd => live_submitted hc hk l.collectors.length true hd
  simp only [true_and] at howns
  rw [Lane.submit, hexi]
  rcases id h with ⟨⟩
  have hlt : ∀ j d, Owns l.calls j d → j < l.collectors.length := fun j d hd => h.joined j d hd.joined
  refine { h with
    joined := by simp only [hjoi]; grind
    owner := by simp only [howns]; grind
    owned := ?_
    leader := ?_
    comes := by simp only [hjoi]; grind
    nodup := by grind
    unmerged := by grind
    led := by simp only [howns, hjoi]; grind
    slot := by grind
    coming := ?_
    done := ?_
    collects := ?_ }
  · intro j hj
    rw [length_append, length_singleton] at hj
    rcases Nat.lt_or_ge j l.collectors.length with hlt | hge
    · obtain ⟨d, hd⟩ := h.owned j hlt
      exact ⟨d, (howns j d).mpr (.inl hd)⟩
    · exact ⟨c, (howns j c).mpr (.inr ⟨by omega, rfl⟩)⟩
  · intro j d o hd hdl ho
    rcases (howns j o).mp ho with hold | ⟨rfl, rfl⟩
    · rw [hsame j o hold.joined]
      rcases (hjoi j d).mp hd with hd | ⟨rfl, rfl⟩
      · exact h.leader j d o hd ((hsame j d hd).mp hdl) hold
      · exact absurd (hlt _ _ hold) (Nat.lt_irrefl _)
    refine ⟨_, List.getElem?_set_self (List.getElem?_eq_some_iff.mp hc).1, ?_⟩
    show Stage.sends ≠ .cancelled
    decide
  · intro j d hd ho
    rcases (howns j d).mp ho with ho | ⟨rfl, -⟩
    · rcases mem_append.mp hd with hd | hd
      · exact absurd ho (hup d hd j)
      · rw [mem_singleton.mp hd] at ho
        exact absurd ho.joined (hnew j)
    · exact ⟨by simp, hdown, hall⟩
  · intro x hx
    rcases mem_append.mp hx with hx | hx
    · exact h.done x hx
    · rw [mem_singleton.mp hx]
      rfl
  · intro j o x ho hol hx
    rcases (howns j o).mp ho with ho | ⟨rfl, rfl⟩
    · have hj := hlt j o ho
      rw [hsame j o ho.joined] at hol
      rw [List.getElem?_append_left hj] at hx
      rcases h.collects j o x ho hol hx with ⟨ho', -⟩ | ⟨T, turn, hT, hmem, hpre, -, hdone⟩
      · exact absurd ho (hup o ho' j)
      refine .inr ⟨T, turn, hT, hmem, hpre, fun hp => ?_, fun hd => ?_⟩
      · exact absurd (Option.some.inj hp).symm (Nat.ne_of_lt hj)
      · have hex := filter_eq_none_iff.mp hexi j (hdone hd)
        simp [hx, hd] at hex
    · rw [List.getElem?_concat_length, Option.some.injEq] at hx
      exact .inl ⟨by simp, by rw [← hx]; rfl, rfl⟩

end Kept

end OpenAgent.Channels.Replies
