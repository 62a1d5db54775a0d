import OpenAgent.Desktop.HostRequests

namespace OpenAgent.Desktop.Host

open Py Option Bridge

variable {parse : Text → Option Json}

def Child.done (x : Child) (failed : Bool) : Bool := if failed then x.givenUp else x.closed

namespace Bridge

def Stopping (s : Bridge) (c : Nat) : Prop :=
  s.stopPromise = some (.terminate c) ∨ s.stopPromise = some (.force c)

def Retiring (s : Bridge) (c : Nat) : Prop := (s.retiringChildren.get? c).isSome

end Bridge

/-- What is known of the processes, of the terminations and of what awaits them. -/
structure Control (s : Bridge) : Prop where
  former : ∀ c, c < s.children.length → s.child ≠ some c →
    (s.get c).closed ∨ (s.get c).givenUp ∨ s.Retiring c ∨ (s.get c).lost ∨ s.Stopping c
  killed : ∀ c, s.child = some c → (s.get c).killed → (s.get c).givenUp ∨ s.Stopping c
  alone : ∀ c, s.Retiring c → s.child = none
  retired : ∀ c failed, c < s.children.length → s.retiringChildren.get? c = some (.settled failed) →
    (s.get c).done failed
  joined : ∀ j, s.startPromise = some (.retiring j) →
    s.child = none ∧ (j.failed = false → ∀ c, s.Retiring c → c ∈ j.waiting)
  handshake : ∀ c id, s.startPromise = some (.handshake c id) → s.child = none ∨ s.child = some c

structure Ages (s t : Bridge) : Prop where
  length : t.children.length = s.children.length
  closed : ∀ c, (s.get c).closed → (t.get c).closed
  givenUp : ∀ c, (s.get c).givenUp → (t.get c).givenUp
  lost : ∀ c, (s.get c).lost → (t.get c).lost

structure Change (s t : Bridge) : Prop where
  ages : Ages s t
  child : t.child = s.child ∨ t.child = none ∧ ∀ c, s.child = some c → (t.get c).lost ∨ t.Retiring c
  killed : ∀ c, t.child = some c → (t.get c).killed → (s.get c).killed ∨ t.Stopping c
  stopping : ∀ c, c < s.children.length → s.Stopping c → t.Stopping c ∨ (t.get c).closed ∨ (t.get c).givenUp
  retires : ∀ c, c < s.children.length → s.Retiring c → t.Retiring c ∨ (t.get c).closed ∨ (t.get c).givenUp
  alone : ∀ c, t.Retiring c → s.Retiring c ∨ t.child = none
  retired : ∀ c failed, c < s.children.length → t.retiringChildren.get? c = some (.settled failed) →
    s.retiringChildren.get? c = some (.settled failed) ∨ (t.get c).done failed
  joined : ∀ j, t.startPromise = some (.retiring j) →
    (∃ i, s.startPromise = some (.retiring i) ∧ (j.failed = false → i.failed = false ∧
      ∀ c, t.Retiring c → s.Retiring c ∧ (c ∈ i.waiting → c ∈ j.waiting))) ∨
    t.child = none ∧ ∀ c, t.Retiring c → c ∈ j.waiting
  handshake : ∀ c id, t.startPromise = some (.handshake c id) → s.startPromise = some (.handshake c id)

variable {c : Nat} {s t : Bridge}

variable {failed : Bool}

theorem Ages.done (h : Ages s t) (hd : (s.get c).done failed) : (t.get c).done failed := by
  cases failed with
  | false => exact h.closed c hd
  | true => exact h.givenUp c hd

theorem Change.child_eq (h : Change s t) (hc : t.child = some c) : s.child = some c := by
  rcases h.child with hsame | ⟨hnone, -⟩
  · exact hsame.symm.trans hc
  · cases hnone.symm.trans hc

theorem Change.child_none (h : Change s t) (hs : s.child = none) : t.child = none := by
  rcases h.child with hsame | ⟨hnone, -⟩
  · exact hsame.trans hs
  · exact hnone

theorem Control.change {s t : Bridge} (h : Control s) (ha : Alive t) (hc : Change s t) : Control t where
  former c hlt hne := by
    rw [hc.ages.length] at hlt
    by_cases hsc : s.child = some c
    · rcases hc.child with hsame | ⟨-, hwhy⟩
      · exact absurd (hsame.trans hsc) hne
      · rcases hwhy c hsc with hlost | hret
        · exact .inr (.inr (.inr (.inl hlost)))
        · exact .inr (.inr (.inl hret))
    rcases h.former c hlt hsc with hclo | hgiv | hret | hlost | hsto
    · exact .inl (hc.ages.closed c hclo)
    · exact .inr (.inl (hc.ages.givenUp c hgiv))
    · rcases hc.retires c hlt hret with hr | hclo | hgiv
      · exact .inr (.inr (.inl hr))
      · exact .inl hclo
      · exact .inr (.inl hgiv)
    · exact .inr (.inr (.inr (.inl (hc.ages.lost c hlost))))
    · rcases hc.stopping c hlt hsto with hs | hclo | hgiv
      · exact .inr (.inr (.inr (.inr hs)))
      · exact .inl hclo
      · exact .inr (.inl hgiv)
  killed c htc hkil := by
    rcases hc.killed c htc hkil with hsk | hsto
    · rcases h.killed c (hc.child_eq htc) hsk with hgiv | hsto
      · exact .inl (hc.ages.givenUp c hgiv)
      · rcases hc.stopping c (hc.ages.length ▸ (ha c htc).1) hsto with hs | hclo | hgiv
        · exact .inr hs
        · have hend := (ha c htc).2
          simp [Child.ended, hclo] at hend
        · exact .inl hgiv
    · exact .inr hsto
  alone c hret := by
    rcases hc.alone c hret with hs | hnone
    · exact hc.child_none (h.alone c hs)
    · exact hnone
  retired c failed hlt hset := by
    rw [hc.ages.length] at hlt
    rcases hc.retired c failed hlt hset with hs | hdone
    · exact hc.ages.done (h.retired c failed hlt hs)
    · exact hdone
  joined j hj := by
    rcases hc.joined j hj with ⟨i, hi, hwai⟩ | ⟨hnone, hall⟩
    · obtain ⟨hnone, hall⟩ := h.joined i hi
      refine ⟨hc.child_none hnone, fun hjf c hret => ?_⟩
      obtain ⟨hif, hmore⟩ := hwai hjf
      obtain ⟨hsr, hin⟩ := hmore c hret
      exact hin (hall hif c hsr)
    · exact ⟨hnone, fun _ => hall⟩
  handshake c id hsta := by
    rcases h.handshake c id (hc.handshake c id hsta) with hnone | hsome
    · exact .inl (hc.child_none hnone)
    rcases hc.child with hsame | ⟨hnone, -⟩
    · exact .inr (hsame.trans hsome)
    · exact .inl hnone

theorem Ages.refl (s : Bridge) : Ages s s := ⟨rfl, fun _ h => h, fun _ h => h, fun _ h => h⟩

variable {u : Bridge}

theorem Ages.trans (h : Ages s t) (k : Ages t u) : Ages s u :=
  ⟨k.length.trans h.length, fun c hc => k.closed c (h.closed c hc), fun c hc => k.givenUp c (h.givenUp c hc),
    fun c hc => k.lost c (h.lost c hc)⟩

theorem Ages.of_children (h : t.children = s.children) : Ages s t := by
  have hget : t.get = s.get := by
    funext c
    rw [Bridge.get, h]
    rfl
  exact ⟨congrArg _ h, by simp [hget], by simp [hget], by simp [hget]⟩

variable {f : Child → Child}

theorem ages_update (s : Bridge) (c : Nat)
    (hf : ∀ x : Child, (x.closed → (f x).closed) ∧ (x.givenUp → (f x).givenUp) ∧ (x.lost → (f x).lost)) :
    Ages s (s.update c f) := by
  have hget : ∀ d, (s.update c f).get d = s.get d ∨ (s.update c f).get d = f (s.get d) := by
    intro d
    rw [get_update]
    by_cases hd : c = d ∧ d < s.children.length
    · exact .inr (if_pos hd)
    · exact .inl (if_neg hd)
  refine ⟨List.length_modify _ _ _, ?_, ?_, ?_⟩
  all_goals
    intro d hd
    rcases hget d with heq | heq
    all_goals rw [heq]
  · exact hd
  · exact (hf _).1 hd
  · exact hd
  · exact (hf _).2.1 hd
  · exact hd
  · exact (hf _).2.2 hd

theorem ages_kill (s : Bridge) (c : Nat) : Ages s (s.kill c) := by
  unfold kill
  split
  · exact .refl s
  · exact ages_update s c fun _ => ⟨id, id, id⟩

variable {d : Nat}

theorem killed_kill (h : ((s.kill c).get d).killed) : (s.get d).killed ∨ c = d := by
  unfold kill at h
  split at h
  · exact .inl h
  rw [get_update] at h
  by_cases hd : c = d ∧ d < s.children.length
  · exact .inr hd.1
  · rw [if_neg hd] at h
    exact .inl h

/-- Nothing of the processes, the terminations and the operations changes. -/
structure Same (s t : Bridge) : Prop where
  child : t.child = s.child
  children : t.children = s.children
  startPromise : t.startPromise = s.startPromise
  stopPromise : t.stopPromise = s.stopPromise
  retiringChildren : t.retiringChildren = s.retiringChildren

theorem Same.refl (s : Bridge) : Same s s := ⟨rfl, rfl, rfl, rfl, rfl⟩

theorem Same.trans (h : Same s t) (k : Same t u) : Same s u :=
  ⟨k.child.trans h.child, k.children.trans h.children, k.startPromise.trans h.startPromise,
    k.stopPromise.trans h.stopPromise, k.retiringChildren.trans h.retiringChildren⟩

theorem Same.get (h : Same s t) : t.get = s.get := by
  funext c
  rw [Bridge.get, h.children]
  rfl

theorem Same.retiring (h : Same s t) : t.Retiring = s.Retiring := by
  funext c
  rw [Retiring, h.retiringChildren]
  rfl

theorem Same.stopping (h : Same s t) : t.Stopping = s.Stopping := by
  funext c
  rw [Stopping, h.stopPromise]
  rfl

theorem Change.of_same (h : Same s t) (k : Change t u) : Change s u where
  ages := (Ages.of_children h.children).trans k.ages
  child := by rw [← h.child]; exact k.child
  killed := by rw [← h.get]; exact k.killed
  stopping := by rw [← h.children, ← h.stopping]; exact k.stopping
  retires := by rw [← h.children, ← h.retiring]; exact k.retires
  alone := by rw [← h.retiring]; exact k.alone
  retired := by rw [← h.children, ← h.retiringChildren]; exact k.retired
  joined := by rw [← h.startPromise, ← h.retiring]; exact k.joined
  handshake := by rw [← h.startPromise]; exact k.handshake

theorem Change.refl (s : Bridge) : Change s s :=
  ⟨.refl s, .inl rfl, fun _ _ h => .inl h, fun _ _ h => .inl h, fun _ _ h => .inl h, fun _ h => .inl h,
    fun _ _ _ h => .inl h, fun j h => .inl ⟨j, h, fun hf => ⟨hf, fun _ hr => ⟨hr, id⟩⟩⟩, fun _ _ h => h⟩

theorem Change.to_same (k : Change s t) (h : Same t u) : Change s u where
  ages := k.ages.trans (.of_children h.children)
  child := by rw [h.child, h.get, h.retiring]; exact k.child
  killed := by rw [h.child, h.get, h.stopping]; exact k.killed
  stopping := by rw [h.stopping, h.get]; exact k.stopping
  retires := by rw [h.retiring, h.get]; exact k.retires
  alone := by rw [h.retiring, h.child]; exact k.alone
  retired := by rw [h.retiringChildren, h.get]; exact k.retired
  joined := by rw [h.startPromise, h.retiring, h.child]; exact k.joined
  handshake := by rw [h.startPromise]; exact k.handshake

theorem Same.change {s t : Bridge} (h : Same s t) : Change s t := .of_same h (.refl t)

theorem Control.same (h : Control s) (k : Same s t) : Control t := by
  refine ⟨?_, ?_, ?_, ?_, ?_, ?_⟩
  · rw [k.children, k.child, k.get, k.retiring, k.stopping]
    exact h.former
  · rw [k.child, k.get, k.stopping]
    exact h.killed
  · rw [k.child, k.retiring]
    exact h.alone
  · rw [k.children, k.retiringChildren, k.get]
    exact h.retired
  · rw [k.startPromise, k.child, k.retiring]
    exact h.joined
  · rw [k.startPromise, k.child]
    exact h.handshake

theorem request_same (s : Bridge) (kind : Kind) (dispatch : Bridge.Dispatch) : Same s (s.request kind dispatch).1 := by
  rcases s.request_cases kind dispatch with heq | heq | ⟨c, hc, heq⟩
  all_goals rw [heq]
  all_goals exact ⟨rfl, rfl, rfl, rfl, rfl⟩

theorem expire_same (s : Bridge) (id : Nat) : Same s (s.expire id) := by
  unfold expire
  rcases s.pending.get? id with _ | p
  · exact .refl s
  have hset : Same s (s.settle id .rejected) := ⟨rfl, rfl, rfl, rfl, rfl⟩
  dsimp only
  unfold cancelRemote
  split
  · exact hset.trans (request_same (s.settle id .rejected) _ _)
  · exact hset

theorem get?_retireChild : (s.retireChild c).retiringChildren.get? d = s.retiringChildren.get? d ∨
      c = d ∧ s.retiringChildren.get? d = none ∧ (s.retireChild c).retiringChildren.get? d = some .terminate := by
  unfold retireChild
  by_cases h : (s.retiringChildren.get? c).isSome
  · rw [if_pos h]
    exact .inl rfl
  rw [if_neg h]
  by_cases hd : d = c
  · subst hd
    exact .inr ⟨rfl, not_isSome_iff_eq_none.mp h, Dict.get?_set_self _ _ _⟩
  · exact .inl (Dict.get?_set_of_ne _ _ hd)

theorem retiring_retireChild (s : Bridge) (c : Nat) : (s.retireChild c).Retiring c := by
  unfold Retiring retireChild
  by_cases h : (s.retiringChildren.get? c).isSome
  · rw [if_pos h]
    exact h
  · rw [if_neg h, Dict.get?_set_self]
    rfl

theorem children_retireChild (s : Bridge) (c : Nat) :
    (s.retireChild c).children = s.children ∨ (s.retireChild c).children = (s.kill c).children := by
  unfold retireChild
  split
  · exact .inl rfl
  · exact .inr rfl

theorem ages_retireChild (s : Bridge) (c : Nat) : Ages s (s.retireChild c) := by
  rcases children_retireChild s c with heq | heq
  · exact .of_children heq
  · exact (ages_kill s c).trans (.of_children heq)

theorem Change.retire (hchi : t.children = (s.retireChild c).children)
    (hret : t.retiringChildren = (s.retireChild c).retiringChildren) (hstop : t.stopPromise = s.stopPromise)
    (hnone : t.child = none) (hs : s.child = none ∨ s.child = some c)
    (hjoi : ∀ j, t.startPromise ≠ some (.retiring j))
    (hsta : ∀ d id, t.startPromise = some (.handshake d id) → s.startPromise = some (.handshake d id)) :
    Change s t where
  ages := (ages_retireChild s c).trans (.of_children hchi)
  child := by
    refine .inr ⟨hnone, fun d hd => ?_⟩
    rcases hs with hs | hs
    · cases hs.symm.trans hd
    cases hs.symm.trans hd
    refine .inr ?_
    rw [Retiring, hret]
    exact retiring_retireChild s c
  killed d hd := by cases hnone.symm.trans hd
  stopping d _ hd := .inl (by rw [Stopping, hstop]; exact hd)
  retires d _ hd := by
    refine .inl ?_
    rw [Retiring, hret]
    rcases get?_retireChild (s := s) (c := c) (d := d) with heq | ⟨-, -, heq⟩
    · rw [heq]
      exact hd
    · rw [heq]
      rfl
  alone _ _ := .inr hnone
  retired d failed _ hd := by
    rw [hret] at hd
    rcases get?_retireChild (s := s) (c := c) (d := d) with heq | ⟨-, -, heq⟩
    · exact .inl (heq.symm.trans hd)
    · cases heq.symm.trans hd
  joined j hj := absurd hj (hjoi j)
  handshake := hsta

theorem Control.not_joining (h : Control s) (hc : s.child = some c) (j : Join) :
    s.startPromise ≠ some (.retiring j) := by
  intro hj
  cases (h.joined j hj).1.symm.trans hc

theorem kill_operations (s : Bridge) (c : Nat) :
    (s.kill c).startPromise = s.startPromise ∧ (s.kill c).stopPromise = s.stopPromise ∧
      (s.kill c).retiringChildren = s.retiringChildren := by
  unfold kill
  split
  · exact ⟨rfl, rfl, rfl⟩
  · exact ⟨rfl, rfl, rfl⟩

theorem startPromise_retireChild (s : Bridge) (c : Nat) :
    (s.retireChild c).startPromise = s.startPromise ∧ (s.retireChild c).stopPromise = s.stopPromise := by
  unfold retireChild
  split
  · exact ⟨rfl, rfl⟩
  · exact ⟨(kill_operations s c).1, (kill_operations s c).2.1⟩

theorem drop_change (h : Control s) (hc : s.child = some c) : Change s ((s.retireChild c).handleExit c) := by
  have hchi : (s.retireChild c).child = some c := (quiet_retireChild s c).child.trans hc
  obtain ⟨hsta, hstop⟩ := startPromise_retireChild s c
  rw [handleExit, if_pos hchi]
  refine Change.retire (c := c) rfl rfl hstop rfl (.inr hc) ?_ ?_
  · intro j hj
    exact h.not_joining hc j (hsta.symm.trans hj)
  · intro d id hd
    exact hsta.symm.trans hd

theorem failProtocol_change (h : Control s) (hc : s.child = some c) : Change s (s.failProtocol c) := by
  rw [failProtocol, if_pos hc]
  exact (drop_change h hc).to_same ⟨rfl, rfl, rfl, rfl, rfl⟩

variable (parse) in
theorem handleRaw_same (s : Bridge) (c : Nat) (raw rest : Text) :
    ∃ m, Same s m ∧ (s.handleRaw parse c raw rest = m ∨ s.handleRaw parse c raw rest = m.failProtocol c) := by
  have htak : Same s { s with stdoutBuffer := rest, handled := s.handled ++ [(c, raw)] } :=
    ⟨rfl, rfl, rfl, rfl, rfl⟩
  unfold handleRaw
  split
  · exact ⟨_, htak, .inr rfl⟩
  split
  · exact ⟨_, htak, .inl rfl⟩
  unfold handleLine
  rcases readLine parse (trim raw) with _ | frame | ⟨id, ok⟩
  · exact ⟨_, htak, .inr rfl⟩
  · refine ⟨_, ?_, .inl rfl⟩
    exact ⟨rfl, rfl, rfl, rfl, rfl⟩
  dsimp only
  rcases pendingId _ id with _ | n
  · exact ⟨_, htak, .inl rfl⟩
  · refine ⟨_, ?_, .inl rfl⟩
    exact ⟨rfl, rfl, rfl, rfl, rfl⟩

variable (parse) in
theorem handleLines_same (lines : List Text) (rest : Text) (s : Bridge) (hc : s.child = some c) :
    ∃ m, Same s m ∧ (s.handleLines parse c lines rest = m ∨ s.handleLines parse c lines rest = m.failProtocol c) := by
  induction lines generalizing s with
  | nil =>
    unfold handleLines
    split
    · exact ⟨s, .refl s, .inr rfl⟩
    · exact ⟨s, .refl s, .inl rfl⟩
  | cons raw lines ih =>
    obtain ⟨m, hm, hcase⟩ := handleRaw_same parse s c raw (joinLines lines rest)
    have hmc : m.child = some c := hm.child.trans hc
    unfold handleLines
    rcases hcase with heq | heq
    · rw [heq, if_pos hmc]
      obtain ⟨u, hu, hlast⟩ := ih m hmc
      exact ⟨u, hm.trans hu, hlast⟩
    rw [heq, if_neg]
    · exact ⟨m, hm, .inr rfl⟩
    · rw [failProtocol_child hmc]
      exact fun hn => by cases hn

theorem handleStdout_change (h : Control s) (c : Nat) (chunk : Text) : Change s (s.handleStdout parse c chunk) := by
  unfold handleStdout
  by_cases hc : s.child = some c
  · rw [if_pos hc]
    obtain ⟨m, hm, hcase⟩ := handleLines_same parse (splitLines (s.stdoutBuffer ++ chunk)).1
      (splitLines (s.stdoutBuffer ++ chunk)).2 (s.receive c chunk) hc
    have hrec : Same s (s.receive c chunk) := ⟨rfl, rfl, rfl, rfl, rfl⟩
    have hsame : Same s m := hrec.trans hm
    have heq : (s.receive c chunk).handleLines parse c (splitLines (s.stdoutBuffer ++ chunk)).1
        (splitLines (s.stdoutBuffer ++ chunk)).2 = m ∨ (s.receive c chunk).handleLines parse c
          (splitLines (s.stdoutBuffer ++ chunk)).1 (splitLines (s.stdoutBuffer ++ chunk)).2 = m.failProtocol c := hcase
    unfold receive at heq
    rcases heq with heq | heq
    · rw [heq]
      exact hsame.change
    rw [heq]
    have hmc : Control m := h.same hsame
    exact .of_same hsame (failProtocol_change hmc (hsame.child.trans hc))
  · rw [if_neg hc]
    exact .refl s

theorem update_change (s : Bridge)
    (hf : ∀ x : Child, (x.closed → (f x).closed) ∧ (f x).givenUp = x.givenUp ∧ (f x).lost = x.lost ∧
      (f x).killed = x.killed) : Change s (s.update c f) := by
  have hages : Ages s (s.update c f) := by
    refine ages_update s c fun x => ?_
    obtain ⟨hclo, hgiv, hlost, -⟩ := hf x
    rw [hgiv, hlost]
    exact ⟨hclo, id, id⟩
  refine ⟨hages, .inl rfl, fun d _ hd => .inl ?_, fun _ _ h => .inl h, fun _ _ h => .inl h,
    fun _ h => .inl h, fun _ _ _ h => .inl h, (Change.refl s).joined, fun _ _ h => h⟩
  rw [get_update] at hd
  split at hd
  · rw [(hf _).2.2.2] at hd
    exact hd
  · exact hd

theorem lose_change (ha : Alive s) (h : Control s) (c : Nat)
    (hf : ∀ x : Child, (f x).closed = x.closed ∧ (f x).givenUp = x.givenUp ∧ (f x).lost = x.lost ∧
      (f x).killed = x.killed) : Change s ((s.update c f).lose c) := by
  have hupd : Change s (s.update c f) := by
    refine update_change s fun x => ?_
    obtain ⟨hclo, hrest⟩ := hf x
    exact ⟨fun hx => hclo.trans hx, hrest⟩
  have hages := hupd.ages
  unfold lose
  by_cases hc : s.child = some c
  · rw [if_pos (show (s.update c f).child = some c from hc), handleExit,
      if_pos (show ((s.update c f).update c _).child = some c from hc)]
    refine ⟨?_, ?_, ?_, fun _ _ h => .inl h, fun _ _ h => .inl h, fun _ h => .inl h, fun _ _ _ h => .inl h,
      ?_, fun _ _ h => h⟩
    · have hlost : Ages s ((s.update c f).update c fun x => { x with lost := true }) :=
        hages.trans (ages_update _ c fun _ => ⟨id, id, fun _ => rfl⟩)
      exact ⟨hlost.length, hlost.closed, hlost.givenUp, hlost.lost⟩
    · refine .inr ⟨rfl, fun d hd => ?_⟩
      cases hc.symm.trans hd
      refine .inl ?_
      show (((s.update c f).update c fun x => { x with lost := true }).get c).lost = true
      have hlt : c < (s.update c f).children.length := by
        rw [hages.length]
        exact (ha c hc).1
      rw [get_update, if_pos ⟨rfl, hlt⟩]
    · exact fun _ hd => by cases hd
    · exact fun j hj => absurd hj (h.not_joining hc j)
  · rw [if_neg (show ¬(s.update c f).child = some c from hc)]
    exact hupd

theorem startPromise_change (s : Bridge) {start : Option StartStage}
    (hj : ∀ j, start = some (.retiring j) → False) (hh : ∀ c id, start = some (.handshake c id) → False) :
    Change s { s with startPromise := start } :=
  ⟨.of_children rfl, .inl rfl, fun _ _ h => .inl h, fun _ _ h => .inl h, fun _ _ h => .inl h,
    fun _ h => .inl h, fun _ _ _ h => .inl h, fun j h => (hj j h).elim, fun c id h => (hh c id h).elim⟩

theorem startRetired_change (h : Control s) (hkeys : s.retiringChildren.keys ≠ []) : Change s s.startRetired := by
  rw [startRetired, if_pos hkeys]
  have hret : ∀ c, c ∈ s.retiringChildren.keys ↔ s.Retiring c := by
    intro c
    rw [Dict.mem_keys_iff, Retiring, isSome_iff_exists]
  have hnone : s.child = none := by
    obtain ⟨c, hc⟩ := List.exists_mem_of_ne_nil _ hkeys
    exact h.alone c ((hret c).mp hc)
  refine ⟨.of_children rfl, .inl rfl, fun _ _ h => .inl h, fun _ _ h => .inl h, fun _ _ h => .inl h,
    fun _ h => .inl h, fun _ _ _ h => .inl h, fun j hj => ?_, fun c id hd => by cases hd⟩
  cases hj
  exact .inr ⟨hnone, fun c hc => (hret c).mpr hc⟩

theorem launch_change (h : s.spawns = false) : Change s s.launch := by
  have hcond : (s.running || !s.available) = true := by
    simp only [spawns, Bool.and_eq_false_iff, Bool.not_eq_false'] at h
    simpa using h
  rw [launch, if_pos hcond]
  exact startPromise_change s (fun _ hj => by cases hj) fun _ _ hh => by cases hh

theorem finish_change (ha : Alive s) (hstop : ∀ d, s.Stopping d → d = c)
    (h : (if (s.get c).closed then some (s.finishStop c) else none) = some t) : Change s t := by
  by_cases hclo : (s.get c).closed
  · rw [if_pos hclo] at h
    cases h
    have hchi : ¬s.child = some c := by
      intro hc
      have hend := (ha c hc).2
      simp [Child.ended, hclo] at hend
    rw [finishStop, if_neg hchi]
    refine ⟨.of_children rfl, .inl rfl, fun _ _ h => .inl h, fun d _ hd => ?_, fun _ _ h => .inl h,
      fun _ h => .inl h, fun _ _ _ h => .inl h, (Change.refl s).joined, fun _ _ h => h⟩
    rw [hstop d hd]
    exact .inr (.inl hclo)
  · rw [if_neg hclo] at h
    cases h

theorem stopPromise_change (stop : Option StopStage) (hfree : ∀ c, ¬s.Stopping c) :
    Change s { s with stopPromise := stop } :=
  ⟨.of_children rfl, .inl rfl, fun _ _ h => .inl h, fun c _ h => absurd h (hfree c), fun _ _ h => .inl h,
    fun _ h => .inl h, fun _ _ _ h => .inl h, (Change.refl s).joined, fun _ _ h => h⟩

theorem not_stopping {stage : StopStage} (h : s.stopPromise = some stage)
    (hne : ∀ c, stage ≠ .terminate c ∧ stage ≠ .force c) (c : Nat) : ¬s.Stopping c := by
  intro hc
  rcases hc with hc | hc
  · exact (hne c).1 (some_injective _ (h.symm.trans hc))
  · exact (hne c).2 (some_injective _ (h.symm.trans hc))

theorem resumeStop_change (ha : Alive s) (h : s.resumeStop = some t) : Change s t := by
  unfold resumeStop at h
  rcases hstop : s.stopPromise with _ | j | ⟨c, id⟩ | c | c | c | failed
  all_goals rw [hstop] at h
  all_goals dsimp only at h
  · cases h
  · split at h
    · cases h
      exact stopPromise_change _ (not_stopping hstop fun c => ⟨by simp, by simp⟩)
    · cases h
  · split at h
    · cases h
    · cases h
      exact stopPromise_change _ (not_stopping hstop fun c => ⟨by simp, by simp⟩)
  · exact finish_change ha (fun d hd => absurd hd (not_stopping hstop (fun c => ⟨by simp, by simp⟩) d)) h
  · refine finish_change ha (fun d hd => ?_) h
    rcases hd with hd | hd <;> cases hstop.symm.trans hd
    rfl
  · refine finish_change ha (fun d hd => ?_) h
    rcases hd with hd | hd <;> cases hstop.symm.trans hd
    rfl
  · cases h

theorem kill_change {stage : StopStage} (hstop : ∀ d, s.Stopping d → d = c)
    (hstage : stage = .terminate c ∨ stage = .force c) :
    Change s { s.kill c with stopPromise := some stage } := by
  have hsto : ({ s.kill c with stopPromise := some stage } : Bridge).Stopping c :=
    hstage.imp (congrArg some) (congrArg some)
  obtain ⟨hsta, -, hret⟩ := kill_operations s c
  have hages := ages_kill s c
  refine ⟨⟨hages.length, hages.closed, hages.givenUp, hages.lost⟩, .inl (quiet_kill s c).child, ?_, ?_, ?_,
    ?_, ?_, ?_, ?_⟩
  · intro d _ hd
    rcases killed_kill hd with hk | rfl
    · exact .inl hk
    · exact .inr hsto
  · intro d _ hd
    rw [hstop d hd]
    exact .inl hsto
  · exact fun d _ hd => .inl (by rw [Retiring, hret]; exact hd)
  · exact fun d hd => .inl (by rw [Retiring, hret] at hd; exact hd)
  · exact fun d failed _ hd => .inl (hret ▸ hd)
  · intro j hj
    refine .inl ⟨j, hsta.symm.trans hj, fun hf => ⟨hf, fun d hd => ⟨?_, id⟩⟩⟩
    rw [Retiring, hret] at hd
    exact hd
  · exact fun d id hd => hsta.symm.trans hd

theorem givenUp_update (s : Bridge) (h : c < s.children.length) :
    ((s.update c fun x => { x with givenUp := true }).get c).givenUp := by
  rw [get_update, if_pos ⟨rfl, h⟩]

theorem killed_giveUp (h : ((s.update c fun x => { x with givenUp := true }).get d).killed) :
    (s.get d).killed := by
  rw [get_update] at h
  split at h
  · exact h
  · exact h

theorem giveUp_change (hstop : s.stopPromise = some (.force c)) :
    Change s { s.update c (fun x => { x with givenUp := true }) with stopPromise := some (.settled true) } := by
  have hages : Ages s (s.update c fun x => { x with givenUp := true }) :=
    ages_update s c fun _ => ⟨id, fun _ => rfl, id⟩
  refine ⟨⟨hages.length, hages.closed, hages.givenUp, hages.lost⟩, .inl rfl, ?_, ?_, fun _ _ h => .inl h,
    fun _ h => .inl h, fun _ _ _ h => .inl h, (Change.refl s).joined, fun _ _ h => h⟩
  · intro d _ hd
    exact .inl (killed_giveUp hd)
  intro d hlt hd
  have hdc : d = c := by
    rcases hd with hd | hd <;> cases hstop.symm.trans hd
    rfl
  rw [hdc]
  exact .inr (.inr (givenUp_update s (hdc ▸ hlt)))

theorem stop_change (s : Bridge) (immediate : Bool) : Change s (s.stop immediate) := by
  unfold stop
  by_cases hstop : s.stopPromise.isSome
  · rw [if_pos hstop]
    exact .refl s
  rw [if_neg hstop]
  have hnone : s.stopPromise = none := not_isSome_iff_eq_none.mp hstop
  have hfree : ∀ c, ¬s.Stopping c := by
    intro c hc
    rcases hc with hc | hc <;> cases hnone.symm.trans hc
  have hrej : Same s s.rejectPending := ⟨rfl, rfl, rfl, rfl, rfl⟩
  rcases s.child with _ | c
  · cases immediate with
    | false => exact stopPromise_change _ hfree
    | true => exact .of_same hrej (stopPromise_change _ hfree)
  cases immediate with
  | false =>
    have hsame := request_same s .shutdown .written
    exact .of_same hsame (stopPromise_change _ (by rw [hsame.stopping]; exact hfree))
  | true =>
    have hkill : Change s.rejectPending { s.rejectPending.kill c with stopPromise := some (.terminate c) } :=
      kill_change (fun d hd => absurd hd (hfree d)) (.inl rfl)
    exact .of_same hrej hkill

theorem expireStop_change (h : s.expireStop = some t) : Change s t := by
  unfold expireStop at h
  rcases hstop : s.stopPromise with _ | j | ⟨c, id⟩ | c | c | c | failed
  all_goals rw [hstop] at h
  all_goals dsimp only at h
  · cases h
  · cases h
  · cases h
  · split at h
    · cases h
    · cases h
      exact kill_change (fun d hd => absurd hd (not_stopping hstop (fun c => ⟨by simp, by simp⟩) d)) (.inl rfl)
  · split at h
    · cases h
    · cases h
      refine kill_change (fun d hd => ?_) (.inr rfl)
      rcases hd with hd | hd <;> cases hstop.symm.trans hd
      rfl
  · split at h
    · cases h
    · cases h
      exact giveUp_change hstop
  · cases h

theorem clearStop_change (h : s.clearStop = some t) : Change s t := by
  unfold clearStop at h
  rcases hstop : s.stopPromise with _ | j | ⟨c, id⟩ | c | c | c | failed
  all_goals rw [hstop] at h
  all_goals cases h
  refine ⟨.of_children rfl, .inl rfl, fun _ _ h => .inl h,
    fun c _ h => absurd h (not_stopping hstop (fun c => ⟨by simp, by simp⟩) c), fun _ _ h => .inl h,
    fun _ h => .inl h, fun _ _ _ h => .inl h, ?_, ?_⟩
  · intro j hj
    obtain ⟨stage, hsta, hstage⟩ := map_eq_some_iff.mp hj
    rcases stage with ⟨_ | ended⟩ | i | ⟨c, id⟩ | ⟨_ | ended⟩ | i | _
    all_goals cases hstage
    exact .inl ⟨_, hsta, fun hf => ⟨hf, fun _ hr => ⟨hr, id⟩⟩⟩
  intro c id hd
  obtain ⟨stage, hsta, hstage⟩ := map_eq_some_iff.mp hd
  rcases stage with ⟨_ | ended⟩ | i | ⟨c, id⟩ | ⟨_ | ended⟩ | i | _
  all_goals cases hstage
  exact hsta

theorem retirement_change {stage : RetireStage} (h : Control s) (hages : Ages s t)
    (hc : s.Retiring c) (hchi : t.child = s.child) (hsta : t.startPromise = s.startPromise)
    (hstop : t.stopPromise = s.stopPromise) (hret : t.retiringChildren = s.retiringChildren.set c stage)
    (hdone : ∀ failed, c < s.children.length → stage = .settled failed → (t.get c).done failed) : Change s t := by
  have hsame : ∀ d, t.Retiring d ↔ s.Retiring d := by
    intro d
    rw [Retiring, Retiring, hret, Dict.get?_set]
    by_cases hd : d = c
    · subst hd
      rw [if_pos rfl]
      exact iff_of_true rfl hc
    · rw [if_neg hd]
  refine ⟨hages, .inl hchi, ?_, ?_, ?_, ?_, ?_, ?_, ?_⟩
  · intro d hd
    cases (h.alone c hc).symm.trans (hchi.symm.trans hd)
  · exact fun d _ hd => .inl (by rw [Stopping, hstop]; exact hd)
  · exact fun d _ hd => .inl ((hsame d).mpr hd)
  · exact fun d hd => .inl ((hsame d).mp hd)
  · intro d failed hlt hd
    rw [hret, Dict.get?_set] at hd
    by_cases hdc : d = c
    · subst hdc
      rw [if_pos rfl, Option.some.injEq] at hd
      exact .inr (hdone failed hlt hd)
    · rw [if_neg hdc] at hd
      exact .inl hd
  · intro j hj
    exact .inl ⟨j, hsta.symm.trans hj, fun hf => ⟨hf, fun d hd => ⟨(hsame d).mp hd, id⟩⟩⟩
  · exact fun d id hd => hsta.symm.trans hd

theorem resumeRetire_change (hs : Control s) (h : s.resumeRetire c = some t) : Change s t := by
  unfold resumeRetire at h
  rcases hstage : s.retiringChildren.get? c with _ | _ | _ | failed
  all_goals rw [hstage] at h
  all_goals dsimp only at h
  · cases h
  · by_cases hclo : (s.get c).closed
    · rw [if_pos hclo] at h
      cases h
      refine retirement_change hs (.of_children rfl) ?_ rfl rfl rfl rfl fun failed _ hf => ?_
      · rw [Retiring, hstage]
        rfl
      · cases hf
        exact hclo
    · rw [if_neg hclo] at h
      cases h
  · by_cases hclo : (s.get c).closed
    · rw [if_pos hclo] at h
      cases h
      refine retirement_change hs (.of_children rfl) ?_ rfl rfl rfl rfl fun failed _ hf => ?_
      · rw [Retiring, hstage]
        rfl
      · cases hf
        exact hclo
    · rw [if_neg hclo] at h
      cases h
  · cases h

theorem expireRetire_change (hs : Control s) (h : s.expireRetire c = some t) : Change s t := by
  unfold expireRetire at h
  rcases hstage : s.retiringChildren.get? c with _ | _ | _ | failed
  all_goals rw [hstage] at h
  all_goals dsimp only at h
  · cases h
  · split at h
    · cases h
    · cases h
      have hages := ages_kill s c
      have hret : s.Retiring c := by
        rw [Retiring, hstage]
        rfl
      obtain ⟨hsta, hstop, -⟩ := kill_operations s c
      refine retirement_change hs ?_ hret (quiet_kill s c).child hsta hstop rfl fun _ _ hf => ?_
      · exact ⟨hages.length, hages.closed, hages.givenUp, hages.lost⟩
      · cases hf
  · split at h
    · cases h
    · cases h
      have hages : Ages s (s.update c fun x => { x with givenUp := true }) :=
        ages_update s c fun _ => ⟨id, fun _ => rfl, id⟩
      have hret : s.Retiring c := by
        rw [Retiring, hstage]
        rfl
      refine retirement_change hs ?_ hret rfl rfl rfl rfl fun failed hlt hf => ?_
      · exact ⟨hages.length, hages.closed, hages.givenUp, hages.lost⟩
      · cases hf
        exact givenUp_update s hlt
  · cases h

theorem mem_leave {j : Join} (h : d ∈ j.waiting) (hne : d ≠ c) :
    d ∈ (Bridge.Join.leave j c failed).waiting := by
  unfold Join.leave
  split
  · simpa [hne] using h
  · exact h

theorem failed_leave {j : Join} (h : (Bridge.Join.leave j c failed).failed = false) :
    j.failed = false := by
  unfold Join.leave at h
  split at h
  · exact (Bool.or_eq_false_iff.mp h).1
  · exact h

theorem clearRetire_change (hs : Control s) (h : s.clearRetire c = some t) : Change s t := by
  unfold clearRetire at h
  rcases hstage : s.retiringChildren.get? c with _ | _ | _ | failed
  all_goals rw [hstage] at h
  all_goals cases h
  have hret : ∀ d, ((s.retiringChildren.erase c).get? d).isSome → d ≠ c ∧ s.Retiring d := by
    intro d hd
    by_cases hdc : d = c
    · rw [hdc, Dict.get?_erase_self] at hd
      cases hd
    · rw [Dict.get?_erase_of_ne _ hdc] at hd
      exact ⟨hdc, hd⟩
  refine ⟨.of_children rfl, .inl rfl, fun _ _ h => .inl h, ?_, ?_, fun d hd => .inl (hret d hd).2, ?_, ?_, ?_⟩
  · intro d _ hd
    refine .inl ?_
    rcases hd with hd | hd
    · exact .inl (by rw [hd]; rfl)
    · exact .inr (by rw [hd]; rfl)
  · intro d hlt hd
    by_cases hdc : d = c
    · subst hdc
      have hdone := hs.retired d failed hlt hstage
      cases failed with
      | false => exact .inr (.inl hdone)
      | true => exact .inr (.inr hdone)
    refine .inl ?_
    rw [Retiring, Dict.get?_erase_of_ne _ hdc]
    exact hd
  · intro d ended _ hd
    by_cases hdc : d = c
    · rw [hdc, Dict.get?_erase_self] at hd
      cases hd
    · rw [Dict.get?_erase_of_ne _ hdc] at hd
      exact .inl hd
  · intro j hj
    obtain ⟨stage, hsta, hstage⟩ := map_eq_some_iff.mp hj
    rcases stage with ⟨_ | ended⟩ | i | ⟨d, id⟩ | ⟨_ | ended⟩ | i | _
    all_goals cases hstage
    refine .inl ⟨i, hsta, fun hf => ⟨failed_leave hf, fun d hd => ?_⟩⟩
    obtain ⟨hdc, hr⟩ := hret d hd
    exact ⟨hr, fun hin => mem_leave hin hdc⟩
  · intro d id hd
    obtain ⟨stage, hsta, hstage⟩ := map_eq_some_iff.mp hd
    rcases stage with ⟨_ | ended⟩ | i | ⟨e, n⟩ | ⟨_ | ended⟩ | i | _
    all_goals cases hstage
    exact hsta

theorem Change.with_start (k : Change s t) {start : Option StartStage}
    (hj : ∀ j, start ≠ some (.retiring j)) (hh : ∀ c id, start ≠ some (.handshake c id)) :
    Change s { t with startPromise := start } :=
  ⟨⟨k.ages.length, k.ages.closed, k.ages.givenUp, k.ages.lost⟩, k.child, k.killed, k.stopping, k.retires, k.alone,
    k.retired, fun j h => absurd h (hj j), fun c id h => absurd h (hh c id)⟩

theorem startRetired_cases_change (h : Control s)
    (hl : s.retiringChildren.keys = [] → s.spawns = false) : Change s s.startRetired := by
  by_cases hkeys : s.retiringChildren.keys = []
  · rw [startRetired, if_neg fun hn => hn hkeys]
    exact launch_change (hl hkeys)
  · exact startRetired_change h hkeys

theorem start_change (h : Control s) (hl : s.launches .start = false) : Change s s.start := by
  unfold start
  by_cases hsta : s.startPromise.isSome
  · rw [if_pos hsta]
    exact .refl s
  rw [if_neg hsta]
  by_cases hstop : s.stopPromise.isSome
  · rw [if_pos hstop]
    exact startPromise_change s (fun _ hj => by cases hj) fun _ _ hh => by cases hh
  rw [if_neg hstop]
  rw [not_isSome_iff_eq_none] at hsta hstop
  refine startRetired_cases_change h fun hkeys => ?_
  simpa [launches, hsta, hstop, hkeys] using hl

theorem resumeStart_change (hs : Control s) (h : s.resumeStart = some t)
    (hl : s.launches .startResumes = false) : Change s t := by
  have hset : Change s { s with startPromise := some .settled } :=
    startPromise_change s (fun _ hj => by cases hj) fun _ _ hh => by cases hh
  unfold resumeStart at h
  rcases hsta : s.startPromise with _ | ⟨_ | _ | failed⟩ | j | ⟨c, id⟩ | ⟨_ | failed⟩ | j | _
  all_goals rw [hsta] at h
  all_goals dsimp only at h
  · cases h
  · cases h
  · cases h
    refine startRetired_cases_change hs fun hkeys => ?_
    simpa [launches, hsta, hkeys] using hl
  · cases h
    exact hset
  · cases hfai : j.failed with
    | true =>
      rw [hfai] at h
      cases h
      exact hset
    | false =>
      rw [hfai, if_neg Bool.false_ne_true] at h
      by_cases hwai : j.waiting = []
      · rw [if_pos hwai] at h
        cases h
        exact launch_change (by simpa [launches, hsta, hfai, hwai] using hl)
      · rw [if_neg hwai] at h
        cases h
  · split at h
    · cases h
    split at h
    · cases h
      exact hset
    by_cases hchi : s.child = some c
    · rw [if_pos hchi] at h
      cases h
      exact (stop_change s true).with_start (fun _ hj => by cases hj) fun _ _ hh => by cases hh
    rw [if_neg hchi] at h
    cases h
    -- the process of the handshake is gone, and no other has been spawned since
    have hnone : s.child = none := (hs.handshake c id hsta).resolve_right hchi
    have hkeep := (quiet_retireChild s c).child.trans hnone
    exact Change.retire rfl rfl (startPromise_retireChild s c).2 hkeep (.inl hnone)
      (fun _ hj => by cases hj) fun _ _ hh => by cases hh
  · cases h
  · cases h
    exact hset
  · split at h
    · cases h
      exact hset
    · cases h
  · cases h

theorem next_change {e : Event} (ha : Alive s) (hs : Control s) (h : s.next parse e = some t)
    (hl : s.launches e = false) : Change s t := by
  cases e with
  | start =>
    cases h
    exact start_change hs hl
  | stop immediate =>
    cases h
    exact stop_change s immediate
  | requests kind numbered dispatch =>
    simp only [next] at h
    split at h
    · cases h
      cases numbered with
      | false => exact (request_same s kind dispatch).change
      | true =>
        have hsame : Same s { s with requestSequence := s.requestSequence + 1 } := ⟨rfl, rfl, rfl, rfl, rfl⟩
        exact (hsame.trans (request_same _ kind dispatch)).change
    · cases h
  | expires id =>
    simp only [next] at h
    split at h
    · cases h
      exact (expire_same s id).change
    · cases h
  | writeFails id =>
    cases h
    unfold writeFails
    split
    · exact Same.change ⟨rfl, rfl, rfl, rfl, rfl⟩
    · exact .refl s
  | stdout c chunk =>
    cases h
    exact handleStdout_change hs c chunk
  | stdinError c =>
    cases h
    by_cases hchi : s.child = some c
    · rw [if_pos hchi]
      exact drop_change hs hchi
    · rw [if_neg hchi]
      exact .refl s
  | error c | exit c =>
    cases h
    exact lose_change ha hs c fun _ => ⟨rfl, rfl, rfl, rfl⟩
  | gone c =>
    cases h
    exact update_change s fun _ => ⟨id, rfl, rfl, rfl⟩
  | close c =>
    simp only [next] at h
    split at h
    · cases h
      exact update_change s fun _ => ⟨fun _ => rfl, rfl, rfl, rfl⟩
    · cases h
  | startResumes => exact resumeStart_change hs h hl
  | startClears =>
    simp only [next] at h
    split at h
    · cases h
      exact startPromise_change s (fun _ hj => by cases hj) fun _ _ hh => by cases hh
    · cases h
  | stopResumes => exact resumeStop_change ha h
  | stopExpires => exact expireStop_change h
  | stopClears => exact clearStop_change h
  | retireResumes c => exact resumeRetire_change hs h
  | retireExpires c => exact expireRetire_change hs h
  | retireClears c => exact clearRetire_change hs h

theorem get_spawn_new (s : Bridge) : s.spawn.get s.children.length = {} := by
  simp [Bridge.get, Bridge.spawn]

theorem get_spawn_old (s : Bridge) (h : c < s.children.length) : s.spawn.get c = s.get c := by
  simp [Bridge.get, Bridge.spawn, List.getElem?_append_left h]

theorem launch_eq (h : s.spawns = true) : s.launch = { s.spawn with
    requestSequence := s.requestSequence + 1
    issued := s.issued ++ [s.requestSequence + 1]
    pending := s.pending.set (s.requestSequence + 1) ⟨s.children.length, .handshake⟩
    written := s.written ++ [(s.children.length, s.requestSequence + 1, .handshake)]
    startPromise := some (.handshake s.children.length (s.requestSequence + 1)) } := by
  have hcond : ¬(s.running || !s.available) = true := by
    simp only [spawns, Bool.and_eq_true, Bool.not_eq_true'] at h
    simp [h.1, h.2]
  have hnew := get_spawn_new s
  have hreq : s.spawn.request .handshake .written = ({ s.spawn with
      requestSequence := s.requestSequence + 1
      issued := s.issued ++ [s.requestSequence + 1]
      pending := s.pending.set (s.requestSequence + 1) ⟨s.children.length, .handshake⟩
      written := s.written ++ [(s.children.length, s.requestSequence + 1, .handshake)] },
      some (s.requestSequence + 1)) := by
    have hchi : s.spawn.child = some s.children.length := rfl
    rw [request, hchi]
    dsimp only
    rw [hnew]
    rfl
  rw [launch, if_neg hcond, hreq]

end OpenAgent.Desktop.Host
