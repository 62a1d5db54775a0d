import OpenAgent.HostTools.LocalClient

namespace OpenAgent.HostTools.LocalClient

open Py List Option Client

def Effect.settles (id : RequestId) : Effect → Bool
  | .settled i _ _ => i == id
  | .raised _ _ => false

def Rightly (r : Registration) : Cause → Settlement → Prop
  | .reply t, _ => t = r.transport
  | .loss t, s => t = r.transport ∧ s = .disconnected r.mutating
  | .close, s => s = .disconnected r.mutating

structure Sound (c : Client) : Prop where
  fresh : ∀ id, c.nextId < id → c.registered id = none ∧ id ∉ c.pending ∧ id ∉ c.indeterminate
  traced : ∀ e ∈ c.trace, ∀ id, (∃ cause s, e = .settled id cause s) ∨ (∃ ind, e = .raised id ind) → id ≤ c.nextId
  once : ∀ id, (c.trace.filter (fun e => e.settles id)).length ≤ 1
  unsettled : ∀ id, c.future id = none → c.trace.filter (fun e => e.settles id) = []
  rightly : ∀ id r, c.registered id = some r → ∀ cause s, .settled id cause s ∈ c.trace → Rightly r cause s
  raised : ∀ id r, c.registered id = some r → ∀ ind, .raised id ind ∈ c.trace → ind = r.mutating
  carried : ∀ id t, c.pendingTransport.get? id = some t → ∃ mutating, c.registered id = some ⟨t, mutating⟩
  flagged : ∀ id r, c.registered id = some r → r.mutating = true → id ∈ c.pending → id ∈ c.indeterminate
  unflagged : ∀ id r, c.registered id = some r → id ∈ c.indeterminate → r.mutating = true

structure Alike (c c' : Client) : Prop where
  nextId : c'.nextId = c.nextId
  pending : c'.pending = c.pending
  pendingTransport : c'.pendingTransport = c.pendingTransport
  indeterminate : c'.indeterminate = c.indeterminate
  registered : c'.registered = c.registered
  task : c'.task = c.task

theorem Alike.refl (c : Client) : Alike c c := ⟨rfl, rfl, rfl, rfl, rfl, rfl⟩

theorem Alike.trans {c c' c'' : Client} (h : Alike c c') (k : Alike c' c'') : Alike c c'' :=
  ⟨k.nextId.trans h.nextId, k.pending.trans h.pending, k.pendingTransport.trans h.pendingTransport,
    k.indeterminate.trans h.indeterminate, k.registered.trans h.registered, k.task.trans h.task⟩

namespace Client

theorem alike_settle (c : Client) (id : RequestId) (cause : Cause) (s : Settlement) :
    Alike c (c.settle id cause s) := by
  rw [settle]
  split
  · exact ⟨rfl, rfl, rfl, rfl, rfl, rfl⟩
  · exact Alike.refl c

end Client

namespace Sound

variable {c : Client}

variable {id : RequestId}

theorem settle (h : Sound c) {cause : Cause} {s : Settlement}
    (hs : ∀ r, c.registered id = some r → id ∈ c.pending → Rightly r cause s) : Sound (c.settle id cause s) := by
  rw [Client.settle]
  split
  · rename_i hcond
    rw [Bool.and_eq_true, contains_iff_mem, isNone_iff_eq_none] at hcond
    obtain ⟨hmem, hnone⟩ := hcond
    have hbou : id ≤ c.nextId := by
      by_contra hgt
      exact (h.fresh id (Nat.lt_of_not_le hgt)).2.1 hmem
    refine ⟨h.fresh, ?_, ?_, ?_, ?_, ?_, h.carried, h.flagged, h.unflagged⟩
    · intro e he i hi
      rcases mem_append.mp he with he | he
      · exact h.traced e he i hi
      rw [mem_singleton.mp he] at hi
      rcases hi with ⟨_, _, hi⟩ | ⟨_, hi⟩
      · cases hi
        exact hbou
      · cases hi
    · intro i
      rw [filter_append]
      by_cases hi : i = id
      · subst hi
        rw [h.unsettled i hnone]
        exact length_filter_le _ _
      have hoth : ([.settled id cause s] : List Effect).filter (fun e => e.settles i) = [] := by
        simp [Effect.settles, Ne.symm hi]
      rw [hoth, append_nil]
      exact h.once i
    · intro i hi
      dsimp only at hi ⊢
      have hne : i ≠ id := by
        rintro rfl
        rw [Function.update_self] at hi
        cases hi
      rw [Function.update_of_ne hne] at hi
      have hoth : ([.settled id cause s] : List Effect).filter (fun e => e.settles i) = [] := by
        simp [Effect.settles, Ne.symm hne]
      rw [filter_append, hoth, append_nil]
      exact h.unsettled i hi
    · intro i r hr cause' s' hmem'
      rcases mem_append.mp hmem' with hold | hnew
      · exact h.rightly i r hr cause' s' hold
      · cases mem_singleton.mp hnew
        exact hs r hr hmem
    · intro i r hr ind hmem'
      rcases mem_append.mp hmem' with hold | hnew
      · exact h.raised i r hr ind hold
      · cases mem_singleton.mp hnew
  · exact h

theorem disconnectError (h : Sound c) {r : Registration} (hr : c.registered id = some r)
    (hmem : id ∈ c.pending) : c.disconnectError id = .disconnected r.mutating := by
  rw [Client.disconnectError]
  congr 1
  cases hm : r.mutating with
  | true =>
    rw [contains_iff_mem]
    exact h.flagged id r hr hm hmem
  | false =>
    by_contra hno
    rw [Bool.not_eq_false, contains_iff_mem] at hno
    have hmut := h.unflagged id r hr hno
    rw [hm] at hmut
    cases hmut

theorem settleAll (h : Sound c) (cause : Cause) (ids : List RequestId)
    (hcau : ∀ id ∈ ids, ∀ r, c.registered id = some r → Rightly r cause (.disconnected r.mutating)) :
    Sound (ids.foldl (fun c id => c.settle id cause (c.disconnectError id)) c) ∧
      Alike c (ids.foldl (fun c id => c.settle id cause (c.disconnectError id)) c) := by
  induction ids generalizing c with
  | nil => exact ⟨h, Alike.refl c⟩
  | cons id ids ih =>
    have hstep : Sound (c.settle id cause (c.disconnectError id)) := by
      refine h.settle ?_
      intro r hr hmem
      rw [h.disconnectError hr hmem]
      exact hcau id mem_cons_self r hr
    have hali := c.alike_settle id cause (c.disconnectError id)
    obtain ⟨hs, ha⟩ := ih hstep (by
      intro i hi r hr
      rw [hali.registered] at hr
      exact hcau i (mem_cons_of_mem _ hi) r hr)
    exact ⟨hs, hali.trans ha⟩

theorem settleLoss (h : Sound c) (t : TransportId) : Sound (c.settleLoss t) ∧ Alike c (c.settleLoss t) := by
  refine h.settleAll (.loss t) _ ?_
  intro id hid r hr
  obtain ⟨u, hu⟩ := (Dict.mem_keys_iff _ id).mp hid
  rw [Dict.get?_filter, filter_eq_some_iff] at hu
  obtain ⟨hget, hut⟩ := hu
  obtain ⟨mutating, hreg⟩ := h.carried id u hget
  rw [hreg] at hr
  cases hr
  exact ⟨(of_decide_eq_true hut).symm, rfl⟩

theorem settleClose (h : Sound c) : Sound c.settleClose := by
  obtain ⟨hs, -⟩ := h.settleAll .close c.pending (fun _ _ _ _ => rfl)
  refine ⟨?_, hs.traced, hs.once, hs.unsettled, hs.rightly, hs.raised, nofun, nofun, nofun⟩
  intro id hid
  exact ⟨(hs.fresh id hid).1, not_mem_nil, not_mem_nil⟩

theorem forget (h : Sound c) (id : RequestId) : Sound (c.forget id) := by
  refine ⟨?_, h.traced, h.once, h.unsettled, h.rightly, h.raised, ?_, ?_, ?_⟩
  · intro i hi
    obtain ⟨hr, hp, hd⟩ := h.fresh i hi
    exact ⟨hr, fun hm => hp (mem_of_mem_filter hm), fun hm => hd (mem_of_mem_filter hm)⟩
  · intro i t hi
    rw [Client.forget, Dict.get?_erase] at hi
    split at hi
    · cases hi
    · exact h.carried i t hi
  · intro i r hr hm hi
    rw [Client.forget, mem_filter] at hi
    exact mem_filter.mpr ⟨h.flagged i r hr hm hi.1, hi.2⟩
  · intro i r hr hi
    exact h.unflagged i r hr (mem_of_mem_filter hi)

theorem raises (h : Sound c) (hid : id ≤ c.nextId)
    (htold : ∀ r, c.registered id = some r → r.mutating = true → id ∈ c.pending) :
    Sound { c with trace := c.trace ++ [.raised id (c.indeterminate.contains id)] } := by
  have hqui : ∀ i, (c.trace ++ [Effect.raised id (c.indeterminate.contains id)]).filter (fun e => e.settles i) =
      c.trace.filter (fun e => e.settles i) := by
    intro i
    rw [filter_append]
    exact append_nil _
  refine ⟨h.fresh, ?_, ?_, ?_, ?_, ?_, h.carried, h.flagged, h.unflagged⟩
  · intro e he i hi
    rcases mem_append.mp he with he | he
    · exact h.traced e he i hi
    rw [mem_singleton.mp he] at hi
    rcases hi with ⟨_, _, hi⟩ | ⟨_, hi⟩
    · cases hi
    · cases hi
      exact hid
  · intro i
    rw [hqui]
    exact h.once i
  · intro i hi
    rw [hqui]
    exact h.unsettled i hi
  · intro i r hr cause s hmem
    rcases mem_append.mp hmem with hold | hnew
    · exact h.rightly i r hr cause s hold
    · cases mem_singleton.mp hnew
  · intro i r hr ind hmem
    rcases mem_append.mp hmem with hold | hnew
    · exact h.raised i r hr ind hold
    cases mem_singleton.mp hnew
    cases hm : r.mutating with
    | true =>
      rw [contains_iff_mem]
      exact h.flagged id r hr hm (htold r hr hm)
    | false =>
      by_contra hno
      rw [Bool.not_eq_false, contains_iff_mem] at hno
      have hmut := h.unflagged id r hr hno
      rw [hm] at hmut
      cases hmut

theorem issues (h : Sound c) (mutating : Bool) : Sound { c with
    nextId := c.nextId + 1
    pending := c.pending ++ [c.nextId + 1]
    indeterminate := if mutating then c.indeterminate ++ [c.nextId + 1] else c.indeterminate } := by
  have hnew := h.fresh (c.nextId + 1) (Nat.lt_succ_self _)
  have hold : ∀ id r, c.registered id = some r → id ≠ c.nextId + 1 := by
    rintro id r hr rfl
    rw [hnew.1] at hr
    cases hr
  refine ⟨?_, ?_, h.once, h.unsettled, h.rightly, h.raised, h.carried, ?_, ?_⟩
  · intro id hid
    have hlt : c.nextId + 1 < id := hid
    obtain ⟨hr, hp, hi⟩ := h.fresh id (Nat.lt_of_succ_lt hlt)
    refine ⟨hr, ?_, ?_⟩
    · intro hmem
      rcases mem_append.mp hmem with hmem | hmem
      · exact hp hmem
      · exact Nat.ne_of_gt hlt (mem_singleton.mp hmem)
    dsimp only
    split
    · intro hmem
      rcases mem_append.mp hmem with hmem | hmem
      · exact hi hmem
      · exact Nat.ne_of_gt hlt (mem_singleton.mp hmem)
    · exact hi
  · intro e he id hid
    exact Nat.le_succ_of_le (h.traced e he id hid)
  · intro id r hr hm hmem
    have hmem' : id ∈ c.indeterminate := by
      rcases mem_append.mp hmem with hmem | hmem
      · exact h.flagged id r hr hm hmem
      · exact absurd (mem_singleton.mp hmem) (hold id r hr)
    split
    · exact mem_append_left _ hmem'
    · exact hmem'
  · intro id r hr hmem
    refine h.unflagged id r hr ?_
    split at hmem
    · rcases mem_append.mp hmem with hmem | hmem
      · exact hmem
      · exact absurd (mem_singleton.mp hmem) (hold id r hr)
    · exact hmem

theorem registers (h : Sound c) {t : TransportId} {mutating : Bool}
    (hqui : ∀ e ∈ c.trace, ∀ id, (∃ cause s, e = .settled id cause s) ∨ (∃ ind, e = .raised id ind) → id < c.nextId)
    (hflag : c.nextId ∈ c.indeterminate ↔ mutating = true) : Sound { c with
      pendingTransport := c.pendingTransport.set c.nextId t
      registered := Function.update c.registered c.nextId (some ⟨t, mutating⟩) } := by
  refine ⟨?_, h.traced, h.once, h.unsettled, ?_, ?_, ?_, ?_, ?_⟩
  · intro id hid
    have hne : id ≠ c.nextId := Nat.ne_of_gt hid
    dsimp only
    rw [Function.update_of_ne hne]
    exact h.fresh id hid
  · intro id r hr cause s hmem
    have hne : id ≠ c.nextId := Nat.ne_of_lt (hqui _ hmem id (.inl ⟨cause, s, rfl⟩))
    dsimp only at hr
    rw [Function.update_of_ne hne] at hr
    exact h.rightly id r hr cause s hmem
  · intro id r hr ind hmem
    have hne : id ≠ c.nextId := Nat.ne_of_lt (hqui _ hmem id (.inr ⟨ind, rfl⟩))
    dsimp only at hr
    rw [Function.update_of_ne hne] at hr
    exact h.raised id r hr ind hmem
  · intro id u hu
    dsimp only at hu ⊢
    rw [Dict.get?_set] at hu
    split at hu
    · rename_i hid
      cases hu
      exact ⟨mutating, by rw [hid, Function.update_self]⟩
    rename_i hid
    rw [Function.update_of_ne hid]
    exact h.carried id u hu
  · intro id r hr hm hmem
    dsimp only at hr
    by_cases hid : id = c.nextId
    · subst hid
      rw [Function.update_self] at hr
      cases hr
      exact hflag.mpr hm
    · rw [Function.update_of_ne hid] at hr
      exact h.flagged id r hr hm hmem
  · intro id r hr hmem
    dsimp only at hr
    by_cases hid : id = c.nextId
    · subst hid
      rw [Function.update_self] at hr
      cases hr
      exact hflag.mp hmem
    · rw [Function.update_of_ne hid] at hr
      exact h.unflagged id r hr hmem

end Sound

def Frame.request : Frame → Option RequestId
  | .sending id _ => some id
  | .lostLocks _ (.send id) => some id
  | .lostCloses _ (.send id) => some id
  | .notifying _ (.send id) => some id
  | _ => none

def Framed (n : RequestId) (stack : List Frame) : Prop := ∀ f ∈ stack, ∀ id, f.request = some id → id ≤ n

variable {stack : List Frame}

theorem Framed.mono {n m : RequestId} (h : Framed n stack) (hnm : n ≤ m) : Framed m stack :=
  fun f hf id hid => (h f hf id hid).trans hnm

theorem Framed.tail {n : RequestId} {f : Frame} {rest : List Frame} (h : Framed n (f :: rest)) : Framed n rest :=
  fun g hg => h g (mem_cons_of_mem _ hg)

theorem Framed.cons {n : RequestId} {f : Frame} {rest : List Frame} (hf : ∀ id, f.request = some id → id ≤ n)
    (h : Framed n rest) : Framed n (f :: rest) := by
  intro g hg
  rcases mem_cons.mp hg with rfl | hg
  · exact hf
  · exact h g hg

/-- The disconnect error of the request will tell whether its call was mutating: close has not emptied the
tables since it was registered. -/
def Told (c : Client) (id : RequestId) : Prop :=
  ∀ r, c.registered id = some r → r.mutating = true → id ∈ c.pending

structure Orderly (c : Client) : Prop where
  sound : Sound c
  framed : ∀ t stack, c.task t = some stack → Framed c.nextId stack

def Running (r : Client × List Frame) : Prop := Orderly r.1 ∧ Framed r.1.nextId r.2

namespace Orderly

variable {c c' : Client}

theorem rest (h : Orderly c) (hali : Alike c c') (hfut : ∀ id, c'.future id = none → c.future id = none)
    (htra : c'.trace = c.trace) : Orderly c' := by
  obtain ⟨hn, hp, ht, hi, hr, htask⟩ := hali
  constructor
  · constructor
    · rw [hn, hr, hp, hi]
      exact h.sound.fresh
    · rw [hn, htra]
      exact h.sound.traced
    · rw [htra]
      exact h.sound.once
    · intro id hid
      rw [htra]
      exact h.sound.unsettled id (hfut id hid)
    · rw [hr, htra]
      exact h.sound.rightly
    · rw [hr, htra]
      exact h.sound.raised
    · rw [ht, hr]
      exact h.sound.carried
    · rw [hr, hp, hi]
      exact h.sound.flagged
    · rw [hr, hi]
      exact h.sound.unflagged
  · rw [hn, htask]
    exact h.framed

theorem setTask (h : Orderly c) (t : Task) (hs : Framed c.nextId stack) : Orderly (c.setTask t stack) := by
  have hsou : Sound (c.setTask t stack) := by
    obtain ⟨h1, h2, h3, h4, h5, h6, h7, h8, h9⟩ := h.sound
    exact ⟨h1, h2, h3, h4, h5, h6, h7, h8, h9⟩
  refine ⟨hsou, ?_⟩
  intro u stack' hu
  by_cases ht : u = t
  · subst ht
    rw [Client.setTask] at hu
    dsimp only at hu
    rw [Function.update_self] at hu
    cases hu
    exact hs
  rw [Client.setTask] at hu
  dsimp only at hu
  rw [Function.update_of_ne ht] at hu
  exact h.framed u stack' hu

theorem place {r : Client × List Frame} (h : Running r) (t : Task) : Orderly (Client.place t r) :=
  h.1.setTask t h.2

variable (h : Orderly c)

include h

theorem forget (id : RequestId) : Orderly (c.forget id) := ⟨h.sound.forget id, h.framed⟩

theorem settleLoss (t : TransportId) : Orderly (c.settleLoss t) ∧ Alike c (c.settleLoss t) := by
  obtain ⟨hs, ha⟩ := h.sound.settleLoss t
  refine ⟨⟨hs, ?_⟩, ha⟩
  rw [ha.task, ha.nextId]
  exact h.framed

theorem settleClose : Orderly c.settleClose ∧ c.settleClose.nextId = c.nextId := by
  obtain ⟨-, ha⟩ := h.sound.settleAll .close c.pending (fun _ _ _ _ => rfl)
  have hnext : c.settleClose.nextId = c.nextId := ha.nextId
  refine ⟨⟨h.sound.settleClose, ?_⟩, hnext⟩
  have htask : c.settleClose.task = c.task := ha.task
  rw [htask, hnext]
  exact h.framed

theorem register (mutating : Bool) : Orderly (c.register mutating).1 ∧ c.nextId ≤ (c.register mutating).1.nextId ∧
      ∀ f, (c.register mutating).2 = some f → ∀ id, f.request = some id → id ≤ (c.register mutating).1.nextId := by
  have hiss := h.sound.issues mutating
  have hfra : ∀ t stack, c.task t = some stack → Framed (c.nextId + 1) stack :=
    fun t stack ht => (h.framed t stack ht).mono (Nat.le_succ _)
  have hfre := h.sound.fresh (c.nextId + 1) (Nat.lt_succ_self _)
  rw [Client.register]
  split
  · rename_i t ht
    refine ⟨⟨hiss.registers ?_ ?_, hfra⟩, Nat.le_succ _, ?_⟩
    · intro e he id hid
      exact Nat.lt_succ_of_le (h.sound.traced e he id hid)
    · cases mutating with
      | true => exact iff_of_true (mem_append_right _ (mem_singleton_self _)) rfl
      | false => exact iff_of_false hfre.2.2 (by nofun)
    intro f hf id hid
    cases hf
    cases hid
    exact Nat.le_refl _
  · exact ⟨⟨hiss, hfra⟩, Nat.le_succ _, nofun⟩

theorem resume (ok : Bool) (hs : Framed c.nextId stack) : Running (c.resume ok stack) := by
  induction stack generalizing c ok with
  | nil => exact ⟨h, hs⟩
  | cons f rest ih =>
    cases f with
    | requestStarts mutating =>
      rw [resume]
      split
      · obtain ⟨hr, hn, hf⟩ := h.register mutating
        split
        · rename_i c' f heq
          rw [heq] at hr hn hf
          exact ⟨hr, (hs.tail.mono hn).cons (hf f rfl)⟩
        rename_i c' heq
        rw [heq] at hr hn
        exact ih hr false (hs.tail.mono hn)
      · exact ih h false hs.tail
    | initializing t =>
      rw [resume]
      split
      · exact ih h true hs.tail
      · exact ⟨h, hs.tail.cons nofun⟩
    | shuttingDown t listener => exact ⟨h, hs.tail.cons nofun⟩
    | sending _ _ | waiting _ | startLocks | connecting _ | closingStale _ | lostLocks _ _ | lostCloses _ _
    | notifying _ _ | listening _ | sinking _ | closeLocks _ _ | gathering _ _ | closing => exact ⟨h, hs⟩

variable {rest : List Frame}

theorem enterRequest (mutating : Bool) (hs : Framed c.nextId rest) :
    Running (c.enterRequest mutating rest) := by
  rw [Client.enterRequest]
  split
  · have hsta : Framed c.nextId (.requestStarts mutating :: rest) := hs.cons nofun
    exact ⟨h, hsta.cons nofun⟩
  obtain ⟨hr, hn, hf⟩ := h.register mutating
  split
  · rename_i c' f heq
    rw [heq] at hr hn hf
    exact ⟨hr, (hs.mono hn).cons (hf f rfl)⟩
  rename_i c' heq
  rw [heq] at hr hn
  exact hr.resume false (hs.mono hn)

theorem closeTransport (t : Option TransportId) (hs : Framed c.nextId rest) :
    Running (c.closeTransport t rest) := by
  cases t with
  | some t => exact ⟨h, hs.cons nofun⟩
  | none =>
    obtain ⟨hc, hn⟩ := h.settleClose
    exact hc.resume true (by rw [hn]; exact hs)

theorem lostReturns (hs : Framed c.nextId rest) (by_ : LostBy)
    (hid : ∀ id, by_ = .send id → id ≤ c.nextId ∧ Told c id) : Running (c.lostReturns rest by_) := by
  cases by_ with
  | send id =>
    obtain ⟨hle, htold⟩ := hid id rfl
    have hrai : Orderly { c with trace := c.trace ++ [.raised id (c.indeterminate.contains id)] } :=
      ⟨h.sound.raises hle htold, h.framed⟩
    exact (hrai.forget id).resume false hs
  | start => exact h.resume false hs
  | listen => exact h.resume true hs

theorem cleanUp (f : Frame) : Orderly (c.cleanUp f) ∧ (c.cleanUp f).nextId = c.nextId := by
  cases f with
  | sending id t => exact ⟨h.forget id, rfl⟩
  | waiting id =>
    have hdone : Orderly { c with
        future := Function.update c.future id (some ((c.future id).getD .cancelled)) } := by
      refine h.rest ⟨rfl, rfl, rfl, rfl, rfl, rfl⟩ ?_ rfl
      intro i hi
      dsimp only at hi
      by_cases he : i = id
      · subst he
        rw [Function.update_self] at hi
        cases hi
      · rw [Function.update_of_ne he] at hi
        exact hi
    exact ⟨hdone.forget id, rfl⟩
  | connecting stale => exact ⟨h.rest ⟨rfl, rfl, rfl, rfl, rfl, rfl⟩ (fun _ => id) rfl, rfl⟩
  | lostLocks _ by_ | lostCloses _ by_ | notifying _ by_ =>
    cases by_ with
    | send id => exact ⟨h.forget id, rfl⟩
    | start | listen => exact ⟨h, rfl⟩
  | _ => exact ⟨h, rfl⟩

theorem unwind (hs : Framed c.nextId stack) : Running (c.unwind stack) := by
  induction stack generalizing c with
  | nil => exact ⟨h, hs⟩
  | cons f rest ih =>
    obtain ⟨hc, hn⟩ := h.cleanUp f
    have hgo : Running ((c.cleanUp f).unwind rest) := ih hc (by rw [hn]; exact hs.tail)
    cases f with
    | listening _ | sinking _ => exact ⟨h, hs.tail.cons nofun⟩
    | _ => exact hgo

end Orderly

def Undisturbed (c : Client) : ClientEvent → Prop
  | .advances task _ =>
    match c.task task with
    | some (.lostLocks t (.send id) :: _) => c.transport ≠ some t → Told c id
    | some (.notifying _ (.send id) :: _) => Told c id
    | _ => True
  | _ => True

namespace Orderly

variable {c c' : Client}

theorem advance (h : Orderly c) {here : Option TransportId} {outcome : Outcome}
    (hs : Framed c.nextId stack) {r : Client × List Frame} (hr : c.advance here outcome stack = some r)
    (hloc : ∀ t id rest, stack = .lostLocks t (.send id) :: rest → c.transport ≠ some t → Told c id)
    (hnot : ∀ t id rest, stack = .notifying t (.send id) :: rest → Told c id) : Running r := by
  rw [advance.eq_def] at hr
  split at hr
  · rename_i id t rest
    split at hr
    · split at hr
      · cases hr
        exact (h.forget id).resume true hs.tail
      · cases hr
        exact (h.forget id).resume false hs.tail
      · cases hr
        exact ⟨h, hs.tail.cons nofun⟩
    · cases hr
      refine ⟨h, hs.tail.cons ?_⟩
      intro i hi
      exact hs _ mem_cons_self i hi
    · cases hr
      exact (h.forget id).resume false hs.tail
  · rename_i id rest
    split at hr
    · cases hr
      exact (h.forget id).resume true hs.tail
    · cases hr
      exact (h.forget id).resume false hs.tail
    · cases hr
  · split at hr
    · cases hr
    · split at hr
      · cases hr
        exact h.resume true hs.tail
      · cases hr
        exact ⟨h.rest ⟨rfl, rfl, rfl, rfl, rfl, rfl⟩ (fun _ => id) rfl, hs.tail.cons nofun⟩
  · rename_i stale rest
    split at hr
    · have hnew : Orderly { c.setTask (.listener c.nextTransport) [.listening c.nextTransport] with
          nextTransport := c.nextTransport + 1
          transport := some c.nextTransport
          listener := some c.nextTransport
          lifecycleLock := false } := by
        have hlis : Framed c.nextId [.listening c.nextTransport] := by
          refine Framed.cons nofun ?_
          nofun
        have hset := h.setTask (.listener c.nextTransport) hlis
        exact hset.rest ⟨rfl, rfl, rfl, rfl, rfl, rfl⟩ (fun _ => id) rfl
      have hinit : Framed c.nextId (.initializing c.nextTransport :: rest) := hs.tail.cons nofun
      split at hr
      · cases hr
        exact ⟨hnew, hinit.cons nofun⟩
      · cases hr
        exact hnew.enterRequest false hinit
    · cases hr
      have hfree : Orderly { c with lifecycleLock := false } :=
        h.rest ⟨rfl, rfl, rfl, rfl, rfl, rfl⟩ (fun _ => id) rfl
      exact hfree.resume false hs.tail
  · rename_i t' t rest
    split at hr
    · cases hr
      exact h.enterRequest false hs.tail
    · cases hr
      exact h.resume false hs.tail.tail
  · rename_i t by_ rest
    split at hr
    · cases hr
    split at hr
    · rename_i hoth
      cases hr
      refine h.lostReturns hs.tail by_ ?_
      rintro id rfl
      exact ⟨hs _ mem_cons_self id rfl, hloc t id rest rfl hoth⟩
    cases hr
    refine ⟨h.rest ⟨rfl, rfl, rfl, rfl, rfl, rfl⟩ (fun _ => id) rfl, hs.tail.cons ?_⟩
    intro i hi
    refine hs _ mem_cons_self i ?_
    cases by_ with
    | send id => exact hi
    | start | listen => cases hi
  · rename_i t by_ rest
    cases hr
    refine ⟨h, hs.tail.cons ?_⟩
    intro i hi
    refine hs _ mem_cons_self i ?_
    cases by_ with
    | send id => exact hi
    | start | listen => cases hi
  · rename_i t by_ rest
    cases hr
    obtain ⟨hloss, hali⟩ := h.settleLoss t
    refine hloss.lostReturns ?_ by_ ?_
    · rw [hali.nextId]
      exact hs.tail
    rintro id rfl
    refine ⟨?_, ?_⟩
    · rw [hali.nextId]
      exact hs _ mem_cons_self id rfl
    · rw [Told, hali.registered, hali.pending]
      exact hnot t id rest rfl
  · cases hr
    exact ⟨h, hs.tail.cons nofun⟩
  · rename_i t listener rest
    split at hr
    · cases hr
    have hdet : Orderly { c with
        transport := if c.transport = t then none else c.transport
        listener := if c.listener = listener then none else c.listener } :=
      h.rest ⟨rfl, rfl, rfl, rfl, rfl, rfl⟩ (fun _ => id) rfl
    dsimp only at hr
    split at hr
    · split at hr
      · cases hr
        exact hdet.closeTransport t hs.tail
      · cases hr
        exact ⟨hdet, hs.tail.cons nofun⟩
    · cases hr
      exact hdet.closeTransport t hs.tail
  · rename_i t l rest
    split at hr
    · cases hr
      exact h.closeTransport t hs.tail
    · cases hr
  · rename_i rest
    split at hr
    · cases hr
      obtain ⟨hc, hn⟩ := h.settleClose
      exact hc.resume true (by rw [hn]; exact hs.tail)
    · cases hr
      exact h.resume false hs.tail
  · cases hr

theorem call {n : Nat} {inside : Option TransportId} {r : Client × List Frame} (hr : Running r)
    (hc : c.call n inside r = some c') : Orderly c' := by
  rw [Client.call] at hc
  split at hc
  · cases hc
    exact (Orderly.place hr (.caller n)).rest ⟨rfl, rfl, rfl, rfl, rfl, rfl⟩ (fun _ => id) rfl
  · cases hc

theorem next (h : Orderly c) {e : ClientEvent} (hu : Undisturbed c e) (hc : clientNext c e = some c') : Orderly c' := by
  cases e with
  | request n inside mutating =>
    have hr : Framed c.nextId [] := nofun
    exact call (h.enterRequest mutating hr) hc
  | start n inside =>
    have hr : Running (c, [.startLocks]) := by
      refine ⟨h, Framed.cons nofun ?_⟩
      nofun
    exact call hr hc
  | close n inside =>
    rw [clientNext] at hc
    split at hc
    · rename_i t ht
      have hr : Framed c.nextId [.shuttingDown t c.listener] := by
        refine Framed.cons nofun ?_
        nofun
      exact call (h.enterRequest false hr) hc
    have hr : Running (c, [.closeLocks none c.listener]) := by
      refine ⟨h, Framed.cons nofun ?_⟩
      nofun
    exact call hr hc
  | advances task outcome =>
    rw [clientNext] at hc
    rw [Undisturbed] at hu
    split at hc
    · rename_i stack hsta
      rw [hsta] at hu
      obtain ⟨r, hr, rfl⟩ := map_eq_some_iff.mp hc
      refine Orderly.place (h.advance (h.framed task stack hsta) hr ?_ ?_) task
      · rintro t id rest rfl
        exact hu
      · rintro t id rest rfl
        exact hu
    · cases hc
  | receives t frame =>
    rw [clientNext] at hc
    split at hc
    · rename_i u rest hsta
      have hrest : Framed c.nextId rest := (h.framed _ _ hsta).tail
      split at hc
      · cases hc
        exact h.setTask _ (hrest.cons nofun)
      · rename_i id ok
        split at hc
        · rename_i hown
          cases hc
          have hsou : Sound (c.settle id (.reply t) (if ok then .result else .hostError)) := by
            refine h.sound.settle ?_
            intro r hr _
            rw [hr] at hown
            exact (of_decide_eq_true hown).symm
          have hali := c.alike_settle id (.reply t) (if ok then .result else .hostError)
          refine ⟨hsou, ?_⟩
          rw [hali.task, hali.nextId]
          exact h.framed
        · cases hc
      · cases hc
        exact h.setTask _ (hrest.cons nofun)
    · cases hc
  | cancelled task =>
    rw [clientNext] at hc
    split at hc
    · rename_i f rest hsta
      cases hc
      exact Orderly.place (h.unwind (h.framed task _ hsta)) task
    · cases hc

end Orderly

theorem orderly_start : Orderly {} := by
  refine ⟨⟨?_, nofun, ?_, fun _ _ => rfl, nofun, nofun, ?_, nofun, nofun⟩, nofun⟩
  · intro id _
    exact ⟨rfl, not_mem_nil, not_mem_nil⟩
  · intro id
    exact Nat.zero_le _
  · intro id t h
    cases h

/-- A future is settled at most once, by the reply or loss of its request's transport or by a close; and where it is the
loss, the error is indeterminate exactly when the call was mutating. -/
def SettledRightly (c : Client) : Prop :=
  (∀ id, (c.trace.filter (fun e => e.settles id)).length ≤ 1) ∧
  (∀ id r, c.registered id = some r → ∀ cause s, .settled id cause s ∈ c.trace →
    cause = .reply r.transport ∨ cause = .loss r.transport ∨ cause = .close) ∧
  (∀ id r, c.registered id = some r → (∀ t s, .settled id (.loss t) s ∈ c.trace → s = .disconnected r.mutating) ∧
    ∀ indeterminate, .raised id indeterminate ∈ c.trace → indeterminate = r.mutating)

theorem requests_settle {c : Client} (hr : Runs.ReachesUnder clientNext Undisturbed {} c) : SettledRightly c := by
  have h : Orderly c := Runs.invariant_under (fun _ _ _ h hu hc => h.next hu hc) orderly_start hr
  refine ⟨h.sound.once, ?_, ?_⟩
  · intro id r hreg cause s hmem
    have hrig := h.sound.rightly id r hreg cause s hmem
    cases cause with
    | reply t => exact .inl (congrArg Cause.reply hrig)
    | loss t => exact .inr (.inl (congrArg Cause.loss hrig.1))
    | close => exact .inr (.inr rfl)
  · intro id r hreg
    exact ⟨fun t s hmem => (h.sound.rightly id r hreg (.loss t) s hmem).2, h.sound.raised id r hreg⟩

def calling (mutating : Bool) : List ClientEvent :=
  [.request 0 none mutating, .advances (.caller 0) .ok, .advances (.caller 0) .ok, .advances (.caller 0) .ok,
    .receives 0 (.reply 1 true), .advances (.caller 0) .ok]

def closedWhileLost : List ClientEvent :=
  calling true ++ [.advances (.caller 0) .transportError, .advances (.caller 0) .ok, .advances (.caller 0) .ok,
    .close 1 none, .advances (.caller 1) .ok, .receives 0 .lost, .advances (.listener 0) .ok,
    .advances (.caller 1) .ok, .advances (.caller 0) .ok]

theorem closed_call_not_indeterminate : ¬ ∀ c, Runs.Reaches clientNext {} c → SettledRightly c := by
  intro hall
  have hrun : (Runs.run clientNext {} closedWhileLost).any (fun c =>
      decide (c.registered 2 = some ⟨0, true⟩) && decide (.raised 2 false ∈ c.trace)) = true := by
    decide +kernel
  obtain ⟨c, hc, htest⟩ := (any_eq_true _ _).mp hrun
  rw [Bool.and_eq_true, decide_eq_true_eq, decide_eq_true_eq] at htest
  have hrai := ((hall c ⟨_, hc⟩).2.2 2 _ htest.1).2 false htest.2
  cases hrai

def lostWhileWaiting : List ClientEvent :=
  calling true ++ [.advances (.caller 0) .ok, .receives 0 .lost, .advances (.listener 0) .ok,
    .advances (.listener 0) .ok, .advances (.listener 0) .ok]

/-- A test for steps that are `Undisturbed`: no send has failed. -/
def sendsSucceed (c : Client) : ClientEvent → Bool
  | .advances task _ =>
    match c.task task with
    | some (.lostLocks _ (.send _) :: _) => false
    | some (.notifying _ (.send _) :: _) => false
    | _ => true
  | _ => true

theorem undisturbed_of_sends (c : Client) (e : ClientEvent) (h : sendsSucceed c e = true) : Undisturbed c e := by
  rw [sendsSucceed.eq_def] at h
  rw [Undisturbed.eq_def]
  split
  · rename_i task outcome
    dsimp only at h
    split
    · rename_i hs
      rw [hs] at h
      cases h
    · rename_i hs
      rw [hs] at h
      cases h
    · trivial
  · trivial

theorem lost_call_settles : ∃ c, Runs.ReachesUnder clientNext Undisturbed {} c ∧
    .settled 2 (.loss 0) (.disconnected true) ∈ c.trace ∧ SettledRightly c := by
  have hall : Runs.all sendsSucceed clientNext {} lostWhileWaiting = true := by
    decide +kernel
  have hrun : (Runs.run clientNext {} lostWhileWaiting).any (fun c =>
      decide (.settled 2 (.loss 0) (.disconnected true) ∈ c.trace)) = true := by
    decide +kernel
  obtain ⟨c, hc, hmem⟩ := (any_eq_true _ _).mp hrun
  have hr : Runs.ReachesUnder clientNext Undisturbed {} c := ⟨_, Runs.meets_of_all undisturbed_of_sends hall, hc⟩
  exact ⟨c, hr, of_decide_eq_true hmem, requests_settle hr⟩

end OpenAgent.HostTools.LocalClient
