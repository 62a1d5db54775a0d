import Mathlib.Data.List.Nodup
import Mathlib.Algebra.GroupWithZero.Nat
import OpenAgent.Channels.StdioTransport
import OpenAgent.Lib.Runs

namespace OpenAgent.Channels.Stdio

open List Call Transport TaskState

variable {α : Type}

def EndsAs (call : Call α) (how : Ending α) : Prop :=
  match how with
  | .returned value => call.future = .result value ∧ ∀ callback ∈ call.callbacks, callback.state = .ok
  | .invalid => ∃ value, call.future = .result value
  | .rejected => call.future = .rejected
  | .closed => call.future = .closed
  | .callbackFailed => (∃ value, call.future = .result value) ∧ ∃ callback ∈ call.callbacks, callback.state = .failed
  | .cancelled | .unsent => True

/-- The callbacks of a request run one at a time in the order of their frames: one that was started has only callbacks
before it that ended well. -/
def Ordered (call : Call α) : Prop :=
  ∀ (i j : Nat) (earlier later : Callback), i < j → call.callbacks[i]? = some earlier →
    call.callbacks[j]? = some later → later.state.started = true → earlier.state = .ok

def Leaving (stage : Stage α) (how : Ending α) : Prop := stage = .closing how ∨ stage = .ended how

structure Fit (call : Call α) : Prop where
  ordered : Ordered call
  failures : ∀ callback ∈ call.callbacks, callback.state = .skipped true →
    ∃ other ∈ call.callbacks, other.state = .failed
  settled : ∀ callback ∈ call.callbacks, callback.settled = true → callback.state.done = true
  ends : ∀ how, Leaving call.stage how → EndsAs call how
  quiet : ∀ how, call.stage = .ended how → call.active = 0

def Open (stage : Stage α) : Prop := ∀ how, stage ≠ .ended how

structure Sound (transport : Transport α) : Prop where
  fit : ∀ call ∈ transport.calls, Fit call
  count : transport.eventCount = (transport.calls.map Call.active).sum
  events : transport.eventCount ≤ maxPending
  requests : transport.pendingCount ≤ maxPending
  owned : ∀ id call value, transport.calls[id]? = some call → call.future = .result value →
    (id, value) ∈ transport.answers
  once : (transport.endings.map Prod.fst).Nodup
  ended : ∀ id how, (id, how) ∈ transport.endings ↔ ∃ call, transport.calls[id]? = some call ∧ call.stage = .ended how

section Lists

variable {β : Type} {l : List β} {i : Nat} {x y : β}

theorem sum_map_set (f : β → Nat) (h : l[i]? = some x) : ((l.set i y).map f).sum + f x = (l.map f).sum + f y := by
  induction l generalizing i with
  | nil => simp at h
  | cons z l ih =>
    cases i with
    | zero =>
      simp at h
      subst h
      simp
      omega
    | succ i =>
      have hi := ih (i := i) (by simpa using h)
      simp only [set_cons_succ, map_cons, sum_cons]
      omega

theorem countP_set_of {p : β → Bool} (h : l[i]? = some x) :
    (l.set i y).countP p + (if p x = true then 1 else 0) = l.countP p + (if p y = true then 1 else 0) := by
  induction l generalizing i with
  | nil => simp at h
  | cons z l ih =>
    cases i with
    | zero =>
      simp at h
      subst h
      simp only [set_cons_zero, countP_cons]
      omega
    | succ i =>
      have hi := ih (i := i) (by simpa using h)
      simp only [set_cons_succ, countP_cons]
      omega

theorem lt_of_getElem?_eq_some (h : l[i]? = some x) : i < l.length := (List.getElem?_eq_some_iff.mp h).1

theorem getElem?_set_self_of (h : l[i]? = some x) : (l.set i y)[i]? = some y :=
  List.getElem?_set_self (lt_of_getElem?_eq_some h)

theorem mem_set_of {z : β} (h : z ∈ l.set i y) : z ∈ l ∨ z = y := mem_or_eq_of_mem_set h

end Lists

theorem TaskState.ok_of_done {state : TaskState} (hdone : state.done = true) (hfai : ¬ state.fails = true)
    (hcan : ¬ state.cancels = true) : state = .ok := by
  cases state with
  | ok => rfl
  | skipped failure => cases failure <;> simp_all [fails, cancels]
  | _ => simp_all [done, fails, cancels]

section Calls

variable {call : Call α} {callback new : Callback} {k : Nat} {how : Ending α}

theorem Ordered.upto {i : Nat} {earlier : Callback} (ho : Ordered call) (hik : i < k)
    (hi : call.callbacks[i]? = some earlier)
    (hpre : (call.previous k).all (fun earlier => earlier.state = .ok) = true)
    (hlen : k ≤ call.callbacks.length) : earlier.state = .ok := by
  have hlast : k - 1 < call.callbacks.length := by omega
  have hok : call.callbacks[k - 1].state = .ok := by
    simpa [previous, show k ≠ 0 by omega, List.getElem?_eq_getElem hlast] using hpre
  by_cases h : i = k - 1
  · subst h
    rw [List.getElem?_eq_getElem hlast, Option.some_inj] at hi
    rw [← hi, hok]
  · exact ho i (k - 1) earlier _ (by omega) hi (List.getElem?_eq_getElem hlast) (by rw [hok]; rfl)

theorem Ordered.setCallback (ho : Ordered call) (hk : call.callbacks[k]? = some callback)
    (hsta : new.state.started = true →
      callback.state.started = true ∨ (call.previous k).all (fun earlier => earlier.state = .ok) = true)
    (hkee : callback.state.done = true → new.state = callback.state) :
    Ordered { call with callbacks := call.callbacks.set k new } := by
  have hlt : k < call.callbacks.length := lt_of_getElem?_eq_some hk
  intro i j earlier later hij hi hj hlat
  simp only [List.getElem?_set] at hi hj
  by_cases hki : k = i
  · subst hki
    rw [if_neg (by omega)] at hj
    have hok := ho k j callback later hij hk hj hlat
    rw [if_pos rfl, if_pos hlt, Option.some_inj] at hi
    rw [← hi, hkee (by rw [hok]; rfl), hok]
  rw [if_neg hki] at hi
  by_cases hkj : k = j
  · subst hkj
    rw [if_pos rfl, if_pos hlt, Option.some_inj] at hj
    subst hj
    rcases hsta hlat with hold | hpre
    · exact ho i k earlier callback hij hi hk hold
    · exact ho.upto hij hi hpre (Nat.le_of_lt hlt)
  · rw [if_neg hkj] at hj
    exact ho i j earlier later hij hi hj hlat

theorem Fit.setCallback (hf : Fit call) (hk : call.callbacks[k]? = some callback) (huns : callback.settled = false)
    (hsta : new.state.started = true →
      callback.state.started = true ∨ (call.previous k).all (fun earlier => earlier.state = .ok) = true)
    (hkee : callback.state.done = true → new.state = callback.state)
    (hfai : new.state = .skipped true → ∃ other ∈ call.callbacks, other.state = .failed)
    (hdone : new.settled = true → new.state.done = true) :
    Fit { call with callbacks := call.callbacks.set k new } := by
  have hmem : callback ∈ call.callbacks := mem_of_getElem? hk
  have hself : (call.callbacks.set k new)[k]? = some new := getElem?_set_self_of hk
  have hlive : 0 < call.active := countP_pos_iff.mpr ⟨callback, hmem, by simp [huns]⟩
  have hfail : (∃ other ∈ call.callbacks, other.state = .failed) →
      ∃ other ∈ call.callbacks.set k new, other.state = .failed := by
    rintro ⟨other, hoth, hstate⟩
    obtain ⟨i, hi⟩ := mem_iff_getElem?.mp hoth
    by_cases hik : i = k
    · subst hik
      rw [hk, Option.some_inj] at hi
      subst hi
      refine ⟨new, mem_of_getElem? hself, ?_⟩
      rw [hkee (by rw [hstate]; rfl), hstate]
    · exact ⟨other, mem_of_getElem? ((List.getElem?_set_ne (Ne.symm hik)).trans hi), hstate⟩
  refine ⟨?_, ?_, ?_, ?_, ?_⟩
  · exact hf.ordered.setCallback hk hsta hkee
  · intro other hoth hski
    rcases mem_set_of hoth with hold | rfl
    · exact hfail (hf.failures other hold hski)
    · exact hfail (hfai hski)
  · intro other hoth hset
    rcases mem_set_of hoth with hold | rfl
    · exact hf.settled other hold hset
    · exact hdone hset
  · intro how hlea
    have hends := hf.ends how hlea
    cases how with
    | returned value =>
      refine ⟨hends.1, fun other hoth => ?_⟩
      rcases mem_set_of hoth with hold | rfl
      · exact hends.2 other hold
      · have hok := hends.2 callback hmem
        rw [hkee (by rw [hok]; rfl), hok]
    | callbackFailed => exact ⟨hends.1, hfail hends.2⟩
    | _ => exact hends
  · intro how hend
    have hqui := hf.quiet how hend
    omega

theorem Fit.fresh (progress : Bool) : Fit { progress := progress : Call α } :=
  ⟨by simp [Ordered], by simp, by simp, by simp [Leaving], by simp⟩

theorem Fit.same {call' : Call α} (hf : Fit call) (hsame : call'.callbacks = call.callbacks)
    (hends : ∀ how, Leaving call'.stage how → EndsAs call' how)
    (hqui : ∀ how, call'.stage = .ended how → call.active = 0) : Fit call' := by
  refine ⟨?_, ?_, ?_, hends, ?_⟩
  · intro i j earlier later hij hi hj
    rw [hsame] at hi hj
    exact hf.ordered i j earlier later hij hi hj
  · rw [hsame]
    exact hf.failures
  · rw [hsame]
    exact hf.settled
  · intro how hend
    rw [active, hsame]
    exact hqui how hend

theorem not_leaving_of_registered {stage : Stage α} (h : stage.registered = true) : ¬ Leaving stage how := by
  rintro (rfl | rfl) <;> cases h

theorem not_leaving_of_call (h : call.registered = true) : ¬ Leaving call.stage how := not_leaving_of_registered h

theorem Fit.append (hf : Fit call) (hreg : call.registered = true) :
    Fit { call with callbacks := call.callbacks ++ [{}] } := by
  refine ⟨?_, ?_, ?_, fun how h => absurd h (not_leaving_of_call hreg), fun how h =>
    absurd (.inr h) (not_leaving_of_call hreg)⟩
  · intro i j earlier later hij hi hj hlat
    simp only [List.getElem?_append] at hi hj
    split at hj
    · rw [if_pos (by omega)] at hi
      exact hf.ordered i j earlier later hij hi hj hlat
    have hnew := mem_singleton.mp (mem_of_getElem? hj)
    rw [hnew] at hlat
    cases hlat
  · intro callback hmem hski
    rcases mem_append.mp hmem with hold | hnew
    · obtain ⟨other, hoth, hfai⟩ := hf.failures callback hold hski
      exact ⟨other, mem_append_left _ hoth, hfai⟩
    · rw [mem_singleton.mp hnew] at hski
      cases hski
  intro callback hmem hset
  rcases mem_append.mp hmem with hold | hnew
  · exact hf.settled callback hold hset
  · rw [mem_singleton.mp hnew] at hset
    cases hset

theorem tail_eq (hlast : call.callbacks.getLast? = some callback) : call.tail = callback.state := by
  simp [Call.tail, hlast]

theorem Fit.all_ok (hf : Fit call) (htail : call.tail = .ok) : ∀ callback ∈ call.callbacks, callback.state = .ok := by
  intro callback hmem
  obtain ⟨i, hi⟩ := mem_iff_getElem?.mp hmem
  have hlt := lt_of_getElem?_eq_some hi
  obtain ⟨last, hlast⟩ : ∃ last, call.callbacks.getLast? = some last :=
    Option.isSome_iff_exists.mp (by simpa using ne_nil_of_mem hmem)
  rw [tail_eq hlast] at htail
  have hj := hlast
  rw [List.getLast?_eq_getElem?] at hj
  by_cases hil : i = call.callbacks.length - 1
  · rw [hil, hj, Option.some_inj] at hi
    rw [← hi, htail]
  · exact hf.ordered i _ callback last (by omega) hi hj (by rw [htail]; rfl)

theorem Fit.tail_failed (hf : Fit call) (htail : call.tail.fails = true) :
    ∃ callback ∈ call.callbacks, callback.state = .failed := by
  cases hlast : call.callbacks.getLast? with
  | none =>
    rw [Call.tail, hlast] at htail
    cases htail
  | some last =>
    rw [tail_eq hlast] at htail
    have hmem := mem_of_getLast? hlast
    cases hstate : last.state with
    | failed => exact ⟨last, hmem, hstate⟩
    | skipped failure =>
      cases failure with
      | true => exact hf.failures last hmem hstate
      | false =>
        rw [hstate] at htail
        cases htail
    | _ =>
      rw [hstate] at htail
      cases htail

theorem Fit.departs (hf : Fit call) {valid : Bool} (h : call.departure valid = some how) : EndsAs call how := by
  unfold departure at h
  cases hfut : call.future with
  | pending =>
    rw [hfut] at h
    cases h
  | cancelled =>
    rw [hfut] at h
    cases h
    trivial
  | rejected | closed =>
    simp only [hfut] at h
    split at h
    · cases h
      trivial
    · cases h
      exact hfut
  | result value =>
    simp only [hfut] at h
    split at h
    · cases h
      trivial
    split at h
    case isFalse => cases h
    case isTrue hdone =>
      cases h
      unfold afterTail
      split
      · exact ⟨⟨value, hfut⟩, hf.tail_failed ‹_›⟩
      split
      · trivial
      split
      · exact ⟨hfut, hf.all_ok (ok_of_done hdone ‹_› ‹_›)⟩
      · exact ⟨value, hfut⟩

end Calls

section Moves

variable {transport t : Transport α} {call call' : Call α} {id : Nat} {how : Ending α}

/-- One call has changed, and what the transport counts, has heard and has ended has changed with it. -/
structure Moves (transport : Transport α) (id : Nat) (call call' : Call α) (t : Transport α) : Prop where
  calls : t.calls = transport.calls.set id call'
  fit : Fit call'
  count : t.eventCount + call.active = transport.eventCount + call'.active
  events : t.eventCount ≤ maxPending
  kept : call'.registered = true → call.registered = true
  owned : ∀ value, call'.future = .result value → call.future = .result value ∨ (id, value) ∈ t.answers
  answers : ∀ answer ∈ transport.answers, answer ∈ t.answers
  endings : (t.endings = transport.endings ∧ ∀ how, call.stage = .ended how ↔ call'.stage = .ended how) ∨
    Open call.stage ∧ ∃ how, call'.stage = .ended how ∧ t.endings = transport.endings ++ [(id, how)]

theorem Sound.moves (call' : Call α) (hs : Sound transport) (hid : transport.calls[id]? = some call)
    (hm : Moves transport id call call' t) : Sound t := by
  have hself : t.calls[id]? = some call' := by rw [hm.calls, getElem?_set_self_of hid]
  have hoth : ∀ other, other ≠ id → t.calls[other]? = transport.calls[other]? := by
    intro other hne
    rw [hm.calls, List.getElem?_set_ne (Ne.symm hne)]
  refine ⟨?_, ?_, hm.events, ?_, ?_, ?_, ?_⟩
  · intro other hmem
    rw [hm.calls] at hmem
    rcases mem_set_of hmem with hold | rfl
    · exact hs.fit other hold
    · exact hm.fit
  · have hsum := sum_map_set active (y := call') hid
    have hcou := hm.count
    have hold := hs.count
    rw [hm.calls]
    omega
  · have hcou := countP_set_of (p := registered) (y := call') hid
    have hreq := hs.requests
    have hkept := hm.kept
    simp only [pendingCount] at hreq ⊢
    rw [hm.calls]
    split at hcou <;> split at hcou <;> first | omega | simp_all
  · intro other found value hfound hval
    by_cases hne : other = id
    · subst hne
      rw [hself, Option.some_inj] at hfound
      subst hfound
      rcases hm.owned value hval with hold | hnew
      · exact hm.answers _ (hs.owned other call value hid hold)
      · exact hnew
    · rw [hoth other hne] at hfound
      exact hm.answers _ (hs.owned other found value hfound hval)
  · rcases hm.endings with ⟨hsame, _⟩ | ⟨hopen, ending, _, hends⟩
    · rw [hsame]
      exact hs.once
    · have hfre : id ∉ transport.endings.map Prod.fst := by
        rw [mem_map]
        rintro ⟨⟨other, how⟩, hmem, rfl⟩
        obtain ⟨found, hfound, hend⟩ := (hs.ended _ how).mp hmem
        rw [hid, Option.some_inj] at hfound
        subst hfound
        exact hopen how hend
      rw [hends, map_append, map_singleton, ← concat_eq_append]
      exact hs.once.concat hfre
  · intro other how
    by_cases hne : other = id
    · subst hne
      rw [hself]
      rcases hm.endings with ⟨hsame, hstage⟩ | ⟨hopen, ending, hend, hends⟩
      · rw [hsame, hs.ended, hid]
        simp [hstage how]
      · rw [hends, mem_append, hs.ended, hid]
        simp [hopen how, hend, eq_comm]
    rw [hoth other hne, ← hs.ended]
    rcases hm.endings with ⟨hsame, _⟩ | ⟨_, ending, _, hends⟩
    · rw [hsame]
    · rw [hends]
      simp [hne]

theorem Sound.moves_update (hs : Sound transport) (hid : transport.calls[id]? = some call) (hopen : Open call.stage)
    (hsame : call'.callbacks = call.callbacks) (hopen' : Open call'.stage)
    (hends : ∀ how, Leaving call'.stage how → EndsAs call' how) (hkept : call'.registered = true → call.registered = true)
    (hown : ∀ value, call'.future = .result value → call.future = .result value) :
    Moves transport id call call' (transport.update id call') where
  calls := rfl
  fit := (hs.fit call (mem_of_getElem? hid)).same hsame hends (fun how h => absurd h (hopen' how))
  count := by simp [update, active, hsame]
  events := hs.events
  kept := hkept
  owned value h := .inl (hown value h)
  answers _ h := h
  endings := .inl ⟨rfl, fun how => iff_of_false (hopen how) (hopen' how)⟩

/-- The call after `conclude`. -/
def concluded (call : Call α) (how : Ending α) : Call α :=
  if call.mustCancel then { call with stage := .ended .cancelled }
  else { call with stage := .ended how, future := if call.future.done then call.future else .cancelled }

def verdict (call : Call α) (how : Ending α) : Ending α := if call.mustCancel then .cancelled else how

theorem conclude_calls : (transport.conclude id call how).calls = transport.calls.set id (concluded call how) := by
  unfold conclude concluded
  split <;> rfl

theorem conclude_endings : (transport.conclude id call how).endings = transport.endings ++ [(id, verdict call how)] := by
  unfold conclude verdict
  split <;> rfl

theorem conclude_eventCount : (transport.conclude id call how).eventCount = transport.eventCount := by
  unfold conclude
  split <;> rfl

theorem conclude_answers : (transport.conclude id call how).answers = transport.answers := by
  unfold conclude
  split <;> rfl

theorem concluded_stage : (concluded call how).stage = .ended (verdict call how) := by
  unfold concluded verdict
  split <;> rfl

theorem concluded_callbacks : (concluded call how).callbacks = call.callbacks := by
  unfold concluded
  split <;> rfl

theorem concluded_future {value : α} (h : (concluded call how).future = .result value) :
    call.future = .result value := by
  unfold concluded at h
  split at h
  · exact h
  dsimp only at h
  split at h
  · exact h
  · cases h

theorem endsAs_concluded (h : EndsAs call how) : EndsAs (concluded call how) (verdict call how) := by
  unfold concluded verdict
  by_cases hmust : call.mustCancel = true
  · rw [if_pos hmust, if_pos hmust]
    trivial
  rw [if_neg hmust, if_neg hmust]
  cases how with
  | returned value => exact ⟨by simp [h.1, Future.done], h.2⟩
  | invalid =>
    obtain ⟨value, hval⟩ := h
    exact ⟨value, by simp [hval, Future.done]⟩
  | rejected =>
    have hfut : call.future = .rejected := h
    simp [EndsAs, hfut, Future.done]
  | closed =>
    have hfut : call.future = .closed := h
    simp [EndsAs, hfut, Future.done]
  | callbackFailed =>
    obtain ⟨⟨value, hval⟩, hfai⟩ := h
    exact ⟨⟨value, by simp [hval, Future.done]⟩, hfai⟩
  | cancelled => trivial
  | unsent => trivial

theorem open_of_registered {stage : Stage α} (h : stage.registered = true) : Open stage :=
  fun _ hend => not_leaving_of_registered h (.inr hend)

theorem resumeCall_cases {valid : Bool} (h : transport.resumeCall id call valid = some t) :
    (∃ how, call.registered = true ∧ call.departure valid = some how ∧ t = transport.leave id call how) ∨
    (call.stage = .waiting ∧ call.departure valid = none ∧ call.future.done = true ∧
      t = transport.update id { call with stage := .draining }) ∨
    ∃ how, call.stage = .closing how ∧ call.active = 0 ∧ t = transport.conclude id call how := by
  unfold resumeCall at h
  rw [registered]
  cases hstage : call.stage with
  | emitting | ended _ => simp [hstage] at h
  | waiting =>
    simp only [hstage] at h
    cases hdep : call.departure valid with
    | some how =>
      simp only [hdep] at h
      cases h
      exact .inl ⟨how, rfl, rfl, rfl⟩
    | none =>
      simp only [hdep] at h
      obtain ⟨hdone, ht⟩ := Option.ite_none_right_eq_some.mp h
      cases ht
      exact .inr (.inl ⟨rfl, rfl, hdone, rfl⟩)
  | draining =>
    simp only [hstage] at h
    cases hdep : call.departure valid with
    | some how =>
      simp only [hdep] at h
      cases h
      exact .inl ⟨how, rfl, rfl, rfl⟩
    | none => simp [hdep] at h
  | closing how =>
    simp only [hstage] at h
    obtain ⟨hact, ht⟩ := Option.ite_none_right_eq_some.mp h
    cases ht
    exact .inr (.inr ⟨how, rfl, hact, rfl⟩)

section OneCall

variable (hs : Sound transport) (hid : transport.calls[id]? = some call) {callback : Callback} {k : Nat}
include hs hid

theorem Sound.moves_conclude {from' : Call α}
    (hcal : from'.callbacks = call.callbacks) (hfut : from'.future = call.future) (hopen : Open call.stage)
    (hact : call.active = 0) (hends : EndsAs from' how) :
    Moves transport id call (concluded from' how) (transport.conclude id from' how) where
  calls := conclude_calls
  fit := (hs.fit call (mem_of_getElem? hid)).same (concluded_callbacks.trans hcal) (by
      intro ending hlea
      rw [concluded_stage] at hlea
      rcases hlea with h | h
      · cases h
      · cases h
        exact endsAs_concluded hends)
    (fun _ _ => hact)
  count := by rw [conclude_eventCount, active, active, concluded_callbacks, hcal]
  events := by
    rw [conclude_eventCount]
    exact hs.events
  kept h := by
    rw [registered, concluded_stage] at h
    cases h
  owned value h := .inl (hfut ▸ concluded_future h)
  answers _ h := by rwa [conclude_answers]
  endings := .inr ⟨hopen, _, concluded_stage, conclude_endings⟩

theorem Sound.leave (hopen : Open call.stage)
    (hreg : call.registered = true) (hends : EndsAs call how) : Sound (transport.leave id call how) := by
  have hcall : EndsAs { call with mustCancel := false } how := by cases how <;> exact hends
  unfold Transport.leave
  split
  case isTrue hact => exact hs.moves _ hid (hs.moves_conclude hid rfl rfl hopen hact hcall)
  case isFalse =>
    refine hs.moves _ hid (hs.moves_update hid hopen rfl (by simp [Open]) ?_ (by simp [hreg]) (by simp))
    intro ending hlea
    rcases hlea with h | h
    · cases h
      cases how <;> exact hends
    · cases h

theorem Sound.active_le :
    call.active ≤ transport.eventCount := by
  have hsum := sum_map_set active (y := { call with callbacks := [] }) hid
  have hnone : active { call with callbacks := [] } = 0 := rfl
  have hcou := hs.count
  omega

section Callbacks

variable (hk : call.callbacks[k]? = some callback)
include hk

theorem Sound.moves_callback (new : Callback) (huns : callback.settled = false)
    (hsta : new.state.started = true →
      callback.state.started = true ∨ (call.previous k).all (fun earlier => earlier.state = .ok) = true)
    (hkee : callback.state.done = true → new.state = callback.state)
    (hfai : new.state = .skipped true → ∃ other ∈ call.callbacks, other.state = .failed)
    (hdone : new.settled = true → new.state.done = true) :
    Moves transport id call { call with callbacks := call.callbacks.set k new }
      { transport.setCallback id call k new with
        eventCount := if new.settled then transport.eventCount - 1 else transport.eventCount } where
  calls := rfl
  fit := (hs.fit call (mem_of_getElem? hid)).setCallback hk huns hsta hkee hfai hdone
  count := by
    have hact := countP_set_of (p := fun callback : Callback => !callback.settled) (y := new) hk
    have hle := hs.active_le hid
    have hopen := countP_pos_iff (p := fun callback : Callback => !callback.settled) |>.mpr
      ⟨callback, mem_of_getElem? hk, by simp [huns]⟩
    simp only [active] at hle ⊢
    have hbef : (if (!callback.settled) = true then 1 else 0) = 1 := by simp [huns]
    cases hnew : new.settled with
    | true =>
      have hafter : (if (!new.settled) = true then 1 else 0) = 0 := by simp [hnew]
      rw [if_pos rfl]
      omega
    | false =>
      have hafter : (if (!new.settled) = true then 1 else 0) = 1 := by simp [hnew]
      rw [if_neg (by simp)]
      omega
  events := by
    have heve := hs.events
    dsimp only
    split <;> omega
  kept h := h
  owned _ h := .inl h
  answers _ h := h
  endings := .inl ⟨rfl, fun _ => Iff.rfl⟩

theorem Sound.unsettled (h : callback.state.done = false) : callback.settled = false := by
  by_contra hset
  have hdone := (hs.fit call (mem_of_getElem? hid)).settled callback (mem_of_getElem? hk) (by simpa using hset)
  rw [h] at hdone
  cases hdone

theorem Sound.setCallback (hlive : callback.state.done = false) {state : TaskState}
    (hsta : state.started = true →
      callback.state.started = true ∨ (call.previous k).all (fun earlier => earlier.state = .ok) = true)
    (hfai : state = .skipped true → ∃ other ∈ call.callbacks, other.state = .failed) :
    Sound (transport.setCallback id call k { callback with state := state }) := by
  have huns := hs.unsettled hid hk hlive
  have hmov := hs.moves_callback hid hk { callback with state := state } huns hsta
    (by simp [hlive]) hfai (by simp [huns])
  rw [if_neg (by simp [huns])] at hmov
  exact hs.moves _ hid hmov

theorem Sound.startCallback (h : transport.startCallback id call k callback = some t) : Sound t := by
  obtain ⟨hsta, ht⟩ := Option.ite_none_right_eq_some.mp h
  cases ht
  exact hs.setCallback hid hk (by simp [hsta.1, done]) (fun _ => .inr hsta.2) (by simp)

theorem Sound.finishCallback {state : TaskState}
    (h : transport.finishCallback id call k callback state = some t) : Sound t := by
  obtain ⟨hfin, ht⟩ := Option.ite_none_right_eq_some.mp h
  cases ht
  refine hs.setCallback hid hk (by simp [hfin.1, done]) (fun _ => .inl (by simp [hfin.1, started])) ?_
  intro hstate
  simp [hstate] at hfin

theorem Sound.skipCallback {failure : Bool}
    (h : transport.skipCallback id call k callback failure = some t) : Sound t := by
  obtain ⟨hskip, ht⟩ := Option.ite_none_right_eq_some.mp h
  cases ht
  refine hs.setCallback hid hk (by simp [hskip.1, done]) (by simp [started]) ?_
  intro hstate
  cases hstate
  have hfai := hskip.2
  rw [if_pos rfl, Option.any_eq_true] at hfai
  obtain ⟨earlier, hpre, hfai⟩ := hfai
  unfold previous at hpre
  split at hpre
  · cases hpre
  have hmem := mem_of_getElem? hpre
  cases hear : earlier.state with
  | failed => exact ⟨earlier, hmem, hear⟩
  | skipped failure =>
    cases failure with
    | true => exact (hs.fit call (mem_of_getElem? hid)).failures earlier hmem hear
    | false => simp [hear, fails] at hfai
  | _ => simp [hear, fails] at hfai

theorem Sound.settleCallback (h : transport.settleCallback id call k callback = some t) : Sound t := by
  obtain ⟨hset, ht⟩ := Option.ite_none_right_eq_some.mp h
  cases ht
  have hsta : callback.state = .skipped true → ∃ other ∈ call.callbacks, other.state = .failed :=
    (hs.fit call (mem_of_getElem? hid)).failures callback (mem_of_getElem? hk)
  exact hs.moves _ hid (hs.moves_callback hid hk { callback with settled := true } hset.2
    .inl (fun _ => rfl) hsta (fun _ => hset.1))

end Callbacks

theorem Sound.stay (hreg : call.registered = true)
    (hsame : call'.callbacks = call.callbacks) (hreg' : call'.registered = true)
    (hown : ∀ value, call'.future = .result value → call.future = .result value) :
    Sound (transport.update id call') :=
  hs.moves _ hid (hs.moves_update hid (open_of_registered hreg) hsame (open_of_registered hreg')
    (fun _ h => absurd h (not_leaving_of_call hreg')) (fun _ => hreg) hown)

theorem Sound.sentCall {ok : Bool}
    (h : transport.sentCall id call ok = some t) : Sound t := by
  unfold Transport.sentCall at h
  cases hstage : call.stage with
  | emitting =>
    have hreg : call.registered = true := by rw [registered, hstage]; rfl
    simp only [hstage] at h
    cases ok with
    | true =>
      cases h
      exact hs.stay hid hreg rfl rfl (fun _ h => h)
    | false =>
      cases h
      exact hs.leave hid (open_of_registered hreg) hreg trivial
  | _ => simp [hstage] at h

theorem Sound.cancelCall (h : transport.cancelCall id call = some t) : Sound t := by
  have hfit := hs.fit call (mem_of_getElem? hid)
  unfold Transport.cancelCall at h
  cases hstage : call.stage with
  | emitting =>
    have hreg : call.registered = true := by rw [registered, hstage]; rfl
    simp only [hstage] at h
    cases h
    exact hs.leave hid (open_of_registered hreg) hreg trivial
  | waiting =>
    have hreg : call.registered = true := by rw [registered, hstage]; rfl
    simp only [hstage] at h
    split at h
    · cases h
      exact hs.stay hid hreg rfl (by simp [registered, Stage.registered]) (fun _ h => h)
    · cases h
      exact hs.stay hid hreg rfl (by simp [registered, Stage.registered]) (by simp)
  | draining =>
    have hreg : call.registered = true := by rw [registered, hstage]; rfl
    simp only [hstage] at h
    split at h
    all_goals
      cases h
      exact hs.stay hid hreg rfl (by simp [registered, Stage.registered]) (fun _ h => h)
  | closing how =>
    simp only [hstage] at h
    cases h
    refine hs.moves _ hid (hs.moves_update hid (by simp [Open, hstage]) rfl (by simp [Open]) ?_ ?_ (fun _ h => h))
    · intro ending hlea
      have hends := hfit.ends ending (hstage ▸ hlea)
      cases ending <;> exact hends
    intro hreg
    rw [registered, hstage]
    exact hreg
  | ended how => simp [hstage] at h

theorem Sound.resumeCall {valid : Bool}
    (h : transport.resumeCall id call valid = some t) : Sound t := by
  have hfit := hs.fit call (mem_of_getElem? hid)
  rcases resumeCall_cases h with ⟨how, hreg, hdep, rfl⟩ | ⟨hstage, -, -, rfl⟩ | ⟨how, hstage, hact, rfl⟩
  · exact hs.leave hid (open_of_registered hreg) hreg (hfit.departs hdep)
  · have hreg : call.registered = true := by rw [registered, hstage]; rfl
    exact hs.stay hid hreg rfl rfl (fun _ h => h)
  · exact hs.moves _ hid (hs.moves_conclude hid rfl rfl (by simp [Open, hstage]) hact (hfit.ends how (.inl hstage)))

theorem Sound.accept (hreg : call.registered = true)
    {body : FrameBody α} (h : transport.accept id call body = .ok t) : Sound t := by
  have hfit := hs.fit call (mem_of_getElem? hid)
  have hopen := open_of_registered hreg
  cases body with
  | result value =>
    cases h
    refine hs.moves { call with future := .result value } hid
      ⟨rfl, hfit.same rfl ?_ ?_, rfl, hs.events, fun _ => hreg, ?_, ?_, .inl ⟨rfl, fun _ => Iff.rfl⟩⟩
    · exact fun how h => absurd h (not_leaving_of_call hreg)
    · exact fun how h => absurd h (hopen how)
    · intro found hfound
      cases hfound
      exact .inr (mem_append_right _ (mem_singleton.mpr rfl))
    · exact fun answer h => mem_append_left _ h
  | error valid =>
    cases valid with
    | false => cases h
    | true =>
      cases h
      exact hs.stay hid hreg rfl hreg (by simp)
  | event valid =>
    simp only [Transport.accept] at h
    split at h
    case isTrue => cases h
    case isFalse hroom =>
      split at h
      · cases h
        have hlt : transport.eventCount < maxPending := Nat.lt_of_not_le (fun hle => hroom (.inr hle))
        have hact : active { call with callbacks := call.callbacks ++ [{}] } = call.active + 1 := by
          simp [active, countP_append]
        refine hs.moves { call with callbacks := call.callbacks ++ [{}] } hid
          ⟨rfl, hfit.append hreg, ?_, hlt, fun _ => hreg, fun _ h => .inl h, fun _ h => h, .inl ⟨rfl, fun _ => Iff.rfl⟩⟩
        simp only [hact]
        omega
      · cases h

end OneCall

theorem pending_eq_some (h : transport.pending id = some call) :
    transport.calls[id]? = some call ∧ call.registered = true := by
  rw [pending, Option.filter_eq_some_iff] at h
  exact h

theorem Sound.receive (hs : Sound transport) {frame : Frame α} (h : transport.receive frame = .ok t) : Sound t := by
  simp only [Transport.receive] at h
  split at h
  · cases h
    exact hs
  split at h
  · cases h
  split at h
  · cases h
  · obtain ⟨hid, hreg⟩ := pending_eq_some ‹_›
    exact hs.accept hid hreg h

theorem getElem?_concat_cases {β : Type} {l : List β} {x y : β} {i : Nat} (h : (l ++ [x])[i]? = some y) :
    l[i]? = some y ∨ i = l.length ∧ y = x := by
  rw [List.getElem?_append] at h
  split at h
  · exact .inl h
  have hlt := lt_of_getElem?_eq_some h
  have hlast : i = l.length := by
    simp at hlt
    omega
  subst hlast
  simp at h
  exact .inr ⟨rfl, h.symm⟩

theorem Sound.request (hs : Sound transport) (progress : Bool) (h : transport.pendingCount < maxPending) :
    Sound { transport with calls := transport.calls ++ [{ progress := progress }] } := by
  refine ⟨?_, ?_, hs.events, ?_, ?_, hs.once, ?_⟩
  · intro call hmem
    rcases mem_append.mp hmem with hold | hnew
    · exact hs.fit call hold
    · rw [mem_singleton.mp hnew]
      exact Fit.fresh progress
  · have hcou := hs.count
    simp [active]
    exact hcou
  · simp only [pendingCount, countP_append] at h ⊢
    have hone : [({ progress := progress } : Call α)].countP registered ≤ 1 := countP_le_length
    omega
  · intro id call value hid hval
    rcases getElem?_concat_cases hid with hold | ⟨_, rfl⟩
    · exact hs.owned id call value hold hval
    · cases hval
  · intro id how
    rw [hs.ended]
    constructor
    · rintro ⟨call, hid, hend⟩
      exact ⟨call, (List.getElem?_append_left (lt_of_getElem?_eq_some hid)).trans hid, hend⟩
    rintro ⟨call, hid, hend⟩
    rcases getElem?_concat_cases hid with hold | ⟨_, rfl⟩
    · exact ⟨call, hold, hend⟩
    · cases hend

@[simp] theorem shut_stage : call.shut.stage = call.stage := by
  unfold shut
  split <;> rfl

@[simp] theorem shut_callbacks : call.shut.callbacks = call.callbacks := by
  unfold shut
  split <;> rfl

theorem shut_of_leaving (h : Leaving call.stage how) : call.shut = call := by
  rw [shut, if_neg]
  rintro ⟨hreg, _⟩
  exact not_leaving_of_call hreg h

theorem Sound.close (hs : Sound transport) : Sound transport.close := by
  have hcal : transport.close.calls = transport.calls.map shut := rfl
  have hends : ∀ (id : Nat) (how : Ending α),
      (∃ call : Call α, transport.close.calls[id]? = some call ∧ call.stage = .ended how) ↔
        ∃ call : Call α, transport.calls[id]? = some call ∧ call.stage = .ended how := by
    simp [hcal]
  refine ⟨?_, ?_, hs.events, ?_, ?_, hs.once, fun id how => (hs.ended id how).trans (hends id how).symm⟩
  · intro call hmem
    obtain ⟨old, hold, rfl⟩ := mem_map.mp hmem
    have hfit := hs.fit old hold
    refine hfit.same shut_callbacks ?_ ?_
    · intro how hlea
      rw [shut_stage] at hlea
      rw [shut_of_leaving hlea]
      exact hfit.ends how hlea
    · intro how hend
      exact hfit.quiet how (shut_stage ▸ hend)
  · have hcou := hs.count
    rw [hcal, map_map, show active ∘ shut = (active : Call α → Nat) from ?_]
    · exact hcou
    · funext call
      simp [active]
  · have hreq := hs.requests
    rw [pendingCount, hcal, countP_map,
      show registered ∘ shut = (registered : Call α → Bool) from ?_]
    · exact hreq
    · funext call
      simp [registered]
  · intro id call value hid hval
    rw [hcal, List.getElem?_map, Option.map_eq_some_iff] at hid
    obtain ⟨old, hold, rfl⟩ := hid
    refine hs.owned id old value hold ?_
    unfold shut at hval
    split at hval
    · cases hval
    · exact hval

theorem withCall_eq_some {f : Call α → Option (Transport α)} (h : transport.withCall id f = some t) :
    ∃ call, transport.calls[id]? = some call ∧ f call = some t := Option.bind_eq_some_iff.mp h

theorem withCallback_eq_some {k : Nat} {f : Call α → Callback → Option (Transport α)}
    (h : transport.withCallback id k f = some t) :
    ∃ call callback, transport.calls[id]? = some call ∧ call.callbacks[k]? = some callback ∧ f call callback = some t := by
  obtain ⟨call, hid, hcall⟩ := withCall_eq_some h
  obtain ⟨callback, hk, ht⟩ := Option.bind_eq_some_iff.mp hcall
  exact ⟨call, callback, hid, hk, ht⟩

theorem Sound.next {e : Event α} (hs : Sound transport) (h : transport.next e = some t) : Sound t := by
  cases e with
  | request progress =>
    simp only [Transport.next] at h
    split at h
    · cases h
      exact hs
    · cases h
      exact hs.request progress (Nat.lt_of_not_le (fun hle => ‹¬ (_ ∨ _)› (.inr hle)))
  | sent id ok =>
    obtain ⟨call, hid, ht⟩ := withCall_eq_some h
    exact hs.sentCall hid ht
  | frame frame =>
    simp only [Transport.next] at h
    split at h
    · cases h
      exact hs.receive ‹_›
    · cases h
      exact hs
  | eof =>
    cases h
    exact hs.close
  | cancel id =>
    obtain ⟨call, hid, ht⟩ := withCall_eq_some h
    exact hs.cancelCall hid ht
  | resume id valid =>
    obtain ⟨call, hid, ht⟩ := withCall_eq_some h
    exact hs.resumeCall hid ht
  | start id k =>
    obtain ⟨call, callback, hid, hk, ht⟩ := withCallback_eq_some h
    exact hs.startCallback hid hk ht
  | finish id k state =>
    obtain ⟨call, callback, hid, hk, ht⟩ := withCallback_eq_some h
    exact hs.finishCallback hid hk ht
  | skip id k failure =>
    obtain ⟨call, callback, hid, hk, ht⟩ := withCallback_eq_some h
    exact hs.skipCallback hid hk ht
  | settle id k =>
    obtain ⟨call, callback, hid, hk, ht⟩ := withCallback_eq_some h
    exact hs.settleCallback hid hk ht

theorem Sound.initial : Sound ({} : Transport α) where
  fit := by simp
  count := rfl
  events := Nat.zero_le _
  requests := Nat.zero_le _
  owned := by simp
  once := by simp
  ended := by simp

end Moves

end OpenAgent.Channels.Stdio
