import Mathlib.Data.List.Nodup
import OpenAgent.Channels.GatewayCommands

namespace OpenAgent.Channels.Commands

open Option Transport Call

def Call.active (call : Call) : Bool := call.stage = .sends || call.stage = .waits

def Call.pending (call : Call) : Bool := call.active && call.future = none

namespace Transport

def sent (s : Transport) : List Nat := s.ws.elim [] fun ws => ws.commands ++ ws.answers.map Prod.fst

/-- What holds whatever is lost: the slot and the lock are the pending call's, and no command is answered twice. -/
structure Kept (s : Transport) : Prop where
  slot : ∀ (c : Nat) call, s.calls[c]? = some call → call.pending = true → s.commandFuture = some c
  lock : ∀ (c : Nat) call, s.calls[c]? = some call → call.active = true → s.commandLock = some c
  free : ∀ c, s.commandLock = some c → ∃ call, s.calls[c]? = some call ∧ call.active = true
  fresh : ∀ (c : Nat) call, s.calls[c]? = some call → call.stage = .locks →
    call.future = none ∧ c ∉ s.sent ∧ c ∉ s.handled.map Prod.fst ∧ s.commandFuture ≠ some c
  known : ∀ c, (c ∈ s.sent ∨ c ∈ s.handled.map Prod.fst) → c < s.calls.length
  future : ∀ c, s.commandFuture = some c → c < s.calls.length
  once : (s.sent ++ s.handled.map Prod.fst).Nodup
  up : s.ws ≠ none → s.phase ≠ .down ∧ s.phase ≠ .dialing
  cleanup : ∀ g, s.lossCleanup = some g →
    g = s.gatewayGeneration ∧ s.shouldStop = false ∧ s.phase ≠ .halting ∧ s.phase ≠ .listening
  running : s.phase ≠ .down → s.phase ≠ .halting → s.shouldStop = false

variable {s t : Transport} {c : Nat} {call : Call}

namespace Kept

theorem acquire (h : Kept s) (hc : s.calls[c]? = some call) (hs : call.stage = .locks) (hl : s.commandLock = none)
    (raises : Bool) : Kept (s.acquire c call raises) := by
  obtain ⟨slot, lock, free, fresh, known, future, once, up, cleanup, running⟩ := h
  unfold Transport.acquire
  split
  · constructor <;> grind [active, pending, sent]
  · unfold leave
    constructor <;> grind [active, pending, sent]

theorem leave (h : Kept s) (hc : s.calls[c]? = some call) (hact : call.active = true) {stage : Stage}
    (hstage : stage ≠ .locks ∧ stage ≠ .sends ∧ stage ≠ .waits) : Kept (s.leave c call stage) := by
  have hact' : active { call with stage := stage } = false := by simp [active, hstage]
  obtain ⟨slot, lock, free, fresh, known, future, once, up, cleanup, running⟩ := h
  unfold Transport.leave
  constructor
  case free => simp
  all_goals grind [pending, sent]

theorem resume (h : Kept s) (hc : s.calls[c]? = some call) (ht : s.resume c call = some t) : Kept t := by
  unfold Transport.resume at ht
  split at ht
  next r hs hr =>
    cases ht
    exact h.leave hc (by rw [active, hs]; rfl) (by simp)
  next r hs hr =>
    cases ht
    exact h.leave hc (by rw [active, hs]; rfl) (by simp)
  next hs hr =>
    cases ht
    obtain ⟨slot, lock, free, fresh, known, future, once, up, cleanup, running⟩ := h
    constructor <;> grind [active, pending, sent]
  next => cases ht

theorem cancel (h : Kept s) (hc : s.calls[c]? = some call) (ht : s.cancel c call = some t) : Kept t := by
  unfold Transport.cancel at ht
  split at ht
  next hs =>
    cases ht
    obtain ⟨slot, lock, free, fresh, known, future, once, up, cleanup, running⟩ := h
    constructor <;> grind [active, pending, sent]
  next hs =>
    cases ht
    obtain ⟨slot, lock, free, fresh, known, future, once, up, cleanup, running⟩ := h
    constructor <;> grind [active, pending, sent]
  next hs =>
    cases ht
    exact h.leave hc (by rw [active, hs]; rfl) (by simp)
  next => cases ht

theorem resolve (h : Kept s) (r : Result) : Kept (s.resolve r) := by
  obtain ⟨slot, lock, free, fresh, known, future, once, up, cleanup, running⟩ := h
  unfold Transport.resolve
  split
  · constructor <;> grind [active, pending, sent, setResult]
  · constructor <;> assumption

theorem answer (h : Kept s) {ws : Socket} {rest : List Nat} (hws : s.ws = some ws) (hcom : ws.commands = c :: rest)
    (ok : Bool) : Kept { s with ws := some ⟨rest, ws.answers ++ [(c, ok)]⟩ } := by
  obtain ⟨slot, lock, free, fresh, known, future, once, up, cleanup, running⟩ := h
  constructor <;> grind [active, pending, sent]

theorem handle (h : Kept s) {ws : Socket} {a : Nat × Bool} {rest : List (Nat × Bool)} (hws : s.ws = some ws)
    (hans : ws.answers = a :: rest) : Kept ({ s with ws := some ⟨ws.commands, rest⟩ }.handle a) := by
  have hkept : Kept { s with ws := some ⟨ws.commands, rest⟩, handled := s.handled ++ [a] } := by
    obtain ⟨slot, lock, free, fresh, known, future, once, up, cleanup, running⟩ := h
    constructor <;> grind [active, pending, sent]
  unfold Transport.handle
  dsimp only
  split
  · exact hkept.resolve _
  · exact hkept

theorem connection (h : Kept s) {ws : Option Socket} (hws : ws = none ∨ ws = some {} ∨ ws = s.ws) {phase : Phase}
    {stop : Bool} {generation : Nat} {cleanup : Option Nat}
    (hup : ws ≠ none → phase ≠ .down ∧ phase ≠ .dialing)
    (hcle : ∀ g, cleanup = some g → g = generation ∧ stop = false ∧ phase ≠ .halting ∧ phase ≠ .listening)
    (hrun : phase ≠ .down → phase ≠ .halting → stop = false) :
    Kept { s with
      ws := ws
      phase := phase
      shouldStop := stop
      gatewayGeneration := generation
      lossCleanup := cleanup } := by
  obtain ⟨slot, lock, free, fresh, known, future, once, up, -, running⟩ := h
  constructor <;> grind [active, pending, sent]

theorem next (h : Kept s) {e : Event} (he : s.next e = some t) : Kept t := by
  have hcle := h.cleanup
  have hrun := h.running
  have hup := h.up
  cases e <;> simp only [Transport.next, bind_eq_some_iff, map_eq_some_iff, ite_none_right_eq_some,
    Option.some.injEq] at he
  case begins =>
    rw [← he]
    obtain ⟨slot, lock, free, fresh, known, future, once, up, cleanup, running⟩ := h
    constructor <;> grind [active, pending, sent]
  case acquires c raises =>
    obtain ⟨call, hc, ⟨hs, hl⟩, rfl⟩ := he
    exact h.acquire hc hs hl raises
  case resumes c =>
    obtain ⟨call, hc, ht⟩ := he
    exact h.resume hc ht
  case cancels c =>
    obtain ⟨call, hc, ht⟩ := he
    exact h.cancel hc ht
  case answers ok =>
    obtain ⟨ws, hws, he⟩ := he
    split at he
    next c rest hcom =>
      cases he
      exact h.answer hws hcom ok
    next => cases he
  case handles =>
    obtain ⟨ws, hws, he⟩ := he
    split at he
    next a rest hans =>
      split at he
      · cases he
        exact h.handle hws hans
      · cases he
    next => cases he
  case loses streamPending =>
    obtain ⟨hlis, rfl⟩ := he
    unfold lose
    rw [hrun (by rw [hlis]; decide) (by rw [hlis]; decide)]
    dsimp only
    refine h.connection (.inl rfl) ?_ ?_ ?_
    all_goals grind
  case graceExpires =>
    obtain ⟨g, hg, rfl⟩ := he
    have hkept : ∀ {s : Transport}, Kept s → Kept { s with lossCleanup := none } := fun h =>
      h.connection (.inr (.inr rfl)) h.up (by simp) h.running
    unfold Transport.cleanup
    split
    · exact hkept h
    · exact hkept (h.resolve _)
  case stopped =>
    obtain ⟨hhal, rfl⟩ := he
    have hkept := h.resolve (.error "Bridge stopped")
    refine hkept.connection (.inl rfl) (by simp) (fun g hg => ?_) (by simp)
    have hg' : s.lossCleanup = some g := by
      unfold Transport.resolve at hg
      split at hg <;> exact hg
    exact absurd hhal (hcle g hg').2.2.1
  all_goals
    obtain ⟨hpha, rfl⟩ := he
    refine h.connection ?_ ?_ ?_ ?_
    all_goals grind

end Kept

/-- A call gets the answer to its own command alone. One that waits for a result has its command or the answer on a
connection that is listened to or will be, or its end is still to be processed. A call that holds the lock is at work. -/
structure Settled (s : Transport) : Prop where
  own : ∀ (c : Nat) call, s.calls[c]? = some call → ∀ d,
    (call.stage = .returned (.result d) ∨ call.active = true ∧ call.future = some (.result d)) →
      d = c ∧ (c, true) ∈ s.handled
  ends : ∀ (c : Nat) call, s.calls[c]? = some call → call.pending = true →
    c ∈ s.sent ∨ s.lossCleanup.isSome = true ∨ s.phase = .halting
  failed : ∀ (c : Nat) call, s.calls[c]? = some call → (c, false) ∈ s.handled →
    call.pending = false ∧ ∀ d, call.stage ≠ .returned (.result d)
  free : ∀ c, s.commandLock = some c → ∃ call, s.calls[c]? = some call ∧ call.active = true

def waitsFor (s : Transport) (c : Nat) : Bool := s.calls[c]?.any Call.pending

/-- A result finds its own call in the slot, or none that waits; an error answers no call that waits; and a call that waits
was sent on the connection that is up, or has the cleanup before it. -/
def orderly (s : Transport) : Event → Bool
  | .handles => (s.ws.bind fun ws => ws.answers.head?).all fun answer =>
    if answer.2 then s.commandFuture.all fun c => !s.waitsFor c || c = answer.1 else !s.waitsFor answer.1
  | .listens => s.commandFuture.all fun c => !s.waitsFor c || c ∈ s.sent
  | .fails => s.commandFuture.all fun c => !s.waitsFor c || s.lossCleanup.isSome
  | _ => true

theorem Kept.answered_once (h : Kept s) (htrue : (c, true) ∈ s.handled) : (c, false) ∉ s.handled := by
  intro hfal
  have hnod := (List.nodup_append.mp h.once).2.1
  cases List.inj_on_of_nodup_map hnod htrue hfal rfl

theorem ws_of_sent (h : c ∈ s.sent) : s.ws ≠ none := by
  intro hnone
  rw [sent, hnone] at h
  cases h

namespace Settled

theorem resolve (h : Settled s) (hk : Kept s) (text : String) : Settled (s.resolve (.error text)) := by
  obtain ⟨own, ends, failed, free⟩ := h
  have hslot := hk.slot
  unfold Transport.resolve
  split
  · constructor <;> grind [active, pending, sent, setResult]
  · constructor <;> assumption

theorem resolve_idle (hk : Kept s) (r : Result) (hc : (s.resolve r).calls[c]? = some call) : call.pending = false := by
  have hslot := hk.slot
  unfold Transport.resolve at hc
  split at hc <;> grind [pending, setResult]

theorem of_idle (h : Settled s) (hidle : ∀ (c : Nat) call, s.calls[c]? = some call → call.pending = false)
    (ws : Option Socket) (phase : Phase) (cleanup : Option Nat) :
    Settled { s with ws := ws, phase := phase, lossCleanup := cleanup } :=
  { h with ends := fun c call hc hp => by cases (hidle c call hc).symm.trans hp }

theorem leave (h : Settled s) (hk : Kept s) (hc : s.calls[c]? = some call) (hact : call.active = true) {stage : Stage}
    (hstage : stage = .cancelled ∨ stage = .raised ∨ ∃ r, stage = .returned r ∧ call.future = some r) :
    Settled (s.leave c call stage) := by
  have hact' : active { call with stage := stage } = false := by
    rcases hstage with rfl | rfl | ⟨r, rfl, -⟩ <;> rfl
  obtain ⟨own, ends, failed, free⟩ := h
  have hlock := hk.lock
  have honce := fun d => hk.answered_once (c := d)
  unfold Transport.leave
  constructor <;> grind [pending, sent]

theorem next (h : Settled s) (hk : Kept s) {e : Event} (hqui : e ≠ .handles ∧ e ≠ .listens ∧ e ≠ .fails)
    (he : s.next e = some t) : Settled t := by
  have hfre := hk.fresh
  have hlock := hk.lock
  have hslot := hk.slot
  cases e <;> simp only [Transport.next, bind_eq_some_iff, map_eq_some_iff, ite_none_right_eq_some,
    Option.some.injEq] at he
  case handles | listens | fails => simp at hqui
  case begins =>
    rw [← he]
    obtain ⟨own, ends, failed, free⟩ := h
    constructor <;> grind [active, pending, sent]
  case acquires c raises =>
    obtain ⟨call, hc, ⟨hs, hl⟩, rfl⟩ := he
    obtain ⟨own, ends, failed, free⟩ := h
    unfold acquire
    split
    · constructor <;> grind [active, pending, sent]
    · unfold Transport.leave
      constructor <;> grind [active, pending, sent]
  case resumes c =>
    obtain ⟨call, hc, ht⟩ := he
    unfold resume at ht
    split at ht
    next r hs hr =>
      cases ht
      exact h.leave hk hc (by rw [active, hs]; rfl) (.inr (.inr ⟨r, rfl, hr⟩))
    next r hs hr =>
      cases ht
      exact h.leave hk hc (by rw [active, hs]; rfl) (.inr (.inr ⟨r, rfl, hr⟩))
    next =>
      cases ht
      obtain ⟨own, ends, failed, free⟩ := h
      constructor <;> grind [active, pending, sent]
    next => cases ht
  case cancels c =>
    obtain ⟨call, hc, ht⟩ := he
    unfold cancel at ht
    split at ht
    next hs =>
      cases ht
      obtain ⟨own, ends, failed, free⟩ := h
      constructor <;> grind [active, pending, sent]
    next hs =>
      cases ht
      obtain ⟨own, ends, failed, free⟩ := h
      constructor <;> grind [active, pending, sent]
    next hs =>
      cases ht
      exact h.leave hk hc (by rw [active, hs]; rfl) (.inl rfl)
    next => cases ht
  case answers ok =>
    obtain ⟨ws, hws, he⟩ := he
    split at he
    next c rest hcom =>
      cases he
      obtain ⟨own, ends, failed, free⟩ := h
      constructor <;> grind [sent]
    next => cases he
  case loses streamPending =>
    obtain ⟨hlis, rfl⟩ := he
    have hrun := hk.running (by rw [hlis]; decide) (by rw [hlis]; decide)
    unfold lose
    rw [hrun]
    refine { h with ends := fun c call hc hp => .inr (.inl ?_) }
    have hwai := hslot c call hc hp
    simp [hwai]
  case graceExpires =>
    obtain ⟨g, hg, rfl⟩ := he
    obtain ⟨hgen, hstop, -⟩ := hk.cleanup g hg
    unfold cleanup
    rw [hgen, hstop]
    simp only [ne_eq, not_true_eq_false, decide_false, Bool.or_false, Bool.false_eq_true, ↓reduceIte]
    exact (h.resolve hk _).of_idle (fun _ _ => resolve_idle hk _) _ _ _
  case dials =>
    obtain ⟨hdown, rfl⟩ := he
    refine { h with ends := fun c call hc hp => ?_ }
    rcases h.ends c call hc hp with hsent | hcle | hhal
    · exact absurd hdown (hk.up (ws_of_sent hsent)).1
    · exact .inr (.inl hcle)
    · cases hdown.symm.trans hhal
  case opens =>
    obtain ⟨hdia, rfl⟩ := he
    refine { h with ends := fun c call hc hp => ?_ }
    rcases h.ends c call hc hp with hsent | hcle | hhal
    · exact absurd hdia (hk.up (ws_of_sent hsent)).2
    · exact .inr (.inl hcle)
    · cases hdia.symm.trans hhal
  case stops =>
    obtain ⟨-, rfl⟩ := he
    exact { h with ends := fun _ _ _ _ => .inr (.inr rfl) }
  case stopped =>
    obtain ⟨-, rfl⟩ := he
    exact (h.resolve hk _).of_idle (fun _ _ => resolve_idle hk _) _ _ _

end Settled

theorem all_waiting (hk : Kept s) (p : Nat → Bool) : (s.commandFuture.all fun c => !s.waitsFor c || p c) = true ↔
    ∀ (c : Nat) call, s.calls[c]? = some call → call.pending = true → p c = true := by
  constructor
  · intro hall c call hc hp
    rw [hk.slot c call hc hp] at hall
    simpa [waitsFor, hc, hp] using hall
  intro hall
  rcases hslot : s.commandFuture with _ | c
  · rfl
  rcases hc : s.calls[c]? with _ | call
  · simp [waitsFor, hc]
  · have hp := hall c call hc
    cases hpen : call.pending <;> simp_all [waitsFor]

theorem Settled.listen_iff (h : Settled s) (hk : Kept s) : Settled { s with
      phase := .listening
      gatewayGeneration := s.gatewayGeneration + 1
      lossCleanup := none } ↔ s.orderly .listens = true := by
  refine Iff.trans ?_ (all_waiting hk fun c => c ∈ s.sent).symm
  constructor
  · intro ht c call hc hp
    rcases ht.ends c call hc hp with hmem | hf | hf
    · exact decide_eq_true hmem
    · cases hf
    · cases hf
  · intro hall
    exact { h with ends := fun c call hc hp => .inl (of_decide_eq_true (hall c call hc hp)) }

theorem Settled.fail_iff (h : Settled s) (hk : Kept s) :
    Settled { s with phase := .down, ws := none } ↔ s.orderly .fails = true := by
  refine Iff.trans ?_ (all_waiting hk fun _ => s.lossCleanup.isSome).symm
  constructor
  · intro ht c call hc hp
    have hends := ht.ends c call hc hp
    simpa [sent] using hends
  · intro hall
    exact { h with ends := fun c call hc hp => .inr (.inl (hall c call hc hp)) }

theorem Settled.handle_iff (h : Settled s) (hk : Kept s) {ws : Socket} {rest : List (Nat × Bool)} {ok : Bool}
    (hws : s.ws = some ws) (hans : ws.answers = (c, ok) :: rest) :
    Settled ({ s with ws := some ⟨ws.commands, rest⟩ }.handle (c, ok)) ↔ s.orderly .handles = true := by
  have hslot := hk.slot
  have hsent : s.sent = ws.commands ++ c :: rest.map Prod.fst := by
    rw [sent, hws]
    simp [hans]
  have hnew : ∀ b, (c, b) ∉ s.handled := by
    intro b hmem
    exact (List.nodup_append.mp hk.once).2.2 c (by rw [hsent]; simp) c (List.mem_map.mpr ⟨_, hmem, rfl⟩) rfl
  unfold handle orderly
  rw [hws]
  simp only [bind_some, hans, List.head?_cons, all_some]
  obtain ⟨own, ends, failed, free⟩ := id h
  cases ok with
  | true =>
    refine Iff.trans ?_ (all_waiting hk fun d => d = c).symm
    unfold Transport.resolve
    constructor
    · intro ht d call hd hp
      have hown := ht.own d (setResult (.result c) call)
      rw [hslot d call hd hp] at hown
      grind [setResult, pending, active]
    intro hall
    dsimp only
    clear hsent hnew
    split
    · constructor <;> grind [active, pending, setResult]
    · constructor <;> grind [sent]
  | false =>
    constructor
    · intro ht
      have hfai := ht.failed c
      unfold waitsFor
      grind
    intro hnot
    unfold waitsFor at hnot
    constructor <;> grind [sent]

/-- A step keeps all settled just when it is orderly. -/
theorem Settled.next_iff (h : Settled s) (hk : Kept s) {e : Event} (he : s.next e = some t) :
    Settled t ↔ s.orderly e = true := by
  by_cases hqui : e ≠ .handles ∧ e ≠ .listens ∧ e ≠ .fails
  · refine iff_of_true (h.next hk hqui he) ?_
    cases e <;> simp_all [orderly]
  cases e <;> simp only [Transport.next, bind_eq_some_iff, ite_none_right_eq_some,
    Option.some.injEq] at he
  case handles =>
    obtain ⟨ws, hws, he⟩ := he
    split at he
    next a rest hans =>
      split at he
      · cases he
        exact h.handle_iff hk hws hans
      · cases he
    next => cases he
  case listens =>
    obtain ⟨-, rfl⟩ := he
    exact h.listen_iff hk
  case fails =>
    obtain ⟨-, rfl⟩ := he
    exact h.fail_iff hk
  all_goals simp at hqui

/-- In a run over any connections the commands are settled just when each step is orderly. -/
theorem commands_settled_iff {es : List Event} (h : Runs.run Transport.next {} es = some s) :
    (∀ pre post t, es = pre ++ post → Runs.run Transport.next {} pre = some t → Settled t) ↔
      Runs.Meets Transport.next (fun s e => s.orderly e = true) {} es := by
  refine Runs.always_iff_meets (J := Kept) (fun _ _ _ hk he => hk.next he)
    (fun _ _ _ hk hs he => hs.next_iff hk he) ?_ ?_ h
  · constructor <;> simp [sent]
  · constructor <;> simp

def connects : List Event := [.dials, .opens, .listens]

/-- A command is answered; the next loses its connection, whose grace period ends. -/
def lostRun : List Event :=
  connects ++ [.begins, .acquires 0 false, .resumes 0, .answers true, .handles, .resumes 0, .begins, .acquires 1 false,
    .loses false, .graceExpires, .resumes 1] ++ connects ++ [.begins, .acquires 2 false, .cancels 2, .stops, .stopped]

theorem lostRun_settled : ∃ s, Runs.run Transport.next {} lostRun = some s ∧
    ∀ pre post t, lostRun = pre ++ post → Runs.run Transport.next {} pre = some t → Settled t := by
  have hrun : (Runs.run next {} lostRun).isSome = true := by decide +kernel
  have hall : Runs.all (fun s e => s.orderly e) next {} lostRun = true := by decide +kernel
  obtain ⟨s, hs⟩ := isSome_iff_exists.mp hrun
  exact ⟨s, hs, (commands_settled_iff hs).mpr (Runs.meets_of_all (fun _ _ h => h) hall)⟩

/-- A command is cancelled before its answer comes, and the next call returns that answer. -/
theorem cancelled_mixes_up : ¬∀ es s, Runs.run Transport.next {} es = some s → Settled s := by
  intro hcla
  have hrun : (Runs.run next {} (connects ++ [.begins, .acquires 0 false, .resumes 0, .answers true, .cancels 0,
      .begins, .acquires 1 false, .handles, .resumes 1])).any
      (fun s => s.calls[1]?.map stage = some (.returned (.result 0))) = true := by
    decide +kernel
  obtain ⟨s, hs, hend⟩ := (any_eq_true _ _).mp hrun
  obtain ⟨call, hc, hstage⟩ := map_eq_some_iff.mp (of_decide_eq_true hend)
  cases ((hcla _ s hs).own 1 call hc 0 (.inl hstage)).1

end Transport

end OpenAgent.Channels.Commands
