import OpenAgent.Lib.Laws
import OpenAgent.McpApps.Session

namespace OpenAgent.McpApps

open Py Laws List Option

def Act.requests (key : Json) : Act → Bool
  | .request k => k = key
  | _ => false

def Act.answers (key : Json) : Act → Bool
  | .result k _ _ | .error k _ _ => k = key
  | _ => false

def Act.drops (key : Json) : Act → Bool
  | .dropped k => k = key
  | _ => false

def Closed (trace : List Act) : Prop := ∃ cause, .closed cause ∈ trace

def Ended (trace : List Act) : Prop := Closed trace ∨ .disposed ∈ trace

def InputSent (trace : List Act) : Prop := ∃ n arguments, .notice n (.toolInput arguments) ∈ trace

def CancelSent (trace : List Act) : Prop := ∃ n reason, .notice n (.toolCancelled reason) ∈ trace

def InputEnded (trace : List Act) : Prop := InputSent trace ∨ .inputEnded ∈ trace

def noticeLaw (trace : List Act) : Notice → Prop
  | .toolInput _ | .toolInputPartial _ => ¬InputSent trace
  | .toolResult _ => InputEnded trace ∧ ¬CancelSent trace
  | .toolCancelled _ => InputEnded trace
  | .hostContext n _ => ∀ m i context, .notice i (.hostContext m context) ∈ trace → m < n

def law (trace : List Act) : Act → Prop
  | .ready => ∃ key value, .result key "ui/initialize" value ∈ trace
  | .dispatched key _ => (∀ name, .dispatched key name ∉ trace) ∧ ¬Closed trace
  | .logged | .teardown => ¬Closed trace
  | .granted _ _ => ¬Ended trace
  | .result key method _ => ¬Closed trace ∧ trace.countP (Act.answers key) < trace.countP (Act.requests key) ∧
      .granted (.request key) (resultOf method) ∈ trace
  | .error key _ _ => ¬Closed trace ∧ trace.countP (Act.answers key) < trace.countP (Act.requests key)
  | .dropped _ => Ended trace
  | .notice n notice => ¬Closed trace ∧ .granted (.wait n) (publishOf notice.method) ∈ trace ∧ noticeLaw trace notice
  | .closed cause => cause ≠ .cancelled
  | .request _ | .inputEnded | .disposed => True

def Task.grant (task : Task) : Option Operation :=
  match task.stage with
  | .admission .passed => some (admitOf task.method)
  | .publish .passed _ => some (publishOf task.method)
  | _ => none

def Task.undispatched (task : Task) : Bool :=
  match task.stage with
  | .admission _ => true
  | _ => false

def Task.dispatches (task : Task) : Bool :=
  match task.stage with
  | .running _ _ | .ran _ | .publish _ _ => true
  | _ => false

structure Phase (s : Session) : Prop where
  closed : s.state = .closed ↔ Closed s.trace
  ended : s.aborted = true ↔ Ended s.trace
  aborted : s.aborted = true → ∀ key task, s.pending.get? key = some task → task.aborted = true

structure Counted (s : Session) : Prop where
  counts : ∀ key, s.trace.countP (Act.requests key) = s.trace.countP (Act.answers key) +
    s.trace.countP (Act.drops key) + (if (s.pending.get? key).isSome then 1 else 0)
  seen : ∀ key, (s.pending.get? key).isSome → key ∈ s.seen
  dispatched : ∀ key name, .dispatched key name ∈ s.trace → key ∈ s.seen
  undispatched : ∀ key task, s.pending.get? key = some task → task.undispatched = true →
    ∀ name, .dispatched key name ∉ s.trace
  granted : ∀ key task operation, s.pending.get? key = some task → task.grant = some operation →
    .granted (.request key) operation ∈ s.trace
  methods : ∀ key task, s.pending.get? key = some task → task.dispatches = true → task.method ≠ "ui/initialize"

/-- What `flushNow` awaits where something of the kind is under way. -/
def awaits (s : Session) (n : Nat) : Notice → Prop
  | .toolInput _ => s.flushing = some (.publishing n true)
  | .toolResult _ => s.flushing = some (.publishing n false) ∧ ¬CancelSent s.trace
  | .toolCancelled _ => s.flushing = some (.publishing n false) ∧ s.toolCancelled = true
  | .toolInputPartial _ | .hostContext _ _ => True

structure Notices (s : Session) : Prop where
  fresh : ∀ n, s.waitCount ≤ n → s.waits.get? n = none
  granted : ∀ n purpose, s.waits.get? n = some ⟨purpose, .passed⟩ → .granted (.wait n) purpose.operation ∈ s.trace
  awaited : ∀ n notice auth, s.waits.get? n = some ⟨.publish notice, auth⟩ → awaits s n notice
  sending : ∀ n, s.flushing = some (.publishing n true) → s.inputSent = true ∧ ¬InputSent s.trace
  sent : InputSent s.trace → s.inputSent = true
  inputEnded : s.inputSent = true → InputEnded s.trace ∨ s.state = .closed ∨ ∃ n, s.flushing = some (.publishing n true)
  last : (∃ n, s.flushing = some (.publishing n false)) → InputEnded s.trace ∨ s.state = .closed
  cancelSent : CancelSent s.trace → s.toolCancelled = true
  cancelled : s.toolCancelled = true → s.result = none
  noted : s.cancelled.isSome = true → s.toolCancelled = true

structure Standing (s : Session) : Prop where
  phase : Phase s
  counted : Counted s
  notices : Notices s

def Keeps (s t : Session) (condition : Prop) : Prop :=
  Standing t ∧ (Lawful law t.trace ↔ Lawful law s.trace ∧ condition)

variable {s t : Session}

theorem Keeps.trans {u : Session} {c d : Prop} (h : Keeps s t c) (k : Keeps t u d) : Keeps s u (c ∧ d) :=
  ⟨k.1, by rw [k.2, h.2, and_assoc]⟩

theorem Keeps.congr {c d : Prop} (h : Keeps s t c) (hcd : c ↔ d) : Keeps s t d :=
  ⟨h.1, by rw [h.2, hcd]⟩

theorem Standing.quiet (h : Standing t) (htra : t.trace = s.trace) : Keeps s t True :=
  ⟨h, by rw [htra, and_true]⟩

theorem Standing.refl (h : Standing s) : Keeps s s True := h.quiet rfl

theorem Standing.acts (h : Standing t) {a : Act} (htra : t.trace = s.trace ++ [a]) : Keeps s t (law s.trace a) :=
  ⟨h, by rw [htra, lawful_concat]⟩

variable {trace : List Act}

theorem not_closed_of_ended (h : ¬Ended trace) : ¬Closed trace := fun hc => h (.inl hc)

theorem Phase.not_closed (h : Phase s) (hs : s.state ≠ .closed) : ¬Closed s.trace :=
  fun hc => hs (h.closed.mpr hc)

theorem Phase.not_ended (h : Phase s) (hs : s.aborted = false) : ¬Ended s.trace := by
  intro he
  rw [h.ended.mpr he] at hs
  cases hs

theorem aborted_of_closed (h : s.state = .closed) : s.aborted = true := by
  simp [Session.aborted, h]

def Act.goesOn : Act → Bool
  | .closed _ | .disposed => false
  | _ => true

def Act.foreign : Act → Bool
  | .request _ | .dispatched _ _ | .result _ _ _ | .error _ _ _ | .dropped _ => false
  | _ => true

def Act.unsent : Act → Bool
  | .notice _ _ => false
  | _ => true

variable {acts : List Act}

theorem closed_append (h : ∀ a ∈ acts, a.goesOn = true) : Closed (trace ++ acts) ↔ Closed trace := by
  constructor
  · rintro ⟨cause, hc⟩
    rcases mem_append.mp hc with hc | hc
    · exact ⟨cause, hc⟩
    · cases h _ hc
  · rintro ⟨cause, hc⟩
    exact ⟨cause, mem_append_left _ hc⟩

theorem ended_append (h : ∀ a ∈ acts, a.goesOn = true) : Ended (trace ++ acts) ↔ Ended trace := by
  refine or_congr (closed_append h) ⟨fun hd => ?_, fun hd => mem_append_left _ hd⟩
  rcases mem_append.mp hd with hd | hd
  · exact hd
  · cases h _ hd

theorem inputSent_append (h : ∀ a ∈ acts, a.unsent = true) : InputSent (trace ++ acts) ↔ InputSent trace := by
  constructor
  · rintro ⟨n, arguments, hm⟩
    rcases mem_append.mp hm with hm | hm
    · exact ⟨n, arguments, hm⟩
    · cases h _ hm
  · rintro ⟨n, arguments, hm⟩
    exact ⟨n, arguments, mem_append_left _ hm⟩

theorem cancelSent_append (h : ∀ a ∈ acts, a.unsent = true) : CancelSent (trace ++ acts) ↔ CancelSent trace := by
  constructor
  · rintro ⟨n, reason, hm⟩
    rcases mem_append.mp hm with hm | hm
    · exact ⟨n, reason, hm⟩
    · cases h _ hm
  · rintro ⟨n, reason, hm⟩
    exact ⟨n, reason, mem_append_left _ hm⟩

theorem InputEnded.append (h : InputEnded trace) (acts : List Act) : InputEnded (trace ++ acts) := by
  rcases h with ⟨n, arguments, hm⟩ | hm
  · exact .inl ⟨n, arguments, mem_append_left _ hm⟩
  · exact .inr (mem_append_left _ hm)

theorem Phase.frame (h : Phase s) (htra : t.trace = s.trace ++ acts)
    (hacts : ∀ a ∈ acts, a.goesOn = true) (hclo : t.state = .closed ↔ s.state = .closed)
    (habo : t.aborted = s.aborted)
    (hpen : s.aborted = true → ∀ key task, t.pending.get? key = some task → task.aborted = true) : Phase t := by
  refine ⟨?_, ?_, ?_⟩
  · rw [hclo, htra, closed_append hacts]
    exact h.closed
  · rw [habo, htra, ended_append hacts]
    exact h.ended
  · rw [habo]
    exact hpen

def Tame (f : Json → Task → Task) : Prop :=
  ∀ key task, (∀ operation, (f key task).grant = some operation → task.grant = some operation) ∧
    ((f key task).undispatched = true → task.undispatched = true) ∧
    (task.aborted = true → (f key task).aborted = true) ∧
    ((f key task).dispatches = true → task.dispatches = true) ∧ (f key task).method = task.method

theorem countP_foreign {p : Act → Bool} (h : ∀ a ∈ acts, p a = false) : (trace ++ acts).countP p = trace.countP p := by
  have hzero : acts.countP p = 0 := countP_eq_zero.mpr fun a ha => by simp [h a ha]
  rw [countP_append, hzero, Nat.add_zero]

theorem Counted.frame (h : Counted s) (htra : t.trace = s.trace ++ acts)
    (hacts : ∀ a ∈ acts, a.foreign = true) {f : Json → Task → Task} (hf : Tame f)
    (hpen : ∀ key, t.pending.get? key = (s.pending.get? key).map (f key)) (hseen : t.seen = s.seen) :
    Counted t := by
  have hsome : ∀ key, (t.pending.get? key).isSome = (s.pending.get? key).isSome := by
    intro key
    rw [hpen, isSome_map]
  have hdis : ∀ key name, .dispatched key name ∈ t.trace → .dispatched key name ∈ s.trace := by
    intro key name hm
    rw [htra] at hm
    rcases mem_append.mp hm with hm | hm
    · exact hm
    · cases hacts _ hm
  refine ⟨?_, ?_, ?_, ?_, ?_, ?_⟩
  · intro key
    rw [htra, hsome, countP_foreign, countP_foreign, countP_foreign]
    · exact h.counts key
    all_goals
      intro a ha
      have hfor := hacts a ha
      cases a with
      | request | dispatched | result | error | dropped => cases hfor
      | _ => rfl
  · intro key hk
    rw [hseen]
    exact h.seen key (hsome key ▸ hk)
  · intro key name hm
    rw [hseen]
    exact h.dispatched key name (hdis key name hm)
  · intro key task hk hu name hm
    rw [hpen] at hk
    obtain ⟨old, hold, rfl⟩ := map_eq_some_iff.mp hk
    exact h.undispatched key old hold ((hf key old).2.1 hu) name (hdis key name hm)
  · intro key task operation hk hg
    rw [hpen] at hk
    obtain ⟨old, hold, rfl⟩ := map_eq_some_iff.mp hk
    rw [htra]
    exact mem_append_left _ (h.granted key old operation hold ((hf key old).1 operation hg))
  · intro key task hk hd
    rw [hpen] at hk
    obtain ⟨old, hold, rfl⟩ := map_eq_some_iff.mp hk
    rw [(hf key old).2.2.2.2]
    exact h.methods key old hold ((hf key old).2.2.2.1 hd)

theorem tame_id : Tame fun _ task => task := fun _ _ => ⟨fun _ h => h, id, id, id, rfl⟩

theorem Notices.frame (h : Notices s) (htra : t.trace = s.trace ++ acts) (hacts : ∀ a ∈ acts, a.unsent = true)
    (hwai : t.waits = s.waits ∨ t.waits = s.waits.mapEntries fun _ wait => { wait with auth := wait.auth.abort })
    (hcou : t.waitCount = s.waitCount) (hflu : t.flushing = s.flushing) (hinp : t.inputSent = s.inputSent)
    (hflag : t.toolCancelled = s.toolCancelled) (hcan : t.cancelled = s.cancelled)
    (hresult : t.result = s.result ∨ t.result = none) (hclo : s.state = .closed → t.state = .closed) :
    Notices t := by
  have hwait : ∀ n purpose auth, t.waits.get? n = some ⟨purpose, auth⟩ →
      ∃ old, s.waits.get? n = some ⟨purpose, old⟩ ∧ (auth = .passed → old = .passed) := by
    intro n purpose auth hn
    rcases hwai with heq | heq
    · rw [heq] at hn
      exact ⟨auth, hn, id⟩
    rw [heq, Dict.get?_mapEntries] at hn
    obtain ⟨⟨old, a⟩, hold, hmap⟩ := map_eq_some_iff.mp hn
    cases hmap
    refine ⟨a, hold, fun hp => ?_⟩
    cases a with
    | asked => cases hp
    | _ => exact hp
  refine ⟨?_, ?_, ?_, ?_, ?_, ?_, ?_, ?_, ?_, ?_⟩
  · intro n hn
    have hnone := h.fresh n (hcou ▸ hn)
    rcases hwai with heq | heq
    · rw [heq]
      exact hnone
    · rw [heq, Dict.get?_mapEntries, hnone]
      rfl
  · intro n purpose hn
    obtain ⟨old, hold, hp⟩ := hwait n purpose .passed hn
    rw [htra]
    rw [hp rfl] at hold
    exact mem_append_left _ (h.granted n purpose hold)
  · intro n notice auth hn
    obtain ⟨old, hold, -⟩ := hwait n _ auth hn
    have hawa := h.awaited n notice old hold
    cases notice with
    | toolInput => exact hflu.trans hawa
    | toolResult => exact ⟨hflu.trans hawa.1, by rw [htra, cancelSent_append hacts]; exact hawa.2⟩
    | toolCancelled => exact ⟨hflu.trans hawa.1, hflag.trans hawa.2⟩
    | toolInputPartial | hostContext => exact trivial
  · intro n hn
    rw [hinp, htra, inputSent_append hacts]
    exact h.sending n (hflu.symm.trans hn)
  · rw [htra, inputSent_append hacts, hinp]
    exact h.sent
  · intro hs
    rw [hinp] at hs
    rw [htra, hflu]
    rcases h.inputEnded hs with hend | hc | hf
    · exact .inl (hend.append acts)
    · exact .inr (.inl (hclo hc))
    · exact .inr (.inr hf)
  · intro hl
    rw [hflu] at hl
    rw [htra]
    exact (h.last hl).imp (fun he => he.append acts) hclo
  · rw [htra, cancelSent_append hacts, hflag]
    exact h.cancelSent
  · intro hc
    rcases hresult with heq | heq
    · exact heq.trans (h.cancelled (hflag.symm.trans hc))
    · exact heq
  · rw [hcan, hflag]
    exact h.noted

end OpenAgent.McpApps
