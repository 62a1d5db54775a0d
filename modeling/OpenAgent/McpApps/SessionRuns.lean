import OpenAgent.McpApps.SessionNotices
import OpenAgent.McpApps.SessionSilence

namespace OpenAgent.McpApps

open Py Laws

/-- The result of an authorized `ui/initialize` was sent. -/
def InitializeSent (trace : List Act) : Prop := ∃ key value, .result key "ui/initialize" value ∈ trace

def Act.initialized : Act → Bool
  | .result _ "ui/initialize" _ => true
  | _ => false

def Act.isInput : Act → Bool
  | .notice _ (.toolInput _) => true
  | _ => false

def Act.isCancellation : Act → Bool
  | .notice _ (.toolCancelled _) => true
  | _ => false

def Act.endsInput : Act → Bool
  | .inputEnded => true
  | _ => false

def Act.before (n : Nat) : Act → Bool
  | .notice _ (.hostContext m _) => m < n
  | _ => true

instance (trace : List Act) : Decidable (InitializeSent trace) :=
  decidable_of_iff (trace.any Act.initialized = true) <| by
    rw [List.any_eq_true]
    constructor
    · rintro ⟨a, ha, hi⟩
      unfold Act.initialized at hi
      split at hi
      · exact ⟨_, _, ha⟩
      · cases hi
    · rintro ⟨key, value, hm⟩
      exact ⟨_, hm, rfl⟩

instance (trace : List Act) : Decidable (InputSent trace) :=
  decidable_of_iff (trace.any Act.isInput = true) <| by
    rw [List.any_eq_true]
    constructor
    · rintro ⟨a, ha, hi⟩
      unfold Act.isInput at hi
      split at hi
      · exact ⟨_, _, ha⟩
      · cases hi
    · rintro ⟨n, arguments, hm⟩
      exact ⟨_, hm, rfl⟩

instance (trace : List Act) : Decidable (CancelSent trace) :=
  decidable_of_iff (trace.any Act.isCancellation = true) <| by
    rw [List.any_eq_true]
    constructor
    · rintro ⟨a, ha, hi⟩
      unfold Act.isCancellation at hi
      split at hi
      · exact ⟨_, _, ha⟩
      · cases hi
    · rintro ⟨n, reason, hm⟩
      exact ⟨_, hm, rfl⟩

instance (trace : List Act) : Decidable (InputEnded trace) :=
  decidable_of_iff (InputSent trace ∨ trace.any Act.endsInput = true) <| by
    refine or_congr Iff.rfl ?_
    rw [List.any_eq_true]
    constructor
    · rintro ⟨a, ha, hi⟩
      unfold Act.endsInput at hi
      split at hi
      · exact ha
      · cases hi
    · exact fun hm => ⟨_, hm, rfl⟩

instance (trace : List Act) (notice : Notice) : Decidable (noticeLaw trace notice) :=
  match notice with
  | .toolInput _ | .toolInputPartial _ => inferInstanceAs (Decidable (¬InputSent trace))
  | .toolResult _ => inferInstanceAs (Decidable (InputEnded trace ∧ ¬CancelSent trace))
  | .toolCancelled _ => inferInstanceAs (Decidable (InputEnded trace))
  | .hostContext n _ => decidable_of_iff (trace.all (Act.before n) = true) <| by
      rw [List.all_eq_true]
      constructor
      · exact fun h m i context hm => of_decide_eq_true (h _ hm)
      intro h a ha
      unfold Act.before
      split
      · exact decide_eq_true (h _ _ _ ha)
      · rfl

def Act.isReady : Act → Bool
  | .ready => true
  | _ => false

namespace Session

variable (o : Options)

/-- A frame that `receive` takes for `ui/notifications/initialized`. -/
def initializedFrame (frame : Json) : Bool :=
  fits o.platform frame MiB && frame.field "jsonrpc" = .str "2.0" &&
    frame.field "method" = .str "ui/notifications/initialized" && optionally frame "params" Json.isObj &&
    !frame.has "id"

/-- What makes a step lawful: the guest is initialized after the result, a request goes on as it was when its
authorization passed, and what bypasses the queue comes in its order. -/
def Orderly (s : Session) : Event → Prop
  | .frame (some frame) => initializedFrame o frame = true → s.state = .initializing → InitializeSent s.trace
  | .resumes (.request key) =>
    match s.pending.get? key with
    | some task => requestGoesOn o s task
    | none => True
  | .resumes (.wait n) =>
    match s.waits.get? n with
    | some wait => waitGoesOn o s wait
    | none => True
  | _ => True

instance (s : Session) (task : Task) : Decidable (requestGoesOn o s task) := by
  unfold requestGoesOn
  split
  · exact inferInstance
  · exact inferInstance
  · exact inferInstance
  · exact inferInstance
  · exact inferInstance

instance (s : Session) (wait : Wait) : Decidable (waitGoesOn o s wait) := by
  unfold waitGoesOn
  split
  · exact inferInstance
  · exact inferInstance
  · exact inferInstance

instance (s : Session) (e : Event) : Decidable (Orderly o s e) := by
  unfold Orderly
  split
  · exact inferInstance
  · split
    · exact inferInstance
    · exact inferInstance
  · split
    · exact inferInstance
    · exact inferInstance
  · exact inferInstance

variable {o}
variable {s : Session}

theorem ready_keeps (h : Standing s) (hs : s.state = .initializing) :
    Keeps s (({ s with state := .ready }.act .ready).flush) (InitializeSent s.trace) := by
  have hact : ∀ {p : Act → Prop}, p .ready → ∀ a ∈ [Act.ready], p a := by
    intro p hp a ha
    rw [List.mem_singleton.mp ha]
    exact hp
  refine Standing.acts (a := .ready) ⟨?_, ?_, ?_⟩ rfl
  · refine h.phase.frame (t := ({ s with state := .ready }.act .ready).flush) rfl (hact rfl) ?_ ?_ h.phase.aborted
    · rw [hs]
      exact iff_of_false (show State.ready ≠ .closed by decide) (by decide)
    · unfold aborted
      rw [hs]
      rfl
  · exact h.counted.frame (t := ({ s with state := .ready }.act .ready).flush) rfl (hact rfl) tame_id
      (fun key => by simp [flush, act]) rfl
  refine h.notices.frame (t := ({ s with state := .ready }.act .ready).flush) rfl (hact rfl) (.inl rfl) rfl rfl rfl
    rfl rfl (.inl rfl) fun hc => ?_
  rw [hs] at hc
  cases hc

theorem cancelled_keeps (h : Standing s) (key : Json) :
    Keeps s { s with pending := s.pending.mapEntries fun k task => if k = key then task.abort else task } True := by
  have habo := abort_standing h fun k => decide (k = key)
  simp only [decide_eq_true_eq] at habo
  exact habo.quiet rfl

theorem receiveNotification_keeps (h : Standing s) (method : String) (params : Json) :
    Keeps s (s.receiveNotification o method params)
      (method = "ui/notifications/initialized" → s.state = .initializing → InitializeSent s.trace) := by
  unfold receiveNotification
  by_cases hinit : method = "ui/notifications/initialized"
  · rw [if_pos hinit]
    by_cases hstate : s.state = .initializing
    · rw [if_neg (not_not.mpr hstate)]
      exact (ready_keeps h hstate).congr ⟨fun hi _ _ => hi, fun hi => hi hinit hstate⟩
    · rw [if_pos hstate]
      exact (revoke_keeps_of h (by decide)).congr (iff_of_true trivial fun _ hs => absurd hs hstate)
  rw [if_neg hinit]
  refine Keeps.congr (c := True) ?_ (iff_of_true trivial fun hi => absurd hi hinit)
  split
  · exact h.refl
  split
  · exact cancelled_keeps h _
  split
  · split
    · exact start_keeps h fun notice hn => by cases hn
    · exact h.refl
  split
  · exact start_keeps h fun notice hn => by cases hn
  · exact h.refl

theorem receive_keeps (h : Standing s) (raw : Option Json) : Keeps s (s.receive o raw) (Orderly o s (.frame raw)) := by
  have hinv : Keeps s (s.revoke .invalid) True := revoke_keeps_of h (by decide)
  unfold receive
  by_cases hend : (s.state = .closed || s.state = .closing) = true
  · rw [if_pos hend]
    refine h.refl.congr (iff_of_true trivial ?_)
    cases raw with
    | none => exact trivial
    | some frame =>
      intro _ hs
      rw [hs] at hend
      cases hend
  rw [if_neg hend]
  have hopen : s.aborted = false := by
    rw [Bool.or_comm] at hend
    exact Bool.not_eq_true _ ▸ hend
  cases raw with
  | none => exact hinv
  | some frame =>
    dsimp only
    by_cases hfits : (!fits o.platform frame MiB) = true
    · rw [if_pos hfits]
      refine hinv.congr (iff_of_true trivial fun hf => ?_)
      simp only [Bool.not_eq_true'] at hfits
      simp [initializedFrame, hfits] at hf
    rw [if_neg hfits]
    split
    · rename_i method hver hmet
      by_cases hpar : (!optionally frame "params" Json.isObj) = true
      · rw [if_pos hpar]
        refine hinv.congr (iff_of_true trivial fun hf => ?_)
        simp only [Bool.not_eq_true'] at hpar
        simp [initializedFrame, hpar] at hf
      rw [if_neg hpar]
      by_cases hid : frame.has "id" = true
      · rw [if_pos hid]
        refine (receiveRequest_keeps h hopen _ _ _).congr (iff_of_true trivial fun hf => ?_)
        simp [initializedFrame, hid] at hf
      rw [if_neg hid]
      refine (receiveNotification_keeps h _ _).congr (imp_congr_left ?_)
      simp only [Bool.not_eq_true', Bool.not_eq_false] at hfits hpar
      simp [initializedFrame, hfits, hpar, hid, hver, hmet]
    rename_i hsha
    refine hinv.congr (iff_of_true trivial fun hf => ?_)
    simp only [initializedFrame, Bool.and_eq_true, decide_eq_true_eq] at hf
    exact absurd hf.1.1.2 (hsha _ hf.1.1.1.2)

theorem next_keeps {t : Session} (h : Standing s) {e : Event} (ht : s.next o e = some t) :
    Keeps s t (Orderly o s e) := by
  cases e with
  | frame raw =>
    cases ht
    exact receive_keeps h raw
  | setToolInput arguments =>
    cases ht
    exact setToolInput_keeps o h arguments
  | setToolInputUnavailable =>
    cases ht
    exact setToolInputUnavailable_keeps h
  | setToolInputPartial arguments =>
    cases ht
    exact setToolInputPartial_keeps o h arguments
  | setToolResult result =>
    cases ht
    exact setToolResult_keeps o h result
  | setHostContext context =>
    cases ht
    exact setHostContext_keeps o h context
  | cancel reason =>
    cases ht
    exact cancel_keeps h reason
  | revoke =>
    cases ht
    exact revoke_keeps_of h (by decide)
  | dispose =>
    cases ht
    exact dispose_keeps h
  | timesOut key =>
    cases ht
    exact cancelled_keeps h key
  | disposes =>
    have hdis : (if s.state = .closing then some (s.revoke .disposed) else none) = some t := ht
    split at hdis
    · rw [Option.some.injEq] at hdis
      rw [← hdis]
      exact revoke_keeps_of h (by decide)
    · cases hdis
  | answers waiter answer =>
    cases waiter with
    | request key => exact answers_request_keeps h ht
    | wait n => exact answers_wait_keeps h ht
  | settles key answer => exact settles_keeps h ht
  | checks waiter =>
    cases waiter with
    | request key => exact checks_request_keeps h ht
    | wait n => exact checks_wait_keeps h ht
  | flushes => exact flushes_keeps h ht
  | resumes waiter =>
    have hres : s.resumes o waiter = some t := ht
    unfold resumes at hres
    unfold Orderly
    cases waiter with
    | request key =>
      dsimp only at hres ⊢
      rcases hk : s.pending.get? key with _ | task
      · rw [hk] at hres
        cases hres
      · rw [hk] at hres
        exact resumeRequest_keeps o h hk hres
    | wait n =>
      dsimp only at hres ⊢
      rcases hn : s.waits.get? n with _ | wait
      · rw [hn] at hres
        cases hres
      · rw [hn] at hres
        exact resumeWait_keeps o h hn hres

theorem initially_standing (context : Json) : Standing { hostContext := context } := by
  have hnone : ∀ key, ({ hostContext := context } : Session).pending.get? key = none := fun _ => rfl
  have hfree : ∀ n, ({ hostContext := context } : Session).waits.get? n = none := fun _ => rfl
  refine ⟨⟨?_, ?_, ?_⟩, ⟨?_, ?_, ?_, ?_, ?_, ?_⟩, ⟨?_, ?_, ?_, ?_, ?_, ?_, ?_, ?_, ?_, ?_⟩⟩
  · exact iff_of_false (show State.new ≠ .closed by decide) fun ⟨_, hm⟩ => by cases hm
  · refine iff_of_false (show ¬(false = true) by decide) fun he => ?_
    rcases he with ⟨_, hm⟩ | hm
    · cases hm
    · cases hm
  · intro _ key task hk
    cases (hnone key).symm.trans hk
  · intro key
    rw [hnone]
    rfl
  · intro key hk
    rw [hnone] at hk
    cases hk
  · intro _ _ hm
    cases hm
  · intro key task hk
    cases (hnone key).symm.trans hk
  · intro key task _ hk
    cases (hnone key).symm.trans hk
  · intro key task hk
    cases (hnone key).symm.trans hk
  · exact fun n _ => hfree n
  · intro n _ hn
    cases (hfree n).symm.trans hn
  · intro n _ _ hn
    cases (hfree n).symm.trans hn
  · intro _ hf
    cases hf
  · rintro ⟨_, _, hm⟩
    cases hm
  · intro hf
    cases hf
  · rintro ⟨_, hf⟩
    cases hf
  · rintro ⟨_, _, hm⟩
    cases hm
  · intro hf
    cases hf
  · intro hf
    cases hf

/-- The protocol. A request is dispatched at most once, answered at most once, and then not dropped; while it is
neither, it is pending, and goes on. -/
structure Obeys (o : Options) (s : Session) : Prop where
  lawful : Lawful law s.trace
  counts : ∀ key, s.trace.countP (Act.requests key) = s.trace.countP (Act.answers key) +
    s.trace.countP (Act.drops key) + (if (s.pending.get? key).isSome then 1 else 0)
  moves : ∀ key, (s.pending.get? key).isSome → s.moves o key
  hushed : Hushed s

/-- A session obeys its protocol all along a run just when each step of the run is orderly. -/
theorem session_obeys_iff (o : Options) (context : Json) {es : List Event} {s : Session}
    (h : Runs.run (next o) { hostContext := context } es = some s) :
    (∀ pre post t, es = pre ++ post → Runs.run (next o) { hostContext := context } pre = some t → Obeys o t) ↔
      Runs.Meets (next o) (Orderly o) { hostContext := context } es := by
  refine Runs.always_iff_meets (J := fun s => Standing s ∧ Hushed s) ?_ ?_ ?_ ?_ h
  · rintro s e t ⟨hs, hh⟩ he
    exact ⟨(next_keeps hs he).1, next_hushed o hh he⟩
  · rintro s e t ⟨hs, hh⟩ hobe he
    obtain ⟨ht, hlaw⟩ := next_keeps hs he
    constructor
    · exact fun ho => (hlaw.mp ho.lawful).2
    · exact fun hc => ⟨hlaw.mpr ⟨hobe.lawful, hc⟩, ht.counted.counts, fun _ hk => moves_of_pending o hk,
        next_hushed o hh he⟩
  · exact ⟨initially_standing context, hushed_of_open (show State.new ≠ .closed by decide)⟩
  · exact ⟨lawful_nil, (initially_standing context).counted.counts, fun _ hk => moves_of_pending o hk,
      hushed_of_open (show State.new ≠ .closed by decide)⟩

def sampleOptions : Options where
  platform := ⟨fun _ => "0", fun _ => 0, fun _ => none⟩
  broker := ⟨true, false, false, false, false, false, true⟩
  hostInfo := empty
  policy := empty

def initializeFrame : Json :=
  .obj [("jsonrpc", .str "2.0"), ("id", .int 1), ("method", .str "ui/initialize"),
    ("params", .obj [("protocolVersion", .str MCP_APPS_VERSION),
      ("appInfo", .obj [("name", .str "app"), ("version", .str "1")]), ("appCapabilities", empty)])]

def readyFrame : Json := .obj [("jsonrpc", .str "2.0"), ("method", .str "ui/notifications/initialized")]

def callFrame : Json :=
  .obj [("jsonrpc", .str "2.0"), ("id", .int 2), ("method", .str "tools/call"),
    ("params", .obj [("name", .str "search")])]

/-- `broker.authorize` consents. -/
def consents (waiter : Waiter) : List Event := [.answers waiter .allow, .checks waiter, .resumes waiter]

def sampleRun : List Event :=
  [Event.frame (some initializeFrame)] ++ consents (.request (.int 1)) ++ [Event.frame (some readyFrame), .flushes,
    .setToolInputPartial empty] ++ consents (.wait 0) ++ [Event.setToolInput empty, .flushes] ++ consents (.wait 1) ++
    [Event.flushes, .frame (some callFrame)] ++ consents (.request (.int 2)) ++ [Event.settles (.int 2) (.ok empty),
    .resumes (.request (.int 2))] ++ consents (.request (.int 2)) ++ [Event.setHostContext empty, .setToolResult empty,
    .flushes] ++ consents (.wait 3) ++ consents (.wait 2) ++ [Event.revoke, .frame (some callFrame)]

theorem sampleRun_obeys : ∃ s, Runs.run (next sampleOptions) { hostContext := empty } sampleRun = some s ∧
    ∀ pre post t, sampleRun = pre ++ post →
      Runs.run (next sampleOptions) { hostContext := empty } pre = some t → Obeys sampleOptions t := by
  have hrun : (Runs.run (next sampleOptions) { hostContext := empty } sampleRun).isSome = true := by decide +kernel
  have hall : Runs.all (fun s e => decide (Orderly sampleOptions s e)) (next sampleOptions) { hostContext := empty }
      sampleRun = true := by
    decide +kernel
  obtain ⟨s, hs⟩ := Option.isSome_iff_exists.mp hrun
  exact ⟨s, hs, (session_obeys_iff sampleOptions empty hs).mpr (Runs.meets_of_all (fun _ _ => of_decide_eq_true) hall)⟩

/-- A guest that does not wait for the result of `ui/initialize` is ready with no authorization. -/
theorem ready_unauthorized : ¬ ∀ (o : Options) (context : Json) (es : List Event) (s : Session),
    Runs.run (next o) { hostContext := context } es = some s → Obeys o s := by
  intro hcla
  have hrun : (Runs.run (next sampleOptions) { hostContext := empty }
      [.frame (some initializeFrame), .frame (some readyFrame)]).any
      (fun s => decide (¬InitializeSent s.trace) && s.trace.any Act.isReady) = true := by
    decide +kernel
  obtain ⟨s, hs, hend⟩ := (Option.any_eq_true _ _).mp hrun
  obtain ⟨huns, hrea⟩ := Bool.and_eq_true_iff.mp hend
  have hm : Act.ready ∈ s.trace := by
    obtain ⟨a, ha, hi⟩ := List.any_eq_true.mp hrea
    cases a with
    | ready => exact ha
    | _ => cases hi
  obtain ⟨pre, post, heq⟩ := List.append_of_mem hm
  obtain ⟨key, value, hres⟩ := (hcla sampleOptions empty _ s hs).lawful pre .ready post heq
  exact of_decide_eq_true huns ⟨key, value, heq ▸ List.mem_append_left _ hres⟩

end Session

end OpenAgent.McpApps
