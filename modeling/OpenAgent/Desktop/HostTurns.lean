import OpenAgent.Desktop.HostBridge

namespace OpenAgent.Desktop.Host

open Py List Option Relation.ReflTransGen

variable (parse : Text → Option Json)

theorem joinLines_concat (lines : List Text) (raw rest : Text) :
    joinLines (lines ++ [raw]) rest = joinLines lines (raw ++ '\n' :: rest) := by
  simp [joinLines]

theorem joinLines_append (lines : List Text) (rest chunk : Text) :
    joinLines lines (rest ++ chunk) = joinLines lines rest ++ chunk := by
  simp [joinLines]

theorem splitLines_line {raw : Text} (h : '\n' ∉ raw) (text : Text) :
    splitLines (raw ++ '\n' :: text) = (raw :: (splitLines text).1, (splitLines text).2) := by
  induction raw with
  | nil => simp [splitLines]
  | cons ch raw ih =>
    rw [mem_cons, not_or] at h
    rw [cons_append, splitLines, ih h.2]
    simp [Ne.symm h.1]

theorem splitLines_rest {rest : Text} (h : '\n' ∉ rest) : splitLines rest = ([], rest) := by
  induction rest with
  | nil => rfl
  | cons ch rest ih =>
    rw [mem_cons, not_or] at h
    rw [splitLines, ih h.2]
    simp [Ne.symm h.1]

theorem splitLines_joinLines {lines : List Text} (h : ∀ line ∈ lines, '\n' ∉ line) (rest : Text) :
    splitLines (joinLines lines rest) = (lines ++ (splitLines rest).1, (splitLines rest).2) := by
  induction lines with
  | nil => rfl
  | cons line lines ih =>
    have hjoin : joinLines (line :: lines) rest = line ++ '\n' :: joinLines lines rest := by simp [joinLines]
    rw [hjoin, splitLines_line (h line mem_cons_self), ih fun l hl => h l (mem_cons_of_mem _ hl)]
    rfl

theorem splitLines_spec (text : Text) : joinLines (splitLines text).1 (splitLines text).2 = text ∧
    (∀ line ∈ (splitLines text).1, '\n' ∉ line) ∧ '\n' ∉ (splitLines text).2 := by
  induction text with
  | nil => simp [splitLines, joinLines]
  | cons ch text ih =>
    obtain ⟨hjoin, hlin, hrest⟩ := ih
    by_cases hch : ch = '\n'
    · subst hch
      simp only [splitLines, if_true]
      refine ⟨?_, ?_, hrest⟩
      · simpa [joinLines] using hjoin
      intro line hl
      rcases mem_cons.mp hl with rfl | hl
      · exact not_mem_nil
      · exact hlin line hl
    have hne := Ne.symm hch
    rcases hspl : splitLines text with ⟨_ | ⟨line, lines⟩, rest⟩
    · rw [hspl] at hjoin hrest
      simp only [splitLines, hspl, if_neg hch]
      exact ⟨by simpa [joinLines] using hjoin, by simp, by simp [hne, hrest]⟩
    rw [hspl] at hjoin hlin hrest
    simp only [splitLines, hspl, if_neg hch]
    refine ⟨by simpa [joinLines] using hjoin, ?_, hrest⟩
    intro l hl
    rcases mem_cons.mp hl with rfl | hl
    · simp [hne, hlin line mem_cons_self]
    · exact hlin l (mem_cons_of_mem _ hl)

def eventOf (line : Nat × Text) : Option (Nat × Json) :=
  if byteLength line.2 > MAX_LINE_BYTES ∨ trim line.2 = [] then none
  else
    match readLine parse (trim line.2) with
    | .event frame => some (line.1, frame)
    | _ => none

def Child.ended (x : Child) : Bool := x.exited || x.errored || x.closed

namespace Bridge

def linesOf (s : Bridge) (c : Nat) : List Text := (s.handled.filter (·.1 = c)).map Prod.snd

def take (s : Bridge) (c : Nat) (raw rest : Text) : Bridge :=
  { s with
    stdoutBuffer := rest
    handled := s.handled ++ [(c, raw)]
    emitted := s.emitted ++ (eventOf parse (c, raw)).toList }

def receive (s : Bridge) (c : Nat) (chunk : Text) : Bridge :=
  { s with
    stdoutBuffer := s.stdoutBuffer ++ chunk
    received := Function.update s.received c (s.received c ++ chunk) }

end Bridge

def Alive (s : Bridge) : Prop :=
  ∀ c, s.child = some c → c < s.children.length ∧ (s.get c).ended = false

structure Quiet (s t : Bridge) : Prop where
  child : t.child = s.child
  length : t.children.length = s.children.length
  ended : ∀ c, s.child = some c → (t.get c).ended = (s.get c).ended
  stdoutBuffer : t.stdoutBuffer = s.stdoutBuffer
  pending : t.pending = s.pending
  issued : t.issued = s.issued
  settled : t.settled = s.settled
  written : t.written = s.written
  requestSequence : s.requestSequence ≤ t.requestSequence
  received : t.received = s.received
  handled : t.handled = s.handled
  emitted : t.emitted = s.emitted
  spawned : t.spawned = s.spawned

/-- What a turn that spawns no process is made of; only a turn that is told so `reads`. -/
inductive Atom : Bool → Bridge → Bridge → Prop
  | quiet {reads} {s t : Bridge} (h : Quiet s t) : Atom reads s t
  | settle {reads} (s : Bridge) {id : Nat} {p : Pending} (outcome : Outcome) (hid : s.pending.get? id = some p)
      (hresult : ∀ c, outcome = .result c → s.child = some c ∧
        ∃ line, (c, line) ∈ s.handled ∧ readLine parse (trim line) = .response (requestId id) true) :
      Atom reads s (s.settle id outcome)
  | reject {reads} (s : Bridge) : Atom reads s s.rejectPending
  | request {reads} (s : Bridge) (kind : Kind) (dispatch : Bridge.Dispatch) (hk : ∀ r, kind ≠ .cancel r) :
      Atom reads s (s.request kind dispatch).1
  | expire {reads} (s : Bridge) (id : Nat) : Atom reads s (s.expire id)
  | detach {reads} (s : Bridge) (h : s.pending = Dict.empty) : Atom reads s { s with child := none }
  | clear {reads} (s : Bridge) (h : s.child = none) : Atom reads s { s with stdoutBuffer := [] }
  | receive (s : Bridge) {c : Nat} (chunk : Text) (h : s.child = some c) : Atom true s (s.receive c chunk)
  | take (s : Bridge) {c : Nat} (raw rest : Text) (h : s.child = some c) (hraw : '\n' ∉ raw)
      (hbuffer : s.stdoutBuffer = raw ++ '\n' :: rest) : Atom true s (s.take parse c raw rest)

abbrev Steps (reads : Bool) : Bridge → Bridge → Prop := Relation.ReflTransGen (Atom parse reads)

variable {parse}

theorem Quiet.control (s : Bridge) (start : Option StartStage) (stop : Option StopStage)
    (retiring : Dict Nat RetireStage) :
    Quiet s { s with startPromise := start, stopPromise := stop, retiringChildren := retiring } :=
  ⟨rfl, rfl, fun _ _ => rfl, rfl, rfl, rfl, rfl, rfl, le_rfl, rfl, rfl, rfl, rfl⟩

theorem Quiet.refl (s : Bridge) : Quiet s s := .control s _ _ _

variable {s t : Bridge}

theorem Quiet.trans {u : Bridge} (h : Quiet s t) (k : Quiet t u) : Quiet s u where
  child := k.child.trans h.child
  length := k.length.trans h.length
  ended c hc := (k.ended c (h.child.trans hc)).trans (h.ended c hc)
  stdoutBuffer := k.stdoutBuffer.trans h.stdoutBuffer
  pending := k.pending.trans h.pending
  issued := k.issued.trans h.issued
  settled := k.settled.trans h.settled
  written := k.written.trans h.written
  requestSequence := h.requestSequence.trans k.requestSequence
  received := k.received.trans h.received
  handled := k.handled.trans h.handled
  emitted := k.emitted.trans h.emitted
  spawned := k.spawned.trans h.spawned

variable {reads : Bool}

theorem Quiet.steps (h : Quiet s t) : Steps parse reads s t := .single (.quiet h)

namespace Bridge

variable {c : Nat}

@[simp] theorem get_update (s : Bridge) (c d : Nat) (f : Child → Child) :
    (s.update c f).get d = if c = d ∧ d < s.children.length then f (s.get d) else s.get d := by
  unfold get update
  rw [getD_eq_getElem?_getD, getD_eq_getElem?_getD, List.getElem?_modify]
  by_cases hd : d < s.children.length
  · rw [List.getElem?_eq_getElem hd]
    by_cases hc : c = d
    · simp [hc, hd]
    · simp [hc]
  · rw [List.getElem?_eq_none (Nat.le_of_not_lt hd)]
    simp [hd]

theorem quiet_update (s : Bridge) {f : Child → Child}
    (h : s.child = some c → ∀ x, (f x).ended = x.ended) : Quiet s (s.update c f) := by
  refine ⟨rfl, length_modify _ _ _, ?_, rfl, rfl, rfl, rfl, rfl, le_rfl, rfl, rfl, rfl, rfl⟩
  intro d hd
  rw [get_update]
  by_cases hcd : c = d ∧ d < s.children.length
  · rw [if_pos hcd]
    exact h (hcd.1 ▸ hd) _
  · rw [if_neg hcd]

theorem quiet_kill (s : Bridge) (c : Nat) : Quiet s (s.kill c) := by
  unfold kill
  split
  · exact .refl s
  · exact quiet_update s fun _ _ => rfl

theorem quiet_retireChild (s : Bridge) (c : Nat) : Quiet s (s.retireChild c) := by
  unfold retireChild
  split
  · exact .refl s
  · have hkill := quiet_kill s c
    exact { hkill with }

theorem handleExit_steps (s : Bridge) (c : Nat) : Steps parse reads s (s.handleExit c) := by
  unfold handleExit
  by_cases h : s.child = some c
  · rw [if_pos h]
    exact (single (.reject s)).tail (.detach s.rejectPending rfl)
  · rw [if_neg h]

theorem handleExit_child (h : s.child = some c) : (s.handleExit c).child = none := by
  rw [handleExit, if_pos h]
  rfl

theorem failProtocol_steps (s : Bridge) (c : Nat) : Steps parse reads s (s.failProtocol c) := by
  unfold failProtocol
  by_cases h : s.child = some c
  · rw [if_pos h]
    have hret := quiet_retireChild s c
    have hchi : (s.retireChild c).child = some c := hret.child.trans h
    exact (hret.steps.trans (handleExit_steps _ c)).tail (.clear _ (handleExit_child hchi))
  · rw [if_neg h]

theorem failProtocol_child (h : s.child = some c) : (s.failProtocol c).child = none := by
  rw [failProtocol, if_pos h]
  exact handleExit_child ((quiet_retireChild s c).child.trans h)

theorem lose_steps (s : Bridge) {f : Child → Child} : Steps parse reads s ((s.update c f).lose c) := by
  unfold lose
  by_cases h : s.child = some c
  · have hdrop : Steps parse reads s { s.rejectPending with child := none } :=
      (single (.reject s)).tail (.detach s.rejectPending rfl)
    have hqui : Quiet { s.rejectPending with child := none }
        (({ s.rejectPending with child := none }.update c f).update c fun x => { x with lost := true }) := by
      refine ⟨rfl, ?_, fun _ hc => (by cases hc), rfl, rfl, rfl, rfl, rfl, le_rfl, rfl, rfl, rfl, rfl⟩
      simp [update]
    have heq : (if (s.update c f).child = some c then
          ((s.update c f).update c fun x => { x with lost := true }).handleExit c else s.update c f) =
        (({ s.rejectPending with child := none }.update c f).update c fun x => { x with lost := true }) := by
      have h' : (s.update c f).child = some c := h
      rw [if_pos h', handleExit, if_pos (show ((s.update c f).update c _).child = some c from h)]
      rfl
    rw [heq]
    exact hdrop.tail (.quiet hqui)
  · rw [if_neg (show ¬(s.update c f).child = some c from h)]
    exact (quiet_update s fun hc => absurd hc h).steps

theorem get?_of_pendingId {id : String} {n : Nat} (h : s.pendingId id = some n) :
    requestId n = id ∧ ∃ p, s.pending.get? n = some p := by
  refine ⟨by simpa using List.find?_some h, ?_⟩
  exact (Dict.mem_keys_iff s.pending n).mp (mem_of_find?_eq_some h)

theorem handleRaw_steps {raw rest : Text} (h : s.child = some c) (hraw : '\n' ∉ raw)
    (hbuffer : s.stdoutBuffer = raw ++ '\n' :: rest) :
    Steps parse true s (s.handleRaw parse c raw rest) ∧ ((s.handleRaw parse c raw rest).child = none ∨
        ((s.handleRaw parse c raw rest).child = some c ∧ (s.handleRaw parse c raw rest).stdoutBuffer = rest)) := by
  have htake : Steps parse true s (s.take parse c raw rest) := .single (.take s raw rest h hraw hbuffer)
  have hsame : eventOf parse (c, raw) = none → s.take parse c raw rest =
      { s with stdoutBuffer := rest, handled := s.handled ++ [(c, raw)] } := by
    intro hnone
    rw [Bridge.take, hnone, toList_none, append_nil]
  unfold handleRaw
  by_cases hlong : byteLength raw > MAX_LINE_BYTES
  · rw [if_pos hlong, ← hsame (by simp [eventOf, hlong])]
    exact ⟨htake.trans (failProtocol_steps _ c), .inl (failProtocol_child h)⟩
  rw [if_neg hlong]
  by_cases htrim : trim raw = []
  · rw [if_pos htrim, ← hsame (by simp [eventOf, htrim])]
    exact ⟨htake, .inr ⟨h, rfl⟩⟩
  rw [if_neg htrim]
  have heve : eventOf parse (c, raw) = (match readLine parse (trim raw) with
      | .event frame => some (c, frame)
      | _ => none) := if_neg (not_or.mpr ⟨hlong, htrim⟩)
  unfold handleLine
  rcases hread : readLine parse (trim raw) with _ | frame | ⟨id, ok⟩
  · rw [hread] at heve
    rw [← hsame heve]
    exact ⟨htake.trans (failProtocol_steps _ c), .inl (failProtocol_child h)⟩
  · rw [hread] at heve
    rw [Bridge.take, heve] at htake
    exact ⟨htake, .inr ⟨h, rfl⟩⟩
  rw [hread] at heve
  rw [← hsame heve]
  dsimp only
  rcases hid : (s.take parse c raw rest).pendingId id with _ | n
  · exact ⟨htake, .inr ⟨h, rfl⟩⟩
  obtain ⟨hn, p, hp⟩ := get?_of_pendingId hid
  refine ⟨htake.tail (.settle _ _ hp ?_), .inr ⟨h, rfl⟩⟩
  intro d hd
  cases ok with
  | false => cases hd
  | true =>
    cases hd
    exact ⟨h, raw, mem_append_right _ (mem_singleton.mpr rfl), hn ▸ hread⟩

theorem handleLines_steps {lines : List Text} {rest : Text} (hlin : ∀ line ∈ lines, '\n' ∉ line)
    (h : s.child = some c) (hbuffer : s.stdoutBuffer = joinLines lines rest) :
    Steps parse true s (s.handleLines parse c lines rest) ∧
      ((s.handleLines parse c lines rest).child = none ∨ (s.handleLines parse c lines rest).stdoutBuffer = rest) := by
  induction lines generalizing s with
  | nil =>
    unfold handleLines
    split
    · exact ⟨failProtocol_steps s c, .inl (failProtocol_child h)⟩
    · exact ⟨.refl, .inr hbuffer⟩
  | cons raw lines ih =>
    have hraw : s.stdoutBuffer = raw ++ '\n' :: joinLines lines rest := by
      rw [hbuffer]
      simp [joinLines]
    obtain ⟨hste, hend⟩ := handleRaw_steps h (hlin raw mem_cons_self) hraw
    unfold handleLines
    rcases hend with hnone | ⟨hchi, hrest'⟩
    · rw [if_neg fun hc => some_ne_none c (hc.symm.trans hnone)]
      exact ⟨hste, .inl hnone⟩
    rw [if_pos hchi]
    obtain ⟨hmore, hlast⟩ := ih (fun line hl => hlin line (mem_cons_of_mem _ hl)) hchi hrest'
    exact ⟨hste.trans hmore, hlast⟩

theorem handleStdout_steps (s : Bridge) (chunk : Text) (h : s.child = some c) :
    Steps parse true s (s.handleStdout parse c chunk) ∧
      ((s.handleStdout parse c chunk).child = none ∨ '\n' ∉ (s.handleStdout parse c chunk).stdoutBuffer) := by
  obtain ⟨hjoin, hlin, hrest⟩ := splitLines_spec (s.stdoutBuffer ++ chunk)
  have hrec : Steps parse true s (s.receive c chunk) := .single (.receive s chunk h)
  obtain ⟨hste, hend⟩ := handleLines_steps hlin (s := s.receive c chunk) h hjoin.symm
  have heq : s.handleStdout parse c chunk = (s.receive c chunk).handleLines parse c
      (splitLines (s.stdoutBuffer ++ chunk)).1 (splitLines (s.stdoutBuffer ++ chunk)).2 := if_pos h
  rw [heq]
  exact ⟨hrec.trans hste, hend.imp_right fun he => by rw [he]; exact hrest⟩

theorem stop_steps (s : Bridge) (immediate : Bool) : Steps parse false s (s.stop immediate) := by
  unfold stop
  by_cases hstop : s.stopPromise.isSome
  · rw [if_pos hstop]
  rw [if_neg hstop]
  rcases s.child with _ | c
  · cases immediate with
    | false => exact (Quiet.control s _ _ _).steps
    | true => exact (single (.reject s)).tail (.quiet (.control _ _ _ _))
  cases immediate with
  | false =>
    exact (single (.request s .shutdown .written fun _ h => by cases h)).tail
      (.quiet (.control _ _ _ _))
  | true =>
    have hkill := quiet_kill s.rejectPending c
    exact ((single (.reject s)).tail (.quiet hkill)).tail (.quiet (.control _ _ _ _))

theorem finish_steps (ha : Alive s)
    (h : (if (s.get c).closed then some (s.finishStop c) else none) = some t) : Steps parse false s t := by
  by_cases hclo : (s.get c).closed
  · rw [if_pos hclo] at h
    cases h
    have hchi : ¬s.child = some c := by
      intro hc
      have hend := (ha c hc).2
      simp [Child.ended, hclo] at hend
    rw [finishStop, if_neg hchi]
    exact (Quiet.control s _ _ _).steps
  · rw [if_neg hclo] at h
    cases h

theorem resumeStop_steps (ha : Alive s) (h : s.resumeStop = some t) : Steps parse false s t := by
  unfold resumeStop at h
  rcases hstop : s.stopPromise with _ | j | ⟨c, id⟩ | c | c | c | failed
  all_goals rw [hstop] at h
  all_goals dsimp only at h
  · cases h
  · split at h
    · cases h
      exact (Quiet.control s _ _ _).steps
    · cases h
  · split at h
    · cases h
    · cases h
      exact (Quiet.control s _ _ _).steps
  · exact finish_steps ha h
  · exact finish_steps ha h
  · exact finish_steps ha h
  · cases h

theorem expireStop_quiet (h : s.expireStop = some t) : Quiet s t := by
  unfold expireStop at h
  rcases hstop : s.stopPromise with _ | j | ⟨c, id⟩ | c | c | c | failed
  all_goals rw [hstop] at h
  all_goals dsimp only at h
  · cases h
  · cases h
  · cases h
  · split at h
    · cases h
    · cases h
      exact (quiet_kill s c).trans (.control _ _ _ _)
  · split at h
    · cases h
    · cases h
      exact (quiet_kill s c).trans (.control _ _ _ _)
  · split at h
    · cases h
    · cases h
      have hgiv : Quiet s (s.update c fun x => { x with givenUp := true }) := quiet_update s fun _ _ => rfl
      exact hgiv.trans (.control _ _ _ _)
  · cases h

theorem clearStop_quiet (h : s.clearStop = some t) : Quiet s t := by
  unfold clearStop at h
  rcases hstop : s.stopPromise with _ | j | ⟨c, id⟩ | c | c | c | failed
  all_goals rw [hstop] at h
  all_goals cases h
  exact .control s _ _ _

theorem resumeRetire_quiet (h : s.resumeRetire c = some t) : Quiet s t := by
  unfold resumeRetire at h
  rcases hstage : s.retiringChildren.get? c with _ | _ | _ | failed
  all_goals rw [hstage] at h
  all_goals dsimp only at h
  · cases h
  · split at h
    · cases h
      exact .control s _ _ _
    · cases h
  · split at h
    · cases h
      exact .control s _ _ _
    · cases h
  · cases h

theorem expireRetire_quiet (h : s.expireRetire c = some t) : Quiet s t := by
  unfold expireRetire at h
  rcases hstage : s.retiringChildren.get? c with _ | _ | _ | failed
  all_goals rw [hstage] at h
  all_goals dsimp only at h
  · cases h
  · split at h
    · cases h
    · cases h
      exact (quiet_kill s c).trans (.control _ _ _ _)
  · split at h
    · cases h
    · cases h
      have hgiv : Quiet s (s.update c fun x => { x with givenUp := true }) := quiet_update s fun _ _ => rfl
      exact hgiv.trans (.control _ _ _ _)
  · cases h

theorem clearRetire_quiet (h : s.clearRetire c = some t) : Quiet s t := by
  unfold clearRetire at h
  rcases hstage : s.retiringChildren.get? c with _ | _ | _ | failed
  all_goals rw [hstage] at h
  all_goals cases h
  exact .control s _ _ _

end Bridge

namespace Bridge

def spawns (s : Bridge) : Bool := !s.running && s.available

def launches (s : Bridge) : Event → Bool
  | .start => s.startPromise.isNone && s.stopPromise.isNone && s.retiringChildren.keys.isEmpty && s.spawns
  | .startResumes =>
    (match s.startPromise with
      | some (.stop (some false)) => s.retiringChildren.keys.isEmpty
      | some (.retiring j) => !j.failed && j.waiting.isEmpty
      | _ => false) && s.spawns
  | _ => false

theorem launch_steps (h : s.spawns = false) : Steps parse false s s.launch := by
  have hcond : (s.running || !s.available) = true := by
    simp only [spawns, Bool.and_eq_false_iff, Bool.not_eq_false'] at h
    simpa using h
  rw [launch, if_pos hcond]
  exact (Quiet.control s _ _ _).steps

variable (parse) in
theorem startRetired_cases (s : Bridge) : (s.retiringChildren.keys = [] ∧ s.startRetired = s.launch) ∨
      (s.retiringChildren.keys ≠ [] ∧ Steps parse false s s.startRetired) := by
  unfold startRetired
  by_cases h : s.retiringChildren.keys = []
  · exact .inl ⟨h, if_neg fun hn => hn h⟩
  · rw [if_pos h]
    exact .inr ⟨h, (Quiet.control s _ _ _).steps⟩

theorem start_cases (s : Bridge) : (s.launches .start = true ∧ s.start = s.launch) ∨
      (s.launches .start = false ∧ Steps parse false s s.start) := by
  unfold start
  by_cases hsta : s.startPromise.isSome
  · rw [if_pos hsta]
    exact .inr ⟨by simp [launches, isNone_eq_false_iff.mpr hsta], .refl⟩
  rw [if_neg hsta]
  by_cases hstop : s.stopPromise.isSome
  · rw [if_pos hstop]
    exact .inr ⟨by simp [launches, isNone_eq_false_iff.mpr hstop], (Quiet.control s _ _ _).steps⟩
  rw [if_neg hstop]
  rw [not_isSome_iff_eq_none] at hsta hstop
  rcases startRetired_cases parse s with ⟨hkeys, heq⟩ | ⟨hkeys, hste⟩
  · have hlau : s.launches .start = s.spawns := by simp [launches, hsta, hstop, hkeys]
    rw [hlau, heq]
    cases hs : s.spawns with
    | true => exact .inl ⟨rfl, rfl⟩
    | false => exact .inr ⟨rfl, launch_steps hs⟩
  · exact .inr ⟨by simp [launches, hkeys], hste⟩

theorem resumeStart_cases (h : s.resumeStart = some t) :
    (s.launches .startResumes = true ∧ t = s.launch) ∨ (s.launches .startResumes = false ∧ Steps parse false s t) := by
  unfold resumeStart at h
  rcases hsta : s.startPromise with _ | ⟨_ | _ | failed⟩ | j | ⟨c, id⟩ | ⟨_ | failed⟩ | j | _
  all_goals rw [hsta] at h
  all_goals dsimp only at h
  · cases h
  · cases h
  · cases h
    rcases startRetired_cases parse s with ⟨hkeys, heq⟩ | ⟨hkeys, hste⟩
    · have hlau : s.launches .startResumes = s.spawns := by simp [launches, hsta, hkeys]
      rw [hlau, if_neg Bool.false_ne_true, heq]
      cases hs : s.spawns with
      | true => exact .inl ⟨rfl, rfl⟩
      | false => exact .inr ⟨rfl, launch_steps hs⟩
    · exact .inr ⟨by simp [launches, hsta, hkeys], hste⟩
  · cases h
    exact .inr ⟨by simp [launches, hsta], (Quiet.control s _ _ _).steps⟩
  · cases hfai : j.failed with
    | true =>
      rw [hfai] at h
      cases h
      exact .inr ⟨by simp [launches, hsta, hfai], (Quiet.control s _ _ _).steps⟩
    | false =>
      rw [hfai, if_neg Bool.false_ne_true] at h
      by_cases hwai : j.waiting = []
      · rw [if_pos hwai] at h
        cases h
        have hlau : s.launches .startResumes = s.spawns := by simp [launches, hsta, hfai, hwai]
        rw [hlau]
        cases hs : s.spawns with
        | true => exact .inl ⟨rfl, rfl⟩
        | false => exact .inr ⟨rfl, launch_steps hs⟩
      · rw [if_neg hwai] at h
        cases h
  · have hlau : s.launches .startResumes = false := by simp [launches, hsta]
    refine .inr ⟨hlau, ?_⟩
    split at h
    · cases h
    split at h
    · cases h
      exact (Quiet.control s _ _ _).steps
    split at h
    · cases h
      exact (stop_steps s true).tail (.quiet (.control _ _ _ _))
    · cases h
      exact (quiet_retireChild s c).steps.tail (.quiet (.control _ _ _ _))
  · cases h
  · cases h
    exact .inr ⟨by simp [launches, hsta], (Quiet.control s _ _ _).steps⟩
  · refine .inr ⟨by simp [launches, hsta], ?_⟩
    split at h
    · cases h
      exact (Quiet.control s _ _ _).steps
    · cases h
  · cases h

theorem next_cases {e : Event} (ha : Alive s) (h : s.next parse e = some t) :
    (s.launches e = true ∧ t = s.launch) ∨ (s.launches e = false ∧ (Steps parse false s t ∨
      Steps parse true s t ∧ (t.child = none ∨ '\n' ∉ t.stdoutBuffer))) := by
  have quietly : s.launches e = false → Quiet s t → (s.launches e = true ∧ t = s.launch) ∨
      (s.launches e = false ∧ (Steps parse false s t ∨
        Steps parse true s t ∧ (t.child = none ∨ '\n' ∉ t.stdoutBuffer))) :=
    fun he hq => .inr ⟨he, .inl hq.steps⟩
  cases e with
  | start =>
    cases h
    exact (start_cases s).imp_right (And.imp_right .inl)
  | stop immediate =>
    cases h
    exact .inr ⟨rfl, .inl (stop_steps s immediate)⟩
  | requests kind numbered dispatch =>
    simp only [next] at h
    by_cases hkind : kind = .call ∨ kind = .control
    · rw [if_pos hkind] at h
      cases h
      refine .inr ⟨rfl, .inl ?_⟩
      have hcan : ∀ r, kind ≠ .cancel r := by
        intro r hr
        rcases hkind with hk | hk <;> cases hr.symm.trans hk
      cases numbered with
      | false => exact .single (.request s kind dispatch hcan)
      | true =>
        have hqui : Quiet s { s with requestSequence := s.requestSequence + 1 } :=
          ⟨rfl, rfl, fun _ _ => rfl, rfl, rfl, rfl, rfl, rfl, Nat.le_succ _, rfl, rfl, rfl, rfl⟩
        exact hqui.steps.tail (.request _ kind dispatch hcan)
    · rw [if_neg hkind] at h
      cases h
  | expires id =>
    simp only [next] at h
    split at h
    · cases h
      exact .inr ⟨rfl, .inl (.single (.expire s id))⟩
    · cases h
  | writeFails id =>
    cases h
    refine .inr ⟨rfl, .inl ?_⟩
    unfold writeFails
    rcases hpen : s.pending.get? id with _ | p
    · exact .refl
    · exact .single (.settle s .rejected hpen fun c hc => by cases hc)
  | stdout c chunk =>
    cases h
    refine .inr ⟨rfl, ?_⟩
    by_cases hchi : s.child = some c
    · exact .inr (handleStdout_steps s chunk hchi)
    · rw [handleStdout, if_neg hchi]
      exact .inl .refl
  | stdinError c =>
    cases h
    refine .inr ⟨rfl, .inl ?_⟩
    by_cases hchi : s.child = some c
    · rw [if_pos hchi]
      exact (quiet_retireChild s c).steps.trans (handleExit_steps _ c)
    · rw [if_neg hchi]
  | error c | exit c =>
    cases h
    exact .inr ⟨rfl, .inl (lose_steps s)⟩
  | gone c =>
    cases h
    exact quietly rfl (quiet_update s fun _ _ => rfl)
  | close c =>
    simp only [next] at h
    by_cases hover : ((s.get c).exited || (s.get c).errored) = true
    · rw [if_pos hover] at h
      cases h
      refine quietly rfl (quiet_update s fun hc => ?_)
      have hend := (ha c hc).2
      simp [Child.ended, hover] at hend
    · rw [if_neg hover] at h
      cases h
  | startResumes => exact (resumeStart_cases h).imp_right (And.imp_right .inl)
  | startClears =>
    simp only [next] at h
    split at h
    · cases h
      exact quietly rfl (.control s _ _ _)
    · cases h
  | stopResumes => exact .inr ⟨rfl, .inl (resumeStop_steps ha h)⟩
  | stopExpires => exact quietly rfl (expireStop_quiet h)
  | stopClears => exact quietly rfl (clearStop_quiet h)
  | retireResumes c => exact quietly rfl (resumeRetire_quiet h)
  | retireExpires c => exact quietly rfl (expireRetire_quiet h)
  | retireClears c => exact quietly rfl (clearRetire_quiet h)

end Bridge

end OpenAgent.Desktop.Host
