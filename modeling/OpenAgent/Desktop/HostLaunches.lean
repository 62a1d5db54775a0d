import OpenAgent.Desktop.HostChildren

namespace OpenAgent.Desktop.Host

open Py List Option Bridge

variable {parse : Text → Option Json}
variable {e : Event} {s : Bridge}

namespace Bridge

def ready (s : Bridge) : Bool :=
  s.stopPromise.isNone && s.pending.keys.isEmpty &&
    (List.range s.children.length).all fun c => !(s.get c).lost || (s.get c).closed || (s.get c).givenUp

theorem launch_of_spawn (h : s.spawns = true) : Steps parse false s.spawn s.launch := by
  have hcond : ¬(s.running || !s.available) = true := by
    simp only [spawns, Bool.and_eq_true, Bool.not_eq_true'] at h
    simp [h.1, h.2]
  rw [launch, if_neg hcond]
  exact (Relation.ReflTransGen.single (.request s.spawn .handshake .written fun _ hr => by cases hr)).tail
    (.quiet (.control _ _ _ _))

theorem spawns_of_launches (h : s.launches e = true) : s.spawns = true := by
  cases e with
  | start | startResumes =>
    simp only [launches, Bool.and_eq_true] at h
    exact h.2
  | _ => cases h

end Bridge

theorem Kept.spawn (h : Kept parse s) : Kept parse s.spawn := by
  have hlen : s.spawn.children.length = s.children.length + 1 := by simp [Bridge.spawn]
  refine ⟨?_, ⟨h.ledger.once, h.ledger.distinct, h.ledger.numbered, h.ledger.sent, h.ledger.writes, ?_,
    h.ledger.cancels⟩, ⟨?_, h.transcript.former, h.transcript.whole, ?_, h.transcript.emitted⟩⟩
  · intro c hc
    cases hc
    rw [get_spawn_new, hlen]
    exact ⟨Nat.lt_succ_self _, rfl⟩
  · intro w hw
    rw [hlen]
    exact (h.ledger.spawned w hw).trans (Nat.lt_succ_self _)
  · intro c hc
    cases hc
    obtain ⟨hrec, hlin⟩ := h.transcript.unborn _ le_rfl
    have hlin' : s.spawn.linesOf s.children.length = [] := hlin
    have hrec' : s.spawn.received s.children.length = [] := hrec
    rw [hlin', hrec']
    rfl
  · intro c hc
    rw [hlen] at hc
    exact h.transcript.unborn c (Nat.le_of_succ_le hc)

theorem retiring_of_launches (hs : Control s) (h : s.launches e = true) (c : Nat) : ¬s.Retiring c := by
  have hkeys : s.retiringChildren.keys = [] → ¬s.Retiring c := by
    intro hnil hc
    have hmem := (Dict.mem_keys_iff s.retiringChildren c).mpr (isSome_iff_exists.mp hc)
    rw [hnil] at hmem
    cases hmem
  cases e with
  | start =>
    simp only [launches, Bool.and_eq_true, List.isEmpty_iff] at h
    exact hkeys h.1.2
  | startResumes =>
    simp only [launches, Bool.and_eq_true] at h
    obtain ⟨hstage, -⟩ := h
    rcases hsta : s.startPromise with _ | ⟨_ | _ | failed⟩ | j | ⟨d, id⟩ | ⟨_ | failed⟩ | j | _
    all_goals rw [hsta] at hstage
    all_goals try cases hstage
    · exact hkeys (List.isEmpty_iff.mp hstage)
    simp only [Bool.and_eq_true, Bool.not_eq_true', List.isEmpty_iff] at hstage
    intro hc
    have hmem := (hs.joined j hsta).2 hstage.1 c hc
    rw [hstage.2] at hmem
    cases hmem
  | _ => cases h

theorem former_of_launches (ha : Alive s) (hs : Control s) (h : s.launches e = true)
    {c : Nat} (hlt : c < s.children.length) :
    (s.get c).closed ∨ (s.get c).givenUp ∨ (s.get c).lost ∨ s.Stopping c := by
  by_cases hc : s.child = some c
  · have hspa := spawns_of_launches h
    have hkil : (s.get c).killed = true := by
      simp only [spawns, running, hc, any_some, Bool.and_eq_true, Bool.not_eq_true',
        Bool.and_eq_false_iff, Bool.not_eq_false'] at hspa
      rcases hspa.1 with hexi | hkil
      · have hend := (ha c hc).2
        simp [Child.ended, hexi] at hend
      · exact hkil
    rcases hs.killed c hc hkil with hgiv | hsto
    · exact .inr (.inl hgiv)
    · exact .inr (.inr (.inr hsto))
  rcases hs.former c hlt hc with hclo | hgiv | hret | hlost | hsto
  · exact .inl hclo
  · exact .inr (.inl hgiv)
  · exact absurd hret (retiring_of_launches hs h c)
  · exact .inr (.inr (.inl hlost))
  · exact .inr (.inr (.inr hsto))

theorem launch_control (ha : Alive s) (hs : Control s) (h : s.launches e = true) : Control s.launch := by
  have hspa := spawns_of_launches h
  have hget : s.launch.get = s.spawn.get := by
    rw [launch_eq hspa]
    rfl
  have hret : ∀ c, ¬s.launch.Retiring c := by
    intro c
    rw [launch_eq hspa]
    exact retiring_of_launches hs h c
  have hlen : s.launch.children.length = s.children.length + 1 := by
    rw [launch_eq hspa]
    simp [spawn]
  have hchi : s.launch.child = some s.children.length := by
    rw [launch_eq hspa]
    rfl
  have hstop : s.launch.stopPromise = s.stopPromise := by
    rw [launch_eq hspa]
    rfl
  have hsta : s.launch.startPromise = some (.handshake s.children.length (s.requestSequence + 1)) := by
    rw [launch_eq hspa]
  refine ⟨?_, ?_, fun c hc => absurd hc (hret c), ?_, ?_, ?_⟩
  · intro c hlt hne
    rw [hlen] at hlt
    have hold : c < s.children.length := by
      have hneq : c ≠ s.children.length := fun heq => hne (by rw [hchi, heq])
      omega
    rw [hget, get_spawn_old s hold]
    rcases former_of_launches ha hs h hold with hclo | hgiv | hlost | hsto
    · exact .inl hclo
    · exact .inr (.inl hgiv)
    · exact .inr (.inr (.inr (.inl hlost)))
    · exact .inr (.inr (.inr (.inr (by rw [Stopping, hstop]; exact hsto))))
  · intro c hc hkil
    cases hchi.symm.trans hc
    rw [hget, get_spawn_new] at hkil
    cases hkil
  · intro c failed _ hc
    have hr : s.launch.Retiring c := by
      rw [Retiring, hc]
      rfl
    exact absurd hr (hret c)
  · intro j hj
    cases hsta.symm.trans hj
  · intro c id hc
    cases hsta.symm.trans hc
    exact .inr hchi

/-- What every run keeps, of the requests, the output and the processes. -/
structure Standing (parse : Text → Option Json) (s : Bridge) : Prop extends Kept parse s where
  drained : Drained s
  control : Control s

theorem Standing.next {s t : Bridge} {e : Event} (h : Standing parse s) (he : s.next parse e = some t) :
    Standing parse t := by
  rcases next_cases h.alive he with ⟨hl, rfl⟩ | ⟨hl, hste⟩
  · have hspa := spawns_of_launches hl
    have hste : Steps parse false s.spawn s.launch := launch_of_spawn hspa
    exact ⟨h.toKept.spawn.steps hste, drained_of_steps hste fun _ _ => not_mem_nil,
      launch_control h.alive h.control hl⟩
  have hkept : Kept parse t := by
    rcases hste with hste | ⟨hste, -⟩
    · exact h.toKept.steps hste
    · exact h.toKept.steps hste
  refine ⟨hkept, ?_, h.control.change hkept.alive (next_change h.alive h.control he hl)⟩
  rcases hste with hste | ⟨-, hnone | hbuffer⟩
  · exact drained_of_steps hste h.drained
  · intro c hc
    cases hnone.symm.trans hc
  · exact fun _ _ => hbuffer

def Timely (s : Bridge) : Prop := ∀ sp ∈ s.spawned, sp = (false, [])

theorem openChildren_eq_nil :
    s.openChildren = [] ↔ ∀ c, c < s.children.length → (s.get c).closed ∨ (s.get c).givenUp := by
  rw [openChildren, filter_eq_nil_iff]
  constructor
  · intro h c hlt
    have hc := h c (mem_range.mpr hlt)
    by_cases hclo : (s.get c).closed
    · exact .inl hclo
    · exact .inr (by simpa [hclo] using hc)
  intro h c hc
  rcases h c (mem_range.mp hc) with hclo | hgiv
  · simp [hclo]
  · simp [hgiv]

theorem ready_iff : s.ready = true ↔ s.stopPromise = none ∧ s.pending.keys = [] ∧
    ∀ c, c < s.children.length → (s.get c).lost → (s.get c).closed ∨ (s.get c).givenUp := by
  simp only [ready, Bool.and_eq_true, isNone_iff_eq_none, List.isEmpty_iff, List.all_eq_true,
    List.mem_range, Bool.or_eq_true, Bool.not_eq_true', and_assoc]
  refine and_congr_right fun _ => and_congr_right fun _ => forall_congr' fun c => forall_congr' fun _ => ?_
  cases (s.get c).lost <;> simp

theorem launch_sound (h : Standing parse s) (ha : Answers parse s) (ht : Timely s)
    (hl : s.launches e = true) : (Answers parse s.launch ∧ Timely s.launch) ↔ s.ready = true := by
  have hspa := spawns_of_launches hl
  have hspaw : s.launch.spawned = s.spawned ++ [(s.stopPromise.isSome, s.openChildren)] := by
    rw [launch_eq hspa]
    rfl
  have hpen : s.launch.pending = s.pending.set (s.requestSequence + 1) ⟨s.children.length, .handshake⟩ := by
    rw [launch_eq hspa]
  have hchi : s.launch.child = some s.children.length := by
    rw [launch_eq hspa]
    rfl
  rw [ready_iff]
  constructor
  · rintro ⟨hans, htim⟩
    have hlast := htim _ (by rw [hspaw]; exact mem_append_right _ (mem_singleton.mpr rfl))
    rw [Prod.mk.injEq] at hlast
    refine ⟨isSome_eq_false_iff.mp hlast.1 |> isNone_iff_eq_none.mp, ?_, fun c hlt _ =>
      openChildren_eq_nil.mp hlast.2 c hlt⟩
    refine eq_nil_iff_forall_not_mem.mpr fun id hid => ?_
    obtain ⟨p, hp⟩ := (Dict.mem_keys_iff s.pending id).mp hid
    have hiss := h.ledger.numbered id (h.ledger.once.mem_iff.mp (mem_append_right _ hid))
    have hkeep : s.launch.pending.get? id = some p := by
      rw [hpen, Dict.get?_set_of_ne _ _ (by omega)]
      exact hp
    have hnew := (hans.owned id p hkeep).symm.trans hchi
    have hold := h.ledger.spawned _ (h.ledger.sent id p hp)
    rw [Option.some.injEq] at hnew
    dsimp only at hold
    omega
  · rintro ⟨hstop, hemp, hlost⟩
    have hspawn : Answers parse s.spawn := by
      refine ⟨ha.results, fun id p hp => ?_⟩
      have hmem := (Dict.mem_keys_iff s.pending id).mpr ⟨p, hp⟩
      rw [hemp] at hmem
      cases hmem
    refine ⟨hspawn.steps (launch_of_spawn hspa) h.toKept.spawn, ?_⟩
    intro sp hsp
    rw [hspaw] at hsp
    rcases mem_append.mp hsp with hsp | hsp
    · exact ht sp hsp
    have hall : s.openChildren = [] := by
      refine openChildren_eq_nil.mpr fun c hlt => ?_
      rcases former_of_launches h.alive h.control hl hlt with hclo | hgiv | hc | hsto
      · exact .inl hclo
      · exact .inr hgiv
      · exact hlost c hlt hc
      · rcases hsto with hs | hs <;> cases hstop.symm.trans hs
    rw [mem_singleton.mp hsp, hstop, hall]
    rfl

/-- Each request is settled once, and by the process that it was sent to; what is read of one process never
becomes part of what is read of another; and a process is spawned after all the others. -/
structure Faithful (parse : Text → Option Json) (s : Bridge) : Prop where
  once : (s.settled.map Prod.fst ++ s.pending.keys).Perm s.issued ∧ s.issued.Nodup
  expires : ∀ id p, s.pending.get? id = some p → ∃ t, s.next parse (.expires id) = some t ∧ (id, .rejected) ∈ t.settled
  results : ∀ id c, (id, .result c) ∈ s.settled → (∃ k, (c, id, k) ∈ s.written) ∧
    ∃ line ∈ s.linesOf c, readLine parse (trim line) = .response (requestId id) true
  owned : ∀ id p, s.pending.get? id = some p → s.child = some p.child
  lines : ∀ c, s.linesOf c <+: (splitLines (s.received c)).1
  current : ∀ c, s.child = some c → splitLines (s.received c) = (s.linesOf c, s.stdoutBuffer)
  cancels : ∀ c id r, (c, id, .cancel r) ∈ s.written →
    (∃ k, (c, r, k) ∈ s.written) ∧ ∀ d k, (d, r, k) ∈ s.written → d = c
  spawned : ∀ sp ∈ s.spawned, sp = (false, [])
  emitted : s.emitted = s.handled.filterMap (eventOf parse)

theorem settled_cancelRemote {id : Nat} {p : Pending} {x : Nat × Outcome} (h : x ∈ s.settled) :
    x ∈ (s.cancelRemote id p).settled := by
  unfold cancelRemote
  by_cases hcan : p.kind = .call ∧ s.child = some p.child
  · rw [if_pos hcan]
    rcases s.request_cases (.cancel id) .written with heq | heq | ⟨c, hc, heq⟩
    all_goals rw [heq]
    · exact h
    · exact mem_append_left _ h
    · exact h
  · rw [if_neg hcan]
    exact h

theorem mem_linesOf {c : Nat} {line : Text} : line ∈ s.linesOf c ↔ (c, line) ∈ s.handled := by
  simp [linesOf]

theorem Standing.faithful_iff (h : Standing parse s) : Faithful parse s ↔ Answers parse s ∧ Timely s := by
  have hwho : ∀ c, ∀ line ∈ s.linesOf c, '\n' ∉ line :=
    fun c line hl => h.transcript.whole (c, line) (mem_linesOf.mp hl)
  constructor
  · intro hf
    refine ⟨⟨fun id c hid => ?_, hf.owned⟩, hf.spawned⟩
    obtain ⟨hk, line, hline, hread⟩ := hf.results id c hid
    exact ⟨hk, line, mem_linesOf.mp hline, hread⟩
  rintro ⟨ha, ht⟩
  refine ⟨⟨h.ledger.once, h.ledger.distinct⟩, ?_, ?_, ha.owned, ?_, ?_, ?_, ht, h.transcript.emitted⟩
  · intro id p hp
    refine ⟨s.expire id, if_pos (by rw [hp]; rfl), ?_⟩
    rw [expire, hp]
    exact settled_cancelRemote (mem_append_right _ (mem_singleton.mpr rfl))
  · intro id c hid
    obtain ⟨hk, line, hline, hread⟩ := ha.results id c hid
    exact ⟨hk, line, mem_linesOf.mpr hline, hread⟩
  · intro c
    obtain ⟨rest, hrest⟩ := h.transcript.former c
    rw [← hrest, splitLines_joinLines (hwho c)]
    exact prefix_append _ _
  · intro c hc
    rw [← h.transcript.current c hc, splitLines_joinLines (hwho c), splitLines_rest (h.drained c hc), append_nil]
  · intro c id r hw
    obtain ⟨k, hk⟩ := h.ledger.cancels c id r hw
    refine ⟨⟨k, hk⟩, fun d j hd => ?_⟩
    have hnod : (s.written.map fun w => w.2.1).Nodup := h.ledger.distinct.sublist h.ledger.writes
    exact congrArg Prod.fst (inj_on_of_nodup_map hnod hd hk rfl)

theorem Standing.initially (parse : Text → Option Json) (available : Bool) :
    Standing parse { available := available } := by
  refine ⟨⟨fun _ hc => (by cases hc), ?_, ?_⟩, fun _ hc => (by cases hc), ?_⟩
  · exact ⟨.refl _, nodup_nil, fun _ h => (by cases h), fun _ _ h => (by cases h), List.Sublist.refl _,
      fun _ h => (by cases h), fun _ _ _ h => (by cases h)⟩
  · exact ⟨fun _ hc => (by cases hc), fun _ => ⟨[], rfl⟩, fun _ h => (by cases h), fun _ _ => ⟨rfl, rfl⟩, rfl⟩
  · exact ⟨fun _ h => (by cases h), fun _ hc => (by cases hc), fun _ h => (by cases h), fun _ _ h => (by cases h),
      fun _ h => (by cases h), fun _ _ h => (by cases h)⟩

def Orderly (s : Bridge) (e : Event) : Prop := s.launches e = true → s.ready = true

instance (s : Bridge) (e : Event) : Decidable (Orderly s e) :=
  inferInstanceAs (Decidable (s.launches e = true → s.ready = true))

theorem Standing.faithful_next {t : Bridge} (h : Standing parse s) (hf : Faithful parse s)
    (he : s.next parse e = some t) : Faithful parse t ↔ Orderly s e := by
  obtain ⟨ha, ht⟩ := h.faithful_iff.mp hf
  rw [(h.next he).faithful_iff]
  rcases next_cases h.alive he with ⟨hl, rfl⟩ | ⟨hl, hste⟩
  · rw [launch_sound h ha ht hl]
    exact ⟨fun hr _ => hr, fun hr => hr hl⟩
  have hste : ∃ reads, Steps parse reads s t := by
    rcases hste with hste | ⟨hste, -⟩
    · exact ⟨_, hste⟩
    · exact ⟨_, hste⟩
  obtain ⟨reads, hste⟩ := hste
  refine iff_of_true ⟨ha.steps hste h.toKept, ?_⟩ fun hn => ?_
  · rw [Timely, spawned_of_steps hste]
    exact ht
  · cases hl.symm.trans hn

/-- In a run of the bridge all is kept just when each process is spawned in order. -/
theorem bridge_faithful_iff (parse : Text → Option Json) (available : Bool) {es : List Event} {s : Bridge}
    (h : Runs.run (Bridge.next parse) { available := available } es = some s) :
    (∀ pre post t, es = pre ++ post → Runs.run (Bridge.next parse) { available := available } pre = some t →
      Faithful parse t) ↔ Runs.Meets (Bridge.next parse) Orderly { available := available } es := by
  have hinit := Standing.initially parse available
  refine Runs.always_iff_meets (fun s e t hs he => hs.next he) (fun s e t hs hf he => hs.faithful_next hf he) hinit ?_ h
  rw [hinit.faithful_iff]
  exact ⟨⟨fun _ _ h => (by cases h), fun _ _ h => (by cases h)⟩, fun _ h => (by cases h)⟩

def answerText : Text := "\x7b\"type\":\"response\",\"id\":\"desktop-1\",\"ok\":true\x7d".toList

def eventText : Text := "\x7b\"type\":\"event\",\"event\":\x7b\"type\":\"shell_completed\"\x7d\x7d".toList

/-- `JSON.parse` on these two texts. -/
def parseText (line : Text) : Option Json :=
  if line = answerText then
    some (.obj [("type", .str "response"), ("id", .str "desktop-1"), ("ok", .bool true)])
  else if line = eventText then
    some (.obj [("type", .str "event"), ("event", .obj [("type", .str "shell_completed")])])
  else none

def handshakeRun : List Event :=
  [.start, .stdout 0 (answerText ++ ['\n']), .startResumes, .startClears]

def restartRun : List Event :=
  handshakeRun ++ [.stdout 0 (eventText.take 9), .stdout 0 (eventText.drop 9 ++ ['\n']), .requests .call false .written,
    .expires 2, .stop false, .exit 0, .close 0, .stopResumes, .stopResumes, .stopClears, .start]

theorem restartRun_faithful : ∃ s, Runs.run (Bridge.next parseText) { available := true } restartRun = some s ∧
    ∀ pre post t, restartRun = pre ++ post →
      Runs.run (Bridge.next parseText) { available := true } pre = some t → Faithful parseText t := by
  have hrun : (Runs.run (next parseText) { available := true } restartRun).isSome = true := by decide +kernel
  have hall : Runs.all (fun s e => decide (Orderly s e)) (next parseText) { available := true } restartRun =
      true := by
    decide +kernel
  obtain ⟨s, hs⟩ := isSome_iff_exists.mp hrun
  exact ⟨s, hs, (bridge_faithful_iff parseText true hs).mpr (Runs.meets_of_all (fun _ _ => of_decide_eq_true) hall)⟩

/-- A process that exits is followed at once by another, though its output is still open. -/
theorem exit_overlaps : ¬ ∀ (parse : Text → Option Json) (available : Bool) (es : List Event) (s : Bridge),
    Runs.run (Bridge.next parse) { available := available } es = some s → Faithful parse s := by
  intro hcla
  have hrun : (Runs.run (next parseText) { available := true } (handshakeRun ++ [.exit 0, .start])).any
      (fun s => s.spawned = [(false, []), (false, [0])]) = true := by
    decide +kernel
  obtain ⟨s, hs, hend⟩ := (any_eq_true _ _).mp hrun
  have hlast := (hcla parseText true _ s hs).spawned (false, [0]) (by rw [of_decide_eq_true hend]; simp)
  cases hlast

/-- Even with a process that is launched while another is open, a request is pending or settled once, requests are
written in the order of their ids, and what is handled of a process is an initial part of its output. -/
theorem bridge_kept {parse : Text → Option Json} {available : Bool} {s : Bridge}
    (h : Runs.Reaches (Bridge.next parse) { available := available } s) :
    s.issued.Nodup ∧ (s.settled.map Prod.fst ++ s.pending.keys).Perm s.issued ∧
      (s.written.map fun w => w.2.1).Sublist s.issued ∧ (∀ c, ∃ rest, joinLines (s.linesOf c) rest = s.received c) ∧
      s.emitted = s.handled.filterMap (eventOf parse) := by
  have hs : Standing parse s := Runs.invariant (fun _ _ _ hs he => hs.next he) (Standing.initially parse available) h
  exact ⟨hs.ledger.distinct, hs.ledger.once, hs.ledger.writes, hs.transcript.former, hs.transcript.emitted⟩

theorem bridge_kept_exit : ∃ s, Runs.run (Bridge.next parseText) { available := true } (handshakeRun ++ [.exit 0, .start]) =
    some s ∧ s.issued.Nodup := by
  have hrun : (Runs.run (Bridge.next parseText) { available := true } (handshakeRun ++ [.exit 0, .start])).isSome =
      true := by decide +kernel
  obtain ⟨s, hs⟩ := isSome_iff_exists.mp hrun
  exact ⟨s, hs, (bridge_kept ⟨_, hs⟩).1⟩

end OpenAgent.Desktop.Host
