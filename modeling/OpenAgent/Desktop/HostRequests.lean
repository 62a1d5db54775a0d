import OpenAgent.Desktop.HostTurns

namespace OpenAgent.Desktop.Host

open Py List Bridge

variable {parse : Text → Option Json}

variable {id : Nat}

theorem keys_erase_perm {α : Type} (d : Dict Nat α) {v : α} (h : d.get? id = some v) :
    d.keys.Perm (id :: (d.erase id).keys) :=
  (Assoc.perm_erase d.nodup h).map Prod.fst

theorem keys_set_new {α : Type} (d : Dict Nat α) (v : α) (h : id ∉ d.keys) :
    (d.set id v).keys = d.keys ++ [id] := by
  have hkeys := Assoc.set_keys d.entries id v
  rw [if_neg (show id ∉ d.entries.map Prod.fst from h)] at hkeys
  exact hkeys

/-- What the bridge keeps of its requests: what came of each and what was written for it. -/
structure Ledger (s : Bridge) : Prop where
  once : (s.settled.map Prod.fst ++ s.pending.keys).Perm s.issued
  distinct : s.issued.Nodup
  numbered : ∀ id ∈ s.issued, id ≤ s.requestSequence
  sent : ∀ id p, s.pending.get? id = some p → (p.child, id, p.kind) ∈ s.written
  writes : (s.written.map fun w => w.2.1).Sublist s.issued
  spawned : ∀ w ∈ s.written, w.1 < s.children.length
  cancels : ∀ c id r, (c, id, .cancel r) ∈ s.written → ∃ k, (c, r, k) ∈ s.written

namespace Bridge

theorem request_cases (s : Bridge) (kind : Kind) (dispatch : Dispatch) : (s.request kind dispatch).1 = s ∨
    (s.request kind dispatch).1 = { s with
      requestSequence := s.requestSequence + 1
      issued := s.issued ++ [s.requestSequence + 1]
      settled := s.settled ++ [(s.requestSequence + 1, .rejected)] } ∨
    ∃ c, s.child = some c ∧ (s.request kind dispatch).1 = { s with
      requestSequence := s.requestSequence + 1
      issued := s.issued ++ [s.requestSequence + 1]
      pending := s.pending.set (s.requestSequence + 1) ⟨c, kind⟩
      written := s.written ++ [(c, s.requestSequence + 1, kind)] } := by
  unfold request
  rcases hchi : s.child with _ | c
  · exact .inl rfl
  dsimp only
  split
  · exact .inl rfl
  cases dispatch with
  | aborted | unserializable => exact .inr (.inl rfl)
  | written => exact .inr (.inr ⟨c, rfl, rfl⟩)

end Bridge

variable {s t : Bridge}

theorem Ledger.of_quiet (h : Ledger s) (q : Quiet s t) : Ledger t where
  once := by rw [q.settled, q.pending, q.issued]; exact h.once
  distinct := by rw [q.issued]; exact h.distinct
  numbered := by rw [q.issued]; exact fun id hid => (h.numbered id hid).trans q.requestSequence
  sent := by rw [q.pending, q.written]; exact h.sent
  writes := by rw [q.written, q.issued]; exact h.writes
  spawned := by rw [q.written, q.length]; exact h.spawned
  cancels := by rw [q.written]; exact h.cancels

theorem Ledger.settle (h : Ledger s) {p : Pending} (hid : s.pending.get? id = some p)
    (outcome : Outcome) : Ledger (s.settle id outcome) where
  once := by
    have hset : (s.settle id outcome).settled.map Prod.fst = s.settled.map Prod.fst ++ [id] := by
      simp [Bridge.settle]
    rw [hset, append_assoc, singleton_append]
    exact ((keys_erase_perm s.pending hid).symm.append_left _).trans h.once
  distinct := h.distinct
  numbered := h.numbered
  sent j q hj := by
    by_cases hji : j = id
    · rw [hji, Bridge.settle, Dict.get?_erase_self] at hj
      cases hj
    · rw [Bridge.settle, Dict.get?_erase_of_ne _ hji] at hj
      exact h.sent j q hj
  writes := h.writes
  spawned := h.spawned
  cancels := h.cancels

theorem Ledger.reject (h : Ledger s) : Ledger s.rejectPending where
  once := by
    have hset : s.rejectPending.settled.map Prod.fst = s.settled.map Prod.fst ++ s.pending.keys := by
      simp [rejectPending, Function.comp_def]
    have hkeys : s.rejectPending.pending.keys = [] := rfl
    rw [hset, hkeys, append_nil]
    exact h.once
  distinct := h.distinct
  numbered := h.numbered
  sent _ _ hid := by cases hid
  writes := h.writes
  spawned := h.spawned
  cancels := h.cancels

theorem Ledger.request (h : Ledger s) (ha : Alive s) {kind : Kind}
    (hk : ∀ c r, s.child = some c → kind = .cancel r → ∃ k, (c, r, k) ∈ s.written) (dispatch : Bridge.Dispatch) :
    Ledger (s.request kind dispatch).1 := by
  have hnew : s.requestSequence + 1 ∉ s.issued := fun hm => absurd (h.numbered _ hm) (by omega)
  have hdis : (s.issued ++ [s.requestSequence + 1]).Nodup := by
    rw [← concat_eq_append]
    exact h.distinct.concat hnew
  have hnum : ∀ id ∈ s.issued ++ [s.requestSequence + 1], id ≤ s.requestSequence + 1 := by
    intro id hid
    rcases mem_append.mp hid with hid | hid
    · exact (h.numbered id hid).trans (Nat.le_succ _)
    · exact (mem_singleton.mp hid).le
  rcases s.request_cases kind dispatch with heq | heq | ⟨c, hc, heq⟩
  all_goals rw [heq]
  · exact h
  · refine ⟨?_, hdis, hnum, h.sent, h.writes.trans (sublist_append_left _ _), h.spawned, h.cancels⟩
    rw [map_append, append_assoc]
    exact (perm_append_comm.append_left _).trans (by rw [← append_assoc]; exact h.once.append_right _)
  have hkey : s.requestSequence + 1 ∉ s.pending.keys := fun hm =>
    hnew (h.once.mem_iff.mp (mem_append_right _ hm))
  refine ⟨?_, hdis, hnum, ?_, ?_, ?_, ?_⟩
  · dsimp only
    rw [keys_set_new _ _ hkey, ← append_assoc]
    exact h.once.append_right _
  · intro id p hid
    dsimp only at hid ⊢
    rw [Dict.get?_set] at hid
    by_cases hidn : id = s.requestSequence + 1
    · rw [if_pos hidn] at hid
      cases hid
      rw [hidn]
      exact mem_append_right _ (mem_singleton.mpr rfl)
    · rw [if_neg hidn] at hid
      exact mem_append_left _ (h.sent id p hid)
  · rw [map_append]
    exact h.writes.append (List.Sublist.refl _)
  · intro w hw
    rcases mem_append.mp hw with hw | hw
    · exact h.spawned w hw
    · rw [mem_singleton.mp hw]
      exact (ha c hc).1
  · intro d id r hw
    rcases mem_append.mp hw with hw | hw
    · obtain ⟨k, hr⟩ := h.cancels d id r hw
      exact ⟨k, mem_append_left _ hr⟩
    have hw := mem_singleton.mp hw
    rw [Prod.mk.injEq, Prod.mk.injEq] at hw
    obtain ⟨k, hr⟩ := hk c r hc hw.2.2.symm
    exact ⟨k, mem_append_left _ (hw.1 ▸ hr)⟩

theorem Ledger.expire (h : Ledger s) (ha : Alive s) (id : Nat) : Ledger (s.expire id) := by
  unfold Bridge.expire
  rcases hid : s.pending.get? id with _ | p
  · exact h
  dsimp only
  have hset := h.settle hid .rejected
  unfold cancelRemote
  by_cases hcan : p.kind = .call ∧ (s.settle id .rejected).child = some p.child
  · rw [if_pos hcan]
    refine hset.request ha ?_ .written
    intro c r hc hr
    cases hr
    cases hc.symm.trans hcan.2
    exact ⟨p.kind, h.sent id p hid⟩
  · rw [if_neg hcan]
    exact hset

theorem request_alive (h : Alive s) (kind : Kind) (dispatch : Bridge.Dispatch) : Alive (s.request kind dispatch).1 := by
  rcases s.request_cases kind dispatch with heq | heq | ⟨c, hc, heq⟩
  all_goals rw [heq]
  all_goals exact h

theorem expire_alive (h : Alive s) (id : Nat) : Alive (s.expire id) := by
  unfold expire
  rcases s.pending.get? id with _ | p
  · exact h
  dsimp only
  unfold cancelRemote
  split
  · exact request_alive (s := s.settle id .rejected) h _ _
  · exact h

variable {reads : Bool}

theorem Atom.alive (h : Atom parse reads s t) (ha : Alive s) : Alive t := by
  cases h with
  | quiet q =>
    intro c hc
    rw [q.child] at hc
    rw [q.length, q.ended c hc]
    exact ha c hc
  | settle | reject | clear | receive | take => exact ha
  | request _ kind dispatch => exact request_alive ha kind dispatch
  | expire _ id => exact expire_alive ha id
  | detach => exact fun _ hc => by cases hc

theorem Atom.ledger (h : Atom parse reads s t) (ha : Alive s) (hl : Ledger s) : Ledger t := by
  cases h with
  | quiet q => exact hl.of_quiet q
  | settle _ outcome hid => exact hl.settle hid outcome
  | reject => exact hl.reject
  | request _ kind dispatch hk => exact hl.request ha (fun _ r _ hr => absurd hr (hk r)) dispatch
  | expire _ id => exact hl.expire ha id
  | detach | clear | receive | take => exact { hl with }

/-- What the bridge read is the lines that it handled and its buffer. -/
structure Transcript (parse : Text → Option Json) (s : Bridge) : Prop where
  current : ∀ c, s.child = some c → joinLines (s.linesOf c) s.stdoutBuffer = s.received c
  former : ∀ c, ∃ rest, joinLines (s.linesOf c) rest = s.received c
  whole : ∀ line ∈ s.handled, '\n' ∉ line.2
  unborn : ∀ c, s.children.length ≤ c → s.received c = [] ∧ s.linesOf c = []
  emitted : s.emitted = s.handled.filterMap (eventOf parse)

theorem Transcript.of_same (h : Transcript parse s)
    (hchi : t.child = none ∨ t.child = s.child ∧ t.stdoutBuffer = s.stdoutBuffer)
    (hlen : s.children.length ≤ t.children.length) (hrec : t.received = s.received)
    (hhan : t.handled = s.handled) (hemi : t.emitted = s.emitted) : Transcript parse t := by
  have hlin : t.linesOf = s.linesOf := by
    funext c
    rw [linesOf, hhan]
    rfl
  refine ⟨?_, ?_, ?_, ?_, ?_⟩
  · intro c hc
    rcases hchi with hnone | ⟨hsame, hbuffer⟩
    · cases hc.symm.trans hnone
    · rw [hlin, hbuffer, hrec]
      exact h.current c (hsame.symm.trans hc)
  · rw [hlin, hrec]
    exact h.former
  · rw [hhan]
    exact h.whole
  · rw [hlin, hrec]
    exact fun c hc => h.unborn c (hlen.trans hc)
  · rw [hemi, hhan]
    exact h.emitted

theorem Transcript.receive (h : Transcript parse s) (ha : Alive s) {c : Nat} (hc : s.child = some c)
    (chunk : Text) : Transcript parse (s.receive c chunk) := by
  have hcur : joinLines (s.linesOf c) (s.stdoutBuffer ++ chunk) = s.received c ++ chunk := by
    rw [joinLines_append, h.current c hc]
  refine ⟨?_, ?_, h.whole, ?_, h.emitted⟩
  · intro d hd
    cases hc.symm.trans hd
    show joinLines (s.linesOf c) (s.stdoutBuffer ++ chunk) = Function.update s.received c _ c
    rw [Function.update_self]
    exact hcur
  · intro d
    show ∃ rest, joinLines (s.linesOf d) rest = Function.update s.received c _ d
    by_cases hd : d = c
    · subst hd
      rw [Function.update_self]
      exact ⟨_, hcur⟩
    · rw [Function.update_of_ne hd]
      exact h.former d
  intro d hd
  have hne : d ≠ c := by
    have hlt := (ha c hc).1
    have hle : s.children.length ≤ d := hd
    omega
  show Function.update s.received c _ d = [] ∧ s.linesOf d = []
  rw [Function.update_of_ne hne]
  exact h.unborn d hd

theorem Transcript.take (h : Transcript parse s) (ha : Alive s) {c : Nat} (hc : s.child = some c)
    {raw rest : Text} (hraw : '\n' ∉ raw) (hbuffer : s.stdoutBuffer = raw ++ '\n' :: rest) :
    Transcript parse (s.take parse c raw rest) := by
  have hself : (s.take parse c raw rest).linesOf c = s.linesOf c ++ [raw] := by
    simp [Bridge.linesOf, Bridge.take]
  have hoth : ∀ d, d ≠ c → (s.take parse c raw rest).linesOf d = s.linesOf d := by
    intro d hd
    simp [Bridge.linesOf, Bridge.take, Ne.symm hd]
  have hcur : joinLines (s.linesOf c ++ [raw]) rest = s.received c := by
    rw [joinLines_concat, ← hbuffer, h.current c hc]
  refine ⟨?_, ?_, ?_, ?_, ?_⟩
  · intro d hd
    cases hc.symm.trans hd
    rw [hself]
    exact hcur
  · intro d
    by_cases hd : d = c
    · subst hd
      rw [hself]
      exact ⟨rest, hcur⟩
    · rw [hoth d hd]
      exact h.former d
  · intro line hl
    rcases mem_append.mp hl with hl | hl
    · exact h.whole line hl
    · rw [mem_singleton.mp hl]
      exact hraw
  · intro d hd
    have hne : d ≠ c := by
      have hlt := (ha c hc).1
      have hle : s.children.length ≤ d := hd
      omega
    rw [hoth d hne]
    exact h.unborn d hd
  · show s.emitted ++ _ = (s.handled ++ [(c, raw)]).filterMap (eventOf parse)
    rw [filterMap_append, h.emitted]
    congr 1

/-- Where the responses are taken for: a result was written by a process that the request had been sent to, and
whatever waits was sent to the current process. -/
structure Answers (parse : Text → Option Json) (s : Bridge) : Prop where
  results : ∀ id c, (id, .result c) ∈ s.settled → (∃ k, (c, id, k) ∈ s.written) ∧
    ∃ line, (c, line) ∈ s.handled ∧ readLine parse (trim line) = .response (requestId id) true
  owned : ∀ id p, s.pending.get? id = some p → s.child = some p.child

theorem request_frame (s : Bridge) (kind : Kind) (dispatch : Bridge.Dispatch) :
    (s.request kind dispatch).1.child = s.child ∧ (s.request kind dispatch).1.children = s.children ∧
      (s.request kind dispatch).1.stdoutBuffer = s.stdoutBuffer ∧
      (s.request kind dispatch).1.received = s.received ∧ (s.request kind dispatch).1.handled = s.handled ∧
      (s.request kind dispatch).1.emitted = s.emitted ∧ (s.request kind dispatch).1.spawned = s.spawned := by
  rcases s.request_cases kind dispatch with heq | heq | ⟨c, hc, heq⟩
  all_goals rw [heq]
  all_goals exact ⟨rfl, rfl, rfl, rfl, rfl, rfl, rfl⟩

theorem expire_frame (s : Bridge) (id : Nat) : (s.expire id).child = s.child ∧ (s.expire id).children = s.children ∧
      (s.expire id).stdoutBuffer = s.stdoutBuffer ∧ (s.expire id).received = s.received ∧
      (s.expire id).handled = s.handled ∧ (s.expire id).emitted = s.emitted ∧
      (s.expire id).spawned = s.spawned := by
  unfold expire
  rcases s.pending.get? id with _ | p
  · exact ⟨rfl, rfl, rfl, rfl, rfl, rfl, rfl⟩
  dsimp only
  unfold cancelRemote
  split
  · exact request_frame (s.settle id .rejected) _ _
  · exact ⟨rfl, rfl, rfl, rfl, rfl, rfl, rfl⟩

theorem Atom.transcript (h : Atom parse reads s t) (ha : Alive s) (ht : Transcript parse s) : Transcript parse t := by
  cases h with
  | quiet q =>
    exact ht.of_same (.inr ⟨q.child, q.stdoutBuffer⟩) q.length.ge q.received q.handled q.emitted
  | settle | reject => exact { ht with }
  | request _ kind dispatch =>
    obtain ⟨hchil, hchi, hbuffer, hrec, hhan, hemi, -⟩ := request_frame s kind dispatch
    exact ht.of_same (.inr ⟨hchil, hbuffer⟩) (congrArg _ hchi).ge hrec hhan hemi
  | expire _ id =>
    obtain ⟨hchil, hchi, hbuffer, hrec, hhan, hemi, -⟩ := expire_frame s id
    exact ht.of_same (.inr ⟨hchil, hbuffer⟩) (congrArg _ hchi).ge hrec hhan hemi
  | detach => exact ht.of_same (.inl rfl) le_rfl rfl rfl rfl
  | clear _ hnone => exact ht.of_same (.inl hnone) le_rfl rfl rfl rfl
  | receive _ chunk hc => exact ht.receive ha hc chunk
  | take _ raw rest hc hraw hbuffer => exact ht.take ha hc hraw hbuffer

theorem Answers.settle (h : Answers parse s) (hl : Ledger s) {p : Pending}
    {outcome : Outcome} (hid : s.pending.get? id = some p) (hresult : ∀ c, outcome = .result c → s.child = some c ∧
      ∃ line, (c, line) ∈ s.handled ∧ readLine parse (trim line) = .response (requestId id) true) :
    Answers parse (s.settle id outcome) := by
  refine ⟨?_, ?_⟩
  · intro j c hj
    rcases mem_append.mp hj with hj | hj
    · exact h.results j c hj
    have hj := mem_singleton.mp hj
    rw [Prod.mk.injEq] at hj
    obtain ⟨hjid, hout⟩ := hj
    subst hjid
    obtain ⟨hc, hline⟩ := hresult c hout.symm
    have hpc : p.child = c := Option.some_injective _ ((h.owned j p hid).symm.trans hc)
    exact ⟨⟨p.kind, hpc ▸ hl.sent j p hid⟩, hline⟩
  intro j q hj
  by_cases hji : j = id
  · rw [hji, Bridge.settle, Dict.get?_erase_self] at hj
    cases hj
  · rw [Bridge.settle, Dict.get?_erase_of_ne _ hji] at hj
    exact h.owned j q hj

theorem Answers.request (h : Answers parse s) (kind : Kind) (dispatch : Bridge.Dispatch) :
    Answers parse (s.request kind dispatch).1 := by
  rcases s.request_cases kind dispatch with heq | heq | ⟨c, hc, heq⟩
  all_goals rw [heq]
  · exact h
  · refine ⟨fun j d hj => ?_, h.owned⟩
    rcases mem_append.mp hj with hj | hj
    · exact h.results j d hj
    · cases mem_singleton.mp hj
  refine ⟨fun j d hj => ?_, fun j p hj => ?_⟩
  · obtain ⟨⟨k, hk⟩, hline⟩ := h.results j d hj
    exact ⟨⟨k, mem_append_left _ hk⟩, hline⟩
  dsimp only at hj ⊢
  rw [Dict.get?_set] at hj
  split at hj
  · cases hj
    exact hc
  · exact h.owned j p hj

theorem Atom.answers (h : Atom parse reads s t) (hl : Ledger s) (hr : Answers parse s) : Answers parse t := by
  cases h with
  | quiet q =>
    refine ⟨?_, ?_⟩
    · rw [q.settled, q.written, q.handled]
      exact hr.results
    · rw [q.pending, q.child]
      exact hr.owned
  | settle _ outcome hid hresult => exact hr.settle hl hid hresult
  | reject =>
    refine ⟨fun j c hj => ?_, fun j p hj => by cases hj⟩
    rcases mem_append.mp hj with hj | hj
    · exact hr.results j c hj
    · obtain ⟨_, _, heq⟩ := mem_map.mp hj
      cases heq
  | request _ kind dispatch => exact hr.request kind dispatch
  | expire _ id =>
    unfold Bridge.expire
    rcases hid : s.pending.get? id with _ | p
    · exact hr
    dsimp only
    have hset := hr.settle hl hid fun c (hc : Outcome.rejected = .result c) => by cases hc
    unfold cancelRemote
    split
    · exact hset.request _ _
    · exact hset
  | detach _ hemp =>
    refine ⟨hr.results, fun j p hj => ?_⟩
    rw [hemp] at hj
    cases hj
  | clear | receive => exact { hr with }
  | take _ raw rest hc =>
    refine ⟨fun j d hj => ?_, hr.owned⟩
    obtain ⟨hk, line, hline, hread⟩ := hr.results j d hj
    exact ⟨hk, line, mem_append_left _ hline, hread⟩

theorem Atom.spawned (h : Atom parse reads s t) : t.spawned = s.spawned := by
  cases h with
  | quiet q => exact q.spawned
  | settle | reject | detach | clear | receive | take => rfl
  | request _ kind dispatch => exact (request_frame s kind dispatch).2.2.2.2.2.2
  | expire _ id => exact (expire_frame s id).2.2.2.2.2.2

def Drained (s : Bridge) : Prop := ∀ c, s.child = some c → '\n' ∉ s.stdoutBuffer

theorem Atom.drained (h : Atom parse false s t) (hd : Drained s) : Drained t := by
  cases h with
  | quiet q =>
    intro c hc
    rw [q.stdoutBuffer]
    exact hd c (q.child.symm.trans hc)
  | settle | reject => exact hd
  | request _ kind dispatch =>
    intro c hc
    rw [(request_frame s kind dispatch).2.2.1]
    exact hd c ((request_frame s kind dispatch).1.symm.trans hc)
  | expire _ id =>
    intro c hc
    rw [(expire_frame s id).2.2.1]
    exact hd c ((expire_frame s id).1.symm.trans hc)
  | detach => exact fun _ hc => by cases hc
  | clear => exact fun _ _ => not_mem_nil

structure Kept (parse : Text → Option Json) (s : Bridge) : Prop where
  alive : Alive s
  ledger : Ledger s
  transcript : Transcript parse s

theorem Kept.steps (h : Steps parse reads s t) (hk : Kept parse s) : Kept parse t := by
  induction h with
  | refl => exact hk
  | tail _ ha ih => exact ⟨ha.alive ih.alive, ha.ledger ih.alive ih.ledger, ha.transcript ih.alive ih.transcript⟩

theorem Answers.steps (h : Steps parse reads s t) (hk : Kept parse s) (hr : Answers parse s) : Answers parse t := by
  induction h with
  | refl => exact hr
  | tail hs ha ih => exact ha.answers (hk.steps hs).ledger ih

theorem spawned_of_steps (h : Steps parse reads s t) : t.spawned = s.spawned := by
  induction h with
  | refl => rfl
  | tail _ ha ih => exact ha.spawned.trans ih

theorem drained_of_steps (h : Steps parse false s t) (hd : Drained s) : Drained t := by
  induction h with
  | refl => exact hd
  | tail _ ha ih => exact ha.drained ih

end OpenAgent.Desktop.Host
