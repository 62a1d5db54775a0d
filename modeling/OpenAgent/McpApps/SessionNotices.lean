import OpenAgent.McpApps.SessionRequests

namespace OpenAgent.McpApps

open Py Laws List Standing

variable {acts : List Act} {s t : Session}

theorem Standing.of_notices (h : Standing s) (hn : Notices t)
    (htra : t.trace = s.trace ++ acts) (hgoes : ∀ a ∈ acts, a.goesOn = true) (hfor : ∀ a ∈ acts, a.foreign = true)
    (hstate : t.state = s.state) (hpen : t.pending = s.pending) (hseen : t.seen = s.seen) : Standing t := by
  refine ⟨?_, ?_, hn⟩
  · refine h.phase.frame htra hgoes (by rw [hstate]) (by rw [Session.aborted, hstate]; rfl) ?_
    rw [hpen]
    exact h.phase.aborted
  refine h.counted.frame htra hfor tame_id (fun key => ?_) hseen
  rw [hpen]
  simp

theorem Standing.host (h : Standing s) (htra : t.trace = s.trace) (hstate : t.state = s.state)
    (hpen : t.pending = s.pending) (hseen : t.seen = s.seen) (hwai : t.waits = s.waits)
    (hcou : t.waitCount = s.waitCount) (hflu : t.flushing = s.flushing) (hinp : t.inputSent = s.inputSent)
    (hflag : t.toolCancelled = s.toolCancelled) (hcan : t.cancelled = s.cancelled)
    (hresult : t.result = s.result ∨ t.result = none) : Standing t := by
  have htra' : t.trace = s.trace ++ [] := htra.trans (append_nil s.trace).symm
  refine h.of_notices ?_ htra' (fun _ ha => by cases ha) (fun _ ha => by cases ha) hstate hpen hseen
  exact h.notices.frame htra' (fun _ ha => by cases ha) (.inl hwai) hcou hflu hinp hflag
    hcan hresult (fun hc => hstate.trans hc)

namespace Session

variable {auth : Auth}

variable {purpose : Purpose}

theorem start_notices (h : Notices s) (hauth : auth ≠ .passed)
    (hwai : t.waits = s.waits.set s.waitCount ⟨purpose, auth⟩) (hcou : t.waitCount = s.waitCount + 1)
    (htra : t.trace = s.trace) (hstate : t.state = s.state)
    (hold : ∀ n notice auth, s.waits.get? n = some ⟨.publish notice, auth⟩ → awaits s n notice → awaits t n notice)
    (hnew : ∀ notice, purpose = .publish notice → awaits t s.waitCount notice)
    (hsen : ∀ n, t.flushing = some (.publishing n true) → t.inputSent = true ∧ ¬InputSent s.trace)
    (hsent : InputSent s.trace → t.inputSent = true) (hend : t.inputSent = true →
      InputEnded s.trace ∨ s.state = .closed ∨ ∃ n, t.flushing = some (.publishing n true))
    (hlast : (∃ n, t.flushing = some (.publishing n false)) → InputEnded s.trace ∨ s.state = .closed)
    (hflag : t.toolCancelled = s.toolCancelled) (hresult : t.result = s.result ∨ t.result = none)
    (hcan : t.cancelled = s.cancelled ∨ t.cancelled = none) : Notices t := by
  have hget : ∀ n, t.waits.get? n = if n = s.waitCount then some ⟨purpose, auth⟩ else s.waits.get? n := by
    intro n
    rw [hwai, Dict.get?_set]
  refine ⟨?_, ?_, ?_, ?_, ?_, ?_, ?_, ?_, ?_, ?_⟩
  · intro n hn
    rw [hcou] at hn
    rw [hget, if_neg (by omega)]
    exact h.fresh n (by omega)
  · intro n other hn
    rw [hget] at hn
    rw [htra]
    split at hn
    · rw [Option.some.injEq] at hn
      cases hn
      exact absurd rfl hauth
    · exact h.granted n other hn
  · intro n notice other hn
    rw [hget] at hn
    by_cases hnn : n = s.waitCount
    · rw [if_pos hnn, Option.some.injEq] at hn
      cases hn
      rw [hnn]
      exact hnew notice rfl
    · rw [if_neg hnn] at hn
      exact hold n notice other hn (h.awaited n notice other hn)
  · rw [htra]
    exact hsen
  · rw [htra]
    exact hsent
  · rw [htra, hstate]
    exact hend
  · rw [htra, hstate]
    exact hlast
  · rw [htra, hflag]
    exact h.cancelSent
  · intro hc
    rcases hresult with heq | heq
    · exact heq.trans (h.cancelled (hflag.symm.trans hc))
    · exact heq
  · intro hc
    rcases hcan with heq | heq
    · rw [heq] at hc
      exact hflag.trans (h.noted hc)
    · rw [heq] at hc
      cases hc

theorem start_keeps (h : Standing s) (hnew : ∀ notice, purpose = .publish notice →
      (∃ arguments, notice = .toolInputPartial arguments) ∨ ∃ n context, notice = .hostContext n context) :
    Keeps s (s.start purpose) True := by
  refine quiet (h.of_notices ?_ (append_nil s.trace).symm (fun _ ha => by cases ha)
    (fun _ ha => by cases ha) rfl rfl rfl) rfl
  refine start_notices h.notices (authorize_ne_passed s _) rfl rfl rfl rfl (fun n notice _ _ ha => ?_) ?_
    h.notices.sending h.notices.sent h.notices.inputEnded h.notices.last rfl (.inl rfl) (.inl rfl)
  · cases notice <;> exact ha
  intro notice hp
  rcases hnew notice hp with ⟨_, rfl⟩ | ⟨_, _, rfl⟩
  · exact trivial
  · exact trivial

variable (o : Options)

theorem setToolInput_keeps (h : Standing s) (arguments : Json) : Keeps s (s.setToolInput o arguments) True := by
  unfold setToolInput
  split
  · exact h.refl
  split
  · exact h.refl
  dsimp only
  split
  · refine quiet ?_ rfl
    exact h.host rfl rfl rfl rfl rfl rfl rfl rfl rfl rfl (.inl rfl)
  · refine quiet ?_ rfl
    exact h.host rfl rfl rfl rfl rfl rfl rfl rfl rfl rfl (.inl rfl)

theorem setToolInputUnavailable_keeps (h : Standing s) : Keeps s s.setToolInputUnavailable True := by
  unfold setToolInputUnavailable
  split
  · exact h.refl
  have hfor : ∀ a ∈ [Act.inputEnded], a.goesOn = true ∧ a.foreign = true ∧ a.unsent = true := by
    intro a ha
    rw [mem_singleton.mp ha]
    exact ⟨rfl, rfl, rfl⟩
  have hend : InputEnded (s.trace ++ [.inputEnded]) := .inr (mem_append_right _ (mem_singleton.mpr rfl))
  have hsent : InputSent (s.trace ++ [.inputEnded]) ↔ InputSent s.trace :=
    inputSent_append fun a ha => (hfor a ha).2.2
  have hcan : CancelSent (s.trace ++ [.inputEnded]) ↔ CancelSent s.trace :=
    cancelSent_append fun a ha => (hfor a ha).2.2
  refine Keeps.congr (acts (a := .inputEnded) ?_ rfl) (iff_of_true trivial trivial)
  refine h.of_notices ?_ rfl (fun a ha => (hfor a ha).1) (fun a ha => (hfor a ha).2.1) rfl rfl rfl
  refine ⟨h.notices.fresh, fun n purpose hn => mem_append_left _ (h.notices.granted n purpose hn), ?_, ?_,
    fun _ => rfl, fun _ => .inl hend, fun _ => .inl hend, fun hc => h.notices.cancelSent (hcan.mp hc),
    h.notices.cancelled, h.notices.noted⟩
  · intro n notice auth hn
    have hawa := h.notices.awaited n notice auth hn
    cases notice with
    | toolResult => exact ⟨hawa.1, fun hc => hawa.2 (hcan.mp hc)⟩
    | _ => exact hawa
  · intro n hn
    exact ⟨rfl, fun hs => (h.notices.sending n hn).2 (hsent.mp hs)⟩

theorem setToolInputPartial_keeps (h : Standing s) (arguments : Json) :
    Keeps s (s.setToolInputPartial o arguments) True := by
  unfold setToolInputPartial
  split
  · exact h.refl
  split
  · exact start_keeps h fun notice hp => .inl ⟨arguments, by cases hp; rfl⟩
  · exact h.refl

theorem setToolResult_keeps (h : Standing s) (result : Json) : Keeps s (s.setToolResult o result) True := by
  unfold setToolResult
  by_cases hcan : s.toolCancelled = true
  · rw [if_pos hcan]
    exact h.refl
  rw [if_neg hcan]
  split
  · exact h.refl
  refine quiet (h.of_notices ?_ (append_nil s.trace).symm (fun _ ha => by cases ha)
    (fun _ ha => by cases ha) rfl rfl rfl) rfl
  have hn := h.notices
  exact ⟨hn.fresh, hn.granted, hn.awaited, hn.sending, hn.sent, hn.inputEnded, hn.last, hn.cancelSent,
    fun hc => absurd hc hcan, hn.noted⟩

theorem setHostContext_keeps (h : Standing s) (context : Json) : Keeps s (s.setHostContext o context) True := by
  unfold setHostContext
  split
  · exact h.refl
  dsimp only
  have hset : Standing { s with hostContext := context, contextCount := s.contextCount + 1 } :=
    h.host rfl rfl rfl rfl rfl rfl rfl rfl rfl rfl (.inl rfl)
  split
  · have hsta : Keeps _ (start _ (.publish (.hostContext s.contextCount context))) True :=
      start_keeps hset fun notice hp => .inr ⟨s.contextCount, context, by cases hp; rfl⟩
    exact ((hset.quiet rfl).trans hsta).congr (by simp)
  · exact hset.quiet rfl

theorem cancel_keeps (h : Standing s) (reason : String) : Keeps s (s.cancel reason) True := by
  have habo := abortPending_standing h
  refine quiet (habo.of_notices ?_ (append_nil s.trace).symm (fun _ ha => by cases ha)
    (fun _ ha => by cases ha) rfl rfl rfl) rfl
  have hn := habo.notices
  refine ⟨hn.fresh, hn.granted, ?_, hn.sending, hn.sent, hn.inputEnded, hn.last, fun _ => rfl, fun _ => rfl,
    fun _ => rfl⟩
  intro n notice auth hw
  have hawa := hn.awaited n notice auth hw
  cases notice with
  | toolCancelled => exact ⟨hawa.1, rfl⟩
  | _ => exact hawa

theorem dispose_keeps (h : Standing s) : Keeps s s.dispose True := by
  unfold dispose
  by_cases hend : (decide (s.state = .closed) || decide (s.state = .closing)) = true
  · rw [if_pos hend]
    exact h.refl
  rw [if_neg hend]
  have hclo : s.state ≠ .closed := fun hc => hend (by simp [hc])
  dsimp only
  have hdis : ∀ {u : Session}, Standing u → u.state ≠ .closed →
      Keeps u { (u.abortSession.abortPending.act .disposed) with state := .closing } True := by
    intro u hu hopen
    have hget : ∀ key, (u.abortSession.abortPending).pending.get? key =
        (u.pending.get? key).map fun task => (task.abortRecheck).abort := by
      intro key
      show ((u.pending.mapEntries fun _ task => task.abortRecheck).mapEntries fun _ task => task.abort).get? key = _
      rw [Dict.get?_mapEntries, Dict.get?_mapEntries, Option.map_map]
      rfl
    have hmem : Act.disposed ∈ u.trace ++ [.disposed] := mem_append_right _ (mem_singleton.mpr rfl)
    refine Keeps.congr (acts (a := .disposed) ⟨⟨?_, ?_, ?_⟩, ?_, ?_⟩ rfl) (iff_of_true trivial trivial)
    · refine iff_of_false (fun hc => by cases hc) ?_
      rintro ⟨cause, hc⟩
      rcases mem_append.mp hc with hc | hc
      · exact hu.phase.not_closed hopen ⟨cause, hc⟩
      · cases mem_singleton.mp hc
    · exact iff_of_true rfl (.inr hmem)
    · intro _ key task hk
      obtain ⟨old, hold, rfl⟩ := Option.map_eq_some_iff.mp ((hget key).symm.trans hk)
      rfl
    · refine hu.counted.frame rfl ?_ (tame_abort.comp tame_abortRecheck) hget rfl
      intro a ha
      rw [mem_singleton.mp ha]
      rfl
    · refine hu.notices.frame rfl ?_ (.inr rfl) rfl rfl rfl rfl rfl (.inl rfl) fun hc => absurd hc hopen
      intro a ha
      rw [mem_singleton.mp ha]
      rfl
  split
  · have htea : Keeps s (s.act .teardown) True := by
      refine Keeps.congr (acts (a := .teardown) ?_ rfl) (iff_of_true (h.phase.not_closed hclo) trivial)
      refine h.of_notices ?_ rfl ?_ ?_ rfl rfl rfl
      · refine h.notices.frame (t := s.act .teardown) rfl ?_ (.inl rfl) rfl rfl rfl rfl rfl (.inl rfl) id
        intro a ha
        rw [mem_singleton.mp ha]
        rfl
      · intro a ha
        rw [mem_singleton.mp ha]
        rfl
      intro a ha
      rw [mem_singleton.mp ha]
      rfl
    exact (htea.trans (hdis htea.1 hclo)).congr (by simp)
  · exact hdis h hclo

def Idle (s : Session) : Prop := ∀ n input, s.flushing ≠ some (.publishing n input)

variable {n : Nat} {notice : Notice}

theorem bypasses (h : Notices s) (hidle : s.Idle) (hn : s.waits.get? n = some ⟨.publish notice, auth⟩) :
    (∃ arguments, notice = .toolInputPartial arguments) ∨ ∃ m context, notice = .hostContext m context := by
  have hawa := h.awaited n notice auth hn
  cases notice with
  | toolInput => exact absurd hawa (hidle n true)
  | toolResult | toolCancelled => exact absurd hawa.1 (hidle n false)
  | toolInputPartial arguments => exact .inl ⟨arguments, rfl⟩
  | hostContext m context => exact .inr ⟨m, context, rfl⟩

theorem bypasses_awaits
    (h : (∃ arguments, notice = .toolInputPartial arguments) ∨ ∃ m context, notice = .hostContext m context) :
    awaits s n notice := by
  rcases h with ⟨_, rfl⟩ | ⟨_, _, rfl⟩
  · exact trivial
  · exact trivial

theorem rest_standing (h : Standing s) (hidle : s.Idle) (hidle' : t.Idle)
    (ht : t = { s with flushing := t.flushing, delivery := t.delivery }) : Standing t := by
  have htra : t.trace = s.trace ++ [] := by
    rw [ht]
    exact (append_nil s.trace).symm
  refine h.of_notices ?_ htra (fun _ ha => by cases ha) (fun _ ha => by cases ha) (by rw [ht]) (by rw [ht]) (by rw [ht])
  have hn := h.notices
  rw [ht]
  refine ⟨hn.fresh, hn.granted, ?_, ?_, hn.sent, ?_, ?_, hn.cancelSent, hn.cancelled, hn.noted⟩
  · exact fun n notice auth hw => bypasses_awaits (bypasses hn hidle hw)
  · exact fun n hf => absurd hf (hidle' n true)
  · intro hs
    rcases hn.inputEnded hs with he | hc | ⟨n, hf⟩
    · exact .inl he
    · exact .inr (.inl hc)
    · exact absurd hf (hidle n true)
  · rintro ⟨n, hf⟩
    exact absurd hf (hidle' n false)

theorem last_keeps (h : Standing s) (hidle : s.Idle)
    (hauth : auth ≠ .passed) (hend : InputEnded s.trace ∨ s.state = .closed)
    (hnot : (∃ reason, notice = .toolCancelled reason ∧ s.toolCancelled = true) ∨
      ∃ result, notice = .toolResult result ∧ s.toolCancelled = false)
    (ht : t = { s with
      waits := s.waits.set s.waitCount ⟨.publish notice, auth⟩
      waitCount := s.waitCount + 1
      flushing := some (.publishing s.waitCount false)
      cancelled := t.cancelled
      result := t.result })
    (hcan : t.cancelled = s.cancelled ∨ t.cancelled = none)
    (hresult : t.result = s.result ∨ t.result = none) : Keeps s t True := by
  have htra : t.trace = s.trace := by rw [ht]
  refine quiet (h.of_notices ?_ (htra.trans (append_nil s.trace).symm) (fun _ ha => by cases ha)
    (fun _ ha => by cases ha) (by rw [ht]) (by rw [ht]) (by rw [ht])) htra
  have hflu : t.flushing = some (.publishing s.waitCount false) := by rw [ht]
  refine start_notices h.notices hauth (by rw [ht]) (by rw [ht]) htra (by rw [ht])
    (fun n notice auth hn _ => bypasses_awaits (bypasses h.notices hidle hn)) ?_ ?_ ?_ ?_ (fun _ => hend) (by rw [ht])
    hresult hcan
  · intro other hp
    cases hp
    rcases hnot with ⟨reason, rfl, hflag⟩ | ⟨result, rfl, hflag⟩
    · exact ⟨hflu, by rw [ht]; exact hflag⟩
    refine ⟨hflu, fun hc => ?_⟩
    rw [htra] at hc
    rw [h.notices.cancelSent hc] at hflag
    cases hflag
  · intro n hf
    cases hflu.symm.trans hf
  · rw [ht]
    exact h.notices.sent
  · intro _
    rcases hend with he | hc
    · exact .inl he
    · exact .inr (.inl hc)

theorem flushRest_keeps (h : Standing s) (hidle : s.Idle) : Keeps s s.flushRest True := by
  have hrest : Standing { s with flushing := none } := rest_standing h hidle (fun _ _ hf => by cases hf) rfl
  have hstop : Keeps s { s with flushing := none } True := hrest.quiet rfl
  by_cases hwait : (!s.inputSent || decide (s.state ≠ .ready)) = true
  · have heq : s.flushRest = { s with flushing := none } := by
      unfold flushRest
      exact if_pos hwait
    rw [heq]
    exact hstop
  have hsent : s.inputSent = true := by
    by_contra hn
    simp [hn] at hwait
  have hend : InputEnded s.trace ∨ s.state = .closed := by
    rcases h.notices.inputEnded hsent with he | hc | ⟨n, hf⟩
    · exact .inl he
    · exact .inr hc
    · exact absurd hf (hidle n true)
  have hidle' : ({ s with flushing := none } : Session).Idle := fun _ _ hf => by cases hf
  have hboth : True ∧ True ↔ True := iff_of_true ⟨trivial, trivial⟩ trivial
  cases hcan : s.cancelled with
  | some reason =>
    have heq : s.flushRest = { ({ s with flushing := none, cancelled := none } : Session).start
        (.publish (.toolCancelled reason)) with flushing := some (.publishing s.waitCount false) } := by
      unfold flushRest
      dsimp only
      rw [if_neg hwait]
      simp only [hcan]
    have hflag : s.toolCancelled = true := h.notices.noted (by rw [hcan]; rfl)
    rw [heq]
    refine (hstop.trans (last_keeps hrest hidle'
      (authorize_ne_passed { s with flushing := none, cancelled := none } s.aborted) hend (.inl ⟨reason, rfl, hflag⟩)
      ?_ ?_ ?_)).congr hboth
    · rfl
    · exact .inr rfl
    · exact .inl rfl
  | none =>
    cases hresult : s.result with
    | some result =>
      have heq : s.flushRest = { ({ s with flushing := none, result := none } : Session).start
          (.publish (.toolResult result)) with flushing := some (.publishing s.waitCount false) } := by
        unfold flushRest
        dsimp only
        rw [if_neg hwait]
        simp only [hcan, hresult]
      have hflag : s.toolCancelled = false := by
        cases hf : s.toolCancelled with
        | false => rfl
        | true => cases (h.notices.cancelled hf).symm.trans hresult
      rw [heq]
      refine (hstop.trans (last_keeps hrest hidle'
        (authorize_ne_passed { s with flushing := none, result := none } s.aborted) hend (.inr ⟨result, rfl, hflag⟩)
        ?_ ?_ ?_)).congr hboth
      · rfl
      · exact .inl rfl
      · exact .inr rfl
    | none =>
      have heq : s.flushRest = { s with flushing := none } := by
        unfold flushRest
        dsimp only
        rw [if_neg hwait]
        simp only [hcan, hresult]
      rw [heq]
      exact hstop

theorem flushNow_keeps (h : Standing s) (hidle : s.Idle) : Keeps s s.flushNow True := by
  unfold flushNow
  split
  · exact h.refl
  split
  · rename_i arguments hinp hsent
    refine quiet ?_ rfl
    refine h.of_notices ?_ (append_nil s.trace).symm (fun _ ha => by cases ha) (fun _ ha => by cases ha) rfl rfl rfl
    have huns : ¬InputSent s.trace := fun hs => by
      rw [h.notices.sent hs] at hsent
      cases hsent
    refine start_notices h.notices (authorize_ne_passed { s with inputSent := true } _) rfl rfl rfl rfl
      (fun n notice auth hn _ => bypasses_awaits (bypasses h.notices hidle hn)) ?_ (fun _ _ => ⟨rfl, huns⟩)
      (fun _ => rfl) (fun _ => .inr (.inr ⟨_, rfl⟩)) ?_ rfl (.inl rfl) (.inl rfl)
    · intro notice hp
      cases hp
      rfl
    · rintro ⟨n, hf⟩
      cases hf
  · exact flushRest_keeps h hidle

theorem flushes_keeps (h : Standing s) (ht : s.flushes = some t) : Keeps s t True := by
  unfold flushes at ht
  rcases hflu : s.flushing with _ | ⟨n, input⟩ | (_ | _)
  all_goals rw [hflu] at ht
  all_goals dsimp only at ht
  · split at ht
    · cases ht
    · cases ht
      have hidle : s.Idle := fun n input hf => by cases hflu.symm.trans hf
      have hidle' : ({ s with delivery := s.delivery - 1, flushing := none } : Session).Idle := fun _ _ hf => by cases hf
      have hnext : Standing { s with delivery := s.delivery - 1, flushing := none } :=
        rest_standing h hidle hidle' rfl
      have hsta : Keeps s { s with delivery := s.delivery - 1, flushing := none } True := hnext.quiet rfl
      exact (hsta.trans (flushNow_keeps hnext hidle')).congr (iff_of_true ⟨trivial, trivial⟩ trivial)
  · cases ht
  · cases ht
    have hidle : s.Idle := fun n input hf => by cases hflu.symm.trans hf
    exact (rest_standing h hidle (fun _ _ hf => by cases hf) rfl).quiet rfl
  · cases ht
    exact flushRest_keeps h fun n input hf => by cases hflu.symm.trans hf

theorem setWait_keeps (h : Standing s) {old : Auth}
    (hn : s.waits.get? n = some ⟨purpose, old⟩) (hopen : auth = .passed → s.aborted = false) :
    Keeps s ({ s with waits := s.waits.set n ⟨purpose, auth⟩ }.note (.wait n) purpose.operation auth) True := by
  have hget : ∀ m, (s.waits.set n ⟨purpose, auth⟩).get? m = if m = n then some ⟨purpose, auth⟩ else s.waits.get? m :=
    fun m => Dict.get?_set _ _ _ _
  have hnot : ∀ {t : Session} {acts : List Act}, t.trace = s.trace ++ acts →
      (∀ a ∈ acts, a.unsent = true) → (auth = .passed → .granted (.wait n) purpose.operation ∈ t.trace) →
      t = { s with waits := s.waits.set n ⟨purpose, auth⟩, trace := t.trace } → Notices t := by
    intro t acts htra huns hgra ht
    have hnt := h.notices
    have hsent : InputSent t.trace ↔ InputSent s.trace := by rw [htra]; exact inputSent_append huns
    have hcan : CancelSent t.trace ↔ CancelSent s.trace := by rw [htra]; exact cancelSent_append huns
    have hend : InputEnded s.trace → InputEnded t.trace := fun he => by rw [htra]; exact he.append acts
    rw [ht]
    refine ⟨?_, ?_, ?_, fun m hm => ⟨(hnt.sending m hm).1, fun hs => (hnt.sending m hm).2 (hsent.mp hs)⟩,
      fun hs => hnt.sent (hsent.mp hs), fun hs => (hnt.inputEnded hs).imp_left hend,
      fun hl => (hnt.last hl).imp_left hend, fun hc => hnt.cancelSent (hcan.mp hc), hnt.cancelled, hnt.noted⟩
    · intro m hm
      dsimp only
      rw [hget, if_neg, hnt.fresh m hm]
      intro hmn
      rw [hmn] at hm
      rw [hnt.fresh n hm] at hn
      cases hn
    · intro m other hm
      dsimp only at hm ⊢
      rw [hget] at hm
      by_cases hmn : m = n
      · rw [if_pos hmn, Option.some.injEq] at hm
        cases hm
        rw [hmn]
        exact hgra rfl
      rw [if_neg hmn] at hm
      rw [htra]
      exact mem_append_left _ (hnt.granted m other hm)
    intro m notice other hm
    dsimp only at hm
    rw [hget] at hm
    have hawa : awaits s m notice := by
      by_cases hmn : m = n
      · rw [if_pos hmn, Option.some.injEq] at hm
        cases hm
        exact hnt.awaited m notice old (hmn ▸ hn)
      · rw [if_neg hmn] at hm
        exact hnt.awaited m notice other hm
    cases notice with
    | toolResult => exact ⟨hawa.1, fun hc => hawa.2 (hcan.mp hc)⟩
    | _ => exact hawa
  cases auth with
  | passed =>
    refine Keeps.congr (acts (a := .granted (.wait n) purpose.operation) ?_ rfl)
      (iff_of_true (h.phase.not_ended (hopen rfl)) trivial)
    have hact : ∀ a ∈ [Act.granted (.wait n) purpose.operation],
        a.goesOn = true ∧ a.foreign = true ∧ a.unsent = true := by
      intro a ha
      rw [mem_singleton.mp ha]
      exact ⟨rfl, rfl, rfl⟩
    refine h.of_notices ?_ rfl (fun a ha => (hact a ha).1) (fun a ha => (hact a ha).2.1) rfl rfl rfl
    exact hnot rfl (fun a ha => (hact a ha).2.2) (fun _ => mem_append_right _ (mem_singleton.mpr rfl)) rfl
  | asked | answered | threw =>
    refine quiet ?_ rfl
    refine h.of_notices ?_ (append_nil s.trace).symm (fun _ ha => by cases ha) (fun _ ha => by cases ha) rfl rfl
      rfl
    exact hnot (append_nil s.trace).symm (fun _ ha => by cases ha) (fun hp => by cases hp) rfl

theorem answers_wait_keeps (h : Standing s) {answer : Answer}
    (ht : s.answers (.wait n) answer = some t) : Keeps s t True := by
  unfold answers at ht
  rcases hn : s.waits.get? n with _ | ⟨purpose, _ | _ | _ | _⟩
  all_goals simp only [hn] at ht
  all_goals cases ht
  have hkee : Keeps s (note _ (.wait n) purpose.operation (.answered answer)) True :=
    setWait_keeps h hn fun hp => by cases hp
  exact hkee

theorem checks_wait_keeps (h : Standing s) (ht : s.checks (.wait n) = some t) : Keeps s t True := by
  unfold checks at ht
  rcases hn : s.waits.get? n with _ | ⟨purpose, _ | answer | _ | _⟩
  all_goals simp only [hn] at ht
  all_goals cases ht
  exact setWait_keeps h hn fun hp => (check_passed hp).2

structure Leaves (s t : Session) (n : Nat) (acts : List Act) : Prop where
  waits : t.waits = s.waits.erase n
  count : t.waitCount = s.waitCount
  trace : t.trace = s.trace ++ acts
  state : t.state = s.state
  inputSent : t.inputSent = s.inputSent
  flag : t.toolCancelled = s.toolCancelled
  result : t.result = s.result
  cancelled : t.cancelled = s.cancelled

theorem get?_leaves (h : Leaves s t n acts) {m : Nat} {wait : Wait}
    (hm : t.waits.get? m = some wait) : m ≠ n ∧ s.waits.get? m = some wait := by
  rw [h.waits, Dict.get?_erase] at hm
  by_cases hmn : m = n
  · rw [if_pos hmn] at hm
    cases hm
  · rw [if_neg hmn] at hm
    exact ⟨hmn, hm⟩

theorem leave_notices (h : Notices s) (hl : Leaves s t n acts)
    (hflu : t.flushing = s.flushing) (hsent : InputSent t.trace → InputSent s.trace)
    (hcan : CancelSent t.trace → CancelSent s.trace) : Notices t := by
  have hend : InputEnded s.trace → InputEnded t.trace := fun he => by rw [hl.trace]; exact he.append acts
  refine ⟨?_, ?_, ?_, ?_, ?_, ?_, ?_, ?_, ?_, ?_⟩
  · intro m hm
    rw [hl.waits, Dict.get?_erase]
    by_cases hmn : m = n
    · rw [if_pos hmn]
    · rw [if_neg hmn]
      exact h.fresh m (hl.count ▸ hm)
  · intro m purpose hm
    rw [hl.trace]
    exact mem_append_left _ (h.granted m purpose (get?_leaves hl hm).2)
  · intro m notice auth hm
    have hawa := h.awaited m notice auth (get?_leaves hl hm).2
    cases notice with
    | toolInput => exact hflu.trans hawa
    | toolResult => exact ⟨hflu.trans hawa.1, fun hc => hawa.2 (hcan hc)⟩
    | toolCancelled => exact ⟨hflu.trans hawa.1, hl.flag.trans hawa.2⟩
    | toolInputPartial | hostContext => exact trivial
  · intro m hm
    rw [hl.inputSent]
    have hsen := h.sending m (hflu.symm.trans hm)
    exact ⟨hsen.1, fun hs => hsen.2 (hsent hs)⟩
  · intro hs
    rw [hl.inputSent]
    exact h.sent (hsent hs)
  · intro hs
    rw [hl.inputSent] at hs
    rw [hl.state, hflu]
    exact (h.inputEnded hs).imp_left hend
  · intro hlast
    rw [hflu] at hlast
    rw [hl.state]
    exact (h.last hlast).imp_left hend
  · intro hc
    rw [hl.flag]
    exact h.cancelSent (hcan hc)
  · rw [hl.flag, hl.result]
    exact h.cancelled
  · rw [hl.flag, hl.cancelled]
    exact h.noted

variable {input : Bool}

theorem leave_queue (h : Notices s) (hl : Leaves s t n acts)
    (hflu : s.flushing = some (.publishing n input)) (hflu' : t.flushing = some (.published input))
    (hsent : InputSent t.trace → t.inputSent = true) (hend : input = true → InputEnded t.trace ∨ t.state = .closed)
    (hcan : CancelSent t.trace → t.toolCancelled = true) : Notices t := by
  refine ⟨?_, ?_, ?_, ?_, hsent, ?_, ?_, hcan, ?_, ?_⟩
  · intro m hm
    rw [hl.waits, Dict.get?_erase]
    by_cases hmn : m = n
    · rw [if_pos hmn]
    · rw [if_neg hmn]
      exact h.fresh m (hl.count ▸ hm)
  · intro m purpose hm
    rw [hl.trace]
    exact mem_append_left _ (h.granted m purpose (get?_leaves hl hm).2)
  · intro m notice auth hm
    obtain ⟨hne, hold⟩ := get?_leaves hl hm
    have hawa := h.awaited m notice auth hold
    have hoth : ∀ b, s.flushing ≠ some (.publishing m b) := by
      intro b hf
      cases hflu.symm.trans hf
      exact hne rfl
    cases notice with
    | toolInput => exact absurd hawa (hoth true)
    | toolResult | toolCancelled => exact absurd hawa.1 (hoth false)
    | toolInputPartial | hostContext => exact trivial
  · intro m hm
    cases hflu'.symm.trans hm
  · intro hs
    cases input with
    | true =>
      rcases hend rfl with he | hc
      · exact .inl he
      · exact .inr (.inl hc)
    | false =>
      rcases h.last ⟨n, hflu⟩ with he | hc
      · refine .inl ?_
        rw [hl.trace]
        exact he.append acts
      · exact .inr (.inl (hl.state.trans hc))
  · rintro ⟨m, hm⟩
    cases hflu'.symm.trans hm
  · rw [hl.flag, hl.result]
    exact h.cancelled
  · rw [hl.flag, hl.cancelled]
    exact h.noted

theorem settle_closed (h : Notices s) (hclo : s.state = .closed)
    (hflu : s.flushing = some (.publishing n input)) (hgone : s.waits.get? n = none) :
    Notices { s with flushing := some (.published input) } := by
  refine ⟨h.fresh, h.granted, ?_, fun _ hf => (by cases hf), h.sent, fun _ => .inr (.inl hclo),
    fun _ => .inr hclo, h.cancelSent, h.cancelled, h.noted⟩
  intro m notice auth hm
  have hawa := h.awaited m notice auth hm
  have hoth : ∀ b, s.flushing ≠ some (.publishing m b) := by
    intro b hf
    cases hflu.symm.trans hf
    cases hgone.symm.trans hm
  cases notice with
  | toolInput => exact absurd hawa (hoth true)
  | toolResult | toolCancelled => exact absurd hawa.1 (hoth false)
  | toolInputPartial | hostContext => exact trivial

theorem leave_standing (h : Standing s) (n : Nat) : Standing { s with waits := s.waits.erase n } := by
  have htra : s.trace = s.trace ++ [] := (append_nil s.trace).symm
  refine h.of_notices ?_ htra (fun _ ha => by cases ha) (fun _ ha => by cases ha) rfl rfl rfl
  exact leave_notices h.notices (n := n) ⟨rfl, rfl, htra, rfl, rfl, rfl, rfl, rfl⟩ rfl id id

theorem queued_flushing (h : awaits s n notice)
    (hq : notice.queued = some input) : s.flushing = some (.publishing n input) := by
  cases notice with
  | toolInput => cases hq; exact h
  | toolResult | toolCancelled => cases hq; exact h.1
  | toolInputPartial | hostContext => cases hq

theorem revoke_flushing (s : Session) (cause : Cause) : (s.revoke cause).flushing = s.flushing := by
  unfold revoke
  by_cases hclo : s.state = .closed
  · rw [if_pos hclo]
  · rw [if_neg hclo]
    rfl

theorem revoke_waits (cause : Cause) (h : s.waits.get? n = none) : (s.revoke cause).waits.get? n = none := by
  unfold revoke
  split
  · exact h
  show (s.waits.mapEntries _).get? n = none
  rw [Dict.get?_mapEntries, h]
  rfl

theorem published_keeps {condition : Prop} (h : Keeps s t condition) (hclo : t.state = .closed)
    (hflu : ∀ input, notice.queued = some input → t.flushing = some (.publishing n input))
    (hgone : t.waits.get? n = none) : Keeps s (t.published notice) condition := by
  unfold published
  cases hq : notice.queued with
  | none => exact h
  | some input =>
    refine ⟨?_, h.2⟩
    exact h.1.of_notices (settle_closed h.1.notices hclo (hflu input hq) hgone) (append_nil t.trace).symm
      (fun _ ha => by cases ha) (fun _ ha => by cases ha) rfl rfl rfl

theorem bypass_keeps (h : Standing s)
    (hn : s.waits.get? n = some ⟨.publish notice, auth⟩) (hauth : auth = .passed) (hopen : s.state ≠ .closed)
    (hq : notice.queued = none) :
    Keeps s ({ s with waits := s.waits.erase n }.act (.notice n notice)) (noticeLaw s.trace notice) := by
  subst hauth
  have hmem : ∀ {a : Act}, a ∈ [Act.notice n notice] → a = .notice n notice := mem_singleton.mp
  refine Keeps.congr (acts (a := .notice n notice) ?_ rfl) ?_
  · refine h.of_notices ?_ rfl ?_ ?_ rfl rfl rfl
    · refine leave_notices h.notices (n := n) ⟨rfl, rfl, rfl, rfl, rfl, rfl, rfl, rfl⟩ rfl ?_ ?_
      · rintro ⟨m, arguments, hm⟩
        rcases mem_append.mp hm with hm | hm
        · exact ⟨m, arguments, hm⟩
        · cases hmem hm
          cases hq
      · rintro ⟨m, reason, hm⟩
        rcases mem_append.mp hm with hm | hm
        · exact ⟨m, reason, hm⟩
        · cases hmem hm
          cases hq
    · intro a ha
      rw [hmem ha]
      rfl
    · intro a ha
      rw [hmem ha]
      rfl
  · exact ⟨fun hl => hl.2.2, fun hl => ⟨h.phase.not_closed hopen, h.notices.granted n _ hn, hl⟩⟩

theorem queued_keeps (h : Standing s)
    (hn : s.waits.get? n = some ⟨.publish notice, auth⟩) (hauth : auth = .passed) (hopen : s.state ≠ .closed)
    (hq : notice.queued = some input) :
    Keeps s { ({ s with waits := s.waits.erase n } : Session).act (.notice n notice) with
      flushing := some (.published input) } True := by
  subst hauth
  have hawa := h.notices.awaited n notice .passed hn
  have hflu := queued_flushing hawa hq
  have hmem : ∀ {a : Act}, a ∈ [Act.notice n notice] → a = .notice n notice := mem_singleton.mp
  have hlast : input = false → InputEnded s.trace := by
    intro hf
    subst hf
    exact (h.notices.last ⟨n, hflu⟩).resolve_right hopen
  refine Keeps.congr (acts (a := .notice n notice) ?_ rfl) (iff_of_true ?_ trivial)
  · refine h.of_notices ?_ rfl ?_ ?_ rfl rfl rfl
    · refine leave_queue h.notices (n := n) ⟨rfl, rfl, rfl, rfl, rfl, rfl, rfl, rfl⟩ hflu rfl ?_ ?_ ?_
      · rintro ⟨m, arguments, hm⟩
        rcases mem_append.mp hm with hm | hm
        · exact h.notices.sent ⟨m, arguments, hm⟩
        cases hmem hm
        cases hq
        exact (h.notices.sending n hflu).1
      · intro ht
        subst ht
        cases notice with
        | toolInput arguments =>
          exact .inl (.inl ⟨n, arguments, mem_append_right _ (mem_singleton.mpr rfl)⟩)
        | _ => cases hq
      · rintro ⟨m, reason, hm⟩
        rcases mem_append.mp hm with hm | hm
        · exact h.notices.cancelSent ⟨m, reason, hm⟩
        · cases hmem hm
          exact hawa.2
    · intro a ha
      rw [hmem ha]
      rfl
    · intro a ha
      rw [hmem ha]
      rfl
  · refine ⟨h.phase.not_closed hopen, h.notices.granted n _ hn, ?_⟩
    cases notice with
    | toolInput =>
      cases hq
      exact (h.notices.sending n hflu).2
    | toolResult =>
      cases hq
      exact ⟨hlast rfl, hawa.2⟩
    | toolCancelled =>
      cases hq
      exact hlast rfl
    | toolInputPartial | hostContext => cases hq

def waitGoesOn (s : Session) (wait : Wait) : Prop :=
  match wait.purpose, wait.auth with
  | .publish notice, .passed =>
    notice.queued = none → s.state ≠ .closed → fits o.platform notice.params (16 * MiB) = true →
      noticeLaw s.trace notice
  | .log, .passed => s.state ≠ .closed
  | _, _ => True

theorem resumeWait_keeps (h : Standing s) {wait : Wait} (hn : s.waits.get? n = some wait)
    (ht : s.resumeWait o n wait = some t) : Keeps s t (waitGoesOn o s wait) := by
  obtain ⟨purpose, auth⟩ := wait
  have hlea := leave_standing h n
  have hsta : Keeps s { s with waits := s.waits.erase n } True := hlea.quiet rfl
  have hgone : ({ s with waits := s.waits.erase n } : Session).waits.get? n = none := Dict.get?_erase_self _ _
  have hboth : True ∧ True ↔ True := iff_of_true ⟨trivial, trivial⟩ trivial
  have hrev : Keeps s (({ s with waits := s.waits.erase n } : Session).revoke .refused) True :=
    (hsta.trans (revoke_keeps_of hlea (by decide))).congr hboth
  have hrevo : ∀ {notice auth}, s.waits.get? n = some ⟨.publish notice, auth⟩ →
      Keeps s ((({ s with waits := s.waits.erase n } : Session).revoke .refused).published notice) True := by
    intro notice auth hn
    refine published_keeps hrev (revoke_closed _ _) (n := n) (fun input hq => ?_) (revoke_waits _ hgone)
    rw [revoke_flushing]
    exact queued_flushing (h.notices.awaited n notice auth hn) hq
  unfold resumeWait at ht
  unfold waitGoesOn
  cases purpose with
  | publish notice =>
    cases auth with
    | asked | answered => cases ht
    | threw =>
      cases ht
      exact hrevo hn
    | passed =>
      simp only [Option.some.injEq] at ht
      subst ht
      by_cases hclo : s.state = .closed
      · rw [if_pos hclo]
        refine (published_keeps hsta hclo (n := n) (fun input hq => ?_) hgone).congr
          (iff_of_true trivial fun _ hopen => absurd hclo hopen)
        exact queued_flushing (h.notices.awaited n notice _ hn) hq
      rw [if_neg hclo]
      by_cases hfits : fits o.platform notice.params (16 * MiB) = true
      · rw [if_pos hfits]
        unfold published
        rcases Option.eq_none_or_eq_some notice.queued with hq | ⟨input, hq⟩
        · rw [hq]
          exact (bypass_keeps h hn rfl hclo hq).congr ⟨fun hl _ _ _ => hl, fun hl => hl hq hclo hfits⟩
        rw [hq]
        refine (queued_keeps h hn rfl hclo hq).congr (iff_of_true trivial fun hnone => ?_)
        cases hq.symm.trans hnone
      · rw [if_neg hfits]
        exact (hrevo hn).congr (iff_of_true trivial fun _ _ hf => absurd hf hfits)
  | resize =>
    cases auth with
    | asked | answered => cases ht
    | passed =>
      cases ht
      exact hsta
    | threw =>
      cases ht
      exact hrev
  | log =>
    cases auth with
    | asked | answered => cases ht
    | passed =>
      cases ht
      have hact : ∀ a ∈ [Act.logged], a.goesOn = true ∧ a.foreign = true ∧ a.unsent = true := by
        intro a ha
        rw [mem_singleton.mp ha]
        exact ⟨rfl, rfl, rfl⟩
      have hlog : Standing (({ s with waits := s.waits.erase n } : Session).act .logged) := by
        refine hlea.of_notices ?_ rfl (fun a ha => (hact a ha).1) (fun a ha => (hact a ha).2.1) rfl rfl rfl
        refine hlea.notices.frame (t := ({ s with waits := s.waits.erase n } : Session).act .logged) rfl
          (fun a ha => (hact a ha).2.2) (.inl rfl) rfl rfl rfl rfl rfl (.inl rfl) id
      refine (hlog.acts (a := .logged) rfl).congr ?_
      exact ⟨fun hl hc => hl (h.phase.closed.mp hc), fun hc hl => hc (h.phase.closed.mpr hl)⟩
    | threw =>
      cases ht
      exact hsta

end Session

end OpenAgent.McpApps
