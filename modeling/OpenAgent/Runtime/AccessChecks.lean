import OpenAgent.Runtime.Access

namespace OpenAgent.RuntimeAccess

open Py Automation Awaits List Nat

def decisive (step : Step) : Option Nat :=
  match step with
  | .confirmed _ _ => none
  | .session _ completed | .policy completed => some completed

def ConfirmedLast (notes : List Step) : Prop :=
  ∃ start stop, .confirmed start stop ∈ notes ∧ ∀ step ∈ notes, ∀ completed ∈ decisive step, completed ≤ start

def Rechecked (context : ExecutionContext) (action : String) (resource : ResourceRef) (notes : List Step) : Prop :=
  fromChannel context = true ∨
    (isMemory action = false ∧ resource.kind = "session" ∧ ∃ completed, .session true completed ∈ notes)

def stamp (step : Step) : Nat :=
  match step with
  | .confirmed start stop => max start stop
  | .session _ completed | .policy completed => completed

theorem decisive_le_stamp {step : Step} {completed : Nat} (h : completed ∈ decisive step) : completed ≤ stamp step := by
  cases step with
  | confirmed start stop => cases h
  | session _ _ | policy _ =>
    cases h
    exact le_refl _

structure Checks {α : Type} (x : Auth α) : Prop where
  forward : ∀ w t, t ≤ (x w t).time
  silent : ∀ w t, (x w t).notes = []

section Checking

variable {α β : Type} {x y : Auth α} {f : α → Auth β}

theorem Checks.pure (a : α) : Checks (Pure.pure a : Auth α) := ⟨fun _ _ => le_refl _, fun _ _ => rfl⟩

theorem Checks.await (g : World → α) : Checks (Awaits.await g : Auth α) := ⟨fun _ t => le_succ t, fun _ _ => rfl⟩

theorem Checks.peek (g : World → α) : Checks (Awaits.peek g : Auth α) := ⟨fun _ _ => le_refl _, fun _ _ => rfl⟩

theorem Checks.bind (hx : Checks x) (hf : ∀ a, Checks (f a)) : Checks (x >>= f) where
  forward w t := le_trans (hx.forward w t) ((hf _).forward w _)
  silent w t := by rw [notes_bind, hx.silent, (hf _).silent, append_nil]

theorem Checks.ite {p : Prop} [Decidable p] (hx : Checks x) (hy : Checks y) : Checks (if p then x else y) := by
  split
  · exact hx
  · exact hy

variable {x : Auth (Option α)}

theorem confirming_some {w : Nat → World} {t : Nat} {a : α} (hx : Checks x)
    (h : (confirming x w t).value = some a) : (confirming x w t).notes = [.confirmed t (confirming x w t).time] := by
  have hval : (x w t).value = some a := h
  simp [confirming, hx.silent, hval]

theorem confirming_notes {w : Nat → World} {t : Nat} (hx : Checks x) :
    ∀ e ∈ (confirming x w t).notes, e = .confirmed t (confirming x w t).time := by
  intro e he
  simp only [confirming, hx.silent, nil_append] at he
  split at he
  · exact mem_singleton.mp he
  · cases he

theorem timely_confirming (hx : Checks x) : Timely stamp (confirming x) where
  forward := hx.forward
  stamps w t e he := by
    rw [confirming_notes hx e he]
    exact Nat.max_le.mpr ⟨hx.forward w t, Nat.le_refl _⟩

end Checking

section Ingress

variable {context : ExecutionContext}

theorem checks_channelCheck : Checks (channelCheck context) := by
  refine Checks.bind (Checks.peek _) fun found => ?_
  cases found with
  | none => exact Checks.pure _
  | some binding =>
    refine Checks.ite (Checks.pure _) (Checks.bind ?_ fun admitted => Checks.ite ?_ (Checks.pure _))
    · exact Checks.ite (Checks.pure _) (Checks.ite (Checks.await _) (Checks.pure _))
    · exact Checks.bind (Checks.await _) fun _ => Checks.pure _

theorem checks_deviceStillAuthorized {request : Request} {certificate : Certificate} :
    Checks (deviceStillAuthorized request certificate) := by
  refine Checks.ite (Checks.pure _) (Checks.bind (Checks.peek _) fun _ => Checks.bind (Checks.peek _) fun _ => ?_)
  refine Checks.ite (Checks.pure _) (Checks.ite (Checks.pure _) ?_)
  exact Checks.bind (Checks.await _) fun _ => Checks.bind (Checks.peek _) fun _ => Checks.pure _

theorem checks_bindingCheck : Checks (bindingCheck context) := by
  refine Checks.bind (Checks.peek _) fun found => ?_
  cases found with
  | none => exact Checks.pure _
  | some binding =>
    exact Checks.ite (Checks.pure _) (Checks.bind checks_deviceStillAuthorized fun _ => Checks.pure _)

theorem checks_claimedAncestor {grant : Automation.Grant} {start : String} (fuel : Nat) (seen : List String)
    (parent : Option String) : Checks (claimedAncestor reads grant context start fuel seen parent) := by
  induction fuel generalizing seen parent with
  | zero =>
    unfold claimedAncestor
    exact Checks.pure _
  | succ fuel ih =>
    unfold claimedAncestor
    cases parent with
    | none => exact Checks.pure _
    | some run =>
      refine Checks.ite (Checks.pure _) (Checks.bind (Checks.await fun world => world.accepted run) fun found => ?_)
      cases found with
      | none => exact Checks.pure _
      | some accepted =>
        refine Checks.ite (Checks.pure _) ?_
        cases afterPrefix start accepted.sessionId with
        | none => exact ih _ _
        | some occurrence => exact Checks.pure _

variable [Foundations]

theorem checks_claimedOneShotIsActive {grant : Automation.Grant} {definition : Definition} :
    Checks (claimedOneShotIsActive reads grant definition context) := by
  refine Checks.ite (Checks.pure _) (Checks.bind ?_ fun found => ?_)
  · unfold claimedOccurrenceId
    cases afterPrefix ("automation:task:" ++ definition.identifier.getD "" ++ ":") context.sessionId with
    | none => exact checks_claimedAncestor _ _ _
    | some occurrence => exact Checks.pure _
  cases found with
  | none => exact Checks.pure _
  | some occurrence =>
    refine Checks.ite (Checks.pure _) (Checks.bind
      (Checks.await fun world => world.taskRun occurrence (definition.identifier.getD "")) fun run => ?_)
    cases run with
    | none => exact Checks.pure _
    | some run =>
      refine Checks.ite (Checks.pure _) (Checks.bind (Checks.peek World.clock) fun now => ?_)
      cases run.finishedAt <;> exact Checks.pure _

theorem checks_validate : Checks (validate reads context) := by
  refine Checks.ite (Checks.pure _) (Checks.bind
    (Checks.await fun world => world.grant (context.delegationId.getD "")) fun found => ?_)
  cases found with
  | none => exact Checks.pure _
  | some grant =>
    refine Checks.ite (Checks.pure _) (Checks.ite (Checks.pure _) (Checks.ite (Checks.pure _) ?_))
    refine Checks.bind (Checks.await fun world => world.definition grant.kind grant.definitionId) fun current => ?_
    cases current with
    | none => exact Checks.pure _
    | some current =>
      refine Checks.bind (Checks.ite (Checks.pure _) checks_claimedOneShotIsActive) fun enabled => ?_
      exact Checks.ite (Checks.await fun world => world.directory.principalActive grant.principal) (Checks.pure _)

end Ingress

section Policy

variable {α : Type}

theorem timely_policyRead (f : World → α) : Timely stamp (policyRead f) :=
  (Timely.await f).bind fun _ => (Timely.note fun t => le_refl t).bind fun _ => Timely.pure _

theorem timely_readSession (id : String) : Timely stamp (readSession id) :=
  (Timely.await _).bind fun _ => (Timely.note fun t => le_refl t).bind fun _ => Timely.pure _

theorem timely_audienceOf [Contracts] (row : SessionRow) : Timely stamp (audienceOf row) := by
  unfold audienceOf
  cases principalOf row.ownerPrincipalId row.tenantId with
  | none => exact Timely.pure _
  | some owner =>
    refine (timely_policyRead _).bind fun grants => Timely.ite ?_ (Timely.pure _)
    refine (timely_policyRead _).bind fun members => ?_
    cases members with
    | none => exact Timely.pure _
    | some members => exact Timely.ite (Timely.pure _) (Timely.pure _)

def Closes (x : Auth (Option Bool)) : Prop :=
  ∀ w t, (x w t).value = some true → ∃ start stop, Step.confirmed start stop ∈ (x w t).notes ∧ t ≤ start ∧
    ∀ step ∈ (x w t).notes, ∀ completed ∈ decisive step, completed ≤ start

def Leaves (x : Auth (Option Bool)) : Prop :=
  ∀ w t, (x w t).value = some true → ∃ step ∈ (x w t).notes, ∃ completed ∈ decisive step, t < completed ∧
    ∀ start stop, Step.confirmed start stop ∈ (x w t).notes → start < completed

variable {x y : Auth (Option Bool)} {a : Auth α} {f : α → Auth (Option Bool)}

theorem Closes.refuse : Closes (pure (some false)) := by
  intro w t h
  cases h

theorem Closes.raise : Closes (pure none) := by
  intro w t h
  cases h

theorem Closes.ite {p : Prop} [Decidable p] (hx : Closes x) (hy : Closes y) : Closes (if p then x else y) := by
  split
  · exact hx
  · exact hy

theorem Closes.bind (ha : Timely stamp a) (hf : ∀ v, Closes (f v)) : Closes (a >>= f) := by
  intro w t h
  obtain ⟨start, stop, hmem, hsta, hlast⟩ := hf _ w _ h
  refine ⟨start, stop, mem_append_right _ hmem, le_trans (ha.forward w t) hsta, fun step hstep k hk => ?_⟩
  rcases mem_append.mp hstep with hfir | hsec
  · exact le_trans (decisive_le_stamp hk) (le_trans (ha.stamps w t step hfir) hsta)
  · exact hlast step hsec k hk

theorem closes_confirming {check : Auth (Option α)} (hche : Checks check) :
    Closes (confirming check >>= fun found => pure (some found.isSome)) := by
  intro w t h
  obtain ⟨found, hfound⟩ := Option.isSome_iff_exists.mp (Option.some_inj.mp h)
  have hnot := confirming_some hche hfound
  rw [notes_bind, hnot, notes_pure, append_nil]
  refine ⟨t, _, mem_singleton.mpr rfl, le_refl t, fun step hstep k hk => ?_⟩
  rw [mem_singleton.mp hstep] at hk
  cases hk

theorem Leaves.refuse : Leaves (pure (some false)) := by
  intro w t h
  cases h

theorem leaves_policyRead (g : World → Bool) : Leaves (policyRead g >>= fun allowed => pure (some allowed)) := by
  intro w t _
  refine ⟨.policy (t + 1), by simp [policyRead, notes_bind, time_bind, await, note], t + 1, rfl, lt_succ_self t, ?_⟩
  intro start stop hmem
  simp [policyRead, notes_bind, await, note] at hmem

end Policy

section Ends

variable {α : Type} {a : Auth α} {rest : Auth (Option Bool)} {w : Nat → World} {t : Nat}

theorem last_of_closes (ha : Timely stamp a) (hrest : Closes rest) (h : (rest w (a w t).time).value = some true) :
    ConfirmedLast ((a w t).notes ++ (rest w (a w t).time).notes) := by
  obtain ⟨start, stop, hmem, hsta, hlast⟩ := hrest w _ h
  refine ⟨start, stop, mem_append_right _ hmem, fun step hstep k hk => ?_⟩
  rcases mem_append.mp hstep with hfir | hsec
  · exact le_trans (decisive_le_stamp hk) (le_trans (ha.stamps w t step hfir) hsta)
  · exact hlast step hsec k hk

theorem not_last_of_leaves (ha : Timely stamp a) (hrest : Leaves rest) (h : (rest w (a w t).time).value = some true) :
    ¬ ConfirmedLast ((a w t).notes ++ (rest w (a w t).time).notes) := by
  rintro ⟨start, stop, hmem, hlast⟩
  obtain ⟨step, hstep, k, hk, hlat, hsta⟩ := hrest w _ h
  have hafter := hlast step (mem_append_right _ hstep) k hk
  rcases mem_append.mp hmem with hfir | hsec
  · have hbef := ha.stamps w t _ hfir
    have hmax : start ≤ stamp (.confirmed start stop) := le_max_left start stop
    omega
  · have hbef := hsta start stop hsec
    omega

end Ends

variable {authorizer : Authorizer} {context : ExecutionContext} {action : String} {resource : ResourceRef}
  {audience : List PrincipalRef}

section Callbacks

theorem closes_recheckChannel : Closes (recheckChannel context) := closes_confirming checks_channelCheck

theorem timely_memoryAllows : Timely stamp (memoryAllows authorizer context action resource audience) :=
  Timely.ite (timely_policyRead _) (Timely.pure _)

theorem timely_sourceAllows : Timely stamp (sourceAllows authorizer context action resource audience) :=
  Timely.ite (timely_policyRead _) (Timely.pure _)

theorem leaves_memoryAllows :
    Leaves (memoryAllows authorizer context action resource audience >>= fun allowed => pure (some allowed)) := by
  unfold memoryAllows
  split
  · exact leaves_policyRead _
  · exact Leaves.refuse

theorem leaves_sourceAllows :
    Leaves (sourceAllows authorizer context action resource audience >>= fun allowed => pure (some allowed)) := by
  unfold sourceAllows
  split
  · exact leaves_policyRead _
  · exact Leaves.refuse

end Callbacks

section ChannelSessions

variable [Contracts]

theorem closes_channelSession (opened : ChannelBinding) :
    Closes (channelSession context action resource audience opened) := by
  refine Closes.ite Closes.refuse (Closes.ite Closes.refuse (Closes.bind (timely_readSession _) fun row => ?_))
  refine Closes.ite Closes.refuse ?_
  cases row with
  | none => exact Closes.ite closes_recheckChannel Closes.refuse
  | some row =>
    refine Closes.ite Closes.refuse (Closes.bind (timely_audienceOf row) fun current => ?_)
    cases current with
    | none => exact Closes.raise
    | some current => exact Closes.ite closes_recheckChannel Closes.refuse

theorem closes_authorizeChannel {authorizer : Authorizer} :
    Closes (authorizeChannel authorizer context action resource audience) := by
  refine Closes.bind (timely_confirming checks_channelCheck) fun opened => ?_
  cases opened with
  | none => exact Closes.refuse
  | some opened =>
    refine Closes.ite Closes.refuse (Closes.ite (closes_channelSession opened) (Closes.bind ?_ fun allowed => ?_))
    · exact Timely.ite timely_memoryAllows (Timely.ite (Timely.pure _) timely_sourceAllows)
    · exact Closes.ite closes_recheckChannel Closes.refuse

end ChannelSessions

section Ingresses

variable [Foundations] {w : Nat → World} {t : Nat}

theorem timely_ingress : Timely stamp (ingress authorizer context) := by
  unfold ingress
  refine Timely.ite (Timely.ite ?_ (Timely.pure _)) ?_
  · exact timely_confirming (Checks.bind checks_validate fun _ => Checks.pure _)
  · exact (timely_confirming checks_bindingCheck).bind fun _ => Timely.pure _

theorem closes_recheckIngress : Closes (recheckIngress authorizer context) := by
  unfold recheckIngress ingress
  split
  · split
    · exact closes_confirming (Checks.bind checks_validate fun _ => Checks.pure _)
    · exact Closes.refuse
  intro w t h
  have hfound : ((binding context >>= fun found => pure (some found.isSome)) w t).value = some true := by
    simpa [value_bind] using h
  have hclo := closes_confirming checks_bindingCheck w t hfound
  simpa [notes_bind, binding] using hclo

theorem ingress_notes : ∀ e ∈ (ingress authorizer context w t).notes, decisive e = none := by
  intro e he
  unfold ingress at he
  split at he
  · split at he
    · rw [confirming_notes (Checks.bind checks_validate fun _ => Checks.pure _) e he]
      rfl
    · cases he
  rw [notes_bind, notes_pure, append_nil] at he
  rw [confirming_notes checks_bindingCheck e he]
  rfl

end Ingresses

section Authorize

variable [Contracts] [Foundations] {w : Nat → World} {t : Nat}

theorem closes_authorizeRow (identity : Identity) (row : SessionRow) :
    Closes (authorizeRow authorizer context action identity row) := by
  refine Closes.ite Closes.refuse (Closes.bind ?_ fun visible => Closes.ite Closes.refuse (Closes.bind ?_ fun held => ?_))
  · exact Timely.ite (Timely.pure _) (timely_policyRead _)
  · exact Timely.ite ((timely_audienceOf row).bind fun _ => Timely.pure _) (Timely.pure _)
  cases held with
  | none => exact Closes.raise
  | some held =>
    cases held with
    | false => exact Closes.refuse
    | true => exact closes_recheckIngress

theorem session_last_iff {α : Type} {a : Auth α} (identity : Identity) (ha : Timely stamp a) (hqui : ∀ e ∈ (a w t).notes, decisive e = none)
    (h : (authorizeSession authorizer context action resource identity w (a w t).time).value = some true) :
    ConfirmedLast ((a w t).notes ++ (authorizeSession authorizer context action resource identity w (a w t).time).notes) ↔
      ∃ completed, Step.session true completed ∈
        (a w t).notes ++ (authorizeSession authorizer context action resource identity w (a w t).time).notes := by
  have hread : (readSession resource.resourceId w (a w t).time).notes =
      [.session ((w ((a w t).time + 1)).session resource.resourceId).isSome ((a w t).time + 1)] := rfl
  cases hrow : (w ((a w t).time + 1)).session resource.resourceId with
  | none =>
    have hnot : (authorizeSession authorizer context action resource identity w (a w t).time).notes =
        [.session false ((a w t).time + 1)] := by
      rw [authorizeSession, notes_bind, hread, hrow]
      have hval : (readSession resource.resourceId w (a w t).time).value = none := hrow
      rw [hval]
      rfl
    rw [hnot]
    refine iff_of_false ?_ ?_
    · rintro ⟨start, stop, hmem, hlast⟩
      have hafter := hlast (.session false ((a w t).time + 1)) (by simp) _ rfl
      have hfir : Step.confirmed start stop ∈ (a w t).notes := by simpa using hmem
      have hbef := ha.stamps w t _ hfir
      have hmax : start ≤ stamp (.confirmed start stop) := le_max_left start stop
      omega
    rintro ⟨completed, hmem⟩
    have hfir : Step.session true completed ∈ (a w t).notes := by simpa using hmem
    have hnone := hqui _ hfir
    cases hnone
  | some row =>
    have hval : (readSession resource.resourceId w (a w t).time).value = some row := hrow
    have hclo : Closes (readSession resource.resourceId >>= fun _ =>
        authorizeRow authorizer context action identity row) :=
      Closes.bind (timely_readSession _) fun _ => closes_authorizeRow identity row
    have hsame : authorizeSession authorizer context action resource identity w (a w t).time =
        (readSession resource.resourceId >>= fun _ => authorizeRow authorizer context action identity row) w
          (a w t).time := by
      show Outcome.mk _ _ _ = Outcome.mk _ _ _
      rw [hval]
    rw [hsame] at h ⊢
    refine iff_of_true (last_of_closes ha hclo h) ⟨(a w t).time + 1, ?_⟩
    rw [notes_bind, hread, hrow]
    simp

theorem authorizeOther_last_iff (h : (authorizeOther authorizer context action resource audience w t).value = some true) :
    ConfirmedLast (authorizeOther authorizer context action resource audience w t).notes ↔
      isMemory action = false ∧ resource.kind = "session" ∧ ∃ completed, Step.session true completed ∈
          (authorizeOther authorizer context action resource audience w t).notes := by
  unfold authorizeOther at h ⊢
  rw [value_bind] at h
  rw [notes_bind]
  cases hopened : (ingress authorizer context w t).value with
  | none =>
    rw [hopened] at h
    cases h
  | some identity =>
    rw [hopened] at h
    simp only at h ⊢
    by_cases hten : resource.tenantId ≠ context.tenantId
    · rw [if_pos hten] at h
      cases h
    rw [if_neg hten] at h ⊢
    by_cases hmem : isMemory action = true
    · rw [if_pos hmem] at h ⊢
      refine iff_of_false (not_last_of_leaves timely_ingress leaves_memoryAllows h) ?_
      rintro ⟨hno, _⟩
      rw [hmem] at hno
      cases hno
    rw [if_neg hmem] at h ⊢
    by_cases hkind : resource.kind ≠ "session"
    · rw [if_pos hkind] at h ⊢
      refine iff_of_false (not_last_of_leaves timely_ingress leaves_sourceAllows h) ?_
      rintro ⟨_, hses, _⟩
      exact hkind hses
    rw [if_neg hkind] at h ⊢
    rw [session_last_iff identity timely_ingress ingress_notes h]
    exact ⟨fun hfound => ⟨by simpa using hmem, by simpa using hkind, hfound⟩, fun hall => hall.2.2⟩

end Authorize

/-- An authorization that is granted has confirmed its ingress last exactly where the context came over a channel, or where
the action is not one on memories and its resource a session whose row is found. -/
theorem granted_confirmed_last_iff [Contracts] [Foundations] (authorizer : Authorizer) (context : ExecutionContext)
    (action : String) (resource : ResourceRef) (audience : List PrincipalRef) (worlds : Nat → World)
    (h : (authorize authorizer context action resource audience worlds 0).value = some true) :
    ConfirmedLast (authorize authorizer context action resource audience worlds 0).notes ↔
      Rechecked context action resource (authorize authorizer context action resource audience worlds 0).notes := by
  unfold authorize Rechecked at *
  by_cases hcha : fromChannel context = true
  · rw [if_pos hcha] at h ⊢
    obtain ⟨start, stop, hmem, _, hlast⟩ := closes_authorizeChannel worlds 0 h
    exact iff_of_true ⟨start, stop, hmem, hlast⟩ (.inl hcha)
  rw [if_neg hcha] at h ⊢
  rw [authorizeOther_last_iff h]
  exact ⟨.inr, fun hor => hor.resolve_left hcha⟩

abbrev plainContracts : Contracts := ⟨PrincipalRef.subjectId, fun _ => none⟩

abbrev plainFoundations : Foundations := ⟨fun kind _ => kind.name, fun _ => false⟩

def ann : PrincipalRef := ⟨"openagent", "t", "ann", "user"⟩

def deviceWorld (active : Bool) : World where
  bindings id := if id = "i" then some
    { identity := ⟨"t", "user", "ann", "d", "device"⟩, request := ⟨"device_cert", some 0⟩, certificate := { devicePubkey := "k" } }
    else none
  deviceEpoch := some fun _ => 0
  deviceIsActive _ := active
  session id := if id = "s" then some ⟨"s", "t", some "user:ann", "private", 1, none⟩ else none
  memory _ _ _ _ := true

def deviceContext : ExecutionContext :=
  { author := ann, initiator := ann, authority := ann, tenantId := "t", sessionId := "s", agentId := "a", audience := [ann],
    ingressId := some "i" }

theorem read_session_confirmed_last : ∃ outcome,
    outcome = @authorize plainContracts plainFoundations {} deviceContext "run.read" ⟨"session", "t", "s"⟩ []
      (fun _ => deviceWorld true) 0 ∧
    outcome.value = some true ∧ ConfirmedLast outcome.notes := by
  refine ⟨_, rfl, by decide, ?_⟩
  refine (@granted_confirmed_last_iff plainContracts plainFoundations {} deviceContext "run.read" ⟨"session", "t", "s"⟩ []
    (fun _ => deviceWorld true) (by decide)).mpr (.inr ⟨by decide, rfl, 2, by decide⟩)

/-- The device is revoked while the memory callback is waited for. -/
theorem revoked_device_reads_memory :
    ¬ ∀ (contracts : Contracts) (foundations : Foundations) (authorizer : Authorizer) (context : ExecutionContext)
      (action : String) (resource : ResourceRef) (audience : List PrincipalRef) (worlds : Nat → World),
      (@authorize contracts foundations authorizer context action resource audience worlds 0).value = some true →
        ConfirmedLast (@authorize contracts foundations authorizer context action resource audience worlds 0).notes := by
  intro hall
  obtain ⟨start, stop, hmem, hlast⟩ := hall plainContracts plainFoundations {} deviceContext "memory.read"
    ⟨"memory", "t", "m"⟩ [] (fun t => deviceWorld (decide (t ≤ 1))) (by decide)
  have hnot : (@authorize plainContracts plainFoundations {} deviceContext "memory.read" ⟨"memory", "t", "m"⟩ []
      (fun t => deviceWorld (decide (t ≤ 1))) 0).notes = [.confirmed 0 1, .policy 2] := by decide
  rw [hnot] at hmem hlast
  have hsta : start = 0 ∧ stop = 1 := by simpa using hmem
  have hpol := hlast (.policy 2) (by simp) 2 rfl
  omega

end OpenAgent.RuntimeAccess
