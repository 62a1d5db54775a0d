import OpenAgent.Channels.Contracts
import OpenAgent.Gateway.Artifacts
import OpenAgent.Lib.Framing

namespace OpenAgent.Channels

open Gateway List Sha256 BridgeContext

/-- `_framed`, which raises where a value is too long for its length. -/
def framed (values : List String) : Except String Bytes :=
  match Framing.framed 4 (values.map utf8) with
  | some bytes => .ok bytes
  | none => .error "int too big to convert"

namespace BridgeContext

variable (context : BridgeContext)

def routing : Option (ConversationMode × Option String) :=
  match context.conversationKind, context.threadId with
  | .direct, _ =>
    if context.audienceIds.dedup = [context.actorId] then some (.privately, some context.actorId) else none
  | .channel, none => some (.channel, none)
  | .thread, some _ => some (.thread, none)
  | _, _ => none

def proved : Bool :=
  context.audienceComplete && context.audienceVerifiedAt.isSome && !context.audienceIds.isEmpty &&
    context.audienceIds.contains context.actorId

def audienceFields : List String := "openagent-channel-audience/v1" :: sortedIds context.audienceIds

def sessionFields (mode : ConversationMode) (privateActor : Option String) (epoch : String) : List String :=
  ["openagent-channel-session/v1", context.bindingId, context.provider, context.accountId, mode.text,
    context.conversationId, context.threadId.getD "", privateActor.getD "", epoch]

def conversation (mode : ConversationMode) (privateActor : Option String) (epoch key : String) : BridgeConversation where
  mode := mode
  bindingId := context.bindingId
  provider := context.provider
  accountId := context.accountId
  conversationId := context.conversationId
  threadId := context.threadId
  privateActorId := privateActor
  audienceIds := sortedIds context.audienceIds
  audienceEpoch := epoch
  sessionKey := key

end BridgeContext

def describeWith [Sha256] (context : BridgeContext) (mode : ConversationMode) (privateActor : Option String) :
    Except String BridgeConversation := do
  let audience ← framed context.audienceFields
  let epoch := Sha256.hexdigest audience
  let session ← framed (context.sessionFields mode privateActor epoch)
  let conversation := context.conversation mode privateActor epoch (sessionMark ++ Sha256.hexdigest session)
  conversation.check
  return conversation

def describeConversation [Sha256] (context : BridgeContext) : Except String (Option BridgeConversation) :=
  if context.proved then
    match context.routing with
    | some (mode, privateActor) => (describeWith context mode privateActor).map some
    | none => .ok none
  else .ok none

/-- When the audience of a context is attested and its kind and thread go together. -/
structure Attested (context : BridgeContext) : Prop where
  complete : context.audienceComplete = true
  timed : context.audienceVerifiedAt ≠ none
  nonempty : context.audienceIds ≠ []
  included : context.actorId ∈ context.audienceIds
  routed : context.conversationKind = .direct ∧ (∀ a ∈ context.audienceIds, a = context.actorId) ∨
    context.conversationKind = .channel ∧ context.threadId = none ∨
    context.conversationKind = .thread ∧ context.threadId ≠ none

def hashed [Sha256] (context : BridgeContext) : List Bytes :=
  match context.routing, framed context.audienceFields with
  | some (mode, privateActor), .ok audience =>
    match framed (context.sessionFields mode privateActor (Sha256.hexdigest audience)) with
    | .ok session => [audience, session]
    | .error _ => [audience]
  | _, _ => []

section Describe

variable {context : BridgeContext} {values : List String} {bytes : Bytes}

theorem framed_ok (h : framed values = .ok bytes) : Framing.framed 4 (values.map utf8) = some bytes := by
  rw [framed] at h
  split at h
  · rename_i hfra
    cases h
    exact hfra
  · cases h

theorem framed_exists (values : List String) (h : ∀ value ∈ values, (utf8 value).length ≤ 512) : ∃ bytes, framed values = .ok bytes := by
  have hlen : ∀ raw ∈ values.map utf8, raw.length < 256 ^ 4 := by
    intro raw hraw
    obtain ⟨value, hval, rfl⟩ := mem_map.mp hraw
    have := h value hval
    omega
  obtain ⟨bytes, hbyt⟩ := Framing.framed_isSome hlen
  exact ⟨bytes, by rw [framed, hbyt]⟩

theorem framed_injective {others : List String} (h : framed values = .ok bytes) (h' : framed others = .ok bytes) :
    values = others :=
  map_injective_iff.mpr (fun _ _ => utf8_injective)
    (Framing.framed_injective (by decide) (framed_ok h) (framed_ok h'))

theorem ConversationMode.text_injective {mode mode' : ConversationMode} (h : mode.text = mode'.text) :
    mode = mode' := by
  cases mode <;> cases mode' <;> first | rfl | simp [text] at h

theorem ConversationMode.length_text (mode : ConversationMode) : (utf8 mode.text).length ≤ 512 := by
  cases mode <;> decide

theorem length_digest {digest : String} (h : isDigest digest.toList = true) : (utf8 digest).length ≤ 512 := by
  have hle := length_utf8_le digest.toList
  simp only [isDigest, Bool.and_eq_true, beq_iff_eq] at h
  rw [String.ofList_toList, h.1] at hle
  omega

theorem isSessionKey_mark {digest : String} (h : isDigest digest.toList = true) :
    isSessionKey (sessionMark ++ digest).toList = true := by
  rw [isSessionKey, String.toList_append, take_left, drop_left, h]
  simp

structure Checked (context : BridgeContext) : Prop where
  version : context.apiVersion = apiVersion
  identifiers : ∀ value ∈ [context.bindingId, context.provider, context.accountId, context.actorId,
    context.conversationId] ++ context.audienceIds, ∀ name, checkIdentifier value name = .ok ()
  thread : ∀ name, checkOptional context.threadId name = .ok ()
  bounded : context.audienceIds.length ≤ 1000
  distinct : context.audienceIds.Nodup

theorem nodup_of_length_dedup {l : List String} (h : l.dedup.length = l.length) : l.Nodup :=
  dedup_eq_self.mp (l.dedup_sublist.eq_of_length h)

theorem checked_of_check (h : context.check = .ok ()) : Checked context := by
  simp only [check, bind_eq_ok, forM_eq_forM, forM_eq_ok, checkVersion_eq_ok, raiseIf_eq_ok,
    forall_mem_cons] at h
  obtain ⟨hver, ⟨hbin, hpro, hacc, hact, hcon, _, _⟩, ⟨hthr, _⟩, hbou, haud, hdis, _⟩ := h
  refine ⟨hver, ?_, fun _ => checkOptional_rename hthr, Nat.not_lt.mp hbou, nodup_of_length_dedup (not_not.mp hdis)⟩
  intro value hval name
  simp only [cons_append, nil_append, mem_cons] at hval
  rcases hval with rfl | rfl | rfl | rfl | rfl | hval
  · exact checkIdentifier_rename hbin
  · exact checkIdentifier_rename hpro
  · exact checkIdentifier_rename hacc
  · exact checkIdentifier_rename hact
  · exact checkIdentifier_rename hcon
  · exact checkIdentifier_rename (haud value hval)

theorem Checked.length_le (h : Checked context) {value : String} (hval : value ∈ [context.bindingId,
    context.provider, context.accountId, context.actorId, context.conversationId] ++ context.audienceIds) :
    (utf8 value).length ≤ 512 := (checkIdentifier_eq_ok.mp (h.identifiers value hval "")).2.1

theorem length_getD {value : Option String} (h : checkOptional value "" = .ok ()) :
    (utf8 (value.getD "")).length ≤ 512 := by
  cases value with
  | none => decide
  | some value => exact (checkIdentifier_eq_ok.mp h).2.1

theorem getD_injective {value other : Option String} (h : checkOptional value "" = .ok ())
    (h' : checkOptional other "" = .ok ()) (heq : value.getD "" = other.getD "") : value = other := by
  cases value with
  | none =>
    cases other with
    | none => rfl
    | some other => exact absurd heq.symm (checkIdentifier_eq_ok.mp h').1
  | some value =>
    cases other with
    | none => exact absurd heq (checkIdentifier_eq_ok.mp h).1
    | some other => exact congrArg some heq

variable {mode : ConversationMode} {privateActor : Option String}

theorem routing_some (h : context.routing = some (mode, privateActor)) :
    (mode = .privately → privateActor = some context.actorId ∧ context.audienceIds.dedup = [context.actorId]) ∧
      (mode ≠ .privately → privateActor = none) ∧ (mode = .channel → context.threadId = none) ∧
        (mode = .thread → context.threadId ≠ none) := by
  rw [routing] at h
  split at h
  · split at h
    · cases h
      simp_all
    · cases h
  · cases h
    simp_all
  · cases h
    simp_all
  · cases h

theorem Checked.actor (h : Checked context) (hrou : context.routing = some (mode, privateActor)) :
    checkOptional privateActor "" = .ok () := by
  by_cases hmode : mode = .privately
  · rw [((routing_some hrou).1 hmode).1]
    exact h.identifiers context.actorId (by simp) ""
  · rw [(routing_some hrou).2.1 hmode]
    rfl

variable [Sha256]

theorem Checked.describeWith (h : Checked context) (hrou : context.routing = some (mode, privateActor))
    (hinc : context.actorId ∈ context.audienceIds)
    (hfor : ∀ message, isDigest (Sha256.hexdigest message).toList = true) :
    ∃ audience session, framed context.audienceFields = .ok audience ∧
      framed (context.sessionFields mode privateActor (Sha256.hexdigest audience)) = .ok session ∧
      hashed context = [audience, session] ∧ Channels.describeWith context mode privateActor = .ok
        (context.conversation mode privateActor (Sha256.hexdigest audience) (sessionMark ++ Sha256.hexdigest session)) := by
  obtain ⟨audience, haud⟩ := framed_exists context.audienceFields (by
    intro value hval
    rw [audienceFields, mem_cons] at hval
    rcases hval with rfl | hval
    · decide
    · exact h.length_le (mem_append_right _ ((sortedIds_perm _).mem_iff.mp hval)))
  obtain ⟨session, hses⟩ := framed_exists (context.sessionFields mode privateActor (hexdigest audience)) (by
      intro value hval
      simp only [sessionFields, mem_cons, not_mem_nil, or_false] at hval
      rcases hval with rfl | rfl | rfl | rfl | rfl | rfl | rfl | rfl | rfl
      · decide
      · exact h.length_le (by simp)
      · exact h.length_le (by simp)
      · exact h.length_le (by simp)
      · exact mode.length_text
      · exact h.length_le (by simp)
      · exact length_getD (h.thread "")
      · exact length_getD (h.actor hrou)
      · exact length_digest (hfor audience))
  have hche : (context.conversation mode privateActor (hexdigest audience)
      (sessionMark ++ hexdigest session)).check = .ok () := by
    have hperm := sortedIds_perm context.audienceIds
    have hnod : (sortedIds context.audienceIds).Nodup := hperm.nodup_iff.mpr h.distinct
    obtain ⟨hpri, hsha, hcha, hthr⟩ := routing_some hrou
    simp only [BridgeConversation.check, bind_eq_ok, forM_eq_forM, forM_eq_ok, checkVersion_eq_ok, raiseIf_eq_ok,
      forall_mem_cons, not_mem_nil, false_implies, implies_true, and_true]
    refine ⟨rfl, ⟨?_, ?_, ?_, ?_⟩, ⟨?_, ?_⟩, ?_, ?_, ?_, ?_⟩
    · exact h.identifiers context.bindingId (by simp) _
    · exact h.identifiers context.provider (by simp) _
    · exact h.identifiers context.accountId (by simp) _
    · exact h.identifiers context.conversationId (by simp) _
    · exact h.thread _
    · exact checkOptional_rename (h.actor hrou)
    · rw [not_or, not_not, not_not]
      refine ⟨⟨?_, hperm.length_eq.trans_le h.bounded⟩, congrArg List.length hnod.dedup⟩
      exact hperm.length_eq.symm ▸ length_pos_of_mem hinc
    · intro actor hact
      exact h.identifiers actor (mem_append_right _ (hperm.mem_iff.mp hact)) _
    · exact not_not.mpr (sortedIds_sortedIds _).symm
    · have hdir : mode = .privately → (sortedIds context.audienceIds).map some = [privateActor] := by
        intro hmode
        obtain ⟨hact, hsame⟩ := hpri hmode
        rw [h.distinct.dedup] at hsame
        rw [hact, hsame]
        rfl
      simp only [not_or, not_and, not_not, ne_eq]
      exact ⟨hdir, hsha, hcha, fun hmode => hthr hmode, hfor audience, isSessionKey_mark (hfor session)⟩
  refine ⟨audience, session, haud, hses, ?_, ?_⟩
  · rw [hashed, hrou, haud]
    simp only [hses]
  rw [Channels.describeWith, haud]
  simp only [bind, Except.bind, hses]
  rw [hche]
  rfl

omit [Sha256] in
theorem eq_singleton_of_nodup {l : List String} {x : String} (hnod : l.Nodup) (hmem : x ∈ l)
    (hall : ∀ a ∈ l, a = x) : l = [x] := by
  cases l with
  | nil => cases hmem
  | cons a l =>
    cases l with
    | nil => rw [hall a mem_cons_self]
    | cons b l =>
      have hab := (nodup_cons.mp hnod).1
      rw [hall a mem_cons_self, hall b (by simp)] at hab
      exact absurd mem_cons_self hab

omit [Sha256] in
theorem Checked.attested_iff (h : Checked context) :
    Attested context ↔ context.proved = true ∧ context.routing ≠ none := by
  have hpro : context.proved = true ↔ context.audienceComplete = true ∧ context.audienceVerifiedAt ≠ none ∧
      context.audienceIds ≠ [] ∧ context.actorId ∈ context.audienceIds := by
    simp [proved, Option.isSome_iff_ne_none, and_assoc]
  have hrou : context.actorId ∈ context.audienceIds → (context.routing ≠ none ↔
      context.conversationKind = .direct ∧ (∀ a ∈ context.audienceIds, a = context.actorId) ∨
      context.conversationKind = .channel ∧ context.threadId = none ∨
      context.conversationKind = .thread ∧ context.threadId ≠ none) := by
    intro hmem
    have hdir : context.audienceIds.dedup = [context.actorId] ↔ ∀ a ∈ context.audienceIds, a = context.actorId := by
      rw [h.distinct.dedup]
      constructor
      · intro hl a ha
        rw [hl] at ha
        exact mem_singleton.mp ha
      · exact eq_singleton_of_nodup h.distinct hmem
    rw [routing, ← hdir]
    cases context.conversationKind <;> cases context.threadId <;> simp
  rw [hpro]
  constructor
  · intro ha
    exact ⟨⟨ha.complete, ha.timed, ha.nonempty, ha.included⟩, (hrou ha.included).mpr ha.routed⟩
  · rintro ⟨⟨hcom, htim, hnon, hinc⟩, hrout⟩
    exact ⟨hcom, htim, hnon, hinc, (hrou hinc).mp hrout⟩

omit [Sha256] in
theorem included_of_proved (h : context.proved = true) : context.actorId ∈ context.audienceIds := by
  rw [proved, Bool.and_eq_true] at h
  exact contains_iff_mem.mp h.2

theorem Checked.describe (h : Checked context) (hfor : ∀ message, isDigest (Sha256.hexdigest message).toList = true) :
    ∃ described, describeConversation context = .ok described ∧ (described ≠ none ↔ Attested context) := by
  rw [h.attested_iff, describeConversation]
  split
  · rename_i hpro
    cases hrou : context.routing with
    | none => exact ⟨none, rfl, by simp⟩
    | some routed =>
      obtain ⟨mode, privateActor⟩ := routed
      obtain ⟨audience, session, _, _, _, hd⟩ := h.describeWith hrou (included_of_proved hpro) hfor
      simp only [hd]
      exact ⟨_, rfl, by simp [hpro]⟩
  · rename_i hpro
    exact ⟨none, rfl, by simp [hpro]⟩

theorem Checked.described (h : Checked context)
    (hfor : ∀ message, isDigest (Sha256.hexdigest message).toList = true) {conversation : BridgeConversation}
    (hd : describeConversation context = .ok (some conversation)) :
    ∃ mode privateActor audience session, context.routing = some (mode, privateActor) ∧
      framed context.audienceFields = .ok audience ∧
      framed (context.sessionFields mode privateActor (Sha256.hexdigest audience)) = .ok session ∧
      hashed context = [audience, session] ∧ conversation =
        context.conversation mode privateActor (Sha256.hexdigest audience) (sessionMark ++ Sha256.hexdigest session) := by
  rw [describeConversation] at hd
  split at hd
  · rename_i hpro
    cases hrou : context.routing with
    | none =>
      rw [hrou] at hd
      cases hd
    | some routed =>
      obtain ⟨mode, privateActor⟩ := routed
      obtain ⟨audience, session, haud, hses, hhas, hwith⟩ :=
        h.describeWith hrou (included_of_proved hpro) hfor
      simp only [hrou, hwith] at hd
      cases hd
      exact ⟨mode, privateActor, audience, session, rfl, haud, hses, hhas, rfl⟩
  · cases hd

end Describe

section Keys

variable [Sha256] (context other : BridgeContext)

/-- A context is described exactly where it is attested, never with an error, and the keys of two descriptors are equal
exactly if they are of one conversation. -/
theorem conversation_keys_identify (hcontext : context.check = .ok ()) (hother : other.check = .ok ())
    (hformat : ∀ message, isDigest (Sha256.hexdigest message).toList = true)
    (hcollision : ∀ message ∈ hashed context, ∀ message' ∈ hashed other,
      Sha256.hexdigest message = Sha256.hexdigest message' → message = message') :
    (∃ described, describeConversation context = .ok described ∧ (described ≠ none ↔ Attested context)) ∧
    ∀ conversation conversation', describeConversation context = .ok (some conversation) →
      describeConversation other = .ok (some conversation') →
      (conversation.sessionKey = conversation'.sessionKey ↔
        context.bindingId = other.bindingId ∧ context.provider = other.provider ∧ context.accountId = other.accountId ∧
        conversation.mode = conversation'.mode ∧ context.conversationId = other.conversationId ∧
        context.threadId = other.threadId ∧ conversation.privateActorId = conversation'.privateActorId ∧
        ∀ actor, actor ∈ context.audienceIds ↔ actor ∈ other.audienceIds) := by
  have hc := checked_of_check hcontext
  have ho := checked_of_check hother
  refine ⟨hc.describe hformat, ?_⟩
  intro conversation conversation' hd hd'
  obtain ⟨mode, actor, audience, session, hrou, haud, hses, hhas, rfl⟩ := hc.described hformat hd
  obtain ⟨mode', actor', audience', session', hrou', haud', hses', hhas', rfl⟩ :=
    ho.described hformat hd'
  rw [hhas, hhas'] at hcollision
  -- the epochs are equal exactly if the audiences are
  have hepo : hexdigest audience = hexdigest audience' ↔
      ∀ a, a ∈ context.audienceIds ↔ a ∈ other.audienceIds := by
    rw [← perm_ext_iff_of_nodup hc.distinct ho.distinct, ← sortedIds_eq_iff]
    constructor
    · intro heq
      have hsame := hcollision audience (by simp) audience' (by simp) heq
      exact (List.cons.inj (framed_injective haud (hsame ▸ haud'))).2
    intro heq
    rw [audienceFields, heq] at haud
    exact congrArg _ (Except.ok.inj (haud.symm.trans haud'))
  change sessionMark ++ _ = sessionMark ++ _ ↔ _
  rw [String.append_right_inj]
  constructor
  · intro heq
    have hsame := hcollision session (by simp) session' (by simp) heq
    have hfie := framed_injective hses (hsame ▸ hses')
    simp only [sessionFields, List.cons.injEq, and_true, true_and] at hfie
    obtain ⟨hbin, hpro, hacc, hmode, hcon, hthr, hact, hdig⟩ := hfie
    exact ⟨hbin, hpro, hacc, ConversationMode.text_injective hmode, hcon,
      getD_injective (hc.thread "") (ho.thread "") hthr,
      getD_injective (hc.actor hrou) (ho.actor hrou') hact, hepo.mp hdig⟩
  rintro ⟨hbin, hpro, hacc, hmode, hcon, hthr, hact, hmem⟩
  change mode = mode' at hmode
  change actor = actor' at hact
  rw [sessionFields, hbin, hpro, hacc, hmode, hcon, hthr, hact, hepo.mpr hmem] at hses
  exact congrArg _ (Except.ok.inj (hses.symm.trans hses'))

end Keys

def sampleContext : BridgeContext where
  bindingId := "binding"
  provider := "slack"
  accountId := "team"
  actorId := "alice"
  conversationId := "channel"
  eventId := "event"
  conversationKind := .channel
  audienceIds := ["bob", "alice"]
  audienceComplete := true
  audienceVerifiedAt := some (.finite 1700000000)

def laterContext : BridgeContext :=
  { sampleContext with actorId := "bob", eventId := "later", audienceIds := ["alice", "bob"] }

def sampleEpoch : String := "b52e3d7b021cdc403752bf557b35c3da4697d8a62ef4bad884590d68503992c1"

def sampleDigest (message : Bytes) : String :=
  if framed ["openagent-channel-audience/v1", "alice", "bob"] = .ok message then sampleEpoch
  else "cd70dfaa9c05fbb6c74a837825dc2aaeb8510debd925fb580e785d025b3e0605"

abbrev sampleDigests : Sha256 := ⟨sampleDigest⟩

theorem sampleDigest_format (message : Bytes) : isDigest (sampleDigest message).toList = true := by
  rw [sampleDigest]
  split
  · decide
  · decide

def sampleConversation : BridgeConversation :=
  sampleContext.conversation .channel none sampleEpoch
    "oa-channel-v1-cd70dfaa9c05fbb6c74a837825dc2aaeb8510debd925fb580e785d025b3e0605"

set_option maxRecDepth 4000 in
theorem reordered_audience_keeps_key :
    @describeConversation sampleDigests sampleContext = .ok (some sampleConversation) ∧
      @describeConversation sampleDigests laterContext = .ok (some sampleConversation) ∧
      sampleContext.bindingId = laterContext.bindingId ∧
      ∀ actor, actor ∈ sampleContext.audienceIds ↔ actor ∈ laterContext.audienceIds := by
  have hfir : @describeConversation sampleDigests sampleContext = .ok (some sampleConversation) := by decide
  have hlat : @describeConversation sampleDigests laterContext = .ok (some sampleConversation) := by decide
  have hkeys := (@conversation_keys_identify sampleDigests sampleContext laterContext (by decide) (by decide)
    sampleDigest_format (by decide)).2 _ _ hfir hlat
  obtain ⟨hbin, _, _, _, _, _, _, hmem⟩ := hkeys.mp rfl
  exact ⟨hfir, hlat, hbin, hmem⟩

end OpenAgent.Channels
