import Mathlib.Data.List.Sort
import Mathlib.Data.List.Dedup
import Mathlib.Data.Rat.Defs

namespace OpenAgent.Channels

abbrev Bytes := List UInt8

def apiVersion : Int := 1
def maxContextMessages : Nat := 200

/-- `value.encode("utf-8")`. -/
def utf8 (value : String) : Bytes := value.toUTF8.data.toList

def checkVersion (value : Int) : Except String Unit :=
  if value = apiVersion then .ok () else .error "unsupported channel contract version"

def isControl (ch : Char) : Bool := ch.toNat < 32 || ch.toNat == 127

def checkIdentifier (value name : String) : Except String Unit :=
  if value = "" ∨ 512 < (utf8 value).length then
    .error s!"{name} must be a nonempty identifier of at most 512 bytes"
  else if value.toList.any isControl then .error s!"{name} contains control characters"
  else .ok ()

def checkOptional (value : Option String) (name : String) : Except String Unit :=
  match value with
  | none => .ok ()
  | some value => checkIdentifier value name

/-- `if condition: raise ValueError(message)`. -/
def raiseIf (condition : Prop) [Decidable condition] (message : String) : Except String Unit :=
  if condition then .error message else .ok ()

inductive ConversationMode where
  | privately
  | channel
  | thread
  deriving DecidableEq

def ConversationMode.text (mode : ConversationMode) : String :=
  match mode with
  | privately => "private"
  | channel => "channel"
  | thread => "thread"

inductive ConversationKind where
  | unknown
  | direct
  | group
  | channel
  | thread
  deriving DecidableEq

inductive Seconds where
  | finite (value : Rat)
  | infinite (negative : Bool)
  | nan
  deriving DecidableEq

def Seconds.valid (seconds : Seconds) : Bool :=
  match seconds with
  | finite value => 0 ≤ value
  | infinite _ | nan => false

structure BridgeConversation where
  mode : ConversationMode
  bindingId : String
  provider : String
  accountId : String
  conversationId : String
  threadId : Option String
  privateActorId : Option String
  audienceIds : List String
  audienceEpoch : String
  sessionKey : String
  apiVersion : Int := Channels.apiVersion
  deriving DecidableEq

structure BridgeContext where
  bindingId : String
  provider : String
  accountId : String
  actorId : String
  conversationId : String
  eventId : String
  threadId : Option String := none
  replyToEventId : Option String := none
  apiVersion : Int := Channels.apiVersion
  conversationKind : ConversationKind := .unknown
  audienceIds : List String := []
  audienceComplete : Bool := false
  audienceVerifiedAt : Option Seconds := none
  deriving DecidableEq

def isHex (ch : Char) : Bool := ('a' ≤ ch && ch ≤ 'f') || ('0' ≤ ch && ch ≤ '9')

/-- `re.fullmatch("[a-f0-9]{64}", value)`. -/
def isDigest (value : List Char) : Bool := value.length == 64 && value.all isHex

def sessionMark : String := "oa-channel-v1-"

def isSessionKey (value : List Char) : Bool :=
  value.take sessionMark.toList.length == sessionMark.toList && isDigest (value.drop sessionMark.toList.length)

/-- `tuple(sorted(values, key=lambda value: value.encode("utf-8")))`. -/
def sortedIds (values : List String) : List String := values.insertionSort (fun a b => utf8 a ≤ utf8 b)

namespace BridgeConversation

/-- `__post_init__`. -/
def check (self : BridgeConversation) : Except String Unit := do
  checkVersion self.apiVersion
  [(self.bindingId, "binding_id"), (self.provider, "provider"), (self.accountId, "account_id"),
    (self.conversationId, "conversation_id")].forM (fun (value, name) => checkIdentifier value name)
  [(self.threadId, "thread_id"), (self.privateActorId, "private_actor_id")].forM
    (fun (value, name) => checkOptional value name)
  raiseIf (¬ (1 ≤ self.audienceIds.length ∧ self.audienceIds.length ≤ 1000) ∨
    self.audienceIds.dedup.length ≠ self.audienceIds.length) "invalid conversation audience"
  self.audienceIds.forM (fun actor => checkIdentifier actor "conversation audience actor")
  raiseIf (self.audienceIds ≠ sortedIds self.audienceIds) "conversation audience must be in UTF-8 byte order"
  raiseIf (self.mode = .privately ∧ self.audienceIds.map some ≠ [self.privateActorId] ∨
    self.mode ≠ .privately ∧ self.privateActorId ≠ none ∨
    self.mode = .channel ∧ self.threadId ≠ none ∨
    self.mode = .thread ∧ self.threadId = none ∨
    ¬ isDigest self.audienceEpoch.toList ∨ ¬ isSessionKey self.sessionKey.toList) "invalid conversation routing descriptor"

end BridgeConversation

namespace BridgeContext

/-- `__post_init__`. -/
def check (self : BridgeContext) : Except String Unit := do
  checkVersion self.apiVersion
  [(self.bindingId, "binding_id"), (self.provider, "provider"), (self.accountId, "account_id"),
    (self.actorId, "actor_id"), (self.conversationId, "conversation_id"), (self.eventId, "event_id")].forM
    (fun (value, name) => checkIdentifier value name)
  [(self.threadId, "thread_id"), (self.replyToEventId, "reply_to_event_id")].forM
    (fun (value, name) => checkOptional value name)
  raiseIf (1000 < self.audienceIds.length) "audience must contain at most 1000 provider IDs"
  self.audienceIds.forM (fun actor => checkIdentifier actor "audience actor")
  raiseIf (self.audienceIds.dedup.length ≠ self.audienceIds.length) "audience must contain distinct provider IDs"
  raiseIf (self.audienceVerifiedAt.any (fun seconds => !seconds.valid)) "audience verification time is invalid"

end BridgeContext

def checkFilename (filename : String) : Except String Unit := do
  raiseIf (filename = "" ∨ filename.toList.contains '/' ∨ filename.toList.contains '\\' ∨ filename ∈ [".", ".."])
    "filename must be a safe basename"
  raiseIf (filename.toList.any isControl) "filename contains control characters"

structure BridgeAttachment where
  kind : String
  filename : String
  mimeType : String := "application/octet-stream"
  sizeBytes : Nat := 0
  artifactRef : String := ""
  localPath : Option String := none
  owned : Bool := false
  providerAttachmentId : Option String := none
  sha256 : Option String := none
  readerRef : Option String := none
  safe : checkFilename filename = .ok ()
  identified : checkOptional providerAttachmentId "provider_attachment_id" = .ok ()
  digest : sha256.all (fun value => isDigest value.toList) = true := by rfl
  readable : checkOptional readerRef "reader_ref" = .ok () := by rfl
  deriving DecidableEq

inductive BridgePart where
  | text (text : String)
  | attachment (attachment : BridgeAttachment)
  deriving DecidableEq

inductive OmissionReason where
  | unsupported
  | limit
  | unavailable
  | blocked
  deriving DecidableEq

structure BridgeAttachmentNotice where
  kind : String
  filename : String
  mimeType : String := "application/octet-stream"
  sizeBytes : Nat := 0
  providerAttachmentId : Option String := none
  reason : OmissionReason := .unavailable
  safe : checkFilename filename = .ok ()
  identified : checkOptional providerAttachmentId "provider_attachment_id" = .ok ()
  deriving DecidableEq

def maxOmissions : Nat := 16
def maxMessageParts : Nat := 256

structure BridgeHistoryMessage where
  eventId : String
  actorId : String
  parts : List BridgePart
  timestamp : Option String := none
  omittedAttachments : List BridgeAttachmentNotice := []
  event : checkIdentifier eventId "event_id" = .ok ()
  actor : checkIdentifier actorId "actor_id" = .ok ()
  few : omittedAttachments.length ≤ maxOmissions := by decide
  deriving DecidableEq

namespace BridgeHistoryMessage

/-- `replace(record, parts=parts, omitted_attachments=omitted)`. -/
def replace (record : BridgeHistoryMessage) (parts : List BridgePart) (omitted : List BridgeAttachmentNotice) :
    Except String BridgeHistoryMessage :=
  if few : omitted.length ≤ maxOmissions then
    .ok { record with parts := parts, omittedAttachments := omitted, few := few }
  else .error "invalid history media omissions"

def size (record : BridgeHistoryMessage) : Nat := record.parts.length + record.omittedAttachments.length

end BridgeHistoryMessage

structure BridgeCapabilities where
  inputMedia : List String := []
  outputMedia : List String := []
  historyMedia : Bool := false
  historyMaxFiles : Nat := 16
  bounded : 16 ≤ historyMaxFiles ∧ historyMaxFiles ≤ 64 ∧ (historyMedia = false → historyMaxFiles = 16) := by decide

section Checks

variable {ε α : Type} {value name : String}

@[simp] theorem bind_eq_ok {x : Except ε Unit} {f : Unit → Except ε α} {a : α} :
    (x >>= f) = .ok a ↔ x = .ok () ∧ f () = .ok a := by
  cases x with
  | error _ | ok _ => simp [bind, Except.bind]

@[simp] theorem forM_eq_ok {l : List α} {f : α → Except ε PUnit} : forM l f = .ok () ↔ ∀ x ∈ l, f x = .ok () := by
  induction l with
  | nil => simp [pure, Except.pure]
  | cons x l ih => simp [ih]

@[simp] theorem raiseIf_eq_ok {condition : Prop} [Decidable condition] {message : String} :
    raiseIf condition message = .ok () ↔ ¬ condition := by
  rw [raiseIf]
  split <;> simp_all

@[simp] theorem checkVersion_eq_ok {version : Int} : checkVersion version = .ok () ↔ version = apiVersion := by
  rw [checkVersion]
  split <;> simp_all

theorem checkIdentifier_eq_ok : checkIdentifier value name = .ok () ↔
    value ≠ "" ∧ (utf8 value).length ≤ 512 ∧ value.toList.any isControl = false := by
  rw [checkIdentifier]
  split
  · rename_i h
    rcases h with rfl | h
    · simp
    · simp [Nat.not_le.mpr h]
  rename_i h
  rw [not_or] at h
  split <;> simp_all

theorem checkIdentifier_rename {other : String} (h : checkIdentifier value name = .ok ()) :
    checkIdentifier value other = .ok () := checkIdentifier_eq_ok.mpr (checkIdentifier_eq_ok.mp h)

theorem checkOptional_none (name : String) : checkOptional none name = .ok () := rfl

theorem checkOptional_rename {value : Option String} {other : String} (h : checkOptional value name = .ok ()) :
    checkOptional value other = .ok () := by
  cases value with
  | none => rfl
  | some value => exact checkIdentifier_rename h

theorem utf8_injective {a b : String} (h : utf8 a = utf8 b) : a = b :=
  String.toByteArray_inj.mp (ByteArray.ext (Array.toList_inj.mp h))

theorem length_utf8 (value : String) : (utf8 value).length = value.utf8ByteSize := by
  rw [utf8, Array.length_toList]
  rfl

theorem length_utf8_le (l : List Char) : (utf8 (String.ofList l)).length ≤ 4 * l.length := by
  rw [length_utf8]
  induction l with
  | nil => simp
  | cons c l ih =>
    have hc := c.utf8Size_le_four
    rw [← List.singleton_append, String.ofList_append, String.utf8ByteSize_append]
    simp
    omega

end Checks

section Sorting

variable (values : List String)

instance : Std.Total (fun a b : String => utf8 a ≤ utf8 b) := ⟨fun _ _ => Std.le_total⟩

instance : IsTrans String (fun a b => utf8 a ≤ utf8 b) := ⟨fun _ _ _ => Std.le_trans⟩

theorem sortedIds_perm : (sortedIds values).Perm values := List.perm_insertionSort _ _

theorem sortedIds_sorted : (sortedIds values).Pairwise (fun a b => utf8 a ≤ utf8 b) := List.pairwise_insertionSort _ _

theorem sortedIds_eq_iff {values : List String} {others : List String} :
    sortedIds values = sortedIds others ↔ values.Perm others := by
  constructor
  · intro h
    exact (sortedIds_perm values).symm.trans (h ▸ sortedIds_perm others)
  intro h
  refine List.Perm.eq_of_pairwise (fun a b _ _ hab hba => utf8_injective (Std.le_antisymm hab hba))
    (sortedIds_sorted values) (sortedIds_sorted others) ?_
  exact (sortedIds_perm values).trans (h.trans (sortedIds_perm others).symm)

theorem sortedIds_sortedIds : sortedIds (sortedIds values) = sortedIds values :=
  sortedIds_eq_iff.mpr (sortedIds_perm values)

end Sorting

end OpenAgent.Channels
