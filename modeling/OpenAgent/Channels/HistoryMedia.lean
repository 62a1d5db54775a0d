import Mathlib.Algebra.GroupWithZero.Nat
import Mathlib.Algebra.Order.Ring.Unbundled.Rat
import OpenAgent.Channels.Contracts
import OpenAgent.Lib.Loops

namespace OpenAgent.Channels.HistoryMedia

open Loops

def maxHistoryInputBytes : Nat := 64 * 1024 * 1024
def maxHistoryFileBytes : Nat := 32 * 1024 * 1024
def historyTranscriptionBudgetSeconds : Rat := 30
def historyTranscriptionUnavailable : String :=
  "[Historical audio transcription unavailable; the original audio is retained with this message.]"
def voiceFallback : String := "[Voice message could not be transcribed. Ask the user to type it.]"
def transcriptMark : String := "Audio transcript (quoted historical message):\n"

inductive Raised where
  | permissionError
  | historyUnavailable
  | osError
  | valueError
  | runtimeError
  | other
  deriving DecidableEq

/-- What `except (OSError, ValueError, RuntimeError)` catches behind `except PermissionError: raise`. -/
def Raised.caught (raised : Raised) : Bool :=
  match raised with
  | osError | valueError | runtimeError | historyUnavailable => true
  | permissionError | other => false

/-- What the calls for one attachment come to: the refreshes of the authorization around `load`, `os.stat` of the loaded
file, the transcription and the refresh after it. -/
structure Outcome where
  authorized : Except Raised Unit := .ok ()
  load : Except Raised (Option BridgeAttachment)
  reauthorized : Except Raised Unit := .ok ()
  file : Option (Bool × Nat)
  transcript : Except Raised String := .ok voiceFallback
  elapsed : Rat := 0
  released : Except Raised Unit := .ok ()

/-- The capabilities, `is_blocked_attachment`, and what the calls made for one attachment after the other come to. -/
structure Bridge where
  capabilities : BridgeCapabilities
  isBlocked : String → Bool
  outcomes : Nat → Outcome

structure Budget where
  count : Nat
  size : Nat
  partCount : Nat
  speechRemaining : Rat := historyTranscriptionBudgetSeconds
  calls : Nat := 0

structure Progress where
  budget : Budget
  parts : List BridgePart := []
  omitted : List BridgeAttachmentNotice

/-- `BridgeAttachmentNotice(attachment.kind, attachment.filename, …, reason)`. -/
def notice (attachment : BridgeAttachment) (reason : OmissionReason) : BridgeAttachmentNotice where
  kind := attachment.kind
  filename := attachment.filename
  mimeType := attachment.mimeType
  sizeBytes := attachment.sizeBytes
  providerAttachmentId := attachment.providerAttachmentId
  reason := reason
  safe := attachment.safe
  identified := attachment.identified

/-- `media_file_snapshot`, of which the size is used. -/
def mediaFileSnapshot (file : Option (Bool × Nat)) : Except Raised Nat :=
  match file with
  | none => .error .osError
  | some (regular, size) =>
    if regular = false ∨ maxHistoryFileBytes < size then .error .valueError else .ok size

def isSpeech (kind : String) : Bool := kind = "voice" ∨ kind = "audio"

namespace Budget

def checkLoaded (budget : Budget) (attachment : BridgeAttachment) (loaded : Option BridgeAttachment)
    (file : Option (Bool × Nat)) : Except Raised (BridgeAttachment × Nat) :=
  match loaded with
  | none => .error .valueError
  | some loaded =>
    if loaded.localPath.getD "" = "" then .error .valueError
    else match mediaFileSnapshot file with
      | .error e => .error e
      | .ok bytes =>
        if loaded.providerAttachmentId ≠ attachment.providerAttachmentId ∨ loaded.filename ≠ attachment.filename ∨
            loaded.kind ≠ attachment.kind ∨ loaded.sizeBytes ≠ bytes ∨
            maxHistoryInputBytes < budget.size + bytes then .error .valueError
        else .ok (loaded, bytes)

def transcribe (budget : Budget) (outcome : Outcome) : Except Raised (String × Rat) :=
  if 0 < budget.speechRemaining then
    match outcome.transcript with
    | .error e => .error e
    | .ok transcript =>
      .ok (if transcript = voiceFallback then historyTranscriptionUnavailable else transcript,
        max 0 (budget.speechRemaining - outcome.elapsed))
  else .ok (historyTranscriptionUnavailable, budget.speechRemaining)

end Budget

namespace Outcome

/-- The block that guards `load`. -/
def loaded (outcome : Outcome) (budget : Budget) (attachment : BridgeAttachment) :
    Except Raised (BridgeAttachment × Nat) :=
  match outcome.load with
  | .error e => .error e
  | .ok loaded => match outcome.reauthorized with
    | .error e => .error e
    | .ok () => budget.checkLoaded attachment loaded outcome.file

end Outcome

namespace Progress

variable (progress : Progress)

def append (part : BridgePart) : Progress := { progress with parts := progress.parts ++ [part] }

def leaveOut (attachment : BridgeAttachment) (reason : OmissionReason) : Progress :=
  { progress with omitted := progress.omitted ++ [notice attachment reason] }

def call : Progress := { progress with budget := { progress.budget with calls := progress.budget.calls + 1 } }

def keep (loaded : BridgeAttachment) (bytes : Nat) : Progress :=
  { progress.append (.attachment loaded) with
    budget := { progress.budget with count := progress.budget.count + 1, size := progress.budget.size + bytes } }

def speak (outcome : Outcome) : Except Raised Progress :=
  match progress.budget.transcribe outcome with
  | .error e => .error e
  | .ok (transcript, remaining) => match outcome.released with
    | .error e => .error e
    | .ok () =>
      if maxMessageParts ≤ progress.budget.partCount then .error .historyUnavailable
      else .ok { progress.append (.text (transcriptMark ++ transcript)) with
        budget := { progress.budget with
          partCount := progress.budget.partCount + 1, speechRemaining := remaining } }

def take (outcome : Outcome) (loaded : BridgeAttachment) (bytes : Nat) : Except Raised Progress :=
  if isSpeech loaded.kind then (progress.keep loaded bytes).speak outcome else .ok (progress.keep loaded bytes)

end Progress

namespace Bridge

variable (bridge : Bridge)

def refuse (budget : Budget) (attachment : BridgeAttachment) : Option OmissionReason :=
  if bridge.isBlocked attachment.filename then some .blocked
  else if bridge.capabilities.historyMedia = false ∨ attachment.kind ∉ bridge.capabilities.inputMedia then
    some .unsupported
  else if bridge.capabilities.historyMaxFiles ≤ budget.count ∨ maxHistoryFileBytes < attachment.sizeBytes ∨
      maxHistoryInputBytes < budget.size + attachment.sizeBytes then some .limit
  else none

def loadAttachment (progress : Progress) (attachment : BridgeAttachment) : Except Raised Progress :=
  let outcome := bridge.outcomes progress.budget.calls
  match outcome.authorized with
  | .error e => .error e
  | .ok () => match outcome.loaded progress.budget attachment with
    | .error e => if e.caught then .ok (progress.call.leaveOut attachment .unavailable) else .error e
    | .ok (loaded, bytes) => progress.call.take outcome loaded bytes

def preparePart (progress : Progress) (part : BridgePart) : Except Raised Progress :=
  match part with
  | .text text => .ok (progress.append (.text text))
  | .attachment attachment => match bridge.refuse progress.budget attachment with
    | some reason => .ok (progress.leaveOut attachment reason)
    | none => bridge.loadAttachment progress attachment

def begin (budget : Budget) (record : BridgeHistoryMessage) : Progress :=
  { budget := budget, omitted := record.omittedAttachments }

def prepareRecord (state : Budget × List BridgeHistoryMessage) (record : BridgeHistoryMessage) :
    Except Raised (Budget × List BridgeHistoryMessage) :=
  match loop bridge.preparePart (begin state.1 record) record.parts with
  | .error e => .error e
  | .ok progress => match record.replace progress.parts progress.omitted with
    | .error _ => .error .valueError
    | .ok prepared => .ok (progress.budget, state.2 ++ [prepared])

def selectRecord (state : List BridgeHistoryMessage × Nat) (record : BridgeHistoryMessage) :
    Except Raised (List BridgeHistoryMessage × Nat) :=
  if maxMessageParts < state.2 + record.size then .error .historyUnavailable
  else .ok (record :: state.1, state.2 + record.size)

def initial (current : List Nat) (partCount : Nat) : Budget where
  count := current.length
  size := current.sum
  partCount := partCount

/-- `prepare_history_media`, with the sizes of the current attachments. -/
def prepareHistoryMedia (history : List BridgeHistoryMessage) (current : List Nat) :
    Except Raised (List BridgeHistoryMessage) :=
  match loop selectRecord ([], current.length + 1) history.reverse with
  | .error e => .error e
  | .ok (selected, partCount) => match loop bridge.prepareRecord (initial current partCount, []) selected with
    | .error e => .error e
    | .ok (_, result) => .ok result

end Bridge

end OpenAgent.Channels.HistoryMedia
