import Mathlib.Logic.Function.Basic
import OpenAgent.Channels.Contracts
import OpenAgent.Lib.Effects

namespace OpenAgent.Channels.ReplyMedia

open Effects

inductive Raised where
  | exception
  | cancelled
  deriving DecidableEq

/-- What `os.lstat` shows of a path. -/
structure Entry where
  inode : Nat
  link : Bool := false
  deriving DecidableEq

/-- What an await comes to: the files that others replace or remove meanwhile, and what it raises. -/
structure Await where
  changes : List (String × Option Entry) := []
  raised : Option Raised := none

/-- The files, `_owned_artifacts`, the identities that a delivery has seen, and the paths that others have changed. -/
structure Disk where
  files : String → Option Entry
  registered : String → Option Nat := fun _ => none
  seen : List (String × String) := []
  replaced : List String := []

inductive ReplyStatus where
  | completed
  | coalesced
  | failed
  | cancelled
  deriving DecidableEq

/-- What the delivery of one part comes to: the chunks of a text; the send of an attachment, whether its file can be
unlinked, and its `os.path.realpath`. -/
structure Delivery where
  chunks : List Await := []
  sent : Await := {}
  unlinks : Bool := true
  realpath : String := ""

structure Turn where
  legacyMarkers : Bool := false
  outputMedia : List String := []
  status : ReplyStatus := .completed
  parts : List (BridgePart × Delivery)
  markers : List (String × String × Delivery) := []
  authorizations : List Await := []
  clearing : List Await := []
  notices : List Await := []
  voice : List Await := []
  rendering : List Await := []
  ending : List Await := []

namespace Disk

def change (disk : Disk) (change : String × Option Entry) : Disk :=
  { disk with files := Function.update disk.files change.1 change.2, replaced := change.1 :: disk.replaced }

def changeAll (disk : Disk) (changes : List (String × Option Entry)) : Disk := changes.foldl change disk

/-- `_cleanup_owned_temp_artifact`. -/
def cleanup (path : String) (unlinks : Bool) (disk : Disk) : Disk :=
  match disk.registered path with
  | none => disk
  | some expected =>
    if path = "" then disk
    else
      let disk := { disk with registered := Function.update disk.registered path none }
      if disk.files path = some ⟨expected, false⟩ ∧ unlinks then
        { disk with files := Function.update disk.files path none }
      else disk

end Disk

def await (a : Await) : Act Disk Raised := fun disk => (disk.changeAll a.changes, a.raised)

def suppressed (a : Await) : Act Disk Raised := fun disk =>
  (disk.changeAll a.changes, if a.raised = some .cancelled then some .cancelled else none)

def platformAttachment (attachment : BridgeAttachment) : Act Disk Raised := fun disk =>
  let path := attachment.localPath.getD ""
  if path = "" then (disk, some .exception)
  else if attachment.owned then
    match disk.files path with
    | none => (disk, some .exception)
    | some entry =>
      if entry.link then (disk, none)
      else
        let expected := (disk.registered path).getD entry.inode
        ({ disk with registered := Function.update disk.registered path (some expected) },
          if expected = entry.inode then none else some .exception)
  else (disk, none)

/-- What the loops over the parts, or over the attachments of a legacy reply, deliver. -/
inductive Item where
  | text (chunks : List Await)
  | typed (attachment : BridgeAttachment) (delivery : Delivery)
  | legacy (kind path : String) (delivery : Delivery)

def deliver (item : Item) : Act Disk Raised :=
  match item with
  | .text chunks => forEach suppressed chunks
  | .typed attachment delivery =>
    ensure (seq (platformAttachment attachment) (await delivery.sent))
      (Disk.cleanup (attachment.localPath.getD "") delivery.unlinks)
  | .legacy kind path delivery => fun disk =>
    if (kind, delivery.realpath) ∈ disk.seen then (disk, none)
    else ensure (suppressed delivery.sent) (Disk.cleanup path delivery.unlinks)
      { disk with seen := (kind, delivery.realpath) :: disk.seen }

namespace Turn

variable (turn : Turn)

def attachments : List (BridgeAttachment × Delivery) :=
  turn.parts.filterMap (fun part => match part with
    | (.attachment attachment, delivery) => some (attachment, delivery)
    | (.text _, _) => none)

def attachmentType (attachment : BridgeAttachment) : String :=
  if attachment.kind = "audio" then "voice" else attachment.kind

def typedItem (part : BridgePart × Delivery) : Item :=
  match part with
  | (.text _, delivery) => .text delivery.chunks
  | (.attachment attachment, delivery) => .typed attachment delivery

def items : List Item :=
  if turn.legacyMarkers then
    turn.attachments.map (fun part => .legacy (attachmentType part.1) (part.1.localPath.getD "") part.2) ++
      turn.markers.map (fun marker => .legacy marker.1 marker.2.1 marker.2.2)
  else turn.parts.map typedItem

/-- The end of `send_message`: the authorizations, then the kinds of the media, or the attachments of a legacy reply. -/
def sendMessage : Act Disk Raised :=
  seq (forEach await turn.authorizations)
    (if turn.legacyMarkers then forEach platformAttachment (turn.attachments.map Prod.fst)
    else fun disk =>
      (disk, if turn.attachments.any (fun part => part.1.kind ∉ turn.outputMedia) then some .exception else none))

def lead : Act Disk Raised := seq (forEach await turn.voice) (forEach suppressed turn.rendering)

/-- `_dispatch_turn` from the reply to the loop, and whether it gets there. -/
def prologue (disk : Disk) : Disk × Bool :=
  let (disk, raised) := turn.sendMessage disk
  let (disk, left) := forEach suppressed turn.clearing disk
  match left, raised with
  | some _, _ => (disk, false)
  | none, some .cancelled => (disk, false)
  | none, some .exception => ((forEach suppressed turn.notices disk).1, false)
  | none, none =>
    if turn.status = .completed then
      let (disk, raised) := turn.lead disk
      ({ disk with seen := [] }, raised = none)
    else ((forEach suppressed turn.notices disk).1, false)

def dispatchTurn (disk : Disk) : Disk :=
  let (disk, loops) := turn.prologue disk
  let disk := if loops then (forEach deliver turn.items disk).1 else disk
  (forEach await turn.ending disk).1

end Turn

end OpenAgent.Channels.ReplyMedia
