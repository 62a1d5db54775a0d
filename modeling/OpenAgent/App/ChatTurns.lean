import OpenAgent.App.ToolCards

namespace OpenAgent.App

open Py

/-- The frames inside a turn, after its first row. An empty text stands for a missing one. -/
inductive Frame
  | reasoning (active : Bool)
  | sessionCompacted (info : CompactionInfo)
  | status (text : String)
  | delta (text : String)
  | response (text : String) (attachments parts artifacts : Json) (model : Option String)
  | error (text : String)

inductive ServerMessage
  | frame (frame : Frame)
  | turnComplete

variable {A P : Type} (host : Host A P)

/-- `frame.phase || 'done'`. -/
def CompactionInfo.read (info : CompactionInfo) : CompactionInfo :=
  if info.phase = "" then { info with phase := "done" } else info

namespace Message

/-- `last.role === 'assistant' && last.streaming`. -/
def bubble (m : Message A P) : Bool := m.role = .assistant && m.streaming

def compacting (m : Message A P) : Bool := m.role = .compaction && m.compactionInfo.any (·.phase = "running")

def settle (m : Message A P) : Message A P := if m.bubble then { m with streaming := false } else m

end Message

def amend (change : Message A P → Message A P) (fresh : Message A P) (messages : List (Message A P)) :
    List (Message A P) :=
  match messages.getLast?.filter Message.bubble with
  | some last => messages.dropLast ++ [change last]
  | none => messages ++ [fresh]

def appendDelta (messages : List (Message A P)) (text : String) : List (Message A P) :=
  amend (fun last => { last with text := last.text ++ text }) { role := .assistant, text, streaming := true } messages

def Host.appendResponse (messages : List (Message A P)) (text : String) (attachments parts artifacts : Json)
    (model : Option String) : List (Message A P) :=
  let attachments := host.normalizedAttachments attachments
  let parts := host.normalizeMessageContent parts artifacts text attachments
  amend (fun last => { last with text, attachments, parts, model, streaming := false })
    { role := .assistant, text, attachments, parts, model } messages

def appendError (messages : List (Message A P)) (text : String) : List (Message A P) :=
  messages ++ [{ role := .assistant, text := "Error: " ++ text, failed := true }]

def appendCompaction (messages : List (Message A P)) (info : CompactionInfo) : List (Message A P) :=
  messages ++ [{ role := .compaction, text := "", compactionInfo := some info }]

def Host.appendStatus (messages : List (Message A P)) (text : String) : List (Message A P) :=
  match host.toolOf text with
  | some toolInfo => host.appendOrPatchTool messages toolInfo
  | none => if text.startsWith "Using " then messages ++ [{ role := .tool, text }] else messages

/-- A session of the store, and its entry of `pendingDeltas`. -/
structure Chat (A P : Type) where
  messages : List (Message A P)
  isProcessing : Bool := false
  isReasoning : Bool := false
  statusText : Option String := none
  buffered : String := ""

namespace Chat

def compacted (messages : List (Message A P)) (info : CompactionInfo) : List (Message A P) :=
  if info.phase = "running" then appendCompaction messages info
  else (patchLast Message.compacting (fun m => { m with compactionInfo := some info }) messages).getD
    (appendCompaction messages info)

def handleServerMessage (c : Chat A P) : Frame → Chat A P
  | .reasoning active => { c with isProcessing := active || c.isProcessing, isReasoning := active }
  | .sessionCompacted info => { c with messages := compacted c.messages info.read }
  | .status text =>
    match host.toolOf text with
    | some _ => { c with messages := host.appendStatus c.messages text }
    | none => { c with statusText := some text, messages := host.appendStatus c.messages text }
  | .delta text => { c with buffered := c.buffered ++ text }
  | .response text attachments parts artifacts model =>
    { messages := host.appendResponse c.messages text attachments parts artifacts model }
  | .error text => { messages := appendError c.messages text, buffered := c.buffered }

/-- `runFlush`: what an animation frame does with the deltas that wait. -/
def flush (c : Chat A P) : Chat A P :=
  if c.buffered = "" then c
  else { c with
    messages := appendDelta c.messages c.buffered
    statusText := none
    isReasoning := false
    buffered := "" }

def finaliseStreaming (c : Chat A P) : Chat A P := { messages := c.messages.map Message.settle }

end Chat

inductive Event
  | frame (frame : Frame)
  | flush

def Chat.live (c : Chat A P) : Event → Chat A P
  | .frame f => c.handleServerMessage host f
  | .flush => c.flush

def Event.message? : Event → Option ServerMessage
  | .frame f => some (.frame f)
  | .flush => none

structure Replayed (A P : Type) where
  messages : List (Message A P)
  isProcessing : Bool
  isReasoning : Bool := false
  statusText : Option String := none

def Replayed.step (v : Replayed A P) : ServerMessage → Replayed A P
  | .frame (.reasoning active) => { v with isReasoning := active }
  | .frame (.sessionCompacted info) => { v with messages := appendCompaction v.messages info.read }
  | .frame (.status text) =>
    { v with
      messages := host.appendStatus v.messages text
      statusText := if (host.toolOf text).isNone && !text.startsWith "Using " && text ≠ "" then some text
        else v.statusText
      isReasoning := false }
  | .frame (.delta text) =>
    if text = "" then v
    else { v with messages := appendDelta v.messages text, statusText := none, isReasoning := false }
  | .frame (.response text attachments parts artifacts model) =>
    { messages := host.appendResponse v.messages text attachments parts artifacts model, isProcessing := false }
  | .frame (.error text) => { messages := appendError v.messages text, isProcessing := false }
  | .turnComplete => { messages := v.messages.map Message.settle, isProcessing := false }

def liveMessagesFromFrames (frames : List ServerMessage) (active : Bool) : Replayed A P :=
  frames.foldl (Replayed.step host) { messages := [], isProcessing := active }

end OpenAgent.App
