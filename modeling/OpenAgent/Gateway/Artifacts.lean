import OpenAgent.Lib.Base64
import OpenAgent.Lib.Json

namespace OpenAgent.Gateway

open Py

/-- `hashlib.sha256(data).hexdigest()`. -/
class Sha256 where
  hexdigest : List UInt8 → String

structure ClientCapabilityError where
  code : String
  message : String
  data : Json := .null
deriving DecidableEq

def maxArtifactBytesPerCall : Nat := 64 * 1024 * 1024
def maxArtifactBytesPerConnection : Nat := 128 * 1024 * 1024
def maxArtifactBytesPerDevice : Nat := 256 * 1024 * 1024
def maxArtifactBytesGlobal : Nat := 512 * 1024 * 1024
def maxArtifactChunkBytes : Nat := 1024 * 1024
def maxArtifactTransfersPerCall : Nat := 64
def maxArtifactReferencesPerCall : Nat := 64
def maxArtifactResultNodes : Nat := 100000
def maxArtifactMimeLength : Nat := 255

structure ArtifactBuffer where
  transferId : String
  mimeType : String
  expectedSize : Nat
  expectedSha256 : String
  nextSeq : Nat := 0
  data : List UInt8 := []
  complete : Bool := false
deriving DecidableEq

def b64encode (data : List UInt8) : String := String.ofList (Base64.encode data)

/-- `base64.b64decode(text, validate=True)`, `none` where it raises. -/
def b64decode (text : String) : Option (List UInt8) := Base64.decode text.toList

def ArtifactBuffer.materialise [Sha256] (artifact : ArtifactBuffer) : Json :=
  .obj [("type", .str "blob"), ("data", .str (b64encode artifact.data)),
    ("mimeType", .str (if artifact.mimeType = "" then "application/octet-stream" else artifact.mimeType)),
    ("size", .int artifact.data.length), ("sha256", .str (Sha256.hexdigest artifact.data)),
    ("location", .str "client")]

abbrev Artifacts := Dict String ArtifactBuffer

/-- A chunk frame as its reader sees it: `seq` is `none` where `int` raises; `size` and `sha256` where the key is absent;
`mimeType` is the value of `mime_type`, else of `mimeType`. -/
structure ChunkFrame where
  callId : String
  generation : Int
  transferId : String
  seq : Option Int
  size : Option Json := none
  mimeType : Json := .null
  sha256 : Option Json := none
  data : String
  eof : Bool
deriving DecidableEq

/-- The sizes already declared on the call's connection, on its device and on the whole gateway. -/
structure DeclaredSizes where
  forConnection : Nat
  forDevice : Nat
  globally : Nat

def declaredSize (artifacts : Artifacts) : Nat := artifacts.sumBy (fun _ a => a.expectedSize)

def receivedSize (artifacts : Artifacts) : Nat := artifacts.sumBy (fun _ a => a.data.length)

def isHexDigest (s : String) : Bool :=
  s.length == 64 && s.toList.all (fun c => "0123456789abcdefABCDEF".toList.contains c)

def openArtifact (artifacts : Artifacts) (declared : DeclaredSizes) (frame : ChunkFrame) (seq : Int) :
    Except ClientCapabilityError ArtifactBuffer := do
  if seq ≠ 0 then
    throw ⟨"ARTIFACT_SEQUENCE", s!"expected seq 0, got {seq}", .null⟩
  if artifacts.size ≥ maxArtifactTransfersPerCall then
    throw ⟨"TOO_MANY_ARTIFACTS", "artifact transfer count exceeds the per-call limit", .null⟩
  let size ← match frame.size with
    | none => throw ⟨"INVALID_ARTIFACT", "first artifact chunk requires size", .null⟩
    | some (.int size) => pure size
    | some _ => throw ⟨"INVALID_ARTIFACT", "artifact size must be an integer", .null⟩
  if ¬ (1 ≤ size ∧ size ≤ maxArtifactBytesPerCall) then
    throw ⟨"ARTIFACT_TOO_LARGE", "declared artifact exceeds limit", .null⟩
  let mimeType ← match frame.mimeType with
    | .str mimeType =>
      if strip mimeType = "" ∨ mimeType.length > maxArtifactMimeLength then
        throw ⟨"INVALID_ARTIFACT", "first artifact chunk requires a valid MIME type", .null⟩
      else pure mimeType
    | _ => throw ⟨"INVALID_ARTIFACT", "first artifact chunk requires a valid MIME type", .null⟩
  let sha256 ← match frame.sha256 with
    | some (.str sha256) =>
      if isHexDigest sha256 then pure sha256
      else throw ⟨"INVALID_ARTIFACT", "first artifact chunk requires a SHA-256 digest", .null⟩
    | _ => throw ⟨"INVALID_ARTIFACT", "first artifact chunk requires a SHA-256 digest", .null⟩
  if declaredSize artifacts + size.toNat > maxArtifactBytesPerCall then
    throw ⟨"ARTIFACT_QUOTA", "declared artifacts exceed the per-call limit", .null⟩
  if declared.forConnection + size.toNat > maxArtifactBytesPerConnection then
    throw ⟨"ARTIFACT_QUOTA", "declared artifacts exceed the capability-connection limit", .null⟩
  if declared.forDevice + size.toNat > maxArtifactBytesPerDevice then
    throw ⟨"ARTIFACT_QUOTA", "declared artifacts exceed the device limit", .null⟩
  if declared.globally + size.toNat > maxArtifactBytesGlobal then
    throw ⟨"ARTIFACT_QUOTA", "declared artifacts exceed the gateway limit", .null⟩
  return { transferId := frame.transferId, mimeType := strip mimeType, expectedSize := size.toNat,
           expectedSha256 := lower sha256 }

/-- Python's `value == n` for a positive integer `n`. -/
def equalsInt (value : Json) (n : Nat) : Bool :=
  match value with
  | .int m => m == n
  | .bool b => (if b then 1 else 0) == n
  | .float f => f.repr == toString n ++ ".0"
  | _ => false

def checkRepeatedMetadata (artifact : ArtifactBuffer) (frame : ChunkFrame) : Except ClientCapabilityError Unit := do
  if frame.mimeType ≠ .null ∧ frame.mimeType ≠ .str artifact.mimeType then
    throw ⟨"INVALID_ARTIFACT", "artifact MIME type changed during transfer", .null⟩
  match frame.size with
  | some size =>
    if ¬ equalsInt size artifact.expectedSize then
      throw ⟨"INVALID_ARTIFACT", "artifact size changed during transfer", .null⟩
  | none => pure ()
  match frame.sha256 with
  | some sha256 =>
    if lower sha256.pyStr ≠ artifact.expectedSha256 then
      throw ⟨"INVALID_ARTIFACT", "artifact digest changed during transfer", .null⟩
  | none => pure ()

def decodeChunk (artifacts : Artifacts) (artifact : ArtifactBuffer) (frame : ChunkFrame) (seq : Int) :
    Except ClientCapabilityError (List UInt8) := do
  if artifact.complete ∨ seq ≠ artifact.nextSeq then
    throw ⟨"ARTIFACT_SEQUENCE", s!"expected seq {artifact.nextSeq}, got {seq}", .null⟩
  let chunk ← match b64decode frame.data with
    | some chunk => pure chunk
    | none => throw ⟨"INVALID_ARTIFACT", "artifact data is not valid base64", .null⟩
  if chunk.length > maxArtifactChunkBytes then
    throw ⟨"ARTIFACT_CHUNK_TOO_LARGE", "artifact chunk exceeds 1 MiB", .null⟩
  if chunk = [] then
    throw ⟨"INVALID_ARTIFACT", "artifact chunks cannot be empty", .null⟩
  if artifact.data.length + chunk.length > artifact.expectedSize then
    throw ⟨"ARTIFACT_SIZE_MISMATCH", "artifact exceeded its declared size", .null⟩
  if receivedSize artifacts + chunk.length > maxArtifactBytesPerCall then
    throw ⟨"ARTIFACT_TOO_LARGE", "artifacts exceed per-call limit", .null⟩
  return chunk

def checkComplete [Sha256] (artifact : ArtifactBuffer) : Except ClientCapabilityError Unit := do
  if artifact.data.length ≠ artifact.expectedSize then
    throw ⟨"ARTIFACT_SIZE_MISMATCH", s!"expected {artifact.expectedSize} bytes, received {artifact.data.length}", .null⟩
  if Sha256.hexdigest artifact.data ≠ artifact.expectedSha256 then
    throw ⟨"ARTIFACT_DIGEST_MISMATCH", "artifact SHA-256 mismatch", .null⟩

/-- What follows the look-up of a chunk's buffer, which is in the table: what is done to it before an error stays done. -/
def extendArtifact [Sha256] (artifacts : Artifacts) (artifact : ArtifactBuffer) (frame : ChunkFrame)
    (seq : Int) : Artifacts × Except ClientCapabilityError Unit :=
  match decodeChunk artifacts artifact frame seq with
  | .error e => (artifacts, .error e)
  | .ok chunk =>
    let extended := { artifact with data := artifact.data ++ chunk, nextSeq := artifact.nextSeq + 1 }
    if frame.eof then
      match checkComplete extended with
      | .error e => (artifacts.set frame.transferId extended, .error e)
      | .ok () => (artifacts.set frame.transferId { extended with complete := true }, .ok ())
    else (artifacts.set frame.transferId extended, .ok ())

/-- `receive_artifact_chunk` on the artifact table of the call the frame belongs to. -/
def receiveArtifactChunk [Sha256] (artifacts : Artifacts) (declared : DeclaredSizes)
    (frame : ChunkFrame) : Artifacts × Except ClientCapabilityError Unit :=
  if frame.transferId = "" ∨ frame.transferId.length > 200 then
    (artifacts, .error ⟨"INVALID_ARTIFACT", "transfer_id is required", .null⟩)
  else match frame.seq with
  | none => (artifacts, .error ⟨"INVALID_ARTIFACT", "artifact seq must be an integer", .null⟩)
  | some seq =>
    match artifacts.get? frame.transferId with
    | none =>
      match openArtifact artifacts declared frame seq with
      | .error e => (artifacts, .error e)
      | .ok artifact => extendArtifact (artifacts.set frame.transferId artifact) artifact frame seq
    | some artifact =>
      match checkRepeatedMetadata artifact frame with
      | .error e => (artifacts, .error e)
      | .ok () => extendArtifact artifacts artifact frame seq

/-- A visited result: the dictionary cached for a transfer is one object, so every place that has it is marked. -/
inductive Visited
  | leaf (j : Json)
  | arr (items : List Visited)
  | obj (entries : List (String × Visited))
  | cached (transferId : String)
deriving Inhabited

/-- What a walk over a result has used up so far, and the dictionaries it has materialised. -/
structure VisitState where
  nodes : Nat := 0
  references : Nat := 0
  expandedBytes : Nat := 0
  cache : Dict String Json := Dict.empty

abbrev Visit := StateT VisitState (Except ClientCapabilityError)

def visitNode : Visit Unit := fun s =>
  if s.nodes + 1 > maxArtifactResultNodes then
    .error ⟨"ARTIFACT_RESULT_TOO_COMPLEX", "artifact result exceeds the structural complexity limit", .null⟩
  else .ok ((), { s with nodes := s.nodes + 1 })

def unknownArtifact (transferId : String) : ClientCapabilityError :=
  ⟨"UNKNOWN_ARTIFACT", s!"unknown artifact transfer {reprString transferId}", .null⟩

def invalidReconstruction : ClientCapabilityError :=
  ⟨"INVALID_ARTIFACT", "artifact reconstruction metadata is invalid", .null⟩

def pathMismatch : ClientCapabilityError :=
  ⟨"INVALID_ARTIFACT", "artifact reconstruction path does not match its template", .null⟩

/-- Look a reference's transfer up, within the reference and expansion limits, and make sure the
cache holds its dictionary. -/
def resolveReference [Sha256] (artifacts : Artifacts) (transferId : String) : Visit Unit := fun s =>
  if s.references + 1 > maxArtifactReferencesPerCall then
    .error ⟨"TOO_MANY_ARTIFACT_REFERENCES", "artifact reference count exceeds the per-call limit", .null⟩
  else match artifacts.get? transferId with
  | none => .error (unknownArtifact transferId)
  | some artifact =>
    if artifact.complete = false then .error (unknownArtifact transferId)
    else if s.expandedBytes + artifact.expectedSize > maxArtifactBytesPerCall then
      .error ⟨"ARTIFACT_MATERIALISATION_TOO_LARGE", "expanded artifact references exceed the per-call limit", .null⟩
    else .ok ((), { s with
      references := s.references + 1
      expandedBytes := s.expandedBytes + artifact.expectedSize
      cache := if (s.cache.get? transferId).isSome then s.cache else s.cache.set transferId artifact.materialise })

def insertKey? : Json → Option String
  | .str s => if s ≠ "" ∧ s.length ≤ 100 then some s else none
  | _ => none

def insertPath? : Json → Option (List String)
  | .arr items => if items = [] ∨ items.length > 8 then none else items.mapM insertKey?
  | _ => none

inductive ReferenceShape
  | bare
  | templated (path : List String)
  | invalid
deriving DecidableEq

def referenceShape (entries : List (String × Json)) : ReferenceShape :=
  match (Assoc.get? entries "artifact_template").getD .null, (Assoc.get? entries "artifact_insert_path").getD .null with
  | .null, .null => .bare
  | .obj _, insertPath =>
    match insertPath? insertPath with
    | some path => .templated path
    | none => .invalid
  | _, _ => .invalid

def insertJson : List String → Json → Json → Option Json
  | [k], value, .obj entries => some (.obj (Assoc.set entries k value))
  | k :: ks, value, .obj entries =>
    match Assoc.get? entries k with
    | some (.obj child) => (insertJson ks value (.obj child)).map (fun c => .obj (Assoc.set entries k c))
    | _ => none
  | _, _, _ => none

def insertVisited (cache : Dict String Json) : List String → Json → Visited → Option (Visited × Dict String Json)
  | path, value, .cached t =>
    (insertJson path value ((cache.get? t).getD .null)).map (fun d => (.cached t, cache.set t d))
  | [k], value, .obj entries => some (.obj (Assoc.set entries k (.leaf value)), cache)
  | k :: ks, value, .obj entries =>
    match Assoc.get? entries k with
    | some child =>
      match child with
      | .obj _ | .cached _ =>
        (insertVisited cache ks value child).map (fun r => (.obj (Assoc.set entries k r.1), r.2))
      | _ => none
    | none => none
  | _, _, _ => none

def withLocation {α : Type} (text : String → α) (entries : List (String × α)) : List (String × α) :=
  Assoc.set (Assoc.set entries "openagent/location" (text "client")) "openagent/pathSemantics" (text "client-local")

/-- A shallow copy of a dictionary, with `None` and anything else read as empty. -/
def copiedEntries (cache : Dict String Json) : Option Visited → List (String × Visited)
  | some (.obj entries) => entries
  | some (.cached t) =>
    match cache.get? t with
    | some (.obj entries) => entries.map (fun e => (e.1, .leaf e.2))
    | _ => []
  | _ => []

/-- Mark a restored block as client-local in its `_meta`. -/
def locateBlock (cache : Dict String Json) : Visited → Visited × Dict String Json
  | .obj entries =>
    (.obj (Assoc.set entries "_meta"
      (.obj (withLocation (fun s => .leaf (.str s)) (copiedEntries cache (Assoc.get? entries "_meta"))))), cache)
  | .cached t =>
    match cache.get? t with
    | some (.obj entries) =>
      let own := match Assoc.get? entries "_meta" with
        | some (.obj metadata) => metadata
        | _ => []
      (.cached t, cache.set t (.obj (Assoc.set entries "_meta" (.obj (withLocation .str own)))))
    | _ => (.cached t, cache)
  | v => (v, cache)

def restoreBlock (transferId : String) (path : List String) (restored : Visited) : Visit Visited := fun s =>
  let encoded := ((s.cache.get? transferId).getD .null).field "data"
  match insertVisited s.cache path encoded restored with
  | none => .error pathMismatch
  | some (block, cache) =>
    let located := locateBlock cache block
    .ok (located.1, { s with cache := located.2 })

def referenceId? (entries : List (String × Json)) : Option String :=
  match Assoc.get? entries "type", Assoc.get? entries "transfer_id" with
  | some (.str "artifact_ref"), some (.str transferId) => some transferId
  | _, _ => none

theorem sizeOf_get?_lt {entries : List (String × Json)} {k : String} {j : Json}
    (h : Assoc.get? entries k = some j) : sizeOf j < sizeOf (Json.obj entries) := by
  have hm := List.sizeOf_lt_of_mem (Assoc.mem_of_get? h)
  simp only [Prod.mk.sizeOf_spec] at hm
  simp only [Json.obj.sizeOf_spec]
  omega

mutual

/-- The walk of `_materialise_artifact_refs`. A template is visited like any other value. -/
def visit [Sha256] (artifacts : Artifacts) (item : Json) : Visit Visited := do
  visitNode
  match item with
  | .obj entries =>
    match referenceId? entries with
    | some transferId => do
      resolveReference artifacts transferId
      match referenceShape entries with
      | .bare => return .cached transferId
      | .invalid => throw invalidReconstruction
      | .templated path =>
        match _ht : Assoc.get? entries "artifact_template" with
        | some template => do
          let restored ← visit artifacts template
          restoreBlock transferId path restored
        | none => throw invalidReconstruction
    | none => do
      let visited ← visitEntries artifacts entries
      return .obj visited
  | .arr items => do
    let visited ← visitList artifacts items
    return .arr visited
  | j => return .leaf j
termination_by sizeOf item
decreasing_by
  · exact sizeOf_get?_lt _ht
  · simp
  · simp

def visitList [Sha256] (artifacts : Artifacts) (items : List Json) : Visit (List Visited) :=
  match items with
  | [] => return []
  | j :: js => do
    let v ← visit artifacts j
    let vs ← visitList artifacts js
    return v :: vs
termination_by sizeOf items

def visitEntries [Sha256] (artifacts : Artifacts) (entries : List (String × Json)) : Visit (List (String × Visited)) :=
  match entries with
  | [] => return []
  | (k, j) :: es => do
    let v ← visit artifacts j
    let vs ← visitEntries artifacts es
    return (k, v) :: vs
termination_by sizeOf entries

end

mutual

def Visited.read (cache : Dict String Json) : Visited → Json
  | .leaf j => j
  | .arr items => .arr (readList cache items)
  | .obj entries => .obj (readEntries cache entries)
  | .cached t => (cache.get? t).getD .null

def readList (cache : Dict String Json) : List Visited → List Json
  | [] => []
  | v :: vs => v.read cache :: readList cache vs

def readEntries (cache : Dict String Json) : List (String × Visited) → List (String × Json)
  | [] => []
  | (k, v) :: es => (k, v.read cache) :: readEntries cache es

end

def materialiseArtifactRefs [Sha256] (value : Json) (artifacts : Artifacts) : Except ClientCapabilityError Json :=
  (visit artifacts value {}).map (fun r => r.1.read r.2.cache)

end OpenAgent.Gateway
