import OpenAgent.Gateway.Artifacts

namespace OpenAgent.HostTools

open Py Gateway Base64

structure HostError where
  code : String
  message : String
deriving DecidableEq

def artifactThresholdBytes : Nat := 256 * 1024
def artifactChunkBytes : Nat := 512 * 1024
def maxArtifactBytesPerCall : Nat := 64 * 1024 * 1024
def maxArtifactTransfersPerCall : Nat := 64

structure HostArtifact where
  transferId : String
  mimeType : String
  sha256 : String
  data : List UInt8

structure PrepareState where
  artifacts : List HostArtifact := []
  totalBytes : Nat := 0
  index : Nat := 0

/-- The base64 field of a block, with what is left of the block and the path that leads back to it. -/
structure EncodedField where
  encoded : String
  mimeType : String
  template : Json
  insertPath : List String

def mediaTypes : List String := ["image", "audio", "video", "file", "blob"]

def decodeBase64 (value : String) : Option (List UInt8) :=
  let compact := unspaced value
  if compact = [] ∨ compact.length % 4 ≠ 0 then none else Base64.decode compact

theorem digit_not_space {n : Nat} (h : n < 64) : isSpace (Base64.digit n) = false := by
  have hall : ∀ m : Fin 64, isSpace (digit m.val) = false := by decide
  exact hall ⟨n, h⟩

theorem encode_not_space (data : List UInt8) : ∀ c ∈ Base64.encode data, isSpace c = false := by
  induction data using encode.induct with
  | case1 => simp [encode]
  | case2 a =>
    have ha := a.toNat_lt
    have hpad : isSpace '=' = false := by decide
    simp only [encode, List.forall_mem_cons]
    refine ⟨digit_not_space (by omega), digit_not_space (by omega), hpad, hpad, by simp⟩
  | case3 a b =>
    have ha := a.toNat_lt
    have hb := b.toNat_lt
    have hpad : isSpace '=' = false := by decide
    simp only [encode, List.forall_mem_cons]
    refine ⟨digit_not_space (by omega), digit_not_space (by omega), digit_not_space (by omega), hpad, by simp⟩
  | case4 a b c rest ih =>
    have ha := a.toNat_lt
    have hb := b.toNat_lt
    have hc := c.toNat_lt
    simp only [encode, List.forall_mem_cons]
    exact ⟨digit_not_space (by omega), digit_not_space (by omega), digit_not_space (by omega),
      digit_not_space (by omega), ih⟩

theorem unspaced_encode (data : List UInt8) : unspaced (b64encode data) = Base64.encode data := by
  rw [unspaced, b64encode, String.toList_ofList, List.filter_eq_self]
  intro c hc
  rw [encode_not_space data c hc]
  rfl

theorem decodeBase64_encode {data : List UInt8} (h : data ≠ []) : decodeBase64 (b64encode data) = some data := by
  have hne : encode data ≠ [] := by
    intro he
    have hd := decode_encode data
    rw [he] at hd
    exact h (Option.some.inj hd).symm
  rw [decodeBase64, unspaced_encode]
  rw [if_neg, decode_encode]
  rintro (he | hl)
  · exact hne he
  · exact hl (length_encode data)
def encodedField (metadata : Json) (raw : List (String × Json)) : Option EncodedField :=
  let get := fun k => (Assoc.get? raw k).getD .null
  let blockType := ((get "type").orElse (.str "")).pyStr
  let mimeType := (((get "mimeType").orElse (get "mime_type")).orElse (.str "application/octet-stream")).pyStr
  if blockType ∈ mediaTypes then
    match get "data" with
    | .str encoded => some ⟨encoded, mimeType, .obj (Assoc.erase raw "data"), ["data"]⟩
    | _ => none
  else if blockType = "resource" then
    match get "resource" with
    | .obj resource =>
      match Assoc.get? resource "blob" with
      | some (.str encoded) =>
        let resourceType := ((Json.obj resource).field "mimeType").orElse ((Json.obj resource).field "mime_type")
        some ⟨encoded, (resourceType.orElse (.str mimeType)).pyStr,
          .obj (Assoc.set raw "resource" (.obj (Assoc.erase resource "blob"))), ["resource", "blob"]⟩
      | _ => none
    | _ => none
  else if blockType = "text" then
    match get "text", metadata.field "encoding" with
    | .str encoded, .str "base64" =>
      let ownType := match metadata.field "mimeType" with
        | .str declared => declared
        | _ => mimeType
      some ⟨encoded, ownType, .obj (Assoc.erase raw "text"), ["text"]⟩
    | _, _ => none
  else none

def largeField (metadata : Json) (raw : List (String × Json)) : Option (EncodedField × List UInt8) :=
  (encodedField metadata raw).bind fun field => (decodeBase64 field.encoded).bind fun data =>
    if artifactThresholdBytes ≤ data.length then some (field, data) else none

def transferIdOf (callId : String) (index : Nat) (digest : String) : String :=
  s!"{prefixOf 160 callId}-{index}-{prefixOf 12 digest}"

abbrev Prepare := StateT PrepareState (Except HostError)

section

variable [Sha256] (callId : String) (metadata : Json)

def extract (field : EncodedField) (data : List UInt8) : Prepare Json := fun s =>
  if s.artifacts.length ≥ maxArtifactTransfersPerCall then
    .error ⟨"too_many_artifacts", s!"client tool result exceeds {maxArtifactTransfersPerCall} artifact transfers"⟩
  else if s.totalBytes + data.length > maxArtifactBytesPerCall then
    .error ⟨"artifact_too_large", s!"client tool artifacts exceed {maxArtifactBytesPerCall} bytes"⟩
  else
    let digest := Sha256.hexdigest data
    let transferId := transferIdOf callId s.index digest
    .ok (.obj [("type", .str "artifact_ref"), ("transfer_id", .str transferId),
        ("artifact_template", field.template), ("artifact_insert_path", .arr (field.insertPath.map .str))],
      { artifacts := s.artifacts ++ [⟨transferId, field.mimeType, digest, data⟩]
        totalBytes := s.totalBytes + data.length
        index := s.index + 1 })

mutual

/-- The walk of `_prepare_result_artifacts`. A template is not walked again. -/
def visit : Json → Prepare Json
  | .arr items => do
    let visited ← visitList items
    return .arr visited
  | .obj raw =>
    match largeField metadata raw with
    | some (field, data) => extract callId field data
    | none => do
      let visited ← visitEntries raw
      return .obj visited
  | j => return j

def visitList : List Json → Prepare (List Json)
  | [] => return []
  | j :: js => do
    let v ← visit j
    let vs ← visitList js
    return v :: vs

def visitEntries : List (String × Json) → Prepare (List (String × Json))
  | [] => return []
  | (k, j) :: es => do
    let v ← visit j
    let vs ← visitEntries es
    return (k, v) :: vs

end

/-- `_prepare_result_artifacts`; the metadata of the whole result is empty unless it is an object. -/
def prepareResultArtifacts (result : Json) : Except HostError (Json × List HostArtifact) :=
  let own := if (result.field "_meta").isObj then result.field "_meta" else .obj []
  (visit callId own result {}).map fun r => if r.2.artifacts = [] then (result, []) else (r.1, r.2.artifacts)

end

/-- Chunk `seq` of an artifact; only the first one describes it. -/
def artifactFrame (callId : String) (generation : Int) (artifact : HostArtifact) (seq : Nat) : ChunkFrame :=
  let offset := seq * artifactChunkBytes
  let chunk := (artifact.data.drop offset).take artifactChunkBytes
  { callId, generation, transferId := artifact.transferId, seq := some seq
    size := if seq = 0 then some (.int artifact.data.length) else none
    mimeType := if seq = 0 then .str artifact.mimeType else .null
    sha256 := if seq = 0 then some (.str artifact.sha256) else none
    data := b64encode chunk
    eof := decide (offset + chunk.length ≥ artifact.data.length) }

/-- `_send_artifact`: one frame for each offset of `range(0, len(data), ARTIFACT_CHUNK_BYTES)`. -/
def sendArtifact (callId : String) (generation : Int) (artifact : HostArtifact) : List ChunkFrame :=
  (List.range ((artifact.data.length + artifactChunkBytes - 1) / artifactChunkBytes)).map
    (artifactFrame callId generation artifact)

end OpenAgent.HostTools
