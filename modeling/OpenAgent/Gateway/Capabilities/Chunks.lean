import OpenAgent.Gateway.ArtifactChannel
import OpenAgent.Gateway.Capabilities.Calls

namespace OpenAgent.Gateway

open Py

variable {artifacts table : Artifacts} {declared : DeclaredSizes} {frame : ChunkFrame} {seq : Int}
variable {buffer : ArtifactBuffer}

/-- The frame's header is accepted for a buffer, which is in the table when the payload is looked at. -/
structure Addressed (artifacts : Artifacts) (declared : DeclaredSizes) (frame : ChunkFrame) (table : Artifacts)
    (seq : Int) (buffer : ArtifactBuffer) : Prop where
  named : ¬ (frame.transferId = "" ∨ frame.transferId.length > 200)
  numbered : frame.seq = some seq
  found : artifacts.get? frame.transferId = some buffer ∧ checkRepeatedMetadata buffer frame = .ok () ∧
      table = artifacts ∨
    artifacts.get? frame.transferId = none ∧ openArtifact artifacts declared frame seq = .ok buffer ∧
      table = artifacts.set frame.transferId buffer

def ArtifactBuffer.extend (buffer : ArtifactBuffer) (chunk : List UInt8) : ArtifactBuffer :=
  { buffer with data := buffer.data ++ chunk, nextSeq := buffer.nextSeq + 1 }

/-- A frame that opens a transfer brings a chunk that it takes. -/
def Opens (artifacts : Artifacts) (declared : DeclaredSizes) (frame : ChunkFrame) : Prop :=
  ∀ table seq buffer, Addressed artifacts declared frame table seq buffer →
    artifacts.get? frame.transferId = none → ∃ chunk, decodeChunk table buffer frame seq = .ok chunk

/-- A frame that ends a transfer brings the rest of its declared size and content. -/
def Finishes [Sha256] (artifacts : Artifacts) (declared : DeclaredSizes) (frame : ChunkFrame) : Prop :=
  ∀ table seq buffer chunk, Addressed artifacts declared frame table seq buffer → frame.eof = true →
    decodeChunk table buffer frame seq = .ok chunk → checkComplete (buffer.extend chunk) = .ok ()

theorem Addressed.get? (h : Addressed artifacts declared frame table seq buffer) :
    table.get? frame.transferId = some buffer := by
  obtain ⟨hfound, -, rfl⟩ | ⟨-, -, rfl⟩ := h.found
  · exact hfound
  · exact Dict.get?_set_self _ _ _

theorem Addressed.unique {table' : Artifacts} {seq' : Int} {buffer' : ArtifactBuffer}
    (h : Addressed artifacts declared frame table seq buffer)
    (h' : Addressed artifacts declared frame table' seq' buffer') : table = table' ∧ seq = seq' ∧ buffer = buffer' := by
  obtain ⟨-, hseq, hfound⟩ := h
  obtain ⟨-, hseq', hfou'⟩ := h'
  grind

variable [Sha256]

theorem receiveArtifactChunk_cases (artifacts : Artifacts) (declared : DeclaredSizes) (frame : ChunkFrame) :
    ((∀ table seq buffer, ¬ Addressed artifacts declared frame table seq buffer) ∧
      ∃ e, receiveArtifactChunk artifacts declared frame = (artifacts, .error e)) ∨
    ∃ table seq buffer, Addressed artifacts declared frame table seq buffer ∧
      receiveArtifactChunk artifacts declared frame = extendArtifact table buffer frame seq := by
  rw [receiveArtifactChunk]
  split
  next hname => exact .inl ⟨fun _ _ _ h => h.named hname, _, rfl⟩
  next hname =>
    cases hseq : frame.seq with
    | none => exact .inl ⟨fun _ _ _ h => (by cases hseq.symm.trans h.numbered), _, rfl⟩
    | some seq =>
      dsimp only
      cases hget : artifacts.get? frame.transferId with
      | none =>
        dsimp only
        cases ho : openArtifact artifacts declared frame seq with
        | error e =>
          refine .inl ⟨?_, e, rfl⟩
          rintro table _ buffer ⟨-, hn, ⟨hfound, -⟩ | ⟨-, hopen, -⟩⟩
          · cases hget.symm.trans hfound
          · cases hseq.symm.trans hn
            cases ho.symm.trans hopen
        | ok buffer => exact .inr ⟨_, seq, buffer, ⟨hname, hseq, .inr ⟨hget, ho, rfl⟩⟩, rfl⟩
      | some buffer =>
        dsimp only
        cases hc : checkRepeatedMetadata buffer frame with
        | error e =>
          refine .inl ⟨?_, e, rfl⟩
          rintro table _ other ⟨-, -, ⟨hfound, hok, -⟩ | ⟨hnone, -⟩⟩
          · cases hget.symm.trans hfound
            cases hc.symm.trans hok
          · cases hget.symm.trans hnone
        | ok => exact .inr ⟨_, seq, buffer, ⟨hname, hseq, .inl ⟨hget, hc, rfl⟩⟩, rfl⟩

theorem extendArtifact_cases (table : Artifacts) (buffer : ArtifactBuffer) (frame : ChunkFrame) (seq : Int) :
    (∃ e, decodeChunk table buffer frame seq = .error e ∧ extendArtifact table buffer frame seq = (table, .error e)) ∨
    ∃ chunk, decodeChunk table buffer frame seq = .ok chunk ∧
      ((frame.eof = true ∧ ∃ e, checkComplete (buffer.extend chunk) = .error e ∧
          extendArtifact table buffer frame seq = (table.set frame.transferId (buffer.extend chunk), .error e)) ∨
        (frame.eof = true → checkComplete (buffer.extend chunk) = .ok ()) ∧ extendArtifact table buffer frame seq =
            (table.set frame.transferId { buffer.extend chunk with complete := frame.eof }, .ok ())) := by
  rw [extendArtifact]
  cases hd : decodeChunk table buffer frame seq with
  | error e => exact .inl ⟨e, rfl, rfl⟩
  | ok chunk =>
    obtain ⟨hcom, -⟩ := decodeChunk_ok hd
    refine .inr ⟨chunk, rfl, ?_⟩
    dsimp only [ArtifactBuffer.extend]
    cases heof : frame.eof with
    | false =>
      refine .inr ⟨fun h => (by cases h), ?_⟩
      rw [if_neg Bool.false_ne_true, hcom]
    | true =>
      cases hc : checkComplete { buffer with
        data := buffer.data ++ chunk, nextSeq := buffer.nextSeq + 1 } with
      | error e => exact .inl ⟨rfl, e, rfl, rfl⟩
      | ok done =>
        cases done
        exact .inr ⟨fun _ => rfl, rfl⟩

/-- A refused chunk leaves the table as it was exactly where it neither opens a transfer without a chunk nor ends one
that is not complete. -/
theorem refused_unchanged_iff (artifacts : Artifacts) (declared : DeclaredSizes) (frame : ChunkFrame) :
    ((∃ e, (receiveArtifactChunk artifacts declared frame).2 = .error e) →
        (receiveArtifactChunk artifacts declared frame).1 = artifacts) ↔
      Opens artifacts declared frame ∧ Finishes artifacts declared frame := by
  constructor
  · intro hkept
    constructor
    · intro table seq buffer ha hnone
      rcases receiveArtifactChunk_cases artifacts declared frame with ⟨hno, -⟩ | ⟨table', seq', buffer', ha', hr⟩
      · exact absurd ha (hno table seq buffer)
      obtain ⟨rfl, rfl, rfl⟩ := ha.unique ha'
      rcases extendArtifact_cases table buffer frame seq with ⟨e, -, hx⟩ | ⟨chunk, hd, -⟩
      · rw [hr, hx] at hkept
        have hsame : table = artifacts := hkept ⟨e, rfl⟩
        have hget := ha.get?
        rw [hsame, hnone] at hget
        cases hget
      · exact ⟨chunk, hd⟩
    intro table seq buffer chunk ha heof hd
    rcases receiveArtifactChunk_cases artifacts declared frame with ⟨hno, -⟩ | ⟨table', seq', buffer', ha', hr⟩
    · exact absurd ha (hno table seq buffer)
    obtain ⟨rfl, rfl, rfl⟩ := ha.unique ha'
    rcases extendArtifact_cases table buffer frame seq with ⟨e, he, -⟩ | ⟨chunk', hd', ⟨-, e, -, hx⟩ | ⟨hc, -⟩⟩
    · cases he.symm.trans hd
    · rw [hr, hx] at hkept
      have hsame : table.set frame.transferId (buffer.extend chunk') = artifacts := hkept ⟨e, rfl⟩
      have hself := Dict.get?_set_self table frame.transferId (buffer.extend chunk')
      rw [hsame] at hself
      obtain ⟨hfound, -⟩ | ⟨hnone, -⟩ := ha.found
      · have hnext := congrArg ArtifactBuffer.nextSeq (Option.some.inj (hfound.symm.trans hself))
        simp [ArtifactBuffer.extend] at hnext
      · cases hnone.symm.trans hself
    · cases hd.symm.trans hd'
      exact hc heof
  · rintro ⟨hope, hends⟩ ⟨e, he⟩
    rcases receiveArtifactChunk_cases artifacts declared frame with ⟨-, _, hr⟩ | ⟨table, seq, buffer, ha, hr⟩
    · rw [hr]
    rw [hr] at he ⊢
    rcases extendArtifact_cases table buffer frame seq with ⟨e', hd, hx⟩ | ⟨chunk, hd, ⟨heof, e', hc, -⟩ | ⟨-, hx⟩⟩
    · rw [hx]
      obtain ⟨-, -, rfl⟩ | ⟨hnone, -, -⟩ := ha.found
      · rfl
      · obtain ⟨chunk, hok⟩ := hope table seq buffer ha hnone
        cases hd.symm.trans hok
    · cases hc.symm.trans (hends table seq buffer chunk ha heof hd)
    · rw [hx] at he
      cases he

namespace Capabilities.World

variable {w : World} {c : ConnId} {ref : PendingRef}

omit [Sha256] in
theorem artifacts_setPending (w : World) (ref other : PendingRef) (artifacts : Artifacts) :
    ((w.setPending ref (fun p => { p with artifacts })).pending other).artifacts =
      if other = ref then artifacts else (w.pending other).artifacts := by
  rw [setPending]
  dsimp only
  rw [Function.update_apply]
  split <;> rfl

theorem receiveChunk_cases (w : World) (c : ConnId) (frame : ChunkFrame) :
    ((∀ ref, (w.conn c).pending.get? frame.callId = some ref → frame.generation ≠ (w.pending ref).generation) ∧
      ∃ e, w.receiveChunk c frame = (w, .error e)) ∨
    ∃ ref, (w.conn c).pending.get? frame.callId = some ref ∧ frame.generation = (w.pending ref).generation ∧
      w.receiveChunk c frame = (w.setPending ref (fun p => { p with
        artifacts := (receiveArtifactChunk (w.pending ref).artifacts (w.declaredSizes c) frame).1 }),
        (receiveArtifactChunk (w.pending ref).artifacts (w.declaredSizes c) frame).2) := by
  rw [receiveChunk]
  cases hget : (w.conn c).pending.get? frame.callId with
  | none => exact .inl ⟨fun _ h => (by cases h), _, rfl⟩
  | some ref =>
    dsimp only
    split
    next hsta =>
      refine .inl ⟨?_, _, rfl⟩
      intro other h
      rwa [← Option.some.inj h]
    next hcur => exact .inr ⟨ref, rfl, not_not.mp hcur, rfl⟩

/-- A refused chunk leaves the tables of the pending calls as they were exactly where it neither opens a transfer
without a chunk nor ends one that is not complete. -/
theorem refused_chunk_unchanged_iff (w : World) (c : ConnId) (frame : ChunkFrame) :
    ((∃ e, (w.receiveChunk c frame).2 = .error e) →
        ∀ ref, ((w.receiveChunk c frame).1.pending ref).artifacts = (w.pending ref).artifacts) ↔
      ∀ ref, (w.conn c).pending.get? frame.callId = some ref → frame.generation = (w.pending ref).generation →
        Opens (w.pending ref).artifacts (w.declaredSizes c) frame ∧
          Finishes (w.pending ref).artifacts (w.declaredSizes c) frame := by
  rcases receiveChunk_cases w c frame with ⟨hsta, e, hr⟩ | ⟨ref, hget, hgen, hr⟩
  · rw [hr]
    exact iff_of_true (fun _ _ => rfl) (fun ref hget hgen => absurd hgen (hsta ref hget))
  have hsame : (∀ r, ((w.receiveChunk c frame).1.pending r).artifacts = (w.pending r).artifacts) ↔
      (receiveArtifactChunk (w.pending ref).artifacts (w.declaredSizes c) frame).1 = (w.pending ref).artifacts := by
    rw [hr]
    constructor
    · intro h
      have href := h ref
      rwa [artifacts_setPending, if_pos rfl] at href
    intro h r
    rw [artifacts_setPending]
    split
    next heq => rw [heq, h]
    next => rfl
  rw [hsame, hr, refused_unchanged_iff]
  constructor
  · intro h other hoth _
    cases hget.symm.trans hoth
    exact h
  · intro h
    exact h ref hget hgen

/-- One connection with one pending call. -/
def awaiting : World := { conn := fun _ => { pending := Dict.empty.set "call" ⟨"call", 1⟩ } }

/-- It opens a transfer and brings no base64. -/
def brokenChunk : ChunkFrame where
  callId := "call"
  generation := 0
  transferId := "t"
  seq := some 0
  size := some (.int 2)
  mimeType := .str "text/plain"
  sha256 := some (.str "0000000000000000000000000000000000000000000000000000000000000000")
  data := "!"
  eof := false

abbrev zeroDigest : Sha256 where
  hexdigest := fun _ => "0000000000000000000000000000000000000000000000000000000000000000"

omit [Sha256] in
theorem broken_chunk_reserves : ¬ ∀ (_ : Sha256) (w : World) (c : ConnId) (frame : ChunkFrame),
    (∃ e, (w.receiveChunk c frame).2 = .error e) →
      ∀ ref, ((w.receiveChunk c frame).1.pending ref).artifacts = (w.pending ref).artifacts := by
  intro hcla
  have hrefu : (@receiveChunk zeroDigest awaiting 0 brokenChunk).2.isOk = false ∧
      ((@receiveChunk zeroDigest awaiting 0 brokenChunk).1.pending ⟨"call", 1⟩).artifacts.size = 1 := by decide +kernel
  obtain ⟨hfai, hsize⟩ := hrefu
  have herr : ∃ e, (@receiveChunk zeroDigest awaiting 0 brokenChunk).2 = .error e := by
    cases hr : (@receiveChunk zeroDigest awaiting 0 brokenChunk).2 with
    | error e => exact ⟨e, rfl⟩
    | ok => rw [hr] at hfai; cases hfai
  rw [hcla zeroDigest awaiting 0 brokenChunk herr ⟨"call", 1⟩] at hsize
  cases hsize

end Capabilities.World

end OpenAgent.Gateway
