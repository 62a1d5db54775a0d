import OpenAgent.HostTools.ResultArtifacts

namespace OpenAgent.Gateway

open Py HostTools List Nat

theorem b64decode_encode (data : List UInt8) : b64decode (b64encode data) = some data := by
  rw [b64decode, b64encode, String.toList_ofList]
  exact Base64.decode_encode data

variable [Sha256]

def receiveChunks (artifacts : Artifacts) : List (DeclaredSizes × ChunkFrame) → Except ClientCapabilityError Artifacts
  | [] => .ok artifacts
  | (declared, frame) :: rest =>
    match receiveArtifactChunk artifacts declared frame with
    | (next, .ok ()) => receiveChunks next rest
    | (_, .error e) => .error e

variable {artifacts table : Artifacts} {declared : DeclaredSizes} {frame : ChunkFrame}

theorem receiveChunks_cons {rest : List (DeclaredSizes × ChunkFrame)}
    (h : receiveChunks artifacts ((declared, frame) :: rest) = .ok table) :
    ∃ next, receiveArtifactChunk artifacts declared frame = (next, .ok ()) ∧ receiveChunks next rest = .ok table := by
  rw [receiveChunks] at h
  split at h
  · rename_i next hn
    exact ⟨next, hn, h⟩
  · cases h

theorem receiveChunks_append {fs gs : List (DeclaredSizes × ChunkFrame)}
    (h : receiveChunks artifacts (fs ++ gs) = .ok table) :
    ∃ next, receiveChunks artifacts fs = .ok next ∧ receiveChunks next gs = .ok table := by
  induction fs generalizing artifacts with
  | nil => exact ⟨artifacts, rfl, h⟩
  | cons f fs ih =>
    obtain ⟨next, hn, hrest⟩ := receiveChunks_cons h
    obtain ⟨last, hfs, hgs⟩ := ih hrest
    refine ⟨last, ?_, hgs⟩
    rw [receiveChunks, hn]
    exact hfs

variable {artifact : ArtifactBuffer}

omit [Sha256] in
variable {seq : Int}

theorem decodeChunk_ok {chunk : List UInt8} (h : decodeChunk artifacts artifact frame seq = .ok chunk) :
    artifact.complete = false ∧ seq = artifact.nextSeq ∧ b64decode frame.data = some chunk := by
  simp only [decodeChunk, bind, pure, throw, throwThe, MonadExceptOf.throw, Except.bind, Except.pure] at h
  split_ifs at h with hseq
  cases hd : b64decode frame.data with
  | none =>
    rw [hd] at h
    cases h
  | some bytes =>
    rw [hd] at h
    simp only at h
    split_ifs at h
    cases h
    push Not at hseq
    exact ⟨Bool.eq_false_iff.mpr hseq.1, hseq.2, rfl⟩

omit [Sha256] in
theorem openArtifact_ok (h : openArtifact artifacts declared frame seq = .ok artifact) :
    ∃ size, frame.size = some (.int size) ∧ artifact.expectedSize = size.toNat ∧ artifact.data = [] ∧
      artifact.nextSeq = 0 ∧ artifact.complete = false := by
  simp only [openArtifact, bind, pure, throw, throwThe, MonadExceptOf.throw, Except.bind, Except.pure] at h
  split at h
  · cases h
  split at h
  · cases h
  cases hsize : frame.size with
  | none =>
    rw [hsize] at h
    cases h
  | some value =>
    rw [hsize] at h
    cases value with
    | int size =>
      simp only at h
      cases hmime : frame.mimeType with
      | str mimeType =>
        rw [hmime] at h
        cases hsha : frame.sha256 with
        | none =>
          rw [hsha] at h
          simp only at h
          split_ifs at h
        | some digest =>
          rw [hsha] at h
          cases digest with
          | str sha256 =>
            simp only at h
            split_ifs at h
            cases h
            exact ⟨size, rfl, rfl, rfl, rfl, rfl⟩
          | _ =>
            simp only at h
            split_ifs at h
      | _ =>
        rw [hmime] at h
        simp only at h
        split_ifs at h
    | _ => cases h
theorem extendArtifact_ok {next : Artifacts}
    (h : extendArtifact artifacts artifact frame seq = (next, .ok ())) :
    artifact.complete = false ∧ seq = artifact.nextSeq ∧ ∃ chunk, b64decode frame.data = some chunk ∧
      next = artifacts.set frame.transferId { artifact with
        data := artifact.data ++ chunk, nextSeq := artifact.nextSeq + 1, complete := frame.eof } := by
  rw [extendArtifact] at h
  cases hd : decodeChunk artifacts artifact frame seq with
  | error e =>
    rw [hd] at h
    cases h
  | ok chunk =>
    obtain ⟨hc, hseq, hdata⟩ := decodeChunk_ok hd
    rw [hd] at h
    refine ⟨hc, hseq, chunk, hdata, ?_⟩
    simp only at h
    split at h
    · rename_i heof
      split at h
      · cases h
      · cases h
        rw [heof]
    rename_i heof
    cases h
    rw [Bool.eq_false_iff.mpr heof, ← hc]

theorem receiveArtifactChunk_ok {next : Artifacts}
    (h : receiveArtifactChunk artifacts declared frame = (next, .ok ())) :
    ∃ seq, frame.seq = some seq ∧ ((∃ buffer, artifacts.get? frame.transferId = some buffer ∧
          extendArtifact artifacts buffer frame seq = (next, .ok ())) ∨
        (artifacts.get? frame.transferId = none ∧ ∃ buffer, openArtifact artifacts declared frame seq = .ok buffer ∧
          extendArtifact (artifacts.set frame.transferId buffer) buffer frame seq = (next, .ok ()))) := by
  rw [receiveArtifactChunk] at h
  split at h
  · cases h
  cases hs : frame.seq with
  | none =>
    rw [hs] at h
    cases h
  | some seq =>
    rw [hs] at h
    refine ⟨seq, rfl, ?_⟩
    cases hg : artifacts.get? frame.transferId with
    | some buffer =>
      rw [hg] at h
      refine .inl ⟨buffer, rfl, ?_⟩
      simp only at h
      split at h
      · cases h
      · exact h
    | none =>
      rw [hg] at h
      simp only at h
      refine .inr ⟨rfl, ?_⟩
      cases ho : openArtifact artifacts declared frame seq with
      | error e =>
        rw [ho] at h
        cases h
      | ok buffer =>
        rw [ho] at h
        exact ⟨buffer, rfl, h⟩

variable {frames : List (DeclaredSizes × ChunkFrame)}

section Artifact

variable {callId : String} {generation : Int} {artifact : HostArtifact}

/-- The buffer that holds the chunks of an artifact before the one numbered `seq`. -/
structure FilledTo (artifact : HostArtifact) (seq : Nat) (buffer : ArtifactBuffer) : Prop where
  data : buffer.data = artifact.data.take (seq * artifactChunkBytes)
  expectedSize : buffer.expectedSize = artifact.data.length
  complete : buffer.complete = decide (artifact.data.length ≤ seq * artifactChunkBytes)

omit [Sha256] in
theorem artifactFrame_eof (callId : String) (generation : Int) (artifact : HostArtifact) (seq : Nat) :
    (artifactFrame callId generation artifact seq).eof =
    decide (artifact.data.length ≤ (seq + 1) * artifactChunkBytes) := by
  simp only [artifactFrame, length_take, length_drop, Nat.add_mul, Nat.one_mul, ge_iff_le, decide_eq_decide]
  omega

theorem extendArtifact_filled {next : Artifacts} {buffer : ArtifactBuffer} {seq : Nat} {n : Int}
    (h : extendArtifact artifacts buffer (artifactFrame callId generation artifact seq) n = (next, .ok ()))
    (hdata : buffer.data = artifact.data.take (seq * artifactChunkBytes))
    (hsize : buffer.expectedSize = artifact.data.length) :
    ∃ filled, FilledTo artifact (seq + 1) filled ∧ next = artifacts.set artifact.transferId filled := by
  obtain ⟨_, _, chunk, hchu, hnext⟩ := extendArtifact_ok h
  refine ⟨_, ?_, hnext⟩
  refine ⟨?_, hsize, artifactFrame_eof callId generation artifact seq⟩
  have hsent : chunk = (artifact.data.drop (seq * artifactChunkBytes)).take artifactChunkBytes := by
    have he := b64decode_encode ((artifact.data.drop (seq * artifactChunkBytes)).take artifactChunkBytes)
    exact Option.some.inj (hchu.symm.trans he)
  simp only
  rw [hdata, hsent, Nat.add_mul, Nat.one_mul, take_add]

def Holds (table : Artifacts) (artifact : HostArtifact) : Prop :=
  ∃ buffer, table.get? artifact.transferId = some buffer ∧ buffer.complete = true ∧
    buffer.data = artifact.data ∧ buffer.expectedSize = artifact.data.length

/-- The artifact has arrived whole, and no other buffer has changed. -/
structure Arrives (artifacts table : Artifacts) (artifact : HostArtifact) : Prop where
  arrived : Holds table artifact
  others : ∀ k, k ≠ artifact.transferId → table.get? k = artifacts.get? k

theorem frames_arrive {seq count : Nat} (hcou : artifact.data.length ≤ (seq + count) * artifactChunkBytes)
    (hseq : 1 ≤ seq)
    (hfra : frames.map Prod.snd = (List.range' seq count).map (artifactFrame callId generation artifact))
    {buffer : ArtifactBuffer}
    (hfound : artifacts.get? artifact.transferId = some buffer) (hfil : FilledTo artifact seq buffer)
    (h : receiveChunks artifacts frames = .ok table) : Arrives artifacts table artifact := by
  induction count generalizing seq frames artifacts buffer with
  | zero =>
    have hemp : frames = [] := by simpa using hfra
    subst hemp
    cases h
    refine ⟨⟨buffer, hfound, ?_, ?_, hfil.expectedSize⟩, fun _ _ => rfl⟩
    · rw [hfil.complete]
      exact decide_eq_true hcou
    · rw [hfil.data]
      exact take_of_length_le hcou
  | succ count ih =>
    rw [List.range'_succ, map_cons, map_eq_cons_iff] at hfra
    obtain ⟨⟨declared, frame⟩, rest, rfl, hfram, hrest⟩ := hfra
    cases hfram
    obtain ⟨next, hn, hlast⟩ := receiveChunks_cons h
    obtain ⟨n, _, ⟨found, hf, hx⟩ | ⟨hnone, _⟩⟩ := receiveArtifactChunk_ok hn
    · cases hfound.symm.trans hf
      obtain ⟨filled, hfl, rfl⟩ := extendArtifact_filled hx hfil.data hfil.expectedSize
      have hle : artifact.data.length ≤ (seq + 1 + count) * artifactChunkBytes := by
        rw [add_assoc, add_comm 1 count]
        exact hcou
      have hall := ih hle (le_succ_of_le hseq) hrest (Dict.get?_set_self _ _ _) hfl hlast
      exact ⟨hall.arrived, fun k hk => (hall.others k hk).trans (Dict.get?_set_of_ne _ _ hk)⟩
    have hne : artifacts.get? artifact.transferId = none := hnone
    rw [hfound] at hne
    cases hne

/-- All frames of an artifact, accepted into a table without unfinished buffers. -/
theorem sendArtifact_arrives (hdata : artifact.data ≠ [])
    (hfra : frames.map Prod.snd = sendArtifact callId generation artifact)
    (hdone : ∀ k buffer, artifacts.get? k = some buffer → buffer.complete = true)
    (h : receiveChunks artifacts frames = .ok table) :
    artifacts.get? artifact.transferId = none ∧ Arrives artifacts table artifact := by
  have hpos : 0 < artifact.data.length := length_pos_iff.mpr hdata
  have hchu : 0 < artifactChunkBytes := by decide
  obtain ⟨count, hcou⟩ : ∃ count, (artifact.data.length + artifactChunkBytes - 1) / artifactChunkBytes = count + 1 := by
    refine exists_eq_add_one.mpr (div_pos ?_ hchu)
    omega
  have hrea : artifact.data.length ≤ (1 + count) * artifactChunkBytes := by
    have hd := div_add_mod (artifact.data.length + artifactChunkBytes - 1) artifactChunkBytes
    have hm := mod_lt (artifact.data.length + artifactChunkBytes - 1) hchu
    rw [hcou, mul_comm] at hd
    rw [add_comm 1 count]
    omega
  rw [sendArtifact, hcou, range_eq_range', List.range'_succ, map_cons, map_eq_cons_iff] at hfra
  obtain ⟨⟨declared, frame⟩, rest, rfl, hfram, hrest⟩ := hfra
  cases hfram
  obtain ⟨next, hn, hlast⟩ := receiveChunks_cons h
  obtain ⟨n, _, ⟨found, hf, hx⟩ | ⟨hnone, buffer, ho, hx⟩⟩ := receiveArtifactChunk_ok hn
  · have hopen := (extendArtifact_ok hx).1
    rw [hdone _ found hf] at hopen
    cases hopen
  obtain ⟨size, hsize, hexp, hemp, _, _⟩ := openArtifact_ok ho
  cases hsize
  obtain ⟨filled, hfl, rfl⟩ := extendArtifact_filled hx (by rw [hemp]; simp) (by rw [hexp]; rfl)
  have hall := frames_arrive hrea le_rfl hrest (Dict.get?_set_self _ _ _) hfl hlast
  refine ⟨hnone, hall.arrived, fun k hk => (hall.others k hk).trans ?_⟩
  exact (Dict.get?_set_of_ne _ _ hk).trans (Dict.get?_set_of_ne _ _ hk)

end Artifact

theorem sendArtifacts_arrive {callId : String} {generation : Int} {sent : List HostArtifact}
    (hdata : ∀ a ∈ sent, a.data ≠ []) (hfra : frames.map Prod.snd = sent.flatMap (sendArtifact callId generation))
    (hdone : ∀ k buffer, artifacts.get? k = some buffer → buffer.complete = true)
    (h : receiveChunks artifacts frames = .ok table) :
    (∀ a ∈ sent, Holds table a) ∧ ∀ k buffer, artifacts.get? k = some buffer → table.get? k = some buffer := by
  induction sent generalizing frames artifacts with
  | nil =>
    have hemp : frames = [] := by simpa using hfra
    subst hemp
    cases h
    exact ⟨fun _ ha => (nomatch ha), fun _ _ hk => hk⟩
  | cons a sent ih =>
    rw [flatMap_cons, map_eq_append_iff] at hfra
    obtain ⟨fs, gs, rfl, hfs, hgs⟩ := hfra
    obtain ⟨next, hn, hlast⟩ := receiveChunks_append h
    obtain ⟨hnew, harr⟩ := sendArtifact_arrives (hdata a mem_cons_self) hfs hdone hn
    have hkept : ∀ k buffer, artifacts.get? k = some buffer → next.get? k = some buffer := by
      intro k buffer hk
      refine (harr.others k ?_).trans hk
      rintro rfl
      rw [hnew] at hk
      cases hk
    have hdone' : ∀ k buffer, next.get? k = some buffer → buffer.complete = true := by
      intro k buffer hk
      by_cases hka : k = a.transferId
      · obtain ⟨found, hf, hc, _⟩ := harr.arrived
        rw [hka, hf] at hk
        exact Option.some.inj hk ▸ hc
      · exact hdone k buffer ((harr.others k hka).symm.trans hk)
    obtain ⟨hall, hlat⟩ := ih (fun b hb => hdata b (mem_cons_of_mem a hb)) hgs hdone' hlast
    refine ⟨fun b hb => ?_, fun k buffer hk => hlat k buffer (hkept k buffer hk)⟩
    rcases mem_cons.mp hb with rfl | hb
    · obtain ⟨found, hf, hrest⟩ := harr.arrived
      exact ⟨found, hlat _ _ hf, hrest⟩
    · exact hall b hb

section Single
variable {callId : String} {generation : Int} {artifact : HostArtifact}

def openedFor (artifact : HostArtifact) : ArtifactBuffer :=
  { transferId := artifact.transferId, mimeType := strip artifact.mimeType
    expectedSize := artifact.data.length, expectedSha256 := lower artifact.sha256 }

omit [Sha256] in
theorem openArtifact_first (hmime : strip artifact.mimeType ≠ "")
    (hlong : artifact.mimeType.length ≤ maxArtifactMimeLength) (hsha : isHexDigest artifact.sha256 = true)
    (hpos : 1 ≤ artifact.data.length) (hsize : artifact.data.length ≤ artifactChunkBytes) :
    openArtifact Dict.empty ⟨0, 0, 0⟩ (artifactFrame callId generation artifact 0) 0 = .ok (openedFor artifact) := by
  have hchu : artifact.data.length ≤ 512 * 1024 := hsize
  have hsiz : 1 ≤ (artifact.data.length : Int) ∧ (artifact.data.length : Int) ≤ maxArtifactBytesPerCall := by
    simp only [maxArtifactBytesPerCall]
    omega
  have hquo : ∀ n, 64 * 1024 * 1024 ≤ n → ¬ 0 + (artifact.data.length : Int).toNat > n := by
    intro n hn
    rw [Int.toNat_natCast]
    omega
  have hlong' : ¬ artifact.mimeType.length > maxArtifactMimeLength := not_lt.mpr hlong
  simp only [openArtifact, artifactFrame, if_true, bind, Except.bind, pure, Except.pure, hsiz, hmime,
    hlong', hsha, ne_eq, not_true_eq_false, if_false, or_self, and_self]
  rw [if_neg (by decide)]
  have h0 : declaredSize Dict.empty = 0 := rfl
  rw [h0, if_neg (hquo _ (by decide)), if_neg (hquo _ (by decide)), if_neg (hquo _ (by decide)),
    if_neg (hquo _ (by decide))]
  rfl

omit [Sha256] in
theorem decodeChunk_only (hpos : 1 ≤ artifact.data.length) (hsize : artifact.data.length ≤ artifactChunkBytes) :
    decodeChunk (Dict.empty.set artifact.transferId (openedFor artifact)) (openedFor artifact)
      (artifactFrame callId generation artifact 0) 0 = .ok artifact.data := by
  have hchu : artifact.data.length ≤ 512 * 1024 := hsize
  have hsent : (artifactFrame callId generation artifact 0).data = b64encode artifact.data := by
    simp only [artifactFrame, zero_mul, drop_zero]
    rw [take_of_length_le hsize]
  have hne : artifact.data ≠ [] := length_pos_iff.mp hpos
  have hrec : receivedSize (Dict.empty.set artifact.transferId (openedFor artifact)) = 0 := rfl
  have hbou : ∀ n, 1024 * 1024 ≤ n → ¬ artifact.data.length > n := by
    intro n hn
    omega
  have hnew : (openedFor artifact).complete = false ∧ (openedFor artifact).nextSeq = 0 ∧
    (openedFor artifact).data = [] ∧ (openedFor artifact).expectedSize = artifact.data.length := ⟨rfl, rfl, rfl, rfl⟩
  simp only [decodeChunk, hsent, b64decode_encode, hrec, hne, bind, Except.bind, pure, Except.pure,
    hnew, length_nil, zero_add, if_false]
  rw [if_neg (by decide), if_neg (hbou _ (by decide)), if_neg (lt_irrefl _), if_neg (hbou _ (by decide))]

theorem artifactFrame_accepted (hid : artifact.transferId ≠ "") (hsho : artifact.transferId.length ≤ 200)
    (hmime : strip artifact.mimeType ≠ "") (hlong : artifact.mimeType.length ≤ maxArtifactMimeLength)
    (hsha : isHexDigest artifact.sha256 = true) (hdig : Sha256.hexdigest artifact.data = lower artifact.sha256)
    (hpos : 1 ≤ artifact.data.length) (hsize : artifact.data.length ≤ artifactChunkBytes) :
    ∃ table, receiveChunks Dict.empty [(⟨0, 0, 0⟩, artifactFrame callId generation artifact 0)] = .ok table := by
  have heof : (artifactFrame callId generation artifact 0).eof = true := by
    rw [artifactFrame_eof, zero_add, one_mul]
    exact decide_eq_true hsize
  have hcom : checkComplete { openedFor artifact with
      data := (openedFor artifact).data ++ artifact.data, nextSeq := (openedFor artifact).nextSeq + 1 } = .ok () := by
    simp only [checkComplete, openedFor, nil_append, hdig, ne_eq, not_true_eq_false, if_false]
    rfl
  have hext : ∃ table, extendArtifact (Dict.empty.set artifact.transferId (openedFor artifact))
      (openedFor artifact) (artifactFrame callId generation artifact 0) 0 = (table, .ok ()) := by
    rw [extendArtifact, decodeChunk_only hpos hsize]
    simp only [heof, if_true]
    rw [hcom]
    exact ⟨_, rfl⟩
  obtain ⟨table, htab⟩ := hext
  have hrec : receiveArtifactChunk Dict.empty ⟨0, 0, 0⟩ (artifactFrame callId generation artifact 0) =
      (table, .ok ()) := by
    have hid' : (artifactFrame callId generation artifact 0).transferId = artifact.transferId := rfl
    have hseq : (artifactFrame callId generation artifact 0).seq = some 0 := rfl
    rw [receiveArtifactChunk, hid', if_neg (by rintro (h | h); exacts [hid h, absurd h (not_lt.mpr hsho)])]
    rw [hseq]
    simp only [Dict.get?_empty, openArtifact_first hmime hlong hsha hpos hsize]
    exact htab
  refine ⟨table, ?_⟩
  rw [receiveChunks, hrec]
  rfl

end Single
end OpenAgent.Gateway
