import OpenAgent.Gateway.Capabilities.Chunks

namespace OpenAgent.Gateway.Capabilities

open Py List Dict World

structure ReceivedChunk where
  call : PendingRef
  frame : ChunkFrame
  accepted : Bool

/-- The registry, with the chunks that have come for its pending calls. -/
structure ArtifactDesk where
  world : World
  log : List ReceivedChunk := []

/-- What the calls of a connection have declared. -/
def World.load (w : World) (c : ConnId) : Nat :=
  (w.conn c).pending.sumBy (fun _ r => declaredSize (w.pending r).artifacts)

namespace ArtifactDesk

def next [Sha256] (s : ArtifactDesk) (e : Key × ChunkFrame) : Option ArtifactDesk :=
  match s.world.connections.get? e.1 with
  | none => none
  | some c =>
    let received := s.world.receiveChunk c e.2
    some {
      world := received.1
      log := match (s.world.conn c).pending.get? e.2.callId with
        | some ref => s.log ++ [⟨ref, e.2, received.2.isOk⟩]
        | none => s.log }

/-- The accepted chunks of a transfer, in the order in which they came. -/
def chunks (s : ArtifactDesk) (ref : PendingRef) (k : String) : List ReceivedChunk :=
  s.log.filter (fun r => r.call = ref ∧ r.frame.transferId = k ∧ r.accepted)

def payload (r : ReceivedChunk) : List UInt8 := (b64decode r.frame.data).getD []

def table (s : ArtifactDesk) (ref : PendingRef) : Artifacts := (s.world.pending ref).artifacts

/-- The buffer holds the accepted chunks of its transfer, numbered from 0 without gap or repetition. -/
structure Filled (s : ArtifactDesk) (ref : PendingRef) (k : String) (buffer : ArtifactBuffer) : Prop where
  numbers : (s.chunks ref k).map (fun r => r.frame.seq) = (List.range buffer.nextSeq).map (fun i : Nat => some (i : Int))
  data : buffer.data = (s.chunks ref k).flatMap payload

/-- Some frame numbered 0 has declared the size and the digest of the transfer. -/
def Declared (s : ArtifactDesk) (ref : PendingRef) (k : String) (size : Nat) (digest : String) : Prop :=
  ∃ r ∈ s.log, r.call = ref ∧ r.frame.transferId = k ∧ r.frame.seq = some 0 ∧ r.frame.size = some (.int size) ∧
    ∃ sha, r.frame.sha256 = some (.str sha) ∧ digest = lower sha

/-- What the registered connections have declared stays within the four quotas. -/
structure Bounded (w : World) : Prop where
  transfers : ∀ ref, (w.pending ref).artifacts.size ≤ maxArtifactTransfersPerCall
  perCall : ∀ ref, declaredSize (w.pending ref).artifacts ≤ maxArtifactBytesPerCall
  perConnection : ∀ key c, w.connections.get? key = some c → w.load c ≤ maxArtifactBytesPerConnection
  perDevice : ∀ device, w.connections.sumBy (fun _ c => if (w.conn c).deviceId = device then w.load c else 0) ≤
    maxArtifactBytesPerDevice
  globally : w.connections.sumBy (fun _ c => w.load c) ≤ maxArtifactBytesGlobal

/-- A complete artifact is the accepted chunks of its transfer, of the size and the digest that were declared. -/
def Intact [Sha256] (s : ArtifactDesk) : Prop :=
  ∀ ref k buffer, (s.table ref).get? k = some buffer → buffer.complete = true →
    s.Filled ref k buffer ∧ s.Declared ref k buffer.data.length (Sha256.hexdigest buffer.data)

/-- Every registered connection has calls of its own. -/
structure Separate (w : World) : Prop where
  own : ∀ key c id ref, w.connections.get? key = some c → (w.conn c).pending.get? id = some ref → ref.callId = id
  apart : ∀ key key' c c' id ref ref', w.connections.get? key = some c → w.connections.get? key' = some c' →
    (w.conn c).pending.get? id = some ref → (w.conn c').pending.get? id = some ref' → key = key'

/-- No frame ends a transfer that is not complete. -/
def Completes [Sha256] (s : ArtifactDesk) (e : Key × ChunkFrame) : Prop :=
  ∀ c ref, s.world.connections.get? e.1 = some c → (s.world.conn c).pending.get? e.2.callId = some ref →
    e.2.generation = (s.world.pending ref).generation → Finishes (s.table ref) (s.world.declaredSizes c) e.2

/-- What holds of every buffer, complete or not. -/
structure Sound [Sha256] (s : ArtifactDesk) (ref : PendingRef) (k : String) (buffer : ArtifactBuffer) : Prop where
  filled : s.Filled ref k buffer
  declared : s.Declared ref k buffer.expectedSize buffer.expectedSha256
  checked : buffer.complete = true →
    buffer.data.length = buffer.expectedSize ∧ Sha256.hexdigest buffer.data = buffer.expectedSha256

structure Kept [Sha256] (s : ArtifactDesk) : Prop where
  sound : ∀ ref k buffer, (s.table ref).get? k = some buffer → s.Sound ref k buffer
  absent : ∀ ref k, (s.table ref).get? k = none → s.chunks ref k = []

end ArtifactDesk

section Chunk

variable {artifacts : Artifacts} {declared : DeclaredSizes} {frame : ChunkFrame} {seq : Int} {buffer : ArtifactBuffer}

/-- What opening a transfer has checked. -/
structure Opened (artifacts : Artifacts) (declared : DeclaredSizes) (frame : ChunkFrame) (seq : Int)
    (buffer : ArtifactBuffer) : Prop where
  first : seq = 0
  fresh : buffer.data = [] ∧ buffer.nextSeq = 0 ∧ buffer.complete = false
  size : frame.size = some (.int buffer.expectedSize)
  digest : ∃ sha, frame.sha256 = some (.str sha) ∧ buffer.expectedSha256 = lower sha
  transfers : artifacts.size < maxArtifactTransfersPerCall
  perCall : declaredSize artifacts + buffer.expectedSize ≤ maxArtifactBytesPerCall
  perConnection : declared.forConnection + buffer.expectedSize ≤ maxArtifactBytesPerConnection
  perDevice : declared.forDevice + buffer.expectedSize ≤ maxArtifactBytesPerDevice
  globally : declared.globally + buffer.expectedSize ≤ maxArtifactBytesGlobal

theorem opened_of_ok (h : openArtifact artifacts declared frame seq = .ok buffer) :
    Opened artifacts declared frame seq buffer := by
  obtain ⟨size, hsize, -⟩ := openArtifact_ok h
  simp only [openArtifact, bind, pure, throw, throwThe, MonadExceptOf.throw, Except.bind, Except.pure, hsize] at h
  cases hmime : frame.mimeType with
  | str mimeType =>
    cases hsha : frame.sha256 with
    | none =>
      rw [hmime, hsha] at h
      dsimp only at h
      split_ifs at h
    | some digest =>
      rw [hmime, hsha] at h
      cases digest with
      | str sha =>
        dsimp only at h
        split_ifs at h with hseq hmany hran _ _ hcall hconn hdev hall
        cases h
        have hnat : ((size.toNat : Nat) : Int) = size := Int.toNat_of_nonneg (by omega)
        exact ⟨not_not.mp hseq, ⟨rfl, rfl, rfl⟩, by rw [hsize, hnat], ⟨sha, hsha, rfl⟩, by omega,
          Nat.le_of_not_lt hcall, Nat.le_of_not_lt hconn, Nat.le_of_not_lt hdev, Nat.le_of_not_lt hall⟩
      | _ =>
        dsimp only at h
        split_ifs at h
  | _ =>
    rw [hmime] at h
    dsimp only at h
    split_ifs at h

variable {κ α : Type}

theorem sumBy_set_same [DecidableEq κ] {d : Dict κ α} {f : κ → α → Nat} {k : κ} {v u : α}
    (h : d.get? k = some v) (hf : f k u = f k v) : (d.set k u).sumBy f = d.sumBy f := by
  rw [sumBy_set, sumBy_erase d f h, hf]

theorem sumBy_set_new [DecidableEq κ] {d : Dict κ α} (f : κ → α → Nat) {k : κ} (u : α)
    (h : d.get? k = none) : (d.set k u).sumBy f = d.sumBy f + f k u := by
  rw [sumBy_set, erase_of_get?_none d h, Nat.add_comm]

theorem sumBy_change [DecidableEq κ] {d : Dict κ α} {f g : κ → α → Nat} {k : κ} {v : α} {n : Nat}
    (h : d.get? k = some v) (hk : g k v = f k v + n) (hrest : ∀ j u, d.get? j = some u → j ≠ k → g j u = f j u) :
    d.sumBy g = d.sumBy f + n := by
  have hsame : (d.erase k).sumBy g = (d.erase k).sumBy f := by
    refine sumBy_congr _ (fun j u hj => ?_)
    by_cases hjk : j = k
    · rw [hjk, get?_erase_self] at hj
      cases hj
    · exact hrest j u ((get?_erase_of_ne d hjk).symm.trans hj) hjk
  rw [sumBy_erase d g h, sumBy_erase d f h, hk, hsame]
  omega

variable [Sha256]

/-- What a chunk leaves in the table: nothing new, a transfer that it opens, or a buffer that it extends. -/
inductive Fate (artifacts : Artifacts) (declared : DeclaredSizes) (frame : ChunkFrame) :
    Artifacts × Except ClientCapabilityError Unit → Prop
  | refused (e) : Fate artifacts declared frame (artifacts, .error e)
  | opened (buffer : ArtifactBuffer) (e) (habsent : artifacts.get? frame.transferId = none) (hseq : frame.seq = some 0)
      (ho : Opened artifacts declared frame 0 buffer) :
      Fate artifacts declared frame (artifacts.set frame.transferId buffer, .error e)
  | extended (table) (buffer : ArtifactBuffer) (chunk) (done : Bool) (outcome)
      (ha : Addressed artifacts declared frame table buffer.nextSeq buffer)
      (hopen : buffer.complete = false) (hdata : b64decode frame.data = some chunk)
      (hdone : done = true → checkComplete (buffer.extend chunk) = .ok ())
      (hok : outcome = .ok () ∨ (∃ e, outcome = .error e) ∧ ¬ Finishes artifacts declared frame) :
      Fate artifacts declared frame (table.set frame.transferId { buffer.extend chunk with complete := done }, outcome)

theorem fate (artifacts : Artifacts) (declared : DeclaredSizes) (frame : ChunkFrame) :
    Fate artifacts declared frame (receiveArtifactChunk artifacts declared frame) := by
  rcases receiveArtifactChunk_cases artifacts declared frame with ⟨-, e, hr⟩ | ⟨table, seq, buffer, ha, hr⟩
  · rw [hr]
    exact .refused e
  rw [hr]
  rcases extendArtifact_cases table buffer frame seq with ⟨e, -, hx⟩ | ⟨chunk, hd, hx⟩
  · rw [hx]
    obtain ⟨-, -, rfl⟩ | ⟨hnone, hopen, rfl⟩ := ha.found
    · exact .refused e
    have ho := opened_of_ok hopen
    cases ho.first
    exact .opened buffer e hnone ha.numbered ho
  obtain ⟨hopen, rfl, hdata⟩ := decodeChunk_ok hd
  rcases hx with ⟨heof, e, hc, hx⟩ | ⟨hc, hx⟩
  · rw [hx]
    have hsame : buffer.extend chunk = { buffer.extend chunk with complete := false } := by
      rw [← hopen]
      rfl
    rw [hsame]
    refine .extended table buffer chunk false _ ha hopen hdata (fun h => by cases h) (.inr ⟨⟨e, rfl⟩, fun hends => ?_⟩)
    cases hc.symm.trans (hends table _ buffer chunk ha heof hd)
  · rw [hx]
    exact .extended table buffer chunk frame.eof _ ha hopen hdata hc (.inl rfl)

/-- A table has grown by `n` declared bytes, for which there was room. -/
structure Grown (artifacts : Artifacts) (declared : DeclaredSizes) (table : Artifacts) (n : Nat) : Prop where
  size : declaredSize table = declaredSize artifacts + n
  transfers : artifacts.size ≤ maxArtifactTransfersPerCall → table.size ≤ maxArtifactTransfersPerCall
  room : n = 0 ∨ declaredSize artifacts + n ≤ maxArtifactBytesPerCall ∧
    declared.forConnection + n ≤ maxArtifactBytesPerConnection ∧
    declared.forDevice + n ≤ maxArtifactBytesPerDevice ∧ declared.globally + n ≤ maxArtifactBytesGlobal

omit [Sha256] in
theorem Opened.grown (ho : Opened artifacts declared frame seq buffer)
    (habsent : artifacts.get? frame.transferId = none) :
    Grown artifacts declared (artifacts.set frame.transferId buffer) buffer.expectedSize where
  size := sumBy_set_new _ buffer habsent
  transfers := fun _ => by
    rw [size_eq_sumBy, sumBy_set_new _ buffer habsent, ← size_eq_sumBy]
    exact ho.transfers
  room := .inr ⟨ho.perCall, ho.perConnection, ho.perDevice, ho.globally⟩

theorem Fate.grown {received : Artifacts × Except ClientCapabilityError Unit}
    (h : Fate artifacts declared frame received) : ∃ n, Grown artifacts declared received.1 n := by
  have hnone : Grown artifacts declared artifacts 0 := ⟨rfl, id, .inl rfl⟩
  cases h with
  | refused => exact ⟨0, hnone⟩
  | opened buffer e habsent hseq ho => exact ⟨_, ho.grown habsent⟩
  | extended table buffer chunk done outcome ha =>
    have htab : ∃ n, Grown artifacts declared table n := by
      obtain ⟨-, -, rfl⟩ | ⟨habsent, hopen, rfl⟩ := ha.found
      · exact ⟨0, hnone⟩
      · exact ⟨_, (opened_of_ok hopen).grown habsent⟩
    obtain ⟨n, hn⟩ := htab
    refine ⟨n, ?_, ?_, hn.room⟩
    · rw [← hn.size]
      exact sumBy_set_same ha.get? rfl
    intro hle
    have hcou := sumBy_set_same (f := fun _ _ => 1) (u := { buffer.extend chunk with complete := done }) ha.get? rfl
    rw [← size_eq_sumBy, ← size_eq_sumBy] at hcou
    exact hcou.trans_le (hn.transfers hle)

end Chunk

section Quotas

variable {w : World} {c : ConnId} {key : Key} {id : CallId} {ref : PendingRef} {table : Artifacts} {n : Nat}

theorem declaredSizes_eq (w : World) (c : ConnId) : w.declaredSizes c =
    ⟨w.load c, w.connections.sumBy (fun _ d => if (w.conn d).deviceId = (w.conn c).deviceId then w.load d else 0),
      w.connections.sumBy (fun _ d => w.load d)⟩ := by
  simp [declaredSizes, load, sumBy, values, Function.comp_def]

theorem load_setPending (hsep : ArtifactDesk.Separate w) (hc : w.connections.get? key = some c)
    (hget : (w.conn c).pending.get? id = some ref)
    (hsize : declaredSize table = declaredSize (w.pending ref).artifacts + n) :
    (w.setPending ref (fun p => { p with artifacts := table })).load c = w.load c + n ∧
      ∀ key' d, w.connections.get? key' = some d → key' ≠ key →
        (w.setPending ref (fun p => { p with artifacts := table })).load d = w.load d := by
  constructor
  · refine sumBy_change hget ?_ ?_
    · rw [artifacts_setPending, if_pos rfl, hsize]
    · intro id' other hoth hne
      rw [artifacts_setPending, if_neg]
      rintro rfl
      exact hne ((hsep.own _ _ _ _ hc hoth).symm.trans (hsep.own _ _ _ _ hc hget))
  intro key' d hd hne
  refine sumBy_congr _ (fun id' other hoth => ?_)
  rw [artifacts_setPending, if_neg]
  rintro rfl
  have hid : id' = id := (hsep.own _ _ _ _ hd hoth).symm.trans (hsep.own _ _ _ _ hc hget)
  exact hne (hsep.apart _ _ _ _ _ _ _ hd hc (hid ▸ hoth) hget)

theorem bounded_setPending (hw : ArtifactDesk.Bounded w) (hsep : ArtifactDesk.Separate w)
    (hc : w.connections.get? key = some c) (hget : (w.conn c).pending.get? id = some ref)
    (hgro : Grown (w.pending ref).artifacts (w.declaredSizes c) table n) :
    ArtifactDesk.Bounded (w.setPending ref (fun p => { p with artifacts := table })) := by
  obtain ⟨hown, hoth⟩ := load_setPending hsep hc hget hgro.size
  have hroom := hgro.room
  rw [declaredSizes_eq] at hroom
  dsimp only at hroom
  refine ⟨?_, ?_, ?_, ?_, ?_⟩
  · intro other
    rw [artifacts_setPending]
    split
    · exact hgro.transfers (hw.transfers ref)
    · exact hw.transfers other
  · intro other
    rw [artifacts_setPending]
    split
    · have hle := hw.perCall ref
      rw [hgro.size]
      omega
    · exact hw.perCall other
  · intro key' d hd
    have hle := hw.perConnection key' d hd
    by_cases hk : key' = key
    · cases hc.symm.trans (hk ▸ hd)
      omega
    · rw [hoth key' d hd hk]
      exact hle
  · intro device
    have hle := hw.perDevice device
    by_cases hdev : (w.conn c).deviceId = device
    · have hsum := sumBy_change (n := n) (g := fun _ d => if (w.conn d).deviceId = device then
          (w.setPending ref (fun p => { p with artifacts := table })).load d else 0)
        (f := fun _ d => if (w.conn d).deviceId = device then w.load d else 0) hc
        (by rw [if_pos hdev, if_pos hdev, hown]) (fun j u hj hne => by rw [hoth j u hj hne])
      refine (le_of_eq hsum).trans ?_
      subst hdev
      omega
    have hsum := sumBy_change (n := 0) (g := fun _ d => if (w.conn d).deviceId = device then
        (w.setPending ref (fun p => { p with artifacts := table })).load d else 0)
      (f := fun _ d => if (w.conn d).deviceId = device then w.load d else 0) hc
      (by rw [if_neg hdev, if_neg hdev]) (fun j u hj hne => by rw [hoth j u hj hne])
    exact (le_of_eq hsum).trans hle
  · have hsum := sumBy_change (n := n)
      (g := fun _ d => (w.setPending ref (fun p => { p with artifacts := table })).load d)
      (f := fun _ d => w.load d) hc hown hoth
    have hle := hw.globally
    refine (le_of_eq hsum).trans ?_
    omega

end Quotas

namespace ArtifactDesk

variable [Sha256] {s t : ArtifactDesk} {e : Key × ChunkFrame} {ref : PendingRef} {k : String} {buffer : ArtifactBuffer}

theorem next_cases (h : s.next e = some t) : ∃ c, s.world.connections.get? e.1 = some c ∧
    ((t.world = s.world ∧ (t.log = s.log ∨ ∃ r, r.accepted = false ∧ t.log = s.log ++ [r])) ∨
      ∃ ref received, (s.world.conn c).pending.get? e.2.callId = some ref ∧
        e.2.generation = (s.world.pending ref).generation ∧
        received = receiveArtifactChunk (s.table ref) (s.world.declaredSizes c) e.2 ∧
        t = ⟨s.world.setPending ref (fun p => { p with artifacts := received.1 }),
          s.log ++ [⟨ref, e.2, received.2.isOk⟩]⟩) := by
  rw [next] at h
  split at h
  next => cases h
  next c hc =>
    cases h
    refine ⟨c, hc, ?_⟩
    rcases receiveChunk_cases s.world c e.2 with ⟨-, error, hr⟩ | ⟨ref, hget, hgen, hr⟩
    · refine .inl ⟨by rw [hr], ?_⟩
      rw [hr]
      split
      · exact .inr ⟨_, rfl, rfl⟩
      · exact .inl rfl
    refine .inr ⟨ref, _, hget, hgen, rfl, ?_⟩
    rw [hr, hget]
    rfl

theorem Sound.mono (h : s.Sound ref k buffer) (hchu : t.chunks ref k = s.chunks ref k)
    (hlog : ∀ r ∈ s.log, r ∈ t.log) : t.Sound ref k buffer := by
  obtain ⟨⟨hnum, hdata⟩, ⟨r, hr, hdec⟩, hche⟩ := h
  exact ⟨⟨hchu ▸ hnum, hchu ▸ hdata⟩, ⟨r, hlog r hr, hdec⟩, hche⟩

omit [Sha256] in
theorem chunks_concat {w : World} {r : ReceivedChunk} (h : ¬ (r.call = ref ∧ r.frame.transferId = k ∧ r.accepted)) :
    (⟨w, s.log ++ [r]⟩ : ArtifactDesk).chunks ref k = s.chunks ref k := by
  rw [chunks, filter_append, filter_cons_of_neg (by simpa using h), filter_nil, append_nil]
  rfl

omit [Sha256] in
theorem chunks_accepted {w : World} {frame : ChunkFrame} :
    (⟨w, s.log ++ [⟨ref, frame, true⟩]⟩ : ArtifactDesk).chunks ref frame.transferId =
      s.chunks ref frame.transferId ++ [⟨ref, frame, true⟩] := by
  simp [chunks]

variable {artifacts : Artifacts}

theorem Fate.others {declared : DeclaredSizes} {frame : ChunkFrame}
    {received : Artifacts × Except ClientCapabilityError Unit} (h : Fate artifacts declared frame received)
    (hk : k ≠ frame.transferId) : received.1.get? k = artifacts.get? k := by
  cases h with
  | refused => rfl
  | opened => exact get?_set_of_ne _ _ hk
  | extended table other chunk done outcome ha =>
    refine (get?_set_of_ne _ _ hk).trans ?_
    obtain ⟨-, -, rfl⟩ | ⟨-, -, rfl⟩ := ha.found
    · rfl
    · exact get?_set_of_ne _ _ hk

variable {declared : DeclaredSizes} {frame : ChunkFrame} {received : Artifacts × Except ClientCapabilityError Unit}

/-- The state after a chunk for the call `ref`. -/
def after (s : ArtifactDesk) (ref : PendingRef) (frame : ChunkFrame)
    (received : Artifacts × Except ClientCapabilityError Unit) : ArtifactDesk :=
  ⟨s.world.setPending ref (fun p => { p with artifacts := received.1 }), s.log ++ [⟨ref, frame, received.2.isOk⟩]⟩

omit [Sha256] in
theorem table_after {other : PendingRef} : (s.after ref frame received).table other =
    if other = ref then received.1 else s.table other := artifacts_setPending _ _ _ _

theorem sound_opened (ho : Opened (s.table ref) declared frame 0 buffer) (hseq : frame.seq = some 0)
    (hemp : t.chunks ref frame.transferId = []) {accepted : Bool} (hlog : ⟨ref, frame, accepted⟩ ∈ t.log) :
    t.Sound ref frame.transferId buffer := by
  obtain ⟨hdata, hnext, hopen⟩ := ho.fresh
  refine ⟨⟨?_, ?_⟩, ⟨_, hlog, rfl, rfl, hseq, ho.size, ho.digest⟩, ?_⟩
  · rw [hemp, hnext]
    rfl
  · rw [hemp, hdata]
    rfl
  · intro h
    cases hopen.symm.trans h

theorem sound_addressed (hk : Kept s) {table : Artifacts}
    (ha : Addressed (s.table ref) declared frame table buffer.nextSeq buffer) (accepted : Bool) :
    (s.Filled ref frame.transferId buffer) ∧ ∃ r ∈ s.log ++ [⟨ref, frame, accepted⟩], r.call = ref ∧
      r.frame.transferId = frame.transferId ∧ r.frame.seq = some 0 ∧ r.frame.size = some (.int buffer.expectedSize) ∧
      ∃ sha, r.frame.sha256 = some (.str sha) ∧ buffer.expectedSha256 = lower sha := by
  obtain ⟨hfound, -, -⟩ | ⟨habsent, hopen, -⟩ := ha.found
  · have hs := hk.sound ref _ buffer hfound
    obtain ⟨r, hr, hrest⟩ := hs.declared
    exact ⟨hs.filled, r, mem_append_left _ hr, hrest⟩
  have ho := opened_of_ok hopen
  have hseq : frame.seq = some 0 := ha.numbered.trans (congrArg some ho.first)
  obtain ⟨hdata, hnext, -⟩ := ho.fresh
  have hemp := hk.absent ref _ habsent
  refine ⟨⟨?_, ?_⟩, ⟨ref, frame, accepted⟩, by simp, rfl, rfl, hseq, ho.size, ho.digest⟩
  · rw [hemp, hnext]
    rfl
  · rw [hemp, hdata]
    rfl

theorem sound_extended (hk : Kept s) {table : Artifacts} {chunk : List UInt8} {done : Bool}
    (ha : Addressed (s.table ref) declared frame table buffer.nextSeq buffer)
    (hdata : b64decode frame.data = some chunk)
    (hdone : done = true → checkComplete (buffer.extend chunk) = .ok ()) (hrec : received.2 = .ok ()) :
    (s.after ref frame received).Sound ref frame.transferId { buffer.extend chunk with complete := done } := by
  obtain ⟨⟨hnum, hbyt⟩, hdec⟩ := sound_addressed hk ha received.2.isOk
  have hchu : (s.after ref frame received).chunks ref frame.transferId =
      s.chunks ref frame.transferId ++ [⟨ref, frame, true⟩] := by
    rw [after, hrec]
    exact chunks_accepted
  refine ⟨⟨?_, ?_⟩, hdec, ?_⟩
  · rw [hchu, map_append, hnum]
    simp [ArtifactBuffer.extend, range_succ, ha.numbered]
  · rw [hchu, flatMap_append, ← hbyt]
    simp [ArtifactBuffer.extend, payload, hdata]
  intro hd
  have hche := hdone hd
  simp only [checkComplete, bind, Except.bind, pure, Except.pure, throw, throwThe, MonadExceptOf.throw] at hche
  split_ifs at hche with hlen hdig
  exact ⟨not_not.mp hlen, not_not.mp hdig⟩

theorem kept_after (hk : Kept s) (hends : Finishes (s.table ref) declared frame)
    (hfate : Fate (s.table ref) declared frame received) : Kept (s.after ref frame received) := by
  have hsame : ∀ other k, ¬ (other = ref ∧ k = frame.transferId) →
      ((s.after ref frame received).table other).get? k = (s.table other).get? k ∧
        (s.after ref frame received).chunks other k = s.chunks other k := by
    intro other k hne
    refine ⟨?_, chunks_concat (fun h => hne ⟨h.1.symm, h.2.1.symm⟩)⟩
    rw [table_after]
    split
    next heq =>
      subst heq
      exact Fate.others hfate (fun hk => hne ⟨rfl, hk⟩)
    next => rfl
  have hlog : ∀ r ∈ s.log, r ∈ (s.after ref frame received).log := fun _ hr => mem_append_left _ hr
  have hown : ((s.after ref frame received).table ref) = received.1 := by rw [table_after, if_pos rfl]
  have hrefu : ∀ {e}, received.2 = .error e →
      (s.after ref frame received).chunks ref frame.transferId = s.chunks ref frame.transferId := by
    intro e he
    refine chunks_concat ?_
    rw [he]
    rintro ⟨-, -, hok⟩
    cases hok
  constructor
  · intro other k buffer hget
    by_cases hpair : other = ref ∧ k = frame.transferId
    · obtain ⟨rfl, rfl⟩ := hpair
      rw [hown] at hget
      cases hfate with
      | refused e => exact (hk.sound _ _ _ hget).mono (hrefu rfl) hlog
      | opened new e habsent hseq ho =>
        cases (get?_set_self _ _ _).symm.trans hget
        exact sound_opened ho hseq ((hrefu rfl).trans (hk.absent _ _ habsent))
          (mem_append_right _ (mem_singleton_self _))
      | extended table old chunk done outcome ha hopen hdata hdone hok =>
        cases (get?_set_self _ _ _).symm.trans hget
        exact sound_extended hk ha hdata hdone (hok.resolve_right (fun h => h.2 hends))
    · obtain ⟨htab, hchu⟩ := hsame other k hpair
      exact (hk.sound other k buffer (htab.symm.trans hget)).mono hchu hlog
  intro other k hget
  by_cases hpair : other = ref ∧ k = frame.transferId
  · obtain ⟨rfl, rfl⟩ := hpair
    rw [hown] at hget
    cases hfate with
    | refused e => exact (hrefu rfl).trans (hk.absent _ _ hget)
    | opened | extended => cases (get?_set_self _ _ _).symm.trans hget
  · obtain ⟨htab, hchu⟩ := hsame other k hpair
    exact hchu.trans (hk.absent other k (htab.symm.trans hget))

theorem kept_next (hk : Kept s) (hc : Completes s e) (h : s.next e = some t) : Kept t := by
  obtain ⟨c, hget, ⟨hwor, hlog⟩ | ⟨ref, received, hpen, hgen, rfl, rfl⟩⟩ := next_cases h
  · have hchu : ∀ ref k, t.chunks ref k = s.chunks ref k := by
      intro ref k
      obtain hlog | ⟨r, hr, hlog⟩ := hlog
      · rw [chunks, chunks, hlog]
      have hcon : (⟨s.world, s.log ++ [r]⟩ : ArtifactDesk).chunks ref k = s.chunks ref k :=
        chunks_concat (fun ⟨_, _, h⟩ => by rw [hr] at h; cases h)
      rwa [chunks, ← hlog] at hcon
    have hmem : ∀ r ∈ s.log, r ∈ t.log := by
      obtain hlog | ⟨r, -, hlog⟩ := hlog
      · exact fun _ hr => hlog ▸ hr
      · exact fun _ hr => hlog ▸ mem_append_left _ hr
    have htab : ∀ ref, t.table ref = s.table ref := fun ref => by rw [table, table, hwor]
    exact ⟨fun ref k b hb => (hk.sound ref k b (htab ref ▸ hb)).mono (hchu ref k) hmem,
      fun ref k hn => (hchu ref k).trans (hk.absent ref k (htab ref ▸ hn))⟩
  · exact kept_after hk (hc c ref hget hpen hgen) (fate _ _ _)

theorem Fate.complete (h : Fate artifacts declared frame received)
    (hget : artifacts.get? k = some buffer) (hcom : buffer.complete = true) :
    received.1.get? k = some buffer := by
  by_cases hk : k = frame.transferId
  · subst hk
    cases h with
    | refused => exact hget
    | opened other e habsent => cases habsent.symm.trans hget
    | extended table other chunk done outcome ha hopen =>
      obtain ⟨hfound, -⟩ | ⟨habsent, -⟩ := ha.found
      · cases hfound.symm.trans hget
        cases hopen.symm.trans hcom
      · cases habsent.symm.trans hget
  · exact (Fate.others h hk).trans hget

theorem next_bounded (hsep : Separate s.world) (hb : Bounded s.world) (h : s.next e = some t) :
    Separate t.world ∧ Bounded t.world ∧ ∀ ref k buffer, (s.table ref).get? k = some buffer →
      buffer.complete = true → (t.table ref).get? k = some buffer := by
  obtain ⟨c, hget, ⟨hwor, -⟩ | ⟨ref, received, hpen, -, rfl, rfl⟩⟩ := next_cases h
  · exact ⟨hwor ▸ hsep, hwor ▸ hb, fun ref k buffer hbuffer _ => by rwa [table, hwor]⟩
  have hfate := fate (s.table ref) (s.world.declaredSizes c) e.2
  obtain ⟨n, hn⟩ := hfate.grown
  refine ⟨⟨hsep.own, hsep.apart⟩, bounded_setPending hb hsep hget hpen hn, ?_⟩
  intro other k buffer hbuffer hcom
  change ((s.after ref e.2 _).table other).get? k = some buffer
  rw [table_after]
  split
  next heq =>
    subst heq
    exact Fate.complete hfate hbuffer hcom
  next => exact hbuffer

theorem Kept.intact (h : Kept s) : s.Intact := by
  intro ref k buffer hget hcom
  have hs := h.sound ref k buffer hget
  obtain ⟨hlen, hdig⟩ := hs.checked hcom
  rw [hlen, hdig]
  exact ⟨hs.filled, hs.declared⟩

variable {w : World}

theorem initial (hsep : Separate w) (hemp : ∀ ref, (w.pending ref).artifacts = Dict.empty) :
    Kept ⟨w, []⟩ ∧ Separate w ∧ Bounded w := by
  have hload : ∀ c, w.load c = 0 := by
    intro c
    refine (sumBy_eq_zero_iff _ _).mpr (fun _ ref _ => ?_)
    rw [hemp]
    rfl
  refine ⟨⟨?_, fun _ _ _ => rfl⟩, hsep, ⟨?_, ?_, ?_, ?_, ?_⟩⟩
  · intro ref k buffer hget
    rw [table, hemp] at hget
    cases hget
  · intro ref
    rw [hemp]
    exact Nat.zero_le _
  · intro ref
    rw [hemp]
    exact Nat.zero_le _
  · intro _ c _
    rw [hload]
    exact Nat.zero_le _
  · intro device
    refine le_of_eq_of_le ((sumBy_eq_zero_iff _ _).mpr (fun _ c _ => ?_)) (Nat.zero_le _)
    rw [hload, ite_self]
  · exact le_of_eq_of_le ((sumBy_eq_zero_iff _ _).mpr (fun _ c _ => hload c)) (Nat.zero_le _)

/-- In a run in which no frame ends a transfer that is not complete, the complete artifacts are the accepted chunks;
in every run they stay as they are, and the quotas are kept. -/
theorem artifacts_intact (hsep : Separate w) (hempty : ∀ ref, (w.pending ref).artifacts = Dict.empty)
    (h : Runs.Reaches next ⟨w, []⟩ s) :
    (Runs.ReachesUnder next Completes ⟨w, []⟩ s → s.Intact) ∧ Bounded s.world ∧
      ∀ t, Runs.Reaches next s t → ∀ ref k buffer, (s.table ref).get? k = some buffer → buffer.complete = true →
        (t.table ref).get? k = some buffer := by
  obtain ⟨hkept, hsta⟩ := initial hsep hempty
  have hstep : ∀ (u : ArtifactDesk) e v, Separate u.world ∧ Bounded u.world → u.next e = some v →
      Separate v.world ∧ Bounded v.world := by
    intro u e v hu he
    obtain ⟨hv, hbou, -⟩ := next_bounded hu.1 hu.2 he
    exact ⟨hv, hbou⟩
  have hs : Separate s.world ∧ Bounded s.world := Runs.invariant hstep hsta h
  refine ⟨fun hund => ?_, hs.2, ?_⟩
  · have hend : Kept s := Runs.invariant_under (fun _ _ _ hk hc he => kept_next hk hc he) hkept hund
    exact hend.intact
  intro t ht ref k buffer hget hcom
  refine (Runs.invariant (I := fun u => (Separate u.world ∧ Bounded u.world) ∧
    (u.table ref).get? k = some buffer) ?_ ⟨hs, hget⟩ ht).2
  intro u e v hu he
  exact ⟨hstep u e v hu.1 he, (next_bounded hu.1.1 hu.1.2 he).2.2 ref k buffer hu.2 hcom⟩

theorem ends_of_accepted
    (h : (receiveArtifactChunk artifacts declared frame).2.isOk = true) : Finishes artifacts declared frame := by
  refine ((refused_unchanged_iff artifacts declared frame).mp ?_).2
  rintro ⟨e, he⟩
  rw [he] at h
  cases h

omit [Sha256]

/-- One device with one pending call. -/
def oneCall : World where
  connections := Dict.empty.set ("device", "client") 0
  conn := fun _ => { deviceId := "device", pending := Dict.empty.set "call" ⟨"call", 1⟩ }

theorem oneCall_separate : Separate oneCall := by
  have hkey : ∀ (key : Key) c, oneCall.connections.get? key = some c → key = ("device", "client") := by
    intro key c h
    by_contra hne
    rw [oneCall, get?_set_of_ne _ _ hne] at h
    cases h
  constructor
  · intro key c id ref _ h
    by_cases hid : id = "call"
    · subst hid
      cases h
      rfl
    · rw [oneCall, get?_set_of_ne _ _ hid] at h
      cases h
  · intro key key' c c' _ _ _ hc hc' _ _
    rw [hkey key c hc, hkey key' c' hc']

/-- The chunk of one byte that has the given number and declares a size, and is the last. -/
def lastChunk (seq size : Int) (data : String) : Key × ChunkFrame :=
  (("device", "client"), { World.brokenChunk with seq := some seq, size := some (.int size), data, eof := true })

theorem one_chunk_intact : ∃ s, Runs.run (@next World.zeroDigest) ⟨oneCall, []⟩ [lastChunk 0 1 "AQ=="] = some s ∧
    (s.table ⟨"call", 1⟩).size = 1 ∧ @Intact World.zeroDigest s := by
  have hrun : (Runs.run (@next zeroDigest) ⟨oneCall, []⟩ [lastChunk 0 1 "AQ=="]).any
      (fun s => (s.table ⟨"call", 1⟩).size = 1) = true := by decide +kernel
  obtain ⟨s, hs, hsize⟩ := (Option.any_eq_true _ _).mp hrun
  refine ⟨s, hs, of_decide_eq_true hsize,
    (@artifacts_intact zeroDigest s oneCall oneCall_separate (fun _ => rfl) ⟨_, hs⟩).1 ⟨_, ?_, hs⟩⟩
  rintro (_ | ⟨_, pre⟩) e post t hes ht
  · cases hes
    cases ht
    rintro c ref hc href -
    cases hc
    cases href
    exact @ends_of_accepted zeroDigest _ _ _ (by decide +kernel)
  · cases pre <;> cases hes

/-- The first chunk is refused for its size, and the second makes its transfer complete. -/
theorem refused_chunk_counts : ¬ ∀ (_ : Sha256) (w : World) (s : ArtifactDesk), Separate w →
    (∀ ref, (w.pending ref).artifacts = Dict.empty) → Runs.Reaches next ⟨w, []⟩ s → s.Intact := by
  intro hcla
  have hrun : (Runs.run (@next zeroDigest) ⟨oneCall, []⟩ [lastChunk 0 2 "AQ==", lastChunk 1 2 "Ag=="]).any
      (fun s => (s.chunks ⟨"call", 1⟩ "t").length = 1 &&
        ((s.table ⟨"call", 1⟩).get? "t").any (fun b => b.complete && b.nextSeq = 2)) = true := by decide +kernel
  obtain ⟨s, hs, htest⟩ := (Option.any_eq_true _ _).mp hrun
  obtain ⟨hlen, hbuffer⟩ := (Bool.and_eq_true _ _).mp htest
  obtain ⟨buffer, hget, hdone⟩ := (Option.any_eq_true _ _).mp hbuffer
  obtain ⟨hcom, hnext⟩ := (Bool.and_eq_true _ _).mp hdone
  have hinta := hcla zeroDigest oneCall s oneCall_separate (fun _ => rfl) ⟨_, hs⟩
  have hnum := congrArg List.length (hinta _ _ buffer hget hcom).1.numbers
  rw [length_map, length_map, length_range, of_decide_eq_true hlen, of_decide_eq_true hnext] at hnum
  cases hnum

end ArtifactDesk

end OpenAgent.Gateway.Capabilities
