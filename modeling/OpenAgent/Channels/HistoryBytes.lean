import Mathlib.Algebra.GroupWithZero.Nat
import Mathlib.Data.List.DropRight
import OpenAgent.Channels.Contracts
import OpenAgent.Gateway.Artifacts
import OpenAgent.Lib.JsonDumps

namespace OpenAgent.Channels.Wire

open Py Py.Json Gateway List

def maxLine : Nat := 2 * 1024 * 1024
def maxArtifact : Nat := 32 * 1024 * 1024
def maxFiles : Nat := 16
def maxSessionBytes : Nat := 128 * 1024 * 1024

def textOf (value : Option String) : Json := value.elim .null .str

def reasonText : OmissionReason → String
  | .unsupported => "unsupported"
  | .limit => "limit"
  | .unavailable => "unavailable"
  | .blocked => "blocked"

def noticeRecord (value : BridgeAttachmentNotice) : Json :=
  .obj [("kind", .str value.kind), ("filename", .str value.filename), ("mime_type", .str value.mimeType),
    ("size_bytes", .int value.sizeBytes), ("provider_attachment_id", textOf value.providerAttachmentId),
    ("reason", .str (reasonText value.reason))]

def attachmentRecord (attachment : BridgeAttachment) (size : Nat) (sha256 readerRef : String) : Json :=
  .obj [("kind", .str attachment.kind), ("filename", .str attachment.filename), ("mime_type", .str attachment.mimeType),
    ("size_bytes", .int size), ("artifact_ref", .str attachment.artifactRef),
    ("provider_attachment_id", textOf attachment.providerAttachmentId), ("sha256", .str sha256),
    ("reader_ref", .str readerRef)]

def partRecord (text attachment : Json) : Json := .obj [("text", text), ("attachment", attachment)]

def messageRecord (item : BridgeHistoryMessage) (parts : List Json) : Json :=
  .obj ([("event_id", .str item.eventId), ("actor_id", .str item.actorId), ("parts", .arr parts),
    ("timestamp", textOf item.timestamp)] ++
    if item.omittedAttachments = [] then []
    else [("omitted_attachments", .arr (item.omittedAttachments.map noticeRecord))])

def zeros (n : Nat) : String := String.ofList (List.replicate n '0')

def countedPart : BridgePart → Json
  | .text text => partRecord (.str text) .null
  | .attachment attachment => partRecord .null
    (attachmentRecord attachment attachment.sizeBytes (attachment.sha256.getD (zeros 64)) (zeros 32))

/-- `len(text.encode("utf-8"))`. -/
def byteCount (text : List Char) : Nat := (utf8 (String.ofList text)).length

def historySizeBytes (history : List BridgeHistoryMessage) : Nat :=
  byteCount (compactChars (.arr (history.map fun item => messageRecord item (item.parts.map countedPart))))

structure FileStat where
  regular : Bool
  node : Nat × Nat
  size : Nat
  stamps : Int × Int

/-- What one call of `register` finds: by name, then open, then read to its end. -/
structure Reading where
  initial : FileStat
  info : FileStat
  chunks : List Bytes
  after : FileStat

/-- What the calls find that a request makes, by their number. -/
structure Staging where
  files : Nat → String → Option Reading
  exists_ : Nat → String → Bool
  token : Nat → Fin 24 → UInt8

structure Held where
  size : Nat
  input : Bool

/-- The store as one request sees it. -/
structure ArtifactStore where
  scope : Option (List Held)
  limits : Nat × Option Nat
  retained : List (String × Nat)
  total : Nat

def sizes (records : List Held) : Nat := (records.map Held.size).sum

def ArtifactStore.add (store : ArtifactStore) (exists_ : String → Bool) (record : Held) : Except String ArtifactStore :=
  let total := store.total - ((store.retained.filter fun e => !exists_ e.1).map Prod.snd).sum
  match store.scope with
  | none => .error "inactive_request"
  | some scope =>
    if scope.length ≥ store.limits.1 ∨ total + record.size > maxSessionBytes ∨
        record.input = false ∧ (scope.filter fun item => !item.input).length ≥ maxFiles ∨
        record.input = true ∧ store.limits.2.any (fun limit => sizes (scope.filter Held.input) + record.size > limit) then
      .error "artifact_limit"
    else
      .ok { store with
        scope := some (scope ++ [record])
        retained := store.retained.filter fun e => exists_ e.1
        total := total + record.size }

def urlSafe (c : Char) : Char := if c = '+' then '-' else if c = '/' then '_' else c

/-- `secrets.token_urlsafe`, with the bytes that were drawn. -/
def tokenUrlsafe (bytes : List UInt8) : String :=
  String.ofList (((Base64.encode bytes).map urlSafe).rdropWhile (· = '='))

mutual

/-- Nothing is nested too deep for `_budget`. -/
def shallow (depth : Nat) : Json → Bool
  | .arr items => depth ≤ 32 && shallowItems (depth + 1) items
  | .obj entries => depth ≤ 32 && shallowEntries (depth + 1) entries
  | _ => depth ≤ 32

def shallowItems (depth : Nat) : List Json → Bool
  | [] => true
  | item :: items => shallow depth item && shallowItems depth items

def shallowEntries (depth : Nat) : List (String × Json) → Bool
  | [] => true
  | (_, item) :: entries => shallow depth item && shallowEntries depth entries

end

def encodeLine (value : Json) : Except String Bytes :=
  if ¬ shallow 0 value ∨ value.nodeCount > 20000 then .error "metadata_limit"
  else if value.finite = false then .error "invalid_metadata"
  else
    let line := utf8 (String.ofList (compactChars value ++ ['\n']))
    if line.length > maxLine then .error "metadata_limit" else .ok line

theorem exists_encodeLine {value : Json} (hshallow : shallow 0 value = true) (hnodes : value.nodeCount ≤ 20000)
    (hfinite : value.finite = true) (hlength : (compactChars value).length < 500000) :
    ∃ line, encodeLine value = .ok line := by
  have hline := length_utf8_le (compactChars value ++ ['\n'])
  rw [length_append, length_singleton] at hline
  unfold encodeLine
  rw [if_neg (by simp [hshallow, hnodes]), if_neg (by simp [hfinite])]
  exact ⟨_, if_neg (by rw [maxLine]; omega)⟩

@[simp] theorem byteCount_append (text others : List Char) :
    byteCount (text ++ others) = byteCount text + byteCount others := by
  rw [byteCount, length_utf8, String.ofList_append, String.utf8ByteSize_append, ← length_utf8, ← length_utf8]
  rfl

@[simp] theorem byteCount_cons (c : Char) (text : List Char) : byteCount (c :: text) = c.utf8Size + byteCount text := by
  rw [← singleton_append, byteCount_append]
  congr 1
  rw [byteCount, length_utf8]
  simp

/-- Two values that take as many bytes. -/
def Alike (j k : Json) : Prop := byteCount (compactChars j) = byteCount (compactChars k)

theorem alike_arr {js ks : List Json} (h : List.Forall₂ Alike js ks) : Alike (.arr js) (.arr ks) := by
  have hitems : ∀ {js ks}, List.Forall₂ Alike js ks → byteCount (compactItems js) = byteCount (compactItems ks) := by
    intro js ks h
    induction h with
    | nil => rfl
    | cons hjk _ ih =>
      rw [Alike] at hjk
      simp only [compactItems, byteCount_cons, byteCount_append, hjk, ih]
  cases h with
  | nil => rfl
  | cons hjk hrest => simpa [Alike, compactChars, compactItems] using hitems (.cons hjk hrest)

theorem alike_obj {es fs : List (String × Json)} (h : List.Forall₂ (fun e f => e.1 = f.1 ∧ Alike e.2 f.2) es fs) :
    Alike (.obj es) (.obj fs) := by
  have hentries : ∀ {es fs}, List.Forall₂ (fun e f : String × Json => e.1 = f.1 ∧ Alike e.2 f.2) es fs →
      byteCount (compactEntries es) = byteCount (compactEntries fs) := by
    intro es fs h
    induction h with
    | nil => rfl
    | cons hef _ ih =>
      obtain ⟨hkey, hval⟩ := hef
      rw [Alike] at hval
      simp only [compactEntries, byteCount_cons, byteCount_append, hkey, hval, ih]
  cases h with
  | nil => rfl
  | cons hef hrest => simpa [Alike, compactChars, compactEntries] using hentries (.cons hef hrest)

/-- A character of one byte that JSON does not escape. -/
def Plain (c : Char) : Prop := escapeControl c = [c] ∧ c.utf8Size = 1

instance (c : Char) : Decidable (Plain c) := inferInstanceAs (Decidable (_ ∧ _))

theorem byteCount_plain {s : String} (h : ∀ c ∈ s.toList, Plain c) :
    byteCount (compactChars (.str s)) = s.toList.length + 2 := by
  have htext : ∀ {text : List Char}, (∀ c ∈ text, Plain c) → byteCount (text.flatMap escapeControl) = text.length := by
    intro text h
    induction text with
    | nil => rfl
    | cons c text ih =>
      obtain ⟨⟨hescape, hsize⟩, hrest⟩ := forall_mem_cons.mp h
      rw [flatMap_cons, hescape, singleton_append, byteCount_cons, hsize, ih hrest, length_cons,
        Nat.add_comm]
  simp only [compactChars, byteCount_cons, byteCount_append, htext h]
  rw [Nat.add_comm]
  rfl

theorem alike_plain {s t : String} (hs : ∀ c ∈ s.toList, Plain c) (ht : ∀ c ∈ t.toList, Plain c)
    (hlength : s.toList.length = t.toList.length) : Alike (.str s) (.str t) := by
  rw [Alike, byteCount_plain hs, byteCount_plain ht, hlength]

theorem plain_zeros (n : Nat) : ∀ c ∈ (zeros n).toList, Plain c := by
  intro c hc
  rw [zeros, String.toList_ofList, mem_replicate] at hc
  rw [hc.2]
  decide

theorem plain_digest {value : String} (h : isDigest value.toList = true) : ∀ c ∈ value.toList, Plain c := by
  intro c hc
  have hhex := all_eq_true.mp (Bool.and_eq_true_iff.mp h).2 c hc
  have hall : ∀ n < 128, isHex (Char.ofNat n) = true → Plain (Char.ofNat n) := by decide
  rw [← Char.ofNat_toNat c] at hhex ⊢
  refine hall _ ?_ hhex
  rw [Char.ofNat_toNat] at hhex
  simp only [isHex, Bool.or_eq_true, Bool.and_eq_true, decide_eq_true_eq, Char.le_def, UInt32.le_iff_toNat_le] at hhex
  rcases hhex with ⟨_, hhigh⟩ | ⟨_, hhigh⟩
  · exact hhigh.trans_lt (by decide)
  · exact hhigh.trans_lt (by decide)

/-- Whole groups of three bytes are not padded. -/
theorem encode_safe (bytes : List UInt8) (h : bytes.length % 3 = 0) :
    ((Base64.encode bytes).map urlSafe).length * 3 = bytes.length * 4 ∧
      ∀ c ∈ (Base64.encode bytes).map urlSafe, Plain c ∧ c ≠ '=' := by
  have hall : ∀ n : Fin 64, Plain (urlSafe (Base64.digit n.val)) ∧ urlSafe (Base64.digit n.val) ≠ '=' := by decide
  induction bytes using Base64.encode.induct with
  | case1 => simp [Base64.encode]
  | case2 a => simp at h
  | case3 a b => simp at h
  | case4 a b c rest ih =>
    have ha := a.toNat_lt
    have hb := b.toNat_lt
    have hc := c.toNat_lt
    simp only [length_cons] at h
    obtain ⟨hlength, hrest⟩ := ih (by omega)
    rw [length_map] at hlength
    simp only [Base64.encode, map_cons, length_cons, length_map, forall_mem_cons]
    exact ⟨by omega, hall ⟨_, by omega⟩, hall ⟨_, by omega⟩, hall ⟨_, by omega⟩, hall ⟨_, by omega⟩, hrest⟩

theorem plain_token (bytes : Fin 24 → UInt8) : (tokenUrlsafe (List.ofFn bytes)).toList.length = 32 ∧
    ∀ c ∈ (tokenUrlsafe (List.ofFn bytes)).toList, Plain c := by
  obtain ⟨hlength, hall⟩ := encode_safe (List.ofFn bytes) (by rw [length_ofFn])
  rw [length_ofFn] at hlength
  have hsame : (tokenUrlsafe (List.ofFn bytes)).toList = (Base64.encode (List.ofFn bytes)).map urlSafe := by
    rw [tokenUrlsafe, String.toList_ofList, rdropWhile_eq_self_iff]
    intro hne
    simpa using (hall _ (getLast_mem hne)).2
  rw [hsame]
  exact ⟨by omega, fun c hc => (hall c hc).1⟩

theorem compactChars_field (before after : List (String × Json)) (key : String) (value : Json) :
    ∃ head tail, compactChars (.obj (before ++ (key, value) :: after)) =
      head ++ '"' :: (key.toList.flatMap escapeControl ++ '"' :: ':' :: (compactChars value ++ tail)) := by
  have hentries : ∀ before : List (String × Json), ∃ head, compactEntries (before ++ (key, value) :: after) = head ++
      '"' :: (key.toList.flatMap escapeControl ++ '"' :: ':' :: (compactChars value ++ compactEntries after)) := by
    intro before
    induction before with
    | nil => exact ⟨[','], by simp [compactEntries]⟩
    | cons e before ih =>
      obtain ⟨head, hhead⟩ := ih
      exact ⟨',' :: '"' :: (e.1.toList.flatMap escapeControl ++ '"' :: ':' :: (compactChars e.2 ++ head)), by
        simp [compactEntries, hhead]⟩
  cases before with
  | nil => exact ⟨['\x7b'], compactEntries after, by simp [compactChars]⟩
  | cons e before =>
    obtain ⟨head, hhead⟩ := hentries before
    exact ⟨'\x7b' :: '"' :: (e.1.toList.flatMap escapeControl ++ '"' :: ':' :: (compactChars e.2 ++ head)),
      compactEntries after, by simp [compactChars, hhead]⟩

section Register

variable [Sha256] (staging : Staging)

def register (store : ArtifactStore) (attachment : BridgeAttachment) : Except String (Json × ArtifactStore) :=
  let call := (store.scope.getD []).length
  match (attachment.localPath.filter (· ≠ "")).map (staging.files call) with
  | none => .error "input_artifact_unavailable"
  | some none => .error "OSError"
  | some (some file) =>
    let data := file.chunks.flatten
    if file.initial.regular = false then .error "invalid_artifact"
    else if file.info.regular = false ∨ file.info.size > maxArtifact then .error "artifact_limit"
    else if file.initial.node ≠ file.info.node then .error "artifact_changed"
    else if data.length > file.info.size then .error "artifact_limit"
    else if data.length ≠ file.info.size ∨ (file.after.size, file.after.stamps) ≠ (file.info.size, file.info.stamps) then
      .error "artifact_changed"
    else if attachment.sha256.any (· ≠ Sha256.hexdigest data) then .error "artifact_changed"
    else
      (store.add (staging.exists_ call) ⟨file.info.size, true⟩).map fun store =>
        (attachmentRecord attachment file.info.size (Sha256.hexdigest data)
          (tokenUrlsafe (List.ofFn (staging.token call))), store)

def wirePart (store : ArtifactStore) : BridgePart → Except String (Json × ArtifactStore)
  | .text text => .ok (partRecord (.str text) .null, store)
  | .attachment attachment => (register staging store attachment).map fun r => (partRecord .null r.1, r.2)

/-- `to_wire` of a tuple. -/
def wireEach {α : Type} (wire : ArtifactStore → α → Except String (Json × ArtifactStore)) (store : ArtifactStore) :
    List α → Except String (List Json × ArtifactStore)
  | [] => .ok ([], store)
  | item :: rest => do
    let (first, store) ← wire store item
    let (others, store) ← wireEach wire store rest
    return (first :: others, store)

def wireMessage (store : ArtifactStore) (item : BridgeHistoryMessage) : Except String (Json × ArtifactStore) :=
  (wireEach (wirePart staging) store item.parts).map fun r => (messageRecord item r.1, r.2)

def wireHistory (store : ArtifactStore) (history : List BridgeHistoryMessage) : Except String (Json × ArtifactStore) :=
  (wireEach (wireMessage staging) store history).map fun r => (.arr r.1, r.2)

/-- The files that are found for an attachment are as long as it says. -/
def Sized (attachment : BridgeAttachment) : Prop :=
  ∀ call path file, attachment.localPath = some path → staging.files call path = some file →
    file.info.size = attachment.sizeBytes

variable {staging} {store sent : ArtifactStore} {wire : Json} {history : List BridgeHistoryMessage}

omit [Sha256] in
theorem map_eq_ok {α β : Type} {x : Except String α} {f : α → β} {b : β} (h : x.map f = .ok b) :
    ∃ a, x = .ok a ∧ f a = b := by
  cases x with
  | error e => cases h
  | ok a => exact ⟨a, rfl, Except.ok.inj h⟩

omit [Sha256] in
theorem forall_alike_wireEach {α : Type} {wire : ArtifactStore → α → Except String (Json × ArtifactStore)} {count : α → Json}
    {items : List α} {js : List Json}
    (hone : ∀ item ∈ items, ∀ store j sent, wire store item = .ok (j, sent) → Alike (count item) j)
    (h : wireEach wire store items = .ok (js, sent)) : List.Forall₂ Alike (items.map count) js := by
  induction items generalizing store js with
  | nil =>
    cases h
    exact .nil
  | cons item rest ih =>
    rw [wireEach] at h
    cases hfirst : wire store item with
    | error e =>
      rw [hfirst] at h
      cases h
    | ok r =>
      rw [hfirst] at h
      cases hothers : wireEach wire r.2 rest with
      | error e => simp [bind, Except.bind, hothers] at h
      | ok q =>
        simp only [bind, Except.bind, hothers] at h
        cases h
        obtain ⟨hitem, hrest⟩ := forall_mem_cons.mp hone
        exact .cons (hitem store _ _ hfirst) (ih hrest hothers)

variable (hformat : ∀ data, isDigest (Sha256.hexdigest data).toList = true)
include hformat

/-- What is registered takes the bytes that were counted for it. -/
theorem alike_register {attachment : BridgeAttachment} (hsized : Sized staging attachment) {j : Json}
    (h : register staging store attachment = .ok (j, sent)) :
    Alike (attachmentRecord attachment attachment.sizeBytes (attachment.sha256.getD (zeros 64)) (zeros 32)) j := by
  unfold register at h
  dsimp only at h
  split at h
  · cases h
  · cases h
  rename_i file hfile
  obtain ⟨path, hpath, hfile⟩ := Option.map_eq_some_iff.mp hfile
  have hsize := hsized _ path file (Option.filter_eq_some_iff.mp hpath).1 hfile
  split_ifs at h with _ _ _ _ _ hsame
  obtain ⟨_, _, hr⟩ := map_eq_ok h
  cases hr
  rw [hsize]
  obtain ⟨hlength, htoken⟩ := plain_token (staging.token (store.scope.getD []).length)
  have hdigest : Alike (.str (attachment.sha256.getD (zeros 64))) (.str (Sha256.hexdigest file.chunks.flatten)) := by
    cases hsha : attachment.sha256 with
    | some value =>
      rw [hsha, Option.any_some, decide_eq_true_eq, not_not] at hsame
      rw [hsame]
      exact rfl
    | none =>
      refine alike_plain (plain_zeros 64) (plain_digest (hformat _)) ?_
      rw [beq_iff_eq.mp (Bool.and_eq_true_iff.mp (hformat _)).1]
      rfl
  have hreader : Alike (.str (zeros 32)) (.str (tokenUrlsafe (List.ofFn (staging.token (store.scope.getD []).length)))) :=
    alike_plain (plain_zeros 32) htoken (by rw [hlength]; rfl)
  refine alike_obj (.cons ⟨rfl, rfl⟩ (.cons ⟨rfl, rfl⟩ (.cons ⟨rfl, rfl⟩ (.cons ⟨rfl, rfl⟩ (.cons ⟨rfl, rfl⟩
    (.cons ⟨rfl, rfl⟩ (.cons ⟨rfl, hdigest⟩ (.cons ⟨rfl, hreader⟩ .nil))))))))

theorem alike_wireHistory
    (hsized : ∀ item ∈ history, ∀ attachment, .attachment attachment ∈ item.parts → Sized staging attachment)
    (h : wireHistory staging store history = .ok (wire, sent)) :
    Alike (.arr (history.map fun item => messageRecord item (item.parts.map countedPart))) wire := by
  obtain ⟨⟨items, _⟩, hitems, hr⟩ := map_eq_ok h
  cases hr
  refine alike_arr (forall_alike_wireEach (fun item hitem store j sent hone => ?_) hitems)
  obtain ⟨⟨parts, _⟩, hparts, hr⟩ := map_eq_ok hone
  cases hr
  have halike : Alike (.arr (item.parts.map countedPart)) (.arr parts) := by
    refine alike_arr (forall_alike_wireEach (fun part hpart store j sent hpart' => ?_) hparts)
    cases part with
    | text text =>
      cases hpart'
      exact rfl
    | attachment attachment =>
      obtain ⟨⟨record, _⟩, hrecord, hr⟩ := map_eq_ok hpart'
      cases hr
      have hone := alike_register hformat (hsized item hitem attachment hpart) hrecord
      exact alike_obj (.cons ⟨rfl, rfl⟩ (.cons ⟨rfl, hone⟩ .nil))
  refine alike_obj (rel_append (.cons ⟨rfl, rfl⟩ (.cons ⟨rfl, rfl⟩ (.cons ⟨rfl, halike⟩ (.cons ⟨rfl, rfl⟩ .nil)))) ?_)
  exact List.forall₂_same.mpr fun _ _ => ⟨rfl, rfl⟩

/-- The history stands in the line as an array of just the bytes that were counted. -/
theorem historySizeBytes_wire
    (hsized : ∀ item ∈ history, ∀ attachment, .attachment attachment ∈ item.parts → Sized staging attachment)
    (hwire : wireHistory staging store history = .ok (wire, sent)) {before after : List (String × Json)} {line : Bytes}
    (hline : encodeLine (.obj (before ++ ("history", wire) :: after)) = .ok line) :
    ∃ head tail, line = utf8 (String.ofList (head ++ "\"history\":".toList ++ compactChars wire ++ tail)) ∧
      historySizeBytes history = byteCount (compactChars wire) := by
  unfold encodeLine at hline
  dsimp only at hline
  split_ifs at hline
  cases hline
  obtain ⟨head, tail, htext⟩ := compactChars_field before after "history" wire
  have hkey : "history".toList.flatMap escapeControl = "history".toList := by decide
  refine ⟨head, tail ++ ['\n'], ?_, alike_wireHistory hformat hsized hwire⟩
  rw [htext, hkey]
  simp

end Register

def noteStat : FileStat := ⟨true, (1, 2), 0, (3, 3)⟩

def noteStaging : Staging := ⟨fun _ _ => some ⟨noteStat, noteStat, [], noteStat⟩, fun _ _ => true, fun _ _ => 0⟩

/-- The digest of no bytes. -/
def emptySha256 : String := "e3b0c44298fc1c149afbf4c8996fb92427ae41e4649b934ca495991b7852b855"

abbrev emptyDigest : Sha256 := ⟨fun _ => emptySha256⟩

def note : BridgeHistoryMessage where
  eventId := "event"
  actorId := "alice"
  parts := [.text "see\n", .attachment
    { kind := "file", filename := "note.txt", localPath := some "note.txt", sha256 := some emptySha256
      safe := rfl, identified := checkOptional_none _, digest := by decide, readable := checkOptional_none _ }]
  few := Nat.zero_le _
  event := rfl
  actor := rfl

theorem note_counted : ∃ wire line head tail, encodeLine (.obj [("history", wire)]) = .ok line ∧
    line = utf8 (String.ofList (head ++ "\"history\":".toList ++ compactChars wire ++ tail)) ∧
    historySizeBytes [note] = byteCount (compactChars wire) := by
  have hrun : ((@wireHistory emptyDigest noteStaging ⟨some [], (16, none), [], 0⟩ [note]).toOption.any fun r =>
      let value := Json.obj [("history", r.1)]
      shallow 0 value ∧ value.nodeCount ≤ 20000 ∧ value.finite ∧ (compactChars value).length < 500000) = true := by
    decide +kernel
  obtain ⟨⟨wire, sent⟩, hwire, hvalue⟩ := (Option.any_eq_true _ _).mp hrun
  obtain ⟨hshallow, hnodes, hfinite, hlength⟩ := of_decide_eq_true hvalue
  obtain ⟨line, hline⟩ := exists_encodeLine hshallow hnodes hfinite hlength
  have hok : ∀ {α : Type} {x : Except String α} {a : α}, x.toOption = some a → x = .ok a := by
    rintro α (e | b) a ⟨⟩
    rfl
  have hformat : isDigest emptySha256.toList = true := by decide
  have hsized : ∀ item ∈ [note], ∀ attachment, .attachment attachment ∈ item.parts → Sized noteStaging attachment := by
    intro item hitem attachment hin call path file _ hfile
    cases mem_singleton.mp hitem
    cases hfile
    simp only [note, mem_cons, BridgePart.attachment.injEq, not_mem_nil, or_false, reduceCtorEq,
      false_or] at hin
    rw [hin]
    rfl
  obtain ⟨head, tail, hsame⟩ := @historySizeBytes_wire emptyDigest noteStaging _ _ wire [note] (fun _ => hformat) hsized
    (hok hwire) [] [] line hline
  exact ⟨wire, line, head, tail, hline, hsame⟩

end OpenAgent.Channels.Wire
