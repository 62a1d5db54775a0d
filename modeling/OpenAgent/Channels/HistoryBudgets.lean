import OpenAgent.Channels.HistoryMedia

namespace OpenAgent.Channels.HistoryMedia

open Loops List Bridge Progress BridgeHistoryMessage

def total (records : List BridgeHistoryMessage) : Nat := (records.map BridgeHistoryMessage.size).sum

def attachments (parts : List BridgePart) : List BridgeAttachment :=
  parts.filterMap (fun part => match part with
    | .text _ => none
    | .attachment attachment => some attachment)

def bytes (parts : List BridgePart) : Nat := ((attachments parts).map BridgeAttachment.sizeBytes).sum

def allParts (records : List BridgeHistoryMessage) : List BridgePart := records.flatMap BridgeHistoryMessage.parts

structure SameMedia (attachment loaded : BridgeAttachment) : Prop where
  identifier : loaded.providerAttachmentId = attachment.providerAttachmentId
  filename : loaded.filename = attachment.filename
  kind : loaded.kind = attachment.kind
  path : loaded.localPath.getD "" ≠ ""

/-- What the parts of a record become, in their order: a text stays, an attachment is loaded, perhaps with its
transcript behind it, or becomes a notice. -/
inductive Prepares : List BridgePart → List BridgePart → List BridgeAttachmentNotice → Prop where
  | start : Prepares [] [] []
  | text {parts done notices} (text : String) (rest : Prepares parts done notices) :
      Prepares (parts ++ [.text text]) (done ++ [.text text]) notices
  | loaded {parts done notices attachment loaded} (transcript : Option String) (same : SameMedia attachment loaded)
      (rest : Prepares parts done notices) :
      Prepares (parts ++ [.attachment attachment])
        (done ++ .attachment loaded :: (transcript.map BridgePart.text).toList) notices
  | omitted {parts done notices attachment} (reason : OmissionReason) (rest : Prepares parts done notices) :
      Prepares (parts ++ [.attachment attachment]) done (notices ++ [notice attachment reason])

structure Faithful (record prepared : BridgeHistoryMessage) : Prop where
  event : prepared.eventId = record.eventId
  actor : prepared.actorId = record.actorId
  timestamp : prepared.timestamp = record.timestamp
  parts : ∃ notices, prepared.omittedAttachments = record.omittedAttachments ++ notices ∧
    Prepares record.parts prepared.parts notices

/-- The current attachments and what was loaded for the history are within the budgets. -/
structure Within (bridge : Bridge) (current : List Nat) (result : List BridgeHistoryMessage) : Prop where
  files : current.length + (attachments (allParts result)).length ≤ bridge.capabilities.historyMaxFiles
  bytes : current.sum + bytes (allParts result) ≤ maxHistoryInputBytes
  parts : 1 + current.length + total result ≤ maxMessageParts

def Expected (raised : Raised) : Prop := raised = .permissionError ∨ raised = .historyUnavailable

def Prepared (bridge : Bridge) (history : List BridgeHistoryMessage) (current : List Nat)
    (answer : Except Raised (List BridgeHistoryMessage)) : Prop :=
  match answer with
  | .error raised => Expected raised
  | .ok result => List.Forall₂ Faithful history result ∧ Within bridge current result

def Answers {α : Type} (answer : Except Raised α) : Prop := ∀ raised, answer = .error raised → Expected raised

def CallsAnswer (outcome : Outcome) (budget : Budget) (attachment : BridgeAttachment) : Prop :=
  Answers outcome.authorized ∧ (outcome.authorized = .ok () →
    outcome.load ≠ .error .other ∧ ((∃ loaded, outcome.load = .ok loaded) → outcome.reauthorized ≠ .error .other) ∧
    ∀ loaded size, outcome.loaded budget attachment = .ok (loaded, size) → isSpeech attachment.kind = true →
      (0 < budget.speechRemaining → Answers outcome.transcript) ∧
      ((0 < budget.speechRemaining → ∃ text, outcome.transcript = .ok text) → Answers outcome.released))

def PartAnswers (bridge : Bridge) (progress : Progress) (part : BridgePart) : Prop :=
  match part with
  | .text _ => True
  | .attachment attachment => bridge.refuse progress.budget attachment = none →
      CallsAnswer (bridge.outcomes progress.budget.calls) progress.budget attachment

/-- At a record, the calls raise what is expected, and at most sixteen attachments are left out. -/
structure RecordFits (bridge : Bridge) (state : Budget × List BridgeHistoryMessage) (record : BridgeHistoryMessage) :
    Prop where
  answers : ∀ before part after progress, record.parts = before ++ part :: after →
    loop bridge.preparePart (Bridge.begin state.1 record) before = .ok progress → PartAnswers bridge progress part
  few : ∀ progress, loop bridge.preparePart (Bridge.begin state.1 record) record.parts = .ok progress →
    progress.omitted.length ≤ maxOmissions

def Selected (history : List BridgeHistoryMessage) (current : List Nat) : Prop :=
  history = [] ∨ current.length + 1 + total history ≤ maxMessageParts

def begun (history : List BridgeHistoryMessage) (current : List Nat) : Budget × List BridgeHistoryMessage :=
  (Bridge.initial current (current.length + 1 + total history), [])

/-- Each record fits when it is come to, and when all are through the current attachments are within the limits. -/
structure HistoryFits (bridge : Bridge) (history : List BridgeHistoryMessage) (current : List Nat) : Prop where
  records : ∀ before record after state, history = before ++ record :: after →
    loop bridge.prepareRecord (begun history current) before = .ok state → RecordFits bridge state record
  current : ∀ state, loop bridge.prepareRecord (begun history current) history = .ok state →
    current.length ≤ bridge.capabilities.historyMaxFiles ∧ current.sum ≤ maxHistoryInputBytes

section Lists

@[simp] theorem attachments_nil : attachments [] = [] := rfl

@[simp] theorem attachments_text (text : String) (parts : List BridgePart) :
    attachments (.text text :: parts) = attachments parts := rfl

@[simp] theorem attachments_attachment (attachment : BridgeAttachment) (parts : List BridgePart) :
    attachments (.attachment attachment :: parts) = attachment :: attachments parts := rfl

@[simp] theorem attachments_append (parts others : List BridgePart) :
    attachments (parts ++ others) = attachments parts ++ attachments others := filterMap_append

@[simp] theorem bytes_append (parts others : List BridgePart) : bytes (parts ++ others) = bytes parts + bytes others := by
  simp [bytes]

@[simp] theorem attachments_transcript (transcript : Option String) :
    attachments (transcript.map BridgePart.text).toList = [] := by
  cases transcript <;> rfl

@[simp] theorem allParts_concat (records : List BridgeHistoryMessage) (record : BridgeHistoryMessage) :
    allParts (records ++ [record]) = allParts records ++ record.parts := by
  simp [allParts]

@[simp] theorem total_concat (records : List BridgeHistoryMessage) (record : BridgeHistoryMessage) :
    total (records ++ [record]) = total records + record.size := by
  simp [total]

theorem total_cons (record : BridgeHistoryMessage) (records : List BridgeHistoryMessage) :
    total (record :: records) = record.size + total records := rfl

end Lists

@[simp] theorem answers_ok {α : Type} {a : α} : Answers (.ok a : Except Raised α) := fun _ h => by cases h

@[simp] theorem answers_error {α : Type} {e : Raised} : Answers (.error e : Except Raised α) ↔ Expected e := by
  simp [Answers]

section Parts

variable {bridge : Bridge} {progress after : Progress} {attachment loaded : BridgeAttachment} {outcome : Outcome}
  {budget : Budget} {size : Nat} {raised : Raised}

inductive PartStep (bridge : Bridge) (progress after : Progress) : BridgePart → Prop where
  | text (text : String) (stays : after = progress.append (.text text)) : PartStep bridge progress after (.text text)
  | omitted (attachment : BridgeAttachment) (reason : OmissionReason) (parts : after.parts = progress.parts)
      (omitted : after.omitted = progress.omitted ++ [notice attachment reason])
      (count : after.budget.count = progress.budget.count) (size : after.budget.size = progress.budget.size)
      (partCount : after.budget.partCount = progress.budget.partCount) :
      PartStep bridge progress after (.attachment attachment)
  | loaded (attachment loaded : BridgeAttachment) (transcript : Option String) (same : SameMedia attachment loaded)
      (room : progress.budget.count < bridge.capabilities.historyMaxFiles)
      (space : progress.budget.size + loaded.sizeBytes ≤ maxHistoryInputBytes)
      (parts : after.parts = progress.parts ++ .attachment loaded :: (transcript.map BridgePart.text).toList)
      (omitted : after.omitted = progress.omitted) (count : after.budget.count = progress.budget.count + 1)
      (size : after.budget.size = progress.budget.size + loaded.sizeBytes)
      (partCount : after.budget.partCount = progress.budget.partCount + transcript.toList.length)
      (bound : transcript ≠ none → progress.budget.partCount < maxMessageParts) :
      PartStep bridge progress after (.attachment attachment)

theorem checkLoaded_eq_ok {given : Option BridgeAttachment} {file : Option (Bool × Nat)}
    (h : budget.checkLoaded attachment given file = .ok (loaded, size)) :
    SameMedia attachment loaded ∧ loaded.sizeBytes = size ∧ budget.size + size ≤ maxHistoryInputBytes := by
  cases given with
  | none => cases h
  | some given =>
    simp only [Budget.checkLoaded] at h
    split at h
    · cases h
    rename_i hpath
    split at h
    · cases h
    split at h
    · cases h
    rename_i hsame
    cases h
    simp only [not_or, not_not, Nat.not_lt] at hsame
    exact ⟨⟨hsame.1, hsame.2.1, hsame.2.2.1, hpath⟩, hsame.2.2.2.1, hsame.2.2.2.2⟩

theorem checkLoaded_error {given : Option BridgeAttachment} {file : Option (Bool × Nat)}
    (h : budget.checkLoaded attachment given file = .error raised) : raised.caught = true := by
  cases given with
  | none =>
    cases h
    rfl
  | some given =>
    simp only [Budget.checkLoaded] at h
    split at h
    · cases h
      rfl
    split at h
    · rename_i hfile
      cases h
      cases file with
      | none =>
        cases hfile
        rfl
      | some file =>
        simp only [mediaFileSnapshot] at hfile
        split at hfile <;> cases hfile
        rfl
    · split at h <;> cases h
      rfl

theorem loaded_eq_ok (h : outcome.loaded budget attachment = .ok (loaded, size)) :
    SameMedia attachment loaded ∧ loaded.sizeBytes = size ∧ budget.size + size ≤ maxHistoryInputBytes := by
  rw [Outcome.loaded] at h
  split at h
  · cases h
  split at h
  · cases h
  · exact checkLoaded_eq_ok h

theorem loaded_answers_iff (outcome : Outcome) (budget : Budget) (attachment : BridgeAttachment) :
    (∀ raised, outcome.loaded budget attachment = .error raised → raised.caught = false → Expected raised) ↔
      outcome.load ≠ .error .other ∧ ((∃ loaded, outcome.load = .ok loaded) → outcome.reauthorized ≠ .error .other) := by
  have hcau : ∀ e : Raised, e ≠ .other ↔ (e.caught = false → Expected e) := by
    intro e
    cases e <;> simp [Raised.caught, Expected]
  rw [Outcome.loaded]
  cases hload : outcome.load with
  | error e => simp [hcau]
  | ok given =>
    cases hauth : outcome.reauthorized with
    | error e => simp [hcau]
    | ok u =>
      refine iff_of_true (fun e he hnot => ?_) (by simp)
      rw [checkLoaded_error he] at hnot
      cases hnot

theorem speak_eq_ok (h : progress.speak outcome = .ok after) : ∃ text,
    after.parts = progress.parts ++ [.text text] ∧ after.omitted = progress.omitted ∧
      after.budget.count = progress.budget.count ∧ after.budget.size = progress.budget.size ∧
      after.budget.partCount = progress.budget.partCount + 1 ∧ progress.budget.partCount < maxMessageParts := by
  rw [speak] at h
  split at h
  · cases h
  split at h
  · cases h
  split at h
  · cases h
  rename_i hroom
  cases h
  exact ⟨_, rfl, rfl, rfl, rfl, rfl, Nat.not_le.mp hroom⟩

theorem answers_room {room : Prop} [Decidable room] :
    Answers (if room then .error Raised.historyUnavailable else .ok progress : Except Raised Progress) := by
  intro e he
  split at he
  · cases he
    exact .inr rfl
  · cases he

theorem speak_answers_iff : Answers (progress.speak outcome) ↔
    (0 < progress.budget.speechRemaining → Answers outcome.transcript) ∧
      ((0 < progress.budget.speechRemaining → ∃ text, outcome.transcript = .ok text) → Answers outcome.released) := by
  rw [speak, Budget.transcribe]
  by_cases hpos : 0 < progress.budget.speechRemaining
  · rw [if_pos hpos]
    cases ht : outcome.transcript with
    | error e => simp [hpos]
    | ok text =>
      cases hr : outcome.released with
      | error e => simp
      | ok u => simpa using answers_room
  rw [if_neg hpos]
  cases hr : outcome.released with
  | error e => simp [hpos]
  | ok u => simpa [hpos] using answers_room

theorem take_answers_iff : Answers (progress.take outcome loaded size) ↔ (isSpeech loaded.kind = true →
    (0 < progress.budget.speechRemaining → Answers outcome.transcript) ∧
      ((0 < progress.budget.speechRemaining → ∃ text, outcome.transcript = .ok text) → Answers outcome.released)) := by
  rw [Progress.take]
  split
  · rename_i hspe
    rw [speak_answers_iff]
    simp [hspe, Progress.keep]
  · rename_i hspe
    simp [hspe]

theorem take_step (hroom : progress.budget.count < bridge.capabilities.historyMaxFiles)
    (hloa : outcome.loaded progress.budget attachment = .ok (loaded, size))
    (h : progress.call.take outcome loaded size = .ok after) : PartStep bridge progress after (.attachment attachment) := by
  obtain ⟨hsame, rfl, hspa⟩ := loaded_eq_ok hloa
  rw [Progress.take] at h
  split at h
  · obtain ⟨text, hpart, homi, hcou, hsize, hpar, hbou⟩ := speak_eq_ok h
    refine .loaded attachment loaded (some text) hsame hroom hspa ?_ homi hcou hsize hpar (fun _ => hbou)
    rw [hpart]
    simp [Progress.keep, Progress.append, Progress.call]
  · cases h
    exact .loaded attachment loaded none hsame hroom hspa rfl rfl rfl rfl rfl (fun hnone => absurd rfl hnone)

theorem refuse_eq_none (h : bridge.refuse budget attachment = none) :
    budget.count < bridge.capabilities.historyMaxFiles := by
  rw [refuse] at h
  split at h
  · cases h
  split at h
  · cases h
  split at h
  · cases h
  · rename_i hlim
    exact Nat.not_le.mp (fun hle => hlim (.inl hle))

theorem preparePart_step {part : BridgePart} (h : bridge.preparePart progress part = .ok after) :
    PartStep bridge progress after part := by
  cases part with
  | text text =>
    cases h
    exact .text text rfl
  | attachment attachment =>
    simp only [preparePart] at h
    split at h
    · rename_i reason _
      cases h
      exact .omitted attachment reason rfl rfl rfl rfl rfl
    rename_i hrefu
    simp only [loadAttachment] at h
    split at h
    · cases h
    split at h
    · split at h
      · cases h
        exact .omitted attachment .unavailable rfl rfl rfl rfl rfl
      · cases h
    · rename_i hloa
      exact take_step (refuse_eq_none hrefu) hloa h

theorem preparePart_answers_iff {part : BridgePart} :
    Answers (bridge.preparePart progress part) ↔ PartAnswers bridge progress part := by
  cases part with
  | text text => exact iff_of_true answers_ok trivial
  | attachment attachment =>
    simp only [preparePart, PartAnswers]
    cases hrefu : bridge.refuse progress.budget attachment with
    | some reason => simp
    | none =>
      simp only [loadAttachment, CallsAnswer, forall_const]
      cases hauth : (bridge.outcomes progress.budget.calls).authorized with
      | error e => simp
      | ok u =>
        have hgua := loaded_answers_iff (bridge.outcomes progress.budget.calls) progress.budget attachment
        simp only [answers_ok, true_and, forall_const]
        rw [← and_assoc, ← hgua]
        cases hloa : (bridge.outcomes progress.budget.calls).loaded progress.budget attachment with
        | error e => cases hcau : e.caught <;> simp [hcau]
        | ok given =>
          obtain ⟨loaded, size⟩ := given
          have hkind := (loaded_eq_ok hloa).1.kind
          simp only [take_answers_iff, hkind]
          constructor
          · intro h
            refine ⟨fun _ hnone => (by cases hnone), fun l s heq hspe => h hspe⟩
          · rintro ⟨_, h⟩ hspe
            exact h loaded size rfl hspe

end Parts

section Records

variable {bridge : Bridge} {budget : Budget} {record : BridgeHistoryMessage} {done : List BridgePart}
  {progress after : Progress}

structure Accounts (bridge : Bridge) (budget : Budget) (record : BridgeHistoryMessage) (done : List BridgePart)
    (progress : Progress) : Prop where
  prepares : ∃ notices, progress.omitted = record.omittedAttachments ++ notices ∧ Prepares done progress.parts notices
  count : progress.budget.count = budget.count + (attachments progress.parts).length
  size : progress.budget.size = budget.size + bytes progress.parts
  partCount : progress.budget.partCount + done.length + record.omittedAttachments.length =
    budget.partCount + progress.parts.length + progress.omitted.length
  bound : budget.partCount ≤ maxMessageParts → progress.budget.partCount ≤ maxMessageParts
  files : budget.count ≤ bridge.capabilities.historyMaxFiles →
    progress.budget.count ≤ bridge.capabilities.historyMaxFiles
  space : budget.size ≤ maxHistoryInputBytes → progress.budget.size ≤ maxHistoryInputBytes

theorem Accounts.begin : Accounts bridge budget record [] (Bridge.begin budget record) where
  prepares := ⟨[], (append_nil _).symm, .start⟩
  count := rfl
  size := rfl
  partCount := by simp [Bridge.begin]
  bound := id
  files := id
  space := id

theorem Accounts.step {part : BridgePart} (ha : Accounts bridge budget record done progress)
    (h : PartStep bridge progress after part) : Accounts bridge budget record (done ++ [part]) after := by
  obtain ⟨notices, homi, hpre⟩ := ha.prepares
  have hpar := ha.partCount
  cases h with
  | text text stays =>
    subst stays
    refine ⟨⟨notices, homi, hpre.text text⟩, ?_, ?_, ?_, ha.bound, ha.files, ha.space⟩
    · simpa [append] using ha.count
    · simpa [append, bytes] using ha.size
    · simp only [append, length_append, length_singleton]
      omega
  | omitted attachment reason parts omitted count size partCount =>
    refine ⟨⟨notices ++ [notice attachment reason], ?_, ?_⟩, ?_, ?_, ?_, ?_, ?_, ?_⟩
    · rw [omitted, homi, append_assoc]
    · rw [parts]
      exact hpre.omitted reason
    · rw [count, parts, ha.count]
    · rw [size, parts, ha.size]
    · simp only [partCount, parts, omitted, length_append, length_singleton]
      omega
    · rw [partCount]
      exact ha.bound
    · rw [count]
      exact ha.files
    · rw [size]
      exact ha.space
  | loaded attachment loaded transcript same room space parts omitted count size partCount bound =>
    refine ⟨⟨notices, omitted.trans homi, ?_⟩, ?_, ?_, ?_, fun hle => ?_, fun _ => ?_, fun _ => ?_⟩
    · rw [parts]
      exact hpre.loaded transcript same
    · rw [count, parts, ha.count]
      simp
      omega
    · rw [size, parts, ha.size]
      simp [bytes]
      omega
    · rw [partCount, parts, omitted]
      simp only [length_append, length_cons, length_nil]
      have htra : (transcript.map BridgePart.text).toList.length = transcript.toList.length := by
        cases transcript <;> rfl
      omega
    · rw [partCount]
      cases transcript with
      | none => exact ha.bound hle
      | some text => exact bound (Option.some_ne_none text)
    · rw [count]
      exact room
    · rw [size]
      exact space

theorem Accounts.parts {parts : List BridgePart}
    (h : loop bridge.preparePart (Bridge.begin budget record) parts = .ok progress) :
    Accounts bridge budget record parts progress :=
  Loops.invariant (I := Accounts bridge budget record) .begin (fun _ _ _ _ ha hx => ha.step (preparePart_step hx)) h

structure Books (bridge : Bridge) (start : Budget) (done : List BridgeHistoryMessage)
    (state : Budget × List BridgeHistoryMessage) : Prop where
  faithful : List.Forall₂ Faithful done state.2
  count : state.1.count = start.count + (attachments (allParts state.2)).length
  size : state.1.size = start.size + bytes (allParts state.2)
  partCount : state.1.partCount + total done = start.partCount + total state.2
  bound : start.partCount ≤ maxMessageParts → state.1.partCount ≤ maxMessageParts
  files : start.count ≤ bridge.capabilities.historyMaxFiles → state.1.count ≤ bridge.capabilities.historyMaxFiles
  space : start.size ≤ maxHistoryInputBytes → state.1.size ≤ maxHistoryInputBytes

theorem replace_eq_ok {parts : List BridgePart} {omitted : List BridgeAttachmentNotice}
    {prepared : BridgeHistoryMessage} (h : record.replace parts omitted = .ok prepared) :
    prepared.eventId = record.eventId ∧ prepared.actorId = record.actorId ∧ prepared.timestamp = record.timestamp ∧
      prepared.parts = parts ∧ prepared.omittedAttachments = omitted := by
  rw [BridgeHistoryMessage.replace] at h
  split at h
  · cases h
    exact ⟨rfl, rfl, rfl, rfl, rfl⟩
  · cases h

theorem replace_eq_error {parts : List BridgePart} {omitted : List BridgeAttachmentNotice} :
    (∃ message, record.replace parts omitted = .error message) ↔ ¬ omitted.length ≤ maxOmissions := by
  rw [BridgeHistoryMessage.replace]
  split <;> simp_all

variable {start : Budget} {state next : Budget × List BridgeHistoryMessage} {records : List BridgeHistoryMessage}

theorem Books.step (hb : Books bridge start records state) (h : bridge.prepareRecord state record = .ok next) :
    Books bridge start (records ++ [record]) next := by
  rw [prepareRecord] at h
  split at h
  · cases h
  rename_i progress hpart
  split at h
  · cases h
  rename_i prepared hrep
  cases h
  obtain ⟨heve, hact, htim, hpre, homi⟩ := replace_eq_ok hrep
  have ha := Accounts.parts hpart
  have hpar := ha.partCount
  have hbef := hb.partCount
  refine ⟨?_, ?_, ?_, ?_, fun h => ha.bound (hb.bound h), fun h => ha.files (hb.files h),
    fun h => ha.space (hb.space h)⟩
  · refine rel_append hb.faithful (.cons ⟨heve, hact, htim, ?_⟩ .nil)
    rw [homi, hpre]
    exact ha.prepares
  · rw [ha.count, hb.count, allParts_concat, hpre, attachments_append, length_append]
    omega
  · rw [ha.size, hb.size, allParts_concat, hpre, bytes_append]
    omega
  · simp only [total_concat, BridgeHistoryMessage.size, hpre, homi]
    omega

theorem Books.prepared (h : loop bridge.prepareRecord (start, []) records = .ok state) :
    Books bridge start records state := by
  refine Loops.invariant (I := Books bridge start) ?_ (fun _ _ _ _ hb hx => hb.step hx) h
  exact ⟨.nil, rfl, rfl, rfl, id, id, id⟩

theorem prepareRecord_answers_iff : Answers (bridge.prepareRecord state record) ↔ RecordFits bridge state record := by
  have hpar : Answers (loop bridge.preparePart (begin state.1 record) record.parts) ↔
      ∀ before part after progress, record.parts = before ++ part :: after →
        loop bridge.preparePart (begin state.1 record) before = .ok progress → PartAnswers bridge progress part := by
    rw [Answers, forall_error_iff]
    exact forall₂_congr fun before part => forall₂_congr fun after progress => forall₂_congr fun _ _ =>
      preparePart_answers_iff
  rw [prepareRecord]
  cases hloop : loop bridge.preparePart (begin state.1 record) record.parts with
  | error e =>
    rw [hloop, answers_error] at hpar
    rw [answers_error]
    refine ⟨fun h => ⟨hpar.mp h, fun progress h => ?_⟩, fun h => hpar.mpr h.answers⟩
    rw [hloop] at h
    cases h
  | ok progress =>
    rw [hloop] at hpar
    have hans := hpar.mp answers_ok
    cases hrep : record.replace progress.parts progress.omitted with
    | error message =>
      have hmany := replace_eq_error.mp ⟨message, hrep⟩
      simp only [hrep, answers_error]
      refine iff_of_false (fun h => ?_) (fun h => hmany (h.few progress hloop))
      rcases h with h | h <;> cases h
    | ok prepared =>
      simp only [hrep]
      refine iff_of_true answers_ok ⟨hans, fun other hoth => ?_⟩
      rw [hloop, Except.ok.injEq] at hoth
      subst hoth
      by_contra hmany
      obtain ⟨message, herr⟩ := replace_eq_error.mpr hmany
      rw [hrep] at herr
      cases herr

end Records

section Selection

variable {bridge : Bridge} {history : List BridgeHistoryMessage} {current : List Nat} {n : Nat}

theorem selection : loop Bridge.selectRecord ([], n) history.reverse =
    if history = [] ∨ n + total history ≤ maxMessageParts then .ok (history, n + total history)
    else .error .historyUnavailable := by
  induction history with
  | nil => rfl
  | cons record history ih =>
    rw [reverse_cons]
    by_cases hsel : history = [] ∨ n + total history ≤ maxMessageParts
    · rw [if_pos hsel] at ih
      rw [loop_concat_ok ih, selectRecord, total_cons]
      split
      · rename_i hmany
        rw [if_neg (by simp; omega)]
      · rename_i hfew
        rw [if_pos (by right; omega), Nat.add_assoc, Nat.add_comm (total history)]
    rw [if_neg hsel] at ih
    rw [loop_append_error ih, total_cons, if_neg]
    simp
    omega

theorem loop_answers_iff (bridge : Bridge) (history : List BridgeHistoryMessage) (current : List Nat) : Answers (loop bridge.prepareRecord (begun history current) history) ↔
    ∀ before record after state, history = before ++ record :: after →
      loop bridge.prepareRecord (begun history current) before = .ok state → RecordFits bridge state record := by
  rw [Answers, forall_error_iff]
  exact forall₂_congr fun before record => forall₂_congr fun after state => forall₂_congr fun _ _ =>
    prepareRecord_answers_iff

/-- What a preparation that gets through has to show, and what the current attachments have to do with it. -/
theorem within_iff {state : Budget × List BridgeHistoryMessage} (hsel : Selected history current)
    (h : loop bridge.prepareRecord (begun history current) history = .ok state) :
    (List.Forall₂ Faithful history state.2 ∧ Within bridge current state.2) ↔
      current.length ≤ bridge.capabilities.historyMaxFiles ∧ current.sum ≤ maxHistoryInputBytes := by
  have hboo : Books bridge (initial current (current.length + 1 + total history)) history state :=
    Books.prepared h
  have hcou : state.1.count = current.length + (attachments (allParts state.2)).length := hboo.count
  have hsize : state.1.size = current.sum + bytes (allParts state.2) := hboo.size
  have hpar : state.1.partCount + total history = current.length + 1 + total history + total state.2 :=
    hboo.partCount
  constructor
  · rintro ⟨_, hwit⟩
    have hfil := hwit.files
    have hbyt := hwit.bytes
    omega
  rintro ⟨hfil, hspa⟩
  refine ⟨hboo.faithful, hcou ▸ hboo.files hfil, hsize ▸ hboo.space hspa, ?_⟩
  have hbou : current.length + 1 + total history ≤ maxMessageParts := by
    rcases hsel with rfl | hle
    · have hmax := bridge.capabilities.bounded.2.1
      have htot : total [] = 0 := rfl
      rw [htot, maxMessageParts]
      omega
    · exact hle
  have hpart : state.1.partCount ≤ maxMessageParts := hboo.bound hbou
  omega

end Selection

/-- A history is prepared exactly if it is too long as it comes, or the calls for its attachments raise what is expected,
no record gets more than sixteen notices, and the preparation began within the limits. -/
theorem prepared_of_selected {bridge : Bridge} {history : List BridgeHistoryMessage} {current : List Nat}
    (hsel : Selected history current) : bridge.prepareHistoryMedia history current =
    (loop bridge.prepareRecord (begun history current) history).map Prod.snd := by
  rw [prepareHistoryMedia, selection.trans (if_pos hsel), begun]
  dsimp only
  cases loop bridge.prepareRecord (initial current (current.length + 1 + total history), []) history <;> rfl

def recording : BridgeAttachment where
  kind := "voice"
  filename := "note.ogg"
  sizeBytes := 5
  safe := by decide
  identified := checkOptional_none _
  digest := Option.all_none
  readable := checkOptional_none _

def spoken : BridgeHistoryMessage where
  eventId := "1"
  actorId := "ann"
  parts := [.attachment recording]
  event := by decide
  actor := by decide

def changedRecording : Bridge where
  capabilities := { inputMedia := ["voice"], historyMedia := true }
  isBlocked := fun _ => false
  outcomes := fun _ =>
    { load := .ok (some { recording with localPath := some "/tmp/note.ogg" }), file := some (true, 5),
      transcript := .error .valueError }

end OpenAgent.Channels.HistoryMedia
