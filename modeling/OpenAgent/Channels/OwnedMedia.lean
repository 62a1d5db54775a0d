import OpenAgent.Channels.ReplyMedia

namespace OpenAgent.Channels.ReplyMedia

open Effects

/-- What takes a file away: the item has its path, the file is still the one registered for cleanup, or is registered
now, and it can be unlinked. -/
def Clears (path : String) (item : Item) (disk : Disk) : Prop :=
  match item with
  | .text _ => False
  | .typed attachment delivery =>
    attachment.localPath.getD "" = path ∧ path ≠ "" ∧ delivery.unlinks = true ∧
      ∃ inode, disk.files path = some ⟨inode, false⟩ ∧
        (disk.registered path = some inode ∨ attachment.owned = true ∧ disk.registered path = none)
  | .legacy kind itemPath delivery =>
    (kind, delivery.realpath) ∉ disk.seen ∧ itemPath = path ∧ path ≠ "" ∧ delivery.unlinks = true ∧
      ∃ inode, disk.files path = some ⟨inode, false⟩ ∧ disk.registered path = some inode

def Cleared (turn : Turn) (start : Disk) (path : String) : Prop :=
  ∃ disk, turn.prologue start = (disk, true) ∧ ∃ before item after reached,
    turn.items = before ++ item :: after ∧ forEach deliver before disk = (reached, none) ∧ Clears path item reached

section Paths

variable {path : String} {disk : Disk}

def Gone (path : String) (disk : Disk) : Prop := disk.files path = none

def Unchanged (path : String) (disk : Disk) : Prop := path ∉ disk.replaced

theorem changeAll_spec {changes : List (String × Option Entry)} (h : Unchanged path (disk.changeAll changes)) :
    Unchanged path disk ∧ (disk.changeAll changes).files path = disk.files path ∧
      (disk.changeAll changes).registered = disk.registered := by
  induction changes generalizing disk with
  | nil => exact ⟨h, rfl, rfl⟩
  | cons change changes ih =>
    obtain ⟨hbef, hfil, hreg⟩ := ih h
    simp only [Unchanged, Disk.change, List.mem_cons, not_or] at hbef
    refine ⟨hbef.2, hfil.trans ?_, hreg⟩
    exact Function.update_of_ne hbef.1 _ _

theorem await_calm (a : Await) : Calm (Gone path) (Unchanged path) (await a) := by
  constructor
  · intro disk h
    exact (changeAll_spec h).1
  · intro disk h
    rw [Gone, Gone, await, (changeAll_spec h).2.1, or_false]

theorem suppressed_calm (a : Await) : Calm (Gone path) (Unchanged path) (suppressed a) := by
  constructor
  · intro disk h
    exact (changeAll_spec h).1
  · intro disk h
    rw [Gone, Gone, suppressed, (changeAll_spec h).2.1, or_false]

theorem calm_of_same {a : Act Disk Raised} (hfil : ∀ disk, (a disk).1.files = disk.files)
    (hrep : ∀ disk, (a disk).1.replaced = disk.replaced) : Calm (Gone path) (Unchanged path) a := by
  constructor
  · intro disk h
    rwa [Unchanged, hrep] at h
  · intro disk h
    rw [Gone, Gone, hfil, or_false]

variable {attachment : BridgeAttachment}

theorem platformAttachment_files (disk : Disk) : (platformAttachment attachment disk).1.files = disk.files := by
  simp only [platformAttachment]
  repeat' split
  all_goals rfl

theorem platformAttachment_replaced (disk : Disk) :
    (platformAttachment attachment disk).1.replaced = disk.replaced := by
  simp only [platformAttachment]
  repeat' split
  all_goals rfl

theorem platformAttachment_registered {inode : Nat} (hpath : attachment.localPath.getD "" = path) (hne : path ≠ "")
    (hfile : disk.files path = some ⟨inode, false⟩) :
    (platformAttachment attachment disk).1.registered path = some inode ↔
      disk.registered path = some inode ∨ attachment.owned = true ∧ disk.registered path = none := by
  simp only [platformAttachment, hpath, if_neg hne]
  cases attachment.owned with
  | false => simp
  | true =>
    simp only [if_true, hfile, Bool.false_eq_true, if_false, Function.update_self, true_and]
    cases disk.registered path <;> simp

theorem cleanup_replaced (itemPath : String) (unlinks : Bool) :
    (disk.cleanup itemPath unlinks).replaced = disk.replaced := by
  simp only [Disk.cleanup]
  repeat' split
  all_goals rfl

theorem cleanup_gone (itemPath : String) (unlinks : Bool) :
    Gone path (disk.cleanup itemPath unlinks) ↔ Gone path disk ∨ itemPath = path ∧ path ≠ "" ∧ unlinks = true ∧
      ∃ inode, disk.files path = some ⟨inode, false⟩ ∧ disk.registered path = some inode := by
  rw [Disk.cleanup]
  cases hreg : disk.registered itemPath with
  | none =>
    refine (or_iff_left ?_).symm
    rintro ⟨rfl, _, _, inode, _, hsome⟩
    rw [hreg] at hsome
    cases hsome
  | some expected =>
    by_cases hemp : itemPath = ""
    · simp only [if_pos hemp]
      refine (or_iff_left ?_).symm
      rintro ⟨rfl, hne, _⟩
      exact hne hemp
    simp only [if_neg hemp]
    by_cases htak : disk.files itemPath = some ⟨expected, false⟩ ∧ unlinks = true
    · rw [if_pos htak]
      by_cases hsame : itemPath = path
      · subst hsame
        exact iff_of_true (Function.update_self ..) (.inr ⟨rfl, hemp, htak.2, expected, htak.1, hreg⟩)
      have hfil : Function.update disk.files itemPath none path = disk.files path :=
        Function.update_of_ne (Ne.symm hsame) _ _
      simp [Gone, hfil, hsame]
    rw [if_neg htak]
    refine (or_iff_left ?_).symm
    rintro ⟨rfl, _, hunl, inode, hfile, hsome⟩
    rw [hreg, Option.some_inj] at hsome
    exact htak ⟨hsome ▸ hfile, hunl⟩

theorem sent_spec {sent : Await} (h : Unchanged path (seq (platformAttachment attachment) (await sent) disk).1) :
    Unchanged path disk ∧ (seq (platformAttachment attachment) (await sent) disk).1.files path = disk.files path ∧
      (seq (platformAttachment attachment) (await sent) disk).1.registered path =
        (platformAttachment attachment disk).1.registered path := by
  rcases hs : platformAttachment attachment disk with ⟨t, _ | e⟩
  · rw [seq_of_none hs] at h ⊢
    obtain ⟨hunc, hfil, hreg⟩ := changeAll_spec h
    have ht : t = (platformAttachment attachment disk).1 := by rw [hs]
    rw [ht] at hunc hfil hreg
    rw [platformAttachment_files] at hfil
    rw [Unchanged, platformAttachment_replaced] at hunc
    refine ⟨hunc, ht ▸ hfil, ?_⟩
    rw [await, ht, hreg]
  rw [seq_of_some hs] at h ⊢
  have ht : t = (platformAttachment attachment disk).1 := by rw [hs]
  refine ⟨?_, ?_, rfl⟩
  · rwa [ht, Unchanged, platformAttachment_replaced] at h
  · rw [ht, platformAttachment_files]

theorem deliver_settles (item : Item) : Settles (Gone path) (Unchanged path) (Clears path item) (deliver item) := by
  cases item with
  | text chunks => exact Calm.forEach suppressed_calm chunks
  | typed attachment delivery =>
    constructor
    · intro disk h
      rw [deliver, ensure, Unchanged, cleanup_replaced] at h
      exact (sent_spec h).1
    intro disk h
    rw [deliver, ensure, Unchanged, cleanup_replaced] at h
    obtain ⟨_, hfil, hreg⟩ := sent_spec h
    rw [deliver, ensure, cleanup_gone, Gone, hfil, hreg, Gone]
    refine or_congr_right ?_
    rw [Clears]
    refine and_congr_right fun hpath => and_congr_right fun hne => and_congr_right fun _ =>
      exists_congr fun inode => and_congr_right fun hfile => ?_
    exact platformAttachment_registered hpath hne hfile
  | legacy kind itemPath delivery =>
    constructor
    · intro disk h
      simp only [deliver] at h
      split at h
      · exact h
      · rw [ensure, Unchanged, cleanup_replaced] at h
        exact (changeAll_spec h).1
    intro disk h
    simp only [deliver] at h ⊢
    split at h
    · rename_i hseen
      rw [if_pos hseen]
      simp [Clears, hseen]
    rename_i hseen
    rw [if_neg hseen]
    rw [ensure, Unchanged, cleanup_replaced] at h
    obtain ⟨_, hfil, hreg⟩ := changeAll_spec h
    rw [ensure, cleanup_gone, Gone, suppressed, hfil, hreg, Gone]
    simp [Clears, hseen]

end Paths

section Turns

variable {path : String} {turn : Turn}

theorem sendMessage_calm : Calm (Gone path) (Unchanged path) turn.sendMessage := by
  rw [Turn.sendMessage]
  refine Calm.seq (Calm.forEach await_calm _) ?_
  split
  · exact Calm.forEach (fun _ => calm_of_same platformAttachment_files platformAttachment_replaced) _
  · exact calm_of_same (fun _ => rfl) (fun _ => rfl)

theorem lead_calm : Calm (Gone path) (Unchanged path) turn.lead :=
  Calm.seq (Calm.forEach await_calm _) (Calm.forEach suppressed_calm _)

theorem prologue_calm {start disk : Disk} {loops : Bool} (hpro : turn.prologue start = (disk, loops))
    (h : Unchanged path disk) : Unchanged path start ∧ (Gone path disk ↔ Gone path start) := by
  have hcalm : ∀ {a : Act Disk Raised} {s : Disk}, Calm (Gone path) (Unchanged path) a → Unchanged path (a s).1 →
      Unchanged path s ∧ (Gone path (a s).1 ↔ Gone path s) := fun ha ht => ⟨ha.back _ ht, ha.iff_self ht⟩
  have hclea : ∀ {s : Disk}, Unchanged path (forEach suppressed turn.clearing (turn.sendMessage s).1).1 →
      Unchanged path s ∧ (Gone path (forEach suppressed turn.clearing (turn.sendMessage s).1).1 ↔ Gone path s) := by
    intro s ht
    obtain ⟨hsent, hgone⟩ := hcalm (Calm.forEach suppressed_calm turn.clearing) ht
    obtain ⟨hsta, hgone'⟩ := hcalm sendMessage_calm hsent
    exact ⟨hsta, hgone.trans hgone'⟩
  have hafter : ∀ {a : Act Disk Raised} {s : Disk}, Calm (Gone path) (Unchanged path) a →
      Unchanged path (a (forEach suppressed turn.clearing (turn.sendMessage s).1).1).1 → Unchanged path s ∧
        (Gone path (a (forEach suppressed turn.clearing (turn.sendMessage s).1).1).1 ↔ Gone path s) := by
    intro a s ha ht
    obtain ⟨hcle, hgone⟩ := hcalm ha ht
    obtain ⟨hsta, hgone'⟩ := hclea hcle
    exact ⟨hsta, hgone.trans hgone'⟩
  simp only [Turn.prologue] at hpro
  split at hpro
  · cases hpro
    exact hclea h
  · cases hpro
    exact hclea h
  · cases hpro
    exact hafter (Calm.forEach suppressed_calm turn.notices) h
  · split at hpro
    · cases hpro
      exact hafter lead_calm h
    · cases hpro
      exact hafter (Calm.forEach suppressed_calm turn.notices) h

theorem dispatchTurn_gone {start : Disk} (h : Unchanged path (turn.dispatchTurn start)) :
    Gone path (turn.dispatchTurn start) ↔ Gone path start ∨ Cleared turn start path := by
  have hend : Calm (Gone path) (Unchanged path) (forEach await turn.ending) := Calm.forEach await_calm _
  rcases hpro : turn.prologue start with ⟨disk, loops⟩
  rw [Turn.dispatchTurn, hpro] at h ⊢
  cases loops with
  | false =>
    have hgone := (prologue_calm hpro (hend.back disk h)).2
    refine (hend.iff_self h).trans (hgone.trans (or_iff_left ?_).symm)
    rintro ⟨reached, hrea, _⟩
    rw [hpro] at hrea
    cases hrea
  | true =>
    have hdel : ∀ item, Settles (Gone path) (Unchanged path) (Clears path item) (deliver item) := deliver_settles
    have hite := Settles.forEach hdel turn.items
    have hloop := hend.back _ h
    have hgone := (prologue_calm hpro (hite.back disk hloop)).2
    refine (hend.iff_self h).trans ((hite.iff disk hloop).trans (or_congr hgone ⟨?_, ?_⟩))
    · intro hcle
      exact ⟨disk, hpro, hcle⟩
    rintro ⟨reached, hrea, hcle⟩
    rw [hpro] at hrea
    cases hrea
    exact hcle

end Turns

def Turn.Owns (turn : Turn) (path : String) : Prop :=
  path ≠ "" ∧ ∃ part ∈ turn.attachments, part.1.owned = true ∧ part.1.localPath = some path

def image : BridgeAttachment where
  kind := "image"
  filename := "chart.png"
  localPath := some "/tmp/reply"
  owned := true
  safe := by decide
  identified := rfl

def deniedTurn : Turn where
  parts := [(.attachment image, {})]
  outputMedia := ["image"]
  authorizations := [{ raised := some .exception }]

def stagedReply : Disk where
  files := fun path => if path = "/tmp/reply" then some ⟨1, false⟩ else none

end OpenAgent.Channels.ReplyMedia
