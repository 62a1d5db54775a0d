import OpenAgent.Dashboards.Bundles
import OpenAgent.Lib.Records

namespace OpenAgent.Dashboards

open Py List Option

open Gateway (Sha256)

def coreFiles : List String := ["compiled.json", "manifest.json", "view.oaui"]

/-- What `rglob` comes to; the `OSError` of `stat` or of `read_bytes` is a `none`. -/
inductive Found
  | link
  | file (size : Option Nat) (payload : Option Bytes)
  | other

/-- A path below the directory of a revision. No file system has one with a NUL. -/
structure Candidate where
  relative : String
  found : Found
  whole : '\x00' ∉ relative.toList

structure RevisionDirectory where
  isDir : Bool
  isSymlink : Bool
  candidates : List Candidate

structure OsError

def startsWith (text start : String) : Bool := start.toList.isPrefixOf text.toList

def fileLimit (relative : String) : Nat :=
  if startsWith relative "scripts/" then maxScriptBytes
  else if startsWith relative "assets/" then maxAssetBytes
  else maxBundleBytes

/-- The loop of `_disk_entries`. -/
def diskLoop : List Candidate → Files → Nat → Except OsError (Option Files)
  | [], files, _ => .ok (some files)
  | c :: rest, files, total =>
    match c.found with
    | .link => .ok none
    | .other => diskLoop rest files total
    | .file size payload =>
      if !coreFiles.contains c.relative && !startsWith c.relative "scripts/" && !startsWith c.relative "assets/" then
        .ok none
      else match size with
        | none => .ok none
        | some size =>
          if size > fileLimit c.relative || total + size > maxBundleBytes then .ok none
          else match payload with
            | none => .error ⟨⟩
            | some payload =>
              if payload.length > fileLimit c.relative || total + payload.length > maxBundleBytes then .ok none
              else diskLoop rest (Assoc.set files c.relative payload) (total + payload.length)

def diskEntries (d : RevisionDirectory) : Except OsError (Option Files) :=
  if !d.isDir || d.isSymlink then .ok none
  else match diskLoop d.candidates [] 0 with
    | .ok (some files) => .ok (if coreFiles.any (fun name => (Assoc.get? files name).isNone) then none else some files)
    | .ok none => .ok none
    | .error e => .error e

/-- `verify`, of a bundle on disk. -/
def verifyDirectory [Sha256] (d : RevisionDirectory) (evidence : BundleEvidence) : Except OsError Bool :=
  match diskEntries d with
  | .ok (some files) => .ok (decide (digest files = evidence))
  | .ok none => .ok false
  | .error e => .error e

/-- The files in the order and the bytes in which they are hashed. -/
def records (files : Files) : List (Bytes × Bytes) := (sortFiles files).map (fun e => (encodeUtf8 e.1.toList, e.2))

theorem eq_nul_of_mem {c : Char} (h : (0 : UInt8) ∈ String.utf8EncodeChar c) : c = '\x00' := by
  have hval : c.val.toNat = c.toNat := rfl
  have hlt := c.val.toNat_lt
  rw [String.utf8EncodeChar] at h
  split at h
  · rw [mem_singleton, ← UInt8.toNat_inj] at h
    simp at h
    refine Char.ext (UInt32.toNat_inj.mp ?_)
    simp
    omega
  split at h
  · simp [← UInt8.toNat_inj] at h
    omega
  split at h
  · simp [← UInt8.toNat_inj] at h
    omega
  · simp [← UInt8.toNat_inj] at h
    omega

theorem encodeUtf8_injective {a b : String} (h : encodeUtf8 a.toList = encodeUtf8 b.toList) : a = b := by
  rw [← String.toByteArray_inj, ← String.utf8Encode_toList, ← String.utf8Encode_toList]
  exact congrArg List.toByteArray h

/-- The names end where the digest ends them. -/
def Whole (files : Files) : Prop := ∀ e ∈ files, '\x00' ∉ e.1.toList

structure Named (files : Files) : Prop where
  nodup : (files.map Prod.fst).Nodup
  whole : Whole files

variable {files ds es : Files} {name : String}

theorem Whole.set (h : Whole files) (hname : '\x00' ∉ name.toList) (payload : Bytes) :
    Whole (Assoc.set files name payload) := by
  intro e he
  rcases Assoc.mem_set he with rfl | he
  · exact hname
  · exact h e he

theorem named_diskLoop {cs : List Candidate} {total : Nat} (hfil : Named files)
    (h : diskLoop cs files total = .ok (some ds)) : Named ds := by
  induction cs generalizing files total with
  | nil =>
    cases h
    exact hfil
  | cons c cs ih =>
    rw [diskLoop] at h
    split at h
    · cases h
    · exact ih hfil h
    split at h
    · cases h
    split at h
    · cases h
    split at h
    · cases h
    split at h
    · cases h
    split at h
    · cases h
    · exact ih ⟨Assoc.nodup_set hfil.nodup _ _, hfil.whole.set c.whole _⟩ h

theorem named_diskEntries {d : RevisionDirectory} (h : diskEntries d = .ok (some ds)) : Named ds := by
  rw [diskEntries] at h
  split at h
  · cases h
  split at h
  · rename_i files hloop
    split at h
    · cases h
    · cases h
      exact named_diskLoop ⟨by simp, fun e he => absurd he not_mem_nil⟩ hloop
  · cases h
  · cases h

theorem sortFiles_perm (files : Files) : (sortFiles files).Perm files := perm_insertionSort _ files

theorem sortFiles_eq (hds : Named ds) (h : ds.Perm es) : sortFiles ds = sortFiles es := by
  have hperm : (sortFiles ds).Perm (sortFiles es) := ((sortFiles_perm ds).trans h).trans (sortFiles_perm es).symm
  refine hperm.eq_of_pairwise ?_ (pairwise_insertionSort _ _) (pairwise_insertionSort _ _)
  intro a b ha hb hab hba
  have hmem := (sortFiles_perm ds).mem_iff.mp ha
  have hmem' := (sortFiles_perm ds).mem_iff.mp (hperm.mem_iff.mpr hb)
  exact inj_on_of_nodup_map hds.nodup hmem hmem' (le_antisymm hab hba)

theorem records_injective (h : records ds = records es) : sortFiles ds = sortFiles es := by
  refine map_injective_iff.mpr ?_ h
  intro a b hab
  obtain ⟨hname, hpay⟩ := Prod.mk.inj hab
  exact Prod.ext (encodeUtf8_injective hname) hpay

theorem whole_records (h : Whole files) : ∀ r ∈ records files, (0 : UInt8) ∉ r.1 := by
  intro r hr hzero
  obtain ⟨e, he, rfl⟩ := mem_map.mp hr
  obtain ⟨c, hc, hbyte⟩ := mem_flatMap.mp hzero
  exact h e ((sortFiles_perm files).mem_iff.mp he) (eq_nul_of_mem hbyte ▸ hc)

theorem digest_eq [Sha256] (files : Files) :
    digest files = ⟨Sha256.hexdigest (Records.stream 0 (records files)), Records.bodies (records files)⟩ := by
  have hsum : (files.map (fun e => e.2.length)).sum = ((sortFiles files).map (fun e => e.2.length)).sum :=
    ((sortFiles_perm files).map _).sum_eq.symm
  simp [digest, totalSize, Records.stream, Records.bodies, records, hsum, flatMap_map, Function.comp_def]

theorem mem_intercalate {c d : Char} (hd : c ≠ d) (parts : List (List Char)) :
    c ∈ List.intercalate [d] parts ↔ ∃ part ∈ parts, c ∈ part := by
  induction parts with
  | nil => simp [List.intercalate]
  | cons part parts ih =>
    cases parts with
    | nil => simp [List.intercalate]
    | cons next parts =>
      rw [exists_mem_cons_iff, ← ih]
      simp [List.intercalate, hd]

theorem whole_safeRelativePath {value : String} (h : safeRelativePath value = some name) : '\x00' ∉ name.toList := by
  rw [safeRelativePath] at h
  split at h
  · cases h
  split at h
  · cases h
  rename_i hcha
  dsimp only at h
  split at h
  · cases h
  split at h
  · cases h
    decide
  cases h
  rw [String.toList_ofList]
  intro hnul
  obtain ⟨part, hpart, hmem⟩ := (mem_intercalate (by decide) _).mp hnul
  have hval : '\x00' ∈ value.toList := by
    have hjoin : List.intercalate ['/'] (value.toList.splitOn '/') = value.toList :=
      intercalate_splitOn '/'
    rw [← hjoin]
    exact (mem_intercalate (by decide) _).mpr ⟨part, (mem_filter.mp hpart).1, hmem⟩
  simp [hval] at hcha

theorem whole_normalizeFiles {values : Files} {directory : String} {limit : Nat} (hdir : '\x00' ∉ directory.toList)
    (h : normalizeFiles values directory limit = some files) : Whole files := by
  have hloop : ∀ (values init : Files), Whole init → ∀ files, values.foldlM (fun result e => do
      let name ← safeRelativePath e.1
      if e.2.length > limit then none
      else some (Assoc.set result (directory ++ "/" ++ name) e.2)) init = some files → Whole files := by
    intro values
    induction values with
    | nil =>
      intro init hinit files h
      cases h
      exact hinit
    | cons e values ih =>
      intro init hinit files h
      obtain ⟨next, hnext, h⟩ := bind_eq_some_iff.mp h
      obtain ⟨name, hname, hnext⟩ := bind_eq_some_iff.mp hnext
      split at hnext
      · cases hnext
      cases hnext
      refine ih _ (hinit.set ?_ _) files h
      rw [String.toList_append, String.toList_append, mem_append, mem_append]
      rintro ((hmem | hmem) | hmem)
      · exact hdir hmem
      · exact absurd hmem (by decide)
      · exact whole_safeRelativePath hname hmem
  rw [normalizeFiles] at h
  split at h
  · cases h
  · exact hloop values [] (fun e he => absurd he not_mem_nil) files h

theorem whole_entries [Sha256] {b : Bundle} {scripts assets : Files} (h : entries b scripts assets = some files) :
    Whole files := by
  obtain ⟨scripts', hscr, h⟩ := bind_eq_some_iff.mp h
  obtain ⟨assets', hass, h⟩ := bind_eq_some_iff.mp h
  dsimp only at h
  split at h
  · cases h
  split at h
  · cases h
  cases h
  intro e he
  have hmem := (sortFiles_perm _).mem_iff.mp he
  simp only [mem_cons, mem_append] at hmem
  rcases hmem with rfl | rfl | rfl | hmem | hmem
  · exact (by decide : '\x00' ∉ "compiled.json".toList)
  · exact (by decide : '\x00' ∉ "manifest.json".toList)
  · exact (by decide : '\x00' ∉ "view.oaui".toList)
  · exact whole_normalizeFiles (by decide) hscr e hmem
  · exact whole_normalizeFiles (by decide) hass e hmem

/-- A bundle on disk that the evidence of a published one accepts is that one, exactly if no name of it is laid
where the published one has the bytes of a file. -/
theorem evidence_identifies_iff [Sha256] (hinjective : Function.Injective Sha256.hexdigest) {b : Bundle}
    {scripts assets : Files} (hes : entries b scripts assets = some es) {d : RevisionDirectory}
    (hds : diskEntries d = .ok (some ds)) (hverify : verifyDirectory d (digest es) = .ok true) :
    ds.Perm es ↔ Records.Apart (records es) (records ds) := by
  have hnam := named_diskEntries hds
  simp only [verifyDirectory, hds, Except.ok.injEq, decide_eq_true_eq] at hverify
  rw [digest_eq, digest_eq, BundleEvidence.mk.injEq] at hverify
  rw [← Records.eq_iff_apart (whole_records (whole_entries hes)) (whole_records hnam.whole)
    (hinjective hverify.1) hverify.2]
  constructor
  · intro hperm
    rw [records, records, sortFiles_eq hnam hperm]
  intro heq
  have hperm := records_injective heq ▸ sortFiles_perm ds
  exact hperm.symm.trans (sortFiles_perm es)

/-- A digest that is injective: the bytes themselves. -/
abbrev plainSha256 : Sha256 := ⟨fun bytes => String.ofList (bytes.map (fun b => Char.ofNat b.toNat))⟩

theorem plainSha256_injective : Function.Injective plainSha256.hexdigest := by
  intro a b h
  have hbyte : ∀ x : Fin 256, (Char.ofNat x).toNat = x := by decide +kernel
  refine map_injective_iff.mpr ?_ (String.ofList_injective h)
  intro x y hxy
  have hnat := congrArg Char.toNat hxy
  exact UInt8.toNat_inj.mp ((hbyte x.toFin).symm.trans (hnat.trans (hbyte y.toFin)))

def notes : Bundle where
  id := "notes"
  revision := 1
  surface := "page"
  title := "Notes"
  description := ""
  icon := none
  expiresAt := none
  markup := some "<Text>Hi</Text>"
  spec := .obj []

def noteScripts : Files :=
  [("a", encodeUtf8 ['X']), ("b", encodeUtf8 "Yscripts/c\x00Z".toList)]

def coreFile (files : Files) (name : String) (whole : '\x00' ∉ name.toList) : Candidate :=
  let payload := (Assoc.get? files name).getD []
  ⟨name, .file (some payload.length) (some payload), whole⟩

/-- What the second script held behind its first byte has become a third, and its name a part of the first. -/
def movedNotes (files : Files) : RevisionDirectory where
  isDir := true
  isSymlink := false
  candidates := [ coreFile files "compiled.json" (by decide), coreFile files "manifest.json" (by decide),
    coreFile files "view.oaui" (by decide),
    ⟨"scripts/a", .file (some 12) (some (encodeUtf8 "Xscripts/b\x00Y".toList)), by decide⟩,
    ⟨"scripts/c", .file (some 1) (some (encodeUtf8 ['Z'])), by decide⟩]

def movedUnseen (es : Files) : Bool :=
  match diskEntries (movedNotes es) with
  | .ok (some ds) => decide (Records.stream 0 (records ds) = Records.stream 0 (records es)) &&
    decide (Records.bodies (records ds) = Records.bodies (records es)) && !decide (ds.Perm es)
  | _ => false

theorem moved_run : ∃ es ds, @entries plainSha256 notes noteScripts [] = some es ∧
    diskEntries (movedNotes es) = .ok (some ds) ∧
    @verifyDirectory plainSha256 (movedNotes es) (@digest plainSha256 es) = .ok true ∧ ¬ ds.Perm es := by
  have hrun : (@entries plainSha256 notes noteScripts []).any movedUnseen = true := by decide +kernel
  obtain ⟨es, hes, hrun⟩ := (any_eq_true _ _).mp hrun
  unfold movedUnseen at hrun
  split at hrun
  · rename_i ds hds
    simp only [Bool.and_eq_true, decide_eq_true_eq, Bool.not_eq_true', decide_eq_false_iff_not] at hrun
    obtain ⟨⟨hstr, hbod⟩, hmov⟩ := hrun
    refine ⟨es, ds, hes, hds, ?_, hmov⟩
    simp only [verifyDirectory, hds, digest_eq, hstr, hbod, decide_true]
  · cases hrun

theorem moved_bytes_identified : ∃ es ds, @verifyDirectory plainSha256 (movedNotes es) (@digest plainSha256 es) = .ok true ∧
    (ds.Perm es ↔ Records.Apart (records es) (records ds)) := by
  obtain ⟨es, ds, hes, hds, hver, -⟩ := moved_run
  exact ⟨es, ds, hver, @evidence_identifies_iff _ _ plainSha256 plainSha256_injective _ _ _ hes _ hds hver⟩

theorem moved_bytes_unnoticed : ¬ ∀ (_ : Sha256), Function.Injective Sha256.hexdigest →
    ∀ (b : Bundle) (scripts assets es ds : Files) (d : RevisionDirectory), entries b scripts assets = some es →
      diskEntries d = .ok (some ds) → verifyDirectory d (digest es) = .ok true → ds.Perm es := by
  intro h
  obtain ⟨es, ds, hes, hds, hver, hmov⟩ := moved_run
  exact hmov (h plainSha256 plainSha256_injective _ _ _ es ds _ hes hds hver)

end OpenAgent.Dashboards
