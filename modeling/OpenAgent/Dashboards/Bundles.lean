import OpenAgent.Gateway.Artifacts
import OpenAgent.Lib.JsonDumps

namespace OpenAgent.Dashboards

open Py

open Gateway (Sha256)

abbrev Bytes := List UInt8

abbrev Files := List (String × Bytes)

def maxBundleFiles : Nat := 256
def maxScriptBytes : Nat := 1024 * 1024
def maxAssetBytes : Nat := 16 * 1024 * 1024
def maxBundleBytes : Nat := 64 * 1024 * 1024

def encodeUtf8 (text : List Char) : Bytes := text.flatMap String.utf8EncodeChar

/-- What a bundle says about its view, its markup and its compiled specification. -/
structure Bundle where
  id : String
  revision : Nat
  surface : String
  title : String
  description : String
  icon : Option String
  expiresAt : Option Int
  markup : Option String
  spec : Json
deriving DecidableEq

/-- `safe_relative_path`; `none` where it raises. -/
def safeRelativePath (value : String) : Option String :=
  if value = "" || value.utf8ByteSize > 4096 then none
  else if value.toList.contains '\\' || value.toList.contains '\x00' then none
  else
    let parts := (value.toList.splitOn '/').filter (fun p => p ≠ [] && p ≠ ['.'])
    if value.toList.head? = some '/' || parts.contains ['.', '.'] then none
    else if parts = [] then some "."
    else some (String.ofList (List.intercalate ['/'] parts))

def normalizeFiles (values : Files) (directory : String) (perFileLimit : Nat) : Option Files :=
  if values.length > maxBundleFiles then none
  else values.foldlM (fun result e => do
    let name ← safeRelativePath e.1
    if e.2.length > perFileLimit then none
    else some (Assoc.set result (directory ++ "/" ++ name) e.2)) []

def optionStr : Option String → Json
  | some s => .str s
  | none => .null

def optionInt : Option Int → Json
  | some n => .int n
  | none => .null

def sortFiles (files : Files) : Files := files.insertionSort (fun a b => a.1 ≤ b.1)

def totalSize (files : Files) : Nat := (files.map (fun e => e.2.length)).sum

def sourceBytes (b : Bundle) : Bytes :=
  match b.markup with
  | some markup => encodeUtf8 (if markup.toList.getLast? = some '\n' then markup.toList else markup.toList ++ ['\n'])
  | none => encodeUtf8 ((b.spec.orElse (.obj [])).indentedSorted ++ ['\n'])

def compiledBytes (b : Bundle) : Bytes := encodeUtf8 ((b.spec.orElse (.obj [])).indentedSorted ++ ['\n'])

structure BundleEvidence where
  sha256 : String
  sizeBytes : Nat
deriving DecidableEq

section
variable [Sha256]

def manifest (b : Bundle) (extra : Files) : Json :=
  .obj [ ("format", .str "openagent-custom-view"), ("schemaVersion", .int 1), ("view", .obj [
      ("id", .str b.id), ("revision", .int b.revision), ("surface", .str b.surface), ("title", .str b.title),
      ("description", .str b.description), ("icon", optionStr b.icon), ("expiresAt", optionInt b.expiresAt)]),
    ("sourceKind", .str (if b.markup.isSome then "markup" else "spec")),
    ("files", .arr ((sortFiles extra).map (fun e => .obj [
      ("path", .str e.1), ("sha256", .str (Sha256.hexdigest e.2)), ("sizeBytes", .int e.2.length)])))]

/-- `_entries`, sorted by path: the order of the dictionary plays no part. -/
def entries (b : Bundle) (scripts assets : Files) : Option Files := do
  let scripts ← normalizeFiles scripts "scripts" maxScriptBytes
  let assets ← normalizeFiles assets "assets" maxAssetBytes
  let extra := scripts ++ assets
  if !b.spec.finite then none
  let files :=
    ("compiled.json", compiledBytes b) ::
    ("manifest.json", encodeUtf8 ((manifest b extra).indentedSorted ++ ['\n'])) ::
    ("view.oaui", sourceBytes b) :: extra
  if extra.length > maxBundleFiles || totalSize files > maxBundleBytes then none
  some (sortFiles files)

def digest (files : Files) : BundleEvidence where
  sha256 := Sha256.hexdigest ((sortFiles files).flatMap (fun e => encodeUtf8 e.1.toList ++ 0 :: e.2))
  sizeBytes := totalSize files

abbrev BundleStore := Dict (String × Nat) Files

def BundleStore.verify (store : BundleStore) (key : String × Nat) (evidence : BundleEvidence) : Bool :=
  match store.get? key with
  | some files => decide (digest files = evidence)
  | none => false

/-- `write_revision`; `none` is the `FileExistsError`. -/
def BundleStore.writeRevision (store : BundleStore) (key : String × Nat) (files : Files) :
    Option (BundleStore × BundleEvidence) :=
  if (store.get? key).isSome then
    if store.verify key (digest files) then some (store, digest files) else none
  else some (store.set key files, digest files)

/-- `read_files`: the files of one directory, by their names in it. -/
def readFiles (files : Files) (directory : String) : Files :=
  let start := (directory ++ "/").toList
  files.filterMap (fun e =>
    if start.isPrefixOf e.1.toList then some (String.ofList (e.1.toList.drop start.length), e.2) else none)

end

variable {store : BundleStore} {key : String × Nat} {files : Files}

theorem BundleStore.get?_writeRevision [Sha256] {store store' : BundleStore} {key : String × Nat} {files : Files}
    {evidence : BundleEvidence} (h : store.writeRevision key files = some (store', evidence)) :
    evidence = digest files ∧ ∀ k, store'.get? k = if k = key then some ((store.get? key).getD files) else store.get? k := by
  rw [writeRevision] at h
  split at h
  next hsome =>
    split at h
    · cases h
      refine ⟨rfl, ?_⟩
      intro k
      split
      next hk =>
        obtain ⟨found, hfound⟩ := Option.isSome_iff_exists.mp hsome
        rw [hk, hfound]
        rfl
      next => rfl
    · cases h
  next hnone =>
    cases h
    refine ⟨rfl, ?_⟩
    intro k
    rw [Dict.get?_set]
    have hemp : store.get? key = none := by simpa using hnone
    rw [hemp]
    rfl

theorem BundleStore.get?_of_writeRevision_none [Sha256]
    (h : store.writeRevision key files = none) : ∃ found, store.get? key = some found := by
  rw [writeRevision] at h
  split at h
  next hsome => exact Option.isSome_iff_exists.mp hsome
  next => cases h

theorem BundleStore.writeRevision_isSome [Sha256]
    (h : store.get? key = none ∨ store.get? key = some files) :
    ∃ store', store.writeRevision key files = some (store', digest files) := by
  rcases h with h | h
  · exact ⟨_, by rw [writeRevision, h]; rfl⟩
  refine ⟨store, ?_⟩
  rw [writeRevision, verify, h]
  simp

end OpenAgent.Dashboards
