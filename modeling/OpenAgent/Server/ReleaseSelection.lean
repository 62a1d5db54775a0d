import Mathlib.Data.List.MinMax
import OpenAgent.Lib.Text

namespace OpenAgent.Server.Updater

open Py List Option

/-- What `packaging.version.Version` makes of a text; `none` is an `InvalidVersion`. -/
structure Packaging (V : Type) where
  parse : String → Option V
  isPrerelease : V → Bool
  /-- The name in `pre`, empty where there is none. -/
  pre : V → String
  release : V → List Nat

structure Asset where
  name : String
  browserDownloadUrl : String
  digest : Option String := none

structure Release where
  tagName : Option String
  draft : Bool := false
  prerelease : Bool := false
  assets : List Asset

structure UpdateInfo where
  currentVersion : String
  newVersion : String
  downloadUrl : String
  checksumUrl : Option String
  expectedDigest : Option String
deriving DecidableEq

/-- What `_effective_update_channel` comes to. -/
inductive Channel
  | stable
  | beta
deriving DecidableEq

def removePrefix (text start : String) : String :=
  if start.toList.isPrefixOf text.toList then String.ofList (text.toList.drop start.toList.length) else text

def releaseVersion (tag : String) : String := removePrefix (removePrefix tag "server-") "v"

def assetSuffix (system machine : String) : String :=
  let osName := if lower system = "darwin" then "macos" else lower system
  let arch :=
    if ["x86_64", "amd64"].contains (lower machine) then "x64"
    else if ["aarch64", "arm64"].contains (lower machine) then "arm64"
    else lower machine
  let ext := if osName = "macos" then "pkg" else if osName = "windows" then "zip" else "tar.gz"
  osName ++ "-" ++ arch ++ "." ++ ext

/-- What the selection reads of the process: its version and platform, and the versions that were rolled back. -/
structure Installation where
  current : String
  system : String
  machine : String
  rolledBack : List String

variable (i : Installation)

def expectedAssetName (version : String) : String := "openagent-" ++ version ++ "-" ++ assetSuffix i.system i.machine

structure Selected where
  downloadUrl : Option String := none
  checksumUrl : Option String := none
  digest : Option String := none

def pickAsset (exact : String) (found : Selected) (asset : Asset) : Selected :=
  if asset.name = exact then
    { found with
      downloadUrl := some asset.browserDownloadUrl
      digest := asset.digest.filter (· ≠ "") }
  else if asset.name = exact ++ ".sha256" then { found with checksumUrl := some asset.browserDownloadUrl }
  else found

def selectReleaseAssets (assets : List Asset) (version : String) : Selected :=
  let found := assets.foldl (pickAsset (expectedAssetName i version)) {}
  if found.downloadUrl.any (· ≠ "") then found else {}

variable {V : Type} [LinearOrder V] (P : Packaging V)

def versionOf (raw : Release) : String := releaseVersion (raw.tagName.getD "")

/-- One turn of the loop of `_select_channel_release`. -/
def candidate (channel : Channel) (current : V) (raw : Release) : Option (V × Release) :=
  if raw.draft then none
  else match P.parse (versionOf raw) with
    | none => none
    | some parsed =>
      if parsed ≤ current then none
      else if (raw.prerelease || P.isPrerelease parsed) && (channel ≠ .beta ||
          (! ["b", "beta"].contains (lower (P.pre parsed)) ||
            (P.release parsed).take 2 ≠ (P.release current).take 2)) then none
      else if (selectReleaseAssets i raw.assets (versionOf raw)).downloadUrl.isNone then none
      else some (parsed, raw)

def selectChannelRelease (channel : Channel) (releases : List Release) : Option Release :=
  (P.parse i.current).bind fun current =>
    ((releases.filterMap (candidate i P channel current)).argmax Prod.fst).map Prod.snd

/-- `check_for_update`, with the feed that `_release_pages` returned. -/
def checkForUpdate (channel : Channel) (releases : List Release) : Option UpdateInfo :=
  match selectChannelRelease i P channel releases with
  | none => none
  | some data =>
    let newVersion := versionOf data
    if i.rolledBack.contains newVersion then none
    else match P.parse newVersion, P.parse i.current with
      | some version, some current =>
        if version ≤ current then none
        else
          let found := selectReleaseAssets i data.assets newVersion
          found.downloadUrl.map fun url => ⟨i.current, newVersion, url, found.checksumUrl, found.digest⟩
      | _, _ => none

/-- The asset of the exact name: the last one, where there are several. -/
def exactAsset (raw : Release) : Option Asset :=
  (raw.assets.filter (fun asset => asset.name = expectedAssetName i (versionOf raw))).getLast?

/-- A release that may be installed, but for its having been rolled back. -/
structure Suitable (channel : Channel) (raw : Release) (v : V) : Prop where
  version : P.parse (versionOf raw) = some v
  newer : ∃ current, P.parse i.current = some current ∧ current < v ∧
    (raw.prerelease = false ∧ P.isPrerelease v = false ∨ channel = .beta ∧ lower (P.pre v) ∈ ["b", "beta"] ∧
      (P.release v).take 2 = (P.release current).take 2)
  published : raw.draft = false
  asset : (exactAsset i raw).any (fun asset => asset.browserDownloadUrl ≠ "") = true

def Eligible (channel : Channel) (raw : Release) (v : V) : Prop :=
  Suitable i P channel raw v ∧ versionOf raw ∉ i.rolledBack

/-- The greatest eligible release is offered, with its asset, or there is none. -/
def Best (channel : Channel) (releases : List Release) (offer : Option UpdateInfo) : Prop :=
  match offer with
  | some info => ∃ raw ∈ releases, ∃ v, Eligible i P channel raw v ∧ info.newVersion = versionOf raw ∧
      (exactAsset i raw).map Asset.browserDownloadUrl = some info.downloadUrl ∧
      ∀ other ∈ releases, ∀ w, Eligible i P channel other w → w ≤ v
  | none => ∀ raw ∈ releases, ∀ v, ¬ Eligible i P channel raw v

/-- The first of the newest suitable releases. -/
structure Newest (channel : Channel) (releases : List Release) (raw : Release) (v : V) : Prop where
  suitable : Suitable i P channel raw v
  first : ∃ earlier later, releases = earlier ++ raw :: later ∧
    (∀ other ∈ earlier, ∀ w, Suitable i P channel other w → w < v) ∧
    ∀ other ∈ later, ∀ w, Suitable i P channel other w → w ≤ v

/-- The first of the newest suitable releases was not rolled back, or all of them were. -/
def NewestTrusted (channel : Channel) (releases : List Release) : Prop :=
  ∀ newest v, Newest i P channel releases newest v → versionOf newest ∈ i.rolledBack →
    ∀ raw ∈ releases, ∀ w, Suitable i P channel raw w → versionOf raw ∈ i.rolledBack

variable {i P} {channel : Channel} {releases : List Release} {raw : Release} {v current : V}

theorem foldl_pickAsset (exact : String) (assets : List Asset) (found : Selected) :
    (assets.foldl (pickAsset exact) found).downloadUrl =
      (((assets.filter (fun asset => asset.name = exact)).getLast?).map Asset.browserDownloadUrl).or
        found.downloadUrl := by
  induction assets generalizing found with
  | nil => rfl
  | cons asset assets ih =>
    rw [foldl_cons, ih, filter_cons, pickAsset]
    by_cases hname : asset.name = exact
    · simp only [hname, decide_true, if_true, List.getLast?_cons]
      cases (assets.filter (fun asset => asset.name = exact)).getLast? <;> rfl
    · simp only [hname, decide_false, if_false, Bool.false_eq_true]
      split <;> rfl

theorem downloadUrl_select (raw : Release) : (selectReleaseAssets i raw.assets (versionOf raw)).downloadUrl =
    ((exactAsset i raw).map Asset.browserDownloadUrl).filter (· ≠ "") := by
  have hfound : (raw.assets.foldl (pickAsset (expectedAssetName i (versionOf raw))) {}).downloadUrl =
      (exactAsset i raw).map Asset.browserDownloadUrl := by
    rw [foldl_pickAsset, or_none, exactAsset]
  unfold selectReleaseAssets
  dsimp only
  rw [hfound]
  cases hurl : (exactAsset i raw).map Asset.browserDownloadUrl with
  | none => rfl
  | some url =>
    rw [any_some, filter_some]
    split
    · exact hfound.trans hurl
    · rfl

theorem candidate_eq_some (hc : P.parse i.current = some current) (c : V × Release) :
    candidate i P channel current raw = some c ↔ c.2 = raw ∧ Suitable i P channel raw c.1 := by
  have hasset : (selectReleaseAssets i raw.assets (versionOf raw)).downloadUrl.isNone = false ↔
      (exactAsset i raw).any (fun asset => asset.browserDownloadUrl ≠ "") = true := by
    rw [downloadUrl_select]
    cases exactAsset i raw <;> simp [filter_some]
  constructor
  · intro h
    unfold candidate at h
    split at h
    · cases h
    rename_i hdraft
    split at h
    · cases h
    rename_i parsed hparse
    split at h
    · cases h
    rename_i hle
    split at h
    · cases h
    rename_i hpre
    split at h
    · cases h
    rename_i hnone
    cases h
    refine ⟨rfl, hparse, ⟨current, hc, not_le.mp hle, ?_⟩, by simpa using hdraft, hasset.mp (Bool.eq_false_of_not_eq_true hnone)⟩
    by_cases hstable : (raw.prerelease || P.isPrerelease parsed) = true
    · rw [hstable, Bool.true_and] at hpre
      refine .inr ?_
      simpa [and_assoc, or_iff_not_imp_left] using hpre
    · exact .inl (by simpa using hstable)
  · rintro ⟨hraw, hversion, ⟨current', hc', hlt, hallowed⟩, hdraft, hurl⟩
    obtain ⟨v, raw'⟩ := c
    dsimp only at hraw hversion hlt hallowed
    subst hraw
    rw [hc, some_inj] at hc'
    subst hc'
    have hpre : ((raw'.prerelease || P.isPrerelease v) && (channel ≠ .beta ||
        (! ["b", "beta"].contains (lower (P.pre v)) || (P.release v).take 2 ≠ (P.release current).take 2))) = false := by
      rcases hallowed with ⟨hflag, hpre⟩ | ⟨hbeta, hname, hline⟩
      · rw [hflag, hpre]
        rfl
      · rw [Bool.and_eq_false_iff]
        exact .inr (by simp [hbeta, hname, hline])
    rw [candidate, if_neg (by rw [hdraft]; exact Bool.false_ne_true), hversion]
    dsimp only
    rw [if_neg (not_le.mpr hlt), hpre, if_neg Bool.false_ne_true, hasset.mpr hurl]
    rfl

theorem Newest.le (h : Newest i P channel releases raw v) {other : Release} {w : V} (hin : other ∈ releases)
    (hw : Suitable i P channel other w) : w ≤ v := by
  obtain ⟨earlier, later, hsplit, hlt, hle⟩ := h.first
  rw [hsplit, mem_append, mem_cons] at hin
  rcases hin with hin | hsame | hin
  · exact (hlt other hin w hw).le
  · have hversion := hw.version
    rw [hsame, h.suitable.version, some_inj] at hversion
    exact hversion.ge
  · exact hle other hin w hw

theorem Newest.unique {other : Release} {w : V} (h : Newest i P channel releases raw v)
    (ho : Newest i P channel releases other w) : raw = other := by
  obtain ⟨earlier, later, hsplit, hlt, _⟩ := h.first
  obtain ⟨earlier', later', hsplit', hlt', _⟩ := ho.first
  have hsame : v = w := le_antisymm (ho.le (by simp [hsplit]) h.suitable) (h.le (by simp [hsplit']) ho.suitable)
  subst hsame
  -- what comes first of the two cannot be earlier than the other, being as new
  rw [hsplit, append_eq_append_iff] at hsplit'
  rcases hsplit' with ⟨between, hearlier, hrest⟩ | ⟨between, hearlier, hrest⟩
  · cases between with
    | nil => exact (List.cons.inj hrest).1
    | cons head tail =>
      rw [← (List.cons.inj hrest).1] at hearlier
      exact absurd (hlt' raw (by simp [hearlier]) v h.suitable) (lt_irrefl v)
  · cases between with
    | nil => exact (List.cons.inj hrest).1.symm
    | cons head tail =>
      rw [← (List.cons.inj hrest).1] at hearlier
      exact absurd (hlt other (by simp [hearlier]) v ho.suitable) (lt_irrefl v)

/-- The loop finds the suitable releases, and of the newest of them the first is taken. -/
theorem argmax_candidates (channel : Channel) (hc : P.parse i.current = some current) (releases : List Release) :
    match (releases.filterMap (candidate i P channel current)).argmax Prod.fst with
    | some c => Newest i P channel releases c.2 c.1
    | none => ∀ raw ∈ releases, ∀ v, ¬ Suitable i P channel raw v := by
  induction releases with
  | nil => exact fun raw hraw => absurd hraw not_mem_nil
  | cons raw rest ih =>
    have hone : ∀ v, Suitable i P channel raw v → candidate i P channel current raw = some (v, raw) := fun v hs =>
      (candidate_eq_some hc _).mpr ⟨rfl, hs⟩
    rw [filterMap_cons]
    cases hcand : candidate i P channel current raw with
    | none =>
      have hnot : ∀ v, ¬ Suitable i P channel raw v := fun v hs => by simp [hone v hs] at hcand
      dsimp only
      cases hmax : (rest.filterMap (candidate i P channel current)).argmax Prod.fst with
      | none =>
        rw [hmax] at ih
        exact forall_mem_cons.mpr ⟨hnot, ih⟩
      | some c =>
        rw [hmax] at ih
        obtain ⟨earlier, later, hsplit, hlt, hle⟩ := ih.first
        exact ⟨ih.suitable, raw :: earlier, later, by rw [hsplit, cons_append],
          forall_mem_cons.mpr ⟨fun w hw => absurd hw (hnot w), hlt⟩, hle⟩
    | some c =>
      obtain ⟨hsame, hs⟩ := (candidate_eq_some hc _).mp hcand
      dsimp only
      rw [argmax_cons]
      cases hmax : (rest.filterMap (candidate i P channel current)).argmax Prod.fst with
      | none =>
        rw [hmax] at ih
        exact ⟨by rwa [hsame], [], rest, by rw [hsame, nil_append], by simp, fun other hin w hw =>
          absurd hw (ih other hin w)⟩
      | some m =>
        rw [hmax] at ih
        obtain ⟨earlier, later, hsplit, hlt, hle⟩ := ih.first
        by_cases hnewer : c.1 < m.1
        · simp only [if_pos hnewer]
          refine ⟨ih.suitable, raw :: earlier, later, by rw [hsplit, cons_append], ?_, hle⟩
          refine forall_mem_cons.mpr ⟨fun w hw => ?_, hlt⟩
          have hversion := hw.version
          rw [hs.version, some_inj] at hversion
          exact hversion ▸ hnewer
        · simp only [if_neg hnewer]
          exact ⟨by rwa [hsame], [], rest, by rw [hsame, nil_append], by simp, fun other hin w hw =>
            (ih.le hin hw).trans (not_lt.mp hnewer)⟩

theorem selectChannelRelease_spec (channel : Channel) (releases : List Release) :
    match selectChannelRelease i P channel releases with
    | some newest => ∃ v, Newest i P channel releases newest v
    | none => ∀ raw ∈ releases, ∀ v, ¬ Suitable i P channel raw v := by
  rw [selectChannelRelease]
  cases hc : P.parse i.current with
  | none =>
    intro raw _ v hs
    obtain ⟨current, hcur, _⟩ := hs.newer
    rw [hc] at hcur
    cases hcur
  | some current =>
    have hbest := argmax_candidates channel hc releases
    rw [bind_some]
    cases hmax : (releases.filterMap (candidate i P channel current)).argmax Prod.fst with
    | none =>
      rw [hmax] at hbest
      exact hbest
    | some c =>
      rw [hmax] at hbest
      exact ⟨c.1, hbest⟩

theorem checkForUpdate_of_trusted {newest : Release} (hsel : selectChannelRelease i P channel releases = some newest)
    (hs : Suitable i P channel newest v) (ht : versionOf newest ∉ i.rolledBack) :
    ∃ info, checkForUpdate i P channel releases = some info ∧ info.newVersion = versionOf newest ∧
      (exactAsset i newest).map Asset.browserDownloadUrl = some info.downloadUrl := by
  obtain ⟨current, hc, hlt, _⟩ := hs.newer
  have hurl := hs.asset
  have hfound := downloadUrl_select (i := i) newest
  cases hexact : exactAsset i newest with
  | none =>
    rw [hexact] at hurl
    cases hurl
  | some asset =>
    rw [hexact, any_some] at hurl
    rw [hexact, map_some, filter_some, if_pos hurl] at hfound
    unfold checkForUpdate
    rw [hsel]
    dsimp only
    rw [if_neg (by simpa using ht), hs.version, hc]
    dsimp only
    rw [if_neg (not_le.mpr hlt), hfound]
    exact ⟨_, rfl, rfl, rfl⟩

theorem checkForUpdate_of_rolledBack {newest : Release}
    (hsel : selectChannelRelease i P channel releases = some newest) (hb : versionOf newest ∈ i.rolledBack) :
    checkForUpdate i P channel releases = none := by
  unfold checkForUpdate
  rw [hsel]
  exact if_pos (by simpa using hb)

/-- Versions that are one number, none of them a prerelease. -/
def numbered : Packaging Nat where
  parse s :=
    match s.toList with
    | [c] => if c.isDigit then some (c.toNat - 48) else none
    | _ => none
  isPrerelease _ := false
  pre _ := ""
  release v := [v]

def linuxHost : Installation := ⟨"1", "Linux", "x86_64", ["3"]⟩

def linuxRelease (version : String) : Release :=
  ⟨some ("v" ++ version), false, false, [⟨"openagent-" ++ version ++ "-linux-x64.tar.gz", "https://github.com", none⟩]⟩

end OpenAgent.Server.Updater
