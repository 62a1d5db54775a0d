import Mathlib.Data.List.TakeWhile
import OpenAgent.McpApps.Protocol

namespace OpenAgent.McpApps

open Py List Char

structure Origin where
  protocol : String
  origin : String
  hostname : String
  username : String
  password : String

/-- What the language brings for a host: `new URL`, `isIP`, the text of a blob, `String(value)`, and what a float is. -/
structure HostPlatform extends Platform where
  parse : String → Option Origin
  isIP : String → Bool
  blob : String → Option String
  text : Json → String
  finite : PyFloat → Bool

inductive CspKey
  | connectDomains
  | resourceDomains
  | frameDomains
  | baseUriDomains
deriving DecidableEq

def CspKey.name : CspKey → String
  | .connectDomains => "connectDomains"
  | .resourceDomains => "resourceDomains"
  | .frameDomains => "frameDomains"
  | .baseUriDomains => "baseUriDomains"

def CSP_KEYS : List CspKey := [.connectDomains, .resourceDomains, .frameDomains, .baseUriDomains]

abbrev Csp := CspKey → List String

def PERMISSIONS : List String := ["camera", "microphone", "geolocation", "clipboardWrite"]

def hostChar (c : Char) : Bool := c.isLower || c.isDigit || c = '.' || c = '-'

/-- `\/?$` -/
def slashPart (text : List Char) : Bool := text = [] || text = ['/']

/-- `(?::[0-9]{1,5})?\/?$` -/
def portPart (text : List Char) : Bool :=
  match text with
  | ':' :: rest =>
    0 < (rest.takeWhile Char.isDigit).length && (rest.takeWhile Char.isDigit).length ≤ 5 &&
      slashPart (rest.dropWhile Char.isDigit)
  | _ => slashPart text

/-- `[a-z0-9.-]+(?::[0-9]{1,5})?\/?$` -/
def hostPart (text : List Char) : Bool :=
  !(text.takeWhile hostChar).isEmpty && portPart (text.dropWhile hostChar)

/-- The same after `(?:\*\.)?`. -/
def wildPart (text : List Char) : Bool :=
  match text with
  | '*' :: '.' :: rest => hostPart rest
  | _ => hostPart text

def schemePart (scheme text : List Char) : Bool :=
  scheme.isPrefixOf text && wildPart (text.drop scheme.length)

def domainPattern (key : CspKey) (domain : List Char) : Bool :=
  let text := domain.map Char.toLower
  schemePart "http://".toList text || schemePart "https://".toList text ||
    key = .connectDomains && schemePart "wss://".toList text

/-- `domain.replace(/\/$/, '')` -/
def unslash (domain : List Char) : List Char :=
  if domain.getLast? = some '/' then domain.dropLast else domain

def normalizeDomain (key : CspKey) (domain : Json) : Option String :=
  match domain with
  | .str s =>
    if safeText s 512 && domainPattern key s.toList then
      some (String.ofList ((unslash s.toList).map Char.toLower))
    else none
  | _ => none

def normalizeDomains (key : CspKey) (domains : Json) : Option (List String) :=
  match domains with
  | .null => some []
  | .arr items => if items.length ≤ 32 then (items.mapM (normalizeDomain key)).map List.eraseDups else none
  | _ => none

def normalizeCsp (csp : Json) : Option Csp :=
  if csp.isObj && CSP_KEYS.all fun key => (normalizeDomains key (csp.field key.name)).isSome then
    some fun key => (normalizeDomains key (csp.field key.name)).getD []
  else none

/-- What `effectiveResourcePolicy` is given as `approvedCsp`. -/
def cspJson (csp : Csp) : Json := .obj (CSP_KEYS.map fun key => (key.name, .arr ((csp key).map Json.str)))

structure Resource where
  uri : Json
  html : Json
  info : Json

def base64Pattern : List Char → Bool
  | [] => true
  | [a, b, c, d] =>
    base64Digit a && base64Digit b && (base64Digit c && base64Digit d || base64Digit c && d = '=' || c = '=' && d = '=')
  | a :: b :: c :: d :: rest => [a, b, c, d].all base64Digit && base64Pattern rest
  | _ => false
where
  base64Digit (c : Char) : Bool := c.isAlphanum || c = '+' || c = '/'

variable (platform : HostPlatform)

def item (value : Json) (key : String) : Option Json := if value.has key then some (value.field key) else none

def isStr : Json → Bool
  | .str _ => true
  | _ => false

def resourceHtml (content : Json) : Option Json :=
  match item content "text", content.field "blob" with
  | some text, _ => some text
  | none, .str blob => if base64Pattern blob.toList then (platform.blob blob).map Json.str else none
  | none, _ => none

def MCP_APP_MIME : String := "text/html;profile=mcp-app"

def parseUiResource (value : Json) (expectedUri : Option Json) : Option Resource :=
  match value.field "contents" with
  | .arr [content] =>
    if !content.isObj || item content "uri" ≠ expectedUri || content.field "mimeType" ≠ .str MCP_APP_MIME ||
        !isStr (content.field "text") && !isStr (content.field "blob") then none
    else
      match resourceHtml platform content with
      | none => none
      | some html =>
        let info := if ((content.field "_meta").field "ui").isObj then content.field "_meta" else empty
        if (platform.text html).utf8ByteSize ≤ 2 * MiB && fits platform.toPlatform info MiB then
          some ⟨expectedUri.getD .null, html, info⟩
        else none
  | _ => none

/-- `host.replace(/\.$/, '')` -/
def undot (host : List Char) : List Char := if host.getLast? = some '.' then host.dropLast else host

/-- `host.replace(/^\[|\]$/g, '')` -/
def unbracket (host : List Char) : List Char :=
  let host := if host.head? = some '[' then host.tail else host
  if host.getLast? = some ']' then host.dropLast else host

def publicOrigin (value : String) : Bool :=
  match platform.parse value with
  | none => false
  | some url =>
    let host := undot (url.hostname.toList.map Char.toLower)
    let label := host.reverse.takeWhile (· ≠ '.')
    url.protocol = "https:" && url.origin = value && url.username = "" && url.password = "" && !host.contains '*' &&
      host.contains '.' &&
      !(["localhost", "local", "internal", "localdomain"].map fun name => name.toList.reverse).contains label &&
      !platform.isIP (String.ofList (unbracket host))

structure PolicyRequest where
  resourceUri : Json
  declaredCsp : Csp
  declaredPermissions : List String
  blockedDomains : List String

def declaredPermissions (ui : Json) : List String :=
  PERMISSIONS.filter fun key => ((ui.field "permissions").field key).isObj

def approvableResourcePolicy (resource : Resource) : Option PolicyRequest :=
  let ui := resource.info.field "ui"
  (normalizeCsp (orEmpty (ui.field "csp"))).map fun declaredCsp =>
    { resourceUri := resource.uri
      declaredCsp := fun key => (declaredCsp key).filter (publicOrigin platform)
      declaredPermissions := declaredPermissions ui
      blockedDomains := (CSP_KEYS.flatMap fun key => (declaredCsp key).filter fun value =>
        !publicOrigin platform value).eraseDups }

structure Policy where
  csp : Csp
  permissions : List String

def effectiveResourcePolicy (info approvedCsp grantedPermissions : Json) : Option Policy :=
  let ui := if (info.field "ui").isObj then info.field "ui" else empty
  match normalizeCsp (orEmpty (ui.field "csp")), normalizeCsp (orEmpty approvedCsp) with
  | some requested, some approved =>
    some ⟨fun key => (requested key).filter fun domain => (approved key).contains domain, PERMISSIONS.filter fun key =>
        ((ui.field "permissions").field key).isObj && grantedPermissions.field key = .bool true⟩
  | _, _ => none

def clampPolicy (resource : Resource) (request : PolicyRequest) (decision : Json) : Option Policy :=
  match normalizeCsp (orEmpty (decision.field "approvedCsp")) with
  | some approval =>
    let approvedCsp : Csp := fun key => (approval key).filter fun value => (request.declaredCsp key).contains value
    effectiveResourcePolicy resource.info (cspJson approvedCsp) (orEmpty (decision.field "grantedPermissions"))
  | none => none

theorem toLower_cases (c : Char) :
    c.toLower = c ∨ 65 ≤ c.toNat ∧ c.toNat ≤ 90 ∧ c.toLower.toNat = c.toNat + 32 := by
  unfold toLower
  split
  · rename_i hu
    simp only [UInt32.le_iff_toNat_le, seval] at hu
    have hn : (c.val + ('a'.val - 'A'.val)).toNat = c.toNat + 32 := by
      simp only [UInt32.toNat_add, seval]
      exact Nat.mod_eq_of_lt (by omega)
    exact .inr ⟨hu.1, hu.2, hn⟩
  · exact .inl rfl

theorem toLower_toLower (c : Char) : c.toLower.toLower = c.toLower := by
  rcases toLower_cases c with h | ⟨_, _, h⟩
  · rw [h, h]
  · exact (toLower_cases c.toLower).resolve_right (by omega)

theorem toLower_eq_slash {c : Char} (h : c.toLower = '/') : c = '/' := by
  rcases toLower_cases c with hsame | ⟨_, _, hlow⟩
  · exact hsame.symm.trans h
  · rw [h, show '/'.toNat = 47 from rfl] at hlow
    omega

theorem unslash_nil : unslash [] = [] := rfl

theorem unslash_concat (text : List Char) : unslash (text ++ ['/']) = text := by
  simp [unslash]

variable {text : List Char}

theorem unslash_eq (h : text.getLast? ≠ some '/') : unslash text = text := if_neg h

theorem unslash_append (pre : List Char) (h : text ≠ []) : unslash (pre ++ text) = pre ++ unslash text := by
  rcases eq_nil_or_concat' text with rfl | ⟨init, c, rfl⟩
  · exact absurd rfl h
  by_cases hc : c = '/'
  · rw [hc, ← append_assoc, unslash_concat, unslash_concat]
  have hlast : (init ++ [c]).getLast? ≠ some '/' := by simpa using hc
  rw [unslash_eq hlast, unslash_eq]
  simpa [← append_assoc] using hc

theorem unslash_map_toLower (text : List Char) : unslash (text.map Char.toLower) = (unslash text).map Char.toLower := by
  rcases eq_nil_or_concat' text with rfl | ⟨init, c, rfl⟩
  · rfl
  by_cases hc : c = '/'
  · rw [hc, map_append, unslash_concat]
    exact unslash_concat _
  have hlast : (init ++ [c]).getLast? ≠ some '/' := by simpa using hc
  rw [unslash_eq hlast, unslash_eq]
  simpa using fun h => hc (toLower_eq_slash h)

def Slashes (p : List Char → Bool) (text : List Char) : Prop :=
  p (unslash text) = true ∧ (unslash text).getLast? ≠ some '/'

theorem slashPart_cases (h : slashPart text = true) : text = [] ∨ text = ['/'] := by
  simpa [slashPart] using h

theorem portPart_unslash (h : portPart text = true) :
    Slashes portPart text ∧ (unslash text = [] ∨ (unslash text).head? = some ':') := by
  have hsla : slashPart text = true →
      Slashes portPart text ∧ (unslash text = [] ∨ (unslash text).head? = some ':') := by
    intro hs
    rcases slashPart_cases hs with rfl | rfl
    · exact ⟨⟨by decide, by decide⟩, .inl rfl⟩
    · exact ⟨⟨by decide, by decide⟩, .inl rfl⟩
  unfold portPart at h
  split at h
  · rename_i rest
    simp only [Bool.and_eq_true, decide_eq_true_eq] at h
    obtain ⟨⟨hpos, hfive⟩, htail⟩ := h
    have hspl : rest = rest.takeWhile isDigit ++ rest.dropWhile isDigit :=
      takeWhile_append_dropWhile.symm
    have hdig : ∀ c ∈ rest.takeWhile isDigit, c.isDigit = true := fun c hc =>
      all_eq_true.mp all_takeWhile c hc
    generalize rest.takeWhile isDigit = digits at *
    have hne : digits ≠ [] := ne_nil_of_length_pos hpos
    have hlast : digits.getLast? ≠ some '/' := by
      intro hl
      have hd := hdig _ (mem_of_getLast? hl)
      exact absurd hd (by decide)
    have huns : unslash (':' :: rest) = ':' :: digits := by
      rcases slashPart_cases htail with ht | ht
      · rw [hspl, ht, append_nil, unslash_eq]
        rwa [List.getLast?_cons_of_ne_nil hne]
      · rw [hspl, ht, ← cons_append, unslash_concat]
    refine ⟨⟨?_, ?_⟩, .inr (by rw [huns]; rfl)⟩
    · rw [huns]
      have htake : digits.takeWhile isDigit = digits := takeWhile_eq_self_iff.mpr hdig
      have hdrop : digits.dropWhile isDigit = [] := dropWhile_eq_nil_iff.mpr hdig
      simp [portPart, htake, hdrop, slashPart, hpos, hfive]
    · rw [huns]
      rwa [List.getLast?_cons_of_ne_nil hne]
  · exact hsla h

theorem hostPart_unslash (h : hostPart text = true) : Slashes hostPart text ∧ text ≠ [] := by
  unfold hostPart at h
  rw [Bool.and_eq_true] at h
  obtain ⟨hhost, hport⟩ := h
  have hspl : text = text.takeWhile hostChar ++ text.dropWhile hostChar := takeWhile_append_dropWhile.symm
  have hcha : ∀ c ∈ text.takeWhile hostChar, hostChar c = true := fun c hc =>
    all_eq_true.mp all_takeWhile c hc
  obtain ⟨⟨hp, hlast⟩, hhead⟩ := portPart_unslash hport
  generalize text.takeWhile hostChar = host at *
  generalize text.dropWhile hostChar = port at *
  have hne : host ≠ [] := by simpa using hhost
  have hhos : host.getLast? ≠ some '/' := by
    intro hl
    exact absurd (hcha _ (mem_of_getLast? hl)) (by decide)
  have huns : unslash text = host ++ unslash port := by
    rw [hspl]
    by_cases hemp : port = []
    · rw [hemp, unslash_nil, append_nil, unslash_eq hhos]
    · exact unslash_append host hemp
  have htake : (host ++ unslash port).takeWhile hostChar = host := by
    rw [takeWhile_append_of_pos hcha]
    rcases hhead with hemp | hcol
    · rw [hemp]
      simp
    · obtain ⟨tail, htail⟩ := List.head?_eq_some_iff.mp hcol
      rw [htail, takeWhile_cons_of_neg (by decide), append_nil]
  have hdrop : (host ++ unslash port).dropWhile hostChar = unslash port := by
    rw [dropWhile_append_of_pos hcha]
    rcases hhead with hemp | hcol
    · rw [hemp]
      rfl
    · obtain ⟨tail, htail⟩ := List.head?_eq_some_iff.mp hcol
      rw [htail, dropWhile_cons_of_neg (by decide)]
  refine ⟨⟨?_, ?_⟩, ?_⟩
  · rw [huns]
    unfold hostPart
    rw [htake, hdrop, hp, Bool.and_true]
    exact hhost
  · rw [huns]
    rcases hhead with hemp | hcol
    · rw [hemp, append_nil]
      exact hhos
    obtain ⟨tail, htail⟩ := List.head?_eq_some_iff.mp hcol
    rw [List.getLast?_append_of_ne_nil _ (by rw [htail]; exact cons_ne_nil _ _)]
    exact hlast
  · rw [hspl]
    exact append_ne_nil_of_left_ne_nil hne _

theorem wildPart_unslash (h : wildPart text = true) : Slashes wildPart text ∧ text ≠ [] := by
  unfold wildPart at h
  split at h
  · rename_i rest
    obtain ⟨⟨hp, hlast⟩, hne⟩ := hostPart_unslash h
    have huns : unslash ('*' :: '.' :: rest) = '*' :: '.' :: unslash rest := unslash_append ['*', '.'] hne
    have hne' : unslash rest ≠ [] := by
      intro hemp
      rw [hemp] at hp
      cases hp
    refine ⟨⟨?_, ?_⟩, cons_ne_nil _ _⟩
    · rw [huns]
      exact hp
    · rw [huns, List.getLast?_cons_cons, List.getLast?_cons_of_ne_nil hne']
      exact hlast
  obtain ⟨⟨hp, hlast⟩, hne⟩ := hostPart_unslash h
  refine ⟨⟨?_, hlast⟩, hne⟩
  unfold wildPart
  split
  · rename_i rest heq
    rw [heq] at hp
    exact absurd hp (by simp [hostPart, hostChar])
  · exact hp

theorem schemePart_unslash {scheme : List Char} (h : schemePart scheme text = true) :
    Slashes (schemePart scheme) text := by
  unfold schemePart at h
  rw [Bool.and_eq_true] at h
  obtain ⟨hsch, hwild⟩ := h
  obtain ⟨rest, rfl⟩ := isPrefixOf_iff_prefix.mp hsch
  rw [drop_left] at hwild
  obtain ⟨⟨hp, hlast⟩, hne⟩ := wildPart_unslash hwild
  have hne' : unslash rest ≠ [] := by
    intro hemp
    rw [hemp] at hp
    cases hp
  constructor
  · unfold schemePart
    rw [unslash_append scheme hne, drop_left, hp, Bool.and_true]
    exact isPrefixOf_iff_prefix.mpr ⟨_, rfl⟩
  · rw [unslash_append scheme hne, List.getLast?_append_of_ne_nil _ hne']
    exact hlast

variable {key : CspKey}

theorem domainPattern_unslash {domain : List Char} (h : domainPattern key domain = true) :
    domainPattern key ((unslash domain).map Char.toLower) = true ∧
      ((unslash domain).map Char.toLower).getLast? ≠ some '/' := by
  have hlow : ((unslash domain).map toLower).map toLower = unslash (domain.map toLower) := by
    rw [map_map, unslash_map_toLower]
    exact map_congr_left fun c _ => toLower_toLower c
  unfold domainPattern at h ⊢
  rw [hlow, ← unslash_map_toLower]
  simp only [Bool.or_eq_true, Bool.and_eq_true, decide_eq_true_eq] at h ⊢
  rcases h with (h | h) | ⟨hk, h⟩
  · have hs := schemePart_unslash h
    exact ⟨.inl (.inl hs.1), hs.2⟩
  · have hs := schemePart_unslash h
    exact ⟨.inl (.inr hs.1), hs.2⟩
  · have hs := schemePart_unslash h
    exact ⟨.inr ⟨hk, hs.1⟩, hs.2⟩

theorem toLower_safe {c : Char} (h : (0x1f < c.toNat && c.toNat ≠ 0x7f) = true) :
    (0x1f < c.toLower.toNat && c.toLower.toNat ≠ 0x7f) = true := by
  simp only [Bool.and_eq_true, decide_eq_true_eq] at h ⊢
  rcases toLower_cases c with hsame | ⟨_, _, hlow⟩
  · exact hsame.symm ▸ h
  · omega

theorem units_toLower (c : Char) : (c.toLower.toNat < 0x10000) ↔ c.toNat < 0x10000 := by
  rcases toLower_cases c with hsame | ⟨_, _, hlow⟩
  · rw [hsame]
  · omega

theorem safeText_lower {s : String} {max : Nat} (h : safeText s max = true)
    (hsub : text.Sublist s.toList) (hne : text ≠ []) :
    safeText (String.ofList (text.map Char.toLower)) max = true := by
  have huni : units (String.ofList (text.map toLower)) =
      (text.map fun c => if c.toNat < 0x10000 then 1 else 2).sum := by
    unfold units
    rw [String.toList_ofList, map_map]
    refine congrArg List.sum (map_congr_left fun c _ => ?_)
    exact if_congr (units_toLower c) rfl rfl
  simp only [safeText, Bool.and_eq_true, decide_eq_true_eq, all_eq_true] at h ⊢
  obtain ⟨⟨-, hmax⟩, hall⟩ := h
  refine ⟨⟨?_, ?_⟩, ?_⟩
  · obtain ⟨c, rest, rfl⟩ := exists_cons_of_ne_nil hne
    rw [huni, map_cons, sum_cons]
    split
    · omega
    · omega
  · rw [huni]
    exact ((hsub.map _).sum_le_sum (fun _ _ => Nat.zero_le _)).trans hmax
  intro d hd
  rw [String.toList_ofList] at hd
  obtain ⟨c, hc, rfl⟩ := mem_map.mp hd
  have hsafe := toLower_safe (c := c) (by simpa using hall c (hsub.subset hc))
  simpa using hsafe

theorem normalizeDomain_normal {domain : Json} {normal : String}
    (h : normalizeDomain key domain = some normal) : normalizeDomain key (.str normal) = some normal := by
  unfold normalizeDomain at h
  cases domain with
  | str s =>
    dsimp only at h
    by_cases hok : (safeText s 512 && domainPattern key s.toList) = true
    · rw [if_pos hok, Option.some.injEq] at h
      rw [Bool.and_eq_true] at hok
      obtain ⟨hsafe, hpat⟩ := hok
      obtain ⟨hp, hlast⟩ := domainPattern_unslash hpat
      have hne : unslash s.toList ≠ [] := by
        intro hemp
        rw [hemp] at hp
        exact absurd hp (by cases key <;> decide)
      have hsub : (unslash s.toList).Sublist s.toList := by
        unfold unslash
        split
        · exact dropLast_sublist _
        · exact List.Sublist.refl _
      subst h
      have hsafe' := safeText_lower hsafe hsub hne
      unfold normalizeDomain
      dsimp only
      rw [if_pos (by rw [hsafe', String.toList_ofList, hp]; rfl), String.toList_ofList, unslash_eq hlast, map_map]
      exact congrArg (fun text => some (String.ofList text)) (map_congr_left fun c _ => toLower_toLower c)
    · rw [if_neg hok] at h
      cases h
  | null | bool | int | float | arr | obj => cases h

theorem mem_of_mapM {α β : Type} {f : α → Option β} {l : List α} {m : List β} (h : l.mapM f = some m) {b : β}
    (hb : b ∈ m) : ∃ a ∈ l, f a = some b := by
  induction l generalizing m with
  | nil =>
    cases h
    cases hb
  | cons a l ih =>
    rw [mapM_cons] at h
    obtain ⟨c, hc, h⟩ := Option.bind_eq_some_iff.mp h
    obtain ⟨rest, hrest, h⟩ := Option.bind_eq_some_iff.mp h
    cases h
    rcases mem_cons.mp hb with rfl | hb
    · exact ⟨a, mem_cons_self, hc⟩
    · obtain ⟨d, hd, hf⟩ := ih hrest hb
      exact ⟨d, mem_cons_of_mem _ hd, hf⟩

theorem mem_normalizeDomains {domains : Json} {normal : List String}
    (h : normalizeDomains key domains = some normal) {domain : String} (hd : domain ∈ normal) :
    ∃ items, domains = .arr items ∧ ∃ value ∈ items, normalizeDomain key value = some domain := by
  unfold normalizeDomains at h
  cases domains with
  | null =>
    cases h
    cases hd
  | arr items =>
    dsimp only at h
    split at h
    · obtain ⟨mapped, hmap, rfl⟩ := Option.map_eq_some_iff.mp h
      rw [mem_eraseDups] at hd
      refine ⟨items, rfl, ?_⟩
      exact mem_of_mapM hmap hd
    · cases h
  | bool | int | float | str | obj => cases h

theorem normalizeCsp_eq {csp : Json} {domains : Csp} (h : normalizeCsp csp = some domains) (key : CspKey) :
    normalizeDomains key (csp.field key.name) = some (domains key) := by
  unfold normalizeCsp at h
  by_cases hok : (csp.isObj && CSP_KEYS.all fun key => (normalizeDomains key (csp.field key.name)).isSome) = true
  · rw [if_pos hok, Option.some.injEq] at h
    rw [Bool.and_eq_true, all_eq_true] at hok
    obtain ⟨value, hval⟩ := Option.isSome_iff_exists.mp (hok.2 key (by cases key <;> decide))
    rw [← h]
    dsimp only
    rw [hval]
    rfl
  · rw [if_neg hok] at h
    cases h

theorem cspJson_field (csp : Csp) (key : CspKey) : (cspJson csp).field key.name = .arr ((csp key).map Json.str) := by
  cases key with
  | connectDomains | resourceDomains | frameDomains | baseUriDomains => rfl

theorem mem_normalizeCsp_cspJson {csp approved : Csp} (h : normalizeCsp (orEmpty (cspJson csp)) = some approved)
    (hnor : ∀ domain ∈ csp key, normalizeDomain key (.str domain) = some domain) {domain : String}
    (hd : domain ∈ approved key) : domain ∈ csp key := by
  have hkey := normalizeCsp_eq h key
  have hemp : orEmpty (cspJson csp) = cspJson csp := if_neg fun hf => by cases hf
  rw [hemp, cspJson_field] at hkey
  obtain ⟨items, hite, value, hval, hv⟩ := mem_normalizeDomains hkey hd
  cases hite
  obtain ⟨old, hold, rfl⟩ := mem_map.mp hval
  rw [hnor old hold, Option.some.injEq] at hv
  rwa [← hv]

/-- Every domain and every permission of a policy is declared, and approved. -/
structure Policy.Contained (policy : Policy) (info decision : Json) : Prop where
  domains : ∀ key, ∀ domain ∈ policy.csp key,
    (∃ declared, normalizeCsp (orEmpty ((info.field "ui").field "csp")) = some declared ∧ domain ∈ declared key) ∧
      ∃ approved, normalizeCsp (orEmpty (decision.field "approvedCsp")) = some approved ∧ domain ∈ approved key
  permissions : ∀ permission ∈ policy.permissions,
    (((info.field "ui").field "permissions").field permission).isObj = true ∧
      (orEmpty (decision.field "grantedPermissions")).field permission = .bool true

theorem field_ui (info : Json) (key : String) :
    (if (info.field "ui").isObj then info.field "ui" else empty).field key = (info.field "ui").field key := by
  cases info.field "ui" with
  | null | bool | int | float | str | arr | obj => rfl

theorem clampPolicy_contained {resource : Resource} {request : PolicyRequest} {decision : Json} {policy : Policy}
    (h : clampPolicy resource request decision = some policy) : policy.Contained resource.info decision := by
  unfold clampPolicy at h
  rcases happr : normalizeCsp (orEmpty (decision.field "approvedCsp")) with _ | approval
  · rw [happr] at h
    cases h
  rw [happr] at h
  unfold effectiveResourcePolicy at h
  dsimp only at h
  rw [field_ui, field_ui] at h
  rcases hreq : normalizeCsp (orEmpty ((resource.info.field "ui").field "csp")) with _ | requested
  · rw [hreq] at h
    cases h
  rw [hreq] at h
  split at h
  · rename_i approved heq happro
    cases heq
    cases h
    constructor
    · intro key domain hd
      obtain ⟨hdec, happ⟩ := mem_filter.mp hd
      refine ⟨⟨_, hreq, hdec⟩, approval, happr, ?_⟩
      have hnor : ∀ domain ∈ (approval key).filter fun value => (request.declaredCsp key).contains value,
          normalizeDomain key (.str domain) = some domain := by
        intro domain hm
        obtain ⟨items, -, value, -, hv⟩ :=
          mem_normalizeDomains (normalizeCsp_eq happr key) (mem_of_mem_filter hm)
        exact normalizeDomain_normal hv
      exact mem_of_mem_filter (mem_normalizeCsp_cspJson happro hnor (contains_iff_mem.mp happ))
    intro permission hp
    have hboth := (mem_filter.mp hp).2
    rw [Bool.and_eq_true, decide_eq_true_eq] at hboth
    exact hboth
  · cases h

end OpenAgent.McpApps
