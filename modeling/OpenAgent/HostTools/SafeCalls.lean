import Mathlib.Data.List.DropRight
import Mathlib.Data.List.Induction
import Mathlib.Data.List.Forall2
import OpenAgent.HostTools.Classifications

namespace OpenAgent.HostTools

open Py List Json.Doc Assoc
open Gateway.Capabilities (Classification Refusal ToolManifest Catalog spelling toolName serverName normaliseTool
  normaliseTools normaliseServer normaliseServers normaliseCatalog normaliseOption normaliseRule
  normaliseClassification normaliseClassificationRules findTool)

section Refusals

variable {α β : Type} {b : β}

theorem ok_of_bind {x : Except Refusal α} {f : α → Except Refusal β} (h : x >>= f = .ok b) :
    ∃ a, x = .ok a ∧ f a = .ok b := by
  cases x with
  | error e => cases h
  | ok a => exact ⟨a, rfl, h⟩

theorem ok_of_map {x : Except Refusal α} {f : α → β} (h : x.map f = .ok b) : ∃ a, x = .ok a ∧ f a = b := by
  cases x with
  | error e => cases h
  | ok a => exact ⟨a, rfl, Except.ok.inj h⟩

theorem ok_of_guard {c : Prop} [Decidable c] {e : Refusal} {rest : PUnit → Except Refusal β}
    (h : (if c then Except.error e >>= rest else rest ⟨⟩) = .ok b) : ¬ c ∧ rest ⟨⟩ = .ok b := by
  split at h
  · cases h
  · exact ⟨‹_›, h⟩

theorem forall₂_of_mapM {f : α → Except Refusal β} {xs : List α} {ys : List β} (h : xs.mapM f = .ok ys) :
    List.Forall₂ (fun x y => f x = .ok y) xs ys := by
  induction xs generalizing ys with
  | nil =>
    cases h
    exact .nil
  | cons x xs ih =>
    rw [mapM_cons] at h
    obtain ⟨y, hy, h⟩ := ok_of_bind h
    obtain ⟨zs, hzs, h⟩ := ok_of_bind h
    cases h
    exact .cons hy (ih hzs)

theorem exists_of_forall₂ {R : α → β → Prop} {xs : List α} {ys : List β} (h : List.Forall₂ R xs ys) {y : β}
    (hy : y ∈ ys) : ∃ x ∈ xs, R x y := by
  induction h with
  | nil => cases hy
  | cons hxy _ ih =>
    rcases mem_cons.mp hy with rfl | hy
    · exact ⟨_, mem_cons_self, hxy⟩
    · obtain ⟨x, hx, hxy⟩ := ih hy
      exact ⟨x, mem_cons_of_mem _ hx, hxy⟩

end Refusals

section Strip

theorem dropWhile_rdropWhile {α : Type} (p : α → Bool) (l : List α) :
    ((l.dropWhile p).rdropWhile p).dropWhile p = (l.dropWhile p).rdropWhile p := by
  rw [dropWhile_eq_self_iff]
  intro hlen
  have hinit := rdropWhile_prefix p (l.dropWhile p)
  have hpos : 0 < (l.dropWhile p).length := hlen.trans_le hinit.length_le
  have hhead := dropWhile_eq_self_iff.mp (dropWhile_idempotent p l) hpos
  rw [hinit.getElem hlen]
  exact hhead

theorem stripChars_stripChars (cs : List Char) : stripChars (stripChars cs) = stripChars cs := by
  have hstr : ∀ l, stripChars l = (l.dropWhile isSpace).rdropWhile isSpace := fun _ => rfl
  rw [hstr, hstr, dropWhile_rdropWhile, rdropWhile_idempotent]

theorem strip_strip (s : String) : strip (strip s) = strip s := by
  rw [strip, strip, String.toList_ofList, stripChars_stripChars]

end Strip

variable {raw : Json}

section Accepted

variable {item : Json} {t : ToolManifest} {seen : List String} {items : List Json} {tools : List ToolManifest}

structure Accepts (item : Json) (t : ToolManifest) : Prop where
  isObj : item.isObj = true
  name : t.name = toolName item
  base : normaliseClassification (item.field "classification") t.name = .ok t.classification
  rules : normaliseClassificationRules (item.field "classification_by_argument") t.name = .ok t.classificationByArgument

theorem accepts_of_normaliseTool (h : normaliseTool seen item = .ok t) : Accepts item t ∧ t.name ∉ seen := by
  rw [normaliseTool] at h
  obtain ⟨hobj, h⟩ := ok_of_guard h
  obtain ⟨hname, h⟩ := ok_of_guard h
  obtain ⟨_, _, h⟩ := ok_of_bind h
  obtain ⟨_, hbase, h⟩ := ok_of_bind h
  obtain ⟨_, h⟩ := ok_of_guard h
  obtain ⟨_, hrul, h⟩ := ok_of_bind h
  obtain ⟨_, _, h⟩ := ok_of_bind h
  cases h
  refine ⟨⟨by simpa using hobj, rfl, hbase, hrul⟩, ?_⟩
  intro hseen
  exact hname (.inr (.inr (contains_iff_mem.mpr hseen)))

theorem accepts_of_normaliseTools (h : normaliseTools (.arr items) = .ok tools) :
    List.Forall₂ Accepts items tools ∧ (items.map toolName).Nodup := by
  rw [normaliseTools] at h
  split at h
  · cases h
  clear * - h
  have hall : ∀ (items : List Json) (tools : List ToolManifest), items.foldlM (fun tools item =>
      (normaliseTool (tools.map ToolManifest.name) item).map (fun t => tools ++ [t])) [] = .ok tools →
      (List.Forall₂ Accepts items tools ∧ tools.map ToolManifest.name = items.map toolName) ∧
        (items.map toolName).Nodup := by
    intro items
    induction items using List.reverseRecOn with
    | nil =>
      intro tools h
      cases h
      exact ⟨⟨.nil, rfl⟩, nodup_nil⟩
    | append_singleton items item ih =>
      intro tools h
      rw [foldlM_append] at h
      obtain ⟨before, hbef, h⟩ := ok_of_bind h
      obtain ⟨⟨hall, hnam⟩, hnod⟩ := ih before hbef
      obtain ⟨_, h, hlast⟩ := ok_of_bind h
      cases hlast
      obtain ⟨t, ht, rfl⟩ := ok_of_map h
      obtain ⟨hacc, hfre⟩ := accepts_of_normaliseTool ht
      refine ⟨⟨rel_append hall (.cons hacc .nil), ?_⟩, ?_⟩
      · rw [map_append, map_append, hnam, map_singleton, map_singleton, hacc.name]
      rw [hnam, hacc.name] at hfre
      rw [map_append, map_singleton]
      exact concat_eq_append ▸ hnod.concat hfre
  exact ⟨(hall items tools h).1.1, (hall items tools h).2⟩

variable {servers : List Json} {server : Json} {catalog : Catalog} {name : String} {so next : Catalog × Nat}

theorem tools_of_normaliseServer (h : normaliseServer so server = .ok next) : serverName server ≠ "" ∧
    so.1.get? (serverName server) = none ∧ ∃ tools, normaliseTools ((server.field "tools").orElse (.arr [])) = .ok tools ∧
      next.1 = so.1.set (serverName server) ⟨tools⟩ := by
  rw [normaliseServer] at h
  obtain ⟨_, h⟩ := ok_of_guard h
  obtain ⟨hname, h⟩ := ok_of_guard h
  obtain ⟨_, h⟩ := ok_of_guard h
  obtain ⟨_, h⟩ := ok_of_guard h
  obtain ⟨tools, htoo, h⟩ := ok_of_bind h
  obtain ⟨_, h⟩ := ok_of_guard h
  obtain ⟨_, _, h⟩ := ok_of_bind h
  cases h
  refine ⟨fun hemp => hname (.inl hemp), ?_, tools, htoo, rfl⟩
  rw [← Option.not_isSome_iff_eq_none]
  exact fun hsome => hname (.inr (.inr (.inl hsome)))

/-- What the catalog has under a name is what was made of the one server of that name. -/
structure Offered (servers : List Json) (catalog : Catalog) : Prop where
  named : ∀ s ∈ servers, serverName s ≠ ""
  distinct : (servers.map serverName).Nodup
  manifest : ∀ name m, catalog.get? name = some m → ∃ s ∈ servers, serverName s = name ∧
    normaliseTools ((s.field "tools").orElse (.arr [])) = .ok m.tools
  taken : ∀ s ∈ servers, (catalog.get? (serverName s)).isSome

theorem offered_of_normaliseServers (h : normaliseServers servers = .ok catalog) : Offered servers catalog := by
  obtain ⟨⟨catalog, count⟩, hfold, rfl⟩ := ok_of_map h
  clear h
  induction servers using List.reverseRecOn generalizing catalog count with
  | nil =>
    cases hfold
    exact ⟨by rintro _ ⟨⟩, nodup_nil, by rintro _ _ ⟨⟩, by rintro _ ⟨⟩⟩
  | append_singleton servers server ih =>
    rw [foldlM_append] at hfold
    obtain ⟨⟨before, n⟩, hbef, h⟩ := ok_of_bind hfold
    have hoff := ih before n hbef
    obtain ⟨_, h, hlast⟩ := ok_of_bind h
    cases hlast
    obtain ⟨hnam, hfre, tools, htoo, hnext⟩ := tools_of_normaliseServer h
    refine ⟨?_, ?_, fun name m hm => ?_, fun s hs => ?_⟩
    · intro s hs
      rcases mem_append.mp hs with hs | hs
      · exact hoff.named s hs
      · cases mem_singleton.mp hs
        exact hnam
    · rw [map_append, map_singleton, ← concat_eq_append]
      apply hoff.distinct.concat
      intro hmem
      obtain ⟨s, hs, hname⟩ := mem_map.mp hmem
      have hsome := hoff.taken s hs
      rw [hname, hfre] at hsome
      cases hsome
    · rw [hnext, Dict.get?_set] at hm
      split at hm
      · cases hm
        exact ⟨server, mem_append_right _ (mem_singleton_self _), ‹name = _›.symm, htoo⟩
      · obtain ⟨s, hs, hrest⟩ := hoff.manifest name m hm
        exact ⟨s, mem_append_left _ hs, hrest⟩
    · rw [hnext, Dict.get?_set]
      split
      · rfl
      rcases mem_append.mp hs with hs | hs
      · exact hoff.taken s hs
      · cases mem_singleton.mp hs
        exact absurd rfl ‹_›

theorem normaliseTools_or_empty (harr : ∀ items, raw ≠ .arr items)
    (h : normaliseTools (raw.orElse (.arr [])) = .ok tools) : tools = [] := by
  rw [Json.orElse] at h
  split at h
  · cases raw with
    | arr items => exact absurd rfl (harr items)
    | _ => cases h
  · cases h
    rfl

theorem offeredTools_of_accepted (h : normaliseTools ((server.field "tools").orElse (.arr [])) = .ok tools) :
    List.Forall₂ Accepts (offeredTools server) tools ∧ ((offeredTools server).map toolName).Nodup := by
  rw [offeredTools]
  split
  · rename_i items hite
    rw [hite] at h
    cases items with
    | nil | cons _ _ => exact accepts_of_normaliseTools h
  rename_i harr
  rw [normaliseTools_or_empty harr h]
  exact ⟨.nil, nodup_nil⟩

theorem accepts_of_findTool {tool : String} (h : Offered servers catalog) (ht : findTool catalog name tool = some t) :
    ∃ s ∈ servers, serverName s = name ∧ ((offeredTools s).map toolName).Nodup ∧
      ∃ item ∈ offeredTools s, toolName item = tool ∧ Accepts item t := by
  obtain ⟨m, hm, hfind⟩ := Option.bind_eq_some_iff.mp ht
  obtain ⟨s, hs, hname, htoo⟩ := h.manifest name m hm
  obtain ⟨hall, hnod⟩ := offeredTools_of_accepted htoo
  obtain ⟨item, hitem, hacc⟩ := exists_of_forall₂ hall (mem_of_find?_eq_some hfind)
  refine ⟨s, hs, hname, hnod, item, hitem, ?_, hacc⟩
  rw [← hacc.name]
  simpa using List.find?_some hfind

end Accepted

section Spelling

theorem normaliseClassification_cases {name : String} {k : Classification}
    (h : normaliseClassification raw name = .ok k) :
    raw = .null ∧ k = .mutating ∨ Classification.ofSpelling raw = some k := by
  rw [normaliseClassification] at h
  split at h
  · cases h
    exact .inl ⟨‹_›, rfl⟩
  split at h
  · cases h
  · cases h
    exact .inr ‹_›

theorem stripChars_of_ends {a b : Char} {cs : List Char} (ha : isSpace a = false) (hb : isSpace b = false) :
    stripChars (a :: (cs ++ [b])) = a :: (cs ++ [b]) := by
  rw [stripChars, dropWhile_cons_of_neg (by simp [ha]), reverse_cons, reverse_append,
    reverse_singleton, singleton_append, cons_append, dropWhile_cons_of_neg (by simp [hb])]
  simp

theorem mem_spelling {c : Char} (h : c ∈ (spelling raw).toList) : ∃ d ∈ raw.pyStr.toList,
    c = if lowerChar d = '-' then '_' else lowerChar d := by
  rw [spelling, String.toList_ofList] at h
  obtain ⟨l, hl, rfl⟩ := mem_map.mp h
  rw [lower, String.toList_ofList] at hl
  obtain ⟨d, hd, rfl⟩ := mem_map.mp hl
  refine ⟨d, ?_, rfl⟩
  rw [strip, String.toList_ofList, stripChars] at hd
  have hdrop := (dropWhile_sublist _).subset (mem_reverse.mp hd)
  exact (dropWhile_sublist _).subset (mem_reverse.mp hdrop)

theorem mem_spelling_of_ends {a b : Char} {cs : List Char} (hraw : raw.pyStr.toList = a :: (cs ++ [b]))
    (ha : isSpace a = false) (hb : isSpace b = false) :
    (if lowerChar a = '-' then '_' else lowerChar a) ∈ (spelling raw).toList := by
  rw [spelling, String.toList_ofList, lower, String.toList_ofList, strip, String.toList_ofList, hraw,
    stripChars_of_ends ha hb]
  exact mem_cons_self

theorem text_of_ofText {text : String} (h : Classification.ofText text ≠ none) :
    'n' ∈ text.toList ∧ '[' ∉ text.toList ∧ '\x7b' ∉ text.toList := by
  rw [Classification.ofText] at h
  split at h
  · rcases ‹text = "read_only" ∨ text = "readonly"› with rfl | rfl
    · decide
    · decide
  split at h
  · subst text
    decide
  split at h
  · subst text
    decide
  · exact absurd rfl h

theorem lowerChar_digit {d : Char} (h : d.isDigit = true) : lowerChar d = d := by
  have hran : '0' ≤ d ∧ d ≤ '9' := by simpa [Char.isDigit, Char.le_def] using h
  have hle : d.toNat ≤ 57 := hran.2
  rw [lowerChar, if_neg, if_neg]
  · omega
  rintro ⟨hlow, _⟩
  have hge : 65 ≤ d.toNat := hlow
  omega

theorem not_letter_of_digit {d : Char} (h : d.isDigit = true ∨ d = '.' ∨ d = 'e' ∨ d = '+' ∨ d = '-') :
    'n' ≠ if lowerChar d = '-' then '_' else lowerChar d := by
  rcases h with h | rfl | rfl | rfl | rfl
  · rw [lowerChar_digit h]
    split
    · decide
    · rintro rfl
      cases h
  · decide
  · decide
  · decide
  · decide

theorem not_spelling_of_number (hn : 'n' ∈ (spelling raw).toList) (h : ∀ d ∈ raw.pyStr.toList,
    d.isDigit = true ∨ d = '.' ∨ d = 'e' ∨ d = '+' ∨ d = '-') : False := by
  obtain ⟨d, hd, hnd⟩ := mem_spelling hn
  exact not_letter_of_digit (h d hd) hnd

theorem toList_toString (n : Int) : (toString n).toList = Json.intText n := by
  cases n with
  | ofNat m => exact String.toList_ofList
  | negSucc m =>
    change ("-" ++ String.ofList (Nat.toDigits 10 (m + 1))).toList = _
    rw [String.toList_append, String.toList_ofList, String.toList_ofList]
    rfl

theorem float_chars {f : PyFloat} (hword : f.repr ≠ "inf" ∧ f.repr ≠ "-inf" ∧ f.repr ≠ "nan") : ∀ d ∈ f.repr.toList,
    d.isDigit = true ∨ d = '.' ∨ d = 'e' ∨ d = '+' ∨ d = '-' := by
  have hsha := f.shape
  obtain ⟨h1, h2, h3⟩ := hword
  simp only [isFloatRepr, Bool.or_eq_true, beq_iff_eq, h1, h2, h3, false_or, Bool.and_eq_true, all_eq_true] at hsha
  intro d hd
  rcases hsha.1 d hd with (((hd | hd) | hd) | hd) | hd
  · exact .inl hd
  · exact .inr (.inl hd)
  · exact .inr (.inr (.inl hd))
  · exact .inr (.inr (.inr (.inl hd)))
  · exact .inr (.inr (.inr (.inr hd)))

theorem ofSpelling_float (f : PyFloat) : Classification.ofSpelling (.float f) = none := by
  by_contra h
  have hspe : Classification.ofSpelling (.float f) = Classification.ofSpelling (.str f.repr) := rfl
  refine not_spelling_of_number (text_of_ofText h).1 (float_chars ⟨?_, ?_, ?_⟩)
  · intro hword
    rw [hspe, hword] at h
    exact h (by decide)
  · intro hword
    rw [hspe, hword] at h
    exact h (by decide)
  intro hword
  rw [hspe, hword] at h
  exact h (by decide)

theorem isStr_of_ofSpelling (h : Classification.ofSpelling raw ≠ none) : ∃ s, raw = .str s := by
  obtain ⟨hn, harr, hobj⟩ := text_of_ofText h
  cases raw with
  | str s => exact ⟨s, rfl⟩
  | null => exact absurd (by decide) h
  | bool b =>
    cases b with
    | false | true => exact absurd (by decide) h
  | int n =>
    refine (not_spelling_of_number hn (fun d hd => ?_)).elim
    have hd : d ∈ (toString n).toList := hd
    rw [toList_toString] at hd
    rcases Json.mem_intText hd with hd | hd
    · exact .inl hd
    · exact .inr (.inr (.inr (.inr hd)))
  | float f => exact absurd (ofSpelling_float f) h
  | arr items =>
    have hraw : (Json.arr items).pyStr.toList = '[' :: ((", ".intercalate (Json.reprList items)).toList ++ [']']) := by
      rw [Json.pyStr, Json.repr, String.toList_append, String.toList_append]
      · rfl
      · rintro _ ⟨⟩
    exact absurd (mem_spelling_of_ends hraw rfl rfl) harr
  | obj entries =>
    have hraw : (Json.obj entries).pyStr.toList
        = '\x7b' :: ((", ".intercalate (Json.reprEntries entries)).toList ++ ['\x7d']) := by
      rw [Json.pyStr, Json.repr, String.toList_append, String.toList_append]
      · rfl
      · rintro _ ⟨⟩
    exact absurd (mem_spelling_of_ends hraw rfl rfl) hobj

end Spelling

section Selected

variable {item args : Json} {t : ToolManifest} {name : String}

def selectedBy (args : Json) (rule : String × Json) : Option Json :=
  match args.field rule.1, rule.2 with
  | .str value, .obj options => Assoc.get? options value
  | _, _ => none

def selected (tool args : Json) : List Json :=
  match tool.field "classification_by_argument" with
  | .obj rules => rules.filterMap (selectedBy args)
  | _ => []

theorem get?_options {options : List (String × Json)} {normal : List (String × Classification)}
    (h : List.Forall₂ (fun x y => normaliseOption name x = .ok y) options normal) (value : String) :
    (Assoc.get? options value).map Classification.ofSpelling = (Assoc.get? normal value).map some := by
  induction h with
  | nil => rfl
  | @cons x y _ _ hxy _ ih =>
    rw [normaliseOption] at hxy
    split at hxy
    · cases hxy
    split at hxy
    · cases hxy
    cases hxy
    rename_i classification hspe
    rw [get?_cons, get?_cons]
    split
    · exact congrArg some hspe
    · exact ih

theorem selectedBy_of_normaliseRule {rule : String × Json} {normal : String × List (String × Classification)}
    (h : normaliseRule name rule = .ok normal) (args : Json) :
    (selectedBy args rule).map Classification.ofSpelling = (Gateway.Capabilities.matchedRule args normal).map some := by
  rw [normaliseRule] at h
  split at h
  · rename_i options hopt
    split at h
    · cases h
    obtain ⟨normals, hnor, rfl⟩ := ok_of_map h
    rw [selectedBy, hopt, Gateway.Capabilities.matchedRule]
    cases args.field rule.1 with
    | str value => exact get?_options (forall₂_of_mapM hnor) value
    | _ => rfl
  · cases h

theorem selected_of_normaliseRules {rules : List (String × List (String × Classification))}
    (h : normaliseClassificationRules (item.field "classification_by_argument") name = .ok rules) (args : Json) :
    (selected item args).map Classification.ofSpelling =
      (rules.filterMap (Gateway.Capabilities.matchedRule args)).map some := by
  rw [selected]
  cases hfie : item.field "classification_by_argument" with
  | obj raw =>
    rw [hfie] at h
    have hall := forall₂_of_mapM h
    clear h hfie
    dsimp only
    induction hall with
    | nil => rfl
    | @cons rule normal _ _ hrule _ ih =>
      have hone := selectedBy_of_normaliseRule hrule args
      rw [filterMap_cons, filterMap_cons]
      cases hraw : selectedBy args rule with
      | none =>
        rw [hraw] at hone
        rw [Option.map_eq_none_iff.mp hone.symm]
        exact ih
      | some c =>
        rw [hraw] at hone
        obtain ⟨k, hk, hck⟩ := Option.map_eq_some_iff.mp hone.symm
        rw [hk]
        exact congrArg₂ List.cons hck.symm ih
  | null =>
    rw [hfie] at h
    cases h
    rfl
  | _ =>
    rw [hfie] at h
    cases h

end Selected

section Fold

variable {α : Type} (risk : α → Nat)

theorem foldl_riskiest (c : α) (cs : List α) : (cs.foldl (fun a b => if risk a < risk b then b else a) c) ∈ c :: cs ∧
      ∀ x ∈ c :: cs, risk x ≤ risk (cs.foldl (fun a b => if risk a < risk b then b else a) c) := by
  induction cs generalizing c with
  | nil => exact ⟨mem_singleton_self c, by simp⟩
  | cons d cs ih =>
    rw [foldl_cons]
    by_cases h : risk c < risk d
    · rw [if_pos h]
      obtain ⟨hmem, hall⟩ := ih d
      refine ⟨mem_cons_of_mem _ hmem, fun x hx => ?_⟩
      rcases mem_cons.mp hx with rfl | hx
      · exact (Nat.le_of_lt h).trans (hall d mem_cons_self)
      · exact hall x hx
    rw [if_neg h]
    obtain ⟨hmem, hall⟩ := ih c
    refine ⟨?_, fun x hx => ?_⟩
    · rcases mem_cons.mp hmem with hmem | hmem
      · rw [hmem]
        exact mem_cons_self
      · exact mem_cons_of_mem _ (mem_cons_of_mem _ hmem)
    rcases mem_cons.mp hx with rfl | hx
    · exact hall x mem_cons_self
    rcases mem_cons.mp hx with rfl | hx
    · exact (Nat.le_of_not_lt h).trans (hall c mem_cons_self)
    · exact hall x (mem_cons_of_mem _ hx)

theorem foldl_riskiest_eq_iff {top c : α} {cs : List α} (htop : ∀ x ∈ c :: cs, risk top ≤ risk x → x = top) :
    cs.foldl (fun a b => if risk a < risk b then b else a) c = top ↔ top ∈ c :: cs := by
  obtain ⟨hmem, hall⟩ := foldl_riskiest risk c cs
  constructor
  · intro h
    rw [← h]
    exact hmem
  · exact fun h => htop _ hmem (hall top h)

end Fold

section Verdicts

variable {item args : Json} {t : ToolManifest}

theorem gateway_mutating_iff (h : Accepts item t) (args : Json) :
    Gateway.Capabilities.classificationForArguments t args = .mutating ↔
      (selected item args = [] ∧ t.classification = .mutating) ∨
        ∃ c ∈ selected item args, Classification.ofSpelling c = some .mutating := by
  have hsel := selected_of_normaliseRules h.rules args
  have hmem : (∃ c ∈ selected item args, Classification.ofSpelling c = some .mutating) ↔
      Classification.mutating ∈ t.classificationByArgument.filterMap (Gateway.Capabilities.matchedRule args) := by
    rw [← mem_map_of_injective (Option.some_injective _), ← hsel, mem_map]
  rw [hmem, Gateway.Capabilities.classificationForArguments]
  cases hmat : t.classificationByArgument.filterMap (Gateway.Capabilities.matchedRule args) with
  | nil =>
    rw [hmat] at hsel
    have hnone : selected item args = [] := map_eq_nil_iff.mp hsel
    simp [hnone]
  | cons c cs =>
    rw [hmat] at hsel
    have hsome : selected item args ≠ [] := by
      intro hnone
      rw [hnone] at hsel
      cases hsel
    simp only [hsome, false_and, false_or]
    apply foldl_riskiest_eq_iff Classification.risk
    intro x _ hx
    cases x with
    | mutating => rfl
    | readOnly | idempotent => exact absurd hx (by decide)

def exactSpelling (c : Json) : Option String := if classifications.contains c.pyStr then some c.pyStr else none

theorem mem_of_exactSpelling {c : Json} {text : String} (h : exactSpelling c = some text) :
    text ∈ classifications ∧ c.pyStr = text := by
  rw [exactSpelling] at h
  split at h
  · cases h
    exact ⟨contains_iff_mem.mp ‹_›, rfl⟩
  · cases h

theorem local_mutating_iff {base : String} {rules : List (String × List (String × String))}
    (h : rules.filterMap (matchedOption args) = (selected item args).filterMap exactSpelling) :
    classificationForArguments base rules args = "mutating" ↔
      ((∀ c ∈ selected item args, exactSpelling c = none) ∧ base ≠ "read_only" ∧ base ≠ "idempotent") ∨
        ∃ c ∈ selected item args, exactSpelling c = some "mutating" := by
  rw [classificationForArguments, h, ← mem_filterMap]
  cases hexa : (selected item args).filterMap exactSpelling with
  | nil =>
    have hnone := filterMap_eq_nil_iff.mp hexa
    have hbase : (if classifications.contains base then base else "mutating") = "mutating" ↔
        base ≠ "read_only" ∧ base ≠ "idempotent" := by
      by_cases hkno : classifications.contains base = true
      · rw [if_pos hkno]
        have hmem : base ∈ classifications := contains_iff_mem.mp hkno
        rcases mem_cons.mp hmem with rfl | hmem
        · decide
        rcases mem_cons.mp hmem with rfl | hmem
        · decide
        · cases mem_singleton.mp hmem
          decide
      rw [if_neg hkno]
      refine iff_of_true rfl ⟨?_, ?_⟩
      · rintro rfl
        exact hkno (by decide)
      · rintro rfl
        exact hkno (by decide)
    rw [hbase]
    exact ⟨fun h => .inl ⟨hnone, h⟩, fun h => h.elim And.right (by rintro ⟨⟩)⟩
  | cons c cs =>
    have hsome : ¬ ∀ d ∈ selected item args, exactSpelling d = none := by
      intro hnone
      rw [filterMap_eq_nil_iff.mpr hnone] at hexa
      cases hexa
    simp only [hsome, false_and, false_or]
    apply foldl_riskiest_eq_iff riskOf
    intro x hx hrisk
    rw [← hexa] at hx
    obtain ⟨d, _, hd⟩ := mem_filterMap.mp hx
    have hmem := (mem_of_exactSpelling hd).1
    rcases mem_cons.mp hmem with rfl | hmem
    · exact absurd hrisk (by decide)
    rcases mem_cons.mp hmem with rfl | hmem
    · exact absurd hrisk (by decide)
    · exact mem_singleton.mp hmem

end Verdicts

section Tables

variable {κ α : Type} [DecidableEq κ] {entries : List (κ × α)} {k : κ}

theorem get?_dictOf_concat (entries : List (κ × α)) (e : κ × α) (k : κ) :
    (dictOf (entries ++ [e])).get? k = if k = e.1 then some e.2 else (dictOf entries).get? k := by
  rw [dictOf, foldl_append]
  exact Dict.get?_set _ _ _ _

theorem get?_dictOf_none (h : ∀ e ∈ entries, e.1 ≠ k) : (dictOf entries).get? k = none := by
  induction entries using List.reverseRecOn with
  | nil => rfl
  | append_singleton entries e ih =>
    rw [get?_dictOf_concat, if_neg (Ne.symm (h e (by simp)))]
    exact ih (fun e' he' => h e' (mem_append_left _ he'))

theorem get?_dictOf {v : α} (h : ∀ e ∈ entries, e.1 = k → e.2 = v) (hk : ∃ e ∈ entries, e.1 = k) :
    (dictOf entries).get? k = some v := by
  induction entries using List.reverseRecOn with
  | nil =>
    obtain ⟨_, ⟨⟩, _⟩ := hk
  | append_singleton entries e ih =>
    rw [get?_dictOf_concat]
    split
    · rw [h e (by simp) ‹k = e.1›.symm]
    obtain ⟨e', he', hke'⟩ := hk
    rcases mem_append.mp he' with he' | he'
    · exact ih (fun d hd => h d (mem_append_left _ hd)) ⟨e', he', hke'⟩
    · cases mem_singleton.mp he'
      exact absurd hke'.symm ‹_›

theorem get?_wired {options : List (String × Json)} (hn : (options.map Prod.fst).Nodup) (value : String) :
    Assoc.get? ((options.filter (fun o => classifications.contains o.2.pyStr)).map (fun o => (o.1, o.2.pyStr))) value =
      (Assoc.get? options value).bind exactSpelling := by
  induction options with
  | nil => rfl
  | cons o options ih =>
    rw [map_cons, nodup_cons] at hn
    rw [get?_cons, filter_cons]
    by_cases hkno : classifications.contains o.2.pyStr = true
    · rw [if_pos hkno, map_cons, get?_cons]
      by_cases ho : o.1 = value
      · rw [if_pos ho, if_pos ho, Option.bind_some, exactSpelling, if_pos hkno]
      · rw [if_neg ho, if_neg ho]
        exact ih hn.2
    rw [if_neg hkno]
    by_cases ho : o.1 = value
    · rw [if_pos ho, Option.bind_some, exactSpelling, if_neg hkno, get?_eq_none_iff]
      intro hmem
      obtain ⟨o', ho', rfl⟩ := mem_map.mp hmem
      obtain ⟨o'', ho'', rfl⟩ := mem_map.mp ho'
      exact hn.1 (ho ▸ mem_map_of_mem (mem_filter.mp ho'').1)
    · rw [if_neg ho]
      exact ih hn.2

theorem distinct_field {j : Json} (h : j.KeysDistinct) (key : String) : (j.field key).KeysDistinct := by
  cases j with
  | obj entries =>
    change ((get? entries key).getD .null).KeysDistinct
    cases hget : get? entries key with
    | none => trivial
    | some value => exact (Json.everywhereEntries_iff entries).mp h.2 _ (mem_of_get? hget)
  | _ => trivial

theorem distinct_offered {server item : Json} (h : server.KeysDistinct) (hitem : item ∈ offeredTools server) :
    item.KeysDistinct := by
  have htoo := distinct_field h "tools"
  rw [offeredTools] at hitem
  split at hitem
  · rename_i items hite
    rw [hite] at htoo
    change Json.EverywhereList _ items at htoo
    clear hite
    induction items with
    | nil => cases hitem
    | cons first items ih =>
      rcases mem_cons.mp hitem with rfl | hitem
      · exact htoo.1
      · exact ih hitem htoo.2
  · cases hitem

theorem matched_wired {item : Json} (h : item.KeysDistinct) (args : Json) :
    (wireClassificationRules (item.field "classification_by_argument")).filterMap (matchedOption args) =
      (selected item args).filterMap exactSpelling := by
  have hrul := distinct_field h "classification_by_argument"
  rw [selected]
  cases hfie : item.field "classification_by_argument" with
  | obj rules =>
    rw [hfie] at hrul
    rw [wireClassificationRules, filterMap_filterMap]
    rw [filterMap_filterMap]
    apply filterMap_congr
    intro rule hrule
    have hopt := (Json.everywhereEntries_iff rules).mp hrul.2 rule hrule
    obtain ⟨argument, raw⟩ := rule
    rw [selectedBy]
    cases raw with
    | obj options =>
      rw [Option.bind_some, matchedOption]
      cases args.field argument with
      | str value => exact get?_wired hopt.1 value
      | _ => rfl
    | _ =>
      cases args.field argument with
      | str value => rfl
      | _ => rfl
  | _ => rfl

end Tables

section Hosts

variable {servers : List Json} {catalog : Catalog} {server tool : String} {t : ToolManifest} {item s : Json} {args : Json}

structure Original (servers : List Json) (server tool : String) (s item : Json) : Prop where
  serverMem : s ∈ servers
  serverGiven : server ≠ ""
  serverNodup : (servers.map serverName).Nodup
  serverNamed : serverName s = server
  toolMem : item ∈ offeredTools s
  toolNodup : ((offeredTools s).map toolName).Nodup
  toolNamed : toolName item = tool

theorem original_of_findTool (h : Offered servers catalog) (ht : findTool catalog server tool = some t) :
    ∃ s item, Original servers server tool s item ∧ Accepts item t := by
  obtain ⟨s, hs, hser, htoo, item, hitem, htool, hacc⟩ := accepts_of_findTool h ht
  exact ⟨s, item, ⟨hs, hser ▸ h.named s hs, h.distinct, hser, hitem, htoo, htool⟩, hacc⟩

section

variable (h : Original servers server tool s item)

include h

theorem Original.server_eq {s' : Json} (hs : s' ∈ servers) (hname : serverName s' = server) : s' = s :=
  inj_on_of_nodup_map h.serverNodup hs h.serverMem (hname.trans h.serverNamed.symm)

theorem Original.item_eq {item' : Json} (hitem : item' ∈ offeredTools s)
    (hname : toolName item' = tool) : item' = item :=
  inj_on_of_nodup_map h.toolNodup hitem h.toolMem (hname.trans h.toolNamed.symm)

theorem Original.strip_server : strip server = server := by
  rw [← h.serverNamed]
  exact strip_strip _

theorem Original.strip_tool : strip tool = tool := by
  rw [← h.toolNamed]
  exact strip_strip _

theorem Original.entry {e : ToolKey × Json} (he : e ∈ toolEntries servers)
    (hkey : e.1 = (server, tool)) : e.2 = item := by
  obtain ⟨s', hs', he⟩ := mem_flatMap.mp he
  obtain ⟨item', hitem', rfl⟩ := mem_map.mp he
  obtain ⟨hser, htool⟩ := Prod.mk.inj hkey
  have hs : serverName s' = server := (congrArg strip hser).trans h.strip_server
  cases h.server_eq (mem_filter.mp hs').1 hs
  exact h.item_eq (mem_filter.mp hitem').1 ((congrArg strip htool).trans h.strip_tool)

end

theorem wire_of_falsy {value : Json} (h : value.truthy = false) : wireClassificationRules value = [] := by
  cases value with
  | obj rules =>
    cases rules with
    | nil => rfl
    | cons rule rules => cases h
  | _ => rfl

theorem Original.local_cases (h : Original servers server tool s item) (args : Json) :
    (((server, tool), item) ∈ toolEntries servers ∧ (installCatalog servers).toolClassification server tool args =
      classificationForArguments (baseClassification item)
        (wireClassificationRules (item.field "classification_by_argument")) args) ∨
    ((∀ e ∈ toolEntries servers, e.1 ≠ (server, tool)) ∧
      (installCatalog servers).toolClassification server tool args = "mutating") := by
  by_cases hkey : ∃ e ∈ toolEntries servers, e.1 = (server, tool)
  · obtain ⟨e, he, hek⟩ := hkey
    have hitem := h.entry he hek
    have hmem : ((server, tool), item) ∈ toolEntries servers := by
      rw [← hek, ← hitem]
      exact he
    refine .inl ⟨hmem, ?_⟩
    have hbase : (installCatalog servers).toolClassifications.get? (server, tool) = some (baseClassification item) := by
      apply get?_dictOf
      · intro d hd hdk
        obtain ⟨e, he, rfl⟩ := mem_map.mp hd
        exact congrArg baseClassification (h.entry he hdk)
      · exact ⟨_, mem_map_of_mem hmem, rfl⟩
    have hrul : ((installCatalog servers).toolClassificationRules.get? (server, tool)).getD [] =
        wireClassificationRules (item.field "classification_by_argument") := by
      by_cases htru : (item.field "classification_by_argument").truthy = true
      · have hsome : (installCatalog servers).toolClassificationRules.get? (server, tool) =
            some (wireClassificationRules (item.field "classification_by_argument")) := by
          apply get?_dictOf
          · intro d hd hdk
            obtain ⟨e, he, rfl⟩ := mem_map.mp hd
            rw [← h.entry (mem_filter.mp he).1 hdk]
          · exact ⟨_, mem_map_of_mem (mem_filter.mpr ⟨hmem, htru⟩), rfl⟩
        rw [hsome]
        rfl
      have hnone : (installCatalog servers).toolClassificationRules.get? (server, tool) = none := by
        apply get?_dictOf_none
        intro d hd hdk
        obtain ⟨e, he, rfl⟩ := mem_map.mp hd
        obtain ⟨he, hrul⟩ := mem_filter.mp he
        rw [h.entry he hdk] at hrul
        exact htru hrul
      rw [hnone, wire_of_falsy (by simpa using htru)]
      rfl
    rw [LocalCatalog.toolClassification, hbase, hrul]
    rfl
  · simp only [not_exists, not_and] at hkey
    refine .inr ⟨hkey, ?_⟩
    have hbase : (installCatalog servers).toolClassifications.get? (server, tool) = none := by
      apply get?_dictOf_none
      intro d hd
      obtain ⟨e, he, rfl⟩ := mem_map.mp hd
      exact hkey e he
    have hrul : (installCatalog servers).toolClassificationRules.get? (server, tool) = none := by
      apply get?_dictOf_none
      intro d hd
      obtain ⟨e, he, rfl⟩ := mem_map.mp hd
      exact hkey e (mem_filter.mp he).1
    rw [LocalCatalog.toolClassification, hbase, hrul]
    rfl

theorem Original.desktop_cases (h : Original servers server tool s item) :
    Desktop.toolManifest servers server tool = some item ∨ Desktop.toolManifest servers server tool = none := by
  rw [Desktop.toolManifest]
  cases hs : servers.find? (fun s => s.field "name" = .str server) with
  | none => exact .inr rfl
  | some s' =>
    have hname : s'.field "name" = .str server := by simpa using List.find?_some hs
    have hser : serverName s' = server := by
      rw [serverName, hname, Json.orElse, if_pos (by simpa [Json.truthy] using h.serverGiven)]
      exact h.strip_server
    cases h.server_eq (mem_of_find?_eq_some hs) hser
    rw [Option.bind_some]
    cases hitem : (offeredTools s).find? (fun t => t.field "name" = .str tool) with
    | none => exact .inr rfl
    | some item' =>
      have hname : item'.field "name" = .str tool := by simpa using List.find?_some hitem
      have htool : toolName item' = tool := by
        rw [toolName, Gateway.Capabilities.textOrEmpty, hname, Json.orElse]
        split
        · exact h.strip_tool
        rename_i hfal
        have hemp : tool = "" := by simpa [Json.truthy] using hfal
        rw [hemp]
        rfl
      cases h.item_eq (mem_of_find?_eq_some hitem) htool
      exact .inl rfl

end Hosts

section Desktop

variable {item args : Json} {t : ToolManifest}

theorem mem_objectEntries {entries : List (String × Json)} {e : String × Json} :
    e ∈ Desktop.objectEntries (.obj entries) ↔ e ∈ entries := by
  rw [Desktop.objectEntries, mem_append, mem_mergeSort, mem_filter, mem_filter, ← and_or_left]
  refine and_iff_left ?_
  cases Desktop.arrayIndex e.1 with
  | none => exact .inr rfl
  | some n => exact .inl rfl

variable {x : String}

theorem desktop_matched_iff {rule : String × Json} :
    Desktop.matchedOption args rule = some x ↔ selectedBy args rule = some (.str x) := by
  obtain ⟨argument, raw⟩ := rule
  rw [Desktop.matchedOption, selectedBy]
  cases args.field argument with
  | str value =>
    cases raw with
    | obj options =>
      dsimp only [Json.field]
      cases get? options value with
      | none => simp
      | some c => cases c <;> simp
    | _ => simp [Json.field]
  | _ => simp

theorem mem_desktop_iff :
    x ∈ (Desktop.objectEntries (item.field "classification_by_argument")).filterMap (Desktop.matchedOption args) ↔
      .str x ∈ selected item args := by
  rw [selected]
  cases item.field "classification_by_argument" with
  | obj rules =>
    rw [mem_filterMap, mem_filterMap]
    simp only [mem_objectEntries, desktop_matched_iff]
  | _ => simp [Desktop.objectEntries]

theorem risk_le {n : Nat} (h : Desktop.risk x = some n) : n ≤ 2 := by
  rw [Desktop.risk] at h
  split_ifs at h <;> cases h <;> decide

theorem desktop_fold {c : String} {cs : List String} (hall : ∀ x ∈ c :: cs, (Desktop.risk x).isSome)
    (htop : ∃ x ∈ c :: cs, Desktop.risk x = some 2) :
    Desktop.risk (cs.foldl (fun mostRestrictive candidate =>
      if Desktop.riskier candidate mostRestrictive then candidate else mostRestrictive) c) = some 2 := by
  induction cs generalizing c with
  | nil =>
    obtain ⟨x, hx, hrisk⟩ := htop
    cases mem_singleton.mp hx
    exact hrisk
  | cons d cs ih =>
    obtain ⟨n, hn⟩ := Option.isSome_iff_exists.mp (hall c mem_cons_self)
    obtain ⟨m, hm⟩ := Option.isSome_iff_exists.mp (hall d (mem_cons_of_mem _ mem_cons_self))
    have hle := risk_le hn
    have hrest : ∀ x ∈ cs, (Desktop.risk x).isSome :=
      fun x hx => hall x (mem_cons_of_mem _ (mem_cons_of_mem _ hx))
    have hris : Desktop.riskier d c = decide (n < m) := by rw [Desktop.riskier, hn, hm]
    rw [foldl_cons, hris]
    obtain ⟨x, hx, hrisk⟩ := htop
    by_cases hlt : n < m
    · rw [if_pos (decide_eq_true hlt)]
      apply ih
      · intro y hy
        rcases mem_cons.mp hy with rfl | hy
        · rw [hm]
          rfl
        · exact hrest y hy
      rcases mem_cons.mp hx with rfl | hx
      · rw [hn] at hrisk
        cases hrisk
        exact absurd (risk_le hm) (Nat.not_le.mpr hlt)
      · exact ⟨x, hx, hrisk⟩
    rw [if_neg (by simpa using hlt)]
    apply ih
    · intro y hy
      rcases mem_cons.mp hy with rfl | hy
      · rw [hn]
        rfl
      · exact hrest y hy
    rcases mem_cons.mp hx with rfl | hx
    · exact ⟨x, mem_cons_self, hrisk⟩
    rcases mem_cons.mp hx with rfl | hx
    · rw [hm] at hrisk
      cases hrisk
      have htwo : n = 2 := by omega
      exact ⟨c, mem_cons_self, hn.trans (congrArg some htwo)⟩
    · exact ⟨x, mem_cons_of_mem _ hx, hrisk⟩

theorem not_safe_of_mutating {text : String} (h : Classification.ofSpelling (.str text) = some .mutating) :
    text ≠ "read_only" ∧ text ≠ "idempotent" := by
  refine ⟨?_, ?_⟩
  · rintro rfl
    exact absurd h (by decide)
  · rintro rfl
    exact absurd h (by decide)

theorem not_inherited (h : Classification.ofSpelling (.str x) ≠ none) : ¬ Desktop.inherited.contains x = true := by
  intro hmem
  have hall : ∀ y ∈ Desktop.inherited, Classification.ofSpelling (.str y) = none := by decide
  exact h (hall x (contains_iff_mem.mp hmem))

theorem risk_of_accepted (h : Classification.ofSpelling (.str x) ≠ none) : (Desktop.risk x).isSome := by
  rw [Desktop.risk]
  split
  · rfl
  split
  · rfl
  split
  · rfl
  · rw [if_neg (not_inherited h)]
    rfl

theorem risk_of_mutating (h : Classification.ofSpelling (.str x) = some .mutating) : Desktop.risk x = some 2 := by
  rw [Desktop.risk]
  split
  · rename_i hx
    rw [hx] at h
    exact absurd h (by decide)
  split
  · rename_i hx
    rw [hx] at h
    exact absurd h (by decide)
  split
  · rfl
  · exact if_neg (not_inherited (h ▸ Option.some_ne_none Classification.mutating))

theorem accepted_of_selected (h : Accepts item t) {c : Json} (hc : c ∈ selected item args) :
    Classification.ofSpelling c ≠ none := by
  have hsel := selected_of_normaliseRules h.rules args
  have hmem := mem_map_of_mem hc (f := Classification.ofSpelling)
  rw [hsel] at hmem
  obtain ⟨k, _, hk⟩ := mem_map.mp hmem
  rw [← hk]
  exact Option.some_ne_none k

theorem desktop_strict (h : Accepts item t)
    (hmut : Gateway.Capabilities.classificationForArguments t args = .mutating) {safe : String}
    (hsafe : safe = "read_only" ∨ safe = "idempotent") :
    Desktop.classificationForArguments (some item) args ≠ .str safe := by
  rw [Desktop.classificationForArguments]
  dsimp only [Option.map_some, Option.getD_some]
  cases hmat : (Desktop.objectEntries (item.field "classification_by_argument")).filterMap
      (Desktop.matchedOption args) with
  | nil =>
    have hnone : ∀ c ∈ selected item args, False := by
      intro c hc
      obtain ⟨x, rfl⟩ := isStr_of_ofSpelling (accepted_of_selected h hc)
      have hx := mem_desktop_iff.mpr hc
      rw [hmat] at hx
      cases hx
    rcases (gateway_mutating_iff h args).mp hmut with ⟨_, hbase⟩ | ⟨c, hc, _⟩
    · intro hfie
      dsimp only at hfie
      rcases normaliseClassification_cases (hbase ▸ h.base) with ⟨hnull, _⟩ | hspe
      · rw [hnull] at hfie
        cases hfie
      rw [hfie] at hspe
      rcases hsafe with rfl | rfl
      · exact (not_safe_of_mutating hspe).1 rfl
      · exact (not_safe_of_mutating hspe).2 rfl
    · exact (hnone c hc).elim
  | cons c cs =>
    have hall : ∀ x ∈ c :: cs, (Desktop.risk x).isSome := by
      intro x hx
      rw [← hmat] at hx
      exact risk_of_accepted (accepted_of_selected h (mem_desktop_iff.mp hx))
    have htop : ∃ x ∈ c :: cs, Desktop.risk x = some 2 := by
      rcases (gateway_mutating_iff h args).mp hmut with ⟨hnone, _⟩ | ⟨d, hd, hspe⟩
      · have hc : c ∈ c :: cs := mem_cons_self
        rw [← hmat, mem_desktop_iff, hnone] at hc
        cases hc
      obtain ⟨x, rfl⟩ := isStr_of_ofSpelling (accepted_of_selected h hd)
      refine ⟨x, ?_, risk_of_mutating hspe⟩
      rw [← hmat]
      exact mem_desktop_iff.mpr hd
    intro heq
    have hrisk := desktop_fold hall htop
    rw [Json.str.inj heq] at hrisk
    rcases hsafe with rfl | rfl
    · cases hrisk
    · cases hrisk

end Desktop

section Safe

variable {item args : Json} {t : ToolManifest}

/-- The arguments select "mutating" in another spelling only, and the tool is safe by another of their rules or by
its own classification, spelled as the protocol has them. -/
structure Hidden (item args : Json) : Prop where
  mutating : ∃ c ∈ selected item args, Classification.ofSpelling c = some .mutating
  unspelled : ∀ c ∈ selected item args, c.pyStr ≠ "mutating"
  safe : (∃ c ∈ selected item args, c.pyStr = "read_only" ∨ c.pyStr = "idempotent") ∨
    baseClassification item = "read_only" ∨ baseClassification item = "idempotent"

theorem exactSpelling_of_mem {c : Json} (h : c.pyStr ∈ classifications) : exactSpelling c = some c.pyStr := by
  rw [exactSpelling, if_pos (contains_iff_mem.mpr h)]

theorem baseClassification_strict (h : Accepts item t) (hbase : t.classification = .mutating) :
    baseClassification item ≠ "read_only" ∧ baseClassification item ≠ "idempotent" := by
  rw [baseClassification]
  rcases normaliseClassification_cases (hbase ▸ h.base) with ⟨hfie, _⟩ | hspe
  · rw [hfie]
    exact ⟨by decide, by decide⟩
  obtain ⟨text, hfie⟩ := isStr_of_ofSpelling (hspe ▸ Option.some_ne_none Classification.mutating)
  rw [hfie] at hspe ⊢
  rw [Json.orElse]
  split
  · exact not_safe_of_mutating hspe
  · exact ⟨by decide, by decide⟩

/-- The client takes for safe what the gateway takes for mutating exactly where that is hidden. -/
theorem local_strict_iff (h : Accepts item t) (hd : item.KeysDistinct) (args : Json) :
    (Gateway.Capabilities.classificationForArguments t args = .mutating →
      classificationForArguments (baseClassification item)
        (wireClassificationRules (item.field "classification_by_argument")) args = "mutating") ↔ ¬ Hidden item args := by
  rw [gateway_mutating_iff h, local_mutating_iff (matched_wired hd args)]
  constructor
  · intro hstr hidden
    rcases hstr (.inr hidden.mutating) with ⟨hnone, hread, hide⟩ | ⟨c, hc, hexa⟩
    · rcases hidden.safe with ⟨c, hc, hsafe⟩ | hsafe | hsafe
      · have hmem : c.pyStr ∈ classifications := by
          rcases hsafe with hsafe | hsafe
          · rw [hsafe]
            decide
          · rw [hsafe]
            decide
        have hexa := exactSpelling_of_mem hmem
        rw [hnone c hc] at hexa
        cases hexa
      · exact hread hsafe
      · exact hide hsafe
    · exact hidden.unspelled c hc (mem_of_exactSpelling hexa).2
  rintro hhid (⟨hnone, hbase⟩ | hmut)
  · refine .inl ⟨?_, baseClassification_strict h hbase⟩
    rw [hnone]
    rintro _ ⟨⟩
  by_cases hspe : ∃ c ∈ selected item args, exactSpelling c = some "mutating"
  · exact .inr hspe
  have huns : ∀ c ∈ selected item args, c.pyStr ≠ "mutating" := by
    intro c hc htext
    have hexa := exactSpelling_of_mem (c := c) (by rw [htext]; decide)
    exact hspe ⟨c, hc, hexa.trans (congrArg some htext)⟩
  have hnos := fun hsafe => hhid ⟨hmut, huns, hsafe⟩
  refine .inl ⟨fun c hc => ?_, fun hbase => hnos (.inr (.inl hbase)), fun hbase => hnos (.inr (.inr hbase))⟩
  cases hexa : exactSpelling c with
  | none => rfl
  | some text =>
    obtain ⟨hmem, rfl⟩ := mem_of_exactSpelling hexa
    rcases mem_cons.mp hmem with htext | hmem
    · exact (hnos (.inl ⟨c, hc, .inl htext⟩)).elim
    rcases mem_cons.mp hmem with htext | hmem
    · exact (hnos (.inl ⟨c, hc, .inr htext⟩)).elim
    · exact (huns c hc (mem_singleton.mp hmem)).elim

/-- What the gateway takes for mutating neither host takes for safe, exactly where no tool that is offered under the
very names of the call hides it. -/
theorem hosts_strict_iff {servers : List Json.Doc} {catalog : Catalog}
    (h : normaliseServers (servers.map Json.Doc.json) = .ok catalog) {server tool : String} {t : ToolManifest}
    (ht : findTool catalog server tool = some t) (args : Json) :
    (Gateway.Capabilities.classificationForArguments t args = .mutating →
      (installCatalog (servers.map Json.Doc.json)).toolClassification server tool args = "mutating" ∧
        Desktop.toolClassification (servers.map Json.Doc.json) server tool args ≠ .str "read_only" ∧
          Desktop.toolClassification (servers.map Json.Doc.json) server tool args ≠ .str "idempotent") ↔
      ∀ item, ((server, tool), item) ∈ toolEntries (servers.map Json.Doc.json) → ¬ Hidden item args := by
  obtain ⟨s, item, hori, hacc⟩ := original_of_findTool (offered_of_normaliseServers h) ht
  have hdis : item.KeysDistinct := by
    obtain ⟨doc, _, rfl⟩ := mem_map.mp hori.serverMem
    exact distinct_offered doc.distinct hori.toolMem
  have hdes : Gateway.Capabilities.classificationForArguments t args = .mutating → ∀ safe,
      safe = "read_only" ∨ safe = "idempotent" →
      Desktop.toolClassification (servers.map json) server tool args ≠ .str safe := by
    intro hmut safe hsafe
    rw [Desktop.toolClassification]
    rcases hori.desktop_cases with hfound | hfound
    · rw [hfound]
      exact desktop_strict hacc hmut hsafe
    · rw [hfound]
      rintro ⟨⟩
  have hboth : (Gateway.Capabilities.classificationForArguments t args = .mutating →
      (installCatalog (servers.map json)).toolClassification server tool args = "mutating" ∧
        Desktop.toolClassification (servers.map json) server tool args ≠ .str "read_only" ∧
          Desktop.toolClassification (servers.map json) server tool args ≠ .str "idempotent") ↔
      (Gateway.Capabilities.classificationForArguments t args = .mutating →
        (installCatalog (servers.map json)).toolClassification server tool args = "mutating") := by
    constructor
    · exact fun hstr hmut => (hstr hmut).1
    · exact fun hstr hmut => ⟨hstr hmut, hdes hmut _ (.inl rfl), hdes hmut _ (.inr rfl)⟩
  rw [hboth]
  rcases hori.local_cases args with ⟨hent, hloc⟩ | ⟨habsent, hloc⟩
  · rw [hloc, local_strict_iff hacc hdis]
    constructor
    · intro hhid item' hitem'
      cases hori.entry hitem' rfl
      exact hhid
    · exact fun hall => hall item hent
  · rw [hloc]
    exact iff_of_true (fun _ => rfl) (fun item' hitem' => absurd rfl (habsent _ hitem'))

end Safe

section Offer

def editTool (spelling : String) : Json := .obj [("name", .str "edit"), ("classification", .str "read_only"),
  ("classification_by_argument", .obj [("action", .obj [("write", .str spelling)])])]

def editServer (spelling : String) : Json.Doc where
  json := .obj [("name", .str "host"), ("tools", .arr [editTool spelling])]
  distinct := ⟨by simp, trivial,
    ⟨⟨by simp, trivial, trivial, ⟨by simp, ⟨by simp, trivial, trivial⟩, trivial⟩, trivial⟩, trivial⟩, trivial⟩

def writeAction : Json := .obj [("action", .str "write")]

theorem spelled_mutation_strict : ∃ catalog t,
    normaliseServers ([editServer "mutating"].map Json.Doc.json) = .ok catalog ∧
      findTool catalog "host" "edit" = some t ∧
      (Gateway.Capabilities.classificationForArguments t writeAction = .mutating →
        (installCatalog ([editServer "mutating"].map Json.Doc.json)).toolClassification "host" "edit" writeAction =
            "mutating" ∧
          Desktop.toolClassification ([editServer "mutating"].map Json.Doc.json) "host" "edit" writeAction ≠
              .str "read_only" ∧
            Desktop.toolClassification ([editServer "mutating"].map Json.Doc.json) "host" "edit" writeAction ≠
              .str "idempotent") := by
  have hfound : ((normaliseServers ([editServer "mutating"].map json)).toOption.bind
      (fun catalog => findTool catalog "host" "edit")).isSome := by decide
  obtain ⟨t, ht⟩ := Option.isSome_iff_exists.mp hfound
  obtain ⟨catalog, hcat, hfind⟩ := Option.bind_eq_some_iff.mp ht
  have hok : normaliseServers ([editServer "mutating"].map json) = .ok catalog := by
    cases hresult : normaliseServers ([editServer "mutating"].map json) with
    | error e =>
      rw [hresult] at hcat
      cases hcat
    | ok found =>
      rw [hresult] at hcat
      cases hcat
      rfl
  refine ⟨catalog, t, hok, hfind, (hosts_strict_iff hok hfind writeAction).mpr ?_⟩
  intro item hitem hhid
  cases mem_singleton.mp hitem
  exact hhid.unspelled (.str "mutating") mem_cons_self rfl

theorem hidden_mutation : ((normaliseServers ([editServer "MUTATING"].map Json.Doc.json)).toOption.bind
      (fun catalog => findTool catalog "host" "edit")).map
        (fun t => Gateway.Capabilities.classificationForArguments t writeAction) = some .mutating ∧
    (installCatalog ([editServer "MUTATING"].map Json.Doc.json)).toolClassification "host" "edit" writeAction =
      "read_only" := by
  decide

end Offer

end OpenAgent.HostTools
