import Mathlib.Data.List.Basic
import Mathlib.Data.List.TakeWhile

namespace Toml

open List

universe u

inductive Fault
  | invalid
  | unsupported
deriving DecidableEq

inductive Number (F : Type u)
  | integer (value : Nat)
  | float (value : F)
deriving DecidableEq

inductive Value (F : Type u)
  | string (text : List Char)
  | number (value : Number F)
  | array (items : List (List Char))
deriving DecidableEq

abbrev Pairs (F : Type u) := List (List Char × Value F)

structure Document (F : Type u) where
  root : Pairs F
  tables : List (List Char × Pairs F)
deriving DecidableEq

inductive Statement (F : Type u)
  | blank
  | header (key : List Char)
  | pair (key : List Char) (value : Value F)
deriving DecidableEq

def control (c : Char) : Bool := (c.toNat < 32 && c != '\t') || c.toNat == 127

def escapeOf : Char → Option Char
  | 'b' => some (Char.ofNat 8)
  | 't' => some '\t'
  | 'n' => some '\n'
  | 'f' => some (Char.ofNat 12)
  | 'r' => some '\r'
  | '"' => some '"'
  | '\\' => some '\\'
  | _ => none

def keep (c : Char) : Except Fault (List Char × List Char) → Except Fault (List Char × List Char)
  | .ok (text, after) => .ok (c :: text, after)
  | .error fault => .error fault

def basic : List Char → Except Fault (List Char × List Char)
  | [] => .error .invalid
  | '"' :: rest => .ok ([], rest)
  | '\\' :: [] => .error .invalid
  | '\\' :: c :: rest =>
    match escapeOf c with
    | some d => keep d (basic rest)
    | none => .error .unsupported
  | c :: rest => if control c then .error .invalid else keep c (basic rest)

def items : Nat → List Char → Except Fault (List (List Char) × List Char)
  | fuel + 1, '"' :: rest =>
    match basic rest with
    | .error fault => .error fault
    | .ok (text, ']' :: after) => .ok ([text], after)
    | .ok (text, ',' :: ' ' :: more) =>
      match items fuel more with
      | .ok (texts, after) => .ok (text :: texts, after)
      | .error fault => .error fault
    | .ok _ => .error .unsupported
  | _, _ => .error .unsupported

def digits (text : List Char) : Nat := text.foldl (fun n c => 10 * n + (c.toNat - 48)) 0

section Reading

variable {F : Type u} (float : List Char → Option F)

def number (text : List Char) : Option (Number F) :=
  if text ≠ [] ∧ text.length ≤ 15 ∧ text.all Char.isDigit ∧ (text.head? ≠ some '0' ∨ text.length = 1) then
    some (.integer (digits text))
  else (float text).map .float

def value : List Char → Except Fault (Value F)
  | '"' :: rest =>
    match basic rest with
    | .ok (text, []) => .ok (.string text)
    | .ok _ => .error .unsupported
    | .error fault => .error fault
  | '[' :: rest =>
    match items rest.length rest with
    | .ok (texts, []) => .ok (.array texts)
    | .ok _ => .error .unsupported
    | .error fault => .error fault
  | text =>
    match number float text with
    | some n => .ok (.number n)
    | none => .error .unsupported

def bareKey (c : Char) : Bool := c.isAlphanum || c == '_' || c == '-'

def assigned (key : List Char) : List Char → Except Fault (Statement F)
  | ' ' :: '=' :: ' ' :: text =>
    match value float text with
    | .ok v => .ok (.pair key v)
    | .error fault => .error fault
  | _ => .error .unsupported

def line : List Char → Except Fault (Statement F)
  | [] => .ok .blank
  | '[' :: '[' :: text =>
    if text.takeWhile bareKey ≠ [] ∧ text.dropWhile bareKey = [']', ']'] then
      .ok (.header (text.takeWhile bareKey))
    else .error .unsupported
  | text =>
    if text.takeWhile bareKey = [] then .error .unsupported
    else assigned float (text.takeWhile bareKey) (text.dropWhile bareKey)

def statements : List (List Char) → Except Fault (List (Statement F))
  | [] => .ok []
  | text :: rest =>
    match line float text with
    | .error fault => .error fault
    | .ok s =>
      match statements rest with
      | .ok ss => .ok (s :: ss)
      | .error fault => .error fault

def gather : List (Statement F) → Document F
  | [] => ⟨[], []⟩
  | .blank :: rest => gather rest
  | .pair key v :: rest => ⟨(key, v) :: (gather rest).root, (gather rest).tables⟩
  | .header key :: rest => ⟨[], (key, (gather rest).root) :: (gather rest).tables⟩

def Document.Sound (doc : Document F) : Prop :=
  (doc.root.map Prod.fst).Nodup ∧ ∀ table ∈ doc.tables, table.1 ∉ doc.root.map Prod.fst ∧ (table.2.map Prod.fst).Nodup

instance (doc : Document F) : Decidable doc.Sound := inferInstanceAs (Decidable (_ ∧ _))

def parse (text : List Char) : Except Fault (Document F) :=
  match statements float (text.splitOn '\n') with
  | .error fault => .error fault
  | .ok ss => if (gather ss).Sound then .ok (gather ss) else .error .invalid

/-- A reader of the whole language: what it does on the texts described here. -/
structure Reader where
  parse : List Char → Option (Document F)
  accepts : ∀ text doc, Toml.parse float text = .ok doc → parse text = some doc
  refuses : ∀ text, Toml.parse float text = .error .invalid → parse text = none

def loads : Reader float where
  parse text := match Toml.parse float text with
    | .ok doc => some doc
    | .error _ => none
  accepts text doc h := by rw [h]
  refuses text h := by rw [h]

end Reading

def escapeChar (c : Char) : List Char := if c = '\\' ∨ c = '"' then ['\\', c] else [c]

def escape (text : List Char) : List Char := text.flatMap escapeChar

def quoted (text : List Char) : List Char := '"' :: (escape text ++ ['"'])

/-- `"first", "second", …` and the closing bracket. -/
def quotedAll : List (List Char) → List Char
  | [] => [']']
  | [text] => quoted text ++ [']']
  | text :: rest => quoted text ++ [',', ' '] ++ quotedAll rest

def Legible (text : List Char) : Prop := ∀ c ∈ text, control c = false

instance (text : List Char) : Decidable (Legible text) :=
  List.decidableBAll (fun c => control c = false) text

def pairLine (key written : List Char) : List Char := key ++ ([' ', '=', ' '] ++ written)

def headerLine (key : List Char) : List Char := ['[', '['] ++ (key ++ [']', ']'])

def unlines (lines : List (List Char)) : List Char := lines.flatMap (· ++ ['\n'])

def firstLine (text : List Char) : List Char := text.takeWhile (· != '\n')

theorem ne_newline {c : Char} (h : control c = false) : c ≠ '\n' := by
  rintro rfl
  cases h

@[simp] theorem legible_nil : Legible [] := fun _ h => by cases h

@[simp] theorem legible_cons (c : Char) (text : List Char) :
    Legible (c :: text) ↔ control c = false ∧ Legible text := forall_mem_cons

@[simp] theorem legible_append (text more : List Char) :
    Legible (text ++ more) ↔ Legible text ∧ Legible more := forall_mem_append

@[simp] theorem escape_nil : escape [] = [] := rfl

@[simp] theorem escape_cons (c : Char) (text : List Char) : escape (c :: text) = escapeChar c ++ escape text := rfl

theorem control_of_escapeChar {c d : Char} (hc : control c = false) (h : d ∈ escapeChar c) : control d = false := by
  unfold escapeChar at h
  split at h
  · rcases mem_cons.mp h with rfl | h
    · rfl
    · rwa [mem_singleton.mp h]
  · rwa [mem_singleton.mp h]

theorem legible_escape {text : List Char} (h : Legible text) : Legible (escape text) := by
  intro d hd
  obtain ⟨c, hc, hd⟩ := mem_flatMap.mp hd
  exact control_of_escapeChar (h c hc) hd

theorem legible_quoted {text : List Char} (h : Legible text) : Legible (quoted text) := by
  simp only [quoted, legible_cons, legible_append, legible_nil, and_true]
  exact ⟨rfl, legible_escape h, rfl⟩

theorem legible_quotedAll {texts : List (List Char)} (h : ∀ text ∈ texts, Legible text) :
    Legible (quotedAll texts) := by
  induction texts with
  | nil => exact (by decide)
  | cons text rest ih =>
    have htext := legible_quoted (h text mem_cons_self)
    cases rest with
    | nil => exact (legible_append _ _).mpr ⟨htext, by decide⟩
    | cons next more =>
      have hrest := ih (fun t ht => h t (mem_cons_of_mem _ ht))
      exact (legible_append _ _).mpr ⟨(legible_append _ _).mpr ⟨htext, by decide⟩, hrest⟩

theorem not_mem_of_legible {text : List Char} (h : Legible text) : '\n' ∉ text :=
  fun hn => ne_newline (h _ hn) rfl

theorem basic_plain {c : Char} (hq : c ≠ '"') (hs : c ≠ '\\') (rest : List Char) :
    basic (c :: rest) = if control c then .error .invalid else keep c (basic rest) := by
  rw [basic]
  · exact hq
  · exact fun h _ => hs h
  · exact fun _ _ h _ => hs h

theorem basic_escapeChar {c : Char} (hc : control c = false) (rest : List Char) :
    basic (escapeChar c ++ rest) = keep c (basic rest) := by
  unfold escapeChar
  split
  · next h => rcases h with rfl | rfl <;> rfl
  next h =>
    rw [not_or] at h
    rw [singleton_append, basic_plain h.2 h.1, hc]
    rfl

theorem basic_escape {text : List Char} (h : Legible text) (rest : List Char) :
    basic (escape text ++ '"' :: rest) = .ok (text, rest) := by
  induction text with
  | nil => rw [escape_nil, nil_append, basic]
  | cons c text ih =>
    rw [legible_cons] at h
    rw [escape_cons, append_assoc, basic_escapeChar h.1, ih h.2]
    rfl

theorem basic_quoted {text : List Char} (h : Legible text) (rest : List Char) :
    quoted text ++ rest = '"' :: (escape text ++ '"' :: rest) ∧
      basic (escape text ++ '"' :: rest) = .ok (text, rest) := by
  refine ⟨?_, basic_escape h rest⟩
  simp [quoted]

theorem firstLine_append {text : List Char} (h : Legible text) (rest : List Char) :
    firstLine (text ++ rest) = text ++ firstLine rest := by
  unfold firstLine
  rw [takeWhile_append_of_pos]
  intro c hc
  exact bne_iff_ne.mpr (ne_newline (h c hc))

/-- A text that is not legible cannot be read back, wherever its first line ends. -/
theorem basic_torn {text : List Char} (h : ¬ Legible text) (rest : List Char) :
    basic (firstLine (escape text ++ rest)) = .error .invalid := by
  induction text with
  | nil => exact absurd legible_nil h
  | cons c text ih =>
    rw [escape_cons, append_assoc]
    by_cases hc : control c = true
    · have hq : c ≠ '"' := by rintro rfl; cases hc
      have hs : c ≠ '\\' := by rintro rfl; cases hc
      rw [escapeChar, if_neg (not_or.mpr ⟨hs, hq⟩), singleton_append]
      by_cases hn : c = '\n'
      · subst hn
        rfl
      have hkept : (c != '\n') = true := bne_iff_ne.mpr hn
      rw [firstLine, takeWhile_cons_of_pos (p := fun x => x != '\n') hkept, basic_plain hq hs, hc]
      rfl
    rw [Bool.not_eq_true] at hc
    have htext : ¬ Legible text := fun ht => h ((legible_cons c text).mpr ⟨hc, ht⟩)
    rw [firstLine_append (fun d hd => control_of_escapeChar hc hd), basic_escapeChar hc, ih htext]
    rfl

theorem items_quotedAll {texts : List (List Char)} (hne : texts ≠ []) (h : ∀ text ∈ texts, Legible text)
    {fuel : Nat} (hfuel : texts.length ≤ fuel) (after : List Char) :
    items fuel (quotedAll texts ++ after) = .ok (texts, after) := by
  induction texts generalizing fuel with
  | nil => exact absurd rfl hne
  | cons text rest ih =>
    cases fuel with
    | zero => simp at hfuel
    | succ fuel =>
      have htext := h text mem_cons_self
      cases rest with
      | nil =>
        have hq := basic_quoted htext (']' :: after)
        rw [quotedAll, append_assoc, singleton_append, hq.1]
        simp only [items, hq.2]
      | cons next more =>
        have hq := basic_quoted htext (',' :: ' ' :: (quotedAll (next :: more) ++ after))
        have hrest := ih (cons_ne_nil _ _) (fun t ht => h t (mem_cons_of_mem _ ht))
          (Nat.le_of_succ_le_succ hfuel)
        rw [quotedAll, append_assoc, append_assoc, cons_append, singleton_append, hq.1]
        · simp only [items, hq.2, hrest]
        · exact cons_ne_nil _ _

theorem firstLine_quoted (text after : List Char) :
    firstLine (quoted text ++ after) = '"' :: firstLine (escape text ++ '"' :: after) := by
  simp [quoted, firstLine]

theorem items_torn {texts : List (List Char)} (h : ¬ ∀ text ∈ texts, Legible text) {fuel : Nat}
    (rest : List Char) (hfuel : (firstLine (quotedAll texts ++ rest)).length ≤ fuel) :
    items fuel (firstLine (quotedAll texts ++ rest)) = .error .invalid := by
  induction texts generalizing fuel with
  | nil => exact absurd (fun _ ht => by cases ht) h
  | cons text more ih =>
    by_cases htext : Legible text
    · have hmore : ¬ ∀ t ∈ more, Legible t := fun ht => h (forall_mem_cons.mpr ⟨htext, ht⟩)
      cases more with
      | nil => exact absurd (fun _ ht => by cases ht) hmore
      | cons next last =>
        have hline : firstLine (quotedAll (text :: next :: last) ++ rest) =
            '"' :: (escape text ++ '"' :: ',' :: ' ' :: firstLine (quotedAll (next :: last) ++ rest)) := by
          rw [quotedAll, append_assoc, append_assoc, firstLine_quoted,
            firstLine_append (legible_escape htext)]
          · rfl
          · exact cons_ne_nil _ _
        rw [hline] at hfuel ⊢
        cases fuel with
        | zero => simp at hfuel
        | succ fuel =>
          have hsho : (firstLine (quotedAll (next :: last) ++ rest)).length ≤ fuel := by
            simp only [length_cons, length_append] at hfuel
            omega
          simp only [items, basic_escape htext, ih hmore hsho]
    · have hline : ∃ after, firstLine (quotedAll (text :: more) ++ rest) =
          '"' :: firstLine (escape text ++ '"' :: after) := by
        cases more with
        | nil => exact ⟨_, by rw [quotedAll, append_assoc, firstLine_quoted]⟩
        | cons next last =>
          refine ⟨[',', ' '] ++ (quotedAll (next :: last) ++ rest), ?_⟩
          rw [quotedAll, append_assoc, append_assoc, firstLine_quoted]
          exact cons_ne_nil _ _
      obtain ⟨after, hline⟩ := hline
      rw [hline] at hfuel ⊢
      cases fuel with
      | zero => simp at hfuel
      | succ fuel => simp only [items, basic_torn htext]

theorem length_le_quotedAll (texts : List (List Char)) : texts.length ≤ (quotedAll texts).length := by
  induction texts with
  | nil => simp [quotedAll]
  | cons text rest ih =>
    cases rest with
    | nil => simp [quotedAll]
    | cons next more =>
      rw [quotedAll]
      · simp only [length_append, length_cons, quoted] at ih ⊢
        omega
      · exact cons_ne_nil _ _

section Lines

variable {F : Type u} (float : List Char → Option F)

theorem value_quoted {text : List Char} (h : Legible text) : value float (quoted text) = .ok (.string text) := by
  have hq := basic_escape h []
  simp only [quoted, value, hq]

theorem value_torn {text : List Char} (h : ¬ Legible text) (rest : List Char) :
    value float (firstLine (quoted text ++ rest)) = .error .invalid := by
  rw [firstLine_quoted]
  simp only [value, basic_torn h]

theorem value_quotedAll {texts : List (List Char)} (hne : texts ≠ []) (h : ∀ text ∈ texts, Legible text) :
    value float ('[' :: quotedAll texts) = .ok (.array texts) := by
  have hite := items_quotedAll hne h (length_le_quotedAll texts) []
  rw [List.append_nil] at hite
  simp only [value, hite]

theorem value_torn_array {texts : List (List Char)} (h : ¬ ∀ text ∈ texts, Legible text) (rest : List Char) :
    value float (firstLine ('[' :: quotedAll texts ++ rest)) = .error .invalid := by
  have hline : firstLine ('[' :: quotedAll texts ++ rest) = '[' :: firstLine (quotedAll texts ++ rest) := rfl
  rw [hline]
  simp only [value, items_torn h rest (Nat.le_refl _)]

theorem value_number {text : List Char} {n : Number F} (h : number float text = some n)
    (hfir : text.head? ≠ some '"' ∧ text.head? ≠ some '[') : value float text = .ok (.number n) := by
  rw [value]
  · rw [h]
  · rintro rest rfl
    exact hfir.1 rfl
  · rintro rest rfl
    exact hfir.2 rfl

def BareKey (key : List Char) : Prop := key ≠ [] ∧ ∀ c ∈ key, bareKey c = true

instance (key : List Char) : Decidable (BareKey key) :=
  @instDecidableAnd (key ≠ []) _ inferInstance (List.decidableBAll (fun c => bareKey c = true) key)

theorem control_of_bareKey {c : Char} (h : bareKey c = true) : control c = false := by
  delta bareKey Char.isAlphanum Char.isAlpha Char.isUpper Char.isLower at h
  simp only [Char.isDigit, Bool.or_eq_true, Bool.and_eq_true, decide_eq_true_eq, UInt32.le_iff_toNat_le, ge_iff_le, beq_iff_eq] at h
  have hc : c.toNat = c.val.toNat := rfl
  have h0 : '0'.val.toNat = 48 := rfl
  have hz : 'z'.val.toNat = 122 := rfl
  have hZ : 'Z'.val.toNat = 90 := rfl
  have h9 : '9'.val.toNat = 57 := rfl
  have hA : 'A'.val.toNat = 65 := rfl
  have ha : 'a'.val.toNat = 97 := rfl
  rcases h with (((h | h) | h) | rfl) | rfl
  · simp [control]; omega
  · simp [control]; omega
  · simp [control]; omega
  · rfl
  · rfl

theorem BareKey.legible {key : List Char} (h : BareKey key) : Legible key :=
  fun c hc => control_of_bareKey (h.2 c hc)

theorem BareKey.takeWhile {key : List Char} (h : BareKey key) {c : Char} (hc : bareKey c = false)
    (rest : List Char) : (key ++ c :: rest).takeWhile bareKey = key := by
  rw [takeWhile_append_of_pos h.2, takeWhile_cons_of_neg (by simp [hc]), append_nil]

theorem BareKey.dropWhile {key : List Char} (h : BareKey key) {c : Char} (hc : bareKey c = false)
    (rest : List Char) : (key ++ c :: rest).dropWhile bareKey = c :: rest := by
  rw [dropWhile_append_of_pos h.2, dropWhile_cons_of_neg (by simp [hc])]

theorem line_pairLine {key : List Char} (h : BareKey key) (written : List Char) :
    line float (pairLine key written) = assigned float key ([' ', '=', ' '] ++ written) := by
  have ht := h.takeWhile (c := ' ') rfl ('=' :: ' ' :: written)
  have hd := h.dropWhile (c := ' ') rfl ('=' :: ' ' :: written)
  have hkey := h.1
  rw [line]
  · simp only [pairLine, cons_append, nil_append, ht, hd, if_neg hkey]
  · intro hnil
    simp [pairLine] at hnil
  intro text hbra
  cases key with
  | nil => exact hkey rfl
  | cons c key =>
    rw [pairLine, cons_append, List.cons.injEq] at hbra
    have hc := h.2 c mem_cons_self
    rw [hbra.1] at hc
    exact absurd hc (by decide)

theorem line_headerLine {key : List Char} (h : BareKey key) : line float (headerLine key) = .ok (.header key) := by
  have ht := h.takeWhile (c := ']') rfl [']']
  have hd := h.dropWhile (c := ']') rfl [']']
  simp only [headerLine, cons_append, nil_append, line, ht, hd]
  exact if_pos ⟨h.1, trivial⟩

def States (text : List Char) (s : Statement F) : Prop := line float text = .ok s ∧ '\n' ∉ text

def Torn (text : List Char) : Prop := ∀ rest, line float (firstLine (text ++ rest)) = .error .invalid

theorem states_blank : States float [] .blank := ⟨rfl, by simp⟩

theorem states_header {key : List Char} (h : BareKey key) : States float (headerLine key) (.header key) := by
  refine ⟨line_headerLine float h, not_mem_of_legible ?_⟩
  rw [headerLine, legible_append, legible_append]
  exact ⟨by decide, h.legible, by decide⟩

theorem states_pair {key : List Char} (h : BareKey key) {written : List Char} {v : Value F}
    (hv : value float written = .ok v) (hleg : Legible written) :
    States float (pairLine key written) (.pair key v) := by
  refine ⟨?_, not_mem_of_legible ?_⟩
  · rw [line_pairLine float h]
    simp only [cons_append, nil_append, assigned, hv]
  · rw [pairLine, legible_append, legible_append]
    exact ⟨h.legible, by decide, hleg⟩

theorem torn_pair {key : List Char} (h : BareKey key) {written : List Char}
    (hv : ∀ rest, value float (firstLine (written ++ rest)) = .error .invalid) :
    Torn float (pairLine key written) := by
  intro rest
  have hline : firstLine (pairLine key written ++ rest) = pairLine key (firstLine (written ++ rest)) := by
    rw [pairLine, append_assoc, firstLine_append h.legible, append_assoc,
      firstLine_append (by decide), pairLine]
  rw [hline, line_pairLine float h]
  simp only [cons_append, nil_append, assigned, hv]

theorem splitOn_unlines {l : List Char} (h : '\n' ∉ l) (rest : List Char) :
    (l ++ '\n' :: rest).splitOn '\n' = l :: rest.splitOn '\n' :=
  splitOn_append_cons_self_of_not_mem h rest

theorem splitOn_firstLine (text : List Char) : ∃ more, text.splitOn '\n' = firstLine text :: more := by
  induction text with
  | nil => exact ⟨[], rfl⟩
  | cons c text ih =>
    obtain ⟨more, hmore⟩ := ih
    rw [splitOn_cons_eq_if_modifyHead, hmore]
    by_cases hc : c = '\n'
    · subst hc
      exact ⟨_, rfl⟩
    have hkept : (c != '\n') = true := bne_iff_ne.mpr hc
    have hne : (c == '\n') = false := beq_false_of_ne hc
    refine ⟨more, ?_⟩
    rw [hne, firstLine, firstLine, takeWhile_cons_of_pos (p := fun x => x != '\n') hkept]
    rfl

theorem unlines_cons (l : List Char) (lines : List (List Char)) :
    unlines (l :: lines) = l ++ '\n' :: unlines lines := by
  simp [unlines]

/-- A text whose lines all state something has the statements of its lines, the last one blank. -/
theorem statements_unlines {lines : List (List Char)} {ss : List (Statement F)}
    (h : List.Forall₂ (States float) lines ss) :
    statements float ((unlines lines).splitOn '\n') = .ok (ss ++ [.blank]) := by
  induction h with
  | nil => rfl
  | @cons l s lines ss hl _ ih =>
    rw [unlines_cons, splitOn_unlines hl.2]
    simp only [statements, hl.1, ih, cons_append]

theorem gather_blank (ss : List (Statement F)) : gather (ss ++ [.blank]) = gather ss := by
  induction ss with
  | nil => rfl
  | cons s ss ih => cases s <;> simp only [cons_append, gather, ih]

theorem parse_unlines {lines : List (List Char)} {ss : List (Statement F)}
    (h : List.Forall₂ (States float) lines ss) (hsou : (gather ss).Sound) :
    parse float (unlines lines) = .ok (gather ss) := by
  simp only [parse, statements_unlines float h, gather_blank, if_pos hsou]

theorem parse_torn {lines : List (List Char)}
    (h : ∀ l ∈ lines, (∃ s, States float l s) ∨ Torn float l) (htorn : ∃ l ∈ lines, Torn float l) :
    parse float (unlines lines) = .error .invalid := by
  have hsta : statements float ((unlines lines).splitOn '\n') = .error .invalid := by
    induction lines with
    | nil =>
      obtain ⟨l, hl, _⟩ := htorn
      cases hl
    | cons l lines ih =>
      rcases h l mem_cons_self with ⟨s, hs⟩ | hl
      · have hrest : ∃ l ∈ lines, Torn float l := by
          obtain ⟨k, hk, hkt⟩ := htorn
          rcases mem_cons.mp hk with rfl | hk
          · have hbad := hkt ['\n']
            rw [firstLine, takeWhile_append_of_pos] at hbad
            · have hend : (['\n'] : List Char).takeWhile (fun x => x != '\n') = [] := rfl
              rw [hend, append_nil, hs.1] at hbad
              cases hbad
            · intro c hc
              exact bne_iff_ne.mpr (fun he => hs.2 (he ▸ hc))
          · exact ⟨k, hk, hkt⟩
        rw [unlines_cons, splitOn_unlines hs.2]
        simp only [statements, hs.1, ih (fun k hk => h k (mem_cons_of_mem _ hk)) hrest]
      obtain ⟨more, hmore⟩ := splitOn_firstLine (l ++ '\n' :: unlines lines)
      have hbad := hl ('\n' :: unlines lines)
      rw [unlines_cons, hmore]
      simp only [statements, hbad]
  simp only [parse, hsta]

end Lines

end Toml
