import Mathlib.Data.List.TakeWhile
import OpenAgent.Lib.Json

namespace Py.Json

open List

def hex4 (n : Nat) : List Char :=
  [hexDigit (n / 4096 % 16), hexDigit (n / 256 % 16), hexDigit (n / 16 % 16), hexDigit (n % 16)]

/-- `ensure_ascii`: beyond the printable ASCII characters every UTF-16 unit is written in hexadecimal. -/
def escapeChar (c : Char) : List Char :=
  if c = '"' then ['\\', '"']
  else if c = '\\' then ['\\', '\\']
  else if c = '\n' then ['\\', 'n']
  else if c = '\r' then ['\\', 'r']
  else if c = '\t' then ['\\', 't']
  else if c = '\x0c' then ['\\', 'f']
  else if c = '\x08' then ['\\', 'b']
  else if 32 ≤ c.toNat ∧ c.toNat ≤ 126 then [c]
  else if c.toNat < 0x10000 then '\\' :: 'u' :: hex4 c.toNat
  else
    '\\' :: 'u' :: (hex4 (0xd800 + (c.toNat - 0x10000) / 1024) ++
      '\\' :: 'u' :: hex4 (0xdc00 + (c.toNat - 0x10000) % 1024))

def escape (cs : List Char) : List Char := cs.flatMap escapeChar

def intText : Int → List Char
  | .ofNat n => Nat.toDigits 10 n
  | .negSucc n => '-' :: Nat.toDigits 10 (n + 1)

def floatText (r : String) : List Char :=
  if r = "inf" then "Infinity".toList
  else if r = "-inf" then "-Infinity".toList
  else if r = "nan" then "NaN".toList
  else r.toList

mutual

def dumpsChars : Json → List Char
  | .null => "null".toList
  | .bool b => if b then "true".toList else "false".toList
  | .int n => intText n
  | .float f => floatText f.repr
  | .str s => '"' :: (escape s.toList ++ ['"'])
  | .arr [] => "[]".toList
  | .arr (j :: js) => '[' :: (dumpsChars j ++ dumpsItems js)
  | .obj [] => "\x7b\x7d".toList
  | .obj ((k, j) :: es) => '\x7b' :: '"' :: (escape k.toList ++ '"' :: ':' :: ' ' :: (dumpsChars j ++ dumpsEntries es))

def dumpsItems : List Json → List Char
  | [] => [']']
  | j :: js => ',' :: ' ' :: (dumpsChars j ++ dumpsItems js)

def dumpsEntries : List (String × Json) → List Char
  | [] => ['\x7d']
  | (k, j) :: es => ',' :: ' ' :: '"' :: (escape k.toList ++ '"' :: ':' :: ' ' :: (dumpsChars j ++ dumpsEntries es))

end

/-- `json.dumps(value)`. -/
def dumps (j : Json) : String := String.ofList (dumpsChars j)

/-- `json.dumps(value, sort_keys=True)`. -/
def dumpsSorted (j : Json) : String := dumps j.canon

/-- Without `ensure_ascii` only quotes, backslashes and control characters are escaped. -/
def escapeControl (c : Char) : List Char := if 127 ≤ c.toNat then [c] else escapeChar c

mutual

def compactChars : Json → List Char
  | .str s => '"' :: (s.toList.flatMap escapeControl ++ ['"'])
  | .arr [] => "[]".toList
  | .arr (j :: js) => '[' :: (compactChars j ++ compactItems js)
  | .obj [] => "\x7b\x7d".toList
  | .obj ((k, j) :: es) =>
    '\x7b' :: '"' :: (k.toList.flatMap escapeControl ++ '"' :: ':' :: (compactChars j ++ compactEntries es))
  | j => dumpsChars j

def compactItems : List Json → List Char
  | [] => [']']
  | j :: js => ',' :: (compactChars j ++ compactItems js)

def compactEntries : List (String × Json) → List Char
  | [] => ['\x7d']
  | (k, j) :: es => ',' :: '"' :: (k.toList.flatMap escapeControl ++ '"' :: ':' :: (compactChars j ++ compactEntries es))

end

/-- `json.dumps(value, sort_keys=True, separators=(",", ":"), ensure_ascii=False)`. -/
def compactSorted (j : Json) : String := String.ofList (compactChars j.canon)

mutual

/-- `pad` is the line break with the indentation of the value's own line. -/
def indentChars (pad : List Char) : Json → List Char
  | .str s => '"' :: (s.toList.flatMap escapeControl ++ ['"'])
  | .arr [] => "[]".toList
  | .arr (j :: js) => '[' :: (pad ++ ' ' :: ' ' :: (indentChars (pad ++ [' ', ' ']) j ++ indentItems pad js))
  | .obj [] => "\x7b\x7d".toList
  | .obj ((k, j) :: es) =>
    '\x7b' :: (pad ++ ' ' :: ' ' :: '"' :: (k.toList.flatMap escapeControl ++ '"' :: ':' :: ' ' ::
      (indentChars (pad ++ [' ', ' ']) j ++ indentEntries pad es)))
  | j => dumpsChars j

def indentItems (pad : List Char) : List Json → List Char
  | [] => pad ++ [']']
  | j :: js => ',' :: (pad ++ ' ' :: ' ' :: (indentChars (pad ++ [' ', ' ']) j ++ indentItems pad js))

def indentEntries (pad : List Char) : List (String × Json) → List Char
  | [] => pad ++ ['\x7d']
  | (k, j) :: es =>
    ',' :: (pad ++ ' ' :: ' ' :: '"' :: (k.toList.flatMap escapeControl ++ '"' :: ':' :: ' ' ::
      (indentChars (pad ++ [' ', ' ']) j ++ indentEntries pad es)))

end

/-- `json.dumps(value, ensure_ascii=False, sort_keys=True, indent=2)`. -/
def indentedSorted (j : Json) : List Char := indentChars ['\n'] j.canon

mutual

/-- `allow_nan=False` accepts the value. -/
def finite : Json → Bool
  | .float f => !(["inf", "-inf", "nan"].contains f.repr)
  | .arr js => finiteItems js
  | .obj es => finiteEntries es
  | _ => true

def finiteItems : List Json → Bool
  | [] => true
  | j :: js => finite j && finiteItems js

def finiteEntries : List (String × Json) → Bool
  | [] => true
  | (_, j) :: es => finite j && finiteEntries es

end

def hexValue (c : Char) : Nat := if c.toNat < 58 then c.toNat - 48 else c.toNat - 87

def unhex4 (a b c d : Char) : Nat := hexValue a * 4096 + hexValue b * 256 + hexValue c * 16 + hexValue d

def unescapeChar : List Char → Option (Char × List Char)
  | '\\' :: 'u' :: a :: b :: c :: d :: rest =>
    let n := unhex4 a b c d
    if 0xd800 ≤ n ∧ n < 0xdc00 then
      match rest with
      | _ :: _ :: a' :: b' :: c' :: d' :: rest' =>
        some (Char.ofNat (0x10000 + (n - 0xd800) * 1024 + (unhex4 a' b' c' d' - 0xdc00)), rest')
      | _ => none
    else some (Char.ofNat n, rest)
  | '\\' :: c :: rest =>
    if c = 'n' then some ('\n', rest)
    else if c = 'r' then some ('\r', rest)
    else if c = 't' then some ('\t', rest)
    else if c = 'f' then some ('\x0c', rest)
    else if c = 'b' then some ('\x08', rest)
    else some (c, rest)
  | '"' :: _ => none
  | c :: rest => some (c, rest)
  | [] => none

theorem hexValue_hexDigit : ∀ n < 16, hexValue (hexDigit n) = n := by decide

theorem unhex4_hex4 {n : Nat} (h : n < 65536) :
    unhex4 (hexDigit (n / 4096 % 16)) (hexDigit (n / 256 % 16)) (hexDigit (n / 16 % 16)) (hexDigit (n % 16)) = n := by
  have hv : ∀ m, hexValue (hexDigit (m % 16)) = m % 16 :=
    fun m => hexValue_hexDigit _ (Nat.mod_lt _ (by omega))
  simp only [unhex4, hv]
  omega

theorem toNat_not_surrogate (c : Char) : c.toNat < 0xd800 ∨ (0xdfff < c.toNat ∧ c.toNat < 0x110000) := by
  have h := c.valid
  simp only [UInt32.isValidChar, Nat.isValidChar] at h
  exact h

theorem unescapeChar_escapeChar (c : Char) (rest : List Char) :
    unescapeChar (escapeChar c ++ rest) = some (c, rest) := by
  have hc := toNat_not_surrogate c
  rw [escapeChar]
  split_ifs with h1 h2 h3 h4 h5 h6 h7 h8 h9
  · subst h1; rfl
  · subst h2; rfl
  · subst h3; rfl
  · subst h4; rfl
  · subst h5; rfl
  · subst h6; rfl
  · subst h7; rfl
  · rw [singleton_append, unescapeChar.eq_def]
    split <;> simp_all
  · simp only [hex4, cons_append, nil_append, unescapeChar]
    rw [unhex4_hex4 (by omega), if_neg (by omega), Char.ofNat_toNat]
  · simp only [hex4, cons_append, nil_append, unescapeChar]
    rw [unhex4_hex4 (by omega), unhex4_hex4 (by omega), if_pos (by omega)]
    have hn : 65536 + (55296 + (c.toNat - 65536) / 1024 - 55296) * 1024 +
        (56320 + (c.toNat - 65536) % 1024 - 56320) = c.toNat := by omega
    rw [hn, Char.ofNat_toNat]

variable {cs r s : List Char}

theorem escape_append_inj {cs ds r s : List Char} (h : escape cs ++ '"' :: r = escape ds ++ '"' :: s) :
    cs = ds ∧ r = s := by
  induction cs generalizing ds with
  | nil =>
    cases ds with
    | nil => exact ⟨rfl, by simpa [escape] using h⟩
    | cons d ds =>
      have hu := congrArg unescapeChar h
      rw [escape, escape, flatMap_cons, append_assoc, unescapeChar_escapeChar] at hu
      cases hu
  | cons c cs ih =>
    have hu := congrArg unescapeChar h
    rw [escape, flatMap_cons, append_assoc, unescapeChar_escapeChar] at hu
    cases ds with
    | nil => cases hu
    | cons d ds =>
      rw [escape, flatMap_cons, append_assoc, unescapeChar_escapeChar] at hu
      obtain ⟨rfl, hrest⟩ := Prod.mk.inj (Option.some.inj hu)
      obtain ⟨rfl, hr⟩ := ih hrest
      exact ⟨rfl, hr⟩

def numberChar (c : Char) : Bool :=
  c.isDigit || c == '.' || c == 'e' || c == '+' || c == '-' || "InfityNa".toList.contains c

def Ends (r : List Char) : Prop := ∀ c, r.head? = some c → numberChar c = false

def numberText : Json → Option (List Char)
  | .int n => some (intText n)
  | .float f => some (floatText f.repr)
  | _ => none

theorem mem_intText {n : Int} {c : Char} (h : c ∈ intText n) : c.isDigit ∨ c = '-' := by
  cases n with
  | ofNat n => exact .inl (Nat.isDigit_of_mem_toDigits (by decide) (by decide) h)
  | negSucc n =>
    rcases mem_cons.mp h with rfl | h
    · exact .inr rfl
    · exact .inl (Nat.isDigit_of_mem_toDigits (by decide) (by decide) h)

theorem intText_injective {m n : Int} (h : intText m = intText n) : m = n := by
  have hdig : ∀ a b : Nat, Nat.toDigits 10 a = Nat.toDigits 10 b → a = b := by
    intro a b hab
    rw [← Nat.ofDigitChars_ten_toDigits (n := a), hab, Nat.ofDigitChars_ten_toDigits]
  have hsign : ∀ a b : Nat, Nat.toDigits 10 a ≠ '-' :: Nat.toDigits 10 b := by
    intro a b hab
    have hm : '-' ∈ Nat.toDigits 10 a := hab ▸ mem_cons_self
    exact absurd (Nat.isDigit_of_mem_toDigits (by decide) (by decide) hm) (by decide)
  cases m with
  | ofNat m =>
    cases n with
    | ofNat n => rw [hdig m n h]
    | negSucc n => exact absurd h (hsign _ _)
  | negSucc m =>
    cases n with
    | ofNat n => exact absurd h.symm (hsign _ _)
    | negSucc n =>
      rw [Nat.succ.inj (hdig _ _ (List.cons.inj h).2)]

def floatRepr (cs : List Char) : String :=
  if cs = "Infinity".toList then "inf"
  else if cs = "-Infinity".toList then "-inf"
  else if cs = "NaN".toList then "nan"
  else String.ofList cs

theorem floatRepr_floatText (f : PyFloat) : floatRepr (floatText f.repr) = f.repr := by
  obtain ⟨r, hr⟩ := f
  have hne : ∀ t : String, isFloatRepr t = false → r.toList ≠ t.toList := by
    intro t ht h
    rw [String.toList_inj.mp h, ht] at hr
    cases hr
  rw [floatText]
  split_ifs with h1 h2 h3
  · rw [h1]; rfl
  · rw [h2]; rfl
  · rw [h3]; rfl
  · rw [floatRepr, if_neg (hne _ (by decide)), if_neg (hne _ (by decide)), if_neg (hne _ (by decide)),
      String.ofList_toList]

theorem floatText_injective {f g : PyFloat} (h : floatText f.repr = floatText g.repr) : f = g := by
  have hr : f.repr = g.repr := by rw [← floatRepr_floatText f, h, floatRepr_floatText]
  obtain ⟨r, _⟩ := f
  obtain ⟨t, _⟩ := g
  cases hr
  rfl

theorem floatText_chars (f : PyFloat) : (∀ c ∈ floatText f.repr, numberChar c = true) ∧
    ∃ c ∈ floatText f.repr, ¬ c.isDigit ∧ c ≠ '-' := by
  obtain ⟨r, hr⟩ := f
  rw [floatText]
  split_ifs with h1 h2 h3
  · exact ⟨all_eq_true.mp (by decide), 'I', by decide, by decide, by decide⟩
  · exact ⟨all_eq_true.mp (by decide), 'I', by decide, by decide, by decide⟩
  · exact ⟨all_eq_true.mp (by decide), 'N', by decide, by decide, by decide⟩
  · simp only [isFloatRepr, Bool.or_eq_true, beq_iff_eq, h1, h2, h3, false_or, Bool.and_eq_true,
      all_eq_true, any_eq_true] at hr
    obtain ⟨hall, c, hc, hpoi⟩ := hr
    refine ⟨fun d hd => ?_, c, hc, ?_⟩
    · have := hall d hd
      simp only [numberChar, Bool.or_eq_true, beq_iff_eq]
      tauto
    · rcases hpoi with rfl | rfl <;> decide

variable {j k : Json}

theorem numberText_chars (h : numberText j = some cs) : ∀ c ∈ cs, numberChar c = true := by
  cases j with
  | int n =>
    cases h
    intro c hc
    rcases mem_intText hc with hd | rfl
    · simp [numberChar, hd]
    · decide
  | float f =>
    cases h
    exact (floatText_chars f).1
  | null | bool b | str s | arr js | obj es => cases h

theorem numberText_injective (hj : numberText j = some cs) (hk : numberText k = some cs) : j = k := by
  have hsep : ∀ (n : Int) (f : PyFloat), intText n ≠ floatText f.repr := by
    intro n f h
    obtain ⟨c, hc, hd, hm⟩ := (floatText_chars f).2
    rcases mem_intText (h ▸ hc) with h | h
    · exact hd h
    · exact hm h
  cases j with
  | int m =>
    cases k with
    | int n =>
      rw [← hk] at hj
      rw [intText_injective (Option.some.inj hj)]
    | float f =>
      rw [← hk] at hj
      exact absurd (Option.some.inj hj) (hsep m f)
    | null | bool b | str s | arr js | obj es => cases hk
  | float f =>
    cases k with
    | int n =>
      rw [← hk] at hj
      exact absurd (Option.some.inj hj).symm (hsep n f)
    | float g =>
      rw [← hk] at hj
      rw [floatText_injective (Option.some.inj hj)]
    | null | bool b | str s | arr js | obj es => cases hk
  | null | bool b | str s | arr js | obj es => cases hj

theorem append_inj_of_ends {cs ds r s : List Char} (hc : ∀ c ∈ cs, numberChar c = true)
    (hd : ∀ c ∈ ds, numberChar c = true) (hr : Ends r) (hs : Ends s) (h : cs ++ r = ds ++ s) :
    cs = ds ∧ r = s := by
  have hspan : ∀ {as t : List Char}, (∀ c ∈ as, numberChar c = true) → Ends t →
      (as ++ t).takeWhile numberChar = as := by
    intro as t ha ht
    rw [takeWhile_append_of_pos ha]
    cases t with
    | nil => simp
    | cons c t => rw [takeWhile_cons, ht c rfl]; simp
  have hcs : cs = ds := by rw [← hspan hc hr, h, hspan hd hs]
  subst hcs
  exact ⟨rfl, append_cancel_left h⟩

inductive Kind
  | null
  | true
  | false
  | number
  | string
  | array
  | object
  | other
deriving DecidableEq

def kind : Json → Kind
  | .null => .null
  | .bool b => if b then .true else .false
  | .int _ | .float _ => .number
  | .str _ => .string
  | .arr _ => .array
  | .obj _ => .object

def announced (c : Char) : Kind :=
  if c = 'n' then .null
  else if c = 't' then .true
  else if c = 'f' then .false
  else if c = '"' then .string
  else if c = '[' then .array
  else if c = '\x7b' then .object
  else if numberChar c then .number
  else .other

theorem announced_digit {c : Char} (h : c.isDigit = true ∨ c = '.' ∨ c = 'e' ∨ c = '+' ∨ c = '-') :
    announced c = .number := by
  have hne : ∀ d : Char, d.isDigit = false → d ≠ '.' → d ≠ 'e' → d ≠ '+' → d ≠ '-' → c ≠ d := by
    rintro d hd h1 h2 h3 h4 rfl
    rw [hd] at h
    tauto
  have hnum : numberChar c = true := by
    simp only [numberChar, Bool.or_eq_true, beq_iff_eq]
    tauto
  rw [announced, if_neg (hne 'n' (by decide) (by decide) (by decide) (by decide) (by decide)),
    if_neg (hne 't' (by decide) (by decide) (by decide) (by decide) (by decide)),
    if_neg (hne 'f' (by decide) (by decide) (by decide) (by decide) (by decide)),
    if_neg (hne '"' (by decide) (by decide) (by decide) (by decide) (by decide)),
    if_neg (hne '[' (by decide) (by decide) (by decide) (by decide) (by decide)),
    if_neg (hne '\x7b' (by decide) (by decide) (by decide) (by decide) (by decide)), if_pos hnum]

theorem announced_floatText (f : PyFloat) : ∃ c t, floatText f.repr = c :: t ∧ announced c = .number := by
  obtain ⟨r, hr⟩ := f
  rw [floatText]
  split_ifs with h1 h2 h3
  · exact ⟨_, _, rfl, by decide⟩
  · exact ⟨_, _, rfl, by decide⟩
  · exact ⟨_, _, rfl, by decide⟩
  · simp only [isFloatRepr, Bool.or_eq_true, beq_iff_eq, h1, h2, h3, false_or, Bool.and_eq_true,
      all_eq_true, any_eq_true] at hr
    obtain ⟨hall, d, hd, -⟩ := hr
    cases hcs : r.toList with
    | nil => rw [hcs] at hd; cases hd
    | cons c t =>
      refine ⟨c, t, rfl, announced_digit ?_⟩
      have := hall c (by rw [hcs]; exact mem_cons_self)
      tauto

theorem announced_intText (n : Int) : ∃ c t, intText n = c :: t ∧ announced c = .number := by
  cases n with
  | negSucc n => exact ⟨_, _, rfl, by decide⟩
  | ofNat n =>
    cases hcs : intText (.ofNat n) with
    | nil => exact absurd hcs Nat.toDigits_ne_nil
    | cons c t =>
      have hd := Nat.isDigit_of_mem_toDigits (b := 10) (n := n) (c := c) (by decide) (by decide)
        (by rw [intText] at hcs; rw [hcs]; exact mem_cons_self)
      exact ⟨c, t, rfl, announced_digit (.inl hd)⟩

theorem announced_dumpsChars (j : Json) : ∃ c t, dumpsChars j = c :: t ∧ announced c = j.kind := by
  cases j with
  | null => exact ⟨_, _, rfl, by decide⟩
  | bool b => cases b <;> exact ⟨_, _, rfl, by decide⟩
  | int n => exact announced_intText n
  | float f => exact announced_floatText f
  | str s => exact ⟨'"', _, rfl, rfl⟩
  | arr js => cases js <;> exact ⟨'[', _, rfl, rfl⟩
  | obj es =>
    rcases es with _ | ⟨⟨_, _⟩, _⟩
    · exact ⟨'\x7b', _, rfl, rfl⟩
    · exact ⟨'\x7b', _, rfl, rfl⟩

theorem kind_eq_of_append (h : dumpsChars j ++ r = dumpsChars k ++ s) : j.kind = k.kind := by
  obtain ⟨c, t, hj, hcj⟩ := announced_dumpsChars j
  obtain ⟨d, u, hk, hdk⟩ := announced_dumpsChars k
  rw [hj, hk] at h
  rw [← hcj, ← hdk, (List.cons.inj h).1]

theorem head_ne_of_other {c : Char} (hc : announced c = .other) (j : Json) (r s : List Char) :
    c :: r ≠ dumpsChars j ++ s := by
  intro h
  obtain ⟨d, t, hj, hd⟩ := announced_dumpsChars j
  rw [hj] at h
  rw [← (List.cons.inj h).1, hc] at hd
  cases j with
  | bool b => cases b <;> cases hd
  | null | int n | float f | str s | arr js | obj es => cases hd

theorem ends_items (js : List Json) (r : List Char) : Ends (dumpsItems js ++ r) := by
  intro c hc
  cases js <;> (cases hc; decide)

theorem ends_entries (es : List (String × Json)) (r : List Char) : Ends (dumpsEntries es ++ r) := by
  intro c hc
  match es with
  | [] | (_, _) :: _ => cases hc; decide

theorem numberText_of_kind (h : j.kind = .number) : numberText j = some (dumpsChars j) := by
  cases j with
  | int n => rfl
  | float f => rfl
  | bool b => cases b <;> cases h
  | null | str s | arr js | obj es => cases h

theorem number_append_inj {j k : Json} (hj : j.kind = .number) {r s : List Char} (hr : Ends r)
    (hs : Ends s) (h : dumpsChars j ++ r = dumpsChars k ++ s) : j = k ∧ r = s := by
  have hjt := numberText_of_kind hj
  have hkt := numberText_of_kind ((kind_eq_of_append h).symm.trans hj)
  obtain ⟨ht, hrs⟩ := append_inj_of_ends (numberText_chars hjt) (numberText_chars hkt) hr hs h
  exact ⟨numberText_injective hjt (by rw [ht]; exact hkt), hrs⟩

mutual

/-- The text of a value, followed by what may follow one, is read back in one way only. -/
theorem dumpsChars_append_inj : ∀ (j k : Json) {r s : List Char}, Ends r → Ends s →
    dumpsChars j ++ r = dumpsChars k ++ s → j = k ∧ r = s
  | .null, k, r, s, _, _, h => by
    match k, kind_eq_of_append h with
    | .null, _ => exact ⟨rfl, append_cancel_left h⟩
  | .bool true, k, r, s, _, _, h => by
    match k, kind_eq_of_append h with
    | .bool true, _ => exact ⟨rfl, append_cancel_left h⟩
  | .bool false, k, r, s, _, _, h => by
    match k, kind_eq_of_append h with
    | .bool false, _ => exact ⟨rfl, append_cancel_left h⟩
  | .int n, k, r, s, hr, hs, h => number_append_inj rfl hr hs h
  | .float f, k, r, s, hr, hs, h => number_append_inj rfl hr hs h
  | .str t, k, r, s, _, _, h => by
    match k, kind_eq_of_append h with
    | .str u, _ =>
      simp only [dumpsChars, cons_append, append_assoc, nil_append, List.cons.injEq, true_and] at h
      obtain ⟨ht, hrs⟩ := escape_append_inj h
      exact ⟨by rw [String.toList_inj.mp ht], hrs⟩
  | .arr js, k, r, s, _, _, h => by
    match js, k, kind_eq_of_append h with
    | [], .arr [], _ => exact ⟨rfl, append_cancel_left h⟩
    | [], .arr (k :: ks), _ =>
      rw [dumpsChars, dumpsChars, cons_append, append_assoc] at h
      exact absurd (List.cons.inj h).2 (head_ne_of_other (by decide) _ _ _)
    | j :: js, .arr [], _ =>
      rw [dumpsChars, dumpsChars, cons_append, append_assoc] at h
      exact absurd (List.cons.inj h).2.symm (head_ne_of_other (by decide) _ _ _)
    | j :: js, .arr (k :: ks), _ =>
      have hite := congrArg (fun cs => ',' :: ' ' :: cs.tail) h
      obtain ⟨hjs, hrs⟩ := dumpsItems_append_inj (j :: js) (k :: ks) hite
      exact ⟨congrArg Json.arr hjs, hrs⟩
  | .obj es, k, r, s, _, _, h => by
    match es, k, kind_eq_of_append h with
    | [], .obj [], _ => exact ⟨rfl, append_cancel_left h⟩
    | [], .obj ((i, k) :: fs), _ =>
      rw [dumpsChars, dumpsChars, cons_append] at h
      exact absurd (List.cons.inj (List.cons.inj h).2).1 (by decide)
    | (i, j) :: es, .obj [], _ =>
      rw [dumpsChars, dumpsChars, cons_append] at h
      exact absurd (List.cons.inj (List.cons.inj h).2).1 (by decide)
    | (i, j) :: es, .obj ((l, k) :: fs), _ =>
      -- the entries of an object are those of a tail, with a brace in the place of the comma
      have hent := congrArg (fun cs => ',' :: ' ' :: cs.tail) h
      obtain ⟨hes, hrs⟩ := dumpsEntries_append_inj ((i, j) :: es) ((l, k) :: fs) hent
      exact ⟨congrArg Json.obj hes, hrs⟩

theorem dumpsItems_append_inj : ∀ (js ks : List Json) {r s : List Char},
    dumpsItems js ++ r = dumpsItems ks ++ s → js = ks ∧ r = s
  | [], [], _, _, h => ⟨rfl, append_cancel_left h⟩
  | [], _ :: _, _, _, h => absurd (List.cons.inj h).1 (by decide)
  | _ :: _, [], _, _, h => absurd (List.cons.inj h).1 (by decide)
  | j :: js, k :: ks, r, s, h => by
    rw [dumpsItems, dumpsItems, cons_append, cons_append, cons_append, cons_append,
      append_assoc, append_assoc] at h
    obtain ⟨rfl, hrest⟩ := dumpsChars_append_inj j k (ends_items _ _) (ends_items _ _)
      (List.cons.inj (List.cons.inj h).2).2
    obtain ⟨rfl, hrs⟩ := dumpsItems_append_inj js ks hrest
    exact ⟨rfl, hrs⟩

theorem dumpsEntries_append_inj : ∀ (es fs : List (String × Json)) {r s : List Char},
    dumpsEntries es ++ r = dumpsEntries fs ++ s → es = fs ∧ r = s
  | [], [], _, _, h => ⟨rfl, append_cancel_left h⟩
  | [], (_, _) :: _, _, _, h => absurd (List.cons.inj h).1 (by decide)
  | (_, _) :: _, [], _, _, h => absurd (List.cons.inj h).1 (by decide)
  | (i, j) :: es, (l, k) :: fs, r, s, h => by
    simp only [dumpsEntries, cons_append, append_assoc, List.cons.injEq, true_and] at h
    obtain ⟨hi, hval⟩ := escape_append_inj h
    obtain ⟨rfl, hrest⟩ := dumpsChars_append_inj j k (ends_entries _ _) (ends_entries _ _)
      (List.cons.inj (List.cons.inj hval).2).2
    obtain ⟨rfl, hrs⟩ := dumpsEntries_append_inj es fs hrest
    exact ⟨by rw [String.toList_inj.mp hi], hrs⟩

end

theorem dumps_injective (h : dumps j = dumps k) : j = k := by
  have hend : Ends [] := by
    intro c hc
    cases hc
  refine (dumpsChars_append_inj j k (r := []) (s := []) hend hend ?_).1
  rw [String.ofList_inj.mp h]

/-- With sorted keys the text forgets the order of the entries and nothing else. -/
theorem dumpsSorted_eq_iff (j k : Json) : dumpsSorted j = dumpsSorted k ↔ j.canon = k.canon :=
  ⟨dumps_injective, fun h => congrArg dumps h⟩

example : dumps (.obj [("b", .arr [.int (-3), .null]), ("a", .str "\x22é😀")]) =
    "\x7b\"b\": [-3, null], \"a\": \"\\\"\\u00e9\\ud83d\\ude00\"\x7d" := by decide

end Py.Json
