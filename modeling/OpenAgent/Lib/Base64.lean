import Mathlib.Data.List.Basic

namespace Base64

def digit (n : Nat) : Char :=
  if n < 26 then Char.ofNat (65 + n)
  else if n < 52 then Char.ofNat (71 + n)
  else if n < 62 then Char.ofNat (n - 4)
  else if n = 62 then '+' else '/'

def value (c : Char) : Option Nat :=
  let n := c.toNat
  if 65 ≤ n ∧ n ≤ 90 then some (n - 65)
  else if 97 ≤ n ∧ n ≤ 122 then some (n - 71)
  else if 48 ≤ n ∧ n ≤ 57 then some (n + 4)
  else if n = 43 then some 62
  else if n = 47 then some 63
  else none

def encode : List UInt8 → List Char
  | [] => []
  | [a] => [digit (a.toNat / 4), digit (a.toNat % 4 * 16), '=', '=']
  | [a, b] => [digit (a.toNat / 4), digit (a.toNat % 4 * 16 + b.toNat / 16), digit (b.toNat % 16 * 4), '=']
  | a :: b :: c :: rest =>
    digit (a.toNat / 4) :: digit (a.toNat % 4 * 16 + b.toNat / 16) ::
      digit (b.toNat % 16 * 4 + c.toNat / 64) :: digit (c.toNat % 64) :: encode rest

def byte1 (w x : Nat) : UInt8 := UInt8.ofNat (w * 4 + x / 16)

def byte2 (x y : Nat) : UInt8 := UInt8.ofNat (x % 16 * 16 + y / 4)

def byte3 (y z : Nat) : UInt8 := UInt8.ofNat (y % 4 * 64 + z)

def decode : List Char → Option (List UInt8)
  | [] => some []
  | w :: x :: y :: z :: rest =>
    if z = '=' then
      if rest ≠ [] then none
      else if y = '=' then do
        let w ← value w
        let x ← value x
        return [byte1 w x]
      else do
        let w ← value w
        let x ← value x
        let y ← value y
        return [byte1 w x, byte2 x y]
    else do
      let w ← value w
      let x ← value x
      let y ← value y
      let z ← value z
      let bytes ← decode rest
      return byte1 w x :: byte2 x y :: byte3 y z :: bytes
  | _ => none

theorem value_digit {n : Nat} (h : n < 64) : value (digit n) = some n := by
  have hall : ∀ m : Fin 64, value (digit m.val) = some m.val := by decide
  exact hall ⟨n, h⟩

theorem digit_ne_pad {n : Nat} (h : n < 64) : digit n ≠ '=' := by
  have hall : ∀ m : Fin 64, digit m.val ≠ '=' := by decide
  exact hall ⟨n, h⟩

theorem byte1_digits {a k : Nat} (hk : k < 16) : byte1 (a / 4) (a % 4 * 16 + k) = UInt8.ofNat a := by
  unfold byte1
  congr 1
  omega

theorem byte2_digits {a b k : Nat} (hb : b < 256) (hk : k < 4) :
    byte2 (a * 16 + b / 16) (b % 16 * 4 + k) = UInt8.ofNat b := by
  unfold byte2
  congr 1
  omega

theorem byte3_digits {b c : Nat} (hc : c < 256) : byte3 (b * 4 + c / 64) (c % 64) = UInt8.ofNat c := by
  unfold byte3
  congr 1
  omega

theorem decode_encode (bytes : List UInt8) : decode (encode bytes) = some bytes := by
  induction bytes using encode.induct with
  | case1 => rfl
  | case2 a =>
    have ha := a.toNat_lt
    have h1 := byte1_digits (k := 0) (a := a.toNat) (by omega)
    simp only [Nat.add_zero, UInt8.ofNat_toNat] at h1
    simp [encode, decode, value_digit (show a.toNat / 4 < 64 by omega),
      value_digit (show a.toNat % 4 * 16 < 64 by omega), h1]
  | case3 a b =>
    have ha := a.toNat_lt
    have hb := b.toNat_lt
    have h1 := byte1_digits (k := b.toNat / 16) (a := a.toNat) (by omega)
    have h2 := byte2_digits (a := a.toNat % 4) (k := 0) hb (by omega)
    simp only [Nat.add_zero, UInt8.ofNat_toNat] at h1 h2
    simp [encode, decode, value_digit (show a.toNat / 4 < 64 by omega),
      value_digit (show a.toNat % 4 * 16 + b.toNat / 16 < 64 by omega),
      value_digit (show b.toNat % 16 * 4 < 64 by omega),
      digit_ne_pad (show b.toNat % 16 * 4 < 64 by omega), h1, h2]
  | case4 a b c rest ih =>
    have ha := a.toNat_lt
    have hb := b.toNat_lt
    have hc := c.toNat_lt
    have h1 := byte1_digits (k := b.toNat / 16) (a := a.toNat) (by omega)
    have h2 := byte2_digits (a := a.toNat % 4) (k := c.toNat / 64) hb (by omega)
    have h3 := byte3_digits (b := b.toNat % 16) hc
    simp only [UInt8.ofNat_toNat] at h1 h2 h3
    simp [encode, decode, value_digit (show a.toNat / 4 < 64 by omega),
      value_digit (show a.toNat % 4 * 16 + b.toNat / 16 < 64 by omega),
      value_digit (show b.toNat % 16 * 4 + c.toNat / 64 < 64 by omega),
      value_digit (show c.toNat % 64 < 64 by omega),
      digit_ne_pad (show c.toNat % 64 < 64 by omega), h1, h2, h3, ih]

theorem length_encode (data : List UInt8) : (encode data).length % 4 = 0 := by
  induction data using encode.induct with
  | case1 => rfl
  | case2 _ | case3 _ _ => simp [encode]
  | case4 a b c rest ih =>
    simp only [encode, List.length_cons]
    omega

end Base64
