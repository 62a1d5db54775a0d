import Mathlib.Data.List.Infix

namespace Sql

/-- `lower` of SQLite, and the folding of `LIKE`: ASCII letters only. -/
def lowerAscii (c : Char) : Char := if 'A' ≤ c ∧ c ≤ 'Z' then Char.ofNat (c.toNat + 32) else c

def sameLetter (c d : Char) : Bool := lowerAscii c = lowerAscii d

/-- `text LIKE pattern ESCAPE '\'`. -/
def like : List Char → List Char → Bool
  | [], text => text.isEmpty
  | '%' :: pattern, text => text.tails.any (like pattern)
  | '_' :: pattern, text => match text with
      | _ :: rest => like pattern rest
      | [] => false
  | ['\\'], _ => false
  | '\\' :: c :: pattern, text => match text with
      | d :: rest => sameLetter c d && like pattern rest
      | [] => false
  | c :: pattern, text => match text with
      | d :: rest => sameLetter c d && like pattern rest
      | [] => false

def escapeLike (term : List Char) : List Char :=
  term.flatMap (fun c => if c = '\\' ∨ c = '%' ∨ c = '_' then ['\\', c] else [c])

end Sql
