import Mathlib.Algebra.Group.Nat.Defs
import Mathlib.Data.List.Basic

namespace Framing

open List Option

/-- `n` in `width` bytes, the most significant first. -/
def bigEndian : Nat → Nat → List UInt8
  | 0, _ => []
  | width + 1, n => bigEndian width (n / 256) ++ [UInt8.ofNat (n % 256)]

/-- `n.to_bytes(width, "big")`, which fails where `n` does not fit. -/
def toBytes (width n : Nat) : Option (List UInt8) :=
  if n < 256 ^ width then some (bigEndian width n) else none

def frame (width : Nat) (raw : List UInt8) : Option (List UInt8) :=
  (toBytes width raw.length).map (· ++ raw)

def framed (width : Nat) : List (List UInt8) → Option (List UInt8)
  | [] => some []
  | raw :: raws => (frame width raw).bind (fun head => (framed width raws).map (head ++ ·))

variable {width : Nat}

@[simp] theorem length_bigEndian (width n : Nat) : (bigEndian width n).length = width := by
  induction width generalizing n with
  | zero => rfl
  | succ width ih => simp [bigEndian, ih]

theorem bigEndian_injective {n m : Nat} (hn : n < 256 ^ width) (hm : m < 256 ^ width)
    (h : bigEndian width n = bigEndian width m) : n = m := by
  induction width generalizing n m with
  | zero => simp at hn hm; omega
  | succ width ih =>
    rw [Nat.pow_succ] at hn hm
    obtain ⟨hhigh, hlow⟩ := append_inj h (by simp)
    have hdiv := ih (by omega) (by omega) hhigh
    have hmod := congrArg UInt8.toNat (singleton_inj.mp hlow)
    simp only [UInt8.toNat_ofNat'] at hmod
    omega

variable {bytes raw : List UInt8}

theorem toBytes_some {n : Nat} (h : toBytes width n = some bytes) :
    n < 256 ^ width ∧ bytes = bigEndian width n := by
  rw [toBytes] at h
  split at h
  · cases h
    exact ⟨‹_›, rfl⟩
  · cases h

theorem frame_some (h : frame width raw = some bytes) :
    raw.length < 256 ^ width ∧ bytes = bigEndian width raw.length ++ raw := by
  obtain ⟨head, hhead, rfl⟩ := map_eq_some_iff.mp h
  obtain ⟨hlt, rfl⟩ := toBytes_some hhead
  exact ⟨hlt, rfl⟩

/-- The bytes of a frame, at the front of others, give back its content and the others. -/
theorem frame_append_injective {raw raw' bytes bytes' rest rest' : List UInt8} (h : frame width raw = some bytes)
    (h' : frame width raw' = some bytes') (heq : bytes ++ rest = bytes' ++ rest') : raw = raw' ∧ rest = rest' := by
  obtain ⟨hlt, rfl⟩ := frame_some h
  obtain ⟨hlt', rfl⟩ := frame_some h'
  rw [append_assoc, append_assoc] at heq
  obtain ⟨hhead, htail⟩ := append_inj heq (by simp)
  have hlen := bigEndian_injective hlt hlt' hhead
  exact append_inj htail hlen

variable {raws : List (List UInt8)}

theorem framed_cons_some (h : framed width (raw :: raws) = some bytes) :
    ∃ head rest, frame width raw = some head ∧ framed width raws = some rest ∧ bytes = head ++ rest := by
  obtain ⟨head, hhead, h⟩ := bind_eq_some_iff.mp h
  obtain ⟨rest, hrest, rfl⟩ := map_eq_some_iff.mp h
  exact ⟨head, rest, hhead, hrest, rfl⟩

theorem framed_cons_ne_nil (hwid : 0 < width)
    (h : framed width (raw :: raws) = some bytes) : bytes ≠ [] := by
  obtain ⟨head, rest, hhead, _, rfl⟩ := framed_cons_some h
  obtain ⟨_, rfl⟩ := frame_some hhead
  intro hnil
  have hlen := congrArg List.length hnil
  simp at hlen
  omega

theorem framed_injective {raws raws' : List (List UInt8)} {bytes : List UInt8} (hwid : 0 < width)
    (h : framed width raws = some bytes) (h' : framed width raws' = some bytes) : raws = raws' := by
  induction raws generalizing raws' bytes with
  | nil =>
    cases raws' with
    | nil => rfl
    | cons raw' raws' => exact absurd (some_inj.mp h).symm (framed_cons_ne_nil hwid h')
  | cons raw raws ih =>
    cases raws' with
    | nil => exact absurd (some_inj.mp h').symm (framed_cons_ne_nil hwid h)
    | cons raw' raws' =>
      obtain ⟨head, rest, hhead, hrest, rfl⟩ := framed_cons_some h
      obtain ⟨head', rest', hhead', hrest', heq⟩ := framed_cons_some h'
      obtain ⟨hraw, htail⟩ := frame_append_injective hhead hhead' heq
      rw [hraw, ih hrest (htail ▸ hrest')]

theorem framed_isSome (h : ∀ raw ∈ raws, raw.length < 256 ^ width) :
    ∃ bytes, framed width raws = some bytes := by
  induction raws with
  | nil => exact ⟨[], rfl⟩
  | cons raw raws ih =>
    obtain ⟨rest, hrest⟩ := ih (fun x hx => h x (mem_cons_of_mem _ hx))
    have hraw := h raw mem_cons_self
    exact ⟨_, by rw [framed, hrest, frame, toBytes, if_pos hraw]; rfl⟩

end Framing
