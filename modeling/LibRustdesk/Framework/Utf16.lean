import LibRustdesk.Framework.LittleEndian
import Mathlib.Data.Char

/-!
# UTF-16 text

A text as 16-bit units, a pair of surrogates for each character beyond the first plane, and the
units as little-endian bytes.

* `encodeChar`, `encode`, `toUtf16Le` — from characters to units and bytes.
* `decode`, `fromUtf16Le` — and back; a surrogate without its partner or an odd number of bytes is
  an error.

`decode_encode_units` and `fromUtf16Le_toUtf16Le` are the round trips, and `toUtf16Le_append` lets a
padded block be read as a padded text.
-/

namespace LibRustdesk

namespace Utf16

open LittleEndian

def encodeChar (c : Char) : List ℕ :=
  if c.toNat < 0x10000 then [c.toNat]
  else [0xD800 + (c.toNat - 0x10000) / 0x400, 0xDC00 + (c.toNat - 0x10000) % 0x400]

def encode (s : List Char) : List ℕ := s.flatMap encodeChar

def toUtf16Le (s : List Char) : Bytes := (encode s).flatMap (leBytes 2)

def decode : List ℕ → Option (List Char)
  | [] => some []
  | u :: us =>
    if u < 0xD800 ∨ 0xDFFF < u then (decode us).map (Char.ofNat u :: ·)
    else if u < 0xDC00 then
      match us with
      | [] => none
      | v :: vs =>
        if 0xDC00 ≤ v ∧ v ≤ 0xDFFF then
          (decode vs).map (Char.ofNat (0x10000 + (u - 0xD800) * 0x400 + (v - 0xDC00)) :: ·)
        else none
    else none

def units : Bytes → Option (List ℕ)
  | [] => some []
  | [_] => none
  | lo :: hi :: bytes => (units bytes).map (assemble [lo, hi] :: ·)

def fromUtf16Le (bytes : Bytes) : Option (List Char) := (units bytes).bind decode

/-! ### Round trips -/

theorem decode_encodeChar (c : Char) (us : List ℕ) :
    decode (encodeChar c ++ us) = (decode us).map (c :: ·) := by
  have hchar : Char.ofNat c.toNat = c := Char.ofNat_toNat c
  have hvalid : c.toNat < 0xD800 ∨ 0xDFFF < c.toNat ∧ c.toNat < 0x110000 := c.valid
  unfold encodeChar
  split
  · next hplane =>
    have hsingle : c.toNat < 0xD800 ∨ 0xDFFF < c.toNat := by omega
    rw [List.singleton_append, decode.eq_def]
    dsimp only
    rw [if_pos hsingle, hchar]
  · next hplane =>
    -- a high and a low surrogate
    have hhigh : ¬ (0xD800 + (c.toNat - 0x10000) / 0x400 < 0xD800 ∨
        0xDFFF < 0xD800 + (c.toNat - 0x10000) / 0x400) := by omega
    have hlow : 0xD800 + (c.toNat - 0x10000) / 0x400 < 0xDC00 := by omega
    have hpair : 0xDC00 ≤ 0xDC00 + (c.toNat - 0x10000) % 0x400 ∧
        0xDC00 + (c.toNat - 0x10000) % 0x400 ≤ 0xDFFF := by omega
    have hcode : 0x10000 + (0xD800 + (c.toNat - 0x10000) / 0x400 - 0xD800) * 0x400 +
        (0xDC00 + (c.toNat - 0x10000) % 0x400 - 0xDC00) = c.toNat := by omega
    rw [List.cons_append, List.singleton_append, decode.eq_def]
    dsimp only
    rw [if_neg hhigh, if_pos hlow, if_pos hpair, hcode, hchar]

theorem decode_encode_units (s : List Char) : decode (encode s) = some s := by
  induction s with
  | nil => rfl
  | cons c s ih =>
    show decode (encodeChar c ++ encode s) = _
    rw [decode_encodeChar, ih, Option.map_some]

theorem encodeChar_lt (c : Char) : ∀ u ∈ encodeChar c, u < 0x10000 := by
  have hvalid : c.toNat < 0xD800 ∨ 0xDFFF < c.toNat ∧ c.toNat < 0x110000 := c.valid
  intro u hu
  unfold encodeChar at hu
  split at hu
  · rw [List.mem_singleton] at hu
    omega
  · rw [List.mem_cons, List.mem_singleton] at hu
    omega

theorem units_leBytes {us : List ℕ} (h : ∀ u ∈ us, u < 0x10000) :
    units (us.flatMap (leBytes 2)) = some us := by
  induction us with
  | nil => rfl
  | cons u us ih =>
    obtain ⟨hu, hus⟩ := List.forall_mem_cons.mp h
    have hunit : assemble (leBytes 2 u) = u := by
      rw [assemble_leBytes]
      exact Nat.mod_eq_of_lt hu
    show (units (us.flatMap (leBytes 2))).map (assemble (leBytes 2 u) :: ·) = _
    rw [ih hus, hunit, Option.map_some]

theorem fromUtf16Le_toUtf16Le (s : List Char) : fromUtf16Le (toUtf16Le s) = some s := by
  have hunits : ∀ u ∈ encode s, u < 0x10000 := by
    intro u hu
    obtain ⟨c, -, hc⟩ := List.mem_flatMap.mp hu
    exact encodeChar_lt c u hc
  unfold fromUtf16Le toUtf16Le
  rw [units_leBytes hunits, Option.bind_some, decode_encode_units]

theorem toUtf16Le_append (s t : List Char) : toUtf16Le (s ++ t) = toUtf16Le s ++ toUtf16Le t := by
  unfold toUtf16Le encode
  rw [List.flatMap_append, List.flatMap_append]

@[simp] theorem length_toUtf16Le (s : List Char) :
    (toUtf16Le s).length = 2 * (encode s).length := by
  unfold toUtf16Le
  induction encode s with
  | nil => rfl
  | cons u us ih =>
    rw [List.flatMap_cons, List.length_append, ih, length_leBytes, List.length_cons]
    ring

theorem toUtf16Le_replicate (n : ℕ) :
    toUtf16Le (List.replicate n '\x00') = List.replicate (2 * n) 0 := by
  induction n with
  | zero => rfl
  | succ n ih =>
    have hnext : toUtf16Le (List.replicate (n + 1) '\x00') =
        0 :: 0 :: toUtf16Le (List.replicate n '\x00') := rfl
    rw [hnext, ih, Nat.mul_succ]
    rfl

end Utf16

end LibRustdesk
