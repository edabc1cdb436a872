import Mathlib.Data.Nat.Bitwise
import Mathlib.Tactic.Ring

/-!
# Little-endian byte strings

Byte buffers are lists of bytes. `putU8`, `putU16Le` and `putU32Le` append a machine word in
little-endian order; `assemble` reads a list of bytes back as a number, least significant byte
first. `assemble_u16` and `assemble_u32` are the round trips, and `or_shiftLeft_eq_add` turns
the shift-and-or idiom of byte assembly into addition, which is what arithmetic needs.

`getU32Le`, `getU64Le` and `advance` read from the front of a buffer, and `none` is the panic of a
buffer too short. Each has a lemma that reads back what was put there.
-/

namespace LibRustdesk

abbrev Bytes := List UInt8

namespace LittleEndian

def putU8 (buf : Bytes) (v : UInt8) : Bytes := buf ++ [v]

def putU16Le (buf : Bytes) (v : UInt16) : Bytes := buf ++ [v.toUInt8, (v >>> 8).toUInt8]

def putU32Le (buf : Bytes) (v : UInt32) : Bytes :=
  buf ++ [v.toUInt8, (v >>> 8).toUInt8, (v >>> 16).toUInt8, (v >>> 24).toUInt8]

/-- The `k` low bytes of a number, low byte first. -/
def leBytes : ℕ → ℕ → Bytes
  | 0, _ => []
  | k + 1, n => UInt8.ofNat n :: leBytes k (n / 256)

/-- The eight bytes of a 64-bit word, low byte first. -/
def u64LeBytes (v : UInt64) : Bytes := leBytes 8 v.toNat

/-- The number a byte string denotes, least significant byte first. -/
def assemble : Bytes → ℕ
  | [] => 0
  | b :: bs => b.toNat + 256 * assemble bs

theorem or_shiftLeft_eq_add {a i : ℕ} (b : ℕ) (h : a < 2 ^ i) :
    a ||| (b <<< i) = a + b * 2 ^ i := by
  rw [Nat.shiftLeft_eq, Nat.or_comm, Nat.mul_comm b, ← Nat.two_pow_add_eq_or_of_lt h, Nat.add_comm]

theorem shiftLeft_or_eq_add {t i : ℕ} (n : ℕ) (h : t < 2 ^ i) :
    (n <<< i) ||| t = n * 2 ^ i + t := by
  rw [Nat.or_comm, or_shiftLeft_eq_add n h, Nat.add_comm]

theorem and_mask (n k : ℕ) : n &&& (2 ^ k - 1) = n % 2 ^ k :=
  Nat.and_two_pow_sub_one_eq_mod n k

theorem assemble_append (bs cs : Bytes) :
    assemble (bs ++ cs) = assemble bs + 256 ^ bs.length * assemble cs := by
  induction bs with
  | nil => simp [assemble]
  | cons b bs ih =>
    rw [List.cons_append, assemble, assemble, ih, List.length_cons, pow_succ']
    ring

theorem assemble_cons_mod_four (b : UInt8) (bs : Bytes) : assemble (b :: bs) % 4 = b.toNat % 4 := by
  rw [assemble]
  omega

theorem assemble_u16 (v : UInt16) : assemble (putU16Le [] v) = v.toNat := by
  have hv : v.toNat < 65536 := v.toNat_lt
  have h8 : (v >>> 8).toNat = v.toNat / 256 := by
    rw [UInt16.toNat_shiftRight, Nat.shiftRight_eq_div_pow]; rfl
  simp only [putU16Le, List.nil_append, assemble, UInt16.toNat_toUInt8, h8]
  omega

theorem assemble_u32 (v : UInt32) : assemble (putU32Le [] v) = v.toNat := by
  have hv : v.toNat < 4294967296 := v.toNat_lt
  have h8 : (v >>> 8).toNat = v.toNat / 256 := by
    rw [UInt32.toNat_shiftRight, Nat.shiftRight_eq_div_pow]; rfl
  have h16 : (v >>> 16).toNat = v.toNat / 65536 := by
    rw [UInt32.toNat_shiftRight, Nat.shiftRight_eq_div_pow]; rfl
  have h24 : (v >>> 24).toNat = v.toNat / 16777216 := by
    rw [UInt32.toNat_shiftRight, Nat.shiftRight_eq_div_pow]; rfl
  simp only [putU32Le, List.nil_append, assemble, UInt32.toNat_toUInt8, h8, h16, h24]
  omega

theorem assemble_leBytes (k n : ℕ) : assemble (leBytes k n) = n % 256 ^ k := by
  induction k generalizing n with
  | zero => simp [leBytes, assemble, Nat.mod_one]
  | succ k ih =>
    have hsplit : n % (256 * 256 ^ k) = n % 256 + 256 * (n / 256 % 256 ^ k) := Nat.mod_mul
    rw [leBytes, assemble, ih, UInt8.toNat_ofNat', pow_succ' 256 k, hsplit]

@[simp] theorem length_leBytes (k n : ℕ) : (leBytes k n).length = k := by
  induction k generalizing n with
  | zero => rfl
  | succ k ih => rw [leBytes, List.length_cons, ih]

theorem assemble_u64 (v : UInt64) : assemble (u64LeBytes v) = v.toNat := by
  rw [u64LeBytes, assemble_leBytes]
  exact Nat.mod_eq_of_lt v.toNat_lt

theorem u64LeBytes_injective : Function.Injective u64LeBytes := by
  intro v w h
  have hn : v.toNat = w.toNat := by rw [← assemble_u64, ← assemble_u64, h]
  exact UInt64.toNat_inj.mp hn

/-! ### Reading from the front -/

def putU64Le (buf : Bytes) (v : UInt64) : Bytes := buf ++ u64LeBytes v

/-- Skip `n` bytes. -/
def advance (n : ℕ) (buf : Bytes) : Option Bytes :=
  if n ≤ buf.length then some (buf.drop n) else none

def getU32Le (buf : Bytes) : Option (UInt32 × Bytes) :=
  (advance 4 buf).map fun rest => (UInt32.ofNat (assemble (buf.take 4)), rest)

def getU64Le (buf : Bytes) : Option (UInt64 × Bytes) :=
  (advance 8 buf).map fun rest => (UInt64.ofNat (assemble (buf.take 8)), rest)

theorem advance_append {bs : Bytes} {n : ℕ} (h : bs.length = n) (rest : Bytes) :
    advance n (bs ++ rest) = some rest := by
  have hle : n ≤ (bs ++ rest).length := by
    rw [List.length_append, h]
    exact Nat.le_add_right _ _
  unfold advance
  rw [if_pos hle, List.drop_left' h]

theorem getU32Le_append (v : UInt32) (rest : Bytes) :
    getU32Le (putU32Le [] v ++ rest) = some (v, rest) := by
  have hlen : (putU32Le [] v).length = 4 := rfl
  unfold getU32Le
  rw [advance_append hlen rest, List.take_left' hlen, assemble_u32, Option.map_some,
    UInt32.ofNat_toNat]

theorem getU64Le_append (v : UInt64) (rest : Bytes) :
    getU64Le (u64LeBytes v ++ rest) = some (v, rest) := by
  have hlen : (u64LeBytes v).length = 8 := length_leBytes 8 _
  unfold getU64Le
  rw [advance_append hlen rest, List.take_left' hlen, assemble_u64, Option.map_some,
    UInt64.ofNat_toNat]

end LittleEndian

end LibRustdesk
