import Mathlib.Data.Int.Log
import Mathlib.Data.Rat.Floor

/-!
# Single precision

The finite numbers of an `f32`, as rational numbers: those which have 24 binary digits, of which the
last is not below `2 ^ -149`. Every operation is that on the rational numbers, rounded to the
nearest number of the format, and of two to the one whose last digit is even. There is no infinity
here, so this is the format for numbers which stay below `2 ^ 128`.

* `F32.round` — the rounding; `F32.round_idem` makes its values the numbers of the format.
* `F32.round_mono` — **rounding keeps the order** of numbers which are not negative.
* `F32.round_natCast` — natural numbers of up to 24 digits are numbers of the format.
* `F32.asU32_ceil_div_le` — a quotient by a number from one on, rounded up, is no more than the
  natural number that it is of.
-/

namespace LibRustdesk

/-! ### The nearest integer -/

/-- The nearest integer to a number, the even one of two. -/
def nearest (q : ℚ) : ℤ :=
  if q - ⌊q⌋ < 1 / 2 then ⌊q⌋
  else if 1 / 2 < q - ⌊q⌋ then ⌊q⌋ + 1
  else if ⌊q⌋ % 2 = 0 then ⌊q⌋ else ⌊q⌋ + 1

theorem floor_le_nearest (q : ℚ) : ⌊q⌋ ≤ nearest q := by
  unfold nearest
  split_ifs <;> omega

theorem nearest_le_floor_add_one (q : ℚ) : nearest q ≤ ⌊q⌋ + 1 := by
  unfold nearest
  split_ifs <;> omega

theorem nearest_intCast (n : ℤ) : nearest n = n := by
  unfold nearest
  rw [Int.floor_intCast, sub_self]
  exact if_pos one_half_pos

theorem nearest_mono {p q : ℚ} (h : p ≤ q) : nearest p ≤ nearest q := by
  rcases lt_or_eq_of_le (Int.floor_le_floor h) with hlt | heq
  · calc nearest p
        ≤ ⌊p⌋ + 1 := nearest_le_floor_add_one p
      _ ≤ ⌊q⌋ := hlt
      _ ≤ nearest q := floor_le_nearest q
  · -- between the same integers it is the fraction that decides, or both are in the middle
    have hfrac : p - ⌊p⌋ ≤ q - ⌊p⌋ := sub_le_sub_right h _
    unfold nearest
    rw [← heq]
    split_ifs <;> first | omega | linarith

theorem abs_nearest_le {q : ℚ} {n : ℤ} (h : |q| ≤ n) : |nearest q| ≤ n := by
  obtain ⟨hlo, hhi⟩ := abs_le.mp h
  have hlo' := nearest_mono hlo
  have hhi' := nearest_mono hhi
  rw [← Int.cast_neg, nearest_intCast] at hlo'
  rw [nearest_intCast] at hhi'
  exact abs_le.mpr ⟨hlo', hhi'⟩

/-! ### Rounding -/

namespace F32

def lastPlace (q : ℚ) : ℤ := max (Int.log 2 |q| - 23) (-149)

def round (q : ℚ) : ℚ := nearest (q / 2 ^ lastPlace q) * 2 ^ lastPlace q

theorem place_pos (e : ℤ) : (0 : ℚ) < 2 ^ e := zpow_pos two_pos e

theorem round_of_multiple {q : ℚ} (m : ℤ) (h : q = m * 2 ^ lastPlace q) : round q = q := by
  have hquot : q / 2 ^ lastPlace q = m := (div_eq_iff (place_pos _).ne').mpr h
  unfold round
  rw [hquot, nearest_intCast]
  exact h.symm

theorem round_zero : round 0 = 0 := round_of_multiple 0 (by rw [Int.cast_zero, zero_mul])

theorem round_mul_zpow {m e : ℤ} (hm : |m| < 2 ^ 24) (he : -149 ≤ e) :
    round (m * 2 ^ e) = m * 2 ^ e := by
  rcases eq_or_ne m 0 with rfl | hne
  · rw [Int.cast_zero, zero_mul]
    exact round_zero
  -- the last place of the number is not above `e`, so it is a multiple of it
  have habs : |(m : ℚ) * 2 ^ e| < 2 ^ (e + 24) := by
    rw [abs_mul, abs_of_pos (place_pos e), zpow_add₀ two_ne_zero, mul_comm ((2 : ℚ) ^ e)]
    refine mul_lt_mul_of_pos_right ?_ (place_pos e)
    exact_mod_cast hm
  have hpos : 0 < |(m : ℚ) * 2 ^ e| :=
    abs_pos.mpr (mul_ne_zero (Int.cast_ne_zero.mpr hne) (place_pos e).ne')
  have hlog : Int.log 2 |(m : ℚ) * 2 ^ e| < e + 24 :=
    (Int.lt_zpow_iff_log_lt one_lt_two hpos).mp (by exact_mod_cast habs)
  have hplace : lastPlace (m * 2 ^ e) ≤ e := max_le (by omega) he
  refine round_of_multiple (m * 2 ^ (e - lastPlace (m * 2 ^ e)).toNat) ?_
  generalize lastPlace (m * 2 ^ e) = k at hplace
  have hsplit : (2 : ℚ) ^ e = 2 ^ (e - k).toNat * 2 ^ k := by
    rw [← zpow_natCast, ← zpow_add₀ two_ne_zero, Int.toNat_of_nonneg (by omega), sub_add_cancel]
  push_cast
  rw [hsplit, mul_assoc]

theorem round_carry {e : ℤ} (he : -149 ≤ e) {m : ℤ} (hm : |m| = 2 ^ 24) :
    round (m * 2 ^ e) = m * 2 ^ e := by
  obtain ⟨n, rfl, hn⟩ : ∃ n : ℤ, m = n * 2 ∧ |n| < 2 ^ 24 := by
    rcases abs_eq (by decide) |>.mp hm with rfl | rfl
    · exact ⟨2 ^ 23, by decide, by decide⟩
    · exact ⟨-2 ^ 23, by decide, by decide⟩
  have hshift : ((n * 2 : ℤ) : ℚ) * 2 ^ e = n * 2 ^ (e + 1) := by
    rw [zpow_add₀ two_ne_zero, zpow_one]
    push_cast
    ring
  rw [hshift]
  exact round_mul_zpow hn (by omega)

theorem round_idem (q : ℚ) : round (round q) = round q := by
  have hplace : -149 ≤ lastPlace q := le_max_right _ _
  have hquot : |q / 2 ^ lastPlace q| ≤ ((2 ^ 24 : ℤ) : ℚ) := by
    rw [abs_div, abs_of_pos (place_pos _), div_le_iff₀ (place_pos _)]
    calc |q|
        ≤ 2 ^ (Int.log 2 |q| + 1) := (Int.lt_zpow_succ_log_self one_lt_two |q|).le
      _ ≤ 2 ^ (24 + lastPlace q) := by
        refine zpow_le_zpow_right₀ one_le_two ?_
        have := le_max_left (Int.log 2 |q| - 23) (-149)
        unfold lastPlace
        omega
      _ = ((2 ^ 24 : ℤ) : ℚ) * 2 ^ lastPlace q := by
        rw [zpow_add₀ two_ne_zero]
        norm_num
  have hdigits := abs_nearest_le hquot
  rcases lt_or_eq_of_le hdigits with hlt | heq
  · exact round_mul_zpow hlt hplace
  · exact round_carry hplace heq

theorem round_natCast {n : ℕ} (h : n < 2 ^ 24) : round n = n := by
  have hfixed := round_mul_zpow (m := n) (e := 0)
    (by rw [abs_of_nonneg (by omega)]; exact_mod_cast h) (by decide)
  rw [zpow_zero, mul_one] at hfixed
  exact_mod_cast hfixed

theorem round_le_of_multiple {q : ℚ} (m : ℤ) (h : q ≤ m * 2 ^ lastPlace q) :
    round q ≤ m * 2 ^ lastPlace q := by
  have hle := nearest_mono ((div_le_iff₀ (place_pos _)).mpr h)
  rw [nearest_intCast] at hle
  exact mul_le_mul_of_nonneg_right (Int.cast_le.mpr hle) (place_pos _).le

theorem le_round_of_multiple {q : ℚ} (m : ℤ) (h : m * 2 ^ lastPlace q ≤ q) :
    m * 2 ^ lastPlace q ≤ round q := by
  have hle := nearest_mono ((le_div_iff₀ (place_pos _)).mpr h)
  rw [nearest_intCast] at hle
  exact mul_le_mul_of_nonneg_right (Int.cast_le.mpr hle) (place_pos _).le

theorem round_nonneg {q : ℚ} (h : 0 ≤ q) : 0 ≤ round q := by
  have hle := le_round_of_multiple 0 (q := q) (by rw [Int.cast_zero, zero_mul]; exact h)
  rwa [Int.cast_zero, zero_mul] at hle

theorem round_mono {p q : ℚ} (hp : 0 ≤ p) (h : p ≤ q) : round p ≤ round q := by
  rcases hp.eq_or_lt with rfl | hp
  · rw [round_zero]
    exact round_nonneg h
  have hq : 0 < q := lt_of_lt_of_le hp h
  have hlog : Int.log 2 |p| ≤ Int.log 2 |q| := by
    rw [abs_of_pos hp, abs_of_pos hq]
    exact Int.log_mono_right hp h
  have hplace : lastPlace p ≤ lastPlace q := max_le_max_right (-149) (by omega)
  rcases hplace.eq_or_lt with heq | hlt
  · unfold round
    rw [← heq]
    refine mul_le_mul_of_nonneg_right (Int.cast_le.mpr (nearest_mono ?_)) (place_pos _).le
    exact div_le_div_of_nonneg_right h (place_pos _).le
  · -- the power of two that is the first digit of the greater number is between them
    have hnormal : lastPlace q = Int.log 2 |q| - 23 := by
      unfold lastPlace at hlt ⊢
      omega
    have hless : Int.log 2 |p| + 1 ≤ Int.log 2 |q| := by
      unfold lastPlace at hlt
      omega
    have hlow : p ≤ 2 ^ Int.log 2 |q| := by
      calc p
          ≤ 2 ^ (Int.log 2 p + 1) := (Int.lt_zpow_succ_log_self one_lt_two p).le
        _ ≤ 2 ^ Int.log 2 |q| := zpow_le_zpow_right₀ one_le_two (by rwa [abs_of_pos hp] at hless)
    have hhigh : (2 : ℚ) ^ Int.log 2 |q| ≤ q := by
      rw [abs_of_pos hq]
      exact_mod_cast Int.zpow_log_le_self one_lt_two hq
    have hmultiple {r : ℚ} (hr : lastPlace r ≤ lastPlace q) :
        ((2 ^ (Int.log 2 |q| - lastPlace r).toNat : ℤ) : ℚ) * 2 ^ lastPlace r =
          2 ^ Int.log 2 |q| := by
      push_cast
      rw [← zpow_natCast, ← zpow_add₀ two_ne_zero, Int.toNat_of_nonneg (by omega), sub_add_cancel]
    calc round p
        ≤ 2 ^ Int.log 2 |q| := by
          rw [← hmultiple hplace] at hlow ⊢
          exact round_le_of_multiple _ hlow
      _ ≤ round q := by
          rw [← hmultiple le_rfl] at hhigh ⊢
          exact le_round_of_multiple _ hhigh

end F32

/-! ### The format -/

def F32 : Type := { q : ℚ // F32.round q = q }

namespace F32

instance : LinearOrder F32 := inferInstanceAs (LinearOrder { q : ℚ // F32.round q = q })

/-- The number of the format that is nearest to a rational number. -/
def ofRat (q : ℚ) : F32 := ⟨round q, round_idem q⟩

instance : Add F32 := ⟨fun a b => ofRat (a.val + b.val)⟩
instance : Mul F32 := ⟨fun a b => ofRat (a.val * b.val)⟩
instance : Div F32 := ⟨fun a b => ofRat (a.val / b.val)⟩

/-- `as f32` of an unsigned integer. -/
def ofNat (n : ℕ) : F32 := ofRat n

def ceil (a : F32) : F32 := ofRat ⌈a.val⌉

/-- `as u32`, which cuts off the fraction, and saturates. -/
def asU32 (a : F32) : ℕ := min ⌊a.val⌋.toNat 4294967295

/-- `clamp`, which asserts that the bounds are in order. -/
def clamp (a lo hi : F32) : Option F32 := if lo ≤ hi then some (min (max a lo) hi) else none

theorem ofRat_mono {p q : ℚ} (hp : 0 ≤ p) (h : p ≤ q) : ofRat p ≤ ofRat q := round_mono hp h

theorem ofNat_mono {m n : ℕ} (h : m ≤ n) : ofNat m ≤ ofNat n :=
  ofRat_mono (Nat.cast_nonneg m) (Nat.cast_le.mpr h)

theorem ofNat_val {n : ℕ} (h : n < 2 ^ 24) : (ofNat n).val = n := round_natCast h

theorem asU32_ceil_le {a : F32} {n : ℕ} (hn : n < 2 ^ 24) (h0 : 0 ≤ a.val) (h : a.val ≤ n) :
    (ceil a).asU32 ≤ n := by
  have hceil : (ceil a).val ≤ n := by
    calc (ceil a).val
        ≤ round ((n : ℤ) : ℚ) :=
          round_mono (Int.cast_nonneg (Int.ceil_nonneg h0)) (Int.cast_le.mpr (Int.ceil_le.mpr h))
      _ = n := round_natCast hn
  have hfloor : ⌊(ceil a).val⌋ ≤ n := by
    rw [← Int.floor_natCast (R := ℚ) n]
    exact Int.floor_le_floor hceil
  exact le_trans (min_le_left _ _) (Int.toNat_le.mpr hfloor)

theorem asU32_ceil_div_le {n : ℕ} (hn : n < 2 ^ 24) {r : F32} (hr : 1 ≤ r.val) :
    (ceil (ofNat n / r)).asU32 ≤ n := by
  have hquot : 0 ≤ (ofNat n).val / r.val :=
    div_nonneg (round_nonneg (Nat.cast_nonneg n)) (le_trans zero_le_one hr)
  refine asU32_ceil_le hn (round_nonneg hquot) ?_
  calc round ((ofNat n).val / r.val)
      ≤ round n := by
        refine round_mono hquot ?_
        rw [ofNat_val hn]
        exact div_le_self (Nat.cast_nonneg n) hr
    _ = n := round_natCast hn

theorem one_le_div {m n : ℕ} (hm : 0 < m) (hm' : m < 2 ^ 24) (h : m ≤ n) :
    1 ≤ (ofNat n / ofNat m).val := by
  have hle : (m : ℚ) ≤ (ofNat n).val := by
    rw [← ofNat_val hm']
    exact ofNat_mono h
  have hone : (1 : ℚ) = round 1 := by exact_mod_cast (round_natCast (n := 1) (by decide)).symm
  calc (1 : ℚ)
      = round 1 := hone
    _ ≤ round ((ofNat n).val / (ofNat m).val) := by
      refine round_mono zero_le_one ?_
      rw [ofNat_val hm', le_div_iff₀ (Nat.cast_pos.mpr hm), one_mul]
      exact hle

end F32

end LibRustdesk
