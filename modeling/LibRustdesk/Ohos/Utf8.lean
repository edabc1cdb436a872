import LibRustdesk.Ohos.Password

/-!
# Encoded text decodes to itself

`String::from_utf8_lossy` replaces what is not UTF-8. What `as_bytes` makes of a text is UTF-8, so
it comes back as it was: the decoder reads one character for each one that was encoded.

* `fromUtf8LossyFuel_char` — one character, by the number of its bytes. The ranges that the decoder
  asks of the first continuation byte are what rules out overlong sequences and surrogates, and no
  character is either.
* `fromUtf8Lossy_asBytes` — the whole text, and so for `String::from_utf8` (`fromUtf8_asBytes`).
-/

namespace LibRustdesk

namespace Ohos

open LittleEndian

/-! ### The lead byte -/

variable {b : UInt8}

theorem utf8Tail_two (hlo : 0xC2 ≤ b.toNat) (hhi : b.toNat ≤ 0xDF) :
    utf8Tail b = some (1, 0x80, 0xBF) := by
  exact if_pos ⟨UInt8.le_iff_toNat_le.mpr hlo, UInt8.le_iff_toNat_le.mpr hhi⟩

theorem utf8Tail_three (hlo : 0xE0 ≤ b.toNat) (hhi : b.toNat ≤ 0xEF) : utf8Tail b = some
    (2, if b.toNat = 0xE0 then 0xA0 else 0x80, if b.toNat = 0xED then 0x9F else 0xBF) := by
  unfold utf8Tail
  simp only [UInt8.le_iff_toNat_le, ← UInt8.toNat_inj, UInt8.reduceToNat]
  rw [if_neg (by omega)]
  by_cases h0 : b.toNat = 0xE0
  · rw [if_pos h0, if_pos h0, if_neg (by omega)]
  · rw [if_neg h0, if_neg h0]
    by_cases hd : b.toNat = 0xED
    · rw [if_pos hd, if_pos hd]
    · rw [if_neg hd, if_neg hd, if_pos (by omega)]

theorem utf8Tail_four (hlo : 0xF0 ≤ b.toNat) (hhi : b.toNat ≤ 0xF4) : utf8Tail b = some
    (3, if b.toNat = 0xF0 then 0x90 else 0x80, if b.toNat = 0xF4 then 0x8F else 0xBF) := by
  unfold utf8Tail
  simp only [UInt8.le_iff_toNat_le, ← UInt8.toNat_inj, UInt8.reduceToNat]
  rw [if_neg (by omega), if_neg (by omega), if_neg (by omega), if_neg (by omega)]
  by_cases h0 : b.toNat = 0xF0
  · rw [if_pos h0, if_pos h0, if_neg (by omega)]
  · rw [if_neg h0, if_neg h0]
    by_cases h4 : b.toNat = 0xF4
    · rw [if_neg (by omega), if_pos h4, if_pos h4]
    · rw [if_pos (by omega), if_neg h4]

/-! ### The bytes that follow -/

theorem utf8Continue_cons {acc n : ℕ} {lo hi b : UInt8} (rest : Bytes)
    (hlo : lo.toNat ≤ b.toNat) (hhi : b.toNat ≤ hi.toNat) :
    utf8Continue acc (n + 1) lo hi (b :: rest) =
      utf8Continue (acc * 64 + b.toNat % 64) n 0x80 0xBF rest := by
  exact if_pos ⟨UInt8.le_iff_toNat_le.mpr hlo, UInt8.le_iff_toNat_le.mpr hhi⟩

theorem toNat_byte {n : ℕ} (h : n < 256) : (UInt8.ofNat n).toNat = n :=
  UInt8.toNat_ofNat_of_lt' h

theorem utf8Continue_six {acc n x : ℕ} (rest : Bytes) (hx : x < 64) :
    utf8Continue acc (n + 1) 0x80 0xBF (UInt8.ofNat (x + 0x80) :: rest) =
      utf8Continue (acc * 64 + x) n 0x80 0xBF rest := by
  have hbyte := toNat_byte (n := x + 0x80) (by omega)
  have hlo : (0x80 : UInt8).toNat ≤ (UInt8.ofNat (x + 0x80)).toNat := by
    rw [hbyte]
    exact Nat.le_add_left _ _
  have hhi : (UInt8.ofNat (x + 0x80)).toNat ≤ (0xBF : UInt8).toNat := by
    rw [hbyte]
    exact Nat.add_le_add_right (Nat.le_of_lt_succ hx) _
  rw [utf8Continue_cons rest hlo hhi, hbyte]
  congr 1
  omega

/-! ### A character -/

theorem fromUtf8LossyFuel_ascii (h : b.toNat < 0x80) (fuel : ℕ) (rest : Bytes) :
    fromUtf8LossyFuel (fuel + 1) (b :: rest) = Char.ofNat b.toNat :: fromUtf8LossyFuel fuel rest :=
  if_pos (UInt8.lt_iff_toNat_lt.mpr h)

theorem fromUtf8LossyFuel_sequence {b lo hi : UInt8} {tail rest : Bytes} {count code : ℕ}
    (hb : 0x80 ≤ b.toNat) (htail : utf8Tail b = some (count, lo, hi))
    (hcode : utf8Continue (utf8Lead b count) count lo hi tail = (some code, rest)) (fuel : ℕ) :
    fromUtf8LossyFuel (fuel + 1) (b :: tail) = Char.ofNat code :: fromUtf8LossyFuel fuel rest := by
  have hascii : ¬ b < 0x80 := fun h => absurd (UInt8.lt_iff_toNat_lt.mp h) (Nat.not_lt.mpr hb)
  show (if b < 0x80 then _ else _) = _
  rw [if_neg hascii, htail]
  dsimp only
  rw [hcode]

theorem fromUtf8LossyFuel_char (c : Char) (fuel : ℕ) (rest : Bytes) :
    fromUtf8LossyFuel (fuel + 1) (String.utf8EncodeChar c ++ rest) =
      c :: fromUtf8LossyFuel fuel rest := by
  have hchar : Char.ofNat c.val.toNat = c := Char.ofNat_toNat c
  have hvalid : c.val.toNat < 0xD800 ∨ 0xDFFF < c.val.toNat ∧ c.val.toNat < 0x110000 := c.valid
  unfold String.utf8EncodeChar
  dsimp only
  generalize c.val.toNat = v at hchar hvalid ⊢
  rw [← hchar]
  split
  · -- One byte.
    have h1 := toNat_byte (n := v) (by omega)
    show fromUtf8LossyFuel (fuel + 1) (UInt8.ofNat v :: rest) = _
    rw [fromUtf8LossyFuel_ascii (by omega), h1]
  · split
    · -- Two.
      have h1 := toNat_byte (n := v / 64 % 0x20 + 0xc0) (by omega)
      refine fromUtf8LossyFuel_sequence (by omega) (utf8Tail_two (by omega) (by omega)) ?_ fuel
      show utf8Continue _ 1 _ _ (UInt8.ofNat (v % 0x40 + 0x80) :: rest) = _
      rw [utf8Continue_six _ (Nat.mod_lt _ (by decide))]
      unfold utf8Continue utf8Lead
      rw [h1]
      congr 2
      omega
    · split
      · -- Three: not overlong, for it is past two bytes, and not a surrogate.
        have h1 := toNat_byte (n := v / 4096 % 0x10 + 0xe0) (by omega)
        have h2 := toNat_byte (n := v / 64 % 0x40 + 0x80) (by omega)
        refine fromUtf8LossyFuel_sequence (by omega) (utf8Tail_three (by omega) (by omega)) ?_ fuel
        show utf8Continue _ 2 _ _ (UInt8.ofNat (v / 64 % 0x40 + 0x80) ::
          UInt8.ofNat (v % 0x40 + 0x80) :: rest) = _
        rw [utf8Continue_cons _ (by rw [h1, h2]; split <;> simp; omega)
          (by rw [h1, h2]; split <;> simp <;> omega), utf8Continue_six _ (Nat.mod_lt _ (by decide))]
        unfold utf8Continue utf8Lead
        rw [h1, h2]
        congr 2
        omega
      · -- Four: not overlong, for it is past three bytes, and within Unicode.
        have h1 := toNat_byte (n := v / 262144 % 0x08 + 0xf0) (by omega)
        have h2 := toNat_byte (n := v / 4096 % 0x40 + 0x80) (by omega)
        refine fromUtf8LossyFuel_sequence (by omega) (utf8Tail_four (by omega) (by omega)) ?_ fuel
        show utf8Continue _ 3 _ _ (UInt8.ofNat (v / 4096 % 0x40 + 0x80) ::
          UInt8.ofNat (v / 64 % 0x40 + 0x80) :: UInt8.ofNat (v % 0x40 + 0x80) :: rest) = _
        rw [utf8Continue_cons _ (by rw [h1, h2]; split <;> simp; omega)
          (by rw [h1, h2]; split <;> simp <;> omega), utf8Continue_six _ (Nat.mod_lt _ (by decide)),
          utf8Continue_six _ (Nat.mod_lt _ (by decide))]
        unfold utf8Continue utf8Lead
        rw [h1, h2]
        congr 2
        omega

/-! ### A text -/

theorem utf8EncodeChar_ne_nil (c : Char) : String.utf8EncodeChar c ≠ [] := by
  have hlen := String.length_utf8EncodeChar c
  have hpos := c.utf8Size_pos
  intro h
  rw [h] at hlen
  exact absurd hlen hpos.ne

variable (s : List Char)

theorem length_le_length_asBytes : s.length ≤ (asBytes s).length := by
  induction s with
  | nil => exact Nat.le_refl 0
  | cons c s ih =>
    have hpos := List.length_pos_iff.mpr (utf8EncodeChar_ne_nil c)
    unfold asBytes at ih ⊢
    rw [List.flatMap_cons, List.length_append, List.length_cons]
    omega

theorem fromUtf8LossyFuel_asBytes (fuel : ℕ) (h : s.length ≤ fuel) :
    fromUtf8LossyFuel fuel (asBytes s) = s := by
  induction s generalizing fuel with
  | nil => cases fuel <;> rfl
  | cons c s ih =>
    obtain ⟨fuel, rfl⟩ := Nat.exists_eq_add_of_lt (Nat.lt_of_lt_of_le (Nat.succ_pos s.length) h)
    show fromUtf8LossyFuel (0 + fuel + 1) (String.utf8EncodeChar c ++ asBytes s) = _
    rw [fromUtf8LossyFuel_char, ih]
    rw [List.length_cons] at h
    omega

@[simp] theorem fromUtf8Lossy_asBytes : fromUtf8Lossy (asBytes s) = s :=
  fromUtf8LossyFuel_asBytes s _ (length_le_length_asBytes s)

theorem asBytes_injective : Function.Injective asBytes := by
  intro s t h
  rw [← fromUtf8Lossy_asBytes s, h, fromUtf8Lossy_asBytes]

theorem utf8Continue_length {acc n : ℕ} {lo hi : UInt8} {rest tail : Bytes} {code : ℕ}
    (h : utf8Continue acc n lo hi rest = (some code, tail)) : tail.length + n = rest.length := by
  induction n generalizing acc lo hi rest with
  | zero =>
    obtain ⟨-, rfl⟩ := Prod.mk.inj h
    rfl
  | succ n ih =>
    cases rest with
    | nil => cases (Prod.mk.inj h).1
    | cons b rest =>
      unfold utf8Continue at h
      split at h
      · rw [List.length_cons, ← ih h]
        rfl
      · cases (Prod.mk.inj h).1

theorem utf8Tail_pos {b lo hi : UInt8} {count : ℕ} (h : utf8Tail b = some (count, lo, hi)) :
    1 ≤ count := by
  unfold utf8Tail at h
  split_ifs at h <;> cases h <;> decide

theorem utf8Continue_length_le (acc n : ℕ) (lo hi : UInt8) (rest : Bytes) :
    (utf8Continue acc n lo hi rest).2.length ≤ rest.length := by
  induction n generalizing acc lo hi rest with
  | zero => exact Nat.le_refl _
  | succ n ih =>
    cases rest with
    | nil => exact Nat.le_refl _
    | cons b rest =>
      unfold utf8Continue
      split
      · exact Nat.le_trans (ih _ _ _ _) (Nat.le_succ _)
      · exact Nat.le_refl _

theorem length_fromUtf8LossyFuel (fuel : ℕ) (v : Bytes) :
    (fromUtf8LossyFuel fuel v).length ≤ v.length := by
  induction fuel generalizing v with
  | zero => exact Nat.zero_le _
  | succ fuel ih =>
    cases v with
    | nil => exact Nat.le_refl _
    | cons b rest =>
      unfold fromUtf8LossyFuel
      split
      · exact Nat.succ_le_succ (ih rest)
      · split
        · exact Nat.succ_le_succ (ih rest)
        · next count lo hi _ =>
          have hle := utf8Continue_length_le (utf8Lead b count) count lo hi rest
          split
          all_goals
            next tail hcode =>
            rw [hcode] at hle
            exact Nat.succ_le_succ (Nat.le_trans (ih tail) hle)

theorem eq_asBytes_of_length {fuel : ℕ} {v : Bytes} {s : List Char}
    (h : fromUtf8LossyFuel fuel v = s) (hlength : v.length ≤ s.length) (hs : '\uFFFD' ∉ s) :
    v = asBytes s := by
  induction fuel generalizing v s with
  | zero =>
    subst h
    exact List.length_eq_zero_iff.mp (Nat.le_zero.mp hlength)
  | succ fuel ih =>
    cases v with
    | nil =>
      subst h
      rfl
    | cons b rest =>
      unfold fromUtf8LossyFuel at h
      split at h
      · next hascii =>
        subst h
        rw [List.mem_cons, not_or] at hs
        have hbyte : String.utf8EncodeChar (Char.ofNat b.toNat) = [b] := by
          have hall : ∀ v < 128, String.utf8EncodeChar (Char.ofNat v) = [UInt8.ofNat v] := by
            decide +kernel
          rw [hall b.toNat (UInt8.lt_iff_toNat_lt.mp hascii), UInt8.ofNat_toNat]
        have hrest := ih rfl (Nat.le_of_succ_le_succ hlength) hs.2
        change b :: rest = String.utf8EncodeChar (Char.ofNat b.toNat) ++
          asBytes (fromUtf8LossyFuel fuel rest)
        rw [← hrest, hbyte]
        rfl
      · split at h
        · subst h
          exact absurd List.mem_cons_self hs
        · next count lo hi htail =>
          split at h
          · next code tail hcode =>
            -- a longer sequence takes more bytes than it gives characters
            subst h
            have hcount := utf8Tail_pos htail
            have hconsumed := utf8Continue_length hcode
            have hmost := length_fromUtf8LossyFuel fuel tail
            rw [List.length_cons, List.length_cons] at hlength
            omega
          · subst h
            exact absurd List.mem_cons_self hs

/-- `String::from_utf8`: the text that has these bytes, if there is one. -/
def fromUtf8 (v : Bytes) : Option (List Char) :=
  if asBytes (fromUtf8Lossy v) = v then some (fromUtf8Lossy v) else none

@[simp] theorem fromUtf8_asBytes : fromUtf8 (asBytes s) = some s := by
  unfold fromUtf8
  rw [fromUtf8Lossy_asBytes]
  exact if_pos rfl

end Ohos

end LibRustdesk
