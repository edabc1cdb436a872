import LibRustdesk.Framework.LittleEndian
import Mathlib.Data.List.Basic

/-!
# Base64

The encoding with the original alphabet (`+` and `/` are its last two characters) and with padding.
Three bytes make four characters of six bits each; one or two bytes at the end are filled up with
zero bits, and `=` stands for the characters that have none. The decoder is strict: it accepts
nothing but such groups, and no bit of the filling may be set.

* `decode_of_encode` — what was encoded is decoded.
* `mem_alphabet_of_mem_encode`, `decode_spec` — both keep to the alphabet.
* `length_encode` — four characters for three bytes.
* `mem_of_encode_slashes` — an encoding ends with four slashes only where there is a byte `0xFF`.
-/

namespace LibRustdesk.Base64

def digit (n : ℕ) : Char :=
  if n < 26 then Char.ofNat (65 + n)
  else if n < 52 then Char.ofNat (71 + n)
  else if n < 62 then Char.ofNat (n - 4)
  else if n = 62 then '+'
  else '/'

def value (c : Char) : Option ℕ :=
  if 65 ≤ c.toNat ∧ c.toNat ≤ 90 then some (c.toNat - 65)
  else if 97 ≤ c.toNat ∧ c.toNat ≤ 122 then some (c.toNat - 71)
  else if 48 ≤ c.toNat ∧ c.toNat ≤ 57 then some (c.toNat + 4)
  else if c = '+' then some 62
  else if c = '/' then some 63
  else none

def Alphabet (c : Char) : Prop := (value c).isSome = true ∨ c = '='

instance (c : Char) : Decidable (Alphabet c) := inferInstanceAs (Decidable (_ ∨ _))

def encode : Bytes → List Char
  | a :: b :: c :: rest =>
    digit (a.toNat / 4) :: digit (a.toNat % 4 * 16 + b.toNat / 16) ::
      digit (b.toNat % 16 * 4 + c.toNat / 64) :: digit (c.toNat % 64) :: encode rest
  | [a, b] =>
    [digit (a.toNat / 4), digit (a.toNat % 4 * 16 + b.toNat / 16), digit (b.toNat % 16 * 4), '=']
  | [a] => [digit (a.toNat / 4), digit (a.toNat % 4 * 16), '=', '=']
  | [] => []

def decodeLast (p q : ℕ) (y z : Char) : Option Bytes :=
  if y = '=' ∧ z = '=' then
    if q % 16 = 0 then some [UInt8.ofNat (p * 4 + q / 16)] else none
  else if z = '=' then
    match value y with
    | some r =>
      if r % 4 = 0 then some [UInt8.ofNat (p * 4 + q / 16), UInt8.ofNat (q % 16 * 16 + r / 4)]
      else none
    | none => none
  else none

def decode : List Char → Option Bytes
  | w :: x :: y :: z :: rest =>
    match value w, value x with
    | some p, some q =>
      match value y, value z with
      | some r, some s =>
        match decode rest with
        | some bytes =>
          some (UInt8.ofNat (p * 4 + q / 16) :: UInt8.ofNat (q % 16 * 16 + r / 4) ::
            UInt8.ofNat (r % 4 * 64 + s) :: bytes)
        | none => none
      | _, _ => if rest = [] then decodeLast p q y z else none
    | _, _ => none
  | [] => some []
  | _ => none

/-! ### Digits -/

theorem value_digit {n : ℕ} (h : n < 64) : value (digit n) = some n := by
  revert n
  decide

theorem digit_ne_pad {n : ℕ} (h : n < 64) : digit n ≠ '=' := by
  revert n
  decide

theorem digit_eq_slash {n : ℕ} (h : n < 64) : digit n = '/' ↔ n = 63 := by
  revert n
  decide

theorem value_pad : value '=' = none := by decide

theorem alphabet_digit {n : ℕ} (h : n < 64) : Alphabet (digit n) := by
  refine .inl ?_
  rw [value_digit h]
  rfl

/-! ### The round trip -/

theorem ofNat_eq {n : ℕ} {b : UInt8} (h : n = b.toNat) : UInt8.ofNat n = b := by
  rw [h]
  exact UInt8.ofNat_toNat

theorem decode_of_encode (v : Bytes) : decode (encode v) = some v := by
  induction v using encode.induct with
  | case1 a b c rest ih =>
    have ha := a.toNat_lt
    have hb := b.toNat_lt
    have hc := c.toNat_lt
    unfold encode decode
    rw [value_digit (by omega), value_digit (by omega), value_digit (by omega),
      value_digit (by omega)]
    rw [ih]
    dsimp only
    rw [ofNat_eq (b := a) (by omega), ofNat_eq (b := b) (by omega), ofNat_eq (b := c) (by omega)]
  | case2 a b =>
    have ha := a.toNat_lt
    have hb := b.toNat_lt
    have hne : ¬ (digit (b.toNat % 16 * 4) = '=' ∧ '=' = '=') :=
      fun h => digit_ne_pad (by omega) h.1
    unfold encode decode
    rw [value_digit (by omega), value_digit (by omega), value_digit (by omega), value_pad]
    dsimp only
    rw [if_pos rfl]
    unfold decodeLast
    rw [if_neg hne, if_pos rfl, value_digit (by omega)]
    dsimp only
    rw [if_pos (by omega), ofNat_eq (b := a) (by omega), ofNat_eq (b := b) (by omega)]
  | case3 a =>
    have ha := a.toNat_lt
    unfold encode decode
    rw [value_digit (by omega), value_digit (by omega), value_pad]
    dsimp only
    rw [if_pos rfl]
    unfold decodeLast
    rw [if_pos ⟨rfl, rfl⟩, if_pos (by omega), ofNat_eq (b := a) (by omega)]
  | case4 => rfl

/-! ### The alphabet -/

theorem encode_injective : Function.Injective encode := fun v w h =>
  Option.some.inj (by rw [← decode_of_encode v, h, decode_of_encode])

theorem mem_alphabet_of_mem_encode (v : Bytes) : ∀ c ∈ encode v, Alphabet c := by
  have hpad : Alphabet '=' := .inr rfl
  induction v using encode.induct with
  | case1 a b c rest ih =>
    have ha := a.toNat_lt
    have hb := b.toNat_lt
    have hc := c.toNat_lt
    unfold encode
    simp only [List.forall_mem_cons]
    exact ⟨alphabet_digit (by omega), alphabet_digit (by omega), alphabet_digit (by omega),
      alphabet_digit (by omega), ih⟩
  | case2 a b =>
    have ha := a.toNat_lt
    have hb := b.toNat_lt
    unfold encode
    simp only [List.forall_mem_cons]
    exact ⟨alphabet_digit (by omega), alphabet_digit (by omega), alphabet_digit (by omega), hpad,
      fun _ h => absurd h List.not_mem_nil⟩
  | case3 a =>
    have ha := a.toNat_lt
    unfold encode
    simp only [List.forall_mem_cons]
    exact ⟨alphabet_digit (by omega), alphabet_digit (by omega), hpad, hpad,
      fun _ h => absurd h List.not_mem_nil⟩
  | case4 => exact fun _ h => absurd h List.not_mem_nil

/-! ### Lengths -/

theorem length_encode (v : Bytes) : (encode v).length = (v.length + 2) / 3 * 4 := by
  induction v using encode.induct with
  | case1 a b c rest ih =>
    unfold encode
    simp only [List.length_cons]
    omega
  | case2 | case3 =>
    unfold encode
    simp only [List.length_cons, List.length_nil]
  | case4 => rfl

theorem decodeLast_spec {p q : ℕ} {y z : Char} {v : Bytes} (h : decodeLast p q y z = some v) :
    v.length ≤ 2 ∧ Alphabet y ∧ Alphabet z := by
  unfold decodeLast at h
  split at h
  · next hpad =>
    split at h
    · cases h
      exact ⟨Nat.le_succ 1, .inr hpad.1, .inr hpad.2⟩
    · cases h
  · split at h
    · next hz =>
      split at h
      · next r hr =>
        split at h
        · cases h
          exact ⟨Nat.le_refl 2, .inl (by rw [hr]; rfl), .inr hz⟩
        · cases h
      · cases h
    · cases h

theorem decode_group {w x y z : Char} {rest : List Char} {v : Bytes}
    (h : decode (w :: x :: y :: z :: rest) = some v) :
    (Alphabet w ∧ Alphabet x ∧ Alphabet y ∧ Alphabet z) ∧
      ((∃ a b c bytes, decode rest = some bytes ∧ v = a :: b :: c :: bytes) ∨
        (rest = [] ∧ v.length ≤ 2)) := by
  unfold decode at h
  cases hw : value w with
  | none =>
    rw [hw] at h
    cases h
  | some p =>
    cases hx : value x with
    | none =>
      rw [hw, hx] at h
      cases h
    | some q =>
      have hfirst : Alphabet w ∧ Alphabet x := ⟨.inl (by rw [hw]; rfl), .inl (by rw [hx]; rfl)⟩
      rw [hw, hx] at h
      dsimp only at h
      split at h
      · next r s hr hs =>
        have hsecond : Alphabet y ∧ Alphabet z :=
          ⟨.inl (by rw [hr]; rfl), .inl (by rw [hs]; rfl)⟩
        refine ⟨⟨hfirst.1, hfirst.2, hsecond⟩, .inl ?_⟩
        split at h
        · next bytes hbytes => exact ⟨_, _, _, bytes, hbytes, (Option.some.inj h).symm⟩
        · cases h
      · split at h
        · next hrest =>
          obtain ⟨hlen, hsecond⟩ := decodeLast_spec h
          exact ⟨⟨hfirst.1, hfirst.2, hsecond⟩, .inr ⟨hrest, hlen⟩⟩
        · cases h

theorem decode_spec : ∀ {s : List Char} {v : Bytes}, decode s = some v →
    s.length % 4 = 0 ∧ v.length ≤ s.length ∧ ∀ c ∈ s, Alphabet c
  | [], v, h => by
    cases h
    exact ⟨rfl, Nat.le_refl 0, fun _ hc => absurd hc List.not_mem_nil⟩
  | [_], _, h => by cases h
  | [_, _], _, h => by cases h
  | [_, _, _], _, h => by cases h
  | w :: x :: y :: z :: rest, v, h => by
    obtain ⟨⟨hw, hx, hy, hz⟩, hgroup⟩ := decode_group h
    simp only [List.forall_mem_cons, List.length_cons]
    rcases hgroup with ⟨a, b, c, bytes, hbytes, rfl⟩ | ⟨rfl, hlen⟩
    · obtain ⟨hmod, hle, hall⟩ := decode_spec hbytes
      refine ⟨by omega, ?_, hw, hx, hy, hz, hall⟩
      simp only [List.length_cons]
      omega
    · exact ⟨rfl, by rw [List.length_nil]; omega, hw, hx, hy, hz,
        fun _ hc => absurd hc List.not_mem_nil⟩

/-! ### Slashes -/

theorem pad_ne_slash {l e : List Char} (h : l ++ ['='] = e ++ ['/', '/', '/', '/']) : False := by
  have hlast := congrArg List.getLast? h
  have hslash : ['/', '/', '/', '/'].getLast? = some '/' := rfl
  rw [List.getLast?_concat, List.getLast?_append, hslash, Option.some_or] at hlast
  exact absurd (Option.some.inj hlast) (by decide)

theorem eq_of_digits_slash {a b : UInt8} (hfirst : digit (a.toNat / 4) = '/')
    (hsecond : digit (a.toNat % 4 * 16 + b.toNat / 16) = '/') : a = 0xFF := by
  have ha := a.toNat_lt
  have hb := b.toNat_lt
  rw [digit_eq_slash (by omega)] at hfirst hsecond
  apply UInt8.toNat_inj.mp
  show a.toNat = 255
  omega

theorem mem_of_encode_slashes {v : Bytes} {e : List Char}
    (h : encode v = e ++ ['/', '/', '/', '/']) : 0xFF ∈ v := by
  induction v using encode.induct generalizing e with
  | case1 a b c rest ih =>
    unfold encode at h
    have hlen := congrArg List.length h
    simp only [List.length_cons, List.length_append, List.length_nil] at hlen
    have hfour := length_encode rest
    by_cases hrest : rest = []
    · -- the slashes are this group
      have he : e = [] := by
        rw [hrest] at hlen
        exact List.length_eq_zero_iff.mp (by simpa [encode] using hlen.symm)
      rw [he] at h
      obtain ⟨hfirst, htail⟩ := List.cons.inj h
      rw [eq_of_digits_slash hfirst (List.cons.inj htail).1]
      exact List.mem_cons_self
    · have hpos := List.length_pos_iff.mpr hrest
      have hlater : encode rest = e.drop 4 ++ ['/', '/', '/', '/'] := by
        have hdrop := congrArg (List.drop 4) h
        rw [List.drop_append_of_le_length (by omega)] at hdrop
        exact hdrop
      exact List.mem_cons_of_mem _ (List.mem_cons_of_mem _ (List.mem_cons_of_mem _ (ih hlater)))
  | case2 | case3 =>
    exact (pad_ne_slash (l := [_, _, _]) h).elim
  | case4 =>
    have hlen := congrArg List.length h
    rw [List.length_append] at hlen
    exact absurd hlen (Nat.succ_ne_zero _).symm

end LibRustdesk.Base64
