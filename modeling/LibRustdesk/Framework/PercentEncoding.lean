import LibRustdesk.Framework.Utf8

/-!
# Percent-encoding

Letters that may not stand for themselves are written as the bytes of their UTF-8, each as `%` and
two hexadecimal digits. Which letters are plain is a parameter.

* `encode_of_plain` — a text of plain letters is its own encoding.
* `length_utf8_encode_iff` — **any other text gets longer**.
-/

namespace LibRustdesk.PercentEncoding

structure PlainClass where
  isPlain : Char → Bool
  ascii : ∀ c, isPlain c = true → c.toNat < 128

def utf8 (s : List Char) : Bytes := s.flatMap String.utf8EncodeChar

def hexDigit (n : ℕ) : Char := (Nat.digitChar n).toUpper

def encodeByte (b : UInt8) : List Char := ['%', hexDigit (b.toNat / 16), hexDigit (b.toNat % 16)]

variable (p : PlainClass)

def encodeChar (c : Char) : List Char :=
  if p.isPlain c then [c] else (String.utf8EncodeChar c).flatMap encodeByte

def encode (s : List Char) : List Char := s.flatMap (encodeChar p)

def Plain (s : List Char) : Prop := ∀ c ∈ s, p.isPlain c = true

instance (s : List Char) : Decidable (Plain p s) := List.decidableBAll _ s

/-! ### The bytes -/

theorem utf8_cons (c : Char) (s : List Char) : utf8 (c :: s) = String.utf8EncodeChar c ++ utf8 s :=
  List.flatMap_cons

theorem utf8_append (s t : List Char) : utf8 (s ++ t) = utf8 s ++ utf8 t := List.flatMap_append

theorem length_utf8EncodeChar_pos (c : Char) : 1 ≤ (String.utf8EncodeChar c).length := by
  obtain ⟨lead, tail, heq, -, -⟩ := Utf8.encodeChar_cases c
  rw [heq, List.length_cons]
  omega

theorem length_utf8EncodeChar_ascii {c : Char} (h : c.toNat < 128) :
    (String.utf8EncodeChar c).length = 1 := by
  have hle : c.val.toNat ≤ 0x7f := Nat.le_of_lt_succ h
  unfold String.utf8EncodeChar
  dsimp only
  rw [if_pos hle]
  rfl

theorem length_utf8_ascii {s : List Char} (h : ∀ c ∈ s, c.toNat < 128) :
    (utf8 s).length = s.length := by
  induction s with
  | nil => rfl
  | cons c s ih =>
    obtain ⟨hc, hs⟩ := List.forall_mem_cons.mp h
    rw [utf8_cons, List.length_append, length_utf8EncodeChar_ascii hc, ih hs, List.length_cons]
    omega

/-! ### The encoding -/

variable {p}

theorem encode_cons (c : Char) (s : List Char) : encode p (c :: s) = encodeChar p c ++ encode p s :=
  List.flatMap_cons

theorem encode_of_plain {s : List Char} (h : Plain p s) : encode p s = s := by
  induction s with
  | nil => rfl
  | cons c s ih =>
    obtain ⟨hc, hs⟩ := List.forall_mem_cons.mp h
    rw [encode_cons, ih hs]
    unfold encodeChar
    rw [if_pos hc]
    rfl

theorem ascii_encodeByte (b : UInt8) : ∀ c ∈ encodeByte b, c.toNat < 128 := by
  have hall : ∀ n < 16, (hexDigit n).toNat < 128 := by decide +kernel
  have hlt := b.toNat_lt
  unfold encodeByte
  intro c hc
  simp only [List.mem_cons, List.not_mem_nil, or_false] at hc
  rcases hc with rfl | rfl | rfl
  · decide
  · exact hall _ (by omega)
  · exact hall _ (Nat.mod_lt _ (by decide))

theorem length_utf8_encodeChar (c : Char) : (utf8 (encodeChar p c)).length =
    if p.isPlain c then 1 else 3 * (String.utf8EncodeChar c).length := by
  unfold encodeChar
  split
  · next hplain =>
    exact length_utf8_ascii (List.forall_mem_singleton.mpr (p.ascii c hplain))
  · have hascii : ∀ x ∈ (String.utf8EncodeChar c).flatMap encodeByte, x.toNat < 128 := by
      intro x hx
      obtain ⟨b, -, hb⟩ := List.mem_flatMap.mp hx
      exact ascii_encodeByte b x hb
    have hthree : (fun b => (encodeByte b).length) = fun _ => 3 := rfl
    rw [length_utf8_ascii hascii, List.length_flatMap, hthree, List.map_const',
      List.sum_replicate_nat, Nat.mul_comm]

theorem length_utf8_encode_le (s : List Char) : (utf8 s).length ≤ (utf8 (encode p s)).length := by
  induction s with
  | nil => exact Nat.le_refl _
  | cons c s ih =>
    have hpos := length_utf8EncodeChar_pos c
    have hchar := length_utf8_encodeChar (p := p) c
    rw [encode_cons, utf8_append, utf8_cons, List.length_append, List.length_append, hchar]
    split
    · next hplain =>
      rw [length_utf8EncodeChar_ascii (p.ascii c hplain)]
      omega
    · omega

theorem length_utf8_encode_iff {s : List Char} :
    (utf8 (encode p s)).length = (utf8 s).length ↔ Plain p s := by
  refine ⟨fun h => ?_, fun h => by rw [encode_of_plain h]⟩
  induction s with
  | nil => exact List.forall_mem_nil _
  | cons c s ih =>
    have hpos := length_utf8EncodeChar_pos c
    have hle := length_utf8_encode_le (p := p) s
    rw [encode_cons, utf8_append, utf8_cons, List.length_append, List.length_append,
      length_utf8_encodeChar c] at h
    split at h
    · next hplain =>
      rw [length_utf8EncodeChar_ascii (p.ascii c hplain)] at h
      exact List.forall_mem_cons.mpr ⟨hplain, ih (by omega)⟩
    · omega

end LibRustdesk.PercentEncoding
