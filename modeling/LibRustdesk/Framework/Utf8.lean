import LibRustdesk.Framework.LittleEndian
import Mathlib.Data.List.Infix

/-!
# UTF-8 text and where it may be cut

A character is a lead byte, which tells the length of its sequence, and continuation bytes, which
no sequence begins with. So a text cut anywhere is whole characters up to the cut but for a
sequence that the cut runs through.

* `sequenceLength`, `IsContinuation` — what a byte says of itself.
* `Valid` — bytes that are the encoding of a text.
* `encodeChar_cases` — the shape of one encoded character.

**The cut** is `Valid.cut`; `Valid.cut_of_head` says that a cut before a byte that does not continue
a sequence is between two characters, and `Valid.skip` how far the next such place may be.
-/

namespace LibRustdesk

namespace Utf8

def IsContinuation (b : UInt8) : Prop := b &&& 0xC0 = 0x80

instance (b : UInt8) : Decidable (IsContinuation b) := inferInstanceAs (Decidable (_ = _))

def sequenceLength (b : UInt8) : Option ℕ :=
  if b &&& 0x80 = 0 then some 1
  else if b &&& 0xE0 = 0xC0 then some 2
  else if b &&& 0xF0 = 0xE0 then some 3
  else if b &&& 0xF8 = 0xF0 then some 4
  else none

def Valid (bytes : Bytes) : Prop := ∃ s : List Char, s.flatMap String.utf8EncodeChar = bytes

theorem not_isContinuation_of_sequenceLength {b : UInt8} {n : ℕ}
    (h : sequenceLength b = some n) : ¬ IsContinuation b := by
  have hall : ∀ v < 256, (sequenceLength (UInt8.ofNat v)).isSome = true →
      ¬ IsContinuation (UInt8.ofNat v) := by
    decide +kernel
  have hb : UInt8.ofNat b.toNat = b := UInt8.ofNat_toNat
  have hspec := hall b.toNat b.toNat_lt
  rw [hb, h] at hspec
  exact hspec rfl

theorem sequenceLength_le {b : UInt8} {n : ℕ} (h : sequenceLength b = some n) : 1 ≤ n ∧ n ≤ 4 := by
  unfold sequenceLength at h
  split_ifs at h <;> cases h <;> decide

/-! ### One character -/

theorem isContinuation_six {x : ℕ} (hx : x < 64) : IsContinuation (UInt8.ofNat (x + 0x80)) := by
  have hall : ∀ v < 64, IsContinuation (UInt8.ofNat (v + 0x80)) := by decide +kernel
  exact hall x hx

theorem encodeChar_cases (c : Char) : ∃ lead tail, String.utf8EncodeChar c = lead :: tail ∧
    sequenceLength lead = some (tail.length + 1) ∧ ∀ b ∈ tail, IsContinuation b := by
  have hvalid : c.val.toNat < 0xD800 ∨ 0xDFFF < c.val.toNat ∧ c.val.toNat < 0x110000 := c.valid
  have hsix (n : ℕ) : IsContinuation (UInt8.ofNat (n % 0x40 + 0x80)) :=
    isContinuation_six (Nat.mod_lt _ (by decide))
  unfold String.utf8EncodeChar
  dsimp only
  generalize c.val.toNat = v at hvalid
  split
  · next h =>
    have hall : ∀ v < 128, sequenceLength (UInt8.ofNat v) = some 1 := by decide +kernel
    exact ⟨_, [], rfl, hall v (by omega), by simp⟩
  · split
    · have hall : ∀ v < 0x20, sequenceLength (UInt8.ofNat (v + 0xc0)) = some 2 := by
        decide +kernel
      exact ⟨_, _, rfl, hall _ (Nat.mod_lt _ (by decide)), by
        simp only [List.forall_mem_cons, hsix, true_and]
        exact List.forall_mem_nil _⟩
    · split
      · have hall : ∀ v < 0x10, sequenceLength (UInt8.ofNat (v + 0xe0)) = some 3 := by
          decide +kernel
        exact ⟨_, _, rfl, hall _ (Nat.mod_lt _ (by decide)), by
        simp only [List.forall_mem_cons, hsix, true_and]
        exact List.forall_mem_nil _⟩
      · have hall : ∀ v < 0x08, sequenceLength (UInt8.ofNat (v + 0xf0)) = some 4 := by
          decide +kernel
        exact ⟨_, _, rfl, hall _ (Nat.mod_lt _ (by decide)), by
        simp only [List.forall_mem_cons, hsix, true_and]
        exact List.forall_mem_nil _⟩

/-! ### Texts -/

theorem Valid.nil : Valid [] := ⟨[], rfl⟩

theorem Valid.char (c : Char) : Valid (String.utf8EncodeChar c) := ⟨[c], List.flatMap_singleton _ _⟩

theorem Valid.append {xs ys : Bytes} (hx : Valid xs) (hy : Valid ys) : Valid (xs ++ ys) := by
  obtain ⟨s, rfl⟩ := hx
  obtain ⟨t, rfl⟩ := hy
  exact ⟨s ++ t, List.flatMap_append⟩

theorem Valid.flatten {l : List Bytes} (h : ∀ xs ∈ l, Valid xs) : Valid l.flatten := by
  induction l with
  | nil => exact .nil
  | cons xs l ih =>
    rw [List.flatten_cons]
    exact (h xs List.mem_cons_self).append (ih fun ys hys => h ys (List.mem_cons_of_mem _ hys))

theorem Valid.cases {xs : Bytes} (h : Valid xs) : xs = [] ∨ ∃ lead tail rest,
    xs = lead :: tail ++ rest ∧ sequenceLength lead = some (tail.length + 1) ∧
      (∀ b ∈ tail, IsContinuation b) ∧ Valid rest := by
  obtain ⟨s, rfl⟩ := h
  cases s with
  | nil => exact .inl rfl
  | cons c s =>
    obtain ⟨lead, tail, hchar, hlength, htail⟩ := encodeChar_cases c
    refine .inr ⟨lead, tail, s.flatMap String.utf8EncodeChar, ?_, hlength, htail, s, rfl⟩
    rw [List.flatMap_cons, hchar]

theorem Valid.not_isContinuation {b : UInt8} {xs : Bytes} (h : Valid (b :: xs)) :
    ¬ IsContinuation b := by
  obtain hnil | ⟨lead, tail, rest, hxs, hlength, -, -⟩ := h.cases
  · cases hnil
  · obtain rfl : b = lead := (List.cons.inj hxs).1
    exact not_isContinuation_of_sequenceLength hlength

/-- What a character is cut into: bytes before the cut, and at least one of it behind. -/
structure Torn (p q : Bytes) : Prop where
  left : p ≠ []
  right : q ≠ []
  lead : ∃ lead tail, p = lead :: tail ∧ sequenceLength lead = some (p.length + q.length) ∧
    ∀ b ∈ tail, IsContinuation b
  rest : ∀ b ∈ q, IsContinuation b
  valid : Valid (p ++ q)

theorem Torn.length {p q : Bytes} (h : Torn p q) : p.length ≤ 3 ∧ q.length ≤ 3 := by
  obtain ⟨lead, tail, -, hlength, -⟩ := h.lead
  have hle := (sequenceLength_le hlength).2
  have hp := List.length_pos_iff.mpr h.left
  have hq := List.length_pos_iff.mpr h.right
  omega

theorem Valid.cut {xs ys : Bytes} (h : Valid (xs ++ ys)) : ∃ v p q w,
    xs = v ++ p ∧ ys = q ++ w ∧ Valid v ∧ Valid w ∧ (p = [] ∧ q = [] ∨ Torn p q) := by
  obtain ⟨s, hs⟩ := h
  -- by induction on the characters, up to the one that the cut is in
  induction s generalizing xs with
  | nil =>
    obtain ⟨rfl, rfl⟩ := List.append_eq_nil_iff.mp hs.symm
    exact ⟨[], [], [], [], rfl, rfl, .nil, .nil, .inl ⟨rfl, rfl⟩⟩
  | cons c s ih =>
    rw [List.flatMap_cons] at hs
    obtain ⟨more, rfl, hrest⟩ | ⟨q, hchar, rfl⟩ := List.append_eq_append_iff.mp hs
    · -- the cut is behind the character
      obtain ⟨v, p, q, w, rfl, rfl, hv, hw, hcut⟩ := ih hrest
      exact ⟨String.utf8EncodeChar c ++ v, p, q, w, (List.append_assoc _ _ _).symm, rfl,
        (Valid.char c).append hv, hw, hcut⟩
    · have hw : Valid (s.flatMap String.utf8EncodeChar) := ⟨s, rfl⟩
      by_cases hxs : xs = []
      · subst hxs
        refine ⟨[], [], [], q ++ s.flatMap String.utf8EncodeChar, rfl, rfl, .nil, ?_,
          .inl ⟨rfl, rfl⟩⟩
        rw [List.nil_append] at hchar
        rw [← hchar]
        exact (Valid.char c).append hw
      by_cases hq : q = []
      · subst hq
        rw [List.append_nil] at hchar
        refine ⟨xs, [], [], s.flatMap String.utf8EncodeChar, (List.append_nil _).symm, rfl, ?_, hw,
          .inl ⟨rfl, rfl⟩⟩
        rw [← hchar]
        exact Valid.char c
      · refine ⟨[], xs, q, s.flatMap String.utf8EncodeChar, rfl, rfl, .nil, hw, .inr ?_⟩
        obtain ⟨lead, tail, henc, hlength, htail⟩ := encodeChar_cases c
        rw [hchar] at henc
        obtain ⟨b, before, rfl⟩ := List.exists_cons_of_ne_nil hxs
        rw [List.cons_append] at henc
        obtain ⟨rfl, rfl⟩ := List.cons.inj henc
        rw [List.length_append] at hlength
        refine ⟨hxs, hq, ⟨b, before, rfl, ?_, ?_⟩, ?_, ?_⟩
        · rw [hlength, List.length_cons]
          congr 1
          omega
        · exact fun x hx => htail x (List.mem_append_left _ hx)
        · exact fun x hx => htail x (List.mem_append_right _ hx)
        · rw [← hchar]
          exact Valid.char c

theorem Valid.cut_of_head {xs ys : Bytes} {b : UInt8} (h : Valid (xs ++ b :: ys))
    (hb : ¬ IsContinuation b) : Valid xs ∧ Valid (b :: ys) := by
  obtain ⟨v, p, q, w, rfl, hys, hv, hw, ⟨rfl, rfl⟩ | htorn⟩ := h.cut
  · rw [List.append_nil]
    rw [List.nil_append] at hys
    exact ⟨hv, hys ▸ hw⟩
  · -- the torn character would go on with the byte
    obtain ⟨first, q', rfl⟩ := List.exists_cons_of_ne_nil htorn.right
    obtain ⟨rfl, -⟩ := List.cons.inj hys
    exact absurd (htorn.rest b List.mem_cons_self) hb

theorem Valid.cut_ascii {xs ys : Bytes} {b : UInt8} (h : Valid (xs ++ b :: ys))
    (hb : sequenceLength b = some 1) : Valid xs ∧ Valid ys := by
  obtain ⟨hxs, hys⟩ := h.cut_of_head (not_isContinuation_of_sequenceLength hb)
  refine ⟨hxs, ?_⟩
  obtain hnil | ⟨lead, tail, rest, hcons, hlength, -, hrest⟩ := hys.cases
  · cases hnil
  · obtain ⟨rfl, rfl⟩ := List.cons.inj hcons
    rw [hb] at hlength
    obtain rfl : tail = [] := List.length_eq_zero_iff.mp (by
      have := Option.some.inj hlength
      omega)
    exact hrest

theorem Valid.skip {xs ys : Bytes} (h : Valid (xs ++ ys)) : ∃ q w, ys = q ++ w ∧ q.length ≤ 3 ∧
    (∀ b ∈ q, IsContinuation b) ∧ Valid w := by
  obtain ⟨v, p, q, w, -, hys, -, hw, ⟨-, rfl⟩ | htorn⟩ := h.cut
  · exact ⟨[], w, hys, Nat.zero_le _, by simp, hw⟩
  · exact ⟨q, w, hys, htorn.length.2, htorn.rest, hw⟩

end Utf8

end LibRustdesk
