import LibRustdesk.Framework.Utf8
import LibRustdesk.Ohos.Utf8

/-!
# Chunks of terminal output

`find_utf8_split_point` and `Utf8ChunkAccumulator` of `src/server/terminal_service.rs`. What is read
from a terminal may end within a character; the bytes of it that have come are held back and go in
front of the next read. The accumulator looks at the last three bytes alone, and lets through what
it cannot make out to be text.

* `findUtf8SplitPoint_le` — never more than three bytes are held back.
* `findUtf8SplitPoint_torn` — of a text that is torn within a character, exactly the bytes of that
  character are.
* `accumulate_spec` — **all reads of a terminal**: nothing is lost, added or reordered, and a text
  comes out in pieces that are texts, however it was cut.
-/

namespace LibRustdesk.Terminal

open LittleEndian Ohos Utf8

/-- The loop over the last bytes, from the back; `n` bytes are at or behind the first of them. -/
def splitBack (len : ℕ) : ℕ → Bytes → ℕ
  | _, [] => len
  | n, b :: before =>
    if b &&& 0x80 = 0 then len
    else if b &&& 0xC0 = 0x80 then splitBack len (n + 1) before
    else
      let seqLen :=
        if b &&& 0xE0 = 0xC0 then some 2
        else if b &&& 0xF0 = 0xE0 then some 3
        else if b &&& 0xF8 = 0xF0 then some 4
        else none
      match seqLen with
      | none => len
      | some seqLen => if n ≥ seqLen then len else len - n

def findUtf8SplitPoint (buf : Bytes) : ℕ :=
  if buf.isEmpty then 0 else splitBack buf.length 1 (buf.drop (buf.length - 3)).reverse

structure Utf8ChunkAccumulator where
  remainder : Bytes
  deriving DecidableEq, Repr

namespace Utf8ChunkAccumulator

/-- `Utf8ChunkAccumulator::default`. -/
def new : Utf8ChunkAccumulator := ⟨[]⟩

def pushChunk (acc : Utf8ChunkAccumulator) (data : Bytes) : Utf8ChunkAccumulator × Option Bytes :=
  if data.isEmpty then (acc, none)
  else
    let hadRemainder := !acc.remainder.isEmpty
    let data := acc.remainder ++ data
    let split := findUtf8SplitPoint data
    if split = data.length then (⟨[]⟩, some data)
    -- The bytes before are no text, so the ones behind need not be the start of a character.
    else if !hadRemainder && decide (split > 0) && (fromUtf8 (data.take split)).isNone then
      (⟨[]⟩, some data)
    else (⟨data.drop split⟩, if (data.take split).isEmpty then none else some (data.take split))

def finish (acc : Utf8ChunkAccumulator) : Utf8ChunkAccumulator × Option Bytes :=
  if acc.remainder.isEmpty then (acc, none) else (⟨[]⟩, some acc.remainder)

/-- The reads of a terminal: what is held in the end, and the pieces returned. -/
def accumulate : Utf8ChunkAccumulator → List Bytes → Utf8ChunkAccumulator × List Bytes
  | acc, [] => (acc, [])
  | acc, data :: chunks =>
    ((accumulate (acc.pushChunk data).1 chunks).1,
      (acc.pushChunk data).2.toList ++ (accumulate (acc.pushChunk data).1 chunks).2)

end Utf8ChunkAccumulator

/-! ### The split point -/

theorem splitBack_lead {b : UInt8} {seqLen : ℕ} (h : sequenceLength b = some seqLen) (len : ℕ)
    {n : ℕ} (hn : 1 ≤ n) (before : Bytes) :
    splitBack len n (b :: before) = if n ≥ seqLen then len else len - n := by
  have hcont := not_isContinuation_of_sequenceLength h
  unfold IsContinuation at hcont
  unfold sequenceLength at h
  unfold splitBack
  by_cases hascii : b &&& 0x80 = 0
  · rw [if_pos hascii] at h ⊢
    obtain rfl : 1 = seqLen := Option.some.inj h
    rw [if_pos hn]
  · rw [if_neg hascii] at h
    rw [if_neg hascii, if_neg hcont]
    rw [h]

theorem splitBack_continuation {tail : Bytes} (h : ∀ b ∈ tail, IsContinuation b) (len n : ℕ)
    (before : Bytes) :
    splitBack len n (tail ++ before) = splitBack len (n + tail.length) before := by
  induction tail generalizing n with
  | nil => rfl
  | cons b tail ih =>
    have hb : b &&& 0xC0 = 0x80 := h b List.mem_cons_self
    have hascii : ¬ b &&& 0x80 = 0 := by
      have hall : ∀ v < 256, UInt8.ofNat v &&& 0xC0 = 0x80 → ¬ UInt8.ofNat v &&& 0x80 = 0 := by
        decide +kernel
      have hspec := hall b.toNat b.toNat_lt
      rw [UInt8.ofNat_toNat] at hspec
      exact hspec hb
    rw [List.cons_append, splitBack, if_neg hascii, if_pos hb,
      ih (fun x hx => h x (List.mem_cons_of_mem _ hx)), List.length_cons]
    congr 1
    omega

theorem le_splitBack (len : ℕ) (last : Bytes) (n : ℕ) :
    len ≤ splitBack len n last + (n + last.length - 1) ∧ splitBack len n last ≤ len := by
  induction last generalizing n with
  | nil =>
    rw [splitBack]
    omega
  | cons b last ih =>
    have hnext := ih (n + 1)
    rw [List.length_cons, splitBack]
    split
    · omega
    split
    · omega
    dsimp only
    split
    · omega
    split <;> omega

theorem findUtf8SplitPoint_le (buf : Bytes) :
    buf.length ≤ findUtf8SplitPoint buf + 3 ∧ findUtf8SplitPoint buf ≤ buf.length := by
  unfold findUtf8SplitPoint
  split
  · next h =>
    rw [List.isEmpty_iff.mp h]
    decide
  · have h := le_splitBack buf.length (buf.drop (buf.length - 3)).reverse 1
    have hlength : (buf.drop (buf.length - 3)).reverse.length ≤ 3 := by
      rw [List.length_reverse, List.length_drop]
      omega
    omega

theorem findUtf8SplitPoint_lead {v tail : Bytes} {lead : UInt8} {seqLen : ℕ}
    (hlead : sequenceLength lead = some seqLen) (htail : ∀ b ∈ tail, IsContinuation b)
    (hlength : tail.length + 1 ≤ seqLen) : findUtf8SplitPoint (v ++ lead :: tail) =
      if tail.length + 1 ≥ seqLen then (v ++ lead :: tail).length else v.length := by
  have hseq := (sequenceLength_le hlead).2
  have hbuf : (v ++ lead :: tail).length = v.length + (tail.length + 1) := by
    rw [List.length_append, List.length_cons]
  have hempty : ¬ (v ++ lead :: tail).isEmpty = true := by simp
  unfold findUtf8SplitPoint
  rw [if_neg hempty]
  by_cases hthree : tail.length ≤ 2
  · -- the lead byte is among the last three
    have hlast : ((v ++ lead :: tail).drop ((v ++ lead :: tail).length - 3)).reverse =
        tail.reverse ++ lead :: (v.drop ((v ++ lead :: tail).length - 3)).reverse := by
      rw [List.drop_append_of_le_length (by omega), List.reverse_append, List.reverse_cons,
        List.append_assoc, List.singleton_append]
    rw [hlast, splitBack_continuation (fun b hb => htail b (List.mem_reverse.mp hb)),
      splitBack_lead hlead _ (by omega), List.length_reverse]
    split
    · rw [if_pos (by omega)]
    · rw [if_neg (by omega)]
      omega
  · -- three bytes that continue a sequence of four
    have hfour : tail.length = 3 := by omega
    have hlast : ((v ++ lead :: tail).drop ((v ++ lead :: tail).length - 3)).reverse =
        tail.reverse ++ [] := by
      have hdrop : (v ++ lead :: tail).length - 3 = (v ++ [lead]).length := by
        rw [hbuf, List.length_append, List.length_singleton]
        omega
      rw [hdrop, show v ++ lead :: tail = (v ++ [lead]) ++ tail by simp, List.drop_left,
        List.append_nil]
    rw [hlast, splitBack_continuation (fun b hb => htail b (List.mem_reverse.mp hb)), splitBack,
      if_pos (by omega)]

theorem findUtf8SplitPoint_valid {v : Bytes} (h : Valid v) : findUtf8SplitPoint v = v.length := by
  -- the last character of it
  obtain ⟨s, rfl⟩ := h
  rcases List.eq_nil_or_concat s with rfl | ⟨init, c, rfl⟩
  · rfl
  · obtain ⟨lead, tail, hchar, hlength, htail⟩ := encodeChar_cases c
    rw [List.concat_eq_append, List.flatMap_append, List.flatMap_singleton, hchar,
      findUtf8SplitPoint_lead hlength htail (Nat.le_refl _), if_pos (Nat.le_refl _)]

theorem findUtf8SplitPoint_torn {v p q : Bytes} (h : Torn p q) :
    findUtf8SplitPoint (v ++ p) = v.length := by
  obtain ⟨lead, tail, rfl, hlead, htail⟩ := h.lead
  have hq := List.length_pos_iff.mpr h.right
  rw [List.length_cons] at hlead
  rw [findUtf8SplitPoint_lead hlead htail (by omega), if_neg (by omega)]

/-! ### One read -/

theorem fromUtf8_isNone_iff (v : Bytes) : (fromUtf8 v).isNone = true ↔ ¬ Valid v := by
  constructor
  · rintro hnone ⟨s, rfl⟩
    have hsome : fromUtf8 (s.flatMap String.utf8EncodeChar) = some s := fromUtf8_asBytes s
    rw [hsome] at hnone
    cases hnone
  · intro hvalid
    unfold fromUtf8
    split
    · next h => exact absurd ⟨_, h⟩ hvalid
    · rfl

namespace Utf8ChunkAccumulator

variable (acc : Utf8ChunkAccumulator)

theorem pushChunk_append (data : Bytes) :
    (acc.pushChunk data).2.getD [] ++ (acc.pushChunk data).1.remainder = acc.remainder ++ data := by
  unfold pushChunk
  split
  · next h =>
    rw [List.isEmpty_iff.mp h, List.append_nil]
    rfl
  · dsimp only
    split
    · exact List.append_nil _
    split
    · exact List.append_nil _
    · have hall := List.take_append_drop (findUtf8SplitPoint (acc.remainder ++ data))
        (acc.remainder ++ data)
      split
      · next hempty =>
        rw [List.isEmpty_iff.mp hempty] at hall
        exact hall
      · exact hall

theorem pushChunk_remainder (data : Bytes)
    (h : acc.remainder.length ≤ 3) : (acc.pushChunk data).1.remainder.length ≤ 3 := by
  have hsplit := findUtf8SplitPoint_le (acc.remainder ++ data)
  unfold pushChunk
  split
  · exact h
  · dsimp only
    split
    · exact Nat.zero_le _
    split
    · exact Nat.zero_le _
    · rw [List.length_drop]
      omega

/-- **One read of a text.** Where what is held and what is still to come are a text, a piece of it
comes out, and what is held then and still to come are a text again. -/
theorem pushChunk_valid (data future : Bytes)
    (h : Valid (acc.remainder ++ data ++ future)) :
    (∀ piece ∈ (acc.pushChunk data).2, Valid piece) ∧
      Valid ((acc.pushChunk data).1.remainder ++ future) := by
  unfold pushChunk
  split
  · next hdata =>
    rw [List.isEmpty_iff.mp hdata, List.append_nil] at h
    exact ⟨fun piece hpiece => (Option.not_mem_none piece hpiece).elim, h⟩
  · dsimp only
    generalize acc.remainder ++ data = all at h
    obtain ⟨v, p, q, w, hall, rfl, hv, hw, hcut⟩ := h.cut
    subst hall
    rcases hcut with ⟨rfl, rfl⟩ | htorn
    · -- the read ends behind a character
      rw [List.append_nil, findUtf8SplitPoint_valid hv, if_pos rfl]
      refine ⟨?_, hw⟩
      intro piece hpiece
      rw [← Option.some.inj hpiece]
      exact hv
    · -- it ends within one
      have hp := List.length_pos_iff.mpr htorn.left
      have hsome : (fromUtf8 v).isNone = false := by
        rw [Bool.eq_false_iff]
        exact fun hnone => (fromUtf8_isNone_iff v).mp hnone hv
      rw [findUtf8SplitPoint_torn htorn, if_neg (by rw [List.length_append]; omega),
        List.take_left, List.drop_left, hsome, Bool.and_false, if_neg Bool.false_ne_true]
      refine ⟨?_, ?_⟩
      · intro piece hpiece
        split at hpiece
        · cases hpiece
        · cases hpiece
          exact hv
      · change Valid (p ++ (q ++ w))
        rw [← List.append_assoc]
        exact htorn.valid.append hw

/-! ### All reads -/

theorem accumulate_append (chunks : List Bytes) :
    (accumulate acc chunks).2.flatten ++ (accumulate acc chunks).1.remainder =
      acc.remainder ++ chunks.flatten := by
  induction chunks generalizing acc with
  | nil => exact (List.append_nil _).symm
  | cons data chunks ih =>
    have hpiece : (acc.pushChunk data).2.toList.flatten = (acc.pushChunk data).2.getD [] := by
      cases (acc.pushChunk data).2 with
      | none => rfl
      | some piece => exact List.append_nil piece
    rw [accumulate, List.flatten_append, List.append_assoc, ih, hpiece, ← List.append_assoc,
      pushChunk_append, List.flatten_cons, List.append_assoc]

theorem accumulate_remainder (h : acc.remainder.length ≤ 3)
    (chunks : List Bytes) : (accumulate acc chunks).1.remainder.length ≤ 3 := by
  induction chunks generalizing acc with
  | nil => exact h
  | cons data chunks ih => exact ih _ (pushChunk_remainder acc data h)

theorem accumulate_valid (chunks : List Bytes)
    (h : Valid (acc.remainder ++ chunks.flatten)) : ∀ piece ∈ (accumulate acc chunks).2,
      Valid piece := by
  induction chunks generalizing acc with
  | nil => exact fun piece hpiece => absurd hpiece List.not_mem_nil
  | cons data chunks ih =>
    rw [List.flatten_cons, ← List.append_assoc] at h
    obtain ⟨hpiece, hrest⟩ := pushChunk_valid acc data chunks.flatten h
    intro piece hmem
    rcases List.mem_append.mp hmem with hnow | hlater
    · exact hpiece piece (Option.mem_toList.mp hnow)
    · exact ih _ hrest piece hlater

theorem finish_getD : acc.finish.2.getD [] = acc.remainder := by
  unfold finish
  split
  · next h => exact (List.isEmpty_iff.mp h).symm
  · rfl

/-- **All reads of a terminal.** The pieces and what `finish` adds are the reads; no more than three
bytes are held back at any time; and a text comes out in pieces that are texts. -/
theorem accumulate_spec (chunks : List Bytes) :
    (accumulate new chunks).2.flatten ++ (accumulate new chunks).1.finish.2.getD [] =
        chunks.flatten ∧
      (∀ pre, pre <+: chunks → (accumulate new pre).1.remainder.length ≤ 3) ∧
      (Valid chunks.flatten → ∀ piece ∈ (accumulate new chunks).2, Valid piece) := by
  refine ⟨?_, ?_, ?_⟩
  · rw [finish_getD]
    exact accumulate_append new chunks
  · intro pre _
    exact accumulate_remainder new (Nat.zero_le _) pre
  · intro hvalid
    exact accumulate_valid new chunks hvalid

example : accumulate new [[0xE4], [0xB8], [0xAD, 0x61, 0xE4]] =
    (⟨[0xE4]⟩, [[0xE4, 0xB8, 0xAD, 0x61]]) := by decide +kernel

end Utf8ChunkAccumulator

end LibRustdesk.Terminal
