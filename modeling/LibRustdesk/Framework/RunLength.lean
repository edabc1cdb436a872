import Mathlib.Data.List.DropRight
import Mathlib.Data.List.Infix
import Mathlib.Data.Nat.ModEq

/-!
# How often a list ends in the same item

* `runLength a l` — how many times in a row `a` stands at the end of `l`. A list grows at its end,
  and `runLength_concat_self` and `runLength_concat_of_ne` say what an item more does to it.
* `replicate_infix_iff` — `a` stands `n` times in a row somewhere in a list when some prefix of the
  list ends in so many.
* `forall_not_dvd_iff` — a number that counts the `a` in a row **modulo** `n` misses exactly the
  lists with `n` of them in a row.
-/

namespace LibRustdesk

variable {α : Type*} [DecidableEq α] {a b : α} {l : List α}

/-- How many times in a row `a` stands at the end of `l`. -/
def runLength (a : α) (l : List α) : ℕ := (l.rtakeWhile (· = a)).length

@[simp] theorem runLength_nil (a : α) : runLength a [] = 0 := by
  simp [runLength]

@[simp] theorem runLength_concat_self (a : α) (l : List α) :
    runLength a (l ++ [a]) = runLength a l + 1 := by
  unfold runLength
  rw [List.rtakeWhile_concat_pos _ _ _ (by simp), List.length_append, List.length_singleton]

theorem runLength_concat_of_ne (h : b ≠ a) (l : List α) : runLength a (l ++ [b]) = 0 := by
  unfold runLength
  rw [List.rtakeWhile_concat_neg _ _ _ (by simpa using h), List.length_nil]

theorem runLength_append_replicate (l : List α) (n : ℕ) :
    runLength a (l ++ List.replicate n a) = runLength a l + n := by
  induction n with
  | zero => simp
  | succ n ih =>
    rw [List.replicate_succ', ← List.append_assoc, runLength_concat_self, ih]
    rfl

theorem replicate_runLength_suffix (a : α) (l : List α) :
    List.replicate (runLength a l) a <:+ l := by
  have hall : l.rtakeWhile (· = a) = List.replicate (runLength a l) a := by
    refine List.eq_replicate_of_mem fun b hb => ?_
    simpa using List.mem_rtakeWhile_imp hb
  rw [← hall]
  exact List.rtakeWhile_suffix _ l

theorem replicate_suffix_of_le {n : ℕ} (h : n ≤ runLength a l) : List.replicate n a <:+ l := by
  obtain ⟨k, hk⟩ := Nat.exists_eq_add_of_le' h
  have hshort : List.replicate n a <:+ List.replicate (runLength a l) a := by
    rw [hk, List.replicate_add]
    exact List.suffix_append _ _
  exact hshort.trans (replicate_runLength_suffix a l)

theorem replicate_infix_iff {n : ℕ} :
    List.replicate n a <:+: l ↔ ∃ pre, pre <+: l ∧ n ≤ runLength a pre := by
  constructor
  · rintro ⟨before, after, rfl⟩
    refine ⟨before ++ List.replicate n a, List.prefix_append _ after, ?_⟩
    rw [runLength_append_replicate]
    exact Nat.le_add_left n _
  · rintro ⟨pre, hpre, hle⟩
    exact (replicate_suffix_of_le hle).isInfix.trans hpre.isInfix

theorem forall_not_dvd_iff {n : ℕ} (hn : 0 < n) :
    (∀ pre post, l = pre ++ a :: post → ¬ n ∣ runLength a pre + 1) ↔
      ¬ List.replicate n a <:+: l := by
  constructor
  · rintro h ⟨before, after, rfl⟩
    -- of `n` numbers in a row one is a multiple of `n`
    set r := runLength a before with hr
    set j := n - 1 - r % n with hj
    have hmod : r % n < n := Nat.mod_lt r hn
    have hsplit : List.replicate n a =
        List.replicate j a ++ a :: List.replicate (n - 1 - j) a := by
      rw [← List.replicate_succ, ← List.replicate_add]
      congr 1
      omega
    refine h (before ++ List.replicate j a) (List.replicate (n - 1 - j) a ++ after) ?_ ?_
    · rw [hsplit]
      simp
    · rw [runLength_append_replicate, ← hr]
      have hdiv := Nat.div_add_mod r n
      refine ⟨r / n + 1, ?_⟩
      rw [Nat.mul_add, Nat.mul_one]
      omega
  · rintro h pre post rfl hdvd
    apply h
    rw [replicate_infix_iff]
    refine ⟨pre ++ [a], ⟨post, by simp⟩, ?_⟩
    rw [runLength_concat_self]
    exact Nat.le_of_dvd (Nat.succ_pos _) hdvd

end LibRustdesk
