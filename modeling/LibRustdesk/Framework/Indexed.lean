import Mathlib.Data.List.Basic

/-!
# Histories read by index

A history is a list that only grows at its end. These are the facts used to follow one: an index
of a prefix is an index of the whole (`getElem?_of_prefix`), an index of `l ++ [a]` is one of `l`
or the new end (`getElem?_concat_cases`), and a history whose partial reading agrees with another
at every index is a sublist of it, a prefix while the reading does not fail
(`filterMap_sublist_of_index`, `takeWhile_filterMap_prefix_of_index`). `mapM_isSome_iff` is about
a reading that has to succeed everywhere.
-/

namespace LibRustdesk

variable {α β : Type*}

theorem getElem?_of_prefix {l l' : List α} (h : l <+: l') {n : ℕ} {a : α}
    (hn : l[n]? = some a) : l'[n]? = some a := by
  obtain ⟨t, rfl⟩ := h
  rw [List.getElem?_append_left (List.getElem?_eq_some_iff.mp hn).1]
  exact hn

theorem getElem?_concat_cases {l : List α} {a b : α} {n : ℕ} (h : (l ++ [a])[n]? = some b) :
    l[n]? = some b ∨ (n = l.length ∧ b = a) := by
  rw [List.getElem?_append] at h
  split at h
  · exact Or.inl h
  · next hn =>
    rw [List.getElem?_singleton] at h
    split at h
    · next hz => exact Or.inr ⟨by omega, (Option.some.inj h).symm⟩
    · exact absurd h (by simp)

theorem mem_eraseIdx_of_ne {l : List α} {i : ℕ} {a b : α} (ha : l[i]? = some a) (hb : b ∈ l)
    (hne : b ≠ a) : b ∈ l.eraseIdx i := by
  obtain ⟨j, hj⟩ := List.mem_iff_getElem?.mp hb
  refine List.mem_eraseIdx_iff_getElem?.mpr ⟨j, ?_, hj⟩
  rintro rfl
  rw [ha] at hj
  exact hne (Option.some.inj hj).symm

theorem getElem?_filterMap_countP {f : α → Option β} {l : List α} {n : ℕ} {a : α} {b : β}
    (hn : l[n]? = some a) (hf : f a = some b) :
    (l.filterMap f)[(l.take n).countP fun a => (f a).isSome]? = some b := by
  induction l generalizing n with
  | nil => cases hn
  | cons x l ih =>
    cases n with
    | zero =>
      obtain rfl := Option.some.inj hn
      rw [List.filterMap_cons_some hf]
      rfl
    | succ n =>
      have hrest := ih hn
      cases hx : f x with
      | none =>
        rw [List.filterMap_cons_none hx, List.take_succ_cons,
          List.countP_cons_of_neg (by simp [hx])]
        exact hrest
      | some y =>
        rw [List.filterMap_cons_some hx, List.take_succ_cons,
          List.countP_cons_of_pos (by simp [hx]),
          List.getElem?_cons_succ]
        exact hrest

theorem filterMap_sublist_of_index {f : α → Option β} {l : List α} {l' : List β}
    (h : ∀ (n : ℕ) a b, l[n]? = some a → f a = some b → l'[n]? = some b) :
    (l.filterMap f).Sublist l' := by
  induction l generalizing l' with
  | nil => exact List.nil_sublist l'
  | cons a l ih =>
    cases l' with
    | nil =>
      have hnone : ∀ x ∈ a :: l, f x = none := by
        intro x hx
        obtain ⟨n, hn⟩ := List.mem_iff_getElem?.mp hx
        cases hf : f x with
        | none => rfl
        | some b => exact absurd (h n x b hn hf) (by simp)
      rw [List.filterMap_eq_nil_iff.mpr hnone]
    | cons b' l' =>
      have htail : (l.filterMap f).Sublist l' :=
        ih fun n x b hn hf => h (n + 1) x b (by simpa using hn) hf
      cases hf : f a with
      | none =>
        rw [List.filterMap_cons_none hf]
        exact htail.cons b'
      | some b =>
        obtain rfl : b' = b := by simpa using h 0 a b rfl hf
        rw [List.filterMap_cons_some hf]
        exact htail.cons_cons b'

theorem takeWhile_filterMap_prefix_of_index {f : α → Option β} {l : List α} {l' : List β}
    (h : ∀ (n : ℕ) a b, l[n]? = some a → f a = some b → l'[n]? = some b) :
    (l.takeWhile fun a => (f a).isSome).filterMap f <+: l' := by
  induction l generalizing l' with
  | nil => exact List.nil_prefix
  | cons a l ih =>
    cases hf : f a with
    | none =>
      rw [List.takeWhile_cons_of_neg (by simp [hf])]
      exact List.nil_prefix
    | some b =>
      rw [List.takeWhile_cons_of_pos (by simp [hf]), List.filterMap_cons_some hf]
      obtain ⟨l'', rfl⟩ : ∃ l'', l' = b :: l'' := by
        have h0 := h 0 a b rfl hf
        cases l' with
        | nil => exact absurd h0 (by simp)
        | cons b' l'' => exact ⟨l'', by rw [show b' = b by simpa using h0]⟩
      rw [List.prefix_cons_inj]
      exact ih fun n x c hn hc => by simpa using h (n + 1) x c (by simpa using hn) hc

theorem mapM_isSome_iff {α β : Type} {f : α → Option β} {l : List α} :
    (l.mapM f).isSome = true ↔ ∀ a ∈ l, (f a).isSome = true := by
  induction l with
  | nil => exact iff_of_true rfl fun a ha => absurd ha List.not_mem_nil
  | cons a l ih =>
    rw [List.mapM_cons, List.forall_mem_cons, ← ih]
    cases f a with
    | none => exact iff_of_false Bool.false_ne_true fun h => Bool.false_ne_true h.1
    | some b =>
      cases l.mapM f with
      | none => exact iff_of_false Bool.false_ne_true fun h => Bool.false_ne_true h.2
      | some bs => exact iff_of_true rfl ⟨rfl, rfl⟩

end LibRustdesk
