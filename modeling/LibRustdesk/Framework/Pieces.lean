import Mathlib.Data.List.Basic

/-!
# The pieces of a list

What `List.splitOn` leaves between the separators.

* `mem_of_mem_piece` — an element of a piece is one of the list, and no separator.
* `exists_piece_of_mem` — an element that is no separator is one of a piece.
* `length_splitOn` — there is one piece more than there are separators.
* `infix_of_mem_splitOn` — a piece is a stretch of the list.
-/

namespace LibRustdesk

variable {α : Type*} [BEq α] [LawfulBEq α]

theorem mem_of_mem_piece {sep x : α} {l piece : List α} (hpiece : piece ∈ l.splitOn sep)
    (hx : x ∈ piece) : x ∈ l ∧ x ≠ sep := by
  induction l generalizing piece with
  | nil =>
    rw [List.splitOn_nil, List.mem_singleton] at hpiece
    rw [hpiece] at hx
    cases hx
  | cons a l ih =>
    have hlater {piece : List α} (hpiece : piece ∈ l.splitOn sep) (hx : x ∈ piece) :
        x ∈ a :: l ∧ x ≠ sep := (ih hpiece hx).imp_left (List.mem_cons_of_mem a)
    rw [List.splitOn_cons_eq_if_modifyHead] at hpiece
    split at hpiece
    · rcases List.mem_cons.mp hpiece with rfl | hpiece
      · cases hx
      · exact hlater hpiece hx
    · next hne =>
      -- the element goes to the front of the first piece
      cases hl : l.splitOn sep with
      | nil => exact absurd hl (List.splitOn_ne_nil sep l)
      | cons first rest =>
        rw [hl] at hpiece
        rcases List.mem_cons.mp hpiece with rfl | hrest
        · rcases List.mem_cons.mp hx with rfl | hx
          · exact ⟨List.mem_cons_self, fun heq => hne (beq_iff_eq.mpr heq)⟩
          · exact hlater (hl ▸ List.mem_cons_self) hx
        · exact hlater (hl ▸ List.mem_cons_of_mem first hrest) hx

theorem not_mem_piece {sep : α} {l piece : List α} (hpiece : piece ∈ l.splitOn sep) :
    sep ∉ piece := fun hsep => (mem_of_mem_piece hpiece hsep).2 rfl

theorem exists_piece_of_mem {sep x : α} {l : List α} (hx : x ∈ l) (hne : x ≠ sep) :
    ∃ piece ∈ l.splitOn sep, x ∈ piece := by
  induction l with
  | nil => cases hx
  | cons a l ih =>
    rw [List.splitOn_cons_eq_if_modifyHead]
    split
    · next ha =>
      rcases List.mem_cons.mp hx with rfl | hx
      · exact absurd (beq_iff_eq.mp ha) hne
      · obtain ⟨piece, hpiece, hmem⟩ := ih hx
        exact ⟨piece, List.mem_cons_of_mem _ hpiece, hmem⟩
    · cases hl : l.splitOn sep with
      | nil => exact absurd hl (List.splitOn_ne_nil sep l)
      | cons first rest =>
        rcases List.mem_cons.mp hx with rfl | hx
        · exact ⟨x :: first, List.mem_cons_self, List.mem_cons_self⟩
        · obtain ⟨piece, hpiece, hmem⟩ := ih hx
          rw [hl] at hpiece
          rcases List.mem_cons.mp hpiece with rfl | hrest
          · exact ⟨a :: piece, List.mem_cons_self, List.mem_cons_of_mem a hmem⟩
          · exact ⟨piece, List.mem_cons_of_mem _ hrest, hmem⟩

theorem length_splitOn {sep : α} {l : List α} : (l.splitOn sep).length = l.count sep + 1 := by
  induction l with
  | nil => rfl
  | cons a l ih =>
    rw [List.splitOn_cons_eq_if_modifyHead, List.count_cons]
    split
    · rw [List.length_cons, ih]
    · rw [List.length_modifyHead, ih, Nat.add_zero]

theorem prefix_of_head_splitOn {sep : α} {l first : List α} {rest : List (List α)}
    (h : l.splitOn sep = first :: rest) : first <+: l := by
  induction l generalizing first rest with
  | nil =>
    obtain ⟨rfl, -⟩ := List.cons.inj h
    exact List.prefix_rfl
  | cons a l ih =>
    rw [List.splitOn_cons_eq_if_modifyHead] at h
    split at h
    · obtain ⟨rfl, -⟩ := List.cons.inj h
      exact List.nil_prefix
    · cases hl : l.splitOn sep with
      | nil => exact absurd hl (List.splitOn_ne_nil sep l)
      | cons first' rest' =>
        rw [hl] at h
        obtain ⟨rfl, -⟩ := List.cons.inj h
        exact (List.prefix_cons_inj a).mpr (ih hl)

theorem infix_of_mem_splitOn {sep : α} {l piece : List α} (h : piece ∈ l.splitOn sep) :
    piece <:+: l := by
  induction l with
  | nil =>
    rw [List.splitOn_nil, List.mem_singleton] at h
    exact h ▸ List.infix_rfl
  | cons a l ih =>
    cases hl : (a :: l).splitOn sep with
    | nil => exact absurd hl (List.splitOn_ne_nil sep _)
    | cons first rest =>
      have hfirst := prefix_of_head_splitOn hl
      rw [hl] at h
      rcases List.mem_cons.mp h with rfl | h
      · exact hfirst.isInfix
      · -- the others are those of the rest
        refine (ih ?_).trans (List.suffix_cons a l).isInfix
        rw [List.splitOn_cons_eq_if_modifyHead] at hl
        split at hl
        · obtain ⟨-, rfl⟩ := List.cons.inj hl
          exact h
        · cases hl' : l.splitOn sep with
          | nil => exact absurd hl' (List.splitOn_ne_nil sep l)
          | cons first' rest' =>
            rw [hl'] at hl
            obtain ⟨-, rfl⟩ := List.cons.inj hl
            exact List.mem_cons_of_mem _ h

end LibRustdesk
