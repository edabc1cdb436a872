import Mathlib.Data.List.Basic

/-!
# Stretches of a history

A stretch of a list goes on as long as each item continues it; `next` says how an item does that,
and whether. `List.foldlM next q` is how far a stretch from `q` has got, or `none` when it has
ended.

* `stretch next q items` — the items up to the first one that ends the stretch.
* `Since next first q history kept reached` — in a history there is a `first`, `kept` is the stretch
  after it, and `reached` is how far it has got. A history grows at its end, and the four rules
  `Since.start`, `Since.concat_of_some`, `Since.concat_of_none` and `Since.append` say what an item
  more does to it: once a stretch has ended, nothing does.
-/

namespace LibRustdesk

variable {σ α : Type*} (next : σ → α → Option σ)

/-- The items up to the first one that ends the stretch. -/
def stretch (q : σ) : List α → List α
  | [] => []
  | a :: items =>
    match next q a with
    | none => []
    | some q' => a :: stretch q' items

variable {next}

theorem stretch_nil (q : σ) : stretch next q [] = [] := rfl

theorem stretch_cons_of_some {q q' : σ} {a : α} (ha : next q a = some q') (items : List α) :
    stretch next q (a :: items) = a :: stretch next q' items := by
  rw [stretch.eq_2, ha]

theorem stretch_cons_of_none {q : σ} {a : α} (ha : next q a = none) (items : List α) :
    stretch next q (a :: items) = [] := by
  rw [stretch.eq_2, ha]

theorem stretch_append_of_some {q q' : σ} {items : List α} (h : items.foldlM next q = some q')
    (more : List α) :
    stretch next q (items ++ more) = stretch next q items ++ stretch next q' more := by
  induction items generalizing q with
  | nil =>
    cases h
    rfl
  | cons a items ih =>
    rw [List.foldlM_cons] at h
    obtain ⟨r, ha, hrest⟩ := Option.bind_eq_some_iff.mp h
    rw [List.cons_append, stretch_cons_of_some ha, stretch_cons_of_some ha, ih hrest,
      List.cons_append]

theorem stretch_append_of_none {q : σ} {items : List α} (h : items.foldlM next q = none)
    (more : List α) : stretch next q (items ++ more) = stretch next q items := by
  induction items generalizing q with
  | nil => cases h
  | cons a items ih =>
    rw [List.foldlM_cons] at h
    rw [List.cons_append]
    cases ha : next q a with
    | none => rw [stretch_cons_of_none ha, stretch_cons_of_none ha]
    | some r =>
      rw [ha] at h
      rw [stretch_cons_of_some ha, stretch_cons_of_some ha, ih h]

theorem foldlM_concat {q q' : σ} {items : List α} (h : items.foldlM next q = some q') (a : α) :
    (items ++ [a]).foldlM next q = next q' a := by
  rw [List.foldlM_append, h]
  exact bind_pure (next q' a)

variable (next) in
/-- In the history there is a `first`, and after it the stretch is `kept` and has `reached` so
far. -/
def Since (first : α) (q : σ) (history kept : List α) (reached : Option σ) : Prop :=
  ∃ past items, history = past ++ first :: items ∧ kept = stretch next q items ∧
    items.foldlM next q = reached

namespace Since

variable {first : α} {q : σ} {history kept : List α}

theorem start (a : α) (q : σ) (history : List α) : Since next a q (history ++ [a]) [] (some q) :=
  ⟨history, [], rfl, rfl, rfl⟩

theorem concat_of_some {q' q'' : σ} (h : Since next first q history kept (some q')) {a : α}
    (ha : next q' a = some q'') :
    Since next first q (history ++ [a]) (kept ++ [a]) (some q'') := by
  obtain ⟨past, items, rfl, rfl, hreached⟩ := h
  refine ⟨past, items ++ [a], List.append_assoc _ _ _, ?_, (foldlM_concat hreached a).trans ha⟩
  rw [stretch_append_of_some hreached, stretch_cons_of_some ha, stretch_nil]

theorem concat_of_none {q' : σ} (h : Since next first q history kept (some q')) {a : α}
    (ha : next q' a = none) : Since next first q (history ++ [a]) kept none := by
  obtain ⟨past, items, rfl, rfl, hreached⟩ := h
  refine ⟨past, items ++ [a], List.append_assoc _ _ _, ?_, (foldlM_concat hreached a).trans ha⟩
  rw [stretch_append_of_some hreached, stretch_cons_of_none ha, List.append_nil]

theorem append (h : Since next first q history kept none) (more : List α) :
    Since next first q (history ++ more) kept none := by
  obtain ⟨past, items, rfl, rfl, hreached⟩ := h
  refine ⟨past, items ++ more, List.append_assoc _ _ _, ?_, ?_⟩
  · exact (stretch_append_of_none hreached more).symm
  · rw [List.foldlM_append, hreached]
    rfl

end Since

end LibRustdesk
