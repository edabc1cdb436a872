import Mathlib.Data.List.Find
import Mathlib.Data.List.Nodup

/-!
# Lists with a key

A map whose iteration order matters is a list of entries whose keys are pairwise distinct. An
entry may carry more than one such key, so the key is a parameter.

* `Keyed.item?` — the entry of a key.
* `Keyed.item?_filterMap` — how it follows updates that keep the keys.
* `Keyed.flatMap_entry` — what is collected over all entries, when only one contributes.
-/

namespace LibRustdesk.Keyed

variable {α β κ : Type*} (key : α → κ)

def Distinct (l : List α) : Prop := (l.map key).Nodup

def item? [DecidableEq κ] (k : κ) (l : List α) : Option α := l.find? fun a => key a == k

variable {key} {k : κ} {l : List α} {a : α}

/-! ### Distinct keys -/

theorem distinct_cons : Distinct key (a :: l) ↔ (∀ b ∈ l, key b ≠ key a) ∧ Distinct key l := by
  unfold Distinct
  rw [List.map_cons, List.nodup_cons, List.mem_map]
  simp only [not_exists, not_and, ne_eq]

theorem Distinct.map {f : α → α} (hl : Distinct key l) (hf : ∀ a, key (f a) = key a) :
    Distinct key (l.map f) := by
  unfold Distinct
  rw [List.map_map]
  have hkey : key ∘ f = key := funext hf
  rw [hkey]
  exact hl

theorem Distinct.filterMap {f : α → Option α} (hl : Distinct key l)
    (hf : ∀ a b, f a = some b → key b = key a) : Distinct key (l.filterMap f) := by
  refine List.Nodup.sublist ?_ hl
  clear hl
  induction l with
  | nil => exact List.Sublist.refl _
  | cons a l ih =>
    cases hfa : f a with
    | none =>
      rw [List.filterMap_cons_none hfa]
      exact ih.cons _
    | some b =>
      rw [List.filterMap_cons_some hfa, List.map_cons, List.map_cons, hf a b hfa]
      exact ih.cons_cons _

theorem Distinct.concat (hl : Distinct key l) (ha : ∀ b ∈ l, key b ≠ key a) :
    Distinct key (l ++ [a]) := by
  unfold Distinct
  rw [List.map_append, List.nodup_append]
  refine ⟨hl, List.nodup_singleton _, ?_⟩
  intro x hx y hy
  obtain ⟨b, hb, rfl⟩ := List.mem_map.mp hx
  rw [List.map_singleton, List.mem_singleton] at hy
  exact hy ▸ ha b hb

theorem Distinct.eq_of_mem (hl : Distinct key l) {b : α} (ha : a ∈ l) (hb : b ∈ l)
    (h : key a = key b) : a = b := List.inj_on_of_nodup_map hl ha hb h

/-! ### Entries -/

variable [DecidableEq κ]

theorem item?_cons : item? key k (a :: l) = if key a = k then some a else item? key k l := by
  unfold item?
  rw [List.find?_cons]
  split <;> simp_all

theorem mem_of_item? (h : item? key k l = some a) : a ∈ l ∧ key a = k :=
  ⟨List.mem_of_find?_eq_some h, by simpa using List.find?_some h⟩

theorem item?_eq_none : item? key k l = none ↔ ∀ a ∈ l, key a ≠ k := by
  simp [item?]

theorem item?_of_mem (hl : Distinct key l) (ha : a ∈ l) : item? key (key a) l = some a := by
  induction l with
  | nil => cases ha
  | cons b l ih =>
    obtain ⟨hne, hl⟩ := distinct_cons.mp hl
    rw [item?_cons]
    rcases List.mem_cons.mp ha with rfl | ha
    · rw [if_pos rfl]
    · rw [if_neg fun h => hne a ha h.symm]
      exact ih hl ha

theorem item?_filterMap {f : α → Option α} (hl : Distinct key l)
    (hf : ∀ a b, f a = some b → key b = key a) :
    item? key k (l.filterMap f) = (item? key k l).bind f := by
  induction l with
  | nil => rfl
  | cons a l ih =>
    obtain ⟨hne, hl⟩ := distinct_cons.mp hl
    rw [item?_cons]
    cases hfa : f a with
    | none =>
      rw [List.filterMap_cons_none hfa, ih hl]
      split
      · next hk =>
        -- The entry of `k` is dropped, and no other has its key.
        have hnone : item? key k l = none :=
          item?_eq_none.mpr fun b hb => hk ▸ hne b hb
        rw [hnone, Option.bind_some, hfa, Option.bind_none]
      · rfl
    | some b =>
      rw [List.filterMap_cons_some hfa, item?_cons, hf a b hfa, ih hl]
      split
      · rw [Option.bind_some, hfa]
      · rfl

theorem item?_concat_of_ne (h : key a ≠ k) : item? key k (l ++ [a]) = item? key k l := by
  unfold item?
  rw [List.find?_append, List.find?_singleton, if_neg (by simpa using h), Option.or_none]

theorem item?_congr {κ' : Type*} [DecidableEq κ'] {key' : α → κ'} {k' : κ'}
    (h : ∀ a ∈ l, key a = k ↔ key' a = k') : item? key k l = item? key' k' l :=
  List.find?_congr fun a ha => by simp [h a ha]

theorem flatMap_entry {g : α → List β} (hl : Distinct key l)
    (hg : ∀ a ∈ l, key a ≠ k → g a = []) : l.flatMap g = (item? key k l).elim [] g := by
  induction l with
  | nil => rfl
  | cons a l ih =>
    obtain ⟨hne, hl⟩ := distinct_cons.mp hl
    have hrest := ih hl fun b hb => hg b (List.mem_cons_of_mem a hb)
    rw [List.flatMap_cons, hrest, item?_cons]
    split
    · next hk =>
      have hnone : item? key k l = none := item?_eq_none.mpr fun b hb => hk ▸ hne b hb
      rw [hnone]
      exact List.append_nil _
    · next hk => rw [hg a List.mem_cons_self hk, List.nil_append]

end LibRustdesk.Keyed
