import Mathlib.Computability.Language

/-!
# Regular expressions

Regular expressions over classes of letters, as a `regex` that is anchored at both ends reads them.

* `language` — what an expression describes, in Mathlib's languages.
* `isMatch` — the matcher, by derivatives; `isMatch_iff` says that it decides the language.
* `plus`, `opt`, `between` — the repetitions `+`, `?` and `{m,n}`; `between_iff` for a class.
* `Within` — all letters of what an expression describes are from a class (`within_of_mem`).
-/

namespace LibRustdesk

inductive Regex (α : Type*)
  | fail
  | empty
  | one (cls : α → Bool)
  | alt (r s : Regex α)
  | seq (r s : Regex α)
  | star (r : Regex α)

namespace Regex

open scoped Computability

variable {α : Type*}

def language : Regex α → Language α
  | fail => 0
  | empty => 1
  | one cls => {w | ∃ c, cls c = true ∧ w = [c]}
  | alt r s => r.language + s.language
  | seq r s => r.language * s.language
  | star r => r.language∗

def nullable : Regex α → Bool
  | fail => false
  | empty => true
  | one _ => false
  | alt r s => r.nullable || s.nullable
  | seq r s => r.nullable && s.nullable
  | star _ => true

def deriv (c : α) : Regex α → Regex α
  | fail => fail
  | empty => fail
  | one cls => if cls c then empty else fail
  | alt r s => alt (r.deriv c) (s.deriv c)
  | seq r s =>
    if r.nullable then alt (seq (r.deriv c) s) (s.deriv c) else seq (r.deriv c) s
  | star r => seq (r.deriv c) (star r)

/-- `Regex::is_match`, between anchors. -/
def isMatch (r : Regex α) : List α → Bool
  | [] => r.nullable
  | c :: w => (r.deriv c).isMatch w

/-! ### Repetitions -/

def plus (r : Regex α) : Regex α := seq r (star r)

def opt (r : Regex α) : Regex α := alt empty r

/-- `n` times. -/
def times (r : Regex α) : ℕ → Regex α
  | 0 => empty
  | n + 1 => seq r (r.times n)

/-- Up to `n` times. -/
def upTo (r : Regex α) : ℕ → Regex α
  | 0 => empty
  | n + 1 => opt (seq r (r.upTo n))

/-- `r{m,n}`. -/
def between (r : Regex α) (m n : ℕ) : Regex α := seq (r.times m) (r.upTo (n - m))

/-! ### The matcher decides the language -/

theorem nil_mem_iff (r : Regex α) : [] ∈ r.language ↔ r.nullable = true := by
  induction r with
  | fail => exact iff_of_false (Language.notMem_zero _) Bool.false_ne_true
  | empty => exact iff_of_true rfl rfl
  | one cls =>
    refine iff_of_false ?_ Bool.false_ne_true
    rintro ⟨c, -, hc⟩
    cases hc
  | alt r s ihr ihs =>
    show [] ∈ r.language + s.language ↔ (r.nullable || s.nullable) = true
    rw [Language.mem_add, ihr, ihs, Bool.or_eq_true]
  | seq r s ihr ihs =>
    show [] ∈ r.language * s.language ↔ (r.nullable && s.nullable) = true
    rw [Language.mem_mul, Bool.and_eq_true, ← ihr, ← ihs]
    constructor
    · rintro ⟨u, hu, v, hv, huv⟩
      obtain ⟨rfl, rfl⟩ := List.append_eq_nil_iff.mp huv
      exact ⟨hu, hv⟩
    · rintro ⟨hu, hv⟩
      exact ⟨[], hu, [], hv, rfl⟩
  | star r _ => exact iff_of_true (Language.nil_mem_kstar _) rfl

theorem cons_mem_mul {l m : Language α} {c : α} {w : List α} : c :: w ∈ l * m ↔
    (∃ u v, c :: u ∈ l ∧ v ∈ m ∧ u ++ v = w) ∨ ([] ∈ l ∧ c :: w ∈ m) := by
  rw [Language.mem_mul]
  constructor
  · rintro ⟨u, hu, v, hv, huv⟩
    cases u with
    | nil =>
      obtain rfl : v = c :: w := huv
      exact Or.inr ⟨hu, hv⟩
    | cons a u =>
      obtain ⟨rfl, hw⟩ := List.cons.inj huv
      exact Or.inl ⟨u, v, hu, hv, hw⟩
  · rintro (⟨u, v, hu, hv, rfl⟩ | ⟨hnil, hw⟩)
    · exact ⟨c :: u, hu, v, hv, rfl⟩
    · exact ⟨[], hnil, c :: w, hw, rfl⟩

theorem cons_mem_kstar {l : Language α} {c : α} {w : List α} :
    c :: w ∈ l∗ ↔ ∃ u v, c :: u ∈ l ∧ v ∈ l∗ ∧ u ++ v = w := by
  constructor
  · rw [Language.mem_kstar_iff_exists_nonempty]
    rintro ⟨words, hwords, hall⟩
    cases words with
    | nil => cases hwords
    | cons first words =>
      obtain ⟨⟨hfirst, hne⟩, hrest⟩ := List.forall_mem_cons.mp hall
      cases first with
      | nil => exact absurd rfl hne
      | cons a u =>
        obtain ⟨rfl, hw⟩ := List.cons.inj hwords
        exact ⟨u, words.flatten, hfirst, Language.join_mem_kstar fun y hy => (hrest y hy).1,
          hw.symm⟩
  · rintro ⟨u, v, hu, hv, rfl⟩
    obtain ⟨words, rfl, hall⟩ := Language.mem_kstar.mp hv
    exact Language.mem_kstar.mpr ⟨(c :: u) :: words, rfl, List.forall_mem_cons.mpr ⟨hu, hall⟩⟩

theorem mem_deriv_iff (c : α) (r : Regex α) (w : List α) :
    w ∈ (r.deriv c).language ↔ c :: w ∈ r.language := by
  induction r generalizing w with
  | fail => exact iff_of_false (Language.notMem_zero _) (Language.notMem_zero _)
  | empty =>
    refine iff_of_false (Language.notMem_zero _) fun h => ?_
    cases (Language.mem_one _).mp h
  | one cls =>
    unfold deriv
    split
    · next hc =>
      constructor
      · intro hw
        obtain rfl := (Language.mem_one _).mp hw
        exact ⟨c, hc, rfl⟩
      · rintro ⟨c', -, hw⟩
        obtain ⟨-, rfl⟩ := List.cons.inj hw
        exact Language.nil_mem_one
    · next hc =>
      refine iff_of_false (Language.notMem_zero _) ?_
      rintro ⟨c', hc', hw⟩
      obtain ⟨rfl, -⟩ := List.cons.inj hw
      exact hc hc'
  | alt r s ihr ihs =>
    show w ∈ (r.deriv c).language + (s.deriv c).language ↔ c :: w ∈ r.language + s.language
    rw [Language.mem_add, Language.mem_add, ihr, ihs]
  | seq r s ihr ihs =>
    have hleft : w ∈ (r.deriv c).language * s.language ↔
        ∃ u v, c :: u ∈ r.language ∧ v ∈ s.language ∧ u ++ v = w := by
      rw [Language.mem_mul]
      constructor
      · rintro ⟨u, hu, v, hv, huv⟩
        exact ⟨u, v, (ihr u).mp hu, hv, huv⟩
      · rintro ⟨u, v, hu, hv, huv⟩
        exact ⟨u, (ihr u).mpr hu, v, hv, huv⟩
    show w ∈ (if r.nullable then alt (seq (r.deriv c) s) (s.deriv c)
      else seq (r.deriv c) s).language ↔ c :: w ∈ r.language * s.language
    rw [cons_mem_mul, nil_mem_iff]
    split
    · next hnull =>
      show w ∈ (r.deriv c).language * s.language + (s.deriv c).language ↔ _
      rw [Language.mem_add, hleft, ihs, hnull]
      simp only [true_and]
    · next hnull =>
      show w ∈ (r.deriv c).language * s.language ↔ _
      rw [hleft]
      exact (or_iff_left fun h => hnull h.1).symm
  | star r ih =>
    show w ∈ (r.deriv c).language * r.language∗ ↔ c :: w ∈ r.language∗
    rw [cons_mem_kstar, Language.mem_mul]
    constructor
    · rintro ⟨u, hu, v, hv, huv⟩
      exact ⟨u, v, (ih u).mp hu, hv, huv⟩
    · rintro ⟨u, v, hu, hv, huv⟩
      exact ⟨u, (ih u).mpr hu, v, hv, huv⟩

theorem isMatch_iff (r : Regex α) (w : List α) : r.isMatch w = true ↔ w ∈ r.language := by
  induction w generalizing r with
  | nil => exact (nil_mem_iff r).symm
  | cons c w ih => rw [isMatch, ih, mem_deriv_iff]

/-! ### What matches -/

theorem mem_seq {r s : Regex α} {w : List α} :
    w ∈ (seq r s).language ↔ ∃ u ∈ r.language, ∃ v ∈ s.language, u ++ v = w := Language.mem_mul

theorem mem_alt {r s : Regex α} {w : List α} :
    w ∈ (alt r s).language ↔ w ∈ r.language ∨ w ∈ s.language := Language.mem_add _ _ _

theorem mem_one_iff {cls : α → Bool} {w : List α} :
    w ∈ (one cls).language ↔ ∃ c, cls c = true ∧ w = [c] := Iff.rfl

theorem mem_star_iff {r : Regex α} {w : List α} :
    w ∈ r.star.language ↔ ∃ words : List (List α), w = words.flatten ∧
      ∀ u ∈ words, u ∈ r.language := Language.mem_kstar

theorem mem_plus_iff {r : Regex α} {w : List α} : w ∈ r.plus.language ↔
    ∃ (first : List α) (words : List (List α)), w = first ++ words.flatten ∧ first ∈ r.language ∧
      ∀ u ∈ words, u ∈ r.language := by
  unfold plus
  rw [mem_seq]
  constructor
  · rintro ⟨u, hu, v, hv, rfl⟩
    obtain ⟨words, rfl, hall⟩ := mem_star_iff.mp hv
    exact ⟨u, words, rfl, hu, hall⟩
  · rintro ⟨first, words, rfl, hfirst, hall⟩
    exact ⟨first, hfirst, words.flatten, mem_star_iff.mpr ⟨words, rfl, hall⟩, rfl⟩

theorem mem_times_one {cls : α → Bool} {n : ℕ} {w : List α} :
    w ∈ ((one cls).times n).language ↔ w.length = n ∧ ∀ c ∈ w, cls c = true := by
  induction n generalizing w with
  | zero =>
    show w ∈ (1 : Language α) ↔ _
    rw [Language.mem_one, List.length_eq_zero_iff]
    constructor
    · rintro rfl
      exact ⟨rfl, fun c hc => absurd hc List.not_mem_nil⟩
    · exact fun h => h.1
  | succ n ih =>
    rw [times, mem_seq]
    constructor
    · rintro ⟨u, ⟨c, hc, rfl⟩, v, hv, rfl⟩
      obtain ⟨hlen, hall⟩ := ih.mp hv
      refine ⟨?_, List.forall_mem_cons.mpr ⟨hc, hall⟩⟩
      rw [List.singleton_append, List.length_cons, hlen]
    · rintro ⟨hlen, hall⟩
      cases w with
      | nil => cases hlen
      | cons c w =>
        obtain ⟨hc, hw⟩ := List.forall_mem_cons.mp hall
        exact ⟨[c], ⟨c, hc, rfl⟩, w, ih.mpr ⟨Nat.succ.inj hlen, hw⟩, rfl⟩

theorem mem_upTo_one {cls : α → Bool} {n : ℕ} {w : List α} :
    w ∈ ((one cls).upTo n).language ↔ w.length ≤ n ∧ ∀ c ∈ w, cls c = true := by
  induction n generalizing w with
  | zero =>
    show w ∈ (1 : Language α) ↔ _
    rw [Language.mem_one, Nat.le_zero, List.length_eq_zero_iff]
    constructor
    · rintro rfl
      exact ⟨rfl, fun c hc => absurd hc List.not_mem_nil⟩
    · exact fun h => h.1
  | succ n ih =>
    rw [upTo, opt, mem_alt, mem_seq]
    constructor
    · rintro (hnil | ⟨u, ⟨c, hc, rfl⟩, v, hv, rfl⟩)
      · obtain rfl := (Language.mem_one _).mp hnil
        exact ⟨Nat.zero_le _, fun c hc => absurd hc List.not_mem_nil⟩
      · obtain ⟨hlen, hall⟩ := ih.mp hv
        refine ⟨?_, List.forall_mem_cons.mpr ⟨hc, hall⟩⟩
        rw [List.singleton_append, List.length_cons]
        exact Nat.succ_le_succ hlen
    · rintro ⟨hlen, hall⟩
      cases w with
      | nil => exact Or.inl Language.nil_mem_one
      | cons c w =>
        obtain ⟨hc, hw⟩ := List.forall_mem_cons.mp hall
        exact Or.inr ⟨[c], ⟨c, hc, rfl⟩, w, ih.mpr ⟨Nat.le_of_succ_le_succ hlen, hw⟩, rfl⟩

theorem between_iff {cls : α → Bool} {m n : ℕ} (hle : m ≤ n) {w : List α} :
    w ∈ ((one cls).between m n).language ↔
      m ≤ w.length ∧ w.length ≤ n ∧ ∀ c ∈ w, cls c = true := by
  unfold between
  rw [mem_seq]
  constructor
  · rintro ⟨u, hu, v, hv, rfl⟩
    obtain ⟨hulen, huall⟩ := mem_times_one.mp hu
    obtain ⟨hvlen, hvall⟩ := mem_upTo_one.mp hv
    rw [List.length_append]
    refine ⟨by omega, by omega, fun c hc => ?_⟩
    exact (List.mem_append.mp hc).elim (huall c) (hvall c)
  · rintro ⟨hm, hn, hall⟩
    refine ⟨w.take m, mem_times_one.mpr ⟨List.length_take_of_le hm, fun c hc => ?_⟩, w.drop m,
      mem_upTo_one.mpr ⟨?_, fun c hc => ?_⟩, List.take_append_drop m w⟩
    · exact hall c (List.mem_of_mem_take hc)
    · rw [List.length_drop]
      omega
    · exact hall c (List.mem_of_mem_drop hc)

theorem mem_plus_one {cls : α → Bool} {w : List α} :
    w ∈ (one cls).plus.language ↔ w ≠ [] ∧ ∀ c ∈ w, cls c = true := by
  rw [mem_plus_iff]
  constructor
  · rintro ⟨first, words, rfl, ⟨c, hc, rfl⟩, hall⟩
    refine ⟨List.cons_ne_nil _ _, List.forall_mem_cons.mpr ⟨hc, fun a ha => ?_⟩⟩
    obtain ⟨u, hu, hau⟩ := List.mem_flatten.mp ha
    obtain ⟨b, hb, rfl⟩ := hall u hu
    rw [List.mem_singleton.mp hau]
    exact hb
  · rintro ⟨hne, hall⟩
    cases w with
    | nil => exact absurd rfl hne
    | cons c w =>
      obtain ⟨hc, hw⟩ := List.forall_mem_cons.mp hall
      refine ⟨[c], w.map fun a => [a], ?_, ⟨c, hc, rfl⟩, fun u hu => ?_⟩
      · rw [← List.flatMap_def, List.flatMap_singleton']
        rfl
      · obtain ⟨a, ha, rfl⟩ := List.mem_map.mp hu
        exact ⟨a, hw a ha, rfl⟩

/-- All classes are within `q`. -/
def Within (q : α → Prop) : Regex α → Prop
  | fail => True
  | empty => True
  | one cls => ∀ c, cls c = true → q c
  | alt r s => r.Within q ∧ s.Within q
  | seq r s => r.Within q ∧ s.Within q
  | star r => r.Within q

theorem within_of_mem {q : α → Prop} {r : Regex α} (h : r.Within q) {w : List α}
    (hw : w ∈ r.language) : ∀ c ∈ w, q c := by
  induction r generalizing w with
  | fail => exact absurd hw (Language.notMem_zero _)
  | empty =>
    obtain rfl := (Language.mem_one _).mp hw
    exact fun c hc => absurd hc List.not_mem_nil
  | one cls =>
    obtain ⟨c, hc, rfl⟩ := hw
    exact List.forall_mem_singleton.mpr (h c hc)
  | alt r s ihr ihs => exact (mem_alt.mp hw).elim (ihr h.1) (ihs h.2)
  | seq r s ihr ihs =>
    obtain ⟨u, hu, v, hv, rfl⟩ := mem_seq.mp hw
    exact fun c hc => (List.mem_append.mp hc).elim (ihr h.1 hu c) (ihs h.2 hv c)
  | star r ih =>
    obtain ⟨words, rfl, hall⟩ := mem_star_iff.mp hw
    intro c hc
    obtain ⟨u, hu, hcu⟩ := List.mem_flatten.mp hc
    exact ih h (hall u hu) c hcu

theorem within_between {q : α → Prop} {r : Regex α} (h : r.Within q) (m n : ℕ) :
    (r.between m n).Within q := by
  have htimes (k : ℕ) : (r.times k).Within q := by
    induction k with
    | zero => exact True.intro
    | succ k ih => exact ⟨h, ih⟩
  have hupTo (k : ℕ) : (r.upTo k).Within q := by
    induction k with
    | zero => exact True.intro
    | succ k ih => exact ⟨True.intro, h, ih⟩
  exact ⟨htimes m, hupTo (n - m)⟩

end Regex

end LibRustdesk
