import LibRustdesk.Framework.Indexed
import Mathlib.Data.List.Nodup

/-!
# Trees as lists of nodes

A tree kept as a list: its nodes are numbered from 1, each has the number of its parent and the
numbers of its children. It grows at the end, one node at a time, and a new node is written into the
children of its parent.

* `Linked` — parents come before, and the children of a node are those that name it as parent.
* `Linked.append` — one more node keeps this.
* `Linked.count_children` — a node is once among the children of its parent, and nowhere else.
* `Walk` — the names on the way down to a node; `Linked.walk_iff` takes the last one off.
-/

namespace LibRustdesk.ChildLists

variable {α β : Type*}

/-- Parents come before their children, and both know of each other. -/
structure Linked (parentOf : α → Option ℕ) (childrenOf : α → List ℕ) (l : List α) : Prop where
  before : ∀ (k : ℕ) a p, l[k]? = some a → parentOf a = some p → 1 ≤ p ∧ p ≤ k
  nodup : ∀ (k : ℕ) a, l[k]? = some a → (childrenOf a).Nodup
  mem_children : ∀ (k : ℕ) a, l[k]? = some a → ∀ c, c ∈ childrenOf a ↔
    ∃ (i : ℕ) (b : α), c = i + 1 ∧ l[i]? = some b ∧ parentOf b = some (k + 1)

/-- The names of the nodes on the way from the first one to the one of this number. -/
inductive Walk (childrenOf : α → List ℕ) (nameOf : α → β) (l : List α) : List β → ℕ → Prop
  | root : Walk childrenOf nameOf l [] 1
  | down {names : List β} {p c : ℕ} {parent child : α} : Walk childrenOf nameOf l names p →
      l[p - 1]? = some parent → c ∈ childrenOf parent → l[c - 1]? = some child →
      Walk childrenOf nameOf l (names ++ [nameOf child]) c

variable {parentOf : α → Option ℕ} {childrenOf : α → List ℕ} {nameOf : α → β} {l : List α}

namespace Linked

theorem singleton {a : α} (hparent : parentOf a = none) (hchildren : childrenOf a = []) :
    Linked parentOf childrenOf [a] := by
  have hsole : ∀ (k : ℕ) b, [a][k]? = some b → b = a := fun k b hb =>
    List.mem_singleton.mp (List.mem_of_getElem? hb)
  constructor
  · intro k b p hb hp
    rw [hsole k b hb, hparent] at hp
    cases hp
  · intro k b hb
    rw [hsole k b hb, hchildren]
    exact List.nodup_nil
  · intro k b hb c
    rw [hsole k b hb, hchildren]
    constructor
    · intro hc
      cases hc
    · rintro ⟨i, b', -, hb', hp⟩
      rw [hsole i b' hb', hparent] at hp
      cases hp

theorem getElem?_grown {f : α → α} {i k : ℕ} {node a : α} :
    (l.modify i f ++ [node])[k]? = some a ↔
      (∃ old, l[k]? = some old ∧ a = if k = i then f old else old) ∨
        (k = l.length ∧ a = node) := by
  constructor
  · intro h
    rcases getElem?_concat_cases h with h | ⟨hk, ha⟩
    · rw [List.getElem?_modify] at h
      obtain ⟨old, hold, ha⟩ := Option.map_eq_some_iff.mp h
      refine Or.inl ⟨old, hold, ?_⟩
      rw [← ha]
      by_cases hik : i = k
      · rw [if_pos hik, if_pos hik.symm]
      · rw [if_neg hik, if_neg (Ne.symm hik)]
    · rw [List.length_modify] at hk
      exact Or.inr ⟨hk, ha⟩
  · rintro (⟨old, hold, rfl⟩ | ⟨rfl, rfl⟩)
    · have hlt : k < l.length := (List.getElem?_eq_some_iff.mp hold).1
      rw [List.getElem?_append_left (by rw [List.length_modify]; exact hlt),
        List.getElem?_modify, hold, Option.map_eq_map, Option.map_some]
      by_cases hik : i = k
      · rw [if_pos hik, if_pos hik.symm]
      · rw [if_neg hik, if_neg (Ne.symm hik)]
    · rw [← List.length_modify (f := f) (i := i), List.getElem?_concat_length]

theorem append (addChild : α → ℕ → α)
    (hadd : ∀ a c, childrenOf (addChild a c) = childrenOf a ++ [c])
    (hsame : ∀ a c, parentOf (addChild a c) = parentOf a) (h : Linked parentOf childrenOf l)
    {p : ℕ} {node : α} (hp : 1 ≤ p) (hlt : p ≤ l.length) (hparent : parentOf node = some p)
    (hchildren : childrenOf node = []) :
    Linked parentOf childrenOf (l.modify (p - 1) (addChild · (l.length + 1)) ++ [node]) := by
  -- the parents of the nodes that were there are as they were
  have hkept (k : ℕ) (old : α) :
      parentOf (if k = p - 1 then addChild old (l.length + 1) else old) = parentOf old := by
    split
    · exact hsame old _
    · rfl
  have hnew (q : ℕ) (c : ℕ) : (∃ i b, c = i + 1 ∧
      (l.modify (p - 1) (addChild · (l.length + 1)) ++ [node])[i]? = some b ∧
        parentOf b = some q) ↔
      (∃ (i : ℕ) (b : α), c = i + 1 ∧ l[i]? = some b ∧ parentOf b = some q) ∨
        (c = l.length + 1 ∧ q = p) := by
    constructor
    · rintro ⟨i, b, hc, hb, hq⟩
      rcases getElem?_grown.mp hb with ⟨old, hold, rfl⟩ | ⟨rfl, rfl⟩
      · rw [hkept] at hq
        exact Or.inl ⟨i, old, hc, hold, hq⟩
      · rw [hparent] at hq
        exact Or.inr ⟨hc, (Option.some.inj hq).symm⟩
    · rintro (⟨i, old, hc, hold, hq⟩ | ⟨rfl, rfl⟩)
      · exact ⟨i, _, hc, getElem?_grown.mpr (Or.inl ⟨old, hold, rfl⟩), (hkept i old).trans hq⟩
      · exact ⟨l.length, node, rfl, getElem?_grown.mpr (Or.inr ⟨rfl, rfl⟩), hparent⟩
  -- the new number is not among the children of any node that was there
  have hfresh (k : ℕ) (old : α) (hold : l[k]? = some old) : l.length + 1 ∉ childrenOf old := by
    intro hmem
    obtain ⟨i, b, hc, hb, -⟩ := (h.mem_children k old hold _).mp hmem
    have hlt := (List.getElem?_eq_some_iff.mp hb).1
    omega
  constructor
  · intro k a q ha hq
    rcases getElem?_grown.mp ha with ⟨old, hold, rfl⟩ | ⟨rfl, rfl⟩
    · rw [hkept] at hq
      exact h.before k old q hold hq
    · rw [hparent] at hq
      obtain rfl := Option.some.inj hq
      exact ⟨hp, hlt⟩
  · intro k a ha
    rcases getElem?_grown.mp ha with ⟨old, hold, rfl⟩ | ⟨rfl, rfl⟩
    · have hnodup := h.nodup k old hold
      split
      · rw [hadd]
        rw [← List.concat_eq_append]
        exact (List.nodup_concat _ _).mpr ⟨hfresh k old hold, hnodup⟩
      · exact hnodup
    · rw [hchildren]
      exact List.nodup_nil
  · intro k a ha c
    rw [hnew]
    rcases getElem?_grown.mp ha with ⟨old, hold, rfl⟩ | ⟨rfl, rfl⟩
    · split
      · next hk =>
        have hkp : k + 1 = p := by omega
        rw [hadd, List.mem_append, List.mem_singleton, h.mem_children k old hold, hkp]
        simp only [and_true]
      · next hk =>
        have hkp : k + 1 ≠ p := by omega
        rw [h.mem_children k old hold]
        simp only [hkp, and_false, or_false]
    · -- nothing has the new node for its parent yet
      rw [hchildren]
      constructor
      · intro hc
        cases hc
      · rintro (⟨i, b, -, hb, hq⟩ | ⟨-, hq⟩)
        · have hle := (h.before i b _ hb hq).2
          have hi := (List.getElem?_eq_some_iff.mp hb).1
          omega
        · omega

theorem count_children (h : Linked parentOf childrenOf l) {k : ℕ} {a : α} (ha : l[k]? = some a)
    {p : ℕ} (hp : parentOf a = some p) {j : ℕ} {b : α} (hb : l[j]? = some b) :
    (childrenOf b).count (k + 1) = if j + 1 = p then 1 else 0 := by
  split
  · next hjp =>
    have hmem : k + 1 ∈ childrenOf b := (h.mem_children j b hb _).mpr ⟨k, a, rfl, ha, hjp ▸ hp⟩
    exact List.count_eq_one_of_mem (h.nodup j b hb) hmem
  · next hjp =>
    refine List.count_eq_zero.mpr fun hmem => hjp ?_
    obtain ⟨i, b', hi, hb', hq⟩ := (h.mem_children j b hb _).mp hmem
    obtain rfl : k = i := by omega
    obtain rfl := Option.some.inj (ha.symm.trans hb')
    exact Option.some.inj (hq.symm.trans hp)

theorem exists_parent (h : Linked parentOf childrenOf l) {k : ℕ} {a : α} (ha : l[k]? = some a)
    {p : ℕ} (hp : parentOf a = some p) : ∃ parent, l[p - 1]? = some parent := by
  obtain ⟨hpos, hle⟩ := h.before k a p ha hp
  have hk := (List.getElem?_eq_some_iff.mp ha).1
  exact ⟨_, List.getElem?_eq_getElem (by omega)⟩

theorem exists_child (h : Linked parentOf childrenOf l) {k : ℕ} {a : α} (ha : l[k]? = some a)
    {c : ℕ} (hc : c ∈ childrenOf a) : k + 1 < c ∧ ∃ child, l[c - 1]? = some child := by
  obtain ⟨i, b, rfl, hb, hp⟩ := (h.mem_children k a ha c).mp hc
  have hle := (h.before i b _ hb hp).2
  exact ⟨by omega, b, hb⟩

theorem one_le_of_walk (h : Linked parentOf childrenOf l) {names : List β} {n : ℕ}
    (hwalk : Walk childrenOf nameOf l names n) : 1 ≤ n := by
  cases hwalk with
  | root => exact Nat.le_refl 1
  | down _ hparent hmem _ =>
    have hlt := (h.exists_child hparent hmem).1
    omega

theorem walk_iff (h : Linked parentOf childrenOf l) {k : ℕ} {a : α} (ha : l[k]? = some a) {p : ℕ}
    (hp : parentOf a = some p) {names : List β} :
    Walk childrenOf nameOf l names (k + 1) ↔
      ∃ init, names = init ++ [nameOf a] ∧ Walk childrenOf nameOf l init p := by
  constructor
  · intro hwalk
    cases hwalk with
    | root => exact absurd (h.before 0 a p ha hp) (by omega)
    | @down init q _ parent child hinit hparent hmem hchild =>
      obtain rfl : a = child := Option.some.inj (ha.symm.trans hchild)
      -- the walk came to a node with this child, and that is the parent
      obtain ⟨i, b, hi, hb, hq⟩ := (h.mem_children _ parent hparent _).mp hmem
      obtain rfl : k = i := by omega
      obtain rfl := Option.some.inj (ha.symm.trans hb)
      have hpq : p = q - 1 + 1 := Option.some.inj (hp.symm.trans hq)
      rw [Nat.sub_add_cancel (h.one_le_of_walk hinit)] at hpq
      exact ⟨init, rfl, hpq ▸ hinit⟩
  · rintro ⟨init, rfl, hinit⟩
    obtain ⟨parent, hparent⟩ := h.exists_parent ha hp
    have hpos := (h.before k a p ha hp).1
    refine Walk.down hinit hparent ?_ ha
    refine (h.mem_children _ parent hparent _).mpr ⟨k, a, rfl, ha, ?_⟩
    rw [hp, Nat.sub_add_cancel hpos]

theorem walk_root (h : Linked parentOf childrenOf l) {a : α} (ha : l[0]? = some a)
    (hp : parentOf a = none) {names : List β} :
    Walk childrenOf nameOf l names 1 ↔ names = [] := by
  constructor
  · intro hwalk
    cases hwalk with
    | root => rfl
    | down _ hparent hmem _ =>
      obtain ⟨i, b, hi, hb, hq⟩ := (h.mem_children _ _ hparent _).mp hmem
      obtain rfl : i = 0 := by omega
      obtain rfl := Option.some.inj (ha.symm.trans hb)
      rw [hp] at hq
      cases hq
  · rintro rfl
    exact Walk.root

end Linked

end LibRustdesk.ChildLists
