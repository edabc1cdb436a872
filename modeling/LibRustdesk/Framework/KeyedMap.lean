import Mathlib.Data.List.AList

/-!
# Maps that are gone through

A hash map whose entries are also listed, as an association list without repeated keys. Over the
lookups of `AList` this adds the two loops over a whole map that stateful code is full of:

* `KeyedMap.mapValues` — `for v in map.values_mut()`, an update of every value in place;
* `KeyedMap.insertAll` — the entries of one map moved into another, those that move winning.

`KeyedMap.lookup_mapValues` and `KeyedMap.lookup_insertAll` say what either leaves at a key, and
`KeyedMap.lookup_retain`, `KeyedMap.lookup_extend` the same of `retain` and `extend`. Two maps are
equal (`KeyedMap.equal`) when one is as long as the other and has its values under its keys, in
whatever order: `KeyedMap.lookup_eq_of_equal`.
-/

namespace LibRustdesk

/-- A finite map from `κ` to `ν` with its entries in some order. -/
abbrev KeyedMap (κ ν : Type) := AList fun _ : κ => ν

namespace KeyedMap

variable {κ ν : Type}

/-- Every value replaced by what `f` makes of it under its key. -/
def mapValues (f : κ → ν → ν) (m : KeyedMap κ ν) : KeyedMap κ ν :=
  ⟨m.entries.map (Sigma.map id f), m.nodupKeys.map₂ f m.entries⟩

def retain (p : κ → ν → Bool) (m : KeyedMap κ ν) : KeyedMap κ ν :=
  ⟨m.entries.filter fun e => p e.1 e.2, m.nodupKeys.sublist List.filter_sublist⟩

section Lookup

variable [DecidableEq κ]

/-- `HashMap::extend`: every entry of `s` over those of `m`. -/
def extend (m s : KeyedMap κ ν) : KeyedMap κ ν := s ∪ m

/-- `HashMap::eq`. -/
def equal [DecidableEq ν] (m m' : KeyedMap κ ν) : Bool :=
  m.entries.length == m'.entries.length && m.entries.all fun e => m'.lookup e.1 == some e.2

/-- The listed values inserted in turn, each under the key `key` gives it. -/
def insertAll (key : ν → κ) (m : KeyedMap κ ν) (l : List (Σ _ : κ, ν)) : KeyedMap κ ν :=
  l.foldl (fun m e => AList.insert (key e.2) e.2 m) m

@[simp] theorem lookup_mapValues (f : κ → ν → ν) (m : KeyedMap κ ν) (k : κ) :
    (mapValues f m).lookup k = (m.lookup k).map (f k) :=
  List.dlookup_map₂ k

theorem lookup_insertAll {key : ν → κ} {l : List (Σ _ : κ, ν)} (hnodup : l.NodupKeys)
    (hkey : ∀ e ∈ l, key e.2 = e.1) (m : KeyedMap κ ν) (k : κ) :
    (insertAll key m l).lookup k = (l.dlookup k).or (m.lookup k) := by
  induction l generalizing m with
  | nil => rfl
  | cons e l ih =>
    obtain ⟨hnot, hrest⟩ := List.nodupKeys_cons.mp hnodup
    obtain ⟨hown, hkeys⟩ := List.forall_mem_cons.mp hkey
    have hfold : insertAll key m (e :: l) = insertAll key (AList.insert (key e.2) e.2 m) l := rfl
    rw [hfold, ih hrest hkeys, hown]
    by_cases hk : k = e.1
    · -- the rest of the list has nothing under the key of its head
      subst hk
      rw [List.dlookup_eq_none.mpr hnot, AList.lookup_insert]
      exact (congrArg (Option.or · _) (List.dlookup_cons_eq l e.1 e.2)).symm
    · rw [AList.lookup_insert_ne hk, List.dlookup_cons_ne l e hk]

@[simp] theorem lookup_retain (p : κ → ν → Bool) (m : KeyedMap κ ν) (k : κ) :
    (retain p m).lookup k = (m.lookup k).filter (p k) := by
  ext v
  rw [Option.filter_eq_some_iff, ← Option.mem_def, AList.mem_lookup_iff, ← Option.mem_def,
    AList.mem_lookup_iff]
  exact List.mem_filter

@[simp] theorem lookup_extend (m s : KeyedMap κ ν) (k : κ) :
    (extend m s).lookup k = (s.lookup k).or (m.lookup k) := by
  unfold extend
  by_cases hk : k ∈ s
  · rw [AList.lookup_union_left hk]
    obtain ⟨v, hv⟩ := Option.isSome_iff_exists.mp (AList.lookup_isSome.mpr hk)
    rw [hv]
    rfl
  · rw [AList.lookup_union_right hk, AList.lookup_eq_none.mpr hk]
    rfl

theorem lookup_eq_of_equal [DecidableEq ν] {m m' : KeyedMap κ ν} (h : equal m m' = true) (k : κ) :
    m.lookup k = m'.lookup k := by
  obtain ⟨hlength, hall⟩ := (Bool.and_eq_true _ _).mp h
  -- the entries of `m` are all among those of `m'`, of which there are no more
  have hsub : m.entries ⊆ m'.entries := by
    intro e he
    have hlookup := List.all_eq_true.mp hall e he
    exact AList.mem_lookup_iff.mp (beq_iff_eq.mp hlookup)
  have hle : m'.entries.length ≤ m.entries.length := Nat.le_of_eq (beq_iff_eq.mp hlength).symm
  have hperm := (List.subperm_of_subset m.nodupKeys.nodup hsub).perm_of_length_le hle
  exact AList.perm_lookup hperm

theorem lookup_insert_ne_none {m : KeyedMap κ ν} {k j : κ} {v : ν} :
    (m.insert j v).lookup k ≠ none ↔ j = k ∨ m.lookup k ≠ none := by
  by_cases hk : k = j
  · subst hk
    simp
  · rw [AList.lookup_insert_ne hk]
    exact ⟨Or.inr, fun h => h.resolve_left (Ne.symm hk)⟩

theorem lookup_erase_eq_some {m : KeyedMap κ ν} {k j : κ} {v : ν} :
    (m.erase j).lookup k = some v ↔ k ≠ j ∧ m.lookup k = some v := by
  by_cases hk : k = j
  · subst hk
    simp
  · rw [AList.lookup_erase_ne hk]
    exact ⟨fun h => ⟨hk, h⟩, And.right⟩

theorem lookup_erase_ne_none {m : KeyedMap κ ν} {k j : κ} :
    (m.erase j).lookup k ≠ none ↔ k ≠ j ∧ m.lookup k ≠ none := by
  simp only [Option.ne_none_iff_exists', lookup_erase_eq_some, exists_and_left]

theorem lookup_eq_some_iff {m : KeyedMap κ ν} {k : κ} {v : ν} :
    m.lookup k = some v ↔ ⟨k, v⟩ ∈ m.entries :=
  AList.mem_lookup_iff

end Lookup

end KeyedMap

end LibRustdesk
