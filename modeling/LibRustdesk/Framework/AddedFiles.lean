import LibRustdesk.Framework.FileSystem

/-!
# Files that are added

What a program has done to a file system whose own files it leaves alone: `Adds fs₀ es fs` says that
`fs` is `fs₀` and, for each name and content in `es`, a new file of that content under that name and
no other.

The rules are those of a program that writes one file after another. Each takes the file being
written at the head of the list.

* `Adds.create` — a name that is free gets an empty file.
* `Adds.writeAt` — a handle at the end of the file appends to it.
* `Adds.rename` — the file moves to a name that is free.

Nothing is said of `File::create` or of a rename on a name that is taken: there a file of `fs₀` may
be lost.
-/

namespace LibRustdesk.FileSystem

open LittleEndian

variable {κ : Type*}

/-- `fs` is `fs₀` with the files of `es`, each under its name alone. -/
structure Adds (fs₀ : FileSystem κ) (es : List (κ × Bytes)) (fs : FileSystem κ) : Prop where
  fresh : fs₀.fresh ≤ fs.fresh
  new : ∀ e ∈ es, fs₀.dir e.1 = none
  distinct : (es.map Prod.fst).Nodup
  content : ∀ e ∈ es, fs.content e.1 = some e.2
  sole : ∀ e ∈ es, ∀ k i, fs.dir e.1 = some i → fs.dir k = some i → k = e.1
  only : ∀ k, k ∉ es.map Prod.fst → fs.dir k = fs₀.dir k
  kept : ∀ k i, fs₀.dir k = some i → (fs.node i).data = (fs₀.node i).data

namespace Adds

variable {fs₀ fs : FileSystem κ} {es : List (κ × Bytes)} {k k' : κ} {c : Bytes}

theorem refl (fs₀ : FileSystem κ) : Adds fs₀ [] fs₀ where
  fresh := Nat.le_refl _
  new e he := absurd he List.not_mem_nil
  distinct := List.nodup_nil
  content e he := absurd he List.not_mem_nil
  sole e he := absurd he List.not_mem_nil
  only _ _ := rfl
  kept _ _ _ := rfl

/-! ### Names -/

theorem exists_dir (h : Adds fs₀ es fs) {e : κ × Bytes} (he : e ∈ es) :
    ∃ i, fs.dir e.1 = some i ∧ (fs.node i).data = e.2 := by
  obtain ⟨i, hi, hdata⟩ := Option.map_eq_some_iff.mp (h.content e he)
  exact ⟨i, hi, hdata⟩

theorem dir_isSome (h : Adds fs₀ es fs) (hk : k ∈ es.map Prod.fst) : (fs.dir k).isSome = true := by
  obtain ⟨e, he, rfl⟩ := List.mem_map.mp hk
  obtain ⟨i, hi, -⟩ := h.exists_dir he
  rw [hi]
  rfl

theorem not_mem_of_free (h : Adds fs₀ es fs) (hfree : fs.dir k = none) : k ∉ es.map Prod.fst := by
  intro hk
  have hsome := h.dir_isSome hk
  rw [hfree] at hsome
  cases hsome

theorem not_mem_of_old (h : Adds fs₀ es fs) {i : ℕ} (hk : fs₀.dir k = some i) :
    k ∉ es.map Prod.fst := by
  intro hmem
  obtain ⟨e, he, rfl⟩ := List.mem_map.mp hmem
  rw [h.new e he] at hk
  cases hk

theorem ne_head (h : Adds fs₀ ((k, c) :: es) fs) {e : κ × Bytes} (he : e ∈ es) : e.1 ≠ k := by
  intro heq
  have hmem : e.1 ∈ es.map Prod.fst := List.mem_map_of_mem he
  rw [heq] at hmem
  exact (List.nodup_cons.mp h.distinct).1 hmem

theorem has_iff (h : Adds fs₀ es fs) :
    fs.has k = true ↔ fs₀.has k = true ∨ k ∈ es.map Prod.fst := by
  unfold has
  by_cases hk : k ∈ es.map Prod.fst
  · exact iff_of_true (h.dir_isSome hk) (Or.inr hk)
  · rw [h.only k hk]
    exact (or_iff_left hk).symm

theorem content_old (h : Adds fs₀ es fs) (hk : fs₀.has k = true) :
    fs.content k = fs₀.content k := by
  obtain ⟨i, hi⟩ := Option.isSome_iff_exists.mp hk
  exact content_congr (h.only k (h.not_mem_of_old hi)) fun j hj => h.kept k j hj

/-! ### The rules -/

variable [DecidableEq κ]

theorem create (h : Adds fs₀ es fs) (hfree : fs.dir k = none) :
    Adds fs₀ ((k, []) :: es) (fs.create k).1 := by
  have hinode : (fs.create k).2.inode = fs.fresh := by
    rcases fs.create_inode k with hold | ⟨-, hnew⟩
    · rw [hfree] at hold
      cases hold
    · exact hnew
  have hk := h.not_mem_of_free hfree
  -- no name leads to the file created but its own
  have hother : ∀ j i, fs.dir j = some i → i ≠ (fs.create k).2.inode := by
    intro j i hi heq
    have hlt := fs.inUse j i hi
    omega
  have hne : ∀ e ∈ es, e.1 ≠ k := fun e he heq => hk (heq ▸ List.mem_map_of_mem he)
  constructor
  case fresh => exact Nat.le_trans h.fresh (fs.fresh_le_create k)
  case new =>
    refine List.forall_mem_cons.mpr ⟨?_, h.new⟩
    rw [← h.only k hk]
    exact hfree
  case distinct => exact List.nodup_cons.mpr ⟨hk, h.distinct⟩
  case content =>
    refine List.forall_mem_cons.mpr ⟨?_, fun e he => ?_⟩
    · unfold FileSystem.content
      rw [dir_create_self, Option.map_some, node_create_self]
    · rw [← h.content e he]
      refine content_congr (fs.dir_create_of_ne k e.1 (hne e he)) fun i hi => ?_
      rw [fs.node_create_of_ne k (hother e.1 i hi)]
  case sole =>
    refine List.forall_mem_cons.mpr ⟨fun j i hki hji => ?_, fun e he j i hei hji => ?_⟩
    · by_contra hjk
      rw [dir_create_self] at hki
      obtain rfl := Option.some.inj hki
      rw [fs.dir_create_of_ne k j hjk] at hji
      exact hother j _ hji rfl
    · rw [fs.dir_create_of_ne k e.1 (hne e he)] at hei
      by_cases hjk : j = k
      · subst hjk
        rw [dir_create_self] at hji
        exact absurd (Option.some.inj hji).symm (hother e.1 i hei)
      · rw [fs.dir_create_of_ne k j hjk] at hji
        exact h.sole e he j i hei hji
  case only =>
    intro j hj
    rw [List.map_cons, List.mem_cons, not_or] at hj
    rw [fs.dir_create_of_ne k j hj.1]
    exact h.only j hj.2
  case kept =>
    intro j i hi
    have hold : i ≠ (fs.create k).2.inode := by
      have hlt := fs₀.inUse j i hi
      have hle := h.fresh
      omega
    rw [fs.node_create_of_ne k hold]
    exact h.kept j i hi

omit [DecidableEq κ] in
theorem writeAt (h : Adds fs₀ ((k, c) :: es) fs) {f : FileHandle} (hk : fs.dir k = some f.inode)
    (hpos : f.pos = c.length) (bytes : Bytes) :
    Adds fs₀ ((k, c ++ bytes) :: es) (fs.writeAt f bytes).1 := by
  obtain ⟨hhead, htail⟩ := List.forall_mem_cons.mp h.sole
  obtain ⟨hcontent, hcontents⟩ := List.forall_mem_cons.mp h.content
  obtain ⟨hnew, hnews⟩ := List.forall_mem_cons.mp h.new
  constructor
  case fresh => exact h.fresh
  case new => exact List.forall_mem_cons.mpr ⟨hnew, hnews⟩
  case distinct => exact h.distinct
  case content =>
    refine List.forall_mem_cons.mpr ⟨?_, fun e he => ?_⟩
    · have hdata : (fs.node f.inode).data = c := by
        unfold FileSystem.content at hcontent
        rw [hk, Option.map_some] at hcontent
        exact Option.some.inj hcontent
      unfold FileSystem.content
      rw [dir_writeAt, hk, Option.map_some, node_writeAt_self, hdata, hpos, splice_length]
    · rw [← hcontents e he]
      refine content_congr rfl fun i hi => ?_
      rw [fs.node_writeAt_of_ne f bytes]
      rintro rfl
      exact h.ne_head he (hhead e.1 _ hk hi)
  case sole => exact List.forall_mem_cons.mpr ⟨hhead, htail⟩
  case only => exact h.only
  case kept =>
    intro j i hi
    rw [fs.node_writeAt_of_ne f bytes]
    · exact h.kept j i hi
    · rintro rfl
      -- a name of before does not lead to the new file
      have hj : fs.dir j = some f.inode := (h.only j (h.not_mem_of_old hi)).trans hi
      have hsame : j = k := hhead j _ hk hj
      rw [hsame, hnew] at hi
      cases hi

theorem dir_rename_free {fs : FileSystem κ} {i : ℕ} (hk : fs.dir k = some i)
    (hfree : fs.dir k' = none) (j : κ) :
    (fs.rename k k').dir j = if j = k then none else if j = k' then some i else fs.dir j := by
  obtain ⟨-, hnone | hsame⟩ | ⟨i', hi', -, heq⟩ := fs.rename_cases k k'
  · rw [hk] at hnone
    cases hnone
  · rw [hk, hfree] at hsame
    cases hsame
  · obtain rfl := Option.some.inj (hk.symm.trans hi')
    rw [heq]
    show ((fs.dir.insert k' i).remove k) j = _
    rw [Table.remove_apply, Table.insert_apply]

theorem rename (h : Adds fs₀ ((k, c) :: es) fs) (hfree : fs.dir k' = none) :
    Adds fs₀ ((k', c) :: es) (fs.rename k k') := by
  obtain ⟨i, hk, hdata⟩ := h.exists_dir List.mem_cons_self
  have hdir := dir_rename_free hk hfree
  have hkk : k' ≠ k := by
    rintro rfl
    rw [hfree] at hk
    cases hk
  have hk' := h.not_mem_of_free hfree
  rw [List.map_cons, List.mem_cons, not_or] at hk'
  obtain ⟨hhead, htail⟩ := List.forall_mem_cons.mp h.sole
  obtain ⟨-, hcontents⟩ := List.forall_mem_cons.mp h.content
  obtain ⟨hnew, hnews⟩ := List.forall_mem_cons.mp h.new
  have hes : ∀ e ∈ es, (fs.rename k k').dir e.1 = fs.dir e.1 := by
    intro e he
    have hne' : e.1 ≠ k' := fun heq => hk'.2 (heq ▸ List.mem_map_of_mem he)
    rw [hdir, if_neg (h.ne_head he), if_neg hne']
  constructor
  case fresh =>
    obtain ⟨heq, -⟩ | ⟨i', hi', -, heq⟩ := fs.rename_cases k k' <;> rw [heq] <;> exact h.fresh
  case new =>
    refine List.forall_mem_cons.mpr ⟨?_, hnews⟩
    rw [← h.only k' (h.not_mem_of_free hfree)]
    exact hfree
  case distinct => exact List.nodup_cons.mpr ⟨hk'.2, (List.nodup_cons.mp h.distinct).2⟩
  case content =>
    refine List.forall_mem_cons.mpr ⟨?_, fun e he => ?_⟩
    · unfold FileSystem.content
      rw [hdir, if_neg hkk, if_pos rfl, Option.map_some, node_rename, hdata]
    · rw [← hcontents e he]
      exact content_congr (hes e he) fun j _ => by rw [node_rename]
  case sole =>
    refine List.forall_mem_cons.mpr ⟨fun j i' hi' hj => ?_, fun e he j i' hi' hj => ?_⟩
    · rw [hdir, if_neg hkk, if_pos rfl] at hi'
      obtain rfl := Option.some.inj hi'
      rw [hdir] at hj
      split at hj
      · cases hj
      split at hj
      · assumption
      · next hjk _ => exact absurd (hhead j _ hk hj) hjk
    · rw [hes e he] at hi'
      rw [hdir] at hj
      split at hj
      · cases hj
      split at hj
      · obtain rfl := Option.some.inj hj
        exact absurd (htail e he k _ hi' hk).symm (h.ne_head he)
      · exact htail e he j i' hi' hj
  case only =>
    intro j hj
    rw [List.map_cons, List.mem_cons, not_or] at hj
    rw [hdir, if_neg hj.1]
    split
    · next hjk => rw [hjk, hnew]
    · next hjk =>
      refine h.only j ?_
      rw [List.map_cons, List.mem_cons, not_or]
      exact ⟨hjk, hj.2⟩
  case kept =>
    intro j i' hi'
    rw [node_rename]
    exact h.kept j i' hi'

end Adds

end LibRustdesk.FileSystem
