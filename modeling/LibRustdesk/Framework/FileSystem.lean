import LibRustdesk.Framework.LittleEndian
import LibRustdesk.Framework.Table

/-!
# A file system

Names lead to files and a file outlives its name: a handle keeps writing to the file it was opened
on after the name has been given to another file, or removed. So a `FileSystem` is a directory
from names to file numbers and a table from file numbers to files, and a `FileHandle` holds a
number and a position. Two names may lead to one file. Numbers are never reused (`inUse`).

The operations are those of `std::fs` and `File` when they succeed; the one that renames does
nothing when there is nothing to rename. `mtime` is what `setMtime` recorded last: the updates the
kernel makes on its own are left out. Directories are not files here; a name that belongs to one
is a reason for an operation to fail, and failures are decided by whoever calls these functions.

* `LinkFree` — among given names no two lead to the same file.
* `Spares` — a change that keeps a set of names free of links and some of these names as they
  are. An operation on another of the names is one, and they compose (`Spares.trans`).
-/

namespace LibRustdesk

open LittleEndian

structure FileNode where
  data : Bytes
  mtime : Int64

structure FileHandle where
  inode : ℕ
  pos : ℕ
  writable : Bool
  deriving DecidableEq

structure FileSystem (κ : Type*) where
  dir : Table κ ℕ
  node : ℕ → FileNode
  fresh : ℕ
  inUse : ∀ k i, dir k = some i → i < fresh

/-- The data with `bytes` at `pos`; a gap before them is zeros. -/
def splice (data : Bytes) (pos : ℕ) (bytes : Bytes) : Bytes :=
  data.take pos ++ List.replicate (pos - data.length) 0 ++ bytes ++ data.drop (pos + bytes.length)

theorem splice_length (data bytes : Bytes) : splice data data.length bytes = data ++ bytes := by
  simp [splice]

namespace FileSystem

variable {κ : Type*}

def empty : FileSystem κ := ⟨Table.empty, fun _ => ⟨[], 0⟩, 0, fun _ _ h => by simp at h⟩

/-- `Path::exists`, for a name that is not a directory. -/
def has (fs : FileSystem κ) (k : κ) : Bool := (fs.dir k).isSome

def content (fs : FileSystem κ) (k : κ) : Option Bytes :=
  (fs.dir k).map fun i => (fs.node i).data

def setNode (fs : FileSystem κ) (i : ℕ) (n : FileNode) : FileSystem κ :=
  { fs with node := Function.update fs.node i n }

/-- `File::open`. -/
def openRead (fs : FileSystem κ) (k : κ) : Option FileHandle :=
  (fs.dir k).map fun i => ⟨i, 0, false⟩

/-- A read of at most `n` bytes. -/
def readAt (fs : FileSystem κ) (h : FileHandle) (n : ℕ) : Bytes × FileHandle :=
  let got := ((fs.node h.inode).data.drop h.pos).take n
  (got, { h with pos := h.pos + got.length })

/-- `write_all`. -/
def writeAt (fs : FileSystem κ) (h : FileHandle) (bytes : Bytes) : FileSystem κ × FileHandle :=
  let n := fs.node h.inode
  (fs.setNode h.inode { n with data := splice n.data h.pos bytes },
    { h with pos := h.pos + bytes.length })

/-- `filetime::set_file_mtime`. -/
def setMtime (fs : FileSystem κ) (k : κ) (mtime : Int64) : FileSystem κ :=
  match fs.dir k with
  | some i => fs.setNode i { fs.node i with mtime := mtime }
  | none => fs

/-! ### Updates of one file -/

section Nodes

variable (fs : FileSystem κ) (k j : κ)

@[simp] theorem dir_setNode (i : ℕ) (n : FileNode) : (fs.setNode i n).dir = fs.dir := rfl

@[simp] theorem dir_writeAt (h : FileHandle) (bytes : Bytes) :
    (fs.writeAt h bytes).1.dir = fs.dir := rfl

@[simp] theorem dir_setMtime (mtime : Int64) : (fs.setMtime k mtime).dir = fs.dir := by
  unfold setMtime
  split <;> rfl

theorem node_setNode_of_ne {i i' : ℕ} (n : FileNode) (h : i' ≠ i) :
    (fs.setNode i n).node i' = fs.node i' := Function.update_of_ne h _ _

theorem node_setNode_self (i : ℕ) (n : FileNode) : (fs.setNode i n).node i = n :=
  Function.update_self _ _ _

theorem node_writeAt_of_ne (h : FileHandle) (bytes : Bytes) {i : ℕ} (hi : i ≠ h.inode) :
    (fs.writeAt h bytes).1.node i = fs.node i := fs.node_setNode_of_ne _ hi

theorem node_writeAt_self (h : FileHandle) (bytes : Bytes) :
    ((fs.writeAt h bytes).1.node h.inode).data =
      splice (fs.node h.inode).data h.pos bytes := by
  show ((fs.setNode _ _).node h.inode).data = _
  rw [node_setNode_self]

@[simp] theorem data_setMtime (mtime : Int64) (i : ℕ) :
    ((fs.setMtime k mtime).node i).data = (fs.node i).data := by
  unfold setMtime
  split
  · next i' _ =>
    by_cases h : i = i'
    · subst h
      rw [node_setNode_self]
    · rw [node_setNode_of_ne _ _ h]
  · rfl

@[simp] theorem content_setMtime (mtime : Int64) :
    (fs.setMtime k mtime).content j = fs.content j := by
  unfold content
  rw [dir_setMtime]
  cases fs.dir j with
  | none => rfl
  | some i => rw [Option.map_some, Option.map_some, data_setMtime]

theorem content_congr {fs fs' : FileSystem κ} {k : κ} (hdir : fs'.dir k = fs.dir k)
    (hnode : ∀ i, fs.dir k = some i → (fs'.node i).data = (fs.node i).data) :
    fs'.content k = fs.content k := by
  unfold content
  rw [hdir]
  cases h : fs.dir k with
  | none => rfl
  | some i => rw [Option.map_some, Option.map_some, hnode i h]

end Nodes

/-! ### Names without links -/

/-- No two of the names in `N` lead to one file. -/
def LinkFree (fs : FileSystem κ) (N : κ → Prop) : Prop :=
  ∀ k j i, N k → N j → fs.dir k = some i → fs.dir j = some i → k = j

/-- From `fs` to `fs'` the names in `N` stay free of links, and those in `F` lead where they led,
to the content they had. -/
structure Spares (N F : κ → Prop) (fs fs' : FileSystem κ) : Prop where
  linkFree : fs.LinkFree N → fs'.LinkFree N
  dir : ∀ k, F k → fs'.dir k = fs.dir k
  content : fs.LinkFree N → ∀ k, F k → fs'.content k = fs.content k

namespace Spares

variable {fs fs' fs'' : FileSystem κ} {k : κ} {N F : κ → Prop}

theorem refl (fs : FileSystem κ) : Spares N F fs fs := ⟨id, fun _ _ => rfl, fun _ _ _ => rfl⟩

theorem trans (h : Spares N F fs fs') (h' : Spares N F fs' fs'') : Spares N F fs fs'' where
  linkFree hl := h'.linkFree (h.linkFree hl)
  dir k hk := (h'.dir k hk).trans (h.dir k hk)
  content hl k hk := (h'.content (h.linkFree hl) k hk).trans (h.content hl k hk)

theorem writeAt (hN : ∀ j, F j → N j) (hk : N k) (hF : ¬ F k) {h : FileHandle}
    (hdir : fs.dir k = some h.inode) (bytes : Bytes) : Spares N F fs (fs.writeAt h bytes).1 where
  linkFree hl := hl
  dir _ _ := rfl
  content hl j hj := by
    refine content_congr rfl fun i hi => ?_
    rw [node_writeAt_of_ne]
    rintro rfl
    exact hF (hl j k h.inode (hN j hj) hk hi hdir ▸ hj)

theorem setMtime (fs : FileSystem κ) (k : κ) (mtime : Int64) :
    Spares N F fs (fs.setMtime k mtime) where
  linkFree hl := by
    unfold LinkFree
    rw [dir_setMtime]
    exact hl
  dir j _ := by rw [dir_setMtime]
  content _ j _ := content_setMtime _ _ _ _

end Spares

section Names

variable [DecidableEq κ]

def createNew (fs : FileSystem κ) (k : κ) : FileSystem κ where
  dir := fs.dir.insert k fs.fresh
  node := Function.update fs.node fs.fresh ⟨[], 0⟩
  fresh := fs.fresh + 1
  inUse := by
    intro j i h
    rw [Table.insert_apply] at h
    split at h
    · obtain rfl := Option.some.inj h
      exact Nat.lt_succ_self _
    · exact Nat.lt_succ_of_lt (fs.inUse j i h)

/-- `File::create`: an existing file is truncated, and keeps its number. -/
def create (fs : FileSystem κ) (k : κ) : FileSystem κ × FileHandle :=
  match fs.dir k with
  | some i => (fs.setNode i { fs.node i with data := [] }, ⟨i, 0, true⟩)
  | none => (fs.createNew k, ⟨fs.fresh, 0, true⟩)

/-- `OpenOptions::new().create(true).write(true).open`. -/
def openWrite (fs : FileSystem κ) (k : κ) : FileSystem κ × FileHandle :=
  match fs.dir k with
  | some i => (fs, ⟨i, 0, true⟩)
  | none => (fs.createNew k, ⟨fs.fresh, 0, true⟩)

/-- `fs::write`. -/
def writeFile (fs : FileSystem κ) (k : κ) (bytes : Bytes) : FileSystem κ :=
  let (fs, h) := fs.create k
  (fs.writeAt h bytes).1

/-- `fs::remove_file`. -/
def remove (fs : FileSystem κ) (k : κ) : FileSystem κ :=
  { fs with
    dir := fs.dir.remove k
    inUse := by
      intro j i h
      rw [Table.remove_apply] at h
      split at h
      · exact absurd h (by simp)
      · exact fs.inUse j i h }

/-- The name `dst` leads to the file `i`, and `src` to none. -/
def moveName (fs : FileSystem κ) (src dst : κ) (i : ℕ) (hi : fs.dir src = some i) : FileSystem κ :=
  { fs with
    dir := (fs.dir.insert dst i).remove src
    inUse := by
      intro j i' h
      rw [Table.remove_apply] at h
      split at h
      · exact absurd h (by simp)
      · rw [Table.insert_apply] at h
        split at h
        · obtain rfl := Option.some.inj h
          exact fs.inUse src i hi
        · exact fs.inUse j i' h }

/-- `fs::rename`. Two names of one file are left as they are. -/
def rename (fs : FileSystem κ) (src dst : κ) : FileSystem κ :=
  match h : fs.dir src with
  | some i => if fs.dir dst = some i then fs else fs.moveName src dst i h
  | none => fs

/-! ### Where names lead -/

variable (fs : FileSystem κ) (k j : κ)

theorem dir_create : (fs.create k).1.dir j =
    if j = k then some (fs.create k).2.inode else fs.dir j := by
  unfold create
  split
  · next i hi =>
    split
    · next hj => rw [hj]; exact hi
    · rfl
  · exact Table.insert_apply _ _ _ _

theorem dir_create_self : (fs.create k).1.dir k = some (fs.create k).2.inode := by
  rw [dir_create, if_pos rfl]

theorem dir_create_of_ne (h : j ≠ k) : (fs.create k).1.dir j = fs.dir j := by
  rw [dir_create, if_neg h]

theorem dir_writeFile_of_ne (bytes : Bytes) (h : j ≠ k) :
    (fs.writeFile k bytes).dir j = fs.dir j := fs.dir_create_of_ne k j h

theorem dir_remove : (fs.remove k).dir j = if j = k then none else fs.dir j :=
  Table.remove_apply _ _ _

theorem dir_remove_of_ne (h : j ≠ k) : (fs.remove k).dir j = fs.dir j := by
  rw [dir_remove, if_neg h]

theorem rename_cases (src dst : κ) :
    (fs.rename src dst = fs ∧ (fs.dir src = none ∨ fs.dir dst = fs.dir src)) ∨
      ∃ i, ∃ h : fs.dir src = some i, fs.dir dst ≠ some i ∧
        fs.rename src dst = fs.moveName src dst i h := by
  unfold rename
  split
  · next i hi =>
    split
    · next hdst => exact Or.inl ⟨rfl, Or.inr (hdst.trans hi.symm)⟩
    · next hdst => exact Or.inr ⟨i, hi, hdst, rfl⟩
  · next hnone => exact Or.inl ⟨rfl, Or.inl hnone⟩

theorem dir_rename_of_ne {src dst : κ} (hsrc : j ≠ src) (hdst : j ≠ dst) :
    (fs.rename src dst).dir j = fs.dir j := by
  obtain ⟨heq, -⟩ | ⟨i, h, -, heq⟩ := fs.rename_cases src dst
  · rw [heq]
  · rw [heq]
    show ((fs.dir.insert dst i).remove src) j = _
    rw [Table.remove_of_ne _ hsrc, Table.insert_of_ne _ _ hdst]

/-! ### What files hold -/

@[simp] theorem node_remove : (fs.remove k).node = fs.node := rfl

@[simp] theorem node_rename (src dst : κ) : (fs.rename src dst).node = fs.node := by
  obtain ⟨heq, -⟩ | ⟨i, h, -, heq⟩ := fs.rename_cases src dst <;> rw [heq]
  rfl

theorem node_create_of_ne {i : ℕ} (hi : i ≠ (fs.create k).2.inode) :
    (fs.create k).1.node i = fs.node i := by
  unfold create at hi ⊢
  split at hi <;> exact Function.update_of_ne hi _ _

theorem node_create_self : ((fs.create k).1.node (fs.create k).2.inode).data = [] := by
  unfold create
  split
  · rw [node_setNode_self]
  · show (Function.update fs.node fs.fresh _ fs.fresh).data = _
    rw [Function.update_self]

theorem create_pos : (fs.create k).2.pos = 0 := by
  unfold create
  split <;> rfl

theorem create_inode : fs.dir k = some (fs.create k).2.inode ∨
    (fs.dir k = none ∧ (fs.create k).2.inode = fs.fresh) := by
  unfold create
  split
  · next i hi => exact Or.inl hi
  · next hnone => exact Or.inr ⟨hnone, rfl⟩

theorem fresh_le_create : fs.fresh ≤ (fs.create k).1.fresh := by
  unfold create
  split
  · exact Nat.le_refl _
  · exact Nat.le_succ _

theorem create_inode_lt : (fs.create k).2.inode < (fs.create k).1.fresh :=
  (fs.create k).1.inUse k _ (fs.dir_create_self k)

theorem node_writeFile_of_none (hk : fs.dir k = none) (bytes : Bytes) {i : ℕ} (hi : i < fs.fresh) :
    (fs.writeFile k bytes).node i = fs.node i := by
  have hinode : (fs.create k).2.inode = fs.fresh := by
    rcases fs.create_inode k with hsome | ⟨-, hfresh⟩
    · rw [hk] at hsome
      cases hsome
    · exact hfresh
  have hne : i ≠ (fs.create k).2.inode := by
    rw [hinode]
    exact Nat.ne_of_lt hi
  unfold writeFile
  rw [node_writeAt_of_ne _ _ _ hne, fs.node_create_of_ne k hne]

/-! ### Operations spare other names -/

namespace Spares

variable {fs k} {N F : κ → Prop}

theorem create (hN : ∀ j, F j → N j) (hk : N k) (hF : ¬ F k) : Spares N F fs (fs.create k).1 where
  linkFree hl := by
    have hother : ∀ j, N j → j ≠ k → fs.dir j ≠ some (fs.create k).2.inode := by
      intro j hj hne hi
      rcases fs.create_inode k with hold | ⟨-, hnew⟩
      · exact hne (hl j k _ hj hk hi hold)
      · exact absurd (fs.inUse j _ hi) (by rw [hnew]; exact Nat.lt_irrefl _)
    intro j j' i hj hj' hi hi'
    rw [dir_create] at hi hi'
    split at hi <;> split at hi'
    · next h h' => rw [h, h']
    · next h' =>
      rw [← hi] at hi'
      exact absurd hi' (hother j' hj' h')
    · next h _ =>
      rw [← hi'] at hi
      exact absurd hi (hother j hj h)
    · exact hl j j' i hj hj' hi hi'
  dir j hj := fs.dir_create_of_ne k j fun h => hF (h ▸ hj)
  content hl j hj := by
    have hne : j ≠ k := fun h => hF (h ▸ hj)
    refine content_congr (fs.dir_create_of_ne k j hne) fun i hi => ?_
    rw [node_create_of_ne]
    rintro rfl
    rcases fs.create_inode k with hold | ⟨-, hnew⟩
    · exact hne (hl j k _ (hN j hj) hk hi hold)
    · exact absurd (fs.inUse j _ hi) (by rw [hnew]; exact Nat.lt_irrefl _)

theorem writeFile (hN : ∀ j, F j → N j) (hk : N k) (hF : ¬ F k) (bytes : Bytes) :
    Spares N F fs (fs.writeFile k bytes) :=
  (create hN hk hF).trans (writeAt hN hk hF (fs.dir_create_self k) bytes)

theorem remove (hF : ¬ F k) : Spares N F fs (fs.remove k) where
  linkFree hl := by
    intro j j' i hj hj' hi hi'
    rw [dir_remove] at hi hi'
    split at hi <;> split at hi' <;> try contradiction
    exact hl j j' i hj hj' hi hi'
  dir j hj := fs.dir_remove_of_ne k j fun h => hF (h ▸ hj)
  content _ j hj := content_congr (fs.dir_remove_of_ne k j fun h => hF (h ▸ hj)) fun _ _ => rfl

theorem rename {src dst : κ} (hsrc : N src) (hF : ¬ F src) (hF' : ¬ F dst) :
    Spares N F fs (fs.rename src dst) where
  linkFree hl := by
    obtain ⟨heq, -⟩ | ⟨i, h, -, heq⟩ := fs.rename_cases src dst
    · rw [heq]
      exact hl
    · rw [heq]
      -- The file moved is led to by `src` alone, so afterwards by `dst` alone.
      have hdir : ∀ j i', (fs.moveName src dst i h).dir j = some i' →
          j ≠ src ∧ (j = dst ∧ i' = i ∨ j ≠ dst ∧ fs.dir j = some i') := by
        intro j i' hj
        replace hj : ((fs.dir.insert dst i).remove src) j = some i' := hj
        rw [Table.remove_apply] at hj
        split at hj
        · cases hj
        · next hne =>
          rw [Table.insert_apply] at hj
          split at hj
          · next hdst => exact ⟨hne, Or.inl ⟨hdst, (Option.some.inj hj).symm⟩⟩
          · next hdst => exact ⟨hne, Or.inr ⟨hdst, hj⟩⟩
      intro j j' i' hj hj' hi hi'
      obtain ⟨hne, hcase⟩ := hdir j i' hi
      obtain ⟨hne', hcase'⟩ := hdir j' i' hi'
      rcases hcase with ⟨hdst, rfl⟩ | ⟨hdst, hold⟩
      · rcases hcase' with ⟨hdst', -⟩ | ⟨-, hold'⟩
        · rw [hdst, hdst']
        · exact absurd (hl j' src _ hj' hsrc hold' h) hne'
      · rcases hcase' with ⟨-, rfl⟩ | ⟨-, hold'⟩
        · exact absurd (hl j src _ hj hsrc hold h) hne
        · exact hl j j' i' hj hj' hold hold'
  dir j hj := fs.dir_rename_of_ne j (fun h => hF (h ▸ hj)) fun h => hF' (h ▸ hj)
  content _ j hj := by
    refine content_congr
      (fs.dir_rename_of_ne j (fun h => hF (h ▸ hj)) fun h => hF' (h ▸ hj)) fun _ _ => ?_
    rw [node_rename]

theorem rename_of_none {src dst : κ} (h : fs.dir src = none) :
    Spares N F fs (fs.rename src dst) := by
  obtain ⟨heq, -⟩ | ⟨i, hi, -⟩ := fs.rename_cases src dst
  · rw [heq]
    exact refl fs
  · rw [h] at hi
    cases hi

end Spares

theorem dir_rename_dst {src dst : κ} {i : ℕ} (hne : dst ≠ src) (h : fs.dir src = some i) :
    (fs.rename src dst).dir dst = some i := by
  obtain ⟨heq, hsame⟩ | ⟨i', hi', -, heq⟩ := fs.rename_cases src dst
  · rw [heq]
    rcases hsame with hnone | hsame
    · rw [h] at hnone
      cases hnone
    · rw [hsame, h]
  · rw [heq]
    show ((fs.dir.insert dst i').remove src) dst = _
    rw [Table.remove_of_ne _ hne, Table.insert_self, ← hi', h]

end Names

end FileSystem

end LibRustdesk
