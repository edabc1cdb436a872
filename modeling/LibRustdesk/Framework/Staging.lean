import LibRustdesk.Framework.FileSystem

/-!
# Files that are written under another name

Files are written one after the other, each under a name of its own that is given up for the final
one when the file is complete. Beside the file there is a mark while it is written. A `Staging` has
the three names of each file; nothing keeps a final name from being a name of another file.

* `Staging.begin`, `Staging.leave` — what is done on a disk at the beginning of a file and at the
  end of it.
* `Staging.Open`, `Staging.Settled` — the disk while the file `k` is written, and between the files
  `k - 1` and `k`. Each of the two operations leads from the one to the other, and a write from
  `Open` to `Open` (`Settled.begin`, `Open.write`, `Open.leave`).
* `Settled.complete_iff` — **exactly when every file is there in the end**: a file whose final name
  is the mark of another one is lost with that mark, unless the name is written again later.
-/

namespace LibRustdesk

open LittleEndian

/-- The names of the files `0`, …, `count - 1`. -/
structure Staging (κ : Type*) where
  count : ℕ
  final : ℕ → κ
  part : ℕ → κ
  mark : ℕ → κ
  part_ne_mark : ∀ i j, part i ≠ mark j
  final_ne_mark : ∀ i, final i ≠ mark i

namespace Staging

variable {κ : Type*} (S : Staging κ)

def IsName (x : κ) : Prop := ∃ i < S.count, x = S.final i ∨ x = S.part i ∨ x = S.mark i

/-- No final name is the name that a file is written under. -/
def Apart : Prop := ∀ i < S.count, ∀ j < S.count, S.final i ≠ S.part j

/-- A mark that is a final name is the final name of a later file. -/
def Rewritten : Prop :=
  ∀ i < S.count, ∀ j < S.count, S.final i = S.mark j →
    ∃ l < S.count, j < l ∧ S.final l = S.mark j

variable {S} in
theorem isName_final {k : ℕ} (hk : k < S.count) : S.IsName (S.final k) := ⟨k, hk, .inl rfl⟩

variable {S} in
theorem isName_part {k : ℕ} (hk : k < S.count) : S.IsName (S.part k) := ⟨k, hk, .inr (.inl rfl)⟩

variable {S} in
theorem isName_mark {k : ℕ} (hk : k < S.count) : S.IsName (S.mark k) := ⟨k, hk, .inr (.inr rfl)⟩

/-- The file `k` begins: an old mark is removed, the file is created, and its mark is written. -/
def begin [DecidableEq κ] (k : ℕ) (mark : Bytes) (fs : FileSystem κ) : FileSystem κ × FileHandle :=
  let fs := if fs.has (S.mark k) then fs.remove (S.mark k) else fs
  let (fs, h) := fs.create (S.part k)
  (fs.writeFile (S.mark k) mark, h)

/-- The file `k` is complete: its mark is removed, and it gets its name and its time. -/
def leave [DecidableEq κ] (k : ℕ) (mtime : Int64) (fs : FileSystem κ) : FileSystem κ :=
  ((fs.remove (S.mark k)).rename (S.part k) (S.final k)).setMtime (S.final k) mtime

/-! ### What the operations spare -/

section Spares

variable [DecidableEq κ] {S} {k : ℕ} {F : κ → Prop} (fs : FileSystem κ)

theorem begin_spares (hk : k < S.count) (hF : ∀ x, F x → S.IsName x) (hpart : ¬ F (S.part k))
    (hmark : ¬ F (S.mark k)) (mark : Bytes) :
    FileSystem.Spares S.IsName F fs (S.begin k mark fs).1 := by
  refine FileSystem.Spares.trans ?_ (.writeFile hF (isName_mark hk) hmark mark)
  refine FileSystem.Spares.trans ?_ (.create hF (isName_part hk) hpart)
  split
  · exact .remove hmark
  · exact .refl fs

theorem leave_spares (hk : k < S.count) (hpart : ¬ F (S.part k)) (hfinal : ¬ F (S.final k))
    (hmark : ¬ F (S.mark k)) (mtime : Int64) :
    FileSystem.Spares S.IsName F fs (S.leave k mtime fs) := by
  refine FileSystem.Spares.trans ?_ (.setMtime _ _ _)
  refine FileSystem.Spares.trans (.remove hmark) ?_
  exact .rename (isName_part hk) hpart hfinal

theorem begin_spec (k : ℕ) (mark : Bytes) :
    (S.begin k mark fs).1.dir (S.part k) = some (S.begin k mark fs).2.inode ∧
      ((S.begin k mark fs).1.node (S.begin k mark fs).2.inode).data = [] ∧
      (S.begin k mark fs).2.pos = 0 ∧ (S.begin k mark fs).2.writable = true := by
  have hne : S.part k ≠ S.mark k := S.part_ne_mark k k
  unfold begin
  dsimp only
  generalize hfs : (if fs.has (S.mark k) then fs.remove (S.mark k) else fs) = fs₁
  have hnone : fs₁.dir (S.mark k) = none := by
    rw [← hfs]
    split
    · rw [FileSystem.dir_remove, if_pos rfl]
    · next hhas => exact Option.not_isSome_iff_eq_none.mp hhas
  refine ⟨?_, ?_, fs₁.create_pos _, ?_⟩
  · rw [FileSystem.dir_writeFile_of_ne _ _ _ _ hne]
    exact fs₁.dir_create_self _
  · -- the mark is another file
    have hmark : (fs₁.create (S.part k)).1.dir (S.mark k) = none := by
      rw [fs₁.dir_create_of_ne _ _ hne.symm, hnone]
    rw [FileSystem.node_writeFile_of_none _ _ hmark _ (fs₁.create_inode_lt _)]
    exact fs₁.node_create_self _
  · unfold FileSystem.create
    split <;> rfl

end Spares

/-! ### Between two files, and while one is written -/

/-- The files before `k` are complete. -/
structure Settled (src : ℕ → Bytes) (k : ℕ) (fs : FileSystem κ) : Prop where
  linkFree : fs.LinkFree S.IsName
  kept : ∀ i < k, (∀ j, i < j → j < k → S.final i ≠ S.mark j) →
    fs.content (S.final i) = some (src i)
  gone : ∀ i < k, fs.dir (S.part i) = none
  unmarked : ∀ i < k, (∀ j, i < j → j < k → S.final j ≠ S.mark i) → fs.dir (S.mark i) = none

/-- The files before `k` are complete, and of the file `k` the bytes `got` are written. -/
structure Open (src : ℕ → Bytes) (k : ℕ) (got : Bytes) (h : FileHandle) (fs : FileSystem κ) :
    Prop where
  linkFree : fs.LinkFree S.IsName
  kept : ∀ i < k, (∀ j, i < j → j ≤ k → S.final i ≠ S.mark j) →
    fs.content (S.final i) = some (src i)
  gone : ∀ i < k, S.part i ≠ S.part k → fs.dir (S.part i) = none
  unmarked : ∀ i < k, (∀ j, i < j → j < k → S.final j ≠ S.mark i) → S.mark i ≠ S.mark k →
    fs.dir (S.mark i) = none
  writable : h.writable = true
  pos : h.pos = got.length
  dir : fs.dir (S.part k) = some h.inode
  data : (fs.node h.inode).data = got

section Steps

variable [DecidableEq κ] {S} {src : ℕ → Bytes} {k : ℕ} {fs : FileSystem κ}

omit [DecidableEq κ] in
theorem settled_zero (h : fs.LinkFree S.IsName) : S.Settled src 0 fs :=
  ⟨h, fun _ hi => absurd hi (Nat.not_lt_zero _), fun _ hi => absurd hi (Nat.not_lt_zero _),
    fun _ hi => absurd hi (Nat.not_lt_zero _)⟩

theorem Settled.begin (h : S.Settled src k fs) (hk : k < S.count) (hapart : S.Apart)
    (mark : Bytes) : S.Open src k [] (S.begin k mark fs).2 (S.begin k mark fs).1 := by
  obtain ⟨hdir, hdata, hpos, hwritable⟩ := begin_spec fs k mark
  -- a name that is neither written under nor marked stays as it is
  have hspares {x : κ} (hx : S.IsName x) (hpart : x ≠ S.part k) (hmark : x ≠ S.mark k) :
      FileSystem.Spares S.IsName (· = x) fs (S.begin k mark fs).1 :=
    begin_spares (F := (· = x)) fs hk (fun y hy => hy ▸ hx) (fun hp => hpart hp.symm)
      (fun hm => hmark hm.symm) mark
  have hempty : FileSystem.Spares S.IsName (fun _ => False) fs (S.begin k mark fs).1 :=
    begin_spares fs hk (fun _ hx => hx.elim) not_false not_false mark
  refine ⟨hempty.linkFree h.linkFree, ?_, ?_, ?_, hwritable, hpos, hdir, hdata⟩
  · intro i hi hmarks
    have hname := isName_final (Nat.lt_trans hi hk)
    rw [(hspares hname (hapart i (Nat.lt_trans hi hk) k hk)
      (hmarks k hi (Nat.le_refl k))).content h.linkFree _ rfl]
    exact h.kept i hi fun j hij hjk => hmarks j hij (Nat.le_of_lt hjk)
  · intro i hi hne
    rw [(hspares (isName_part (Nat.lt_trans hi hk)) hne (S.part_ne_mark i k)).dir _ rfl]
    exact h.gone i hi
  · intro i hi hfinals hne
    rw [(hspares (isName_mark (Nat.lt_trans hi hk)) (S.part_ne_mark k i).symm hne).dir _ rfl]
    exact h.unmarked i hi hfinals

omit [DecidableEq κ] in
theorem Open.write {got : Bytes} {h : FileHandle} (ho : S.Open src k got h fs) (hk : k < S.count)
    (hapart : S.Apart) (bytes : Bytes) :
    S.Open src k (got ++ bytes) (fs.writeAt h bytes).2 (fs.writeAt h bytes).1 := by
  have hdir : (fs.writeAt h bytes).1.dir = fs.dir := rfl
  refine ⟨ho.linkFree, ?_, ho.gone, ho.unmarked, ho.writable, ?_, ho.dir, ?_⟩
  · intro i hi hmarks
    have hilt := Nat.lt_trans hi hk
    have hspares : FileSystem.Spares S.IsName (· = S.final i) fs (fs.writeAt h bytes).1 :=
      .writeAt (fun x hx => hx ▸ isName_final hilt) (isName_part hk)
        (fun hp => hapart i hilt k hk hp.symm) ho.dir bytes
    rw [hspares.content ho.linkFree _ rfl]
    exact ho.kept i hi hmarks
  · change h.pos + bytes.length = _
    rw [ho.pos, List.length_append]
  · change ((fs.writeAt h bytes).1.node h.inode).data = _
    rw [FileSystem.node_writeAt_self, ho.data, ho.pos, splice_length]

theorem content_leave {i : ℕ} (hdir : fs.dir (S.part k) = some i) (hne : S.final k ≠ S.part k)
    (mtime : Int64) : (S.leave k mtime fs).content (S.final k) = some (fs.node i).data := by
  have hremoved : (fs.remove (S.mark k)).dir (S.part k) = some i := by
    rw [FileSystem.dir_remove_of_ne _ _ _ (S.part_ne_mark k k)]
    exact hdir
  unfold leave
  rw [FileSystem.content_setMtime]
  unfold FileSystem.content
  rw [FileSystem.dir_rename_dst _ hne hremoved, FileSystem.node_rename, FileSystem.node_remove]
  rfl

theorem Open.leave_content {got : Bytes} {h : FileHandle} (ho : S.Open src k got h fs)
    (hk : k < S.count) (hapart : S.Apart) (mtime : Int64) :
    (S.leave k mtime fs).content (S.final k) = some got ∧
      (S.leave k mtime fs).dir (S.part k) = none := by
  have hne : S.final k ≠ S.part k := hapart k hk k hk
  have hdir : (fs.remove (S.mark k)).dir (S.part k) = some h.inode := by
    rw [FileSystem.dir_remove_of_ne _ _ _ (S.part_ne_mark k k)]
    exact ho.dir
  have hlinks : (fs.remove (S.mark k)).LinkFree S.IsName := by
    have hremove : FileSystem.Spares S.IsName (fun _ => False) fs (fs.remove (S.mark k)) :=
      .remove not_false
    exact hremove.linkFree ho.linkFree
  refine ⟨(content_leave ho.dir hne mtime).trans (congrArg some ho.data), ?_⟩
  unfold leave
  rw [FileSystem.dir_setMtime]
  obtain ⟨-, hsame⟩ | ⟨i, hi, -, heq⟩ :=
    (fs.remove (S.mark k)).rename_cases (S.part k) (S.final k)
  · -- two names of one file there are none
    rcases hsame with hnone | hsame
    · rw [hdir] at hnone
      cases hnone
    · rw [hdir] at hsame
      exact absurd (hlinks _ _ _ (isName_final hk) (isName_part hk) hsame hdir) hne
  · rw [heq]
    exact Table.remove_self _ _

theorem Open.leave {h : FileHandle} (ho : S.Open src k (src k) h fs) (hk : k < S.count)
    (hapart : S.Apart)
    (hsame : ∀ i < S.count, ∀ j < S.count, S.final i = S.final j → src i = src j)
    (mtime : Int64) : S.Settled src (k + 1) (S.leave k mtime fs) := by
  obtain ⟨hcontent, hpart⟩ := ho.leave_content hk hapart mtime
  have hspares {x : κ} (hp : x ≠ S.part k) (hf : x ≠ S.final k) (hm : x ≠ S.mark k) :
      FileSystem.Spares S.IsName (· = x) fs (S.leave k mtime fs) :=
    leave_spares fs hk (fun h => hp h.symm) (fun h => hf h.symm) (fun h => hm h.symm) mtime
  have hempty : FileSystem.Spares S.IsName (fun _ => False) fs (S.leave k mtime fs) :=
    leave_spares fs hk not_false not_false not_false mtime
  refine ⟨hempty.linkFree ho.linkFree, ?_, ?_, ?_⟩
  · intro i hi hmarks
    have hilt : i < S.count := by omega
    by_cases hfinal : S.final i = S.final k
    · rw [hfinal, hcontent, hsame i hilt k hk hfinal]
    · have hik : i < k := by
        refine Nat.lt_of_le_of_ne (Nat.lt_succ_iff.mp hi) ?_
        rintro rfl
        exact hfinal rfl
      rw [(hspares (hapart i hilt k hk) hfinal
        (hmarks k hik (Nat.lt_succ_self k))).content ho.linkFree _ rfl]
      exact ho.kept i hik fun j hij hjk => hmarks j hij (Nat.lt_succ_of_le hjk)
  · intro i hi
    have hilt : i < S.count := by omega
    by_cases hsamePart : S.part i = S.part k
    · rw [hsamePart]
      exact hpart
    · have hik : i < k := by
        refine Nat.lt_of_le_of_ne (Nat.lt_succ_iff.mp hi) ?_
        rintro rfl
        exact hsamePart rfl
      rw [(hspares hsamePart (hapart k hk i hilt).symm (S.part_ne_mark i k)).dir _ rfl]
      exact ho.gone i hik hsamePart
  · intro i hi hfinals
    -- the mark of the file is removed, and its name is another one
    have hgone : S.mark i = S.mark k → (S.leave k mtime fs).dir (S.mark i) = none := by
      intro hmark
      have hne : S.mark k ≠ S.final k := (S.final_ne_mark k).symm
      unfold Staging.leave
      rw [hmark, FileSystem.dir_setMtime,
        FileSystem.dir_rename_of_ne _ _ (S.part_ne_mark k k).symm hne]
      exact (FileSystem.dir_remove _ _ _).trans (if_pos rfl)
    by_cases hmark : S.mark i = S.mark k
    · exact hgone hmark
    · have hik : i < k := by
        refine Nat.lt_of_le_of_ne (Nat.lt_succ_iff.mp hi) ?_
        rintro rfl
        exact hmark rfl
      rw [(hspares (S.part_ne_mark k i).symm
        (hfinals k hik (Nat.lt_succ_self k)).symm hmark).dir _ rfl]
      exact ho.unmarked i hik (fun j hij hjk => hfinals j hij (Nat.lt_succ_of_lt hjk)) hmark

/-! ### In the end -/

omit [DecidableEq κ] in
theorem Settled.complete (h : S.Settled src S.count fs) (hrewritten : S.Rewritten)
    (hsame : ∀ i < S.count, ∀ j < S.count, S.final i = S.final j → src i = src j) :
    ∀ i < S.count, fs.content (S.final i) = some (src i) := by
  intro i hi
  -- by induction on the files behind `i`: the last one of its name is kept
  induction hn : S.count - i using Nat.strong_induction_on generalizing i with
  | _ n ih =>
    by_cases hmarks : ∀ j, i < j → j < S.count → S.final i ≠ S.mark j
    · exact h.kept i hi hmarks
    · obtain ⟨j, hij, hj, hmark⟩ : ∃ j, i < j ∧ j < S.count ∧ S.final i = S.mark j := by
        by_contra hnot
        refine hmarks fun j hij hj hmark => hnot ⟨j, hij, hj, hmark⟩
      obtain ⟨l, hl, hjl, hfinal⟩ := hrewritten i hi j hj hmark
      have hlater := ih (S.count - l) (by omega) l hl rfl
      rw [hfinal, ← hmark] at hlater
      rw [hlater, hsame l hl i hi (hfinal.trans hmark.symm)]

omit [DecidableEq κ] in
theorem Settled.complete_iff (h : S.Settled src S.count fs)
    (hsame : ∀ i < S.count, ∀ j < S.count, S.final i = S.final j → src i = src j) :
    (∀ i < S.count, fs.content (S.final i) = some (src i)) ↔ S.Rewritten := by
  constructor
  · intro hcontent i hi j hj hmark
    by_contra hnot
    -- the mark was removed, and its name is not written any more
    have hgone : fs.dir (S.mark j) = none := by
      refine h.unmarked j hj fun l hjl hl hfinal => ?_
      exact hnot ⟨l, hl, hjl, hfinal⟩
    have hi' := hcontent i hi
    unfold FileSystem.content at hi'
    rw [hmark, hgone] at hi'
    cases hi'
  · intro hrewritten
    exact h.complete hrewritten hsame

end Steps

end Staging

end LibRustdesk
