import Mathlib.Data.List.Basic

/-!
# Paths of a file transfer

The path functions of `libs/hbb_common/src/fs.rs`, as they are off Windows. A path is the list of
its characters; what the file system makes of it is its `pathKey`, the components without empty
ones and dots, so that `a//b` and `a/./b` name one file. A `..` is a component like any other: the
names of a transfer contain none, and the base they are joined to is the same for all of them.
-/

namespace LibRustdesk.FileTransfer

abbrev Path := List Char

abbrev PathKey := List Path

def pathKey (p : Path) : PathKey :=
  (p.splitOn '/').filter fun c => !c.isEmpty && c != ['.']

/-- `PathBuf::join`. -/
def pathJoin (p name : Path) : Path :=
  if name.head? = some '/' then name
  else if p = [] ∨ p.getLast? = some '/' then p ++ name
  else p ++ '/' :: name

def join (p name : Path) : Path := if name.isEmpty then p else pathJoin p name

def downloadPath (p : Path) : Path := p ++ ".download".toList

def digestPath (p : Path) : Path := p ++ ".digest".toList

/-- `Path::file_name`, or the empty name. -/
def fileName (p : Path) : Path :=
  match (pathKey p).getLast? with
  | some c => if c = ['.', '.'] then [] else c
  | none => []

def getExt (name : Path) : Path :=
  if name.contains '.' then (name.reverse.takeWhile fun c => c != '.').reverse else []

def isCompressedFile (name : Path) : Bool :=
  (["xz", "gz", "zip", "7z", "rar", "bz2", "tgz", "png", "jpg"].map String.toList).contains
    (getExt name)

def validateFileNameNoTraversal (name : Path) : Except String Unit :=
  if name.contains '\x00' then .error "file name contains null bytes"
  else if ((name.splitOn '/').filter fun c => !c.isEmpty).contains ['.', '.'] then
    .error "path traversal detected in file name"
  else if name.head? = some '/' then .error "absolute path detected in file name"
  else .ok ()

/-- The walk over the components of `name`: what is on disk there is decided by `onDisk`. -/
def validateNoSymlinkComponents (onDisk : Except String Unit) (name : Path) : Except String Unit :=
  if name.isEmpty then .ok ()
  else if name.head? = some '/' ∨ (name.splitOn '/').contains ['.', '.'] then
    .error "invalid file name component"
  else onDisk

def joinValidatedPath (onDisk : Except String Unit) (base name : Path) : Except String Path := do
  validateFileNameNoTraversal name
  validateNoSymlinkComponents onDisk name
  return join base name

variable {onDisk : Except String Unit}

theorem joinValidatedPath_eq {base name path : Path}
    (h : joinValidatedPath onDisk base name = .ok path) : path = join base name := by
  unfold joinValidatedPath at h
  cases hname : validateFileNameNoTraversal name with
  | error e => simp [hname] at h; cases h
  | ok _ =>
    cases hlink : validateNoSymlinkComponents onDisk name with
    | error e => rw [hname, hlink] at h; cases h
    | ok _ =>
      rw [hname, hlink] at h
      exact (Except.ok.inj h).symm

theorem joinValidatedPath_valid {base name path : Path}
    (h : joinValidatedPath onDisk base name = .ok path) : validateFileNameNoTraversal name = .ok ()
    := by
  unfold joinValidatedPath at h
  cases hname : validateFileNameNoTraversal name with
  | error e => rw [hname] at h; cases h
  | ok _ => rfl

theorem joinValidatedPath_of_valid (base : Path) {name : Path}
    (h : validateFileNameNoTraversal name = .ok ()) :
    joinValidatedPath (.ok ()) base name = .ok (join base name) := by
  have hlink : validateNoSymlinkComponents (.ok ()) name = .ok () := by
    unfold validateFileNameNoTraversal at h
    split_ifs at h with hnull hup habs
    unfold validateNoSymlinkComponents
    split
    · rfl
    · rw [if_neg]
      rw [not_or]
      refine ⟨habs, fun hdots => hup ?_⟩
      rw [List.contains_iff_mem] at hdots ⊢
      exact List.mem_filter.mpr ⟨hdots, rfl⟩
  unfold joinValidatedPath
  rw [h, hlink]
  rfl

/-! ### Components -/

theorem pathKey_slash (p q : Path) : pathKey (p ++ '/' :: q) = pathKey p ++ pathKey q := by
  unfold pathKey
  rw [List.splitOn_append_cons_self, List.filter_append]

variable (p : Path)

theorem pathKey_join {name : Path} (h : name.head? ≠ some '/') :
    pathKey (join p name) = pathKey p ++ pathKey name := by
  have hempty : pathKey ([] : Path) = [] := rfl
  unfold join pathJoin
  split
  · next hname =>
    rw [List.isEmpty_iff.mp hname, hempty, List.append_nil]
  split
  · next hend =>
    rcases hend with rfl | hslash
    · rfl
    · -- a slash is there already
      obtain ⟨q, rfl⟩ : ∃ q, p = q ++ ['/'] := List.getLast?_eq_some_iff.mp hslash
      rw [List.append_assoc, List.singleton_append, pathKey_slash, pathKey_slash, hempty,
        List.append_nil]
  · exact pathKey_slash p name

/-! ### Suffixes -/

variable {s : Path}

theorem splitOnP_append_suffix {f : Char → Bool} (hs : ∀ a ∈ s, f a = false) : ∃ init last,
    p.splitOnP f = init ++ [last] ∧ (p ++ s).splitOnP f = init ++ [last ++ s] := by
  induction p with
  | nil => exact ⟨[], [], List.splitOnP_nil, List.splitOnP_eq_singleton hs⟩
  | cons c p ih =>
    obtain ⟨init, last, hp, hps⟩ := ih
    rw [List.cons_append, List.splitOnP_cons_eq_if_modifyHead,
      List.splitOnP_cons_eq_if_modifyHead, hp, hps]
    split
    · exact ⟨[] :: init, last, rfl, rfl⟩
    · cases init with
      | nil => exact ⟨[], c :: last, rfl, rfl⟩
      | cons first init => exact ⟨(c :: first) :: init, last, rfl, rfl⟩

theorem splitOn_append_suffix (hs : '/' ∉ s) :
    ∃ init last, p.splitOn '/' = init ++ [last] ∧ (p ++ s).splitOn '/' = init ++ [last ++ s] :=
  splitOnP_append_suffix p fun _ ha => beq_false_of_ne fun h => hs (h ▸ ha)

theorem isComponent_append_suffix (last : Path) (hlen : 1 < s.length) :
    (!(last ++ s).isEmpty && (last ++ s) != ['.']) = true := by
  have hne : (last ++ s).length ≠ 0 ∧ (last ++ s).length ≠ 1 := by
    rw [List.length_append]
    omega
  have hnil : last ++ s ≠ [] := fun h => hne.1 (by rw [h]; rfl)
  have hdot : last ++ s ≠ ['.'] := fun h => hne.2 (by rw [h]; rfl)
  simp [hdot]
  simpa using hnil

theorem getLast_pathKey_suffix (hs : '/' ∉ s) (hlen : 1 < s.length) :
    ∃ last, (pathKey (p ++ s)).getLast? = some (last ++ s) := by
  obtain ⟨init, last, -, hps⟩ := splitOn_append_suffix p hs
  refine ⟨last, ?_⟩
  unfold pathKey
  rw [hps, List.filter_append, List.filter_cons, if_pos (isComponent_append_suffix last hlen)]
  exact List.getLast?_concat

theorem pathKey_append_suffix_ne (hs : '/' ∉ s) (hlen : 1 < s.length) :
    pathKey p ≠ pathKey (p ++ s) := by
  obtain ⟨init, last, hp, hps⟩ := splitOn_append_suffix p hs
  unfold pathKey
  rw [hp, hps, List.filter_append, List.filter_append, ne_eq, List.append_cancel_left_eq,
    List.filter_cons, List.filter_cons, if_pos (isComponent_append_suffix last hlen),
    List.filter_nil]
  split
  · intro h
    -- the last component alone is as long as it is with the suffix
    have hlast : last = last ++ s := (List.cons.inj h).1
    have hle := congrArg List.length hlast
    rw [List.length_append] at hle
    omega
  · intro h
    cases h

theorem downloadPath_ne_digestPath (p q : Path) :
    pathKey (downloadPath p) ≠ pathKey (digestPath q) := by
  obtain ⟨last, hlast⟩ := getLast_pathKey_suffix p (s := ".download".toList) (by decide) (by decide)
  obtain ⟨last', hlast'⟩ := getLast_pathKey_suffix q (s := ".digest".toList) (by decide) (by decide)
  intro h
  unfold downloadPath digestPath at h
  rw [h, hlast'] at hlast
  have hend := congrArg List.getLast? (Option.some.inj hlast)
  rw [List.getLast?_append, List.getLast?_append,
    show ".digest".toList.getLast? = some 't' by decide,
    show ".download".toList.getLast? = some 'd' by decide] at hend
  exact absurd hend (by simp)

example : pathKey "a//b/./c".toList = ["a".toList, "b".toList, "c".toList] := by decide

end LibRustdesk.FileTransfer
