import LibRustdesk.FileTransfer.WindowsPath
import LibRustdesk.Framework.Machine

/-!
# The log of removed files

`FileRemoveLogControl` of `src/server/connection.rs`: what a peer removes is collected, and reported
for the audit once nothing has been removed for a second. A directory is removed with what is in it,
one message for each; what is directly in a directory that is reported is not reported itself.

Directories are kept apart as they come, in whatever order. Files are not: one that is removed is
always reported, and where a directory is removed it is not the files in it that are forgotten but
those that it is in, for the two arguments of `direct_child` are in each other's place.

* `Below` — a path is another one or inside it.
* `Covered`, `Apart` — **every removed path is reported or inside what is**, and nothing reported is
  directly in a directory that is.
* `covered_apart_file`, `covered_apart_dir` — exactly when one more removal keeps that.
* `removals_sound_iff` — exactly when a report is right whenever it is due; `harmless_of_dirs` — it
  is when only directories are removed.
-/

namespace LibRustdesk.Desktop.RemoveLog

open FileTransfer (Path pathKey)
open FileTransfer.Windows (Component)

/-! ### Paths in a tree

A path is the list of its components, of which some (`up`) have another path in front of them. -/

section Tree

variable {κ : Type} (up : κ → Bool)

/-- `p` is `a`, or inside it. -/
def Below (a p : List κ) : Prop := ∃ rest, (∀ k ∈ rest, up k = true) ∧ p = a ++ rest

variable {up} {a p q : List κ}

theorem Below.refl (a : List κ) : Below up a a :=
  ⟨[], by simp, (List.append_nil a).symm⟩

theorem Below.trans (hab : Below up a p) (hbc : Below up p q) : Below up a q := by
  obtain ⟨r, hr, rfl⟩ := hab
  obtain ⟨r', hr', rfl⟩ := hbc
  exact ⟨r ++ r', List.forall_mem_append.mpr ⟨hr, hr'⟩, List.append_assoc a r r'⟩

theorem Below.length_le (h : Below up a p) : a.length ≤ p.length := by
  obtain ⟨rest, -, rfl⟩ := h
  rw [List.length_append]
  exact Nat.le_add_right _ _

variable [DecidableEq κ] (up)

/-- `p` is `parent` with one more component. -/
def isChild (parent p : List κ) : Bool :=
  match p.getLast? with
  | some last => up last && p.dropLast == parent
  | none => false

variable {up}

theorem isChild_iff : isChild up a p = true ↔ ∃ k, up k = true ∧ p = a ++ [k] := by
  unfold isChild
  constructor
  · intro h
    split at h
    · next last hlast =>
      obtain ⟨hup, hinit⟩ := (Bool.and_eq_true _ _).mp h
      obtain ⟨init, rfl⟩ := List.getLast?_eq_some_iff.mp hlast
      rw [List.dropLast_concat] at hinit
      exact ⟨last, hup, by rw [beq_iff_eq.mp hinit]⟩
    · cases h
  · rintro ⟨k, hup, rfl⟩
    rw [List.getLast?_concat]
    simpa using hup

theorem Below.of_isChild (h : isChild up a p = true) : Below up a p := by
  obtain ⟨k, hk, rfl⟩ := isChild_iff.mp h
  exact ⟨[k], by simpa using hk, rfl⟩

theorem length_of_isChild (h : isChild up a p = true) : p.length = a.length + 1 := by
  obtain ⟨k, -, rfl⟩ := isChild_iff.mp h
  simp

theorem isChild_swap (h : isChild up a p = true) : isChild up p a = false := by
  have hlength := length_of_isChild h
  refine Bool.eq_false_iff.mpr fun hswap => ?_
  have hlength' := length_of_isChild hswap
  omega

theorem isChild_self (a : List κ) : isChild up a a = false :=
  Bool.eq_false_iff.mpr fun h => absurd (length_of_isChild h) (Nat.succ_ne_self _).symm

theorem eq_of_isChild (ha : isChild up a q = true) (hp : isChild up p q = true) : a = p := by
  obtain ⟨k, -, rfl⟩ := isChild_iff.mp ha
  obtain ⟨k', -, h⟩ := isChild_iff.mp hp
  exact (List.append_inj' h rfl).1

/-! ### What is collected -/

variable (up)

/-- Each of the removed paths `batch` is one of those reported, or inside it. -/
def Covered (files dirs batch : List (List κ)) : Prop :=
  ∀ p ∈ batch, ∃ e ∈ files ++ dirs, Below up e p

/-- Nothing that is reported is directly in a directory that is. -/
def Apart (files dirs : List (List κ)) : Prop :=
  ∀ d ∈ dirs, ∀ e ∈ files ++ dirs, isChild up d e = false

/-- The files that are left when a directory is removed. -/
def keptFiles (files : List (List κ)) (d : List κ) : List (List κ) :=
  files.filter fun f => !isChild up f d

def keptDirs (dirs : List (List κ)) (d : List κ) : List (List κ) :=
  dirs.filter fun x => !isChild up d x

def nextDirs (dirs : List (List κ)) (d : List κ) : List (List κ) :=
  if (keptDirs up dirs d).any fun x => isChild up x d then keptDirs up dirs d
  else keptDirs up dirs d ++ [d]

variable {up} {files dirs batch : List (List κ)} {f d : List κ}

theorem any_keptDirs :
    ((keptDirs up dirs d).any fun x => isChild up x d) = dirs.any fun x => isChild up x d := by
  refine Bool.eq_iff_iff.mpr ?_
  rw [List.any_eq_true, List.any_eq_true]
  constructor
  · rintro ⟨x, hx, hchild⟩
    exact ⟨x, List.mem_of_mem_filter hx, hchild⟩
  · rintro ⟨x, hx, hchild⟩
    refine ⟨x, List.mem_filter.mpr ⟨hx, ?_⟩, hchild⟩
    rw [isChild_swap hchild]
    rfl

theorem covered_apart_file (hcov : Covered up files dirs batch) (hap : Apart up files dirs) :
    (Covered up (files ++ [f]) dirs (batch ++ [f]) ∧ Apart up (files ++ [f]) dirs) ↔
      ∀ x ∈ dirs, isChild up x f = false := by
  constructor
  · rintro ⟨-, hap'⟩ x hx
    exact hap' x hx f (by simp)
  · intro h
    constructor
    · intro p hp
      rcases List.mem_append.mp hp with hp | hp
      · obtain ⟨e, he, hbelow⟩ := hcov p hp
        refine ⟨e, ?_, hbelow⟩
        rcases List.mem_append.mp he with he | he
        · exact List.mem_append_left _ (List.mem_append_left _ he)
        · exact List.mem_append_right _ he
      · rw [List.mem_singleton.mp hp]
        exact ⟨f, by simp, Below.refl f⟩
    · intro x hx e he
      rcases List.mem_append.mp he with he | he
      · rcases List.mem_append.mp he with he | he
        · exact hap x hx e (List.mem_append_left _ he)
        · rw [List.mem_singleton.mp he]
          exact h x hx
      · exact hap x hx e (List.mem_append_right _ he)

theorem mem_nextDirs {x : List κ} :
    x ∈ nextDirs up dirs d ↔
      (x ∈ dirs ∧ isChild up d x = false) ∨ (x = d ∧ ∀ y ∈ dirs, isChild up y d = false) := by
  have hkept : x ∈ keptDirs up dirs d ↔ x ∈ dirs ∧ isChild up d x = false := by
    unfold keptDirs
    rw [List.mem_filter, Bool.not_eq_true']
  unfold nextDirs
  rw [any_keptDirs]
  by_cases hany : (dirs.any fun x => isChild up x d) = true
  · rw [if_pos hany, hkept]
    obtain ⟨y, hy, hchild⟩ := List.any_eq_true.mp hany
    refine ⟨.inl, fun h => h.resolve_right fun hnone => ?_⟩
    exact absurd (hchild.symm.trans (hnone.2 y hy)) Bool.noConfusion
  · have hnone : ∀ y ∈ dirs, isChild up y d = false := by simpa using hany
    rw [if_neg hany, List.mem_append, hkept, List.mem_singleton]
    exact ⟨fun h => h.imp_right fun hx => ⟨hx, hnone⟩, fun h => h.imp_right And.left⟩

/-- No file is lost by a removed directory unless it is inside something else that is reported. -/
def NotLost (up : κ → Bool) (files dirs : List (List κ)) (d : List κ) : Prop :=
  ∀ f ∈ files, isChild up f d = true →
    ∃ e ∈ files ++ dirs, Below up e f ∧ (e ∈ dirs ∨ e ≠ f)

/-- No file is directly in a directory that comes to be reported. -/
def NotInside (up : κ → Bool) (files dirs : List (List κ)) (d : List κ) : Prop :=
  (∃ x ∈ dirs, isChild up x d = true) ∨ ∀ f ∈ files, isChild up d f = false

theorem exists_below_next (hlost : NotLost up files dirs d) {e : List κ} (he : e ∈ files ++ dirs) :
    ∃ e' ∈ keptFiles up files d ++ nextDirs up dirs d, Below up e' e := by
  have hdirs : ∀ x ∈ dirs, ∃ e' ∈ keptFiles up files d ++ nextDirs up dirs d, Below up e' x := by
    intro x hx
    by_cases hchild : isChild up d x = true
    · -- it is inside the new directory, which is reported or inside what is
      by_cases hparent : ∀ y ∈ dirs, isChild up y d = false
      · exact ⟨d, List.mem_append_right _ (mem_nextDirs.mpr (.inr ⟨rfl, hparent⟩)),
          Below.of_isChild hchild⟩
      · push Not at hparent
        obtain ⟨y, hy, hyd⟩ := hparent
        have hyd : isChild up y d = true := by simpa using hyd
        exact ⟨y, List.mem_append_right _ (mem_nextDirs.mpr (.inl ⟨hy, isChild_swap hyd⟩)),
          (Below.of_isChild hyd).trans (Below.of_isChild hchild)⟩
    · have hnot : isChild up d x = false := Bool.eq_false_iff.mpr hchild
      exact ⟨x, List.mem_append_right _ (mem_nextDirs.mpr (.inl ⟨hx, hnot⟩)), Below.refl x⟩
  have hkept : ∀ f ∈ files, isChild up f d = false → f ∈ keptFiles up files d := by
    intro f hf hnot
    exact List.mem_filter.mpr ⟨hf, by rw [hnot]; rfl⟩
  rcases List.mem_append.mp he with hfile | hdir
  · by_cases hchild : isChild up e d = true
    · obtain ⟨e', he', hbelow, hor⟩ := hlost e hfile hchild
      by_cases hdir : e' ∈ dirs
      · obtain ⟨e'', he'', hbelow'⟩ := hdirs e' hdir
        exact ⟨e'', he'', hbelow'.trans hbelow⟩
      · -- another file is not what the directory is in
        have hne : e' ≠ e := hor.resolve_left hdir
        have hfile' : e' ∈ files := (List.mem_append.mp he').resolve_right hdir
        have hnot : isChild up e' d = false :=
          Bool.eq_false_iff.mpr fun h => hne (eq_of_isChild h hchild)
        exact ⟨e', List.mem_append_left _ (hkept e' hfile' hnot), hbelow⟩
    · have hnot : isChild up e d = false := Bool.eq_false_iff.mpr hchild
      exact ⟨e, List.mem_append_left _ (hkept e hfile hnot), Below.refl e⟩
  · exact hdirs e hdir

theorem apart_next (hap : Apart up files dirs) (hinside : NotInside up files dirs d) :
    Apart up (keptFiles up files d) (nextDirs up dirs d) := by
  intro x hx e he
  rcases mem_nextDirs.mp hx with ⟨hold, -⟩ | ⟨rfl, hparent⟩
  · rcases List.mem_append.mp he with he | he
    · exact hap x hold e (List.mem_append_left _ (List.mem_of_mem_filter he))
    · rcases mem_nextDirs.mp he with ⟨he, -⟩ | ⟨rfl, hparent⟩
      · exact hap x hold e (List.mem_append_right _ he)
      · exact hparent x hold
  · rcases List.mem_append.mp he with he | he
    · -- the directory is new, so it is in none that is reported
      have hfiles : ∀ f ∈ files, isChild up x f = false := by
        refine hinside.resolve_left ?_
        rintro ⟨y, hy, hchild⟩
        exact absurd (hchild.symm.trans (hparent y hy)) Bool.noConfusion
      exact hfiles e (List.mem_of_mem_filter he)
    · rcases mem_nextDirs.mp he with ⟨-, hnot⟩ | ⟨rfl, -⟩
      · exact hnot
      · exact isChild_self _

theorem covered_apart_dir (hcov : Covered up files dirs batch) (hap : Apart up files dirs)
    (hfiles : ∀ f ∈ files, f ∈ batch) :
    (Covered up (keptFiles up files d) (nextDirs up dirs d) (batch ++ [d]) ∧
      Apart up (keptFiles up files d) (nextDirs up dirs d)) ↔
      NotLost up files dirs d ∧ NotInside up files dirs d := by
  constructor
  · rintro ⟨hcov', hap'⟩
    constructor
    · intro f hf hchild
      obtain ⟨e, he, hbelow⟩ := hcov' f (List.mem_append_left _ (hfiles f hf))
      rcases List.mem_append.mp he with he | he
      · obtain ⟨he, hnot⟩ := List.mem_filter.mp he
        refine ⟨e, List.mem_append_left _ he, hbelow, .inr ?_⟩
        rintro rfl
        rw [hchild] at hnot
        exact Bool.noConfusion hnot
      · rcases mem_nextDirs.mp he with ⟨he, -⟩ | ⟨rfl, -⟩
        · exact ⟨e, List.mem_append_right _ he, hbelow, .inl he⟩
        · -- the directory is longer than what it is in
          have hlength := length_of_isChild hchild
          have hle := hbelow.length_le
          omega
    · by_cases hparent : ∀ y ∈ dirs, isChild up y d = false
      · refine .inr fun f hf => Bool.eq_false_iff.mpr fun hchild => ?_
        have hkept : f ∈ keptFiles up files d :=
          List.mem_filter.mpr ⟨hf, by rw [isChild_swap hchild]; rfl⟩
        have hfalse := hap' d (mem_nextDirs.mpr (.inr ⟨rfl, hparent⟩)) f
          (List.mem_append_left _ hkept)
        exact absurd (hchild.symm.trans hfalse) Bool.noConfusion
      · push Not at hparent
        obtain ⟨y, hy, hyd⟩ := hparent
        exact .inl ⟨y, hy, by simpa using hyd⟩
  · rintro ⟨hlost, hinside⟩
    refine ⟨fun p hp => ?_, apart_next hap hinside⟩
    rcases List.mem_append.mp hp with hp | hp
    · obtain ⟨e, he, hbelow⟩ := hcov p hp
      obtain ⟨e', he', hbelow'⟩ := exists_below_next hlost he
      exact ⟨e', he', hbelow'.trans hbelow⟩
    · rw [List.mem_singleton.mp hp]
      by_cases hparent : ∀ y ∈ dirs, isChild up y d = false
      · exact ⟨d, List.mem_append_right _ (mem_nextDirs.mpr (.inr ⟨rfl, hparent⟩)), Below.refl d⟩
      · push Not at hparent
        obtain ⟨y, hy, hyd⟩ := hparent
        have hyd : isChild up y d = true := by simpa using hyd
        obtain ⟨e, he, hbelow⟩ := exists_below_next hlost (List.mem_append_right files hy)
        exact ⟨e, he, hbelow.trans (Below.of_isChild hyd)⟩

end Tree

/-! ### The log -/

/-- What `std::path` makes of a path on a system: its components, and those which are no root and
no prefix, so that a path has a parent when it ends in one. -/
structure PathRules (κ : Type) where
  components : Path → List κ
  hasParent : κ → Bool

/-- `Normal`, `CurDir` and `ParentDir` have a parent before them. -/
def Component.hasParent : Component → Bool
  | .pathPrefix _ _ => false
  | .rootDir => false
  | _ => true

/-- `Path::components` on Unix. -/
def unixComponents (p : Path) : List Component :=
  let start : List Component :=
    if p.head? = some '/' then [.rootDir]
    else if (p.splitOn '/').head? = some ['.'] then [.curDir]
    else []
  start ++ (pathKey p).map fun c => if c = ['.', '.'] then .parentDir else .normal c

def unixRules : PathRules Component := ⟨unixComponents, Component.hasParent⟩

structure FileRemoveFile where
  id : Int32
  path : Path
  fileNum : Int32

structure FileRemoveDir where
  id : Int32
  path : Path
  recursive : Bool

structure FileActionLog where
  id : Int32
  connId : Int32
  path : Path
  dir : Bool
  deriving DecidableEq

/-- `FileRemoveLogControl`. Times are in nanoseconds. -/
structure FileRemoveLogControl where
  connId : Int32
  instant : ℕ
  removedFiles : List FileRemoveFile
  removedDirs : List FileRemoveDir

namespace FileRemoveLogControl

variable {κ : Type} [DecidableEq κ] (rules : PathRules κ)

def new (connId : Int32) (now : ℕ) : FileRemoveLogControl := ⟨connId, now, [], []⟩

def directChild (parent child : Path) : Bool :=
  isChild rules.hasParent (rules.components parent) (rules.components child)

variable (c : FileRemoveLogControl)

def fileLog (f : FileRemoveFile) : FileActionLog := ⟨f.id, c.connId, f.path, false⟩

def dirLog (d : FileRemoveDir) : FileActionLog := ⟨d.id, c.connId, d.path, true⟩

def onRemoveFile (now : ℕ) (f : FileRemoveFile) : FileRemoveLogControl × Option FileActionLog :=
  ({ c with instant := now, removedFiles := c.removedFiles ++ [f] }, some (c.fileLog f))

def onRemoveDir (now : ℕ) (d : FileRemoveDir) : FileRemoveLogControl × Option FileActionLog :=
  let removedFiles := c.removedFiles.filter fun f => !directChild rules f.path d.path
  let removedDirs := c.removedDirs.filter fun x => !directChild rules d.path x.path
  let removedDirs :=
    if !removedDirs.any fun x => directChild rules x.path d.path then removedDirs ++ [d]
    else removedDirs
  ({ c with instant := now, removedFiles := removedFiles, removedDirs := removedDirs },
    some (c.dirLog d))

def logs : List FileActionLog := c.removedFiles.map c.fileLog ++ c.removedDirs.map c.dirLog

/-- Whether `on_timer` reports at this time. -/
def due (now : ℕ) : Bool := !((now - c.instant) / 1000000000 < 1)

def onTimer (now : ℕ) : FileRemoveLogControl × List FileActionLog :=
  if c.due now then ({ c with removedFiles := [], removedDirs := [] }, c.logs) else (c, [])

end FileRemoveLogControl

/-! ### A connection -/

inductive Call
  | removeFile (now : ℕ) (f : FileRemoveFile)
  | removeDir (now : ℕ) (d : FileRemoveDir)
  | timer (now : ℕ)

/-- The control, and what has been removed since the last report. -/
structure Collected where
  control : FileRemoveLogControl
  batch : List Path

structure Report where
  batch : List Path
  logs : List FileActionLog

section Runs

variable {κ : Type} [DecidableEq κ] (rules : PathRules κ)

/-- `a` is `p`, or one of its ancestors. -/
def Ancestor (a p : Path) : Prop :=
  Below rules.hasParent (rules.components a) (rules.components p)

/-- Each removed path is reported, or one of its ancestors is. -/
def Report.Covers (r : Report) : Prop :=
  ∀ p ∈ r.batch, ∃ e ∈ r.logs, Ancestor rules e.path p

/-- Nothing reported is a direct child of a reported directory. -/
def Report.Minimal (r : Report) : Prop :=
  ∀ d ∈ r.logs, d.dir = true → ∀ e ∈ r.logs,
    FileRemoveLogControl.directChild rules d.path e.path = false

def Collected.report (s : Collected) : Report := ⟨s.batch, s.control.logs⟩

/-- A connection makes no use of what the two first calls return. -/
def step (s : Collected) : Call → Collected × List Report
  | .removeFile now f => (⟨(s.control.onRemoveFile now f).1, s.batch ++ [f.path]⟩, [])
  | .removeDir now d => (⟨(s.control.onRemoveDir rules now d).1, s.batch ++ [d.path]⟩, [])
  | .timer now =>
    if s.control.due now then
      (⟨(s.control.onTimer now).1, []⟩, [⟨s.batch, (s.control.onTimer now).2⟩])
    else (s, [])

def machine : Machine Collected Call Report := ⟨step rules⟩

/-- The report covers what has been removed and is minimal. -/
def Sound (s : Collected) : Prop := s.report.Covers rules ∧ s.report.Minimal rules

/-- The condition on one removal: a file is in no reported directory, and a directory neither is in
a file that would be lost with it nor comes to be reported with a file directly inside. -/
def Harmless (s : Collected) : Call → Prop
  | .removeFile _ f =>
    ∀ x ∈ s.control.removedDirs, FileRemoveLogControl.directChild rules x.path f.path = false
  | .removeDir _ d =>
    (∀ f ∈ s.control.removedFiles, FileRemoveLogControl.directChild rules f.path d.path = true →
      ∃ e ∈ s.control.logs, Ancestor rules e.path f.path ∧
        (e.dir = true ∨ rules.components e.path ≠ rules.components f.path)) ∧
    ((∃ x ∈ s.control.removedDirs,
        FileRemoveLogControl.directChild rules x.path d.path = true) ∨
      ∀ f ∈ s.control.removedFiles,
        FileRemoveLogControl.directChild rules d.path f.path = false)
  | .timer _ => True

/-! ### What the log does to the paths -/

/-- The components of what has been collected, and of what has been removed. -/
def fileKeys (c : FileRemoveLogControl) : List (List κ) :=
  c.removedFiles.map fun f => rules.components f.path

def dirKeys (c : FileRemoveLogControl) : List (List κ) :=
  c.removedDirs.map fun d => rules.components d.path

def batchKeys (s : Collected) : List (List κ) := s.batch.map rules.components

variable {rules} {s : Collected}

omit [DecidableEq κ] in
theorem fileKeys_onRemoveFile (c : FileRemoveLogControl) (now : ℕ) (f : FileRemoveFile) :
    fileKeys rules (c.onRemoveFile now f).1 = fileKeys rules c ++ [rules.components f.path] :=
  List.map_append

theorem fileKeys_onRemoveDir (c : FileRemoveLogControl) (now : ℕ) (d : FileRemoveDir) :
    fileKeys rules (c.onRemoveDir rules now d).1 =
      keptFiles rules.hasParent (fileKeys rules c) (rules.components d.path) := by
  unfold fileKeys keptFiles FileRemoveLogControl.onRemoveDir FileRemoveLogControl.directChild
  rw [List.filter_map]
  rfl

theorem dirKeys_onRemoveDir (c : FileRemoveLogControl) (now : ℕ) (d : FileRemoveDir) :
    dirKeys rules (c.onRemoveDir rules now d).1 =
      nextDirs rules.hasParent (dirKeys rules c) (rules.components d.path) := by
  have hkept : keptDirs rules.hasParent (dirKeys rules c) (rules.components d.path) =
      (c.removedDirs.filter fun x =>
        !FileRemoveLogControl.directChild rules d.path x.path).map
          fun x => rules.components x.path := by
    unfold keptDirs dirKeys FileRemoveLogControl.directChild
    rw [List.filter_map]
    rfl
  unfold nextDirs
  rw [hkept, List.any_map]
  unfold dirKeys FileRemoveLogControl.onRemoveDir
  dsimp only
  -- the directories that are left are the same on both sides
  generalize (c.removedDirs.filter fun x =>
    !FileRemoveLogControl.directChild rules d.path x.path) = kept
  by_cases hany : (kept.any fun x => FileRemoveLogControl.directChild rules x.path d.path) = true
  · rw [hany, Bool.not_true, if_neg Bool.false_ne_true]
    exact (if_pos hany).symm
  · rw [Bool.not_eq_true] at hany
    rw [hany, Bool.not_false, if_pos rfl, List.map_append]
    exact (if_neg (Bool.eq_false_iff.mp hany)).symm

theorem mem_logs {c : FileRemoveLogControl} {e : FileActionLog} :
    e ∈ c.logs ↔ (∃ f ∈ c.removedFiles, c.fileLog f = e) ∨ ∃ d ∈ c.removedDirs, c.dirLog d = e := by
  unfold FileRemoveLogControl.logs
  rw [List.mem_append, List.mem_map, List.mem_map]

variable {P : List κ → Prop}

omit [DecidableEq κ] in
theorem exists_mem_logs {c : FileRemoveLogControl} :
    (∃ e ∈ c.logs, P (rules.components e.path)) ↔
      ∃ k ∈ fileKeys rules c ++ dirKeys rules c, P k := by
  constructor
  · rintro ⟨e, he, hP⟩
    refine ⟨_, ?_, hP⟩
    rcases mem_logs.mp he with ⟨f, hf, rfl⟩ | ⟨d, hd, rfl⟩
    · exact List.mem_append_left _ (List.mem_map.mpr ⟨f, hf, rfl⟩)
    · exact List.mem_append_right _ (List.mem_map.mpr ⟨d, hd, rfl⟩)
  · rintro ⟨k, hk, hP⟩
    rcases List.mem_append.mp hk with hk | hk
    · obtain ⟨f, hf, rfl⟩ := List.mem_map.mp hk
      exact ⟨c.fileLog f, mem_logs.mpr (.inl ⟨f, hf, rfl⟩), hP⟩
    · obtain ⟨d, hd, rfl⟩ := List.mem_map.mp hk
      exact ⟨c.dirLog d, mem_logs.mpr (.inr ⟨d, hd, rfl⟩), hP⟩

omit [DecidableEq κ] in
theorem forall_mem_logs {c : FileRemoveLogControl} :
    (∀ e ∈ c.logs, P (rules.components e.path)) ↔
      ∀ k ∈ fileKeys rules c ++ dirKeys rules c, P k := by
  let Q (k : List κ) : Prop := ¬ P k
  have h : (∃ e ∈ c.logs, Q (rules.components e.path)) ↔
      ∃ k ∈ fileKeys rules c ++ dirKeys rules c, Q k := exists_mem_logs
  constructor
  · intro hall
    by_contra hnot
    push Not at hnot
    obtain ⟨e, he, hP⟩ := h.mpr hnot
    exact hP (hall e he)
  · intro hall
    by_contra hnot
    push Not at hnot
    obtain ⟨k, hk, hP⟩ := h.mp hnot
    exact hP (hall k hk)

omit [DecidableEq κ] in
theorem forall_dir_logs {c : FileRemoveLogControl} :
    (∀ e ∈ c.logs, e.dir = true → P (rules.components e.path)) ↔
      ∀ k ∈ dirKeys rules c, P k := by
  constructor
  · intro h k hk
    obtain ⟨d, hd, rfl⟩ := List.mem_map.mp hk
    exact h (c.dirLog d) (mem_logs.mpr (.inr ⟨d, hd, rfl⟩)) rfl
  · intro h e he hdir
    rcases mem_logs.mp he with ⟨f, -, rfl⟩ | ⟨d, hd, rfl⟩
    · cases hdir
    · exact h _ (List.mem_map.mpr ⟨d, hd, rfl⟩)

theorem exists_other_log {c : FileRemoveLogControl} (f : List κ) :
    (∃ k ∈ fileKeys rules c ++ dirKeys rules c,
        Below rules.hasParent k f ∧ (k ∈ dirKeys rules c ∨ k ≠ f)) ↔
      ∃ e ∈ c.logs, Below rules.hasParent (rules.components e.path) f ∧
        (e.dir = true ∨ rules.components e.path ≠ f) := by
  constructor
  · rintro ⟨k, hk, hbelow, hor⟩
    by_cases hdir : k ∈ dirKeys rules c
    · obtain ⟨d, hd, rfl⟩ := List.mem_map.mp hdir
      exact ⟨c.dirLog d, mem_logs.mpr (.inr ⟨d, hd, rfl⟩), hbelow, .inl rfl⟩
    · obtain ⟨g, hg, rfl⟩ := List.mem_map.mp ((List.mem_append.mp hk).resolve_right hdir)
      exact ⟨c.fileLog g, mem_logs.mpr (.inl ⟨g, hg, rfl⟩), hbelow, .inr (hor.resolve_left hdir)⟩
  · rintro ⟨e, he, hbelow, hor⟩
    rcases mem_logs.mp he with ⟨g, hg, rfl⟩ | ⟨d, hd, rfl⟩
    · have hne := hor.resolve_left Bool.false_ne_true
      exact ⟨_, List.mem_append_left _ (List.mem_map.mpr ⟨g, hg, rfl⟩), hbelow, .inr hne⟩
    · have hdir : rules.components d.path ∈ dirKeys rules c := List.mem_map.mpr ⟨d, hd, rfl⟩
      exact ⟨_, List.mem_append_right _ hdir, hbelow, .inl hdir⟩

theorem sound_iff_keys :
    Sound rules s ↔
      Covered rules.hasParent (fileKeys rules s.control) (dirKeys rules s.control)
        (batchKeys rules s) ∧
      Apart rules.hasParent (fileKeys rules s.control) (dirKeys rules s.control) := by
  refine and_congr ?_ ?_
  · unfold Covered batchKeys
    rw [List.forall_mem_map]
    exact forall₂_congr fun p _ => exists_mem_logs (P := fun k => Below _ k (rules.components p))
  · unfold Apart
    rw [← forall_dir_logs]
    exact forall₃_congr fun d _ _ =>
      forall_mem_logs (P := fun k => isChild rules.hasParent (rules.components d.path) k = false)

/-! ### Runs -/

/-- Every file that is collected has been removed since the last report. -/
def FilesInBatch (rules : PathRules κ) (s : Collected) : Prop :=
  ∀ f ∈ fileKeys rules s.control, f ∈ batchKeys rules s

theorem FilesInBatch.next (h : FilesInBatch rules s) (e : Call) :
    FilesInBatch rules ((machine rules).next s e) := by
  have hbatch : ∀ p : Path, batchKeys rules ⟨s.control, s.batch ++ [p]⟩ =
      batchKeys rules s ++ [rules.components p] := fun p => List.map_append
  cases e with
  | removeFile now f =>
    intro k hk
    have hk : k ∈ fileKeys rules (s.control.onRemoveFile now f).1 := hk
    have hgoal : k ∈ batchKeys rules ⟨s.control, s.batch ++ [f.path]⟩ := by
      rw [fileKeys_onRemoveFile] at hk
      rw [hbatch]
      exact List.mem_append.mpr ((List.mem_append.mp hk).imp_left (h k))
    exact hgoal
  | removeDir now d =>
    intro k hk
    have hk : k ∈ fileKeys rules (s.control.onRemoveDir rules now d).1 := hk
    have hgoal : k ∈ batchKeys rules ⟨s.control, s.batch ++ [d.path]⟩ := by
      rw [fileKeys_onRemoveDir] at hk
      rw [hbatch]
      exact List.mem_append_left _ (h k (List.mem_of_mem_filter hk))
    exact hgoal
  | timer now =>
    unfold Machine.next machine step
    dsimp only
    by_cases hdue : s.control.due now = true
    · rw [if_pos hdue]
      intro k hk
      unfold FileRemoveLogControl.onTimer at hk
      rw [if_pos hdue] at hk
      cases hk
    · rw [if_neg hdue]
      exact h

theorem sound_of_nil {s : Collected} (hfiles : s.control.removedFiles = [])
    (hdirs : s.control.removedDirs = []) (hbatch : s.batch = []) : Sound rules s := by
  rw [sound_iff_keys]
  unfold Covered Apart fileKeys dirKeys batchKeys
  rw [hfiles, hdirs, hbatch]
  exact ⟨by simp, by simp⟩

theorem sound_next (hbatch : FilesInBatch rules s) (hs : Sound rules s) (e : Call) :
    Sound rules ((machine rules).next s e) ↔ Harmless rules s e := by
  obtain ⟨hcov, hap⟩ := sound_iff_keys.mp hs
  cases e with
  | removeFile now f =>
    have hfile := covered_apart_file (f := rules.components f.path) hcov hap
    have hnext : batchKeys rules ((machine rules).next s (.removeFile now f)) =
        batchKeys rules s ++ [rules.components f.path] := List.map_append
    rw [sound_iff_keys, hnext]
    unfold Machine.next machine step
    rw [fileKeys_onRemoveFile]
    exact hfile.trans (List.forall_mem_map (P := fun k => isChild _ k _ = false))
  | removeDir now d =>
    have hdir := covered_apart_dir (d := rules.components d.path) hcov hap hbatch
    have hnext : batchKeys rules ((machine rules).next s (.removeDir now d)) =
        batchKeys rules s ++ [rules.components d.path] := List.map_append
    rw [sound_iff_keys, hnext]
    unfold Machine.next machine step
    rw [fileKeys_onRemoveDir, dirKeys_onRemoveDir, hdir]
    refine and_congr ?_ ?_
    · unfold NotLost fileKeys
      rw [List.forall_mem_map]
      exact forall₃_congr fun f _ _ => exists_other_log (rules.components f.path)
    · unfold NotInside fileKeys dirKeys
      rw [List.forall_mem_map]
      simp only [List.mem_map, exists_exists_and_eq_and]
      rfl
  | timer now =>
    unfold Machine.next machine step
    dsimp only
    by_cases hdue : s.control.due now = true
    · rw [if_pos hdue]
      unfold FileRemoveLogControl.onTimer
      rw [if_pos hdue]
      exact ⟨fun _ => trivial, fun _ => sound_of_nil rfl rfl rfl⟩
    · rw [if_neg hdue]
      exact ⟨fun _ => trivial, fun _ => hs⟩

def Call.isFile : Call → Bool
  | .removeFile _ _ => true
  | _ => false

theorem harmless_of_dirs {calls : List Call} (hs : s.control.removedFiles = [])
    (hdirs : ∀ e ∈ calls, e.isFile = false) : (machine rules).Meets (Harmless rules) s calls := by
  induction calls generalizing s with
  | nil => exact Machine.meets_nil s
  | cons e calls ih =>
    obtain ⟨hhead, htail⟩ := List.forall_mem_cons.mp hdirs
    cases e with
    | removeFile now f => exact absurd hhead Bool.noConfusion
    | removeDir now d =>
      refine Machine.meets_cons.mpr ⟨?_, ih ?_ htail⟩
      · unfold Harmless
        rw [hs]
        exact ⟨by simp, .inr (by simp)⟩
      · unfold Machine.next machine step FileRemoveLogControl.onRemoveDir
        dsimp only
        rw [hs]
        rfl
    | timer now =>
      refine Machine.meets_cons.mpr ⟨trivial, ih ?_ htail⟩
      unfold Machine.next machine step FileRemoveLogControl.onTimer
      dsimp only
      split
      · rfl
      · exact hs

instance (r : Report) : Decidable (r.Minimal rules) :=
  inferInstanceAs (Decidable (∀ d ∈ r.logs, d.dir = true → ∀ e ∈ r.logs,
    FileRemoveLogControl.directChild rules d.path e.path = false))

theorem report_of_mem_out {e : Call} {r : Report} (hr : r ∈ (machine rules).out s e) :
    r = s.report := by
  cases e with
  | removeFile | removeDir => cases hr
  | timer now =>
    unfold Machine.out machine step at hr
    dsimp only at hr
    by_cases hdue : s.control.due now = true
    · rw [if_pos hdue] at hr
      unfold FileRemoveLogControl.onTimer at hr
      rw [if_pos hdue] at hr
      exact List.mem_singleton.mp hr
    · rw [if_neg hdue] at hr
      cases hr

def start (connId : Int32) (now : ℕ) : Collected := ⟨.new connId now, []⟩

/-- **The log is right at every moment exactly when every removal is harmless**, and then so is
every report. -/
theorem removals_sound_iff (rules : PathRules κ) (connId : Int32) (now : ℕ) (calls : List Call) :
    ((∀ pre, pre <+: calls → Sound rules ((machine rules).run (start connId now) pre)) ↔
      (machine rules).Meets (Harmless rules) (start connId now) calls) ∧
    ((machine rules).Meets (Harmless rules) (start connId now) calls →
      ∀ r ∈ (machine rules).outputs (start connId now) calls,
        r.Covers rules ∧ r.Minimal rules) := by
  have hstart : Sound rules (start connId now) := sound_of_nil rfl rfl rfl
  have hbatch : FilesInBatch rules (start connId now) := fun f hf => absurd hf List.not_mem_nil
  refine ⟨Machine.meets_iff_inv hstart hbatch (fun _ e h => h.next e)
    fun _ e hJ hI => sound_next hJ hI e, fun hmeets => ?_⟩
  -- the log is right before every step, so what a timer takes from it is
  refine hmeets.inv_outputs (I := fun s => Sound rules s ∧ FilesInBatch rules s)
    ⟨hstart, hbatch⟩ fun s e hharmless hinv => ?_
  refine ⟨⟨(sound_next hinv.2 hinv.1 e).mpr hharmless, hinv.2.next e⟩, fun r hr => ?_⟩
  rw [report_of_mem_out hr]
  exact hinv.1

/-- A directory is removed, and then the one it is in. -/
def nested : List Call :=
  [.removeDir 0 ⟨1, "a/b".toList, false⟩, .removeDir 0 ⟨2, "a".toList, false⟩, .timer 1000000000]

theorem removals_sound_iff_nested :
    ((machine unixRules).outputs (start 0 0) nested).length = 1 ∧
      ∀ r ∈ (machine unixRules).outputs (start 0 0) nested,
        r.Covers unixRules ∧ r.Minimal unixRules :=
  ⟨by decide +kernel,
    (removals_sound_iff unixRules 0 0 nested).2 (harmless_of_dirs rfl (by decide))⟩

/-- A file is removed, and then the directory it is in: both are reported. -/
theorem file_beside_directory :
    ¬ ∀ r ∈ (machine unixRules).outputs (start 0 0)
        [.removeFile 0 ⟨1, "a/f".toList, 0⟩, .removeDir 0 ⟨2, "a".toList, false⟩,
          .timer 1000000000],
      r.Minimal unixRules := by
  decide +kernel

end Runs

end LibRustdesk.Desktop.RemoveLog
