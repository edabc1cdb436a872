import LibRustdesk.Clipboard.Lexical
import LibRustdesk.FileTransfer.Job
import LibRustdesk.FileTransfer.WindowsJoin

/-!
# A transfer stays below its base

The names of a transfer come from the peer. `set_files` validates them, and every function of a
generic job that makes a path of one validates it again, joins it to the base, and appends a suffix.
Here these functions are followed by what they ask of the file system (`Call`), for both readings of
a path: that of Unix, and that of Windows.

* `Place` — what is left of a path when it is read: a prefix, a root and names. `Place.normal` is
  its lexical normalisation.
* `Os.calls` — the calls of a job over any sequence of blocks and of the other functions.
* `calls_contained` — once `set_files` has accepted a list, every file that is created, renamed,
  truncated or deleted is the base or below it, or the base with a suffix; the directories that are
  made are those of the base itself, or below it.

Two things are not so for every base. `write` makes the directories above a base that is not there.
And a Windows base that ends within its prefix is another place than what is joined to it, which is
why the base has to be `Complete`. `base_is_left` runs into both.

Symbolic links are not followed: what the walk over the components finds is arbitrary.
-/

namespace LibRustdesk.FileTransfer

open Clipboard (push foldl_push isAbsolute pathKey_pathJoin)

/-! ### Places -/

structure Place where
  lead : Option Windows.Prefix
  root : Bool
  names : PathKey
  deriving DecidableEq, Repr

namespace Place

/-- Lexical normalisation: every `..` goes up. -/
def normal (d : Place) : PathKey := d.names.foldl (push d.root) []

/-- After normalisation `d` is the base or a descendant of it. -/
def Within (base d : Place) : Prop :=
  d.lead = base.lead ∧ d.root = base.root ∧ base.normal <+: d.normal

/-- After normalisation `d` is the base. -/
def Same (base d : Place) : Prop :=
  d.lead = base.lead ∧ d.root = base.root ∧ d.normal = base.normal

/-- `d` is a directory that the path of the base goes through. -/
def Above (base d : Place) : Prop :=
  d.lead = base.lead ∧ d.root = base.root ∧ d.names <+: base.names

/-- `d` has the names of the base, and others behind them. -/
structure Extends (base d : Place) (added : PathKey) : Prop where
  lead : d.lead = base.lead
  root : d.root = base.root
  names : d.names = base.names ++ added

variable {added : PathKey}

theorem Extends.normal {base d : Place} (h : base.Extends d added)
    (hup : ['.', '.'] ∉ added) : d.normal = base.normal ++ added := by
  unfold Place.normal
  rw [h.names, h.root, List.foldl_append, foldl_push hup]

theorem Extends.within {base d : Place} (h : base.Extends d added)
    (hup : ['.', '.'] ∉ added) : base.Within d :=
  ⟨h.lead, h.root, added, (h.normal hup).symm⟩

theorem Extends.same {base d : Place} (h : base.Extends d []) : base.Same d := by
  refine ⟨h.lead, h.root, ?_⟩
  rw [h.normal List.not_mem_nil, List.append_nil]

theorem Extends.take {base d : Place} (h : base.Extends d added)
    (hup : ['.', '.'] ∉ added) (k : ℕ) :
    base.Within { d with names := d.names.take k } ∨
      base.Above { d with names := d.names.take k } := by
  by_cases hk : k ≤ base.names.length
  · refine Or.inr ⟨h.lead, h.root, ?_⟩
    rw [h.names, List.take_append_of_le_length hk]
    exact List.take_prefix _ _
  · have htake : d.names.take k = base.names ++ added.take (k - base.names.length) := by
      rw [h.names, List.take_append, List.take_of_length_le (Nat.le_of_not_le hk)]
    have hextends : base.Extends { d with names := d.names.take k }
        (added.take (k - base.names.length)) := ⟨h.lead, h.root, htake⟩
    exact Or.inl (hextends.within fun hmem => hup (List.mem_of_mem_take hmem))

end Place

/-! ### The two systems -/

/-- Which branch of `cfg(windows)`. -/
inductive Os
  | unix
  | windows
  deriving DecidableEq, Repr

namespace Os

def place : Os → Path → Place
  | .unix, p => ⟨none, isAbsolute p, pathKey p⟩
  | .windows, p => ⟨Windows.parsePrefix p, Windows.hasRoot p, Windows.names p⟩

def Complete : Os → Path → Prop
  | .unix, _ => True
  | .windows, p => Windows.Complete p

def join : Os → Path → Path → Path
  | .unix => FileTransfer.join
  | .windows => Windows.join

def validateFileNameNoTraversal : Os → Path → Except String Unit
  | .unix => FileTransfer.validateFileNameNoTraversal
  | .windows => Windows.validateFileNameNoTraversal

def validateNoSymlinkComponents : Os → Except String Unit → Path → Except String Unit
  | .unix => FileTransfer.validateNoSymlinkComponents
  | .windows => Windows.validateNoSymlinkComponents

def joinValidatedPath : Os → Except String Unit → Path → Path → Except String Path
  | .unix => FileTransfer.joinValidatedPath
  | .windows => Windows.joinValidatedPath

variable (os : Os)

def validateTransferFileNames (files : List FileEntry) : Except String Unit :=
  match files with
  | [⟨[], _, _⟩] => .ok ()
  | _ => files.forM fun file =>
    if file.name.isEmpty then .error "empty file name in multi-file transfer"
    else os.validateFileNameNoTraversal file.name

/-- `set_files`; `onDisk` is what the walk over the components of a name finds. -/
def setFiles (onDisk : Path → Except String Unit) (job : TransferJob) (files : List FileEntry) :
    Except String TransferJob := do
  os.validateTransferFileNames files
  match job.dataSource with
  | .filePath _ =>
    files.forM fun file => os.validateNoSymlinkComponents (onDisk file.name) file.name
  | .memoryCursor _ _ => pure ()
  return { job with totalSize := TransferJob.totalOf files, files := files }

def resolveEntryPath (job : TransferJob) (onDisk : Except String Unit) (base name : Path) :
    Option Path :=
  if job.type = .generic then (os.joinValidatedPath onDisk base name).toOption
  else some (os.join base name)

end Os

/-! ### What a job asks of the file system -/

inductive Call
  /-- One directory that `create_dir_all` finds missing. -/
  | createDir (d : Place)
  /-- `File::create`, which truncates a file that is there. -/
  | create (path : Path)
  /-- `fs::write`. -/
  | write (path : Path)
  | removeFile (path : Path)
  | rename (src dst : Path)
  | setFileMtime (path : Path)
  deriving DecidableEq, Repr

structure Answers where
  env : WriteEnv
  isDir : Place → Bool
  digestExists : Bool
  /-- What `File::create` returns. -/
  file : FileHandle

namespace Os

variable (os : Os)

def modifyTimeCalls (onDisk : Except String Unit) (job : TransferJob) : List Call :=
  if job.type = .printer then []
  else match job.dataSource, job.currentEntry with
    | .filePath p, some entry =>
      match os.resolveEntryPath job onDisk p entry.name with
      | some path =>
        [.removeFile (digestPath path), .rename (downloadPath path) path, .setFileMtime path]
      | none => []
    | _, _ => []

def removeDownloadFileCalls (onDisk : Except String Unit) (job : TransferJob) : List Call :=
  if job.type = .printer then []
  else match job.dataSource, job.currentEntry with
    | .filePath p, some entry =>
      match os.resolveEntryPath job onDisk p entry.name with
      | some path => [.removeFile (downloadPath path), .removeFile (digestPath path)]
      | none => []
    | _, _ => []

/-- The directories that `create_dir_all` of the parent of `path` makes: those on the way that are
not there. -/
def missingDirs (isDir : Place → Bool) (path : Path) : List Place :=
  ((List.range ((os.place path).names.length - 1)).map fun k =>
    { os.place path with names := (os.place path).names.take (k + 1) }).filter fun d => !isDir d

def removeDigestCalls (w : Answers) : Option Path → List Call
  | some dp => if w.digestExists then [.removeFile dp] else []
  | none => []

def writeDigestCalls : Option Path → List Call
  | some dp => [.write dp]
  | none => []

/-- Creates the file at `path` and opens it; `digest` is where its digest goes. -/
def createFileCalls (w : Answers) (job : TransferJob) (path : Path) (digest : Option Path) :
    List Call × TransferJob :=
  if digest.isSome && w.digestExists && !w.env.removeDigest.isOk then
    (removeDigestCalls w digest, job)
  else
    match w.env.create with
    | .error _ => (removeDigestCalls w digest ++ [.create path], job)
    | .ok () =>
      (removeDigestCalls w digest ++ .create path :: writeDigestCalls digest,
        { job with dataStream := some (.fileStream w.file) })

/-- `sync_all` of the file that is open. -/
def syncAll (env : WriteEnv) (job : TransferJob) : Except String Unit :=
  match job.dataStream with
  | some (.fileStream _) => env.syncAll
  | _ => .ok ()

/-- Leaves the current file for the file of the block. -/
def switchFileCalls (w : Answers) (job : TransferJob) (p : Path) (fileNum : Int32)
    (entry : FileEntry) : List Call × TransferJob :=
  let finished := os.modifyTimeCalls w.env.finish.onDisk job
  match syncAll w.env job with
  | .error _ => (finished, job)
  | .ok () =>
    let job := { job with fileNum := fileNum }
    if job.type = .printer then
      let (calls, job) := createFileCalls w job p none
      (finished ++ calls, job)
    else
      match os.joinValidatedPath w.env.onDisk p entry.name with
      | .error _ => (finished, job)
      | .ok path =>
        let (calls, job) := createFileCalls w job (downloadPath path) (some (digestPath path))
        (finished ++ (os.missingDirs w.isDir path).map .createDir ++ calls, job)

/-- `write`. Its second half writes to the stream that is open, and names no path. -/
def writeCalls (w : Answers) (job : TransferJob) (block : FileTransferBlock) :
    List Call × TransferJob :=
  if block.id ≠ job.id then ([], job)
  else match job.dataSource with
    | .filePath p =>
      match job.files[asUsize block.fileNum]? with
      | none => ([], job)
      | some entry =>
        if asUsize block.fileNum ≠ asUsize job.fileNum ∨ job.dataStream = none then
          os.switchFileCalls w job p block.fileNum entry
        else ([], job)
    | .memoryCursor data pos =>
      if job.dataStream = none then
        ([], { job with dataStream := some (.bufStream data pos) })
      else ([], job)

/-- A function of the job that is called, with the answers it gets. -/
inductive Step
  | write (w : Answers) (block : FileTransferBlock)
  | modifyTime (onDisk : Except String Unit)
  | removeDownloadFile (onDisk : Except String Unit)
  /-- Any other function, which may move to another file, and open or close one to be read or
  resumed. -/
  | other (fileNum : Int32) (dataStream : Option DataStream)

def step (job : TransferJob) : Step → List Call × TransferJob
  | .write w block => os.writeCalls w job block
  | .modifyTime onDisk => (os.modifyTimeCalls onDisk job, job)
  | .removeDownloadFile onDisk => (os.removeDownloadFileCalls onDisk job, job)
  | .other fileNum dataStream => ([], { job with fileNum := fileNum, dataStream := dataStream })

def calls (job : TransferJob) : List Step → List Call
  | [] => []
  | s :: steps => (os.step job s).1 ++ calls (os.step job s).2 steps

end Os

/-! ### Names that are joined -/

/-- What a name ends in when the file is not complete. -/
def IsSuffix (s : Path) : Prop := s = ".download".toList ∨ s = ".digest".toList

theorem IsSuffix.windows {s : Path} (hs : IsSuffix s) : Windows.Suffix s := by
  have hall : s.all (fun a => !Windows.isSep false a) = true := by
    rcases hs with rfl | rfl <;> decide
  refine ⟨fun a ha => ?_, ?_, ?_⟩
  · exact Bool.not_eq_true' _ ▸ List.all_eq_true.mp hall a ha
  · rcases hs with rfl | rfl <;> decide
  · rcases hs with rfl | rfl <;> decide

section Unix

/-- A name that is not empty nor absolute, and does not go up. -/
structure PlainUnix (name : Path) : Prop where
  ne_nil : name ≠ []
  no_root : name.head? ≠ some '/'
  no_up : ['.', '.'] ∉ pathKey name

theorem plainUnix_of_validated {name : Path} (hne : name ≠ [])
    (h : FileTransfer.validateFileNameNoTraversal name = .ok ()) : PlainUnix name := by
  unfold FileTransfer.validateFileNameNoTraversal at h
  split_ifs at h with hnull hup hroot
  refine ⟨hne, hroot, fun hmem => hup ?_⟩
  obtain ⟨hpiece, -⟩ := List.mem_filter.mp hmem
  exact List.contains_iff_mem.mpr (List.mem_filter.mpr ⟨hpiece, rfl⟩)

namespace PlainUnix

variable {name : Path} (h : PlainUnix name)

include h

theorem append {s : Path} (hs : IsSuffix s) : PlainUnix (name ++ s) where
  ne_nil := fun hnil => h.ne_nil (List.append_eq_nil_iff.mp hnil).1
  no_root := by
    rw [List.head?_append_of_ne_nil _ h.ne_nil]
    exact h.no_root
  no_up := by
    have hslash : '/' ∉ s := by
      rcases hs with rfl | rfl <;> decide
    obtain ⟨init, last, hname, happend⟩ := splitOn_append_suffix name hslash
    have hup := h.no_up
    unfold pathKey at hup ⊢
    rw [hname, List.filter_append, List.mem_append, not_or] at hup
    rw [happend, List.filter_append, List.mem_append, not_or]
    refine ⟨hup.1, fun hlast => ?_⟩
    -- the last piece is too long
    have heq := List.mem_singleton.mp (List.mem_filter.mp hlast).1
    exact (hs.windows.isName_append last).2 heq.symm

theorem extends_join (p : Path) :
    (Os.unix.place p).Extends (Os.unix.place (FileTransfer.join p name)) (pathKey name) := by
  have hnames := pathKey_join p h.no_root
  have hrel : isAbsolute name = false := by
    exact decide_eq_false h.no_root
  have hroot : isAbsolute (FileTransfer.join p name) = isAbsolute p := by
    unfold FileTransfer.join
    rw [if_neg (by simpa using h.ne_nil)]
    exact (pathKey_pathJoin p hrel).2
  exact ⟨rfl, hroot, hnames⟩

theorem join_eq (p : Path) : FileTransfer.join p name =
    if p = [] ∨ p.getLast? = some '/' then p ++ name else p ++ '/' :: name := by
  unfold FileTransfer.join pathJoin
  rw [if_neg (by simpa using h.ne_nil), if_neg h.no_root]

theorem join_append (p : Path) {s : Path} (hs : IsSuffix s) :
    FileTransfer.join p name ++ s = FileTransfer.join p (name ++ s) := by
  rw [h.join_eq, (h.append hs).join_eq]
  split
  · exact List.append_assoc _ _ _
  · rw [List.append_assoc]
    rfl

end PlainUnix

end Unix

namespace Os

variable (os : Os)

/-- After normalisation the path is the base or a descendant of it, or it is the base with a
suffix. -/
def Contained (base path : Path) : Prop :=
  (os.place base).Within (os.place path) ∨
    ∃ q s, IsSuffix s ∧ path = q ++ s ∧ (os.place base).Same (os.place q)

end Os

/-- Where the paths of a call are. A directory may also be one that the base is in. -/
def Call.Contained (os : Os) (base : Path) : Call → Prop
  | .createDir d => (os.place base).Within d ∨ (os.place base).Above d
  | .create path | .write path | .removeFile path | .setFileMtime path => os.Contained base path
  | .rename src dst => os.Contained base src ∧ os.Contained base dst

section Join

variable {os : Os} {base name path : Path} {onDisk : Except String Unit}

theorem extends_of_windows {q : Path} {added : PathKey} (h : Windows.Extends base q added) :
    (Os.windows.place base).Extends (Os.windows.place q) added :=
  ⟨h.parsePrefix, h.hasRoot, h.names⟩

theorem extends_self : (os.place base).Extends (os.place base) [] :=
  ⟨rfl, rfl, (List.append_nil _).symm⟩

theorem joinValidatedPath_extends (hcomplete : os.Complete base)
    (h : os.joinValidatedPath onDisk base name = .ok path) :
    ∃ added, ['.', '.'] ∉ added ∧ (os.place base).Extends (os.place path) added := by
  cases os with
  | unix =>
    have hvalid := joinValidatedPath_valid h
    obtain rfl := joinValidatedPath_eq h
    by_cases hne : name = []
    · rw [hne]
      exact ⟨[], List.not_mem_nil, extends_self⟩
    · have hplain := plainUnix_of_validated hne hvalid
      exact ⟨_, hplain.no_up, hplain.extends_join base⟩
  | windows =>
    obtain ⟨rfl, hvalid⟩ := Windows.joinValidatedPath_spec h
    by_cases hne : name = []
    · rw [hne]
      exact ⟨[], List.not_mem_nil, extends_self⟩
    · have hplain := Windows.plain_of_validated hne hvalid
      refine ⟨_, hplain.no_up, extends_of_windows ?_⟩
      unfold Windows.join
      rw [if_neg (by simpa using hne)]
      exact hplain.extends_pathJoin hcomplete

theorem joinValidatedPath_suffix (hcomplete : os.Complete base)
    (h : os.joinValidatedPath onDisk base name = .ok path) {s : Path} (hs : IsSuffix s) :
    os.Contained base (path ++ s) := by
  cases os with
  | unix =>
    have hvalid := joinValidatedPath_valid h
    obtain rfl := joinValidatedPath_eq h
    by_cases hne : name = []
    · rw [hne]
      exact Or.inr ⟨base, s, hs, rfl, extends_self.same⟩
    · have hplain := plainUnix_of_validated hne hvalid
      rw [hplain.join_append base hs]
      exact Or.inl (((hplain.append hs).extends_join base).within (hplain.append hs).no_up)
  | windows =>
    obtain ⟨rfl, hvalid⟩ := Windows.joinValidatedPath_spec h
    by_cases hne : name = []
    · rw [hne]
      exact Or.inr ⟨base, s, hs, rfl, extends_self.same⟩
    · have hplain := Windows.plain_of_validated hne hvalid
      have hjoin : Windows.join base name = Windows.pathJoin base name := by
        unfold Windows.join
        rw [if_neg (by simpa using hne)]
      rw [hjoin]
      rcases hplain.extends_suffix hcomplete hs.windows with ⟨added, hup, hextends⟩ | hself
      · exact Or.inl ((extends_of_windows hextends).within hup)
      · exact Or.inr ⟨_, s, hs, rfl, (extends_of_windows hself).same⟩

end Join

/-! ### Runs -/

/-- A job of the kind whose names are validated, with this base. -/
structure IsGeneric (base : Path) (job : TransferJob) : Prop where
  type : job.type = .generic
  source : job.dataSource = .filePath base

section Calls

variable {os : Os} {base : Path} (hcomplete : os.Complete base) {job : TransferJob}

include hcomplete

theorem resolveEntryPath_contained {onDisk : Except String Unit} {name path : Path}
    (hgen : IsGeneric base job) (h : os.resolveEntryPath job onDisk base name = some path) :
    os.Contained base path ∧ ∀ s, IsSuffix s → os.Contained base (path ++ s) := by
  unfold Os.resolveEntryPath at h
  rw [if_pos hgen.type] at h
  cases hjoin : os.joinValidatedPath onDisk base name with
  | error e =>
    rw [hjoin] at h
    cases h
  | ok path' =>
    rw [hjoin] at h
    obtain rfl : path' = path := Option.some.inj h
    obtain ⟨added, hup, hextends⟩ := joinValidatedPath_extends hcomplete hjoin
    exact ⟨Or.inl (hextends.within hup), fun s hs => joinValidatedPath_suffix hcomplete hjoin hs⟩

theorem modifyTimeCalls_contained (hgen : IsGeneric base job) (onDisk : Except String Unit) :
    ∀ call ∈ os.modifyTimeCalls onDisk job, call.Contained os base := by
  unfold Os.modifyTimeCalls
  rw [if_neg (by rw [hgen.type]; decide), hgen.source]
  cases hentry : job.currentEntry with
  | none => exact fun _ hmem => absurd hmem List.not_mem_nil
  | some entry =>
    dsimp only
    cases hpath : os.resolveEntryPath job onDisk base entry.name with
    | none => exact fun _ hmem => absurd hmem List.not_mem_nil
    | some path =>
      obtain ⟨hself, hsuffix⟩ := resolveEntryPath_contained hcomplete hgen hpath
      have hdownload : os.Contained base (downloadPath path) := hsuffix _ (Or.inl rfl)
      have hdigest : os.Contained base (digestPath path) := hsuffix _ (Or.inr rfl)
      intro call hmem
      rcases List.mem_cons.mp hmem with rfl | hmem
      · exact hdigest
      rcases List.mem_cons.mp hmem with rfl | hmem
      · exact ⟨hdownload, hself⟩
      · rw [List.mem_singleton.mp hmem]
        exact hself

theorem removeDownloadFileCalls_contained (hgen : IsGeneric base job) (onDisk : Except String Unit)
    : ∀ call ∈ os.removeDownloadFileCalls onDisk job, call.Contained os base := by
  unfold Os.removeDownloadFileCalls
  rw [if_neg (by rw [hgen.type]; decide), hgen.source]
  cases hentry : job.currentEntry with
  | none => exact fun _ hmem => absurd hmem List.not_mem_nil
  | some entry =>
    dsimp only
    cases hpath : os.resolveEntryPath job onDisk base entry.name with
    | none => exact fun _ hmem => absurd hmem List.not_mem_nil
    | some path =>
      obtain ⟨-, hsuffix⟩ := resolveEntryPath_contained hcomplete hgen hpath
      intro call hmem
      rcases List.mem_cons.mp hmem with rfl | hmem
      · exact hsuffix _ (Or.inl rfl)
      · rw [List.mem_singleton.mp hmem]
        exact hsuffix _ (Or.inr rfl)

omit hcomplete in
theorem missingDirs_contained {path : Path} {added : PathKey} (hup : ['.', '.'] ∉ added)
    (hextends : (os.place base).Extends (os.place path) added) (isDir : Place → Bool) :
    ∀ d ∈ os.missingDirs isDir path, (Call.createDir d).Contained os base := by
  intro d hmem
  obtain ⟨hd, -⟩ := List.mem_filter.mp hmem
  obtain ⟨k, -, rfl⟩ := List.mem_map.mp hd
  exact hextends.take hup (k + 1)

omit hcomplete in
theorem createFileCalls_contained {w : Answers} {path dp : Path}
    (hpath : os.Contained base path) (hdigest : os.Contained base dp) :
    ∀ call ∈ (Os.createFileCalls w job path (some dp)).1, call.Contained os base := by
  have hremoved : ∀ call ∈ Os.removeDigestCalls w (some dp), call.Contained os base := by
    intro call hmem
    unfold Os.removeDigestCalls at hmem
    dsimp only at hmem
    split at hmem
    · rw [List.mem_singleton.mp hmem]
      exact hdigest
    · cases hmem
  unfold Os.createFileCalls
  split
  · exact hremoved
  · split
    · intro call hmem
      rcases List.mem_append.mp hmem with hmem | hmem
      · exact hremoved call hmem
      · rw [List.mem_singleton.mp hmem]
        exact hpath
    · intro call hmem
      rcases List.mem_append.mp hmem with hmem | hmem
      · exact hremoved call hmem
      rcases List.mem_cons.mp hmem with rfl | hmem
      · exact hpath
      · rw [List.mem_singleton.mp hmem]
        exact hdigest

omit hcomplete in
theorem createFileCalls_generic (w : Answers) (path : Path) (digest : Option Path)
    (hgen : IsGeneric base job) : IsGeneric base (Os.createFileCalls w job path digest).2 := by
  unfold Os.createFileCalls
  split
  · exact hgen
  · split
    · exact hgen
    · exact ⟨hgen.type, hgen.source⟩

theorem switchFileCalls_contained (w : Answers) (hgen : IsGeneric base job) (fileNum : Int32)
    (entry : FileEntry) :
    IsGeneric base (os.switchFileCalls w job base fileNum entry).2 ∧
      ∀ call ∈ (os.switchFileCalls w job base fileNum entry).1, call.Contained os base := by
  have hfinished := modifyTimeCalls_contained hcomplete hgen w.env.finish.onDisk
  have hmoved : IsGeneric base { job with fileNum := fileNum } := ⟨hgen.type, hgen.source⟩
  unfold Os.switchFileCalls
  split
  · exact ⟨hgen, hfinished⟩
  rw [if_neg (by rw [hgen.type]; decide)]
  cases hjoin : os.joinValidatedPath w.env.onDisk base entry.name with
  | error e => exact ⟨hmoved, hfinished⟩
  | ok path =>
    obtain ⟨added, hup, hextends⟩ := joinValidatedPath_extends hcomplete hjoin
    refine ⟨createFileCalls_generic w _ _ hmoved, ?_⟩
    intro call hmem
    rcases List.mem_append.mp hmem with hmem | hmem
    · rcases List.mem_append.mp hmem with hmem | hmem
      · exact hfinished call hmem
      · obtain ⟨d, hd, rfl⟩ := List.mem_map.mp hmem
        exact missingDirs_contained hup hextends w.isDir d hd
    · exact createFileCalls_contained (joinValidatedPath_suffix hcomplete hjoin (Or.inl rfl))
        (joinValidatedPath_suffix hcomplete hjoin (Or.inr rfl)) call hmem

theorem step_contained (hgen : IsGeneric base job) (s : Os.Step) :
    IsGeneric base (os.step job s).2 ∧ ∀ call ∈ (os.step job s).1, call.Contained os base := by
  cases s with
  | write w block =>
    show IsGeneric base (os.writeCalls w job block).2 ∧
      ∀ call ∈ (os.writeCalls w job block).1, call.Contained os base
    have hnothing : IsGeneric base job ∧ ∀ call ∈ ([] : List Call), call.Contained os base :=
      ⟨hgen, fun _ hmem => absurd hmem List.not_mem_nil⟩
    unfold Os.writeCalls
    rw [hgen.source]
    dsimp only
    split
    · exact hnothing
    · split
      · exact hnothing
      · split
        · exact switchFileCalls_contained hcomplete w hgen _ _
        · exact hnothing
  | modifyTime onDisk => exact ⟨hgen, modifyTimeCalls_contained hcomplete hgen onDisk⟩
  | removeDownloadFile onDisk =>
    exact ⟨hgen, removeDownloadFileCalls_contained hcomplete hgen onDisk⟩
  | other fileNum dataStream =>
    exact ⟨⟨hgen.type, hgen.source⟩, fun _ hmem => absurd hmem List.not_mem_nil⟩

theorem run_contained (steps : List Os.Step) (hgen : IsGeneric base job) :
    ∀ call ∈ os.calls job steps, call.Contained os base := by
  induction steps generalizing job with
  | nil => exact fun _ hmem => absurd hmem List.not_mem_nil
  | cons s steps ih =>
    obtain ⟨hnext, hcalls⟩ := step_contained hcomplete hgen s
    intro call hmem
    rcases List.mem_append.mp hmem with hmem | hmem
    · exact hcalls call hmem
    · exact ih hnext call hmem

end Calls

theorem setFiles_generic {os : Os} {onDisk : Path → Except String Unit} {base : Path}
    {start job : TransferJob} {files : List FileEntry} (hgen : IsGeneric base start)
    (h : os.setFiles onDisk start files = .ok job) : IsGeneric base job := by
  unfold Os.setFiles at h
  rw [hgen.source] at h
  cases hnames : os.validateTransferFileNames files with
  | error e =>
    rw [hnames] at h
    cases h
  | ok u =>
    cases hlinks : files.forM fun file =>
        os.validateNoSymlinkComponents (onDisk file.name) file.name with
    | error e =>
      rw [hnames] at h
      rw [hlinks] at h
      cases h
    | ok u' =>
      rw [hnames] at h
      rw [hlinks] at h
      obtain rfl := Except.ok.inj h
      exact ⟨hgen.type, rfl⟩

/-- **A transfer stays below its base.** Once a list is accepted, every file that the job touches is
the base or below it, or the base with a suffix; and every directory that it makes is on the way of
the base, or below it. On Windows the base must not end within its prefix. -/
theorem calls_contained (os : Os) (onDisk : Path → Except String Unit) {base : Path}
    {start job : TransferJob} {files : List FileEntry} (hgeneric : start.type = .generic)
    (hsource : start.dataSource = .filePath base) (hcomplete : os.Complete base)
    (haccept : os.setFiles onDisk start files = .ok job) (steps : List Os.Step) :
    ∀ call ∈ os.calls job steps, call.Contained os base :=
  run_contained hcomplete steps (setFiles_generic ⟨hgeneric, hsource⟩ haccept)

/-! ### Two bases that are left -/

def oneFile (base name : Path) : TransferJob :=
  { TransferJob.newWrite 1 .generic (.filePath base) 0 false with files := [⟨name, 0, 0⟩] }

def onlyRoots : Answers := ⟨.good, fun d => d.names.isEmpty, false, ⟨0, 0, true⟩⟩

def firstBlock : Os.Step := .write onlyRoots ⟨1, 0, [], false⟩

/-- On a drive, by Windows rules. -/
theorem calls_contained_drive :
    (Call.create "C:\\a\\b/c.download".toList).Contained .windows "C:\\a".toList ∧
      (Call.createDir ⟨some (.disk 'C'), true, ["a".toList]⟩).Contained .windows
        "C:\\a".toList := by
  have haccept : Os.windows.setFiles (fun _ => .ok ())
      (TransferJob.newWrite 1 .generic (.filePath "C:\\a".toList) 0 false)
      [⟨"b/c".toList, 0, 0⟩] = .ok (oneFile "C:\\a".toList "b/c".toList) := rfl
  have hcomplete : Os.windows.Complete "C:\\a".toList := trivial
  have hrun := calls_contained .windows _ (by rfl) (by rfl) hcomplete haccept [firstBlock]
  exact ⟨hrun _ (by decide +kernel), hrun _ (by decide +kernel)⟩

/-- **Above the base, and beside it.** For the first block of `c` under `/a/b` the directory `/a` is
made when it is not there. And on Windows the accepted name `s\h\f` under `\\` is a file of the
share `\\s\h`. -/
theorem base_is_left :
    (Os.unix.setFiles (fun _ => .ok ())
        (TransferJob.newWrite 1 .generic (.filePath "/a/b".toList) 0 false) [⟨['c'], 0, 0⟩] =
          .ok (oneFile "/a/b".toList ['c']) ∧
      Call.createDir ⟨none, true, [['a']]⟩ ∈
        Os.unix.calls (oneFile "/a/b".toList ['c']) [firstBlock] ∧
      ¬ (Os.unix.place "/a/b".toList).Within ⟨none, true, [['a']]⟩) ∧
    (Os.windows.setFiles (fun _ => .ok ())
        (TransferJob.newWrite 1 .generic (.filePath "\\\\".toList) 0 false)
        [⟨"s\\h\\f".toList, 0, 0⟩] = .ok (oneFile "\\\\".toList "s\\h\\f".toList) ∧
      Call.create "\\\\s\\h\\f.download".toList ∈
        Os.windows.calls (oneFile "\\\\".toList "s\\h\\f".toList) [firstBlock] ∧
      ¬ Os.windows.Contained "\\\\".toList "\\\\s\\h\\f.download".toList) := by
  refine ⟨⟨rfl, by decide +kernel, ?_⟩, rfl, by decide +kernel, ?_⟩
  · rintro ⟨-, -, hnormal⟩
    exact absurd hnormal (by decide +kernel)
  · rintro (⟨hlead, -⟩ | ⟨q, s, hs, hpath, hlead, -⟩)
    · exact absurd hlead (by decide +kernel)
    · -- only `.download` is its end
      rcases hs with rfl | rfl
      · have htext : q ++ ".download".toList = "\\\\s\\h\\f".toList ++ ".download".toList :=
          hpath.symm.trans (by decide)
        rw [List.append_cancel_right htext] at hlead
        exact absurd hlead (by decide +kernel)
      · have hend := congrArg List.getLast? hpath
        rw [List.getLast?_append_of_ne_nil q (by decide)] at hend
        exact absurd hend (by decide)

end LibRustdesk.FileTransfer
