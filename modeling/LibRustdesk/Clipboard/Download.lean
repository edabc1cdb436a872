import LibRustdesk.Clipboard.Paste
import LibRustdesk.Framework.AddedFiles

/-!
# One file after another

What a paste has on the disk while it goes through its list, when nobody else changes the disk and
the worker takes only the answers to its own requests (`Clipboard/Delivered.lean` has the runs).

* `received` — the data taken for one file, which the file is to be.
* `Core` — the first `n` files of the list stand under their names, and besides them and what was
  there before there is at most one file more, the download.
* `Between` — no download is open; `Downloading` — one is, and its bytes, those in the buffer
  included, are the data taken for it.
* `Tracks` — where a task can be: it has failed, it is stuck without a writer, it is through with
  its list, or it downloads a file of which bytes are missing.

Calls that fail unseen would leave a file behind or out: a flush or a rename (`leavesWell`), the
creation of an empty file (`fillsEmpty`). Where they do not, `updateNext` keeps to `Tracks`
(`Clipboard/NextFile.lean`).
-/

namespace LibRustdesk.Clipboard.Paste

open LittleEndian FileTransfer Descriptor

/-! ### The data of a file -/

/-- The data taken for the file at `i`. -/
def received (acc : List (Option Request × Bytes)) (i : ℕ) : Bytes :=
  (acc.filter fun x => x.1.map Request.listIndex = some (i : ℤ)).flatMap Prod.snd

/-- Each piece of data answers a request of the task, for what came next of its file. -/
def InOrder (serial : ℕ) (acc : List (Option Request × Bytes)) : Prop :=
  ∀ j o data, acc[j]? = some (o, data) →
    ∃ r i, o = some r ∧ r.serial = serial ∧ r.listIndex = ((i : ℕ) : ℤ) ∧
      r.offset.toNat = (received (acc.take j) i).length

theorem received_concat (acc : List (Option Request × Bytes)) (r : Request) (data : Bytes) (i : ℕ) :
    received (acc ++ [(some r, data)]) i =
      received acc i ++ if r.listIndex = (i : ℤ) then data else [] := by
  unfold received
  rw [List.filter_append, List.flatMap_append]
  congr 1
  by_cases h : r.listIndex = (i : ℤ)
  · rw [if_pos h, List.filter_singleton]
    simp [h]
  · rw [if_neg h, List.filter_singleton]
    simp [h]

theorem received_concat_self {acc : List (Option Request × Bytes)} {r : Request} {i : ℕ}
    (h : r.listIndex = (i : ℤ)) (data : Bytes) :
    received (acc ++ [(some r, data)]) i = received acc i ++ data := by
  rw [received_concat, if_pos h]

theorem received_concat_of_ne {acc : List (Option Request × Bytes)} {r : Request} {i n : ℕ}
    (h : r.listIndex = (n : ℤ)) (hne : i ≠ n) (data : Bytes) :
    received (acc ++ [(some r, data)]) i = received acc i := by
  rw [received_concat, if_neg (by omega), List.append_nil]

theorem InOrder.nil (serial : ℕ) : InOrder serial [] := fun _ _ _ h => by cases h

theorem InOrder.concat {serial : ℕ} {acc : List (Option Request × Bytes)} (h : InOrder serial acc)
    {r : Request} {i : ℕ} (hserial : r.serial = serial) (hindex : r.listIndex = (i : ℤ))
    (hoffset : r.offset.toNat = (received acc i).length) (data : Bytes) :
    InOrder serial (acc ++ [(some r, data)]) := by
  intro j o d hj
  rcases getElem?_concat_cases hj with hold | ⟨rfl, hnew⟩
  · have hlt := (List.getElem?_eq_some_iff.mp hold).1
    rw [List.take_append_of_le_length (Nat.le_of_lt hlt)]
    exact h j o d hold
  · obtain ⟨rfl, rfl⟩ := Prod.mk.inj hnew
    rw [List.take_left]
    exact ⟨r, i, rfl, hserial, hindex, hoffset⟩

/-! ### Names -/

section Names

variable {κ : Type*} (lead : Bool × PathKey → κ)

def DownloadName (original p : Path) : Prop :=
  p = original ++ downloadExtension ∨
    ∃ k, p = World.variant (original ++ downloadExtension) .file k

/-- Something has the name: a file from before, a directory, another of the list, or the download.
-/
def Occupied (before d : Disk κ) (placed : List (ℕ × Path)) (p : Path) : Prop :=
  before.files.has (at' lead p) = true ∨ d.dirs (at' lead p) = true ∨
    at' lead p ∈ placed.map (fun x => at' lead x.2) ∨
    ∃ q, DownloadName p q ∧ at' lead q = at' lead p

/-- The name is the file's own, or a numbered one where something has that. -/
def NamedFor (before d : Disk κ) (placed : List (ℕ × Path)) (original p : Path) : Prop :=
  p = original ∨ Occupied lead before d placed original ∧ ∃ k, p = World.variant original .file k

variable {lead} {before d d' : Disk κ} {placed : List (ℕ × Path)} {original p : Path}

theorem NamedFor.mono (h : NamedFor lead before d placed original p) (x : List (ℕ × Path))
    (hdirs : ∀ k, d.dirs k = true → d'.dirs k = true) :
    NamedFor lead before d' (x ++ placed) original p := by
  rcases h with hown | ⟨hold | hdir | hother | halias, hname⟩
  · exact Or.inl hown
  · exact Or.inr ⟨Or.inl hold, hname⟩
  · exact Or.inr ⟨Or.inr (Or.inl (hdirs _ hdir)), hname⟩
  · refine Or.inr ⟨Or.inr (Or.inr (Or.inl ?_)), hname⟩
    rw [List.map_append]
    exact List.mem_append_right _ hother
  · exact Or.inr ⟨Or.inr (Or.inr (Or.inr halias)), hname⟩

theorem firstFree_spec {path : Path} {kind : FileType} :
    ∀ {n i : ℕ}, World.firstFree lead d path kind n i = some p →
      d.exists lead p = false ∧ ∃ k, p = World.variant path kind k := by
  intro n
  induction n with
  | zero =>
    intro i hp
    cases hp
  | succ n ih =>
    intro i hp
    unfold World.firstFree at hp
    split at hp
    · exact ih hp
    · next hfree =>
      obtain rfl := Option.some.inj hp
      exact ⟨Bool.eq_false_iff.mpr hfree, i, rfl⟩

theorem getFirstFilename_spec {path : Path} {kind : FileType}
    (hp : World.getFirstFilename lead d path kind = some p) :
    d.exists lead p = false ∧
      (p = path ∨ d.exists lead path = true ∧ ∃ k, p = World.variant path kind k) := by
  unfold World.getFirstFilename at hp
  split at hp
  · next htaken =>
    split at hp
    · cases hp
    · obtain ⟨hfree, hname⟩ := firstFree_spec hp
      exact ⟨hfree, Or.inr ⟨htaken, hname⟩⟩
  · next hfree =>
    obtain rfl := Option.some.inj hp
    exact ⟨Bool.eq_false_iff.mpr hfree, Or.inl rfl⟩

theorem dir_eq_none_of_free (h : d.exists lead p = false) : d.files.dir (at' lead p) = none := by
  exact Option.not_isSome_iff_eq_none.mp (Bool.eq_false_iff.mp (Bool.or_eq_false_iff.mp h).1)

theorem getFirstFilename_congr (h : ∀ q, d.exists lead q = d'.exists lead q) (path : Path)
    (kind : FileType) :
    World.getFirstFilename lead d path kind = World.getFirstFilename lead d' path kind := by
  have hfirst : ∀ n i, World.firstFree lead d path kind n i =
      World.firstFree lead d' path kind n i := by
    intro n
    induction n with
    | zero => exact fun _ => rfl
    | succ n ih =>
      intro i
      unfold World.firstFree
      rw [h, ih]
  unfold World.getFirstFilename
  rw [h, hfirst]

end Names

/-! ### What is on the disk -/

section Disks

variable {κ : Type*} (lead : Bool × PathKey → κ)

structure Job (κ : Type*) where
  before : Disk κ
  files : List FileDescription
  targetDir : Path
  serial : ℕ

def TaskHandle.job (t : TaskHandle) (before : Disk κ) : Job κ :=
  ⟨before, t.files, t.targetDir, t.serial⟩

/-- The regular files among the first `n` of the list stand under the names `placed` gives them,
each being the data taken for it, and the other new files are those of `temp`. -/
structure Core (job : Job κ) (d : Disk κ) (acc : List (Option Request × Bytes)) (n : ℕ)
    (placed : List (ℕ × Path)) (temp : List (κ × Bytes)) : Prop where
  files : FileSystem.Adds job.before.files
    (temp ++ placed.map fun x => (at' lead x.2, received acc x.1)) d.files
  all : ∀ i file, i < n → job.files[i]? = some file → file.kind = .file → ∃ p, (i, p) ∈ placed
  each : ∀ x ∈ placed, x.1 < n ∧ ∃ file, job.files[x.1]? = some file ∧ file.kind = .file ∧
    NamedFor lead job.before d placed (pathJoin job.targetDir file.name) x.2 ∧
    (received acc x.1).length = file.size.toNat
  inOrder : InOrder job.serial acc

namespace Core

variable {lead} {job : Job κ} {d d' : Disk κ} {acc : List (Option Request × Bytes)} {n : ℕ}
  {placed : List (ℕ × Path)} {temp : List (κ × Bytes)}

theorem change (h : Core lead job d acc n placed temp) {temp' : List (κ × Bytes)}
    (hfiles : FileSystem.Adds job.before.files
      (temp' ++ placed.map fun x => (at' lead x.2, received acc x.1)) d'.files)
    (hdirs : ∀ k, d.dirs k = true → d'.dirs k = true) : Core lead job d' acc n placed temp' where
  files := hfiles
  all := h.all
  each x hx := by
    obtain ⟨hlt, file, hfile, hkind, hname, hlen⟩ := h.each x hx
    exact ⟨hlt, file, hfile, hkind, hname.mono [] hdirs, hlen⟩
  inOrder := h.inOrder

theorem skip (h : Core lead job d acc n placed temp) {file : FileDescription}
    (hfile : job.files[n]? = some file) (hkind : file.kind ≠ .file) :
    Core lead job d acc (n + 1) placed temp where
  files := h.files
  all i file' hi hfile' hkind' := by
    rcases Nat.lt_succ_iff_lt_or_eq.mp hi with hlt | rfl
    · exact h.all i file' hlt hfile' hkind'
    · obtain rfl := Option.some.inj (hfile.symm.trans hfile')
      exact absurd hkind' hkind
  each x hx := by
    obtain ⟨hlt, hrest⟩ := h.each x hx
    exact ⟨Nat.lt_succ_of_lt hlt, hrest⟩
  inOrder := h.inOrder

theorem place {d₁ : Disk κ} (h : Core lead job d₁ acc n placed temp) {file : FileDescription}
    {p : Path} (hfile : job.files[n]? = some file) (hkind : file.kind = .file)
    (hlen : (received acc n).length = file.size.toNat)
    (hfiles : FileSystem.Adds job.before.files
      ((at' lead p, received acc n) ::
        placed.map fun x => (at' lead x.2, received acc x.1)) d.files)
    (hdirs : ∀ k, d₁.dirs k = true → d.dirs k = true)
    (hname : NamedFor lead job.before d placed (pathJoin job.targetDir file.name) p) :
    Core lead job d acc (n + 1) ((n, p) :: placed) [] where
  files := hfiles
  all i file' hi hfile' hkind' := by
    rcases Nat.lt_succ_iff_lt_or_eq.mp hi with hlt | rfl
    · obtain ⟨q, hq⟩ := h.all i file' hlt hfile' hkind'
      exact ⟨q, List.mem_cons_of_mem _ hq⟩
    · exact ⟨p, List.mem_cons_self⟩
  each := by
    refine List.forall_mem_cons.mpr ⟨?_, fun x hx => ?_⟩
    · exact ⟨Nat.lt_succ_self n, file, hfile, hkind, hname.mono [(n, p)] fun _ hk => hk, hlen⟩
    · obtain ⟨hlt, file', hfile', hkind', hname', hlen'⟩ := h.each x hx
      exact ⟨Nat.lt_succ_of_lt hlt, file', hfile', hkind', hname'.mono [(n, p)] hdirs, hlen'⟩
  inOrder := h.inOrder

theorem accept (h : Core lead job d acc n placed temp) {r : Request}
    (hserial : r.serial = job.serial) (hindex : r.listIndex = (n : ℤ))
    (hoffset : r.offset.toNat = (received acc n).length) (data : Bytes) :
    Core lead job d (acc ++ [(some r, data)]) n placed temp := by
  -- of the files placed none is the one at `n`
  have hsame : ∀ x ∈ placed, received (acc ++ [(some r, data)]) x.1 = received acc x.1 := by
    intro x hx
    obtain ⟨hlt, -⟩ := h.each x hx
    exact received_concat_of_ne hindex (Nat.ne_of_lt hlt) data
  constructor
  case files =>
    have hmap : placed.map (fun x => (at' lead x.2, received (acc ++ [(some r, data)]) x.1)) =
        placed.map fun x => (at' lead x.2, received acc x.1) :=
      List.map_congr_left fun x hx => by rw [hsame x hx]
    rw [hmap]
    exact h.files
  case all => exact h.all
  case each =>
    intro x hx
    rw [hsame x hx]
    exact h.each x hx
  case inOrder => exact h.inOrder.concat hserial hindex hoffset data

end Core

variable (before : Disk κ) (acc : List (Option Request × Bytes))

/-- No download is open, and the list is done up to `n`. -/
structure Between (n : ℕ) (w : World κ) : Prop where
  core : ∃ placed, Core lead (w.task.job before) w.disk acc n placed []
  rest : ∀ i, n ≤ i → received acc i = []
  handle : w.task.progress.fileHandle = none
  error : w.task.progress.error = none
  canceled : w.task.progress.isCanceled = false

/-- The file at `n` is being downloaded. The bytes that are in the download, and those that wait to
be written to it, are the data taken for the file. -/
structure Downloading (n : ℕ) (file : FileDescription) (wr : Writer) (w : World κ) : Prop where
  core : ∃ placed c, Core lead (w.task.job before) w.disk acc n placed
      [(at' lead w.task.progress.downloadFilePath, c)] ∧
    wr.file.pos = c.length ∧ c ++ wr.pending = received acc n
  rest : ∀ i, n < i → received acc i = []
  listed : w.task.files[n]? = some file
  kind : file.kind = .file
  listIndex : w.task.progress.listIndex = (n : ℤ)
  downloadIndex : w.task.progress.downloadFileIndex = (n : ℤ)
  downloadSize : w.task.progress.downloadFileSize = file.size
  name : DownloadName (pathJoin w.task.targetDir file.name) w.task.progress.downloadFilePath
  handle : w.task.progress.fileHandle = some wr
  inode : w.disk.files.dir (at' lead w.task.progress.downloadFilePath) = some wr.file.inode
  error : w.task.progress.error = none
  canceled : w.task.progress.isCanceled = false

inductive Tracks (w : World κ) : Prop
  | failed (herror : w.task.progress.error.isSome = true)
  /-- The first file could not be opened, which `start` takes no notice of. -/
  | stuck (hhandle : w.task.progress.fileHandle = none)
      (hindex : w.task.progress.listIndex < w.task.files.length)
  | complete (h : Between lead before acc w.task.files.length w)
      (hindex : (w.task.files.length : ℤ) ≤ w.task.progress.listIndex)
  | downloading {n : ℕ} {file : FileDescription} {wr : Writer}
      (h : Downloading lead before acc n file wr w)
      (hoffset : (received acc n).length = w.task.progress.offset.toNat)
      (hmissing : w.task.progress.offset.toNat < file.size.toNat)

inductive Goes : World κ × Except CliprdrError Unit → Prop
  | stuck {w : World κ} {e : CliprdrError} (hhandle : w.task.progress.fileHandle = none)
      (hindex : w.task.progress.listIndex < w.task.files.length) : Goes (w, .error e)
  | failed {w : World κ} (herror : w.task.progress.error.isSome = true) : Goes (w, .ok ())
  | through {w : World κ} (h : Between lead before acc w.task.files.length w) : Goes (w, .ok ())
  | opened {w : World κ} {n : ℕ} {file : FileDescription} {wr : Writer}
      (h : Downloading lead before acc n file wr w) (hnothing : received acc n = [])
      (hoffset : w.task.progress.offset = 0) (hsize : file.size ≠ 0) : Goes (w, .ok ())

end Disks

/-! ### Calls that must not fail -/

namespace World

variable {κ : Type*} [DecidableEq κ] (lead : Bool × PathKey → κ) (env : Env)

/-- The last bytes of the download are flushed, a name for the file is found, and the file renamed
to it. -/
def leavesWell (w : World κ) : Bool :=
  env.flushFails.isNone && !env.renameFails &&
    (w.task.file? w.task.progress.downloadFileIndex).all fun file =>
      (getNewFilename lead w.disk w.task.targetDir file).isSome

/-- The empty files that come next in the list find a name, and are created. -/
def fillsEmpty (w : World κ) : List FileDescription → Bool
  | [] => true
  | file :: files =>
    match file.kind with
    | .file =>
      if file.size = 0 then
        match getNewFilename lead w.disk w.task.targetDir file with
        | none => false
        | some path =>
          (env.createFails path).isNone &&
            fillsEmpty (((w.createFile lead path).1).setAttribute path) files
      else true
    | .directory =>
      let path := pathJoin w.task.targetDir file.name
      if w.disk.exists lead path then fillsEmpty w files
      else fillsEmpty (w.createDirAll lead env path).1 files
    | .symlink => fillsEmpty w files

/-- Where `size` more bytes complete the file, it is left well and the empty files after it are
made. -/
def updatesWell (w : World κ) (size : UInt64) : Bool :=
  if w.task.isFinished then true
  else
    let w := w.setProgress
      { w.task.progress with currentSize := w.task.progress.currentSize + size }
    if w.task.progress.listIndex = -1 ∨
        w.task.progress.downloadFileSize ≤ w.task.progress.offset + size then
      (w.task.progress.listIndex = -1 || w.leavesWell lead env) &&
        let w := w.leaveFile lead env
        w.fillsEmpty lead env (w.task.files.drop (w.task.progress.listIndex + 1).toNat)
    else true

end World

end LibRustdesk.Clipboard.Paste
