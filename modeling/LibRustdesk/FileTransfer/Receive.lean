import LibRustdesk.FileTransfer.Job
import LibRustdesk.Framework.Machine
import Mathlib.Data.List.Pairwise

/-!
# Receiving a transfer

A receiving job, its disk, and everything its callers do with it: blocks and confirmations arrive
in any order, a digest is recorded, and the job ends with `FileTransferDone`, with a cancellation
or with an error. The callers ignore what `write` returns and go on with the next block.

`switchFile` moves `file_num`, renames the finished file and replaces the stream one after the
other, and returns early when one of its calls fails. Between the move and the replacement the job
claims one file and writes to another; `failed_switch_corrupts` is a run that goes through that
state, and `blocks_land_in_download` says that it is the only way for a block to miss its file.
-/

namespace LibRustdesk.FileTransfer

open LittleEndian

structure Receiver where
  disk : Disk
  /-- The job, until it ends. -/
  job : Option TransferJob
  /-- History: the files `File::create` has given this job. -/
  created : List ℕ

inductive Event
  | block (env : WriteEnv) (block : FileTransferBlock)
  | confirm (env : SeekEnv) (r : FileTransferSendConfirmRequest)
  | setDigest (size modified : UInt64)
  /-- The transfer is cancelled. -/
  | cancel (env : CancelEnv)
  /-- `FileTransferDone`. -/
  | done (env : FinishEnv)
  /-- `FileTransferError`, or a lost connection. -/
  | drop

namespace TransferJob

def switches (job : TransferJob) (block : FileTransferBlock) : Bool :=
  asUsize block.fileNum != asUsize job.fileNum || job.dataStream.isNone

def openInode (job : TransferJob) : Option ℕ :=
  match job.dataStream with
  | some (.fileStream file) => some file.inode
  | _ => none

end TransferJob

def stepJob (z : Zstd) (w : Receiver) (job : TransferJob) :
    Event → Receiver × List (Except String Unit)
  | .block env block =>
    let opened := job.openBlock env block w.disk
    let (disk, job', result) := job.write z env block w.disk
    let created := match opened.2.2 with
      | .ok () => if job.switches block then opened.2.1.openInode.toList else []
      | .error _ => []
    ({ disk := disk, job := some job', created := created ++ w.created }, [result])
  | .confirm env r =>
    let (disk, job) := job.confirm env r w.disk
    ({ w with disk := disk, job := job }, [])
  | .setDigest size modified => ({ w with job := some (job.setDigest size modified) }, [])
  | .cancel env => ({ w with disk := job.removeDownloadFile env w.disk, job := none }, [])
  | .done env => ({ w with disk := job.modifyTime env w.disk, job := none }, [])
  | .drop => ({ w with job := none }, [])

def receiver (z : Zstd) : Machine Receiver Event (Except String Unit) where
  step w ev :=
    match w.job with
    | some job => stepJob z w job ev
    | none => (w, [])

/-! ### The names of a transfer -/

def finalKey (p : Path) (entry : FileEntry) : PathKey := pathKey (join p entry.name)

def downloadKey (p : Path) (entry : FileEntry) : PathKey :=
  pathKey (downloadPath (join p entry.name))

def digestKey (p : Path) (entry : FileEntry) : PathKey := pathKey (digestPath (join p entry.name))

theorem downloadKey_ne_digestKey (p : Path) (entry entry' : FileEntry) :
    downloadKey p entry ≠ digestKey p entry' := downloadPath_ne_digestPath _ _

def namesOf (p : Path) (entry : FileEntry) : List PathKey :=
  [finalKey p entry, downloadKey p entry, digestKey p entry]

def IsName (p : Path) (files : List FileEntry) (k : PathKey) : Prop :=
  k ∈ files.flatMap (namesOf p)

def IsFinal (p : Path) (files : List FileEntry) (k : PathKey) : Prop :=
  ∃ entry ∈ files, k = finalKey p entry

/-- The final, `.download` and `.digest` paths of the entries are pairwise distinct. -/
def NamesApart (p : Path) (files : List FileEntry) : Prop := (files.flatMap (namesOf p)).Nodup

section Names

variable {p : Path} {files : List FileEntry} {k : PathKey}

theorem isName_of_mem {entry : FileEntry} (he : entry ∈ files)
    (hk : k ∈ namesOf p entry) : IsName p files k := List.mem_flatMap.mpr ⟨entry, he, hk⟩

theorem IsFinal.isName (h : IsFinal p files k) : IsName p files k := by
  obtain ⟨entry, he, rfl⟩ := h
  exact isName_of_mem he (by simp [namesOf])

theorem NamesApart.entry_eq (h : NamesApart p files) {i j : ℕ} {e e' : FileEntry}
    (hi : files[i]? = some e) (hj : files[j]? = some e') (hk : k ∈ namesOf p e)
    (hk' : k ∈ namesOf p e') : i = j := by
  by_contra hne
  have hpair := (List.nodup_flatMap.mp h).2
  obtain ⟨hilt, rfl⟩ := List.getElem?_eq_some_iff.mp hi
  obtain ⟨hjlt, rfl⟩ := List.getElem?_eq_some_iff.mp hj
  rcases Nat.lt_or_gt_of_ne hne with hlt | hlt
  · exact List.pairwise_iff_getElem.mp hpair i j hilt hjlt hlt hk hk'
  · exact List.pairwise_iff_getElem.mp hpair j i hjlt hilt hlt hk' hk

variable {e : FileEntry}

theorem NamesApart.nodup (h : NamesApart p files) (he : e ∈ files) :
    (namesOf p e).Nodup := (List.nodup_flatMap.mp h).1 e he

theorem NamesApart.not_isFinal (h : NamesApart p files) (he : e ∈ files)
    (hk : k = downloadKey p e ∨ k = digestKey p e) : ¬ IsFinal p files k := by
  rintro ⟨e', he', rfl⟩
  obtain ⟨i, hi⟩ := List.mem_iff_getElem?.mp he
  obtain ⟨j, hj⟩ := List.mem_iff_getElem?.mp he'
  have hij : i = j := h.entry_eq (k := finalKey p e') hi hj (by
    rcases hk with hk | hk <;> simp [namesOf, hk]) (by simp [namesOf])
  subst hij
  obtain rfl : e = e' := Option.some.inj (hi.symm.trans hj)
  have hnodup := h.nodup he
  simp only [namesOf, List.nodup_cons, List.mem_cons, List.not_mem_nil, or_false, not_or] at hnodup
  rcases hk with hk | hk
  · exact hnodup.1.1 hk
  · exact hnodup.1.2 hk

theorem NamesApart.final_ne_download (h : NamesApart p files) (he : e ∈ files) :
    finalKey p e ≠ downloadKey p e := fun heq =>
  h.not_isFinal he (Or.inl heq) ⟨e, he, rfl⟩

end Names

/-! ### What the parts of a step do -/

namespace TransferJob

structure Generic (job : TransferJob) (p : Path) : Prop where
  type : job.type = .generic
  source : job.dataSource = .filePath p

variable {job : TransferJob} {p : Path}

theorem resolveEntryPath_eq {onDisk : Except String Unit} {name path : Path} (hgen : job.Generic p)
    (h : job.resolveEntryPath onDisk p name = some path) : path = join p name := by
  unfold resolveEntryPath at h
  rw [if_pos hgen.type] at h
  cases hjoin : joinValidatedPath onDisk p name with
  | error e => simp [hjoin, Except.toOption] at h
  | ok path' =>
    obtain rfl : path' = path := by simpa [hjoin, Except.toOption] using h
    exact joinValidatedPath_eq hjoin

theorem modifyTime_cases (env : FinishEnv) (disk : Disk) (hgen : job.Generic p) :
    job.modifyTime env disk = disk ∨
      ∃ entry, job.currentEntry = some entry ∧ ∃ disk₁ disk₂,
        (disk₁ = disk ∨ disk₁ = disk.remove (digestKey p entry)) ∧
        disk₂ = (if env.rename then disk₁.rename (downloadKey p entry) (finalKey p entry)
          else disk₁) ∧
        (job.modifyTime env disk = disk₂ ∨ job.modifyTime env disk =
          disk₂.setMtime (finalKey p entry) entry.modifiedTime.toInt64) := by
  unfold modifyTime
  rw [if_neg (by rw [hgen.type]; simp), hgen.source]
  cases hentry : job.currentEntry with
  | none => exact Or.inl rfl
  | some entry =>
    dsimp only
    cases hpath : job.resolveEntryPath env.onDisk p entry.name with
    | none => exact Or.inl rfl
    | some path =>
      obtain rfl := resolveEntryPath_eq hgen hpath
      refine Or.inr ⟨entry, rfl,
        if env.removeDigest then disk.remove (digestKey p entry) else disk, _, ?_, rfl, ?_⟩
      · cases env.removeDigest
        · exact Or.inl rfl
        · exact Or.inr rfl
      · cases env.setMtime
        · exact Or.inl rfl
        · exact Or.inr rfl

theorem currentEntry_mem {entry : FileEntry} (h : job.currentEntry = some entry) :
    entry ∈ job.files := List.mem_of_getElem? h

/-- The final paths of the entries other than the current one. -/
def OtherFinal (job : TransferJob) (p : Path) (k : PathKey) : Prop :=
  IsFinal p job.files k ∧ ∀ entry, job.currentEntry = some entry → k ≠ finalKey p entry

section ModifyTime

variable (env : FinishEnv) (disk : Disk) (hgen : job.Generic p) (hapart : NamesApart p job.files)
include hgen hapart

theorem modifyTime_spares_others :
    FileSystem.Spares (IsName p job.files) (job.OtherFinal p) disk (job.modifyTime env disk) := by
  obtain heq | ⟨entry, hentry, disk₁, disk₂, h₁, h₂, heq⟩ := modifyTime_cases env disk hgen
  · rw [heq]
    exact .refl disk
  have hmem := currentEntry_mem hentry
  have hfirst : FileSystem.Spares (IsName p job.files) (job.OtherFinal p) disk disk₁ := by
    rcases h₁ with rfl | rfl
    · exact .refl _
    · exact .remove fun h => hapart.not_isFinal hmem (Or.inr rfl) h.1
  have hsecond : FileSystem.Spares (IsName p job.files) (job.OtherFinal p) disk₁ disk₂ := by
    subst h₂
    split
    · exact .rename (isName_of_mem hmem (by simp [namesOf]))
        (fun h => hapart.not_isFinal hmem (Or.inl rfl) h.1) fun h => h.2 entry hentry rfl
    · exact .refl _
  rcases heq with heq | heq <;> rw [heq]
  · exact hfirst.trans hsecond
  · exact (hfirst.trans hsecond).trans (.setMtime _ _ _)

theorem modifyTime_spares (hnone : env.rename = false ∨
      ∀ entry, job.currentEntry = some entry → disk.dir (downloadKey p entry) = none) :
    FileSystem.Spares (IsName p job.files) (IsFinal p job.files) disk
      (job.modifyTime env disk) := by
  obtain heq | ⟨entry, hentry, disk₁, disk₂, h₁, h₂, heq⟩ := modifyTime_cases env disk hgen
  · rw [heq]
    exact .refl disk
  have hmem := currentEntry_mem hentry
  have hfirst : FileSystem.Spares (IsName p job.files) (IsFinal p job.files) disk disk₁ := by
    rcases h₁ with rfl | rfl
    · exact .refl _
    · exact .remove (hapart.not_isFinal hmem (Or.inr rfl))
  have hsecond : FileSystem.Spares (IsName p job.files) (IsFinal p job.files) disk₁ disk₂ := by
    subst h₂
    split
    · next hrename =>
      have hgone := (hnone.resolve_left (by simp [hrename])) entry hentry
      apply FileSystem.Spares.rename_of_none
      rcases h₁ with rfl | rfl
      · exact hgone
      · rw [FileSystem.dir_remove_of_ne _ _ _ (downloadKey_ne_digestKey p entry entry)]
        exact hgone
    · exact .refl _
  rcases heq with heq | heq <;> rw [heq]
  · exact hfirst.trans hsecond
  · exact (hfirst.trans hsecond).trans (.setMtime _ _ _)

theorem modifyTime_renames {entry : FileEntry} {i : ℕ} (hentry : job.currentEntry = some entry)
    (hi : disk.dir (downloadKey p entry) = some i) :
    FileSystem.Spares (IsName p job.files) (IsFinal p job.files) disk
        (job.modifyTime env disk) ∨
      (job.modifyTime env disk).dir (finalKey p entry) = some i := by
  cases hrename : env.rename with
  | false => exact Or.inl (modifyTime_spares env disk hgen hapart (Or.inl hrename))
  | true =>
    obtain heq | ⟨entry', hentry', disk₁, disk₂, h₁, h₂, heq⟩ := modifyTime_cases env disk hgen
    · rw [heq]
      exact Or.inl (.refl disk)
    obtain rfl : entry' = entry := Option.some.inj (hentry'.symm.trans hentry)
    have hmem := currentEntry_mem hentry
    have hi₁ : disk₁.dir (downloadKey p entry') = some i := by
      rcases h₁ with rfl | rfl
      · exact hi
      · rw [FileSystem.dir_remove_of_ne _ _ _ (downloadKey_ne_digestKey p entry' entry')]
        exact hi
    have hi₂ : disk₂.dir (finalKey p entry') = some i := by
      rw [h₂, if_pos hrename]
      exact FileSystem.dir_rename_dst _ (hapart.final_ne_download hmem) hi₁
    right
    rcases heq with heq | heq <;> rw [heq]
    · exact hi₂
    · rw [FileSystem.dir_setMtime]
      exact hi₂

end ModifyTime

/-! ### Opening the file of a block -/

section CreateFile

variable {N F : PathKey → Prop} {path dp : Path} (env : WriteEnv) (disk : Disk)

theorem createFile_cases (job : TransferJob) (hF : ∀ k, F k → N k) (hpath : N (pathKey path))
    (hdp : N (pathKey dp)) (hpathF : ¬ F (pathKey path)) (hdpF : ¬ F (pathKey dp))
    (hne : pathKey path ≠ pathKey dp) :
    (∃ e disk', job.createFile env path (some dp) disk = (disk', job, .error e) ∧
      FileSystem.Spares N F disk disk' ∧ (env.removeDigest ≠ .ok () ∨ env.create ≠ .ok ())) ∨
    ∃ file disk', job.createFile env path (some dp) disk =
        (disk', { job with dataStream := some (.fileStream file) }, .ok ()) ∧
      FileSystem.Spares N F disk disk' ∧ file.writable = true ∧ file.pos = 0 ∧
      disk'.dir (pathKey path) = some file.inode ∧
      (disk.LinkFree N → disk'.content (pathKey path) = some []) := by
  have hremove : FileSystem.Spares N F disk (disk.remove (pathKey dp)) := .remove hdpF
  unfold createFile
  dsimp only
  split
  · next e he =>
    refine Or.inl ⟨e, disk, rfl, .refl disk, Or.inl fun hok => ?_⟩
    split at he
    · rw [hok] at he
      cases he
    · cases he
  · next disk₁ hdisk₁ =>
    have hfirst : FileSystem.Spares N F disk disk₁ := by
      split at hdisk₁
      · cases hrem : env.removeDigest with
        | error e =>
          rw [hrem] at hdisk₁
          cases hdisk₁
        | ok _ =>
          rw [hrem] at hdisk₁
          obtain rfl : disk.remove (pathKey dp) = disk₁ := Except.ok.inj hdisk₁
          exact hremove
      · obtain rfl : disk = disk₁ := Except.ok.inj hdisk₁
        exact .refl disk
    split
    · next e he => exact Or.inl ⟨e, disk₁, rfl, hfirst, Or.inr (by rw [he]; simp)⟩
    · have hcreate : FileSystem.Spares N F disk₁ (disk₁.create (pathKey path)).1 :=
        .create hF hpath hpathF
      have hempty : (disk₁.create (pathKey path)).1.content (pathKey path) = some [] := by
        unfold FileSystem.content
        rw [disk₁.dir_create_self, Option.map_some, disk₁.node_create_self]
      refine Or.inr ⟨(disk₁.create (pathKey path)).2, _, rfl, ?_, ?_, ?_, ?_, ?_⟩
      · split
        · exact (hfirst.trans hcreate).trans (.writeFile hF hdp hdpF _)
        · exact hfirst.trans hcreate
      · unfold FileSystem.create
        split <;> rfl
      · unfold FileSystem.create
        split <;> rfl
      · split
        · rw [FileSystem.dir_writeFile_of_ne _ _ _ _ hne]
          exact disk₁.dir_create_self _
        · exact disk₁.dir_create_self _
      · intro hlinks
        split
        · -- The digest goes to a file of its own.
          have hdigest : FileSystem.Spares N (fun k => k = pathKey path)
              (disk₁.create (pathKey path)).1
              ((disk₁.create (pathKey path)).1.writeFile (pathKey dp) (digestJson job.digest)) :=
            .writeFile (fun k hk => hk ▸ hpath) hdp (fun h => hne h.symm) _
          rw [hdigest.content ((hfirst.trans hcreate).linkFree hlinks) _ rfl]
          exact hempty
        · exact hempty

end CreateFile

theorem blockPaths_eq (env : WriteEnv) {job : TransferJob} (htype : job.type = .generic)
    (p : Path) (entry : FileEntry) : job.blockPaths env p entry =
      (joinValidatedPath env.onDisk p entry.name).map fun path =>
        (downloadPath path, some (digestPath path)) := by
  unfold blockPaths
  rw [if_neg (by rw [htype]; simp)]
  cases joinValidatedPath env.onDisk p entry.name <;> rfl

/-- The calls of a switch to the file of an entry that can stop it half way succeed. -/
structure SwitchSafe (env : WriteEnv) (p : Path) (entry : FileEntry) : Prop where
  syncAll : env.syncAll = .ok ()
  path : ∃ path, joinValidatedPath env.onDisk p entry.name = .ok path
  removeDigest : env.removeDigest = .ok ()
  create : env.create = .ok ()

theorem openBlock_cases {N F : PathKey → Prop} (env : WriteEnv) (block : FileTransferBlock)
    (disk : Disk) (hgen : job.Generic p) (hF : ∀ k, F k → N k)
    (hnames : ∀ entry ∈ job.files, N (downloadKey p entry) ∧ N (digestKey p entry) ∧
      ¬ F (downloadKey p entry) ∧ ¬ F (digestKey p entry)) :
    -- the block is rejected,
    (∃ e, job.openBlock env block disk = (disk, job, .error e) ∧
      (block.id ≠ job.id ∨ job.files[asUsize block.fileNum]? = none)) ∨
    (block.id = job.id ∧ ∃ entry, job.files[asUsize block.fileNum]? = some entry ∧
      -- it is for the open file,
      ((job.switches block = false ∧ job.openBlock env block disk = (disk, job, .ok ())) ∨
      -- its file cannot be opened,
      (job.switches block = true ∧ ¬ SwitchSafe env p entry ∧ ∃ e n disk',
        job.openBlock env block disk = (disk', { job with fileNum := n }, .error e) ∧
        FileSystem.Spares N F (job.modifyTime env.finish disk) disk') ∨
      -- or its file is opened.
      (job.switches block = true ∧ ∃ file disk',
        job.openBlock env block disk =
          (disk', { job with
            fileNum := block.fileNum, dataStream := some (.fileStream file) }, .ok ()) ∧
        FileSystem.Spares N F (job.modifyTime env.finish disk) disk' ∧
        file.writable = true ∧ file.pos = 0 ∧
        disk'.dir (downloadKey p entry) = some file.inode ∧
        ((job.modifyTime env.finish disk).LinkFree N →
          disk'.content (downloadKey p entry) = some [])))) := by
  unfold openBlock
  split
  · next hid => exact Or.inl ⟨_, rfl, Or.inl hid⟩
  next hid =>
  split
  case h_2 hsource => exact absurd (hgen.source.symm.trans hsource) (by simp)
  next p' hsource =>
  obtain rfl : p' = p := DataSource.filePath.inj (hsource.symm.trans hgen.source)
  split
  · next hnone => exact Or.inl ⟨_, rfl, Or.inr hnone⟩
  next entry hentry =>
  refine Or.inr ⟨Classical.not_not.mp hid, entry, hentry, ?_⟩
  have hswitches : job.switches block = true ↔
      (asUsize block.fileNum ≠ asUsize job.fileNum ∨ job.dataStream = none) := by
    unfold switches
    rw [Bool.or_eq_true, bne_iff_ne, Option.isNone_iff_eq_none]
  split
  · next hsw =>
    right
    unfold switchFile
    dsimp only
    split
    · next e he =>
      refine Or.inl ⟨hswitches.mpr hsw, fun hsafe => ?_, e, job.fileNum, _, rfl, .refl _⟩
      split at he
      · rw [hsafe.syncAll] at he
        cases he
      · cases he
    · have htype : ({ job with fileNum := block.fileNum } : TransferJob).type =
        .generic := hgen.type
      rw [blockPaths_eq env htype]
      cases hpath : joinValidatedPath env.onDisk p' entry.name with
      | error e =>
        refine Or.inl ⟨hswitches.mpr hsw, fun hsafe => ?_, e, block.fileNum, _, rfl, .refl _⟩
        obtain ⟨path, hok⟩ := hsafe.path
        rw [hpath] at hok
        cases hok
      | ok path =>
        obtain rfl := joinValidatedPath_eq hpath
        obtain ⟨hdl, hdg, hdlF, hdgF⟩ := hnames entry (List.mem_of_getElem? hentry)
        obtain ⟨e, disk', heq, hspares, hwhy⟩ | ⟨file, disk', heq, hrest⟩ :=
          createFile_cases env (job.modifyTime env.finish disk)
            { job with fileNum := block.fileNum } hF hdl hdg hdlF hdgF
            (downloadKey_ne_digestKey p' entry entry)
        · refine Or.inl ⟨hswitches.mpr hsw, fun hsafe => ?_, e, block.fileNum, disk', heq, hspares⟩
          rcases hwhy with hwhy | hwhy
          · exact hwhy hsafe.removeDigest
          · exact hwhy hsafe.create
        · exact Or.inr ⟨hswitches.mpr hsw, file, disk', heq, hrest⟩
  · next hsw =>
    refine Or.inl ⟨?_, rfl⟩
    rw [← Bool.not_eq_true, hswitches]
    exact hsw

/-! ### Writing the block -/

theorem writeAll_cases (env : WriteEnv) (file : FileHandle) (bytes : Bytes) (disk : Disk) :
    ∃ disk' pos, writeAll env (.fileStream file) bytes disk =
        (disk', .fileStream { file with pos := pos }, env.writeAll) ∧
      (disk' = disk ∨
        file.writable = true ∧ ∃ bytes', disk' = (disk.writeAt file bytes').1) := by
  unfold writeAll
  dsimp only
  split
  · next hwritable => exact ⟨_, _, rfl, Or.inr ⟨hwritable, _, rfl⟩⟩
  · exact ⟨_, _, rfl, Or.inl rfl⟩

theorem writeBlock_cases (z : Zstd) (env : WriteEnv) (job : TransferJob)
    (block : FileTransferBlock) (disk : Disk) {file : FileHandle}
    (hfile : job.dataStream = some (.fileStream file)) :
    ∃ disk' pos finished transferred result,
      job.writeBlock z env block disk = (disk', { job with
        dataStream := some (.fileStream { file with pos := pos })
        finishedSize := finished
        transferred := transferred }, result) ∧
      (disk' = disk ∨ file.writable = true ∧ ∃ bytes, disk' = (disk.writeAt file bytes).1) := by
  obtain ⟨disk', pos, heq, hdisk⟩ := writeAll_cases env file (block.content z) disk
  unfold writeBlock
  rw [hfile]
  dsimp only
  rw [heq]
  cases env.writeAll with
  | error | ok => exact ⟨disk', pos, _, _, _, rfl, hdisk⟩

/-! ### Confirming -/

theorem offsetStream_cases (env : SeekEnv) (p : Path) (entry : FileEntry) (disk : Disk) :
    (offsetStream env (join p entry.name) disk).1 = disk ∧
      ∀ file, (offsetStream env (join p entry.name) disk).2 = some file →
        file.writable = false ∨ disk.dir (downloadKey p entry) = some file.inode := by
  unfold offsetStream
  split
  · next hhas =>
    split
    · have hsome : (disk.dir (downloadKey p entry)).isSome := (Bool.and_eq_true _ _ ▸ hhas).1
      obtain ⟨i, hi⟩ := Option.isSome_iff_exists.mp hsome
      have hopen : disk.openWrite (pathKey (downloadPath (join p entry.name))) =
          (disk, ⟨i, 0, true⟩) := by
        unfold FileSystem.openWrite
        rw [show disk.dir (pathKey (downloadPath (join p entry.name))) = some i from hi]
      rw [hopen]
      refine ⟨rfl, fun file h => Or.inr ?_⟩
      obtain rfl : (⟨i, 0, true⟩ : FileHandle) = file := Option.some.inj h
      exact hi
    · exact ⟨rfl, fun _ h => by cases h⟩
  · split
    · split
      · refine ⟨rfl, fun file h => Or.inl ?_⟩
        obtain ⟨i, -, rfl⟩ := Option.map_eq_some_iff.mp h
        rfl
      · exact ⟨rfl, fun _ h => by cases h⟩
    · exact ⟨rfl, fun _ h => by cases h⟩

/-- The request resumes the current file in the middle. -/
def Resumes (job : TransferJob) (r : FileTransferSendConfirmRequest) : Prop :=
  r.fileNum = job.fileNum ∧ ∃ offset, r.union = some (.offsetBlk offset) ∧ offset > 0

theorem confirm_cases (env : SeekEnv) (r : FileTransferSendConfirmRequest) (disk : Disk)
    (hgen : job.Generic p) :
    (job.confirm env r disk).1 = disk ∧ ∀ job', (job.confirm env r disk).2 = some job' →
      job' = job.setFileSkipped ∨ job' = job ∨ job' = job.setFileConfirmed true ∨
      (job.Resumes r ∧ ∃ entry file transferred finished, job.currentEntry = some entry ∧
        (file.writable = false ∨ disk.dir (downloadKey p entry) = some file.inode) ∧
        job' = { job.setFileConfirmed true with
          dataStream := some (.fileStream file)
          transferred := transferred
          finishedSize := finished }) := by
  unfold confirm
  split
  · exact ⟨rfl, fun job' h => Or.inr (Or.inl (Option.some.inj h).symm)⟩
  next hnum =>
  replace hnum : job.fileNum = r.fileNum := Classical.not_not.mp hnum
  split
  · next s _ =>
    cases s with
    | true => exact ⟨rfl, fun job' h => Or.inl (Option.some.inj h).symm⟩
    | false => exact ⟨rfl, fun job' h => Or.inr (Or.inr (Or.inl (Option.some.inj h).symm))⟩
  · next offset hunion =>
    dsimp only
    split
    · next hpos =>
      unfold setStreamOffset
      split
      case h_1 hsource =>
        exact absurd (hgen.source.symm.trans (show job.dataSource = _ from hsource)) (by simp)
      next p' hsource =>
      obtain rfl : p' = p :=
        DataSource.filePath.inj ((show job.dataSource = _ from hsource).symm.trans hgen.source)
      split
      · exact ⟨rfl, fun _ h => by cases h⟩
      · next entry hentry =>
        have hcur : job.currentEntry = some entry := by
          unfold currentEntry
          rw [hnum]
          exact hentry
        split
        · exact ⟨rfl, fun job' h => Or.inr (Or.inr (Or.inl (Option.some.inj h).symm))⟩
        · next path hpath =>
          have hgen' : (job.setFileConfirmed true).Generic p' := ⟨hgen.type, hsource⟩
          obtain rfl := resolveEntryPath_eq hgen' hpath
          obtain ⟨hdisk, hfile⟩ := offsetStream_cases env p' entry disk
          split
          · next disk' hopen =>
            rw [hopen] at hdisk
            exact ⟨hdisk, fun job' h => Or.inr (Or.inr (Or.inl (Option.some.inj h).symm))⟩
          · next disk' file hopen =>
            rw [hopen] at hdisk hfile
            split
            · refine ⟨hdisk, fun job' h => Or.inr (Or.inr (Or.inr ?_))⟩
              exact ⟨⟨hnum.symm, offset, hunion, hpos⟩, entry,
                { file with pos := offset.toUInt64.toNat }, _, _, hcur, hfile file rfl,
                (Option.some.inj h).symm⟩
            · exact ⟨hdisk, fun job' h => Or.inr (Or.inr (Or.inl (Option.some.inj h).symm))⟩
    · exact ⟨rfl, fun job' h => Or.inr (Or.inr (Or.inl (Option.some.inj h).symm))⟩
  · exact ⟨rfl, fun job' h => Or.inr (Or.inl (Option.some.inj h).symm)⟩

end TransferJob

end LibRustdesk.FileTransfer
