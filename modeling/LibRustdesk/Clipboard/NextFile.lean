import LibRustdesk.Clipboard.Download

/-!
# From one file of a paste to the next

`update_next` under the condition `updatesWell`: what it does to a download that is open, and to a
list that is done up to an entry.

* `Downloading.drain`, `Downloading.accept`, `Downloading.closeWriter` — bytes on their way from a
  response through the buffer into the download.
* `Downloading.onDone` — the download becomes the file.
* `Between.nextFile` — the search for the next file makes the entries it passes, and `Goes` on.
* `Downloading.updateNext`, `Between.updateNext` — so the task keeps to `Tracks`.
-/

namespace LibRustdesk.Clipboard.Paste

open LittleEndian FileTransfer Descriptor

/-! ### A download is written and left -/

section Download

variable {κ : Type*} {lead : Bool × PathKey → κ} {env : Env} {before : Disk κ}
  {acc : List (Option Request × Bytes)} {w w' : World κ} {n : ℕ} {file : FileDescription}
  {wr : Writer}

theorem Between.of_eq (h : Between lead before acc n w) (hdisk : w'.disk = w.disk)
    (htask : w'.task = w.task) : Between lead before acc n w' := by
  obtain ⟨disk, task, outs⟩ := w'
  subst hdisk htask
  exact ⟨h.core, h.rest, h.handle, h.error, h.canceled⟩

theorem Downloading.of_eq (h : Downloading lead before acc n file wr w) (hdisk : w'.disk = w.disk)
    (htask : w'.task = w.task) : Downloading lead before acc n file wr w' := by
  obtain ⟨disk, task, outs⟩ := w'
  subst hdisk htask
  exact ⟨h.core, h.rest, h.listed, h.kind, h.listIndex, h.downloadIndex, h.downloadSize, h.name,
    h.handle, h.inode, h.error, h.canceled⟩

theorem Downloading.count (h : Downloading lead before acc n file wr w) (size offset : UInt64) :
    Downloading lead before acc n file wr
      (w.setProgress { w.task.progress with currentSize := size, offset := offset }) :=
  ⟨h.core, h.rest, h.listed, h.kind, h.listIndex, h.downloadIndex, h.downloadSize, h.name,
    h.handle, h.inode, h.error, h.canceled⟩

theorem Downloading.file? (h : Downloading lead before acc n file wr w) :
    w.task.file? (n : ℤ) = some file := by
  unfold TaskHandle.file?
  rw [if_neg (by omega), Int.toNat_natCast]
  exact h.listed

theorem Downloading.lt_length (h : Downloading lead before acc n file wr w) :
    n < w.task.files.length := (List.getElem?_eq_some_iff.mp h.listed).1

theorem Downloading.drain (h : Downloading lead before acc n file wr w) (k : ℕ) :
    Downloading lead before acc n file (w.drain wr k).2
      ((w.drain wr k).1.setProgress
        { w.task.progress with fileHandle := some (w.drain wr k).2 }) := by
  obtain ⟨placed, c, hcore, hpos, hbytes⟩ := h.core
  constructor
  case core =>
    refine ⟨placed, c ++ wr.pending.take k, ?_, ?_, ?_⟩
    · exact hcore.change (hcore.files.writeAt h.inode hpos _) fun _ hk => hk
    · show wr.file.pos + (wr.pending.take k).length = _
      rw [hpos, List.length_append]
    · show c ++ wr.pending.take k ++ wr.pending.drop k = _
      rw [List.append_assoc, List.take_append_drop, hbytes]
  case handle => rfl
  case inode => exact h.inode
  all_goals first
    | exact h.rest | exact h.listed | exact h.kind | exact h.listIndex | exact h.downloadIndex
    | exact h.downloadSize | exact h.name | exact h.error | exact h.canceled

theorem Downloading.accept (h : Downloading lead before acc n file wr w) {r : Request}
    (hserial : r.serial = w.task.serial) (hindex : r.listIndex = (n : ℤ))
    (hoffset : r.offset.toNat = (received acc n).length) (data : Bytes) :
    Downloading lead before (acc ++ [(some r, data)]) n file
      { wr with pending := wr.pending ++ data }
      (w.setProgress { w.task.progress with
        fileHandle := some { wr with pending := wr.pending ++ data } }) := by
  obtain ⟨placed, c, hcore, hpos, hbytes⟩ := h.core
  constructor
  case core =>
    refine ⟨placed, c, hcore.accept hserial hindex hoffset data, hpos, ?_⟩
    rw [received_concat_self hindex, ← hbytes, List.append_assoc]
  case rest =>
    intro i hi
    rw [received_concat_of_ne hindex (Nat.ne_of_gt hi)]
    exact h.rest i hi
  case handle => rfl
  case inode => exact h.inode
  all_goals first
    | exact h.listed | exact h.kind | exact h.listIndex | exact h.downloadIndex
    | exact h.downloadSize | exact h.name | exact h.error | exact h.canceled

theorem Downloading.closeWriter (h : Downloading lead before acc n file wr w)
    (hflush : env.flushFails = none) :
    (∃ placed, Core lead (w.task.job before) (w.closeWriter env).disk acc n placed
      [(at' lead w.task.progress.downloadFilePath, received acc n)]) ∧
    (∀ q, (w.closeWriter env).disk.exists lead q = w.disk.exists lead q) := by
  obtain ⟨placed, c, hcore, hpos, hbytes⟩ := h.core
  have hclose : (w.closeWriter env).disk =
      { w.disk with files := (w.disk.files.writeAt wr.file wr.pending).1 } := by
    unfold World.closeWriter
    rw [h.handle, hflush]
    dsimp only [Option.getD_none]
    unfold World.drain
    rw [List.take_length]
    rfl
  rw [hclose]
  refine ⟨⟨placed, ?_⟩, fun q => rfl⟩
  rw [← hbytes]
  exact hcore.change (hcore.files.writeAt h.inode hpos _) fun _ hk => hk

variable [DecidableEq κ]

theorem onDone_of_idle (h : w.task.progress.fileHandle = none) :
    (w.onDone lead env).disk = w.disk ∧ (w.onDone lead env).task = w.task := by
  unfold World.onDone
  rw [if_pos (Or.inl ?_)]
  · exact ⟨by simp, by simp⟩
  · simp [h]

theorem renameDownload_spec (hrename : env.renameFails = false) (renameTo : Path) :
    (w.renameDownload lead env renameTo).disk =
        { w.disk with
          files := w.disk.files.rename (at' lead w.task.progress.downloadFilePath)
            (at' lead renameTo) } ∧
      (w.renameDownload lead env renameTo).task = { w.task with progress :=
        { w.task.progress with downloadFilePath := [], downloadFileIndex := -1 } } := by
  unfold World.renameDownload
  dsimp only
  rw [hrename, if_neg Bool.false_ne_true]
  refine ⟨World.disk_setAttribute _ _, ?_⟩
  unfold World.setAttribute
  split <;> rfl

theorem Downloading.onDone (h : Downloading lead before acc n file wr w)
    (hfull : (received acc n).length = file.size.toNat) (hwell : w.leavesWell lead env = true) :
    Between lead before acc (n + 1) (w.onDone lead env) ∧
      (w.onDone lead env).task.files = w.task.files ∧
      (w.onDone lead env).task.progress.listIndex = (n : ℤ) := by
  unfold World.leavesWell at hwell
  rw [h.downloadIndex, h.file?] at hwell
  simp only [Bool.and_eq_true, Option.isNone_iff_eq_none, Bool.not_eq_true',
    Option.all_some] at hwell
  obtain ⟨⟨hflush, hrename⟩, hfree⟩ := hwell
  -- the attributes change nothing that counts
  obtain ⟨v, hv⟩ : ∃ v, v = (w.setAttribute w.task.progress.downloadFilePath).setAttribute
      w.task.progress.downloadFilePath := ⟨_, rfl⟩
  have hvDisk : v.disk = w.disk := by simp [hv]
  have hvTask : v.task = w.task := by simp [hv]
  obtain ⟨⟨placed, hcore⟩, hnames⟩ := (h.of_eq hvDisk hvTask).closeWriter hflush
  obtain ⟨renameTo, hto⟩ := Option.isSome_iff_exists.mp hfree
  have hto' : World.getNewFilename lead (v.closeWriter env).disk v.task.targetDir file =
      some renameTo := by
    rw [← hto, hvTask]
    exact getFirstFilename_congr (fun q => by rw [hnames, hvDisk]) _ _
  have hdone : w.onDone lead env = (v.closeWriter env).renameDownload lead env renameTo := by
    unfold World.onDone
    dsimp only
    rw [← hv, World.task_closeWriter, hvTask]
    rw [if_neg (by rw [h.handle, h.downloadIndex]; simp)]
    rw [h.downloadIndex]
    have hfile := h.file?
    unfold TaskHandle.file? at hfile ⊢
    rw [hfile]
    dsimp only
    rw [← hvTask, hto']
  have hrenamed := @renameDownload_spec _ lead _ (v.closeWriter env) _ hrename renameTo
  obtain ⟨hdisk, htask⟩ := hrenamed
  rw [World.task_closeWriter] at hdisk htask
  obtain ⟨hexists, hname⟩ := getFirstFilename_spec hto'
  refine ⟨?_, by rw [hdone, htask, hvTask], by rw [hdone, htask, hvTask]; exact h.listIndex⟩
  constructor
  case core =>
    refine ⟨(n, renameTo) :: placed, ?_⟩
    rw [hdone, hdisk, htask, hvTask]
    rw [hvTask] at hcore hname
    refine hcore.place h.listed h.kind hfull ?_ (fun _ hk => hk) ?_
    · exact hcore.files.rename (dir_eq_none_of_free hexists)
    · rcases hname with hown | ⟨htaken, hk⟩
      · exact Or.inl hown
      · -- what has the name was there before, or the task has made it
        refine Or.inr ⟨?_, hk.imp fun k hk => by rw [hk, h.kind]; rfl⟩
        rcases Bool.or_eq_true_iff.mp htaken with hfile | hdir
        · rcases hcore.files.has_iff.mp hfile with hold | hnew
          · exact Or.inl hold
          · rw [List.singleton_append, List.map_cons, List.mem_cons, List.map_map] at hnew
            rcases hnew with htemp | hplaced
            · exact Or.inr (Or.inr (Or.inr ⟨_, h.name, htemp.symm⟩))
            · exact Or.inr (Or.inr (Or.inl hplaced))
        · exact Or.inr (Or.inl hdir)
  case rest => exact fun i hi => h.rest i hi
  case handle => rw [hdone, htask, hvTask]
  case error => rw [hdone, htask, hvTask]; exact h.error
  case canceled => rw [hdone, htask, hvTask]; exact h.canceled

/-! ### The next file is looked for -/

theorem Between.createDirAll (h : Between lead before acc n w) (p : Path) :
    Between lead before acc n (w.createDirAll lead env p).1 := by
  obtain ⟨placed, hcore⟩ := h.core
  refine ⟨⟨placed, ?_⟩, h.rest, h.handle, h.error, h.canceled⟩
  exact hcore.change hcore.files fun k hk => World.dirs_createDirAll lead env w p hk

theorem Between.createFile (h : Between lead before acc n w) {path : Path}
    (hfile : w.task.files[n]? = some file) (hkind : file.kind = .file) (hsize : file.size = 0)
    (hpath : World.getNewFilename lead w.disk w.task.targetDir file = some path) :
    Between lead before acc (n + 1) (w.createFile lead path).1 := by
  obtain ⟨placed, hcore⟩ := h.core
  obtain ⟨hfree, hname⟩ := getFirstFilename_spec hpath
  have hnothing : received acc n = [] := h.rest n (Nat.le_refl n)
  refine ⟨⟨(n, path) :: placed, ?_⟩, fun i hi => h.rest i (by omega), h.handle, h.error, h.canceled⟩
  refine hcore.place hfile hkind ?_ ?_ (fun _ hk => hk) ?_
  · rw [hnothing, hsize]
    rfl
  · rw [hnothing]
    exact hcore.files.create (dir_eq_none_of_free hfree)
  · rcases hname with hown | ⟨htaken, hk⟩
    · exact Or.inl hown
    · refine Or.inr ⟨?_, hk.imp fun k hk => by rw [hk, hkind]; rfl⟩
      rcases Bool.or_eq_true_iff.mp htaken with hfile | hdir
      · rcases hcore.files.has_iff.mp hfile with hold | hnew
        · exact Or.inl hold
        · rw [List.nil_append, List.map_map] at hnew
          exact Or.inr (Or.inr (Or.inl hnew))
      · exact Or.inr (Or.inl hdir)

theorem Between.openNewWriter (h : Between lead before acc n w)
    (hfile : w.task.files[n]? = some file) (hkind : file.kind = .file) (hsize : file.size ≠ 0)
    (hindex : w.task.progress.listIndex = (n : ℤ)) (hoffset : w.task.progress.offset = 0) :
    Goes lead before acc (w.openNewWriter lead env) := by
  have hlt : n < w.task.files.length := (List.getElem?_eq_some_iff.mp hfile).1
  have hstuck (e : CliprdrError) : Goes lead before acc (w, .error e) :=
    .stuck h.handle (by rw [hindex]; exact_mod_cast hlt)
  unfold World.openNewWriter
  have hfile? : w.task.file? w.task.progress.listIndex = some file := by
    unfold TaskHandle.file?
    rw [hindex, if_neg (by omega), Int.toNat_natCast]
    exact hfile
  rw [hfile?]
  dsimp only
  split
  · exact hstuck _
  · next path hpath =>
    split
    · exact hstuck _
    · next up hup =>
      have hmade : Between lead before acc n
          (if w.disk.exists lead up then (w, (none : Option String))
          else w.createDirAll lead env up).1 := by
        split
        · exact h
        · exact h.createDirAll up
      have hsame : (if w.disk.exists lead up then (w, (none : Option String))
          else w.createDirAll lead env up).1.task = w.task ∧
          (if w.disk.exists lead up then (w, (none : Option String))
          else w.createDirAll lead env up).1.disk.files = w.disk.files := by
        split <;> exact ⟨rfl, rfl⟩
      split
      · next w' err heq =>
        rw [heq] at hsame
        obtain ⟨htask, -⟩ := hsame
        refine .stuck ?_ ?_ <;> rw [htask]
        · exact h.handle
        · rw [hindex]
          exact_mod_cast hlt
      · next w' heq =>
        rw [heq] at hmade hsame
        obtain ⟨htask, hfiles⟩ := hsame
        split
        · exact .failed rfl
        · -- the download is a new file
          obtain ⟨placed, hcore⟩ := hmade.core
          obtain ⟨hfree, hname⟩ := getFirstFilename_spec hpath
          have hdir : w'.disk.files.dir (at' lead path) = none := by
            rw [hfiles]
            exact dir_eq_none_of_free hfree
          have hopened : Downloading lead before acc n file ⟨(w'.createFile lead path).2, []⟩
              ((w'.createFile lead path).1.setProgress
                { w'.task.progress with
                  downloadFileIndex := w'.task.progress.listIndex
                  downloadFileSize := file.size
                  downloadFilePath := path
                  fileHandle := some ⟨(w'.createFile lead path).2, []⟩ }) := by
            refine ⟨⟨placed, [], ?_, w'.disk.files.create_pos _, ?_⟩,
              fun i hi => h.rest i (Nat.le_of_lt hi), ?_, hkind, ?_, ?_, rfl, ?_, rfl,
              w'.disk.files.dir_create_self _, hmade.error, hmade.canceled⟩
            · exact hcore.change (hcore.files.create hdir) fun _ hk => hk
            · exact (h.rest n (Nat.le_refl n)).symm
            · show w'.task.files[n]? = some file
              rw [htask]
              exact hfile
            · rw [htask]
              exact hindex
            · rw [htask]
              exact hindex
            · show DownloadName (pathJoin w'.task.targetDir file.name) path
              rw [htask]
              rw [hkind] at hname
              exact hname.imp id And.right
          refine .opened (hopened.of_eq (by simp) (by simp)) (h.rest n (Nat.le_refl n)) ?_ hsize
          rw [World.task_setAttribute, World.task_setAttribute]
          show w'.task.progress.offset = 0
          rw [htask]
          exact hoffset

theorem Between.nextFile {files : List FileDescription} :
    ∀ {n : ℕ} {w : World κ}, Between lead before acc n w → n ≤ w.task.files.length →
      w.task.files.drop n = files → w.fillsEmpty lead env files = true →
      Goes lead before acc (w.nextFile lead env (n : ℤ) files) := by
  induction files with
  | nil =>
    intro n w h hle hdrop _
    have hn : n = w.task.files.length :=
      Nat.le_antisymm hle (List.drop_eq_nil_iff.mp hdrop)
    exact .through (hn ▸ h)
  | cons file files ih =>
    intro n w h hle hdrop hwell
    have hfile : w.task.files[n]? = some file := by
      rw [← List.head?_drop, hdrop]
      rfl
    have hrest : w.task.files.drop (n + 1) = files := by
      rw [← List.tail_drop, hdrop]
      rfl
    have hlt : n < w.task.files.length := (List.getElem?_eq_some_iff.mp hfile).1
    have hsucc : ((n : ℤ) + 1) = ((n + 1 : ℕ) : ℤ) := by omega
    -- an entry that leaves nothing to do
    have hskip (hkind : file.kind ≠ .file) {v : World κ} (hv : Between lead before acc n v)
        (htask : v.task = w.task) : Between lead before acc (n + 1) v := by
      obtain ⟨placed, hcore⟩ := hv.core
      refine ⟨⟨placed, hcore.skip ?_ hkind⟩, fun i hi => hv.rest i (by omega), hv.handle, hv.error,
        hv.canceled⟩
      rw [htask]
      exact hfile
    unfold World.nextFile
    unfold World.fillsEmpty at hwell
    cases hkind : file.kind with
    | file =>
      rw [hkind] at hwell
      dsimp only at hwell ⊢
      split
      · next hsize =>
        rw [if_pos hsize] at hwell
        cases hpath : World.getNewFilename lead w.disk w.task.targetDir file with
        | none =>
          rw [hpath] at hwell
          cases hwell
        | some path =>
          rw [hpath, Bool.and_eq_true, Option.isNone_iff_eq_none] at hwell
          obtain ⟨hcreate, hwell⟩ := hwell
          dsimp only
          rw [hcreate, hsucc]
          have hmade := (h.createFile hfile hkind hsize hpath).of_eq
            (World.disk_setAttribute _ path) (World.task_setAttribute _ path)
          refine ih hmade ?_ ?_ hwell <;> rw [World.task_setAttribute, World.task_createFile]
          · exact hlt
          · exact hrest
      · next hsize =>
        have hopen : Between lead before acc n
            (w.setProgress { w.task.progress with listIndex := n, offset := 0 }) :=
          ⟨h.core, h.rest, h.handle, h.error, h.canceled⟩
        exact hopen.openNewWriter hfile hkind hsize rfl rfl
    | directory =>
      rw [hkind] at hwell
      dsimp only at hwell ⊢
      have hdir : file.kind ≠ .file := by rw [hkind]; exact FileType.noConfusion
      rw [hsucc]
      split
      · next hexists =>
        rw [if_pos hexists] at hwell
        exact ih (hskip hdir h rfl) hlt hrest hwell
      · next hmissing =>
        rw [if_neg hmissing] at hwell
        exact ih (hskip hdir (h.createDirAll _) rfl) hlt hrest hwell
    | symlink =>
      rw [hkind] at hwell
      have hlink : file.kind ≠ .file := by rw [hkind]; exact FileType.noConfusion
      rw [hsucc]
      exact ih (hskip hlink h rfl) hlt hrest hwell

theorem Goes.tracks {w : World κ} {res : Except CliprdrError Unit}
    (h : Goes lead before acc (w, res)) :
    Tracks lead before acc (match res with | .error _ => w | .ok () => w.stopIfIdle) := by
  cases h with
  | stuck hhandle hindex => exact .stuck hhandle hindex
  | failed herror =>
    refine .failed ?_
    dsimp only
    unfold World.stopIfIdle
    split <;> exact herror
  | through h =>
    have hidle : w.stopIfIdle = w.setProgress { w.task.progress with
        listIndex := w.task.files.length, offset := 0, downloadFileSize := 0 } := by
      unfold World.stopIfIdle
      rw [h.handle]
      rfl
    rw [hidle]
    exact .complete ⟨h.core, h.rest, h.handle, h.error, h.canceled⟩ (Int.le_refl _)
  | opened h hnothing hoffset hsize =>
    have hbusy : w.stopIfIdle = w := by
      unfold World.stopIfIdle
      rw [h.handle]
      rfl
    rw [hbusy]
    refine .downloading h (by rw [hnothing, hoffset]; rfl) ?_
    rw [hoffset]
    exact Nat.pos_of_ne_zero fun hzero => hsize (UInt64.toNat_inj.mp hzero)

theorem not_isFinished {t : TaskHandle} (herror : t.progress.error = none)
    (hcanceled : t.progress.isCanceled = false) (hindex : t.progress.listIndex < t.files.length) :
    t.isFinished = false := by
  unfold TaskHandle.isFinished
  rw [herror, hcanceled]
  simpa using hindex

variable (lead env) in
/-- The search of `update_next`, once the file in progress is left. -/
def search (w : World κ) : World κ × Except CliprdrError Unit :=
  match w.nextFile lead env (w.task.progress.listIndex + 1)
      (w.task.files.drop (w.task.progress.listIndex + 1).toNat) with
  | (w, .error e) => (w, .error e)
  | (w, .ok ()) => (w.stopIfIdle, .ok ())

/-- `update_next` has counted the bytes. -/
def counted (w : World κ) (size : UInt64) : World κ :=
  w.setProgress { w.task.progress with currentSize := w.task.progress.currentSize + size }

def advanced (w : World κ) (size : UInt64) : World κ :=
  w.setProgress { w.task.progress with offset := w.task.progress.offset + size }

theorem updateNext_eq (w : World κ) (size : UInt64) :
    w.updateNext lead env size =
      if w.task.isFinished then (w, .ok ())
      else if w.task.progress.listIndex = -1 ∨
          w.task.progress.downloadFileSize ≤ w.task.progress.offset + size then
        search lead env ((counted w size).leaveFile lead env)
      else
        (((advanced (counted w size) size).setAttribute
          w.task.progress.downloadFilePath).stopIfIdle, .ok ()) := rfl

theorem updatesWell_eq (w : World κ) (size : UInt64) :
    w.updatesWell lead env size =
      if w.task.isFinished then true
      else if w.task.progress.listIndex = -1 ∨
          w.task.progress.downloadFileSize ≤ w.task.progress.offset + size then
        (w.task.progress.listIndex = -1 || (counted w size).leavesWell lead env) &&
          ((counted w size).leaveFile lead env).fillsEmpty lead env
            (((counted w size).leaveFile lead env).task.files.drop
              (((counted w size).leaveFile lead env).task.progress.listIndex + 1).toNat)
      else true := rfl

theorem Between.search {v : World κ} (h : Between lead before acc n v)
    (hle : n ≤ v.task.files.length) (hindex : v.task.progress.listIndex + 1 = (n : ℤ))
    (hwell : v.fillsEmpty lead env
      (v.task.files.drop (v.task.progress.listIndex + 1).toNat) = true) :
    Tracks lead before acc (search lead env v).1 := by
  unfold Paste.search
  rw [hindex, Int.toNat_natCast] at hwell ⊢
  have hgoes := h.nextFile hle rfl hwell
  generalize v.nextFile lead env n (v.task.files.drop n) = next at hgoes ⊢
  obtain ⟨w', res⟩ := next
  have htracks := hgoes.tracks
  cases res with
  | error | ok => exact htracks

theorem Between.updateNext (h : Between lead before acc 0 w)
    (hindex : w.task.progress.listIndex = -1) (hwell : w.updatesWell lead env 0 = true) :
    Tracks lead before acc (w.updateNext lead env 0).1 := by
  have hopen := not_isFinished h.error h.canceled (by rw [hindex]; omega)
  have hleave : (counted w 0).leaveFile lead env = counted w 0 := if_pos hindex
  have hbetween : Between lead before acc 0 (counted w 0) :=
    ⟨h.core, h.rest, h.handle, h.error, h.canceled⟩
  rw [updatesWell_eq, hopen, if_neg Bool.false_ne_true, if_pos (Or.inl hindex), hleave,
    Bool.and_eq_true_iff] at hwell
  rw [updateNext_eq, hopen, if_neg Bool.false_ne_true, if_pos (Or.inl hindex), hleave]
  refine hbetween.search (Nat.zero_le _) ?_ hwell.2
  show w.task.progress.listIndex + 1 = _
  rw [hindex]
  rfl

theorem Downloading.updateNext (h : Downloading lead before acc n file wr w) {size : UInt64}
    (hgot : (received acc n).length = w.task.progress.offset.toNat + size.toNat)
    (hfits : (received acc n).length ≤ file.size.toNat)
    (hwell : w.updatesWell lead env size = true) :
    Tracks lead before acc (w.updateNext lead env size).1 := by
  have hindex := h.listIndex
  have hlt := h.lt_length
  have hopen : w.task.isFinished = false :=
    not_isFinished h.error h.canceled (by rw [hindex]; exact_mod_cast hlt)
  have hstarted : w.task.progress.listIndex ≠ -1 := by rw [hindex]; omega
  -- no overflow: the file is listed with its size
  have hsum : (w.task.progress.offset + size).toNat = (received acc n).length := by
    have hbound := file.size.toNat_lt
    rw [UInt64.toNat_add, ← hgot]
    exact Nat.mod_eq_of_lt (by omega)
  rw [updatesWell_eq, hopen, if_neg Bool.false_ne_true] at hwell
  rw [updateNext_eq, hopen, if_neg Bool.false_ne_true]
  have hcounted : Downloading lead before acc n file wr (counted w size) :=
    h.count (w.task.progress.currentSize + size) w.task.progress.offset
  split
  · next hlast =>
    -- the file is complete
    have hfull : (received acc n).length = file.size.toNat := by
      have hle := hlast.resolve_left hstarted
      rw [h.downloadSize, UInt64.le_iff_toNat_le, hsum] at hle
      exact Nat.le_antisymm hfits hle
    have hleave : (counted w size).leaveFile lead env = (counted w size).onDone lead env :=
      if_neg hstarted
    rw [if_pos hlast, hleave, Bool.and_eq_true_iff] at hwell
    obtain ⟨hleaves, hfills⟩ := hwell
    have hleaves' : (counted w size).leavesWell lead env = true :=
      (Bool.or_eq_true_iff.mp hleaves).resolve_left fun hneg => hstarted (of_decide_eq_true hneg)
    obtain ⟨hbetween, hfiles, hat⟩ := hcounted.onDone hfull hleaves'
    rw [hleave]
    refine hbetween.search ?_ ?_ hfills
    · rw [hfiles]
      exact hlt
    · rw [hat]
      omega
  · next hmore =>
    -- bytes are missing, and the writer stays
    have hmissing : (received acc n).length < file.size.toNat := by
      have hlt := (not_or.mp hmore).2
      rw [h.downloadSize, UInt64.le_iff_toNat_le, hsum] at hlt
      exact Nat.lt_of_not_le hlt
    have hadvanced : Downloading lead before acc n file wr
        ((advanced (counted w size) size).setAttribute w.task.progress.downloadFilePath) :=
      (h.count (w.task.progress.currentSize + size) (w.task.progress.offset + size)).of_eq
        (World.disk_setAttribute _ _) (World.task_setAttribute _ _)
    have hbusy : ((advanced (counted w size) size).setAttribute
        w.task.progress.downloadFilePath).stopIfIdle =
        (advanced (counted w size) size).setAttribute w.task.progress.downloadFilePath := by
      unfold World.stopIfIdle
      rw [hadvanced.handle]
      rfl
    rw [hbusy]
    have hoffset : ((advanced (counted w size) size).setAttribute
        w.task.progress.downloadFilePath).task.progress.offset = w.task.progress.offset + size := by
      rw [World.task_setAttribute]
      rfl
    refine .downloading hadvanced ?_ ?_ <;> rw [hoffset, hsum]
    exact hmissing

end Download

end LibRustdesk.Clipboard.Paste
