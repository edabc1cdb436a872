import LibRustdesk.Clipboard.Paste

/-!
# Where the paste task writes

Every path that a paste creates, changes or removes is to be below the directory the user pastes
into. The names come from the peer, and they are joined to the directory as they are.

* `Contained` — what a task and its disk keep while an event is handled: the names are `Inside`, the
  directory is there, and the path of the download is below it. Each function of the task keeps it.
* `calls_descend` — so along a run in which every list of files has such names, all calls stay
  below.

The names that are tried when one is taken (`variant`) stay where the first was, since they change
the last component only. A name of no component but dots does not: the directory itself would be the
file to rename, and its siblings the names to try. -/

namespace LibRustdesk.Clipboard.Paste

open LittleEndian FileTransfer Descriptor Ohos

/-! ### Other names for a path -/

theorem noSlash_splitFileAtDot {name : Path} (h : '/' ∉ name) :
    '/' ∉ (splitFileAtDot name).1 ∧ ∀ ext, (splitFileAtDot name).2 = some ext → '/' ∉ ext := by
  have hrev : '/' ∉ name.reverse := fun hmem => h (List.mem_reverse.mp hmem)
  unfold splitFileAtDot
  split
  · exact ⟨h, fun ext hext => by cases hext⟩
  · exact ⟨h, fun ext hext => by cases hext⟩
  · next dot before _ heq =>
    constructor
    · intro hmem
      have hdrop : '/' ∈ name.reverse.dropWhile (· ≠ '.') := by
        rw [heq]
        exact List.mem_cons_of_mem dot (List.mem_reverse.mp hmem)
      exact hrev ((List.dropWhile_sublist _).mem hdrop)
    · rintro ext hext hmem
      obtain rfl := Option.some.inj hext
      exact hrev ((List.takeWhile_sublist _).mem (List.mem_reverse.mp hmem))

theorem noSlash_toDigits (n : ℕ) : '/' ∉ Nat.toDigits 10 n := fun h =>
  absurd (Nat.isDigit_of_mem_toDigits (by decide) (by decide) h) (by decide)

namespace World

theorem under_variant {t path : Path} (h : Under t path) (kind : FileType) (i : ℕ) :
    Under t (variant path kind i) := by
  have happend : Under t (path ++ ' ' :: '(' :: Nat.toDigits 10 i ++ [')']) := by
    rw [List.append_assoc]
    refine h.append ?_ ?_ ⟨' ', List.mem_cons_self, by decide⟩
    · simp [noSlash_toDigits]
    · simp
  unfold variant
  split
  · next ext hext =>
    -- the last component is another, of a stem, a dash, a number and an extension
    obtain ⟨name, hname, hext⟩ := Option.bind_eq_some_iff.mp hext
    obtain ⟨-, -, -, -, hslash⟩ := fileName?_spec hname
    obtain ⟨hstem, hextSlash⟩ := noSlash_splitFileAtDot hslash
    have hstemEq : stem path = (splitFileAtDot name).1 := by
      unfold stem
      rw [hname]
      rfl
    refine h.withFileName ⟨?_, ?_, ?_⟩
    · rw [hstemEq]
      simp [hstem, noSlash_toDigits, hextSlash ext hext]
    · unfold skipped
      rw [Bool.or_eq_false_iff, beq_eq_false_iff_ne]
      refine ⟨by simp, fun hdot => ?_⟩
      have hmem : '-' ∈ ['.'] := hdot ▸ by simp
      simp at hmem
    · intro hdots
      have hmem : '-' ∈ ['.', '.'] := hdots ▸ by simp
      simp at hmem
  · exact happend

section Names

variable {κ : Type*} {lead : Bool × PathKey → κ} {d : Disk κ}

theorem under_firstFree {t path p : Path} {kind : FileType} (h : Under t path) :
    ∀ {n i : ℕ}, firstFree lead d path kind n i = some p → Under t p := by
  intro n
  induction n with
  | zero =>
    intro i hp
    cases hp
  | succ n ih =>
    intro i hp
    unfold firstFree at hp
    split at hp
    · exact ih hp
    · exact Option.some.inj hp ▸ under_variant h kind i

theorem under_getFirstFilename {t path p : Path} {kind : FileType} (h : Under t path)
    (hp : getFirstFilename lead d path kind = some p) : Under t p := by
  unfold getFirstFilename at hp
  split at hp
  · split at hp
    · cases hp
    · exact under_firstFree h hp
  · exact Option.some.inj hp ▸ h

theorem under_getNewFilename {t p : Path} {file : FileDescription} (h : Inside file.name)
    (hp : getNewFilename lead d t file = some p) : Under t p :=
  under_getFirstFilename (h.under t) hp

theorem under_missing {t : Path} (ht : d.dirs (at' lead t) = true) :
    ∀ (n : ℕ) {p : Path}, Under t p ∨ isAbsolute p = isAbsolute t ∧ pathKey p = pathKey t →
      ∀ q ∈ d.missing lead n p, Under t q := by
  intro n
  induction n with
  | zero =>
    intro p _ q hq
    cases hq
  | succ n ih =>
    intro p hp q hq
    unfold Disk.missing at hq
    split at hq
    · cases hq
    · next hmissing =>
      rcases hp with hunder | ⟨habs, hkey⟩
      · rcases List.mem_cons.mp hq with rfl | hq
        · exact hunder
        · cases hup : parent p with
          | none =>
            rw [hup] at hq
            cases hq
          | some up =>
            rw [hup] at hq
            exact ih (hunder.parent_cases hup) q hq
      · -- the directory itself is there
        have hexists : d.exists lead p = true := by
          unfold Disk.exists at' at *
          rw [habs, hkey, ht, Bool.or_true]
        exact absurd (by rw [hexists, Bool.or_true]) hmissing

end Names

end World

def Out.Within : Out → Prop
  | .call targetDir c => ∀ p ∈ c.paths, Under targetDir p
  | .request _ _ => True

variable {κ : Type*} (lead : Bool × PathKey → κ)

/-- The path of the task's download is empty or below its directory, and not empty while there is a
file to write to. -/
structure DownloadInside (targetDir : Path) (p : Progress) : Prop where
  path : p.downloadFilePath = [] ∨ Under targetDir p.downloadFilePath
  handle : p.fileHandle.isSome = true → Under targetDir p.downloadFilePath

structure Contained (w : World κ) : Prop where
  names : ∀ file ∈ w.task.files, Inside file.name
  target : w.disk.dirs (at' lead w.task.targetDir) = true
  download : DownloadInside w.task.targetDir w.task.progress
  outs : ∀ o ∈ w.outs, o.Within

namespace Contained

variable {lead} {w : World κ} {env : Env}

theorem setProgress (h : Contained lead w) {p : Progress}
    (hp : DownloadInside w.task.targetDir p) : Contained lead (w.setProgress p) :=
  ⟨h.names, h.target, hp, h.outs⟩

theorem keepDownload (h : Contained lead w) {p : Progress}
    (hpath : p.downloadFilePath = w.task.progress.downloadFilePath)
    (hhandle : p.fileHandle = w.task.progress.fileHandle) : Contained lead (w.setProgress p) :=
  h.setProgress ⟨by rw [hpath]; exact h.download.path, by
    rw [hhandle, hpath]
    exact h.download.handle⟩

theorem setFiles (h : Contained lead w) (files : FileSystem κ) :
    Contained lead { w with disk.files := files } :=
  ⟨h.names, h.target, h.download, h.outs⟩

theorem setError (h : Contained lead w) (e : CliprdrError) : Contained lead (w.setError e) :=
  h.keepDownload rfl rfl

theorem stopIfIdle (h : Contained lead w) : Contained lead w.stopIfIdle := by
  unfold World.stopIfIdle
  split
  · exact h.keepDownload rfl rfl
  · exact h

theorem did (h : Contained lead w) {c : Call} (hc : ∀ p ∈ c.paths, Under w.task.targetDir p) :
    Contained lead (w.did c) := by
  refine ⟨h.names, h.target, h.download, fun o ho => ?_⟩
  rcases List.mem_append.mp ho with hold | hnew
  · exact h.outs o hold
  · rw [List.mem_singleton.mp hnew]
    exact hc

theorem setAttribute (h : Contained lead w) {p : Path} (hp : p = [] ∨ Under w.task.targetDir p) :
    Contained lead (w.setAttribute p) := by
  unfold World.setAttribute
  split
  · exact h
  · next hne =>
    refine h.did fun q hq => ?_
    rw [List.mem_singleton.mp hq]
    exact hp.resolve_left fun hnil => hne (by rw [hnil]; rfl)

theorem drain (h : Contained lead w) (hp : Under w.task.targetDir w.task.progress.downloadFilePath)
    (wr : Writer) (n : ℕ) : Contained lead (w.drain wr n).1 := by
  refine (h.setFiles _).did fun q hq => ?_
  rw [List.mem_singleton.mp hq]
  exact hp

theorem closeWriter (h : Contained lead w) : Contained lead (w.closeWriter env) := by
  unfold World.closeWriter
  split
  · exact h
  · next wr hwr =>
    have hpath := h.download.handle (by rw [hwr]; rfl)
    exact (h.drain hpath wr _).setProgress ⟨h.download.path, fun hsome => by cases hsome⟩

variable [DecidableEq κ]

theorem createFile (h : Contained lead w) {p : Path} (hp : Under w.task.targetDir p) :
    Contained lead (w.createFile lead p).1 := by
  refine (h.setFiles _).did fun q hq => ?_
  rw [List.mem_singleton.mp hq]
  exact hp

theorem createDirAll (h : Contained lead w) {p : Path}
    (hp : Under w.task.targetDir p ∨
      isAbsolute p = isAbsolute w.task.targetDir ∧ pathKey p = pathKey w.task.targetDir) :
    Contained lead (w.createDirAll lead env p).1 := by
  have hmade : ∀ q ∈ (env.mkdirFails p).elim (w.disk.missing lead (p.length + 1) p).reverse
      (fun e => (w.disk.missing lead (p.length + 1) p).reverse.take e.2),
      Under w.task.targetDir q := by
    intro q hq
    have hmissing : q ∈ w.disk.missing lead (p.length + 1) p := by
      cases hfails : env.mkdirFails p with
      | none =>
        rw [hfails] at hq
        exact List.mem_reverse.mp hq
      | some e =>
        rw [hfails] at hq
        exact List.mem_reverse.mp (List.mem_of_mem_take hq)
    exact World.under_missing h.target _ hp q hmissing
  refine ⟨h.names, World.dirs_createDirAll lead env w p h.target, h.download, ?_⟩
  intro o ho
  rcases List.mem_append.mp ho with hold | hnew
  · exact h.outs o hold
  · obtain ⟨q, hq, rfl⟩ := List.mem_map.mp hnew
    intro q' hq'
    rw [List.mem_singleton.mp hq']
    exact hmade q hq

/-! ### The functions of the task -/

theorem onCancelled (h : Contained lead w) : Contained lead (w.onCancelled lead env) := by
  have hclosed : Contained lead (w.closeWriter env) := h.closeWriter
  unfold World.onCancelled
  dsimp only
  split
  · exact hclosed
  · next hne =>
    have hpath := hclosed.download.path.resolve_left fun hnil => hne (by rw [hnil]; rfl)
    have hremove : Contained lead
        ((w.closeWriter env).did (.remove (w.closeWriter env).task.progress.downloadFilePath)) := by
      refine hclosed.did fun q hq => ?_
      rw [List.mem_singleton.mp hq]
      exact hpath
    split
    · exact hremove
    · exact hremove.setFiles _

theorem onError (h : Contained lead w) (e : CliprdrError) : Contained lead (w.onError lead env e) :=
  (h.setError e).onCancelled

theorem renameDownload (h : Contained lead w) {renameTo : Path}
    (hpath : Under w.task.targetDir w.task.progress.downloadFilePath)
    (hto : Under w.task.targetDir renameTo)
    (hclosed : w.task.progress.fileHandle = none) :
    Contained lead (w.renameDownload lead env renameTo) := by
  have hrename : Contained lead (w.did (.rename w.task.progress.downloadFilePath renameTo)) := by
    refine h.did fun q hq => ?_
    rcases List.mem_cons.mp hq with rfl | hq
    · exact hpath
    · rw [List.mem_singleton.mp hq]
      exact hto
  have hempty (w' : World κ) (hh : w'.task.progress.fileHandle = none) :
      DownloadInside w'.task.targetDir
        { w'.task.progress with downloadFilePath := [], downloadFileIndex := -1 } :=
    ⟨Or.inl rfl, fun hsome => by
      change w'.task.progress.fileHandle.isSome = true at hsome
      rw [hh] at hsome
      cases hsome⟩
  unfold World.renameDownload
  split
  · exact hrename.setProgress (hempty _ hclosed)
  · refine ((hrename.setFiles _).setAttribute (Or.inr hto)).setProgress (hempty _ ?_)
    rw [World.task_setAttribute]
    exact hclosed

theorem onDone (h : Contained lead w) : Contained lead (w.onDone lead env) := by
  have hattr : Contained lead ((w.setAttribute w.task.progress.downloadFilePath).setAttribute
      w.task.progress.downloadFilePath) := by
    refine (h.setAttribute h.download.path).setAttribute ?_
    rw [World.task_setAttribute]
    exact h.download.path
  unfold World.onDone
  dsimp only
  split
  · exact hattr
  · next hopen =>
    rw [not_or, World.task_setAttribute, World.task_setAttribute] at hopen
    have hpath := h.download.handle
      (Option.isSome_iff_ne_none.mpr fun hnone => hopen.1 (by rw [hnone]; rfl))
    have hclosed : Contained lead (World.closeWriter env _) := hattr.closeWriter
    split
    · exact hclosed
    · next file hfile =>
      split
      · exact hclosed
      · next renameTo hto =>
        have hname : Inside file.name := hclosed.names file (TaskHandle.mem_of_file? hfile)
        refine hclosed.renameDownload ?_ (World.under_getNewFilename hname hto) ?_
        · simpa using hpath
        · simp

theorem openNewWriter (h : Contained lead w) : Contained lead (w.openNewWriter lead env).1 := by
  unfold World.openNewWriter
  split
  · exact h
  · next file hfile =>
    have hname : Inside file.name := h.names file (TaskHandle.mem_of_file? hfile)
    dsimp only
    split
    · exact h
    · next path hpath =>
      have hunder : Under w.task.targetDir path :=
        World.under_getFirstFilename
          ((hname.under w.task.targetDir).append (by decide +kernel) (by decide +kernel)
            ⟨'r', by decide +kernel, by decide⟩) hpath
      split
      · exact h
      · next up hup =>
        have hmade : Contained lead (if w.disk.exists lead up then (w, (none : Option String))
            else w.createDirAll lead env up).1 := by
          split
          · exact h
          · exact h.createDirAll (hunder.parent_cases hup)
        have htask : (if w.disk.exists lead up then (w, (none : Option String))
            else w.createDirAll lead env up).1.task = w.task := by
          split <;> rfl
        split
        · next w' err heq =>
          rw [heq] at hmade
          exact hmade
        · next w' heq =>
          rw [heq] at hmade htask
          rw [← htask] at hunder
          split
          · exact hmade.setError _
          · have hcreated := hmade.createFile hunder
            have hopened := hcreated.setProgress
              (p := { w'.task.progress with
                downloadFileIndex := w'.task.progress.listIndex
                downloadFileSize := file.size
                downloadFilePath := path
                fileHandle := some ⟨(w'.createFile lead path).2, []⟩ })
              ⟨Or.inr hunder, fun _ => hunder⟩
            refine (hopened.setAttribute (Or.inr hunder)).setAttribute ?_
            rw [World.task_setAttribute]
            exact Or.inr hunder

theorem nextFile {files : List FileDescription} (hfiles : ∀ file ∈ files, Inside file.name) :
    ∀ {w : World κ} (i : ℤ), Contained lead w → Contained lead (w.nextFile lead env i files).1 := by
  induction files with
  | nil =>
    intro w i h
    exact h
  | cons file files ih =>
    intro w i h
    obtain ⟨hname, hrest⟩ := List.forall_mem_cons.mp hfiles
    unfold World.nextFile
    split
    · split
      · -- an empty file is made at once
        split
        · exact ih hrest _ h
        · next path hpath =>
          have hunder := World.under_getNewFilename hname hpath
          split
          · exact ih hrest _ h
          · exact ih hrest _ ((h.createFile hunder).setAttribute (Or.inr hunder))
      · exact openNewWriter (h.keepDownload rfl rfl)
    · dsimp only
      split
      · exact ih hrest _ h
      · exact ih hrest _ (h.createDirAll (Or.inl (hname.under w.task.targetDir)))
    · exact ih hrest _ h

theorem leaveFile (h : Contained lead w) : Contained lead (w.leaveFile lead env) := by
  unfold World.leaveFile
  split
  · exact h
  · exact h.onDone

theorem updateNext (h : Contained lead w) (size : UInt64) :
    Contained lead (w.updateNext lead env size).1 := by
  unfold World.updateNext
  split
  · exact h
  · dsimp only
    have hcounted : Contained lead (w.setProgress
        { w.task.progress with currentSize := w.task.progress.currentSize + size }) :=
      h.keepDownload rfl rfl
    split
    · -- the file is done, and another is looked for
      have hdone : Contained lead (World.leaveFile lead env _) := hcounted.leaveFile
      generalize (w.setProgress { w.task.progress with
        currentSize := w.task.progress.currentSize + size }).leaveFile lead env = w' at hdone
      have hnext : Contained lead (w'.nextFile lead env (w'.task.progress.listIndex + 1)
          (w'.task.files.drop (w'.task.progress.listIndex + 1).toNat)).1 :=
        nextFile (fun file hfile => hdone.names file (List.mem_of_mem_drop hfile)) _ hdone
      split
      · next w'' e heq =>
        rw [heq] at hnext
        exact hnext
      · next w'' heq =>
        rw [heq] at hnext
        exact hnext.stopIfIdle
    · have hmoved : Contained lead ((w.setProgress
          { w.task.progress with currentSize := w.task.progress.currentSize + size }).setProgress
          { w.task.progress with
            currentSize := w.task.progress.currentSize + size
            offset := w.task.progress.offset + size }) := hcounted.keepDownload rfl rfl
      exact (hmoved.setAttribute hmoved.download.path).stopIfIdle

theorem onFinished (h : Contained lead w) : Contained lead (w.onFinished lead env) := by
  have hclosed : Contained lead (w.closeTask lead env) := by
    unfold World.closeTask
    split
    · exact h.onCancelled
    · exact h.onDone
  unfold World.onFinished
  dsimp only
  split
  · exact hclosed.setError _
  · exact hclosed

theorem sendOrFail (h : Contained lead w) : Contained lead (w.sendOrFail lead env) := by
  have hsent : Contained lead w.sendFileContentsRequest.1 := by
    unfold World.sendFileContentsRequest
    split
    · exact h
    · dsimp only
      split
      · exact h
      · refine ⟨h.names, h.target, h.download, fun o ho => ?_⟩
        rcases List.mem_append.mp ho with hold | hnew
        · exact h.outs o hold
        · rw [List.mem_singleton.mp hnew]
          trivial
  unfold World.sendOrFail
  split
  · next w' heq =>
    rw [heq] at hsent
    exact hsent
  · next w' e heq =>
    rw [heq] at hsent
    exact hsent.onError e

theorem handleFileContentsResponse (h : Contained lead w) (data : Bytes) :
    Contained lead (w.handleFileContentsResponse lead env data).1 := by
  unfold World.handleFileContentsResponse
  split
  · exact h
  · next wr hwr =>
    have hpath := h.download.handle (by rw [hwr]; rfl)
    split
    · exact h.setProgress ⟨h.download.path, fun _ => hpath⟩
    · refine updateNext ?_ _
      exact (h.drain hpath _ _).setProgress ⟨h.download.path, fun _ => hpath⟩

end Contained

/-! ### Runs -/

variable {lead} [DecidableEq κ] {s : State κ}

def State.Contained (lead : Bool × PathKey → κ) (s : State κ) : Prop :=
  ∀ t, s.handle = some t → Paste.Contained lead ⟨s.disk, t, []⟩

/-- The list of a new task has inside names, and the directory of a task stays a directory. -/
def NamesInside (lead : Bool × PathKey → κ) (s : State κ) : Event κ → Prop
  | .start targetDir files _ =>
    s.disk.dirs (at' lead targetDir) = true ∧ ∀ file ∈ files, Inside file.name
  | .others disk => ∀ t, s.handle = some t → disk.dirs (at' lead t.targetDir) = true
  | _ => True

structure Keeps (lead : Bool × PathKey → κ) (next : State κ × List Out) : Prop where
  state : next.1.Contained lead
  outs : ∀ o ∈ next.2, o.Within

omit [DecidableEq κ] in
theorem Contained.keeps {w : World κ} (h : Contained lead w) {s : State κ}
    (hdisk : s.disk = w.disk) (hhandle : s.handle = some w.task) : Keeps lead (s, w.outs) := by
  refine ⟨fun t ht => ?_, h.outs⟩
  obtain rfl := Option.some.inj (hhandle.symm.trans ht)
  rw [hdisk]
  exact ⟨h.names, h.target, h.download, fun o ho => absurd ho List.not_mem_nil⟩

omit [DecidableEq κ] in
theorem State.Contained.rest (h : s.Contained lead) : Keeps lead (s, []) :=
  ⟨h, fun _ ho => absurd ho List.not_mem_nil⟩

theorem Contained.endRound {w : World κ} (h : Contained lead w) (s : State κ) (env : Env) :
    Keeps lead (s.endRound lead w env) := by
  unfold State.endRound
  split
  · exact h.onFinished.keeps rfl rfl
  · exact h.sendOrFail.keeps rfl rfl

theorem State.Contained.start (h : s.Contained lead) {targetDir : Path}
    {files : List FileDescription} (env : Env) (htarget : s.disk.dirs (at' lead targetDir) = true)
    (hnames : ∀ file ∈ files, Inside file.name) :
    Keeps lead (s.start lead targetDir files env) := by
  -- a task that has not opened a file yet
  have hnew (p : Progress) (hpath : p.downloadFilePath = []) (hhandle : p.fileHandle = none)
      (serial : ℕ) : Paste.Contained lead ⟨s.disk, ⟨p, targetDir, files, serial⟩, []⟩ := by
    refine ⟨hnames, htarget, ⟨Or.inl hpath, fun hsome => ?_⟩,
      fun o ho => absurd ho List.not_mem_nil⟩
    change p.fileHandle.isSome = true at hsome
    rw [hhandle] at hsome
    cases hsome
  unfold State.start
  split
  · exact h.rest
  split
  · exact h.rest
  · refine Contained.keeps ?_ rfl rfl
    split
    · exact ((hnew _ rfl rfl _).updateNext 0).onFinished
    · exact ((hnew _ rfl rfl _).updateNext 0).sendOrFail

theorem State.Contained.response (h : s.Contained lead) (r : FileContentsResponse) (env : Env) :
    Keeps lead (s.response lead r env) := by
  cases hhandle : s.handle with
  | none =>
    unfold State.response
    rw [hhandle]
    exact h.rest
  | some t =>
    have hw := h t hhandle
    unfold State.response
    rw [hhandle]
    dsimp only
    split
    · exact h.rest
    split
    · exact h.rest
    split
    · -- the peer has failed; the worker asks again, or gives up
      split
      · exact (hw.setError _).endRound _ env
      · exact hw.endRound _ env
    · split
      · exact h.rest
      · split
        · exact h.rest
        · have hdata : Paste.Contained lead (World.handleFileContentsResponse lead env _ _).1 :=
            hw.handleFileContentsResponse r.requestedData
          split
          · next w heq =>
            rw [heq] at hdata
            exact hdata.endRound _ env
          · next w e heq =>
            rw [heq] at hdata
            exact (hdata.onError e).endRound _ env

theorem State.Contained.step (h : s.Contained lead) {e : Event κ} (he : NamesInside lead s e) :
    Keeps lead ((machine lead).step s e) := by
  cases e with
  | start targetDir files env => exact h.start env he.1 he.2
  | response r env => exact h.response r env
  | cancel env =>
    show Keeps lead (s.cancel lead env)
    unfold State.cancel
    split
    · exact h.rest
    · next t ht =>
      have hcanceled : Paste.Contained lead (World.setProgress ⟨s.disk, t, []⟩
          { t.progress with isCanceled := true }) := (h t ht).keepDownload rfl rfl
      exact hcanceled.onCancelled.keeps rfl rfl
  | timeout elapsed env =>
    show Keeps lead (s.timeout lead elapsed env)
    unfold State.timeout
    split
    · exact h.rest
    · next t ht =>
      split
      · exact ((h t ht).setError _).onFinished.keeps rfl rfl
      · exact h.rest
  | others disk =>
    refine ⟨fun t ht => ?_, fun o ho => absurd ho List.not_mem_nil⟩
    have hw := h t ht
    exact ⟨hw.names, he t ht, hw.download, hw.outs⟩

/-- **Containment.** When every list of files has inside names, and the directories pasted into stay
directories, all that the tasks of a run create, change or remove is a descendant of the directory
of the task. -/
theorem calls_descend (disk : Disk κ) {es : List (Event κ)}
    (h : (machine lead).Meets (NamesInside lead) (State.init disk) es) {targetDir : Path} {c : Call}
    (hc : Out.call targetDir c ∈ (machine lead).outputs (State.init disk) es) :
    ∀ p ∈ c.paths, Descends targetDir p := by
  have hwithin : (Out.call targetDir c).Within :=
    h.inv_outputs (I := State.Contained lead) (fun t ht => by cases ht)
      (fun s e he hs => ⟨(hs.step he).state, (hs.step he).outs⟩) _ hc
  exact fun p hp => (hwithin p hp).descends

/-! ### A list that leaves the directory -/

theorem calls_descend_offered : Descends "/t".toList "/t/d/a.rddownload".toList := by
  have hmeets : (machine id).Meets (NamesInside id) (State.init emptyTarget)
      [.start "/t".toList [offered "d/a"] .quiet] :=
    Machine.meets_cons.mpr
      ⟨show _ ∧ ∀ file ∈ [offered "d/a"], Inside file.name by decide +kernel, Machine.meets_nil _⟩
  have hc : Out.call "/t".toList (.create "/t/d/a.rddownload".toList) ∈
      (machine id).outputs (State.init emptyTarget)
        [.start "/t".toList [offered "d/a"] .quiet] := by decide +kernel
  exact calls_descend emptyTarget hmeets hc _ List.mem_cons_self

/-- A peer offers a file `../a`. -/
theorem calls_descend_fails :
    (buildFileListPdu [plainFile (asBytes "../a".toList)]).bind (parseFileDescriptors · 7) =
        some (.ok [offered "../a"]) ∧
      emptyTarget.dirs (at' id "/t".toList) = true ∧
      Out.call "/t".toList (.create "/t/../a.rddownload".toList) ∈
        (machine id).outputs (State.init emptyTarget)
          [.start "/t".toList [offered "../a"] .quiet] ∧
      ¬ Descends "/t".toList "/t/../a.rddownload".toList := by
  refine ⟨by decide +kernel, by decide +kernel, by decide +kernel, ?_⟩
  rintro ⟨-, rest, -, heq⟩
  -- one is `a.rddownload` at the top, the other begins with `t`
  have hfrom : normalize "/t/../a.rddownload".toList = ["a.rddownload".toList] := by decide +kernel
  have hto : normalize "/t".toList = ["t".toList] := by decide +kernel
  rw [hfrom, hto] at heq
  exact absurd (List.cons.inj heq).1 (by decide)

end LibRustdesk.Clipboard.Paste
