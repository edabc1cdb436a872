import LibRustdesk.Server.PrintJobs
import LibRustdesk.Server.SendingJob

/-!
# The file jobs of a client

The job lists of `Remote` in `src/client/io_loop.rs`, as far as create, delete and send are about
them: what `handle_msg_from_ui` does with a request of the user, and `handle_msg_from_peer` with the
answers of the peer. A request comes with the id that its job is to have, and everything that comes
later is for the job that `get_job` or `remove_job` finds under its id.

* `Remote.handleMsgFromUi` — a request makes a job, or is only passed on.
* `Remote.onFileResponse`, `Remote.onSendConfirm` — the answers.
* `Remote.cancelTransferJob`, `Remote.setConfirmOverrideFile` — what the user does about a job.

A job carries the number of the request that it was made for (`origin`); no function looks at it.
Each use of a job by a message is put out with that number. -/

namespace LibRustdesk.Client

open FileTransfer (Path FileEntry TransferJob FileTransferBlock FileTransferDigest
  FileTransferSendConfirmRequest Disk WriteEnv FinishEnv CancelEnv SeekEnv CheckEnv JobType)
open Desktop (ReadJob withJob removeJob newRead handleReadJobs FileActionUnion FileOut TickEnv)

/-! ### Requests -/

/-- `Data`, as far as it is about files. -/
inductive Data
  | sendFiles (id : Int32) (type : JobType) (path dest : Path) (fileNum : Int32)
      (includeHidden isRemote : Bool)
  | removeDirAll (id : Int32) (path : Path) (isRemote includeHidden : Bool)
  | removeFile (id : Int32) (path : Path) (fileNum : Int32) (isRemote : Bool)
  | createDir (id : Int32) (path : Path) (isRemote : Bool)

def Data.id : Data → Int32
  | sendFiles id _ _ _ _ _ _ | removeDirAll id _ _ _ | removeFile id _ _ _ | createDir id _ _ => id

/-- The number of a job type in `FileTransferSendRequest`. -/
def fileType : JobType → Int32
  | .generic => 0
  | .printer => 1

/-- A directory that is being removed. Its `no_confirm` is never set here. -/
structure RemoveJob where
  files : List FileEntry
  path : Path
  isRemote : Bool
  origin : Option ℕ

/-- `Remote`, as far as it is about jobs. -/
structure Remote where
  readJobs : List ReadJob
  writeJobs : List ReadJob
  removeJobs : Table Int32 RemoveJob
  disk : Disk
  running : Bool

inductive ClientOut
  | toPeer (u : FileActionUnion)
  /-- A message is for the job of this request. -/
  | used (origin : Option ℕ)
  | jobDone (id fileNum : Int32)
  | jobError (id : Int32) (err : String) (fileNum : Int32)
  /-- What is sent of a file that is read. -/
  | sent (out : FileOut)

structure UiEnv where
  /-- `get_recursive_files`. -/
  found : Except String (List FileEntry)
  /-- `can_enable_overwrite_detection` of the peer's version. -/
  overwriteDetection : Bool
  /-- A file is removed, or a directory is made, here. -/
  done : Except String Unit

namespace Remote

def start (disk : Disk) : Remote := ⟨[], [], Table.empty, disk, true⟩

/-- `handle_job_status`, where no job has `no_confirm`. -/
def handleJobStatus (id fileNum : Int32) : Except String Unit → ClientOut
  | .error err => .jobError id err fileNum
  | .ok () => .jobDone id fileNum

/-- `handle_msg_from_ui`. The request has the number `op`. -/
def handleMsgFromUi (env : UiEnv) (op : ℕ) (r : Remote) : Data → Remote × List ClientOut
  | .sendFiles id type path dest fileNum includeHidden isRemote =>
    if isRemote then
      let dataSource := match type with
        | .generic => FileTransfer.DataSource.filePath dest
        | .printer => .memoryCursor [] 0
      let job := TransferJob.newWrite id type dataSource fileNum env.overwriteDetection
      ({ r with writeJobs := r.writeJobs ++ [⟨job, some op⟩] },
        [.toPeer (.send id path fileNum includeHidden (fileType type))])
    else
      match newRead env.found id type (.filePath path) fileNum env.overwriteDetection with
      | .error err => (r, [handleJobStatus id (-1) (.error err)])
      | .ok job =>
        ({ r with readJobs := r.readJobs ++ [⟨job, some op⟩] },
          [.toPeer (.receive id dest fileNum job.files job.totalSize)])
  | .removeDirAll id path isRemote includeHidden =>
    if isRemote then
      ({ r with removeJobs := r.removeJobs.insert id ⟨[], path, isRemote, some op⟩ },
        [.toPeer (.allFiles id path includeHidden)])
    else
      match env.found with
      | .error err => (r, [handleJobStatus id (-1) (.error err)])
      | .ok entries =>
        ({ r with removeJobs := r.removeJobs.insert id ⟨entries, path, isRemote, some op⟩ }, [])
  | .removeFile id path fileNum isRemote =>
    if isRemote then (r, [.toPeer (.removeFile id path fileNum)])
    else (r, [handleJobStatus id fileNum env.done])
  | .createDir id path isRemote =>
    if isRemote then (r, [.toPeer (.create id path)])
    else (r, [handleJobStatus id (-1) env.done])

/-! ### Jobs are found -/

/-- What a job does with a message: the disk that it leaves, the job, unless it panics, and what is
put out. -/
def Use := TransferJob → Disk × Option TransferJob × List ClientOut

def useJob (use : Use) (job : ReadJob) : ReadJob × Disk × Bool × List ClientOut :=
  match use job.toTransferJob with
  | (disk, some job', outs) => (⟨job', job.origin⟩, disk, true, .used job.origin :: outs)
  | (disk, none, outs) => (job, disk, false, .used job.origin :: outs)

/-- With the job that `get_job` finds in `write_jobs`. -/
def onWriteJob (r : Remote) (id : Int32) (use : Use) : Option (Remote × List ClientOut) :=
  (withJob (·.id) id (useJob use) r.writeJobs).map fun (jobs, disk, running, outs) =>
    ({ r with writeJobs := jobs, disk := disk, running := running }, outs)

/-- With the one in `read_jobs`. -/
def onReadJob (r : Remote) (id : Int32) (use : Use) : Option (Remote × List ClientOut) :=
  (withJob (·.id) id (useJob use) r.readJobs).map fun (jobs, disk, running, outs) =>
    ({ r with readJobs := jobs, disk := disk, running := running }, outs)

/-- `remove_job` of `write_jobs`, and what is left of the disk. -/
def takeWriteJob (r : Remote) (id : Int32) (cleanUp : TransferJob → Disk) :
    Remote × List ClientOut :=
  match removeJob (·.id) id r.writeJobs with
  | some (job, jobs) =>
    ({ r with writeJobs := jobs, disk := cleanUp job.toTransferJob }, [.used job.origin])
  | none => (r, [])

/-- `remove_job` of `read_jobs`. -/
def takeReadJob (r : Remote) (id : Int32) : Remote × List ClientOut :=
  match removeJob (·.id) id r.readJobs with
  | some (job, jobs) => ({ r with readJobs := jobs }, [.used job.origin])
  | none => (r, [])

/-- The same of `remove_jobs`. -/
def takeRemoveJob (r : Remote) (id : Int32) : Remote × List ClientOut :=
  match r.removeJobs id with
  | some job => ({ r with removeJobs := r.removeJobs.remove id }, [.used job.origin])
  | none => (r, [])

def cancelTransferJob (env : CancelEnv) (r : Remote) (id : Int32) : Remote × List ClientOut :=
  let written := r.takeWriteJob id fun job => job.removeDownloadFile env r.disk
  let read := written.1.takeReadJob id
  let removed := read.1.takeRemoveJob id
  (removed.1, .toPeer (.cancel id) :: (written.2 ++ read.2 ++ removed.2))

/-! ### Answers -/

structure PeerEnv where
  z : Zstd
  write : WriteEnv
  finish : FinishEnv
  cancel : CancelEnv
  seek : SeekEnv
  check : CheckEnv
  onDisk : Path → Except String Unit
  /-- `default_overwrite_strategy` of the job. -/
  strategy : Option Bool
  isSupportResume : Bool

/-- The union of a `FileResponse`; the entries of a `dir` are as they are on this platform. -/
inductive FileResponse
  | dir (id : Int32) (entries : List FileEntry)
  | digest (digest : FileTransferDigest)
  | block (block : FileTransferBlock)
  | done (id fileNum : Int32)
  | error (id fileNum : Int32) (err : String)

def FileResponse.id : FileResponse → Int32
  | dir id _ | done id _ | error id _ _ => id
  | digest d => d.id
  | block b => b.id

def confirmed (answer : Disk × Option TransferJob × Option FileTransferSendConfirmRequest) :
    Disk × Option TransferJob × List ClientOut :=
  (answer.1, answer.2.1, answer.2.2.toList.map fun r => .toPeer (.sendConfirm r))

/-- The arm of a `FileResponse`. -/
def onFileResponse (env : PeerEnv) (r : Remote) : FileResponse → Remote × List ClientOut
  | .dir id entries =>
    match r.writeJobs.find? (·.id = id) with
    | some job =>
      match job.setFiles env.onDisk entries with
      | .ok _ =>
        (r.onWriteJob id fun job =>
          (r.disk, (job.setFiles env.onDisk entries).toOption, [])).getD (r, [])
      | .error err =>
        let (r', outs) := r.cancelTransferJob env.cancel id
        (r', .used job.origin :: outs ++ [handleJobStatus id (-1) (.error err)])
    | none =>
      match r.removeJobs id with
      | some job =>
        ({ r with removeJobs := r.removeJobs.insert id { job with files := entries } },
          [.used job.origin])
      | none => (r, [])
  | .digest d =>
    if d.isUpload then
      (r.onReadJob d.id fun job =>
        confirmed (job.receiveUploadDigest env.seek env.strategy d r.disk)).getD (r, [])
    else
      (r.onWriteJob d.id fun job =>
        confirmed (job.receiveDigest env.check env.seek env.isSupportResume env.strategy d
          r.disk)).getD (r, [])
  | .block b =>
    (r.onWriteJob b.id fun job =>
      let (disk, job, _) := job.write env.z env.write b r.disk
      (disk, some job, [])).getD (r, [])
  | .done id fileNum =>
    match removeJob (·.id) id r.writeJobs with
    | some (job, jobs) =>
      let status := match job.jobError with
        | some err => handleJobStatus id fileNum (.error err)
        | none => handleJobStatus id fileNum (.ok ())
      -- what was to be printed goes to the printer
      ({ r with writeJobs := jobs, disk := job.toTransferJob.modifyTime env.finish r.disk },
        .used job.origin :: (if job.type = .generic then [status] else []))
    | none => (r, [handleJobStatus id fileNum (.ok ())])
  | .error id fileNum err =>
    let status (type : JobType) : List ClientOut :=
      if type = .generic then [handleJobStatus id fileNum (.error err)] else []
    match removeJob (·.id) id r.writeJobs with
    | some (job, jobs) => ({ r with writeJobs := jobs }, .used job.origin :: status job.type)
    | none =>
      match removeJob (·.id) id r.readJobs with
      | some (job, jobs) => ({ r with readJobs := jobs }, .used job.origin :: status job.type)
      | none => (r, status .generic)

/-- The arm of `FileAction::SendConfirm`. -/
def onSendConfirm (env : PeerEnv) (r : Remote) (c : FileTransferSendConfirmRequest) :
    Remote × List ClientOut :=
  (r.onReadJob c.id fun job =>
    let (disk, job) := job.confirm env.seek c r.disk
    (disk, job, [])).getD (r, [])

/-- `SetConfirmOverrideFile`, but for what is remembered. -/
def setConfirmOverrideFile (env : PeerEnv) (r : Remote) (id fileNum : Int32)
    (needOverride isUpload : Bool) : Remote × List ClientOut :=
  let req : FileTransferSendConfirmRequest :=
    ⟨id, fileNum, some (if needOverride then .offsetBlk 0 else .skip true)⟩
  if isUpload then
    (r.onReadJob id fun job =>
      let (disk, job) := job.confirm env.seek req r.disk
      (disk, job, [])).getD (r, [])
  else
    (r.onWriteJob id fun job =>
      let (disk, job) := job.confirm env.seek req r.disk
      (disk, job, [.toPeer (.sendConfirm req)])).getD (r, [])

def onTimer (z : Zstd) (env : TickEnv) (r : Remote) : Remote × List ClientOut :=
  if r.readJobs.isEmpty then (r, [])
  else
    let (jobs, outs, ok) := handleReadJobs z env r.disk r.readJobs
    ({ r with readJobs := jobs, running := ok }, outs.map .sent)

end Remote

/-! ### A job keeps its id -/

theorem newRead_filePath {found : Except String (List FileEntry)} {id : Int32} {type : JobType}
    {p : Path} {fileNum : Int32} {enableOverwriteDetection : Bool} {job : TransferJob}
    (h : newRead found id type (.filePath p) fileNum enableOverwriteDetection = .ok job) :
    ∃ files, found = .ok files ∧
      job = { TransferJob.newWrite id type (.filePath p) fileNum enableOverwriteDetection with
        files := files, totalSize := TransferJob.totalOf files } := by
  cases found with
  | error e => cases h
  | ok files => exact ⟨files, rfl, (Except.ok.inj h).symm⟩

variable (env : WriteEnv)

theorem createFile_id (job : TransferJob) (path : Path) (digest : Option Path)
    (disk : Disk) : (job.createFile env path digest disk).2.1.id = job.id := by
  unfold TransferJob.createFile
  dsimp only
  split
  · rfl
  · split <;> rfl

theorem switchFile_id (job : TransferJob) (p : Path) (fileNum : Int32) (entry : FileEntry)
    (disk : Disk) : (job.switchFile env p fileNum entry disk).2.1.id = job.id := by
  unfold TransferJob.switchFile
  dsimp only
  split
  · rfl
  · split
    · rfl
    · exact createFile_id env _ _ _ _

theorem openBlock_id (job : TransferJob) (block : FileTransferBlock)
    (disk : Disk) : (job.openBlock env block disk).2.1.id = job.id := by
  unfold TransferJob.openBlock
  split
  · rfl
  · split
    · split
      · rfl
      · split
        · exact switchFile_id env job _ _ _ disk
        · rfl
    · split <;> rfl

theorem write_id (z : Zstd) (env : WriteEnv) (job : TransferJob) (block : FileTransferBlock)
    (disk : Disk) : (job.write z env block disk).2.1.id = job.id := by
  have hopen := openBlock_id env job block disk
  unfold TransferJob.write
  generalize job.openBlock env block disk = r at hopen ⊢
  obtain ⟨disk', job', e | _⟩ := r
  · exact hopen
  · dsimp only at hopen ⊢
    unfold TransferJob.writeBlock
    split
    · exact hopen
    · dsimp only
      split <;> exact hopen

variable {job job' : TransferJob}

theorem setFiles_id {onDisk : Path → Except String Unit}
    {files : List FileEntry} (h : job.setFiles onDisk files = .ok job') : job'.id = job.id := by
  unfold TransferJob.setFiles at h
  cases hnames : TransferJob.validateTransferFileNames files with
  | error e =>
    rw [hnames] at h
    cases h
  | ok u =>
    rw [hnames] at h
    cases hsource : job.dataSource with
    | memoryCursor data pos =>
      rw [hsource] at h
      rw [← Except.ok.inj h]
    | filePath p =>
      rw [hsource] at h
      dsimp only [Except.bind, bind, pure, Except.pure] at h
      split at h
      · cases h
      · rw [← Except.ok.inj h]

variable {digest : FileTransferDigest}

theorem receiveDigest_id {env : CheckEnv} {seek : SeekEnv} {isSupportResume : Bool}
    {strategy : Option Bool} {disk : Disk}
    (h : (job.receiveDigest env seek isSupportResume strategy digest disk).2.1 = some job') :
    job'.id = job.id := by
  unfold TransferJob.receiveDigest at h
  split at h
  · rw [← Option.some.inj h]
  · split at h
    · dsimp only at h
      split at h
      · exact (Desktop.confirm_kept seek _ _ job' disk h).id
      · split at h
        · exact (Desktop.confirm_kept seek _ _ job' disk h).id
        · rw [← Option.some.inj h]
          rfl
      · exact (Desktop.confirm_kept seek _ _ job' disk h).id
      · rw [← Option.some.inj h]
        rfl
    · rw [← Option.some.inj h]

theorem receiveUploadDigest_id {seek : SeekEnv} {strategy : Option Bool} {disk : Disk}
    (h : (job.receiveUploadDigest seek strategy digest disk).2.1 = some job') :
    job'.id = job.id := by
  unfold TransferJob.receiveUploadDigest at h
  split at h
  · rw [← Option.some.inj h]
  · split at h
    · split at h
      · exact (Desktop.confirm_kept seek _ _ job' disk h).id
      · rw [← Option.some.inj h]
    · rw [← Option.some.inj h]

theorem initJobs_from (env : ℕ → Desktop.JobEnv) (disk : Disk) (i : ℕ) (jobs : List ReadJob) :
    ∀ job' ∈ (Desktop.initJobs env disk i jobs).1,
      ∃ job ∈ jobs, job'.origin = job.origin ∧ job'.id = job.id := by
  induction jobs generalizing i with
  | nil => exact fun job' hjob' => absurd hjob' List.not_mem_nil
  | cons job jobs ih =>
    have hstay : ∀ job' ∈ jobs, ∃ a ∈ job :: jobs, job'.origin = a.origin ∧ job'.id = a.id :=
      fun job' hjob' => ⟨job', List.mem_cons_of_mem job hjob', rfl, rfl⟩
    have hrest : ∀ job' ∈ (Desktop.initJobs env disk (i + 1) jobs).1,
        ∃ a ∈ job :: jobs, job'.origin = a.origin ∧ job'.id = a.id := by
      intro job' hjob'
      obtain ⟨a, ha, hsame⟩ := ih (i + 1) job' hjob'
      exact ⟨a, List.mem_cons_of_mem job ha, hsame⟩
    cases hlast : job.isLastJob with
    | true =>
      rw [Desktop.initJobs, hlast, if_pos rfl]
      exact List.forall_mem_cons.mpr ⟨⟨job, List.mem_cons_self, rfl, rfl⟩, hrest⟩
    | false =>
      have hfirst : ∃ a ∈ job :: jobs, (Desktop.initJob (env i) disk job).1.origin = a.origin ∧
          (Desktop.initJob (env i) disk job).1.id = a.id :=
        ⟨job, List.mem_cons_self, rfl,
          (Desktop.initDataStream_kept (env i).init job.toTransferJob disk).id⟩
      rw [Desktop.initJobs_cons hlast]
      split
      · exact List.forall_mem_cons.mpr ⟨hfirst, hrest⟩
      · exact List.forall_mem_cons.mpr ⟨hfirst, hstay⟩

theorem readFirst_from (z : Zstd) (env : FileTransfer.ReadEnv) (disk : Disk)
    (jobs : List ReadJob) : ∀ job' ∈ (Desktop.readFirst z env disk jobs).1,
      ∃ job ∈ jobs, job'.origin = job.origin ∧ job'.id = job.id := by
  induction jobs with
  | nil => exact fun job' hjob' => absurd hjob' List.not_mem_nil
  | cons job jobs ih =>
    cases hlast : job.isLastJob with
    | true =>
      rw [Desktop.readFirst, hlast, if_pos rfl]
      refine List.forall_mem_cons.mpr ⟨⟨job, List.mem_cons_self, rfl, rfl⟩, fun job' hjob' => ?_⟩
      obtain ⟨a, ha, hsame⟩ := ih job' hjob'
      exact ⟨a, List.mem_cons_of_mem job ha, hsame⟩
    | false =>
      rw [Desktop.readFirst_cons hlast]
      refine List.forall_mem_cons.mpr ⟨⟨job, List.mem_cons_self, rfl, ?_⟩, fun job' hjob' => ?_⟩
      · exact (Desktop.read_kept z env job.toTransferJob disk).id
      · exact ⟨job', List.mem_cons_of_mem job hjob', rfl, rfl⟩

theorem handleReadJobs_from (z : Zstd) (env : TickEnv) (disk : Disk) (jobs : List ReadJob) :
    ∀ job' ∈ (handleReadJobs z env disk jobs).1,
      ∃ job ∈ jobs, job'.origin = job.origin ∧ job'.id = job.id := by
  have hinit := initJobs_from env.job disk 0 jobs
  unfold handleReadJobs
  generalize Desktop.initJobs env.job disk 0 jobs = r at hinit ⊢
  obtain ⟨opened, outs, _ | _⟩ := r
  · exact hinit
  · have hread := readFirst_from z env.read disk opened
    have hboth : ∀ job' ∈ (Desktop.readFirst z env.read disk opened).1,
        ∃ job ∈ jobs, job'.origin = job.origin ∧ job'.id = job.id := by
      intro job' hjob'
      obtain ⟨a, ha, horigin, hid⟩ := hread job' hjob'
      obtain ⟨b, hb, horigin', hid'⟩ := hinit a ha
      exact ⟨b, hb, horigin.trans horigin', hid.trans hid'⟩
    have hafter (finished : Option Int32) : ∀ job' ∈ handleReadJobs.afterRead finished
        (Desktop.readFirst z env.read disk opened).1,
        ∃ job ∈ jobs, job'.origin = job.origin ∧ job'.id = job.id := by
      intro job' hjob'
      cases finished with
      | none => exact hboth job' hjob'
      | some id => exact hboth job' ((Desktop.removed_sublist _).subset hjob')
    dsimp only
    split
    · next heq =>
      rw [heq] at hafter
      exact hafter _
    · next heq =>
      rw [heq] at hafter hboth
      split
      · exact hafter _
      · exact hboth

/-! ### Each message finds its own job -/

/-- A job that was made for the request `origin` has its id. -/
def Made (ids : List Int32) (origin : Option ℕ) (id : Int32) : Prop :=
  ∃ op, origin = some op ∧ ids[op]? = some id

/-- Every job has the id of the request that it was made for. -/
structure Owned (ids : List Int32) (r : Remote) : Prop where
  read : ∀ job ∈ r.readJobs, Made ids job.origin job.id
  write : ∀ job ∈ r.writeJobs, Made ids job.origin job.id
  remove : ∀ id job, r.removeJobs id = some job → Made ids job.origin id

/-- A message about `id` was handed only to jobs of requests with that id. -/
def HandsTo (ids : List Int32) (id : Int32) (outs : List ClientOut) : Prop :=
  ∀ origin, .used origin ∈ outs → Made ids origin id

/-- What a message about `id` comes to. -/
def Serves (ids : List Int32) (id : Int32) (res : Remote × List ClientOut) : Prop :=
  Owned ids res.1 ∧ HandsTo ids id res.2

theorem handsTo_nil {ids : List Int32} {id : Int32} : HandsTo ids id [] :=
  fun _ hused => absurd hused List.not_mem_nil

theorem Made.mono {ids : List Int32} {origin : Option ℕ} {id : Int32} (h : Made ids origin id)
    (new : Int32) : Made (ids ++ [new]) origin id := by
  obtain ⟨op, horigin, hid⟩ := h
  exact ⟨op, horigin, getElem?_of_prefix (List.prefix_append ids [new]) hid⟩

/-- What is done with a job keeps its id, and uses no other job. -/
def Remote.Use.Keeps (use : Remote.Use) : Prop :=
  ∀ job, (∀ job', (use job).2.1 = some job' → job'.id = job.id) ∧
    ∀ origin, .used origin ∉ (use job).2.2

namespace Remote

variable {ids : List Int32} {id : Int32} {r : Remote} {use : Use}

theorem made_useJob (huse : use.Keeps) {job : ReadJob}
    (h : Made ids job.origin job.id) :
    Made ids (useJob use job).1.origin (useJob use job).1.id ∧
      HandsTo ids job.id (useJob use job).2.2.2 := by
  obtain ⟨hkeeps, hother⟩ := huse job.toTransferJob
  have hhands : HandsTo ids job.id (.used job.origin :: (use job.toTransferJob).2.2) := by
    intro origin hused
    rcases List.mem_cons.mp hused with heq | hused
    · rw [ClientOut.used.inj heq]
      exact h
    · exact absurd hused (hother origin)
  unfold useJob
  generalize use job.toTransferJob = res at hkeeps hhands ⊢
  obtain ⟨disk, _ | job', outs⟩ := res
  · exact ⟨h, hhands⟩
  · refine ⟨?_, hhands⟩
    rw [hkeeps job' rfl]
    exact h

theorem withJob_serves (huse : use.Keeps) {jobs jobs' : List ReadJob}
    (h : ∀ job ∈ jobs, Made ids job.origin job.id) {res : Disk × Bool × List ClientOut}
    (hres : withJob (·.id) id (useJob use) jobs = some (jobs', res)) :
    (∀ job ∈ jobs', Made ids job.origin job.id) ∧ HandsTo ids id res.2.2 := by
  obtain ⟨pre, job, post, rfl, rfl, rfl, rfl⟩ := Desktop.withJob_some hres
  obtain ⟨hpre, hjob⟩ := List.forall_mem_append.mp h
  obtain ⟨hown, hpost⟩ := List.forall_mem_cons.mp hjob
  obtain ⟨hmade, hhands⟩ := made_useJob huse hown
  exact ⟨List.forall_mem_append.mpr ⟨hpre, List.forall_mem_cons.mpr ⟨hmade, hpost⟩⟩, hhands⟩

theorem onWriteJob_serves (huse : use.Keeps) (h : Owned ids r) :
    Serves ids id ((r.onWriteJob id use).getD (r, [])) := by
  unfold onWriteJob
  cases hres : withJob (·.id) id (useJob use) r.writeJobs with
  | none => exact ⟨h, handsTo_nil⟩
  | some res =>
    obtain ⟨hjobs, hhands⟩ := withJob_serves huse h.write hres
    exact ⟨⟨h.read, hjobs, h.remove⟩, hhands⟩

theorem onReadJob_serves (huse : use.Keeps) (h : Owned ids r) :
    Serves ids id ((r.onReadJob id use).getD (r, [])) := by
  unfold onReadJob
  cases hres : withJob (·.id) id (useJob use) r.readJobs with
  | none => exact ⟨h, handsTo_nil⟩
  | some res =>
    obtain ⟨hjobs, hhands⟩ := withJob_serves huse h.read hres
    exact ⟨⟨hjobs, h.write, h.remove⟩, hhands⟩

theorem handsTo_removed {jobs rest : List ReadJob} {job : ReadJob}
    (h : ∀ job ∈ jobs, Made ids job.origin job.id)
    (hremoved : removeJob (·.id) id jobs = some (job, rest)) :
    Made ids job.origin id ∧ ∀ job ∈ rest, Made ids job.origin job.id := by
  obtain ⟨hmem, hid, hsub⟩ := Desktop.removeJob_some hremoved
  have hmade := h job hmem
  rw [hid] at hmade
  exact ⟨hmade, fun a ha => h a (hsub.subset ha)⟩

variable {outs : List ClientOut}

theorem handsTo_toPeer {u : FileActionUnion} (h : HandsTo ids id outs) :
    HandsTo ids id (.toPeer u :: outs) := by
  intro origin hused
  rcases List.mem_cons.mp hused with heq | hused
  · cases heq
  · exact h origin hused

theorem handsTo_used {origin : Option ℕ} (hmade : Made ids origin id)
    (h : HandsTo ids id outs) : HandsTo ids id (.used origin :: outs) := by
  intro origin' hused
  rcases List.mem_cons.mp hused with heq | hused
  · rw [ClientOut.used.inj heq]
    exact hmade
  · exact h origin' hused

theorem handsTo_append {outs outs' : List ClientOut} (h : HandsTo ids id outs)
    (h' : HandsTo ids id outs') : HandsTo ids id (outs ++ outs') := by
  intro origin hused
  rcases List.mem_append.mp hused with hused | hused
  · exact h origin hused
  · exact h' origin hused

theorem handsTo_status {n : Int32} {id' : Int32} (err : Except String Unit) :
    HandsTo ids id [handleJobStatus id' n err] := by
  intro origin hused
  cases err <;> cases List.mem_singleton.mp hused

theorem takeWriteJob_serves (id : Int32) (cleanUp : TransferJob → Disk) (h : Owned ids r) :
    Serves ids id (r.takeWriteJob id cleanUp) := by
  unfold takeWriteJob
  split
  · next job rest hremoved =>
    obtain ⟨hmade, hrest⟩ := handsTo_removed h.write hremoved
    exact ⟨⟨h.read, hrest, h.remove⟩, handsTo_used hmade handsTo_nil⟩
  · exact ⟨h, handsTo_nil⟩

theorem takeReadJob_serves (id : Int32) (h : Owned ids r) : Serves ids id (r.takeReadJob id) := by
  unfold takeReadJob
  split
  · next job rest hremoved =>
    obtain ⟨hmade, hrest⟩ := handsTo_removed h.read hremoved
    exact ⟨⟨hrest, h.write, h.remove⟩, handsTo_used hmade handsTo_nil⟩
  · exact ⟨h, handsTo_nil⟩

theorem takeRemoveJob_serves (id : Int32) (h : Owned ids r) :
    Serves ids id (r.takeRemoveJob id) := by
  unfold takeRemoveJob
  split
  · next job hjob =>
    refine ⟨⟨h.read, h.write, fun id' job' hjob' => ?_⟩,
      handsTo_used (h.remove id job hjob) handsTo_nil⟩
    dsimp only at hjob'
    rw [Table.remove_apply] at hjob'
    split at hjob'
    · cases hjob'
    · exact h.remove id' job' hjob'
  · exact ⟨h, handsTo_nil⟩

theorem cancelTransferJob_serves (id : Int32) (env : CancelEnv) (h : Owned ids r) :
    Serves ids id (r.cancelTransferJob env id) := by
  obtain ⟨hwritten, hhands⟩ :=
    takeWriteJob_serves id (fun job => job.removeDownloadFile env r.disk) h
  obtain ⟨hread, hhands'⟩ := takeReadJob_serves id hwritten
  obtain ⟨hremoved, hhands''⟩ := takeRemoveJob_serves id hread
  exact ⟨hremoved, handsTo_toPeer (handsTo_append (handsTo_append hhands hhands') hhands'')⟩

theorem confirm_keeps (env : SeekEnv) (req : FileTransferSendConfirmRequest) (disk : Disk)
    (houts : ∀ origin, .used origin ∉ outs) :
    Use.Keeps fun job => ((job.confirm env req disk).1, (job.confirm env req disk).2, outs) :=
  fun job => ⟨fun job' h => (Desktop.confirm_kept env req job job' disk h).id, houts⟩

theorem confirmed_keeps {f : TransferJob → Disk × Option TransferJob ×
    Option FileTransferSendConfirmRequest}
    (hf : ∀ job job', (f job).2.1 = some job' → job'.id = job.id) :
    Use.Keeps fun job => confirmed (f job) := by
  refine fun job => ⟨hf job, fun origin hused => ?_⟩
  obtain ⟨req, -, heq⟩ := List.mem_map.mp hused
  cases heq

theorem handsTo_printed (type : JobType) (h : HandsTo ids id outs) :
    HandsTo ids id (if type = .generic then outs else []) := by
  split
  · exact h
  · exact handsTo_nil

/-- **An answer is handed to jobs of requests that have its id**, and every job keeps the id of its
request. -/
theorem onFileResponse_serves (env : PeerEnv) (h : Owned ids r) (m : FileResponse) :
    Serves ids m.id (r.onFileResponse env m) := by
  cases m with
  | dir id entries =>
    unfold onFileResponse
    dsimp only [FileResponse.id]
    split
    · next job hfind =>
      have hid : job.id = id := by simpa using List.find?_some hfind
      split
      · refine onWriteJob_serves (fun job => ⟨fun job' hjob' => ?_, fun _ => List.not_mem_nil⟩) h
        cases hset : job.setFiles env.onDisk entries with
        | ok job'' =>
          rw [hset] at hjob'
          rw [← Option.some.inj hjob']
          exact setFiles_id hset
        | error e =>
          rw [hset] at hjob'
          cases hjob'
      · next err _ =>
        obtain ⟨hcancelled, hhands⟩ := cancelTransferJob_serves id env.cancel h
        have hmade := h.write job (List.mem_of_find?_eq_some hfind)
        rw [hid] at hmade
        exact ⟨hcancelled, handsTo_append (handsTo_used hmade hhands) (handsTo_status _)⟩
    · split
      · next job hjob =>
        have hmade := h.remove id job hjob
        refine ⟨⟨h.read, h.write, fun id' job' hjob' => ?_⟩, handsTo_used hmade handsTo_nil⟩
        dsimp only at hjob'
        rw [Table.insert_apply] at hjob'
        split at hjob'
        · next heq =>
          rw [← Option.some.inj hjob', heq]
          exact hmade
        · exact h.remove id' job' hjob'
      · exact ⟨h, handsTo_nil⟩
  | digest d =>
    unfold onFileResponse
    dsimp only
    split
    · exact onReadJob_serves (confirmed_keeps fun job job' => receiveUploadDigest_id) h
    · exact onWriteJob_serves (confirmed_keeps fun job job' => receiveDigest_id) h
  | block b =>
    refine onWriteJob_serves (fun job => ⟨fun job' hjob' => ?_, fun _ => List.not_mem_nil⟩) h
    rw [← Option.some.inj hjob']
    exact write_id env.z env.write job b r.disk
  | done id fileNum =>
    unfold onFileResponse
    dsimp only [FileResponse.id]
    split
    · next job rest hremoved =>
      obtain ⟨hmade, hrest⟩ := handsTo_removed h.write hremoved
      refine ⟨⟨h.read, hrest, h.remove⟩, handsTo_used hmade (handsTo_printed _ ?_)⟩
      split <;> exact handsTo_status _
    · exact ⟨h, handsTo_status _⟩
  | error id fileNum err =>
    unfold onFileResponse
    dsimp only [FileResponse.id]
    split
    · next job rest hremoved =>
      obtain ⟨hmade, hrest⟩ := handsTo_removed h.write hremoved
      exact ⟨⟨h.read, hrest, h.remove⟩,
        handsTo_used hmade (handsTo_printed _ (handsTo_status _))⟩
    · split
      · next job rest hremoved =>
        obtain ⟨hmade, hrest⟩ := handsTo_removed h.read hremoved
        exact ⟨⟨hrest, h.write, h.remove⟩,
          handsTo_used hmade (handsTo_printed _ (handsTo_status _))⟩
      · exact ⟨h, handsTo_printed .generic (handsTo_status (.error err))⟩

theorem onSendConfirm_serves (env : PeerEnv) (h : Owned ids r)
    (c : FileTransferSendConfirmRequest) : Serves ids c.id (r.onSendConfirm env c) :=
  onReadJob_serves (confirm_keeps env.seek c r.disk fun _ => List.not_mem_nil) h

theorem setConfirmOverrideFile_serves (env : PeerEnv) (h : Owned ids r) (id fileNum : Int32)
    (needOverride isUpload : Bool) :
    Serves ids id (r.setConfirmOverrideFile env id fileNum needOverride isUpload) := by
  unfold setConfirmOverrideFile
  dsimp only
  split
  · exact onReadJob_serves (confirm_keeps env.seek _ r.disk fun _ => List.not_mem_nil) h
  · refine onWriteJob_serves (confirm_keeps env.seek _ r.disk fun origin hused => ?_) h
    cases List.mem_singleton.mp hused

theorem onTimer_owned (z : Zstd) (env : TickEnv) (h : Owned ids r) :
    Owned ids (r.onTimer z env).1 := by
  unfold onTimer
  split
  · exact h
  · refine ⟨fun job' hjob' => ?_, h.write, h.remove⟩
    obtain ⟨job, hjob, horigin, hid⟩ := handleReadJobs_from z env r.disk r.readJobs job' hjob'
    rw [horigin, hid]
    exact h.read job hjob

theorem owned_mono (h : Owned ids r) (new : Int32) : Owned (ids ++ [new]) r :=
  ⟨fun job hjob => (h.read job hjob).mono new, fun job hjob => (h.write job hjob).mono new,
    fun id job hjob => (h.remove id job hjob).mono new⟩

theorem handleMsgFromUi_owned (env : UiEnv) (h : Owned ids r) {op : ℕ} {data : Data}
    (hmade : Made ids (some op) data.id) : Owned ids (r.handleMsgFromUi env op data).1 := by
  have hinsert (job : RemoveJob) (horigin : job.origin = some op) :
      ∀ id job', r.removeJobs.insert data.id job id = some job' → Made ids job'.origin id := by
    intro id job' hjob'
    rw [Table.insert_apply] at hjob'
    split at hjob'
    · next heq =>
      rw [← Option.some.inj hjob', heq, horigin]
      exact hmade
    · exact h.remove id job' hjob'
  cases data with
  | sendFiles id type path dest fileNum includeHidden isRemote =>
    unfold handleMsgFromUi
    dsimp only
    split
    · refine ⟨h.read, List.forall_mem_append.mpr ⟨h.write, ?_⟩, h.remove⟩
      exact List.forall_mem_singleton.mpr hmade
    · split
      · exact h
      · next job hnew =>
        refine ⟨List.forall_mem_append.mpr ⟨h.read, ?_⟩, h.write, h.remove⟩
        obtain ⟨files, -, rfl⟩ := newRead_filePath hnew
        exact List.forall_mem_singleton.mpr hmade
  | removeDirAll id path isRemote includeHidden =>
    unfold handleMsgFromUi
    dsimp only
    split
    · exact ⟨h.read, h.write, hinsert _ rfl⟩
    · split
      · exact h
      · exact ⟨h.read, h.write, hinsert _ rfl⟩
  | removeFile | createDir =>
    unfold handleMsgFromUi
    dsimp only
    split <;> exact h

end Remote

end LibRustdesk.Client
