import LibRustdesk.FileTransfer.Resume
import LibRustdesk.Server.OnMessage

/-!
# The file messages of a connection

The arms of `FileAction` and `FileResponse` of `on_message`, with the two places that have jobs: the
connection itself (`read_jobs`, read at each tick of `file_timer`) and its connection manager, to
which the rest is handed as `ipc::FS` (`ui_cm_interface.rs`).

* `Transfers` — the connection, its jobs, what it has to print, the commands on their way to the
  connection manager, the jobs there, and the disk.
* `Transfers.onFileAction`, `Transfers.onFileResponse` — the two arms. The first is for connections
  for files, and for anyone who asks for a print; the second looks at nothing.
* `handleFs` — `handle_fs`.
* `handleReadJobs` — `fs::handle_read_jobs`, and `handleReadJobsTick` its sibling in the connection
  manager.

What reaches the disk puts out an `Access`. A job is made of files, or of data to be printed that
the host has announced; then it carries the number of its announcement (`origin`), and so do its
blocks. -/

namespace LibRustdesk.Desktop

open FileTransfer (Path FileEntry TransferJob FileTransferBlock FileTransferDigest
  FileTransferSendConfirmRequest Disk InitEnv WriteEnv FinishEnv CancelEnv SeekEnv CheckEnv)

/-! ### Messages -/

/-- The union of a `FileAction`. -/
inductive FileActionUnion
  | readEmptyDirs (path : Path) (includeHidden : Bool)
  | readDir (path : Path) (includeHidden : Bool)
  | allFiles (id : Int32) (path : Path) (includeHidden : Bool)
  | send (id : Int32) (path : Path) (fileNum : Int32) (includeHidden : Bool) (fileType : Int32)
  | receive (id : Int32) (path : Path) (fileNum : Int32) (files : List FileEntry)
      (totalSize : UInt64)
  | removeDir (id : Int32) (path : Path) (recursive : Bool)
  | removeFile (id : Int32) (path : Path) (fileNum : Int32)
  | create (id : Int32) (path : Path)
  | cancel (id : Int32)
  | sendConfirm (r : FileTransferSendConfirmRequest)
  | rename (id : Int32) (path newName : Path)
  | none

/-- `JobType::from_proto`. -/
def jobTypeFromProto (t : Int32) : FileTransfer.JobType := if t = 1 then .printer else .generic

/-- What `on_message` of the connection sees of it. -/
def FileActionUnion.action : FileActionUnion → FileAction
  | send id _ _ _ fileType => .send id (jobTypeFromProto fileType = .printer)
  | removeFile id _ _ => .removeFile id
  | rename id _ _ => .rename id
  | create id _ => .create id
  | removeDir id _ _ => .removeDir id
  | _ => .other []

def FileActionUnion.isPrinter : FileActionUnion → Bool
  | send _ _ _ _ fileType => jobTypeFromProto fileType = .printer
  | _ => false

def FileActionUnion.printPath : FileActionUnion → Option Path
  | send _ path _ _ fileType => if jobTypeFromProto fileType = .printer then some path else .none
  | _ => .none

/-- The union of a `FileResponse`. -/
inductive FileResponseUnion
  | block (block : FileTransferBlock)
  | done (id fileNum : Int32)
  | digest (digest : FileTransferDigest)
  | error (id fileNum : Int32) (err : String)
  | other

inductive FS
  | readEmptyDirs (dir : Path) (includeHidden : Bool)
  | readDir (dir : Path) (includeHidden : Bool)
  | removeDir (path : Path) (id : Int32) (recursive : Bool)
  | removeFile (path : Path) (id fileNum : Int32)
  | createDir (path : Path) (id : Int32)
  | newWrite (path : Path) (id fileNum : Int32) (files : List (Path × UInt64))
      (overwriteDetection : Bool) (totalSize : UInt64)
  | cancelWrite (id : Int32)
  | writeBlock (block : FileTransferBlock)
  | writeDone (id fileNum : Int32)
  | writeError (id fileNum : Int32) (err : String)
  | checkDigest (digest : FileTransferDigest) (isUpload : Bool)
  | sendConfirm (r : FileTransferSendConfirmRequest)
  | rename (id : Int32) (path newName : Path)
  | readFile (path : Path) (id fileNum : Int32) (includeHidden overwriteDetection : Bool)
  | cancelRead (id : Int32)
  | sendConfirmForRead (id : Int32) (skip : Bool) (offsetBlk : UInt32)
  | readAllFiles (path : Path) (id : Int32) (includeHidden : Bool)

inductive Access
  | read
  | list
  | create
  | write
  | rename
  | remove
  deriving DecidableEq

/-- A block carries the number of the announcement it is printed for. -/
inductive FileOut
  | access (a : Access) (path : Path)
  | dir (id : Int32) (path : Path) (files : List FileEntry)
  | block (origin : Option ℕ) (block : FileTransferBlock)
  | digest (digest : FileTransferDigest)
  | confirm (r : FileTransferSendConfirmRequest)
  | done (id fileNum : Int32)
  | error (id : Int32) (err : String) (fileNum : Int32)
  /-- `new_send` of a print. -/
  | send (id : Int32) (path : Path) (fileNum : Int32)

def FileOut.isAccess : FileOut → Bool
  | access _ _ => true
  | _ => false

/-! ### Jobs -/

structure ReadJob extends TransferJob where
  origin : Option ℕ

/-- `get_job`, and what is done with the job. -/
def withJob {α β : Type} (jobId : α → Int32) (id : Int32) (f : α → α × β) :
    List α → Option (List α × β)
  | [] => none
  | job :: jobs =>
    if jobId job = id then some ((f job).1 :: jobs, (f job).2)
    else (withJob jobId id f jobs).map fun r => (job :: r.1, r.2)

def removeJob {α : Type} (jobId : α → Int32) (id : Int32) : List α → Option (α × List α)
  | [] => none
  | job :: jobs =>
    if jobId job = id then some (job, jobs)
    else (removeJob jobId id jobs).map fun r => (r.1, job :: r.2)

def jobAccesses (a : Access) (job : TransferJob) : List FileOut :=
  match job.dataSource with
  | .filePath p => [.access a p]
  | .memoryCursor _ _ => []

/-- `TransferJob::new_read`. Of data to be printed there are no files. -/
def newRead (found : Except String (List FileEntry)) (id : Int32) (type : FileTransfer.JobType)
    (dataSource : FileTransfer.DataSource) (fileNum : Int32) (enableOverwriteDetection : Bool) :
    Except String TransferJob :=
  let files : Except String (List FileEntry × UInt64) :=
    match dataSource with
    | .filePath _ => found.map fun files => (files, TransferJob.totalOf files)
    | .memoryCursor data _ => .ok ([], UInt64.ofNat data.length)
  files.map fun (files, totalSize) =>
    { TransferJob.newWrite id type dataSource fileNum enableOverwriteDetection with
      files := files
      totalSize := totalSize }

def checkFileCountLimit (maxFiles fileCount : ℕ) : Except String Unit :=
  if fileCount > maxFiles then
    .error ("file transfer rejected: too many files (" ++ toString fileCount ++
      " files exceeds limit of " ++ toString maxFiles ++
      "). Adjust 'file-transfer-max-files' option to increase limit.")
  else .ok ()

/-! ### Reading -/

structure JobEnv where
  init : InitEnv
  /-- The error is sent. -/
  sent : Bool

structure TickEnv where
  job : ℕ → JobEnv
  read : FileTransfer.ReadEnv
  sent : Bool

/-- `init_jobs`, from the job at `i` on, and whether all was sent. -/
def initJobs (env : ℕ → JobEnv) (disk : Disk) (i : ℕ) :
    List ReadJob → List ReadJob × List FileOut × Bool
  | [] => ([], [], true)
  | job :: jobs =>
    if job.isLastJob then
      let (jobs, outs, ok) := initJobs env disk (i + 1) jobs
      (job :: jobs, outs, ok)
    else
      let opened := jobAccesses .read job.toTransferJob
      match job.toTransferJob.initDataStream (env i).init disk with
      | (job', .ok digest) =>
        let (jobs, outs, ok) := initJobs env disk (i + 1) jobs
        (⟨job', job.origin⟩ :: jobs, opened ++ digest.toList.map .digest ++ outs, ok)
      | (job', .error e) =>
        if (env i).sent then
          let (jobs, outs, ok) := initJobs env disk (i + 1) jobs
          (⟨job', job.origin⟩ :: jobs, opened ++ [.error job'.id e job'.fileNum] ++ outs, ok)
        else (⟨job', job.origin⟩ :: jobs, opened, false)

/-- The first job that is not the last one is read: what is sent of it, and its id if it is
finished. -/
def readFirst (z : Zstd) (env : FileTransfer.ReadEnv) (disk : Disk) :
    List ReadJob → List ReadJob × List FileOut × Option Int32
  | [] => ([], [], none)
  | job :: jobs =>
    if job.isLastJob then
      let (jobs, outs, finished) := readFirst z env disk jobs
      (job :: jobs, outs, finished)
    else
      match job.toTransferJob.read z env disk with
      | (job', .error e) => (⟨job', job.origin⟩ :: jobs, [.error job'.id e job'.fileNum], none)
      | (job', .ok (some block)) =>
        (⟨job', job.origin⟩ :: jobs, [.block job.origin block], none)
      | (job', .ok none) =>
        if job'.jobCompleted then
          let out : FileOut :=
            match job'.jobError with
            | some err => .error job'.id err job'.fileNum
            | none => .done job'.id job'.fileNum
          (⟨job', job.origin⟩ :: jobs, [out], some job'.id)
        else (⟨job', job.origin⟩ :: jobs, [], none)

/-- `fs::handle_read_jobs`, and whether all was sent. -/
def handleReadJobs (z : Zstd) (env : TickEnv) (disk : Disk) (jobs : List ReadJob) :
    List ReadJob × List FileOut × Bool :=
  match initJobs env.job disk 0 jobs with
  | (jobs, outs, false) => (jobs, outs, false)
  | (jobs, outs, true) =>
    match readFirst z env.read disk jobs with
    | (jobs, [], finished) => (afterRead finished jobs, outs, true)
    | (jobs, sent, finished) =>
      if env.sent then (afterRead finished jobs, outs ++ sent, true) else (jobs, outs, false)
where
  /-- The job that is finished is removed. -/
  afterRead (finished : Option Int32) (jobs : List ReadJob) : List ReadJob :=
    match finished with
    | some id => ((removeJob (·.id) id jobs).map Prod.snd).getD jobs
    | none => jobs

/-! ### The connection manager -/

structure Cm where
  writeJobs : List TransferJob
  readJobs : List TransferJob
  running : Bool

/-- The outcomes in `handle_fs`. -/
structure FsEnv where
  write : WriteEnv
  finish : FinishEnv
  cancel : CancelEnv
  seek : SeekEnv
  check : CheckEnv
  /-- `get_recursive_files`. -/
  found : Except String (List FileEntry)
  onDisk : Path → Except String Unit
  maxFiles : ℕ
  /-- What removing, creating or renaming leaves of the disk. -/
  after : Disk → Disk

/-- What is left of the disk by a step of a job, what is put out, and whether the task goes on. -/
structure JobResult where
  disk : Disk
  outs : List FileOut
  goesOn : Bool

/-- A job confirms. It panics on a file that it does not have. -/
def confirmStep (env : SeekEnv) (r : FileTransferSendConfirmRequest) (disk : Disk)
    (job : TransferJob) : TransferJob × JobResult :=
  match job.confirm env r disk with
  | (disk, some job') => (job', ⟨disk, jobAccesses .read job, true⟩)
  | (disk, none) => (job, ⟨disk, jobAccesses .read job, false⟩)

/-- The arms of `handle_fs` that look for a job. -/
def Cm.onJob (cm : Cm) (disk : Disk) (id : Int32) (f : TransferJob → TransferJob × JobResult) :
    Cm × Disk × List FileOut :=
  match withJob (·.id) id f cm.writeJobs with
  | some (jobs, r) => ({ cm with writeJobs := jobs, running := r.goesOn }, r.disk, r.outs)
  | none => (cm, disk, [])

def Cm.onRemoved (cm : Cm) (disk : Disk) (id : Int32) (f : TransferJob → Disk × List FileOut) :
    Cm × Disk × List FileOut :=
  match removeJob (·.id) id cm.writeJobs with
  | some (job, jobs) => ({ cm with writeJobs := jobs }, (f job).1, (f job).2)
  | none => (cm, disk, [])

def handleFs (z : Zstd) (env : FsEnv) (cm : Cm) (disk : Disk) :
    FS → Cm × Disk × List FileOut
  | .readEmptyDirs dir _ | .readDir dir _ => (cm, disk, [.access .list dir])
  | .removeDir path _ _ | .removeFile path _ _ => (cm, env.after disk, [.access .remove path])
  | .createDir path _ => (cm, env.after disk, [.access .create path])
  | .rename _ path _ => (cm, env.after disk, [.access .rename path])
  | .newWrite path id fileNum files overwriteDetection totalSize =>
    let entries := files.map fun f => (⟨f.1, 0, f.2⟩ : FileEntry)
    let job := TransferJob.newWrite id .generic (.filePath path) fileNum overwriteDetection
    match job.setFiles env.onDisk entries with
    | .error e => (cm, disk, [.access .read path, .error id e fileNum])
    | .ok job =>
      ({ cm with writeJobs := cm.writeJobs ++ [{ job with totalSize := totalSize }] }, disk,
        [.access .read path])
  | .cancelWrite id =>
    cm.onRemoved disk id fun job =>
      (job.removeDownloadFile env.cancel disk, jobAccesses .remove job)
  | .writeDone id fileNum =>
    cm.onRemoved disk id fun job =>
      (job.modifyTime env.finish disk, jobAccesses .rename job ++ [.done id fileNum])
  | .writeError id fileNum err =>
    cm.onRemoved disk id fun job => (disk, [.error job.id err fileNum])
  | .writeBlock block =>
    cm.onJob disk block.id fun job =>
      let (disk, job', res) := job.write z env.write block disk
      let errors : List FileOut := match res with
        | .error e => [.error block.id e block.fileNum]
        | .ok () => []
      (job', ⟨disk, jobAccesses .write job ++ errors, true⟩)
  | .checkDigest digest isUpload =>
    cm.onJob disk digest.id fun job =>
      let (job', reply) := job.checkDigest env.check isUpload digest disk
      let answers : List FileOut := match reply with
        | some (.confirm r) => [.confirm r]
        | some (.digest digest) => [.digest digest]
        | some (.error e) => [.error digest.id e digest.fileNum]
        | none => []
      (job', ⟨disk, jobAccesses .read job ++ answers, true⟩)
  | .sendConfirm r => cm.onJob disk r.id (confirmStep env.seek r disk)
  | .readFile path id fileNum _ overwriteDetection =>
    let job := newRead env.found id .generic (.filePath path) fileNum overwriteDetection
    match job with
    | .error _ => (cm, disk, [.access .list path])
    | .ok job =>
      match checkFileCountLimit env.maxFiles job.files.length with
      | .error _ => (cm, disk, [.access .list path])
      | .ok () => ({ cm with readJobs := cm.readJobs ++ [job] }, disk, [.access .list path])
  | .cancelRead id =>
    ({ cm with readJobs := ((removeJob (·.id) id cm.readJobs).map Prod.snd).getD cm.readJobs },
      disk, [])
  | .sendConfirmForRead id skip offsetBlk =>
    -- the confirmation is for the file that the job is at
    let f (job : TransferJob) : TransferJob × JobResult :=
      confirmStep env.seek
        ⟨id, job.fileNum, some (if skip then .skip true else .offsetBlk offsetBlk)⟩ disk job
    match withJob (·.id) id f cm.readJobs with
    | some (jobs, r) => ({ cm with readJobs := jobs, running := r.goesOn }, r.disk, r.outs)
    | none => (cm, disk, [])
  | .readAllFiles path _ _ => (cm, disk, [.access .list path])

/-- `handle_read_jobs_tick`: the jobs, the accesses and the ids of those that are finished. What is
read goes to the connection, which hands it to its peer. -/
def handleReadJobsTick (z : Zstd) (env : TickEnv) (disk : Disk) (i : ℕ) :
    List TransferJob → List TransferJob × List FileOut × List Int32
  | [] => ([], [], [])
  | job :: jobs =>
    if job.isLastJob then
      let (jobs, outs, finished) := handleReadJobsTick z env disk (i + 1) jobs
      (job :: jobs, outs, finished)
    else
      match job.initDataStream { (env.job i).init with sent := .ok () } disk with
      | (job', .error _) =>
        let (jobs, outs, finished) := handleReadJobsTick z env disk (i + 1) jobs
        (job' :: jobs, jobAccesses .read job ++ outs, job.id :: finished)
      | (job', .ok _) =>
        match job'.read z env.read disk with
        | (job'', .error _) => (job'' :: jobs, jobAccesses .read job, [job.id])
        | (job'', .ok (some _)) => (job'' :: jobs, jobAccesses .read job, [])
        | (job'', .ok none) =>
          (job'' :: jobs, jobAccesses .read job, if job''.jobCompleted then [job.id] else [])

/-! ### The connection -/

/-- Data to be printed: when it was announced, under which path, and its number. -/
structure PrinterData where
  time : ℕ
  path : Path
  data : Bytes
  serial : ℕ

structure Transfers where
  world : World
  readJobs : List ReadJob
  printerData : List PrinterData
  /-- All that has been announced, with its path. -/
  announced : List (Path × Bytes)
  cmReadJobIds : List Int32
  delayedReadDir : Option (Path × Bool)
  /-- What the connection manager has yet to handle. -/
  queue : List FS
  cm : Cm
  disk : Disk

structure FileHost where
  z : Zstd
  /-- `need_fs_cm_send_files`, on Windows. -/
  needFsCmSendFiles : Bool

/-- The outcomes in the arm of a `FileAction`. -/
structure ActionEnv where
  world : Env
  found : Except String (List FileEntry)
  maxFiles : ℕ
  seek : SeekEnv

namespace Transfers

variable (host : FileHost) (t : Transfers)

def sendFs (fs : FS) : Transfers := { t with queue := t.queue ++ [fs] }

/-- `create_and_start_read_job` with `process_new_read_job`. -/
def createAndStartReadJob (env : ActionEnv) (id : Int32) (type : FileTransfer.JobType)
    (dataSource : FileTransfer.DataSource) (origin : Option ℕ) (fileNum : Int32)
    (overwriteDetection : Bool) (path : Path) (checkFileLimit : Bool) :
    Transfers × List FileOut :=
  let listed : List FileOut := match dataSource with
    | .filePath p => [.access .list p]
    | .memoryCursor _ _ => []
  match newRead env.found id type dataSource fileNum overwriteDetection with
  | .error err => (t, listed ++ [.error id err 0])
  | .ok job =>
    match if checkFileLimit then checkFileCountLimit env.maxFiles job.files.length else .ok () with
    | .error msg => (t, listed ++ [.error id msg (-1)])
    | .ok () =>
      ({ t with readJobs := t.readJobs ++ [⟨job, origin⟩] }, listed ++ [.dir id path job.files])

/-- `get_version_number("1.1.10")`. -/
def version1110 : ℤ := 1001100

/-- `can_enable_overwrite_detection`. -/
def overwriteDetection : Bool := decide (version1110 ≤ t.world.conn.lr.version)

def refusedId : FileActionUnion → Option Int32
  | .send id _ _ _ _ | .removeFile id _ _ | .rename id _ _ | .create id _ | .removeDir id _ _ =>
    some id
  | _ => none

/-- What is done with a `FileAction`. -/
def handleFileAction (env : ActionEnv) : FileActionUnion → Transfers × List FileOut
  | .readEmptyDirs path includeHidden => (t.sendFs (.readEmptyDirs path includeHidden), [])
  | .readDir path includeHidden => (t.sendFs (.readDir path includeHidden), [])
  | .allFiles id path includeHidden =>
    if host.needFsCmSendFiles then (t.sendFs (.readAllFiles path id includeHidden), [])
    else
      match env.found with
      | .error err => (t, [.access .list path, .error id err (-1)])
      | .ok files =>
        match checkFileCountLimit env.maxFiles files.length with
        | .error msg => (t, [.access .list path, .error id msg (-1)])
        | .ok () => (t, [.access .list path, .dir id path files])
  | .send id path fileNum includeHidden fileType =>
    match jobTypeFromProto fileType with
    | .generic =>
      if host.needFsCmSendFiles then
        ({ t with cmReadJobIds := id :: t.cmReadJobIds.filter (· ≠ id) }.sendFs
          (.readFile path id fileNum includeHidden t.overwriteDetection), [])
      else
        t.createAndStartReadJob env id .generic (.filePath path) none fileNum t.overwriteDetection
          path true
    | .printer =>
      match t.printerData.find? (·.path = path) with
      | some p =>
        { t with printerData := t.printerData.eraseP (·.path = path) }.createAndStartReadJob env id
          .printer (.memoryCursor p.data 0) (some p.serial) fileNum true path false
      | none => (t, [])
  | .receive id path fileNum files totalSize =>
    (t.sendFs (.newWrite path id fileNum (files.map fun f => (f.name, f.modifiedTime))
      t.overwriteDetection totalSize), [])
  | .removeDir id path recursive => (t.sendFs (.removeDir path id recursive), [])
  | .removeFile id path fileNum => (t.sendFs (.removeFile path id fileNum), [])
  | .create id path => (t.sendFs (.createDir path id), [])
  | .cancel id =>
    let t := (t.sendFs (.cancelWrite id)).sendFs (.cancelRead id)
    ({ t with
      cmReadJobIds := t.cmReadJobIds.filter (· ≠ id)
      readJobs := ((removeJob (·.id) id t.readJobs).map Prod.snd).getD t.readJobs }, [])
  | .sendConfirm r =>
    let f (job : ReadJob) : ReadJob × JobResult :=
      let (job', res) := confirmStep env.seek r t.disk job.toTransferJob
      (⟨job', job.origin⟩, res)
    match withJob (·.id) r.id f t.readJobs with
    | some (jobs, res) =>
      ({ t with
        readJobs := jobs
        disk := res.disk
        world := { t.world with ended := t.world.ended || !res.goesOn } }, res.outs)
    | none =>
      if r.id ∈ t.cmReadJobIds then
        (t.sendFs (.sendConfirmForRead r.id (r.union = some (.skip true))
          (match r.union with
            | some (.offsetBlk offset) => offset
            | _ => 0)), [])
      else (t.sendFs (.sendConfirm r), [])
  | .rename id path newName => (t.sendFs (.rename id path newName), [])
  | .none => (t, [])

/-- The arm of a `FileAction`. -/
def onFileAction (env : ActionEnv) (u : FileActionUnion) : Transfers × List FileOut :=
  if t.world.conn.fileTransfer.isSome || u.isPrinter then
    if t.delayedReadDir.isSome then
      match u with
      | .readDir path includeHidden => ({ t with delayedReadDir := some (path, includeHidden) }, [])
      | _ => (t, [])
    else
      match if env.world.builtin "one-way-file-transfer".toList = ['Y'] then refusedId u
          else none with
      | some id => (t, [.error id "one-way-file-transfer-tip" 0])
      | none => t.handleFileAction host env u
  else (t, [])

/-- The arm of a `FileResponse`. -/
def onFileResponse : FileResponseUnion → Transfers
  | .block block => t.sendFs (.writeBlock block)
  | .done id fileNum => t.sendFs (.writeDone id fileNum)
  | .digest digest => t.sendFs (.checkDigest digest true)
  | .error id fileNum err => t.sendFs (.writeError id fileNum err)
  | .other => t

def hears : Bool :=
  !t.world.ended && t.world.conn.authorized && t.world.conn.portForwardSocket.isNone

end Transfers

inductive FileEvent
  | action (env : ActionEnv) (u : FileActionUnion)
  | response (env : Env) (u : FileResponseUnion)
  /-- The connection manager handles the next command. -/
  | fs (env : FsEnv)
  | fileTimer (env : TickEnv)
  | cmTimer (env : TickEnv)
  /-- An answer of the connection manager that ends a job of it. -/
  | cmAnswer (id : Int32)
  /-- The host prints, at a second of its clock and a time stamp. -/
  | printerData (now stamp : ℕ) (data : Bytes) (permitted : Bool)
  /-- A connection for files waits for the session to be chosen, and it is. -/
  | delayReadDir
  | selectedSid
  /-- Any other step of the connection. -/
  | connection (ev : Event)

def FileEvent.printPath : FileEvent → Option Path
  | action _ u => u.printPath
  | _ => none

namespace Transfers

def printerPath (stamp : ℕ) : Path :=
  "RustDesk://FsJob//Printer/".toList ++ Nat.toDigits 10 stamp

def sendPrinterRequest (t : Transfers) (now stamp : ℕ) (data : Bytes) : Transfers × List FileOut :=
  ({ t with
    printerData := t.printerData.filter (now - ·.time < 60) ++
      [⟨now, printerPath stamp, data, t.announced.length⟩]
    announced := t.announced ++ [(printerPath stamp, data)] }, [.send 0 (printerPath stamp) 1])

def step (host : FileHost) (t : Transfers) : FileEvent → Transfers × List FileOut
  | .action env u =>
    let (t', outs) := if t.hears then t.onFileAction host env u else (t, [])
    ({ t' with world := Desktop.step t'.world (.message env.world (.fileAction u.action)) }, outs)
  | .response env u =>
    let t' := if t.hears then t.onFileResponse u else t
    ({ t' with world := Desktop.step t'.world (.message env (.fileResponse [])) }, [])
  | .fs env =>
    match t.queue, t.cm.running with
    | [], _ | _, false => (t, [])
    | fs :: queue, true =>
      let (cm, disk, outs) := handleFs host.z env t.cm t.disk fs
      ({ t with queue := queue, cm := cm, disk := disk }, outs)
  | .fileTimer env =>
    if t.world.ended || t.readJobs.isEmpty then (t, [])
    else
      let (jobs, outs, ok) := handleReadJobs host.z env t.disk t.readJobs
      ({ t with
        readJobs := jobs
        world := { t.world with ended := !ok } }, outs)
  | .cmTimer env =>
    if t.cm.running then
      let (jobs, outs, finished) := handleReadJobsTick host.z env t.disk 0 t.cm.readJobs
      let jobs := finished.foldl
        (fun jobs id => ((removeJob (·.id) id jobs).map Prod.snd).getD jobs) jobs
      ({ t with cm := { t.cm with readJobs := jobs } }, outs)
    else (t, [])
  | .cmAnswer id => ({ t with cmReadJobIds := t.cmReadJobIds.filter (· ≠ id) }, [])
  | .printerData now stamp data permitted =>
    -- the connection is one of `AUTHED_CONNS` with a printer
    if !t.world.ended && decide (t.world.conn.connType = some .remote) && permitted then
      t.sendPrinterRequest now stamp data
    else (t, [])
  | .delayReadDir =>
    match t.world.conn.fileTransfer with
    | some dir =>
      if t.world.conn.authorized then ({ t with delayedReadDir := some dir }, []) else (t, [])
    | none => (t, [])
  | .selectedSid =>
    if t.hears && t.world.conn.fileTransfer.isSome then
      match t.delayedReadDir with
      | some (dir, includeHidden) =>
        ({ t with delayedReadDir := none }.sendFs (.readDir dir includeHidden), [])
      | none => (t, [])
    else (t, [])
  | .connection ev =>
    match ev with
    -- these come with what they carry
    | .message _ (.fileAction _) | .message _ (.fileResponse _) => (t, [])
    | ev => ({ t with world := Desktop.step t.world ev }, [])

def start (s : Opening) (disk : Disk) : Transfers where
  world := .start s
  readJobs := []
  printerData := []
  announced := []
  cmReadJobIds := []
  delayedReadDir := none
  queue := []
  cm := ⟨[], [], true⟩
  disk := disk

end Transfers

def transfers (host : FileHost) : Machine Transfers FileEvent FileOut := ⟨Transfers.step host⟩

end LibRustdesk.Desktop
