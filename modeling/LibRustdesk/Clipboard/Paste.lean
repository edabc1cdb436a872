import LibRustdesk.Clipboard.Descriptor
import LibRustdesk.Clipboard.Lexical
import LibRustdesk.Framework.FileSystem
import Mathlib.Data.UInt

/-!
# The paste task

`PasteTask` of `libs/clipboard/src/platform/unix/macos/paste_task.rs`: the files of a peer's
clipboard are fetched one after another into the directory the user pastes into. A file is written
under a temporary name, which its own name replaces when the last of its bytes has come.

* A `Disk` is the files and the directories. `lead` is what the system makes of a path: it may fold
  the case of letters or follow links, and what it does is not used.
* `Env` decides, for the calls into the system that one event makes, which of them fail, and how
  many of the buffered bytes a write has put into its file.
* `World` is the disk and a task while an event is handled, with what it has done so far: the calls
  that create, change or remove something, and the requests sent to the peer.
* `machine` has the events of the application (`start`, `cancel`) and of the worker thread
  (`response`, `timeout`), each under the lock of the task, and `others` for what other programs do
  to the disk.

A request carries the number of its task, and a response the request it answers, which no message
has. `State.accepted` keeps what the worker has taken for the task's data; `State.before` is the
disk as the task found it, `State.untouched` that no other program has changed it since.

The worker knows a response by the index of its file alone. The attributes that show the progress of
a download are written to its path, and only that is kept of them.
-/

namespace LibRustdesk.Clipboard.Paste

open LittleEndian FileTransfer Descriptor

def RECV_RETRY_TIMES : ℕ := 3

/-- `DOWNLOAD_EXTENSION`, with its dot. -/
def downloadExtension : Path := ".rddownload".toList

def BLOCK_SIZE : UInt64 := 4 * 1024 * 1024

/-! ### Disks -/

section Disks

variable {κ : Type*}

structure Disk (κ : Type*) where
  files : FileSystem κ
  dirs : κ → Bool

variable (lead : Bool × PathKey → κ)

def at' (p : Path) : κ := lead (isAbsolute p, pathKey p)

def Disk.exists (d : Disk κ) (p : Path) : Bool :=
  d.files.has (at' lead p) || d.dirs (at' lead p)

/-- The directories `create_dir_all` has to create, from the path upwards. -/
def Disk.missing (d : Disk κ) : ℕ → Path → List Path
  | 0, _ => []
  | n + 1, p =>
    if p.isEmpty || d.exists lead p then []
    else p :: ((parent p).map (d.missing n)).getD []

end Disks

/-! ### A task -/

/-- What a request asks for, and of which task it is. -/
structure Request where
  serial : ℕ
  listIndex : ℤ
  offset : UInt64
  count : UInt64
  deriving DecidableEq, Repr

inductive CliprdrError
  | invalidRequest (description : String)
  | commonError (description : String)
  | fileError (path : Path) (err : String)
  deriving DecidableEq, Repr

/-- `BufWriter<File>`: the file and the bytes that have not been put into it. -/
structure Writer where
  file : FileHandle
  pending : Bytes
  deriving DecidableEq

/-- `PasteTaskProgress`. -/
structure Progress where
  listIndex : ℤ
  offset : UInt64
  totalSize : UInt64
  currentSize : UInt64
  downloadFileIndex : ℤ
  downloadFileSize : UInt64
  downloadFilePath : Path
  fileHandle : Option Writer
  error : Option CliprdrError
  isCanceled : Bool

/-- `PasteTaskHandle`. -/
structure TaskHandle where
  progress : Progress
  targetDir : Path
  files : List FileDescription
  serial : ℕ

/-- A call that creates, changes or removes something, by the path it is given. -/
inductive Call
  | createDir (p : Path)
  | create (p : Path)
  | write (p : Path)
  | setAttribute (p : Path)
  | rename (p q : Path)
  | remove (p : Path)
  deriving DecidableEq, Repr

def Call.paths : Call → List Path
  | .createDir p | .create p | .write p | .setAttribute p | .remove p => [p]
  | .rename p q => [p, q]

inductive Out
  | call (targetDir : Path) (c : Call)
  | request (connId : Int32) (r : Request)
  deriving DecidableEq

structure Env where
  /-- The error of `create_dir_all`, and how many directories it has made before. -/
  mkdirFails : Path → Option (String × ℕ)
  createFails : Path → Option String
  /-- The error of a write, and how many bytes were taken before. -/
  writeFails : Option (String × ℕ)
  /-- How many of the bytes that wait a successful write puts into the file. -/
  spill : ℕ
  /-- How many of the bytes that wait a flush puts into the file before it fails. -/
  flushFails : Option ℕ
  renameFails : Bool
  removeFails : Bool

/-- A disk and a task while an event is handled, and what it has done. -/
structure World (κ : Type*) where
  disk : Disk κ
  task : TaskHandle
  outs : List Out

def TaskHandle.isFinished (t : TaskHandle) : Bool :=
  t.progress.isCanceled || t.progress.error.isSome || (t.files.length : ℤ) ≤ t.progress.listIndex

/-- `files.get(i as usize)`. -/
def TaskHandle.file? (t : TaskHandle) (i : ℤ) : Option FileDescription :=
  if i < 0 then none else t.files[i.toNat]?

theorem TaskHandle.mem_of_file? {t : TaskHandle} {i : ℤ} {file : FileDescription}
    (h : t.file? i = some file) : file ∈ t.files := by
  unfold file? at h
  split at h
  · cases h
  · exact List.mem_of_getElem? h

namespace World

variable {κ : Type*} [DecidableEq κ] (lead : Bool × PathKey → κ) (env : Env)

def did (w : World κ) (c : Call) : World κ :=
  { w with outs := w.outs ++ [.call w.task.targetDir c] }

def setProgress (w : World κ) (p : Progress) : World κ := { w with task.progress := p }

/-- An attribute of the file at `p`; there is none at the empty path. -/
def setAttribute (w : World κ) (p : Path) : World κ :=
  if p.isEmpty then w else w.did (.setAttribute p)

def setError (w : World κ) (e : CliprdrError) : World κ :=
  w.setProgress { w.task.progress with error := some e }

/-! ### Names -/

def variant (path : Path) (kind : FileType) (i : ℕ) : Path :=
  let number := Nat.toDigits 10 i
  match kind, extension path with
  | .file, some ext => withFileName path (stem path ++ '-' :: number ++ '.' :: ext)
  | _, _ => path ++ ' ' :: '(' :: number ++ [')']

/-- The first of the names from `i` on that is free. -/
def firstFree (d : Disk κ) (path : Path) (kind : FileType) : ℕ → ℕ → Option Path
  | 0, _ => none
  | n + 1, i =>
    if d.exists lead (variant path kind i) then firstFree d path kind n (i + 1)
    else some (variant path kind i)

def getFirstFilename (d : Disk κ) (path : Path) (kind : FileType) : Option Path :=
  if d.exists lead path then
    if kind = .symlink then none else firstFree lead d path kind 9999998 1
  else some path

def getNewFilename (d : Disk κ) (targetDir : Path) (file : FileDescription) : Option Path :=
  getFirstFilename lead d (pathJoin targetDir file.name) file.kind

/-! ### Calls into the system -/

/-- `create_dir_all`, and its error. -/
def createDirAll (w : World κ) (p : Path) : World κ × Option String :=
  let missing := (w.disk.missing lead (p.length + 1) p).reverse
  let made := (env.mkdirFails p).elim missing fun e => missing.take e.2
  ({ w with
      disk.dirs := made.foldl (fun dirs q => Function.update dirs (at' lead q) true) w.disk.dirs
      outs := w.outs ++ made.map fun q => .call w.task.targetDir (.createDir q) },
    (env.mkdirFails p).map Prod.fst)

variable (w : World κ) (p : Path)

theorem dirs_createDirAll {k : κ} (hk : w.disk.dirs k = true) :
    (w.createDirAll lead env p).1.disk.dirs k = true := by
  have hfold (made : List Path) (dirs : κ → Bool) (hdirs : dirs k = true) :
      made.foldl (fun dirs q => Function.update dirs (at' lead q) true) dirs k = true := by
    induction made generalizing dirs with
    | nil => exact hdirs
    | cons q made ih =>
      refine ih _ ?_
      show Function.update dirs (at' lead q) true k = true
      rw [Function.update_apply]
      split
      · rfl
      · exact hdirs
  exact hfold _ _ hk

/-- `File::create`. -/
def createFile (w : World κ) (p : Path) : World κ × FileHandle :=
  let (files, h) := w.disk.files.create (at' lead p)
  ({ w with disk.files := files }.did (.create p), h)

/-- The first `n` of the bytes that wait go into the file. -/
def drain (w : World κ) (wr : Writer) (n : ℕ) : World κ × Writer :=
  let (files, file) := w.disk.files.writeAt wr.file (wr.pending.take n)
  ({ w with disk.files := files }.did (.write w.task.progress.downloadFilePath),
    ⟨file, wr.pending.drop n⟩)

/-! ### What the calls leave of the task -/

omit [DecidableEq κ] in
@[simp] theorem task_did (c : Call) : (w.did c).task = w.task := rfl

omit [DecidableEq κ] in
@[simp] theorem disk_did (c : Call) : (w.did c).disk = w.disk := rfl

omit [DecidableEq κ] in
@[simp] theorem task_setAttribute : (w.setAttribute p).task = w.task := by
  unfold setAttribute
  split <;> rfl

omit [DecidableEq κ] in
@[simp] theorem disk_setAttribute : (w.setAttribute p).disk = w.disk := by
  unfold setAttribute
  split <;> rfl

@[simp] theorem task_createDirAll :
    (w.createDirAll lead env p).1.task = w.task := rfl

@[simp] theorem task_createFile :
    (w.createFile lead p).1.task = w.task := rfl

omit [DecidableEq κ] in
@[simp] theorem task_drain (wr : Writer) (n : ℕ) :
    (w.drain wr n).1.task = w.task := rfl

/-! ### The task -/

/-- The writer is flushed and dropped. A flush that fails is logged. -/
def closeWriter (w : World κ) : World κ :=
  match w.task.progress.fileHandle with
  | none => w
  | some wr =>
    ((w.drain wr (env.flushFails.getD wr.pending.length)).1).setProgress
      { w.task.progress with fileHandle := none }

omit [DecidableEq κ] in
@[simp] theorem task_closeWriter :
    (w.closeWriter env).task =
      { w.task with progress := { w.task.progress with fileHandle := none } } := by
  unfold closeWriter
  split
  · next hnone =>
    rw [← hnone]
  · rfl

def onCancelled (w : World κ) : World κ :=
  let w := w.closeWriter env
  let path := w.task.progress.downloadFilePath
  if path.isEmpty then w
  else
    let w := w.did (.remove path)
    if env.removeFails then w
    else { w with disk.files := w.disk.files.remove (at' lead path) }

def onError (w : World κ) (e : CliprdrError) : World κ := (w.setError e).onCancelled lead env

/-- The rename in `on_done`. One that fails is logged. -/
def renameDownload (w : World κ) (renameTo : Path) : World κ :=
  let path := w.task.progress.downloadFilePath
  let w := w.did (.rename path renameTo)
  let w :=
    if env.renameFails then w
    else
      { w with
        disk.files := w.disk.files.rename
          (at' lead path) (at' lead renameTo) }.setAttribute renameTo
  w.setProgress { w.task.progress with downloadFilePath := [], downloadFileIndex := -1 }

def onDone (w : World κ) : World κ :=
  let path := w.task.progress.downloadFilePath
  let w := (w.setAttribute path).setAttribute path
  if w.task.progress.fileHandle.isNone ∨ w.task.progress.downloadFileIndex = -1 then w
  else
    let w := w.closeWriter env
    match w.task.file? w.task.progress.downloadFileIndex with
    | none => w
    | some file =>
      match getNewFilename lead w.disk w.task.targetDir file with
      | none => w
      | some renameTo => w.renameDownload lead env renameTo

def openNewWriter (w : World κ) : World κ × Except CliprdrError Unit :=
  match w.task.file? w.task.progress.listIndex with
  | none =>
    (w, .error (.invalidRequest ("Invalid file index: " ++ toString w.task.progress.listIndex ++
      ", file count: " ++ toString w.task.files.length)))
  | some file =>
    let original := pathJoin w.task.targetDir file.name
    match getFirstFilename lead w.disk (original ++ downloadExtension) file.kind with
    | none =>
      (w, .error (.commonError ("Failed to get download file path: " ++ String.ofList original)))
    | some path =>
      match parent path with
      | none =>
        (w, .error (.commonError
          ("Failed to get parent of the download file path: " ++ String.ofList original)))
      | some up =>
        match if w.disk.exists lead up then (w, none) else w.createDirAll lead env up with
        | (w, some err) => (w, .error (.fileError up err))
        | (w, none) =>
          match env.createFails path with
          | some err => (w.setError (.fileError path err), .ok ())
          | none =>
            let (w, h) := w.createFile lead path
            let w := w.setProgress { w.task.progress with
              downloadFileIndex := w.task.progress.listIndex
              downloadFileSize := file.size
              downloadFilePath := path
              fileHandle := some ⟨h, []⟩ }
            -- `start_progress_completed`: a time and an attribute
            ((w.setAttribute path).setAttribute path, .ok ())

/-- The loop of `update_next`: an empty file or a directory is made at once, and the first other
file is opened. `i` is the index of the first of `files`. -/
def nextFile (w : World κ) : ℤ → List FileDescription → World κ × Except CliprdrError Unit
  | _, [] => (w, .ok ())
  | i, file :: files =>
    match file.kind with
    | .file =>
      if file.size = 0 then
        match getNewFilename lead w.disk w.task.targetDir file with
        | none => nextFile w (i + 1) files
        | some path =>
          match env.createFails path with
          | some _ => nextFile w (i + 1) files
          | none => nextFile (((w.createFile lead path).1).setAttribute path) (i + 1) files
      else
        (w.setProgress { w.task.progress with listIndex := i, offset := 0 }).openNewWriter lead env
    | .directory =>
      let path := pathJoin w.task.targetDir file.name
      if w.disk.exists lead path then nextFile w (i + 1) files
      else nextFile (w.createDirAll lead env path).1 (i + 1) files
    | .symlink => nextFile w (i + 1) files

def stopIfIdle (w : World κ) : World κ :=
  if w.task.progress.fileHandle.isNone then
    w.setProgress { w.task.progress with
      listIndex := w.task.files.length, offset := 0, downloadFileSize := 0 }
  else w

/-- The file in progress is done, unless the task has just been started. -/
def leaveFile (w : World κ) : World κ :=
  if w.task.progress.listIndex = -1 then w else w.onDone lead env

def updateNext (w : World κ) (size : UInt64) : World κ × Except CliprdrError Unit :=
  if w.task.isFinished then (w, .ok ())
  else
    let w := w.setProgress
      { w.task.progress with currentSize := w.task.progress.currentSize + size }
    if w.task.progress.listIndex = -1 ∨
        w.task.progress.downloadFileSize ≤ w.task.progress.offset + size then
      let w := w.leaveFile lead env
      let i := w.task.progress.listIndex + 1
      match w.nextFile lead env i (w.task.files.drop i.toNat) with
      | (w, .error e) => (w, .error e)
      | (w, .ok ()) => (w.stopIfIdle, .ok ())
    else
      let w := w.setProgress { w.task.progress with offset := w.task.progress.offset + size }
      ((w.setAttribute w.task.progress.downloadFilePath).stopIfIdle, .ok ())

/-- The first half of `on_finished`. -/
def closeTask (w : World κ) : World κ :=
  if w.task.progress.error.isSome then w.onCancelled lead env else w.onDone lead env

def onFinished (w : World κ) : World κ :=
  let w := w.closeTask lead env
  if w.task.progress.currentSize ≠ w.task.progress.totalSize then
    w.setError (.invalidRequest "Failed to download all files")
  else w

/-- `send_file_contents_request`; whether the message could be sent is only logged. -/
def sendFileContentsRequest (w : World κ) : World κ × Except CliprdrError Unit :=
  if w.task.isFinished then (w, .ok ())
  else
    let i := w.task.progress.listIndex
    match w.task.file? i with
    | none => (w, .error (.invalidRequest ("Invalid file index: " ++ toString i)))
    | some file =>
      let count := min BLOCK_SIZE (file.size - w.task.progress.offset)
      ({ w with
          outs := w.outs ++
            [.request file.connId ⟨w.task.serial, i, w.task.progress.offset, count⟩] }, .ok ())

def sendOrFail (w : World κ) : World κ :=
  match w.sendFileContentsRequest with
  | (w, .ok ()) => w
  | (w, .error e) => w.onError lead env e

def handleFileContentsResponse (w : World κ) (data : Bytes) : World κ × Except CliprdrError Unit :=
  let path := w.task.progress.downloadFilePath
  match w.task.progress.fileHandle with
  | none => (w, .error (.fileError path "file handle is not opened"))
  | some wr =>
    match env.writeFails with
    | some (err, n) =>
      (w.setProgress { w.task.progress with
        fileHandle := some { wr with pending := wr.pending ++ data.take n } },
        .error (.fileError path err))
    | none =>
      let (w, wr) := w.drain { wr with pending := wr.pending ++ data } env.spill
      let w := w.setProgress { w.task.progress with fileHandle := some wr }
      w.updateNext lead env (UInt64.ofNat data.length)

end World

/-! ### The machine -/

/-- The state of `PasteTask` and of its worker, and what is known of the task in progress. -/
structure State (κ : Type*) where
  disk : Disk κ
  handle : Option TaskHandle
  retryCount : ℕ
  /-- The disk when the task was started. -/
  before : Disk κ
  /-- Nobody else has changed the disk since. -/
  untouched : Bool
  /-- What the worker has taken for data of the task, with the requests it answers. -/
  accepted : List (Option Request × Bytes)
  /-- The number of the next task. -/
  serial : ℕ

/-- `FileContentsResponse`, and the request it answers, if it answers one. -/
structure FileContentsResponse where
  connId : Int32
  msgFlags : Int32
  streamId : Int32
  requestedData : Bytes
  answers : Option Request

inductive Event (κ : Type*)
  /-- A list of files has come for the directory. -/
  | start (targetDir : Path) (files : List FileDescription) (env : Env)
  | cancel (env : Env)
  | response (r : FileContentsResponse) (env : Env)
  /-- No response for a while; whether too long since the last request. -/
  | timeout (elapsed : Bool) (env : Env)
  | others (disk : Disk κ)

section Machine

variable {κ : Type*} [DecidableEq κ] (lead : Bool × PathKey → κ)

namespace State

def init (disk : Disk κ) : State κ := ⟨disk, none, 0, disk, true, [], 0⟩

def put (s : State κ) (w : World κ) : State κ := { s with disk := w.disk, handle := some w.task }

def start (s : State κ) (targetDir : Path) (files : List FileDescription) (env : Env) :
    State κ × List Out :=
  -- the caller has looked for the directory
  if !s.disk.exists lead targetDir then (s, [])
  else if s.handle.any fun t => !t.isFinished then (s, [])
  else
    let task : TaskHandle :=
      { progress :=
          { listIndex := -1, offset := 0
            totalSize := (files.map FileDescription.size).sum, currentSize := 0
            downloadFileIndex := -1, downloadFileSize := 0, downloadFilePath := []
            fileHandle := none, error := none, isCanceled := false }
        targetDir := targetDir, files := files, serial := s.serial }
    let w := ((⟨s.disk, task, []⟩ : World κ).updateNext lead env 0).1
    let w := if w.task.isFinished then w.onFinished lead env else w.sendOrFail lead env
    ({ s.put w with
        before := s.disk, untouched := true, accepted := [], serial := s.serial + 1 }, w.outs)

def cancel (s : State κ) (env : Env) : State κ × List Out :=
  match s.handle with
  | none => (s, [])
  | some t =>
    let w : World κ := ⟨s.disk, t, []⟩
    let w := (w.setProgress { t.progress with isCanceled := true }).onCancelled lead env
    (s.put w, w.outs)

def endRound (s : State κ) (w : World κ) (env : Env) : State κ × List Out :=
  if w.task.isFinished then
    let w := w.onFinished lead env
    ({ s.put w with retryCount := 0 }, w.outs)
  else
    let w := w.sendOrFail lead env
    (s.put w, w.outs)

def response (s : State κ) (r : FileContentsResponse) (env : Env) : State κ × List Out :=
  match s.handle with
  | none => (s, [])
  | some t =>
    let w : World κ := ⟨s.disk, t, []⟩
    if t.isFinished then (s, [])
    else if r.streamId.toInt ≠ t.progress.listIndex then (s, [])
    else if r.msgFlags ≠ 1 then
      let s := { s with retryCount := s.retryCount + 1 }
      if s.retryCount > RECV_RETRY_TIMES then
        s.endRound lead (w.setError (.invalidRequest ("Failed to read file contents, stream id: " ++
          toString r.streamId ++ ", msg_flags: " ++ toString r.msgFlags))) env
      else s.endRound lead w env
    else
      match t.file? r.streamId.toInt with
      | none => (s, [])
      | some file =>
        if file.connId ≠ r.connId then (s, [])
        else
          let s := { s with accepted := s.accepted ++ [(r.answers, r.requestedData)] }
          match w.handleFileContentsResponse lead env r.requestedData with
          | (w, .ok ()) => s.endRound lead w env
          | (w, .error e) => s.endRound lead (w.onError lead env e) env

def timeout (s : State κ) (elapsed : Bool) (env : Env) : State κ × List Out :=
  match s.handle with
  | none => (s, [])
  | some t =>
    if !t.isFinished && elapsed then
      let w := (⟨s.disk, t, []⟩ : World κ).setError (.invalidRequest "Failed to read file contents")
      let w := w.onFinished lead env
      ({ s.put w with retryCount := 0 }, w.outs)
    else (s, [])

end State

def machine : Machine (State κ) (Event κ) Out where
  step
    | s, .start targetDir files env => s.start lead targetDir files env
    | s, .cancel env => s.cancel lead env
    | s, .response r env => s.response lead r env
    | s, .timeout elapsed env => s.timeout lead elapsed env
    | s, .others disk => ({ s with disk := disk, untouched := false }, [])

/-- The paste is reported as finished, and nothing as wrong. -/
def State.ReportsDone (s : State κ) : Prop :=
  ∃ t, s.handle = some t ∧ t.isFinished = true ∧ t.progress.error = none ∧
    t.progress.isCanceled = false

instance (s : State κ) : Decidable s.ReportsDone :=
  decidable_of_iff (∃ t ∈ s.handle, t.isFinished = true ∧ t.progress.error = none ∧
    t.progress.isCanceled = false) Iff.rfl

end Machine

/-! ### A disk to try it on -/

def Env.quiet : Env := ⟨fun _ => none, fun _ => none, none, 0, none, false, false⟩

/-- A disk with nothing but the directory `/t`. -/
def emptyTarget : Disk (Bool × PathKey) := ⟨FileSystem.empty, fun k => k == (true, ["t".toList])⟩

def offered (relative : String) : FileDescription :=
  (plainFile (Ohos.asBytes relative.toList)).received 7

end LibRustdesk.Clipboard.Paste
