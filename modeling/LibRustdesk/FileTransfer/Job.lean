import LibRustdesk.Common.Compress
import LibRustdesk.FileTransfer.Paths
import LibRustdesk.Framework.FileSystem
import Mathlib.Data.UInt

/-!
# Transfer jobs

`TransferJob` of `libs/hbb_common/src/fs.rs`: the data, and the functions a receiving job and its
callers use. The functions that read files are in `FileTransfer.Read`.

A job works on one file of its list at a time, the one of index `file_num`, through the stream it
has open. Every call into the file system can fail on its own, so each function that makes such
calls takes a record that says which of them fail, and works on a `FileSystem` that changes when
they succeed. `file_num` is an `i32` that wraps, and is read `as usize` when it indexes.
-/

namespace LibRustdesk.FileTransfer

open LittleEndian

abbrev Disk := FileSystem PathKey

/-- `n as usize`. -/
def asUsize (n : Int32) : ℕ := (n.toInt % 2 ^ 64).toNat

inductive JobType
  | generic
  | printer
  deriving DecidableEq, Repr

inductive DataSource
  | filePath (p : Path)
  | memoryCursor (data : Bytes) (pos : ℕ)
  deriving DecidableEq, Repr

inductive DataStream
  | fileStream (file : FileHandle)
  | bufStream (data : Bytes) (pos : ℕ)
  deriving DecidableEq

structure FileEntry where
  name : Path
  size : UInt64
  modifiedTime : UInt64
  deriving DecidableEq, Repr

structure FileDigest where
  size : UInt64
  modified : UInt64
  deriving DecidableEq, Repr

structure TransferJob where
  id : Int32
  type : JobType
  dataSource : DataSource
  isLastJob : Bool
  isResume : Bool
  fileNum : Int32
  files : List FileEntry
  dataStream : Option DataStream
  totalSize : UInt64
  finishedSize : UInt64
  transferred : UInt64
  enableOverwriteDetection : Bool
  fileConfirmed : Bool
  /-- Whether the last file is skipped. -/
  fileSkipped : Bool
  fileIsWaiting : Bool
  digest : FileDigest

structure FileTransferBlock where
  id : Int32
  fileNum : Int32
  data : Bytes
  compressed : Bool
  deriving DecidableEq, Repr

inductive ConfirmUnion
  | skip (s : Bool)
  | offsetBlk (offset : UInt32)
  deriving DecidableEq, Repr

structure FileTransferSendConfirmRequest where
  id : Int32
  fileNum : Int32
  union : Option ConfirmUnion
  deriving DecidableEq, Repr

/-- The outcomes in `modify_time`. -/
structure FinishEnv where
  /-- What the walk over the path components finds. -/
  onDisk : Except String Unit
  removeDigest : Bool
  rename : Bool
  setMtime : Bool

/-- The outcomes in `remove_download_file`. -/
structure CancelEnv where
  onDisk : Except String Unit
  removeDownload : Bool
  removeDigest : Bool

/-- The outcomes in `write`. -/
structure WriteEnv where
  finish : FinishEnv
  syncAll : Except String Unit
  onDisk : Except String Unit
  removeDigest : Except String Unit
  create : Except String Unit
  writeDigest : Bool
  /-- What `write_all` reports. A write that fails behind its back is reported by a later call. -/
  writeAll : Except String Unit
  /-- How many bytes reach the file, if not all do. -/
  written : Option ℕ

/-- The outcomes in `set_stream_offset`. -/
structure SeekEnv where
  onDisk : Except String Unit
  openDownload : Bool
  openFile : Bool
  seek : Bool

def FinishEnv.good : FinishEnv := ⟨.ok (), true, true, true⟩

def WriteEnv.good : WriteEnv := ⟨.good, .ok (), .ok (), .ok (), .ok (), true, .ok (), none⟩

def FileTransferBlock.content (z : Zstd) (block : FileTransferBlock) : Bytes :=
  if block.compressed then decompress z block.data else block.data

namespace TransferJob

def newWrite (id : Int32) (type : JobType) (dataSource : DataSource) (fileNum : Int32)
    (enableOverwriteDetection : Bool) : TransferJob where
  id := id
  type := type
  dataSource := dataSource
  isLastJob := false
  isResume := false
  fileNum := fileNum
  files := []
  dataStream := none
  totalSize := 0
  finishedSize := 0
  transferred := 0
  enableOverwriteDetection := enableOverwriteDetection
  fileConfirmed := false
  fileSkipped := false
  fileIsWaiting := false
  digest := ⟨0, 0⟩

def totalOf (files : List FileEntry) : UInt64 := (files.map FileEntry.size).sum

def validateTransferFileNames (files : List FileEntry) : Except String Unit :=
  match files with
  | [⟨[], _, _⟩] => .ok ()
  | _ => files.forM fun file =>
    if file.name.isEmpty then .error "empty file name in multi-file transfer"
    else validateFileNameNoTraversal file.name

/-- `set_files`; `onDisk` is what the walk over the components of a name finds. -/
def setFiles (onDisk : Path → Except String Unit) (job : TransferJob) (files : List FileEntry) :
    Except String TransferJob := do
  validateTransferFileNames files
  match job.dataSource with
  | .filePath _ => files.forM fun file => validateNoSymlinkComponents (onDisk file.name) file.name
  | .memoryCursor _ _ => pure ()
  return { job with totalSize := totalOf files, files := files }

def setDigest (job : TransferJob) (size modified : UInt64) : TransferJob :=
  { job with digest := ⟨size, modified⟩ }

/-- The entry `file_num` points at. -/
def currentEntry (job : TransferJob) : Option FileEntry := job.files[asUsize job.fileNum]?

def resolveEntryPath (job : TransferJob) (onDisk : Except String Unit) (base name : Path) :
    Option Path :=
  if job.type = .generic then (joinValidatedPath onDisk base name).toOption
  else some (join base name)

/-! ### Finishing and cancelling a file -/

def modifyTime (env : FinishEnv) (job : TransferJob) (disk : Disk) : Disk :=
  if job.type = .printer then disk
  else match job.dataSource, job.currentEntry with
    | .filePath p, some entry =>
      match job.resolveEntryPath env.onDisk p entry.name with
      | some path =>
        let disk := if env.removeDigest then disk.remove (pathKey (digestPath path)) else disk
        let disk :=
          if env.rename then disk.rename (pathKey (downloadPath path)) (pathKey path) else disk
        if env.setMtime then disk.setMtime (pathKey path) entry.modifiedTime.toInt64 else disk
      | none => disk
    | _, _ => disk

def removeDownloadFile (env : CancelEnv) (job : TransferJob) (disk : Disk) : Disk :=
  if job.type = .printer then disk
  else match job.dataSource, job.currentEntry with
    | .filePath p, some entry =>
      match job.resolveEntryPath env.onDisk p entry.name with
      | some path =>
        let disk :=
          if env.removeDownload then disk.remove (pathKey (downloadPath path)) else disk
        if env.removeDigest then disk.remove (pathKey (digestPath path)) else disk
      | none => disk
    | _, _ => disk

/-! ### `write` -/

/-- `json!(self.digest).to_string()`. -/
def digestJson (d : FileDigest) : Bytes :=
  ("\x7b\"modified\":" ++ toString d.modified.toNat ++ ",\"size\":" ++ toString d.size.toNat ++
    "\x7d").toUTF8.toList

/-- The paths a new file is written under: the file, and its digest if it gets one. -/
def blockPaths (env : WriteEnv) (job : TransferJob) (p : Path) (entry : FileEntry) :
    Except String (Path × Option Path) :=
  if job.type = .printer then .ok (p, none)
  else do
    let path ← joinValidatedPath env.onDisk p entry.name
    return (downloadPath path, some (digestPath path))

/-- Creates the file at `path` and opens it; `digest` is where its digest goes. -/
def createFile (env : WriteEnv) (job : TransferJob) (path : Path) (digest : Option Path)
    (disk : Disk) : Disk × TransferJob × Except String Unit :=
  let removed : Except String Disk :=
    match digest with
    | some dp =>
      if disk.has (pathKey dp) then env.removeDigest.map fun _ => disk.remove (pathKey dp)
      else .ok disk
    | none => .ok disk
  match removed with
  | .error e => (disk, job, .error e)
  | .ok disk =>
    match env.create with
    | .error e => (disk, job, .error e)
    | .ok () =>
      let (disk, file) := disk.create (pathKey path)
      let disk := match digest with
        | some dp =>
          if env.writeDigest then disk.writeFile (pathKey dp) (digestJson job.digest) else disk
        | none => disk
      (disk, { job with dataStream := some (.fileStream file) }, .ok ())

/-- Leaves the current file for the file of the block. `file_num` moves before the calls that may
fail, and the old stream stays until the new file is open. -/
def switchFile (env : WriteEnv) (job : TransferJob) (p : Path) (fileNum : Int32)
    (entry : FileEntry) (disk : Disk) : Disk × TransferJob × Except String Unit :=
  let disk := job.modifyTime env.finish disk
  let synced := match job.dataStream with
    | some (.fileStream _) => env.syncAll
    | _ => .ok ()
  match synced with
  | .error e => (disk, job, .error e)
  | .ok () =>
    let job := { job with fileNum := fileNum }
    match job.blockPaths env p entry with
    | .error e => (disk, job, .error e)
    | .ok (path, digest) => job.createFile env path digest disk

/-- The first half of `write`: checks the block and opens the file it is for. -/
def openBlock (env : WriteEnv) (job : TransferJob) (block : FileTransferBlock) (disk : Disk) :
    Disk × TransferJob × Except String Unit :=
  if block.id ≠ job.id then (disk, job, .error "Wrong id")
  else match job.dataSource with
    | .filePath p =>
      match job.files[asUsize block.fileNum]? with
      | none => (disk, job, .error "Wrong file number")
      | some entry =>
        if asUsize block.fileNum ≠ asUsize job.fileNum ∨ job.dataStream = none then
          job.switchFile env p block.fileNum entry disk
        else (disk, job, .ok ())
    | .memoryCursor data pos =>
      if job.dataStream = none then
        (disk, { job with dataStream := some (.bufStream data pos) }, .ok ())
      else (disk, job, .ok ())

/-- `DataStream::write_all`: nothing reaches a file that was opened to be read. -/
def writeAll (env : WriteEnv) (stream : DataStream) (bytes : Bytes) (disk : Disk) :
    Disk × DataStream × Except String Unit :=
  match stream with
  | .fileStream file =>
    if file.writable then
      let (disk, file) := disk.writeAt file (bytes.take (env.written.getD bytes.length))
      (disk, .fileStream file, env.writeAll)
    else (disk, stream, env.writeAll)
  | .bufStream data pos => (disk, .bufStream (splice data pos bytes) (pos + bytes.length), .ok ())

/-- The second half of `write`: appends the block to the open stream. -/
def writeBlock (z : Zstd) (env : WriteEnv) (job : TransferJob) (block : FileTransferBlock)
    (disk : Disk) : Disk × TransferJob × Except String Unit :=
  match job.dataStream with
  | none => (disk, job, .error (if block.compressed then "data stream is None" else "file is None"))
  | some stream =>
    let bytes := block.content z
    match writeAll env stream bytes disk with
    | (disk, stream, .error e) => (disk, { job with dataStream := some stream }, .error e)
    | (disk, stream, .ok ()) =>
      (disk,
        { job with
          dataStream := some stream
          finishedSize := job.finishedSize + UInt64.ofNat bytes.length
          transferred := job.transferred + UInt64.ofNat block.data.length },
        .ok ())

def write (z : Zstd) (env : WriteEnv) (job : TransferJob) (block : FileTransferBlock)
    (disk : Disk) : Disk × TransferJob × Except String Unit :=
  match job.openBlock env block disk with
  | (disk, job, .error e) => (disk, job, .error e)
  | (disk, job, .ok ()) => job.writeBlock z env block disk

/-! ### Confirmation -/

def setFileConfirmed (job : TransferJob) (fileConfirmed : Bool) : TransferJob :=
  { job with fileConfirmed := fileConfirmed, fileSkipped := false }

def setFileIsWaiting (job : TransferJob) (fileIsWaiting : Bool) : TransferJob :=
  { job with fileIsWaiting := fileIsWaiting }

def setFileSkipped (job : TransferJob) : TransferJob :=
  { job with
    dataStream := none
    fileConfirmed := false
    fileIsWaiting := false
    fileNum := job.fileNum + 1
    fileSkipped := true }

/-- The stream `set_stream_offset` finds for a path: the partial download if it has a digest,
or the file itself to be read. -/
def offsetStream (env : SeekEnv) (path : Path) (disk : Disk) : Disk × Option FileHandle :=
  if disk.has (pathKey (downloadPath path)) && disk.has (pathKey (digestPath path)) then
    if env.openDownload then
      let (disk, file) := disk.openWrite (pathKey (downloadPath path))
      (disk, some file)
    else (disk, none)
  else if disk.has (pathKey path) then
    if env.openFile then (disk, disk.openRead (pathKey path)) else (disk, none)
  else (disk, none)

/-- `set_stream_offset`; the index panics when it is past the list. -/
def setStreamOffset (env : SeekEnv) (job : TransferJob) (fileNum : ℕ) (offset : UInt64)
    (disk : Disk) : Disk × Option TransferJob :=
  match job.dataSource with
  | .memoryCursor _ _ => (disk, some job)
  | .filePath p =>
    match job.files[fileNum]? with
    | none => (disk, none)
    | some entry =>
      match job.resolveEntryPath env.onDisk p entry.name with
      | none => (disk, some job)
      | some path =>
        match offsetStream env path disk with
        | (disk, none) => (disk, some job)
        | (disk, some file) =>
          if env.seek then
            (disk, some { job with
              dataStream := some (.fileStream { file with pos := offset.toNat })
              transferred := job.transferred + offset
              finishedSize := job.finishedSize + offset })
          else (disk, some job)

/-- `confirm`; no job is left when it panics. -/
def confirm (env : SeekEnv) (job : TransferJob) (r : FileTransferSendConfirmRequest)
    (disk : Disk) : Disk × Option TransferJob :=
  if job.fileNum ≠ r.fileNum then (disk, some job)
  else match r.union with
    | some (.skip s) => (disk, some (if s then job.setFileSkipped else job.setFileConfirmed true))
    | some (.offsetBlk offset) =>
      let job := job.setFileConfirmed true
      if offset > 0 then job.setStreamOffset env (asUsize r.fileNum) offset.toUInt64 disk
      else (disk, some job)
    | none => (disk, some job)

def jobSkipped (job : TransferJob) : Bool := job.fileSkipped && job.files.length == 1

/-- Whether the job may be removed once `read` has returned `None`. -/
def jobCompleted (job : TransferJob) : Bool :=
  !job.enableOverwriteDetection || (!job.fileConfirmed && !job.fileIsWaiting)

def jobError (job : TransferJob) : Option String := if job.jobSkipped then some "skipped" else none

end TransferJob

end LibRustdesk.FileTransfer
