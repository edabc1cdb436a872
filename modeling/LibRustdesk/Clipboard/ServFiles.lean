import LibRustdesk.Framework.LittleEndian
import LibRustdesk.Framework.Machine

/-!
# Serving the files of a clipboard

`ClipFiles` and `LocalFile` of `libs/clipboard/src/platform/unix`: the files that were copied are
kept as a list, and a peer that pastes asks for the size of a file or for a range of its bytes by
the index in that list.

A file is opened when it is first read and keeps its reader. `offset` is what the reader's position
is taken to be: a read seeks when it starts somewhere else. When a response is ready the next file
of the list is opened ahead. All calls into the file system can fail on their own, so each request
comes with a record of which of its calls fail. The bytes are those of `disk`, which does not
change. Sizes and offsets are `u64` and wrap, as a release build has it, and a `vec!` of more than
`isize::MAX` bytes ends the process.
-/

namespace LibRustdesk.Clipboard

open LittleEndian

inductive CliprdrError
  | fileError (path err : String)
  | invalidRequest (description : String)
  deriving DecidableEq, Repr

inductive ClipboardFile
  | fileContentsRequest (streamId listIndex dwFlags nPositionLow nPositionHigh cbRequested : Int32)
      (haveClipDataId : Bool) (clipDataId : Int32)
  | fileContentsResponse (msgFlags streamId : Int32) (requestedData : Bytes)
  | files (files : List (String × UInt64))
  deriving DecidableEq, Repr

structure LocalFile where
  path : String
  handle : Option ℕ
  offset : UInt64
  size : UInt64
  isDir : Bool
  deriving DecidableEq, Repr

/-- The outcomes in `load_handle`. -/
structure LoadEnv where
  openFile : Except String Unit
  fillBuf : Except String Unit

/-- The outcomes in `read_exact_at`. -/
structure ReadEnv where
  load : LoadEnv
  seek : Except String Unit
  /-- An error of `read_exact`, and how far it has read by then. -/
  fault : Option (String × ℕ)

/-- The outcomes in `read_file_contents`. -/
structure ServeEnv where
  read : ReadEnv
  /-- Of the file that is opened ahead. -/
  next : LoadEnv
  /-- `Path::is_file`. -/
  isFile : String → Bool

def LoadEnv.good : LoadEnv := ⟨.ok (), .ok ()⟩

def ReadEnv.good : ReadEnv := ⟨.good, .ok (), none⟩

def ServeEnv.good : ServeEnv := ⟨.good, .good, fun _ => true⟩

/-! ### Reading a file -/

/-- `BufReader::read_exact` of `n` bytes at `pos`, and where it leaves the reader. -/
def readExact (fault : Option (String × ℕ)) (data : Bytes) (pos n : ℕ) : ℕ × Except String Bytes :=
  match fault with
  | some (e, got) => (pos + min got n, .error e)
  | none =>
    if n = 0 ∨ pos + n ≤ data.length then (pos + n, .ok ((data.drop pos).take n))
    else (max pos data.length, .error "failed to fill whole buffer")

namespace LocalFile

def loadHandle (env : LoadEnv) (f : LocalFile) : LocalFile × Except CliprdrError Unit :=
  if !f.isDir && f.handle.isNone then
    match env.openFile, env.fillBuf with
    | .error e, _ => (f, .error (.fileError f.path e))
    | .ok (), .error e => (f, .error (.fileError f.path e))
    | .ok (), .ok () => ({ f with handle := some 0 }, .ok ())
  else (f, .ok ())

/-- `read_exact_at`, into a buffer of `n` bytes. -/
def readExactAt (disk : String → Bytes) (env : ReadEnv) (f : LocalFile) (n : ℕ) (offset : UInt64) :
    LocalFile × Except CliprdrError Bytes :=
  match f.loadHandle env.load with
  | (f, .error e) => (f, .error e)
  | (f, .ok ()) =>
    match f.handle with
    | none => (f, .error (.fileError f.path "file handle not found"))
    | some pos =>
      let sought : Except String ℕ :=
        if offset ≠ f.offset then env.seek.map fun _ => offset.toNat else .ok pos
      match sought with
      | .error e => (f, .error (.fileError f.path e))
      | .ok pos =>
        match readExact env.fault (disk f.path) pos n with
        | (pos, .error e) => ({ f with handle := some pos }, .error (.fileError f.path e))
        | (pos, .ok buf) =>
          let newOffset := offset + UInt64.ofNat n
          -- A file that has been read to its end is closed.
          if newOffset ≥ f.size then ({ f with offset := 0, handle := none }, .ok buf)
          else ({ f with offset := newOffset, handle := some pos }, .ok buf)

end LocalFile

/-! ### The cached list -/

inductive FileContentsRequest
  | size (streamId : Int32) (fileIdx : ℕ)
  | range (streamId : Int32) (fileIdx : ℕ) (offset length : UInt64)
  deriving DecidableEq, Repr

structure ClipFiles where
  files : List String
  fileList : List LocalFile
  firstFileIndex : ℕ

def FileContentsRequest.fileIdx : FileContentsRequest → ℕ
  | size _ fileIdx => fileIdx
  | range _ fileIdx _ _ => fileIdx

/-- What `construct_file_list` finds out about a file. -/
structure FoundFile where
  path : String
  isDir : Bool
  size : UInt64

def LocalFile.tryOpen (found : FoundFile) : LocalFile :=
  ⟨found.path, none, 0, found.size, found.isDir⟩

/-- `x as u64`. -/
def asU64 (x : Int32) : UInt64 := x.toInt64.toUInt64

namespace ClipFiles

def clear : ClipFiles := ⟨[], [], 2 ^ 64 - 1⟩

/-- `sync_files`; nothing changes when the list is the cached one, or cannot be made. -/
def syncFiles (clip : ClipFiles) (files : List String)
    (found : Except CliprdrError (List FoundFile)) : ClipFiles :=
  if clip.files = files then clip
  else match found with
    | .error _ => clip
    | .ok list =>
      let fileList := list.map LocalFile.tryOpen
      ⟨files, fileList, (fileList.findIdx? fun f => !f.isDir).getD (2 ^ 64 - 1)⟩

def getFilesForAudit (isFile : String → Bool) (clip : ClipFiles) (request : FileContentsRequest) :
    Option ClipboardFile :=
  match request with
  | .range _ fileIdx offset _ =>
    if fileIdx = clip.firstFileIndex ∧ offset = 0 then
      let files := clip.fileList.filterMap fun f =>
        if isFile f.path then some (f.path, f.size) else none
      if files.isEmpty then none else some (.files files)
    else none
  | .size _ _ => none

/-- `load_handle` of the first file of a list that is not a directory. -/
def loadFirst (env : LoadEnv) : List LocalFile → List LocalFile × Except CliprdrError Unit
  | [] => ([], .ok ())
  | f :: rest =>
    if !f.isDir then
      let (f, res) := f.loadHandle env
      (f :: rest, res)
    else
      let (rest, res) := loadFirst env rest
      (f :: rest, res)

/-- `invalid file index`. -/
def invalidIndex (fileIdx : ℕ) (connId : Int32) : CliprdrError :=
  .invalidRequest ("invalid file index " ++ toString fileIdx ++ " requested from conn: " ++
    toString connId)

/-- The response to a range, before the next file is opened. No response is left when the process
ends. -/
def respondRange (disk : String → Bytes) (env : ReadEnv) (clip : ClipFiles) (connId : Int32)
    (streamId : Int32) (fileIdx : ℕ) (offset length : UInt64) :
    ClipFiles × Option (Except CliprdrError ClipboardFile) :=
  match clip.fileList[fileIdx]? with
  | none => (clip, some (.error (invalidIndex fileIdx connId)))
  | some file =>
    if offset > file.size then
      (clip, some (.error (.invalidRequest
        ("invalid reading offset requested from conn: " ++ toString connId))))
    else
      let readSize := if offset + length > file.size then file.size - offset else length
      if readSize.toNat ≥ 2 ^ 63 then (clip, none)
      else
        let (file, read) := file.readExactAt disk env readSize.toNat offset
        ({ clip with fileList := clip.fileList.set fileIdx file },
          some (read.map fun buf => .fileContentsResponse 1 streamId buf))

/-- The response to a request, before the next file is opened. -/
def respond (disk : String → Bytes) (env : ReadEnv) (clip : ClipFiles) (connId : Int32) :
    FileContentsRequest → ClipFiles × Option (Except CliprdrError ClipboardFile)
  | .size streamId fileIdx =>
    match clip.fileList[fileIdx]? with
    | none => (clip, some (.error (invalidIndex fileIdx connId)))
    | some file =>
      (clip, some (.ok (.fileContentsResponse 1 streamId (u64LeBytes file.size))))
  | .range streamId fileIdx offset length =>
    clip.respondRange disk env connId streamId fileIdx offset length

/-- `serve_file_contents`: the response, unless the next file cannot be opened. -/
def serveFileContents (disk : String → Bytes) (env : ServeEnv) (clip : ClipFiles) (connId : Int32)
    (request : FileContentsRequest) : ClipFiles × Option (Except CliprdrError ClipboardFile) :=
  match clip.respond disk env.read connId request with
  | (clip, some (.ok resp)) =>
    let n := request.fileIdx + 1
    let (rest, res) := loadFirst env.next (clip.fileList.drop n)
    ({ clip with fileList := clip.fileList.take n ++ rest }, some (res.map fun _ => resp))
  | (clip, res) => (clip, res)

/-- The request `read_file_contents` decodes. -/
def decodeRequest (streamId listIndex dwFlags nPositionLow nPositionHigh cbRequested : Int32) :
    Except CliprdrError FileContentsRequest :=
  if dwFlags = 1 then .ok (.size streamId (asU64 listIndex).toNat)
  else if dwFlags = 2 then
    .ok (.range streamId (asU64 listIndex).toNat
      (asU64 nPositionHigh <<< 32 ||| asU64 nPositionLow) (asU64 cbRequested))
  else .error (.invalidRequest ("got invalid FileContentsRequest, dw_flats: " ++ toString dwFlags))

/-- `read_file_contents`. Nothing is returned when the process ends. -/
def readFileContents (disk : String → Bytes) (env : ServeEnv) (clip : ClipFiles)
    (connId streamId listIndex dwFlags nPositionLow nPositionHigh cbRequested : Int32) :
    ClipFiles × Option (List (Except CliprdrError ClipboardFile)) :=
  match decodeRequest streamId listIndex dwFlags nPositionLow nPositionHigh cbRequested with
  | .error e => (clip, some [.error e])
  | .ok fcr =>
    let res := (clip.getFilesForAudit env.isFile fcr).toList.map .ok
    let (clip, served) := clip.serveFileContents disk env connId fcr
    (clip, served.map fun r => res ++ [r])

end ClipFiles

end LibRustdesk.Clipboard
