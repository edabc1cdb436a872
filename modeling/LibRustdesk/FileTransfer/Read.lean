import LibRustdesk.FileTransfer.Job

/-!
# Reading a file for a transfer

The functions of `TransferJob` that a sending job uses: `open_data_stream`, `init_data_stream` with
the digest it sends, and `read`.

`read` fills a buffer of 128 KiB by calls that may each return less than they are asked for, and
stops at the first that returns nothing. What the calls return is decided by `ReadEnv`; a stream
that was opened to be written cannot be read at all. `fillBuffer_file` says that how a file is cut
into calls does not matter, and `read_file` what one `read` of a file does.
-/

namespace LibRustdesk.FileTransfer

open LittleEndian

/-- What the calls of one `read` return: an error, or one byte and up to so many more. -/
structure ReadEnv where
  call : ℕ → Except String ℕ

def ReadEnv.Good (env : ReadEnv) : Prop := ∀ k, ∃ most, env.call k = .ok most

/-- The outcomes in `init_data_stream`. -/
structure InitEnv where
  openFile : Except String Unit
  metadata : Except String Unit
  sent : Except String Unit

def InitEnv.good : InitEnv := ⟨.ok (), .ok (), .ok ()⟩

structure FileTransferDigest where
  id : Int32
  fileNum : Int32
  lastModified : UInt64
  fileSize : UInt64
  isUpload : Bool
  isIdentical : Bool
  transferredSize : UInt64
  isResume : Bool
  deriving DecidableEq, Repr

def bufSize : ℕ := 128 * 1024

/-- `DataStream::read` into a buffer with `room` bytes left. -/
def DataStream.read (stream : DataStream) (call : Except String ℕ) (room : ℕ) (disk : Disk) :
    Except String (Bytes × DataStream) :=
  match call with
  | .error e => .error e
  | .ok most =>
    match stream with
    | .fileStream file =>
      if file.writable then .error "Bad file descriptor (os error 9)"
      else
        let (bytes, file) := disk.readAt file (min (most + 1) room)
        .ok (bytes, .fileStream file)
    | .bufStream data pos =>
      let bytes := (data.drop pos).take (min (most + 1) room)
      .ok (bytes, .bufStream data (pos + bytes.length))

/-- The loop of `read`, with `got` in the buffer. Every call but the last one reads something, so
there are at most as many as the buffer has bytes. -/
def fillBuffer (env : ReadEnv) (disk : Disk) :
    ℕ → ℕ → Bytes → DataStream → Except String (Bytes × DataStream)
  | 0, _, got, stream => .ok (got, stream)
  | fuel + 1, k, got, stream =>
    match stream.read (env.call k) (bufSize - got.length) disk with
    | .error e => .error e
    | .ok (bytes, stream) =>
      if bytes = [] ∨ (got ++ bytes).length = bufSize then .ok (got ++ bytes, stream)
      else fillBuffer env disk fuel (k + 1) (got ++ bytes) stream

namespace TransferJob

/-- `open_data_stream`: whether the job is done. -/
def openDataStream (openFile : Except String Unit) (job : TransferJob) (disk : Disk) :
    TransferJob × Except String Bool :=
  match job.dataSource with
  | .filePath p =>
    match job.currentEntry with
    | none => ({ job with dataStream := none }, .ok true)
    | some entry =>
      if job.dataStream = none then
        let opened : Except String FileHandle :=
          match openFile, disk.openRead (pathKey (join p entry.name)) with
          | .ok (), some file => .ok file
          | .ok (), none => .error "No such file or directory (os error 2)"
          | .error e, _ => .error e
        match opened with
        | .ok file =>
          ({ job with
            dataStream := some (.fileStream file)
            fileConfirmed := false
            fileIsWaiting := false }, .ok false)
        | .error e =>
          ({ job with
            fileNum := job.fileNum + 1
            fileConfirmed := false
            fileIsWaiting := false }, .error e)
      else (job, .ok false)
  | .memoryCursor data pos =>
    if job.dataStream = none then
      ({ job with
        dataSource := .memoryCursor [] 0
        dataStream := some (.bufStream data pos) }, .ok false)
    else (job, .ok false)

/-- `get_current_digest`: the time of last modification and the size. -/
def getCurrentDigest (metadata : Except String Unit) (job : TransferJob) (disk : Disk) :
    Except String (UInt64 × UInt64) :=
  match job.dataStream with
  | none => .error "file is None"
  | some (.bufStream _ _) => .error "No digest for buf stream"
  | some (.fileStream file) =>
    match metadata with
    | .error e => .error e
    | .ok () =>
      let node := disk.node file.inode
      if node.mtime < 0 then .error "second time provided was later than self"
      else .ok (node.mtime.toUInt64, UInt64.ofNat node.data.length)

/-- `send_current_digest`: the message, once it is sent. -/
def sendCurrentDigest (env : InitEnv) (job : TransferJob) (disk : Disk) :
    Except String FileTransferDigest :=
  match job.getCurrentDigest env.metadata disk with
  | .error e => .error e
  | .ok (lastModified, fileSize) =>
    match env.sent with
    | .error e => .error e
    | .ok () => .ok ⟨job.id, job.fileNum, lastModified, fileSize, false, false, 0, job.isResume⟩

/-- `init_data_stream`, and the digest if one is sent. -/
def initDataStream (env : InitEnv) (job : TransferJob) (disk : Disk) :
    TransferJob × Except String (Option FileTransferDigest) :=
  match job.openDataStream env.openFile disk with
  | (job, .error e) => (job, .error e)
  | (job, .ok true) => (job, .ok none)
  | (job, .ok false) =>
    if job.type = .generic ∧ job.enableOverwriteDetection ∧ !job.fileConfirmed ∧
        !job.fileIsWaiting then
      match job.sendCurrentDigest env disk with
      | .error e => (job, .error e)
      | .ok digest => (job.setFileIsWaiting true, .ok (some digest))
    else (job, .ok none)

/-- The end of a file, or of what could be read of it. -/
def leaveFile (job : TransferJob) : TransferJob :=
  { job with
    fileNum := job.fileNum + 1
    dataStream := none
    fileConfirmed := false
    fileIsWaiting := false }

/-- The second half of `read`: the next block of the open stream. -/
def readBlock (z : Zstd) (env : ReadEnv) (job : TransferJob) (name : Path) (disk : Disk) :
    TransferJob × Except String (Option FileTransferBlock) :=
  match job.dataStream with
  | none => (job, .error "data stream is None")
  | some stream =>
    match fillBuffer env disk bufSize 0 [] stream with
    | .error e => (job.leaveFile, .error e)
    | .ok (buf, stream) =>
      let job' := { job with dataStream := some stream }
      match buf, job.dataSource with
      | [], .memoryCursor _ _ => ({ job with dataStream := none }, .ok none)
      | [], .filePath _ => (job.leaveFile, .ok (some ⟨job.id, job.fileNum, [], false⟩))
      | buf, source =>
        let tmp := compress z buf
        let compressed := match source with
          | .filePath _ => !isCompressedFile name && tmp.length < buf.length
          | .memoryCursor _ _ => false
        let data := if compressed then tmp else buf
        ({ job' with
          finishedSize := job.finishedSize + UInt64.ofNat buf.length
          transferred := job.transferred + UInt64.ofNat data.length },
          .ok (some ⟨job.id, job.fileNum, data, compressed⟩))

def read (z : Zstd) (env : ReadEnv) (job : TransferJob) (disk : Disk) :
    TransferJob × Except String (Option FileTransferBlock) :=
  if job.type = .generic ∧ job.enableOverwriteDetection ∧ !job.fileConfirmed then (job, .ok none)
  else match job.dataSource with
    | .filePath p =>
      match job.currentEntry with
      | none => ({ job with dataStream := none }, .ok none)
      | some entry =>
        let name := if job.files.length = 1 ∧ entry.name = [] then fileName p else entry.name
        job.readBlock z env name disk
    | .memoryCursor _ _ => job.readBlock z env [] disk

end TransferJob

/-! ### What a read returns -/

theorem fillBuffer_file {env : ReadEnv} (henv : env.Good) (disk : Disk) (inode : ℕ)
    (fuel k pos : ℕ) (got : Bytes) (hfuel : bufSize - got.length ≤ fuel)
    (hgot : got.length ≤ bufSize) :
    fillBuffer env disk fuel k got (.fileStream ⟨inode, pos, false⟩) =
      .ok (got ++ ((disk.node inode).data.drop pos).take (bufSize - got.length),
        .fileStream ⟨inode,
          pos + (((disk.node inode).data.drop pos).take (bufSize - got.length)).length,
          false⟩) := by
  induction fuel generalizing k pos got with
  | zero =>
    rw [Nat.le_zero.mp hfuel, List.take_zero, List.append_nil]
    rfl
  | succ fuel ih =>
    obtain ⟨most, hmost⟩ := henv k
    -- What one call returns, and what is left after it.
    have hread : (DataStream.fileStream ⟨inode, pos, false⟩).read (env.call k)
        (bufSize - got.length) disk =
          .ok (((disk.node inode).data.drop pos).take (min (most + 1) (bufSize - got.length)),
            .fileStream ⟨inode, pos + (((disk.node inode).data.drop pos).take
              (min (most + 1) (bufSize - got.length))).length, false⟩) := by
      rw [hmost]
      rfl
    unfold fillBuffer
    rw [hread]
    dsimp only
    generalize hrest : (disk.node inode).data.drop pos = rest
    generalize hn : min (most + 1) (bufSize - got.length) = n
    split
    · next hstop =>
      -- Nothing was left, or the buffer is full.
      have htake : rest.take n = rest.take (bufSize - got.length) := by
        rcases hstop with hnil | hfull
        · rcases List.take_eq_nil_iff.mp hnil with hzero | hempty
          · have hroom : bufSize - got.length = 0 := by omega
            rw [hzero, hroom]
          · rw [hempty, List.take_nil, List.take_nil]
        · rw [List.length_append, List.length_take] at hfull
          have hn' : n = bufSize - got.length := by omega
          rw [hn']
      rw [htake]
    · next hmore =>
      rw [not_or] at hmore
      have hpos : 0 < (rest.take n).length := List.length_pos_iff.mpr hmore.1
      have hlen : (rest.take n).length ≤ bufSize - got.length := by
        rw [List.length_take]
        omega
      have hrest' : (disk.node inode).data.drop (pos + (rest.take n).length) =
          rest.drop (rest.take n).length := by
        rw [← hrest, List.drop_drop]
      have hsplit : rest.take n ++ (rest.drop (rest.take n).length).take
          (bufSize - got.length - (rest.take n).length) = rest.take (bufSize - got.length) := by
        have htaken : rest.take (rest.take n).length = rest.take n := by
          rw [List.length_take, ← List.take_take, List.take_length]
        calc rest.take n ++ (rest.drop (rest.take n).length).take
              (bufSize - got.length - (rest.take n).length)
            = rest.take (rest.take n).length ++ (rest.drop (rest.take n).length).take
                (bufSize - got.length - (rest.take n).length) := by rw [htaken]
          _ = rest.take ((rest.take n).length + (bufSize - got.length - (rest.take n).length)) :=
              List.take_add.symm
          _ = rest.take (bufSize - got.length) := by rw [Nat.add_sub_of_le hlen]
      rw [ih (k + 1) _ (got ++ rest.take n) (by rw [List.length_append]; omega)
        (by rw [List.length_append]; omega), hrest', List.length_append, Nat.sub_add_eq,
        List.append_assoc, hsplit, ← hsplit, List.length_append, Nat.add_assoc]

namespace TransferJob

variable {z : Zstd} {env : ReadEnv} {job : TransferJob} {disk : Disk} {p : Path} {entry : FileEntry}
  {inode pos : ℕ}

/-- A job whose file may be read: nothing keeps `read` from its stream. -/
structure Reading (job : TransferJob) (p : Path) (entry : FileEntry) (inode pos : ℕ) : Prop where
  source : job.dataSource = .filePath p
  current : job.currentEntry = some entry
  stream : job.dataStream = some (.fileStream ⟨inode, pos, false⟩)
  confirmed : job.enableOverwriteDetection = true → job.fileConfirmed = true

theorem Reading.read (h : job.Reading p entry inode pos) : job.read z env disk =
    job.readBlock z env (if job.files.length = 1 ∧ entry.name = [] then fileName p else entry.name)
      disk := by
  unfold TransferJob.read
  rw [if_neg, h.source]
  · rw [h.current]
  · rintro ⟨-, hdetect, hconfirmed⟩
    rw [h.confirmed hdetect] at hconfirmed
    cases hconfirmed

theorem fillBuffer_start (henv : env.Good) (disk : Disk) (inode pos : ℕ) :
    fillBuffer env disk bufSize 0 [] (.fileStream ⟨inode, pos, false⟩) =
      .ok (((disk.node inode).data.drop pos).take bufSize,
        .fileStream ⟨inode, pos + (((disk.node inode).data.drop pos).take bufSize).length,
          false⟩) :=
  fillBuffer_file henv disk inode bufSize 0 pos [] (Nat.sub_le _ _) (Nat.zero_le _)

theorem Reading.read_end (h : job.Reading p entry inode pos) (henv : env.Good)
    (hend : (disk.node inode).data.drop pos = []) :
    job.read z env disk = (job.leaveFile, .ok (some ⟨job.id, job.fileNum, [], false⟩)) := by
  rw [h.read]
  unfold readBlock
  rw [h.stream]
  dsimp only
  rw [fillBuffer_start henv, hend, List.take_nil, h.source]

theorem Reading.read_more (h : job.Reading p entry inode pos) (hz : z.Lawful) (henv : env.Good)
    (hmore : (disk.node inode).data.drop pos ≠ []) : ∃ block transferred,
      job.read z env disk =
        ({ job with
          dataStream := some (.fileStream ⟨inode,
            pos + (((disk.node inode).data.drop pos).take bufSize).length, false⟩)
          finishedSize := job.finishedSize +
            UInt64.ofNat (((disk.node inode).data.drop pos).take bufSize).length
          transferred := transferred }, .ok (some block)) ∧
        block.id = job.id ∧ block.fileNum = job.fileNum ∧
        block.content z = ((disk.node inode).data.drop pos).take bufSize := by
  have hfill := fillBuffer_start henv disk inode pos
  have hne : ((disk.node inode).data.drop pos).take bufSize ≠ [] := by
    intro hnil
    rcases List.take_eq_nil_iff.mp hnil with hzero | hempty
    · cases hzero
    · exact hmore hempty
  rw [h.read]
  generalize (if job.files.length = 1 ∧ entry.name = [] then fileName p else entry.name) = name
  unfold readBlock
  rw [h.stream]
  dsimp only
  rw [hfill]
  generalize ((disk.node inode).data.drop pos).take bufSize = buf at hne ⊢
  obtain ⟨b, bs, rfl⟩ := List.exists_cons_of_ne_nil hne
  rw [h.source]
  refine ⟨_, _, rfl, rfl, rfl, ?_⟩
  -- Compressed only when that is shorter.
  cases !isCompressedFile name && decide ((compress z (b :: bs)).length < (b :: bs).length) with
  | true => exact decompress_compress hz _
  | false => rfl

end TransferJob

end LibRustdesk.FileTransfer
