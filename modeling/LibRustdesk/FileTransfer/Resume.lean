import LibRustdesk.FileTransfer.Digest
import LibRustdesk.FileTransfer.Directory

/-!
# Resuming a transfer

A transfer that was interrupted leaves `<path>.download` and `<path>.digest` at the receiver. When
it is resumed the sender opens its file and sends the file's digest. The receiver finds that it
has the first bytes of that very file, both sides confirm the same offset, and the sender goes on
reading from there. `Transfer.download` and `Transfer.upload` are the two exchanges, after
`FileResponse::Digest` of `src/client/io_loop.rs` and `CheckDigest` of `src/ui_cm_interface.rs`.

Both sides confirm by the same function, `confirm`, and `set_stream_offset` behind it finds out
which side it is on by looking at the disk: a partial download with a digest is taken for the file
to be written. The sender's directory may hold such a pair too, beside the file it sends.

* `Interrupted` — the state in which a transfer is resumed.
* `Interrupted.exchange` — either exchange has both sides confirm the size of the part.
* `Interrupted.confirm_receiver` — a receiver at the file goes on from its part; a receiver that is
  at another file ignores the confirmation, and begins the file anew.
* `sendFile_rest` — the receiver gets the rest of the file behind what it has.

`resume_exact_iff`: **a resumed transfer delivers the file, and the sender reads its source, if and
only if the receiver's job is at the file and the sender's directory does not hold such a pair.**
-/

namespace LibRustdesk.FileTransfer

open LittleEndian

def SeekEnv.good : SeekEnv := ⟨.ok (), true, true, true⟩

/-! ### Digests are answered -/

/-- What the server side of an upload answers to a digest. -/
inductive CheckReply
  | confirm (r : FileTransferSendConfirmRequest)
  | digest (digest : FileTransferDigest)
  | error (e : String)
  deriving DecidableEq, Repr

namespace TransferJob

/-- How a digest that needs confirmation is confirmed, or `none` to ask the user. An identical
partial download overrides the strategy. -/
def confirmationOf (job : TransferJob) (strategy : Option Bool) (digest : FileTransferDigest) :
    Option FileTransferSendConfirmRequest :=
  let resumes := digest.isIdentical && job.isResume && digest.transferredSize > 0
  let overwriteStrategy := if resumes then some true else strategy
  let offset := if resumes then digest.transferredSize.toUInt32 else 0
  overwriteStrategy.map fun overwrite =>
    ⟨digest.id, digest.fileNum, some (if overwrite then .offsetBlk offset else .skip true)⟩

def confirmAndSend (env : SeekEnv) (job : TransferJob) (r : FileTransferSendConfirmRequest)
    (disk : Disk) : Disk × Option TransferJob × Option FileTransferSendConfirmRequest :=
  let (disk, job) := job.confirm env r disk
  (disk, job, some r)

/-- The client receives the digest of a file it downloads. -/
def receiveDigest (env : CheckEnv) (seek : SeekEnv) (isSupportResume : Bool)
    (strategy : Option Bool) (job : TransferJob) (digest : FileTransferDigest) (disk : Disk) :
    Disk × Option TransferJob × Option FileTransferSendConfirmRequest :=
  if digest.id ≠ job.id then (disk, some job, none)
  else match job.dataSource, job.files[asUsize digest.fileNum]? with
    | .filePath p, some entry =>
      let job := job.setDigest digest.fileSize digest.lastModified
      match isWriteNeedConfirmation env (isSupportResume && job.isResume) (join p entry.name) digest
          disk with
      | .ok .isSame =>
        job.confirmAndSend seek ⟨digest.id, digest.fileNum, some (.skip true)⟩ disk
      | .ok (.needConfirm digest) =>
        match job.confirmationOf strategy digest with
        | some r => job.confirmAndSend seek r disk
        | none => (disk, some job, none)
      | .ok .noSuchFile =>
        job.confirmAndSend seek ⟨digest.id, digest.fileNum, some (.offsetBlk 0)⟩ disk
      | .error _ => (disk, some job, none)
    | _, _ => (disk, some job, none)

/-- The client receives the digest that the server sends back for a file it uploads. -/
def receiveUploadDigest (seek : SeekEnv) (strategy : Option Bool) (job : TransferJob)
    (digest : FileTransferDigest) (disk : Disk) :
    Disk × Option TransferJob × Option FileTransferSendConfirmRequest :=
  if digest.id ≠ job.id then (disk, some job, none)
  else match job.dataSource, job.files[asUsize digest.fileNum]? with
    | .filePath _, some _ =>
      match job.confirmationOf strategy digest with
      | some r => job.confirmAndSend seek r disk
      | none => (disk, some job, none)
    | _, _ => (disk, some job, none)

/-- `CheckDigest`: the server receives the digest of a file that is uploaded to it. -/
def checkDigest (env : CheckEnv) (isUpload : Bool) (job : TransferJob)
    (message : FileTransferDigest) (disk : Disk) : TransferJob × Option CheckReply :=
  if message.id ≠ job.id then (job, none)
  else match job.dataSource, job.files[asUsize message.fileNum]? with
    | .filePath p, some entry =>
      let digest : FileTransferDigest :=
        ⟨message.id, message.fileNum, message.lastModified, message.fileSize,
          false, false, 0, false⟩
      match isWriteNeedConfirmation env message.isResume (join p entry.name) digest disk with
      | .ok result =>
        (job.setDigest message.fileSize message.lastModified, some (match result with
          | .isSame => .confirm ⟨message.id, message.fileNum, some (.skip true)⟩
          | .needConfirm digest => .digest { digest with isUpload := isUpload }
          | .noSuchFile => .confirm ⟨message.id, message.fileNum, some (.offsetBlk 0)⟩))
      | .error e => (job, some (.error e))
    | _, _ => (job, none)

end TransferJob

/-! ### The two sides -/

namespace Transfer

def announce (t : Transfer) : TransferJob × Except String (Option FileTransferDigest) :=
  t.sendJob.initDataStream .good t.sendDisk

def confirmBoth (t : Transfer) (r : FileTransferSendConfirmRequest) : Option Transfer :=
  match t.sendJob.confirm .good r t.sendDisk, t.recvJob.confirm .good r t.recvDisk with
  | (sendDisk, some sendJob), (recvDisk, some recvJob) =>
    some ⟨sendDisk, sendJob, recvDisk, recvJob⟩
  | _, _ => none

/-- A digest goes from the server to the client and its confirmation back, if there is one. -/
def download (isSupportResume : Bool) (strategy : Option Bool) (t : Transfer) : Option Transfer :=
  match t.announce with
  | (sendJob, .ok (some digest)) =>
    match t.recvJob.receiveDigest .good .good isSupportResume strategy digest t.recvDisk with
    | (recvDisk, some recvJob, some r) =>
      match sendJob.confirm .good r t.sendDisk with
      | (sendDisk, some sendJob) => some ⟨sendDisk, sendJob, recvDisk, recvJob⟩
      | (_, none) => none
    | _ => none
  | _ => none

/-- A digest goes from the client to the server, which confirms it or sends it back for the client
to confirm. -/
def upload (strategy : Option Bool) (t : Transfer) : Option Transfer :=
  match t.announce with
  | (sendJob, .ok (some message)) =>
    match t.recvJob.checkDigest .good true message t.recvDisk with
    | (recvJob, some (.confirm r)) =>
      match sendJob.confirm .good r t.sendDisk with
      | (sendDisk, some sendJob) => some ⟨sendDisk, sendJob, t.recvDisk, recvJob⟩
      | (_, none) => none
    | (recvJob, some (.digest digest)) =>
      match sendJob.receiveUploadDigest .good strategy digest t.sendDisk with
      | (sendDisk, some sendJob, some r) =>
        match recvJob.confirm .good r t.recvDisk with
        | (recvDisk, some recvJob) => some ⟨sendDisk, sendJob, recvDisk, recvJob⟩
        | (_, none) => none
      | _ => none
    | _ => none
  | _ => none

/-- The sender reads a block and the receiver writes it. -/
def pump (z : Zstd) (env : ReadEnv) (t : Transfer) : Transfer :=
  match t.sendJob.read z env t.sendDisk with
  | (sendJob, .ok (some block)) =>
    let (recvDisk, recvJob, _) := t.recvJob.write z .good block t.recvDisk
    ⟨t.sendDisk, sendJob, recvDisk, recvJob⟩
  | (sendJob, _) => { t with sendJob := sendJob }

/-- Blocks are sent as long as the sender is at file `k`. -/
def sendFile (z : Zstd) (k : Int32) : List ReadEnv → Transfer → Transfer
  | [], t => t
  | env :: envs, t => if t.sendJob.fileNum = k then sendFile z k envs (t.pump z env) else t

end Transfer

/-! ### One side -/

section Side

variable {p : Path} {files : List FileEntry} {id : Int32} {k : ℕ} {stream : Option DataStream}
  {finished : UInt64} {job : TransferJob} {disk : Disk}

namespace TransferJob

theorem offsetStream_part {entry : FileEntry} {i : ℕ}
    (hpart : disk.dir (downloadKey p entry) = some i)
    (hmark : disk.has (digestKey p entry) = true) :
    offsetStream .good (join p entry.name) disk = (disk, some ⟨i, 0, true⟩) := by
  have hhas : disk.has (downloadKey p entry) = true := Option.isSome_iff_exists.mpr ⟨i, hpart⟩
  have hboth : (disk.has (pathKey (downloadPath (join p entry.name))) &&
      disk.has (pathKey (digestPath (join p entry.name)))) = true :=
    (Bool.and_eq_true _ _).mpr ⟨hhas, hmark⟩
  have hopen : disk.openWrite (pathKey (downloadPath (join p entry.name))) =
      (disk, ⟨i, 0, true⟩) := by
    unfold FileSystem.openWrite
    rw [show disk.dir (pathKey (downloadPath (join p entry.name))) = some i from hpart]
  unfold offsetStream
  rw [if_pos hboth, if_pos (by rfl), hopen]

theorem offsetStream_source {entry : FileEntry} {i : ℕ}
    (hsource : disk.dir (finalKey p entry) = some i)
    (hnot : ¬(disk.has (downloadKey p entry) = true ∧ disk.has (digestKey p entry) = true)) :
    offsetStream .good (join p entry.name) disk = (disk, some ⟨i, 0, false⟩) := by
  have hneither : ¬(disk.has (pathKey (downloadPath (join p entry.name))) &&
      disk.has (pathKey (digestPath (join p entry.name)))) = true :=
    fun h => hnot ((Bool.and_eq_true _ _).mp h)
  have hhas : disk.has (pathKey (join p entry.name)) = true :=
    Option.isSome_iff_exists.mpr ⟨i, hsource⟩
  have hopen : disk.openRead (pathKey (join p entry.name)) = some ⟨i, 0, false⟩ := by
    unfold FileSystem.openRead
    rw [show disk.dir (pathKey (join p entry.name)) = some i from hsource]
    rfl
  unfold offsetStream
  rw [if_neg hneither, if_pos hhas, if_pos (by rfl), hopen]

theorem At.confirm_offset (h : job.At p files id k stream finished) (hlen : files.length < 2 ^ 31)
    (hk : k < files.length)
    (hvalid : validateFileNameNoTraversal (entryAt files k).name = .ok ()) {offset : UInt32}
    (hpos : 0 < offset) {file : FileHandle}
    (hfile : offsetStream .good (join p (entryAt files k).name) disk = (disk, some file)) :
    ∃ job', job.confirm .good ⟨id, Int32.ofNat k, some (.offsetBlk offset)⟩ disk =
        (disk, some job') ∧
      job'.At p files id k (some (.fileStream { file with pos := offset.toNat }))
        (finished + offset.toUInt64) ∧
      job'.fileConfirmed = true := by
  have hentry : job.files[asUsize (Int32.ofNat k)]? = some (entryAt files k) := by
    rw [h.files, asUsize_ofNat (by omega), getElem?_entryAt hk]
  have hpath : (job.setFileConfirmed true).resolveEntryPath (.ok ()) p (entryAt files k).name =
      some (join p (entryAt files k).name) := by
    unfold resolveEntryPath
    rw [if_pos (show (job.setFileConfirmed true).type = .generic from h.generic.type),
      joinValidatedPath_of_valid p hvalid]
    rfl
  have hseek : (job.setFileConfirmed true).setStreamOffset .good (asUsize (Int32.ofNat k))
      offset.toUInt64 disk = (disk, some { job with
        fileConfirmed := true
        fileSkipped := false
        dataStream := some (.fileStream { file with pos := offset.toUInt64.toNat })
        transferred := job.transferred + offset.toUInt64
        finishedSize := job.finishedSize + offset.toUInt64 }) := by
    unfold setStreamOffset
    have hsource : (job.setFileConfirmed true).dataSource = .filePath p := h.generic.source
    rw [hsource]
    rw [show (job.setFileConfirmed true).files = job.files from rfl, hentry]
    dsimp only
    rw [show SeekEnv.good.onDisk = .ok () from rfl, hpath]
    dsimp only
    rw [hfile, h.generic.source]
    rfl
  refine ⟨{ job with
    fileConfirmed := true
    fileSkipped := false
    dataStream := some (.fileStream { file with pos := offset.toUInt64.toNat })
    transferred := job.transferred + offset.toUInt64
    finishedSize := job.finishedSize + offset.toUInt64 }, ?_, ⟨⟨?_, ?_⟩, ?_, ?_, ?_, ?_, ?_⟩, ?_⟩
  · unfold confirm
    rw [if_neg (by rw [h.fileNum]; simp)]
    dsimp only
    rw [if_pos hpos, hseek]
  · exact h.generic.type
  · exact h.generic.source
  · exact h.files
  · exact h.id
  · exact h.fileNum
  · rw [UInt32.toNat_toUInt64]
  · rw [h.finished]
  · rfl

theorem confirm_ignored {env : SeekEnv} {r : FileTransferSendConfirmRequest}
    (h : job.fileNum ≠ r.fileNum) : job.confirm env r disk = (disk, some job) := by
  unfold confirm
  rw [if_pos h]

theorem At.setDigest (h : job.At p files id k stream finished) (size modified : UInt64) :
    (job.setDigest size modified).At p files id k stream finished :=
  ⟨⟨h.generic.type, h.generic.source⟩, h.files, h.id, h.fileNum, h.stream, h.finished⟩

theorem confirmationOf_identical (hresume : job.isResume = true) (strategy : Option Bool)
    {digest : FileTransferDigest} (hidentical : digest.isIdentical = true)
    (hpos : 0 < digest.transferredSize) : job.confirmationOf strategy digest =
      some ⟨digest.id, digest.fileNum, some (.offsetBlk digest.transferredSize.toUInt32)⟩ := by
  have hresumes : (digest.isIdentical && job.isResume && decide (digest.transferredSize > 0)) =
      true := by
    rw [hidentical, hresume]
    exact decide_eq_true hpos
  unfold confirmationOf
  rw [hresumes]
  rfl

theorem At.entry (h : job.At p files id k stream finished) (hlen : files.length < 2 ^ 31) {m : ℕ}
    (hm : m < files.length) : job.files[asUsize (Int32.ofNat m)]? = some (entryAt files m) := by
  rw [h.files, asUsize_ofNat (by omega), getElem?_entryAt hm]

theorem At.receiveDigest (h : job.At p files id k stream finished) (hlen : files.length < 2 ^ 31)
    {m : ℕ} (hm : m < files.length) (hresume : job.isResume = true) (strategy : Option Bool)
    {digest answer : FileTransferDigest} (hid : digest.id = id)
    (hnum : digest.fileNum = Int32.ofNat m)
    (hcheck : isWriteNeedConfirmation .good true (join p (entryAt files m).name) digest disk =
      .ok (.needConfirm answer))
    (hidentical : answer.isIdentical = true) (hpos : 0 < answer.transferredSize) :
    job.receiveDigest .good .good true strategy digest disk =
      (job.setDigest digest.fileSize digest.lastModified).confirmAndSend .good
        ⟨answer.id, answer.fileNum, some (.offsetBlk answer.transferredSize.toUInt32)⟩ disk := by
  have hresume' : (job.setDigest digest.fileSize digest.lastModified).isResume = true := hresume
  unfold TransferJob.receiveDigest
  rw [if_neg (by rw [hid, h.id]; simp), h.generic.source, hnum, h.entry hlen hm]
  dsimp only
  rw [hresume', Bool.and_self, hcheck]
  dsimp only
  rw [confirmationOf_identical hresume' strategy hidentical hpos]

theorem At.checkDigest (h : job.At p files id k stream finished) (hlen : files.length < 2 ^ 31)
    {m : ℕ} (hm : m < files.length) {message answer : FileTransferDigest} (hid : message.id = id)
    (hnum : message.fileNum = Int32.ofNat m) (hresume : message.isResume = true)
    (hcheck : isWriteNeedConfirmation .good true (join p (entryAt files m).name)
      ⟨message.id, message.fileNum, message.lastModified, message.fileSize, false, false, 0, false⟩
      disk = .ok (.needConfirm answer)) :
    job.checkDigest .good true message disk =
      (job.setDigest message.fileSize message.lastModified,
        some (.digest { answer with isUpload := true })) := by
  have hentry : job.files[asUsize message.fileNum]? = some (entryAt files m) := by
    rw [hnum]
    exact h.entry hlen hm
  unfold TransferJob.checkDigest
  rw [if_neg (by rw [hid, h.id]; simp), h.generic.source, hentry]
  dsimp only
  rw [hresume, hcheck]

theorem At.receiveUploadDigest (h : job.At p files id k stream finished) (disk : Disk)
    (hlen : files.length < 2 ^ 31) {m : ℕ} (hm : m < files.length) (hresume : job.isResume = true)
    (strategy : Option Bool) (digest : FileTransferDigest) (hid : digest.id = id)
    (hnum : digest.fileNum = Int32.ofNat m) (hidentical : digest.isIdentical = true)
    (hpos : 0 < digest.transferredSize) :
    job.receiveUploadDigest .good strategy digest disk = job.confirmAndSend .good
      ⟨digest.id, digest.fileNum, some (.offsetBlk digest.transferredSize.toUInt32)⟩ disk := by
  have hentry : job.files[asUsize digest.fileNum]? = some (entryAt files m) := by
    rw [hnum]
    exact h.entry hlen hm
  unfold TransferJob.receiveUploadDigest
  rw [if_neg (by rw [hid, h.id]; simp), h.generic.source, hentry]
  rw [confirmationOf_identical hresume strategy hidentical hpos]

theorem At.announce (h : job.At p files id k none finished) (hlen : files.length < 2 ^ 31)
    (hk : k < files.length) (hdetect : job.enableOverwriteDetection = true) {i : ℕ}
    (hsource : disk.dir (finalKey p (entryAt files k)) = some i)
    (hmtime : 0 ≤ (disk.node i).mtime) :
    ∃ job', job.initDataStream .good disk = (job', .ok (some
        ⟨id, Int32.ofNat k, (disk.node i).mtime.toUInt64, UInt64.ofNat (disk.node i).data.length,
          false, false, 0, job.isResume⟩)) ∧
      job'.At p files id k (some (.fileStream ⟨i, 0, false⟩)) finished ∧
      job'.isResume = job.isResume := by
  have hopen : job.openDataStream (.ok ()) disk =
      ({ job with
        dataStream := some (.fileStream ⟨i, 0, false⟩)
        fileConfirmed := false
        fileIsWaiting := false }, .ok false) := by
    have hread : disk.openRead (pathKey (join p (entryAt files k).name)) = some ⟨i, 0, false⟩ := by
      unfold FileSystem.openRead
      rw [show disk.dir (pathKey (join p (entryAt files k).name)) = some i from hsource]
      rfl
    unfold openDataStream
    rw [h.generic.source]
    rw [h.currentEntry hlen hk]
    dsimp only
    rw [if_pos h.stream, hread]
  unfold initDataStream
  rw [show InitEnv.good.openFile = .ok () from rfl, hopen]
  dsimp only
  rw [if_pos ⟨h.generic.type, hdetect, rfl, rfl⟩]
  unfold sendCurrentDigest getCurrentDigest
  dsimp only [InitEnv.good]
  rw [if_neg (Int64.not_lt.mpr hmtime), h.id, h.fileNum]
  refine ⟨_, rfl, ⟨⟨?_, ?_⟩, ?_, ?_, ?_, rfl, ?_⟩, rfl⟩
  · exact h.generic.type
  · exact h.generic.source
  · exact h.files
  · rfl
  · rfl
  · exact h.finished

end TransferJob

theorem isWriteNeedConfirmation_part {path : Path} {digest : FileTransferDigest} {text part : Bytes}
    (hmark : disk.content (pathKey (digestPath path)) = some text)
    (hread : readFileDigest text = some ⟨digest.fileSize, digest.lastModified⟩)
    (hpart : disk.content (pathKey (downloadPath path)) = some part)
    (hpos : 0 < UInt64.ofNat part.length) :
    isWriteNeedConfirmation .good true path digest disk =
      .ok (.needConfirm ⟨digest.id, digest.fileNum, digest.lastModified, digest.fileSize, false,
        true, UInt64.ofNat part.length, false⟩) := by
  unfold isWriteNeedConfirmation resumableSize
  rw [if_pos rfl, hmark, hpart]
  dsimp only
  rw [if_pos (by rfl), hread]
  dsimp only
  rw [if_pos ⟨⟨rfl, rfl⟩, rfl, hpos⟩]

end Side

/-! ### Both sides -/

inductive Way
  | download
  | upload
  deriving DecidableEq, Repr

namespace Transfer

/-- The digest of the file goes one way, and what is confirmed the other. -/
def resume (way : Way) (strategy : Option Bool) (t : Transfer) : Option Transfer :=
  match way with
  | .download => t.download true strategy
  | .upload => t.upload strategy

def clientJob (way : Way) (t : Transfer) : TransferJob :=
  match way with
  | .download => t.recvJob
  | .upload => t.sendJob

/-- **An interrupted transfer.** The sender is to open the file `k`, and the receiver has the first
`pos` bytes of it with the digest. The job of the receiver may be at another file: it gets to the
file `k` by the first block of it. -/
structure Interrupted (way : Way) (sendPath recvPath : Path) (files : List FileEntry) (id : Int32)
    (k inode pos : ℕ) (t : Transfer) : Prop where
  length : files.length < 2 ^ 31
  index : k < files.length
  valid : validateFileNameNoTraversal (entryAt files k).name = .ok ()
  sender : t.sendJob.At sendPath files id k none t.sendJob.finishedSize
  detect : t.sendJob.enableOverwriteDetection = true
  source : t.sendDisk.dir (finalKey sendPath (entryAt files k)) = some inode
  mtime : 0 ≤ (t.sendDisk.node inode).mtime
  fits : (t.sendDisk.node inode).data.length < 2 ^ 32
  receiver : ∃ j stream, j ≤ files.length ∧
    t.recvJob.At recvPath files id j stream t.recvJob.finishedSize
  resumes : (t.clientJob way).isResume = true
  part : t.recvDisk.content (downloadKey recvPath (entryAt files k)) =
    some ((t.sendDisk.node inode).data.take pos)
  pos : 0 < pos ∧ pos ≤ (t.sendDisk.node inode).data.length
  mark : ∃ text, t.recvDisk.content (digestKey recvPath (entryAt files k)) = some text ∧
    readFileDigest text = some ⟨UInt64.ofNat (t.sendDisk.node inode).data.length,
      (t.sendDisk.node inode).mtime.toUInt64⟩

section Resume

variable {way : Way} {sendPath recvPath : Path} {files : List FileEntry} {id : Int32}
  {k inode pos : ℕ} {z : Zstd} {t : Transfer}

theorem Interrupted.exchange (h : t.Interrupted way sendPath recvPath files id k inode pos)
    (strategy : Option Bool) {j : ℕ} {stream : Option DataStream}
    (hreceiver : t.recvJob.At recvPath files id j stream t.recvJob.finishedSize) :
    ∃ sendJob recvJob,
      sendJob.At sendPath files id k (some (.fileStream ⟨inode, 0, false⟩))
        t.sendJob.finishedSize ∧
      recvJob.At recvPath files id j stream t.recvJob.finishedSize ∧
      t.resume way strategy = confirmBoth ⟨t.sendDisk, sendJob, t.recvDisk, recvJob⟩
        ⟨id, Int32.ofNat k, some (.offsetBlk (UInt32.ofNat pos))⟩ := by
  obtain ⟨text, hmark, hread⟩ := h.mark
  obtain ⟨job', hannounce, hsender, hresume⟩ :=
    h.sender.announce h.length h.index h.detect h.source h.mtime
  have hlength : ((t.sendDisk.node inode).data.take pos).length = pos :=
    List.length_take_of_le h.pos.2
  have hfits : pos < 2 ^ 32 := Nat.lt_of_le_of_lt h.pos.2 h.fits
  have hpos : 0 < UInt64.ofNat pos := by
    rw [UInt64.lt_iff_toNat_lt, UInt64.toNat_ofNat_of_lt' (Nat.lt_trans hfits (by decide))]
    exact h.pos.1
  have hsize : (UInt64.ofNat pos).toUInt32 = UInt32.ofNat pos := UInt64.toUInt32_ofNat' pos
  -- what the receiver says about the file, in either direction
  have hneed {digest : FileTransferDigest}
      (hsize : digest.fileSize = UInt64.ofNat (t.sendDisk.node inode).data.length)
      (htime : digest.lastModified = (t.sendDisk.node inode).mtime.toUInt64) :
      isWriteNeedConfirmation .good true (join recvPath (entryAt files k).name) digest t.recvDisk =
        .ok (.needConfirm ⟨digest.id, digest.fileNum, digest.lastModified, digest.fileSize, false,
          true, UInt64.ofNat pos, false⟩) := by
    rw [← hsize, ← htime] at hread
    have hneeds := isWriteNeedConfirmation_part hmark hread h.part
    rw [hlength] at hneeds
    exact hneeds hpos
  generalize hdigest : (⟨id, Int32.ofNat k, (t.sendDisk.node inode).mtime.toUInt64,
    UInt64.ofNat (t.sendDisk.node inode).data.length, false, false, 0, t.sendJob.isResume⟩ :
    FileTransferDigest) = digest at hannounce
  have hid : digest.id = id := congrArg FileTransferDigest.id hdigest.symm
  have hnum : digest.fileNum = Int32.ofNat k :=
    congrArg FileTransferDigest.fileNum hdigest.symm
  have hanswer := hneed (congrArg FileTransferDigest.fileSize hdigest.symm)
    (congrArg FileTransferDigest.lastModified hdigest.symm)
  refine ⟨job', t.recvJob.setDigest digest.fileSize digest.lastModified, hsender,
    hreceiver.setDigest _ _, ?_⟩
  cases way with
  | download =>
    have hreceive := hreceiver.receiveDigest h.length h.index h.resumes strategy hid hnum hanswer
      rfl hpos
    change t.download true strategy = _
    unfold download announce confirmBoth
    rw [hannounce]
    dsimp only
    rw [hreceive]
    unfold TransferJob.confirmAndSend
    rw [hsize, hid, hnum]
    generalize TransferJob.confirm .good (t.recvJob.setDigest _ _) _ t.recvDisk = received
    obtain ⟨recvDisk, recvJob⟩ := received
    cases recvJob <;> dsimp only <;>
    · generalize TransferJob.confirm .good job' _ t.sendDisk = sent
      obtain ⟨sendDisk, sendJob⟩ := sent
      cases sendJob <;> rfl
  | upload =>
    have hresumes : t.sendJob.isResume = true := h.resumes
    have hcheck := hreceiver.checkDigest h.length h.index hid hnum
      ((congrArg FileTransferDigest.isResume hdigest.symm).trans hresumes)
      (hneed (congrArg FileTransferDigest.fileSize hdigest.symm)
        (congrArg FileTransferDigest.lastModified hdigest.symm))
    -- the answer comes back to the client, which confirms it
    have hback := hsender.receiveUploadDigest t.sendDisk h.length h.index
      (hresume.trans hresumes) strategy
      ⟨digest.id, digest.fileNum, digest.lastModified, digest.fileSize, true, true,
        UInt64.ofNat pos, false⟩ hid hnum rfl hpos
    change t.upload strategy = _
    unfold upload announce confirmBoth
    rw [hannounce]
    dsimp only
    rw [hcheck]
    dsimp only
    rw [hback]
    unfold TransferJob.confirmAndSend
    rw [hsize, hid, hnum]
    generalize TransferJob.confirm .good job' _ t.sendDisk = sent
    obtain ⟨sendDisk, sendJob⟩ := sent
    cases sendJob with
    | none => rfl
    | some sendJob =>
      dsimp only
      generalize TransferJob.confirm .good (t.recvJob.setDigest _ _) _ t.recvDisk = received
      obtain ⟨recvDisk, recvJob⟩ := received
      cases recvJob <;> rfl

/-! ### The rest of the file -/

/-- The receiver has the bytes `got` of the file `k`, and writes behind them. -/
def Writes (disk : Disk) (p : Path) (files : List FileEntry) (id : Int32) (k : ℕ) (got : Bytes)
    (job : TransferJob) : Prop :=
  ∃ i finished, job.At p files id k (some (.fileStream ⟨i, got.length, true⟩)) finished ∧
    disk.dir (downloadKey p (entryAt files k)) = some i ∧ (disk.node i).data = got

/-- A block of the file `k` is put behind the bytes `got`. -/
def Takes (z : Zstd) (disk : Disk) (p : Path) (files : List FileEntry) (id : Int32) (k : ℕ)
    (got : Bytes) (job : TransferJob) : Prop :=
  ∀ block : FileTransferBlock, block.id = id → block.fileNum = Int32.ofNat k →
    ∃ disk' job', job.write z .good block disk = (disk', job', .ok ()) ∧
      Writes disk' p files id k (got ++ block.content z) job'

variable {got : Bytes}

theorem Writes.takes {disk : Disk} {p : Path} {job : TransferJob}
    (h : Writes disk p files id k got job) (z : Zstd) (hlen : files.length < 2 ^ 31)
    (hk : k < files.length) : Takes z disk p files id k got job := by
  obtain ⟨i, finished, hat, hdir, hdata⟩ := h
  intro block hid hnum
  obtain ⟨job', hwrite, hat'⟩ :=
    @TransferJob.At.write_same p files id k finished job disk z _ hat hlen hk rfl block hid hnum
  refine ⟨_, job', hwrite, i, finished + UInt64.ofNat (block.content z).length, ?_, hdir, ?_⟩
  · rw [List.length_append]
    exact hat'
  · rw [FileSystem.node_writeAt_self, hdata, splice_length]

theorem takes_next {disk : Disk} {p : Path} {j : ℕ} {stream : Option DataStream}
    {finished : UInt64} {job : TransferJob} (h : job.At p files id j stream finished) (z : Zstd)
    (hlen : files.length < 2 ^ 31) (hj : j ≤ files.length) (hk : k < files.length) (hne : k ≠ j)
    (hvalid : validateFileNameNoTraversal (entryAt files k).name = .ok ()) :
    Takes z disk p files id k [] job := by
  intro block hid hnum
  have hbegin := Staging.begin_spec (S := staging p files) (job.modifyTime .good disk) k
    (TransferJob.digestJson job.digest)
  have hwrites := @TransferJob.At.write_next p files id j stream finished job disk z h hlen hj k hk
    hvalid (.inl hne) block hid hnum _ rfl hbegin.2.2.2
  generalize (staging p files).begin k (TransferJob.digestJson job.digest)
    (job.modifyTime .good disk) = started at hbegin hwrites
  obtain ⟨disk', i, pos, writable⟩ := started
  obtain ⟨hdir, hdata, hpos, hwritable⟩ := hbegin
  obtain ⟨job', hwrite, hat⟩ := hwrites
  subst hpos hwritable
  refine ⟨_, job', hwrite, i, finished + UInt64.ofNat (block.content z).length, ?_, hdir, ?_⟩
  · have hpos : ([] ++ block.content z).length = 0 + (block.content z).length := by
      rw [List.nil_append, Nat.zero_add]
    rw [hpos]
    exact hat
  · rw [FileSystem.node_writeAt_self, hdata]
    exact splice_length [] _

theorem Writes.finish {disk : Disk} {p : Path} {job : TransferJob}
    (h : Writes disk p files id k got job) (hlen : files.length < 2 ^ 31) (hk : k < files.length)
    (hvalid : validateFileNameNoTraversal (entryAt files k).name = .ok ()) :
    (job.modifyTime .good disk).content (finalKey p (entryAt files k)) = some got := by
  obtain ⟨i, finished, hat, hdir, hdata⟩ := h
  rw [hat.modifyTime hlen hk hvalid]
  have hne : (staging p files).final k ≠ (staging p files).part k :=
    pathKey_append_suffix_ne _ (by decide) (by decide)
  exact (Staging.content_leave (S := staging p files) hdir hne _).trans (congrArg some hdata)

theorem sendFile_left {n : Int32} (h : t.sendJob.fileNum ≠ n) (envs : List ReadEnv) :
    t.sendFile z n envs = t := by
  cases envs with
  | nil => rfl
  | cons env envs =>
    unfold sendFile
    rw [if_neg h]

theorem sendFile_rest (hz : z.Lawful) (hlen : files.length < 2 ^ 31) (hk : k < files.length)
    (hread : t.sendJob.Reading sendPath (entryAt files k) inode pos)
    (hid : t.sendJob.id = id) (hnum : t.sendJob.fileNum = Int32.ofNat k)
    (htakes : Takes z t.recvDisk recvPath files id k got t.recvJob) (envs : List ReadEnv)
    (hgood : ∀ env ∈ envs, env.Good)
    (hlong : (t.sendDisk.node inode).data.length - pos < envs.length) :
    Writes (t.sendFile z (Int32.ofNat k) envs).recvDisk recvPath files id k
      (got ++ (t.sendDisk.node inode).data.drop pos)
      (t.sendFile z (Int32.ofNat k) envs).recvJob := by
  -- by induction on the reads that are left
  induction envs generalizing t pos got with
  | nil => exact absurd hlong (Nat.not_lt_zero _)
  | cons env envs ih =>
    have henv := hgood env List.mem_cons_self
    unfold sendFile
    rw [if_pos hnum]
    by_cases hend : (t.sendDisk.node inode).data.drop pos = []
    · -- the empty block that ends the file
      have hblock := @TransferJob.Reading.read_end z env _ t.sendDisk _ _ _ _ hread henv hend
      rw [hid, hnum] at hblock
      obtain ⟨disk', job', hwrite, hwrites⟩ := htakes ⟨id, Int32.ofNat k, [], false⟩ rfl rfl
      have hpump : t.pump z env = ⟨t.sendDisk, t.sendJob.leaveFile, disk', job'⟩ := by
        unfold pump
        rw [hblock]
        dsimp only
        rw [hwrite]
      have hleft : (t.pump z env).sendJob.fileNum ≠ Int32.ofNat k := by
        rw [hpump]
        change t.sendJob.fileNum + 1 ≠ _
        rw [hnum]
        intro hsame
        have hone : (1 : Int32) = 0 := Int32.left_eq_add.mp hsame.symm
        exact absurd hone (by decide)
      rw [sendFile_left hleft, hpump, hend]
      exact hwrites
    · -- a block, and then the rest behind it
      obtain ⟨block, transferred, hblock, hblockId, hblockNum, hcontent⟩ :=
        hread.read_more hz henv hend
      obtain ⟨disk', job', hwrite, hwrites⟩ :=
        htakes block (hblockId.trans hid) (hblockNum.trans hnum)
      generalize hdata : (t.sendDisk.node inode).data = data at hend hlong hblock hcontent ⊢
      generalize hjob : ({ t.sendJob with
        dataStream := some (.fileStream ⟨inode, pos + ((data.drop pos).take bufSize).length,
          false⟩)
        finishedSize := t.sendJob.finishedSize +
          UInt64.ofNat ((data.drop pos).take bufSize).length
        transferred := transferred } : TransferJob) = next at hblock
      have hpump : t.pump z env = ⟨t.sendDisk, next, disk', job'⟩ := by
        unfold pump
        rw [hblock]
        dsimp only
        rw [hwrite]
      have hnext : next.Reading sendPath (entryAt files k) inode
          (pos + ((data.drop pos).take bufSize).length) := by
        rw [← hjob]
        exact ⟨hread.source, hread.current, rfl, hread.confirmed⟩
      have hpos : 0 < ((data.drop pos).take bufSize).length := by
        rw [List.length_take]
        exact Nat.lt_min.mpr ⟨by decide, List.length_pos_iff.mpr hend⟩
      have hrest : data.drop pos = (data.drop pos).take bufSize ++
          data.drop (pos + ((data.drop pos).take bufSize).length) := by
        rw [← List.drop_drop, List.length_take]
        calc data.drop pos
            = (data.drop pos).take (min bufSize (data.drop pos).length) ++
                (data.drop pos).drop (min bufSize (data.drop pos).length) :=
              (List.take_append_drop _ _).symm
          _ = (data.drop pos).take bufSize ++
                (data.drop pos).drop (min bufSize (data.drop pos).length) := by
              rw [← List.take_eq_take_min]
      have hfewer : (t.sendDisk.node inode).data.length -
          (pos + ((data.drop pos).take bufSize).length) < envs.length := by
        have hinside : pos < data.length := by
          apply Nat.lt_of_not_le
          intro hle
          exact hend (List.drop_eq_nil_iff.mpr hle)
        rw [List.length_cons] at hlong
        rw [hdata]
        omega
      have hrun := ih (t := ⟨t.sendDisk, next, disk', job'⟩) hnext
        (by rw [← hjob]; exact hid) (by rw [← hjob]; exact hnum) (hwrites.takes z hlen hk)
        (fun e he => hgood e (List.mem_cons_of_mem _ he)) hfewer
      rw [hdata, hcontent, List.append_assoc, ← hrest] at hrun
      rw [hpump]
      exact hrun

theorem sendFile_finish (hz : z.Lawful) (hlen : files.length < 2 ^ 31) (hk : k < files.length)
    (hvalid : validateFileNameNoTraversal (entryAt files k).name = .ok ())
    (hread : t.sendJob.Reading sendPath (entryAt files k) inode pos) (hid : t.sendJob.id = id)
    (hnum : t.sendJob.fileNum = Int32.ofNat k)
    (htakes : Takes z t.recvDisk recvPath files id k got t.recvJob) (envs : List ReadEnv)
    (hgood : ∀ env ∈ envs, env.Good)
    (hlong : (t.sendDisk.node inode).data.length < envs.length) :
    (t.sendFile z (Int32.ofNat k) envs).finish.recvDisk.content
        (finalKey recvPath (entryAt files k)) =
      some (got ++ (t.sendDisk.node inode).data.drop pos) :=
  (sendFile_rest hz hlen hk hread hid hnum htakes envs hgood
    (Nat.lt_of_le_of_lt (Nat.sub_le _ _) hlong)).finish hlen hk hvalid

/-! ### What a resumed transfer is for -/

/-- The sender reads its source behind the part that was sent, with its directory as it was, and the
receiver ends up with the source. -/
structure Resumed (z : Zstd) (sendPath recvPath : Path) (files : List FileEntry)
    (k inode pos : ℕ) (t t' : Transfer) : Prop where
  reads : t'.sendJob.dataStream = some (.fileStream ⟨inode, pos, false⟩)
  untouched : t'.sendDisk = t.sendDisk
  delivered : ∀ envs : List ReadEnv, (∀ env ∈ envs, env.Good) →
    (t.sendDisk.node inode).data.length < envs.length →
    (t'.sendFile z (Int32.ofNat k) envs).finish.recvDisk.content
        (finalKey recvPath (entryAt files k)) =
      t.sendDisk.content (finalKey sendPath (entryAt files k))

theorem confirmBoth_eq {r : FileTransferSendConfirmRequest} {sendDisk recvDisk : Disk}
    {sendJob recvJob : TransferJob}
    (hsend : t.sendJob.confirm .good r t.sendDisk = (sendDisk, some sendJob))
    (hrecv : t.recvJob.confirm .good r t.recvDisk = (recvDisk, some recvJob)) :
    t.confirmBoth r = some ⟨sendDisk, sendJob, recvDisk, recvJob⟩ := by
  unfold confirmBoth
  rw [hsend, hrecv]

theorem Interrupted.confirm_receiver
    (h : t.Interrupted way sendPath recvPath files id k inode pos) (z : Zstd) {j : ℕ}
    {stream : Option DataStream} (hj : j ≤ files.length) {recvJob : TransferJob}
    (hat : recvJob.At recvPath files id j stream t.recvJob.finishedSize) {offset : UInt32}
    (hpos : 0 < offset) (hoffset : offset.toNat = pos) : ∃ recvDisk recvJob',
      recvJob.confirm .good ⟨id, Int32.ofNat k, some (.offsetBlk offset)⟩ t.recvDisk =
        (recvDisk, some recvJob') ∧
      Takes z recvDisk recvPath files id k
        (if j = k then (t.sendDisk.node inode).data.take pos else []) recvJob' := by
  by_cases hsame : j = k
  · rw [if_pos hsame]
    subst hsame
    obtain ⟨text, hmark, -⟩ := h.mark
    obtain ⟨i, hi, hdata⟩ := Option.map_eq_some_iff.mp h.part
    have hhas : t.recvDisk.has (digestKey recvPath (entryAt files j)) = true := by
      obtain ⟨m, hm, -⟩ := Option.map_eq_some_iff.mp hmark
      exact Option.isSome_iff_exists.mpr ⟨m, hm⟩
    obtain ⟨recvJob', hconfirm, hat', -⟩ := hat.confirm_offset h.length h.index h.valid hpos
      (TransferJob.offsetStream_part hi hhas)
    have hwrites : Writes t.recvDisk recvPath files id j
        ((t.sendDisk.node inode).data.take pos) recvJob' := by
      refine ⟨i, t.recvJob.finishedSize + offset.toUInt64, ?_, hi, hdata⟩
      rw [List.length_take_of_le h.pos.2, ← hoffset]
      exact hat'
    exact ⟨t.recvDisk, recvJob', hconfirm, hwrites.takes z h.length h.index⟩
  · rw [if_neg hsame]
    have hnum : recvJob.fileNum ≠ Int32.ofNat k := by
      intro hnum
      have hindex := hat.index h.length hj
      have hk := h.index
      have hlen := h.length
      rw [hnum, asUsize_ofNat (by omega)] at hindex
      exact hsame hindex.symm
    exact ⟨t.recvDisk, recvJob, TransferJob.confirm_ignored hnum,
      takes_next hat z h.length hj h.index (fun heq => hsame heq.symm) h.valid⟩

theorem exists_good_reads (n : ℕ) :
    ∃ envs : List ReadEnv, (∀ env ∈ envs, env.Good) ∧ n < envs.length := by
  refine ⟨List.replicate (n + 1) ⟨fun _ => .ok 0⟩, ?_, ?_⟩
  · intro env henv call
    rw [List.eq_of_mem_replicate henv]
    exact ⟨0, rfl⟩
  · rw [List.length_replicate]
    exact Nat.lt_succ_self n

/-- **A resumed transfer delivers the file** exactly when the receiver's job is at that file, so
that it goes on from its part, and the sender's directory holds no partial download with a digest
of its own beside the file. -/
theorem resume_exact_iff (hz : z.Lawful)
    (h : t.Interrupted way sendPath recvPath files id k inode pos) (strategy : Option Bool) :
    (∃ t', t.resume way strategy = some t' ∧
        Resumed z sendPath recvPath files k inode pos t t') ↔
      t.recvJob.fileNum = Int32.ofNat k ∧
        ¬(t.sendDisk.has (downloadKey sendPath (entryAt files k)) = true ∧
          t.sendDisk.has (digestKey sendPath (entryAt files k)) = true) := by
  obtain ⟨j, stream, hj, hreceiver⟩ := h.receiver
  obtain ⟨sendJob, recvJob, hsender, hreceiver', hexchange⟩ := h.exchange strategy hreceiver
  rw [hexchange]
  have hfits : pos < 2 ^ 32 := Nat.lt_of_le_of_lt h.pos.2 h.fits
  have hoffset : (UInt32.ofNat pos).toNat = pos := UInt32.toNat_ofNat_of_lt' hfits
  have hpos : 0 < UInt32.ofNat pos := by
    rw [UInt32.lt_iff_toNat_lt, hoffset]
    exact h.pos.1
  have hsource : t.sendDisk.content (finalKey sendPath (entryAt files k)) =
      some (t.sendDisk.node inode).data := by
    unfold FileSystem.content
    rw [h.source]
    rfl
  obtain ⟨recvDisk, recvJob', hrecv, htakes⟩ := h.confirm_receiver z hj hreceiver' hpos hoffset
  have hwhere : t.recvJob.fileNum = Int32.ofNat k ↔ j = k := by
    have hindex := hreceiver.index h.length hj
    have hk := h.index
    have hlen := h.length
    constructor
    · intro hnum
      rw [hnum, asUsize_ofNat (by omega)] at hindex
      exact hindex.symm
    · rintro rfl
      exact hreceiver.fileNum
  rw [hwhere]
  by_cases hbeside : t.sendDisk.has (downloadKey sendPath (entryAt files k)) = true ∧
      t.sendDisk.has (digestKey sendPath (entryAt files k)) = true
  · -- the sender takes the part beside its source for the file to be written
    obtain ⟨i, hi⟩ := Option.isSome_iff_exists.mp hbeside.1
    obtain ⟨sendJob', hsend, hsender', -⟩ := hsender.confirm_offset h.length h.index h.valid hpos
      (TransferJob.offsetStream_part hi hbeside.2)
    refine ⟨?_, fun hwhen => absurd hbeside hwhen.2⟩
    rintro ⟨t', hboth, hresumed⟩
    rw [confirmBoth_eq hsend hrecv] at hboth
    have hreads := hresumed.reads
    rw [← Option.some.inj hboth, hsender'.stream] at hreads
    simp at hreads
  · obtain ⟨sendJob', hsend, hsender', hconfirmed⟩ := hsender.confirm_offset h.length h.index
      h.valid hpos (TransferJob.offsetStream_source h.source hbeside)
    rw [hoffset] at hsender'
    have hread : sendJob'.Reading sendPath (entryAt files k) inode pos :=
      ⟨hsender'.generic.source, hsender'.currentEntry h.length h.index, hsender'.stream,
        fun _ => hconfirmed⟩
    rw [confirmBoth_eq (t := ⟨t.sendDisk, sendJob, t.recvDisk, recvJob⟩) hsend hrecv]
    have hfinish := fun envs => sendFile_finish (t := ⟨t.sendDisk, sendJob', recvDisk, recvJob'⟩) hz
      h.length h.index h.valid hread hsender'.id hsender'.fileNum htakes envs
    constructor
    · -- from a file that was begun anew the first bytes are missing
      rintro ⟨t', hboth, hresumed⟩
      refine ⟨?_, hbeside⟩
      by_contra hother
      obtain ⟨envs, hgood, hlong⟩ := exists_good_reads (t.sendDisk.node inode).data.length
      have hcontent := hresumed.delivered envs hgood hlong
      rw [← Option.some.inj hboth, hfinish envs hgood hlong, if_neg hother, hsource,
        List.nil_append] at hcontent
      have hlength := congrArg List.length (Option.some.inj hcontent)
      dsimp only at hlength
      rw [List.length_drop] at hlength
      have hpart := h.pos
      omega
    · rintro ⟨hsame, -⟩
      refine ⟨_, rfl, hsender'.stream, rfl, ?_⟩
      intro envs hgood hlong
      rw [hfinish envs hgood hlong, if_pos hsame, List.take_append_drop, hsource]

end Resume

/-- A file of three bytes is sent from `s` to `r`, which has the first of them. Beside the file
there may be a part of an older one in `s` too. -/
def halfSent (beside : Bool) : Transfer :=
  let job (p : String) : TransferJob :=
    { TransferJob.newWrite 1 .generic (.filePath p.toList) 0 true with
      files := [⟨"a".toList, 3, 0⟩], isResume := true }
  let path (name : String) : PathKey := pathKey name.toList
  let source : Disk := FileSystem.empty.writeFile (path "s/a") [1, 2, 3]
  { sendDisk := if beside then
      (source.writeFile (path "s/a.download") [7]).writeFile (path "s/a.digest") []
      else source
    sendJob := job "s"
    recvDisk := (FileSystem.empty.writeFile (path "r/a.download") [1]).writeFile (path "r/a.digest")
      (TransferJob.digestJson ⟨3, 0⟩)
    recvJob := job "r" }

theorem halfSent_interrupted (way : Way) (beside : Bool) : (halfSent beside).Interrupted way
    "s".toList "r".toList (halfSent beside).sendJob.files 1 0 0 1 where
  length := by
    change 1 < 2 ^ 31
    decide
  index := Nat.zero_lt_one
  valid := by cases beside <;> decide +kernel
  sender := ⟨⟨rfl, rfl⟩, rfl, rfl, rfl, rfl, rfl⟩
  detect := rfl
  source := by cases beside <;> decide +kernel
  mtime := by cases beside <;> decide +kernel
  fits := by cases beside <;> decide +kernel
  receiver := ⟨0, none, Nat.zero_le _, ⟨rfl, rfl⟩, rfl, rfl, rfl, rfl, rfl⟩
  resumes := by cases way <;> rfl
  part := by cases beside <;> decide +kernel
  pos := by cases beside <;> decide +kernel
  mark := by
    refine ⟨TransferJob.digestJson ⟨3, 0⟩, ?_, (readFileDigest_digestJson ⟨3, 0⟩).trans ?_⟩
    · cases beside <;> decide +kernel
    · cases beside <;> decide +kernel

theorem resume_exact_iff_halfSent : (∃ t', (halfSent false).resume .upload none = some t' ∧
      Resumed .storing "s".toList "r".toList (halfSent false).sendJob.files 0 0 1
        (halfSent false) t') ↔
    (halfSent false).recvJob.fileNum = Int32.ofNat 0 ∧
      ¬((halfSent false).sendDisk.has (downloadKey "s".toList
          (entryAt (halfSent false).sendJob.files 0)) = true ∧
        (halfSent false).sendDisk.has (digestKey "s".toList
          (entryAt (halfSent false).sendJob.files 0)) = true) :=
  resume_exact_iff Zstd.storing_lawful (halfSent_interrupted .upload false) none

/-- With a part of an older file beside its source the sender has that part open, to be written. It
cannot read from it and leaves the file, and the receiver gives its part the name of the file. -/
theorem part_beside_lost : (halfSent true).Interrupted .download "s".toList "r".toList
      (halfSent true).sendJob.files 1 0 0 1 ∧
    ∃ t', (halfSent true).resume .download none = some t' ∧
      t'.sendJob.dataStream = some (.fileStream ⟨1, 1, true⟩) ∧
      t'.sendDisk.content (pathKey "s/a".toList) = some [1, 2, 3] ∧
      (t'.sendFile .storing 0 (List.replicate 4 ⟨fun _ => .ok 1⟩)).finish.recvDisk.content
        (pathKey "r/a".toList) = some [1] := by
  have hrun : ((halfSent true).resume .download none).map (fun t' => (t'.sendJob.dataStream,
      t'.sendDisk.content (pathKey "s/a".toList),
      (t'.sendFile .storing 0 (List.replicate 4 ⟨fun _ => .ok 1⟩)).finish.recvDisk.content
        (pathKey "r/a".toList))) =
      some (some (.fileStream ⟨1, 1, true⟩), some [1, 2, 3], some [1]) := by
    decide +kernel
  obtain ⟨t', hresume, hresult⟩ := Option.map_eq_some_iff.mp hrun
  refine ⟨halfSent_interrupted .download true, t', hresume, congrArg Prod.fst hresult, ?_, ?_⟩
  · exact congrArg (fun r => r.2.1) hresult
  · exact congrArg (fun r => r.2.2) hresult

end Transfer

end LibRustdesk.FileTransfer
