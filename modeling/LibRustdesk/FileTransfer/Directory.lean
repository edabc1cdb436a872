import LibRustdesk.FileTransfer.Read
import LibRustdesk.FileTransfer.Receive
import LibRustdesk.Framework.Staging

/-!
# Sending a directory

A sending job and a receiving job with the same list of files. The sender opens a file, reads it in
blocks and ends it with an empty one; the receiver finds out from the number in a block that a new
file has begun, gives the one before its name, and opens the next.

* `staging` — the names of the receiver's files as a `Staging`: the final path, the `.download`
  file, and the `.digest` file as its mark.
* `Transfer.sendAll` — `open_data_stream` and `read` in turns, each block written by the receiver,
  until the sender reports completion.
* `Delivered` — what is to hold in the end.

`sendAll_delivers_iff` says that the sender reports completion, and **exactly when the files have
been delivered then**: for every list but those in which a file has a name that is used for another
one beside it. The names of a list are not checked for that, and `digest_name_lost` is such a list.

Reads may be cut in any way; no call fails. A list comes in one message, so it has fewer than `2^31`
files.
-/

namespace LibRustdesk.FileTransfer

open LittleEndian

/-- A job that sends, a job that receives, and their disks. -/
structure Transfer where
  sendDisk : Disk
  sendJob : TransferJob
  recvDisk : Disk
  recvJob : TransferJob

/-- `open_data_stream`, and `read` if the job is not done. -/
def TransferJob.readNext (z : Zstd) (env : ReadEnv) (job : TransferJob) (disk : Disk) :
    TransferJob × Except String (Option FileTransferBlock) :=
  match job.openDataStream (.ok ()) disk with
  | (job, .error e) => (job, .error e)
  | (job, .ok true) => (job, .ok none)
  | (job, .ok false) => job.read z env disk

namespace Transfer

/-- Each block that the sender returns is written by the receiver, until there is none. -/
def sendAll (z : Zstd) : List ReadEnv → Transfer → Option Transfer
  | [], _ => none
  | env :: envs, t =>
    match t.sendJob.readNext z env t.sendDisk with
    | (_, .error _) => none
    | (sendJob, .ok none) => some { t with sendJob := sendJob }
    | (sendJob, .ok (some block)) =>
      let (recvDisk, recvJob, _) := t.recvJob.write z .good block t.recvDisk
      sendAll z envs ⟨t.sendDisk, sendJob, recvDisk, recvJob⟩

def finish (t : Transfer) : Transfer := { t with recvDisk := t.recvJob.modifyTime .good t.recvDisk }

end Transfer

/-! ### Names and contents -/

def entryAt (files : List FileEntry) (i : ℕ) : FileEntry := files[i]?.getD ⟨[], 0, 0⟩

/-- The names of the files that are received into `p`. -/
def staging (p : Path) (files : List FileEntry) : Staging PathKey where
  count := files.length
  final i := finalKey p (entryAt files i)
  part i := downloadKey p (entryAt files i)
  mark i := digestKey p (entryAt files i)
  part_ne_mark _ _ := downloadKey_ne_digestKey p _ _
  final_ne_mark _ := pathKey_append_suffix_ne _ (by decide) (by decide)

def sourceAt (disk : Disk) (p : Path) (files : List FileEntry) (i : ℕ) : Bytes :=
  (disk.content (finalKey p (entryAt files i))).getD []

/-- The length of all files together, as `finished_size` counts. -/
def totalTo (src : ℕ → Bytes) (k : ℕ) : UInt64 :=
  ((List.range k).map fun i => UInt64.ofNat (src i).length).sum

/-- Every file is at its destination and under no other name, and both jobs have counted it. -/
structure Transfer.Delivered (sendPath recvPath : Path) (files : List FileEntry) (t : Transfer) :
    Prop where
  content : ∀ entry ∈ files, t.recvDisk.content (finalKey recvPath entry) =
    t.sendDisk.content (finalKey sendPath entry)
  present : ∀ entry ∈ files, t.recvDisk.content (finalKey recvPath entry) ≠ none
  gone : ∀ entry ∈ files, t.recvDisk.dir (downloadKey recvPath entry) = none
  sent : t.sendJob.finishedSize = totalTo (sourceAt t.sendDisk sendPath files) files.length
  received : t.recvJob.finishedSize = totalTo (sourceAt t.sendDisk sendPath files) files.length

/-- No final path is the `.download` path of an entry, and one that is the `.digest` path of an
entry is the final path of a later one. -/
def NamesFree (p : Path) (files : List FileEntry) : Prop :=
  (staging p files).Apart ∧ (staging p files).Rewritten

theorem asUsize_ofNat {k : ℕ} (hk : k < 2 ^ 31) : asUsize (Int32.ofNat k) = k := by
  unfold asUsize
  rw [Int32.toInt_ofNat_of_lt hk]
  omega

theorem getElem?_entryAt {files : List FileEntry} {i : ℕ} (hi : i < files.length) :
    files[i]? = some (entryAt files i) := by
  unfold entryAt
  rw [List.getElem?_eq_getElem hi]
  rfl

theorem entryAt_mem {files : List FileEntry} {i : ℕ} (hi : i < files.length) :
    entryAt files i ∈ files := List.mem_of_getElem? (getElem?_entryAt hi)

/-- A job at the file `k`, with a stream and the bytes it has counted. -/
structure TransferJob.At (job : TransferJob) (p : Path) (files : List FileEntry) (id : Int32)
    (k : ℕ) (stream : Option DataStream) (finished : UInt64) : Prop where
  generic : job.Generic p
  files : job.files = files
  id : job.id = id
  fileNum : job.fileNum = Int32.ofNat k
  stream : job.dataStream = stream
  finished : job.finishedSize = finished

section Jobs

variable {p : Path} {files : List FileEntry} {id : Int32} {k : ℕ} {stream : Option DataStream}
  {finished : UInt64} {job : TransferJob} {disk : Disk}

theorem TransferJob.At.index (h : job.At p files id k stream finished)
    (hlen : files.length < 2 ^ 31) (hk : k ≤ files.length) : asUsize job.fileNum = k := by
  rw [h.fileNum, asUsize_ofNat (by omega)]

theorem TransferJob.At.currentEntry (h : job.At p files id k stream finished)
    (hlen : files.length < 2 ^ 31) (hk : k < files.length) :
    job.currentEntry = some (entryAt files k) := by
  unfold TransferJob.currentEntry
  rw [h.index hlen (Nat.le_of_lt hk), h.files, getElem?_entryAt hk]

theorem TransferJob.At.currentEntry_none (h : job.At p files id files.length stream finished)
    (hlen : files.length < 2 ^ 31) : job.currentEntry = none := by
  unfold TransferJob.currentEntry
  rw [h.index hlen (Nat.le_refl _), h.files, List.getElem?_eq_none_iff]

/-! ### The sender -/

/-- The sender is at the file `k`, of which it has read `pos` bytes. -/
structure Sends (disk : Disk) (p : Path) (files : List FileEntry) (id : Int32) (k pos : ℕ)
    (finished : UInt64) (job : TransferJob) : Prop where
  atFile : ∃ stream, job.At p files id k stream finished
  detect : job.enableOverwriteDetection = false
  stream : (job.dataStream = none ∧ pos = 0) ∨ ∃ inode,
    disk.dir (finalKey p (entryAt files k)) = some inode ∧
      job.dataStream = some (.fileStream ⟨inode, pos, false⟩)

theorem sourceAt_eq {inode : ℕ} (h : disk.dir (finalKey p (entryAt files k)) = some inode) :
    sourceAt disk p files k = (disk.node inode).data := by
  unfold sourceAt FileSystem.content
  rw [h]
  rfl

variable {pos : ℕ}

theorem Sends.openDataStream (h : Sends disk p files id k pos finished job)
    (hlen : files.length < 2 ^ 31) (hk : k < files.length)
    (hsource : ∃ inode, disk.dir (finalKey p (entryAt files k)) = some inode) :
    ∃ job' inode, job.openDataStream (.ok ()) disk = (job', .ok false) ∧
      disk.dir (finalKey p (entryAt files k)) = some inode ∧
      job'.Reading p (entryAt files k) inode pos ∧
      job'.At p files id k (some (.fileStream ⟨inode, pos, false⟩)) finished ∧
      job'.enableOverwriteDetection = false := by
  obtain ⟨stream, hat⟩ := h.atFile
  have hentry := hat.currentEntry hlen hk
  unfold TransferJob.openDataStream
  rw [hat.generic.source]
  rw [hentry]
  dsimp only
  rcases h.stream with ⟨hnone, rfl⟩ | ⟨inode, hinode, hopen⟩
  · -- the file is opened
    obtain ⟨inode, hinode⟩ := hsource
    have hopened : disk.openRead (pathKey (join p (entryAt files k).name)) =
        some ⟨inode, 0, false⟩ := by
      unfold FileSystem.openRead
      rw [show disk.dir (pathKey (join p (entryAt files k).name)) = some inode from hinode]
      rfl
    rw [if_pos hnone, hopened]
    refine ⟨_, inode, rfl, hinode, ⟨rfl, hentry, rfl, ?_⟩, ?_, h.detect⟩
    · intro hdetect
      exact absurd (h.detect.symm.trans hdetect) Bool.false_ne_true
    · exact ⟨⟨hat.generic.type, rfl⟩, hat.files, hat.id, hat.fileNum, rfl, hat.finished⟩
  · -- it is open already
    rw [if_neg (by rw [hopen]; simp)]
    refine ⟨job, inode, rfl, hinode, ⟨hat.generic.source, hentry, hopen, ?_⟩, ?_, h.detect⟩
    · intro hdetect
      exact absurd (h.detect.symm.trans hdetect) Bool.false_ne_true
    · exact ⟨hat.generic, hat.files, hat.id, hat.fileNum, hopen, hat.finished⟩

theorem Sends.readNext_more {z : Zstd} (hz : z.Lawful) {env : ReadEnv} (henv : env.Good)
    (h : Sends disk p files id k pos finished job) (hlen : files.length < 2 ^ 31)
    (hk : k < files.length)
    (hsource : ∃ inode, disk.dir (finalKey p (entryAt files k)) = some inode)
    (hmore : (sourceAt disk p files k).drop pos ≠ []) : ∃ job' block,
      job.readNext z env disk = (job', .ok (some block)) ∧ block.id = id ∧
      block.fileNum = Int32.ofNat k ∧
      block.content z = ((sourceAt disk p files k).drop pos).take bufSize ∧
      Sends disk p files id k (pos + (block.content z).length)
        (finished + UInt64.ofNat (block.content z).length) job' := by
  obtain ⟨job₁, inode, hopen, hinode, hreading, hat, hdetect⟩ := h.openDataStream hlen hk hsource
  rw [sourceAt_eq hinode] at hmore ⊢
  obtain ⟨block, transferred, hread, hid, hnum, hcontent⟩ := hreading.read_more hz henv hmore
  have hnext : job.readNext z env disk = job₁.read z env disk := by
    unfold TransferJob.readNext
    rw [hopen]
  rw [hnext, hread]
  refine ⟨_, block, rfl, hid.trans hat.id, hnum.trans hat.fileNum, hcontent, ?_⟩
  refine ⟨⟨_, ⟨hat.generic.type, hat.generic.source⟩, hat.files, hat.id, hat.fileNum, rfl, ?_⟩,
    hdetect, .inr ⟨inode, hinode, by rw [hcontent]⟩⟩
  rw [hcontent, ← hat.finished]

theorem Sends.readNext_end {z : Zstd} {env : ReadEnv} (henv : env.Good)
    (h : Sends disk p files id k pos finished job) (hlen : files.length < 2 ^ 31)
    (hk : k < files.length)
    (hsource : ∃ inode, disk.dir (finalKey p (entryAt files k)) = some inode)
    (hend : (sourceAt disk p files k).drop pos = []) : ∃ job',
      job.readNext z env disk = (job', .ok (some ⟨id, Int32.ofNat k, [], false⟩)) ∧
      Sends disk p files id (k + 1) 0 finished job' := by
  obtain ⟨job₁, inode, hopen, hinode, hreading, hat, hdetect⟩ := h.openDataStream hlen hk hsource
  rw [sourceAt_eq hinode] at hend
  have hread := @TransferJob.Reading.read_end z env _ disk _ _ _ _ hreading henv hend
  refine ⟨job₁.leaveFile, ?_, ?_⟩
  · unfold TransferJob.readNext
    rw [hopen]
    rw [hat.id, hat.fileNum] at hread
    exact hread
  · refine ⟨⟨none, ⟨hat.generic.type, hat.generic.source⟩, hat.files, hat.id, ?_, rfl,
      hat.finished⟩, hdetect, .inl ⟨rfl, rfl⟩⟩
    change job₁.fileNum + 1 = _
    rw [hat.fileNum, Int32.ofNat_add]
    rfl

theorem Sends.readNext_done (z : Zstd) (env : ReadEnv)
    (h : Sends disk p files id files.length pos finished job) (hlen : files.length < 2 ^ 31) :
    ∃ job', job.readNext z env disk = (job', .ok none) ∧ job'.finishedSize = finished := by
  obtain ⟨stream, hat⟩ := h.atFile
  refine ⟨{ job with dataStream := none }, ?_, hat.finished⟩
  unfold TransferJob.readNext TransferJob.openDataStream
  rw [hat.generic.source]
  rw [hat.currentEntry_none hlen]

/-! ### The receiver -/

theorem TransferJob.At.modifyTime (h : job.At p files id k stream finished)
    (hlen : files.length < 2 ^ 31) (hk : k < files.length)
    (hvalid : validateFileNameNoTraversal (entryAt files k).name = .ok ()) :
    job.modifyTime .good disk =
      (staging p files).leave k (entryAt files k).modifiedTime.toInt64 disk := by
  have hpath : job.resolveEntryPath (.ok ()) p (entryAt files k).name =
      some (join p (entryAt files k).name) := by
    unfold TransferJob.resolveEntryPath
    rw [if_pos h.generic.type, joinValidatedPath_of_valid p hvalid]
    rfl
  unfold TransferJob.modifyTime
  rw [if_neg (by rw [h.generic.type]; simp), h.generic.source, h.currentEntry hlen hk]
  dsimp only [FinishEnv.good]
  rw [hpath]
  rfl

theorem createFile_good (job : TransferJob) (p : Path) (files : List FileEntry) (k : ℕ)
    (disk : Disk) :
    let path := join p (entryAt files k).name
    let started := (staging p files).begin k (TransferJob.digestJson job.digest) disk
    job.createFile .good (downloadPath path) (some (digestPath path)) disk =
      (started.1, { job with dataStream := some (.fileStream started.2) }, .ok ()) := by
  unfold TransferJob.createFile Staging.begin
  dsimp only
  by_cases hhas : disk.has (digestKey p (entryAt files k)) = true
  · have hmark : disk.has ((staging p files).mark k) = true := hhas
    rw [if_pos hmark, if_pos (show disk.has (pathKey (digestPath _)) = true from hhas)]
    rfl
  · have hmark : ¬ disk.has ((staging p files).mark k) = true := hhas
    rw [if_neg hmark, if_neg (show ¬ disk.has (pathKey (digestPath _)) = true from hhas)]
    rfl

theorem switchFile_good (htype : job.type = .generic) {m : ℕ}
    (hvalid : validateFileNameNoTraversal (entryAt files m).name = .ok ()) (n : Int32) :
    let started := (staging p files).begin m (TransferJob.digestJson job.digest)
      (job.modifyTime .good disk)
    job.switchFile .good p n (entryAt files m) disk =
      (started.1, { job with fileNum := n, dataStream := some (.fileStream started.2) },
        .ok ()) := by
  have hpath : ({ job with fileNum := n } : TransferJob).blockPaths .good p (entryAt files m) =
      .ok (downloadPath (join p (entryAt files m).name),
        some (digestPath (join p (entryAt files m).name))) := by
    have hpaths := @TransferJob.blockPaths_eq .good { job with fileNum := n } htype p
      (entryAt files m)
    rw [hpaths]
    change (joinValidatedPath (.ok ()) p _).map _ = _
    rw [joinValidatedPath_of_valid p hvalid]
    rfl
  unfold TransferJob.switchFile
  dsimp only
  split
  · next e he => split at he <;> cases he
  · rw [hpath]
    exact createFile_good { job with fileNum := n } p files m _

theorem TransferJob.At.writeBlock (z : Zstd) (disk : Disk) {h : FileHandle}
    (hat : job.At p files id k (some (.fileStream h)) finished) (hwritable : h.writable = true)
    (block : FileTransferBlock) : ∃ job',
      job.writeBlock z .good block disk = ((disk.writeAt h (block.content z)).1, job', .ok ()) ∧
        job'.At p files id k (some (.fileStream (disk.writeAt h (block.content z)).2))
          (finished + UInt64.ofNat (block.content z).length) := by
  have hall : TransferJob.writeAll .good (.fileStream h) (block.content z) disk =
      ((disk.writeAt h (block.content z)).1,
        .fileStream (disk.writeAt h (block.content z)).2, .ok ()) := by
    have htake : (block.content z).take
        (WriteEnv.good.written.getD (block.content z).length) = block.content z := by
      change (block.content z).take (block.content z).length = _
      exact List.take_length
    unfold TransferJob.writeAll
    dsimp only
    rw [if_pos hwritable, htake]
    rfl
  unfold TransferJob.writeBlock
  rw [hat.stream]
  dsimp only
  rw [hall]
  exact ⟨_, rfl, ⟨hat.generic.type, hat.generic.source⟩, hat.files, hat.id, hat.fileNum, rfl,
    by rw [hat.finished]⟩

theorem TransferJob.At.write_next (z : Zstd) (h : job.At p files id k stream finished)
    (hlen : files.length < 2 ^ 31) (hk : k ≤ files.length) {m : ℕ} (hm : m < files.length)
    (hvalid : validateFileNameNoTraversal (entryAt files m).name = .ok ())
    (hswitch : m ≠ k ∨ stream = none) {block : FileTransferBlock} (hid : block.id = id)
    (hnum : block.fileNum = Int32.ofNat m)
    (started : Disk × FileHandle) (hstarted : started = (staging p files).begin m
      (TransferJob.digestJson job.digest) (job.modifyTime .good disk))
    (hwritable : started.2.writable = true) : ∃ job',
      job.write z .good block disk =
        ((started.1.writeAt started.2 (block.content z)).1, job', .ok ()) ∧
      job'.At p files id m
        (some (.fileStream (started.1.writeAt started.2 (block.content z)).2))
        (finished + UInt64.ofNat (block.content z).length) := by
  have hfile : job.files[asUsize block.fileNum]? = some (entryAt files m) := by
    rw [h.files, hnum, asUsize_ofNat (by omega), getElem?_entryAt hm]
  have hmoves : asUsize block.fileNum ≠ asUsize job.fileNum ∨ job.dataStream = none := by
    rw [hnum, asUsize_ofNat (by omega), h.index hlen hk, h.stream]
    exact hswitch
  have hopen : job.openBlock .good block disk = (started.1,
      { job with fileNum := block.fileNum, dataStream := some (.fileStream started.2) },
        .ok ()) := by
    unfold TransferJob.openBlock
    rw [if_neg (by rw [hid, h.id]; simp)]
    split
    · next p' hsource =>
      obtain rfl : p' = p := DataSource.filePath.inj (hsource.symm.trans h.generic.source)
      rw [hfile, hstarted]
      dsimp only
      rw [if_pos hmoves]
      exact switchFile_good h.generic.type hvalid _
    · next hsource => exact absurd (hsource.symm.trans h.generic.source) (by simp)
  have hat : ({ job with
      fileNum := block.fileNum
      dataStream := some (.fileStream started.2) } : TransferJob).At p files id m
        (some (.fileStream started.2)) finished :=
    ⟨⟨h.generic.type, h.generic.source⟩, h.files, h.id, hnum, rfl, h.finished⟩
  obtain ⟨job', hwrite, hat'⟩ := hat.writeBlock z started.1 hwritable block
  refine ⟨job', ?_, hat'⟩
  unfold TransferJob.write
  rw [hopen]
  exact hwrite

theorem TransferJob.At.write_same (z : Zstd) {h : FileHandle}
    (hat : job.At p files id k (some (.fileStream h)) finished)
    (hlen : files.length < 2 ^ 31) (hk : k < files.length) (hwritable : h.writable = true)
    {block : FileTransferBlock} (hid : block.id = id) (hnum : block.fileNum = Int32.ofNat k) :
    ∃ job', job.write z .good block disk = ((disk.writeAt h (block.content z)).1, job', .ok ()) ∧
      job'.At p files id k (some (.fileStream (disk.writeAt h (block.content z)).2))
        (finished + UInt64.ofNat (block.content z).length) := by
  have hfile : job.files[asUsize block.fileNum]? = some (entryAt files k) := by
    rw [hat.files, hnum, asUsize_ofNat (by omega), getElem?_entryAt hk]
  have hstays : ¬ (asUsize block.fileNum ≠ asUsize job.fileNum ∨ job.dataStream = none) := by
    rw [hnum, asUsize_ofNat (by omega), hat.index hlen (Nat.le_of_lt hk), hat.stream]
    simp
  have hopen : job.openBlock .good block disk = (disk, job, .ok ()) := by
    unfold TransferJob.openBlock
    rw [if_neg (by rw [hid, hat.id]; simp)]
    split
    · next p' hsource =>
      rw [hfile]
      dsimp only
      rw [if_neg hstays]
    · next hsource => exact absurd (hsource.symm.trans hat.generic.source) (by simp)
  obtain ⟨job', hwrite, hat'⟩ := hat.writeBlock z disk hwritable block
  refine ⟨job', ?_, hat'⟩
  unfold TransferJob.write
  rw [hopen]
  exact hwrite

/-- Before the file `k`, or with the first `pos` bytes of it, at the receiver. -/
inductive Receives (src : ℕ → Bytes) (p : Path) (files : List FileEntry) (id : Int32) :
    ℕ → ℕ → UInt64 → Disk → TransferJob → Prop
  /-- No block has come yet. -/
  | fresh {finished : UInt64} {disk : Disk} {job : TransferJob} :
    job.At p files id 0 none finished → disk.LinkFree (staging p files).IsName →
    Receives src p files id 0 0 finished disk job
  /-- All blocks of the file before have come, and no other. -/
  | between {m : ℕ} {h : FileHandle} {finished : UInt64} {disk : Disk} {job : TransferJob} :
    m < files.length → job.At p files id m (some (.fileStream h)) finished →
    (staging p files).Open src m (src m) h disk →
    Receives src p files id (m + 1) 0 finished disk job
  | within {k pos : ℕ} {h : FileHandle} {finished : UInt64} {disk : Disk} {job : TransferJob} :
    k < files.length → job.At p files id k (some (.fileStream h)) finished →
    (staging p files).Open src k ((src k).take pos) h disk →
    Receives src p files id k pos finished disk job

/-- What the names of a list are checked for, and what is so of the files. -/
structure Sound (src : ℕ → Bytes) (p : Path) (files : List FileEntry) : Prop where
  length : files.length < 2 ^ 31
  valid : ∀ entry ∈ files, validateFileNameNoTraversal entry.name = .ok ()
  same : ∀ i < files.length, ∀ j < files.length,
    finalKey p (entryAt files i) = finalKey p (entryAt files j) → src i = src j

variable {src : ℕ → Bytes}

theorem Sound.begin (hs : Sound src p files) (z : Zstd)
    (hat : job.At p files id k stream finished) (hk : k ≤ files.length) {m : ℕ}
    (hm : m < files.length) (hswitch : m ≠ k ∨ stream = none) (hapart : (staging p files).Apart)
    (hsettled : (staging p files).Settled src m (job.modifyTime .good disk))
    {block : FileTransferBlock} (hid : block.id = id) (hnum : block.fileNum = Int32.ofNat m) :
    ∃ h job' disk', job.write z .good block disk = (disk', job', .ok ()) ∧
      job'.At p files id m (some (.fileStream h))
        (finished + UInt64.ofNat (block.content z).length) ∧
      (staging p files).Open src m (block.content z) h disk' := by
  have hopen := hsettled.begin hm hapart (TransferJob.digestJson job.digest)
  obtain ⟨job', hwrite, hat'⟩ := hat.write_next z hs.length hk hm
    (hs.valid _ (entryAt_mem hm)) hswitch hid hnum _ rfl hopen.writable
  refine ⟨_, job', _, hwrite, hat', ?_⟩
  have hwritten := hopen.write hm hapart (block.content z)
  rwa [List.nil_append] at hwritten

theorem Receives.block (hs : Sound src p files) (z : Zstd)
    (h : Receives src p files id k pos finished disk job) (hk : k < files.length)
    (hapart : (staging p files).Apart) {block : FileTransferBlock} (hid : block.id = id)
    (hnum : block.fileNum = Int32.ofNat k) :
    ∃ h job' disk', job.write z .good block disk = (disk', job', .ok ()) ∧
      job'.At p files id k (some (.fileStream h))
        (finished + UInt64.ofNat (block.content z).length) ∧
      (staging p files).Open src k ((src k).take pos ++ block.content z) h disk' := by
  cases h with
  | fresh hat hlinks =>
    rw [List.take_zero, List.nil_append]
    -- the first `modify_time` may rename a left-over `.download` file
    have hsettled : (staging p files).Settled src 0 (job.modifyTime .good disk) := by
      rw [hat.modifyTime hs.length hk (hs.valid _ (entryAt_mem hk))]
      have hspares : FileSystem.Spares (staging p files).IsName (fun _ => False) disk
          ((staging p files).leave 0 (entryAt files 0).modifiedTime.toInt64 disk) :=
        Staging.leave_spares disk hk not_false not_false not_false _
      exact Staging.settled_zero (hspares.linkFree hlinks)
    exact hs.begin z hat (Nat.zero_le _) hk (.inr rfl) hapart hsettled hid hnum
  | @between m _ _ _ _ hm hat hopen =>
    rw [List.take_zero, List.nil_append]
    have hsettled := hopen.leave hm hapart hs.same (entryAt files m).modifiedTime.toInt64
    rw [← hat.modifyTime hs.length hm (hs.valid _ (entryAt_mem hm))] at hsettled
    exact hs.begin z hat (Nat.le_of_lt hm) hk (.inl (Nat.succ_ne_self _)) hapart hsettled hid hnum
  | within _ hat hopen =>
    obtain ⟨job', hwrite, hat'⟩ := hat.write_same z hs.length hk hopen.writable hid hnum
    exact ⟨_, job', _, hwrite, hat', hopen.write hk hapart _⟩

theorem Receives.finish (hs : Sound src p files)
    (h : Receives src p files id files.length 0 finished disk job)
    (hapart : (staging p files).Apart) :
    (staging p files).Settled src files.length (job.modifyTime .good disk) ∧
      job.finishedSize = finished := by
  generalize hn : files.length = n at h
  cases h with
  | fresh hat hlinks =>
    -- an empty list
    have hnone : job.currentEntry = none := by
      rw [← hn] at hat
      exact hat.currentEntry_none hs.length
    have hsame : job.modifyTime .good disk = disk := by
      unfold TransferJob.modifyTime
      rw [hnone]
      split
      · rfl
      · split
        · next hsome => cases hsome
        · rfl
    rw [hsame]
    exact ⟨Staging.settled_zero hlinks, hat.finished⟩
  | between hm hat hopen =>
    rw [hat.modifyTime hs.length hm (hs.valid _ (entryAt_mem hm))]
    exact ⟨hopen.leave hm hapart hs.same _, hat.finished⟩
  | within hk => exact absurd hk (by omega)

end Jobs

/-! ### Both jobs -/

theorem totalTo_succ (src : ℕ → Bytes) (k : ℕ) :
    totalTo src (k + 1) = totalTo src k + UInt64.ofNat (src k).length := by
  unfold totalTo
  rw [List.range_succ, List.map_append, List.sum_append]
  simp

/-- One block for each byte and one for each end of a file are enough. -/
def blocksTo (src : ℕ → Bytes) (k : ℕ) : ℕ :=
  ((List.range k).map fun i => (src i).length + 1).sum

theorem blocksTo_succ (src : ℕ → Bytes) (k : ℕ) :
    blocksTo src (k + 1) = blocksTo src k + ((src k).length + 1) := by
  unfold blocksTo
  rw [List.range_succ, List.map_append, List.sum_append]
  simp

theorem blocksTo_le (src : ℕ → Bytes) {k n : ℕ} (h : k ≤ n) : blocksTo src k ≤ blocksTo src n := by
  induction h with
  | refl => exact Nat.le_refl _
  | step _ ih =>
    rw [blocksTo_succ]
    exact Nat.le_trans ih (Nat.le_add_right _ _)

namespace Transfer

variable {sendPath recvPath : Path} {files : List FileEntry} {id : Int32} {z : Zstd}
  {t : Transfer}

/-- The jobs as they are made for a list, before anything is sent. -/
structure Starts (sendPath recvPath : Path) (files : List FileEntry) (id : Int32) (t : Transfer) :
    Prop where
  length : files.length < 2 ^ 31
  valid : ∀ entry ∈ files, validateFileNameNoTraversal entry.name = .ok ()
  sender : t.sendJob.At sendPath files id 0 none 0
  detect : t.sendJob.enableOverwriteDetection = false
  receiver : t.recvJob.At recvPath files id 0 none 0
  sources : ∀ entry ∈ files, ∃ inode, t.sendDisk.dir (finalKey sendPath entry) = some inode
  linkFree : t.recvDisk.LinkFree (staging recvPath files).IsName

/-- Of the file `k` the first `pos` bytes have been sent. The receiver keeps up with that where its
names are apart. -/
structure Progress (src : ℕ → Bytes) (sendPath recvPath : Path) (files : List FileEntry)
    (id : Int32) (k pos : ℕ) (t : Transfer) : Prop where
  position : k < files.length ∧ pos ≤ (src k).length ∨ k = files.length ∧ pos = 0
  sends : Sends t.sendDisk sendPath files id k pos (totalTo src k + UInt64.ofNat pos) t.sendJob
  receives : (staging recvPath files).Apart →
    Receives src recvPath files id k pos (totalTo src k + UInt64.ofNat pos) t.recvDisk t.recvJob

theorem start_position (src : ℕ → Bytes) {k : ℕ} (hk : k ≤ files.length) :
    k < files.length ∧ 0 ≤ (src k).length ∨ k = files.length ∧ 0 = 0 :=
  (Nat.lt_or_eq_of_le hk).imp (fun hlt => ⟨hlt, Nat.zero_le _⟩) fun heq => ⟨heq, rfl⟩

theorem Starts.progress (h : t.Starts sendPath recvPath files id) (src : ℕ → Bytes) :
    Progress src sendPath recvPath files id 0 0 t :=
  ⟨start_position src (Nat.zero_le _),
    ⟨⟨none, h.sender⟩, h.detect, .inl ⟨h.sender.stream, rfl⟩⟩,
    fun _ => .fresh h.receiver h.linkFree⟩

theorem Starts.sound (h : t.Starts sendPath recvPath files id) :
    Sound (sourceAt t.sendDisk sendPath files) recvPath files := by
  have hrelative {i : ℕ} (hi : i < files.length) : (entryAt files i).name.head? ≠ some '/' := by
    have hvalid := h.valid _ (entryAt_mem hi)
    unfold validateFileNameNoTraversal at hvalid
    split_ifs at hvalid with hnull hup habs
    exact habs
  refine ⟨h.length, h.valid, fun i hi j hj hfinal => ?_⟩
  unfold finalKey at hfinal
  rw [pathKey_join _ (hrelative hi), pathKey_join _ (hrelative hj),
    List.append_cancel_left_eq] at hfinal
  unfold sourceAt finalKey
  rw [pathKey_join _ (hrelative hi), pathKey_join _ (hrelative hj), hfinal]

theorem Progress.step (hz : z.Lawful) {src : ℕ → Bytes} (hs : Sound src recvPath files)
    (hsource : ∀ entry ∈ files, ∃ inode, t.sendDisk.dir (finalKey sendPath entry) = some inode)
    (hsrc : src = sourceAt t.sendDisk sendPath files) {k pos : ℕ}
    (h : Progress src sendPath recvPath files id k pos t) (hk : k < files.length)
    (hpos : pos ≤ (src k).length) {env : ReadEnv} (henv : env.Good) : ∃ k' pos' t',
      (∀ envs, sendAll z (env :: envs) t = sendAll z envs t') ∧ t'.sendDisk = t.sendDisk ∧
      Progress src sendPath recvPath files id k' pos' t' ∧
      blocksTo src k + pos < blocksTo src k' + pos' := by
  have hopened := hsource _ (entryAt_mem hk)
  by_cases hend : (src k).drop pos = []
  · -- the file is at its end
    have hpos : pos = (src k).length := Nat.le_antisymm hpos (List.drop_eq_nil_iff.mp hend)
    have hend' : (sourceAt t.sendDisk sendPath files k).drop pos = [] := by
      rw [← hsrc]
      exact hend
    obtain ⟨job', hread, hsends⟩ := h.sends.readNext_end (z := z) henv hs.length hk hopened hend'
    have htotal : totalTo src k + UInt64.ofNat pos = totalTo src (k + 1) + UInt64.ofNat 0 := by
      rw [totalTo_succ, hpos]
      exact (UInt64.add_zero _).symm
    rw [htotal] at hsends
    have hempty (done : FileTransferBlock) (hdone : done = ⟨id, Int32.ofNat k, [], false⟩) :
        done.content z = [] := by
      rw [hdone]
      rfl
    generalize hdone : (⟨id, Int32.ofNat k, [], false⟩ : FileTransferBlock) = done at hread
    refine ⟨k + 1, 0, ⟨t.sendDisk, job', (t.recvJob.write z .good done t.recvDisk).1,
      (t.recvJob.write z .good done t.recvDisk).2.1⟩, ?_, rfl,
      ⟨start_position src hk, hsends, ?_⟩, ?_⟩
    · intro envs
      rw [sendAll, hread]
    · intro hapart
      obtain ⟨h', job'', disk'', hwrite, hat, hopen⟩ :=
        (h.receives hapart).block hs z hk hapart (congrArg FileTransferBlock.id hdone.symm)
          (congrArg FileTransferBlock.fileNum hdone.symm)
      rw [hwrite]
      rw [hempty done hdone.symm, hpos, List.take_length, List.append_nil] at hopen
      rw [htotal, hempty done hdone.symm] at hat
      have hcount : totalTo src (k + 1) + UInt64.ofNat 0 + UInt64.ofNat ([] : Bytes).length =
          totalTo src (k + 1) + UInt64.ofNat 0 := UInt64.add_zero _
      rw [hcount] at hat
      exact .between hk hat hopen
    · rw [blocksTo_succ, hpos]
      omega
  · -- the next block of it
    have hmore : (sourceAt t.sendDisk sendPath files k).drop pos ≠ [] := by
      rw [← hsrc]
      exact hend
    obtain ⟨job', block, hread, hid, hnum, hcontent, hsends⟩ :=
      h.sends.readNext_more hz henv hs.length hk hopened hmore
    rw [← hsrc] at hcontent
    have hlength : (block.content z).length = min bufSize ((src k).length - pos) := by
      rw [hcontent, List.length_take, List.length_drop]
    have hleft : 0 < (src k).length - pos := by
      rw [← List.length_drop]
      exact List.length_pos_iff.mpr hend
    have hbuf : 0 < bufSize := by decide
    have htotal : totalTo src k + UInt64.ofNat pos + UInt64.ofNat (block.content z).length =
        totalTo src k + UInt64.ofNat (pos + (block.content z).length) := by
      rw [UInt64.add_assoc, ← UInt64.ofNat_add]
    rw [htotal] at hsends
    refine ⟨k, pos + (block.content z).length, ⟨t.sendDisk, job',
      (t.recvJob.write z .good block t.recvDisk).1,
      (t.recvJob.write z .good block t.recvDisk).2.1⟩, ?_, rfl,
      ⟨.inl ⟨hk, ?_⟩, hsends, ?_⟩, ?_⟩
    · intro envs
      rw [sendAll, hread]
    · rw [hlength]
      omega
    · intro hapart
      obtain ⟨h', job'', disk'', hwrite, hat, hopen⟩ :=
        (h.receives hapart).block hs z hk hapart hid hnum
      have hgot : (src k).take pos ++ block.content z =
          (src k).take (pos + (block.content z).length) := by
        rw [List.take_add, hlength, hcontent, ← List.length_drop]
        exact congrArg _ List.take_eq_take_min
      rw [htotal] at hat
      rw [hgot] at hopen
      rw [hwrite]
      exact .within hk hat hopen
    · rw [hlength]
      omega

theorem Progress.sendAll (hz : z.Lawful) {src : ℕ → Bytes} (hs : Sound src recvPath files)
    (hsource : ∀ entry ∈ files, ∃ inode, t.sendDisk.dir (finalKey sendPath entry) = some inode)
    (hsrc : src = sourceAt t.sendDisk sendPath files) {k pos : ℕ}
    (h : Progress src sendPath recvPath files id k pos t) (envs : List ReadEnv)
    (hgood : ∀ env ∈ envs, env.Good)
    (hlong : blocksTo src files.length < envs.length + (blocksTo src k + pos)) : ∃ t',
      Transfer.sendAll z envs t = some t' ∧ t'.sendDisk = t.sendDisk ∧
      t'.sendJob.finishedSize = totalTo src files.length ∧
      ((staging recvPath files).Apart →
        (staging recvPath files).Settled src files.length t'.finish.recvDisk ∧
        t'.recvJob.finishedSize = totalTo src files.length) := by
  -- by induction on the calls of `read` that are left
  induction envs generalizing t k pos with
  | nil =>
    -- a file that is not complete has blocks left
    exfalso
    rw [List.length_nil, Nat.zero_add] at hlong
    rcases h.position with ⟨hk, hpos⟩ | ⟨rfl, rfl⟩
    · have hle := blocksTo_le src hk
      rw [blocksTo_succ] at hle
      omega
    · omega
  | cons env envs ih =>
    have henv := hgood env List.mem_cons_self
    rcases h.position with ⟨hk, hpos⟩ | ⟨rfl, rfl⟩
    · obtain ⟨k', pos', t', hsend, hdisk, hprogress, hless⟩ :=
        h.step hz hs hsource hsrc hk hpos henv
      obtain ⟨t'', hrun, hdisk', hdone⟩ := ih (by rwa [hdisk]) (by rwa [hdisk]) hprogress
        (fun e he => hgood e (List.mem_cons_of_mem _ he))
        (by rw [List.length_cons] at hlong; omega)
      exact ⟨t'', (hsend envs).trans hrun, hdisk'.trans hdisk, hdone⟩
    · -- the list is at its end
      obtain ⟨job', hread, hsent⟩ := h.sends.readNext_done z env hs.length
      have htotal : totalTo src files.length + UInt64.ofNat 0 = totalTo src files.length :=
        UInt64.add_zero _
      refine ⟨{ t with sendJob := job' }, ?_, rfl, hsent.trans htotal, fun hapart => ?_⟩
      · rw [Transfer.sendAll, hread]
      · obtain ⟨hsettled, hreceived⟩ := (h.receives hapart).finish hs hapart
        exact ⟨hsettled, hreceived.trans htotal⟩

theorem delivered_apart {t : Transfer} (h : t.Delivered sendPath recvPath files) :
    (staging recvPath files).Apart := by
  intro i hi j hj hsame
  -- the name would be there and not there
  have hgone := h.gone _ (entryAt_mem hj)
  have hpresent := h.present _ (entryAt_mem hi)
  have hname : finalKey recvPath (entryAt files i) = downloadKey recvPath (entryAt files j) := hsame
  unfold FileSystem.content at hpresent
  rw [hname, hgone] at hpresent
  exact hpresent rfl

/-- **A directory is delivered.** Without failing calls the sender reports completion, and then
every file is at its destination exactly when the names of the list do not get in each other's
way. -/
theorem sendAll_delivers_iff (hz : z.Lawful) (h : t.Starts sendPath recvPath files id) :
    ∃ n, ∀ envs : List ReadEnv, (∀ env ∈ envs, env.Good) → n ≤ envs.length →
      ∃ t', sendAll z envs t = some t' ∧
        (t'.finish.Delivered sendPath recvPath files ↔ NamesFree recvPath files) := by
  refine ⟨blocksTo (sourceAt t.sendDisk sendPath files) files.length + 1, ?_⟩
  intro envs hgood hlong
  have hs := h.sound
  obtain ⟨t', hrun, hdisk, hsent, hreceived⟩ :=
    (h.progress _).sendAll hz hs h.sources rfl envs hgood (Nat.lt_add_right _ hlong)
  have hsource (i : ℕ) (hi : i < files.length) :
      t'.finish.sendDisk.content (finalKey sendPath (entryAt files i)) =
        some (sourceAt t.sendDisk sendPath files i) := by
    obtain ⟨inode, hinode⟩ := h.sources _ (entryAt_mem hi)
    change t'.sendDisk.content _ = _
    rw [hdisk, sourceAt_eq hinode]
    unfold FileSystem.content
    rw [hinode]
    rfl
  have hentry {entry : FileEntry} (he : entry ∈ files) :
      ∃ i < files.length, entry = entryAt files i := by
    obtain ⟨i, hi, rfl⟩ := List.mem_iff_getElem.mp he
    refine ⟨i, hi, ?_⟩
    unfold entryAt
    rw [List.getElem?_eq_getElem hi]
    rfl
  refine ⟨t', hrun, fun hdelivered => ?_, fun ⟨hapart, hrewritten⟩ => ?_⟩
  · have hapart := delivered_apart hdelivered
    refine ⟨hapart, (Staging.Settled.complete_iff (hreceived hapart).1 hs.same).mp ?_⟩
    intro i hi
    exact (hdelivered.content _ (entryAt_mem hi)).trans (hsource i hi)
  · obtain ⟨hsettled, hcount⟩ := hreceived hapart
    have hcomplete := (Staging.Settled.complete_iff hsettled hs.same).mpr hrewritten
    have htotal : totalTo (sourceAt t'.finish.sendDisk sendPath files) files.length =
        totalTo (sourceAt t.sendDisk sendPath files) files.length := by
      change totalTo (sourceAt t'.sendDisk sendPath files) _ = _
      rw [hdisk]
    refine ⟨fun entry he => ?_, fun entry he => ?_, fun entry he => ?_,
      hsent.trans htotal.symm, hcount.trans htotal.symm⟩
    · obtain ⟨i, hi, rfl⟩ := hentry he
      exact (hcomplete i hi).trans (hsource i hi).symm
    · obtain ⟨i, hi, rfl⟩ := hentry he
      have hkept : t'.finish.recvDisk.content (finalKey recvPath (entryAt files i)) = some _ :=
        hcomplete i hi
      rw [hkept]
      exact Option.some_ne_none _
    · obtain ⟨i, hi, rfl⟩ := hentry he
      exact hsettled.gone i hi

/-- The jobs for two files, of `s` and into `r`, which have one byte each. -/
def ofTwo (first second : String) : Transfer :=
  let files := [⟨first.toList, 1, 0⟩, ⟨second.toList, 1, 0⟩]
  let job (p : String) : TransferJob :=
    { TransferJob.newWrite 1 .generic (.filePath p.toList) 0 false with files := files }
  let path (name : String) : PathKey := pathKey (join "s".toList name.toList)
  { sendDisk := (FileSystem.empty.writeFile (path first) [1]).writeFile (path second) [2]
    sendJob := job "s"
    recvDisk := FileSystem.empty
    recvJob := job "r" }

theorem ofTwo_starts {first second : String}
    (hvalid : ∀ entry ∈ (ofTwo first second).sendJob.files,
      validateFileNameNoTraversal entry.name = .ok ())
    (hsome : ∀ entry ∈ (ofTwo first second).sendJob.files,
      ((ofTwo first second).sendDisk.dir (finalKey "s".toList entry)).isSome = true) :
    (ofTwo first second).Starts "s".toList "r".toList (ofTwo first second).sendJob.files 1 where
  length := by
    change 2 < 2 ^ 31
    decide
  valid := hvalid
  sender := ⟨⟨rfl, rfl⟩, rfl, rfl, rfl, rfl, rfl⟩
  detect := rfl
  receiver := ⟨⟨rfl, rfl⟩, rfl, rfl, rfl, rfl, rfl⟩
  sources entry he := Option.isSome_iff_exists.mp (hsome entry he)
  linkFree x y i _ _ hx := by
    change (none : Option ℕ) = some i at hx
    cases hx

theorem sendAll_delivers_iff_two : (ofTwo "a" "b").Starts "s".toList "r".toList
      (ofTwo "a" "b").sendJob.files 1 ∧
    ∃ n, ∀ envs : List ReadEnv, (∀ env ∈ envs, env.Good) → n ≤ envs.length →
      ∃ t', sendAll .storing envs (ofTwo "a" "b") = some t' ∧
        (t'.finish.Delivered "s".toList "r".toList (ofTwo "a" "b").sendJob.files ↔
          NamesFree "r".toList (ofTwo "a" "b").sendJob.files) :=
  ⟨ofTwo_starts (by decide +kernel) (by decide +kernel),
    sendAll_delivers_iff Zstd.storing_lawful (ofTwo_starts (by decide +kernel) (by decide +kernel))⟩

/-- The `.digest` path of the file `a` is the destination of the file before it, which is removed
when `a` begins. -/
theorem digest_name_lost : (ofTwo "a.digest" "a").Starts "s".toList "r".toList
      (ofTwo "a.digest" "a").sendJob.files 1 ∧
    ∃ t', sendAll .storing (List.replicate 5 ⟨fun _ => .ok 1⟩) (ofTwo "a.digest" "a") = some t' ∧
      t'.finish.sendDisk.content (pathKey "s/a.digest".toList) = some [1] ∧
      t'.finish.recvDisk.content (pathKey "r/a.digest".toList) = none := by
  have hrun : ((sendAll .storing (List.replicate 5 ⟨fun _ => .ok 1⟩) (ofTwo "a.digest" "a")).map
      fun t' => (t'.finish.sendDisk.content (pathKey "s/a.digest".toList),
        t'.finish.recvDisk.content (pathKey "r/a.digest".toList))) = some (some [1], none) := by
    decide +kernel
  obtain ⟨t', hsend, hcontent⟩ := Option.map_eq_some_iff.mp hrun
  exact ⟨ofTwo_starts (by decide +kernel) (by decide +kernel), t', hsend,
    congrArg Prod.fst hcontent, congrArg Prod.snd hcontent⟩

end Transfer

end LibRustdesk.FileTransfer
