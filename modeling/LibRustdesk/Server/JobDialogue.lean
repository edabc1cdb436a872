import LibRustdesk.Framework.Dialogue
import LibRustdesk.Server.CmReadJobs

/-!
# A sending job as a party

What a job over a path sends, and what its peer answers, while its files stay as they are and every
call succeeds. A call that serves the job begins its file and reads from it, and sends a message at
most: a digest, a block, or the end of the job.

* `served` — a call that serves the job.
* `party` — the job as a `Party`: it sends what it is served with, and receives confirmations.
* `Sim` — a job that is as good as another one. With overwrite detection these are equal. Without
  it, a file may have been opened early, and the flags of a confirmation mean nothing.
* `Sim.follows_opened`, `Sim.follows_served`, `Sim.confirm` — **what is done with a job** is what
  the party does that it is as good as. To open the file without a digest is to do nothing.
-/

namespace LibRustdesk.Desktop.JobDialogue

open FileTransfer (Path pathKey join asUsize FileEntry TransferJob FileTransferBlock
  FileTransferDigest FileTransferSendConfirmRequest Disk InitEnv SeekEnv DataStream ReadEnv)

/-! ### The party -/

/-- What is sent of a file that has been read, and whether the job is over. -/
def readOuts (job : TransferJob) : Except String (Option FileTransferBlock) → List CmOut × Bool
  | .error e => ([.error job.id e job.fileNum], true)
  | .ok (some block) => ([.block block], false)
  | .ok none =>
    if job.jobCompleted then
      match job.jobError with
      | some err => ([.error job.id err job.fileNum], true)
      | none => ([.done job.id job.fileNum], true)
    else ([], false)

def digestOut (d : FileTransferDigest) : CmOut :=
  .digest d.id d.fileNum d.lastModified d.fileSize d.isResume

structure Served where
  job : TransferJob
  outs : List CmOut
  ended : Bool
  failed : Bool

/-- A call that begins the file of the job, and reads from it. -/
def served (z : Zstd) (read : ReadEnv) (disk : Disk) (job : TransferJob) : Served :=
  match job.initDataStream .good disk with
  | (job, .error e) => ⟨job, [.error job.id e job.fileNum], true, true⟩
  | (job, .ok digest) =>
    let r := job.read z read disk
    ⟨r.1, digest.toList.map digestOut ++ (readOuts r.1 r.2).1, (readOuts r.1 r.2).2, !r.2.isOk⟩

/-- Every call of a read fills what is left of the buffer. -/
def whole : ReadEnv := ⟨fun _ => .ok FileTransfer.bufSize⟩

def seekGood : SeekEnv := ⟨.ok (), true, true, true⟩

def party (z : Zstd) (disk : Disk) : Party TransferJob CmOut FileTransferSendConfirmRequest where
  send job :=
    match (served z whole disk job).outs with
    | [m] => some (m, if (served z whole disk job).ended then none
        else some (served z whole disk job).job)
    | _ => none
  receive job r := (job.confirm seekGood r disk).2

def Ends : CmOut → Prop
  | .done _ _ | .error _ _ _ => True
  | _ => False

theorem readOuts_over {job : TransferJob} {res : Except String (Option FileTransferBlock)}
    {m : CmOut} (hm : m ∈ (readOuts job res).1) (hends : Ends m) : (readOuts job res).2 = true := by
  unfold readOuts at hm ⊢
  split
  · rfl
  · rw [List.mem_singleton.mp hm] at hends
    exact hends.elim
  · split
    · split <;> rfl
    · next hwaits =>
      rw [if_neg hwaits] at hm
      cases hm

theorem party_ends {z : Zstd} {disk : Disk} {job : TransferJob} {m : CmOut} {q : Option TransferJob}
    (hsend : (party z disk).send job = some (m, q)) (hends : Ends m) : q = none := by
  have hover : m ∈ (served z whole disk job).outs → (served z whole disk job).ended = true := by
    unfold served
    split
    · exact fun _ => rfl
    · intro hm
      rcases List.mem_append.mp hm with hdigest | hread
      · obtain ⟨d, -, rfl⟩ := List.mem_map.mp hdigest
        exact hends.elim
      · exact readOuts_over hread hends
  unfold party at hsend
  dsimp only at hsend
  split at hsend
  · next m' houts =>
    cases hsend
    rw [houts] at hover
    rw [hover (List.mem_singleton_self m), if_pos rfl]
  · cases hsend

/-! ### Jobs that are ready -/

/-- A job over `p` with the list `files`; it has a stream only of a file of the list. -/
structure Ready (p : Path) (files : List FileEntry) (job : TransferJob) : Prop
    extends SendsFiles p files job where
  notLast : job.isLastJob = false
  stream : ∀ stream, job.dataStream = some stream →
    (∃ file, stream = .fileStream file) ∧ job.currentEntry ≠ none

section Ready

variable {p : Path} {files : List FileEntry} {job : TransferJob} {disk : Disk} {z : Zstd}

def Opens (p : Path) (disk : Disk) (job : TransferJob) (file : FileHandle) : Prop :=
  ∃ entry, job.currentEntry = some entry ∧ disk.openRead (pathKey (join p entry.name)) = some file

def openAt (file : FileHandle) (job : TransferJob) : TransferJob :=
  { job with
    dataStream := some (.fileStream file)
    fileConfirmed := false
    fileIsWaiting := false }

theorem Ready.stream_none (h : Ready p files job) (hentry : job.currentEntry = none) :
    job.dataStream = none := by
  cases hstream : job.dataStream with
  | none => rfl
  | some stream => exact absurd hentry (h.stream stream hstream).2

theorem openAt_ready (h : Ready p files job) {file : FileHandle} (hopens : Opens p disk job file) :
    Ready p files (openAt file job) := by
  obtain ⟨entry, hentry, -⟩ := hopens
  refine ⟨⟨h.generic, h.source, h.files⟩, h.notLast, fun stream hstream => ?_⟩
  cases hstream
  refine ⟨⟨file, rfl⟩, ?_⟩
  rw [show (openAt file job).currentEntry = job.currentEntry from rfl, hentry]
  exact Option.some_ne_none entry

/-- **What opening does**: nothing, or it opens the file, or it fails. -/
inductive Opened (p : Path) (disk : Disk) (job : TransferJob) :
    TransferJob × Except String Bool → Prop
  | past : job.currentEntry = none → Opened p disk job (job, .ok true)
  | again : job.dataStream ≠ none → Opened p disk job (job, .ok false)
  | opens (file : FileHandle) : job.dataStream = none → Opens p disk job file →
      Opened p disk job (openAt file job, .ok false)
  | fails (job' : TransferJob) (e : String) : Opened p disk job (job', .error e)

theorem Ready.openDataStream (h : Ready p files job) (disk : Disk) :
    Opened p disk job (job.openDataStream (.ok ()) disk) := by
  cases hentry : job.currentEntry with
  | none =>
    have hjob : { job with dataStream := none } = job := by rw [← h.stream_none hentry]
    rw [openDataStream_past h.toSendsFiles disk (.ok ()) hentry, hjob]
    exact .past hentry
  | some entry =>
    cases hstream : job.dataStream with
    | some stream =>
      rw [openDataStream_again h.toSendsFiles disk hentry (.ok ()) hstream]
      exact .again (by rw [hstream]; exact Option.some_ne_none stream)
    | none =>
      cases hfile : disk.openRead (pathKey (join p entry.name)) with
      | some file =>
        rw [openDataStream_opens h.toSendsFiles disk hentry hstream hfile]
        exact .opens file hstream ⟨entry, hentry, hfile⟩
      | none =>
        have hfails : (Except.ok () : Except String Unit).isOk = false ∨
            disk.openRead (pathKey (join p entry.name)) = none := .inr hfile
        obtain ⟨e, he⟩ := openDataStream_fails h.toSendsFiles disk hentry hstream hfails
        rw [he]
        exact .fails _ e

theorem initDataStream_off (hoff : job.enableOverwriteDetection = false) (env : InitEnv)
    (disk : Disk) : job.initDataStream env disk =
      ((job.openDataStream env.openFile disk).1,
        (job.openDataStream env.openFile disk).2.map fun _ => none) := by
  have hkeeps := (openDataStream_kept env.openFile job disk).detection.trans hoff
  unfold TransferJob.initDataStream
  generalize job.openDataStream env.openFile disk = r at hkeeps ⊢
  obtain ⟨job', e | _ | _⟩ := r
  · rfl
  · dsimp only at hkeeps ⊢
    rw [if_neg (fun hdetects => by rw [hkeeps] at hdetects; exact absurd hdetects.2.1 nofun)]
    rfl
  · rfl

variable {job' : TransferJob} {digest : Option FileTransferDigest}

theorem Ready.initDataStream_on (h : Ready p files job)
    (hon : job.enableOverwriteDetection = true)
    
    (hinit : job.initDataStream .good disk = (job', .ok digest)) :
    (digest = none ∧ job' = job) ∨
      ∃ d, digest = some d ∧ job'.fileConfirmed = false ∧ job'.fileIsWaiting = true := by
  have hopened : Opened p disk job (job.openDataStream InitEnv.good.openFile disk) :=
    h.openDataStream disk
  unfold TransferJob.initDataStream at hinit
  generalize job.openDataStream InitEnv.good.openFile disk = r at hopened hinit
  cases hopened with
  | past hentry =>
    cases hinit
    exact .inl ⟨rfl, rfl⟩
  | again hstream =>
    dsimp only at hinit
    split at hinit
    · next hdetects =>
      split at hinit
      · cases hinit
      · cases hinit
        refine .inr ⟨_, rfl, ?_, rfl⟩
        show job.fileConfirmed = false
        simpa using hdetects.2.2.1
    · cases hinit
      exact .inl ⟨rfl, rfl⟩
  | opens file hstream hfile =>
    -- a file that has just been opened is not confirmed
    have hdetects : (openAt file job).type = .generic ∧
        (openAt file job).enableOverwriteDetection ∧ !(openAt file job).fileConfirmed ∧
        !(openAt file job).fileIsWaiting := ⟨h.generic, hon, rfl, rfl⟩
    dsimp only at hinit
    rw [if_pos hdetects] at hinit
    split at hinit
    · cases hinit
    · cases hinit
      exact .inr ⟨_, rfl, rfl, rfl⟩
  | fails job' e => cases hinit

theorem Ready.initDataStream (h : Ready p files job) 
    (hinit : job.initDataStream .good disk = (job', .ok digest)) : Ready p files job' := by
  have hopened : Opened p disk job (job.openDataStream InitEnv.good.openFile disk) :=
    h.openDataStream disk
  have hready {job₁ : TransferJob} {done : Bool}
      (hjob : Opened p disk job (job₁, .ok done)) : Ready p files job₁ := by
    cases hjob with
    | past | again => exact h
    | opens file _ hfile => exact openAt_ready h hfile
  unfold TransferJob.initDataStream at hinit
  generalize job.openDataStream InitEnv.good.openFile disk = r at hopened hinit
  obtain ⟨job₁, e | _ | _⟩ := r
  · cases hinit
  · have hjob := hready hopened
    dsimp only at hinit
    split at hinit
    · split at hinit
      · cases hinit
      · cases hinit
        exact ⟨⟨hjob.generic, hjob.source, hjob.files⟩, hjob.notLast, hjob.stream⟩
    · cases hinit
      exact hjob
  · cases hinit
    exact hready hopened

/-! ### Reading -/

theorem fillBuffer_writable {env : ReadEnv} (henv : env.Good) (disk : Disk) (fuel k : ℕ)
    (got : Bytes) (inode pos : ℕ) :
    FileTransfer.fillBuffer env disk (fuel + 1) k got (.fileStream ⟨inode, pos, true⟩) =
      .error "Bad file descriptor (os error 9)" := by
  obtain ⟨most, hmost⟩ := henv k
  unfold FileTransfer.fillBuffer
  rw [hmost]
  rfl

theorem fillBuffer_good {env env' : ReadEnv} (henv : env.Good) (henv' : env'.Good) (disk : Disk)
    (file : FileHandle) :
    FileTransfer.fillBuffer env disk FileTransfer.bufSize 0 [] (.fileStream file) =
      FileTransfer.fillBuffer env' disk FileTransfer.bufSize 0 [] (.fileStream file) := by
  obtain ⟨inode, pos, writable⟩ := file
  cases writable with
  | false =>
    calc FileTransfer.fillBuffer env disk FileTransfer.bufSize 0 []
          (.fileStream ⟨inode, pos, false⟩)
        = _ := TransferJob.fillBuffer_start henv disk inode pos
      _ = _ := (TransferJob.fillBuffer_start henv' disk inode pos).symm
  | true =>
    calc FileTransfer.fillBuffer env disk FileTransfer.bufSize 0 []
          (.fileStream ⟨inode, pos, true⟩)
        = _ := fillBuffer_writable henv disk (FileTransfer.bufSize - 1) 0 [] inode pos
      _ = _ := (fillBuffer_writable henv' disk (FileTransfer.bufSize - 1) 0 [] inode pos).symm

theorem Ready.read_good (h : Ready p files job) {env env' : ReadEnv} (henv : env.Good)
    (henv' : env'.Good) (z : Zstd) (disk : Disk) :
    job.read z env disk = job.read z env' disk := by
  have hblock (name : Path) : job.readBlock z env name disk = job.readBlock z env' name disk := by
    unfold TransferJob.readBlock
    cases hstream : job.dataStream with
    | none => rfl
    | some stream =>
      obtain ⟨⟨file, rfl⟩, -⟩ := h.stream stream hstream
      dsimp only
      rw [fillBuffer_good henv henv' disk file]
  unfold TransferJob.read
  simp only [hblock]

theorem Ready.readBlock (h : Ready p files job) {env : ReadEnv} (henv : env.Good) (z : Zstd)
    (name : Path) (disk : Disk) : Ready p files (job.readBlock z env name disk).1 := by
  have hleave : Ready p files job.leaveFile :=
    ⟨⟨h.generic, h.source, h.files⟩, h.notLast, nofun⟩
  unfold TransferJob.readBlock
  cases hstream : job.dataStream with
  | none => exact h
  | some stream =>
    obtain ⟨⟨⟨inode, pos, writable⟩, rfl⟩, hentry⟩ := h.stream stream hstream
    dsimp only
    cases writable with
    | true =>
      have herror := fillBuffer_writable henv disk (FileTransfer.bufSize - 1) 0 [] inode pos
      rw [show FileTransfer.bufSize - 1 + 1 = FileTransfer.bufSize from rfl] at herror
      rw [herror]
      exact hleave
    | false =>
      rw [TransferJob.fillBuffer_start henv]
      generalize ((disk.node inode).data.drop pos).take FileTransfer.bufSize = buf
      rw [h.source]
      cases buf with
      | nil => exact hleave
      | cons b bs =>
        refine ⟨⟨h.generic, rfl, h.files⟩, h.notLast, fun stream hstream => ?_⟩
        cases hstream
        exact ⟨⟨_, rfl⟩, hentry⟩

theorem Ready.read (h : Ready p files job) {env : ReadEnv} (henv : env.Good) (z : Zstd)
    (disk : Disk) : Ready p files (job.read z env disk).1 := by
  unfold TransferJob.read
  split
  · exact h
  · rw [h.source]
    dsimp only
    split
    · exact ⟨⟨h.generic, rfl, h.files⟩, h.notLast, nofun⟩
    · exact h.readBlock henv z _ disk

theorem Ready.read_none (h : Ready p files job) {env : ReadEnv}
    (hread : job.read z env disk = (job', .ok none)) : job' = job := by
  unfold TransferJob.read at hread
  split at hread
  · cases hread
    rfl
  · rw [h.source] at hread
    dsimp only at hread
    split at hread
    · next hentry =>
      cases hread
      rw [← h.stream_none hentry, ← h.source]
    · next entry _ =>
      exact absurd (congrArg Prod.snd hread) (readBlock_ne_none z env h.source _ disk)

theorem Ready.read_waits (h : Ready p files job) (hon : job.enableOverwriteDetection = true)
    (hconfirmed : job.fileConfirmed = false) (z : Zstd) (env : ReadEnv) (disk : Disk) :
    job.read z env disk = (job, .ok none) := by
  unfold TransferJob.read
  rw [if_pos ⟨h.generic, hon, by rw [hconfirmed]; rfl⟩]

/-! ### Confirming -/

theorem Ready.setStreamOffset (h : Ready p files job) {env : SeekEnv} {offset : UInt64} 
    (hjob : (job.setStreamOffset env (asUsize job.fileNum) offset disk).2 = some job') : Ready p
    files job' := by
  unfold TransferJob.setStreamOffset at hjob
  rw [h.source] at hjob
  dsimp only at hjob
  split at hjob
  · cases hjob
  · next entry hentry =>
    have hcurrent : job.currentEntry ≠ none := by
      rw [TransferJob.currentEntry, hentry]
      exact Option.some_ne_none entry
    split at hjob
    · cases hjob
      exact h
    · split at hjob
      · cases hjob
        exact h
      · split at hjob
        · cases hjob
          refine ⟨⟨h.generic, rfl, h.files⟩, h.notLast, fun stream hstream => ?_⟩
          cases hstream
          exact ⟨⟨_, rfl⟩, hcurrent⟩
        · cases hjob
          exact h

theorem Ready.confirm (h : Ready p files job) {env : SeekEnv} {r : FileTransferSendConfirmRequest}
    (hjob : (job.confirm env r disk).2 = some job') : Ready p files job' := by
  have hconfirmed : Ready p files (job.setFileConfirmed true) :=
    ⟨⟨h.generic, h.source, h.files⟩, h.notLast, h.stream⟩
  unfold TransferJob.confirm at hjob
  split at hjob
  · cases hjob
    exact h
  · next hnum =>
    split at hjob
    · next skip _ =>
      cases skip with
      | true =>
        cases hjob
        exact ⟨⟨h.generic, h.source, h.files⟩, h.notLast, nofun⟩
      | false =>
        cases hjob
        exact hconfirmed
    · split at hjob
      · -- the offset is for the file that the job is at
        rw [← not_not.mp hnum] at hjob
        exact hconfirmed.setStreamOffset hjob
      · cases hjob
        exact hconfirmed
    · cases hjob
      exact h

end Ready

/-! ### Jobs without overwrite detection -/

def variant (stream : Option DataStream) (confirmed waiting : Bool) (job : TransferJob) :
    TransferJob :=
  { job with
    dataStream := stream
    fileConfirmed := confirmed
    fileIsWaiting := waiting }

def withFlags (confirmed waiting : Bool) (job : TransferJob) : TransferJob :=
  variant job.dataStream confirmed waiting job

/-- The stream of the job, or the one it gets when its file is opened. -/
inductive Ahead (p : Path) (disk : Disk) (job : TransferJob) : Option DataStream → Prop
  | same : Ahead p disk job job.dataStream
  | opened (file : FileHandle) : job.dataStream = none → Opens p disk job file →
      Ahead p disk job (some (.fileStream file))

/-- The job, but for what was done early and for the flags. -/
def VariantOf (p : Path) (disk : Disk) (job job' : TransferJob) : Prop :=
  ∃ stream confirmed waiting, Ahead p disk job stream ∧ job' = variant stream confirmed waiting job

section Variant

variable {p : Path} {files : List FileEntry} {job : TransferJob} {disk : Disk}
  {stream : Option DataStream}

theorem openDataStream_variant (h : Ready p files job) (hahead : Ahead p disk job stream)
    {confirmed waiting : Bool} (hvariant : Ready p files (variant stream confirmed waiting job))
    (hok : ((variant stream confirmed waiting job).openDataStream (.ok ()) disk).2.isOk = true) :
    ∃ confirmed' waiting', (variant stream confirmed waiting job).openDataStream (.ok ()) disk =
      (withFlags confirmed' waiting' (job.openDataStream (.ok ()) disk).1,
        (job.openDataStream (.ok ()) disk).2) := by
  cases hentry : job.currentEntry with
  | none =>
    rw [openDataStream_past h.toSendsFiles disk (.ok ()) hentry,
      openDataStream_past hvariant.toSendsFiles disk (.ok ()) hentry]
    exact ⟨confirmed, waiting, rfl⟩
  | some entry =>
    cases hahead with
    | same =>
      rcases Option.eq_none_or_eq_some job.dataStream with hstream | ⟨stream, hstream⟩
      · cases hfile : disk.openRead (pathKey (join p entry.name)) with
        | some file =>
          rw [openDataStream_opens h.toSendsFiles disk hentry hstream hfile,
            openDataStream_opens hvariant.toSendsFiles disk hentry hstream hfile]
          exact ⟨false, false, rfl⟩
        | none =>
          have hfails : (Except.ok () : Except String Unit).isOk = false ∨
              disk.openRead (pathKey (join p entry.name)) = none := .inr hfile
          obtain ⟨e, he⟩ := openDataStream_fails hvariant.toSendsFiles disk hentry hstream hfails
          rw [he] at hok
          cases hok
      · rw [openDataStream_again h.toSendsFiles disk hentry (.ok ()) hstream,
          openDataStream_again hvariant.toSendsFiles disk hentry (.ok ()) hstream]
        exact ⟨confirmed, waiting, rfl⟩
    | opened file hstream hopens =>
      -- the file that was opened early
      obtain ⟨entry, hentry, hfile⟩ := hopens
      rw [openDataStream_opens h.toSendsFiles disk hentry hstream hfile,
        openDataStream_again hvariant.toSendsFiles disk hentry (.ok ()) rfl]
      exact ⟨confirmed, waiting, rfl⟩

theorem readBlock_withFlags (hsource : job.dataSource = .filePath p) (z : Zstd) (env : ReadEnv)
    (confirmed waiting : Bool) (name : Path) (disk : Disk) : ∃ confirmed' waiting',
      (withFlags confirmed waiting job).readBlock z env name disk =
        (withFlags confirmed' waiting' (job.readBlock z env name disk).1,
          (job.readBlock z env name disk).2) := by
  unfold TransferJob.readBlock
  rw [show (withFlags confirmed waiting job).dataStream = job.dataStream from rfl,
    show (withFlags confirmed waiting job).dataSource = job.dataSource from rfl, hsource]
  cases job.dataStream with
  | none => exact ⟨confirmed, waiting, rfl⟩
  | some stream =>
    dsimp only
    -- a file that is left has its flags reset
    rcases FileTransfer.fillBuffer env disk FileTransfer.bufSize 0 [] stream with
      e | ⟨_ | ⟨b, bs⟩, stream'⟩
    · exact ⟨false, false, rfl⟩
    · exact ⟨false, false, rfl⟩
    · exact ⟨confirmed, waiting, rfl⟩

theorem read_withFlags (hsource : job.dataSource = .filePath p)
    (hoff : job.enableOverwriteDetection = false) (z : Zstd) (env : ReadEnv)
    (confirmed waiting : Bool) (disk : Disk) : ∃ confirmed' waiting',
      (withFlags confirmed waiting job).read z env disk =
        (withFlags confirmed' waiting' (job.read z env disk).1, (job.read z env disk).2) := by
  have hnot (job : TransferJob) (hoff : job.enableOverwriteDetection = false) :
      ¬ (job.type = .generic ∧ job.enableOverwriteDetection ∧ !job.fileConfirmed) := by
    rintro ⟨-, hon, -⟩
    rw [hoff] at hon
    cases hon
  unfold TransferJob.read
  rw [if_neg (hnot job hoff), if_neg (hnot (withFlags confirmed waiting job) hoff),
    show (withFlags confirmed waiting job).dataSource = job.dataSource from rfl,
    show (withFlags confirmed waiting job).currentEntry = job.currentEntry from rfl, hsource]
  dsimp only
  cases job.currentEntry with
  | none =>
    rw [← hsource]
    exact ⟨confirmed, waiting, rfl⟩
  | some entry => exact readBlock_withFlags hsource z env confirmed waiting _ disk

end Variant

/-! ### Serving a job -/

section Served

variable {p : Path} {files : List FileEntry} {job : TransferJob} {disk : Disk} {z : Zstd}
  {env : ReadEnv}

theorem whole_good : whole.Good := fun _ => ⟨_, rfl⟩

theorem served_good (h : Ready p files job) (henv : env.Good) :
    served z env disk job = served z whole disk job := by
  unfold served
  rcases hinit : job.initDataStream .good disk with ⟨job', e | digest⟩
  · rfl
  · dsimp only
    rw [(h.initDataStream hinit).read_good henv whole_good z disk]

theorem served_ready (h : Ready p files job) (henv : env.Good)
    (hclean : (served z env disk job).failed = false) :
    Ready p files (served z env disk job).job := by
  unfold served at hclean ⊢
  rcases hinit : job.initDataStream .good disk with ⟨job', e | digest⟩
  · rw [hinit] at hclean
    cases hclean
  · exact (h.initDataStream hinit).read henv z disk

theorem readOuts_cases (h : Ready p files job) {job' : TransferJob}
    {res : Except String (Option FileTransferBlock)} (hread : job.read z env disk = (job', res)) :
    ((readOuts job' res).1 = [] ∧ (readOuts job' res).2 = false ∧ job' = job) ∨
      ∃ m, (readOuts job' res).1 = [m] := by
  unfold readOuts
  rcases res with e | block | _
  · exact .inr ⟨_, rfl⟩
  · dsimp only
    split
    · split <;> exact .inr ⟨_, rfl⟩
    · exact .inl ⟨rfl, rfl, h.read_none hread⟩
  · exact .inr ⟨_, rfl⟩

theorem readOuts_off (hoff : job.enableOverwriteDetection = false)
    (res : Except String (Option FileTransferBlock)) : ∃ m, (readOuts job res).1 = [m] := by
  have hcompleted : job.jobCompleted = true := by rw [TransferJob.jobCompleted, hoff]; rfl
  unfold readOuts
  rcases res with e | block | _
  · exact ⟨_, rfl⟩
  · dsimp only
    rw [if_pos hcompleted]
    split <;> exact ⟨_, rfl⟩
  · exact ⟨_, rfl⟩

theorem served_digest (z : Zstd) (env : ReadEnv) (h : Ready p files job)
    (hon : job.enableOverwriteDetection = true)
    {job' : TransferJob} {d : FileTransferDigest}
    (hinit : job.initDataStream .good disk = (job', .ok (some d)))
    (hconfirmed : job'.fileConfirmed = false) (hwaiting : job'.fileIsWaiting = true) :
    served z env disk job = ⟨job', [digestOut d], false, false⟩ := by
  have hkept := initDataStream_kept .good job disk
  rw [hinit] at hkept
  have hread : job'.read z env disk = (job', .ok none) :=
    (h.initDataStream hinit).read_waits (hkept.detection.trans hon) hconfirmed z env disk
  have hgoes : ¬ job'.jobCompleted = true := by
    unfold TransferJob.jobCompleted
    rw [hkept.detection, hon, hconfirmed, hwaiting]
    exact Bool.false_ne_true
  unfold served
  rw [hinit]
  dsimp only
  rw [hread]
  unfold readOuts
  rw [if_neg hgoes]
  rfl

theorem served_off (hoff : job.enableOverwriteDetection = false) {job' : TransferJob} {done : Bool}
    (hopen : job.openDataStream (.ok ()) disk = (job', .ok done)) :
    served z env disk job =
      ⟨(job'.read z env disk).1, (readOuts (job'.read z env disk).1 (job'.read z env disk).2).1,
        (readOuts (job'.read z env disk).1 (job'.read z env disk).2).2,
        !(job'.read z env disk).2.isOk⟩ := by
  have hinit : job.initDataStream .good disk = (job', .ok none) := by
    have hoff' := initDataStream_off hoff .good disk
    rw [show InitEnv.good.openFile = .ok () from rfl, hopen] at hoff'
    exact hoff'
  unfold served
  rw [hinit]
  rfl

theorem openDataStream_ok (hoff : job.enableOverwriteDetection = false)
    (hclean : (served z env disk job).failed = false) :
    ∃ job' done, job.openDataStream (.ok ()) disk = (job', .ok done) := by
  unfold served at hclean
  rw [initDataStream_off hoff, show InitEnv.good.openFile = .ok () from rfl] at hclean
  rcases hopen : job.openDataStream (.ok ()) disk with ⟨job', e | done⟩
  · rw [hopen] at hclean
    cases hclean
  · exact ⟨job', done, rfl⟩

theorem served_cases (h : Ready p files job) (hclean : (served z env disk job).failed = false) :
    ((served z env disk job).outs = [] ∧ (served z env disk job).ended = false ∧
        (served z env disk job).job = job) ∨
      ∃ m, (served z env disk job).outs = [m] := by
  cases hdetects : job.enableOverwriteDetection with
  | false =>
    obtain ⟨job', done, hopen⟩ := openDataStream_ok hdetects hclean
    have hkept := (openDataStream_kept (.ok ()) job disk).detection.trans hdetects
    rw [hopen] at hkept
    right
    rw [served_off hdetects hopen]
    exact readOuts_off ((read_kept z env job' disk).detection.trans hkept) _
  | true =>
    rcases hinit : job.initDataStream .good disk with ⟨job', e | digest⟩
    · unfold served at hclean
      rw [hinit] at hclean
      cases hclean
    · rcases h.initDataStream_on hdetects hinit with ⟨rfl, rfl⟩ | ⟨d, rfl, hconfirmed, hwaiting⟩
      · unfold served
        rw [hinit]
        exact readOuts_cases h rfl
      · rw [served_digest z env h hdetects hinit hconfirmed hwaiting]
        exact .inr ⟨_, rfl⟩

theorem readOuts_withFlags (hoff : job.enableOverwriteDetection = false) (confirmed waiting : Bool)
    (res : Except String (Option FileTransferBlock)) :
    readOuts (withFlags confirmed waiting job) res = readOuts job res := by
  have hcompleted (job : TransferJob) (hoff : job.enableOverwriteDetection = false) :
      job.jobCompleted = true := by rw [TransferJob.jobCompleted, hoff]; rfl
  unfold readOuts
  rcases res with e | block | _
  · rfl
  · rw [if_pos (hcompleted job hoff), if_pos (hcompleted (withFlags confirmed waiting job) hoff)]
    rfl
  · rfl

theorem served_variant (h : Ready p files job) (hoff : job.enableOverwriteDetection = false)
    {stream : Option DataStream} {confirmed waiting : Bool} (hahead : Ahead p disk job stream)
    (hvariant : Ready p files (variant stream confirmed waiting job))
    (hclean : (served z env disk (variant stream confirmed waiting job)).failed = false) :
    ∃ confirmed' waiting', served z env disk (variant stream confirmed waiting job) =
      { served z env disk job with
        job := withFlags confirmed' waiting' (served z env disk job).job } := by
  have hoff' : (variant stream confirmed waiting job).enableOverwriteDetection = false := hoff
  obtain ⟨job₁, done, hopen₁⟩ := openDataStream_ok hoff' hclean
  obtain ⟨c, w, hopens⟩ := openDataStream_variant h hahead hvariant (by rw [hopen₁]; rfl)
  have hkept := (openDataStream_kept (.ok ()) job disk).detection.trans hoff
  have hsource : (job.openDataStream (.ok ()) disk).1.dataSource = .filePath p :=
    (FileTransfer.InRange.at_openDataStream h.source disk (.ok ())).source
  rcases hopen : job.openDataStream (.ok ()) disk with ⟨job', e | done'⟩
  · rw [hopen₁, hopen] at hopens
    cases hopens
  · rw [hopen] at hopens hkept hsource
    obtain ⟨c', w', hread⟩ := read_withFlags hsource hkept z env c w disk
    refine ⟨c', w', ?_⟩
    rw [served_off hoff' hopens, served_off hoff hopen, hread]
    rw [readOuts_withFlags ((read_kept z env job' disk).detection.trans hkept)]

theorem served_kept (z : Zstd) (env : ReadEnv) (disk : Disk) (job : TransferJob) :
    Kept job (served z env disk job).job := by
  have hinit := initDataStream_kept .good job disk
  unfold served
  generalize job.initDataStream .good disk = r at hinit ⊢
  obtain ⟨job', e | digest⟩ := r
  · exact hinit
  · have hread := read_kept z env job' disk
    exact ⟨hread.id.trans hinit.id, hread.type.trans hinit.type, hread.last.trans hinit.last,
      hread.detection.trans hinit.detection⟩

theorem outs_of_failed (hfailed : (served z env disk job).failed = true) :
    (served z env disk job).outs ≠ [] := by
  unfold served at hfailed ⊢
  generalize job.initDataStream .good disk = r at hfailed ⊢
  obtain ⟨job', e | digest⟩ := r
  · exact List.cons_ne_nil _ _
  · dsimp only at hfailed ⊢
    rcases hread : (job'.read z env disk).2 with e | block
    · exact List.append_ne_nil_of_right_ne_nil _ (List.cons_ne_nil _ _)
    · rw [hread] at hfailed
      cases hfailed

end Served

/-! ### Jobs that are as good as others -/

/-- The job is as good as `j`. -/
structure Sim (p : Path) (files : List FileEntry) (disk : Disk) (j job : TransferJob) : Prop where
  left : Ready p files j
  right : Ready p files job
  same : job = j ∨ j.enableOverwriteDetection = false ∧ VariantOf p disk j job

section Sim

variable {p : Path} {files : List FileEntry} {disk : Disk} {j job : TransferJob} {z : Zstd}
  {env : ReadEnv}

theorem Sim.refl (h : Ready p files job) : Sim p files disk job job := ⟨h, h, .inl rfl⟩

theorem Sim.cases (h : Sim p files disk j job) :
    (j.enableOverwriteDetection = true ∧ job = j) ∨
      (j.enableOverwriteDetection = false ∧ VariantOf p disk j job) := by
  cases hdetects : j.enableOverwriteDetection with
  | true =>
    rcases h.same with rfl | ⟨hoff, -⟩
    · exact .inl ⟨rfl, rfl⟩
    · rw [hdetects] at hoff
      cases hoff
  | false =>
    refine .inr ⟨rfl, ?_⟩
    rcases h.same with rfl | ⟨-, hvariant⟩
    · exact ⟨_, _, _, .same, rfl⟩
    · exact hvariant

theorem sim_withFlags (h : Ready p files j) (hoff : j.enableOverwriteDetection = false)
    (confirmed waiting : Bool) : Sim p files disk j (withFlags confirmed waiting j) :=
  ⟨h, ⟨⟨h.generic, h.source, h.files⟩, h.notLast, h.stream⟩,
    .inr ⟨hoff, _, confirmed, waiting, .same, rfl⟩⟩

theorem Sim.served (h : Sim p files disk j job) (henv : env.Good)
    (hclean : (JobDialogue.served z env disk job).failed = false) :
    ∃ job', Sim p files disk (JobDialogue.served z whole disk j).job job' ∧
      (JobDialogue.served z whole disk j).failed = false ∧
      JobDialogue.served z env disk job =
        { JobDialogue.served z whole disk j with job := job' } := by
  have hready := served_ready h.right henv hclean
  rcases h.cases with ⟨-, rfl⟩ | ⟨hoff, stream, confirmed, waiting, hahead, rfl⟩
  · rw [served_good h.left henv] at hclean hready ⊢
    exact ⟨_, .refl hready, hclean, rfl⟩
  · obtain ⟨c, w, hserved⟩ := served_variant h.left hoff hahead h.right hclean
    rw [hserved, served_good h.left henv] at hclean
    rw [served_good h.left henv] at hserved
    have hoff' := (served_kept z whole disk j).detection.trans hoff
    exact ⟨_, sim_withFlags (served_ready h.left whole_good hclean) hoff' c w, hclean, hserved⟩

theorem Sim.follows_served (h : Sim p files disk j job) (henv : env.Good)
    (hclean : (JobDialogue.served z env disk job).failed = false) :
    ∃ q, (party z disk).Follows (some j)
        ((JobDialogue.served z env disk job).outs.map Turn.send) q ∧
      ((JobDialogue.served z env disk job).ended = false →
        ∃ j', q = some j' ∧ Sim p files disk j' (JobDialogue.served z env disk job).job) := by
  obtain ⟨job', hsim, hclean', hserved⟩ := h.served henv hclean
  rw [hserved]
  rcases served_cases h.left hclean' with ⟨houts, hover, hjob⟩ | ⟨m, houts⟩
  · -- nothing is sent, and `j` is what it was
    rw [hjob] at hsim
    rw [houts]
    exact ⟨some j, .nil _, fun _ => ⟨j, rfl, hsim⟩⟩
  · have hsend : (party z disk).send j = some (m,
        if (JobDialogue.served z whole disk j).ended then none
        else some (JobDialogue.served z whole disk j).job) := by
      unfold party
      dsimp only
      rw [houts]
    rw [houts]
    refine ⟨_, .send hsend (.nil _), fun hover => ⟨_, ?_, hsim⟩⟩
    exact if_neg (by rw [hover]; exact Bool.false_ne_true)

theorem Sim.follows_opened (h : Sim p files disk j job) {job' : TransferJob}
    {digest : Option FileTransferDigest}
    (hinit : job.initDataStream .good disk = (job', .ok digest)) :
    ∃ j', (party z disk).Follows (some j) ((digest.toList.map digestOut).map Turn.send) (some j') ∧
      Sim p files disk j' job' := by
  have hready := h.right.initDataStream hinit
  rcases h.cases with ⟨hon, rfl⟩ | ⟨hoff, stream, confirmed, waiting, hahead, rfl⟩
  · rcases h.right.initDataStream_on hon hinit with ⟨rfl, rfl⟩ | ⟨d, rfl, hconfirmed, hwaiting⟩
    · exact ⟨job', .nil _, h⟩
    · have hserved := served_digest z whole h.right hon hinit hconfirmed hwaiting
      have hsend : (party z disk).send job = some (digestOut d, some job') := by
        unfold party
        dsimp only
        rw [hserved]
        rfl
      exact ⟨job', .send hsend (.nil _), .refl hready⟩
  · have hoff' : (variant stream confirmed waiting j).enableOverwriteDetection = false := hoff
    rw [initDataStream_off hoff' .good disk, show InitEnv.good.openFile = .ok () from rfl] at hinit
    rcases hopen : (variant stream confirmed waiting j).openDataStream (.ok ()) disk with
      ⟨job₁, e | done⟩
    · rw [hopen] at hinit
      cases hinit
    · rw [hopen] at hinit
      cases hinit
      obtain ⟨c, w, hopens⟩ := openDataStream_variant h.left hahead h.right (by rw [hopen]; rfl)
      rw [hopen] at hopens
      have hopened := h.left.openDataStream disk
      generalize j.openDataStream (.ok ()) disk = r at hopened hopens
      refine ⟨j, .nil _, h.left, hready, .inr ⟨hoff, ?_⟩⟩
      -- `j` is left as it is, and the stream is at most that of its file
      cases hopened with
      | past | again =>
        cases hopens
        exact ⟨_, c, w, .same, rfl⟩
      | opens file hstream hfile =>
        cases hopens
        exact ⟨_, c, w, .opened file hstream hfile, rfl⟩
      | fails job' e => cases hopens

theorem Sim.stops (h : Sim p files disk j job)
    (houts : (JobDialogue.served z whole disk job).outs = []) :
    (party z disk).send j = none := by
  have hclean : (JobDialogue.served z whole disk job).failed = false :=
    eq_false_of_ne_true fun hfailed => outs_of_failed hfailed houts
  obtain ⟨job', -, -, hserved⟩ := h.served whole_good hclean
  rw [hserved] at houts
  unfold party
  dsimp only at houts ⊢
  rw [houts]

theorem setStreamOffset_variant {stream : Option DataStream} (hahead : Ahead p disk j stream)
    (confirmed waiting : Bool) (env : SeekEnv) (fileNum : ℕ) (offset : UInt64) :
    Option.Rel (VariantOf p disk) (j.setStreamOffset env fileNum offset disk).2
      ((variant stream confirmed waiting j).setStreamOffset env fileNum offset disk).2 := by
  have hsame : Option.Rel (VariantOf p disk) (some j) (some (variant stream confirmed waiting j)) :=
    .some ⟨stream, confirmed, waiting, hahead, rfl⟩
  unfold TransferJob.setStreamOffset
  rw [show (variant stream confirmed waiting j).dataSource = j.dataSource from rfl,
    show (variant stream confirmed waiting j).files = j.files from rfl]
  cases hsource : j.dataSource with
  | memoryCursor data pos => exact hsame
  | filePath p' =>
    cases j.files[fileNum]? with
    | none => exact .none
    | some entry =>
      dsimp only
      rw [show (variant stream confirmed waiting j).resolveEntryPath =
        j.resolveEntryPath from rfl]
      cases j.resolveEntryPath env.onDisk p' entry.name with
      | none => exact hsame
      | some path =>
        dsimp only
        rcases TransferJob.offsetStream env path disk with ⟨disk', _ | file⟩
        · exact hsame
        · cases env.seek with
          | false => exact hsame
          | true => exact .some ⟨_, _, _, .same, rfl⟩

theorem confirm_variant {stream : Option DataStream} (hahead : Ahead p disk j stream)
    (confirmed waiting : Bool) (env : SeekEnv) (r : FileTransferSendConfirmRequest) :
    Option.Rel (VariantOf p disk) (j.confirm env r disk).2
      ((variant stream confirmed waiting j).confirm env r disk).2 := by
  -- neither the stream nor the number is among what `set_file_confirmed` sets
  have hahead' : Ahead p disk (j.setFileConfirmed true) stream := by
    cases hahead with
    | same => exact .same
    | opened file hstream hopens => exact .opened file hstream hopens
  unfold TransferJob.confirm
  rw [show (variant stream confirmed waiting j).fileNum = j.fileNum from rfl]
  split
  · exact .some ⟨stream, confirmed, waiting, hahead, rfl⟩
  · cases r.union with
    | none => exact .some ⟨stream, confirmed, waiting, hahead, rfl⟩
    | some union =>
      cases union with
      | skip skip =>
        cases skip with
        | true => exact .some ⟨_, _, _, .same, rfl⟩
        | false => exact .some ⟨stream, true, waiting, hahead', rfl⟩
      | offsetBlk offset =>
        dsimp only
        split
        · exact setStreamOffset_variant hahead' true waiting env (asUsize r.fileNum)
            offset.toUInt64
        · exact .some ⟨stream, true, waiting, hahead', rfl⟩

theorem Sim.confirm (h : Sim p files disk j job) (env : SeekEnv)
    (r : FileTransferSendConfirmRequest) :
    Option.Rel (Sim p files disk) (j.confirm env r disk).2 (job.confirm env r disk).2 := by
  rcases h.cases with ⟨-, rfl⟩ | ⟨hoff, stream, confirmed, waiting, hahead, rfl⟩
  · cases hjob : (job.confirm env r disk).2 with
    | none => exact .none
    | some job' => exact .some (.refl (h.right.confirm hjob))
  · have hrel := confirm_variant hahead confirmed waiting env r
    cases hj : (j.confirm env r disk).2 with
    | none =>
      cases hjob : ((variant stream confirmed waiting j).confirm env r disk).2 with
      | none => exact .none
      | some job' =>
        rw [hj, hjob] at hrel
        cases hrel
    | some j' =>
      cases hjob : ((variant stream confirmed waiting j).confirm env r disk).2 with
      | none =>
        rw [hj, hjob] at hrel
        cases hrel
      | some job' =>
        rw [hj, hjob] at hrel
        cases hrel with
        | some hsame =>
          have hoff' := (confirm_kept env r j j' disk hj).detection.trans hoff
          exact .some ⟨h.left.confirm hj, h.right.confirm hjob, .inr ⟨hoff', hsame⟩⟩

end Sim

end LibRustdesk.Desktop.JobDialogue
