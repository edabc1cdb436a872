import LibRustdesk.FileTransfer.InRange
import LibRustdesk.Server.FileMessages

/-!
# When a sending job is done

`handle_read_jobs` opens the file of every job, and then reads from the first of them. A read that
returns nothing ends the job, unless `job_completed` says that the peer is still to confirm a file,
and that it reads off the flags of the job: one of `file_confirmed` and `file_is_waiting` is set
while a file is open, and both are reset when a file is left. A file that cannot be opened is left,
too, and so the read that follows in the same call takes the job for completed, whatever is behind
that file. A digest that cannot be taken or sent leaves the flags as they are, with the same effect.

* `Sending` — a job over a path, with what the peer has been told of each file that was left.
* `sending` — the calls of `handle_read_jobs` with the job in front, or behind another one, and the
  confirmations of the peer, in any order. The disk is what it is at each of them.
* `handleReadJobs_cons` — what a call does with a list is what it does with the first job of it.
* `ends_whole_iff` — **the job is only ended when every file was read, skipped or reported**,
  exactly when no call that reads from it fails to begin a file, other than to open the last one.
-/

namespace LibRustdesk.Desktop

open FileTransfer (Path pathKey join asUsize FileEntry TransferJob FileTransferBlock
  FileTransferDigest FileTransferSendConfirmRequest Disk InitEnv SeekEnv DataStream)

/-! ### One job of a call -/

/-- What is sent when a job is opened, and whether it was. -/
def initMessages (env : JobEnv) (job : TransferJob) :
    Except String (Option FileTransferDigest) → List FileOut × Bool
  | .ok digest => (digest.toList.map .digest, true)
  | .error e => if env.sent then ([.error job.id e job.fileNum], true) else ([], false)

/-- The part of `init_jobs` for one job. -/
def initJob (env : JobEnv) (disk : Disk) (job : ReadJob) : ReadJob × List FileOut × Bool :=
  let r := job.toTransferJob.initDataStream env.init disk
  let sent := initMessages env r.1 r.2
  (⟨r.1, job.origin⟩, jobAccesses .read job.toTransferJob ++ sent.1, sent.2)

/-- What is sent when a job is read, and whether it is finished. -/
def readMessages (origin : Option ℕ) (job : TransferJob) :
    Except String (Option FileTransferBlock) → List FileOut × Bool
  | .error e => ([.error job.id e job.fileNum], false)
  | .ok (some block) => ([.block origin block], false)
  | .ok none =>
    if job.jobCompleted then
      match job.jobError with
      | some err => ([.error job.id err job.fileNum], true)
      | none => ([.done job.id job.fileNum], true)
    else ([], false)

/-- The part of `handle_read_jobs` for the job that is read. -/
def readJob (z : Zstd) (env : FileTransfer.ReadEnv) (disk : Disk) (job : ReadJob) :
    ReadJob × List FileOut × Bool :=
  let r := job.toTransferJob.read z env disk
  (⟨r.1, job.origin⟩, readMessages job.origin r.1 r.2)

theorem initJobs_cons {job : ReadJob} (hlast : job.isLastJob = false) (env : ℕ → JobEnv)
    (disk : Disk) (i : ℕ) (jobs : List ReadJob) :
    initJobs env disk i (job :: jobs) =
      if (initJob (env i) disk job).2.2 then
        ((initJob (env i) disk job).1 :: (initJobs env disk (i + 1) jobs).1,
          (initJob (env i) disk job).2.1 ++ (initJobs env disk (i + 1) jobs).2.1,
          (initJobs env disk (i + 1) jobs).2.2)
      else ((initJob (env i) disk job).1 :: jobs, (initJob (env i) disk job).2.1, false) := by
  rw [initJobs, hlast, if_neg Bool.false_ne_true]
  unfold initJob initMessages
  rcases job.toTransferJob.initDataStream (env i).init disk with ⟨job', e | digest⟩
  · cases (env i).sent with
    | true => rfl
    | false => simp
  · rfl

theorem readFirst_cons {job : ReadJob} (hlast : job.isLastJob = false) (z : Zstd)
    (env : FileTransfer.ReadEnv) (disk : Disk) (jobs : List ReadJob) :
    readFirst z env disk (job :: jobs) =
      ((readJob z env disk job).1 :: jobs, (readJob z env disk job).2.1,
        if (readJob z env disk job).2.2 then some (readJob z env disk job).1.id else none) := by
  rw [readFirst, hlast, if_neg Bool.false_ne_true]
  unfold readJob readMessages
  rcases job.toTransferJob.read z env disk with ⟨job', e | block | _⟩
  · rfl
  · dsimp only
    split
    · cases job'.jobError <;> rfl
    · rfl
  · rfl

/-! ### The machine -/

/-- What the peer has been told of a file that was left. -/
inductive Fate
  | read
  | skipped
  | reported
  deriving DecidableEq

def FileOut.isError : FileOut → Bool
  | .error _ _ _ => true
  | _ => false

/-- The block after the last one of a file, which is empty. -/
def FileOut.isEnd : FileOut → Bool
  | .block _ b => b.data.isEmpty && !b.compressed
  | _ => false

/-- What messages say of the file that was left with them, if one was. -/
def told (job job' : TransferJob) (outs : List FileOut) : List (ℕ × Fate) :=
  if job'.fileNum = job.fileNum then []
  else if outs.any FileOut.isError then [(asUsize job.fileNum, .reported)]
  else if outs.any FileOut.isEnd then [(asUsize job.fileNum, .read)]
  else []

/-- What a call has done with the first job of its list. -/
structure Tick where
  job : ReadJob
  /-- What was sent when it was opened, and when it was read. -/
  opened : List FileOut
  sent : List FileOut
  fates : List (ℕ × Fate)
  /-- The job is removed. -/
  removed : Bool
  /-- Something could not be sent, so that the connection is closed. -/
  closed : Bool

/-- `handle_read_jobs` as far as it is about the first job. `others` is whether the messages of the
others could be sent. -/
def tick (z : Zstd) (env : TickEnv) (others : Bool) (disk : Disk) (job : ReadJob) : Tick :=
  let i := initJob (env.job 0) disk job
  let r := readJob z env.read disk i.1
  let fates := told job.toTransferJob i.1.toTransferJob i.2.1
  if i.2.2 && others then
    if !r.2.1.isEmpty && !env.sent then ⟨r.1, i.2.1, [], fates, false, true⟩
    else
      ⟨r.1, i.2.1, r.2.1, fates ++ told i.1.toTransferJob r.1.toTransferJob r.2.1, r.2.2, false⟩
  else ⟨i.1, i.2.1, [], fates, false, true⟩

/-- A job, and what the peer has been told of its files. -/
structure Sending where
  job : ReadJob
  fates : List (ℕ × Fate)
  removed : Bool
  closed : Bool

inductive SendingEvent
  /-- The job is the first one of a call. -/
  | tick (env : TickEnv) (others : Bool) (disk : Disk)
  /-- Another job is. -/
  | init (env : JobEnv) (disk : Disk)
  | confirm (env : SeekEnv) (r : FileTransferSendConfirmRequest) (disk : Disk)

namespace Sending

def start (job : ReadJob) : Sending := ⟨job, [], false, false⟩

/-- The confirmation skips the file that the job is at. -/
def skipped (job : TransferJob) (r : FileTransferSendConfirmRequest) : List (ℕ × Fate) :=
  if FileTransfer.InRange.skips job r then [(asUsize job.fileNum, .skipped)] else []

def step (z : Zstd) (s : Sending) : SendingEvent → Sending × List FileOut
  | .tick env others disk =>
    let t := Desktop.tick z env others disk s.job
    (⟨t.job, s.fates ++ t.fates, t.removed, t.closed⟩, t.opened ++ t.sent)
  | .init env disk =>
    let i := initJob env disk s.job
    (⟨i.1, s.fates ++ told s.job.toTransferJob i.1.toTransferJob i.2.1, false, !i.2.2⟩, i.2.1)
  | .confirm env r disk =>
    match (s.job.toTransferJob.confirm env r disk).2 with
    | some job =>
      (⟨⟨job, s.job.origin⟩, s.fates ++ skipped s.job.toTransferJob r, false, false⟩, [])
    -- the index panics
    | none => ({ s with closed := true }, [])

end Sending

/-- A job that is removed is read no more, nor is one without its connection. -/
def sending (z : Zstd) : Machine Sending SendingEvent FileOut where
  step s ev := if s.removed || s.closed then (s, []) else s.step z ev

/-! ### What the two halves keep -/

structure Kept (job job' : TransferJob) : Prop where
  id : job'.id = job.id
  type : job'.type = job.type
  last : job'.isLastJob = job.isLastJob
  detection : job'.enableOverwriteDetection = job.enableOverwriteDetection

theorem openDataStream_kept (openFile : Except String Unit) (job : TransferJob) (disk : Disk) :
    Kept job (job.openDataStream openFile disk).1 := by
  unfold TransferJob.openDataStream
  split
  · split
    · exact ⟨rfl, rfl, rfl, rfl⟩
    · split
      · split <;> exact ⟨rfl, rfl, rfl, rfl⟩
      · exact ⟨rfl, rfl, rfl, rfl⟩
  · split <;> exact ⟨rfl, rfl, rfl, rfl⟩

theorem initDataStream_kept (env : InitEnv) (job : TransferJob) (disk : Disk) :
    Kept job (job.initDataStream env disk).1 := by
  have hopen := openDataStream_kept env.openFile job disk
  unfold TransferJob.initDataStream
  generalize job.openDataStream env.openFile disk = r at hopen ⊢
  obtain ⟨job', _ | _ | _⟩ := r
  · exact hopen
  · dsimp only
    split
    · split <;> exact ⟨hopen.id, hopen.type, hopen.last, hopen.detection⟩
    · exact hopen
  · exact hopen

theorem readBlock_kept (z : Zstd) (env : FileTransfer.ReadEnv) (job : TransferJob) (name : Path)
    (disk : Disk) : Kept job (job.readBlock z env name disk).1 := by
  unfold TransferJob.readBlock
  split
  · exact ⟨rfl, rfl, rfl, rfl⟩
  · split
    · exact ⟨rfl, rfl, rfl, rfl⟩
    · split <;> exact ⟨rfl, rfl, rfl, rfl⟩

theorem read_kept (z : Zstd) (env : FileTransfer.ReadEnv) (job : TransferJob) (disk : Disk) :
    Kept job (job.read z env disk).1 := by
  unfold TransferJob.read
  split
  · exact ⟨rfl, rfl, rfl, rfl⟩
  · split
    · split
      · exact ⟨rfl, rfl, rfl, rfl⟩
      · exact readBlock_kept z env job _ disk
    · exact readBlock_kept z env job [] disk

theorem setStreamOffset_kept (env : SeekEnv) (job job' : TransferJob) (fileNum : ℕ)
    (offset : UInt64) (disk : Disk)
    (h : (job.setStreamOffset env fileNum offset disk).2 = some job') : Kept job job' := by
  unfold TransferJob.setStreamOffset at h
  split at h
  · exact Option.some.inj h ▸ ⟨rfl, rfl, rfl, rfl⟩
  · split at h
    · cases h
    · split at h
      · exact Option.some.inj h ▸ ⟨rfl, rfl, rfl, rfl⟩
      · split at h
        · exact Option.some.inj h ▸ ⟨rfl, rfl, rfl, rfl⟩
        · split at h <;> exact Option.some.inj h ▸ ⟨rfl, rfl, rfl, rfl⟩

theorem confirm_kept (env : SeekEnv) (r : FileTransferSendConfirmRequest) (job job' : TransferJob)
    (disk : Disk) (h : (job.confirm env r disk).2 = some job') : Kept job job' := by
  unfold TransferJob.confirm at h
  split at h
  · exact Option.some.inj h ▸ ⟨rfl, rfl, rfl, rfl⟩
  · split at h
    · next skip _ =>
      rw [← Option.some.inj h]
      cases skip <;> exact ⟨rfl, rfl, rfl, rfl⟩
    · split at h
      · have hkept := setStreamOffset_kept env _ _ _ _ _ h
        exact ⟨hkept.id, hkept.type, hkept.last, hkept.detection⟩
      · exact Option.some.inj h ▸ ⟨rfl, rfl, rfl, rfl⟩
    · exact Option.some.inj h ▸ ⟨rfl, rfl, rfl, rfl⟩

/-! ### A call on a list -/

theorem readMessages_nonempty {origin : Option ℕ} {job : TransferJob}
    {res : Except String (Option FileTransferBlock)}
    (h : (readMessages origin job res).2 = true) : (readMessages origin job res).1 ≠ [] := by
  unfold readMessages at h ⊢
  split at h
  · cases h
  · cases h
  · split at h
    · next hdone =>
      rw [if_pos hdone]
      split <;> exact List.cons_ne_nil _ _
    · cases h

theorem handleReadJobs_cons {job : ReadJob} (hlast : job.isLastJob = false) (z : Zstd)
    (env : TickEnv) (disk : Disk) (jobs : List ReadJob) {t : Tick}
    (ht : t = tick z env (initJobs env.job disk 1 jobs).2.2 disk job) :
    handleReadJobs z env disk (job :: jobs) =
      if (initJob (env.job 0) disk job).2.2 then
        (if t.removed then (initJobs env.job disk 1 jobs).1
            else t.job :: (initJobs env.job disk 1 jobs).1,
          t.opened ++ (initJobs env.job disk 1 jobs).2.1 ++ t.sent, !t.closed)
      else (t.job :: jobs, t.opened, false) := by
  subst ht
  have hkeeps : (initJob (env.job 0) disk job).1.isLastJob = false :=
    (initDataStream_kept (env.job 0).init job.toTransferJob disk).last.trans hlast
  unfold handleReadJobs tick
  rw [initJobs_cons hlast]
  generalize initJob (env.job 0) disk job = i at hkeeps ⊢
  generalize initJobs env.job disk 1 jobs = others
  obtain ⟨job1, outs1, ok1⟩ := i
  obtain ⟨jobs1, outs2, ok2⟩ := others
  cases ok1 with
  | false => rfl
  | true =>
    cases ok2 with
    | false => simp
    | true =>
      have hread := readFirst_cons hkeeps z env.read disk jobs1
      have hmessages : (readJob z env.read disk job1).2.2 = true →
          (readJob z env.read disk job1).2.1 ≠ [] := readMessages_nonempty
      simp only [if_true, Bool.and_self, hread]
      generalize readJob z env.read disk job1 = r at hmessages ⊢
      obtain ⟨job2, outs3, finished⟩ := r
      cases finished with
      | false =>
        cases outs3 with
        | nil => simp [handleReadJobs.afterRead]
        | cons out outs => cases env.sent <;> simp [handleReadJobs.afterRead]
      | true =>
        cases outs3 with
        | nil => exact absurd rfl (hmessages rfl)
        | cons out outs => cases env.sent <;> simp [handleReadJobs.afterRead, removeJob]

/-! ### The files that were left -/

/-- A generic job over `p` with the list `files`. -/
structure SendsFiles (p : Path) (files : List FileEntry) (job : TransferJob) : Prop where
  generic : job.type = .generic
  source : job.dataSource = .filePath p
  files : job.files = files

/-- All files from `first` on are among those the peer has been told of, or those before the one of
the number `num` are. -/
def Covered (first : ℕ) (files : List FileEntry) (num : Int32) (fates : List (ℕ × Fate)) : Prop :=
  (∀ i, first ≤ i → i < files.length → ∃ fate, (i, fate) ∈ fates) ∨
    asUsize num < files.length ∧ ∀ i, first ≤ i → i < asUsize num → ∃ fate, (i, fate) ∈ fates

/-- The number stays, or moves past a file that the peer has been told of, or has no file. -/
def Moves (files : List FileEntry) (num num' : Int32) (fates : List (ℕ × Fate)) : Prop :=
  num' = num ∨ files.length ≤ asUsize num ∨
    num' = num + 1 ∧ ∃ fate, (asUsize num, fate) ∈ fates

theorem asUsize_add_one {num : Int32} (h : asUsize num + 1 < 2 ^ 31) :
    asUsize (num + 1) = asUsize num + 1 := by
  unfold asUsize at h ⊢
  have hlt := num.toInt_lt
  have hge := num.le_toInt
  have hnonneg : 0 ≤ num.toInt := by omega
  have hsum : (num + 1).toInt = num.toInt + 1 := by
    rw [Int32.toInt_add]
    exact Int.bmod_eq_of_le (by simp; omega) (by simp; omega)
  rw [hsum]
  omega

section Left

variable {p : Path} {files : List FileEntry}

theorem Covered.moves {first : ℕ} {num num' : Int32} {fates fates' : List (ℕ × Fate)}
    (h : Covered first files num fates) (hlen : files.length ≤ 2 ^ 31)
    (hmoves : Moves files num num' fates') : Covered first files num' (fates ++ fates') := by
  have hold {i : ℕ} (hi : ∃ fate, (i, fate) ∈ fates) : ∃ fate, (i, fate) ∈ fates ++ fates' :=
    hi.imp fun fate hfate => List.mem_append_left fates' hfate
  rcases h with hall | ⟨hlt, hbefore⟩
  · exact Or.inl fun i hfirst hi => hold (hall i hfirst hi)
  · rcases hmoves with rfl | hpast | ⟨rfl, fate, hfate⟩
    · exact Or.inr ⟨hlt, fun i hfirst hi => hold (hbefore i hfirst hi)⟩
    · exact absurd hlt (Nat.not_lt.mpr hpast)
    · -- the file that was left is the last one of those before the next
      have hnext (i : ℕ) (hfirst : first ≤ i) (hi : i < asUsize num + 1) :
          ∃ fate, (i, fate) ∈ fates ++ fates' := by
        rcases Nat.lt_succ_iff_lt_or_eq.mp hi with hi | rfl
        · exact hold (hbefore i hfirst hi)
        · exact ⟨fate, List.mem_append_right fates hfate⟩
      by_cases hend : files.length ≤ asUsize num + 1
      · exact Or.inl fun i hfirst hi => hnext i hfirst (Nat.lt_of_lt_of_le hi hend)
      · have hsucc : asUsize (num + 1) = asUsize num + 1 :=
          asUsize_add_one (Nat.lt_of_lt_of_le (Nat.lt_of_not_le hend) hlen)
        refine Or.inr ⟨?_, fun i hfirst hi => hnext i hfirst ?_⟩
        · rw [hsucc]
          exact Nat.lt_of_not_le hend
        · rwa [hsucc] at hi

theorem add_one_ne (num : Int32) : num + 1 ≠ num := by
  intro h
  exact absurd (Int32.add_eq_left.mp h) (by decide)

theorem told_error {job job' : TransferJob} {outs : List FileOut}
    (hnum : job'.fileNum = job.fileNum + 1) (herr : ∃ out ∈ outs, out.isError = true) :
    (asUsize job.fileNum, Fate.reported) ∈ told job job' outs := by
  unfold told
  rw [if_neg (by rw [hnum]; exact add_one_ne _), if_pos (List.any_eq_true.mpr herr)]
  exact List.mem_singleton_self _

theorem initJob_ok (env : JobEnv) (disk : Disk) (job : ReadJob) : (initJob env disk job).2.2 =
    ((job.toTransferJob.initDataStream env.init disk).2.isOk || env.sent) := by
  unfold initJob initMessages
  rcases job.toTransferJob.initDataStream env.init disk with ⟨job', e | digest⟩
  · cases env.sent <;> rfl
  · rfl

theorem initJob_sends (env : JobEnv) (disk : Disk) {job : ReadJob}
    (h : SendsFiles p files job.toTransferJob) :
    SendsFiles p files (initJob env disk job).1.toTransferJob := by
  have hat := FileTransfer.InRange.at_initDataStream h.source disk env.init
  have hkept := initDataStream_kept env.init job.toTransferJob disk
  exact ⟨hkept.type.trans h.generic, hat.source, hat.files.trans h.files⟩

theorem initJob_moves (env : JobEnv) (disk : Disk) {job : ReadJob}
    (h : SendsFiles p files job.toTransferJob) (hok : (initJob env disk job).2.2 = true) :
    Moves files job.fileNum (initJob env disk job).1.fileNum
      (told job.toTransferJob (initJob env disk job).1.toTransferJob
        (initJob env disk job).2.1) := by
  have hat := FileTransfer.InRange.at_initDataStream h.source disk env.init
  cases hopen : (job.toTransferJob.openDataStream env.init.openFile disk).2.isOk with
  | true =>
    refine Or.inl (hat.num.trans ?_)
    rw [hopen]
    rfl
  | false =>
    -- the file could not be opened, and the peer is told
    have hnum : (initJob env disk job).1.fileNum = job.fileNum + 1 := by
      refine hat.num.trans ?_
      rw [hopen]
      rfl
    refine Or.inr (Or.inr ⟨hnum, .reported, told_error hnum ?_⟩)
    unfold initJob initMessages TransferJob.initDataStream at hok ⊢
    rcases hres : job.toTransferJob.openDataStream env.init.openFile disk with ⟨job', e | done⟩
    · rw [hres] at hok
      dsimp only at hok ⊢
      split at hok
      · next hsent =>
        rw [if_pos hsent]
        exact ⟨_, List.mem_append_right _ (List.mem_singleton_self _), rfl⟩
      · cases hok
    · rw [hres] at hopen
      cases hopen

theorem readJob_moves (z : Zstd) (env : FileTransfer.ReadEnv) (disk : Disk) {job : ReadJob}
    (h : SendsFiles p files job.toTransferJob) :
    SendsFiles p files (readJob z env disk job).1.toTransferJob ∧
      Moves files job.fileNum (readJob z env disk job).1.fileNum
        (told job.toTransferJob (readJob z env disk job).1.toTransferJob
          (readJob z env disk job).2.1) := by
  have hat := FileTransfer.InRange.at_read h.source disk z env
  have hkept := read_kept z env job.toTransferJob disk
  refine ⟨⟨hkept.type.trans h.generic, hat.source, hat.files.trans h.files⟩, ?_⟩
  cases hends : FileTransfer.InRange.endsFile job.toTransferJob
      (job.toTransferJob.read z env disk).2 with
  | false =>
    refine Or.inl (hat.num.trans ?_)
    rw [hends]
    rfl
  | true =>
    have hnum : (readJob z env disk job).1.fileNum = job.fileNum + 1 := by
      refine hat.num.trans ?_
      rw [hends]
      rfl
    refine Or.inr (Or.inr ⟨hnum, ?_⟩)
    unfold readJob at hnum ⊢
    generalize job.toTransferJob.read z env disk = r at hends hnum ⊢
    obtain ⟨job', e | block | block⟩ := r
    · exact ⟨.reported, told_error hnum ⟨_, List.mem_singleton_self _, rfl⟩⟩
    · cases hends
    · -- the empty block
      refine ⟨.read, ?_⟩
      have hend : (FileOut.block job.origin block).isEnd = true := hends
      unfold told readMessages
      rw [if_neg (by rw [hnum]; exact add_one_ne _)]
      simp [FileOut.isError, hend]

theorem confirm_moves (env : SeekEnv) (r : FileTransferSendConfirmRequest) (disk : Disk)
    {job job' : TransferJob} (h : SendsFiles p files job)
    (hconfirm : (job.confirm env r disk).2 = some job') :
    SendsFiles p files job' ∧ Moves files job.fileNum job'.fileNum (Sending.skipped job r) := by
  have hat := FileTransfer.InRange.at_confirm h.source disk env r hconfirm
  have hkept := confirm_kept env r job job' disk hconfirm
  refine ⟨⟨hkept.type.trans h.generic, hat.source, hat.files.trans h.files⟩, ?_⟩
  unfold Sending.skipped
  cases hskips : FileTransfer.InRange.skips job r with
  | false =>
    refine Or.inl (hat.num.trans ?_)
    rw [hskips]
    rfl
  | true =>
    refine Or.inr (Or.inr ⟨hat.num.trans ?_, .skipped, List.mem_singleton_self _⟩)
    rw [hskips]
    rfl

end Left

/-! ### Files that are begun -/

/-- The digest of an open file can be taken, and sent. -/
def digestSent (env : InitEnv) (stream : DataStream) (disk : Disk) : Bool :=
  match stream with
  | .fileStream file =>
    env.metadata.isOk && decide (0 ≤ (disk.node file.inode).mtime) && env.sent.isOk
  | .bufStream _ _ => false

/-- The file that the job is at can be begun, as far as that is still to be done, or it is the last
one and cannot be opened. -/
def begins (env : InitEnv) (job : TransferJob) (disk : Disk) : Bool :=
  match job.dataSource, job.currentEntry, job.dataStream with
  | .filePath p, some entry, none =>
    match env.openFile, disk.openRead (pathKey (join p entry.name)) with
    | .ok (), some file => digestSent env (.fileStream file) disk
    | _, _ => decide (job.files.length ≤ asUsize (job.fileNum + 1))
  | .filePath _, some _, some stream =>
    job.fileConfirmed || job.fileIsWaiting || digestSent env stream disk
  | _, _, _ => true

section Begin

variable {p : Path} {files : List FileEntry}

structure Begun (files : List FileEntry) (begins : Bool)
    (r : TransferJob × Except String (Option FileTransferDigest)) : Prop where
  fails : begins = false → r.2.isOk = false ∧ asUsize r.1.fileNum < files.length ∧
    r.1.fileConfirmed = false ∧ r.1.fileIsWaiting = false
  ok : begins = true → files.length ≤ asUsize r.1.fileNum ∨
    r.1.fileConfirmed = true ∨ r.1.fileIsWaiting = true

theorem digestSent_iff (env : InitEnv) {job : TransferJob} {stream : DataStream} (disk : Disk)
    (hstream : job.dataStream = some stream) :
    (job.sendCurrentDigest env disk).isOk = digestSent env stream disk := by
  unfold TransferJob.sendCurrentDigest TransferJob.getCurrentDigest digestSent
  rw [hstream]
  cases stream with
  | bufStream data pos => rfl
  | fileStream file =>
    rcases env.metadata with e | _
    · rfl
    · dsimp only
      by_cases hneg : (disk.node file.inode).mtime < 0
      · rw [if_pos hneg, decide_eq_false (Int64.not_le.mpr hneg)]
        rfl
      · rw [if_neg hneg, decide_eq_true (Int64.not_lt.mp hneg)]
        rcases env.sent with e | _ <;> rfl

section Open

variable {job : TransferJob} (h : SendsFiles p files job) (disk : Disk)

include h

theorem openDataStream_past (openFile : Except String Unit) (hentry : job.currentEntry = none) :
    job.openDataStream openFile disk = ({ job with dataStream := none }, .ok true) := by
  unfold TransferJob.openDataStream
  rw [h.source]
  rw [hentry]

variable {entry : FileEntry} (hentry : job.currentEntry = some entry)

include hentry

theorem openDataStream_again (openFile : Except String Unit) {stream : DataStream}
    (hstream : job.dataStream = some stream) :
    job.openDataStream openFile disk = (job, .ok false) := by
  unfold TransferJob.openDataStream
  rw [h.source]
  rw [hentry]
  exact if_neg (by rw [hstream]; exact Option.some_ne_none stream)

theorem openDataStream_opens (hstream : job.dataStream = none) {file : FileHandle}
    (hfile : disk.openRead (pathKey (join p entry.name)) = some file) :
    job.openDataStream (.ok ()) disk =
      ({ job with
        dataStream := some (.fileStream file)
        fileConfirmed := false
        fileIsWaiting := false }, .ok false) := by
  unfold TransferJob.openDataStream
  rw [h.source]
  rw [hentry]
  dsimp only
  rw [if_pos hstream, hfile]

theorem openDataStream_fails (hstream : job.dataStream = none) {openFile : Except String Unit}
    (hfails : openFile.isOk = false ∨ disk.openRead (pathKey (join p entry.name)) = none) :
    ∃ e, job.openDataStream openFile disk =
      ({ job with
        fileNum := job.fileNum + 1
        fileConfirmed := false
        fileIsWaiting := false }, .error e) := by
  unfold TransferJob.openDataStream
  rw [h.source]
  rw [hentry]
  dsimp only
  rw [if_pos hstream]
  rcases openFile with e | _
  · exact ⟨e, rfl⟩
  · rcases hfails with hfails | hnone
    · cases hfails
    · rw [hnone]
      exact ⟨_, rfl⟩

end Open

theorem begun_of_open {env : InitEnv} {disk : Disk} {job job' : TransferJob} {stream : DataStream}
    (hopen : job.openDataStream env.openFile disk = (job', .ok false))
    (hgeneric : job'.type = .generic) (hdetects : job'.enableOverwriteDetection = true)
    (hstream : job'.dataStream = some stream) (hlt : asUsize job'.fileNum < files.length) :
    Begun files (job'.fileConfirmed || job'.fileIsWaiting || digestSent env stream disk)
      (job.initDataStream env disk) := by
  have hdigest := digestSent_iff env disk hstream
  unfold TransferJob.initDataStream
  rw [hopen]
  dsimp only
  cases hconfirmed : job'.fileConfirmed with
  | true =>
    rw [if_neg (by simp)]
    exact ⟨nofun, fun _ => Or.inr (Or.inl hconfirmed)⟩
  | false =>
    cases hwaiting : job'.fileIsWaiting with
    | true =>
      rw [if_neg (by simp)]
      exact ⟨nofun, fun _ => Or.inr (Or.inr hwaiting)⟩
    | false =>
      rw [if_pos ⟨hgeneric, hdetects, rfl, rfl⟩, ← hdigest]
      rcases job'.sendCurrentDigest env disk with e | digest
      · exact ⟨fun _ => ⟨rfl, hlt, hconfirmed, hwaiting⟩, nofun⟩
      · exact ⟨nofun, fun _ => Or.inr (Or.inr rfl)⟩

theorem initDataStream_begun (env : InitEnv) (disk : Disk) {job : TransferJob}
    (h : SendsFiles p files job) (hdetects : job.enableOverwriteDetection = true) :
    Begun files (begins env job disk) (job.initDataStream env disk) := by
  unfold begins
  rw [h.source]
  cases hentry : job.currentEntry with
  | none =>
    -- there is no file left
    have hinit : job.initDataStream env disk = ({ job with dataStream := none }, .ok none) := by
      unfold TransferJob.initDataStream
      rw [openDataStream_past h disk env.openFile hentry]
    rw [hinit]
    refine ⟨nofun, fun _ => Or.inl ?_⟩
    rw [← h.files]
    exact List.getElem?_eq_none_iff.mp hentry
  | some entry =>
    have hlt : asUsize job.fileNum < files.length := by
      rw [← h.files]
      exact (List.getElem?_eq_some_iff.mp hentry).1
    cases hstream : job.dataStream with
    | some stream =>
      exact begun_of_open (openDataStream_again h disk hentry env.openFile hstream) h.generic
        hdetects hstream hlt
    | none =>
      -- without the file, the job is at the next one
      have hmissing (hfails : env.openFile.isOk = false ∨
          disk.openRead (pathKey (join p entry.name)) = none) :
          Begun files (decide (job.files.length ≤ asUsize (job.fileNum + 1)))
            (job.initDataStream env disk) := by
        obtain ⟨e, hopen⟩ := openDataStream_fails h disk hentry hstream hfails
        unfold TransferJob.initDataStream
        rw [hopen, h.files]
        exact ⟨fun hno => ⟨rfl, Nat.lt_of_not_le (of_decide_eq_false hno), rfl, rfl⟩,
          fun hyes => Or.inl (of_decide_eq_true hyes)⟩
      dsimp only
      split
      · next file hok hfile =>
        have hopen := openDataStream_opens h disk hentry hstream hfile
        rw [← hok] at hopen
        exact begun_of_open hopen h.generic hdetects rfl hlt
      · next hnot =>
        refine hmissing ?_
        rcases hok : env.openFile with e | _
        · exact Or.inl rfl
        · refine Or.inr ?_
          cases hfile : disk.openRead (pathKey (join p entry.name)) with
          | none => rfl
          | some file => exact absurd hfile (hnot file hok)

/-! ### Jobs that are finished -/

theorem readBlock_ne_none (z : Zstd) (env : FileTransfer.ReadEnv) {job : TransferJob}
    (hsource : job.dataSource = .filePath p) (name : Path) (disk : Disk) :
    (job.readBlock z env name disk).2 ≠ .ok none := by
  unfold TransferJob.readBlock
  cases job.dataStream with
  | none => exact nofun
  | some stream =>
    dsimp only
    rcases FileTransfer.fillBuffer env disk FileTransfer.bufSize 0 [] stream with
      e | ⟨_ | ⟨b, bs⟩, stream'⟩
    · exact nofun
    · rw [hsource]
      exact nofun
    · exact nofun

theorem read_none (z : Zstd) (env : FileTransfer.ReadEnv) (disk : Disk) {job job' : TransferJob}
    (h : SendsFiles p files job) (hread : job.read z env disk = (job', .ok none)) :
    job'.fileNum = job.fileNum ∧ job'.fileConfirmed = job.fileConfirmed ∧
      job'.fileIsWaiting = job.fileIsWaiting ∧
      (job.enableOverwriteDetection = true ∧ job.fileConfirmed = false ∨
        files.length ≤ asUsize job.fileNum) := by
  unfold TransferJob.read at hread
  split at hread
  · next hwaits =>
    obtain ⟨rfl, -⟩ := Prod.mk.inj hread
    refine ⟨rfl, rfl, rfl, Or.inl ⟨hwaits.2.1, ?_⟩⟩
    exact Bool.not_eq_true' _ ▸ hwaits.2.2
  · rw [h.source] at hread
    dsimp only at hread
    split at hread
    · next hentry =>
      obtain ⟨rfl, -⟩ := Prod.mk.inj hread
      refine ⟨rfl, rfl, rfl, Or.inr ?_⟩
      rw [← h.files]
      exact List.getElem?_eq_none_iff.mp hentry
    · -- a file that is read to its end gives the empty block
      exact absurd (congrArg Prod.snd hread) (readBlock_ne_none z env h.source _ disk)

theorem readJob_finished (z : Zstd) (env : FileTransfer.ReadEnv) (disk : Disk) {job : ReadJob}
    (h : SendsFiles p files job.toTransferJob) (hfinished : (readJob z env disk job).2.2 = true) :
    (readJob z env disk job).1.fileNum = job.fileNum ∧
      (job.enableOverwriteDetection = true ∧ job.fileConfirmed = false ∧
          job.fileIsWaiting = false ∨ files.length ≤ asUsize job.fileNum) := by
  unfold readJob readMessages at hfinished ⊢
  have hkept := read_kept z env job.toTransferJob disk
  rcases hread : job.toTransferJob.read z env disk with ⟨job', e | block | _⟩
  · rw [hread] at hfinished
    cases hfinished
  · obtain ⟨hnum, hconfirmed, hwaiting, hcases⟩ := read_none z env disk h hread
    refine ⟨hnum, ?_⟩
    rw [hread] at hfinished hkept
    dsimp only at hfinished hkept
    rcases hcases with ⟨hdetects, hnot⟩ | hpast
    · have hdone : job'.jobCompleted = true := by
        split at hfinished
        · next hdone => exact hdone
        · cases hfinished
      unfold TransferJob.jobCompleted at hdone
      rw [hkept.detection, hdetects, hconfirmed, hwaiting, hnot] at hdone
      exact Or.inl ⟨hdetects, hnot, by simpa using hdone⟩
    · exact Or.inr hpast
  · rw [hread] at hfinished
    cases hfinished

theorem readJob_of_flags (z : Zstd) (env : FileTransfer.ReadEnv) (disk : Disk) {job : ReadJob}
    (hgeneric : job.type = .generic) (hdetects : job.enableOverwriteDetection = true)
    (hconfirmed : job.fileConfirmed = false) (hwaiting : job.fileIsWaiting = false) :
    (readJob z env disk job).2.2 = true := by
  have hread : job.toTransferJob.read z env disk = (job.toTransferJob, .ok none) := by
    exact if_pos ⟨hgeneric, hdetects, by rw [hconfirmed]; rfl⟩
  have hdone : job.toTransferJob.jobCompleted = true := by
    unfold TransferJob.jobCompleted
    rw [hconfirmed, hwaiting]
    exact Bool.or_true _
  unfold readJob readMessages
  rw [hread]
  dsimp only
  rw [if_pos hdone]
  split <;> rfl

end Begin

/-! ### Runs -/

namespace Sending

variable (z : Zstd)

/-- Every file from `first` on was read, skipped or reported. -/
structure Whole (first : ℕ) (s : Sending) : Prop where
  reached : s.job.files.length ≤ asUsize s.job.fileNum
  told : ∀ i, first ≤ i → i < s.job.files.length → ∃ fate, (i, fate) ∈ s.fates

/-- When the step sends `FileTransferDone` or removes the job, the job is whole. -/
def EndsWhole (first : ℕ) (s : Sending) (ev : SendingEvent) : Prop :=
  s.removed = false →
    ((∃ n, FileOut.done s.job.id n ∈ (sending z).out s ev) ∨
      ((sending z).next s ev).removed = true) →
    ((sending z).next s ev).Whole first

/-- In a call that reads from the job the file can be begun, or the peer is not asked for one, or a
message cannot be sent. -/
def Begins (s : Sending) : SendingEvent → Prop
  | .tick env others disk =>
    s.removed = true ∨ s.closed = true ∨ s.job.enableOverwriteDetection = false ∨
      begins (env.job 0).init s.job.toTransferJob disk = true ∨
      (env.job 0).sent = false ∨ others = false ∨ env.sent = false
  | _ => True

instance (s : Sending) : ∀ ev, Decidable (s.Begins ev)
  | .tick _ _ _ => inferInstanceAs (Decidable (_ ∨ _ ∨ _ ∨ _ ∨ _ ∨ _ ∨ _))
  | .init _ _ => isTrue trivial
  | .confirm _ _ _ => isTrue trivial

structure Inv (p : Path) (files : List FileEntry) (first : ℕ) (s : Sending) : Prop where
  sends : SendsFiles p files s.job.toTransferJob
  covered : s.closed = true ∨ Covered first files s.job.fileNum s.fates

variable {z} {p : Path} {files : List FileEntry} {first : ℕ}

theorem inv_start {job : ReadJob} (h : SendsFiles p files job.toTransferJob) :
    Inv p files (asUsize job.fileNum) (start job) := by
  refine ⟨h, Or.inr ?_⟩
  by_cases hlt : asUsize job.fileNum < files.length
  · exact Or.inr ⟨hlt, fun i hfirst hi => absurd hi (Nat.not_lt.mpr hfirst)⟩
  · exact Or.inl fun i hfirst hi => absurd (Nat.lt_of_le_of_lt hfirst hi) hlt

theorem step_of_stopped {s : Sending} (h : s.removed = true ∨ s.closed = true)
    (ev : SendingEvent) : (sending z).step s ev = (s, []) :=
  if_pos (Bool.or_eq_true_iff.mpr h)

theorem step_of_going {s : Sending} (h : ¬ (s.removed = true ∨ s.closed = true))
    (ev : SendingEvent) : (sending z).step s ev = s.step z ev :=
  if_neg fun hor => h (Bool.or_eq_true_iff.mp hor)

end Sending

section Ticks

variable {z : Zstd} {p : Path} {files : List FileEntry} (env : TickEnv) (others : Bool)
  (disk : Disk) {job : ReadJob} (h : SendsFiles p files job.toTransferJob)

include h

theorem tick_covered {first : ℕ} {fates : List (ℕ × Fate)} (hlen : files.length ≤ 2 ^ 31)
    (hcovered : Covered first files job.fileNum fates) :
    SendsFiles p files (tick z env others disk job).job.toTransferJob ∧
      ((tick z env others disk job).closed = true ∨
        Covered first files (tick z env others disk job).job.fileNum
          (fates ++ (tick z env others disk job).fates)) := by
  have hinit := initJob_moves (env.job 0) disk h
  have hsends := initJob_sends (env.job 0) disk h
  have hread := readJob_moves z env.read disk hsends
  unfold tick
  dsimp only
  split
  · next hok =>
    obtain ⟨hok, -⟩ := Bool.and_eq_true_iff.mp hok
    split
    · exact ⟨hread.1, Or.inl rfl⟩
    · refine ⟨hread.1, Or.inr ?_⟩
      rw [← List.append_assoc]
      exact (hcovered.moves hlen (hinit hok)).moves hlen hread.2
  · exact ⟨hsends, Or.inl rfl⟩

theorem tick_removed (hbegins : job.enableOverwriteDetection = false ∨
      begins (env.job 0).init job.toTransferJob disk = true ∨
      (env.job 0).sent = false ∨ others = false ∨ env.sent = false)
    (hremoved : (tick z env others disk job).removed = true) :
    files.length ≤ asUsize (tick z env others disk job).job.fileNum := by
  have hok := initJob_ok (env.job 0) disk job
  have hkept := initDataStream_kept (env.job 0).init job.toTransferJob disk
  unfold tick at hremoved ⊢
  dsimp only at hremoved ⊢
  split at hremoved
  · next hsent =>
    obtain ⟨hinit, hothers⟩ := Bool.and_eq_true_iff.mp hsent
    rw [if_pos hsent]
    split at hremoved
    · cases hremoved
    · next hread =>
      rw [if_neg hread]
      obtain ⟨hnum, hcases⟩ := readJob_finished z env.read disk
        (initJob_sends (env.job 0) disk h) hremoved
      rw [hnum]
      rcases hcases with ⟨hdetects, hconfirmed, hwaiting⟩ | hpast
      · -- no flag is set, so the file was not begun
        have hdetects' : job.enableOverwriteDetection = true :=
          hkept.detection.symm.trans hdetects
        have hbegun := initDataStream_begun (env.job 0).init disk h hdetects'
        cases hb : begins (env.job 0).init job.toTransferJob disk with
        | true =>
          rcases hbegun.ok hb with hpast | hflag | hflag
          · exact hpast
          · exact absurd (hconfirmed.symm.trans hflag) Bool.false_ne_true
          · exact absurd (hwaiting.symm.trans hflag) Bool.false_ne_true
        | false =>
          exfalso
          have hsends : (env.job 0).sent = true := by
            rw [(hbegun.fails hb).1, hinit] at hok
            exact hok.symm
          have hnonempty : (readJob z env.read disk (initJob (env.job 0) disk job).1).2.1 ≠ [] :=
            readMessages_nonempty hremoved
          have henv : env.sent = true := by
            cases henv : env.sent with
            | true => rfl
            | false => simp [henv, hnonempty] at hread
          rw [hdetects', hb, hsends, hothers, henv] at hbegins
          simp at hbegins
      · exact hpast
  · cases hremoved

theorem tick_not_begun (hdetects : job.enableOverwriteDetection = true)
    (hbegins : begins (env.job 0).init job.toTransferJob disk = false)
    (hsent : (env.job 0).sent = true) (hothers : others = true) (hread : env.sent = true) :
    (tick z env others disk job).removed = true ∧
      asUsize (tick z env others disk job).job.fileNum < files.length := by
  have hkept := initDataStream_kept (env.job 0).init job.toTransferJob disk
  obtain ⟨-, hlt, hconfirmed, hwaiting⟩ :=
    (initDataStream_begun (env.job 0).init disk h hdetects).fails hbegins
  have hinit : (initJob (env.job 0) disk job).2.2 = true := by
    rw [initJob_ok, hsent]
    exact Bool.or_true _
  have hfinished : (readJob z env.read disk (initJob (env.job 0) disk job).1).2.2 = true :=
    readJob_of_flags z env.read disk (hkept.type.trans h.generic)
      (hkept.detection.trans hdetects) hconfirmed hwaiting
  have hnum := (readJob_finished z env.read disk (initJob_sends (env.job 0) disk h) hfinished).1
  unfold tick
  rw [if_pos (by rw [hinit, hothers]; rfl), if_neg (by rw [hread]; simp)]
  refine ⟨hfinished, ?_⟩
  rw [hnum]
  exact hlt

omit h

theorem done_not_mem_initJob (env : JobEnv) (disk : Disk) (job : ReadJob) (id n : Int32) :
    FileOut.done id n ∉ (initJob env disk job).2.1 := by
  unfold initJob initMessages jobAccesses
  intro hdone
  rcases List.mem_append.mp hdone with hdone | hdone
  · split at hdone
    · cases List.mem_singleton.mp hdone
    · cases hdone
  · split at hdone
    · obtain ⟨_, -, heq⟩ := List.mem_map.mp hdone
      cases heq
    · split at hdone
      · cases List.mem_singleton.mp hdone
      · cases hdone

theorem removed_of_done {id n : Int32}
    (hdone : FileOut.done id n ∈ (tick z env others disk job).opened ++
      (tick z env others disk job).sent) : (tick z env others disk job).removed = true := by
  have hopened := done_not_mem_initJob (env.job 0) disk job id n
  unfold tick at hdone ⊢
  dsimp only at hdone ⊢
  split at hdone
  · next hok =>
    rw [if_pos hok]
    split at hdone
    · rw [List.append_nil] at hdone
      exact absurd hdone hopened
    · next hsent =>
      rw [if_neg hsent]
      have hread := (List.mem_append.mp hdone).resolve_left hopened
      unfold readJob readMessages at hread ⊢
      dsimp only at hread ⊢
      split at hread
      · cases List.mem_singleton.mp hread
      · cases List.mem_singleton.mp hread
      · split at hread
        · next hcompleted =>
          rw [if_pos hcompleted]
          split <;> rfl
        · cases hread
  · rw [List.append_nil] at hdone
    exact absurd hdone hopened

theorem not_closed_of_removed (hremoved : (tick z env others disk job).removed = true) :
    (tick z env others disk job).closed = false := by
  unfold tick at hremoved ⊢
  dsimp only at hremoved ⊢
  split at hremoved
  · next hok =>
    rw [if_pos hok]
    split at hremoved
    · cases hremoved
    · next hsent => rw [if_neg hsent]
  · cases hremoved

end Ticks

namespace Sending

variable {z : Zstd} {p : Path} {files : List FileEntry} {first : ℕ}

theorem inv_next (hlen : files.length ≤ 2 ^ 31) (s : Sending) (ev : SendingEvent)
    (h : Inv p files first s) : Inv p files first ((sending z).next s ev) := by
  show Inv p files first ((sending z).step s ev).1
  by_cases hstopped : s.removed = true ∨ s.closed = true
  · rw [step_of_stopped hstopped]
    exact h
  · rw [step_of_going hstopped]
    have hcovered := h.covered.resolve_left fun hclosed => hstopped (Or.inr hclosed)
    cases ev with
    | tick env others disk =>
      obtain ⟨hsends, hcov⟩ := tick_covered env others disk h.sends hlen hcovered
      exact ⟨hsends, hcov⟩
    | init env disk =>
      refine ⟨initJob_sends env disk h.sends, ?_⟩
      cases hok : (initJob env disk s.job).2.2 with
      | false =>
        refine Or.inl ?_
        show (!(initJob env disk s.job).2.2) = true
        rw [hok]
        rfl
      | true => exact Or.inr (hcovered.moves hlen (initJob_moves env disk h.sends hok))
    | confirm env r disk =>
      unfold step
      dsimp only
      split
      · next job hconfirm =>
        obtain ⟨hsends, hmoves⟩ := confirm_moves env r disk h.sends hconfirm
        exact ⟨hsends, Or.inr (hcovered.moves hlen hmoves)⟩
      · exact ⟨h.sends, Or.inl rfl⟩

theorem tick_whole_iff (z : Zstd) (env : TickEnv) (others : Bool) (disk : Disk)
    (hlen : files.length ≤ 2 ^ 31) {s : Sending} (hsends : SendsFiles p files s.job.toTransferJob)
    (hcovered : Covered first files s.job.fileNum s.fates) :
    ((tick z env others disk s.job).removed = true →
        Whole first (s.step z (.tick env others disk)).1) ↔
      s.job.enableOverwriteDetection = false ∨
        begins (env.job 0).init s.job.toTransferJob disk = true ∨
        (env.job 0).sent = false ∨ others = false ∨ env.sent = false := by
  obtain ⟨hsends', hcovered'⟩ := tick_covered env others disk hsends hlen hcovered
  constructor
  · intro hwhole
    by_contra hnot
    rw [not_or, not_or, not_or, not_or] at hnot
    obtain ⟨hdetects, hbegins, hsent, hothers, hread⟩ := hnot
    obtain ⟨hremoved, hlt⟩ := tick_not_begun env others disk hsends
      (eq_true_of_ne_false hdetects) (eq_false_of_ne_true hbegins)
      (eq_true_of_ne_false hsent) (eq_true_of_ne_false hothers) (eq_true_of_ne_false hread)
    have hreached := (hwhole hremoved).reached
    have hfiles : (s.step z (.tick env others disk)).1.job.files = files := hsends'.files
    rw [hfiles] at hreached
    exact absurd hlt (Nat.not_lt.mpr hreached)
  · intro hbegins hremoved
    have hreached := tick_removed env others disk hsends hbegins hremoved
    have hfiles : (s.step z (.tick env others disk)).1.job.files = files := hsends'.files
    refine ⟨by rw [hfiles]; exact hreached, fun i hfirst hi => ?_⟩
    rw [hfiles] at hi
    rcases hcovered' with hclosed | hall | ⟨hlt, -⟩
    · rw [not_closed_of_removed env others disk hremoved] at hclosed
      cases hclosed
    · exact hall i hfirst hi
    · exact absurd hlt (Nat.not_lt.mpr hreached)

theorem endsWhole_iff_begins (hlen : files.length ≤ 2 ^ 31) {s : Sending} (h : Inv p files first s)
    (ev : SendingEvent) : s.EndsWhole z first ev ↔ s.Begins ev := by
  have hends : s.EndsWhole z first ev ↔ (s.removed = false →
    (∃ n, FileOut.done s.job.id n ∈ ((sending z).step s ev).2) ∨
      ((sending z).step s ev).1.removed = true → ((sending z).step s ev).1.Whole first) := Iff.rfl
  rw [hends]
  by_cases hstopped : s.removed = true ∨ s.closed = true
  · -- nothing is sent any more
    rw [step_of_stopped hstopped]
    refine iff_of_true (fun hremoved hends => ?_) ?_
    · rcases hends with ⟨n, hdone⟩ | hends
      · cases hdone
      · exact absurd (hremoved.symm.trans hends) Bool.false_ne_true
    · cases ev with
      | tick env others disk => exact hstopped.imp_right Or.inl
      | _ => trivial
  · rw [step_of_going hstopped]
    obtain ⟨hremoved, hclosed⟩ := not_or.mp hstopped
    have hcovered := h.covered.resolve_left hclosed
    cases ev with
    | tick env others disk =>
      have hwhole := tick_whole_iff z env others disk hlen h.sends hcovered
      constructor
      · intro hends
        refine Or.inr (Or.inr (hwhole.mp fun hgone => ?_))
        exact hends (eq_false_of_ne_true hremoved) (Or.inr hgone)
      · rintro hbegins - hends
        refine hwhole.mpr ((hbegins.resolve_left hremoved).resolve_left hclosed) ?_
        exact hends.elim (fun ⟨_, hdone⟩ => removed_of_done env others disk hdone) id
    | init env disk =>
      refine iff_of_true (fun _ hends => ?_) trivial
      rcases hends with ⟨n, hdone⟩ | hgone
      · exact absurd hdone (done_not_mem_initJob env disk s.job _ _)
      · cases hgone
    | confirm env r disk =>
      refine iff_of_true (fun _ hends => ?_) trivial
      unfold step at hends
      dsimp only at hends
      split at hends
      · rcases hends with ⟨n, hdone⟩ | hgone
        · cases hdone
        · cases hgone
      · rcases hends with ⟨n, hdone⟩ | hgone
        · cases hdone
        · exact absurd hgone hremoved

end Sending

/-- **A job is only ended when every file was read, skipped or reported**, exactly when in each call
that reads from it the file it is at can be begun. -/
theorem ends_whole_iff (z : Zstd) {p : Path} {files : List FileEntry} {job : ReadJob}
    (h : SendsFiles p files job.toTransferJob) (hlen : files.length ≤ 2 ^ 31)
    (evs : List SendingEvent) :
    (sending z).Meets (Sending.EndsWhole z (asUsize job.fileNum)) (.start job) evs ↔
      (sending z).Meets Sending.Begins (.start job) evs := by
  have hinv := ((sending z).meets_true (Sending.start job) evs).inv_trace (Sending.inv_start h)
    fun s ev _ hs => Sending.inv_next hlen s ev hs
  constructor
  · intro hmeets pe hpe
    exact (Sending.endsWhole_iff_begins hlen (hinv pe hpe) pe.2).mp (hmeets pe hpe)
  · intro hmeets pe hpe
    exact (Sending.endsWhole_iff_begins hlen (hinv pe hpe) pe.2).mpr (hmeets pe hpe)

/-- A job over two files, which the peer is to confirm. -/
def twoFiles : ReadJob where
  toTransferJob := { TransferJob.newWrite 1 .generic (.filePath ['d']) 0 true with
    files := [⟨['a'], 3, 0⟩, ⟨['b'], 5, 0⟩] }
  origin := none

theorem twoFiles_sends : SendsFiles ['d'] twoFiles.files twoFiles.toTransferJob := ⟨rfl, rfl, rfl⟩

def TickEnv.quiet : TickEnv := ⟨fun _ => ⟨.good, true⟩, ⟨fun _ => .ok 0⟩, true⟩

/-- The first file is gone when it is to be opened: the same call reports it, and says that the job
is done. -/
theorem missing_file_ends_job : ¬ (sending Zstd.storing).Meets
    (Sending.EndsWhole Zstd.storing (asUsize twoFiles.fileNum)) (.start twoFiles)
    [.tick .quiet true FileSystem.empty] := by
  intro hmeets
  have hends := hmeets (.start twoFiles, .tick .quiet true FileSystem.empty) List.mem_cons_self
  have hwhole := hends rfl (Or.inr (by decide))
  exact absurd hwhole.reached (by decide)

def twoOnDisk : Disk :=
  (FileSystem.writeFile FileSystem.empty (pathKey "d/a".toList) [1, 2, 3]).writeFile
    (pathKey "d/b".toList) [4, 5, 6, 7, 8]

/-- The first file is confirmed and read, and the second one skipped. -/
def readOneSkipOne : List SendingEvent :=
  [.tick .quiet true twoOnDisk, .confirm ⟨.ok (), true, true, true⟩ ⟨1, 0, some (.skip false)⟩
      twoOnDisk, .tick .quiet true twoOnDisk, .tick .quiet true twoOnDisk,
    .tick .quiet true twoOnDisk, .tick .quiet true twoOnDisk, .tick .quiet true twoOnDisk,
    .confirm ⟨.ok (), true, true, true⟩ ⟨1, 1, some (.skip true)⟩ twoOnDisk,
    .tick .quiet true twoOnDisk]

theorem ends_whole_iff_twoFiles : (sending Zstd.storing).Meets
    (Sending.EndsWhole Zstd.storing (asUsize twoFiles.fileNum)) (.start twoFiles) readOneSkipOne ∧
    ((sending Zstd.storing).run (.start twoFiles) readOneSkipOne).removed = true :=
  ⟨(ends_whole_iff Zstd.storing twoFiles_sends (by decide) readOneSkipOne).mpr
    (by decide +kernel), by decide +kernel⟩

end LibRustdesk.Desktop
