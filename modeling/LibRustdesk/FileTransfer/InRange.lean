import LibRustdesk.FileTransfer.Read
import LibRustdesk.Framework.Machine

/-!
# The index of a confirmation

`confirm` with a positive offset goes to `set_stream_offset`, which indexes `files[file_num]` and
panics when there is no such file. The only check before it is that the number is the job's own,
and the job's own number is what the peer asked the transfer to begin at, one more for every file
that ended since, and past the list after the last file.

* `life` — everything that is done with a job over a path, in any order, while anything else changes
  the disk: `init_data_stream`, `read`, `write`, confirmations of the peer and those that the
  connection manager makes with `job.file_num()`, and new file lists. A panic leaves no job.
* `Place` — the number that a transfer has come to, and the length of its list, by what happened:
  `Note`s of files that ended, of files that a block began, and of lists.
* `never_panics_iff` — no confirmation of a run panics exactly when none with a positive offset
  comes for the number the transfer has come to while that is no index of the list.

`skip_then_resume_panics` is a run that does panic: a peer skips the only file and then resumes the
one behind it.
-/

namespace LibRustdesk.FileTransfer.InRange

/-! ### The life of a job -/

inductive Step
  | init (env : InitEnv)
  | initForCm (env : InitEnv)
  | read (env : ReadEnv)
  | block (env : WriteEnv) (block : FileTransferBlock)
  | confirm (env : SeekEnv) (r : FileTransferSendConfirmRequest)
  /-- `SendConfirmForRead` of the connection manager. -/
  | confirmForRead (env : SeekEnv) (skip : Bool) (offsetBlk : UInt32)
  | setFiles (onDisk : Path → Except String Unit) (files : List FileEntry)
  | setDigest (size modified : UInt64)
  | modifyTime (env : FinishEnv)
  | removeDownloadFile (env : CancelEnv)
  /-- The disk is changed by something else. -/
  | disk (disk : Disk)

/-- `init_data_stream_for_cm`, and the digest if the caller is to send one. -/
def initDataStreamForCm (env : InitEnv) (job : TransferJob) (disk : Disk) :
    TransferJob × Except String (Option (UInt64 × UInt64)) :=
  match job.openDataStream env.openFile disk with
  | (job, .error e) => (job, .error e)
  | (job, .ok true) => (job, .ok none)
  | (job, .ok false) =>
    if job.type = .generic ∧ job.enableOverwriteDetection ∧ !job.fileConfirmed ∧
        !job.fileIsWaiting then
      match job.getCurrentDigest env.metadata disk with
      | .error e => (job, .error e)
      | .ok digest => (job.setFileIsWaiting true, .ok (some digest))
    else (job, .ok none)

/-- The request of `SendConfirmForRead`: the number is the job's own. -/
def requestForRead (job : TransferJob) (skip : Bool) (offsetBlk : UInt32) :
    FileTransferSendConfirmRequest :=
  ⟨job.id, job.fileNum, some (if skip then .skip true else .offsetBlk offsetBlk)⟩

/-- A job and the disk after a step; no job is left by a panic. -/
def perform (z : Zstd) (job : TransferJob) (disk : Disk) : Step → Option (TransferJob × Disk)
  | .init env => some ((job.initDataStream env disk).1, disk)
  | .initForCm env => some ((initDataStreamForCm env job disk).1, disk)
  | .read env => some ((job.read z env disk).1, disk)
  | .block env block =>
    let r := job.write z env block disk
    some (r.2.1, r.1)
  | .confirm env r =>
    let c := job.confirm env r disk
    c.2.map fun job => (job, c.1)
  | .confirmForRead env skip offsetBlk =>
    let c := job.confirm env (requestForRead job skip offsetBlk) disk
    c.2.map fun job => (job, c.1)
  | .setFiles onDisk files =>
    match job.setFiles onDisk files with
    | .ok job => some (job, disk)
    | .error _ => some (job, disk)
  | .setDigest size modified => some (job.setDigest size modified, disk)
  | .modifyTime env => some (job, job.modifyTime env disk)
  | .removeDownloadFile env => some (job, job.removeDownloadFile env disk)
  | .disk disk => some (job, disk)

/-! ### The number a transfer has come to -/

/-- What a step means to the number: a file ended (at its end, by an error, or because it is
skipped), a block began a file, or there is a new list. -/
inductive Note
  | ended
  | began (fileNum : Int32)
  | listed (len : ℕ)

def synced (env : WriteEnv) (job : TransferJob) : Bool :=
  match job.dataStream with
  | some (.fileStream _) => env.syncAll.isOk
  | _ => true

/-- A block of a listed file that is not open begins it, once the file before it is synced. -/
def begins (env : WriteEnv) (job : TransferJob) (block : FileTransferBlock) : Bool :=
  decide (block.id = job.id) && decide (asUsize block.fileNum < job.files.length) &&
    decide (asUsize block.fileNum ≠ asUsize job.fileNum ∨ job.dataStream = none) && synced env job

/-- A `read` ended the file: it sent the empty block, or failed on the open stream. -/
def endsFile (job : TransferJob) (result : Except String (Option FileTransferBlock)) : Bool :=
  match result with
  | .ok (some block) => block.data.isEmpty && !block.compressed
  | .ok none => false
  | .error _ => job.dataStream.isSome

def skips (job : TransferJob) (r : FileTransferSendConfirmRequest) : Bool :=
  r.fileNum == job.fileNum && r.union == some (.skip true)

def endedIf (b : Bool) : List Note := if b then [.ended] else []

def notes (z : Zstd) (job : TransferJob) (disk : Disk) : Step → List Note
  | .init env | .initForCm env =>
    endedIf !(job.openDataStream env.openFile disk).2.isOk
  | .read env => endedIf (endsFile job (job.read z env disk).2)
  | .block env block => if begins env job block then [.began block.fileNum] else []
  | .confirm _ r => endedIf (skips job r)
  | .confirmForRead _ skip _ => endedIf skip
  | .setFiles onDisk files =>
    if (job.setFiles onDisk files).isOk then [.listed files.length] else []
  | .setDigest _ _ | .modifyTime _ | .removeDownloadFile _ | .disk _ => []

def life (z : Zstd) : Machine (Option (TransferJob × Disk)) Step Note where
  step
    | none, _ => (none, [])
    | some (job, disk), e => (perform z job disk e, notes z job disk e)

/-- The number a transfer has come to and the length of its list. -/
structure Place where
  num : Int32
  len : ℕ
  deriving DecidableEq

def Place.note (pl : Place) : Note → Place
  | .ended => { pl with num := pl.num + 1 }
  | .began fileNum => { pl with num := fileNum }
  | .listed len => { pl with len := len }

/-- Where a transfer that was at `pl` is after `l`. -/
def Place.after (pl : Place) (l : List Note) : Place := l.foldl Place.note pl

/-- No file of the list has the number. A negative number is behind every list. -/
def Place.Outside (pl : Place) : Prop := pl.len ≤ asUsize pl.num

instance (pl : Place) : Decidable pl.Outside := inferInstanceAs (Decidable (_ ≤ _))

/-- The confirmation resumes the file the transfer has come to, and there is none. -/
def Step.Wild (pl : Place) : Step → Prop
  | .confirm _ r => pl.Outside ∧ r.fileNum = pl.num ∧
    ∃ offset, r.union = some (.offsetBlk offset) ∧ 0 < offset
  | .confirmForRead _ skip offsetBlk => pl.Outside ∧ skip = false ∧ 0 < offsetBlk
  | _ => False

def place (job : TransferJob) : Place := ⟨job.fileNum, job.files.length⟩

/-! ### What each function does to the number -/

/-- A job over `p` with the list `files` has come to the number `num`. -/
structure At (p : Path) (files : List FileEntry) (num : Int32) (job : TransferJob) : Prop where
  source : job.dataSource = .filePath p
  files : job.files = files
  num : job.fileNum = num

def numAfter (ended : Bool) (num : Int32) : Int32 := if ended then num + 1 else num

section Functions

variable {job : TransferJob} {p : Path} (hsource : job.dataSource = .filePath p) (disk : Disk)

include hsource

theorem at_openDataStream (openFile : Except String Unit) :
    At p job.files
      (numAfter (!(job.openDataStream openFile disk).2.isOk) job.fileNum)
      (job.openDataStream openFile disk).1 := by
  unfold TransferJob.openDataStream
  rw [hsource]
  dsimp only
  split
  · exact ⟨rfl, rfl, rfl⟩
  · split
    · split <;> exact ⟨rfl, rfl, rfl⟩
    · exact ⟨hsource, rfl, rfl⟩

theorem at_initDataStream (env : InitEnv) :
    At p job.files
      (numAfter (!(job.openDataStream env.openFile disk).2.isOk) job.fileNum)
      (job.initDataStream env disk).1 := by
  have hopen := at_openDataStream hsource disk env.openFile
  generalize numAfter _ _ = num at hopen ⊢
  unfold TransferJob.initDataStream
  generalize job.openDataStream env.openFile disk = r at hopen ⊢
  split
  · exact hopen
  · exact hopen
  · split
    · split
      · exact hopen
      · exact ⟨hopen.source, hopen.files, hopen.num⟩
    · exact hopen

theorem at_initDataStreamForCm (env : InitEnv) :
    At p job.files
      (numAfter (!(job.openDataStream env.openFile disk).2.isOk) job.fileNum)
      (initDataStreamForCm env job disk).1 := by
  have hopen := at_openDataStream hsource disk env.openFile
  generalize numAfter _ _ = num at hopen ⊢
  unfold initDataStreamForCm
  generalize job.openDataStream env.openFile disk = r at hopen ⊢
  split
  · exact hopen
  · exact hopen
  · split
    · split
      · exact hopen
      · exact ⟨hopen.source, hopen.files, hopen.num⟩
    · exact hopen

variable (z : Zstd)

theorem at_readBlock (env : ReadEnv) (name : Path) :
    At p job.files
      (numAfter (endsFile job (job.readBlock z env name disk).2) job.fileNum)
      (job.readBlock z env name disk).1 := by
  unfold TransferJob.readBlock
  cases hstream : job.dataStream with
  | none =>
    have hnone : endsFile job (Except.error "data stream is None") = false := by
      unfold endsFile
      rw [hstream]
      rfl
    rw [hnone]
    exact ⟨hsource, rfl, rfl⟩
  | some stream =>
    dsimp only
    cases fillBuffer env disk bufSize 0 [] stream with
    | error e =>
      have hsome : endsFile job (Except.error e) = true := by
        unfold endsFile
        rw [hstream]
        rfl
      rw [hsome]
      exact ⟨hsource, rfl, rfl⟩
    | ok r =>
      obtain ⟨buf, stream'⟩ := r
      rw [hsource]
      cases buf with
      | nil => exact ⟨hsource, rfl, rfl⟩
      | cons b bs =>
        -- a block of some bytes is compressed, or has them
        dsimp only
        cases !isCompressedFile name && decide ((compress z (b :: bs)).length < (b :: bs).length)
        with
        | true =>
          have hno : endsFile job (.ok (some ⟨job.id, job.fileNum, compress z (b :: bs), true⟩)) =
              false := Bool.and_false _
          exact ⟨rfl, rfl, (congrArg (numAfter · job.fileNum) hno).symm⟩
        | false => exact ⟨rfl, rfl, rfl⟩

theorem at_read (env : ReadEnv) :
    At p job.files
      (numAfter (endsFile job (job.read z env disk).2) job.fileNum)
      (job.read z env disk).1 := by
  unfold TransferJob.read
  rw [hsource]
  split
  · exact ⟨hsource, rfl, rfl⟩
  dsimp only
  split
  · exact ⟨rfl, rfl, rfl⟩
  · exact at_readBlock hsource disk z env _

omit hsource in
theorem at_createFile {files : List FileEntry} {num : Int32} (h : At p files num job)
    (env : WriteEnv) (path : Path) (digest : Option Path) :
    At p files num (job.createFile env path digest disk).2.1 := by
  unfold TransferJob.createFile
  dsimp only
  split
  · exact h
  · split
    · exact h
    · exact ⟨h.source, h.files, h.num⟩

theorem at_switchFile (env : WriteEnv) (fileNum : Int32) (entry : FileEntry) :
    At p job.files (cond (synced env job) fileNum job.fileNum)
      (job.switchFile env p fileNum entry disk).2.1 := by
  unfold TransferJob.switchFile synced
  -- without a file there is nothing to sync
  rcases hstream : job.dataStream with _ | ⟨file | _⟩
  case some.fileStream =>
    cases env.syncAll with
    | error e => exact ⟨hsource, rfl, rfl⟩
    | ok u =>
      dsimp only
      split
      · exact ⟨hsource, rfl, rfl⟩
      · apply at_createFile
        exact ⟨hsource, rfl, rfl⟩
  all_goals
    dsimp only
    split
    · exact ⟨hsource, rfl, rfl⟩
    · apply at_createFile
      exact ⟨hsource, rfl, rfl⟩

theorem at_openBlock (env : WriteEnv) (block : FileTransferBlock) :
    At p job.files (cond (begins env job block) block.fileNum job.fileNum)
      (job.openBlock env block disk).2.1 := by
  unfold TransferJob.openBlock begins
  split
  · next hid =>
    rw [decide_eq_false hid]
    exact ⟨hsource, rfl, rfl⟩
  next hid =>
  rw [decide_eq_true (not_not.mp hid), hsource]
  dsimp only
  split
  · next hnone =>
    rw [decide_eq_false (Nat.not_lt.mpr (List.getElem?_eq_none_iff.mp hnone))]
    exact ⟨hsource, rfl, rfl⟩
  next entry hentry =>
  rw [decide_eq_true (List.getElem?_eq_some_iff.mp hentry).choose]
  split
  · next hswitch =>
    rw [decide_eq_true hswitch]
    exact at_switchFile hsource disk env block.fileNum entry
  · next hswitch =>
    rw [decide_eq_false hswitch]
    exact ⟨hsource, rfl, rfl⟩

theorem at_write (env : WriteEnv) (block : FileTransferBlock) :
    At p job.files (cond (begins env job block) block.fileNum job.fileNum)
      (job.write z env block disk).2.1 := by
  have hopen := at_openBlock hsource disk env block
  unfold TransferJob.write
  generalize job.openBlock env block disk = r at hopen ⊢
  obtain ⟨disk', job', result⟩ := r
  cases result with
  | error e => exact hopen
  | ok u =>
    dsimp only at hopen ⊢
    unfold TransferJob.writeBlock
    split
    · exact hopen
    · dsimp only
      split <;> exact ⟨hopen.source, hopen.files, hopen.num⟩

variable (env : SeekEnv)

theorem setStreamOffset_eq_none_iff (n : ℕ) (offset : UInt64) :
    (job.setStreamOffset env n offset disk).2 = none ↔ job.files.length ≤ n := by
  unfold TransferJob.setStreamOffset
  rw [hsource]
  dsimp only
  split
  · next hnone => exact ⟨fun _ => List.getElem?_eq_none_iff.mp hnone, fun _ => rfl⟩
  · next entry hentry =>
    have hlt := (List.getElem?_eq_some_iff.mp hentry).choose
    refine ⟨fun h => ?_, fun h => absurd hlt (Nat.not_lt.mpr h)⟩
    split at h
    · cases h
    · split at h
      · cases h
      · split at h <;> cases h

variable {job' : TransferJob}

theorem at_setStreamOffset (n : ℕ) (offset : UInt64)
    (h : (job.setStreamOffset env n offset disk).2 = some job') :
    At p job.files job.fileNum job' := by
  unfold TransferJob.setStreamOffset at h
  rw [hsource] at h
  dsimp only at h
  split at h
  · cases h
  · split at h
    · exact Option.some.inj h ▸ ⟨hsource, rfl, rfl⟩
    · split at h
      · exact Option.some.inj h ▸ ⟨hsource, rfl, rfl⟩
      · split at h
        · exact Option.some.inj h ▸ ⟨rfl, rfl, rfl⟩
        · exact Option.some.inj h ▸ ⟨hsource, rfl, rfl⟩

variable (r : FileTransferSendConfirmRequest)

theorem confirm_eq_none_iff :
    (job.confirm env r disk).2 = none ↔ (Step.confirm env r).Wild (place job) := by
  unfold TransferJob.confirm Step.Wild Place.Outside place
  split
  · next hne => exact ⟨nofun, fun h => absurd h.2.1.symm hne⟩
  next hnum =>
  have hnum : job.fileNum = r.fileNum := not_not.mp hnum
  split
  · next s hunion => exact ⟨nofun, fun ⟨_, _, o, ho, _⟩ => by rw [hunion] at ho; cases ho⟩
  · next offset hunion =>
    dsimp only
    split
    · next hpos =>
      have hconfirmed : (job.setFileConfirmed true).dataSource = .filePath p := hsource
      rw [setStreamOffset_eq_none_iff hconfirmed, ← hnum]
      exact ⟨fun h => ⟨h, rfl, offset, hunion, hpos⟩, And.left⟩
    · next hpos =>
      refine ⟨nofun, fun ⟨_, _, o, ho, hlt⟩ => absurd hlt ?_⟩
      rw [hunion] at ho
      cases ho
      exact hpos
  · next hunion => exact ⟨nofun, fun ⟨_, _, o, ho, _⟩ => by rw [hunion] at ho; cases ho⟩

theorem at_confirm (h : (job.confirm env r disk).2 = some job') : At p job.files
    (numAfter (skips job r) job.fileNum) job' := by
  unfold TransferJob.confirm at h
  unfold skips
  split at h
  · next hne =>
    have hno : (r.fileNum == job.fileNum) = false := beq_false_of_ne (Ne.symm hne)
    rw [hno]
    exact Option.some.inj h ▸ ⟨hsource, rfl, rfl⟩
  next hnum =>
  have hself : (r.fileNum == job.fileNum) = true := beq_iff_eq.mpr (not_not.mp hnum).symm
  rw [hself, Bool.true_and]
  split at h
  · next s hunion =>
    rw [hunion, ← Option.some.inj h]
    cases s <;> exact ⟨hsource, rfl, rfl⟩
  · next offset hunion =>
    rw [hunion]
    split at h
    · have hconfirmed : (job.setFileConfirmed true).dataSource = .filePath p := hsource
      exact at_setStreamOffset hconfirmed disk env _ _ h
    · exact Option.some.inj h ▸ ⟨hsource, rfl, rfl⟩
  · next hunion =>
    rw [hunion]
    exact Option.some.inj h ▸ ⟨hsource, rfl, rfl⟩

theorem at_setFiles {onDisk : Path → Except String Unit} {files : List FileEntry}
    (h : job.setFiles onDisk files = .ok job') : At p files job.fileNum job' := by
  unfold TransferJob.setFiles at h
  rw [hsource] at h
  cases hnames : TransferJob.validateTransferFileNames files with
  | error e => rw [hnames] at h; cases h
  | ok u =>
    rw [hnames] at h
    dsimp only [Except.bind, bind, pure, Except.pure] at h
    split at h
    · cases h
    · exact Except.ok.inj h ▸ ⟨rfl, rfl, rfl⟩

omit hsource in
theorem At.place_eq {b : Bool} (h : At p job.files (numAfter b job.fileNum) job') : job'.dataSource
    = .filePath p ∧ place job' = (place job).after (endedIf b) := by
  refine ⟨h.source, ?_⟩
  unfold place
  rw [h.files, h.num]
  cases b <;> rfl

theorem perform_cases (e : Step) :
    (perform z job disk e = none ↔ e.Wild (place job)) ∧
      ∀ next, perform z job disk e = some next → next.1.dataSource = .filePath p ∧
        place next.1 = (place job).after (notes z job disk e) := by
  cases e with
  | init env =>
    refine ⟨⟨nofun, nofun⟩, fun next h => ?_⟩
    rw [← Option.some.inj h]
    exact (at_initDataStream hsource disk env).place_eq
  | initForCm env =>
    refine ⟨⟨nofun, nofun⟩, fun next h => ?_⟩
    rw [← Option.some.inj h]
    exact (at_initDataStreamForCm hsource disk env).place_eq
  | read env =>
    refine ⟨⟨nofun, nofun⟩, fun next h => ?_⟩
    rw [← Option.some.inj h]
    exact (at_read hsource disk z env).place_eq
  | block env block =>
    refine ⟨⟨nofun, nofun⟩, fun next h => ?_⟩
    rw [← Option.some.inj h]
    have hwrite := at_write hsource disk z env block
    refine ⟨hwrite.source, ?_⟩
    unfold place notes
    dsimp only
    rw [hwrite.files, hwrite.num]
    cases begins env job block <;> rfl
  | confirm env r =>
    refine ⟨Option.map_eq_none_iff.trans (confirm_eq_none_iff hsource disk env r), fun next h => ?_⟩
    obtain ⟨job', hjob', rfl⟩ := Option.map_eq_some_iff.mp h
    exact (at_confirm hsource disk env r hjob').place_eq
  | confirmForRead env skip offsetBlk =>
    have hwild : (Step.confirm env (requestForRead job skip offsetBlk)).Wild (place job) ↔
        (Step.confirmForRead env skip offsetBlk).Wild (place job) := by
      cases skip with
      | true => exact ⟨fun ⟨_, _, _, ho, _⟩ => (by cases ho), fun ⟨_, h, _⟩ => (by cases h)⟩
      | false =>
        refine ⟨fun ⟨hout, _, o, ho, hpos⟩ => ⟨hout, rfl, ?_⟩,
          fun ⟨hout, _, hpos⟩ => ⟨hout, rfl, offsetBlk, rfl, hpos⟩⟩
        cases ho
        exact hpos
    have hskips : skips job (requestForRead job skip offsetBlk) = skip := by
      unfold skips requestForRead
      rw [beq_self_eq_true, Bool.true_and]
      cases skip <;> rfl
    refine ⟨Option.map_eq_none_iff.trans ((confirm_eq_none_iff hsource disk env _).trans hwild),
      fun next h => ?_⟩
    obtain ⟨job', hjob', rfl⟩ := Option.map_eq_some_iff.mp h
    have hat := at_confirm hsource disk env _ hjob'
    rw [hskips] at hat
    exact hat.place_eq
  | setFiles onDisk files =>
    unfold perform notes
    dsimp only
    cases hset : job.setFiles onDisk files with
    | error e =>
      exact ⟨⟨nofun, nofun⟩, fun next h => Option.some.inj h ▸ ⟨hsource, rfl⟩⟩
    | ok job' =>
      refine ⟨⟨nofun, nofun⟩, fun next h => ?_⟩
      have hat := at_setFiles hsource hset
      rw [← Option.some.inj h]
      refine ⟨hat.source, ?_⟩
      unfold place
      rw [hat.files, hat.num]
      rfl
  | setDigest size modified | modifyTime env | removeDownloadFile env | disk d =>
    exact ⟨⟨nofun, nofun⟩, fun next h => Option.some.inj h ▸ ⟨hsource, rfl⟩⟩

end Functions

/-! ### Every run -/

theorem run_none (z : Zstd) (es : List Step) : (life z).run none es = none := by
  induction es with
  | nil => rfl
  | cons e es ih => exact ih

theorem forall_split_cons {α : Type} {P : List α → α → Prop} {a : α} {l : List α} :
    (∀ pre e post, a :: l = pre ++ e :: post → P pre e) ↔
      P [] a ∧ ∀ pre e post, l = pre ++ e :: post → P (a :: pre) e := by
  constructor
  · intro h
    exact ⟨h [] a l rfl, fun pre e post hl => h (a :: pre) e post (by rw [hl]; rfl)⟩
  · rintro ⟨ha, hl⟩ pre e post heq
    cases pre with
    | nil => exact (List.cons.inj heq).1 ▸ ha
    | cons b pre =>
      obtain ⟨rfl, hrest⟩ := List.cons.inj heq
      exact hl pre e post hrest

/-- **When no confirmation panics.** A transfer over a path goes on without a panic exactly when no
confirmation with a positive offset comes for the number it has come to while that is no index of
its list. It began at a number, and comes to the next with each file that ends since then, or since
the last file that a block began. -/
theorem never_panics_iff (z : Zstd) {start : TransferJob} {p : Path}
    (hsource : start.dataSource = .filePath p) (disk : Disk) (es : List Step) :
    (life z).run (some (start, disk)) es ≠ none ↔
      ∀ pre e post, es = pre ++ e :: post →
        ¬ e.Wild ((place start).after ((life z).outputs (some (start, disk)) pre)) := by
  induction es generalizing start disk with
  | nil => exact ⟨fun _ pre e post h => absurd h (by simp), fun _ => Option.some_ne_none _⟩
  | cons e es ih =>
    obtain ⟨hnone, hsome⟩ := perform_cases hsource disk z e
    rw [forall_split_cons, Machine.run_cons]
    have hnext : (life z).next (some (start, disk)) e = perform z start disk e := rfl
    rw [hnext]
    cases hperform : perform z start disk e with
    | none =>
      -- the panic is the confirmation's doing
      rw [run_none]
      exact ⟨fun h => absurd rfl h, fun h => absurd (hnone.mp hperform) h.1⟩
    | some next =>
      obtain ⟨job', disk'⟩ := next
      obtain ⟨hsource', hplace⟩ := hsome _ hperform
      have hcalm : ¬ e.Wild (place start) := fun h => by
        rw [hnone.mpr h] at hperform
        cases hperform
      have houtputs (pre : List Step) :
          (place start).after ((life z).outputs (some (start, disk)) (e :: pre)) =
            (place job').after ((life z).outputs (some (job', disk')) pre) := by
        rw [Machine.outputs_cons, hnext, hperform, hplace]
        exact List.foldl_append
      rw [ih hsource' disk']
      refine ⟨fun h => ⟨hcalm, fun pre e' post hl => ?_⟩, fun h pre e' post hl => ?_⟩
      · rw [houtputs]
        exact h pre e' post hl
      · rw [← houtputs]
        exact h.2 pre e' post hl

/-- A job over the one file of a list, before anything. -/
def oneFile : TransferJob :=
  { TransferJob.newWrite 1 .generic (.filePath ['d']) 0 true with files := [⟨[], 3, 0⟩] }

/-- A peer that skips the only file and then resumes the next one. -/
def skipThenResume : List Step :=
  [.confirm ⟨.ok (), true, true, true⟩ ⟨1, 0, some (.skip true)⟩,
    .confirm ⟨.ok (), true, true, true⟩ ⟨1, 1, some (.offsetBlk 1)⟩]

/-- The second confirmation names the number behind the list, which is the job's own. -/
theorem skip_then_resume_panics :
    (life .storing).run (some (oneFile, .empty)) skipThenResume = none := by
  decide +kernel

/-- The first one alone is none that panics. -/
theorem never_panics_skip :
    ¬ (Step.confirm ⟨.ok (), true, true, true⟩ ⟨1, 0, some (.skip true)⟩).Wild (place oneFile) :=
  (never_panics_iff .storing (p := ['d']) rfl .empty (skipThenResume.take 1)).mp
    (by decide +kernel) [] _ [] rfl

end LibRustdesk.FileTransfer.InRange
