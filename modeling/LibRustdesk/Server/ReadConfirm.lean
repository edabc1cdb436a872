import LibRustdesk.Server.CmReadJobs

/-!
# Confirmations on their way to the connection manager

Where the connection manager reads the files, a confirmation of the peer takes two hops, and the job
goes on meanwhile: at the end of a file, by an error, or because an earlier confirmation skips one.
`handle_fs` makes a new request of it with the number that the job has by then, so that the
check in `confirm`, which is for late confirmations, always passes.

* `reading` — a job of the connection manager: the ticks that come to it, and the confirmations.
* `confirmForRead_eq_iff` — what a confirmation leaves as it is.
* `respects_iff_timely` — **a confirmation of a file changes the job only while it waits for that
  file**, exactly when each comes in time, or has no effect.
-/

namespace LibRustdesk.Desktop

open FileTransfer (TransferJob Disk SeekEnv asUsize)
open FileTransfer.TransferJob (offsetStream)
open FileTransfer.InRange (requestForRead)

/-- `FS::SendConfirmForRead`, but for the ids. -/
structure ReadConfirm where
  fileNum : Int32
  skip : Bool
  offsetBlk : UInt32

/-- What `handle_fs` does with the job of the id. The number is not looked at. -/
def confirmForRead (env : SeekEnv) (r : ReadConfirm) (disk : Disk) (job : TransferJob) :
    Option TransferJob :=
  (job.confirm env (requestForRead job r.skip r.offsetBlk) disk).2

/-! ### A job -/

/-- A job of the connection manager; it is gone once it is finished or has panicked. -/
structure Reading where
  job : TransferJob
  gone : Bool

inductive ReadingEvent
  /-- A tick comes to the job. -/
  | tick (env : TickEnv) (disk : Disk)
  | confirm (env : SeekEnv) (r : ReadConfirm) (disk : Disk)

namespace Reading

def start (job : TransferJob) : Reading := ⟨job, false⟩

def step (z : Zstd) (s : Reading) : ReadingEvent → Reading × List CmOut
  | .tick env disk =>
    let (jobs, outs, finished) := cmReadJobsTick z env disk 0 [s.job]
    (⟨jobs.headD s.job, !finished.isEmpty⟩, outs)
  | .confirm env r disk =>
    match confirmForRead env r disk s.job with
    | some job => (⟨job, false⟩, [])
    | none => ({ s with gone := true }, [])

def WaitsFor (job : TransferJob) (fileNum : Int32) : Prop :=
  fileNum = job.fileNum ∧ job.fileIsWaiting = true

instance (job : TransferJob) (fileNum : Int32) : Decidable (WaitsFor job fileNum) :=
  inferInstanceAs (Decidable (_ ∧ _))

/-- A confirmation changes the job only while it waits for the file. -/
def Respects (s : Reading) : ReadingEvent → Prop
  | .tick _ _ => True
  | .confirm env r disk =>
    s.gone = false → confirmForRead env r disk s.job ≠ some s.job → WaitsFor s.job r.fileNum

end Reading

def reading (z : Zstd) : Machine Reading ReadingEvent CmOut where
  step s ev := if s.gone then (s, []) else s.step z ev

/-! ### What has no effect -/

/-- An offset is looked for: in a file that can be opened, or beyond the list, which panics. -/
def seeks (env : SeekEnv) (disk : Disk) (job : TransferJob) : Bool :=
  match job.dataSource with
  | .memoryCursor _ _ => false
  | .filePath p =>
    match job.currentEntry with
    | none => true
    | some entry =>
      match job.resolveEntryPath env.onDisk p entry.name with
      | none => false
      | some path => (offsetStream env path disk).2.isSome && env.seek

/-- A confirmation that finds nothing to do: the file is confirmed, and no offset is looked for. -/
def Idle (env : SeekEnv) (r : ReadConfirm) (disk : Disk) (job : TransferJob) : Prop :=
  r.skip = false ∧ job.fileConfirmed = true ∧ job.fileSkipped = false ∧
    (r.offsetBlk = 0 ∨ seeks env disk job = false)

instance (env : SeekEnv) (r : ReadConfirm) (disk : Disk) (job : TransferJob) :
    Decidable (Idle env r disk job) := inferInstanceAs (Decidable (_ ∧ _))

theorem setStreamOffset_eq_iff (env : SeekEnv) (disk : Disk) (job : TransferJob) {offset : UInt64}
    (hpos : offset ≠ 0) :
    (job.setStreamOffset env (asUsize job.fileNum) offset disk).2 = some job ↔
      seeks env disk job = false := by
  unfold TransferJob.setStreamOffset seeks TransferJob.currentEntry
  cases job.dataSource with
  | memoryCursor data pos => exact iff_of_true rfl rfl
  | filePath p =>
    cases job.files[asUsize job.fileNum]? with
    | none => exact iff_of_false nofun nofun
    | some entry =>
      dsimp only
      cases job.resolveEntryPath env.onDisk p entry.name with
      | none => exact iff_of_true rfl rfl
      | some path =>
        dsimp only
        rcases offsetStream env path disk with ⟨disk', _ | file⟩
        · exact iff_of_true rfl rfl
        · cases env.seek with
          | false => exact iff_of_true rfl rfl
          | true =>
            -- the number of bytes that were transferred grows
            refine iff_of_false (fun h => ?_) nofun
            have hsame := congrArg TransferJob.transferred (Option.some.inj h)
            exact hpos (by simpa using hsame)

theorem setStreamOffset_flags {env : SeekEnv} {disk : Disk} {job job' : TransferJob} {n : ℕ}
    {offset : UInt64} (h : (job.setStreamOffset env n offset disk).2 = some job') :
    job'.fileConfirmed = job.fileConfirmed ∧ job'.fileSkipped = job.fileSkipped := by
  unfold TransferJob.setStreamOffset at h
  split at h
  · exact Option.some.inj h ▸ ⟨rfl, rfl⟩
  · split at h
    · cases h
    · split at h
      · exact Option.some.inj h ▸ ⟨rfl, rfl⟩
      · split at h
        · exact Option.some.inj h ▸ ⟨rfl, rfl⟩
        · split at h <;> exact Option.some.inj h ▸ ⟨rfl, rfl⟩

theorem setFileConfirmed_eq_iff (job : TransferJob) :
    job.setFileConfirmed true = job ↔ job.fileConfirmed = true ∧ job.fileSkipped = false := by
  constructor
  · intro h
    rw [← h]
    exact ⟨rfl, rfl⟩
  · rintro ⟨hconfirmed, hskipped⟩
    unfold TransferJob.setFileConfirmed
    rw [← hconfirmed, ← hskipped]

theorem confirmForRead_eq_iff (env : SeekEnv) (r : ReadConfirm) (disk : Disk) (job : TransferJob) :
    confirmForRead env r disk job = some job ↔ Idle env r disk job := by
  unfold confirmForRead requestForRead TransferJob.confirm Idle
  rw [if_neg (not_not_intro rfl)]
  cases hskip : r.skip with
  | true =>
    -- a skip goes on to the next file
    refine iff_of_false (fun h => ?_) nofun
    exact add_one_ne _ (congrArg TransferJob.fileNum (Option.some.inj h))
  | false =>
    rw [if_neg Bool.false_ne_true]
    dsimp only
    rw [and_iff_right rfl, ← and_assoc, ← setFileConfirmed_eq_iff]
    by_cases hzero : r.offsetBlk = 0
    · rw [hzero, if_neg (by decide)]
      exact ⟨fun h => ⟨Option.some.inj h, Or.inl rfl⟩, fun h => congrArg some h.1⟩
    · have hpos : r.offsetBlk > 0 := UInt32.pos_iff_ne_zero.mpr hzero
      have hoffset : r.offsetBlk.toUInt64 ≠ 0 := by
        intro h
        refine hzero (UInt32.toNat_inj.mp ?_)
        have hnat := congrArg UInt64.toNat h
        rwa [UInt32.toNat_toUInt64] at hnat
      rw [if_pos hpos, or_iff_right hzero]
      constructor
      · intro h
        -- the flags were set before, so that nothing but the offset is done
        have hconfirmed : job.setFileConfirmed true = job :=
          (setFileConfirmed_eq_iff job).mpr (setStreamOffset_flags h)
        rw [hconfirmed] at h
        exact ⟨hconfirmed, (setStreamOffset_eq_iff env disk job hoffset).mp h⟩
      · rintro ⟨hconfirmed, hseeks⟩
        rw [hconfirmed]
        exact (setStreamOffset_eq_iff env disk job hoffset).mpr hseeks

/-! ### In time -/

/-- A confirmation that comes in time, or finds nothing to do. -/
def Reading.Timely (s : Reading) : ReadingEvent → Prop
  | .tick _ _ => True
  | .confirm env r disk =>
    s.gone = false → Reading.WaitsFor s.job r.fileNum ∨ Idle env r disk s.job

/-- **A confirmation of a file changes the job only while it waits for that file**, exactly when
each confirmation comes in time, or has no effect. -/
theorem respects_iff_timely (z : Zstd) (job : TransferJob) (evs : List ReadingEvent) :
    (reading z).Meets Reading.Respects (.start job) evs ↔
      (reading z).Meets Reading.Timely (.start job) evs := by
  have hstep (s : Reading) (ev : ReadingEvent) : s.Respects ev ↔ s.Timely ev := by
    cases ev with
    | tick env disk => exact Iff.rfl
    | confirm env r disk =>
      refine imp_congr_right fun _ => ?_
      rw [← confirmForRead_eq_iff, or_iff_not_imp_right]
  exact ⟨fun h => h.imp fun s ev => (hstep s ev).mp, fun h => h.imp fun s ev => (hstep s ev).mpr⟩

/-- The peer skips the first of two files, and the confirmation comes twice: the second file, which
was not even begun, is skipped as well. -/
theorem late_skip_skips_next : ¬ (reading Zstd.storing).Meets Reading.Respects
    (.start twoFiles.toTransferJob)
    [.tick .quiet twoOnDisk, .confirm ⟨.ok (), true, true, true⟩ ⟨0, true, 0⟩ twoOnDisk,
      .confirm ⟨.ok (), true, true, true⟩ ⟨0, true, 0⟩ twoOnDisk] := by
  intro h
  have hlast := (Machine.meets_cons.mp (Machine.meets_cons.mp (Machine.meets_cons.mp h).2).2).1
  refine absurd (hlast (by decide +kernel) fun hsame => ?_) (by decide +kernel)
  exact absurd ((confirmForRead_eq_iff _ _ _ _).mp hsame).1 (by decide)

end LibRustdesk.Desktop
