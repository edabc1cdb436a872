import LibRustdesk.Server.SendingJob

/-!
# What the connection manager says of its read jobs

`handle_read_jobs_tick` with the `ipc::Data` it sends to the connection: the digests, blocks and
errors of its jobs. `handleReadJobsTick` leaves them out, and is the same otherwise.
-/

namespace LibRustdesk.Desktop

open FileTransfer (TransferJob FileTransferBlock Disk InitEnv)
open FileTransfer.InRange (initDataStreamForCm)

/-- The `ipc::Data` about a read job. -/
inductive CmOut
  | digest (id fileNum : Int32) (lastModified fileSize : UInt64) (isResume : Bool)
  | block (block : FileTransferBlock)
  | done (id fileNum : Int32)
  | error (id : Int32) (err : String) (fileNum : Int32)
  deriving DecidableEq

def initReadJobForCm (env : InitEnv) (job : TransferJob) (disk : Disk) :
    TransferJob × Except String (List CmOut) :=
  match initDataStreamForCm env job disk with
  | (job, .error e) => (job, .error e)
  | (job, .ok (some (lastModified, fileSize))) =>
    (job, .ok [.digest job.id job.fileNum lastModified fileSize job.isResume])
  | (job, .ok none) => (job, .ok [])

/-- `handle_read_jobs_tick`, from the job at `i` on: the jobs, what is sent, and the ids of the jobs
that are finished. -/
def cmReadJobsTick (z : Zstd) (env : TickEnv) (disk : Disk) (i : ℕ) :
    List TransferJob → List TransferJob × List CmOut × List Int32
  | [] => ([], [], [])
  | job :: jobs =>
    if job.isLastJob then
      let (jobs, outs, finished) := cmReadJobsTick z env disk (i + 1) jobs
      (job :: jobs, outs, finished)
    else
      match initReadJobForCm (env.job i).init job disk with
      | (job', .error e) =>
        let (jobs, outs, finished) := cmReadJobsTick z env disk (i + 1) jobs
        (job' :: jobs, .error job'.id e job'.fileNum :: outs, job'.id :: finished)
      | (job', .ok digest) =>
        match job'.read z env.read disk with
        | (job'', .error e) =>
          (job'' :: jobs, digest ++ [.error job''.id e job''.fileNum], [job''.id])
        | (job'', .ok (some block)) => (job'' :: jobs, digest ++ [.block block], [])
        | (job'', .ok none) =>
          if job''.jobCompleted then
            let out : CmOut :=
              match job''.jobError with
              | some err => .error job''.id err job''.fileNum
              | none => .done job''.id job''.fileNum
            (job'' :: jobs, digest ++ [out], [job''.id])
          else (job'' :: jobs, digest, [])

/-! ### The same jobs -/

theorem initDataStreamForCm_eq (env : InitEnv) (job : TransferJob) (disk : Disk) :
    (initDataStreamForCm env job disk).1 =
        (job.initDataStream { env with sent := .ok () } disk).1 ∧
      ((initDataStreamForCm env job disk).2.map fun _ => ()) =
        (job.initDataStream { env with sent := .ok () } disk).2.map fun _ => () := by
  unfold initDataStreamForCm TransferJob.initDataStream
  dsimp only
  rcases job.openDataStream env.openFile disk with ⟨job', e | _ | _⟩
  · exact ⟨rfl, rfl⟩
  · dsimp only
    split
    · unfold TransferJob.sendCurrentDigest
      dsimp only
      rcases job'.getCurrentDigest env.metadata disk with e | ⟨lastModified, fileSize⟩
      · exact ⟨rfl, rfl⟩
      · exact ⟨rfl, rfl⟩
    · exact ⟨rfl, rfl⟩
  · exact ⟨rfl, rfl⟩

theorem initReadJobForCm_eq (env : InitEnv) (job : TransferJob) (disk : Disk) :
    (initReadJobForCm env job disk).1 =
        (job.initDataStream { env with sent := .ok () } disk).1 ∧
      ((initReadJobForCm env job disk).2.map fun _ => ()) =
        (job.initDataStream { env with sent := .ok () } disk).2.map fun _ => () := by
  rw [← (initDataStreamForCm_eq env job disk).1, ← (initDataStreamForCm_eq env job disk).2]
  unfold initReadJobForCm
  rcases initDataStreamForCm env job disk with ⟨job', e | _ | digest⟩ <;> exact ⟨rfl, rfl⟩

/-- **The jobs** that are left, and those that are finished, are those of `handleReadJobsTick`. -/
theorem cmReadJobsTick_jobs (z : Zstd) (env : TickEnv) (disk : Disk) (i : ℕ)
    (jobs : List TransferJob) :
    (cmReadJobsTick z env disk i jobs).1 = (handleReadJobsTick z env disk i jobs).1 ∧
      (cmReadJobsTick z env disk i jobs).2.2 = (handleReadJobsTick z env disk i jobs).2.2 := by
  induction jobs generalizing i with
  | nil => exact ⟨rfl, rfl⟩
  | cons job jobs ih =>
    obtain ⟨hjobs, hfinished⟩ := ih (i + 1)
    unfold cmReadJobsTick handleReadJobsTick
    by_cases hlast : job.isLastJob = true
    · rw [if_pos hlast, if_pos hlast]
      exact ⟨congrArg (job :: ·) hjobs, hfinished⟩
    · rw [if_neg hlast, if_neg hlast]
      obtain ⟨hjob, hres⟩ := initReadJobForCm_eq (env.job i).init job disk
      have hid := (initDataStream_kept { (env.job i).init with sent := .ok () } job disk).id
      generalize initReadJobForCm (env.job i).init job disk = r at hjob hres ⊢
      generalize job.initDataStream { (env.job i).init with sent := .ok () } disk = r'
        at hjob hres hid ⊢
      obtain ⟨job', res⟩ := r
      obtain ⟨job'', res'⟩ := r'
      obtain rfl : job' = job'' := hjob
      cases res with
      | error e =>
        cases res' with
        | ok digest => cases hres
        | error e' =>
          dsimp only at hid ⊢
          rw [hid]
          exact ⟨congrArg (job' :: ·) hjobs, congrArg (job.id :: ·) hfinished⟩
      | ok outs =>
        cases res' with
        | error e => cases hres
        | ok digest =>
          have hread := (read_kept z env.read job' disk).id.trans hid
          dsimp only at hread ⊢
          generalize job'.read z env.read disk = r at hread ⊢
          obtain ⟨read, e | block | _⟩ := r
          · exact ⟨rfl, congrArg ([·]) hread⟩
          · dsimp only
            split
            · exact ⟨rfl, congrArg ([·]) hread⟩
            · exact ⟨rfl, rfl⟩
          · exact ⟨rfl, rfl⟩

end LibRustdesk.Desktop
