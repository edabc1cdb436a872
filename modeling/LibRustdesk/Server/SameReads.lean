import LibRustdesk.Server.JobDialogue
import LibRustdesk.Server.PrintJobs
import LibRustdesk.Server.ReadConfirm

/-!
# Two ways to read the same job

A connection reads the files that are asked for itself (`handle_read_jobs`), or has its connection
manager do so (`handle_read_jobs_tick`). Both are to be the same. The first one opens the files of
all jobs at each call, and the second one that of the job it reads. A confirmation is handed on to
the connection manager without the number of its file.

Of a list of jobs one is marked, and followed until its last message, whatever jobs there are beside
it. What was sent and received for it are the turns of a dialogue. A confirmation that says nothing
about the file that the job is at is no turn.

* `networkTick`, `managerTick` — the two functions on lists with a mark. `networkTick_eq` and
  `managerTick_eq` forget the mark.
* `listing` — calls, requests, new jobs and jobs that are cancelled, in any order.
* `Caller.Tick`, `Caller.Asks` — what is needed of one of the two ways.
* `same_if_named` — **what is sent for a job is the same**, in runs without errors of the disk,
  where each confirmation in the connection manager is for the file that the job is at, or has no
  effect.
-/

namespace LibRustdesk.Desktop.SameReads

open FileTransfer (Path FileEntry TransferJob FileTransferSendConfirmRequest Disk ReadEnv
  InitEnv)
open JobDialogue (digestOut readOuts Served served whole seekGood party Ends Ready Sim)

/-! ### Lists with a mark -/

/-- A job or a message; it is marked when it is of the job that is followed. -/
structure Followed (α : Type) where
  item : α
  mark : Bool

section Marks

variable {α β : Type}

def forget (fs : List (Followed α)) : List α := fs.map Followed.item

def marked (fs : List (Followed α)) : List α := (fs.filter Followed.mark).map Followed.item

def withMark (mark : Bool) (outs : List α) : List (Followed α) := outs.map fun out => ⟨out, mark⟩

/-- `remove_job`. -/
def dropJob (jobId : α → Int32) (id : Int32) (fs : List (Followed α)) : List (Followed α) :=
  ((removeJob (fun f => jobId f.item) id fs).map Prod.snd).getD fs

structure Ticked (α : Type) where
  jobs : List (Followed α)
  outs : List (Followed CmOut)
  /-- A call for the job that is followed has failed. -/
  failed : Bool

end Marks

/-! ### The connection -/

def jobEnv : JobEnv := ⟨.good, true⟩

/-- Every call succeeds, but for what a file may do when it is read. -/
def tickEnv (read : ReadEnv) : TickEnv := ⟨fun _ => jobEnv, read, true⟩

/-- A message about a job, as the connection manager sends it. -/
def cmOut : FileOut → Option CmOut
  | .digest digest => some (digestOut digest)
  | .block _ block => some (.block block)
  | .done id fileNum => some (.done id fileNum)
  | .error id err fileNum => some (.error id err fileNum)
  | _ => none

/-- `init_jobs`. -/
def initFollowed (disk : Disk) : List (Followed ReadJob) → Ticked ReadJob
  | [] => ⟨[], [], false⟩
  | f :: fs =>
    let rest := initFollowed disk fs
    if f.item.isLastJob then ⟨f :: rest.jobs, rest.outs, rest.failed⟩
    else
      let i := initJob jobEnv disk f.item
      ⟨⟨i.1, f.mark⟩ :: rest.jobs, withMark f.mark (i.2.1.filterMap cmOut) ++ rest.outs,
        f.mark && !(f.item.toTransferJob.initDataStream .good disk).2.isOk || rest.failed⟩

/-- The first job is read: what is left, and the id of the job if it is finished. -/
def readFollowed (z : Zstd) (read : ReadEnv) (disk : Disk) :
    List (Followed ReadJob) → Ticked ReadJob × Option Int32
  | [] => (⟨[], [], false⟩, none)
  | f :: fs =>
    if f.item.isLastJob then
      let rest := readFollowed z read disk fs
      (⟨f :: rest.1.jobs, rest.1.outs, rest.1.failed⟩, rest.2)
    else
      let r := readJob z read disk f.item
      (⟨⟨r.1, f.mark && !r.2.2⟩ :: fs, withMark f.mark (r.2.1.filterMap cmOut),
          f.mark && !(f.item.toTransferJob.read z read disk).2.isOk⟩,
        if r.2.2 then some r.1.id else none)

/-- `handle_read_jobs`. -/
def networkTick (z : Zstd) (disk : Disk) (read : ReadEnv) (fs : List (Followed ReadJob)) :
    Ticked ReadJob :=
  let i := initFollowed disk fs
  let r := readFollowed z read disk i.jobs
  ⟨match r.2 with
    | some id => dropJob (·.id) id r.1.jobs
    | none => r.1.jobs,
    i.outs ++ r.1.outs, i.failed || r.1.failed⟩

/-! ### The connection manager -/

/-- `handle_read_jobs_tick`, and the ids of the jobs that are finished. -/
def managerFollowed (z : Zstd) (disk : Disk) (read : ReadEnv) :
    List (Followed TransferJob) → Ticked TransferJob × List Int32
  | [] => (⟨[], [], false⟩, [])
  | f :: fs =>
    if f.item.isLastJob then
      let rest := managerFollowed z disk read fs
      (⟨f :: rest.1.jobs, rest.1.outs, rest.1.failed⟩, rest.2)
    else
      match initReadJobForCm .good f.item disk with
      | (job, .error e) =>
        let rest := managerFollowed z disk read fs
        (⟨⟨job, false⟩ :: rest.1.jobs, ⟨.error job.id e job.fileNum, f.mark⟩ :: rest.1.outs,
          f.mark || rest.1.failed⟩, job.id :: rest.2)
      | (job, .ok digest) =>
        let r := job.read z read disk
        let sent := readOuts r.1 r.2
        (⟨⟨r.1, f.mark && !sent.2⟩ :: fs, withMark f.mark (digest ++ sent.1),
          f.mark && !r.2.isOk⟩, if sent.2 then [r.1.id] else [])

def managerTick (z : Zstd) (disk : Disk) (read : ReadEnv) (fs : List (Followed TransferJob)) :
    Ticked TransferJob :=
  let r := managerFollowed z disk read fs
  ⟨r.2.foldl (fun fs id => dropJob (·.id) id fs) r.1.jobs, r.1.outs, r.1.failed⟩

/-! ### Forgetting the mark -/

section Forget

variable {α : Type}

@[simp]
theorem forget_cons (f : Followed α) (fs : List (Followed α)) :
    forget (f :: fs) = f.item :: forget fs := rfl

@[simp]
theorem forget_append (fs gs : List (Followed α)) :
    forget (fs ++ gs) = forget fs ++ forget gs := List.map_append

@[simp]
theorem forget_withMark (mark : Bool) (outs : List α) : forget (withMark mark outs) = outs := by
  unfold forget withMark
  rw [List.map_map]
  exact List.map_id outs

theorem forget_dropJob (jobId : α → Int32) (id : Int32) (fs : List (Followed α)) :
    forget (dropJob jobId id fs) =
      ((removeJob jobId id (forget fs)).map Prod.snd).getD (forget fs) := by
  have hremove : (removeJob (fun f => jobId f.item) id fs).map (fun r => forget r.2) =
      (removeJob jobId id (forget fs)).map Prod.snd := by
    induction fs with
    | nil => rfl
    | cons f fs ih =>
      rw [forget_cons]
      unfold removeJob
      split
      · rfl
      · have hcons := congrArg (Option.map (f.item :: ·)) ih
        simpa only [Option.map_map, Function.comp_def, forget_cons] using hcons
  rw [← hremove]
  unfold dropJob
  cases removeJob (fun f => jobId f.item) id fs <;> rfl

theorem initFollowed_eq (disk : Disk) (i : ℕ) (fs : List (Followed ReadJob)) :
    initJobs (fun _ => jobEnv) disk i (forget fs) =
      (forget (initFollowed disk fs).jobs, (initJobs (fun _ => jobEnv) disk i (forget fs)).2.1,
        true) ∧
    (initJobs (fun _ => jobEnv) disk i (forget fs)).2.1.filterMap cmOut =
      forget (initFollowed disk fs).outs := by
  induction fs generalizing i with
  | nil => exact ⟨rfl, rfl⟩
  | cons f fs ih =>
    obtain ⟨hjobs, houts⟩ := ih (i + 1)
    rw [forget_cons]
    cases hlast : f.item.isLastJob with
    | true =>
      unfold initJobs initFollowed
      rw [if_pos hlast, if_pos hlast]
      rw [hjobs]
      exact ⟨rfl, houts⟩
    | false =>
      have hok : (initJob jobEnv disk f.item).2.2 = true := by
        rw [initJob_ok]
        exact Bool.or_true _
      rw [initJobs_cons hlast, if_pos hok, hjobs, initFollowed, hlast, if_neg Bool.false_ne_true]
      refine ⟨rfl, ?_⟩
      rw [List.filterMap_append, houts, forget_append, forget_withMark]

theorem readFollowed_eq (z : Zstd) (read : ReadEnv) (disk : Disk) (fs : List (Followed ReadJob)) :
    readFirst z read disk (forget fs) =
      (forget (readFollowed z read disk fs).1.jobs, (readFirst z read disk (forget fs)).2.1,
        (readFollowed z read disk fs).2) ∧
    (readFirst z read disk (forget fs)).2.1.filterMap cmOut =
      forget (readFollowed z read disk fs).1.outs := by
  induction fs with
  | nil => exact ⟨rfl, rfl⟩
  | cons f fs ih =>
    obtain ⟨hjobs, houts⟩ := ih
    rw [forget_cons]
    cases hlast : f.item.isLastJob with
    | true =>
      unfold readFirst readFollowed
      rw [if_pos hlast, if_pos hlast]
      rw [hjobs]
      exact ⟨rfl, houts⟩
    | false =>
      rw [readFirst_cons hlast, readFollowed, hlast, if_neg Bool.false_ne_true]
      exact ⟨rfl, (forget_withMark _ _).symm⟩

theorem networkTick_eq (z : Zstd) (disk : Disk) (read : ReadEnv) (fs : List (Followed ReadJob)) :
    (handleReadJobs z (tickEnv read) disk (forget fs)).1 =
        forget (networkTick z disk read fs).jobs ∧
      (handleReadJobs z (tickEnv read) disk (forget fs)).2.1.filterMap cmOut =
        forget (networkTick z disk read fs).outs := by
  obtain ⟨hinit, hopened⟩ := initFollowed_eq disk 0 fs
  obtain ⟨hread, hsent⟩ := readFollowed_eq z read disk (initFollowed disk fs).jobs
  have hafter : handleReadJobs.afterRead (readFollowed z read disk (initFollowed disk fs).jobs).2
      (forget (readFollowed z read disk (initFollowed disk fs).jobs).1.jobs) =
        forget (networkTick z disk read fs).jobs := by
    unfold networkTick handleReadJobs.afterRead
    dsimp only
    cases (readFollowed z read disk (initFollowed disk fs).jobs).2 with
    | none => rfl
    | some id => exact (forget_dropJob _ id _).symm
  have houts : forget (networkTick z disk read fs).outs =
      (initJobs (fun _ => jobEnv) disk 0 (forget fs)).2.1.filterMap cmOut ++
        (readFirst z read disk (forget (initFollowed disk fs).jobs)).2.1.filterMap cmOut := by
    rw [hopened, hsent]
    exact forget_append _ _
  unfold handleReadJobs
  rw [show (tickEnv read).job = fun _ => jobEnv from rfl, hinit,
    show (tickEnv read).read = read from rfl, show (tickEnv read).sent = true from rfl, houts]
  dsimp only
  rw [hread]
  generalize (readFirst z read disk (forget (initFollowed disk fs).jobs)).2.1 = sent
  cases sent with
  | nil => exact ⟨hafter, (List.append_nil _).symm⟩
  | cons out sent => exact ⟨hafter, List.filterMap_append⟩

theorem initReadJobForCm_good (job : TransferJob) (disk : Disk) :
    initReadJobForCm .good job disk = ((job.initDataStream .good disk).1,
      (job.initDataStream .good disk).2.map fun digest => digest.toList.map digestOut) := by
  unfold initReadJobForCm FileTransfer.InRange.initDataStreamForCm TransferJob.initDataStream
  rcases job.openDataStream InitEnv.good.openFile disk with ⟨job', e | _ | _⟩
  · rfl
  · by_cases hdetects : job'.type = .generic ∧ job'.enableOverwriteDetection ∧ !job'.fileConfirmed ∧
        !job'.fileIsWaiting
    · simp only [if_pos hdetects]
      unfold TransferJob.sendCurrentDigest
      rcases job'.getCurrentDigest InitEnv.good.metadata disk with e | ⟨lastModified, fileSize⟩ <;>
        rfl
    · simp only [if_neg hdetects]
      rfl
  · rfl

theorem managerFollowed_eq (z : Zstd) (disk : Disk) (read : ReadEnv) (i : ℕ)
    (fs : List (Followed TransferJob)) :
    cmReadJobsTick z (tickEnv read) disk i (forget fs) =
      (forget (managerFollowed z disk read fs).1.jobs,
        forget (managerFollowed z disk read fs).1.outs, (managerFollowed z disk read fs).2) := by
  induction fs generalizing i with
  | nil => rfl
  | cons f fs ih =>
    rw [forget_cons]
    unfold cmReadJobsTick managerFollowed
    cases hlast : f.item.isLastJob with
    | true =>
      rw [if_pos rfl, if_pos rfl, ih]
      rfl
    | false =>
      rw [if_neg Bool.false_ne_true, if_neg Bool.false_ne_true,
        show ((tickEnv read).job i).init = .good from rfl,
        show (tickEnv read).read = read from rfl]
      rcases initReadJobForCm .good f.item disk with ⟨job, e | digest⟩
      · rw [ih]
        rfl
      · dsimp only
        rw [forget_withMark]
        rcases job.read z read disk with ⟨job', e | block | _⟩
        · rfl
        · unfold readOuts
          dsimp only
          split
          · cases job'.jobError <;> rfl
          · rw [List.append_nil]
            rfl
        · rfl

theorem managerTick_eq (z : Zstd) (disk : Disk) (read : ReadEnv)
    (fs : List (Followed TransferJob)) :
    forget (managerTick z disk read fs).jobs =
      (cmReadJobsTick z (tickEnv read) disk 0 (forget fs)).2.2.foldl
        (fun jobs id => ((removeJob (·.id) id jobs).map Prod.snd).getD jobs)
        (cmReadJobsTick z (tickEnv read) disk 0 (forget fs)).1 ∧
      forget (managerTick z disk read fs).outs =
        (cmReadJobsTick z (tickEnv read) disk 0 (forget fs)).2.1 := by
  rw [managerFollowed_eq]
  unfold managerTick
  dsimp only
  refine ⟨?_, rfl⟩
  generalize (managerFollowed z disk read fs).1.jobs = gs
  induction (managerFollowed z disk read fs).2 generalizing gs with
  | nil => rfl
  | cons id ids ih =>
    rw [List.foldl_cons, List.foldl_cons, ih, forget_dropJob]

end Forget

/-! ### Lists of jobs -/

structure Caller (α : Type) where
  disk : Disk
  job : α → TransferJob
  tick : ReadEnv → List (Followed α) → Ticked α
  /-- No job is left when it panics. -/
  confirm : FileTransferSendConfirmRequest → α → Option α

def network (z : Zstd) (disk : Disk) : Caller ReadJob where
  disk := disk
  job item := item.toTransferJob
  tick := networkTick z disk
  confirm r item :=
    (item.toTransferJob.confirm seekGood r disk).2.map fun job => ⟨job, item.origin⟩

def readConfirm (r : FileTransferSendConfirmRequest) : ReadConfirm where
  fileNum := r.fileNum
  skip := r.union = some (.skip true)
  offsetBlk :=
    match r.union with
    | some (.offsetBlk offset) => offset
    | _ => 0

def manager (z : Zstd) (disk : Disk) : Caller TransferJob where
  disk := disk
  job item := item
  tick := managerTick z disk
  confirm r item := confirmForRead seekGood (readConfirm r) disk item

inductive ListEvent (α : Type)
  | tick (read : ReadEnv)
  | request (r : FileTransferSendConfirmRequest)
  /-- Another job. -/
  | start (item : α)
  | cancel (id : Int32)

deriving instance DecidableEq for TransferJob

section Listing

variable {α : Type} (c : Caller α)

/-- What a request is for the job. It is a turn when it says something about the file that the job
is at. -/
def turnsOf (disk : Disk) (r : FileTransferSendConfirmRequest) (job : TransferJob) :
    List (Turn CmOut FileTransferSendConfirmRequest) :=
  if (job.confirm seekGood r disk).2 = some job then [] else [.receive r]

/-- What is done with the job that a request finds, the turns of the job that is followed, and
whether it did not panic. -/
def Caller.answer (r : FileTransferSendConfirmRequest) (f : Followed α) :
    Followed α × List (Turn CmOut FileTransferSendConfirmRequest) × Bool :=
  let turns := if f.mark then turnsOf c.disk r (c.job f.item) else []
  match c.confirm r f.item with
  | some item => (⟨item, f.mark⟩, turns, true)
  | none => (f, turns, false)

def Caller.step (fs : List (Followed α)) :
    ListEvent α → List (Followed α) × List (Turn CmOut FileTransferSendConfirmRequest)
  | .tick read => ((c.tick read fs).jobs, (marked (c.tick read fs).outs).map .send)
  | .request r =>
    match withJob (fun f => (c.job f.item).id) r.id (c.answer r) fs with
    | some (fs', turns, true) => (fs', turns)
    | some (_, turns, false) => ([], turns)
    | none => (fs, [])
  | .start item => (fs ++ [⟨item, false⟩], [])
  | .cancel id => (dropJob (fun item => (c.job item).id) id fs, [])

def listing : Machine (List (Followed α)) (ListEvent α)
    (Turn CmOut FileTransferSendConfirmRequest) where
  step fs ev := c.step fs ev

def among (before : List α) (item : α) (after : List α) : List (Followed α) :=
  withMark false before ++ ⟨item, true⟩ :: withMark false after

def Caller.Clean (fs : List (Followed α)) : ListEvent α → Prop
  | .tick read => read.Good ∧ (c.tick read fs).failed = false
  | _ => True

def Caller.own (fs : List (Followed α)) : List TransferJob := (marked fs).map c.job

/-- The job has sent its last message, or waits for its peer. -/
def Caller.Settled (z : Zstd) (fs : List (Followed α))
    (turns : List (Turn CmOut FileTransferSendConfirmRequest)) : Prop :=
  Dialogue.Finished Ends turns ∨ ∃ job, c.own fs = [job] ∧ (served z whole c.disk job).outs = []

end Listing

/-- A request for the file that the job is at, or one that has no effect. -/
def Names (disk : Disk) (r : FileTransferSendConfirmRequest) (job : TransferJob) : Prop :=
  r.fileNum = job.fileNum ∧ r.union ≠ none ∨ Idle seekGood (readConfirm r) disk job

/-- The request that finds the job in the connection manager names its file. -/
def Named (disk : Disk) (fs : List (Followed TransferJob)) : ListEvent TransferJob → Prop
  | .request r => ∀ f ∈ fs.find? (fun f => f.item.id = r.id), f.mark = true → Names disk r f.item
  | _ => True

/-! ### What a call does for the job -/

section Marked

variable {α β : Type}

@[simp]
theorem marked_cons_true (item : α) (fs : List (Followed α)) :
    marked (⟨item, true⟩ :: fs) = item :: marked fs := rfl

@[simp]
theorem marked_cons_false (item : α) (fs : List (Followed α)) :
    marked (⟨item, false⟩ :: fs) = marked fs := rfl

@[simp]
theorem marked_append (fs gs : List (Followed α)) : marked (fs ++ gs) = marked fs ++ marked gs := by
  unfold marked
  rw [List.filter_append, List.map_append]

theorem marked_withMark (mark : Bool) (outs : List α) :
    marked (withMark mark outs) = if mark then outs else [] := by
  induction outs with
  | nil => cases mark <;> rfl
  | cons out outs ih =>
    cases mark with
    | false => exact ih
    | true => exact congrArg (out :: ·) ih

theorem marked_sublist {fs gs : List (Followed α)} (h : gs.Sublist fs) :
    (marked gs).Sublist (marked fs) := (h.filter _).map _

theorem dropJob_sublist (jobId : α → Int32) (id : Int32) (fs : List (Followed α)) :
    (dropJob jobId id fs).Sublist fs := removed_sublist fs

end Marked

/-- What a call does for a job: nothing, or it opens its file, or serves it. -/
inductive Does (z : Zstd) (disk : Disk) (read : ReadEnv) (job : TransferJob) :
    List CmOut → Option TransferJob → Prop
  | nothing : Does z disk read job [] (some job)
  | opens (job' : TransferJob) (digest : Option FileTransfer.FileTransferDigest) :
      job.initDataStream .good disk = (job', .ok digest) →
      Does z disk read job (digest.toList.map digestOut) (some job')
  | serves : (served z read disk job).failed = false →
      Does z disk read job (served z read disk job).outs
        (if (served z read disk job).ended then none else some (served z read disk job).job)

theorem Does.follows {z : Zstd} {disk : Disk} {read : ReadEnv} {p : Path} {files : List FileEntry}
    {j job : TransferJob} {outs : List CmOut} {after : Option TransferJob}
    (h : Does z disk read job outs after) (hread : read.Good) (hsim : Sim p files disk j job) :
    ∃ q, (party z disk).Follows (some j) (outs.map Turn.send) q ∧
      ∀ job' ∈ after, ∃ j', q = some j' ∧ Sim p files disk j' job' := by
  cases h with
  | nothing =>
    refine ⟨some j, .nil _, fun job' hjob' => ?_⟩
    cases hjob'
    exact ⟨j, rfl, hsim⟩
  | opens job' digest hinit =>
    obtain ⟨j', hfollows, hsim'⟩ := hsim.follows_opened hinit
    refine ⟨some j', hfollows, fun job'' hjob'' => ?_⟩
    cases hjob''
    exact ⟨j', rfl, hsim'⟩
  | serves hclean =>
    obtain ⟨q, hfollows, hgoes⟩ := hsim.follows_served hread hclean
    refine ⟨q, hfollows, fun job' hjob' => ?_⟩
    cases hover : (served z read disk job).ended with
    | true =>
      rw [hover, if_pos rfl] at hjob'
      cases hjob'
    | false =>
      rw [hover, if_neg Bool.false_ne_true] at hjob'
      cases hjob'
      exact hgoes hover

def Caller.Tick {α : Type} (c : Caller α) (z : Zstd) (disk : Disk) : Prop :=
  ∀ read fs, (c.tick read fs).failed = false → (∀ job ∈ c.own fs, job.isLastJob = false) →
    (c.own fs = [] → marked (c.tick read fs).outs = [] ∧ c.own (c.tick read fs).jobs = []) ∧
    ∀ job, c.own fs = [job] → ∃ after,
      Does z disk read job (marked (c.tick read fs).outs) after ∧
        (c.own (c.tick read fs).jobs).Sublist after.toList

/-! ### The call of the connection manager -/

section Manager

variable {z : Zstd} {disk : Disk} {read : ReadEnv}

theorem served_init (z : Zstd) (read : ReadEnv) {job job' : TransferJob}
    {digest : Option FileTransfer.FileTransferDigest}
    (hinit : job.initDataStream .good disk = (job', .ok digest)) :
    served z read disk job = ⟨(job'.read z read disk).1,
      digest.toList.map digestOut ++
        (readOuts (job'.read z read disk).1 (job'.read z read disk).2).1,
      (readOuts (job'.read z read disk).1 (job'.read z read disk).2).2,
      !(job'.read z read disk).2.isOk⟩ := by
  unfold served
  rw [hinit]

theorem served_eq (z : Zstd) (read : ReadEnv) {job job' : TransferJob} {outs : List CmOut}
    (hinit : initReadJobForCm .good job disk = (job', .ok outs)) :
    served z read disk job = ⟨(job'.read z read disk).1,
      outs ++ (readOuts (job'.read z read disk).1 (job'.read z read disk).2).1,
      (readOuts (job'.read z read disk).1 (job'.read z read disk).2).2,
      !(job'.read z read disk).2.isOk⟩ := by
  rw [initReadJobForCm_good] at hinit
  rcases hgood : job.initDataStream .good disk with ⟨job₁, e | digest⟩
  · rw [hgood] at hinit
    cases hinit
  · rw [hgood] at hinit
    cases hinit
    exact served_init z read hgood

theorem managerFollowed_own (fs : List (Followed TransferJob))
    (hclean : (managerFollowed z disk read fs).1.failed = false)
    (hlast : ∀ job ∈ marked fs, job.isLastJob = false) :
    (marked (managerFollowed z disk read fs).1.outs = [] ∧
        marked (managerFollowed z disk read fs).1.jobs = marked fs) ∨
      ∃ job rest, marked fs = job :: rest ∧ (served z read disk job).failed = false ∧
        marked (managerFollowed z disk read fs).1.outs = (served z read disk job).outs ∧
        marked (managerFollowed z disk read fs).1.jobs =
          (if (served z read disk job).ended then []
            else [(served z read disk job).job]) ++ rest := by
  induction fs with
  | nil => exact .inl ⟨rfl, rfl⟩
  | cons f fs ih =>
    obtain ⟨job, mark⟩ := f
    rw [managerFollowed] at hclean ⊢
    split at hclean
    · next hjob =>
      -- a last job is not the one that is followed
      rw [if_pos hjob]
      cases mark with
      | true =>
        rw [hlast job List.mem_cons_self] at hjob
        cases hjob
      | false => exact ih hclean hlast
    · next hjob =>
      rw [if_neg hjob]
      rcases hinit : initReadJobForCm .good job disk with ⟨job', e | digest⟩
      · rw [hinit] at hclean
        cases mark with
        | true => cases hclean
        | false => exact ih hclean hlast
      · rw [hinit] at hclean
        have hserved := served_eq z read hinit
        cases mark with
        | false =>
          left
          exact ⟨marked_withMark false _, rfl⟩
        | true =>
          right
          refine ⟨job, marked fs, rfl, ?_, ?_, ?_⟩
          · rw [hserved]
            exact hclean
          · rw [hserved, marked_withMark, if_pos rfl]
          · rw [hserved]
            dsimp only
            cases (readOuts (job'.read z read disk).1 (job'.read z read disk).2).2 <;> rfl

theorem dropJobs_sublist (ids : List Int32) (fs : List (Followed TransferJob)) :
    (ids.foldl (fun fs id => dropJob (·.id) id fs) fs).Sublist fs := by
  induction ids generalizing fs with
  | nil => exact .refl fs
  | cons id ids ih => exact (ih _).trans (dropJob_sublist _ id fs)

theorem manager_tick (z : Zstd) (disk : Disk) : (manager z disk).Tick z disk := by
  intro read fs hclean hlast
  have hown (fs : List (Followed TransferJob)) : (manager z disk).own fs = marked fs :=
    List.map_id _
  simp only [hown] at hlast ⊢
  have hsub : (marked (managerTick z disk read fs).jobs).Sublist
      (marked (managerFollowed z disk read fs).1.jobs) := marked_sublist (dropJobs_sublist _ _)
  have houts : marked ((manager z disk).tick read fs).outs =
      marked (managerFollowed z disk read fs).1.outs := rfl
  rw [houts]
  rcases managerFollowed_own fs hclean hlast with
    ⟨hnone, hjobs⟩ | ⟨job, rest, hfs, hfine, hsent, hjobs⟩
  · rw [hjobs] at hsub
    rw [hnone]
    refine ⟨fun hnil => ⟨rfl, ?_⟩, fun job hjob => ⟨some job, .nothing, ?_⟩⟩
    · rw [hnil] at hsub
      exact List.sublist_nil.mp hsub
    · rwa [hjob] at hsub
  · rw [hjobs] at hsub
    rw [hsent]
    refine ⟨fun hnil => ?_, fun job' hjob' => ?_⟩
    · rw [hnil] at hfs
      cases hfs
    · rw [hfs] at hjob'
      cases hjob'
      refine ⟨_, .serves hfine, ?_⟩
      rw [List.append_nil] at hsub
      cases hover : (served z read disk job).ended with
      | true | false => rwa [hover] at hsub

end Manager

/-! ### The call of the connection -/

section Network

variable {z : Zstd} {disk : Disk} {read : ReadEnv}

theorem initOuts_ok {job : ReadJob} {job' : TransferJob}
    {digest : Option FileTransfer.FileTransferDigest}
    (hinit : job.toTransferJob.initDataStream .good disk = (job', .ok digest)) :
    (initJob jobEnv disk job).1 = ⟨job', job.origin⟩ ∧
      (initJob jobEnv disk job).2.1.filterMap cmOut = digest.toList.map digestOut := by
  have haccess : (jobAccesses .read job.toTransferJob).filterMap cmOut = [] := by
    unfold jobAccesses
    cases job.dataSource <;> rfl
  unfold initJob initMessages
  rw [show jobEnv.init = .good from rfl, hinit]
  refine ⟨rfl, ?_⟩
  rw [List.filterMap_append, haccess, List.nil_append]
  cases digest <;> rfl

theorem readOuts_ok {job : ReadJob} (hok : (job.toTransferJob.read z read disk).2.isOk = true) :
    (readJob z read disk job).1.toTransferJob = (job.toTransferJob.read z read disk).1 ∧
      (readJob z read disk job).2.1.filterMap cmOut =
        (readOuts (job.toTransferJob.read z read disk).1
          (job.toTransferJob.read z read disk).2).1 ∧
      (readJob z read disk job).2.2 =
        (readOuts (job.toTransferJob.read z read disk).1
          (job.toTransferJob.read z read disk).2).2 := by
  unfold readJob readMessages readOuts
  generalize job.toTransferJob.read z read disk = r at hok ⊢
  obtain ⟨job', e | block | _⟩ := r
  · cases hok
  · refine ⟨rfl, ?_⟩
    dsimp only
    split
    · cases job'.jobError <;> exact ⟨rfl, rfl⟩
    · exact ⟨rfl, rfl⟩
  · exact ⟨rfl, rfl, rfl⟩

theorem initFollowed_own (fs : List (Followed ReadJob))
    (hclean : (initFollowed disk fs).failed = false)
    (hlast : ∀ item ∈ marked fs, item.isLastJob = false) :
    (marked fs = [] → marked (initFollowed disk fs).outs = [] ∧
        marked (initFollowed disk fs).jobs = []) ∧
      ∀ item, marked fs = [item] → ∃ job' digest,
        item.toTransferJob.initDataStream .good disk = (job', .ok digest) ∧
          marked (initFollowed disk fs).outs = digest.toList.map digestOut ∧
          marked (initFollowed disk fs).jobs = [⟨job', item.origin⟩] := by
  induction fs with
  | nil => exact ⟨fun _ => ⟨rfl, rfl⟩, fun item h => absurd h.symm (List.cons_ne_nil item [])⟩
  | cons f fs ih =>
    obtain ⟨item, mark⟩ := f
    rw [initFollowed] at hclean ⊢
    split at hclean
    · next hjob =>
      rw [if_pos hjob]
      cases mark with
      | true =>
        rw [hlast item List.mem_cons_self] at hjob
        cases hjob
      | false => exact ih hclean hlast
    · next hjob =>
      rw [if_neg hjob]
      obtain ⟨hopened, hrest⟩ := Bool.or_eq_false_iff.mp hclean
      cases mark with
      | false =>
        rw [marked_append, marked_withMark]
        exact ih hrest hlast
      | true =>
        refine ⟨nofun, fun item' hitem' => ?_⟩
        obtain ⟨rfl, hnil⟩ : item = item' ∧ marked fs = [] := List.cons.inj hitem'
        obtain ⟨hnone, hjobs⟩ :=
          (ih hrest fun item' h => hlast item' (List.mem_cons_of_mem item h)).1 hnil
        rcases hinit : item.toTransferJob.initDataStream .good disk with ⟨job', e | digest⟩
        · rw [hinit] at hopened
          cases hopened
        · obtain ⟨hitem, houts⟩ := initOuts_ok hinit
          refine ⟨job', digest, rfl, ?_, ?_⟩
          · rw [marked_append, marked_withMark, if_pos rfl, houts, hnone, List.append_nil]
          · rw [marked_cons_true, hitem, hjobs]

theorem readFollowed_own (fs : List (Followed ReadJob))
    (hclean : (readFollowed z read disk fs).1.failed = false)
    (hlast : ∀ item ∈ marked fs, item.isLastJob = false) :
    (marked (readFollowed z read disk fs).1.outs = [] ∧
        marked (readFollowed z read disk fs).1.jobs = marked fs) ∨
      ∃ item rest, marked fs = item :: rest ∧
        (item.toTransferJob.read z read disk).2.isOk = true ∧
        marked (readFollowed z read disk fs).1.outs =
          (readOuts (item.toTransferJob.read z read disk).1
            (item.toTransferJob.read z read disk).2).1 ∧
        (marked (readFollowed z read disk fs).1.jobs).map ReadJob.toTransferJob =
          (if (readOuts (item.toTransferJob.read z read disk).1
              (item.toTransferJob.read z read disk).2).2 then []
            else [(item.toTransferJob.read z read disk).1]) ++
            rest.map ReadJob.toTransferJob := by
  induction fs with
  | nil => exact .inl ⟨rfl, rfl⟩
  | cons f fs ih =>
    obtain ⟨item, mark⟩ := f
    rw [readFollowed] at hclean ⊢
    dsimp only at hclean ⊢
    split at hclean
    · next hjob =>
      rw [if_pos hjob]
      cases mark with
      | true =>
        rw [hlast item List.mem_cons_self] at hjob
        cases hjob
      | false => exact ih hclean hlast
    · next hjob =>
      rw [if_neg hjob]
      cases mark with
      | false =>
        left
        exact ⟨marked_withMark false _, rfl⟩
      | true =>
        right
        have hok : (item.toTransferJob.read z read disk).2.isOk = true := by
          simpa using hclean
        obtain ⟨hitem, houts, hover⟩ := readOuts_ok hok
        refine ⟨item, marked fs, rfl, hok, ?_, ?_⟩
        · rw [marked_withMark, if_pos rfl, houts]
        · rw [← hover, ← hitem]
          cases (readJob z read disk item).2.2 <;> rfl

theorem network_tick (z : Zstd) (disk : Disk) : (network z disk).Tick z disk := by
  intro read fs hclean hlast
  have hsub : ((network z disk).own (networkTick z disk read fs).jobs).Sublist
      ((marked (readFollowed z read disk (initFollowed disk fs).jobs).1.jobs).map
        ReadJob.toTransferJob) := by
    refine (marked_sublist ?_).map _
    unfold networkTick
    dsimp only
    split
    · exact dropJob_sublist _ _ _
    · exact .refl _
  have houts : marked ((network z disk).tick read fs).outs =
      marked (initFollowed disk fs).outs ++
        marked (readFollowed z read disk (initFollowed disk fs).jobs).1.outs := marked_append _ _
  obtain ⟨hopened, hread⟩ := Bool.or_eq_false_iff.mp hclean
  have hlast' : ∀ item ∈ marked fs, item.isLastJob = false := fun item hitem =>
    hlast item.toTransferJob (List.mem_map_of_mem hitem)
  obtain ⟨hnone, hone⟩ := initFollowed_own fs hopened hlast'
  rw [houts]
  constructor
  · intro hnil
    obtain ⟨hsent, hjobs⟩ := hnone (List.map_eq_nil_iff.mp hnil)
    have hlast₁ : ∀ item ∈ marked (initFollowed disk fs).jobs, item.isLastJob = false := by
      rw [hjobs]
      exact fun item h => absurd h List.not_mem_nil
    rcases readFollowed_own _ hread hlast₁ with ⟨hquiet, hsame⟩ | ⟨_, _, h, -⟩
    · refine ⟨by rw [hsent, hquiet, List.append_nil], ?_⟩
      rw [hsame, hjobs] at hsub
      exact List.sublist_nil.mp hsub
    · rw [hjobs] at h
      cases h
  · intro job hjob
    obtain ⟨item, hitem, rfl⟩ := List.map_eq_singleton_iff.mp hjob
    obtain ⟨job', digest, hinit, hsent, hjobs⟩ := hone item hitem
    have hkept := initDataStream_kept .good item.toTransferJob disk
    rw [hinit] at hkept
    have hgoes : ∀ item' ∈ marked (initFollowed disk fs).jobs, item'.isLastJob = false := by
      rw [hjobs]
      intro item' hitem'
      cases List.mem_singleton.mp hitem'
      refine hkept.last.trans (hlast' item ?_)
      rw [hitem]
      exact List.mem_singleton_self item
    rcases readFollowed_own _ hread hgoes with
      ⟨hquiet, hsame⟩ | ⟨item', rest, hitem', hok, hread', hafter⟩
    · -- another job is read
      refine ⟨some job', ?_, ?_⟩
      · rw [hsent, hquiet, List.append_nil]
        exact .opens job' digest hinit
      · rwa [hsame, hjobs] at hsub
    · rw [hjobs] at hitem'
      cases hitem'
      have hserved := served_init z read hinit
      have hfine : (served z read disk item.toTransferJob).failed = false := by
        rw [hserved]
        exact congrArg (!·) hok
      have hdoes := Does.serves hfine
      rw [hserved] at hdoes
      refine ⟨if (readOuts (job'.read z read disk).1 (job'.read z read disk).2).2 then none
        else some (job'.read z read disk).1, ?_, ?_⟩
      · rw [hsent, hread']
        exact hdoes
      · refine hsub.trans ?_
        rw [hafter]
        cases (readOuts (job'.read z read disk).1 (job'.read z read disk).2).2 <;> exact .refl _

end Network

/-! ### Runs -/

section Runs

variable {α : Type} {c : Caller α} {z : Zstd} {p : Path} {files : List FileEntry}

def Caller.Asks (c : Caller α) (r : FileTransferSendConfirmRequest) (item : α) : Prop :=
  (c.confirm r item).map c.job = ((c.job item).confirm seekGood r c.disk).2

def Caller.Asked (c : Caller α) (fs : List (Followed α)) : ListEvent α → Prop
  | .request r =>
    ∀ f ∈ fs.find? (fun f => (c.job f.item).id = r.id), f.mark = true → c.Asks r f.item
  | _ => True

/-- The job that is followed is as good as the state of the party. -/
def Caller.Rel (c : Caller α) (p : Path) (files : List FileEntry) (fs : List (Followed α))
    (q : Option TransferJob) : Prop :=
  c.own fs = [] ∨ ∃ j job, c.own fs = [job] ∧ q = some j ∧ Sim p files c.disk j job

variable {q : Option TransferJob} {fs : List (Followed α)}

theorem Caller.Rel.notLast (h : c.Rel p files fs q) : ∀ job ∈ c.own fs, job.isLastJob = false := by
  intro job hjob
  rcases h with hnil | ⟨j, job', hown, -, hsim⟩
  · rw [hnil] at hjob
    cases hjob
  · rw [hown] at hjob
    cases List.mem_singleton.mp hjob
    exact hsim.right.notLast

theorem Caller.Rel.sublist {fs gs : List (Followed α)} (h : c.Rel p files fs q)
    (hsub : (c.own gs).Sublist (c.own fs)) : c.Rel p files gs q := by
  rcases h with hnil | ⟨j, job, hown, hq, hsim⟩
  · rw [hnil] at hsub
    exact .inl (List.sublist_nil.mp hsub)
  · rw [hown] at hsub
    rcases List.sublist_singleton.mp hsub with hnil | hone
    · exact .inl hnil
    · exact .inr ⟨j, job, hone, hq, hsim⟩

theorem withJob_find {β γ : Type} {jobId : β → Int32} {id : Int32} {f : β → β × γ}
    {l l' : List β} {b : γ} (h : withJob jobId id f l = some (l', b)) :
    ∃ pre job post, l = pre ++ job :: post ∧ l.find? (fun job => jobId job = id) = some job ∧
      l' = pre ++ (f job).1 :: post ∧ b = (f job).2 := by
  induction l generalizing l' with
  | nil => cases h
  | cons a l ih =>
    unfold withJob at h
    split at h
    · next hid =>
      obtain ⟨rfl, rfl⟩ := Prod.mk.inj (Option.some.inj h)
      exact ⟨[], a, l, rfl, List.find?_cons_of_pos (decide_eq_true hid), rfl, rfl⟩
    · next hid =>
      obtain ⟨⟨rest, b'⟩, hrest, heq⟩ := Option.map_eq_some_iff.mp h
      obtain ⟨rfl, rfl⟩ := Prod.mk.inj heq
      obtain ⟨pre, job, post, rfl, hfind, rfl, rfl⟩ := ih hrest
      refine ⟨a :: pre, job, post, rfl, ?_, rfl, rfl⟩
      rw [List.find?_cons_of_neg (by simpa using hid), hfind]

theorem own_append_cons (pre : List (Followed α)) (f : Followed α) (post : List (Followed α)) :
    c.own (pre ++ f :: post) =
      c.own pre ++ (if f.mark then [c.job f.item] else []) ++ c.own post := by
  obtain ⟨item, mark⟩ := f
  unfold Caller.own
  rw [marked_append, List.map_append, List.append_assoc]
  cases mark <;> rfl

theorem own_split {pre post : List (Followed α)} {item : α} {job : TransferJob}
    (h : c.own (pre ++ ⟨item, true⟩ :: post) = [job]) :
    c.own pre = [] ∧ c.job item = job ∧ c.own post = [] := by
  rw [own_append_cons, if_pos rfl, List.append_assoc] at h
  cases hpre : c.own pre with
  | nil =>
    rw [hpre] at h
    obtain ⟨hjob, hpost⟩ := List.cons.inj h
    exact ⟨rfl, hjob, hpost⟩
  | cons job' rest =>
    rw [hpre] at h
    obtain ⟨-, hnil⟩ := List.cons.inj h
    exact absurd hnil (by simp)

theorem Caller.request_follows
    {r : FileTransferSendConfirmRequest} (hasked : c.Asked fs (.request r))
    (h : c.Rel p files fs q) :
    ∃ q', (party z c.disk).Follows q (c.step fs (.request r)).2 q' ∧
      c.Rel p files (c.step fs (.request r)).1 q' := by
  unfold Caller.step
  dsimp only
  cases hfound : withJob (fun f => (c.job f.item).id) r.id (c.answer r) fs with
  | none => exact ⟨q, .nil q, h⟩
  | some res =>
    obtain ⟨fs', turns, alive⟩ := res
    obtain ⟨pre, ⟨item, mark⟩, post, rfl, hfind, rfl, hanswer⟩ := withJob_find hfound
    have hasks : mark = true → c.Asks r item := hasked _ hfind
    unfold Caller.answer at hanswer ⊢
    cases mark with
    | false =>
      -- the request is for another job
      cases hconfirm : c.confirm r item with
      | none =>
        rw [hconfirm] at hanswer
        cases hanswer
        exact ⟨q, .nil q, .inl rfl⟩
      | some item' =>
        rw [hconfirm] at hanswer
        cases hanswer
        refine ⟨q, .nil q, h.sublist ?_⟩
        rw [own_append_cons, own_append_cons]
        exact .refl _
    | true =>
      rcases h with hnil | ⟨j, job, hown, rfl, hsim⟩
      · rw [own_append_cons] at hnil
        simp at hnil
      · obtain ⟨hpre, rfl, hpost⟩ := own_split hown
        have hjob : (c.confirm r item).map c.job = ((c.job item).confirm seekGood r c.disk).2 :=
          hasks rfl
        have hrel := hsim.confirm seekGood r
        cases hconfirm : c.confirm r item with
        | none =>
          -- it panics, and so it does for the party
          rw [hconfirm] at hanswer hjob
          cases hanswer
          have hturns : turnsOf c.disk r (c.job item) = [.receive r] := by
            unfold turnsOf
            rw [← hjob]
            exact if_neg nofun
          rw [if_pos rfl, hturns]
          exact ⟨_, .receive (.nil _), .inl rfl⟩
        | some item' =>
          rw [hconfirm] at hanswer hjob
          cases hanswer
          have hafter : c.own (pre ++ ⟨item', true⟩ :: post) = [c.job item'] := by
            rw [own_append_cons, hpre, hpost]
            rfl
          rw [if_pos rfl]
          by_cases heffect : c.job item' = c.job item
          · have hturns : turnsOf c.disk r (c.job item) = [] := by
              unfold turnsOf
              rw [← hjob]
              exact if_pos (congrArg some heffect)
            rw [hturns]
            exact ⟨some j, .nil _, .inr ⟨j, c.job item', hafter, rfl, heffect ▸ hsim⟩⟩
          · have hturns : turnsOf c.disk r (c.job item) = [.receive r] := by
              unfold turnsOf
              rw [← hjob]
              exact if_neg fun hsame => heffect (Option.some.inj hsame)
            rw [hturns]
            refine ⟨_, .receive (.nil _), .inr ?_⟩
            rw [← hjob] at hrel
            cases hj : (j.confirm seekGood r c.disk).2 with
            | none =>
              rw [hj] at hrel
              cases hrel
            | some j' =>
              rw [hj] at hrel
              cases hrel with
              | some hsim' => exact ⟨j', c.job item', hafter, hj, hsim'⟩

theorem Caller.step_follows (htick : c.Tick z c.disk) {ev : ListEvent α}
    (hclean : c.Clean fs ev) (hasked : c.Asked fs ev)
    (h : c.Rel p files fs q) :
    ∃ q', (party z c.disk).Follows q ((listing c).out fs ev) q' ∧
      c.Rel p files ((listing c).next fs ev) q' := by
  show ∃ q', (party z c.disk).Follows q (c.step fs ev).2 q' ∧ c.Rel p files (c.step fs ev).1 q'
  cases ev with
  | tick read =>
    obtain ⟨hread, hfine⟩ := hclean
    obtain ⟨hnone, hone⟩ := htick read fs hfine h.notLast
    unfold Caller.step
    dsimp only
    rcases h with hnil | ⟨j, job, hown, rfl, hsim⟩
    · obtain ⟨houts, hjobs⟩ := hnone hnil
      rw [houts]
      exact ⟨q, .nil q, .inl hjobs⟩
    · obtain ⟨after, hdoes, hsub⟩ := hone job hown
      obtain ⟨q', hfollows, hafter⟩ := hdoes.follows hread hsim
      refine ⟨q', hfollows, ?_⟩
      cases after with
      | none => exact .inl (List.sublist_nil.mp hsub)
      | some job' =>
        obtain ⟨j', rfl, hsim'⟩ := hafter job' rfl
        rcases List.sublist_singleton.mp hsub with hnil | hone
        · exact .inl hnil
        · exact .inr ⟨j', job', hone, rfl, hsim'⟩
  | request r => exact Caller.request_follows hasked h
  | start item =>
    refine ⟨q, .nil q, h.sublist ?_⟩
    show (c.own (fs ++ [⟨item, false⟩])).Sublist (c.own fs)
    rw [own_append_cons, if_neg Bool.false_ne_true, List.append_nil]
    exact (List.append_nil _).symm ▸ .refl _
  | cancel id =>
    refine ⟨q, .nil q, h.sublist ?_⟩
    exact (marked_sublist (dropJob_sublist (fun item => (c.job item).id) id fs)).map c.job

theorem Caller.run_follows (htick : c.Tick z c.disk) {item : α}
    (hready : Ready p files (c.job item)) (before after : List α) {es : List (ListEvent α)}
    (h : (listing c).Meets (fun fs ev => c.Clean fs ev ∧ c.Asked fs ev)
      (among before item after) es) :
    ∃ q, (party z c.disk).Follows (some (c.job item))
        ((listing c).outputs (among before item after) es) q ∧
      (c.Settled z ((listing c).run (among before item after) es)
        ((listing c).outputs (among before item after) es) → (party z c.disk).Stops q) := by
  have hothers (items : List α) : c.own (withMark false items) = [] := by
    rw [Caller.own, marked_withMark, if_neg Bool.false_ne_true]
    rfl
  have hstart : c.Rel p files (among before item after) (some (c.job item)) := by
    refine .inr ⟨c.job item, c.job item, ?_, rfl, .refl hready⟩
    rw [among, own_append_cons, hothers, hothers]
    rfl
  obtain ⟨q, hfollows, hrel⟩ := Party.follows_outputs h hstart
    fun fs ev q hcond hrel => Caller.step_follows htick hcond.1 hcond.2 hrel
  refine ⟨q, hfollows, fun hsettled => ?_⟩
  rcases hsettled with hfinished | ⟨job, hown, houts⟩
  · exact hfollows.stops_of_finished JobDialogue.party_ends hfinished
  · rcases hrel with hnil | ⟨j, job', hown', rfl, hsim⟩
    · rw [hnil] at hown
      cases hown
    · rw [hown] at hown'
      cases hown'
      intro j' hj'
      cases hj'
      exact hsim.stops houts

end Runs

/-! ### The same messages -/

variable {r : FileTransferSendConfirmRequest}

theorem confirmForRead_named {disk : Disk} {job : TransferJob} (h : Names disk r job) :
    confirmForRead seekGood (readConfirm r) disk job = (job.confirm seekGood r disk).2 := by
  by_cases hnamed : r.fileNum = job.fileNum ∧ r.union ≠ none
  · obtain ⟨hnum, hunion⟩ := hnamed
    unfold confirmForRead FileTransfer.InRange.requestForRead readConfirm TransferJob.confirm
    rw [if_neg (not_not_intro rfl), if_neg (not_not_intro hnum.symm)]
    cases hr : r.union with
    | none => exact absurd hr hunion
    | some union =>
      cases union with
      | skip skip => cases skip <;> rfl
      | offsetBlk offset =>
        rw [hnum]
        rfl
  · -- it says nothing about the file, and has no effect
    have hidle := (confirmForRead_eq_iff _ _ _ _).mpr (h.resolve_left hnamed)
    rw [hidle]
    unfold TransferJob.confirm
    by_cases hnum : job.fileNum = r.fileNum
    · rw [if_neg (not_not_intro hnum)]
      cases hr : r.union with
      | none => rfl
      | some union => exact absurd ⟨hnum.symm, by rw [hr]; exact Option.some_ne_none union⟩ hnamed
    · rw [if_pos hnum]

theorem ready_newRead {found : Except String (List FileEntry)} {id : Int32} {p : Path}
    {fileNum : Int32} {detection : Bool} {job : TransferJob}
    (h : newRead found id .generic (.filePath p) fileNum detection = .ok job) :
    Ready p job.files job := by
  rcases found with e | files
  · cases h
  · cases h
    exact ⟨⟨rfl, rfl, rfl⟩, rfl, nofun⟩

/-- **What is sent for a job is the same** on the network and by the connection manager, where each
request that finds the job in the connection manager names its file, or has no effect. -/
theorem same_if_named (z : Zstd) (disk : Disk) {found : Except String (List FileEntry)}
    {jobId : Int32} {p : Path} {fileNum : Int32} {detection : Bool} {job : TransferJob}
    (hjob : newRead found jobId .generic (.filePath p) fileNum detection = .ok job)
    (before after : List ReadJob) (before' after' : List TransferJob)
    (es : List (ListEvent ReadJob)) (es' : List (ListEvent TransferJob))
    (hnetwork : (listing (network z disk)).Meets (network z disk).Clean
      (among before ⟨job, none⟩ after) es)
    (hmanager : (listing (manager z disk)).Meets
      (fun fs ev => (manager z disk).Clean fs ev ∧ Named disk fs ev)
      (among before' job after') es') :
    Dialogue.Same
      ((network z disk).Settled z
        ((listing (network z disk)).run (among before ⟨job, none⟩ after) es)
        ((listing (network z disk)).outputs (among before ⟨job, none⟩ after) es))
      ((manager z disk).Settled z
        ((listing (manager z disk)).run (among before' job after') es')
        ((listing (manager z disk)).outputs (among before' job after') es'))
      ((listing (network z disk)).outputs (among before ⟨job, none⟩ after) es)
      ((listing (manager z disk)).outputs (among before' job after') es') := by
  have hready := ready_newRead hjob
  -- on the network a request is always what it is for the job
  have hasked (fs : List (Followed ReadJob)) (ev : ListEvent ReadJob) :
      (network z disk).Asked fs ev := by
    cases ev with
    | request r =>
      intro f _ _
      show ((f.item.toTransferJob.confirm seekGood r disk).2.map _).map _ = _
      rw [Option.map_map]
      exact Option.map_id'
    | _ => trivial
  have hnamed (fs : List (Followed TransferJob)) (ev : ListEvent TransferJob)
      (h : Named disk fs ev) : (manager z disk).Asked fs ev := by
    cases ev with
    | request r =>
      intro f hfind hmark
      show Option.map id (confirmForRead seekGood (readConfirm r) disk f.item) = _
      rw [Option.map_id]
      exact confirmForRead_named (h f hfind hmark)
    | _ => trivial
  obtain ⟨q₁, hfollows₁, hstops₁⟩ := Caller.run_follows (network_tick z disk)
    (show Ready p job.files ((network z disk).job ⟨job, none⟩) from hready) before after
    (hnetwork.imp fun fs ev hclean => ⟨hclean, hasked fs ev⟩)
  obtain ⟨q₂, hfollows₂, hstops₂⟩ := Caller.run_follows (manager_tick z disk)
    (show Ready p job.files ((manager z disk).job job) from hready) before' after'
    (hmanager.imp fun fs ev hcond => ⟨hcond.1, hnamed fs ev hcond.2⟩)
  exact hfollows₁.same hfollows₂ hstops₁ hstops₂

/-! ### The two files -/

def twoAsked : TransferJob :=
  { twoFiles.toTransferJob with totalSize := TransferJob.totalOf twoFiles.files }

theorem newRead_twoAsked : newRead (.ok twoFiles.files) 1 .generic (.filePath ['d']) 0 true =
    .ok twoAsked := rfl

def goneAsked : TransferJob := { twoAsked with id := 2, files := [⟨['c'], 1, 0⟩] }

theorem clean_tick {α : Type} {c : Caller α} {fs : List (Followed α)}
    (h : (c.tick whole fs).failed = false) : c.Clean fs (.tick whole) :=
  ⟨JobDialogue.whole_good, h⟩

/-- The first file is confirmed and read, and the second one skipped. -/
def readThenSkip {α : Type} : List (ListEvent α) :=
  [.tick whole, .request ⟨1, 0, some (.skip false)⟩, .tick whole, .tick whole, .tick whole,
    .request ⟨1, 1, some (.skip true)⟩, .tick whole]

theorem readThenSkip_clean : (listing (network Zstd.storing twoOnDisk)).Meets
    (network Zstd.storing twoOnDisk).Clean (among [] ⟨twoAsked, none⟩ [⟨goneAsked, none⟩])
    readThenSkip := by
  refine Machine.meets_cons.mpr ⟨clean_tick (by decide +kernel), ?_⟩
  refine Machine.meets_cons.mpr ⟨trivial, ?_⟩
  refine Machine.meets_cons.mpr ⟨clean_tick (by decide +kernel), ?_⟩
  refine Machine.meets_cons.mpr ⟨clean_tick (by decide +kernel), ?_⟩
  refine Machine.meets_cons.mpr ⟨clean_tick (by decide +kernel), ?_⟩
  refine Machine.meets_cons.mpr ⟨trivial, ?_⟩
  refine Machine.meets_cons.mpr ⟨clean_tick (by decide +kernel), ?_⟩
  exact Machine.meets_nil _

instance (disk : Disk) (r : FileTransferSendConfirmRequest) (job : TransferJob) :
    Decidable (Names disk r job) := inferInstanceAs (Decidable (_ ∨ _))

theorem named_of_find {disk : Disk} {fs : List (Followed TransferJob)} {f : Followed TransferJob}
    (hfind : fs.find? (fun f => f.item.id = r.id) = some f) (h : Names disk r f.item) : Named disk
    fs (.request r) := by
  intro f' hf' _
  rw [hfind] at hf'
  cases hf'
  exact h

theorem readThenSkip_named : (listing (manager Zstd.storing twoOnDisk)).Meets
    (fun fs ev => (manager Zstd.storing twoOnDisk).Clean fs ev ∧ Named twoOnDisk fs ev)
    (among [goneAsked] twoAsked []) readThenSkip := by
  refine Machine.meets_cons.mpr ⟨⟨clean_tick (by decide +kernel), trivial⟩, ?_⟩
  refine Machine.meets_cons.mpr ⟨⟨trivial, named_of_find rfl (by decide +kernel)⟩, ?_⟩
  refine Machine.meets_cons.mpr ⟨⟨clean_tick (by decide +kernel), trivial⟩, ?_⟩
  refine Machine.meets_cons.mpr ⟨⟨clean_tick (by decide +kernel), trivial⟩, ?_⟩
  refine Machine.meets_cons.mpr ⟨⟨clean_tick (by decide +kernel), trivial⟩, ?_⟩
  refine Machine.meets_cons.mpr ⟨⟨trivial, named_of_find rfl (by decide +kernel)⟩, ?_⟩
  refine Machine.meets_cons.mpr ⟨⟨clean_tick (by decide +kernel), trivial⟩, ?_⟩
  exact Machine.meets_nil _

theorem same_readThenSkip : Dialogue.Same
    ((network Zstd.storing twoOnDisk).Settled Zstd.storing
      ((listing (network Zstd.storing twoOnDisk)).run
        (among [] ⟨twoAsked, none⟩ [⟨goneAsked, none⟩]) readThenSkip)
      ((listing (network Zstd.storing twoOnDisk)).outputs
        (among [] ⟨twoAsked, none⟩ [⟨goneAsked, none⟩]) readThenSkip))
    ((manager Zstd.storing twoOnDisk).Settled Zstd.storing
      ((listing (manager Zstd.storing twoOnDisk)).run (among [goneAsked] twoAsked []) readThenSkip)
      ((listing (manager Zstd.storing twoOnDisk)).outputs (among [goneAsked] twoAsked [])
        readThenSkip))
    ((listing (network Zstd.storing twoOnDisk)).outputs
      (among [] ⟨twoAsked, none⟩ [⟨goneAsked, none⟩]) readThenSkip)
    ((listing (manager Zstd.storing twoOnDisk)).outputs (among [goneAsked] twoAsked [])
      readThenSkip) :=
  same_if_named Zstd.storing twoOnDisk newRead_twoAsked [] [⟨goneAsked, none⟩] [goneAsked] []
    readThenSkip readThenSkip readThenSkip_clean readThenSkip_named

def skipFirst : FileTransferSendConfirmRequest := ⟨1, 0, some (.skip true)⟩

/-- The peer skips the first file, and its confirmation comes twice. -/
def skipTwice {α : Type} : List (ListEvent α) :=
  [.tick whole, .request skipFirst, .request skipFirst, .tick whole]

/-- On the network the digest of the second file comes next, and from the connection manager that
the job is done. -/
theorem skipTwice_differs : ¬ Dialogue.Same
    ((network Zstd.storing twoOnDisk).Settled Zstd.storing
      ((listing (network Zstd.storing twoOnDisk)).run (among [] ⟨twoAsked, none⟩ []) skipTwice)
      ((listing (network Zstd.storing twoOnDisk)).outputs (among [] ⟨twoAsked, none⟩ []) skipTwice))
    ((manager Zstd.storing twoOnDisk).Settled Zstd.storing
      ((listing (manager Zstd.storing twoOnDisk)).run (among [] twoAsked []) skipTwice)
      ((listing (manager Zstd.storing twoOnDisk)).outputs (among [] twoAsked []) skipTwice))
    ((listing (network Zstd.storing twoOnDisk)).outputs (among [] ⟨twoAsked, none⟩ []) skipTwice)
    ((listing (manager Zstd.storing twoOnDisk)).outputs (among [] twoAsked []) skipTwice) := by
  intro h
  have hnetwork : (listing (network Zstd.storing twoOnDisk)).outputs
      (among [] ⟨twoAsked, none⟩ []) skipTwice =
        [.send (.digest 1 0 0 3 false), .receive skipFirst, .send (.digest 1 1 0 5 false)] := by
    decide +kernel
  have hmanager : (listing (manager Zstd.storing twoOnDisk)).outputs
      (among [] twoAsked []) skipTwice =
        [.send (.digest 1 0 0 3 false), .receive skipFirst, .send (.done 1 2)] := by
    decide +kernel
  have hsame := h.next [.send (.digest 1 0 0 3 false), .receive skipFirst] _ _ [] []
    hnetwork hmanager
  cases hsame

end LibRustdesk.Desktop.SameReads
