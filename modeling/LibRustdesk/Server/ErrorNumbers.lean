import LibRustdesk.Server.CmReadJobs

/-!
# The file an error message names

An error of a sending job goes to the peer with `job.file_num()`, which both callers read after the
function that failed. By then `open_data_stream` and `read` have gone on to the next file; a digest
that cannot be taken or sent leaves the number as it is. And where a file cannot be opened,
`handle_read_jobs` goes on to read from the job, and reports the stream that is missing.

A call works on one file of each job, the one that the job is at when the call begins, so this is
the file that failed.

* `reports`, `cmReports` — the errors of a call, each with the number of the file that failed.
* `error_iff_report` — these are the errors that `handle_read_jobs` sends, other than "skipped".
* `errors_name_the_file_iff` — **each error names the file that failed**, exactly when no file fails
  to be opened or read.
-/

namespace LibRustdesk.Desktop

open FileTransfer (TransferJob FileTransferDigest FileTransferBlock Disk InitEnv ReadEnv)
open FileTransfer.InRange (initDataStreamForCm)

/-! ### Errors and the files that failed -/

/-- An error, and the number of the file that failed. -/
structure Report where
  failed : Int32
  id : Int32
  err : String
  fileNum : Int32

def Report.message (r : Report) : Int32 × String × Int32 := (r.id, r.err, r.fileNum)

def Report.Right (r : Report) : Prop := r.fileNum = r.failed

instance (r : Report) : Decidable r.Right := inferInstanceAs (Decidable (_ = _))

def initReport (env : InitEnv) (disk : Disk) (job : TransferJob) : List Report :=
  match job.initDataStream env disk with
  | (job', .error e) => [⟨job.fileNum, job'.id, e, job'.fileNum⟩]
  | (_, .ok _) => []

def readReport (z : Zstd) (env : ReadEnv) (disk : Disk) (failed : Int32) (job : TransferJob) :
    List Report :=
  match job.read z env disk with
  | (job', .error e) => [⟨failed, job'.id, e, job'.fileNum⟩]
  | (_, .ok _) => []

/-- The errors of `init_jobs`, from the job at `i` on. -/
def initReports (env : ℕ → JobEnv) (disk : Disk) (i : ℕ) : List ReadJob → List Report
  | [] => []
  | job :: jobs =>
    if job.isLastJob then initReports env disk (i + 1) jobs
    else if (initJob (env i) disk job).2.2 then
      initReport (env i).init disk job.toTransferJob ++ initReports env disk (i + 1) jobs
    else []

def firstReport (z : Zstd) (env : TickEnv) (disk : Disk) (i : ℕ) : List ReadJob → List Report
  | [] => []
  | job :: jobs =>
    if job.isLastJob then firstReport z env disk (i + 1) jobs
    else readReport z env.read disk job.fileNum (initJob (env.job i) disk job).1.toTransferJob

/-- The errors of a call of `handle_read_jobs`. -/
def reports (z : Zstd) (env : TickEnv) (disk : Disk) (jobs : List ReadJob) : List Report :=
  initReports env.job disk 0 jobs ++
    if (initJobs env.job disk 0 jobs).2.2 && env.sent then firstReport z env disk 0 jobs else []

/-- The errors of a call of `handle_read_jobs_tick`, from the job at `i` on. -/
def cmReports (z : Zstd) (env : TickEnv) (disk : Disk) (i : ℕ) : List TransferJob → List Report
  | [] => []
  | job :: jobs =>
    if job.isLastJob then cmReports z env disk (i + 1) jobs
    else
      let init := { (env.job i).init with sent := .ok () }
      if (job.initDataStream init disk).2.isOk then
        readReport z env.read disk job.fileNum (job.initDataStream init disk).1
      else initReport init disk job ++ cmReports z env disk (i + 1) jobs

/-! ### Files that can be opened and read -/

/-- The file that the job is at is opened, unless it is open. -/
def opens (env : InitEnv) (disk : Disk) (job : TransferJob) : Bool :=
  (job.openDataStream env.openFile disk).2.isOk

/-- No file fails to be opened while the connection lasts. -/
def AllOpen (env : ℕ → JobEnv) (disk : Disk) (i : ℕ) : List ReadJob → Prop
  | [] => True
  | job :: jobs =>
    if job.isLastJob then AllOpen env disk (i + 1) jobs
    else (initJob (env i) disk job).2.2 = true →
      opens (env i).init disk job.toTransferJob = true ∧ AllOpen env disk (i + 1) jobs

def FirstReads (z : Zstd) (env : TickEnv) (disk : Disk) (i : ℕ) : List ReadJob → Prop
  | [] => True
  | job :: jobs =>
    if job.isLastJob then FirstReads z env disk (i + 1) jobs
    else ((initJob (env.job i) disk job).1.toTransferJob.read z env.read disk).2.isOk = true

/-- No file fails in a call of `handle_read_jobs`, but that its digest cannot be taken or sent. -/
def NoFileFails (z : Zstd) (env : TickEnv) (disk : Disk) (jobs : List ReadJob) : Prop :=
  AllOpen env.job disk 0 jobs ∧
    ((initJobs env.job disk 0 jobs).2.2 = true → env.sent = true → FirstReads z env disk 0 jobs)

/-- No file fails in a call of `handle_read_jobs_tick`, but that its digest cannot be taken. -/
def CmNoFileFails (z : Zstd) (env : TickEnv) (disk : Disk) (i : ℕ) : List TransferJob → Prop
  | [] => True
  | job :: jobs =>
    if job.isLastJob then CmNoFileFails z env disk (i + 1) jobs
    else
      let init := { (env.job i).init with sent := .ok () }
      opens init disk job = true ∧
        if (job.initDataStream init disk).2.isOk then
          ((job.initDataStream init disk).1.read z env.read disk).2.isOk = true
        else CmNoFileFails z env disk (i + 1) jobs

/-! ### One job -/

variable {job : TransferJob} {disk : Disk} {env : InitEnv}

theorem initDataStream_not_opens
    (h : opens env disk job = false) :
    ∃ e, (job.initDataStream env disk).2 = .error e ∧
      (job.initDataStream env disk).1.fileNum = job.fileNum + 1 := by
  have hleft : (job.openDataStream env.openFile disk).1.fileNum = job.fileNum + 1 := by
    unfold opens TransferJob.openDataStream at h
    unfold TransferJob.openDataStream
    split at h
    · split at h
      · cases h
      · next hentry =>
        split at h
        · next hstream =>
          rw [if_pos hstream]
          dsimp only at h ⊢
          split at h
          · cases h
          · rfl
        · cases h
    · split at h <;> cases h
  unfold opens at h
  unfold TransferJob.initDataStream
  generalize job.openDataStream env.openFile disk = r at h hleft ⊢
  obtain ⟨job', e | done⟩ := r
  · exact ⟨e, rfl, hleft⟩
  · cases h

def Past (job : TransferJob) : Prop := ∃ p, job.dataSource = .filePath p ∧ job.currentEntry = none

theorem initDataStream_opens (h : opens env disk job = true) :
    (job.initDataStream env disk).1.fileNum = job.fileNum ∧
    ((job.initDataStream env disk).1.dataStream ≠ none ∨ Past (job.initDataStream env disk).1) := by
  have hopen : (job.openDataStream env.openFile disk).1.fileNum = job.fileNum ∧
      ((job.openDataStream env.openFile disk).1.dataStream ≠ none ∨
        Past (job.openDataStream env.openFile disk).1) := by
    unfold opens TransferJob.openDataStream at h
    unfold TransferJob.openDataStream Past
    split at h
    · next p hsource =>
      split at h
      · next hentry => exact ⟨rfl, Or.inr ⟨p, hsource, hentry⟩⟩
      · split at h
        · next hstream =>
          rw [if_pos hstream]
          dsimp only at h ⊢
          split at h
          · exact ⟨rfl, Or.inl (Option.some_ne_none _)⟩
          · cases h
        · next hstream =>
          rw [if_neg hstream]
          exact ⟨rfl, Or.inl hstream⟩
    · split
      · exact ⟨rfl, Or.inl (Option.some_ne_none _)⟩
      · next hstream => exact ⟨rfl, Or.inl hstream⟩
  unfold opens at h
  unfold TransferJob.initDataStream
  generalize job.openDataStream env.openFile disk = r at h hopen ⊢
  obtain ⟨job', e | _ | _⟩ := r
  · cases h
  · dsimp only
    split
    · split
      · exact hopen
      -- the flag is neither the number nor the stream
      · exact hopen
    · exact hopen
  · exact hopen

theorem read_error {z : Zstd} {env : ReadEnv} {e : String} (h : (job.read z env disk).2 = .error e)
    : ¬ Past job ∧ (job.dataStream = none ∨ (job.read z env disk).1.fileNum = job.fileNum + 1) := by
  have hblock (name : FileTransfer.Path) (h : (job.readBlock z env name disk).2 = .error e) :
      job.dataStream = none ∨ (job.readBlock z env name disk).1.fileNum = job.fileNum + 1 := by
    unfold TransferJob.readBlock at h ⊢
    split at h
    · next hstream => exact Or.inl hstream
    · split at h
      · exact Or.inr rfl
      · split at h <;> cases h
  unfold TransferJob.read at h ⊢
  split at h
  · cases h
  · next hconfirmed =>
    rw [if_neg hconfirmed]
    split at h
    · split at h
      · cases h
      · next hentry =>
        refine ⟨?_, ?_⟩
        · rintro ⟨_, -, hpast⟩
          exact absurd (hentry.symm.trans hpast) (Option.some_ne_none _)
        · exact hblock _ h
    · next hsource =>
      refine ⟨?_, hblock _ h⟩
      rintro ⟨_, hpath, -⟩
      cases hsource.symm.trans hpath

theorem initReport_right_iff (env : InitEnv) (disk : Disk) (job : TransferJob) :
    (∀ r ∈ initReport env disk job, r.Right) ↔ opens env disk job = true := by
  unfold initReport Report.Right
  cases hopens : opens env disk job with
  | false =>
    obtain ⟨e, herror, hnum⟩ := initDataStream_not_opens hopens
    generalize job.initDataStream env disk = r at herror hnum ⊢
    obtain ⟨job', res⟩ := r
    obtain rfl : res = .error e := herror
    refine iff_of_false (fun h => ?_) Bool.false_ne_true
    have hright : job'.fileNum = job.fileNum := h _ (List.mem_singleton_self _)
    exact add_one_ne _ (hnum.symm.trans hright)
  | true =>
    have hnum := (initDataStream_opens hopens).1
    generalize job.initDataStream env disk = r at hnum ⊢
    obtain ⟨job', e | digest⟩ := r
    · refine iff_of_true (fun r hr => ?_) rfl
      rw [List.mem_singleton.mp hr]
      exact hnum
    · exact iff_of_true nofun rfl

variable (z : Zstd)

theorem readReport_right_iff (read : ReadEnv)
    (hopens : opens env disk job = true) :
    (∀ r ∈ readReport z read disk job.fileNum (job.initDataStream env disk).1, r.Right) ↔
      ((job.initDataStream env disk).1.read z read disk).2.isOk = true := by
  obtain ⟨hnum, hstream⟩ := initDataStream_opens hopens
  generalize (job.initDataStream env disk).1 = opened at hnum hstream ⊢
  have herror (e : String) (h : (opened.read z read disk).2 = .error e) :=
    read_error h
  unfold readReport Report.Right
  generalize opened.read z read disk = r at herror ⊢
  obtain ⟨job', e | block⟩ := r
  · obtain ⟨hpast, hleft⟩ := herror e rfl
    have hleft := hleft.resolve_left (hstream.resolve_right hpast)
    refine iff_of_false (fun h => ?_) Bool.false_ne_true
    have hright : job'.fileNum = job.fileNum := h _ (List.mem_singleton_self _)
    exact add_one_ne _ ((hleft.trans (congrArg (· + 1) hnum)).symm.trans hright)
  · exact iff_of_true nofun rfl

/-! ### A call -/

theorem initReports_right_iff (env : ℕ → JobEnv) (disk : Disk) (i : ℕ) (jobs : List ReadJob) :
    (∀ r ∈ initReports env disk i jobs, r.Right) ↔ AllOpen env disk i jobs := by
  induction jobs generalizing i with
  | nil => exact iff_of_true nofun trivial
  | cons job jobs ih =>
    unfold initReports AllOpen
    split
    · exact ih (i + 1)
    · split
      · next hok =>
        rw [List.forall_mem_append, initReport_right_iff, ih (i + 1)]
        exact ⟨fun h _ => h, fun h => h hok⟩
      · next hlost => exact iff_of_true nofun fun hok => absurd hok hlost

theorem firstReport_right_iff (env : TickEnv) (disk : Disk) (i : ℕ) {jobs : List ReadJob}
    (hall : AllOpen env.job disk i jobs) (hsent : (initJobs env.job disk i jobs).2.2 = true) :
    (∀ r ∈ firstReport z env disk i jobs, r.Right) ↔ FirstReads z env disk i jobs := by
  induction jobs generalizing i with
  | nil => exact iff_of_true nofun trivial
  | cons job jobs ih =>
    unfold firstReport FirstReads
    unfold AllOpen at hall
    by_cases hlast : job.isLastJob = true
    · rw [if_pos hlast] at hall
      rw [if_pos hlast, if_pos hlast]
      unfold initJobs at hsent
      rw [if_pos hlast] at hsent
      exact ih (i + 1) hall hsent
    · rw [if_neg hlast] at hall
      rw [if_neg hlast, if_neg hlast]
      rw [initJobs_cons (eq_false_of_ne_true hlast)] at hsent
      have hok : (initJob (env.job i) disk job).2.2 = true := by
        by_contra hlost
        rw [if_neg hlost] at hsent
        cases hsent
      exact readReport_right_iff z env.read (hall hok).1

theorem reports_right_iff (env : TickEnv) (disk : Disk) (jobs : List ReadJob) :
    (∀ r ∈ reports z env disk jobs, r.Right) ↔ NoFileFails z env disk jobs := by
  unfold reports NoFileFails
  rw [List.forall_mem_append, initReports_right_iff]
  refine and_congr_right fun hall => ?_
  cases hinit : (initJobs env.job disk 0 jobs).2.2 with
  | false => exact iff_of_true nofun nofun
  | true =>
    cases hsent : env.sent with
    | false => exact iff_of_true nofun nofun
    | true =>
      rw [if_pos (by rfl), firstReport_right_iff z env disk 0 hall hinit]
      exact ⟨fun h _ _ => h, fun h => h rfl rfl⟩

theorem cmReports_right_iff (env : TickEnv) (disk : Disk) (i : ℕ) (jobs : List TransferJob) :
    (∀ r ∈ cmReports z env disk i jobs, r.Right) ↔ CmNoFileFails z env disk i jobs := by
  induction jobs generalizing i with
  | nil => exact iff_of_true nofun trivial
  | cons job jobs ih =>
    unfold cmReports CmNoFileFails
    split
    · exact ih (i + 1)
    · dsimp only
      split
      · next hok =>
        have hopens : opens { (env.job i).init with sent := .ok () } disk job = true := by
          by_contra hnot
          obtain ⟨e, herror, -⟩ := initDataStream_not_opens (eq_false_of_ne_true hnot)
          rw [herror] at hok
          cases hok
        rw [readReport_right_iff z env.read hopens]
        exact ⟨fun h => ⟨hopens, h⟩, And.right⟩
      · rw [List.forall_mem_append, initReport_right_iff, ih (i + 1)]

/-! ### What is sent -/

section Sent

variable {id : Int32} {err : String} {n : Int32}

theorem error_mem_initMessages {env : JobEnv} {job : TransferJob}
    {res : Except String (Option FileTransferDigest)} :
    FileOut.error id err n ∈ (initMessages env job res).1 ↔
      (initMessages env job res).2 = true ∧ res = .error err ∧ job.id = id ∧ job.fileNum = n := by
  unfold initMessages
  cases res with
  | ok digest =>
    refine iff_of_false (fun h => ?_) nofun
    obtain ⟨_, -, heq⟩ := List.mem_map.mp h
    cases heq
  | error e =>
    cases env.sent with
    | true =>
      simp only [if_true, List.mem_singleton, FileOut.error.injEq, Except.error.injEq, true_and]
      tauto
    | false => simp

theorem error_mem_initJob {env : JobEnv} {disk : Disk} {job : ReadJob} :
    FileOut.error id err n ∈ (initJob env disk job).2.1 ↔ (initJob env disk job).2.2 = true ∧
      (id, err, n) ∈ (initReport env.init disk job.toTransferJob).map Report.message := by
  have haccess : FileOut.error id err n ∉ jobAccesses .read job.toTransferJob := by
    unfold jobAccesses
    split
    · intro h
      cases List.mem_singleton.mp h
    · exact List.not_mem_nil
  unfold initJob initReport
  rw [List.mem_append, or_iff_right haccess, error_mem_initMessages]
  refine and_congr_right fun _ => ?_
  rcases job.toTransferJob.initDataStream env.init disk with ⟨job', e | digest⟩
  · simp only [Report.message, List.map_cons, List.map_nil, List.mem_singleton, Prod.mk.injEq,
      Except.error.injEq]
    tauto
  · exact iff_of_false nofun List.not_mem_nil

theorem error_mem_initJobs (id : Int32) (err : String) (n : Int32) (env : ℕ → JobEnv)
    (disk : Disk) (i : ℕ) (jobs : List ReadJob) :
    FileOut.error id err n ∈ (initJobs env disk i jobs).2.1 ↔
      (id, err, n) ∈ (initReports env disk i jobs).map Report.message := by
  induction jobs generalizing i with
  | nil => exact iff_of_false List.not_mem_nil List.not_mem_nil
  | cons job jobs ih =>
    unfold initReports
    by_cases hlast : job.isLastJob = true
    · rw [if_pos hlast]
      unfold initJobs
      rw [if_pos hlast]
      exact ih (i + 1)
    · rw [if_neg hlast, initJobs_cons (eq_false_of_ne_true hlast)]
      by_cases hok : (initJob (env i) disk job).2.2 = true
      · rw [if_pos hok, if_pos hok, List.map_append, List.mem_append, List.mem_append,
          error_mem_initJob, ih (i + 1)]
        exact or_congr_left (and_iff_right hok)
      · rw [if_neg hok, if_neg hok]
        exact iff_of_false (fun h => hok (error_mem_initJob.mp h).1) List.not_mem_nil

theorem error_mem_readFirst (id : Int32) (err : String) (n : Int32) (z : Zstd) (env : TickEnv)
    (disk : Disk) (i : ℕ) (jobs : List ReadJob)
    (hsent : (initJobs env.job disk i jobs).2.2 = true) :
    (FileOut.error id err n ∈
          (readFirst z env.read disk (initJobs env.job disk i jobs).1).2.1 →
        (id, err, n) ∈ (firstReport z env disk i jobs).map Report.message ∨ err = "skipped") ∧
      ((id, err, n) ∈ (firstReport z env disk i jobs).map Report.message →
        FileOut.error id err n ∈
          (readFirst z env.read disk (initJobs env.job disk i jobs).1).2.1) := by
  induction jobs generalizing i with
  | nil => exact ⟨fun h => absurd h List.not_mem_nil, fun h => absurd h List.not_mem_nil⟩
  | cons job jobs ih =>
    unfold firstReport
    by_cases hlast : job.isLastJob = true
    · rw [if_pos hlast]
      unfold initJobs at hsent ⊢
      rw [if_pos hlast] at hsent ⊢
      unfold readFirst
      rw [if_pos hlast]
      exact ih (i + 1) hsent
    · rw [if_neg hlast]
      rw [initJobs_cons (eq_false_of_ne_true hlast)] at hsent ⊢
      have hok : (initJob (env.job i) disk job).2.2 = true := by
        by_contra hlost
        rw [if_neg hlost] at hsent
        cases hsent
      have hkeeps : (initJob (env.job i) disk job).1.isLastJob = false :=
        (initDataStream_kept (env.job i).init job.toTransferJob disk).last.trans
          (eq_false_of_ne_true hlast)
      rw [if_pos hok, readFirst_cons hkeeps]
      unfold readJob readReport readMessages
      rcases (initJob (env.job i) disk job).1.toTransferJob.read z env.read disk with
        ⟨job', e | _ | block⟩
      · refine ⟨fun h => Or.inl ?_, fun h => ?_⟩
        · cases List.mem_singleton.mp h
          exact List.mem_singleton_self _
        · cases List.mem_singleton.mp h
          exact List.mem_singleton_self _
      · dsimp only
        refine ⟨fun h => Or.inr ?_, fun h => absurd h List.not_mem_nil⟩
        -- the job is done, or waits
        split at h
        · unfold TransferJob.jobError at h
          split at h
          · next heq =>
            split at heq
            · cases heq
              cases List.mem_singleton.mp h
              rfl
            · cases heq
          · cases List.mem_singleton.mp h
        · cases h
      · refine ⟨fun h => ?_, fun h => absurd h List.not_mem_nil⟩
        cases List.mem_singleton.mp h

theorem error_iff_report (z : Zstd) (env : TickEnv) (disk : Disk) (jobs : List ReadJob) :
    (FileOut.error id err n ∈ (handleReadJobs z env disk jobs).2.1 →
        (id, err, n) ∈ (reports z env disk jobs).map Report.message ∨ err = "skipped") ∧
      ((id, err, n) ∈ (reports z env disk jobs).map Report.message →
        FileOut.error id err n ∈ (handleReadJobs z env disk jobs).2.1) := by
  have hinit := error_mem_initJobs id err n env.job disk 0 jobs
  have hread := error_mem_readFirst id err n z env disk 0 jobs
  unfold reports handleReadJobs
  rw [List.map_append, List.mem_append, ← hinit]
  generalize initJobs env.job disk 0 jobs = r at hread ⊢
  obtain ⟨jobs', outs, ok⟩ := r
  cases ok with
  | false =>
    rw [if_neg (by simp)]
    exact ⟨fun h => Or.inl (Or.inl h), fun h => h.resolve_right List.not_mem_nil⟩
  | true =>
    obtain ⟨hmp, hmpr⟩ := hread rfl
    dsimp only at hmp hmpr ⊢
    generalize readFirst z env.read disk jobs' = r at hmp hmpr ⊢
    obtain ⟨jobs'', sent, finished⟩ := r
    cases hsent : env.sent with
    | false =>
      rw [if_neg (by simp)]
      cases sent <;>
        exact ⟨fun h => Or.inl (Or.inl h), fun h => h.resolve_right List.not_mem_nil⟩
    | true =>
      rw [if_pos (by rfl)]
      cases sent with
      | nil =>
        exact ⟨fun h => Or.inl (Or.inl h),
          fun h => h.resolve_right fun h => absurd (hmpr h) List.not_mem_nil⟩
      | cons out sent =>
        dsimp only
        rw [if_pos rfl, List.mem_append]
        refine ⟨fun h => ?_, Or.imp_right hmpr⟩
        rcases h with h | h
        · exact Or.inl (Or.inl h)
        · exact (hmp h).imp_left Or.inr

end Sent

/-! ### All together -/

/-- **Each error names the file that failed**, exactly when no file fails to be opened or read: of
the jobs of a connection, and of those of its connection manager. -/
theorem errors_name_the_file_iff (z : Zstd) (env : TickEnv) (disk : Disk) :
    (∀ jobs : List ReadJob,
        (∀ r ∈ reports z env disk jobs, r.Right) ↔ NoFileFails z env disk jobs) ∧
      ∀ jobs : List TransferJob,
        (∀ r ∈ cmReports z env disk 0 jobs, r.Right) ↔ CmNoFileFails z env disk 0 jobs :=
  ⟨reports_right_iff z env disk, cmReports_right_iff z env disk 0⟩

/-- The first of two files is gone: the error names the second one. -/
theorem missing_file_named_next :
    twoFiles.fileNum = 0 ∧
      (FileOut.error 1 "No such file or directory (os error 2)" 1 ∈
        (handleReadJobs Zstd.storing .quiet FileSystem.empty [twoFiles]).2.1) ∧
      ¬ ∀ r ∈ reports Zstd.storing .quiet FileSystem.empty [twoFiles], r.Right := by
  refine ⟨rfl, ?_, by decide +kernel⟩
  exact (error_iff_report Zstd.storing .quiet FileSystem.empty [twoFiles]).2 (by decide +kernel)

end LibRustdesk.Desktop
