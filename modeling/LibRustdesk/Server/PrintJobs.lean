import LibRustdesk.Server.FileMessages

/-!
# The jobs of a print

A job that was made for an announcement is a print (`ReadJob.Sound`): its data is in memory, so that
neither opening nor confirming it goes to the disk, and what is sent of it is the next part of what
is left (`read_prints`, `initDataStream_prints`, `confirm_prints`).

`Advances` says what a tick or a confirmation does to the jobs of a connection: the announcements
they are for stay, or are less, and of an announcement with one job what has been sent and what is
left are the beginning of what was left. -/

namespace LibRustdesk.Desktop

open FileTransfer (Path FileEntry TransferJob FileTransferBlock FileTransferSendConfirmRequest Disk
  InitEnv SeekEnv)

/-! ### Prints -/

/-- A print: its data is in memory, and has gone from the cursor once it is read. -/
def Prints (job : TransferJob) : Prop :=
  ∃ data pos, job.dataSource = .memoryCursor data pos ∧ (job.dataStream = none ∨
    data.drop pos = [] ∧ ∃ data' pos', job.dataStream = some (.bufStream data' pos'))

def restOf (job : TransferJob) : Bytes :=
  (match job.dataStream with
    | some (.bufStream data pos) => data.drop pos
    | _ => []) ++
  match job.dataSource with
    | .memoryCursor data pos => data.drop pos
    | .filePath _ => []

variable {job : TransferJob}

theorem jobAccesses_prints (h : Prints job) (a : Access) : jobAccesses a job = [] := by
  obtain ⟨data, pos, hsource, -⟩ := h
  unfold jobAccesses
  rw [hsource]

theorem fillBuffer_buf {env : FileTransfer.ReadEnv} {disk : Disk} {data : Bytes} {fuel k pos : ℕ}
    {got buf : Bytes} {stream : FileTransfer.DataStream}
    (h : FileTransfer.fillBuffer env disk fuel k got (.bufStream data pos) = .ok (buf, stream)) :
    ∃ pos', stream = .bufStream data pos' ∧ buf ++ data.drop pos' = got ++ data.drop pos := by
  induction fuel generalizing k pos got with
  | zero =>
    obtain ⟨rfl, rfl⟩ := Prod.mk.inj (Except.ok.inj h)
    exact ⟨pos, rfl, rfl⟩
  | succ fuel ih =>
    unfold FileTransfer.fillBuffer FileTransfer.DataStream.read at h
    cases hcall : env.call k with
    | error e =>
      rw [hcall] at h
      cases h
    | ok most =>
      rw [hcall] at h
      dsimp only at h
      generalize min (most + 1) (FileTransfer.bufSize - got.length) = n at h
      -- a call takes a part of what is left
      obtain ⟨rest, hrest⟩ := List.take_prefix n (data.drop pos)
      have hdrop : data.drop (pos + ((data.drop pos).take n).length) = rest := by
        rw [← List.drop_drop]
        generalize (data.drop pos).take n = bytes at hrest
        rw [← hrest, List.drop_left]
      have hsplit : got ++ (data.drop pos).take n ++
          data.drop (pos + ((data.drop pos).take n).length) = got ++ data.drop pos := by
        rw [hdrop, List.append_assoc, hrest]
      split at h
      · obtain ⟨rfl, rfl⟩ := Prod.mk.inj (Except.ok.inj h)
        exact ⟨_, rfl, hsplit⟩
      · obtain ⟨pos', hstream, hbuf⟩ := ih h
        exact ⟨pos', hstream, hbuf.trans hsplit⟩

def sentBy : Except String (Option FileTransferBlock) → Bytes
  | .ok (some block) => block.data
  | _ => []

theorem read_prints (z : Zstd) (env : FileTransfer.ReadEnv) (disk : Disk)
    (h : Prints job) :
    Prints (job.read z env disk).1 ∧
      sentBy (job.read z env disk).2 ++ restOf (job.read z env disk).1 <+: restOf job := by
  have hprints := h
  -- the fields, so that the source is one
  obtain ⟨id, type, source, isLastJob, isResume, fileNum, files, dataStream, totalSize,
    finishedSize, transferred, detection, confirmed, skipped, waiting, digest⟩ := job
  obtain ⟨data, pos, hsource, hstream⟩ := h
  subst hsource
  unfold TransferJob.read
  split
  · exact ⟨hprints, List.prefix_refl _⟩
  · unfold TransferJob.readBlock
    -- once the stream is dropped, nothing is left
    have hdropped (job : TransferJob) (hempty : data.drop pos = [])
        (hsource : job.dataSource = .memoryCursor data pos) (hnone : job.dataStream = none)
        (rest : Bytes) : Prints job ∧ [] ++ restOf job <+: rest := by
      refine ⟨⟨data, pos, hsource, .inl hnone⟩, ?_⟩
      unfold restOf
      rw [hnone, hsource]
      dsimp only
      rw [hempty]
      exact List.nil_prefix
    rcases hstream with rfl | ⟨hempty, data', pos', rfl⟩
    · exact ⟨hprints, List.prefix_refl _⟩
    · dsimp only
      rcases hfill : FileTransfer.fillBuffer env disk FileTransfer.bufSize 0 []
        (.bufStream data' pos') with e | ⟨buf, stream⟩
      · exact hdropped _ hempty rfl rfl _
      · obtain ⟨pos'', rfl, hbuf⟩ := fillBuffer_buf hfill
        cases buf with
        | nil => exact hdropped _ hempty rfl rfl _
        | cons b buf =>
          dsimp only
          rw [if_neg Bool.false_ne_true]
          refine ⟨⟨data, pos, rfl, .inr ⟨hempty, data', pos'', rfl⟩⟩, ?_⟩
          unfold sentBy restOf
          rw [← List.append_assoc, hbuf]
          exact List.prefix_refl _

theorem initDataStream_prints (env : InitEnv) (disk : Disk) (h : Prints job) :
    Prints (job.initDataStream env disk).1 ∧
      restOf (job.initDataStream env disk).1 = restOf job := by
  have hopen : Prints (job.openDataStream env.openFile disk).1 ∧
      restOf (job.openDataStream env.openFile disk).1 = restOf job := by
    have hprints := h
    obtain ⟨data, pos, hsource, hstream⟩ := h
    unfold TransferJob.openDataStream
    rw [hsource]
    dsimp only
    split
    · next hnone =>
      refine ⟨⟨[], 0, rfl, .inr ⟨rfl, data, pos, rfl⟩⟩, ?_⟩
      unfold restOf
      rw [hnone, hsource]
      simp
    · exact ⟨hprints, rfl⟩
  unfold TransferJob.initDataStream
  generalize job.openDataStream env.openFile disk = opened at hopen ⊢
  obtain ⟨job', _ | _ | _⟩ := opened
  · exact hopen
  · dsimp only
    split
    · split
      · exact hopen
      · exact hopen
    · exact hopen
  · exact hopen

theorem confirm_prints (env : SeekEnv) (r : FileTransferSendConfirmRequest) (disk : Disk)
    (h : Prints job) :
    Prints (confirmStep env r disk job).1 ∧ restOf (confirmStep env r disk job).1 <+: restOf job ∧
      (confirmStep env r disk job).2.disk = disk := by
  have hprints := h
  obtain ⟨id, type, source, isLastJob, isResume, fileNum, files, dataStream, totalSize,
    finishedSize, transferred, detection, confirmed, skipped, waiting, digest⟩ := job
  obtain ⟨data, pos, hsource, hstream⟩ := h
  subst hsource
  unfold confirmStep TransferJob.confirm
  by_cases hnum : fileNum ≠ r.fileNum
  · rw [if_pos hnum]
    exact ⟨hprints, List.prefix_refl _, rfl⟩
  · rw [if_neg hnum]
    cases r.union with
    | none => exact ⟨hprints, List.prefix_refl _, rfl⟩
    | some union =>
      cases union with
      | skip s =>
        cases s with
        | false => exact ⟨hprints, List.prefix_refl _, rfl⟩
        | true =>
          refine ⟨⟨data, pos, rfl, .inl rfl⟩, ?_, rfl⟩
          change [] ++ data.drop pos <+: _ ++ data.drop pos
          rcases hstream with rfl | ⟨hempty, -⟩
          · exact List.prefix_refl _
          · rw [hempty]
            exact List.nil_prefix
      | offsetBlk offset =>
        -- there is no file to seek in
        dsimp only
        by_cases hoffset : offset > 0
        · rw [if_pos hoffset]
          exact ⟨hprints, List.prefix_refl _, rfl⟩
        · rw [if_neg hoffset]
          exact ⟨hprints, List.prefix_refl _, rfl⟩

/-! ### Lists of jobs -/

section Lists

variable {α β : Type} {jobId : α → Int32} {id : Int32}

theorem withJob_some {f : α → α × β} {l l' : List α} {b : β}
    (h : withJob jobId id f l = some (l', b)) :
    ∃ pre job post, l = pre ++ job :: post ∧ jobId job = id ∧ l' = pre ++ (f job).1 :: post ∧
      b = (f job).2 := by
  induction l generalizing l' with
  | nil => cases h
  | cons a l ih =>
    unfold withJob at h
    split at h
    · next hid =>
      obtain ⟨rfl, rfl⟩ := Prod.mk.inj (Option.some.inj h)
      exact ⟨[], a, l, rfl, hid, rfl, rfl⟩
    · obtain ⟨⟨rest, b'⟩, hrest, heq⟩ := Option.map_eq_some_iff.mp h
      obtain ⟨rfl, rfl⟩ := Prod.mk.inj heq
      obtain ⟨pre, job, post, rfl, hid, rfl, rfl⟩ := ih hrest
      exact ⟨a :: pre, job, post, rfl, hid, rfl, rfl⟩

theorem removeJob_some {l rest : List α} {job : α} (h : removeJob jobId id l = some (job, rest)) :
    job ∈ l ∧ jobId job = id ∧ rest.Sublist l := by
  induction l generalizing rest with
  | nil => cases h
  | cons a l ih =>
    unfold removeJob at h
    split at h
    · next hid =>
      obtain ⟨rfl, rfl⟩ := Prod.mk.inj (Option.some.inj h)
      exact ⟨List.mem_cons_self, hid, List.sublist_cons_self _ _⟩
    · obtain ⟨⟨job', rest'⟩, hrest, heq⟩ := Option.map_eq_some_iff.mp h
      obtain ⟨rfl, rfl⟩ := Prod.mk.inj heq
      obtain ⟨hmem, hid, hsub⟩ := ih hrest
      exact ⟨List.mem_cons_of_mem a hmem, hid, hsub.cons_cons a⟩

theorem removed_sublist (l : List α) :
    (((removeJob jobId id l).map Prod.snd).getD l).Sublist l := by
  cases h : removeJob jobId id l with
  | none => exact List.Sublist.refl l
  | some r => exact (removeJob_some h).2.2

variable {p : α → Bool} {f : α → List β}

theorem flatMap_eq_nil_of_countP (hf : ∀ a, p a = false → f a = []) {l : List α}
    (h : l.countP p = 0) : l.flatMap f = [] := by
  refine List.flatMap_eq_nil_iff.mpr fun a ha => hf a ?_
  exact Bool.eq_false_iff.mpr (List.countP_eq_zero.mp h a ha)

theorem flatMap_prefix_of_sublist (hf : ∀ a, p a = false → f a = []) {l l' : List α}
    (h : l'.Sublist l) (hone : l.countP p ≤ 1) : l'.flatMap f <+: l.flatMap f := by
  induction h with
  | slnil => exact List.prefix_refl _
  | @cons l' l a hsub ih =>
    rw [List.flatMap_cons]
    cases ha : p a with
    | true =>
      -- it was the only one
      rw [List.countP_cons_of_pos ha] at hone
      have hzero : l'.countP p ≤ l.countP p := hsub.countP_le
      rw [flatMap_eq_nil_of_countP hf (Nat.le_zero.mp (hzero.trans (Nat.le_of_succ_le_succ hone)))]
      exact List.nil_prefix
    | false =>
      rw [List.countP_cons_of_neg (by simp [ha])] at hone
      rw [hf a ha, List.nil_append]
      exact ih hone
  | @cons_cons l' l a hsub ih =>
    rw [List.flatMap_cons, List.flatMap_cons]
    rw [List.countP_cons] at hone
    exact (List.prefix_append_right_inj _).mpr (ih (Nat.le_of_add_right_le hone))

end Lists

namespace ReadJob

def Sound (job : ReadJob) : Prop := job.origin.isSome = true → Prints job.toTransferJob

end ReadJob

def jobsFor (k : ℕ) (jobs : List ReadJob) : ℕ := jobs.countP (·.origin = some k)

def heldFor (k : ℕ) (jobs : List ReadJob) : Bytes :=
  jobs.flatMap fun job => if job.origin = some k then restOf job.toTransferJob else []

def FileOut.printed (k : ℕ) : FileOut → Bytes
  | .block (some origin) b => if origin = k then b.data else []
  | _ => []

def printed (k : ℕ) (outs : List FileOut) : Bytes := outs.flatMap (FileOut.printed k)

theorem heldFor_eq_nil {k : ℕ} {jobs : List ReadJob} (h : jobsFor k jobs = 0) :
    heldFor k jobs = [] :=
  flatMap_eq_nil_of_countP (fun _ hne => if_neg (of_decide_eq_false hne)) h

theorem heldFor_cons (k : ℕ) (job : ReadJob) (jobs : List ReadJob) :
    heldFor k (job :: jobs) =
      (if job.origin = some k then restOf job.toTransferJob else []) ++ heldFor k jobs :=
  List.flatMap_cons

theorem heldFor_append (k : ℕ) (jobs jobs' : List ReadJob) :
    heldFor k (jobs ++ jobs') = heldFor k jobs ++ heldFor k jobs' :=
  List.flatMap_append

theorem jobsFor_cons (k : ℕ) (job : ReadJob) (jobs : List ReadJob) :
    jobsFor k (job :: jobs) = jobsFor k jobs + if job.origin = some k then 1 else 0 := by
  unfold jobsFor
  rw [List.countP_cons]
  congr 1
  exact if_congr decide_eq_true_iff rfl rfl

theorem jobsFor_append (k : ℕ) (jobs jobs' : List ReadJob) :
    jobsFor k (jobs ++ jobs') = jobsFor k jobs + jobsFor k jobs' :=
  List.countP_append

theorem heldFor_sublist {k : ℕ} {jobs jobs' : List ReadJob} (h : jobs'.Sublist jobs)
    (hone : jobsFor k jobs ≤ 1) : heldFor k jobs' <+: heldFor k jobs :=
  flatMap_prefix_of_sublist (fun _ hne => if_neg (of_decide_eq_false hne)) h hone

/-- The jobs have gone on: of an announcement that has one job `sent` has been sent. -/
structure Advances (k : ℕ) (sent : Bytes) (jobs jobs' : List ReadJob) : Prop where
  sound : (∀ job ∈ jobs, job.Sound) → ∀ job ∈ jobs', job.Sound
  origins : (jobs'.map (·.origin)).Sublist (jobs.map (·.origin))
  held : (∀ job ∈ jobs, job.Sound) → jobsFor k jobs ≤ 1 →
    sent ++ heldFor k jobs' <+: heldFor k jobs

theorem jobsFor_le {jobs jobs' : List ReadJob}
    (h : (jobs'.map (·.origin)).Sublist (jobs.map (·.origin))) (k : ℕ) :
    jobsFor k jobs' ≤ jobsFor k jobs := by
  have hcount (jobs : List ReadJob) :
      jobsFor k jobs = (jobs.map (·.origin)).countP fun origin => origin = some k := by
    rw [List.countP_map]
    rfl
  rw [hcount, hcount]
  exact h.countP_le

namespace Advances

variable {k : ℕ} {sent sent' : Bytes} {jobs jobs' jobs'' : List ReadJob}

theorem refl (k : ℕ) (jobs : List ReadJob) : Advances k [] jobs jobs :=
  ⟨fun h => h, List.Sublist.refl _, fun _ _ => List.prefix_refl _⟩

theorem trans (h : Advances k sent jobs jobs') (h' : Advances k sent' jobs' jobs'') :
    Advances k (sent ++ sent') jobs jobs'' := by
  refine ⟨fun hsound => h'.sound (h.sound hsound), h'.origins.trans h.origins,
    fun hsound hone => ?_⟩
  have hrest := h'.held (h.sound hsound) ((jobsFor_le h.origins k).trans hone)
  rw [List.append_assoc]
  exact ((List.prefix_append_right_inj sent).mpr hrest).trans (h.held hsound hone)

theorem of_sublist (h : jobs'.Sublist jobs) : Advances k [] jobs jobs' := by
  refine ⟨fun hsound job hjob => hsound job (h.subset hjob), h.map _, fun _ hone => ?_⟩
  rw [List.nil_append]
  exact heldFor_sublist h hone

theorem at_job (pre : List ReadJob) {post : List ReadJob} {job job' : ReadJob}
    (horigin : job'.origin = job.origin)
    (hprints : Prints job.toTransferJob → Prints job'.toTransferJob ∧
      (job.origin = some k → sent ++ restOf job'.toTransferJob <+: restOf job.toTransferJob))
    (hother : job.origin ≠ some k → sent = []) :
    Advances k sent (pre ++ job :: post) (pre ++ job' :: post) := by
  refine ⟨fun hsound j hj => ?_, ?_, fun hsound hone => ?_⟩
  · rcases List.mem_append.mp hj with hj | hj
    · exact hsound j (List.mem_append_left _ hj)
    · rcases List.mem_cons.mp hj with rfl | hj
      · intro hsome
        rw [horigin] at hsome
        exact (hprints (hsound job (by simp) hsome)).1
      · exact hsound j (List.mem_append_right _ (List.mem_cons_of_mem _ hj))
  · rw [List.map_append, List.map_append, List.map_cons, List.map_cons, horigin]
  · rw [heldFor_append, heldFor_append, heldFor_cons, heldFor_cons, horigin]
    by_cases hk : job.origin = some k
    · -- the others are for other announcements
      have hothers : jobsFor k pre = 0 ∧ jobsFor k post = 0 := by
        rw [jobsFor_append, jobsFor_cons, if_pos hk] at hone
        omega
      rw [heldFor_eq_nil hothers.1, heldFor_eq_nil hothers.2, if_pos hk, if_pos hk,
        List.nil_append, List.nil_append, List.append_nil, List.append_nil]
      exact (hprints (hsound job (by simp) (by rw [hk]; rfl))).2 hk
    · rw [hother hk, if_neg hk, if_neg hk]
      exact List.prefix_refl _

theorem cons (job : ReadJob) (h : Advances k sent jobs jobs') :
    Advances k sent (job :: jobs) (job :: jobs') := by
  refine ⟨fun hsound j hj => ?_, h.origins.cons_cons _, fun hsound hone => ?_⟩
  · rcases List.mem_cons.mp hj with rfl | hj
    · exact hsound _ List.mem_cons_self
    · exact h.sound (fun j hj => hsound j (List.mem_cons_of_mem _ hj)) j hj
  · rw [jobsFor_cons] at hone
    have hheld := h.held (fun j hj => hsound j (List.mem_cons_of_mem _ hj))
      (Nat.le_of_add_right_le hone)
    rw [heldFor_cons, heldFor_cons]
    by_cases hk : job.origin = some k
    · -- nothing is left in the others, so that nothing was sent
      rw [if_pos hk] at hone
      have hnone : heldFor k jobs = [] := heldFor_eq_nil (by omega)
      rw [hnone] at hheld ⊢
      obtain ⟨hsent, hnone'⟩ := List.append_eq_nil_iff.mp (List.prefix_nil.mp hheld)
      rw [hsent, hnone']
      exact List.prefix_refl _
    · rw [if_neg hk, List.nil_append, List.nil_append]
      exact hheld

theorem opened (env : InitEnv) (disk : Disk) (job : ReadJob) (jobs : List ReadJob) :
    Advances k [] (job :: jobs) (⟨(job.initDataStream env disk).1, job.origin⟩ :: jobs) := by
  refine at_job [] rfl (fun hprints => ?_) fun _ => rfl
  obtain ⟨hprints', hrest⟩ := initDataStream_prints env disk hprints
  refine ⟨hprints', fun _ => ?_⟩
  rw [hrest]
  exact List.prefix_refl _

theorem reads (z : Zstd) (env : FileTransfer.ReadEnv) (disk : Disk) (job : ReadJob)
    (jobs : List ReadJob) :
    Advances k (if job.origin = some k then sentBy (job.read z env disk).2 else [])
      (job :: jobs) (⟨(job.read z env disk).1, job.origin⟩ :: jobs) := by
  refine at_job [] rfl (fun hprints => ?_) fun hk => if_neg hk
  obtain ⟨hprints', hrest⟩ := read_prints z env disk hprints
  refine ⟨hprints', fun hk => ?_⟩
  rw [if_pos hk]
  exact hrest

theorem confirms (env : SeekEnv) (r : FileTransferSendConfirmRequest) (disk : Disk)
    (pre post : List ReadJob) (job : ReadJob) :
    Advances k [] (pre ++ job :: post)
      (pre ++ ⟨(confirmStep env r disk job.toTransferJob).1, job.origin⟩ :: post) := by
  refine at_job pre rfl (fun hprints => ?_) fun _ => rfl
  obtain ⟨hprints', hrest, -⟩ := confirm_prints env r disk hprints
  exact ⟨hprints', fun _ => hrest⟩

end Advances

/-! ### A tick -/

theorem printed_append (k : ℕ) (outs outs' : List FileOut) :
    printed k (outs ++ outs') = printed k outs ++ printed k outs' :=
  List.flatMap_append

theorem printed_block (k : ℕ) (origin : Option ℕ) (b : FileTransferBlock) :
    printed k [.block origin b] = if origin = some k then b.data else [] := by
  cases origin with
  | none => rfl
  | some j =>
    change (if j = k then b.data else []) ++ [] = _
    rw [List.append_nil]
    exact if_congr (by rw [Option.some.injEq]) rfl rfl

def Quiet (outs : List FileOut) : Prop := ∀ out ∈ outs, out.isAccess = false

theorem Quiet.append {outs outs' : List FileOut} (h : Quiet outs) (h' : Quiet outs') :
    Quiet (outs ++ outs') :=
  List.forall_mem_append.mpr ⟨h, h'⟩

theorem printed_jobAccesses (k : ℕ) (a : Access) (job : TransferJob) :
    printed k (jobAccesses a job) = [] := by
  unfold jobAccesses
  cases job.dataSource <;> rfl

theorem printed_digest (k : ℕ) (digest : Option FileTransfer.FileTransferDigest) :
    printed k (digest.toList.map .digest) = [] := by
  cases digest <;> rfl

theorem quiet_digest (digest : Option FileTransfer.FileTransferDigest) :
    Quiet (digest.toList.map .digest) := by
  cases digest <;> simp [Quiet, FileOut.isAccess]

section Tick

variable (k : ℕ) (z : Zstd) (disk : Disk) (jobs : List ReadJob)

theorem initJobs_advances (env : ℕ → JobEnv) (i : ℕ) :
    Advances k [] jobs (initJobs env disk i jobs).1 ∧
      printed k (initJobs env disk i jobs).2.1 = [] := by
  induction jobs generalizing i with
  | nil => exact ⟨.refl k [], rfl⟩
  | cons job jobs ih =>
    obtain ⟨hrest, hprinted⟩ := ih (i + 1)
    unfold initJobs
    split
    · exact ⟨hrest.cons job, hprinted⟩
    · have hopened := Advances.opened (k := k) (env i).init disk job jobs
      generalize job.initDataStream (env i).init disk = opened at hopened ⊢
      obtain ⟨job', e | digest⟩ := opened
      · dsimp only
        split
        · refine ⟨hopened.trans (hrest.cons _), ?_⟩
          rw [printed_append, printed_append, printed_jobAccesses, hprinted]
          rfl
        · exact ⟨hopened, printed_jobAccesses k .read _⟩
      · refine ⟨hopened.trans (hrest.cons _), ?_⟩
        rw [printed_append, printed_append, printed_jobAccesses, printed_digest, hprinted]
        rfl

theorem initJobs_quiet {jobs : List ReadJob} (env : ℕ → JobEnv) (i : ℕ)
    (h : ∀ job ∈ jobs, Prints job.toTransferJob) : Quiet (initJobs env disk i jobs).2.1 := by
  induction jobs generalizing i with
  | nil => exact fun _ hout => absurd hout List.not_mem_nil
  | cons job jobs ih =>
    have hrest := ih (i + 1) fun j hj => h j (List.mem_cons_of_mem _ hj)
    have hnone : jobAccesses .read job.toTransferJob = [] :=
      jobAccesses_prints (h job List.mem_cons_self) .read
    unfold initJobs
    rw [hnone]
    split
    · exact hrest
    · generalize job.initDataStream (env i).init disk = opened
      obtain ⟨job', e | digest⟩ := opened
      · dsimp only
        split
        · exact Quiet.append (by simp [Quiet, FileOut.isAccess]) hrest
        · exact fun _ hout => absurd hout List.not_mem_nil
      · exact (quiet_digest digest).append hrest

theorem readFirst_advances (env : FileTransfer.ReadEnv) :
    Advances k (printed k (readFirst z env disk jobs).2.1) jobs (readFirst z env disk jobs).1 := by
  induction jobs with
  | nil => exact .refl k []
  | cons job jobs ih =>
    unfold readFirst
    split
    · exact ih.cons job
    · have hreads := Advances.reads (k := k) z env disk job jobs
      generalize job.read z env disk = r at hreads ⊢
      obtain ⟨job', e | _ | block⟩ := r
      · change Advances k (if job.origin = some k then [] else []) _ _ at hreads
        rw [ite_self] at hreads
        exact hreads
      · change Advances k (if job.origin = some k then [] else []) _ _ at hreads
        rw [ite_self] at hreads
        dsimp only
        split
        · cases job'.jobError <;> exact hreads
        · exact hreads
      · change Advances k (printed k [.block job.origin block]) _ _
        rw [printed_block]
        exact hreads

theorem readFirst_quiet (env : FileTransfer.ReadEnv) : Quiet (readFirst z env disk jobs).2.1 := by
  induction jobs with
  | nil => exact fun _ hout => absurd hout List.not_mem_nil
  | cons job jobs ih =>
    unfold readFirst
    split
    · exact ih
    · generalize job.read z env disk = r
      obtain ⟨job', e | _ | block⟩ := r
      · simp [Quiet, FileOut.isAccess]
      · dsimp only
        split
        · cases job'.jobError <;> simp [Quiet, FileOut.isAccess]
        · simp [Quiet]
      · simp [Quiet, FileOut.isAccess]

theorem afterRead_sublist (finished : Option Int32) :
    (handleReadJobs.afterRead finished jobs).Sublist jobs := by
  cases finished with
  | none => exact List.Sublist.refl _
  | some id => exact removed_sublist jobs

theorem handleReadJobs_advances (env : TickEnv) :
    ∃ sent, Advances k sent jobs (handleReadJobs z env disk jobs).1 ∧
      ((handleReadJobs z env disk jobs).2.2 = true →
        printed k (handleReadJobs z env disk jobs).2.1 = sent) ∧
      ((handleReadJobs z env disk jobs).2.2 = false →
        printed k (handleReadJobs z env disk jobs).2.1 = []) := by
  unfold handleReadJobs
  obtain ⟨hinit, hprinted⟩ := initJobs_advances k disk jobs env.job 0
  generalize initJobs env.job disk 0 jobs = r at hinit hprinted ⊢
  obtain ⟨jobs', outs, ok⟩ := r
  cases ok with
  | false => exact ⟨[], hinit, fun _ => hprinted, fun _ => hprinted⟩
  | true =>
    have hread := readFirst_advances k z disk jobs' env.read
    dsimp only
    generalize readFirst z env.read disk jobs' = r at hread ⊢
    obtain ⟨jobs'', sent, finished⟩ := r
    have hafter := Advances.of_sublist (k := k) (afterRead_sublist jobs'' finished)
    cases sent with
    | nil => exact ⟨[], (hinit.trans hread).trans hafter, fun _ => hprinted, fun _ => hprinted⟩
    | cons out sent =>
      dsimp only
      split
      · refine ⟨printed k (out :: sent), ?_, fun _ => ?_, fun hok => Bool.noConfusion hok⟩
        · have hall := (hinit.trans hread).trans hafter
          rw [List.append_nil] at hall
          exact hall
        · rw [printed_append, hprinted]
          rfl
      · exact ⟨_, hinit.trans hread, fun hok => Bool.noConfusion hok, fun _ => hprinted⟩

theorem handleReadJobs_quiet {jobs : List ReadJob} (env : TickEnv)
    (h : ∀ job ∈ jobs, Prints job.toTransferJob) :
    Quiet (handleReadJobs z env disk jobs).2.1 := by
  unfold handleReadJobs
  have hinit := initJobs_quiet disk env.job 0 h
  generalize initJobs env.job disk 0 jobs = r at hinit ⊢
  obtain ⟨jobs', outs, ok⟩ := r
  cases ok with
  | false => exact hinit
  | true =>
    have hread := readFirst_quiet z disk jobs' env.read
    dsimp only
    generalize readFirst z env.read disk jobs' = r at hread ⊢
    obtain ⟨jobs'', sent, finished⟩ := r
    cases sent with
    | nil => exact hinit
    | cons out sent =>
      dsimp only
      split
      · exact hinit.append hread
      · exact hinit

end Tick

end LibRustdesk.Desktop
