import LibRustdesk.Server.Moves
import LibRustdesk.Server.PrintJobs

/-!
# Each print is sent once

* `Transfers.Deed` — what a step does to the jobs of a connection and to what it has to print, with
  `Transfers.step_deed`, from which all else here is derived.
* `Transfers.Once` — the invariant: an announced print is waiting, or in one job, or has gone.
* `Transfers.left` — what is left of it. A step sends the beginning of it (`left_step`), so that a
  run sends the beginning of what was announced (`printed_run`). -/

namespace LibRustdesk.Desktop

open FileTransfer (Path FileEntry TransferJob FileTransferSendConfirmRequest Disk SeekEnv)

/-! ### What a step does -/

def Unprinted (outs : List FileOut) : Prop := ∀ k, printed k outs = []

namespace Transfers

/-- What a step does to the jobs and to what there is to print. -/
inductive Deed (t t' : Transfers) (outs : List FileOut) : Prop
  | goesOn (hdata : t'.printerData = t.printerData) (hannounced : t'.announced = t.announced)
      (hjobs : ∀ k, Advances k (printed k outs) t.readJobs t'.readJobs)
  /-- What was read of a job is lost with the connection. -/
  | lost (hdata : t'.printerData = t.printerData) (hannounced : t'.announced = t.announced)
      (hended : t'.world.ended = true) (hnone : Unprinted outs)
      (hjobs : ∀ k, ∃ sent, Advances k sent t.readJobs t'.readJobs)
  | reads (job : TransferJob)
      (hdata : t'.printerData = t.printerData) (hannounced : t'.announced = t.announced)
      (hjobs : t'.readJobs = t.readJobs ++ [⟨job, none⟩]) (hnone : Unprinted outs)
  | prints (job : TransferJob) (p : PrinterData) (pre post : List PrinterData)
      (hdata : t.printerData = pre ++ p :: post) (hdata' : t'.printerData = pre ++ post)
      (hannounced : t'.announced = t.announced)
      (hsource : job.dataSource = .memoryCursor p.data 0) (hstream : job.dataStream = none)
      (hjobs : t'.readJobs = t.readJobs ++ [⟨job, some p.serial⟩]) (hnone : Unprinted outs)
  | announces (now : ℕ) (path : Path) (data : Bytes)
      (old : List PrinterData) (hold : old.Sublist t.printerData)
      (hdata : t'.printerData = old ++ [⟨now, path, data, t.announced.length⟩])
      (hannounced : t'.announced = t.announced ++ [(path, data)])
      (hjobs : t'.readJobs = t.readJobs) (hnone : Unprinted outs)

theorem Deed.stays {t t' : Transfers} {outs : List FileOut}
    (hdata : t'.printerData = t.printerData) (hannounced : t'.announced = t.announced)
    (hjobs : t'.readJobs = t.readJobs) (hnone : Unprinted outs) : Deed t t' outs := by
  refine .goesOn hdata hannounced fun k => ?_
  rw [hjobs, hnone k]
  exact .refl k _

theorem Deed.withWorld {t t' : Transfers} {outs : List FileOut} (h : Deed t t' outs) (w : World)
    (hended : t'.world.ended = true → w.ended = true) : Deed t { t' with world := w } outs := by
  cases h with
  | goesOn hdata hannounced hjobs => exact .goesOn hdata hannounced hjobs
  | lost hdata hannounced hend hnone hjobs =>
    exact .lost hdata hannounced (hended hend) hnone hjobs
  | reads job hdata hannounced hjobs hnone => exact .reads job hdata hannounced hjobs hnone
  | prints job p pre post hdata hdata' hannounced hsource hstream hjobs hnone =>
    exact .prints job p pre post hdata hdata' hannounced hsource hstream hjobs hnone
  | announces now path data old hold hdata hannounced hjobs hnone =>
    exact .announces now path data old hold hdata hannounced hjobs hnone

theorem createAndStartReadJob_files (t : Transfers) (env : ActionEnv) (id : Int32) (fileNum : Int32)
    (od : Bool) (path : Path) :
    ∃ outs, Unprinted outs ∧
      (t.createAndStartReadJob env id .generic (.filePath path) none fileNum od path true =
          (t, outs) ∨
        ∃ job, t.createAndStartReadJob env id .generic (.filePath path) none fileNum od path true =
          ({ t with readJobs := t.readJobs ++ [⟨job, none⟩] }, outs)) := by
  unfold createAndStartReadJob
  dsimp only
  split
  · exact ⟨_, fun _ => rfl, .inl rfl⟩
  · next job _ =>
    split
    · exact ⟨_, fun _ => rfl, .inl rfl⟩
    · exact ⟨_, fun _ => rfl, .inr ⟨job, rfl⟩⟩

theorem createAndStartReadJob_data (t : Transfers) (env : ActionEnv) (id : Int32) (data : Bytes)
    (origin : Option ℕ) (fileNum : Int32) (od : Bool) (path : Path) :
    ∃ job : TransferJob, job.dataSource = .memoryCursor data 0 ∧ job.dataStream = none ∧
      t.createAndStartReadJob env id .printer (.memoryCursor data 0) origin fileNum od path false =
        ({ t with readJobs := t.readJobs ++ [⟨job, origin⟩] }, [.dir id path []]) :=
  ⟨_, rfl, rfl, rfl⟩

theorem find_eraseP {α : Type} {q : α → Bool} {l : List α} {a : α} (h : l.find? q = some a) :
    ∃ pre post, l = pre ++ a :: post ∧ l.eraseP q = pre ++ post := by
  obtain ⟨ha, pre, post, rfl, hpre⟩ := List.find?_eq_some_iff_append.mp h
  refine ⟨pre, post, rfl, ?_⟩
  rw [List.eraseP_append_right _ (fun b hb => by simpa using hpre b hb), List.eraseP_cons_of_pos ha]

variable {t : Transfers}

theorem sendConfirm_spec {seek : SeekEnv} {r : FileTransferSendConfirmRequest}
    {jobs : List ReadJob} {res : JobResult}
    (h : withJob (fun job : ReadJob => job.id) r.id (fun job =>
      (⟨(confirmStep seek r t.disk job.toTransferJob).1, job.origin⟩,
        (confirmStep seek r t.disk job.toTransferJob).2)) t.readJobs = some (jobs, res)) :
    (∀ k, Advances k [] t.readJobs jobs) ∧ ∃ job ∈ t.readJobs,
      res.outs = jobAccesses .read job.toTransferJob ∧
        (Prints job.toTransferJob → res.disk = t.disk) := by
  obtain ⟨pre, job, post, hjobs, -, rfl, rfl⟩ := withJob_some h
  rw [hjobs]
  refine ⟨fun _ => .confirms seek r t.disk pre post job, job, by simp, ?_, fun hprints => ?_⟩
  · unfold confirmStep
    split <;> rfl
  · exact (confirm_prints seek r t.disk hprints).2.2

theorem handleFileAction_deed (host : FileHost) (t : Transfers) (env : ActionEnv)
    (u : FileActionUnion) :
    Deed t (t.handleFileAction host env u).1 (t.handleFileAction host env u).2 := by
  cases u with
  | readEmptyDirs | readDir | receive | removeDir | removeFile | create | rename | none =>
    exact .stays rfl rfl rfl fun _ => rfl
  | allFiles id path hidden =>
    unfold handleFileAction
    dsimp only
    split
    · exact .stays rfl rfl rfl fun _ => rfl
    · split
      · exact .stays rfl rfl rfl fun _ => rfl
      · split
        · exact .stays rfl rfl rfl fun _ => rfl
        · exact .stays rfl rfl rfl fun _ => rfl
  | send id path fileNum hidden fileType =>
    unfold handleFileAction
    dsimp only
    split
    · split
      · exact .stays rfl rfl rfl fun _ => rfl
      · obtain ⟨outs, hnone, heq | ⟨job, heq⟩⟩ :=
          t.createAndStartReadJob_files env id fileNum t.overwriteDetection path
        · rw [heq]
          exact .stays rfl rfl rfl hnone
        · rw [heq]
          exact .reads job rfl rfl rfl hnone
    · split
      · next p hfind =>
        obtain ⟨pre, post, hdata, herase⟩ := find_eraseP hfind
        obtain ⟨job, hsource, hstream, heq⟩ := createAndStartReadJob_data
          { t with printerData := t.printerData.eraseP (·.path = path) } env id p.data
          (some p.serial) fileNum true path
        rw [heq]
        exact .prints job p pre post hdata herase rfl hsource hstream rfl fun _ => rfl
      · exact .stays rfl rfl rfl fun _ => rfl
  | cancel id => exact .goesOn rfl rfl fun k => .of_sublist (removed_sublist t.readJobs)
  | sendConfirm r =>
    unfold handleFileAction
    dsimp only
    split
    · next jobs res h =>
      obtain ⟨hjobs, job, -, houts, -⟩ := sendConfirm_spec h
      refine .goesOn rfl rfl fun k => ?_
      rw [houts, printed_jobAccesses]
      exact hjobs k
    · split
      · exact .stays rfl rfl rfl fun _ => rfl
      · exact .stays rfl rfl rfl fun _ => rfl

theorem onFileAction_deed (host : FileHost) (t : Transfers) (env : ActionEnv) (u : FileActionUnion)
    : Deed t (t.onFileAction host env u).1 (t.onFileAction host env u).2 := by
  unfold onFileAction
  split
  · split
    · split
      · exact .stays rfl rfl rfl fun _ => rfl
      · exact .stays rfl rfl rfl fun _ => rfl
    · split
      · exact .stays rfl rfl rfl fun _ => rfl
      · exact handleFileAction_deed host t env u
  · exact .stays rfl rfl rfl fun _ => rfl

theorem unprinted_handleFs (z : Zstd) (env : FsEnv) (cm : Cm) (disk : Disk) (fs : FS) :
    Unprinted (handleFs z env cm disk fs).2.2 := by
  -- a job that is looked for
  have honJob {id : Int32} {f : TransferJob → TransferJob × JobResult}
      (h : ∀ job, Unprinted (f job).2.outs) : Unprinted (cm.onJob disk id f).2.2 := by
    unfold Cm.onJob
    split
    · next hsome =>
      obtain ⟨-, job, -, -, -, -, rfl⟩ := withJob_some hsome
      exact h job
    · exact fun _ => rfl
  have honRemoved {id : Int32} {f : TransferJob → Disk × List FileOut}
      (h : ∀ job, Unprinted (f job).2) : Unprinted (cm.onRemoved disk id f).2.2 := by
    unfold Cm.onRemoved
    split
    · exact h _
    · exact fun _ => rfl
  have hconfirm (r : FileTransferSendConfirmRequest) (job : TransferJob) :
      Unprinted (confirmStep env.seek r disk job).2.outs := by
    unfold confirmStep
    split <;> exact fun k => printed_jobAccesses k .read job
  cases fs with
  | newWrite path id fileNum files od totalSize =>
    unfold handleFs
    dsimp only
    split <;> exact fun _ => rfl
  | cancelWrite id => exact honRemoved fun job k => printed_jobAccesses k .remove job
  | writeDone id fileNum =>
    refine honRemoved fun job k => ?_
    rw [printed_append, printed_jobAccesses]
    rfl
  | writeError id fileNum err => exact honRemoved fun job _ => rfl
  | writeBlock | checkDigest =>
    refine honJob fun job k => ?_
    rw [printed_append, printed_jobAccesses]
    split <;> rfl
  | sendConfirm r => exact honJob (hconfirm r)
  | readFile path id fileNum hidden od =>
    unfold handleFs
    dsimp only
    split
    · exact fun _ => rfl
    · split <;> exact fun _ => rfl
  | sendConfirmForRead id skip offset =>
    unfold handleFs
    dsimp only
    split
    · next hsome =>
      obtain ⟨-, job, -, -, -, -, rfl⟩ := withJob_some hsome
      exact hconfirm _ job
    · exact fun _ => rfl
  | _ => exact fun _ => rfl

theorem unprinted_handleReadJobsTick (z : Zstd) (env : TickEnv) (disk : Disk) (i : ℕ)
    (jobs : List TransferJob) : Unprinted (handleReadJobsTick z env disk i jobs).2.1 := by
  induction jobs generalizing i with
  | nil => exact fun _ => rfl
  | cons job jobs ih =>
    unfold handleReadJobsTick
    split
    · exact ih (i + 1)
    · split
      · intro k
        rw [printed_append, printed_jobAccesses, ih (i + 1) k]
        rfl
      · split <;> exact fun k => printed_jobAccesses k .read job

theorem step_deed (host : FileHost) (t : Transfers) (e : FileEvent) :
    Deed t (step host t e).1 (step host t e).2 := by
  cases e with
  | action env u =>
    have hdeed : Deed t (if t.hears then t.onFileAction host env u else (t, [])).1
        (if t.hears then t.onFileAction host env u else (t, [])).2 := by
      split
      · exact onFileAction_deed host t env u
      · exact .stays rfl rfl rfl fun _ => rfl
    exact hdeed.withWorld _ fun h => (congrArg World.ended (World.step_of_ended h _)).trans h
  | response env u =>
    unfold step
    dsimp only
    split
    · cases u <;> exact .stays rfl rfl rfl fun _ => rfl
    · exact .stays rfl rfl rfl fun _ => rfl
  | fs env =>
    unfold step
    dsimp only
    split
    · exact .stays rfl rfl rfl fun _ => rfl
    · exact .stays rfl rfl rfl fun _ => rfl
    · exact .stays rfl rfl rfl (unprinted_handleFs _ _ _ _ _)
  | fileTimer env =>
    unfold step
    dsimp only
    split
    · exact .stays rfl rfl rfl fun _ => rfl
    · next hgoes =>
      have hadvances := fun k => handleReadJobs_advances k host.z t.disk t.readJobs env
      generalize handleReadJobs host.z env t.disk t.readJobs = r at hadvances ⊢
      obtain ⟨jobs, outs, ok⟩ := r
      cases ok with
      | true =>
        refine .goesOn rfl rfl fun k => ?_
        obtain ⟨sent, hjobs, hsent, -⟩ := hadvances k
        rw [hsent rfl]
        exact hjobs
      | false =>
        have hnone : Unprinted outs := fun k => (hadvances k).choose_spec.2.2 rfl
        have hjobs (k : ℕ) : ∃ sent, Advances k sent t.readJobs jobs :=
          (hadvances k).imp fun _ h => h.1
        exact .lost rfl rfl rfl hnone hjobs
  | cmTimer env =>
    unfold step
    dsimp only
    split
    · exact .stays rfl rfl rfl (unprinted_handleReadJobsTick _ _ _ _ _)
    · exact .stays rfl rfl rfl fun _ => rfl
  | cmAnswer id => exact .stays rfl rfl rfl fun _ => rfl
  | printerData now stamp data permitted =>
    unfold step
    dsimp only
    split
    · exact .announces now (printerPath stamp) data _ List.filter_sublist rfl rfl rfl fun _ => rfl
    · exact .stays rfl rfl rfl fun _ => rfl
  | delayReadDir | selectedSid =>
    unfold step
    dsimp only
    split
    · split <;> exact .stays rfl rfl rfl fun _ => rfl
    · exact .stays rfl rfl rfl fun _ => rfl
  | connection ev =>
    unfold step
    dsimp only
    split <;> exact .stays rfl rfl rfl fun _ => rfl

/-! ### What is left of a print -/

def waitingFor (k : ℕ) (l : List PrinterData) : ℕ := l.countP (·.serial = k)

def waiting (k : ℕ) (l : List PrinterData) : Bytes :=
  l.flatMap fun p => if p.serial = k then p.data else []

theorem waitingFor_append (k : ℕ) (l l' : List PrinterData) :
    waitingFor k (l ++ l') = waitingFor k l + waitingFor k l' :=
  List.countP_append

theorem waitingFor_cons (k : ℕ) (p : PrinterData) (l : List PrinterData) :
    waitingFor k (p :: l) = waitingFor k l + if p.serial = k then 1 else 0 := by
  unfold waitingFor
  rw [List.countP_cons]
  congr 1
  exact if_congr decide_eq_true_iff rfl rfl

theorem waiting_append (k : ℕ) (l l' : List PrinterData) :
    waiting k (l ++ l') = waiting k l ++ waiting k l' :=
  List.flatMap_append

theorem waiting_cons (k : ℕ) (p : PrinterData) (l : List PrinterData) :
    waiting k (p :: l) = (if p.serial = k then p.data else []) ++ waiting k l :=
  List.flatMap_cons

variable {k : ℕ}

theorem waiting_eq_nil {l : List PrinterData} (h : waitingFor k l = 0) : waiting k l = [] :=
  flatMap_eq_nil_of_countP (fun _ hne => if_neg (of_decide_eq_false hne)) h

theorem waiting_sublist {l l' : List PrinterData} (h : l'.Sublist l)
    (hone : waitingFor k l ≤ 1) : waiting k l' <+: waiting k l :=
  flatMap_prefix_of_sublist (fun _ hne => if_neg (of_decide_eq_false hne)) h hone

/-- An announced print is waiting, or in one job, or has gone. -/
structure Once (t : Transfers) : Prop where
  sound : ∀ job ∈ t.readJobs, job.Sound
  once : ∀ k, waitingFor k t.printerData + jobsFor k t.readJobs ≤ 1
  known : ∀ k, t.announced.length ≤ k → waitingFor k t.printerData + jobsFor k t.readJobs = 0
  named : ∀ p ∈ t.printerData, t.announced[p.serial]? = some (p.path, p.data)

def left (k : ℕ) (t : Transfers) : Bytes :=
  if t.world.ended then [] else waiting k t.printerData ++ heldFor k t.readJobs

theorem left_prefix {t t' : Transfers} {sent : Bytes}
    (hended : t.world.ended = true → sent = [] ∧ t'.world.ended = true)
    (h : sent ++ (waiting k t'.printerData ++ heldFor k t'.readJobs) <+:
      waiting k t.printerData ++ heldFor k t.readJobs) :
    sent ++ t'.left k <+: t.left k := by
  unfold left
  cases hend : t.world.ended with
  | true =>
    obtain ⟨rfl, hend'⟩ := hended hend
    rw [hend']
    exact List.prefix_refl _
  | false =>
    cases hend' : t'.world.ended with
    | true => exact (List.prefix_append_right_inj sent).mpr List.nil_prefix |>.trans h
    | false => exact h

theorem announced_step (host : FileHost) (t : Transfers) (e : FileEvent) :
    t.announced <+: (step host t e).1.announced := by
  cases step_deed host t e with
  | goesOn _ h _ | lost _ h _ _ _ | reads _ _ h _ _ | prints _ _ _ _ _ _ h _ _ _ _ =>
    rw [h]
  | announces _ _ _ _ _ _ h _ _ =>
    rw [h]
    exact List.prefix_append _ _

theorem step_ended (host : FileHost) (h : t.world.ended = true) (e : FileEvent) :
    Unprinted (step host t e).2 ∧ (step host t e).1.world.ended = true := by
  have hdeaf : t.hears = false := by
    unfold hears
    rw [h]
    rfl
  have hstays (ev : Event) : (Desktop.step t.world ev).ended = true :=
    (congrArg World.ended (World.step_of_ended h ev)).trans h
  unfold step
  cases e with
  | action | response =>
    rw [hdeaf]
    exact ⟨fun _ => rfl, hstays _⟩
  | fs env =>
    dsimp only
    split
    · exact ⟨fun _ => rfl, h⟩
    · exact ⟨fun _ => rfl, h⟩
    · exact ⟨unprinted_handleFs _ _ _ _ _, h⟩
  | fileTimer | printerData =>
    rw [h]
    exact ⟨fun _ => rfl, h⟩
  | cmTimer env =>
    dsimp only
    split
    · exact ⟨unprinted_handleReadJobsTick _ _ _ _ _, h⟩
    · exact ⟨fun _ => rfl, h⟩
  | cmAnswer id => exact ⟨fun _ => rfl, h⟩
  | delayReadDir =>
    dsimp only
    split
    · split <;> exact ⟨fun _ => rfl, h⟩
    · exact ⟨fun _ => rfl, h⟩
  | selectedSid =>
    rw [hdeaf]
    exact ⟨fun _ => rfl, h⟩
  | connection ev =>
    dsimp only
    split
    · exact ⟨fun _ => rfl, h⟩
    · exact ⟨fun _ => rfl, h⟩
    · exact ⟨fun _ => rfl, hstays _⟩

theorem Once.of_advances {t t' : Transfers} (h : t.Once)
    (hdata : t'.printerData = t.printerData) (hannounced : t'.announced = t.announced)
    (hjobs : ∀ k, ∃ sent, Advances k sent t.readJobs t'.readJobs) : t'.Once := by
  have hcount (k : ℕ) : waitingFor k t'.printerData + jobsFor k t'.readJobs ≤
      waitingFor k t.printerData + jobsFor k t.readJobs := by
    obtain ⟨sent, hk⟩ := hjobs k
    rw [hdata]
    exact Nat.add_le_add_left (jobsFor_le hk.origins k) _
  refine ⟨?_, fun k => (hcount k).trans (h.once k), fun k hk => ?_, ?_⟩
  · obtain ⟨sent, h0⟩ := hjobs 0
    exact h0.sound h.sound
  · rw [hannounced] at hk
    exact Nat.le_zero.mp ((hcount k).trans (h.known k hk).le)
  · rw [hdata, hannounced]
    exact h.named

theorem once_step (host : FileHost) (h : t.Once) (e : FileEvent) : (step host t e).1.Once := by
  have hdeed := step_deed host t e
  generalize step host t e = r at hdeed ⊢
  obtain ⟨t', outs⟩ := r
  cases hdeed with
  | goesOn hdata hannounced hjobs => exact h.of_advances hdata hannounced fun k => ⟨_, hjobs k⟩
  | lost hdata hannounced _ _ hjobs => exact h.of_advances hdata hannounced hjobs
  | reads job hdata hannounced hjobs _ =>
    have hcount (k : ℕ) : jobsFor k t'.readJobs = jobsFor k t.readJobs := by
      rw [hjobs, jobsFor_append, jobsFor_cons]
      rfl
    refine ⟨fun j hj => ?_, fun k => ?_, fun k hk => ?_, ?_⟩
    · rw [hjobs] at hj
      rcases List.mem_append.mp hj with hj | hj
      · exact h.sound j hj
      · rw [List.mem_singleton.mp hj]
        exact fun hsome => Bool.noConfusion hsome
    · rw [hdata, hcount]
      exact h.once k
    · rw [hannounced] at hk
      rw [hdata, hcount]
      exact h.known k hk
    · rw [hdata, hannounced]
      exact h.named
  | prints job p pre post hdata hdata' hannounced hsource hstream hjobs _ =>
    -- the data has gone from those that wait to the jobs
    have hcount (k : ℕ) : waitingFor k t'.printerData + jobsFor k t'.readJobs =
        waitingFor k t.printerData + jobsFor k t.readJobs := by
      rw [hdata, hdata', hjobs, waitingFor_append, waitingFor_append, waitingFor_cons,
        jobsFor_append, jobsFor_cons]
      have hsame : (if some p.serial = some k then 1 else 0) = if p.serial = k then 1 else 0 :=
        if_congr Option.some_inj rfl rfl
      rw [show jobsFor k [] = 0 from rfl, hsame]
      omega
    refine ⟨fun j hj => ?_, fun k => (hcount k).trans_le (h.once k), fun k hk => ?_,
      fun q hq => ?_⟩
    · rw [hjobs] at hj
      rcases List.mem_append.mp hj with hj | hj
      · exact h.sound j hj
      · rw [List.mem_singleton.mp hj]
        exact fun _ => ⟨p.data, 0, hsource, .inl hstream⟩
    · rw [hannounced] at hk
      exact (hcount k).trans (h.known k hk)
    · rw [hannounced]
      refine h.named q ?_
      rw [hdata' ] at hq
      rw [hdata]
      rcases List.mem_append.mp hq with hq | hq
      · exact List.mem_append_left _ hq
      · exact List.mem_append_right _ (List.mem_cons_of_mem _ hq)
  | announces now path data old hold hdata hannounced hjobs _ =>
    have hle (k : ℕ) : waitingFor k old ≤ waitingFor k t.printerData := hold.countP_le
    have hcount (k : ℕ) : waitingFor k t'.printerData =
        waitingFor k old + if t.announced.length = k then 1 else 0 := by
      rw [hdata, waitingFor_append, waitingFor_cons, show waitingFor k [] = 0 from rfl,
        Nat.zero_add]
    refine ⟨?_, fun k => ?_, fun k hk => ?_, fun q hq => ?_⟩
    · rw [hjobs]
      exact h.sound
    · rw [hcount, hjobs]
      have hone := h.once k
      have hold := hle k
      split
      · next hk =>
        have hnone := h.known k hk.le
        omega
      · omega
    · rw [hannounced, List.length_append, List.length_singleton] at hk
      rw [hcount, hjobs, if_neg (by omega)]
      have hnone := h.known k (by omega)
      have hold := hle k
      omega
    · rw [hdata] at hq
      rw [hannounced]
      rcases List.mem_append.mp hq with hq | hq
      · have hnamed := h.named q (hold.subset hq)
        obtain ⟨hlt, -⟩ := List.getElem?_eq_some_iff.mp hnamed
        rw [List.getElem?_append_left hlt]
        exact hnamed
      · rw [List.mem_singleton.mp hq, List.getElem?_concat_length]

theorem left_step (host : FileHost) (h : t.Once) (e : FileEvent) (hk : k < t.announced.length) :
    printed k (step host t e).2 ++ (step host t e).1.left k <+: t.left k := by
  have hdeed := step_deed host t e
  have hended (hend : t.world.ended = true) :
      printed k (step host t e).2 = [] ∧ (step host t e).1.world.ended = true :=
    (step_ended host hend e).imp (fun hnone => hnone k) id
  have hone := h.once k
  generalize step host t e = r at hdeed hended ⊢
  obtain ⟨t', outs⟩ := r
  cases hdeed with
  | goesOn hdata _ hjobs =>
    refine left_prefix hended ?_
    have hheld := (hjobs k).held h.sound (Nat.le_of_add_left_le hone)
    rw [hdata]
    by_cases hwaits : waitingFor k t.printerData = 0
    · rw [waiting_eq_nil hwaits]
      exact hheld
    · -- there is no job for it
      have hnojob : heldFor k t.readJobs = [] := heldFor_eq_nil (by omega)
      rw [hnojob] at hheld ⊢
      obtain ⟨hsent, hnone⟩ := List.append_eq_nil_iff.mp (List.prefix_nil.mp hheld)
      rw [hsent, hnone]
      exact List.prefix_refl _
  | lost _ _ hend hnone _ =>
    have hgone : t'.left k = [] := if_pos hend
    rw [hnone k, hgone]
    exact List.nil_prefix
  | reads job hdata _ hjobs hnone =>
    refine left_prefix hended ?_
    rw [hnone k, hdata, hjobs, heldFor_append, heldFor_cons]
    simp [heldFor]
  | prints job p pre post hdata hdata' _ hsource hstream hjobs hnone =>
    refine left_prefix hended ?_
    rw [hdata, waitingFor_append, waitingFor_cons] at hone
    rw [hnone k, hdata, hdata', hjobs, waiting_append, waiting_append, waiting_cons,
      heldFor_append, heldFor_cons]
    by_cases hserial : p.serial = k
    · -- the data was all there is for it
      rw [if_pos hserial] at hone
      have hrest : restOf job = p.data := by
        unfold restOf
        rw [hsource, hstream]
        rfl
      have hpre : waiting k pre = [] := waiting_eq_nil (by omega)
      have hpost : waiting k post = [] := waiting_eq_nil (by omega)
      have hnojob : heldFor k t.readJobs = [] := heldFor_eq_nil (by omega)
      rw [hpre, hpost, hnojob, if_pos hserial, if_pos (congrArg some hserial), hrest]
      simp [heldFor]
    · rw [if_neg hserial, if_neg fun heq => hserial (Option.some.inj heq)]
      simp [heldFor]
  | announces now path data old hold hdata _ hjobs hnone =>
    refine left_prefix hended ?_
    have hnew : waiting k t'.printerData = waiting k old := by
      rw [hdata, waiting_append, waiting_cons, if_neg (Nat.ne_of_gt hk)]
      exact List.append_nil _
    rw [hnone k, hnew, hjobs, List.nil_append]
    by_cases hwaits : waitingFor k t.printerData = 0
    · have hnone : waitingFor k old = 0 := Nat.le_zero.mp (hold.countP_le.trans hwaits.le)
      rw [waiting_eq_nil hwaits, waiting_eq_nil hnone]
    · rw [heldFor_eq_nil (k := k) (by omega), List.append_nil, List.append_nil]
      exact waiting_sublist hold (by omega)

theorem unannounced_step (host : FileHost) (h : t.Once) (e : FileEvent)
    (hk : t.announced.length ≤ k) :
    printed k (step host t e).2 = [] ∧ (k < (step host t e).1.announced.length →
      ∃ path data, (step host t e).1.announced[k]? = some (path, data) ∧
        (step host t e).1.left k <+: data) := by
  have hdeed := step_deed host t e
  generalize step host t e = r at hdeed ⊢
  obtain ⟨t', outs⟩ := r
  have hnone := h.known k hk
  have hheld : heldFor k t.readJobs = [] := heldFor_eq_nil (by omega)
  -- only an announcement makes the list longer
  have hstill {P : Prop} (h : t'.announced = t.announced) (hlt : k < t'.announced.length) : P :=
    absurd hlt (by rw [h]; exact Nat.not_lt.mpr hk)
  cases hdeed with
  | goesOn _ hannounced hjobs =>
    refine ⟨?_, hstill hannounced⟩
    have hsent := (hjobs k).held h.sound (Nat.le_of_add_left_le (h.once k))
    rw [hheld] at hsent
    exact (List.append_eq_nil_iff.mp (List.prefix_nil.mp hsent)).1
  | lost _ hannounced _ hunprinted _ => exact ⟨hunprinted k, hstill hannounced⟩
  | reads _ _ hannounced _ hunprinted => exact ⟨hunprinted k, hstill hannounced⟩
  | prints _ _ _ _ _ _ hannounced _ _ _ hunprinted => exact ⟨hunprinted k, hstill hannounced⟩
  | announces now path data old hold hdata hannounced hjobs hunprinted =>
    refine ⟨hunprinted k, fun hlt => ?_⟩
    rw [hannounced, List.length_append, List.length_singleton] at hlt
    obtain rfl : t.announced.length = k := by omega
    refine ⟨path, data, by rw [hannounced, List.getElem?_concat_length], ?_⟩
    have hold : waitingFor t.announced.length old ≤
        waitingFor t.announced.length t.printerData := hold.countP_le
    unfold left
    split
    · exact List.nil_prefix
    · rw [hdata, hjobs, hheld, List.append_nil, waiting_append,
        waiting_eq_nil (l := old) (by omega), waiting_cons, if_pos rfl]
      simp [waiting]

/-! ### Runs -/

theorem announced_run (host : FileHost) (t : Transfers) (es : List FileEvent) :
    t.announced <+: ((transfers host).run t es).announced := by
  induction es generalizing t with
  | nil => exact List.prefix_refl _
  | cons e es ih => exact (announced_step host t e).trans (ih (step host t e).1)

theorem left_run (host : FileHost) (h : t.Once) (es : List FileEvent)
    (hk : k < t.announced.length) :
    printed k ((transfers host).outputs t es) ++ ((transfers host).run t es).left k <+:
      t.left k := by
  induction es generalizing t with
  | nil => exact List.prefix_refl _
  | cons e es ih =>
    have hlt := hk.trans_le (announced_step host t e).length_le
    have hrest := ih (once_step host h e) hlt
    rw [Machine.outputs_cons, Machine.run_cons, printed_append, List.append_assoc]
    exact ((List.prefix_append_right_inj _).mpr hrest).trans (left_step host h e hk)

theorem printed_run (host : FileHost) (h : t.Once) (es : List FileEvent)
    (hk : t.announced.length ≤ k) {path : Path} {data : Bytes}
    (hannounced : ((transfers host).run t es).announced[k]? = some (path, data)) : printed k
    ((transfers host).outputs t es) <+: data := by
  induction es generalizing t with
  | nil =>
    obtain ⟨hlt, -⟩ := List.getElem?_eq_some_iff.mp hannounced
    exact absurd hlt (Nat.not_lt.mpr hk)
  | cons e es ih =>
    obtain ⟨hnone, hmade⟩ := unannounced_step host h e hk
    have honce := once_step host h e
    rw [Machine.outputs_cons, printed_append]
    have hout : printed k ((transfers host).out t e) = [] := hnone
    rw [hout, List.nil_append]
    by_cases hlt : k < (step host t e).1.announced.length
    · -- it is announced by this step
      obtain ⟨path', data', hmade, hleft⟩ := hmade hlt
      obtain ⟨more, hmore⟩ := announced_run host (step host t e).1 es
      have hkept : ((transfers host).run (step host t e).1 es).announced[k]? =
          some (path', data') := by
        rw [← hmore, List.getElem?_append_left hlt]
        exact hmade
      cases hkept.symm.trans hannounced
      exact ((List.prefix_append _ _).trans (left_run host honce es hlt)).trans hleft
    · exact ih honce (Nat.not_lt.mp hlt) hannounced

end Transfers

end LibRustdesk.Desktop
