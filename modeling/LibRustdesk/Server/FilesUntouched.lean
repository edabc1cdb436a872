import LibRustdesk.Server.PrintOnce

/-!
# Connections that are not for files

A connection that was authorized as anything but a file transfer (`World.NotForFiles`) touches no
file of the host, whatever file messages its peer sends, and the only thing it transfers is what the
host has announced to print.

* `World.fileDoor_step` — whether a connection is for files is settled when it is authorized.
* `Transfers.Apart` — the invariant: there are no jobs but prints, in the connection or in its
  connection manager, and what is on its way there only looks for one.
* `untouched` — the theorem on runs, with `Transfers.Once` for what is printed.
-/

namespace LibRustdesk.Desktop

open FileTransfer (Path FileEntry TransferJob FileTransferBlock FileTransferSendConfirmRequest Disk
  InitEnv SeekEnv)

/-! ### The kind of a connection -/

/-- Whether it is authorized, for which directory, and as what. -/
def Core.fileDoor (c : Core) : Bool × Option (Text × Bool) × Option (AuthConnType × SessionKey) :=
  (c.authorized, c.fileTransfer, c.authedConnId)

namespace World

/-- An authorized connection stays as it is, and another one is at most authorized as what its flags
say. -/
def Settles (c c' : Core) : Prop :=
  (c.authorized = true → c'.fileDoor = c.fileDoor) ∧
    (c.authorized = false → c'.authorized = false ∨ ∃ d : Core, c'.fileDoor = d.authorize.fileDoor)

theorem settles_of_eq {c c' : Core} (h : c'.fileDoor = c.fileDoor) : Settles c c' :=
  ⟨fun _ => h, fun hauth => .inl ((congrArg Prod.fst h).trans hauth)⟩

theorem settles_of_not {c c' : Core} (h : c.authorized = false)
    (h' : c'.authorized = c.authorized) : Settles c c' :=
  ⟨fun hauth => Bool.noConfusion (h.symm.trans hauth), fun _ => .inl (h'.trans h)⟩

theorem settles_logon {env : Env} {w w' : World} {b : Bool} (h : Logon env w (w', b)) :
    Settles w.core w'.core := by
  cases h with
  | again _ _ hcore => exact settles_of_eq (congrArg Core.fileDoor hcore)
  | waits _ _ _ hcore => exact settles_of_eq (congrArg Core.fileDoor hcore)
  | closes _ _ _ _ _ hcore => exact settles_of_eq (by rw [hcore]; rfl)
  | authorizes _ _ hauth _ _ _ hcore =>
    have hdoor := congrArg Core.fileDoor hcore
    exact ⟨fun h => Bool.noConfusion (hauth.symm.trans h), fun _ => .inr (Exists.intro _ hdoor)⟩

@[simp] theorem fileDoor_present (env : Env) (lr : LoginRequest) (c : Core) :
    (c.present env lr).fileDoor = c.fileDoor := by
  unfold Core.present
  split <;> rfl

@[simp] theorem fileDoor_validates (lr : LoginRequest) (c : Core) :
    (c.validates lr).fileDoor = c.fileDoor := by
  unfold Core.validates
  split <;> rfl

theorem fileDoor_step (w : World) (ev : Event) : Settles w.core (step w ev).core := by
  -- a login is gone on with
  have hlogon {env : Env} {w1 w' : World} {b : Bool} (h : Logon env w1 (w', b))
      (hsame : w1.core.fileDoor = w.core.fileDoor) : Settles w.core w'.core := by
    obtain ⟨hauth, hnot⟩ := settles_logon h
    have hfst : w1.core.authorized = w.core.authorized := congrArg Prod.fst hsame
    exact ⟨fun h => (hauth (hfst.trans h)).trans hsame, fun h => hnot (hfst.trans h)⟩
  have hmoves := step_moves w ev
  generalize (step w ev).core = c at hmoves ⊢
  cases hmoves with
  | keeps => exact settles_of_eq rfl
  | login env lr r h =>
    cases h with
    | again _ _ hcore => exact settles_of_eq (by rw [hcore, fileDoor_present])
    | refused _ hauth _ hcore =>
      exact settles_of_not hauth (by rw [hcore, Core.authorized_present])
    | offline _ hauth _ hcore =>
      exact settles_of_not hauth (by rw [hcore, Core.authorized_ask, Core.authorized_present])
    | waits _ hauth _ hcore =>
      exact settles_of_not hauth (by
        rw [hcore, Core.authorized_startCm, Core.authorized_ask, Core.authorized_present])
    | unready _ hauth _ hcore =>
      exact settles_of_not hauth (by rw [hcore, Core.authorized_letIn, Core.authorized_startCm,
        Core.authorized_ask, Core.authorized_present])
    | logs w1 r hauth _ _ hcore _ h =>
      -- only here is a flag set
      have hauth1 : w1.core.authorized = w.core.authorized := by
        rw [hcore, Core.authorized_letIn, Core.authorized_startCm, Core.authorized_ask,
          Core.authorized_present]
      refine ⟨fun h => Bool.noConfusion (hauth.symm.trans h), fun _ => ?_⟩
      exact (settles_logon h).2 (hauth1.trans hauth)
  | code env code hwid r h =>
    cases h with
    | wrong _ _ hcore => exact settles_of_eq (by rw [hcore])
    | right _ r _ _ hcore h => exact hlogon h (by rw [hcore]; rfl)
  | switchSides env uuid lr r h =>
    cases h with
    | none => exact settles_of_eq rfl
    | unknown lr _ _ hcore => exact settles_of_eq (by rw [hcore, fileDoor_present])
    | valid lr w1 w2 w' b _ _ hcore h hstart =>
      have hdoor : w'.core.fileDoor = w2.core.fileDoor := by
        rw [hstart]
        cases b <;> rfl
      have hsettles : Settles w.core w2.core := by
        refine hlogon h ?_
        rw [hcore, fileDoor_validates]
        exact fileDoor_present env lr w.core
      obtain ⟨hsame, hnot⟩ := hsettles
      refine ⟨fun h => hdoor.trans (hsame h), fun h => ?_⟩
      rcases hnot h with hauth | ⟨d, hd⟩
      · exact .inl ((congrArg Prod.fst hdoor).trans hauth)
      · exact .inr ⟨d, hdoor.trans hd⟩
  | authorize env _ w1 w' b h _ hcore =>
    refine hlogon h ?_
    rw [hcore, fileDoor_validates]
    rfl

def NotForFiles (w : World) : Prop :=
  w.conn.authorized = true ∧ w.conn.connType ≠ some .fileTransfer

/-- It has a directory exactly when it was authorized for files. -/
def Kept (w : World) : Prop :=
  w.conn.authorized = true →
    (w.conn.fileTransfer.isSome = true ↔ w.conn.connType = some .fileTransfer)

theorem kept_step {w : World} (h : w.Kept) (ev : Event) : (step w ev).Kept := by
  obtain ⟨hsame, hnot⟩ := fileDoor_step w ev
  intro hauth'
  cases hauth : w.conn.authorized with
  | true =>
    have hdoor := hsame hauth
    simp only [Core.fileDoor, Prod.mk.injEq] at hdoor
    obtain ⟨-, hfiles, hid⟩ := hdoor
    have hkept := h hauth
    have hfiles' : (step w ev).conn.fileTransfer = w.conn.fileTransfer := hfiles
    have hid' : (step w ev).conn.authedConnId = w.conn.authedConnId := hid
    unfold Connection.connType
    rw [hfiles', hid']
    exact hkept
  | false =>
    rcases hnot hauth with hfalse | ⟨c, hc⟩
    · exact Bool.noConfusion (hfalse.symm.trans hauth')
    · simp only [Core.fileDoor, Prod.mk.injEq] at hc
      obtain ⟨-, hfiles, hid⟩ := hc
      have hfiles' : (step w ev).conn.fileTransfer = c.fileTransfer := hfiles
      have hid' : (step w ev).conn.authedConnId = some (c.authKind, c.lr.sessionKey) := hid
      unfold Connection.connType
      rw [hfiles', hid']
      unfold Core.authKind
      cases c.fileTransfer with
      | some dir => simp
      | none =>
        refine iff_of_false Bool.false_ne_true ?_
        cases c.portForwardSocket <;> cases c.viewCamera <;> cases c.terminal <;> simp

def NoFiles (w : World) : Prop := w.conn.authorized = false ∨ w.conn.fileTransfer = none

theorem NotForFiles.noFiles {w : World} (h : w.NotForFiles) (hkept : w.Kept) : w.NoFiles := by
  obtain ⟨hauth, htype⟩ := h
  refine .inr (Option.not_isSome_iff_eq_none.mp fun hsome => ?_)
  exact htype ((hkept hauth).mp hsome)

theorem NoFiles.before {w : World} {ev : Event} (h : (step w ev).NoFiles) : w.NoFiles := by
  cases hauth : w.conn.authorized with
  | false => exact .inl hauth
  | true =>
    -- it stays as it is
    have hdoor := (fileDoor_step w ev).1 hauth
    simp only [Core.fileDoor, Prod.mk.injEq] at hdoor
    obtain ⟨hauth', hfiles, -⟩ := hdoor
    rcases h with h | h
    · exact absurd (h.symm.trans hauth') (by rw [show w.core.authorized = true from hauth]; simp)
    · exact .inr (hfiles.symm.trans h)

end World

/-! ### Without files -/

/-- What only looks for a job of the connection manager. -/
def FS.looks : FS → Bool
  | .writeBlock _ | .writeDone _ _ | .writeError _ _ _ | .checkDigest _ _ => true
  | _ => false

namespace Transfers

structure Apart (t : Transfers) : Prop where
  jobs : ∀ job ∈ t.readJobs, job.origin.isSome = true
  writeJobs : t.cm.writeJobs = []
  cmJobs : t.cm.readJobs = []
  queue : ∀ fs ∈ t.queue, fs.looks = true
  delayed : t.delayedReadDir = none

/-- The job that a step starts: none, or the print that it asks for. -/
inductive Starts (t : Transfers) (asked : Option Path) (jobs : List ReadJob) : Prop
  | none (h : (jobs.map (·.origin)).Sublist (t.readJobs.map (·.origin)))
  | print (path : Path) (data : Bytes) (k : ℕ) (job : TransferJob) (hasked : asked = some path)
      (hannounced : t.announced[k]? = some (path, data))
      (hsource : job.dataSource = .memoryCursor data 0)
      (hjobs : jobs = t.readJobs ++ [⟨job, some k⟩])

structure Still (t : Transfers) (asked : Option Path) (t' : Transfers) (outs : List FileOut) :
    Prop where
  apart : t'.Apart
  quiet : Quiet outs
  disk : t'.disk = t.disk
  starts : Starts t asked t'.readJobs

variable {t : Transfers}

theorem Still.refl {asked : Option Path} (h : t.Apart) {outs : List FileOut}
    (hquiet : Quiet outs) : Still t asked t outs :=
  ⟨h, hquiet, rfl, .none (List.Sublist.refl _)⟩

theorem Still.same {t t' : Transfers} {asked : Option Path} {outs : List FileOut} (h : t.Apart)
    (hquiet : Quiet outs) (hjobs : t'.readJobs = t.readJobs) (hcm : t'.cm = t.cm)
    (hdisk : t'.disk = t.disk) (hqueue : ∀ fs ∈ t'.queue, fs.looks = true)
    (hdelayed : t'.delayedReadDir = Option.none) : Still t asked t' outs := by
  refine ⟨⟨?_, ?_, ?_, hqueue, hdelayed⟩, hquiet, hdisk, .none ?_⟩
  · rw [hjobs]
    exact h.jobs
  · rw [hcm]
    exact h.writeJobs
  · rw [hcm]
    exact h.cmJobs
  · rw [hjobs]

theorem quiet_nil : Quiet [] := fun _ hout => absurd hout List.not_mem_nil

theorem handleFs_none (z : Zstd) (env : FsEnv) {cm : Cm} (disk : Disk) {fs : FS}
    (h : fs.looks = true) (hnone : cm.writeJobs = []) :
    handleFs z env cm disk fs = (cm, disk, []) := by
  have honJob {id : Int32} {f : TransferJob → TransferJob × JobResult} :
      cm.onJob disk id f = (cm, disk, []) := by
    unfold Cm.onJob
    rw [hnone]
    rfl
  have honRemoved {id : Int32} {f : TransferJob → Disk × List FileOut} :
      cm.onRemoved disk id f = (cm, disk, []) := by
    unfold Cm.onRemoved
    rw [hnone]
    rfl
  cases fs with
  | writeBlock | checkDigest => exact honJob
  | writeDone | writeError => exact honRemoved
  | _ => exact Bool.noConfusion h

theorem onFileAction_still (host : FileHost) (h : t.Apart) (honce : t.Once)
    (hfiles : t.world.conn.fileTransfer = none) (env : ActionEnv) (u : FileActionUnion) :
    Still t u.printPath (t.onFileAction host env u).1 (t.onFileAction host env u).2 := by
  unfold onFileAction
  rw [hfiles, h.delayed]
  cases hprinter : u.isPrinter with
  | false => exact .refl h quiet_nil
  | true =>
    cases u with
    | send id path fileNum hidden fileType =>
      have htype : jobTypeFromProto fileType = .printer := of_decide_eq_true hprinter
      dsimp only [Option.isSome]
      rw [if_pos (Bool.or_true _), if_neg Bool.false_ne_true]
      split
      · exact .refl h (by simp [Quiet, FileOut.isAccess])
      · unfold handleFileAction
        dsimp only
        rw [htype]
        dsimp only
        split
        · next p hfind =>
          obtain ⟨job, hsource, -, heq⟩ := createAndStartReadJob_data
            { t with printerData := t.printerData.eraseP (·.path = path) } env id p.data
            (some p.serial) fileNum true path
          have hfound := List.find?_some hfind
          have hpath : p.path = path := of_decide_eq_true hfound
          have hnamed := honce.named p (List.mem_of_find?_eq_some hfind)
          rw [hpath] at hnamed
          rw [heq]
          refine ⟨⟨fun j hj => ?_, h.writeJobs, h.cmJobs, h.queue, h.delayed⟩,
            by simp [Quiet, FileOut.isAccess], rfl,
            .print path p.data p.serial job (if_pos htype) hnamed hsource rfl⟩
          rcases List.mem_append.mp hj with hj | hj
          · exact h.jobs j hj
          · rw [List.mem_singleton.mp hj]
            rfl
        · exact .refl h quiet_nil
    | _ => exact Bool.noConfusion hprinter

theorem step_still (host : FileHost) (h : t.Apart) (honce : t.Once) (hno : t.world.NoFiles)
    (e : FileEvent) : Still t e.printPath (step host t e).1 (step host t e).2 := by
  have hheard (hhears : t.hears = true) : t.world.conn.fileTransfer = none := by
    simp only [hears, Bool.and_eq_true] at hhears
    rcases hno with hauth | hnone
    · exact Bool.noConfusion (hauth.symm.trans hhears.1.2)
    · exact hnone
  cases e with
  | action env u =>
    have hstill : Still t u.printPath (if t.hears then t.onFileAction host env u else (t, [])).1
        (if t.hears then t.onFileAction host env u else (t, [])).2 := by
      split
      · next hhears => exact onFileAction_still host h honce (hheard hhears) env u
      · exact .refl h quiet_nil
    obtain ⟨⟨hjobs, hwrite, hcm, hqueue, hdelayed⟩, hquiet, hdisk, hstarts⟩ := hstill
    exact ⟨⟨hjobs, hwrite, hcm, hqueue, hdelayed⟩, hquiet, hdisk, hstarts⟩
  | response env u =>
    have hsends (fs : FS) (hlooks : fs.looks = true) (w : World) :
        Still t none { t.sendFs fs with world := w } [] := by
      refine .same h quiet_nil rfl rfl rfl (fun fs' hfs' => ?_) h.delayed
      rcases List.mem_append.mp hfs' with hfs' | hfs'
      · exact h.queue fs' hfs'
      · rw [List.mem_singleton.mp hfs']
        exact hlooks
    have hsame (w : World) : Still t none { t with world := w } [] :=
      .same h quiet_nil rfl rfl rfl h.queue h.delayed
    unfold step
    dsimp only
    split
    · cases u with
      | other => exact hsame _
      | _ => exact hsends _ rfl _
    · exact hsame _
  | fs env =>
    unfold step
    dsimp only
    split
    · exact .refl h quiet_nil
    · exact .refl h quiet_nil
    · next fs queue hqueue _ =>
      have hall := h.queue
      rw [hqueue] at hall
      rw [handleFs_none host.z env t.disk (hall fs List.mem_cons_self) h.writeJobs]
      exact .same h quiet_nil rfl rfl rfl (fun fs' hfs' => hall fs' (List.mem_cons_of_mem _ hfs'))
        h.delayed
  | fileTimer env =>
    unfold step
    dsimp only
    split
    · exact .refl h quiet_nil
    · have hquiet := handleReadJobs_quiet host.z t.disk env fun job hjob =>
        honce.sound job hjob (h.jobs job hjob)
      obtain ⟨sent, hjobs, -⟩ := handleReadJobs_advances 0 host.z t.disk t.readJobs env
      generalize handleReadJobs host.z env t.disk t.readJobs = r at hquiet hjobs ⊢
      obtain ⟨jobs, outs, ok⟩ := r
      refine ⟨⟨fun job hjob => ?_, h.writeJobs, h.cmJobs, h.queue, h.delayed⟩, hquiet, rfl,
        .none hjobs.origins⟩
      -- the job is one of those before
      obtain ⟨job', hjob', horigin⟩ :=
        List.mem_map.mp (hjobs.origins.subset (List.mem_map_of_mem hjob))
      rw [← horigin]
      exact h.jobs job' hjob'
  | cmTimer env =>
    unfold step
    dsimp only
    split
    · rw [h.cmJobs]
      exact ⟨⟨h.jobs, h.writeJobs, rfl, h.queue, h.delayed⟩, quiet_nil, rfl,
        .none (List.Sublist.refl _)⟩
    · exact .refl h quiet_nil
  | cmAnswer id => exact .same h quiet_nil rfl rfl rfl h.queue h.delayed
  | printerData now stamp data permitted =>
    unfold step
    dsimp only
    split
    · exact .same h (by simp [sendPrinterRequest, Quiet, FileOut.isAccess]) rfl rfl rfl h.queue
        h.delayed
    · exact .refl h quiet_nil
  | delayReadDir =>
    unfold step
    dsimp only
    split
    · next dir hdir =>
      split
      · next hauth =>
        rcases hno with hnot | hnone
        · exact Bool.noConfusion (hnot.symm.trans hauth)
        · cases hnone.symm.trans hdir
      · exact .refl h quiet_nil
    · exact .refl h quiet_nil
  | selectedSid =>
    unfold step
    dsimp only
    rw [h.delayed]
    split <;> exact .refl h quiet_nil
  | connection ev =>
    unfold step
    dsimp only
    split
    · exact .refl h quiet_nil
    · exact .refl h quiet_nil
    · exact .same h quiet_nil rfl rfl rfl h.queue h.delayed

/-! ### Runs -/

theorem conn_onFileAction (host : FileHost) (t : Transfers) (env : ActionEnv)
    (u : FileActionUnion) : (t.onFileAction host env u).1.world.conn = t.world.conn := by
  have hstarts (id : Int32) (type : FileTransfer.JobType) (source : FileTransfer.DataSource)
      (origin : Option ℕ) (fileNum : Int32) (od : Bool) (path : Path) (limit : Bool)
      (t : Transfers) :
      (t.createAndStartReadJob env id type source origin fileNum od path limit).1.world.conn =
        t.world.conn := by
    unfold createAndStartReadJob
    dsimp only
    split
    · rfl
    · split <;> rfl
  have hhandled : (t.handleFileAction host env u).1.world.conn = t.world.conn := by
    cases u with
    | allFiles id path hidden =>
      unfold handleFileAction
      dsimp only
      split
      · rfl
      · split
        · rfl
        · split <;> rfl
    | send id path fileNum hidden fileType =>
      unfold handleFileAction
      dsimp only
      split
      · split
        · rfl
        · exact hstarts _ _ _ _ _ _ _ _ _
      · split
        · exact hstarts _ _ _ _ _ _ _ _ _
        · rfl
    | sendConfirm r =>
      unfold handleFileAction
      dsimp only
      split
      · rfl
      · split <;> rfl
    | _ => rfl
  unfold onFileAction
  split
  · split
    · split <;> rfl
    · split
      · rfl
      · exact hhandled
  · rfl

theorem conn_step (host : FileHost) (t : Transfers) (e : FileEvent) :
    ∃ w : World, w.conn = t.world.conn ∧ ((step host t e).1.world.conn = w.conn ∨
      ∃ ev, (step host t e).1.world = Desktop.step w ev) := by
  have hstays {t' : Transfers} (h : t'.world.conn = t.world.conn) :
      ∃ w : World, w.conn = t.world.conn ∧ (t'.world.conn = w.conn ∨
        ∃ ev, t'.world = Desktop.step w ev) :=
    ⟨t.world, rfl, .inl h⟩
  cases e with
  | action env u =>
    refine ⟨(if t.hears then t.onFileAction host env u else (t, [])).1.world, ?_,
      .inr ⟨.message env.world (.fileAction u.action), rfl⟩⟩
    split
    · exact conn_onFileAction host t env u
    · rfl
  | response env u =>
    refine ⟨(if t.hears then t.onFileResponse u else t).world, ?_,
      .inr ⟨.message env (.fileResponse []), rfl⟩⟩
    split
    · cases u <;> rfl
    · rfl
  | fs | fileTimer | cmTimer | printerData =>
    refine hstays ?_
    unfold step
    dsimp only
    split <;> rfl
  | cmAnswer id => exact hstays rfl
  | delayReadDir | selectedSid =>
    refine hstays ?_
    unfold step
    dsimp only
    split
    · split <;> rfl
    · rfl
  | connection ev =>
    unfold step
    dsimp only
    split
    · exact hstays rfl
    · exact hstays rfl
    · exact ⟨t.world, rfl, .inr ⟨_, rfl⟩⟩

structure Sane (t : Transfers) : Prop where
  kept : t.world.Kept
  apart : t.world.NoFiles → t.Apart
  once : t.Once

theorem sane_start (s : Opening) (disk : Disk) : (start s disk).Sane where
  kept := fun hauth => Bool.noConfusion hauth
  apart := fun _ => ⟨by simp [start], rfl, rfl, by simp [start], rfl⟩
  once := ⟨by simp [start], fun _ => Nat.zero_le _, fun _ _ => rfl, by simp [start]⟩

theorem sane_step (host : FileHost) (h : t.Sane) (e : FileEvent) : (step host t e).1.Sane := by
  obtain ⟨w, hconn, hsame | ⟨ev, hstep⟩⟩ := conn_step host t e
  · have hworld := hsame.trans hconn
    have hbefore (hno : (step host t e).1.world.NoFiles) : t.world.NoFiles := by
      unfold World.NoFiles at hno ⊢
      rw [hworld] at hno
      exact hno
    refine ⟨?_, fun hno => ?_, once_step host h.once e⟩
    · have hkept := h.kept
      unfold World.Kept at hkept ⊢
      rw [hworld]
      exact hkept
    · exact (step_still host (h.apart (hbefore hno)) h.once (hbefore hno) e).apart
  · have hkept : w.Kept := by
      unfold World.Kept
      rw [hconn]
      exact h.kept
    have hbefore (hno : (step host t e).1.world.NoFiles) : t.world.NoFiles := by
      rw [hstep] at hno
      have hw := hno.before
      unfold World.NoFiles at hw ⊢
      rw [hconn] at hw
      exact hw
    refine ⟨?_, fun hno => ?_, once_step host h.once e⟩
    · rw [hstep]
      exact World.kept_step hkept ev
    · exact (step_still host (h.apart (hbefore hno)) h.once (hbefore hno) e).apart

end Transfers

/-- Nothing is done at a path, and only an announced print is started. -/
structure Untouched (host : FileHost) (t : Transfers) (e : FileEvent) : Prop where
  quiet : Quiet (Transfers.step host t e).2
  disk : (Transfers.step host t e).1.disk = t.disk
  starts : Transfers.Starts t e.printPath (Transfers.step host t e).1.readJobs
  /-- The jobs that there are have no files. -/
  jobs : ∀ job ∈ (Transfers.step host t e).1.readJobs, Prints job.toTransferJob
  cm : (Transfers.step host t e).1.cm.writeJobs = [] ∧ (Transfers.step host t e).1.cm.readJobs = []

/-- **A connection that is not for files touches none**, and of each print that the host announces
what is sent is the beginning. -/
theorem untouched (host : FileHost) (s : Opening) (disk : Disk) (es : List FileEvent) :
    (transfers host).Meets (fun t e => t.world.NotForFiles → Untouched host t e)
        (.start s disk) es ∧
      ∀ k path data, ((transfers host).run (.start s disk) es).announced[k]? = some (path, data) →
        printed k ((transfers host).outputs (.start s disk) es) <+: data := by
  have hstart := Transfers.sane_start s disk
  refine ⟨?_, fun k path data hannounced =>
    Transfers.printed_run host hstart.once es (Nat.zero_le k) hannounced⟩
  intro p hp hnot
  have htrue := (transfers host).meets_true (Transfers.start s disk) es
  have hsane : p.1.Sane :=
    htrue.inv_trace hstart (fun _ e _ h => Transfers.sane_step host h e) p hp
  have hno := hnot.noFiles hsane.kept
  have hstill := Transfers.step_still host (hsane.apart hno) hsane.once hno p.2
  have honce := Transfers.once_step host hsane.once p.2
  refine ⟨hstill.quiet, hstill.disk, hstill.starts, fun job hjob => ?_, hstill.apart.writeJobs,
    hstill.apart.cmJobs⟩
  exact honce.sound job hjob (hstill.apart.jobs job hjob)

end LibRustdesk.Desktop
