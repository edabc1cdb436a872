import LibRustdesk.FileTransfer.Landing

/-!
# When a finished file appears

The final path of an entry gets its content by one rename, in `modify_time`, when the job leaves
the entry for another one or is done. `modify_time` looks at the disk, not at the job: it renames
whatever `.download` file the current entry has. While a stream is open that is the file the job
is writing (`Owning`). When none is open (no block has come yet, or the last file was skipped) it
is a file of an earlier job, if there is one, and the first block already moves it over the final
path; `leftover_replaces_final` is such a run.

* `final_changes_only_by_rename` — when that does not happen, **a final path changes only by the
  rename of a `.download` file this job created, on leaving that entry**, and a transfer that is
  broken off before an entry or in the middle of it leaves its final path as it was.
-/

namespace LibRustdesk.FileTransfer

open LittleEndian

/-- The `modify_time` an event leads to while no stream is open. -/
def finishEnv (job : TransferJob) : Event → Option FinishEnv
  | .block env block =>
    if block.id = job.id ∧ (job.files[asUsize block.fileNum]?).isSome then some env.finish
    else none
  | .done env => some env
  | _ => none

/-- When a file is finished while no stream is open, there is no `.download` file to take for it,
or the rename fails. -/
def NoLeftover (p : Path) (w : Receiver) (ev : Event) : Prop :=
  ∀ job env entry, w.job = some job → job.dataStream = none → finishEnv job ev = some env →
    env.rename = true → job.currentEntry = some entry →
    w.disk.dir (downloadKey p entry) = none

/-- No partial download of an earlier job is resumed. -/
def NoResume (w : Receiver) (ev : Event) : Prop :=
  ∀ env r job, ev = .confirm env r → w.job = some job → ¬ job.Resumes r

structure StepOk (p : Path) (w : Receiver) (ev : Event) : Prop where
  switchOk : SwitchOk p w ev
  noLeftover : NoLeftover p w ev
  noResume : NoResume w ev

def Leaves (job : TransferJob) (ev : Event) : Prop :=
  (∃ env block, ev = .block env block ∧ job.switches block = true) ∨ ∃ env, ev = .done env

/-- The job leaves the entry, whose `.download` file it created and has open, and that file is
afterwards the file of the entry. -/
def RenamedOwn (p : Path) (w : Receiver) (ev : Event) (disk' : Disk) (entry : FileEntry) : Prop :=
  ∃ job i, w.job = some job ∧ job.openInode = some i ∧ i ∈ w.created ∧
    job.currentEntry = some entry ∧ Leaves job ev ∧
    w.disk.dir (downloadKey p entry) = some i ∧ disk'.dir (finalKey p entry) = some i

/-- The names stay free of links, and each final path keeps its content or gets it by a rename. -/
structure Tidy (p : Path) (files : List FileEntry) (w : Receiver) (ev : Event) (disk' : Disk) :
    Prop where
  linkFree : disk'.LinkFree (IsName p files)
  final : ∀ entry ∈ files, disk'.content (finalKey p entry) = w.disk.content (finalKey p entry) ∨
    RenamedOwn p w ev disk' entry

/-- The open stream of a job is the `.download` file of its current entry, and the job created
it. -/
def TransferJob.Owns (job : TransferJob) (p : Path) (disk : Disk) (created : List ℕ) : Prop :=
  ∀ stream, job.dataStream = some stream → ∃ file, stream = .fileStream file ∧
    file.inode ∈ created ∧ ∃ entry, job.currentEntry = some entry ∧
      disk.dir (downloadKey p entry) = some file.inode

structure Owning (p : Path) (files : List FileEntry) (w : Receiver) : Prop where
  linkFree : w.disk.LinkFree (IsName p files)
  job : ∀ job, w.job = some job →
    job.Generic p ∧ job.files = files ∧ job.Owns p w.disk w.created

section Step

variable {p : Path} {files : List FileEntry} {w : Receiver} {ev : Event}

theorem Tidy.of_spares {disk' : Disk} (hl : w.disk.LinkFree (IsName p files))
    (h : FileSystem.Spares (IsName p files) (IsFinal p files) w.disk disk') :
    Tidy p files w ev disk' :=
  ⟨h.linkFree hl, fun entry he => Or.inl (h.content hl _ ⟨entry, he, rfl⟩)⟩

theorem Tidy.trans_spares {disk' disk'' : Disk} (h : Tidy p files w ev disk')
    (hs : FileSystem.Spares (IsName p files) (IsFinal p files) disk' disk'') :
    Tidy p files w ev disk'' := by
  refine ⟨hs.linkFree h.linkFree, fun entry he => ?_⟩
  rcases h.final entry he with hkept | ⟨job, i, hjob, hopen, hi, hcur, hleaves, hdl, hdir⟩
  · exact Or.inl ((hs.content h.linkFree _ ⟨entry, he, rfl⟩).trans hkept)
  · refine Or.inr ⟨job, i, hjob, hopen, hi, hcur, hleaves, hdl, ?_⟩
    rw [hs.dir _ ⟨entry, he, rfl⟩]
    exact hdir

theorem Owning.modifyTime (h : Owning p files w) (hapart : NamesApart p files)
    {job : TransferJob} (hjob : w.job = some job) {env : FinishEnv}
    (hleft : job.dataStream = none → finishEnv job ev = some env) (hok : NoLeftover p w ev)
    (hleaves : job.dataStream ≠ none → Leaves job ev) :
    Tidy p files w ev (job.modifyTime env w.disk) := by
  obtain ⟨hgen, rfl, howns⟩ := h.job job hjob
  cases hstream : job.dataStream with
  | none =>
    apply Tidy.of_spares h.linkFree
    apply TransferJob.modifyTime_spares env w.disk hgen hapart
    cases hrename : env.rename with
    | false => exact Or.inl rfl
    | true =>
      exact Or.inr fun entry hentry =>
        hok job env entry hjob hstream (hleft hstream) hrename hentry
  | some stream =>
    obtain ⟨file, rfl, hcreated, cur, hcur, hdir⟩ := howns stream hstream
    rcases TransferJob.modifyTime_renames env w.disk hgen hapart hcur hdir with hsp | hfinal
    · exact Tidy.of_spares h.linkFree hsp
    have hothers := TransferJob.modifyTime_spares_others env w.disk hgen hapart
    refine ⟨hothers.linkFree h.linkFree, fun entry he => ?_⟩
    by_cases hsame : finalKey p entry = finalKey p cur
    · -- Distinct entries have distinct final paths, so this is the entry being left.
      obtain ⟨i, hi⟩ := List.mem_iff_getElem?.mp he
      have hidx : i = asUsize job.fileNum := hapart.entry_eq (k := finalKey p entry) hi hcur
        (by simp [namesOf]) (by simp [namesOf, hsame])
      subst hidx
      obtain rfl : entry = cur := Option.some.inj (hi.symm.trans hcur)
      refine Or.inr ⟨job, file.inode, hjob, ?_, hcreated, hcur, ?_, hdir, hfinal⟩
      · unfold TransferJob.openInode
        rw [hstream]
      · exact hleaves (by rw [hstream]; simp)
    · refine Or.inl (hothers.content h.linkFree _ ⟨⟨entry, he, rfl⟩, fun cur' hcur' => ?_⟩)
      obtain rfl : cur = cur' := Option.some.inj (hcur.symm.trans hcur')
      exact hsame

theorem names_spec (hapart : NamesApart p files) : ∀ entry ∈ files,
    IsName p files (downloadKey p entry) ∧ IsName p files (digestKey p entry) ∧
      ¬ IsFinal p files (downloadKey p entry) ∧ ¬ IsFinal p files (digestKey p entry) :=
  fun _ he => ⟨isName_of_mem he (by simp [namesOf]), isName_of_mem he (by simp [namesOf]),
    hapart.not_isFinal he (Or.inl rfl), hapart.not_isFinal he (Or.inr rfl)⟩

theorem TransferJob.Owns.writeBlock (z : Zstd) {env : WriteEnv} {block : FileTransferBlock}
    {job : TransferJob} {disk : Disk} {created : List ℕ} (hapart : NamesApart p job.files)
    (hgen : job.Generic p) (h : job.Owns p disk created) :
    FileSystem.Spares (IsName p job.files) (IsFinal p job.files) disk
        (job.writeBlock z env block disk).1 ∧
      (job.writeBlock z env block disk).2.1.Generic p ∧
      (job.writeBlock z env block disk).2.1.files = job.files ∧
      (job.writeBlock z env block disk).2.1.fileNum = job.fileNum ∧
      (job.writeBlock z env block disk).2.1.Owns p (job.writeBlock z env block disk).1 created ∧
      ((job.writeBlock z env block disk).2.1.dataStream ≠ none → job.dataStream ≠ none) := by
  cases hstream : job.dataStream with
  | none =>
    have heq : job.writeBlock z env block disk = (disk, job,
        .error (if block.compressed then "data stream is None" else "file is None")) := by
      unfold TransferJob.writeBlock
      rw [hstream]
    rw [heq]
    exact ⟨.refl disk, hgen, rfl, rfl, h, fun hne => absurd hstream hne⟩
  | some stream =>
    obtain ⟨file, rfl, hcreated, cur, hcur, hdir⟩ := h stream hstream
    obtain ⟨disk', pos, finished, transferred, result, heq, hdisk⟩ :=
      TransferJob.writeBlock_cases z env job block disk hstream
    have hmem := TransferJob.currentEntry_mem hcur
    have hspares : FileSystem.Spares (IsName p job.files) (IsFinal p job.files) disk disk' := by
      rcases hdisk with rfl | ⟨-, bytes, rfl⟩
      · exact .refl _
      · exact .writeAt (fun _ hk => hk.isName) (names_spec hapart cur hmem).1
          (names_spec hapart cur hmem).2.2.1 hdir bytes
    have hdir' : disk'.dir = disk.dir := by
      rcases hdisk with rfl | ⟨-, bytes, rfl⟩ <;> rfl
    rw [heq]
    refine ⟨hspares, ⟨hgen.type, hgen.source⟩, rfl, rfl, ?_, fun _ => by simp⟩
    intro stream' hstream'
    obtain rfl := Option.some.inj hstream'
    exact ⟨_, rfl, hcreated, cur, hcur, by rw [hdir']; exact hdir⟩

/-- After an event the job has a stream open only if it had it before, for the same entry, or the
event is a block for the entry. -/
def KeepsEntry (w w' : Receiver) (ev : Event) : Prop :=
  ∀ job', w'.job = some job' → job'.dataStream ≠ none →
    (∃ job, w.job = some job ∧ job.dataStream ≠ none ∧ job'.fileNum = job.fileNum) ∨
      ∃ env block, ev = .block env block ∧ asUsize block.fileNum = asUsize job'.fileNum

/-- What a step preserves, and what it may do to the final paths. -/
structure StepSpec (p : Path) (files : List FileEntry) (w w' : Receiver) (ev : Event) : Prop where
  owning : Owning p files w'
  tidy : Tidy p files w ev w'.disk
  keeps : KeepsEntry w w' ev

theorem Owning.of_job (h : Owning p files w) {job job' : TransferJob} (hjob : w.job = some job)
    (hgen : job'.Generic p) (hfiles : job'.files = files) (hnum : job'.dataStream ≠ none →
      job'.dataStream = job.dataStream ∧ job'.fileNum = job.fileNum) :
    StepSpec p files w { w with job := some job' } ev := by
  obtain ⟨-, rfl, howns⟩ := h.job job hjob
  refine ⟨⟨h.linkFree, ?_⟩, Tidy.of_spares h.linkFree (.refl _), ?_⟩
  · rintro job'' hjob''
    obtain rfl := Option.some.inj hjob''
    refine ⟨hgen, hfiles, fun stream hstream => ?_⟩
    obtain ⟨hs, hn⟩ := hnum (by rw [hstream]; simp)
    obtain ⟨file, rfl, hcreated, cur, hcur, hdir⟩ := howns stream (hs ▸ hstream)
    refine ⟨file, rfl, hcreated, cur, ?_, hdir⟩
    unfold TransferJob.currentEntry
    rw [hfiles, hn]
    exact hcur
  · rintro job'' hjob'' hopen
    obtain rfl := Option.some.inj hjob''
    obtain ⟨hs, hn⟩ := hnum hopen
    exact Or.inl ⟨job, hjob, hs ▸ hopen, hn⟩

theorem Tidy.ended {disk' : Disk} (h : Tidy p files w ev disk') :
    StepSpec p files w { w with disk := disk', job := none } ev :=
  ⟨⟨h.linkFree, fun _ hjob => by cases hjob⟩, h, fun _ hjob => by cases hjob⟩

theorem Owning.block (z : Zstd) (h : Owning p files w) (hapart : NamesApart p files)
    {job : TransferJob} (hjob : w.job = some job) {env : WriteEnv} {block : FileTransferBlock}
    (hok : StepOk p w (.block env block)) :
    StepSpec p files w (stepJob z w job (.block env block)).1 (.block env block) := by
  obtain ⟨hgen, rfl, howns⟩ := h.job job hjob
  have hcases := TransferJob.openBlock_cases (N := IsName p job.files) (F := IsFinal p job.files)
    env block w.disk hgen (fun _ hk => hk.isName) (names_spec hapart)
  unfold stepJob
  dsimp only
  obtain ⟨e, heq, -⟩ | ⟨hid, entry, hentry, hcase⟩ := hcases
  · -- Rejected: nothing happens.
    rw [write_eq, heq]
    exact h.of_job hjob hgen rfl fun _ => ⟨rfl, rfl⟩
  have hfinish : finishEnv job (.block env block) = some env.finish := by
    unfold finishEnv
    dsimp only
    rw [if_pos ⟨hid, by rw [hentry]; rfl⟩]
  obtain ⟨hsw, heq⟩ | ⟨hsw, hunsafe, e, n, disk', heq, hspares⟩ |
    ⟨hsw, file, disk', heq, hspares, -, -, hdir, -⟩ := hcase
  · -- For the open file: the block is written.
    obtain ⟨hwrite, hgen', hfiles', hnum', howns', hopen'⟩ :=
      @TransferJob.Owns.writeBlock _ z env block _ _ _ hapart hgen howns
    rw [write_eq, heq]
    rw [hsw]
    refine ⟨⟨hwrite.linkFree h.linkFree, ?_⟩, Tidy.of_spares h.linkFree hwrite, ?_⟩
    · rintro job' hjob'
      obtain rfl := Option.some.inj hjob'
      exact ⟨hgen', hfiles', howns'⟩
    · rintro job' hjob' hopen
      obtain rfl := Option.some.inj hjob'
      exact Or.inl ⟨job, hjob, hopen' hopen, hnum'⟩
  · -- The switch fails, and no stream was open.
    have hnone : job.dataStream = none := by
      by_contra hopen
      exact hunsafe (hok.switchOk env block job entry rfl hjob hid hentry hopen hsw)
    have htidy := (h.modifyTime hapart hjob (fun _ => hfinish) hok.noLeftover
      fun hopen => absurd hnone hopen).trans_spares hspares
    rw [write_eq, heq]
    refine ⟨⟨htidy.linkFree, ?_⟩, htidy, ?_⟩
    · rintro job' hjob'
      obtain rfl := Option.some.inj hjob'
      refine ⟨⟨hgen.type, hgen.source⟩, rfl, fun stream hstream => ?_⟩
      rw [show job.dataStream = some stream from hstream] at hnone
      cases hnone
    · rintro job' hjob' hopen
      obtain rfl := Option.some.inj hjob'
      exact absurd hnone hopen
  · -- The switch succeeds, and the block is written to the new file.
    have hopened := (h.modifyTime hapart hjob (fun _ => hfinish) hok.noLeftover
      fun _ => Or.inl ⟨env, block, rfl, hsw⟩).trans_spares hspares
    rw [write_eq, heq]
    rw [if_pos hsw]
    obtain ⟨job₁, hjob₁⟩ : ∃ job₁ : TransferJob, job₁ =
      { job with fileNum := block.fileNum, dataStream := some (.fileStream file) } := ⟨_, rfl⟩
    have hinode : job₁.openInode = some file.inode := by rw [hjob₁]; rfl
    have hfiles₁ : job₁.files = job.files := by rw [hjob₁]
    have hnum₁ : job₁.fileNum = block.fileNum := by rw [hjob₁]
    have hgen₁ : job₁.Generic p := by
      rw [hjob₁]
      exact ⟨hgen.type, hgen.source⟩
    have howns₁ : job₁.Owns p disk' (file.inode :: w.created) := by
      intro stream hstream
      rw [hjob₁] at hstream ⊢
      obtain rfl := Option.some.inj hstream
      exact ⟨file, rfl, List.mem_cons_self, entry, hentry, hdir⟩
    rw [← hjob₁]
    rw [← hfiles₁] at hapart hopened
    obtain ⟨hwrite, hgen', hfiles', hnum', howns', -⟩ :=
      @TransferJob.Owns.writeBlock _ z env block _ _ _ hapart hgen₁ howns₁
    have htidy := hopened.trans_spares hwrite
    rw [← hfiles₁]
    refine ⟨⟨htidy.linkFree, ?_⟩, htidy, ?_⟩
    · rintro job' hjob'
      obtain rfl := Option.some.inj hjob'
      refine ⟨hgen', hfiles', ?_⟩
      rw [hinode]
      exact howns'
    · rintro job' hjob' -
      obtain rfl := Option.some.inj hjob'
      exact Or.inr ⟨env, block, rfl, by rw [hnum', hnum₁]⟩

theorem Owning.removeDownloadFile (h : Owning p files w) (hapart : NamesApart p files)
    {job : TransferJob} (hjob : w.job = some job) (env : CancelEnv) :
    Tidy p files w ev (job.removeDownloadFile env w.disk) := by
  obtain ⟨hgen, rfl, -⟩ := h.job job hjob
  apply Tidy.of_spares h.linkFree
  unfold TransferJob.removeDownloadFile
  rw [if_neg (by rw [hgen.type]; simp), hgen.source]
  cases hcur : job.currentEntry with
  | none => exact .refl _
  | some entry =>
    dsimp only
    cases hpath : job.resolveEntryPath env.onDisk p entry.name with
    | none => exact .refl _
    | some path =>
      obtain rfl := TransferJob.resolveEntryPath_eq hgen hpath
      have hspec := names_spec hapart entry (TransferJob.currentEntry_mem hcur)
      have hdigest (disk : Disk) : FileSystem.Spares (IsName p job.files) (IsFinal p job.files)
          disk (if env.removeDigest then disk.remove (digestKey p entry) else disk) := by
        split
        · exact .remove hspec.2.2.2
        · exact .refl _
      have hdownload : FileSystem.Spares (IsName p job.files) (IsFinal p job.files) w.disk
          (if env.removeDownload then w.disk.remove (downloadKey p entry) else w.disk) := by
        split
        · exact .remove hspec.2.2.1
        · exact .refl _
      exact hdownload.trans (hdigest _)

theorem Owning.step (z : Zstd) (h : Owning p files w) (hapart : NamesApart p files)
    (hok : StepOk p w ev) : StepSpec p files w ((receiver z).next w ev) ev := by
  cases hjob : w.job with
  | none =>
    have hsame : (receiver z).next w ev = w := by
      unfold Machine.next receiver
      dsimp only
      rw [hjob]
    rw [hsame]
    refine ⟨h, Tidy.of_spares h.linkFree (.refl _), fun job' hjob' => ?_⟩
    rw [hjob] at hjob'
    cases hjob'
  | some job =>
    have hstep : (receiver z).next w ev = (stepJob z w job ev).1 := by
      unfold Machine.next receiver
      dsimp only
      rw [hjob]
    rw [hstep]
    obtain ⟨hgen, hfiles, -⟩ := h.job job hjob
    cases ev with
    | block env block => exact h.block z hapart hjob hok
    | confirm env r =>
      obtain ⟨hdisk, hcases⟩ := TransferJob.confirm_cases env r w.disk hgen
      show StepSpec p files w
        { w with disk := (job.confirm env r w.disk).1, job := (job.confirm env r w.disk).2 } _
      rw [hdisk]
      cases hconf : (job.confirm env r w.disk).2 with
      | none => exact (Tidy.of_spares h.linkFree (.refl _)).ended
      | some job' =>
        obtain rfl | rfl | rfl | ⟨hres, -⟩ := hcases job' hconf
        · exact h.of_job hjob ⟨hgen.type, hgen.source⟩ hfiles fun hne => absurd rfl hne
        · exact h.of_job hjob hgen hfiles fun _ => ⟨rfl, rfl⟩
        · exact h.of_job hjob ⟨hgen.type, hgen.source⟩ hfiles fun _ => ⟨rfl, rfl⟩
        · exact absurd hres (hok.noResume env r job rfl hjob)
    | setDigest size modified =>
      exact h.of_job hjob ⟨hgen.type, hgen.source⟩ hfiles fun _ => ⟨rfl, rfl⟩
    | cancel env => exact (h.removeDownloadFile hapart hjob env).ended
    | done env =>
      exact (h.modifyTime hapart hjob (fun _ => rfl) hok.noLeftover
        fun _ => Or.inr ⟨env, rfl⟩).ended
    | drop => exact (Tidy.of_spares h.linkFree (.refl _)).ended

theorem Owning.index_of_current (h : Owning p files w) (hapart : NamesApart p files)
    {job : TransferJob} (hjob : w.job = some job) {k : ℕ} {entry : FileEntry}
    (hk : files[k]? = some entry) (hcur : job.currentEntry = some entry) :
    asUsize job.fileNum = k := by
  obtain ⟨-, rfl, -⟩ := h.job job hjob
  exact hapart.entry_eq (k := finalKey p entry) hcur hk (by simp [namesOf]) (by simp [namesOf])

end Step

section Run

variable (z : Zstd) {p : Path} {files : List FileEntry} {w : Receiver}

theorem Owning.keeps_content {I : Receiver → Prop} {evs : List Event}
    (hapart : NamesApart p files) (h : (receiver z).Meets (StepOk p) w evs)
    (hown : Owning p files w) (hI : I w) {entry : FileEntry} (hmem : entry ∈ files)
    (hnext : ∀ w ev, ev ∈ evs → Owning p files w → I w → KeepsEntry w ((receiver z).next w ev) ev →
      I ((receiver z).next w ev))
    (hnot : ∀ w ev disk', ev ∈ evs → Owning p files w → I w →
      ¬ RenamedOwn p w ev disk' entry) :
    Owning p files ((receiver z).run w evs) ∧ I ((receiver z).run w evs) ∧
      ((receiver z).run w evs).disk.content (finalKey p entry) =
        w.disk.content (finalKey p entry) := by
  induction evs generalizing w with
  | nil => exact ⟨hown, hI, rfl⟩
  | cons ev evs ih =>
    obtain ⟨hok, hrest⟩ := Machine.meets_cons.mp h
    have hspec := hown.step z hapart hok
    have hkept : ((receiver z).next w ev).disk.content (finalKey p entry) =
        w.disk.content (finalKey p entry) :=
      (hspec.tidy.final entry hmem).resolve_right (hnot w ev _ List.mem_cons_self hown hI)
    obtain ⟨hown', hI', hcontent⟩ := ih hrest hspec.owning
      (hnext w ev List.mem_cons_self hown hI hspec.keeps)
      (fun w ev hev => hnext w ev (List.mem_cons_of_mem _ hev))
      (fun w ev disk' hev => hnot w ev disk' (List.mem_cons_of_mem _ hev))
    exact ⟨hown', hI', hcontent.trans hkept⟩

/-- Before the first block of an entry the job has nothing of it open. -/
def NotOpen (k : ℕ) (w : Receiver) : Prop :=
  ∀ job, w.job = some job → job.dataStream ≠ none → asUsize job.fileNum ≠ k

theorem NotOpen.next {k : ℕ} {w' : Receiver} {ev : Event} (h : NotOpen k w)
    (hev : ∀ env block, ev = .block env block → asUsize block.fileNum ≠ k)
    (hkeeps : KeepsEntry w w' ev) : NotOpen k w' := by
  intro job' hjob' hopen'
  obtain ⟨job, hjob, hopen, hnum⟩ | ⟨env, block, hblock, hnum⟩ := hkeeps job' hjob' hopen'
  · rw [hnum]
    exact h job hjob hopen
  · rw [← hnum]
    exact hev env block hblock

theorem RenamedOwn.open {ev : Event} {disk' : Disk} {entry : FileEntry}
    (h : RenamedOwn p w ev disk' entry) : ∃ job, w.job = some job ∧ job.dataStream ≠ none ∧
      job.currentEntry = some entry ∧ Leaves job ev := by
  obtain ⟨job, i, hjob, hopen, -, hcur, hleaves, -, -⟩ := h
  refine ⟨job, hjob, fun hnone => ?_, hcur, hleaves⟩
  unfold TransferJob.openInode at hopen
  rw [hnone] at hopen
  cases hopen

/-- **A final path changes only by the rename of a file of this job.** In every run of steps that
meet `StepOk`, from any disk on which the names of the list are apart, a step keeps the content of
each final path, or leaves the entry and renames the `.download` file that the job created for it;
and an entry whose first or last block is still to come has the content that it had at the start. -/
theorem final_changes_only_by_rename {job : TransferJob} (hjob : w.job = some job)
    (hgen : job.Generic p) (hstream : job.dataStream = none) (hapart : NamesApart p job.files)
    (hlinks : w.disk.LinkFree (IsName p job.files)) {evs : List Event}
    (h : (receiver z).Meets (StepOk p) w evs) :
    (∀ s ∈ (receiver z).trace w evs, ∀ entry ∈ job.files,
      ((receiver z).next s.1 s.2).disk.content (finalKey p entry) =
          s.1.disk.content (finalKey p entry) ∨
        RenamedOwn p s.1 s.2 ((receiver z).next s.1 s.2).disk entry) ∧
    ∀ k entry before during, job.files[k]? = some entry → evs = before ++ during →
      (∀ env block, Event.block env block ∈ before → asUsize block.fileNum ≠ k) →
      (∀ env block, Event.block env block ∈ during → asUsize block.fileNum = k) →
      (∀ env, Event.done env ∉ during) →
      ((receiver z).run w evs).disk.content (finalKey p entry) =
        w.disk.content (finalKey p entry) := by
  have hstart : Owning p job.files w := by
    refine ⟨hlinks, fun job' hjob' => ?_⟩
    obtain rfl : job = job' := Option.some.inj (hjob.symm.trans hjob')
    refine ⟨hgen, rfl, fun stream hs => ?_⟩
    rw [hstream] at hs
    cases hs
  constructor
  · have hall := h.inv_trace (I := Owning p job.files) hstart
      fun w' ev hok hown => (hown.step z hapart hok).owning
    intro s hs entry hentry
    exact ((hall s hs).step z hapart (h s hs)).tidy.final entry hentry
  · intro k entry before during hk hevs hbefore hduring hnodone
    rw [hevs] at h ⊢
    obtain ⟨hfirst, hsecond⟩ := Machine.meets_append.mp h
    have hmem := List.mem_of_getElem? hk
    have hnotOpen : NotOpen k w := by
      intro job' hjob' hopen
      obtain rfl : job = job' := Option.some.inj (hjob.symm.trans hjob')
      exact absurd hstream hopen
    -- Until the first block of the entry nothing of it is open.
    obtain ⟨hown, -, hcontent⟩ := hstart.keeps_content z (I := NotOpen k) hapart hfirst hnotOpen
      hmem
      (fun w ev hev _ hI hkeeps => hI.next
        (fun env block hb => hbefore env block (hb ▸ hev)) hkeeps)
      (fun w ev disk' _ hown hI hren => by
        obtain ⟨job', hjob', hopen, hcur, -⟩ := hren.open
        exact hI job' hjob' hopen (hown.index_of_current hapart hjob' hk hcur))
    -- From then on nothing leaves it.
    obtain ⟨-, -, hcontent'⟩ := hown.keeps_content z (I := fun _ => True) hapart hsecond trivial
      hmem (fun _ _ _ _ _ _ => trivial)
      (fun w ev disk' hev hown _ hren => by
        obtain ⟨job', hjob', hopen, hcur, hleaves⟩ := hren.open
        have hidx := hown.index_of_current hapart hjob' hk hcur
        rcases hleaves with ⟨env, block, rfl, hsw⟩ | ⟨env, rfl⟩
        · unfold TransferJob.switches at hsw
          rw [Bool.or_eq_true, bne_iff_ne, Option.isNone_iff_eq_none] at hsw
          rcases hsw with hne | hnone
          · exact hne ((hduring env block hev).trans hidx.symm)
          · exact hopen hnone
        · exact hnodone env hev)
    rw [Machine.run_append, hcontent', hcontent]

end Run

/-! ### A file that was there before -/

/-- The one block of `a`, and the end of the job. -/
def blockThenDone : List Event := [.block .good ⟨1, 0, [1], false⟩, .done .good]

/-- One of two files arrives, and the job is done. -/
theorem final_changes_only_by_rename_one :
    (∀ s ∈ (receiver .storing).trace twoFilesReceiver blockThenDone, ∀ entry ∈ twoFiles,
      ((receiver .storing).next s.1 s.2).disk.content (finalKey ['d'] entry) =
          s.1.disk.content (finalKey ['d'] entry) ∨
        RenamedOwn ['d'] s.1 s.2 ((receiver .storing).next s.1 s.2).disk entry) ∧
    ((receiver .storing).run twoFilesReceiver blockThenDone).disk.content
      (finalKey ['d'] ⟨['a'], 1, 0⟩) = some [1] := by
  refine ⟨?_, by decide +kernel⟩
  have hjob : twoFilesReceiver.job = some twoFilesJob := rfl
  have hgen : twoFilesJob.Generic ['d'] := ⟨rfl, rfl⟩
  refine (final_changes_only_by_rename .storing hjob hgen rfl ?_ ?_ ?_).1
  · show (twoFiles.flatMap (namesOf ['d'])).Nodup
    decide +kernel
  · intro k j i _ _ hk
    cases hk
  · simp only [blockThenDone, Machine.meets_cons, Machine.meets_nil, and_true]
    constructor
    · refine ⟨?_, ?_, ?_⟩
      · rintro env block job entry hev hjob - - hopen -
        obtain rfl := Option.some.inj hjob
        exact absurd rfl hopen
      · intro _ _ _ _ _ _ _ _
        rfl
      · intro _ _ _ hev
        cases hev
    · refine ⟨?_, ?_, ?_⟩
      · intro _ _ _ _ hev
        cases hev
      · rintro job env entry hjob hnone - - -
        obtain rfl := Option.some.inj hjob
        cases hnone
      · intro _ _ _ hev
        cases hev

/-- The job receives one file, where there are an older one and a part of another download. -/
def leftoverReceiver : Receiver :=
  ⟨(FileSystem.empty.writeFile (finalKey ['d'] ⟨['a'], 1, 0⟩) [1]).writeFile
      (downloadKey ['d'] ⟨['a'], 1, 0⟩) [9],
    some { TransferJob.newWrite 1 .generic (.filePath ['d']) 0 false with
      files := [⟨['a'], 1, 0⟩], totalSize := 1 }, []⟩

/-- **A left-over replaces a file.** The first block moves the part over the older file, and the
cancellation does not bring that back. -/
theorem leftover_replaces_final :
    (¬ ∀ s ∈ (receiver .storing).trace leftoverReceiver
          [.block .good ⟨1, 0, [2], false⟩, .cancel ⟨.ok (), true, true⟩],
        ∀ entry ∈ ([⟨['a'], 1, 0⟩] : List FileEntry),
          ((receiver .storing).next s.1 s.2).disk.content (finalKey ['d'] entry) =
              s.1.disk.content (finalKey ['d'] entry) ∨
            RenamedOwn ['d'] s.1 s.2 ((receiver .storing).next s.1 s.2).disk entry) ∧
      leftoverReceiver.disk.content (finalKey ['d'] ⟨['a'], 1, 0⟩) = some [1] ∧
      ((receiver .storing).run leftoverReceiver
          [.block .good ⟨1, 0, [2], false⟩, .cancel ⟨.ok (), true, true⟩]).disk.content
        (finalKey ['d'] ⟨['a'], 1, 0⟩) = some [9] := by
  refine ⟨fun h => ?_, by decide +kernel, by decide +kernel⟩
  rcases h _ List.mem_cons_self ⟨['a'], 1, 0⟩ List.mem_cons_self with hkept | hren
  · revert hkept
    decide +kernel
  · obtain ⟨job, hjob, hopen, -, -⟩ := hren.open
    obtain rfl := Option.some.inj hjob
    exact hopen rfl

end LibRustdesk.FileTransfer
