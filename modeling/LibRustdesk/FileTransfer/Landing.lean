import LibRustdesk.FileTransfer.Receive

/-!
# Where the bytes of a block go

The bytes of a block for entry `k` belong in the `.download` file of entry `k` (`Lands`). The
invariant is `Attached`: the file a job has open is the `.download` file of its current entry. It
survives every step but one, a switch to another file that fails after the job has left the file
it has open: `switchFile` has renamed that file, and may have moved `file_num`, but the old stream
is still there. The next block for the claimed file is then taken for one that needs no switch.

`failed_switch_corrupts` runs into it; `blocks_land_in_download` excludes it.
-/

namespace LibRustdesk.FileTransfer

open LittleEndian

/-- What `write` changes once the file of the block is open is the `.download` file of the
block's entry. -/
def Lands (z : Zstd) (env : WriteEnv) (block : FileTransferBlock) (job : TransferJob)
    (disk : Disk) : Prop :=
  ∀ i, ((job.write z env block disk).1.node i).data ≠
      ((job.openBlock env block disk).1.node i).data →
    ∃ p entry, job.dataSource = .filePath p ∧ job.files[asUsize block.fileNum]? = some entry ∧
      (job.openBlock env block disk).1.dir (downloadKey p entry) = some i

/-- A switch away from an open file is not stopped half way. -/
def SwitchOk (p : Path) (w : Receiver) (ev : Event) : Prop :=
  ∀ env block job entry, ev = .block env block → w.job = some job → block.id = job.id →
    job.files[asUsize block.fileNum]? = some entry → job.dataStream ≠ none →
    job.switches block = true → TransferJob.SwitchSafe env p entry

namespace TransferJob

/-- The file a job writes to is the `.download` file of its current entry. -/
def Attached (job : TransferJob) (p : Path) (disk : Disk) : Prop :=
  ∀ stream, job.dataStream = some stream → ∃ file, stream = .fileStream file ∧
    (file.writable = true → ∀ entry, job.currentEntry = some entry →
      disk.dir (downloadKey p entry) = some file.inode)

variable {job : TransferJob} {p : Path} {disk : Disk}

theorem attached_of_none (h : job.dataStream = none) : job.Attached p disk := by
  intro stream hstream
  rw [h] at hstream
  cases hstream

theorem Attached.congr {job' : TransferJob} {disk' : Disk} (h : job.Attached p disk)
    (hstream : job'.dataStream = job.dataStream) (hentry : job'.currentEntry = job.currentEntry)
    (hdir : disk'.dir = disk.dir) : job'.Attached p disk' := by
  intro stream hs
  obtain ⟨file, rfl, hfile⟩ := h stream (hstream ▸ hs)
  refine ⟨file, rfl, fun hw entry he => ?_⟩
  rw [hdir]
  exact hfile hw entry (hentry ▸ he)

theorem not_switches {block : FileTransferBlock} (h : job.switches block = false) :
    asUsize block.fileNum = asUsize job.fileNum ∧ job.dataStream ≠ none := by
  unfold switches at h
  rw [Bool.or_eq_false_iff, bne_eq_false_iff_eq, Option.isNone_eq_false_iff,
    Option.isSome_iff_ne_none] at h
  exact h

theorem Attached.openBlock {env : WriteEnv} {block : FileTransferBlock} (hgen : job.Generic p)
    (h : job.Attached p disk)
    (hsafe : ∀ entry, block.id = job.id → job.files[asUsize block.fileNum]? = some entry →
      job.dataStream ≠ none → job.switches block = true → SwitchSafe env p entry) :
    (job.openBlock env block disk).2.1.Generic p ∧
      (job.openBlock env block disk).2.1.Attached p (job.openBlock env block disk).1 ∧
      ((job.openBlock env block disk).2.2 = .ok () → ∃ entry,
        job.files[asUsize block.fileNum]? = some entry ∧
        (job.openBlock env block disk).2.1.currentEntry = some entry) := by
  obtain ⟨e, heq, -⟩ | ⟨hid, entry, hentry, hcase⟩ :=
    openBlock_cases (N := fun _ => True) (F := fun _ => False) env block disk hgen
      (fun _ h => h.elim) fun _ _ => ⟨trivial, trivial, not_false, not_false⟩
  · rw [heq]
    exact ⟨hgen, h, fun hok => by cases hok⟩
  obtain ⟨hsw, heq⟩ | ⟨hsw, hunsafe, e, n, disk', heq, -⟩ |
    ⟨hsw, file, disk', heq, -, hwritable, -, hdir, -⟩ := hcase
  · rw [heq]
    refine ⟨hgen, h, fun _ => ⟨entry, hentry, ?_⟩⟩
    unfold currentEntry
    rw [← (not_switches hsw).1]
    exact hentry
  · -- A failed switch is harmless when no file was open.
    have hnone : job.dataStream = none := by
      by_contra hopen
      exact hunsafe (hsafe entry hid hentry hopen hsw)
    rw [heq]
    exact ⟨⟨hgen.type, hgen.source⟩, attached_of_none hnone, fun hok => by cases hok⟩
  · rw [heq]
    refine ⟨⟨hgen.type, hgen.source⟩, ?_, fun _ => ⟨entry, hentry, hentry⟩⟩
    intro stream hstream
    obtain rfl := Option.some.inj hstream
    refine ⟨file, rfl, fun _ entry' hentry' => ?_⟩
    obtain rfl : entry = entry' := Option.some.inj (hentry.symm.trans hentry')
    exact hdir

theorem Attached.writeBlock (z : Zstd) {env : WriteEnv} {block : FileTransferBlock}
    (hgen : job.Generic p) (h : job.Attached p disk) :
    (job.writeBlock z env block disk).2.1.Generic p ∧
      (job.writeBlock z env block disk).2.1.Attached p (job.writeBlock z env block disk).1 ∧
      ∀ i, ((job.writeBlock z env block disk).1.node i).data ≠ (disk.node i).data →
        ∀ entry, job.currentEntry = some entry → disk.dir (downloadKey p entry) = some i := by
  cases hstream : job.dataStream with
  | none =>
    have heq : job.writeBlock z env block disk = (disk, job,
        .error (if block.compressed then "data stream is None" else "file is None")) := by
      unfold TransferJob.writeBlock
      rw [hstream]
    rw [heq]
    exact ⟨hgen, h, fun i hi => absurd rfl hi⟩
  | some stream =>
    obtain ⟨file, rfl, hfile⟩ := h stream hstream
    obtain ⟨disk', pos, finished, transferred, result, heq, hdisk⟩ :=
      writeBlock_cases z env job block disk hstream
    rw [heq]
    have hdir : disk'.dir = disk.dir := by
      rcases hdisk with rfl | ⟨-, bytes, rfl⟩ <;> rfl
    refine ⟨⟨hgen.type, hgen.source⟩, ?_, ?_⟩
    · intro stream' hstream'
      obtain rfl := Option.some.inj hstream'
      refine ⟨_, rfl, fun hw entry hentry => ?_⟩
      rw [hdir]
      exact hfile hw entry hentry
    · intro i hi entry hentry
      rcases hdisk with rfl | ⟨hw, bytes, rfl⟩
      · exact absurd rfl hi
      · have hinode : i = file.inode := by
          by_contra hne
          exact hi (by rw [FileSystem.node_writeAt_of_ne _ _ _ hne])
        rw [hinode]
        exact hfile hw entry hentry

theorem Attached.confirm {env : SeekEnv} {r : FileTransferSendConfirmRequest} (hgen : job.Generic p)
    (h : job.Attached p disk) {job' : TransferJob} (hjob : (job.confirm env r disk).2 = some job') :
    job'.Generic p ∧ job'.Attached p (job.confirm env r disk).1 := by
  obtain ⟨hdisk, hcases⟩ := confirm_cases env r disk hgen
  rw [hdisk]
  obtain rfl | rfl | rfl | ⟨-, entry, file, transferred, finished, hentry, hfile, rfl⟩ :=
    hcases job' hjob
  · exact ⟨⟨hgen.type, hgen.source⟩, attached_of_none rfl⟩
  · exact ⟨hgen, h⟩
  · exact ⟨⟨hgen.type, hgen.source⟩, h.congr rfl rfl rfl⟩
  · refine ⟨⟨hgen.type, hgen.source⟩, ?_⟩
    intro stream hstream
    obtain rfl := Option.some.inj hstream
    refine ⟨file, rfl, fun hw entry' hentry' => ?_⟩
    obtain rfl : entry = entry' := Option.some.inj (hentry.symm.trans hentry')
    exact hfile.resolve_left (by simp [hw])

end TransferJob

/-- The job of a receiver, if it still has one, is attached. -/
def Aligned (p : Path) (w : Receiver) : Prop :=
  ∀ job, w.job = some job → job.Generic p ∧ job.Attached p w.disk

section Run

variable (z : Zstd) {p : Path}

theorem write_eq (env : WriteEnv) (job : TransferJob) (block : FileTransferBlock) (disk : Disk) :
    job.write z env block disk =
      match (job.openBlock env block disk).2.2 with
      | .error e => ((job.openBlock env block disk).1, (job.openBlock env block disk).2.1,
          .error e)
      | .ok () => (job.openBlock env block disk).2.1.writeBlock z env block
          (job.openBlock env block disk).1 := by
  unfold TransferJob.write
  rcases job.openBlock env block disk with ⟨disk', job', e | _⟩ <;> rfl

theorem TransferJob.Attached.write {job : TransferJob} {env : WriteEnv}
    {block : FileTransferBlock} {disk : Disk} (hgen : job.Generic p) (h : job.Attached p disk)
    (hsafe : ∀ entry, block.id = job.id → job.files[asUsize block.fileNum]? = some entry →
      job.dataStream ≠ none → job.switches block = true → TransferJob.SwitchSafe env p entry) :
    (job.write z env block disk).2.1.Generic p ∧
      (job.write z env block disk).2.1.Attached p (job.write z env block disk).1 ∧
      Lands z env block job disk := by
  obtain ⟨hgen', hatt', hentry⟩ := h.openBlock hgen hsafe
  unfold Lands
  rw [write_eq]
  cases hresult : (job.openBlock env block disk).2.2 with
  | error e => exact ⟨hgen', hatt', fun i hi => absurd rfl hi⟩
  | ok u =>
    obtain ⟨hgen'', hatt'', hlands⟩ := @Attached.writeBlock _ _ _ z env block hgen' hatt'
    obtain ⟨entry, hfile, hcur⟩ := hentry hresult
    exact ⟨hgen'', hatt'', fun i hi => ⟨p, entry, hgen.source, hfile, hlands i hi entry hcur⟩⟩

theorem Aligned.next {w : Receiver} {ev : Event} (hok : SwitchOk p w ev) (h : Aligned p w) :
    Aligned p ((receiver z).next w ev) := by
  intro job' hjob'
  cases hjob : w.job with
  | none =>
    have hsame : (receiver z).next w ev = w := by
      unfold Machine.next receiver
      dsimp only
      rw [hjob]
    rw [hsame] at hjob' ⊢
    exact h job' hjob'
  | some job =>
    obtain ⟨hgen, hatt⟩ := h job hjob
    have hstep : (receiver z).next w ev = (stepJob z w job ev).1 := by
      unfold Machine.next receiver
      dsimp only
      rw [hjob]
    rw [hstep] at hjob' ⊢
    cases ev with
    | block env block =>
      have hwrite := hatt.write z hgen fun entry => hok env block job entry rfl hjob
      obtain rfl : (job.write z env block w.disk).2.1 = job' := Option.some.inj hjob'
      exact ⟨hwrite.1, hwrite.2.1⟩
    | confirm env r => exact hatt.confirm hgen hjob'
    | setDigest size modified =>
      obtain rfl : job.setDigest size modified = job' := Option.some.inj hjob'
      exact ⟨⟨hgen.type, hgen.source⟩, hatt.congr rfl rfl rfl⟩
    | cancel env => cases hjob'
    | done env => cases hjob'
    | drop => cases hjob'

/-- **A block lands in its own file.** Where no switch away from an open file is stopped half way,
whatever else fails and whatever the peer sends, the bytes of each block go to the `.download` file
of the entry it is for. -/
theorem blocks_land_in_download {w : Receiver} {job : TransferJob} (hjob : w.job = some job)
    (hgen : job.Generic p) (hstream : job.dataStream = none) {evs : List Event}
    (h : (receiver z).Meets (SwitchOk p) w evs) :
    ∀ s ∈ (receiver z).trace w evs, ∀ env block job', s.2 = .block env block →
      s.1.job = some job' → Lands z env block job' s.1.disk := by
  have hstart : Aligned p w := by
    intro job' hjob'
    obtain rfl : job = job' := Option.some.inj (hjob.symm.trans hjob')
    exact ⟨hgen, TransferJob.attached_of_none hstream⟩
  have hall := h.inv_trace (I := Aligned p) hstart fun w' ev hok hal => hal.next z hok
  intro s hs env block job' hblock hjob'
  obtain ⟨hgen', hatt'⟩ := hall s hs job' hjob'
  exact (hatt'.write z hgen' fun entry => h s hs env block job' entry hblock hjob').2.2

end Run

/-! ### Two files -/

/-- The list of files `a` and `b`. -/
def twoFiles : List FileEntry := [⟨['a'], 1, 0⟩, ⟨['b'], 1, 0⟩]

/-- A job that receives them into `d`. -/
def twoFilesJob : TransferJob :=
  { TransferJob.newWrite 1 .generic (.filePath ['d']) 0 false with
    files := twoFiles, totalSize := 2 }

def twoFilesReceiver : Receiver := ⟨.empty, some twoFilesJob, []⟩

def twoBlocks : List Event :=
  [.block .good ⟨1, 0, [1], false⟩, .block .good ⟨1, 1, [2], false⟩]

/-- Both files arrive, a block each. -/
theorem blocks_land_in_download_two :
    (∀ s ∈ (receiver .storing).trace twoFilesReceiver twoBlocks,
      ∀ env block job', s.2 = .block env block → s.1.job = some job' →
        Lands .storing env block job' s.1.disk) ∧
    ((receiver .storing).run twoFilesReceiver twoBlocks).disk.content
      (downloadKey ['d'] ⟨['b'], 1, 0⟩) = some [2] := by
  refine ⟨?_, by decide +kernel⟩
  have hjob : twoFilesReceiver.job = some twoFilesJob := rfl
  have hgen : twoFilesJob.Generic ['d'] := ⟨rfl, rfl⟩
  refine blocks_land_in_download .storing hjob hgen rfl ?_
  have hnames : ∀ entry ∈ twoFiles, TransferJob.SwitchSafe .good ['d'] entry := by
    intro entry hentry
    refine ⟨rfl, ?_, rfl, rfl⟩
    simp only [twoFiles, List.mem_cons, List.not_mem_nil, or_false] at hentry
    rcases hentry with rfl | rfl
    · exact ⟨['d', '/', 'a'], rfl⟩
    · exact ⟨['d', '/', 'b'], rfl⟩
  have hfiles : ∀ job, ((receiver .storing).next twoFilesReceiver
      (.block .good ⟨1, 0, [1], false⟩)).job = some job → job.files = twoFiles := by
    intro job hjob
    obtain rfl := Option.some.inj hjob
    rfl
  simp only [twoBlocks, Machine.meets_cons, Machine.meets_nil, and_true]
  constructor
  · rintro env block job entry hev hjob - hentry - -
    obtain ⟨rfl, rfl⟩ := Event.block.inj hev
    obtain rfl := Option.some.inj hjob
    exact hnames entry (List.mem_of_getElem? hentry)
  · rintro env block job entry hev hjob - hentry - -
    obtain ⟨rfl, rfl⟩ := Event.block.inj hev
    exact hnames entry (hfiles job hjob ▸ List.mem_of_getElem? hentry)

/-- The first block of `b` cannot create its file; its sender goes on with the next one. -/
def failedSwitch : List Event :=
  [.block .good ⟨1, 0, [1], false⟩,
    .block { WriteEnv.good with create := .error "No space left on device (os error 28)" }
      ⟨1, 1, [2], false⟩]

/-- **A block that misses its file.** The next block of `b` ends up in `a`, which was finished. -/
theorem failed_switch_corrupts :
    (¬ ∀ s ∈ (receiver .storing).trace twoFilesReceiver
          (failedSwitch ++ [.block .good ⟨1, 1, [3], false⟩]),
        ∀ env block job', s.2 = .block env block → s.1.job = some job' →
          Lands .storing env block job' s.1.disk) ∧
      ((receiver .storing).run twoFilesReceiver
          (failedSwitch ++ [.block .good ⟨1, 1, [3], false⟩])).disk.content
        (finalKey ['d'] ⟨['a'], 1, 0⟩) = some [1, 3] := by
  constructor
  · intro h
    have hlands := h _ (Machine.mem_trace_split _ _ failedSwitch _ []) .good ⟨1, 1, [3], false⟩
    have hmiss : (((receiver .storing).run twoFilesReceiver failedSwitch).job.any fun job =>
        let disk := ((receiver .storing).run twoFilesReceiver failedSwitch).disk
        let opened := job.openBlock .good ⟨1, 1, [3], false⟩ disk
        job.dataSource == .filePath ['d'] && job.files[1]? == some ⟨['b'], 1, 0⟩ &&
        ((job.write .storing .good ⟨1, 1, [3], false⟩ disk).1.node 0).data !=
          (opened.1.node 0).data &&
        opened.1.dir (downloadKey ['d'] ⟨['b'], 1, 0⟩) != some 0) = true := by decide +kernel
    cases hjob : ((receiver .storing).run twoFilesReceiver failedSwitch).job with
    | none =>
      rw [hjob] at hmiss
      cases hmiss
    | some job =>
      rw [hjob] at hmiss
      simp only [Option.any_some, Bool.and_eq_true, beq_iff_eq, bne_iff_ne] at hmiss
      obtain ⟨⟨⟨hsource, hfile⟩, hchange⟩, hdir⟩ := hmiss
      obtain ⟨p, entry, hsource', hentry, hlink⟩ := hlands job rfl hjob 0 hchange
      obtain rfl : ['d'] = p := DataSource.filePath.inj (hsource.symm.trans hsource')
      obtain rfl := Option.some.inj (hfile.symm.trans hentry)
      exact hdir hlink
  · decide +kernel

end LibRustdesk.FileTransfer
