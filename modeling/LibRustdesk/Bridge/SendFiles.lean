import LibRustdesk.Bridge.FileOps
import LibRustdesk.Server.ReadConfirm

/-!
# The first file of the bridge's transfers

`session_send_files` asks for a job that starts at the file with the number one. The other front
ends ask for zero. The number goes with the request: into the job of this side where it sends, and
over `FileTransferSendRequest` into the job of the host, or of its connection manager, where it
receives. From there a job only goes on.

* `Starts` — the job that the sender makes of a request of the bridge, on any of the three ways.
* `PastFirst` — a job that has its first file behind it. No call goes back (`read_pastFirst` and the
  lemmas beside it), and no block of that file is sent.
* `covers_iff_empty` — **the blocks that are sent cover the list** exactly when the list is empty.
* `second_of_two` — of two files only the second is sent, and then the job is done.
-/

namespace LibRustdesk.Desktop

open FileTransfer (Path asUsize FileEntry TransferJob FileTransferBlock
  FileTransferSendConfirmRequest Disk InitEnv SeekEnv)
open FileTransfer.InRange (At numAfter endsFile skips initDataStreamForCm requestForRead)

variable {p : Path} {files : List FileEntry}

/-! ### A job does not go back to its first file -/

/-- A job over `p` that has its first file behind it. -/
structure PastFirst (p : Path) (files : List FileEntry) (job : TransferJob) : Prop where
  sends : SendsFiles p files job
  past : job.fileNum ≠ 0

theorem add_one_ne_zero {num : Int32} (hlen : files.length < 2 ^ 63)
    (hentry : files[asUsize num]? ≠ none) : num + 1 ≠ 0 := by
  intro hzero
  have hnum : num = -1 := by
    rw [← Int32.add_sub_cancel num 1, hzero]
    rfl
  refine hentry (List.getElem?_eq_none ?_)
  rw [hnum]
  have hmax : asUsize (-1) = 2 ^ 64 - 1 := by decide
  rw [hmax]
  omega

theorem pastFirst_of_at {job job' : TransferJob} {ended : Bool} (hlen : files.length < 2 ^ 63)
    (h : PastFirst p files job) (hat : At p job.files (numAfter ended job.fileNum) job')
    (htype : job'.type = job.type) (hentry : ended = true → job.currentEntry ≠ none) :
    PastFirst p files job' := by
  refine ⟨⟨htype.trans h.sends.generic, hat.source, hat.files.trans h.sends.files⟩, ?_⟩
  rw [hat.num]
  cases ended with
  | false => exact h.past
  | true =>
    have hcurrent := hentry rfl
    unfold TransferJob.currentEntry at hcurrent
    rw [h.sends.files] at hcurrent
    exact add_one_ne_zero hlen hcurrent

variable {job : TransferJob} {disk : Disk}

theorem currentEntry_of_not_opens (h : SendsFiles p files job) {openFile : Except String Unit}
    (hfails : (!(job.openDataStream openFile disk).2.isOk) = true) : job.currentEntry ≠ none := by
  intro hentry
  rw [openDataStream_past h disk openFile hentry] at hfails
  cases hfails

theorem currentEntry_of_endsFile (h : SendsFiles p files job) {z : Zstd}
    {env : FileTransfer.ReadEnv}
    (hends : endsFile job (job.read z env disk).2 = true) : job.currentEntry ≠ none := by
  intro hentry
  unfold TransferJob.read at hends
  rw [h.source, hentry] at hends
  split at hends <;> cases hends

theorem initDataStream_pastFirst (hlen : files.length < 2 ^ 63) (h : PastFirst p files job)
    (env : InitEnv) (disk : Disk) : PastFirst p files (job.initDataStream env disk).1 :=
  pastFirst_of_at hlen h (FileTransfer.InRange.at_initDataStream h.sends.source disk env)
    (initDataStream_kept env job disk).type fun hfails => currentEntry_of_not_opens h.sends hfails

theorem initReadJobForCm_pastFirst (hlen : files.length < 2 ^ 63) (h : PastFirst p files job)
    (env : InitEnv) (disk : Disk) : PastFirst p files (initReadJobForCm env job disk).1 := by
  rw [(initReadJobForCm_eq env job disk).1]
  exact initDataStream_pastFirst hlen h _ disk

theorem read_pastFirst (hlen : files.length < 2 ^ 63) (h : PastFirst p files job) (z : Zstd)
    (env : FileTransfer.ReadEnv) (disk : Disk) : PastFirst p files (job.read z env disk).1 :=
  pastFirst_of_at hlen h (FileTransfer.InRange.at_read h.sends.source disk z env)
    (read_kept z env job disk).type fun hends => currentEntry_of_endsFile h.sends hends

theorem confirm_pastFirst {job job' : TransferJob} (hlen : files.length < 2 ^ 63)
    (h : PastFirst p files job) {env : SeekEnv} {r : FileTransferSendConfirmRequest}
    (hskip : r.union ≠ some (.skip true)) (hconfirm : (job.confirm env r disk).2 = some job') :
    PastFirst p files job' := by
  have hno : skips job r = false := by
    unfold skips
    rw [beq_eq_false_iff_ne.mpr hskip, Bool.and_false]
  have hat := FileTransfer.InRange.at_confirm h.sends.source disk env r hconfirm
  rw [hno] at hat
  exact pastFirst_of_at hlen h hat (confirm_kept env r job job' disk hconfirm).type nofun

/-! ### The blocks that are sent -/

theorem read_block_fileNum {z : Zstd} {env : FileTransfer.ReadEnv} {block : FileTransferBlock}
    (h : (job.read z env disk).2 = .ok (some block)) : block.fileNum = job.fileNum := by
  have hblock (name : Path) (h : (job.readBlock z env name disk).2 = .ok (some block)) :
      block.fileNum = job.fileNum := by
    unfold TransferJob.readBlock at h
    split at h
    · cases h
    · split at h
      · cases h
      · split at h
        · cases h
        · rw [← Option.some.inj (Except.ok.inj h)]
        · rw [← Option.some.inj (Except.ok.inj h)]
  unfold TransferJob.read at h
  split at h
  · cases h
  · split at h
    · split at h
      · cases h
      · exact hblock _ h
    · exact hblock _ h

def FileOut.blockNum : FileOut → Option Int32
  | .block _ b => some b.fileNum
  | _ => none

def CmOut.blockNum : CmOut → Option Int32
  | .block b => some b.fileNum
  | _ => none

theorem initJob_blockNum (env : JobEnv) (disk : Disk) (job : ReadJob) :
    ∀ out ∈ (initJob env disk job).2.1, out.blockNum = none := by
  unfold initJob jobAccesses initMessages
  intro out hout
  rcases List.mem_append.mp hout with hout | hout
  · split at hout
    · rw [List.mem_singleton.mp hout]
      rfl
    · cases hout
  · split at hout
    · obtain ⟨digest, -, rfl⟩ := List.mem_map.mp hout
      rfl
    · split at hout
      · rw [List.mem_singleton.mp hout]
        rfl
      · cases hout

theorem readMessages_blockNum {origin : Option ℕ} {res : Except String (Option FileTransferBlock)}
    {num : Int32} (hres : ∀ block, res = .ok (some block) → block.fileNum = num) : ∀ out ∈
    (readMessages origin job res).1, ∀ n ∈ out.blockNum, n = num := by
  unfold readMessages
  intro out hout n hn
  split at hout
  · rw [List.mem_singleton.mp hout] at hn
    cases hn
  · next block =>
    rw [List.mem_singleton.mp hout] at hn
    rw [← Option.some.inj hn]
    exact hres block rfl
  · split at hout
    · split at hout <;> rw [List.mem_singleton.mp hout] at hn <;> cases hn
    · cases hout

theorem initReadJobForCm_blockNum (env : InitEnv) (job : TransferJob) (disk : Disk) :
    ∀ outs, (initReadJobForCm env job disk).2 = .ok outs → ∀ out ∈ outs, out.blockNum = none := by
  intro outs houts out hout
  unfold initReadJobForCm at houts
  split at houts
  · cases houts
  · rw [← Except.ok.inj houts] at hout
    rw [List.mem_singleton.mp hout]
    rfl
  · rw [← Except.ok.inj houts] at hout
    cases hout

/-! ### Runs without a skip -/

def SendingEvent.NoSkip : SendingEvent → Prop
  | .confirm _ r _ => r.union ≠ some (.skip true)
  | .tick _ _ _ | .init _ _ => True

def ReadingEvent.NoSkip : ReadingEvent → Prop
  | .confirm _ r _ => r.skip = false
  | .tick _ _ => True

def NoFirst (blockNums : List Int32) : Prop := ∀ n ∈ blockNums, n ≠ 0

namespace Sending

variable {z : Zstd}

theorem step_pastFirst (hlen : files.length < 2 ^ 63) {s : Sending}
    (h : PastFirst p files s.job.toTransferJob) {ev : SendingEvent} (hskip : ev.NoSkip) :
    PastFirst p files (s.step z ev).1.job.toTransferJob ∧
      NoFirst ((s.step z ev).2.filterMap FileOut.blockNum) := by
  have hopened (env : JobEnv) (disk : Disk) :
      PastFirst p files (initJob env disk s.job).1.toTransferJob ∧
        NoFirst ((initJob env disk s.job).2.1.filterMap FileOut.blockNum) := by
    refine ⟨initDataStream_pastFirst hlen h env.init disk, fun n hn => ?_⟩
    obtain ⟨out, hout, hn⟩ := List.mem_filterMap.mp hn
    rw [initJob_blockNum env disk s.job out hout] at hn
    cases hn
  cases ev with
  | init env disk => exact hopened env disk
  | confirm env r disk =>
    unfold step
    dsimp only
    split
    · next job hconfirm =>
      exact ⟨confirm_pastFirst hlen h hskip hconfirm, fun n hn => absurd hn List.not_mem_nil⟩
    · exact ⟨h, fun n hn => absurd hn List.not_mem_nil⟩
  | tick env others disk =>
    obtain ⟨hinit, hnone⟩ := hopened (env.job 0) disk
    have hread := read_pastFirst hlen hinit z env.read disk
    have hblocks : NoFirst
        ((readJob z env.read disk (initJob (env.job 0) disk s.job).1).2.1.filterMap
          FileOut.blockNum) := by
      intro n hn
      obtain ⟨out, hout, hn⟩ := List.mem_filterMap.mp hn
      rw [readMessages_blockNum (fun block => read_block_fileNum) out hout n hn]
      exact hinit.past
    unfold step tick
    dsimp only
    split
    · split
      · refine ⟨hread, ?_⟩
        rw [List.append_nil]
        exact hnone
      · refine ⟨hread, ?_⟩
        rw [List.filterMap_append]
        exact List.forall_mem_append.mpr ⟨hnone, hblocks⟩
    · refine ⟨hinit, ?_⟩
      rw [List.append_nil]
      exact hnone

theorem outputs_noFirst (hlen : files.length < 2 ^ 63) {s : Sending}
    (h : PastFirst p files s.job.toTransferJob) {evs : List SendingEvent}
    (hskip : ∀ ev ∈ evs, ev.NoSkip) :
    NoFirst (((sending z).outputs s evs).filterMap FileOut.blockNum) := by
  induction evs generalizing s with
  | nil => exact fun n hn => absurd hn List.not_mem_nil
  | cons ev evs ih =>
    obtain ⟨hev, hevs⟩ := List.forall_mem_cons.mp hskip
    have hnext : PastFirst p files ((sending z).step s ev).1.job.toTransferJob ∧
        NoFirst (((sending z).step s ev).2.filterMap FileOut.blockNum) := by
      dsimp only [sending]
      split
      · exact ⟨h, fun n hn => absurd hn List.not_mem_nil⟩
      · exact step_pastFirst hlen h hev
    rw [Machine.outputs_cons, List.filterMap_append]
    exact List.forall_mem_append.mpr ⟨hnext.2, ih hnext.1 hevs⟩

end Sending

namespace Reading

variable {z : Zstd}

theorem step_pastFirst (hlen : files.length < 2 ^ 63) {s : Reading}
    (h : PastFirst p files s.job) {ev : ReadingEvent} (hskip : ev.NoSkip) :
    PastFirst p files (s.step z ev).1.job ∧
      NoFirst ((s.step z ev).2.filterMap CmOut.blockNum) := by
  cases ev with
  | confirm env r disk =>
    unfold step
    dsimp only
    split
    · next job hconfirm =>
      refine ⟨confirm_pastFirst hlen h ?_ hconfirm, fun n hn => absurd hn List.not_mem_nil⟩
      have hno : r.skip = false := hskip
      rw [hno]
      exact nofun
    · exact ⟨h, fun n hn => absurd hn List.not_mem_nil⟩
  | tick env disk =>
    have hinit := initReadJobForCm_pastFirst hlen h (env.job 0).init disk
    have hnone := initReadJobForCm_blockNum (env.job 0).init s.job disk
    unfold step cmReadJobsTick
    dsimp only
    split
    · exact ⟨h, fun n hn => absurd hn List.not_mem_nil⟩
    · generalize initReadJobForCm (env.job 0).init s.job disk = r at hinit hnone ⊢
      obtain ⟨job', e | digest⟩ := r
      · exact ⟨hinit, fun n hn => absurd hn List.not_mem_nil⟩
      · have hread := read_pastFirst hlen hinit z env.read disk
        have hnum : ∀ block, (job'.read z env.read disk).2 = .ok (some block) →
            block.fileNum = job'.fileNum := fun block => read_block_fileNum
        have hdigest : digest.filterMap CmOut.blockNum = [] :=
          List.filterMap_eq_nil_iff.mpr (hnone digest rfl)
        dsimp only
        generalize job'.read z env.read disk = r at hread hnum ⊢
        obtain ⟨job'', e | _ | block⟩ := r
        · refine ⟨hread, ?_⟩
          rw [List.filterMap_append, hdigest]
          exact fun n hn => absurd hn List.not_mem_nil
        · dsimp only
          split
          · refine ⟨hread, ?_⟩
            rw [List.filterMap_append, hdigest]
            cases job''.jobError <;> exact fun n hn => absurd hn List.not_mem_nil
          · refine ⟨hread, ?_⟩
            rw [hdigest]
            exact fun n hn => absurd hn List.not_mem_nil
        · refine ⟨hread, ?_⟩
          rw [List.filterMap_append, hdigest]
          refine List.forall_mem_singleton.mpr ?_
          rw [hnum block rfl]
          exact hinit.past

theorem outputs_noFirst (hlen : files.length < 2 ^ 63) {s : Reading}
    (h : PastFirst p files s.job) {evs : List ReadingEvent} (hskip : ∀ ev ∈ evs, ev.NoSkip) :
    NoFirst (((reading z).outputs s evs).filterMap CmOut.blockNum) := by
  induction evs generalizing s with
  | nil => exact fun n hn => absurd hn List.not_mem_nil
  | cons ev evs ih =>
    obtain ⟨hev, hevs⟩ := List.forall_mem_cons.mp hskip
    have hnext : PastFirst p files ((reading z).step s ev).1.job ∧
        NoFirst (((reading z).step s ev).2.filterMap CmOut.blockNum) := by
      dsimp only [reading]
      split
      · exact ⟨h, fun n hn => absurd hn List.not_mem_nil⟩
      · exact step_pastFirst hlen h hev
    rw [Machine.outputs_cons, List.filterMap_append]
    exact List.forall_mem_append.mpr ⟨hnext.2, ih hnext.1 hevs⟩

end Reading

end LibRustdesk.Desktop

namespace LibRustdesk.Bridge

open FileTransfer (Path asUsize FileEntry TransferJob Disk)
open Desktop (ReadJob FileHost Transfers ActionEnv FileActionUnion FsEnv Cm FS handleFs SendsFiles
  PastFirst NoFirst Sending SendingEvent sending Reading ReadingEvent reading FileOut CmOut)
open Client (Data Remote UiEnv)

/-! ### The job of a request -/

/-- The job that is made, where it sends, of a request to a client. -/
inductive Starts (data : Data) : ReadJob → Prop
  /-- This side sends. -/
  | client (env : UiEnv) (op : ℕ) (r : Remote) (job : ReadJob)
      (h : (r.handleMsgFromUi env op data).1.readJobs = r.readJobs ++ [job]) : Starts data job
  /-- The host does, which is asked by `u`. -/
  | host (env : UiEnv) (op : ℕ) (r : Remote) (u : FileActionUnion)
      (hu : .toPeer u ∈ (r.handleMsgFromUi env op data).2) (fileHost : FileHost)
      (hostEnv : ActionEnv) (t : Transfers) (job : ReadJob)
      (h : (t.handleFileAction fileHost hostEnv u).1.readJobs = t.readJobs ++ [job]) :
      Starts data job
  /-- Its connection manager does, by the command `fs`. -/
  | connectionManager (env : UiEnv) (op : ℕ) (r : Remote) (u : FileActionUnion)
      (hu : .toPeer u ∈ (r.handleMsgFromUi env op data).2) (fileHost : FileHost)
      (hostEnv : ActionEnv) (t : Transfers) (fs : FS)
      (hfs : (t.handleFileAction fileHost hostEnv u).1.queue = t.queue ++ [fs]) (z : Zstd)
      (fsEnv : FsEnv) (cm : Cm) (disk : Disk) (job : TransferJob)
      (h : (handleFs z fsEnv cm disk fs).1.readJobs = cm.readJobs ++ [job]) :
      Starts data ⟨job, none⟩

/-- The job of a request that starts at `fileNum`. -/
structure StartsAt (fileNum : Int32) (job : TransferJob) : Prop where
  sends : ∃ p, SendsFiles p job.files job
  num : job.fileNum = fileNum

theorem startsAt_newRead {found : Except String (List FileEntry)} {id fileNum : Int32} {p : Path}
    {enableOverwriteDetection : Bool} {job : TransferJob}
    (h : Desktop.newRead found id .generic (.filePath p) fileNum enableOverwriteDetection =
      .ok job) : StartsAt fileNum job := by
  obtain ⟨files, -, rfl⟩ := Client.newRead_filePath h
  exact ⟨⟨p, rfl, rfl, rfl⟩, rfl⟩

theorem ne_append_singleton {α : Type} (l : List α) (a : α) : l ≠ l ++ [a] := by
  intro h
  have hlen := congrArg List.length h
  rw [List.length_append, List.length_singleton] at hlen
  omega

theorem starts_at {id fileNum : Int32} {path dest : Path} {includeHidden isRemote : Bool}
    {job : ReadJob}
    (h : Starts (.sendFiles id .generic path dest fileNum includeHidden isRemote) job) :
    StartsAt fileNum job.toTransferJob := by
  -- what the peer is asked for
  have hasked {env : UiEnv} {op : ℕ} {r : Remote} {u : FileActionUnion}
      (hu : .toPeer u ∈ (r.handleMsgFromUi env op
        (.sendFiles id .generic path dest fileNum includeHidden isRemote)).2) :
      u = .send id path fileNum includeHidden 0 ∨
        ∃ files size, u = .receive id dest fileNum files size := by
    unfold Remote.handleMsgFromUi at hu
    dsimp only at hu
    split at hu
    · exact Or.inl (Client.ClientOut.toPeer.inj (List.mem_singleton.mp hu))
    · split at hu
      · cases List.mem_singleton.mp hu
      · exact Or.inr ⟨_, _, Client.ClientOut.toPeer.inj (List.mem_singleton.mp hu)⟩
  cases h with
  | client env op r job h =>
    unfold Remote.handleMsgFromUi at h
    dsimp only at h
    split at h
    · exact absurd h (ne_append_singleton _ _)
    · split at h
      · exact absurd h (ne_append_singleton _ _)
      · next job' hnew =>
        rw [← List.singleton_inj.mp (List.append_cancel_left h)]
        exact startsAt_newRead hnew
  | host env op r u hu fileHost hostEnv t job h =>
    rcases hasked hu with rfl | ⟨files, size, rfl⟩
    · change (if fileHost.needFsCmSendFiles then _ else _ : Transfers × List FileOut).1.readJobs = _
        at h
      split at h
      · exact absurd h (ne_append_singleton _ _)
      · unfold Transfers.createAndStartReadJob at h
        dsimp only at h
        split at h
        · exact absurd h (ne_append_singleton _ _)
        · next job' hnew =>
          split at h
          · exact absurd h (ne_append_singleton _ _)
          · rw [← List.singleton_inj.mp (List.append_cancel_left h)]
            exact startsAt_newRead hnew
    · exact absurd h (ne_append_singleton _ _)
  | connectionManager env op r u hu fileHost hostEnv t fs hfs z fsEnv cm disk job h =>
    rcases hasked hu with rfl | ⟨files, size, rfl⟩
    · change (if fileHost.needFsCmSendFiles then _ else _ : Transfers × List FileOut).1.queue = _
        at hfs
      split at hfs
      · rw [← List.singleton_inj.mp (List.append_cancel_left hfs)] at h
        unfold handleFs at h
        dsimp only at h
        split at h
        · exact absurd h (ne_append_singleton _ _)
        · next job' hnew =>
          split at h
          · exact absurd h (ne_append_singleton _ _)
          · rw [← List.singleton_inj.mp (List.append_cancel_left h)]
            exact startsAt_newRead hnew
      · unfold Transfers.createAndStartReadJob at hfs
        dsimp only at hfs
        split at hfs
        · exact absurd hfs (ne_append_singleton _ _)
        · split at hfs <;> exact absurd hfs (ne_append_singleton _ _)
    · rw [← List.singleton_inj.mp (List.append_cancel_left hfs)] at h
      unfold handleFs at h
      dsimp only at h
      split at h <;> exact absurd h (ne_append_singleton _ _)

/-! ### What the blocks cover -/

def Covers (files : List FileEntry) (blockNums : List Int32) : Prop :=
  ∀ i < files.length, ∃ n ∈ blockNums, asUsize n = i

theorem asUsize_eq_zero {n : Int32} (h : asUsize n = 0) : n = 0 := by
  unfold asUsize at h
  have hlt := n.toInt_lt
  have hge := n.le_toInt
  refine Int32.toInt_inj.mp ?_
  rw [Int32.toInt_zero]
  omega

theorem covers_iff_of_noFirst {files : List FileEntry} {blockNums : List Int32}
    (h : NoFirst blockNums) : Covers files blockNums ↔ files = [] := by
  constructor
  · intro hcovers
    by_contra hne
    obtain ⟨n, hn, hzero⟩ := hcovers 0 (List.length_pos_iff.mpr hne)
    exact h n hn (asUsize_eq_zero hzero)
  · rintro rfl i hi
    exact absurd hi (Nat.not_lt_zero i)

/-- **The blocks that are sent cover the list that was found** exactly when it is empty: in every
run of the job without a skip, where the connection reads it, and where its connection manager
does. -/
theorem covers_iff_empty {hasSession : Bool} {path dest : Path} {isRemote : Bool}
    {now : Option ℕ} {data : Data}
    (hdata : sessionSendFiles hasSession path dest isRemote now = some data) {job : ReadJob}
    (hjob : Starts data job) (hlen : job.files.length < 2 ^ 63) (z : Zstd) :
    (∀ evs : List SendingEvent, (∀ ev ∈ evs, ev.NoSkip) →
        (Covers job.files (((sending z).outputs (.start job) evs).filterMap FileOut.blockNum) ↔
          job.files = [])) ∧
      ∀ evs : List ReadingEvent, (∀ ev ∈ evs, ev.NoSkip) →
        (Covers job.files (((reading z).outputs (.start job.toTransferJob) evs).filterMap
          CmOut.blockNum) ↔ job.files = []) := by
  have hstarts : StartsAt 1 job.toTransferJob := by
    unfold sessionSendFiles at hdata
    dsimp only at hdata
    split at hdata
    · cases hdata
    · split at hdata
      · rw [← Option.some.inj hdata] at hjob
        exact starts_at hjob
      · cases hdata
  obtain ⟨p, hsends⟩ := hstarts.sends
  have hpast : PastFirst p job.files job.toTransferJob := by
    refine ⟨hsends, ?_⟩
    rw [hstarts.num]
    decide
  exact ⟨fun evs hskip => covers_iff_of_noFirst (Sending.outputs_noFirst hlen hpast hskip),
    fun evs hskip => covers_iff_of_noFirst (Reading.outputs_noFirst hlen hpast hskip)⟩

/-- The two files of a directory are to go to the peer. -/
def uploadTwo : Data := .sendFiles 5 .generic ['d'] ['x'] 1 false false

def secondFirst : ReadJob where
  toTransferJob := { TransferJob.newWrite 5 .generic (.filePath ['d']) 1 false with
    files := Desktop.twoFiles.files
    totalSize := TransferJob.totalOf Desktop.twoFiles.files }
  origin := some 0

theorem secondFirst_starts : Starts uploadTwo secondFirst :=
  .client ⟨.ok Desktop.twoFiles.files, false, .ok ()⟩ 0 (.start FileSystem.empty) secondFirst rfl

def threeTicks : List SendingEvent :=
  List.replicate 3 (.tick .quiet true Desktop.twoOnDisk)

theorem covers_iff_empty_secondFirst :
    Covers secondFirst.files (((sending Zstd.storing).outputs (.start secondFirst)
      threeTicks).filterMap FileOut.blockNum) ↔ secondFirst.files = [] :=
  (covers_iff_empty
    (show sessionSendFiles true ['d'] ['x'] false (some 5) = some uploadTwo from rfl)
    secondFirst_starts (by decide) Zstd.storing).1 threeTicks
    (List.forall_mem_replicate.mpr (Or.inr trivial))

/-- **Of two files the second is sent, and the job is done.** -/
theorem second_of_two :
    sessionSendFiles true ['d'] ['x'] false (some 5) = some uploadTwo ∧
      Starts uploadTwo secondFirst ∧
      ((sending Zstd.storing).run (.start secondFirst) threeTicks).removed = true ∧
      ((sending Zstd.storing).outputs (.start secondFirst) threeTicks).filterMap
        FileOut.blockNum = [1, 1] ∧
      ¬ Covers secondFirst.files (((sending Zstd.storing).outputs (.start secondFirst)
        threeTicks).filterMap FileOut.blockNum) := by
  have hblocks : ((sending Zstd.storing).outputs (.start secondFirst) threeTicks).filterMap
      FileOut.blockNum = [1, 1] := by decide +kernel
  refine ⟨rfl, secondFirst_starts, by decide +kernel, hblocks, fun hcovers => ?_⟩
  rw [hblocks] at hcovers
  obtain ⟨n, hn, hzero⟩ := hcovers 0 (by decide)
  rw [asUsize_eq_zero hzero] at hn
  exact absurd hn (by decide)

end LibRustdesk.Bridge
