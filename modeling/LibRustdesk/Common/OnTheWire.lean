import LibRustdesk.FileTransfer.Read
import LibRustdesk.Terminal.Session

/-!
# Compressed blocks on the wire

A file block (`TransferJob::read`) and the output of a terminal (`create_terminal_data_response`)
are sent with a flag that says whether their bytes are compressed. Both compress where that is
shorter (`pack`), a file only if its name is not the one of a compressed file, the output only if it
is longer than a threshold.

* `read_packed`, `createTerminalDataResponse_packed` — the two functions in terms of `pack`.
* `wire_decodes_iff` — **what is sent stands for the bytes** exactly when the compressor does not
  fail on bytes that are compressed.
* `failed_output_is_lost` — output whose compression failed.
-/

namespace LibRustdesk

namespace FileTransfer.TransferJob

def blockName (job : TransferJob) (p : Path) (entry : FileEntry) : Path :=
  if job.files.length = 1 ∧ entry.name = [] then fileName p else entry.name

/-- The blocks of the file that it is at are compressed. -/
def Compresses (job : TransferJob) : Prop :=
  ∃ p entry, job.dataSource = .filePath p ∧ job.currentEntry = some entry ∧
    isCompressedFile (job.blockName p entry) = false

theorem read_packed {z : Zstd} {env : ReadEnv} {job job' : TransferJob} {disk : Disk}
    {block : FileTransferBlock} {stream stream' : DataStream} {buf : Bytes}
    (hstream : job.dataStream = some stream)
    (hbuf : fillBuffer env disk bufSize 0 [] stream = .ok (buf, stream'))
    (hread : job.read z env disk = (job', .ok (some block))) :
    (job.Compresses → (block.compressed, block.data) = pack z buf) ∧
      (¬ job.Compresses → (block.compressed, block.data) = (false, buf)) := by
  unfold read at hread
  split at hread
  · cases hread
  · split at hread
    · next p hsource =>
      split at hread
      · cases hread
      · next entry hentry =>
        have hcompresses : job.Compresses ↔ isCompressedFile (job.blockName p entry) = false := by
          constructor
          · rintro ⟨p', entry', hsource', hentry', hname⟩
            cases hsource.symm.trans hsource'
            cases hentry.symm.trans hentry'
            exact hname
          · exact fun hname => ⟨p, entry, hsource, hentry, hname⟩
        change job.readBlock z env (job.blockName p entry) disk = _ at hread
        unfold readBlock at hread
        rw [hstream] at hread
        dsimp only at hread
        rw [hbuf, hsource] at hread
        dsimp only at hread
        rw [hcompresses]
        unfold pack
        cases buf with
        | nil =>
          cases hread
          exact ⟨fun _ => rfl, fun _ => rfl⟩
        | cons b buf =>
          dsimp only at hread
          cases hread
          dsimp only
          cases isCompressedFile (job.blockName p entry) with
          | true => exact ⟨fun h => Bool.noConfusion h, fun _ => rfl⟩
          | false =>
            refine ⟨fun _ => ?_, fun h => absurd rfl h⟩
            by_cases hshort : (compress z (b :: buf)).length < (b :: buf).length
            · rw [if_pos hshort, decide_eq_true hshort]
              rfl
            · rw [if_neg hshort, decide_eq_false hshort]
              rfl
    · next data pos hsource =>
      -- what is in memory is sent as it is
      have hnot : ¬ job.Compresses := by
        rintro ⟨p, entry, hsource', -⟩
        cases hsource.symm.trans hsource'
      refine ⟨fun h => absurd h hnot, fun _ => ?_⟩
      unfold readBlock at hread
      rw [hstream] at hread
      dsimp only at hread
      rw [hbuf, hsource] at hread
      cases buf with
      | nil => cases hread
      | cons b buf =>
        cases hread
        rfl

end FileTransfer.TransferJob

theorem createTerminalDataResponse_packed (z : Zstd) (id : Int32) (data : Bytes) :
    Terminal.createTerminalDataResponse z id data =
      if data.length > Terminal.compressThreshold then
        .data ⟨id, (pack z data).2, (pack z data).1⟩
      else .data ⟨id, data, false⟩ := by
  unfold Terminal.createTerminalDataResponse pack
  split
  · dsimp only
    split <;> rfl
  · rfl

/-- **What is sent stands for the bytes** exactly when the compressor does not fail on bytes that
are compressed. -/
theorem wire_decodes_iff {z peer : Zstd} (hundone : z.UndoneBy peer)
    (hnil : decompress peer [] = []) :
    (∀ (env : FileTransfer.ReadEnv) (job job' : FileTransfer.TransferJob)
        (disk : FileTransfer.Disk) (block : FileTransfer.FileTransferBlock)
        (stream stream' : FileTransfer.DataStream) (buf : Bytes),
      job.dataStream = some stream →
      FileTransfer.fillBuffer env disk FileTransfer.bufSize 0 [] stream = .ok (buf, stream') →
      job.read z env disk = (job', .ok (some block)) →
        (unpack peer block.compressed block.data = buf ↔
          (job.Compresses → buf = [] ∨ (z.compressor buf).isSome = true))) ∧
      ∀ (id : Int32) (data : Bytes), ∃ sent,
        Terminal.createTerminalDataResponse z id data = .data sent ∧
          (unpack peer sent.compressed sent.data = data ↔
            (Terminal.compressThreshold < data.length → (z.compressor data).isSome = true)) := by
  constructor
  · intro env job job' disk block stream stream' buf hstream hbuf hread
    obtain ⟨hpacked, hplain⟩ := FileTransfer.TransferJob.read_packed hstream hbuf hread
    by_cases hcompresses : job.Compresses
    · rw [forall_prop_of_true hcompresses, ← unpack_pack_iff hundone hnil, ← hpacked hcompresses]
    · obtain ⟨hflag, hdata⟩ := Prod.mk.inj (hplain hcompresses)
      rw [hflag, hdata]
      exact iff_of_true rfl fun h => absurd h hcompresses
  · intro id data
    rw [createTerminalDataResponse_packed]
    by_cases hlong : data.length > Terminal.compressThreshold
    · rw [if_pos hlong]
      refine ⟨_, rfl, ?_⟩
      rw [forall_prop_of_true hlong]
      have hne : data ≠ [] := fun hnil => by simp [hnil, Terminal.compressThreshold] at hlong
      exact (unpack_pack_iff hundone hnil data).trans (or_iff_right hne)
    · rw [if_neg hlong]
      exact ⟨_, rfl, iff_of_true rfl fun h => absurd h hlong⟩

/-- 513 bytes of output are sent as they are where they do not compress. -/
theorem wire_decodes_stored : ∃ sent,
    Terminal.createTerminalDataResponse .storing 1 (List.replicate 513 7) = .data sent ∧
      unpack .storing sent.compressed sent.data = List.replicate 513 7 := by
  have hundone : Zstd.storing.UndoneBy .storing := fun _ _ h => h.symm
  obtain ⟨sent, heq, hiff⟩ := (wire_decodes_iff hundone rfl).2 1 (List.replicate 513 7)
  exact ⟨sent, heq, hiff.mpr fun _ => rfl⟩

/-- The compression of 513 bytes of output fails, and they are sent as nothing, compressed. -/
theorem failed_output_is_lost :
    Zstd.failing.UndoneBy .failing ∧ decompress .failing [] = [] ∧
      ∃ sent, Terminal.createTerminalDataResponse .failing 1 (List.replicate 513 7) = .data sent ∧
        unpack .failing sent.compressed sent.data = [] := by
  refine ⟨fun _ _ h => ?_, rfl, ⟨1, [], true⟩, by decide +kernel, rfl⟩
  cases h

end LibRustdesk
