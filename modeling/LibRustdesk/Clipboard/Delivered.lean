import LibRustdesk.Clipboard.NextFile

/-!
# What a finished paste leaves

When a paste is reported as finished and nothing as wrong, each regular file of its list is to stand
under its name with the bytes of the answers to the task's own requests, and nothing else is to have
changed on the disk.

* `Answered` — what a run needs for it: data that the worker takes is the answer to the request it
  waits for, no longer than that asked, and no call that is only logged fails.
* `State.Follows` — the task in progress `Tracks` its list, as long as nobody else changes the disk.
* `Delivered` — the disk of a finished paste, and `paste_delivers` that it is reached.

A response names its file by the index in the list, and every paste counts from nought. So the
answer to a request of a paste that was canceled is taken for the data of the next one
(`paste_delivers_fails`). -/

namespace LibRustdesk.Clipboard.Paste

open LittleEndian FileTransfer Descriptor Ohos

/-! ### The condition -/

section Condition

variable {κ : Type*} [DecidableEq κ] (lead : Bool × PathKey → κ)

/-- The task that `start` makes. -/
def TaskHandle.new (targetDir : Path) (files : List FileDescription) (serial : ℕ) : TaskHandle :=
  { progress :=
      { listIndex := -1, offset := 0
        totalSize := (files.map FileDescription.size).sum, currentSize := 0
        downloadFileIndex := -1, downloadFileSize := 0, downloadFilePath := []
        fileHandle := none, error := none, isCanceled := false }
    targetDir := targetDir, files := files, serial := serial }

def TaskHandle.asks (t : TaskHandle) (file : FileDescription) : Request :=
  ⟨t.serial, t.progress.listIndex, t.progress.offset,
    min BLOCK_SIZE (file.size - t.progress.offset)⟩

/-- The data is with the writer, which may have put some of it into the file. -/
def World.taken (w : World κ) (env : Env) (wr : Writer) (data : Bytes) : World κ :=
  let next := w.drain { wr with pending := wr.pending ++ data } env.spill
  next.1.setProgress { w.task.progress with fileHandle := some next.2 }

/-- The task and the file whose data the worker takes the response for. -/
def State.takes (s : State κ) (r : FileContentsResponse) : Option (TaskHandle × FileDescription) :=
  s.handle.bind fun t =>
    if t.isFinished = false ∧ r.streamId.toInt = t.progress.listIndex ∧ r.msgFlags = 1 then
      ((t.file? r.streamId.toInt).filter fun file => file.connId = r.connId).map (t, ·)
    else none

/-- A paste that starts makes its empty files. Data that is taken answers the request the task waits
for and is no longer, and the file it completes is left well. -/
def Answered (s : State κ) : Event κ → Prop
  | .start targetDir files env =>
    s.disk.exists lead targetDir = true → s.handle.all TaskHandle.isFinished = true →
      (⟨s.disk, TaskHandle.new targetDir files s.serial, []⟩ : World κ).updatesWell lead env 0 =
        true
  | .response r env =>
    ∀ x ∈ s.takes r, r.answers = some (x.1.asks x.2) ∧
      r.requestedData.length ≤ (x.1.asks x.2).count.toNat ∧
      ∀ wr ∈ x.1.progress.fileHandle, env.writeFails = none →
        ((⟨s.disk, x.1, []⟩ : World κ).taken env wr r.requestedData).updatesWell lead env
          (UInt64.ofNat r.requestedData.length) = true
  | _ => True

end Condition

/-! ### The worker's round -/

section Round

variable {κ : Type*} {lead : Bool × PathKey → κ} {env : Env} {before : Disk κ}
  {acc : List (Option Request × Bytes)} {w w' : World κ}

theorem Tracks.of_eq (h : Tracks lead before acc w) (hdisk : w'.disk = w.disk)
    (htask : w'.task = w.task) : Tracks lead before acc w' := by
  cases h with
  | failed herror => exact .failed (by rw [htask]; exact herror)
  | stuck hhandle hindex =>
    exact .stuck (by rw [htask]; exact hhandle) (by rw [htask]; exact hindex)
  | complete h hindex =>
    refine .complete ?_ (by rw [htask]; exact hindex)
    rw [htask]
    exact h.of_eq hdisk htask
  | downloading h hoffset hmissing =>
    refine .downloading (h.of_eq hdisk htask) ?_ ?_ <;> rw [htask]
    · exact hoffset
    · exact hmissing

variable [DecidableEq κ]

theorem task_onCancelled (w : World κ) :
    (w.onCancelled lead env).task =
      { w.task with progress := { w.task.progress with fileHandle := none } } := by
  unfold World.onCancelled
  dsimp only
  split
  · exact World.task_closeWriter env w
  · split
    · exact World.task_closeWriter env w
    · exact World.task_closeWriter env w

theorem Tracks.onError (w : World κ) (e : CliprdrError) :
    Tracks lead before acc (w.onError lead env e) := by
  refine .failed ?_
  unfold World.onError
  rw [task_onCancelled]
  rfl

theorem Tracks.onFinished (h : Tracks lead before acc w) (hfin : w.task.isFinished = true) :
    Tracks lead before acc (w.onFinished lead env) := by
  have hclosed : Tracks lead before acc (w.closeTask lead env) := by
    unfold World.closeTask
    split
    · next herror =>
      refine .failed ?_
      rw [task_onCancelled]
      exact herror
    · next herror =>
      have hidle (hhandle : w.task.progress.fileHandle = none) :
          Tracks lead before acc (w.onDone lead env) :=
        h.of_eq (onDone_of_idle hhandle).1 (onDone_of_idle hhandle).2
      cases h with
      | failed h => exact absurd h herror
      | stuck hhandle _ => exact hidle hhandle
      | complete h _ => exact hidle h.handle
      | downloading h _ _ =>
        -- a download that is open has bytes to come
        have hlt := h.lt_length
        have hopen := not_isFinished h.error h.canceled
          (by rw [h.listIndex]; exact_mod_cast hlt)
        rw [hopen] at hfin
        cases hfin
  unfold World.onFinished
  dsimp only
  split
  · exact .failed rfl
  · exact hclosed

theorem Tracks.sendOrFail (h : Tracks lead before acc w) :
    Tracks lead before acc (w.sendOrFail lead env) := by
  unfold World.sendOrFail World.sendFileContentsRequest
  dsimp only
  split
  · next heq =>
    refine h.of_eq ?_ ?_ <;> split at heq
    · exact congrArg (fun x => x.1.disk) heq.symm
    · split at heq
      · cases heq
      · exact congrArg (fun x => x.1.disk) heq.symm
    · exact congrArg (fun x => x.1.task) heq.symm
    · split at heq
      · cases heq
      · exact congrArg (fun x => x.1.task) heq.symm
  · exact .onError _ _

theorem handleFileContentsResponse_eq {wr : Writer} (hwr : w.task.progress.fileHandle = some wr)
    (hwrite : env.writeFails = none) (data : Bytes) :
    w.handleFileContentsResponse lead env data =
      (w.taken env wr data).updateNext lead env (UInt64.ofNat data.length) := by
  unfold World.handleFileContentsResponse
  rw [hwr]
  rw [hwrite]
  rfl

theorem Tracks.handleFileContentsResponse (h : Tracks lead before acc w)
    (hopen : w.task.isFinished = false) {file : FileDescription}
    (hfile : w.task.file? w.task.progress.listIndex = some file) {data : Bytes}
    (hlen : data.length ≤ (w.task.asks file).count.toNat)
    (hwell : ∀ wr ∈ w.task.progress.fileHandle, env.writeFails = none →
      (w.taken env wr data).updatesWell lead env (UInt64.ofNat data.length) = true)
    (hok : w.handleFileContentsResponse lead env data = (w', .ok ())) :
    Tracks lead before (acc ++ [(some (w.task.asks file), data)]) w' := by
  cases h with
  | failed herror =>
    exfalso
    unfold TaskHandle.isFinished at hopen
    rw [herror] at hopen
    simp at hopen
  | complete h hindex =>
    exfalso
    unfold TaskHandle.isFinished at hopen
    simp [hindex] at hopen
  | stuck hhandle hindex =>
    -- there is nothing to write to
    exfalso
    unfold World.handleFileContentsResponse at hok
    rw [hhandle] at hok
    cases hok
  | downloading h hoffset hmissing =>
    rename_i n file' wr
    have hsame : file' = file := by
      rw [h.listIndex, h.file?] at hfile
      exact Option.some.inj hfile
    subst hsame
    have hwrite : env.writeFails = none := by
      cases hfails : env.writeFails with
      | none => rfl
      | some e =>
        exfalso
        unfold World.handleFileContentsResponse at hok
        rw [h.handle, hfails] at hok
        cases hok
    rw [handleFileContentsResponse_eq h.handle hwrite] at hok
    -- the file lacks at least as many bytes as the request asks for
    have hcount : (w.task.asks file').count.toNat ≤
        file'.size.toNat - w.task.progress.offset.toNat := by
      have hle : w.task.progress.offset ≤ file'.size :=
        UInt64.le_iff_toNat_le.mpr (Nat.le_of_lt hmissing)
      rw [← UInt64.toNat_sub_of_le _ _ hle, ← UInt64.le_iff_toNat_le]
      show (if BLOCK_SIZE ≤ file'.size - w.task.progress.offset then BLOCK_SIZE
        else file'.size - w.task.progress.offset) ≤ _
      split
      · assumption
      · exact UInt64.le_refl _
    have hsize : (UInt64.ofNat data.length).toNat = data.length := by
      have hbound : file'.size.toNat < UInt64.size := file'.size.toNat_lt
      exact UInt64.toNat_ofNat_of_lt (by omega)
    have hindex : (w.task.asks file').listIndex = (n : ℤ) := h.listIndex
    have hgot := (h.accept (r := w.task.asks file') rfl hindex hoffset.symm data).drain env.spill
    have hreceived : (received (acc ++ [(some (w.task.asks file'), data)]) n).length =
        w.task.progress.offset.toNat + data.length := by
      rw [received_concat_self hindex, List.length_append, hoffset]
    have htaken : Downloading lead before (acc ++ [(some (w.task.asks file'), data)]) n file' _
        (w.taken env wr data) := hgot
    have htracks := htaken.updateNext (by rw [hsize]; exact hreceived) (by omega)
      (hwell wr h.handle hwrite)
    rw [hok] at htracks
    exact htracks

theorem Tracks.endRound (h : Tracks lead before acc w) :
    Tracks lead before acc
      (if w.task.isFinished then w.onFinished lead env else w.sendOrFail lead env) := by
  split
  · next hfin => exact h.onFinished hfin
  · exact h.sendOrFail

end Round

/-! ### Runs -/

section Runs

variable {κ : Type*} [DecidableEq κ] {lead : Bool × PathKey → κ} {s : State κ}

/-- While nobody else changes the disk, a task that is not canceled tracks its list. -/
def State.Follows (lead : Bool × PathKey → κ) (s : State κ) : Prop :=
  ∀ t, s.handle = some t → s.untouched = true → t.progress.isCanceled = false →
    Tracks lead s.before s.accepted ⟨s.disk, t, []⟩

theorem follows_of_tracks {w : World κ}
    (hw : s.untouched = true → Tracks lead s.before s.accepted w)
    (hdisk : s.disk = w.disk) (hhandle : s.handle = some w.task) : s.Follows lead := by
  intro t ht hsole _
  obtain rfl := Option.some.inj (hhandle.symm.trans ht)
  exact (hw hsole).of_eq hdisk rfl

theorem follows_endRound {w : World κ} {env : Env}
    (hw : s.untouched = true → Tracks lead s.before s.accepted w) :
    (s.endRound lead w env).1.Follows lead := by
  unfold State.endRound
  split
  · next hfin => exact follows_of_tracks (fun hsole => (hw hsole).onFinished hfin) rfl rfl
  · exact follows_of_tracks (fun hsole => (hw hsole).sendOrFail) rfl rfl

theorem between_new (disk : Disk κ) (targetDir : Path) (files : List FileDescription) (serial : ℕ) :
    Between lead disk [] 0 ⟨disk, TaskHandle.new targetDir files serial, []⟩ where
  core := by
    refine ⟨[], FileSystem.Adds.refl disk.files, ?_, ?_, InOrder.nil serial⟩
    · exact fun i file hi => absurd hi (Nat.not_lt_zero i)
    · exact fun x hx => absurd hx List.not_mem_nil
  rest _ _ := rfl
  handle := rfl
  error := rfl
  canceled := rfl

theorem State.Follows.start (h : s.Follows lead) {targetDir : Path} {files : List FileDescription}
    {env : Env} (hwell : Answered lead s (.start targetDir files env)) :
    (s.start lead targetDir files env).1.Follows lead := by
  unfold State.start
  split
  · exact h
  split
  · exact h
  · next hexists hidle =>
    have hall : s.handle.all TaskHandle.isFinished = true := by
      cases hhandle : s.handle with
      | none => rfl
      | some t =>
        rw [hhandle] at hidle
        simpa using hidle
    have hnew : Between lead s.disk [] 0 ⟨s.disk, TaskHandle.new targetDir files s.serial, []⟩ :=
      between_new s.disk targetDir files s.serial
    have htracks := hnew.updateNext rfl (hwell (by simpa using hexists) hall)
    exact follows_of_tracks (fun _ => htracks.endRound) rfl rfl

theorem State.takes_spec {r : FileContentsResponse} {t : TaskHandle} {file : FileDescription}
    (hhandle : s.handle = some t) (hopen : t.isFinished = false)
    (hindex : r.streamId.toInt = t.progress.listIndex) (hflags : r.msgFlags = 1)
    (hfile : t.file? r.streamId.toInt = some file) (hconn : file.connId = r.connId) :
    s.takes r = some (t, file) := by
  unfold takes
  rw [hhandle, Option.bind_some, if_pos ⟨hopen, hindex, hflags⟩, hfile, Option.filter_some]
  simp [hconn]

theorem State.Follows.response (h : s.Follows lead) {r : FileContentsResponse} {env : Env}
    (hwell : Answered lead s (.response r env)) : (s.response lead r env).1.Follows lead := by
  unfold State.response
  split
  · exact h
  · next t ht =>
    dsimp only
    split
    · exact h
    · next hopen =>
      rw [Bool.not_eq_true] at hopen
      have hcanceled : t.progress.isCanceled = false := by
        unfold TaskHandle.isFinished at hopen
        rw [Bool.or_eq_false_iff, Bool.or_eq_false_iff] at hopen
        exact hopen.1.1
      split
      · exact h
      · next hindex =>
        rw [not_not] at hindex
        have htracks : s.untouched = true → Tracks lead s.before s.accepted ⟨s.disk, t, []⟩ :=
          fun hsole => h t ht hsole hcanceled
        split
        · -- the peer has failed; the worker asks again, or gives up
          split
          · exact follows_endRound fun _ => .failed rfl
          · exact follows_endRound htracks
        · next hflags =>
          rw [not_not] at hflags
          split
          · exact h
          · next file hfile =>
            split
            · exact h
            · next hconn =>
              rw [not_not] at hconn
              have htakes := State.takes_spec ht hopen hindex hflags hfile hconn
              obtain ⟨hanswers, hlen, hupdates⟩ := hwell _ htakes
              rw [hindex] at hfile
              split
              · next w hok =>
                refine follows_endRound fun hsole => ?_
                rw [hanswers]
                exact (htracks hsole).handleFileContentsResponse hopen hfile hlen hupdates hok
              · exact follows_endRound fun _ => .onError _ _

theorem State.Follows.step (h : s.Follows lead) {e : Event κ} (hwell : Answered lead s e) :
    ((machine lead).next s e).Follows lead := by
  cases e with
  | start targetDir files env => exact h.start hwell
  | response r env => exact h.response hwell
  | cancel env =>
    show (s.cancel lead env).1.Follows lead
    unfold State.cancel
    split
    · exact h
    · next t ht =>
      -- the task is canceled, and stays so
      intro t' ht' _ hcanceled
      exfalso
      obtain rfl := Option.some.inj ht'
      rw [task_onCancelled] at hcanceled
      cases hcanceled
  | timeout elapsed env =>
    show (s.timeout lead elapsed env).1.Follows lead
    unfold State.timeout
    split
    · exact h
    · next t ht =>
      split
      · refine follows_of_tracks (fun _ => ?_) rfl rfl
        exact Tracks.onFinished (.failed rfl)
          (by simp [TaskHandle.isFinished, World.setError, World.setProgress])
      · exact h
  | others disk =>
    intro t _ hsole
    cases hsole

/-- **What a finished paste leaves.** Each regular file of the list has a name of its own, which was
free, and is the data taken for it; there is no other new file, and no file has changed. -/
structure Delivered (lead : Bool × PathKey → κ) (s : State κ) (t : TaskHandle)
    (placed : List (ℕ × Path)) : Prop where
  files : ∀ i file, t.files[i]? = some file → file.kind = .file → ∃ p, (i, p) ∈ placed ∧
    NamedFor lead s.before s.disk placed (pathJoin t.targetDir file.name) p ∧
    s.disk.files.content (at' lead p) = some (received s.accepted i) ∧
    (received s.accepted i).length = file.size.toNat
  answers : InOrder t.serial s.accepted
  distinct : (placed.map fun x => at' lead x.2).Nodup
  free : ∀ x ∈ placed, s.before.files.has (at' lead x.2) = false
  noOther : ∀ k, s.disk.files.has k = true →
    s.before.files.has k = true ∨ k ∈ placed.map fun x => at' lead x.2
  kept : ∀ k, s.before.files.has k = true →
    s.disk.files.has k = true ∧ s.disk.files.content k = s.before.files.content k

theorem Core.delivered {t : TaskHandle} {placed : List (ℕ × Path)}
    (h : Core lead (t.job s.before) s.disk s.accepted t.files.length placed []) :
    Delivered lead s t placed := by
  have hfiles := h.files
  rw [List.nil_append] at hfiles
  constructor
  case files =>
    intro i file hfile hkind
    obtain ⟨p, hp⟩ := h.all i file (List.getElem?_eq_some_iff.mp hfile).1 hfile hkind
    obtain ⟨-, file', hfile', -, hname, hlen⟩ := h.each (i, p) hp
    obtain rfl := Option.some.inj (hfile.symm.trans hfile')
    exact ⟨p, hp, hname, hfiles.content _ (List.mem_map_of_mem hp), hlen⟩
  case answers => exact h.inOrder
  case distinct =>
    have hnodup := hfiles.distinct
    rw [List.map_map] at hnodup
    exact hnodup
  case free =>
    intro x hx
    have hnew : s.before.files.dir (at' lead x.2) = none := hfiles.new _ (List.mem_map_of_mem hx)
    unfold FileSystem.has
    rw [hnew]
    rfl
  case noOther =>
    intro k hk
    have hcases := hfiles.has_iff.mp hk
    rw [List.map_map] at hcases
    exact hcases
  case kept => exact fun k hk => ⟨hfiles.has_iff.mpr (Or.inl hk), hfiles.content_old hk⟩

/-- **A paste that is reported as finished without an error** has delivered its list, if its run
meets the condition and no other program has changed the disk since it started. -/
theorem paste_delivers (disk : Disk κ) {es : List (Event κ)}
    (h : (machine lead).Meets (Answered lead) (State.init disk) es)
    (hdone : ((machine lead).run (State.init disk) es).ReportsDone)
    (hsole : ((machine lead).run (State.init disk) es).untouched = true) :
    ∃ t placed, ((machine lead).run (State.init disk) es).handle = some t ∧
      Delivered lead ((machine lead).run (State.init disk) es) t placed := by
  have hfollows := h.inv_run (I := State.Follows lead) (fun t ht => by cases ht)
    fun s e he hs => hs.step he
  obtain ⟨t, ht, hfin, herror, hcanceled⟩ := hdone
  cases hfollows t ht hsole hcanceled with
  | failed hfailed =>
    rw [herror] at hfailed
    cases hfailed
  | stuck _ hindex =>
    rw [not_isFinished herror hcanceled hindex] at hfin
    cases hfin
  | downloading h _ _ =>
    have hlt := h.lt_length
    rw [not_isFinished herror hcanceled (by rw [h.listIndex]; exact_mod_cast hlt)] at hfin
    cases hfin
  | complete h _ =>
    obtain ⟨placed, hcore⟩ := h.core
    exact ⟨t, placed, ht, hcore.delivered⟩

end Runs

/-! ### A late answer -/

def plainPaste : List (Event (Bool × PathKey)) :=
  [.start "/t".toList [offered "a"] .quiet,
    .response ⟨7, 1, 0, [1, 2, 3], some ⟨0, 0, 0, 3⟩⟩ .quiet]

/-- One file is pasted, the paste is canceled and another file pasted, when the data of the first
comes. -/
def latePaste : List (Event (Bool × PathKey)) :=
  [.start "/t".toList [offered "a"] .quiet, .cancel .quiet, .start "/t".toList [offered "b"] .quiet,
    .response ⟨7, 1, 0, [1, 2, 3], some ⟨0, 0, 0, 3⟩⟩ .quiet]

theorem paste_delivers_plain :
    ∃ t placed, ((machine id).run (State.init emptyTarget) plainPaste).handle = some t ∧
      Delivered id ((machine id).run (State.init emptyTarget) plainPaste) t placed := by
  have hmeets : (machine id).Meets (Answered id) (State.init emptyTarget) plainPaste := by
    unfold plainPaste
    rw [Machine.meets_cons, Machine.meets_cons]
    refine ⟨?_, ?_, Machine.meets_nil _⟩
    · unfold Answered
      decide +kernel
    · unfold Answered
      decide +kernel
  exact paste_delivers emptyTarget hmeets (by decide +kernel) (by decide +kernel)

/-- The second paste is reported as finished, with the data that the first had asked for. -/
theorem paste_delivers_fails :
    Out.request 7 ⟨0, 0, 0, 3⟩ ∈ (machine id).outputs (State.init emptyTarget) latePaste ∧
      ((machine id).run (State.init emptyTarget) latePaste).ReportsDone ∧
      ((machine id).run (State.init emptyTarget) latePaste).untouched = true ∧
      ¬ ∃ t placed, ((machine id).run (State.init emptyTarget) latePaste).handle = some t ∧
        Delivered id ((machine id).run (State.init emptyTarget) latePaste) t placed := by
  refine ⟨by decide +kernel, by decide +kernel, by decide +kernel, ?_⟩
  rintro ⟨t, placed, ht, hdelivered⟩
  have hserial : ((machine id).run (State.init emptyTarget) latePaste).handle.map
      TaskHandle.serial = some 1 := by decide +kernel
  have haccepted : ((machine id).run (State.init emptyTarget) latePaste).accepted =
      [(some ⟨0, 0, 0, 3⟩, [1, 2, 3])] := by decide +kernel
  rw [ht] at hserial
  -- the data taken answers a request of the task before
  obtain ⟨r, i, hr, hown, -⟩ := hdelivered.answers 0 _ _ (by rw [haccepted]; rfl)
  obtain rfl := Option.some.inj hr
  have hone : t.serial = 1 := Option.some.inj hserial
  rw [hone] at hown
  cases hown

end LibRustdesk.Clipboard.Paste
