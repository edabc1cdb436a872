import LibRustdesk.Clipboard.ServFiles

/-!
# The bytes of a range

A range of a file is answered with the bytes the reader of that file gives. `read_exact_at` seeks
only when the range does not start at the counter, so the counter has to say where the reader is.
A failed `read_exact` breaks that: it moves the reader and not the counter, and the handle stays.
The next range at the counter then gets the bytes from further on (`failed_read_shifts`).

A response that is ready is dropped when the file opened ahead cannot be opened, so a file that
nobody has asked for can fail the request for the one before it (`failed_read_shifts`).

* `responses_exact` — **without these two, every range that is answered is answered with its
  bytes, and what becomes of a request is decided by its own file.**
-/

namespace LibRustdesk.Clipboard

open LittleEndian

structure Request where
  connId : Int32
  streamId : Int32
  listIndex : Int32
  dwFlags : Int32
  nPositionLow : Int32
  nPositionHigh : Int32
  cbRequested : Int32

def Request.decode (r : Request) : Except CliprdrError FileContentsRequest :=
  ClipFiles.decodeRequest r.streamId r.listIndex r.dwFlags r.nPositionLow r.nPositionHigh
    r.cbRequested

inductive Event
  | sync (files : List String) (found : Except CliprdrError (List FoundFile))
  | clear
  | request (r : Request) (env : ServeEnv)

/-- The process ends when no list of responses comes back; its state does not matter then. -/
def stepClip (disk : String → Bytes) (clip : ClipFiles) :
    Event → ClipFiles × List (Except CliprdrError ClipboardFile)
  | .sync files found => (clip.syncFiles files found, [])
  | .clear => (.clear, [])
  | .request r env =>
    let (clip, res) := clip.readFileContents disk env r.connId r.streamId r.listIndex r.dwFlags
      r.nPositionLow r.nPositionHigh r.cbRequested
    (clip, res.getD [])

def clipServer (disk : String → Bytes) :
    Machine ClipFiles Event (Except CliprdrError ClipboardFile) := ⟨stepClip disk⟩

/-! ### One file -/

/-- What stays true of a listed file: a directory is not opened, a file has the size it was listed
with, and the counter of a closed file is zero. -/
structure FileOk (disk : String → Bytes) (f : LocalFile) : Prop where
  dir : f.isDir = true → f.handle = none
  size : f.isDir = false → f.size.toNat = (disk f.path).length
  closed : f.handle = none → f.offset = 0

def LocalFile.Displaced (f : LocalFile) : Prop :=
  ∃ pos, f.handle = some pos ∧ pos ≠ f.offset.toNat

section File

variable {disk : String → Bytes} {f : LocalFile}

theorem FileOk.tryOpen {found : FoundFile}
    (h : found.isDir = false → found.size.toNat = (disk found.path).length) :
    FileOk disk (.tryOpen found) := ⟨fun _ => rfl, h, fun _ => rfl⟩

theorem loadHandle_cases (env : LoadEnv) (f : LocalFile) :
    (∃ e, f.loadHandle env = (f, .error e)) ∨ f.loadHandle env = (f, .ok ()) ∨
      (f.isDir = false ∧ f.handle = none ∧
        f.loadHandle env = ({ f with handle := some 0 }, .ok ())) := by
  unfold LocalFile.loadHandle
  split
  · next h =>
    rw [Bool.and_eq_true, Bool.not_eq_true', Option.isNone_iff_eq_none] at h
    rcases env.openFile with e | u
    · exact Or.inl ⟨_, rfl⟩
    · rcases env.fillBuf with e | u
      · exact Or.inl ⟨_, rfl⟩
      · exact Or.inr (Or.inr ⟨h.1, h.2, rfl⟩)
  · exact Or.inr (Or.inl rfl)

theorem FileOk.loadHandle (h : FileOk disk f) (env : LoadEnv) :
    FileOk disk (f.loadHandle env).1 ∧ (f.loadHandle env).1.path = f.path ∧
      (f.loadHandle env).1.isDir = f.isDir ∧ (f.loadHandle env).1.offset = f.offset ∧
      ((f.loadHandle env).1.Displaced → f.Displaced) := by
  rcases loadHandle_cases env f with ⟨e, heq⟩ | heq | ⟨hdir, hnone, heq⟩ <;> rw [heq]
  · exact ⟨h, rfl, rfl, rfl, id⟩
  · exact ⟨h, rfl, rfl, rfl, id⟩
  · refine ⟨⟨fun hd => ?_, h.size, fun hh => by cases hh⟩, rfl, rfl, rfl, ?_⟩
    · rw [show f.isDir = true from hd] at hdir
      cases hdir
    · rintro ⟨pos, hpos, hne⟩
      obtain rfl : 0 = pos := Option.some.inj hpos
      exact absurd (by rw [show f.offset = 0 from h.closed hnone]; rfl) hne

/-- Where a read starts: at the range, or at the reader when the counter says that is the same. -/
def StartsAt (f : LocalFile) (offset : UInt64) (pos : ℕ) : Prop :=
  pos = offset.toNat ∨ offset = f.offset ∧ f.handle = some pos

theorem readExactAt_cases (disk : String → Bytes) (env : ReadEnv) (f : LocalFile) (n : ℕ)
    (offset : UInt64) :
    (∃ e, f.readExactAt disk env n offset = ((f.loadHandle env.load).1, .error e)) ∨
    ∃ f₁ pos, (f.loadHandle env.load).1 = f₁ ∧ f₁.handle ≠ none ∧ StartsAt f₁ offset pos ∧
      ((∃ e pos', readExact env.fault (disk f₁.path) pos n = (pos', .error e) ∧
        f.readExactAt disk env n offset =
          ({ f₁ with handle := some pos' }, .error (.fileError f₁.path e))) ∨
      ∃ buf pos', readExact env.fault (disk f₁.path) pos n = (pos', .ok buf) ∧
        f.readExactAt disk env n offset =
          (if offset + UInt64.ofNat n ≥ f₁.size then { f₁ with offset := 0, handle := none }
            else { f₁ with offset := offset + UInt64.ofNat n, handle := some pos' }, .ok buf)) := by
  unfold LocalFile.readExactAt
  rcases f.loadHandle env.load with ⟨f₁, e | u⟩
  · exact Or.inl ⟨e, rfl⟩
  dsimp only
  cases hhandle : f₁.handle with
  | none => exact Or.inl ⟨_, rfl⟩
  | some pos =>
    dsimp only
    -- The position `read_exact` finds, when there is one.
    have hstart : ∀ pos', (if offset ≠ f₁.offset then env.seek.map fun _ => offset.toNat
        else Except.ok pos) = .ok pos' → StartsAt f₁ offset pos' := by
      intro pos' hpos'
      split at hpos'
      · cases hseek : env.seek with
        | error e =>
          rw [hseek] at hpos'
          cases hpos'
        | ok u =>
          rw [hseek] at hpos'
          exact Or.inl (Except.ok.inj hpos').symm
      · next hsame =>
        obtain rfl := Except.ok.inj hpos'
        exact Or.inr ⟨Classical.not_not.mp hsame, hhandle⟩
    generalize (if offset ≠ f₁.offset then env.seek.map fun _ => offset.toNat
      else Except.ok pos) = sought at hstart ⊢
    cases sought with
    | error e => exact Or.inl ⟨_, rfl⟩
    | ok pos' =>
      refine Or.inr ⟨f₁, pos', rfl, by rw [hhandle]; simp, hstart pos' rfl, ?_⟩
      dsimp only
      rcases hread : readExact env.fault (disk f₁.path) pos' n with ⟨pos'', e | buf⟩
      · exact Or.inl ⟨e, pos'', rfl, rfl⟩
      · refine Or.inr ⟨buf, pos'', rfl, ?_⟩
        dsimp only
        split <;> rfl

theorem readExact_ok {fault : Option (String × ℕ)} {data buf : Bytes} {pos n pos' : ℕ}
    (h : readExact fault data pos n = (pos', .ok buf)) :
    pos' = pos + n ∧ buf = (data.drop pos).take n := by
  unfold readExact at h
  split at h
  · cases h
  · split at h
    · obtain ⟨rfl, hbuf⟩ := Prod.mk.inj h
      exact ⟨rfl, (Except.ok.inj hbuf).symm⟩
    · cases h

theorem StartsAt.pos_eq {f₁ : LocalFile} {offset : UInt64} {pos : ℕ} (h : StartsAt f₁ offset pos)
    (hnot : ¬ (f₁.Displaced ∧ offset = f₁.offset)) : pos = offset.toNat := by
  rcases h with hpos | ⟨hsame, hpos⟩
  · exact hpos
  · by_contra hne
    exact hnot ⟨⟨pos, hpos, hsame ▸ hne⟩, hsame⟩

theorem FileOk.readExactAt (h : FileOk disk f) (env : ReadEnv) (n : ℕ) (offset : UInt64) :
    FileOk disk (f.readExactAt disk env n offset).1 ∧
      ∀ buf, (f.readExactAt disk env n offset).2 = .ok buf →
        ¬ (f.Displaced ∧ offset = f.offset) →
        f.isDir = false ∧ buf = ((disk f.path).drop offset.toNat).take n := by
  obtain ⟨hok, hpath, hisDir, hoffset, hdis⟩ := h.loadHandle env.load
  obtain ⟨e, heq⟩ | ⟨f₁, pos, rfl, hopen, hstart, hend⟩ := readExactAt_cases disk env f n offset
  · rw [heq]
    exact ⟨hok, fun _ hbuf => by cases hbuf⟩
  generalize f.loadHandle env.load = loaded at hok hpath hisDir hoffset hdis hopen hstart hend
  obtain ⟨f₁, res⟩ := loaded
  have hdir : f₁.isDir = false := by
    cases hd : f₁.isDir with
    | false => rfl
    | true => exact absurd (hok.dir hd) hopen
  have hkeeps (pos' : ℕ) (offset' : UInt64) :
      FileOk disk { f₁ with offset := offset', handle := some pos' } :=
    ⟨fun hd => absurd hdir (by rw [show f₁.isDir = true from hd]; simp), hok.size,
      fun hh => by cases hh⟩
  obtain ⟨e, pos', hread, heq⟩ | ⟨buf, pos', hread, heq⟩ := hend
  · rw [heq]
    exact ⟨hkeeps pos' f₁.offset, fun _ hbuf => by cases hbuf⟩
  · obtain ⟨rfl, rfl⟩ := readExact_ok hread
    rw [heq]
    refine ⟨?_, fun buf hbuf hnot => ⟨hisDir ▸ hdir, ?_⟩⟩
    · split
      · exact ⟨fun _ => rfl, hok.size, fun _ => rfl⟩
      · exact hkeeps _ _
    · obtain rfl := Except.ok.inj hbuf
      rw [hstart.pos_eq fun hd => hnot ⟨hdis hd.1, hd.2.trans hoffset⟩, hpath]

end File

/-! ### The list -/

/-- A range that starts at the counter of a displaced reader. -/
def AtDisplaced (clip : ClipFiles) : FileContentsRequest → Prop
  | .size _ _ => False
  | .range _ fileIdx offset _ =>
    ∃ f, clip.fileList[fileIdx]? = some f ∧ f.Displaced ∧ offset = f.offset

def NextOpens (env : LoadEnv) (clip : ClipFiles) (request : FileContentsRequest) : Prop :=
  ∀ f, (clip.fileList.drop (request.fileIdx + 1)).find? (fun f => !f.isDir) = some f →
    f.handle = none → env.openFile = .ok () ∧ env.fillBuf = .ok ()

/-- The files are on disk as they were listed, and neither of the two failures is met. -/
structure StepOk (disk : String → Bytes) (clip : ClipFiles) (ev : Event) : Prop where
  unchanged : ∀ files list, ev = .sync files (.ok list) → ∀ found ∈ list, found.isDir = false →
    found.size.toNat = (disk found.path).length
  inStep : ∀ r env request, ev = .request r env → r.decode = .ok request →
    ¬ AtDisplaced clip request
  nextOpens : ∀ r env request, ev = .request r env → r.decode = .ok request →
    NextOpens env.next clip request

def ListOk (disk : String → Bytes) (clip : ClipFiles) : Prop :=
  ∀ f ∈ clip.fileList, FileOk disk f

section List

variable {disk : String → Bytes} {clip : ClipFiles}

theorem ListOk.respondRange (h : ListOk disk clip) (env : ReadEnv) (connId streamId : Int32)
    (fileIdx : ℕ) (offset length : UInt64) :
    ListOk disk (clip.respondRange disk env connId streamId fileIdx offset length).1 ∧
      ∀ resp, (clip.respondRange disk env connId streamId fileIdx offset length).2 =
          some (.ok resp) → ¬ AtDisplaced clip (.range streamId fileIdx offset length) →
        ∃ f, clip.fileList[fileIdx]? = some f ∧ resp = .fileContentsResponse 1 streamId
          (((disk f.path).drop offset.toNat).take length.toNat) := by
  unfold ClipFiles.respondRange
  cases hf : clip.fileList[fileIdx]? with
  | none => exact ⟨h, fun _ hresp => by cases hresp⟩
  | some f =>
    dsimp only
    have hfile := h f (List.mem_of_getElem? hf)
    split
    · exact ⟨h, fun _ hresp => by cases hresp⟩
    next hoffset =>
    generalize hsize : (if offset + length > f.size then f.size - offset else length) = readSize
    split
    · exact ⟨h, fun _ hresp => by cases hresp⟩
    obtain ⟨hok, hbytes⟩ := hfile.readExactAt env readSize.toNat offset
    refine ⟨fun g hg => ?_, fun resp hresp hnot => ⟨f, rfl, ?_⟩⟩
    · rcases List.mem_or_eq_of_mem_set hg with hg | rfl
      · exact h g hg
      · exact hok
    · cases hread : (f.readExactAt disk env readSize.toNat offset).2 with
      | error e =>
        rw [hread] at hresp
        cases hresp
      | ok buf =>
        rw [hread] at hresp
        obtain rfl := Except.ok.inj (Option.some.inj hresp)
        obtain ⟨hdir, rfl⟩ := hbytes buf hread fun hd => hnot ⟨f, hf, hd⟩
        have hlen := hfile.size hdir
        congr 1
        split at hsize
        · next hlong =>
          -- The range goes past the end: both ends read all there is.
          have hsub : readSize.toNat = f.size.toNat - offset.toNat := by
            rw [← hsize]
            exact UInt64.toNat_sub_of_le _ _ (UInt64.not_lt.mp hoffset)
          have hle : f.size.toNat - offset.toNat ≤ length.toNat := by
            have hlt := UInt64.lt_iff_toNat_lt.mp hlong
            rw [UInt64.toNat_add] at hlt
            have hoff := UInt64.le_iff_toNat_le.mp (UInt64.not_lt.mp hoffset)
            have hfsize := f.size.toNat_lt
            omega
          rw [List.take_of_length_le (by rw [List.length_drop, hsub, hlen]),
            List.take_of_length_le (by rw [List.length_drop, ← hlen]; exact hle)]
        · rw [hsize]

theorem ListOk.respond (h : ListOk disk clip) (env : ReadEnv) (connId : Int32)
    (request : FileContentsRequest) : ListOk disk (clip.respond disk env connId request).1 := by
  cases request with
  | size streamId fileIdx =>
    unfold ClipFiles.respond
    dsimp only
    split <;> exact h
  | range streamId fileIdx offset length =>
    exact (h.respondRange env connId streamId fileIdx offset length).1

theorem drop_respond (env : ReadEnv) (connId : Int32) (request : FileContentsRequest) :
    (clip.respond disk env connId request).1.fileList.drop (request.fileIdx + 1) =
      clip.fileList.drop (request.fileIdx + 1) := by
  cases request with
  | size streamId fileIdx =>
    unfold ClipFiles.respond
    dsimp only
    split <;> rfl
  | range streamId fileIdx offset length =>
    show (clip.respondRange disk env connId streamId fileIdx offset length).1.fileList.drop
      (fileIdx + 1) = clip.fileList.drop (fileIdx + 1)
    unfold ClipFiles.respondRange
    split
    · rfl
    · split
      · rfl
      · dsimp only
        split
        · split
          · rfl
          · exact List.drop_set_of_lt (Nat.lt_succ_self _)
        · split
          · rfl
          · exact List.drop_set_of_lt (Nat.lt_succ_self _)

theorem loadFirst_spec {files : List LocalFile} (h : ∀ f ∈ files, FileOk disk f) (env : LoadEnv) :
    (∀ f ∈ (ClipFiles.loadFirst env files).1, FileOk disk f) ∧
      ((∀ f, files.find? (fun f => !f.isDir) = some f → f.handle = none →
          env.openFile = .ok () ∧ env.fillBuf = .ok ()) →
        (ClipFiles.loadFirst env files).2 = .ok ()) := by
  induction files with
  | nil => exact ⟨h, fun _ => rfl⟩
  | cons f rest ih =>
    obtain ⟨hf, hrest⟩ := List.forall_mem_cons.mp h
    unfold ClipFiles.loadFirst
    by_cases hdir : (!f.isDir) = true
    · rw [if_pos hdir]
      refine ⟨List.forall_mem_cons.mpr ⟨(hf.loadHandle env).1, hrest⟩, fun hopens => ?_⟩
      show (f.loadHandle env).2 = .ok ()
      unfold LocalFile.loadHandle
      split
      · next hclosed =>
        rw [Bool.and_eq_true, Option.isNone_iff_eq_none] at hclosed
        obtain ⟨hopen, hfill⟩ := hopens f (by
          rw [List.find?_cons_of_pos (p := fun f : LocalFile => !f.isDir) hdir]) hclosed.2
        rw [hopen, hfill]
      · rfl
    · rw [if_neg hdir]
      obtain ⟨hok, hres⟩ := ih hrest
      refine ⟨List.forall_mem_cons.mpr ⟨hf, hok⟩, fun hopens => hres fun g hg => ?_⟩
      exact hopens g (by
        rw [List.find?_cons_of_neg (p := fun f : LocalFile => !f.isDir) hdir]
        exact hg)

theorem ListOk.serveFileContents (h : ListOk disk clip) (env : ServeEnv) (connId : Int32)
    (request : FileContentsRequest) :
    ListOk disk (clip.serveFileContents disk env connId request).1 ∧
      (NextOpens env.next clip request →
        (clip.serveFileContents disk env connId request).2 =
          (clip.respond disk env.read connId request).2) := by
  have hok := h.respond env.read connId request
  have hdrop : (clip.respond disk env.read connId request).1.fileList.drop
      (request.fileIdx + 1) = clip.fileList.drop (request.fileIdx + 1) :=
    drop_respond env.read connId request
  unfold ClipFiles.serveFileContents
  rcases hrespond : clip.respond disk env.read connId request with ⟨clip₁, none | e | resp⟩
  · rw [hrespond] at hok
    exact ⟨hok, fun _ => rfl⟩
  · rw [hrespond] at hok
    exact ⟨hok, fun _ => rfl⟩
  · rw [hrespond] at hok hdrop
    have hrest : ∀ f ∈ clip₁.fileList.drop (request.fileIdx + 1), FileOk disk f :=
      fun f hf => hok f (List.mem_of_mem_drop hf)
    obtain ⟨hload, hres⟩ := loadFirst_spec hrest env.next
    dsimp only
    refine ⟨fun f hf => ?_, fun hopens => ?_⟩
    · rcases List.mem_append.mp hf with hf | hf
      · exact hok f (List.mem_of_mem_take hf)
      · exact hload f hf
    · rw [hres (by rw [hdrop]; exact hopens)]
      rfl

theorem ListOk.next {ev : Event} (h : ListOk disk clip) (hok : StepOk disk clip ev) :
    ListOk disk ((clipServer disk).next clip ev) := by
  cases ev with
  | sync files found =>
    show ListOk disk (clip.syncFiles files found)
    unfold ClipFiles.syncFiles
    split
    · exact h
    · cases found with
      | error e => exact h
      | ok list =>
        intro f hf
        obtain ⟨found, hfound, rfl⟩ := List.mem_map.mp hf
        exact FileOk.tryOpen (hok.unchanged files list rfl found hfound)
  | clear =>
    intro f hf
    cases hf
  | request r env =>
    show ListOk disk (clip.readFileContents disk env r.connId r.streamId r.listIndex r.dwFlags
      r.nPositionLow r.nPositionHigh r.cbRequested).1
    unfold ClipFiles.readFileContents
    split
    · exact h
    · exact (h.serveFileContents env r.connId _).1

end List

/-- **Every answered range has its bytes.** Whatever else fails, where no range starts at the
counter of a displaced reader and the next file of a served one opens, a request ends as its own
file has it, and an answer has the bytes from `offset` to `min (offset + length) size`. -/
theorem responses_exact {disk : String → Bytes} {clip : ClipFiles} (hclip : ListOk disk clip)
    {evs : List Event} (h : (clipServer disk).Meets (StepOk disk) clip evs) :
    ∀ p ∈ (clipServer disk).trace clip evs, ∀ r env request, p.2 = .request r env →
      r.decode = .ok request →
      (p.1.serveFileContents disk env r.connId request).2 =
          (p.1.respond disk env.read r.connId request).2 ∧
        ∀ streamId fileIdx offset length resp, request = .range streamId fileIdx offset length →
          (p.1.serveFileContents disk env r.connId request).2 = some (.ok resp) →
          ∃ f, p.1.fileList[fileIdx]? = some f ∧ resp = .fileContentsResponse 1 streamId
            (((disk f.path).drop offset.toNat).take length.toNat) := by
  have hall := h.inv_trace (I := ListOk disk) hclip fun clip ev hok hlist => hlist.next hok
  rintro ⟨clip, ev⟩ hp r env request rfl hdecode
  have hok := h _ hp
  have hlist : ListOk disk clip := hall _ hp
  have hserve := (hlist.serveFileContents env r.connId request).2
    (hok.nextOpens r env request rfl hdecode)
  refine ⟨hserve, ?_⟩
  rintro streamId fileIdx offset length resp rfl hresp
  rw [hserve] at hresp
  exact (hlist.respondRange env.read r.connId streamId fileIdx offset length).2 resp hresp
    (hok.inStep r env _ rfl hdecode)

/-! ### The two failures -/

def sampleDisk (path : String) : Bytes := if path = "a" then [1, 2, 3] else []

def sampleClip : ClipFiles := ⟨["a", "b"], [⟨"a", none, 0, 3, false⟩, ⟨"b", none, 0, 0, false⟩], 0⟩

def sampleRequest : Request := ⟨1, 0, 0, 2, 0, 0, 2⟩

theorem responses_exact_sample :
    ((sampleClip.serveFileContents sampleDisk .good 1 (.range 0 0 0 2)).2 =
      (sampleClip.respond sampleDisk .good 1 (.range 0 0 0 2)).2) := by
  have hlist : ListOk sampleDisk sampleClip := by
    intro f hf
    simp only [sampleClip, List.mem_cons, List.not_mem_nil, or_false] at hf
    rcases hf with rfl | rfl
    · exact ⟨fun hd => (by cases hd), fun _ => rfl, fun _ => rfl⟩
    · exact ⟨fun hd => (by cases hd), fun _ => rfl, fun _ => rfl⟩
  have hdecode : sampleRequest.decode = .ok (.range 0 0 0 2) := by decide +kernel
  have hrun : (clipServer sampleDisk).Meets (StepOk sampleDisk) sampleClip
      [.request sampleRequest .good] := by
    simp only [Machine.meets_cons, Machine.meets_nil, and_true]
    refine ⟨fun _ _ hev => (by cases hev), ?_, ?_⟩
    · rintro r env request hev hrequest
      obtain ⟨rfl, rfl⟩ := Event.request.inj hev
      obtain rfl := Except.ok.inj (hdecode.symm.trans hrequest)
      rintro ⟨f, hf, ⟨pos, hpos, -⟩, -⟩
      obtain rfl := Option.some.inj hf
      cases hpos
    · rintro r env request hev - f - -
      obtain ⟨rfl, rfl⟩ := Event.request.inj hev
      exact ⟨rfl, rfl⟩
  exact (responses_exact hlist hrun (sampleClip, .request sampleRequest .good)
    List.mem_cons_self sampleRequest .good _ rfl hdecode).1

/-- **A failed read shifts the next one, and a file fails the request for another.** After an error
at its second byte, the same range is answered from the second byte on. And the request for the
first file fails as the second one cannot be opened. -/
theorem failed_read_shifts :
    (((clipServer sampleDisk).outputs sampleClip
        [.request sampleRequest { ServeEnv.good with
          read := { ReadEnv.good with fault := some ("Input/output error (os error 5)", 1) } },
        .request sampleRequest .good]).getLast? =
      some (.ok (.fileContentsResponse 1 0 [2, 3]))) ∧
    (clipServer sampleDisk).outputs sampleClip
        [.request sampleRequest { ServeEnv.good with
          isFile := fun _ => false
          next := ⟨.error "Permission denied (os error 13)", .ok ()⟩ }] =
      [.error (.fileError "b" "Permission denied (os error 13)")] ∧
    (sampleClip.respond sampleDisk .good 1 (.range 0 0 0 2)).2 =
      some (.ok (.fileContentsResponse 1 0 [1, 2])) := by
  refine ⟨?_, ?_, ?_⟩ <;> decide +kernel

end LibRustdesk.Clipboard
