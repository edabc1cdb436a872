import LibRustdesk.Clipboard.Serving

/-!
# Requests that are answered

`serve_file_contents` answers a request with success, or with one of its errors. `Answers` is the
condition on the list, the request and the outcomes of the calls under which it is a success: the
file is of the list, the range lies in it and can be read, and the next file can be opened, too.

* `readExactAt_ok_iff`, `loadFirst_ok_iff` — a read, and the file that is opened ahead.
* `serveFileContents_ok_iff` — **`Answers` is exact**.
-/

namespace LibRustdesk.Clipboard

def Opens (env : LoadEnv) (f : LocalFile) : Prop :=
  f.handle.isSome = true ∨ env.openFile = .ok () ∧ env.fillBuf = .ok ()

def readSize (f : LocalFile) (offset length : UInt64) : ℕ :=
  (if offset + length > f.size then f.size - offset else length).toNat

/-- The range lies in the file and on the disk, and no call fails. -/
def Reads (disk : String → Bytes) (env : ReadEnv) (f : LocalFile) (offset length : UInt64) : Prop :=
  offset ≤ f.size ∧ readSize f offset length < 2 ^ 63 ∧ (f.isDir = true → f.handle.isSome = true) ∧
    Opens env.load f ∧ (offset ≠ f.offset → env.seek = .ok ()) ∧ env.fault = none ∧
      (readSize f offset length = 0 ∨
        (if offset ≠ f.offset then offset.toNat else f.handle.getD 0) +
        readSize f offset length ≤ (disk f.path).length)

/-- The request is for a file of the list, for its size or for a range that can be read, and the
next file can be opened. -/
def Answers (disk : String → Bytes) (env : ServeEnv) (clip : ClipFiles)
    (request : FileContentsRequest) : Prop :=
  (∃ f, clip.fileList[request.fileIdx]? = some f ∧
    match request with
    | .size _ _ => True
    | .range _ _ offset length => Reads disk env.read f offset length) ∧
  ∀ f, (clip.fileList.drop (request.fileIdx + 1)).find? (fun f => !f.isDir) = some f →
    Opens env.next f

/-! ### Reading -/

theorem loadHandle_ok_iff (env : LoadEnv) (f : LocalFile) :
    (f.loadHandle env).2 = .ok () ↔ (f.isDir = false → Opens env f) := by
  unfold LocalFile.loadHandle Opens
  cases hdir : f.isDir with
  | true => simp
  | false =>
    cases hhandle : f.handle with
    | some pos => simp
    | none => cases env.openFile <;> cases env.fillBuf <;> simp

theorem exists_ok_iff {ε α : Type} (x : Except ε α) :
    (∃ a, x = .ok a) ↔ x.toOption.isSome = true := by
  cases x <;> simp [Except.toOption]

theorem readExact_ok_iff (fault : Option (String × ℕ)) (data : Bytes) (pos n : ℕ) :
    (readExact fault data pos n).2.toOption.isSome = true ↔
      fault = none ∧ (n = 0 ∨ pos + n ≤ data.length) := by
  unfold readExact
  cases fault with
  | some fault => simp [Except.toOption]
  | none =>
    by_cases hfits : n = 0 ∨ pos + n ≤ data.length
    · rw [if_pos hfits]
      simp [hfits, Except.toOption]
    · rw [if_neg hfits]
      simp [hfits, Except.toOption]

variable {disk : String → Bytes} {env : ReadEnv}

theorem toOption_readExactAt {f f₁ : LocalFile}
    {n pos : ℕ} {offset : UInt64} (hload : f.loadHandle env.load = (f₁, .ok ()))
    (hpos : f₁.handle = some pos) : (f.readExactAt disk env n offset).2.toOption =
      (if offset ≠ f₁.offset then env.seek.map fun _ => offset.toNat else .ok pos).toOption.bind
        fun pos => (readExact env.fault (disk f₁.path) pos n).2.toOption := by
  unfold LocalFile.readExactAt
  rw [hload]
  dsimp only
  rw [hpos]
  dsimp only
  generalize (if offset ≠ f₁.offset then env.seek.map fun _ => offset.toNat
    else Except.ok pos) = sought
  cases sought with
  | error e => rfl
  | ok pos =>
    change _ = (readExact env.fault (disk f₁.path) pos n).2.toOption
    dsimp only
    rcases readExact env.fault (disk f₁.path) pos n with ⟨pos', e | buf⟩
    · rfl
    · dsimp only
      split <;> rfl

theorem readExactAt_loaded {f f₁ : LocalFile} {n pos : ℕ} {offset : UInt64}
    (hload : f.loadHandle env.load = (f₁, .ok ())) (hpos : f₁.handle = some pos) :
    (∃ buf, (f.readExactAt disk env n offset).2 = .ok buf) ↔
    (offset ≠ f₁.offset → env.seek = .ok ()) ∧ env.fault = none ∧
    (n = 0 ∨ (if offset ≠ f₁.offset then offset.toNat else pos) + n ≤ (disk f₁.path).length) := by
  rw [exists_ok_iff, toOption_readExactAt hload hpos]
  by_cases hsame : offset ≠ f₁.offset
  · rw [if_pos hsame, if_pos hsame]
    cases hseek : env.seek with
    | error e =>
      refine iff_of_false Bool.false_ne_true fun h => ?_
      cases h.1 hsame
    | ok u =>
      refine (readExact_ok_iff env.fault (disk f₁.path) offset.toNat n).trans ?_
      exact ⟨fun h => ⟨fun _ => rfl, h⟩, fun h => h.2⟩
  · rw [if_neg hsame, if_neg hsame]
    refine (readExact_ok_iff env.fault (disk f₁.path) pos n).trans ?_
    exact ⟨fun h => ⟨fun hne => absurd hne hsame, h⟩, fun h => h.2⟩

theorem readExactAt_ok_iff (disk : String → Bytes) (env : ReadEnv) (f : LocalFile) (n : ℕ)
    (offset : UInt64) : (∃ buf, (f.readExactAt disk env n offset).2 = .ok buf) ↔
      (f.isDir = true → f.handle.isSome = true) ∧ Opens env.load f ∧
        (offset ≠ f.offset → env.seek = .ok ()) ∧ env.fault = none ∧
          (n = 0 ∨ (if offset ≠ f.offset then offset.toNat else f.handle.getD 0) + n ≤
            (disk f.path).length) := by
  cases hhandle : f.handle with
  | some pos =>
    -- the file is open
    have hload : f.loadHandle env.load = (f, .ok ()) := by
      unfold LocalFile.loadHandle
      rw [if_neg (by simp [hhandle])]
    rw [readExactAt_loaded hload hhandle]
    exact ⟨fun h => ⟨fun _ => rfl, .inl (by rw [hhandle]; rfl), h⟩, fun h => h.2.2⟩
  | none =>
    cases hdir : f.isDir with
    | true =>
      refine iff_of_false ?_ fun h => Bool.noConfusion (h.1 rfl)
      have hload : f.loadHandle env.load = (f, .ok ()) := by
        unfold LocalFile.loadHandle
        rw [if_neg (by simp [hdir])]
      unfold LocalFile.readExactAt
      rw [hload]
      dsimp only
      rw [hhandle]
      rintro ⟨buf, h⟩
      cases h
    | false =>
      by_cases hopens : Opens env.load f
      · have hcalls : env.load.openFile = .ok () ∧ env.load.fillBuf = .ok () :=
          hopens.resolve_left (by rw [hhandle]; exact Bool.false_ne_true)
        have hload : f.loadHandle env.load = ({ f with handle := some 0 }, .ok ()) := by
          unfold LocalFile.loadHandle
          rw [if_pos (by simp [hdir, hhandle]), hcalls.1, hcalls.2]
        rw [readExactAt_loaded hload rfl]
        exact ⟨fun h => ⟨nofun, hopens, h⟩, fun h => h.2.2⟩
      · -- the error of `load_handle` is that of the read
        refine iff_of_false ?_ fun h => hopens h.2.1
        have hfails : (f.loadHandle env.load).2 ≠ .ok () := fun h =>
          hopens ((loadHandle_ok_iff env.load f).mp h hdir)
        unfold LocalFile.readExactAt
        rcases hload : f.loadHandle env.load with ⟨f₁, e | u⟩
        · rintro ⟨buf, h⟩
          cases h
        · rw [hload] at hfails
          exact absurd rfl hfails

theorem loadFirst_ok_iff (env : LoadEnv) (l : List LocalFile) :
    (ClipFiles.loadFirst env l).2 = .ok () ↔
      ∀ f, l.find? (fun f => !f.isDir) = some f → Opens env f := by
  induction l with
  | nil => simp [ClipFiles.loadFirst]
  | cons f l ih =>
    unfold ClipFiles.loadFirst
    cases hdir : f.isDir with
    | true =>
      rw [List.find?_cons_of_neg (by simp [hdir])]
      exact ih
    | false =>
      rw [List.find?_cons_of_pos (by simp [hdir])]
      refine (loadHandle_ok_iff env f).trans ⟨fun h f' hf' => ?_, fun h _ => h f rfl⟩
      obtain rfl : f = f' := Option.some.inj hf'
      exact h hdir

/-! ### Responses -/

variable {request : FileContentsRequest}

theorem respond_ok {clip : ClipFiles} {connId : Int32} {resp : ClipboardFile}
    (h : (clip.respond disk env connId request).2 = some (.ok resp)) : ∃ streamId data, resp =
    .fileContentsResponse 1 streamId data := by
  cases request with
  | size streamId fileIdx =>
    unfold ClipFiles.respond at h
    dsimp only at h
    split at h
    · cases h
    · exact ⟨_, _, (Except.ok.inj (Option.some.inj h)).symm⟩
  | range streamId fileIdx offset length =>
    change (clip.respondRange disk env connId streamId fileIdx offset length).2 = _ at h
    unfold ClipFiles.respondRange at h
    split at h
    · cases h
    · split at h
      · cases h
      · dsimp only at h
        generalize (if offset + length > _ then _ - offset else length) = readSize at h
        split at h
        · cases h
        · generalize LocalFile.readExactAt disk env _ readSize.toNat offset = read at h
          obtain ⟨file, read⟩ := read
          cases read with
          | error e => cases h
          | ok buf => exact ⟨_, _, (Except.ok.inj (Option.some.inj h)).symm⟩

theorem serveFileContents_ok {env : ServeEnv} {clip : ClipFiles} {connId : Int32}
    {resp : ClipboardFile}
    (h : (clip.serveFileContents disk env connId request).2 = some (.ok resp)) : ∃ streamId data,
    resp = .fileContentsResponse 1 streamId data := by
  unfold ClipFiles.serveFileContents at h
  split at h
  · next clip' resp' hresp =>
    have hresp' : (clip.respond disk env.read connId request).2 = some (.ok resp') := by
      rw [hresp]
    dsimp only at h
    cases hload : (ClipFiles.loadFirst env.next (clip'.fileList.drop (request.fileIdx + 1))).2 with
    | error e =>
      rw [hload] at h
      cases h
    | ok u =>
      rw [hload] at h
      have heq : resp' = resp := Except.ok.inj (Option.some.inj h)
      subst heq
      exact respond_ok hresp'
  · next clip' res hnot hrespond =>
    -- there was no response to begin with
    exact absurd h (hnot resp)

theorem respond_ok_iff (disk : String → Bytes) (env : ReadEnv) (clip : ClipFiles) (connId : Int32)
    (request : FileContentsRequest) :
    (∃ resp, (clip.respond disk env connId request).2 = some (.ok resp)) ↔
      ∃ f, clip.fileList[request.fileIdx]? = some f ∧
        match request with
        | .size _ _ => True
        | .range _ _ offset length => Reads disk env f offset length := by
  cases request with
  | size streamId fileIdx =>
    unfold ClipFiles.respond FileContentsRequest.fileIdx
    dsimp only
    cases clip.fileList[fileIdx]? <;> simp
  | range streamId fileIdx offset length =>
    change (∃ resp, (clip.respondRange disk env connId streamId fileIdx offset length).2 = _) ↔ _
    unfold ClipFiles.respondRange FileContentsRequest.fileIdx
    cases clip.fileList[fileIdx]? with
    | none => simp
    | some f =>
      simp only [Option.some.injEq, exists_eq_left']
      unfold Reads
      by_cases hoffset : offset > f.size
      · rw [if_pos hoffset]
        simp [UInt64.not_le.mpr hoffset]
      · rw [if_neg hoffset, ← readSize]
        by_cases hsize : readSize f offset length ≥ 2 ^ 63
        · -- the process ends
          rw [if_pos hsize]
          exact iff_of_false (fun ⟨resp, h⟩ => by cases h)
            fun h => absurd h.2.1 (Nat.not_lt.mpr hsize)
        · rw [if_neg hsize, ← readExactAt_ok_iff]
          rcases f.readExactAt disk env (readSize f offset length) offset with ⟨f', e | buf⟩
          · simp [Except.map]
          · refine iff_of_true ⟨_, rfl⟩ ⟨?_, Nat.not_le.mp hsize, buf, rfl⟩
            exact UInt64.not_lt.mp hoffset

theorem serveFileContents_ok_iff (disk : String → Bytes) (env : ServeEnv) (clip : ClipFiles)
    (connId : Int32) (request : FileContentsRequest) :
    (∃ resp, (clip.serveFileContents disk env connId request).2 = some (.ok resp)) ↔
      Answers disk env clip request := by
  unfold Answers
  rw [← respond_ok_iff disk env.read clip connId request]
  have hrest : (clip.respond disk env.read connId request).1.fileList.drop
      (request.fileIdx + 1) = clip.fileList.drop (request.fileIdx + 1) :=
    drop_respond env.read connId request
  unfold ClipFiles.serveFileContents
  split
  · next clip' resp hrespond =>
    rw [hrespond] at hrest ⊢
    dsimp only at hrest ⊢
    rw [← hrest, ← loadFirst_ok_iff]
    rcases ClipFiles.loadFirst env.next (clip'.fileList.drop (request.fileIdx + 1)) with
      ⟨rest, e | u⟩
    · simp [Except.map]
    · simp [Except.map]
  · next clip' res hnot hrespond =>
    refine iff_of_false (fun ⟨resp, h⟩ => hnot resp h) fun ⟨⟨resp, h⟩, _⟩ => ?_
    rw [hrespond] at h
    exact hnot resp h

end LibRustdesk.Clipboard
