import LibRustdesk.Framework.Machine
import LibRustdesk.Framework.Table

/-!
# The upload of recordings

`RecordUploader` of `src/hbbs_http/record_upload.rs`. The recorder appends to a file and rewrites
its header. The uploader sends what it finds beyond `upload_size`, and the header at the end.

* `Grows` — what the recorder may do to a file.
* `Covers` — the parts reach `upload_size` at least and the length of the file at most, and beyond
  the header they are as the file is. A part may be longer than the length that was asked for, as
  the file grows up to the read. The next one then writes some of it again.
* `Inv.handleTail` — after the flush the parts are as long as the file, and the tail mends the
  header.
* `uploaded` — **what was uploaded of a file is the file** once its tail was, if nothing failed, and
  **nothing is sent after a failure** until the next file.

A read of a file reads all there is. Files that cannot be opened or read are part of `Reply`.
-/

namespace LibRustdesk.RecordUpload

def maxHeaderLen : ℕ := 1024

def shouldSendSize : ℕ := 1024 * 1024

inductive Change
  | append (path : String) (bytes : List UInt8)
  | rewriteHeader (path : String) (header : List UInt8)

inductive Upload
  | new (file : String)
  | part (file : String) (offset : ℕ) (body : List UInt8)
  | tail (file : String) (body : List UInt8)
  | remove (file : String)
  deriving DecidableEq

/-- The bytes of a file from `offset` on. -/
def writeAt (file : List UInt8) (offset : ℕ) (body : List UInt8) : List UInt8 :=
  file.take offset ++ List.replicate (offset - file.length) 0 ++ body ++
    file.drop (offset + body.length)

def Upload.write (file : List UInt8) : Upload → List UInt8
  | .part _ offset body => writeAt file offset body
  | .tail _ body => writeAt file 0 body
  | .new _ | .remove _ => file

inductive Out
  | sent (upload : Upload)
  /-- The log line of an error, which stops the upload. -/
  | stop
  deriving DecidableEq

def Out.write (file : List UInt8) : Out → List UInt8
  | .sent upload => upload.write file
  | .stop => file

def written (file : List UInt8) (outs : List Out) : List UInt8 := outs.foldl Out.write file

inductive Reply
  /-- The file could not be opened or read. -/
  | unread
  | rejected
  | accepted
  deriving DecidableEq

structure State where
  files : Table String (List UInt8) := Table.empty
  filepath : String := ""
  filename : String := ""
  uploadSize : ℕ := 0
  running : Bool := false

inductive Event
  | change (change : Change)
  | newFile (filepath : String) (accepted : Bool)
  /-- `elapsed`: the last part was sent a second ago. The changes are those between the query of the
  length and the read. -/
  | newFrame (elapsed : Bool) (changes : List Change) (reply : Reply)
  | writeTail (changes : List Change) (reply tailReply : Reply)
  | removeFile (accepted : Bool)

def Event.IsNewFile : Event → Prop
  | .newFile _ _ => True
  | _ => False

namespace State

variable (s : State)

def overwrite (header file : List UInt8) : List UInt8 :=
  header.take (min maxHeaderLen file.length) ++
    file.drop (header.take (min maxHeaderLen file.length)).length

def change : Change → State
  | .append path bytes =>
    { s with files := s.files.insert path ((s.files path).getD [] ++ bytes) }
  | .rewriteHeader path header =>
    { s with files := Function.update s.files path ((s.files path).map (overwrite header)) }

def changes (cs : List Change) : State := cs.foldl change s

def file : List UInt8 := (s.files s.filepath).getD []

def opened (reply : Reply) : Option (List UInt8) :=
  if reply = .unread then none else s.files s.filepath

/-- A handler's state and uploads, and whether it succeeded. -/
abbrev Handled := State × List Upload × Bool

def handleNewFile (fileName : String → Option String) (filepath : String) (accepted : Bool) :
    Handled :=
  match fileName filepath with
  | some filename =>
    ({ s with filename, filepath, uploadSize := 0, running := true }, [.new filename],
      accepted)
  | none => (s, [], false)

def handleFrame (flush elapsed : Bool) (cs : List Change) (reply : Reply) : Handled :=
  if !flush && !elapsed then (s, [], true)
  else
    match s.opened reply with
    | none => (s, [], false)
    | some file =>
      if file.length ≤ s.uploadSize then (s, [], true)
      else if !flush && file.length - s.uploadSize < shouldSendSize then (s, [], true)
      else
        ({ s.changes cs with
            uploadSize := if reply = .accepted then file.length else s.uploadSize },
          [.part s.filename s.uploadSize ((s.changes cs).file.drop s.uploadSize)],
          reply = .accepted)

def handleTail (cs : List Change) (reply tailReply : Reply) : Handled :=
  match s.handleFrame true true cs reply with
  | (s', uploads, false) => (s', uploads, false)
  | (s', uploads, true) =>
    match s'.opened tailReply with
    | none => (s', uploads, false)
    | some file =>
      (s', uploads ++ [.tail s'.filename (file.take maxHeaderLen)], tailReply = .accepted)

def handleRemove (accepted : Bool) : Handled := (s, [.remove s.filename], accepted)

def conclude (handled : Handled) : State × List Out :=
  if handled.2.2 then (handled.1, handled.2.1.map .sent)
  else ({ handled.1 with running := false }, handled.2.1.map .sent ++ [.stop])

end State

/-- `run`. `file_name` is that of the standard library. -/
def machine (fileName : String → Option String) : Machine State Event Out where
  step s
    | .change c => (s.change c, [])
    | .newFile filepath accepted => State.conclude (s.handleNewFile fileName filepath accepted)
    | .newFrame elapsed cs reply =>
      if s.running then State.conclude (s.handleFrame false elapsed cs reply) else (s, [])
    | .writeTail cs reply tailReply =>
      if s.running then State.conclude (s.handleTail cs reply tailReply) else (s, [])
    | .removeFile accepted =>
      if s.running then State.conclude (s.handleRemove accepted) else (s, [])

/-! ### Files that grow -/

structure Grows (file file' : List UInt8) : Prop where
  length : file.length ≤ file'.length
  beyond : ∀ i, maxHeaderLen ≤ i → i < file.length → file'[i]? = file[i]?

theorem Grows.refl (file : List UInt8) : Grows file file := ⟨Nat.le_refl _, fun _ _ _ => rfl⟩

theorem Grows.trans {a b c : List UInt8} (h : Grows a b) (h' : Grows b c) : Grows a c where
  length := Nat.le_trans h.length h'.length
  beyond i hi hlt :=
    (h'.beyond i hi (Nat.lt_of_lt_of_le hlt h.length)).trans (h.beyond i hi hlt)

theorem grows_append (file bytes : List UInt8) : Grows file (file ++ bytes) where
  length := by
    rw [List.length_append]
    exact Nat.le_add_right _ _
  beyond _ _ hlt := List.getElem?_append_left hlt

theorem grows_overwrite (header file : List UInt8) : Grows file (State.overwrite header file) := by
  have hlen : (header.take (min maxHeaderLen file.length)).length ≤ min maxHeaderLen file.length :=
    List.length_take_le _ _
  unfold State.overwrite
  generalize header.take (min maxHeaderLen file.length) = header at hlen ⊢
  refine ⟨?_, fun i hi _ => ?_⟩
  · rw [List.length_append, List.length_drop]
    omega
  · rw [List.getElem?_append_right (by omega), List.getElem?_drop]
    congr 1
    omega

variable {s : State}

theorem change_spec (s : State) (c : Change) : (s.change c).filepath = s.filepath ∧
    (s.change c).filename = s.filename ∧ (s.change c).uploadSize = s.uploadSize ∧
      (s.change c).running = s.running ∧ Grows s.file (s.change c).file := by
  cases c with
  | append path bytes =>
    refine ⟨rfl, rfl, rfl, rfl, ?_⟩
    show Grows s.file ((s.files.insert path _ s.filepath).getD [])
    rw [Table.insert_apply]
    split
    · next heq =>
      rw [← heq]
      exact grows_append _ _
    · exact Grows.refl _
  | rewriteHeader path header =>
    refine ⟨rfl, rfl, rfl, rfl, ?_⟩
    show Grows s.file ((Function.update s.files path _ s.filepath).getD [])
    rw [Function.update_apply]
    split
    · next heq =>
      unfold State.file
      rw [heq]
      cases s.files path with
      | none => exact Grows.refl _
      | some file => exact grows_overwrite header file
    · exact Grows.refl _

theorem changes_spec (s : State) (cs : List Change) : (s.changes cs).filepath = s.filepath ∧
    (s.changes cs).filename = s.filename ∧ (s.changes cs).uploadSize = s.uploadSize ∧
      (s.changes cs).running = s.running ∧ Grows s.file (s.changes cs).file := by
  induction cs generalizing s with
  | nil => exact ⟨rfl, rfl, rfl, rfl, Grows.refl _⟩
  | cons c cs ih =>
    obtain ⟨hpath, hname, hsize, hrunning, hgrows⟩ := change_spec s c
    obtain ⟨hpath', hname', hsize', hrunning', hgrows'⟩ := ih (s.change c)
    exact ⟨hpath'.trans hpath, hname'.trans hname, hsize'.trans hsize, hrunning'.trans hrunning,
      hgrows.trans hgrows'⟩

/-! ### What the parts cover -/

structure Covers (remote : List UInt8) (s : State) : Prop where
  size : s.uploadSize ≤ remote.length
  grows : Grows remote s.file

theorem grows_part {remote file : List UInt8} {offset : ℕ} (hoffset : offset ≤ remote.length)
    (h : Grows remote file) : (writeAt remote offset (file.drop offset)).length = file.length ∧
      Grows (writeAt remote offset (file.drop offset)) file := by
  have hlen := h.length
  have hwrite : writeAt remote offset (file.drop offset) =
      remote.take offset ++ file.drop offset := by
    have hrest : remote.drop (offset + (file.drop offset).length) = [] := by
      rw [List.length_drop]
      exact List.drop_eq_nil_of_le (by omega)
    unfold writeAt
    rw [hrest, Nat.sub_eq_zero_of_le hoffset, List.replicate_zero, List.append_nil,
      List.append_nil]
  have htake : (remote.take offset).length = offset := List.length_take_of_le hoffset
  have hlength : (remote.take offset ++ file.drop offset).length = file.length := by
    rw [List.length_append, htake, List.length_drop]
    omega
  rw [hwrite]
  refine ⟨hlength, Nat.le_of_eq hlength, fun i hi _ => ?_⟩
  by_cases hlt : i < offset
  · rw [List.getElem?_append_left (by omega), List.getElem?_take_of_lt hlt]
    exact h.beyond i hi (by omega)
  · rw [List.getElem?_append_right (by omega), htake, List.getElem?_drop]
    congr 1
    omega

theorem writeAt_header {remote file : List UInt8} (h : Grows remote file)
    (hlength : remote.length = file.length) :
    writeAt remote 0 (file.take maxHeaderLen) = file := by
  have hwrite : writeAt remote 0 (file.take maxHeaderLen) =
      file.take maxHeaderLen ++ remote.drop maxHeaderLen := by
    unfold writeAt
    rw [List.take_zero, Nat.zero_sub, List.replicate_zero, List.nil_append, List.nil_append,
      Nat.zero_add, List.length_take]
    congr 1
    by_cases hle : maxHeaderLen ≤ file.length
    · rw [Nat.min_eq_left hle]
    · rw [List.drop_eq_nil_of_le (by omega), List.drop_eq_nil_of_le (by omega)]
  have hdrop : remote.drop maxHeaderLen = file.drop maxHeaderLen := by
    refine List.ext_getElem? fun i => ?_
    rw [List.getElem?_drop, List.getElem?_drop]
    by_cases hlt : maxHeaderLen + i < remote.length
    · exact (h.beyond _ (Nat.le_add_right _ _) hlt).symm
    · rw [List.getElem?_eq_none (by omega), List.getElem?_eq_none (by omega)]
  rw [hwrite, hdrop, List.take_append_drop]

/-! ### The handlers -/

section Handlers

variable {s' : State} {remote : List UInt8} {uploads : List Upload}

theorem opened_eq_some {reply : Reply} {file : List UInt8} (h : s.opened reply = some file) :
    s.files s.filepath = some file ∧ s.file = file := by
  unfold State.opened at h
  split at h
  · cases h
  · unfold State.file
    rw [h]
    exact ⟨rfl, rfl⟩

theorem handleFrame_spec (h : Covers remote s) {flush elapsed : Bool} {cs : List Change}
    {reply : Reply} (hr : s.handleFrame flush elapsed cs reply = (s', uploads, true)) :
    s'.running = s.running ∧ s'.filepath = s.filepath ∧
      Covers (written remote (uploads.map .sent)) s' ∧
      (flush = true → (written remote (uploads.map .sent)).length = s'.file.length) := by
  unfold State.handleFrame at hr
  split at hr
  · next hskip =>
    cases hr
    refine ⟨rfl, rfl, h, fun hflush => ?_⟩
    rw [hflush] at hskip
    cases hskip
  split at hr
  · cases hr
  next file hfile =>
  obtain ⟨-, rfl⟩ := opened_eq_some hfile
  split at hr
  · next hle =>
    cases hr
    exact ⟨rfl, rfl, h, fun _ => Nat.le_antisymm h.grows.length (Nat.le_trans hle h.size)⟩
  split at hr
  · next hsmall =>
    cases hr
    refine ⟨rfl, rfl, h, fun hflush => ?_⟩
    rw [hflush] at hsmall
    cases hsmall
  · simp only [Prod.mk.injEq, decide_eq_true_eq] at hr
    obtain ⟨rfl, rfl, rfl⟩ := hr
    obtain ⟨hpath, -, -, hrunning, hgrows⟩ := changes_spec s cs
    -- the part goes up to the end of the file as it is read
    obtain ⟨hlength, hpart⟩ := grows_part h.size (h.grows.trans hgrows)
    refine ⟨hrunning, hpath, ⟨?_, hpart⟩, fun _ => hlength⟩
    show (if Reply.accepted = .accepted then s.file.length else s.uploadSize) ≤
      (writeAt remote s.uploadSize ((s.changes cs).file.drop s.uploadSize)).length
    rw [if_pos rfl, hlength]
    exact hgrows.length

theorem handleTail_spec (h : Covers remote s) {cs : List Change} {reply tailReply : Reply}
    (hr : s.handleTail cs reply tailReply = (s', uploads, true)) :
    s'.running = s.running ∧ s'.filepath = s.filepath ∧
      s'.files s'.filepath = some (written remote (uploads.map .sent)) ∧
      Covers (written remote (uploads.map .sent)) s' := by
  unfold State.handleTail at hr
  split at hr
  · cases hr
  next flushed parts hframe =>
  obtain ⟨hrunning, hpath, hcovers, hlength⟩ := handleFrame_spec h hframe
  split at hr
  · cases hr
  next file hfile =>
  obtain ⟨hfiles, rfl⟩ := opened_eq_some hfile
  simp only [Prod.mk.injEq] at hr
  obtain ⟨rfl, rfl, -⟩ := hr
  have hwritten : written remote
      ((parts ++ [Upload.tail flushed.filename (flushed.file.take maxHeaderLen)]).map .sent) =
        flushed.file := by
    unfold written
    rw [List.map_append, List.foldl_append]
    exact writeAt_header hcovers.grows (hlength rfl)
  rw [hwritten]
  exact ⟨hrunning, hpath, hfiles,
    ⟨Nat.le_trans hcovers.size hcovers.grows.length, Grows.refl _⟩⟩

theorem conclude_of_not_stop {handled : State.Handled} (h : .stop ∉ (State.conclude handled).2) :
    handled.2.2 = true ∧ State.conclude handled = (handled.1, handled.2.1.map .sent) := by
  unfold State.conclude at h ⊢
  by_cases hok : handled.2.2 = true
  · exact ⟨hok, if_pos hok⟩
  · rw [if_neg hok] at h
    exact absurd (List.mem_append_right _ List.mem_cons_self) h

end Handlers

/-! ### Runs -/

section Run

variable {fileName : String → Option String} {remote : List UInt8}

theorem next_spec (h : Covers remote s) (hrunning : s.running = true) {e : Event}
    (he : ¬ e.IsNewFile) (hstop : .stop ∉ (machine fileName).out s e) :
    ((machine fileName).next s e).running = true ∧
      ((machine fileName).next s e).filepath = s.filepath ∧
        Covers (written remote ((machine fileName).out s e)) ((machine fileName).next s e) := by
  unfold Machine.next Machine.out at *
  cases e with
  | newFile filepath accepted => exact absurd trivial he
  | change c =>
    obtain ⟨hpath, -, hsize, hrun, hgrows⟩ := change_spec s c
    exact ⟨hrun.trans hrunning, hpath, hsize.symm ▸ h.size, h.grows.trans hgrows⟩
  | newFrame elapsed cs reply =>
    dsimp only [machine] at hstop ⊢
    rw [if_pos hrunning] at hstop ⊢
    obtain ⟨hok, heq⟩ := conclude_of_not_stop hstop
    rw [heq]
    obtain ⟨hrun, hpath, hcovers, -⟩ := handleFrame_spec h (Prod.ext rfl (Prod.ext rfl hok))
    exact ⟨hrun.trans hrunning, hpath, hcovers⟩
  | writeTail cs reply tailReply =>
    dsimp only [machine] at hstop ⊢
    rw [if_pos hrunning] at hstop ⊢
    obtain ⟨hok, heq⟩ := conclude_of_not_stop hstop
    rw [heq]
    obtain ⟨hrun, hpath, -, hcovers⟩ := handleTail_spec h (Prod.ext rfl (Prod.ext rfl hok))
    exact ⟨hrun.trans hrunning, hpath, hcovers⟩
  | removeFile accepted =>
    dsimp only [machine] at hstop ⊢
    rw [if_pos hrunning] at hstop ⊢
    obtain ⟨-, heq⟩ := conclude_of_not_stop hstop
    rw [heq]
    exact ⟨hrunning, rfl, h⟩

theorem run_spec (h : Covers remote s) (hrunning : s.running = true) {es : List Event}
    (hes : ∀ e ∈ es, ¬ e.IsNewFile) {cs : List Change} {reply tailReply : Reply}
    (hstop : .stop ∉ (machine fileName).outputs s (es ++ [.writeTail cs reply tailReply])) :
    ((machine fileName).run s (es ++ [.writeTail cs reply tailReply])).files s.filepath =
      some (written remote
        ((machine fileName).outputs s (es ++ [.writeTail cs reply tailReply]))) := by
  induction es generalizing s remote with
  | nil =>
    rw [List.nil_append, Machine.outputs_cons, Machine.outputs_nil, List.append_nil] at hstop ⊢
    rw [Machine.run_cons, Machine.run_nil]
    unfold Machine.next Machine.out at *
    dsimp only [machine] at hstop ⊢
    rw [if_pos hrunning] at hstop ⊢
    obtain ⟨hok, heq⟩ := conclude_of_not_stop hstop
    rw [heq]
    obtain ⟨-, hpath, hfile, -⟩ := handleTail_spec h (Prod.ext rfl (Prod.ext rfl hok))
    rw [← hpath]
    exact hfile
  | cons e es ih =>
    rw [List.cons_append, Machine.outputs_cons, List.mem_append, not_or] at hstop
    obtain ⟨he, hes⟩ := List.forall_mem_cons.mp hes
    obtain ⟨hrun, hpath, hcovers⟩ := next_spec h hrunning he hstop.1
    have hrest := ih hcovers hrun hes hstop.2
    rw [hpath] at hrest
    rw [List.cons_append, Machine.run_cons, Machine.outputs_cons, hrest]
    unfold written
    rw [List.foldl_append]

theorem outputs_of_not_running (hrunning : s.running = false) {es : List Event}
    (hes : ∀ e ∈ es, ¬ e.IsNewFile) : (machine fileName).outputs s es = [] := by
  induction es generalizing s with
  | nil => rfl
  | cons e es ih =>
    obtain ⟨he, hes⟩ := List.forall_mem_cons.mp hes
    have hnext : ((machine fileName).next s e).running = false ∧
        (machine fileName).out s e = [] := by
      unfold Machine.next Machine.out
      cases e with
      | newFile filepath accepted => exact absurd trivial he
      | change c => exact ⟨(change_spec s c).2.2.2.1.trans hrunning, rfl⟩
      | newFrame | writeTail | removeFile =>
        dsimp only [machine]
        rw [hrunning]
        exact ⟨hrunning, rfl⟩
    rw [Machine.outputs_cons, hnext.2, ih hnext.1 hes, List.append_nil]

theorem running_of_stop {handled : State.Handled} (h : .stop ∈ (State.conclude handled).2) :
    (State.conclude handled).1.running = false := by
  unfold State.conclude at h ⊢
  split at h
  · obtain ⟨upload, -, heq⟩ := List.mem_map.mp h
    cases heq
  · next hok => rw [if_neg hok]

theorem next_of_stop {e : Event} (h : .stop ∈ (machine fileName).out s e) :
    ((machine fileName).next s e).running = false := by
  unfold Machine.next Machine.out at *
  cases e with
  | change c => cases h
  | newFile filepath accepted => exact running_of_stop h
  | newFrame | writeTail | removeFile =>
    dsimp only [machine] at h ⊢
    split at h
    · next hrunning =>
      rw [if_pos hrunning]
      exact running_of_stop h
    · cases h

/-- **What was uploaded of a file is the file** when its tail was, if nothing failed since the file
began. **Nothing is sent after a failure** until a file begins. -/
theorem uploaded (fileName : String → Option String) (s : State) :
    (∀ filepath accepted es cs reply tailReply, (∀ e ∈ es, ¬ Event.IsNewFile e) →
      .stop ∉ (machine fileName).outputs s
        (.newFile filepath accepted :: (es ++ [.writeTail cs reply tailReply])) →
      ((machine fileName).run s
          (.newFile filepath accepted :: (es ++ [.writeTail cs reply tailReply]))).files filepath =
        some (written [] ((machine fileName).outputs s
          (.newFile filepath accepted :: (es ++ [.writeTail cs reply tailReply]))))) ∧
    ∀ e es, .stop ∈ (machine fileName).out s e → (∀ e' ∈ es, ¬ Event.IsNewFile e') →
      (machine fileName).outputs ((machine fileName).next s e) es = [] := by
  refine ⟨fun filepath accepted es cs reply tailReply hes hstop => ?_, fun e es hstop hes =>
    outputs_of_not_running (next_of_stop hstop) hes⟩
  rw [Machine.outputs_cons, List.mem_append, not_or] at hstop
  rw [Machine.run_cons, Machine.outputs_cons]
  unfold written
  rw [List.foldl_append]
  obtain ⟨hnew, hrest⟩ := hstop
  unfold Machine.next Machine.out at *
  obtain ⟨hok, heq⟩ :=
    @conclude_of_not_stop (s.handleNewFile fileName filepath accepted) hnew
  dsimp only [machine] at hrest ⊢
  rw [heq] at hrest ⊢
  unfold State.handleNewFile at hok hrest ⊢
  cases hname : fileName filepath with
  | none =>
    rw [hname] at hok
    cases hok
  | some filename =>
    rw [hname] at hrest
    exact run_spec ⟨Nat.zero_le _, Nat.zero_le _, fun _ _ h => absurd h (Nat.not_lt_zero _)⟩ rfl
      hes hrest

end Run

/-- A file grows between the query of its length and the read, and once more before the tail. After
a removal that fails no frame is sent. -/
theorem uploaded_grown : ((machine some).run {} [.newFile "a" true, .change (.append "a" [1, 2]),
    .newFrame true [.append "a" [3]] .accepted, .change (.rewriteHeader "a" [4]),
    .writeTail [.append "a" [5]] .accepted .accepted]).files "a" =
      some (written [] ((machine some).outputs {} [.newFile "a" true,
        .change (.append "a" [1, 2]), .newFrame true [.append "a" [3]] .accepted,
        .change (.rewriteHeader "a" [4]), .writeTail [.append "a" [5]] .accepted .accepted])) ∧
    (machine some).outputs ((machine some).next { running := true } (.removeFile false))
      [.newFrame true [] .accepted] = [] :=
  ⟨(uploaded some {}).1 "a" true [.change (.append "a" [1, 2]),
    .newFrame true [.append "a" [3]] .accepted, .change (.rewriteHeader "a" [4])]
    [.append "a" [5]] .accepted .accepted (by simp [Event.IsNewFile]) (by decide +kernel),
    (uploaded some { running := true }).2 (.removeFile false) [.newFrame true [] .accepted]
      (by decide +kernel) (by simp [Event.IsNewFile])⟩

end LibRustdesk.RecordUpload
