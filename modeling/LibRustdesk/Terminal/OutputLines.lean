import LibRustdesk.Framework.Machine
import LibRustdesk.Framework.Pieces
import LibRustdesk.Framework.Utf8
import LibRustdesk.Terminal.OutputBuffer

/-!
# The lines of the replay buffer and its limits

What holds of an `OutputBuffer` after every sequence of appends.

* `Shape` — each line ends in its only newline, but for an unfinished last one.
* `Within` — the limits `MAX_OUTPUT_BUFFER_SIZE` and `MAX_BUFFER_LINES`.

`appendAll_replays` says that the lines keep their shape, and that what is replayed of them is the
end of the output, no longer than asked for, and text where the output came as text.

The limits are **not** kept: an append that only extends the unfinished last line returns before the
buffer is trimmed. `within_iff_fits` says that such appends are the only ones that exceed them, and
`unfinished_line_exceeds` is a run of them.
-/

namespace LibRustdesk.Terminal

open LittleEndian Utf8

namespace OutputBuffer

/-! ### The shape of the lines -/

def Ended (line : Bytes) : Prop := ∃ init, line = init ++ [newline] ∧ newline ∉ init

inductive Shape : List Bytes → Bool → Prop
  | nil : Shape [] false
  | last {line : Bytes} : newline ∉ line → Shape [line] true
  | cons {line : Bytes} {rest : List Bytes} {incomplete : Bool} :
    Ended line → Shape rest incomplete → Shape (line :: rest) incomplete

variable {incomplete : Bool}

theorem Shape.append {lines more : List Bytes} (h : Shape lines false)
    (hmore : Shape more incomplete) : Shape (lines ++ more) incomplete := by
  generalize hfalse : false = finished at h
  induction h with
  | nil => exact hmore
  | last => cases hfalse
  | cons hline _ ih => exact .cons hline (ih hfalse)

variable {lines : List Bytes}

theorem Shape.split (h : Shape lines true) :
    ∃ init last, lines = init ++ [last] ∧ Shape init false ∧ newline ∉ last := by
  generalize htrue : true = incomplete at h
  induction h with
  | nil => cases htrue
  | @last line hline => exact ⟨[], line, rfl, .nil, hline⟩
  | @cons line rest _ hline _ ih =>
    obtain ⟨init, last, rfl, hinit, hlast⟩ := ih htrue
    exact ⟨line :: init, last, rfl, .cons hline hinit, hlast⟩

theorem Shape.ended (h : Shape lines incomplete) : ∀ line ∈ lines.dropLast, Ended line := by
  induction h with
  | nil | last => exact List.forall_mem_nil _
  | @cons line rest _ hline hrest ih =>
    cases rest with
    | nil => exact List.forall_mem_nil _
    | cons next rest =>
      rw [List.dropLast_cons_cons]
      exact List.forall_mem_cons.mpr ⟨hline, ih⟩

theorem Shape.incomplete_iff (h : Shape lines incomplete) :
    incomplete = true ↔ ∃ line ∈ lines.getLast?, newline ∉ line := by
  induction h with
  | nil => simp
  | last hline => simp [hline]
  | @cons line rest incomplete hline hrest ih =>
    cases rest with
    | nil =>
      obtain ⟨init, rfl, -⟩ := hline
      obtain rfl : incomplete = false := by
        cases hrest
        rfl
      simp
    | cons next rest =>
      rw [List.getLast?_cons_cons]
      exact ih

theorem newline_not_mem_piece {data piece : Bytes} (h : piece ∈ data.splitOn newline) :
    newline ∉ piece := not_mem_piece h

variable {b : OutputBuffer} {pieces : List Bytes}

theorem Shape.pushLines (endsWithNewline : Bool)
    (h : Shape b.lines false) (hflag : b.lastLineIncomplete = false)
    (hpieces : ∀ piece ∈ pieces, newline ∉ piece)
    (hlast : endsWithNewline = true → pieces.getLastD [] = []) :
    Shape (pushLines endsWithNewline b pieces).lines
      (pushLines endsWithNewline b pieces).lastLineIncomplete := by
  induction pieces generalizing b with
  | nil =>
    rw [OutputBuffer.pushLines, hflag]
    exact h
  | cons piece rest ih =>
    have hpiece := hpieces piece List.mem_cons_self
    cases rest with
    | nil =>
      unfold OutputBuffer.pushLines
      rw [hflag]
      by_cases hempty : piece = []
      · rw [hempty, List.isEmpty_nil, if_pos rfl, Bool.not_true, Bool.and_false, Bool.or_false]
        exact h
      · -- a piece that is not empty is not the one after a final newline
        obtain rfl : endsWithNewline = false := by
          cases endsWithNewline with
          | false => rfl
          | true => exact absurd (hlast rfl) hempty
        have hsome : piece.isEmpty = false := by
          rw [Bool.eq_false_iff]
          exact fun hnil => hempty (List.isEmpty_iff.mp hnil)
        rw [hsome]
        exact h.append (.last hpiece)
    | cons next rest =>
      have hended : Ended (piece ++ [newline]) := ⟨piece, rfl, hpiece⟩
      exact ih (h.append (.cons hended .nil)) hflag
        (fun p hp => hpieces p (List.mem_cons_of_mem _ hp)) hlast

theorem Shape.trimLines (h : Shape lines incomplete)
    (totalSize : ℕ) : Shape (trimLines lines totalSize incomplete).lines
      (trimLines lines totalSize incomplete).lastLineIncomplete := by
  have hnil (size : ℕ) : Shape (OutputBuffer.trimLines [] size false).lines
      (OutputBuffer.trimLines [] size false).lastLineIncomplete := by
    unfold OutputBuffer.trimLines
    split <;> exact .nil
  induction h generalizing totalSize with
  | nil => exact hnil totalSize
  | last hline =>
    unfold OutputBuffer.trimLines
    split
    · -- the flag goes with the last line
      exact hnil _
    · exact .last hline
  | @cons line rest incomplete hline hrest ih =>
    unfold OutputBuffer.trimLines
    split
    · have hflag : (!rest.isEmpty && incomplete) = incomplete := by
        cases hrest <;> rfl
      rw [hflag]
      exact ih _
    · exact .cons hline hrest

theorem Shape.appendLines (h : Shape b.lines false)
    (hflag : b.lastLineIncomplete = false) (remaining : Bytes) :
    Shape (b.appendLines remaining).lines (b.appendLines remaining).lastLineIncomplete := by
  have hpush := Shape.pushLines (remaining.getLast? == some newline) h hflag
    (fun piece hpiece => newline_not_mem_piece hpiece)
    fun hlast => splitOn_getLastD_nil (by simpa using hlast)
  exact hpush.trimLines _

variable {data : Bytes}

theorem take_findIdx_newline {pos : ℕ}
    (h : data.findIdx? (· == newline) = some pos) :
    data = data.take pos ++ newline :: data.drop (pos + 1) ∧ newline ∉ data.take pos ∧
      data.take (pos + 1) = data.take pos ++ [newline] := by
  obtain ⟨hlt, hpos, hbefore⟩ := List.findIdx?_eq_some_iff_getElem.mp h
  have hbyte : data[pos] = newline := eq_of_beq hpos
  refine ⟨?_, ?_, ?_⟩
  · rw [← hbyte, List.getElem_cons_drop, List.take_append_drop]
  · intro hmem
    obtain ⟨i, hi, hget⟩ := List.mem_iff_getElem.mp hmem
    rw [List.length_take] at hi
    rw [List.getElem_take] at hget
    exact hbefore i (by omega) (beq_iff_eq.mpr hget)
  · rw [List.take_succ_eq_append_getElem hlt, hbyte]

theorem Shape.append_data (h : Shape b.lines b.lastLineIncomplete)
    (data : Bytes) : Shape (b.append data).lines (b.append data).lastLineIncomplete := by
  unfold OutputBuffer.append
  split
  · exact h
  · by_cases hflag : b.lastLineIncomplete = true
    · -- the last line is unfinished
      rw [hflag] at h ⊢
      obtain ⟨init, last, hlines, hinit, hopen⟩ := h.split
      have hne : (true && !b.lines.isEmpty) = true := by
        rw [hlines]
        simp
      have hextend (more : Bytes) (incomplete : Bool) :
          (b.extendLast more incomplete).lines = init ++ [last ++ more] := by
        unfold extendLast
        rw [hlines]
        simp
      rw [if_pos hne]
      split
      · next pos hpos =>
        obtain ⟨-, hbefore, htake⟩ := take_findIdx_newline hpos
        refine Shape.appendLines ?_ rfl _
        rw [hextend, htake, ← List.append_assoc]
        refine hinit.append (.cons ⟨_, rfl, ?_⟩ .nil)
        rw [List.mem_append, not_or]
        exact ⟨hopen, hbefore⟩
      · next hnone =>
        have hdata : newline ∉ data := by
          intro hmem
          have hall := List.findIdx?_eq_none_iff.mp hnone newline hmem
          rw [beq_self_eq_true] at hall
          cases hall
        change Shape (b.extendLast data true).lines true
        rw [hextend]
        refine hinit.append (.last ?_)
        rw [List.mem_append, not_or]
        exact ⟨hopen, hdata⟩
    · rw [Bool.not_eq_true] at hflag
      rw [hflag] at h ⊢
      exact h.appendLines hflag data

/-! ### Text -/

theorem valid_pieces (h : Valid ([newline].intercalate pieces)) :
    ∀ piece ∈ pieces, Valid piece := by
  induction pieces with
  | nil => exact List.forall_mem_nil _
  | cons piece rest ih =>
    cases rest with
    | nil =>
      rw [List.intercalate_singleton] at h
      exact List.forall_mem_singleton.mpr h
    | cons next rest =>
      rw [List.intercalate_cons_cons, List.append_assoc] at h
      obtain ⟨hpiece, hrest⟩ := Valid.cut_ascii h (b := newline) (by decide)
      exact List.forall_mem_cons.mpr ⟨hpiece, ih hrest⟩

theorem valid_newline {line : Bytes} (h : Valid line) : Valid (line ++ [newline]) :=
  h.append ⟨['\n'], rfl⟩

theorem valid_pushLines (endsWithNewline : Bool)
    (h : ∀ line ∈ b.lines, Valid line) (hpieces : ∀ piece ∈ pieces, Valid piece) :
    ∀ line ∈ (pushLines endsWithNewline b pieces).lines, Valid line := by
  induction pieces generalizing b with
  | nil => exact h
  | cons piece rest ih =>
    have hpiece := hpieces piece List.mem_cons_self
    have hpush {line : Bytes} (hline : Valid line) (c : OutputBuffer) (hc : c.lines = b.lines) :
        ∀ l ∈ (c.pushBack line).lines, Valid l := by
      unfold pushBack
      rw [hc]
      exact List.forall_mem_append.mpr ⟨h, List.forall_mem_singleton.mpr hline⟩
    cases rest with
    | nil =>
      unfold pushLines
      split
      · exact h
      · split
        · exact hpush (valid_newline hpiece) _ rfl
        · exact hpush hpiece _ rfl
    | cons next rest =>
      exact ih (hpush (valid_newline hpiece) b rfl) fun p hp =>
        hpieces p (List.mem_cons_of_mem _ hp)

theorem valid_appendLines (h : ∀ line ∈ b.lines, Valid line) {remaining : Bytes}
    (hremaining : Valid remaining) : ∀ line ∈ (b.appendLines remaining).lines, Valid line := by
  have hpieces : ∀ piece ∈ remaining.splitOn newline, Valid piece := by
    apply valid_pieces
    rw [List.intercalate_splitOn]
    exact hremaining
  intro line hline
  exact valid_pushLines _ h hpieces line ((trimLines_suffix _ _ _).mem hline)

theorem valid_append (h : ∀ line ∈ b.lines, Valid line)
    (hdata : Valid data) : ∀ line ∈ (b.append data).lines, Valid line := by
  have hextend {more : Bytes} (hmore : Valid more) (incomplete : Bool) :
      ∀ line ∈ (b.extendLast more incomplete).lines, Valid line := by
    refine List.forall_mem_append.mpr ⟨?_, List.forall_mem_singleton.mpr ?_⟩
    · exact fun line hline => h line (List.mem_of_mem_dropLast hline)
    · refine Valid.append ?_ hmore
      rw [List.getLastD_eq_getLast?]
      cases hlast : b.lines.getLast? with
      | none => exact .nil
      | some last => exact h last (List.mem_of_getLast? hlast)
  unfold OutputBuffer.append
  split
  · exact h
  split
  · split
    · next pos hpos =>
      obtain ⟨hsplit, -, htake⟩ := take_findIdx_newline hpos
      rw [hsplit] at hdata
      obtain ⟨hbefore, hafter⟩ := hdata.cut_ascii (by decide)
      refine valid_appendLines (hextend ?_ false) hafter
      rw [htake]
      exact valid_newline hbefore
    · exact hextend hdata true
  · exact valid_appendLines h hdata

/-! ### What is replayed -/

theorem skipContinuation_ge (line : Bytes) (n offset : ℕ) :
    offset ≤ skipContinuation line n offset := by
  induction n generalizing offset with
  | zero => exact Nat.le_refl _
  | succ n ih =>
    unfold skipContinuation
    split
    · split
      · exact Nat.le_trans (Nat.le_succ _) (ih _)
      · exact Nat.le_refl _
    · exact Nat.le_refl _

theorem skipContinuation_eq {line q w : Bytes} {n offset : ℕ} (hline : line.drop offset = q ++ w)
    (hq : ∀ b ∈ q, IsContinuation b) (hw : ∀ b ∈ w.head?, ¬ IsContinuation b)
    (hlength : q.length ≤ n) : line.drop (skipContinuation line n offset) = w := by
  induction n generalizing offset q with
  | zero =>
    obtain rfl : q = [] := List.length_eq_zero_iff.mp (Nat.le_zero.mp hlength)
    exact hline
  | succ n ih =>
    have hget : (line)[offset]? = (q ++ w).head? := by
      rw [← hline, List.head?_drop]
    unfold skipContinuation
    cases q with
    | nil =>
      rw [hget, List.nil_append]
      rw [List.nil_append] at hline
      split
      · next b hb =>
        rw [if_neg fun hcont => hw b hb (eq_of_beq hcont)]
        exact hline
      · exact hline
    | cons b q =>
      have hb : b &&& 0xC0 = 0x80 := hq b List.mem_cons_self
      rw [hget, List.cons_append, List.head?_cons]
      dsimp only
      rw [if_pos (beq_iff_eq.mpr hb)]
      refine ih ?_ (fun x hx => hq x (List.mem_cons_of_mem _ hx)) (Nat.le_of_succ_le_succ hlength)
      rw [← List.drop_drop, hline, List.cons_append, List.drop_one, List.tail_cons]

theorem valid_skipContinuation {line : Bytes} (h : Valid line) (offset : ℕ) :
    Valid (line.drop (skipContinuation line 3 offset)) := by
  rw [← List.take_append_drop offset line] at h
  obtain ⟨q, w, hline, hlength, hq, hw⟩ := h.skip
  rw [skipContinuation_eq hline hq ?_ hlength]
  · exact hw
  · intro b hb
    obtain ⟨rest, rfl⟩ := List.head?_eq_some_iff.mp hb
    exact hw.not_isContinuation

theorem recentChunks_length (maxBytes : ℕ) {size : ℕ} (hsize : size ≤ maxBytes)
    (newestFirst : List Bytes) :
    size + (recentChunks maxBytes size newestFirst).reverse.flatten.length ≤ maxBytes := by
  induction newestFirst generalizing size with
  | nil => exact hsize
  | cons line older ih =>
    unfold recentChunks
    split
    · split
      · next hcut =>
        dsimp only
        split
        · have hskip := skipContinuation_ge line 3 (line.length - maxBytes)
          rw [List.reverse_singleton, List.flatten_singleton, List.length_drop]
          omega
        · exact hsize
      · exact hsize
    · have hroom : size + line.length ≤ maxBytes := by omega
      have hrest := ih hroom
      rw [List.reverse_cons, List.flatten_append, List.flatten_singleton, List.length_append]
      omega

theorem recentChunks_valid (maxBytes size : ℕ) {newestFirst : List Bytes}
    (h : ∀ line ∈ newestFirst, Valid line) :
    ∀ chunk ∈ recentChunks maxBytes size newestFirst, Valid chunk := by
  induction newestFirst generalizing size with
  | nil => exact List.forall_mem_nil _
  | cons line older ih =>
    obtain ⟨hline, holder⟩ := List.forall_mem_cons.mp h
    unfold recentChunks
    split
    · split
      · dsimp only
        split
        · exact List.forall_mem_singleton.mpr (valid_skipContinuation hline _)
        · exact List.forall_mem_nil _
      · exact List.forall_mem_nil _
    · exact List.forall_mem_cons.mpr ⟨hline, ih _ holder⟩

theorem getRecent_length (b : OutputBuffer) (maxBytes : ℕ) :
    (b.getRecent maxBytes).length ≤ maxBytes := by
  unfold getRecent
  split
  · exact Nat.zero_le _
  · have h := recentChunks_length maxBytes (Nat.zero_le _) b.lines.reverse
    rwa [Nat.zero_add] at h

theorem getRecent_valid (h : ∀ line ∈ b.lines, Valid line) (maxBytes : ℕ) :
    Valid (b.getRecent maxBytes) := by
  unfold getRecent
  split
  · exact .nil
  · refine Valid.flatten fun chunk hchunk => ?_
    exact recentChunks_valid maxBytes 0 (fun line hline => h line (List.mem_reverse.mp hline)) chunk
      (List.mem_reverse.mp hchunk)

/-! ### All appends -/

def appendAll (chunks : List Bytes) : OutputBuffer := chunks.foldl append new

theorem shape_appendAll (chunks : List Bytes) :
    Shape (appendAll chunks).lines (appendAll chunks).lastLineIncomplete := by
  have hrun (b : OutputBuffer) (h : Shape b.lines b.lastLineIncomplete) :
      Shape (chunks.foldl append b).lines (chunks.foldl append b).lastLineIncomplete := by
    induction chunks generalizing b with
    | nil => exact h
    | cons data chunks ih => exact ih _ (h.append_data data)
  exact hrun new .nil

theorem valid_appendAll {chunks : List Bytes} (h : ∀ data ∈ chunks, Valid data) :
    ∀ line ∈ (appendAll chunks).lines, Valid line := by
  have hrun (b : OutputBuffer) (hb : ∀ line ∈ b.lines, Valid line) :
      ∀ line ∈ (chunks.foldl append b).lines, Valid line := by
    induction chunks generalizing b with
    | nil => exact hb
    | cons data chunks ih =>
      obtain ⟨hdata, hchunks⟩ := List.forall_mem_cons.mp h
      exact ih hchunks _ (valid_append hb hdata)
  exact hrun new (List.forall_mem_nil _)

/-- **What a terminal replays.** The lines are the end of the output and keep their shape; what is
replayed is the end of it, within the bound, and text where the output came as text. -/
theorem appendAll_replays (chunks : List Bytes) :
    (appendAll chunks).bytes <:+ chunks.flatten ∧
      (∀ line ∈ (appendAll chunks).lines.dropLast, Ended line) ∧
      ((appendAll chunks).lastLineIncomplete = true ↔
        ∃ line ∈ (appendAll chunks).lines.getLast?, newline ∉ line) ∧
      ∀ maxBytes, (appendAll chunks).getRecent maxBytes <:+ (appendAll chunks).bytes ∧
        ((appendAll chunks).getRecent maxBytes).length ≤ maxBytes ∧
        ((∀ data ∈ chunks, Valid data) → Valid ((appendAll chunks).getRecent maxBytes)) := by
  have hshape := shape_appendAll chunks
  refine ⟨foldl_append_suffix chunks new, hshape.ended, hshape.incomplete_iff, ?_⟩
  intro maxBytes
  refine ⟨getRecent_suffix _ _, getRecent_length _ _, fun hvalid => ?_⟩
  exact getRecent_valid (valid_appendAll hvalid) maxBytes

/-! ### The limits -/

/-- The size is what is held, and both limits are kept. -/
structure Within (b : OutputBuffer) : Prop where
  exact : b.totalSize = (b.lines.map List.length).sum
  size : b.totalSize ≤ maxOutputBufferSize
  lines : b.lines.length ≤ maxBufferLines

/-- An append that only extends the unfinished last line has room. -/
def Fits (b : OutputBuffer) (data : Bytes) : Prop :=
  b.lastLineIncomplete = true → newline ∉ data → b.totalSize + data.length ≤ maxOutputBufferSize

def buffer : Machine OutputBuffer Bytes Empty := ⟨fun b data => (b.append data, [])⟩

/-- What holds of a buffer, whether it is within its limits or not. -/
structure Sound (b : OutputBuffer) : Prop where
  exact : b.Exact
  shape : Shape b.lines b.lastLineIncomplete

theorem sound_new : new.Sound := ⟨exact_new, .nil⟩

theorem Sound.append (h : b.Sound) (data : Bytes) : (b.append data).Sound :=
  ⟨append_exact h.exact data, h.shape.append_data data⟩

theorem Sound.totalSize (h : b.Sound) : b.totalSize = (b.lines.map List.length).sum := by
  have hexact : b.totalSize = b.lines.flatten.length := h.exact
  rw [hexact, List.length_flatten]

theorem trimLines_limits (lines : List Bytes) (totalSize : ℕ) (incomplete : Bool) :
    (trimLines lines totalSize incomplete).totalSize ≤ maxOutputBufferSize ∧
      (trimLines lines totalSize incomplete).lines.length ≤ maxBufferLines := by
  induction lines generalizing totalSize incomplete with
  | nil =>
    unfold trimLines
    split
    · exact ⟨Nat.zero_le _, Nat.zero_le _⟩
    · next h =>
      rw [not_or] at h
      exact ⟨Nat.le_of_not_lt h.1, Nat.zero_le _⟩
  | cons removed rest ih =>
    unfold trimLines
    split
    · exact ih _ _
    · next h =>
      rw [not_or] at h
      exact ⟨Nat.le_of_not_lt h.1, Nat.le_of_not_lt h.2⟩

theorem append_unfinished (hflag : b.lastLineIncomplete = true) (hne : b.lines ≠ [])
    (hdata : data ≠ []) (hnewline : newline ∉ data) : b.append data = b.extendLast data true := by
  have hfind : data.findIdx? (· == newline) = none :=
    List.findIdx?_eq_none_iff.mpr fun x hx => by
      rw [beq_eq_false_iff_ne]
      rintro rfl
      exact hnewline hx
  have hcond : (b.lastLineIncomplete && !b.lines.isEmpty) = true := by
    rw [hflag]
    simpa using hne
  unfold OutputBuffer.append
  rw [if_neg (fun hnil => hdata (List.isEmpty_iff.mp hnil)), if_pos hcond, hfind]

theorem within_append_iff (h : b.Sound) (hb : b.Within) (data : Bytes) :
    (b.append data).Within ↔ b.Fits data := by
  have hsound := h.append data
  -- an append that comes to the trimming loop is within the limits
  have htrimmed (c : OutputBuffer) (remaining : Bytes)
      (heq : b.append data = c.appendLines remaining) : (b.append data).Within := by
    have hlimits := trimLines_limits
      (pushLines (remaining.getLast? == some newline) c (remaining.splitOn newline)).lines
      (pushLines (remaining.getLast? == some newline) c (remaining.splitOn newline)).totalSize
      (pushLines (remaining.getLast? == some newline) c
        (remaining.splitOn newline)).lastLineIncomplete
    refine ⟨hsound.totalSize, ?_, ?_⟩
    · rw [heq]
      exact hlimits.1
    · rw [heq]
      exact hlimits.2
  by_cases hdata : data = []
  · -- nothing happens
    subst hdata
    exact ⟨fun _ _ _ => hb.size, fun _ => hb⟩
  have hsome : ¬ data.isEmpty = true := fun hnil => hdata (List.isEmpty_iff.mp hnil)
  by_cases hflag : b.lastLineIncomplete = true
  · have hne : b.lines ≠ [] := by
      have hshape := h.shape
      rw [hflag] at hshape
      obtain ⟨init, last, hlines, -⟩ := hshape.split
      rw [hlines]
      simp
    have hcond : (b.lastLineIncomplete && !b.lines.isEmpty) = true := by
      rw [hflag]
      simpa using hne
    by_cases hnewline : newline ∈ data
    · obtain ⟨pos, hpos⟩ : ∃ pos, data.findIdx? (· == newline) = some pos := by
        cases hfind : data.findIdx? (· == newline) with
        | some pos => exact ⟨pos, rfl⟩
        | none =>
          have hall := List.findIdx?_eq_none_iff.mp hfind newline hnewline
          rw [beq_self_eq_true] at hall
          cases hall
      refine ⟨fun _ _ hnot => absurd hnewline hnot, fun _ => ?_⟩
      refine htrimmed (b.extendLast (data.take (pos + 1)) false) (data.drop (pos + 1)) ?_
      unfold OutputBuffer.append
      rw [if_neg hsome, if_pos hcond, hpos]
    · -- the early return
      have heq := append_unfinished hflag hne hdata hnewline
      have hsize : (b.append data).totalSize = b.totalSize + data.length := by
        rw [heq]
        rfl
      have hlength : (b.append data).lines.length = b.lines.length := by
        have hpos := List.length_pos_iff.mpr hne
        rw [heq]
        unfold extendLast
        rw [List.length_append, List.length_dropLast, List.length_singleton]
        omega
      constructor
      · intro hwithin _ _
        rw [← hsize]
        exact hwithin.size
      · intro hfits
        refine ⟨hsound.totalSize, ?_, ?_⟩
        · rw [hsize]
          exact hfits hflag hnewline
        · rw [hlength]
          exact hb.lines
  · refine ⟨fun _ htrue => absurd htrue hflag, fun _ => htrimmed b data ?_⟩
    have hcond : ¬ (b.lastLineIncomplete && !b.lines.isEmpty) = true := by
      rw [Bool.and_eq_true]
      exact fun hand => hflag hand.1
    unfold OutputBuffer.append
    rw [if_neg hsome, if_neg hcond]

/-- **The limits.** They are kept through a run exactly when every append that only extends the
unfinished last line has room. -/
theorem within_iff_fits (chunks : List Bytes) :
    (∀ pre, pre <+: chunks → (appendAll pre).Within) ↔ buffer.Meets Fits new chunks := by
  have hrun (pre : List Bytes) : appendAll pre = buffer.run new pre := by
    unfold appendAll
    generalize new = b
    induction pre generalizing b with
    | nil => rfl
    | cons data pre ih => exact ih (b.append data)
  simp only [hrun]
  refine Machine.meets_iff_inv (J := Sound) ⟨rfl, Nat.zero_le _, Nat.zero_le _⟩ sound_new ?_ ?_
  · exact fun b data h => h.append data
  · exact fun b data h hb => within_append_iff h hb data

theorem foldl_append_unfinished (line : Bytes) {chunks : List Bytes}
    (h : ∀ data ∈ chunks, data ≠ [] ∧ newline ∉ data) :
    chunks.foldl append ⟨[line], line.length, true⟩ =
      ⟨[line ++ chunks.flatten], (line ++ chunks.flatten).length, true⟩ := by
  induction chunks generalizing line with
  | nil => rw [List.flatten_nil, List.append_nil, List.foldl_nil]
  | cons data chunks ih =>
    obtain ⟨⟨hdata, hnewline⟩, hchunks⟩ := List.forall_mem_cons.mp h
    have hone : (⟨[line], line.length, true⟩ : OutputBuffer).append data =
        ⟨[line ++ data], (line ++ data).length, true⟩ := by
      rw [append_unfinished rfl (List.cons_ne_nil _ _) hdata hnewline, List.length_append]
      rfl
    rw [List.foldl_cons, hone, ih _ hchunks, List.flatten_cons, List.append_assoc]

/-- A megabyte and a bit more without a newline, as it is read from a terminal. -/
theorem unfinished_line_exceeds :
    ¬ (appendAll ([0x61] :: List.replicate 256 (List.replicate 4096 0x61))).Within := by
  have hfirst : new.append [0x61] = ⟨[[0x61]], ([0x61] : Bytes).length, true⟩ := by decide +kernel
  have hall : appendAll ([0x61] :: List.replicate 256 (List.replicate 4096 0x61)) =
      ⟨[[0x61] ++ (List.replicate 256 (List.replicate 4096 0x61)).flatten],
        ([0x61] ++ (List.replicate 256 (List.replicate 4096 (0x61 : UInt8))).flatten).length,
          true⟩ := by
    unfold appendAll
    rw [List.foldl_cons, hfirst]
    refine foldl_append_unfinished _ ?_
    intro data hdata
    rw [List.eq_of_mem_replicate hdata]
    refine ⟨fun hnil => ?_, fun hmem => ?_⟩
    · exact absurd (List.replicate_eq_nil_iff _ |>.mp hnil) (by decide)
    exact absurd (List.eq_of_mem_replicate hmem) (by decide)
  intro hwithin
  have hsize := hwithin.size
  rw [hall] at hsize
  rw [List.length_append, List.length_flatten, List.map_replicate, List.length_replicate] at hsize
  exact absurd hsize (by decide +kernel)

end OutputBuffer

end LibRustdesk.Terminal
