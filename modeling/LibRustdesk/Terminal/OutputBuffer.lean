import LibRustdesk.Framework.LittleEndian
import Mathlib.Data.List.Infix

/-!
# The replay buffer

`OutputBuffer` of `src/server/terminal_service.rs`: the recent output of a terminal, cut into
lines. `append` completes an unfinished last line first, splits the rest at newlines and then
drops lines from the front until the buffer is within its bounds; an append that only extends the
unfinished line returns before the bounds are looked at. `get_recent` joins whole lines from the
newest backwards, or cuts the newest one when it alone is too long.

Both only ever forget from the front: `append_suffix` and `getRecent_suffix` are what the replay
rests on. `append_exact` says that `total_size` is the number of bytes held, so that the branch
that repairs an underflow is never taken.
-/

namespace LibRustdesk.Terminal

open LittleEndian

def maxOutputBufferSize : ℕ := 1024 * 1024

def maxBufferLines : ℕ := 10000

/-- `b'\n'`. -/
def newline : UInt8 := 10

structure OutputBuffer where
  lines : List Bytes
  totalSize : ℕ
  lastLineIncomplete : Bool
  deriving DecidableEq, Repr

namespace OutputBuffer

def new : OutputBuffer := ⟨[], 0, false⟩

/-- `lines.push_back`, with its share of `total_size`. -/
def pushBack (b : OutputBuffer) (line : Bytes) : OutputBuffer :=
  { b with lines := b.lines ++ [line], totalSize := b.totalSize + line.length }

/-- The loop over the pieces between newlines. Every piece but the last was ended by one. -/
def pushLines (endsWithNewline : Bool) (b : OutputBuffer) : List Bytes → OutputBuffer
  | [] => b
  | [line] =>
    let b := { b with
      lastLineIncomplete := b.lastLineIncomplete || (!endsWithNewline && !line.isEmpty) }
    if line.isEmpty then b
    else b.pushBack (if endsWithNewline then line ++ [newline] else line)
  | line :: rest => pushLines endsWithNewline (b.pushBack (line ++ [newline])) rest

/-- The trimming loop, over the lines from the front. -/
def trimLines : List Bytes → ℕ → Bool → OutputBuffer
  | [], totalSize, incomplete =>
    if totalSize > maxOutputBufferSize ∨ 0 > maxBufferLines then ⟨[], 0, false⟩
    else ⟨[], totalSize, incomplete⟩
  | removed :: rest, totalSize, incomplete =>
    if totalSize > maxOutputBufferSize ∨ (removed :: rest).length > maxBufferLines then
      trimLines rest
        (if removed.length > totalSize then (rest.map List.length).sum
          else totalSize - removed.length)
        (!rest.isEmpty && incomplete)
    else ⟨removed :: rest, totalSize, incomplete⟩

def trim (b : OutputBuffer) : OutputBuffer :=
  trimLines b.lines b.totalSize b.lastLineIncomplete

/-- Splits the data at newlines, stores the lines and trims. -/
def appendLines (b : OutputBuffer) (remaining : Bytes) : OutputBuffer :=
  (pushLines (remaining.getLast? == some newline) b (remaining.splitOn newline)).trim

def extendLast (b : OutputBuffer) (data : Bytes) (incomplete : Bool) : OutputBuffer :=
  { lines := b.lines.dropLast ++ [b.lines.getLastD [] ++ data]
    totalSize := b.totalSize + data.length
    lastLineIncomplete := incomplete }

def append (b : OutputBuffer) (data : Bytes) : OutputBuffer :=
  if data.isEmpty then b
  else if b.lastLineIncomplete && !b.lines.isEmpty then
    match data.findIdx? (· == newline) with
    | some newlinePos =>
      (b.extendLast (data.take (newlinePos + 1)) false).appendLines (data.drop (newlinePos + 1))
    -- Still no newline: the buffer is returned untrimmed.
    | none => b.extendLast data true
  else b.appendLines data

/-- Moves an offset past at most `n` UTF-8 continuation bytes. -/
def skipContinuation (line : Bytes) : ℕ → ℕ → ℕ
  | 0, offset => offset
  | n + 1, offset =>
    match (line)[offset]? with
    | some b =>
      if b &&& 0b11000000 == 0b10000000 then skipContinuation line n (offset + 1) else offset
    | none => offset

/-- The chunks of `get_recent`, newest first; `size` bytes are collected already. -/
def recentChunks (maxBytes : ℕ) : ℕ → List Bytes → List Bytes
  | _, [] => []
  | size, line :: older =>
    if size + line.length > maxBytes then
      if size = 0 ∧ line.length > maxBytes then
        let offset := skipContinuation line 3 (line.length - maxBytes)
        if offset < line.length then [line.drop offset] else []
      else []
    else line :: recentChunks maxBytes (size + line.length) older

def getRecent (b : OutputBuffer) (maxBytes : ℕ) : Bytes :=
  if maxBytes = 0 then []
  else (recentChunks maxBytes 0 b.lines.reverse).reverse.flatten

def bytes (b : OutputBuffer) : Bytes := b.lines.flatten

/-- `total_size` is the number of bytes held. -/
def Exact (b : OutputBuffer) : Prop := b.totalSize = b.bytes.length

theorem exact_new : new.Exact := rfl

/-! ### Storing lines -/

variable {b : OutputBuffer}

@[simp] theorem bytes_pushBack (b : OutputBuffer) (line : Bytes) :
    (b.pushBack line).bytes = b.bytes ++ line := by
  simp only [pushBack, bytes, List.flatten_append, List.flatten_singleton]

theorem Exact.pushBack (h : b.Exact) (line : Bytes) : (b.pushBack line).Exact := by
  show b.totalSize + line.length = _
  rw [bytes_pushBack, List.length_append, h]

theorem bytes_pushLines (endsWithNewline : Bool) (b : OutputBuffer) (pieces : List Bytes)
    (hlast : endsWithNewline = true → pieces.getLastD [] = []) :
    (pushLines endsWithNewline b pieces).bytes = b.bytes ++ [newline].intercalate pieces := by
  induction pieces generalizing b with
  | nil => exact (List.append_nil _).symm
  | cons line rest ih =>
    cases rest with
    | nil =>
      cases hline : line with
      | nil => simp [pushLines, bytes, List.intercalate]
      | cons a as =>
        -- A piece that is not empty is not the one after a final newline.
        have hends : endsWithNewline = false := by
          cases endsWithNewline with
          | false => rfl
          | true => exact absurd (hlast rfl) (by simp [hline])
        simp [pushLines, hends, bytes, pushBack, List.intercalate]
    | cons next rest =>
      have hrest := ih (b.pushBack (line ++ [newline])) (by simpa using hlast)
      show (pushLines endsWithNewline (b.pushBack (line ++ [newline])) (next :: rest)).bytes = _
      rw [hrest, bytes_pushBack, List.intercalate_cons_cons]
      simp only [List.append_assoc]

theorem Exact.pushLines (h : b.Exact) (endsWithNewline : Bool)
    (pieces : List Bytes) : (pushLines endsWithNewline b pieces).Exact := by
  induction pieces generalizing b with
  | nil => exact h
  | cons line rest ih =>
    cases rest with
    | nil =>
      have h' : ∀ i, ({ b with lastLineIncomplete := i } : OutputBuffer).Exact := fun _ => h
      unfold OutputBuffer.pushLines
      split
      · exact h' _
      · exact (h' _).pushBack _
    | cons next rest => exact ih (h.pushBack _)

/-! ### Trimming -/

theorem trimLines_suffix (lines : List Bytes) (totalSize : ℕ) (incomplete : Bool) :
    (trimLines lines totalSize incomplete).lines <:+ lines := by
  induction lines generalizing totalSize incomplete with
  | nil =>
    unfold trimLines
    split <;> exact List.suffix_refl []
  | cons removed rest ih =>
    unfold trimLines
    split
    · exact (ih _ _).trans (List.suffix_cons removed rest)
    · exact List.suffix_refl _

theorem trimLines_exact {lines : List Bytes} {totalSize : ℕ} (incomplete : Bool)
    (h : totalSize = lines.flatten.length) : (trimLines lines totalSize incomplete).Exact := by
  induction lines generalizing totalSize incomplete with
  | nil =>
    unfold trimLines
    split
    · exact rfl
    · exact h
  | cons removed rest ih =>
    rw [List.flatten_cons, List.length_append] at h
    unfold trimLines
    split
    · apply ih
      rw [if_neg (by omega)]
      omega
    · show totalSize = _
      simp only [bytes, List.flatten_cons, List.length_append]
      exact h

theorem flatten_suffix {l l' : List Bytes} (h : l <:+ l') : l.flatten <:+ l'.flatten := by
  obtain ⟨t, rfl⟩ := h
  rw [List.flatten_append]
  exact List.suffix_append _ _

theorem splitOn_getLastD_nil {data : Bytes} (h : data.getLast? = some newline) :
    (data.splitOn newline).getLastD [] = [] := by
  obtain ⟨init, rfl⟩ := List.getLast?_eq_some_iff.mp h
  rw [List.splitOn_append_cons_self, List.splitOn_nil]
  simp

theorem bytes_appendLines_suffix (b : OutputBuffer) (remaining : Bytes) :
    (b.appendLines remaining).bytes <:+ b.bytes ++ remaining := by
  have hpush := bytes_pushLines (remaining.getLast? == some newline) b
    (remaining.splitOn newline) fun h => splitOn_getLastD_nil (by simpa using h)
  rw [List.intercalate_splitOn] at hpush
  rw [← hpush]
  exact flatten_suffix (trimLines_suffix _ _ _)

theorem Exact.appendLines (h : b.Exact) (remaining : Bytes) : (b.appendLines remaining).Exact :=
  trimLines_exact _ (h.pushLines _ _)

/-! ### `append` -/

theorem bytes_extendLast (hne : b.lines ≠ []) (data : Bytes)
    (incomplete : Bool) : (b.extendLast data incomplete).bytes = b.bytes ++ data := by
  obtain ⟨init, last, hlines⟩ : ∃ init last, b.lines = init ++ [last] :=
    ⟨_, _, (List.dropLast_concat_getLast hne).symm⟩
  simp [extendLast, bytes, hlines]

theorem Exact.extendLast (h : b.Exact) (hne : b.lines ≠ []) (data : Bytes)
    (incomplete : Bool) : (b.extendLast data incomplete).Exact := by
  show b.totalSize + data.length = _
  rw [bytes_extendLast hne, List.length_append, h]

theorem append_suffix (b : OutputBuffer) (data : Bytes) :
    (b.append data).bytes <:+ b.bytes ++ data := by
  unfold append
  split
  · next hdata =>
    rw [List.isEmpty_iff.mp hdata, List.append_nil]
  · split
    · next hlast =>
      have hne : b.lines ≠ [] := by
        intro h
        simp [h] at hlast
      split
      · next newlinePos _ =>
        -- The data up to the newline closes the last line; the rest is stored line by line.
        have hrest := bytes_appendLines_suffix
          (b.extendLast (data.take (newlinePos + 1)) false) (data.drop (newlinePos + 1))
        rw [bytes_extendLast hne, List.append_assoc, List.take_append_drop] at hrest
        exact hrest
      · rw [bytes_extendLast hne]
    · exact bytes_appendLines_suffix b data

theorem append_exact (h : b.Exact) (data : Bytes) : (b.append data).Exact := by
  unfold append
  split
  · exact h
  · split
    · next hlast =>
      have hne : b.lines ≠ [] := by
        intro hnil
        simp [hnil] at hlast
      split
      · exact (h.extendLast hne _ _).appendLines _
      · exact h.extendLast hne _ _
    · exact h.appendLines data

theorem foldl_append_suffix (chunks : List Bytes) (b : OutputBuffer) :
    (chunks.foldl append b).bytes <:+ b.bytes ++ chunks.flatten := by
  induction chunks generalizing b with
  | nil =>
    rw [List.flatten_nil, List.append_nil]
    exact List.suffix_refl b.bytes
  | cons data rest ih =>
    obtain ⟨dropped, hdropped⟩ := append_suffix b data
    refine (ih (b.append data)).trans ⟨dropped, ?_⟩
    calc dropped ++ ((b.append data).bytes ++ rest.flatten)
        = (dropped ++ (b.append data).bytes) ++ rest.flatten := (List.append_assoc _ _ _).symm
      _ = b.bytes ++ (data :: rest).flatten := by
        rw [hdropped, List.flatten_cons, List.append_assoc]

/-! ### `get_recent` -/

theorem recentChunks_suffix (maxBytes size : ℕ) (newestFirst : List Bytes) :
    (recentChunks maxBytes size newestFirst).reverse.flatten <:+
      newestFirst.reverse.flatten := by
  induction newestFirst generalizing size with
  | nil => exact List.suffix_refl _
  | cons line older ih =>
    simp only [List.reverse_cons, List.flatten_append, List.flatten_singleton]
    have hcut : ([] : Bytes) <:+ older.reverse.flatten ++ line := List.nil_suffix
    unfold recentChunks
    split
    · split
      · -- The newest line alone is too long: its tail, from a character boundary on.
        dsimp only
        split
        · simp only [List.reverse_singleton, List.flatten_singleton]
          exact (List.drop_suffix _ line).trans (List.suffix_append _ _)
        · exact hcut
      · exact hcut
    · obtain ⟨t, ht⟩ := ih (size + line.length)
      refine ⟨t, ?_⟩
      simp only [List.reverse_cons, List.flatten_append, List.flatten_singleton]
      rw [← List.append_assoc, ht]

theorem getRecent_suffix (b : OutputBuffer) (maxBytes : ℕ) : b.getRecent maxBytes <:+ b.bytes := by
  unfold getRecent
  split
  · exact List.nil_suffix
  · have h := recentChunks_suffix maxBytes 0 b.lines.reverse
    rw [List.reverse_reverse] at h
    exact h

example : ((new.append "ab\ncd".toUTF8.toList).append "e\n".toUTF8.toList).lines =
    ["ab\n".toUTF8.toList, "cde\n".toUTF8.toList] := by decide +kernel

end OutputBuffer

end LibRustdesk.Terminal
