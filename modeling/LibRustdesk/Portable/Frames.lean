import LibRustdesk.Portable.Counters

/-!
# Frames in the shared memory

The portable service captures frames and writes them into the shared memory, and the process that it
works for encodes them from there. There is room for one frame. The service (`run_capture`) waits
until the reader has seen the last one, which is when the two words of the counter are equal, and
then writes what the frame is like, the frame, and counts.

The reader (`CapturerPortable::frame`) makes the words equal **before** it looks at the frame, and
hands out a slice of the shared memory. It goes on to use it, while the service may be writing the
next frame in the same place (`frame_overwritten`). The service does not wait at all for the first
frame of a capturer: then it can also write over a frame that has not been looked at.

* `handOff` — the service, which makes a new capturer whenever it has to, and the reader, step by
  step.
* `Clean` — the reader uses a frame as it was captured, and nothing is written there as long as it
  does.
* `Waited` — the service goes on to the next frame when the reader has let go of the last one.
* `clean_of_waited` — **a frame is not written over while it is used**, in the runs whose steps are
  `Waited`.
-/

namespace LibRustdesk.Desktop.Portable

structure CapturerPara where
  recreate : Bool
  currentDisplay : ℕ
deriving DecidableEq

structure FrameInfo where
  length : ℕ
  width : ℕ
  height : ℕ
deriving DecidableEq

/-- The shared memory from `ADDR_CAPTURER_PARA` on. -/
structure CaptureMemory where
  para : CapturerPara := ⟨false, 0⟩
  info : FrameInfo := ⟨0, 0, 0⟩
  wouldblock : Bool := false
  counter : Counters := .zero
  /-- The bytes from `ADDR_CAPTURE_FRAME` on. -/
  frame : List UInt8

/-- New memory is zero. `capacity` bytes of it are for the frame. -/
def CaptureMemory.zero (capacity : ℕ) : CaptureMemory := { frame := List.replicate capacity 0 }

/-- `SharedMemory::write`, at the start of the frame. -/
def overwrite (bytes data : List UInt8) : List UInt8 := data ++ bytes.drop data.length

/-- What `run_capture` does next. -/
inductive WriterStep
  /-- The start of the loop. -/
  | look
  | capture
  | writeInfo (data : List UInt8)
  | writeFrame (data : List UInt8)
  | writeWouldblock
  | increaseCounter
  /-- `EXIT` is set. -/
  | exited
deriving DecidableEq

/-- The variables of `run_capture`. -/
structure Writer where
  /-- `c`, with `is_gdi`. -/
  capturer : Option Bool := none
  lastCurrentDisplay : ℕ := 2 ^ 64 - 1
  firstFrameCaptured : Bool := false
  dxgiFailedTimes : ℕ := 0
  displayWidth : ℕ := 0
  displayHeight : ℕ := 0
  next : WriterStep := .look

/-- What comes of `Capturer::new`, for the display that `try_get_displays` gives. -/
inductive CapturerNew
  | ok (width height : ℕ)
  | err (width height : ℕ)
  /-- There are no displays, or not this one. -/
  | noDisplay

/-- What comes of the `frame` of the capturer. -/
inductive Captured
  | pixelBuffer (data : List UInt8)
  | texture
  | desktopChanged
  | wouldBlock
  | failed

/-- What the reader does: nothing, it is about to read `FrameInfo`, or it uses the slice of a frame
with this `FrameInfo`. -/
inductive Reader
  | idle
  | check
  | inUse (info : FrameInfo)
deriving DecidableEq

structure HandOff where
  memory : CaptureMemory
  writer : Writer := {}
  reader : Reader := .idle
  /-- `CapturerPortable`. -/
  width : ℕ := 0
  height : ℕ := 0
  /-- The frames that were captured. No code reads it. -/
  frames : List (FrameInfo × List UInt8) := []

namespace HandOff

def maxDxgiFailTime : ℕ := 5

/-- `run_capture` without a capturer. -/
def newCapturer (s : HandOff) : CapturerNew → HandOff
  | .ok width height =>
    let gdi := s.writer.dxgiFailedTimes > maxDxgiFailTime
    { s with
      memory := { s.memory with para := { s.memory.para with recreate := false } }
      writer := { s.writer with
        capturer := some gdi
        lastCurrentDisplay := s.memory.para.currentDisplay
        firstFrameCaptured := false
        dxgiFailedTimes := if gdi then 0 else s.writer.dxgiFailedTimes
        displayWidth := width
        displayHeight := height
        next := .capture } }
  | .err width height =>
    { s with writer := { s.writer with displayWidth := width, displayHeight := height } }
  | .noDisplay => { s with writer := { s.writer with next := .exited } }

/-- Whether `run_capture` goes on to capture a frame when it has a capturer. -/
def goesOn (s : HandOff) : Bool :=
  !s.writer.firstFrameCaptured || counterEqual s.memory.counter

/-- The start of the loop of `run_capture`, up to the wait. -/
def look (s : HandOff) (new : CapturerNew) : HandOff :=
  if s.writer.capturer.isNone then s.newCapturer new
  else if s.memory.para.recreate ||
      s.memory.para.currentDisplay != s.writer.lastCurrentDisplay then
    { s with writer := { s.writer with capturer := none } }
  else if s.goesOn then { s with writer := { s.writer with next := .capture } }
  else s

def capture (s : HandOff) : Captured → HandOff
  | .pixelBuffer data =>
    if data.length > s.memory.frame.length then
      { s with writer := { s.writer with next := .exited } }
    else
      { s with
        writer := { s.writer with next := .writeInfo data }
        frames := s.frames ++
          [(⟨data.length, s.writer.displayWidth, s.writer.displayHeight⟩, data)] }
  | .texture => { s with writer := { s.writer with next := .look } }
  | .desktopChanged => { s with writer := { s.writer with capturer := none, next := .look } }
  | .wouldBlock =>
    { s with
      memory := { s.memory with wouldblock := true }
      writer := { s.writer with next := .look } }
  | .failed =>
    let failedTimes :=
      if s.writer.capturer = some false then s.writer.dxgiFailedTimes + 1
      else s.writer.dxgiFailedTimes
    if failedTimes > maxDxgiFailTime then
      { s with
        memory := { s.memory with wouldblock := false }
        writer := { s.writer with
          capturer := none, dxgiFailedTimes := failedTimes, next := .look } }
    else { s with writer := { s.writer with dxgiFailedTimes := failedTimes, next := .look } }

/-- The next step of `run_capture`, with what comes of it. -/
def write (s : HandOff) (new : CapturerNew) (captured : Captured) : HandOff :=
  match s.writer.next with
  | .look => s.look new
  | .capture => s.capture captured
  | .writeInfo data =>
    { s with
      memory := { s.memory with
        info := ⟨data.length, s.writer.displayWidth, s.writer.displayHeight⟩ }
      writer := { s.writer with next := .writeFrame data } }
  | .writeFrame data =>
    { s with
      memory := { s.memory with frame := overwrite s.memory.frame data }
      writer := { s.writer with next := .writeWouldblock } }
  | .writeWouldblock =>
    { s with
      memory := { s.memory with wouldblock := true }
      writer := { s.writer with next := .increaseCounter } }
  | .increaseCounter =>
    { s with
      memory := { s.memory with counter := increaseCounter s.memory.counter }
      writer := { s.writer with firstFrameCaptured := true, dxgiFailedTimes := 0, next := .look } }
  | .exited => s

/-- `CapturerPortable::new`. It holds the lock of the memory, and the last slice is not used any
more. -/
def newPortable (s : HandOff) (currentDisplay width height : ℕ) : HandOff :=
  match s.reader with
  | .check => s
  | .idle | .inUse _ =>
    { s with
      memory := { CaptureMemory.zero s.memory.frame.length with
        para := ⟨true, currentDisplay⟩, wouldblock := true }
      reader := .idle
      width := width
      height := height }

/-- The call of `CapturerPortable::frame`, up to `counter_ready`. The last slice is not used any
more. -/
def frame (s : HandOff) : HandOff :=
  match s.reader with
  | .check => s
  | .idle | .inUse _ =>
    let (ready, counter) := counterReady s.memory.counter
    { s with
      memory := { s.memory with counter := counter }
      reader := if ready then .check else .idle }

def isValidCaptureFrameLength (s : HandOff) (frameLen : ℕ) : Bool :=
  frameLen > 0 && frameLen ≤ s.memory.frame.length

/-- The rest of `CapturerPortable::frame`: an error, or the slice. -/
def checkInfo (s : HandOff) : HandOff :=
  match s.reader with
  | .check =>
    let info := s.memory.info
    if !s.isValidCaptureFrameLength info.length then { s with reader := .idle }
    else if info.width != s.width || info.height != s.height then { s with reader := .idle }
    else { s with reader := .inUse info }
  | .idle | .inUse _ => s

end HandOff

inductive HandOffEvent
  /-- A step of `run_capture`. -/
  | writer (new : CapturerNew) (captured : Captured)
  | newPortable (currentDisplay width height : ℕ)
  | frame
  | checkInfo

def handOffStep (s : HandOff) : HandOffEvent → HandOff
  | .writer new captured => s.write new captured
  | .newPortable currentDisplay width height => s.newPortable currentDisplay width height
  | .frame => s.frame
  | .checkInfo => s.checkInfo

def handOff : Machine HandOff HandOffEvent Empty := ⟨fun s e => (handOffStep s e, [])⟩

def HandOff.start (capacity : ℕ) : HandOff := { memory := .zero capacity }

/-! ### What the reader relies on -/

def WritesFrame (s : HandOff) : HandOffEvent → Prop
  | .writer _ _ => ∃ data, s.writer.next = .writeFrame data
  | .newPortable _ _ _ | .frame | .checkInfo => False

/-- The slice that the reader has got with this `FrameInfo` is a frame that was captured, and the
`FrameInfo` is the one of that frame. -/
def Belongs (s : HandOff) (info : FrameInfo) : Prop :=
  (info, s.memory.frame.take info.length) ∈ s.frames

/-- While the reader uses a slice nothing writes to the frame area, and the slice has the bytes of
the frame that the reader has read the `FrameInfo` of. -/
structure Clean (capacity : ℕ) (es : List HandOffEvent) : Prop where
  untouched : ∀ past e info, past ++ [e] <+: es →
    (handOff.run (.start capacity) past).reader = .inUse info →
    ¬ WritesFrame (handOff.run (.start capacity) past) e
  belongs : ∀ past info, past <+: es →
    (handOff.run (.start capacity) past).reader = .inUse info →
    Belongs (handOff.run (.start capacity) past) info

/-- `run_capture` goes on to capture a frame when the reader has let go of the last one, and the
words of the counter are equal, also for the first frame of a capturer. -/
def Waited (s : HandOff) : HandOffEvent → Prop
  | .writer new captured => s.writer.next = .look → (s.write new captured).writer.next = .capture →
      s.reader = .idle ∧ counterEqual s.memory.counter = true
  | .newPortable _ _ _ | .frame | .checkInfo => True

instance (s : HandOff) (e : HandOffEvent) : Decidable (Waited s e) :=
  match e with
  | .writer new captured =>
    inferInstanceAs (Decidable (s.writer.next = .look →
      (s.write new captured).writer.next = .capture → _ ∧ counterEqual s.memory.counter = true))
  | .newPortable _ _ _ | .frame | .checkInfo => inferInstanceAs (Decidable True)

/-! ### One step -/

/-- `run_capture` is past its wait. -/
def WriterStep.Busy : WriterStep → Prop
  | .look | .exited => False
  | .capture | .writeInfo _ | .writeFrame _ | .writeWouldblock | .increaseCounter => True

namespace HandOff

/-- What is in the memory is a frame with its `FrameInfo`, or has none. -/
def Good (s : HandOff) : Prop := s.memory.info.length = 0 ∨ Belongs s s.memory.info

/-- How far a frame has got. `CapturerPortable::new` may have cleared the `FrameInfo` again. -/
def Progress (s : HandOff) : WriterStep → Prop
  | .writeInfo data =>
    (⟨data.length, s.writer.displayWidth, s.writer.displayHeight⟩, data) ∈ s.frames ∧
      data.length ≤ s.memory.frame.length
  | .writeFrame data =>
    (s.memory.info.length = 0 ∨
      (s.memory.info, data) ∈ s.frames ∧ s.memory.info.length = data.length) ∧
      data.length ≤ s.memory.frame.length
  | .writeWouldblock | .increaseCounter => s.Good
  | .look | .capture | .exited => True

/-- While a frame is written the reader has no slice and can get none. What it can get is a frame
with its `FrameInfo`, or nothing that passes its check. -/
structure Inv (s : HandOff) : Prop where
  alone : s.writer.next.Busy →
    s.reader = .idle ∧ s.memory.counter.write = s.memory.counter.read
  progress : s.Progress s.writer.next
  seen : s.memory.counter.write ≠ s.memory.counter.read ∨ s.reader = .check → s.Good
  inUse : ∀ info, s.reader = .inUse info → Belongs s info

variable {s : HandOff}

theorem Inv.start (capacity : ℕ) : Inv (.start capacity) where
  alone h := h.elim
  progress := trivial
  seen := by
    rintro (h | h)
    · exact absurd rfl h
    · cases h
  inUse _ h := nomatch h

theorem take_overwrite (bytes data : List UInt8) : (overwrite bytes data).take data.length = data :=
  List.take_left

variable {writer : Writer}

theorem Inv.backToLook (h : Inv s) (hnext : ¬ writer.next.Busy) :
    Inv { s with writer := writer } where
  alone hbusy := absurd hbusy hnext
  progress := by
    cases hw : writer.next with
    | look | exited => trivial
    | capture | writeInfo _ | writeFrame _ | writeWouldblock | increaseCounter =>
      rw [hw] at hnext
      exact absurd trivial hnext
  seen := h.seen
  inUse := h.inUse

theorem Inv.wouldblock (h : Inv s) (wouldblock : Bool) :
    Inv { s with memory := { s.memory with wouldblock := wouldblock } } where
  alone := h.alone
  progress := h.progress
  seen := h.seen
  inUse := h.inUse

theorem Inv.pass (h : Inv s) {para : CapturerPara} (hnext : writer.next = .capture)
    (hidle : s.reader = .idle) (hequal : s.memory.counter.write = s.memory.counter.read) : Inv
    { s with memory := { s.memory with para := para }, writer := writer } where
  alone _ := ⟨hidle, hequal⟩
  progress := by
    rw [hnext]
    trivial
  seen := h.seen
  inUse := h.inUse

theorem counterEqual_iff (counter : Counters) :
    counterEqual counter = true ↔ counter.write = counter.read := beq_iff_eq

theorem Inv.look (h : Inv s) {new : CapturerNew}
    (hwaited : (s.look new).writer.next = .capture →
      s.reader = .idle ∧ counterEqual s.memory.counter = true)
    (hlook : s.writer.next = .look) : Inv (s.look new) := by
  have hnot : ¬ s.writer.next.Busy := by
    rw [hlook]
    exact not_false
  unfold HandOff.look at hwaited ⊢
  split_ifs at hwaited ⊢ with hnone hrecreate hgoesOn
  · cases new with
    | ok width height =>
      obtain ⟨hidle, hequal⟩ := hwaited rfl
      exact h.pass rfl hidle ((counterEqual_iff _).mp hequal)
    | err width height => exact h.backToLook hnot
    | noDisplay => exact h.backToLook not_false
  · exact h.backToLook hnot
  · obtain ⟨hidle, hequal⟩ := hwaited rfl
    exact h.pass rfl hidle ((counterEqual_iff _).mp hequal)
  · exact h

theorem Inv.capture (h : Inv s) (hcapture : s.writer.next = .capture) (captured : Captured) :
    Inv (s.capture captured) := by
  have hbusy : s.writer.next.Busy := by
    rw [hcapture]
    trivial
  unfold HandOff.capture
  cases captured with
  | pixelBuffer data =>
    dsimp only
    split_ifs with hlen
    · exact h.backToLook not_false
    · -- the frame is a new one, and the others are as before
      have hmem : ∀ {info}, Belongs s info → (info, s.memory.frame.take info.length) ∈ s.frames ++
          [(⟨data.length, s.writer.displayWidth, s.writer.displayHeight⟩, data)] :=
        fun hb => List.mem_append_left _ hb
      exact {
        alone := fun _ => h.alone hbusy
        progress := ⟨List.mem_append_right _ List.mem_cons_self, Nat.le_of_not_lt hlen⟩
        seen := fun hseen => (h.seen hseen).imp_right hmem
        inUse := fun info hinfo => hmem (h.inUse info hinfo) }
  | texture | desktopChanged => exact h.backToLook not_false
  | wouldBlock => exact (h.wouldblock true).backToLook not_false
  | failed =>
    dsimp only
    generalize (if s.writer.capturer = some false then s.writer.dxgiFailedTimes + 1
      else s.writer.dxgiFailedTimes) = failedTimes
    split_ifs
    · exact (h.wouldblock false).backToLook not_false
    · exact h.backToLook not_false

theorem Inv.writeInfo (h : Inv s) {data : List UInt8} (hnext : s.writer.next = .writeInfo data) :
    Inv { s with
      memory := { s.memory with
        info := ⟨data.length, s.writer.displayWidth, s.writer.displayHeight⟩ }
      writer := { s.writer with next := .writeFrame data } } := by
  have hbusy : s.writer.next.Busy := by
    rw [hnext]
    trivial
  obtain ⟨hidle, hequal⟩ := h.alone hbusy
  have hprogress := h.progress
  rw [hnext] at hprogress
  refine ⟨fun _ => ⟨hidle, hequal⟩, ⟨Or.inr ⟨hprogress.1, rfl⟩, hprogress.2⟩, ?_, ?_⟩
  · rintro (hdiffer | hcheck)
    · exact absurd hequal hdiffer
    · cases hidle.symm.trans hcheck
  · intro info hinfo
    cases hidle.symm.trans hinfo

theorem Inv.writeFrame (h : Inv s) {data : List UInt8} (hnext : s.writer.next = .writeFrame data) :
    Inv { s with
      memory := { s.memory with frame := overwrite s.memory.frame data }
      writer := { s.writer with next := .writeWouldblock } } := by
  have hbusy : s.writer.next.Busy := by
    rw [hnext]
    trivial
  obtain ⟨hidle, hequal⟩ := h.alone hbusy
  have hprogress := h.progress
  rw [hnext] at hprogress
  refine ⟨fun _ => ⟨hidle, hequal⟩, ?_, ?_, ?_⟩
  · rcases hprogress.1 with hzero | ⟨hmem, hlen⟩
    · exact Or.inl hzero
    · right
      unfold Belongs
      rw [hlen, take_overwrite]
      exact hmem
  · rintro (hdiffer | hcheck)
    · exact absurd hequal hdiffer
    · cases hidle.symm.trans hcheck
  · intro info hinfo
    cases hidle.symm.trans hinfo

theorem Inv.writeWouldblock (h : Inv s) (hnext : s.writer.next = .writeWouldblock) :
    Inv { s with
      memory := { s.memory with wouldblock := true }
      writer := { s.writer with next := .increaseCounter } } := by
  have hbusy : s.writer.next.Busy := by
    rw [hnext]
    trivial
  have hprogress := h.progress
  rw [hnext] at hprogress
  exact ⟨fun _ => h.alone hbusy, hprogress, h.seen, h.inUse⟩

theorem Inv.increaseCounter (h : Inv s) (hnext : s.writer.next = .increaseCounter)
    (hlook : writer.next = .look) :
    Inv { s with
      memory := { s.memory with counter := increaseCounter s.memory.counter }
      writer := writer } := by
  have hgood := h.progress
  rw [hnext] at hgood
  refine ⟨fun hbusy => ?_, ?_, fun _ => hgood, h.inUse⟩
  · rw [hlook] at hbusy
    exact hbusy.elim
  · rw [hlook]
    trivial

theorem Inv.write (h : Inv s) {new : CapturerNew} {captured : Captured}
    (hwaited : Waited s (.writer new captured)) : Inv (s.write new captured) := by
  unfold Waited at hwaited
  unfold HandOff.write at hwaited ⊢
  cases hnext : s.writer.next with
  | look =>
    rw [hnext] at hwaited
    exact h.look (hwaited rfl) hnext
  | capture => exact h.capture hnext captured
  | writeInfo data => exact h.writeInfo hnext
  | writeFrame data => exact h.writeFrame hnext
  | writeWouldblock => exact h.writeWouldblock hnext
  | increaseCounter => exact h.increaseCounter hnext rfl
  | exited => exact h

theorem Inv.newPortable (h : Inv s) (currentDisplay width height : ℕ) :
    Inv (s.newPortable currentDisplay width height) := by
  have hcleared : ∀ para, Inv { s with
      memory := { CaptureMemory.zero s.memory.frame.length with para := para, wouldblock := true }
      reader := .idle
      width := width
      height := height } := by
    intro para
    refine ⟨fun _ => ⟨rfl, rfl⟩, ?_, fun _ => Or.inl rfl, nofun⟩
    have hprogress := h.progress
    have hlen : (List.replicate s.memory.frame.length (0 : UInt8)).length =
        s.memory.frame.length := List.length_replicate
    cases hnext : s.writer.next with
    | writeInfo data =>
      rw [hnext] at hprogress
      exact ⟨hprogress.1, hlen.symm ▸ hprogress.2⟩
    | writeFrame data =>
      rw [hnext] at hprogress
      exact ⟨Or.inl rfl, hlen.symm ▸ hprogress.2⟩
    | writeWouldblock | increaseCounter => exact Or.inl rfl
    | look | capture | exited => trivial
  unfold HandOff.newPortable
  cases s.reader with
  | check => exact h
  | idle | inUse _ => exact hcleared _

theorem Inv.frame (h : Inv s) : Inv s.frame := by
  have hcall : s.reader ≠ .check → Inv { s with
      memory := { s.memory with counter := (counterReady s.memory.counter).2 }
      reader := if (counterReady s.memory.counter).1 then .check else .idle } := by
    intro hreader
    have hequal : (counterReady s.memory.counter).2.write =
        (counterReady s.memory.counter).2.read := by
      rw [counterReady_snd]
    refine ⟨fun hbusy => ⟨?_, hequal⟩, h.progress, ?_, ?_⟩
    · -- there is nothing new while a frame is written
      have hsame := (h.alone hbusy).2
      exact if_neg fun hready => (counterReady_fst _).mp hready hsame
    · rintro (hdiffer | hcheck)
      · exact absurd hequal hdiffer
      · split_ifs at hcheck with hready
        exact h.seen (Or.inl ((counterReady_fst _).mp hready))
    · intro info hinfo
      split_ifs at hinfo
  unfold HandOff.frame
  cases hreader : s.reader with
  | check => exact h
  | idle | inUse _ => exact hcall (by rw [hreader]; exact Reader.noConfusion)

theorem Inv.checkInfo (h : Inv s) : Inv s.checkInfo := by
  unfold HandOff.checkInfo
  cases hreader : s.reader with
  | idle | inUse _ => exact h
  | check =>
    have hnot : ¬ s.writer.next.Busy := by
      intro hbusy
      cases (h.alone hbusy).1.symm.trans hreader
    have hidle : Inv { s with reader := .idle } := by
      refine ⟨fun hbusy => absurd hbusy hnot, h.progress, ?_, nofun⟩
      rintro (hdiffer | hcheck)
      · exact h.seen (Or.inl hdiffer)
      · cases hcheck
    dsimp only
    split_ifs with hlen hsize
    · exact hidle
    · exact hidle
    · refine ⟨fun hbusy => absurd hbusy hnot, h.progress, ?_, ?_⟩
      · rintro (hdiffer | hcheck)
        · exact h.seen (Or.inl hdiffer)
        · cases hcheck
      · rintro info hinfo
        obtain rfl : s.memory.info = info := by simpa using hinfo
        -- a `FrameInfo` that was cleared does not pass the check
        rcases h.seen (Or.inr hreader) with hzero | hbelongs
        · unfold isValidCaptureFrameLength at hlen
          rw [hzero] at hlen
          simp at hlen
        · exact hbelongs

end HandOff

/-! ### Any steps -/

theorem HandOff.Inv.next {s : HandOff} (h : s.Inv) {e : HandOffEvent} (hwaited : Waited s e) :
    (handOff.next s e).Inv := by
  cases e with
  | writer new captured => exact h.write hwaited
  | newPortable currentDisplay width height => exact h.newPortable currentDisplay width height
  | frame => exact h.frame
  | checkInfo => exact h.checkInfo

/-- **A frame is not written over while it is used**, and it is used with its own `FrameInfo`, in
the runs in which `run_capture` goes on when the reader has let go of the last frame. -/
theorem clean_of_waited {capacity : ℕ} {es : List HandOffEvent}
    (h : handOff.Meets Waited (.start capacity) es) : Clean capacity es := by
  have hinv : ∀ past, past <+: es → (handOff.run (.start capacity) past).Inv := by
    rintro past ⟨rest, rfl⟩
    exact (Machine.meets_append.mp h).1.inv_run (HandOff.Inv.start capacity)
      fun s e hwaited hs => hs.next hwaited
  refine ⟨?_, fun past info hpast => (hinv past hpast).inUse info⟩
  intro past e info hpast hinUse hwrites
  have hs := hinv past ((List.prefix_append past [e]).trans hpast)
  cases e with
  | writer new captured =>
    obtain ⟨data, hdata⟩ := hwrites
    have hidle := (hs.alone (by rw [hdata]; trivial)).1
    cases hidle.symm.trans hinUse
  | newPortable _ _ _ | frame | checkInfo => exact hwrites.elim

/-- `run_capture` waits, captures a frame and writes it. -/
def writes (data : List UInt8) : List HandOffEvent :=
  List.replicate 6 (.writer (.ok 1 1) (.pixelBuffer data))

/-- Two frames of a display with one pixel. The reader has let go of the first one when the second
one comes. -/
def twoFrames : List HandOffEvent :=
  [.newPortable 0 1 1] ++ writes [1, 2, 3, 255] ++ [.frame, .checkInfo, .frame] ++
    writes [4, 5, 6, 255] ++ [.frame, .checkInfo]

theorem clean_twoFrames : Clean 64 twoFrames := clean_of_waited (by decide +kernel)

/-- The second frame comes while the reader uses the first one. -/
def frameInUse : List HandOffEvent :=
  [.newPortable 0 1 1] ++ writes [1, 2, 3, 255] ++ [.frame, .checkInfo] ++ writes [4, 5, 6, 255]

/-- The service finds that the words of the counter are equal, and the slice changes under the
reader. -/
theorem frame_overwritten :
    (handOff.run (.start 64) frameInUse).reader = .inUse ⟨4, 1, 1⟩ ∧
      (handOff.run (.start 64) (frameInUse.take 9)).memory.frame.take 4 = [1, 2, 3, 255] ∧
      (handOff.run (.start 64) frameInUse).memory.frame.take 4 = [4, 5, 6, 255] ∧
      ¬ Clean 64 frameInUse := by
  refine ⟨by decide +kernel, by decide +kernel, by decide +kernel, fun h => ?_⟩
  -- the thirteenth step writes the second frame
  refine h.untouched (frameInUse.take 12) (.writer (.ok 1 1) (.pixelBuffer [4, 5, 6, 255]))
    ⟨4, 1, 1⟩ ⟨frameInUse.drop 13, rfl⟩ (by decide +kernel) ⟨[4, 5, 6, 255], by decide +kernel⟩

end LibRustdesk.Desktop.Portable
