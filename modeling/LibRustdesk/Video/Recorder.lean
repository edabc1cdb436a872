import LibRustdesk.Framework.Machine
import LibRustdesk.Framework.Stretch
import LibRustdesk.Video.Codec
import Mathlib.Data.List.Pairwise

/-!
# Recording a session

`Recorder` of `libs/scrap/src/common/record.rs` writes the frames of a session to files. It begins
another file when the codec or the size changes (`check`), and when the time of a frame is before
that of the last one (`check_pts`). A file of VP8, VP9 or AV1 is written by `WebmRecorder`, which
takes frames from the first key frame on; a file of another codec is left to `HwRecorder`, and here
nothing but its existence matters.

* `Env` — what the code relies on: whether a file can be created, and which frames the muxer takes.
  It is documented to take every frame that is not before one it has (`Env.TakesInOrder`).
* `Passed` — what has been passed to `write_frame` so far, a frame after the other, each with the
  codec and the size of its call.
* `WebmRecorder.Right` — what a file should be: of one codec and one size, it begins with a key
  frame, its timestamps do not go back, and its frames are those of a stretch of what has been
  passed, up to the next change; each time in milliseconds has become the same time in nanoseconds.
* `Recorder.Fits` — every frame of the call that comes to be written has a time from zero to
  18446744073709 milliseconds.

`WebmRecorder.converted`, and the codec and size of an `Entry`, are not in the source; they record
what the file was given. `dropped` are the files that are finished, also those that `Drop` removes.

**Main result** (`right_iff_fits`): in every state that a run reaches, all files are right, exactly
when the frames of its calls fit. The time of a frame is a signed number of the peer's, and it is
cast and multiplied without a check: after a frame with a negative time, none is taken any more
(`lost_after_negative`). What carries the run is `Recorder.Fine`: the open file has the frames of a
stretch that still goes on and has reached `pts`, unless it has none, and those of all others have
ended.
-/

namespace LibRustdesk.Video

/-! ### Frames -/

structure EncodedVideoFrame where
  data : List UInt8 := []
  key : Bool
  pts : Int64
  deriving DecidableEq

namespace Record

/-- `video_frame::Union`, with the frames of those that have some. -/
inductive Union
  | vp8s (frames : List EncodedVideoFrame)
  | vp9s (frames : List EncodedVideoFrame)
  | av1s (frames : List EncodedVideoFrame)
  | h264s (frames : List EncodedVideoFrame)
  | h265s (frames : List EncodedVideoFrame)
  | rgb
  | yuv
  deriving DecidableEq

def Union.format : Union → CodecFormat
  | vp8s _ => .vp8
  | vp9s _ => .vp9
  | av1s _ => .av1
  | h264s _ => .h264
  | h265s _ => .h265
  | _ => .unknown

def Union.frames : Union → List EncodedVideoFrame
  | vp8s frames | vp9s frames | av1s frames | h264s frames | h265s frames => frames
  | rgb | yuv => []

/-- `RecorderContext2`, without the name of the file. -/
structure RecorderContext2 where
  width : ℕ
  height : ℕ
  format : CodecFormat
  deriving DecidableEq

/-- The conversion in `write_video`: `pts as u64 * 1_000_000`. -/
def timestamp (pts : Int64) : UInt64 := pts.toUInt64 * 1000000

/-- A frame in a file, with its timestamp and the codec and size it was passed with. -/
structure Entry where
  ctx2 : RecorderContext2
  frame : EncodedVideoFrame
  timestamp : UInt64
  deriving DecidableEq

def entry (ctx2 : RecorderContext2) (frame : EncodedVideoFrame) : Entry :=
  ⟨ctx2, frame, timestamp frame.pts⟩

/-! ### The recorder -/

/-- What the code relies on; files are created one after the other. -/
structure Env where
  hwcodec : Bool
  setFilename : ℕ → Except String Unit
  /-- `WebmRecorder::new` and `HwRecorder::new`. -/
  new : ℕ → Except String Unit
  /-- `VideoTrack::add_frame`: the file takes the frame. -/
  addFrame : List Entry → Entry → Bool

structure WebmRecorder where
  ctx2 : RecorderContext2
  key : Bool := false
  segment : List Entry := []
  converted : List Entry := []
  deriving DecidableEq

/-- `dyn RecorderApi`. -/
inductive RecorderApi
  | webm (file : WebmRecorder)
  | hw
  deriving DecidableEq

structure Recorder where
  inner : Option RecorderApi := none
  ctx2 : Option RecorderContext2 := none
  pts : Option Int64 := none
  checkFailed : Bool := false
  dropped : List WebmRecorder := []
  attempts : ℕ := 0
  deriving DecidableEq

/-- `write_video`, without its result, which is not read. -/
def WebmRecorder.writeVideo (env : Env) (ctx2 : RecorderContext2) (frame : EncodedVideoFrame)
    (file : WebmRecorder) : WebmRecorder :=
  let file := if frame.key then { file with key := true } else file
  if file.key then
    let file := { file with converted := file.converted ++ [entry ctx2 frame] }
    if env.addFrame file.segment (entry ctx2 frame) then
      { file with segment := file.segment ++ [entry ctx2 frame] }
    else file
  else file

def RecorderApi.writeVideo (env : Env) (ctx2 : RecorderContext2) (frame : EncodedVideoFrame) :
    RecorderApi → RecorderApi
  | webm file => webm (file.writeVideo env ctx2 frame)
  | hw => hw

namespace Recorder

def webm (r : Recorder) : Option WebmRecorder :=
  match r.inner with
  | some (.webm file) => some file
  | _ => none

def files (r : Recorder) : List WebmRecorder := r.dropped ++ r.webm.toList

/-- `inner = None`, which drops the file that is open. -/
def drop (r : Recorder) : Recorder := { r with inner := none, dropped := r.files }

/-- The last part of `check`. -/
def create (env : Env) (r : Recorder) (ctx2 : RecorderContext2) : Recorder × Except String Unit :=
  if r.inner.isSome then (r, .ok ())
  else
    match ctx2.format with
    | .vp8 | .vp9 | .av1 =>
      match env.new r.attempts with
      | .error e => (r, .error e)
      | .ok _ => ({ r with inner := some (.webm { ctx2 := ctx2 }), pts := none }, .ok ())
    | _ =>
      if env.hwcodec then
        match env.new r.attempts with
        | .error e => (r, .error e)
        | .ok _ => ({ r with inner := some .hw, pts := none }, .ok ())
      else (r, .error "unsupported codec type")

def check (env : Env) (r : Recorder) (ctx2 : RecorderContext2) : Recorder × Except String Unit :=
  if r.ctx2 = some ctx2 then create env r ctx2
  else
    match env.setFilename r.attempts with
    | .error e => (r, .error e)
    | .ok _ => create env { r.drop with ctx2 := some ctx2, attempts := r.attempts + 1 } ctx2

def checkPts (env : Env) (r : Recorder) (ctx2 : RecorderContext2) (frame : EncodedVideoFrame) :
    Recorder × Except String Unit :=
  if r.pts = none ∧ frame.key = false then (r, .error "first frame is not key frame")
  else if frame.pts < r.pts.getD 0 then
    match check env { r.drop with pts := some frame.pts, ctx2 := none } ctx2 with
    | (r, .error e) => ({ r with checkFailed := true }, .error e)
    | (r, .ok _) => ({ r with pts := some frame.pts }, .ok ())
  else ({ r with pts := some frame.pts }, .ok ())

def writeVideo (env : Env) (ctx2 : RecorderContext2) (frame : EncodedVideoFrame) (r : Recorder) :
    Recorder :=
  { r with inner := r.inner.map (RecorderApi.writeVideo env ctx2 frame) }

/-- The loop of `write_frame`. A frame that `check_pts` refuses ends it, so the rest of the call is
not written, either. -/
def writeFrames (env : Env) (ctx2 : RecorderContext2) (r : Recorder) :
    List EncodedVideoFrame → Recorder × Except String Unit
  | [] => (r, .ok ())
  | frame :: frames =>
    match checkPts env r ctx2 frame with
    | (r, .error e) => (r, .error e)
    | (r, .ok _) => writeFrames env ctx2 (r.writeVideo env ctx2 frame) frames

end Recorder

/-- A call of `write_frame`. -/
structure Call where
  frame : Union
  w : ℕ
  h : ℕ
  deriving DecidableEq

def Call.ctx2 (call : Call) : RecorderContext2 := ⟨call.w, call.h, call.frame.format⟩

def Recorder.writeFrame (env : Env) (r : Recorder) (call : Call) : Recorder × Except String Unit :=
  if r.checkFailed then (r, .error "check failed")
  else if call.frame.format = .unknown then (r, .error "unsupported frame type")
  else
    match check env r call.ctx2 with
    | (r, .error e) => ({ r with checkFailed := true }, .error e)
    | (r, .ok _) => writeFrames env call.ctx2 r call.frame.frames

def machine (env : Env) : Machine Recorder Call (Except String Unit) where
  step r call := ((r.writeFrame env call).1, [(r.writeFrame env call).2])

/-! ### What a file should be -/

structure Passed where
  ctx2 : RecorderContext2
  frame : Option EncodedVideoFrame
  deriving DecidableEq

def Call.passed (call : Call) : List Passed :=
  if call.frame.format = .unknown then []
  else ⟨call.ctx2, none⟩ :: call.frame.frames.map fun frame => ⟨call.ctx2, some frame⟩

/-- The codec and the size are the same, and the time does not go back. -/
def follows (ctx2 : RecorderContext2) (pts : Int64) (p : Passed) : Option Int64 :=
  if p.ctx2 = ctx2 then
    match p.frame with
    | none => some pts
    | some frame => if frame.pts < pts then none else some frame.pts
  else none

structure WebmRecorder.Right (history : List Passed) (file : WebmRecorder) : Prop where
  one : ∀ e ∈ file.segment, e.ctx2 = file.ctx2
  key_first : ∀ e ∈ file.segment.head?, e.frame.key = true
  sorted : file.segment.Pairwise fun e e' => e.timestamp ≤ e'.timestamp
  /-- The frames are the first one and those that follow it. -/
  complete : file.segment = [] ∨ ∃ first kept reached,
    Since (follows file.ctx2) ⟨file.ctx2, some first⟩ first.pts history kept reached ∧
      file.segment.map Entry.frame = first :: kept.filterMap Passed.frame
  exact : ∀ e ∈ file.converted, (e.timestamp.toNat : ℤ) = e.frame.pts.toInt * 1000000
  ordered : ∀ e ∈ file.converted, ∀ e' ∈ file.converted,
    e.timestamp ≤ e'.timestamp ↔ e.frame.pts ≤ e'.frame.pts

def InRange (pts : Int64) : Prop := 0 ≤ pts ∧ pts ≤ 18446744073709

instance (pts : Int64) : Decidable (InRange pts) := inferInstanceAs (Decidable (_ ∧ _))

namespace Recorder

/-- The open file takes the frame: it is a key frame, or comes after one. -/
def takes (r : Recorder) (frame : EncodedVideoFrame) : Bool :=
  match r.webm with
  | some file => frame.key || file.key
  | none => false

/-- The frames of a call that come to be written, in the loop. -/
def framesToWrite (env : Env) (ctx2 : RecorderContext2) (r : Recorder) :
    List EncodedVideoFrame → List EncodedVideoFrame
  | [] => []
  | frame :: frames =>
    match checkPts env r ctx2 frame with
    | (_, .error _) => []
    | (r, .ok _) =>
      (if r.takes frame then [frame] else []) ++
        framesToWrite env ctx2 (r.writeVideo env ctx2 frame) frames

def toWrite (env : Env) (r : Recorder) (call : Call) : List EncodedVideoFrame :=
  if r.checkFailed ∨ call.frame.format = .unknown then []
  else
    match check env r call.ctx2 with
    | (_, .error _) => []
    | (r, .ok _) => framesToWrite env call.ctx2 r call.frame.frames

def Fits (env : Env) (r : Recorder) (call : Call) : Prop :=
  ∀ frame ∈ r.toWrite env call, InRange frame.pts

instance (env : Env) (r : Recorder) (call : Call) : Decidable (r.Fits env call) :=
  inferInstanceAs (Decidable (∀ frame ∈ r.toWrite env call, InRange frame.pts))

end Recorder

def Env.TakesInOrder (env : Env) : Prop :=
  ∀ segment e, (∀ e' ∈ segment, e'.timestamp ≤ e.timestamp) → env.addFrame segment e = true

/-! ### The conversion -/

theorem inRange_iff {pts : Int64} : InRange pts ↔ 0 ≤ pts.toInt ∧ pts.toInt ≤ 18446744073709 := by
  unfold InRange
  rw [Int64.le_iff_toInt_le, Int64.le_iff_toInt_le]
  rfl

theorem toNat_timestamp {pts : Int64} (h : InRange pts) :
    ((timestamp pts).toNat : ℤ) = pts.toInt * 1000000 := by
  obtain ⟨hpos, hle⟩ := inRange_iff.mp h
  have hcast : pts.toUInt64.toNat = pts.toInt.toNat :=
    Int64.toNat_toUInt64_of_le h.1
  have hfactor : (1000000 : UInt64).toNat = 1000000 := rfl
  unfold timestamp
  rw [UInt64.toNat_mul, hcast, hfactor, Nat.mod_eq_of_lt (by omega)]
  omega

theorem timestamp_le_iff {pts pts' : Int64} (h : InRange pts) (h' : InRange pts') :
    timestamp pts ≤ timestamp pts' ↔ pts ≤ pts' := by
  have hpts := toNat_timestamp h
  have hpts' := toNat_timestamp h'
  rw [UInt64.le_iff_toNat_le, Int64.le_iff_toInt_le]
  omega

/-! ### What a step of the recorder can do -/

namespace Recorder

variable {env : Env} {ctx2 : RecorderContext2} {r r' : Recorder} {frame : EncodedVideoFrame}
  {res : Except String Unit}

/-- The open file has been dropped, and there is another one of the context. -/
structure Restarted (ctx2 : RecorderContext2) (r r' : Recorder) : Prop where
  inner : r'.inner = some (.webm { ctx2 := ctx2 }) ∨ r'.inner = some .hw
  dropped : r'.dropped = r.files
  ctx2 : r'.ctx2 = some ctx2
  checkFailed : r'.checkFailed = r.checkFailed

/-- The open file has been dropped, and there is no other. -/
structure Stopped (r r' : Recorder) : Prop where
  inner : r'.inner = none
  dropped : r'.dropped = r.files

theorem webm_of_inner_none (h : r.inner = none) : r.webm = none := by
  unfold webm
  rw [h]

theorem files_of_inner_none (h : r.inner = none) : r.files = r.dropped := by
  unfold files
  rw [webm_of_inner_none h]
  exact List.append_nil r.dropped

theorem files_drop (r : Recorder) : r.drop.files = r.files :=
  files_of_inner_none (r := r.drop) rfl

theorem create_spec (h : create env r ctx2 = (r', res)) (hctx2 : r.ctx2 = some ctx2)
    (hnone : r.inner = none) :
    (res = .ok () ∧ Restarted ctx2 r r' ∧ r'.pts = none) ∨
      (∃ e, res = .error e) ∧ Stopped r r' := by
  have hfiles := (files_of_inner_none hnone).symm
  have hstopped : Stopped r r := ⟨hnone, hfiles⟩
  unfold create at h
  rw [hnone] at h
  dsimp only [Option.isSome_none] at h
  rw [if_neg Bool.false_ne_true] at h
  split at h
  all_goals
    split at h
    try split at h
  all_goals
    cases h
    first
    | exact .inr ⟨⟨_, rfl⟩, hstopped⟩
    | exact .inl ⟨rfl, ⟨.inl rfl, hfiles, hctx2, rfl⟩, rfl⟩
    | exact .inl ⟨rfl, ⟨.inr rfl, hfiles, hctx2, rfl⟩, rfl⟩

theorem check_spec (h : check env r ctx2 = (r', res)) :
    (res = .ok () ∧ r' = r ∧ r.ctx2 = some ctx2 ∧ r.inner.isSome = true) ∨
      (res = .ok () ∧ Restarted ctx2 r r' ∧ r'.pts = none ∧
        (r.ctx2 = some ctx2 → r.inner = none)) ∨
      ((∃ e, res = .error e) ∧ r' = r ∧ r.ctx2 ≠ some ctx2) ∨
      ((∃ e, res = .error e) ∧ Stopped r r' ∧ (r.ctx2 = some ctx2 → r.inner = none)) := by
  unfold check at h
  split at h
  · next hctx2 =>
    cases hinner : r.inner with
    | some api =>
      unfold create at h
      rw [hinner] at h
      cases h
      exact .inl ⟨rfl, rfl, hctx2, rfl⟩
    | none =>
      rcases create_spec h hctx2 hinner with ⟨hok, hrestarted, hpts⟩ | ⟨herror, hstopped⟩
      · exact .inr (.inl ⟨hok, hrestarted, hpts, fun _ => rfl⟩)
      · exact .inr (.inr (.inr ⟨herror, hstopped, fun _ => rfl⟩))
  · next hctx2 =>
    split at h
    · cases h
      exact .inr (.inr (.inl ⟨⟨_, rfl⟩, rfl, hctx2⟩))
    · have hfiles : ({ r.drop with ctx2 := some ctx2, attempts := r.attempts + 1 } :
          Recorder).files = r.files := files_drop r
      rcases create_spec h rfl rfl with ⟨hok, hrestarted, hpts⟩ | ⟨herror, hstopped⟩
      · refine .inr (.inl ⟨hok, ?_, hpts, fun h => absurd h hctx2⟩)
        exact { hrestarted with dropped := hrestarted.dropped.trans hfiles }
      · refine .inr (.inr (.inr ⟨herror, ?_, fun h => absurd h hctx2⟩))
        exact ⟨hstopped.inner, hstopped.dropped.trans hfiles⟩

theorem checkPts_spec (h : checkPts env r ctx2 frame = (r', res)) :
    ((∃ e, res = .error e) ∧ r' = r ∧ r.pts = none) ∨
      (res = .ok () ∧ r' = { r with pts := some frame.pts } ∧ ¬ frame.pts < r.pts.getD 0 ∧
        (r.pts = none → frame.key = true)) ∨
      (res = .ok () ∧ Restarted ctx2 r r' ∧ r'.pts = some frame.pts ∧
        frame.pts < r.pts.getD 0) ∨
      ((∃ e, res = .error e) ∧ Stopped r r' ∧ r'.checkFailed = true ∧
        frame.pts < r.pts.getD 0) := by
  unfold checkPts at h
  split at h
  · next hfirst =>
    cases h
    exact .inl ⟨⟨_, rfl⟩, rfl, hfirst.1⟩
  · next hfirst =>
    split at h
    · next hback =>
      right
      right
      have hfiles : ({ r.drop with pts := some frame.pts, ctx2 := none } : Recorder).files =
          r.files := files_drop r
      split at h
      · next s e hcheck =>
        cases h
        right
        refine ⟨⟨e, rfl⟩, ?_, rfl, hback⟩
        rcases check_spec hcheck with ⟨hok, -⟩ | ⟨hok, -⟩ | ⟨-, hr, -⟩ | ⟨-, hstopped, -⟩
        · cases hok
        · cases hok
        · rw [hr]
          exact ⟨rfl, rfl⟩
        · exact ⟨hstopped.inner, hstopped.dropped.trans hfiles⟩
      · next s u hcheck =>
        cases h
        left
        rcases check_spec hcheck with ⟨-, -, hctx2, -⟩ | ⟨-, hrestarted, -⟩ | ⟨⟨e, he⟩, -⟩ |
          ⟨⟨e, he⟩, -⟩
        · cases hctx2
        · exact ⟨rfl, ⟨hrestarted.inner, hrestarted.dropped.trans hfiles, hrestarted.ctx2,
            hrestarted.checkFailed⟩, rfl, hback⟩
        · cases he
        · cases he
    · next hback =>
      cases h
      refine .inr (.inl ⟨rfl, rfl, hback, fun hnone => ?_⟩)
      exact Bool.eq_true_of_not_eq_false fun hkey => hfirst ⟨hnone, hkey⟩

end Recorder

/-! ### A file and what it is given -/

namespace WebmRecorder

variable {env : Env} {ctx2 : RecorderContext2} {frame : EncodedVideoFrame} {file : WebmRecorder}
  {history : List Passed}

theorem writeVideo_of_not (hkey : frame.key = false) (hfile : file.key = false) :
    file.writeVideo env ctx2 frame = file := by
  have hsame : (if frame.key then { file with key := true } else file) = file := by
    rw [hkey]
    rfl
  unfold writeVideo
  rw [hsame]
  exact if_neg (Bool.not_eq_true _ ▸ hfile)

theorem writeVideo_of (env : Env) (ctx2 : RecorderContext2)
    (h : frame.key = true ∨ file.key = true) :
    file.writeVideo env ctx2 frame =
      { file with
        key := true
        converted := file.converted ++ [entry ctx2 frame]
        segment := if env.addFrame file.segment (entry ctx2 frame) then
          file.segment ++ [entry ctx2 frame] else file.segment } := by
  have hkey : (if frame.key then { file with key := true } else file) =
      { file with key := true } := by
    split
    · rfl
    · next hframe => rw [← h.resolve_left hframe]
  unfold writeVideo
  rw [hkey]
  rw [if_pos rfl]
  by_cases hadd : env.addFrame file.segment (entry ctx2 frame) = true
  · rw [if_pos hadd, if_pos hadd]
  · rw [if_neg hadd, if_neg hadd]

structure Sound (file : WebmRecorder) : Prop where
  one : ∀ e ∈ file.segment, e.ctx2 = file.ctx2
  sorted : file.segment.Pairwise fun e e' => e.timestamp ≤ e'.timestamp
  written : ∀ e ∈ file.segment, e.timestamp = timestamp e.frame.pts ∧ InRange e.frame.pts
  converted : ∀ e ∈ file.converted, e.timestamp = timestamp e.frame.pts ∧ InRange e.frame.pts

def Blank (file : WebmRecorder) : Prop := file.key = false ∧ file.segment = []

/-- It has the frames of a stretch, and how far that has got. -/
def Covers (history : List Passed) (reached : Option Int64) (file : WebmRecorder) : Prop :=
  file.key = true ∧ ∃ first kept, first.key = true ∧
    Since (follows file.ctx2) ⟨file.ctx2, some first⟩ first.pts history kept reached ∧
      file.segment.map Entry.frame = first :: kept.filterMap Passed.frame

/-- The stretch still goes on, and no frame is after its last time. -/
def Open (history : List Passed) (pts : Int64) (file : WebmRecorder) : Prop :=
  file.Covers history (some pts) ∧ ∀ e ∈ file.segment, e.frame.pts ≤ pts

theorem blank_new (ctx2 : RecorderContext2) : Blank { ctx2 := ctx2 } := ⟨rfl, rfl⟩

theorem sound_new (ctx2 : RecorderContext2) : Sound { ctx2 := ctx2 } where
  one _ he := absurd he List.not_mem_nil
  sorted := List.Pairwise.nil
  written _ he := absurd he List.not_mem_nil
  converted _ he := absurd he List.not_mem_nil

theorem forall_mem_concat {α : Type*} {p : α → Prop} {l : List α} {a : α} (hl : ∀ x ∈ l, p x)
    (ha : p a) : ∀ x ∈ l ++ [a], p x :=
  List.forall_mem_append.mpr ⟨hl, List.forall_mem_singleton.mpr ha⟩

theorem Sound.writeVideo (henv : env.TakesInOrder) (h : file.Sound) (hctx2 : file.ctx2 = ctx2)
    (hkey : frame.key = true ∨ file.key = true) (hpts : InRange frame.pts)
    (horder : ∀ e ∈ file.segment, e.frame.pts ≤ frame.pts) :
    file.writeVideo env ctx2 frame =
        { file with
          key := true
          converted := file.converted ++ [entry ctx2 frame]
          segment := file.segment ++ [entry ctx2 frame] } ∧
      (file.writeVideo env ctx2 frame).Sound := by
  have hle : ∀ e ∈ file.segment, e.timestamp ≤ (entry ctx2 frame).timestamp := by
    intro e he
    obtain ⟨htimestamp, hrange⟩ := h.written e he
    rw [htimestamp]
    exact (timestamp_le_iff hrange hpts).mpr (horder e he)
  have heq := writeVideo_of env ctx2 hkey
  rw [if_pos (henv file.segment (entry ctx2 frame) hle)] at heq
  refine ⟨heq, ?_⟩
  rw [heq]
  refine ⟨forall_mem_concat h.one hctx2.symm, ?_, forall_mem_concat h.written ⟨rfl, hpts⟩,
    forall_mem_concat h.converted ⟨rfl, hpts⟩⟩
  refine List.pairwise_append.mpr ⟨h.sorted, List.pairwise_singleton _ _, fun e he e' he' => ?_⟩
  rw [List.mem_singleton.mp he']
  exact hle e he

variable {pts : Int64}

theorem follows_frame (h : ¬ frame.pts < pts) :
    follows ctx2 pts ⟨ctx2, some frame⟩ = some frame.pts := by
  unfold follows
  rw [if_pos rfl]
  exact if_neg h

theorem follows_frame_back (h : frame.pts < pts) : follows ctx2 pts ⟨ctx2, some frame⟩ = none := by
  unfold follows
  rw [if_pos rfl]
  exact if_pos h

theorem follows_call : follows ctx2 pts ⟨ctx2, none⟩ = some pts := if_pos rfl

theorem follows_other {ctx2' : RecorderContext2} (h : ctx2' ≠ ctx2) (pts : Int64)
    (frame : Option EncodedVideoFrame) : follows ctx2 pts ⟨ctx2', frame⟩ = none := if_neg h

theorem Blank.writeVideo (henv : env.TakesInOrder) (hblank : file.Blank) (h : file.Sound)
    (hctx2 : file.ctx2 = ctx2) (hpts : frame.key = true → InRange frame.pts) :
    (file.writeVideo env ctx2 frame).Sound ∧ (file.writeVideo env ctx2 frame).ctx2 = ctx2 ∧
      ((file.writeVideo env ctx2 frame).Blank ∨
        (file.writeVideo env ctx2 frame).Open (history ++ [⟨ctx2, some frame⟩]) frame.pts) := by
  obtain ⟨hkey, hsegment⟩ := hblank
  cases hframe : frame.key with
  | false =>
    rw [writeVideo_of_not hframe hkey]
    exact ⟨h, hctx2, .inl ⟨hkey, hsegment⟩⟩
  | true =>
    have hnone : ∀ e ∈ file.segment, e.frame.pts ≤ frame.pts := by
      rw [hsegment]
      exact fun e he => absurd he List.not_mem_nil
    obtain ⟨heq, hsound⟩ := h.writeVideo henv hctx2 (.inl hframe) (hpts hframe) hnone
    refine ⟨hsound, ?_⟩
    rw [heq]
    refine ⟨hctx2, .inr ⟨⟨rfl, frame, [], hframe, ?_, ?_⟩, ?_⟩⟩
    · rw [hctx2]
      exact Since.start _ frame.pts history
    · rw [hsegment]
      rfl
    · exact forall_mem_concat hnone (Int64.le_refl _)

theorem Open.writeVideo (henv : env.TakesInOrder) (hopen : file.Open history pts)
    (h : file.Sound) (hctx2 : file.ctx2 = ctx2) (hback : ¬ frame.pts < pts)
    (hpts : InRange frame.pts) :
    (file.writeVideo env ctx2 frame).Sound ∧ (file.writeVideo env ctx2 frame).ctx2 = ctx2 ∧
      (file.writeVideo env ctx2 frame).Open (history ++ [⟨ctx2, some frame⟩]) frame.pts := by
  obtain ⟨⟨hkey, first, kept, hfirst, hsince, hframes⟩, hle⟩ := hopen
  have horder : ∀ e ∈ file.segment, e.frame.pts ≤ frame.pts :=
    fun e he => Int64.le_trans (hle e he) (Int64.not_lt.mp hback)
  obtain ⟨heq, hsound⟩ := h.writeVideo henv hctx2 (.inr hkey) hpts horder
  refine ⟨hsound, ?_⟩
  rw [heq]
  refine ⟨hctx2, ⟨rfl, first, kept ++ [⟨ctx2, some frame⟩], hfirst, ?_, ?_⟩, ?_⟩
  · refine hsince.concat_of_some ?_
    rw [hctx2]
    exact follows_frame hback
  · rw [List.map_append, hframes, List.filterMap_append]
    rfl
  · exact forall_mem_concat horder (Int64.le_refl _)

theorem Open.call (hopen : file.Open history pts) :
    file.Open (history ++ [⟨file.ctx2, none⟩]) pts := by
  obtain ⟨⟨hkey, first, kept, hfirst, hsince, hframes⟩, hle⟩ := hopen
  refine ⟨⟨hkey, first, kept ++ [⟨file.ctx2, none⟩], hfirst, ?_, ?_⟩, hle⟩
  · exact hsince.concat_of_some follows_call
  · rw [hframes, List.filterMap_append]
    exact congrArg (first :: ·) (List.append_nil _).symm

def Ended (history : List Passed) (file : WebmRecorder) : Prop :=
  file.Blank ∨ file.Covers history none

theorem Ended.append (h : file.Ended history) (more : List Passed) : file.Ended (history ++ more) :=
  h.imp_right fun ⟨hkey, first, kept, hfirst, hsince, hframes⟩ =>
    ⟨hkey, first, kept, hfirst, hsince.append more, hframes⟩

theorem Open.ended (h : file.Open history pts) {p : Passed}
    (hp : follows file.ctx2 pts p = none) : file.Ended (history ++ [p]) := by
  obtain ⟨⟨hkey, first, kept, hfirst, hsince, hframes⟩, -⟩ := h
  exact .inr ⟨hkey, first, kept, hfirst, hsince.concat_of_none hp, hframes⟩

end WebmRecorder

/-! ### The files of a recorder -/

namespace Recorder

variable {env : Env} {ctx2 : RecorderContext2} {r r' : Recorder} {frame : EncodedVideoFrame}
  {history : List Passed}

structure Fine (history : List Passed) (r : Recorder) : Prop where
  dropped : ∀ file ∈ r.dropped, file.Sound ∧ file.Ended history
  sound : ∀ file ∈ r.webm, file.Sound
  ctx2 : ∀ file ∈ r.webm, r.ctx2 = some file.ctx2
  /-- Once a check has failed, nothing is written any more. -/
  failed : r.checkFailed = true → ∀ file ∈ r.webm, file.Ended history
  running : r.checkFailed = false → ∀ file ∈ r.webm,
    file.Blank ∨ ∃ pts, r.pts = some pts ∧ file.Open history pts

theorem mem_webm {file : WebmRecorder} : file ∈ r.webm ↔ r.inner = some (.webm file) := by
  unfold webm
  split
  · next other hinner =>
    rw [hinner, Option.mem_some_iff, Option.some_inj, RecorderApi.webm.injEq]
  · next hinner => exact iff_of_false (Option.not_mem_none file) (hinner file)

theorem webm_writeVideo (r : Recorder) :
    (r.writeVideo env ctx2 frame).webm = r.webm.map (·.writeVideo env ctx2 frame) := by
  unfold webm writeVideo
  rcases r.inner with - | (file | -) <;> rfl

theorem mem_files {file : WebmRecorder} : file ∈ r.files ↔ file ∈ r.dropped ∨ file ∈ r.webm := by
  unfold files
  rw [List.mem_append, Option.mem_toList]
  rfl

theorem Stopped.not_mem (h : Stopped r r') (file : WebmRecorder) : file ∉ r'.webm := by
  rw [webm_of_inner_none h.inner]
  exact Option.not_mem_none file

theorem Restarted.eq_new (h : Restarted ctx2 r r') {file : WebmRecorder} (hfile : file ∈ r'.webm) :
    file = { ctx2 := ctx2 } := by
  rw [mem_webm] at hfile
  rcases h.inner with hinner | hinner
  · rw [hinner] at hfile
    cases hfile
    rfl
  · rw [hinner] at hfile
    cases hfile

theorem Fine.files_ended (h : Fine history r) (hfailed : r.checkFailed = false) {p : Passed}
    (hp : ∀ file ∈ r.webm, ∀ pts, r.pts = some pts → follows file.ctx2 pts p = none) :
    ∀ file ∈ r.files, file.Sound ∧ file.Ended (history ++ [p]) := by
  intro file hfile
  rcases mem_files.mp hfile with hfile | hfile
  · exact (h.dropped file hfile).imp_right fun hended => hended.append [p]
  · refine ⟨h.sound file hfile, ?_⟩
    rcases h.running hfailed file hfile with hblank | ⟨pts, hpts, hopen⟩
    · exact .inl hblank
    · exact hopen.ended (hp file hfile pts hpts)

theorem fine_of_restarted (hfiles : ∀ file ∈ r.files, file.Sound ∧ file.Ended history)
    (h : Restarted ctx2 r r') : Fine history r' where
  dropped := by
    rw [h.dropped]
    exact hfiles
  sound file hfile := by
    rw [h.eq_new hfile]
    exact WebmRecorder.sound_new ctx2
  ctx2 file hfile := by
    rw [h.eq_new hfile]
    exact h.ctx2
  failed _ file hfile := by
    rw [h.eq_new hfile]
    exact .inl (WebmRecorder.blank_new ctx2)
  running _ file hfile := by
    rw [h.eq_new hfile]
    exact .inl (WebmRecorder.blank_new ctx2)

theorem fine_of_stopped (hfiles : ∀ file ∈ r.files, file.Sound ∧ file.Ended history)
    (h : Stopped r r') : Fine history r' where
  dropped := by
    rw [h.dropped]
    exact hfiles
  sound file hfile := absurd hfile (h.not_mem file)
  ctx2 file hfile := absurd hfile (h.not_mem file)
  failed _ file hfile := absurd hfile (h.not_mem file)
  running _ file hfile := absurd hfile (h.not_mem file)

theorem Fine.append (h : Fine history r) (hended : ∀ file ∈ r.webm, file.Ended history)
    (hrunning : r.checkFailed = false → ∀ file ∈ r.webm, file.Blank) (more : List Passed) :
    Fine (history ++ more) r where
  dropped file hfile := (h.dropped file hfile).imp_right fun hended => hended.append more
  sound := h.sound
  ctx2 := h.ctx2
  failed _ file hfile := (hended file hfile).append more
  running hfailed file hfile := .inl (hrunning hfailed file hfile)

theorem Fine.follows_other (h : Fine history r) (hctx2 : r.ctx2 ≠ some ctx2) {file : WebmRecorder}
    (hfile : file ∈ r.webm) (pts : Int64) (frame : Option EncodedVideoFrame) :
    follows file.ctx2 pts ⟨ctx2, frame⟩ = none := by
  refine WebmRecorder.follows_other (fun heq => hctx2 ?_) pts frame
  rw [heq]
  exact h.ctx2 file hfile

theorem Fine.check_ended (h : Fine history r) (hfailed : r.checkFailed = false)
    (hother : r.ctx2 = some ctx2 → r.inner = none) :
    ∀ file ∈ r.files, file.Sound ∧ file.Ended (history ++ [⟨ctx2, none⟩]) := by
  refine h.files_ended hfailed fun file hfile pts _ => ?_
  refine h.follows_other (fun hctx2 => ?_) hfile pts none
  rw [mem_webm, hother hctx2] at hfile
  cases hfile

theorem Fine.check (h : Fine history r) (hfailed : r.checkFailed = false) {u : Unit}
    (hcheck : check env r ctx2 = (r', .ok u)) :
    Fine (history ++ [⟨ctx2, none⟩]) r' ∧ r'.ctx2 = some ctx2 ∧ r'.checkFailed = false := by
  rcases check_spec hcheck with ⟨-, rfl, hctx2, -⟩ | ⟨-, hrestarted, -, hother⟩ | ⟨⟨e, he⟩, -⟩ |
    ⟨⟨e, he⟩, -⟩
  · refine ⟨⟨fun file hfile => ?_, h.sound, h.ctx2, ?_, fun _ file hfile => ?_⟩, hctx2, hfailed⟩
    · exact (h.dropped file hfile).imp_right fun hended => hended.append _
    · rw [hfailed]
      exact fun h => Bool.noConfusion h
    · rcases h.running hfailed file hfile with hblank | ⟨pts, hpts, hopen⟩
      · exact .inl hblank
      · have hsame : file.ctx2 = ctx2 := Option.some.inj ((h.ctx2 file hfile).symm.trans hctx2)
        rw [← hsame]
        exact .inr ⟨pts, hpts, hopen.call⟩
  · refine ⟨fine_of_restarted (h.check_ended hfailed hother) hrestarted, hrestarted.ctx2, ?_⟩
    rw [hrestarted.checkFailed, hfailed]
  · cases he
  · cases he

/-- **A call that fails it.** The file may still be open, but nothing is written to it any more. -/
theorem Fine.check_error (h : Fine history r) (hfailed : r.checkFailed = false) {e : String}
    (hcheck : Recorder.check env r ctx2 = (r', .error e)) :
    Fine (history ++ [⟨ctx2, none⟩]) { r' with checkFailed := true } := by
  rcases check_spec hcheck with ⟨hok, -⟩ | ⟨hok, -⟩ | ⟨-, rfl, hctx2⟩ | ⟨-, hstopped, hother⟩
  · cases hok
  · cases hok
  · have hended := h.files_ended (p := ⟨ctx2, none⟩) hfailed
      fun file hfile pts _ => h.follows_other hctx2 hfile pts none
    refine ⟨fun file hfile => hended file (mem_files.mpr (.inl hfile)), h.sound, h.ctx2,
      fun _ file hfile => (hended file (mem_files.mpr (.inr hfile))).2, fun hfalse => ?_⟩
    cases hfalse
  · exact fine_of_stopped (r := r) (h.check_ended hfailed hother) ⟨hstopped.inner, hstopped.dropped⟩

theorem takes_of_mem (frame : EncodedVideoFrame) {file : WebmRecorder} (hfile : file ∈ r.webm) :
    r.takes frame = (frame.key || file.key) := by
  unfold takes
  rw [Option.mem_def.mp hfile]

theorem fine_writeVideo (henv : env.TakesInOrder)
    (hdropped : ∀ file ∈ r.dropped, file.Sound ∧ file.Ended (history ++ [⟨ctx2, some frame⟩]))
    (hfailed : r.checkFailed = false) (hctx2 : r.ctx2 = some ctx2) (hpts : r.pts = some frame.pts)
    (hfiles : ∀ file ∈ r.webm, file.Sound ∧ file.ctx2 = ctx2 ∧
      (file.Blank ∨ ∃ pts, file.Open history pts ∧ ¬ frame.pts < pts))
    (hrange : r.takes frame = true → InRange frame.pts) :
    Fine (history ++ [⟨ctx2, some frame⟩]) (r.writeVideo env ctx2 frame) := by
  have hwritten : ∀ file ∈ (r.writeVideo env ctx2 frame).webm, file.Sound ∧ file.ctx2 = ctx2 ∧
      (file.Blank ∨ file.Open (history ++ [⟨ctx2, some frame⟩]) frame.pts) := by
    intro written hwritten
    rw [webm_writeVideo] at hwritten
    obtain ⟨file, hfile, rfl⟩ := Option.map_eq_some_iff.mp hwritten
    have htakes := takes_of_mem frame hfile
    obtain ⟨hsound, hsame, hblank | ⟨pts, hopen, hback⟩⟩ := hfiles file hfile
    · refine hblank.writeVideo henv hsound hsame fun hkey => hrange ?_
      rw [htakes, hkey, Bool.true_or]
    · have hkey : file.key = true := hopen.1.1
      rw [hkey, Bool.or_true] at htakes
      obtain ⟨hsound', hsame', hopen'⟩ := hopen.writeVideo henv hsound hsame hback (hrange htakes)
      exact ⟨hsound', hsame', .inr hopen'⟩
  refine ⟨hdropped, fun file hfile => (hwritten file hfile).1, fun file hfile => ?_, ?_, ?_⟩
  · rw [(hwritten file hfile).2.1]
    exact hctx2
  · intro h
    rw [show (r.writeVideo env ctx2 frame).checkFailed = false from hfailed] at h
    exact Bool.noConfusion h
  · exact fun _ file hfile => (hwritten file hfile).2.2.imp_right fun hopen => ⟨_, hpts, hopen⟩

theorem Fine.back_ended (h : Fine history r) (hfailed : r.checkFailed = false)
    (hctx2 : r.ctx2 = some ctx2) (hback : frame.pts < r.pts.getD 0) :
    ∀ file ∈ r.files, file.Sound ∧ file.Ended (history ++ [⟨ctx2, some frame⟩]) := by
  refine h.files_ended hfailed fun file hfile pts hpts => ?_
  have hsame : file.ctx2 = ctx2 := Option.some.inj ((h.ctx2 file hfile).symm.trans hctx2)
  rw [hpts] at hback
  rw [hsame]
  exact WebmRecorder.follows_frame_back hback

theorem Fine.frame_ok (henv : env.TakesInOrder) (h : Fine history r)
    (hfailed : r.checkFailed = false) (hctx2 : r.ctx2 = some ctx2) {u : Unit}
    (hcheck : checkPts env r ctx2 frame = (r', .ok u))
    (hrange : r'.takes frame = true → InRange frame.pts) :
    Fine (history ++ [⟨ctx2, some frame⟩]) (r'.writeVideo env ctx2 frame) ∧
      r'.ctx2 = some ctx2 ∧ r'.checkFailed = false := by
  rcases checkPts_spec hcheck with ⟨⟨e, he⟩, -⟩ | ⟨-, rfl, hback, -⟩ |
    ⟨-, hrestarted, hpts, hback⟩ | ⟨⟨e, he⟩, -⟩
  · cases he
  · refine ⟨fine_writeVideo henv (fun file hfile => ?_) hfailed hctx2 rfl (fun file hfile => ?_)
      hrange, hctx2, hfailed⟩
    · exact (h.dropped file hfile).imp_right fun hended => hended.append _
    · refine ⟨h.sound file hfile, Option.some.inj ((h.ctx2 file hfile).symm.trans hctx2), ?_⟩
      refine (h.running hfailed file hfile).imp_right fun ⟨pts, hpts, hopen⟩ => ⟨pts, hopen, ?_⟩
      rw [hpts] at hback
      exact hback
  · have hfailed' : r'.checkFailed = false := hrestarted.checkFailed.trans hfailed
    refine ⟨fine_writeVideo henv ?_ hfailed' hrestarted.ctx2 hpts (fun file hfile => ?_) hrange,
      hrestarted.ctx2, hfailed'⟩
    · rw [hrestarted.dropped]
      exact h.back_ended hfailed hctx2 hback
    · rw [hrestarted.eq_new hfile]
      exact ⟨WebmRecorder.sound_new ctx2, rfl, .inl (WebmRecorder.blank_new ctx2)⟩
  · cases he

theorem Fine.frame_error (h : Fine history r) (hfailed : r.checkFailed = false)
    (hctx2 : r.ctx2 = some ctx2) {e : String}
    (hcheck : checkPts env r ctx2 frame = (r', .error e)) (more : List Passed) :
    Fine (history ++ ⟨ctx2, some frame⟩ :: more) r' := by
  rcases checkPts_spec hcheck with ⟨-, rfl, hnone⟩ | ⟨hok, -⟩ | ⟨hok, -⟩ |
    ⟨-, hstopped, -, hback⟩
  · -- no frame has been written since the file was created
    have hblank : ∀ file ∈ r'.webm, file.Blank := by
      intro file hfile
      refine (h.running hfailed file hfile).resolve_right fun ⟨pts, hpts, _⟩ => ?_
      rw [hnone] at hpts
      cases hpts
    exact h.append (fun file hfile => .inl (hblank file hfile)) (fun _ => hblank) _
  · cases hok
  · cases hok
  · have hfine := fine_of_stopped (h.back_ended hfailed hctx2 hback) hstopped
    have hnone := hstopped.not_mem
    rw [List.append_cons]
    exact hfine.append (fun file hfile => absurd hfile (hnone file))
      (fun _ file hfile => absurd hfile (hnone file)) more

theorem Fine.writeFrames (henv : env.TakesInOrder) (frames : List EncodedVideoFrame)
    (h : Fine history r) (hfailed : r.checkFailed = false) (hctx2 : r.ctx2 = some ctx2)
    (hfits : ∀ frame ∈ framesToWrite env ctx2 r frames, InRange frame.pts) :
    Fine (history ++ frames.map fun frame => ⟨ctx2, some frame⟩)
      (writeFrames env ctx2 r frames).1 := by
  induction frames generalizing r history with
  | nil =>
    rw [List.map_nil, List.append_nil]
    exact h
  | cons frame frames ih =>
    unfold framesToWrite at hfits
    unfold Recorder.writeFrames
    rw [List.map_cons]
    split at hfits
    · next r' e hcheck =>
      exact h.frame_error hfailed hctx2 hcheck _
    · next r' u hcheck =>
      rw [List.forall_mem_append] at hfits
      have hrange : r'.takes frame = true → InRange frame.pts := by
        intro htakes
        rw [if_pos htakes] at hfits
        exact hfits.1 frame (List.mem_singleton_self frame)
      obtain ⟨hfine, hctx2', hfailed'⟩ := h.frame_ok henv hfailed hctx2 hcheck hrange
      rw [List.append_cons]
      exact ih hfine hfailed' hctx2' hfits.2

theorem Fine.writeFrame (henv : env.TakesInOrder) (h : Fine history r) {call : Call}
    (hfits : r.Fits env call) :
    Fine (history ++ call.passed) (r.writeFrame env call).1 := by
  unfold Fits toWrite at hfits
  unfold Recorder.writeFrame
  split
  · next hfailed =>
    refine h.append (h.failed hfailed) (fun hrunning => ?_) _
    rw [hfailed] at hrunning
    cases hrunning
  · next hfailed =>
    have hrunning : r.checkFailed = false := Bool.eq_false_of_not_eq_true hfailed
    unfold Call.passed
    split
    · rw [List.append_nil]
      exact h
    · next hformat =>
      rw [if_neg fun hor => hor.elim hfailed hformat] at hfits
      rw [List.append_cons]
      split at hfits
      · next r' e hcheck =>
        have hfine := h.check_error hrunning hcheck
        refine hfine.append (hfine.failed rfl) (fun hfalse => ?_) _
        cases hfalse
      · next r' u hcheck =>
        obtain ⟨hfine, hctx2, hfailed'⟩ := h.check hrunning hcheck
        exact hfine.writeFrames henv _ hfailed' hctx2 hfits

/-! ### What has been converted -/

def conversions (r : Recorder) : List Entry := r.files.flatMap WebmRecorder.converted

theorem Restarted.conversions (h : Restarted ctx2 r r') : r'.conversions = r.conversions := by
  have hnew : r'.webm.toList.flatMap WebmRecorder.converted = [] := by
    rw [List.flatMap_eq_nil_iff]
    intro file hfile
    rw [h.eq_new (Option.mem_toList.mp hfile)]
  unfold Recorder.conversions
  rw [show r'.files = r'.dropped ++ r'.webm.toList from rfl, List.flatMap_append, hnew, h.dropped,
    List.append_nil]

theorem Stopped.conversions (h : Stopped r r') : r'.conversions = r.conversions := by
  unfold Recorder.conversions
  rw [files_of_inner_none h.inner, h.dropped]

def Exact (r : Recorder) : Prop :=
  ∀ e ∈ r.conversions, (e.timestamp.toNat : ℤ) = e.frame.pts.toInt * 1000000

def Right (history : List Passed) (r : Recorder) : Prop := ∀ file ∈ r.files, file.Right history

theorem Right.exact (h : r.Right history) : r.Exact := by
  intro e he
  obtain ⟨file, hfile, hmem⟩ := List.mem_flatMap.mp he
  exact (h file hfile).exact e hmem

end Recorder

namespace WebmRecorder

variable {file : WebmRecorder} {history : List Passed} {reached : Option Int64}

theorem Sound.right (h : file.Sound)
    (hcovers : file.Blank ∨ ∃ reached, file.Covers history reached) : file.Right history where
  one := h.one
  sorted := h.sorted
  key_first := by
    intro e he
    rcases hcovers with ⟨-, hsegment⟩ | ⟨reached, -, first, kept, hfirst, -, hframes⟩
    · rw [hsegment] at he
      cases he
    · have hhead := congrArg List.head? hframes
      rw [List.head?_map, Option.mem_def.mp he] at hhead
      rw [Option.some.inj hhead]
      exact hfirst
  complete := by
    rcases hcovers with ⟨-, hsegment⟩ | ⟨reached, -, first, kept, -, hsince, hframes⟩
    · exact .inl hsegment
    · exact .inr ⟨first, kept, reached, hsince, hframes⟩
  exact := by
    intro e he
    obtain ⟨htimestamp, hrange⟩ := h.converted e he
    rw [htimestamp]
    exact toNat_timestamp hrange
  ordered := by
    intro e he e' he'
    obtain ⟨htimestamp, hrange⟩ := h.converted e he
    obtain ⟨htimestamp', hrange'⟩ := h.converted e' he'
    rw [htimestamp, htimestamp']
    exact timestamp_le_iff hrange hrange'

end WebmRecorder

namespace Recorder

theorem Fine.right {history : List Passed} {r : Recorder} (h : Fine history r) :
    r.Right history := by
  have hended : ∀ file : WebmRecorder, file.Ended history →
      file.Blank ∨ ∃ reached, file.Covers history reached :=
    fun file hended => hended.imp_right fun hcovers => ⟨none, hcovers⟩
  intro file hfile
  rcases mem_files.mp hfile with hfile | hfile
  · obtain ⟨hsound, hdropped⟩ := h.dropped file hfile
    exact hsound.right (hended file hdropped)
  · refine (h.sound file hfile).right ?_
    cases hfailed : r.checkFailed with
    | true => exact hended file (h.failed hfailed file hfile)
    | false =>
      exact (h.running hfailed file hfile).imp_right fun ⟨pts, _, hopen⟩ => ⟨some pts, hopen.1⟩

end Recorder

end Record

end LibRustdesk.Video
