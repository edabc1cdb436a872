import LibRustdesk.Bridge.Events
import LibRustdesk.Framework.Latest

/-!
# The bridge's frame caches

The two caches from which the application takes frames, of
`rustdesk-master/src/harmony_bridge/core.rs`: `LATEST_VIDEO_FRAME`, of the session, and
`INCOMING_SCREEN_FRAME`, of the screen that is shared. The application asks for the metadata of
a frame beyond the last one it has seen, and then for the bytes under the `frameId` of the metadata.

The number of a frame is one more than that of the frame in the cache, and one where the cache is
empty. `session_start`, `session_reconnect`, `clear_incoming_screen_frame` and `main_start_service`
empty a cache, so the numbers start again, while the application keeps the ones it has seen.

* `caches` — the two caches under every operation that reads or writes them, in any order.
* `Sound` — the bytes under a number are those of the frame that was described under it, and
  the latest frame is described to whoever asks with the largest number it has seen.
* `frames_identified` — **the numbers identify the frames** in every run where no frame comes
  into a cache that was emptied after an earlier one.
-/

namespace LibRustdesk

namespace Bridge

/-! ### The caches -/

def saturatingMul (a b : UInt64) : UInt64 :=
  UInt64.ofNat (min (a.toNat * b.toNat) 18446744073709551615)

/-- `u64::saturating_add` of one. -/
def saturatingSucc (a : UInt64) : UInt64 := if a = 18446744073709551615 then a else a + 1

structure VideoFrameState where
  frameId : UInt64
  display : Int32
  width : UInt64
  height : UInt64
  stride : UInt64
  bytes : List UInt8
  timestamp : Int64
  format : List Char
deriving DecidableEq

structure IncomingScreenFrameState where
  frameId : UInt64
  width : UInt64
  height : UInt64
  stride : UInt64
  dataLength : UInt64
  bytes : List UInt8
  timestamp : Int64
  format : List Char
  framesSeen : UInt64
deriving DecidableEq

/-! ### The session's frames -/

inductive ImageFormat
  | raw
  | abgr
  | argb

structure ImageRgb where
  raw : List UInt8
  w : UInt64
  h : UInt64
  fmt : ImageFormat
  align : UInt64

/-- The frame that `publish_real_video_frame` puts into the cache; there is none where the image is
empty. -/
def publishRealVideoFrame (cache : Option VideoFrameState) (display : Int32) (rgba : ImageRgb)
    (now : Option ℕ) : Option VideoFrameState :=
  if rgba.w = 0 ∨ rgba.h = 0 ∨ rgba.raw = [] then none
  else
    -- a release build: the sum wraps
    let nextFrameId := match cache with
      | some frame => frame.frameId + 1
      | none => 1
    let format := match rgba.fmt with
      | .abgr => "abgr".toList
      | .argb => "argb".toList
      | .raw => "bgra".toList
    let stride := if 0 < rgba.align then rgba.align else rgba.w * 4
    some
      { frameId   := nextFrameId
        display   := display
        width     := rgba.w
        height    := rgba.h
        stride    := stride
        bytes     := rgba.raw
        timestamp := currentTimestampMillis now
        format    := format }

/-- The JSON object that describes a frame of the session. -/
structure VideoFrameMetadata where
  frameId : UInt64
  display : Int32
  width : UInt64
  height : UInt64
  stride : UInt64
  bytes : ℕ
  timestamp : Int64
  format : List Char
deriving DecidableEq

def VideoFrameState.metadata (frame : VideoFrameState) : VideoFrameMetadata where
  frameId   := frame.frameId
  display   := frame.display
  width     := frame.width
  height    := frame.height
  stride    := frame.stride
  bytes     := frame.bytes.length
  timestamp := frame.timestamp
  format    := frame.format

/-- The metadata of a frame; `none` for the empty object. -/
def getLatestVideoFrameMetadata (cache : Option VideoFrameState) (sinceFrameId : UInt64) :
    Option VideoFrameMetadata :=
  match cache with
  | none => none
  | some frame => if frame.frameId ≤ sinceFrameId then none else some frame.metadata

/-- What a copy returns, cast to `c_int`, and what it leaves in the buffer. -/
def copyFrom (bytes buffer : List UInt8) : Int32 × List UInt8 :=
  (Int32.ofNat bytes.length, bytes ++ buffer.drop bytes.length)

def copyLatestVideoFrame (cache : Option VideoFrameState) (frameId : UInt64)
    (buffer : List UInt8) : Int32 × List UInt8 :=
  match cache with
  | none => (0, buffer)
  | some frame =>
    if frame.frameId ≠ frameId ∨ buffer.length < frame.bytes.length then (0, buffer)
    else copyFrom frame.bytes buffer

/-! ### The frames of the shared screen -/

/-- Whether the capturer of `scrap` takes the frame. -/
def updateOhosIncomingFrame (frameId width height stride : UInt64) (data : List UInt8) : Bool :=
  if frameId = 0 ∨ width = 0 ∨ height = 0 ∨ stride < saturatingMul width 4 then false
  else
    let expectedLen := saturatingMul stride height
    !(expectedLen == 0 || decide (data.length < expectedLen.toNat))

/-- The frame that `update_incoming_screen_frame` puts into the cache, where it accepts one. `ohos`
tells the target. -/
def updateIncomingScreenFrame (ohos : Bool) (cache : Option IncomingScreenFrameState)
    (width height stride : Int32) (timestamp : Int64) (format : List Char) (data : List UInt8) :
    Option IncomingScreenFrameState :=
  if width ≤ 0 ∨ height ≤ 0 ∨ stride ≤ 0 ∨ data = [] then none
  else
    let width := width.toInt64.toUInt64
    let height := height.toInt64.toUInt64
    let stride := stride.toInt64.toUInt64
    let minLen := saturatingMul stride height
    if minLen = 0 ∨ data.length < minLen.toNat then none
    else
      let normalizedFormat := if trim format = [] then "RGBA".toList else trim format
      let (frameId, framesSeen) := match cache with
        | some frame => (saturatingSucc frame.frameId, saturatingSucc frame.framesSeen)
        | none => (1, 1)
      let nextFrame : IncomingScreenFrameState :=
        { frameId    := frameId
          width      := width
          height     := height
          stride     := stride
          dataLength := minLen
          bytes      := data.take minLen.toNat
          timestamp  := timestamp
          format     := normalizedFormat
          framesSeen := framesSeen }
      if ohos && !updateOhosIncomingFrame frameId width height stride nextFrame.bytes then none
      else some nextFrame

/-- The JSON object that describes a frame of the shared screen. -/
structure IncomingScreenFrameMetadata where
  frameId : UInt64
  width : UInt64
  height : UInt64
  stride : UInt64
  bytes : UInt64
  payloadBytes : ℕ
  hasPayload : Bool
  timestamp : Int64
  format : List Char
  framesSeen : UInt64
deriving DecidableEq

def IncomingScreenFrameState.metadata (frame : IncomingScreenFrameState) :
    IncomingScreenFrameMetadata where
  frameId      := frame.frameId
  width        := frame.width
  height       := frame.height
  stride       := frame.stride
  bytes        := frame.dataLength
  payloadBytes := frame.bytes.length
  hasPayload   := !frame.bytes.isEmpty
  timestamp    := frame.timestamp
  format       := frame.format
  framesSeen   := frame.framesSeen

def getIncomingScreenFrameMetadata (cache : Option IncomingScreenFrameState)
    (sinceFrameId : UInt64) : Option IncomingScreenFrameMetadata :=
  match cache with
  | none => none
  | some frame => if frame.frameId ≤ sinceFrameId then none else some frame.metadata

def copyIncomingScreenFrame (cache : Option IncomingScreenFrameState) (frameId : UInt64)
    (buffer : List UInt8) : Int32 × List UInt8 :=
  match cache with
  | none => (0, buffer)
  | some frame =>
    if frame.frameId ≠ frameId ∨ frame.bytes = [] ∨ buffer.length < frame.bytes.length then
      (0, buffer)
    else copyFrom frame.bytes buffer

/-! ### The caches in a run -/

/-- The caches, with the frames that were ever in them and what the pollers were told. -/
structure Caches where
  video : Slot VideoFrameState ℕ
  incoming : Slot IncomingScreenFrameState ℕ

inductive FrameEvent
  | publishRealVideoFrame (display : Int32) (rgba : ImageRgb) (now : Option ℕ)
  | sessionStart
  | sessionReconnect (activeSession : Bool) (activePeerId : List Char)
  | getLatestVideoFrameMetadata (poller : ℕ) (sinceFrameId : UInt64)
  | copyLatestVideoFrame (frameId : UInt64) (buffer : List UInt8)
  | updateIncomingScreenFrame (width height stride : Int32) (timestamp : Int64)
      (format : List Char) (data : List UInt8)
  | clearIncomingScreenFrame
  /-- It clears the cache where it starts the service, and where it stops it. -/
  | mainStartService (enabled : Bool)
  | getIncomingScreenFrameMetadata (poller : ℕ) (sinceFrameId : UInt64)
  | copyIncomingScreenFrame (frameId : UInt64) (buffer : List UInt8)

inductive FrameAnswer
  | videoMetadata (metadata : Option VideoFrameMetadata)
  | incomingMetadata (metadata : Option IncomingScreenFrameMetadata)
  | updated (accepted : Bool)
  | copied (written : Int32 × List UInt8)

namespace Caches

def start : Caches := ⟨Slot.empty, Slot.empty⟩

def step (ohos : Bool) (s : Caches) : FrameEvent → Caches × List FrameAnswer
  | .publishRealVideoFrame display rgba now =>
    match Bridge.publishRealVideoFrame s.video.current display rgba now with
    | some frame => ({ s with video := s.video.put frame }, [])
    | none => (s, [])
  | .sessionStart => ({ s with video := s.video.clear }, [])
  | .sessionReconnect activeSession activePeerId =>
    if activeSession = true ∧ trim activePeerId ≠ [] then ({ s with video := s.video.clear }, [])
    else (s, [])
  | .getLatestVideoFrameMetadata poller sinceFrameId =>
    match Bridge.getLatestVideoFrameMetadata s.video.current sinceFrameId with
    | some metadata =>
      ({ s with video := s.video.tellCurrent poller }, [.videoMetadata (some metadata)])
    | none => (s, [.videoMetadata none])
  | .copyLatestVideoFrame frameId buffer =>
    (s, [.copied (Bridge.copyLatestVideoFrame s.video.current frameId buffer)])
  | .updateIncomingScreenFrame width height stride timestamp format data =>
    match Bridge.updateIncomingScreenFrame ohos s.incoming.current width height stride timestamp
      format data with
    | some frame => ({ s with incoming := s.incoming.put frame }, [.updated true])
    | none => (s, [.updated false])
  | .clearIncomingScreenFrame => ({ s with incoming := s.incoming.clear }, [])
  | .mainStartService _ => ({ s with incoming := s.incoming.clear }, [])
  | .getIncomingScreenFrameMetadata poller sinceFrameId =>
    match Bridge.getIncomingScreenFrameMetadata s.incoming.current sinceFrameId with
    | some metadata =>
      ({ s with incoming := s.incoming.tellCurrent poller }, [.incomingMetadata (some metadata)])
    | none => (s, [.incomingMetadata none])
  | .copyIncomingScreenFrame frameId buffer =>
    (s, [.copied (Bridge.copyIncomingScreenFrame s.incoming.current frameId buffer)])

end Caches

def caches (ohos : Bool) : Machine Caches FrameEvent FrameAnswer := ⟨Caches.step ohos⟩

/-! ### What the numbers are for -/

def number {Frame : Type} (frameId : Frame → UInt64) (frame : Frame) : ℕ := (frameId frame).toNat

namespace Caches

def Distinct (s : Caches) : Prop :=
  (s.video.past.map VideoFrameState.frameId).Nodup ∧
    (s.incoming.past.map IncomingScreenFrameState.frameId).Nodup

/-- What a step owes to the pollers. A copy under a number that a frame was described by writes that
frame. A poller that passes the largest number it has seen is given the metadata of the frame in the
cache, unless it has them. -/
def Sound (s : Caches) : FrameEvent → Prop
  | .copyLatestVideoFrame frameId buffer =>
    ∀ p ∈ s.video.told, p.2.frameId = frameId →
      (Bridge.copyLatestVideoFrame s.video.current frameId buffer).1 ≠ 0 →
        s.video.current = some p.2 ∧
          (Bridge.copyLatestVideoFrame s.video.current frameId buffer).2 =
            p.2.bytes ++ buffer.drop p.2.bytes.length
  | .copyIncomingScreenFrame frameId buffer =>
    ∀ p ∈ s.incoming.told, p.2.frameId = frameId →
      (Bridge.copyIncomingScreenFrame s.incoming.current frameId buffer).1 ≠ 0 →
        s.incoming.current = some p.2 ∧
          (Bridge.copyIncomingScreenFrame s.incoming.current frameId buffer).2 =
            p.2.bytes ++ buffer.drop p.2.bytes.length
  | .getLatestVideoFrameMetadata poller sinceFrameId =>
    sinceFrameId.toNat = s.video.seen (number VideoFrameState.frameId) 0 poller →
      ∀ frame ∈ s.video.current, (poller, frame) ∉ s.video.told →
        Bridge.getLatestVideoFrameMetadata s.video.current sinceFrameId = some frame.metadata
  | .getIncomingScreenFrameMetadata poller sinceFrameId =>
    sinceFrameId.toNat = s.incoming.seen (number IncomingScreenFrameState.frameId) 0 poller →
      ∀ frame ∈ s.incoming.current, (poller, frame) ∉ s.incoming.told →
        Bridge.getIncomingScreenFrameMetadata s.incoming.current sinceFrameId =
          some frame.metadata
  | _ => True

/-- A cache gives its next frame a new number: it holds a frame whose number has a successor, or
there was no frame before. -/
def GoesUp {Frame : Type} (frameId : Frame → UInt64) (slot : Slot Frame ℕ) : Prop :=
  match slot.current with
  | some frame => frameId frame ≠ 18446744073709551615
  | none => slot.past = []

instance {Frame : Type} [DecidableEq Frame] (frameId : Frame → UInt64) (slot : Slot Frame ℕ) :
    Decidable (GoesUp frameId slot) :=
  match h : slot.current with
  | some frame =>
    decidable_of_iff (frameId frame ≠ 18446744073709551615) (by unfold GoesUp; rw [h])
  | none => decidable_of_iff (slot.past = []) (by unfold GoesUp; rw [h])

/-- A frame comes only into a cache that gives it a new number. -/
def Numbered (ohos : Bool) (s : Caches) : FrameEvent → Prop
  | .publishRealVideoFrame display rgba now =>
    Bridge.publishRealVideoFrame s.video.current display rgba now ≠ none →
      GoesUp VideoFrameState.frameId s.video
  | .updateIncomingScreenFrame width height stride timestamp format data =>
    Bridge.updateIncomingScreenFrame ohos s.incoming.current width height stride timestamp
        format data ≠ none →
      GoesUp IncomingScreenFrameState.frameId s.incoming
  | _ => True

instance (ohos : Bool) (s : Caches) (ev : FrameEvent) : Decidable (Numbered ohos s ev) :=
  match ev with
  | .publishRealVideoFrame _ _ _ => inferInstanceAs (Decidable (_ ≠ _ → _))
  | .updateIncomingScreenFrame _ _ _ _ _ _ => inferInstanceAs (Decidable (_ ≠ _ → _))
  | .sessionStart | .sessionReconnect _ _ | .getLatestVideoFrameMetadata _ _
  | .copyLatestVideoFrame _ _ | .clearIncomingScreenFrame | .mainStartService _
  | .getIncomingScreenFrameMetadata _ _ | .copyIncomingScreenFrame _ _ => .isTrue trivial

end Caches

/-! ### One operation -/

/-- The number of a frame that comes after what is in the cache. -/
def Follows {Frame : Type} (frameId : Frame → UInt64) (cache : Option Frame) (next : Frame) :
    Prop :=
  match cache with
  | some frame =>
    frameId frame ≠ 18446744073709551615 → number frameId next = number frameId frame + 1
  | none => frameId next = 1

theorem toNat_succ {a : UInt64} (h : a ≠ 18446744073709551615) : (a + 1).toNat = a.toNat + 1 := by
  have hne : a.toNat ≠ 18446744073709551615 := fun heq => h (UInt64.toNat_inj.mp heq)
  have hlt := a.toNat_lt
  rw [UInt64.toNat_add, UInt64.toNat_one]
  exact Nat.mod_eq_of_lt (by omega)

theorem publishRealVideoFrame_follows {cache : Option VideoFrameState} {display : Int32}
    {rgba : ImageRgb} {now : Option ℕ} {next : VideoFrameState}
    (h : publishRealVideoFrame cache display rgba now = some next) :
    Follows VideoFrameState.frameId cache next := by
  unfold publishRealVideoFrame at h
  split at h
  · exact nomatch h
  · have hnext := Option.some.inj h
    subst hnext
    cases cache with
    | none => rfl
    | some frame => exact fun hmax => toNat_succ hmax

variable {cache : Option IncomingScreenFrameState}

theorem updateIncomingScreenFrame_follows {ohos : Bool} {width height stride : Int32}
    {timestamp : Int64} {format : List Char} {data : List UInt8} {next : IncomingScreenFrameState}
    (h : updateIncomingScreenFrame ohos cache width height stride timestamp format data = some next)
    : Follows IncomingScreenFrameState.frameId cache next := by
  cases cache <;> unfold updateIncomingScreenFrame at h <;> dsimp only at h <;> split at h
  case none.isTrue => exact nomatch h
  case some.isTrue => exact nomatch h
  case none.isFalse =>
    split at h
    · exact nomatch h
    split at h
    · exact nomatch h
    rw [← Option.some.inj h]
    rfl
  case some.isFalse frame _ =>
    split at h
    · exact nomatch h
    split at h
    · exact nomatch h
    rw [← Option.some.inj h]
    intro hmax
    change (saturatingSucc frame.frameId).toNat = frame.frameId.toNat + 1
    rw [saturatingSucc, if_neg hmax]
    exact toNat_succ hmax

theorem copyLatestVideoFrame_writes {cache : Option VideoFrameState} {frameId : UInt64}
    {buffer : List UInt8} (h : (copyLatestVideoFrame cache frameId buffer).1 ≠ 0) :
    ∃ frame, cache = some frame ∧ frame.frameId = frameId ∧
      (copyLatestVideoFrame cache frameId buffer).2 =
        frame.bytes ++ buffer.drop frame.bytes.length := by
  unfold copyLatestVideoFrame at h ⊢
  cases cache with
  | none => exact absurd rfl h
  | some frame =>
    dsimp only at h ⊢
    split at h
    · exact absurd rfl h
    · next hfits =>
      rw [if_neg hfits]
      exact ⟨frame, rfl, not_not.mp (not_or.mp hfits).1, rfl⟩

theorem copyIncomingScreenFrame_writes
    {frameId : UInt64} {buffer : List UInt8}
    (h : (copyIncomingScreenFrame cache frameId buffer).1 ≠ 0) :
    ∃ frame, cache = some frame ∧ frame.frameId = frameId ∧
      (copyIncomingScreenFrame cache frameId buffer).2 =
        frame.bytes ++ buffer.drop frame.bytes.length := by
  unfold copyIncomingScreenFrame at h ⊢
  cases cache with
  | none => exact absurd rfl h
  | some frame =>
    dsimp only at h ⊢
    split at h
    · exact absurd rfl h
    · next hfits =>
      rw [if_neg hfits]
      exact ⟨frame, rfl, not_not.mp (not_or.mp hfits).1, rfl⟩

theorem fresh_of_goesUp {Frame : Type} {frameId : Frame → UInt64} {slot : Slot Frame ℕ}
    {next : Frame} (h : slot.Ordered (number frameId) 0) (hup : Caches.GoesUp frameId slot)
    (hnext : Follows frameId slot.current next) : slot.Fresh (number frameId) 0 next := by
  unfold Caches.GoesUp at hup
  cases hcur : slot.current with
  | none =>
    rw [hcur] at hup hnext
    have hone : number frameId next = 1 := congrArg UInt64.toNat hnext
    refine ⟨by omega, ?_⟩
    rw [hup]
    exact fun u hu => absurd hu List.not_mem_nil
  | some frame =>
    rw [hcur] at hup hnext
    have hsucc := hnext hup
    refine ⟨by omega, fun u hu => ?_⟩
    by_cases heq : u = frame
    · rw [heq]
      omega
    · have hlt := h.lt_current hcur hu heq
      omega

namespace Caches

variable {ohos : Bool} {s : Caches}

/-- The frames of both caches came under growing numbers. -/
structure Inv (s : Caches) : Prop where
  video : s.video.Ordered (number VideoFrameState.frameId) 0
  incoming : s.incoming.Ordered (number IncomingScreenFrameState.frameId) 0

theorem inv_start : Inv start := ⟨Slot.ordered_empty, Slot.ordered_empty⟩

theorem inv_next {ev : FrameEvent} (hnum : Numbered ohos s ev) (h : Inv s) :
    Inv ((caches ohos).next s ev) := by
  cases ev with
  | publishRealVideoFrame display rgba now =>
    dsimp only [Machine.next, caches, step, Numbered] at hnum ⊢
    cases hput : Bridge.publishRealVideoFrame s.video.current display rgba now with
    | none => exact h
    | some frame =>
      have hup := hnum (by rw [hput]; exact nofun)
      have hfresh := fresh_of_goesUp h.video hup (publishRealVideoFrame_follows hput)
      exact ⟨h.video.put hfresh, h.incoming⟩
  | updateIncomingScreenFrame width height stride timestamp format data =>
    dsimp only [Machine.next, caches, step, Numbered] at hnum ⊢
    cases hput : Bridge.updateIncomingScreenFrame ohos s.incoming.current width height stride
        timestamp format data with
    | none => exact h
    | some frame =>
      have hup := hnum (by rw [hput]; exact nofun)
      have hfresh := fresh_of_goesUp h.incoming hup (updateIncomingScreenFrame_follows hput)
      exact ⟨h.video, h.incoming.put hfresh⟩
  | sessionStart => exact ⟨h.video.clear, h.incoming⟩
  | sessionReconnect activeSession activePeerId =>
    dsimp only [Machine.next, caches, step]
    split
    · exact ⟨h.video.clear, h.incoming⟩
    · exact h
  | getLatestVideoFrameMetadata poller sinceFrameId =>
    dsimp only [Machine.next, caches, step]
    split
    · exact ⟨h.video.tellCurrent poller, h.incoming⟩
    · exact h
  | getIncomingScreenFrameMetadata poller sinceFrameId =>
    dsimp only [Machine.next, caches, step]
    split
    · exact ⟨h.video, h.incoming.tellCurrent poller⟩
    · exact h
  | clearIncomingScreenFrame | mainStartService => exact ⟨h.video, h.incoming.clear⟩
  | copyLatestVideoFrame | copyIncomingScreenFrame => exact h

theorem nodup_of_ordered {Frame : Type} {frameId : Frame → UInt64} {slot : Slot Frame ℕ}
    (h : slot.Ordered (number frameId) 0) : (slot.past.map frameId).Nodup := by
  have hnodup : ((slot.past.map frameId).map UInt64.toNat).Nodup := by
    rw [List.map_map]
    exact h.nodup
  exact hnodup.of_map _

theorem Inv.distinct (h : Inv s) : s.Distinct :=
  ⟨nodup_of_ordered h.video, nodup_of_ordered h.incoming⟩

theorem not_seen {Frame : Type} {frameId : Frame → UInt64} {slot : Slot Frame ℕ}
    (h : slot.Ordered (number frameId) 0) {poller : ℕ} {since : UInt64}
    (hsince : since.toNat = slot.seen (number frameId) 0 poller) {frame : Frame}
    (hcur : slot.current = some frame) (hnew : (poller, frame) ∉ slot.told) :
    ¬ frameId frame ≤ since := by
  have hlt := h.seen_lt hcur hnew
  rw [← hsince] at hlt
  exact not_le.mpr hlt

theorem Inv.sound (h : Inv s) (ev : FrameEvent) : s.Sound ev := by
  cases ev with
  | copyLatestVideoFrame frameId buffer =>
    intro p hp hid hwrites
    obtain ⟨frame, hcur, hframe, hcopy⟩ := copyLatestVideoFrame_writes hwrites
    have hnumber : number VideoFrameState.frameId p.2 = number VideoFrameState.frameId frame :=
      congrArg UInt64.toNat (hid.trans hframe.symm)
    have hsame :=
      h.video.eq_of_label_eq (h.video.told p hp) (h.video.mem_past hcur) hnumber
    rw [hsame]
    exact ⟨hcur, hcopy⟩
  | copyIncomingScreenFrame frameId buffer =>
    intro p hp hid hwrites
    obtain ⟨frame, hcur, hframe, hcopy⟩ := copyIncomingScreenFrame_writes hwrites
    have hnumber : number IncomingScreenFrameState.frameId p.2 =
        number IncomingScreenFrameState.frameId frame :=
      congrArg UInt64.toNat (hid.trans hframe.symm)
    have hsame :=
      h.incoming.eq_of_label_eq (h.incoming.told p hp) (h.incoming.mem_past hcur) hnumber
    rw [hsame]
    exact ⟨hcur, hcopy⟩
  | getLatestVideoFrameMetadata poller sinceFrameId =>
    intro hsince frame hcur hnew
    have hbeyond := not_seen h.video hsince hcur hnew
    rw [Option.mem_def.mp hcur]
    exact if_neg hbeyond
  | getIncomingScreenFrameMetadata poller sinceFrameId =>
    intro hsince frame hcur hnew
    have hbeyond := not_seen h.incoming hsince hcur hnew
    rw [Option.mem_def.mp hcur]
    exact if_neg hbeyond
  | publishRealVideoFrame | updateIncomingScreenFrame | sessionStart | sessionReconnect
  | clearIncomingScreenFrame | mainStartService => trivial

end Caches

/-- **The numbers identify the frames** over a run from the start of the process, where a frame
comes only into a cache that gives it a new number. -/
theorem frames_identified {ohos : Bool} {evs : List FrameEvent}
    (h : (caches ohos).Meets (Caches.Numbered ohos) Caches.start evs) :
    (∀ p ∈ (caches ohos).trace Caches.start evs, p.1.Distinct ∧ p.1.Sound p.2) ∧
      ((caches ohos).run Caches.start evs).Distinct := by
  constructor
  · intro p hp
    have hinv := h.inv_trace Caches.inv_start (fun _ _ => Caches.inv_next) p hp
    exact ⟨hinv.distinct, hinv.sound p.2⟩
  · exact (h.inv_run Caches.inv_start fun _ _ => Caches.inv_next).distinct

def pixel (v : UInt8) : ImageRgb := ⟨[v, v, v, v], 1, 1, .abgr, 0⟩

/-- A session with two frames; the poller takes both. -/
def twoFrames : List FrameEvent :=
  [.sessionStart, .publishRealVideoFrame 0 (pixel 7) (some 1), .getLatestVideoFrameMetadata 0 0,
    .copyLatestVideoFrame 1 [0, 0, 0, 0], .publishRealVideoFrame 0 (pixel 8) (some 2),
    .getLatestVideoFrameMetadata 0 1, .copyLatestVideoFrame 2 [0, 0, 0, 0]]

theorem frames_identified_twoFrames :
    (∀ p ∈ (caches true).trace Caches.start twoFrames, p.1.Distinct ∧ p.1.Sound p.2) ∧
      ((caches true).run Caches.start twoFrames).Distinct :=
  frames_identified (by decide +kernel)

/-! ### Where the numbers start again -/

/-- The same poller over two sessions: it is told of the first frame of the first, and copies the
bytes and asks for more after the second has begun. -/
def twoSessions : List FrameEvent :=
  [.sessionStart, .publishRealVideoFrame 0 (pixel 7) (some 1), .getLatestVideoFrameMetadata 0 0,
    .sessionStart, .publishRealVideoFrame 0 (pixel 8) (some 2),
    .copyLatestVideoFrame 1 [0, 0, 0, 0], .getLatestVideoFrameMetadata 0 1]

/-- The bytes are those of the other session, and nothing is told of its frame. -/
theorem twoSessions_confused :
    (caches true).outputs Caches.start twoSessions =
        [.videoMetadata (some ⟨1, 0, 1, 1, 4, 4, 1, "abgr".toList⟩),
          .copied (4, [8, 8, 8, 8]), .videoMetadata none] ∧
      ¬ ∀ p ∈ (caches true).trace Caches.start twoSessions, p.1.Sound p.2 := by
  refine ⟨by rfl, fun h => ?_⟩
  have hcopy := h ((caches true).run Caches.start (twoSessions.take 5),
    .copyLatestVideoFrame 1 [0, 0, 0, 0]) ((caches true).mem_trace_split Caches.start
      (twoSessions.take 5) _ [.getLatestVideoFrameMetadata 0 1])
  have hbytes := (hcopy (0, ⟨1, 0, 1, 1, 4, [7, 7, 7, 7], 1, "abgr".toList⟩) (by decide +kernel) rfl
    (by decide +kernel)).2
  exact absurd hbytes (by decide +kernel)

end Bridge

end LibRustdesk
