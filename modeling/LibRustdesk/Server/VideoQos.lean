import LibRustdesk.Framework.Float32
import LibRustdesk.Framework.KeyedMap
import LibRustdesk.Framework.Machine

/-!
# The quality of service of the video

`VideoQoS` of `server/video_qos.rs`: the frame rate and the bitrate ratio that all the video
services share. Peers set limits for the frame rate, answer to a test of the network delay every
second or do not answer, and the services report what they send.

The program is `Option`al: `none` is a panic. An operation on integers that overflows panics where
overflows are checked for (`checks`), and else wraps; a division by zero and a `clamp` whose bounds
are not in order always panic.

* `RttCalculator`, `UserDelay` — the delays of a user, of which the last three are averaged.
* `UserDelay.onNetworkDelay` — the frame rate that `user_network_delay` sets for a user.
* `VideoQos` with `adjustFps` and `adjustRatio` — the state, and what is set for all the users.
* `VideoQos.machine` — its calls, by whomever and whenever.

Hash maps are gone through in an order that is not specified: `Call.rehash` brings the users into
any other one.
-/

namespace LibRustdesk

namespace VideoQos

/-! ### Integers -/

/-- An unsigned integer below `limit` that an operation on such integers gives. -/
def unsigned (checks : Bool) (limit n : ℕ) : Option ℕ :=
  if n < limit then some n else if checks then none else some (n % limit)

def u32 (checks : Bool) (n : ℕ) : Option ℕ := unsigned checks 4294967296 n

def usize (checks : Bool) (n : ℕ) : Option ℕ := unsigned checks 18446744073709551616 n

/-- A difference of two `u32`s. -/
def u32Sub (checks : Bool) (m n : ℕ) : Option ℕ :=
  if n ≤ m then some (m - n) else if checks then none else some (m + 4294967296 - n)

/-- A quotient of two `u32`s. -/
def u32Div (m n : ℕ) : Option ℕ := if n = 0 then none else some (m / n)

/-- `clamp` of a `u32`, which asserts that the bounds are in order. -/
def u32Clamp (n lo hi : ℕ) : Option ℕ := if lo ≤ hi then some (min (max n lo) hi) else none

/-! ### Constants -/

def FPS : ℕ := 30
def MIN_FPS : ℕ := 1
def MAX_FPS : ℕ := 120
def INIT_FPS : ℕ := 15

def BR_BEST : F32 := F32.ofRat (3 / 2)
def BR_BALANCED : F32 := F32.ofRat (67 / 100)
def BR_SPEED : F32 := F32.ofRat (1 / 2)
def BR_MAX : F32 := F32.ofRat 40
def BR_MIN : F32 := F32.ofRat (1 / 5)
def BR_MIN_HIGH_RESOLUTION : F32 := F32.ofRat (1 / 10)
def MAX_BR_MULTIPLE : F32 := F32.ofRat 1

def HISTORY_DELAY_LEN : ℕ := 2
def ADJUST_RATIO_INTERVAL : ℕ := 3
def DYNAMIC_SCREEN_THRESHOLD : ℕ := 2
def DELAY_THRESHOLD_150MS : ℕ := 150

/-- `ImageQuality` of the messages. -/
def IMAGE_QUALITY_LOW : ℤ := 2
def IMAGE_QUALITY_BALANCED : ℤ := 3
def IMAGE_QUALITY_BEST : ℤ := 4

end VideoQos

open VideoQos

/-! ### Delays -/

structure RttCalculator where
  /-- The least ever. -/
  minRtt : Option ℕ := none
  /-- The least of the samples. -/
  windowMinRtt : Option ℕ := none
  smoothedRtt : Option ℕ := none
  /-- The last 60 delays. -/
  samples : List ℕ := []
  deriving DecidableEq

namespace RttCalculator

def WINDOW_SAMPLES : ℕ := 60
def MIN_SAMPLES : ℕ := 10
def ALPHA : F32 := F32.ofRat (1 / 2)

def update (r : RttCalculator) (delay : ℕ) : RttCalculator :=
  let minRtt := match r.minRtt with
    | some minRtt => if delay < minRtt then some delay else some minRtt
    | none => some delay
  let samples :=
    (if WINDOW_SAMPLES ≤ r.samples.length then r.samples.tail else r.samples) ++ [delay]
  let windowMinRtt := samples.min?
  let smoothedRtt :=
    if WINDOW_SAMPLES ≤ samples.length then
      match minRtt, windowMinRtt with
      | some min, some windowMin =>
        -- `1.0 - ALPHA` is a half, too
        some (ALPHA * F32.ofNat min + ALPHA * F32.ofNat windowMin).asU32
      | _, _ => r.smoothedRtt
    else r.smoothedRtt
  { minRtt, windowMinRtt, smoothedRtt, samples }

def getRtt (r : RttCalculator) : Option ℕ :=
  match r.smoothedRtt with
  | some rtt => some rtt
  | none => if MIN_SAMPLES ≤ r.samples.length then r.minRtt else none

end RttCalculator

structure UserDelay where
  responseDelayed : Bool := false
  delayHistory : List ℕ := []
  fps : Option ℕ := none
  rttCalculator : RttCalculator := {}
  quickIncreaseFpsCount : ℕ := 0
  increaseFpsCount : ℕ := 0
  deriving DecidableEq

namespace UserDelay

def addDelay (d : UserDelay) (delay : ℕ) : UserDelay :=
  { d with
    rttCalculator := d.rttCalculator.update delay
    delayHistory :=
      (if HISTORY_DELAY_LEN < d.delayHistory.length then d.delayHistory.tail else d.delayHistory) ++
        [delay] }

variable (checks : Bool)

def avgDelay (d : UserDelay) : Option ℕ :=
  if 0 < d.delayHistory.length then do
    let sum ← u32 checks d.delayHistory.sum
    let avgDelay ← u32Div sum d.delayHistory.length
    match d.rttCalculator.getRtt with
    | some rtt => if avgDelay > rtt then u32Sub checks avgDelay rtt else some avgDelay
    | none => some avgDelay
  else some DELAY_THRESHOLD_150MS

/-- The frame rate for a good network, and how often it has been increased at once. -/
def increasedFps (minFps normalFps fps oldAvgDelay avgDelay quickIncreaseFpsCount : ℕ) :
    Option (ℕ × ℕ) :=
  if avgDelay < 50 then do
    let count ← usize checks (quickIncreaseFpsCount + 1)
    let fps ← u32 checks (fps + if 3 ≤ count then 5 else if fps < normalFps then 1 else 0)
    return (max minFps fps, if 3 ≤ count then 0 else count)
  else if avgDelay < 100 then do
    let fps ← u32 checks (fps + if avgDelay < oldAvgDelay ∧ fps < normalFps then 1 else 0)
    return (max minFps fps, quickIncreaseFpsCount)
  else
    some (max minFps fps, quickIncreaseFpsCount)

/-- `devide_fps`: the frame rate by the ratio of the delay to the threshold. -/
def devideFps (fps avgDelay : ℕ) : ℕ :=
  (F32.ofNat fps / (F32.ofNat avgDelay / F32.ofNat DELAY_THRESHOLD_150MS)).ceil.asU32

def decreasedFps (minFps dividendMs fps avgDelay : ℕ) : Option ℕ :=
  if avgDelay < 200 then some (max minFps (devideFps fps avgDelay))
  else if avgDelay < 300 then some (min minFps (devideFps fps avgDelay))
  else if avgDelay < 600 then u32Div dividendMs avgDelay
  else do
    let fps' ← u32Div dividendMs avgDelay
    return min fps' (devideFps fps avgDelay)

/-- The frame rate by the delay, and how often it has been increased at once. -/
def bandFps (minFps normalFps dividendMs fps oldAvgDelay avgDelay quickIncreaseFpsCount : ℕ) :
    Option (ℕ × ℕ) :=
  if avgDelay < DELAY_THRESHOLD_150MS then
    increasedFps checks minFps normalFps fps oldAvgDelay avgDelay quickIncreaseFpsCount
  else (decreasedFps minFps dividendMs fps avgDelay).map fun fps => (fps, quickIncreaseFpsCount)

def stableCount (avgDelay increaseFpsCount : ℕ) : Option ℕ :=
  if avgDelay < DELAY_THRESHOLD_150MS then usize checks (increaseFpsCount + 1) else some 0

/-- After three good answers the frame rate is increased. -/
def stableFps (count fps : ℕ) : Option ℕ := if 3 ≤ count then u32 checks (fps + 1) else some fps

/-- What `user_network_delay` does to the user. -/
def onNetworkDelay (minFps normalFps dividendMs highestFps fps : ℕ) (d : UserDelay) (delay : ℕ) :
    Option UserDelay := do
  let oldAvgDelay ← d.avgDelay checks
  let d := d.addDelay (max delay 10)
  let avgDelay ← d.avgDelay checks
  let avgDelay := max avgDelay 10
  let (fps, quickCount) ← bandFps checks minFps normalFps dividendMs fps oldAvgDelay avgDelay
    d.quickIncreaseFpsCount
  let count ← stableCount checks avgDelay d.increaseFpsCount
  let fps ← stableFps checks count fps
  let fps ← u32Clamp fps MIN_FPS highestFps
  return { d with
    fps := some fps
    quickIncreaseFpsCount := if 50 < avgDelay then 0 else quickCount
    increaseFpsCount := if 3 ≤ count then 0 else count }

end UserDelay

/-! ### Users and displays -/

inductive Quality
  | best
  | balanced
  | low
  | custom (v : F32)
  deriving DecidableEq

namespace Quality

def ratio : Quality → F32
  | best => BR_BEST
  | balanced => BR_BALANCED
  | low => BR_SPEED
  | custom v => v

/-- `convert_quality`. A `clamp` to constants does not panic. -/
def convert (q : ℤ) : Quality :=
  if q = IMAGE_QUALITY_BALANCED then balanced
  else if q = IMAGE_QUALITY_LOW then low
  else if q = IMAGE_QUALITY_BEST then best
  else
    let b := F32.ofNat ((q / 256 % 4096).toNat * 2) / F32.ofNat 100
    custom (min (max b BR_MIN) BR_MAX)

end Quality

structure UserData where
  autoAdjustFps : Option ℕ := none
  customFps : Option ℕ := none
  /-- The time when it was set is with the quality. -/
  quality : Option (ℤ × Quality) := none
  delay : UserDelay := {}
  record : Bool := false
  deriving DecidableEq

structure DisplayData where
  sendCounter : ℕ := 0
  supportChangingQuality : Bool := false

/-- The state of the controller. Instants are milliseconds of the clock. -/
structure VideoQos where
  fps : ℕ
  ratio : F32
  users : KeyedMap ℤ UserData
  displays : KeyedMap String DisplayData
  bitrateStore : ℕ
  adjustRatioInstant : ℕ
  abrConfig : Bool
  newUserInstant : ℕ

namespace VideoQos

def default (now : ℕ) : VideoQos where
  fps                := FPS
  ratio              := BR_BALANCED
  users              := ∅
  displays           := ∅
  bitrateStore       := 0
  adjustRatioInstant := now
  abrConfig          := true
  newUserInstant     := now

/-- `elapsed().as_secs()`. -/
def elapsedSecs (now instant : ℕ) : ℕ := (now - instant) / 1000

/-- `fps()`, which is within the valid range. -/
def getFps (q : VideoQos) : ℕ := if MIN_FPS ≤ q.fps ∧ q.fps ≤ MAX_FPS then q.fps else FPS

/-- `ratio()`, which is within the bounds. -/
def getRatio (q : VideoQos) : F32 × VideoQos :=
  let q := if q.ratio < BR_MIN_HIGH_RESOLUTION ∨ q.ratio > BR_MAX then
      { q with ratio := BR_BALANCED }
    else q
  (q.ratio, q)

def inVbrState (q : VideoQos) : Bool :=
  q.abrConfig && q.displays.entries.all fun d => d.2.supportChangingQuality

def updateUser (q : VideoQos) (id : ℤ) (f : UserData → UserData) : VideoQos :=
  { q with users := q.users.mapValues fun k u => if k = id then f u else u }

def updateDisplay (q : VideoQos) (name : String) (f : DisplayData → DisplayData) : VideoQos :=
  { q with displays := q.displays.mapValues fun k d => if k = name then f d else d }

/-! ### What is set for all -/

def userFps (u : UserData) : ℕ :=
  let fps := u.customFps.getD FPS
  match u.autoAdjustFps with
  | some autoAdjustFps => if fps = 0 ∨ autoAdjustFps < fps then autoAdjustFps else fps
  | none => fps

def highestFps (q : VideoQos) : ℕ :=
  let fps := (((q.users.entries.map fun u => userFps u.2).filter (MIN_FPS ≤ ·)).min?).getD FPS
  min (max fps MIN_FPS) MAX_FPS

/-- `max_by` of the times of two qualities, the first of which is before the other. -/
def later (a : Option (ℤ × Quality)) (b : ℤ × Quality) : Option (ℤ × Quality) :=
  match a with
  | some a => if b.1 < a.1 then some a else some b
  | none => some b

def latestQuality (q : VideoQos) : Quality :=
  (((q.users.entries.filterMap fun u => u.2.quality).foldl later none).getD
    (0, Quality.balanced)).2

def adjustFps (now : ℕ) (q : VideoQos) : Option VideoQos := do
  let fps := ((q.users.entries.map fun u => u.2.delay.fps.getD INIT_FPS).min?).getD INIT_FPS
  let fps := if q.users.entries.any (fun u => u.2.delay.responseDelayed) && MIN_FPS + 1 < fps then
      MIN_FPS + 1
    else fps
  let fps := if elapsedSecs now q.newUserInstant < 1 ∧ INIT_FPS < fps then INIT_FPS else fps
  let fps ← u32Clamp fps MIN_FPS q.highestFps
  return { q with fps }

def atMost (bound : Option F32) (r : F32) : F32 :=
  match bound with
  | some bound => if r > bound then bound else r
  | none => r

def minRatio (quality : Quality) (ratio1mbps : Option F32) : F32 :=
  match quality with
  | .best => max (atMost ratio1mbps (BR_BEST / F32.ofRat (5 / 2))) BR_MIN
  | .balanced =>
    max (atMost ratio1mbps (min (BR_BALANCED / F32.ofNat 2) (F32.ofRat (2 / 5))))
      BR_MIN_HIGH_RESOLUTION
  | .low => BR_MIN_HIGH_RESOLUTION
  | .custom _ => BR_MIN_HIGH_RESOLUTION

def delayedRatio (ratio : F32) (maxDelay : ℕ) (dynamicScreen : Bool) : F32 :=
  if maxDelay < 50 then if dynamicScreen then ratio * F32.ofRat (23 / 20) else ratio
  else if maxDelay < 100 then if dynamicScreen then ratio * F32.ofRat (11 / 10) else ratio
  else if maxDelay < DELAY_THRESHOLD_150MS then
    if dynamicScreen then ratio * F32.ofRat (21 / 20) else ratio
  else if maxDelay < 200 then ratio * F32.ofRat (19 / 20)
  else if maxDelay < 300 then ratio * F32.ofRat (9 / 10)
  else if maxDelay < 500 then ratio * F32.ofRat (17 / 20)
  else ratio * F32.ofRat (4 / 5)

/-- The changed ratio `v`, by which the quality is not increased by more than 150 kbps. -/
def limitedRatio (ratio : F32) (ratioAdd : Option F32) (v : F32) : F32 :=
  match ratioAdd with
  | some ratioAdd => if v > ratioAdd ∧ ratioAdd > ratio ∧ ratio ≥ BR_SPEED then ratioAdd else v
  | none => v

def ratio1mbps (bitrate : ℕ) (ratio : F32) : Option F32 :=
  if 0 < bitrate then
    some (max (ratio * F32.ofNat 1000 / F32.ofNat bitrate) BR_MIN_HIGH_RESOLUTION)
  else none

variable (checks : Bool)

def ratioAdd150kbps (bitrate : ℕ) (ratio : F32) : Option (Option F32) :=
  if 0 < bitrate then do
    let sum ← u32 checks (bitrate + 150)
    return some (F32.ofNat sum * ratio / F32.ofNat bitrate)
  else some none

def avgDelays (q : VideoQos) : Option (List ℕ) :=
  q.users.entries.mapM fun u => u.2.delay.avgDelay checks

def adjustRatio (now : ℕ) (dynamicScreen : Bool) (q : VideoQos) : Option VideoQos :=
  if !q.inVbrState then some q
  else do
    let delays ← q.avgDelays checks
    match delays.max? with
    | none => some q
    | some maxDelay => do
      let ratioAdd ← ratioAdd150kbps checks q.bitrateStore q.ratio
      let v := limitedRatio q.ratio ratioAdd (delayedRatio q.ratio maxDelay dynamicScreen)
      let ratio ← v.clamp (minRatio q.latestQuality (ratio1mbps q.bitrateStore q.ratio))
        (q.latestQuality.ratio * MAX_BR_MULTIPLE)
      return { q with ratio, adjustRatioInstant := now }

/-! ### Connections -/

/-- `abr` is whether the option `enable-abr` is not "N". -/
def onConnectionOpen (now : ℕ) (q : VideoQos) (id : ℤ) (abr : Bool) : VideoQos :=
  { q with users := q.users.insert id {}, abrConfig := abr, newUserInstant := now }

def onConnectionClose (now : ℕ) (q : VideoQos) (id : ℤ) : VideoQos :=
  if (q.users.erase id).entries.isEmpty then default now else { q with users := q.users.erase id }

/-! ### What a peer asks for -/

def userCustomFps (q : VideoQos) (id : ℤ) (fps : ℕ) : VideoQos :=
  if fps < MIN_FPS ∨ fps > MAX_FPS then q
  else q.updateUser id fun user => { user with customFps := some fps }

def userAutoAdjustFps (q : VideoQos) (id : ℤ) (fps : ℕ) : VideoQos :=
  if fps < MIN_FPS ∨ fps > MAX_FPS then q
  else q.updateUser id fun user => { user with autoAdjustFps := some fps }

def userImageQuality (q : VideoQos) (id time imageQuality : ℤ) : VideoQos :=
  match q.users.lookup id with
  | some _ =>
    let q := q.updateUser id fun user =>
      { user with quality := some (time, Quality.convert imageQuality) }
    { q with ratio := q.latestQuality.ratio }
  | none => q

def userRecord (q : VideoQos) (id : ℤ) (v : Bool) : VideoQos :=
  q.updateUser id fun user => { user with record := v }

/-- The least frame rate that is fluent enough, and the normal one. -/
def minNormalFps (targetRatio : F32) : ℕ × ℕ :=
  if targetRatio ≥ BR_BEST then (8, 16)
  else if targetRatio ≥ BR_BALANCED then (10, 20)
  else (12, 24)

def minFps (q : VideoQos) : ℕ := (minNormalFps q.latestQuality.ratio).1

def normalFps (q : VideoQos) : ℕ := (minNormalFps q.latestQuality.ratio).2

/-- `linux` is whether the program was built for it. -/
def userNetworkDelay (linux : Bool) (now : ℕ) (q : VideoQos) (id : ℤ) (delay : ℕ) :
    Option VideoQos := do
  let dividendMs ← u32 checks (DELAY_THRESHOLD_150MS * q.minFps)
  match q.users.lookup id with
  | some user =>
    let delayed ← user.delay.onNetworkDelay checks q.minFps q.normalFps dividendMs q.highestFps
      q.fps delay
    let q ← (q.updateUser id fun user => { user with delay := delayed }).adjustFps now
    -- the first answer to a test
    if user.delay.fps.isNone && !linux then adjustRatio checks now false q else some q
  | none => q.adjustFps now

/-- `elapsed` is in milliseconds. -/
def userDelayResponseElapsed (now : ℕ) (q : VideoQos) (id : ℤ) (elapsed : ℕ) : Option VideoQos :=
  match q.users.lookup id with
  | some _ =>
    if 2000 < elapsed then
      (q.updateUser id fun user =>
        { user with
          delay := { user.delay with responseDelayed := true }.addDelay (elapsed % 4294967296) }
        ).adjustFps now
    else
      some (q.updateUser id fun user =>
        { user with delay := { user.delay with responseDelayed := false } })
  | none => some q

/-! ### What a service reports -/

def newDisplay (q : VideoQos) (name : String) : VideoQos :=
  { q with displays := q.displays.insert name {} }

def removeDisplay (q : VideoQos) (name : String) : VideoQos :=
  { q with displays := q.displays.erase name }

def setSupportChangingQuality (q : VideoQos) (name : String) (support : Bool) : VideoQos :=
  q.updateDisplay name fun d => { d with supportChangingQuality := support }

def storeBitrate (q : VideoQos) (bitrate : ℕ) : VideoQos := { q with bitrateStore := bitrate }

def countSent (q : VideoQos) (name : String) (sendCounter : ℕ) : Option VideoQos :=
  match q.displays.lookup name with
  | some display => do
    let count ← usize checks (display.sendCounter + sendCounter)
    return q.updateDisplay name fun d => { d with sendCounter := count }
  | none => some q

def updateDisplayData (now : ℕ) (q : VideoQos) (name : String) (sendCounter : ℕ) :
    Option VideoQos := do
  let q ← q.countSent checks name sendCounter
  let q ← q.adjustFps now
  if q.inVbrState then
    if ADJUST_RATIO_INTERVAL ≤ elapsedSecs now q.adjustRatioInstant then
      let dynamicScreen := q.displays.entries.any fun d =>
        ADJUST_RATIO_INTERVAL * DYNAMIC_SCREEN_THRESHOLD ≤ d.2.sendCounter
      adjustRatio checks now dynamicScreen
        { q with displays := q.displays.mapValues fun _ d => { d with sendCounter := 0 } }
    else some q
  else some { q with ratio := q.latestQuality.ratio }

/-! ### The machine -/

inductive Call
  | onConnectionOpen (id : ℤ) (abr : Bool)
  | onConnectionClose (id : ℤ)
  | userCustomFps (id : ℤ) (fps : UInt32)
  | userAutoAdjustFps (id : ℤ) (fps : UInt32)
  | userImageQuality (id time imageQuality : ℤ)
  | userRecord (id : ℤ) (v : Bool)
  | userNetworkDelay (id : ℤ) (delay : UInt32)
  | userDelayResponseElapsed (id : ℤ) (elapsed : ℕ)
  | newDisplay (name : String)
  | removeDisplay (name : String)
  | setSupportChangingQuality (name : String) (support : Bool)
  | storeBitrate (bitrate : UInt32)
  | updateDisplayData (name : String) (sendCounter : ℕ)
  | getRatio
  /-- The order in which the users are gone through is another one. -/
  | rehash (users : KeyedMap ℤ UserData)

structure Event where
  now : ℕ
  call : Call

def step (linux : Bool) (q : VideoQos) (e : Event) : Option VideoQos :=
  match e.call with
  | .onConnectionOpen id abr => some (q.onConnectionOpen e.now id abr)
  | .onConnectionClose id => some (q.onConnectionClose e.now id)
  | .userCustomFps id fps => some (q.userCustomFps id fps.toNat)
  | .userAutoAdjustFps id fps => some (q.userAutoAdjustFps id fps.toNat)
  | .userImageQuality id time imageQuality => some (q.userImageQuality id time imageQuality)
  | .userRecord id v => some (q.userRecord id v)
  | .userNetworkDelay id delay => q.userNetworkDelay checks linux e.now id delay.toNat
  | .userDelayResponseElapsed id elapsed => q.userDelayResponseElapsed e.now id elapsed
  | .newDisplay name => some (q.newDisplay name)
  | .removeDisplay name => some (q.removeDisplay name)
  | .setSupportChangingQuality name support => some (q.setSupportChangingQuality name support)
  | .storeBitrate bitrate => some (q.storeBitrate bitrate.toNat)
  | .updateDisplayData name sendCounter => q.updateDisplayData checks e.now name sendCounter
  | .getRatio => some q.getRatio.2
  | .rehash users => if users.entries.Perm q.users.entries then some { q with users } else some q

/-- The controller as a machine, which is `none` once it has panicked. -/
def machine (linux : Bool) : Machine (Option VideoQos) Event Unit where
  step s e := (s.bind fun q => q.step checks linux e, [])

end VideoQos

end LibRustdesk
