import LibRustdesk.Framework.Custody
import LibRustdesk.Server.OnMessage
import LibRustdesk.Video.FrameFetched
import LibRustdesk.Video.PixelBuffer

/-!
# Screenshots

A connection asks for a screenshot of a display, and a video service answers with the next frame it
captures (`set_take_screenshot`, `handle_screenshot` and the middle of `run`, in
`src/server/video_service.rs`). The requests wait in one map, `SCREENSHOTS`, under the index of
their display. A frame in the memory of the graphics card is no picture, so the first one only
switches the encoder, and the request goes back into the map.

* The connections, the services and the threads that answer take turns: one event is what one of
  them does under a lock, or between two. A service takes a request out of the map and looks at its
  frame (`take`), and later puts it back or has it answered (`handle`); a thread of its own encodes
  the picture and sends it (`finish`).
* `Screenshot.request`, the number of a request, is not in the source, and neither are
  `State.requests` and `State.answers`, what has been asked for and sent.
* `Kept` — every request is waiting and has no answer, or it has exactly one, with its own `sid` and
  from a frame of the source it was for.
* `Safe` — a step that loses nothing: a request comes, or comes back, to a place that is free; it is
  answered by a service of its source, with a picture that is in range; and its connection is still
  there when the answer goes out.

A request is always somewhere, so the map, the hands of the services and the threads are the places
of a `Custody`, and what a step does to the custody says what is lost (`kept_next_iff`). **Main
result** (`kept_iff_safe`): every state of a run keeps the requests exactly when every step is safe.
A second request for a display takes the place of the first, which is never answered
(`second_overwrites`).
-/

namespace LibRustdesk.Screenshots

open Desktop (VideoSource)
open Desktop.World (toUsize)
open FrameFetched (VideoService)
open Pixels

/-! ### The state -/

inductive Frame
  | pixelBuffer (f : PixelBuffer)
  | texture (isNull : Bool)

def Frame.valid : Frame → Bool
  | pixelBuffer f => !f.data.isEmpty
  | texture isNull => !isNull

/-- A request that a connection makes, of the source it shows. -/
structure Request where
  conn : Int32
  source : VideoSource
  display : Int32
  sid : List Char

structure Screenshot where
  sid : List Char
  /-- The connection it sends to. -/
  tx : Int32
  restoreVram : Bool
  request : ℕ

structure ScreenshotResponse where
  sid : List Char
  msg : List Char
  data : Bytes

/-- A thread that is in `handle_screenshot`, and the source of its frame. -/
structure Thread where
  screenshot : Screenshot
  msg : List Char
  w : ℕ
  h : ℕ
  data : Bytes
  source : VideoSource

structure Answer where
  tx : Int32
  response : ScreenshotResponse
  request : ℕ
  source : VideoSource

/-- What is not in the source: libyuv, the place it is called from, and the PNG encoder. -/
structure Env where
  abgrToArgb : AbgrToArgb
  place : List Char
  encodePng : ℕ → ℕ → Bytes → Except (List Char) Bytes

structure State where
  /-- `SCREENSHOTS`. -/
  screenshots : Table ℕ Screenshot
  /-- What a service has taken out of it, and the frame it is at. -/
  taken : Table VideoService (Screenshot × Frame)
  threads : Table ℕ Thread
  spawned : ℕ
  closed : Finset Int32
  requests : List Request
  answers : List Answer

def State.init : State where
  screenshots := Table.empty
  taken := Table.empty
  threads := Table.empty
  spawned := 0
  closed := ∅
  requests := []
  answers := []

/-! ### The steps -/

namespace State

/-- `set_take_screenshot`, of the handler of a `ScreenshotRequest`. -/
def setTakeScreenshot (s : State) (r : Request) : State :=
  { s with
    screenshots := s.screenshots.insert (toUsize r.display)
      { sid := r.sid, tx := r.conn, restoreVram := false, request := s.requests.length }
    requests := s.requests ++ [r] }

def take (s : State) (vs : VideoService) (frame : Frame) : State :=
  match s.screenshots vs.idx with
  | none => s
  | some screenshot =>
    { s with
      screenshots := s.screenshots.remove vs.idx
      taken := s.taken.insert vs (screenshot, frame) }

/-- It puts it back, and goes on with another encoder. -/
def switch (s : State) (vs : VideoService) (screenshot : Screenshot) : State :=
  { s with
    taken := s.taken.remove vs
    screenshots := s.screenshots.insert vs.idx { screenshot with restoreVram := true } }

def spawn (s : State) (vs : VideoService) (screenshot : Screenshot) (msg : List Char) (w h : ℕ)
    (data : Bytes) : State :=
  { s with
    taken := s.taken.remove vs
    threads := s.threads.insert s.spawned ⟨screenshot, msg, w, h, data, vs.source⟩
    spawned := s.spawned + 1 }

def panic (s : State) (vs : VideoService) : State := { s with taken := s.taken.remove vs }

/-- What `run` does with a screenshot that it has taken, and its frame. -/
def handleFrame (env : Env) (s : State) (vs : VideoService) (screenshot : Screenshot) :
    Frame → State
  | .pixelBuffer f =>
    match getRgbaFromPixelbuf env.abgrToArgb f with
    | none => s.panic vs
    | some (.ok rgba) => s.spawn vs screenshot [] f.width f.height rgba
    | some (.error e) =>
      s.spawn vs screenshot ("Convert pixfmt: ".toList ++ e.text env.place) 0 0 []
  | .texture _ =>
    -- Already set one time, just ignore to break infinite loop.
    if screenshot.restoreVram then
      s.spawn vs screenshot "Please change codec and try again.".toList 0 0 []
    else s.switch vs screenshot

def handle (env : Env) (s : State) (vs : VideoService) : State :=
  match s.taken vs with
  | none => s
  | some (screenshot, frame) => s.handleFrame env vs screenshot frame

end State

/-- The response of `handle_screenshot`. -/
def handleScreenshot (env : Env) (thread : Thread) : ScreenshotResponse :=
  if thread.msg = [] then
    if thread.data = [] then
      { sid := thread.screenshot.sid
        msg := "Failed to take screenshot, please try again later.".toList
        data := [] }
    else
      match env.encodePng thread.w thread.h thread.data with
      | .ok png => { sid := thread.screenshot.sid, msg := [], data := png }
      | .error e =>
        { sid := thread.screenshot.sid, msg := "Error encoding png: ".toList ++ e, data := [] }
  else { sid := thread.screenshot.sid, msg := thread.msg, data := [] }

theorem sid_handleScreenshot (env : Env) (thread : Thread) :
    (handleScreenshot env thread).sid = thread.screenshot.sid := by
  unfold handleScreenshot
  split
  · split
    · rfl
    · split <;> rfl
  · rfl

def Thread.answer (env : Env) (thread : Thread) : Answer where
  tx       := thread.screenshot.tx
  response := handleScreenshot env thread
  request  := thread.screenshot.request
  source   := thread.source

/-- A thread ends. What it sends to a connection that has closed is lost. -/
def State.finish (env : Env) (s : State) (k : ℕ) : State :=
  match s.threads k with
  | none => s
  | some thread =>
    let s := { s with threads := s.threads.remove k }
    if thread.screenshot.tx ∈ s.closed then s
    else { s with answers := s.answers ++ [thread.answer env] }

inductive Event
  /-- A connection that is there asks for a screenshot. -/
  | request (r : Request)
  /-- A service has captured a frame. -/
  | take (vs : VideoService) (frame : Frame)
  | handle (vs : VideoService)
  | finish (k : ℕ)
  | close (conn : Int32)

def next (env : Env) (s : State) : Event → State
  | .request r => if r.conn ∈ s.closed then s else s.setTakeScreenshot r
  | .take vs frame => if frame.valid = true ∧ s.taken vs = none then s.take vs frame else s
  | .handle vs => s.handle env vs
  | .finish k => s.finish env k
  | .close conn => { s with closed := insert conn s.closed }

def machine (env : Env) : Machine State Event Empty := ⟨fun s e => (next env s e, [])⟩

/-! ### Requests that are kept -/

namespace State

/-- The request is in the map, under its display, in the hands of a service, or with a thread that
answers it from a frame of its source. -/
def Pending (s : State) (n : ℕ) (r : Request) : Prop :=
  (∃ screenshot, s.screenshots (toUsize r.display) = some screenshot ∧ screenshot.request = n) ∨
    (∃ vs screenshot frame, s.taken vs = some (screenshot, frame) ∧ screenshot.request = n) ∨
      ∃ k thread, s.threads k = some thread ∧ thread.screenshot.request = n ∧
        thread.source = r.source

def answered (s : State) : List ℕ := s.answers.map (·.request)

/-- It has one answer, with its own `sid` and from a frame of its source. -/
def Answered (s : State) (n : ℕ) (r : Request) : Prop :=
  s.answered.count n = 1 ∧ ∀ a ∈ s.answers, a.request = n →
    a.tx = r.conn ∧ a.response.sid = r.sid ∧ a.source = r.source

def Kept (s : State) : Prop :=
  ∀ n r, s.requests[n]? = some r → (s.Pending n r ∧ n ∉ s.answered) ∨ s.Answered n r

end State

/-- The service shows the source that the request is for. -/
def OwnSource (s : State) (vs : VideoService) (screenshot : Screenshot) : Prop :=
  ∀ r, s.requests[screenshot.request]? = some r → vs.source = r.source

/-- A frame with which the request that was taken for it is not lost. -/
def SafeFrame (env : Env) (s : State) (vs : VideoService) (screenshot : Screenshot) : Frame → Prop
  | .pixelBuffer f =>
    getRgbaFromPixelbuf env.abgrToArgb f ≠ none ∧ OwnSource s vs screenshot
  | .texture _ =>
    if screenshot.restoreVram then OwnSource s vs screenshot else s.screenshots vs.idx = none

def Safe (env : Env) (s : State) : Event → Prop
  | .request r => r.conn ∉ s.closed → s.screenshots (toUsize r.display) = none
  | .handle vs =>
    ∀ screenshot frame, s.taken vs = some (screenshot, frame) →
      SafeFrame env s vs screenshot frame
  | .finish k => ∀ thread, s.threads k = some thread → thread.screenshot.tx ∉ s.closed
  | .take _ _ | .close _ => True

/-! ### Where the requests are -/

inductive Place
  | pending (idx : ℕ)
  | taken (vs : VideoService)
  | thread (k : ℕ)
  deriving DecidableEq

def Place.Of (r : Request) : Place → Prop
  | pending idx => toUsize r.display = idx
  | taken vs => toUsize r.display = vs.idx
  | thread _ => True

def places (screenshots : Table ℕ Screenshot) (taken : Table VideoService (Screenshot × Frame))
    (threads : Table ℕ Thread) : Table Place Screenshot
  | .pending idx => screenshots idx
  | .taken vs => (taken vs).map Prod.fst
  | .thread k => (threads k).map (·.screenshot)

section Places

variable {screenshots : Table ℕ Screenshot} {taken : Table VideoService (Screenshot × Frame)}
  {threads : Table ℕ Thread}

theorem places_insert_pending (idx : ℕ) (x : Screenshot) :
    places (screenshots.insert idx x) taken threads =
      (places screenshots taken threads).insert (.pending idx) x := by
  funext p
  rw [Table.insert_apply]
  cases p with
  | pending i => simp only [places, Table.insert_apply, Place.pending.injEq]
  | taken | thread => rw [if_neg Place.noConfusion]; rfl

theorem places_remove_pending (idx : ℕ) :
    places (screenshots.remove idx) taken threads =
      (places screenshots taken threads).remove (.pending idx) := by
  funext p
  rw [Table.remove_apply]
  cases p with
  | pending i => simp only [places, Table.remove_apply, Place.pending.injEq]
  | taken | thread => rw [if_neg Place.noConfusion]; rfl

theorem places_insert_taken (vs : VideoService) (x : Screenshot) (frame : Frame) :
    places screenshots (taken.insert vs (x, frame)) threads =
      (places screenshots taken threads).insert (.taken vs) x := by
  funext p
  rw [Table.insert_apply]
  cases p with
  | pending | thread => rw [if_neg Place.noConfusion]; rfl
  | taken vs' =>
    simp only [places, Table.insert_apply, Place.taken.injEq]
    split <;> rfl

theorem places_remove_taken (vs : VideoService) :
    places screenshots (taken.remove vs) threads =
      (places screenshots taken threads).remove (.taken vs) := by
  funext p
  rw [Table.remove_apply]
  cases p with
  | pending | thread => rw [if_neg Place.noConfusion]; rfl
  | taken vs' =>
    simp only [places, Table.remove_apply, Place.taken.injEq]
    split <;> rfl

theorem places_insert_thread (k : ℕ) (thread : Thread) :
    places screenshots taken (threads.insert k thread) =
      (places screenshots taken threads).insert (.thread k) thread.screenshot := by
  funext p
  rw [Table.insert_apply]
  cases p with
  | pending | taken => rw [if_neg Place.noConfusion]; rfl
  | thread k' =>
    simp only [places, Table.insert_apply, Place.thread.injEq]
    split <;> rfl

theorem places_remove_thread (k : ℕ) :
    places screenshots taken (threads.remove k) =
      (places screenshots taken threads).remove (.thread k) := by
  funext p
  rw [Table.remove_apply]
  cases p with
  | pending | taken => rw [if_neg Place.noConfusion]; rfl
  | thread k' =>
    simp only [places, Table.remove_apply, Place.thread.injEq]
    split <;> rfl

end Places

def numbers (t : Table Place Screenshot) : Table Place ℕ := fun p => (t p).map Screenshot.request

theorem numbers_insert (t : Table Place Screenshot) (p : Place) (x : Screenshot) :
    numbers (t.insert p x) = (numbers t).insert p x.request := by
  funext q
  simp only [numbers, Table.insert_apply]
  split <;> rfl

theorem numbers_remove (t : Table Place Screenshot) (p : Place) :
    numbers (t.remove p) = (numbers t).remove p := by
  funext q
  simp only [numbers, Table.remove_apply]
  split <;> rfl

namespace State

def shot (s : State) : Table Place Screenshot := places s.screenshots s.taken s.threads

def custody (s : State) : Custody Place where
  held := numbers s.shot
  issued := s.requests.length
  done := s.answered

variable {s : State} {x : Screenshot}

theorem held_of_shot {p : Place} (h : s.shot p = some x) :
    s.custody.held p = some x.request := congrArg (Option.map Screenshot.request) h

theorem held_eq_none {p : Place} : s.custody.held p = none ↔ s.shot p = none :=
  Option.map_eq_none_iff

variable {vs : VideoService}

theorem shot_taken {frame : Frame}
    (h : s.taken vs = some (x, frame)) : s.shot (.taken vs) = some x :=
  congrArg (Option.map Prod.fst) h

variable {thread : Thread} {k : ℕ}

theorem shot_thread (h : s.threads k = some thread) :
    s.shot (.thread k) = some thread.screenshot := congrArg (Option.map Thread.screenshot) h

/-! ### What the steps do to the places -/

theorem shot_setTakeScreenshot (r : Request) :
    (s.setTakeScreenshot r).shot = s.shot.insert (.pending (toUsize r.display))
      ⟨r.sid, r.conn, false, s.requests.length⟩ := places_insert_pending _ _

theorem take_eq (h : s.screenshots vs.idx = some x) (frame : Frame) : s.take vs frame =
    { s with
      screenshots := s.screenshots.remove vs.idx
      taken := s.taken.insert vs (x, frame) } := by
  unfold take
  rw [h]

theorem shot_take (h : s.screenshots vs.idx = some x) (frame : Frame) : (s.take vs frame).shot =
    (s.shot.remove (.pending vs.idx)).insert (.taken vs) x := by
  rw [take_eq h]
  unfold shot
  rw [places_insert_taken, places_remove_pending]

theorem shot_switch (vs : VideoService) (x : Screenshot) :
    (s.switch vs x).shot = (s.shot.remove (.taken vs)).insert (.pending vs.idx)
      { x with restoreVram := true } := by
  unfold shot switch
  rw [places_insert_pending, places_remove_taken]

theorem shot_spawn (vs : VideoService) (x : Screenshot) (msg : List Char) (w h : ℕ)
    (data : Bytes) : (s.spawn vs x msg w h data).shot =
      (s.shot.remove (.taken vs)).insert (.thread s.spawned) x := by
  unfold shot spawn
  rw [places_insert_thread, places_remove_taken]

theorem shot_panic (vs : VideoService) : (s.panic vs).shot = s.shot.remove (.taken vs) :=
  places_remove_taken vs

theorem finish_unsent (env : Env) (h : s.threads k = some thread)
    (hclosed : thread.screenshot.tx ∈ s.closed) : s.finish env k =
    { s with threads := s.threads.remove k } := by
  unfold finish
  rw [h]
  exact if_pos hclosed

theorem finish_sent (env : Env) (h : s.threads k = some thread)
    (hopen : thread.screenshot.tx ∉ s.closed) : s.finish env k =
    { s with threads := s.threads.remove k, answers := s.answers ++ [thread.answer env] } := by
  unfold finish
  rw [h]
  exact if_neg hopen

/-! ### What they do to the custody -/

theorem custody_of_move {s' : State} {p q : Place} {x x' : Screenshot} (hp : s.shot p = some x)
    (hshot : s'.shot = (s.shot.remove p).insert q x') (hx : x'.request = x.request)
    (hrequests : s'.requests = s.requests) (hanswers : s'.answers = s.answers) :
    s'.custody = s.custody.move p q := by
  rw [Custody.move_eq (held_of_shot hp)]
  unfold custody answered
  rw [hshot, numbers_insert, numbers_remove, hx, hrequests, hanswers]

theorem custody_setTakeScreenshot (r : Request) :
    (s.setTakeScreenshot r).custody = s.custody.issue (.pending (toUsize r.display)) := by
  have hlength : (s.requests ++ [r]).length = s.requests.length + 1 := List.length_append
  unfold custody Custody.issue
  rw [shot_setTakeScreenshot, numbers_insert]
  exact congrArg (fun n => Custody.mk _ n s.answered) hlength

theorem custody_take (h : s.screenshots vs.idx = some x) (frame : Frame) : (s.take vs frame).custody
    = s.custody.move (.pending vs.idx) (.taken vs) :=
  custody_of_move h (shot_take h frame) rfl (by rw [take_eq h]) (by rw [take_eq h])

theorem custody_switch (h : s.shot (.taken vs) = some x) :
    (s.switch vs x).custody = s.custody.move (.taken vs) (.pending vs.idx) :=
  custody_of_move h (shot_switch vs x) rfl rfl rfl

theorem custody_spawn (h : s.shot (.taken vs) = some x) (msg : List Char) (w h' : ℕ) (data : Bytes)
    : (s.spawn vs x msg w h' data).custody = s.custody.move (.taken vs) (.thread s.spawned) :=
  custody_of_move h (shot_spawn vs x msg w h' data) rfl rfl rfl

theorem custody_panic (vs : VideoService) : (s.panic vs).custody = s.custody.drop (.taken vs) := by
  unfold custody Custody.drop
  rw [shot_panic, numbers_remove]
  rfl

theorem custody_unsent (env : Env) (h : s.threads k = some thread)
    (hclosed : thread.screenshot.tx ∈ s.closed) : (s.finish env k).custody = s.custody.drop
    (.thread k) := by
  rw [finish_unsent env h hclosed]
  unfold custody Custody.drop shot
  rw [places_remove_thread, numbers_remove]
  rfl

theorem custody_sent (env : Env) (h : s.threads k = some thread)
    (hopen : thread.screenshot.tx ∉ s.closed) : (s.finish env k).custody = s.custody.finish
    (.thread k) := by
  rw [Custody.finish_eq (held_of_shot (shot_thread h)), finish_sent env h hopen]
  unfold custody shot answered
  rw [places_remove_thread, numbers_remove, List.map_append]
  rfl

/-! ### What every state has -/

/-- The screenshot is of a request for the display of its place. -/
def Of (s : State) (p : Place) (x : Screenshot) : Prop :=
  ∃ r, s.requests[x.request]? = some r ∧ x.sid = r.sid ∧ x.tx = r.conn ∧ p.Of r

/-- No request is in two places or answered twice, and all that is there is of a request. -/
structure Sound (s : State) : Prop where
  custody : s.custody.Sound
  shots : ∀ p x, s.shot p = some x → s.Of p x
  threads : ∀ k thread, s.threads k = some thread → k < s.spawned
  answers : ∀ a ∈ s.answers, ∃ r, s.requests[a.request]? = some r ∧ a.tx = r.conn ∧
    a.response.sid = r.sid

/-- All that is answered, or is about to be, is from a frame of its source. -/
structure Own (s : State) : Prop where
  threads : ∀ k thread, s.threads k = some thread →
    ∀ r, s.requests[thread.screenshot.request]? = some r → thread.source = r.source
  answers : ∀ a ∈ s.answers, ∀ r, s.requests[a.request]? = some r → a.source = r.source

theorem lt_of_getElem? {n : ℕ} {r : Request} (h : s.requests[n]? = some r) :
    n < s.requests.length := (List.getElem?_eq_some_iff.mp h).1

theorem Pending.held {n : ℕ} {r : Request} (h : s.Pending n r) :
    ∃ p, s.custody.held p = some n := by
  rcases h with ⟨x, hx, rfl⟩ | ⟨vs, x, frame, hx, rfl⟩ | ⟨k, thread, hx, rfl, -⟩
  · exact ⟨.pending (toUsize r.display), held_of_shot hx⟩
  · exact ⟨.taken vs, held_of_shot (shot_taken hx)⟩
  · exact ⟨.thread k, held_of_shot (shot_thread hx)⟩

theorem Answered.mem {n : ℕ} {r : Request} (h : s.Answered n r) : n ∈ s.answered := by
  rw [← List.count_pos_iff, h.1]
  exact Nat.one_pos

/-- **The requests are kept** exactly when none is lost and none is answered for another source. -/
theorem kept_iff (hs : s.Sound) : s.Kept ↔ s.custody.Kept ∧ s.Own := by
  constructor
  · intro hkept
    refine ⟨fun n hn => ?_, ⟨fun k thread hk r hr => ?_, fun a ha r hr => ?_⟩⟩
    · rcases hkept n s.requests[n] (List.getElem?_eq_getElem hn) with ⟨hpending, -⟩ | hanswered
      · exact .inl hpending.held
      · exact .inr hanswered.mem
    · have hheld := held_of_shot (shot_thread hk)
      rcases hkept _ r hr with ⟨hpending, -⟩ | hanswered
      · -- it is in no other place
        rcases hpending with ⟨x, hx, hn⟩ | ⟨vs, x, frame, hx, hn⟩ | ⟨k', thread', hx, hn, hown⟩
        · have hx' := held_of_shot (p := .pending (toUsize r.display)) hx
          rw [hn] at hx'
          exact Place.noConfusion (hs.custody.inj hx' hheld)
        · have hx' := held_of_shot (shot_taken hx)
          rw [hn] at hx'
          exact Place.noConfusion (hs.custody.inj hx' hheld)
        · have hx' := held_of_shot (shot_thread hx)
          rw [hn] at hx'
          obtain rfl := Place.thread.inj (hs.custody.inj hx' hheld)
          rw [hk] at hx
          rw [Option.some.inj hx]
          exact hown
      · exact absurd hanswered.mem (hs.custody.disjoint hheld)
    · rcases hkept _ r hr with ⟨-, hnone⟩ | ⟨-, hright⟩
      · exact absurd (List.mem_map_of_mem ha) hnone
      · exact (hright a ha rfl).2.2
  · rintro ⟨hkept, hown⟩ n r hr
    rcases hkept n (lt_of_getElem? hr) with ⟨p, hp⟩ | hdone
    · refine .inl ⟨?_, hs.custody.disjoint hp⟩
      obtain ⟨x, hx, rfl⟩ := Option.map_eq_some_iff.mp hp
      obtain ⟨r', hr', -, -, hplace⟩ := hs.shots p x hx
      rw [hr] at hr'
      obtain rfl := Option.some.inj hr'
      cases p with
      | pending idx =>
        change toUsize r.display = idx at hplace
        subst hplace
        exact .inl ⟨x, hx, rfl⟩
      | taken vs =>
        obtain ⟨⟨x', frame⟩, htaken, hx'⟩ := Option.map_eq_some_iff.mp hx
        exact .inr (.inl ⟨vs, x', frame, htaken, congrArg Screenshot.request hx'⟩)
      | thread k =>
        obtain ⟨thread, hk, rfl⟩ := Option.map_eq_some_iff.mp hx
        exact .inr (.inr ⟨k, thread, hk, rfl, hown.threads k thread hk r hr⟩)
    · refine .inr ⟨List.count_eq_one_of_mem hs.custody.nodup hdone, ?_⟩
      rintro a ha rfl
      obtain ⟨r', hr', htx, hsid⟩ := hs.answers a ha
      rw [hr] at hr'
      obtain rfl := Option.some.inj hr'
      exact ⟨htx, hsid, hown.answers a ha r hr⟩

/-! ### What the steps keep sound -/

theorem init_sound : init.Sound where
  custody := by
    have hnone : ∀ p : Place, init.custody.held p = none := fun p => by cases p <;> rfl
    have hheld : ∀ {p : Place} {n : ℕ}, init.custody.held p ≠ some n := by
      intro p n hp
      rw [hnone p] at hp
      exact Option.some_ne_none n hp.symm
    exact ⟨fun hp => absurd hp hheld, fun hp => absurd hp hheld, fun hn => absurd hn
      List.not_mem_nil, List.nodup_nil, fun hp => absurd hp hheld⟩
  shots p x h := by cases p <;> exact absurd h (Option.some_ne_none x).symm
  threads k thread h := absurd h (Option.some_ne_none thread).symm
  answers a ha := absurd ha List.not_mem_nil

theorem init_kept : init.Kept := fun n r h => by cases h

theorem shots_of_move {s' : State} {p q : Place} (hs : s.Sound)
    (hshot : s'.shot = (s.shot.remove p).insert q x) (hrequests : s.requests <+: s'.requests)
    (hx : s'.Of q x) : ∀ r y, s'.shot r = some y → s'.Of r y := by
  intro r y hy
  rw [hshot, Table.insert_apply] at hy
  split at hy
  · next hrq =>
    rw [← Option.some.inj hy, hrq]
    exact hx
  · rw [Table.remove_apply] at hy
    split at hy
    · exact absurd hy (Option.some_ne_none y).symm
    · obtain ⟨req, hreq, hrest⟩ := hs.shots r y hy
      exact ⟨req, getElem?_of_prefix hrequests hreq, hrest⟩

theorem shots_of_drop {s' : State} {p : Place} (hs : s.Sound) (hshot : s'.shot = s.shot.remove p)
    (hrequests : s'.requests = s.requests) : ∀ r y, s'.shot r = some y → s'.Of r y := by
  intro r y hy
  rw [hshot, Table.remove_apply] at hy
  split at hy
  · exact absurd hy (Option.some_ne_none y).symm
  · unfold Of
    rw [hrequests]
    exact hs.shots r y hy

theorem Sound.setTakeScreenshot (hs : s.Sound) (r : Request) : (s.setTakeScreenshot r).Sound := by
  have hlast : (s.requests ++ [r])[s.requests.length]? = some r := List.getElem?_concat_length
  refine ⟨?_, fun p y hy => ?_, hs.threads, fun a ha => ?_⟩
  · rw [custody_setTakeScreenshot]
    exact hs.custody.issue _
  · rw [shot_setTakeScreenshot, Table.insert_apply] at hy
    split at hy
    · next hp =>
      rw [← Option.some.inj hy, hp]
      exact ⟨r, hlast, rfl, rfl, rfl⟩
    · obtain ⟨req, hreq, hrest⟩ := hs.shots p y hy
      exact ⟨req, getElem?_of_prefix (List.prefix_append _ _) hreq, hrest⟩
  · obtain ⟨req, hreq, hrest⟩ := hs.answers a ha
    exact ⟨req, getElem?_of_prefix (List.prefix_append _ _) hreq, hrest⟩

theorem Sound.take (hs : s.Sound)
    (h : s.screenshots vs.idx = some x) (frame : Frame) : (s.take vs frame).Sound := by
  have hcustody := hs.custody.move (.pending vs.idx) (.taken vs)
  rw [← custody_take h frame] at hcustody
  have hshots := shots_of_move hs (shot_take h frame) (by rw [take_eq h]) <| by
    rw [take_eq h]
    exact hs.shots (.pending vs.idx) x h
  rw [take_eq h] at hcustody hshots ⊢
  exact ⟨hcustody, hshots, hs.threads, hs.answers⟩

theorem Sound.switch (hs : s.Sound) (h : s.shot (.taken vs) = some x) : (s.switch vs x).Sound := by
  refine ⟨?_, shots_of_move hs (shot_switch vs x) (List.prefix_refl _) (hs.shots (.taken vs) x h),
    hs.threads, hs.answers⟩
  rw [custody_switch h]
  exact hs.custody.move _ _

theorem Sound.spawn (hs : s.Sound) (h : s.shot (.taken vs) = some x) (msg : List Char) (w h' : ℕ)
    (data : Bytes) : (s.spawn vs x msg w h' data).Sound := by
  have hof : (s.spawn vs x msg w h' data).Of (.thread s.spawned) x := by
    obtain ⟨r, hr, hsid, htx, -⟩ := hs.shots (.taken vs) x h
    exact ⟨r, hr, hsid, htx, trivial⟩
  refine ⟨?_, shots_of_move hs (shot_spawn vs x msg w h' data) (List.prefix_refl _) hof,
    fun k thread hk => ?_, hs.answers⟩
  · rw [custody_spawn h]
    exact hs.custody.move _ _
  · change s.threads.insert s.spawned _ k = some thread at hk
    rw [Table.insert_apply] at hk
    split at hk
    · next hk' =>
      rw [hk']
      exact Nat.lt_succ_self _
    · exact Nat.lt_succ_of_lt (hs.threads k thread hk)

theorem Sound.panic (hs : s.Sound) (vs : VideoService) : (s.panic vs).Sound := by
  refine ⟨?_, shots_of_drop hs (shot_panic vs) rfl, hs.threads, hs.answers⟩
  rw [custody_panic]
  exact hs.custody.drop _

theorem Sound.finish (hs : s.Sound) (env : Env) (k : ℕ) : (s.finish env k).Sound := by
  cases hk : s.threads k with
  | none =>
    unfold State.finish
    rw [hk]
    exact hs
  | some thread =>
    have hthreads : ∀ k' thread', s.threads.remove k k' = some thread' → k' < s.spawned := by
      intro k' thread' h'
      rw [Table.remove_apply] at h'
      split at h'
      · exact absurd h' (Option.some_ne_none thread').symm
      · exact hs.threads k' thread' h'
    have hcustody := hs.custody
    by_cases hclosed : thread.screenshot.tx ∈ s.closed
    · have hdrop := hcustody.drop (.thread k)
      rw [← custody_unsent env hk hclosed] at hdrop
      rw [finish_unsent env hk hclosed] at hdrop ⊢
      exact ⟨hdrop, shots_of_drop hs (places_remove_thread k) rfl, hthreads, hs.answers⟩
    · have hfinish := hcustody.finish (.thread k)
      rw [← custody_sent env hk hclosed] at hfinish
      rw [finish_sent env hk hclosed] at hfinish ⊢
      refine ⟨hfinish, shots_of_drop hs (places_remove_thread k) rfl, hthreads, fun a ha => ?_⟩
      rcases List.mem_append.mp ha with ha | ha
      · exact hs.answers a ha
      · obtain rfl := List.mem_singleton.mp ha
        obtain ⟨r, hr, hsid, htx, -⟩ := hs.shots (.thread k) _ (shot_thread hk)
        exact ⟨r, hr, htx, (sid_handleScreenshot env thread).trans hsid⟩

/-! ### What the steps keep of the sources -/

theorem Own.setTakeScreenshot (h : s.Own) (hs : s.Sound) (r : Request) :
    (s.setTakeScreenshot r).Own := by
  -- what is there is of an earlier request
  have hearlier : ∀ {n : ℕ} {r₁ r₂ : Request}, s.requests[n]? = some r₁ →
      (s.requests ++ [r])[n]? = some r₂ → r₂ = r₁ := by
    intro n r₁ r₂ h₁ h₂
    have hsame := getElem?_of_prefix (List.prefix_append s.requests [r]) h₁
    exact Option.some.inj (h₂.symm.trans hsame)
  refine ⟨fun k thread hk r' hr' => ?_, fun a ha r' hr' => ?_⟩
  · obtain ⟨r₁, hr₁, -⟩ := hs.shots (.thread k) _ (shot_thread hk)
    rw [hearlier hr₁ hr']
    exact h.threads k thread hk r₁ hr₁
  · obtain ⟨r₁, hr₁, -⟩ := hs.answers a ha
    rw [hearlier hr₁ hr']
    exact h.answers a ha r₁ hr₁

theorem own_spawn_iff (h : s.Own) (vs : VideoService) (x : Screenshot) (msg : List Char) (w h' : ℕ)
    (data : Bytes) : (s.spawn vs x msg w h' data).Own ↔ OwnSource s vs x := by
  constructor
  · intro hown r hr
    exact hown.threads s.spawned ⟨x, msg, w, h', data, vs.source⟩ (Table.insert_self _ _ _) r hr
  · intro hsource
    refine ⟨fun k thread hk r hr => ?_, h.answers⟩
    change s.threads.insert s.spawned _ k = some thread at hk
    rw [Table.insert_apply] at hk
    split at hk
    · obtain rfl := Option.some.inj hk
      exact hsource r hr
    · exact h.threads k thread hk r hr

theorem Own.finish (h : s.Own) (env : Env) (hk : s.threads k = some thread)
    (hopen : thread.screenshot.tx ∉ s.closed) : (s.finish env k).Own := by
  rw [finish_sent env hk hopen]
  refine ⟨fun k' thread' hk' => ?_, fun a ha => ?_⟩
  · change s.threads.remove k k' = some thread' at hk'
    rw [Table.remove_apply] at hk'
    split at hk'
    · exact absurd hk' (Option.some_ne_none thread').symm
    · exact h.threads k' thread' hk'
  · rcases List.mem_append.mp ha with ha | ha
    · exact h.answers a ha
    · obtain rfl := List.mem_singleton.mp ha
      exact h.threads k thread hk

end State

/-! ### The steps -/

section Steps

variable {env : Env} {s : State}

theorem kept_spawn_iff (hs : s.Sound) (hcustody : s.custody.Kept) (hown : s.Own) {vs : VideoService}
    {x : Screenshot} (hx : s.shot (.taken vs) = some x) (msg : List Char) (w h : ℕ) (data : Bytes) :
    (s.spawn vs x msg w h data).Kept ↔ OwnSource s vs x := by
  -- a new thread has a place of its own
  have hfree : s.custody.held (.thread s.spawned) = none := by
    rw [State.held_eq_none]
    change (s.threads s.spawned).map _ = none
    cases hthread : s.threads s.spawned with
    | none => rfl
    | some thread => exact absurd (hs.threads _ thread hthread) (Nat.lt_irrefl _)
  have hkept : (s.spawn vs x msg w h data).custody.Kept := by
    rw [State.custody_spawn hx, hs.custody.kept_move_iff hcustody (State.held_of_shot hx)
      Place.noConfusion]
    exact hfree
  rw [State.kept_iff (hs.spawn hx msg w h data), State.own_spawn_iff hown]
  exact and_iff_right hkept

theorem kept_panic (hs : s.Sound) (hcustody : s.custody.Kept) {vs : VideoService} {x : Screenshot}
    (hx : s.shot (.taken vs) = some x) : ¬ (s.panic vs).Kept := by
  intro hkept
  have hlost := ((State.kept_iff (hs.panic vs)).mp hkept).1
  rw [State.custody_panic, hs.custody.kept_drop_iff hcustody, State.held_of_shot hx] at hlost
  exact Option.some_ne_none _ hlost

theorem kept_switch_iff (hs : s.Sound) (hcustody : s.custody.Kept) (hown : s.Own)
    {vs : VideoService} {x : Screenshot} (hx : s.shot (.taken vs) = some x) :
    (s.switch vs x).Kept ↔ s.screenshots vs.idx = none := by
  have hown' : (s.switch vs x).Own := ⟨hown.threads, hown.answers⟩
  rw [State.kept_iff (hs.switch hx), State.custody_switch hx,
    hs.custody.kept_move_iff hcustody (State.held_of_shot hx) Place.noConfusion,
    State.held_eq_none, and_iff_left hown']
  rfl

/-- **A frame** loses the request that was taken for it, or has it answered for another source, or
puts it where another is, exactly when it is not safe. -/
theorem kept_handleFrame_iff (hs : s.Sound) (hcustody : s.custody.Kept) (hown : s.Own)
    {vs : VideoService} {x : Screenshot} (hx : s.shot (.taken vs) = some x) (frame : Frame) :
    (s.handleFrame env vs x frame).Kept ↔ SafeFrame env s vs x frame := by
  have hspawn := kept_spawn_iff hs hcustody hown hx
  unfold State.handleFrame SafeFrame
  cases frame with
  | pixelBuffer f =>
    dsimp only
    cases hget : getRgbaFromPixelbuf env.abgrToArgb f with
    | none => exact iff_of_false (kept_panic hs hcustody hx) fun h => h.1 rfl
    | some result =>
      rw [and_iff_right (Option.some_ne_none result)]
      cases result with
      | ok rgba => exact hspawn [] f.width f.height rgba
      | error e => exact hspawn _ 0 0 []
  | texture isNull =>
    dsimp only
    split
    · exact hspawn _ 0 0 []
    · exact kept_switch_iff hs hcustody hown hx

theorem handleFrame_sound (hs : s.Sound) {vs : VideoService} {x : Screenshot}
    (hx : s.shot (.taken vs) = some x) (frame : Frame) :
    (s.handleFrame env vs x frame).Sound := by
  unfold State.handleFrame
  cases frame with
  | pixelBuffer f =>
    dsimp only
    split
    · exact hs.panic vs
    · exact hs.spawn hx _ _ _ _
    · exact hs.spawn hx _ _ _ _
  | texture isNull =>
    dsimp only
    split
    · exact hs.spawn hx _ _ _ _
    · exact hs.switch hx

theorem next_sound (hs : s.Sound) (e : Event) : (next env s e).Sound := by
  unfold next
  cases e with
  | request r =>
    dsimp only
    split
    · exact hs
    · exact hs.setTakeScreenshot r
  | take vs frame =>
    dsimp only
    split
    · cases hx : s.screenshots vs.idx with
      | none =>
        unfold State.take
        rw [hx]
        exact hs
      | some x => exact hs.take hx frame
    · exact hs
  | handle vs =>
    change (s.handle env vs).Sound
    unfold State.handle
    split
    · exact hs
    · next htaken => exact handleFrame_sound hs (State.shot_taken htaken) _
  | finish k => exact hs.finish env k
  | close conn => exact ⟨hs.custody, hs.shots, hs.threads, hs.answers⟩

theorem kept_next_iff (hs : s.Sound) (hkept : s.Kept) (e : Event) :
    (next env s e).Kept ↔ Safe env s e := by
  obtain ⟨hcustody, hown⟩ := (State.kept_iff hs).mp hkept
  cases e with
  | request r =>
    unfold next Safe
    dsimp only
    by_cases hclosed : r.conn ∈ s.closed
    · rw [if_pos hclosed]
      exact iff_of_true hkept fun hopen => absurd hclosed hopen
    · rw [if_neg hclosed, State.kept_iff (hs.setTakeScreenshot r), State.custody_setTakeScreenshot,
        hs.custody.kept_issue_iff hcustody, State.held_eq_none,
        and_iff_left (hown.setTakeScreenshot hs r)]
      exact ⟨fun hfree _ => hfree, fun hfree => hfree hclosed⟩
  | take vs frame =>
    refine iff_of_true ?_ trivial
    unfold next
    dsimp only
    split
    · next hready =>
      cases hx : s.screenshots vs.idx with
      | none =>
        unfold State.take
        rw [hx]
        exact hkept
      | some x =>
        have hfree : s.custody.held (.taken vs) = none := by
          rw [State.held_eq_none]
          change (s.taken vs).map _ = none
          rw [hready.2]
          rfl
        have hheld : s.custody.held (.pending vs.idx) = some x.request := State.held_of_shot hx
        rw [State.kept_iff (hs.take hx frame), State.custody_take hx,
          hs.custody.kept_move_iff hcustody hheld Place.noConfusion, State.take_eq hx]
        exact ⟨hfree, hown.threads, hown.answers⟩
    · exact hkept
  | handle vs =>
    change (s.handle env vs).Kept ↔ ∀ x frame, s.taken vs = some (x, frame) →
      SafeFrame env s vs x frame
    unfold State.handle
    cases htaken : s.taken vs with
    | none =>
      exact iff_of_true hkept fun x frame h => absurd h (Option.some_ne_none (x, frame)).symm
    | some taken =>
      have hframe : (s.handleFrame env vs taken.1 taken.2).Kept ↔
          SafeFrame env s vs taken.1 taken.2 :=
        kept_handleFrame_iff hs hcustody hown (State.shot_taken htaken) taken.2
      refine hframe.trans ⟨fun hsafe x frame h => ?_, fun hsafe => hsafe _ _ rfl⟩
      obtain rfl := Option.some.inj h
      exact hsafe
  | finish k =>
    unfold next Safe
    dsimp only
    cases hk : s.threads k with
    | none =>
      unfold State.finish
      rw [hk]
      exact iff_of_true hkept fun thread h => absurd h (Option.some_ne_none thread).symm
    | some thread =>
      rw [State.kept_iff (hs.finish env k)]
      by_cases hclosed : thread.screenshot.tx ∈ s.closed
      · -- nobody gets the answer
        refine iff_of_false (fun h => ?_) fun h => h thread rfl hclosed
        have hlost := h.1
        rw [State.custody_unsent env hk hclosed, hs.custody.kept_drop_iff hcustody,
          State.held_of_shot (State.shot_thread hk)] at hlost
        exact Option.some_ne_none _ hlost
      · refine iff_of_true ⟨?_, hown.finish env hk hclosed⟩ fun thread' h => ?_
        · rw [State.custody_sent env hk hclosed]
          exact hcustody.finish _
        · obtain rfl := Option.some.inj h
          exact hclosed
  | close conn =>
    refine iff_of_true ?_ trivial
    exact (State.kept_iff (next_sound hs (.close conn))).mpr ⟨hcustody, hown.threads, hown.answers⟩

end Steps

/-- **The requests are kept** in every state of a run exactly when each of its steps is safe. -/
theorem kept_iff_safe (env : Env) (es : List Event) :
    (∀ pre, pre <+: es → ((machine env).run State.init pre).Kept) ↔
      (machine env).Meets (Safe env) State.init es :=
  Machine.meets_iff_inv State.init_kept State.init_sound (fun _ e hs => next_sound hs e)
    fun _ e hs hkept => kept_next_iff hs hkept e

/-- What is true of the requests and answers, also where some are lost. -/
structure Honest (s : State) : Prop where
  one : ∀ p q x y, s.shot p = some x → s.shot q = some y → x.request = y.request → p = q
  waiting : ∀ p x, s.shot p = some x → x.request ∉ s.answered
  once : s.answered.Nodup
  asked : ∀ a ∈ s.answers, ∃ r, s.requests[a.request]? = some r ∧ a.tx = r.conn ∧
    a.response.sid = r.sid

/-- **Every run answers honestly**: no request twice, or while it still waits somewhere, and each to
the connection that made it, with its `sid`. -/
theorem answers_honestly (env : Env) (es : List Event) :
    Honest ((machine env).run State.init es) := by
  have hsound := (machine env).inv_run (I := State.Sound) State.init_sound
    (fun _ e hs => next_sound hs e) es
  refine ⟨fun p q x y hp hq heq => ?_, fun p x hp => ?_, hsound.custody.nodup, hsound.answers⟩
  · exact hsound.custody.inj (State.held_of_shot hp) (heq ▸ State.held_of_shot hq)
  · exact hsound.custody.disjoint (State.held_of_shot hp)

/-- Two connections ask for the same display; the request of the first is nowhere. -/
theorem second_overwrites : ¬ ∀ env es, ((machine env).run State.init es).Kept := by
  intro h
  have hkept := h ⟨swapRows, [], fun _ _ data => .ok data⟩
    [.request ⟨1, .monitor, 0, ['a']⟩, .request ⟨2, .monitor, 0, ['b']⟩]
  rcases hkept 0 ⟨1, .monitor, 0, ['a']⟩ rfl with ⟨hpending, -⟩ | ⟨hone, -⟩
  · rcases hpending with ⟨x, hx, hn⟩ | ⟨vs, x, frame, hx, -⟩ | ⟨k, thread, hx, -⟩
    · -- the second is in its place
      obtain rfl := Option.some.inj hx
      exact absurd hn Nat.one_ne_zero
    · exact Option.some_ne_none _ hx.symm
    · exact Option.some_ne_none _ hx.symm
  · exact absurd hone (by decide)

end LibRustdesk.Screenshots
