import LibRustdesk.Framework.Machine

/-!
# Frames and subscribers of a video service

A frame can be decoded by who has had the frames before it of the same encoder. So the service
thread (`run` and `handle_one_frame` of `server/video_service.rs`) makes a new encoder when a
subscriber joins: it ends its loop with the error `SWITCH`, and enters it again.

* `ServiceInner` is under a lock of its own, which the thread and the connections take for one
  access at a time. `Event` has one event for each access of the thread and each step between,
  besides `subscribe`, `unsubscribe` and `join`.
* A new subscriber is promoted when a snapshot is dropped (`swapNewSubscribes`), and gets frames
  from then on. Its entry has the frames it has been sent, as the number of the encoder and of the
  output. The entries that have ended stay in `ended`.
* `Runs` — each frame of a log is an encoder's first output, or follows the output before it.

`frames_run` says that the logs are such when a new subscriber is promoted without a switch only to
an encoder that has put out nothing. The thread looks for old subscribers instead: when the last one
has left and another has come, it goes on with the encoder it has (`frames_fail`).

What the thread sends besides frames is left out, and so are the causes of a switch that it finds in
its loop (a refresh, another codec, the privacy mode): each is `leave`.
-/

namespace LibRustdesk.Video

structure Frame where
  encoder : ℕ
  index : ℕ
  deriving DecidableEq, Repr

structure EncoderKind where
  isHardware : Bool
  latencyFree : Bool
  android : Bool
  deriving DecidableEq, Repr

inductive ServicePhase
  /-- Outside the loop. -/
  | idle
  /-- The encoder is being set up. -/
  | entering
  | top
  | body
  /-- Before the snapshot of `handle_one_frame`. -/
  | snapshot
  /-- In its callback, which looks for old subscribers. -/
  | counting
  /-- Before the snapshot is dropped, and whether a switch comes then. -/
  | dropping (switch : Bool)
  | encoding
  | sending
  | waiting
  /-- Before the snapshot of `try_broadcast_display_changed`. -/
  | announcing
  deriving DecidableEq, Repr

structure Service where
  subscribes : List (Int32 × List Frame)
  newSubscribes : List Int32
  active : Bool
  phase : ServicePhase
  /-- How many encoders there have been. -/
  encoder : ℕ
  /-- What the last of them has put out. -/
  outputs : ℕ
  kind : EncoderKind
  encodeFailCounter : ℕ
  firstFrame : Bool
  ended : List (List Frame)

inductive ServiceEvent
  | subscribe (id : Int32)
  | unsubscribe (id : Int32)
  | join
  /-- The outer loop looks for subscribers. -/
  | enter
  /-- The encoder is made, or fails. -/
  | start (made : Option EncoderKind)
  /-- `while sp.ok()`. -/
  | check
  /-- The loop ends with an error. -/
  | leave
  | displayChanged
  /-- There is a frame to encode, or none. -/
  | capture (frame : Bool)
  | look
  | count
  | dropSnapshot
  /-- The encoder has a frame, or an error and whether that is `ENCODE_NEED_SWITCH`. -/
  | encode (result : Except Bool Unit)
  | send
  | next

namespace Service

def init : Service := ⟨[], [], true, .idle, 0, 0, ⟨false, false, false⟩, 0, true, []⟩

def hasSubscribes (s : Service) : Bool := !s.subscribes.isEmpty || !s.newSubscribes.isEmpty

def ok (s : Service) : Bool := s.active && s.hasSubscribes

def onSubscribe (s : Service) (id : Int32) : Service :=
  if s.subscribes.any fun e => e.1 = id then s
  else { s with newSubscribes := id :: s.newSubscribes.filter (· ≠ id) }

def onUnsubscribe (s : Service) (id : Int32) : Service :=
  if s.subscribes.any fun e => e.1 = id then
    { s with
      subscribes := s.subscribes.filter fun e => e.1 ≠ id
      ended := s.ended ++ (s.subscribes.filter fun e => e.1 = id).map Prod.snd }
  else { s with newSubscribes := s.newSubscribes.filter (· ≠ id) }

/-- `swap_new_subscribes`: an entry under the same number would end. -/
def swapNewSubscribes (s : Service) : Service :=
  { s with
    subscribes := s.newSubscribes.map (·, []) ++ s.subscribes.filter fun e => e.1 ∉ s.newSubscribes
    newSubscribes := []
    ended := s.ended ++ (s.subscribes.filter fun e => e.1 ∈ s.newSubscribes).map Prod.snd }

def sendVideoFrame (s : Service) : Service :=
  { s with
    subscribes := s.subscribes.map fun e => (e.1, e.2 ++ [⟨s.encoder, s.outputs⟩])
    outputs := s.outputs + 1 }

/-- What `handle_one_frame` does with an error of the encoder. -/
def encodeFailed (s : Service) (needSwitch : Bool) : Service :=
  let counter := s.encodeFailCounter + 1
  let maxFailTimes := if s.kind.android && s.kind.isHardware then 9 else 3
  let s' := { s with firstFrame := false, encodeFailCounter := counter }
  if (s.firstFrame && s.kind.latencyFree) || maxFailTimes ≤ counter then
    let s' := { s' with encodeFailCounter := 0 }
    if s.kind.isHardware || needSwitch then { s' with phase := .idle }
    else { s' with phase := .waiting }
  else if needSwitch then { s' with phase := .idle }
  else { s' with phase := .waiting }

end Service

/-- The service with its thread and its connections, in whatever order they move. -/
def serviceMachine : Machine Service ServiceEvent Unit where
  step s e :=
    (match e, s.phase with
      | .subscribe id, _ => s.onSubscribe id
      | .unsubscribe id, _ => s.onUnsubscribe id
      | .join, _ => { s with active := false }
      | .enter, .idle => if s.active && s.hasSubscribes then { s with phase := .entering } else s
      | .start none, .entering => { s with phase := .idle }
      | .start (some kind), .entering =>
        { s with
          phase := .top, encoder := s.encoder + 1, outputs := 0, kind := kind
          encodeFailCounter := 0, firstFrame := true }
      | .check, .top => if s.ok then { s with phase := .body } else { s with phase := .idle }
      | .leave, .body => { s with phase := .idle }
      | .leave, .waiting => { s with phase := .idle }
      | .displayChanged, .body => { s with phase := .announcing }
      | .displayChanged, .waiting => { s with phase := .announcing }
      | .capture true, .body => { s with phase := .snapshot }
      | .capture false, .body => { s with phase := .waiting }
      | .look, .snapshot =>
        if s.newSubscribes.isEmpty then { s with phase := .encoding }
        else { s with phase := .counting }
      | .count, .counting => { s with phase := .dropping (!s.subscribes.isEmpty) }
      | .look, .announcing =>
        if s.newSubscribes.isEmpty then { s with phase := .idle }
        else { s with phase := .dropping true }
      | .dropSnapshot, .dropping switch =>
        { s.swapNewSubscribes with phase := if switch then .idle else .encoding }
      | .encode (.ok ()), .encoding =>
        { s with phase := .sending, encodeFailCounter := 0, firstFrame := false }
      | .encode (.error needSwitch), .encoding => s.encodeFailed needSwitch
      | .send, .sending => { s.sendVideoFrame with phase := .waiting }
      | .next, .waiting => { s with phase := .top }
      | _, _ => s, [])

/-! ### Runs of frames -/

/-- Each frame is an encoder's first output, or comes right behind the output before it. -/
def Runs (log : List Frame) : Prop :=
  ∀ j enc n, log[j]? = some ⟨enc, n + 1⟩ → ∃ i, j = i + 1 ∧ log[i]? = some ⟨enc, n⟩

/-- The log ends with the last of `n` outputs of the encoder. -/
def InStep (enc n : ℕ) (log : List Frame) : Prop :=
  ∀ m, n = m + 1 → log.getLast? = some ⟨enc, m⟩

theorem Runs.nil : Runs [] := fun _ _ _ h => by cases h

theorem Runs.concat {log : List Frame} (h : Runs log) {enc n : ℕ} (hstep : InStep enc n log) :
    Runs (log ++ [⟨enc, n⟩]) := by
  intro j enc' m hj
  rw [List.getElem?_append] at hj
  split at hj
  · next hlt =>
    -- a frame from before
    obtain ⟨i, rfl, hi⟩ := h j enc' m hj
    exact ⟨i, rfl, by rw [List.getElem?_append_left (by omega)]; exact hi⟩
  · next hge =>
    rw [List.getElem?_singleton] at hj
    split at hj
    · next hz =>
      obtain ⟨rfl, rfl⟩ := Frame.mk.inj (Option.some.inj hj)
      have hlast := hstep m rfl
      have hpos : log ≠ [] := by
        rintro rfl
        cases hlast
      have hlen := List.length_pos_iff.mpr hpos
      refine ⟨log.length - 1, by omega, ?_⟩
      rw [List.getElem?_append_left (by omega), ← List.getLast?_eq_getElem?]
      exact hlast
    · cases hj

theorem InStep.concat (log : List Frame) (enc n : ℕ) : InStep enc (n + 1) (log ++ [⟨enc, n⟩]) := by
  intro m hm
  rw [List.getLast?_concat, Nat.succ.inj hm]

theorem InStep.zero (enc : ℕ) (log : List Frame) : InStep enc 0 log := fun _ hm => by cases hm

/-! ### What the thread keeps -/

def ServicePhase.hasEncoder : ServicePhase → Bool
  | .idle | .entering => false
  | _ => true

/-- All logs are runs, and those of the subscribers end with the last output of the encoder at hand.
-/
structure FramesInv (s : Service) : Prop where
  ended : ∀ log ∈ s.ended, Runs log
  runs : ∀ e ∈ s.subscribes, Runs e.2
  inStep : s.phase.hasEncoder = true → ∀ e ∈ s.subscribes, InStep s.encoder s.outputs e.2

namespace FramesInv

variable {s s' : Service}

theorem rest (h : FramesInv s) (hsub : ∀ e ∈ s'.subscribes, e ∈ s.subscribes)
    (hended : ∀ log ∈ s'.ended, log ∈ s.ended ∨ ∃ e ∈ s.subscribes, e.2 = log)
    (hencoder : s'.phase.hasEncoder = true →
      s.phase.hasEncoder = true ∧ s'.encoder = s.encoder ∧ s'.outputs = s.outputs) :
    FramesInv s' where
  ended log hlog := by
    rcases hended log hlog with hold | ⟨e, he, rfl⟩
    · exact h.ended log hold
    · exact h.runs e he
  runs e he := h.runs e (hsub e he)
  inStep hphase e he := by
    obtain ⟨hhas, henc, hout⟩ := hencoder hphase
    rw [henc, hout]
    exact h.inStep hhas e (hsub e he)

theorem move (h : FramesInv s) {p : ServicePhase}
    (hp : p.hasEncoder = true → s.phase.hasEncoder = true) (counter : ℕ) (first : Bool) :
    FramesInv { s with phase := p, encodeFailCounter := counter, firstFrame := first } :=
  h.rest (fun _ he => he) (fun _ hlog => Or.inl hlog) fun hphase => ⟨hp hphase, rfl, rfl⟩

theorem onSubscribe (h : FramesInv s) (id : Int32) : FramesInv (s.onSubscribe id) := by
  unfold Service.onSubscribe
  split
  · exact h
  · exact ⟨h.ended, h.runs, h.inStep⟩

theorem onUnsubscribe (h : FramesInv s) (id : Int32) : FramesInv (s.onUnsubscribe id) := by
  unfold Service.onUnsubscribe
  split
  · refine h.rest (fun e he => (List.mem_filter.mp he).1) (fun log hlog => ?_)
      fun hp => ⟨hp, rfl, rfl⟩
    rcases List.mem_append.mp hlog with hold | hnew
    · exact Or.inl hold
    · obtain ⟨e, he, rfl⟩ := List.mem_map.mp hnew
      exact Or.inr ⟨e, (List.mem_filter.mp he).1, rfl⟩
  · exact ⟨h.ended, h.runs, h.inStep⟩

theorem swapNewSubscribes (h : FramesInv s) {p : ServicePhase}
    (hp : p.hasEncoder = true →
      s.phase.hasEncoder = true ∧ (s.newSubscribes = [] ∨ s.outputs = 0)) :
    FramesInv { s.swapNewSubscribes with phase := p } where
  ended log hlog := by
    rcases List.mem_append.mp hlog with hold | hnew
    · exact h.ended log hold
    · obtain ⟨e, he, rfl⟩ := List.mem_map.mp hnew
      exact h.runs e (List.mem_filter.mp he).1
  runs e he := by
    rcases List.mem_append.mp he with hnew | hold
    · obtain ⟨id, -, rfl⟩ := List.mem_map.mp hnew
      exact Runs.nil
    · exact h.runs e (List.mem_filter.mp hold).1
  inStep hphase e he := by
    obtain ⟨hhas, hfresh⟩ := hp hphase
    show InStep s.encoder s.outputs e.2
    rcases List.mem_append.mp he with hnew | hold
    · rcases hfresh with hnone | hzero
      · rw [hnone] at hnew
        cases hnew
      · rw [hzero]
        exact InStep.zero _ _
    · exact h.inStep hhas e (List.mem_filter.mp hold).1

theorem sendVideoFrame (h : FramesInv s) (hphase : s.phase.hasEncoder = true) (p : ServicePhase) :
    FramesInv { s.sendVideoFrame with phase := p } where
  ended := h.ended
  runs e he := by
    obtain ⟨e', he', rfl⟩ := List.mem_map.mp he
    exact (h.runs e' he').concat (h.inStep hphase e' he')
  inStep _ e he := by
    obtain ⟨e', _, rfl⟩ := List.mem_map.mp he
    exact InStep.concat e'.2 s.encoder s.outputs

theorem encodeFailed (h : FramesInv s) (hphase : s.phase.hasEncoder = true) (needSwitch : Bool) :
    FramesInv (s.encodeFailed needSwitch) := by
  -- whatever the counter says, the thread only moves on
  have hmoved (p : ServicePhase) (counter : ℕ) : FramesInv
      { s with phase := p, encodeFailCounter := counter, firstFrame := false } :=
    h.move (fun _ => hphase) counter false
  unfold Service.encodeFailed
  dsimp only
  generalize (if (s.kind.android && s.kind.isHardware) = true then 9 else 3) = maxFailTimes
  split
  · split
    · exact hmoved .idle 0
    · exact hmoved .waiting 0
  · split
    · exact hmoved .idle _
    · exact hmoved .waiting _

end FramesInv

/-- Where no switch follows, new subscribers are promoted to an encoder without outputs. -/
def PromotesFresh (s : Service) : ServiceEvent → Prop
  | .dropSnapshot => s.phase = .dropping false → s.newSubscribes = [] ∨ s.outputs = 0
  | _ => True

instance (s : Service) (e : ServiceEvent) : Decidable (PromotesFresh s e) := by
  unfold PromotesFresh
  split <;> infer_instance

theorem FramesInv.step {s : Service} (h : FramesInv s) {e : ServiceEvent} (he : PromotesFresh s e) :
    FramesInv (serviceMachine.next s e) := by
  have hmove {p p' : ServicePhase} (hp : s.phase = p) (hhas : p.hasEncoder = true)
      (counter : ℕ) (first : Bool) :
      FramesInv { s with phase := p', encodeFailCounter := counter, firstFrame := first } :=
    h.move (fun _ => by rw [hp]; exact hhas) counter first
  have hidle : FramesInv { s with phase := .idle } := h.move (fun hp => by cases hp) _ _
  unfold Machine.next serviceMachine
  dsimp only
  split
  · exact h.onSubscribe _
  · exact h.onUnsubscribe _
  · exact ⟨h.ended, h.runs, h.inStep⟩
  · split
    · exact h.move (fun hp => by cases hp) _ _
    · exact h
  · exact hidle
  · -- a new encoder has put out nothing
    exact ⟨h.ended, h.runs, fun _ e _ => InStep.zero _ e.2⟩
  · next hphase =>
    split
    · exact hmove hphase rfl _ _
    · exact hidle
  · exact hidle
  · exact hidle
  · next hphase => exact hmove hphase rfl _ _
  · next hphase => exact hmove hphase rfl _ _
  · next hphase => exact hmove hphase rfl _ _
  · next hphase => exact hmove hphase rfl _ _
  · next hphase =>
    split
    · exact hmove hphase rfl _ _
    · exact hmove hphase rfl _ _
  · next hphase => exact hmove hphase rfl _ _
  · next hphase =>
    split
    · exact hidle
    · exact hmove hphase rfl _ _
  · next switch hphase =>
    -- new subscribers come, and the encoder is fresh or about to go
    refine h.swapNewSubscribes fun hp => ⟨by rw [hphase]; rfl, he ?_⟩
    cases switch with
    | true => cases hp
    | false => exact hphase
  · next hphase => exact hmove hphase rfl _ _
  · next hphase => exact h.encodeFailed (by rw [hphase]; rfl) _
  · next hphase => exact h.sendVideoFrame (by rw [hphase]; rfl) _
  · next hphase => exact hmove hphase rfl _ _
  · exact h

/-- **What subscribers are sent.** Where new subscribers are promoted to fresh encoders, or a switch
follows, what each has been sent, or had been when it left, is made of runs of an encoder's outputs
from its first on. -/
theorem frames_run {es : List ServiceEvent}
    (h : serviceMachine.Meets PromotesFresh Service.init es) :
    (∀ log ∈ (serviceMachine.run Service.init es).ended, Runs log) ∧
      ∀ e ∈ (serviceMachine.run Service.init es).subscribes, Runs e.2 := by
  have hinit : FramesInv Service.init :=
    ⟨fun _ hlog => absurd hlog List.not_mem_nil, fun _ he => absurd he List.not_mem_nil,
      fun _ _ he => absurd he List.not_mem_nil⟩
  have hinv := h.inv_run hinit fun s e he hs => hs.step he
  exact ⟨hinv.ended, hinv.runs⟩

/-- Somebody subscribes, and is sent the first output of an encoder. -/
def firstSubscriber : List ServiceEvent :=
  [.subscribe 1, .enter, .start (some ⟨false, true, false⟩), .check, .capture true, .look, .count,
    .dropSnapshot, .encode (.ok ()), .send]

/-- Then that one leaves, and another subscribes before the thread looks. -/
def nextSubscriber : List ServiceEvent :=
  firstSubscriber ++ [.unsubscribe 1, .subscribe 2, .next, .check, .capture true, .look, .count,
    .dropSnapshot, .encode (.ok ()), .send]

theorem frames_run_first :
    (serviceMachine.run Service.init firstSubscriber).subscribes = [(1, [⟨1, 0⟩])] ∧
      Runs [⟨1, 0⟩] := by
  have hmeets : serviceMachine.Meets PromotesFresh Service.init firstSubscriber := by
    decide +kernel
  exact ⟨by decide +kernel, (frames_run hmeets).2 (1, [⟨1, 0⟩]) (by decide +kernel)⟩

/-- The second subscriber is sent the second output, and has not had the first. -/
theorem frames_fail :
    (serviceMachine.run Service.init nextSubscriber).subscribes = [(2, [⟨1, 1⟩])] ∧
      ¬ Runs [⟨1, 1⟩] := by
  refine ⟨by decide +kernel, fun h => ?_⟩
  obtain ⟨i, hi, -⟩ := h 0 1 0 rfl
  cases hi

end LibRustdesk.Video
