import LibRustdesk.Framework.KeyedMap
import LibRustdesk.Framework.Table
import LibRustdesk.Server.Services
import Mathlib.Data.Finset.Card

/-!
# Waiting for a frame to be fetched

After each frame a video service waits until every connection the frame was sent to has fetched it,
for three seconds at most (`VideoFrameController` and the end of the loop in `run`, in
`src/server/video_service.rs`). A connection that has fetched a frame says so on a channel of the
display index: with the index of the frame when it puts the frame on the wire itself
(`notify_video_frame_fetched`), and on every index it is listed under when its peer acknowledges the
frame or the connection closes (`notify_video_frame_fetched_by_conn_id`). What travels is the
connection's id, without the frame.

The services and the connections are threads of their own. One event is what one of them does
between two points at which another can come in: a frame goes out before the service has noted whom
it waits for, and a connection looks up its displays before it notifies them.

* `Controller.number` and `Controller.acknowledged` are not in the source. They record which frame
  is out, and who has acknowledged that frame, or closed, since it was sent.
* Each round of the wait loop answers a `Round`: whom it is about, whom it has counted, and whether
  the loop ends there by its `break`. It is `Round.Right` when nobody has been counted but the
  connections of the frame that have acknowledged it, and the loop ends with all of them only.
* `Timely` — a round finds no notification in its channel that is for another frame or of another
  connection.

The wait compares the sizes of two sets. What carries the comparison to the sets themselves is
`State.Sound`: all that has been counted is of connections the frame was sent to, and that have
acknowledged it. **Main result** (`right_iff_timely`): the rounds of a run are right exactly when
its steps are timely. A notification that is left over from a wait that ran into its timeout is not
timely, and `leftover_counts` is a run in which two of them end the wait for the next frame at once.
-/

namespace LibRustdesk.FrameFetched

open Desktop (VideoSource)

/-- `VideoService`, without its subscriptions. -/
structure VideoService where
  source : VideoSource
  idx : ℕ
  deriving DecidableEq

/-- The `number`th frame of a service. -/
structure Frame where
  service : VideoService
  number : ℕ
  deriving DecidableEq

/-- Where an iteration of `run` is. -/
inductive Phase
  /-- At its start. -/
  | idle
  /-- `handle_one_frame` has sent a frame to these connections, or has sent none. -/
  | sent (sendConnIds : Finset Int32)
  /-- In the wait loop, with what `fetched_conn_ids` has. -/
  | waiting (fetchedConnIds : Finset Int32)
  deriving DecidableEq

def Phase.isWaiting : Phase → Bool
  | waiting _ => true
  | _ => false

/-- `VideoFrameController`, and the frame it is about. -/
structure Controller where
  sendConnIds : Finset Int32 := ∅
  phase : Phase := .idle
  number : ℕ := 0
  acknowledged : Finset Int32 := ∅

namespace Controller

def reset (c : Controller) : Controller := { c with sendConnIds := ∅ }

/-- `set_send`, of the controller. -/
def setSend (c : Controller) (connIds : Finset Int32) : Controller :=
  if connIds ≠ ∅ then { c with sendConnIds := connIds } else c

def sending (c : Controller) (connIds : Finset Int32) : Controller :=
  { c with phase := .sent connIds, number := c.number + 1, acknowledged := ∅ }

/-- The connection has acknowledged the frame that is out, or has closed. -/
def acknowledge (c : Controller) (conn : Int32) : Controller :=
  { c with acknowledged := insert conn c.acknowledged }

/-- A new controller, of the next `run`. -/
def new (c : Controller) : Controller := { number := c.number }

end Controller

structure State where
  /-- `FRAME_FETCHED_NOTIFIERS`, with what is in each channel. -/
  notifiers : Table ℕ (List Int32)
  /-- `DISPLAY_CONN_IDS`. -/
  displayConnIds : KeyedMap ℕ (Finset Int32)
  /-- What a connection has left of the displays it is about to notify. -/
  vecDisplayIdx : Int32 → List ℕ
  controllers : VideoService → Controller

namespace State

def init : State where
  notifiers := Table.empty
  displayConnIds := ∅
  vecDisplayIdx _ := []
  controllers _ := {}

def channel (s : State) (idx : ℕ) : List Int32 := (s.notifiers idx).getD []

def setController (s : State) (vs : VideoService) (c : Controller) : State :=
  { s with controllers := Function.update s.controllers vs c }

/-- `new`: the channel is made for the first service of the index. -/
def new (s : State) (vs : VideoService) : State :=
  { s with notifiers := s.notifiers.insert vs.idx (s.channel vs.idx) }

def setSend (s : State) (vs : VideoService) (connIds : Finset Int32) : State :=
  let s := s.setController vs ((s.controllers vs).setSend connIds)
  if connIds ≠ ∅ then { s with displayConnIds := s.displayConnIds.insert vs.idx connIds } else s

/-- `try_wait_next`: all that is in the channel is fetched. A call that times out has found the
channel empty. -/
def tryWaitNext (s : State) (vs : VideoService) (fetchedConnIds : Finset Int32) :
    Finset Int32 × State :=
  if (s.controllers vs).sendConnIds = ∅ then (fetchedConnIds, s)
  else
    match s.notifiers vs.idx with
    | none => (fetchedConnIds, s)
    | some ids =>
      (fetchedConnIds ∪ ids.toFinset, { s with notifiers := s.notifiers.insert vs.idx [] })

def waited (s : State) (vs : VideoService) : State :=
  { s.setController vs { s.controllers vs with phase := .idle } with
    displayConnIds := s.displayConnIds.erase vs.idx }

/-- The end of `run`, with the drop of `Raii`. -/
def stop (s : State) (vs : VideoService) : State :=
  { s.setController vs (s.controllers vs).new with
    displayConnIds := s.displayConnIds.erase vs.idx }

/-- The sender of the index, if it is there, gets the id. -/
def send (s : State) (idx : ℕ) (conn : Int32) : State :=
  match s.notifiers idx with
  | some ids => { s with notifiers := s.notifiers.insert idx (ids ++ [conn]) }
  | none => s

/-- The connection acknowledges a frame. It is the one that is out, or an earlier one. -/
def acknowledge (s : State) (conn : Int32) (frame : Frame) : State :=
  let c := s.controllers frame.service
  if frame.number = c.number then s.setController frame.service (c.acknowledge conn) else s

/-- The connection has closed, for every frame that is out. -/
def closed (s : State) (conn : Int32) : State :=
  { s with controllers := fun vs => (s.controllers vs).acknowledge conn }

/-- The first half of `notify_video_frame_fetched_by_conn_id`. -/
def lookUp (s : State) (conn : Int32) : State :=
  let idxs := s.displayConnIds.entries.filterMap fun entry =>
    if conn ∈ entry.2 then some entry.1 else none
  { s with vecDisplayIdx := Function.update s.vecDisplayIdx conn idxs }

def notifyNext (s : State) (conn : Int32) : State :=
  match s.vecDisplayIdx conn with
  | [] => s
  | idx :: idxs =>
    { s.send idx conn with vecDisplayIdx := Function.update s.vecDisplayIdx conn idxs }

end State

inductive Event
  /-- A service is made. -/
  | new (vs : VideoService)
  /-- An iteration resets its controller and sends a frame to the connections subscribed, which may
  be none. -/
  | sendFrame (vs : VideoService) (connIds : Finset Int32)
  /-- It calls `set_send` with them, and goes on to the wait loop. -/
  | setSend (vs : VideoService)
  /-- A round of the wait loop. -/
  | tryWaitNext (vs : VideoService)
  /-- The wait loop finds that its three seconds are over. -/
  | timeout (vs : VideoService)
  /-- `run` ends. -/
  | stop (vs : VideoService)
  /-- A connection that needs no acknowledgement of its peer puts a frame on the wire. -/
  | fetched (conn : Int32) (frame : Frame)
  /-- A connection receives a `VideoReceived` of its peer, for a frame. -/
  | videoReceived (conn : Int32) (frame : Frame)
  /-- A connection closes. -/
  | closed (conn : Int32)
  /-- A connection notifies the next display that it has looked up. -/
  | notifyNext (conn : Int32)

structure Round where
  sendConnIds : Finset Int32
  acknowledged : Finset Int32
  fetchedConnIds : Finset Int32
  /-- The loop ends here, before its timeout. -/
  ends : Bool
  deriving DecidableEq

/-- Nobody counts but connections of the frame that have acknowledged it, and where the loop ends
all of them have. -/
def Round.Right (r : Round) : Prop :=
  r.fetchedConnIds ⊆ r.sendConnIds ∩ r.acknowledged ∧
    (r.ends = true → r.sendConnIds ⊆ r.acknowledged)

instance (r : Round) : Decidable r.Right :=
  inferInstanceAs (Decidable (r.fetchedConnIds ⊆ r.sendConnIds ∩ r.acknowledged ∧
    (r.ends = true → r.sendConnIds ⊆ r.acknowledged)))

def step (s : State) : Event → State × List Round
  | .new vs => (s.new vs, [])
  | .sendFrame vs connIds =>
    match (s.controllers vs).phase with
    | .idle => (s.setController vs ((s.controllers vs).reset.sending connIds), [])
    | _ => (s, [])
  | .setSend vs =>
    match (s.controllers vs).phase with
    | .sent connIds =>
      let s := s.setSend vs connIds
      (s.setController vs { s.controllers vs with phase := .waiting ∅ }, [])
    | _ => (s, [])
  | .tryWaitNext vs =>
    match (s.controllers vs).phase with
    | .waiting fetchedConnIds =>
      let (fetchedConnIds, s) := s.tryWaitNext vs fetchedConnIds
      let c := s.controllers vs
      -- break if all connections have received current frame
      if c.sendConnIds.card ≤ fetchedConnIds.card then
        (s.waited vs, [⟨c.sendConnIds, c.acknowledged, fetchedConnIds, true⟩])
      else
        (s.setController vs { c with phase := .waiting fetchedConnIds },
          [⟨c.sendConnIds, c.acknowledged, fetchedConnIds, false⟩])
    | _ => (s, [])
  | .timeout vs =>
    match (s.controllers vs).phase with
    | .waiting _ => (s.waited vs, [])
    | _ => (s, [])
  | .stop vs => (s.stop vs, [])
  | .fetched conn frame =>
    if s.vecDisplayIdx conn = [] then
      ((s.acknowledge conn frame).send frame.service.idx conn, [])
    else (s, [])
  | .videoReceived conn frame =>
    if s.vecDisplayIdx conn = [] then ((s.acknowledge conn frame).lookUp conn, []) else (s, [])
  | .closed conn =>
    if s.vecDisplayIdx conn = [] then ((s.closed conn).lookUp conn, []) else (s, [])
  | .notifyNext conn => (s.notifyNext conn, [])

def machine : Machine State Event Round := ⟨step⟩

/-- Connections that the frame was sent to and that have acknowledged it, or closed, since. -/
def Controller.Awaits (c : Controller) (ids : List Int32) : Prop :=
  ∀ conn ∈ ids, conn ∈ c.sendConnIds ∧ conn ∈ c.acknowledged

instance (c : Controller) (ids : List Int32) : Decidable (c.Awaits ids) :=
  List.decidableBAll (fun conn => conn ∈ c.sendConnIds ∧ conn ∈ c.acknowledged) ids

/-- A round of the wait loop finds no notification in the channel but those it waits for. -/
def Timely (s : State) : Event → Prop
  | .tryWaitNext vs =>
    (s.controllers vs).phase.isWaiting = true → (s.controllers vs).sendConnIds ≠ ∅ →
      (s.controllers vs).Awaits (s.channel vs.idx)
  | _ => True

instance (s : State) : (e : Event) → Decidable (Timely s e)
  | .tryWaitNext vs => inferInstanceAs (Decidable ((s.controllers vs).phase.isWaiting = true →
      (s.controllers vs).sendConnIds ≠ ∅ → (s.controllers vs).Awaits (s.channel vs.idx)))
  | .new _ | .sendFrame _ _ | .setSend _ | .timeout _ | .stop _ | .fetched _ _ | .videoReceived _ _
  | .closed _ | .notifyNext _ => .isTrue trivial

/-! ### What has been counted in a wait -/

/-- All that a wait has counted are connections that the frame was sent to and that have
acknowledged it. -/
def Controller.Sound (c : Controller) : Prop :=
  ∀ fetchedConnIds, c.phase = .waiting fetchedConnIds →
    fetchedConnIds ⊆ c.sendConnIds ∩ c.acknowledged

def State.Sound (s : State) : Prop := ∀ vs, (s.controllers vs).Sound

theorem Controller.sound_of_not_waiting {c : Controller}
    (h : ∀ fetched, c.phase ≠ .waiting fetched) : c.Sound :=
  fun fetched hphase => absurd hphase (h fetched)

theorem Controller.Sound.acknowledge {c : Controller} (h : c.Sound) (conn : Int32) :
    (c.acknowledge conn).Sound := by
  intro fetched hphase
  have hmore : c.acknowledged ⊆ insert conn c.acknowledged := Finset.subset_insert conn _
  exact (h fetched hphase).trans (Finset.inter_subset_inter_left hmore)

/-- **The sizes decide.** Where all that was counted is of the connections that the frame was sent
to and that have acknowledged it, a count as large as their number leaves nobody out. -/
theorem subset_acknowledged {sendConnIds acknowledged fetchedConnIds : Finset Int32}
    (h : fetchedConnIds ⊆ sendConnIds ∩ acknowledged)
    (hcard : sendConnIds.card ≤ fetchedConnIds.card) : sendConnIds ⊆ acknowledged := by
  have hall : fetchedConnIds = sendConnIds :=
    Finset.eq_of_subset_of_card_le (h.trans Finset.inter_subset_left) hcard
  rw [← hall]
  exact h.trans Finset.inter_subset_right

namespace State

variable {s : State}

theorem init_sound : init.Sound :=
  fun _ => Controller.sound_of_not_waiting fun _ hphase => Phase.noConfusion hphase

theorem Sound.setController (h : s.Sound) (vs : VideoService) {c : Controller} (hc : c.Sound) :
    (s.setController vs c).Sound := by
  intro vs'
  change (Function.update s.controllers vs c vs').Sound
  by_cases hvs : vs' = vs
  · rw [hvs, Function.update_self]
    exact hc
  · rw [Function.update_of_ne hvs]
    exact h vs'

theorem Sound.acknowledge (h : s.Sound) (conn : Int32) (frame : Frame) :
    (s.acknowledge conn frame).Sound := by
  unfold State.acknowledge
  dsimp only
  split
  · exact h.setController _ ((h _).acknowledge conn)
  · exact h

theorem Sound.closed (h : s.Sound) (conn : Int32) : (s.closed conn).Sound :=
  fun vs => (h vs).acknowledge conn

@[simp] theorem controllers_send (idx : ℕ) (conn : Int32) :
    (s.send idx conn).controllers = s.controllers := by
  unfold send
  split <;> rfl

@[simp] theorem controllers_notifyNext (conn : Int32) :
    (s.notifyNext conn).controllers = s.controllers := by
  unfold notifyNext
  split
  · rfl
  · exact controllers_send _ conn

@[simp] theorem controllers_tryWaitNext (vs : VideoService) (fetched : Finset Int32) :
    (s.tryWaitNext vs fetched).2.controllers = s.controllers := by
  unfold tryWaitNext
  split
  · rfl
  · split <;> rfl

theorem Sound.send (h : s.Sound) (idx : ℕ) (conn : Int32) : (s.send idx conn).Sound := by
  unfold Sound
  rw [controllers_send]
  exact h

theorem Sound.setSend (h : s.Sound) (vs : VideoService) {connIds : Finset Int32}
    (hsent : (s.controllers vs).phase = .sent connIds) : (s.setSend vs connIds).Sound := by
  have hsetSend : ((s.controllers vs).setSend connIds).phase = .sent connIds := by
    unfold Controller.setSend
    split <;> exact hsent
  have hset : (s.setController vs ((s.controllers vs).setSend connIds)).Sound := by
    refine h.setController vs (Controller.sound_of_not_waiting fun fetched hphase => ?_)
    rw [hsetSend] at hphase
    exact Phase.noConfusion hphase
  unfold State.setSend
  split <;> exact hset

theorem Sound.waited (h : s.Sound) (vs : VideoService) : (s.waited vs).Sound :=
  h.setController vs (Controller.sound_of_not_waiting fun _ hphase => Phase.noConfusion hphase)

theorem Sound.stop (h : s.Sound) (vs : VideoService) : (s.stop vs).Sound :=
  h.setController vs (Controller.sound_of_not_waiting fun _ hphase => Phase.noConfusion hphase)

theorem Sound.tryWaitNext_iff (h : s.Sound) {vs : VideoService} {fetched : Finset Int32}
    (hphase : (s.controllers vs).phase = .waiting fetched) :
    (s.tryWaitNext vs fetched).1 ⊆
        (s.controllers vs).sendConnIds ∩ (s.controllers vs).acknowledged ↔
      Timely s (.tryWaitNext vs) := by
  have hold := h vs fetched hphase
  have hwaiting : (s.controllers vs).phase.isWaiting = true := by
    rw [hphase]
    rfl
  unfold State.tryWaitNext
  split
  · next hnobody => exact iff_of_true hold fun _ hsend => absurd hnobody hsend
  · next hsend =>
    cases hids : s.notifiers vs.idx with
    | none =>
      refine iff_of_true hold fun _ _ conn hconn => absurd hconn ?_
      unfold channel
      rw [hids]
      exact List.not_mem_nil
    | some ids =>
      have hchannel : s.channel vs.idx = ids := by
        unfold channel
        rw [hids]
        rfl
      constructor
      · intro hcounted _ _ conn hconn
        rw [hchannel, ← List.mem_toFinset] at hconn
        exact Finset.mem_inter.mp (hcounted (Finset.mem_union_right _ hconn))
      · intro htimely
        refine Finset.union_subset hold fun conn hconn => ?_
        rw [List.mem_toFinset, ← hchannel] at hconn
        exact Finset.mem_inter.mpr (htimely hwaiting hsend conn hconn)

end State

theorem step_sound {s : State} {e : Event} (htimely : Timely s e) (h : s.Sound) :
    (machine.next s e).Sound := by
  change (step s e).1.Sound
  unfold step
  cases e with
  | new vs => exact h
  | sendFrame vs connIds =>
    dsimp only
    split
    · refine h.setController vs (Controller.sound_of_not_waiting fun _ hphase => ?_)
      exact Phase.noConfusion hphase
    · exact h
  | setSend vs =>
    dsimp only
    split
    · next connIds hsent =>
      refine (h.setSend vs hsent).setController vs fun fetched hphase => ?_
      -- nothing has been counted yet
      obtain rfl := Phase.waiting.inj hphase
      exact Finset.empty_subset _
    · exact h
  | tryWaitNext vs =>
    dsimp only
    split
    · next fetched hphase =>
      have hcounted := (h.tryWaitNext_iff hphase).mpr htimely
      have hsound : (s.tryWaitNext vs fetched).2.Sound := by
        unfold State.Sound
        rw [State.controllers_tryWaitNext]
        exact h
      rw [State.controllers_tryWaitNext]
      split
      · exact hsound.waited vs
      · refine hsound.setController vs fun fetched' hphase' => ?_
        obtain rfl := Phase.waiting.inj hphase'
        exact hcounted
    · exact h
  | timeout vs =>
    dsimp only
    split
    · exact h.waited vs
    · exact h
  | stop vs => exact h.stop vs
  | fetched conn frame =>
    dsimp only
    split
    · exact (h.acknowledge conn frame).send _ conn
    · exact h
  | videoReceived conn frame =>
    dsimp only
    split
    · exact h.acknowledge conn frame
    · exact h
  | closed conn =>
    dsimp only
    split
    · exact h.closed conn
    · exact h
  | notifyNext conn =>
    unfold State.Sound
    rw [State.controllers_notifyNext]
    exact h

theorem round_right_iff {s : State} (h : s.Sound) (e : Event) :
    (∀ r ∈ machine.out s e, r.Right) ↔ Timely s e := by
  change (∀ r ∈ (step s e).2, r.Right) ↔ Timely s e
  have hnone : ∀ r ∈ ([] : List Round), r.Right := fun _ hr => absurd hr List.not_mem_nil
  unfold step
  cases e with
  | tryWaitNext vs =>
    dsimp only
    split
    · next fetched hphase =>
      rw [← h.tryWaitNext_iff hphase, State.controllers_tryWaitNext]
      split
      · next hcard =>
        rw [List.forall_mem_singleton]
        exact ⟨And.left, fun hcounted => ⟨hcounted, fun _ => subset_acknowledged hcounted hcard⟩⟩
      · rw [List.forall_mem_singleton]
        exact ⟨And.left, fun hcounted => ⟨hcounted, fun hends => Bool.noConfusion hends⟩⟩
    · next hphase =>
      refine iff_of_true hnone fun hwaiting => ?_
      -- the service does not wait
      cases hc : (s.controllers vs).phase with
      | waiting fetched => exact absurd hc (hphase fetched)
      | idle => rw [hc] at hwaiting; exact Bool.noConfusion hwaiting
      | sent connIds => rw [hc] at hwaiting; exact Bool.noConfusion hwaiting
  | _ =>
    refine iff_of_true ?_ trivial
    dsimp only
    first
    | exact hnone
    | split <;> exact hnone

/-- **The wait is right** in every round of a run, and ends early with everybody only, exactly when
no round finds a notification in its channel but those for its frame. -/
theorem right_iff_timely (es : List Event) :
    (∀ r ∈ machine.outputs State.init es, r.Right) ↔ machine.Meets Timely State.init es :=
  Machine.forall_outputs_iff State.init_sound (fun _ _ htimely => step_sound htimely)
    fun _ e hsound => round_right_iff hsound e

/-- Two connections fetch the first frame after its timeout, and have fetched none of the second. -/
theorem leftover_counts : ¬ ∀ es, ∀ r ∈ machine.outputs State.init es,
    r.ends = true → r.sendConnIds ⊆ r.acknowledged := by
  intro h
  have hleft := h [.new ⟨.monitor, 0⟩, .sendFrame ⟨.monitor, 0⟩ {1, 2}, .setSend ⟨.monitor, 0⟩,
    .timeout ⟨.monitor, 0⟩, .fetched 1 ⟨⟨.monitor, 0⟩, 1⟩, .fetched 2 ⟨⟨.monitor, 0⟩, 1⟩,
    .sendFrame ⟨.monitor, 0⟩ {1, 2}, .setSend ⟨.monitor, 0⟩, .tryWaitNext ⟨.monitor, 0⟩]
  revert hleft
  decide +kernel

end LibRustdesk.FrameFetched
