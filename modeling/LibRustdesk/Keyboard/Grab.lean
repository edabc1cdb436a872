import LibRustdesk.Framework.Indexed
import LibRustdesk.Framework.Machine

/-!
# The keyboard grab

`change_grab_status` of `src/keyboard.rs` with the helpers around it, as they are on Linux. Session
windows take the grab (`Run`) and give it up (`Wait`) from threads of their own. The bookkeeping is
under `GRAB_STATE`; what is to be done with the grab itself follows after that lock is released,
under `GRAB_OP_LOCK`, and looks at the bookkeeping again. A `Wait` shortly after a `Run` is taken
for the echo of the grab and put off to a thread that sleeps, and gives the grab up if nobody took
it since.

A critical section is one step, and so is each call into `rdev` that is made while `GRAB_OP_LOCK` is
held. The times that threads read and the moment when one wakes up are the environment's choice. The
keys that are to be released, and the logs, are left out.

The properties rest on two invariants:

* `Follows` — once the operations that are underway or waiting are done, the system grab is what the
  bookkeeping says: for an owner there is an operation that grabs, for no owner one that ungrabs.
* `Booked` — a pending deferred release is one whose thread still finds what it remembers.

`grab_spec` puts them together for **every interleaving**.
-/

namespace LibRustdesk.Keyboard

/-- A `u128`. -/
abbrev SessionId := BitVec 128

/-- An `Instant`, in nanoseconds. -/
abbrev Instant := ℕ

def grabDebounceMs : ℕ := 300

/-- `GRAB_STATE`. -/
structure GrabOwnerState where
  owner : Option SessionId
  lastGrab : Option Instant
  deferredPending : Bool
  deriving DecidableEq, Repr

inductive GrabState
  | ready
  | run
  | wait
  | exit
  deriving DecidableEq, Repr

/-- What a thread does once it has released `GRAB_STATE`. -/
inductive GrabOp
  | applyRunGrabIfOwner (sessionId : SessionId) (disableFirst : Bool)
  | disableGrabIfReleased
  deriving DecidableEq, Repr

inductive RdevCall
  | enableGrab
  | disableGrab
  deriving DecidableEq, Repr

/-- A thread that sleeps before it releases the grab. -/
structure DeferredRelease where
  sessionId : SessionId
  snapshot : Option Instant
  deriving DecidableEq, Repr

structure State where
  isRdevEnabled : Bool
  gs : GrabOwnerState
  keyboardHooked : Bool
  /-- The system grab. -/
  grabbed : Bool
  /-- The operations of threads that do not have `GRAB_OP_LOCK` yet. -/
  waiting : List GrabOp
  /-- What the thread with `GRAB_OP_LOCK` is still to call. -/
  locked : Option (List RdevCall)
  timers : List DeferredRelease
  deriving DecidableEq, Repr

inductive Event
  /-- `change_grab_status`, up to the release of `GRAB_STATE`. -/
  | change (state : GrabState) (sessionId : SessionId) (now : Instant)
  /-- A sleeping thread wakes up. -/
  | fire (timer : ℕ)
  /-- A thread takes `GRAB_OP_LOCK` and looks at the bookkeeping. -/
  | lock (op : ℕ)
  /-- The thread with the lock makes its next call, or releases the lock. -/
  | call
  deriving DecidableEq, Repr

namespace State

def init (isRdevEnabled : Bool) : State :=
  ⟨isRdevEnabled, ⟨none, none, false⟩, false, false, [], none, []⟩

/-- The arm of `GrabState::Run`. -/
def run (s : State) (sessionId : SessionId) (now : Instant) : State :=
  if s.gs.owner = some sessionId then
    { s with gs := ⟨s.gs.owner, some now, false⟩ }
  else
    { s with
      keyboardHooked := true
      gs := ⟨some sessionId, some now, false⟩
      waiting := s.waiting ++ [.applyRunGrabIfOwner sessionId s.gs.owner.isSome] }

def release (s : State) : State :=
  { s with
    keyboardHooked := false
    gs := ⟨none, none, false⟩
    waiting := s.waiting ++ [.disableGrabIfReleased] }

/-- A grab at `t` is too recent for a `Wait` at `now`. -/
def debounced (lastGrab : Option Instant) (now : Instant) : Bool :=
  match lastGrab with
  | none => false
  | some t => (now - t) / 1000000 < grabDebounceMs

/-- The arm of `GrabState::Wait`. -/
def wait (s : State) (sessionId : SessionId) (now : Instant) : State :=
  if s.gs.owner ≠ some sessionId then s
  else if debounced s.gs.lastGrab now then
    if s.gs.deferredPending then s
    else
      { s with
        gs := { s.gs with deferredPending := true }
        timers := s.timers ++ [⟨sessionId, s.gs.lastGrab⟩] }
  else s.release

def deferredRelease (s : State) (t : DeferredRelease) : State :=
  if s.gs.owner = some t.sessionId ∧ s.gs.lastGrab = t.snapshot then s.release else s

def calls (gs : GrabOwnerState) : GrabOp → List RdevCall
  | .applyRunGrabIfOwner sessionId disableFirst =>
    if gs.owner ≠ some sessionId then []
    else if disableFirst then [.disableGrab, .enableGrab]
    else [.enableGrab]
  | .disableGrabIfReleased =>
    if gs.owner.isNone && gs.lastGrab.isNone then [.disableGrab] else []

def changeGrabStatus (s : State) (state : GrabState) (sessionId : SessionId) (now : Instant) :
    State :=
  if !s.isRdevEnabled then s
  else
    match state with
    | .ready => s
    | .run => s.run sessionId now
    | .wait => s.wait sessionId now
    | .exit => s

def fire (s : State) (i : ℕ) : State :=
  match s.timers[i]? with
  | none => s
  | some t => deferredRelease { s with timers := s.timers.eraseIdx i } t

def lock (s : State) (i : ℕ) : State :=
  match s.locked, s.waiting[i]? with
  | none, some op => { s with waiting := s.waiting.eraseIdx i, locked := some (calls s.gs op) }
  | _, _ => s

def call (s : State) : State :=
  match s.locked with
  | none => s
  | some [] => { s with locked := none }
  | some (c :: cs) => { s with grabbed := c == .enableGrab, locked := some cs }

/-- One step. An event that is not possible changes nothing. -/
def next (s : State) : Event → State
  | .change state sessionId now => s.changeGrabStatus state sessionId now
  | .fire i => s.fire i
  | .lock i => s.lock i
  | .call => s.call

end State

def grab : Machine State Event Empty := ⟨fun s e => (s.next e, [])⟩

namespace State

/-! ### The bookkeeping -/

theorem changeGrabStatus_cases (s : State) (state : GrabState) (sessionId : SessionId)
    (now : Instant) : s.changeGrabStatus state sessionId now = s ∨
      (state = .run ∧ s.isRdevEnabled = true) ∧
        s.changeGrabStatus state sessionId now = s.run sessionId now ∨
      state = .wait ∧ s.changeGrabStatus state sessionId now = s.wait sessionId now := by
  unfold changeGrabStatus
  split
  · exact .inl rfl
  · next henabled =>
    rw [Bool.not_eq_true', Bool.not_eq_false] at henabled
    cases state with
    | ready | exit => exact .inl rfl
    | run => exact .inr (.inl ⟨⟨rfl, henabled⟩, rfl⟩)
    | wait => exact .inr (.inr ⟨rfl, rfl⟩)

variable {s : State} {sessionId : SessionId}

theorem wait_of_ne (h : s.gs.owner ≠ some sessionId)
    (now : Instant) : s.changeGrabStatus .wait sessionId now = s := by
  unfold changeGrabStatus wait
  rw [if_pos h]
  exact ite_self s

theorem wait_cases (s : State) (sessionId : SessionId) (now : Instant) :
    s.wait sessionId now = s ∧ (s.gs.owner = some sessionId → s.gs.deferredPending = true) ∨
    s.gs.owner = some sessionId ∧ s.wait sessionId now =
      { s with
        gs := { s.gs with deferredPending := true }
        timers := s.timers ++ [⟨sessionId, s.gs.lastGrab⟩] } ∨
    s.gs.owner = some sessionId ∧ s.wait sessionId now = s.release := by
  unfold wait
  by_cases howner : s.gs.owner = some sessionId
  · rw [if_neg (not_not_intro howner)]
    split
    · split
      · next hpending => exact .inl ⟨rfl, fun _ => hpending⟩
      · exact .inr (.inl ⟨howner, rfl⟩)
    · exact .inr (.inr ⟨howner, rfl⟩)
  · rw [if_pos howner]
    exact .inl ⟨rfl, fun h => absurd h howner⟩

/-- The flag of the hook and the time of the grab are those of an owner; a pending release is one
whose thread still finds the owner and the time that it remembers. -/
structure Booked (s : State) : Prop where
  enabled : s.gs.owner.isSome = true → s.isRdevEnabled = true
  hooked : s.keyboardHooked = s.gs.owner.isSome
  lastGrab : s.gs.lastGrab.isSome = s.gs.owner.isSome
  pending : s.gs.deferredPending = true →
    ∃ t ∈ s.timers, s.gs.owner = some t.sessionId ∧ s.gs.lastGrab = t.snapshot

variable (isRdevEnabled : Bool)

theorem Booked.init : (init isRdevEnabled).Booked :=
  ⟨fun h => (Bool.false_ne_true h).elim, rfl, rfl, fun h => (Bool.false_ne_true h).elim⟩

theorem Booked.release (s : State) : s.release.Booked :=
  ⟨fun h => (Bool.false_ne_true h).elim, rfl, rfl, fun h => (Bool.false_ne_true h).elim⟩

theorem Booked.run (h : s.Booked) (henabled : s.isRdevEnabled = true)
    (sessionId : SessionId) (now : Instant) : (s.run sessionId now).Booked := by
  unfold State.run
  split
  · next howner =>
    refine ⟨fun _ => henabled, h.hooked, ?_, fun hpending => (Bool.false_ne_true hpending).elim⟩
    change true = s.gs.owner.isSome
    rw [howner, Option.isSome_some]
  · exact ⟨fun _ => henabled, rfl, rfl, fun hpending => (Bool.false_ne_true hpending).elim⟩

theorem Booked.wait (h : s.Booked) (sessionId : SessionId) (now : Instant) :
    (s.wait sessionId now).Booked := by
  obtain ⟨heq, -⟩ | ⟨howner, heq⟩ | ⟨-, heq⟩ := s.wait_cases sessionId now
  · rw [heq]
    exact h
  · rw [heq]
    refine ⟨h.enabled, h.hooked, h.lastGrab, fun _ => ?_⟩
    exact ⟨_, List.mem_append_right _ List.mem_cons_self, howner, rfl⟩
  · rw [heq]
    exact .release s

theorem mem_eraseIdx_timer {i : ℕ} {t t' : DeferredRelease} (ht : s.timers[i]? = some t)
    (hnot : ¬ (s.gs.owner = some t.sessionId ∧ s.gs.lastGrab = t.snapshot)) (ht' : t' ∈ s.timers)
    (hfinds : s.gs.owner = some t'.sessionId ∧ s.gs.lastGrab = t'.snapshot) : t' ∈ s.timers.eraseIdx
    i := by
  apply mem_eraseIdx_of_ne ht ht'
  rintro rfl
  exact hnot hfinds

theorem Booked.fire (h : s.Booked) (i : ℕ) : (s.fire i).Booked := by
  unfold State.fire
  split
  · exact h
  · next t ht =>
    unfold deferredRelease
    split
    · exact .release _
    · next hnot =>
      -- the thread that is gone is not the one that the flag stands for
      refine ⟨h.enabled, h.hooked, h.lastGrab, fun hpending => ?_⟩
      obtain ⟨t', ht', hfinds⟩ := h.pending hpending
      exact ⟨t', mem_eraseIdx_timer ht hnot ht' hfinds, hfinds⟩

theorem Booked.congr {s s' : State} (h : s.Booked)
    (henabled : s'.isRdevEnabled = s.isRdevEnabled) (hgs : s'.gs = s.gs)
    (hhooked : s'.keyboardHooked = s.keyboardHooked) (htimers : s'.timers = s.timers) :
    s'.Booked := by
  refine ⟨?_, ?_, ?_, ?_⟩
  · rw [hgs, henabled]
    exact h.enabled
  · rw [hgs, hhooked]
    exact h.hooked
  · rw [hgs]
    exact h.lastGrab
  · rw [hgs, htimers]
    exact h.pending

theorem lock_cases (s : State) (i : ℕ) : s.lock i = s ∨ ∃ op, s.locked = none ∧
    s.waiting[i]? = some op ∧
      s.lock i = { s with waiting := s.waiting.eraseIdx i, locked := some (calls s.gs op) } := by
  unfold State.lock
  split
  · next op hlocked hop => exact .inr ⟨op, hlocked, hop, rfl⟩
  · exact .inl rfl

theorem call_cases (s : State) : s.call = s ∨ s.locked = some [] ∧
    s.call = { s with locked := none } ∨ ∃ c cs, s.locked = some (c :: cs) ∧
      s.call = { s with grabbed := c == .enableGrab, locked := some cs } := by
  unfold State.call
  split
  · exact .inl rfl
  · next hlocked => exact .inr (.inl ⟨hlocked, rfl⟩)
  · next c cs hlocked => exact .inr (.inr ⟨c, cs, hlocked, rfl⟩)

theorem Booked.next (h : s.Booked) (e : Event) : (s.next e).Booked := by
  cases e with
  | change state sessionId now =>
    change (s.changeGrabStatus state sessionId now).Booked
    obtain heq | ⟨⟨-, henabled⟩, heq⟩ | ⟨-, heq⟩ := s.changeGrabStatus_cases state sessionId now
    · rw [heq]
      exact h
    · rw [heq]
      exact h.run henabled sessionId now
    · rw [heq]
      exact h.wait sessionId now
  | fire i => exact h.fire i
  | lock i =>
    change (s.lock i).Booked
    obtain heq | ⟨op, -, -, heq⟩ := s.lock_cases i
    · rw [heq]
      exact h
    · rw [heq]
      exact h.congr rfl rfl rfl rfl
  | call =>
    change s.call.Booked
    obtain heq | ⟨-, heq⟩ | ⟨c, cs, -, heq⟩ := s.call_cases
    · rw [heq]
      exact h
    · rw [heq]
      exact h.congr rfl rfl rfl rfl
    · rw [heq]
      exact h.congr rfl rfl rfl rfl

/-! ### The grab itself -/

def afterCalls (grabbed : Bool) (cs : List RdevCall) : Bool :=
  cs.foldl (fun _ c => c == .enableGrab) grabbed

/-- The system grab once the thread with the lock is done. -/
def settled (s : State) : Bool := afterCalls s.grabbed (s.locked.getD [])

/-- What is underway or waiting makes the grab what the bookkeeping says. -/
structure Follows (s : State) : Prop where
  owned : ∀ sessionId, s.gs.owner = some sessionId →
    s.settled = true ∨ ∃ first, GrabOp.applyRunGrabIfOwner sessionId first ∈ s.waiting
  free : s.gs.owner = none → s.settled = false ∨ GrabOp.disableGrabIfReleased ∈ s.waiting

theorem Follows.init : (init isRdevEnabled).Follows where
  owned _ h := by cases h
  free _ := .inl rfl

theorem Follows.congr {s s' : State} (h : s.Follows) (howner : s'.gs.owner = s.gs.owner)
    (hgrabbed : s'.settled = s.settled) (hwaiting : s'.waiting = s.waiting) : s'.Follows := by
  refine ⟨?_, ?_⟩
  · rw [howner, hgrabbed, hwaiting]
    exact h.owned
  · rw [howner, hgrabbed, hwaiting]
    exact h.free

theorem Follows.release (s : State) : s.release.Follows where
  owned _ h := by cases h
  free _ := .inr (List.mem_append_right _ List.mem_cons_self)

theorem Follows.run (h : s.Follows) (sessionId : SessionId) (now : Instant) :
    (s.run sessionId now).Follows := by
  unfold State.run
  split
  · exact h.congr rfl rfl rfl
  · refine ⟨fun owner howner => .inr ⟨s.gs.owner.isSome, ?_⟩, fun hnone => by cases hnone⟩
    obtain rfl : sessionId = owner := Option.some.inj howner
    exact List.mem_append_right _ List.mem_cons_self

theorem Follows.wait (h : s.Follows) (sessionId : SessionId) (now : Instant) :
    (s.wait sessionId now).Follows := by
  obtain ⟨heq, -⟩ | ⟨-, heq⟩ | ⟨-, heq⟩ := s.wait_cases sessionId now
  · rw [heq]
    exact h
  · rw [heq]
    exact h.congr rfl rfl rfl
  · rw [heq]
    exact .release s

theorem Follows.lock (h : s.Follows) (hbooked : s.Booked) (i : ℕ) : (s.lock i).Follows := by
  obtain heq | ⟨op, hfree, hop, heq⟩ := s.lock_cases i
  · rw [heq]
    exact h
  rw [heq]
  have hsettled : s.settled = s.grabbed := by
    unfold settled
    rw [hfree]
    rfl
  refine ⟨fun owner howner => ?_, fun hnone => ?_⟩
  · change s.gs.owner = some owner at howner
    change afterCalls s.grabbed (calls s.gs op) = true ∨ _
    cases op with
    | applyRunGrabIfOwner sessionId disableFirst =>
      by_cases hsame : sessionId = owner
      · -- the owner's own operation
        subst hsame
        refine .inl ?_
        unfold calls
        dsimp only
        rw [if_neg (not_not_intro howner)]
        cases disableFirst <;> rfl
      · have hnot : s.gs.owner ≠ some sessionId := by
          rw [howner]
          exact fun hsome => hsame (Option.some.inj hsome).symm
        have hcalls : calls s.gs (.applyRunGrabIfOwner sessionId disableFirst) = [] := if_pos hnot
        rw [hcalls]
        refine (h.owned owner howner).imp (fun hgrabbed => hsettled ▸ hgrabbed) ?_
        rintro ⟨first, hmem⟩
        refine ⟨first, mem_eraseIdx_of_ne hop hmem ?_⟩
        exact fun hsameOp => hsame (GrabOp.applyRunGrabIfOwner.inj hsameOp).1.symm
    | disableGrabIfReleased =>
      have hcalls : calls s.gs .disableGrabIfReleased = [] := by
        unfold calls
        rw [howner]
        rfl
      rw [hcalls]
      refine (h.owned owner howner).imp (fun hgrabbed => hsettled ▸ hgrabbed) ?_
      rintro ⟨first, hmem⟩
      exact ⟨first, mem_eraseIdx_of_ne hop hmem (by simp)⟩
  · change s.gs.owner = none at hnone
    change afterCalls s.grabbed (calls s.gs op) = false ∨ _
    cases op with
    | applyRunGrabIfOwner sessionId disableFirst =>
      have hcalls : calls s.gs (.applyRunGrabIfOwner sessionId disableFirst) = [] :=
        if_pos (by rw [hnone]; simp)
      rw [hcalls]
      refine (h.free hnone).imp (fun hgrabbed => hsettled ▸ hgrabbed) fun hmem => ?_
      exact mem_eraseIdx_of_ne hop hmem (by simp)
    | disableGrabIfReleased =>
      -- without an owner there is no time of a grab either
      have hlast : s.gs.lastGrab.isNone = true := by
        have hboth := hbooked.lastGrab
        rw [hnone] at hboth
        rw [← Option.not_isSome, hboth]
        rfl
      refine .inl ?_
      unfold calls
      rw [hlast, hnone]
      rfl

theorem Follows.call (h : s.Follows) : s.call.Follows := by
  obtain heq | ⟨hlocked, heq⟩ | ⟨c, cs, hlocked, heq⟩ := s.call_cases
  · rw [heq]
    exact h
  all_goals
    rw [heq]
    refine h.congr rfl ?_ rfl
    unfold settled
    rw [hlocked]
    rfl

theorem Follows.fire (h : s.Follows) (i : ℕ) : (s.fire i).Follows := by
  unfold State.fire
  split
  · exact h
  · unfold deferredRelease
    split
    · exact .release _
    · exact h.congr rfl rfl rfl

theorem Follows.next (h : s.Follows) (hbooked : s.Booked) (e : Event) : (s.next e).Follows := by
  cases e with
  | change state sessionId now =>
    change (s.changeGrabStatus state sessionId now).Follows
    obtain heq | ⟨-, heq⟩ | ⟨-, heq⟩ := s.changeGrabStatus_cases state sessionId now
    · rw [heq]
      exact h
    · rw [heq]
      exact h.run sessionId now
    · rw [heq]
      exact h.wait sessionId now
  | fire i => exact h.fire i
  | lock i => exact h.lock hbooked i
  | call => exact h.call

/-! ### A leave is not lost -/

/-- The session will be the owner no more: if it still is, a thread will release its grab. -/
def Leaving (sessionId : SessionId) (s : State) : Prop :=
  s.gs.owner = some sessionId →
    ∃ t ∈ s.timers, t.sessionId = sessionId ∧ s.gs.lastGrab = t.snapshot

theorem Leaving.release (sessionId : SessionId) (s : State) : Leaving sessionId s.release :=
  fun h => by cases h

theorem Booked.leaving (h : s.Booked) (now : Instant)
    (howner : s.gs.owner = some sessionId) : Leaving sessionId (s.wait sessionId now) := by
  obtain ⟨heq, hpending⟩ | ⟨-, heq⟩ | ⟨-, heq⟩ := s.wait_cases sessionId now
  · rw [heq]
    intro _
    obtain ⟨t, ht, hsame, hsnapshot⟩ := h.pending (hpending howner)
    exact ⟨t, ht, Option.some.inj (hsame.symm.trans howner), hsnapshot⟩
  · rw [heq]
    exact fun _ => ⟨_, List.mem_append_right _ List.mem_cons_self, rfl, rfl⟩
  · rw [heq]
    exact .release sessionId s

theorem Leaving.next (h : Leaving sessionId s) (e : Event)
    (he : ∀ now, e ≠ .change .run sessionId now) : Leaving sessionId (s.next e) := by
  cases e with
  | change state other now =>
    change Leaving sessionId (s.changeGrabStatus state other now)
    obtain heq | ⟨⟨rfl, -⟩, heq⟩ | ⟨-, heq⟩ := s.changeGrabStatus_cases state other now
    · rw [heq]
      exact h
    · -- another session takes the grab
      have hne : other ≠ sessionId := fun hsame => he now (by rw [hsame])
      rw [heq]
      unfold State.run
      split
      · next howner =>
        intro hstill
        exact absurd (Option.some.inj (howner.symm.trans hstill)) hne
      · intro hstill
        exact absurd (Option.some.inj hstill) hne
    · obtain ⟨hwait, -⟩ | ⟨-, hwait⟩ | ⟨-, hwait⟩ := s.wait_cases other now
      · rw [heq, hwait]
        exact h
      · rw [heq, hwait]
        intro howner
        obtain ⟨t, ht, hfinds⟩ := h howner
        exact ⟨t, List.mem_append_left _ ht, hfinds⟩
      · rw [heq, hwait]
        exact .release sessionId s
  | fire i =>
    change Leaving sessionId (s.fire i)
    unfold State.fire
    split
    · exact h
    · next t ht =>
      unfold deferredRelease
      split
      · exact .release sessionId _
      · next hnot =>
        intro howner
        obtain ⟨t', ht', hsession, hsnapshot⟩ := h howner
        refine ⟨t', mem_eraseIdx_timer ht hnot ht' ⟨?_, hsnapshot⟩, hsession, hsnapshot⟩
        rw [hsession]
        exact howner
  | lock i =>
    change Leaving sessionId (s.lock i)
    obtain heq | ⟨op, -, -, heq⟩ := s.lock_cases i
    · rw [heq]
      exact h
    · rw [heq]
      exact h
  | call =>
    change Leaving sessionId s.call
    obtain heq | ⟨-, heq⟩ | ⟨c, cs, -, heq⟩ := s.call_cases
    · rw [heq]
      exact h
    · rw [heq]
      exact h
    · rw [heq]
      exact h

theorem Leaving.run (h : Leaving sessionId s) {es : List Event}
    (hes : ∀ now, Event.change .run sessionId now ∉ es) : Leaving sessionId (grab.run s es) := by
  induction es generalizing s with
  | nil => exact h
  | cons e es ih =>
    refine ih (h.next e fun now heq => ?_) fun now hmem => ?_
    · exact hes now (heq ▸ List.mem_cons_self)
    · exact hes now (List.mem_cons_of_mem _ hmem)

/-- No thread has an operation on the grab before it or underway, and none sleeps. -/
def Idle (s : State) : Prop := s.waiting = [] ∧ s.locked = none ∧ s.timers = []

def reached (isRdevEnabled : Bool) (es : List Event) : State := grab.run (init isRdevEnabled) es

theorem reached_inv (es : List Event) :
    (reached isRdevEnabled es).Booked ∧ (reached isRdevEnabled es).Follows :=
  grab.inv_run (I := fun s : State => s.Booked ∧ s.Follows)
    ⟨.init isRdevEnabled, .init isRdevEnabled⟩
    (fun _ e h => ⟨h.1.next e, h.2.next h.1 e⟩) es

/-- **Every interleaving.** The hook is on exactly while there is an owner; a `Wait` of another
session changes nothing; when nothing is underway the system grab is there exactly for an owner; and
a session that has left is no owner once its releases have fired. -/
theorem grab_spec (isRdevEnabled : Bool) (es : List Event) :
    (reached isRdevEnabled es).keyboardHooked = (reached isRdevEnabled es).gs.owner.isSome ∧
      (∀ sessionId now, (reached isRdevEnabled es).gs.owner ≠ some sessionId →
        reached isRdevEnabled (es ++ [.change .wait sessionId now]) = reached isRdevEnabled es) ∧
      ((reached isRdevEnabled es).Idle →
        (reached isRdevEnabled es).grabbed = (reached isRdevEnabled es).gs.owner.isSome) ∧
      (∀ sessionId now more, (reached isRdevEnabled es).gs.owner = some sessionId →
        (∀ later, Event.change .run sessionId later ∉ more) →
        (∀ t ∈ (reached isRdevEnabled (es ++ .change .wait sessionId now :: more)).timers,
          t.sessionId ≠ sessionId) →
        (reached isRdevEnabled (es ++ .change .wait sessionId now :: more)).gs.owner ≠
          some sessionId) := by
  obtain ⟨hbooked, hfollows⟩ := reached_inv isRdevEnabled es
  refine ⟨hbooked.hooked, ?_, ?_, ?_⟩
  · intro sessionId now hne
    unfold reached
    rw [Machine.run_append]
    exact wait_of_ne hne now
  · rintro ⟨hwaiting, hlocked, -⟩
    have hsettled : (reached isRdevEnabled es).settled = (reached isRdevEnabled es).grabbed := by
      unfold settled
      rw [hlocked]
      rfl
    cases howner : (reached isRdevEnabled es).gs.owner with
    | none =>
      obtain hfree | hmem := hfollows.free howner
      · rw [← hsettled]
        exact hfree
      · rw [hwaiting] at hmem
        cases hmem
    | some sessionId =>
      obtain howned | ⟨first, hmem⟩ := hfollows.owned sessionId howner
      · rw [← hsettled]
        exact howned
      · rw [hwaiting] at hmem
        cases hmem
  · intro sessionId now more howner hmore htimers hstill
    have henabled := hbooked.enabled (by rw [howner]; rfl)
    have hwait : Leaving sessionId ((reached isRdevEnabled es).next
        (.change .wait sessionId now)) := by
      change Leaving sessionId ((reached isRdevEnabled es).changeGrabStatus .wait sessionId now)
      unfold changeGrabStatus
      rw [henabled]
      exact hbooked.leaving now howner
    have hrun : reached isRdevEnabled (es ++ .change .wait sessionId now :: more) =
        grab.run ((reached isRdevEnabled es).next (.change .wait sessionId now)) more := by
      unfold reached
      rw [Machine.run_append]
      rfl
    rw [hrun] at hstill htimers
    obtain ⟨t, ht, hsession, -⟩ := hwait.run hmore hstill
    exact htimers t ht hsession

/-- A leave after 0.1 s, whose thread wakes up before the grab was even made. -/
example : (reached true [.change .run 1 0, .change .wait 1 100000000, .fire 0, .lock 1, .call,
    .call, .lock 0, .call]).grabbed = false := by decide

end State

end LibRustdesk.Keyboard
