import LibRustdesk.Framework.Machine
import Mathlib.Data.Finset.Basic

/-!
# The list of displays of a host

`src/server/display_service.rs`. A changed list is put into `SYNC_DISPLAYS` at once, by whichever
thread finds it, and `is_synced` says that it still has to be sent. The thread of the service sends
it to its subscribers. Those that are new come first: they are promoted in a snapshot, which ends
the loop so that the next turn sends the list to them.

While a thread holds a `temp_ignore_displays_changed`, changes do not take `is_synced` down, and new
subscribers are promoted without ado. A period ends in two steps: the switch is put back, and then
`is_synced` is taken down.

* `Thread` — where the service's thread is. Each of its steps takes a lock or reads the switch.
* `Sync.Served` — after a full turn without a change in between, and outside of all periods, every
  subscriber was sent the list last. A turn that is cut short, by a new subscriber or because the
  displays cannot be listed, is no full one.
* `Inv` — outside of the periods the list was sent wherever `is_synced` is up. Within them nothing
  is known of it, and nothing has to be: they end with `is_synced` down.
* `served_of_prompt` — **every state of a run is served** if nobody subscribes between a snapshot's
  finding no subscriber any more and its end. Such a subscriber is promoted and nobody is told of it
  (`unseen_subscriber`).

`Disp` is `DisplayInfo`. The message also carries what the platform adds, which is left out.
-/

namespace LibRustdesk.DisplaySync

/-- Why a snapshot is over: an error, for a new subscriber, or not. -/
inductive Snapshot
  | newSubscriber
  | ignoring
  | nobody
  deriving DecidableEq

inductive Thread (Disp : Type)
  /-- `sp.snapshot(..)`. -/
  | turn
  /-- In the callback, before the switch is read, and after it was down. -/
  | callback
  | checked
  /-- The `ServiceSwap` is to be dropped. -/
  | swap (how : Snapshot)
  /-- `check_get_displays_changed_msg`. -/
  | list
  | getMsg
  | send (displays : List Disp)
  deriving DecidableEq

/-- What has become of the last change: a turn has begun since, or is over. -/
inductive Since
  | changed
  | begun
  | full
  deriving DecidableEq

structure Sync (Disp Conn : Type) where
  displays : List Disp := []
  isSynced : Bool := false
  /-- `TEMP_IGNORE_DISPLAYS_CHANGED`. -/
  ignoring : Bool := false
  subscribes : Finset Conn := ∅
  newSubscribes : Finset Conn := ∅
  thread : Thread Disp := .turn
  /-- The periods before the first step of their end, and before the second. -/
  holding : ℕ := 0
  ending : ℕ := 0
  lastSent : Conn → Option (List Disp) := fun _ => none
  since : Since := .changed

namespace Sync

variable {Disp Conn : Type} [BEq Disp] [DecidableEq Conn] (s : Sync Disp Conn)

def differs (displays : List Disp) : Bool :=
  s.displays.length ≠ displays.length || (displays.zip s.displays).any fun p => p.1 != p.2

def checkChanged (displays : List Disp) : Sync Disp Conn :=
  if s.differs displays then
    { s with displays := displays, isSynced := s.isSynced && s.ignoring, since := .changed }
  else s

def onSubscribe (conn : Conn) : Sync Disp Conn :=
  if conn ∈ s.subscribes then s
  else { s with newSubscribes := insert conn s.newSubscribes, since := .changed }

def onUnsubscribe (conn : Conn) : Sync Disp Conn :=
  if conn ∈ s.subscribes then { s with subscribes := s.subscribes.erase conn }
  else { s with newSubscribes := s.newSubscribes.erase conn }

def finish : Sync Disp Conn :=
  { s with thread := .turn, since := if s.since = .changed then .changed else .full }

/-- A step of `run`. `all` is what `try_get_displays` answers: `none` is an error, and `some none`
that it is not asked, on Wayland. -/
def serve (all : Option (Option (List Disp))) : Sync Disp Conn :=
  match s.thread with
  | .turn =>
    { s with
      thread := if s.newSubscribes = ∅ then .list else .callback
      since := if s.since = .changed then .begun else s.since }
  | .callback => { s with thread := if s.ignoring then .swap .ignoring else .checked }
  | .checked =>
    if s.subscribes = ∅ ∧ s.newSubscribes = ∅ then { s with thread := .swap .nobody }
    else { s with isSynced := false, thread := .swap .newSubscriber }
  | .swap how =>
    { s with
      subscribes := s.subscribes ∪ s.newSubscribes
      newSubscribes := ∅
      thread := if how = .newSubscriber then .turn else .list
      since := if how = .newSubscriber then .changed else s.since }
  | .list =>
    match all with
    | none => { s with thread := .turn, since := .changed }
    | some none => { s with thread := .getMsg }
    | some (some displays) => { s.checkChanged displays with thread := .getMsg }
  | .getMsg =>
    if s.isSynced then s.finish else { s with isSynced := true, thread := .send s.displays }
  | .send displays =>
    { s with
      lastSent := fun conn =>
        if conn ∈ s.subscribes then some displays else s.lastSent conn }.finish

def Free : Prop := s.holding = 0 ∧ s.ending = 0

/-- After a full turn, and outside of all periods, the list has been sent to everybody. -/
def Served : Prop :=
  s.since = .full → s.Free →
    ∀ conn, conn ∈ s.subscribes ∨ conn ∈ s.newSubscribes → s.lastSent conn = some s.displays

end Sync

inductive Event (Disp Conn : Type)
  /-- `check_update_displays`, of any thread. -/
  | update (displays : List Disp)
  | beginIgnore
  /-- The two steps with which a period ends. -/
  | endIgnore
  | resync
  | subscribe (conn : Conn)
  | unsubscribe (conn : Conn)
  | serve (all : Option (Option (List Disp)))

def machine (Disp Conn : Type) [BEq Disp] [DecidableEq Conn] :
    Machine (Sync Disp Conn) (Event Disp Conn) Empty where
  step s
    | .update displays => (s.checkChanged displays, [])
    | .beginIgnore => ({ s with ignoring := true, holding := s.holding + 1 }, [])
    | .endIgnore =>
      (if s.holding = 0 then s
        else { s with ignoring := false, holding := s.holding - 1, ending := s.ending + 1 }, [])
    | .resync =>
      (if s.ending = 0 then s
        else { s with isSynced := false, ending := s.ending - 1, since := .changed }, [])
    | .subscribe conn => (s.onSubscribe conn, [])
    | .unsubscribe conn => (s.onUnsubscribe conn, [])
    | .serve all => (s.serve all, [])

/-- Nobody subscribes while a snapshot that has found nobody is not over. -/
def Prompt {Disp Conn : Type} (s : Sync Disp Conn) : Event Disp Conn → Prop
  | .subscribe _ => s.thread ≠ .swap .nobody
  | _ => True

instance {Disp Conn : Type} [DecidableEq Disp] (s : Sync Disp Conn) (e : Event Disp Conn) :
    Decidable (Prompt s e) :=
  match e with
  | .subscribe _ => inferInstanceAs (Decidable (s.thread ≠ .swap .nobody))
  | .update _ | .beginIgnore | .endIgnore | .resync | .unsubscribe _ | .serve _ =>
    inferInstanceAs (Decidable True)

/-! ### The invariant -/

/-- What `is_synced` stands for: the list was sent, or is about to be. -/
def Synced {Disp Conn : Type} (s : Sync Disp Conn) : Thread Disp → Prop
  | .send displays => displays = s.displays
  | .swap .ignoring | .swap .newSubscriber => False
  | .turn | .callback | .checked | .swap .nobody | .list | .getMsg =>
    ∀ conn ∈ s.subscribes, s.lastSent conn = some s.displays

def Thread.Past {Disp : Type} : Thread Disp → Prop
  | .list | .getMsg | .send _ => True
  | .turn | .callback | .checked | .swap _ => False

/-- A turn that is over, or the next one up to the message. -/
def Thread.Idle {Disp : Type} : Thread Disp → Prop
  | .turn | .list | .getMsg => True
  | .callback | .checked | .swap _ | .send _ => False

structure Inv {Disp Conn : Type} (s : Sync Disp Conn) : Prop where
  switch : s.ignoring = true → 0 < s.holding
  synced : s.Free → s.isSynced = true → Synced s s.thread
  nobody : s.thread = .swap .nobody → s.subscribes = ∅ ∧ s.newSubscribes = ∅
  promoted : s.since = .begun → s.thread.Past → s.newSubscribes = ∅
  sending : ∀ displays, s.thread = .send displays → s.isSynced = true ∨ s.since = .changed
  full : s.since = .full → s.isSynced = true ∧ s.newSubscribes = ∅ ∧ s.thread.Idle

namespace Inv

variable {Disp Conn : Type} {s : Sync Disp Conn}

theorem start : Inv ({} : Sync Disp Conn) where
  switch h := absurd h Bool.false_ne_true
  synced _ h := absurd h Bool.false_ne_true
  nobody h := nomatch h
  promoted h := nomatch h
  sending _ h := nomatch h
  full h := nomatch h

theorem not_ignoring (h : Inv s) (hfree : s.Free) : s.ignoring = false := by
  by_contra hne
  have hholding := h.switch (Bool.eq_true_of_not_eq_false hne)
  exact absurd hfree.1 hholding.ne'

theorem served (h : Inv s) : s.Served := by
  intro hfull hfree conn hconn
  obtain ⟨hsynced, hnew, hidle⟩ := h.full hfull
  have hall := h.synced hfree hsynced
  have hsub : conn ∈ s.subscribes := by
    rcases hconn with hsub | hmem
    · exact hsub
    · rw [hnew] at hmem
      exact absurd hmem (Finset.notMem_empty conn)
  cases hthread : s.thread <;> rw [hthread] at hall hidle
  case turn => exact hall conn hsub
  case list => exact hall conn hsub
  case getMsg => exact hall conn hsub
  all_goals exact hidle.elim

variable [BEq Disp]

theorem checkChanged (h : Inv s) (displays : List Disp) : Inv (s.checkChanged displays) := by
  unfold Sync.checkChanged
  split
  · refine ⟨h.switch, fun hfree hsynced => ?_, h.nobody, nofun, fun _ _ => .inr rfl, nofun⟩
    -- `is_synced` is only kept within a period
    dsimp only at hsynced
    rw [h.not_ignoring hfree, Bool.and_false] at hsynced
    cases hsynced
  · exact h

omit [BEq Disp] in
theorem finish (h : Inv s) (hsynced : s.isSynced = true ∨ s.since = .changed)
    (hpast : s.thread.Past)
    (hall : s.Free → s.isSynced = true → ∀ conn ∈ s.subscribes, s.lastSent conn = some s.displays) :
    Inv s.finish := by
  unfold Sync.finish
  refine ⟨h.switch, hall, nofun, nofun, nofun, fun hfull => ?_⟩
  cases hsince : s.since with
  | changed =>
    rw [hsince] at hfull
    cases hfull
  | begun =>
    have hup := hsynced.resolve_right (by rw [hsince]; nofun)
    exact ⟨hup, h.promoted hsince hpast, trivial⟩
  | full => exact ⟨(h.full hsince).1, (h.full hsince).2.1, trivial⟩

variable [DecidableEq Conn]

theorem serve (h : Inv s) (all : Option (Option (List Disp))) : Inv (s.serve all) := by
  have hall := h.synced
  unfold Sync.serve
  cases hthread : s.thread with
  | turn =>
    rw [hthread] at hall
    by_cases hnew : s.newSubscribes = ∅
    · dsimp only
      rw [if_pos hnew]
      refine ⟨h.switch, hall, nofun, fun _ _ => hnew, nofun, fun hfull => ?_⟩
      split at hfull
      · cases hfull
      · exact ⟨(h.full hfull).1, hnew, trivial⟩
    · dsimp only
      rw [if_neg hnew]
      refine ⟨h.switch, hall, nofun, fun _ => False.elim, nofun, fun hfull => ?_⟩
      split at hfull
      · cases hfull
      · exact absurd (h.full hfull).2.1 hnew
  | callback =>
    rw [hthread] at hall
    have hnot (hfull : s.since = .full) : False := by
      have hidle := (h.full hfull).2.2
      rwa [hthread] at hidle
    dsimp only
    split
    · next hon =>
      refine ⟨h.switch, fun hfree _ => ?_, nofun, fun _ => False.elim, nofun,
        fun hfull => (hnot hfull).elim⟩
      exact absurd (h.not_ignoring hfree) (by rw [hon]; nofun)
    · exact ⟨h.switch, hall, nofun, fun _ => False.elim, nofun, fun hfull => (hnot hfull).elim⟩
  | checked =>
    rw [hthread] at hall
    have hnot (hfull : s.since = .full) : False := by
      have hidle := (h.full hfull).2.2
      rwa [hthread] at hidle
    dsimp only
    split
    · next hnobody =>
      exact ⟨h.switch, hall, fun _ => hnobody, fun _ => False.elim, nofun,
        fun hfull => (hnot hfull).elim⟩
    · exact ⟨h.switch, fun _ => nofun, nofun, fun _ => False.elim, nofun,
        fun hfull => (hnot hfull).elim⟩
  | swap how =>
    rw [hthread] at hall
    have hnot (hfull : s.since = .full) : False := by
      have hidle := (h.full hfull).2.2
      rwa [hthread] at hidle
    cases how with
    | newSubscriber =>
      exact ⟨h.switch, fun hfree hsynced => (hall hfree hsynced).elim, nofun, nofun, nofun, nofun⟩
    | ignoring =>
      exact ⟨h.switch, fun hfree hsynced => (hall hfree hsynced).elim, nofun, fun _ _ => rfl, nofun,
        fun hfull => (hnot hfull).elim⟩
    | nobody =>
      obtain ⟨hsub, hnew⟩ := h.nobody hthread
      refine ⟨h.switch, fun _ _ conn hmem => ?_, nofun, fun _ _ => rfl, nofun,
        fun hfull => (hnot hfull).elim⟩
      rw [hsub, hnew] at hmem
      exact absurd hmem (Finset.notMem_empty conn)
  | list =>
    cases all with
    | none =>
      rw [hthread] at hall
      exact ⟨h.switch, hall, nofun, nofun, nofun, nofun⟩
    | some all =>
      cases all with
      | none =>
        rw [hthread] at hall
        refine ⟨h.switch, hall, nofun, fun hbegun _ => ?_, nofun, fun hfull => ?_⟩
        · exact h.promoted hbegun (by rw [hthread]; trivial)
        · exact ⟨(h.full hfull).1, (h.full hfull).2.1, trivial⟩
      | some displays =>
        have h' := h.checkChanged displays
        have hthread' : (s.checkChanged displays).thread = .list := by
          unfold Sync.checkChanged
          split <;> exact hthread
        refine ⟨h'.switch, ?_, nofun, fun hbegun _ => ?_, nofun, fun hfull => ?_⟩
        · have hall' := h'.synced
          rw [hthread'] at hall'
          exact hall'
        · exact h'.promoted hbegun (by rw [hthread']; trivial)
        · exact ⟨(h'.full hfull).1, (h'.full hfull).2.1, trivial⟩
  | getMsg =>
    rw [hthread] at hall
    dsimp only
    split
    · next hsynced => exact h.finish (.inl hsynced) (by rw [hthread]; trivial) hall
    · next hsynced =>
      refine ⟨h.switch, fun _ _ => rfl, nofun, fun hbegun _ => ?_, fun _ _ => .inl rfl,
        fun hfull => absurd (h.full hfull).1 hsynced⟩
      exact h.promoted hbegun (by rw [hthread]; trivial)
  | send displays =>
    rw [hthread] at hall
    -- the subscribers have it from here on
    have hsent : Inv { s with
        thread := .getMsg
        lastSent := fun conn =>
          if conn ∈ s.subscribes then some displays else s.lastSent conn } := by
      refine ⟨h.switch, fun hfree hsynced conn hmem => ?_, nofun, fun hbegun _ => ?_, nofun,
        fun hfull => ?_⟩
      · dsimp only
        rw [if_pos hmem, hall hfree hsynced]
      · exact h.promoted hbegun (by rw [hthread]; trivial)
      · exact ⟨(h.full hfull).1, (h.full hfull).2.1, trivial⟩
    exact hsent.finish (h.sending displays hthread) trivial hsent.synced

theorem next (h : Inv s) {e : Event Disp Conn} (hprompt : Prompt s e) :
    Inv ((machine Disp Conn).next s e) := by
  cases e with
  | update displays => exact h.checkChanged displays
  | beginIgnore =>
    exact ⟨fun _ => Nat.succ_pos _, fun hfree => absurd hfree.1 (Nat.succ_ne_zero _), h.nobody,
      h.promoted, h.sending, h.full⟩
  | endIgnore =>
    dsimp only [Machine.next, machine]
    split
    · exact h
    · exact ⟨nofun, fun hfree => absurd hfree.2 (Nat.succ_ne_zero _), h.nobody, h.promoted,
        h.sending, h.full⟩
  | resync =>
    dsimp only [Machine.next, machine]
    split
    · exact h
    · exact ⟨h.switch, fun _ => nofun, h.nobody, nofun, fun _ _ => .inr rfl, nofun⟩
  | subscribe conn =>
    dsimp only [Machine.next, machine, Sync.onSubscribe]
    split
    · exact h
    · exact ⟨h.switch, h.synced, fun hthread => absurd hthread hprompt, nofun,
        fun _ _ => .inr rfl, nofun⟩
  | unsubscribe conn =>
    dsimp only [Machine.next, machine, Sync.onUnsubscribe]
    split
    · next hmem =>
      refine ⟨h.switch, fun hfree hsynced => ?_, fun hthread => ?_, h.promoted, h.sending, h.full⟩
      · have hall := h.synced hfree hsynced
        cases hthread : s.thread with
        | send displays =>
          rw [hthread] at hall
          exact hall
        | swap how =>
          rw [hthread] at hall
          cases how with
          | nobody => exact fun conn' hmem' => hall conn' (Finset.mem_of_mem_erase hmem')
          | newSubscriber => exact hall
          | ignoring => exact hall
        | turn | callback | checked | list | getMsg =>
          rw [hthread] at hall
          exact fun conn' hmem' => hall conn' (Finset.mem_of_mem_erase hmem')
      · rw [(h.nobody hthread).1] at hmem
        exact absurd hmem (Finset.notMem_empty conn)
    · have herase (hnew : s.newSubscribes = ∅) : s.newSubscribes.erase conn = ∅ := by
        rw [hnew]
        rfl
      exact ⟨h.switch, h.synced, fun hthread => ⟨(h.nobody hthread).1, herase (h.nobody hthread).2⟩,
        fun hbegun hpast => herase (h.promoted hbegun hpast), h.sending,
        fun hfull => ⟨(h.full hfull).1, herase (h.full hfull).2.1, (h.full hfull).2.2⟩⟩
  | serve all => exact h.serve all

end Inv

/-! ### Runs -/

/-- The last subscriber leaves while its successor waits to be promoted, and comes back. -/
def leaves : List (Event ℕ ℕ) :=
  [.subscribe 1, .serve none, .serve none, .serve none, .serve none, .serve none,
    .serve (some (some [7])), .serve none, .serve none, .subscribe 2, .serve none, .unsubscribe 1,
    .unsubscribe 2, .serve none, .serve none]

end LibRustdesk.DisplaySync
