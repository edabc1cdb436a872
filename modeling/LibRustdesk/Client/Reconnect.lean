import LibRustdesk.Framework.Machine

/-!
# Reconnecting a session

`Session::reconnect` closes the round that is going on and spawns the `io_loop` of a new one; the
old thread is not joined. Everything that the rounds share is in the `Session`: the state of the
connection round, the sender of the commands, and the clipboard loop of the client.

* `ConnectionRoundState` — the round and its state. `setConnected` does not ask which round it is
  for, `setDisconnected` does.
* `Session` — with its threads in the order of their rounds. A command goes to whichever thread has
  last stored its sender.
* `reconnecting` — the machine. Of a reconnect what is done under the lock of the round and the
  spawn are two events, and so are the end of a round and the stop of the clipboard that follows it.
* `Timely` — the steps that the code is made for.

**`only_newest`**: after timely steps, once every thread has taken its steps, only the newest round
is left. `quick_reconnect_keeps_both` is a reconnect that comes before the thread of the round has
stored its sender. -/

namespace LibRustdesk.Reconnect

inductive ConnectionState
  | connecting
  | connected
  | disconnected
  deriving DecidableEq

structure ConnectionRoundState where
  round : UInt32
  state : ConnectionState
  deriving DecidableEq

namespace ConnectionRoundState

def newRound (s : ConnectionRoundState) : ConnectionRoundState := ⟨s.round + 1, .connecting⟩

def setConnected (s : ConnectionRoundState) : ConnectionRoundState := { s with state := .connected }

def isRoundGt (s : ConnectionRoundState) (round : UInt32) : Bool :=
  if round = 0xFFFFFFFF ∧ s.round = 0 then true else decide (round < s.round)

def setDisconnected (s : ConnectionRoundState) (round : UInt32) : ConnectionRoundState × Bool :=
  if s.isRoundGt round then (s, false) else ({ s with state := .disconnected }, true)

theorem isRoundGt_self (s : ConnectionRoundState) : s.isRoundGt s.round = false := by
  unfold isRoundGt
  rw [if_neg ?_, decide_eq_false (UInt32.lt_irrefl _)]
  rintro ⟨hmax, hzero⟩
  rw [hzero] at hmax
  exact absurd hmax (by decide)

end ConnectionRoundState

inductive Phase
  /-- Its round is there, and it is yet to be spawned. -/
  | called
  | spawned
  /-- It has stored its sender, and connects. -/
  | connecting
  /-- It is in the loop, and receives its commands. -/
  | connected
  /-- It has left the loop, or could not connect. -/
  | leaving
  /-- It has set the state, and is to stop the clipboard. -/
  | stopping
  | ended
  deriving DecidableEq

structure IoLoop where
  round : UInt32
  phase : Phase
  /-- `Data::Close` is in its channel. -/
  close : Bool
  deriving DecidableEq

structure Session where
  connectionRoundState : ConnectionRoundState
  /-- There is a handle of a thread. -/
  thread : Bool
  /-- The thread that the sender is for. -/
  sender : Option ℕ
  threads : List IoLoop
  /-- The clipboard loop was stopped by the thread of a round that was not the newest. -/
  stoppedByOlder : Bool
  deriving DecidableEq

inductive SessionEvent
  /-- What is done under the lock of the round. -/
  | reconnect
  | spawn (k : ℕ)
  | start (k : ℕ)
  | connected (k : ℕ)
  | failed (k : ℕ)
  | receiveClose (k : ℕ)
  /-- The loop is left for another reason. -/
  | lost (k : ℕ)
  | disconnect (k : ℕ)
  /-- `try_stop_clipboard`, with whether other sessions are running. -/
  | stopClipboard (k : ℕ) (sessionsRunning : Bool)

namespace Session

def setThread (s : Session) (k : ℕ) (th : IoLoop) : Session :=
  { s with threads := s.threads.set k th }

/-- The thread `k` takes a step, if it is there. -/
def withThread (s : Session) (k : ℕ) (phase : Phase) (f : IoLoop → Session) : Session :=
  match s.threads[k]? with
  | some th => if th.phase = phase then f th else s
  | none => s

/-- `send(Data::Close)`. -/
def sendClose (s : Session) : Session :=
  match s.sender with
  | some k => { s with threads := s.threads.modify k fun th => { th with close := true } }
  | none => s

def closeRound (s : Session) : Session :=
  if s.thread then
    match s.connectionRoundState.state with
    | .connecting | .connected => s.sendClose
    | .disconnected => s
  else s

/-- The first half of `reconnect`. -/
def reconnect (s : Session) : Session :=
  let s := s.closeRound
  let roundState := s.connectionRoundState.newRound
  { s with
    connectionRoundState := roundState
    threads := s.threads ++ [⟨roundState.round, .called, false⟩] }

def Newest (s : Session) (k : ℕ) : Prop := k + 1 = s.threads.length

instance (s : Session) (k : ℕ) : Decidable (s.Newest k) :=
  inferInstanceAs (Decidable (k + 1 = s.threads.length))

def step (isDefault : Bool) (s : Session) : SessionEvent → Session
  | .reconnect => s.reconnect
  | .spawn k =>
    s.withThread k .called fun th => { s.setThread k { th with phase := .spawned } with
      thread := true }
  | .start k =>
    s.withThread k .spawned fun th => { s.setThread k { th with phase := .connecting } with
      sender := some k }
  | .connected k =>
    s.withThread k .connecting fun th => { s.setThread k { th with phase := .connected } with
      connectionRoundState := s.connectionRoundState.setConnected }
  | .failed k => s.withThread k .connecting fun th => s.setThread k { th with phase := .leaving }
  | .receiveClose k =>
    s.withThread k .connected fun th =>
      if th.close then s.setThread k { th with phase := .leaving } else s
  | .lost k => s.withThread k .connected fun th => s.setThread k { th with phase := .leaving }
  | .disconnect k =>
    s.withThread k .leaving fun th =>
      match s.connectionRoundState.setDisconnected th.round with
      | (roundState, setDisconnectedOk) =>
        { s.setThread k { th with
            phase := if isDefault && setDisconnectedOk then .stopping else .ended } with
          connectionRoundState := roundState }
  | .stopClipboard k sessionsRunning =>
    s.withThread k .stopping fun th => { s.setThread k { th with phase := .ended } with
      stoppedByOlder := s.stoppedByOlder || (!sessionsRunning && !decide (s.Newest k)) }

/-- Before the first `reconnect`. -/
def start : Session := ⟨⟨0, .connecting⟩, false, none, [], false⟩

end Session

def reconnecting (isDefault : Bool) : Machine Session SessionEvent Empty :=
  ⟨fun s e => (s.step isDefault e, [])⟩

/-! ### What is to hold -/

/-- Every thread has taken its steps: it has ended, or is in the loop with nothing to receive. -/
def Quiescent (s : Session) : Prop :=
  ∀ th ∈ s.threads, th.phase = .ended ∨ th.phase = .connected ∧ th.close = false

instance (s : Session) : Decidable (Quiescent s) :=
  inferInstanceAs (Decidable (∀ th ∈ s.threads, _))

structure OnlyNewest (s : Session) : Prop where
  running : ∀ k th, s.threads[k]? = some th → th.phase = .connected → s.Newest k
  sender : ∀ k, s.Newest k → s.sender = some k
  state : ∀ k th, s.threads[k]? = some th → s.Newest k → s.connectionRoundState.state =
    if th.phase = .connected then .connected else .disconnected
  clipboard : s.stoppedByOlder = false

/-- The steps that the code is made for, from the state they are taken in. -/
def Timely (s : Session) : SessionEvent → Prop
  | .reconnect =>
    -- the thread of the round has stored its sender
    ∀ th ∈ s.threads.getLast?, th.phase ≠ .called ∧ th.phase ≠ .spawned
  | .connected k =>
    -- an older thread connects while the newest has not disconnected
    ∀ th ∈ s.threads[k]?, th.phase = .connecting → ¬ s.Newest k →
      s.connectionRoundState.state ≠ .disconnected
  | .disconnect k =>
    -- the numbers of the rounds have not come round
    ∀ th ∈ s.threads[k]?, th.phase = .leaving → ¬ s.Newest k →
      s.connectionRoundState.isRoundGt th.round = true
  | .stopClipboard k sessionsRunning =>
    -- no reconnect has come between the end of the round and the stop
    ∀ th ∈ s.threads[k]?, th.phase = .stopping → sessionsRunning = false → s.Newest k
  | _ => True

instance (s : Session) : (e : SessionEvent) → Decidable (Timely s e)
  | .reconnect => inferInstanceAs (Decidable (∀ th ∈ s.threads.getLast?, _))
  | .connected k => inferInstanceAs (Decidable (∀ th ∈ s.threads[k]?, _))
  | .disconnect k => inferInstanceAs (Decidable (∀ th ∈ s.threads[k]?, _))
  | .stopClipboard k _ => inferInstanceAs (Decidable (∀ th ∈ s.threads[k]?, _))
  | .spawn _ | .start _ | .failed _ | .receiveClose _ | .lost _ => isTrue trivial

/-! ### The invariant -/

def IoLoop.Started (th : IoLoop) : Prop := th.phase ≠ .called ∧ th.phase ≠ .spawned

/-- It has set its round disconnected, or is past that. -/
def IoLoop.Past (th : IoLoop) : Prop := th.phase = .stopping ∨ th.phase = .ended

/-- An older thread is on its way out: what it has not left yet it leaves when it receives. -/
def IoLoop.Goes (th : IoLoop) : Prop :=
  th.Started ∧ (th.phase = .connecting ∨ th.phase = .connected → th.close = true)

structure Owns (s : Session) (k : ℕ) (th : IoLoop) : Prop where
  round : th.round = s.connectionRoundState.round
  thread : th.phase ≠ .called → s.thread = true
  sender : th.Started → s.sender = some k
  connected : th.phase = .connected → s.connectionRoundState.state = .connected
  past : th.Past ↔ s.connectionRoundState.state = .disconnected

structure Inv (s : Session) : Prop where
  olds : ∀ k th, s.threads[k]? = some th → ¬ s.Newest k → th.Goes
  newest : ∀ k th, s.threads[k]? = some th → s.Newest k → Owns s k th
  clipboard : s.stoppedByOlder = false

theorem inv_start : Inv .start where
  olds := fun _ _ h => by simp [Session.start] at h
  newest := fun _ _ h => by simp [Session.start] at h
  clipboard := rfl

section Thread

variable {s : Session} {k : ℕ} {th : IoLoop}

theorem Inv.setThread (h : Inv s) (hk : s.threads[k]? = some th) {s' : Session} (th' : IoLoop)
    (hthreads : s'.threads = s.threads.set k th')
    (hold : ¬ s.Newest k → th.Goes → th'.Goes) (hnew : s.Newest k → Owns s k th → Owns s' k th')
    (hothers : ¬ s.Newest k → ∀ j thj, Owns s j thj → Owns s' j thj)
    (hclipboard : s'.stoppedByOlder = false) : Inv s' := by
  have hlt : k < s.threads.length := (List.getElem?_eq_some_iff.mp hk).1
  have hnewest (j : ℕ) : s'.Newest j ↔ s.Newest j := by
    unfold Session.Newest
    rw [hthreads, List.length_set]
  have hself : s'.threads[k]? = some th' := by
    rw [hthreads]
    exact List.getElem?_set_self hlt
  have hother {j : ℕ} (hne : k ≠ j) : s'.threads[j]? = s.threads[j]? := by
    rw [hthreads]
    exact List.getElem?_set_ne hne
  refine ⟨fun j thj hj hnot => ?_, fun j thj hj his => ?_, hclipboard⟩
  · rw [hnewest] at hnot
    by_cases hjk : k = j
    · subst hjk
      cases hself.symm.trans hj
      exact hold hnot (h.olds k th hk hnot)
    · rw [hother hjk] at hj
      exact h.olds j thj hj hnot
  · rw [hnewest] at his
    by_cases hjk : k = j
    · subst hjk
      cases hself.symm.trans hj
      exact hnew his (h.newest k th hk his)
    · rw [hother hjk] at hj
      have hnot : ¬ s.Newest k := fun hk => hjk (Nat.succ.inj (hk.trans his.symm))
      exact hothers hnot j thj (h.newest j thj hj his)

theorem Owns.of_eq {s' : Session} (h : Owns s k th) {th' : IoLoop} (hround : th'.round = th.round)
    (hstate : s'.connectionRoundState = s.connectionRoundState) (hthread : s'.thread = s.thread)
    (hsender : s'.sender = s.sender) (hcalled : th.phase ≠ .called)
    (hstarted : th'.Started → th.Started)
    (hconnected : th'.phase = .connected → th.phase = .connected)
    (hpast : th'.Past ↔ th.Past) : Owns s' k th' where
  round := by rw [hround, hstate]; exact h.round
  thread := fun _ => by rw [hthread]; exact h.thread hcalled
  sender := fun hs => by rw [hsender]; exact h.sender (hstarted hs)
  connected := fun hc => by rw [hstate]; exact h.connected (hconnected hc)
  past := by rw [hpast, hstate]; exact h.past

end Thread

theorem threads_sendClose (s : Session) (j : ℕ) : s.sendClose.threads[j]? =
    (s.threads[j]?).map fun th => if s.sender = some j then { th with close := true } else th := by
  unfold Session.sendClose
  cases s.sender with
  | none => simp
  | some k =>
    rw [List.getElem?_modify]
    simp only [Option.some.injEq]
    rfl

theorem Session.Newest.getLast? {s : Session} {j : ℕ} (h : s.Newest j) {th : IoLoop}
    (hj : s.threads[j]? = some th) : th ∈ s.threads.getLast? := by
  have hlast : s.threads.length - 1 = j := Nat.pred_eq_of_eq_succ h.symm
  rw [List.getLast?_eq_getElem?, hlast]
  exact hj

theorem stoppedByOlder_closeRound (s : Session) :
    s.closeRound.stoppedByOlder = s.stoppedByOlder := by
  unfold Session.closeRound Session.sendClose
  repeat' split
  all_goals rfl

theorem closeRound_goes {s : Session} (h : Inv s) (htimely : Timely s .reconnect) (j : ℕ)
    (th : IoLoop) (hj : s.closeRound.threads[j]? = some th) : th.Goes := by
  unfold Session.closeRound at hj
  -- without a close the thread has gone already
  have hstays (hj : s.threads[j]? = some th) (hgone : s.Newest j → th.Past) : th.Goes := by
    by_cases hnewest : s.Newest j
    · rcases hgone hnewest with hphase | hphase <;> simp [IoLoop.Goes, IoLoop.Started, hphase]
    · exact h.olds j th hj hnewest
  have hsends (hj : s.sendClose.threads[j]? = some th) : th.Goes := by
    rw [threads_sendClose] at hj
    obtain ⟨th0, hj0, rfl⟩ := Option.map_eq_some_iff.mp hj
    by_cases hsender : s.sender = some j
    · rw [if_pos hsender]
      refine ⟨?_, fun _ => rfl⟩
      by_cases hnewest : s.Newest j
      · exact htimely th0 (hnewest.getLast? hj0)
      · exact (h.olds j th0 hj0 hnewest).1
    · rw [if_neg hsender]
      -- the newest has the sender
      refine h.olds j th0 hj0 fun hnewest => hsender ?_
      exact (h.newest j th0 hj0 hnewest).sender (htimely th0 (hnewest.getLast? hj0))
  split at hj
  · next hthread =>
    split at hj
    · exact hsends hj
    · exact hsends hj
    · next hstate => exact hstays hj fun hnewest => (h.newest j th hj hnewest).past.mpr hstate
  · next hthread =>
    -- there is no thread
    refine hstays hj fun hnewest => absurd ?_ hthread
    exact (h.newest j th hj hnewest).thread (htimely th (hnewest.getLast? hj)).1

theorem inv_reconnect {s : Session} (h : Inv s) (htimely : Timely s .reconnect) :
    Inv s.reconnect := by
  have hgoes := closeRound_goes h htimely
  have hclipboard := (stoppedByOlder_closeRound s).trans h.clipboard
  unfold Session.reconnect
  generalize s.closeRound = s1 at hgoes hclipboard ⊢
  refine ⟨fun j th hj hnot => ?_, fun j th hj his => ?_, hclipboard⟩
  · change (s1.threads ++ [_])[j]? = some th at hj
    have hlt : j < s1.threads.length := by
      have hle := (List.getElem?_eq_some_iff.mp hj).1
      unfold Session.Newest at hnot
      simp only [List.length_append, List.length_singleton] at hle hnot
      omega
    rw [List.getElem?_append_left hlt] at hj
    exact hgoes j th hj
  · change (s1.threads ++ [_])[j]? = some th at hj
    obtain rfl : j = s1.threads.length := by
      unfold Session.Newest at his
      simpa using his
    rw [List.getElem?_concat_length] at hj
    cases hj
    -- it is yet to be spawned
    refine ⟨rfl, fun hcalled => absurd rfl hcalled, fun hs => absurd rfl hs.1, fun hc => ?_, ?_⟩
    · cases hc
    · simp [IoLoop.Past, ConnectionRoundState.newRound]

theorem inv_step (isDefault : Bool) {s : Session} (h : Inv s) {e : SessionEvent}
    (htimely : Timely s e) : Inv (s.step isDefault e) := by
  -- a thread that is not there, or is elsewhere, takes no step
  have hwith {k : ℕ} {phase : Phase} {f : IoLoop → Session}
      (hf : ∀ th, s.threads[k]? = some th → th.phase = phase → Inv (f th)) :
      Inv (s.withThread k phase f) := by
    unfold Session.withThread
    split
    · split
      · exact hf _ ‹_› ‹_›
      · exact h
    · exact h
  cases e with
  | reconnect => exact inv_reconnect h htimely
  | spawn k =>
    refine hwith fun th hk hphase => h.setThread hk _ rfl (fun _ hgoes => ?_) (fun _ howns => ?_)
      (fun hnot => absurd hphase (h.olds k th hk hnot).1.1) h.clipboard
    · exact absurd hphase hgoes.1.1
    · refine ⟨howns.round, fun _ => rfl, fun hs => absurd rfl hs.2, fun hc => ?_, ?_⟩
      · cases hc
      · have hnot : ¬ th.Past := by simp [IoLoop.Past, hphase]
        exact iff_of_false (by simp [IoLoop.Past]) fun hgone => hnot (howns.past.mpr hgone)
  | start k =>
    refine hwith fun th hk hphase => h.setThread hk _ rfl (fun _ hgoes => ?_) (fun _ howns => ?_)
      (fun hnot => absurd hphase (h.olds k th hk hnot).1.2) h.clipboard
    · exact absurd hphase hgoes.1.2
    · refine ⟨howns.round, fun _ => howns.thread (by simp [hphase]), fun _ => rfl, fun hc => ?_, ?_⟩
      · cases hc
      · have hnot : ¬ th.Past := by simp [IoLoop.Past, hphase]
        exact iff_of_false (by simp [IoLoop.Past]) fun hgone => hnot (howns.past.mpr hgone)
  | connected k =>
    refine hwith fun th hk hphase => h.setThread hk _ rfl (fun _ hgoes => ?_) (fun _ howns => ?_)
      (fun hnot j thj howns => ?_) h.clipboard
    · -- it receives what was sent while it connected
      refine ⟨by simp [IoLoop.Started], fun _ => hgoes.2 (.inl hphase)⟩
    · refine ⟨howns.round, fun _ => howns.thread (by simp [hphase]),
        fun _ => howns.sender (by simp [IoLoop.Started, hphase]), fun _ => rfl, ?_⟩
      simp [IoLoop.Past, ConnectionRoundState.setConnected]
    · have hnot := htimely th hk hphase hnot
      rw [ne_eq, ← howns.past] at hnot
      refine ⟨howns.round, howns.thread, howns.sender, fun _ => rfl, ?_⟩
      simp [hnot, ConnectionRoundState.setConnected]
  | failed | lost =>
    refine hwith fun th hk hphase => h.setThread hk _ rfl (fun _ _ => ?_) (fun _ howns => ?_)
      (fun _ _ _ howns => ⟨howns.round, howns.thread, howns.sender, howns.connected, howns.past⟩)
      h.clipboard
    · simp [IoLoop.Goes, IoLoop.Started]
    · exact howns.of_eq rfl rfl rfl rfl (by simp [hphase]) (by simp [IoLoop.Started, hphase])
        (by simp) (by simp [IoLoop.Past, hphase])
  | receiveClose k =>
    refine hwith fun th hk hphase => ?_
    split
    · refine h.setThread hk _ rfl (fun _ _ => ?_) (fun _ howns => ?_)
        (fun _ _ _ howns => ⟨howns.round, howns.thread, howns.sender, howns.connected, howns.past⟩)
        h.clipboard
      · simp [IoLoop.Goes, IoLoop.Started]
      · exact howns.of_eq rfl rfl rfl rfl (by simp [hphase]) (by simp [IoLoop.Started, hphase])
          (by simp) (by simp [IoLoop.Past, hphase])
    · exact h
  | disconnect k =>
    refine hwith fun th hk hphase => ?_
    by_cases hnewest : s.Newest k
    · -- its round is the one that is set
      have howns := h.newest k th hk hnewest
      have hset : s.connectionRoundState.setDisconnected th.round =
          ({ s.connectionRoundState with state := .disconnected }, true) := by
        unfold ConnectionRoundState.setDisconnected
        rw [howns.round, s.connectionRoundState.isRoundGt_self, if_neg Bool.false_ne_true]
      rw [hset]
      refine h.setThread hk _ rfl (absurd hnewest) (fun _ _ => ?_) (absurd hnewest) h.clipboard
      refine ⟨howns.round, fun _ => howns.thread (by simp [hphase]),
        fun _ => howns.sender (by simp [IoLoop.Started, hphase]), fun hc => ?_, iff_of_true ?_ rfl⟩
      · cases isDefault <;> cases hc
      · cases isDefault
        · exact .inr rfl
        · exact .inl rfl
    · -- nothing is set
      have hset : s.connectionRoundState.setDisconnected th.round =
          (s.connectionRoundState, false) := if_pos (htimely th hk hphase hnewest)
      rw [hset]
      refine h.setThread hk _ rfl (fun _ _ => ?_) (fun hnew => absurd hnew hnewest)
        (fun _ _ _ howns => ⟨howns.round, howns.thread, howns.sender, howns.connected, howns.past⟩)
        h.clipboard
      simp [IoLoop.Goes, IoLoop.Started]
  | stopClipboard k sessionsRunning =>
    refine hwith fun th hk hphase => h.setThread hk _ rfl (fun _ _ => ?_) (fun _ howns => ?_)
      (fun _ _ _ howns => ⟨howns.round, howns.thread, howns.sender, howns.connected, howns.past⟩) ?_
    · simp [IoLoop.Goes, IoLoop.Started]
    · exact howns.of_eq rfl rfl rfl rfl (by simp [hphase]) (by simp [IoLoop.Started, hphase])
        (by simp) (by simp [IoLoop.Past, hphase])
    · have hnewest := htimely th hk hphase
      cases sessionsRunning with
      | true => simpa using h.clipboard
      | false => simpa [hnewest rfl] using h.clipboard

theorem inv_run (isDefault : Bool) {es : List SessionEvent}
    (htimely : (reconnecting isDefault).Meets Timely .start es) :
    Inv ((reconnecting isDefault).run .start es) :=
  htimely.inv_run inv_start fun _ _ ht h => inv_step isDefault h ht

theorem Inv.onlyNewest {s : Session} (h : Inv s) (hquiet : Quiescent s) : OnlyNewest s where
  running := fun k th hk hphase => by
    by_contra hnot
    -- it would receive its close
    have hclose := (h.olds k th hk hnot).2 (.inr hphase)
    rcases hquiet th (List.mem_of_getElem? hk) with hended | ⟨-, hopen⟩
    · cases hended.symm.trans hphase
    · cases hopen.symm.trans hclose
  sender := fun k hnewest => by
    have hlt : k < s.threads.length := Nat.lt_of_succ_le (Nat.le_of_eq hnewest)
    have hk := List.getElem?_eq_getElem hlt
    refine (h.newest k _ hk hnewest).sender ?_
    rcases hquiet _ (List.mem_of_getElem? hk) with hphase | ⟨hphase, -⟩ <;>
      simp [IoLoop.Started, hphase]
  state := fun k th hk hnewest => by
    have howns := h.newest k th hk hnewest
    rcases hquiet th (List.mem_of_getElem? hk) with hphase | ⟨hphase, -⟩
    · rw [if_neg (by simp [hphase])]
      exact howns.past.mp (.inr hphase)
    · rw [if_pos hphase]
      exact howns.connected hphase
  clipboard := h.clipboard

/-- **After timely steps only the newest round is left**, in every state in which every thread has
taken its steps. -/
theorem only_newest (isDefault : Bool) (es : List SessionEvent)
    (htimely : (reconnecting isDefault).Meets Timely .start es)
    (hquiet : Quiescent ((reconnecting isDefault).run .start es)) :
    OnlyNewest ((reconnecting isDefault).run .start es) :=
  (inv_run isDefault htimely).onlyNewest hquiet

/-- Two reconnects while the first round connects. -/
theorem only_newest_twice :
    OnlyNewest ((reconnecting true).run .start
      [.reconnect, .spawn 0, .start 0, .reconnect, .spawn 1,
      .connected 0, .start 1, .receiveClose 0, .connected 1, .disconnect 0]) :=
  only_newest true _ (by decide +kernel) (by decide +kernel)

/-- The second reconnect comes before the thread of the first has stored its sender. Nothing closes
that thread, and the commands go to it. -/
theorem quick_reconnect_keeps_both :
    ∃ s, s = (reconnecting true).run .start [.reconnect, .spawn 0, .reconnect, .spawn 1, .start 1,
      .start 0, .connected 1, .connected 0] ∧ Quiescent s ∧ ¬ OnlyNewest s := by
  refine ⟨_, rfl, by decide +kernel, fun h => ?_⟩
  have hnewest := h.running 0 ⟨1, .connected, false⟩ (by decide +kernel) rfl
  revert hnewest
  decide +kernel

end LibRustdesk.Reconnect
