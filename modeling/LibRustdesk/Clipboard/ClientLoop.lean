import LibRustdesk.Clipboard.Listener
import LibRustdesk.Framework.Indexed

/-!
# The clipboard loop of the client

All sessions share one thread that waits for changes of the clipboard. A session that opens starts
it when it does not run (`try_start_clipboard`), and the last session that closes stops it
(`try_stop_clipboard`). Whether it runs is a flag, `CLIPBOARD_STATE.running`.

A thread that is told to stop takes its time, and clears the flag when it ends. By then the next
session may have opened: it has found the flag cleared, has started a thread of its own and has set
the flag. The old thread clears it again, and the new one ends because of it
(`flag_cleared_late`).

`try_start_clipboard` holds the lock of the flag until it returns, and is one step. Of
`try_stop_clipboard`, any number of which go on at a time, the check, `unsubscribe` and the write of
the flag are a step each. A loop thread looks at the flag, waits for a message, and clears the flag
at its end.

* `machine` — sessions that open and close, and loop threads, in any order.
* `Loop` — the flag is set, and there is one loop thread, which is the one that the listener tells.
* `Fresh` — a loop is started when no earlier one is left.
* `loop_kept` — **after `try_start_clipboard` there is a loop**, in the runs where each one is
  started `Fresh`.
-/

namespace LibRustdesk.Clipboard.ClientLoop

open Listener (CallbackResult ClipboardListener MasterNew)

def clientClipboardName : String := "client-clipboard"

inductive Phase
  | check
  | recv
  | finish
  | ended
deriving DecidableEq, Repr

/-- A loop thread, with what is in the channel of `rx_cb_result`. -/
structure LoopThread where
  phase : Phase := .check
  inbox : List CallbackResult := []
deriving DecidableEq, Repr

/-- What a `try_stop_clipboard` that goes on does next. -/
inductive StopPhase
  | unsubscribe
  | clear
deriving DecidableEq, Repr

inductive Call
  /-- `try_start_clipboard` has started the loop, or has found it running. -/
  | start
  /-- `try_start_clipboard` could not subscribe. -/
  | startFailed
  | stop
deriving DecidableEq, Repr

/-- The flag, the listener, the loop threads by number, and the calls. -/
structure Client where
  running : Bool := false
  /-- A sender is named by the thread that has its receiver. -/
  listener : ClipboardListener ℕ Unit := {}
  threads : List LoopThread := []
  stops : List StopPhase := []
  /-- The call that was completed last. -/
  last : Option Call := none

/-- What thread `k` is sent. -/
def received (k : ℕ) (outs : List (Listener.Out ℕ)) : List CallbackResult :=
  outs.filterMap fun
    | .returned _ => none
    | .sent _ tx msg => if tx = k then some msg else none

def deliver (outs : List (Listener.Out ℕ)) (threads : List LoopThread) : List LoopThread :=
  threads.mapIdx fun k thread => { thread with inbox := thread.inbox ++ received k outs }

namespace Client

/-- `try_start_clipboard`, with what becomes of the thread of the listener if it has to be
started. -/
def tryStart (client : Client) (start : MasterNew Unit) : Client :=
  if client.running then { client with last := some .start }
  else
    match client.listener.subscribe clientClipboardName client.threads.length start with
    | (listener, .error _) => { client with listener := listener, last := some .startFailed }
    | (listener, .ok ()) =>
      { client with
        running := true
        listener := listener
        threads := client.threads ++ [{}]
        last := some .start }

/-- The check at the start of `try_stop_clipboard`. -/
def tryStop (client : Client) (hasSessionsRunning : Bool) : Client :=
  if hasSessionsRunning then { client with last := some .stop }
  else { client with stops := client.stops ++ [.unsubscribe] }

def unsubscribe (client : Client) (i : ℕ) : Client :=
  match client.stops[i]? with
  | some .unsubscribe =>
    let (listener, outs) := client.listener.unsubscribe clientClipboardName
    { client with
      listener := listener
      threads := deliver outs client.threads
      stops := client.stops.set i .clear }
  | _ => client

/-- `CLIPBOARD_STATE.lock().unwrap().running = false`, at the end of `try_stop_clipboard`. -/
def clear (client : Client) (i : ℕ) : Client :=
  match client.stops[i]? with
  | some .clear =>
    { client with running := false, stops := client.stops.eraseIdx i, last := some .stop }
  | _ => client

def check (client : Client) (k : ℕ) : Client :=
  match client.threads[k]? with
  | some ⟨.check, inbox⟩ =>
    let phase := if client.running then Phase.recv else .finish
    { client with threads := client.threads.set k ⟨phase, inbox⟩ }
  | _ => client

/-- `recv_timeout`. A message that is there comes before the end of the channel. -/
def recv (client : Client) (k : ℕ) : Client :=
  match client.threads[k]? with
  | some ⟨.recv, .next :: inbox⟩ =>
    { client with threads := client.threads.set k ⟨.check, inbox⟩ }
  | some ⟨.recv, .stop :: inbox⟩ | some ⟨.recv, .stopWithError _ :: inbox⟩ =>
    { client with threads := client.threads.set k ⟨.finish, inbox⟩ }
  | some ⟨.recv, []⟩ =>
    -- the sender is in the map of the listener or is dropped
    if client.listener.subscribers.lookup clientClipboardName = some k then
      { client with threads := client.threads.set k ⟨.check, []⟩ }
    else { client with threads := client.threads.set k ⟨.finish, []⟩ }
  | _ => client

def finish (client : Client) (k : ℕ) : Client :=
  match client.threads[k]? with
  | some ⟨.finish, inbox⟩ =>
    { client with running := false, threads := client.threads.set k ⟨.ended, inbox⟩ }
  | _ => client

/-- What the thread of the listener sends, while there is one. -/
def tell (client : Client) (outs : List (Listener.Out ℕ)) : Client :=
  if client.listener.handle.isSome then
    { client with threads := deliver outs client.threads }
  else client

end Client

/-- A step of a session, of a loop thread, or of the clipboard. -/
inductive Event
  | tryStart (start : MasterNew Unit)
  | tryStop (hasSessionsRunning : Bool)
  | unsubscribe (i : ℕ)
  | clear (i : ℕ)
  | check (k : ℕ)
  | recv (k : ℕ)
  | finish (k : ℕ)
  | change
  | error (err : String)

def step (client : Client) : Event → Client
  | .tryStart start => client.tryStart start
  | .tryStop hasSessionsRunning => client.tryStop hasSessionsRunning
  | .unsubscribe i => client.unsubscribe i
  | .clear i => client.clear i
  | .check k => client.check k
  | .recv k => client.recv k
  | .finish k => client.finish k
  | .change => client.tell client.listener.onClipboardChange
  | .error err => client.tell (client.listener.onClipboardError err)

def machine : Machine Client Event Empty := ⟨fun client e => (step client e, [])⟩

/-! ### What a start is for -/

def Alive (s : Client) (k : ℕ) : Prop :=
  ∃ thread, s.threads[k]? = some thread ∧ thread.phase ≠ .ended

structure Loop (s : Client) : Prop where
  running : s.running = true
  listens : s.listener.handle.isSome
  one : ∃ k, Alive s k ∧ s.listener.subscribers.lookup clientClipboardName = some k ∧
    ∀ j, Alive s j → j = k

/-- The listener can be started, and tells of no error. -/
def Event.NoListenerError : Event → Prop
  | .tryStart start => start = .ok ()
  | .error _ => False
  | _ => True

def Event.OfThread : Event → Prop
  | .check _ | .recv _ | .finish _ => True
  | _ => False

/-- A loop is started when no earlier loop thread is left. -/
def Fresh (s : Client) : Event → Prop
  | .tryStart _ => s.running = false → ∀ thread ∈ s.threads, thread.phase = .ended
  | _ => True

instance (e : Event) : Decidable e.NoListenerError :=
  match e with
  | .tryStart start => inferInstanceAs (Decidable (start = .ok ()))
  | .error _ => inferInstanceAs (Decidable False)
  | .tryStop _ | .unsubscribe _ | .clear _ | .check _ | .recv _ | .finish _ | .change =>
    inferInstanceAs (Decidable True)

instance (e : Event) : Decidable e.OfThread :=
  match e with
  | .check _ | .recv _ | .finish _ => inferInstanceAs (Decidable True)
  | .tryStart _ | .tryStop _ | .unsubscribe _ | .clear _ | .change | .error _ =>
    inferInstanceAs (Decidable False)

instance (s : Client) (e : Event) : Decidable (Fresh s e) :=
  match e with
  | .tryStart _ =>
    inferInstanceAs (Decidable (s.running = false → ∀ thread ∈ s.threads, thread.phase = .ended))
  | .tryStop _ | .unsubscribe _ | .clear _ | .check _ | .recv _ | .finish _ | .change | .error _ =>
    inferInstanceAs (Decidable True)

/-! ### One loop thread -/

/-- `k` is the loop thread: nothing tells it to stop, and the others have ended. -/
structure Served (s : Client) (k : ℕ) : Prop where
  running : s.running = true
  listens : s.listener.handle.isSome
  subscribed : s.listener.subscribers.lookup clientClipboardName = some k
  thread : ∃ t, s.threads[k]? = some t ∧ (t.phase = .check ∨ t.phase = .recv) ∧
    ∀ msg ∈ t.inbox, msg = .next
  others : ∀ j t, s.threads[j]? = some t → j ≠ k → t.phase = .ended

namespace Served

variable {s : Client} {k : ℕ}

theorem loop (h : Served s k) : Loop s := by
  obtain ⟨t, ht, hphase, -⟩ := h.thread
  refine ⟨h.running, h.listens, k, ⟨t, ht, ?_⟩, h.subscribed, ?_⟩
  · rcases hphase with hphase | hphase <;> rw [hphase] <;> exact Phase.noConfusion
  · rintro j ⟨u, hu, halive⟩
    by_contra hne
    exact halive (h.others j u hu hne)

theorem eq_of_phase (h : Served s k) {j : ℕ} {t : LoopThread} (ht : s.threads[j]? = some t)
    (hphase : t.phase ≠ .ended) : j = k := by
  by_contra hne
  exact hphase (h.others j t ht hne)

theorem inbox_next (h : Served s k) {t : LoopThread} (ht : s.threads[k]? = some t) :
    ∀ msg ∈ t.inbox, msg = .next := by
  obtain ⟨u, hu, -, hinbox⟩ := h.thread
  rw [Option.some.inj (ht.symm.trans hu)]
  exact hinbox

theorem set (h : Served s k) {phase : Phase} {inbox : List CallbackResult}
    (hphase : phase = .check ∨ phase = .recv) (hinbox : ∀ msg ∈ inbox, msg = .next) :
    Served { s with threads := s.threads.set k ⟨phase, inbox⟩ } k where
  running := h.running
  listens := h.listens
  subscribed := h.subscribed
  thread := by
    obtain ⟨t, ht, -⟩ := h.thread
    have hlt : k < s.threads.length := (List.getElem?_eq_some_iff.mp ht).1
    exact ⟨⟨phase, inbox⟩, List.getElem?_set_self hlt, hphase, hinbox⟩
  others := by
    intro j t ht hne
    rw [List.getElem?_set_ne (Ne.symm hne)] at ht
    exact h.others j t ht hne

theorem check (h : Served s k) (j : ℕ) : Served (s.check j) k := by
  unfold Client.check
  split
  · next inbox ht =>
    -- only the loop thread is at the start of the loop
    obtain rfl : j = k := h.eq_of_phase ht Phase.noConfusion
    rw [if_pos h.running]
    exact h.set (Or.inr rfl) (h.inbox_next ht)
  · exact h

theorem recv (h : Served s k) (j : ℕ) : Served (s.recv j) k := by
  unfold Client.recv
  split
  · next inbox ht =>
    obtain rfl : j = k := h.eq_of_phase ht Phase.noConfusion
    exact h.set (Or.inl rfl) (List.forall_mem_cons.mp (h.inbox_next ht)).2
  · next inbox ht =>
    -- it has not been told to stop
    obtain rfl : j = k := h.eq_of_phase ht Phase.noConfusion
    have hstop := (List.forall_mem_cons.mp (h.inbox_next ht)).1
    cases hstop
  · next err inbox ht =>
    obtain rfl : j = k := h.eq_of_phase ht Phase.noConfusion
    have hstop := (List.forall_mem_cons.mp (h.inbox_next ht)).1
    cases hstop
  · next ht =>
    obtain rfl : j = k := h.eq_of_phase ht Phase.noConfusion
    rw [if_pos h.subscribed]
    exact h.set (Or.inl rfl) fun msg hmsg => absurd hmsg List.not_mem_nil
  · exact h

theorem finish (h : Served s k) (j : ℕ) : s.finish j = s := by
  unfold Client.finish
  split
  · next inbox ht =>
    obtain rfl : j = k := h.eq_of_phase ht Phase.noConfusion
    obtain ⟨t, ht', hphase, -⟩ := h.thread
    rw [← Option.some.inj (ht.symm.trans ht')] at hphase
    rcases hphase with hphase | hphase <;> cases hphase
  · rfl

end Served

theorem getElem?_deliver (outs : List (Listener.Out ℕ)) (threads : List LoopThread) (k : ℕ) :
    (deliver outs threads)[k]? =
      threads[k]?.map fun t => { t with inbox := t.inbox ++ received k outs } :=
  List.getElem?_mapIdx

theorem received_change (listener : ClipboardListener ℕ Unit) (k : ℕ) :
    ∀ msg ∈ received k listener.onClipboardChange, msg = .next := by
  intro msg hmsg
  obtain ⟨out, hout, hsome⟩ := List.mem_filterMap.mp hmsg
  obtain ⟨entry, -, rfl⟩ := List.mem_map.mp hout
  dsimp only at hsome
  split_ifs at hsome
  exact (Option.some.inj hsome).symm

theorem Served.change {s : Client} {k : ℕ} (h : Served s k) :
    Served (s.tell s.listener.onClipboardChange) k := by
  unfold Client.tell
  rw [if_pos h.listens]
  refine ⟨h.running, h.listens, h.subscribed, ?_, ?_⟩
  · obtain ⟨t, ht, hphase, hinbox⟩ := h.thread
    rw [getElem?_deliver, ht]
    refine ⟨_, rfl, hphase, fun msg hmsg => ?_⟩
    rcases List.mem_append.mp hmsg with hmsg | hmsg
    · exact hinbox msg hmsg
    · exact received_change s.listener k msg hmsg
  · intro j t ht hne
    rw [getElem?_deliver] at ht
    obtain ⟨u, hu, rfl⟩ := Option.map_eq_some_iff.mp ht
    exact h.others j u hu hne

theorem served_tryStart {s : Client} (hended : ∀ thread ∈ s.threads, thread.phase = .ended)
    (hrunning : s.running = false) :
    Served (s.tryStart (.ok ())) s.threads.length ∧ (s.tryStart (.ok ())).last = some .start ∧
      (s.tryStart (.ok ())).stops = s.stops := by
  have hstarts : Listener.Starts s.listener
      (.subscribe clientClipboardName s.threads.length (.ok ())) := fun _ => ⟨(), rfl⟩
  have hresult := Listener.subscribe_result hstarts
  have hhandle := Listener.subscribe_handle_isSome_iff.mpr hstarts
  have hsubscribers := Listener.subscribe_subscribers s.listener clientClipboardName
    s.threads.length (.ok ())
  unfold Client.tryStart
  rw [if_neg (by rw [hrunning]; exact Bool.false_ne_true)]
  generalize s.listener.subscribe clientClipboardName s.threads.length (.ok ()) = result
    at hresult hhandle hsubscribers ⊢
  obtain ⟨listener, res⟩ := result
  subst hresult
  refine ⟨⟨rfl, hhandle, ?_, ?_, ?_⟩, rfl, rfl⟩
  · rw [hsubscribers]
    exact AList.lookup_insert _
  · refine ⟨{}, List.getElem?_concat_length, Or.inl rfl, ?_⟩
    exact fun msg hmsg => absurd hmsg List.not_mem_nil
  · intro j t ht hne
    rcases getElem?_concat_cases ht with ht | ⟨hj, -⟩
    · exact hended t (List.mem_of_getElem? ht)
    · exact absurd hj hne

/-! ### Any steps -/

/-- While no call goes on: when the flag is set there is a loop, and it is set when the last call
was a start. -/
def Inv (s : Client) : Prop :=
  s.stops = [] → (s.running = true → ∃ k, Served s k) ∧ (s.last = some .start → s.running = true)

theorem Inv.empty : Inv {} := fun _ => ⟨fun h => (nomatch h), fun h => (nomatch h)⟩

theorem Inv.of_served {s s' : Client} (h : Inv s) (hstops : s'.stops = s.stops)
    (hlast : s'.last = s.last) (hflag : s'.running = true → s.running = true)
    (hserved : ∀ k, Served s k → Served s' k) : Inv s' := by
  intro hnil
  rw [hstops] at hnil
  obtain ⟨hloop, hstart⟩ := h hnil
  refine ⟨fun hrunning => ?_, fun hs' => ?_⟩
  · obtain ⟨k, hk⟩ := hloop (hflag hrunning)
    exact ⟨k, hserved k hk⟩
  · rw [hlast] at hs'
    obtain ⟨k, hk⟩ := hloop (hstart hs')
    exact (hserved k hk).running

section Steps

variable {s : Client}

theorem check_fields (s : Client) (k : ℕ) :
    (s.check k).stops = s.stops ∧ (s.check k).last = s.last ∧
      ((s.check k).running = true → s.running = true) := by
  unfold Client.check
  split <;> exact ⟨rfl, rfl, id⟩

theorem recv_fields (s : Client) (k : ℕ) :
    (s.recv k).stops = s.stops ∧ (s.recv k).last = s.last ∧
      ((s.recv k).running = true → s.running = true) := by
  unfold Client.recv
  split
  case h_4 => split_ifs <;> exact ⟨rfl, rfl, id⟩
  all_goals exact ⟨rfl, rfl, id⟩

theorem finish_fields (s : Client) (k : ℕ) :
    (s.finish k).stops = s.stops ∧ (s.finish k).last = s.last ∧
      ((s.finish k).running = true → s.running = true) := by
  unfold Client.finish
  split
  · exact ⟨rfl, rfl, fun h => (nomatch h)⟩
  · exact ⟨rfl, rfl, id⟩

theorem tell_fields (s : Client) (outs : List (Listener.Out ℕ)) :
    (s.tell outs).stops = s.stops ∧ (s.tell outs).last = s.last ∧
      ((s.tell outs).running = true → s.running = true) := by
  unfold Client.tell
  split_ifs <;> exact ⟨rfl, rfl, id⟩

theorem Inv.tryStart (h : Inv s) (hfresh : Fresh s (.tryStart (.ok ()))) :
    Inv (s.tryStart (.ok ())) := by
  cases hrunning : s.running with
  | true =>
    -- it finds the loop running
    have heq : s.tryStart (.ok ()) = { s with last := some .start } := by
      unfold Client.tryStart
      rw [if_pos hrunning]
    rw [heq]
    intro hnil
    refine ⟨fun _ => ?_, fun _ => hrunning⟩
    obtain ⟨k, hk⟩ := (h hnil).1 hrunning
    exact ⟨k, hk.running, hk.listens, hk.subscribed, hk.thread, hk.others⟩
  | false =>
    obtain ⟨hserved, -, -⟩ := served_tryStart (hfresh hrunning) hrunning
    exact fun _ => ⟨fun _ => ⟨_, hserved⟩, fun _ => hserved.running⟩

theorem Inv.tryStop (h : Inv s) (hasSessionsRunning : Bool) :
    Inv (s.tryStop hasSessionsRunning) := by
  unfold Client.tryStop
  split_ifs
  · -- the call is over at once
    intro hnil
    refine ⟨fun hrunning => ?_, fun hlast => nomatch hlast⟩
    obtain ⟨k, hk⟩ := (h hnil).1 hrunning
    exact ⟨k, hk.running, hk.listens, hk.subscribed, hk.thread, hk.others⟩
  · intro hnil
    exact absurd hnil (List.concat_ne_nil _ _)

theorem Inv.unsubscribe (h : Inv s) (i : ℕ) : Inv (s.unsubscribe i) := by
  unfold Client.unsubscribe
  split
  · next hi =>
    -- the call still has to clear the flag
    intro hnil
    have hlen := congrArg List.length hnil
    rw [List.length_set] at hlen
    rw [List.eq_nil_of_length_eq_zero hlen] at hi
    cases hi
  · exact h

theorem Inv.clear (h : Inv s) (i : ℕ) : Inv (s.clear i) := by
  unfold Client.clear
  split
  · exact fun _ => ⟨fun hrunning => (nomatch hrunning), fun hlast => (nomatch hlast)⟩
  · exact h

theorem Inv.next (h : Inv s) {e : Event} (hquiet : e.NoListenerError) (hfresh : Fresh s e) :
    Inv (machine.next s e) := by
  cases e with
  | tryStart start =>
    obtain rfl : start = .ok () := hquiet
    exact h.tryStart hfresh
  | tryStop hasSessionsRunning => exact h.tryStop hasSessionsRunning
  | unsubscribe i => exact h.unsubscribe i
  | clear i => exact h.clear i
  | check k =>
    obtain ⟨hstops, hlast, hflag⟩ := check_fields s k
    exact h.of_served hstops hlast hflag fun j hj => hj.check k
  | recv k =>
    obtain ⟨hstops, hlast, hflag⟩ := recv_fields s k
    exact h.of_served hstops hlast hflag fun j hj => hj.recv k
  | finish k =>
    obtain ⟨hstops, hlast, hflag⟩ := finish_fields s k
    refine h.of_served hstops hlast hflag fun j hj => ?_
    have hnext : machine.next s (.finish k) = s := hj.finish k
    rw [hnext]
    exact hj
  | change =>
    obtain ⟨hstops, hlast, hflag⟩ := tell_fields s s.listener.onClipboardChange
    exact h.of_served hstops hlast hflag fun j hj => hj.change
  | error err => exact hquiet.elim

end Steps

theorem meets_of_thread {s : Client} {more : List Event} (hmore : ∀ e ∈ more, e.OfThread) :
    machine.Meets (fun s e => e.NoListenerError ∧ Fresh s e) s more := by
  intro p hp
  obtain ⟨pre, post, rfl, -⟩ := machine.exists_split_of_mem_trace hp
  have he := hmore p.2 (List.mem_append_right pre List.mem_cons_self)
  cases hevent : p.2 with
  | check k | recv k | finish k => exact ⟨trivial, trivial⟩
  | tryStart _ | tryStop _ | unsubscribe _ | clear _ | change | error _ =>
    rw [hevent] at he
    exact he.elim

theorem fields_of_thread {s : Client} {more : List Event} (hmore : ∀ e ∈ more, e.OfThread) :
    (machine.run s more).stops = s.stops ∧ (machine.run s more).last = s.last := by
  induction more generalizing s with
  | nil => exact ⟨rfl, rfl⟩
  | cons e more ih =>
    obtain ⟨he, hrest⟩ := List.forall_mem_cons.mp hmore
    obtain ⟨hstops, hlast⟩ := ih (s := machine.next s e) hrest
    have hnext : (machine.next s e).stops = s.stops ∧ (machine.next s e).last = s.last := by
      cases e with
      | check k => exact ⟨(check_fields s k).1, (check_fields s k).2.1⟩
      | recv k => exact ⟨(recv_fields s k).1, (recv_fields s k).2.1⟩
      | finish k => exact ⟨(finish_fields s k).1, (finish_fields s k).2.1⟩
      | tryStart _ | tryStop _ | unsubscribe _ | clear _ | change | error _ => exact he.elim
    exact ⟨hstops.trans hnext.1, hlast.trans hnext.2⟩

/-- **After a start there is a loop**: when no call goes on and the last was a
`try_start_clipboard`, then whatever steps the loop threads take (`more`), the flag is set, and one
loop thread has the receiver that the listener sends to. -/
theorem loop_kept {es more : List Event} (hquiet : ∀ e ∈ es, e.NoListenerError)
    (hfresh : machine.Meets Fresh {} es) (hstops : (machine.run {} es).stops = [])
    (hlast : (machine.run {} es).last = some .start) (hmore : ∀ e ∈ more, e.OfThread) :
    Loop (machine.run {} (es ++ more)) := by
  have hes : machine.Meets (fun s e => e.NoListenerError ∧ Fresh s e) {} es := by
    intro p hp
    obtain ⟨pre, post, heq, -⟩ := machine.exists_split_of_mem_trace hp
    refine ⟨hquiet p.2 ?_, hfresh p hp⟩
    rw [heq]
    exact List.mem_append_right pre List.mem_cons_self
  have hinv : Inv (machine.run {} (es ++ more)) :=
    (Machine.meets_append.mpr ⟨hes, meets_of_thread hmore⟩).inv_run Inv.empty
      fun s e hcond hs => hs.next hcond.1 hcond.2
  obtain ⟨hstops', hlast'⟩ := fields_of_thread (s := machine.run {} es) hmore
  rw [← Machine.run_append] at hstops' hlast'
  obtain ⟨hloop, hstart⟩ := hinv (hstops'.trans hstops)
  obtain ⟨k, hk⟩ := hloop (hstart (hlast'.trans hlast))
  exact hk.loop

/-- A session opens, closes, and the next one opens when the first loop has ended. -/
def openedAgain : List Event :=
  [.tryStart (.ok ()), .check 0, .tryStop false, .unsubscribe 0, .clear 0, .recv 0, .finish 0,
    .tryStart (.ok ())]

theorem loop_openedAgain : Loop (machine.run {} (openedAgain ++ [.check 1])) :=
  loop_kept (by decide) (by decide +kernel) rfl rfl (by decide)

/-- The next session opens before the first loop has ended. -/
def openedSoon : List Event :=
  [.tryStart (.ok ()), .check 0, .tryStop false, .unsubscribe 0, .clear 0, .tryStart (.ok ())]

def outstanding : List Event := [.recv 0, .finish 0, .check 1, .finish 1]

/-- Its loop is ended by the first one: the flag is cleared, and no thread is left. -/
theorem flag_cleared_late :
    (∀ e ∈ openedSoon, e.NoListenerError) ∧ (machine.run {} openedSoon).stops = [] ∧
      (machine.run {} openedSoon).last = some .start ∧ (∀ e ∈ outstanding, e.OfThread) ∧
      (machine.run {} (openedSoon ++ outstanding)).running = false ∧
      (machine.run {} (openedSoon ++ outstanding)).threads.map LoopThread.phase =
        [.ended, .ended] ∧
      ¬ Loop (machine.run {} (openedSoon ++ outstanding)) := by
  have hcleared : (machine.run {} (openedSoon ++ outstanding)).running = false := by decide +kernel
  refine ⟨by decide, rfl, rfl, by decide, hcleared, by decide +kernel, fun h => ?_⟩
  exact Bool.false_ne_true (hcleared.symm.trans h.running)

end LibRustdesk.Clipboard.ClientLoop
