import LibRustdesk.Framework.KeyedMap
import LibRustdesk.Framework.Machine

/-!
# The clipboard listener

One thread of the process listens to the clipboard and tells every subscriber of a change. It is
started with the first subscriber, and stopped when the last one has gone.

`subscribe` puts the subscriber into the map and starts the thread after that. When the thread
cannot be started it returns the error, and the subscriber stays in the map: now there is a
subscriber and no thread, although `subscribe` has failed (`subscriber_left`).

A change is told under the lock of the map. It finds the subscribers that were there before the
call of `subscribe` or `unsubscribe` that goes on beside it, or those that are there after it, so
that each call is one step here.

* `listener` — calls under any names, with any outcome of starting the thread, and changes and
  errors of the clipboard.
* `Right` — the three things that a listener is for.
* `right_iff_starts` — **they hold in the runs where the thread is started whenever it has to be**,
  and in no others.
-/

namespace LibRustdesk.Clipboard.Listener

inductive CallbackResult
  | next
  | stop
  | stopWithError (msg : String)
deriving DecidableEq, Repr

variable {Tx Handle : Type}

/-- What becomes of `Master::new` in the new thread. -/
inductive MasterNew (Handle : Type)
  | ok (handle : Handle)
  | err (err : String)
  /-- The thread ends before it has sent anything. -/
  | panic
deriving DecidableEq, Repr

/-- `CLIPBOARD_LISTENER`. A handle is the shutdown channel of the thread, and the thread to join. -/
structure ClipboardListener (Tx Handle : Type) where
  subscribers : KeyedMap String Tx := ∅
  handle : Option Handle := none

/-- The result of a call, or what is sent to the sender under a name. -/
inductive Out (Tx : Type)
  | returned (result : Except String Unit)
  | sent (name : String) (tx : Tx) (msg : CallbackResult)

/-- What `rx_start_res` receives from the thread of `start_clipboard_master_thread`. -/
def startClipboardMasterThread : MasterNew Handle → Option (Option Handle × String)
  | .ok handle => some (some handle, "")
  | .err err => some (none, "Failed to create clipboard listener: " ++ err)
  | .panic => none

namespace ClipboardListener

def subscribe (listener : ClipboardListener Tx Handle) (name : String) (tx : Tx)
    (start : MasterNew Handle) : ClipboardListener Tx Handle × Except String Unit :=
  let listener := { listener with subscribers := listener.subscribers.insert name tx }
  if listener.handle.isNone then
    match startClipboardMasterThread start with
    | some (some shutdown, _) => ({ listener with handle := some shutdown }, .ok ())
    -- `bail!`, with the subscriber in the map
    | some (none, err) => (listener, .error err)
    | none =>
      (listener, .error "Failed to create clipboard listener: receiving on a closed channel")
  else (listener, .ok ())

def unsubscribe (listener : ClipboardListener Tx Handle) (name : String) :
    ClipboardListener Tx Handle × List (Out Tx) :=
  let stopped := (listener.subscribers.lookup name).toList.map fun tx => .sent name tx .stop
  let listener := { listener with subscribers := listener.subscribers.erase name }
  -- `take`, and the thread is signalled and joined
  if listener.subscribers.entries.isEmpty then ({ listener with handle := none }, stopped)
  else (listener, stopped)

/-- `tx.send(msg)` for each subscriber. -/
def sendAll (listener : ClipboardListener Tx Handle) (msg : CallbackResult) : List (Out Tx) :=
  listener.subscribers.entries.map fun entry => .sent entry.1 entry.2 msg

def onClipboardChange (listener : ClipboardListener Tx Handle) : List (Out Tx) :=
  listener.sendAll .next

def onClipboardError (listener : ClipboardListener Tx Handle) (error : String) : List (Out Tx) :=
  listener.sendAll (.stopWithError ("Clipboard listener error: " ++ error))

end ClipboardListener

/-- A call, or something that happens to the clipboard. -/
inductive Event (Tx Handle : Type)
  | subscribe (name : String) (tx : Tx) (start : MasterNew Handle)
  | unsubscribe (name : String)
  | change
  | error (err : String)

def step (listener : ClipboardListener Tx Handle) :
    Event Tx Handle → ClipboardListener Tx Handle × List (Out Tx)
  | .subscribe name tx start =>
    let (listener, result) := listener.subscribe name tx start
    (listener, [.returned result])
  | .unsubscribe name => listener.unsubscribe name
  | .change => (listener, if listener.handle.isSome then listener.onClipboardChange else [])
  | .error err => (listener, if listener.handle.isSome then listener.onClipboardError err else [])

def listener : Machine (ClipboardListener Tx Handle) (Event Tx Handle) (Out Tx) := ⟨step⟩

/-! ### What a listener is for -/

/-- A thread runs exactly when there is a subscriber. -/
def Running (s : ClipboardListener Tx Handle) : Prop :=
  s.handle.isSome ↔ s.subscribers.entries ≠ []

/-- The event replaces or removes the subscriber of this name. -/
def Event.Names (name : String) : Event Tx Handle → Prop
  | .subscribe name' _ _ => name' = name
  | .unsubscribe name' => name' = name
  | .change | .error _ => False

def sentTo (name : String) (outs : List (Out Tx)) : List (Tx × CallbackResult) :=
  outs.filterMap fun
    | .returned _ => none
    | .sent name' tx msg => if name' = name then some (tx, msg) else none

/-- Along the run there is a thread exactly when there is a subscriber, a call that returns an error
has changed nothing, and a subscriber that is in the map is told of each change since its
subscription, once. -/
structure Right (es : List (Event Tx Handle)) : Prop where
  running : ∀ past, past <+: es → Running (listener.run {} past)
  unchanged : ∀ past call err, past ++ [call] <+: es →
    .returned (.error err) ∈ listener.out (listener.run {} past) call →
    listener.run {} (past ++ [call]) = listener.run {} past
  told : ∀ past name tx start mid,
    past ++ .subscribe name tx start :: mid ++ [.change] <+: es →
    (∀ e ∈ mid, ¬ e.Names name) →
    sentTo name
      (listener.out (listener.run {} (past ++ .subscribe name tx start :: mid)) .change) =
        [(tx, .next)]

def Starts (s : ClipboardListener Tx Handle) : Event Tx Handle → Prop
  | .subscribe _ _ start => s.handle = none → ∃ handle, start = .ok handle
  | .unsubscribe _ | .change | .error _ => True

/-! ### One call -/

section Calls

variable {s : ClipboardListener Tx Handle} {name name' : String} {tx : Tx}
  {start : MasterNew Handle}

theorem subscribe_subscribers (s : ClipboardListener Tx Handle) (name : String) (tx : Tx)
    (start : MasterNew Handle) :
    (s.subscribe name tx start).1.subscribers = s.subscribers.insert name tx := by
  unfold ClipboardListener.subscribe
  dsimp only
  split_ifs
  · cases start <;> rfl
  · rfl

theorem subscribe_of_some {handle : Handle} (h : s.handle = some handle) :
    s.subscribe name tx start =
      ({ s with subscribers := s.subscribers.insert name tx }, .ok ()) := by
  unfold ClipboardListener.subscribe
  rw [if_neg (by rw [h]; exact Bool.false_ne_true)]

theorem subscribe_handle_isSome_iff :
    (s.subscribe name tx start).1.handle.isSome ↔ Starts s (.subscribe name tx start) := by
  unfold Starts
  cases hhandle : s.handle with
  | some handle =>
    rw [subscribe_of_some hhandle]
    simp [hhandle]
  | none =>
    unfold ClipboardListener.subscribe
    rw [if_pos (by rw [hhandle]; rfl)]
    cases start with
    | ok handle => simp [startClipboardMasterThread]
    | err err => simp [startClipboardMasterThread, hhandle]
    | panic => simp [startClipboardMasterThread, hhandle]

theorem subscribe_result (h : Starts s (.subscribe name tx start)) :
    (s.subscribe name tx start).2 = .ok () := by
  cases hhandle : s.handle with
  | some handle => rw [subscribe_of_some hhandle]
  | none =>
    obtain ⟨handle, rfl⟩ := h hhandle
    unfold ClipboardListener.subscribe
    rw [if_pos (by rw [hhandle]; rfl)]
    rfl

theorem unsubscribe_subscribers (s : ClipboardListener Tx Handle) (name : String) :
    (s.unsubscribe name).1.subscribers = s.subscribers.erase name := by
  unfold ClipboardListener.unsubscribe
  dsimp only
  split_ifs <;> rfl

theorem sentTo_sendAll (s : ClipboardListener Tx Handle) (name : String) (msg : CallbackResult) :
    sentTo name (s.sendAll msg) =
      (s.subscribers.lookup name).toList.map fun tx => (tx, msg) := by
  unfold ClipboardListener.sendAll sentTo AList.lookup
  obtain ⟨⟨entries, hnodup⟩, -⟩ := s
  induction entries with
  | nil => rfl
  | cons entry entries ih =>
    obtain ⟨name', tx⟩ := entry
    obtain ⟨hfresh, hrest⟩ := List.nodupKeys_cons.mp hnodup
    have hih := ih hrest
    rw [List.map_cons, List.filterMap_cons]
    by_cases hname : name' = name
    · subst hname
      -- no other entry has this name
      have hnone : entries.dlookup name' = none := List.dlookup_eq_none.mpr hfresh
      rw [hnone] at hih
      rw [List.dlookup_cons_eq]
      simpa using hih
    · rw [List.dlookup_cons_ne _ _ (Ne.symm hname)]
      simpa [hname] using hih

end Calls

/-! ### Any calls -/

theorem next_subscribe (s : ClipboardListener Tx Handle) (name : String) (tx : Tx)
    (start : MasterNew Handle) :
    listener.next s (.subscribe name tx start) = (s.subscribe name tx start).1 := rfl

theorem next_unsubscribe (s : ClipboardListener Tx Handle) (name : String) :
    listener.next s (.unsubscribe name) = (s.unsubscribe name).1 := rfl

theorem running_empty : Running ({} : ClipboardListener Tx Handle) :=
  iff_of_false Bool.false_ne_true fun h => h rfl

/-- **One step**: from a state with a thread when there is a subscriber, it comes to another one
exactly when a thread that has to be started is. -/
theorem running_next_iff {s : ClipboardListener Tx Handle} (h : Running s)
    (e : Event Tx Handle) : Running (listener.next s e) ↔ Starts s e := by
  cases e with
  | subscribe name tx start =>
    rw [next_subscribe, ← subscribe_handle_isSome_iff]
    unfold Running
    rw [subscribe_subscribers]
    exact iff_true_right (by simp)
  | unsubscribe name =>
    refine iff_of_true ?_ trivial
    rw [next_unsubscribe]
    unfold ClipboardListener.unsubscribe
    dsimp only
    split_ifs with hempty
    · exact iff_of_false Bool.false_ne_true fun hne => hne (List.isEmpty_iff.mp hempty)
    · -- a subscriber is left, and so there was one before
      have hleft : (s.subscribers.erase name).entries ≠ [] := by simpa using hempty
      have hbefore : s.subscribers.entries ≠ [] := by
        intro hnil
        apply hleft
        have herase : (s.subscribers.erase name).entries = s.subscribers.entries.kerase name := rfl
        exact herase.trans ((congrArg (List.kerase name) hnil).trans List.kerase_nil)
      exact iff_of_true (h.mpr hbefore) hleft
  | change | error => exact iff_of_true h trivial

theorem lookup_run {name : String} {mid : List (Event Tx Handle)}
    (h : ∀ e ∈ mid, ¬ e.Names name) (s : ClipboardListener Tx Handle) :
    (listener.run s mid).subscribers.lookup name = s.subscribers.lookup name := by
  induction mid generalizing s with
  | nil => rfl
  | cons e mid ih =>
    obtain ⟨hname, hrest⟩ := List.forall_mem_cons.mp h
    rw [Machine.run_cons, ih hrest]
    cases e with
    | subscribe name' tx start =>
      rw [next_subscribe, subscribe_subscribers]
      exact AList.lookup_insert_ne (Ne.symm hname)
    | unsubscribe name' =>
      rw [next_unsubscribe, unsubscribe_subscribers]
      exact AList.lookup_erase_ne (Ne.symm hname)
    | change => rfl
    | error err => rfl

theorem not_error_of_starts {s : ClipboardListener Tx Handle} {e : Event Tx Handle}
    (h : Starts s e) (err : String) : .returned (.error err) ∉ listener.out s e := by
  intro hmem
  cases e with
  | subscribe name tx start =>
    have hout : listener.out s (.subscribe name tx start) =
        [.returned (s.subscribe name tx start).2] := rfl
    rw [hout, subscribe_result h, List.mem_singleton] at hmem
    cases hmem
  | unsubscribe name =>
    have hout : listener.out s (.unsubscribe name) = (s.unsubscribe name).2 := rfl
    rw [hout] at hmem
    unfold ClipboardListener.unsubscribe at hmem
    dsimp only at hmem
    split_ifs at hmem
    all_goals
      obtain ⟨tx, -, htx⟩ := List.mem_map.mp hmem
      cases htx
  | change =>
    have hout : listener.out s (.change : Event Tx Handle) =
        if s.handle.isSome then s.onClipboardChange else [] := rfl
    rw [hout] at hmem
    split_ifs at hmem
    · obtain ⟨entry, -, hentry⟩ := List.mem_map.mp hmem
      cases hentry
    · cases hmem
  | error msg =>
    have hout : listener.out s (.error msg : Event Tx Handle) =
        if s.handle.isSome then s.onClipboardError msg else [] := rfl
    rw [hout] at hmem
    split_ifs at hmem
    · obtain ⟨entry, -, hentry⟩ := List.mem_map.mp hmem
      cases hentry
    · cases hmem

theorem told_change {s : ClipboardListener Tx Handle} (h : Running s) {name : String} {tx : Tx}
    (htx : s.subscribers.lookup name = some tx) :
    sentTo name (listener.out s .change) = [(tx, .next)] := by
  have hne : s.subscribers.entries ≠ [] := by
    intro hnil
    rw [AList.lookup, hnil] at htx
    cases htx
  have hout : listener.out s (.change : Event Tx Handle) =
      if s.handle.isSome then s.onClipboardChange else [] := rfl
  rw [hout, if_pos (h.mpr hne)]
  unfold ClipboardListener.onClipboardChange
  rw [sentTo_sendAll, htx]
  rfl

/-- **A listener is right** in the runs where the thread is started whenever there is none and a
subscriber comes. -/
theorem right_iff_starts (es : List (Event Tx Handle)) :
    Right es ↔ listener.Meets Starts {} es := by
  have hrunning : (∀ past, past <+: es → Running (listener.run {} past)) ↔
      listener.Meets Starts {} es :=
    Machine.meets_iff_inv (J := fun _ => True) running_empty trivial (fun _ _ _ => trivial)
      fun s e _ h => running_next_iff h e
  rw [← hrunning]
  refine ⟨Right.running, fun h => ⟨h, ?_, ?_⟩⟩
  · intro past call err hpast hreturned
    -- no call of such a run returns an error
    have hstarts : Starts (listener.run {} past) call := by
      obtain ⟨rest, rfl⟩ := hpast
      have hmeets := hrunning.mp h
      rw [Machine.meets_append, Machine.meets_append, Machine.meets_cons] at hmeets
      exact hmeets.1.2.1
    exact absurd hreturned (not_error_of_starts hstarts err)
  · intro past name tx start mid hpast hnames
    refine told_change (h _ ((List.prefix_append _ _).trans hpast)) ?_
    rw [Machine.run_append, Machine.run_cons, lookup_run hnames, next_subscribe,
      subscribe_subscribers, AList.lookup_insert]

/-- The first subscriber comes when the thread cannot be started. -/
def failedStart : List (Event ℕ ℕ) := [.subscribe "clipboard" 0 (.err "no display")]

/-- `subscribe` returns the error, and the subscriber is in the map: no thread is there to tell it
of a change. -/
theorem subscriber_left :
    (listener.run {} failedStart).subscribers.lookup "clipboard" = some 0 ∧
      (listener.run {} failedStart).handle = none ∧ ¬ Right failedStart := by
  refine ⟨rfl, rfl, fun h => ?_⟩
  have hrunning := h.running failedStart List.prefix_rfl
  exact absurd (hrunning.mpr (List.cons_ne_nil _ _)) Bool.false_ne_true

end LibRustdesk.Clipboard.Listener
