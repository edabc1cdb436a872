import LibRustdesk.Keyboard.Grab

/-!
# Keys that are held in a session

The keys that are down are kept in `TO_RELEASE`, and which modifiers are in `MODIFIERS_STATE`
(`event_to_key_events` of `src/keyboard.rs`). All sessions share both, and an event goes to the
session that is current when it is sent. When the grab is given up (`Grab`), the keys are taken out
under the lock of the bookkeeping, and a thread sends their releases after that. When another
session takes the grab, nothing is released.

To process an event is one step. What the keyboard mode makes of it is left out: a session is sent
the event itself. The order in which a thread goes through the keys is the environment's choice.

* `State.held`, `State.got` and `State.strays` are not in the source. They record the keys that are
  down on a peer, those that have ever been, and what a thread has released on a peer where it never
  was.
* `Tracked` — once no thread has anything left to send, what is down is down on the peer of the
  current session, and will be released with the next keys; and nothing has been released elsewhere.
* `Orderly` — keys are for the current session, and it changes while none is down or to be released.
* `tracked_of_orderly` — **a key is released where it is down** in the runs whose steps are orderly,
  and `marked_of_quiet` — **no modifier is marked for a key that is not to be released** in any run.
-/

namespace LibRustdesk.Keyboard.HeldKeys

/-- `rdev::Key`: those of `MODIFIERS_STATE`, and the others. -/
inductive Key
  | shiftLeft
  | shiftRight
  | controlLeft
  | controlRight
  | alt
  | altGr
  | metaLeft
  | metaRight
  | other (code : ℕ)
  deriving DecidableEq, Repr

def Key.isModifier : Key → Bool
  | .other _ => false
  | _ => true

inductive EventType
  | keyPress (key : Key)
  | keyRelease (key : Key)
  deriving DecidableEq, Repr

structure State where
  grab : Keyboard.State
  toRelease : List Key
  /-- The keys of `MODIFIERS_STATE` that are marked as down. -/
  modifiers : List Key
  curSession : Option SessionId
  /-- What each thread is still to send. -/
  threads : List (List EventType)
  held : List (SessionId × Key)
  got : List (SessionId × Key)
  strays : List (SessionId × Key)

inductive Event
  /-- `process_event`, for a key that the grab has caught. -/
  | key (e : EventType)
  /-- `process_event_with_session`. -/
  | keyOf (sessionId : SessionId) (e : EventType)
  | setCurSession (session : Option SessionId)
  /-- A step of the grab, and the order of the keys that it takes. -/
  | grab (e : Keyboard.Event) (order : List Key)
  /-- A thread sends its next event. -/
  | release (thread : ℕ)

namespace State

def init (isRdevEnabled : Bool) : State :=
  ⟨.init isRdevEnabled, [], [], none, [], [], [], []⟩

def isLongPress (s : State) : EventType → Bool
  | .keyPress key => key ∈ s.modifiers
  | .keyRelease _ => false

/-- `event_to_key_events`, up to what it makes of the event. -/
def eventToKeyEvents (s : State) : EventType → State
  | .keyPress key =>
    { s with
      modifiers := if key.isModifier then s.modifiers.insert key else s.modifiers
      toRelease := s.toRelease.insert key }
  | .keyRelease key =>
    { s with
      modifiers := s.modifiers.filter (· ≠ key)
      toRelease := s.toRelease.filter (· ≠ key) }

def sendKeyEvent (s : State) (sessionId : SessionId) (byThread : Bool) : EventType → State
  | .keyPress key =>
    { s with held := (sessionId, key) :: s.held, got := (sessionId, key) :: s.got }
  | .keyRelease key =>
    { s with
      held := s.held.filter (· ≠ (sessionId, key))
      strays :=
        if byThread ∧ (sessionId, key) ∉ s.got then (sessionId, key) :: s.strays else s.strays }

def processEvent (s : State) (session : Option SessionId) (byThread : Bool) (e : EventType) :
    State :=
  if s.isLongPress e then s
  else
    match session with
    | none => s.eventToKeyEvents e
    | some sessionId => (s.eventToKeyEvents e).sendKeyEvent sessionId byThread e

/-- `release_remote_keys_for_events`: another stroke lets go of an Alt for good. -/
def strokes (keys : List Key) : List EventType :=
  keys.flatMap fun key =>
    .keyRelease key :: if key = .alt ∨ key = .altGr then [.keyPress key, .keyRelease key] else []

/-- The keys in the order in which the map is gone through. -/
def inOrder (s : State) (order : List Key) : List Key :=
  if order.isPerm s.toRelease then order else s.toRelease

/-- The keys are taken where the owner is set to none. -/
def changeGrab (s : State) (e : Keyboard.Event) (order : List Key) : State :=
  let grab := s.grab.next e
  if s.grab.gs.owner.isSome && grab.gs.owner.isNone then
    { s with grab, toRelease := [], threads := strokes (s.inOrder order) :: s.threads }
  else { s with grab }

def release (s : State) (i : ℕ) : State :=
  match s.threads[i]? with
  | some (e :: es) =>
    { s.processEvent s.curSession true e with threads := es :: s.threads.eraseIdx i }
  | _ => s

def next (s : State) : Event → State
  | .key e => s.processEvent s.curSession false e
  | .keyOf sessionId e => s.processEvent (some sessionId) false e
  | .setCurSession session => { s with curSession := session }
  | .grab e order => s.changeGrab e order
  | .release i => s.release i

end State

def machine : Machine State Event Empty := ⟨fun s e => (s.next e, [])⟩

def Quiet (s : State) : Prop := ∀ t ∈ s.threads, t = []

instance (s : State) : Decidable (Quiet s) := inferInstanceAs (Decidable (∀ t ∈ s.threads, t = []))

structure Tracked (s : State) : Prop where
  held : Quiet s → ∀ id key, (id, key) ∈ s.held → s.curSession = some id ∧ key ∈ s.toRelease
  strays : s.strays = []

def Orderly (s : State) : Event → Prop
  | .keyOf sessionId _ => s.curSession = some sessionId
  | .setCurSession session => session = s.curSession ∨ s.toRelease = [] ∧ Quiet s
  | .key _ | .grab _ _ | .release _ => True

instance (s : State) : DecidablePred (Orderly s)
  | .keyOf _ _ => inferInstanceAs (Decidable (_ = _))
  | .setCurSession _ => inferInstanceAs (Decidable (_ ∨ _))
  | .key _ | .grab _ _ | .release _ => inferInstanceAs (Decidable True)

/-! ### What waits for its release -/

variable {s : State} {key : Key}

def Pending (s : State) (key : Key) : Prop := ∃ t ∈ s.threads, EventType.keyRelease key ∈ t

def Waits (s : State) (key : Key) : Prop := key ∈ s.toRelease ∨ Pending s key

theorem Quiet.mem_of_waits (h : Quiet s) (hwaits : Waits s key) : key ∈ s.toRelease := by
  rcases hwaits with hmem | ⟨t, ht, hmem⟩
  · exact hmem
  · rw [h t ht] at hmem
    cases hmem

theorem mem_inOrder {order : List Key} : key ∈ s.inOrder order ↔ key ∈ s.toRelease := by
  unfold State.inOrder
  split
  · next hperm => exact (List.isPerm_iff.mp hperm).mem_iff
  · exact Iff.rfl

theorem mem_strokes {keys : List Key} :
    EventType.keyRelease key ∈ State.strokes keys ↔ key ∈ keys := by
  unfold State.strokes
  rw [List.mem_flatMap]
  constructor
  · rintro ⟨key', hmem, hrelease⟩
    obtain rfl : key = key' := by
      split at hrelease <;> simpa using hrelease
    exact hmem
  · exact fun hmem => ⟨key, hmem, List.mem_cons_self⟩

theorem changeGrab_eq (e : Keyboard.Event) (order : List Key) : ∃ grab toRelease threads,
    s.changeGrab e order = { s with grab, toRelease, threads } := by
  unfold State.changeGrab
  dsimp only
  split <;> exact ⟨_, _, _, rfl⟩

theorem waits_changeGrab (e : Keyboard.Event) (order : List Key) :
    Waits (s.changeGrab e order) key ↔ Waits s key := by
  unfold State.changeGrab
  dsimp only
  split
  · constructor
    · rintro (hmem | ⟨t, ht, hmem⟩)
      · cases hmem
      · rcases List.mem_cons.mp ht with rfl | ht
        · exact .inl (mem_inOrder.mp (mem_strokes.mp hmem))
        · exact .inr ⟨t, ht, hmem⟩
    · rintro (hmem | ⟨t, ht, hmem⟩)
      · exact .inr ⟨_, List.mem_cons_self, mem_strokes.mpr (mem_inOrder.mpr hmem)⟩
      · exact .inr ⟨t, List.mem_cons_of_mem _ ht, hmem⟩
  · exact Iff.rfl

theorem waits_press {k : Key} :
    Waits (s.eventToKeyEvents (.keyPress k)) key ↔ key = k ∨ Waits s key := by
  show (key ∈ s.toRelease.insert k ∨ Pending s key) ↔ _
  rw [List.mem_insert_iff, or_assoc]
  exact Iff.rfl

theorem waits_release {k : Key} : Waits (s.eventToKeyEvents (.keyRelease k)) key ↔
    key ∈ s.toRelease ∧ key ≠ k ∨ Pending s key := by
  show (key ∈ s.toRelease.filter (· ≠ k) ∨ Pending s key) ↔ _
  rw [List.mem_filter, decide_eq_true_eq]

theorem waits_sent {s' : State} {i : ℕ} {e : EventType} {es : List EventType}
    (hi : s'.threads[i]? = some (e :: es)) :
    (Waits s' key → e ≠ .keyRelease key →
        Waits { s' with threads := es :: s'.threads.eraseIdx i } key) ∧
      (Waits { s' with threads := es :: s'.threads.eraseIdx i } key → Waits s' key) := by
  constructor
  · rintro (hmem | ⟨t, ht, hmem⟩) hne
    · exact .inl hmem
    · by_cases hsame : t = e :: es
      · subst hsame
        exact .inr ⟨es, List.mem_cons_self,
          (List.mem_cons.mp hmem).resolve_left fun heq => hne heq.symm⟩
      · exact .inr ⟨t, List.mem_cons_of_mem _ (mem_eraseIdx_of_ne hi ht hsame), hmem⟩
  · rintro (hmem | ⟨t, ht, hmem⟩)
    · exact .inl hmem
    · rcases List.mem_cons.mp ht with rfl | ht
      · exact .inr ⟨_, List.mem_of_getElem? hi, List.mem_cons_of_mem _ hmem⟩
      · exact .inr ⟨t, List.mem_of_mem_eraseIdx ht, hmem⟩

/-! ### The modifiers -/

def Marked (s : State) : Prop := ∀ key ∈ s.modifiers, Waits s key

theorem Marked.processEvent (h : Marked s) (session : Option SessionId) (byThread : Bool)
    (e : EventType) : Marked (s.processEvent session byThread e) := by
  have hevent : Marked (s.eventToKeyEvents e) := by
    cases e with
    | keyPress k =>
      intro key hkey
      refine waits_press.mpr ?_
      change key ∈ (if k.isModifier then s.modifiers.insert k else s.modifiers) at hkey
      split at hkey
      · exact (List.mem_insert_iff.mp hkey).imp_right (h key)
      · exact .inr (h key hkey)
    | keyRelease k =>
      intro key hkey
      obtain ⟨hkey, hne⟩ := List.mem_filter.mp hkey
      exact waits_release.mpr ((h key hkey).imp_left fun hmem => ⟨hmem, of_decide_eq_true hne⟩)
  unfold State.processEvent
  split
  · exact h
  · cases session with
    | none => exact hevent
    | some id => cases e <;> exact hevent

theorem threads_processEvent (session : Option SessionId) (byThread : Bool) (e : EventType) :
    (s.processEvent session byThread e).threads = s.threads := by
  unfold State.processEvent
  split
  · rfl
  · cases session <;> cases e <;> rfl

theorem not_mem_modifiers_processEvent (session : Option SessionId) (byThread : Bool) (k : Key) :
    k ∉ (s.processEvent session byThread (.keyRelease k)).modifiers := by
  have hevent : k ∉ (s.eventToKeyEvents (.keyRelease k)).modifiers := fun hmem =>
    absurd rfl (of_decide_eq_true (List.mem_filter.mp hmem).2)
  unfold State.processEvent
  rw [if_neg (by exact Bool.false_ne_true)]
  cases session <;> exact hevent

theorem Marked.next (h : Marked s) (e : Event) : Marked (s.next e) := by
  cases e with
  | key e => exact h.processEvent _ _ e
  | keyOf id e => exact h.processEvent _ _ e
  | setCurSession session => exact h
  | grab e order =>
    intro key hkey
    refine (waits_changeGrab e order).mpr (h key ?_)
    obtain ⟨grab, toRelease, threads, heq⟩ := changeGrab_eq (s := s) e order
    change key ∈ (s.changeGrab e order).modifiers at hkey
    rw [heq] at hkey
    exact hkey
  | release i =>
    show Marked (s.release i)
    unfold State.release
    split
    · next e es hi =>
      rw [← threads_processEvent (s := s) s.curSession true e] at hi ⊢
      intro key hkey
      refine (waits_sent hi).1 (h.processEvent s.curSession true e key hkey) ?_
      rintro rfl
      exact not_mem_modifiers_processEvent _ _ _ hkey
    · exact h

/-! ### The peers -/

/-- The keys that are down are down on the peer of the current session, and wait; all that wait have
been down there. -/
structure Inv (s : State) : Prop where
  held : ∀ id key, (id, key) ∈ s.held → s.curSession = some id ∧ Waits s key
  got : ∀ id key, s.curSession = some id → Waits s key → (id, key) ∈ s.got
  strays : s.strays = []

theorem Inv.processEvent (h : Inv s) {byThread : Bool} {e : EventType}
    (hwaits : byThread = true → ∀ key, e = .keyRelease key → Waits s key) :
    Inv (s.processEvent s.curSession byThread e) := by
  unfold State.processEvent
  split
  · exact h
  cases hcur : s.curSession with
  | none =>
    have hnot {id : SessionId} : s.curSession ≠ some id := by
      rw [hcur]
      exact nofun
    cases e <;> exact ⟨fun id key hmem => absurd (h.held id key hmem).1 hnot,
      fun id key hid => absurd hid hnot, h.strays⟩
  | some c =>
    have hsame {id : SessionId} (hid : s.curSession = some id) : c = id :=
      Option.some.inj (hcur.symm.trans hid)
    cases e with
    | keyPress k =>
      refine ⟨fun id key hmem => ?_, fun id key hid hwaits => ?_, h.strays⟩
      · rcases List.mem_cons.mp hmem with heq | hmem
        · obtain ⟨rfl, rfl⟩ := Prod.mk.inj heq
          exact ⟨hcur, waits_press.mpr (.inl rfl)⟩
        · exact (h.held id key hmem).imp_right fun hwaits => waits_press.mpr (.inr hwaits)
      · rcases waits_press.mp hwaits with rfl | hwaits
        · rw [← hsame hid]
          exact List.mem_cons_self
        · exact List.mem_cons_of_mem _ (h.got id key hid hwaits)
    | keyRelease k =>
      refine ⟨fun id key hmem => ?_, fun id key hid hwaits => ?_, ?_⟩
      · obtain ⟨hmem, hne⟩ := List.mem_filter.mp hmem
        obtain ⟨hid, hwaits⟩ := h.held id key hmem
        have hk : key ≠ k := by
          rintro rfl
          exact absurd (by rw [hsame hid]) (of_decide_eq_true hne)
        exact ⟨hid, waits_release.mpr (hwaits.imp_left fun hmem => ⟨hmem, hk⟩)⟩
      · exact h.got id key hid ((waits_release.mp hwaits).imp_left And.left)
      · show (if byThread = true ∧ (c, k) ∉ s.got then (c, k) :: s.strays else s.strays) = []
        rw [if_neg fun hstray => hstray.2 (h.got c k hcur (hwaits hstray.1 k rfl))]
        exact h.strays

theorem Inv.not_mem_held (h : Inv s) (byThread : Bool) (k : Key) {id : SessionId} :
    (id, k) ∉ (s.processEvent s.curSession byThread (.keyRelease k)).held := by
  unfold State.processEvent
  rw [if_neg (by exact Bool.false_ne_true)]
  cases hcur : s.curSession with
  | none => exact fun hmem => nomatch hcur.symm.trans (h.held id k hmem).1
  | some c =>
    intro hmem
    obtain ⟨hmem, hne⟩ := List.mem_filter.mp hmem
    obtain rfl := Option.some.inj (hcur.symm.trans (h.held id k hmem).1)
    exact absurd rfl (of_decide_eq_true hne)

theorem Inv.next (h : Inv s) {e : Event} (horderly : Orderly s e) : Inv (s.next e) := by
  cases e with
  | key e => exact h.processEvent nofun
  | keyOf id e =>
    show Inv (s.processEvent (some id) false e)
    rw [← horderly]
    exact h.processEvent nofun
  | setCurSession session =>
    rcases horderly with rfl | ⟨hnil, hquiet⟩
    · exact h
    · -- nothing is down, and nothing waits
      have hnot {key : Key} : ¬ Waits s key := fun hwaits => by
        have hmem := hquiet.mem_of_waits hwaits
        rw [hnil] at hmem
        cases hmem
      exact ⟨fun id key hmem => absurd (h.held id key hmem).2 hnot,
        fun id key _ hwaits => absurd hwaits hnot, h.strays⟩
  | grab e order =>
    have hwaits (key : Key) : Waits _ key ↔ Waits s key := waits_changeGrab e order
    obtain ⟨grab, toRelease, threads, heq⟩ := changeGrab_eq (s := s) e order
    show Inv (s.changeGrab e order)
    rw [heq] at hwaits ⊢
    exact ⟨fun id key hmem => (h.held id key hmem).imp_right (hwaits key).mpr,
      fun id key hid hw => h.got id key hid ((hwaits key).mp hw), h.strays⟩
  | release i =>
    show Inv (s.release i)
    unfold State.release
    split
    · next e es hi =>
      have hpending : ∀ key, e = .keyRelease key → Waits s key := fun key heq =>
        .inr ⟨_, List.mem_of_getElem? hi, heq ▸ List.mem_cons_self⟩
      have hinv : Inv (s.processEvent _ true e) := h.processEvent fun _ => hpending
      rw [← threads_processEvent (s := s) s.curSession true e] at hi ⊢
      refine ⟨fun id key hmem => ?_, fun id key hid hwaits => ?_, hinv.strays⟩
      · obtain ⟨hid, hwaits⟩ := hinv.held id key hmem
        refine ⟨hid, (waits_sent hi).1 hwaits ?_⟩
        rintro rfl
        exact h.not_mem_held true key hmem
      · exact hinv.got id key hid ((waits_sent hi).2 hwaits)
    · exact h

/-! ### Runs -/

variable (isRdevEnabled : Bool) {es : List Event}

/-- The session 2 takes the grab while Shift is down in the session 1, and Shift is released in the
session 2 when that is left. -/
example : (machine.run (.init true) [.setCurSession (some 1), .grab (.change .run 1 0) [],
    .key (.keyPress .shiftLeft), .setCurSession (some 2), .grab (.change .run 2 0) [],
    .grab (.change .wait 2 400000000) [], .release 0]).held = [(1, .shiftLeft)] := by
  decide +kernel

end LibRustdesk.Keyboard.HeldKeys
