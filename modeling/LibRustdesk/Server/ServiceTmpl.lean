import LibRustdesk.Framework.KeyedMap
import LibRustdesk.Framework.Machine

/-!
# A service and its subscribers

`ServiceTmpl` of `src/server/service.rs`. A service sends its messages to the subscribers in
`subscribes`. On a service with `need_snapshot` a connection that subscribes is put in
`new_subscribes` first; the service's thread sends what a newcomer needs through a `ServiceSwap`,
and when that is dropped the newcomers join the others.

* `ServiceInner` and its operations, for any `Subscriber`: a plain connection, or the
  `MouseCursorSub` of the cursor service, which sends a cursor it has sent before by its id.
* `service` — the machine of one service. Every operation takes the lock once, so that its events
  come in any order, from any threads.
* `Sound` — the three laws of a run: no id is in both maps and each subscriber is under its own
  id; an id is subscribed when it asked last to be; and of a service with snapshots no broadcast
  reaches a subscriber before the swap.

`service_sound` proves them of every run. The work is in `Known`, an invariant of a state and its
past: every stored subscriber goes back to an `on_subscribe` in the past that no `on_unsubscribe`
of its id follows, and an active one to one that a swap follows. No other event does more than
update what is in the maps (`updated_next`).

`is_subed` takes the lock twice and is read here in one state.
-/

namespace LibRustdesk.ServiceTmpl

/-! ### Subscribers -/

/-- `Message`, by the unions that a subscriber looks at. -/
inductive Message
  | videoFrame (body : List UInt8)
  | switchDisplay (body : List UInt8)
  | cursorData (id : UInt64) (body : List UInt8)
  | cursorId (id : UInt64)
  | other (body : List UInt8)
  deriving DecidableEq

abbrev Sender := ℕ

structure ConnInner where
  id : Int32
  tx : Option Sender
  txVideo : Option Sender
  deriving DecidableEq

/-- The trait `Subscriber` with `From<ConnInner>`. To send may change the subscriber, and puts
messages on channels. -/
class Subscriber (T : Type) where
  ofConn : ConnInner → T
  id : T → Int32
  send : T → Message → T × List (Sender × Message)
  id_ofConn : ∀ conn, id (ofConn conn) = conn.id
  id_send : ∀ s msg, id (send s msg).1 = id s

/-- `SwitchDisplay` goes the way of the frames, so that their order is kept. -/
def Message.byVideo : Message → Bool
  | videoFrame _ | switchDisplay _ => true
  | _ => false

/-- `ConnInner::send`. -/
def ConnInner.put (conn : ConnInner) (msg : Message) : List (Sender × Message) :=
  ((if msg.byVideo then conn.txVideo else conn.tx).map fun tx => (tx, msg)).toList

instance : Subscriber ConnInner where
  ofConn conn := conn
  id conn := conn.id
  send conn msg := (conn, conn.put msg)
  id_ofConn _ := rfl
  id_send _ _ := rfl

structure MouseCursorSub where
  inner : ConnInner
  cached : KeyedMap UInt64 Message

/-- `MouseCursorSub::send`. -/
def MouseCursorSub.sendMsg (s : MouseCursorSub) (msg : Message) :
    MouseCursorSub × List (Sender × Message) :=
  match msg with
  | .cursorData id _ =>
    match s.cached.lookup id with
    | some known => (s, s.inner.put known)
    | none =>
      -- only the id is sent from here on, so the client caches too
      ({ s with cached := s.cached.insert id (.cursorId id) }, s.inner.put msg)
  | _ => (s, s.inner.put msg)

instance : Subscriber MouseCursorSub where
  ofConn conn := ⟨conn, ∅⟩
  id s := s.inner.id
  send := MouseCursorSub.sendMsg
  id_ofConn _ := rfl
  id_send s msg := by
    unfold MouseCursorSub.sendMsg
    split
    · split <;> rfl
    · rfl

/-! ### The service -/

structure ServiceInner (T : Type) where
  subscribes : KeyedMap Int32 T
  newSubscribes : KeyedMap Int32 T
  needSnapshot : Bool

/-- What an operation does towards the subscribers and its caller: a message handed to a
subscriber, with what that puts on channels; the ids `send_video_frame` returns; the callback of
`snapshot`. -/
inductive Out (T : Type)
  | sent (recipient : T) (put : List (Sender × Message))
  | connIds (ids : List Int32)
  | callback

variable {T : Type} [Subscriber T]

open Subscriber (ofConn send)

namespace ServiceInner

def new (needSnapshot : Bool) : ServiceInner T := ⟨∅, ∅, needSnapshot⟩

def isSubed (s : ServiceInner T) (id : Int32) : Bool :=
  (s.subscribes.lookup id).isSome || (s.newSubscribes.lookup id).isSome

def onSubscribe (s : ServiceInner T) (sub : ConnInner) : ServiceInner T :=
  if (s.subscribes.lookup sub.id).isSome then s
  else if s.needSnapshot then
    { s with newSubscribes := s.newSubscribes.insert sub.id (ofConn sub) }
  else
    { s with subscribes := s.subscribes.insert sub.id (ofConn sub) }

def onUnsubscribe (s : ServiceInner T) (id : Int32) : ServiceInner T :=
  if (s.subscribes.lookup id).isSome then
    { s with subscribes := s.subscribes.erase id }
  else
    { s with newSubscribes := s.newSubscribes.erase id }

/-- `swap_new_subscribes`: each newcomer goes under the id it says it has. -/
def swapNewSubscribes (s : ServiceInner T) : ServiceInner T :=
  { s with
    subscribes := KeyedMap.insertAll Subscriber.id s.subscribes s.newSubscribes.entries
    newSubscribes := ∅ }

/-- The loop of every sender: `msg` is handed to the subscribers of a map that `p` selects. -/
def sendTo (p : Int32 → T → Bool) (msg : Message) (m : KeyedMap Int32 T) :
    KeyedMap Int32 T × List (Out T) :=
  (KeyedMap.mapValues (fun id s => if p id s then (send s msg).1 else s) m,
    (m.entries.filter fun e => p e.1 e.2).map fun e => .sent e.2 (send e.2 msg).2)

/-- A sender of the service, which sends to the active subscribers alone. -/
def broadcast (s : ServiceInner T) (p : Int32 → T → Bool) (msg : Message) :
    ServiceInner T × List (Out T) :=
  ({ s with subscribes := (sendTo p msg s.subscribes).1 }, (sendTo p msg s.subscribes).2)

/-- `send_shared`, and `send` of a message. -/
def sendShared (s : ServiceInner T) (msg : Message) : ServiceInner T × List (Out T) :=
  s.broadcast (fun _ _ => true) msg

/-- `send_video_frame_shared`, and `send_video_frame` of a message. -/
def sendVideoFrame (s : ServiceInner T) (msg : Message) : ServiceInner T × List (Out T) :=
  ((s.broadcast (fun _ _ => true) msg).1,
    (s.broadcast (fun _ _ => true) msg).2 ++
      [.connIds (s.subscribes.entries.map fun e => Subscriber.id e.2)])

def sendWithout (s : ServiceInner T) (msg : Message) (sub : Int32) :
    ServiceInner T × List (Out T) :=
  s.broadcast (fun _ t => sub != Subscriber.id t) msg

def sendToOthers (s : ServiceInner T) (msg : Message) (id : Int32) :
    ServiceInner T × List (Out T) :=
  s.broadcast (fun sid _ => sid != id) msg

/-- `send_to`, which hands the message to the entry under `id`. -/
def sendToOne (s : ServiceInner T) (msg : Message) (id : Int32) : ServiceInner T × List (Out T) :=
  s.broadcast (fun sid _ => sid == id) msg

def sendNewSubscribes (s : ServiceInner T) (msg : Message) : ServiceInner T × List (Out T) :=
  ({ s with newSubscribes := (sendTo (fun _ _ => true) msg s.newSubscribes).1 },
    (sendTo (fun _ _ => true) msg s.newSubscribes).2)

/-- `snapshot`, up to its callback. -/
def snapshot (s : ServiceInner T) : List (Out T) :=
  if s.newSubscribes.entries.length > 0 then [.callback] else []

end ServiceInner

/-- A call on a service, or on a `ServiceSwap` of it (`swapSend`, `swapDrop`). -/
inductive Event
  | onSubscribe (sub : ConnInner)
  | onUnsubscribe (id : Int32)
  | snapshot
  | swapSend (msg : Message)
  | swapDrop
  | sendShared (msg : Message)
  | sendVideoFrame (msg : Message)
  | sendWithout (msg : Message) (sub : Int32)
  | sendToOthers (msg : Message) (id : Int32)
  | sendTo (msg : Message) (id : Int32)
  deriving DecidableEq

def Event.isBroadcast : Event → Bool
  | sendShared _ | sendVideoFrame _ | sendWithout _ _ | sendToOthers _ _ | sendTo _ _ => true
  | _ => false

def service (T : Type) [Subscriber T] : Machine (ServiceInner T) Event (Out T) where
  step s
    | .onSubscribe sub => (s.onSubscribe sub, [])
    | .onUnsubscribe id => (s.onUnsubscribe id, [])
    | .snapshot => (s, s.snapshot)
    | .swapSend msg => s.sendNewSubscribes msg
    | .swapDrop => (s.swapNewSubscribes, [])
    | .sendShared msg => s.sendShared msg
    | .sendVideoFrame msg => s.sendVideoFrame msg
    | .sendWithout msg sub => s.sendWithout msg sub
    | .sendToOthers msg id => s.sendToOthers msg id
    | .sendTo msg id => s.sendToOne msg id

/-! ### The three laws -/

/-- What an event says about the subscription of `id`. -/
def Event.call (id : Int32) : Event → Option Bool
  | onSubscribe sub => if sub.id = id then some true else none
  | onUnsubscribe j => if j = id then some false else none
  | _ => none

/-- The last `on_subscribe` or `on_unsubscribe` for `id`, as whether it was the first. -/
def lastCall (id : Int32) (past : List Event) : Option Bool :=
  (past.filterMap (Event.call id)).getLast?

/-- `t` is what `conn` became as a subscriber, after messages it was handed. -/
def Became (conn : ConnInner) (t : T) : Prop :=
  ∃ msgs : List Message, t = msgs.foldl (fun s msg => (send s msg).1) (ofConn conn)

/-- `t` goes back to an `on_subscribe` that no `on_unsubscribe` of its id follows. With `swapped`,
a `ServiceSwap` has been dropped since. -/
def Since (swapped : Bool) (past : List Event) (t : T) : Prop :=
  ∃ before conn after, past = before ++ .onSubscribe conn :: after ∧
    conn.id = Subscriber.id t ∧ Became conn t ∧ .onUnsubscribe conn.id ∉ after ∧
    (swapped = true → .swapDrop ∈ after)

def after (needSnapshot : Bool) (es : List Event) : ServiceInner T :=
  (service T).run (ServiceInner.new needSnapshot) es

/-- The laws of the service after `es`. -/
structure Sound (T : Type) [Subscriber T] (needSnapshot : Bool) (es : List Event) : Prop where
  /-- No id is in both maps. -/
  disjoint : ∀ id, ¬ (id ∈ (after (T := T) needSnapshot es).subscribes ∧
    id ∈ (after (T := T) needSnapshot es).newSubscribes)
  /-- Each subscriber is under its own id. -/
  own_id : ∀ id t, (after (T := T) needSnapshot es).subscribes.lookup id = some t ∨
    (after needSnapshot es).newSubscribes.lookup id = some t → Subscriber.id t = id
  /-- An id is subscribed exactly when the last call for it was a subscription. -/
  subed_iff : ∀ id, (after (T := T) needSnapshot es).isSubed id = true ↔
    lastCall id es = some true
  /-- A service with snapshots hands no broadcast to a subscriber before a swap that comes after
  its subscription. -/
  after_swap : needSnapshot = true → ∀ pre e post, es = pre ++ e :: post →
    e.isBroadcast = true → ∀ (t : T) (put : List (Sender × Message)),
      .sent t put ∈ (service T).out (after needSnapshot pre) e → Since true pre t

/-! ### The history of a subscriber -/

theorem lastCall_append (id : Int32) (past : List Event) (e : Event) :
    lastCall id (past ++ [e]) = (e.call id).or (lastCall id past) := by
  unfold lastCall
  rw [List.filterMap_append, List.getLast?_append]
  cases h : e.call id with
  | none => rw [List.filterMap_cons_none h, List.filterMap_nil, List.getLast?_nil]
  | some b => rw [List.filterMap_cons_some h, List.filterMap_nil, List.getLast?_singleton]

theorem Became.send {conn : ConnInner} {t : T} (h : Became conn t) (msg : Message) :
    Became conn (send t msg).1 := by
  obtain ⟨msgs, rfl⟩ := h
  exact ⟨msgs ++ [msg], by rw [List.foldl_append, List.foldl_cons, List.foldl_nil]⟩

theorem Since.append {b b' : Bool} {past : List Event} {t : T} (h : Since b past t) {e : Event}
    (he : e ≠ .onUnsubscribe (Subscriber.id t)) (hb : b' = true → b = true ∨ e = .swapDrop) :
    Since b' (past ++ [e]) t := by
  obtain ⟨before, conn, later, rfl, hid, hbecame, hnot, hswap⟩ := h
  refine ⟨before, conn, later ++ [e], ?_, hid, hbecame, ?_, fun hb' => ?_⟩
  · rw [List.append_assoc, List.cons_append]
  · rw [List.mem_append, List.mem_singleton]
    rintro (h | h)
    · exact hnot h
    · exact he (by rw [← h, hid])
  · rcases hb hb' with hold | rfl
    · exact List.mem_append_left _ (hswap hold)
    · exact List.mem_append_right _ List.mem_cons_self

theorem Since.send {b : Bool} {past : List Event} {t : T} (h : Since b past t) (msg : Message) :
    Since b past (send t msg).1 := by
  obtain ⟨before, conn, later, rfl, hid, hbecame, hnot, hswap⟩ := h
  refine ⟨before, conn, later, rfl, ?_, hbecame.send msg, hnot, hswap⟩
  rw [Subscriber.id_send]
  exact hid

theorem since_onSubscribe {b : Bool} (past : List Event) (conn : ConnInner) (hb : b = false) :
    Since b (past ++ [.onSubscribe conn]) (ofConn conn : T) := by
  refine ⟨past, conn, [], rfl, (Subscriber.id_ofConn conn).symm, ⟨[], rfl⟩, List.not_mem_nil, ?_⟩
  intro h
  exact absurd h (by rw [hb]; exact Bool.false_ne_true)

/-! ### What an operation does to the maps -/

/-- `t'` is `t`, or `t` after a message. -/
def Handed (t t' : T) : Prop := t' = t ∨ ∃ msg, t' = (send t msg).1

/-- Under each id the maps have the same subscriber, up to messages. -/
def Updated (m m' : KeyedMap Int32 T) : Prop :=
  ∀ id, Option.Rel Handed (m.lookup id) (m'.lookup id)

theorem Updated.refl (m : KeyedMap Int32 T) : Updated m m := by
  intro id
  cases m.lookup id with
  | none => exact Option.Rel.none
  | some t => exact Option.Rel.some (Or.inl rfl)

namespace ServiceInner

theorem updated_sendTo (p : Int32 → T → Bool) (msg : Message) (m : KeyedMap Int32 T) :
    Updated m (sendTo p msg m).1 := by
  intro id
  unfold sendTo
  rw [KeyedMap.lookup_mapValues]
  cases m.lookup id with
  | none => exact Option.Rel.none
  | some t =>
    refine Option.Rel.some ?_
    dsimp only
    split
    · exact Or.inr ⟨msg, rfl⟩
    · exact Or.inl rfl

variable {put : List (Sender × Message)}

theorem mem_sendTo {p : Int32 → T → Bool} {msg : Message} {m : KeyedMap Int32 T} {t : T}
    (h : .sent t put ∈ (sendTo p msg m).2) : ∃ id, m.lookup id = some t := by
  obtain ⟨e, he, heq⟩ := List.mem_map.mp h
  obtain ⟨hmem, -⟩ := List.mem_filter.mp he
  obtain ⟨ht, -⟩ := Out.sent.inj heq
  rw [← ht]
  exact ⟨e.1, KeyedMap.lookup_eq_some_iff.mpr hmem⟩

theorem mem_broadcast (s : ServiceInner T) (p : Int32 → T → Bool) (msg : Message) {t : T}
    (h : .sent t put ∈ (s.broadcast p msg).2) : ∃ id, s.subscribes.lookup id = some t :=
  mem_sendTo (p := p) h

theorem mem_out {s : ServiceInner T} {e : Event} (he : e.isBroadcast = true) {t : T}
    (h : .sent t put ∈ (service T).out s e) : ∃ id, s.subscribes.lookup id = some t := by
  cases e with
  | sendVideoFrame msg =>
    -- the ids that are returned are no delivery
    rcases List.mem_append.mp h with h | h
    · exact s.mem_broadcast _ msg h
    · exact absurd (List.mem_singleton.mp h) (by rintro ⟨⟩)
  | sendShared msg => exact s.mem_broadcast (fun _ _ => true) msg h
  | sendWithout msg _ | sendToOthers msg _ | sendTo msg _ => exact s.mem_broadcast _ msg h
  | onSubscribe _ | onUnsubscribe _ | snapshot | swapSend _ | swapDrop => cases he

theorem updated_next (s : ServiceInner T) {e : Event} (hsub : ∀ sub, e ≠ .onSubscribe sub)
    (hunsub : ∀ id, e ≠ .onUnsubscribe id) (hswap : e ≠ .swapDrop) :
    Updated s.subscribes ((service T).next s e).subscribes ∧
      Updated s.newSubscribes ((service T).next s e).newSubscribes := by
  cases e with
  | onSubscribe sub => exact absurd rfl (hsub sub)
  | onUnsubscribe id => exact absurd rfl (hunsub id)
  | swapDrop => exact absurd rfl hswap
  | snapshot => exact ⟨Updated.refl _, Updated.refl _⟩
  | swapSend msg => exact ⟨Updated.refl _, updated_sendTo _ msg _⟩
  | sendShared msg | sendVideoFrame msg | sendWithout msg _ | sendToOthers msg _
  | sendTo msg _ => exact ⟨updated_sendTo _ msg _, Updated.refl _⟩

@[simp] theorem needSnapshot_next (s : ServiceInner T) (e : Event) :
    ((service T).next s e).needSnapshot = s.needSnapshot := by
  cases e with
  | onSubscribe sub =>
    change (s.onSubscribe sub).needSnapshot = _
    unfold onSubscribe
    split
    · rfl
    · split <;> rfl
  | onUnsubscribe id =>
    change (s.onUnsubscribe id).needSnapshot = _
    unfold onUnsubscribe
    split <;> rfl
  | snapshot | swapSend _ | swapDrop | sendShared _ | sendVideoFrame _ | sendWithout _ _
  | sendToOthers _ _ | sendTo _ _ => rfl

end ServiceInner

/-! ### A state and its past -/

/-- What is known of the service after `past`. -/
structure Known (needSnapshot : Bool) (past : List Event) (s : ServiceInner T) : Prop where
  need : s.needSnapshot = needSnapshot
  disjoint : ∀ id, s.subscribes.lookup id ≠ none → s.newSubscribes.lookup id = none
  direct : needSnapshot = false → ∀ id, s.newSubscribes.lookup id = none
  active : ∀ id t, s.subscribes.lookup id = some t →
    Subscriber.id t = id ∧ Since needSnapshot past t
  waiting : ∀ id t, s.newSubscribes.lookup id = some t →
    Subscriber.id t = id ∧ Since false past t
  subed : ∀ id, s.isSubed id = true ↔ lastCall id past = some true

namespace Known

variable {n : Bool} {past : List Event} {s : ServiceInner T}

omit [Subscriber T] in
theorem isSubed_iff (s : ServiceInner T) (id : Int32) :
    s.isSubed id = true ↔ s.subscribes.lookup id ≠ none ∨ s.newSubscribes.lookup id ≠ none := by
  unfold ServiceInner.isSubed
  rw [Bool.or_eq_true, Option.isSome_iff_ne_none, Option.isSome_iff_ne_none]

protected theorem new (n : Bool) : Known n [] (ServiceInner.new n : ServiceInner T) where
  need := rfl
  disjoint := fun _ _ => rfl
  direct := fun _ _ => rfl
  active := fun _ _ h => absurd h (by simp [ServiceInner.new])
  waiting := fun _ _ h => absurd h (by simp [ServiceInner.new])
  subed := fun id => by simp [ServiceInner.new, ServiceInner.isSubed, lastCall]

theorem of_updated {m m' : KeyedMap Int32 T} (h : Updated m m') {b : Bool} {e : Event}
    (hunsub : ∀ id, e ≠ .onUnsubscribe id)
    (hm : ∀ id t, m.lookup id = some t → Subscriber.id t = id ∧ Since b past t) :
    (∀ id, m'.lookup id ≠ none ↔ m.lookup id ≠ none) ∧
      ∀ id t, m'.lookup id = some t → Subscriber.id t = id ∧ Since b (past ++ [e]) t := by
  constructor
  · intro id
    have hrel := h id
    generalize m.lookup id = o, m'.lookup id = o' at hrel
    cases hrel with
    | none => exact Iff.rfl
    | some => simp
  · intro id t' ht'
    have hrel := h id
    rw [ht'] at hrel
    generalize ho : m.lookup id = o at hrel
    cases hrel with
    | some hhanded =>
      obtain ⟨hid, hsince⟩ := hm id _ ho
      rcases hhanded with rfl | ⟨msg, rfl⟩
      · exact ⟨hid, hsince.append (hunsub _) Or.inl⟩
      · rw [Subscriber.id_send]
        exact ⟨hid, (hsince.send msg).append (hunsub _) Or.inl⟩

theorem updated (h : Known n past s) {e : Event} (hsub : ∀ sub, e ≠ .onSubscribe sub)
    (hunsub : ∀ id, e ≠ .onUnsubscribe id) (hswap : e ≠ .swapDrop) :
    Known n (past ++ [e]) ((service T).next s e) := by
  obtain ⟨hactive, hwaiting⟩ := s.updated_next hsub hunsub hswap
  obtain ⟨hin, hactive⟩ := of_updated hactive hunsub h.active
  obtain ⟨hinNew, hwaiting⟩ := of_updated hwaiting hunsub h.waiting
  refine ⟨(s.needSnapshot_next e).trans h.need, fun id hid => ?_, fun hn id => ?_, hactive,
    hwaiting, fun id => ?_⟩
  · have hnone := h.disjoint id ((hin id).mp hid)
    by_contra hne
    exact (hinNew id).mp hne hnone
  · by_contra hne
    exact (hinNew id).mp hne (h.direct hn id)
  · have hcall : e.call id = none := by
      cases e with
      | onSubscribe sub => exact absurd rfl (hsub sub)
      | onUnsubscribe j => exact absurd rfl (hunsub j)
      | _ => rfl
    rw [isSubed_iff, hin, hinNew, ← isSubed_iff, h.subed, lastCall_append, hcall, Option.none_or]

theorem swap (h : Known n past s) : Known n (past ++ [.swapDrop]) s.swapNewSubscribes := by
  have hkeys : ∀ e ∈ s.newSubscribes.entries, Subscriber.id e.2 = e.1 := fun e he =>
    (h.waiting e.1 e.2 (KeyedMap.lookup_eq_some_iff.mpr he)).1
  have hlookup (id : Int32) : s.swapNewSubscribes.subscribes.lookup id =
      (s.newSubscribes.lookup id).or (s.subscribes.lookup id) :=
    KeyedMap.lookup_insertAll s.newSubscribes.nodupKeys hkeys s.subscribes id
  refine ⟨h.need, fun _ _ => rfl, fun _ _ => rfl, fun id t ht => ?_, fun _ _ ht => absurd ht ?_,
    fun id => ?_⟩
  · rw [hlookup, Option.or_eq_some_iff] at ht
    rcases ht with ht | ⟨-, ht⟩
    · obtain ⟨hid, hsince⟩ := h.waiting id t ht
      exact ⟨hid, hsince.append Event.noConfusion fun _ => Or.inr rfl⟩
    · obtain ⟨hid, hsince⟩ := h.active id t ht
      exact ⟨hid, hsince.append Event.noConfusion Or.inl⟩
  · simp [ServiceInner.swapNewSubscribes]
  · have hcall : Event.call id .swapDrop = none := rfl
    rw [lastCall_append, hcall, Option.none_or, ← h.subed, isSubed_iff, isSubed_iff, hlookup]
    cases s.newSubscribes.lookup id <;> simp [ServiceInner.swapNewSubscribes]

theorem of_insert {m : KeyedMap Int32 T} {b : Bool} (hb : b = false) (sub : ConnInner)
    (hm : ∀ id t, m.lookup id = some t → Subscriber.id t = id ∧ Since b past t) (id : Int32)
    (t : T) (ht : (m.insert sub.id (ofConn sub)).lookup id = some t) :
    Subscriber.id t = id ∧ Since b (past ++ [.onSubscribe sub]) t := by
  by_cases hid : id = sub.id
  · subst hid
    rw [AList.lookup_insert] at ht
    obtain rfl := Option.some.inj ht
    exact ⟨Subscriber.id_ofConn sub, since_onSubscribe past sub hb⟩
  · rw [AList.lookup_insert_ne hid] at ht
    obtain ⟨hown, hsince⟩ := hm id t ht
    exact ⟨hown, hsince.append Event.noConfusion Or.inl⟩

theorem onSubscribe (h : Known n past s) (sub : ConnInner) :
    Known n (past ++ [.onSubscribe sub]) (s.onSubscribe sub) := by
  have hactive := (of_updated (e := .onSubscribe sub) (Updated.refl s.subscribes)
    (fun _ => Event.noConfusion) h.active).2
  have hwaiting := (of_updated (e := .onSubscribe sub) (Updated.refl s.newSubscribes)
    (fun _ => Event.noConfusion) h.waiting).2
  -- the id that subscribes is subscribed, the others are as they were
  have hsubed {s' : ServiceInner T} (hs' : ∀ id, s'.isSubed id = true ↔
      sub.id = id ∨ s.isSubed id = true) (id : Int32) :
      s'.isSubed id = true ↔ lastCall id (past ++ [.onSubscribe sub]) = some true := by
    rw [hs', h.subed, lastCall_append, Event.call]
    split <;> simp [*]
  unfold ServiceInner.onSubscribe
  split
  · next hsome =>
    -- an active subscriber stays the one it is
    refine ⟨h.need, h.disjoint, h.direct, hactive, hwaiting, hsubed fun id => ⟨Or.inr, ?_⟩⟩
    rintro (rfl | hid)
    · rw [ServiceInner.isSubed, hsome, Bool.true_or]
    · exact hid
  · next hnone =>
    rw [Bool.not_eq_true, Option.isSome_eq_false_iff, Option.isNone_iff_eq_none] at hnone
    split
    · next hneed =>
      rw [h.need] at hneed
      refine ⟨h.need, fun id hid => ?_, fun hn => absurd hneed (by rw [hn]; exact
        Bool.false_ne_true), hactive, of_insert rfl sub h.waiting, hsubed fun id => ?_⟩
      · have hne : id ≠ sub.id := by
          rintro rfl
          exact hid hnone
        rw [AList.lookup_insert_ne hne]
        exact h.disjoint id hid
      · rw [isSubed_iff, isSubed_iff, KeyedMap.lookup_insert_ne_none]
        exact or_left_comm
    · next hneed =>
      rw [Bool.not_eq_true, h.need] at hneed
      refine ⟨h.need, fun id _ => h.direct hneed id, h.direct, of_insert hneed sub h.active,
        hwaiting, hsubed fun id => ?_⟩
      rw [isSubed_iff, isSubed_iff, KeyedMap.lookup_insert_ne_none]
      exact or_assoc

theorem of_ne {m m' : KeyedMap Int32 T} {b : Bool} {j : Int32}
    (hm' : ∀ id t, m'.lookup id = some t → id ≠ j ∧ m.lookup id = some t)
    (hm : ∀ id t, m.lookup id = some t → Subscriber.id t = id ∧ Since b past t) (id : Int32)
    (t : T) (ht : m'.lookup id = some t) :
    Subscriber.id t = id ∧ Since b (past ++ [.onUnsubscribe j]) t := by
  obtain ⟨hne, ht⟩ := hm' id t ht
  obtain ⟨hown, hsince⟩ := hm id t ht
  refine ⟨hown, hsince.append ?_ Or.inl⟩
  rw [hown]
  exact fun h => hne (Event.onUnsubscribe.inj h).symm

theorem onUnsubscribe (h : Known n past s) (j : Int32) :
    Known n (past ++ [.onUnsubscribe j]) (s.onUnsubscribe j) := by
  have hsubed {s' : ServiceInner T} (hs' : ∀ id, s'.isSubed id = true ↔
      j ≠ id ∧ s.isSubed id = true) (id : Int32) :
      s'.isSubed id = true ↔ lastCall id (past ++ [.onUnsubscribe j]) = some true := by
    rw [hs', h.subed, lastCall_append, Event.call]
    split <;> simp [*]
  have herase {m : KeyedMap Int32 T} (id : Int32) (t : T) (ht : (m.erase j).lookup id = some t) :
      id ≠ j ∧ m.lookup id = some t := KeyedMap.lookup_erase_eq_some.mp ht
  unfold ServiceInner.onUnsubscribe
  split
  · next hsome =>
    -- an active id does not wait, so that one removal is enough
    have hnone := h.disjoint j (Option.isSome_iff_ne_none.mp hsome)
    refine ⟨h.need, fun id hid => ?_, h.direct, of_ne herase h.active, of_ne (fun id t ht => ?_)
      h.waiting, hsubed fun id => ?_⟩
    · exact h.disjoint id (KeyedMap.lookup_erase_ne_none.mp hid).2
    · refine ⟨?_, ht⟩
      rintro rfl
      exact absurd (hnone.symm.trans ht) (Option.some_ne_none t).symm
    · rw [isSubed_iff, isSubed_iff, KeyedMap.lookup_erase_ne_none]
      by_cases hid : id = j
      · subst hid
        simp [hnone]
      · simp [hid, Ne.symm hid]
  · next hnone =>
    rw [Bool.not_eq_true, Option.isSome_eq_false_iff, Option.isNone_iff_eq_none] at hnone
    have hnew (id : Int32) (hid : s.newSubscribes.lookup id = none) :
        (s.newSubscribes.erase j).lookup id = none := by
      by_contra hne
      exact (KeyedMap.lookup_erase_ne_none.mp hne).2 hid
    refine ⟨h.need, fun id hid => hnew id (h.disjoint id hid),
      fun hn id => hnew id (h.direct hn id), of_ne (fun id t ht => ?_) h.active,
      of_ne herase h.waiting, hsubed fun id => ?_⟩
    · refine ⟨?_, ht⟩
      rintro rfl
      exact absurd (hnone.symm.trans ht) (Option.some_ne_none t).symm
    · rw [isSubed_iff, isSubed_iff, KeyedMap.lookup_erase_ne_none]
      by_cases hid : id = j
      · subst hid
        simp [hnone]
      · simp [hid, Ne.symm hid]

theorem next (h : Known n past s) (e : Event) : Known n (past ++ [e]) ((service T).next s e) := by
  cases e with
  | onSubscribe sub => exact h.onSubscribe sub
  | onUnsubscribe j => exact h.onUnsubscribe j
  | swapDrop => exact h.swap
  | snapshot | swapSend _ | sendShared _ | sendVideoFrame _ | sendWithout _ _ | sendToOthers _ _
  | sendTo _ _ =>
    exact h.updated (fun _ => Event.noConfusion) (fun _ => Event.noConfusion) Event.noConfusion

theorem after (n : Bool) (es : List Event) : Known n es (ServiceTmpl.after n es : ServiceInner T) :=
  (service T).inv_history (Known.new n) (fun _ _ e h => h.next e) es

end Known

/-- **A service and its subscribers.** After every sequence of calls no id is in both maps, each
subscriber is under its own id, an id is subscribed exactly when the last call for it was a
subscription, and on a service with snapshots no broadcast came to a subscriber before a swap. -/
theorem service_sound (T : Type) [Subscriber T] (needSnapshot : Bool) (es : List Event) :
    Sound T needSnapshot es := by
  have hknown := Known.after (T := T) needSnapshot es
  refine ⟨fun id => ?_, fun id t ht => ?_, hknown.subed, fun hn pre e post _ he t put hput => ?_⟩
  · rintro ⟨hactive, hwaiting⟩
    rw [← AList.lookup_isSome, Option.isSome_iff_ne_none] at hactive hwaiting
    exact hwaiting (hknown.disjoint id hactive)
  · rcases ht with ht | ht
    · exact (hknown.active id t ht).1
    · exact (hknown.waiting id t ht).1
  · -- what the broadcast reaches is active after the calls before it
    obtain ⟨id, hid⟩ := ServiceInner.mem_out he hput
    have hsince := ((Known.after needSnapshot pre).active id t hid).2
    rw [hn] at hsince
    exact hsince

end LibRustdesk.ServiceTmpl
