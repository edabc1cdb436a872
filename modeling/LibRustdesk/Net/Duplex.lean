import LibRustdesk.Net.Switching

/-!
# Messages over a connection

The two ends of a TCP connection, each with a `FramedStream` (`libs/hbb_common/src/tcp.rs`), from
`send_raw` at one end to `next` at the other: the key and the counters of either direction, the
frames of the codec, and the bytes between them.

* `Carries` — what is asked of an end: `next` has returned messages of the other one, in order, with
  none left out and no error; and reading what is there and calling it often enough gives all.
* `carries` — **every run carries**, in both directions at once, whichever way the bytes are cut and
  the two ends take turns. The counters may wrap: they do so together.

The connection is reliable and ordered, and both ends have the same key or none. A message is short
enough for a frame: the counter of a sender has moved before the codec refuses a longer one.
-/

namespace LibRustdesk

open BytesCodec

@[simp] theorem Endpoint.other_other (side : Endpoint) : side.other.other = side := by
  cases side <;> rfl

theorem Endpoint.other_ne (side : Endpoint) : side.other ≠ side := by
  cases side <;> exact Endpoint.noConfusion

theorem Endpoint.eq_or_other (side dest : Endpoint) : dest = side ∨ dest = side.other := by
  cases side <;> cases dest <;> decide

structure Duplex (Key : Type) where
  stream : Endpoint → TcpStream Key
  /-- What an end can still read. -/
  wire : Endpoint → Bytes
  sent : Endpoint → List Bytes
  /-- What `next` has returned. -/
  returned : Endpoint → List (Except String Bytes)

namespace Duplex

variable {Key : Type}

inductive Event
  | sendRaw (side : Endpoint) (msg : { m : Bytes // m.length + macBytes ≤ maxPayloadLength })
  | read (side : Endpoint) (n : ℕ)
  | next (side : Endpoint)

def start (keyed : Endpoint → FramedStream Key) : Duplex Key where
  stream side := .new (keyed side)
  wire _ := []
  sent _ := []
  returned _ := []

def machine (box : SecretBox Key) : Machine (Duplex Key) Event Empty where
  step s
    | .sendRaw side msg =>
      let (stream, bytes) := (s.stream side).sendRaw box msg
      ({ s with
          stream := Function.update s.stream side stream
          wire := Function.update s.wire side.other (s.wire side.other ++ bytes)
          sent := Function.update s.sent side (s.sent side ++ [msg.1]) }, [])
    | .read side n =>
      ({ s with
          stream := Function.update s.stream side ((s.stream side).receive ((s.wire side).take n))
          wire := Function.update s.wire side ((s.wire side).drop n) }, [])
    | .next side =>
      let (stream, res) := (s.stream side).next box
      ({ s with
          stream := Function.update s.stream side stream
          returned := Function.update s.returned side (s.returned side ++ res.toList) }, [])

/-- What `next` returns at an end is what the other one has sent. -/
structure Carries (box : SecretBox Key) (s : Duplex Key) (side : Endpoint) : Prop where
  inOrder : s.returned side <+: (s.sent side.other).map .ok
  whole : ∃ n, ((machine box).run s (.read side (s.wire side).length ::
    List.replicate n (.next side))).returned side = (s.sent side.other).map .ok

/-! ### One direction -/

/-- The messages on their way to an end are those sent and not returned. -/
structure Owed (box : SecretBox Key) (s : Duplex Key) (side : Endpoint) (ms : List Bytes) :
    Prop where
  frames : FramesAhead box (s.stream side.other).keyed (s.stream side) (s.wire side) ms []
  sent : (s.sent side.other).map .ok = s.returned side ++ ms.map .ok

/-- A decoder that has all there is waits for nothing. -/
theorem owed_nil {box : SecretBox Key} {last : FramedStream Key} {receiver : TcpStream Key}
    {ms : List Bytes} (h : FramesAhead box last receiver [] ms [])
    (hnone : (receiver.next box).2 = none) : ms = [] := by
  obtain ⟨ps, hopens, hfits, hahead⟩ := h.ahead
  have hpending : Pending receiver.codec receiver.buffer [] ps := by
    refine ⟨h.framed, fun p hp => ⟨hfits p hp, Nat.le_trans (hfits p hp) h.limit⟩, ?_⟩
    unfold Ahead at hahead
    cases hstate : receiver.codec.state with
    | Head =>
      rw [hstate] at hahead
      exact hahead.trans (List.append_nil _)
    | Data n =>
      rw [hstate] at hahead
      obtain ⟨p, qs, hps, hn, heq⟩ := hahead
      rw [List.append_nil (BytesCodec.stream qs)] at heq
      exact ⟨p, qs, hps, hn, heq⟩
  unfold TcpStream.next at hnone
  rcases decode_pending hpending with ⟨c', buf', -, -, -, hempty⟩ |
    ⟨p, qs, c', buf', -, hdecode, -, -⟩
  · obtain ⟨rfl, -, -⟩ := hempty rfl
    cases hopens with
    | nil _ => rfl
  · rw [hdecode] at hnone
    cases hnone

section Direction

variable {box : SecretBox Key} {s : Duplex Key} {side : Endpoint} {ms : List Bytes}

theorem Owed.read (h : s.Owed box side ms) (n : ℕ) :
    ((machine box).next s (.read side n)).Owed box side ms := by
  refine ⟨?_, h.sent⟩
  dsimp only [Machine.next, machine]
  rw [Function.update_self, Function.update_self, Function.update_of_ne side.other_ne]
  exact h.frames.receive n

/-- A call of `next` returns the first message, unless it has to wait for bytes. -/
theorem Owed.next (h : s.Owed box side ms) : ∃ ms',
    ((machine box).next s (.next side)).Owed box side ms' ∧ (s.wire side = [] → ms' = ms.tail) := by
  have howed {ms' : List Bytes}
      (hframes : FramesAhead box (s.stream side.other).keyed ((s.stream side).next box).1
        (s.wire side) ms' [])
      (hms : ms.map .ok = ((s.stream side).next box).2.toList ++ ms'.map .ok) :
      ((machine box).next s (.next side)).Owed box side ms' := by
    refine ⟨?_, ?_⟩ <;> dsimp only [Machine.next, machine]
    · rw [Function.update_self, Function.update_of_ne side.other_ne]
      exact hframes
    · rw [Function.update_self, h.sent, hms, List.append_assoc]
  have hframes := h.frames
  cases ms with
  | nil =>
    obtain ⟨hnone, hnext⟩ := hframes.next_nil
    exact ⟨[], howed hnext (by rw [hnone]; rfl), fun _ => rfl⟩
  | cons m ms =>
    rcases hframes.next with ⟨hnone, hnext⟩ | ⟨hsome, hnext⟩
    · refine ⟨m :: ms, howed hnext (by rw [hnone]; rfl), fun hwire => ?_⟩
      rw [hwire] at hframes
      cases owed_nil hframes hnone
    · exact ⟨ms, howed hnext (by rw [hsome]; rfl), fun _ => rfl⟩

/-- On the messages owed: with nothing left to read, each call returns the first of them. -/
theorem Owed.drain (h : s.Owed box side ms) (hwire : s.wire side = []) :
    ((machine box).run s (List.replicate ms.length (.next side))).returned side =
      (s.sent side.other).map .ok := by
  induction ms generalizing s with
  | nil => exact (h.sent.trans (List.append_nil _)).symm
  | cons m ms ih =>
    obtain ⟨ms', hnext, htail⟩ := h.next
    obtain rfl := htail hwire
    exact ih hnext hwire

theorem Owed.carried (h : s.Owed box side ms) : Carries box s side := by
  refine ⟨⟨ms.map .ok, h.sent.symm⟩, ms.length, ?_⟩
  refine (h.read (s.wire side).length).drain ?_
  dsimp only [Machine.next, machine]
  rw [Function.update_self, List.drop_length]

end Direction

/-! ### Runs -/

section Runs

variable {box : SecretBox Key} (hbox : box.Lawful)

include hbox

/-- **One step.** What an end does moves the direction to it and the one from it. -/
theorem owed_next {s : Duplex Key} (h : ∀ dest, ∃ ms, s.Owed box dest ms) (e : Event)
    (dest : Endpoint) : ∃ ms, ((machine box).next s e).Owed box dest ms := by
  obtain ⟨ms, howed⟩ := h dest
  have hframes := howed.frames
  have hsent := howed.sent
  cases e with
  | sendRaw side msg =>
    rcases side.eq_or_other dest with rfl | rfl
    · refine ⟨ms, ?_, ?_⟩ <;> dsimp only [Machine.next, machine]
      · rw [Function.update_self, Function.update_of_ne dest.other_ne,
          Function.update_of_ne dest.other_ne.symm]
        exact hframes.sendRaw msg.1
      · rw [Function.update_of_ne dest.other_ne]
        exact hsent
    · obtain ⟨_, hside⟩ := h side
      rw [side.other_other] at hframes hsent
      refine ⟨ms ++ [msg.1], ?_, ?_⟩ <;> dsimp only [Machine.next, machine] <;>
        rw [side.other_other, Function.update_self]
      · rw [Function.update_of_ne side.other_ne, Function.update_self]
        exact hframes.send hbox hside.frames.framed msg.2
      · rw [List.map_append, hsent, List.map_append, List.append_assoc]
  | read side n =>
    rcases side.eq_or_other dest with rfl | rfl
    · exact ⟨ms, howed.read n⟩
    · refine ⟨ms, ?_, hsent⟩
      rw [side.other_other] at hframes ⊢
      dsimp only [Machine.next, machine]
      rw [Function.update_self, Function.update_of_ne side.other_ne,
        Function.update_of_ne side.other_ne]
      exact hframes
  | next side =>
    rcases side.eq_or_other dest with rfl | rfl
    · obtain ⟨ms', hnext, -⟩ := howed.next
      exact ⟨ms', hnext⟩
    · refine ⟨ms, ?_, ?_⟩ <;> dsimp only [Machine.next, machine]
      · rw [side.other_other] at hframes ⊢
        rw [Function.update_self, Function.update_of_ne side.other_ne]
        exact hframes.congr (TcpStream.sealing_next box _)
      · rw [Function.update_of_ne side.other_ne]
        exact hsent

/-- **Every run carries** the messages, each way. -/
theorem carries (keyed : Endpoint → FramedStream Key)
    (hagree : ∀ side, (keyed side.other).Agree (keyed side)) (es : List Event) (side : Endpoint) :
    Carries box ((machine box).run (start keyed) es) side := by
  have hstart (dest : Endpoint) : ∃ ms, (start keyed).Owed box dest ms :=
    ⟨[], .new box (hagree dest), rfl⟩
  have hrun := (machine box).inv_run (I := fun s => ∀ dest, ∃ ms, s.Owed box dest ms) hstart
    (fun _ e h => owed_next hbox h e) es
  obtain ⟨ms, howed⟩ := hrun side
  exact howed.carried

end Runs

/-- Two messages under one key, of which a part of the first frame has been read. -/
theorem carries_keyed : Carries Link.tagBox ((machine Link.tagBox).run
    (start fun _ => .setKey [7]) [.sendRaw .client ⟨[1, 2], by decide⟩,
      .sendRaw .client ⟨[], by decide⟩, .read .host 5, .next .host]) .host :=
  carries Link.tagBox_lawful (fun _ => .setKey [7]) (fun _ => rfl) _ _

end Duplex

end LibRustdesk
