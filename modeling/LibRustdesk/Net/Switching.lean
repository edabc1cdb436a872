import LibRustdesk.Net.BytesCodec
import LibRustdesk.Net.Encrypt

/-!
# A stream that is switched to raw bytes

`FramedStream` of `libs/hbb_common/src/tcp.rs` with its codec and its read buffer, and `set_raw`:
from then on bytes are sent and received without frames and without a key. Each end switches when
it sees fit, so one direction of a stream carries messages first and raw bytes after them.

What is on its way from one end to the other is stated on what the receiver has read but not yet
decoded, together with what is still on the wire:

* `FramesAhead` — the receiver decodes frames: there are messages, and raw bytes behind them.
* `RawAhead` — the receiver is raw: there are raw bytes only.
* `OnItsWay` — either, by whether the receiver has been switched.

`FramesAhead.next` is a call of `next`: it gives the first message or is still waiting for it. No
statement is made for a receiver that looks for a frame where the raw bytes begin. It must have
been switched before (`FramesAhead.setRaw`), and that is what its program has to see to.

Messages are of a length that a frame can have. The stream is reliable and ordered.
-/

namespace LibRustdesk

open LittleEndian BytesCodec

variable {Key : Type}

/-- A `FramedStream`: its key, its codec and what has been read. -/
structure TcpStream (Key : Type) where
  keyed : FramedStream Key
  codec : BytesCodec
  buffer : Bytes

namespace TcpStream

/-- `FramedStream::from`, and `set_key` if there is one. -/
def new (keyed : FramedStream Key) : TcpStream Key := ⟨keyed, .new, []⟩

def setRaw (s : TcpStream Key) : TcpStream Key :=
  { s with keyed := ⟨none⟩, codec := s.codec.setRaw }

/-- What `send_bytes` puts on the wire. -/
def sendBytes (s : TcpStream Key) (data : Bytes) : Bytes :=
  match s.codec.encode data [] with
  | .ok bytes => bytes
  | .error _ => []

/-- `send_raw`, and what it puts on the wire. -/
def sendRaw (box : SecretBox Key) (s : TcpStream Key) (msg : Bytes) : TcpStream Key × Bytes :=
  let (keyed, msg) := s.keyed.sendRaw box msg
  ({ s with keyed := keyed }, s.sendBytes msg)

def receive (s : TcpStream Key) (bytes : Bytes) : TcpStream Key :=
  { s with buffer := s.buffer ++ bytes }

/-- `next`, unless it has to wait for more. -/
def next (box : SecretBox Key) (s : TcpStream Key) : TcpStream Key × Option (Except String Bytes) :=
  match s.codec.decode s.buffer with
  | .error err => (s, some (.error err.text))
  | .ok (none, codec, buffer) => (⟨s.keyed, codec, buffer⟩, none)
  | .ok (some frame, codec, buffer) =>
    let (keyed, res) := s.keyed.next box frame
    (⟨keyed, codec, buffer⟩, some res)

end TcpStream

/-! ### Messages under a key -/

section Opens

variable (box : SecretBox Key)

/-- The key and the number that the next message is sealed with. -/
def FramedStream.sealing (fs : FramedStream Key) : Option (Key × UInt64) :=
  fs.encrypt.map fun e => (e.key, e.sendSeq)

def FramedStream.opening (fs : FramedStream Key) : Option (Key × UInt64) :=
  fs.encrypt.map fun e => (e.key, e.recvSeq)

def FramedStream.Agree (sender receiver : FramedStream Key) : Prop :=
  sender.sealing = receiver.opening

@[simp] theorem FramedStream.opening_sendRaw (sender : FramedStream Key) (m : Bytes) :
    (sender.sendRaw box m).1.opening = sender.opening := by
  obtain ⟨encrypt⟩ := sender
  cases encrypt <;> rfl

theorem FramedStream.next_congr {receiver receiver' : FramedStream Key}
    (h : receiver'.opening = receiver.opening) (p : Bytes) :
    (receiver'.next box p).2 = (receiver.next box p).2 ∧
      (receiver'.next box p).1.opening = (receiver.next box p).1.opening := by
  obtain ⟨encrypt⟩ := receiver
  obtain ⟨encrypt'⟩ := receiver'
  cases encrypt with
  | none =>
    cases encrypt' with
    | none => exact ⟨rfl, rfl⟩
    | some e' => cases h
  | some e =>
    cases encrypt' with
    | none => cases h
    | some e' =>
      obtain ⟨hkey, hseq⟩ := Prod.mk.inj (Option.some.inj h)
      unfold FramedStream.next Encrypt.dec FramedStream.opening
      dsimp only
      rw [hseq, hkey]
      split
      · exact ⟨rfl, by rw [Option.map_some, Option.map_some, hkey, hseq]⟩
      · split <;> exact ⟨rfl, by rw [Option.map_some, Option.map_some]⟩

@[simp] theorem FramedStream.sealing_next (receiver : FramedStream Key) (p : Bytes) :
    (receiver.next box p).1.sealing = receiver.sealing := by
  obtain ⟨encrypt⟩ := receiver
  cases encrypt with
  | none => rfl
  | some e =>
    unfold FramedStream.next Encrypt.dec
    dsimp only
    split
    · rfl
    · split <;> rfl

theorem TcpStream.sealing_next (s : TcpStream Key) :
    (s.next box).1.keyed.sealing = s.keyed.sealing := by
  unfold TcpStream.next
  split
  · rfl
  · rfl
  · next frame codec buffer _ => exact FramedStream.sealing_next box s.keyed frame

/-- The frames open to the messages, one after the other, up to where the sender is. -/
inductive Opens (sender : FramedStream Key) :
    FramedStream Key → List Bytes → List Bytes → Prop
  | nil {receiver : FramedStream Key} (h : sender.Agree receiver) : Opens sender receiver [] []
  | cons {receiver receiver' : FramedStream Key} {p m : Bytes} {ps ms : List Bytes}
      (h : receiver.next box p = (receiver', .ok m)) (rest : Opens sender receiver' ps ms) :
      Opens sender receiver (p :: ps) (m :: ms)

variable {box}

theorem Opens.congr {sender sender' receiver : FramedStream Key} {ps ms : List Bytes}
    (h : Opens box sender receiver ps ms) (hsealing : sender'.sealing = sender.sealing) :
    Opens box sender' receiver ps ms := by
  induction h with
  | nil hagree => exact .nil (hsealing.trans hagree)
  | cons hnext _ ih => exact .cons hnext ih

theorem Opens.congr_receiver {sender receiver receiver' : FramedStream Key} {ps ms : List Bytes}
    (h : Opens box sender receiver ps ms) (hopening : receiver'.opening = receiver.opening) :
    Opens box sender receiver' ps ms := by
  induction h generalizing receiver' with
  | nil hagree => exact .nil (hagree.trans hopening.symm)
  | @cons receiver1 receiver2 p m ps ms hnext _ ih =>
    obtain ⟨hres, hrest⟩ := FramedStream.next_congr box hopening p
    rw [hnext] at hres hrest
    exact .cons (Prod.ext rfl hres) (ih hrest)

variable (hbox : box.Lawful)

include hbox

theorem FramedStream.Agree.next {sender receiver : FramedStream Key} (h : sender.Agree receiver)
    (m : Bytes) : ∃ receiver', receiver.next box (sender.sendRaw box m).2 = (receiver', .ok m) ∧
      (sender.sendRaw box m).1.Agree receiver' := by
  obtain ⟨encrypt⟩ := sender
  obtain ⟨encrypt'⟩ := receiver
  cases encrypt with
  | none =>
    cases encrypt' with
    | none => exact ⟨_, rfl, rfl⟩
    | some e' => cases h
  | some e =>
    cases encrypt' with
    | none => cases h
    | some e' =>
      obtain ⟨hkey, hseq⟩ := Prod.mk.inj (Option.some.inj h)
      have hlong : ¬ (box.sealBox m (FramedStream.getNonce (e.sendSeq + 1)) e.key).length ≤ 1 := by
        rw [hbox.length_seal]
        unfold macBytes
        omega
      refine ⟨⟨some { e' with recvSeq := e'.recvSeq + 1 }⟩, ?_, ?_⟩
      · unfold FramedStream.next FramedStream.sendRaw Encrypt.dec Encrypt.enc
        dsimp only
        rw [if_neg hlong, ← hseq, ← hkey, hbox.open_seal]
      · show some (e.key, e.sendSeq + 1) = some (e'.key, e'.recvSeq + 1)
        rw [hkey, hseq]

theorem Opens.send {sender receiver : FramedStream Key} {ps ms : List Bytes}
    (h : Opens box sender receiver ps ms) (m : Bytes) :
    Opens box (sender.sendRaw box m).1 receiver (ps ++ [(sender.sendRaw box m).2])
      (ms ++ [m]) := by
  induction h with
  | nil h =>
    obtain ⟨receiver', hnext, hagree⟩ := h.next hbox m
    exact .cons hnext (.nil hagree)
  | cons hnext _ ih => exact .cons hnext ih

theorem length_sendRaw (sender : FramedStream Key) (m : Bytes) :
    (sender.sendRaw box m).2.length ≤ m.length + macBytes := by
  obtain ⟨encrypt⟩ := sender
  cases encrypt with
  | none => exact Nat.le_add_right _ _
  | some e => exact Nat.le_of_eq (hbox.length_seal m _ _)

end Opens

/-! ### What is on its way -/

/-- Where the decoder stands in frames that raw bytes follow. -/
def Ahead (state : DecodeState) (bytes : Bytes) (ps : List Bytes) (raw : Bytes) : Prop :=
  match state with
  | .Head => bytes = stream ps ++ raw
  | .Data n => ∃ p qs, ps = p :: qs ∧ n = p.length ∧ bytes = p ++ (stream qs ++ raw)

/-- Messages and, behind them, raw bytes are on their way to a receiver of frames. -/
structure FramesAhead (box : SecretBox Key) (sender : FramedStream Key) (receiver : TcpStream Key)
    (wire : Bytes) (ms : List Bytes) (raw : Bytes) : Prop where
  framed : receiver.codec.raw = false
  limit : maxPayloadLength ≤ receiver.codec.maxPacketLength
  ahead : ∃ ps, Opens box sender receiver.keyed ps ms ∧
    (∀ p ∈ ps, p.length ≤ maxPayloadLength) ∧
    Ahead receiver.codec.state (receiver.buffer ++ wire) ps raw

structure RawAhead (receiver : TcpStream Key) (wire raw : Bytes) : Prop where
  isRaw : receiver.codec.raw = true
  keyed : receiver.keyed = ⟨none⟩
  ahead : receiver.buffer ++ wire = raw

theorem FramesAhead.new (box : SecretBox Key) {sender receiver : FramedStream Key}
    (h : sender.Agree receiver) : FramesAhead box sender (.new receiver) [] [] [] where
  framed := rfl
  limit := by
    show maxPayloadLength ≤ usizeMax
    decide
  ahead := ⟨[], .nil h, fun _ hp => absurd hp List.not_mem_nil, rfl⟩

theorem FramesAhead.congr {box : SecretBox Key} {last last' : FramedStream Key}
    {receiver : TcpStream Key} {wire : Bytes} {ms : List Bytes} {raw : Bytes}
    (h : FramesAhead box last receiver wire ms raw) (hsealing : last'.sealing = last.sealing) :
    FramesAhead box last' receiver wire ms raw := by
  obtain ⟨ps, hopens, hfits, hahead⟩ := h.ahead
  exact ⟨h.framed, h.limit, ps, hopens.congr hsealing, hfits, hahead⟩

theorem FramesAhead.sendRaw {box : SecretBox Key} {last : FramedStream Key}
    {receiver : TcpStream Key} {wire : Bytes} {ms : List Bytes} {raw : Bytes}
    (h : FramesAhead box last receiver wire ms raw) (m : Bytes) :
    FramesAhead box last (receiver.sendRaw box m).1 wire ms raw := by
  obtain ⟨ps, hopens, hfits, hahead⟩ := h.ahead
  exact ⟨h.framed, h.limit, ps,
    hopens.congr_receiver (FramedStream.opening_sendRaw box receiver.keyed m), hfits, hahead⟩

theorem stream_concat (ps : List Bytes) (p : Bytes) :
    stream (ps ++ [p]) = stream ps ++ (head p.length ++ p) := by
  unfold stream
  rw [List.flatMap_append, List.flatMap_singleton]

section Frames

variable {box : SecretBox Key} {last : FramedStream Key} {sender receiver : TcpStream Key}
  {wire : Bytes} {m : Bytes} {ms : List Bytes} {raw : Bytes}

theorem FramesAhead.send (hbox : box.Lawful)
    (h : FramesAhead box sender.keyed receiver wire ms []) (hsender : sender.codec.raw = false)
    (hlen : m.length + macBytes ≤ maxPayloadLength) :
    FramesAhead box (sender.sendRaw box m).1.keyed receiver
      (wire ++ (sender.sendRaw box m).2) (ms ++ [m]) [] := by
  obtain ⟨ps, hopens, hfits, hahead⟩ := h.ahead
  have hfit : (sender.keyed.sendRaw box m).2.length ≤ maxPayloadLength :=
    Nat.le_trans (length_sendRaw hbox sender.keyed m) hlen
  have hbytes : (sender.sendRaw box m).2 =
      head (sender.keyed.sendRaw box m).2.length ++ (sender.keyed.sendRaw box m).2 := by
    show sender.sendBytes (sender.keyed.sendRaw box m).2 = _
    unfold TcpStream.sendBytes
    rw [encode_eq hsender hfit, List.nil_append]
  refine ⟨h.framed, h.limit, ps ++ [(sender.keyed.sendRaw box m).2], hopens.send hbox m, ?_, ?_⟩
  · intro p hp
    rcases List.mem_append.mp hp with hold | hnew
    · exact hfits p hold
    · rw [List.mem_singleton.mp hnew]
      exact hfit
  · rw [hbytes, ← List.append_assoc]
    unfold Ahead at hahead ⊢
    cases hstate : receiver.codec.state with
    | Head =>
      rw [hstate] at hahead
      rw [hahead, stream_concat, List.append_nil, List.append_nil]
    | Data n =>
      rw [hstate] at hahead
      obtain ⟨p, qs, rfl, hn, heq⟩ := hahead
      refine ⟨p, qs ++ [(sender.keyed.sendRaw box m).2], rfl, hn, ?_⟩
      rw [heq, stream_concat, List.append_nil, List.append_nil, List.append_assoc]

theorem FramesAhead.sendBytes (h : FramesAhead box last receiver wire ms raw)
    (hsender : sender.codec.raw = true) (data : Bytes) :
    FramesAhead box last receiver (wire ++ sender.sendBytes data) ms (raw ++ data) := by
  obtain ⟨ps, hopens, hfits, hahead⟩ := h.ahead
  have hbytes : sender.sendBytes data = data := by
    unfold TcpStream.sendBytes encode
    rw [if_pos hsender]
    rfl
  refine ⟨h.framed, h.limit, ps, hopens, hfits, ?_⟩
  rw [hbytes, ← List.append_assoc]
  unfold Ahead at hahead ⊢
  cases hstate : receiver.codec.state with
  | Head =>
    rw [hstate] at hahead
    rw [hahead, List.append_assoc]
  | Data n =>
    rw [hstate] at hahead
    obtain ⟨p, qs, rfl, hn, heq⟩ := hahead
    refine ⟨p, qs, rfl, hn, ?_⟩
    rw [heq]
    simp only [List.append_assoc]

theorem FramesAhead.receive (h : FramesAhead box last receiver wire ms raw) (n : ℕ) :
    FramesAhead box last (receiver.receive (wire.take n)) (wire.drop n) ms raw := by
  obtain ⟨ps, hopens, hfits, hahead⟩ := h.ahead
  refine ⟨h.framed, h.limit, ps, hopens, hfits, ?_⟩
  show Ahead receiver.codec.state (receiver.buffer ++ wire.take n ++ wire.drop n) ps raw
  rw [List.append_assoc, List.take_append_drop]
  exact hahead

theorem Ahead.decodeBody {c : BytesCodec} {buf rest p : Bytes} {qs : List Bytes}
    (h : buf ++ rest = p ++ (stream qs ++ raw)) :
    (∃ c' buf', c.decodeBody p.length buf = (none, c', buf') ∧ c'.raw = c.raw ∧
        c'.maxPacketLength = c.maxPacketLength ∧ Ahead c'.state (buf' ++ rest) (p :: qs) raw) ∨
      ∃ c' buf', c.decodeBody p.length buf = (some p, c', buf') ∧ c'.raw = c.raw ∧
        c'.maxPacketLength = c.maxPacketLength ∧ Ahead c'.state (buf' ++ rest) qs raw := by
  unfold BytesCodec.decodeBody decodeData
  by_cases hshort : buf.length < p.length
  · rw [if_pos hshort]
    exact .inl ⟨_, _, rfl, rfl, rfl, p, qs, rfl, rfl, h⟩
  · rw [if_neg hshort]
    obtain ⟨tl, rfl⟩ : p <+: buf :=
      List.prefix_of_prefix_length_le ⟨_, rfl⟩ ⟨rest, h⟩ (Nat.not_lt.mp hshort)
    rw [List.append_assoc] at h
    refine .inr ⟨{ c with state := .Head }, tl, ?_, rfl, rfl, List.append_cancel_left h⟩
    rw [List.take_left, List.drop_left]

theorem Ahead.decode {c : BytesCodec} {buf rest p : Bytes} {qs : List Bytes} (hraw : c.raw = false)
    (hlimit : maxPayloadLength ≤ c.maxPacketLength) (hfit : p.length ≤ maxPayloadLength)
    (h : Ahead c.state (buf ++ rest) (p :: qs) raw) :
    (∃ c' buf', c.decode buf = .ok (none, c', buf') ∧ c'.raw = false ∧
        maxPayloadLength ≤ c'.maxPacketLength ∧ Ahead c'.state (buf' ++ rest) (p :: qs) raw) ∨
      ∃ c' buf', c.decode buf = .ok (some p, c', buf') ∧ c'.raw = false ∧
        maxPayloadLength ≤ c'.maxPacketLength ∧ Ahead c'.state (buf' ++ rest) qs raw := by
  -- Both ways end in the body of the frame, with the header behind.
  have hbody {buf : Bytes} (heq : buf ++ rest = p ++ (stream qs ++ raw)) :
      (∃ c' buf', c.decodeBody p.length buf = (none, c', buf') ∧ c'.raw = false ∧
          maxPayloadLength ≤ c'.maxPacketLength ∧ Ahead c'.state (buf' ++ rest) (p :: qs) raw) ∨
        ∃ c' buf', c.decodeBody p.length buf = (some p, c', buf') ∧ c'.raw = false ∧
          maxPayloadLength ≤ c'.maxPacketLength ∧ Ahead c'.state (buf' ++ rest) qs raw := by
    rcases Ahead.decodeBody (c := c) heq with ⟨c', buf', hdecode, hraw', hlimit', hahead⟩ |
      ⟨c', buf', hdecode, hraw', hlimit', hahead⟩
    · exact .inl ⟨c', buf', hdecode, hraw'.trans hraw, hlimit' ▸ hlimit, hahead⟩
    · exact .inr ⟨c', buf', hdecode, hraw'.trans hraw, hlimit' ▸ hlimit, hahead⟩
  unfold Ahead at h
  unfold BytesCodec.decode
  rw [if_neg (by rw [hraw]; exact Bool.false_ne_true)]
  cases hstate : c.state with
  | Data n =>
    rw [hstate] at h
    obtain ⟨p', qs', hcons, rfl, heq⟩ := h
    obtain ⟨rfl, rfl⟩ := List.cons.inj hcons
    rcases hbody heq with ⟨c', buf', hdecode, hrest⟩ | ⟨c', buf', hdecode, hrest⟩
    · exact .inl ⟨c', buf', by dsimp only; rw [hdecode], hrest⟩
    · exact .inr ⟨c', buf', by dsimp only; rw [hdecode], hrest⟩
  | Head =>
    rw [hstate] at h
    rw [stream_cons, List.append_assoc, List.append_assoc] at h
    by_cases hshort : buf.length < (head p.length).length
    · -- the header itself is cut
      rw [decodeHead_cut hfit h hshort]
      refine .inl ⟨c, buf, rfl, hraw, hlimit, ?_⟩
      rw [hstate]
      show buf ++ rest = stream (p :: qs) ++ raw
      rw [h, stream_cons, List.append_assoc, List.append_assoc]
    · obtain ⟨tl, rfl⟩ : head p.length <+: buf :=
        List.prefix_of_prefix_length_le ⟨_, rfl⟩ ⟨rest, h⟩ (Nat.not_lt.mp hshort)
      rw [List.append_assoc] at h
      rw [decodeHead_head hfit (Nat.le_trans hfit hlimit)]
      rcases hbody (List.append_cancel_left h) with ⟨c', buf', hdecode, hrest⟩ |
        ⟨c', buf', hdecode, hrest⟩
      · exact .inl ⟨c', buf', by dsimp only; rw [hdecode], hrest⟩
      · exact .inr ⟨c', buf', by dsimp only; rw [hdecode], hrest⟩

theorem FramesAhead.next (h : FramesAhead box last receiver wire (m :: ms) raw) :
    ((receiver.next box).2 = none ∧
        FramesAhead box last (receiver.next box).1 wire (m :: ms) raw) ∨
      ((receiver.next box).2 = some (.ok m) ∧
        FramesAhead box last (receiver.next box).1 wire ms raw) := by
  obtain ⟨_, hopens, hfits, hahead⟩ := h.ahead
  cases hopens with
  | @cons _ keyed p _ ps _ hnext hrest =>
    unfold TcpStream.next
    rcases hahead.decode h.framed h.limit (hfits p List.mem_cons_self) with
      ⟨c', buf', hdecode, hraw, hlimit, hahead'⟩ | ⟨c', buf', hdecode, hraw, hlimit, hahead'⟩
    · rw [hdecode]
      exact .inl ⟨rfl, hraw, hlimit, p :: ps, .cons hnext hrest, hfits, hahead'⟩
    · rw [hdecode]
      dsimp only
      rw [hnext]
      refine .inr ⟨rfl, hraw, hlimit, ps, hrest, ?_, hahead'⟩
      exact fun q hq => hfits q (List.mem_cons_of_mem p hq)

theorem FramesAhead.next_nil (h : FramesAhead box last receiver wire [] []) :
    (receiver.next box).2 = none ∧ FramesAhead box last (receiver.next box).1 wire [] [] := by
  obtain ⟨_, hopens, hfits, hahead⟩ := h.ahead
  cases hopens with
  | nil hagree =>
    have hstate : receiver.codec.state = .Head := by
      cases hstate : receiver.codec.state with
      | Head => rfl
      | Data n =>
        rw [hstate] at hahead
        obtain ⟨p, qs, hcons, -⟩ := hahead
        exact absurd hcons (List.cons_ne_nil _ _).symm
    rw [hstate] at hahead
    have hempty : receiver.buffer ++ wire = [] := hahead
    have hbuffer := (List.append_eq_nil_iff.mp hempty).1
    have hdecode : receiver.codec.decode receiver.buffer =
        .ok (none, receiver.codec, receiver.buffer) := by
      unfold BytesCodec.decode
      rw [if_neg (by rw [h.framed]; exact Bool.false_ne_true), hstate, hbuffer]
      rfl
    unfold TcpStream.next
    rw [hdecode]
    exact ⟨rfl, h⟩

theorem FramesAhead.setRaw (h : FramesAhead box last receiver wire [] raw) :
    RawAhead receiver.setRaw wire raw := by
  obtain ⟨_, hopens, -, hahead⟩ := h.ahead
  cases hopens with
  | nil _ =>
    refine ⟨rfl, rfl, ?_⟩
    cases hstate : receiver.codec.state with
    | Head =>
      rw [hstate] at hahead
      exact hahead
    | Data n =>
      rw [hstate] at hahead
      obtain ⟨p, qs, hcons, -⟩ := hahead
      exact absurd hcons (List.cons_ne_nil _ _).symm

end Frames

section Raw

variable (box : SecretBox Key) {sender receiver : TcpStream Key} {wire raw : Bytes}

theorem RawAhead.sendBytes (h : RawAhead receiver wire raw) (hsender : sender.codec.raw = true)
    (data : Bytes) : RawAhead receiver (wire ++ sender.sendBytes data) (raw ++ data) := by
  have hbytes : sender.sendBytes data = data := by
    unfold TcpStream.sendBytes encode
    rw [if_pos hsender]
    rfl
  refine ⟨h.isRaw, h.keyed, ?_⟩
  rw [hbytes, ← List.append_assoc, h.ahead]

theorem RawAhead.receive (h : RawAhead receiver wire raw) (n : ℕ) :
    RawAhead (receiver.receive (wire.take n)) (wire.drop n) raw := by
  refine ⟨h.isRaw, h.keyed, ?_⟩
  show receiver.buffer ++ wire.take n ++ wire.drop n = raw
  rw [List.append_assoc, List.take_append_drop]
  exact h.ahead

theorem RawAhead.next (h : RawAhead receiver wire raw) :
    ((receiver.next box).2 = none ∧ RawAhead (receiver.next box).1 wire raw) ∨
      ∃ data raw', (receiver.next box).2 = some (.ok data) ∧ raw = data ++ raw' ∧
        RawAhead (receiver.next box).1 wire raw' := by
  unfold TcpStream.next BytesCodec.decode
  rw [if_pos h.isRaw]
  by_cases hempty : receiver.buffer = []
  · rw [if_neg (not_not.mpr hempty)]
    exact .inl ⟨rfl, h⟩
  · rw [if_pos hempty]
    rw [h.keyed]
    exact .inr ⟨receiver.buffer, wire, rfl, h.ahead.symm, h.isRaw, rfl, rfl⟩

end Raw

/-! ### A receiver that is switched on the way -/

structure OnItsWay (box : SecretBox Key) (last : FramedStream Key) (receiver : TcpStream Key)
    (switched : Bool) (wire : Bytes) (ms : List Bytes) (raw : Bytes) : Prop where
  frames : switched = false → FramesAhead box last receiver wire ms raw
  bytes : switched = true → ms = [] ∧ RawAhead receiver wire raw

section OnItsWay

variable {box : SecretBox Key} {last : FramedStream Key} {sender receiver : TcpStream Key}
  {switched : Bool} {wire : Bytes} {ms : List Bytes} {raw : Bytes}

theorem FramesAhead.onItsWay (h : FramesAhead box last receiver wire ms raw) :
    OnItsWay box last receiver false wire ms raw := ⟨fun _ => h, nofun⟩

theorem RawAhead.onItsWay (h : RawAhead receiver wire raw) :
    OnItsWay box last receiver true wire [] raw := ⟨nofun, fun _ => ⟨rfl, h⟩⟩

theorem OnItsWay.raw_codec (h : OnItsWay box last receiver switched wire ms raw) :
    receiver.codec.raw = switched := by
  cases switched with
  | false => exact (h.frames rfl).framed
  | true => exact (h.bytes rfl).2.isRaw

theorem OnItsWay.receive (h : OnItsWay box last receiver switched wire ms raw) (n : ℕ) :
    OnItsWay box last (receiver.receive (wire.take n)) switched (wire.drop n) ms raw :=
  ⟨fun hs => (h.frames hs).receive n, fun hs => ⟨(h.bytes hs).1, (h.bytes hs).2.receive n⟩⟩

theorem OnItsWay.next (h : OnItsWay box last receiver switched wire ms raw)
    (hswitched : switched = false) (hempty : ms = [] → raw = []) :
    ((receiver.next box).2 = none ∧
        OnItsWay box last (receiver.next box).1 switched wire ms raw) ∨
      ∃ m rest, ms = m :: rest ∧ (receiver.next box).2 = some (.ok m) ∧
        OnItsWay box last (receiver.next box).1 switched wire rest raw := by
  subst hswitched
  have hframes := h.frames rfl
  cases ms with
  | nil =>
    rw [hempty rfl] at hframes ⊢
    obtain ⟨hnone, hnext⟩ := hframes.next_nil
    exact .inl ⟨hnone, hnext.onItsWay⟩
  | cons m rest =>
    rcases hframes.next with ⟨hnone, hnext⟩ | ⟨hsome, hnext⟩
    · exact .inl ⟨hnone, hnext.onItsWay⟩
    · exact .inr ⟨m, rest, rfl, hsome, hnext.onItsWay⟩

theorem OnItsWay.next_bytes (h : OnItsWay box last receiver switched wire ms raw)
    (hswitched : switched = true) :
    ((receiver.next box).2 = none ∧
        OnItsWay box last (receiver.next box).1 switched wire ms raw) ∨
      ∃ data rest, (receiver.next box).2 = some (.ok data) ∧ raw = data ++ rest ∧
        OnItsWay box last (receiver.next box).1 switched wire ms rest := by
  subst hswitched
  obtain ⟨rfl, hraw⟩ := h.bytes rfl
  rcases hraw.next box with ⟨hnone, hnext⟩ | ⟨data, rest, hsome, hcut, hnext⟩
  · exact .inl ⟨hnone, hnext.onItsWay⟩
  · exact .inr ⟨data, rest, hsome, hcut, hnext.onItsWay⟩

theorem OnItsWay.sendBytes (h : OnItsWay box last receiver switched wire ms raw)
    (hsender : sender.codec.raw = true) (data : Bytes) :
    OnItsWay box last receiver switched (wire ++ sender.sendBytes data) ms (raw ++ data) :=
  ⟨fun hs => (h.frames hs).sendBytes hsender data,
    fun hs => ⟨(h.bytes hs).1, (h.bytes hs).2.sendBytes hsender data⟩⟩

end OnItsWay

end LibRustdesk
