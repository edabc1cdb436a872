import LibRustdesk.Framework.Indexed
import LibRustdesk.Framework.LittleEndian
import LibRustdesk.Framework.Machine

/-!
# The encrypted frame stream

`Encrypt` and the keyed half of `FramedStream` of `libs/hbb_common/src/tcp.rs`, and a link of two
endpoints that installed the same key, joined by an adversarial network.

`secretbox` is outside the repository, so it is a parameter (`SecretBox`) with its documented
behaviour as hypotheses: a sealed message opens to itself under the nonce and key it was sealed
with, a ciphertext is `MACBYTES` longer than its message (`SecretBox.Lawful`), and opening
succeeds on nothing else (`IdealAt`, a condition on each delivery, since what has been sealed is a
matter of the run). The network is the event list: it decides which endpoint is handed which byte
frame, and when.

Both endpoints count from the same start and neither the nonce nor the message names a direction.
So a frame of index `n` opens at whichever endpoint is at index `n`, the one that sealed it
included, and frames of at most one byte are passed through unopened. `reflected_frame_accepted`
exhibits the former. What does hold is `dec_accepts`: the `n`-th counted frame that an endpoint
accepts is the `n`-th frame that one of the two sealed, and on a network that neither reflects nor
injects short frames, what is accepted is taken in order from what the other side sent, without a
gap up to the first failure.

The counters are `u64` and wrap (`+ 1` on `UInt64`), after which nonces repeat; the theorem is
about runs too short for that.
-/

namespace LibRustdesk

open LittleEndian

/-- A `secretbox` nonce. -/
abbrev Nonce := Bytes

/-- `sodiumoxide::crypto::secretbox`: `seal` and `open`. -/
structure SecretBox (Key : Type) where
  sealBox : Bytes → Nonce → Key → Bytes
  openBox : Bytes → Nonce → Key → Option Bytes

def macBytes : ℕ := 16

/-- The documented behaviour of `secretbox` on honestly sealed messages. -/
structure SecretBox.Lawful {Key : Type} (box : SecretBox Key) : Prop where
  open_seal : ∀ m n k, box.openBox (box.sealBox m n k) n k = some m
  length_seal : ∀ m n k, (box.sealBox m n k).length = m.length + macBytes

/-- `Encrypt(pub Key, pub u64, pub u64)`: the key, the frames sealed, the frames opened. -/
structure Encrypt (Key : Type) where
  key : Key
  sendSeq : UInt64
  recvSeq : UInt64

/-- The keyed part of `FramedStream`. -/
structure FramedStream (Key : Type) where
  encrypt : Option (Encrypt Key)

variable {Key : Type}

namespace FramedStream

def nonceBytes : ℕ := 24

/-- The sequence number, little-endian, in the first eight bytes of a zero nonce. -/
def getNonce (seqnum : UInt64) : Nonce :=
  u64LeBytes seqnum ++ List.replicate (nonceBytes - 8) 0

theorem getNonce_injective : Function.Injective getNonce :=
  fun _ _ h => u64LeBytes_injective (List.append_cancel_right h)

end FramedStream

namespace Encrypt

open FramedStream

def new (key : Key) : Encrypt Key := ⟨key, 0, 0⟩

/-- Opens a frame in place. A frame of at most one byte is passed through, uncounted; the count
advances before the frame is opened, so a frame that fails to open is counted too. -/
def dec (box : SecretBox Key) (e : Encrypt Key) (bytes : Bytes) :
    Encrypt Key × Except String Bytes :=
  if bytes.length ≤ 1 then (e, .ok bytes)
  else
    let e := { e with recvSeq := e.recvSeq + 1 }
    match box.openBox bytes (getNonce e.recvSeq) e.key with
    | some res => (e, .ok res)
    | none => (e, .error "decryption error")

def enc (box : SecretBox Key) (e : Encrypt Key) (data : Bytes) : Encrypt Key × Bytes :=
  let e := { e with sendSeq := e.sendSeq + 1 }
  (e, box.sealBox data (getNonce e.sendSeq) e.key)

@[simp] theorem key_dec (box : SecretBox Key) (e : Encrypt Key) (bytes : Bytes) :
    (e.dec box bytes).1.key = e.key := by
  unfold dec
  split
  · rfl
  · dsimp only
    split <;> rfl

end Encrypt

namespace FramedStream

def setKey (key : Key) : FramedStream Key := ⟨some (Encrypt.new key)⟩

/-- The frame `send_raw` hands to the codec. -/
def sendRaw (box : SecretBox Key) (fs : FramedStream Key) (msg : Bytes) :
    FramedStream Key × Bytes :=
  match fs.encrypt with
  | some key =>
    let (key, msg) := key.enc box msg
    (⟨some key⟩, msg)
  | none => (fs, msg)

/-- What `next` returns for a frame the codec delivered. -/
def next (box : SecretBox Key) (fs : FramedStream Key) (bytes : Bytes) :
    FramedStream Key × Except String Bytes :=
  match fs.encrypt with
  | some key =>
    let (key, res) := key.dec box bytes
    (⟨some key⟩, res)
  | none => (fs, .ok bytes)

end FramedStream

/-! ### Two endpoints and a network -/

inductive Endpoint
  | client
  | host
  deriving DecidableEq, Repr

def Endpoint.other : Endpoint → Endpoint
  | .client => .host
  | .host => .client

/-- A frame handed to an endpoint and the payload it accepted from it, if it did. -/
structure Receipt where
  frame : Bytes
  payload : Option Bytes
  deriving DecidableEq

/-- Two keyed streams, with the payloads each has sealed and the frames each was handed. -/
structure Link (Key : Type) where
  stream : Endpoint → FramedStream Key
  sent : Endpoint → List Bytes
  received : Endpoint → List Receipt

/-- An endpoint sends, or the network hands it a frame of its choice. -/
inductive LinkEvent
  | send (side : Endpoint) (msg : Bytes)
  | deliver (side : Endpoint) (frame : Bytes)

namespace Link

open FramedStream

/-- Both endpoints have just installed `key`. -/
def start (key : Key) : Link Key where
  stream := fun _ => setKey key
  sent := fun _ => []
  received := fun _ => []

def machine (box : SecretBox Key) : Machine (Link Key) LinkEvent Empty where
  step
    | s, .send side msg =>
      let (fs, _) := (s.stream side).sendRaw box msg
      ({ s with
          stream := Function.update s.stream side fs
          sent := Function.update s.sent side (s.sent side ++ [msg]) }, [])
    | s, .deliver side frame =>
      let (fs, res) := (s.stream side).next box frame
      ({ s with
          stream := Function.update s.stream side fs
          received := Function.update s.received side
            (s.received side ++ [⟨frame, res.toOption⟩]) }, [])

/-- The frames an endpoint was handed that its receive counter counts. -/
def counted (s : Link Key) (side : Endpoint) : List Receipt :=
  (s.received side).filter fun r => 1 < r.frame.length

def accepted (s : Link Key) (side : Endpoint) : List Bytes :=
  (s.received side).filterMap Receipt.payload

/-- The payloads an endpoint accepted before the first frame that failed to open. -/
def acceptedBeforeError (s : Link Key) (side : Endpoint) : List Bytes :=
  ((s.received side).takeWhile fun r => r.payload.isSome).filterMap Receipt.payload

/-- `frame` is the `i`-th frame (from zero) that `side` has sealed. -/
def Produced (box : SecretBox Key) (key : Key) (s : Link Key) (side : Endpoint) (i : ℕ)
    (frame : Bytes) : Prop :=
  ∃ p, (s.sent side)[i]? = some p ∧ frame = box.sealBox p (getNonce (UInt64.ofNat (i + 1))) key

/-- The nonce `side` opens its next counted frame with. -/
def recvNonce (s : Link Key) (side : Endpoint) : Nonce :=
  getNonce (((s.stream side).encrypt.map Encrypt.recvSeq).getD 0 + 1)

/-- **Ideal authenticated encryption.** A delivered frame opens only if it was produced by a seal
with the same key and the same nonce. -/
def IdealAt (box : SecretBox Key) (key : Key) (s : Link Key) : LinkEvent → Prop
  | .send _ _ => True
  | .deliver side frame =>
    box.openBox frame (s.recvNonce side) key ≠ none →
      ∃ side' i, Produced box key s side' i frame ∧
        getNonce (UInt64.ofNat (i + 1)) = s.recvNonce side

/-- The network hands `side` no frame of at most one byte, and no frame that `side` sealed itself
unless the other end sealed the same bytes at the same index. -/
def StraightAt (box : SecretBox Key) (key : Key) (side : Endpoint) (s : Link Key) :
    LinkEvent → Prop
  | .send _ _ => True
  | .deliver side' frame =>
    side' = side → 1 < frame.length ∧
      ∀ i, Produced box key s side i frame → Produced box key s side.other i frame

def total (s : Link Key) : ℕ :=
  (s.sent .client).length + (s.sent .host).length +
    ((s.received .client).length + (s.received .host).length)

/-! ### One step of the link -/

section Step

variable {box : SecretBox Key} {s : Link Key} {side : Endpoint} {e : Encrypt Key}

theorem next_send (msg : Bytes) (h : s.stream side = ⟨some e⟩) :
    (machine box).next s (.send side msg) =
      { s with
        stream := Function.update s.stream side ⟨some { e with sendSeq := e.sendSeq + 1 }⟩
        sent := Function.update s.sent side (s.sent side ++ [msg]) } := by
  simp only [machine, Machine.next, FramedStream.sendRaw, h, Encrypt.enc]

theorem next_deliver_short {frame : Bytes} (h : s.stream side = ⟨some e⟩)
    (hshort : frame.length ≤ 1) :
    (machine box).next s (.deliver side frame) =
      { s with
        received := Function.update s.received side (s.received side ++ [⟨frame, some frame⟩]) }
    := by
  have hstream : Function.update s.stream side ⟨some e⟩ = s.stream := by
    rw [← h]
    exact Function.update_eq_self side s.stream
  simp only [machine, Machine.next, FramedStream.next, h, Encrypt.dec, if_pos hshort, hstream]
  rfl

theorem next_deliver_long {frame : Bytes} (h : s.stream side = ⟨some e⟩)
    (hlong : 1 < frame.length) :
    (machine box).next s (.deliver side frame) =
      { s with
        stream := Function.update s.stream side ⟨some { e with recvSeq := e.recvSeq + 1 }⟩
        received := Function.update s.received side
          (s.received side ++
            [⟨frame, box.openBox frame (getNonce (e.recvSeq + 1)) e.key⟩]) } := by
  simp only [machine, Machine.next, FramedStream.next, h, Encrypt.dec,
    if_neg (Nat.not_le.mpr hlong)]
  cases box.openBox frame (getNonce (e.recvSeq + 1)) e.key <;> rfl

end Step

theorem sent_next (box : SecretBox Key) (s : Link Key) (ev : LinkEvent) (side : Endpoint) :
    s.sent side <+: ((machine box).next s ev).sent side := by
  cases ev with
  | deliver side' frame => exact List.prefix_refl _
  | send side' msg =>
    change s.sent side <+: Function.update s.sent side' (s.sent side' ++ [msg]) side
    by_cases h : side = side'
    · subst h
      rw [Function.update_self]
      exact List.prefix_append _ _
    · exact ⟨[], by rw [List.append_nil, Function.update_of_ne h]⟩

theorem total_next (box : SecretBox Key) (s : Link Key) (ev : LinkEvent) :
    total ((machine box).next s ev) = total s + 1 := by
  cases ev with
  | send side msg =>
    cases side <;>
      simp only [machine, Machine.next, total, Function.update_self, ne_eq, reduceCtorEq,
        not_false_eq_true, Function.update_of_ne, List.length_append, List.length_singleton] <;>
      omega
  | deliver side frame =>
    cases side <;>
      simp only [machine, Machine.next, total, Function.update_self, ne_eq, reduceCtorEq,
        not_false_eq_true, Function.update_of_ne, List.length_append, List.length_singleton] <;>
      omega

theorem total_run (box : SecretBox Key) (s : Link Key) (es : List LinkEvent) :
    total ((machine box).run s es) = total s + es.length := by
  induction es generalizing s with
  | nil => rfl
  | cons ev es ih =>
    rw [Machine.run_cons, ih, total_next, List.length_cons]
    omega

variable {key : Key}

theorem total_lt_of_mem_trace {box : SecretBox Key} {es : List LinkEvent} :
    ∀ p ∈ (machine box).trace (start key) es, total p.1 < es.length := by
  intro p hp
  obtain ⟨pre, post, rfl, hrun⟩ := Machine.exists_split_of_mem_trace _ hp
  rw [← hrun, total_run, List.length_append, List.length_cons]
  simp only [total, start, List.length_nil]
  omega

/-! ### The link invariant -/

/-- The counters are the lengths of the histories, and every counted frame that was accepted is,
at its own index, a frame that one of the two endpoints sealed. -/
structure Inv (box : SecretBox Key) (key : Key) (s : Link Key) : Prop where
  keyed : ∀ side, s.stream side = ⟨some ⟨key, UInt64.ofNat (s.sent side).length,
    UInt64.ofNat (s.counted side).length⟩⟩
  authentic : ∀ (side : Endpoint) (n : ℕ) (r : Receipt) (m : Bytes),
    (s.counted side)[n]? = some r → r.payload = some m →
    ∃ side', (s.sent side')[n]? = some m ∧
      r.frame = box.sealBox m (getNonce (UInt64.ofNat (n + 1))) key

theorem Inv.start (box : SecretBox Key) (key : Key) : Inv box key (start key) where
  keyed := fun _ => rfl
  authentic := fun _ _ _ _ h => absurd h (by simp [counted, Link.start])

theorem counted_append_short {l : List Receipt} {r : Receipt} (h : r.frame.length ≤ 1) :
    (l ++ [r]).filter (fun r => 1 < r.frame.length) = l.filter fun r => 1 < r.frame.length := by
  have hr : decide (1 < r.frame.length) = false := by simpa using h
  rw [List.filter_append, List.filter_singleton, hr]
  exact List.append_nil _

theorem counted_append_long {l : List Receipt} {r : Receipt} (h : 1 < r.frame.length) :
    (l ++ [r]).filter (fun r => 1 < r.frame.length)
      = l.filter (fun r => 1 < r.frame.length) ++ [r] := by
  have hr : decide (1 < r.frame.length) = true := by simpa using h
  rw [List.filter_append, List.filter_singleton, hr]
  rfl

theorem counted_le_total (s : Link Key) (side : Endpoint) : (s.counted side).length ≤ total s := by
  have h := List.length_filter_le (fun r : Receipt => decide (1 < r.frame.length))
    (s.received side)
  unfold counted total
  cases side <;> omega

theorem sent_le_total (s : Link Key) (side : Endpoint) : (s.sent side).length ≤ total s := by
  unfold total
  cases side <;> omega

theorem index_eq_of_nonce {i n : ℕ} (hi : i + 1 < 2 ^ 64) (hn : n + 1 < 2 ^ 64)
    (h : getNonce (UInt64.ofNat (i + 1)) = getNonce (UInt64.ofNat n + 1)) : i = n := by
  have hnext : UInt64.ofNat n + 1 = UInt64.ofNat (n + 1) := (UInt64.ofNat_add n 1).symm
  have hw := congrArg UInt64.toNat (getNonce_injective (h.trans (congrArg getNonce hnext)))
  rw [UInt64.toNat_ofNat_of_lt' hi, UInt64.toNat_ofNat_of_lt' hn] at hw
  omega

theorem Inv.opened {box : SecretBox Key} (hbox : box.Lawful) {s : Link Key} (hI : Inv box key s)
    (hsmall : total s + 1 < 2 ^ 64) {side : Endpoint} {frame m : Bytes}
    (hideal : IdealAt box key s (.deliver side frame))
    (hopen : box.openBox frame (getNonce (UInt64.ofNat (s.counted side).length + 1)) key = some m) :
    ∃ side', (s.sent side')[(s.counted side).length]? = some m ∧ frame = box.sealBox m
    (getNonce (UInt64.ofNat ((s.counted side).length + 1))) key := by
  have hnonce : s.recvNonce side = getNonce (UInt64.ofNat (s.counted side).length + 1) := by
    unfold recvNonce
    rw [hI.keyed side]
    rfl
  have hne : box.openBox frame (s.recvNonce side) key ≠ none := by
    rw [hnonce, hopen]
    exact Option.some_ne_none m
  obtain ⟨side', i, ⟨p, hp, hframe⟩, hn⟩ := hideal hne
  have hi := (List.getElem?_eq_some_iff.mp hp).1
  have hilt := sent_le_total s side'
  have hnlt := counted_le_total s side
  obtain rfl : i = (s.counted side).length :=
    index_eq_of_nonce (by omega) (by omega) (hn.trans hnonce)
  -- the seal opens to what was sealed, so the payload is the sealed one
  have hpm : p = m := by
    have h := hbox.open_seal p (getNonce (UInt64.ofNat ((s.counted side).length + 1))) key
    rw [← hframe, hn, hnonce, hopen] at h
    exact (Option.some.inj h).symm
  subst hpm
  exact ⟨side', hp, hframe⟩

theorem Inv.next {box : SecretBox Key} (hbox : box.Lawful) {s : Link Key}
    (hI : Inv box key s) (hsmall : total s + 1 < 2 ^ 64) {ev : LinkEvent}
    (hideal : IdealAt box key s ev) : Inv box key ((machine box).next s ev) := by
  cases ev with
  | send side msg =>
    rw [next_send msg (hI.keyed side)]
    refine ⟨fun side₁ => ?_, fun side₁ n r m hr hm => ?_⟩
    · -- the sender's counter advances with its history
      by_cases h : side₁ = side
      · subst h
        simp only [Function.update_self, List.length_append, List.length_singleton,
          UInt64.ofNat_add]
        rfl
      · simp only [Function.update_of_ne h]
        exact hI.keyed side₁
    · obtain ⟨side', hs, hframe⟩ := hI.authentic side₁ n r m hr hm
      refine ⟨side', ?_, hframe⟩
      have hpre := sent_next box s (.send side msg) side'
      rw [next_send msg (hI.keyed side)] at hpre
      exact getElem?_of_prefix hpre hs
  | deliver side frame =>
    by_cases hlong : 1 < frame.length
    · rw [next_deliver_long (hI.keyed side) hlong]
      refine ⟨fun side₁ => ?_, fun side₁ n r m hr hm => ?_⟩
      · by_cases h : side₁ = side
        · subst h
          simp only [counted, Function.update_self]
          rw [counted_append_long (by exact hlong), List.length_append, List.length_singleton,
            UInt64.ofNat_add]
          rfl
        · simp only [counted, Function.update_of_ne h]
          exact hI.keyed side₁
      · by_cases h : side₁ = side
        · subst h
          simp only [counted, Function.update_self] at hr
          rw [counted_append_long (by exact hlong)] at hr
          -- an old receipt, or the one this frame leaves
          rcases getElem?_concat_cases hr with hr | ⟨rfl, rfl⟩
          · exact hI.authentic side₁ n r m hr hm
          · exact hI.opened hbox hsmall hideal hm
        · simp only [counted, Function.update_of_ne h] at hr
          exact hI.authentic side₁ n r m hr hm
    · -- a short frame is passed through and changes no counter
      have hcounted : ∀ side₁, counted ((machine box).next s (.deliver side frame)) side₁
          = s.counted side₁ := by
        intro side₁
        rw [next_deliver_short (hI.keyed side) (Nat.not_lt.mp hlong)]
        by_cases h : side₁ = side
        · subst h
          simp only [counted, Function.update_self]
          exact counted_append_short (Nat.not_lt.mp hlong)
        · simp only [counted, Function.update_of_ne h]
      refine ⟨fun side₁ => ?_, fun side₁ n r m hr hm => ?_⟩
      · rw [hcounted side₁, next_deliver_short (hI.keyed side) (Nat.not_lt.mp hlong)]
        exact hI.keyed side₁
      · rw [hcounted side₁] at hr
        rw [next_deliver_short (hI.keyed side) (Nat.not_lt.mp hlong)]
        exact hI.authentic side₁ n r m hr hm

/-- On a straight network every frame an endpoint was handed is counted, and what it accepted at
an index is what the other end sealed there. -/
structure StraightInv (s : Link Key) (side : Endpoint) : Prop where
  all_counted : s.counted side = s.received side
  from_other : ∀ (n : ℕ) (r : Receipt) (m : Bytes), (s.received side)[n]? = some r →
    r.payload = some m →
    (s.sent side.other)[n]? = some m

theorem StraightInv.next {box : SecretBox Key} (hbox : box.Lawful) {s : Link Key} {side : Endpoint}
    (hI : Inv box key s) (hS : StraightInv s side) (hsmall : total s + 1 < 2 ^ 64) {ev : LinkEvent}
    (hideal : IdealAt box key s ev) (hstraight : StraightAt box key side s ev) : StraightInv
    ((machine box).next s ev) side := by
  cases ev with
  | send side' msg =>
    have hpre := sent_next box s (.send side' msg) side.other
    rw [next_send msg (hI.keyed side')] at hpre ⊢
    exact ⟨hS.all_counted, fun n r m hr hm => getElem?_of_prefix hpre (hS.from_other n r m hr hm)⟩
  | deliver side' frame =>
    by_cases h : side' = side
    · subst h
      obtain ⟨hlong, hother⟩ := hstraight rfl
      rw [next_deliver_long (hI.keyed side') hlong]
      refine ⟨?_, fun n r m hr hm => ?_⟩
      · simp only [counted, Function.update_self]
        rw [counted_append_long (by exact hlong)]
        exact congrArg (· ++ _) hS.all_counted
      · simp only [Function.update_self] at hr
        rcases getElem?_concat_cases hr with hr | ⟨rfl, rfl⟩
        · exact hS.from_other n r m hr hm
        · -- the new frame was sealed at this index by one of the two, so by the other end
          obtain ⟨side₁, hs, hframe⟩ := hI.opened hbox hsmall hideal hm
          rw [hS.all_counted] at hs hframe
          by_cases hside : side₁ = side'
          · subst hside
            obtain ⟨q, hq, hqframe⟩ := hother _ ⟨m, hs, hframe⟩
            have hqm : q = m := by
              have h1 := hbox.open_seal q
                (getNonce (UInt64.ofNat ((s.received side₁).length + 1))) key
              rw [← hqframe, hframe, hbox.open_seal] at h1
              exact (Option.some.inj h1).symm
            rw [← hqm]
            exact hq
          · have hother' : side₁ = side'.other := by
              cases side₁ <;> cases side' <;> first | rfl | exact absurd rfl hside
            rw [← hother']
            exact hs
    · have hrecv : ((machine box).next s (.deliver side' frame)).received side
          = s.received side := by
        exact Function.update_of_ne (Ne.symm h) _ _
      have hsent : ((machine box).next s (.deliver side' frame)).sent = s.sent := rfl
      refine ⟨?_, ?_⟩
      · unfold counted
        rw [hrecv]
        exact hS.all_counted
      · rw [hrecv, hsent]
        exact hS.from_other

/-! ### What an endpoint accepts -/

theorem Inv.of_run {box : SecretBox Key} (hbox : box.Lawful) {es : List LinkEvent}
    (hwrap : es.length < 2 ^ 64)
    (hideal : (machine box).Meets (IdealAt box key) (Link.start key) es) : Inv box key
    ((machine box).run (Link.start key) es) := by
  have hmeets : (machine box).Meets
      (fun s ev => IdealAt box key s ev ∧ total s + 1 < 2 ^ 64) (Link.start key) es := by
    intro p hp
    have := total_lt_of_mem_trace p hp
    exact ⟨hideal p hp, by omega⟩
  exact hmeets.inv_run (Inv.start box key) fun s ev hc hI => hI.next hbox hc.2 hc.1

/-- **Authenticity of the keyed stream.** With an ideal `secretbox`, and before a counter wraps, the
payload accepted from the `n`-th counted frame is the `n`-th payload that one of the two endpoints
sealed, and the frame is that seal. An endpoint to which the network hands no short frame and none
of its own accepts the payloads of the other end in order, and without a gap up to its first error.
-/
theorem dec_accepts (box : SecretBox Key) (hbox : box.Lawful) (key : Key) (es : List LinkEvent)
    (hwrap : es.length < 2 ^ 64) (hideal : (machine box).Meets (IdealAt box key) (start key) es)
    (side : Endpoint) :
    (∀ n r m, (((machine box).run (start key) es).counted side)[n]? = some r →
        r.payload = some m →
        ∃ side', (((machine box).run (start key) es).sent side')[n]? = some m ∧
          r.frame = box.sealBox m (getNonce (UInt64.ofNat (n + 1))) key) ∧
      ((machine box).Meets (StraightAt box key side) (start key) es →
        (((machine box).run (start key) es).accepted side).Sublist
            (((machine box).run (start key) es).sent side.other) ∧
          ((machine box).run (start key) es).acceptedBeforeError side
            <+: ((machine box).run (start key) es).sent side.other) := by
  -- every step is ideal and below the wrap
  have hmeets : (machine box).Meets
      (fun s ev => IdealAt box key s ev ∧ total s + 1 < 2 ^ 64) (start key) es := by
    intro p hp
    have := total_lt_of_mem_trace p hp
    exact ⟨hideal p hp, by omega⟩
  have hinv := Inv.of_run hbox hwrap hideal
  refine ⟨hinv.authentic side, fun hstraight => ?_⟩
  have hboth : (machine box).Meets
      (fun s ev => (IdealAt box key s ev ∧ total s + 1 < 2 ^ 64) ∧ StraightAt box key side s ev)
      (start key) es := fun p hp => ⟨hmeets p hp, hstraight p hp⟩
  have hS0 : StraightInv (start key) side :=
    ⟨rfl, fun _ _ _ h => absurd h (by simp [start])⟩
  have hS := hboth.inv_run (I := fun s => Inv box key s ∧ StraightInv s side)
    ⟨Inv.start box key, hS0⟩
    fun s ev hc hI => ⟨hI.1.next hbox hc.1.2 hc.1.1, hI.2.next hbox hI.1 hc.1.2 hc.1.1 hc.2⟩
  exact ⟨filterMap_sublist_of_index hS.2.from_other,
    takeWhile_filterMap_prefix_of_index hS.2.from_other⟩

/-! ### A reflected frame -/

/-- A transparent box: the tag is the head of the nonce followed by the key, and the ciphertext
carries the message in the clear. -/
def tagBox : SecretBox Bytes where
  sealBox m n k := (n.take 8 ++ k ++ List.replicate macBytes 0).take macBytes ++ m
  openBox c n k :=
    if c.take macBytes = (n.take 8 ++ k ++ List.replicate macBytes 0).take macBytes then
      some (c.drop macBytes)
    else none

theorem tagBox_lawful : tagBox.Lawful := by
  have htag : ∀ (n k : Bytes),
      ((n.take 8 ++ k ++ List.replicate macBytes 0).take macBytes).length = macBytes := by
    intro n k
    rw [List.length_take, List.length_append, List.length_replicate]
    exact Nat.min_eq_left (Nat.le_add_left _ _)
  refine ⟨fun m n k => ?_, fun m n k => ?_⟩
  · simp only [tagBox]
    rw [List.take_left' (htag n k), List.drop_left' (htag n k), if_pos rfl]
  · simp only [tagBox]
    rw [List.length_append, htag n k, Nat.add_comm]

/-- The client's only frame, handed to `side`. -/
def oneFrame (side : Endpoint) : List LinkEvent :=
  [.send .client [104, 105], .deliver side (tagBox.sealBox [104, 105] (getNonce 1) [7])]

theorem oneFrame_ideal (side : Endpoint) :
    (machine tagBox).Meets (IdealAt tagBox [7]) (start [7]) (oneFrame side) := by
  refine Machine.meets_cons.mpr ⟨trivial, Machine.meets_cons.mpr ⟨fun _ => ?_,
    Machine.meets_nil _⟩⟩
  cases side <;> exact ⟨.client, 0, ⟨[104, 105], rfl, rfl⟩, rfl⟩

/-- **The direction is not authenticated.** A frame that the network hands back to its sender is
accepted there, although the other end has sent nothing. -/
theorem reflected_frame_accepted :
    ¬ ∀ (box : SecretBox Bytes) (_ : box.Lawful) (key : Bytes) (es : List LinkEvent),
      es.length < 2 ^ 64 → (machine box).Meets (IdealAt box key) (start key) es →
        ∀ side, ((machine box).run (start key) es).accepted side
          <+: ((machine box).run (start key) es).sent side.other := by
  intro h
  have hpre := h tagBox tagBox_lawful [7] (oneFrame .client) (by decide)
    (oneFrame_ideal .client) .client
  have hacc : ((machine tagBox).run (start [7]) (oneFrame .client)).accepted .client
      = [[104, 105]] := by decide
  have hsent : ((machine tagBox).run (start [7]) (oneFrame .client)).sent
      Endpoint.client.other = [] := by decide
  rw [hacc, hsent] at hpre
  exact absurd (List.prefix_nil.mp hpre) (by decide)

/-- The same frame delivered to the host: the network is straight, and the frame is accepted. -/
theorem dec_accepts_oneFrame :
    ((machine tagBox).run (start [7]) (oneFrame .host)).accepted .host = [[104, 105]] ∧
      (((machine tagBox).run (start [7]) (oneFrame .host)).accepted .host).Sublist
          (((machine tagBox).run (start [7]) (oneFrame .host)).sent .client) ∧
        ((machine tagBox).run (start [7]) (oneFrame .host)).acceptedBeforeError .host
          <+: ((machine tagBox).run (start [7]) (oneFrame .host)).sent .client := by
  refine ⟨by decide, (dec_accepts tagBox tagBox_lawful [7] (oneFrame .host) (by decide)
    (oneFrame_ideal .host) .host).2 ?_⟩
  refine Machine.meets_cons.mpr ⟨trivial, Machine.meets_cons.mpr ⟨fun _ => ⟨by decide, ?_⟩,
    Machine.meets_nil _⟩⟩
  -- the host has sealed nothing
  rintro i ⟨p, hp, -⟩
  exact absurd hp (by simp [machine, Machine.next, start, Function.update])

end Link

end LibRustdesk
