import LibRustdesk.Net.Encrypt

/-!
# The key exchange

`Client::secure_connection` of `src/client.rs` against `create_tcp_connection` of `src/server.rs`,
over two reliable queues of frames, with the two sides moving in any order.

The rendezvous server has given the client a signed pair of the peer's id and signing key. When the
client finds the key in it, it waits for the host's `SignedId`, which carries a box key signed by
the host; it answers with a symmetric key sealed for that box key, or with an empty `PublicKey` when
the signature is not the host's, or with an empty message. Without the key it sends an empty message
at once and reads nothing. A secure host sends its `SignedId` first and takes the next frame, which
is one of these answers.

Signatures, boxes, base64 and the protobuf encodings are outside the repository and parameters of
`Setup`; `Setup.Lawful` has what is documented of them. The random values of a run, the two box
pairs and the symmetric key, are part of the setup too.

* `hostReaction_clientReply` — the host makes of an answer to its `SignedId` what the client has
  made of the `SignedId`: the same key, or none.
* `handshake` — the machine of the two sides.
-/

namespace LibRustdesk.Handshake

open LittleEndian

/-- `IdPk` of the protocol. -/
structure IdPk where
  id : String
  pk : Bytes
  deriving DecidableEq

/-- `Message` of the protocol; `none` is `Message::new()` and `other` any message of the session. -/
inductive Message
  | none
  | signedId (id : Bytes)
  | publicKey (asymmetricValue symmetricValue : Bytes)
  | other (data : Bytes)
  deriving DecidableEq

/-- `box_::gen_keypair()`. -/
structure BoxKeyPair where
  pk : Bytes
  sk : Bytes

/-- `sign::PUBLICKEYBYTES`, `box_::PUBLICKEYBYTES` and `secretbox::KEYBYTES`. -/
def keyBytes : ℕ := 32

/-- `sign::SECRETKEYBYTES`. -/
def signSecretKeyBytes : ℕ := 64

structure Setup where
  sign : Bytes → Bytes → Bytes
  verify : Bytes → Bytes → Option Bytes
  boxSeal : Bytes → Nonce → Bytes → Bytes → Bytes
  boxOpen : Bytes → Nonce → Bytes → Bytes → Option Bytes
  secretBox : SecretBox Bytes
  decode64 : String → Option Bytes
  encode : Message → Bytes
  parse : Bytes → Option Message
  encodeIdPk : IdPk → Bytes
  parseIdPk : Bytes → Option IdPk
  /-- `config::RS_PUB_KEY`. -/
  rsPubKey : String
  /-- The arguments of `secure_connection`. -/
  peerId : String
  signedIdPk : Bytes
  key : String
  /-- The pair and the key of `create_symmetric_key_msg`. -/
  clientBox : BoxKeyPair
  symmetricKey : Bytes
  /-- The host's `secure`, `Config::get_key_pair()`, `Config::get_id()` and box pair. -/
  secure : Bool
  keyPair : Bytes × Bytes
  id : String
  hostBox : BoxKeyPair

namespace Setup

variable (S : Setup)

/-- The documented behaviour of what is outside, and of the values it has generated. -/
structure Lawful : Prop where
  parse_encode : ∀ m, S.parse (S.encode m) = some m
  parse_encodeIdPk : ∀ m, S.parseIdPk (S.encodeIdPk m) = some m
  /-- A signed message verifies to itself or not at all. -/
  verify_sign : ∀ m sk pk m', S.verify (S.sign m sk) pk = some m' → m' = m
  open_seal : ∀ m n, S.boxOpen (S.boxSeal m n S.hostBox.pk S.clientBox.sk) n S.clientBox.pk
    S.hostBox.sk = some m
  clientBox_pk : S.clientBox.pk.length = keyBytes
  hostBox_pk : S.hostBox.pk.length = keyBytes
  symmetricKey : S.symmetricKey.length = keyBytes

/-- `box_::Nonce([0u8; box_::NONCEBYTES])`. -/
def zeroNonce : Nonce := List.replicate 24 0

def getPk (pk : Bytes) : Option Bytes := if pk.length = 32 then some pk else none

def getRsPk (strBase64 : String) : Option Bytes := (S.decode64 strBase64).bind getPk

def decodeIdPk (signed key : Bytes) : Option (String × Bytes) :=
  match (S.verify signed key).bind S.parseIdPk with
  | some res => (getPk res.pk).map fun pk => (res.id, pk)
  | none => none

/-- The `sign_pk` of `secure_connection`. -/
def signPk : Option Bytes :=
  if S.signedIdPk ≠ [] then
    match S.getRsPk (if S.key.isEmpty then S.rsPubKey else S.key) with
    | some rsPk =>
      match S.decodeIdPk S.signedIdPk rsPk with
      | some (id, pk) => if id = S.peerId then some pk else none
      | none => none
    | none => none
  else none

def createSymmetricKeyMsg (theirPkB : Bytes) : Bytes × Bytes × Bytes :=
  (S.clientBox.pk, S.boxSeal S.symmetricKey zeroNonce theirPkB S.clientBox.sk, S.symmetricKey)

/-- What the client sends for the first message it reads, and the key it installs then. -/
def clientReply (signPk bytes : Bytes) : Message × Option Bytes :=
  match S.parse bytes with
  | some (.signedId si) =>
    match S.decodeIdPk si signPk with
    | some (id, theirPkB) =>
      if id = S.peerId then
        let (asymmetricValue, symmetricValue, key) := S.createSymmetricKeyMsg theirPkB
        (.publicKey asymmetricValue symmetricValue, some key)
      else (.none, none)
    | none => (.publicKey [] [], none)
  | some _ => (.none, none)
  | none => (.none, none)

/-- The host's `SignedId`. -/
def signedId : Message := .signedId (S.sign (S.encodeIdPk ⟨S.id, S.hostBox.pk⟩) S.keyPair.1)

def Signs : Prop :=
  S.secure = true ∧ S.keyPair.2.length = keyBytes ∧ S.keyPair.1.length = signSecretKeyBytes

instance : Decidable S.Signs := inferInstanceAs (Decidable (_ ∧ _ ∧ _))

/-- `Encrypt::decode`. -/
def decodeKey (symmetricData theirPkB ourSkB : Bytes) : Except String Bytes :=
  if theirPkB.length ≠ keyBytes then
    .error ("Handshake failed: pk length " ++ toString theirPkB.length)
  else match S.boxOpen symmetricData zeroNonce theirPkB ourSkB with
    | none => .error "Handshake failed: box decryption failure"
    | some symmetricKey =>
      if symmetricKey.length ≠ keyBytes then
        .error "Handshake failed: invalid secret key length from peer"
      else .ok symmetricKey

/-- What the host makes of the first message it reads: a key to install, or none and whether its
own key is to be registered again. -/
def hostReaction (bytes : Bytes) : Except String (Option Bytes × Bool) :=
  match S.parse bytes with
  | some (.publicKey asymmetricValue symmetricValue) =>
    if asymmetricValue.length = keyBytes then
      (S.decodeKey symmetricValue asymmetricValue S.hostBox.sk).map fun key => (some key, false)
    else if asymmetricValue.isEmpty then .ok (none, true)
    else .error "Handshake failed: invalid public sign key length from peer"
  | some _ => .ok (none, false)
  | none => .error "Handshake failed: invalid message format"

end Setup

/-! ### The two ends -/

inductive Phase
  | start
  /-- Waiting for the first message of the other side. -/
  | reading
  /-- The session has begun. -/
  | done
  | failed (error : String)
  deriving DecidableEq

structure Side where
  phase : Phase
  stream : FramedStream Bytes
  /-- History: what the key exchange has read. -/
  consumed : List Bytes

structure World where
  side : Endpoint → Side
  /-- The frames on their way to each side. -/
  queue : Endpoint → List Bytes
  /-- `key_confirmed` of the host's configuration. -/
  keyConfirmed : Bool

namespace World

variable (S : Setup)

def setSide (w : World) (e : Endpoint) (s : Side) : World :=
  { w with side := Function.update w.side e s }

def setQueue (w : World) (e : Endpoint) (q : List Bytes) : World :=
  { w with queue := Function.update w.queue e q }

variable (w : World) (e : Endpoint) (q : List Bytes)

@[simp] theorem side_setSide_self (s : Side) :
    (w.setSide e s).side e = s := Function.update_self _ _ _

@[simp] theorem side_setSide_of_ne {e e' : Endpoint} (s : Side) (h : e' ≠ e) :
    (w.setSide e s).side e' = w.side e' := Function.update_of_ne h _ _

@[simp] theorem queue_setSide (s : Side) :
    (w.setSide e s).queue = w.queue := rfl

@[simp] theorem side_setQueue :
    (w.setQueue e q).side = w.side := rfl

@[simp] theorem queue_setQueue_self :
    (w.setQueue e q).queue e = q := Function.update_self _ _ _

@[simp] theorem queue_setQueue_of_ne {e e' : Endpoint} (h : e' ≠ e) :
    (w.setQueue e q).queue e' = w.queue e' := Function.update_of_ne h _ _

/-- `send` of a side that is in the given state afterwards. -/
def sendFrom (w : World) (e : Endpoint) (s : Side) (m : Message) : World :=
  let (stream, frame) := s.stream.sendRaw S.secretBox (S.encode m)
  (w.setSide e { s with stream := stream }).setQueue e.other (w.queue e.other ++ [frame])

/-- `set_key`, if there is a key. -/
def install (w : World) (e : Endpoint) (key : Option Bytes) : World :=
  match key with
  | some key => w.setSide e { w.side e with stream := .setKey key }
  | none => w

/-- `next` of a side, when a frame is there: the world without it, and what has been read. -/
def receive (w : World) (e : Endpoint) : Option (World × Except String Bytes) :=
  match w.queue e with
  | [] => none
  | frame :: rest =>
    let (stream, res) := (w.side e).stream.next S.secretBox frame
    some ((w.setSide e { w.side e with stream := stream }).setQueue e rest, res)

/-- The client runs up to its next `await` that has to wait. -/
def stepClient (w : World) : World :=
  let c := w.side .client
  match c.phase with
  | .start =>
    match S.signPk with
    | some _ => w.setSide .client { c with phase := .reading }
    | none => w.sendFrom S .client { c with phase := .done } .none
  | .reading =>
    match S.signPk, w.receive S .client with
    | some signPk, some (w, .ok bytes) =>
      let c := w.side .client
      let (reply, key) := S.clientReply signPk bytes
      (w.sendFrom S .client { c with phase := .done, consumed := c.consumed ++ [bytes] }
        reply).install .client key
    | some _, some (w, .error e) => w.setSide .client { w.side .client with phase := .failed e }
    | _, _ => w
  | _ => w

def stepHost (w : World) : World :=
  let h := w.side .host
  match h.phase with
  | .start =>
    if S.Signs then w.sendFrom S .host { h with phase := .reading } S.signedId
    else w.setSide .host { h with phase := .done }
  | .reading =>
    match w.receive S .host with
    | some (w, .ok bytes) =>
      let h := w.side .host
      match S.hostReaction bytes with
      | .ok (key, unconfirm) =>
        ({ w.setSide .host { h with phase := .done, consumed := h.consumed ++ [bytes] } with
          keyConfirmed := w.keyConfirmed && !unconfirm }).install .host key
      | .error e =>
        w.setSide .host { h with phase := .failed e, consumed := h.consumed ++ [bytes] }
    | some (w, .error e) => w.setSide .host { w.side .host with phase := .failed e }
    | none => w
  | _ => w

end World

/-- One side goes on with the key exchange; a side whose session has begun sends a message of it,
or reads one. -/
inductive Event
  | step (side : Endpoint)
  | send (side : Endpoint) (data : Bytes)
  | receive (side : Endpoint)

def handshake (S : Setup) : Machine World Event (Endpoint × Except String Bytes) where
  step w
    | .step .client => (w.stepClient S, [])
    | .step .host => (w.stepHost S, [])
    | .send e data =>
      if (w.side e).phase = .done then (w.sendFrom S e (w.side e) (.other data), []) else (w, [])
    | .receive e =>
      if (w.side e).phase = .done then
        match w.receive S e with
        | some (w, res) => (w, [(e, res)])
        | none => (w, [])
      else (w, [])

def World.init : World := ⟨fun _ => ⟨.start, ⟨none⟩, []⟩, fun _ => [], true⟩

def World.installed (w : World) (e : Endpoint) : Option Bytes :=
  (w.side e).stream.encrypt.map Encrypt.key

namespace Setup

variable (S : Setup)

def firstFrame : Bytes :=
  S.encode (match S.signPk with
    | some signPk => (S.clientReply signPk (S.encode S.signedId)).1
    | none => .none)

def agreedKey : Option Bytes :=
  match S.signPk with
  | some signPk => (S.clientReply signPk (S.encode S.signedId)).2
  | none => none

variable {S}

theorem hostReaction_clientReply (hlaw : S.Lawful) (signPk : Bytes) :
    ∃ unconfirm, S.hostReaction (S.encode (S.clientReply signPk (S.encode S.signedId)).1) =
      .ok ((S.clientReply signPk (S.encode S.signedId)).2, unconfirm) := by
  have hother (m : Message) (hm : m = .none ∨ m = .publicKey [] []) :
      ∃ unconfirm, S.hostReaction (S.encode m) = .ok (none, unconfirm) := by
    unfold hostReaction
    rw [hlaw.parse_encode]
    rcases hm with rfl | rfl
    · exact ⟨false, rfl⟩
    · exact ⟨true, rfl⟩
  unfold clientReply signedId
  rw [hlaw.parse_encode]
  dsimp only
  cases hdecode : S.decodeIdPk (S.sign (S.encodeIdPk ⟨S.id, S.hostBox.pk⟩) S.keyPair.1) signPk with
  | none => exact hother _ (Or.inr rfl)
  | some idPk =>
    -- What verifies is what the host has signed: its id and its box key.
    have hidPk : idPk = (S.id, S.hostBox.pk) := by
      unfold decodeIdPk at hdecode
      cases hverify : S.verify (S.sign (S.encodeIdPk ⟨S.id, S.hostBox.pk⟩) S.keyPair.1)
          signPk with
      | none => simp [hverify] at hdecode
      | some m =>
        obtain rfl := hlaw.verify_sign _ _ _ _ hverify
        rw [hverify] at hdecode
        simp only [Option.bind_some, hlaw.parse_encodeIdPk, getPk, hlaw.hostBox_pk, keyBytes,
          if_pos, Option.map_some, Option.some.injEq] at hdecode
        exact hdecode.symm
    subst hidPk
    dsimp only
    split
    · refine ⟨false, ?_⟩
      unfold hostReaction createSymmetricKeyMsg
      rw [hlaw.parse_encode]
      dsimp only
      rw [if_pos hlaw.clientBox_pk]
      unfold decodeKey
      rw [if_neg (not_not_intro hlaw.clientBox_pk), hlaw.open_seal]
      dsimp only
      rw [if_neg (not_not_intro hlaw.symmetricKey)]
      rfl
    · exact hother _ (Or.inl rfl)

theorem hostReaction_firstFrame (hlaw : S.Lawful) :
    ∃ unconfirm, S.hostReaction S.firstFrame = .ok (S.agreedKey, unconfirm) := by
  unfold firstFrame agreedKey
  cases S.signPk with
  | some signPk => exact hostReaction_clientReply hlaw signPk
  | none =>
    unfold hostReaction
    rw [hlaw.parse_encode]
    exact ⟨false, rfl⟩

end Setup

end LibRustdesk.Handshake
