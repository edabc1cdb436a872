import LibRustdesk.Net.Switching
import LibRustdesk.Server.Tunnel

/-!
# A session that forwards a port

`connect_and_login` and `run_forward` of `src/port_forward.rs` at one end, and at the other the loop
of `Connection::start` with `try_port_forward_loop` of `src/server/connection.rs`. The ends share a
stream, which each of them switches from messages to bytes by itself: the client when it reads the
`PeerInfo`, the host when it has let the client in and awaits no reply to a `TestDelay`.

The network is the event list: it decides how much arrives and when, which end moves, and how the
bytes of the local connection and of the target are cut. The host is the connection of
`Server/OnMessage`. What it sends besides the `PeerInfo` and the `TestDelay` of its timer, and what
the client sends besides replies, are events of their own. `protobuf` is outside the repository, so
it is a parameter (`Proto`).

`State.Exact` is what a session is for. `State.Orderly` is what it takes:

* When the connection manager makes the host leave its loop, no reply is awaited, and all that the
  client has sent has been read. The arm of a message looks for the first by itself.
* When a message does, only replies can be unread.
* When the host has let the client in it sends nothing more, and nothing else makes it leave its
  loop. When the host forwards the client sends nothing by itself.
* A code is not read before a login.
-/

namespace LibRustdesk.Desktop.PortForward

open BytesCodec (maxPayloadLength)

abbrev Payload := {m : Bytes // m.length + macBytes ≤ maxPayloadLength}

/-! ### Messages -/

/-- What a client that wants a port forwarded looks for in a message. -/
inductive Answer
  | testDelay (fromClient : Bool)
  | peerInfo
  | error
  | other
  deriving DecidableEq

/-- `protobuf`: how the two ends read messages, and what those look like that the session itself
is made of. -/
structure Proto where
  /-- `Message::parse_from_bytes` of the host. -/
  parse : Bytes → Option Message
  /-- `Message::parse_from_bytes` of the client. -/
  answer : Bytes → Option Answer
  /-- The `LoginResponse` with the `PeerInfo` of a host. -/
  peerInfo : World → Payload
  /-- The `TestDelay` of the timer of a host. -/
  testDelay : World → Payload
  /-- The `TestDelay` that has been read, sent back. -/
  reply : Bytes → Payload

namespace Proto

variable (P : Proto)

structure Lawful : Prop where
  answer_peerInfo : ∀ w, P.answer (P.peerInfo w) = some .peerInfo
  answer_testDelay : ∀ w, P.answer (P.testDelay w) = some (.testDelay false)
  parse_reply : ∀ m, P.answer m = some (.testDelay false) →
    P.parse (P.reply m) = some (.testDelay false)

/-- A `TestDelay` of the host. -/
def isTestDelay (m : Bytes) : Bool := P.answer m = some (.testDelay false)

def isReply (m : Bytes) : Bool := P.parse m = some (.testDelay false)

def Asks (m : Bytes) : Prop := ∀ msg, P.parse m = some msg → World.Asks msg

/-- What else a host sends: its `Hash`, errors, permissions and the like. -/
def Tells (m : Bytes) : Prop := P.isTestDelay m = false ∧ P.answer m ≠ some .peerInfo

end Proto

/-! ### The session -/

structure Host (Key : Type) where
  world : World
  stream : TcpStream Key
  /-- The connection has been given up. -/
  closed : Bool

structure Client (Key : Type) where
  stream : TcpStream Key
  /-- What has been read from the local connection before the login was through. -/
  buffer : Bytes
  /-- `run_forward` has been started. -/
  forwarding : Bool
  closed : Bool

/-- Both ends, what is on the wire, and what has been sent and read so far: messages between the
ends, and bytes from and to the local connection and the target. -/
structure State (Key : Type) where
  host : Host Key
  client : Client Key
  toHost : Bytes
  toClient : Bytes
  clientSent : List Bytes
  hostRead : List Bytes
  hostSent : List Bytes
  clientRead : List Bytes
  localIn : Bytes
  localOut : Bytes
  targetIn : Bytes
  targetOut : Bytes

inductive HostEvent (P : Proto)
  /-- Some bytes arrive. -/
  | receives (n : ℕ)
  /-- A turn on the stream. -/
  | reads (env : Env)
  | cm (env : Env) (d : CmData)
  | testDelayTimer
  | others (shared : Shared) (services : List ServiceName)
  | sends (m : Payload) (h : P.Tells m)
  /-- A turn on the socket of the target. -/
  | targetReads (data : Bytes)
  /-- Another way out of the loop: a timeout, the end of the stream, a stop from elsewhere. -/
  | leaves
  | closes

inductive ClientEvent (P : Proto)
  /-- Some bytes arrive. -/
  | receives (n : ℕ)
  /-- A turn on the stream, with the answer of `handle_login_error`. -/
  | reads (retry : Bool)
  | sends (m : Payload) (h : P.Asks m)
  /-- A turn on the local connection. -/
  | localReads (data : Bytes)
  | closes

inductive Event (P : Proto)
  | host (ev : HostEvent P)
  | client (ev : ClientEvent P)

namespace State

variable {Key : Type} (box : SecretBox Key) (P : Proto) (s : State Key)

/-- A session of two ends that have just been connected. -/
def start (o : Opening) (host client : FramedStream Key) : State Key where
  host := ⟨.start o, .new host, false⟩
  client := ⟨.new client, [], false, false⟩
  toHost := []
  toClient := []
  clientSent := []
  hostRead := []
  hostSent := []
  clientRead := []
  localIn := []
  localOut := []
  targetIn := []
  targetOut := []

/-! ### The host -/

def hostSend (m : Bytes) : State Key :=
  let (stream, bytes) := s.host.stream.sendRaw box m
  { s with
    host := { s.host with stream := stream }
    toClient := s.toClient ++ bytes
    hostSent := s.hostSent ++ [m] }

/-- The host goes on in another state. Where it starts to forward it switches its stream. -/
def enter (w : World) : State Key :=
  let stream := if w.forwards && !s.host.world.forwards then s.host.stream.setRaw
    else s.host.stream
  { s with host := { s.host with world := w, stream := stream } }

/-- A message or a command. The client is told that it is let in. -/
def logsOn (ev : Desktop.Event) : State Key :=
  let w := Desktop.step s.host.world ev
  let s := if w.conn.authorized && !s.host.world.conn.authorized then
      s.hostSend box (P.peerInfo w) else s
  s.enter w

def onTestDelayTimer : State Key :=
  let w := Desktop.step s.host.world .testDelayTimer
  let s := if w.conn.lastTestDelay && !s.host.world.conn.lastTestDelay then
      s.hostSend box (P.testDelay s.host.world) else s
  s.enter w

/-- The loop is left for a reason that has nothing to do with the login. -/
def leave : State Key := s.enter { s.host.world with ended := true }

/-- A turn of `conn.stream.next()` in the loop. -/
def hostLoopReads (env : Env) : State Key :=
  match s.host.stream.next box with
  | (stream, none) => { s with host := { s.host with stream := stream } }
  | (stream, some (.error _)) =>
    let s := { s with host := { s.host with stream := stream } }
    s.leave
  | (stream, some (.ok bytes)) =>
    let s := { s with
      host := { s.host with stream := stream }
      hostRead := s.hostRead ++ [bytes] }
    match P.parse bytes with
    | some m => s.logsOn box P (.message env m)
    | none => s

/-- A turn of `self.stream.next()` in `try_port_forward_loop`. -/
def hostForwards : State Key :=
  match s.host.stream.next box with
  | (stream, none) => { s with host := { s.host with stream := stream } }
  | (stream, some (.error _)) =>
    { s with host := { s.host with stream := stream, closed := true } }
  | (stream, some (.ok bytes)) =>
    { s with
      host := { s.host with stream := stream }
      targetOut := s.targetOut ++ bytes }

def hostReads (env : Env) : State Key :=
  if s.host.world.forwards then s.hostForwards box
  else if s.host.world.ended then s
  else s.hostLoopReads box P env

/-! ### The client -/

def clientSend (m : Bytes) : State Key :=
  let (stream, bytes) := s.client.stream.sendRaw box m
  { s with
    client := { s.client with stream := stream }
    toHost := s.toHost ++ bytes
    clientSent := s.clientSent ++ [m] }

/-- What comes after the loop of `connect_and_login`. -/
def runForward : State Key :=
  let stream := s.client.stream.setRaw
  let bytes := if s.client.buffer = [] then [] else stream.sendBytes s.client.buffer
  { s with
    client := { s.client with stream := stream, buffer := [], forwarding := true }
    toHost := s.toHost ++ bytes }

/-- A turn of `stream.next()` in `connect_and_login`. -/
def clientLoopReads (retry : Bool) : State Key :=
  match s.client.stream.next box with
  | (stream, none) => { s with client := { s.client with stream := stream } }
  | (stream, some (.error _)) =>
    { s with client := { s.client with stream := stream, closed := true } }
  | (stream, some (.ok bytes)) =>
    let s := { s with
      client := { s.client with stream := stream }
      clientRead := s.clientRead ++ [bytes] }
    match P.answer bytes with
    | none => { s with client := { s.client with closed := true } }
    | some (.testDelay fromClient) => if fromClient then s else s.clientSend box (P.reply bytes)
    | some .peerInfo => s.runForward
    | some .error => { s with client := { s.client with closed := !retry } }
    | some .other => s

/-- A turn of `stream.next()` in `run_forward`. -/
def clientForwards : State Key :=
  match s.client.stream.next box with
  | (stream, none) => { s with client := { s.client with stream := stream } }
  | (stream, some (.error _)) =>
    { s with client := { s.client with stream := stream, closed := true } }
  | (stream, some (.ok bytes)) =>
    { s with
      client := { s.client with stream := stream }
      localOut := s.localOut ++ bytes }

def clientReads (retry : Bool) : State Key :=
  if s.client.forwarding then s.clientForwards box else s.clientLoopReads box P retry

def localReads (data : Bytes) : State Key :=
  let s := { s with localIn := s.localIn ++ data }
  if s.client.forwarding then { s with toHost := s.toHost ++ s.client.stream.sendBytes data }
  else { s with client := { s.client with buffer := s.client.buffer ++ data } }

def targetReads (data : Bytes) : State Key :=
  if s.host.world.forwards then
    { s with
      targetIn := s.targetIn ++ data
      toClient := s.toClient ++ s.host.stream.sendBytes data }
  else s

/-! ### Steps -/

def hostStep : HostEvent P → State Key
  | .receives n =>
    { s with
      host := { s.host with stream := s.host.stream.receive (s.toHost.take n) }
      toHost := s.toHost.drop n }
  | .reads env => s.hostReads box P env
  | .cm env d => s.logsOn box P (.cm env d)
  | .testDelayTimer => s.onTestDelayTimer box P
  | .others shared services => s.enter (Desktop.step s.host.world (.others shared services))
  | .sends m _ => if s.host.world.ended then s else s.hostSend box m
  | .targetReads data => s.targetReads data
  | .leaves => s.leave
  | .closes => { s with host := { s.host with closed := true } }

def clientStep : ClientEvent P → State Key
  | .receives n =>
    { s with
      client := { s.client with stream := s.client.stream.receive (s.toClient.take n) }
      toClient := s.toClient.drop n }
  | .reads retry => s.clientReads box P retry
  | .sends m _ => if s.client.forwarding then s else s.clientSend box m
  | .localReads data => s.localReads data
  | .closes => { s with client := { s.client with closed := true } }

/-- A step of a session. An end that has closed does nothing more. -/
def step : Event P → State Key
  | .host ev => if s.host.closed then s else s.hostStep box P ev
  | .client ev => if s.client.closed then s else s.clientStep box P ev

end State

/-- Nothing is put out: what has been delivered is in the session. -/
def session {Key : Type} (box : SecretBox Key) (P : Proto) :
    Machine (State Key) (Event P) Unit := ⟨fun s ev => (s.step box P ev, [])⟩

/-! ### What a session is for -/

namespace State

variable {Key : Type} (box : SecretBox Key) (P : Proto) (s : State Key)

/-- What the client has sent and the host has not read, and the other way round. -/
def unreadByHost : List Bytes := s.clientSent.drop s.hostRead.length

def unreadByClient : List Bytes := s.hostSent.drop s.clientRead.length

def Settled : Prop :=
  s.toHost = [] ∧ s.host.stream.buffer = [] ∧ s.toClient = [] ∧ s.client.stream.buffer = []

/-- Each end gets exactly what the other has put in: the target the bytes of the local connection,
the local connection those of the target, and the ends the messages of each other. -/
structure Exact : Prop where
  target : s.targetOut <+: s.localIn
  localEnd : s.localOut <+: s.targetIn
  host : s.hostRead <+: s.clientSent
  client : s.clientRead <+: s.hostSent
  /-- Nothing is lost. -/
  settled : s.host.world.forwards = true → s.client.forwarding = true → s.Settled →
    s.targetOut = s.localIn ∧ s.localOut = s.targetIn
  /-- A host that has let the client in and is in its loop has a reply to expect. -/
  awaits : s.host.world.conn.authorized = true → s.host.world.forwards = false →
    (∃ m ∈ s.unreadByClient, P.isTestDelay m = true) ∨
      ∃ m ∈ s.unreadByHost, P.isReply m = true

/-- The message that a turn of the host in its loop reads. -/
def nextMessage : Option Message :=
  match (s.host.stream.next box).2 with
  | some (.ok bytes) => P.parse bytes
  | _ => none

/-- What has to hold before the host does something, as the header has it. -/
def HostOrderly : HostEvent P → Prop
  | .reads env => s.host.world.forwards = false → ∀ m ∈ s.nextMessage box P,
    s.host.world.InTurn m ∧ ((Desktop.step s.host.world (.message env m)).forwards = true →
      ∀ b ∈ s.unreadByHost.tail, P.isReply b = true)
  | .cm env d => s.host.world.forwards = false →
    (Desktop.step s.host.world (.cm env d)).forwards = true →
      s.host.world.conn.lastTestDelay = false ∧ s.unreadByHost = []
  | .leaves => s.host.world.ended = false → s.host.world.conn.authorized = false
  | .sends _ _ => s.host.world.ended = false → s.host.world.conn.authorized = false
  | _ => True

def ClientOrderly : ClientEvent P → Prop
  | .sends _ _ => s.client.forwarding = false → s.host.world.forwards = false
  | _ => True

/-- A step by which the ends do not get into each other's way. -/
def Orderly : Event P → Prop
  | .host ev => s.host.closed = false → s.HostOrderly box P ev
  | .client ev => s.client.closed = false → s.ClientOrderly P ev

instance (ev : HostEvent P) : Decidable (s.HostOrderly box P ev) :=
  match ev with
  | .reads env => inferInstanceAs (Decidable (s.host.world.forwards = false →
      ∀ m ∈ s.nextMessage box P, s.host.world.InTurn m ∧
        ((Desktop.step s.host.world (.message env m)).forwards = true →
          ∀ b ∈ s.unreadByHost.tail, P.isReply b = true)))
  | .cm env d => inferInstanceAs (Decidable (s.host.world.forwards = false →
      (Desktop.step s.host.world (.cm env d)).forwards = true →
        s.host.world.conn.lastTestDelay = false ∧ s.unreadByHost = []))
  | .leaves => inferInstanceAs (Decidable (s.host.world.ended = false →
      s.host.world.conn.authorized = false))
  | .sends _ _ => inferInstanceAs (Decidable (s.host.world.ended = false →
      s.host.world.conn.authorized = false))
  | .receives _ | .testDelayTimer | .others _ _ | .targetReads _ | .closes =>
    inferInstanceAs (Decidable True)

instance (ev : ClientEvent P) : Decidable (s.ClientOrderly P ev) :=
  match ev with
  | .sends _ _ => inferInstanceAs (Decidable (s.client.forwarding = false →
      s.host.world.forwards = false))
  | .receives _ | .reads _ | .localReads _ | .closes => inferInstanceAs (Decidable True)

instance (ev : Event P) : Decidable (s.Orderly box P ev) :=
  match ev with
  | .host ev => inferInstanceAs (Decidable (s.host.closed = false → s.HostOrderly box P ev))
  | .client ev => inferInstanceAs (Decidable (s.client.closed = false → s.ClientOrderly P ev))

end State

end LibRustdesk.Desktop.PortForward
