import LibRustdesk.Common.Compress
import LibRustdesk.Framework.Keyed
import LibRustdesk.Framework.Machine
import LibRustdesk.Framework.SyncChannel
import LibRustdesk.Terminal.OutputBuffer

/-!
# Terminal sessions

`TerminalSession`, `PersistentTerminalService` and `TerminalServiceProxy` of
`src/server/terminal_service.rs`, on the platforms without a helper process.

A session is fed by its reader thread through a bounded channel and read by two functions, each
inside one critical section of the session's mutex: a `read_outputs` poll and the `handle_open`
of a reconnecting client. Both empty the channel into the replay buffer while the reader keeps
sending; what the reader sends during the loop is part of the event (`SyncChannel.recvLoop`), so
is whatever else the environment decides: which mutexes a poll finds taken, whether a PTY resizes,
how a child exited, whether a PTY opens at all.

`uid` names the `Arc` a session lives in. The reader thread and the mutex belong to the session,
not to its `terminal_id`, which `handle_open` may reassign.
-/

namespace LibRustdesk.Terminal

open LittleEndian

def channelBufferSize : ℕ := 500

def compressThreshold : ℕ := 512

def defaultReconnectBufferBytes : ℕ := 8 * 1024

def maxSigwinchPhaseAttempts : UInt8 := 3

inductive SigwinchPhase
  | idle
  | tempResize (retries : UInt8)
  | restore (retries : UInt8)
  deriving DecidableEq, Repr

inductive SigwinchAction
  | tempResize
  | restore
  deriving DecidableEq, Repr

inductive SessionState
  | closed
  | active (pendingBuffer : Option Bytes) (sigwinch : SigwinchPhase)
  deriving DecidableEq, Repr

structure TerminalSession where
  uid : ℕ
  /-- `pty_pair` is there to be resized. -/
  hasPty : Bool
  /-- `child` has not been handed to the reaper. -/
  hasChild : Bool
  outputRx : Option (SyncChannel Bytes channelBufferSize)
  /-- `reader_thread` has finished. -/
  readerFinished : Bool
  outputBuffer : OutputBuffer
  pid : UInt32
  rows : UInt16
  cols : UInt16
  closedMessageSent : Bool
  state : SessionState

structure PersistentTerminalService where
  serviceId : String
  /-- The map from `terminal_id`, in its iteration order. -/
  sessions : List (Int32 × TerminalSession)
  isPersistent : Bool
  needsSessionSync : Bool
  nextUid : ℕ

structure TerminalOpened where
  terminalId : Int32
  success : Bool
  message : String
  pid : UInt32
  serviceId : String
  persistentSessions : List Int32
  replayTerminalOutput : Bool
  deriving DecidableEq, Repr

structure TerminalData where
  terminalId : Int32
  data : Bytes
  compressed : Bool
  deriving DecidableEq, Repr

inductive TerminalResponse
  | opened (opened : TerminalOpened)
  | data (data : TerminalData)
  | closed (terminalId exitCode : Int32)
  | error (message : String)
  deriving DecidableEq, Repr

structure OpenTerminal where
  terminalId : Int32
  rows : UInt32
  cols : UInt32

structure PollEnv where
  /-- `try_lock` fails. -/
  locked : ℕ → Bool
  /-- What the reader sends before each receive of the drain. -/
  sent : ℕ → List (List Bytes)
  /-- Whether the PTY takes a size. -/
  resize : ℕ → UInt16 → UInt16 → Bool
  /-- The status `try_wait` reports. -/
  exitCode : ℕ → Option Int32

/-- What a `handle_open` finds. -/
structure OpenEnv where
  /-- What the reader of the session reconnected to sends before each receive. -/
  sent : List (List Bytes)
  /-- The process id of a new shell, or the context of the call that failed. -/
  spawn : Except String UInt32

/-! ### Sessions -/

namespace TerminalSession

/-- `TerminalSession::new` with the PTY, child, channels and threads `handle_open` installs. -/
def spawned (uid : ℕ) (pid : UInt32) (rows cols : UInt16) : TerminalSession where
  uid := uid
  hasPty := true
  hasChild := true
  outputRx := some SyncChannel.empty
  readerFinished := false
  outputBuffer := OutputBuffer.new
  pid := pid
  rows := rows
  cols := cols
  closedMessageSent := false
  state := .active none .idle

/-- `try_send_output` of the reader thread: what the channel accepted. -/
def trySendOutput (s : TerminalSession) (data : Bytes) : List Bytes × TerminalSession :=
  match s.outputRx with
  | some rx =>
    if s.readerFinished then ([], s)
    else
      let (accepted, rx) := rx.trySend data
      (accepted, { s with outputRx := some rx })
  | none => ([], s)

/-- What receiving up to `n` chunks does to the channel, while the reader sends. -/
def drain (s : TerminalSession) (n : ℕ) (sent : List (List Bytes)) :
    SyncChannel.Drained Bytes channelBufferSize :=
  match s.outputRx with
  | some rx => SyncChannel.recvLoop n (if s.readerFinished then [] else sent) rx
  | none => ⟨[], [], SyncChannel.empty⟩

/-- Receives up to `n` chunks and buffers them. -/
def receive (s : TerminalSession) (n : ℕ) (sent : List (List Bytes)) : TerminalSession :=
  { s with
    outputRx := s.outputRx.map fun _ => (s.drain n sent).channel
    outputBuffer := (s.drain n sent).received.foldl OutputBuffer.append s.outputBuffer }

/-- More receives than the unbounded loop of a poll can make. -/
def drainBound (s : TerminalSession) (sent : List (List Bytes)) : ℕ :=
  (s.outputRx.elim 0 fun rx => rx.queue.length) + sent.flatten.length + 1

end TerminalSession

/-- One poll's part in the two-phase resize: the phase it leaves, and what it attempts. -/
def SigwinchPhase.poll : SigwinchPhase → SigwinchPhase × Option SigwinchAction
  | .tempResize retries =>
    if retries = 0 then (.idle, none) else (.tempResize (retries - 1), some .tempResize)
  | .restore retries =>
    if retries = 0 then (.idle, none) else (.restore (retries - 1), some .restore)
  | .idle => (.idle, none)

/-- The phase after an attempt. A failed one keeps the phase, with its retry spent. -/
def SigwinchPhase.attempted (phase : SigwinchPhase) (action : SigwinchAction) (resizeOk : Bool) :
    SigwinchPhase :=
  match action, resizeOk with
  | .tempResize, true => .restore maxSigwinchPhaseAttempts
  | .restore, true => .idle
  | _, false => phase

def doSigwinchResize (s : TerminalSession) (resize : UInt16 → UInt16 → Bool)
    (action : SigwinchAction) : Bool :=
  if s.rows = 0 ∨ s.cols = 0 then false
  else
    let targetRows := match action with
      | .tempResize => if s.rows > 2 then s.rows - 1 else s.rows + 1
      | .restore => s.rows
    if s.hasPty then resize targetRows s.cols else false

def createTerminalDataResponse (z : Zstd) (terminalId : Int32) (data : Bytes) : TerminalResponse :=
  if data.length > compressThreshold then
    let compressed := compress z data
    if compressed.length < data.length then .data ⟨terminalId, compressed, true⟩
    else .data ⟨terminalId, data, false⟩
  else .data ⟨terminalId, data, false⟩

/-! ### `read_outputs` -/

/-- The session's reader is gone and the client has not been told. -/
def TerminalSession.shouldSendClosed (s : TerminalSession) : Bool :=
  !s.closedMessageSent && s.readerFinished

/-- The historical buffer, sent before real-time data. -/
def replayResponse (z : Zstd) (terminalId : Int32) : Option Bytes → List TerminalResponse
  | some buffer =>
    if buffer.isEmpty then [] else [createTerminalDataResponse z terminalId buffer]
  | none => []

/-- The body of the loop for one session whose mutex the poll got: its data responses. -/
def readSession (z : Zstd) (env : PollEnv) (terminalId : Int32) (s : TerminalSession) :
    TerminalSession × List TerminalResponse :=
  let sent := env.sent s.uid
  let receivedData := (s.drain (s.drainBound sent) sent).received
  let s := { s.receive (s.drainBound sent) sent with
    closedMessageSent := s.closedMessageSent || s.shouldSendClosed }
  match s.state with
  | .closed => (s, [])
  | .active pendingBuffer sigwinch =>
    let (phase, action) := sigwinch.poll
    let phase := match action with
      | some action => phase.attempted action (doSigwinchResize s (env.resize s.uid) action)
      | none => phase
    ({ s with state := .active none phase },
      replayResponse z terminalId pendingBuffer ++
        receivedData.map (createTerminalDataResponse z terminalId))

/-- One round of the loop: a session whose mutex is taken is left alone. -/
def readEntry (z : Zstd) (env : PollEnv) (e : Int32 × TerminalSession) :
    (Int32 × TerminalSession) × List TerminalResponse :=
  if env.locked e.2.uid then (e, [])
  else
    let (s, responses) := readSession z env e.1 e.2
    ((e.1, s), responses)

/-- The sessions whose end this poll notices (`closed_terminals`). -/
def closesNow (env : PollEnv) (e : Int32 × TerminalSession) : Bool :=
  !env.locked e.2.uid && e.2.shouldSendClosed

/-- What happens to the map entry of a closed terminal. -/
def cleanupEntry (isPersistent closed : Bool) (e : Int32 × TerminalSession) :
    Option (Int32 × TerminalSession) :=
  if closed then
    if isPersistent then some (e.1, { e.2 with hasChild := false }) else none
  else some e

def closedResponse (env : PollEnv) (e : Int32 × TerminalSession) : TerminalResponse :=
  .closed e.1 (if e.2.hasChild then (env.exitCode e.2.uid).getD 0 else 0)

def readOutputs (z : Zstd) (env : PollEnv) (service : PersistentTerminalService) :
    PersistentTerminalService × List TerminalResponse :=
  ({ service with
      sessions := service.sessions.filterMap fun e =>
        cleanupEntry service.isPersistent (closesNow env e) (readEntry z env e).1 },
    service.sessions.flatMap (fun e => (readEntry z env e).2) ++
      (service.sessions.filter (closesNow env)).map (closedResponse env))

/-! ### The other entry points -/

namespace PersistentTerminalService

def new (serviceId : String) (isPersistent : Bool) : PersistentTerminalService :=
  ⟨serviceId, [], isPersistent, false, 0⟩

def containsKey (service : PersistentTerminalService) (id : Int32) : Bool :=
  (Keyed.item? Prod.fst id service.sessions).isSome

def mapSessions (service : PersistentTerminalService)
    (f : Int32 × TerminalSession → TerminalSession) : PersistentTerminalService :=
  { service with sessions := service.sessions.map fun e => (e.1, f e) }

def resetStatus (service : PersistentTerminalService) (isPersistent : Bool) :
    PersistentTerminalService :=
  { service.mapSessions fun e => { e.2 with state := .closed } with
    isPersistent := isPersistent
    needsSessionSync := true }

/-- The session with the lowest id answers to the id the client asked for, when that id is
unknown and the client has just come back. -/
def remapLowest (service : PersistentTerminalService) (id : Int32) : PersistentTerminalService :=
  if !service.containsKey id && service.needsSessionSync && !service.sessions.isEmpty then
    match (service.sessions.map Prod.fst).min? with
    | some lowestId =>
      { service with sessions := service.sessions.map fun e =>
          if e.1 = lowestId then (id, e.2) else e }
    | none => service
  else service

end PersistentTerminalService

/-- Whether there is anything to replay, and the session after the reconnect. -/
def TerminalSession.reconnect (s : TerminalSession) (sent : List (List Bytes)) :
    Bool × TerminalSession :=
  let backlog := (s.drain channelBufferSize sent).received
  let buffer :=
    -- The history alone, unless the channel had something to add to it.
    if backlog.isEmpty then s.outputBuffer.getRecent defaultReconnectBufferBytes
    else (s.receive channelBufferSize sent).outputBuffer.getRecent defaultReconnectBufferBytes
  let hasPending := !buffer.isEmpty
  (hasPending,
    { s.receive channelBufferSize sent with
      state := .active (if hasPending then some buffer else none)
        (.tempResize maxSigwinchPhaseAttempts) })

/-- `handle_open`, for a map in which the lowest id has been reassigned already. -/
def openSession (env : OpenEnv) (request : OpenTerminal) (service : PersistentTerminalService) :
    PersistentTerminalService × TerminalResponse :=
  let id := request.terminalId
  match Keyed.item? Prod.fst id service.sessions with
  | some (_, session) =>
    let hasPending := (session.reconnect env.sent).1
    ({ service.mapSessions fun e => if e.1 = id then (e.2.reconnect env.sent).2 else e.2 with
        needsSessionSync := false },
      .opened
        { terminalId := id
          success := true
          message :=
            if hasPending then "Reconnected to existing terminal with pending output"
            else "Reconnected to existing terminal"
          pid := session.pid
          serviceId := service.serviceId
          persistentSessions :=
            if service.needsSessionSync && service.sessions.length > 1 then
              (service.sessions.map Prod.fst).filter fun k => k != id
            else []
          replayTerminalOutput := hasPending })
  | none =>
    match env.spawn with
    | .error context => (service, .error ("Failed to handle action: " ++ context))
    | .ok pid =>
      ({ service with
          sessions := service.sessions ++
            [(id, .spawned service.nextUid pid request.rows.toUInt16 request.cols.toUInt16)]
          needsSessionSync := false
          nextUid := service.nextUid + 1 },
        .opened
          { terminalId := id
            success := true
            message := "Terminal opened"
            pid := pid
            serviceId := service.serviceId
            persistentSessions :=
              if service.needsSessionSync then service.sessions.map Prod.fst else []
            replayTerminalOutput := false })

def handleOpen (env : OpenEnv) (request : OpenTerminal) (service : PersistentTerminalService) :
    PersistentTerminalService × TerminalResponse :=
  openSession env request (service.remapLowest request.terminalId)

/-- `handle_close`. The entry is gone even when its child cannot be killed. -/
def handleClose (id : Int32) (kill : Except String Unit) (service : PersistentTerminalService) :
    PersistentTerminalService × List TerminalResponse :=
  let removed := { service with sessions := service.sessions.filter fun e => e.1 != id }
  match Keyed.item? Prod.fst id service.sessions with
  | some (_, session) =>
    if session.hasChild then
      match kill with
      | .ok () => (removed, [.closed id (-1)])
      | .error context => (removed, [.error ("Failed to handle action: " ++ context)])
    else (removed, [.closed id 0])
  | none => (service, [])

/-- `handle_resize`. The size is recorded before the PTY is asked to take it. -/
def handleResize (id : Int32) (rows cols : UInt32) (resize : Except String Unit)
    (service : PersistentTerminalService) :
    PersistentTerminalService × List TerminalResponse :=
  match Keyed.item? Prod.fst id service.sessions with
  | some (_, session) =>
    (service.mapSessions fun e =>
        if e.1 = id then { e.2 with rows := rows.toUInt16, cols := cols.toUInt16 } else e.2,
      match session.hasPty, resize with
      | true, .error context => [.error ("Failed to handle action: " ++ context)]
      | _, _ => [])
  | none => (service, [])

/-! ### The service as a machine -/

inductive Event
  /-- The reader of a session tries to send a chunk. -/
  | chunk (uid : ℕ) (data : Bytes)
  /-- The reader of a session exits. -/
  | readerExit (uid : ℕ)
  | poll (env : PollEnv)
  /-- A connection comes or comes back (`get_or_create_service`). -/
  | reset (isPersistent : Bool)
  | openTerminal (env : OpenEnv) (request : OpenTerminal)
  | closeTerminal (id : Int32) (kill : Except String Unit)
  | resizeTerminal (id : Int32) (rows cols : UInt32) (resize : Except String Unit)
  | setPersistent (isPersistent : Bool)

/-- The service, its clients, the reader threads and the poller, one critical section a step. -/
def machine (z : Zstd) : Machine PersistentTerminalService Event TerminalResponse where
  step service
    | .chunk uid data =>
      (service.mapSessions fun e =>
        if e.2.uid = uid then (e.2.trySendOutput data).2 else e.2, [])
    | .readerExit uid =>
      (service.mapSessions fun e =>
        if e.2.uid = uid then { e.2 with readerFinished := true } else e.2, [])
    | .poll env => readOutputs z env service
    | .reset isPersistent => (service.resetStatus isPersistent, [])
    | .openTerminal env request =>
      let (service, response) := handleOpen env request service
      (service, [response])
    | .closeTerminal id kill => handleClose id kill service
    | .resizeTerminal id rows cols resize => handleResize id rows cols resize service
    | .setPersistent isPersistent => ({ service with isPersistent := isPersistent }, [])

end LibRustdesk.Terminal
