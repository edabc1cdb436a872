import LibRustdesk.Ohos.Password
import LibRustdesk.Ohos.Server

/-!
# The connection tasks of the OHOS server

`Connection::start`, `handle_incoming_message` and `cleanup_connection` of
`harmony_bridge/server_ohos.rs`, as a machine over any number of connections.

A task runs without interruption between its `await`s. The only one with an effect on either side
is the sending of the answer to an accepted login: before it the new connection has replaced an
older one of the same peer, after it the connection is added to the server. So an accepted login
is two steps, `message` and `resume`, and other tasks move in between.

What the configuration and the native input layer answer comes with the message. The contents of a
login response, the negotiated encoders and the clipboard payloads are left out.

The proofs about runs rest on `change_next`, which lists what a step can do to the server and to
the tasks.
-/

namespace LibRustdesk

namespace Ohos

open Bridge (displayInt)

/-! ### Messages -/

/-- `ControlKey` values that are modifiers. -/
def controlKeyMask (value : Int32) : UInt32 :=
  if value = 1 ∨ value = 75 then 1
  else if value = 4 ∨ value = 74 then 2
  else if value = 29 ∨ value = 73 then 4
  else if value = 23 ∨ value = 64 then 8
  else 0

/-- The `union` of a `KeyEvent`. -/
inductive KeyUnion
  | controlKey (value : Int32)
  | chr (value : UInt32)
  | unicode (value : UInt32)
  | seq (value : List Char)
  | win2winHotkey (value : UInt32)
  deriving DecidableEq, Repr

structure KeyEvent where
  down : Bool
  press : Bool
  union : Option KeyUnion
  modifiers : List Int32
  deriving DecidableEq, Repr

inductive BoolOption
  | notSet
  | no
  | yes
  deriving DecidableEq, Repr

/-- The fields of an `OptionMessage` that the connection reads; `none` is a value outside the
enumeration. -/
structure OptionMessage where
  disableKeyboard : Option BoolOption
  disableClipboard : Option BoolOption
  disableAudio : Option BoolOption
  deriving DecidableEq, Repr

structure TestDelay where
  time : Int64
  fromClient : Bool
  lastDelay : UInt32
  targetBitrate : UInt32
  deriving DecidableEq, Repr

/-- The `union` of a `Misc`; `other` is any that the connection ignores. -/
inductive Misc
  | chatMessage (text : List Char)
  | switchDisplay (display : Int32)
  | refreshVideo (value : Bool)
  | option (opt : OptionMessage)
  | stopService (value : Bool)
  | other
  deriving DecidableEq, Repr

/-- The `union` of a `Message`; `other` is any that the connection ignores. -/
inductive Message
  | loginRequest (lr : LoginRequest)
  | mouseEvent (mask x y : Int32)
  | keyEvent (event : KeyEvent)
  | cliprdr
  | multiClipboards
  | fileAction
  | misc (misc : Misc)
  | testDelay (td : TestDelay)
  | other
  deriving DecidableEq, Repr

/-! ### The world -/

/-- The variables of one `Connection::start`. A task is `pending` while it sends the answer to a
login it has accepted. -/
structure Task where
  inner : ConnInner
  hash : Hash
  authorized : Bool
  keyboard : Bool
  clipboard : Bool
  audio : Bool
  lr : LoginRequest
  servicesSubed : Bool
  pending : Bool

/-- `lr.union == Some(FileTransfer(Default::default()))`. -/
def isFileTransfer (lr : LoginRequest) : Bool := lr.union = some (.fileTransfer [] false [])

/-- A task that will add itself to the server when the answer to its login is sent. -/
def Task.joins (task : Task) : Bool :=
  task.pending && (!task.servicesSubed && !isFileTransfer task.lr)

/-- The permissions of a task after an `OptionMessage`. -/
def Task.withOption (task : Task) (opt : OptionMessage) : Task :=
  let task := if opt.disableKeyboard = some .yes then { task with keyboard := false } else task
  let task := if opt.disableClipboard = some .yes then { task with clipboard := false } else task
  if opt.disableAudio = some .yes then { task with audio := false } else task

theorem Task.withOption_inner (task : Task) (opt : OptionMessage) :
    (task.withOption opt).inner = task.inner := by
  unfold Task.withOption
  split_ifs <;> rfl

theorem Task.withOption_authorized (task : Task) (opt : OptionMessage) :
    (task.withOption opt).authorized = task.authorized := by
  unfold Task.withOption
  split_ifs <;> rfl

theorem Task.withOption_pending (task : Task) (opt : OptionMessage) :
    (task.withOption opt).pending = task.pending := by
  unfold Task.withOption
  split_ifs <;> rfl

/-- The server, `ALIVE_CONNS`, `PEER_CONNS`, the ids of the connections that are shaking hands,
and the tasks that are running. -/
structure World where
  server : Server
  handshakes : List Int32
  aliveConns : List Int32
  peerConns : Table (List Char) Int32
  tasks : Table ℕ Task
  nextTask : ℕ

inductive OutMsg
  | hash (hash : Hash)
  | loginError (error : List Char)
  | peerInfo
  | testDelay (td : TestDelay)
  | closeReason (reason : List Char)
  deriving DecidableEq, Repr

/-- Calls out of the server: the native input layer, the bridge's event queue, the peers. A frame
goes to every channel of a table of subscribers. -/
inductive Out
  | injectMouse (task : ℕ) (mask x y : Int32)
  | injectKey (task : ℕ) (controlKey : Int32) (unicodeValue : UInt32) (down press : Bool)
      (modifiers : UInt32)
  | queueEvent (kind detail peerId : List Char)
  | send (task : ℕ) (msg : OutMsg)
  | frame (service : List Char) (recipients : Table Int32 ConnInner)

/-- What a message finds: the configuration, and the results of the injections it makes. -/
structure Env where
  config : Config
  injectResults : List Int32

inductive Event
  | accept
  | handshakeFailed (id : Int32)
  | connect (id : Int32) (hash : Hash) (hashSent : Bool)
  | message (task : ℕ) (msg : Message) (env : Env)
  | resume (task : ℕ)
  | hangup (task : ℕ)
  | sendFrame (service : List Char)
  | snapshot (service : List Char)

namespace World

def start (idCount : Int32) : World where
  server := Server.new idCount
  handshakes := []
  aliveConns := []
  peerConns := Table.empty
  tasks := Table.empty
  nextTask := 0

/-- `cleanup_connection`, at the end of a task. -/
def cleanupConnection (w : World) (t : ℕ) (inner : ConnInner) : World × List Out :=
  ({ w with
      aliveConns := w.aliveConns.filter (· ≠ inner.id)
      peerConns := w.peerConns.retain fun _ v => v ≠ inner.id
      server := w.server.removeConnection inner
      tasks := w.tasks.remove t },
    [.queueEvent "connection-closed".toList ("id=".toList ++ displayInt inner.id.toInt) []])

/-- `create_tcp_connection`, up to the handshake. -/
def accept (w : World) : World :=
  let (server, id) := w.server.getNewId
  { w with server := server, handshakes := w.handshakes ++ [id] }

/-- The start of `Connection::start`: the greeting is sent, or the task ends. -/
def connect (w : World) (id : Int32) (hash : Hash) (hashSent : Bool) : World × List Out :=
  let t := w.nextTask
  let inner : ConnInner := ⟨id, t⟩
  let task : Task :=
    { inner := inner, hash := hash, authorized := false, keyboard := true, clipboard := true,
      audio := true, lr := .default, servicesSubed := false, pending := false }
  let w := { w with
    handshakes := w.handshakes.erase id
    aliveConns := w.aliveConns ++ [id]
    tasks := w.tasks.insert t task
    nextTask := t + 1 }
  if hashSent then (w, [.send t (.hash hash)])
  else
    let (w, outs) := w.cleanupConnection t inner
    (w, .send t (.hash hash) :: outs)

/-! ### Input -/

def inputModifierMask (event : KeyEvent) : UInt32 :=
  event.modifiers.foldl (fun mask modifier => mask ||| controlKeyMask modifier) 0

/-- A text, one press a character, up to the first that fails. -/
def injectSeq (t : ℕ) (modifiers : UInt32) : List Char → List Int32 → Int32 × List Out
  | [], _ => (0, [])
  | c :: cs, results =>
    let current := results.headD 0
    let call := Out.injectKey t (-1) c.val true true modifiers
    if current ≠ 0 then (current, [call])
    else
      let (result, calls) := injectSeq t modifiers cs results.tail
      (result, call :: calls)

/-- `inject_key_event`: the kind and result it reports, and the calls it makes. -/
def injectKeyEvent (t : ℕ) (event : KeyEvent) (results : List Int32) :
    List Char × Int32 × List Out :=
  let modifiers := inputModifierMask event
  let result := results.headD 0
  match event.union with
  | some (.controlKey value) =>
    ("control".toList, result, [.injectKey t value 0 event.down event.press modifiers])
  | some (.chr value) =>
    ("position".toList, result, [.injectKey t (-1) value event.down event.press modifiers])
  | some (.unicode value) =>
    ("unicode".toList, result, [.injectKey t (-1) value event.down event.press modifiers])
  | some (.seq value) =>
    let (result, calls) := injectSeq t modifiers value results
    ("sequence".toList, result, calls)
  | some (.win2winHotkey value) =>
    ("hotkey".toList, result,
      [.injectKey t (-1) (value &&& 0xffff) event.down event.press modifiers])
  | none => ("none".toList, 401, [])

def displayBool (b : Bool) : List Char := if b then "true".toList else "false".toList

/-- The arm of a `MouseEvent`. -/
def handleMouseEvent (t : ℕ) (task : Task) (mask x y : Int32) (env : Env) : List Out :=
  if task.keyboard then
    let result := env.injectResults.headD 0
    [.injectMouse t mask x y,
      .queueEvent "mouse-input".toList
        ("mask=".toList ++ displayInt mask.toInt ++ ";x=".toList ++ displayInt x.toInt ++
          ";y=".toList ++ displayInt y.toInt ++ ";result=".toList ++ displayInt result.toInt) []]
  else []

/-- The arm of a `KeyEvent`. -/
def handleKeyEvent (t : ℕ) (task : Task) (event : KeyEvent) (env : Env) : List Out :=
  if task.keyboard then
    let (controlKey, unicodeValue) : Int32 × UInt32 :=
      match event.union with
      | some (.controlKey value) => (value, 0)
      | some (.chr value) => (-1, value)
      | _ => (-1, 0)
    let modifiers := inputModifierMask event
    let (kind, result, calls) := injectKeyEvent t event env.injectResults
    calls ++
      [.queueEvent "keyboard-input".toList
        ("kind=".toList ++ kind ++ ";control=".toList ++ displayInt controlKey.toInt ++
          ";unicode=".toList ++ displayInt unicodeValue.toNat ++
          ";down=".toList ++ displayBool event.down ++
          ";press=".toList ++ displayBool event.press ++
          ";modifiers=".toList ++ displayInt modifiers.toNat ++
          ";result=".toList ++ displayInt result.toInt) []]
  else []

/-! ### Logging in -/

def loginMsgPasswordWrong : List Char := "Wrong Password".toList

/-- The registered connection of the peer `myId` when a connection `id` of it logs in, where it is
another one and still alive. -/
def replaced (w : World) (myId : List Char) (id : Int32) : Option Int32 :=
  match w.peerConns myId with
  | some oldId => if oldId ≠ id ∧ oldId ∈ w.aliveConns then some oldId else none
  | none => none

/-- The replacement of an older connection of the same peer. -/
def replaceOld (w : World) (myId : List Char) (id : Int32) : World × List Out :=
  let peerConns := w.peerConns.insert myId id
  match w.replaced myId id with
  | some oldId =>
    let outs :=
      match w.server.connections oldId with
      | some oldConn =>
        [.send oldConn.tx (.closeReason "Replaced by new connection".toList)]
      | none => []
    ({ w with
        peerConns := peerConns
        aliveConns := w.aliveConns.filter (· ≠ oldId)
        server := { w.server with connections := w.server.connections.remove oldId } }, outs)
  | none => ({ w with peerConns := peerConns }, [])

/-- The arm of a `LoginRequest`, up to the sending of the answer. -/
def handleLoginRequest (crypto : Crypto) (w : World) (t : ℕ) (task : Task) (lr : LoginRequest)
    (env : Env) : World × List Out :=
  if validatePassword crypto env.config task.hash lr then
    let task := { task with lr := lr, authorized := true, pending := true }
    let (w, outs) := w.replaceOld lr.myId task.inner.id
    ({ w with tasks := w.tasks.insert t task }, outs ++ [.send t .peerInfo])
  else
    ({ w with tasks := w.tasks.insert t { task with lr := lr } },
      [.send t (.loginError loginMsgPasswordWrong),
        .queueEvent "login-failed".toList
          ("id=".toList ++ lr.myId ++ " wrong password".toList) lr.myId])

/-- The arm of a `LoginRequest`, after the sending of the answer. -/
def finishLogin (w : World) (t : ℕ) (task : Task) : World × List Out :=
  let event := Out.queueEvent "login-authorized".toList
    ("id=".toList ++ task.lr.myId ++ " name=".toList ++ task.lr.myName) task.lr.myId
  if !task.servicesSubed && !isFileTransfer task.lr then
    let task := { task with pending := false, servicesSubed := true }
    let noperms := if !task.audio then [audioName] else []
    let server := w.server.tryAddPrimayVideoService
    let server := server.addConnection task.inner noperms
    ({ w with server := server, tasks := w.tasks.insert t task }, [event])
  else ({ w with tasks := w.tasks.insert t { task with pending := false } }, [event])

/-! ### The other messages -/

def handleOptionMessage (w : World) (t : ℕ) (task : Task) (opt : OptionMessage) : World :=
  let task := task.withOption opt
  let server := if !task.audio then w.server.subscribe audioName task.inner false else w.server
  { w with server := server, tasks := w.tasks.insert t task }

def handleIncomingMessage (crypto : Crypto) (w : World) (t : ℕ) (task : Task) (msg : Message)
    (env : Env) : World × List Out :=
  match msg with
  | .loginRequest lr => w.handleLoginRequest crypto t task lr env
  | .mouseEvent mask x y => (w, handleMouseEvent t task mask x y env)
  | .keyEvent event => (w, handleKeyEvent t task event env)
  | .cliprdr => (w, [.queueEvent "clipboard".toList "clip-from-peer".toList []])
  | .multiClipboards => (w, [.queueEvent "multi-clipboard".toList "multi-clip-from-peer".toList []])
  | .fileAction => (w, [.queueEvent "file-action".toList "file-action-from-peer".toList []])
  | .misc (.chatMessage text) => (w, [.queueEvent "chat-message-incoming".toList text []])
  | .misc (.switchDisplay display) =>
    (w, [.queueEvent "switch-display".toList
      ("display=".toList ++ displayInt display.toInt) []])
  | .misc (.refreshVideo _) =>
    ({ w with server := w.server.subscribe monitor0 task.inner true }, [])
  | .misc (.option opt) => (w.handleOptionMessage t task opt, [])
  | .misc (.stopService _) => w.cleanupConnection t task.inner
  | .misc .other => (w, [])
  | .testDelay td => (w, [.send t (.testDelay td)])
  | .other => (w, [])

/-- The server as a machine. A task that is pending reads nothing until it resumes. -/
def machine (crypto : Crypto) : Machine World Event Out where
  step w
    | .accept => (w.accept, [])
    | .handshakeFailed id => ({ w with handshakes := w.handshakes.erase id }, [])
    | .connect id hash hashSent =>
      if id ∈ w.handshakes then w.connect id hash hashSent else (w, [])
    | .message t msg env =>
      match w.tasks t with
      | some task =>
        if task.pending then (w, []) else w.handleIncomingMessage crypto t task msg env
      | none => (w, [])
    | .resume t =>
      match w.tasks t with
      | some task => if task.pending then w.finishLogin t task else (w, [])
      | none => (w, [])
    | .hangup t =>
      match w.tasks t with
      | some task => if task.pending then (w, []) else w.cleanupConnection t task.inner
      | none => (w, [])
    | .sendFrame service =>
      match w.server.services service with
      | some svc => (w, [.frame service svc.subscribes])
      | none => (w, [])
    | .snapshot service =>
      match w.server.services service with
      | some svc =>
        let services := w.server.services.insert service svc.swapNewSubscribes
        ({ w with server := { w.server with services := services } }, [])
      | none => (w, [])

/-! ### What a step can do -/

/-- The step is a `LoginRequest` that `validate_password` accepts, on the connection of task
`t`. -/
def AcceptedLogin (crypto : Crypto) (w : World) (t : ℕ) (e : Event) : Prop :=
  ∃ task lr env, e = .message t (.loginRequest lr) env ∧ w.tasks t = some task ∧
    task.pending = false ∧ validatePassword crypto env.config task.hash lr = true

/-- The server and the tasks after a step, case by case. -/
inductive Change (crypto : Crypto) (w : World) (e : Event) (w' : World) : Prop
  | idle (hserver : w'.server.services = w.server.services)
      (hconns : w'.server.connections = w.server.connections) (htasks : w'.tasks = w.tasks)
      (hnext : w'.nextTask = w.nextTask) (hlogin : ∀ t, ¬ AcceptedLogin crypto w t e)
      (hrefresh : ∀ t task value env, e = .message t (.misc (.refreshVideo value)) env →
        w.tasks t = some task → task.pending = true)
  | started (id : Int32) (hash : Hash) (he : e = .connect id hash true)
      (hserver : w'.server = w.server)
      (htasks : w'.tasks = w.tasks.insert w.nextTask
        { inner := ⟨id, w.nextTask⟩, hash := hash, authorized := false, keyboard := true,
          clipboard := true, audio := true, lr := .default, servicesSubed := false,
          pending := false })
      (hnext : w'.nextTask = w.nextTask + 1)
  | unsent (id : Int32) (hash : Hash) (he : e = .connect id hash false)
      (hserver : w'.server = w.server.removeConnection ⟨id, w.nextTask⟩)
      (htasks : w'.tasks = w.tasks.remove w.nextTask) (hnext : w'.nextTask = w.nextTask + 1)
  | ended (t : ℕ) (task : Task) (ht : w.tasks t = some task) (hp : task.pending = false)
      (he : e = .hangup t ∨ ∃ value env, e = .message t (.misc (.stopService value)) env)
      (hserver : w'.server = w.server.removeConnection task.inner)
      (htasks : w'.tasks = w.tasks.remove t) (hnext : w'.nextTask = w.nextTask)
  | refused (t : ℕ) (task : Task) (lr : LoginRequest) (env : Env) (ht : w.tasks t = some task)
      (hp : task.pending = false) (he : e = .message t (.loginRequest lr) env)
      (hvalid : validatePassword crypto env.config task.hash lr = false)
      (hserver : w'.server = w.server)
      (htasks : w'.tasks = w.tasks.insert t { task with lr := lr })
      (hnext : w'.nextTask = w.nextTask)
  | accepted (t : ℕ) (task : Task) (lr : LoginRequest) (env : Env) (ht : w.tasks t = some task)
      (hp : task.pending = false) (he : e = .message t (.loginRequest lr) env)
      (hvalid : validatePassword crypto env.config task.hash lr = true)
      (hserver : w'.server.services = w.server.services)
      (hconns : w'.server.connections =
        match w.replaced lr.myId task.inner.id with
        | some oldId => w.server.connections.remove oldId
        | none => w.server.connections)
      (htasks : w'.tasks = w.tasks.insert t
        { task with lr := lr, authorized := true, pending := true })
      (hnext : w'.nextTask = w.nextTask)
  | finished (t : ℕ) (task : Task) (ht : w.tasks t = some task) (hp : task.pending = true)
      (he : e = .resume t)
      (hserver : w'.server = w.server ∨ task.joins = true ∧
        ∃ noperms, w'.server = w.server.tryAddPrimayVideoService.addConnection task.inner noperms)
      (subed : Bool)
      (htasks : w'.tasks = w.tasks.insert t
        { task with pending := false, servicesSubed := subed })
      (hnext : w'.nextTask = w.nextTask)
  | refreshed (t : ℕ) (task : Task) (ht : w.tasks t = some task) (hp : task.pending = false)
      (value : Bool) (env : Env) (he : e = .message t (.misc (.refreshVideo value)) env)
      (hserver : w'.server = w.server.subscribe monitor0 task.inner true)
      (htasks : w'.tasks = w.tasks) (hnext : w'.nextTask = w.nextTask)
  | option (t : ℕ) (task : Task) (ht : w.tasks t = some task) (hp : task.pending = false)
      (opt : OptionMessage) (env : Env) (he : e = .message t (.misc (.option opt)) env)
      (hserver : w'.server = w.server ∨
        w'.server = w.server.subscribe audioName task.inner false)
      (htasks : w'.tasks = w.tasks.insert t (task.withOption opt))
      (hnext : w'.nextTask = w.nextTask)
  | snapshot (service : List Char) (svc : ServiceInner) (he : e = .snapshot service)
      (hsvc : w.server.services service = some svc)
      (hserver : w'.server = { w.server with
        services := w.server.services.insert service svc.swapNewSubscribes })
      (htasks : w'.tasks = w.tasks) (hnext : w'.nextTask = w.nextTask)

section Step

variable {crypto : Crypto} {w : World}

theorem next_message {t : ℕ} {task : Task} (ht : w.tasks t = some task)
    (hp : task.pending = false) (msg : Message) (env : Env) :
    (machine crypto).next w (.message t msg env)
      = (w.handleIncomingMessage crypto t task msg env).1 := by
  simp only [Machine.next, machine, ht, hp, Bool.false_eq_true, if_false]

theorem out_message {t : ℕ} {task : Task} (ht : w.tasks t = some task)
    (hp : task.pending = false) (msg : Message) (env : Env) :
    (machine crypto).out w (.message t msg env)
      = (w.handleIncomingMessage crypto t task msg env).2 := by
  simp only [Machine.out, machine, ht, hp, Bool.false_eq_true, if_false]

theorem step_message_idle {t : ℕ} (h : ∀ task, w.tasks t = some task → task.pending = true)
    (msg : Message) (env : Env) :
    (machine crypto).step w (.message t msg env) = (w, []) := by
  simp only [machine]
  cases ht : w.tasks t with
  | none => rfl
  | some task => simp only [h task ht, if_true]

theorem Change.of_eq {e : Event} {w' : World} (h : w' = w)
    (hlogin : ∀ t, ¬ AcceptedLogin crypto w t e)
    (hrefresh : ∀ t task value env, e = .message t (.misc (.refreshVideo value)) env →
      w.tasks t = some task → task.pending = true) : Change crypto w e w' := by
  subst h
  exact .idle rfl rfl rfl rfl hlogin hrefresh

theorem change_message {t : ℕ} {task : Task} (ht : w.tasks t = some task)
    (hp : task.pending = false) (msg : Message) (env : Env) :
    Change crypto w (.message t msg env) (w.handleIncomingMessage crypto t task msg env).1 := by
  have hidle : ∀ msg', msg' = msg → (∀ lr, msg' ≠ .loginRequest lr) →
      (∀ value, msg' ≠ .misc (.refreshVideo value)) →
      Change crypto w (.message t msg env) w := by
    rintro _ rfl hlr hrv
    refine Change.of_eq rfl ?_ (fun t' _ value _ he _ => ?_)
    · rintro t' ⟨_, lr, _, he, _⟩
      exact absurd (Event.message.inj he).2.1 (hlr lr)
    · exact absurd (Event.message.inj he).2.1 (hrv value)
  cases msg with
  | loginRequest lr =>
    by_cases hv : validatePassword crypto env.config task.hash lr = true
    · refine .accepted t task lr env ht hp rfl hv ?_ ?_ ?_ ?_ <;>
        simp only [handleIncomingMessage, handleLoginRequest, hv, if_true, replaceOld] <;>
        cases w.replaced lr.myId task.inner.id <;> rfl
    · refine .refused t task lr env ht hp rfl (Bool.eq_false_iff.mpr hv) ?_ ?_ ?_ <;>
        simp only [handleIncomingMessage, handleLoginRequest, hv, Bool.false_eq_true, if_false]
  | misc m =>
    cases m with
    | refreshVideo value => exact .refreshed t task ht hp value env rfl rfl rfl rfl
    | option opt =>
      refine .option t task ht hp opt env rfl ?_ rfl rfl
      simp only [handleIncomingMessage, handleOptionMessage, Task.withOption_inner]
      split_ifs
      · exact Or.inr rfl
      · exact Or.inl rfl
    | stopService value => exact .ended t task ht hp (Or.inr ⟨value, env, rfl⟩) rfl rfl rfl
    | chatMessage text => exact hidle _ rfl (by simp) (by simp)
    | switchDisplay display => exact hidle _ rfl (by simp) (by simp)
    | other => exact hidle _ rfl (by simp) (by simp)
  | mouseEvent | keyEvent | cliprdr | multiClipboards | fileAction | testDelay | other =>
    exact hidle _ rfl (by simp) (by simp)

theorem change_next (crypto : Crypto) (w : World) (e : Event) :
    Change crypto w e ((machine crypto).next w e) := by
  have hno : (∀ t msg env, e ≠ .message t msg env) →
      (∀ t, ¬ AcceptedLogin crypto w t e) ∧
        ∀ t task value env, e = .message t (.misc (.refreshVideo value)) env →
          w.tasks t = some task → task.pending = true := by
    intro h
    refine ⟨?_, fun _ _ _ _ he _ => absurd he (h _ _ _)⟩
    rintro t ⟨_, _, _, he, _⟩
    exact absurd he (h _ _ _)
  cases e with
  | accept | handshakeFailed =>
    obtain ⟨hl, hr⟩ := hno (by simp)
    exact .idle rfl rfl rfl rfl hl hr
  | connect id hash hashSent =>
    obtain ⟨hl, hr⟩ := hno (by simp)
    by_cases hid : id ∈ w.handshakes
    · have hnext : (machine crypto).next w (.connect id hash hashSent)
          = (w.connect id hash hashSent).1 := by
        simp only [Machine.next, machine, if_pos hid]
      rw [hnext]
      cases hashSent with
      | true => exact .started id hash rfl rfl rfl rfl
      | false =>
        refine .unsent id hash rfl rfl ?_ rfl
        funext t
        change (w.tasks.insert w.nextTask _).remove w.nextTask t = w.tasks.remove w.nextTask t
        rw [Table.remove_apply, Table.remove_apply]
        split_ifs with h
        · rfl
        · exact Table.insert_of_ne _ _ h
    · refine Change.of_eq ?_ hl hr
      simp only [Machine.next, machine, if_neg hid]
  | message t msg env =>
    by_cases hread : ∃ task, w.tasks t = some task ∧ task.pending = false
    · obtain ⟨task, ht, hp⟩ := hread
      rw [next_message ht hp]
      exact change_message ht hp msg env
    · have hpend : ∀ task, w.tasks t = some task → task.pending = true := fun task ht =>
        Bool.not_eq_false _ ▸ fun hp => hread ⟨task, ht, hp⟩
      refine Change.of_eq ?_ ?_ (fun t' task value _ he ht => ?_)
      · rw [Machine.next, step_message_idle hpend]
      · rintro t' ⟨task, lr, _, he, ht, hp, _⟩
        obtain ⟨rfl, -, -⟩ := Event.message.inj he
        exact hread ⟨task, ht, hp⟩
      · obtain ⟨rfl, -, -⟩ := Event.message.inj he
        exact hpend task ht
  | resume t =>
    obtain ⟨hl, hr⟩ := hno (by simp)
    cases ht : w.tasks t with
    | none => exact Change.of_eq (by simp only [Machine.next, machine, ht]) hl hr
    | some task =>
      cases hp : task.pending with
      | false => exact Change.of_eq (by simp [Machine.next, machine, ht, hp]) hl hr
      | true =>
        have hnext : (machine crypto).next w (.resume t) = (w.finishLogin t task).1 := by
          simp only [Machine.next, machine, ht, hp, if_true]
        rw [hnext]
        by_cases hs : (!task.servicesSubed && !isFileTransfer task.lr) = true
        · have hj : task.joins = true := by rw [Task.joins, hp, hs, Bool.and_true]
          refine .finished t task ht hp rfl
            (Or.inr ⟨hj, if !task.audio then [audioName] else [], ?_⟩) true ?_ ?_ <;>
            simp only [finishLogin, hs, if_true]
        · refine .finished t task ht hp rfl (Or.inl ?_) task.servicesSubed ?_ ?_ <;>
            simp only [finishLogin, hs, Bool.false_eq_true, if_false]
  | hangup t =>
    obtain ⟨hl, hr⟩ := hno (by simp)
    cases ht : w.tasks t with
    | none => exact Change.of_eq (by simp only [Machine.next, machine, ht]) hl hr
    | some task =>
      cases hp : task.pending with
      | true => exact Change.of_eq (by simp [Machine.next, machine, ht, hp]) hl hr
      | false =>
        have hnext : (machine crypto).next w (.hangup t) =
            (w.cleanupConnection t task.inner).1 := by
          simp only [Machine.next, machine, ht, hp, Bool.false_eq_true, if_false]
        rw [hnext]
        exact .ended t task ht hp (Or.inl rfl) rfl rfl rfl
  | sendFrame service =>
    obtain ⟨hl, hr⟩ := hno (by simp)
    refine Change.of_eq ?_ hl hr
    simp only [Machine.next, machine]
    cases w.server.services service <;> rfl
  | snapshot service =>
    obtain ⟨hl, hr⟩ := hno (by simp)
    cases hsvc : w.server.services service with
    | none => exact Change.of_eq (by simp only [Machine.next, machine, hsvc]) hl hr
    | some svc =>
      refine .snapshot service svc rfl hsvc ?_ ?_ ?_ <;> simp only [Machine.next, machine, hsvc]

theorem holds_of_services {s s' : Server} (h : s'.services = s.services) {name : List Char}
    {id : Int32} {conn : ConnInner} (hh : s'.Holds name id conn) : s.Holds name id conn := by
  unfold Server.Holds at hh
  rw [h] at hh
  exact hh

/-- **Where subscriptions come from.** A subscription is an old one, or the connection of a task
that finishes its login, or of one that asks for a refresh of a screen it is not subscribed to. -/
theorem holds_next {e : Event} {name : List Char} {id : Int32} {conn : ConnInner}
    (h : ((machine crypto).next w e).server.Holds name id conn) :
    w.server.Holds name id conn ∨
      (∃ t task, e = .resume t ∧ w.tasks t = some task ∧ task.joins = true ∧
        id = task.inner.id ∧ conn = task.inner ∧
          ((machine crypto).next w e).server.connections id ≠ none) ∨
      ∃ t task value env, e = .message t (.misc (.refreshVideo value)) env ∧
        w.tasks t = some task ∧ task.pending = false ∧ name = monitor0 ∧ id = task.inner.id ∧
          conn = task.inner ∧
            ∃ svc, w.server.services monitor0 = some svc ∧ svc.isSubed task.inner.id = false := by
  cases change_next crypto w e with
  | idle hserver _ _ _ _ _ => exact Or.inl (holds_of_services hserver h)
  | started _ _ _ hserver _ _ => exact Or.inl (holds_of_services (by rw [hserver]) h)
  | unsent _ _ _ hserver _ _ =>
    rw [hserver] at h
    exact Or.inl (Server.holds_removeConnection h).1
  | ended _ _ _ _ _ hserver _ _ =>
    rw [hserver] at h
    exact Or.inl (Server.holds_removeConnection h).1
  | refused _ _ _ _ _ _ _ _ hserver _ _ => exact Or.inl (holds_of_services (by rw [hserver]) h)
  | accepted _ _ _ _ _ _ _ _ hserver _ _ _ => exact Or.inl (holds_of_services hserver h)
  | finished t task ht _ he hserver _ _ _ =>
    rcases hserver with hserver | ⟨hj, noperms, hserver⟩
    · exact Or.inl (holds_of_services (by rw [hserver]) h)
    · have hadd := h
      rw [hserver] at hadd
      rcases Server.holds_addConnection hadd with hh | ⟨hid, hconn⟩
      · exact Or.inl (Server.holds_tryAddPrimayVideoService hh)
      · refine Or.inr (Or.inl ⟨t, task, he, ht, hj, hid, hconn, ?_⟩)
        rw [hserver, hid]
        simp [Server.addConnection]
  | refreshed t task ht hp value env he hserver _ _ =>
    rw [hserver] at h
    rcases Server.holds_subscribe h with hh | ⟨-, hname, hid, hconn, hsvc⟩
    · exact Or.inl hh
    · exact Or.inr (Or.inr ⟨t, task, value, env, he, ht, hp, hname, hid, hconn, hsvc⟩)
  | option _ _ _ _ _ _ _ hserver _ _ =>
    rcases hserver with hserver | hserver
    · exact Or.inl (holds_of_services (by rw [hserver]) h)
    · rw [hserver] at h
      exact Or.inl ((Server.holds_subscribe h).resolve_right fun hf => Bool.false_ne_true hf.1)
  | snapshot service svc _ hsvc hserver _ _ =>
    rw [hserver] at h
    obtain ⟨svc', hsvc', hh⟩ := h
    simp only [Table.insert_apply] at hsvc'
    split_ifs at hsvc' with hname
    · obtain rfl := Option.some.inj hsvc'
      exact Or.inl ⟨svc, by rw [hname, hsvc], ServiceInner.holds_swapNewSubscribes hh⟩
    · exact Or.inl ⟨svc', hsvc', hh⟩

end Step

end World

end Ohos

end LibRustdesk
