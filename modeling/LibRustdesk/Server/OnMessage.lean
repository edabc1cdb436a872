import LibRustdesk.Server.Login

/-!
# The messages of a desktop connection

`Connection::on_message` of `src/server/connection.rs`, the commands of the connection manager, and
the loop around them (`connection`). What an arm hands to another subsystem unread (files, the
clipboard, terminals, audio) is `Effect.handled`.

The connection manager can only speak once its end has been started, which a login does. A
connection that forwards a port leaves the loop, and passes bytes on from then on without reading
them.
-/

namespace LibRustdesk.Desktop

namespace World

/-! ### Displays -/

section Displays

variable (env : Env) (w : World)

/-- A number of a message `as usize`. -/
def toUsize (n : Int32) : ℕ := (n.toInt % 2 ^ 64).toNat

def switchDisplayTo (displayIdx : ℕ) : World :=
  let new : ServiceName := .video w.conn.videoSource displayIdx
  let old : ServiceName := .video w.conn.videoSource w.conn.displayIdx
  let w := if displayIdx ≠ env.primaryDisplayIdx then
      { w with server := w.server.addService new } else w
  -- `is_support_multi_ui_session`: a `CaptureDisplays` follows.
  let w := if w.conn.lr.version < version124 then w.subscribe old false else w
  let w := w.subscribe new true
  { w with conn := { w.conn with displayIdx := displayIdx } }

/-- `handle_switch_display`. The resolution is changed only with the keyboard. -/
def handleSwitchDisplay (display width height : Int32) : World :=
  let displayIdx := toUsize display
  if w.conn.displayIdx ≠ displayIdx then
    let w := switchDisplayTo env w displayIdx
    if width ≠ 0 ∧ height ≠ 0 ∧ w.conn.keyboard then
      w.emit (.handled (.misc (.changeResolution width height)))
    else w
  else w

def captureDisplays (add sub set : List ℕ) : World :=
  let videoSource := w.conn.videoSource
  let w := { w with server :=
    (add ++ set).foldl (fun s d => s.addService (.video videoSource d)) w.server }
  let w :=
    if add ≠ [] then w.serverCaptureDisplays videoSource add true false
    else if sub ≠ [] then w.serverCaptureDisplays videoSource sub false true
    else w.serverCaptureDisplays videoSource set true true
  let multiUiSession : Bool := w.server.subbedDisplaysCount > 1
  let w := { w with conn := { w.conn with multiUiSession := multiUiSession } }
  if w.conn.followRemoteWindow then w.subscribe .windowFocus (!multiUiSession) else w

end Displays

/-! ### The arms of an authorized connection -/

section Authorized

variable (env : Env) (w : World)

def closeVoiceCall : World :=
  let w := { w with conn := { w.conn with voiceCalling := false } }.emit .closeVoiceCall
  if w.conn.isAuthedViewCameraConn then w.subscribe .audio false else w

def handleVoiceCall (accepted : Bool) : World :=
  if w.conn.voiceCallRequested then
    let w := { w with conn := { w.conn with
      voiceCallRequested := false
      voiceCalling := accepted } }
    if w.conn.isAuthedViewCameraConn then w.subscribe .audio (w.conn.audioEnabled && accepted)
    else w
  else w

/-- The arm of a `MouseEvent`: it moves the mouse, or only the shown cursor of the peer. -/
def onMouseEvent : World :=
  if w.conn.isAuthedViewCameraConn then w
  else if w.conn.peerKeyboardEnabled then w.emit (.mouse true w.conn.showMyCursor)
  else if w.conn.showMyCursor then w.emit (.mouse false true)
  else w

/-- The arm of a `PointerDeviceEvent`. -/
def onPointerDeviceEvent : World :=
  if w.conn.isAuthedViewCameraConn then w
  else if w.conn.peerKeyboardEnabled then w.emit .pointer
  else w

/-- The arm of a `KeyEvent`. -/
def onKeyEvent (me : KeyEvent) : World :=
  if w.conn.isAuthedViewCameraConn then w
  else if w.conn.peerKeyboardEnabled then
    let isPress := (me.press || me.down) && !me.isModifier
    w.emit (.key (isPress && !me.isText))
  else w

/-- The arm of a `FileAction`. -/
def onFileAction (fa : FileAction) : World :=
  let printer : Bool := match fa with
    | .send _ printer => printer
    | _ => false
  if w.conn.fileTransfer.isSome || printer then
    let refused : Bool := match fa with
      | .other _ => false
      | _ => env.builtin "one-way-file-transfer".toList = ['Y']
    if refused then w else w.emit (.handled (.fileAction fa))
  else w

/-- The arms of a `Misc`, and whether to go on. -/
def onMisc (m : Misc) : World × Bool :=
  match m with
  | .switchDisplay display width height => (handleSwitchDisplay env w display width height, true)
  | .captureDisplays add sub set =>
    (w.captureDisplays (add.map toUsize) (sub.map toUsize) (set.map toUsize), true)
  | .togglePrivacyMode _ on => (w.turnPrivacy on, true)
  | .option o => (updateOptions env w o, true)
  | .restartRemoteDevice =>
    (if w.conn.restart then w.emit (.handled (.misc m)) else w, true)
  | .audioFormat _ =>
    (if !w.conn.disableAudio then w.emit (.handled (.misc m)) else w, true)
  | .switchSidesRequest uuid =>
    if uuid.length = 16 then (w.emit (.handled (.misc m)), false) else (w, true)
  | .changeResolution _ _ | .changeDisplayResolution _ _ _ =>
    (if w.conn.keyboard then w.emit (.handled (.misc m)) else w, true)
  | .chatMessage _ | .refreshVideo _ | .refreshVideoDisplay _ | .videoReceived | .autoAdjustFps _
  | .clientRecordStatus _ | .messageQuery _ => (w.emit (.handled (.misc m)), true)
  | .closeReason | .other => (w, true)

/-- The arms of an authorized connection, and whether to go on. -/
def onAuthorizedMessage (m : Message) : World × Bool :=
  match m with
  | .mouseEvent _ => (w.onMouseEvent, true)
  | .pointerDeviceEvent _ => (w.onPointerDeviceEvent, true)
  | .keyEvent me => (w.onKeyEvent me, true)
  | .clipboard _ | .multiClipboards _ =>
    (if w.conn.clipboard then w.emit (.handled m) else w, true)
  | .fileAction fa => (onFileAction env w fa, true)
  | .misc misc => onMisc env w misc
  | .audioFrame _ => (if !w.conn.disableAudio then w.emit (.handled m) else w, true)
  | .voiceCallRequest isConnect =>
    if isConnect then ({ w with conn := { w.conn with voiceCallRequested := true } }, true)
    else (w.closeVoiceCall, true)
  | .cliprdr _ | .fileResponse _ | .screenshotRequest _ | .terminalAction _ =>
    (w.emit (.handled m), true)
  | _ => (w, true)

end Authorized

/-! ### `on_message` -/

section

variable (env : Env) (w : World)

/-- The arm of a `TestDelay`. -/
def onTestDelay (fromClient : Bool) : World :=
  if fromClient then w.emit (.handled (.testDelay fromClient))
  else { w with conn := { w.conn with lastTestDelay := false } }

def checkRemoveSession : World :=
  let key := w.conn.lr.sessionKey
  if w.conn.isAuthedRemoteConn || !env.anotherRemote key then
    { w with shared := { w.shared with sessions := w.shared.sessions.remove key } }
  else w

def onMessage (m : Message) : World × Bool :=
  match m with
  | .misc .closeReason => (checkRemoveSession env w, false)
  | .loginRequest lr => onLoginRequest env w lr
  | .auth2fa code hwid => onAuth2fa env w code hwid
  | .testDelay fromClient => (w.onTestDelay fromClient, true)
  | .switchSidesResponse uuid lr => onSwitchSidesResponse env w uuid lr
  | m =>
    if w.conn.authorized then
      if w.conn.portForwardSocket.isSome then (w, true) else onAuthorizedMessage env w m
    else (w, true)

end

end World

/-! ### The loop -/

/-- `ipc::Data` from the connection manager. -/
inductive CmData
  | authorize
  | close
  | switchPermission (name : String) (enabled : Bool)
  | voiceCallResponse (accepted : Bool)
  | closeVoiceCall
  | other
  deriving DecidableEq

namespace World

section

variable (env : Env) (w : World)

/-- `SwitchPermission`. -/
def onSwitchPermission (name : String) (enabled : Bool) : World :=
  if name = "keyboard" then
    let w := { w with conn := { w.conn with keyboard := enabled } }
    ((w.subscribe .clipboard (w.conn.canSubClipboardService env)).subscribe .fileClipboard
      (w.conn.canSubFileClipboardService env)).subscribe .cursor
        (enabled || w.conn.showRemoteCursor)
  else if name = "clipboard" then
    let w := { w with conn := { w.conn with clipboard := enabled } }
    w.subscribe .clipboard (w.conn.canSubClipboardService env)
  else if name = "audio" then
    let w := { w with conn := { w.conn with audio := enabled } }
    if w.conn.authorized then
      if w.conn.isAuthedViewCameraConn then
        if w.conn.voiceCalling || !w.conn.audioEnabled then
          w.subscribe .audio w.conn.audioEnabled
        else w
      else w.subscribe .audio w.conn.audioEnabled
    else w
  else if name = "file" then
    let w := { w with conn := { w.conn with file := enabled } }
    w.subscribe .fileClipboard (w.conn.canSubFileClipboardService env)
  else if name = "restart" then { w with conn := { w.conn with restart := enabled } }
  else if name = "recording" then { w with conn := { w.conn with recording := enabled } }
  else if name = "block_input" then { w with conn := { w.conn with blockInput := enabled } }
  else if name = "privacy_mode" then { w with conn := { w.conn with privacyMode := enabled } }
  else w

/-- A command of the connection manager, and whether to stay in the loop. -/
def onCmData (d : CmData) : World × Bool :=
  match d with
  | .authorize =>
    let w := { w with
      conn := { w.conn with require2fa := none }
      history := { w.history with authorize := true } }
    match sendLogonResponse env (w.validates w.conn.lr) with
    | (w, false) => (w, false)
    | (w, true) => (w, w.conn.portForwardSocket.isNone)
  | .close => (w, false)
  | .switchPermission name enabled => (onSwitchPermission env w name enabled, true)
  | .voiceCallResponse accepted => (w.handleVoiceCall accepted, true)
  | .closeVoiceCall => (w.closeVoiceCall, true)
  | .other => (w, true)

def stay (r : World × Bool) : World := { r.1 with ended := r.1.ended || !r.2 }

def onRead (m : Message) : World :=
  let w := stay (onMessage env w m)
  -- A connection that forwards a port goes on without the loop once no answer is awaited.
  if w.conn.portForwardSocket.isSome && w.conn.authorized && !w.conn.lastTestDelay then
    { w with ended := true }
  else w

/-- `test_delay_timer`. -/
def onTestDelayTimer : World :=
  if !w.conn.lastTestDelay && !(w.conn.portForwardSocket.isSome && w.conn.authorized) then
    { w with conn := { w.conn with lastTestDelay := true } }
  else w

end

end World

/-- A message of the peer, a command of the connection manager, a tick of the timer, or a change
of what the connection shares with others. -/
inductive Event
  | message (env : Env) (m : Message)
  | cm (env : Env) (d : CmData)
  | testDelayTimer
  | others (shared : Shared) (services : List ServiceName)

def step (w : World) (ev : Event) : World :=
  if w.ended then w
  else
    match ev with
    | .message env m => World.onRead env w m
    | .cm env d => if w.conn.cmStarted then World.stay (World.onCmData env w d) else w
    | .testDelayTimer => w.onTestDelayTimer
    | .others shared services =>
      { w with
        shared := shared
        server := services.foldl Server.addService w.server }

/-- What it does to the outside is in the log of the world. -/
def connection : Machine World Event Unit := ⟨fun w ev => (step w ev, [])⟩

end LibRustdesk.Desktop
