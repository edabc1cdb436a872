import LibRustdesk.Server.Services
import LibRustdesk.Server.LoginFailures

/-!
# A desktop connection

The state of `Connection` of `src/server/connection.rs`, what it shares with the other connections,
and what a step finds in the rest of the system (`Env`): the options, the clock, the answers of the
platform. Everything a step does to the outside is in the log of the `World`, in order.

`History` is not in the source. It remembers what the peer has shown, which login was let in last,
and which permissions have been looked at, so that properties of whole runs can be stated on
states.
-/

namespace LibRustdesk.Desktop

open Ohos (Crypto Hash asBytes ApproveMode)

/-- `Session`. The last time something was received is in `Env.recentSession`. -/
structure Session where
  randomPassword : Text
  tfa : Bool
  deriving DecidableEq

structure TrustedDevice where
  hwid : Bytes
  time : ℤ
  id : Text
  name : Text
  platform : Text
  deriving DecidableEq

/-! ### Permissions -/

/-- The options that guard a permission, in the order of `control_permissions::Permission`. -/
inductive PermissionOption
  | keyboard
  | remotePrinter
  | clipboard
  | fileTransfer
  | audio
  | camera
  | terminal
  | tunnel
  | remoteRestart
  | recordSession
  | blockInput
  | privacyMode
  deriving DecidableEq, Repr

namespace PermissionOption

def key : PermissionOption → Text
  | keyboard => "enable-keyboard".toList
  | remotePrinter => "enable-remote-printer".toList
  | clipboard => "enable-clipboard".toList
  | fileTransfer => "enable-file-transfer".toList
  | audio => "enable-audio".toList
  | camera => "enable-camera".toList
  | terminal => "enable-terminal".toList
  | tunnel => "enable-tunnel".toList
  | remoteRestart => "enable-remote-restart".toList
  | recordSession => "enable-record-session".toList
  | blockInput => "enable-block-input".toList
  | privacyMode => "enable-privacy-mode".toList

def value : PermissionOption → ℕ
  | keyboard => 0
  | remotePrinter => 1
  | clipboard => 2
  | fileTransfer => 3
  | audio => 4
  | camera => 5
  | terminal => 6
  | tunnel => 7
  | remoteRestart => 8
  | recordSession => 9
  | blockInput => 10
  | privacyMode => 12

end PermissionOption

def getControlPermission (permissions : UInt64) (index : ℕ) : Option Bool :=
  if index < 32 then
    match (permissions >>> UInt64.ofNat (index * 2)) &&& 3 with
    | 1 => some false
    | 2 => some true
    | _ => none
  else none

def option2bool (option value : Text) : Bool :=
  if "enable-".toList <+: option then value ≠ ['N']
  else if "allow-".toList <+: option ∨ option = "stop-service".toList ∨
      option = "direct-server".toList ∨ option = "force-always-relay".toList then value = ['Y']
  else value ≠ ['N']

def isPermissionEnabledLocally (config : Ohos.Config) (p : PermissionOption) : Bool :=
  let accessMode := config.option "access-mode".toList
  if accessMode = "full".toList then true
  else if accessMode = "view".toList then false
  else option2bool p.key (config.option p.key)

def permission (config : Ohos.Config) (p : PermissionOption)
    (controlPermissions : Option UInt64) : Bool :=
  match controlPermissions.bind fun permissions => getControlPermission permissions p.value with
  | some enabled => enabled
  | none => isPermissionEnabledLocally config p

/-! ### The environment of a step -/

structure Env where
  crypto : Crypto
  /-- The options and passwords. -/
  config : Ohos.Config
  /-- `get_builtin_option`. -/
  builtin : Text → Text
  /-- `Config::get_id()`. -/
  id : Text
  isIpStr : Text → Bool
  isDomainPortStr : Text → Bool
  /-- `privacy_mode::is_in_privacy_mode()`. -/
  inPrivacyMode : Bool
  /-- `LinuxHeadlessHandle`: whether it is allowed, and the error of `try_start_desktop`. -/
  isHeadlessAllowed : Bool
  desktopUsername : Text
  tryStartDesktop : Text
  /-- `is_prelogin() || is_locked()`. -/
  isLogon : Bool
  /-- The clock, in minutes as `check_failure` and in milliseconds as `TrustedDevice` has it. -/
  minute : ℤ
  now : ℤ
  /-- `Config::get_trusted_devices()`. -/
  trustedDevices : List TrustedDevice
  /-- `TOTP::check_current` of a secret. -/
  checkCurrent : Text → Text → Option Bool
  /-- `TcpStream::connect`. -/
  connects : Text → Bool
  /-- The sessions and the uuids that are not too old. -/
  recentSession : SessionKey → Bool
  recentUuid : Text → Bool
  /-- What keeps a desktop from being shown, empty if nothing does. -/
  displayServerError : Text
  updateGetSyncDisplays : Except Text Unit
  primaryCameraExists : Bool
  primaryDisplayIdx : ℕ
  isServiceSpecifiedUser : Text → Option Bool
  /-- There is another remote connection of the session. -/
  anotherRemote : SessionKey → Bool

def TrustedDevice.outdate (d : TrustedDevice) (now : ℤ) : Bool :=
  d.time + 90 * 24 * 60 * 60 * 1000 < now

/-! ### The connection -/

structure Connection where
  ip : Server.IpAddr
  hash : Hash
  displayIdx : ℕ
  fileTransfer : Option (Text × Bool)
  viewCamera : Bool
  terminal : Bool
  /-- The address the socket is connected to. -/
  portForwardSocket : Option Text
  portForwardAddress : Text
  authorized : Bool
  /-- The secret of the second factor. -/
  require2fa : Option Text
  keyboard : Bool
  clipboard : Bool
  audio : Bool
  file : Bool
  restart : Bool
  recording : Bool
  blockInput : Bool
  privacyMode : Bool
  controlPermissions : Option UInt64
  lastTestDelay : Bool
  lockAfterSessionEnd : Bool
  showRemoteCursor : Bool
  disableKeyboard : Bool
  showMyCursor : Bool
  disableClipboard : Bool
  disableAudio : Bool
  enableFileTransfer : Bool
  videoAckRequired : Bool
  lr : LoginRequest
  fromSwitch : Bool
  voiceCallRequested : Bool
  voiceCalling : Bool
  optionsInLogin : Option OptionMessage
  /-- `start_cm_ipc_para` has been taken: the connection manager is on the other end. -/
  cmStarted : Bool
  /-- `AuthedConnID`: the kind and the session key it was made with. -/
  authedConnId : Option (AuthConnType × SessionKey)
  servicesSubed : Bool
  followRemoteCursor : Bool
  followRemoteWindow : Bool
  multiUiSession : Bool
  terminalServiceId : Text
  terminalPersistent : Bool
  /-- `Some(TerminalUserToken::SelfUser)`. -/
  terminalUserToken : Bool

namespace Connection

/-- The connection that `start` makes. -/
def new (config : Ohos.Config) (ip : Server.IpAddr) (hash : Hash) (primaryDisplayIdx : ℕ)
    (require2fa : Option Text) (controlPermissions : Option UInt64) : Connection where
  ip := ip
  hash := hash
  displayIdx := primaryDisplayIdx
  fileTransfer := none
  viewCamera := false
  terminal := false
  portForwardSocket := none
  portForwardAddress := []
  authorized := false
  require2fa := require2fa
  keyboard := permission config .keyboard controlPermissions
  clipboard := permission config .clipboard controlPermissions
  audio := permission config .audio controlPermissions
  file := permission config .fileTransfer controlPermissions
  restart := permission config .remoteRestart controlPermissions
  recording := permission config .recordSession controlPermissions
  blockInput := permission config .blockInput controlPermissions
  privacyMode := permission config .privacyMode controlPermissions
  controlPermissions := controlPermissions
  lastTestDelay := false
  lockAfterSessionEnd := false
  showRemoteCursor := false
  disableKeyboard := false
  showMyCursor := false
  disableClipboard := false
  disableAudio := false
  enableFileTransfer := false
  videoAckRequired := false
  lr := {}
  fromSwitch := false
  voiceCallRequested := false
  voiceCalling := false
  optionsInLogin := none
  cmStarted := false
  authedConnId := none
  servicesSubed := false
  followRemoteCursor := false
  followRemoteWindow := false
  multiUiSession := false
  terminalServiceId := []
  terminalPersistent := false
  terminalUserToken := false

variable (c : Connection)

def isRemote : Bool :=
  c.fileTransfer.isNone && c.portForwardSocket.isNone && !c.viewCamera && !c.terminal

def peerKeyboardEnabled : Bool := c.keyboard && !c.disableKeyboard

def clipboardEnabled : Bool := c.clipboard && !c.disableClipboard

def canSubClipboardService (env : Env) : Bool :=
  c.clipboardEnabled && c.peerKeyboardEnabled &&
    env.builtin "one-way-clipboard-redirection".toList ≠ ['Y']

def audioEnabled : Bool := c.audio && !c.disableAudio

def fileTransferEnabled : Bool := c.file && c.enableFileTransfer

def canSubFileClipboardService (env : Env) : Bool :=
  c.clipboardEnabled && c.fileTransferEnabled &&
    env.builtin "one-way-file-transfer".toList ≠ ['Y']

/-- `conn_type()` of the `AuthedConnID`. -/
def connType : Option AuthConnType := c.authedConnId.map Prod.fst

def isAuthedRemoteConn : Bool := c.connType = some .remote

def isAuthedViewCameraConn : Bool := c.connType = some .viewCamera

def videoSource : VideoSource := if c.viewCamera then .camera else .monitor

end Connection

/-! ### The world of a connection -/

structure Shared where
  failures : Server.LoginFailures
  sessions : Table SessionKey Session
  switchSidesUuid : Table Text Bytes

structure History where
  /-- A login was accepted by `validate_password` or `is_recent_session(false)`. -/
  accepted : Bool := false
  /-- A second factor: a correct code, a trusted device, or a recent session that had one. -/
  code : Bool := false
  trustedDevice : Bool := false
  recentSession2fa : Bool := false
  /-- `Authorize` of the connection manager, and a valid uuid of switched sides. -/
  authorize : Bool := false
  switchedSides : Bool := false
  /-- The login that was let in last before the connection was authorized. -/
  validated : Option LoginRequest := none
  /-- The kinds whose permission has been looked at and was there. -/
  checked : List AuthConnType := []

inductive Effect
  | loginError (text : Text)
  /-- A `LoginResponse` with the peer info, or with an error. -/
  | loginResponse (res : Except Text Unit)
  /-- `ipc::Data::Login`. -/
  | cmLogin (id name : Text) (authorized : Bool)
  /-- `subscribe(name, conn, true)` of a registered service. -/
  | subscribe (name : ServiceName)
  | mouse (simulate showCursor : Bool)
  | pointer
  | key (press : Bool)
  | blockInput (on : Bool)
  | blockInputError (on : Bool)
  | turnPrivacy (on : Bool)
  | permission (enabled : Bool)
  | imageQuality (q : Int32)
  | customFps (fps : Int32)
  | supportedDecoding (d : Bytes)
  | readDir
  | initTerminalService
  | closeVoiceCall
  | trustDevice (d : TrustedDevice)
  /-- What a message carries has been handed to the subsystem it is for. -/
  | handled (m : Message)

structure World where
  conn : Connection
  server : Server
  shared : Shared
  history : History
  log : List Effect
  /-- The loop of the connection has been left. -/
  ended : Bool

structure Opening where
  config : Ohos.Config
  ip : Server.IpAddr
  hash : Hash
  primaryDisplayIdx : ℕ
  require2fa : Option Text
  controlPermissions : Option UInt64
  server : Server
  shared : Shared

namespace World

def start (s : Opening) : World where
  conn := .new s.config s.ip s.hash s.primaryDisplayIdx s.require2fa s.controlPermissions
  server := s.server
  shared := s.shared
  history := {}
  log := []
  ended := false

def emit (w : World) (e : Effect) : World := { w with log := w.log ++ [e] }

def sendLoginError (w : World) (err : String) : World := w.emit (.loginError err.toList)

/-- `Server::subscribe` with this connection. -/
def subscribe (w : World) (name : ServiceName) (sub : Bool) : World :=
  let w' := { w with server := w.server.subscribe name sub }
  if sub ∧ name ∈ w.server.services then w'.emit (.subscribe name) else w'

/-- `Server::capture_displays`. -/
def serverCaptureDisplays (w : World) (source : VideoSource) (displays : List ℕ)
    (incl excl : Bool) : World :=
  w.server.services.foldl (fun w name =>
    if name.isVideo then
      if name ∈ displays.map (ServiceName.video source) then
        if incl then w.subscribe name true else w
      else if excl then w.subscribe name false else w
    else w) w

def addConnection (env : Env) (w : World) (noperms : List ServiceName) : World :=
  w.server.services.foldl (fun w name =>
    if name.isVideo ∧ name ≠ .video .monitor env.primaryDisplayIdx then w
    else if name ∉ noperms then w.subscribe name true else w) w

/-! ### Options -/

section Options

variable (env : Env) (w : World) (o : OptionMessage)

def updateImageQuality : World :=
  let imageQuality : Int32 :=
    if o.imageQuality = 0 then if o.customImageQuality > 0 then o.customImageQuality else -1
    else o.imageQuality
  -- `enum_value` is an error for other numbers.
  if o.imageQuality ∈ [0, 2, 3, 4] ∧ imageQuality > 0 then w.emit (.imageQuality imageQuality)
  else w

def updateCustomFps : World := if o.customFps > 0 then w.emit (.customFps o.customFps) else w

def updateSupportedDecoding : World :=
  match o.supportedDecoding with
  | some q => w.emit (.supportedDecoding q)
  | none => w

def updateLockAfterSessionEnd : World :=
  match o.lockAfterSessionEnd.value with
  | some q => { w with conn := { w.conn with lockAfterSessionEnd := q } }
  | none => w

def updateShowRemoteCursor : World :=
  match o.showRemoteCursor.value with
  | some q =>
    let w := { w with conn := { w.conn with showRemoteCursor := q } }
    (w.subscribe .cursor (w.conn.peerKeyboardEnabled || q)).subscribe .pos q
  | none => w

def updateFollowRemoteCursor : World :=
  match o.followRemoteCursor.value with
  | some q => { w with conn := { w.conn with followRemoteCursor := q } }
  | none => w

def updateFollowRemoteWindow : World :=
  match o.followRemoteWindow.value with
  | some q =>
    let w := { w with conn := { w.conn with followRemoteWindow := q } }
    w.subscribe .windowFocus q
  | none => w

def updateDisableAudio : World :=
  match o.disableAudio.value with
  | some q =>
    let w := { w with conn := { w.conn with disableAudio := q } }
    if w.conn.isAuthedViewCameraConn then
      if w.conn.voiceCalling || !w.conn.audioEnabled then w.subscribe .audio w.conn.audioEnabled
      else w
    else w.subscribe .audio w.conn.audioEnabled
  | none => w

def updateEnableFileTransfer : World :=
  match o.enableFileTransfer.value with
  | some q =>
    let w := { w with conn := { w.conn with enableFileTransfer := q } }
    w.subscribe .fileClipboard (w.conn.canSubFileClipboardService env)
  | none => w

def updateDisableClipboard : World :=
  match o.disableClipboard.value with
  | some q =>
    let w := { w with conn := { w.conn with disableClipboard := q } }
    w.subscribe .clipboard (w.conn.canSubClipboardService env)
  | none => w

def updateDisableKeyboard : World :=
  match o.disableKeyboard.value with
  | some q =>
    let w := { w with conn := { w.conn with disableKeyboard := q } }
    ((w.subscribe .clipboard (w.conn.canSubClipboardService env)).subscribe .fileClipboard
      (w.conn.canSubFileClipboardService env)).subscribe .cursor
        (w.conn.peerKeyboardEnabled || w.conn.showRemoteCursor)
  | none => w

/-- `turn_on_privacy` and `turn_off_privacy`, which look at the kind themselves. -/
def turnPrivacy (on : Bool) : World := w.emit (.turnPrivacy on)

/-- `get_version_number("1.2.4")`. -/
def version124 : ℤ := 1002040

def updatePrivacyMode : World :=
  if w.conn.lr.version < version124 then
    match o.privacyMode.value with
    | some q => if w.conn.keyboard then w.turnPrivacy q else w
    | none => w
  else w

def updateBlockInput : World :=
  match o.blockInput with
  | .notSet => w
  | .unknown _ => w
  | .yes =>
    if w.conn.keyboard && w.conn.blockInput then w.emit (.blockInput true)
    else w.emit (.blockInputError true)
  | .no =>
    if w.conn.keyboard && w.conn.blockInput then w.emit (.blockInput false)
    else w.emit (.blockInputError false)

def updateTerminalPersistence : World :=
  match o.terminalPersistent.value with
  | some q => { w with conn := { w.conn with terminalPersistent := q } }
  | none => w

def updateShowMyCursor : World :=
  match o.showMyCursor.value with
  | some q => { w with conn := { w.conn with showMyCursor := q } }
  | none => w

def updateOptions : World :=
  let w := w.updateImageQuality o
  let w := w.updateCustomFps o
  let w := w.updateSupportedDecoding o
  let w := w.updateLockAfterSessionEnd o
  let w := w.updateShowRemoteCursor o
  let w := w.updateFollowRemoteCursor o
  let w := w.updateFollowRemoteWindow o
  let w := w.updateDisableAudio o
  let w := updateEnableFileTransfer env w o
  let w := updateDisableClipboard env w o
  let w := updateDisableKeyboard env w o
  let w := w.updatePrivacyMode o
  let w := w.updateBlockInput o
  let w := w.updateTerminalPersistence o
  w.updateShowMyCursor o

end Options

/-! ### What a message of options leaves alone -/

@[simp] theorem conn_emit (w : World) (e : Effect) : (w.emit e).conn = w.conn := rfl

@[simp] theorem conn_subscribe (w : World) (name : ServiceName) (sub : Bool) :
    (w.subscribe name sub).conn = w.conn := by
  unfold subscribe
  split <;> rfl

section Options

variable (env : Env) (w : World) (o : OptionMessage)

@[simp] theorem conn_updateImageQuality : (w.updateImageQuality o).conn = w.conn := by
  unfold updateImageQuality
  dsimp only
  generalize (if o.imageQuality = 0 then
    (if o.customImageQuality > 0 then o.customImageQuality else -1) else o.imageQuality) = q
  split <;> rfl

@[simp] theorem conn_updateCustomFps : (w.updateCustomFps o).conn = w.conn := by
  unfold updateCustomFps
  split <;> rfl

@[simp] theorem conn_updateSupportedDecoding : (w.updateSupportedDecoding o).conn = w.conn := by
  unfold updateSupportedDecoding
  split <;> rfl

@[simp] theorem conn_updateLockAfterSessionEnd : (w.updateLockAfterSessionEnd o).conn =
    { w.conn with
      lockAfterSessionEnd := o.lockAfterSessionEnd.value.getD w.conn.lockAfterSessionEnd } := by
  unfold updateLockAfterSessionEnd
  cases o.lockAfterSessionEnd.value <;> rfl

@[simp] theorem conn_updateShowRemoteCursor : (w.updateShowRemoteCursor o).conn =
    { w.conn with
      showRemoteCursor := o.showRemoteCursor.value.getD w.conn.showRemoteCursor } := by
  unfold updateShowRemoteCursor
  cases o.showRemoteCursor.value with
  | none => rfl
  | some q => simp

@[simp] theorem conn_updateFollowRemoteCursor : (w.updateFollowRemoteCursor o).conn =
    { w.conn with
      followRemoteCursor := o.followRemoteCursor.value.getD w.conn.followRemoteCursor } := by
  unfold updateFollowRemoteCursor
  cases o.followRemoteCursor.value <;> rfl

@[simp] theorem conn_updateFollowRemoteWindow : (w.updateFollowRemoteWindow o).conn =
    { w.conn with
      followRemoteWindow := o.followRemoteWindow.value.getD w.conn.followRemoteWindow } := by
  unfold updateFollowRemoteWindow
  cases o.followRemoteWindow.value with
  | none => rfl
  | some q => simp

@[simp] theorem conn_updateDisableAudio : (w.updateDisableAudio o).conn =
    { w.conn with disableAudio := o.disableAudio.value.getD w.conn.disableAudio } := by
  unfold updateDisableAudio
  cases o.disableAudio.value with
  | none => rfl
  | some q =>
    dsimp only
    split
    · split <;> simp
    · simp

@[simp] theorem conn_updateEnableFileTransfer : (updateEnableFileTransfer env w o).conn =
    { w.conn with
      enableFileTransfer := o.enableFileTransfer.value.getD w.conn.enableFileTransfer } := by
  unfold updateEnableFileTransfer
  cases o.enableFileTransfer.value with
  | none => rfl
  | some q => simp

@[simp] theorem conn_updateDisableClipboard : (updateDisableClipboard env w o).conn =
    { w.conn with
      disableClipboard := o.disableClipboard.value.getD w.conn.disableClipboard } := by
  unfold updateDisableClipboard
  cases o.disableClipboard.value with
  | none => rfl
  | some q => simp

@[simp] theorem conn_updateDisableKeyboard : (updateDisableKeyboard env w o).conn =
    { w.conn with disableKeyboard := o.disableKeyboard.value.getD w.conn.disableKeyboard } := by
  unfold updateDisableKeyboard
  cases o.disableKeyboard.value with
  | none => rfl
  | some q => simp

@[simp] theorem conn_updatePrivacyMode : (w.updatePrivacyMode o).conn = w.conn := by
  unfold updatePrivacyMode turnPrivacy
  split
  · cases o.privacyMode.value with
    | none => rfl
    | some q =>
      dsimp only
      split <;> rfl
  · rfl

@[simp] theorem conn_updateBlockInput : (w.updateBlockInput o).conn = w.conn := by
  unfold updateBlockInput
  cases o.blockInput with
  | notSet | unknown => rfl
  | yes | no =>
    dsimp only
    split <;> rfl

@[simp] theorem conn_updateTerminalPersistence : (w.updateTerminalPersistence o).conn =
    { w.conn with
      terminalPersistent := o.terminalPersistent.value.getD w.conn.terminalPersistent } := by
  unfold updateTerminalPersistence
  cases o.terminalPersistent.value <;> rfl

@[simp] theorem conn_updateShowMyCursor : (w.updateShowMyCursor o).conn =
    { w.conn with showMyCursor := o.showMyCursor.value.getD w.conn.showMyCursor } := by
  unfold updateShowMyCursor
  cases o.showMyCursor.value <;> rfl

theorem conn_updateOptions : (updateOptions env w o).conn =
    { w.conn with
      lockAfterSessionEnd := o.lockAfterSessionEnd.value.getD w.conn.lockAfterSessionEnd
      showRemoteCursor := o.showRemoteCursor.value.getD w.conn.showRemoteCursor
      followRemoteCursor := o.followRemoteCursor.value.getD w.conn.followRemoteCursor
      followRemoteWindow := o.followRemoteWindow.value.getD w.conn.followRemoteWindow
      disableAudio := o.disableAudio.value.getD w.conn.disableAudio
      enableFileTransfer := o.enableFileTransfer.value.getD w.conn.enableFileTransfer
      disableClipboard := o.disableClipboard.value.getD w.conn.disableClipboard
      disableKeyboard := o.disableKeyboard.value.getD w.conn.disableKeyboard
      terminalPersistent := o.terminalPersistent.value.getD w.conn.terminalPersistent
      showMyCursor := o.showMyCursor.value.getD w.conn.showMyCursor } := by
  unfold updateOptions
  simp only [conn_updateShowMyCursor, conn_updateTerminalPersistence, conn_updateBlockInput,
    conn_updatePrivacyMode, conn_updateDisableKeyboard, conn_updateDisableClipboard,
    conn_updateEnableFileTransfer, conn_updateDisableAudio, conn_updateFollowRemoteWindow,
    conn_updateFollowRemoteCursor, conn_updateShowRemoteCursor, conn_updateLockAfterSessionEnd,
    conn_updateSupportedDecoding, conn_updateCustomFps, conn_updateImageQuality]

end Options

end World

/-! ### A host that runs are tried on -/

/-- Its options are not set and its temporary password is `pw`. -/
def plainConfig : Ohos.Config where
  option _ := []
  temporaryPassword := "pw".toList
  password := []
  salt := []
  hardPassword := []
  hardSalt := []
  uuid := []
  existingPk := none

/-- Nothing stands in the way of a login, and no connection can be made from it. -/
def Env.plain : Env where
  crypto := ⟨fun bytes => bytes, fun _ => none, Link.tagBox⟩
  config := plainConfig
  builtin _ := []
  id := "1".toList
  isIpStr _ := false
  isDomainPortStr _ := false
  inPrivacyMode := false
  isHeadlessAllowed := false
  desktopUsername := []
  tryStartDesktop := []
  isLogon := false
  minute := 1
  now := 0
  trustedDevices := []
  checkCurrent _ code := some (code = "123456".toList)
  connects _ := false
  recentSession _ := true
  recentUuid _ := true
  displayServerError := []
  updateGetSyncDisplays := .ok ()
  primaryCameraExists := false
  primaryDisplayIdx := 0
  isServiceSpecifiedUser _ := none
  anotherRemote _ := false

/-- The connection is opened on an empty table of sessions. -/
def Opening.plain : Opening where
  config := plainConfig
  ip := .v4 1
  hash := ⟨"s".toList, "c".toList⟩
  primaryDisplayIdx := 0
  require2fa := some "totp".toList
  controlPermissions := none
  server := ⟨[.audio, .display, .clipboard, .fileClipboard, .cursor, .pos, .windowFocus],
    fun _ => false⟩
  shared := ⟨fun _ => Table.empty, Table.empty, Table.empty⟩

def desktopLogin : LoginRequest where
  username := "1".toList
  password := asBytes "pwsc".toList

end LibRustdesk.Desktop
