import LibRustdesk.Server.Connection

/-!
# Logging in to a desktop connection

The arms of `Connection::on_message` that are looked at before a connection is authorized, and what
they call. `sendLogonResponse` is `send_logon_response_and_keep_alive`: the one place where a
connection becomes authorized. A function that returns whether to keep the connection alive returns
it next to the world.

`handleLoginRequestWithoutValidation` puts every login into the connection before anything is
checked, also when the connection is authorized already, and drops the second factor for a trusted
device.
-/

namespace LibRustdesk.Desktop

open Ohos (Crypto Hash asBytes)

/-! ### Passwords -/

section Password

variable (crypto : Crypto) (hash : Hash) (lr : LoginRequest)

def verifyH1 (h1 : Bytes) : Bool :=
  Ohos.constantTimeEq (crypto.sha256 (h1 ++ asBytes hash.challenge)) lr.password

def validatePasswordPlain (password : Text) : Bool :=
  if password = [] then false
  else verifyH1 crypto hash lr (crypto.sha256 (asBytes password ++ asBytes hash.salt))

def validatePasswordStorage (config : Ohos.Config) (storage : Text) : Bool :=
  if storage = [] then false
  else
    match Ohos.decodePermanentPasswordH1FromStorage crypto config storage with
    | some h1 => verifyH1 crypto hash lr h1
    | none => validatePasswordPlain crypto hash lr storage

def validatePresetPasswordStorage (storage salt : Text) : Bool :=
  if salt = [] then validatePasswordPlain crypto hash lr storage
  else
    match Ohos.decodePresetPasswordH1FromStorage crypto storage with
    | some h1 => verifyH1 crypto hash lr h1
    | none => false

/-- The permanent password: the local one, or the preset one where there is none. -/
def validatePermanentPassword (config : Ohos.Config) : Bool :=
  if config.password ≠ [] then
    Ohos.localPermanentPasswordStorageIsUsableForAuth crypto config config.password config.salt &&
      validatePasswordStorage crypto hash lr config config.password
  else
    Ohos.presetPermanentPasswordStorageIsUsableForAuth crypto config.hardPassword
        config.hardSalt &&
      validatePresetPasswordStorage crypto hash lr config.hardPassword config.hardSalt

end Password

def hasPermanentPassword (crypto : Crypto) (config : Ohos.Config) : Bool :=
  if config.password ≠ [] then
    Ohos.localPermanentPasswordStorageIsUsableForAuth crypto config config.password config.salt
  else
    Ohos.presetPermanentPasswordStorageIsUsableForAuth crypto config.hardPassword config.hardSalt

def hasValidPassword (crypto : Crypto) (config : Ohos.Config) : Bool :=
  config.temporaryEnabled && config.temporaryPassword ≠ [] ||
    config.permanentEnabled && hasPermanentPassword crypto config

def enableTrustedDevices (config : Ohos.Config) : Bool :=
  option2bool "enable-trusted-devices".toList (config.option "enable-trusted-devices".toList)

/-- The login comes from a trusted device: one with its id, name and platform, not outdated. -/
def Env.trusts (env : Env) (lr : LoginRequest) : Bool :=
  lr.hwid ≠ [] && enableTrustedDevices env.config &&
    match env.trustedDevices.find? fun d => d.hwid = lr.hwid with
    | some device => !device.outdate env.now && device.id = lr.myId &&
        device.name = lr.myName && device.platform = lr.myPlatform
    | none => false

def Connection.authKind (c : Connection) : AuthConnType :=
  if c.fileTransfer.isSome then .fileTransfer
  else if c.portForwardSocket.isSome then .portForward
  else if c.viewCamera then .viewCamera
  else if c.terminal then .terminal
  else .remote

namespace World

section

variable (env : Env) (w : World)

def updateOrInsertSession (key : SessionKey) (password : Option Text) (tfa : Option Bool) : World :=
  let session : Session :=
    match w.shared.sessions key with
    | some session => ⟨password.getD session.randomPassword, tfa.getD session.tfa⟩
    | none => ⟨password.getD [], tfa.getD false⟩
  { w with shared := { w.shared with sessions := w.shared.sessions.insert key session } }

def setSession2fa (key : SessionKey) : World := w.updateOrInsertSession key none (some true)

def validatePassword (allowPermanentPassword : Bool) : World × Bool :=
  let config := env.config
  if config.temporaryEnabled &&
      validatePasswordPlain env.crypto w.conn.hash w.conn.lr config.temporaryPassword then
    (w.updateOrInsertSession w.conn.lr.sessionKey (some config.temporaryPassword) (some false),
      true)
  else
    (w, (config.permanentEnabled || allowPermanentPassword) &&
      validatePermanentPassword env.crypto w.conn.hash w.conn.lr config)

def isRecentSession (tfa : Bool) : World × Bool :=
  let sessions := w.shared.sessions.retain fun key _ => env.recentSession key
  let w := { w with shared := { w.shared with sessions := sessions } }
  match sessions w.conn.lr.sessionKey with
  | some session =>
    (w, w.conn.lr.password ≠ [] &&
      (tfa && session.tfa ||
        !tfa && validatePasswordPlain env.crypto w.conn.hash w.conn.lr session.randomPassword))
  | none => (w, false)

/-- `check_failure`: what it has read, unless it refuses. -/
def checkFailure (i : Fin 2) : World × Option (Server.Failure × Int32) :=
  match Server.checkFailure (w.shared.failures i) (Int32.ofInt env.minute) w.conn.ip with
  | (failure, .ok ()) => (w, some failure)
  | (_, .error err) => (w.sendLoginError err, none)

def updateFailure (failure : Server.Failure × Int32) (remove : Bool) (i : Fin 2) : World :=
  { w with shared := { w.shared with
      failures := Function.update w.shared.failures i
        (Server.updateFailure (w.shared.failures i) w.conn.ip failure.1 failure.2 remove) } }

def handleLoginRequestWithoutValidation (lr : LoginRequest) : World :=
  let w := { w with conn := { w.conn with
    lr := lr
    optionsInLogin := lr.option.or w.conn.optionsInLogin
    videoAckRequired := lr.videoAckRequired } }
  if w.conn.require2fa.isSome && env.trusts lr then
    { w with
      conn := { w.conn with require2fa := none }
      history := { w.history with trustedDevice := true } }
  else w

/-! ### Becoming authorized -/

/-- `prepare_terminal_login_for_authorization`: whether to go on, and if not, whether to keep the
connection. -/
def prepareTerminalLogin : World × Option Bool :=
  if !w.conn.terminal || w.conn.terminalUserToken then (w, none)
  else
    let w := { w with conn := { w.conn with terminalUserToken := true } }
    -- The token of the user of the process is no token of a service.
    if env.isServiceSpecifiedUser w.conn.terminalServiceId = some true then
      (w.sendLoginError "Terminal service user mismatch detected.", some false)
    else (w, none)

def normalizePortForwardTarget (host : Text) (port : Int32) : Text × Bool :=
  let format (host : Text) (port : Int32) : Text := host ++ ':' :: (toString port.toInt).toList
  if host = "RDP".toList ∧ port = 0 then (format "localhost".toList 3389, true)
  else if host = [] then (format "localhost".toList port, false)
  else (format host port, false)

/-- `connect_port_forward_if_needed`. -/
def connectPortForward : World × Bool :=
  if w.conn.portForwardSocket.isSome then (w, true)
  else
    match w.conn.lr.union with
    | some (.portForward host port) =>
      let (addr, isRdp) := normalizePortForwardTarget host port
      let w := { w with conn := { w.conn with portForwardAddress := addr } }
      if env.connects addr then
        ({ w with conn := { w.conn with portForwardSocket := some addr } }, true)
      else
        let addr := if isRdp then "RDP".toList else addr
        (w.emit (.loginError ("Failed to access remote ".toList ++ addr ++
          ". Please make sure it is reachable/open.".toList)), false)
    | _ => (w, true)

def authorize : World :=
  { w with conn := { w.conn with
    authorized := true
    authedConnId := some (w.conn.authKind, w.conn.lr.sessionKey) } }

def trySubCameraDisplays : World :=
  if env.primaryCameraExists then
    { w with server := w.server.addService (.video .camera 0) }.subscribe (.video .camera 0) true
  else w

def trySubMonitorServices : World :=
  let c := w.conn
  if c.isRemote && !c.servicesSubed then
    let w := { w with conn := { c with servicesSubed := true } }
    let noperms : List ServiceName :=
      (if !c.peerKeyboardEnabled && !c.showRemoteCursor then [.cursor] else []) ++
      (if !c.showRemoteCursor then [.pos] else []) ++
      (if !c.followRemoteWindow then [.windowFocus] else []) ++
      (if !c.canSubClipboardService env then [.clipboard] else []) ++
      (if !c.canSubFileClipboardService env then [.fileClipboard] else []) ++
      (if !c.audioEnabled then [.audio] else [])
    addConnection env
      { w with server := w.server.addService (.video .monitor env.primaryDisplayIdx) } noperms
  else w

def applyOptionsInLogin : World :=
  match w.conn.optionsInLogin with
  | some o => updateOptions env { w with conn := { w.conn with optionsInLogin := none } } o
  | none => w

/-- What an authorized connection is sent, and what it is subscribed to. -/
def welcome : World :=
  if w.conn.portForwardSocket.isSome then w.emit (.loginResponse (.ok ()))
  else if w.conn.isRemote && env.displayServerError ≠ [] then
    w.emit (.loginResponse (.error env.displayServerError))
  else
    let desktop := w.conn.fileTransfer.isNone && !w.conn.terminal && !w.conn.viewCamera
    let res := if desktop then env.updateGetSyncDisplays else .ok ()
    let w := applyOptionsInLogin env (w.emit (.loginResponse res))
    if w.conn.fileTransfer.isSome then w.emit .readDir
    else if w.conn.terminal then
      { w with conn := { w.conn with keyboard := false } }.emit .initTerminalService
    else if w.conn.viewCamera then
      let w := trySubCameraDisplays env w
      { w with conn := { w.conn with keyboard := false } }.emit (.permission false)
    else
      match res with
      | .ok () => trySubMonitorServices env w
      | .error _ => w

def awaits2fa : World × Bool :=
  if w.conn.require2fa.isSome then
    let (w, recent) := isRecentSession env w true
    -- A recent session that had the second factor stands for it.
    let w := if recent then { w with history := { w.history with recentSession2fa := true } } else w
    (w, !recent && !w.conn.fromSwitch)
  else (w, false)

/-- `send_logon_response_and_keep_alive`. -/
def sendLogonResponse : World × Bool :=
  if w.conn.authorized then (w, true)
  else
    match awaits2fa env w with
    | (w, true) => (w.sendLoginError "2FA Required", true)
    | (w, false) =>
      match prepareTerminalLogin env w with
      | (w, some keepAlive) => (w, keepAlive)
      | (w, none) =>
        match connectPortForward env w with
        | (w, false) => (w, false)
        | (w, true) => (welcome env w.authorize, true)

def tryStartCm (peerId name : Text) (authorized : Bool) : World :=
  w.emit (.cmLogin peerId name authorized)

/-- `send_logon_response_and_keep_alive`, and the connection manager is told. -/
def logon (lr : LoginRequest) : World × Bool :=
  match sendLogonResponse env w with
  | (w, false) => (w, false)
  | (w, true) => (w.tryStartCm lr.myId lr.myName w.conn.authorized, true)

/-- The login counts as the one that is let in, unless the connection is authorized already. -/
def validates (lr : LoginRequest) : World :=
  if w.conn.authorized then w else { w with history := { w.history with validated := some lr } }

def letIn (lr : LoginRequest) : World :=
  { w with history := { w.history with accepted := true } }.validates lr

end

/-! ### `LoginRequest` -/

section LoginRequest

variable (env : Env) (w : World) (lr : LoginRequest)

def check (kind : AuthConnType) : World :=
  { w with history := { w.history with checked := kind :: w.history.checked } }

/-- The kind of a login: its permission, and the flag of the connection. -/
def loginKind : World × Bool :=
  let refused (p : PermissionOption) : Bool := !permission env.config p w.conn.controlPermissions
  match lr.union with
  | some (.fileTransfer dir showHidden) =>
    if refused .fileTransfer then (w.sendLoginError "No permission of file transfer", false)
    else
      (check { w with conn := { w.conn with fileTransfer := some (dir, showHidden) } }
        .fileTransfer, true)
  | some .viewCamera =>
    if refused .camera then (w.sendLoginError "No permission of viewing camera", false)
    else (check { w with conn := { w.conn with viewCamera := true } } .viewCamera, true)
  | some (.terminal serviceId) =>
    if refused .terminal then (w.sendLoginError "No permission of terminal", false)
    else
      let persistent :=
        match w.conn.optionsInLogin with
        | some o => decide (o.terminalPersistent = .yes)
        | none => w.conn.terminalPersistent
      (check { w with conn := { w.conn with
          terminal := true
          terminalPersistent := persistent
          terminalServiceId := serviceId } } .terminal, true)
  | some (.portForward host port) =>
    if refused .tunnel then (w.sendLoginError "No permission of IP tunneling", false)
    else
      let (addr, _) := normalizePortForwardTarget host port
      (check { w with conn := { w.conn with portForwardAddress := addr } } .portForward, true)
  | none =>
    if env.inPrivacyMode then
      (w.sendLoginError "Someone turns on privacy mode, exit", false)
    else (check w .remote, true)

/-- The login of the system account of a headless desktop: whether to go on, and its error. -/
def loginDesktop : World × Option Text :=
  let username := lr.osLoginUsername.dropWhile Char.isWhitespace
  let headless := env.isHeadlessAllowed && username ≠ []
  let refused : World × Bool :=
    if headless && env.desktopUsername = [] then
      match checkFailure env w 0 with
      | (w, none) => (w, true)
      | (w, some _) => (w, false)
    else (w, false)
  match refused with
  | (w, true) => (w, none)
  | (w, false) =>
    let errMsg := env.tryStartDesktop
    if errMsg ≠ [] ∧ errMsg ≠ "Desktop session not ready".toList then
      if headless && errMsg = "Wrong Password".toList then
        match checkFailure env w 0 with
        | (w, none) => (w, none)
        | (w, some failure) => ((w.updateFailure failure false 0).emit (.loginError errMsg), none)
      else (w.emit (.loginError errMsg), none)
    else (w, some errMsg)

/-- What becomes of a login whose credential is good. -/
def loginAccepted (errMsg : Text) : World × Bool :=
  let w := w.letIn lr
  if errMsg = [] then logon env w lr else (w.emit (.loginError errMsg), true)

def loginPassword (errMsg : Text) (allowLogonScreenPassword : Bool) : World × Bool :=
  match checkFailure env w 0 with
  | (w, none) => (w, true)
  | (w, some failure) =>
    match validatePassword env w allowLogonScreenPassword with
    | (w, true) => loginAccepted env (w.updateFailure failure true 0) lr errMsg
    | (w, false) =>
      let w := w.updateFailure failure false 0
      if errMsg = [] then
        ((w.sendLoginError "Wrong Password").tryStartCm lr.myId lr.myName false, true)
      else (w.sendLoginError "Desktop session not ready, password wrong", true)

/-- `get_version_number("1.2.0")`. -/
def version120 : ℤ := 1002000

/-- How a login is approved: by click, as a recent session, or by password. -/
def loginCredential (errMsg : Text) : World × Bool :=
  let allowLogonScreenPassword :=
    env.builtin "allow-logon-screen-password".toList = ['Y'] && env.isLogon
  let approveMode := env.config.approveMode
  if approveMode = .click && !allowLogonScreenPassword ||
      approveMode = .both && !hasValidPassword env.crypto env.config then
    let w := w.tryStartCm lr.myId lr.myName false
    (if lr.version ≥ version120 then w.sendLoginError "No Password Access" else w, true)
  else
    match isRecentSession env w false with
    | (w, true) => loginAccepted env w lr errMsg
    | (w, false) =>
      if lr.password = [] then
        (if errMsg = [] then w.tryStartCm lr.myId lr.myName false
          else w.sendLoginError "Desktop session not ready, password empty", true)
      else loginPassword env w lr errMsg allowLogonScreenPassword

/-- The arm of a `LoginRequest`. -/
def onLoginRequest : World × Bool :=
  let w := handleLoginRequestWithoutValidation env w lr
  if w.conn.authorized then (w, true)
  else
    match loginKind env w lr with
    | (w, false) => (w, false)
    | (w, true) =>
      if !env.isIpStr lr.username && !env.isDomainPortStr lr.username &&
          lr.username ≠ env.id then
        (w.sendLoginError "Offline", false)
      else
        let w := { w with conn := { w.conn with cmStarted := true } }
        match loginDesktop env w lr with
        | (w, none) => (w, true)
        | (w, some errMsg) => loginCredential env w lr errMsg

end LoginRequest

/-! ### The second factor and switched sides -/

section

variable (env : Env) (w : World)

/-- The arm of an `Auth2fa`. -/
def onAuth2fa (code : Text) (hwid : Bytes) : World × Bool :=
  match checkFailure env w 1 with
  | (w, none) => (w, true)
  | (w, some failure) =>
    match w.conn.require2fa.bind fun totp => env.checkCurrent totp code with
    | none => (w, true)
    | some false => ((w.updateFailure failure false 1).sendLoginError "Wrong 2FA Code", true)
    | some true =>
      let w := w.updateFailure failure true 1
      let w := { w with
        conn := { w.conn with require2fa := none }
        history := { w.history with code := true } }
      let w := w.setSession2fa w.conn.lr.sessionKey
      match logon env w w.conn.lr with
      | (w, false) => (w, false)
      | (w, true) =>
        if hwid ≠ [] ∧ enableTrustedDevices env.config then
          let lr := w.conn.lr
          (w.emit (.trustDevice ⟨hwid, env.now, lr.myId, lr.myName, lr.myPlatform⟩), true)
        else (w, true)

def takeSwitchSidesUuid (id : Text) : World × Option Bytes :=
  let uuids := w.shared.switchSidesUuid.retain fun id _ => env.recentUuid id
  ({ w with shared := { w.shared with switchSidesUuid := uuids.remove id } }, uuids id)

/-- The arm of a `SwitchSidesResponse`. -/
def onSwitchSidesResponse (uuid : Bytes) (lr : Option LoginRequest) : World × Bool :=
  match lr with
  | none => (w, true)
  | some lr =>
    let w := handleLoginRequestWithoutValidation env w lr
    let (w, uuidOld) := takeSwitchSidesUuid env w lr.myId
    -- A uuid has sixteen bytes.
    if uuid.length = 16 ∧ uuidOld = some uuid then
      let w := { w with
        conn := { w.conn with fromSwitch := true }
        history := { w.history with switchedSides := true } }
      match logon env (w.validates lr) lr with
      | (w, false) => (w, false)
      | (w, true) => ({ w with conn := { w.conn with cmStarted := true } }, true)
    else (w, true)

end

end World

end LibRustdesk.Desktop
