import LibRustdesk.Server.OnMessage

/-!
# What a connection is authorized as, and what the rest leaves alone

`Core` is the part of a world that decides whether and as what a connection is authorized. The
services, the options and everything sent to the outside are not in it, so most functions keep it
(`core_updateOptions`, `core_welcome`, `core_onAuthorizedMessage`, `core_onSwitchPermission`). The
specification of `send_logon_response_and_keep_alive` is `sendLogonResponse_cases`: it changes
nothing, waits, gives up, or authorizes.
-/

namespace LibRustdesk.Desktop

structure Core where
  authorized : Bool
  require2fa : Option Text
  fromSwitch : Bool
  lr : LoginRequest
  fileTransfer : Option (Text × Bool)
  viewCamera : Bool
  terminal : Bool
  portForwardSocket : Option Text
  authedConnId : Option (AuthConnType × SessionKey)
  cmStarted : Bool
  history : History

namespace World

def core (w : World) : Core where
  authorized := w.conn.authorized
  require2fa := w.conn.require2fa
  fromSwitch := w.conn.fromSwitch
  lr := w.conn.lr
  fileTransfer := w.conn.fileTransfer
  viewCamera := w.conn.viewCamera
  terminal := w.conn.terminal
  portForwardSocket := w.conn.portForwardSocket
  authedConnId := w.conn.authedConnId
  cmStarted := w.conn.cmStarted
  history := w.history

@[simp] theorem core_emit (w : World) (e : Effect) : (w.emit e).core = w.core := rfl

@[simp] theorem core_subscribe (w : World) (name : ServiceName) (sub : Bool) :
    (w.subscribe name sub).core = w.core := by
  unfold subscribe
  split <;> rfl

theorem core_foldl {α : Type} {f : World → α → World} (hf : ∀ w a, (f w a).core = w.core)
    (w : World) (l : List α) : (l.foldl f w).core = w.core := by
  induction l generalizing w with
  | nil => rfl
  | cons a l ih => rw [List.foldl_cons, ih, hf]

@[simp] theorem core_serverCaptureDisplays (w : World) (source : VideoSource) (displays : List ℕ)
    (incl excl : Bool) : (w.serverCaptureDisplays source displays incl excl).core = w.core := by
  refine core_foldl (fun w name => ?_) w _
  repeat' split
  all_goals simp

@[simp] theorem core_addConnection (env : Env) (w : World) (noperms : List ServiceName) :
    (addConnection env w noperms).core = w.core := by
  refine core_foldl (fun w name => ?_) w _
  repeat' split
  all_goals simp

section

variable (env : Env) (w : World)

section Options

variable (o : OptionMessage)

@[simp] theorem core_updateImageQuality : (w.updateImageQuality o).core = w.core := by
  unfold updateImageQuality
  dsimp only
  generalize (if o.imageQuality = 0 then
    (if o.customImageQuality > 0 then o.customImageQuality else -1) else o.imageQuality) = q
  split <;> rfl

@[simp] theorem core_updateCustomFps : (w.updateCustomFps o).core = w.core := by
  unfold updateCustomFps
  split <;> rfl

@[simp] theorem core_updateSupportedDecoding : (w.updateSupportedDecoding o).core = w.core := by
  unfold updateSupportedDecoding
  split <;> rfl

@[simp] theorem core_updateLockAfterSessionEnd : (w.updateLockAfterSessionEnd o).core = w.core := by
  unfold updateLockAfterSessionEnd
  split <;> rfl

@[simp] theorem core_updateShowRemoteCursor : (w.updateShowRemoteCursor o).core = w.core := by
  unfold updateShowRemoteCursor
  split
  · simp only [core_subscribe]
    rfl
  · rfl

@[simp] theorem core_updateFollowRemoteCursor : (w.updateFollowRemoteCursor o).core = w.core := by
  unfold updateFollowRemoteCursor
  split <;> rfl

@[simp] theorem core_updateFollowRemoteWindow : (w.updateFollowRemoteWindow o).core = w.core := by
  unfold updateFollowRemoteWindow
  split
  · simp only [core_subscribe]
    rfl
  · rfl

@[simp] theorem core_updateDisableAudio : (w.updateDisableAudio o).core = w.core := by
  unfold updateDisableAudio
  dsimp only
  repeat' split
  all_goals first | rfl | (simp only [core_subscribe]; rfl)

@[simp] theorem core_updateEnableFileTransfer :
    (updateEnableFileTransfer env w o).core = w.core := by
  unfold updateEnableFileTransfer
  split
  · simp only [core_subscribe]
    rfl
  · rfl

@[simp] theorem core_updateDisableClipboard : (updateDisableClipboard env w o).core = w.core := by
  unfold updateDisableClipboard
  split
  · simp only [core_subscribe]
    rfl
  · rfl

@[simp] theorem core_updateDisableKeyboard : (updateDisableKeyboard env w o).core = w.core := by
  unfold updateDisableKeyboard
  split
  · simp only [core_subscribe]
    rfl
  · rfl

@[simp] theorem core_updatePrivacyMode : (w.updatePrivacyMode o).core = w.core := by
  unfold updatePrivacyMode turnPrivacy
  repeat' split
  all_goals rfl

@[simp] theorem core_updateBlockInput : (w.updateBlockInput o).core = w.core := by
  unfold updateBlockInput
  repeat' split
  all_goals rfl

@[simp] theorem core_updateTerminalPersistence : (w.updateTerminalPersistence o).core = w.core := by
  unfold updateTerminalPersistence
  split <;> rfl

@[simp] theorem core_updateShowMyCursor : (w.updateShowMyCursor o).core = w.core := by
  unfold updateShowMyCursor
  split <;> rfl

@[simp] theorem core_updateOptions : (updateOptions env w o).core = w.core := by
  unfold updateOptions
  simp only [core_updateShowMyCursor, core_updateTerminalPersistence, core_updateBlockInput,
    core_updatePrivacyMode, core_updateDisableKeyboard, core_updateDisableClipboard,
    core_updateEnableFileTransfer, core_updateDisableAudio, core_updateFollowRemoteWindow,
    core_updateFollowRemoteCursor, core_updateShowRemoteCursor, core_updateLockAfterSessionEnd,
    core_updateSupportedDecoding, core_updateCustomFps, core_updateImageQuality]

end Options

end

end World

namespace World

section Login

variable (env : Env) (w : World)

@[simp] theorem core_applyOptionsInLogin : (applyOptionsInLogin env w).core = w.core := by
  unfold applyOptionsInLogin
  split
  · rw [core_updateOptions]
    rfl
  · rfl

@[simp] theorem core_trySubCameraDisplays : (trySubCameraDisplays env w).core = w.core := by
  unfold trySubCameraDisplays
  split
  · rw [core_subscribe]
    rfl
  · rfl

@[simp] theorem core_trySubMonitorServices : (trySubMonitorServices env w).core = w.core := by
  unfold trySubMonitorServices
  dsimp only
  split
  · rw [core_addConnection]
    rfl
  · rfl

@[simp] theorem core_welcome : (welcome env w).core = w.core := by
  have hkeyboard (w : World) :
      ({ w with conn := { w.conn with keyboard := false } } : World).core = w.core := rfl
  unfold welcome
  dsimp only
  repeat' split
  all_goals simp only [core_emit, hkeyboard, core_trySubCameraDisplays,
    core_trySubMonitorServices, core_applyOptionsInLogin]

@[simp] theorem core_validatePassword (allow : Bool) :
    (validatePassword env w allow).1.core = w.core := by
  unfold validatePassword
  dsimp only
  split <;> rfl

theorem isRecentSession_fst (tfa : Bool) : ∃ shared,
    (isRecentSession env w tfa).1 = { w with shared := shared } := by
  unfold isRecentSession
  dsimp only
  split <;> exact ⟨_, rfl⟩

@[simp] theorem core_isRecentSession (tfa : Bool) :
    (isRecentSession env w tfa).1.core = w.core := by
  obtain ⟨shared, hw⟩ := isRecentSession_fst env w tfa
  rw [hw]
  rfl

end Login

end World

/-! ### `send_logon_response_and_keep_alive` -/

/-- `prepare_terminal_login_for_authorization` lets the connection go on. -/
def Connection.terminalAllowed (env : Env) (c : Connection) : Bool :=
  !c.terminal || c.terminalUserToken || env.isServiceSpecifiedUser c.terminalServiceId ≠ some true

/-- `connect_port_forward_if_needed` does. -/
def Connection.connects (env : Env) (c : Connection) : Bool :=
  c.portForwardSocket.isSome ||
    match c.lr.union with
    | some (.portForward host port) => env.connects (World.normalizePortForwardTarget host port).1
    | _ => true

def Connection.socket (c : Connection) : Option Text :=
  c.portForwardSocket.or
    (match c.lr.union with
    | some (.portForward host port) => some (World.normalizePortForwardTarget host port).1
    | _ => none)

def Connection.canBeAuthorized (env : Env) (c : Connection) : Bool :=
  c.terminalAllowed env && c.connects env

def Core.authKind (c : Core) : AuthConnType :=
  if c.fileTransfer.isSome then .fileTransfer
  else if c.portForwardSocket.isSome then .portForward
  else if c.viewCamera then .viewCamera
  else if c.terminal then .terminal
  else .remote

def Core.authorize (c : Core) : Core :=
  { c with authorized := true, authedConnId := some (c.authKind, c.lr.sessionKey) }

namespace World

def passes2fa (env : Env) (w : World) : Bool :=
  w.conn.require2fa.isNone || w.conn.fromSwitch || (isRecentSession env w true).2

/-- How: there is none to ask for, or a recent session stands for it. -/
def Passes2fa (w : World) (h : History) : Prop :=
  (w.conn.require2fa = none ∨ w.conn.fromSwitch = true) ∧ h = w.history ∨
    h = { w.history with recentSession2fa := true }

/-- What `send_logon_response_and_keep_alive` can do. -/
inductive Logon (env : Env) (w : World) : World × Bool → Prop
  /-- The connection is authorized already. -/
  | again (w' : World) (hauth : w.conn.authorized = true) (hcore : w'.core = w.core) :
      Logon env w (w', true)
  /-- The second factor is asked for. -/
  | waits (w' : World) (hauth : w.conn.authorized = false) (hpasses : w.passes2fa env = false)
      (hcore : w'.core = w.core) : Logon env w (w', true)
  /-- The connection is to be closed. -/
  | closes (w' : World) (h : History) (hauth : w.conn.authorized = false)
      (hcan : w.conn.canBeAuthorized env = false) (hpass : w.Passes2fa h)
      (hcore : w'.core = { w.core with history := h }) : Logon env w (w', false)
  | authorizes (w' : World) (h : History) (hauth : w.conn.authorized = false)
      (hpasses : w.passes2fa env = true) (hcan : w.conn.canBeAuthorized env = true)
      (hpass : w.Passes2fa h)
      (hcore : w'.core = ({ w.core with
        portForwardSocket := w.conn.socket, history := h } : Core).authorize) :
      Logon env w (w', true)

section

variable (env : Env) (w : World)

theorem awaits2fa_cases :
    (∃ w', awaits2fa env w = (w', true) ∧ w'.core = w.core ∧ w.passes2fa env = false) ∨
    ∃ w' h, awaits2fa env w = (w', false) ∧ w'.conn = w.conn ∧ w'.history = h ∧
      w.passes2fa env = true ∧ w.Passes2fa h := by
  unfold awaits2fa passes2fa
  by_cases hrequire : w.conn.require2fa.isSome
  · rw [if_pos hrequire]
    have hnone : w.conn.require2fa.isNone = false := by
      rw [← Option.not_isSome, hrequire]
      rfl
    obtain ⟨shared, hw⟩ := isRecentSession_fst env w true
    rcases hres : isRecentSession env w true with ⟨w', recent⟩
    rw [hres] at hw
    subst hw
    cases recent with
    | true => exact Or.inr ⟨_, _, rfl, rfl, rfl, by simp, Or.inr rfl⟩
    | false =>
      cases hswitch : w.conn.fromSwitch with
      | true =>
        exact Or.inr ⟨_, _, congrArg (Prod.mk _) (by simp [hswitch]), rfl, rfl, by simp,
          Or.inl ⟨Or.inr hswitch, rfl⟩⟩
      | false =>
        exact Or.inl ⟨_, congrArg (Prod.mk _) (by simp [hswitch]), rfl, by simp [hnone]⟩
  · rw [if_neg hrequire]
    have hnone : w.conn.require2fa = none := by simpa using hrequire
    exact Or.inr ⟨w, _, rfl, rfl, rfl, by simp [hnone], Or.inl ⟨Or.inl hnone, rfl⟩⟩

theorem prepareTerminalLogin_spec :
    (prepareTerminalLogin env w).2 = (if w.conn.terminalAllowed env then none else some false) ∧
      (prepareTerminalLogin env w).1.core = w.core ∧
      (prepareTerminalLogin env w).1.conn.connects env = w.conn.connects env ∧
      (prepareTerminalLogin env w).1.conn.socket = w.conn.socket := by
  unfold prepareTerminalLogin Connection.terminalAllowed
  cases hterminal : w.conn.terminal with
  | false => simp
  | true =>
    cases htoken : w.conn.terminalUserToken with
    | true => simp
    | false =>
      by_cases huser : env.isServiceSpecifiedUser w.conn.terminalServiceId = some true
      · simp only [Bool.not_true, Bool.or_self, Bool.false_eq_true, if_false, huser, if_true]
        exact ⟨by simp, rfl, rfl, rfl⟩
      · simp only [Bool.not_true, Bool.or_self, Bool.false_eq_true, if_false, huser]
        exact ⟨by simp [huser], rfl, rfl, rfl⟩

theorem connectPortForward_spec :
    (connectPortForward env w).2 = w.conn.connects env ∧
      (connectPortForward env w).1.core =
        if w.conn.connects env then { w.core with portForwardSocket := w.conn.socket }
        else w.core := by
  unfold connectPortForward Connection.connects Connection.socket
  cases hsocket : w.conn.portForwardSocket with
  | some addr => simp [core, hsocket]
  | none =>
    cases hunion : w.conn.lr.union with
    | none => simp [core, hsocket]
    | some union =>
      cases union with
      | portForward host port =>
        dsimp only
        by_cases hconnects : env.connects (normalizePortForwardTarget host port).1 = true
        · rw [if_neg (by simp), if_pos hconnects]
          refine ⟨by simp [hconnects], ?_⟩
          rw [if_pos (by simp [hconnects])]
          rfl
        · rw [if_neg (by simp), if_neg hconnects]
          refine ⟨by simp [hconnects], ?_⟩
          rw [if_neg (c := ((none : Option Text).isSome || env.connects _) = true)
            (by simp [hconnects])]
          rfl
      | fileTransfer dir showHidden => simp [core, hsocket]
      | viewCamera => simp [core, hsocket]
      | terminal serviceId => simp [core, hsocket]

theorem sendLogonResponse_cases : Logon env w (sendLogonResponse env w) := by
  unfold sendLogonResponse
  cases hauth : w.conn.authorized with
  | true => exact .again _ hauth rfl
  | false =>
    rw [if_neg (by simp)]
    rcases awaits2fa_cases env w with ⟨w1, hawaits, hcore, hpasses⟩ |
      ⟨w1, h, hawaits, hconn, hhistory, hpasses, hpass⟩
    · rw [hawaits]
      exact .waits _ hauth hpasses hcore
    · rw [hawaits]
      dsimp only
      have hcore : w1.core = { w.core with history := h } := by
        unfold core
        rw [hconn, hhistory]
      obtain ⟨hprep, hprepCore, hprepConn, hprepSocket⟩ := prepareTerminalLogin_spec env w1
      rw [hconn] at hprep hprepConn hprepSocket
      rw [hcore] at hprepCore
      rcases hterm : prepareTerminalLogin env w1 with ⟨w2, keep⟩
      rw [hterm] at hprep hprepCore hprepConn hprepSocket
      cases hallowed : w.conn.terminalAllowed env with
      | false =>
        rw [hallowed] at hprep
        obtain rfl : keep = some false := hprep
        exact .closes _ h hauth (by simp [Connection.canBeAuthorized, hallowed]) hpass hprepCore
      | true =>
        rw [hallowed] at hprep
        obtain rfl : keep = none := hprep
        dsimp only
        obtain ⟨hconnects, hconnCore⟩ := connectPortForward_spec env w2
        rw [hprepConn] at hconnects hconnCore
        rw [hprepSocket, hprepCore] at hconnCore
        rcases hforward : connectPortForward env w2 with ⟨w3, ok⟩
        rw [hforward] at hconnects hconnCore
        subst hconnects
        cases hok : w.conn.connects env with
        | false =>
          rw [hok] at hconnCore
          exact .closes _ h hauth (by simp [Connection.canBeAuthorized, hok]) hpass hconnCore
        | true =>
          rw [hok] at hconnCore
          refine .authorizes _ h hauth hpasses
            (by simp [Connection.canBeAuthorized, hallowed, hok]) hpass ?_
          rw [core_welcome]
          show w3.core.authorize = _
          rw [hconnCore]
          rfl

end

end World

/-! ### The other arms -/

namespace World

section Arms

variable (env : Env) (w : World)

@[simp] theorem core_addServices (s : Server) :
    ({ w with server := s } : World).core = w.core := rfl

theorem core_ite {p : Prop} [Decidable p] {w w' : World} (h : w'.core = w.core) :
    (if p then w' else w).core = w.core := by
  split
  · exact h
  · rfl

@[simp] theorem core_switchDisplayTo (displayIdx : ℕ) :
    (switchDisplayTo env w displayIdx).core = w.core := by
  have hidx (w : World) :
      ({ w with conn := { w.conn with displayIdx := displayIdx } } : World).core = w.core := rfl
  unfold switchDisplayTo
  rw [hidx, core_subscribe, core_ite (core_subscribe _ _ _), core_ite (core_addServices w _)]

@[simp] theorem core_handleSwitchDisplay (display width height : Int32) :
    (handleSwitchDisplay env w display width height).core = w.core := by
  unfold handleSwitchDisplay
  dsimp only
  repeat' split
  all_goals simp

@[simp] theorem core_captureDisplays (add sub set : List ℕ) :
    (w.captureDisplays add sub set).core = w.core := by
  have hmulti (w : World) (b : Bool) :
      ({ w with conn := { w.conn with multiUiSession := b } } : World).core = w.core := rfl
  unfold captureDisplays
  dsimp only
  repeat' split
  all_goals simp only [core_subscribe, hmulti, core_serverCaptureDisplays, core_addServices]

@[simp] theorem core_closeVoiceCall : w.closeVoiceCall.core = w.core := by
  unfold closeVoiceCall
  dsimp only
  split
  · rw [core_subscribe]
    rfl
  · rfl

@[simp] theorem core_handleVoiceCall (accepted : Bool) :
    (w.handleVoiceCall accepted).core = w.core := by
  unfold handleVoiceCall
  dsimp only
  repeat' split
  · rw [core_subscribe]
    rfl
  · rfl
  · rfl

@[simp] theorem core_onMouseEvent : w.onMouseEvent.core = w.core := by
  unfold onMouseEvent
  repeat' split
  all_goals rfl

@[simp] theorem core_onPointerDeviceEvent : w.onPointerDeviceEvent.core = w.core := by
  unfold onPointerDeviceEvent
  repeat' split
  all_goals rfl

@[simp] theorem core_onKeyEvent (me : KeyEvent) : (w.onKeyEvent me).core = w.core := by
  unfold onKeyEvent
  repeat' split
  all_goals rfl

@[simp] theorem core_onFileAction (fa : FileAction) : (onFileAction env w fa).core = w.core := by
  unfold onFileAction
  dsimp only
  repeat' split
  all_goals rfl

@[simp] theorem core_onMisc (m : Misc) : (onMisc env w m).1.core = w.core := by
  cases m with
  | switchDisplay display width height => exact core_handleSwitchDisplay env w display width height
  | captureDisplays add sub set => exact core_captureDisplays w _ _ _
  | option o => exact core_updateOptions env w o
  | togglePrivacyMode implKey on => rfl
  | restartRemoteDevice | audioFormat _ | switchSidesRequest _ | changeResolution _ _
  | changeDisplayResolution _ _ _ =>
    unfold onMisc
    dsimp only
    split <;> rfl
  | chatMessage _ | refreshVideo _ | refreshVideoDisplay _ | videoReceived | autoAdjustFps _
  | clientRecordStatus _ | messageQuery _ | closeReason | other => rfl

@[simp] theorem core_onAuthorizedMessage (m : Message) :
    (onAuthorizedMessage env w m).1.core = w.core := by
  cases m with
  | mouseEvent data => exact core_onMouseEvent w
  | pointerDeviceEvent data => exact core_onPointerDeviceEvent w
  | keyEvent me => exact core_onKeyEvent w me
  | fileAction fa => exact core_onFileAction env w fa
  | misc m => exact core_onMisc env w m
  | clipboard _ | multiClipboards _ | audioFrame _ =>
    unfold onAuthorizedMessage
    dsimp only
    split <;> rfl
  | voiceCallRequest isConnect =>
    unfold onAuthorizedMessage
    dsimp only
    split
    · rfl
    · exact core_closeVoiceCall w
  | loginRequest _ | auth2fa _ _ | testDelay _ | switchSidesResponse _ _ | cliprdr _
  | fileResponse _ | voiceCallResponse | screenshotRequest _ | terminalAction _ | other => rfl

@[simp] theorem core_onTestDelay (fromClient : Bool) :
    (w.onTestDelay fromClient).core = w.core := by
  unfold onTestDelay
  split <;> rfl

@[simp] theorem core_checkRemoveSession : (checkRemoveSession env w).core = w.core := by
  unfold checkRemoveSession
  dsimp only
  split <;> rfl

@[simp] theorem core_onSwitchPermission (name : String) (enabled : Bool) :
    (onSwitchPermission env w name enabled).core = w.core := by
  unfold onSwitchPermission
  dsimp only
  repeat' split
  all_goals first | rfl | (simp only [core_subscribe]; rfl)

@[simp] theorem core_onTestDelayTimer : w.onTestDelayTimer.core = w.core := by
  unfold onTestDelayTimer
  split <;> rfl

@[simp] theorem core_onRead (m : Message) : (onRead env w m).core = (onMessage env w m).1.core := by
  unfold onRead
  dsimp only
  split <;> rfl

end Arms

end World

end LibRustdesk.Desktop
