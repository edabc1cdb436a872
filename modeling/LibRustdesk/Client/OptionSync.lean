import LibRustdesk.Client.Options
import LibRustdesk.Server.Connection

/-!
# Option changes and reconnecting

A session starts with the options of its login (`get_option_message`) and goes on with the message
of each change (`toggle_option`), which the host applies one after the other (`update_options`).
Reconnecting starts over with the options of the configuration as it is then.

`PeerConfig.asked` is what a login asks for. `view-only` overrides other options there: the
clipboard is off and the cursor shown whatever their options say. A change of one of these is sent
as it is, also while `view-only` is on, and the host then leaves what a login would have said. The
cursor of the client is shown by a login in a view-only session, by a change in any session.

* `toggles_agree` — **the host is in step with a reconnect after every change exactly when no
  change is one of these** (`Aligned`). A login that carries no options is in step with changes
  that only switch off.
* `view_only_clipboard_returns` — a view-only session that has the clipboard until it reconnects.
-/

namespace LibRustdesk.Desktop

structure LoginOptions where
  disableKeyboard : Bool := false
  disableClipboard : Bool := false
  disableAudio : Bool := false
  enableFileTransfer : Bool := false
  showRemoteCursor : Bool := false
  showMyCursor : Bool := false
  followRemoteCursor : Bool := false
  followRemoteWindow : Bool := false
  lockAfterSessionEnd : Bool := false
  deriving DecidableEq

def LoginOptions.apply (s : LoginOptions) (o : OptionMessage) : LoginOptions where
  disableKeyboard := o.disableKeyboard.value.getD s.disableKeyboard
  disableClipboard := o.disableClipboard.value.getD s.disableClipboard
  disableAudio := o.disableAudio.value.getD s.disableAudio
  enableFileTransfer := o.enableFileTransfer.value.getD s.enableFileTransfer
  showRemoteCursor := o.showRemoteCursor.value.getD s.showRemoteCursor
  showMyCursor := o.showMyCursor.value.getD s.showMyCursor
  followRemoteCursor := o.followRemoteCursor.value.getD s.followRemoteCursor
  followRemoteWindow := o.followRemoteWindow.value.getD s.followRemoteWindow
  lockAfterSessionEnd := o.lockAfterSessionEnd.value.getD s.lockAfterSessionEnd

def Connection.options (c : Connection) : LoginOptions where
  disableKeyboard := c.disableKeyboard
  disableClipboard := c.disableClipboard
  disableAudio := c.disableAudio
  enableFileTransfer := c.enableFileTransfer
  showRemoteCursor := c.showRemoteCursor
  showMyCursor := c.showMyCursor
  followRemoteCursor := c.followRemoteCursor
  followRemoteWindow := c.followRemoteWindow
  lockAfterSessionEnd := c.lockAfterSessionEnd

theorem World.options_updateOptions (env : Env) (w : World) (o : OptionMessage) :
    (World.updateOptions env w o).conn.options = w.conn.options.apply o := by
  rw [World.conn_updateOptions]
  rfl

end LibRustdesk.Desktop

namespace LibRustdesk.Client

open Desktop (BoolOption Env LoginOptions Opening OptionMessage World)

/-! ### A session and its host -/

inductive SessionOption
  | showRemoteCursor
  | followRemoteCursor
  | followRemoteWindow
  | disableAudio
  | disableClipboard
  | lockAfterSessionEnd
  | enableFileCopyPaste
  | viewOnly
  | showMyCursor
  deriving DecidableEq, Repr

def SessionOption.name : SessionOption → String
  | showRemoteCursor => "show-remote-cursor"
  | followRemoteCursor => "follow-remote-cursor"
  | followRemoteWindow => "follow-remote-window"
  | disableAudio => "disable-audio"
  | disableClipboard => "disable-clipboard"
  | lockAfterSessionEnd => "lock-after-session-end"
  | enableFileCopyPaste => "enable-file-copy-paste"
  | viewOnly => "view-only"
  | showMyCursor => "show-my-cursor"

/-- The handler that `initialize` makes: the configuration is the one of the file. -/
def LoginConfigHandler.initialize (connType : ConnType) (config : PeerConfig) (direct : Option Bool)
    (usingPublicServer : Bool) (supportedDecoding : Bytes) : LoginConfigHandler :=
  ⟨connType, config, config, direct, usingPublicServer, supportedDecoding⟩

/-- The options of a message, if there is one, on a host. -/
def applyOption (env : Env) (w : World) : Option OptionMessage → World
  | some o => w.updateOptions env o
  | none => w

def login (env : Env) (s : Opening) (h : LoginConfigHandler) : World :=
  applyOption env (.start s) (h.getOptionMessage true)

/-- A change in the client, and its message at the host. -/
def session (env : Env) : Machine (LoginConfigHandler × World) SessionOption Unit where
  step s t :=
    let (h, o) := s.1.toggleOption t.name
    ((h, applyOption env s.2 o), [])

/-- The host has the options it would have after a new login. -/
def InStep (env : Env) (s : Opening) (x : LoginConfigHandler × World) : Prop :=
  x.2.conn.options = (login env s x.1).conn.options

def LoginConfigHandler.SendsOptions (h : LoginConfigHandler) : Prop :=
  h.connType = .defaultConn ∨ h.connType = .viewCamera

instance (h : LoginConfigHandler) : Decidable h.SendsOptions := inferInstanceAs (Decidable (_ ∨ _))

def Aligned (h : LoginConfigHandler) (t : SessionOption) : Prop :=
  let c := h.config
  if h.SendsOptions then
    match t with
    -- A view-only session shows the cursor and has no clipboard, lock or files.
    | .showRemoteCursor => ¬ (c.viewOnly ∧ c.showRemoteCursor)
    | .disableClipboard => ¬ (c.viewOnly ∧ c.disableClipboard)
    | .lockAfterSessionEnd => ¬ (c.viewOnly ∧ ¬ c.lockAfterSessionEnd)
    | .enableFileCopyPaste => ¬ (c.viewOnly ∧ ¬ c.enableFileCopyPaste)
    -- Only a view-only session shows the cursor of the client.
    | .showMyCursor => ¬ (¬ c.viewOnly ∧ ¬ c.showMyCursor)
    | .viewOnly => ¬ (¬ c.viewOnly ∧ c.showMyCursor)
    | .followRemoteCursor | .followRemoteWindow | .disableAudio => True
  else
    match t with
    | .showRemoteCursor => c.showRemoteCursor
    | .followRemoteCursor => c.followRemoteCursor
    | .followRemoteWindow => c.followRemoteWindow
    | .disableAudio => c.disableAudio
    | .disableClipboard => c.disableClipboard
    | .lockAfterSessionEnd => c.lockAfterSessionEnd
    | .enableFileCopyPaste => c.enableFileCopyPaste
    | .showMyCursor => c.showMyCursor
    | .viewOnly => c.viewOnly ∧ ¬ c.disableClipboard ∧ ¬ c.enableFileCopyPaste ∧
        ¬ c.showRemoteCursor ∧ ¬ c.lockAfterSessionEnd

/-! ### What a login asks for -/

def PeerConfig.asked (c : PeerConfig) : LoginOptions where
  disableKeyboard := c.viewOnly
  disableClipboard := c.viewOnly || c.disableClipboard
  disableAudio := c.disableAudio
  enableFileTransfer := !c.viewOnly && c.enableFileCopyPaste
  showRemoteCursor := c.viewOnly || c.showRemoteCursor
  showMyCursor := c.viewOnly && c.showMyCursor
  followRemoteCursor := c.followRemoteCursor
  followRemoteWindow := c.followRemoteWindow
  lockAfterSessionEnd := !c.viewOnly && c.lockAfterSessionEnd

section Login

variable (env : Env) (s : Opening) (h : LoginConfigHandler)

theorem options_applyOption (w : World) (o : Option OptionMessage) :
    (applyOption env w o).conn.options = (o.map w.conn.options.apply).getD w.conn.options := by
  cases o with
  | none => rfl
  | some o => exact w.options_updateOptions env o

theorem options_login (hsends : h.SendsOptions) :
    (login env s h).conn.options = h.config.asked := by
  have hyes (b : Bool) : ((LoginConfigHandler.yesIf b).value).getD false = b := by
    cases b <;> rfl
  unfold login
  rw [options_applyOption]
  rcases hsends with hconn | hconn
  all_goals
    unfold LoginConfigHandler.getOptionMessage
    rw [hconn]
    simp only [Option.map_some, Option.getD_some, LoginOptions.apply, Desktop.Connection.options,
      World.start, Desktop.Connection.new, hyes]
    rfl

theorem options_login_of_not_sends (hsends : ¬ h.SendsOptions) :
    (login env s h).conn.options = {} := by
  unfold login
  rw [options_applyOption]
  unfold LoginConfigHandler.getOptionMessage
  cases hconn : h.connType with
  | defaultConn => exact absurd (Or.inl hconn) hsends
  | viewCamera => exact absurd (Or.inr hconn) hsends
  | terminal =>
    dsimp only
    split <;> rfl
  | fileTransfer | portForward | rdp => rfl

end Login

/-! ### What a change does -/

def SessionOption.change (c : PeerConfig) : SessionOption → PeerConfig × OptionMessage
  | showRemoteCursor => ({ c with showRemoteCursor := !c.showRemoteCursor },
      { showRemoteCursor := .ofBool !c.showRemoteCursor })
  | followRemoteCursor => ({ c with followRemoteCursor := !c.followRemoteCursor },
      { followRemoteCursor := .ofBool !c.followRemoteCursor })
  | followRemoteWindow => ({ c with followRemoteWindow := !c.followRemoteWindow },
      { followRemoteWindow := .ofBool !c.followRemoteWindow })
  | disableAudio => ({ c with disableAudio := !c.disableAudio },
      { disableAudio := .ofBool !c.disableAudio })
  | disableClipboard => ({ c with disableClipboard := !c.disableClipboard },
      { disableClipboard := .ofBool !c.disableClipboard })
  | lockAfterSessionEnd => ({ c with lockAfterSessionEnd := !c.lockAfterSessionEnd },
      { lockAfterSessionEnd := .ofBool !c.lockAfterSessionEnd })
  | enableFileCopyPaste => ({ c with enableFileCopyPaste := !c.enableFileCopyPaste },
      { enableFileTransfer := .ofBool !c.enableFileCopyPaste })
  | viewOnly =>
    if c.viewOnly then
      ({ c with viewOnly := false, showMyCursor := false },
        { disableKeyboard := .no
          disableClipboard := .ofBool c.disableClipboard
          showRemoteCursor := .ofBool c.showRemoteCursor
          enableFileTransfer := .ofBool c.enableFileCopyPaste
          lockAfterSessionEnd := .ofBool c.lockAfterSessionEnd
          showMyCursor := if c.showMyCursor then .no else .notSet })
    else
      ({ c with viewOnly := true },
        { disableKeyboard := .yes, disableClipboard := .yes, showRemoteCursor := .yes,
          enableFileTransfer := .no, lockAfterSessionEnd := .no })
  | showMyCursor => ({ c with showMyCursor := !c.showMyCursor },
      { showMyCursor := .ofBool !c.showMyCursor })

section Step

variable {env : Env} {s : Opening} {h : LoginConfigHandler}

theorem toggleOption_name (t : SessionOption) (hstored : h.stored = h.config) :
    h.toggleOption t.name =
      (h.saveConfig (t.change h.config).1, some (t.change h.config).2) := by
  unfold LoginConfigHandler.toggleOption LoginConfigHandler.loadConfig
  rw [hstored]
  cases t with
  | viewOnly =>
    obtain ⟨_, ⟨_, _, _, _, _, _, _, _, _, _, _, _, _, viewOnly, showMyCursor, _⟩, _, _, _, _⟩ := h
    cases viewOnly <;> cases showMyCursor <;> rfl
  | showRemoteCursor | followRemoteCursor | followRemoteWindow | disableAudio | disableClipboard
  | lockAfterSessionEnd | enableFileCopyPaste | showMyCursor =>
    simp only [SessionOption.name, SessionOption.change, String.reduceEq, if_true, if_false]

theorem asked_change (hsends : h.SendsOptions) (t : SessionOption) :
    h.config.asked.apply (t.change h.config).2 = (t.change h.config).1.asked ↔ Aligned h t := by
  unfold Aligned
  rw [if_pos hsends]
  generalize h.config = c
  cases t with
  | showRemoteCursor | disableClipboard | lockAfterSessionEnd | enableFileCopyPaste
  | showMyCursor =>
    simp only [SessionOption.change, PeerConfig.asked, LoginOptions.apply]
    cases c.viewOnly <;> simp
  | followRemoteCursor | followRemoteWindow | disableAudio =>
    simp [SessionOption.change, PeerConfig.asked, LoginOptions.apply]
  | viewOnly =>
    simp only [SessionOption.change, PeerConfig.asked, LoginOptions.apply]
    cases c.viewOnly <;> cases c.showMyCursor <;> simp

theorem default_change (hsends : ¬ h.SendsOptions) (t : SessionOption) :
    LoginOptions.apply {} (t.change h.config).2 = {} ↔ Aligned h t := by
  unfold Aligned
  rw [if_neg hsends]
  generalize h.config = c
  cases t with
  | showRemoteCursor | disableClipboard | lockAfterSessionEnd | enableFileCopyPaste
  | showMyCursor | followRemoteCursor | followRemoteWindow | disableAudio =>
    simp [SessionOption.change, LoginOptions.apply]
  | viewOnly =>
    simp only [SessionOption.change, LoginOptions.apply]
    cases c.viewOnly <;> cases c.showMyCursor <;> simp

variable {x : LoginConfigHandler × World}

theorem inStep_next (hstored : x.1.stored = x.1.config) (hin : InStep env s x) (t : SessionOption) :
    InStep env s ((session env).next x t) ↔ Aligned x.1 t := by
  obtain ⟨h, w⟩ := x
  change w.conn.options = (login env s h).conn.options at hin
  show (applyOption env w (h.toggleOption t.name).2).conn.options =
    (login env s (h.toggleOption t.name).1).conn.options ↔ _
  rw [toggleOption_name t hstored, options_applyOption, hin]
  by_cases hsends : h.SendsOptions
  · rw [options_login env s h hsends, options_login env s _ (by exact hsends)]
    exact asked_change hsends t
  · rw [options_login_of_not_sends env s h hsends,
      options_login_of_not_sends env s _ (by exact hsends)]
    exact default_change hsends t

theorem stored_next (hstored : x.1.stored = x.1.config) (t : SessionOption) :
    ((session env).next x t).1.stored = ((session env).next x t).1.config := by
  show (x.1.toggleOption t.name).1.stored = (x.1.toggleOption t.name).1.config
  rw [toggleOption_name t hstored]
  rfl

end Step

/-- **In step with a reconnect.** A host that has been logged in to and is sent the changes has,
after every one of them, the options of a new login exactly when every change is aligned. -/
theorem toggles_agree (env : Env) (s : Opening) (connType : ConnType) (config : PeerConfig)
    (direct : Option Bool) (usingPublicServer : Bool) (supportedDecoding : Bytes)
    (toggles : List SessionOption) :
    let h := LoginConfigHandler.initialize connType config direct usingPublicServer
      supportedDecoding
    (∀ pre, pre <+: toggles → InStep env s ((session env).run (h, login env s h) pre)) ↔
      (session env).Meets (fun x t => Aligned x.1 t) (h, login env s h) toggles := by
  intro h
  exact Machine.meets_iff_inv (M := session env) (I := InStep env s)
    (J := fun x => x.1.stored = x.1.config) rfl rfl (fun x t hx => stored_next hx t)
    fun x t hx hin => inStep_next hx hin t

def viewOnlyConfig : PeerConfig where
  imageQuality := "balanced"
  customImageQuality := []
  showRemoteCursor := false
  lockAfterSessionEnd := false
  terminalPersistent := false
  privacyMode := false
  allowSwapKey := false
  disableAudio := false
  disableClipboard := false
  enableFileCopyPaste := false
  showQualityMonitor := false
  followRemoteCursor := false
  followRemoteWindow := false
  viewOnly := true
  showMyCursor := false
  options := Table.empty

/-- **The clipboard comes back.** Switching `disable-clipboard` on and off in a view-only session
turns on the clipboard at the host; a reconnect would turn it off. -/
theorem view_only_clipboard_returns :
    ¬ ∀ (env : Env) (s : Opening) (connType : ConnType) (config : PeerConfig)
      (direct : Option Bool) (usingPublicServer : Bool) (supportedDecoding : Bytes)
      (toggles : List SessionOption),
      let h := LoginConfigHandler.initialize connType config direct usingPublicServer
        supportedDecoding
      InStep env s ((session env).run (h, login env s h) toggles) := by
  intro hall
  have hin := hall .plain .plain .defaultConn viewOnlyConfig none true []
    [.disableClipboard, .disableClipboard]
  exact absurd (congrArg LoginOptions.disableClipboard hin) (by decide +kernel)

end LibRustdesk.Client
