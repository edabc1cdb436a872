import LibRustdesk.Server.Messages
import LibRustdesk.Framework.Table

/-!
# The options of a peer

The part of `LoginConfigHandler` of `src/client.rs` that turns the configuration of a peer into the
options of a login (`get_option_message`) and into the message of a single change
(`toggle_option`).

The handler keeps the configuration in memory and in a file. `toggle_option` starts from the file
and saves it back into both; some of what it sends it reads from memory, before that. The file
keeps the flags as they are, so it is a second value here.
-/

namespace LibRustdesk.Client

open Desktop (BoolOption OptionMessage)

inductive ConnType
  | defaultConn
  | fileTransfer
  | portForward
  | rdp
  | viewCamera
  | terminal
  deriving DecidableEq, Repr

/-- The fields of `PeerConfig` that are toggled or sent. -/
structure PeerConfig where
  imageQuality : String
  customImageQuality : List Int32
  showRemoteCursor : Bool
  lockAfterSessionEnd : Bool
  terminalPersistent : Bool
  privacyMode : Bool
  allowSwapKey : Bool
  disableAudio : Bool
  disableClipboard : Bool
  enableFileCopyPaste : Bool
  showQualityMonitor : Bool
  followRemoteCursor : Bool
  followRemoteWindow : Bool
  viewOnly : Bool
  showMyCursor : Bool
  options : Table String String

structure LoginConfigHandler where
  connType : ConnType
  config : PeerConfig
  /-- The file of the peer. -/
  stored : PeerConfig
  direct : Option Bool
  /-- `using_public_server()` and `get_supported_decoding()`. -/
  usingPublicServer : Bool
  supportedDecoding : Bytes

/-- The digits of `i32::from_str`. -/
def parseDigits : ℕ → List Char → Option ℕ
  | n, [] => some n
  | n, c :: cs =>
    if '0' ≤ c ∧ c ≤ '9' then parseDigits (n * 10 + (c.toNat - '0'.toNat)) cs else none

/-- `i32::from_str`. -/
def parseI32 (s : String) : Option Int32 :=
  let (neg, digits) : Bool × List Char :=
    match s.toList with
    | '-' :: cs => (true, cs)
    | '+' :: cs => (false, cs)
    | cs => (false, cs)
  if digits = [] then none
  else
    match parseDigits 0 digits with
    | some n =>
      if neg then if n ≤ 2 ^ 31 then some (Int32.ofInt (-n)) else none
      else if n < 2 ^ 31 then some (Int32.ofNat n) else none
    | none => none

namespace LoginConfigHandler

variable (h : LoginConfigHandler)

def getOption (k : String) : String := (h.config.options k).getD ""

def getToggleOption (name : String) : Bool :=
  if name = "show-remote-cursor" then h.config.showRemoteCursor
  else if name = "lock-after-session-end" then h.config.lockAfterSessionEnd
  else if name = "terminal-persistent" then h.config.terminalPersistent
  else if name = "privacy-mode" then h.config.privacyMode
  else if name = "enable-file-copy-paste" then h.config.enableFileCopyPaste
  else if name = "disable-audio" then h.config.disableAudio
  else if name = "disable-clipboard" then h.config.disableClipboard
  else if name = "show-quality-monitor" then h.config.showQualityMonitor
  else if name = "allow_swap_key" then h.config.allowSwapKey
  else if name = "view-only" then h.config.viewOnly
  else if name = "show-my-cursor" then h.config.showMyCursor
  else if name = "follow-remote-cursor" then h.config.followRemoteCursor
  else if name = "follow-remote-window" then h.config.followRemoteWindow
  else !(h.getOption name).isEmpty

def loadConfig : PeerConfig := h.stored

def saveConfig (config : PeerConfig) : LoginConfigHandler :=
  { h with config := config, stored := config }

/-- The message of `view-only`, and the configuration it leaves. -/
def toggleViewOnly (config : PeerConfig) : PeerConfig × OptionMessage :=
  let config := { config with viewOnly := !config.viewOnly }
  let f := BoolOption.ofBool
  if config.viewOnly then
    (config, { disableKeyboard := f true, disableClipboard := f true, showRemoteCursor := f true,
               enableFileTransfer := f false, lockAfterSessionEnd := f false })
  else
    -- What it goes back to is read from memory.
    let option : OptionMessage :=
      { disableKeyboard := f false
        disableClipboard := f (h.getToggleOption "disable-clipboard")
        showRemoteCursor := f (h.getToggleOption "show-remote-cursor")
        enableFileTransfer := f h.config.enableFileCopyPaste
        lockAfterSessionEnd := f h.config.lockAfterSessionEnd }
    if config.showMyCursor then
      ({ config with showMyCursor := false }, { option with showMyCursor := .no })
    else (config, option)

def toggleOption (name : String) : LoginConfigHandler × Option OptionMessage :=
  let config := h.loadConfig
  -- Every other change is saved and sent.
  let saved (config : PeerConfig) (option : OptionMessage) := (h.saveConfig config, some option)
  if name = "show-remote-cursor" then
    let v := !config.showRemoteCursor
    saved { config with showRemoteCursor := v } { showRemoteCursor := .ofBool v }
  else if name = "follow-remote-cursor" then
    let v := !config.followRemoteCursor
    saved { config with followRemoteCursor := v } { followRemoteCursor := .ofBool v }
  else if name = "follow-remote-window" then
    let v := !config.followRemoteWindow
    saved { config with followRemoteWindow := v } { followRemoteWindow := .ofBool v }
  else if name = "disable-audio" then
    let v := !config.disableAudio
    saved { config with disableAudio := v } { disableAudio := .ofBool v }
  else if name = "disable-clipboard" then
    let v := !config.disableClipboard
    saved { config with disableClipboard := v } { disableClipboard := .ofBool v }
  else if name = "lock-after-session-end" then
    let v := !config.lockAfterSessionEnd
    saved { config with lockAfterSessionEnd := v } { lockAfterSessionEnd := .ofBool v }
  else if name = "terminal-persistent" then
    let v := !config.terminalPersistent
    saved { config with terminalPersistent := v } { terminalPersistent := .ofBool v }
  else if name = "privacy-mode" then
    saved config { privacyMode := .ofBool !config.privacyMode }
  else if name = "enable-file-copy-paste" then
    let v := !config.enableFileCopyPaste
    saved { config with enableFileCopyPaste := v } { enableFileTransfer := .ofBool v }
  else if name = "block-input" then (h, some { blockInput := .yes })
  else if name = "unblock-input" then (h, some { blockInput := .no })
  else if name = "show-quality-monitor" then
    saved { config with showQualityMonitor := !config.showQualityMonitor } {}
  else if name = "allow_swap_key" then
    saved { config with allowSwapKey := !config.allowSwapKey } {}
  else if name = "view-only" then
    let (config, option) := h.toggleViewOnly config
    saved config option
  else if name = "show-my-cursor" then
    let v := !config.showMyCursor
    saved { config with showMyCursor := v } { showMyCursor := .ofBool v }
  else
    let isSet := ((h.config.options name).map fun o => !o.isEmpty).getD false
    let options :=
      if isSet then h.config.options.remove name else h.config.options.insert name "Y"
    (h.saveConfig { h.config with options := options }, none)

/-- `ImageQuality` as its number: `Low`, `Balanced` and `Best`. -/
def getImageQualityEnum (q : String) (ignoreDefault : Bool) : Option Int32 :=
  if q = "low" then some 2
  else if q = "best" then some 4
  else if q = "balanced" then if ignoreDefault then none else some 3
  else none

def imageQualityOption (ignoreDefault : Bool) : OptionMessage :=
  let q := h.config.imageQuality
  match getImageQualityEnum q ignoreDefault with
  | some q => { imageQuality := q }
  | none =>
    if q = "custom" then
      let config := h.loadConfig
      let allowMore := !h.usingPublicServer || h.direct = some true
      let quality : Int32 :=
        match config.customImageQuality with
        | [] => 50
        | quality :: _ => if !allowMore && quality > 100 then 50 else quality
      let customFps : Int32 :=
        match h.config.options "custom-fps" with
        | some customFps =>
          let customFps := (parseI32 customFps).getD 30
          if !allowMore && customFps > 30 then 30 else customFps
        | none => 0
      { customImageQuality := quality <<< 8, customFps := customFps }
    else {}

def yesIf (b : Bool) : BoolOption := if b then .yes else .notSet

def getOptionMessage (ignoreDefault : Bool) : Option OptionMessage :=
  match h.connType with
  | .portForward | .rdp | .fileTransfer => none
  | .terminal =>
    if h.getToggleOption "terminal-persistent" then some { terminalPersistent := .yes } else none
  | .defaultConn | .viewCamera =>
    let viewOnly := h.getToggleOption "view-only"
    some { h.imageQualityOption ignoreDefault with
      disableKeyboard := yesIf viewOnly
      showRemoteCursor := yesIf (viewOnly || h.getToggleOption "show-remote-cursor")
      showMyCursor := yesIf (viewOnly && h.getToggleOption "show-my-cursor")
      followRemoteCursor := yesIf (h.getToggleOption "follow-remote-cursor")
      followRemoteWindow := yesIf (h.getToggleOption "follow-remote-window")
      lockAfterSessionEnd := yesIf (!viewOnly && h.getToggleOption "lock-after-session-end")
      disableAudio := yesIf (h.getToggleOption "disable-audio")
      enableFileTransfer := yesIf (!viewOnly && h.getToggleOption "enable-file-copy-paste")
      disableClipboard := yesIf (viewOnly || h.getToggleOption "disable-clipboard")
      supportedDecoding := some h.supportedDecoding }

end LoginConfigHandler

end LibRustdesk.Client
