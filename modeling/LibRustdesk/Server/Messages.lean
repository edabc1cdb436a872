import LibRustdesk.Ohos.Password

/-!
# What a peer can send to a desktop connection

The messages of `message.proto` as far as `Connection::on_message` of `src/server/connection.rs`
looks into them, for the desktop build on Linux with the `flutter` and `unix-file-copy-paste`
features. What a message hands on unread is a byte string.

Texts are lists of characters. `LoginRequest.version` is the number `get_version_number` makes of
the version.
-/

namespace LibRustdesk.Desktop

abbrev Text := List Char

/-- An `EnumOrUnknown<BoolOption>`. -/
inductive BoolOption
  | notSet
  | no
  | yes
  | unknown (value : Int32)
  deriving DecidableEq, Repr

def BoolOption.value : BoolOption → Option Bool
  | .no => some false
  | .yes => some true
  | _ => none

/-- `if b { BoolOption::Yes } else { BoolOption::No }`. -/
def BoolOption.ofBool (b : Bool) : BoolOption := if b then .yes else .no

@[simp] theorem BoolOption.value_ofBool (b : Bool) : (BoolOption.ofBool b).value = some b := by
  cases b <;> rfl

@[simp] theorem BoolOption.value_yes : BoolOption.yes.value = some true := rfl

@[simp] theorem BoolOption.value_no : BoolOption.no.value = some false := rfl

@[simp] theorem BoolOption.value_notSet : BoolOption.notSet.value = none := rfl

/-- `OptionMessage`, with its defaults. -/
structure OptionMessage where
  imageQuality : Int32 := 0
  lockAfterSessionEnd : BoolOption := .notSet
  showRemoteCursor : BoolOption := .notSet
  privacyMode : BoolOption := .notSet
  blockInput : BoolOption := .notSet
  customImageQuality : Int32 := 0
  disableAudio : BoolOption := .notSet
  disableClipboard : BoolOption := .notSet
  enableFileTransfer : BoolOption := .notSet
  supportedDecoding : Option Bytes := none
  customFps : Int32 := 0
  disableKeyboard : BoolOption := .notSet
  followRemoteCursor : BoolOption := .notSet
  followRemoteWindow : BoolOption := .notSet
  terminalPersistent : BoolOption := .notSet
  showMyCursor : BoolOption := .notSet
  deriving DecidableEq

/-- The `union` of a `LoginRequest`; without one it asks for the desktop. -/
inductive LoginUnion
  | fileTransfer (dir : Text) (showHidden : Bool)
  | portForward (host : Text) (port : Int32)
  | viewCamera
  | terminal (serviceId : Text)
  deriving DecidableEq

structure LoginRequest where
  username : Text := []
  password : Bytes := []
  myId : Text := []
  myName : Text := []
  option : Option OptionMessage := none
  union : Option LoginUnion := none
  videoAckRequired : Bool := false
  sessionId : UInt64 := 0
  version : ℤ := 0
  osLoginUsername : Text := []
  myPlatform : Text := []
  hwid : Bytes := []
  deriving DecidableEq

structure SessionKey where
  peerId : Text
  name : Text
  sessionId : UInt64
  deriving DecidableEq

/-- The fields of a `KeyEvent` that decide whether it is a press. -/
structure KeyEvent where
  press : Bool
  down : Bool
  /-- `crate::is_modifier`, or a mapped key that is a modifier. -/
  isModifier : Bool
  /-- The union is `Unicode` or `Seq`. -/
  isText : Bool
  deriving DecidableEq

/-- The union of a `FileAction`. -/
inductive FileAction
  | send (id : Int32) (printer : Bool)
  | removeFile (id : Int32)
  | rename (id : Int32)
  | create (id : Int32)
  | removeDir (id : Int32)
  | other (data : Bytes)
  deriving DecidableEq

/-- The union of a `Misc`. -/
inductive Misc
  | closeReason
  | switchDisplay (display width height : Int32)
  | captureDisplays (add sub set : List Int32)
  | togglePrivacyMode (implKey : Text) (on : Bool)
  | chatMessage (text : Text)
  | option (o : OptionMessage)
  | refreshVideo (refresh : Bool)
  | refreshVideoDisplay (display : Int32)
  | videoReceived
  | restartRemoteDevice
  | audioFormat (data : Bytes)
  | switchSidesRequest (uuid : Bytes)
  | changeResolution (width height : Int32)
  | changeDisplayResolution (display width height : Int32)
  | autoAdjustFps (fps : UInt32)
  | clientRecordStatus (status : Bool)
  | messageQuery (switchDisplay : Int32)
  | other
  deriving DecidableEq

/-- The union of a `Message`. -/
inductive Message
  | loginRequest (lr : LoginRequest)
  | auth2fa (code : Text) (hwid : Bytes)
  | testDelay (fromClient : Bool)
  | switchSidesResponse (uuid : Bytes) (lr : Option LoginRequest)
  | mouseEvent (data : Bytes)
  | pointerDeviceEvent (data : Bytes)
  | keyEvent (me : KeyEvent)
  | clipboard (data : Bytes)
  | multiClipboards (data : Bytes)
  | cliprdr (data : Bytes)
  | fileAction (fa : FileAction)
  | fileResponse (data : Bytes)
  | misc (m : Misc)
  | audioFrame (data : Bytes)
  | voiceCallRequest (isConnect : Bool)
  | voiceCallResponse
  | screenshotRequest (display : Int32)
  | terminalAction (data : Bytes)
  | other
  deriving DecidableEq

inductive AuthConnType
  | remote
  | fileTransfer
  | portForward
  | viewCamera
  | terminal
  deriving DecidableEq, Repr

def LoginRequest.kind (lr : LoginRequest) : AuthConnType :=
  match lr.union with
  | some (.fileTransfer _ _) => .fileTransfer
  | some (.portForward _ _) => .portForward
  | some .viewCamera => .viewCamera
  | some (.terminal _) => .terminal
  | none => .remote

def LoginRequest.sessionKey (lr : LoginRequest) : SessionKey := ⟨lr.myId, lr.myName, lr.sessionId⟩

end LibRustdesk.Desktop
