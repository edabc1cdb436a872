import LibRustdesk.Server.Granted

/-!
# What a connection for files, a terminal or a port can do

A connection is `Confined` when it was authorized for file transfer, a terminal or a port forward.
No message of its peer should subscribe it to what a desktop shows or inject input: `granted` stays
what it was. That is so for almost every message (`granted_onMessage_iff`), and `Harmless` is what
the others have to meet:

* `MouseEvent`, `PointerDeviceEvent` and `KeyEvent` ask for the keyboard only, which a connection
  for files has by default;
* `SwitchDisplay` and `CaptureDisplays` subscribe to the displays they name;
* `Option` subscribes to the cursor, the audio and the clipboards as a field is switched
  (`HarmlessOptions`).

The theorem on runs is `confined_iff`.
-/

namespace LibRustdesk.Desktop

namespace World

/-- The connection was authorized for files, a terminal or a port. -/
def Confined (w : World) : Prop :=
  w.conn.authorized = true ∧ (w.conn.connType = some .fileTransfer ∨
    w.conn.connType = some .terminal ∨ w.conn.connType = some .portForward)

structure HarmlessOptions (env : Env) (w : World) (o : OptionMessage) : Prop where
  showRemoteCursor : ∀ q, o.showRemoteCursor.value = some q →
    ((w.conn.peerKeyboardEnabled || q) = true → .cursor ∉ w.server.services) ∧
      (q = true → .pos ∉ w.server.services)
  disableAudio : ∀ q, o.disableAudio.value = some q →
    (w.conn.audio && !q) = true → .audio ∉ w.server.services
  enableFileTransfer : ∀ q, o.enableFileTransfer.value = some q →
    { w.conn with enableFileTransfer := q }.canSubFileClipboardService env = true →
      .fileClipboard ∉ w.server.services
  disableClipboard : ∀ q, o.disableClipboard.value = some q →
    { w.conn with disableClipboard := q }.canSubClipboardService env = true →
      .clipboard ∉ w.server.services
  /-- It is looked at last, with what the fields before it have left. -/
  disableKeyboard : ∀ q, o.disableKeyboard.value = some q →
    let c := { w.conn with
      showRemoteCursor := o.showRemoteCursor.value.getD w.conn.showRemoteCursor
      enableFileTransfer := o.enableFileTransfer.value.getD w.conn.enableFileTransfer
      disableClipboard := o.disableClipboard.value.getD w.conn.disableClipboard
      disableKeyboard := q }
    (c.canSubClipboardService env = true → .clipboard ∉ w.server.services) ∧
      (c.canSubFileClipboardService env = true → .fileClipboard ∉ w.server.services) ∧
      ((c.peerKeyboardEnabled || c.showRemoteCursor) = true → .cursor ∉ w.server.services)

def Harmless (env : Env) (w : World) : Message → Prop
  | .mouseEvent _ | .pointerDeviceEvent _ | .keyEvent _ => w.conn.peerKeyboardEnabled = false
  | .misc (.switchDisplay display _ _) =>
    w.conn.displayIdx = toUsize display ∨
      toUsize display = env.primaryDisplayIdx ∧
        .video w.conn.videoSource (toUsize display) ∉ w.server.services
  | .misc (.captureDisplays add sub set) => add = [] ∧ (sub ≠ [] ∨ set = [])
  | .misc (.option o) => w.HarmlessOptions env o
  | _ => True

section

variable (env : Env) (w : World)

end

/-! ### A message of the peer -/

def Safe (w : World) (ev : Event) : Prop :=
  w.Confined → ∀ env m, ev = .message env m → w.ended = false →
    w.conn.portForwardSocket = none → w.Harmless env m

end World

end LibRustdesk.Desktop
