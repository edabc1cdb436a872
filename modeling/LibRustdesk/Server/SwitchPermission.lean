import LibRustdesk.Clipboard.Answers
import LibRustdesk.Server.Subscriptions

/-!
# Permissions that are switched while a desktop is shared

The connection manager can take a permission away and give it back at any time. `Sharing` is a
desktop connection on Linux together with the files that the host has copied (`serv_files.rs`), and
with the arm of `Cliprdr`, which hands its messages to `unix_file_clip::serve_clip_messages`.

* `Obeyed` — what a permission that is off forbids in a step, and what one that is switched on is to
  restore: the subscriptions of a fresh login.
* `Careful` — the steps in which it does, as a condition on the state before.

Input, the clipboard and the audio obey in every run. The arm of `Cliprdr` looks at no permission:
it sends the list of the files and their bytes when the files, or the whole clipboard, are off, and
sets files of the peer (`files_off_are_listed`). The switch of the keyboard subscribes the cursor by
a test of its own, and that of the clipboard does not look at the files. `obeyed_iff` says that
there is no other way.
-/

namespace LibRustdesk.Desktop

open Clipboard (ClipFiles ServeEnv FoundFile CliprdrError ClipboardFile)
open LittleEndian

/-! ### The files of the clipboard -/

/-- `CLIP_FILES`, with the list that is sent of them. -/
structure ServFiles where
  clip : ClipFiles
  filesPdu : Bytes

/-- `sync_files`. With each file that is found comes its descriptor, `LocalFile::as_bin`. -/
def ServFiles.syncFiles (s : ServFiles) (files : List String)
    (found : Except CliprdrError (List (FoundFile × Bytes))) : ServFiles :=
  if s.clip.files = files then s
  else
    match found with
    | .error _ => s
    | .ok list =>
      ⟨s.clip.syncFiles files (.ok (list.map Prod.fst)),
        leBytes 4 list.length ++ (list.map Prod.snd).flatten⟩

/-- The union of a `Cliprdr`. -/
inductive Cliprdr
  | ready
  | formatList (formats : List (Int32 × String))
  | formatListResponse (msgFlags : Int32)
  | formatDataRequest (requestedFormatId : Int32)
  | formatDataResponse (msgFlags : Int32) (formatData : Bytes)
  | fileContentsRequest (streamId listIndex dwFlags nPositionLow nPositionHigh cbRequested : Int32)
  | fileContentsResponse (msgFlags streamId : Int32) (requestedData : Bytes)
  | tryEmpty
  | files (files : List (String × UInt64))
  deriving DecidableEq

inductive ClipOut
  | send (m : Cliprdr)
  | updateClipboardFiles (files : List String)
  | tryEmptyClipboardFiles
  /-- `fuse::handle_file_content_response`. -/
  | fuseResponse
  deriving DecidableEq

structure ClipEnv where
  serve : ServeEnv
  /-- `init_fuse_context` and `format_data_response_to_urls`. -/
  urls : Bytes → Except String (List String)
  fuse : Except String Unit

def fileContentsFormatName : String := "FileContents"

def fileDescriptorWFormatName : String := "FileGroupDescriptorW"

/-- What a response of `read_file_contents` is sent as. The files of its audit are not sent. -/
def fileContentsMessage (streamId : Int32) : Except CliprdrError ClipboardFile → Option ClipOut
  | .ok (.fileContentsResponse msgFlags streamId data) =>
    some (.send (.fileContentsResponse msgFlags streamId data))
  | .ok _ => none
  | .error _ => some (.send (.fileContentsResponse 2 streamId []))

def serveClipMessages (disk : String → Bytes) (env : ClipEnv) (connId : Int32) (s : ServFiles) :
    Cliprdr → ServFiles × List ClipOut
  | .formatList formats =>
    match formats.find? (·.2 = fileContentsFormatName),
      formats.find? (·.2 = fileDescriptorWFormatName) with
    | some _, some descriptor => (s, [.send (.formatDataRequest descriptor.1)])
    | _, _ => (s, [])
  | .formatDataRequest _ =>
    if s.filesPdu ≠ [] then (s, [.send (.formatDataResponse 1 s.filesPdu)])
    else (s, [.send (.formatDataResponse 2 [])])
  | .formatDataResponse _ formatData =>
    match env.urls formatData with
    | .ok files => (s, if files ≠ [] then [.updateClipboardFiles files] else [])
    | .error _ => (s, [])
  | .fileContentsRequest streamId listIndex dwFlags nPositionLow nPositionHigh cbRequested =>
    let (clip, res) := s.clip.readFileContents disk env.serve connId streamId listIndex dwFlags
      nPositionLow nPositionHigh cbRequested
    ({ s with clip := clip }, (res.getD []).filterMap (fileContentsMessage streamId))
  | .fileContentsResponse _ _ _ =>
    match env.fuse with
    | .ok () => (s, [.fuseResponse])
    | .error _ => (s, [])
  | .tryEmpty => (s, [.tryEmptyClipboardFiles])
  | .ready | .formatListResponse _ | .files _ => (s, [])

/-! ### Sharing a desktop -/

structure Setting where
  builtin : Text → Text
  disk : String → Bytes
  /-- The parser of a `Cliprdr`; without a union there is none. -/
  decode : Bytes → Option Cliprdr
  connId : Int32

structure Sharing where
  world : World
  files : ServFiles

inductive SharingEvent
  | connection (ev : Event) (env : ClipEnv)
  /-- The host has copied files. -/
  | syncFiles (files : List String) (found : Except CliprdrError (List (FoundFile × Bytes)))
  /-- A request of another connection. -/
  | others (env : ServeEnv)
      (connId streamId listIndex dwFlags nPositionLow nPositionHigh cbRequested : Int32)

/-- `get_version_number("1.3.8")`. -/
def version138 : ℤ := 1003080

/-- The arm of a `Cliprdr` is come to, from a peer that copies files. -/
def World.servesClip (w : World) : Bool :=
  !w.ended && w.conn.authorized && w.conn.portForwardSocket.isNone &&
    decide (version138 ≤ w.conn.lr.version)

namespace Sharing

/-- The arm of a `Cliprdr`. -/
def serveClip (host : Setting) (s : Sharing) (env : ClipEnv) (data : Bytes) :
    ServFiles × List ClipOut :=
  if s.world.servesClip then
    match host.decode data with
    | some clip => serveClipMessages host.disk env host.connId s.files clip
    | none => (s.files, [])
  else (s.files, [])

def step (host : Setting) (s : Sharing) : SharingEvent → Sharing × List ClipOut
  | .connection ev env =>
    let world := Desktop.step s.world (ev.under host.builtin)
    match ev with
    | .message _ (.cliprdr data) =>
      let (files, outs) := s.serveClip host env data
      (⟨world, files⟩, outs)
    | _ => (⟨world, s.files⟩, [])
  | .syncFiles files found => (⟨s.world, s.files.syncFiles files found⟩, [])
  | .others env connId streamId listIndex dwFlags nPositionLow nPositionHigh cbRequested =>
    let (clip, _) := s.files.clip.readFileContents host.disk env connId streamId listIndex dwFlags
      nPositionLow nPositionHigh cbRequested
    (⟨s.world, { s.files with clip := clip }⟩, [])

end Sharing

def sharing (host : Setting) : Machine Sharing SharingEvent ClipOut := ⟨Sharing.step host⟩

/-- `server::new`: the services of a desktop on Linux. -/
def Server.new (captureCursorEmbedded isX11 : Bool) : Server where
  services := [.audio, .display, .clipboard, .fileClipboard] ++
    if captureCursorEmbedded then []
    else [.cursor, .pos] ++ if isX11 then [.windowFocus] else []
  subed _ := false

/-- A connection is opened on a new server, and files may have been copied before. -/
def Sharing.start (s : Opening) (captureCursorEmbedded isX11 : Bool) (files : ServFiles) :
    Sharing :=
  ⟨.start { s with server := .new captureCursorEmbedded isX11 }, files⟩

/-! ### What the permissions forbid -/

def Effect.isInput : Effect → Bool
  | .mouse simulate _ => simulate
  | .pointer | .key _ => true
  | _ => false

/-- `update_clipboard`. -/
def Effect.setsClipboard : Effect → Bool
  | .handled (.clipboard _) | .handled (.multiClipboards _) => true
  | _ => false

def ClipOut.reveals : ClipOut → Bool
  | .send (.formatDataResponse msgFlags _) => msgFlags = 1
  | .send (.fileContentsResponse msgFlags _ _) => msgFlags = 1
  | _ => false

/-- A login of the same connection on the same server, with the permissions and options it has. -/
def World.fresh (env : Env) (w : World) : World :=
  trySubMonitorServices env { w with
    conn := { w.conn with
      fileTransfer := none
      portForwardSocket := none
      viewCamera := false
      terminal := false
      servicesSubed := false }
    server := { w.server with subed := fun _ => false } }

/-- The connection is authorized as one to the desktop. -/
def World.Shares (w : World) : Prop :=
  w.conn.authorized = true ∧ w.conn.connType = some .remote

/-- A command of the connection manager is carried out. -/
def World.listens (w : World) : Bool := !w.ended && w.conn.cmStarted

/-- The files of the host's clipboard are not for the peer. -/
def FilesDenied (host : Setting) (c : Connection) : Prop :=
  c.clipboard = false ∨ c.file = false ∨ host.builtin "one-way-file-transfer".toList = ['Y']

structure Obeyed (host : Setting) (t : Sharing) (e : SharingEvent) : Prop where
  input : t.world.conn.keyboard = false →
    ((sharing host).next t e).world.log.filter Effect.isInput =
      t.world.log.filter Effect.isInput
  clipboardSet : t.world.conn.clipboard = false →
    ((sharing host).next t e).world.log.filter Effect.setsClipboard =
        t.world.log.filter Effect.setsClipboard ∧
      ∀ files, .updateClipboardFiles files ∉ (sharing host).out t e
  clipboardSent : ((sharing host).next t e).world.conn.clipboard = false →
    ((sharing host).next t e).world.server.subed .clipboard = false
  filesSent : FilesDenied host t.world.conn → ∀ o ∈ (sharing host).out t e, o.reveals = false
  audio : ((sharing host).next t e).world.conn.audio = false →
    ((sharing host).next t e).world.server.subed .audio = false
  /-- A permission is switched on, once the login has come to its subscriptions. -/
  restored : ∀ env clipEnv name, e = .connection (.cm env (.switchPermission name true)) clipEnv →
    t.world.listens = true → t.world.conn.servicesSubed = true → ∀ g : Gated,
      g.name ∈ t.world.server.services →
        ((sharing host).next t e).world.server.subed g.name =
          (((sharing host).next t e).world.fresh { env with builtin := host.builtin }).server.subed
            g.name

/-! ### When they are obeyed -/

def Reveals (host : Setting) (s : ServFiles) (env : ClipEnv) : Cliprdr → Prop
  | .formatDataRequest _ => s.filesPdu ≠ []
  | .fileContentsRequest streamId listIndex dwFlags nPositionLow nPositionHigh cbRequested =>
    ∃ request, ClipFiles.decodeRequest streamId listIndex dwFlags nPositionLow nPositionHigh
        cbRequested = .ok request ∧ Clipboard.Answers host.disk env.serve s.clip request
  | _ => False

/-- The peer offers files that the host can make paths of. -/
def SetsFiles (env : ClipEnv) : Cliprdr → Prop
  | .formatDataResponse _ formatData => ∃ files, env.urls formatData = .ok files ∧ files ≠ []
  | _ => False

/-- The switch brings the cursor into line, or it is. -/
def CursorFits (builtin : Text → Text) (d : Desk) (name : String) : Prop :=
  if name = "keyboard" then d.rights.disableKeyboard = false ∨ d.rights.showRemoteCursor = true
  else d.subed .cursor = d.rights.allows builtin .cursor

def FilesFit (builtin : Text → Text) (d : Desk) (name : String) : Prop :=
  name = "keyboard" ∨ name = "file" ∨ d.subed .fileClipboard =
    { d.rights with
      clipboard := d.rights.clipboard || decide (name = "clipboard") }.allows builtin .fileClipboard

structure Careful (host : Setting) (t : Sharing) (e : SharingEvent) : Prop where
  clip : ∀ env clipEnv data c, e = .connection (.message env (.cliprdr data)) clipEnv →
    t.world.servesClip = true → host.decode data = some c →
      (FilesDenied host t.world.conn → ¬ Reveals host t.files clipEnv c) ∧
        (t.world.conn.clipboard = false → ¬ SetsFiles clipEnv c)
  switch : ∀ env clipEnv name, e = .connection (.cm env (.switchPermission name true)) clipEnv →
    t.world.listens = true → t.world.conn.servicesSubed = true →
      (.cursor ∈ t.world.server.services → CursorFits host.builtin t.world.desk name) ∧
        (.fileClipboard ∈ t.world.server.services → FilesFit host.builtin t.world.desk name)

/-! ### What is sent -/

section Serving

open Clipboard

theorem reveals_serveClipMessages (host : Setting) (env : ClipEnv) (s : ServFiles) (c : Cliprdr) :
    (∃ o ∈ (serveClipMessages host.disk env host.connId s c).2, o.reveals = true) ↔
      Reveals host s env c := by
  cases c with
  | formatDataRequest requestedFormatId =>
    unfold serveClipMessages Reveals
    dsimp only
    split
    · next h => exact iff_of_true ⟨_, List.mem_singleton_self _, rfl⟩ h
    · next h =>
      refine iff_of_false ?_ h
      rintro ⟨o, ho, hreveals⟩
      rw [List.mem_singleton.mp ho] at hreveals
      exact absurd hreveals (by decide)
  | fileContentsRequest streamId listIndex dwFlags nPositionLow nPositionHigh cbRequested =>
    unfold serveClipMessages Reveals ClipFiles.readFileContents
    dsimp only
    cases hdecode : ClipFiles.decodeRequest streamId listIndex dwFlags nPositionLow nPositionHigh
      cbRequested with
    | error e =>
      refine iff_of_false ?_ fun ⟨_, h, _⟩ => by cases h
      rintro ⟨o, ho, hreveals⟩
      rw [List.mem_singleton.mp ho] at hreveals
      exact absurd hreveals (by simp [ClipOut.reveals])
    | ok request =>
      dsimp only
      constructor
      · rintro ⟨o, ho, hreveals⟩
        obtain ⟨r, hr, hmsg⟩ := List.mem_filterMap.mp ho
        cases hserved : (s.clip.serveFileContents host.disk env.serve host.connId request).2 with
        | none =>
          rw [hserved] at hr
          cases hr
        | some served =>
          rw [hserved] at hr
          rcases List.mem_append.mp hr with haudit | hlast
          · -- the files of the audit are not sent
            obtain ⟨audit, haudit', rfl⟩ := List.mem_map.mp haudit
            obtain ⟨files, rfl⟩ : ∃ files, audit = .files files := by
              have hget := Option.mem_toList.mp haudit'
              unfold ClipFiles.getFilesForAudit at hget
              split at hget
              · split at hget
                · dsimp only at hget
                  split at hget
                  · cases hget
                  · exact ⟨_, (Option.some.inj hget).symm⟩
                · cases hget
              · cases hget
            cases hmsg
          · rw [List.mem_singleton.mp hlast] at hmsg
            cases served with
            | error e =>
              obtain rfl : _ = o := Option.some.inj hmsg
              exact absurd hreveals (by simp [ClipOut.reveals])
            | ok resp =>
              exact ⟨request, rfl, (serveFileContents_ok_iff host.disk env.serve s.clip host.connId
                request).mp ⟨resp, hserved⟩⟩
      · rintro ⟨request', hrequest, hanswers⟩
        obtain rfl : request = request' := Except.ok.inj hrequest
        obtain ⟨resp, hserved⟩ := (serveFileContents_ok_iff host.disk env.serve s.clip host.connId
          request).mpr hanswers
        obtain ⟨stream, data, rfl⟩ := serveFileContents_ok hserved
        refine ⟨.send (.fileContentsResponse 1 stream data), ?_, rfl⟩
        rw [hserved]
        refine List.mem_filterMap.mpr ⟨.ok (.fileContentsResponse 1 stream data), ?_, rfl⟩
        exact List.mem_append_right _ (List.mem_singleton_self _)
  | formatDataResponse msgFlags formatData =>
    unfold serveClipMessages Reveals
    dsimp only
    split
    · split <;> simp [ClipOut.reveals]
    · simp
  | formatList | fileContentsResponse =>
    unfold serveClipMessages Reveals
    dsimp only
    split <;> simp [ClipOut.reveals]
  | tryEmpty => simp [serveClipMessages, Reveals, ClipOut.reveals]
  | ready | formatListResponse msgFlags | files files => simp [serveClipMessages, Reveals]

theorem sets_serveClipMessages (host : Setting) (env : ClipEnv) (s : ServFiles) (c : Cliprdr) :
    (∃ files, .updateClipboardFiles files ∈ (serveClipMessages host.disk env host.connId s c).2) ↔
      SetsFiles env c := by
  cases c with
  | formatDataResponse msgFlags formatData =>
    unfold serveClipMessages SetsFiles
    dsimp only
    cases env.urls formatData with
    | error e => simp
    | ok files => by_cases hfiles : files = [] <;> simp [hfiles]
  | formatDataRequest | formatList | fileContentsResponse =>
    unfold serveClipMessages SetsFiles
    dsimp only
    split <;> simp
  | fileContentsRequest streamId listIndex dwFlags nPositionLow nPositionHigh cbRequested =>
    refine iff_of_false ?_ not_false
    rintro ⟨files, hmem⟩
    obtain ⟨r, -, hmsg⟩ := List.mem_filterMap.mp hmem
    -- a response is sent
    unfold fileContentsMessage at hmsg
    split at hmsg <;> cases hmsg
  | tryEmpty => simp [serveClipMessages, SetsFiles]
  | ready | formatListResponse msgFlags | files files => simp [serveClipMessages, SetsFiles]

end Serving

/-! ### One step -/

theorem world_next_connection (host : Setting) (t : Sharing) (ev : Event) (env : ClipEnv) :
    ((sharing host).next t (.connection ev env)).world =
      Desktop.step t.world (ev.under host.builtin) := by
  change (Sharing.step host t (.connection ev env)).1.world = _
  unfold Sharing.step
  dsimp only
  split <;> rfl

theorem mem_out_iff {host : Setting} {t : Sharing} {e : SharingEvent} {o : ClipOut} :
    o ∈ (sharing host).out t e ↔ ∃ env clipEnv data c,
      e = .connection (.message env (.cliprdr data)) clipEnv ∧ t.world.servesClip = true ∧
        host.decode data = some c ∧
          o ∈ (serveClipMessages host.disk clipEnv host.connId t.files c).2 := by
  constructor
  · intro ho
    change o ∈ (Sharing.step host t e).2 at ho
    unfold Sharing.step at ho
    split at ho
    · next ev clipEnv =>
      dsimp only at ho
      split at ho
      · next env data =>
        unfold Sharing.serveClip at ho
        split at ho
        · next hserves =>
          split at ho
          · next c hdecode => exact ⟨env, clipEnv, data, c, rfl, hserves, hdecode, ho⟩
          · cases ho
        · cases ho
      · cases ho
    · cases ho
    · cases ho
  · rintro ⟨env, clipEnv, data, c, rfl, hserves, hdecode, ho⟩
    change o ∈ (t.serveClip host clipEnv data).2
    unfold Sharing.serveClip
    rw [if_pos hserves, hdecode]
    exact ho

theorem Desk.Heard.filter {builtin : Text → Text} {d d' : Desk} {p : Effect → Bool}
    (h : d.Heard builtin d') (hp : ∀ e, d.rights.permits e = true → p e = false) :
    d'.reached.filter p = d.reached.filter p := by
  cases h with
  | tracks htracks => rw [htracks.reached]
  | through e hpermits =>
    rw [List.filter_append, List.filter_cons_of_neg (by rw [hp e hpermits]; exact nofun),
      List.filter_nil, List.append_nil]

namespace World

theorem filter_reached {p : Effect → Bool} (hp : ∀ e, p e = true → e.reaches = true) (w : World) :
    w.desk.reached.filter p = w.log.filter p := by
  change (w.log.filter Effect.reaches).filter p = _
  rw [List.filter_filter]
  refine List.filter_congr fun e _ => ?_
  cases hpe : p e with
  | false => rfl
  | true => exact hp e hpe

variable (env : Env) {w : World}

theorem desk_onCmData (hauth : w.conn.authorized = true)
    (hcamera : w.conn.isAuthedViewCameraConn = false) (d : CmData) : w.desk.Tracks env.builtin
    (onCmData env w d).1.desk := by
  cases d with
  | authorize =>
    -- there is nothing left to authorize
    refine .of_eq ?_
    unfold onCmData validates
    dsimp only
    rw [if_pos hauth]
    unfold sendLogonResponse
    rw [if_pos hauth]
    rfl
  | close | other => exact .refl w.desk
  | switchPermission name enabled =>
    exact tracks_onSwitchPermission env w name enabled hcamera hauth
  | voiceCallResponse accepted => exact .of_eq (desk_handleVoiceCall w hcamera accepted)
  | closeVoiceCall => exact .of_eq (desk_closeVoiceCall w hcamera)

theorem heard_step (builtin : Text → Text) (h : w.Shares) (ev : Event) :
    w.desk.Heard builtin (step w (ev.under builtin)).desk := by
  obtain ⟨hauth, hkind⟩ := h
  have hcamera := not_camera_of_remote hkind
  cases hended : w.ended with
  | true =>
    rw [step_of_ended hended]
    exact .tracks (.refl w.desk)
  | false =>
    unfold step
    rw [if_neg (by rw [hended]; exact Bool.false_ne_true)]
    cases ev with
    | message env m =>
      dsimp only [Event.under]
      rw [desk_onRead]
      exact heard_onMessage { env with builtin := builtin } hauth hcamera m
    | cm env d =>
      dsimp only [Event.under]
      split
      · exact .tracks (desk_onCmData { env with builtin := builtin } hauth hcamera d)
      · exact .tracks (.refl w.desk)
    | testDelayTimer => exact .tracks (.of_eq (desk_onTestDelayTimer w))
    | others shared services =>
      obtain ⟨hcalm, hsubed⟩ := calm_others w shared services
      exact .tracks ⟨hcalm, fun _ => .inr ⟨congrFun hsubed _, rfl⟩,
        fun _ => .inr ⟨congrFun hsubed _, rfl⟩⟩

theorem subed_fresh (w : World) (g : Gated) :
    (w.fresh env).server.subed g.name =
      (w.desk.registered g && w.desk.rights.allows env.builtin g) := by
  have hdesk := desk_trySubMonitorServices env { w with
    conn := { w.conn with
      fileTransfer := none
      portForwardSocket := none
      viewCamera := false
      terminal := false
      servicesSubed := false }
    server := { w.server with subed := fun _ => false } } rfl rfl
  calc (w.fresh env).server.subed g.name
      = (w.fresh env).desk.subed g := rfl
    _ = (false || w.desk.registered g && w.desk.rights.allows env.builtin g) :=
        congrArg (fun d => d.subed g) hdesk
    _ = _ := Bool.false_or _

/-! ### A permission is switched on -/

theorem cursorFits_iff (hcamera : w.conn.isAuthedViewCameraConn = false)
    (hreg : w.desk.registered .cursor = true) (name : String) :
    ((onSwitchPermission env w name true).desk.subed .cursor =
        (onSwitchPermission env w name true).desk.rights.allows env.builtin .cursor) ↔
      CursorFits env.builtin w.desk name := by
  rw [desk_onSwitchPermission env w name true fun _ => hcamera]
  unfold CursorFits
  split
  · -- it is subscribed in any case, whatever the peer has disabled
    rw [Desk.subed_subscribe_self, Desk.rights_subscribe, Desk.rights_subscribe,
      Desk.rights_subscribe]
    swap
    · rw [Desk.registered_subscribe, Desk.registered_subscribe]
      exact hreg
    change (true || _) = (true && !w.desk.rights.disableKeyboard || _) ↔ _
    cases w.desk.rights.disableKeyboard <;> cases w.desk.rights.showRemoteCursor <;> decide
  · -- the others do not come by the cursor
    have hother (d : Desk) (g : Gated) (sub : Bool) (hg : Gated.cursor ≠ g)
        (hsubed : d.subed .cursor = w.desk.subed .cursor)
        (hallows : d.rights.allows env.builtin .cursor =
          w.desk.rights.allows env.builtin .cursor) :
        ((d.subscribe g sub).subed .cursor =
            (d.subscribe g sub).rights.allows env.builtin .cursor) ↔
          w.desk.subed .cursor = w.desk.rights.allows env.builtin .cursor := by
      rw [Desk.subed_subscribe_other _ _ hg, Desk.rights_subscribe, hsubed, hallows]
    split
    · exact hother _ .clipboard _ nofun rfl rfl
    · split
      · split
        · exact hother _ .audio _ nofun rfl rfl
        · exact Iff.rfl
      · split
        · exact hother _ .fileClipboard _ nofun rfl rfl
        · exact Iff.rfl

theorem filesFit_iff (hcamera : w.conn.isAuthedViewCameraConn = false)
    (hreg : w.desk.registered .fileClipboard = true) (name : String) :
    ((onSwitchPermission env w name true).desk.subed .fileClipboard =
        (onSwitchPermission env w name true).desk.rights.allows env.builtin .fileClipboard) ↔
      FilesFit env.builtin w.desk name := by
  rw [desk_onSwitchPermission env w name true fun _ => hcamera]
  unfold FilesFit
  split
  · next hname =>
    refine iff_of_true ?_ (.inl hname)
    rw [Desk.subed_subscribe_other _ _ (show Gated.fileClipboard ≠ .cursor from nofun),
      Desk.subed_subscribe_self, Desk.rights_subscribe, Desk.rights_subscribe,
      Desk.rights_subscribe]
    rw [Desk.registered_subscribe]
    exact hreg
  · next hkeyboard =>
    split
    · next hname =>
      -- the files are left as they are, though the clipboard is back
      have hfile : name ≠ "file" := by
        rw [hname]
        decide
      rw [Desk.subed_subscribe_other _ _ (show Gated.fileClipboard ≠ .clipboard from nofun),
        Desk.rights_subscribe, or_iff_right hkeyboard, or_iff_right hfile,
        decide_eq_true hname, Bool.or_true]
    · next hclipboard =>
      have hsame : ({ w.desk.rights with
          clipboard := w.desk.rights.clipboard || decide (name = "clipboard") } : Rights) =
            w.desk.rights := by
        rw [decide_eq_false hclipboard, Bool.or_false]
      rw [hsame]
      split
      · next hname =>
        have hfile : name ≠ "file" := by
          rw [hname]
          decide
        rw [or_iff_right hkeyboard, or_iff_right hfile]
        split
        · rw [Desk.subed_subscribe_other _ _ (show Gated.fileClipboard ≠ .audio from nofun),
            Desk.rights_subscribe]
          exact Iff.rfl
        · exact Iff.rfl
      · split
        · next hname =>
          refine iff_of_true ?_ (.inr (.inl hname))
          rw [Desk.rights_subscribe]
          exact Desk.subed_subscribe_self _ _ hreg
        · next hfile =>
          rw [or_iff_right hkeyboard, or_iff_right hfile]

end World

/-! ### Obeyed -/

def Sharing.InLine (host : Setting) (t : Sharing) : Prop := t.world.desk.InLine host.builtin

variable {host : Setting} {t : Sharing}

theorem inLine_next (h : t.InLine host) (e : SharingEvent) :
    ((sharing host).next t e).InLine host := by
  cases e with
  | connection ev env =>
    unfold Sharing.InLine
    rw [world_next_connection]
    exact World.inLine_step host.builtin h ev
  | syncFiles | others => exact h

theorem heard_next (h : t.world.Shares) (e : SharingEvent) :
    t.world.desk.Heard host.builtin ((sharing host).next t e).world.desk := by
  cases e with
  | connection ev env =>
    rw [world_next_connection]
    exact World.heard_step host.builtin h ev
  | syncFiles | others => exact .tracks (.refl _)

theorem Desk.Heard.door {builtin : Text → Text} {d d' : Desk} (h : d.Heard builtin d') :
    d'.authorized = d.authorized ∧ d'.kind = d.kind := by
  cases h with
  | tracks htracks => exact ⟨htracks.authorized, htracks.kind⟩
  | through e hpermits => exact ⟨rfl, rfl⟩

theorem unsubscribed (hline : t.InLine host) (hshares : t.world.Shares) {g : Gated}
    (hg : g = .clipboard ∨ g = .audio) (hnot : t.world.desk.rights.allows host.builtin g = false) :
    t.world.server.subed g.name = false := by
  obtain ⟨-, hsound, -⟩ := hline.desktop hshares.1 hshares.2 g hg
  cases hsubed : t.world.server.subed g.name with
  | false => rfl
  | true => exact absurd ((hsound hsubed).symm.trans hnot) (by decide)

theorem clip_iff {e : SharingEvent} :
    ((FilesDenied host t.world.conn → ∀ o ∈ (sharing host).out t e, o.reveals = false) ∧
        (t.world.conn.clipboard = false →
          ∀ files, .updateClipboardFiles files ∉ (sharing host).out t e)) ↔
      ∀ env clipEnv data c, e = .connection (.message env (.cliprdr data)) clipEnv →
        t.world.servesClip = true → host.decode data = some c →
          (FilesDenied host t.world.conn → ¬ Reveals host t.files clipEnv c) ∧
            (t.world.conn.clipboard = false → ¬ SetsFiles clipEnv c) := by
  constructor
  · rintro ⟨hsent, hset⟩ env clipEnv data c rfl hserves hdecode
    have hout {o : ClipOut} (ho : o ∈ (serveClipMessages host.disk clipEnv host.connId t.files
        c).2) :
        o ∈ (sharing host).out t (.connection (.message env (.cliprdr data)) clipEnv) :=
      mem_out_iff.mpr ⟨env, clipEnv, data, c, rfl, hserves, hdecode, ho⟩
    constructor
    · intro hdenied hreveals
      obtain ⟨o, ho, hof⟩ := (reveals_serveClipMessages host clipEnv t.files c).mpr hreveals
      exact absurd ((hsent hdenied o (hout ho)).symm.trans hof) (by decide)
    · intro hclipboard hsets
      obtain ⟨files, hfiles⟩ := (sets_serveClipMessages host clipEnv t.files c).mpr hsets
      exact hset hclipboard files (hout hfiles)
  · intro hcareful
    constructor
    · intro hdenied o ho
      obtain ⟨env, clipEnv, data, c, he, hserves, hdecode, hmem⟩ := mem_out_iff.mp ho
      cases hof : o.reveals with
      | false => rfl
      | true =>
        exact absurd ((reveals_serveClipMessages host clipEnv t.files c).mp ⟨o, hmem, hof⟩)
          ((hcareful env clipEnv data c he hserves hdecode).1 hdenied)
    · intro hclipboard files hfiles
      obtain ⟨env, clipEnv, data, c, he, hserves, hdecode, hmem⟩ := mem_out_iff.mp hfiles
      exact (hcareful env clipEnv data c he hserves hdecode).2 hclipboard
        ((sets_serveClipMessages host clipEnv t.files c).mp ⟨files, hmem⟩)

theorem restored_iff (hline : t.InLine host)
    (hshares : t.world.Shares) {env : Env} {clipEnv : ClipEnv} {name : String}
    (hlistens : t.world.listens = true) (hsubed : t.world.conn.servicesSubed = true) (g : Gated)
    (hreg : g.name ∈ t.world.server.services) :
    (((sharing host).next t (.connection (.cm env (.switchPermission name true))
        clipEnv)).world.server.subed g.name =
      (((sharing host).next t (.connection (.cm env (.switchPermission name true))
        clipEnv)).world.fresh { env with builtin := host.builtin }).server.subed g.name) ↔
      match g with
      | .cursor => CursorFits host.builtin t.world.desk name
      | .fileClipboard => FilesFit host.builtin t.world.desk name
      | _ => True := by
  have hcamera := World.not_camera_of_remote hshares.2
  have htracks := World.tracks_onSwitchPermission { env with builtin := host.builtin } t.world name
    true hcamera hshares.1
  have hafter := hline.tracks hshares.1 htracks
  have hkind := htracks.kind.trans hshares.2
  have hauth := htracks.authorized.trans hshares.1
  have hworld : ((sharing host).next t (.connection (.cm env (.switchPermission name true))
      clipEnv)).world.desk =
        (World.onSwitchPermission { env with builtin := host.builtin } t.world name true).desk := by
    rw [world_next_connection]
    obtain ⟨hended, hcm⟩ := Bool.and_eq_true_iff.mp hlistens
    unfold Desktop.step
    rw [if_neg (by simpa using hended)]
    dsimp only [Event.under]
    rw [if_pos hcm]
    rfl
  have hreg' := htracks.registered g (decide_eq_true hreg)
  rw [World.subed_fresh]
  generalize ((sharing host).next t _).world = w' at hworld
  change w'.desk.subed g = _ ↔ _
  rw [hworld, hreg', Bool.true_and]
  cases g with
  | cursor =>
    exact World.cursorFits_iff { env with builtin := host.builtin } hcamera (decide_eq_true hreg)
      name
  | fileClipboard =>
    exact World.filesFit_iff { env with builtin := host.builtin } hcamera (decide_eq_true hreg)
      name
  | clipboard =>
    obtain ⟨-, -, hthrough⟩ := hafter.desktop hauth hkind .clipboard (.inl rfl)
    exact iff_of_true (hthrough (htracks.servicesSubed.trans hsubed)) trivial
  | audio =>
    obtain ⟨-, -, hthrough⟩ := hafter.desktop hauth hkind .audio (.inr rfl)
    exact iff_of_true (hthrough (htracks.servicesSubed.trans hsubed)) trivial

theorem obeyed_step_iff (hline : t.InLine host)
    (hshares : t.world.Shares) (e : SharingEvent) : Obeyed host t e ↔ Careful host t e := by
  have hheard : t.world.desk.Heard host.builtin ((sharing host).next t e).world.desk :=
    heard_next hshares e
  have hnext := inLine_next hline e
  have hshares' : ((sharing host).next t e).world.Shares :=
    ⟨hheard.door.1.trans hshares.1, hheard.door.2.trans hshares.2⟩
  have hfilter {p : Effect → Bool} (hreaches : ∀ o, p o = true → o.reaches = true)
      (hp : ∀ o, t.world.desk.rights.permits o = true → p o = false) :
      ((sharing host).next t e).world.log.filter p = t.world.log.filter p := by
    rw [← World.filter_reached hreaches, ← World.filter_reached hreaches]
    exact hheard.filter hp
  constructor
  · intro h
    refine ⟨clip_iff.mp ⟨h.filesSent, fun hclipboard => (h.clipboardSet hclipboard).2⟩, ?_⟩
    rintro env clipEnv name rfl hlistens hsubed
    have hrestored (g : Gated) (hreg : g.name ∈ t.world.server.services) :=
      (restored_iff hline hshares hlistens hsubed g hreg).mp
        (h.restored env clipEnv name rfl hlistens hsubed g hreg)
    exact ⟨hrestored .cursor, hrestored .fileClipboard⟩
  · intro h
    obtain ⟨hsent, hset⟩ := clip_iff.mpr h.clip
    refine ⟨fun hkeyboard => ?_, fun hclipboard => ⟨?_, hset hclipboard⟩, fun hclipboard => ?_,
      hsent, fun haudio => ?_, ?_⟩
    · -- input needs the keyboard
      refine hfilter (fun o ho => ?_) fun o ho => ?_
      · cases o with
        | handled m => exact Bool.noConfusion ho
        | _ => exact ho
      · have hoff : t.world.desk.rights.keyboard = false := hkeyboard
        cases o with
        | mouse | pointer | key => exact absurd (ho.symm.trans hoff) (by decide)
        | _ => rfl
    · -- a clipboard needs the clipboard
      refine hfilter (fun o ho => ?_) fun o ho => ?_
      · cases o with
        | handled m => cases m <;> exact ho
        | _ => exact Bool.noConfusion ho
      · have hoff : t.world.desk.rights.clipboard = false := hclipboard
        cases o with
        | handled m => exact absurd (ho.symm.trans hoff) (by decide)
        | _ => rfl
    · refine unsubscribed hnext hshares' (g := .clipboard) (.inl rfl) ?_
      have hoff : ((sharing host).next t e).world.desk.rights.clipboard = false := hclipboard
      unfold Rights.allows
      rw [hoff]
      rfl
    · refine unsubscribed hnext hshares' (g := .audio) (.inr rfl) ?_
      have hoff : ((sharing host).next t e).world.desk.rights.audio = false := haudio
      unfold Rights.allows
      rw [hoff]
      rfl
    · rintro env clipEnv name rfl hlistens hsubed g hreg
      obtain ⟨hcursor, hfiles⟩ := h.switch env clipEnv name rfl hlistens hsubed
      refine (restored_iff hline hshares hlistens hsubed g hreg).mpr ?_
      cases g with
      | cursor => exact hcursor hreg
      | fileClipboard => exact hfiles hreg
      | clipboard | audio => trivial

/-- **Permissions are obeyed exactly by the careful steps.** In a run of a host from the opening of
a connection, every step of the desktop connection obeys if and only if every one is careful. -/
theorem obeyed_iff (host : Setting) (s : Opening) (captureCursorEmbedded isX11 : Bool)
    (files : ServFiles) (es : List SharingEvent) :
    (sharing host).Meets (fun t e => t.world.Shares → Obeyed host t e)
        (.start s captureCursorEmbedded isX11 files) es ↔
      (sharing host).Meets (fun t e => t.world.Shares → Careful host t e)
        (.start s captureCursorEmbedded isX11 files) es := by
  have hstart : (Sharing.start s captureCursorEmbedded isX11 files).InLine host := by
    have hregistered (name : ServiceName) (h : name ∈ [.audio, .display, .clipboard,
        ServiceName.fileClipboard]) :
        decide (name ∈ (Server.new captureCursorEmbedded isX11).services) = true :=
      decide_eq_true (List.mem_append_left _ h)
    exact ⟨fun _ => ⟨rfl, ⟨hregistered .clipboard (by decide), hregistered .audio (by decide)⟩, rfl,
      rfl, nofun⟩, nofun⟩
  have hline := ((sharing host).meets_true _ es).inv_trace hstart fun t e _ h => inLine_next h e
  constructor
  · intro h p hp hshares
    exact (obeyed_step_iff (hline p hp) hshares p.2).mp (h p hp hshares)
  · intro h p hp hshares
    exact (obeyed_step_iff (hline p hp) hshares p.2).mpr (h p hp hshares)

/-! ### Permissions that are not obeyed -/

def Setting.plain : Setting :=
  ⟨fun _ => [], fun _ => [], fun _ => some (.formatDataRequest 49304), 1⟩

def ClipEnv.plain : ClipEnv := ⟨.good, fun _ => .ok [], .ok ()⟩

/-- A file has been copied, the peer has logged in and may not have it, and asks for it. -/
def filesOff : List SharingEvent :=
  [.syncFiles ["/home/u/a"] (.ok [(⟨"/home/u/a", false, 5⟩, List.replicate 592 1)]),
    .connection (.message Env.plain
      (.loginRequest { desktopLogin with version := 1004003 })) .plain,
    .connection (.cm Env.plain (.switchPermission "file" false)) .plain]

/-- **The list of the files is sent** though the permission is off. -/
theorem files_off_are_listed :
    ¬∀ (host : Setting) (s : Opening) (captureCursorEmbedded isX11 : Bool) (files : ServFiles)
      (es : List SharingEvent), (sharing host).Meets
        (fun t e => t.world.Shares → Obeyed host t e)
        (.start s captureCursorEmbedded isX11 files) es := by
  intro h
  -- the request is the last step
  have hlast := h .plain { Opening.plain with require2fa := none } false true ⟨⟨[], [], 0⟩, []⟩
    (filesOff ++ [.connection (.message Env.plain (.cliprdr [1])) .plain]) _
    (Machine.mem_trace_split _ _ filesOff _ [])
  have hobeyed := hlast ⟨by decide +kernel, by decide +kernel⟩
  have hsent := hobeyed.filesSent (.inr (.inl (by decide +kernel)))
    (.send (.formatDataResponse 1 ([1, 0, 0, 0] ++ List.replicate 592 1))) (by decide +kernel)
  exact absurd hsent (by decide)

end LibRustdesk.Desktop
