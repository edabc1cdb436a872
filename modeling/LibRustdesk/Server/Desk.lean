import LibRustdesk.Server.Granted

/-!
# The services that hang on a permission

Four services are only for connections with a permission (`Gated`). A connection is subscribed to
them when it logs in, and again by the handlers that change a permission or an option. `Desk` is the
part of a world that is about them, and `Rights.allows` is the test of a login. What the handlers of
an authorized connection do to the desk is here.

* `Desk.Follows` — a step has brought a subscription into line, or changed nothing about it.
* `Desk.Tracks` — it is so for the clipboard and the audio service, and no input and no clipboard of
  the peer has got through.
* `Desk.Heard` — what a message can do: it tracks, or something with its permission gets through.

The cursor and the files of the clipboard are not in `Desk.Tracks`: not every handler brings them
into line.
-/

namespace LibRustdesk.Desktop

inductive Gated
  | cursor
  | clipboard
  | fileClipboard
  | audio
  deriving DecidableEq

def Gated.name : Gated → ServiceName
  | cursor => .cursor
  | clipboard => .clipboard
  | fileClipboard => .fileClipboard
  | audio => .audio

theorem Gated.name_injective : Function.Injective Gated.name := by
  intro g g' h
  cases g <;> cases g' <;> first | rfl | cases h

@[simp] theorem Gated.name_inj {g g' : Gated} : g.name = g'.name ↔ g = g' :=
  Gated.name_injective.eq_iff

theorem Gated.name_ne_video (g : Gated) (source : VideoSource) (idx : ℕ) :
    g.name ≠ .video source idx := by
  cases g <;> exact nofun

/-- The permissions and options that the subscriptions depend on. -/
structure Rights where
  keyboard : Bool
  clipboard : Bool
  audio : Bool
  file : Bool
  showRemoteCursor : Bool
  disableKeyboard : Bool
  disableClipboard : Bool
  disableAudio : Bool
  enableFileTransfer : Bool

def Connection.rights (c : Connection) : Rights where
  keyboard := c.keyboard
  clipboard := c.clipboard
  audio := c.audio
  file := c.file
  showRemoteCursor := c.showRemoteCursor
  disableKeyboard := c.disableKeyboard
  disableClipboard := c.disableClipboard
  disableAudio := c.disableAudio
  enableFileTransfer := c.enableFileTransfer

def Rights.allows (builtin : Text → Text) (r : Rights) : Gated → Bool
  | .cursor => r.keyboard && !r.disableKeyboard || r.showRemoteCursor
  | .clipboard => (r.clipboard && !r.disableClipboard) && (r.keyboard && !r.disableKeyboard) &&
      builtin "one-way-clipboard-redirection".toList ≠ ['Y']
  | .fileClipboard => (r.clipboard && !r.disableClipboard) && (r.file && r.enableFileTransfer) &&
      builtin "one-way-file-transfer".toList ≠ ['Y']
  | .audio => r.audio && !r.disableAudio

/-- Input or a clipboard of the peer has got through. -/
def Effect.reaches : Effect → Bool
  | .mouse simulate _ => simulate
  | .pointer | .key _ | .handled (.clipboard _) | .handled (.multiClipboards _) => true
  | _ => false

def Rights.permits (r : Rights) : Effect → Bool
  | .handled _ => r.clipboard
  | _ => r.keyboard

structure Desk where
  authorized : Bool
  kind : Option AuthConnType
  rights : Rights
  servicesSubed : Bool
  registered : Gated → Bool
  subed : Gated → Bool
  reached : List Effect

namespace Desk

def subscribe (d : Desk) (g : Gated) (sub : Bool) : Desk :=
  if d.registered g then { d with subed := Function.update d.subed g sub } else d

variable (builtin : Text → Text)

/-- The subscription is in line with the permission after a step, or both are what they were. -/
def Follows (g : Gated) (d d' : Desk) : Prop :=
  d.registered g = true → d'.subed g = d'.rights.allows builtin g ∨
    d'.subed g = d.subed g ∧ d'.rights.allows builtin g = d.rights.allows builtin g

/-- Nothing of the peer has got through, and the connection is authorized as what it was. -/
structure Calm (d d' : Desk) : Prop where
  authorized : d'.authorized = d.authorized
  kind : d'.kind = d.kind
  reached : d'.reached = d.reached
  registered : ∀ g, d.registered g = true → d'.registered g = true
  servicesSubed : d'.servicesSubed = d.servicesSubed

structure Tracks (d d' : Desk) : Prop extends Calm d d' where
  clipboard : Follows builtin .clipboard d d'
  audio : Follows builtin .audio d d'

/-- What a message of the peer can do to the desk: what gets through has its permission. -/
inductive Heard (d : Desk) : Desk → Prop
  | tracks {d' : Desk} (h : Tracks builtin d d') : Heard d d'
  | through (e : Effect) (h : d.rights.permits e = true) :
      Heard d { d with reached := d.reached ++ [e] }

variable {builtin} {d d' d'' : Desk}

theorem Follows.refl (g : Gated) (d : Desk) : Follows builtin g d d := fun _ => .inr ⟨rfl, rfl⟩

variable {g : Gated}

theorem Follows.trans (hreg : d.registered g = true → d'.registered g = true)
    (h : Follows builtin g d d') (h' : Follows builtin g d' d'') : Follows builtin g d d'' := by
  intro hg
  rcases h' (hreg hg) with hline | ⟨hsubed, hallows⟩
  · exact .inl hline
  · rcases h hg with hline | ⟨hsubed', hallows'⟩
    · exact .inl (by rw [hsubed, hallows, hline])
    · exact .inr ⟨hsubed.trans hsubed', hallows.trans hallows'⟩

theorem Calm.refl (d : Desk) : Calm d d := ⟨rfl, rfl, rfl, fun _ h => h, rfl⟩

theorem Calm.trans (h : Calm d d') (h' : Calm d' d'') : Calm d d'' :=
  ⟨h'.authorized.trans h.authorized, h'.kind.trans h.kind, h'.reached.trans h.reached,
    fun g hg => h'.registered g (h.registered g hg), h'.servicesSubed.trans h.servicesSubed⟩

theorem Tracks.refl (d : Desk) : Tracks builtin d d := ⟨.refl d, .refl _ d, .refl _ d⟩

theorem Tracks.of_eq (h : d' = d) : Tracks builtin d d' := by
  rw [h]
  exact .refl d

theorem Tracks.trans (h : Tracks builtin d d') (h' : Tracks builtin d' d'') :
    Tracks builtin d d'' :=
  ⟨h.toCalm.trans h'.toCalm, h.clipboard.trans (h.registered _) h'.clipboard,
    h.audio.trans (h.registered _) h'.audio⟩

/-- Of the clipboard and the audio service. A connection that waits for its authorization has at
most been subscribed to the clipboard, by a permission that was switched. -/
structure InLine (builtin : Text → Text) (d : Desk) : Prop where
  waiting : d.authorized = false → d.kind = none ∧
    (d.registered .clipboard = true ∧ d.registered .audio = true) ∧ d.servicesSubed = false ∧
      d.subed .audio = false ∧
      (d.subed .clipboard = true → d.rights.allows builtin .clipboard = true)
  desktop : d.authorized = true → d.kind = some .remote → ∀ g, g = .clipboard ∨ g = .audio →
    d.registered g = true ∧ (d.subed g = true → d.rights.allows builtin g = true) ∧
      (d.servicesSubed = true → d.subed g = d.rights.allows builtin g)

theorem InLine.other (hauth : d.authorized = true) (hkind : d.kind ≠ some .remote) :
    InLine builtin d :=
  ⟨fun h => Bool.noConfusion (hauth.symm.trans h), fun _ h => absurd h hkind⟩

theorem Tracks.follows (h : Tracks builtin d d') (hg : g = .clipboard ∨ g = .audio) :
    Follows builtin g d d' := by
  rcases hg with rfl | rfl
  · exact h.clipboard
  · exact h.audio

theorem InLine.tracks (h : InLine builtin d) (hauth : d.authorized = true)
    (htracks : Tracks builtin d d') : InLine builtin d' := by
  refine ⟨fun hnot => ?_, fun _ hkind g hg => ?_⟩
  · rw [htracks.authorized, hauth] at hnot
    cases hnot
  · obtain ⟨hreg, hsound, hthrough⟩ := h.desktop hauth (htracks.kind.symm.trans hkind) g hg
    refine ⟨htracks.registered g hreg, ?_⟩
    rcases htracks.follows hg hreg with hline | ⟨hsubed, hallows⟩
    · exact ⟨fun hsub => hline.symm.trans hsub, fun _ => hline⟩
    · rw [hsubed, hallows, htracks.servicesSubed]
      exact ⟨hsound, hthrough⟩

theorem InLine.waits (h : InLine builtin d) (hauth : d.authorized = false) (hcalm : Calm d d')
    (hclipboard : Follows builtin .clipboard d d') (haudio : d'.subed .audio = d.subed .audio) :
    InLine builtin d' := by
  obtain ⟨hkind, ⟨hregclip, hregaudio⟩, hservices, hnone, hsound⟩ := h.waiting hauth
  refine ⟨fun _ => ⟨hcalm.kind.trans hkind,
    ⟨hcalm.registered _ hregclip, hcalm.registered _ hregaudio⟩,
    hcalm.servicesSubed.trans hservices, haudio.trans hnone, fun hsub => ?_⟩, fun hnow => ?_⟩
  · rcases hclipboard hregclip with hline | ⟨hsubed, hallows⟩
    · exact hline.symm.trans hsub
    · rw [hallows]
      exact hsound (hsubed.symm.trans hsub)
  · exact Bool.noConfusion ((hcalm.authorized.trans hauth).symm.trans hnow)

theorem InLine.heard (h : InLine builtin d) (hauth : d.authorized = true)
    (hheard : Heard builtin d d') : InLine builtin d' := by
  cases hheard with
  | tracks htracks => exact h.tracks hauth htracks
  | through e _ => exact ⟨h.waiting, h.desktop⟩

@[simp] theorem rights_subscribe (d : Desk) (g : Gated) (sub : Bool) :
    (d.subscribe g sub).rights = d.rights := by
  unfold subscribe
  split <;> rfl

@[simp] theorem registered_subscribe (d : Desk) (g : Gated) (sub : Bool) :
    (d.subscribe g sub).registered = d.registered := by
  unfold subscribe
  split <;> rfl

theorem subed_subscribe_other (d : Desk) {g g' : Gated} (sub : Bool) (h : g' ≠ g) :
    (d.subscribe g sub).subed g' = d.subed g' := by
  unfold subscribe
  split
  · exact Function.update_of_ne h sub d.subed
  · rfl

theorem subed_subscribe_self (d : Desk) (sub : Bool) (h : d.registered g = true) :
    (d.subscribe g sub).subed g = sub := by
  unfold subscribe
  rw [if_pos h]
  exact Function.update_self g sub d.subed

theorem calm_subscribe (d : Desk) (g : Gated) (sub : Bool) : Calm d (d.subscribe g sub) := by
  unfold subscribe
  split
  · exact ⟨rfl, rfl, rfl, fun _ h => h, rfl⟩
  · exact .refl d

theorem tracks_subscribe (d : Desk) (sub : Bool) (hclipboard : g ≠ .clipboard)
    (haudio : g ≠ .audio) : Tracks builtin d (d.subscribe g sub) :=
  ⟨calm_subscribe d g sub,
    fun _ => .inr ⟨subed_subscribe_other d sub hclipboard.symm, by rw [rights_subscribe]⟩,
    fun _ => .inr ⟨subed_subscribe_other d sub haudio.symm, by rw [rights_subscribe]⟩⟩

theorem tracks_change (d : Desk) (r : Rights) (gs : List Gated)
    (hsame : ∀ g, g = .clipboard ∨ g = .audio → g ∉ gs →
      r.allows builtin g = d.rights.allows builtin g) :
    Tracks builtin d
      (gs.foldl (fun d g => d.subscribe g (r.allows builtin g)) { d with rights := r }) := by
  -- the fold keeps the rights, and sets what it comes by
  have hfold (gs : List Gated) (d : Desk) (hr : d.rights = r) :
      Calm d (gs.foldl (fun d g => d.subscribe g (r.allows builtin g)) d) ∧
        (gs.foldl (fun d g => d.subscribe g (r.allows builtin g)) d).rights = r ∧
        ∀ g, d.registered g = true →
          (gs.foldl (fun d g => d.subscribe g (r.allows builtin g)) d).subed g =
            if g ∈ gs then r.allows builtin g else d.subed g := by
    induction gs generalizing d with
    | nil => exact ⟨.refl d, hr, fun g _ => by simp⟩
    | cons a gs ih =>
      rw [List.foldl_cons]
      obtain ⟨hcalm, hrights, hsubed⟩ := ih (d.subscribe a (r.allows builtin a))
        (by rw [rights_subscribe, hr])
      refine ⟨(calm_subscribe d a _).trans hcalm, hrights, fun g hg => ?_⟩
      rw [hsubed g (by rwa [registered_subscribe])]
      by_cases hmem : g ∈ gs
      · rw [if_pos hmem, if_pos (List.mem_cons_of_mem a hmem)]
      · rw [if_neg hmem]
        by_cases ha : g = a
        · subst ha
          rw [if_pos List.mem_cons_self, subed_subscribe_self d _ hg]
        · rw [if_neg (by simp [ha, hmem]), subed_subscribe_other d _ ha]
  obtain ⟨hcalm, hrights, hsubed⟩ := hfold gs { d with rights := r } rfl
  have hfollows (g : Gated) (hgate : g = .clipboard ∨ g = .audio) : Follows builtin g d
      (gs.foldl (fun d g => d.subscribe g (r.allows builtin g)) { d with rights := r }) := by
    intro hg
    rw [hrights, hsubed g hg]
    by_cases hmem : g ∈ gs
    · exact .inl (if_pos hmem)
    · exact .inr ⟨if_neg hmem, hsame g hgate hmem⟩
  exact ⟨⟨hcalm.authorized, hcalm.kind, hcalm.reached, hcalm.registered, hcalm.servicesSubed⟩,
    hfollows _ (.inl rfl), hfollows _ (.inr rfl)⟩

end Desk

/-! ### The desk of a world -/

namespace World

def reached (w : World) : List Effect := w.log.filter Effect.reaches

def desk (w : World) : Desk where
  authorized := w.conn.authorized
  kind := w.conn.connType
  rights := w.conn.rights
  servicesSubed := w.conn.servicesSubed
  registered g := g.name ∈ w.server.services
  subed g := w.server.subed g.name
  reached := w.reached

theorem desk_emit {e : Effect} (h : e.reaches = false) (w : World) : (w.emit e).desk = w.desk := by
  have hreached : (w.emit e).reached = w.reached := by
    unfold reached emit
    rw [List.filter_append, List.filter_cons_of_neg (by rw [h]; exact Bool.false_ne_true),
      List.filter_nil, List.append_nil]
  unfold desk
  rw [hreached]
  rfl

theorem reached_subscribe (w : World) (name : ServiceName) (sub : Bool) :
    (w.subscribe name sub).reached = w.reached := by
  unfold subscribe
  split
  · exact congrArg Desk.reached (desk_emit rfl _)
  · rfl

theorem server_subscribe (w : World) (name : ServiceName) (sub : Bool) :
    (w.subscribe name sub).server = w.server.subscribe name sub := by
  unfold subscribe
  split <;> rfl

theorem desk_subscribe (w : World) (g : Gated) (sub : Bool) :
    (w.subscribe g.name sub).desk = w.desk.subscribe g sub := by
  have hreached := reached_subscribe w g.name sub
  unfold desk Desk.subscribe
  rw [hreached, server_subscribe, conn_subscribe]
  by_cases hmem : g.name ∈ w.server.services
  · rw [if_pos (decide_eq_true hmem)]
    refine Desk.mk.injEq .. ▸ ⟨rfl, rfl, rfl, rfl, ?_, ?_, rfl⟩
    · funext g'
      rw [Server.services_subscribe]
    · funext g'
      by_cases hg : g' = g
      · subst hg
        rw [Server.subed_subscribe_self hmem, Function.update_self]
      · rw [Server.subed_subscribe_other _ (fun h => hg (Gated.name_injective h)),
          Function.update_of_ne hg]
  · rw [if_neg (by simpa using hmem)]
    unfold Server.subscribe
    rw [if_neg hmem]

@[simp] theorem desk_subscribe_cursor (w : World) (sub : Bool) :
    (w.subscribe .cursor sub).desk = w.desk.subscribe .cursor sub := desk_subscribe w .cursor sub

@[simp] theorem desk_subscribe_clipboard (w : World) (sub : Bool) :
    (w.subscribe .clipboard sub).desk = w.desk.subscribe .clipboard sub :=
  desk_subscribe w .clipboard sub

@[simp] theorem desk_subscribe_fileClipboard (w : World) (sub : Bool) :
    (w.subscribe .fileClipboard sub).desk = w.desk.subscribe .fileClipboard sub :=
  desk_subscribe w .fileClipboard sub

@[simp] theorem desk_subscribe_audio (w : World) (sub : Bool) :
    (w.subscribe .audio sub).desk = w.desk.subscribe .audio sub := desk_subscribe w .audio sub

theorem desk_subscribe_other (w : World) {name : ServiceName} (sub : Bool)
    (hname : ∀ g : Gated, g.name ≠ name) : (w.subscribe name sub).desk = w.desk := by
  have hreached := reached_subscribe w name sub
  unfold desk
  rw [hreached, server_subscribe, conn_subscribe, Server.services_subscribe]
  refine Desk.mk.injEq .. ▸ ⟨rfl, rfl, rfl, rfl, rfl, ?_, rfl⟩
  funext g
  exact Server.subed_subscribe_other _ (hname g) sub

@[simp] theorem desk_subscribe_video (w : World) (source : VideoSource) (idx : ℕ) (sub : Bool) :
    (w.subscribe (.video source idx) sub).desk = w.desk :=
  desk_subscribe_other w sub fun g => Gated.name_ne_video g source idx

@[simp] theorem desk_subscribe_pos (w : World) (sub : Bool) :
    (w.subscribe .pos sub).desk = w.desk :=
  desk_subscribe_other w sub fun g => by cases g <;> exact nofun

@[simp] theorem desk_subscribe_windowFocus (w : World) (sub : Bool) :
    (w.subscribe .windowFocus sub).desk = w.desk :=
  desk_subscribe_other w sub fun g => by cases g <;> exact nofun

@[simp] theorem desk_addService_video (w : World) (source : VideoSource) (idx : ℕ) :
    ({ w with server := w.server.addService (.video source idx) } : World).desk = w.desk := by
  refine Desk.mk.injEq .. ▸ ⟨rfl, rfl, rfl, rfl, ?_, ?_, rfl⟩
  · funext g
    refine decide_eq_decide.mpr ?_
    rw [Server.mem_services_addService]
    exact or_iff_left (Gated.name_ne_video g source idx)
  · funext g
    rw [Server.subed_addService]

/-! ### Options -/

section Options

variable (env : Env) (w : World) (o : OptionMessage)

@[simp] theorem desk_updateImageQuality : (w.updateImageQuality o).desk = w.desk := by
  unfold updateImageQuality
  dsimp only
  generalize (if o.imageQuality = 0 then
    (if o.customImageQuality > 0 then o.customImageQuality else -1) else o.imageQuality) = q
  split
  · exact desk_emit rfl w
  · rfl

@[simp] theorem desk_updateCustomFps : (w.updateCustomFps o).desk = w.desk := by
  unfold updateCustomFps
  split
  · exact desk_emit rfl w
  · rfl

@[simp] theorem desk_updateSupportedDecoding : (w.updateSupportedDecoding o).desk = w.desk := by
  unfold updateSupportedDecoding
  split
  · exact desk_emit rfl w
  · rfl

@[simp] theorem desk_updateLockAfterSessionEnd : (w.updateLockAfterSessionEnd o).desk = w.desk := by
  unfold updateLockAfterSessionEnd
  split <;> rfl

@[simp] theorem desk_updateFollowRemoteCursor : (w.updateFollowRemoteCursor o).desk = w.desk := by
  unfold updateFollowRemoteCursor
  split <;> rfl

@[simp] theorem desk_updateFollowRemoteWindow : (w.updateFollowRemoteWindow o).desk = w.desk := by
  unfold updateFollowRemoteWindow
  split
  · rw [desk_subscribe_windowFocus]
    rfl
  · rfl

@[simp] theorem desk_updatePrivacyMode : (w.updatePrivacyMode o).desk = w.desk := by
  unfold updatePrivacyMode turnPrivacy
  split
  · split
    · split
      · exact desk_emit rfl w
      · rfl
    · rfl
  · rfl

@[simp] theorem desk_updateBlockInput : (w.updateBlockInput o).desk = w.desk := by
  unfold updateBlockInput
  split
  · rfl
  · rfl
  · split <;> exact desk_emit rfl w
  · split <;> exact desk_emit rfl w

@[simp] theorem desk_updateTerminalPersistence : (w.updateTerminalPersistence o).desk = w.desk := by
  unfold updateTerminalPersistence
  split <;> rfl

@[simp] theorem desk_updateShowMyCursor : (w.updateShowMyCursor o).desk = w.desk := by
  unfold updateShowMyCursor
  split <;> rfl

theorem tracks_updateShowRemoteCursor :
    w.desk.Tracks env.builtin (w.updateShowRemoteCursor o).desk := by
  unfold updateShowRemoteCursor
  split
  · next q hq =>
    rw [desk_subscribe_pos, desk_subscribe_cursor]
    exact Desk.tracks_change w.desk { w.conn.rights with showRemoteCursor := q } [.cursor]
      fun g hg _ => by rcases hg with rfl | rfl <;> rfl
  · exact .refl w.desk

theorem tracks_updateDisableAudio (hcamera : w.conn.isAuthedViewCameraConn = false) :
    w.desk.Tracks env.builtin (w.updateDisableAudio o).desk := by
  unfold updateDisableAudio
  split
  · next q hq =>
    have hcamera' : ({ w.conn with disableAudio := q } : Connection).isAuthedViewCameraConn =
        false := hcamera
    dsimp only
    rw [hcamera', if_neg Bool.false_ne_true]
    rw [desk_subscribe_audio]
    exact Desk.tracks_change w.desk { w.conn.rights with disableAudio := q } [.audio]
      fun g hg hmem => by
        rcases hg with rfl | rfl
        · rfl
        · exact absurd List.mem_cons_self hmem
  · exact .refl w.desk

theorem tracks_updateEnableFileTransfer :
    w.desk.Tracks env.builtin (updateEnableFileTransfer env w o).desk := by
  unfold updateEnableFileTransfer
  split
  · next q hq =>
    rw [desk_subscribe_fileClipboard]
    exact Desk.tracks_change w.desk { w.conn.rights with enableFileTransfer := q }
      [.fileClipboard] fun g hg _ => by rcases hg with rfl | rfl <;> rfl
  · exact .refl w.desk

theorem tracks_updateDisableClipboard :
    w.desk.Tracks env.builtin (updateDisableClipboard env w o).desk := by
  unfold updateDisableClipboard
  split
  · next q hq =>
    rw [desk_subscribe_clipboard]
    exact Desk.tracks_change w.desk { w.conn.rights with disableClipboard := q }
      [.clipboard] fun g hg hmem => by
        rcases hg with rfl | rfl
        · exact absurd List.mem_cons_self hmem
        · rfl
  · exact .refl w.desk

theorem tracks_updateDisableKeyboard :
    w.desk.Tracks env.builtin (updateDisableKeyboard env w o).desk := by
  unfold updateDisableKeyboard
  split
  · next q hq =>
    rw [desk_subscribe_cursor, desk_subscribe_fileClipboard, desk_subscribe_clipboard]
    exact Desk.tracks_change w.desk { w.conn.rights with disableKeyboard := q }
      [.clipboard, .fileClipboard, .cursor] fun g hg hmem => by
        rcases hg with rfl | rfl
        · exact absurd List.mem_cons_self hmem
        · rfl
  · exact .refl w.desk

theorem tracks_updateOptions (hcamera : w.conn.isAuthedViewCameraConn = false) :
    w.desk.Tracks env.builtin (updateOptions env w o).desk := by
  unfold updateOptions
  simp only [desk_updateShowMyCursor, desk_updateTerminalPersistence, desk_updateBlockInput,
    desk_updatePrivacyMode]
  refine .trans ?_ (tracks_updateDisableKeyboard env _ o)
  refine .trans ?_ (tracks_updateDisableClipboard env _ o)
  refine .trans ?_ (tracks_updateEnableFileTransfer env _ o)
  refine .trans ?_ (tracks_updateDisableAudio env _ o ?_)
  · simp only [desk_updateFollowRemoteWindow, desk_updateFollowRemoteCursor]
    refine .trans (.of_eq ?_) (tracks_updateShowRemoteCursor env _ o)
    simp only [desk_updateLockAfterSessionEnd, desk_updateSupportedDecoding, desk_updateCustomFps,
      desk_updateImageQuality]
  · simp only [conn_updateFollowRemoteWindow, conn_updateFollowRemoteCursor,
      conn_updateShowRemoteCursor, conn_updateLockAfterSessionEnd, conn_updateSupportedDecoding,
      conn_updateCustomFps, conn_updateImageQuality]
    exact hcamera

end Options

/-! ### Displays and voice calls -/

section Arms

variable (env : Env) (w : World)

theorem desk_foldl {α : Type} {f : World → α → World} (hf : ∀ w a, (f w a).desk = w.desk)
    (w : World) (l : List α) : (l.foldl f w).desk = w.desk := by
  induction l generalizing w with
  | nil => rfl
  | cons a l ih => rw [List.foldl_cons, ih, hf]

theorem desk_switchDisplayTo (displayIdx : ℕ) :
    (switchDisplayTo env w displayIdx).desk = w.desk := by
  have hindex (w : World) :
      ({ w with conn := { w.conn with displayIdx := displayIdx } } : World).desk = w.desk := rfl
  unfold switchDisplayTo
  rw [hindex, desk_subscribe_video]
  split
  · split
    · rw [desk_subscribe_video, desk_addService_video]
    · rw [desk_addService_video]
  · split
    · rw [desk_subscribe_video]
    · rfl

theorem desk_handleSwitchDisplay (display width height : Int32) :
    (handleSwitchDisplay env w display width height).desk = w.desk := by
  unfold handleSwitchDisplay
  dsimp only
  split
  · split
    · rw [desk_emit rfl, desk_switchDisplayTo]
    · rw [desk_switchDisplayTo]
  · rfl

theorem desk_serverCaptureDisplays (source : VideoSource) (displays : List ℕ) (incl excl : Bool) :
    (w.serverCaptureDisplays source displays incl excl).desk = w.desk := by
  refine desk_foldl (fun w name => ?_) w w.server.services
  -- only displays and cameras are looked at
  cases name with
  | video source' idx =>
    simp only [ServiceName.isVideo, if_true]
    split
    · split
      · exact desk_subscribe_video ..
      · rfl
    · split
      · exact desk_subscribe_video ..
      · rfl
  | _ => rfl

theorem desk_captureDisplays (add sub set : List ℕ) :
    (w.captureDisplays add sub set).desk = w.desk := by
  have hservices (l : List ℕ) (w : World) : ({ w with
      server := l.foldl (fun s d => s.addService (.video w.conn.videoSource d)) w.server } :
        World).desk = w.desk := by
    induction l generalizing w with
    | nil => rfl
    | cons d l ih =>
      rw [List.foldl_cons]
      have h := ih { w with server := w.server.addService (.video w.conn.videoSource d) }
      rw [desk_addService_video] at h
      exact h
  have hmulti (w : World) (multi : Bool) :
      ({ w with conn := { w.conn with multiUiSession := multi } } : World).desk = w.desk := rfl
  unfold captureDisplays
  dsimp only
  repeat' split
  all_goals simp only [desk_subscribe_windowFocus, hmulti, desk_serverCaptureDisplays, hservices]

theorem desk_closeVoiceCall (hcamera : w.conn.isAuthedViewCameraConn = false) :
    w.closeVoiceCall.desk = w.desk := by
  have hdesk : ({ w with conn := { w.conn with voiceCalling := false } }.emit
      .closeVoiceCall).desk = w.desk := desk_emit rfl _
  unfold closeVoiceCall
  dsimp only
  split
  · next h => exact absurd (hcamera.symm.trans h) Bool.false_ne_true
  · exact hdesk

theorem desk_handleVoiceCall (hcamera : w.conn.isAuthedViewCameraConn = false) (accepted : Bool) :
    (w.handleVoiceCall accepted).desk = w.desk := by
  unfold handleVoiceCall
  dsimp only
  split
  · split
    · next h => exact absurd (hcamera.symm.trans h) Bool.false_ne_true
    · rfl
  · rfl

/-! ### The permissions -/

theorem desk_onSwitchPermission (name : String) (enabled : Bool)
    (hcamera : w.conn.authorized = true → w.conn.isAuthedViewCameraConn = false) :
    (onSwitchPermission env w name enabled).desk =
      if name = "keyboard" then
        let r := { w.desk.rights with keyboard := enabled }
        ((({ w.desk with rights := r } : Desk).subscribe .clipboard
          (r.allows env.builtin .clipboard)).subscribe .fileClipboard
            (r.allows env.builtin .fileClipboard)).subscribe .cursor
              (enabled || w.desk.rights.showRemoteCursor)
      else if name = "clipboard" then
        let r := { w.desk.rights with clipboard := enabled }
        ({ w.desk with rights := r } : Desk).subscribe .clipboard (r.allows env.builtin .clipboard)
      else if name = "audio" then
        let r := { w.desk.rights with audio := enabled }
        if w.conn.authorized then
          ({ w.desk with rights := r } : Desk).subscribe .audio (r.allows env.builtin .audio)
        else { w.desk with rights := r }
      else if name = "file" then
        let r := { w.desk.rights with file := enabled }
        ({ w.desk with rights := r } : Desk).subscribe .fileClipboard
          (r.allows env.builtin .fileClipboard)
      else w.desk := by
  unfold onSwitchPermission
  split
  · rw [desk_subscribe_cursor, desk_subscribe_fileClipboard, desk_subscribe_clipboard]
    rfl
  · split
    · rw [desk_subscribe_clipboard]
      rfl
    · split
      · dsimp only
        split
        · next hauth =>
          have hcamera' : ({ w.conn with audio := enabled } : Connection).isAuthedViewCameraConn =
              false := hcamera hauth
          rw [hcamera', if_neg Bool.false_ne_true, desk_subscribe_audio]
          rfl
        · rfl
      · split
        · rw [desk_subscribe_fileClipboard]
          rfl
        · split
          · rfl
          · split
            · rfl
            · split
              · rfl
              · split <;> rfl

theorem tracks_onSwitchPermission (name : String) (enabled : Bool)
    (hcamera : w.conn.isAuthedViewCameraConn = false) (hauth : w.conn.authorized = true) :
    w.desk.Tracks env.builtin (onSwitchPermission env w name enabled).desk := by
  rw [desk_onSwitchPermission env w name enabled fun _ => hcamera]
  split
  · -- the cursor has a test of its own
    refine .trans ?_ (Desk.tracks_subscribe _ _ nofun nofun)
    exact Desk.tracks_change w.desk { w.desk.rights with keyboard := enabled }
      [.clipboard, .fileClipboard] fun g hg hmem => by
        rcases hg with rfl | rfl
        · exact absurd List.mem_cons_self hmem
        · rfl
  · split
    · exact Desk.tracks_change w.desk { w.desk.rights with clipboard := enabled }
        [.clipboard] fun g hg hmem => by
          rcases hg with rfl | rfl
          · exact absurd List.mem_cons_self hmem
          · rfl
    · split
      · exact Desk.tracks_change w.desk { w.desk.rights with audio := enabled }
          [.audio] fun g hg hmem => by
            rcases hg with rfl | rfl
            · rfl
            · exact absurd List.mem_cons_self hmem
      · split
        · exact Desk.tracks_change w.desk { w.desk.rights with file := enabled }
            [.fileClipboard] fun g hg _ => by rcases hg with rfl | rfl <;> rfl
        · exact .refl w.desk

/-! ### The arms of an authorized connection -/

theorem desk_emit_reaches {e : Effect} (h : e.reaches = true) :
    (w.emit e).desk = { w.desk with reached := w.desk.reached ++ [e] } := by
  have hreached : (w.emit e).reached = w.reached ++ [e] := by
    unfold reached emit
    rw [List.filter_append, List.filter_cons_of_pos h, List.filter_nil]
  unfold desk
  rw [hreached]
  rfl

theorem heard_onMouseEvent : w.desk.Heard env.builtin w.onMouseEvent.desk := by
  unfold onMouseEvent
  split
  · exact .tracks (.refl w.desk)
  · split
    · next hkeyboard =>
      rw [desk_emit_reaches w rfl]
      exact .through _ (Bool.and_eq_true_iff.mp hkeyboard).1
    · split
      · -- only the cursor of the peer is shown
        exact .tracks (.of_eq (desk_emit rfl w))
      · exact .tracks (.refl w.desk)

theorem heard_onPointerDeviceEvent : w.desk.Heard env.builtin w.onPointerDeviceEvent.desk := by
  unfold onPointerDeviceEvent
  split
  · exact .tracks (.refl w.desk)
  · split
    · next hkeyboard =>
      rw [desk_emit_reaches w rfl]
      exact .through _ (Bool.and_eq_true_iff.mp hkeyboard).1
    · exact .tracks (.refl w.desk)

theorem heard_onKeyEvent (me : KeyEvent) : w.desk.Heard env.builtin (w.onKeyEvent me).desk := by
  unfold onKeyEvent
  split
  · exact .tracks (.refl w.desk)
  · split
    · next hkeyboard =>
      rw [desk_emit_reaches w rfl]
      exact .through _ (Bool.and_eq_true_iff.mp hkeyboard).1
    · exact .tracks (.refl w.desk)

theorem desk_onFileAction (fa : FileAction) : (onFileAction env w fa).desk = w.desk := by
  unfold onFileAction
  dsimp only
  repeat' split
  all_goals first | rfl | exact desk_emit rfl w

theorem tracks_onMisc (m : Misc) (hcamera : w.conn.isAuthedViewCameraConn = false) :
    w.desk.Tracks env.builtin (onMisc env w m).1.desk := by
  have hhandled {p : Prop} [Decidable p] (m : Misc) :
      (if p then w.emit (.handled (.misc m)) else w).desk = w.desk := by
    split
    · exact desk_emit rfl w
    · rfl
  cases m with
  | switchDisplay display width height => exact .of_eq (desk_handleSwitchDisplay env w ..)
  | captureDisplays add sub set => exact .of_eq (desk_captureDisplays w ..)
  | option o => exact tracks_updateOptions env w o hcamera
  | restartRemoteDevice | audioFormat | changeResolution | changeDisplayResolution =>
    exact .of_eq (hhandled _)
  | switchSidesRequest uuid =>
    refine .of_eq ?_
    unfold onMisc
    dsimp only
    split
    · exact desk_emit rfl w
    · rfl
  | closeReason | other => exact .refl w.desk
  | _ => exact .of_eq (desk_emit rfl w)

theorem heard_onAuthorizedMessage (m : Message) (hcamera : w.conn.isAuthedViewCameraConn = false) :
    w.desk.Heard env.builtin (onAuthorizedMessage env w m).1.desk := by
  -- a clipboard is handed on with the permission only
  have hclipboard (m : Message) (hm : (Effect.handled m).reaches = true) : w.desk.Heard env.builtin
      (if w.conn.clipboard then w.emit (.handled m) else w).desk := by
    split
    · next h =>
      rw [desk_emit_reaches w hm]
      exact .through _ h
    · exact .tracks (.refl w.desk)
  cases m with
  | mouseEvent data => exact heard_onMouseEvent env w
  | pointerDeviceEvent data => exact heard_onPointerDeviceEvent env w
  | keyEvent me => exact heard_onKeyEvent env w me
  | clipboard | multiClipboards => exact hclipboard _ rfl
  | fileAction fa => exact .tracks (.of_eq (desk_onFileAction env w fa))
  | misc m => exact .tracks (tracks_onMisc env w m hcamera)
  | audioFrame data =>
    refine .tracks (.of_eq ?_)
    unfold onAuthorizedMessage
    dsimp only
    split
    · exact desk_emit rfl w
    · rfl
  | voiceCallRequest isConnect =>
    cases isConnect with
    | true => exact .tracks (.of_eq rfl)
    | false => exact .tracks (.of_eq (desk_closeVoiceCall w hcamera))
  | cliprdr | fileResponse | screenshotRequest | terminalAction =>
    exact .tracks (.of_eq (desk_emit rfl w))
  | _ => exact .tracks (.refl w.desk)

end Arms

end World

end LibRustdesk.Desktop
