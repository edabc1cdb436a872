import LibRustdesk.Server.Moves

/-!
# What a connection is authorized as

`Identified` says of an authorized connection that the kind it was authorized as, its flags and its
socket are those of the login that was validated last, that the permission for that kind has been
looked at, and that the login in the connection still has the identity that was recorded.

A `LoginRequest` sets the flag of its kind before its credential is looked at, and nothing clears a
flag; every `LoginRequest` and `SwitchSidesResponse` puts its login into the connection, also after
the connection is authorized; and switched sides ask for no permission. `Fits` is what a step has
to meet:

* once authorized, a login that comes in has the recorded identity;
* a login that is let in finds no flag of another kind;
* what authorizes without a `LoginRequest` finds the flags, and the permission, of the login it
  authorizes.

`identified_logon_iff` is the step through `send_logon_response_and_keep_alive`,
`identified_step_iff` any step, and `authorized_identified_iff` a whole run.
-/

namespace LibRustdesk.Desktop

/-- The permission a login of a kind needs. There is none for the desktop. -/
def AuthConnType.permission : AuthConnType → Option PermissionOption
  | .remote => none
  | .fileTransfer => some .fileTransfer
  | .portForward => some .tunnel
  | .viewCamera => some .camera
  | .terminal => some .terminal

namespace Core

/-- The flags of one kind are set. A port forward has a socket instead. -/
structure FlagsOf (c : Core) (kind : AuthConnType) : Prop where
  fileTransfer : c.fileTransfer.isSome = true ↔ kind = .fileTransfer
  viewCamera : c.viewCamera = true ↔ kind = .viewCamera
  terminal : c.terminal = true ↔ kind = .terminal

theorem flagsOf_iff {c : Core} {kind : AuthConnType} : c.FlagsOf kind ↔
    (c.fileTransfer.isSome = true ↔ kind = .fileTransfer) ∧
      (c.viewCamera = true ↔ kind = .viewCamera) ∧ (c.terminal = true ↔ kind = .terminal) :=
  ⟨fun h => ⟨h.1, h.2, h.3⟩, fun h => ⟨h.1, h.2.1, h.2.2⟩⟩

structure OnlyFlag (c : Core) (kind : AuthConnType) : Prop where
  fileTransfer : c.fileTransfer.isSome = true → kind = .fileTransfer
  viewCamera : c.viewCamera = true → kind = .viewCamera
  terminal : c.terminal = true → kind = .terminal

def Permitted (c : Core) (kind : AuthConnType) : Prop :=
  kind.permission ≠ none → kind ∈ c.history.checked

/-- A connection is authorized as what the login validated last asked for. -/
def Identified (c : Core) : Prop :=
  ∃ lr, c.history.validated = some lr ∧ c.FlagsOf lr.kind ∧
    (c.portForwardSocket.isSome = true ↔ lr.kind = .portForward) ∧ c.Permitted lr.kind ∧
    c.authedConnId = some (lr.kind, c.lr.sessionKey)

/-- A connection that can be authorized as what the login validated last asks for. -/
def Ready (c : Core) : Prop :=
  ∃ lr, c.history.validated = some lr ∧ c.FlagsOf lr.kind ∧
    (c.lr.kind = .portForward ↔ lr.kind = .portForward) ∧ c.Permitted lr.kind

/-- The socket of a port forward is connected when the connection is authorized. -/
def Idle (c : Core) : Prop := c.authorized = false → c.portForwardSocket = none

section

variable {c : Core}

theorem FlagsOf.authKind {kind : AuthConnType} (h : c.FlagsOf kind)
    (hsocket : c.portForwardSocket.isSome = true ↔ kind = .portForward) : c.authKind = kind := by
  obtain ⟨hfile, hcamera, hterminal⟩ := h
  unfold Core.authKind
  cases kind <;> simp_all

theorem flagsOf_ask (lr : LoginRequest) : (c.ask lr).FlagsOf lr.kind ↔ c.OnlyFlag lr.kind := by
  unfold ask setFlag LoginRequest.kind check
  constructor
  · intro h
    cases hunion : lr.union with
    | none =>
      simp only [hunion] at h
      exact ⟨h.fileTransfer.mp, h.viewCamera.mp, h.terminal.mp⟩
    | some union =>
      cases union with
      | fileTransfer dir showHidden =>
        simp only [hunion] at h
        exact ⟨fun _ => rfl, h.viewCamera.mp, h.terminal.mp⟩
      | portForward host port =>
        simp only [hunion] at h
        exact ⟨h.fileTransfer.mp, h.viewCamera.mp, h.terminal.mp⟩
      | viewCamera =>
        simp only [hunion] at h
        exact ⟨h.fileTransfer.mp, fun _ => rfl, h.terminal.mp⟩
      | terminal serviceId =>
        simp only [hunion] at h
        exact ⟨h.fileTransfer.mp, h.viewCamera.mp, fun _ => rfl⟩
  · intro h
    cases hunion : lr.union with
    | none =>
      simp only [hunion] at h
      exact ⟨⟨h.fileTransfer, nofun⟩, ⟨h.viewCamera, nofun⟩, ⟨h.terminal, nofun⟩⟩
    | some union =>
      cases union with
      | fileTransfer dir showHidden =>
        simp only [hunion] at h
        exact ⟨⟨fun _ => rfl, fun _ => rfl⟩, ⟨h.viewCamera, nofun⟩, ⟨h.terminal, nofun⟩⟩
      | portForward host port =>
        simp only [hunion] at h
        exact ⟨⟨h.fileTransfer, nofun⟩, ⟨h.viewCamera, nofun⟩, ⟨h.terminal, nofun⟩⟩
      | viewCamera =>
        simp only [hunion] at h
        exact ⟨⟨h.fileTransfer, nofun⟩, ⟨fun _ => rfl, fun _ => rfl⟩, ⟨h.terminal, nofun⟩⟩
      | terminal serviceId =>
        simp only [hunion] at h
        exact ⟨⟨h.fileTransfer, nofun⟩, ⟨h.viewCamera, nofun⟩, ⟨fun _ => rfl, fun _ => rfl⟩⟩

end

end Core

/-! ### Through `send_logon_response_and_keep_alive` -/

namespace World

section

variable {env : Env} {w : World}

theorem passes2fa_of_none (h : w.conn.require2fa = none) : w.passes2fa env = true := by
  unfold passes2fa
  rw [h]
  rfl

theorem passes2fa_of_fromSwitch (h : w.conn.fromSwitch = true) : w.passes2fa env = true := by
  unfold passes2fa
  rw [h, Bool.or_true, Bool.true_or]

theorem Passes2fa.eq {h : History} (hpass : w.Passes2fa h) :
    h.validated = w.history.validated ∧ h.checked = w.history.checked := by
  rcases hpass with ⟨-, rfl⟩ | rfl
  · exact ⟨rfl, rfl⟩
  · exact ⟨rfl, rfl⟩

theorem isSome_socket (h : w.conn.portForwardSocket = none) :
    w.conn.socket.isSome = true ↔ w.core.lr.kind = .portForward := by
  show _ ↔ w.conn.lr.kind = .portForward
  unfold Connection.socket LoginRequest.kind
  rw [h]
  cases w.conn.lr.union with
  | none => simp
  | some union => cases union <;> simp

theorem identified_authorize_iff {h : History} (hpass : w.Passes2fa h)
    (hsocket : w.conn.portForwardSocket = none) :
    (({ w.core with portForwardSocket := w.conn.socket, history := h } : Core).authorize).Identified
      ↔ w.core.Ready := by
  obtain ⟨hvalidated, hchecked⟩ := hpass.eq
  have hsome := isSome_socket hsocket
  constructor
  · rintro ⟨lr, hlr, hflags, hforward, hpermitted, -⟩
    refine ⟨lr, hvalidated.symm.trans hlr, ⟨hflags.fileTransfer, hflags.viewCamera,
      hflags.terminal⟩, hsome.symm.trans hforward, fun hneeded => ?_⟩
    show lr.kind ∈ w.history.checked
    rw [← hchecked]
    exact hpermitted hneeded
  · rintro ⟨lr, hlr, hflags, hforward, hpermitted⟩
    have hflags' : ({ w.core with portForwardSocket := w.conn.socket, history := h } :
        Core).FlagsOf lr.kind := ⟨hflags.fileTransfer, hflags.viewCamera, hflags.terminal⟩
    refine ⟨lr, hvalidated.trans hlr, ⟨hflags.fileTransfer, hflags.viewCamera,
      hflags.terminal⟩, hsome.trans hforward, fun hneeded => ?_, ?_⟩
    · show lr.kind ∈ h.checked
      rw [hchecked]
      exact hpermitted hneeded
    · exact congrArg (fun kind => some (kind, w.core.lr.sessionKey))
        (hflags'.authKind (hsome.trans hforward))

theorem identified_logon_iff {w' : World} {b : Bool} (h : Logon env w (w', b))
    (hauth : w.conn.authorized = false) (hidle : w.core.Idle) :
    (w'.core.authorized = true → w'.core.Identified) ↔
      (w.passes2fa env = true → w.conn.canBeAuthorized env = true → w.core.Ready) := by
  cases h with
  | again _ hagain _ => exact absurd (hauth.symm.trans hagain) Bool.false_ne_true
  | waits _ _ hpasses hcore =>
    refine ⟨fun _ h => absurd (hpasses.symm.trans h) Bool.false_ne_true, fun _ h => ?_⟩
    rw [hcore] at h
    exact absurd (hauth.symm.trans h) Bool.false_ne_true
  | closes _ _ _ hcan _ hcore =>
    refine ⟨fun _ _ h => absurd (hcan.symm.trans h) Bool.false_ne_true, fun _ h => ?_⟩
    rw [hcore] at h
    exact absurd (hauth.symm.trans h) Bool.false_ne_true
  | authorizes _ history _ hpasses hcan hpass hcore =>
    rw [hcore]
    have hiff := identified_authorize_iff hpass (hidle hauth)
    exact ⟨fun h _ _ => hiff.mp (h rfl), fun h _ => hiff.mpr (h hpasses hcan)⟩

theorem core_logon_of_authorized {w' : World} {b : Bool} (h : Logon env w (w', b))
    (hauth : w.conn.authorized = true) : w'.core = w.core := by
  cases h with
  | again _ _ hcore => exact hcore
  | waits _ hfalse _ _ => exact absurd (hfalse.symm.trans hauth) Bool.false_ne_true
  | closes _ _ hfalse _ _ _ => exact absurd (hfalse.symm.trans hauth) Bool.false_ne_true
  | authorizes _ _ hfalse _ _ _ _ => exact absurd (hfalse.symm.trans hauth) Bool.false_ne_true

end

/-! ### One step -/

theorem idle_congr {c c' : Core} (h : c'.door = c.door) : c'.Idle ↔ c.Idle := by
  simp only [Core.door, Prod.mk.injEq] at h
  unfold Core.Idle
  rw [h.1, h.2.1]

theorem idle_step {w : World} (hidle : w.core.Idle) (ev : Event) : (step w ev).core.Idle := by
  rcases door_step w ev with hdoor | ⟨c, hdoor⟩
  · exact (idle_congr hdoor).mpr hidle
  · exact (idle_congr hdoor).mpr nofun

def Fits (w : World) (ev : Event) : Prop :=
  w.ended = false →
    match ev with
    | .message env (.loginRequest lr) =>
      if w.conn.authorized then lr.sessionKey = w.conn.lr.sessionKey
      else
        w.letsIn env lr = true → (w.asked env lr).skips2fa env = true →
          (w.asked env lr).conn.canBeAuthorized env = true → w.core.OnlyFlag lr.kind
    | .message env (.auth2fa code _) =>
      w.conn.authorized = false → w.provesCode env code → w.conn.canBeAuthorized env = true →
        w.core.Ready
    | .message env (.switchSidesResponse uuid (some lr)) =>
      if w.conn.authorized then lr.sessionKey = w.conn.lr.sessionKey
      else
        w.validUuid env uuid lr →
          (handleLoginRequestWithoutValidation env w lr).conn.canBeAuthorized env = true →
            w.core.FlagsOf lr.kind ∧ w.core.Permitted lr.kind
    | .cm env .authorize =>
      w.conn.cmStarted = true → w.conn.authorized = false → w.conn.canBeAuthorized env = true →
        w.core.FlagsOf w.conn.lr.kind ∧ w.core.Permitted w.conn.lr.kind
    | _ => True

theorem identified_present_iff {c : Core} (h : c.Identified) (env : Env) (lr : LoginRequest) :
    (c.present env lr).Identified ↔ lr.sessionKey = c.lr.sessionKey := by
  obtain ⟨v, hv, hflags, hforward, hpermitted, hrecorded⟩ := h
  have heq : ∃ require2fa history, c.present env lr =
      { c with lr := lr, require2fa := require2fa, history := history } ∧
      history.validated = c.history.validated ∧ history.checked = c.history.checked := by
    unfold Core.present
    split
    · exact ⟨_, _, rfl, rfl, rfl⟩
    · exact ⟨_, _, rfl, rfl, rfl⟩
  obtain ⟨require2fa, history, heq, hvalidated, hchecked⟩ := heq
  rw [heq]
  constructor
  · rintro ⟨_, -, -, -, -, hsame⟩
    have hkey := hrecorded.symm.trans hsame
    exact (Prod.mk.inj (Option.some.inj hkey)).2.symm
  · intro hkey
    refine ⟨v, hvalidated.trans hv, ⟨hflags.fileTransfer, hflags.viewCamera, hflags.terminal⟩,
      hforward, fun hneeded => ?_, ?_⟩
    · rw [hchecked]
      exact hpermitted hneeded
    · rw [hkey]
      exact hrecorded

theorem ready_letIn_iff {c : Core} (hauth : c.authorized = false) (env : Env) (lr : LoginRequest) :
    ((((c.present env lr).ask lr).startCm).letIn lr).Ready ↔ c.OnlyFlag lr.kind := by
  have honly : (c.present env lr).OnlyFlag lr.kind ↔ c.OnlyFlag lr.kind := by
    unfold Core.present
    split
    · exact ⟨fun h => ⟨h.1, h.2, h.3⟩, fun h => ⟨h.1, h.2, h.3⟩⟩
    · exact ⟨fun h => ⟨h.1, h.2, h.3⟩, fun h => ⟨h.1, h.2, h.3⟩⟩
  have hflags := (Core.flagsOf_ask (c := c.present env lr) lr).trans honly
  have hlr : ((c.present env lr).ask lr).lr = lr := by rw [Core.lr_ask, Core.lr_present]
  have hfalse : ((c.present env lr).ask lr).authorized = false := by
    rw [Core.authorized_ask, Core.authorized_present]
    exact hauth
  have hchecked := Core.kind_mem_checked_ask lr (c.present env lr)
  generalize (c.present env lr).ask lr = c' at hflags hlr hfalse hchecked ⊢
  unfold Core.letIn
  rw [Core.validates_of_not_authorized]
  · constructor
    · rintro ⟨v, hv, hof, -, -⟩
      obtain rfl := Option.some.inj hv
      exact hflags.mp ⟨hof.1, hof.2, hof.3⟩
    · intro h
      have hof := hflags.mpr h
      refine ⟨lr, rfl, ⟨hof.1, hof.2, hof.3⟩, ?_, fun _ => hchecked⟩
      show c'.lr.kind = _ ↔ _
      rw [hlr]
  · exact hfalse

theorem ready_validates_iff {c : Core} (hauth : c.authorized = false) {lr : LoginRequest}
    (hlr : c.lr = lr) : (c.validates lr).Ready ↔ c.FlagsOf lr.kind ∧ c.Permitted lr.kind := by
  rw [Core.validates_of_not_authorized lr c hauth]
  constructor
  · rintro ⟨v, hv, hof, -, hpermitted⟩
    obtain rfl := Option.some.inj hv
    exact ⟨⟨hof.1, hof.2, hof.3⟩, hpermitted⟩
  · rintro ⟨hof, hpermitted⟩
    refine ⟨lr, rfl, ⟨hof.1, hof.2, hof.3⟩, ?_, hpermitted⟩
    rw [hlr]

theorem ready_congr {c c' : Core}
    (h : (c'.history.validated, c'.history.checked, c'.fileTransfer, c'.viewCamera, c'.terminal,
        c'.lr) =
      (c.history.validated, c.history.checked, c.fileTransfer, c.viewCamera, c.terminal, c.lr)) :
    c'.Ready ↔ c.Ready := by
  simp only [Prod.mk.injEq] at h
  obtain ⟨hvalidated, hchecked, hfile, hcamera, hterminal, hlr⟩ := h
  have hflags (kind : AuthConnType) : c'.FlagsOf kind ↔ c.FlagsOf kind := by
    rw [Core.flagsOf_iff, Core.flagsOf_iff, hfile, hcamera, hterminal]
  unfold Core.Ready Core.Permitted
  simp only [hvalidated, hchecked, hlr, hflags]

theorem identified_congr {c c' : Core}
    (h : (c'.history.validated, c'.history.checked, c'.fileTransfer, c'.viewCamera, c'.terminal,
        c'.portForwardSocket, c'.authedConnId, c'.lr.sessionKey) =
      (c.history.validated, c.history.checked, c.fileTransfer, c.viewCamera, c.terminal,
        c.portForwardSocket, c.authedConnId, c.lr.sessionKey)) :
    c'.Identified ↔ c.Identified := by
  simp only [Prod.mk.injEq] at h
  obtain ⟨hvalidated, hchecked, hfile, hcamera, hterminal, hsocket, hrecorded, hkey⟩ := h
  have hflags (kind : AuthConnType) : c'.FlagsOf kind ↔ c.FlagsOf kind := by
    rw [Core.flagsOf_iff, Core.flagsOf_iff, hfile, hcamera, hterminal]
  unfold Core.Identified Core.Permitted
  simp only [hvalidated, hchecked, hsocket, hrecorded, hkey, hflags]

theorem fits_of_not_enters {w : World} {ev : Event} (h : w.enters ev = false) : w.Fits ev := by
  intro hended
  have hfalse : (!w.ended) = false → False := fun h => by
    rw [hended] at h
    exact Bool.noConfusion h
  cases ev with
  | message env m =>
    cases m with
    | loginRequest lr => exact (hfalse h).elim
    | auth2fa code hwid => exact (hfalse h).elim
    | switchSidesResponse uuid lr => exact (hfalse h).elim
    | _ => trivial
  | cm env d =>
    cases d with
    | authorize =>
      intro hstarted
      change (!w.ended && w.conn.cmStarted) = false at h
      rw [hstarted, hended] at h
      exact Bool.noConfusion h
    | _ => trivial
  | testDelayTimer | others => trivial

theorem identified_step_of_authorized {w : World} (hauth : w.conn.authorized = true)
    (hidentified : w.core.Identified) (hended : w.ended = false) (ev : Event) :
    ((step w ev).core.authorized = true → (step w ev).core.Identified) ↔ w.Fits ev := by
  have hpresent (env : Env) (lr : LoginRequest) : ((w.core.present env lr).authorized = true →
      (w.core.present env lr).Identified) ↔ lr.sessionKey = w.conn.lr.sessionKey := by
    rw [Core.authorized_present, identified_present_iff hidentified]
    exact ⟨fun h => h hauth, fun h _ => h⟩
  have hmoves := step_moves w ev
  generalize (step w ev).core = c at hmoves ⊢
  cases hmoves with
  | keeps _ henters => exact ⟨fun _ => fits_of_not_enters henters, fun _ _ => hidentified⟩
  | login env lr r hlogin =>
    have hfits : w.Fits (.message env (.loginRequest lr)) ↔
        lr.sessionKey = w.conn.lr.sessionKey := by
      unfold Fits
      dsimp only
      rw [if_pos hauth]
      exact ⟨fun h => h hended, fun h _ => h⟩
    rw [hfits]
    cases hlogin with
    | again _ _ hcore =>
      rw [hcore]
      exact hpresent env lr
    | refused _ hfalse _ _ => exact absurd (hfalse.symm.trans hauth) Bool.false_ne_true
    | offline _ hfalse _ _ => exact absurd (hfalse.symm.trans hauth) Bool.false_ne_true
    | waits _ hfalse _ _ => exact absurd (hfalse.symm.trans hauth) Bool.false_ne_true
    | unready _ hfalse _ _ => exact absurd (hfalse.symm.trans hauth) Bool.false_ne_true
    | logs _ _ hfalse _ _ _ _ _ => exact absurd (hfalse.symm.trans hauth) Bool.false_ne_true
  | code env code hwid r hcode =>
    have hfits : w.Fits (.message env (.auth2fa code hwid)) := fun _ hfalse =>
      absurd (hfalse.symm.trans hauth) Bool.false_ne_true
    refine ⟨fun _ => hfits, fun _ _ => ?_⟩
    cases hcode with
    | wrong _ _ hcore =>
      rw [hcore]
      exact hidentified
    | right w1 _ _ hconn hcore hlogon =>
      rw [core_logon_of_authorized hlogon (by rw [hconn]; exact hauth), hcore]
      exact (identified_congr (c := w.core) (by rfl)).mpr hidentified
  | switchSides env uuid lr r hswitch =>
    have hfitsSwitch {lr : LoginRequest} :
        w.Fits (.message env (.switchSidesResponse uuid (some lr))) ↔
          lr.sessionKey = w.conn.lr.sessionKey := by
      unfold Fits
      dsimp only
      rw [if_pos hauth]
      exact ⟨fun h => h hended, fun h _ => h⟩
    cases hswitch with
    | none => exact ⟨fun _ _ => trivial, fun _ _ => hidentified⟩
    | unknown lr _ _ hcore =>
      rw [hfitsSwitch, hcore]
      exact hpresent env lr
    | valid lr w1 w2 w' b _ _ hcore hlogon hstart =>
      have hauth1 : w1.core.authorized = true := by
        rw [hcore, Core.authorized_validates]
        exact (Core.authorized_present env lr w.core).trans hauth
      have hcore1 : w1.core = { w.core.present env lr with
          fromSwitch := true
          history := { (w.core.present env lr).history with switchedSides := true } } := by
        rw [hcore, Core.validates_of_authorized]
        exact (Core.authorized_present env lr w.core).trans hauth
      have hcore2 : w'.core = if b then w1.core.startCm else w1.core := by
        rw [hstart, core_logon_of_authorized hlogon hauth1]
      rw [hfitsSwitch, ← hpresent env lr]
      have hcongr : w'.core.Identified ↔ (w.core.present env lr).Identified := by
        rw [hcore2, hcore1]
        cases b with
        | false => exact identified_congr rfl
        | true => exact identified_congr rfl
      have hsame : w'.core.authorized = (w.core.present env lr).authorized := by
        rw [hcore2, hcore1]
        cases b <;> rfl
      rw [hcongr, hsame]
  | authorize env _ w1 w' b hlogon hconn hcore =>
    have hfits : w.Fits (.cm env .authorize) := fun _ _ hfalse =>
      absurd (hfalse.symm.trans hauth) Bool.false_ne_true
    refine ⟨fun _ => hfits, fun _ _ => ?_⟩
    rw [core_logon_of_authorized hlogon (by rw [hconn]; exact hauth), hcore,
      Core.validates_of_authorized]
    · exact (identified_congr (c := w.core) (by rfl)).mpr hidentified
    · exact hauth

theorem identified_step_of_not_authorized {w : World} (hauth : w.conn.authorized = false)
    (hidle : w.core.Idle) (hended : w.ended = false) (ev : Event) :
    ((step w ev).core.authorized = true → (step w ev).core.Identified) ↔ w.Fits ev := by
  have hnot {c : Core} (h : c.authorized = false) : c.authorized = true → c.Identified := fun h' =>
    absurd (h.symm.trans h') Bool.false_ne_true
  have hmoves := step_moves w ev
  generalize (step w ev).core = c at hmoves ⊢
  cases hmoves with
  | keeps _ henters => exact ⟨fun _ => fits_of_not_enters henters, fun _ => hnot hauth⟩
  | login env lr r hlogin =>
    have hfits : w.Fits (.message env (.loginRequest lr)) ↔
        (w.letsIn env lr = true → (w.asked env lr).skips2fa env = true →
          (w.asked env lr).conn.canBeAuthorized env = true → w.core.OnlyFlag lr.kind) := by
      unfold Fits
      dsimp only
      rw [if_neg (by rw [hauth]; exact Bool.false_ne_true)]
      exact ⟨fun h => h hended, fun h _ => h⟩
    have hnotIn {c : Core} (hc : c.authorized = w.core.authorized)
        (hlets : w.letsIn env lr = false) :
        (c.authorized = true → c.Identified) ↔ w.Fits (.message env (.loginRequest lr)) := by
      rw [hfits]
      exact ⟨fun _ h => absurd (hlets.symm.trans h) Bool.false_ne_true,
        fun _ => hnot (hc.trans hauth)⟩
    cases hlogin with
    | again _ htrue _ => exact absurd (hauth.symm.trans htrue) Bool.false_ne_true
    | refused _ _ hlets hcore =>
      refine hnotIn ?_ hlets
      rw [hcore, Core.authorized_present]
    | offline _ _ hlets hcore =>
      refine hnotIn ?_ hlets
      rw [hcore, Core.authorized_ask, Core.authorized_present]
    | waits _ _ hlets hcore =>
      refine hnotIn ?_ hlets
      rw [hcore, Core.authorized_startCm, Core.authorized_ask, Core.authorized_present]
    | unready _ _ hlets hcore =>
      refine hnotIn ?_ hlets
      rw [hcore, Core.authorized_letIn, Core.authorized_startCm, Core.authorized_ask,
        Core.authorized_present]
    | logs w1 r _ hlets hconn hcore hpasses hlogon =>
      obtain ⟨w2, b⟩ := r
      have hfalse1 : w1.core.authorized = false := by
        rw [hcore, Core.authorized_letIn, Core.authorized_startCm, Core.authorized_ask,
          Core.authorized_present]
        exact hauth
      have hidle1 : w1.core.Idle := by
        refine (idle_congr ?_).mpr hidle
        rw [hcore, Core.door_letIn, Core.door_startCm, Core.door_ask, Core.door_present]
      rw [hfits, identified_logon_iff hlogon hfalse1 hidle1, hpasses, hconn, hcore,
        ready_letIn_iff hauth env lr]
      exact ⟨fun h _ => h, fun h => h hlets⟩
  | code env code hwid r hcode =>
    have hfits : w.Fits (.message env (.auth2fa code hwid)) ↔
        (w.provesCode env code → w.conn.canBeAuthorized env = true → w.core.Ready) :=
      ⟨fun h => h hended hauth, fun h _ _ => h⟩
    rw [hfits]
    cases hcode with
    | wrong _ hwrong hcore =>
      refine ⟨fun _ h => absurd h hwrong, fun _ => hnot ?_⟩
      rw [hcore]
      exact hauth
    | right w1 r hproves hconn hcore hlogon =>
      obtain ⟨w2, b⟩ := r
      have hfalse1 : w1.core.authorized = false := by
        rw [hcore]
        exact hauth
      have hidle1 : w1.core.Idle := by
        rw [hcore]
        exact hidle
      have hpasses : w1.passes2fa env = true := passes2fa_of_none (by rw [hconn])
      have hready : w1.core.Ready ↔ w.core.Ready := by
        rw [hcore]
        exact ready_congr rfl
      have hcan : w1.conn.canBeAuthorized env = w.conn.canBeAuthorized env := by
        rw [hconn]
        rfl
      rw [identified_logon_iff hlogon hfalse1 hidle1, hready, hcan]
      exact ⟨fun h _ => h hpasses, fun h _ => h hproves⟩
  | switchSides env uuid lr r hswitch =>
    have hfits {lr : LoginRequest} :
        w.Fits (.message env (.switchSidesResponse uuid (some lr))) ↔
          (w.validUuid env uuid lr →
            (handleLoginRequestWithoutValidation env w lr).conn.canBeAuthorized env = true →
              w.core.FlagsOf lr.kind ∧ w.core.Permitted lr.kind) := by
      unfold Fits
      dsimp only
      rw [if_neg (by rw [hauth]; exact Bool.false_ne_true)]
      exact ⟨fun h => h hended, fun h _ => h⟩
    cases hswitch with
    | none => exact ⟨fun _ _ => trivial, fun _ => hnot hauth⟩
    | unknown lr _ hvalid hcore =>
      rw [hfits]
      refine ⟨fun _ h => absurd h hvalid, fun _ => hnot ?_⟩
      rw [hcore, Core.authorized_present]
      exact hauth
    | valid lr w1 w2 w' b hvalid hconn hcore hlogon hstart =>
      have hfalse : (w.core.present env lr).authorized = false :=
        (Core.authorized_present env lr w.core).trans hauth
      have hfalse1 : w1.core.authorized = false := by
        rw [hcore, Core.authorized_validates]
        exact hfalse
      have hidle1 : w1.core.Idle := by
        refine (idle_congr ?_).mpr hidle
        rw [hcore, Core.door_validates]
        exact Core.door_present env lr w.core
      have hpasses : w1.passes2fa env = true := passes2fa_of_fromSwitch (by rw [hconn])
      have hcan : w1.conn.canBeAuthorized env =
          (handleLoginRequestWithoutValidation env w lr).conn.canBeAuthorized env := by
        rw [hconn]
        rfl
      have hready : w1.core.Ready ↔ w.core.FlagsOf lr.kind ∧ w.core.Permitted lr.kind := by
        rw [hcore]
        refine (ready_validates_iff ?_ ?_).trans ?_
        · exact hfalse
        · exact Core.lr_present env lr w.core
        · rw [Core.flagsOf_iff, Core.flagsOf_iff]
          unfold Core.Permitted Core.present
          split
          · exact Iff.rfl
          · exact Iff.rfl
      have hsame : (w'.core.authorized = true → w'.core.Identified) ↔
          (w2.core.authorized = true → w2.core.Identified) := by
        rw [hstart]
        cases b with
        | false => exact Iff.rfl
        | true =>
          have hcongr : w2.core.startCm.Identified ↔ w2.core.Identified := identified_congr rfl
          rw [if_pos rfl, hcongr]
          exact Iff.rfl
      rw [hfits]
      refine hsame.trans ?_
      rw [identified_logon_iff hlogon hfalse1 hidle1, hready, hcan]
      exact ⟨fun h _ => h hpasses, fun h _ => h hvalid⟩
  | authorize env hstarted w1 w' b hlogon hconn hcore =>
    have hfits : w.Fits (.cm env .authorize) ↔ (w.conn.canBeAuthorized env = true →
        w.core.FlagsOf w.conn.lr.kind ∧ w.core.Permitted w.conn.lr.kind) :=
      ⟨fun h => h hended hstarted hauth, fun h _ _ _ => h⟩
    have hfalse1 : w1.core.authorized = false := by
      rw [hcore, Core.authorized_validates]
      exact hauth
    have hidle1 : w1.core.Idle := by
      refine (idle_congr ?_).mpr hidle
      rw [hcore, Core.door_validates]
      rfl
    have hpasses : w1.passes2fa env = true := passes2fa_of_none (by rw [hconn])
    have hcan : w1.conn.canBeAuthorized env = w.conn.canBeAuthorized env := by
      rw [hconn]
      rfl
    have hready : w1.core.Ready ↔
        w.core.FlagsOf w.conn.lr.kind ∧ w.core.Permitted w.conn.lr.kind := by
      rw [hcore]
      refine (ready_validates_iff ?_ ?_).trans ?_
      · exact hauth
      · rfl
      · rw [Core.flagsOf_iff, Core.flagsOf_iff]
        exact Iff.rfl
    rw [hfits, identified_logon_iff hlogon hfalse1 hidle1, hready, hcan]
    exact ⟨fun h => h hpasses, fun h _ => h⟩

theorem identified_step_iff {w : World} (hidle : w.core.Idle)
    (hidentified : w.core.authorized = true → w.core.Identified) (ev : Event) :
    ((step w ev).core.authorized = true → (step w ev).core.Identified) ↔ w.Fits ev := by
  cases hended : w.ended with
  | true =>
    rw [step_of_ended hended]
    exact ⟨fun _ hfalse => absurd (hended.symm.trans hfalse) Bool.noConfusion,
      fun _ => hidentified⟩
  | false =>
    cases hauth : w.conn.authorized with
    | true => exact identified_step_of_authorized hauth (hidentified hauth) hended ev
    | false => exact identified_step_of_not_authorized hauth hidle hended ev

end World

/-- **The identity of a connection.** Every state of a run that is authorized is identified exactly
when every step of the run fits. -/
theorem authorized_identified_iff (s : Opening) (es : List Event) :
    (∀ pre, pre <+: es → (connection.run (World.start s) pre).conn.authorized = true →
      (connection.run (World.start s) pre).core.Identified) ↔
    connection.Meets World.Fits (World.start s) es := by
  refine Machine.meets_iff_inv (M := connection)
    (I := fun w => w.core.authorized = true → w.core.Identified) (J := fun w => w.core.Idle)
    ?_ ?_ ?_ ?_
  · exact nofun
  · exact fun _ => rfl
  · exact fun w ev hidle => World.idle_step hidle ev
  · exact fun w ev hidle hidentified => World.identified_step_iff hidle hidentified ev

/-- A login for files with a wrong password, and then one for the desktop. -/
def filesThenDesktop : List Event :=
  [.message Env.plain (.loginRequest { desktopLogin with
      password := [0]
      union := some (.fileTransfer [] false) }),
    .message Env.plain (.loginRequest desktopLogin)]

/-- The connection is authorized for files, although the login for the desktop was let in. -/
theorem files_then_desktop_mixes :
    ¬∀ (s : Opening) (es : List Event), (connection.run (World.start s) es).conn.authorized = true →
      (connection.run (World.start s) es).core.Identified := by
  intro h
  obtain ⟨lr, hvalidated, hflags, -⟩ :=
    h { Opening.plain with require2fa := none } filesThenDesktop (by decide +kernel)
  have hdesktop : (connection.run (World.start { Opening.plain with require2fa := none })
      filesThenDesktop).core.history.validated = some desktopLogin := by decide +kernel
  obtain rfl := Option.some.inj (hdesktop.symm.trans hvalidated)
  have hfiles := hflags.fileTransfer.mp (by decide +kernel)
  exact absurd hfiles (by decide)

end LibRustdesk.Desktop
