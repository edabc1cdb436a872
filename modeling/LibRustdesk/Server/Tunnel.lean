import LibRustdesk.Server.Identity

/-!
# A connection that forwards a port

Such a connection leaves its loop when it is authorized and then passes bytes on (`forwards`). It
must not do so while a reply to a `TestDelay` is on its way, because the reply would be passed on
as well.

* `awaits_onMessage`, `awaits_onCmData` — logins, codes and commands leave alone what is awaited.
  Only the timer awaits a reply, and only a reply is taken for one.
* `Keeps` — what becomes of a login for a port forward: it connects the socket that it authorizes.
* `Tunnel` — a connection that is asked for port forwards only. It is authorized exactly when its
  socket is connected, and in its loop only while a reply is awaited.
* `Tunnel.step_message`, `Tunnel.step_cm`, `Tunnel.step_timer` and `Tunnel.step_others` — every step
  keeps it. **A message that makes the connection leave its loop leaves no reply awaited.** This is
  what the arm of a message looks for. The arm of `Authorize` does not.
-/

namespace LibRustdesk.Desktop

namespace World

def forwards (w : World) : Bool := w.ended && w.conn.portForwardSocket.isSome

/-! ### What is awaited -/

/-- Whether the loop has been left, and whether a reply to a `TestDelay` is awaited. -/
def awaits (w : World) : Bool × Bool := (w.ended, w.conn.lastTestDelay)

section

variable (env : Env) (w : World) (lr : LoginRequest)

@[simp] theorem awaits_emit (e : Effect) : (w.emit e).awaits = w.awaits := rfl

@[simp] theorem awaits_updateFailure (failure : Server.Failure × Int32) (remove : Bool)
    (i : Fin 2) : (w.updateFailure failure remove i).awaits = w.awaits := rfl

@[simp] theorem awaits_subscribe (name : ServiceName) (sub : Bool) :
    (w.subscribe name sub).awaits = w.awaits := by
  unfold subscribe
  split <;> rfl

@[simp] theorem awaits_handleLoginRequestWithoutValidation :
    (handleLoginRequestWithoutValidation env w lr).awaits = w.awaits := by
  unfold handleLoginRequestWithoutValidation
  dsimp only
  split <;> rfl

@[simp] theorem awaits_validates : (w.validates lr).awaits = w.awaits := by
  unfold validates
  split <;> rfl

@[simp] theorem awaits_letIn : (w.letIn lr).awaits = w.awaits := awaits_validates _ lr

@[simp] theorem awaits_loginKind : (loginKind env w lr).1.awaits = w.awaits := by
  unfold loginKind
  cases lr.union with
  | none =>
    dsimp only
    split <;> rfl
  | some union =>
    cases union <;>
    · dsimp only
      split <;> rfl

@[simp] theorem awaits_checkFailure (i : Fin 2) : (checkFailure env w i).1.awaits = w.awaits := by
  unfold checkFailure
  split <;> rfl

@[simp] theorem awaits_validatePassword (allow : Bool) :
    (validatePassword env w allow).1.awaits = w.awaits := by
  unfold validatePassword
  dsimp only
  split <;> rfl

@[simp] theorem awaits_isRecentSession (tfa : Bool) :
    (isRecentSession env w tfa).1.awaits = w.awaits := by
  obtain ⟨shared, hw⟩ := isRecentSession_fst env w tfa
  rw [hw]
  rfl

@[simp] theorem awaits_awaits2fa : (awaits2fa env w).1.awaits = w.awaits := by
  unfold awaits2fa
  split
  · have hrecent := awaits_isRecentSession env w true
    rcases hres : isRecentSession env w true with ⟨w', recent⟩
    rw [hres] at hrecent
    dsimp only at hrecent ⊢
    split <;> exact hrecent
  · rfl

@[simp] theorem awaits_prepareTerminalLogin : (prepareTerminalLogin env w).1.awaits = w.awaits := by
  unfold prepareTerminalLogin
  dsimp only
  repeat' split
  all_goals rfl

@[simp] theorem awaits_connectPortForward : (connectPortForward env w).1.awaits = w.awaits := by
  unfold connectPortForward
  repeat' split
  all_goals rfl

theorem awaits_welcome (h : w.conn.portForwardSocket.isSome = true) :
    (welcome env w).awaits = w.awaits := by
  unfold welcome
  rw [if_pos h]
  rfl

theorem isSome_connectPortForward (hkind : w.conn.lr.kind = .portForward)
    (h : (connectPortForward env w).2 = true) :
    (connectPortForward env w).1.conn.portForwardSocket.isSome = true := by
  obtain ⟨hconnects, hcore⟩ := connectPortForward_spec env w
  rw [← hconnects, if_pos h] at hcore
  have hsocket : (connectPortForward env w).1.conn.portForwardSocket = w.conn.socket :=
    congrArg Core.portForwardSocket hcore
  rw [hsocket]
  unfold Connection.socket
  unfold LoginRequest.kind at hkind
  cases w.conn.portForwardSocket with
  | some addr => rfl
  | none =>
    cases hunion : w.conn.lr.union with
    | none => rw [hunion] at hkind; nomatch hkind
    | some union =>
      rw [hunion] at hkind
      cases union with
      | portForward host port => rfl
      | fileTransfer dir showHidden => nomatch hkind
      | viewCamera => nomatch hkind
      | terminal serviceId => nomatch hkind

theorem lr_awaits2fa : (awaits2fa env w).1.conn.lr = w.conn.lr := by
  rcases awaits2fa_cases env w with ⟨w', hres, hcore, -⟩ | ⟨w', h, hres, hconn, -⟩
  · rw [hres]
    exact congrArg Core.lr hcore
  · rw [hres]
    exact congrArg Connection.lr hconn

theorem awaits_sendLogonResponse (hkind : w.conn.lr.kind = .portForward) :
    (sendLogonResponse env w).1.awaits = w.awaits := by
  unfold sendLogonResponse
  split
  · rfl
  · have hfactor := awaits_awaits2fa env w
    have hlr := lr_awaits2fa env w
    rcases hres : awaits2fa env w with ⟨w1, waits⟩
    rw [hres] at hfactor hlr
    cases waits with
    | true => exact hfactor
    | false =>
      dsimp only
      have hterminal := awaits_prepareTerminalLogin env w1
      have hcore := (prepareTerminalLogin_spec env w1).2.1
      rcases hres : prepareTerminalLogin env w1 with ⟨w2, keepAlive⟩
      rw [hres] at hterminal hcore
      cases keepAlive with
      | some keepAlive => exact hterminal.trans hfactor
      | none =>
        dsimp only
        have hkind2 : w2.conn.lr.kind = .portForward := by
          rw [← hkind, ← hlr]
          exact congrArg (fun c => c.lr.kind) hcore
        have hforward := awaits_connectPortForward env w2
        have hsome := isSome_connectPortForward env w2 hkind2
        rcases hres : connectPortForward env w2 with ⟨w3, ok⟩
        rw [hres] at hforward hsome
        cases ok with
        | false => exact hforward.trans (hterminal.trans hfactor)
        | true =>
          rw [awaits_welcome env w3.authorize (hsome rfl)]
          exact hforward.trans (hterminal.trans hfactor)

theorem awaits_logon (hkind : w.conn.lr.kind = .portForward) :
    (logon env w lr).1.awaits = w.awaits := by
  have hlogon := awaits_sendLogonResponse env w hkind
  unfold logon
  rcases hres : sendLogonResponse env w with ⟨w', b⟩
  rw [hres] at hlogon
  cases b <;> exact hlogon

/-! ### The arms that log on -/

theorem awaits_loginDesktop : (loginDesktop env w lr).1.awaits = w.awaits := by
  have hawaits := awaits_checkFailure env w 0
  unfold loginDesktop
  rcases checkFailure_cases env w 0 with ⟨w1, hcheck, -⟩ | ⟨failure, hcheck⟩
  · rw [hcheck] at hawaits
    rw [hcheck]
    dsimp only
    by_cases hempty : (env.isHeadlessAllowed &&
        decide (lr.osLoginUsername.dropWhile Char.isWhitespace ≠ []) &&
        decide (env.desktopUsername = [])) = true
    · rw [if_pos hempty]
      exact hawaits
    · rw [if_neg hempty]
      dsimp only
      rw [hcheck]
      split
      · split
        · exact hawaits
        · rfl
      · rfl
  · rw [hcheck]
    dsimp only
    rw [ite_self]
    dsimp only
    rw [hcheck]
    split
    · split
      · rfl
      · rfl
    · rfl

variable (errMsg : Text)

theorem awaits_loginAccepted (hkind : w.conn.lr.kind = .portForward) :
    (loginAccepted env w lr errMsg).1.awaits = w.awaits := by
  unfold loginAccepted
  split
  · rw [awaits_logon env (w.letIn lr) lr (by rw [conn_letIn]; exact hkind), awaits_letIn]
  · rw [awaits_emit, awaits_letIn]

theorem awaits_loginPassword (allow : Bool) (hkind : w.conn.lr.kind = .portForward) :
    (loginPassword env w lr errMsg allow).1.awaits = w.awaits := by
  unfold loginPassword
  rcases checkFailure_cases env w 0 with ⟨w1, hcheck, -⟩ | ⟨failure, hcheck⟩
  · have hawaits := awaits_checkFailure env w 0
    rw [hcheck] at hawaits ⊢
    exact hawaits
  · rw [hcheck]
    dsimp only
    have hvalid := awaits_validatePassword env w allow
    have hconn := conn_validatePassword env w allow
    rcases hres : validatePassword env w allow with ⟨w2, valid⟩
    rw [hres] at hvalid hconn
    cases valid with
    | true =>
      rw [awaits_loginAccepted env _ lr errMsg (by rw [← hkind, ← hconn]; rfl),
        awaits_updateFailure, hvalid]
    | false =>
      dsimp only
      split <;> exact hvalid

theorem awaits_loginCredential (hkind : w.conn.lr.kind = .portForward) :
    (loginCredential env w lr errMsg).1.awaits = w.awaits := by
  unfold loginCredential
  dsimp only
  split
  · split <;> rfl
  · have hrecent := awaits_isRecentSession env w false
    obtain ⟨shared, hshared⟩ := isRecentSession_fst env w false
    rcases hres : isRecentSession env w false with ⟨w1, recent⟩
    rw [hres] at hrecent hshared
    dsimp only at hrecent hshared ⊢
    have hkind1 : w1.conn.lr.kind = .portForward := by rw [hshared]; exact hkind
    cases recent with
    | true => exact (awaits_loginAccepted env w1 lr errMsg hkind1).trans hrecent
    | false =>
      dsimp only
      split
      · split <;> exact hrecent
      · exact (awaits_loginPassword env w1 lr errMsg _ hkind1).trans hrecent

theorem awaits_onLoginRequest (hkind : lr.kind = .portForward) :
    (onLoginRequest env w lr).1.awaits = w.awaits := by
  have hpresent := awaits_handleLoginRequestWithoutValidation env w lr
  have hlr : (handleLoginRequestWithoutValidation env w lr).conn.lr = lr := by
    have hcore := core_handleLoginRequestWithoutValidation env w lr
    exact (congrArg Core.lr hcore).trans (Core.lr_present env lr w.core)
  unfold onLoginRequest
  dsimp only
  generalize handleLoginRequestWithoutValidation env w lr = w1 at hpresent hlr ⊢
  split
  · exact hpresent
  · have hlogin := awaits_loginKind env w1 lr
    have hlr2 : (loginKind env w1 lr).1.conn.lr = lr := by
      have hcore := congrArg Core.lr (core_loginKind env w1 lr)
      refine hcore.trans ?_
      split
      · rw [Core.lr_ask]
        exact hlr
      · exact hlr
    rcases hres : loginKind env w1 lr with ⟨w2, ok⟩
    rw [hres] at hlogin hlr2
    cases ok with
    | false => exact hlogin.trans hpresent
    | true =>
      dsimp only
      split
      · exact hlogin.trans hpresent
      · set w3 : World := { w2 with conn := { w2.conn with cmStarted := true } }
        have hdesktop := awaits_loginDesktop env w3 lr
        have hawaits3 : w3.awaits = w.awaits := hlogin.trans hpresent
        rcases loginDesktop_cases env w3 lr with ⟨w4, hres, -⟩ | ⟨errMsg, hres⟩
        · rw [hres] at hdesktop ⊢
          exact hdesktop.trans hawaits3
        · rw [hres]
          have hkind3 : w3.conn.lr.kind = .portForward := by rw [← hkind, ← hlr2]
          exact (awaits_loginCredential env w3 lr errMsg hkind3).trans hawaits3

theorem awaits_onAuth2fa (code : Text) (hwid : Bytes) (hkind : w.conn.lr.kind = .portForward) :
    (onAuth2fa env w code hwid).1.awaits = w.awaits := by
  unfold onAuth2fa
  rcases checkFailure_cases env w 1 with ⟨w1, hcheck, -⟩ | ⟨failure, hcheck⟩
  · have hawaits := awaits_checkFailure env w 1
    rw [hcheck] at hawaits ⊢
    exact hawaits
  · rw [hcheck]
    dsimp only
    cases w.conn.require2fa.bind fun totp => env.checkCurrent totp code with
    | none => rfl
    | some correct =>
      cases correct with
      | false => rfl
      | true =>
        set w1 : World := setSession2fa _ _
        have hlogon := awaits_logon env w1 w1.conn.lr hkind
        rcases hres : logon env w1 w1.conn.lr with ⟨w2, b⟩
        rw [hres] at hlogon
        cases b with
        | false => exact hlogon
        | true =>
          dsimp only
          split <;> exact hlogon

theorem awaits_onSwitchSidesResponse (uuid : Bytes) (hkind : lr.kind = .portForward) :
    (onSwitchSidesResponse env w uuid (some lr)).1.awaits = w.awaits := by
  have hpresent := awaits_handleLoginRequestWithoutValidation env w lr
  have hlr : (handleLoginRequestWithoutValidation env w lr).conn.lr = lr := by
    have hcore := core_handleLoginRequestWithoutValidation env w lr
    exact (congrArg Core.lr hcore).trans (Core.lr_present env lr w.core)
  unfold onSwitchSidesResponse
  dsimp only
  generalize handleLoginRequestWithoutValidation env w lr = w1 at hpresent hlr ⊢
  have htake : (takeSwitchSidesUuid env w1 lr.myId).1.conn = w1.conn := rfl
  have hawaits : (takeSwitchSidesUuid env w1 lr.myId).1.awaits = w1.awaits := rfl
  rcases hres : takeSwitchSidesUuid env w1 lr.myId with ⟨w2, uuidOld⟩
  rw [hres] at htake hawaits
  split
  · set w3 : World := { w2 with
      conn := { w2.conn with fromSwitch := true }
      history := { w2.history with switchedSides := true } }
    have hawaits3 : w3.awaits = w.awaits := hawaits.trans hpresent
    have hkind3 : (w3.validates lr).conn.lr.kind = .portForward := by
      rw [conn_validates]
      show w2.conn.lr.kind = _
      rw [htake, hlr, hkind]
    have hlogon := awaits_logon env (w3.validates lr) lr hkind3
    rw [awaits_validates, hawaits3] at hlogon
    rcases hres : logon env (w3.validates lr) lr with ⟨w4, b⟩
    rw [hres] at hlogon
    cases b <;> exact hlogon
  · exact hawaits.trans hpresent

/-! ### The other arms -/

@[simp] theorem awaits_closeVoiceCall : w.closeVoiceCall.awaits = w.awaits := by
  unfold closeVoiceCall
  dsimp only
  split
  · rw [awaits_subscribe]
    rfl
  · rfl

@[simp] theorem awaits_handleVoiceCall (accepted : Bool) :
    (w.handleVoiceCall accepted).awaits = w.awaits := by
  unfold handleVoiceCall
  dsimp only
  repeat' split
  · rw [awaits_subscribe]
    rfl
  · rfl
  · rfl

@[simp] theorem awaits_onSwitchPermission (name : String) (enabled : Bool) :
    (onSwitchPermission env w name enabled).awaits = w.awaits := by
  unfold onSwitchPermission
  dsimp only
  repeat' split
  all_goals first | rfl | (simp only [awaits_subscribe]; rfl)

theorem awaits_onCmData (d : CmData) (hkind : w.conn.lr.kind = .portForward) :
    (onCmData env w d).1.awaits = w.awaits := by
  cases d with
  | authorize =>
    unfold onCmData
    dsimp only
    set w1 : World := { w with
      conn := { w.conn with require2fa := none }
      history := { w.history with authorize := true } }
    have hlogon := awaits_sendLogonResponse env (w1.validates w1.conn.lr) (by
      rw [conn_validates]
      exact hkind)
    rw [awaits_validates] at hlogon
    rcases hres : sendLogonResponse env (w1.validates w1.conn.lr) with ⟨w2, b⟩
    rw [hres] at hlogon
    cases b <;> exact hlogon
  | switchPermission name enabled => exact awaits_onSwitchPermission env w name enabled
  | voiceCallResponse accepted => exact awaits_handleVoiceCall w accepted
  | closeVoiceCall => exact awaits_closeVoiceCall w
  | close | other => rfl

end

/-! ### What a port forward is sent -/

/-- What the peer of a port forward sends by itself: logins for a port forward, and nothing that
is a reply or closes the connection. -/
def Asks : Message → Prop
  | .loginRequest lr => lr.kind = .portForward
  | .switchSidesResponse _ (some lr) => lr.kind = .portForward
  | .testDelay fromClient => fromClient = true
  | .misc .closeReason => False
  | _ => True

def InTurn (w : World) : Message → Prop
  | .auth2fa _ _ => w.conn.lr.kind = .portForward
  | _ => True

instance (w : World) (m : Message) : Decidable (w.InTurn m) :=
  match m with
  | .auth2fa _ _ => inferInstanceAs (Decidable (w.conn.lr.kind = .portForward))
  | .loginRequest _ | .testDelay _ | .switchSidesResponse _ _ | .mouseEvent _
  | .pointerDeviceEvent _ | .keyEvent _ | .clipboard _ | .multiClipboards _ | .cliprdr _
  | .fileAction _ | .fileResponse _ | .misc _ | .audioFrame _ | .voiceCallRequest _
  | .voiceCallResponse | .screenshotRequest _ | .terminalAction _ | .other =>
    inferInstanceAs (Decidable True)

def Takes (w : World) (m : Message) : Prop := (m = .testDelay false ∨ Asks m) ∧ w.InTurn m

end World

/-! ### What is authorized -/

namespace Core

def Connected (c : Core) : Prop := c.portForwardSocket.isSome = c.authorized

/-- The connection manager has been asked for a port forward. -/
structure Tunnel (c : Core) : Prop where
  kind : c.cmStarted = true → c.lr.kind = .portForward
  connected : c.Connected

theorem connected_congr {c c' : Core} (h : c'.door = c.door) : c'.Connected ↔ c.Connected := by
  simp only [door, Prod.mk.injEq] at h
  unfold Connected
  rw [h.1, h.2.1]

@[simp] theorem lr_validates (lr : LoginRequest) (c : Core) : (c.validates lr).lr = c.lr := by
  unfold validates
  split <;> rfl

@[simp] theorem lr_letIn (lr : LoginRequest) (c : Core) : (c.letIn lr).lr = c.lr :=
  lr_validates lr _

end Core

namespace World

section

variable {env : Env} {w w' : World} {lr : LoginRequest} {r : World × Bool}

/-- What comes of a login: it is for a port forward, and a connection that is to be closed is not
authorized. -/
structure Keeps (r : World × Bool) : Prop where
  kind : r.1.core.lr.kind = .portForward
  connected : r.1.core.Connected
  closes : r.2 = false → r.1.core.authorized = false

theorem Keeps.of_core {b : Bool} {c : Core} (hcore : w'.core = c) (hkind : c.lr.kind = .portForward)
    (hconnected : c.Connected) (hcloses : b = false → c.authorized = false) : Keeps (w', b) := by
  subst hcore
  exact ⟨hkind, hconnected, hcloses⟩

theorem keeps_logon (h : Logon env w r) (hkind : w.core.lr.kind = .portForward)
    (hconnected : w.core.Connected) : Keeps r := by
  cases h with
  | again w' _ hcore => exact .of_core hcore hkind hconnected nofun
  | waits w' _ _ hcore => exact .of_core hcore hkind hconnected nofun
  | closes w' history hauth _ _ hcore => exact .of_core hcore hkind hconnected fun _ => hauth
  | authorizes w' history hauth _ _ _ hcore =>
    refine .of_core hcore hkind ?_ nofun
    -- no socket has been connected before
    have hsome : w.conn.portForwardSocket.isSome = false := Eq.trans hconnected hauth
    have hnone : w.conn.portForwardSocket = none := Option.not_isSome_iff_eq_none.mp (by
      rw [hsome]
      exact Bool.false_ne_true)
    exact (isSome_socket hnone).mpr hkind

theorem keeps_login (h : Login env w lr r) (hkind : lr.kind = .portForward)
    (hconnected : w.core.Connected) : Keeps r := by
  have hpresent : (w.core.present env lr).Connected :=
    (Core.connected_congr (Core.door_present env lr w.core)).mpr hconnected
  have hask : ((w.core.present env lr).ask lr).Connected :=
    (Core.connected_congr (Core.door_ask lr _)).mpr hpresent
  have hkindPresent : (w.core.present env lr).lr.kind = .portForward := by
    rw [Core.lr_present, hkind]
  have hkindAsk : ((w.core.present env lr).ask lr).lr.kind = .portForward := by
    rw [Core.lr_ask, hkindPresent]
  have hkindIn : ((((w.core.present env lr).ask lr).startCm).letIn lr).lr.kind = .portForward := by
    rw [Core.lr_letIn]
    exact hkindAsk
  have hin : ((((w.core.present env lr).ask lr).startCm).letIn lr).Connected :=
    (Core.connected_congr (Core.door_letIn lr _)).mpr hask
  cases h with
  | again w' _ hcore => exact .of_core hcore hkindPresent hpresent nofun
  | refused w' hauth _ hcore =>
    refine .of_core hcore hkindPresent hpresent fun _ => ?_
    rw [Core.authorized_present]
    exact hauth
  | offline w' hauth _ hcore =>
    refine .of_core hcore hkindAsk hask fun _ => ?_
    rw [Core.authorized_ask, Core.authorized_present]
    exact hauth
  | waits w' _ _ hcore => exact .of_core hcore hkindAsk hask nofun
  | unready w' _ _ hcore => exact .of_core hcore hkindIn hin nofun
  | logs w' _ _ _ _ hcore _ hlogon =>
    refine keeps_logon hlogon ?_ ?_
    · rw [hcore]
      exact hkindIn
    · rw [hcore]
      exact hin

theorem keeps_code {code : Text} (h : Code env w code r) (hkind : w.core.lr.kind = .portForward)
    (hconnected : w.core.Connected) : Keeps r := by
  cases h with
  | wrong w' _ hcore => exact .of_core hcore hkind hconnected nofun
  | right w' _ _ _ hcore hlogon =>
    refine keeps_logon hlogon ?_ ?_
    · rw [hcore]
      exact hkind
    · rw [hcore]
      exact hconnected

theorem keeps_switchSides {uuid : Bytes} (h : SwitchSides env w uuid (some lr) r)
    (hkind : lr.kind = .portForward) (hconnected : w.core.Connected) : Keeps r := by
  have hpresent : (w.core.present env lr).Connected :=
    (Core.connected_congr (Core.door_present env lr w.core)).mpr hconnected
  have hkindPresent : (w.core.present env lr).lr.kind = .portForward := by
    rw [Core.lr_present, hkind]
  cases h with
  | unknown _ w' _ hcore => exact .of_core hcore hkindPresent hpresent nofun
  | valid _ w1 w2 w' b _ _ hcore hlogon hstart =>
    have hkeeps : Keeps (w2, b) := by
      refine keeps_logon hlogon ?_ ?_
      · rw [hcore, Core.lr_validates]
        exact hkindPresent
      · rw [hcore]
        exact (Core.connected_congr (Core.door_validates lr _)).mpr hpresent
    cases b with
    | false => exact .of_core hstart hkeeps.kind hkeeps.connected hkeeps.closes
    | true => exact .of_core hstart hkeeps.kind hkeeps.connected nofun

theorem tunnel_onMessage (env : Env) {m : Message} (htunnel : w.core.Tunnel) (htakes : w.Takes m) :
    (onMessage env w m).1.core.Tunnel ∧
      ((onMessage env w m).2 = false → (onMessage env w m).1.core.authorized = false) := by
  obtain ⟨hasks, hturn⟩ := htakes
  have hkeeps {r : World × Bool} (h : Keeps r) :
      r.1.core.Tunnel ∧ (r.2 = false → r.1.core.authorized = false) :=
    ⟨⟨fun _ => h.kind, h.connected⟩, h.closes⟩
  have hstays {r : World × Bool} (hcore : r.1.core = w.core) (hgoes : r.2 = true) :
      r.1.core.Tunnel ∧ (r.2 = false → r.1.core.authorized = false) :=
    ⟨by rw [hcore]; exact htunnel, fun h => absurd (hgoes.symm.trans h) Bool.noConfusion⟩
  have hother (h : onMessage env w m = if w.conn.authorized then
      if w.conn.portForwardSocket.isSome then (w, true) else onAuthorizedMessage env w m
      else (w, true)) : (onMessage env w m).1.core.Tunnel ∧
      ((onMessage env w m).2 = false → (onMessage env w m).1.core.authorized = false) := by
    -- an authorized tunnel has its socket
    have hsocket : w.conn.portForwardSocket.isSome = w.conn.authorized := htunnel.connected
    rw [hsocket] at h
    have hsame : onMessage env w m = (w, true) := by
      rw [h]
      split <;> rfl
    exact hstays (by rw [hsame]) (by rw [hsame])
  cases m with
  | loginRequest lr =>
    have hkind := hasks.resolve_left nofun
    exact hkeeps (keeps_login (onLoginRequest_cases env w lr) hkind htunnel.connected)
  | auth2fa code hwid =>
    exact hkeeps (keeps_code (onAuth2fa_cases env w code hwid) hturn htunnel.connected)
  | switchSidesResponse uuid lr =>
    cases lr with
    | none => exact hstays rfl rfl
    | some lr =>
      have hkind := hasks.resolve_left nofun
      exact hkeeps (keeps_switchSides (onSwitchSidesResponse_cases env w uuid (some lr)) hkind
        htunnel.connected)
  | testDelay fromClient => exact hstays (core_onTestDelay w fromClient) rfl
  | misc m =>
    cases m with
    | closeReason => exact (hasks.resolve_left nofun).elim
    | _ => exact hother rfl
  | _ => exact hother rfl

theorem awaits_onMessage (env : Env) {m : Message} (htunnel : w.core.Tunnel) (htakes : w.Takes m)
    (hreply : m ≠ .testDelay false) : (onMessage env w m).1.awaits = w.awaits := by
  have hother (h : onMessage env w m = if w.conn.authorized then
      if w.conn.portForwardSocket.isSome then (w, true) else onAuthorizedMessage env w m
      else (w, true)) : (onMessage env w m).1.awaits = w.awaits := by
    have hsocket : w.conn.portForwardSocket.isSome = w.conn.authorized := htunnel.connected
    rw [hsocket] at h
    rw [h]
    split <;> rfl
  have hasks := htakes.1.resolve_left hreply
  cases m with
  | loginRequest lr => exact awaits_onLoginRequest env w lr hasks
  | auth2fa code hwid => exact awaits_onAuth2fa env w code hwid htakes.2
  | switchSidesResponse uuid lr =>
    cases lr with
    | none => rfl
    | some lr => exact awaits_onSwitchSidesResponse env w lr uuid hasks
  | testDelay fromClient =>
    cases fromClient with
    | true => rfl
    | false => exact absurd rfl hreply
  | misc m =>
    cases m with
    | closeReason => exact hasks.elim
    | _ => exact hother rfl
  | _ => exact hother rfl

end

/-! ### A step -/

/-- A connection that is asked for port forwards only. -/
structure Tunnel (w : World) : Prop where
  core : w.core.Tunnel
  /-- In its loop it is authorized only while a reply is awaited. -/
  awaits : w.ended = false → w.conn.authorized = true → w.conn.lastTestDelay = true

section

variable {w : World}

theorem Tunnel.start (s : Opening) : (World.start s).Tunnel := ⟨⟨nofun, rfl⟩, nofun⟩

theorem Tunnel.isSome_socket (h : w.Tunnel) :
    w.conn.portForwardSocket.isSome = w.conn.authorized := h.core.connected

theorem ended_of_forwards (h : w.forwards = true) : w.ended = true :=
  (Bool.and_eq_true_iff.mp h).1

theorem Tunnel.authorized_of_forwards (h : w.Tunnel) (hforwards : w.forwards = true) :
    w.conn.authorized = true :=
  h.isSome_socket.symm.trans (Bool.and_eq_true_iff.mp hforwards).2

theorem Tunnel.awaits_of_authorized (h : w.Tunnel) (hauth : w.conn.authorized = true)
    (hforwards : w.forwards = false) : w.ended = false ∧ w.conn.lastTestDelay = true := by
  have hended : w.ended = false := by
    unfold forwards at hforwards
    rw [h.isSome_socket, hauth, Bool.and_true] at hforwards
    exact hforwards
  exact ⟨hended, h.awaits hended hauth⟩

theorem step_of_forwards (h : w.forwards = true) (ev : Event) : step w ev = w :=
  step_of_ended (ended_of_forwards h) ev

theorem authorized_step (h : w.conn.authorized = true) (ev : Event) :
    (step w ev).conn.authorized = true := by
  rcases door_step w ev with hdoor | ⟨c, hdoor⟩
  · exact (congrArg Prod.fst hdoor).trans h
  · exact congrArg Prod.fst hdoor

theorem step_eq_onRead (hended : w.ended = false) (env : Env) (m : Message) :
    step w (.message env m) = onRead env w m := by
  unfold step
  rw [if_neg (by rw [hended]; exact Bool.false_ne_true)]

theorem step_eq_stay (hended : w.ended = false) (env : Env) (d : CmData) :
    step w (.cm env d) = if w.conn.cmStarted then stay (onCmData env w d) else w := by
  unfold step
  rw [if_neg (by rw [hended]; exact Bool.false_ne_true)]

theorem Tunnel.step_message (h : w.Tunnel) (hended : w.ended = false) (env : Env) {m : Message}
    (htakes : w.Takes m) : (step w (.message env m)).Tunnel ∧
      (step w (.message env m)).conn.lastTestDelay = (onMessage env w m).1.conn.lastTestDelay ∧
      ((step w (.message env m)).forwards = true →
        (step w (.message env m)).conn.lastTestDelay = false) := by
  obtain ⟨htunnel, hcloses⟩ := tunnel_onMessage env h.core htakes
  have hstill : (onMessage env w m).1.ended = false := by
    by_cases hreply : m = .testDelay false
    · subst hreply
      exact hended
    · exact (congrArg Prod.fst (awaits_onMessage env h.core htakes hreply)).trans hended
  rw [step_eq_onRead hended]
  unfold onRead
  dsimp only
  set w1 : World := stay (onMessage env w m)
  have htunnel1 : w1.core.Tunnel := htunnel
  split
  · next hgoes =>
    simp only [Bool.and_eq_true, Bool.not_eq_true'] at hgoes
    exact ⟨⟨htunnel1, nofun⟩, rfl, fun _ => hgoes.2⟩
  · next hstays =>
    refine ⟨⟨htunnel1, fun _ hauth => ?_⟩, rfl, fun hforwards => ?_⟩
    · have hsocket : w1.conn.portForwardSocket.isSome = true := htunnel1.connected.trans hauth
      rw [hsocket, hauth] at hstays
      simpa using hstays
    · -- it is closed, so it is not authorized and has no socket
      have hforwards' : w1.ended = true ∧ w1.conn.portForwardSocket.isSome = true := by
        simpa [forwards] using hforwards
      have hfalse : (onMessage env w m).2 = false := by
        have hended1 : ((onMessage env w m).1.ended || !(onMessage env w m).2) = true :=
          hforwards'.1
        rw [hstill, Bool.false_or] at hended1
        simpa using hended1
      have hauth : w1.conn.authorized = false := hcloses hfalse
      have hsocket : w1.conn.portForwardSocket.isSome = w1.conn.authorized := htunnel1.connected
      rw [hforwards'.2, hauth] at hsocket
      exact absurd hsocket Bool.noConfusion

theorem Tunnel.step_others (h : w.Tunnel) (shared : Shared) (services : List ServiceName) :
    (step w (.others shared services)).Tunnel ∧
      (step w (.others shared services)).awaits = w.awaits ∧
      (step w (.others shared services)).core = w.core := by
  cases hended : w.ended with
  | true =>
    rw [step_of_ended hended]
    exact ⟨h, rfl, rfl⟩
  | false =>
    unfold step
    rw [if_neg (by rw [hended]; exact Bool.false_ne_true)]
    exact ⟨⟨h.core, h.awaits⟩, rfl, rfl⟩

theorem Tunnel.step_reply (h : w.Tunnel) (hended : w.ended = false) (env : Env) :
    (step w (.message env (.testDelay false))).conn.lastTestDelay = false :=
  (h.step_message hended env ⟨.inl rfl, trivial⟩).2.1

theorem Tunnel.step_asks (h : w.Tunnel) (hended : w.ended = false) (env : Env) {m : Message}
    (htakes : w.Takes m) (hreply : m ≠ .testDelay false) :
    (step w (.message env m)).conn.lastTestDelay = w.conn.lastTestDelay :=
  (h.step_message hended env htakes).2.1.trans
    (congrArg Prod.snd (awaits_onMessage env h.core htakes hreply))

theorem isNone_of_onCmAuthorize (env : Env) (w : World) (h : (onCmData env w .authorize).2 = true) :
    (onCmData env w .authorize).1.conn.portForwardSocket = none := by
  unfold onCmData at h ⊢
  dsimp only at h ⊢
  set w1 : World := { w with
    conn := { w.conn with require2fa := none }
    history := { w.history with authorize := true } }
  rcases hres : sendLogonResponse env (w1.validates w1.conn.lr) with ⟨w2, b⟩
  rw [hres] at h
  cases b with
  | false => nomatch h
  | true => exact Option.isNone_iff_eq_none.mp h

theorem Tunnel.step_cm (h : w.Tunnel) (env : Env) (d : CmData) :
    (step w (.cm env d)).Tunnel ∧
      (step w (.cm env d)).conn.lastTestDelay = w.conn.lastTestDelay := by
  cases hended : w.ended with
  | true =>
    rw [step_of_ended hended]
    exact ⟨h, rfl⟩
  | false =>
    rw [step_eq_stay hended]
    split
    · next hstarted =>
      have hkind : w.conn.lr.kind = .portForward := h.core.kind hstarted
      have hawaits := awaits_onCmData env w d hkind
      have hdelay : (onCmData env w d).1.conn.lastTestDelay = w.conn.lastTestDelay :=
        congrArg Prod.snd hawaits
      have hsame (hcore : (onCmData env w d).1.core = w.core) :
          (stay (onCmData env w d)).Tunnel ∧
            (stay (onCmData env w d)).conn.lastTestDelay = w.conn.lastTestDelay := by
        refine ⟨⟨?_, fun _ hauth => ?_⟩, hdelay⟩
        · show (onCmData env w d).1.core.Tunnel
          rw [hcore]
          exact h.core
        · have hauth1 : w.conn.authorized = true :=
            (congrArg Core.authorized hcore).symm.trans hauth
          exact hdelay.trans (h.awaits hended hauth1)
      cases d with
      | authorize =>
        obtain ⟨w1, w2, b, hlogon, hconn, hcore, hres, -⟩ := onCmAuthorize_cases env w
        have hconnected : w1.core.Connected := by
          rw [hcore]
          exact (Core.connected_congr (Core.door_validates _ _)).mpr h.core.connected
        have hkeeps : Keeps (w2, b) := by
          refine keeps_logon hlogon ?_ hconnected
          rw [hcore, Core.lr_validates]
          exact hkind
        have htunnel : (onCmData env w .authorize).1.core.Tunnel := by
          rw [hres]
          exact ⟨fun _ => hkeeps.kind, hkeeps.connected⟩
        refine ⟨⟨htunnel, fun hstill hauth => ?_⟩, hdelay⟩
        have hgoes : (onCmData env w .authorize).2 = true := by
          have hended1 : ((onCmData env w .authorize).1.ended || !(onCmData env w .authorize).2) =
            false := hstill
          simpa using (Bool.or_eq_false_iff.mp hended1).2
        have hsocket : (onCmData env w .authorize).1.conn.portForwardSocket.isSome = true :=
          htunnel.connected.trans hauth
        rw [isNone_of_onCmAuthorize env w hgoes] at hsocket
        nomatch hsocket
      | switchPermission name enabled => exact hsame (core_onSwitchPermission env w name enabled)
      | voiceCallResponse accepted => exact hsame (core_handleVoiceCall w accepted)
      | closeVoiceCall => exact hsame (core_closeVoiceCall w)
      | close => exact hsame rfl
      | other => exact hsame rfl
    · exact ⟨h, rfl⟩

theorem Tunnel.step_timer (h : w.Tunnel) (hended : w.ended = false) :
    step w .testDelayTimer = { w with conn := { w.conn with lastTestDelay := true } } := by
  unfold step
  rw [if_neg (by rw [hended]; exact Bool.false_ne_true)]
  unfold onTestDelayTimer
  rw [h.isSome_socket, Bool.and_self]
  cases hdelay : w.conn.lastTestDelay with
  | true =>
    rw [if_neg (by simp)]
    have hconn : { w.conn with lastTestDelay := true } = w.conn := by rw [← hdelay]
    rw [hconn]
  | false =>
    have hauth : w.conn.authorized = false := by
      by_contra hauth
      rw [Bool.not_eq_false] at hauth
      exact absurd (hdelay.symm.trans (h.awaits hended hauth)) Bool.noConfusion
    rw [if_pos (by simp [hauth])]

end

end World

end LibRustdesk.Desktop
