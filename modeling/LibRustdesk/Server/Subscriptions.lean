import LibRustdesk.Server.Desk

/-!
# The subscriptions of a connection

What a login does to the desk of a connection, and from it what holds over all runs.

* `desk_trySubMonitorServices` — the subscriptions of a login to the desktop.
* `Desk.InLine` — of the clipboard and the audio a desktop connection is subscribed to nothing that
  is not allowed, and to all that is once its login is through.
* `inLine_step` — **every step keeps a connection in line**, before its login and after it.
* `heard_onMessage` — what a message to an authorized connection does to its desk.
-/

namespace LibRustdesk.Desktop

namespace World

/-! ### Logging in -/

section Login

variable (env : Env) (w : World) (lr : LoginRequest)

@[simp] theorem desk_sendLoginError (err : String) : (w.sendLoginError err).desk = w.desk :=
  desk_emit rfl w

@[simp] theorem desk_tryStartCm (peerId name : Text) (authorized : Bool) :
    (w.tryStartCm peerId name authorized).desk = w.desk := desk_emit rfl w

@[simp] theorem desk_updateFailure (failure : Server.Failure × Int32) (remove : Bool) (i : Fin 2) :
    (w.updateFailure failure remove i).desk = w.desk := rfl

@[simp] theorem desk_setSession2fa (key : SessionKey) : (w.setSession2fa key).desk = w.desk := rfl

@[simp] theorem desk_checkFailure (i : Fin 2) : (checkFailure env w i).1.desk = w.desk := by
  unfold checkFailure
  split
  · rfl
  · exact desk_sendLoginError w _

@[simp] theorem desk_validatePassword (allow : Bool) :
    (validatePassword env w allow).1.desk = w.desk := by
  unfold validatePassword
  dsimp only
  split <;> rfl

@[simp] theorem desk_isRecentSession (tfa : Bool) :
    (isRecentSession env w tfa).1.desk = w.desk := by
  obtain ⟨shared, h⟩ := isRecentSession_fst env w tfa
  rw [h]
  rfl

@[simp] theorem desk_handleLoginRequestWithoutValidation :
    (handleLoginRequestWithoutValidation env w lr).desk = w.desk := by
  unfold handleLoginRequestWithoutValidation
  dsimp only
  split <;> rfl

@[simp] theorem desk_validates : (w.validates lr).desk = w.desk := by
  unfold validates
  split <;> rfl

@[simp] theorem desk_letIn : (w.letIn lr).desk = w.desk := desk_validates _ lr

@[simp] theorem desk_loginKind : (loginKind env w lr).1.desk = w.desk := by
  unfold loginKind
  dsimp only
  repeat' split
  all_goals first | rfl | exact desk_sendLoginError w _

@[simp] theorem desk_loginDesktop : (loginDesktop env w lr).1.desk = w.desk := by
  have hcheck := desk_checkFailure env w 0
  rcases checkFailure_cases env w 0 with ⟨w1, hres, -⟩ | ⟨failure, hres⟩
  · -- there are too many failures
    rw [hres] at hcheck
    unfold loginDesktop
    rw [hres]
    dsimp only
    by_cases hempty : (env.isHeadlessAllowed &&
        decide (lr.osLoginUsername.dropWhile Char.isWhitespace ≠ []) &&
        decide (env.desktopUsername = [])) = true
    · rw [if_pos hempty]
      exact hcheck
    · rw [if_neg hempty]
      dsimp only
      rw [hres]
      split
      · split
        · exact hcheck
        · exact desk_emit rfl w
      · rfl
  · unfold loginDesktop
    rw [hres]
    dsimp only
    rw [ite_self]
    dsimp only
    rw [hres]
    split
    · split
      · exact desk_emit rfl (w.updateFailure failure false 0)
      · exact desk_emit rfl w
    · rfl

/-! ### The subscriptions of a login -/

theorem desk_addConnection (noperms : List ServiceName) :
    (addConnection env w noperms).desk =
      { w.desk with subed := fun g =>
          w.desk.subed g || w.desk.registered g && decide (g.name ∉ noperms) } := by
  -- one service, then all of them
  have hone (w : World) (name : ServiceName) (hname : name ∈ w.server.services) :
      (if name.isVideo ∧ name ≠ .video .monitor env.primaryDisplayIdx then w
        else if name ∉ noperms then w.subscribe name true else w).desk =
        { w.desk with subed := fun g =>
            w.desk.subed g || decide (g.name = name) && decide (g.name ∉ noperms) } := by
    by_cases hgate : ∃ g : Gated, g.name = name
    · obtain ⟨g, rfl⟩ := hgate
      have hvideo : g.name.isVideo = false := by cases g <;> rfl
      rw [if_neg (by simp [hvideo])]
      have hreg : w.desk.registered g = true := decide_eq_true hname
      by_cases hmem : g.name ∈ noperms
      · rw [if_neg (not_not_intro hmem)]
        have hsame : w.desk.subed = fun g' =>
            w.desk.subed g' || decide (g'.name = g.name) && decide (g'.name ∉ noperms) := by
          funext g'
          by_cases hg : g' = g
          · subst hg
            simp [hmem]
          · simp [hg]
        rw [← hsame]
      · rw [if_pos hmem, desk_subscribe]
        unfold Desk.subscribe
        rw [if_pos hreg]
        refine congrArg (fun f => { w.desk with subed := f }) ?_
        funext g'
        by_cases hg : g' = g
        · subst hg
          simp [hmem]
        · rw [Function.update_of_ne hg]
          simp [hg]
    · have hother (g : Gated) : g.name ≠ name := fun h => hgate ⟨g, h⟩
      have hsame : w.desk.subed = fun g =>
          w.desk.subed g || decide (g.name = name) && decide (g.name ∉ noperms) := by
        funext g
        simp [hother g]
      rw [← hsame]
      split
      · rfl
      · split
        · exact desk_subscribe_other w true hother
        · rfl
  have hall (l : List ServiceName) (w : World) (hl : ∀ name ∈ l, name ∈ w.server.services) :
      (l.foldl (fun w name =>
        if name.isVideo ∧ name ≠ .video .monitor env.primaryDisplayIdx then w
        else if name ∉ noperms then w.subscribe name true else w) w).desk =
        { w.desk with subed := fun g =>
            w.desk.subed g || decide (g.name ∈ l) && decide (g.name ∉ noperms) } := by
    induction l generalizing w with
    | nil => simp
    | cons name l ih =>
      have hserv (w' : World) (h : w' = (if name.isVideo ∧
          name ≠ .video .monitor env.primaryDisplayIdx then w
          else if name ∉ noperms then w.subscribe name true else w)) :
          w'.server.services = w.server.services := by
        subst h
        split
        · rfl
        · split
          · rw [server_subscribe, Server.services_subscribe]
          · rfl
      rw [List.foldl_cons, ih _ fun n hn => by
        rw [hserv _ rfl]
        exact hl n (List.mem_cons_of_mem _ hn), hone w name (hl name List.mem_cons_self)]
      refine congrArg (fun f => { w.desk with subed := f }) ?_
      funext g
      by_cases hg : g.name = name
      · subst hg
        by_cases hmem : g.name ∈ noperms <;> simp [hmem]
      · simp [hg]
  exact hall w.server.services w fun _ h => h

theorem desk_trySubMonitorServices (hremote : w.conn.isRemote = true)
    (hsubed : w.conn.servicesSubed = false) :
    (trySubMonitorServices env w).desk =
      { w.desk with
        servicesSubed := true
        subed := fun g => w.desk.subed g ||
          w.desk.registered g && w.desk.rights.allows env.builtin g } := by
  unfold trySubMonitorServices
  rw [if_pos (by simp [hremote, hsubed]), desk_addConnection]
  have hvideo := desk_addService_video { w with conn := { w.conn with servicesSubed := true } }
    .monitor env.primaryDisplayIdx
  rw [hvideo]
  refine congrArg (fun f => ({ w.desk with servicesSubed := true, subed := f } : Desk)) ?_
  funext g
  refine congrArg (fun b => w.desk.subed g || w.desk.registered g && b) ?_
  change _ = w.conn.rights.allows env.builtin g
  -- the test is the negation of the one that puts the service on the list
  cases g with
  | cursor =>
    change _ = (w.conn.peerKeyboardEnabled || w.conn.showRemoteCursor)
    cases w.conn.peerKeyboardEnabled <;> cases w.conn.showRemoteCursor <;> simp [Gated.name]
  | clipboard =>
    change _ = w.conn.canSubClipboardService env
    cases w.conn.canSubClipboardService env <;> simp [Gated.name]
  | fileClipboard =>
    change _ = w.conn.canSubFileClipboardService env
    cases w.conn.canSubFileClipboardService env <;> simp [Gated.name]
  | audio =>
    change _ = w.conn.audioEnabled
    cases w.conn.audioEnabled <;> simp [Gated.name]

/-! ### In line -/

theorem tracks_applyOptionsInLogin (hcamera : w.conn.isAuthedViewCameraConn = false) :
    w.desk.Tracks env.builtin (applyOptionsInLogin env w).desk := by
  unfold applyOptionsInLogin
  split
  · next o _ =>
    exact .trans (.of_eq (show _ = w.desk from rfl))
      (tracks_updateOptions env { w with conn := { w.conn with optionsInLogin := none } } o hcamera)
  · exact .refl w.desk

theorem flags_applyOptionsInLogin (w : World) :
    (applyOptionsInLogin env w).conn.fileTransfer = w.conn.fileTransfer ∧
      (applyOptionsInLogin env w).conn.terminal = w.conn.terminal ∧
      (applyOptionsInLogin env w).conn.viewCamera = w.conn.viewCamera ∧
      (applyOptionsInLogin env w).conn.portForwardSocket = w.conn.portForwardSocket ∧
      (applyOptionsInLogin env w).conn.servicesSubed = w.conn.servicesSubed := by
  unfold applyOptionsInLogin
  split
  · rw [conn_updateOptions]
    exact ⟨rfl, rfl, rfl, rfl, rfl⟩
  · exact ⟨rfl, rfl, rfl, rfl, rfl⟩

theorem isRemote_iff (c : Connection) : c.isRemote = true ↔ c.authKind = .remote := by
  unfold Connection.authKind Connection.isRemote
  cases c.fileTransfer <;> cases c.portForwardSocket <;> cases c.viewCamera <;> cases c.terminal <;>
    simp

theorem inLine_welcome (h : w.desk.InLine env.builtin) (hauth : w.conn.authorized = false) :
    (welcome env w.authorize).desk.InLine env.builtin := by
  obtain ⟨-, ⟨hregclip, hregaudio⟩, hservices, haudio, hclipboard⟩ := h.waiting hauth
  have hcore := core_welcome env w.authorize
  cases hremote : w.conn.isRemote with
  | false =>
    -- what is not a desktop
    refine .other (congrArg Core.authorized hcore) fun hkind => ?_
    have hkind' : some w.conn.authKind = some AuthConnType.remote :=
      (congrArg (fun c => c.authedConnId.map Prod.fst) hcore).symm.trans hkind
    rw [(isRemote_iff w.conn).mpr (Option.some.inj hkind')] at hremote
    cases hremote
  | true =>
    -- no subscription is there that is not allowed
    have hstart : w.authorize.desk.InLine env.builtin := by
      refine ⟨fun hnot => Bool.noConfusion hnot, fun _ _ g hg => ?_⟩
      rcases hg with rfl | rfl
      · exact ⟨hregclip, hclipboard,
          fun hsub => absurd (hservices.symm.trans hsub) Bool.false_ne_true⟩
      · exact ⟨hregaudio, fun hsub => absurd (haudio.symm.trans hsub) Bool.false_ne_true,
          fun hsub => absurd (hservices.symm.trans hsub) Bool.false_ne_true⟩
    have hparts := hremote
    unfold Connection.isRemote at hparts
    simp only [Bool.and_eq_true, Option.isNone_iff_eq_none, Bool.not_eq_true'] at hparts
    obtain ⟨⟨⟨hfile, hsocket⟩, hcamera⟩, hterminal⟩ := hparts
    have hnocamera : w.authorize.conn.isAuthedViewCameraConn = false := by
      change decide (some w.conn.authKind = some AuthConnType.viewCamera) = false
      rw [(isRemote_iff w.conn).mp hremote]
      rfl
    unfold welcome
    rw [if_neg (by simp [authorize, hsocket])]
    split
    · rw [desk_emit rfl]
      exact hstart
    · dsimp only
      generalize (if (w.authorize.conn.fileTransfer.isNone && !w.authorize.conn.terminal &&
        !w.authorize.conn.viewCamera) = true then env.updateGetSyncDisplays else Except.ok ()) = res
      obtain ⟨hfile', hterminal', hcamera', hsocket', hservices'⟩ :=
        flags_applyOptionsInLogin env (w.authorize.emit (.loginResponse res))
      have hsent : w.authorize.desk.Tracks env.builtin
          (w.authorize.emit (.loginResponse res)).desk :=
        .of_eq (desk_emit rfl w.authorize)
      have htracks := hsent.trans
        (tracks_applyOptionsInLogin env (w.authorize.emit (.loginResponse res)) hnocamera)
      have hauthorized := htracks.authorized
      have hline := hstart.tracks rfl htracks
      generalize applyOptionsInLogin env (w.authorize.emit (.loginResponse res)) = w1 at *
      rw [if_neg (by rw [hfile']; simp [authorize, hfile]),
        if_neg (by rw [hterminal']; simp [authorize, hterminal]),
        if_neg (by rw [hcamera']; simp [authorize, hcamera])]
      split
      · -- the services of the desktop
        have hremote' : w1.conn.isRemote = true := by
          unfold Connection.isRemote
          rw [hfile', hterminal', hcamera', hsocket']
          exact hremote
        rw [desk_trySubMonitorServices env w1 hremote' (hservices'.trans hservices)]
        refine ⟨fun hnot => Bool.noConfusion (hauthorized.symm.trans hnot), fun _ hkind g hg => ?_⟩
        obtain ⟨hreg, hsound, -⟩ := hline.desktop hauthorized hkind g hg
        refine ⟨hreg, ?_⟩
        dsimp only
        rw [hreg, Bool.true_and]
        cases hsub : w1.desk.subed g with
        | false => exact ⟨fun h => h, fun _ => rfl⟩
        | true => exact ⟨fun _ => hsound hsub, fun _ => (hsound hsub).symm⟩
      · exact hline

/-! ### Ways to become authorized -/

@[simp] theorem desk_awaits2fa : (awaits2fa env w).1.desk = w.desk := by
  have hrecent := desk_isRecentSession env w true
  unfold awaits2fa
  split
  · rcases hres : isRecentSession env w true with ⟨w1, recent⟩
    rw [hres] at hrecent
    cases recent <;> exact hrecent
  · rfl

@[simp] theorem desk_prepareTerminalLogin : (prepareTerminalLogin env w).1.desk = w.desk := by
  unfold prepareTerminalLogin
  split
  · rfl
  · dsimp only
    split
    · rw [desk_sendLoginError]
      rfl
    · rfl

@[simp] theorem desk_connectPortForward : (connectPortForward env w).1.desk = w.desk := by
  unfold connectPortForward
  split
  · rfl
  · split
    · dsimp only
      split
      · rfl
      · exact desk_emit rfl _
    · rfl

theorem inLine_sendLogonResponse (h : w.desk.InLine env.builtin) :
    (sendLogonResponse env w).1.desk.InLine env.builtin := by
  unfold sendLogonResponse
  split
  · exact h
  · next hauth =>
    have hawaits := desk_awaits2fa env w
    rcases hres : awaits2fa env w with ⟨w1, waits⟩
    rw [hres] at hawaits
    cases waits with
    | true =>
      change (w1.sendLoginError "2FA Required").desk.InLine env.builtin
      rw [desk_sendLoginError, hawaits]
      exact h
    | false =>
      dsimp only
      have hterminal := desk_prepareTerminalLogin env w1
      rcases hres2 : prepareTerminalLogin env w1 with ⟨w2, keepAlive⟩
      rw [hres2, hawaits] at hterminal
      cases keepAlive with
      | some keepAlive =>
        rw [hterminal]
        exact h
      | none =>
        dsimp only
        have hforward := desk_connectPortForward env w2
        rcases hres3 : connectPortForward env w2 with ⟨w3, ok⟩
        rw [hres3, hterminal] at hforward
        cases ok with
        | false =>
          rw [hforward]
          exact h
        | true =>
          refine inLine_welcome env w3 (by rwa [hforward]) ?_
          have hauth' := congrArg Desk.authorized hforward
          exact hauth'.trans (Bool.eq_false_iff.mpr hauth)

theorem inLine_logon (h : w.desk.InLine env.builtin) (lr : LoginRequest) :
    (logon env w lr).1.desk.InLine env.builtin := by
  have hsend := inLine_sendLogonResponse env w h
  unfold logon
  rcases hres : sendLogonResponse env w with ⟨w1, keepAlive⟩
  rw [hres] at hsend
  cases keepAlive with
  | false => exact hsend
  | true =>
    rw [desk_tryStartCm]
    exact hsend

theorem inLine_loginAccepted (h : w.desk.InLine env.builtin) (lr : LoginRequest) (errMsg : Text) :
    (loginAccepted env w lr errMsg).1.desk.InLine env.builtin := by
  have hlet : (w.letIn lr).desk.InLine env.builtin := by rwa [desk_letIn]
  unfold loginAccepted
  split
  · exact inLine_logon env _ hlet lr
  · rwa [desk_emit rfl]

theorem inLine_loginPassword (h : w.desk.InLine env.builtin) (lr : LoginRequest) (errMsg : Text)
    (allow : Bool) : (loginPassword env w lr errMsg allow).1.desk.InLine env.builtin := by
  have hcheck := desk_checkFailure env w 0
  unfold loginPassword
  generalize checkFailure env w 0 = checked at hcheck ⊢
  obtain ⟨w1, failure⟩ := checked
  cases failure with
  | none =>
    rwa [hcheck]
  | some failure =>
    dsimp only
    have hvalidate := desk_validatePassword env w1 allow
    rw [hcheck] at hvalidate
    generalize validatePassword env w1 allow = validated at hvalidate ⊢
    obtain ⟨w2, ok⟩ := validated
    cases ok with
    | true => exact inLine_loginAccepted env _ (by rwa [desk_updateFailure, hvalidate]) lr errMsg
    | false =>
      dsimp only
      split
      · rwa [desk_tryStartCm, desk_sendLoginError, desk_updateFailure, hvalidate]
      · rwa [desk_sendLoginError, desk_updateFailure, hvalidate]

theorem inLine_loginCredential (h : w.desk.InLine env.builtin) (lr : LoginRequest)
    (errMsg : Text) : (loginCredential env w lr errMsg).1.desk.InLine env.builtin := by
  unfold loginCredential
  dsimp only
  split
  · -- it is approved by click
    split
    · rwa [desk_sendLoginError, desk_tryStartCm]
    · rwa [desk_tryStartCm]
  · have hrecent := desk_isRecentSession env w false
    generalize isRecentSession env w false = session at hrecent ⊢
    obtain ⟨w1, recent⟩ := session
    cases recent with
    | true => exact inLine_loginAccepted env w1 (by rwa [hrecent]) lr errMsg
    | false =>
      dsimp only
      split
      · split
        · rwa [desk_tryStartCm, hrecent]
        · rwa [desk_sendLoginError, hrecent]
      · exact inLine_loginPassword env w1 (by rwa [hrecent]) lr errMsg _

theorem inLine_onLoginRequest (h : w.desk.InLine env.builtin) (lr : LoginRequest) :
    (onLoginRequest env w lr).1.desk.InLine env.builtin := by
  have hpresent := desk_handleLoginRequestWithoutValidation env w lr
  unfold onLoginRequest
  dsimp only
  generalize handleLoginRequestWithoutValidation env w lr = w0 at hpresent
  split
  · rwa [hpresent]
  · have hkind := desk_loginKind env w0 lr
    rw [hpresent] at hkind
    generalize loginKind env w0 lr = asked at hkind ⊢
    obtain ⟨w1, ok⟩ := asked
    cases ok with
    | false =>
      rwa [hkind]
    | true =>
      dsimp only
      split
      · rwa [desk_sendLoginError, hkind]
      · have hdesktop := desk_loginDesktop env
          { w1 with conn := { w1.conn with cmStarted := true } } lr
        have hstarted : ({ w1 with conn := { w1.conn with cmStarted := true } } : World).desk =
          w.desk := hkind
        rw [hstarted] at hdesktop
        generalize loginDesktop env { w1 with conn := { w1.conn with cmStarted := true } } lr =
          desktop at hdesktop ⊢
        obtain ⟨w2, errMsg⟩ := desktop
        cases errMsg with
        | none =>
          rwa [hdesktop]
        | some errMsg => exact inLine_loginCredential env w2 (by rwa [hdesktop]) lr errMsg

theorem inLine_onAuth2fa (h : w.desk.InLine env.builtin) (code : Text) (hwid : Bytes) :
    (onAuth2fa env w code hwid).1.desk.InLine env.builtin := by
  have hcheck := desk_checkFailure env w 1
  unfold onAuth2fa
  generalize checkFailure env w 1 = checked at hcheck ⊢
  obtain ⟨w1, failure⟩ := checked
  have hline : w1.desk.InLine env.builtin := by rwa [hcheck]
  cases failure with
  | none => exact hline
  | some failure =>
    dsimp only
    split
    · exact hline
    · rwa [desk_sendLoginError]
    · generalize hw2 : World.setSession2fa _ _ = w2
      have hline2 : w2.desk.InLine env.builtin := by
        subst hw2
        exact hline
      have hlogon := inLine_logon env w2 hline2 w2.conn.lr
      generalize logon env w2 w2.conn.lr = logged at hlogon ⊢
      obtain ⟨w3, keepAlive⟩ := logged
      cases keepAlive with
      | false => exact hlogon
      | true =>
        dsimp only
        split
        · rwa [desk_emit rfl]
        · exact hlogon

theorem inLine_onSwitchSidesResponse (h : w.desk.InLine env.builtin) (uuid : Bytes)
    (lr : Option LoginRequest) :
    (onSwitchSidesResponse env w uuid lr).1.desk.InLine env.builtin := by
  unfold onSwitchSidesResponse
  cases lr with
  | none => exact h
  | some lr =>
    dsimp only
    have hpresent := desk_handleLoginRequestWithoutValidation env w lr
    generalize handleLoginRequestWithoutValidation env w lr = w0 at hpresent
    have htake : (takeSwitchSidesUuid env w0 lr.myId).1.desk = w0.desk := rfl
    rw [hpresent] at htake
    generalize takeSwitchSidesUuid env w0 lr.myId = taken at htake ⊢
    obtain ⟨w1, uuidOld⟩ := taken
    split
    · generalize hw2 : World.validates _ lr = w2
      have hline : w2.desk.InLine env.builtin := by
        subst hw2
        rw [desk_validates]
        change w1.desk.InLine env.builtin
        rwa [htake]
      have hlogon := inLine_logon env w2 hline lr
      generalize logon env w2 lr = logged at hlogon ⊢
      obtain ⟨w3, keepAlive⟩ := logged
      cases keepAlive <;> exact hlogon
    · rwa [htake]

/-! ### Messages -/

theorem desk_onLoginRequest {w : World} (hauth : w.conn.authorized = true) (lr : LoginRequest) :
    (onLoginRequest env w lr).1.desk = w.desk := by
  have h : onLoginRequest env w lr = (handleLoginRequestWithoutValidation env w lr, true) :=
    if_pos ((authorized_handleLoginRequestWithoutValidation env w lr).trans hauth)
  rw [h]
  exact desk_handleLoginRequestWithoutValidation env w lr

theorem desk_onAuth2fa {w : World} (hauth : w.conn.authorized = true) (code : Text)
    (hwid : Bytes) : (onAuth2fa env w code hwid).1.desk = w.desk := by
  have hdesk := desk_checkFailure env w 1
  unfold onAuth2fa
  rcases checkFailure_cases env w 1 with ⟨w1, hcheck, -⟩ | ⟨failure, hcheck⟩
  · rw [hcheck] at hdesk ⊢
    exact hdesk
  · rw [hcheck]
    dsimp only
    split
    · rfl
    · exact desk_sendLoginError _ _
    · generalize hw1 : World.setSession2fa _ _ = w1
      have hauth1 : w1.conn.authorized = true := by
        subst hw1
        exact hauth
      have hdesk1 : w1.desk = w.desk := by
        subst hw1
        rfl
      rw [logon_of_authorized env hauth1]
      dsimp only
      split
      · exact (desk_emit rfl _).trans ((desk_tryStartCm w1 _ _ _).trans hdesk1)
      · exact (desk_tryStartCm w1 _ _ _).trans hdesk1

theorem desk_onSwitchSidesResponse {w : World} (hauth : w.conn.authorized = true) (uuid : Bytes)
    (lr : Option LoginRequest) : (onSwitchSidesResponse env w uuid lr).1.desk = w.desk := by
  cases lr with
  | none => rfl
  | some lr =>
    have hdesk := desk_handleLoginRequestWithoutValidation env w lr
    have hauth' := (authorized_handleLoginRequestWithoutValidation env w lr).trans hauth
    unfold onSwitchSidesResponse takeSwitchSidesUuid
    dsimp only
    rw [← hdesk]
    split
    · unfold validates
      rw [if_pos (by exact hauth'), logon_of_authorized env (by exact hauth')]
      exact desk_tryStartCm _ _ _ _
    · rfl

@[simp] theorem desk_onTestDelay (fromClient : Bool) :
    (w.onTestDelay fromClient).desk = w.desk := by
  unfold onTestDelay
  split
  · exact desk_emit rfl w
  · rfl

@[simp] theorem desk_checkRemoveSession : (checkRemoveSession env w).desk = w.desk := by
  unfold checkRemoveSession
  dsimp only
  split <;> rfl

theorem heard_onMessage {w : World} (hauth : w.conn.authorized = true)
    (hcamera : w.conn.isAuthedViewCameraConn = false) (m : Message) :
    w.desk.Heard env.builtin (onMessage env w m).1.desk := by
  have harms (m : Message) (hm : onMessage env w m =
      if w.conn.authorized then
        if w.conn.portForwardSocket.isSome then (w, true) else onAuthorizedMessage env w m
      else (w, true)) : w.desk.Heard env.builtin (onMessage env w m).1.desk := by
    rw [hm, if_pos hauth]
    split
    · exact .tracks (.refl w.desk)
    · exact heard_onAuthorizedMessage env w m hcamera
  cases m with
  | loginRequest lr => exact .tracks (.of_eq (desk_onLoginRequest env hauth lr))
  | auth2fa code hwid => exact .tracks (.of_eq (desk_onAuth2fa env hauth code hwid))
  | switchSidesResponse uuid lr =>
    exact .tracks (.of_eq (desk_onSwitchSidesResponse env hauth uuid lr))
  | testDelay fromClient => exact .tracks (.of_eq (desk_onTestDelay w fromClient))
  | misc m =>
    cases m with
    | closeReason => exact .tracks (.of_eq (desk_checkRemoveSession env w))
    | _ => exact harms _ rfl
  | _ => exact harms _ rfl

theorem door_onMessage {w : World} (hauth : w.conn.authorized = true) (m : Message) :
    (onMessage env w m).1.desk.authorized = w.desk.authorized ∧
      (onMessage env w m).1.desk.kind = w.desk.kind := by
  have hdesk {w' : World} (h : w'.desk = w.desk) :
      w'.desk.authorized = w.desk.authorized ∧ w'.desk.kind = w.desk.kind := by
    rw [h]
    exact ⟨rfl, rfl⟩
  have harms (m : Message) (hm : onMessage env w m =
      if w.conn.authorized then
        if w.conn.portForwardSocket.isSome then (w, true) else onAuthorizedMessage env w m
      else (w, true)) : (onMessage env w m).1.desk.authorized = w.desk.authorized ∧
        (onMessage env w m).1.desk.kind = w.desk.kind := by
    have hcore := core_onAuthorizedMessage env w m
    rw [hm, if_pos hauth]
    split
    · exact ⟨rfl, rfl⟩
    · exact ⟨congrArg Core.authorized hcore,
        congrArg (fun c => c.authedConnId.map Prod.fst) hcore⟩
  cases m with
  | loginRequest lr => exact hdesk (desk_onLoginRequest env hauth lr)
  | auth2fa code hwid => exact hdesk (desk_onAuth2fa env hauth code hwid)
  | switchSidesResponse uuid lr => exact hdesk (desk_onSwitchSidesResponse env hauth uuid lr)
  | testDelay fromClient => exact hdesk (desk_onTestDelay w fromClient)
  | misc m =>
    cases m with
    | closeReason => exact hdesk (desk_checkRemoveSession env w)
    | _ => exact harms _ rfl
  | _ => exact harms _ rfl

theorem not_camera_of_remote {c : Connection} (h : c.connType = some .remote) :
    c.isAuthedViewCameraConn = false := by
  unfold Connection.isAuthedViewCameraConn
  rw [h]
  rfl

theorem inLine_onMessage (h : w.desk.InLine env.builtin) (m : Message) :
    (onMessage env w m).1.desk.InLine env.builtin := by
  cases hauth : w.conn.authorized with
  | true =>
    by_cases hkind : w.conn.connType = some .remote
    · exact h.heard hauth (heard_onMessage env hauth (not_camera_of_remote hkind) m)
    · obtain ⟨hsame, hsameKind⟩ := door_onMessage env hauth m
      exact .other (hsame.trans hauth) fun hremote => hkind (hsameKind.symm.trans hremote)
  | false =>
    have harms (m : Message) (hm : onMessage env w m =
        if w.conn.authorized then
          if w.conn.portForwardSocket.isSome then (w, true) else onAuthorizedMessage env w m
        else (w, true)) : (onMessage env w m).1.desk.InLine env.builtin := by
      rw [hm, if_neg (by rw [hauth]; exact Bool.false_ne_true)]
      exact h
    cases m with
    | loginRequest lr => exact inLine_onLoginRequest env w h lr
    | auth2fa code hwid => exact inLine_onAuth2fa env w h code hwid
    | switchSidesResponse uuid lr => exact inLine_onSwitchSidesResponse env w h uuid lr
    | testDelay fromClient =>
      change (w.onTestDelay fromClient).desk.InLine env.builtin
      rwa [desk_onTestDelay]
    | misc m =>
      cases m with
      | closeReason =>
        change (checkRemoveSession env w).desk.InLine env.builtin
        rwa [desk_checkRemoveSession]
      | _ => exact harms _ rfl
    | _ => exact harms _ rfl

/-! ### Commands of the connection manager -/

theorem inLine_onSwitchPermission (h : w.desk.InLine env.builtin) (name : String)
    (enabled : Bool) : (onSwitchPermission env w name enabled).desk.InLine env.builtin := by
  have hcore := core_onSwitchPermission env w name enabled
  cases hauth : w.conn.authorized with
  | true =>
    by_cases hkind : w.conn.connType = some .remote
    · exact h.tracks hauth
        (tracks_onSwitchPermission env w name enabled (not_camera_of_remote hkind) hauth)
    · refine .other ((congrArg Core.authorized hcore).trans hauth) fun hremote => hkind ?_
      exact (congrArg (fun c => c.authedConnId.map Prod.fst) hcore).symm.trans hremote
  | false =>
    rw [desk_onSwitchPermission env w name enabled
      fun h => Bool.noConfusion (hauth.symm.trans h)]
    split
    · have htracks : w.desk.Tracks env.builtin _ := Desk.tracks_change w.desk
        { w.desk.rights with keyboard := enabled } [.clipboard, .fileClipboard]
        fun g hg hmem => by
          rcases hg with rfl | rfl
          · exact absurd List.mem_cons_self hmem
          · rfl
      have hcursor := htracks.trans (Desk.tracks_subscribe _ (g := .cursor)
        (enabled || w.desk.rights.showRemoteCursor) nofun nofun)
      refine h.waits hauth hcursor.toCalm hcursor.clipboard ?_
      rw [Desk.subed_subscribe_other _ _ (show Gated.audio ≠ .cursor from nofun),
        Desk.subed_subscribe_other _ _ (show Gated.audio ≠ .fileClipboard from nofun),
        Desk.subed_subscribe_other _ _ (show Gated.audio ≠ .clipboard from nofun)]
    · split
      · have htracks : w.desk.Tracks env.builtin _ := Desk.tracks_change w.desk
          { w.desk.rights with clipboard := enabled } [.clipboard] fun g hg hmem => by
            rcases hg with rfl | rfl
            · exact absurd List.mem_cons_self hmem
            · rfl
        refine h.waits hauth htracks.toCalm htracks.clipboard ?_
        exact Desk.subed_subscribe_other _ _ nofun
      · split
        · -- it is not subscribed to the audio yet
          rw [if_neg (by rw [hauth]; exact Bool.false_ne_true)]
          exact h.waits hauth ⟨rfl, rfl, rfl, fun _ h => h, rfl⟩ (fun _ => .inr ⟨rfl, rfl⟩) rfl
        · split
          · have htracks : w.desk.Tracks env.builtin _ := Desk.tracks_change w.desk
              { w.desk.rights with file := enabled } [.fileClipboard]
              fun g hg _ => by rcases hg with rfl | rfl <;> rfl
            refine h.waits hauth htracks.toCalm htracks.clipboard ?_
            exact Desk.subed_subscribe_other _ _ nofun
          · exact h

theorem inLine_of_camera (h : w.desk.InLine env.builtin) {w' : World} (hcore : w'.core = w.core)
    (hdesk : w.conn.isAuthedViewCameraConn = false → w'.desk = w.desk) :
    w'.desk.InLine env.builtin := by
  cases hcamera : w.conn.isAuthedViewCameraConn with
  | false =>
    rw [hdesk hcamera]
    exact h
  | true =>
    have hkind : w.conn.connType = some .viewCamera := of_decide_eq_true hcamera
    have hauth : w.conn.authorized = true := by
      cases hauth : w.conn.authorized with
      | true => rfl
      | false => cases hkind.symm.trans (h.waiting hauth).1
    refine .other ((congrArg Core.authorized hcore).trans hauth) fun hremote => ?_
    have hsame : w'.desk.kind = w.conn.connType :=
      congrArg (fun c => c.authedConnId.map Prod.fst) hcore
    cases hremote.symm.trans (hsame.trans hkind)

theorem inLine_onCmData (h : w.desk.InLine env.builtin) (d : CmData) :
    (onCmData env w d).1.desk.InLine env.builtin := by
  cases d with
  | authorize =>
    have hline : (validates { w with
        conn := { w.conn with require2fa := none }
        history := { w.history with authorize := true } } w.conn.lr).desk.InLine env.builtin := by
      rw [desk_validates]
      exact h
    have hsend := inLine_sendLogonResponse env _ hline
    unfold onCmData
    dsimp only
    generalize sendLogonResponse env _ = sent at hsend ⊢
    obtain ⟨w1, keepAlive⟩ := sent
    cases keepAlive <;> exact hsend
  | close | other => exact h
  | switchPermission name enabled => exact inLine_onSwitchPermission env w h name enabled
  | voiceCallResponse accepted =>
    exact inLine_of_camera env w h (core_handleVoiceCall w accepted)
      fun hcamera => desk_handleVoiceCall w hcamera accepted
  | closeVoiceCall => exact inLine_of_camera env w h (core_closeVoiceCall w) (desk_closeVoiceCall w)

end Login

end World

/-! ### Runs -/

def Event.under (builtin : Text → Text) : Event → Event
  | .message env m => .message { env with builtin := builtin } m
  | .cm env d => .cm { env with builtin := builtin } d
  | .testDelayTimer => .testDelayTimer
  | .others shared services => .others shared services

namespace World

theorem desk_stay (r : World × Bool) : (stay r).desk = r.1.desk := rfl

theorem desk_onRead (env : Env) (w : World) (m : Message) :
    (onRead env w m).desk = (onMessage env w m).1.desk := by
  unfold onRead
  dsimp only
  split <;> rfl

theorem desk_onTestDelayTimer (w : World) : w.onTestDelayTimer.desk = w.desk := by
  unfold onTestDelayTimer
  split <;> rfl

theorem calm_others (w : World) (shared : Shared) (services : List ServiceName) :
    w.desk.Calm ({ w with
        shared := shared
        server := services.foldl Server.addService w.server } : World).desk ∧
      ({ w with
        shared := shared
        server := services.foldl Server.addService w.server } : World).desk.subed =
          w.desk.subed := by
  have hall (services : List ServiceName) (server : Server) :
      (∀ name ∈ server.services, name ∈ (services.foldl Server.addService server).services) ∧
        (services.foldl Server.addService server).subed = server.subed := by
    induction services generalizing server with
    | nil => exact ⟨fun _ h => h, rfl⟩
    | cons name services ih =>
      obtain ⟨hmem, hsubed⟩ := ih (server.addService name)
      refine ⟨fun n hn => hmem n (Server.mem_services_addService.mpr (.inl hn)), ?_⟩
      rw [List.foldl_cons, hsubed, Server.subed_addService]
  obtain ⟨hmem, hsubed⟩ := hall services w.server
  refine ⟨⟨rfl, rfl, rfl, fun g hg => ?_, rfl⟩, ?_⟩
  · exact decide_eq_true (hmem g.name (of_decide_eq_true hg))
  · funext g
    exact congrFun hsubed g.name

theorem inLine_step (builtin : Text → Text) {w : World} (h : w.desk.InLine builtin) (ev : Event) :
    (step w (ev.under builtin)).desk.InLine builtin := by
  cases hended : w.ended with
  | true => rwa [step_of_ended hended]
  | false =>
    unfold step
    rw [if_neg (by rw [hended]; exact Bool.false_ne_true)]
    cases ev with
    | message env m =>
      dsimp only [Event.under]
      rw [desk_onRead]
      exact inLine_onMessage { env with builtin := builtin } w h m
    | cm env d =>
      dsimp only [Event.under]
      split
      · exact inLine_onCmData { env with builtin := builtin } w h d
      · exact h
    | testDelayTimer =>
      dsimp only [Event.under]
      rwa [desk_onTestDelayTimer]
    | others shared services =>
      obtain ⟨hcalm, hsubed⟩ := calm_others w shared services
      have hfollows (g : Gated) : Desk.Follows builtin g w.desk ({ w with
          shared := shared
          server := services.foldl Server.addService w.server } : World).desk :=
        fun _ => .inr ⟨congrFun hsubed g, rfl⟩
      cases hauth : w.conn.authorized with
      | true => exact h.tracks hauth ⟨hcalm, hfollows _, hfollows _⟩
      | false => exact h.waits hauth hcalm (hfollows _) (congrFun hsubed _)

end World

end LibRustdesk.Desktop
