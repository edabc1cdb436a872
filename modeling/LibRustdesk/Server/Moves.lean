import LibRustdesk.Server.Frame

/-!
# What a step does to the core

Each entry point that can end in `send_logon_response_and_keep_alive` has its own specification:
`onLoginRequest_cases`, `onAuth2fa_cases`, `onSwitchSidesResponse_cases` and `onCmAuthorize_cases`.
Together they are `step_moves`: a step takes one of these four, or keeps the core.

* `Core.present` — a login is in the connection, before anything is checked.
* `Core.ask` — the flag of its kind is set. The flags of earlier logins stay.
* `Core.letIn` — its credential was good.
-/

namespace LibRustdesk.Desktop

/-! ### Logins -/

namespace Core

/-- A login is put into the connection. A trusted device drops the second factor. -/
def present (env : Env) (lr : LoginRequest) (c : Core) : Core :=
  if c.require2fa.isSome && env.trusts lr then
    { c with
      lr := lr
      require2fa := none
      history := { c.history with trustedDevice := true } }
  else { c with lr := lr }

def check (kind : AuthConnType) (c : Core) : Core :=
  { c with history := { c.history with checked := kind :: c.history.checked } }

/-- The flag of the kind of a login. A socket is connected later. -/
def setFlag (lr : LoginRequest) (c : Core) : Core :=
  match lr.union with
  | some (.fileTransfer dir showHidden) => { c with fileTransfer := some (dir, showHidden) }
  | some .viewCamera => { c with viewCamera := true }
  | some (.terminal _) => { c with terminal := true }
  | some (.portForward _ _) | none => c

def ask (lr : LoginRequest) (c : Core) : Core := (c.setFlag lr).check lr.kind

/-- The end of the connection manager has been started. -/
def startCm (c : Core) : Core := { c with cmStarted := true }

/-- The login is the one that was validated last, unless the connection is authorized. -/
def validates (lr : LoginRequest) (c : Core) : Core :=
  if c.authorized then c else { c with history := { c.history with validated := some lr } }

def letIn (lr : LoginRequest) (c : Core) : Core :=
  { c with history := { c.history with accepted := true } }.validates lr

/-- Whether and as what the connection is authorized. -/
def door (c : Core) : Bool × Option Text × Option (AuthConnType × SessionKey) :=
  (c.authorized, c.portForwardSocket, c.authedConnId)

section

variable (env : Env) (lr : LoginRequest) (c : Core)

@[simp] theorem lr_present : (c.present env lr).lr = lr := by
  unfold present
  split <;> rfl

theorem setFlag_eq : ∃ fileTransfer viewCamera terminal, c.setFlag lr =
    { c with fileTransfer := fileTransfer, viewCamera := viewCamera, terminal := terminal } := by
  unfold setFlag
  split <;> exact ⟨_, _, _, rfl⟩

@[simp] theorem lr_ask : (c.ask lr).lr = c.lr := by
  obtain ⟨_, _, _, h⟩ := setFlag_eq lr c
  rw [ask, h]
  rfl

theorem kind_mem_checked_ask : lr.kind ∈ (c.ask lr).history.checked := List.mem_cons_self

@[simp] theorem door_present : (c.present env lr).door = c.door := by
  unfold present
  split <;> rfl

@[simp] theorem door_ask : (c.ask lr).door = c.door := by
  obtain ⟨_, _, _, h⟩ := setFlag_eq lr c
  rw [ask, h]
  rfl

@[simp] theorem door_startCm : c.startCm.door = c.door := rfl

@[simp] theorem door_validates : (c.validates lr).door = c.door := by
  unfold validates
  split <;> rfl

@[simp] theorem door_letIn : (c.letIn lr).door = c.door := door_validates lr _

theorem authorized_congr {c c' : Core} (h : c'.door = c.door) : c'.authorized = c.authorized :=
  congrArg Prod.fst h

@[simp] theorem authorized_present : (c.present env lr).authorized = c.authorized :=
  authorized_congr (door_present env lr c)

@[simp] theorem authorized_ask : (c.ask lr).authorized = c.authorized :=
  authorized_congr (door_ask lr c)

@[simp] theorem authorized_startCm : c.startCm.authorized = c.authorized := rfl

@[simp] theorem authorized_validates : (c.validates lr).authorized = c.authorized :=
  authorized_congr (door_validates lr c)

@[simp] theorem authorized_letIn : (c.letIn lr).authorized = c.authorized :=
  authorized_congr (door_letIn lr c)

theorem validates_of_authorized (h : c.authorized = true) : c.validates lr = c := if_pos h

theorem validates_of_not_authorized (h : c.authorized = false) :
    c.validates lr = { c with history := { c.history with validated := some lr } } :=
  if_neg (by simp [h])

end

end Core

namespace World

section

variable (env : Env) (w : World) (lr : LoginRequest)

@[simp] theorem core_handleLoginRequestWithoutValidation :
    (handleLoginRequestWithoutValidation env w lr).core = w.core.present env lr := by
  by_cases h : (w.conn.require2fa.isSome && env.trusts lr) = true
  · exact (congrArg core (if_pos h)).trans (if_pos h).symm
  · exact (congrArg core (if_neg h)).trans (if_neg h).symm

@[simp] theorem shared_handleLoginRequestWithoutValidation :
    (handleLoginRequestWithoutValidation env w lr).shared = w.shared := by
  unfold handleLoginRequestWithoutValidation
  dsimp only
  split <;> rfl

@[simp] theorem core_validates : (w.validates lr).core = w.core.validates lr := by
  by_cases h : w.conn.authorized = true
  · exact (congrArg core (if_pos h)).trans (if_pos h).symm
  · exact (congrArg core (if_neg h)).trans (if_neg h).symm

@[simp] theorem core_letIn : (w.letIn lr).core = w.core.letIn lr := core_validates _ lr

@[simp] theorem conn_validates : (w.validates lr).conn = w.conn := by
  unfold validates
  split <;> rfl

@[simp] theorem shared_validates : (w.validates lr).shared = w.shared := by
  unfold validates
  split <;> rfl

@[simp] theorem conn_letIn : (w.letIn lr).conn = w.conn := conn_validates _ lr

@[simp] theorem shared_letIn : (w.letIn lr).shared = w.shared := shared_validates _ lr

theorem core_loginKind :
    (loginKind env w lr).1.core =
      if (loginKind env w lr).2 then w.core.ask lr else w.core := by
  unfold loginKind Core.ask Core.setFlag LoginRequest.kind
  cases lr.union with
  | none =>
    dsimp only
    split <;> rfl
  | some union =>
    cases union <;>
    · dsimp only
      split <;> rfl

end

end World

/-! ### `send_logon_response_and_keep_alive` again -/

theorem World.Logon.congr {env : Env} {w w1 w2 : World} {b : Bool} (h : Logon env w (w1, b))
    (hcore : w2.core = w1.core) : Logon env w (w2, b) := by
  cases h with
  | again _ hauth h => exact .again _ hauth (hcore.trans h)
  | waits _ hauth hpasses h => exact .waits _ hauth hpasses (hcore.trans h)
  | closes _ history hauth hcan hpass h => exact .closes _ history hauth hcan hpass (hcore.trans h)
  | authorizes _ history hauth hpasses hcan hpass h =>
    exact .authorizes _ history hauth hpasses hcan hpass (hcore.trans h)

theorem World.logon_cases (env : Env) (w : World) (lr : LoginRequest) :
    Logon env w (logon env w lr) := by
  unfold logon
  have hlogon := sendLogonResponse_cases env w
  rcases h : sendLogonResponse env w with ⟨w', b⟩
  rw [h] at hlogon
  cases b with
  | false => exact hlogon
  | true => exact hlogon.congr rfl

/-! ### `LoginRequest` -/

namespace World

section

variable (env : Env) (w : World) (lr : LoginRequest)

theorem checkFailure_cases (i : Fin 2) :
    (∃ w', checkFailure env w i = (w', none) ∧ w'.core = w.core) ∨
      ∃ failure, checkFailure env w i = (w, some failure) := by
  unfold checkFailure
  split
  · exact Or.inr ⟨_, rfl⟩
  · exact Or.inl ⟨_, rfl, rfl⟩

theorem loginDesktop_cases :
    (∃ w', loginDesktop env w lr = (w', none) ∧ w'.core = w.core) ∨
      ∃ errMsg, loginDesktop env w lr = (w, some errMsg) := by
  unfold loginDesktop
  rcases checkFailure_cases env w 0 with ⟨w1, hcheck, hcore⟩ | ⟨failure, hcheck⟩
  · rw [hcheck]
    dsimp only
    -- The failures are looked at before the desktop is tried when nobody is logged in, and after
    -- it when its password was wrong.
    by_cases hempty : (env.isHeadlessAllowed &&
        decide (lr.osLoginUsername.dropWhile Char.isWhitespace ≠ []) &&
        decide (env.desktopUsername = [])) = true
    · rw [if_pos hempty]
      exact Or.inl ⟨w1, rfl, hcore⟩
    · rw [if_neg hempty]
      dsimp only
      rw [hcheck]
      split
      · split
        · exact Or.inl ⟨w1, rfl, hcore⟩
        · exact Or.inl ⟨_, rfl, rfl⟩
      · exact Or.inr ⟨_, rfl⟩
  · rw [hcheck]
    dsimp only
    rw [ite_self]
    dsimp only
    rw [hcheck]
    split
    · split
      · exact Or.inl ⟨_, rfl, rfl⟩
      · exact Or.inl ⟨_, rfl, rfl⟩
    · exact Or.inr ⟨_, rfl⟩

/-- The world in which the credential of a login is looked at. -/
def asked : World :=
  let w := (loginKind env (handleLoginRequestWithoutValidation env w lr) lr).1
  { w with conn := { w.conn with cmStarted := true } }

/-- The login is approved by its credential, which is that of a recent session or the password. -/
def accepts : Bool :=
  let allowLogonScreenPassword : Bool :=
    env.builtin "allow-logon-screen-password".toList = ['Y'] && env.isLogon
  let approveMode := env.config.approveMode
  !(approveMode = .click && !allowLogonScreenPassword ||
      approveMode = .both && !hasValidPassword env.crypto env.config) &&
    ((isRecentSession env w false).2 ||
      w.conn.lr.password ≠ [] && (checkFailure env w 0).2.isSome &&
        (validatePassword env w allowLogonScreenPassword).2)

/-- The session of the login that can stand for the second factor. -/
def sessionOf : Option Session :=
  w.shared.sessions.retain (fun key _ => env.recentSession key) w.conn.lr.sessionKey

theorem isRecentSession_snd (tfa : Bool) : (isRecentSession env w tfa).2 =
    match w.sessionOf env with
    | some session => w.conn.lr.password ≠ [] &&
      (tfa && session.tfa ||
        !tfa && validatePasswordPlain env.crypto w.conn.hash w.conn.lr session.randomPassword)
    | none => false := by
  unfold isRecentSession sessionOf
  dsimp only
  cases w.shared.sessions.retain (fun key _ => env.recentSession key) w.conn.lr.sessionKey <;> rfl

theorem sessionOf_isRecentSession (tfa : Bool) :
    (isRecentSession env w tfa).1.sessionOf env = w.sessionOf env := by
  have hretain (sessions : Table SessionKey Session) (key : SessionKey) :
      (sessions.retain fun key _ => env.recentSession key).retain
        (fun key _ => env.recentSession key) key =
      sessions.retain (fun key _ => env.recentSession key) key := by
    unfold Table.retain
    cases sessions key with
    | none => rfl
    | some session =>
      cases h : env.recentSession key <;> simp [Option.filter, h]
  have hw : (isRecentSession env w tfa).1 = { w with shared := { w.shared with
      sessions := w.shared.sessions.retain fun key _ => env.recentSession key } } := by
    unfold isRecentSession
    dsimp only
    split <;> rfl
  rw [hw]
  exact hretain _ _

theorem passes2fa_congr {w w' : World} (hconn : w'.conn = w.conn)
    (hsession : w'.sessionOf env = w.sessionOf env) :
    w'.passes2fa env = w.passes2fa env := by
  unfold passes2fa
  rw [isRecentSession_snd, isRecentSession_snd, hconn, hsession]

/-- A login that is accepted does not need the second factor. A temporary password starts a
session without one. -/
def skips2fa : Bool :=
  if (isRecentSession env w false).2 then w.passes2fa env
  else
    (validatePassword env w (env.builtin "allow-logon-screen-password".toList = ['Y'] &&
      env.isLogon)).1.passes2fa env

/-- What can become of a login that is judged by its credential. -/
inductive LetsIn (env : Env) (w : World) (lr : LoginRequest) (errMsg : Text) :
    World × Bool → Prop
  /-- It is not let in. -/
  | refuses (w' : World) (haccepts : w.accepts env = false) (hcore : w'.core = w.core) :
      LetsIn env w lr errMsg (w', true)
  /-- There is no desktop to show it. -/
  | unready (w' : World) (herr : errMsg ≠ []) (hcore : w'.core = w.core.letIn lr) :
      LetsIn env w lr errMsg (w', true)
  | logs (w' : World) (r : World × Bool) (haccepts : w.accepts env = true) (herr : errMsg = [])
      (hconn : w'.conn = w.conn) (hcore : w'.core = w.core.letIn lr)
      (hpasses : w'.passes2fa env = w.skips2fa env) (hlogon : Logon env w' r) :
      LetsIn env w lr errMsg r

variable (errMsg : Text)

theorem letsIn_loginAccepted {w' : World} (haccepts : w.accepts env = true)
    (hconn : w'.conn = w.conn) (hcore : w'.core = w.core)
    (hpasses : w'.passes2fa env = w.skips2fa env) : LetsIn env w lr errMsg
    (loginAccepted env w' lr errMsg) := by
  unfold loginAccepted
  split
  · next herr =>
    refine .logs (w'.letIn lr) _ haccepts herr ?_ ?_ ?_ (logon_cases env _ lr)
    · rw [conn_letIn, hconn]
    · rw [core_letIn, hcore]
    · rw [← hpasses]
      refine passes2fa_congr env (conn_letIn w' lr) ?_
      unfold sessionOf
      rw [conn_letIn, shared_letIn]
  · next herr => exact .unready _ herr (by rw [core_emit, core_letIn, hcore])

theorem validatePassword_snd_congr {w w' : World} (hconn : w'.conn = w.conn) (allow : Bool) :
    (validatePassword env w' allow).2 = (validatePassword env w allow).2 := by
  unfold validatePassword
  rw [hconn]
  dsimp only
  split <;> rfl

theorem conn_validatePassword (allow : Bool) : (validatePassword env w allow).1.conn = w.conn := by
  unfold validatePassword
  dsimp only
  split <;> rfl

theorem sessionOf_validatePassword {w w' : World} (hconn : w'.conn = w.conn)
    (hsession : w'.sessionOf env = w.sessionOf env) (allow : Bool) :
    (validatePassword env w' allow).1.sessionOf env =
      (validatePassword env w allow).1.sessionOf env := by
  have hinsert (w : World) (password : Text) :
      (w.updateOrInsertSession w.conn.lr.sessionKey (some password) (some false)).sessionOf env =
        (some ⟨password, false⟩ : Option Session).filter
          fun _ => env.recentSession w.conn.lr.sessionKey := by
    unfold sessionOf Table.retain updateOrInsertSession
    dsimp only
    rw [Table.insert_self]
    cases w.shared.sessions w.conn.lr.sessionKey <;> rfl
  unfold validatePassword
  dsimp only
  rw [hconn]
  split
  · have h := hinsert w' env.config.temporaryPassword
    rw [hconn] at h
    rw [h, hinsert]
  · exact hsession

theorem checkFailure_snd_congr {w w' : World} (hconn : w'.conn = w.conn)
    (hfailures : w'.shared.failures = w.shared.failures) (i : Fin 2) :
    (checkFailure env w' i).2 = (checkFailure env w i).2 := by
  unfold checkFailure
  rw [hconn, hfailures]
  split <;> rfl

theorem letsIn_loginPassword {w' : World} (allow : Bool)
    (haccepts : w.accepts env =
      ((checkFailure env w 0).2.isSome && (validatePassword env w allow).2))
    (hskips : w.skips2fa env = (validatePassword env w allow).1.passes2fa env)
    (hconn : w'.conn = w.conn) (hfailures : w'.shared.failures = w.shared.failures)
    (hcore : w'.core = w.core) (hsession : w'.sessionOf env = w.sessionOf env) :
    LetsIn env w lr errMsg (loginPassword env w' lr errMsg allow) := by
  have hcheck2 := checkFailure_snd_congr env hconn hfailures 0
  have hvalid := validatePassword_snd_congr env hconn allow
  unfold loginPassword
  rcases checkFailure_cases env w' 0 with ⟨w1, hcheck, hcore1⟩ | ⟨failure, hcheck⟩
  · rw [hcheck] at hcheck2
    rw [hcheck]
    refine .refuses w1 ?_ (hcore1.trans hcore)
    rw [haccepts, ← hcheck2]
    rfl
  · rw [hcheck] at hcheck2
    rw [hcheck]
    dsimp only
    have hcore2 := core_validatePassword env w' allow
    have hconn2 := conn_validatePassword env w' allow
    have hsession2 := sessionOf_validatePassword env hconn hsession allow
    rcases hres : validatePassword env w' allow with ⟨w2, valid⟩
    rw [hres] at hvalid hcore2 hconn2 hsession2
    cases valid with
    | true =>
      refine letsIn_loginAccepted env w lr errMsg ?_ (hconn2.trans hconn) (hcore2.trans hcore) ?_
      · rw [haccepts, ← hcheck2, ← hvalid]
        rfl
      · rw [hskips]
        refine passes2fa_congr env ?_ hsession2
        rw [conn_validatePassword]
        exact hconn2.trans hconn
    | false =>
      have hrefuses : w.accepts env = false := by rw [haccepts, ← hvalid, Bool.and_false]
      dsimp only
      split
      · exact .refuses _ hrefuses (hcore2.trans hcore)
      · exact .refuses _ hrefuses (hcore2.trans hcore)

theorem letsIn_loginCredential (hlr : w.conn.lr = lr) :
    LetsIn env w lr errMsg (loginCredential env w lr errMsg) := by
  unfold loginCredential
  dsimp only
  split
  · next hclick =>
    refine .refuses _ ?_ ?_
    · unfold accepts
      dsimp only
      rw [hclick]
      rfl
    · split <;> rfl
  · next hclick =>
    have hcore := core_isRecentSession env w false
    have hsession := sessionOf_isRecentSession env w false
    obtain ⟨shared, hshared⟩ := isRecentSession_fst env w false
    have hfailures : (isRecentSession env w false).1.shared.failures = w.shared.failures := by
      unfold isRecentSession
      dsimp only
      split <;> rfl
    have haccepts : w.accepts env = ((isRecentSession env w false).2 ||
        w.conn.lr.password ≠ [] && (checkFailure env w 0).2.isSome && (validatePassword env w
          (env.builtin "allow-logon-screen-password".toList = ['Y'] && env.isLogon)).2) := by
      unfold accepts
      dsimp only
      rw [Bool.not_eq_true] at hclick
      rw [hclick]
      rfl
    have hskips : w.skips2fa env = if (isRecentSession env w false).2 then w.passes2fa env
      else (validatePassword env w (env.builtin "allow-logon-screen-password".toList = ['Y'] &&
        env.isLogon)).1.passes2fa env := rfl
    rcases hres : isRecentSession env w false with ⟨w1, recent⟩
    rw [hres] at hcore hsession hshared hfailures haccepts hskips
    dsimp only at hcore hsession hshared hfailures haccepts hskips
    have hconn : w1.conn = w.conn := by rw [hshared]
    cases recent with
    | true =>
      refine letsIn_loginAccepted env w lr errMsg haccepts hconn hcore ?_
      rw [hskips]
      exact passes2fa_congr env hconn hsession
    | false =>
      rw [Bool.false_or] at haccepts
      rw [hlr] at haccepts
      dsimp only
      split
      · next hempty =>
        have hrefuses : w.accepts env = false := by
          rw [haccepts, hempty]
          rfl
        split
        · exact .refuses _ hrefuses hcore
        · exact .refuses _ hrefuses hcore
      · next hempty =>
        refine letsIn_loginPassword env w lr errMsg _ ?_ hskips hconn hfailures hcore hsession
        rw [haccepts, decide_eq_true hempty, Bool.true_and]

def online : Bool :=
  env.isIpStr lr.username || env.isDomainPortStr lr.username || lr.username = env.id

/-- The login is let in: there is a permission for its kind, it is for this host, there is a
desktop to show, and it is approved. -/
def letsIn : Bool :=
  (loginKind env (handleLoginRequestWithoutValidation env w lr) lr).2 && online env lr &&
    (loginDesktop env (w.asked env lr) lr).2 = some [] && (w.asked env lr).accepts env

/-- What a `LoginRequest` can do. -/
inductive Login (env : Env) (w : World) (lr : LoginRequest) : World × Bool → Prop
  /-- The connection is authorized already, but the login is in it. -/
  | again (w' : World) (hauth : w.conn.authorized = true)
      (hcore : w'.core = w.core.present env lr) : Login env w lr (w', true)
  /-- There is no permission for the kind. -/
  | refused (w' : World) (hauth : w.conn.authorized = false) (hlets : w.letsIn env lr = false)
      (hcore : w'.core = w.core.present env lr) : Login env w lr (w', false)
  /-- The login is for another host. -/
  | offline (w' : World) (hauth : w.conn.authorized = false) (hlets : w.letsIn env lr = false)
      (hcore : w'.core = (w.core.present env lr).ask lr) : Login env w lr (w', false)
  /-- It is not let in, or there is no desktop and no session could be started. -/
  | waits (w' : World) (hauth : w.conn.authorized = false) (hlets : w.letsIn env lr = false)
      (hcore : w'.core = ((w.core.present env lr).ask lr).startCm) : Login env w lr (w', true)
  /-- Its credential is good, but there is no desktop to show it. -/
  | unready (w' : World) (hauth : w.conn.authorized = false) (hlets : w.letsIn env lr = false)
      (hcore : w'.core = (((w.core.present env lr).ask lr).startCm).letIn lr) :
      Login env w lr (w', true)
  | logs (w' : World) (r : World × Bool) (hauth : w.conn.authorized = false)
      (hlets : w.letsIn env lr = true) (hconn : w'.conn = (w.asked env lr).conn)
      (hcore : w'.core = (((w.core.present env lr).ask lr).startCm).letIn lr)
      (hpasses : w'.passes2fa env = (w.asked env lr).skips2fa env) (hlogon : Logon env w' r) :
      Login env w lr r

theorem onLoginRequest_cases : Login env w lr (onLoginRequest env w lr) := by
  unfold onLoginRequest
  have hcore := core_handleLoginRequestWithoutValidation env w lr
  have hauth : (handleLoginRequestWithoutValidation env w lr).conn.authorized =
      w.conn.authorized := (congrArg Core.authorized hcore).trans (Core.authorized_present env lr _)
  have hkind := core_loginKind env (handleLoginRequestWithoutValidation env w lr) lr
  cases h : w.conn.authorized with
  | true =>
    rw [if_pos (hauth.trans h)]
    exact .again _ h hcore
  | false =>
    rw [if_neg (by rw [hauth, h]; exact Bool.false_ne_true)]
    have hasked : w.asked env lr = (let w1 := (loginKind env
        (handleLoginRequestWithoutValidation env w lr) lr).1
      { w1 with conn := { w1.conn with cmStarted := true } }) := rfl
    have hlets : w.letsIn env lr = ((loginKind env
        (handleLoginRequestWithoutValidation env w lr) lr).2 && online env lr &&
      (loginDesktop env (w.asked env lr) lr).2 = some [] && (w.asked env lr).accepts env) := rfl
    rcases hres : loginKind env (handleLoginRequestWithoutValidation env w lr) lr with ⟨w1, ok⟩
    rw [hres] at hkind hasked hlets
    cases ok with
    | false =>
      refine .refused w1 h ?_ (hkind.trans hcore)
      rw [hlets]
      rfl
    | true =>
      rw [if_pos rfl, hcore] at hkind
      dsimp only
      have honline : (!env.isIpStr lr.username && !env.isDomainPortStr lr.username &&
          decide (lr.username ≠ env.id)) = !online env lr := by
        unfold online
        rw [Bool.not_or, Bool.not_or, decide_not]
      rw [honline]
      cases ho : online env lr with
      | false =>
        rw [ho] at hlets
        exact .offline _ h hlets hkind
      | true =>
        rw [ho] at hlets
        rw [if_neg (by simp), ← hasked]
        have hask : (w.asked env lr).core = ((w.core.present env lr).ask lr).startCm := by
          rw [← hkind, hasked]
          rfl
        have hlr : (w.asked env lr).conn.lr = lr := by
          have h := congrArg Core.lr hask
          exact h.trans ((Core.lr_ask lr _).trans (Core.lr_present env lr _))
        rcases loginDesktop_cases env (w.asked env lr) lr with
          ⟨w2, hdesktop, hcore2⟩ | ⟨errMsg, hdesktop⟩
        · rw [hdesktop] at hlets
          rw [hdesktop]
          exact .waits w2 h hlets (hcore2.trans hask)
        · rw [hdesktop] at hlets
          rw [hdesktop]
          dsimp only
          have hcredential := letsIn_loginCredential env _ lr errMsg hlr
          generalize loginCredential env (w.asked env lr) lr errMsg = r at hcredential ⊢
          cases hcredential with
          | refuses w3 haccepts hcore3 =>
            exact .waits w3 h (by rw [hlets, haccepts, Bool.and_false]) (hcore3.trans hask)
          | unready w3 herr hcore3 =>
            refine .unready w3 h ?_ (by rw [hcore3, hask])
            rw [hlets]
            simp [herr]
          | logs w3 _ haccepts herr hconn hcore3 hpasses hlogon =>
            refine .logs w3 _ h ?_ hconn (by rw [hcore3, hask]) hpasses hlogon
            rw [hlets, haccepts, herr]
            rfl

end

/-! ### The second factor and switched sides -/

section

variable (env : Env) (w : World)

def provesCode (code : Text) : Prop :=
  (checkFailure env w 1).2 ≠ none ∧
    (w.conn.require2fa.bind fun totp => env.checkCurrent totp code) = some true

/-- What an `Auth2fa` can do. -/
inductive Code (env : Env) (w : World) (code : Text) : World × Bool → Prop
  | wrong (w' : World) (hproves : ¬w.provesCode env code) (hcore : w'.core = w.core) :
      Code env w code (w', true)
  | right (w' : World) (r : World × Bool) (hproves : w.provesCode env code)
      (hconn : w'.conn = { w.conn with require2fa := none })
      (hcore : w'.core = { w.core with
        require2fa := none, history := { w.history with code := true } })
      (hlogon : Logon env w' r) : Code env w code r

theorem onAuth2fa_cases (code : Text) (hwid : Bytes) :
    Code env w code (onAuth2fa env w code hwid) := by
  unfold onAuth2fa
  rcases checkFailure_cases env w 1 with ⟨w1, hcheck, hcore⟩ | ⟨failure, hcheck⟩
  · rw [hcheck]
    refine .wrong w1 ?_ hcore
    rintro ⟨hsome, -⟩
    rw [hcheck] at hsome
    exact hsome rfl
  · rw [hcheck]
    dsimp only
    cases hcode : w.conn.require2fa.bind fun totp => env.checkCurrent totp code with
    | none =>
      refine .wrong w (fun h => ?_) rfl
      exact absurd (hcode.symm.trans h.2) nofun
    | some correct =>
      cases correct with
      | false =>
        refine .wrong _ (fun h => ?_) rfl
        exact absurd (hcode.symm.trans h.2) (by simp)
      | true =>
        have hproves : w.provesCode env code := by
          refine ⟨?_, hcode⟩
          rw [hcheck]
          exact nofun
        -- The session is told before the answer is sent.
        set w1 : World := setSession2fa _ _
        have hlogon := logon_cases env w1 w1.conn.lr
        refine .right w1 _ hproves rfl rfl ?_
        rcases hres : logon env w1 w1.conn.lr with ⟨w2, b⟩
        rw [hres] at hlogon
        cases b with
        | false => exact hlogon
        | true =>
          dsimp only
          split
          · exact hlogon.congr rfl
          · exact hlogon

/-- The side has been given this uuid to be switched to. -/
def validUuid (uuid : Bytes) (lr : LoginRequest) : Prop :=
  uuid.length = 16 ∧ (takeSwitchSidesUuid env w lr.myId).2 = some uuid

/-- What a `SwitchSidesResponse` can do. -/
inductive SwitchSides (env : Env) (w : World) (uuid : Bytes) :
    Option LoginRequest → World × Bool → Prop
  | none : SwitchSides env w uuid none (w, true)
  /-- There is no such uuid, but the login is in the connection. -/
  | unknown (lr : LoginRequest) (w' : World) (hvalid : ¬w.validUuid env uuid lr)
      (hcore : w'.core = w.core.present env lr) : SwitchSides env w uuid (some lr) (w', true)
  | valid (lr : LoginRequest) (w1 w2 w' : World) (b : Bool) (hvalid : w.validUuid env uuid lr)
      (hconn : w1.conn = { (handleLoginRequestWithoutValidation env w lr).conn with
        fromSwitch := true })
      (hcore : w1.core = ({ w.core.present env lr with
        fromSwitch := true
        history := { (w.core.present env lr).history with switchedSides := true } } :
          Core).validates lr)
      (hlogon : Logon env w1 (w2, b))
      (hstart : w'.core = if b then w2.core.startCm else w2.core) :
      SwitchSides env w uuid (some lr) (w', b)

theorem onSwitchSidesResponse_cases (uuid : Bytes) (lr : Option LoginRequest) :
    SwitchSides env w uuid lr (onSwitchSidesResponse env w uuid lr) := by
  cases lr with
  | none => exact .none
  | some lr =>
    unfold onSwitchSidesResponse
    dsimp only
    have hcore : (takeSwitchSidesUuid env (handleLoginRequestWithoutValidation env w lr)
        lr.myId).1.core = w.core.present env lr :=
      core_handleLoginRequestWithoutValidation env w lr
    have hconn : (takeSwitchSidesUuid env (handleLoginRequestWithoutValidation env w lr)
        lr.myId).1.conn = (handleLoginRequestWithoutValidation env w lr).conn := rfl
    have hvalid : w.validUuid env uuid lr ↔ uuid.length = 16 ∧
        (takeSwitchSidesUuid env (handleLoginRequestWithoutValidation env w lr) lr.myId).2 =
          some uuid := by
      unfold validUuid takeSwitchSidesUuid
      rw [shared_handleLoginRequestWithoutValidation]
    rcases hres : takeSwitchSidesUuid env (handleLoginRequestWithoutValidation env w lr) lr.myId
      with ⟨w1, uuidOld⟩
    rw [hres] at hcore hconn hvalid
    split
    · next huuid =>
      set w2 : World := { w1 with
        conn := { w1.conn with fromSwitch := true }
        history := { w1.history with switchedSides := true } }
      have hconn2 : (w2.validates lr).conn =
          { (handleLoginRequestWithoutValidation env w lr).conn with fromSwitch := true } := by
        rw [conn_validates, ← hconn]
      have hcore2 : (w2.validates lr).core = ({ w.core.present env lr with
          fromSwitch := true
          history := { (w.core.present env lr).history with switchedSides := true } } :
            Core).validates lr := by
        rw [core_validates, ← hcore]
        rfl
      have hlogon := logon_cases env (w2.validates lr) lr
      rcases hres : logon env (w2.validates lr) lr with ⟨w3, b⟩
      rw [hres] at hlogon
      cases b with
      | false => exact .valid lr _ w3 w3 false (hvalid.mpr huuid) hconn2 hcore2 hlogon rfl
      | true => exact .valid lr _ w3 _ true (hvalid.mpr huuid) hconn2 hcore2 hlogon rfl
    · next huuid => exact .unknown lr w1 (fun h => huuid (hvalid.mp h)) hcore

theorem onCmAuthorize_cases : ∃ w1 w' b, Logon env w1 (w', b) ∧
    w1.conn = { w.conn with require2fa := none } ∧
    w1.core = ({ w.core with
      require2fa := none, history := { w.history with authorize := true } } :
        Core).validates w.conn.lr ∧
    (onCmData env w .authorize).1.core = w'.core ∧
    ((onCmData env w .authorize).2 = true → b = true) := by
  unfold onCmData
  dsimp only
  set w1 : World := { w with
    conn := { w.conn with require2fa := none }
    history := { w.history with authorize := true } }
  have hlogon := sendLogonResponse_cases env (w1.validates w1.conn.lr)
  have hcore : (w1.validates w1.conn.lr).core = ({ w.core with
      require2fa := none, history := { w.history with authorize := true } } :
        Core).validates w.conn.lr := core_validates w1 w1.conn.lr
  rcases hres : sendLogonResponse env (w1.validates w1.conn.lr) with ⟨w2, b⟩
  rw [hres] at hlogon
  refine ⟨_, w2, b, hlogon, conn_validates w1 _, hcore, ?_⟩
  cases b with
  | false => exact ⟨rfl, nofun⟩
  | true => exact ⟨rfl, fun _ => rfl⟩

end

/-! ### A step -/

def enters (w : World) : Event → Bool
  | .message _ (.loginRequest _) | .message _ (.auth2fa _ _)
  | .message _ (.switchSidesResponse _ _) => !w.ended
  | .cm _ .authorize => !w.ended && w.conn.cmStarted
  | _ => false

inductive Moves (w : World) : Event → Core → Prop
  | keeps (ev : Event) (henters : w.enters ev = false) : Moves w ev w.core
  | login (env : Env) (lr : LoginRequest) (r : World × Bool) (h : Login env w lr r) :
      Moves w (.message env (.loginRequest lr)) r.1.core
  | code (env : Env) (code : Text) (hwid : Bytes) (r : World × Bool) (h : Code env w code r) :
      Moves w (.message env (.auth2fa code hwid)) r.1.core
  | switchSides (env : Env) (uuid : Bytes) (lr : Option LoginRequest) (r : World × Bool)
      (h : SwitchSides env w uuid lr r) :
      Moves w (.message env (.switchSidesResponse uuid lr)) r.1.core
  | authorize (env : Env) (hstarted : w.conn.cmStarted = true) (w1 w' : World) (b : Bool)
      (hlogon : Logon env w1 (w', b)) (hconn : w1.conn = { w.conn with require2fa := none })
      (hcore : w1.core = ({ w.core with
        require2fa := none, history := { w.history with authorize := true } } :
          Core).validates w.conn.lr) :
      Moves w (.cm env .authorize) w'.core

theorem step_of_ended {w : World} (h : w.ended = true) (ev : Event) : step w ev = w := if_pos h

theorem core_step_message {w : World} (h : w.ended = false) (env : Env) (m : Message) :
    (step w (.message env m)).core = (onMessage env w m).1.core := by
  unfold step
  rw [if_neg (by simp [h])]
  exact core_onRead env w m

theorem onMessage_moves (env : Env) (w : World) (m : Message) :
    Moves w (.message env m) (onMessage env w m).1.core := by
  have hkeeps (henters : w.enters (.message env m) = false)
      (h : (onMessage env w m).1.core = w.core) :
      Moves w (.message env m) (onMessage env w m).1.core := by
    rw [h]
    exact .keeps _ henters
  have hauthorized (henters : w.enters (.message env m) = false) (h : onMessage env w m =
      if w.conn.authorized then
        if w.conn.portForwardSocket.isSome then (w, true) else onAuthorizedMessage env w m
      else (w, true)) : Moves w (.message env m) (onMessage env w m).1.core := by
    refine hkeeps henters ?_
    rw [h]
    split
    · split
      · rfl
      · exact core_onAuthorizedMessage env w m
    · rfl
  cases m with
  | loginRequest lr => exact .login env lr _ (onLoginRequest_cases env w lr)
  | auth2fa code hwid => exact .code env code hwid _ (onAuth2fa_cases env w code hwid)
  | switchSidesResponse uuid lr =>
    exact .switchSides env uuid lr _ (onSwitchSidesResponse_cases env w uuid lr)
  | testDelay fromClient => exact hkeeps rfl (core_onTestDelay w fromClient)
  | misc m =>
    cases m with
    | closeReason => exact hkeeps rfl (core_checkRemoveSession env w)
    | _ => exact hauthorized rfl rfl
  | _ => exact hauthorized rfl rfl

theorem onCmData_moves (env : Env) (w : World) (d : CmData) (hstarted : w.conn.cmStarted = true) :
    Moves w (.cm env d) (onCmData env w d).1.core := by
  have hkeeps (henters : w.enters (.cm env d) = false)
      (h : (onCmData env w d).1.core = w.core) :
      Moves w (.cm env d) (onCmData env w d).1.core := by
    rw [h]
    exact .keeps _ henters
  cases d with
  | authorize =>
    obtain ⟨w1, w', b, hlogon, hconn, hcore, hres, -⟩ := onCmAuthorize_cases env w
    rw [hres]
    exact .authorize env hstarted w1 w' b hlogon hconn hcore
  | switchPermission name enabled => exact hkeeps rfl (core_onSwitchPermission env w name enabled)
  | voiceCallResponse accepted => exact hkeeps rfl (core_handleVoiceCall w accepted)
  | closeVoiceCall => exact hkeeps rfl (core_closeVoiceCall w)
  | close | other => exact hkeeps rfl rfl

theorem step_moves (w : World) (ev : Event) : Moves w ev (step w ev).core := by
  cases hended : w.ended with
  | true =>
    rw [step_of_ended hended]
    refine .keeps ev ?_
    unfold enters
    rw [hended]
    split <;> rfl
  | false =>
    cases ev with
    | message env m =>
      rw [core_step_message hended]
      exact onMessage_moves env w m
    | cm env d =>
      unfold step
      rw [if_neg (by simp [hended])]
      cases hstarted : w.conn.cmStarted with
      | true => exact onCmData_moves env w d hstarted
      | false =>
        refine .keeps _ ?_
        cases d with
        | authorize =>
          show (!w.ended && w.conn.cmStarted) = false
          rw [hstarted, Bool.and_false]
        | _ => rfl
    | testDelayTimer =>
      have hcore : (step w .testDelayTimer).core = w.core := by
        unfold step
        rw [if_neg (by simp [hended])]
        exact core_onTestDelayTimer w
      rw [hcore]
      exact .keeps _ rfl
    | others shared services =>
      have hcore : (step w (.others shared services)).core = w.core := by
        unfold step
        rw [if_neg (by simp [hended])]
        rfl
      rw [hcore]
      exact .keeps _ rfl

theorem door_logon {env : Env} {w w' : World} {b : Bool} (h : Logon env w (w', b)) :
    w'.core.door = w.core.door ∨ ∃ c : Core, w'.core.door = c.authorize.door := by
  cases h with
  | again _ _ hcore => exact Or.inl (congrArg Core.door hcore)
  | waits _ _ _ hcore => exact Or.inl (congrArg Core.door hcore)
  | closes _ _ _ _ _ hcore => exact Or.inl (by rw [hcore]; rfl)
  | authorizes _ _ _ _ _ _ hcore => exact Or.inr ⟨_, congrArg Core.door hcore⟩

theorem door_step (w : World) (ev : Event) :
    (step w ev).core.door = w.core.door ∨ ∃ c : Core, (step w ev).core.door = c.authorize.door := by
  have hlogon {env : Env} {w1 w' : World} {b : Bool} (h : Logon env w1 (w', b))
      (hdoor : w1.core.door = w.core.door) :
      w'.core.door = w.core.door ∨ ∃ c : Core, w'.core.door = c.authorize.door := by
    rw [← hdoor]
    exact door_logon h
  have hmoves := step_moves w ev
  generalize (step w ev).core = c at hmoves ⊢
  cases hmoves with
  | keeps => exact Or.inl rfl
  | login env lr r h =>
    cases h with
    | again _ _ hcore => exact Or.inl (by rw [hcore, Core.door_present])
    | refused _ _ _ hcore => exact Or.inl (by rw [hcore, Core.door_present])
    | offline _ _ _ hcore => exact Or.inl (by rw [hcore, Core.door_ask, Core.door_present])
    | waits _ _ _ hcore =>
      exact Or.inl (by rw [hcore, Core.door_startCm, Core.door_ask, Core.door_present])
    | unready _ _ _ hcore =>
      exact Or.inl (by
        rw [hcore, Core.door_letIn, Core.door_startCm, Core.door_ask, Core.door_present])
    | logs _ r _ _ _ hcore _ h =>
      exact hlogon h (by
        rw [hcore, Core.door_letIn, Core.door_startCm, Core.door_ask, Core.door_present])
  | code env code hwid r h =>
    cases h with
    | wrong _ _ hcore => exact Or.inl (by rw [hcore])
    | right _ r _ _ hcore h => exact hlogon h (by rw [hcore]; rfl)
  | switchSides env uuid lr r h =>
    cases h with
    | none => exact Or.inl rfl
    | unknown lr _ _ hcore => exact Or.inl (by rw [hcore, Core.door_present])
    | valid lr w1 w2 w' b _ _ hcore h hstart =>
      have hdoor : w'.core.door = w2.core.door := by
        rw [hstart]
        cases b <;> rfl
      rw [hdoor]
      refine hlogon h ?_
      rw [hcore, Core.door_validates]
      exact Core.door_present env lr w.core
  | authorize env _ w1 w' b h _ hcore =>
    refine hlogon h ?_
    rw [hcore, Core.door_validates]
    rfl

end World

end LibRustdesk.Desktop
