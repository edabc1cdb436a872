import LibRustdesk.Server.Moves

/-!
# Both factors of a connection

On a host with two-factor authentication, what has to be shown before a connection is authorized:
`Proved` of its history. `Sound` is what keeps the history true to the connection: a second factor
that is not asked for any more was shown.

* `Sound.logon` and `proved_logon` — through `send_logon_response_and_keep_alive`.
* `proved_step_iff` — one step, exactly: only a code can authorize without the first factor.
* `authorized_proved_iff` — whole runs.

`Auth2fa` does not ask whether a login was accepted, so a right code authorizes a connection that
has shown no password (`code_alone_authorizes`).
-/

namespace LibRustdesk.Desktop

/-- The connection manager or switched sides stand for the first factor. -/
def History.LetIn (h : History) : Prop :=
  h.accepted = true ∨ h.authorize = true ∨ h.switchedSides = true

/-- What has to be shown before a connection with a second factor is authorized. -/
def History.Proved (h : History) : Prop :=
  h.authorize = true ∨ h.switchedSides = true ∨
    h.accepted = true ∧ (h.code = true ∨ h.trustedDevice = true ∨ h.recentSession2fa = true)

namespace Core

/-- The second factor is gone for a reason, and sides are switched with a uuid. -/
structure Sound (c : Core) : Prop where
  second : c.require2fa = none →
    c.history.authorize = true ∨ c.history.code = true ∨ c.history.trustedDevice = true
  switched : c.fromSwitch = true → c.history.switchedSides = true

section

variable {c : Core}

theorem Sound.present (h : c.Sound) (env : Env) (lr : LoginRequest) : (c.present env lr).Sound := by
  unfold Core.present
  split
  · exact ⟨fun _ => Or.inr (Or.inr rfl), h.switched⟩
  · exact ⟨h.second, h.switched⟩

theorem Sound.ask (h : c.Sound) (lr : LoginRequest) : (c.ask lr).Sound := by
  obtain ⟨_, _, _, heq⟩ := setFlag_eq lr c
  rw [Core.ask, heq]
  exact ⟨h.second, h.switched⟩

theorem Sound.startCm (h : c.Sound) : c.startCm.Sound := ⟨h.second, h.switched⟩

theorem Sound.validates (h : c.Sound) (lr : LoginRequest) : (c.validates lr).Sound := by
  unfold Core.validates
  split
  · exact h
  · exact ⟨h.second, h.switched⟩

theorem Sound.letIn (h : c.Sound) (lr : LoginRequest) : (c.letIn lr).Sound :=
  Sound.validates (c := { c with history := { c.history with accepted := true } })
    ⟨h.second, h.switched⟩ lr

theorem history_letIn (lr : LoginRequest) : (c.letIn lr).history.LetIn := by
  unfold Core.letIn Core.validates
  split <;> exact Or.inl rfl

theorem Sound.proved (h : c.Sound) (hlet : c.history.LetIn)
    (hsecond : c.require2fa = none ∨ c.fromSwitch = true) : c.history.Proved := by
  rcases hsecond with hnone | hswitch
  · rcases h.second hnone with hauthorize | hcode | htrusted
    · exact Or.inl hauthorize
    · rcases hlet with haccepted | hauthorize | hswitched
      · exact Or.inr (Or.inr ⟨haccepted, Or.inl hcode⟩)
      · exact Or.inl hauthorize
      · exact Or.inr (Or.inl hswitched)
    · rcases hlet with haccepted | hauthorize | hswitched
      · exact Or.inr (Or.inr ⟨haccepted, Or.inr (Or.inl htrusted)⟩)
      · exact Or.inl hauthorize
      · exact Or.inr (Or.inl hswitched)
  · exact Or.inr (Or.inl (h.switched hswitch))

end

end Core

/-! ### Through `send_logon_response_and_keep_alive` -/

namespace World

section

variable {env : Env} {w w' : World} {b : Bool}

theorem Sound.logon (h : Logon env w (w', b)) (hsound : w.core.Sound) : w'.core.Sound := by
  have hpassed {history : History} (hpass : w.Passes2fa history) :
      ({ w.core with history := history } : Core).Sound := by
    rcases hpass with ⟨-, rfl⟩ | rfl
    · exact hsound
    · exact ⟨hsound.second, hsound.switched⟩
  cases h with
  | again _ _ hcore => exact hcore ▸ hsound
  | waits _ _ _ hcore => exact hcore ▸ hsound
  | closes _ history _ _ hpass hcore => exact hcore ▸ hpassed hpass
  | authorizes _ history _ _ _ hpass hcore =>
    have h := hpassed hpass
    rw [hcore]
    exact ⟨h.second, h.switched⟩

theorem proved_logon (h : Logon env w (w', b)) (hsound : w.core.Sound)
    (hlet : w.conn.authorized = false → w.conn.canBeAuthorized env = true →
      w.core.history.LetIn)
    (hproved : w.core.authorized = true → w.core.history.Proved) :
    w'.core.authorized = true → w'.core.history.Proved := by
  cases h with
  | again _ _ hcore => rwa [hcore]
  | waits _ _ _ hcore => rwa [hcore]
  | closes _ history hauth _ _ hcore =>
    intro h
    rw [hcore] at h
    exact absurd (hauth.symm.trans h) Bool.false_ne_true
  | authorizes _ history hauth _ hcan hpass hcore =>
    intro _
    have hlet := hlet hauth hcan
    rw [hcore]
    rcases hpass with ⟨hsecond, rfl⟩ | rfl
    · exact hsound.proved hlet hsecond
    · -- A recent session stands for the second factor only.
      rcases hlet with haccepted | hauthorize | hswitched
      · exact Or.inr (Or.inr ⟨haccepted, Or.inr (Or.inr rfl)⟩)
      · exact Or.inl hauthorize
      · exact Or.inr (Or.inl hswitched)

end

/-! ### One step -/

theorem sound_step {w : World} (h : w.core.Sound) (ev : Event) : (step w ev).core.Sound := by
  have hmoves := step_moves w ev
  generalize (step w ev).core = c at hmoves ⊢
  cases hmoves with
  | keeps => exact h
  | login env lr r hlogin =>
    cases hlogin with
    | again _ _ hcore => exact hcore ▸ h.present env lr
    | refused _ _ _ hcore => exact hcore ▸ h.present env lr
    | offline _ _ _ hcore => exact hcore ▸ (h.present env lr).ask lr
    | waits _ _ _ hcore => exact hcore ▸ ((h.present env lr).ask lr).startCm
    | unready _ _ _ hcore => exact hcore ▸ (((h.present env lr).ask lr).startCm).letIn lr
    | logs w1 _ _ _ _ hcore _ hlogon =>
      exact Sound.logon hlogon (hcore ▸ (((h.present env lr).ask lr).startCm).letIn lr)
  | code env code hwid r hcode =>
    cases hcode with
    | wrong _ _ hcore => exact hcore ▸ h
    | right w1 _ _ _ hcore hlogon =>
      refine Sound.logon hlogon ?_
      rw [hcore]
      exact ⟨fun _ => Or.inr (Or.inl rfl), h.switched⟩
  | switchSides env uuid lr r hswitch =>
    cases hswitch with
    | none => exact h
    | unknown lr _ _ hcore => exact hcore ▸ h.present env lr
    | valid lr w1 w2 w' b _ _ hcore hlogon hstart =>
      have hsound : w1.core.Sound := by
        rw [hcore]
        refine Core.Sound.validates ?_ lr
        exact ⟨(h.present env lr).second, fun _ => rfl⟩
      have hsound2 := Sound.logon hlogon hsound
      rw [hstart]
      cases b with
      | false => exact hsound2
      | true => exact hsound2.startCm
  | authorize env _ w1 w' b hlogon _ hcore =>
    refine Sound.logon hlogon ?_
    rw [hcore]
    refine Core.Sound.validates ?_ _
    exact ⟨fun _ => Or.inl rfl, h.switched⟩

theorem proved_present {c : Core} (h : c.history.Proved) (env : Env) (lr : LoginRequest) :
    (c.present env lr).history.Proved := by
  unfold Core.present
  split
  · rcases h with hauthorize | hswitched | ⟨haccepted, -⟩
    · exact Or.inl hauthorize
    · exact Or.inr (Or.inl hswitched)
    · exact Or.inr (Or.inr ⟨haccepted, Or.inr (Or.inl rfl)⟩)
  · exact h

theorem proved_code {h : History} (hproved : h.Proved) :
    ({ h with code := true } : History).Proved := by
  rcases hproved with hauthorize | hswitched | ⟨haccepted, -⟩
  · exact Or.inl hauthorize
  · exact Or.inr (Or.inl hswitched)
  · exact Or.inr (Or.inr ⟨haccepted, Or.inl rfl⟩)

/-- A code that authorizes comes after the first factor. -/
def CodeAfterLogin (w : World) (ev : Event) : Prop :=
  ∀ env code hwid, ev = .message env (.auth2fa code hwid) → w.ended = false →
    w.conn.authorized = false → w.provesCode env code → w.conn.canBeAuthorized env = true →
    w.history.LetIn

theorem proved_step {w : World} (hsound : w.core.Sound)
    (hproved : w.core.authorized = true → w.core.history.Proved) {ev : Event}
    (hcond : CodeAfterLogin w ev) (hended : w.ended = false) :
    (step w ev).core.authorized = true → (step w ev).core.history.Proved := by
  have hmoves := step_moves w ev
  generalize (step w ev).core = c at hmoves ⊢
  cases hmoves with
  | keeps => exact hproved
  | login env lr r hlogin =>
    have hpresent (h : (w.core.present env lr).authorized = true) :
        (w.core.present env lr).history.Proved := by
      rw [Core.authorized_present] at h
      exact proved_present (hproved h) env lr
    cases hlogin with
    | again _ _ hcore => exact hcore ▸ hpresent
    | refused _ _ _ hcore => exact hcore ▸ hpresent
    | offline _ hauth _ hcore =>
      intro h
      rw [hcore, Core.authorized_ask, Core.authorized_present] at h
      exact absurd (hauth.symm.trans h) Bool.false_ne_true
    | waits _ hauth _ hcore =>
      intro h
      rw [hcore, Core.authorized_startCm, Core.authorized_ask, Core.authorized_present] at h
      exact absurd (hauth.symm.trans h) Bool.false_ne_true
    | unready _ hauth _ hcore =>
      intro h
      rw [hcore, Core.authorized_letIn, Core.authorized_startCm, Core.authorized_ask,
        Core.authorized_present] at h
      exact absurd (hauth.symm.trans h) Bool.false_ne_true
    | logs w1 _ hauth _ _ hcore _ hlogon =>
      have hsound1 : w1.core.Sound := by
        rw [hcore]
        exact (((hsound.present env lr).ask lr).startCm).letIn lr
      refine proved_logon hlogon hsound1 (fun _ _ => ?_) fun h => ?_
      · rw [hcore]
        exact Core.history_letIn lr
      · rw [hcore, Core.authorized_letIn, Core.authorized_startCm, Core.authorized_ask,
          Core.authorized_present] at h
        exact absurd (hauth.symm.trans h) Bool.false_ne_true
  | code env code hwid r hcode =>
    cases hcode with
    | wrong _ _ hcore => exact hcore ▸ hproved
    | right w1 _ hproves hconn hcore hlogon =>
      have hsound1 : w1.core.Sound := by
        rw [hcore]
        exact ⟨fun _ => Or.inr (Or.inl rfl), hsound.switched⟩
      refine proved_logon hlogon hsound1 (fun hauth hcan => ?_) fun h => ?_
      · rw [hconn] at hauth hcan
        have hlet := hcond env code hwid rfl hended hauth hproves hcan
        rw [hcore]
        exact hlet
      · rw [hcore] at h ⊢
        exact proved_code (hproved h)
  | switchSides env uuid lr r hswitch =>
    cases hswitch with
    | none => exact hproved
    | unknown lr _ _ hcore =>
      intro h
      rw [hcore] at h ⊢
      rw [Core.authorized_present] at h
      exact proved_present (hproved h) env lr
    | valid lr w1 w2 w' b _ _ hcore hlogon hstart =>
      have hsound1 : w1.core.Sound := by
        rw [hcore]
        refine Core.Sound.validates ?_ lr
        exact ⟨(hsound.present env lr).second, fun _ => rfl⟩
      have hswitched : w1.core.history.switchedSides = true := by
        rw [hcore]
        unfold Core.validates
        split <;> rfl
      have h2 := proved_logon hlogon hsound1 (fun _ _ => Or.inr (Or.inr hswitched))
        fun _ => Or.inr (Or.inl hswitched)
      rw [hstart]
      cases b with
      | false => exact h2
      | true => exact h2
  | authorize env _ w1 w' b hlogon _ hcore =>
    have hsound1 : w1.core.Sound := by
      rw [hcore]
      refine Core.Sound.validates ?_ _
      exact ⟨fun _ => Or.inl rfl, hsound.switched⟩
    have hauthorize : w1.core.history.authorize = true := by
      rw [hcore]
      unfold Core.validates
      split <;> rfl
    exact proved_logon hlogon hsound1 (fun _ _ => Or.inr (Or.inl hauthorize))
      fun _ => Or.inl hauthorize

theorem letIn_of_proved_code {w : World} {env : Env} {code : Text} {hwid : Bytes}
    (hended : w.ended = false) (hauth : w.conn.authorized = false)
    (hproves : w.provesCode env code) (hcan : w.conn.canBeAuthorized env = true)
    (hnext : (step w (.message env (.auth2fa code hwid))).core.authorized = true →
      (step w (.message env (.auth2fa code hwid))).core.history.Proved) :
    w.history.LetIn := by
  have hcode := onAuth2fa_cases env w code hwid
  have hcore := core_step_message hended env (.auth2fa code hwid)
  change _ = (onAuth2fa env w code hwid).1.core at hcore
  rw [hcore] at hnext
  generalize onAuth2fa env w code hwid = r at hcode hnext
  cases hcode with
  | wrong _ hwrong _ => exact absurd hproves hwrong
  | right w1 _ _ hconn hcore1 hlogon =>
    cases hlogon with
    | again _ hagain _ =>
      rw [hconn] at hagain
      exact absurd (hauth.symm.trans hagain) Bool.false_ne_true
    | waits _ _ hwaits _ =>
      -- No second factor is left to wait for.
      unfold passes2fa at hwaits
      rw [hconn] at hwaits
      exact absurd hwaits (by simp)
    | closes _ _ _ hcannot _ _ =>
      rw [hconn] at hcannot
      exact absurd (hcannot.symm.trans hcan) Bool.false_ne_true
    | authorizes w2 history _ _ _ hpass hcore2 =>
      have hproved : history.Proved := by
        have h := hnext (by rw [hcore2]; rfl)
        rw [hcore2] at h
        exact h
      have hhistory : w1.history = { w.history with code := true } :=
        congrArg Core.history hcore1
      have hlet : w1.history.LetIn := by
        rcases hpass with ⟨-, rfl⟩ | rfl
        · rcases hproved with hauthorize | hswitched | ⟨haccepted, -⟩
          · exact Or.inr (Or.inl hauthorize)
          · exact Or.inr (Or.inr hswitched)
          · exact Or.inl haccepted
        · rcases hproved with hauthorize | hswitched | ⟨haccepted, -⟩
          · exact Or.inr (Or.inl hauthorize)
          · exact Or.inr (Or.inr hswitched)
          · exact Or.inl haccepted
      rw [hhistory] at hlet
      exact hlet

theorem proved_step_iff {w : World} (hsound : w.core.Sound)
    (hproved : w.core.authorized = true → w.core.history.Proved) (ev : Event) :
    ((step w ev).core.authorized = true → (step w ev).core.history.Proved) ↔
      CodeAfterLogin w ev := by
  constructor
  · rintro hnext env code hwid rfl hended hauth hproves hcan
    exact letIn_of_proved_code hended hauth hproves hcan hnext
  · intro hcond
    cases hended : w.ended with
    | true => rwa [step_of_ended hended]
    | false => exact proved_step hsound hproved hcond hended

end World

/-- **Both factors.** On a host with a second factor, every state of a run that is authorized has
been shown what it has to be exactly when each code that authorizes in it comes after the first
factor. -/
theorem authorized_proved_iff (s : Opening) (h2fa : s.require2fa ≠ none) (es : List Event) :
    (∀ pre, pre <+: es → (connection.run (World.start s) pre).conn.authorized = true →
      (connection.run (World.start s) pre).history.Proved) ↔
    connection.Meets World.CodeAfterLogin (World.start s) es := by
  refine Machine.meets_iff_inv (M := connection)
    (I := fun w => w.core.authorized = true → w.core.history.Proved)
    (J := fun w => w.core.Sound) ?_ ?_ ?_ ?_
  · exact nofun
  · exact ⟨fun h => absurd h h2fa, nofun⟩
  · exact fun w ev h => World.sound_step h ev
  · exact fun w ev hsound hproved => World.proved_step_iff hsound hproved ev

def codeAlone : List Event := [.message Env.plain (.auth2fa "123456".toList [])]

/-- A right code authorizes a connection that has shown no password. -/
theorem code_alone_authorizes :
    ¬∀ (s : Opening), s.require2fa ≠ none → ∀ es,
      (connection.run (World.start s) es).conn.authorized = true →
        (connection.run (World.start s) es).history.Proved := by
  intro h
  have hproved := h Opening.plain nofun codeAlone (by decide +kernel)
  revert hproved
  unfold History.Proved
  decide +kernel

/-- That code is none that comes after the first factor. -/
theorem authorized_proved_iff_codeAlone :
    ¬connection.Meets World.CodeAfterLogin (World.start Opening.plain) codeAlone := by
  intro h
  have hproved := (authorized_proved_iff Opening.plain nofun codeAlone).mpr h codeAlone
    List.prefix_rfl (by decide +kernel)
  revert hproved
  unfold History.Proved
  decide +kernel

end LibRustdesk.Desktop
