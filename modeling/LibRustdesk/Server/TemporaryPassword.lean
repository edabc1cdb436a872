import LibRustdesk.Server.Moves

/-!
# Guessing the temporary password

`check_update_temporary_password` of `src/server/connection.rs`, with the logins that lead to it and
with `update_temporary_password` of `password_security.rs`.

The temporary password is replaced after ten wrong logins in a row. The counter is kept apart from
the password: it remembers the value it counts for, and starts again when it finds another one. A
login is validated first and counted after that, so that other connections may come in between, and
the password may be replaced. It is also replaced when an authorized connection ends, and by the
user.

A state is what the connections share (`State`). An event is the credential of one login
(`World.loginCredential`, in the world of its connection), the counting that follows it, a
replacement, or whatever else is done to the tables that are shared. Whether a value that is drawn
is the old one again is left open.

* `Verdict` — what a login comes to. A recent session is looked at before the failures of the
  address are: a login that is refused for these may have been compared with the password.
* `tally`, `streak` — the wrong logins in a row that were compared with the current value.
* `Protected` — **no value is compared with more than ten wrong logins in a row, and each success
  and each replacement starts the count again.**
* `Regular` — the steps that keep to this: no login is validated while another is to be counted; a
  recent session that has the current value is counted like any other login; what is drawn is not
  the value that the counter remembers.
* `protected_of_regular` — along every run of such steps the password is protected.
-/

namespace LibRustdesk.Desktop.TemporaryPassword

open Ohos (asBytes)

/-! ### The counter -/

def maxConsecutiveFailures : ℕ := 10

/-- What `get_auto_password` returns: as many characters as `temporary_password_length` says. -/
abbrev AutoPassword := {p : Text // p.length = 6 ∨ p.length = 8 ∨ p.length = 10}

/-- The `State` of `TEMPORARY_PASSWORD_FAILURES`. -/
structure Failures where
  password : Text
  failures : ℕ
  deriving DecidableEq, Repr

structure Validated where
  conn : ℕ
  /-- It was the temporary password. -/
  success : Bool
  /-- `temporary_enabled()` when it was validated. -/
  enabled : Bool
  deriving DecidableEq, Repr

structure State where
  /-- `TEMPORARY_PASSWORD`. -/
  temporaryPassword : Text
  tracked : Failures
  shared : Shared
  inFlight : List Validated

namespace State

def start (p : AutoPassword) (shared : Shared) : State := ⟨p.val, ⟨[], 0⟩, shared, []⟩

def updateTemporaryPassword (s : State) (drawn : AutoPassword) : State :=
  { s with temporaryPassword := drawn.val }

/-- `check_update_temporary_password`, under the lock of the counter. -/
def checkUpdateTemporaryPassword (s : State) (enabled success : Bool) (drawn : AutoPassword) :
    State :=
  if !enabled then s
  else if s.temporaryPassword = [] then s
  else
    let tracked : Failures :=
      if s.tracked.password ≠ s.temporaryPassword then ⟨s.temporaryPassword, 0⟩ else s.tracked
    if success then { s with tracked := { tracked with failures := 0 } }
    else
      let tracked := { tracked with failures := tracked.failures + 1 }
      if tracked.failures < maxConsecutiveFailures then { s with tracked := tracked }
      else
        let s := s.updateTemporaryPassword drawn
        { s with tracked := ⟨s.temporaryPassword, 0⟩ }

def failures (s : State) : ℕ :=
  if s.tracked.password = s.temporaryPassword then s.tracked.failures else 0

/-- What a login finds: the current value, and the tables that are shared. -/
def env (s : State) (env : Env) : Env :=
  { env with config := { env.config with temporaryPassword := s.temporaryPassword } }

def world (s : State) (w : World) : World := { w with shared := s.shared }

end State

/-! ### Logins -/

inductive Verdict
  /-- It is to be approved by click. -/
  | click
  /-- `is_recent_session`. -/
  | recent
  /-- There is no password. -/
  | empty
  /-- `check_failure` refuses it. -/
  | refused
  | temporary
  | permanent
  | wrong
  deriving DecidableEq, Repr

/-- The branch that `World.loginCredential` takes. -/
def verdict (env : Env) (w : World) : Verdict :=
  let allowLogonScreenPassword :=
    env.builtin "allow-logon-screen-password".toList = ['Y'] && env.isLogon
  let approveMode := env.config.approveMode
  if approveMode = .click && !allowLogonScreenPassword ||
      approveMode = .both && !hasValidPassword env.crypto env.config then .click
  else
    match World.isRecentSession env w false with
    | (_, true) => .recent
    | (w, false) =>
      if w.conn.lr.password = [] then .empty
      else
        match World.checkFailure env w 0 with
        | (_, none) => .refused
        | (w, some _) =>
          match World.validatePassword env w allowLogonScreenPassword with
          | (_, true) =>
            if env.config.temporaryEnabled && validatePasswordPlain env.crypto w.conn.hash w.conn.lr
                env.config.temporaryPassword then .temporary
            else .permanent
          | (_, false) => .wrong

def Verdict.accepts : Verdict → Bool
  | recent => true
  | temporary => true
  | permanent => true
  | _ => false

/-- The password of the session that a login belongs to, where it is recent. -/
def recentPassword (env : Env) (w : World) : Option Text :=
  (w.sessionOf env).map Session.randomPassword

inductive Event
  /-- Connection `c` looks at the credential of a login; `w` is its own part of the world. -/
  | login (c : ℕ) (env : Env) (w : World) (errMsg : Text)
  /-- It goes on to `check_update_temporary_password`. -/
  | count (c : ℕ) (enabled : Bool) (drawn : AutoPassword)
  /-- The user, or the end of an authorized connection. -/
  | rotate (drawn : AutoPassword)
  /-- The tables change in another way. -/
  | share (shared : Shared)

def Verdict.validated (c : ℕ) (enabled : Bool) : Verdict → List Validated
  | temporary => [⟨c, true, enabled⟩]
  | wrong => [⟨c, false, enabled⟩]
  | _ => []

namespace State

variable (s : State)

/-- The login that a connection is to count. A connection handles one message at a time. -/
def pending (c : ℕ) : Option Validated := s.inFlight.find? fun v => v.conn = c

def login (c : ℕ) (env : Env) (w : World) (errMsg : Text) : State :=
  match s.pending c with
  | some _ => s
  | none =>
    { s with
      shared := (World.loginCredential (s.env env) (s.world w) w.conn.lr errMsg).1.shared
      inFlight := s.inFlight ++
        (verdict (s.env env) (s.world w)).validated c env.config.temporaryEnabled }

def count (c : ℕ) (enabled : Bool) (drawn : AutoPassword) : State :=
  match s.pending c with
  | none => s
  | some v =>
    let s := s.checkUpdateTemporaryPassword enabled v.success drawn
    { s with inFlight := s.inFlight.filter fun v => v.conn ≠ c }

def step (s : State) : Event → State × List Verdict
  | .login c env w errMsg => (s.login c env w errMsg, [verdict (s.env env) (s.world w)])
  | .count c enabled drawn => (s.count c enabled drawn, [])
  | .rotate drawn => (s.updateTemporaryPassword drawn, [])
  | .share shared => ({ s with shared := shared }, [])

end State

def connections : Machine State Event Verdict := ⟨State.step⟩

/-! ### What is promised -/

section Promise

variable (s : State)

def recentIsCurrent (env : Env) (w : World) : Bool :=
  recentPassword env (s.world w) = some s.temporaryPassword

/-- The wrong logins in a row, after one more that came to `v`. -/
def tallyLogin (env : Env) (w : World) (k : ℕ) : Verdict → ℕ
  | .recent => if recentIsCurrent s env w then 0 else k
  | .temporary => 0
  | .refused => if recentIsCurrent s env w then k + 1 else k
  | .wrong => if env.config.temporaryEnabled || recentIsCurrent s env w then k + 1 else k
  | _ => k

/-- The count of connection `c` makes the counter replace the password. -/
def replaces (c : ℕ) (enabled : Bool) : Bool :=
  match s.pending c with
  | some v => enabled && !v.success && s.temporaryPassword ≠ [] &&
      maxConsecutiveFailures ≤ s.failures + 1
  | none => false

/-- The wrong logins in a row that were compared with the current value. -/
def tally (k : ℕ) (p : State × Event) : ℕ :=
  match p.2 with
  | .login c env w _ =>
    if (p.1.pending c).isSome then k
    else tallyLogin p.1 env w k (verdict (p.1.env env) (p.1.world w))
  | .count c enabled _ => if replaces p.1 c enabled then 0 else k
  | .rotate _ => 0
  | .share _ => k

def streak (es : List Event) : ℕ := (connections.trace s es).foldl tally 0

/-- The password is replaced in this step, or a success with it is complete. -/
def Restarts : Event → Prop
  | .login c env w _ => s.pending c = none ∧ verdict (s.env env) (s.world w) = .recent ∧
      recentIsCurrent s env w = true
  | .count c enabled _ => replaces s c enabled = true ∨
      ∃ v, s.pending c = some v ∧ v.success = true
  | .rotate _ => True
  | .share _ => False

structure Protected (es : List Event) : Prop where
  bounded : ∀ pre, pre <+: es → streak s pre ≤ maxConsecutiveFailures
  restarts : ∀ p ∈ connections.trace s es, Restarts p.1 p.2 →
    (connections.next p.1 p.2).failures = 0

/-- What is asked of a login in a recent session that has the current value: a success finds
nothing to clear, and what is wrong goes on to be counted. -/
def recentIsCounted (env : Env) : Verdict → Bool
  | .recent => s.failures = 0
  | .refused => false
  | .wrong => env.config.temporaryEnabled
  | _ => true

def Regular : Event → Prop
  | .login _ env w _ => s.inFlight = [] ∧ (recentIsCurrent s env w = true →
      recentIsCounted s env (verdict (s.env env) (s.world w)) = true)
  -- the method is as it was when the login was validated
  | .count c enabled _ => (s.pending c).all (fun v => v.enabled = enabled) = true
  | .rotate drawn => drawn.val = s.tracked.password → s.tracked.failures = 0
  | .share _ => True

instance (s : State) (e : Event) : Decidable (Regular s e) :=
  match e with
  | .login _ _ _ _ => inferInstanceAs (Decidable (_ ∧ (_ → _)))
  | .count _ _ _ => inferInstanceAs (Decidable (_ = _))
  | .rotate _ => inferInstanceAs (Decidable (_ → _))
  | .share _ => inferInstanceAs (Decidable True)

end Promise

/-! ### What a verdict says -/

theorem accepts_verdict (env : Env) (w : World) : (verdict env w).accepts = w.accepts env := by
  unfold verdict World.accepts
  dsimp only
  split
  · next hclick =>
    rw [hclick]
    rfl
  · next happrove =>
    rw [eq_false_of_ne_true happrove, Bool.not_false, Bool.true_and]
    obtain ⟨shared, hfst⟩ := World.isRecentSession_fst env w false
    cases hrecent : World.isRecentSession env w false with
    | mk w₁ recent =>
      rw [hrecent] at hfst
      cases recent with
      | true => rfl
      | false =>
        dsimp only at hfst ⊢
        have hconn : w₁.conn = w.conn := by rw [hfst]
        have hfailures : w₁.shared.failures = w.shared.failures := by
          have hkept : (World.isRecentSession env w false).1.shared.failures =
              w.shared.failures := by
            unfold World.isRecentSession
            dsimp only
            split <;> rfl
          rw [hrecent] at hkept
          exact hkept
        have hconn₂ : (World.checkFailure env w₁ 0).1.conn = w.conn := by
          unfold World.checkFailure
          split <;> exact hconn
        rw [Bool.false_or, hconn, ← World.checkFailure_snd_congr env hconn hfailures 0]
        by_cases hempty : w.conn.lr.password = []
        · rw [if_pos hempty, hempty]
          rfl
        · rw [if_neg hempty, decide_eq_true hempty, Bool.true_and]
          cases hcheck : World.checkFailure env w₁ 0 with
          | mk w₂ failure =>
            rw [hcheck] at hconn₂
            cases failure with
            | none => rfl
            | some failure =>
              dsimp only at hconn₂ ⊢
              rw [← World.validatePassword_snd_congr env hconn₂]
              cases hvalid : World.validatePassword env w₂
                  (env.builtin "allow-logon-screen-password".toList = ['Y'] && env.isLogon) with
              | mk w₃ valid =>
                cases valid with
                | true =>
                  -- which of the two passwords it was does not matter here
                  dsimp only
                  split <;> rfl
                | false => rfl

theorem enabled_of_temporary {env : Env} {w : World} (h : verdict env w = .temporary) :
    env.config.temporaryEnabled = true := by
  unfold verdict at h
  dsimp only at h
  split at h
  · cases h
  · split at h
    · cases h
    · split at h
      · cases h
      · split at h
        · cases h
        · split at h
          · split at h
            · next hmatches => exact (Bool.and_eq_true _ _ ▸ hmatches).1
            · cases h
          · cases h

/-! ### One count -/

section Count

variable (s : State)

theorem tracked_synced : (if s.tracked.password ≠ s.temporaryPassword then
    ⟨s.temporaryPassword, 0⟩ else s.tracked) = (⟨s.temporaryPassword, s.failures⟩ : Failures) := by
  unfold State.failures
  by_cases h : s.tracked.password = s.temporaryPassword
  · rw [if_neg (not_not.mpr h), if_pos h, ← h]
  · rw [if_pos h, if_neg h]

theorem failures_synced (shared : Shared) (inFlight : List Validated) (p : Text) (n : ℕ) :
    (⟨p, ⟨p, n⟩, shared, inFlight⟩ : State).failures = n := if_pos rfl

theorem failures_le : s.failures ≤ s.tracked.failures := by
  unfold State.failures
  split
  · exact le_rfl
  · exact Nat.zero_le _

variable {s} (hne : s.temporaryPassword ≠ [])

include hne

theorem checkUpdate_success (drawn : AutoPassword) :
    s.checkUpdateTemporaryPassword true true drawn =
      { s with tracked := ⟨s.temporaryPassword, 0⟩ } := by
  unfold State.checkUpdateTemporaryPassword
  rw [tracked_synced]
  rw [if_neg (by decide), if_neg hne, if_pos rfl]

theorem checkUpdate_wrong (drawn : AutoPassword) :
    s.checkUpdateTemporaryPassword true false drawn =
      if s.failures + 1 < maxConsecutiveFailures then
        { s with tracked := ⟨s.temporaryPassword, s.failures + 1⟩ }
      else { s with temporaryPassword := drawn.val, tracked := ⟨drawn.val, 0⟩ } := by
  unfold State.checkUpdateTemporaryPassword
  rw [tracked_synced]
  rw [if_neg (by decide), if_neg hne, if_neg (by decide)]
  rfl

end Count

/-! ### The invariant -/

/-- What the streak comes to, with what is still to be counted. -/
inductive Owed (s : State) (k : ℕ) : Prop
  | settled (h : s.inFlight = []) (hk : k ≤ s.failures)
  | success (c : ℕ) (h : s.inFlight = [⟨c, true, true⟩]) (hk : k = 0)
  | wrong (c : ℕ) (enabled : Bool) (h : s.inFlight = [⟨c, false, enabled⟩])
      (hk : k ≤ s.failures + enabled.toNat)

/-- The streak is counted: all of it, or all but one login that is still to be. -/
structure Inv (s : State) (k : ℕ) : Prop where
  ne_nil : s.temporaryPassword ≠ []
  tracked_lt : s.tracked.failures < maxConsecutiveFailures
  owed : Owed s k

theorem AutoPassword.ne_nil (p : AutoPassword) : p.val ≠ [] := by
  intro h
  have hlen := p.property
  rw [h] at hlen
  simp at hlen

theorem Inv.start (p : AutoPassword) (shared : Shared) : Inv (.start p shared) 0 where
  ne_nil := p.ne_nil
  tracked_lt := Nat.zero_lt_succ _
  owed := .settled rfl (Nat.zero_le _)

theorem Inv.streak_le {s : State} {k : ℕ} (h : Inv s k) : k ≤ maxConsecutiveFailures := by
  have hle := failures_le s
  have hlt := h.tracked_lt
  cases h.owed with
  | settled | success => omega
  | wrong _ enabled _ hk =>
    have hone := Bool.toNat_le enabled
    omega

variable {v : Validated}

theorem pending_singleton {s : State} (hflight : s.inFlight = [v]) (c : ℕ) :
    s.pending c = if v.conn = c then some v else none := by
  unfold State.pending
  rw [hflight, List.find?_singleton]
  simp

theorem replaces_wrong {s : State} {c : ℕ} {wasEnabled : Bool}
    (hv : s.pending c = some ⟨c, false, wasEnabled⟩) (hne : s.temporaryPassword ≠ [])
    (enabled : Bool) : replaces s c enabled =
      (enabled && decide (maxConsecutiveFailures ≤ s.failures + 1)) := by
  unfold replaces
  rw [hv]
  dsimp only
  rw [decide_eq_true hne, Bool.not_false, Bool.and_true, Bool.and_true]

theorem Owed.pending {s : State} {k c : ℕ} (h : Owed s k)
    (hv : s.pending c = some v) :
    (s.inFlight = [⟨c, true, true⟩] ∧ v = ⟨c, true, true⟩ ∧ k = 0) ∨
      ∃ enabled, s.inFlight = [⟨c, false, enabled⟩] ∧ v = ⟨c, false, enabled⟩ ∧
        k ≤ s.failures + enabled.toNat := by
  cases h with
  | settled hidle _ =>
    unfold State.pending at hv
    rw [hidle] at hv
    cases hv
  | success c' hflight hk =>
    rw [pending_singleton hflight] at hv
    split at hv
    · next hc =>
      change c' = c at hc
      rw [← hc]
      exact .inl ⟨hflight, (Option.some.inj hv).symm, hk⟩
    · cases hv
  | wrong c' enabled hflight hk =>
    rw [pending_singleton hflight] at hv
    split at hv
    · next hc =>
      change c' = c at hc
      rw [← hc]
      exact .inr ⟨enabled, hflight, (Option.some.inj hv).symm, hk⟩
    · cases hv

theorem checkUpdate_inFlight (s : State) (enabled success : Bool) (drawn : AutoPassword) :
    (s.checkUpdateTemporaryPassword enabled success drawn).inFlight = s.inFlight := by
  cases enabled with
  | false => rfl
  | true =>
    by_cases hnil : s.temporaryPassword = []
    · unfold State.checkUpdateTemporaryPassword
      rw [if_neg (by decide), if_pos hnil]
    · cases success with
      | true => rw [checkUpdate_success hnil]
      | false =>
        rw [checkUpdate_wrong hnil]
        split <;> rfl

theorem count_singleton {s : State} (hflight : s.inFlight = [v]) (enabled : Bool)
    (drawn : AutoPassword) : s.count v.conn enabled drawn =
      { s.checkUpdateTemporaryPassword enabled v.success drawn with inFlight := [] } := by
  have hpending : s.pending v.conn = some v := by
    rw [pending_singleton hflight, if_pos rfl]
  unfold State.count
  rw [hpending]
  dsimp only
  rw [checkUpdate_inFlight, hflight, List.filter_singleton]
  simp

theorem owed_login {s : State} {k : ℕ} (hk : k ≤ s.failures) (c : ℕ) (env : Env) (w : World)
    (shared : Shared) {v : Verdict} (hv : v = .temporary → env.config.temporaryEnabled = true)
    (hcounted : recentIsCurrent s env w = true → recentIsCounted s env v = true) :
    Owed { s with shared := shared, inFlight := v.validated c env.config.temporaryEnabled }
      (tallyLogin s env w k v) := by
  cases v with
  | click | empty | permanent => exact .settled rfl hk
  | recent =>
    refine .settled rfl ?_
    show (if recentIsCurrent s env w = true then 0 else k) ≤ s.failures
    split
    · exact Nat.zero_le _
    · exact hk
  | refused =>
    refine .settled rfl ?_
    -- one that has the current value would be compared and never counted
    have hother : ¬ recentIsCurrent s env w = true :=
      fun hcurrent => Bool.false_ne_true (hcounted hcurrent)
    show (if recentIsCurrent s env w = true then k + 1 else k) ≤ s.failures
    rw [if_neg hother]
    exact hk
  | temporary =>
    refine .success c ?_ rfl
    show [(⟨c, true, env.config.temporaryEnabled⟩ : Validated)] = _
    rw [hv rfl]
  | wrong =>
    refine .wrong c env.config.temporaryEnabled rfl ?_
    show (if (env.config.temporaryEnabled || recentIsCurrent s env w) = true then k + 1 else k) ≤
      s.failures + env.config.temporaryEnabled.toNat
    cases henabled : env.config.temporaryEnabled with
    | true =>
      rw [Bool.true_or, if_pos rfl]
      exact Nat.succ_le_succ hk
    | false =>
      have hother : ¬ recentIsCurrent s env w = true :=
        fun hcurrent => Bool.false_ne_true (henabled.symm.trans (hcounted hcurrent))
      rw [Bool.false_or, if_neg hother]
      exact hk

section Step

variable {s : State} {k : ℕ} (h : Inv s k)

include h

theorem Inv.login {c : ℕ} {env : Env} {w : World} {errMsg : Text}
    (hreg : Regular s (.login c env w errMsg)) :
    Inv (s.login c env w errMsg) (tally k (s, .login c env w errMsg)) := by
  obtain ⟨hidle, hcounted⟩ := hreg
  have hpending : s.pending c = none := by
    unfold State.pending
    rw [hidle]
    rfl
  have hk : k ≤ s.failures := by
    cases h.owed with
    | settled _ hk => exact hk
    | success _ hfull _ => exact absurd (hidle.symm.trans hfull) (List.cons_ne_nil _ _).symm
    | wrong _ _ hfull _ => exact absurd (hidle.symm.trans hfull) (List.cons_ne_nil _ _).symm
  have htally : tally k (s, .login c env w errMsg) =
      tallyLogin s env w k (verdict (s.env env) (s.world w)) := by
    show (if (s.pending c).isSome = true then k else _) = _
    rw [hpending]
    rfl
  have hlogin : s.login c env w errMsg = { s with
      shared := (World.loginCredential (s.env env) (s.world w) w.conn.lr errMsg).1.shared
      inFlight := (verdict (s.env env) (s.world w)).validated c env.config.temporaryEnabled } := by
    unfold State.login
    rw [hpending, hidle]
    rfl
  rw [hlogin, htally]
  exact ⟨h.ne_nil, h.tracked_lt, owed_login hk c env w _ enabled_of_temporary hcounted⟩

theorem Inv.count {c : ℕ} {enabled : Bool} {drawn : AutoPassword}
    (hreg : Regular s (.count c enabled drawn)) :
    Inv (s.count c enabled drawn) (tally k (s, .count c enabled drawn)) := by
  show Inv (s.count c enabled drawn) (if replaces s c enabled = true then 0 else k)
  change (s.pending c).all (fun v => v.enabled = enabled) = true at hreg
  cases hpending : s.pending c with
  | none =>
    have hcount : s.count c enabled drawn = s := by
      unfold State.count
      rw [hpending]
    have hstays : replaces s c enabled = false := by
      unfold replaces
      rw [hpending]
    rw [hcount, hstays, if_neg Bool.false_ne_true]
    exact h
  | some v =>
    rw [hpending] at hreg
    have hmethod : v.enabled = enabled := of_decide_eq_true hreg
    rcases h.owed.pending hpending with ⟨hflight, rfl, hk⟩ | ⟨enabled', hflight, rfl, hk⟩
    · -- a success clears the counter
      cases hmethod
      have hstays : replaces s c true = false := by
        unfold replaces
        rw [hpending]
        rfl
      rw [count_singleton hflight, checkUpdate_success h.ne_nil, hstays,
        if_neg Bool.false_ne_true, hk]
      exact ⟨h.ne_nil, Nat.zero_lt_succ _, .settled rfl (Nat.zero_le _)⟩
    · cases hmethod
      rw [count_singleton hflight, replaces_wrong hpending h.ne_nil]
      cases enabled' with
      | false => exact ⟨h.ne_nil, h.tracked_lt, .settled rfl hk⟩
      | true =>
        rw [checkUpdate_wrong h.ne_nil]
        by_cases hroom : s.failures + 1 < maxConsecutiveFailures
        · rw [if_pos hroom, decide_eq_false (Nat.not_le.mpr hroom), Bool.and_false,
            if_neg Bool.false_ne_true]
          refine ⟨h.ne_nil, hroom, .settled rfl ?_⟩
          rw [failures_synced]
          exact hk
        · rw [if_neg hroom, decide_eq_true (Nat.not_lt.mp hroom), Bool.and_self, if_pos rfl]
          exact ⟨drawn.ne_nil, Nat.zero_lt_succ _, .settled rfl (Nat.zero_le _)⟩

theorem Inv.rotate {drawn : AutoPassword} : Inv (s.updateTemporaryPassword drawn) 0 := by
  refine ⟨drawn.ne_nil, h.tracked_lt, ?_⟩
  cases h.owed with
  | settled hidle _ => exact .settled hidle (Nat.zero_le _)
  | success c hflight _ => exact .success c hflight rfl
  | wrong c enabled hflight _ => exact .wrong c enabled hflight (Nat.zero_le _)

theorem Inv.next {e : Event} (hreg : Regular s e) :
    Inv (connections.next s e) (tally k (s, e)) := by
  cases e with
  | login c env w errMsg => exact h.login hreg
  | count c enabled drawn => exact h.count hreg
  | rotate drawn => exact h.rotate
  | share shared =>
    refine ⟨h.ne_nil, h.tracked_lt, ?_⟩
    cases h.owed with
    | settled hidle hk => exact .settled hidle hk
    | success c hflight hk => exact .success c hflight hk
    | wrong c enabled hflight hk => exact .wrong c enabled hflight hk

theorem Inv.restarts {e : Event} (hreg : Regular s e) (hrestarts : Restarts s e) :
    (connections.next s e).failures = 0 := by
  cases e with
  | login c env w errMsg =>
    obtain ⟨hpending, hrecent, hcurrent⟩ := hrestarts
    have hcounted := hreg.2 hcurrent
    rw [hrecent] at hcounted
    have hzero : s.failures = 0 := of_decide_eq_true hcounted
    show (s.login c env w errMsg).failures = 0
    unfold State.login
    rw [hpending]
    exact hzero
  | count c enabled drawn =>
    change (s.pending c).all (fun v => v.enabled = enabled) = true at hreg
    show (s.count c enabled drawn).failures = 0
    cases hpending : s.pending c with
    | none =>
      rcases hrestarts with hreplaces | ⟨v, hv, -⟩
      · unfold replaces at hreplaces
        rw [hpending] at hreplaces
        cases hreplaces
      · exact absurd (hpending.symm.trans hv) (Option.some_ne_none v).symm
    | some v =>
      rw [hpending] at hreg
      have hmethod : v.enabled = enabled := of_decide_eq_true hreg
      rcases h.owed.pending hpending with ⟨hflight, rfl, -⟩ | ⟨enabled', hflight, rfl, -⟩
      · cases hmethod
        rw [count_singleton hflight, checkUpdate_success h.ne_nil]
        exact failures_synced _ _ _ 0
      · -- a wrong login restarts the count only where it replaces the password
        have hreplaces : replaces s c enabled = true := by
          rcases hrestarts with hreplaces | ⟨v, hv, hsuccess⟩
          · exact hreplaces
          · rw [hpending] at hv
            cases hv
            cases hsuccess
        rw [replaces_wrong hpending h.ne_nil, Bool.and_eq_true] at hreplaces
        have hlast := Nat.not_lt.mpr (of_decide_eq_true hreplaces.2)
        cases hmethod
        rw [count_singleton hflight, hreplaces.1, checkUpdate_wrong h.ne_nil, if_neg hlast]
        exact failures_synced _ _ _ 0
  | rotate drawn =>
    show (if s.tracked.password = drawn.val then s.tracked.failures else 0) = 0
    split
    · next hsame => exact hreg hsame.symm
    · rfl
  | share shared => exact hrestarts.elim

end Step

/-! ### Runs -/

theorem Inv.run {es : List Event} {s : State} {k : ℕ} (h : Inv s k)
    (hreg : connections.Meets Regular s es) :
    Inv (connections.run s es) ((connections.trace s es).foldl tally k) := by
  induction es generalizing s k with
  | nil => exact h
  | cons e es ih =>
    obtain ⟨hstep, hrest⟩ := Machine.meets_cons.mp hreg
    exact ih (h.next hstep) hrest

/-- **The temporary password is protected along every regular run**, whatever the logins are, on
however many connections, and whenever else the password is replaced. -/
theorem protected_of_regular (p : AutoPassword) (shared : Shared) (es : List Event)
    (h : connections.Meets Regular (.start p shared) es) : Protected (.start p shared) es where
  bounded pre hpre := by
    obtain ⟨post, rfl⟩ := hpre
    exact ((Inv.start p shared).run (Machine.meets_append.mp h).1).streak_le
  restarts := by
    intro step hstep hrestarts
    obtain ⟨pre, post, rfl, hrun⟩ := connections.exists_split_of_mem_trace hstep
    have hinv := (Inv.start p shared).run (Machine.meets_append.mp h).1
    rw [hrun] at hinv
    exact hinv.restarts (h step hstep) hrestarts

/-! ### Two runs -/

def digits : AutoPassword := ⟨"123456".toList, .inl rfl⟩

def letters : AutoPassword := ⟨"abcdef".toList, .inl rfl⟩

/-- Connection `c` sends a login, and counts it. The answers to the password `123456` are right. -/
def tries (c : ℕ) (answer : String) : List Event :=
  let w := World.start .plain
  [.login c .plain { w with conn := { w.conn with
      lr := { desktopLogin with password := asBytes answer.toList } } } [],
    .count c true letters]

/-- A regular run: a wrong login, a success, and a replacement while a wrong login is in flight. -/
def quiet : List Event :=
  tries 1 "??????sc" ++ tries 2 "123456sc" ++ (tries 3 "??????sc").take 1 ++
    [.rotate letters, .count 3 true digits]

theorem protected_of_regular_quiet : Protected (.start digits Opening.plain.shared) quiet :=
  protected_of_regular digits Opening.plain.shared quiet (by decide +kernel)

/-- One success, and eleven wrong logins of the same session within a minute. -/
def sameSession : List Event :=
  tries 1 "123456sc" ++ (List.replicate 11 (tries 2 "??????sc")).flatten

/-- The last four logins are refused for the failures of the address, but they have been compared
with the password that the session has. -/
theorem eleven_guesses : ¬ Protected (.start digits Opening.plain.shared) sameSession := by
  intro h
  have hstreak : streak (.start digits Opening.plain.shared) sameSession = 11 := by decide +kernel
  have hle := h.bounded sameSession List.prefix_rfl
  rw [hstreak] at hle
  exact absurd hle (by decide)

end LibRustdesk.Desktop.TemporaryPassword
