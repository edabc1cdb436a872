import LibRustdesk.Framework.Machine
import Mathlib.Tactic.NormNum
import Mathlib.Tactic.Positivity

/-!
# Failed logins with credentials of the system

`src/server/login_failure_check.rs`: after the third failed login of a terminal with credentials of
the system each further attempt has to wait, 15 seconds at first and twice as long after each
failure, up to half an hour. Two hours without a failure are forgiven.

The state is a count and two times. It is put in order when it is used, and not before: both
`evaluate_os_credential_policy` and `record_os_credential_failure` begin with a reset after the idle
window (`resetTotalsOnIdle`) and with the end of the backoff (`normalizeBackoff`).

* `IsStreak` — the rule, in terms of the history alone: the failures that count are the longest end
  of it whose gaps are shorter than the idle window.
* `Inv` — what the state has of a streak: its length and its last failure, unless that is over.
* `allowed_iff` — **the policy is the rule**, whatever has been evaluated before.
-/

namespace LibRustdesk.OsCredentials

/-- `i64::MIN` and `i64::MAX`. -/
def i64Min : ℤ := -2 ^ 63

def i64Max : ℤ := 2 ^ 63 - 1

def saturatingSub (a b : ℤ) : ℤ := max i64Min (min i64Max (a - b))

/-- A time in milliseconds, to which half an hour can be added. -/
structure Millis where
  toInt : ℤ
  low : i64Min ≤ toInt
  high : toInt + 1800000 ≤ i64Max

inductive FailureScope
  | default
  | terminalOsLogin
  deriving DecidableEq

inductive AlarmAuditType
  | terminalOsLoginBackoff
  deriving DecidableEq

structure OsCredentialPolicyDecision where
  allowed : Bool
  loginError : Option String
  audit : Option AlarmAuditType
  deriving DecidableEq

structure OsCredentialFailureState where
  totalFailures : ℕ
  backoffUntilMs : Option ℤ
  lastFailureMs : Option ℤ
  deriving DecidableEq

def OsCredentialFailureState.default : OsCredentialFailureState := ⟨0, none, none⟩

/-- `OS_CREDENTIAL_LOGIN_TOTAL_IDLE_RESET_MS`. -/
def idleResetMs : ℤ := 120 * 60 * 1000

/-- `OS_CREDENTIAL_LOGIN_BACKOFF_BASE_SECONDS` and `OS_CREDENTIAL_LOGIN_BACKOFF_MAX_SECONDS`. -/
def backoffBaseSeconds : ℤ := 15

def backoffMaxSeconds : ℤ := 30 * 60

/-- `i32::MAX`, where the count stays. -/
def i32Max : ℕ := 2 ^ 31 - 1

/-- `os_credential_login_backoff_seconds`. -/
def backoffSeconds (totalFailures : ℕ) : ℤ :=
  if totalFailures ≤ 2 then 0
  else min (backoffBaseSeconds * 2 ^ min (totalFailures - 3) 7) backoffMaxSeconds

def backoffAuditTypeForScope : FailureScope → Option AlarmAuditType
  | .terminalOsLogin => some .terminalOsLoginBackoff
  | .default => none

namespace OsCredentialFailureState

def normalizeBackoff (state : OsCredentialFailureState) (nowMs : ℤ) : OsCredentialFailureState :=
  match state.backoffUntilMs with
  | some untilMs => if untilMs ≤ nowMs then { state with backoffUntilMs := none } else state
  | none => state

def resetTotalsOnIdle (state : OsCredentialFailureState) (nowMs : ℤ) : OsCredentialFailureState :=
  match state.lastFailureMs with
  | some lastMs => if idleResetMs ≤ saturatingSub nowMs lastMs then .default else state
  | none => state

end OsCredentialFailureState

def allowDecision : OsCredentialPolicyDecision := ⟨true, none, none⟩

def blockDecision (loginError : String) (alarmType : Option AlarmAuditType) :
    OsCredentialPolicyDecision :=
  ⟨false, some loginError, alarmType⟩

def refusal (scope : FailureScope) (untilMs nowMs : ℤ) : OsCredentialPolicyDecision :=
  let remainingMs := max (untilMs - nowMs) 0
  let remainingSeconds := max ((remainingMs + 999) / 1000) 1
  let secondsLabel := if remainingSeconds = 1 then "second" else "seconds"
  blockDecision ("Please try again in " ++ toString remainingSeconds ++ " " ++ secondsLabel ++ ".")
    (backoffAuditTypeForScope scope)

/-- `evaluate_os_credential_policy`. -/
def evaluate (scope : FailureScope) (state : OsCredentialFailureState) (nowMs : ℤ) :
    OsCredentialFailureState × OsCredentialPolicyDecision :=
  if scope = .terminalOsLogin then
    let state := (state.resetTotalsOnIdle nowMs).normalizeBackoff nowMs
    match state.backoffUntilMs with
    | some untilMs => (state, refusal scope untilMs nowMs)
    | none => (state, allowDecision)
  else (state, allowDecision)

/-- `record_os_credential_failure`. -/
def record (scope : FailureScope) (state : OsCredentialFailureState) (nowMs : ℤ) :
    OsCredentialFailureState :=
  if scope = .terminalOsLogin then
    let state := (state.resetTotalsOnIdle nowMs).normalizeBackoff nowMs
    let totalFailures := min (state.totalFailures + 1) i32Max
    let backoffSeconds := backoffSeconds totalFailures
    { state with
      totalFailures := totalFailures
      lastFailureMs := some nowMs
      backoffUntilMs := if backoffSeconds > 0 then some (nowMs + backoffSeconds * 1000)
        else state.backoffUntilMs }
  else state

inductive Event
  | record (scope : FailureScope) (now : Millis)
  | evaluate (scope : FailureScope) (now : Millis)

namespace Event

def now : Event → Millis
  | record _ now => now
  | evaluate _ now => now

def isRecord : Event → Bool
  | record _ _ => true
  | evaluate _ _ => false

def failure : Event → Option ℤ
  | record .terminalOsLogin now => some now.toInt
  | _ => none

end Event

def policy : Machine OsCredentialFailureState Event OsCredentialPolicyDecision where
  step state
    | .record scope now => (record scope state now.toInt, [])
    | .evaluate scope now =>
      let (state, decision) := evaluate scope state now.toInt
      (state, [decision])

def after (es : List Event) : OsCredentialFailureState := policy.run .default es

/-! ### The rule -/

def failures (es : List Event) : List ℤ := es.filterMap Event.failure

def Linked (s : List ℤ) : Prop := s.IsChain fun a b => b - a < idleResetMs

structure IsStreak (history s : List ℤ) : Prop where
  suffix : s <:+ history
  linked : Linked s
  longest : ∀ s', s' <:+ history → Linked s' → s' <:+ s

/-- `min(15 * 2^(n-3), 1800)` seconds, in milliseconds. -/
def waitMs (n : ℕ) : ℤ := min (15 * 2 ^ (n - 3)) 1800 * 1000

theorem IsStreak.unique {history s s' : List ℤ} (h : IsStreak history s)
    (h' : IsStreak history s') : s = s' :=
  (h'.longest s h.suffix h.linked).eq_of_length_le (h.longest s' h'.suffix h'.linked).length_le

theorem linked_concat (s : List ℤ) (t : ℤ) :
    Linked (s ++ [t]) ↔ Linked s ∧ ∀ last ∈ s.getLast?, t - last < idleResetMs := by
  unfold Linked
  rw [List.isChain_append]
  simp

variable {history s : List ℤ}

theorem getLast?_of_suffix (h : s <:+ history) (hne : s ≠ []) : s.getLast? = history.getLast? := by
  obtain ⟨start, rfl⟩ := h
  rw [List.getLast?_append_of_ne_nil _ hne]

theorem IsStreak.getLast? (h : IsStreak history s) : s.getLast? = history.getLast? := by
  by_cases hne : s = []
  · -- there is no failure, as one is linked
    subst hne
    rcases history.eq_nil_or_concat with rfl | ⟨start, x, rfl⟩
    · rfl
    · rw [List.concat_eq_append] at h
      have hlast : [x] <:+ [] :=
        h.longest [x] (List.suffix_append start [x]) (List.isChain_singleton x)
      simp at hlast
  · exact getLast?_of_suffix h.suffix hne

def extend (s : List ℤ) (t : ℤ) : List ℤ :=
  match s.getLast? with
  | some last => if t - last < idleResetMs then s ++ [t] else [t]
  | none => [t]

theorem getLast?_extend (s : List ℤ) (t : ℤ) : (extend s t).getLast? = some t := by
  unfold extend
  split
  · split
    · exact List.getLast?_concat
    · rfl
  · rfl

theorem isStreak_extend (h : IsStreak history s) (t : ℤ) :
    IsStreak (history ++ [t]) (extend s t) := by
  have hlast := h.getLast?
  have hone : Linked [t] := List.isChain_singleton t
  -- a longer end goes on an end of the history
  have hnew (hcut : ∀ last ∈ history.getLast?, ¬ t - last < idleResetMs) :
      IsStreak (history ++ [t]) [t] := by
    refine ⟨List.suffix_append history [t], hone, fun s' hs' hlinked => ?_⟩
    rcases List.suffix_concat_iff.mp hs' with rfl | ⟨s'', rfl, hs''⟩
    · exact List.nil_suffix
    · by_cases hne : s'' = []
      · subst hne
        exact List.suffix_refl _
      · obtain ⟨-, hgap⟩ := (linked_concat s'' t).mp hlinked
        have hmem := List.getLast?_eq_some_getLast hne
        exact absurd (hgap _ hmem) (hcut _ ((getLast?_of_suffix hs'' hne).symm.trans hmem))
  unfold extend
  split
  · next last hmem =>
    split
    · next hgap =>
      refine ⟨?_, (linked_concat s t).mpr ⟨h.linked, fun last' hmem' => ?_⟩,
        fun s' hs' hlinked => ?_⟩
      · obtain ⟨start, rfl⟩ := h.suffix
        exact ⟨start, (List.append_assoc _ _ _).symm⟩
      · cases hmem.symm.trans hmem'
        exact hgap
      · rcases List.suffix_concat_iff.mp hs' with rfl | ⟨s'', rfl, hs''⟩
        · exact List.nil_suffix
        · obtain ⟨start, rfl⟩ := h.longest s'' hs'' ((linked_concat s'' t).mp hlinked).1
          exact ⟨start, (List.append_assoc _ _ _).symm⟩
    · next hgap =>
      refine hnew fun last' hmem' => ?_
      cases (hmem.symm.trans hlast).trans hmem'
      exact hgap
  · next hnone =>
    refine hnew fun last' hmem' => ?_
    cases (hnone.symm.trans hlast).trans hmem'

/-! ### The state of a streak -/

def Waits (n : ℕ) (last now : ℤ) : Prop := 2 < n ∧ now < last + waitMs n

instance (n : ℕ) (last now : ℤ) : Decidable (Waits n last now) :=
  inferInstanceAs (Decidable (_ ∧ _))

/-- What the state has of a streak, put in order at a time. -/
def stateOf (n : ℕ) (last now : ℤ) : OsCredentialFailureState where
  totalFailures := min n i32Max
  backoffUntilMs := if Waits n last now then some (last + waitMs n) else none
  lastFailureMs := some last

/-- The state is that of the streak, at its latest use; or the streak is over. -/
inductive Inv (state : OsCredentialFailureState) (s : List ℤ) (now : ℤ) : Prop
  | ended (hstate : state = .default) (hover : ∀ last ∈ s.getLast?, idleResetMs ≤ now - last)
  | counts (last used : ℤ) (hlast : s.getLast? = some last)
      (hused : last ≤ used) (hnow : used ≤ now)
      (hstate : state = stateOf s.length last used)

variable {state : OsCredentialFailureState}

theorem Inv.mono {s : List ℤ} {now now' : ℤ}
    (h : Inv state s now) (hle : now ≤ now') : Inv state s now' := by
  cases h with
  | ended hstate hover =>
    refine .ended hstate fun last hlast => ?_
    have := hover last hlast
    omega
  | counts last used hlast hused hnow hstate =>
    exact .counts last used hlast hused (hnow.trans hle) hstate

theorem idle_le_saturatingSub (a b : ℤ) :
    idleResetMs ≤ saturatingSub a b ↔ idleResetMs ≤ a - b := by
  unfold saturatingSub idleResetMs i64Min i64Max
  omega

/-- **The state is put in order**: nothing is left of a streak that is over, and a wait that is over
is forgotten. -/
theorem tidy_spec {s : List ℤ} {now : ℤ} (h : Inv state s now) :
    ((∀ last ∈ s.getLast?, idleResetMs ≤ now - last) ∧
        (state.resetTotalsOnIdle now).normalizeBackoff now = .default) ∨
      ∃ last, s.getLast? = some last ∧ last ≤ now ∧ now - last < idleResetMs ∧
        (state.resetTotalsOnIdle now).normalizeBackoff now = stateOf s.length last now := by
  cases h with
  | ended hstate hover =>
    rw [hstate]
    exact .inl ⟨hover, rfl⟩
  | counts last used hlast hused hnow hstate =>
    have hreset : state.resetTotalsOnIdle now =
        if idleResetMs ≤ now - last then .default else state := by
      rw [hstate]
      exact if_congr (idle_le_saturatingSub now last) rfl rfl
    rw [hreset]
    by_cases hidle : idleResetMs ≤ now - last
    · rw [if_pos hidle]
      refine .inl ⟨fun last' hlast' => ?_, rfl⟩
      cases hlast.symm.trans hlast'
      exact hidle
    · rw [if_neg hidle]
      refine .inr ⟨last, hlast, hused.trans hnow, not_le.mp hidle, ?_⟩
      rw [hstate]
      unfold OsCredentialFailureState.normalizeBackoff stateOf
      by_cases hthen : Waits s.length last used
      · -- it waited when the state was used
        rw [if_pos hthen]
        dsimp only
        by_cases hnow' : last + waitMs s.length ≤ now
        · rw [if_pos hnow', if_neg fun hwaits => absurd hwaits.2 (not_lt.mpr hnow')]
        · rw [if_neg hnow', if_pos ⟨hthen.1, not_le.mp hnow'⟩]
      · have hstill : ¬ Waits s.length last now :=
          fun hwaits => hthen ⟨hwaits.1, hnow.trans_lt hwaits.2⟩
        rw [if_neg hthen, if_neg hstill]

theorem backoffSeconds_eq (n : ℕ) :
    backoffSeconds (min n i32Max) * 1000 = if 2 < n then waitMs n else 0 := by
  have hmax : 2 < i32Max := by decide
  unfold backoffSeconds
  by_cases hn : 2 < n
  · rw [if_pos hn, if_neg (by omega)]
    unfold waitMs backoffBaseSeconds backoffMaxSeconds
    congr 1
    by_cases hcap : n - 3 ≤ 7
    · have hexp : min (min n i32Max - 3) 7 = n - 3 := by
        unfold i32Max
        omega
      rw [hexp]
      norm_num
    · -- both are past the cap
      have hexp : min (min n i32Max - 3) 7 = 7 := by
        unfold i32Max
        omega
      have hbig : (2 : ℤ) ^ 7 ≤ 2 ^ (n - 3) :=
        pow_le_pow_right₀ (by norm_num) (not_le.mp hcap).le
      rw [hexp, min_eq_right (by norm_num), min_eq_right (by omega)]
      norm_num
  · rw [if_neg hn, if_pos (by omega), Int.zero_mul]

theorem waitMs_pos (n : ℕ) : 0 < waitMs n := by
  have hpos : (0 : ℤ) < 2 ^ (n - 3) := by positivity
  unfold waitMs
  omega

theorem inv_record {s : List ℤ} {now : ℤ} (h : Inv state s now) :
    Inv (record .terminalOsLogin state now) (extend s now) now := by
  refine .counts now now (getLast?_extend s now) (le_refl now) (le_refl now) ?_
  have htidy := tidy_spec h
  unfold record
  rw [if_pos rfl]
  generalize (state.resetTotalsOnIdle now).normalizeBackoff now = tidied at htidy
  -- the count is capped, and the wait is the one of the longer streak
  have hrecord {n : ℕ} (htotal : tidied.totalFailures = min n i32Max)
      (huntil : n + 1 ≤ 2 → tidied.backoffUntilMs = none)
      (hlength : (extend s now).length = n + 1) :
      { tidied with
        totalFailures := min (tidied.totalFailures + 1) i32Max
        lastFailureMs := some now
        backoffUntilMs := if backoffSeconds (min (tidied.totalFailures + 1) i32Max) > 0 then
            some (now + backoffSeconds (min (tidied.totalFailures + 1) i32Max) * 1000)
          else tidied.backoffUntilMs } = stateOf (extend s now).length now now := by
    have hcount : min (tidied.totalFailures + 1) i32Max = min (n + 1) i32Max := by
      rw [htotal]
      omega
    have hseconds := backoffSeconds_eq (n + 1)
    have hpos := waitMs_pos (n + 1)
    rw [hcount, hlength]
    unfold stateOf
    by_cases hwaits : 2 < n + 1
    · rw [if_pos hwaits] at hseconds
      rw [hseconds, if_pos (by omega), if_pos ⟨hwaits, by omega⟩]
    · rw [if_neg hwaits] at hseconds
      rw [if_neg (by omega), if_neg fun h => hwaits h.1, huntil (by omega)]
  rcases htidy with ⟨hover, rfl⟩ | ⟨last, hlast, -, hgap, rfl⟩
  · refine hrecord (n := 0) rfl (fun _ => rfl) ?_
    unfold extend
    split
    · next last hlast =>
      rw [if_neg (not_lt.mpr (hover last hlast))]
      rfl
    · rfl
  · refine hrecord (n := s.length) rfl (fun hshort => if_neg fun h => ?_) ?_
    · have := h.1
      omega
    · unfold extend
      rw [hlast]
      dsimp only
      rw [if_pos hgap, List.length_append, List.length_singleton]

def decisionOf (s : List ℤ) (now : ℤ) : OsCredentialPolicyDecision :=
  match s.getLast? with
  | some last =>
    if now - last < idleResetMs ∧ Waits s.length last now then
      refusal .terminalOsLogin (last + waitMs s.length) now
    else allowDecision
  | none => allowDecision

theorem evaluate_spec {s : List ℤ} {now : ℤ}
    (h : Inv state s now) :
    Inv (evaluate .terminalOsLogin state now).1 s now ∧
      (evaluate .terminalOsLogin state now).2 = decisionOf s now := by
  have htidy := tidy_spec h
  unfold evaluate
  rw [if_pos rfl]
  generalize (state.resetTotalsOnIdle now).normalizeBackoff now = tidied at htidy
  unfold decisionOf
  rcases htidy with ⟨hover, rfl⟩ | ⟨last, hlast, hle, hgap, rfl⟩
  · refine ⟨.ended rfl hover, ?_⟩
    split
    · next last hlast => exact (if_neg fun h => absurd (hover last hlast) (not_le.mpr h.1)).symm
    · rfl
  · rw [hlast]
    have hinv : Inv (stateOf s.length last now) s now :=
      .counts last now hlast hle (le_refl now) rfl
    dsimp only
    by_cases hwaits : Waits s.length last now
    · have huntil : (stateOf s.length last now).backoffUntilMs = some (last + waitMs s.length) :=
        if_pos hwaits
      rw [huntil, if_pos ⟨hgap, hwaits⟩]
      exact ⟨hinv, rfl⟩
    · have huntil : (stateOf s.length last now).backoffUntilMs = none := if_neg hwaits
      rw [huntil, if_neg fun h => hwaits h.2]
      exact ⟨hinv, rfl⟩

theorem allowed_decisionOf (s : List ℤ) (now : ℤ) :
    (decisionOf s now).allowed = true ↔
      (∃ last, s.getLast? = some last ∧ idleResetMs ≤ now - last) ∨ s.length < 3 ∨
        ∃ last, s.getLast? = some last ∧ last + waitMs s.length ≤ now := by
  unfold decisionOf
  cases hlast : s.getLast? with
  | none =>
    have hnil : s = [] := List.getLast?_eq_none_iff.mp hlast
    refine iff_of_true rfl (.inr (.inl ?_))
    rw [hnil]
    decide
  | some last =>
    have hsome (P : ℤ → Prop) : (∃ last', some last = some last' ∧ P last') ↔ P last :=
      ⟨fun ⟨_, heq, hp⟩ => Option.some.inj heq ▸ hp, fun hp => ⟨last, rfl, hp⟩⟩
    rw [hsome fun last => idleResetMs ≤ now - last, hsome fun last => last + waitMs s.length ≤ now]
    dsimp only
    split
    · next hwaits =>
      refine iff_of_false Bool.false_ne_true ?_
      obtain ⟨hgap, hlong, hnow⟩ := hwaits
      omega
    · next hnot =>
      refine iff_of_true rfl ?_
      unfold Waits at hnot
      by_contra hnone
      apply hnot
      omega

/-! ### Runs -/

/-- The times of the calls do not decrease, up to a time. -/
def InOrder (es : List Event) (now : Millis) : Prop :=
  (es.map (·.now.toInt) ++ [now.toInt]).Pairwise (· ≤ ·)

theorem inv_step {e : Event} (hstreak : IsStreak history s) (h : Inv state s e.now.toInt) : ∃ s',
    IsStreak (history ++ e.failure.toList) s' ∧ Inv (policy.next state e) s' e.now.toInt := by
  cases e with
  | record scope now =>
    cases scope with
    | default => exact ⟨s, by simpa [Event.failure] using hstreak, h⟩
    | terminalOsLogin => exact ⟨extend s now.toInt, isStreak_extend hstreak _, inv_record h⟩
  | evaluate scope now =>
    cases scope with
    | default => exact ⟨s, by simpa [Event.failure] using hstreak, h⟩
    | terminalOsLogin =>
      exact ⟨s, by simpa [Event.failure] using hstreak, (evaluate_spec h).1⟩

theorem inv_after {es : List Event} {now : Millis} (h : InOrder es now) :
    ∃ s, IsStreak (failures es) s ∧ Inv (after es) s now.toInt := by
  induction es using List.reverseRecOn generalizing now with
  | nil =>
    refine ⟨[], ⟨List.suffix_refl _, List.isChain_nil, fun s' hs' _ => hs'⟩, .ended rfl ?_⟩
    simp
  | append_singleton es e ih =>
    unfold InOrder at h
    rw [List.map_append, List.append_assoc, List.map_singleton, List.singleton_append] at h
    have hbefore : InOrder es e.now :=
      h.sublist ((List.Sublist.refl _).append (List.sublist_append_left [e.now.toInt] [now.toInt]))
    have hle : e.now.toInt ≤ now.toInt := by
      have hlast := h.sublist (List.sublist_append_right _ [e.now.toInt, now.toInt])
      exact List.rel_of_pairwise_cons hlast (List.mem_singleton_self _)
    obtain ⟨s, hstreak, hinv⟩ := ih hbefore
    obtain ⟨s', hstreak', hinv'⟩ := inv_step hstreak hinv
    refine ⟨s', ?_, ?_⟩
    · have hfailures : failures (es ++ [e]) = failures es ++ e.failure.toList := by
        unfold failures
        rw [List.filterMap_append]
        cases hfailure : e.failure <;> simp [hfailure]
      rw [hfailures]
      exact hstreak'
    · have hafter : after (es ++ [e]) = policy.next (after es) e := policy.run_append _ es [e]
      rw [hafter]
      exact hinv'.mono hle

/-- **The policy is the rule.** For calls in order: an attempt is allowed when the streak is over,
or has fewer than three failures, or has been waited for; and evaluations before it make no
difference. -/
theorem allowed_iff (es : List Event) (now : Millis) (h : InOrder es now) :
    (∃ s, IsStreak (failures es) s ∧
      ((evaluate .terminalOsLogin (after es) now.toInt).2.allowed = true ↔
        (∃ last, s.getLast? = some last ∧ idleResetMs ≤ now.toInt - last) ∨ s.length < 3 ∨
          ∃ last, s.getLast? = some last ∧ last + waitMs s.length ≤ now.toInt)) ∧
      (evaluate .terminalOsLogin (after es) now.toInt).2 =
        (evaluate .terminalOsLogin (after (es.filter Event.isRecord)) now.toInt).2 := by
  obtain ⟨s, hstreak, hinv⟩ := inv_after h
  obtain ⟨-, hdecision⟩ := evaluate_spec hinv
  rw [hdecision]
  refine ⟨⟨s, hstreak, allowed_decisionOf s now.toInt⟩, ?_⟩
  -- without the evaluations the history is the same
  have hrecords : InOrder (es.filter Event.isRecord) now :=
    h.sublist ((List.filter_sublist.map _).append (List.Sublist.refl _))
  have hsame : failures (es.filter Event.isRecord) = failures es := by
    unfold failures
    rw [List.filterMap_filter]
    refine List.filterMap_congr fun e _ => ?_
    cases e with
    | record | evaluate => rfl
  obtain ⟨s', hstreak', hinv'⟩ := inv_after hrecords
  rw [hsame] at hstreak'
  obtain rfl := hstreak.unique hstreak'
  exact (evaluate_spec hinv').2.symm

/-- An attempt after three failures and an early one. -/
theorem allowed_iff_three :
    (evaluate .terminalOsLogin (after [.record .terminalOsLogin ⟨0, by decide, by decide⟩,
        .record .terminalOsLogin ⟨10, by decide, by decide⟩,
        .record .terminalOsLogin ⟨20, by decide, by decide⟩,
        .evaluate .terminalOsLogin ⟨5000, by decide, by decide⟩]) 15020).2 =
      (evaluate .terminalOsLogin (after [.record .terminalOsLogin ⟨0, by decide, by decide⟩,
        .record .terminalOsLogin ⟨10, by decide, by decide⟩,
        .record .terminalOsLogin ⟨20, by decide, by decide⟩]) 15020).2 :=
  (allowed_iff [.record .terminalOsLogin ⟨0, by decide, by decide⟩,
    .record .terminalOsLogin ⟨10, by decide, by decide⟩,
    .record .terminalOsLogin ⟨20, by decide, by decide⟩,
    .evaluate .terminalOsLogin ⟨5000, by decide, by decide⟩] ⟨15020, by decide, by decide⟩
    (by simp [InOrder, Event.now])).2

end LibRustdesk.OsCredentials
