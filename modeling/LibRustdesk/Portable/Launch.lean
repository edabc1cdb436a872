import LibRustdesk.Framework.Machine
import LibRustdesk.Framework.Table

/-!
# Launches of the portable service

A launch makes a piece of shared memory under a new name, writes a new token into it, and starts a
process that reads the token there and shows it in a handshake. The token, the memory and its name
are three cells with a lock each. A handshake takes the token out of its cell; when the handshake
fails after that, the token is put back, if the memory has the name that it had then.

The name and the memory are only touched under the lock of the memory, and whoever holds the lock of
the token takes the other one after it. So `clear_runtime_shmem_state`, taking the token and putting
it back are one step each. A launch holds the lock of the memory while it makes it, and comes back
for the token **after** it has let it go.

Two launches can go on at a time: the second one finds that the first one is starting and that no
process runs yet, and takes it for one that has failed. Then the first one may set its token when
the memory is that of the second one (`token_of_the_other`), and this token is good, and is put back
after a failed handshake.

* `service` — launches, resets and handshakes in any order.
* `Right` — what is asked of the tokens.
* `Orderly` — a launch that goes on to make its memory or to set its token has begun last, and
  draws a new token and a name that no handshake waits for.
* `right_of_orderly` — **tokens are used once, and only while they are those of the current
  launch**, in the runs whose steps are `Orderly`.
-/

namespace LibRustdesk.Desktop.Portable

abbrev Token := List UInt8

def ipcTokenLen : ℕ := 64

def isAsciiHexdigit (byte : UInt8) : Bool :=
  (48 ≤ byte && byte ≤ 57) || (65 ≤ byte && byte ≤ 70) || (97 ≤ byte && byte ≤ 102)

def isAsciiUppercase (byte : UInt8) : Bool := 65 ≤ byte && byte ≤ 90

def isAsciiAlphanumeric (byte : UInt8) : Bool :=
  (48 ≤ byte && byte ≤ 57) || (65 ≤ byte && byte ≤ 90) || (97 ≤ byte && byte ≤ 122)

def isValidPortableServiceIpcToken (token : Token) : Bool :=
  token.length == ipcTokenLen &&
    token.all fun byte => isAsciiHexdigit byte && !isAsciiUppercase byte

def shmemNameMaxLen : ℕ := 64

def isValidPortableServiceShmemName (name : List UInt8) : Bool :=
  !name.isEmpty && name.length ≤ shmemNameMaxLen &&
    name.all fun byte => isAsciiAlphanumeric byte || byte == 95 || byte == 45

def constantTimeIpcTokenEq (expected candidate : Token) : Bool :=
  if expected.length != ipcTokenLen || candidate.length != ipcTokenLen then false
  else
    (expected.zip candidate).foldl (fun diff bytes => diff ||| (bytes.1 ^^^ bytes.2)) 0 == 0

/-- What a launch does next, once it is past the guard. -/
inductive LaunchStep
  | clear
  | create
  | setToken (ipcToken : Token)
  | run
  /-- `clear_runtime_shmem_state`, on the way to an error. -/
  | fail
  /-- `*STARTING.lock().unwrap() = false`, with an error. -/
  | giveUp
deriving DecidableEq

inductive RunOutcome
  | started
  | failed
  /-- `current_exe` fails. -/
  | noExe
deriving DecidableEq

structure SharedMemory where
  ipcToken : Option Token := none
  /-- The launch that has made it. -/
  launch : ℕ
deriving DecidableEq

/-- A handshake whose token was taken: `consumed_token`, `consumed_token_shmem_name`. -/
structure Handshake where
  token : Token
  shmemName : Option (List UInt8)
deriving DecidableEq

/-- The cells, and the launches and the handshake that go on. -/
structure Service where
  running : Bool := false
  starting : Bool := false
  startingToken : ℕ := 0
  /-- `IPC_RUNTIME_TOKEN`. -/
  token : Option Token := none
  /-- `SHMEM`. -/
  shmem : Option SharedMemory := none
  /-- `SHMEM_RUNTIME_NAME`. -/
  name : Option (List UInt8) := none
  /-- The launches that go on, by their number. -/
  launches : Table ℕ LaunchStep := .empty
  handshake : Option Handshake := none
  /-- For which launch a token was made. No code reads it. -/
  issued : Table Token ℕ := .empty
  /-- The launch that has cleared the cells last. No code reads it. -/
  current : ℕ := 0

inductive ServiceOut
  | alreadyRunning
  /-- The token of a handshake was taken. -/
  | accepted (token : Token)
  | rejected
  /-- The handshake has succeeded. -/
  | authenticated (token : Token)
deriving DecidableEq

namespace Service

def clearRuntimeShmemState (s : Service) : Service :=
  { s with token := none, shmem := none, name := none }

def clearIpcTokenInShmem (shmem : SharedMemory) : SharedMemory := { shmem with ipcToken := none }

/-- `none` for a token that is not valid. -/
def writeIpcTokenToShmem (shmem : SharedMemory) (token : Token) : Option SharedMemory :=
  if isValidPortableServiceIpcToken token then some { shmem with ipcToken := some token } else none

/-- Whether the token was taken; the name of the memory then, and the cells. -/
def consumeRuntimeIpcTokenIfMatch (s : Service) (candidate : Token) :
    Bool × Option (List UInt8) × Service :=
  if s.token.any (constantTimeIpcTokenEq · candidate) then
    (true, s.name, { s with token := none, shmem := s.shmem.map clearIpcTokenInShmem })
  else (false, none, s)

/-- `if runtime_token.as_deref() == Some(token)`, the cell is emptied. -/
def dropToken (s : Service) (token : Token) : Service :=
  if s.token = some token then { s with token := none } else s

def restoreRuntimeIpcTokenAfterFailedHandshake (s : Service) (token : Token)
    (expectedShmemName : Option (List UInt8)) : Service :=
  if s.token.any (· != token) then s
  else if s.name ≠ expectedShmemName then s.dropToken token
  else
    match s.shmem.bind (writeIpcTokenToShmem · token) with
    | none => s.dropToken token
    | some shmem => { s with shmem := some shmem, token := some token }

def setLaunch (s : Service) (launch : ℕ) (next : Option LaunchStep) : Service :=
  { s with launches := Function.update s.launches launch next }

theorem setLaunch_self (s : Service) (n : ℕ) (next : Option LaunchStep) :
    (s.setLaunch n next).launches n = next := by
  exact Function.update_self _ _ _

theorem setLaunch_of_ne (s : Service) {n k : ℕ} (next : Option LaunchStep) (h : k ≠ n) :
    (s.setLaunch n next).launches k = s.launches k := by
  exact Function.update_of_ne h _ _

/-- The first block of `start_portable_service`. -/
def startPortableService (s : Service) (hasRunningProcess : Bool) : Service × List ServiceOut :=
  -- a launch without a process is taken for one that has failed
  let starting := if s.starting && !s.running && !hasRunningProcess then false else s.starting
  if starting || s.running then ({ s with starting := starting }, [.alreadyRunning])
  else
    let launchToken := s.startingToken + 1
    ({ s with starting := true, startingToken := launchToken }.setLaunch launchToken (some .clear),
      [])

/-- From taking the lock of the memory to letting it go. Without `created` an error comes before
anything is set. -/
def create (s : Service) (launch : ℕ) (created : Option (List UInt8 × Token)) : Service :=
  match created with
  | none => s.setLaunch launch (some .giveUp)
  | some (shmemName, ipcToken) =>
    if isValidPortableServiceShmemName shmemName then
      let s := { s with name := some shmemName }
      match writeIpcTokenToShmem { launch } ipcToken with
      | none => { s with shmem := some { launch } }.setLaunch launch (some .fail)
      | some shmem =>
        { s with shmem := some shmem, issued := s.issued.insert ipcToken launch }.setLaunch launch
          (some (.setToken ipcToken))
    else s.setLaunch launch (some .giveUp)

def runProcess (s : Service) (launch : ℕ) : RunOutcome → Service
  | .started => s.setLaunch launch none
  | .failed => s.setLaunch launch (some .fail)
  | .noExe => s.setLaunch launch (some .giveUp)

def launchStep (s : Service) (launch : ℕ) (created : Option (List UInt8 × Token))
    (outcome : RunOutcome) : Service :=
  match s.launches launch with
  | none => s
  | some .clear =>
    { s.clearRuntimeShmemState with current := launch }.setLaunch launch (some .create)
  | some .create => s.create launch created
  | some (.setToken ipcToken) => { s with token := some ipcToken }.setLaunch launch (some .run)
  | some .run => s.runProcess launch outcome
  | some .fail => s.clearRuntimeShmemState.setLaunch launch (some .giveUp)
  | some .giveUp => { s with starting := false }.setLaunch launch none

/-- A connection shows a token. The next one is looked at when its handshake is over. -/
def beginHandshake (s : Service) (candidate : Token) : Service × List ServiceOut :=
  match s.handshake with
  | some _ => (s, [])
  | none =>
    match s.consumeRuntimeIpcTokenIfMatch candidate with
    | (true, matchedShmemName, s) =>
      ({ s with handshake := some ⟨candidate, matchedShmemName⟩ }, [.accepted candidate])
    | (false, _, s) => (s, [.rejected])

/-- The handshake succeeds, or fails after its token was taken. -/
def endHandshake (s : Service) (ok : Bool) : Service × List ServiceOut :=
  match s.handshake with
  | none => (s, [])
  | some h =>
    if ok then ({ s with handshake := none }, [.authenticated h.token])
    else
      ({ s.restoreRuntimeIpcTokenAfterFailedHandshake h.token h.shmemName with
        handshake := none, starting := false }, [])

end Service

/-- A step of a launch, of the server, or of what changes the flags. -/
inductive ServiceEvent
  | start (hasRunningProcess : Bool)
  | launch (launch : ℕ) (created : Option (List UInt8 × Token)) (outcome : RunOutcome)
  /-- `clear_runtime_shmem_state`. -/
  | reset
  | beginHandshake (candidate : Token)
  | endHandshake (ok : Bool)
  | pong
  | closed
  /-- The thread of `schedule_starting_timeout_reset`. -/
  | watchdog (launchToken : ℕ)

def serviceStep (s : Service) : ServiceEvent → Service × List ServiceOut
  | .start hasRunningProcess => s.startPortableService hasRunningProcess
  | .launch launch created outcome => (s.launchStep launch created outcome, [])
  | .reset => (s.clearRuntimeShmemState, [])
  | .beginHandshake candidate => s.beginHandshake candidate
  | .endHandshake ok => s.endHandshake ok
  | .pong => ({ s with running := true, starting := false }, [])
  | .closed => ({ s with running := false, starting := false }, [])
  | .watchdog launchToken =>
    if s.startingToken = launchToken ∧ s.starting ∧ !s.running then
      ({ s with starting := false }, [])
    else (s, [])

def service : Machine Service ServiceEvent ServiceOut := ⟨serviceStep⟩

/-! ### What is asked of the tokens -/

/-- A handshake that shows this token now has it taken. -/
def Service.Accepts (s : Service) (token : Token) : Prop :=
  (s.consumeRuntimeIpcTokenIfMatch token).1 = true

instance (s : Service) (token : Token) : Decidable (s.Accepts token) :=
  inferInstanceAs (Decidable (_ = true))

/-- The token was made for the launch that has cleared the cells last. -/
def Service.IsCurrent (s : Service) (token : Token) : Prop := s.issued token = some s.current

/-- Along the run a token is good for one handshake, it is only accepted when it is that of the
current launch, and after a failed handshake it is so once more exactly when the memory of that
launch is still there. -/
structure Right (es : List ServiceEvent) : Prop where
  once : ∀ token, (service.outputs {} es).count (.authenticated token) ≤ 1
  current : ∀ past token, past ++ [.beginHandshake token] <+: es →
    .accepted token ∈ service.out (service.run {} past) (.beginHandshake token) →
    (service.run {} past).IsCurrent token
  again : ∀ past h, past ++ [.endHandshake false] <+: es →
    (service.run {} past).handshake = some h → (service.run {} past).IsCurrent h.token →
    ((service.run {} (past ++ [.endHandshake false])).Accepts h.token ↔
      ∃ shmem, (service.run {} past).shmem = some shmem ∧
        shmem.launch = (service.run {} past).current)

/-- The launch that makes its memory, or sets its token, has begun last. The token is a new one, and
no handshake waits for the name. -/
def OrderlyLaunch (s : Service) (launch : ℕ) (created : Option (List UInt8 × Token)) :
    LaunchStep → Prop
  | .create => launch = s.current ∧ ∀ made ∈ created, s.issued made.2 = none ∧
      ∀ h ∈ s.handshake, h.shmemName ≠ some made.1
  | .setToken _ => launch = s.current
  | .clear | .run | .fail | .giveUp => True

instance (s : Service) (launch : ℕ) (created : Option (List UInt8 × Token)) (step : LaunchStep) :
    Decidable (OrderlyLaunch s launch created step) :=
  match step with
  | .create => inferInstanceAs (Decidable (_ ∧ ∀ made ∈ created, _ ∧ _))
  | .setToken _ => inferInstanceAs (Decidable (launch = s.current))
  | .clear | .run | .fail | .giveUp => inferInstanceAs (Decidable True)

def Orderly (s : Service) : ServiceEvent → Prop
  | .launch launch created _ =>
    ∀ step ∈ s.launches launch, OrderlyLaunch s launch created step
  | _ => True

instance (s : Service) (e : ServiceEvent) : Decidable (Orderly s e) :=
  match e with
  | .launch launch created _ =>
    inferInstanceAs (Decidable (∀ step ∈ s.launches launch, OrderlyLaunch s launch created step))
  | .start _ | .reset | .beginHandshake _ | .endHandshake _ | .pong | .closed | .watchdog _ =>
    inferInstanceAs (Decidable True)

/-! ### Tokens -/

theorem foldl_xor_eq_zero_iff (bytes : List (UInt8 × UInt8)) (diff : UInt8) :
    bytes.foldl (fun diff bytes => diff ||| (bytes.1 ^^^ bytes.2)) diff = 0 ↔
      diff = 0 ∧ ∀ p ∈ bytes, p.1 = p.2 := by
  induction bytes generalizing diff with
  | nil => simp
  | cons p bytes ih =>
    rw [List.foldl_cons, ih, UInt8.or_eq_zero_iff, UInt8.xor_eq_zero_iff, List.forall_mem_cons,
      and_assoc]

theorem forall_zip_eq_iff {l l' : Token} (hlen : l.length = l'.length) :
    (∀ p ∈ l.zip l', p.1 = p.2) ↔ l = l' := by
  induction l generalizing l' with
  | nil =>
    cases l' with
    | nil => simp
    | cons b l' => cases hlen
  | cons a l ih =>
    cases l' with
    | nil => cases hlen
    | cons b l' =>
      rw [List.zip_cons_cons, List.forall_mem_cons, ih (Nat.succ.inj hlen), List.cons.injEq]

theorem constantTimeIpcTokenEq_iff {expected candidate : Token} :
    constantTimeIpcTokenEq expected candidate = true ↔
      expected.length = ipcTokenLen ∧ expected = candidate := by
  unfold constantTimeIpcTokenEq
  by_cases hlen : expected.length = ipcTokenLen ∧ candidate.length = ipcTokenLen
  · obtain ⟨hexpected, hcandidate⟩ := hlen
    rw [if_neg (by simp [hexpected, hcandidate]), beq_iff_eq, foldl_xor_eq_zero_iff,
      forall_zip_eq_iff (hexpected.trans hcandidate.symm)]
    simp [hexpected]
  · rw [if_pos (by simpa [imp_iff_not_or] using hlen)]
    refine iff_of_false Bool.false_ne_true ?_
    rintro ⟨hexpected, rfl⟩
    exact hlen ⟨hexpected, hexpected⟩

theorem length_of_valid {token : Token} (h : isValidPortableServiceIpcToken token = true) :
    token.length = ipcTokenLen := by
  unfold isValidPortableServiceIpcToken at h
  rw [Bool.and_eq_true, beq_iff_eq] at h
  exact h.1

/-! ### The invariant -/

def LaunchStep.Early : LaunchStep → Prop
  | .clear | .create | .setToken _ => True
  | .run | .fail | .giveUp => False

/-- The token was made for launch `n`, which has set it. -/
structure Made (issued : Table Token ℕ) (launches : Table ℕ LaunchStep) (token : Token) (n : ℕ) :
    Prop where
  valid : isValidPortableServiceIpcToken token = true
  issued : issued token = some n
  past : ∀ step, launches n = some step → ¬ step.Early

namespace Service

/-- The token in the cell, and the memory, are those of the current launch. A handshake that waits
has the only copy of its token. It remembers the name of the memory of its launch while that is
there, and no other. -/
structure Inv (s : Service) : Prop where
  cell : ∀ token, s.token = some token → Made s.issued s.launches token s.current
  shmem : ∀ shmem, s.shmem = some shmem → shmem.launch = s.current
  waiting : ∀ h, s.handshake = some h → s.token ≠ some h.token ∧
    ∃ n, Made s.issued s.launches h.token n ∧
    (n = s.current → s.shmem.isSome → h.shmemName = s.name) ∧
    (n ≠ s.current → h.shmemName = s.name → s.shmem = none)
  setting : ∀ n token, s.launches n = some (.setToken token) →
    isValidPortableServiceIpcToken token = true ∧ s.issued token = some n
  unissued : ∀ n, s.launches n = some .clear ∨ s.launches n = some .create →
    ∀ token, s.issued token ≠ some n
  one : ∀ n token token', s.issued token = some n → s.issued token' = some n → token = token'
  begun : ∀ n step, s.launches n = some step → n ≤ s.startingToken
  known : ∀ n token, s.issued token = some n → n ≤ s.startingToken

namespace Inv

variable {s : Service}

theorem empty : Inv {} where
  cell _ h := nomatch h
  shmem _ h := nomatch h
  waiting _ h := nomatch h
  setting _ _ h := nomatch h
  unissued _ h := by rcases h with h | h <;> cases h
  one _ _ _ h := nomatch h
  begun _ _ h := nomatch h
  known _ _ h := nomatch h

theorem flags (h : Inv s) (running starting : Bool) :
    Inv { s with running := running, starting := starting } :=
  ⟨h.cell, h.shmem, h.waiting, h.setting, h.unissued, h.one, h.begun, h.known⟩

theorem cleared (h : Inv s) (current : ℕ) :
    Inv { s.clearRuntimeShmemState with current := current } where
  cell _ hnone := nomatch hnone
  shmem _ hnone := nomatch hnone
  waiting hs hhs := by
    obtain ⟨-, n, hmade, -⟩ := h.waiting hs hhs
    exact ⟨nofun, n, hmade, nofun, fun _ _ => rfl⟩
  setting := h.setting
  unissued := h.unissued
  one := h.one
  begun := h.begun
  known := h.known

variable {n : ℕ}

theorem goOn (h : Inv s) {next : Option LaunchStep}
    (hnext : ∀ step, next = some step → ¬ step.Early) (hn : (s.launches n).isSome) : Inv
    (s.setLaunch n next) := by
  -- whatever was made is made, and no launch is at an earlier step than before
  have hmade : ∀ {token k}, Made s.issued s.launches token k →
      Made s.issued (Function.update s.launches n next) token k := by
    rintro token k ⟨hvalid, hissued, hpast⟩
    refine ⟨hvalid, hissued, fun step hstep => ?_⟩
    rw [Function.update_apply] at hstep
    split_ifs at hstep
    · exact hnext step hstep
    · exact hpast step hstep
  have hearly : ∀ {k step}, Function.update s.launches n next k = some step → step.Early →
      s.launches k = some step := by
    intro k step hstep he
    rw [Function.update_apply] at hstep
    split_ifs at hstep
    · exact absurd he (hnext step hstep)
    · exact hstep
  refine ⟨fun token ht => hmade (h.cell token ht), h.shmem, ?_, ?_, ?_, h.one, ?_, h.known⟩
  · intro hs hhs
    obtain ⟨htoken, k, hk, hname⟩ := h.waiting hs hhs
    exact ⟨htoken, k, hmade hk, hname⟩
  · exact fun k token hk => h.setting k token (hearly hk trivial)
  · intro k hk
    exact h.unissued k (hk.imp (hearly · trivial) (hearly · trivial))
  · intro k step hk
    by_cases heq : k = n
    · obtain ⟨before, hbefore⟩ := Option.isSome_iff_exists.mp hn
      rw [heq]
      exact h.begun n before hbefore
    · exact h.begun k step (by rwa [setLaunch_of_ne _ _ heq] at hk)

theorem prepare (h : Inv s) {next : LaunchStep} (hnext : next = .clear ∨ next = .create)
    (hn : n ≤ s.startingToken) (hunissued : ∀ token, s.issued token ≠ some n) :
    Inv (s.setLaunch n (some next)) := by
  have hmade : ∀ {token k}, Made s.issued s.launches token k →
      Made s.issued (Function.update s.launches n (some next)) token k := by
    rintro token k ⟨hvalid, hissued, hpast⟩
    have hne : k ≠ n := fun heq => hunissued token (heq ▸ hissued)
    refine ⟨hvalid, hissued, fun step hstep => hpast step ?_⟩
    rwa [Function.update_of_ne hne] at hstep
  refine ⟨fun token ht => hmade (h.cell token ht), h.shmem, ?_, ?_, ?_, h.one, ?_, h.known⟩
  · intro hs hhs
    obtain ⟨htoken, k, hk, hname⟩ := h.waiting hs hhs
    exact ⟨htoken, k, hmade hk, hname⟩
  · intro k token hk
    by_cases heq : k = n
    · rw [heq, setLaunch_self] at hk
      rcases hnext with rfl | rfl <;> cases hk
    · exact h.setting k token (by rwa [setLaunch_of_ne _ _ heq] at hk)
  · intro k hk
    by_cases heq : k = n
    · rw [heq]
      exact hunissued
    · exact h.unissued k (by rwa [setLaunch_of_ne _ _ heq] at hk)
  · intro k step hk
    by_cases heq : k = n
    · rw [heq]
      exact hn
    · exact h.begun k step (by rwa [setLaunch_of_ne _ _ heq] at hk)

theorem startPortableService (h : Inv s) (hasRunningProcess : Bool) :
    Inv (s.startPortableService hasRunningProcess).1 := by
  unfold Service.startPortableService
  dsimp only
  generalize (if s.starting && !s.running && !hasRunningProcess then false else s.starting) =
    starting
  split_ifs
  · exact h.flags s.running starting
  · -- the number of the launch is a new one
    have hfresh : ∀ token, s.issued token ≠ some (s.startingToken + 1) :=
      fun token ht => Nat.not_succ_le_self _ (h.known _ token ht)
    have hnumber : Inv { s with starting := true, startingToken := s.startingToken + 1 } :=
      ⟨h.cell, h.shmem, h.waiting, h.setting, h.unissued, h.one,
        fun n step hn => Nat.le_succ_of_le (h.begun n step hn),
        fun n token ht => Nat.le_succ_of_le (h.known n token ht)⟩
    exact hnumber.prepare (Or.inl rfl) (Nat.le_refl _) hfresh

theorem clear (h : Inv s) (hn : s.launches n = some .clear) :
    Inv ({ s.clearRuntimeShmemState with current := n }.setLaunch n (some .create)) :=
  (h.cleared n).prepare (Or.inr rfl) (h.begun n _ hn) (h.unissued n (Or.inl hn))

theorem withMemory (h : Inv s) {name : List UInt8} {shmem : SharedMemory}
    (hshmem : shmem.launch = s.current) (hunissued : ∀ token, s.issued token ≠ some s.current)
    (hname : ∀ hs, s.handshake = some hs → hs.shmemName ≠ some name) :
    Inv { s with name := some name, shmem := some shmem } where
  cell := h.cell
  shmem m hm := by
    rw [← Option.some.inj hm]
    exact hshmem
  waiting hs hhs := by
    obtain ⟨htoken, k, hk, -⟩ := h.waiting hs hhs
    refine ⟨htoken, k, hk, fun heq => ?_, fun _ heq => absurd heq (hname hs hhs)⟩
    -- no token of this launch is known yet
    exact absurd (heq ▸ hk.issued) (hunissued hs.token)
  setting := h.setting
  unissued := h.unissued
  one := h.one
  begun := h.begun
  known := h.known

theorem issue (h : Inv s) {token : Token} (hn : s.launches n = some .create)
    (hvalid : isValidPortableServiceIpcToken token = true) (hnew : s.issued token = none) :
    Inv ({ s with issued := s.issued.insert token n }.setLaunch n (some (.setToken token))) := by
  have hunissued := h.unissued n (Or.inr hn)
  have hne : ∀ {t k}, s.issued t = some k → t ≠ token := by
    rintro t k ht rfl
    rw [hnew] at ht
    cases ht
  have hkept : ∀ {t k}, s.issued t = some k → s.issued.insert token n t = some k := by
    intro t k ht
    rw [Table.insert_of_ne _ _ (hne ht)]
    exact ht
  have hmade : ∀ {t k}, Made s.issued s.launches t k →
      Made (s.issued.insert token n) (Function.update s.launches n (some (.setToken token))) t
        k := by
    rintro t k ⟨hvalid', hissued, hpast⟩
    have hkn : k ≠ n := fun heq => hunissued t (heq ▸ hissued)
    refine ⟨hvalid', hkept hissued, fun step hstep => hpast step ?_⟩
    rwa [Function.update_of_ne hkn] at hstep
  -- a token of the table is the new one, or was there
  have hcases : ∀ {t k}, s.issued.insert token n t = some k →
      (t = token ∧ k = n) ∨ (s.issued t = some k ∧ k ≠ n) := by
    intro t k ht
    rw [Table.insert_apply] at ht
    split_ifs at ht with heq
    · exact Or.inl ⟨heq, (Option.some.inj ht).symm⟩
    · exact Or.inr ⟨ht, fun hk => hunissued t (hk ▸ ht)⟩
  refine ⟨fun t ht => hmade (h.cell t ht), h.shmem, ?_, ?_, ?_, ?_, ?_, ?_⟩
  · intro hs hhs
    obtain ⟨htoken, k, hk, hname⟩ := h.waiting hs hhs
    exact ⟨htoken, k, hmade hk, hname⟩
  · intro k t hk
    by_cases heq : k = n
    · rw [heq, setLaunch_self] at hk
      cases hk
      rw [heq]
      exact ⟨hvalid, Table.insert_self _ _ _⟩
    · obtain ⟨hvalid', hissued⟩ :=
        h.setting k t (by rwa [setLaunch_of_ne _ _ heq] at hk)
      exact ⟨hvalid', hkept hissued⟩
  · intro k hk t ht
    have heq : k ≠ n := by
      rintro rfl
      rw [setLaunch_self] at hk
      rcases hk with hk | hk <;> cases hk
    rw [setLaunch_of_ne _ _ heq] at hk
    rcases hcases ht with ⟨-, rfl⟩ | ⟨hold, -⟩
    · exact heq rfl
    · exact h.unissued k hk t hold
  · intro k t t' ht ht'
    rcases hcases ht with ⟨rfl, hk⟩ | ⟨hold, hk⟩ <;>
      rcases hcases ht' with ⟨rfl, hk'⟩ | ⟨hold', hk'⟩
    · rfl
    · exact absurd hk hk'
    · exact absurd hk' hk
    · exact h.one k t t' hold hold'
  · intro k step hk
    by_cases heq : k = n
    · rw [heq]
      exact h.begun n _ hn
    · exact h.begun k step (by rwa [setLaunch_of_ne _ _ heq] at hk)
  · intro k t ht
    rcases hcases ht with ⟨-, rfl⟩ | ⟨hold, -⟩
    · exact h.begun _ _ hn
    · exact h.known k t hold

theorem setToken (h : Inv s) {token : Token} (hn : s.launches s.current = some (.setToken token)) :
    Inv ({ s with token := some token }.setLaunch s.current (some .run)) := by
  obtain ⟨hvalid, hissued⟩ := h.setting _ _ hn
  have hrun : Inv (s.setLaunch s.current (some .run)) :=
    h.goOn (fun step hstep => by cases hstep; exact not_false) (by rw [hn]; rfl)
  refine ⟨?_, hrun.shmem, ?_, hrun.setting, hrun.unissued, hrun.one, hrun.begun, hrun.known⟩
  · rintro t ht
    obtain rfl := Option.some.inj ht
    refine ⟨hvalid, hissued, fun step hstep => ?_⟩
    have hself := setLaunch_self { s with token := some token } s.current (some .run)
    cases hself.symm.trans hstep
    exact not_false
  · intro hs hhs
    obtain ⟨-, hwaiting⟩ := hrun.waiting hs hhs
    refine ⟨fun heq => ?_, hwaiting⟩
    -- a handshake with this token would have taken it from the cell
    obtain ⟨-, k, hk, -⟩ := h.waiting hs hhs
    obtain rfl : token = hs.token := Option.some.inj heq
    obtain rfl : s.current = k := Option.some.inj (hissued.symm.trans hk.issued)
    exact hk.past _ hn trivial

variable {created : Option (List UInt8 × Token)}

theorem create (h : Inv s)
    (hn : s.launches s.current = some .create)
    (hcreated : ∀ made ∈ created, s.issued made.2 = none ∧
      ∀ hs ∈ s.handshake, hs.shmemName ≠ some made.1) :
    Inv (s.create s.current created) := by
  have hsome : (s.launches s.current).isSome := by
    rw [hn]
    rfl
  have hgiveUp : Inv (s.setLaunch s.current (some .giveUp)) :=
    h.goOn (fun step hstep => by cases hstep; exact not_false) hsome
  cases created with
  | none => exact hgiveUp
  | some made =>
    obtain ⟨shmemName, ipcToken⟩ := made
    obtain ⟨hnew, hname⟩ := hcreated (shmemName, ipcToken) rfl
    have hunissued := h.unissued _ (Or.inr hn)
    unfold Service.create writeIpcTokenToShmem
    dsimp only
    split_ifs with hvalidName hvalid
    · exact (h.withMemory rfl hunissued hname).issue hn hvalid hnew
    · exact (h.withMemory rfl hunissued hname).goOn
        (fun step hstep => by cases hstep; exact not_false) hsome
    · exact hgiveUp

theorem launchStep (h : Inv s) {outcome : RunOutcome}
    (horderly : Orderly s (.launch n created outcome)) : Inv (s.launchStep n created outcome) := by
  unfold Service.launchStep
  cases hn : s.launches n with
  | none => exact h
  | some step =>
    have hsome : (s.launches n).isSome := by
      rw [hn]
      rfl
    have hthis := horderly step hn
    cases step with
    | clear => exact h.clear hn
    | create =>
      obtain ⟨rfl, hcreated⟩ := hthis
      exact h.create hn hcreated
    | setToken ipcToken =>
      obtain rfl : n = s.current := hthis
      exact h.setToken hn
    | run =>
      cases outcome with
      | started => exact h.goOn (fun step hstep => nomatch hstep) hsome
      | failed => exact h.goOn (fun step hstep => by cases hstep; exact not_false) hsome
      | noExe => exact h.goOn (fun step hstep => by cases hstep; exact not_false) hsome
    | fail =>
      exact (h.cleared s.current).goOn (fun step hstep => by cases hstep; exact not_false) hsome
    | giveUp => exact (h.flags s.running false).goOn (fun step hstep => nomatch hstep) hsome

end Inv

/-! ### Handshakes -/

section Handshakes

variable {s : Service} {candidate : Token} {hs : Handshake}

theorem accepts_iff (h : Inv s) : s.Accepts candidate ↔ s.token = some candidate := by
  unfold Accepts consumeRuntimeIpcTokenIfMatch
  cases htoken : s.token with
  | none => simp
  | some token =>
    have hlen := length_of_valid (h.cell token htoken).valid
    have heq : constantTimeIpcTokenEq token candidate = true ↔ token = candidate := by
      rw [constantTimeIpcTokenEq_iff]
      exact and_iff_right hlen
    rw [Option.any_some, Option.some.injEq, ← heq]
    split_ifs with hmatch
    · exact iff_of_true rfl hmatch
    · exact iff_of_false (by simp) hmatch

theorem beginHandshake_accepted (h : Inv s) (hidle : s.handshake = none)
    (htoken : s.token = some candidate) :
    s.beginHandshake candidate =
      ({ s with
          token := none
          shmem := s.shmem.map clearIpcTokenInShmem
          handshake := some ⟨candidate, s.name⟩ }, [.accepted candidate]) := by
  have haccepts : s.Accepts candidate := (accepts_iff h).mpr htoken
  unfold Accepts consumeRuntimeIpcTokenIfMatch at haccepts
  unfold beginHandshake consumeRuntimeIpcTokenIfMatch
  rw [hidle]
  split_ifs at haccepts ⊢ with hmatch
  rfl

theorem beginHandshake_rejected (h : Inv s) (hidle : s.handshake = none)
    (htoken : s.token ≠ some candidate) : s.beginHandshake candidate = (s, [.rejected]) := by
  have haccepts : ¬ s.Accepts candidate := fun ha => htoken ((accepts_iff h).mp ha)
  unfold Accepts consumeRuntimeIpcTokenIfMatch at haccepts
  unfold beginHandshake consumeRuntimeIpcTokenIfMatch
  rw [hidle]
  split_ifs at haccepts ⊢ with hmatch
  · exact absurd rfl haccepts
  · rfl

theorem beginHandshake_busy (hbusy : s.handshake = some hs) :
    s.beginHandshake candidate = (s, []) := by
  unfold beginHandshake
  rw [hbusy]

def putBack (s : Service) (shmem : SharedMemory) (token : Token) : Service :=
  { s with shmem := some { shmem with ipcToken := some token }, token := some token }

theorem restore_eq (h : Inv s) (hwaiting : s.handshake = some hs) :
    (¬ (s.IsCurrent hs.token ∧ s.shmem.isSome) ∧
      s.restoreRuntimeIpcTokenAfterFailedHandshake hs.token hs.shmemName = s) ∨
    (s.IsCurrent hs.token ∧ ∃ shmem, s.shmem = some shmem ∧
      s.restoreRuntimeIpcTokenAfterFailedHandshake hs.token hs.shmemName =
        s.putBack shmem hs.token) := by
  obtain ⟨hne, n, hmade, hname, hother⟩ := h.waiting hs hwaiting
  have hdrop : s.dropToken hs.token = s := if_neg hne
  unfold restoreRuntimeIpcTokenAfterFailedHandshake
  rw [hdrop]
  have hcurrent : s.IsCurrent hs.token ↔ n = s.current := by
    unfold IsCurrent
    rw [hmade.issued, Option.some.injEq]
  cases htoken : s.token with
  | some token =>
    -- the cell has the token of a later launch
    left
    have hnot : token ≠ hs.token := fun heq => hne (heq ▸ htoken)
    rw [Option.any_some, if_pos (by simpa using hnot)]
    refine ⟨?_, rfl⟩
    rintro ⟨hn, -⟩
    have hcell := (h.cell token htoken).issued
    exact hnot (h.one _ _ _ hcell hn)
  | none =>
    rw [Option.any_none, if_neg Bool.false_ne_true]
    cases hshmem : s.shmem with
    | none =>
      left
      refine ⟨fun hsome => (nomatch hsome.2), ?_⟩
      split_ifs <;> rfl
    | some shmem =>
      rw [hshmem] at hname hother
      by_cases hn : n = s.current
      · right
        refine ⟨hcurrent.mpr hn, shmem, rfl, ?_⟩
        rw [if_neg (not_not.mpr (hname hn rfl).symm)]
        unfold writeIpcTokenToShmem
        rw [Option.bind_some, if_pos hmade.valid]
        rfl
      · left
        refine ⟨fun hsome => hn (hcurrent.mp hsome.1), ?_⟩
        rw [if_pos fun heq => nomatch hother hn heq.symm]

theorem endHandshake_failed (hwaiting : s.handshake = some hs) :
    s.endHandshake false =
      ({ s.restoreRuntimeIpcTokenAfterFailedHandshake hs.token hs.shmemName with
          handshake := none, starting := false }, []) := by
  unfold Service.endHandshake
  rw [hwaiting]
  rfl

theorem Inv.beginHandshake (h : Inv s) (candidate : Token) :
    Inv (s.beginHandshake candidate).1 := by
  cases hidle : s.handshake with
  | some hs =>
    rw [beginHandshake_busy hidle]
    exact h
  | none =>
    by_cases htoken : s.token = some candidate
    · rw [beginHandshake_accepted h hidle htoken]
      have hmade := h.cell candidate htoken
      refine ⟨nofun, ?_, ?_, h.setting, h.unissued, h.one, h.begun, h.known⟩
      · intro shmem hshmem
        obtain ⟨before, hbefore, rfl⟩ := Option.map_eq_some_iff.mp hshmem
        exact h.shmem before hbefore
      · intro hs hhs
        obtain rfl := Option.some.inj hhs
        exact ⟨nofun, s.current, hmade, fun _ _ => rfl, fun hne => absurd rfl hne⟩
    · rw [beginHandshake_rejected h hidle htoken]
      exact h

theorem Inv.endHandshake (h : Inv s) (ok : Bool) : Inv (s.endHandshake ok).1 := by
  unfold Service.endHandshake
  cases hhs : s.handshake with
  | none => exact h
  | some hs =>
    have hover : ∀ {s' : Service}, Inv s' → Inv { s' with handshake := none } := by
      rintro s' ⟨hcell, hshmem, -, hsetting, hunissued, hone, hbegun, hknown⟩
      exact ⟨hcell, hshmem, nofun, hsetting, hunissued, hone, hbegun, hknown⟩
    dsimp only
    split_ifs
    · exact hover h
    · rcases restore_eq h hhs with ⟨-, hkept⟩ | ⟨hcurrent, shmem, hshmem, hback⟩
      · rw [hkept]
        exact hover (h.flags s.running false)
      · rw [hback]
        obtain ⟨-, n, hmade, -⟩ := h.waiting hs hhs
        obtain rfl : n = s.current := Option.some.inj (hmade.issued.symm.trans hcurrent)
        refine ⟨?_, ?_, nofun, h.setting, h.unissued, h.one, h.begun, h.known⟩
        · intro token htoken
          obtain rfl := Option.some.inj htoken
          exact hmade
        · intro m hm
          obtain rfl := Option.some.inj hm
          exact h.shmem shmem hshmem

end Handshakes

/-! ### Any steps -/

theorem Inv.next {s : Service} (h : Inv s) {e : ServiceEvent} (horderly : Orderly s e) :
    Inv (service.next s e) := by
  cases e with
  | start hasRunningProcess => exact h.startPortableService hasRunningProcess
  | launch n created outcome => exact h.launchStep horderly
  | reset => exact h.cleared s.current
  | beginHandshake candidate => exact h.beginHandshake candidate
  | endHandshake ok => exact h.endHandshake ok
  | pong => exact h.flags true false
  | closed => exact h.flags false false
  | watchdog launchToken =>
    have hnext : service.next s (.watchdog launchToken) =
        { s with starting :=
            if s.startingToken = launchToken ∧ s.starting ∧ !s.running then false
            else s.starting } := by
      unfold Machine.next service serviceStep
      dsimp only
      split_ifs <;> rfl
    rw [hnext]
    exact h.flags s.running _

theorem Inv.run {es : List ServiceEvent} (h : service.Meets Orderly {} es) :
    Inv (service.run {} es) :=
  h.inv_run Inv.empty fun _ _ horderly hs => hs.next horderly

/-- The token was made, and there is no copy of it left with which a handshake could succeed. -/
structure Spent (s : Service) (token : Token) : Prop where
  issued : s.issued token ≠ none
  cell : s.token ≠ some token
  waiting : ∀ hs, s.handshake = some hs → hs.token ≠ token
  setting : ∀ n, s.launches n ≠ some (.setToken token)

section Spent

variable {s : Service} {token : Token}

theorem Spent.setLaunch (h : Spent s token) {n : ℕ} {next : Option LaunchStep}
    (hnext : next ≠ some (.setToken token)) : Spent (s.setLaunch n next) token := by
  refine ⟨h.issued, h.cell, h.waiting, fun k => ?_⟩
  by_cases heq : k = n
  · rw [heq, setLaunch_self]
    exact hnext
  · rw [setLaunch_of_ne _ _ heq]
    exact h.setting k

theorem Spent.create (h : Spent s token) {n : ℕ} {created : Option (List UInt8 × Token)}
    (hnew : ∀ shmemName ipcToken, created = some (shmemName, ipcToken) → ipcToken ≠ token) :
    Spent (s.create n created) token := by
  have hgiveUp : Spent (s.setLaunch n (some .giveUp)) token := h.setLaunch (by simp)
  cases created with
  | none => exact hgiveUp
  | some made =>
    obtain ⟨shmemName, ipcToken⟩ := made
    have hne := hnew shmemName ipcToken rfl
    unfold Service.create writeIpcTokenToShmem
    dsimp only
    split_ifs
    · refine Spent.setLaunch (s := { s with
        name := some shmemName
        shmem := some ⟨some ipcToken, n⟩
        issued := s.issued.insert ipcToken n }) ⟨?_, h.cell, h.waiting, h.setting⟩ ?_
      · dsimp only
        rw [Table.insert_of_ne _ _ (Ne.symm hne)]
        exact h.issued
      · intro heq
        cases heq
        exact hne rfl
    · exact Spent.setLaunch (s := { s with name := some shmemName, shmem := some ⟨none, n⟩ })
        ⟨h.issued, h.cell, h.waiting, h.setting⟩ (by simp)
    · exact hgiveUp

theorem Spent.launchStep (h : Spent s token) {n : ℕ} {created : Option (List UInt8 × Token)}
    {outcome : RunOutcome} (horderly : Orderly s (.launch n created outcome)) :
    Spent (s.launchStep n created outcome) token := by
  have hcleared : ∀ current, Spent { s.clearRuntimeShmemState with current := current } token :=
    fun current => ⟨h.issued, nofun, h.waiting, h.setting⟩
  unfold Service.launchStep
  cases hn : s.launches n with
  | none => exact h
  | some step =>
    cases step with
    | clear => exact (hcleared n).setLaunch nofun
    | create =>
      obtain ⟨-, hcreated⟩ := horderly _ hn
      refine h.create fun shmemName ipcToken hmade heq => ?_
      -- a new token has not been made before
      exact h.issued (heq ▸ (hcreated (shmemName, ipcToken) hmade).1)
    | setToken ipcToken =>
      have hne : ipcToken ≠ token := fun heq => h.setting n (heq ▸ hn)
      have hset : Spent { s with token := some ipcToken } token :=
        ⟨h.issued, fun heq => hne (Option.some.inj heq), h.waiting, h.setting⟩
      exact hset.setLaunch nofun
    | run => cases outcome <;> exact h.setLaunch nofun
    | fail => exact (hcleared s.current).setLaunch nofun
    | giveUp =>
      have hflag : Spent { s with starting := false } token :=
        ⟨h.issued, h.cell, h.waiting, h.setting⟩
      exact hflag.setLaunch nofun

theorem Spent.startPortableService (h : Spent s token) (hasRunningProcess : Bool) :
    Spent (s.startPortableService hasRunningProcess).1 token := by
  unfold Service.startPortableService
  dsimp only
  generalize (if s.starting && !s.running && !hasRunningProcess then false else s.starting) =
    starting
  split_ifs
  · exact ⟨h.issued, h.cell, h.waiting, h.setting⟩
  · have hbegun : Spent { s with starting := true, startingToken := s.startingToken + 1 } token :=
      ⟨h.issued, h.cell, h.waiting, h.setting⟩
    exact hbegun.setLaunch nofun

theorem Spent.beginHandshake (h : Spent s token) (hinv : Inv s) (candidate : Token) :
    Spent (s.beginHandshake candidate).1 token := by
  cases hidle : s.handshake with
  | some hs =>
    rw [beginHandshake_busy hidle]
    exact h
  | none =>
    by_cases htoken : s.token = some candidate
    · rw [beginHandshake_accepted hinv hidle htoken]
      refine ⟨h.issued, nofun, ?_, h.setting⟩
      rintro hs hhs rfl
      obtain rfl := Option.some.inj hhs
      exact h.cell htoken
    · rw [beginHandshake_rejected hinv hidle htoken]
      exact h

theorem Spent.endHandshake (h : Spent s token) (hinv : Inv s) (ok : Bool) :
    Spent (s.endHandshake ok).1 token := by
  unfold Service.endHandshake
  cases hhs : s.handshake with
  | none => exact h
  | some hs =>
    dsimp only
    split_ifs
    · exact ⟨h.issued, h.cell, nofun, h.setting⟩
    · rcases restore_eq hinv hhs with ⟨-, hkept⟩ | ⟨-, shmem, -, hback⟩
      · rw [hkept]
        exact ⟨h.issued, h.cell, nofun, h.setting⟩
      · rw [hback]
        -- the token that is put back is another one
        refine ⟨h.issued, fun heq => ?_, nofun, h.setting⟩
        exact h.waiting hs hhs (Option.some.inj heq)

theorem Spent.next (h : Spent s token) (hinv : Inv s) {e : ServiceEvent} (horderly : Orderly s e) :
    Spent (service.next s e) token := by
  cases e with
  | start hasRunningProcess => exact h.startPortableService hasRunningProcess
  | launch n created outcome => exact h.launchStep horderly
  | reset => exact ⟨h.issued, nofun, h.waiting, h.setting⟩
  | beginHandshake candidate => exact h.beginHandshake hinv candidate
  | endHandshake ok => exact h.endHandshake hinv ok
  | pong | closed => exact ⟨h.issued, h.cell, h.waiting, h.setting⟩
  | watchdog launchToken =>
    unfold Machine.next service serviceStep
    dsimp only
    split_ifs
    · exact ⟨h.issued, h.cell, h.waiting, h.setting⟩
    · exact h

theorem spent_of_authenticated (hinv : Inv s) {hs : Handshake} (hhs : s.handshake = some hs) :
    Spent (service.next s (.endHandshake true)) hs.token := by
  obtain ⟨hcell, n, hmade, -⟩ := hinv.waiting hs hhs
  have hnext : service.next s (.endHandshake true) = { s with handshake := none } := by
    unfold Machine.next service serviceStep Service.endHandshake
    dsimp only
    rw [hhs]
    rfl
  rw [hnext]
  refine ⟨fun hnone => ?_, hcell, nofun, fun k hk => ?_⟩
  · exact Option.some_ne_none n (hmade.issued.symm.trans hnone)
  · -- its launch has set it
    obtain rfl : k = n := Option.some.inj ((hinv.setting k _ hk).2.symm.trans hmade.issued)
    exact hmade.past _ hk trivial

end Spent

theorem of_mem_authenticated {s : Service} {e : ServiceEvent} {token : Token}
    (h : .authenticated token ∈ service.out s e) :
    e = .endHandshake true ∧ ∃ hs, s.handshake = some hs ∧ hs.token = token ∧
      service.out s e = [.authenticated token] := by
  cases e with
  | start hasRunningProcess =>
    unfold Machine.out service serviceStep Service.startPortableService at h
    dsimp only at h
    split_ifs at h <;> simp at h
  | launch | reset | pong | closed => cases h
  | beginHandshake candidate =>
    unfold Machine.out service serviceStep Service.beginHandshake at h
    dsimp only at h
    split at h
    · cases h
    · split at h <;> simp at h
  | endHandshake ok =>
    unfold Machine.out service serviceStep Service.endHandshake at h ⊢
    dsimp only at h ⊢
    cases hhs : s.handshake with
    | none =>
      rw [hhs] at h
      cases h
    | some hs =>
      rw [hhs] at h
      cases ok with
      | false => cases h
      | true =>
        obtain rfl : token = hs.token := by simpa using h
        exact ⟨rfl, hs, rfl, rfl, rfl⟩
  | watchdog launchToken =>
    unfold Machine.out service serviceStep at h
    dsimp only at h
    split_ifs at h <;> cases h

theorem of_mem_accepted {s : Service} (hinv : Inv s) {token : Token}
    (h : .accepted token ∈ service.out s (.beginHandshake token)) : s.token = some token := by
  have hout : service.out s (.beginHandshake token) = (s.beginHandshake token).2 := rfl
  rw [hout] at h
  cases hidle : s.handshake with
  | some hs =>
    rw [beginHandshake_busy hidle] at h
    cases h
  | none =>
    by_contra htoken
    rw [beginHandshake_rejected hinv hidle htoken] at h
    simp at h

end Service

theorem meets_inv {es : List ServiceEvent} (h : service.Meets Orderly {} es) :
    service.Meets (fun s e => Orderly s e ∧ s.Inv) {} es := by
  have htrace := h.inv_trace Service.Inv.empty fun s e horderly hs => hs.next horderly
  exact fun p hp => ⟨h p hp, htrace p hp⟩

open Classical in
theorem authenticated_once {es : List ServiceEvent} (h : service.Meets Orderly {} es)
    (token : Token) : (service.outputs {} es).count (.authenticated token) ≤ 1 := by
  have hcount := (meets_inv h).count_outputs_le (o := .authenticated token)
    (φ := fun s => if s.Spent token then 1 else 0) ?_
  · have hle : (if (service.run {} es).Spent token then 1 else 0) ≤ 1 := by split_ifs <;> omega
    omega
  · rintro s e ⟨horderly, hinv⟩
    by_cases hmem : .authenticated token ∈ service.out s e
    · obtain ⟨rfl, hs, hhs, rfl, hout⟩ := Service.of_mem_authenticated hmem
      have hbefore : ¬ s.Spent hs.token := fun hspent => hspent.waiting hs hhs rfl
      rw [hout, if_neg hbefore, if_pos (Service.spent_of_authenticated hinv hhs)]
      simp
    · rw [List.count_eq_zero_of_not_mem hmem, Nat.zero_add]
      by_cases hspent : s.Spent token
      · have hnext := hspent.next hinv horderly
        simp only [if_pos hspent, if_pos hnext, Nat.le_refl]
      · rw [if_neg hspent]
        exact Nat.zero_le _

/-- **Tokens are used once**, and only while they are those of the current launch, in the runs whose
steps are `Orderly`. -/
theorem right_of_orderly {es : List ServiceEvent} (h : service.Meets Orderly {} es) : Right es := by
  -- what every state of the run has
  have hinv : ∀ past e, past ++ [e] <+: es → (service.run {} past).Inv := by
    rintro past e ⟨rest, rfl⟩
    rw [Machine.meets_append, Machine.meets_append] at h
    exact Service.Inv.run h.1.1
  refine ⟨authenticated_once h, ?_, ?_⟩
  · intro past token hpast haccepted
    have hs := hinv past _ hpast
    exact (hs.cell token (Service.of_mem_accepted hs haccepted)).issued
  · intro past hs hpast hhs hcurrent
    have hbefore := hinv past _ hpast
    have hafter : (service.run {} (past ++ [.endHandshake false])).Inv := by
      rw [Machine.run_append]
      exact hbefore.endHandshake false
    rw [Service.accepts_iff hafter, Machine.run_append]
    have hnext : service.run (service.run {} past) [.endHandshake false] =
        { (service.run {} past).restoreRuntimeIpcTokenAfterFailedHandshake hs.token hs.shmemName
            with handshake := none, starting := false } :=
      congrArg Prod.fst (Service.endHandshake_failed hhs)
    rw [hnext]
    rcases Service.restore_eq hbefore hhs with ⟨hnot, hkept⟩ | ⟨-, shmem, hshmem, hback⟩
    · rw [hkept]
      refine iff_of_false (hbefore.waiting hs hhs).1 ?_
      rintro ⟨shmem, hshmem, -⟩
      exact hnot ⟨hcurrent, by rw [hshmem]; rfl⟩
    · rw [hback]
      exact iff_of_true rfl ⟨shmem, hshmem, hbefore.shmem shmem hshmem⟩

/-- A token of the byte `byte`, and a name. -/
def tokenOf (byte : UInt8) : Token := List.replicate ipcTokenLen byte

def nameOf (byte : UInt8) : List UInt8 := [95, byte]

/-- Two launches one after the other. The first handshake fails and is tried again. -/
def launchedTwice : List ServiceEvent :=
  [.start false, .launch 1 none .started, .launch 1 (some (nameOf 49, tokenOf 97)) .started,
    .launch 1 none .started, .launch 1 none .started, .beginHandshake (tokenOf 97),
    .endHandshake false, .beginHandshake (tokenOf 97), .endHandshake true, .pong, .closed,
    .start false, .launch 2 none .started, .launch 2 (some (nameOf 50, tokenOf 98)) .started,
    .launch 2 none .started, .beginHandshake (tokenOf 97), .beginHandshake (tokenOf 98),
    .endHandshake true]

theorem right_launchedTwice : Right launchedTwice := right_of_orderly (by decide +kernel)

/-- Two launches at a time: both make their memory, and the first one sets its token last. -/
def launchedTogether : List ServiceEvent :=
  [.start false, .start false, .launch 1 none .started, .launch 2 none .started,
    .launch 1 (some (nameOf 49, tokenOf 97)) .started,
    .launch 2 (some (nameOf 50, tokenOf 98)) .started, .launch 2 none .started,
    .launch 1 none .started]

/-- The token of the first launch is accepted while the memory is that of the second one, and it is
accepted again after its handshake has failed. -/
theorem token_of_the_other :
    (service.run {} launchedTogether).shmem.map SharedMemory.launch = some 2 ∧
      (service.run {} launchedTogether).issued (tokenOf 97) = some 1 ∧
      (service.run {} launchedTogether).Accepts (tokenOf 97) ∧
      (service.run {} (launchedTogether ++
        [.beginHandshake (tokenOf 97), .endHandshake false])).Accepts (tokenOf 97) ∧
      ¬ Right (launchedTogether ++ [.beginHandshake (tokenOf 97)]) := by
  refine ⟨by decide +kernel, by decide +kernel, by decide +kernel, by decide +kernel, ?_⟩
  intro h
  have hcurrent := h.current launchedTogether (tokenOf 97) List.prefix_rfl (by decide +kernel)
  have hnot : (service.run {} launchedTogether).issued (tokenOf 97) ≠
    some (service.run {} launchedTogether).current := by decide +kernel
  exact hnot hcurrent

end LibRustdesk.Desktop.Portable
