import Mathlib.Data.Fin.VecNotation
import Mathlib.Data.Nat.Digits.Defs
import LibRustdesk.Framework.Machine
import LibRustdesk.Framework.Table

/-!
# Registration with the rendezvous servers

There is a mediator for each configured server (`RendezvousMediator::start` of
`harmony_bridge/rendezvous_mediator_ohos.rs`), a task of a runtime with several threads. Each of
them registers the device: with its id and public key until both are confirmed (`RegisterPk`), and
with the id alone from then on (`RegisterPeer`).

* `Config` — the id, the public key, and what is confirmed. One flag is for the device, and there
  is one for each host, under the first label of its name (`getHostPrefix`).
* `Phase` — the next statement of a task that reads or writes what tasks share. A task that waits
  for the timer or for its socket is `idle`, and so is one that has ended.
* `Mediators` — the tasks of the servers `host 0`, …, `host (n - 1)`, and the network between. What
  a server answers stays in `inbox`: a task may receive it at any time after, or again, or never.

The flags are to say that the server has confirmed what is current. `registerPeer_confirmed` gives
the two moments that decide it (`Sound`): when a host is confirmed, the hosts of the same prefix
must have answered to the current key, and when the id changes, no host may count as confirmed.
Neither is seen to. Two hosts that share their first label share a confirmation
(`registerPeer_unconfirmed`), an answer to the id before counts for the id after, and the
confirmation of one task may come between the two statements with which another one clears the table
and changes the id.

The serial number, the uuid and the `keep_alive` interval are left out, and so is what servers send
besides the answers to a registration. The public key is the one of the first call of
`Config::get_key_pair`.
-/

namespace LibRustdesk.Ohos.Rendezvous

/-! ### What is confirmed -/

/-- What a `RegisterPk` carries. -/
structure RegisterPk where
  id : List Char
  pk : List UInt8
  deriving DecidableEq, Repr

/-- The fields of `Config` that registration reads and writes. -/
structure Config where
  id : List Char
  pk : List UInt8
  keyConfirmed : Bool
  keysConfirmed : Table (List Char) Bool

namespace Config

variable (c : Config)

def current : RegisterPk := ⟨c.id, c.pk⟩

def setKeyConfirmed (v : Bool) : Config :=
  if c.keyConfirmed = v then c
  else if v then { c with keyConfirmed := true }
  else { c with keyConfirmed := false, keysConfirmed := Table.empty }

def getHostKeyConfirmed (host : List Char) : Bool := c.keysConfirmed host = some true

/-- The insertion of `set_host_key_confirmed`, which comes after a look of its own. -/
def insertHost (host : List Char) (v : Bool) : Config :=
  { c with keysConfirmed := c.keysConfirmed.insert host v }

end Config

/-- Whether `str::parse::<i32>` takes a string. -/
def parsesI32 (s : List Char) : Bool :=
  let digits (ds : List Char) : Bool := !ds.isEmpty && ds.all Char.isDigit
  let value (ds : List Char) : ℕ := Nat.ofDigits 10 (ds.reverse.map fun c => c.toNat - '0'.toNat)
  match s with
  | '-' :: ds => digits ds && decide (value ds ≤ 2 ^ 31)
  | '+' :: ds => digits ds && decide (value ds < 2 ^ 31)
  | ds => digits ds && decide (value ds < 2 ^ 31)

def getHostPrefix (host : List Char) : List Char :=
  let label := host.takeWhile (· ≠ '.')
  if parsesI32 label then host else label

example : getHostPrefix "rs-ny.rustdesk.com:21116".toList = "rs-ny".toList := by decide +kernel

example : getHostPrefix "10.0.0.1:21116".toList = "10.0.0.1:21116".toList := by decide +kernel

/-! ### The tasks -/

/-- `register_pk_response::Result`, with one name for the results that are only logged. -/
inductive PkResult
  | ok
  | uuidMismatch
  | notDeployed
  | other
  deriving DecidableEq, Repr

/-- An answer of a server, with the request it answers. -/
inductive Response
  | registerPeerResponse (requestPk : Bool)
  | registerPkResponse (request : RegisterPk) (result : PkResult)
  deriving DecidableEq, Repr

inductive Request
  | registerPk (request : RegisterPk)
  | registerPeer (id : List Char)
  deriving DecidableEq, Repr

inductive Phase
  | idle
  /-- `register_peer` reads the flag of the device, -/
  | peerKey
  /-- then the one of the host, -/
  | peerHost
  /-- then the id, -/
  | peerId
  | peerSend (id : List Char)
  /-- `register_pk` reads the id and the key pair. -/
  | pkId
  | pkSend (request : RegisterPk)
  /-- OK: `set_key_confirmed(true)`, -/
  | okKey
  /-- `set_host_key_confirmed` looks, -/
  | okHost
  /-- and inserts, -/
  | okInsert
  /-- `SOLVING_PK_MISMATCH` is emptied, -/
  | okSolved
  | okDeploy
  /-- UUID_MISMATCH: the lock is taken, -/
  | mismatchLock
  /-- `set_key_confirmed(false)`, -/
  | mismatchKey
  /-- `update_id`, -/
  | mismatchId
  /-- and the host is noted. -/
  | mismatchSolving
  /-- NOT_DEPLOYED: `NEEDS_DEPLOY` is set, -/
  | undeployed
  /-- `set_key_confirmed(false)`, -/
  | undeployedKey
  /-- `set_host_key_confirmed` looks, -/
  | undeployedHost
  /-- and inserts. -/
  | undeployedInsert
  deriving DecidableEq, Repr

/-- The task has found both flags set and goes on to send `RegisterPeer`. -/
def Phase.pastChecks : Phase → Bool
  | .peerId => true
  | .peerSend _ => true
  | _ => false

/-- The mediators of `n` servers, what they share, and the network. -/
structure Mediators (n : ℕ) where
  config : Config
  needsDeploy : Bool
  task : Fin n → Phase
  /-- The content of `SOLVING_PK_MISMATCH`. -/
  solving : List Char
  /-- Who holds its lock from one statement to the next. -/
  holder : Option (Fin n)
  sent : List (Fin n × RegisterPk)
  inbox : List (Fin n × Response)

inductive Event (n : ℕ)
  /-- The timer is due, and the task calls `register_peer`. -/
  | tick (h : Fin n)
  | receive (h : Fin n) (response : Response)
  /-- The next statement of the task; `drawn` is the random number of `update_id`. -/
  | advance (h : Fin n) (drawn : Fin 1000000000)
  /-- The socket does not take what the task sends. -/
  | sendFails (h : Fin n)
  /-- The server answers to a `RegisterPk` it has been sent. -/
  | answer (h : Fin n) (request : RegisterPk) (result : PkResult)
  | answerPeer (h : Fin n) (requestPk : Bool)
  /-- A peer takes no part in the key exchange, and `accept_connection` calls
  `set_key_confirmed(false)`. -/
  | forceUpdatePk
  /-- Every task has ended, and `start_all` begins again. -/
  | restart
  deriving DecidableEq, Repr

namespace Mediators

variable {n : ℕ} (host : Fin n → List Char) (s : Mediators n)

/-- The task of `h` goes on to another statement. -/
def move (h : Fin n) (p : Phase) : Mediators n := { s with task := Function.update s.task h p }

/-- A change of the configuration by the task of `h`. -/
def configure (h : Fin n) (c : Config) (p : Phase) : Mediators n :=
  { s.move h p with config := c }

/-- What `handle_resp` does first with an answer. -/
def handleResp : Response → Phase
  | .registerPeerResponse true => .pkId
  | .registerPeerResponse false => .idle
  | .registerPkResponse _ .ok => .okKey
  | .registerPkResponse _ .uuidMismatch => .mismatchLock
  | .registerPkResponse _ .notDeployed => .undeployed
  | .registerPkResponse _ .other => .idle

/-- The id that `update_id` makes of a random number. -/
def drawnId (drawn : Fin 1000000000) : List Char := (toString (1000000000 + drawn.val)).toList

/-- The next statement of the task of `h`, and what it sends. -/
def advance (h : Fin n) (drawn : Fin 1000000000) : Mediators n × List (Fin n × Request) :=
  let hostPrefix := getHostPrefix (host h)
  match s.task h with
  | .idle => (s, [])
  | .peerKey => (s.move h (if s.config.keyConfirmed then .peerHost else .pkId), [])
  | .peerHost =>
    (s.move h (if s.config.getHostKeyConfirmed hostPrefix then .peerId else .pkId), [])
  | .peerId => (s.move h (.peerSend s.config.id), [])
  | .peerSend id => (s.move h .idle, [(h, .registerPeer id)])
  | .pkId => (s.move h (.pkSend s.config.current), [])
  | .pkSend r => ({ s.move h .idle with sent := (h, r) :: s.sent }, [(h, .registerPk r)])
  | .okKey => (s.configure h (s.config.setKeyConfirmed true) .okHost, [])
  | .okHost =>
    (s.move h (if s.config.getHostKeyConfirmed hostPrefix then .okSolved else .okInsert), [])
  | .okInsert => (s.configure h (s.config.insertHost hostPrefix true) .okSolved, [])
  | .okSolved =>
    -- the lock may be held by a task that changes the id
    if s.holder = none then ({ s.move h .okDeploy with solving := [] }, []) else (s, [])
  | .okDeploy => ({ s.move h .idle with needsDeploy := false }, [])
  | .mismatchLock =>
    if s.holder ≠ none then (s, [])
    else if s.solving = [] ∨ s.solving = host h then
      ({ s.move h .mismatchKey with holder := some h }, [])
    else (s.move h .idle, [])
  | .mismatchKey => (s.configure h (s.config.setKeyConfirmed false) .mismatchId, [])
  | .mismatchId => (s.configure h { s.config with id := drawnId drawn } .mismatchSolving, [])
  | .mismatchSolving => ({ s.move h .pkId with solving := host h, holder := none }, [])
  | .undeployed => ({ s.move h .undeployedKey with needsDeploy := true }, [])
  | .undeployedKey => (s.configure h (s.config.setKeyConfirmed false) .undeployedHost, [])
  | .undeployedHost =>
    (s.move h (if s.config.getHostKeyConfirmed hostPrefix then .undeployedInsert else .idle), [])
  | .undeployedInsert => (s.configure h (s.config.insertHost hostPrefix false) .idle, [])

/-- The task ends with an error, or `handle_resp` does. -/
def sendFails (h : Fin n) : Mediators n :=
  match s.task h with
  | .peerSend _ => s.move h .idle
  | .pkSend _ => s.move h .idle
  | _ => s

def init (id : List Char) (pk : List UInt8) : Mediators n where
  config := ⟨id, pk, false, Table.empty⟩
  needsDeploy := false
  task := fun _ => .idle
  solving := []
  holder := none
  sent := []
  inbox := []

end Mediators

def machine {n : ℕ} (host : Fin n → List Char) :
    Machine (Mediators n) (Event n) (Fin n × Request) where
  step s e :=
    match e with
    | .tick h => if s.task h = .idle then (s.move h .peerKey, []) else (s, [])
    | .receive h response =>
      if s.task h = .idle ∧ (h, response) ∈ s.inbox then
        (s.move h (Mediators.handleResp response), [])
      else (s, [])
    | .advance h drawn => s.advance host h drawn
    | .sendFails h => (s.sendFails h, [])
    | .answer h request result =>
      if (h, request) ∈ s.sent then
        ({ s with inbox := (h, .registerPkResponse request result) :: s.inbox }, [])
      else (s, [])
    | .answerPeer h requestPk =>
      ({ s with inbox := (h, .registerPeerResponse requestPk) :: s.inbox }, [])
    | .forceUpdatePk => ({ s with config := s.config.setKeyConfirmed false }, [])
    | .restart => if ∀ h, s.task h = .idle then ({ s with solving := [] }, []) else (s, [])

/-! ### What is confirmed has been answered -/

section Safety

variable {n : ℕ} (host : Fin n → List Char) {s : Mediators n}

/-- The server has answered OK to a `RegisterPk` with these. -/
def Mediators.Answered (s : Mediators n) (h : Fin n) (r : RegisterPk) : Prop :=
  (h, .registerPkResponse r .ok) ∈ s.inbox

instance (s : Mediators n) (h : Fin n) (r : RegisterPk) : Decidable (s.Answered h r) := by
  unfold Mediators.Answered
  infer_instance

/-- The host counts as confirmed, or has when its task looked. -/
def Mediators.Confirmed (s : Mediators n) (h : Fin n) : Prop :=
  s.config.getHostKeyConfirmed (getHostPrefix (host h)) = true ∨ (s.task h).pastChecks = true

instance (s : Mediators n) (h : Fin n) : Decidable (s.Confirmed host h) := by
  unfold Mediators.Confirmed
  infer_instance

/-- Where a task confirms its host, every host with the same prefix has confirmed what is current;
where the id changes, no host counts as confirmed. -/
def Sound (s : Mediators n) : Event n → Prop
  | .advance h _ =>
    (s.task h = .okInsert →
      ∀ h', getHostPrefix (host h') = getHostPrefix (host h) → s.Answered h' s.config.current) ∧
    (s.task h = .mismatchId → ∀ h', ¬ s.Confirmed host h')
  | _ => True

instance (s : Mediators n) (e : Event n) : Decidable (Sound host s e) := by
  unfold Sound
  split <;> infer_instance

/-- **The invariant.** What counts as confirmed has been answered. -/
def Mediators.Inv (s : Mediators n) : Prop :=
  ∀ h, s.Confirmed host h → s.Answered h s.config.current

/-! ### What a statement changes -/

namespace Config

theorem current_setKeyConfirmed (c : Config) (v : Bool) :
    (c.setKeyConfirmed v).current = c.current := by
  unfold setKeyConfirmed
  split_ifs <;> rfl

theorem getHostKeyConfirmed_setKeyConfirmed {c : Config} {v : Bool} {k : List Char}
    (h : (c.setKeyConfirmed v).getHostKeyConfirmed k = true) : c.getHostKeyConfirmed k = true := by
  unfold setKeyConfirmed at h
  split_ifs at h
  · exact h
  · exact h
  · cases h

theorem getHostKeyConfirmed_insertHost {c : Config} {k k' : List Char} {v : Bool}
    (h : (c.insertHost k v).getHostKeyConfirmed k' = true) :
    (k' = k ∧ v = true) ∨ c.getHostKeyConfirmed k' = true := by
  have hval : c.keysConfirmed.insert k v k' = some true := of_decide_eq_true h
  rw [Table.insert_apply] at hval
  by_cases hk : k' = k
  · rw [if_pos hk] at hval
    exact .inl ⟨hk, Option.some.inj hval⟩
  · rw [if_neg hk] at hval
    exact .inr (decide_eq_true hval)

end Config

namespace Mediators

variable {host}

theorem move_task_self (s : Mediators n) (h : Fin n) (p : Phase) : (s.move h p).task h = p := by
  change Function.update s.task h p h = p
  rw [Function.update_self]

theorem move_task_of_ne (s : Mediators n) {h h' : Fin n} (p : Phase) (hne : h' ≠ h) :
    (s.move h p).task h' = s.task h' := by
  change Function.update s.task h p h' = s.task h'
  rw [Function.update_of_ne hne]

theorem confirmed_move {h h' : Fin n} {p : Phase} (hp : p.pastChecks = true → s.Confirmed host h)
    (hc : (s.move h p).Confirmed host h') : s.Confirmed host h' := by
  rcases hc with hkey | hpast
  · exact .inl hkey
  · by_cases hh : h' = h
    · subst hh
      refine hp ?_
      rwa [move_task_self] at hpast
    · rw [move_task_of_ne s p hh] at hpast
      exact .inr hpast

namespace Inv

/-- **The frame.** Where the key stays, answers stay, and nothing more counts as confirmed, the
invariant stays. -/
theorem frame {s' : Mediators n} (hs : s.Inv host) (hcurrent : s'.config.current = s.config.current)
    (hinbox : ∀ m ∈ s.inbox, m ∈ s'.inbox)
    (hconf : ∀ h, s'.Confirmed host h → s.Confirmed host h) : s'.Inv host := by
  intro h hc
  have hans : s.Answered h s.config.current := hs h (hconf h hc)
  rw [hcurrent]
  exact hinbox _ hans

variable {h : Fin n} {p : Phase}

theorem move (hs : s.Inv host)
    (hp : p.pastChecks = true → s.Confirmed host h) : (s.move h p).Inv host :=
  hs.frame rfl (fun _ hm => hm) fun _ hc => confirmed_move hp hc

theorem move_unchecked (hs : s.Inv host) (hp : p.pastChecks = false) : (s.move h p).Inv host :=
  hs.move fun ht => by rw [hp] at ht; cases ht

theorem configure (hs : s.Inv host) {c : Config}
    (hp : p.pastChecks = false) (hcurrent : c.current = s.config.current)
    (hkeys : ∀ h', c.getHostKeyConfirmed (getHostPrefix (host h')) = true →
      s.Answered h' s.config.current) : (s.configure h c p).Inv host := by
  intro h' hc
  change (h', .registerPkResponse c.current .ok) ∈ s.inbox
  rw [hcurrent]
  rcases hc with hkey | hpast
  · exact hkeys h' hkey
  · -- the task was past its checks already, or it is the one that has moved
    refine hs h' (confirmed_move (h := h) (p := p) ?_ (.inr hpast))
    intro ht
    rw [hp] at ht
    cases ht

theorem setKeyConfirmed (hs : s.Inv host) (hp : p.pastChecks = false)
    (v : Bool) : (s.configure h (s.config.setKeyConfirmed v) p).Inv host := by
  refine hs.configure hp (Config.current_setKeyConfirmed _ _) fun h' hkey => hs h' (.inl ?_)
  exact Config.getHostKeyConfirmed_setKeyConfirmed hkey

theorem advance (hs : s.Inv host) {drawn : Fin 1000000000}
    (hsound : Sound host s (.advance h drawn)) : (s.advance host h drawn).1.Inv host := by
  obtain ⟨hinsert, hid⟩ := hsound
  unfold Mediators.advance
  cases htask : s.task h with
  | idle => exact hs
  | peerKey | okHost | undeployedHost =>
    refine hs.move_unchecked ?_
    split <;> rfl
  | peerHost =>
    -- the task goes on to `RegisterPeer` only where the host counts as confirmed
    refine hs.move fun hpast => .inl ?_
    by_contra hnot
    rw [if_neg hnot] at hpast
    cases hpast
  | peerId =>
    refine hs.move fun _ => .inr ?_
    rw [htask]
    rfl
  | peerSend | pkId => exact hs.move_unchecked rfl
  | pkSend | okDeploy => exact hs.move_unchecked (p := .idle) rfl
  | okKey => exact hs.setKeyConfirmed rfl true
  | okInsert =>
    refine hs.configure rfl rfl fun h' hkey => ?_
    rcases Config.getHostKeyConfirmed_insertHost hkey with ⟨hlabel, -⟩ | hkey
    · exact hinsert htask h' hlabel
    · exact hs h' (.inl hkey)
  | okSolved =>
    dsimp only
    split
    · exact hs.move_unchecked (p := .okDeploy) rfl
    · exact hs
  | mismatchLock =>
    dsimp only
    split_ifs
    · exact hs
    · exact hs.move_unchecked (p := .mismatchKey) rfl
    · exact hs.move_unchecked rfl
  | mismatchKey | undeployedKey => exact hs.setKeyConfirmed rfl false
  | mismatchId =>
    -- no host counts as confirmed, so none does for the new id
    intro h' hc
    refine absurd ?_ (hid htask h')
    rcases hc with hkey | hpast
    · exact .inl hkey
    · exact confirmed_move (h := h) (p := .mismatchSolving) (fun ht => by cases ht) (.inr hpast)
  | mismatchSolving => exact hs.move_unchecked (p := .pkId) rfl
  | undeployed => exact hs.move_unchecked (p := .undeployedKey) rfl
  | undeployedInsert =>
    refine hs.configure rfl rfl fun h' hkey => ?_
    rcases Config.getHostKeyConfirmed_insertHost hkey with ⟨-, hfalse⟩ | hkey
    · cases hfalse
    · exact hs h' (.inl hkey)

theorem step (hs : s.Inv host) {e : Event n} (he : Sound host s e) :
    ((machine host).next s e).Inv host := by
  unfold Machine.next machine
  cases e with
  | tick h =>
    dsimp only
    split
    · exact hs.move_unchecked rfl
    · exact hs
  | receive h response =>
    dsimp only
    split
    · refine hs.move_unchecked ?_
      unfold handleResp
      split <;> rfl
    · exact hs
  | advance h drawn => exact hs.advance he
  | sendFails h =>
    dsimp only
    unfold sendFails
    split
    · exact hs.move_unchecked rfl
    · exact hs.move_unchecked rfl
    · exact hs
  | answer h request result =>
    dsimp only
    split
    · exact hs.frame rfl (fun _ hm => List.mem_cons_of_mem _ hm) fun _ hc => hc
    · exact hs
  | answerPeer h requestPk =>
    exact hs.frame rfl (fun _ hm => List.mem_cons_of_mem _ hm) fun _ hc => hc
  | forceUpdatePk =>
    refine hs.frame (Config.current_setKeyConfirmed _ _) (fun _ hm => hm) fun h hc => ?_
    rcases hc with hkey | hpast
    · exact .inl (Config.getHostKeyConfirmed_setKeyConfirmed hkey)
    · exact .inr hpast
  | restart =>
    dsimp only
    split
    · exact hs.frame rfl (fun _ hm => hm) fun _ hc => hc
    · exact hs

end Inv

variable (host) in
theorem inv_init (id : List Char) (pk : List UInt8) : (init (n := n) id pk).Inv host := by
  intro h hc
  rcases hc with hkey | hpast
  · cases hkey
  · cases hpast

variable (host) in
theorem pastChecks_of_registerPeer {e : Event n} {h : Fin n} {id : List Char}
    (ho : (h, .registerPeer id) ∈ (machine host).out s e) : (s.task h).pastChecks = true := by
  unfold Machine.out machine at ho
  cases e with
  | advance h' drawn =>
    dsimp only at ho
    unfold Mediators.advance at ho
    split at ho
    case h_5 id' htask =>
      obtain ⟨rfl, -⟩ := Prod.mk.inj (List.mem_singleton.mp ho)
      rw [htask]
      rfl
    case h_7 r htask =>
      obtain ⟨-, hreq⟩ := Prod.mk.inj (List.mem_singleton.mp ho)
      cases hreq
    all_goals first
      | cases ho
      | (split_ifs at ho <;> exact absurd ho List.not_mem_nil)
  | tick h' | receive h' response | answer h' request result | restart =>
    dsimp only at ho
    split at ho <;> cases ho
  | sendFails | answerPeer | forceUpdatePk => cases ho

theorem Inv.answered (hs : s.Inv host) {e : Event n} {h : Fin n} {id : List Char}
    (ho : (h, .registerPeer id) ∈ (machine host).out s e) : s.Answered h s.config.current :=
  hs h (.inr (pastChecks_of_registerPeer host ho))

theorem inv_trace (id : List Char) (pk : List UInt8) {es : List (Event n)}
    (hsound : (machine host).Meets (Sound host) (init id pk) es) :
    ∀ p ∈ (machine host).trace (init id pk) es, p.1.Inv host :=
  hsound.inv_trace (inv_init host id pk) fun _ _ he hs => hs.step he

end Mediators

/-- **A server that is sent `RegisterPeer` has confirmed what is current**, where a task that
confirms its host finds every host of the same prefix to have answered to the current key, and no
host counts as confirmed when the id changes. -/
theorem registerPeer_confirmed (id : List Char) (pk : List UInt8) {es : List (Event n)}
    (hsound : (machine host).Meets (Sound host) (Mediators.init id pk) es) :
    ∀ p ∈ (machine host).trace (Mediators.init id pk) es, ∀ h i,
      (h, .registerPeer i) ∈ (machine host).out p.1 p.2 → p.1.Answered h p.1.config.current := by
  intro p hp h i ho
  exact (Mediators.inv_trace id pk hsound p hp).answered ho

/-- The events in which the server of `h` confirms the key of the task, which goes on from there. -/
def registration (h : Fin n) (request : RegisterPk) : List (Event n) :=
  [.tick h, .advance h 0, .advance h 0, .advance h 0, .answer h request .ok,
    .receive h (.registerPkResponse request .ok), .advance h 0, .advance h 0, .advance h 0,
    .advance h 0, .advance h 0]

/-- The timer of `h` is due again, and both flags are set. -/
def reregistration (h : Fin n) : List (Event n) :=
  [.tick h, .advance h 0, .advance h 0, .advance h 0]

def oneServer : Fin 1 → List Char := fun _ => ['a', '.', 'x']

def confirmedServer : Mediators 1 :=
  (machine oneServer).run (Mediators.init ['7'] [1])
    (registration 0 ⟨['7'], [1]⟩ ++ reregistration 0)

theorem registerPeer_confirmed_single :
    (0, .registerPeer ['7']) ∈ (machine oneServer).out confirmedServer (.advance 0 0) ∧
      confirmedServer.Answered 0 confirmedServer.config.current := by
  have hmeets : (machine oneServer).Meets (Sound oneServer) (Mediators.init ['7'] [1])
      (registration 0 ⟨['7'], [1]⟩ ++ reregistration 0 ++ .advance 0 0 :: []) := by
    decide +kernel
  have hout : (0, .registerPeer ['7']) ∈
      (machine oneServer).out confirmedServer (.advance 0 0) := by
    decide +kernel
  exact ⟨hout, registerPeer_confirmed oneServer ['7'] [1] hmeets (confirmedServer, .advance 0 0)
    ((machine oneServer).mem_trace_split _ _ _ []) 0 ['7'] hout⟩

def sharedPrefix : Fin 2 → List Char := ![['a', '.', 'x'], ['a', '.', 'y']]

/-- The first server confirms the key, and the timer of the second task is due. -/
def sharedConfirmation : List (Event 2) := registration 0 ⟨['7'], [1]⟩ ++ reregistration 1

/-- **The second server is sent `RegisterPeer`** as soon as the first one has confirmed the key. -/
theorem registerPeer_unconfirmed :
    ¬ ∀ (n : ℕ) (host : Fin n → List Char), (∀ h h', host h = host h' → h = h') →
      ∀ (id : List Char) (pk : List UInt8) (es : List (Event n)),
        ∀ p ∈ (machine host).trace (Mediators.init id pk) es, ∀ h i,
          (h, .registerPeer i) ∈ (machine host).out p.1 p.2 →
            p.1.Answered h p.1.config.current := by
  intro hall
  have hans := hall 2 sharedPrefix (by decide +kernel) ['7'] [1]
    (sharedConfirmation ++ .advance 1 0 :: []) _
    ((machine sharedPrefix).mem_trace_split _ sharedConfirmation _ []) 1 ['7'] (by decide +kernel)
  revert hans
  decide +kernel

end Safety

end LibRustdesk.Ohos.Rendezvous
