import LibRustdesk.Framework.Indexed
import LibRustdesk.Framework.Machine
import Mathlib.Data.Int.Notation

/-!
# Privacy mode

`src/privacy_mode.rs`, its implementations, and what a desktop connection does with them
(`Connection::turn_on_privacy`, `turn_off_privacy` and the end of `Connection::start`). There is one
implementation at a time, behind a lock, and it has the id of the connection that turned it on; the
id `0` is reserved for nobody. Every call into the module takes the lock once and is one step here;
between two calls of one connection the others go on. The implementation with virtual displays is
turned on in a thread of its own, for which the connection waits no more than 7.5 s.

What the platform does is the environment's choice, as are the moments when a thread is through and
when a wait ends. The messages to the peers are left out.

* `Owns` — the connection whose privacy mode it is.
* `Keeps` — a step of one connection leaves the privacy mode of another one alone.
* `Released` — of a connection that has closed, and whose threads are through, it is not.

Neither holds of every run. A request that fails ends with a call that turns privacy mode off under
the reserved id, whosever it is (`occupied_request_ends`), and a thread may turn it on for a
connection that is gone. `respected_iff` says that there is no other way, but for calls of the
platform that fail when a connection closes.
-/

namespace LibRustdesk.PrivacyMode

def invalidPrivacyModeConnId : Int32 := 0

def occupied : String := "Privacy occupied by another one."

def turnOffOtherId : String := "Failed to turn off privacy mode that belongs to someone else."

def privacyModeImplWinMag : String := "privacy_mode_impl_mag"

/-- The id of a connection, which is never the reserved one. -/
abbrev ConnId := {id : Int32 // id ≠ invalidPrivacyModeConnId}

/-! ### The implementations -/

inductive Kind
  | macos
  | topmostWindow
  | virtualDisplay
  deriving DecidableEq, Repr

structure PrivacyModeImpl where
  kind : Kind
  implKey : String
  connId : Int32
  deriving DecidableEq, Repr

structure Host where
  /-- `PRIVACY_MODE_CREATOR`. -/
  creators : List (String × Kind)
  /-- `DEFAULT_PRIVACY_MODE_IMPL`. -/
  defaultImpl : String

structure OnEnv where
  /-- The keys of `get_supported_privacy_mode_impl`. -/
  supported : List String
  /-- The option `privacy-mode-impl-key`. -/
  option : String
  isVirtualDisplaySupported : Bool
  calls : Except String Bool

namespace PrivacyModeImpl

def checkOnConnId (m : PrivacyModeImpl) (connId : Int32) : Except String Bool :=
  if m.connId = connId then .ok true
  else if m.connId ≠ invalidPrivacyModeConnId then .error occupied
  else .ok false

def checkOffConnId (m : PrivacyModeImpl) (connId : Int32) : Except String Unit :=
  if m.connId ≠ invalidPrivacyModeConnId ∧ connId ≠ invalidPrivacyModeConnId ∧
      m.connId ≠ connId then
    .error turnOffOtherId
  else .ok ()

def turnOnPrivacy (m : PrivacyModeImpl) (env : OnEnv) (connId : Int32) :
    PrivacyModeImpl × Except String Bool :=
  if m.kind = .virtualDisplay ∧ !env.isVirtualDisplaySupported then
    (m, .error "idd_not_support_under_win10_2004_tip")
  else
    match m.checkOnConnId connId with
    | .error e => (m, .error e)
    | .ok true => (m, .ok true)
    | .ok false =>
      match env.calls with
      | .ok true => ({ m with connId := connId }, .ok true)
      | res => (m, res)

def turnOffPrivacy (m : PrivacyModeImpl) (calls : Except String Unit) (connId : Int32) :
    PrivacyModeImpl × Except String Unit :=
  match m.checkOffConnId connId with
  | .error e => (m, .error e)
  | .ok () =>
    match calls with
    | .error e => (m, .error e)
    | .ok () => ({ m with connId := invalidPrivacyModeConnId }, .ok ())

end PrivacyModeImpl

/-! ### The module -/

def getSupportedImpl (host : Host) (env : OnEnv) (implKey : String) : String :=
  if env.supported.contains implKey then implKey
  else if env.supported.contains env.option then env.option
  else host.defaultImpl

def curImplKey (privacyMode : Option PrivacyModeImpl) : String :=
  (privacyMode.map PrivacyModeImpl.implKey).getD ""

/-- `pre_conn_id`, or the reserved id. -/
def preConnId (privacyMode : Option PrivacyModeImpl) : Int32 :=
  (privacyMode.map PrivacyModeImpl.connId).getD invalidPrivacyModeConnId

/-- The last line of `turn_on_privacy_sync`. -/
def turnOnCurrent (env : OnEnv) (connId : Int32) :
    Option PrivacyModeImpl → Option PrivacyModeImpl × Option (Except String Bool)
  | none => (none, none)
  | some m => (some (m.turnOnPrivacy env connId).1, some (m.turnOnPrivacy env connId).2)

/-- `turn_on_privacy_sync` behind its check: the implementation is switched if it has to be. The one
before is cleared and dropped. -/
def switchAndTurnOn (host : Host) (env : OnEnv) (privacyMode : Option PrivacyModeImpl)
    (implKey : String) (connId : Int32) :
    Option PrivacyModeImpl × Option (Except String Bool) :=
  if curImplKey privacyMode ≠ implKey then
    match host.creators.lookup implKey with
    | some kind => turnOnCurrent env connId (some ⟨kind, implKey, invalidPrivacyModeConnId⟩)
    | none => (privacyMode, some (.error ("Unsupported privacy mode: " ++ implKey)))
  else turnOnCurrent env connId privacyMode

def turnOnPrivacySync (host : Host) (env : OnEnv) (privacyMode : Option PrivacyModeImpl)
    (implKey : String) (connId : Int32) :
    Option PrivacyModeImpl × Option (Except String Bool) :=
  let implKey := getSupportedImpl host env implKey
  match (privacyMode.map fun m => m.checkOnConnId connId : Option (Except String Bool)) with
  | some (.error e) => (privacyMode, some (.error e))
  | some (.ok true) =>
    -- The same peer: the same implementation, or a switch to a new one.
    if curImplKey privacyMode = implKey then (privacyMode, some (.ok true))
    else switchAndTurnOn host env privacyMode implKey connId
  | _ => switchAndTurnOn host env privacyMode implKey connId

/-! ### Connections and threads -/

/-- How far a connection is with a request, or with its end. -/
inductive Phase
  | idle
  /-- It may turn privacy mode on. -/
  | checked (implKey : String)
  /-- The implementation is not an asynchronous one. -/
  | turningOn (implKey : String)
  /-- It waits for a thread. -/
  | waiting (ticket : ℕ)
  | returned (res : Option (Except String Bool))
  /-- The check of the privacy mode has failed. -/
  | undoing
  /-- The request has failed, and somebody is in privacy mode. -/
  | failing
  /-- Privacy mode is its own when it closes. -/
  | closing
  | closed

/-- A thread of `turn_on_privacy_async`. -/
structure Thread where
  conn : ConnId
  implKey : String
  ticket : ℕ

structure State where
  privacyMode : Option PrivacyModeImpl
  phase : ConnId → Phase
  threads : List Thread
  nextTicket : ℕ

structure StepEnv where
  isAmyuniIdd : Bool
  on : OnEnv
  testCreateCapturer : String
  off : Except String Unit

inductive Event
  /-- `granted` is whether the connection is an authorized remote one with the permission. -/
  | turnOn (conn : ConnId) (implKey : String) (granted : Bool)
  | turnOff (conn : ConnId) (off : Except String Unit)
  /-- The connection goes on to its next call. -/
  | proceed (conn : ConnId) (env : StepEnv)
  /-- A thread takes its turn. -/
  | finish (thread : ℕ) (on : OnEnv)
  /-- 7.5 s are over. -/
  | timeout (conn : ConnId)
  | disconnect (conn : ConnId)

namespace State

def isInPrivacyMode (s : State) : Bool := preConnId s.privacyMode != invalidPrivacyModeConnId

def isAsyncPrivacyMode (s : State) (isAmyuniIdd : Bool) : Bool :=
  s.privacyMode.any fun m => m.kind == .virtualDisplay && isAmyuniIdd

def checkPrivacyModeErr (s : State) (env : StepEnv) : String :=
  if s.privacyMode.any fun m => m.implKey == privacyModeImplWinMag then env.testCreateCapturer
  else ""

def setPhase (s : State) (conn : ConnId) (phase : Phase) : State :=
  { s with phase := Function.update s.phase conn phase }

def turnOffPrivacy (s : State) (off : Except String Unit) (connId : Int32) : State :=
  { s with privacyMode := s.privacyMode.map fun m => (m.turnOffPrivacy off connId).1 }

/-- A message to turn privacy mode on, up to the first call that may take long. -/
def startTurnOn (host : Host) (s : State) (conn : ConnId) (implKey : String) (granted : Bool) :
    State :=
  match s.phase conn with
  | .idle =>
    if !granted || host.defaultImpl.isEmpty then s else s.setPhase conn (.checked implKey)
  | _ => s

def turnOff (host : Host) (s : State) (conn : ConnId) (off : Except String Unit) : State :=
  match s.phase conn with
  | .idle => if host.defaultImpl.isEmpty then s else s.turnOffPrivacy off conn
  | _ => s

/-- `turn_on_privacy_async` spawns its thread. -/
def spawn (s : State) (conn : ConnId) (implKey : String) : State :=
  { s.setPhase conn (.waiting s.nextTicket) with
    threads := s.threads ++ [⟨conn, implKey, s.nextTicket⟩]
    nextTicket := s.nextTicket + 1 }

def proceed (host : Host) (s : State) (conn : ConnId) (env : StepEnv) : State :=
  match s.phase conn with
  | .idle => s
  | .checked implKey =>
    if s.isAsyncPrivacyMode env.isAmyuniIdd then s.spawn conn implKey
    else s.setPhase conn (.turningOn implKey)
  | .turningOn implKey =>
    { s with privacyMode := (turnOnPrivacySync host env.on s.privacyMode implKey conn).1 }.setPhase
      conn (.returned (turnOnPrivacySync host env.on s.privacyMode implKey conn).2)
  | .waiting _ => s
  | .returned (some (.ok true)) =>
    s.setPhase conn (if (s.checkPrivacyModeErr env).isEmpty then .idle else .undoing)
  | .returned (some (.ok false)) => s.setPhase conn .idle
  | .returned (some (.error _)) =>
    s.setPhase conn (if s.isInPrivacyMode then .failing else .idle)
  | .returned none => s.setPhase conn .idle
  | .undoing => (s.turnOffPrivacy env.off conn).setPhase conn .idle
  | .failing => (s.turnOffPrivacy env.off invalidPrivacyModeConnId).setPhase conn .idle
  | .closing => (s.turnOffPrivacy env.off conn).setPhase conn .closed
  | .closed => s

/-- The result of a thread, if somebody still waits for it. -/
def deliver (s : State) (t : Thread) (res : Option (Except String Bool)) : State :=
  match s.phase t.conn with
  | .waiting ticket => if ticket = t.ticket then s.setPhase t.conn (.returned res) else s
  | _ => s

/-- A thread turns privacy mode on and sends the result. -/
def finish (host : Host) (s : State) (i : ℕ) (on : OnEnv) : State :=
  match s.threads[i]? with
  | none => s
  | some t =>
    { s with
      privacyMode := (turnOnPrivacySync host on s.privacyMode t.implKey t.conn).1
      threads := s.threads.eraseIdx i }.deliver t
        (turnOnPrivacySync host on s.privacyMode t.implKey t.conn).2

def timeout (s : State) (conn : ConnId) : State :=
  match s.phase conn with
  | .waiting _ => s.setPhase conn (.returned (some (.error "deadline has elapsed")))
  | _ => s

def disconnect (s : State) (conn : ConnId) : State :=
  match s.phase conn with
  | .idle => s.setPhase conn (if preConnId s.privacyMode = conn then .closing else .closed)
  | _ => s

def next (host : Host) (s : State) : Event → State
  | .turnOn conn implKey granted => s.startTurnOn host conn implKey granted
  | .turnOff conn off => s.turnOff host conn off
  | .proceed conn env => s.proceed host conn env
  | .finish i on => s.finish host i on
  | .timeout conn => s.timeout conn
  | .disconnect conn => s.disconnect conn

/-- The process with the implementation it begins with, and any number of connections. -/
def init (impl : Option (Kind × String)) : State :=
  ⟨impl.map fun i => ⟨i.1, i.2, invalidPrivacyModeConnId⟩, fun _ => .idle, [], 0⟩

end State

def system (host : Host) : Machine State Event Empty := ⟨fun s e => (s.next host e, [])⟩

/-! ### Turning it on and off -/

variable {connId : Int32}

@[simp] theorem preConnId_none : preConnId none = invalidPrivacyModeConnId := rfl

@[simp] theorem preConnId_some (m : PrivacyModeImpl) : preConnId (some m) = m.connId := rfl

theorem turnOnPrivacySync_occupied (host : Host) (env : OnEnv) {pm : Option PrivacyModeImpl}
    (implKey : String) (hon : preConnId pm ≠ invalidPrivacyModeConnId)
    (hother : preConnId pm ≠ connId) : turnOnPrivacySync host env pm implKey connId =
    (pm, some (.error occupied)) := by
  cases pm with
  | none => exact absurd rfl hon
  | some m =>
    rw [preConnId_some] at hon hother
    have hcheck : m.checkOnConnId connId = .error occupied := by
      unfold PrivacyModeImpl.checkOnConnId
      rw [if_neg hother, if_pos hon]
    unfold turnOnPrivacySync
    rw [Option.map_some, hcheck]

/-- The kind of the implementation that is going to be turned on. -/
def targetKind (host : Host) (pm : Option PrivacyModeImpl) (implKey : String) : Option Kind :=
  if curImplKey pm = implKey then pm.map PrivacyModeImpl.kind else host.creators.lookup implKey

def Works (env : OnEnv) (kind : Kind) : Prop :=
  (kind = .virtualDisplay → env.isVirtualDisplaySupported = true) ∧ env.calls = .ok true

/-- When privacy mode is the connection's after `turn_on_privacy_sync`: it was before and nothing is
done, or it is turned on. -/
def TurnsOn (host : Host) (env : OnEnv) (pm : Option PrivacyModeImpl) (implKey : String)
    (connId : Int32) : Prop :=
  preConnId pm = connId ∧ (curImplKey pm = getSupportedImpl host env implKey ∨
      targetKind host pm (getSupportedImpl host env implKey) = none) ∨
    (preConnId pm = connId ∨ preConnId pm = invalidPrivacyModeConnId) ∧
      ∃ kind ∈ targetKind host pm (getSupportedImpl host env implKey), Works env kind

theorem turnOnPrivacy_free (env : OnEnv) {m : PrivacyModeImpl}
    (hfree : m.connId = invalidPrivacyModeConnId)
    (hconn : connId ≠ invalidPrivacyModeConnId) :
    ((m.turnOnPrivacy env connId).1.connId = connId ↔ Works env m.kind) ∧
      ((m.turnOnPrivacy env connId).1.connId = connId ∨
        (m.turnOnPrivacy env connId).1.connId = invalidPrivacyModeConnId) := by
  have hcheck : m.checkOnConnId connId = .ok false := by
    unfold PrivacyModeImpl.checkOnConnId
    rw [if_neg (fun h => hconn (h.symm.trans hfree)), if_neg (not_not_intro hfree)]
  have hstays : m.connId ≠ connId := fun h => hconn (h.symm.trans hfree)
  unfold PrivacyModeImpl.turnOnPrivacy Works
  split
  · next hunsupported =>
    refine ⟨⟨fun h => absurd h hstays, fun h => ?_⟩, .inr hfree⟩
    have hsupported := h.1 hunsupported.1
    rw [hsupported] at hunsupported
    exact absurd hunsupported.2 (by simp)
  · next hsupported =>
    rw [hcheck]
    dsimp only
    split
    · next hcalls =>
      refine ⟨⟨fun _ => ⟨fun hkind => ?_, hcalls⟩, fun _ => rfl⟩, .inl rfl⟩
      by_contra hnot
      exact hsupported ⟨hkind, by simpa using hnot⟩
    · next hcalls =>
      exact ⟨⟨fun h => absurd h hstays, fun h => absurd h.2 hcalls⟩, .inr hfree⟩

theorem switchAndTurnOn_spec (host : Host) (env : OnEnv) (pm : Option PrivacyModeImpl)
    (implKey : String) (hconn : connId ≠ invalidPrivacyModeConnId)
    (hown : preConnId pm = connId ∨ preConnId pm = invalidPrivacyModeConnId)
    (hsame : curImplKey pm = implKey → preConnId pm = invalidPrivacyModeConnId) :
    (preConnId (switchAndTurnOn host env pm implKey connId).1 = connId ↔
        preConnId pm = connId ∧ targetKind host pm implKey = none ∨
          ∃ kind ∈ targetKind host pm implKey, Works env kind) ∧
      (preConnId (switchAndTurnOn host env pm implKey connId).1 = connId ∨
        preConnId (switchAndTurnOn host env pm implKey connId).1 = invalidPrivacyModeConnId) := by
  -- an implementation that is turned on is nobody's at that moment
  have hturn (m : PrivacyModeImpl) (hfree : m.connId = invalidPrivacyModeConnId) :
      (preConnId (turnOnCurrent env connId (some m)).1 = connId ↔
          preConnId pm = connId ∧ some m.kind = none ∨ ∃ kind ∈ some m.kind, Works env kind) ∧
        (preConnId (turnOnCurrent env connId (some m)).1 = connId ∨
          preConnId (turnOnCurrent env connId (some m)).1 = invalidPrivacyModeConnId) := by
    obtain ⟨hiff, hor⟩ := turnOnPrivacy_free env hfree hconn
    refine ⟨?_, hor⟩
    change (m.turnOnPrivacy env connId).1.connId = connId ↔ _
    simp [hiff]
  unfold switchAndTurnOn targetKind
  by_cases hcur : curImplKey pm = implKey
  · rw [if_neg (not_not_intro hcur), if_pos hcur]
    cases pm with
    | none => simp [turnOnCurrent]
    | some m => exact hturn m (hsame hcur)
  · rw [if_pos hcur, if_neg hcur]
    cases host.creators.lookup implKey with
    | none => simpa using hown
    | some kind => exact hturn ⟨kind, implKey, invalidPrivacyModeConnId⟩ rfl

theorem turnOnPrivacySync_spec (host : Host) (env : OnEnv) (pm : Option PrivacyModeImpl)
    (implKey : String) (hconn : connId ≠ invalidPrivacyModeConnId)
    (hown : preConnId pm = connId ∨ preConnId pm = invalidPrivacyModeConnId) :
    (preConnId (turnOnPrivacySync host env pm implKey connId).1 = connId ↔
        TurnsOn host env pm implKey connId) ∧
      (preConnId (turnOnPrivacySync host env pm implKey connId).1 = connId ∨
        preConnId (turnOnPrivacySync host env pm implKey connId).1 = invalidPrivacyModeConnId) := by
  unfold TurnsOn turnOnPrivacySync
  generalize getSupportedImpl host env implKey = key
  by_cases hpre : preConnId pm = connId
  · -- the connection's own
    cases pm with
    | none => exact absurd hpre.symm hconn
    | some m =>
      have hcheck : m.checkOnConnId connId = .ok true := if_pos hpre
      rw [Option.map_some, hcheck]
      dsimp only
      by_cases hcur : curImplKey (some m) = key
      · rw [if_pos hcur]
        exact ⟨⟨fun _ => .inl ⟨hpre, .inl hcur⟩, fun _ => hpre⟩, .inl hpre⟩
      · rw [if_neg hcur]
        have hspec := switchAndTurnOn_spec host env (some m) key hconn hown
          fun hsame => absurd hsame hcur
        simpa [hpre, hcur] using hspec
  · -- nobody's
    have hfree : preConnId pm = invalidPrivacyModeConnId := hown.resolve_left hpre
    have hspec := switchAndTurnOn_spec host env pm key hconn hown fun _ => hfree
    cases pm with
    | none => simpa [Ne.symm hconn] using hspec
    | some m =>
      rw [preConnId_some] at hpre hfree
      have hcheck : m.checkOnConnId connId = .ok false := by
        unfold PrivacyModeImpl.checkOnConnId
        rw [if_neg hpre, if_neg (not_not_intro hfree)]
      rw [Option.map_some, hcheck]
      simpa [hfree, Ne.symm hconn] using hspec

theorem turnsOn_iff (host : Host) (env : OnEnv) (pm : Option PrivacyModeImpl) (implKey : String)
    (conn : ConnId) :
    preConnId (turnOnPrivacySync host env pm implKey conn).1 = conn ↔
      TurnsOn host env pm implKey conn := by
  by_cases hown : preConnId pm = conn ∨ preConnId pm = invalidPrivacyModeConnId
  · exact (turnOnPrivacySync_spec host env pm implKey conn.2 hown).1
  · obtain ⟨hother, hon⟩ := not_or.mp hown
    rw [turnOnPrivacySync_occupied host env implKey hon hother]
    refine ⟨fun h => absurd h hother, ?_⟩
    rintro (⟨h, -⟩ | ⟨h, -⟩)
    · exact absurd h hother
    · exact absurd h hown

theorem turnOn_other (host : Host) (env : OnEnv) (pm : Option PrivacyModeImpl) (implKey : String)
    {conn a : ConnId} (ha : a ≠ conn) :
    preConnId (turnOnPrivacySync host env pm implKey conn).1 = a ↔ preConnId pm = a := by
  have hne : (conn : Int32) ≠ a := fun h => ha (Subtype.ext h.symm)
  by_cases hown : preConnId pm = conn ∨ preConnId pm = invalidPrivacyModeConnId
  · -- neither before nor after it is `a`
    have hnot (id : Int32) (hid : id = conn ∨ id = invalidPrivacyModeConnId) : id ≠ a := by
      rcases hid with rfl | rfl
      · exact hne
      · exact a.2.symm
    exact iff_of_false (hnot _ (turnOnPrivacySync_spec host env pm implKey conn.2 hown).2)
      (hnot _ hown)
  · obtain ⟨hother, hon⟩ := not_or.mp hown
    rw [turnOnPrivacySync_occupied host env implKey hon hother]

theorem turnOff_iff (pm : Option PrivacyModeImpl) (off : Except String Unit) (id : Int32)
    (a : ConnId) :
    preConnId (pm.map fun m => (m.turnOffPrivacy off id).1) = a ↔
      preConnId pm = a ∧ ¬ ((id = a ∨ id = invalidPrivacyModeConnId) ∧ off = .ok ()) := by
  cases pm with
  | none => exact iff_of_false (Ne.symm a.2) fun h => a.2 h.1.symm
  | some m =>
    rw [Option.map_some, preConnId_some, preConnId_some]
    unfold PrivacyModeImpl.turnOffPrivacy PrivacyModeImpl.checkOffConnId
    split
    · next hcheck =>
      -- somebody else's
      split at hcheck
      · next hother =>
        obtain ⟨-, hid, hne⟩ := hother
        refine ⟨fun h => ⟨h, ?_⟩, fun h => h.1⟩
        rintro ⟨rfl | hid', -⟩
        · exact hne h
        · exact hid hid'
      · cases hcheck
    · next hcheck =>
      split at hcheck
      · cases hcheck
      · next hmay =>
        cases off with
        | error e => simp
        | ok u =>
          refine iff_of_false (Ne.symm a.2) ?_
          rintro ⟨h, hnot⟩
          refine hnot ⟨?_, rfl⟩
          by_contra hid
          obtain ⟨hida, hid0⟩ := not_or.mp hid
          exact hmay ⟨h ▸ a.2, hid0, fun h' => hida (h'.symm.trans h)⟩

/-! ### Owners -/

namespace State

def Owns (s : State) (a : ConnId) : Prop := preConnId s.privacyMode = a

instance (s : State) (a : ConnId) : Decidable (s.Owns a) :=
  inferInstanceAs (Decidable (preConnId s.privacyMode = a))

/-- The connection that takes the step. A thread is the one's that started it. -/
def actor (s : State) : Event → Option ConnId
  | .turnOn conn _ _ => some conn
  | .turnOff conn _ => some conn
  | .proceed conn _ => some conn
  | .finish i _ => s.threads[i]?.map Thread.conn
  | .timeout conn => some conn
  | .disconnect conn => some conn

/-- Behind a request that failed privacy mode is turned off under the reserved id. -/
def ClearsUp (s : State) : Event → Prop
  | .proceed conn env => s.phase conn = .failing ∧ env.off = .ok ()
  | _ => False

/-! What a step leaves as it is. -/

variable (s : State) (conn : ConnId) (phase : Phase)

@[simp] theorem setPhase_privacyMode :
    (s.setPhase conn phase).privacyMode = s.privacyMode := rfl

@[simp] theorem setPhase_threads :
    (s.setPhase conn phase).threads = s.threads := rfl

@[simp] theorem setPhase_phase :
    (s.setPhase conn phase).phase = Function.update s.phase conn phase := rfl

@[simp] theorem owns_setPhase (a : ConnId) :
    (s.setPhase conn phase).Owns a ↔ s.Owns a := Iff.rfl

@[simp] theorem deliver_privacyMode (t : Thread) (res : Option (Except String Bool)) :
    (s.deliver t res).privacyMode = s.privacyMode := by
  unfold deliver
  split
  · split <;> rfl
  · rfl

@[simp] theorem deliver_threads (t : Thread) (res : Option (Except String Bool)) :
    (s.deliver t res).threads = s.threads := by
  unfold deliver
  split
  · split <;> rfl
  · rfl

theorem owns_turnOffPrivacy (off : Except String Unit) (id : Int32) (a : ConnId) :
    (s.turnOffPrivacy off id).Owns a ↔
      s.Owns a ∧ ¬ ((id = a ∨ id = invalidPrivacyModeConnId) ∧ off = .ok ()) :=
  turnOff_iff s.privacyMode off id a

theorem owns_turnOffPrivacy_other (off : Except String Unit) {conn a : ConnId}
    (ha : conn ≠ a) : (s.turnOffPrivacy off conn).Owns a ↔ s.Owns a := by
  rw [owns_turnOffPrivacy]
  refine and_iff_left ?_
  rintro ⟨h | h, -⟩
  · exact ha (Subtype.ext h)
  · exact conn.2 h

theorem owns_next (host : Host) (s : State) (e : Event) {a : ConnId} (ha : s.actor e ≠ some a) :
    (s.next host e).Owns a ↔ s.Owns a ∧ ¬ s.ClearsUp e := by
  cases e with
  | turnOn conn implKey granted =>
    refine Iff.trans ?_ (and_iff_left not_false).symm
    change (s.startTurnOn host conn implKey granted).Owns a ↔ _
    unfold startTurnOn
    split
    · split <;> rfl
    · rfl
  | turnOff conn off =>
    have hne : conn ≠ a := fun h => ha (congrArg some h)
    refine Iff.trans ?_ (and_iff_left not_false).symm
    change (s.turnOff host conn off).Owns a ↔ _
    unfold turnOff
    split
    · split
      · rfl
      · exact owns_turnOffPrivacy_other s off hne
    · rfl
  | proceed conn env =>
    have hne : conn ≠ a := fun h => ha (congrArg some h)
    change (s.proceed host conn env).Owns a ↔ s.Owns a ∧ ¬ (s.phase conn = .failing ∧ _)
    unfold proceed
    cases hphase : s.phase conn with
    | idle => simp
    | checked implKey =>
      dsimp only
      split <;> simp [Owns, spawn]
    | turningOn implKey =>
      have hother := turnOn_other host env.on s.privacyMode implKey hne.symm
      simpa [Owns] using hother
    | waiting ticket => simp
    | returned res =>
      rcases res with _ | _ | _ | _ <;> simp
    | undoing => simpa using owns_turnOffPrivacy_other s env.off hne
    | failing => simp [owns_turnOffPrivacy]
    | closing => simpa using owns_turnOffPrivacy_other s env.off hne
    | closed => simp
  | finish i on =>
    refine Iff.trans ?_ (and_iff_left not_false).symm
    change (s.finish host i on).Owns a ↔ _
    change s.threads[i]?.map Thread.conn ≠ some a at ha
    unfold finish
    cases ht : s.threads[i]? with
    | none => rfl
    | some t =>
      have hne : a ≠ t.conn := by
        rintro rfl
        exact ha (by rw [ht]; rfl)
      have hother := turnOn_other host on s.privacyMode t.implKey hne
      simpa [Owns] using hother
  | timeout conn =>
    refine Iff.trans ?_ (and_iff_left not_false).symm
    change (s.timeout conn).Owns a ↔ _
    unfold timeout
    split <;> rfl
  | disconnect conn =>
    refine Iff.trans ?_ (and_iff_left not_false).symm
    change (s.disconnect conn).Owns a ↔ _
    unfold disconnect
    split <;> rfl

/-! ### Connections that are gone -/

def ThreadsDone (s : State) (c : ConnId) : Prop := ∀ t ∈ s.threads, t.conn ≠ c

def Gone (s : State) (c : ConnId) : Prop := s.phase c = .closed ∧ s.ThreadsDone c

/-- The platform fails where a connection closes that was in privacy mode. -/
def LeavesOn (s : State) : Event → Prop
  | .proceed conn env =>
    s.phase conn = .closing ∧ s.ThreadsDone conn ∧ s.Owns conn ∧ env.off ≠ .ok ()
  | _ => False

/-- The last thread of a connection turns privacy mode on when the connection has closed. -/
def TurnsOnLate (host : Host) (s : State) : Event → Prop
  | .finish i on => ∃ t, s.threads[i]? = some t ∧ s.phase t.conn = .closed ∧
      (∀ t' ∈ s.threads.eraseIdx i, t'.conn ≠ t.conn) ∧
      TurnsOn host on s.privacyMode t.implKey t.conn
  | _ => False

theorem deliver_phase_other {t : Thread} (res : Option (Except String Bool))
    {c : ConnId} (hc : t.conn ≠ c) : (s.deliver t res).phase c = s.phase c := by
  unfold deliver
  split
  · split
    · exact Function.update_of_ne hc.symm _ _
    · rfl
  · rfl

theorem deliver_phase_closed (t : Thread) (res : Option (Except String Bool))
    (c : ConnId) : (s.deliver t res).phase c = .closed ↔ s.phase c = .closed := by
  by_cases hc : t.conn = c
  · subst hc
    unfold deliver
    split
    · next ticket hwaiting =>
      split
      · simp [hwaiting]
      · rfl
    · rfl
  · rw [deliver_phase_other s res hc]

theorem gone_next_other (host : Host) (s : State) (e : Event) {c : ConnId}
    (hc : s.actor e ≠ some c) (hgone : (s.next host e).Gone c) : s.Gone c := by
  -- all but two kinds of steps set the actor's phase, at most
  have hset {conn : ConnId} (hne : conn ≠ c) (s' : State) (phase : Phase)
      (hphase : s'.phase = s.phase) (hthreads : s'.threads = s.threads)
      (h : (s'.setPhase conn phase).Gone c) : s.Gone c := by
    obtain ⟨hclosed, hdone⟩ := h
    rw [setPhase_phase, Function.update_of_ne hne.symm, hphase] at hclosed
    refine ⟨hclosed, ?_⟩
    unfold ThreadsDone
    rw [← hthreads]
    exact hdone
  cases e with
  | turnOn conn implKey granted =>
    have hne : conn ≠ c := fun h => hc (congrArg some h)
    change (s.startTurnOn host conn implKey granted).Gone c at hgone
    unfold startTurnOn at hgone
    split at hgone
    · split at hgone
      · exact hgone
      · exact hset hne _ _ rfl rfl hgone
    · exact hgone
  | turnOff conn off =>
    change (s.turnOff host conn off).Gone c at hgone
    unfold turnOff at hgone
    split at hgone
    · split at hgone <;> exact hgone
    · exact hgone
  | proceed conn env =>
    have hne : conn ≠ c := fun h => hc (congrArg some h)
    change (s.proceed host conn env).Gone c at hgone
    unfold proceed at hgone
    cases hphase : s.phase conn with
    | idle => rwa [hphase] at hgone
    | checked implKey =>
      rw [hphase] at hgone
      dsimp only at hgone
      split at hgone
      · -- a thread of another connection is added
        obtain ⟨hclosed, hdone⟩ := hgone
        refine ⟨(Function.update_of_ne hne.symm _ _).symm.trans hclosed, fun t ht => ?_⟩
        exact hdone t (List.mem_append_left _ ht)
      · exact hset hne _ _ rfl rfl hgone
    | turningOn implKey =>
      rw [hphase] at hgone
      exact hset hne _ _ rfl rfl hgone
    | waiting ticket => rwa [hphase] at hgone
    | returned res =>
      rw [hphase] at hgone
      rcases res with _ | _ | _ | _ <;> exact hset hne _ _ rfl rfl hgone
    | undoing =>
      rw [hphase] at hgone
      exact hset hne (s.turnOffPrivacy env.off conn) _ rfl rfl hgone
    | failing =>
      rw [hphase] at hgone
      exact hset hne (s.turnOffPrivacy env.off invalidPrivacyModeConnId) _ rfl rfl hgone
    | closing =>
      rw [hphase] at hgone
      exact hset hne (s.turnOffPrivacy env.off conn) _ rfl rfl hgone
    | closed => rwa [hphase] at hgone
  | finish i on =>
    change (s.finish host i on).Gone c at hgone
    change s.threads[i]?.map Thread.conn ≠ some c at hc
    unfold finish at hgone
    cases ht : s.threads[i]? with
    | none => rwa [ht] at hgone
    | some t =>
      rw [ht] at hgone
      have hne : t.conn ≠ c := by
        rintro rfl
        exact hc (by rw [ht]; rfl)
      obtain ⟨hclosed, hdone⟩ := hgone
      rw [deliver_phase_other _ _ hne] at hclosed
      refine ⟨hclosed, fun t' ht' => ?_⟩
      -- a thread of `c` is still there without the one that is through
      by_cases heq : t' = t
      · rw [heq]
        exact hne
      · apply hdone t'
        rw [deliver_threads]
        exact mem_eraseIdx_of_ne ht ht' heq
  | timeout conn =>
    have hne : conn ≠ c := fun h => hc (congrArg some h)
    change (s.timeout conn).Gone c at hgone
    unfold timeout at hgone
    split at hgone
    · exact hset hne _ _ rfl rfl hgone
    · exact hgone
  | disconnect conn =>
    have hne : conn ≠ c := fun h => hc (congrArg some h)
    change (s.disconnect conn).Gone c at hgone
    unfold disconnect at hgone
    split at hgone
    · exact hset hne _ _ rfl rfl hgone
    · exact hgone

def Released (s : State) : Prop := ∀ c, s.Gone c → ¬ s.Owns c

theorem released_next_self (host : Host) (s : State) (e : Event) {c : ConnId}
    (hc : s.actor e = some c) (hrel : s.Gone c → ¬ s.Owns c) :
    ((s.next host e).Gone c → ¬ (s.next host e).Owns c) ↔
      ¬ s.LeavesOn e ∧ ¬ s.TurnsOnLate host e := by
  -- a connection that has not closed is not gone
  have hopen {s' : State} {phase : Phase} (hphase : phase ≠ .closed)
      (h : (s'.setPhase c phase).Gone c) : False :=
    hphase ((Function.update_self (β := fun _ => Phase) c phase s'.phase).symm.trans h.1)
  cases e with
  | turnOn conn implKey granted =>
    obtain rfl : conn = c := Option.some.inj hc
    refine iff_of_true ?_ ⟨not_false, not_false⟩
    dsimp only [next]
    unfold startTurnOn
    split
    · split
      · exact hrel
      · exact fun h => (hopen (by simp) h).elim
    · exact hrel
  | turnOff conn off =>
    obtain rfl : conn = c := Option.some.inj hc
    refine iff_of_true ?_ ⟨not_false, not_false⟩
    dsimp only [next]
    unfold turnOff
    split
    · next hidle =>
      split
      · exact hrel
      · rintro ⟨hclosed, -⟩
        cases hidle.symm.trans hclosed
    · exact hrel
  | proceed conn env =>
    obtain rfl : conn = c := Option.some.inj hc
    rw [and_iff_left (show ¬ s.TurnsOnLate host (.proceed conn env) from not_false)]
    dsimp only [next, LeavesOn]
    unfold proceed
    cases hphase : s.phase conn with
    | closing =>
      have hself : (s.turnOffPrivacy env.off conn).Owns conn ↔ s.Owns conn ∧ env.off ≠ .ok () := by
        rw [owns_turnOffPrivacy]
        simp
      have hgone : ((s.turnOffPrivacy env.off conn).setPhase conn .closed).Gone conn ↔
          s.ThreadsDone conn :=
        and_iff_right (Function.update_self conn _ _)
      rw [hgone, owns_setPhase, hself]
      simp
    | closed =>
      refine iff_of_true hrel ?_
      rintro ⟨h, -⟩
      cases h
    | idle | waiting ticket =>
      refine iff_of_true hrel ?_
      rintro ⟨h, -⟩
      cases h
    | checked implKey =>
      refine iff_of_true ?_ ?_
      · dsimp only
        split
        · rintro ⟨hclosed, -⟩
          cases (Function.update_self conn _ _).symm.trans hclosed
        · exact fun h => (hopen (by simp) h).elim
      · rintro ⟨h, -⟩
        cases h
    | turningOn implKey | undoing | failing =>
      refine iff_of_true (fun h => (hopen (by simp) h).elim) ?_
      rintro ⟨h, -⟩
      cases h
    | returned res =>
      refine iff_of_true ?_ ?_
      · rcases res with _ | _ | _ | _ <;> refine fun h => (hopen ?_ h).elim
        · simp
        · split <;> simp
        · simp
        · split <;> simp
      · rintro ⟨h, -⟩
        cases h
  | finish i on =>
    change s.threads[i]?.map Thread.conn = some c at hc
    rw [and_iff_right (show ¬ s.LeavesOn (.finish i on) from not_false)]
    dsimp only [next, TurnsOnLate]
    unfold finish
    cases ht : s.threads[i]? with
    | none =>
      refine iff_of_true hrel ?_
      rintro ⟨t, h, -⟩
      cases h
    | some t =>
      rw [ht] at hc
      obtain rfl : t.conn = c := Option.some.inj hc
      have howns := turnsOn_iff host on s.privacyMode t.implKey t.conn
      simp only [Gone, Owns, ThreadsDone, deliver_phase_closed, deliver_threads,
        deliver_privacyMode, howns]
      constructor
      · rintro h ⟨t', ht', hclosed, hdone, hturns⟩
        obtain rfl : t = t' := Option.some.inj ht'
        exact h ⟨hclosed, hdone⟩ hturns
      · rintro h ⟨hclosed, hdone⟩ hturns
        exact h ⟨t, rfl, hclosed, hdone, hturns⟩
  | timeout conn =>
    obtain rfl : conn = c := Option.some.inj hc
    refine iff_of_true ?_ ⟨not_false, not_false⟩
    dsimp only [next]
    unfold timeout
    split
    · exact fun h => (hopen (by simp) h).elim
    · exact hrel
  | disconnect conn =>
    obtain rfl : conn = c := Option.some.inj hc
    refine iff_of_true ?_ ⟨not_false, not_false⟩
    dsimp only [next]
    unfold disconnect
    split
    · split
      · exact fun h => (hopen (by simp) h).elim
      · -- it has closed at once, for the privacy mode is not its own
        next hnot => exact fun _ => hnot
    · exact hrel

theorem released_next (host : Host) (s : State) (e : Event) (hrel : s.Released) :
    (s.next host e).Released ↔ ¬ s.LeavesOn e ∧ ¬ s.TurnsOnLate host e := by
  -- what another one's step does
  have hother (c : ConnId) (hc : s.actor e ≠ some c) (hgone : (s.next host e).Gone c) :
      ¬ (s.next host e).Owns c :=
    fun howns => hrel c (gone_next_other host s e hc hgone) ((owns_next host s e hc).mp howns).1
  cases hactor : s.actor e with
  | none =>
    refine iff_of_true (fun c => hother c (by simp [hactor])) ?_
    -- only a thread that is not there is nobody's
    cases e with
    | finish i on =>
      refine ⟨not_false, ?_⟩
      rintro ⟨t, ht, -⟩
      change s.threads[i]?.map Thread.conn = none at hactor
      rw [ht] at hactor
      cases hactor
    | turnOn | turnOff | proceed | timeout | disconnect => cases hactor
  | some conn =>
    rw [← released_next_self host s e hactor (hrel conn)]
    refine ⟨fun h => h conn, fun h c => ?_⟩
    by_cases hc : s.actor e = some c
    · obtain rfl : conn = c := Option.some.inj (hactor.symm.trans hc)
      exact h
    · exact hother c hc

/-! ### Runs -/

/-- A step of one connection does not touch the privacy mode of another one. -/
def Keeps (host : Host) (s : State) (e : Event) : Prop :=
  ∀ a, s.Owns a → s.actor e ≠ some a → (s.next host e).Owns a

/-- A request that failed clears up while another connection is in privacy mode. -/
def EndsAnothers (s : State) (e : Event) : Prop :=
  s.ClearsUp e ∧ ∃ a, s.Owns a ∧ s.actor e ≠ some a

theorem keeps_iff (host : Host) (s : State) (e : Event) : s.Keeps host e ↔ ¬ s.EndsAnothers e := by
  constructor
  · rintro hkeeps ⟨hclears, a, howns, ha⟩
    exact ((owns_next host s e ha).mp (hkeeps a howns ha)).2 hclears
  · intro hnot a howns ha
    exact (owns_next host s e ha).mpr ⟨howns, fun hclears => hnot ⟨hclears, a, howns, ha⟩⟩

def Exclusive (s : State) : Prop := ∀ a b, s.Owns a → s.Owns b → a = b

theorem exclusive : s.Exclusive :=
  fun _ _ ha hb => Subtype.ext (ha.symm.trans hb)

theorem released_init (impl : Option (Kind × String)) : (init impl).Released := by
  rintro c - howns
  cases impl with
  | none | some => exact c.2 howns.symm

end State

/-- Over a whole run nobody touches what is another one's, and whoever has gone is not in privacy
mode. -/
def Respected (host : Host) (impl : Option (Kind × String)) (es : List Event) : Prop :=
  (system host).Meets (fun s e => s.Keeps host e) (State.init impl) es ∧
    ∀ pre, pre <+: es → ((system host).run (State.init impl) pre).Exclusive ∧
      ((system host).run (State.init impl) pre).Released

/-- **The runs in which privacy mode is respected.** -/
theorem respected_iff (host : Host) (impl : Option (Kind × String)) (es : List Event) :
    Respected host impl es ↔
      (system host).Meets
        (fun s e => ¬ s.EndsAnothers e ∧ ¬ s.LeavesOn e ∧ ¬ s.TurnsOnLate host e)
        (State.init impl) es := by
  -- whoever has gone: by the steps of the run
  have hreleased :
      (∀ pre, pre <+: es → ((system host).run (State.init impl) pre).Released) ↔
        (system host).Meets (fun s e => ¬ s.LeavesOn e ∧ ¬ s.TurnsOnLate host e)
          (State.init impl) es :=
    Machine.meets_iff_inv (J := fun _ => True) (State.released_init impl) trivial
      (fun _ _ _ => trivial) fun s e _ hrel => State.released_next host s e hrel
  constructor
  · rintro ⟨hkeeps, hends⟩ p hp
    have hmeets := hreleased.mp fun pre hpre => (hends pre hpre).2
    exact ⟨(State.keeps_iff host p.1 p.2).mp (hkeeps p hp), hmeets p hp⟩
  · intro h
    refine ⟨fun p hp => (State.keeps_iff host p.1 p.2).mpr (h p hp).1, fun pre hpre => ?_⟩
    exact ⟨State.exclusive _, hreleased.mpr (h.imp fun _ _ hcond => hcond.2) pre hpre⟩

def macos : Host := ⟨[("privacy_mode_impl_macos", .macos)], "privacy_mode_impl_macos"⟩

/-- The first connection is in privacy mode on a Mac. The request of the second one is refused, and
privacy mode is off. -/
theorem occupied_request_ends :
    ¬ Respected macos (some (.macos, "privacy_mode_impl_macos"))
      (([⟨1, by decide⟩, ⟨2, by decide⟩] : List ConnId).flatMap fun conn =>
        .turnOn conn "privacy_mode_impl_macos" true ::
          List.replicate 4 (.proceed conn
            ⟨false, ⟨["privacy_mode_impl_macos"], "", false, .ok true⟩, "", .ok ()⟩)) := by
  rintro ⟨hkeeps, -⟩
  -- the first connection's, before and after the last step
  refine absurd (hkeeps _ (List.mem_of_getElem? (i := 9) rfl) ⟨1, by decide⟩ ?_ ?_) ?_
  · decide +kernel
  · decide +kernel
  · decide +kernel

end LibRustdesk.PrivacyMode
