import LibRustdesk.Terminal.Delivery
import Mathlib.Data.UInt

/-!
# The redraw after a reconnect

A client that reconnects to a session has its shell redraw the screen: two polls resize the PTY, to
one row less (or one more) and back. Each of these two phases is tried three times, and given up at
the poll after that. A phase that is given up leaves the PTY at the size it has.

* `Sized` — a service, with the size that the PTY of each session last took.
* `restored_iff` — what a step does to the sizes of sessions that are not being redrawn.
* `redraw_ends` — every redraw is over after seven polls that get the mutex of the session.
* `redraw_restores_iff` — **the PTY has the size on record whenever no redraw is under way**,
  exactly when none is given up while it has another, and it takes the sizes that clients ask for.
-/

namespace LibRustdesk.Terminal

/-! ### The sizes -/

abbrev Size := UInt16 × UInt16

def TerminalSession.size (s : TerminalSession) : Size := (s.rows, s.cols)

/-- What `do_sigwinch_resize` asks the PTY for. -/
def SigwinchAction.size (s : TerminalSession) : SigwinchAction → Size
  | .tempResize => (if s.rows > 2 then s.rows - 1 else s.rows + 1, s.cols)
  | .restore => s.size

/-- The size that the PTY of an entry takes in a step, if it takes one. -/
def applied (ev : Event) (e : Int32 × TerminalSession) : Option Size :=
  match ev with
  | .poll env =>
    match e.2.state with
    | .active _ sigwinch =>
      match sigwinch.poll.2 with
      | some action =>
        if !env.locked e.2.uid && doSigwinchResize e.2 (env.resize e.2.uid) action then
          some (action.size e.2)
        else none
      | none => none
    | .closed => none
  | .resizeTerminal id rows cols resize =>
    if e.1 = id ∧ e.2.hasPty = true ∧ resize.isOk then some (rows.toUInt16, cols.toUInt16)
    else none
  | _ => none

/-- A service, with what the PTY of each `Arc` last took. -/
structure Sized where
  service : PersistentTerminalService
  sizes : ℕ → Size

namespace Sized

def sizesAfter (s : Sized) (ev : Event) (uid : ℕ) : Size :=
  match Keyed.item? uidOf uid (prepared s.service ev).sessions with
  | some e => (applied ev e).getD (s.sizes uid)
  | none =>
    match Keyed.item? uidOf uid (spawnedBy (prepared s.service ev) ev) with
    | some e => e.2.size
    | none => s.sizes uid

def start (serviceId : String) (isPersistent : Bool) : Sized :=
  ⟨.new serviceId isPersistent, fun _ => (0, 0)⟩

end Sized

def sized (z : Zstd) : Machine Sized Event TerminalResponse where
  step s ev :=
    let r := (machine z).step s.service ev
    (⟨r.1, s.sizesAfter ev⟩, r.2)

def TerminalSession.phase? (s : TerminalSession) : Option SigwinchPhase :=
  match s.state with
  | .closed => none
  | .active _ phase => some phase

/-- No redraw is under way, and the session is active. -/
def TerminalSession.Idle (s : TerminalSession) : Prop := s.phase? = some .idle

def TerminalSession.GivesUp (s : TerminalSession) : Prop :=
  s.phase? = some (.tempResize 0) ∨ s.phase? = some (.restore 0)

instance (s : TerminalSession) : Decidable s.Idle := inferInstanceAs (Decidable (_ = _))

instance (s : TerminalSession) : Decidable s.GivesUp := inferInstanceAs (Decidable (_ ∨ _))

namespace Sized

/-- Where no redraw is under way, the PTY has the size on record. -/
def Restored (s : Sized) : Prop :=
  ∀ e ∈ s.service.sessions, e.2.Idle → s.sizes e.2.uid = e.2.size

/-- No redraw is given up while the PTY has another size than the one on record, and without a
redraw the PTY takes what a client asks for. -/
def Keeps (s : Sized) : Event → Prop
  | .poll env => ∀ e ∈ s.service.sessions, env.locked e.2.uid = false → e.2.GivesUp →
      (cleanupEntry s.service.isPersistent (closesNow env e) e).isSome →
        s.sizes e.2.uid = e.2.size
  | .resizeTerminal id rows cols resize => ∀ e ∈ s.service.sessions, e.1 = id → e.2.Idle →
      (e.2.hasPty = true ∧ resize.isOk = true) ∨
        s.sizes e.2.uid = (rows.toUInt16, cols.toUInt16)
  | _ => True

instance (s : Sized) : Decidable s.Restored := inferInstanceAs (Decidable (∀ e ∈ _, _ → _))

instance (s : Sized) : (ev : Event) → Decidable (s.Keeps ev)
  | .poll _ => inferInstanceAs (Decidable (∀ e ∈ s.service.sessions, _ → _ → _ → _))
  | .resizeTerminal _ _ _ _ =>
    inferInstanceAs (Decidable (∀ e ∈ s.service.sessions, _ → _ → _ ∨ _))
  | .chunk _ _ | .readerExit _ | .reset _ | .openTerminal _ _ | .closeTerminal _ _
  | .setPersistent _ => isTrue trivial

end Sized

theorem TerminalSession.phase?_of_state {s : TerminalSession} {buffer : Option Bytes}
    {phase : SigwinchPhase} (h : s.state = .active buffer phase) : s.phase? = some phase := by
  unfold phase?
  rw [h]

theorem TerminalSession.phase?_of_closed {s : TerminalSession} (h : s.state = .closed) :
    s.phase? = none := by
  unfold phase?
  rw [h]

/-! ### One entry -/

def SigwinchPhase.polled (s : TerminalSession) (resize : UInt16 → UInt16 → Bool)
    (phase : SigwinchPhase) : SigwinchPhase :=
  match phase.poll.2 with
  | some action => phase.poll.1.attempted action (doSigwinchResize s resize action)
  | none => phase.poll.1

section Entry

variable (z : Zstd) (env : PollEnv)

theorem readSession_size (id : Int32) (s : TerminalSession) :
    (readSession z env id s).1.size = s.size := by
  unfold readSession
  dsimp only
  split <;> rfl

theorem readSession_closed (id : Int32) {s : TerminalSession}
    (h : s.state = .closed) : (readSession z env id s).1.state = .closed := by
  unfold readSession
  dsimp only [TerminalSession.receive]
  rw [h]

theorem readSession_phase (id : Int32) {s : TerminalSession}
    {buffer : Option Bytes} {phase : SigwinchPhase} (h : s.state = .active buffer phase) :
    (readSession z env id s).1.state = .active none (phase.polled s (env.resize s.uid)) := by
  unfold readSession SigwinchPhase.polled
  dsimp only [TerminalSession.receive]
  rw [h]
  rfl

/-- What `Keeps` asks of an entry whose PTY has the size `last`. -/
def KeepsEntry (ev : Event) (e : Int32 × TerminalSession) (last : Size) : Prop :=
  match ev with
  | .poll env => env.locked e.2.uid = false → e.2.GivesUp → last = e.2.size
  | .resizeTerminal id rows cols resize => e.1 = id → e.2.Idle →
      (e.2.hasPty = true ∧ resize.isOk = true) ∨ last = (rows.toUInt16, cols.toUInt16)
  | _ => True

theorem polled_restored {e : Int32 × TerminalSession} {last : Size}
    (hbefore : e.2.Idle → last = e.2.size) :
    ((readEntry z env e).1.2.Idle →
        (applied (.poll env) e).getD last = (readEntry z env e).1.2.size) ↔
      KeepsEntry (.poll env) e last := by
  have hsize := readSession_size z env e.1 e.2
  unfold KeepsEntry readEntry applied
  dsimp only
  cases env.locked e.2.uid with
  | true =>
    -- the session is left alone
    refine iff_of_true ?_ nofun
    rw [if_pos rfl]
    cases e.2.state with
    | closed => exact hbefore
    | active buffer phase =>
      dsimp only
      cases phase.poll.2 <;> exact hbefore
  | false =>
    rw [if_neg Bool.false_ne_true, Bool.not_false]
    simp only [Bool.true_and, forall_const]
    rw [hsize]
    cases hstate : e.2.state with
    | closed =>
      have hclosed := readSession_closed z env e.1 hstate
      refine iff_of_true ?_ ?_
      · intro hidle
        cases (TerminalSession.phase?_of_closed hclosed).symm.trans hidle
      · rintro (hgives | hgives) <;>
          cases (TerminalSession.phase?_of_closed hstate).symm.trans hgives
    | active buffer phase =>
      have hphase := TerminalSession.phase?_of_state (readSession_phase z env e.1 hstate)
      have hgives : e.2.GivesUp ↔ phase = .tempResize 0 ∨ phase = .restore 0 := by
        unfold TerminalSession.GivesUp
        rw [TerminalSession.phase?_of_state hstate, Option.some_inj, Option.some_inj]
      have hidle : (readSession z env e.1 e.2).1.Idle ↔
          phase.polled e.2 (env.resize e.2.uid) = .idle := by
        unfold TerminalSession.Idle
        rw [hphase, Option.some_inj]
      rw [hgives, hidle]
      unfold SigwinchPhase.polled
      cases phase with
      | idle =>
        have hlast := hbefore (TerminalSession.phase?_of_state hstate)
        exact iff_of_true (fun _ => hlast) (by simp)
      | tempResize retries =>
        by_cases hzero : retries = 0
        · -- the phase is given up, and the PTY left alone
          subst hzero
          exact ⟨fun h _ => h rfl, fun h _ => h (Or.inl rfl)⟩
        · refine iff_of_true ?_ (by simp [hzero])
          unfold SigwinchPhase.poll
          dsimp only
          rw [if_neg hzero]
          dsimp only
          cases doSigwinchResize e.2 (env.resize e.2.uid) .tempResize <;> exact nofun
      | restore retries =>
        by_cases hzero : retries = 0
        · subst hzero
          exact ⟨fun h _ => h rfl, fun h _ => h (Or.inr rfl)⟩
        · refine iff_of_true ?_ (by simp [hzero])
          unfold SigwinchPhase.poll
          dsimp only
          rw [if_neg hzero]
          dsimp only
          cases doSigwinchResize e.2 (env.resize e.2.uid) .restore with
          | true => exact fun _ => rfl
          | false => exact nofun

theorem advance_restored {isPersistent : Bool} {ev : Event} {e e' : Int32 × TerminalSession}
    {last : Size} (hadv : advance z isPersistent ev e = some e')
    (hbefore : e.2.Idle → last = e.2.size) :
    (e'.2.Idle → (applied ev e).getD last = e'.2.size) ↔ KeepsEntry ev e last := by
  cases ev with
  | chunk uid data =>
    obtain rfl := Option.some.inj hadv
    refine iff_of_true ?_ trivial
    show (if _ then _ else _ : TerminalSession).Idle →
      last = (if _ then _ else _ : TerminalSession).size
    split
    · rw [e.2.trySendOutput_frame data]
      exact hbefore
    · exact hbefore
  | readerExit uid =>
    obtain rfl := Option.some.inj hadv
    refine iff_of_true ?_ trivial
    show (if _ then _ else _ : TerminalSession).Idle →
      last = (if _ then _ else _ : TerminalSession).size
    split <;> exact hbefore
  | poll env =>
    rw [← polled_restored z env hbefore]
    unfold advance cleanupEntry at hadv
    dsimp only at hadv
    split at hadv
    · split at hadv
      · obtain rfl := Option.some.inj hadv
        exact Iff.rfl
      · cases hadv
    · obtain rfl := Option.some.inj hadv
      exact Iff.rfl
  | reset isPersistent =>
    obtain rfl := Option.some.inj hadv
    exact iff_of_true (fun hidle => nomatch hidle) trivial
  | openTerminal env request =>
    obtain rfl := Option.some.inj hadv
    refine iff_of_true ?_ trivial
    show (if _ then _ else _ : TerminalSession).Idle →
      last = (if _ then _ else _ : TerminalSession).size
    split
    · intro hidle
      -- a session that is reconnected to is to be redrawn
      cases hidle
    · exact hbefore
  | closeTerminal id kill =>
    unfold advance at hadv
    dsimp only at hadv
    split at hadv
    · cases hadv
    · obtain rfl := Option.some.inj hadv
      exact iff_of_true hbefore trivial
  | resizeTerminal id rows cols resize =>
    obtain rfl := Option.some.inj hadv
    unfold KeepsEntry applied
    dsimp only
    by_cases hid : e.1 = id
    · rw [if_pos hid]
      by_cases htaken : e.2.hasPty = true ∧ resize.isOk = true
      · rw [if_pos ⟨hid, htaken⟩]
        exact iff_of_true (fun _ => rfl) fun _ _ => Or.inl htaken
      · rw [if_neg fun h => htaken h.2]
        exact ⟨fun h _ hidle => Or.inr (h hidle),
          fun h hidle => (h hid hidle).resolve_left htaken⟩
    · rw [if_neg hid, if_neg fun h => hid h.1]
      exact iff_of_true hbefore fun h => absurd h hid
  | setPersistent isPersistent =>
    obtain rfl := Option.some.inj hadv
    exact iff_of_true hbefore trivial

end Entry

/-! ### The whole map -/

section Service

variable (z : Zstd) {s : Sized} (hinv : Inv s.service) (ev : Event)

include hinv

variable {e : Int32 × TerminalSession}

theorem sizesAfter_prepared (he : e ∈ (prepared s.service ev).sessions) : s.sizesAfter ev e.2.uid =
    (applied ev e).getD (s.sizes e.2.uid) := by
  unfold Sized.sizesAfter
  rw [show e.2.uid = uidOf e from rfl, Keyed.item?_of_mem (hinv.find ev).uids he]

theorem sizesAfter_spawned (he : e ∈ spawnedBy (prepared s.service ev) ev) : s.sizesAfter ev e.2.uid
    = e.2.size ∧ e.2.Idle := by
  rcases spawnedBy_cases (prepared s.service ev) ev with hnil | ⟨env, request, pid, -, -, hone⟩
  · rw [hnil] at he
    cases he
  · rw [hone] at he
    obtain rfl := List.mem_singleton.mp he
    refine ⟨?_, rfl⟩
    -- the `Arc` is a new one
    have hnew : Keyed.item? uidOf (prepared s.service ev).nextUid
        (prepared s.service ev).sessions = none :=
      Keyed.item?_eq_none.mpr fun e he => Nat.ne_of_lt ((hinv.find ev).fresh e he)
    have hself (e : Int32 × TerminalSession) : Keyed.item? uidOf e.2.uid [e] = some e :=
      Keyed.item?_of_mem (List.nodup_singleton _) (List.mem_singleton_self e)
    unfold Sized.sizesAfter
    rw [hone, hself]
    show (match Keyed.item? uidOf (prepared s.service ev).nextUid _ with
      | some e => _
      | none => _) = _
    rw [hnew]

theorem restored_next_iff (h : s.Restored) : ((sized z).next s ev).Restored ↔
    ∀ e ∈ (prepared s.service ev).sessions, (advance z s.service.isPersistent ev e).isSome →
      KeepsEntry ev e (s.sizes e.2.uid) := by
  have hbefore (e : Int32 × TerminalSession) (he : e ∈ (prepared s.service ev).sessions) :
      e.2.Idle → s.sizes e.2.uid = e.2.size := by
    obtain ⟨e₀, he₀, hsame⟩ := mem_prepared he
    rw [hsame]
    exact h e₀ he₀
  have hsessions := next_sessions z s.service ev
  constructor
  · intro hnext e he hsome
    obtain ⟨e', hadv⟩ := Option.isSome_iff_exists.mp hsome
    rw [← advance_restored z hadv (hbefore e he), ← sizesAfter_prepared hinv ev he,
      show e.2.uid = e'.2.uid from (advance_keys z hadv).2.symm]
    refine hnext e' ?_
    show e' ∈ ((machine z).next s.service ev).sessions
    rw [hsessions]
    exact List.mem_append_left _ (List.mem_filterMap.mpr ⟨e, he, hadv⟩)
  · intro hkeeps e' he' hidle
    show s.sizesAfter ev e'.2.uid = e'.2.size
    rcases mem_next z he' with ⟨e, he, hadv⟩ | hspawned
    · have huid : e'.2.uid = e.2.uid := (advance_keys z hadv).2
      rw [huid, sizesAfter_prepared hinv ev he]
      refine (advance_restored z hadv (hbefore e he)).mpr ?_ hidle
      exact hkeeps e he (Option.isSome_iff_exists.mpr ⟨e', hadv⟩)
    · exact (sizesAfter_spawned hinv ev hspawned).1

theorem restored_iff (h : s.Restored) : ((sized z).next s ev).Restored ↔ s.Keeps ev := by
  rw [restored_next_iff z hinv ev h]
  cases ev with
  | poll env =>
    have hsome (e : Int32 × TerminalSession) :
        (advance z s.service.isPersistent (.poll env) e).isSome =
          (cleanupEntry s.service.isPersistent (closesNow env e) e).isSome := by
      unfold advance cleanupEntry
      dsimp only
      split
      · split <;> rfl
      · rfl
    constructor
    · intro hkeeps e he hlocked hgives hkept
      exact hkeeps e he ((hsome e).trans hkept) hlocked hgives
    · intro hkeeps e he hkept hlocked hgives
      exact hkeeps e he hlocked hgives ((hsome e).symm.trans hkept)
  | resizeTerminal id rows cols resize =>
    exact ⟨fun hkeeps e he => hkeeps e he rfl, fun hkeeps e he _ => hkeeps e he⟩
  | _ => exact iff_of_true (fun _ _ _ => trivial) trivial

end Service

/-! ### The end of a redraw -/

def SigwinchPhase.remaining : SigwinchPhase → ℕ
  | .idle => 0
  | .restore retries => retries.toNat + 1
  -- one poll that gives up, or the attempts of both phases
  | .tempResize retries => if retries = 0 then 1 else retries.toNat + 4

theorem SigwinchPhase.polled_remaining (s : TerminalSession) (resize : UInt16 → UInt16 → Bool)
    (phase : SigwinchPhase) : (phase.polled s resize).remaining ≤ phase.remaining - 1 := by
  have hsub {retries : UInt8} (h : retries ≠ 0) :
      (retries - 1).toNat + 1 = retries.toNat := by
    have hpos : retries.toNat ≠ 0 := fun hzero => h (UInt8.toNat_inj.mp hzero)
    rw [UInt8.toNat_sub_of_le _ _ (by rw [UInt8.le_iff_toNat_le]; exact Nat.pos_of_ne_zero hpos)]
    exact Nat.succ_pred_eq_of_ne_zero hpos
  unfold polled poll
  cases phase with
  | idle => exact Nat.le_refl _
  | tempResize retries =>
    dsimp only [remaining]
    by_cases hzero : retries = 0
    · rw [if_pos hzero, if_pos hzero]
    · rw [if_neg hzero, if_neg hzero]
      have hsub := hsub hzero
      dsimp only
      cases doSigwinchResize s resize .tempResize with
      | true =>
        show 4 ≤ _
        omega
      | false =>
        show (if retries - 1 = 0 then 1 else _) ≤ _
        split <;> omega
  | restore retries =>
    dsimp only [remaining]
    by_cases hzero : retries = 0
    · rw [if_pos hzero]
      exact Nat.zero_le _
    · rw [if_neg hzero]
      have hsub := hsub hzero
      dsimp only
      cases doSigwinchResize s resize .restore with
      | true => exact Nat.zero_le _
      | false =>
        show (retries - 1).toNat + 1 ≤ _
        omega

/-- The session is active, with so many polls to go at most. -/
def TerminalSession.Within (n : ℕ) (s : TerminalSession) : Prop :=
  ∃ buffer phase, s.state = .active buffer phase ∧ phase.remaining ≤ n

/-- The redraw is not started again, and its client stays. -/
def Undisturbed (uid : ℕ) (service : PersistentTerminalService) : Event → Prop
  | .reset _ => False
  | .openTerminal env request =>
    ∀ e ∈ (prepared service (.openTerminal env request)).sessions,
      e.2.uid = uid → e.1 ≠ request.terminalId
  | _ => True

def polls (uid : ℕ) : Event → Bool
  | .poll env => !env.locked uid
  | _ => false

section Bound

variable (z : Zstd)

theorem advance_within {isPersistent : Bool} {ev : Event} {e e' : Int32 × TerminalSession}
    (hadv : advance z isPersistent ev e = some e') {n : ℕ} (h : e.2.Within n)
    (hopen : ∀ env request, ev = .openTerminal env request → e.1 ≠ request.terminalId)
    (hreset : ∀ p, ev ≠ .reset p) :
    e'.2.Within (n - if polls e.2.uid ev then 1 else 0) := by
  obtain ⟨buffer, phase, hstate, hle⟩ := h
  have hsame {s : TerminalSession} (hs : s.state = e.2.state) : s.Within n :=
    ⟨buffer, phase, hs.trans hstate, hle⟩
  cases ev with
  | chunk uid data =>
    obtain rfl := Option.some.inj hadv
    refine hsame ?_
    split
    · rw [e.2.trySendOutput_frame data]
    · rfl
  | readerExit | resizeTerminal =>
    obtain rfl := Option.some.inj hadv
    refine hsame ?_
    split <;> rfl
  | poll env =>
    have hread : (readEntry z env e).1.2.Within
        (n - if polls e.2.uid (.poll env) then 1 else 0) := by
      have hgets : polls e.2.uid (.poll env) = !env.locked e.2.uid := rfl
      rw [hgets]
      unfold readEntry
      by_cases hlocked : env.locked e.2.uid = true
      · rw [if_pos hlocked, hlocked]
        exact hsame rfl
      · rw [if_neg hlocked, eq_false_of_ne_true hlocked]
        refine ⟨none, _, readSession_phase z env e.1 hstate, ?_⟩
        exact Nat.le_trans (phase.polled_remaining e.2 _) (Nat.sub_le_sub_right hle 1)
    unfold advance cleanupEntry at hadv
    dsimp only at hadv
    split at hadv
    · split at hadv
      · obtain rfl := Option.some.inj hadv
        exact hread
      · cases hadv
    · obtain rfl := Option.some.inj hadv
      exact hread
  | reset isPersistent => exact absurd rfl (hreset isPersistent)
  | openTerminal env request =>
    obtain rfl := Option.some.inj hadv
    refine hsame ?_
    rw [if_neg (hopen env request rfl)]
  | closeTerminal id kill =>
    unfold advance at hadv
    dsimp only at hadv
    split at hadv
    · cases hadv
    · obtain rfl := Option.some.inj hadv
      exact hsame rfl
  | setPersistent isPersistent =>
    obtain rfl := Option.some.inj hadv
    exact hsame rfl

variable {service : PersistentTerminalService}

theorem within_run {uid n : ℕ} {evs : List Event}
    (hmeets : (machine z).Meets (Undisturbed uid) service evs) (huid : uid < service.nextUid)
    (hinv : Inv service) (h : ∀ e ∈ service.sessions, e.2.uid = uid → e.2.Within n) :
    ∀ e ∈ ((machine z).run service evs).sessions, e.2.uid = uid →
      e.2.Within (n - evs.countP (polls uid)) := by
  induction evs generalizing service n with
  | nil => exact h
  | cons ev evs ih =>
    obtain ⟨hev, hrest⟩ := Machine.meets_cons.mp hmeets
    have hnext : uid < ((machine z).next service ev).nextUid := by
      rw [next_nextUid]
      exact Nat.lt_of_lt_of_le huid (Nat.le_add_right _ _)
    have hstep : ∀ e ∈ ((machine z).next service ev).sessions, e.2.uid = uid →
        e.2.Within (n - if polls uid ev then 1 else 0) := by
      intro e' he' huid'
      rcases mem_next z he' with ⟨e, he, hadv⟩ | hspawned
      · have hsame : e.2.uid = uid := (advance_keys z hadv).2.symm.trans huid'
        obtain ⟨e₀, he₀, hheld⟩ := mem_prepared he
        have hwithin : e.2.Within n := by
          rw [hheld]
          exact h e₀ he₀ (by rw [← hheld]; exact hsame)
        rw [← hsame]
        refine advance_within z hadv hwithin ?_ ?_
        · rintro env request rfl
          exact hev e he hsame
        · rintro p rfl
          exact hev
      · -- the `Arc` of a new session is not in use
        rcases spawnedBy_cases (prepared service ev) ev with
          hnil | ⟨env, request, pid, rfl, -, hone⟩
        · rw [hnil] at hspawned
          cases hspawned
        · rw [hone] at hspawned
          obtain rfl := List.mem_singleton.mp hspawned
          have hfresh : (service.remapLowest request.terminalId).nextUid = uid := huid'
          rw [remapLowest_nextUid] at hfresh
          exact absurd hfresh (Nat.ne_of_gt huid)
    have hrun := ih hrest hnext (hinv.next z ev) hstep
    rw [List.countP_cons, Nat.add_comm, ← Nat.sub_sub]
    exact hrun

theorem redraw_ends (hinv : Inv service) {env : OpenEnv}
    {request : OpenTerminal} {e : Int32 × TerminalSession}
    (he : e ∈ ((machine z).next service (.openTerminal env request)).sessions)
    (hid : e.1 = request.terminalId) {evs : List Event}
    (hmeets : (machine z).Meets (Undisturbed e.2.uid)
      ((machine z).next service (.openTerminal env request)) evs)
    (hpolls : 7 ≤ evs.countP (polls e.2.uid)) :
    ∀ e' ∈ ((machine z).run ((machine z).next service (.openTerminal env request)) evs).sessions,
      e'.2.uid = e.2.uid → e'.2.Idle := by
  have hopened := hinv.next z (.openTerminal env request)
  have hwithin : e.2.Within 7 := by
    rcases mem_next z he with ⟨e₀, he₀, hadv⟩ | hspawned
    · obtain rfl := Option.some.inj hadv
      have hid₀ : e₀.1 = request.terminalId := hid
      rw [if_pos hid₀]
      exact ⟨_, _, rfl, by decide⟩
    · rcases spawnedBy_cases _ _ with hnil | ⟨_, _, _, _, -, hone⟩
      · rw [hnil] at hspawned
        cases hspawned
      · rw [hone] at hspawned
        obtain rfl := List.mem_singleton.mp hspawned
        exact ⟨_, _, rfl, Nat.zero_le _⟩
  have hall : ∀ e' ∈ ((machine z).next service (.openTerminal env request)).sessions,
      e'.2.uid = e.2.uid → e'.2.Within 7 := by
    intro e' he' huid
    rw [hopened.uids.eq_of_mem he' he huid]
    exact hwithin
  intro e' he' huid
  obtain ⟨buffer, phase, hstate, hle⟩ :=
    within_run z hmeets (hopened.fresh e he) hopened hall e' he' huid
  have hzero : phase.remaining = 0 := by omega
  refine (TerminalSession.phase?_of_state hstate).trans ?_
  cases phase with
  | idle => rfl
  | tempResize retries =>
    exfalso
    unfold SigwinchPhase.remaining at hzero
    dsimp only at hzero
    split at hzero <;> omega
  | restore retries => exact absurd hzero (Nat.succ_ne_zero _)

end Bound

/-! ### Runs -/

theorem sized_service (z : Zstd) (s : Sized) (evs : List Event) :
    ((sized z).run s evs).service = (machine z).run s.service evs := by
  induction evs generalizing s with
  | nil => rfl
  | cons ev evs ih => exact ih ((sized z).next s ev)

/-- **The PTY has the size on record whenever no redraw is under way**, exactly when none is given
up while it has another, and every redraw is over after seven polls. -/
theorem redraw_restores_iff (z : Zstd) (serviceId : String) (isPersistent : Bool)
    (evs : List Event) :
    ((∀ pre, pre <+: evs → ((sized z).run (.start serviceId isPersistent) pre).Restored) ↔
        (sized z).Meets Sized.Keeps (.start serviceId isPersistent) evs) ∧
      ∀ env request, ∀ e ∈ ((sized z).run (.start serviceId isPersistent)
          (evs ++ [.openTerminal env request])).service.sessions, e.1 = request.terminalId →
        ∀ more, (machine z).Meets (Undisturbed e.2.uid) ((sized z).run
            (.start serviceId isPersistent) (evs ++ [.openTerminal env request])).service more →
          7 ≤ more.countP (polls e.2.uid) →
            ∀ e' ∈ ((sized z).run (.start serviceId isPersistent)
                (evs ++ [.openTerminal env request] ++ more)).service.sessions,
              e'.2.uid = e.2.uid → e'.2.Idle := by
  constructor
  · refine Machine.meets_iff_inv (J := fun s => Inv s.service) ?_ (inv_new _ _) ?_ ?_
    · exact fun e he => absurd he List.not_mem_nil
    · exact fun s ev hinv => hinv.next z ev
    · exact fun s ev hinv hrestored => restored_iff z hinv ev hrestored
  · intro env request e he hid more hmeets hpolls e' he' huid
    have hinv := inv_run z serviceId isPersistent evs
    rw [sized_service, Machine.run_append] at he hmeets
    rw [sized_service, Machine.run_append, Machine.run_append] at he'
    exact redraw_ends z hinv he hid hmeets hpolls e' he' huid

/-! ### One row short

A client reconnects to a terminal with 24 rows, and the PTY takes the first size and no other. -/

/-- A poll that gets every mutex; the PTY takes the sizes of 23 rows. -/
def stubbornPoll : PollEnv := ⟨fun _ => false, fun _ => [], fun _ rows _ => rows == 23,
  fun _ => none⟩

def comesBack : List Event :=
  [.openTerminal ⟨[], .ok 42⟩ ⟨1, 24, 80⟩, .reset true, .openTerminal ⟨[], .ok 43⟩ ⟨1, 24, 80⟩]

/-- The redraw is given up at the fifth poll, and the shell left with 23 rows. -/
theorem redraw_leaves_short : ¬ ∀ pre, pre <+: comesBack ++ List.replicate 5 (.poll stubbornPoll) →
    ((sized Zstd.storing).run (.start "ts" true) pre).Restored := by
  intro h
  exact absurd (h _ (List.prefix_refl _)) (by decide +kernel)

/-- A poll that gets every mutex, and whatever is asked of the PTY. -/
def willingPoll : PollEnv := ⟨fun _ => false, fun _ => [], fun _ _ _ => true, fun _ => none⟩

theorem redraw_restores_iff_comesBack :
    ((sized Zstd.storing).run (.start "ts" true)
        (comesBack ++ List.replicate 7 (.poll willingPoll))).Restored ∧
      ∀ e ∈ ((sized Zstd.storing).run (.start "ts" true)
        (comesBack ++ List.replicate 7 (.poll willingPoll))).service.sessions,
          e.2.uid = 0 → e.2.Idle := by
  have hany : (((sized Zstd.storing).run (.start "ts" true) comesBack).service.sessions.any
      fun e => e.1 == 1 && e.2.uid == 0) = true := by decide +kernel
  obtain ⟨e, he, hkeys⟩ := List.any_eq_true.mp hany
  obtain ⟨hid, huid⟩ : e.1 = 1 ∧ e.2.uid = 0 := by simpa using hkeys
  constructor
  · exact (redraw_restores_iff Zstd.storing "ts" true _).1.mpr (by decide +kernel) _
      (List.prefix_refl _)
  · rw [← huid]
    refine (redraw_restores_iff Zstd.storing "ts" true (comesBack.take 2)).2 ⟨[], .ok 43⟩
      ⟨1, 24, 80⟩ e he hid (List.replicate 7 (.poll willingPoll)) ?_ ?_
    · simp [List.replicate, Undisturbed]
    · rw [huid]
      decide

end LibRustdesk.Terminal
