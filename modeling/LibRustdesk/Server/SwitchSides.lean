import LibRustdesk.Framework.OneTime
import LibRustdesk.Server.Login

/-!
# Switching sides

`insert_switch_sides_uuid`, `insert_pending_switch_sides_uuid`, `remove_pending_switch_sides_uuid`
and the arm of a `SwitchSidesResponse`, of `src/server/connection.rs`.

When the sides of a session are switched, the one that was controlled connects to the other one, and
is let in by a uuid instead of a password. There are two tables of such uuids: `SWITCH_SIDES_UUID`
has those that this device has given to its peers, which come back with a `SwitchSidesResponse`;
`PENDING_SWITCH_SIDES_UUID` has those that a peer has sent, by which this device makes sure that it
has been asked to connect. A uuid is good for one use in ten seconds, under its id.

The two are consumed differently. `remove_pending_switch_sides_uuid` compares before it removes; a
`SwitchSidesResponse` removes before it compares, so a wrong uuid takes the right one away from the
peer with this id. Anyone can send it.

* `honoured_switchSides`, `honoured_pending` — both are used once, in time and under their id.
* `wrongIsHarmless_iff` — exactly when a wrong attempt costs nobody a uuid.
* `uuids_respected_iff` — the same for a run.
* `takeSwitchSidesUuid_eq` — the table of a connection, where the clock is not looked at but given.
-/

namespace LibRustdesk.Desktop.SwitchSides

open LittleEndian
open OneTime (Secrets Usable Redeems Honoured honoured)

abbrev Uuid := {b : Bytes // b.length = 16}

def fromSlice (b : Bytes) : Option Uuid := if h : b.length = 16 then some ⟨b, h⟩ else none

def lifetime : ℕ := 10000000000

abbrev Uuids := Secrets Text Uuid

/-- `elapsed() < Duration::from_secs(10)`. -/
def recent (now : ℕ) : Text → ℕ × Uuid → Bool := fun _ v => now - v.1 < lifetime

def insertSwitchSidesUuid (now : ℕ) (uuids : Uuids) (id : Text) (uuid : Uuid) : Uuids :=
  uuids.insert id (now, uuid)

def insertPendingSwitchSidesUuid (now : ℕ) (uuids : Uuids) (id : Text) (uuid : Uuid) : Uuids :=
  (uuids.retain (recent now)).insert id (now, uuid)

def removePendingSwitchSidesUuid (now : ℕ) (uuids : Uuids) (id : Text) (uuid : Uuid) :
    Uuids × Bool :=
  let uuids := uuids.retain (recent now)
  if (uuids id).map (fun v => decide (v.2 = uuid)) = some true then (uuids.remove id, true)
  else (uuids, false)

/-- What a `SwitchSidesResponse` does to the uuids, and whether it is let in. -/
def switchSidesResponse (now : ℕ) (uuids : Uuids) (uuid : Bytes) (myId : Option Text) :
    Uuids × Bool :=
  match myId with
  | none => (uuids, false)
  | some myId =>
    let uuids := uuids.retain (recent now)
    let uuidOld := uuids myId
    let uuids := uuids.remove myId
    match fromSlice uuid, uuidOld with
    | some uuid, some (_, uuidOld) => (uuids, uuid = uuidOld)
    | _, _ => (uuids, false)

/-! ### The two tables of a process -/

/-- `SWITCH_SIDES_UUID` and `PENDING_SWITCH_SIDES_UUID`, and the time. -/
structure Tables where
  now : ℕ
  switchSides : Uuids
  pending : Uuids

/-- What a thread or a connection does; `wait` is the time that has passed before it. -/
inductive Event
  | insertSwitchSidesUuid (wait : ℕ) (id : Text) (uuid : Uuid)
  | insertPendingSwitchSidesUuid (wait : ℕ) (id : Text) (uuid : Uuid)
  | removePendingSwitchSidesUuid (wait : ℕ) (id : Text) (uuid : Uuid)
  | switchSidesResponse (wait : ℕ) (uuid : Bytes) (myId : Option Text)

def Event.wait : Event → ℕ
  | insertSwitchSidesUuid wait _ _ => wait
  | insertPendingSwitchSidesUuid wait _ _ => wait
  | removePendingSwitchSidesUuid wait _ _ => wait
  | switchSidesResponse wait _ _ => wait

def timeOf (s : Tables) (e : Event) : ℕ := s.now + e.wait

/-- What is answered to an attempt: whether it is accepted. -/
def step (s : Tables) (e : Event) : Tables × List Bool :=
  let now := timeOf s e
  match e with
  | .insertSwitchSidesUuid _ id uuid =>
    (⟨now, insertSwitchSidesUuid now s.switchSides id uuid, s.pending⟩, [])
  | .insertPendingSwitchSidesUuid _ id uuid =>
    (⟨now, s.switchSides, insertPendingSwitchSidesUuid now s.pending id uuid⟩, [])
  | .removePendingSwitchSidesUuid _ id uuid =>
    let r := removePendingSwitchSidesUuid now s.pending id uuid
    (⟨now, s.switchSides, r.1⟩, [r.2])
  | .switchSidesResponse _ uuid myId =>
    let r := switchSidesResponse now s.switchSides uuid myId
    (⟨now, r.1, s.pending⟩, [r.2])

def machine : Machine Tables Event Bool := ⟨step⟩

/-- What an event issues in `SWITCH_SIDES_UUID`, and in the other table. -/
def issuedSwitchSides : Event → Option (Text × Uuid)
  | .insertSwitchSidesUuid _ id uuid => some (id, uuid)
  | _ => none

def issuedPending : Event → Option (Text × Uuid)
  | .insertPendingSwitchSidesUuid _ id uuid => some (id, uuid)
  | _ => none

/-- The uuid by which a `SwitchSidesResponse` is let in. -/
def acceptedSwitchSides (s : Tables) (e : Event) : Option (Text × Uuid) :=
  match e with
  | .switchSidesResponse _ uuid (some myId) =>
    if machine.out s e = [true] then (fromSlice uuid).map (myId, ·) else none
  | _ => none

/-- The uuid that is found among those that are pending. -/
def acceptedPending (s : Tables) (e : Event) : Option (Text × Uuid) :=
  match e with
  | .removePendingSwitchSidesUuid _ id uuid =>
    if machine.out s e = [true] then some (id, uuid) else none
  | _ => none

/-! ### What the functions do -/

variable {now : ℕ} {uuids : Uuids} {id : Text} {uuid : Uuid} {v : ℕ × Uuid}

theorem retain_eq_some :
    uuids.retain (recent now) id = some v ↔ uuids id = some v ∧ now - v.1 < lifetime := by
  unfold Table.retain recent
  rw [Option.filter_eq_some_iff, decide_eq_true_eq]

theorem fromSlice_val (uuid : Uuid) : fromSlice uuid.val = some uuid := dif_pos uuid.property

variable {b : Bytes}

theorem fromSlice_eq_some : fromSlice b = some uuid ↔ b = uuid.val := by
  constructor
  · intro h
    unfold fromSlice at h
    split at h
    · exact congrArg Subtype.val (Option.some.inj h)
    · exact absurd h (Option.some_ne_none _).symm
  · rintro rfl
    exact fromSlice_val uuid

theorem removePending_accepts :
    (removePendingSwitchSidesUuid now uuids id uuid).2 = true ↔
      Usable lifetime uuids now id uuid := by
  have hfound : ((uuids.retain (recent now) id).map fun v => decide (v.2 = uuid)) = some true ↔
      Usable lifetime uuids now id uuid := by
    rw [Option.map_eq_some_iff]
    constructor
    · rintro ⟨⟨i, x⟩, hentry, hx⟩
      obtain ⟨hentry, hlife⟩ := retain_eq_some.mp hentry
      rw [← of_decide_eq_true hx]
      exact ⟨i, hentry, hlife⟩
    · rintro ⟨i, hentry, hlife⟩
      exact ⟨(i, uuid), retain_eq_some.mpr ⟨hentry, hlife⟩, decide_eq_true rfl⟩
  rw [← hfound]
  unfold removePendingSwitchSidesUuid
  dsimp only
  split <;> simp_all

theorem switchSidesResponse_accepts :
    (switchSidesResponse now uuids b (some id)).2 = true ↔
      ∃ uuid : Uuid, b = uuid.val ∧ Usable lifetime uuids now id uuid := by
  unfold switchSidesResponse
  dsimp only
  constructor
  · intro h
    split at h
    · next uuid i old hb hold =>
      obtain ⟨hentry, hlife⟩ := retain_eq_some.mp hold
      have heq : uuid = old := of_decide_eq_true h
      rw [← heq] at hentry
      exact ⟨uuid, fromSlice_eq_some.mp hb, i, hentry, hlife⟩
    · cases h
  · rintro ⟨uuid, rfl, i, hentry, hlife⟩
    have hkept : uuids.retain (recent now) id = some (i, uuid) :=
      retain_eq_some.mpr ⟨hentry, hlife⟩
    rw [fromSlice_val, hkept]
    exact decide_eq_true rfl

theorem of_remove_retain {k : Text}
    (h : (uuids.retain (recent now)).remove id k = some v) : uuids k = some v := by
  rw [Table.remove_apply] at h
  split at h
  · exact absurd h (Option.some_ne_none _).symm
  · exact (retain_eq_some.mp h).1

theorem of_removePending {k : Text}
    (h : (removePendingSwitchSidesUuid now uuids id uuid).1 k = some v) : uuids k = some v := by
  unfold removePendingSwitchSidesUuid at h
  dsimp only at h
  split at h
  · exact of_remove_retain h
  · exact (retain_eq_some.mp h).1

theorem fst_removePending (h : (removePendingSwitchSidesUuid now uuids id uuid).2 = false) :
    (removePendingSwitchSidesUuid now uuids id uuid).1 = uuids.retain (recent now) := by
  unfold removePendingSwitchSidesUuid at h ⊢
  dsimp only at h ⊢
  split at h
  · exact absurd h.symm Bool.false_ne_true
  · next hnot => rw [if_neg hnot]

theorem removePending_removes (h : (removePendingSwitchSidesUuid now uuids id uuid).2 = true) :
    (removePendingSwitchSidesUuid now uuids id uuid).1 id = none := by
  unfold removePendingSwitchSidesUuid at h ⊢
  dsimp only at h ⊢
  split at h
  · next hfound =>
    rw [if_pos hfound]
    exact Table.remove_self _ id
  · cases h

theorem fst_switchSidesResponse (b : Bytes) :
    (switchSidesResponse now uuids b (some id)).1 = (uuids.retain (recent now)).remove id := by
  unfold switchSidesResponse
  dsimp only
  split <;> rfl

/-! ### One step -/

variable {s : Tables} {e : Event} {wait : ℕ}

theorem out_response {myId : Option Text} :
    machine.out s (.switchSidesResponse wait b myId) = [true] ↔
      (switchSidesResponse (s.now + wait) s.switchSides b myId).2 = true := by
  exact ⟨fun h => List.singleton_inj.mp h, fun h => congrArg (fun b => [b]) h⟩

theorem out_removePending :
    machine.out s (.removePendingSwitchSidesUuid wait id uuid) = [true] ↔
      (removePendingSwitchSidesUuid (s.now + wait) s.pending id uuid).2 = true := by
  exact ⟨fun h => List.singleton_inj.mp h, fun h => congrArg (fun b => [b]) h⟩

theorem usable_of_acceptedSwitchSides {myId k : Text} {x : Uuid}
    (h : acceptedSwitchSides s (.switchSidesResponse wait b (some myId)) = some (k, x)) :
    k = myId ∧ Usable lifetime s.switchSides (s.now + wait) k x := by
  unfold acceptedSwitchSides at h
  dsimp only at h
  split at h
  · next htrue =>
    obtain ⟨uuid, rfl, husable⟩ := switchSidesResponse_accepts.mp (out_response.mp htrue)
    rw [fromSlice_val, Option.map_some] at h
    obtain ⟨rfl, rfl⟩ := Prod.mk.inj (Option.some.inj h)
    exact ⟨rfl, husable⟩
  · exact absurd h (Option.some_ne_none _).symm

theorem redeems_switchSides (s : Tables) (e : Event) :
    Redeems lifetime (timeOf s e) s.switchSides (machine.next s e).switchSides
      (issuedSwitchSides e) (acceptedSwitchSides s e) := by
  cases e with
  | insertSwitchSidesUuid wait id uuid => exact .issue (fun h => h) id uuid
  | insertPendingSwitchSidesUuid | removePendingSwitchSidesUuid => exact .refl _ _ _
  | switchSidesResponse wait b myId =>
    cases myId with
    | none => exact .refl _ _ _
    | some myId =>
      have hnext : (machine.next s (.switchSidesResponse wait b (some myId))).switchSides =
          (s.switchSides.retain (recent (s.now + wait))).remove myId := fst_switchSidesResponse b
      rw [hnext]
      refine ⟨fun h => .inl (of_remove_retain h), fun h => (usable_of_acceptedSwitchSides h).2,
        fun h => ?_⟩
      rw [(usable_of_acceptedSwitchSides h).1, Table.remove_self]

theorem acceptedPending_eq_some {k : Text} {x : Uuid} :
    acceptedPending s (.removePendingSwitchSidesUuid wait id uuid) = some (k, x) ↔
      (id = k ∧ uuid = x) ∧
        (removePendingSwitchSidesUuid (s.now + wait) s.pending id uuid).2 = true := by
  rw [← out_removePending]
  unfold acceptedPending
  dsimp only
  split
  · next htrue => simp [htrue]
  · next hfalse => simp [hfalse]

theorem redeems_pending (s : Tables) (e : Event) :
    Redeems lifetime (timeOf s e) s.pending (machine.next s e).pending (issuedPending e)
      (acceptedPending s e) := by
  cases e with
  | insertSwitchSidesUuid | switchSidesResponse => exact .refl _ _ _
  | insertPendingSwitchSidesUuid wait id uuid =>
    exact .issue (fun h => (retain_eq_some.mp h).1) id uuid
  | removePendingSwitchSidesUuid wait id uuid =>
    refine ⟨fun h => .inl (of_removePending h), fun h => ?_, fun h => ?_⟩
    · obtain ⟨⟨rfl, rfl⟩, htrue⟩ := acceptedPending_eq_some.mp h
      exact removePending_accepts.mp htrue
    · obtain ⟨⟨rfl, rfl⟩, htrue⟩ := acceptedPending_eq_some.mp h
      exact removePending_removes htrue

/-! ### Wrong attempts -/

/-- Every uuid of both tables that could be used still can. -/
def StillUsable (s : Tables) (e : Event) : Prop :=
  ∀ id uuid,
    (Usable lifetime s.switchSides (timeOf s e) id uuid →
      Usable lifetime (machine.next s e).switchSides (timeOf s e) id uuid) ∧
    (Usable lifetime s.pending (timeOf s e) id uuid →
      Usable lifetime (machine.next s e).pending (timeOf s e) id uuid)

/-- An attempt with a wrong uuid or id is rejected, and leaves every uuid as it was. -/
def WrongIsHarmless (s : Tables) (e : Event) : Prop :=
  match e with
  | .removePendingSwitchSidesUuid _ id uuid =>
    ¬ Usable lifetime s.pending (timeOf s e) id uuid →
      machine.out s e = [false] ∧ StillUsable s e
  | .switchSidesResponse _ b (some myId) =>
    (¬ ∃ uuid : Uuid, b = uuid.val ∧ Usable lifetime s.switchSides (timeOf s e) myId uuid) →
      machine.out s e = [false] ∧ StillUsable s e
  | _ => True

/-- A `SwitchSidesResponse` has the uuid that can be used by its peer, if there is one. -/
def HasTheUuid (s : Tables) (e : Event) : Prop :=
  match e with
  | .switchSidesResponse _ b (some myId) =>
    ∀ uuid : Uuid, Usable lifetime s.switchSides (timeOf s e) myId uuid → b = uuid.val
  | _ => True

theorem usable_retain (h : Usable lifetime uuids now id uuid) :
    Usable lifetime (uuids.retain (recent now)) now id uuid := by
  obtain ⟨i, hentry, hlife⟩ := h
  exact ⟨i, retain_eq_some.mpr ⟨hentry, hlife⟩, hlife⟩

theorem not_usable_remove : ¬ Usable lifetime (uuids.remove id) now id uuid := by
  rintro ⟨i, hentry, -⟩
  rw [Table.remove_self] at hentry
  exact absurd hentry (Option.some_ne_none _).symm

theorem wrongIsHarmless_iff (s : Tables) (e : Event) : WrongIsHarmless s e ↔ HasTheUuid s e := by
  cases e with
  | insertSwitchSidesUuid | insertPendingSwitchSidesUuid => exact Iff.rfl
  | removePendingSwitchSidesUuid wait id uuid =>
    refine ⟨fun _ => trivial, fun _ hwrong => ?_⟩
    have hfalse : (removePendingSwitchSidesUuid (s.now + wait) s.pending id uuid).2 = false :=
      Bool.eq_false_iff.mpr fun h => hwrong (removePending_accepts.mp h)
    refine ⟨congrArg (fun b => [b]) hfalse, fun k x => ⟨fun h => h, fun h => ?_⟩⟩
    have hnext : (machine.next s (.removePendingSwitchSidesUuid wait id uuid)).pending =
        s.pending.retain (recent (s.now + wait)) := fst_removePending hfalse
    rw [hnext]
    exact usable_retain h
  | switchSidesResponse wait b myId =>
    cases myId with
    | none => exact Iff.rfl
    | some myId =>
      have hnext : (machine.next s (.switchSidesResponse wait b (some myId))).switchSides =
          (s.switchSides.retain (recent (s.now + wait))).remove myId := fst_switchSidesResponse b
      constructor
      · intro h uuid husable
        by_contra hne
        -- the peer has one uuid, so this one is wrong, and takes it away
        have hwrong : ¬ ∃ x : Uuid, b = x.val ∧
            Usable lifetime s.switchSides (s.now + wait) myId x := by
          rintro ⟨x, rfl, i, hentry, -⟩
          obtain ⟨i', hentry', -⟩ := husable
          exact hne (congrArg (fun v => v.2.val) (Option.some.inj (hentry.symm.trans hentry')))
        have hstill := ((h hwrong).2 myId uuid).1 husable
        rw [hnext] at hstill
        exact not_usable_remove hstill
      · intro h hwrong
        have hfalse : (switchSidesResponse (s.now + wait) s.switchSides b (some myId)).2 = false :=
          Bool.eq_false_iff.mpr fun htrue => hwrong (switchSidesResponse_accepts.mp htrue)
        refine ⟨congrArg (fun b => [b]) hfalse, fun k x => ⟨fun husable => ?_, fun h => h⟩⟩
        have hne : k ≠ myId := by
          rintro rfl
          exact hwrong ⟨x, h x husable, husable⟩
        rw [hnext]
        obtain ⟨i, hentry, hlife⟩ := usable_retain husable
        exact ⟨i, (Table.remove_of_ne _ hne).trans hentry, hlife⟩

/-! ### The table of a connection

The connection of `LibRustdesk.Server.Login` has the uuids without their times, and is told which of
them are recent. -/

structure TableOf (env : Env) (w : World) (now : ℕ) (uuids : Uuids) : Prop where
  uuid : ∀ id, w.shared.switchSidesUuid id = (uuids id).map fun v => v.2.val
  recent : ∀ id v, uuids id = some v → env.recentUuid id = recent now id v

theorem takeSwitchSidesUuid_eq {env : Env} {w : World} (h : TableOf env w now uuids) (b : Bytes)
    (myId : Text) :
    ((b.length = 16 ∧ (w.takeSwitchSidesUuid env myId).2 = some b) ↔
        (switchSidesResponse now uuids b (some myId)).2 = true) ∧
      ∀ id, (w.takeSwitchSidesUuid env myId).1.shared.switchSidesUuid id =
        ((switchSidesResponse now uuids b (some myId)).1 id).map fun v => v.2.val := by
  have hretain : ∀ id, w.shared.switchSidesUuid.retain (fun id _ => env.recentUuid id) id =
      (uuids.retain (recent now) id).map fun v => v.2.val := by
    intro id
    unfold Table.retain
    rw [h.uuid id]
    cases hentry : uuids id with
    | none => rfl
    | some v =>
      have henv := h.recent id v hentry
      cases hrecent : recent now id v with
      | true => simp [Option.filter_some, henv, hrecent]
      | false => simp [Option.filter_some, henv, hrecent]
  constructor
  · rw [switchSidesResponse_accepts]
    have htake : (w.takeSwitchSidesUuid env myId).2 =
        (uuids.retain (recent now) myId).map fun v => v.2.val := hretain myId
    rw [htake, Option.map_eq_some_iff]
    constructor
    · rintro ⟨-, ⟨i, uuid⟩, hentry, rfl⟩
      exact ⟨uuid, rfl, i, retain_eq_some.mp hentry⟩
    · rintro ⟨uuid, rfl, i, husable⟩
      exact ⟨uuid.property, ⟨i, uuid⟩, retain_eq_some.mpr husable, rfl⟩
  · intro id
    have htable : (w.takeSwitchSidesUuid env myId).1.shared.switchSidesUuid id =
        (w.shared.switchSidesUuid.retain fun id _ => env.recentUuid id).remove myId id := rfl
    rw [htable, fst_switchSidesResponse, Table.remove_apply, Table.remove_apply]
    split
    · rfl
    · exact hretain id

/-! ### Runs -/

def start (now : ℕ) : Tables := ⟨now, Table.empty, Table.empty⟩

theorem honoured_switchSides (now : ℕ) (es : List Event) :
    Honoured machine lifetime timeOf issuedSwitchSides acceptedSwitchSides (start now) es :=
  honoured (fun _ => rfl) redeems_switchSides es

theorem honoured_pending (now : ℕ) (es : List Event) :
    Honoured machine lifetime timeOf issuedPending acceptedPending (start now) es :=
  honoured (fun _ => rfl) redeems_pending es

/-- Each uuid is accepted once, under its id and within ten seconds, and a wrong attempt is rejected
and costs nobody a uuid. -/
structure Respected (now : ℕ) (es : List Event) : Prop where
  switchSides :
    Honoured machine lifetime timeOf issuedSwitchSides acceptedSwitchSides (start now) es
  pending : Honoured machine lifetime timeOf issuedPending acceptedPending (start now) es
  wrong : ∀ pre e post, es = pre ++ e :: post → WrongIsHarmless (machine.run (start now) pre) e

/-- **Exactly the runs in which every uuid is respected.** -/
theorem uuids_respected_iff (now : ℕ) (es : List Event) :
    Respected now es ↔ machine.Meets HasTheUuid (start now) es := by
  constructor
  · rintro ⟨-, -, hwrong⟩ ⟨s, e⟩ hmem
    obtain ⟨pre, post, rfl, hrun⟩ := machine.exists_split_of_mem_trace hmem
    have hharmless := hwrong pre e post rfl
    rw [hrun] at hharmless
    exact (wrongIsHarmless_iff s e).mp hharmless
  · intro hmeets
    refine ⟨honoured_switchSides now es, honoured_pending now es, ?_⟩
    rintro pre e post rfl
    exact (wrongIsHarmless_iff _ e).mpr (hmeets _ (machine.mem_trace_split _ pre e post))

def uuidOf (n : UInt8) : Uuid := ⟨List.replicate 16 n, rfl⟩

/-- Someone takes a peer's uuid away with any other one. -/
theorem taken_away :
    ¬ Respected 0 [.insertSwitchSidesUuid 0 "1".toList (uuidOf 7),
      .switchSidesResponse 1 [] (some "1".toList),
      .switchSidesResponse 1 (uuidOf 7).val (some "1".toList)] := by
  rintro ⟨-, -, hwrong⟩
  have hharmless := hwrong [.insertSwitchSidesUuid 0 "1".toList (uuidOf 7)]
    (.switchSidesResponse 1 [] (some "1".toList)) _ rfl
  have hnone : ¬ ∃ uuid : Uuid, [] = uuid.val ∧ Usable lifetime
      (machine.run (start 0) [.insertSwitchSidesUuid 0 "1".toList (uuidOf 7)]).switchSides 1
      "1".toList uuid := by
    rintro ⟨uuid, hnil, -⟩
    exact absurd uuid.property (by rw [← hnil]; decide)
  obtain ⟨i, hentry, -⟩ := ((hharmless hnone).2 "1".toList (uuidOf 7)).1
    ⟨0, by decide, by decide⟩
  have htaken : (machine.next (machine.run (start 0)
      [.insertSwitchSidesUuid 0 "1".toList (uuidOf 7)])
      (.switchSidesResponse 1 [] (some "1".toList))).switchSides "1".toList = none := by decide
  exact absurd (htaken.symm.trans hentry) (Option.some_ne_none _).symm

end LibRustdesk.Desktop.SwitchSides
