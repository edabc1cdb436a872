import LibRustdesk.Terminal.Delivery

/-!
# A client that comes back

A connection that comes back to a persistent service resets it (`reset_status`) and opens its
terminals again, under ids of its own choice: ids of surviving sessions, new ones, or ids that
collide with those of other sessions. The first `handle_open` may give the lowest session another
key, and answers with the keys that the client has not asked for.

* `opens_uids` — the sessions that survive stay where they are in the map, and what is added to them
  was created.
* `out_first_open` — the first answer lists the other keys.
* `reopen_keeps_sessions` — **no session is lost, doubled or overwritten**, whatever is opened.
-/

namespace LibRustdesk.Terminal

/-- The requests of a client, as steps of the service. -/
def opens (requests : List (OpenEnv × OpenTerminal)) : List Event :=
  requests.map fun r => .openTerminal r.1 r.2

def PersistentTerminalService.keys (service : PersistentTerminalService) : List Int32 :=
  service.sessions.map Prod.fst

/-- The `Arc`s in the map. -/
def PersistentTerminalService.uids (service : PersistentTerminalService) : List ℕ :=
  service.sessions.map uidOf

section Reopen

variable (z : Zstd) {service : PersistentTerminalService}

/-! ### The sessions -/

theorem remapLowest_uids (service : PersistentTerminalService) (id : Int32) :
    (service.remapLowest id).uids = service.uids := by
  obtain heq | ⟨-, -, lowestId, heq⟩ := remapLowest_cases service id
  · rw [heq]
  · rw [heq]
    show (service.sessions.map _).map uidOf = service.sessions.map uidOf
    rw [List.map_map]
    refine List.map_congr_left fun e _ => ?_
    -- the key changes, and not what it is for
    show uidOf (if e.1 = lowestId then (id, e.2) else e) = uidOf e
    split <;> rfl

theorem open_uids (service : PersistentTerminalService) (env : OpenEnv) (request : OpenTerminal) :
    ((machine z).next service (.openTerminal env request)).uids =
      service.uids ++ List.range' service.nextUid
        (((machine z).next service (.openTerminal env request)).nextUid - service.nextUid) := by
  have hprepared : (prepared service (.openTerminal env request)).uids = service.uids :=
    remapLowest_uids service request.terminalId
  have hfresh : (prepared service (.openTerminal env request)).nextUid = service.nextUid :=
    remapLowest_nextUid service request.terminalId
  -- no entry is dropped, and each keeps its `Arc`
  have hkept (l : List (Int32 × TerminalSession)) :
      (l.filterMap (advance z service.isPersistent (.openTerminal env request))).map uidOf =
        l.map uidOf := by
    unfold advance
    rw [List.filterMap_eq_map', List.map_map]
    refine List.map_congr_left fun e _ => ?_
    show (if _ then _ else _ : TerminalSession).uid = e.2.uid
    split <;> rfl
  have hsessions := next_sessions z service (.openTerminal env request)
  have hnext := next_nextUid z service (.openTerminal env request)
  unfold PersistentTerminalService.uids at hprepared ⊢
  rw [hsessions, List.map_append, hkept, hprepared, hnext, Nat.add_sub_cancel_left]
  congr 1
  rcases spawnedBy_cases (prepared service (.openTerminal env request))
    (.openTerminal env request) with hnil | ⟨_, _, pid, -, -, hone⟩
  · rw [hnil]
    rfl
  · rw [hone, ← hfresh]
    rfl

theorem opens_uids (service : PersistentTerminalService)
    (requests : List (OpenEnv × OpenTerminal)) :
    service.nextUid ≤ ((machine z).run service (opens requests)).nextUid ∧
      ((machine z).run service (opens requests)).uids =
        service.uids ++ List.range' service.nextUid
          (((machine z).run service (opens requests)).nextUid - service.nextUid) := by
  induction requests generalizing service with
  | nil =>
    refine ⟨Nat.le_refl _, ?_⟩
    show service.uids = service.uids ++ List.range' service.nextUid (service.nextUid - _)
    rw [Nat.sub_self]
    exact (List.append_nil _).symm
  | cons r requests ih =>
    obtain ⟨env, request⟩ := r
    have hstep := open_uids z service env request
    have hle : service.nextUid ≤
        ((machine z).next service (.openTerminal env request)).nextUid := by
      rw [next_nextUid]
      cases hspawned : spawnedBy (prepared service (.openTerminal env request))
          (.openTerminal env request) with
      | nil => exact (remapLowest_nextUid service request.terminalId ▸ Nat.le_refl _)
      | cons e l => exact Nat.le_trans (remapLowest_nextUid service request.terminalId ▸
          Nat.le_refl _) (Nat.le_add_right _ _)
    obtain ⟨hle', huids⟩ := ih ((machine z).next service (.openTerminal env request))
    show service.nextUid ≤ ((machine z).run ((machine z).next service _) _).nextUid ∧
      ((machine z).run ((machine z).next service _) _).uids = _
    refine ⟨Nat.le_trans hle hle', ?_⟩
    show ((machine z).run ((machine z).next service (.openTerminal env request))
      (opens requests)).uids = _
    rw [huids, hstep, List.append_assoc]
    congr 1
    obtain ⟨a, ha⟩ := Nat.exists_eq_add_of_le hle
    obtain ⟨b, hb⟩ := Nat.exists_eq_add_of_le hle'
    show List.range' _ _ ++ List.range' _ _ = List.range' _
      (((machine z).run ((machine z).next service (.openTerminal env request))
        (opens requests)).nextUid - service.nextUid)
    rw [hb, ha, Nat.add_sub_cancel_left, Nat.add_sub_cancel_left, Nat.add_assoc,
      Nat.add_sub_cancel_left, List.range'_append_1]

theorem inv_opens {service : PersistentTerminalService} (h : Inv service)
    (requests : List (OpenEnv × OpenTerminal)) :
    Inv ((machine z).run service (opens requests)) :=
  (machine z).inv_run h (fun _ ev hinv => hinv.next z ev) _

theorem inv_resetStatus {service : PersistentTerminalService} (h : Inv service)
    (isPersistent : Bool) : Inv (service.resetStatus isPersistent) :=
  h.next Zstd.storing (.reset isPersistent)

theorem Inv.existsUnique_key {service : PersistentTerminalService} (h : Inv service) {uid : ℕ}
    (huid : uid ∈ service.uids) :
    ∃! id, ∃ s, Keyed.item? Prod.fst id service.sessions = some (id, s) ∧ s.uid = uid := by
  obtain ⟨⟨id, s⟩, hs, rfl⟩ := List.mem_map.mp huid
  refine ⟨id, ⟨s, Keyed.item?_of_mem h.ids hs, rfl⟩, ?_⟩
  rintro id' ⟨s', hitem, hsame⟩
  have hs' : (id', s') ∈ service.sessions := (Keyed.mem_of_item? hitem).1
  exact congrArg Prod.fst (h.uids.eq_of_mem hs' hs hsame)

/-! ### The first answer -/

theorem resetStatus_uids (service : PersistentTerminalService) (isPersistent : Bool) :
    (service.resetStatus isPersistent).uids = service.uids := by
  show (service.sessions.map _).map uidOf = service.sessions.map uidOf
  rw [List.map_map]
  rfl

theorem item_remapLowest {service : PersistentTerminalService}
    (hsync : service.needsSessionSync = true) (hne : service.sessions ≠ []) (id : Int32) :
    ∃ s, Keyed.item? Prod.fst id (service.remapLowest id).sessions = some (id, s) := by
  have hsome : (Keyed.item? Prod.fst id (service.remapLowest id).sessions).isSome = true := by
    unfold PersistentTerminalService.remapLowest
    split
    · cases hmin : (service.sessions.map Prod.fst).min? with
      | none =>
        exact absurd (List.map_eq_nil_iff.mp (List.min?_eq_none_iff.mp hmin)) hne
      | some lowestId =>
        -- the entry that had the lowest id has the new one
        obtain ⟨e, he, hlowest⟩ := List.mem_map.mp (List.min?_mem hmin)
        rw [Option.isSome_iff_ne_none]
        intro hnone
        refine Keyed.item?_eq_none.mp hnone (id, e.2) ?_ rfl
        exact List.mem_map.mpr ⟨e, he, if_pos hlowest⟩
    · next h =>
      have hnonempty : service.sessions.isEmpty = false := by
        rw [List.isEmpty_eq_false_iff]
        exact hne
      rw [hsync, hnonempty, Bool.and_true, Bool.not_false, Bool.and_true, Bool.not_eq_true',
        Bool.not_eq_false] at h
      exact h
  obtain ⟨⟨id', s⟩, hitem⟩ := Option.isSome_iff_exists.mp hsome
  obtain rfl : id' = id := (Keyed.mem_of_item? hitem).2
  exact ⟨s, hitem⟩

theorem remapLowest_needsSessionSync (service : PersistentTerminalService) (id : Int32) :
    (service.remapLowest id).needsSessionSync = service.needsSessionSync := by
  obtain heq | ⟨-, -, lowestId, heq⟩ := remapLowest_cases service id <;> rw [heq]

theorem filter_ne_of_length_le_one {id : Int32} {l : List Int32} (hid : id ∈ l)
    (hlen : ¬ 1 < l.length) : l.filter (fun k => k != id) = [] := by
  obtain ⟨a, rfl⟩ : ∃ a, l = [a] := by
    rw [← List.length_eq_one_iff]
    have hpos := List.length_pos_of_mem hid
    omega
  rw [List.mem_singleton.mp hid]
  simp

theorem out_first_open {service : PersistentTerminalService}
    (hsync : service.needsSessionSync = true) (env : OpenEnv) (request : OpenTerminal) :
    (∃ opened, (machine z).out service (.openTerminal env request) = [.opened opened] ∧
        opened.terminalId = request.terminalId ∧
        opened.persistentSessions =
          ((machine z).next service (.openTerminal env request)).keys.filter
            fun k => k != request.terminalId) ∨
      (∃ message, (machine z).out service (.openTerminal env request) = [.error message]) ∧
        service.sessions = [] := by
  show (∃ opened, [(handleOpen env request service).2] = [.opened opened] ∧ _ ∧
      opened.persistentSessions = (handleOpen env request service).1.keys.filter _) ∨
    (∃ message, [(handleOpen env request service).2] = [.error message]) ∧ _
  unfold handleOpen
  by_cases hnil : service.sessions = []
  · -- there is nothing to list
    have hfound : service.remapLowest request.terminalId = service := by
      unfold PersistentTerminalService.remapLowest
      rw [hnil]
      exact if_neg (by simp)
    have hitem : Keyed.item? Prod.fst request.terminalId service.sessions = none := by
      rw [hnil]
      rfl
    rw [hfound]
    unfold openSession
    dsimp only
    rw [hitem]
    cases env.spawn with
    | error context => exact Or.inr ⟨⟨_, rfl⟩, hnil⟩
    | ok pid =>
      refine Or.inl ⟨_, rfl, rfl, ?_⟩
      unfold PersistentTerminalService.keys
      rw [hnil]
      simp
  · have hsync' := (remapLowest_needsSessionSync service request.terminalId).trans hsync
    obtain ⟨s, hitem⟩ := item_remapLowest hsync hnil request.terminalId
    generalize service.remapLowest request.terminalId = found at hsync' hitem ⊢
    refine Or.inl ?_
    unfold openSession
    dsimp only
    rw [hitem]
    refine ⟨_, rfl, rfl, ?_⟩
    have hkeys (f : Int32 × TerminalSession → TerminalSession) :
        (found.sessions.map fun e => (e.1, f e)).map Prod.fst = found.sessions.map Prod.fst := by
      rw [List.map_map]
      rfl
    dsimp only [PersistentTerminalService.keys, PersistentTerminalService.mapSessions]
    rw [hsync', hkeys]
    have hid : request.terminalId ∈ found.sessions.map Prod.fst :=
      List.mem_map.mpr ⟨_, (Keyed.mem_of_item? hitem).1, rfl⟩
    by_cases hlen : 1 < (found.sessions.map Prod.fst).length
    · rw [List.length_map] at hlen
      rw [if_pos (by simpa using hlen)]
    · rw [filter_ne_of_length_le_one hid hlen]
      rw [List.length_map] at hlen
      rw [if_neg (by simpa using hlen)]

/-! ### All together -/

/-- **No session is lost, doubled or overwritten.** A client that comes back and opens any terminals
finds each session under exactly one key, beside those that it creates, and the first answer tells
it the keys that it has not asked for. -/
theorem reopen_keeps_sessions {service : PersistentTerminalService} (h : Inv service)
    (isPersistent : Bool) (requests : List (OpenEnv × OpenTerminal)) :
    (((machine z).run (service.resetStatus isPersistent) (opens requests)).uids =
        service.uids ++ List.range' service.nextUid
          (((machine z).run (service.resetStatus isPersistent) (opens requests)).nextUid -
            service.nextUid)) ∧
      (∀ uid ∈ service.uids, ∃! id, ∃ s, Keyed.item? Prod.fst id
        ((machine z).run (service.resetStatus isPersistent) (opens requests)).sessions =
          some (id, s) ∧ s.uid = uid) ∧
      ∀ r ∈ requests.head?,
        (∃ opened, (machine z).out (service.resetStatus isPersistent) (.openTerminal r.1 r.2) =
            [.opened opened] ∧ opened.terminalId = r.2.terminalId ∧
          opened.persistentSessions = ((machine z).next (service.resetStatus isPersistent)
            (.openTerminal r.1 r.2)).keys.filter fun k => k != r.2.terminalId) ∨
        (∃ message, (machine z).out (service.resetStatus isPersistent) (.openTerminal r.1 r.2) =
          [.error message]) ∧ service.sessions = [] := by
  have huids := (opens_uids z (service.resetStatus isPersistent) requests).2
  rw [resetStatus_uids] at huids
  refine ⟨huids, fun uid huid => ?_, fun r _ => ?_⟩
  · refine (inv_opens z (inv_resetStatus h isPersistent) requests).existsUnique_key ?_
    rw [huids]
    exact List.mem_append_left _ huid
  · have hsync : (service.resetStatus isPersistent).needsSessionSync = true := rfl
    have hfirst := out_first_open z hsync r.1 r.2
    exact hfirst.imp_right fun ⟨herror, hnil⟩ => ⟨herror, List.map_eq_nil_iff.mp hnil⟩

end Reopen

/-! ### Three requests

Two sessions survive under 2 and 5, and the client asks for 1, 5 and 7. -/

def twoSessions : PersistentTerminalService :=
  (machine Zstd.storing).run (.new "ts" true)
    (opens [(⟨[], .ok 41⟩, ⟨2, 24, 80⟩), (⟨[], .ok 42⟩, ⟨5, 24, 80⟩)])

theorem twoSessions_inv : Inv twoSessions := inv_run Zstd.storing "ts" true _

def threeRequests : List (OpenEnv × OpenTerminal) :=
  [(⟨[], .ok 43⟩, ⟨1, 24, 80⟩), (⟨[], .ok 44⟩, ⟨5, 24, 80⟩), (⟨[], .ok 45⟩, ⟨7, 24, 80⟩)]

theorem reopen_keeps_sessions_twoSessions :
    ((machine Zstd.storing).run (twoSessions.resetStatus true) (opens threeRequests)).uids =
        [0, 1, 2] ∧
      ((machine Zstd.storing).run (twoSessions.resetStatus true) (opens threeRequests)).keys =
        [1, 5, 7] ∧
      ∃! id, ∃ s, Keyed.item? Prod.fst id ((machine Zstd.storing).run
        (twoSessions.resetStatus true) (opens threeRequests)).sessions = some (id, s) ∧
          s.uid = 0 := by
  have hkept := reopen_keeps_sessions Zstd.storing twoSessions_inv true threeRequests
  exact ⟨hkept.1.trans (by decide +kernel), by decide +kernel, hkept.2.1 0 (by decide +kernel)⟩

end LibRustdesk.Terminal
