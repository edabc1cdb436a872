import LibRustdesk.Server.PortForward

/-!
# What is forwarded is what was put in

The invariant of a session that forwards a port, in two parts.

* `Wires` — what is on its way to each end: messages that have not been read and, behind them, bytes
  that have not been handed over. An end that is switched has no message on its way any more.
* `Talk` — what these messages can be. The `PeerInfo` of the host is its last message (`Phase`), and
  a reply is awaited exactly when it, or the `TestDelay` that it replies to, is on its way.

A client that knows that it has been let in sends bytes, and a host in its loop decodes messages.
`Talk.forwarding_of_nil` is why these do not meet: such a host awaits a reply, the reply was sent
before the bytes, and reading it is what makes the host leave its loop.

`forwarded_exactly` is the result for every orderly run. In `reply_forwarded` the connection manager
accepts the login while a reply is on its way, and the target is sent the reply.
-/

namespace LibRustdesk.Desktop.PortForward

open BytesCodec (maxPayloadLength)

structure View (Key : Type) where
  lastClient : FramedStream Key
  unreadHost : List Bytes
  rawHost : Bytes
  lastHost : FramedStream Key
  unreadClient : List Bytes
  rawClient : Bytes

/-! ### Handing bytes over -/

namespace State

variable {Key : Type} (box : SecretBox Key) (s : State Key)

theorem hostForwards_keeps : (s.hostForwards box).host.world = s.host.world ∧
    (s.hostForwards box).client = s.client := by
  unfold hostForwards
  split <;> exact ⟨rfl, rfl⟩

theorem clientForwards_keeps : (s.clientForwards box).host = s.host ∧
    (s.clientForwards box).client.forwarding = s.client.forwarding := by
  unfold clientForwards
  split <;> exact ⟨rfl, rfl⟩

theorem localReads_keeps (data : Bytes) : (s.localReads data).host = s.host ∧
    (s.localReads data).client.forwarding = s.client.forwarding := by
  unfold localReads
  dsimp only
  split <;> exact ⟨rfl, rfl⟩

theorem targetReads_keeps (data : Bytes) : (s.targetReads data).host = s.host ∧
    (s.targetReads data).client = s.client := by
  unfold targetReads
  split <;> exact ⟨rfl, rfl⟩

end State

/-! ### The wires -/

structure Wires {Key : Type} (box : SecretBox Key) (s : State Key) (v : View Key) : Prop where
  sentByClient : s.clientSent = s.hostRead ++ v.unreadHost
  localIn : s.localIn = s.targetOut ++ (v.rawHost ++ s.client.buffer)
  toHost : OnItsWay box v.lastClient s.host.stream s.host.world.forwards s.toHost v.unreadHost
    v.rawHost
  /-- A client that has not been let in sends messages only. -/
  login : s.client.forwarding = false →
    v.rawHost = [] ∧ s.client.stream.keyed.sealing = v.lastClient.sealing
  buffer : s.client.forwarding = true → s.client.buffer = []
  sentByHost : s.hostSent = s.clientRead ++ v.unreadClient
  targetIn : s.targetIn = s.localOut ++ v.rawClient
  toClient : OnItsWay box v.lastHost s.client.stream s.client.forwarding s.toClient v.unreadClient
    v.rawClient
  /-- Nor does a host that is not forwarding send anything else. -/
  loop : s.host.world.forwards = false →
    v.rawClient = [] ∧ s.host.stream.keyed.sealing = v.lastHost.sealing

namespace Wires

variable {Key : Type} {box : SecretBox Key} {s : State Key} {v : View Key}

theorem unreadByHost (h : Wires box s v) : s.unreadByHost = v.unreadHost := by
  unfold State.unreadByHost
  rw [h.sentByClient, List.drop_left]

theorem unreadByClient (h : Wires box s v) : s.unreadByClient = v.unreadClient := by
  unfold State.unreadByClient
  rw [h.sentByHost, List.drop_left]

theorem hostReceives (h : Wires box s v) (n : ℕ) :
    Wires box { s with
      host := { s.host with stream := s.host.stream.receive (s.toHost.take n) }
      toHost := s.toHost.drop n } v :=
  { h with toHost := h.toHost.receive n }

theorem clientReceives (h : Wires box s v) (n : ℕ) :
    Wires box { s with
      client := { s.client with stream := s.client.stream.receive (s.toClient.take n) }
      toClient := s.toClient.drop n } v :=
  { h with toClient := h.toClient.receive n }

theorem hostSend (h : Wires box s v) (hbox : box.Lawful) (m : Payload)
    (hloop : s.host.world.forwards = false) (hlogin : s.client.forwarding = false) :
    Wires box (s.hostSend box m) { v with
      lastHost := (s.host.stream.sendRaw box m).1.keyed
      unreadClient := v.unreadClient ++ [m.1] } := by
  obtain ⟨hraw, hsealing⟩ := h.loop hloop
  have hframes := (h.toClient.frames hlogin).congr hsealing
  rw [hraw] at hframes
  have hsend := hframes.send hbox (h.toHost.raw_codec.trans hloop) m.2
  have hreceiver := (h.toHost.frames hloop).sendRaw m.1
  exact { h with
    toHost := ⟨fun _ => hreceiver, fun hs => absurd (hloop.symm.trans hs) Bool.noConfusion⟩
    sentByHost := by
      show s.hostSent ++ [m.1] = s.clientRead ++ (v.unreadClient ++ [m.1])
      rw [h.sentByHost, List.append_assoc]
    toClient := by
      show OnItsWay box _ s.client.stream s.client.forwarding _ _ v.rawClient
      rw [hlogin, hraw]
      exact hsend.onItsWay
    loop := fun _ => ⟨hraw, rfl⟩ }

theorem clientSend (h : Wires box s v) (hbox : box.Lawful) (m : Payload)
    (hloop : s.host.world.forwards = false) (hlogin : s.client.forwarding = false) :
    Wires box (s.clientSend box m) { v with
      lastClient := (s.client.stream.sendRaw box m).1.keyed
      unreadHost := v.unreadHost ++ [m.1] } := by
  obtain ⟨hraw, hsealing⟩ := h.login hlogin
  have hframes := (h.toHost.frames hloop).congr hsealing
  rw [hraw] at hframes
  have hsend := hframes.send hbox (h.toClient.raw_codec.trans hlogin) m.2
  have hreceiver := (h.toClient.frames hlogin).sendRaw m.1
  exact { h with
    toClient := ⟨fun _ => hreceiver, fun hs => absurd (hlogin.symm.trans hs) Bool.noConfusion⟩
    sentByClient := by
      show s.clientSent ++ [m.1] = s.hostRead ++ (v.unreadHost ++ [m.1])
      rw [h.sentByClient, List.append_assoc]
    toHost := by
      show OnItsWay box _ s.host.stream s.host.world.forwards _ _ v.rawHost
      rw [hloop, hraw]
      exact hsend.onItsWay
    login := fun _ => ⟨hraw, rfl⟩ }

theorem enter (h : Wires box s v) (w : World)
    (hkeeps : s.host.world.forwards = true → w.forwards = true)
    (hread : s.host.world.forwards = false → w.forwards = true → v.unreadHost = []) :
    Wires box (s.enter w) v := by
  unfold State.enter
  cases hold : s.host.world.forwards with
  | true =>
    have hnew := hkeeps hold
    rw [hnew]
    exact { h with
      toHost := by
        show OnItsWay box v.lastClient s.host.stream w.forwards s.toHost v.unreadHost v.rawHost
        rw [hnew, ← hold]
        exact h.toHost
      loop := fun hfalse => absurd (hnew.symm.trans hfalse) Bool.noConfusion }
  | false =>
    cases hnew : w.forwards with
    | false =>
      exact { h with
        toHost := by
          show OnItsWay box v.lastClient s.host.stream w.forwards s.toHost v.unreadHost v.rawHost
          rw [hnew, ← hold]
          exact h.toHost
        loop := fun _ => h.loop hold }
    | true =>
      have hframes := h.toHost.frames hold
      rw [hread hold hnew] at hframes
      exact { h with
        toHost := by
          show OnItsWay box v.lastClient s.host.stream.setRaw w.forwards s.toHost v.unreadHost
            v.rawHost
          rw [hnew, hread hold hnew]
          exact hframes.setRaw.onItsWay
        loop := fun hfalse => absurd (hnew.symm.trans hfalse) Bool.noConfusion }

theorem hostNext (h : Wires box s v) (hloop : s.host.world.forwards = false)
    (hempty : v.unreadHost = [] → v.rawHost = []) :
    ((s.host.stream.next box).2 = none ∧
        Wires box { s with host := { s.host with stream := (s.host.stream.next box).1 } } v) ∨
      ∃ m rest, v.unreadHost = m :: rest ∧ (s.host.stream.next box).2 = some (.ok m) ∧
        Wires box { s with
          host := { s.host with stream := (s.host.stream.next box).1 }
          hostRead := s.hostRead ++ [m] } { v with unreadHost := rest } := by
  have hloop' : (s.host.stream.next box).1.keyed.sealing = v.lastHost.sealing :=
    (TcpStream.sealing_next box s.host.stream).trans (h.loop hloop).2
  rcases h.toHost.next hloop hempty with ⟨hnone, hnext⟩ | ⟨m, rest, hunread, hsome, hnext⟩
  · exact .inl ⟨hnone, { h with
      toHost := hnext
      loop := fun _ => ⟨(h.loop hloop).1, hloop'⟩ }⟩
  · refine .inr ⟨m, rest, hunread, hsome, { h with
      sentByClient := ?_
      toHost := hnext
      loop := fun _ => ⟨(h.loop hloop).1, hloop'⟩ }⟩
    rw [h.sentByClient, hunread, List.append_assoc, List.singleton_append]

theorem hostForwards (h : Wires box s v) (hforwards : s.host.world.forwards = true) :
    ∃ raw, Wires box (s.hostForwards box) { v with rawHost := raw } := by
  unfold State.hostForwards
  rcases h.toHost.next_bytes hforwards with ⟨hnone, hnext⟩ | ⟨data, raw, hsome, hcut, hnext⟩
  · rcases hres : s.host.stream.next box with ⟨stream, res⟩
    rw [hres] at hnone hnext
    subst hnone
    exact ⟨v.rawHost, { h with
      toHost := hnext
      loop := fun hfalse => absurd (hforwards.symm.trans hfalse) Bool.noConfusion }⟩
  · rcases hres : s.host.stream.next box with ⟨stream, res⟩
    rw [hres] at hsome hnext
    subst hsome
    refine ⟨raw, { h with
      localIn := ?_
      toHost := hnext
      login := fun hlogin => ?_
      loop := fun hfalse => absurd (hforwards.symm.trans hfalse) Bool.noConfusion }⟩
    · rw [h.localIn, hcut]
      simp only [List.append_assoc]
    · obtain ⟨hempty, hsealing⟩ := h.login hlogin
      rw [hempty] at hcut
      exact ⟨(List.append_eq_nil_iff.mp hcut.symm).2, hsealing⟩

theorem clientNext (h : Wires box s v) (hlogin : s.client.forwarding = false)
    (hempty : v.unreadClient = [] → v.rawClient = []) :
    ((s.client.stream.next box).2 = none ∧
        Wires box { s with client := { s.client with stream := (s.client.stream.next box).1 } } v) ∨
      ∃ m rest, v.unreadClient = m :: rest ∧ (s.client.stream.next box).2 = some (.ok m) ∧
        Wires box { s with
          client := { s.client with stream := (s.client.stream.next box).1 }
          clientRead := s.clientRead ++ [m] } { v with unreadClient := rest } := by
  have hlogin' : (s.client.stream.next box).1.keyed.sealing = v.lastClient.sealing :=
    (TcpStream.sealing_next box s.client.stream).trans (h.login hlogin).2
  rcases h.toClient.next hlogin hempty with ⟨hnone, hnext⟩ | ⟨m, rest, hunread, hsome, hnext⟩
  · exact .inl ⟨hnone, { h with
      toClient := hnext
      login := fun _ => ⟨(h.login hlogin).1, hlogin'⟩ }⟩
  · refine .inr ⟨m, rest, hunread, hsome, { h with
      sentByHost := ?_
      toClient := hnext
      login := fun _ => ⟨(h.login hlogin).1, hlogin'⟩ }⟩
    rw [h.sentByHost, hunread, List.append_assoc, List.singleton_append]

theorem clientForwards (h : Wires box s v) (hforwarding : s.client.forwarding = true) :
    ∃ raw, Wires box (s.clientForwards box) { v with rawClient := raw } := by
  unfold State.clientForwards
  rcases h.toClient.next_bytes hforwarding with ⟨hnone, hnext⟩ | ⟨data, raw, hsome, hcut, hnext⟩
  · rcases hres : s.client.stream.next box with ⟨stream, res⟩
    rw [hres] at hnone hnext
    subst hnone
    exact ⟨v.rawClient, { h with
      toClient := hnext
      login := fun hfalse => absurd (hforwarding.symm.trans hfalse) Bool.noConfusion }⟩
  · rcases hres : s.client.stream.next box with ⟨stream, res⟩
    rw [hres] at hsome hnext
    subst hsome
    refine ⟨raw, { h with
      targetIn := ?_
      toClient := hnext
      login := fun hfalse => absurd (hforwarding.symm.trans hfalse) Bool.noConfusion
      loop := fun hloop => ?_ }⟩
    · rw [h.targetIn, hcut, List.append_assoc]
    · obtain ⟨hempty, hsealing⟩ := h.loop hloop
      rw [hempty] at hcut
      exact ⟨(List.append_eq_nil_iff.mp hcut.symm).2, hsealing⟩

theorem runForward (h : Wires box s v) (hlogin : s.client.forwarding = false)
    (hread : v.unreadClient = []) :
    Wires box s.runForward { v with rawHost := v.rawHost ++ s.client.buffer } := by
  have hframes := h.toClient.frames hlogin
  rw [hread] at hframes
  have hbytes : (if s.client.buffer = [] then [] else
      s.client.stream.setRaw.sendBytes s.client.buffer) =
        s.client.stream.setRaw.sendBytes s.client.buffer := by
    split
    · next hempty => rw [hempty]; rfl
    · rfl
  have hraw : s.client.stream.setRaw.codec.raw = true := rfl
  have hsend := h.toHost.sendBytes hraw s.client.buffer
  unfold State.runForward
  dsimp only
  rw [hbytes]
  exact { h with
    localIn := by
      rw [h.localIn, List.append_nil]
    toHost := hsend
    login := nofun
    buffer := fun _ => rfl
    toClient := by
      rw [hread]
      exact hframes.setRaw.onItsWay }

theorem localReads (h : Wires box s v) (data : Bytes) :
    ∃ raw, Wires box (s.localReads data) { v with rawHost := raw } := by
  unfold State.localReads
  dsimp only
  split
  · next hforwarding =>
    have hbuffer := h.buffer hforwarding
    have hraw : s.client.stream.codec.raw = true := h.toClient.raw_codec.trans hforwarding
    refine ⟨v.rawHost ++ data, { h with
      localIn := ?_
      toHost := h.toHost.sendBytes hraw data
      login := fun hfalse => absurd (hforwarding.symm.trans hfalse) Bool.noConfusion }⟩
    rw [h.localIn, hbuffer]
    simp only [List.append_assoc, List.append_nil]
  · next hlogin =>
    refine ⟨v.rawHost, { h with
      localIn := ?_
      buffer := fun hforwarding => absurd hforwarding hlogin }⟩
    rw [h.localIn]
    simp only [List.append_assoc]

theorem targetReads (h : Wires box s v) (data : Bytes) :
    ∃ raw, Wires box (s.targetReads data) { v with rawClient := raw } := by
  unfold State.targetReads
  split
  · next hforwards =>
    have hraw : s.host.stream.codec.raw = true := h.toHost.raw_codec.trans hforwards
    refine ⟨v.rawClient ++ data, { h with
      targetIn := ?_
      toClient := h.toClient.sendBytes hraw data
      loop := fun hfalse => absurd (hforwards.symm.trans hfalse) Bool.noConfusion }⟩
    rw [h.targetIn, List.append_assoc]
  · exact ⟨v.rawClient, h⟩

end Wires

/-! ### The talk -/

/-- How far the login has come: whether the host has let the client in, whether the client knows,
and what it has not read. -/
inductive Phase (P : Proto) : Bool → Bool → List Bytes → Prop
  | asks {unread : List Bytes} (h : ∀ m ∈ unread, P.answer m ≠ some .peerInfo) :
      Phase P false false unread
  /-- The `PeerInfo` is the last message. -/
  | isLetIn {ms : List Bytes} {m : Bytes} (h : ∀ m ∈ ms, P.answer m ≠ some .peerInfo)
      (hm : P.answer m = some .peerInfo) : Phase P true false (ms ++ [m])
  | forwards : Phase P true true []

structure Talk (P : Proto) (w : World) (forwarding : Bool) (unreadHost unreadClient : List Bytes) :
    Prop where
  tunnel : w.Tunnel
  quiet : w.forwards = true → w.conn.lastTestDelay = false
  asks : ∀ m ∈ unreadHost, P.isReply m = true ∨ P.Asks m
  phase : Phase P w.conn.authorized forwarding unreadClient
  /-- A reply is awaited exactly when it, or what it replies to, is on its way. -/
  count : unreadClient.countP P.isTestDelay + unreadHost.countP P.isReply =
    w.conn.lastTestDelay.toNat

section Phase

variable {P : Proto} {authorized forwarding : Bool} {unread : List Bytes} {m : Bytes}

theorem Phase.authorized_of_nil (h : Phase P authorized false []) : authorized = false := by
  generalize hunread : ([] : List Bytes) = unread at h
  cases h with
  | asks => rfl
  | isLetIn =>
    exact absurd hunread.symm (List.append_ne_nil_of_right_ne_nil _ (List.cons_ne_nil _ _))

theorem Phase.forwarding_of_asks (h : Phase P false forwarding unread) : forwarding = false := by
  cases h with
  | asks => rfl

theorem Phase.tells (h : Phase P false forwarding unread) (hm : P.answer m ≠ some .peerInfo) :
    Phase P false forwarding (unread ++ [m]) := by
  cases h with
  | asks h =>
    refine .asks fun m' hm' => ?_
    rcases List.mem_append.mp hm' with hold | hnew
    · exact h m' hold
    · rw [List.mem_singleton.mp hnew]
      exact hm

theorem Phase.letsIn (h : Phase P false forwarding unread) (hm : P.answer m = some .peerInfo) :
    Phase P true forwarding (unread ++ [m]) := by
  cases h with
  | asks h => exact .isLetIn h hm

theorem Phase.tail (h : Phase P authorized false (m :: unread))
    (hm : P.answer m ≠ some .peerInfo) : Phase P authorized false unread := by
  generalize hall : m :: unread = all at h
  cases h with
  | asks h =>
    subst hall
    exact .asks fun m' hm' => h m' (List.mem_cons_of_mem m hm')
  | @isLetIn ms last h hlast =>
    cases ms with
    | nil =>
      obtain ⟨rfl, -⟩ := List.cons.inj hall
      exact absurd hlast hm
    | cons m' ms =>
      obtain ⟨rfl, rfl⟩ := List.cons.inj hall
      exact .isLetIn (fun m'' hm'' => h m'' (List.mem_cons_of_mem m hm'')) hlast

theorem Phase.starts (h : Phase P authorized false (m :: unread))
    (hm : P.answer m = some .peerInfo) : authorized = true ∧ unread = [] := by
  generalize hall : m :: unread = all at h
  cases h with
  | asks h =>
    subst hall
    exact absurd hm (h m List.mem_cons_self)
  | @isLetIn ms last h hlast =>
    cases ms with
    | nil => exact ⟨rfl, (List.cons.inj hall).2⟩
    | cons m' ms =>
      obtain ⟨rfl, -⟩ := List.cons.inj hall
      exact absurd hm (h m List.mem_cons_self)

end Phase

namespace Talk

variable {P : Proto} {w : World} {forwarding : Bool} {unreadHost unreadClient : List Bytes}

theorem forwarding_of_nil (h : Talk P w forwarding [] unreadClient) (hloop : w.forwards = false) :
    forwarding = false := by
  obtain ⟨htunnel, -, -, hphase, hcount⟩ := h
  generalize hauth : w.conn.authorized = authorized at hphase
  cases hphase with
  | asks | isLetIn => rfl
  | forwards =>
    rw [(htunnel.awaits_of_authorized hauth hloop).2] at hcount
    exact absurd hcount Nat.zero_ne_one

theorem forwards_of_nil (h : Talk P w false unreadHost []) : w.forwards = false := by
  by_contra hforwards
  rw [Bool.not_eq_false] at hforwards
  exact absurd ((h.tunnel.authorized_of_forwards hforwards).symm.trans h.phase.authorized_of_nil)
    Bool.noConfusion

theorem loop_of_testDelay (h : Talk P w forwarding unreadHost unreadClient) {m : Bytes}
    (hm : m ∈ unreadClient) (htest : P.isTestDelay m = true) : w.forwards = false := by
  by_contra hforwards
  rw [Bool.not_eq_false] at hforwards
  have hcount := h.count
  rw [h.quiet hforwards] at hcount
  have hpos : 0 < unreadClient.countP P.isTestDelay := List.countP_pos_iff.mpr ⟨m, hm, htest⟩
  exact absurd (Nat.eq_zero_of_add_eq_zero_right hcount) (Nat.ne_of_gt hpos)

end Talk

/-! ### The invariant -/

structure Inv {Key : Type} (box : SecretBox Key) (P : Proto) (s : State Key) (v : View Key) :
    Prop where
  wires : Wires box s v
  talk : Talk P s.host.world s.client.forwarding v.unreadHost v.unreadClient

namespace Inv

variable {Key : Type} {box : SecretBox Key} {P : Proto} {s : State Key} {v : View Key}

theorem start (box : SecretBox Key) (P : Proto) (o : Opening) {host client : FramedStream Key}
    (hdown : host.Agree client) (hup : client.Agree host) :
    Inv box P (.start o host client) ⟨client, [], [], host, [], []⟩ where
  wires := {
    sentByClient := rfl
    localIn := rfl
    toHost := (FramesAhead.new box hup).onItsWay
    login := fun _ => ⟨rfl, rfl⟩
    buffer := nofun
    sentByHost := rfl
    targetIn := rfl
    toClient := (FramesAhead.new box hdown).onItsWay
    loop := fun _ => ⟨rfl, rfl⟩ }
  talk := {
    tunnel := .start o
    quiet := nofun
    asks := fun _ hm => absurd hm List.not_mem_nil
    phase := .asks fun _ hm => absurd hm List.not_mem_nil
    count := rfl }

theorem logsOn (h : Wires box s v) (hbox : box.Lawful) (hproto : P.Lawful) (ev : Desktop.Event)
    (htunnel : s.host.world.Tunnel) (htunnel' : (Desktop.step s.host.world ev).Tunnel)
    (hquiet : (Desktop.step s.host.world ev).forwards = true →
      (Desktop.step s.host.world ev).conn.lastTestDelay = false)
    (hread : s.host.world.forwards = false →
      (Desktop.step s.host.world ev).forwards = true → v.unreadHost = [])
    (hasks : ∀ m ∈ v.unreadHost, P.isReply m = true ∨ P.Asks m)
    (hphase : Phase P s.host.world.conn.authorized s.client.forwarding v.unreadClient)
    (hcount : v.unreadClient.countP P.isTestDelay + v.unreadHost.countP P.isReply =
      (Desktop.step s.host.world ev).conn.lastTestDelay.toNat) :
    ∃ v', Inv box P (s.logsOn box P ev) v' := by
  have hkeeps : s.host.world.forwards = true → (Desktop.step s.host.world ev).forwards = true := by
    intro hforwards
    rw [World.step_of_forwards hforwards]
    exact hforwards
  unfold State.logsOn
  dsimp only
  generalize hw : Desktop.step s.host.world ev = w at *
  by_cases hflips : (w.conn.authorized && !s.host.world.conn.authorized) = true
  · rw [if_pos hflips]
    obtain ⟨hauth', hauth⟩ : w.conn.authorized = true ∧ s.host.world.conn.authorized = false := by
      simpa using hflips
    have hloop : s.host.world.forwards = false := by
      by_contra hforwards
      rw [Bool.not_eq_false] at hforwards
      exact absurd ((htunnel.authorized_of_forwards hforwards).symm.trans hauth) Bool.noConfusion
    have hanswer := hproto.answer_peerInfo w
    have htest : P.isTestDelay (P.peerInfo w).1 = false := by
      unfold Proto.isTestDelay
      rw [hanswer]
      rfl
    rw [hauth] at hphase
    have hlogin : s.client.forwarding = false := hphase.forwarding_of_asks
    have hsend := h.hostSend hbox (P.peerInfo w) hloop hlogin
    refine ⟨_, hsend.enter w hkeeps hread, htunnel', hquiet, hasks, ?_, ?_⟩
    · show Phase P w.conn.authorized s.client.forwarding _
      rw [hauth']
      exact hphase.letsIn hanswer
    · rw [List.countP_append, List.countP_singleton, htest]
      exact hcount
  · rw [if_neg hflips]
    refine ⟨v, h.enter w hkeeps hread, htunnel', hquiet, hasks, ?_, hcount⟩
    show Phase P w.conn.authorized s.client.forwarding v.unreadClient
    have hsame : w.conn.authorized = s.host.world.conn.authorized := by
      cases hauth : s.host.world.conn.authorized with
      | true =>
        rw [← hw]
        exact World.authorized_step hauth ev
      | false =>
        rw [hauth] at hflips
        simpa using hflips
    rw [hsame]
    exact hphase

/-! ### Steps of the host -/

theorem count_read {w : World} {forwarding : Bool} {b : Bytes} {rest unreadClient : List Bytes}
    {m : Message} (h : Talk P w forwarding (b :: rest) unreadClient) (hended : w.ended = false)
    (env : Env) (hparse : P.parse b = some m) (htakes : w.Takes m) :
    unreadClient.countP P.isTestDelay + rest.countP P.isReply =
      (Desktop.step w (.message env m)).conn.lastTestDelay.toNat := by
  have hcount := h.count
  rw [List.countP_cons] at hcount
  by_cases hreply : m = .testDelay false
  · subst hreply
    have hone : P.isReply b = true := by
      unfold Proto.isReply
      rw [hparse]
      exact decide_eq_true rfl
    rw [if_pos hone] at hcount
    rw [h.tunnel.step_reply hended env]
    have hle : w.conn.lastTestDelay.toNat ≤ 1 := Bool.toNat_le _
    show _ = 0
    omega
  · have hnone : P.isReply b = false := by
      unfold Proto.isReply
      rw [hparse]
      exact decide_eq_false fun heq => hreply (Option.some.inj heq)
    rw [hnone] at hcount
    rw [h.tunnel.step_asks hended env htakes hreply]
    exact hcount

theorem takes_of_asks {w : World} {b : Bytes} {m : Message} (h : P.isReply b = true ∨ P.Asks b)
    (hparse : P.parse b = some m) (hturn : w.InTurn m) : w.Takes m := by
  refine ⟨?_, hturn⟩
  rcases h with hreply | hasks
  · have heq : P.parse b = some (.testDelay false) := of_decide_eq_true hreply
    exact .inl (Option.some.inj (hparse.symm.trans heq))
  · exact .inr (hasks m hparse)

theorem hostLoopReads (h : Inv box P s v) (hbox : box.Lawful) (hproto : P.Lawful) (env : Env)
    (hloop : s.host.world.forwards = false) (hended : s.host.world.ended = false)
    (horderly : s.HostOrderly box P (.reads env)) :
    ∃ v', Inv box P (s.hostLoopReads box P env) v' := by
  obtain ⟨hwires, htalk⟩ := h
  have hempty : v.unreadHost = [] → v.rawHost = [] := by
    intro hnil
    rw [hnil] at htalk
    exact (hwires.login (htalk.forwarding_of_nil hloop)).1
  unfold State.hostLoopReads
  rcases hwires.hostNext hloop hempty with ⟨hnone, hnext⟩ | ⟨b, rest, hunread, hsome, hnext⟩
  · rcases hres : s.host.stream.next box with ⟨stream, res⟩
    rw [hres] at hnone hnext
    subst hnone
    exact ⟨v, hnext, htalk⟩
  · have horderly := horderly hloop
    unfold State.nextMessage at horderly
    rcases hres : s.host.stream.next box with ⟨stream, res⟩
    rw [hres] at hsome hnext horderly
    subst hsome
    dsimp only
    rw [hwires.unreadByHost, hunread] at horderly
    rw [hunread] at htalk
    have hasks : ∀ m ∈ rest, P.isReply m = true ∨ P.Asks m :=
      fun m hm => htalk.asks m (List.mem_cons_of_mem b hm)
    cases hparse : P.parse b with
    | none =>
      -- what cannot be parsed is passed over
      have hnone : P.isReply b = false := by
        unfold Proto.isReply
        rw [hparse]
        rfl
      have hcount := htalk.count
      rw [List.countP_cons, hnone] at hcount
      exact ⟨_, hnext, htalk.tunnel, htalk.quiet, hasks, htalk.phase, hcount⟩
    | some m =>
      obtain ⟨hturn, hreplies⟩ := horderly m hparse
      have htakes : s.host.world.Takes m :=
        takes_of_asks (htalk.asks b List.mem_cons_self) hparse hturn
      obtain ⟨htunnel, -, hquiet⟩ := htalk.tunnel.step_message hended env htakes
      have hcount := count_read htalk hended env hparse htakes
      refine logsOn hnext hbox hproto _ htalk.tunnel htunnel hquiet ?_ hasks htalk.phase hcount
      -- where it starts to forward no reply is awaited, so none is left
      intro _ hforwards
      have hall : ∀ b' ∈ rest, P.isReply b' = true := hreplies hforwards
      rw [hquiet hforwards] at hcount
      have hzero : rest.countP P.isReply = 0 := Nat.eq_zero_of_add_eq_zero_left hcount
      rw [List.countP_eq_length.mpr hall] at hzero
      exact List.eq_nil_of_length_eq_zero hzero

theorem hostCm (h : Inv box P s v) (hbox : box.Lawful) (hproto : P.Lawful) (env : Env) (d : CmData)
    (horderly : s.HostOrderly box P (.cm env d)) :
    ∃ v', Inv box P (s.logsOn box P (.cm env d)) v' := by
  obtain ⟨hwires, htalk⟩ := h
  obtain ⟨htunnel, hdelay⟩ := htalk.tunnel.step_cm env d
  have hcount := htalk.count
  rw [← hdelay] at hcount
  refine logsOn hwires hbox hproto _ htalk.tunnel htunnel ?_ ?_ htalk.asks htalk.phase hcount
  · intro hforwards
    rw [hdelay]
    cases hloop : s.host.world.forwards with
    | true => exact htalk.quiet hloop
    | false => exact (horderly hloop hforwards).1
  · intro hloop hforwards
    have hunread := (horderly hloop hforwards).2
    rw [hwires.unreadByHost] at hunread
    exact hunread

theorem enter (h : Wires box s v) (w : World) (hforwards : w.forwards = s.host.world.forwards)
    (htalk : Talk P w s.client.forwarding v.unreadHost v.unreadClient) :
    Inv box P (s.enter w) v := by
  refine ⟨h.enter w (fun hold => hforwards.trans hold) ?_, htalk⟩
  intro hloop hnew
  exact absurd (hloop.symm.trans (hforwards.symm.trans hnew)) Bool.noConfusion

theorem hostTimer (h : Inv box P s v) (hbox : box.Lawful) (hproto : P.Lawful) :
    ∃ v', Inv box P (s.onTestDelayTimer box P) v' := by
  obtain ⟨hwires, htalk⟩ := h
  unfold State.onTestDelayTimer
  dsimp only
  cases hended : s.host.world.ended with
  | true =>
    rw [World.step_of_ended hended, if_neg (by simp)]
    exact ⟨v, enter hwires _ rfl htalk⟩
  | false =>
    rw [htalk.tunnel.step_timer hended]
    set w : World := { s.host.world with
      conn := { s.host.world.conn with lastTestDelay := true } }
    have htunnel : w.Tunnel := ⟨htalk.tunnel.core, fun _ _ => rfl⟩
    have hquiet : w.forwards = true → w.conn.lastTestDelay = false :=
      fun hforwards => absurd (hended.symm.trans (World.ended_of_forwards hforwards))
        Bool.noConfusion
    have hloop : s.host.world.forwards = false := by
      unfold World.forwards
      rw [hended]
      rfl
    have hcount := htalk.count
    cases hdelay : s.host.world.conn.lastTestDelay with
    | true =>
      rw [hdelay] at hcount
      exact ⟨v, enter hwires w rfl ⟨htunnel, hquiet, htalk.asks, htalk.phase, hcount⟩⟩
    | false =>
      rw [hdelay] at hcount
      have hauth : s.host.world.conn.authorized = false := by
        by_contra hauth
        rw [Bool.not_eq_false] at hauth
        exact absurd (hdelay.symm.trans (htalk.tunnel.awaits hended hauth)) Bool.noConfusion
      have hphase := htalk.phase
      rw [hauth] at hphase
      have hlogin : s.client.forwarding = false := hphase.forwarding_of_asks
      have hanswer := hproto.answer_testDelay s.host.world
      have htest : P.isTestDelay (P.testDelay s.host.world).1 = true := decide_eq_true hanswer
      refine ⟨_, enter (hwires.hostSend hbox (P.testDelay s.host.world) hloop hlogin) w rfl
        ⟨htunnel, hquiet, htalk.asks, ?_, ?_⟩⟩
      · rw [hauth]
        exact hphase.tells (by rw [hanswer]; exact fun heq => nomatch Option.some.inj heq)
      · show (v.unreadClient ++ [(P.testDelay s.host.world).1]).countP P.isTestDelay +
          v.unreadHost.countP P.isReply = 1
        rw [List.countP_append, List.countP_singleton, htest, if_pos rfl]
        have hzero : v.unreadClient.countP P.isTestDelay + v.unreadHost.countP P.isReply = 0 :=
          hcount
        omega

theorem hostOthers (h : Inv box P s v) (shared : Shared) (services : List ServiceName) :
    Inv box P (s.enter (Desktop.step s.host.world (.others shared services))) v := by
  obtain ⟨hwires, htalk⟩ := h
  obtain ⟨htunnel, hawaits, hcore⟩ := htalk.tunnel.step_others shared services
  generalize Desktop.step s.host.world (.others shared services) = w at htunnel hawaits hcore ⊢
  obtain ⟨hended, hdelay⟩ := Prod.mk.inj hawaits
  have hforwards : w.forwards = s.host.world.forwards := by
    have hsocket : w.conn.portForwardSocket = s.host.world.conn.portForwardSocket :=
      congrArg Core.portForwardSocket hcore
    unfold World.forwards
    rw [hended, hsocket]
  have hauth : w.conn.authorized = s.host.world.conn.authorized := congrArg Core.authorized hcore
  refine enter hwires w hforwards ⟨htunnel, ?_, htalk.asks, ?_, ?_⟩
  · rw [hforwards, hdelay]
    exact htalk.quiet
  · rw [hauth]
    exact htalk.phase
  · rw [hdelay]
    exact htalk.count

theorem hostLeaves (h : Inv box P s v)
    (horderly : s.host.world.ended = false → s.host.world.conn.authorized = false) :
    Inv box P s.leave v := by
  obtain ⟨hwires, htalk⟩ := h
  have hforwards : World.forwards { s.host.world with ended := true } = s.host.world.forwards := by
    cases hended : s.host.world.ended with
    | true =>
      unfold World.forwards
      rw [hended]
    | false =>
      have hsocket : s.host.world.conn.portForwardSocket.isSome = false :=
        htalk.tunnel.isSome_socket.trans (horderly hended)
      unfold World.forwards
      rw [hsocket, Bool.and_false, Bool.and_false]
  refine enter hwires _ hforwards ⟨⟨htalk.tunnel.core, nofun⟩, ?_, htalk.asks, htalk.phase,
    htalk.count⟩
  rw [hforwards]
  exact htalk.quiet

theorem hostSends (h : Inv box P s v) (hbox : box.Lawful) (m : Payload) (htells : P.Tells m)
    (hended : s.host.world.ended = false) (hauth : s.host.world.conn.authorized = false) :
    ∃ v', Inv box P (s.hostSend box m) v' := by
  obtain ⟨hwires, htalk⟩ := h
  have hphase := htalk.phase
  rw [hauth] at hphase
  have hloop : s.host.world.forwards = false := by
    unfold World.forwards
    rw [hended]
    rfl
  refine ⟨_, hwires.hostSend hbox m hloop hphase.forwarding_of_asks, htalk.tunnel, htalk.quiet,
    htalk.asks, ?_, ?_⟩
  · show Phase P s.host.world.conn.authorized s.client.forwarding _
    rw [hauth]
    exact hphase.tells htells.2
  · rw [List.countP_append, List.countP_singleton, htells.1]
    exact htalk.count

theorem hostReads (h : Inv box P s v) (hbox : box.Lawful) (hproto : P.Lawful) (env : Env)
    (horderly : s.HostOrderly box P (.reads env)) :
    ∃ v', Inv box P (s.hostReads box P env) v' := by
  unfold State.hostReads
  cases hforwards : s.host.world.forwards with
  | true =>
    rw [if_pos rfl]
    obtain ⟨raw, hwires⟩ := h.wires.hostForwards hforwards
    obtain ⟨hworld, hclient⟩ := s.hostForwards_keeps box
    refine ⟨_, hwires, ?_⟩
    rw [hworld, hclient]
    exact h.talk
  | false =>
    cases hended : s.host.world.ended with
    | true => exact ⟨v, by rw [if_pos rfl]; exact h⟩
    | false =>
      exact h.hostLoopReads hbox hproto env hforwards hended horderly

theorem hostStep (h : Inv box P s v) (hbox : box.Lawful) (hproto : P.Lawful) (ev : HostEvent P)
    (horderly : s.HostOrderly box P ev) : ∃ v', Inv box P (s.hostStep box P ev) v' := by
  cases ev with
  | receives n => exact ⟨v, h.wires.hostReceives n, h.talk⟩
  | reads env => exact h.hostReads hbox hproto env horderly
  | cm env d => exact h.hostCm hbox hproto env d horderly
  | testDelayTimer => exact h.hostTimer hbox hproto
  | others shared services => exact ⟨v, h.hostOthers shared services⟩
  | sends m htells =>
    unfold State.hostStep
    cases hended : s.host.world.ended with
    | true => exact ⟨v, h⟩
    | false => exact h.hostSends hbox m htells hended (horderly hended)
  | targetReads data =>
    obtain ⟨raw, hwires⟩ := h.wires.targetReads data
    obtain ⟨hhost, hclient⟩ := s.targetReads_keeps data
    refine ⟨_, hwires, ?_⟩
    show Talk P (s.targetReads data).host.world (s.targetReads data).client.forwarding _ _
    rw [hhost, hclient]
    exact h.talk
  | leaves => exact ⟨v, h.hostLeaves horderly⟩
  | closes => exact ⟨v, { h.wires with }, h.talk⟩

/-! ### Steps of the client -/

theorem talk_tail {w : World} {unreadHost rest : List Bytes} {m : Bytes}
    (h : Talk P w false unreadHost (m :: rest)) (htest : P.isTestDelay m = false)
    (hanswer : P.answer m ≠ some .peerInfo) : Talk P w false unreadHost rest := by
  have hcount := h.count
  rw [List.countP_cons, htest] at hcount
  exact ⟨h.tunnel, h.quiet, h.asks, h.phase.tail hanswer, hcount⟩

theorem clientLoopReads (h : Inv box P s v) (hbox : box.Lawful) (hproto : P.Lawful) (retry : Bool)
    (hlogin : s.client.forwarding = false) :
    ∃ v', Inv box P (s.clientLoopReads box P retry) v' := by
  obtain ⟨hwires, htalk⟩ := h
  rw [hlogin] at htalk
  have hempty : v.unreadClient = [] → v.rawClient = [] := by
    intro hnil
    rw [hnil] at htalk
    exact (hwires.loop htalk.forwards_of_nil).1
  unfold State.clientLoopReads
  rcases hwires.clientNext hlogin hempty with ⟨hnone, hnext⟩ | ⟨b, rest, hunread, hsome, hnext⟩
  · rcases hres : s.client.stream.next box with ⟨stream, res⟩
    rw [hres] at hnone hnext
    subst hnone
    refine ⟨v, hnext, ?_⟩
    rw [hlogin]
    exact htalk
  · rcases hres : s.client.stream.next box with ⟨stream, res⟩
    rw [hres] at hsome hnext
    subst hsome
    dsimp only at hnext ⊢
    rw [hunread] at htalk
    cases hanswer : P.answer b with
    | none =>
      have htest : P.isTestDelay b = false := by
        unfold Proto.isTestDelay
        rw [hanswer]
        rfl
      have htail := talk_tail htalk htest (by rw [hanswer]; exact nofun)
      rw [← hlogin] at htail
      exact ⟨_, { hnext with }, htail⟩
    | some answer =>
      have hplain (htest : answer ≠ .testDelay false) (hpeer : answer ≠ .peerInfo) :
          Talk P s.host.world s.client.forwarding v.unreadHost rest := by
        rw [hlogin]
        refine talk_tail htalk ?_ ?_
        · unfold Proto.isTestDelay
          rw [hanswer]
          exact decide_eq_false fun heq => htest (Option.some.inj heq)
        · rw [hanswer]
          exact fun heq => hpeer (Option.some.inj heq)
      cases answer with
      | testDelay fromClient =>
        cases fromClient with
        | true => exact ⟨_, hnext, hplain nofun nofun⟩
        | false =>
          have htest : P.isTestDelay b = true := decide_eq_true hanswer
          have hloop := htalk.loop_of_testDelay List.mem_cons_self htest
          have hreply : P.isReply (P.reply b).1 = true :=
            decide_eq_true (hproto.parse_reply b hanswer)
          refine ⟨_, hnext.clientSend hbox (P.reply b) hloop hlogin, htalk.tunnel, htalk.quiet,
            ?_, ?_, ?_⟩
          · intro m hm
            rcases List.mem_append.mp hm with hold | hnew
            · exact htalk.asks m hold
            · rw [List.mem_singleton.mp hnew]
              exact .inl hreply
          · rw [hlogin]
            exact htalk.phase.tail (by rw [hanswer]; exact nofun)
          · -- the reply is counted in place of what it replies to
            have hcount := htalk.count
            rw [List.countP_cons, htest] at hcount
            show rest.countP P.isTestDelay + (v.unreadHost ++ [(P.reply b).1]).countP P.isReply =
              s.host.world.conn.lastTestDelay.toNat
            rw [List.countP_append, List.countP_singleton, hreply, ← hcount]
            omega
      | peerInfo =>
        obtain ⟨hauth, hnil⟩ := htalk.phase.starts hanswer
        subst hnil
        have hcount := htalk.count
        rw [List.countP_cons] at hcount
        have htest : P.isTestDelay b = false := by
          unfold Proto.isTestDelay
          rw [hanswer]
          rfl
        rw [htest] at hcount
        refine ⟨_, hnext.runForward hlogin rfl, htalk.tunnel, htalk.quiet, htalk.asks, ?_, hcount⟩
        show Phase P s.host.world.conn.authorized true []
        rw [hauth]
        exact .forwards
      | error => exact ⟨_, { hnext with }, hplain nofun nofun⟩
      | other => exact ⟨_, hnext, hplain nofun nofun⟩

theorem clientStep (h : Inv box P s v) (hbox : box.Lawful) (hproto : P.Lawful) (ev : ClientEvent P)
    (horderly : s.ClientOrderly P ev) : ∃ v', Inv box P (s.clientStep box P ev) v' := by
  cases ev with
  | receives n => exact ⟨v, h.wires.clientReceives n, h.talk⟩
  | reads retry =>
    unfold State.clientStep State.clientReads
    dsimp only
    cases hforwarding : s.client.forwarding with
    | true =>
      rw [if_pos rfl]
      obtain ⟨raw, hwires⟩ := h.wires.clientForwards hforwarding
      obtain ⟨hhost, hsame⟩ := s.clientForwards_keeps box
      refine ⟨_, hwires, ?_⟩
      rw [hhost, hsame]
      exact h.talk
    | false =>
      exact h.clientLoopReads hbox hproto retry hforwarding
  | sends m hasks =>
    unfold State.clientStep
    dsimp only
    cases hforwarding : s.client.forwarding with
    | true => exact ⟨v, h⟩
    | false =>
      obtain ⟨hwires, htalk⟩ := h
      have hnone : P.isReply m.1 = false := by
        refine decide_eq_false fun hparse => ?_
        exact absurd (hasks _ hparse) Bool.false_ne_true
      refine ⟨_, hwires.clientSend hbox m (horderly hforwarding) hforwarding, htalk.tunnel,
        htalk.quiet, ?_, htalk.phase, ?_⟩
      · intro m' hm'
        rcases List.mem_append.mp hm' with hold | hnew
        · exact htalk.asks m' hold
        · rw [List.mem_singleton.mp hnew]
          exact .inr hasks
      · rw [List.countP_append, List.countP_singleton, hnone]
        exact htalk.count
  | localReads data =>
    obtain ⟨raw, hwires⟩ := h.wires.localReads data
    obtain ⟨hhost, hsame⟩ := s.localReads_keeps data
    refine ⟨_, hwires, ?_⟩
    show Talk P (s.localReads data).host.world (s.localReads data).client.forwarding _ _
    rw [hhost, hsame]
    exact h.talk
  | closes => exact ⟨v, { h.wires with }, h.talk⟩

theorem next (h : Inv box P s v) (hbox : box.Lawful) (hproto : P.Lawful) (ev : Event P)
    (horderly : s.Orderly box P ev) : ∃ v', Inv box P (s.step box P ev) v' := by
  cases ev with
  | host ev =>
    unfold State.step
    cases hclosed : s.host.closed with
    | true => exact ⟨v, h⟩
    | false => exact h.hostStep hbox hproto ev (horderly hclosed)
  | client ev =>
    unfold State.step
    cases hclosed : s.client.closed with
    | true => exact ⟨v, h⟩
    | false => exact h.clientStep hbox hproto ev (horderly hclosed)

theorem exact (h : Inv box P s v) : s.Exact P := by
  obtain ⟨hwires, htalk⟩ := h
  refine ⟨?_, ?_, ?_, ?_, ?_, ?_⟩
  · rw [hwires.localIn]
    exact List.prefix_append _ _
  · rw [hwires.targetIn]
    exact List.prefix_append _ _
  · rw [hwires.sentByClient]
    exact List.prefix_append _ _
  · rw [hwires.sentByHost]
    exact List.prefix_append _ _
  · rintro hforwards hforwarding ⟨hup, hupBuffer, hdown, hdownBuffer⟩
    have hrawHost := (hwires.toHost.bytes hforwards).2.ahead
    have hrawClient := (hwires.toClient.bytes hforwarding).2.ahead
    rw [hup, hupBuffer] at hrawHost
    rw [hdown, hdownBuffer] at hrawClient
    rw [hwires.localIn, hwires.targetIn, ← hrawHost, ← hrawClient, hwires.buffer hforwarding]
    simp
  · intro hauth hloop
    rw [hwires.unreadByClient, hwires.unreadByHost]
    have hcount := htalk.count
    rw [(htalk.tunnel.awaits_of_authorized hauth hloop).2] at hcount
    have hone : v.unreadClient.countP P.isTestDelay + v.unreadHost.countP P.isReply = 1 := hcount
    by_cases hpos : 0 < v.unreadClient.countP P.isTestDelay
    · exact .inl (List.countP_pos_iff.mp hpos)
    · exact .inr (List.countP_pos_iff.mp (by omega))

end Inv

/-! ### Runs -/

section Runs

variable {Key : Type}

/-- **The session forwards exactly** in every run whose steps are orderly. -/
theorem forwarded_exactly (box : SecretBox Key) (hbox : box.Lawful) (P : Proto) (hproto : P.Lawful)
    (o : Opening) (host client : FramedStream Key) (hdown : host.Agree client)
    (hup : client.Agree host) (es : List (Event P))
    (horderly : (session box P).Meets (State.Orderly box P) (.start o host client) es) :
    ((session box P).run (.start o host client) es).Exact P := by
  obtain ⟨v, hinv⟩ := horderly.inv_run (I := fun s => ∃ v, Inv box P s v)
    ⟨_, Inv.start box P o hdown hup⟩
    fun s ev hc ⟨v, hinv⟩ => hinv.next hbox hproto ev hc
  exact hinv.exact

end Runs

/-! ### Runs of a session with a key -/

/-- A login for the port 80 of the host, without a password. -/
def forwardLogin : LoginRequest where
  username := "1".toList
  union := some (.portForward [] 80)

def forwardLoginBytes : Bytes := [58, 7, 10, 1, 49, 66, 2, 16, 80]

def testDelayBytes : Bytes := [42, 0]

def peerInfoBytes : Bytes := [66, 2, 18, 0]

def Proto.plain : Proto where
  parse m :=
    if m = forwardLoginBytes then some (.loginRequest forwardLogin)
    else if m = testDelayBytes then some (.testDelay false)
    else none
  answer m :=
    if m = testDelayBytes then some (.testDelay false)
    else if m = peerInfoBytes then some .peerInfo
    else none
  peerInfo _ := ⟨peerInfoBytes, by decide⟩
  testDelay _ := ⟨testDelayBytes, by decide⟩
  reply _ := ⟨testDelayBytes, by decide⟩

theorem Proto.plain_lawful : Proto.plain.Lawful where
  answer_peerInfo _ := by
    show plain.answer peerInfoBytes = some .peerInfo
    decide
  answer_testDelay _ := by
    show plain.answer testDelayBytes = some (.testDelay false)
    decide
  parse_reply _ _ := by
    show plain.parse testDelayBytes = some (.testDelay false)
    decide

theorem Proto.plain_asks : Proto.plain.Asks forwardLoginBytes := by
  intro msg h
  cases h
  rfl

def Env.reaches : Env := { Env.plain with connects := fun _ => true }

/-- The client logs in, has the port forwarded to it, and something to forward. -/
def logsIn : List (Event Proto.plain) :=
  [.client (.sends ⟨forwardLoginBytes, by decide⟩ Proto.plain_asks), .client (.localReads [1, 2]),
    .host (.receives 100), .host (.reads Env.reaches), .host .testDelayTimer]

def clientTurn : List (Event Proto.plain) := [.client (.receives 100), .client (.reads true)]

def hostTurn : List (Event Proto.plain) := [.host (.receives 100), .host (.reads Env.reaches)]

def accepts : List (Event Proto.plain) := [.host (.cm Env.reaches .authorize)]

/-- The host has its reply before the login is accepted. -/
def acceptedInTurn : List (Event Proto.plain) :=
  logsIn ++ clientTurn ++ hostTurn ++ accepts ++ clientTurn ++ hostTurn ++
    [.host (.targetReads [3])] ++ clientTurn

def keyed : State Bytes := .start Opening.plain (.setKey [7]) (.setKey [7])

theorem forwarded_exactly_acceptedInTurn :
    ((session Link.tagBox Proto.plain).run keyed acceptedInTurn).targetOut = [1, 2] ∧
      ((session Link.tagBox Proto.plain).run keyed acceptedInTurn).localOut = [3] ∧
      ((session Link.tagBox Proto.plain).run keyed acceptedInTurn).Exact Proto.plain :=
  ⟨by decide +kernel, by decide +kernel,
    forwarded_exactly Link.tagBox Link.tagBox_lawful Proto.plain Proto.plain_lawful Opening.plain
      (.setKey [7]) (.setKey [7]) rfl rfl acceptedInTurn (by decide +kernel)⟩

/-- The login is accepted while the reply is awaited. -/
def acceptedTooSoon : List (Event Proto.plain) := logsIn ++ accepts ++ clientTurn ++ hostTurn

/-- **The reply is forwarded to the target.** -/
theorem reply_forwarded :
    ¬∀ (Key : Type) (box : SecretBox Key) (_ : box.Lawful) (P : Proto) (_ : P.Lawful) (o : Opening)
      (host client : FramedStream Key) (_ : host.Agree client) (_ : client.Agree host)
      (es : List (Event P)), ((session box P).run (.start o host client) es).Exact P := by
  intro h
  have hexact := h Bytes Link.tagBox Link.tagBox_lawful Proto.plain Proto.plain_lawful
    Opening.plain (.setKey [7]) (.setKey [7]) rfl rfl acceptedTooSoon
  have htarget : ¬((session Link.tagBox Proto.plain).run keyed acceptedTooSoon).targetOut <+:
      ((session Link.tagBox Proto.plain).run keyed acceptedTooSoon).localIn := by decide +kernel
  exact htarget hexact.target

end LibRustdesk.Desktop.PortForward
