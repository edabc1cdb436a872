import LibRustdesk.Net.Handshake

/-!
# The two ends of the key exchange agree

The invariant follows one frame in each direction: the `SignedId` of a host that signs is the only
frame on its way to a client that has not answered (`Inv.toClient`), and the first frame of the
client is in front of the host until the host has read it (`Inv.toHost`). A side that has not sent
its first frame leaves the other queue empty, so nothing of the session can be in front of it.

* `handshake_agrees` — **both ends install the same key or none, and what the key exchange reads is
  never an application message**; it cannot get stuck.
* The host signs only when its key pair has the lengths of a signing pair. With another one it
  starts the session, and the client takes the first message of it for the `SignedId`
  (`unsigned_host_loses_hash`).
-/

namespace LibRustdesk.Handshake

open LittleEndian

/-! ### The invariant -/

structure Fresh (s : Side) : Prop where
  stream : s.stream = ⟨none⟩
  consumed : s.consumed = []

def ClientOk (S : Setup) (w : World) : Prop :=
  match (w.side .client).phase with
  | .start => Fresh (w.side .client) ∧ w.queue .host = []
  | .reading => Fresh (w.side .client) ∧ w.queue .host = [] ∧ S.signPk ≠ none
  | .done => w.installed .client = S.agreedKey ∧
      ∀ bytes ∈ (w.side .client).consumed, bytes = S.encode S.signedId
  | .failed _ => False

def HostOk (S : Setup) (w : World) : Prop :=
  match (w.side .host).phase with
  | .start => Fresh (w.side .host) ∧ w.queue .client = []
  | .reading => Fresh (w.side .host) ∧ S.Signs
  | .done => w.installed .host = (if S.Signs then S.agreedKey else none) ∧
      ∀ bytes ∈ (w.side .host).consumed, bytes = S.firstFrame
  | .failed _ => False

/-- The two sides, and the first frame of each until the other has read it. -/
structure Inv (S : Setup) (w : World) : Prop where
  client : ClientOk S w
  host : HostOk S w
  /-- The answer is on its way. -/
  toHost : (w.side .client).phase = .done → (w.side .host).phase ≠ .done →
    ∃ rest, w.queue .host = S.firstFrame :: rest
  /-- The `SignedId` is. -/
  toClient : (w.side .client).phase ≠ .done → (w.side .host).phase = .reading →
    w.queue .client = [S.encode S.signedId]
  /-- A host that signs waits for the client. -/
  waits : (w.side .client).phase ≠ .done → (w.side .host).phase = .done → ¬ S.Signs

section Step

variable {S : Setup} {w : World}

theorem World.receive_eq_none {e : Endpoint} (h : w.queue e = []) : w.receive S e = none := by
  unfold World.receive
  rw [h]

theorem World.receive_plain {e : Endpoint} {frame : Bytes} {rest : List Bytes}
    (hqueue : w.queue e = frame :: rest) (hstream : (w.side e).stream = ⟨none⟩) :
    ∃ w', w.receive S e = some (w', .ok frame) ∧ (∀ e', w'.side e' = w.side e') ∧
      w'.queue e = rest ∧ (∀ e', e' ≠ e → w'.queue e' = w.queue e') := by
  refine ⟨(w.setSide e { w.side e with stream := ⟨none⟩ }).setQueue e rest,
    ?_, fun e' => ?_, ?_, ?_⟩
  · unfold World.receive
    rw [hqueue]
    rw [hstream]
    rfl
  · by_cases he : e' = e
    · subst he
      simp [← hstream]
    · simp [he]
  · simp
  · intro e' he
    simp [he]

theorem sendFrom_plain {e : Endpoint} {s : Side} (m : Message) (hstream : s.stream = ⟨none⟩) :
    w.sendFrom S e s m = (w.setSide e s).setQueue e.other (w.queue e.other ++ [S.encode m]) := by
  unfold World.sendFrom
  rw [hstream]
  have hs : ({ s with stream := ⟨none⟩ } : Side) = s := by rw [← hstream]
  show (w.setSide e { s with stream := ⟨none⟩ }).setQueue _ _ = _
  rw [hs]

section Install

variable (w) (e : Endpoint) (key : Option Bytes)

@[simp] theorem World.queue_install : (w.install e key).queue = w.queue := by
  cases key <;> rfl

@[simp] theorem World.side_install_of_ne {e' : Endpoint} (h : e' ≠ e) :
    (w.install e key).side e' = w.side e' := by
  cases key with
  | none => rfl
  | some key => exact w.side_setSide_of_ne _ h

@[simp] theorem World.phase_install : ((w.install e key).side e).phase = (w.side e).phase := by
  cases key with
  | none => rfl
  | some key =>
    unfold World.install
    rw [World.side_setSide_self]

@[simp] theorem World.consumed_install :
    ((w.install e key).side e).consumed = (w.side e).consumed := by
  cases key with
  | none => rfl
  | some key =>
    unfold World.install
    rw [World.side_setSide_self]

theorem World.installed_install (h : (w.side e).stream = ⟨none⟩) :
    (w.install e key).installed e = key := by
  unfold World.installed
  cases key with
  | none =>
    unfold World.install
    rw [h]
    rfl
  | some key =>
    unfold World.install
    rw [World.side_setSide_self]
    rfl

end Install

theorem Inv.stepClient (h : Inv S w) (hsigns : S.signPk ≠ none → S.Signs) :
    Inv S (w.stepClient S) := by
  have hclient := h.client
  unfold ClientOk at hclient
  unfold World.stepClient
  dsimp only
  cases hphase : (w.side .client).phase with
  | start =>
    rw [hphase] at hclient
    obtain ⟨hfresh, hempty⟩ := hclient
    cases hpk : S.signPk with
    | some pk =>
      refine ⟨?_, ?_, ?_, ?_, ?_⟩
      · exact ⟨⟨hfresh.stream, hfresh.consumed⟩, hempty, by simp [hpk]⟩
      · have := h.host
        unfold HostOk World.installed at this ⊢
        simpa using this
      · simp
      · have := h.toClient
        simpa [hphase] using this
      · have := h.waits
        simpa [hphase] using this
    | none =>
      rw [sendFrom_plain _ (by exact hfresh.stream)]
      refine ⟨?_, ?_, ?_, ?_, ?_⟩
      · unfold ClientOk World.installed
        simp [hfresh.stream, hfresh.consumed, Setup.agreedKey, hpk]
      · have := h.host
        unfold HostOk World.installed at this ⊢
        simpa [Endpoint.other] using this
      · intro _ _
        refine ⟨[], ?_⟩
        simp [Endpoint.other, hempty, Setup.firstFrame, hpk]
      · simp
      · simp
  | reading =>
    rw [hphase] at hclient
    obtain ⟨hfresh, hempty, hpk⟩ := hclient
    obtain ⟨pk, hpk⟩ := Option.ne_none_iff_exists'.mp hpk
    rw [hpk]
    cases hhost : (w.side .host).phase with
    | start =>
      have hhost' := h.host
      unfold HostOk at hhost'
      rw [hhost] at hhost'
      rw [World.receive_eq_none hhost'.2]
      exact h
    | reading =>
      obtain ⟨w', hrec, hside, hrest, hqueue⟩ :=
        World.receive_plain (S := S) (h.toClient (by simp [hphase]) hhost) hfresh.stream
      rw [hrec]
      dsimp only
      rw [sendFrom_plain _ (by rw [hside]; exact hfresh.stream), hside, hfresh.consumed]
      have hagreed : S.agreedKey = (S.clientReply pk (S.encode S.signedId)).2 := by
        simp [Setup.agreedKey, hpk]
      refine ⟨?_, ?_, ?_, ?_, ?_⟩
      · unfold ClientOk
        rw [World.installed_install _ _ _ (by simp [hfresh.stream]), hagreed]
        simp
      · have := h.host
        unfold HostOk World.installed at this ⊢
        simpa [Endpoint.other, hhost, hside] using this
      · intro _ _
        refine ⟨[], ?_⟩
        simp [Endpoint.other, hqueue, hempty, Setup.firstFrame, hpk]
      · simp
      · simp
    | done => exact absurd (hsigns (by simp [hpk])) (h.waits (by simp [hphase]) hhost)
    | failed e =>
      have hhost' := h.host
      unfold HostOk at hhost'
      rw [hhost] at hhost'
      exact hhost'.elim
  | done | failed => exact h

theorem Inv.stepHost (h : Inv S w) (hlaw : S.Lawful) : Inv S (w.stepHost S) := by
  have hhost := h.host
  unfold HostOk at hhost
  unfold World.stepHost
  dsimp only
  cases hphase : (w.side .host).phase with
  | start =>
    rw [hphase] at hhost
    obtain ⟨hfresh, hempty⟩ := hhost
    dsimp only
    split
    · next hsigns =>
      rw [sendFrom_plain _ (by exact hfresh.stream)]
      refine ⟨?_, ?_, ?_, ?_, ?_⟩
      · have := h.client
        unfold ClientOk World.installed at this ⊢
        simpa [Endpoint.other] using this
      · exact ⟨⟨hfresh.stream, hfresh.consumed⟩, hsigns⟩
      · intro hdone _
        simpa [Endpoint.other] using h.toHost (by simpa using hdone) (by simp [hphase])
      · intro _ _
        simp [Endpoint.other, hempty]
      · simp
    · next hsigns =>
      refine ⟨?_, ?_, ?_, ?_, ?_⟩
      · have := h.client
        unfold ClientOk World.installed at this ⊢
        simpa using this
      · unfold HostOk World.installed
        simp [hsigns, hfresh.stream, hfresh.consumed]
      · simp
      · simp
      · simp [hsigns]
  | reading =>
    rw [hphase] at hhost
    obtain ⟨hfresh, hsigns⟩ := hhost
    by_cases hdone : (w.side .client).phase = .done
    · obtain ⟨rest, hfirst⟩ := h.toHost hdone (by simp [hphase])
      obtain ⟨w', hrec, hside, hrest, hqueue⟩ :=
        World.receive_plain (S := S) hfirst hfresh.stream
      obtain ⟨unconfirm, hreact⟩ := Setup.hostReaction_firstFrame hlaw
      rw [hrec]
      dsimp only
      rw [hreact]
      rw [hside, hfresh.consumed]
      refine ⟨?_, ?_, ?_, ?_, ?_⟩
      · have := h.client
        unfold ClientOk World.installed at this ⊢
        simpa [hdone, hside] using this
      · unfold HostOk
        rw [World.installed_install _ _ _ (by simp [hfresh.stream])]
        simp [hsigns]
      · simp
      · simp [hside, hdone]
      · simp [hside, hdone]
    · -- Nothing to read yet.
      have hempty : w.queue .host = [] := by
        have hclient := h.client
        unfold ClientOk at hclient
        cases hc : (w.side .client).phase with
        | start =>
          rw [hc] at hclient
          exact hclient.2
        | reading =>
          rw [hc] at hclient
          exact hclient.2.1
        | done => exact absurd hc hdone
        | failed e =>
          rw [hc] at hclient
          exact hclient.elim
      rw [World.receive_eq_none hempty]
      exact h
  | done | failed => exact h

theorem Inv.sendFrom (h : Inv S w) {e : Endpoint} (hphase : (w.side e).phase = .done)
    (m : Message) : Inv S (w.sendFrom S e (w.side e) m) := by
  obtain ⟨stream, frame, hsend⟩ : ∃ stream frame,
      (w.side e).stream.sendRaw S.secretBox (S.encode m) = (stream, frame) := ⟨_, _, rfl⟩
  have hkey : stream.encrypt.map Encrypt.key = w.installed e := by
    unfold World.installed
    unfold FramedStream.sendRaw at hsend
    cases henc : (w.side e).stream.encrypt with
    | none =>
      rw [henc] at hsend
      obtain ⟨rfl, -⟩ := Prod.mk.inj hsend
      rw [henc]
    | some key =>
      rw [henc] at hsend
      obtain ⟨rfl, -⟩ := Prod.mk.inj hsend
      rfl
  unfold World.sendFrom
  rw [hsend]
  cases e with
  | client =>
    refine ⟨?_, ?_, ?_, ?_, ?_⟩
    · have := h.client
      unfold ClientOk World.installed at this ⊢
      unfold World.installed at hkey
      rw [hphase] at this
      simpa [hphase, hkey] using this
    · have := h.host
      unfold HostOk World.installed at this ⊢
      simpa [Endpoint.other] using this
    · intro _ hhost
      obtain ⟨rest, hrest⟩ := h.toHost hphase (by simpa using hhost)
      exact ⟨rest ++ [frame], by simp [Endpoint.other, hrest]⟩
    · simp [hphase]
    · simp [hphase]
  | host =>
    refine ⟨?_, ?_, ?_, ?_, ?_⟩
    · have := h.client
      unfold ClientOk World.installed at this ⊢
      simpa [Endpoint.other] using this
    · have := h.host
      unfold HostOk World.installed at this ⊢
      unfold World.installed at hkey
      rw [hphase] at this
      simpa [hphase, hkey] using this
    · simp [hphase]
    · simp [hphase]
    · have := h.waits
      simpa [hphase] using this

theorem Inv.receive (h : Inv S w) {e : Endpoint} (hphase : (w.side e).phase = .done) {w' : World}
    {res : Except String Bytes} (hrec : w.receive S e = some (w', res)) : Inv S w' := by
  obtain ⟨frame, rest, hqueue⟩ : ∃ frame rest, w.queue e = frame :: rest := by
    cases hqueue : w.queue e with
    | nil =>
      rw [World.receive_eq_none hqueue] at hrec
      cases hrec
    | cons frame rest => exact ⟨frame, rest, rfl⟩
  obtain ⟨stream, res', hnext⟩ : ∃ stream res',
      (w.side e).stream.next S.secretBox frame = (stream, res') := ⟨_, _, rfl⟩
  have hkey : stream.encrypt.map Encrypt.key =
      (w.side e).stream.encrypt.map Encrypt.key := by
    unfold FramedStream.next at hnext
    cases henc : (w.side e).stream.encrypt with
    | none =>
      rw [henc] at hnext
      obtain ⟨rfl, -⟩ := Prod.mk.inj hnext
      rw [henc]
    | some key =>
      rw [henc] at hnext
      obtain ⟨rfl, -⟩ := Prod.mk.inj hnext
      show some (key.dec S.secretBox frame).1.key = some key.key
      rw [Encrypt.key_dec]
  unfold World.receive at hrec
  rw [hqueue] at hrec
  dsimp only at hrec
  rw [hnext] at hrec
  obtain ⟨rfl, -⟩ := Prod.mk.inj (Option.some.inj hrec)
  cases e with
  | client =>
    refine ⟨?_, ?_, ?_, ?_, ?_⟩
    · have := h.client
      unfold ClientOk World.installed at this ⊢
      rw [hphase] at this
      simpa [hphase, hkey] using this
    · -- A host that has not started has sent nothing.
      have := h.host
      unfold HostOk World.installed at this ⊢
      cases hhost : (w.side .host).phase with
      | start =>
        rw [hhost, hqueue] at this
        cases this.2
      | reading =>
        rw [hhost] at this
        simpa [hhost] using this
      | done =>
        rw [hhost] at this
        simpa [hhost] using this
      | failed err =>
        rw [hhost] at this
        exact this.elim
    · intro _ hhost
      simpa using h.toHost hphase (by simpa using hhost)
    · simp [hphase]
    · simp [hphase]
  | host =>
    refine ⟨?_, ?_, ?_, ?_, ?_⟩
    · have := h.client
      unfold ClientOk World.installed at this ⊢
      cases hclient : (w.side .client).phase with
      | start =>
        rw [hclient, hqueue] at this
        cases this.2
      | reading =>
        rw [hclient, hqueue] at this
        cases this.2.1
      | done =>
        rw [hclient] at this
        simpa [hclient] using this
      | failed err =>
        rw [hclient] at this
        exact this.elim
    · have := h.host
      unfold HostOk World.installed at this ⊢
      rw [hphase] at this
      simpa [hphase, hkey] using this
    · simp [hphase]
    · simp [hphase]
    · have := h.waits
      simpa [hphase] using this

theorem Inv.next (h : Inv S w) (hlaw : S.Lawful) (hsigns : S.signPk ≠ none → S.Signs)
    (ev : Event) : Inv S ((handshake S).next w ev) := by
  cases ev with
  | step side =>
    cases side with
    | client => exact h.stepClient hsigns
    | host => exact h.stepHost hlaw
  | send e data =>
    show Inv S (if (w.side e).phase = .done then _ else _ : World × _).1
    split
    · next hphase => exact h.sendFrom hphase _
    · exact h
  | receive e =>
    show Inv S (if (w.side e).phase = .done then _ else _ : World × _).1
    split
    · next hphase =>
      rcases hrec : w.receive S e with _ | ⟨w', res⟩
      · exact h
      · exact h.receive hphase hrec
    · exact h

theorem Inv.init (S : Setup) : Inv S .init :=
  ⟨⟨⟨rfl, rfl⟩, rfl⟩, ⟨⟨rfl, rfl⟩, rfl⟩, fun h => (by cases h), fun _ h => (by cases h),
    fun _ h => (by cases h)⟩

theorem phase_stepHost_start (hphase : (w.side .host).phase = .start)
    (hstream : (w.side .host).stream = ⟨none⟩) : ((w.stepHost S).side .host).phase ≠ .start := by
  unfold World.stepHost
  dsimp only
  rw [hphase]
  dsimp only
  split
  · rw [sendFrom_plain _ (by exact hstream)]
    simp
  · simp

theorem Inv.progress (h : Inv S w) (hlaw : S.Lawful) (hsigns : S.signPk ≠ none → S.Signs)
    (hnot : ¬ ((w.side .client).phase = .done ∧ (w.side .host).phase = .done)) :
    ∃ e, (((handshake S).next w (.step e)).side e).phase ≠ (w.side e).phase := by
  have hclient := h.client
  have hhost := h.host
  unfold ClientOk at hclient
  unfold HostOk at hhost
  cases hh : (w.side .host).phase with
  | start =>
    rw [hh] at hhost
    refine ⟨.host, ?_⟩
    rw [hh]
    exact phase_stepHost_start hh hhost.1.stream
  | failed err =>
    rw [hh] at hhost
    exact hhost.elim
  | reading =>
    rw [hh] at hhost
    by_cases hdone : (w.side .client).phase = .done
    · -- The answer is there for the host.
      obtain ⟨rest, hfirst⟩ := h.toHost hdone (by simp [hh])
      obtain ⟨w', hrec, -⟩ := World.receive_plain (S := S) hfirst hhost.1.stream
      obtain ⟨unconfirm, hreact⟩ := Setup.hostReaction_firstFrame hlaw
      refine ⟨.host, ?_⟩
      show ((w.stepHost S).side .host).phase ≠ _
      unfold World.stepHost
      dsimp only
      rw [hh, hrec]
      dsimp only
      rw [hreact]
      simp
    · -- The client has not started, or the `SignedId` is there for it.
      refine ⟨.client, ?_⟩
      show ((w.stepClient S).side .client).phase ≠ _
      unfold World.stepClient
      dsimp only
      cases hc : (w.side .client).phase with
      | start =>
        rw [hc] at hclient
        cases S.signPk with
        | some pk => simp
        | none =>
          rw [sendFrom_plain _ (by exact hclient.1.stream)]
          simp
      | reading =>
        rw [hc] at hclient
        obtain ⟨pk, hpk⟩ := Option.ne_none_iff_exists'.mp hclient.2.2
        obtain ⟨w', hrec, hside, -⟩ :=
          World.receive_plain (S := S) (h.toClient hdone hh) hclient.1.stream
        rw [hpk, hrec]
        dsimp only
        rw [sendFrom_plain _ (by rw [hside]; exact hclient.1.stream)]
        simp
      | done => exact absurd hc hdone
      | failed err =>
        rw [hc] at hclient
        exact hclient.elim
  | done =>
    refine ⟨.client, ?_⟩
    show ((w.stepClient S).side .client).phase ≠ _
    unfold World.stepClient
    dsimp only
    cases hc : (w.side .client).phase with
    | start =>
      rw [hc] at hclient
      cases S.signPk with
      | some pk => simp
      | none =>
        rw [sendFrom_plain _ (by exact hclient.1.stream)]
        simp
    | reading =>
      rw [hc] at hclient
      exact absurd (hsigns hclient.2.2) (h.waits (by simp [hc]) hh)
    | done => exact absurd ⟨hc, hh⟩ hnot
    | failed err =>
      rw [hc] at hclient
      exact hclient.elim

end Step

/-! ### What the invariant says -/

section Inv

variable {S : Setup} {w : World}

theorem Inv.not_failed (h : Inv S w) (e : Endpoint) (error : String) :
    (w.side e).phase ≠ .failed error := by
  intro hfailed
  cases e with
  | client =>
    have hclient := h.client
    unfold ClientOk at hclient
    rw [hfailed] at hclient
    exact hclient
  | host =>
    have hhost := h.host
    unfold HostOk at hhost
    rw [hfailed] at hhost
    exact hhost

theorem Inv.agree (h : Inv S w) (hsigns : S.signPk ≠ none → S.Signs)
    (hclient : (w.side .client).phase = .done) (hhost : (w.side .host).phase = .done) :
    w.installed .client = w.installed .host := by
  have hc := h.client
  have hh := h.host
  unfold ClientOk at hc
  unfold HostOk at hh
  rw [hclient] at hc
  rw [hhost] at hh
  rw [hc.1, hh.1]
  by_cases hs : S.Signs
  · rw [if_pos hs]
  · -- A host that does not sign has a client without a key to check it with.
    have hpk : S.signPk = none := by
      by_contra hpk
      exact hs (hsigns hpk)
    rw [if_neg hs]
    unfold Setup.agreedKey
    rw [hpk]

theorem Setup.firstFrame_ne_other (hlaw : S.Lawful) (data : Bytes) :
    S.parse S.firstFrame ≠ some (.other data) := by
  unfold Setup.firstFrame
  rw [hlaw.parse_encode]
  cases S.signPk with
  | none => simp
  | some signPk =>
    unfold Setup.clientReply Setup.createSymmetricKeyMsg
    repeat' split
    all_goals simp

theorem Inv.consumed (h : Inv S w) (hlaw : S.Lawful) (e : Endpoint) :
    ∀ bytes ∈ (w.side e).consumed, ∀ data, S.parse bytes ≠ some (.other data) := by
  have hfresh (hs : (w.side e).consumed = []) :
      ∀ bytes ∈ (w.side e).consumed, ∀ data, S.parse bytes ≠ some (.other data) := by
    rw [hs]
    simp
  cases e with
  | client =>
    have hc := h.client
    unfold ClientOk at hc
    cases hphase : (w.side .client).phase with
    | start =>
      rw [hphase] at hc
      exact hfresh hc.1.consumed
    | reading =>
      rw [hphase] at hc
      exact hfresh hc.1.consumed
    | done =>
      rw [hphase] at hc
      intro bytes hbytes data
      rw [hc.2 bytes hbytes, hlaw.parse_encode]
      simp [Setup.signedId]
    | failed error => exact absurd hphase (h.not_failed _ _)
  | host =>
    have hh := h.host
    unfold HostOk at hh
    cases hphase : (w.side .host).phase with
    | start =>
      rw [hphase] at hh
      exact hfresh hh.1.consumed
    | reading =>
      rw [hphase] at hh
      exact hfresh hh.1.consumed
    | done =>
      rw [hphase] at hh
      intro bytes hbytes data
      rw [hh.2 bytes hbytes]
      exact Setup.firstFrame_ne_other hlaw data
    | failed error => exact absurd hphase (h.not_failed _ _)

end Inv

/-! ### The agreement -/

/-- **Both ends agree.** Whatever the client has been given for the id and key of its peer, the two
sides install the same key or none, neither fails or reads a message of the session as part of the
key exchange, and a side can go on until both sessions have begun. -/
theorem handshake_agrees (S : Setup) (hlaw : S.Lawful)
    (hsecure : S.signedIdPk ≠ [] → S.secure = true)
    (hpair : S.keyPair.2.length = keyBytes ∧ S.keyPair.1.length = signSecretKeyBytes)
    (evs : List Event) :
    (∀ e error, (((handshake S).run .init evs).side e).phase ≠ .failed error) ∧
      ((∀ e, (((handshake S).run .init evs).side e).phase = .done) →
        ((handshake S).run .init evs).installed .client =
          ((handshake S).run .init evs).installed .host) ∧
      (∀ e, ∀ bytes ∈ (((handshake S).run .init evs).side e).consumed,
        ∀ data, S.parse bytes ≠ some (.other data)) ∧
      ((∃ e, (((handshake S).run .init evs).side e).phase ≠ .done) →
        ∃ e, (((handshake S).run .init (evs ++ [.step e])).side e).phase ≠
          (((handshake S).run .init evs).side e).phase) := by
  have hsigns : S.signPk ≠ none → S.Signs := by
    intro hpk
    refine ⟨hsecure fun hempty => hpk ?_, hpair⟩
    unfold Setup.signPk
    rw [if_neg (not_not_intro hempty)]
  have hinv : Inv S ((handshake S).run .init evs) :=
    (handshake S).inv_run (I := Inv S) (Inv.init S) (fun _ ev h => h.next hlaw hsigns ev) evs
  refine ⟨hinv.not_failed, fun hdone => hinv.agree hsigns (hdone .client) (hdone .host),
    hinv.consumed hlaw, fun ⟨e, hnot⟩ => ?_⟩
  obtain ⟨e', hprogress⟩ := hinv.progress hlaw hsigns fun hboth => hnot (by
    cases e with
    | client => exact hboth.1
    | host => exact hboth.2)
  refine ⟨e', ?_⟩
  rw [Machine.run_append]
  exact hprogress

/-! ### Two ends that meet -/

/-- Two byte strings in one, the length of the first in front. -/
def pack (a b : Bytes) : Bytes := List.replicate a.length 1 ++ 0 :: (a ++ b)

def unpackFrom : ℕ → Bytes → Option (Bytes × Bytes)
  | _, [] => none
  | n, c :: bytes => if c = 1 then unpackFrom (n + 1) bytes else some (bytes.take n, bytes.drop n)

def unpack : Bytes → Option (Bytes × Bytes) := unpackFrom 0

theorem unpackFrom_replicate (n k : ℕ) (bytes : Bytes) :
    unpackFrom n (List.replicate k 1 ++ 0 :: bytes) =
      some (bytes.take (n + k), bytes.drop (n + k)) := by
  induction k generalizing n with
  | zero =>
    rfl
  | succ k ih =>
    rw [List.replicate_succ, List.cons_append]
    unfold unpackFrom
    rw [if_pos rfl, ih, Nat.add_right_comm, Nat.add_assoc]

@[simp] theorem unpack_pack (a b : Bytes) : unpack (pack a b) = some (a, b) := by
  unfold unpack pack
  rw [unpackFrom_replicate, Nat.zero_add, List.take_left, List.drop_left]

def encodeChars (cs : List Char) : Bytes := cs.flatMap fun c => leBytes 4 c.toNat

def parseChars : Bytes → List Char
  | a :: b :: c :: d :: bytes => Char.ofNat (assemble [a, b, c, d]) :: parseChars bytes
  | _ => []

theorem parseChars_encodeChars (cs : List Char) : parseChars (encodeChars cs) = cs := by
  induction cs with
  | nil => rfl
  | cons c cs ih =>
    have hc : assemble (leBytes 4 c.toNat) = c.toNat := by
      rw [assemble_leBytes]
      refine Nat.mod_eq_of_lt ?_
      have := c.val.toNat_lt
      show c.val.toNat < _
      omega
    show Char.ofNat (assemble (leBytes 4 c.toNat)) :: parseChars (encodeChars cs) = c :: cs
    rw [hc, ih, Char.ofNat_toNat]

def meeting (id : String) (signSecretKey : Bytes) : Setup where
  sign m sk := pack sk m
  verify signed pk := (unpack signed).bind fun (sk, m) => if sk.drop 32 = pk then some m else none
  boxSeal m _ pk sk := pack (pk ++ sk) m
  boxOpen c _ pk sk := (unpack c).bind fun (k, m) => if k = sk ++ pk then some m else none
  secretBox := Link.tagBox
  decode64 s :=
    if s = "AwMDAwMDAwMDAwMDAwMDAwMDAwMDAwMDAwMDAwMDAwM=" then some (List.replicate 32 3) else none
  encode
    | .none => []
    | .signedId id => 1 :: id
    | .publicKey a s => 2 :: pack a s
    | .other data => 3 :: data
  parse
    | [] => some .none
    | c :: bytes =>
      if c = 1 then some (.signedId bytes)
      else if c = 2 then (unpack bytes).map fun (a, s) => .publicKey a s
      else if c = 3 then some (.other bytes)
      else none
  encodeIdPk m := pack (encodeChars m.id.toList) m.pk
  parseIdPk bytes := (unpack bytes).map fun (id, pk) => ⟨String.ofList (parseChars id), pk⟩
  rsPubKey := "AwMDAwMDAwMDAwMDAwMDAwMDAwMDAwMDAwMDAwMDAwM="
  peerId := "a"
  signedIdPk := pack (List.replicate 64 3) (pack (encodeChars ['a']) (List.replicate 32 4))
  key := ""
  clientBox := ⟨List.replicate 32 5, List.replicate 32 5⟩
  symmetricKey := List.replicate 32 6
  secure := true
  keyPair := (signSecretKey, List.replicate 32 4)
  id := id
  hostBox := ⟨List.replicate 32 7, List.replicate 32 7⟩

theorem meeting_lawful (id : String) (sk : Bytes) : (meeting id sk).Lawful where
  parse_encode m := by
    cases m with
    | none | signedId | other => rfl
    | publicKey a s =>
      show (unpack (pack a s)).map _ = _
      rw [unpack_pack]
      rfl
  parse_encodeIdPk m := by
    show (unpack (pack (encodeChars m.id.toList) m.pk)).map _ = _
    rw [unpack_pack, Option.map_some]
    dsimp only
    rw [parseChars_encodeChars, String.ofList_toList]
  verify_sign m sk pk m' h := by
    change ((unpack (pack sk m)).bind fun (sk, m) => if sk.drop 32 = pk then some m else none) =
      some m' at h
    rw [unpack_pack, Option.bind_some] at h
    dsimp only at h
    split at h
    · exact (Option.some.inj h).symm
    · cases h
  open_seal m n := by
    unfold meeting
    dsimp only
    rw [unpack_pack, Option.bind_some]
    exact if_pos rfl
  clientBox_pk := rfl
  hostBox_pk := rfl
  symmetricKey := rfl

/-- The client asks for the host with this id, and the two send each other a message. -/
def meetingEvents : List Event :=
  [.step .client, .step .host, .step .client, .step .host, .send .host [8], .receive .client]

theorem handshake_agrees_meeting :
    ((handshake (meeting "a" (List.replicate 64 4))).run .init meetingEvents).installed .client =
        some (List.replicate 32 6) ∧
      ((handshake (meeting "a" (List.replicate 64 4))).run .init meetingEvents).installed .host =
        some (List.replicate 32 6) := by
  have hagree := (handshake_agrees (meeting "a" (List.replicate 64 4)) (meeting_lawful _ _)
    (fun _ => rfl) (by decide) meetingEvents).2.1 fun e => by
      cases e <;> decide +kernel
  have hclient : ((handshake (meeting "a" (List.replicate 64 4))).run .init
      meetingEvents).installed .client = some (List.replicate 32 6) := by decide +kernel
  exact ⟨hclient, hagree.symm.trans hclient⟩

/-- **A host that does not sign.** Its signing key has the wrong length, so it starts the session,
and the client takes the first message of the session for the `SignedId`. -/
theorem unsigned_host_loses_hash :
    ¬ ∀ (S : Setup) (_ : S.Lawful) (_ : S.signedIdPk ≠ [] → S.secure = true) (evs : List Event),
      (∀ e, (((handshake S).run .init evs).side e).phase = .done) →
        ((handshake S).run .init evs).installed .client =
            ((handshake S).run .init evs).installed .host ∧
          (((handshake S).run .init evs).installed .client = none →
            ∀ e, ∀ bytes ∈ (((handshake S).run .init evs).side e).consumed,
              ∀ data, S.parse bytes ≠ some (.other data)) := by
  intro h
  have hrun := (h (meeting "a" []) (meeting_lawful _ _) (fun _ => rfl)
    [.step .client, .step .host, .send .host [8], .step .client] fun e => by
      cases e <;> decide +kernel).2 (by decide +kernel)
  exact hrun .client [3, 8] (by decide +kernel) [8] (by decide +kernel)

end LibRustdesk.Handshake
