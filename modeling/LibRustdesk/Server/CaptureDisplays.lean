import LibRustdesk.Server.Desk

/-!
# Which displays are captured

`capture_displays` of `src/server/connection.rs` with `subscribe`, `get_subbed_displays_count` and
`capture_displays` of `src/server.rs`, among all connections of a server.

A peer asks for displays with a `CaptureDisplays`: for some more (`add`), for less (`sub`) or for
exactly these (`set`). One loop over the video services does all three, by two flags: what is asked
for is included, everything else is excluded. To take displays away it would have to exclude what is
asked for, and what it does is to exclude everything else.

* `subed_captureDisplays` — what the loop does, service by service and for every connection.
* `captures_add`, `captures_set` — the displays after a request.
* `requests_keep` — **what a run of requests does**, but for those that take displays away.
* `ofConn_request` — one connection sees the server of `LibRustdesk.Server.OnMessage`.
-/

namespace LibRustdesk.Desktop.CaptureDisplays

/-- `Server`: its services, and who is subscribed to them. -/
structure SharedServer where
  services : List ServiceName
  subed : ServiceName → Int32 → Bool
  /-- There are subscribers to the services only. -/
  registered : ∀ {name id}, subed name id = true → name ∈ services

namespace SharedServer

variable (s : SharedServer)

/-- `add_service`, where the service is not there. -/
def addService (name : ServiceName) : SharedServer :=
  if name ∈ s.services then s
  else
    { s with
      services   := s.services ++ [name]
      registered := fun h => List.mem_append_left _ (s.registered h) }

/-- `on_subscribe` and `on_unsubscribe` of a service that is there. -/
def update (name : ServiceName) (id : Int32) (sub : Bool) (h : name ∈ s.services) :
    SharedServer where
  services   := s.services
  subed      := fun n i => if n = name ∧ i = id then sub else s.subed n i
  registered := by
    intro n i hsub
    split at hsub
    · next heq => rw [heq.1]; exact h
    · exact s.registered hsub

def subscribe (name : ServiceName) (id : Int32) (sub : Bool) : SharedServer :=
  if h : name ∈ s.services then
    if s.subed name id = sub then s else s.update name id sub h
  else s

def getSubbedDisplaysCount (id : Int32) : ℕ :=
  s.services.countP fun name => name.isVideo && s.subed name id

/-- The body of the loop of `capture_displays`. -/
def captureDisplay (id : Int32) (displays : List ServiceName) (incl excl : Bool)
    (s : SharedServer) (name : ServiceName) : SharedServer :=
  if name.isVideo then
    if name ∈ displays then
      if incl then s.subscribe name id true else s
    else if excl then s.subscribe name id false else s
  else s

def captureDisplays (id : Int32) (source : VideoSource) (displays : List ℕ) (incl excl : Bool) :
    SharedServer :=
  s.services.foldl (captureDisplay id (displays.map (.video source)) incl excl) s

/-- The services of the displays that are to be captured. -/
def addServices (source : VideoSource) (displays : List ℕ) : SharedServer :=
  displays.foldl (fun s d => s.addService (.video source d)) s

/-- The first half of `Connection::capture_displays`: the displays. -/
def capture (id : Int32) (source : VideoSource) (add sub set : List ℕ) : SharedServer :=
  let s := s.addServices source (add ++ set)
  if add ≠ [] then s.captureDisplays id source add true false
  else if sub ≠ [] then s.captureDisplays id source sub false true
  else s.captureDisplays id source set true true

/-- `Connection::capture_displays`, with the new `multi_ui_session`. -/
def request (id : Int32) (source : VideoSource) (followRemoteWindow : Bool)
    (add sub set : List ℕ) : SharedServer × Bool :=
  let s := s.capture id source add sub set
  let multiUiSession : Bool := s.getSubbedDisplaysCount id > 1
  (if followRemoteWindow then s.subscribe .windowFocus id (!multiUiSession) else s, multiUiSession)

def Captures (id : Int32) (source : VideoSource) (display : ℕ) : Prop :=
  s.subed (.video source display) id = true

/-! ### What the functions do -/

variable {s} {name : ServiceName} {id : Int32}

theorem services_subscribe (name : ServiceName) (id : Int32) (sub : Bool) :
    (s.subscribe name id sub).services = s.services := by
  unfold subscribe
  split
  · split <;> rfl
  · rfl

theorem subed_subscribe (sub : Bool) (n : ServiceName) (i : Int32) :
    (s.subscribe name id sub).subed n i =
      if n = name ∧ i = id ∧ name ∈ s.services then sub else s.subed n i := by
  unfold subscribe
  by_cases hname : name ∈ s.services
  · rw [dif_pos hname]
    by_cases hsub : s.subed name id = sub
    · rw [if_pos hsub]
      split
      · next h => rw [h.1, h.2.1, hsub]
      · rfl
    · rw [if_neg hsub]
      unfold update
      simp only [hname, and_true]
  · rw [dif_neg hname, if_neg (fun h => hname h.2.2)]

variable (n : ServiceName)

theorem subed_addService (i : Int32) : (s.addService name).subed n i = s.subed n i := by
  unfold addService
  split <;> rfl

theorem mem_services_addService {n : ServiceName} :
    n ∈ (s.addService name).services ↔ n ∈ s.services ∨ n = name := by
  unfold addService
  split
  · next h =>
    refine ⟨.inl, fun hn => hn.elim id fun heq => ?_⟩
    rw [heq]
    exact h
  · simp

theorem subed_addServices (source : VideoSource) (displays : List ℕ) (s : SharedServer)
    (n : ServiceName) (i : Int32) : (s.addServices source displays).subed n i = s.subed n i := by
  induction displays generalizing s with
  | nil => rfl
  | cons d displays ih => exact (ih (s.addService (.video source d))).trans (subed_addService n i)

theorem mem_addServices (source : VideoSource) (displays : List ℕ) (s : SharedServer)
    (n : ServiceName) :
    n ∈ (s.addServices source displays).services ↔
      n ∈ s.services ∨ n ∈ displays.map (ServiceName.video source) := by
  induction displays generalizing s with
  | nil => simp [addServices]
  | cons d displays ih =>
    rw [List.map_cons, List.mem_cons, ← or_assoc, ← mem_services_addService]
    exact ih (s.addService (.video source d))

def verdict (displays : List ServiceName) (incl excl : Bool) (name : ServiceName) (sub : Bool) :
    Bool :=
  if name.isVideo then if name ∈ displays then incl || sub else !excl && sub else sub

theorem verdict_idem (displays : List ServiceName) (incl excl : Bool) (name : ServiceName)
    (sub : Bool) :
    verdict displays incl excl name (verdict displays incl excl name sub) =
      verdict displays incl excl name sub := by
  unfold verdict
  split
  · split
    · rw [← Bool.or_assoc, Bool.or_self]
    · rw [← Bool.and_assoc, Bool.and_self]
  · rfl

theorem services_captureDisplay (id : Int32) (displays : List ServiceName) (incl excl : Bool)
    (name : ServiceName) :
    (captureDisplay id displays incl excl s name).services = s.services := by
  unfold captureDisplay
  split_ifs <;> first | rfl | exact services_subscribe _ _ _

theorem subed_captureDisplay {displays : List ServiceName} {incl excl : Bool}
    (hname : name ∈ s.services) (n : ServiceName) (i : Int32) :
    (captureDisplay id displays incl excl s name).subed n i =
      if n = name ∧ i = id then verdict displays incl excl n (s.subed n i) else s.subed n i := by
  have hsubscribe : ∀ sub, (s.subscribe name id sub).subed n i =
      if n = name ∧ i = id then sub else s.subed n i := by
    intro sub
    rw [subed_subscribe]
    simp only [hname, and_true]
  unfold captureDisplay
  by_cases hat : n = name ∧ i = id
  · have hself : ∀ sub, (s.subscribe name id sub).subed n i = sub :=
      fun sub => (hsubscribe sub).trans (if_pos hat)
    rw [if_pos hat, hat.1]
    rw [hat.1] at hself
    unfold verdict
    split
    · split
      · cases incl with
        | true => rw [if_pos rfl, hself, Bool.true_or]
        | false => rw [if_neg Bool.false_ne_true, Bool.false_or]
      · cases excl with
        | true => rw [if_pos rfl, hself, Bool.not_true, Bool.false_and]
        | false => rw [if_neg Bool.false_ne_true, Bool.not_false, Bool.true_and]
    · rfl
  · rw [if_neg hat]
    split_ifs <;> simp only [hsubscribe, if_neg hat]

theorem foldl_captureDisplay {displays : List ServiceName} {incl excl : Bool}
    (l : List ServiceName) {s : SharedServer} (hl : l ⊆ s.services) :
    (l.foldl (captureDisplay id displays incl excl) s).services = s.services ∧
    ∀ n i, (l.foldl (captureDisplay id displays incl excl) s).subed n i =
      if i = id ∧ n ∈ l then verdict displays incl excl n (s.subed n i) else s.subed n i := by
  induction l generalizing s with
  | nil => exact ⟨rfl, fun n i => by simp⟩
  | cons name l ih =>
    obtain ⟨hname, hl⟩ := List.cons_subset.mp hl
    have hservices := services_captureDisplay (s := s) id displays incl excl name
    obtain ⟨hsame, hsubed⟩ := ih (s := captureDisplay id displays incl excl s name)
      (by rw [hservices]; exact hl)
    rw [List.foldl_cons]
    refine ⟨hsame.trans hservices, fun n i => ?_⟩
    rw [hsubed, subed_captureDisplay hname]
    by_cases hi : i = id
    · -- a second visit to a service changes nothing
      by_cases hn : n = name
      · simp [hi, hn, verdict_idem]
      · simp [hi, hn]
    · simp [hi]

variable {source : VideoSource} {displays : List ℕ} {incl excl : Bool}

theorem subed_captureDisplays (i : Int32) :
    (s.captureDisplays id source displays incl excl).subed n i =
      if i = id ∧ n ∈ s.services then
        verdict (displays.map (.video source)) incl excl n (s.subed n i)
      else s.subed n i :=
  (foldl_captureDisplay s.services (List.Subset.refl _)).2 n i

theorem services_captureDisplays :
    (s.captureDisplays id source displays incl excl).services = s.services :=
  (foldl_captureDisplay s.services (List.Subset.refl _)).1

/-! ### Requests -/

variable {add sub set : List ℕ} {follow : Bool}

theorem capture_eq (id : Int32) (source : VideoSource) (add sub set : List ℕ) :
    ∃ displays incl excl, s.capture id source add sub set =
      (s.addServices source (add ++ set)).captureDisplays id source displays incl excl := by
  unfold capture
  split
  · exact ⟨add, true, false, rfl⟩
  · split
    · exact ⟨sub, false, true, rfl⟩
    · exact ⟨set, true, true, rfl⟩

theorem subed_capture_other {n : ServiceName} {i : Int32} (h : i ≠ id ∨ n.isVideo = false) :
    (s.capture id source add sub set).subed n i = s.subed n i := by
  obtain ⟨displays, incl, excl, hcapture⟩ := s.capture_eq id source add sub set
  rw [hcapture, subed_captureDisplays, subed_addServices]
  split
  · next hat =>
    have hvideo : n.isVideo = false := h.resolve_left (not_not.mpr hat.1)
    unfold verdict
    rw [if_neg (by rw [hvideo]; exact Bool.false_ne_true)]
  · rfl

variable {σ : VideoSource}

theorem mem_map_video {d : ℕ} :
    ServiceName.video σ d ∈ displays.map (ServiceName.video source) ↔
      σ = source ∧ d ∈ displays := by
  rw [List.mem_map]
  constructor
  · rintro ⟨d', hd', heq⟩
    obtain ⟨rfl, rfl⟩ := ServiceName.video.inj heq
    exact ⟨rfl, hd'⟩
  · rintro ⟨rfl, hd⟩
    exact ⟨d, hd, rfl⟩

theorem subed_request (i : Int32) :
    (s.request id source follow add sub set).1.subed n i =
      if n = .windowFocus ∧ i = id ∧ .windowFocus ∈ s.services ∧ follow = true then
        !(s.request id source follow add sub set).2
      else (s.capture id source add sub set).subed n i := by
  have hservices : .windowFocus ∈ (s.capture id source add sub set).services ↔
      .windowFocus ∈ s.services := by
    obtain ⟨displays, incl, excl, hcapture⟩ := s.capture_eq id source add sub set
    rw [hcapture, services_captureDisplays, mem_addServices]
    simp
  unfold request
  dsimp only
  cases follow with
  | false => simp
  | true =>
    rw [if_pos rfl, subed_subscribe]
    simp only [hservices, and_true]

theorem captures_request {d : ℕ} :
    (s.request id source follow add sub set).1.Captures id σ d ↔
      (s.capture id source add sub set).Captures id σ d := by
  unfold Captures
  rw [subed_request, if_neg (fun h => ServiceName.noConfusion h.1)]

theorem captures_captureDisplays {d : ℕ} :
    (s.captureDisplays id source displays incl excl).Captures id σ d ↔
      if σ = source ∧ d ∈ displays then
        s.Captures id σ d ∨ (incl = true ∧ .video σ d ∈ s.services)
      else excl = false ∧ s.Captures id σ d := by
  unfold Captures
  rw [subed_captureDisplays]
  by_cases hmem : ServiceName.video σ d ∈ s.services
  · have hvideo : (ServiceName.video σ d).isVideo = true := rfl
    rw [if_pos ⟨rfl, hmem⟩]
    unfold verdict
    rw [if_pos hvideo]
    simp only [mem_map_video, hmem, and_true]
    split
    · rw [Bool.or_eq_true, or_comm]
    · rw [Bool.and_eq_true, Bool.not_eq_true']
  · have hnot : s.subed (.video σ d) id = false :=
      Bool.eq_false_iff.mpr fun h => hmem (s.registered h)
    rw [if_neg fun h => hmem h.2, hnot]
    simp [hmem]

theorem captures_addServices {d : ℕ} :
    (s.addServices source displays).Captures id σ d ↔ s.Captures id σ d := by
  unfold Captures
  rw [subed_addServices]

theorem captures_add (hadd : add ≠ []) (σ : VideoSource) (d : ℕ) :
    (s.request id source follow add sub set).1.Captures id σ d ↔
      s.Captures id σ d ∨ (σ = source ∧ d ∈ add) := by
  have hcapture : s.capture id source add sub set =
      (s.addServices source (add ++ set)).captureDisplays id source add true false := if_pos hadd
  rw [captures_request, hcapture, captures_captureDisplays, captures_addServices]
  by_cases hd : σ = source ∧ d ∈ add
  · have hservice : .video σ d ∈ (s.addServices source (add ++ set)).services := by
      rw [mem_addServices, mem_map_video]
      exact .inr ⟨hd.1, List.mem_append_left _ hd.2⟩
    rw [if_pos hd]
    exact ⟨fun _ => .inr hd, fun _ => .inr ⟨rfl, hservice⟩⟩
  · rw [if_neg hd]
    exact ⟨fun h => .inl h.2, fun h => ⟨rfl, h.resolve_right hd⟩⟩

theorem captures_set (hadd : add = []) (hsub : sub = []) (σ : VideoSource) (d : ℕ) :
    (s.request id source follow add sub set).1.Captures id σ d ↔ σ = source ∧ d ∈ set := by
  have hcapture : s.capture id source add sub set =
      (s.addServices source (add ++ set)).captureDisplays id source set true true := by
    unfold capture
    rw [if_neg (not_not.mpr hadd), if_neg (not_not.mpr hsub)]
  rw [captures_request, hcapture, captures_captureDisplays, captures_addServices]
  by_cases hd : σ = source ∧ d ∈ set
  · have hservice : .video σ d ∈ (s.addServices source (add ++ set)).services := by
      rw [mem_addServices, mem_map_video]
      exact .inr ⟨hd.1, List.mem_append_right _ hd.2⟩
    rw [if_pos hd]
    exact ⟨fun _ => hd, fun _ => .inr ⟨rfl, hservice⟩⟩
  · rw [if_neg hd]
    exact ⟨fun h => absurd h.1 Bool.noConfusion, fun h => absurd h hd⟩

end SharedServer

/-! ### Runs -/

/-- A request of the connection, or whatever the others do to the server. -/
inductive Event
  | request (add sub set : List ℕ)
  | others (s : SharedServer)

/-- The server, as the requests of one connection change it. -/
def machine (id : Int32) (source : VideoSource) (followRemoteWindow : Bool) :
    Machine SharedServer Event Bool where
  step s
    | .request add sub set =>
      let r := s.request id source followRemoteWindow add sub set
      (r.1, [r.2])
    | .others s => (s, [])

/-- The request as it is meant: its displays are added, taken away or set, and no other subscription
changes. -/
def AsAsked (id : Int32) (source : VideoSource) (add sub set : List ℕ) (s s' : SharedServer) :
    Prop :=
  (∀ d, s'.Captures id source d ↔
    if add ≠ [] then s.Captures id source d ∨ d ∈ add
    else if sub ≠ [] then s.Captures id source d ∧ d ∉ sub
    else d ∈ set) ∧
  ∀ n i, (i = id → ∀ d, n ≠ .video source d) → s'.subed n i = s.subed n i

/-- What a request does unless it takes displays away, and what every request leaves alone. -/
structure Kept (id : Int32) (source : VideoSource) (followRemoteWindow : Bool)
    (add sub set : List ℕ) (s s' : SharedServer) : Prop where
  added : add ≠ [] → ∀ d, s'.Captures id source d ↔ s.Captures id source d ∨ d ∈ add
  exactly : add = [] → sub = [] → ∀ d, s'.Captures id source d ↔ d ∈ set
  /-- The displays of the other source, when nothing is taken away and when the displays are set. -/
  otherSource : ∀ σ, σ ≠ source → ∀ d, (add ≠ [] → (s'.Captures id σ d ↔ s.Captures id σ d)) ∧
    (add = [] → sub = [] → ¬ s'.Captures id σ d)
  otherConnections : ∀ i, i ≠ id → ∀ n, s'.subed n i = s.subed n i
  otherServices : ∀ n, n.isVideo = false → n ≠ .windowFocus → s'.subed n id = s.subed n id
  /-- The window focus follows, while the connection captures one display. -/
  windowFocus : s'.subed .windowFocus id =
    if .windowFocus ∈ s.services ∧ followRemoteWindow = true then
      !decide ((s.capture id source add sub set).getSubbedDisplaysCount id > 1)
    else s.subed .windowFocus id

theorem kept_request (id : Int32) (source : VideoSource) (follow : Bool) (add sub set : List ℕ)
    (s : SharedServer) :
    Kept id source follow add sub set s (s.request id source follow add sub set).1 where
  added := by
    intro hadd d
    rw [SharedServer.captures_add hadd]
    simp
  exactly := by
    intro hadd hsub d
    rw [SharedServer.captures_set hadd hsub]
    simp
  otherSource := by
    intro σ hσ d
    refine ⟨fun hadd => ?_, fun hadd hsub => ?_⟩
    · rw [SharedServer.captures_add hadd]
      simp [hσ]
    · rw [SharedServer.captures_set hadd hsub]
      simp [hσ]
  otherConnections := by
    intro i hi n
    rw [SharedServer.subed_request, if_neg fun h => hi h.2.1,
      SharedServer.subed_capture_other (.inl hi)]
  otherServices := by
    intro n hvideo hfocus
    rw [SharedServer.subed_request, if_neg fun h => hfocus h.1,
      SharedServer.subed_capture_other (.inr hvideo)]
  windowFocus := by
    rw [SharedServer.subed_request, SharedServer.subed_capture_other (.inr rfl)]
    simp only [true_and]
    rfl

/-- **Along every run**, each request adds or sets the displays it names, and leaves the other
connections and services alone, but for the window focus that follows. -/
theorem requests_keep (id : Int32) (source : VideoSource) (follow : Bool) (s : SharedServer)
    (pre : List Event) (add sub set : List ℕ) :
    Kept id source follow add sub set ((machine id source follow).run s pre)
      ((machine id source follow).run s (pre ++ [.request add sub set])) := by
  rw [Machine.run_append]
  exact kept_request id source follow add sub set _

/-- A server with two displays, of which the connection 1 captures `displays`, and is told the
window that has the focus. -/
def twoDisplays (displays : List ℕ) : SharedServer where
  services   := [.windowFocus, .video .monitor 0, .video .monitor 1]
  subed n i  := decide (i = 1 ∧ n ∈ ServiceName.windowFocus ::
    ([0, 1].filter (· ∈ displays)).map (ServiceName.video .monitor))
  registered := by
    intro name id h
    obtain ⟨-, hmem⟩ := of_decide_eq_true h
    rcases List.mem_cons.mp hmem with rfl | hmem
    · exact List.mem_cons_self
    · obtain ⟨d, hd, rfl⟩ := List.mem_map.mp hmem
      have hd : d ∈ [0, 1] := List.mem_of_mem_filter hd
      simpa using hd

/-- Another display takes the window focus away, and the display that is to be taken away is the
one that stays. -/
theorem not_as_asked :
    ¬ AsAsked 1 .monitor [1] [] [] (twoDisplays [0])
        ((twoDisplays [0]).request 1 .monitor true [1] [] []).1 ∧
      ¬ AsAsked 1 .monitor [] [0] [] (twoDisplays [0, 1])
        ((twoDisplays [0, 1]).request 1 .monitor false [] [0] []).1 := by
  constructor
  · intro h
    have hfocus := h.2 .windowFocus 1 (fun _ d => ServiceName.noConfusion)
    revert hfocus
    decide
  · intro h
    have hdisplay := h.1 0
    unfold SharedServer.Captures at hdisplay
    revert hdisplay
    decide

/-! ### One connection -/

def SharedServer.ofConn (s : SharedServer) (id : Int32) : Server :=
  ⟨s.services, fun name => s.subed name id⟩

variable {s : SharedServer} {id : Int32}

theorem ofConn_subscribe (name : ServiceName) (sub : Bool) :
    (s.subscribe name id sub).ofConn id = (s.ofConn id).subscribe name sub := by
  have hsubed : ∀ n, (s.subscribe name id sub).subed n id =
      ((s.ofConn id).subscribe name sub).subed n := by
    intro n
    rw [SharedServer.subed_subscribe]
    by_cases hname : name ∈ s.services
    · by_cases hn : n = name
      · rw [hn, Server.subed_subscribe_self hname, if_pos ⟨rfl, rfl, hname⟩]
      · rw [Server.subed_subscribe_other _ hn, if_neg fun h => hn h.1]
        rfl
    · have hsame : (s.ofConn id).subscribe name sub = s.ofConn id := if_neg hname
      rw [hsame, if_neg fun h => hname h.2.2]
      rfl
  unfold SharedServer.ofConn at hsubed ⊢
  rw [SharedServer.services_subscribe, funext hsubed]
  unfold Server.subscribe
  split <;> rfl

theorem ofConn_addServices (source : VideoSource) (displays : List ℕ) (s : SharedServer) :
    (s.addServices source displays).ofConn id =
      displays.foldl (fun s d => s.addService (.video source d)) (s.ofConn id) := by
  induction displays generalizing s with
  | nil => rfl
  | cons d displays ih =>
    have hadd : (s.addService (.video source d)).ofConn id =
        (s.ofConn id).addService (.video source d) := by
      unfold SharedServer.addService Server.addService
      split
      · next h => exact (if_pos h).symm
      · next h => exact (if_neg h).symm
    rw [List.foldl_cons, ← hadd]
    exact ih _

theorem ofConn_captureDisplays {w : World} (hw : w.server = s.ofConn id) (source : VideoSource)
    (displays : List ℕ) (incl excl : Bool) :
    (w.serverCaptureDisplays source displays incl excl).server =
      (s.captureDisplays id source displays incl excl).ofConn id := by
  have hservices : w.server.services = s.services := by rw [hw]; rfl
  unfold World.serverCaptureDisplays SharedServer.captureDisplays
  rw [hservices]
  generalize s.services = l
  clear hservices
  -- both loops go through the same services
  induction l generalizing w s with
  | nil => exact hw
  | cons name l ih =>
    have hsubscribe (sub : Bool) :
        (w.subscribe name sub).server = (s.subscribe name id sub).ofConn id := by
      rw [World.server_subscribe, ofConn_subscribe, hw]
    rw [List.foldl_cons, List.foldl_cons]
    refine ih ?_
    unfold SharedServer.captureDisplay
    split
    · split
      · split
        · exact hsubscribe true
        · exact hw
      · split
        · exact hsubscribe false
        · exact hw
    · exact hw

theorem conn_serverCaptureDisplays (w : World) (source : VideoSource) (displays : List ℕ)
    (incl excl : Bool) : (w.serverCaptureDisplays source displays incl excl).conn = w.conn := by
  unfold World.serverCaptureDisplays
  generalize w.server.services = l
  induction l generalizing w with
  | nil => rfl
  | cons name l ih =>
    rw [List.foldl_cons, ih]
    split_ifs <;> first | rfl | exact World.conn_subscribe w name _

theorem captureDisplays_eq {w : World} (hw : w.server = s.ofConn id) (add sub set : List ℕ) :
    ∃ w' : World, w'.server = (s.capture id w.conn.videoSource add sub set).ofConn id ∧
      w'.conn = w.conn ∧
      (w.captureDisplays add sub set).server =
        (if w.conn.followRemoteWindow then
          w'.server.subscribe .windowFocus !decide (w'.server.subbedDisplaysCount > 1)
        else w'.server) ∧
      (w.captureDisplays add sub set).conn.multiUiSession =
        decide (w'.server.subbedDisplaysCount > 1) := by
  obtain ⟨w₁, hw₁⟩ : ∃ w₁ : World,
      w₁ = { w with server := (s.addServices w.conn.videoSource (add ++ set)).ofConn id } :=
    ⟨_, rfl⟩
  have hserver₁ : w₁.server = (s.addServices w.conn.videoSource (add ++ set)).ofConn id := by
    rw [hw₁]
  have hconn₁ : w₁.conn = w.conn := by rw [hw₁]
  -- each kind of request is one loop from there
  obtain ⟨w', hserver, hconn, heq⟩ : ∃ w' : World,
      w'.server = (s.capture id w.conn.videoSource add sub set).ofConn id ∧ w'.conn = w.conn ∧
      w' = (if add ≠ [] then w₁.serverCaptureDisplays w.conn.videoSource add true false
        else if sub ≠ [] then w₁.serverCaptureDisplays w.conn.videoSource sub false true
        else w₁.serverCaptureDisplays w.conn.videoSource set true true) := by
    have hloop : ∀ displays incl excl,
        (w₁.serverCaptureDisplays w.conn.videoSource displays incl excl).conn = w.conn :=
      fun displays incl excl => (conn_serverCaptureDisplays w₁ _ displays incl excl).trans hconn₁
    unfold SharedServer.capture
    split
    · exact ⟨_, ofConn_captureDisplays hserver₁ _ _ _ _, hloop _ _ _, rfl⟩
    · split
      · exact ⟨_, ofConn_captureDisplays hserver₁ _ _ _ _, hloop _ _ _, rfl⟩
      · exact ⟨_, ofConn_captureDisplays hserver₁ _ _ _ _, hloop _ _ _, rfl⟩
  refine ⟨w', hserver, hconn, ?_⟩
  unfold World.captureDisplays
  dsimp only
  rw [hw, ← ofConn_addServices, ← hw₁, ← heq, hconn]
  split
  · rw [World.server_subscribe, World.conn_subscribe]
    exact ⟨rfl, rfl⟩
  · exact ⟨rfl, rfl⟩

theorem ofConn_request {w : World} (hw : w.server = s.ofConn id) (add sub set : List ℕ) :
    (w.captureDisplays add sub set).server =
        (s.request id w.conn.videoSource w.conn.followRemoteWindow add sub set).1.ofConn id ∧
      (w.captureDisplays add sub set).conn.multiUiSession =
        (s.request id w.conn.videoSource w.conn.followRemoteWindow add sub set).2 := by
  obtain ⟨w', hserver, hconn, hresult, hmulti⟩ := captureDisplays_eq hw add sub set
  have hcount : w'.server.subbedDisplaysCount =
      (s.capture id w.conn.videoSource add sub set).getSubbedDisplaysCount id := by
    rw [hserver]
    rfl
  rw [hresult, hmulti, hcount]
  refine ⟨?_, rfl⟩
  unfold SharedServer.request
  split
  · rw [ofConn_subscribe, hserver]
  · exact hserver

end LibRustdesk.Desktop.CaptureDisplays
