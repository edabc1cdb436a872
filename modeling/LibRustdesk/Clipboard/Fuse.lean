import LibRustdesk.Clipboard.Requests

/-!
# Reading a file of the peer

`FuseServer::read_node` (`fuse/cs.rs`) asks the peer for a range of a file and waits for the answer
on a channel, to which `handle_file_content_response` (`fuse/mod.rs`) sends every response that
arrives. A response carries the stream id of the node, and not the range it was asked for.

* `FuseServer` — the channel, the call that waits (one at a time, under the lock of the server), and
  as ghost state every request that has been sent and every response that has come.
* `FuseEvent` — a call, what it does with the next message, its timeout, and what arrives. When a
  response comes, if at all, and how often, is up to the run.
* `Timely` — no late response is in the way: when a call begins, and when a response comes while one
  waits, the first response that the call would take answers a request of the same node and range.

`readNode_answered` says that in such runs what a call returns was sent for its own node and range.
The channel is never emptied, so a call that times out leaves its answer to the next one
(`readNode_late`).
-/

namespace LibRustdesk.Clipboard

deriving instance DecidableEq for FuseNode

/-! ### The server -/

/-- A call of `read_node`. The node belongs to one of the file lists that have been loaded. -/
structure ReadCall where
  generation : ℕ
  node : FuseNode
  offset : Int64
  size : UInt32
  deriving DecidableEq

/-- The errors of `read_node`. -/
inductive ReadError
  | send
  | timedOut
  | failureRequest
  | invalidReply
  deriving DecidableEq, Repr

def readRetry : ℕ := 3

/-- The server and its channel. A response is kept with the number of the request it answers. -/
structure FuseServer where
  rx : List (Option ℕ × ClipboardFile)
  /-- The call that waits, and `retry_times`. -/
  reading : Option (ReadCall × ℕ)
  sent : List ReadCall
  responses : List (ℕ × Int32 × Bytes)

inductive FuseEvent
  /-- A call, and whether its request can be sent. -/
  | readNode (call : ReadCall) (sends : Bool)
  /-- `recv_timeout` has a message; `sends` says whether a retry can be sent. -/
  | recv (sends : Bool)
  | timeout
  /-- The peer's response to a request. -/
  | respond (request : ℕ) (msgFlags : Int32) (requestedData : Bytes)
  /-- Another message on the channel. -/
  | deliver (clip : ClipboardFile)
  deriving DecidableEq

inductive FuseOut
  | sendData (connId : Int32) (clip : ClipboardFile)
  | returned (call : ReadCall) (result : Except ReadError Bytes)
  deriving DecidableEq

namespace FuseServer

variable (s : FuseServer)

/-- `FuseServer::new`. -/
def init : FuseServer := ⟨[], none, [], []⟩

/-- The request of a call is sent, for the time `retryTimes`. -/
def request (call : ReadCall) (retryTimes : ℕ) : FuseServer × List FuseOut :=
  ({ s with reading := some (call, retryTimes), sent := s.sent ++ [call] },
    [.sendData call.node.connId (readNodeRequest call.node call.offset call.size)])

def finish (call : ReadCall) (result : Except ReadError Bytes) : FuseServer × List FuseOut :=
  ({ s with reading := none }, [.returned call result])

def requestOrFail (call : ReadCall) (retryTimes : ℕ) (sends : Bool) : FuseServer × List FuseOut :=
  if sends then s.request call retryTimes else s.finish call (.error .send)

/-- What the loop of `read_node` does with a message. -/
def reply (call : ReadCall) (retryTimes : ℕ) (sends : Bool) :
    ClipboardFile → FuseServer × List FuseOut
  | .fileContentsResponse msgFlags streamId requestedData =>
    if streamId ≠ call.node.streamId then (s, [])
    else if msgFlags &&& 1 = 0 then
      if readRetry < retryTimes + 1 then s.finish call (.error .failureRequest)
      else s.requestOrFail call (retryTimes + 1) sends
    else s.finish call (.ok requestedData)
  | _ => s.finish call (.error .invalidReply)

def handleFileContentResponse (request : Option ℕ) (clip : ClipboardFile) : FuseServer :=
  { s with rx := s.rx ++ [(request, clip)] }

end FuseServer

def ClipboardFile.isResponse : ClipboardFile → Bool
  | .fileContentsResponse .. => true
  | _ => false

/-- The server, the callers of `read_node` and the peer. -/
def fuseMachine : Machine FuseServer FuseEvent FuseOut where
  step s e :=
    match e, s.reading with
    | .readNode call sends, none => s.requestOrFail call 0 sends
    | .recv sends, some (call, retryTimes) =>
      match s.rx with
      | [] => (s, [])
      | (_, clip) :: rest => { s with rx := rest }.reply call retryTimes sends clip
    | .timeout, some (call, _) =>
      -- a message that is there is taken, however late
      if s.rx = [] then s.finish call (.error .timedOut) else (s, [])
    | .respond i msgFlags requestedData, _ =>
      match s.sent[i]? with
      | none => (s, [])
      | some call =>
        let s' := { s with responses := s.responses ++ [(i, msgFlags, requestedData)] }
        let clip := .fileContentsResponse msgFlags call.node.streamId requestedData
        (s'.handleFileContentResponse (some i) clip, [])
    | .deliver clip, _ =>
      if clip.isResponse then (s, []) else (s.handleFileContentResponse none clip, [])
    | _, _ => (s, [])

/-! ### Answers to a call -/

def ReadCall.takes (call : ReadCall) (m : Option ℕ × ClipboardFile) : Bool :=
  match m.2 with
  | .fileContentsResponse msgFlags streamId _ =>
    streamId = call.node.streamId && msgFlags &&& 1 ≠ 0
  | _ => false

namespace FuseServer

variable (s : FuseServer)

/-- The message answers a request of the same node, offset and size. -/
def Owns (call : ReadCall) (m : Option ℕ × ClipboardFile) : Prop :=
  m.1.bind (s.sent[·]?) = some call

instance (call : ReadCall) (m : Option ℕ × ClipboardFile) : Decidable (s.Owns call m) :=
  inferInstanceAs (Decidable (_ = _))

/-- The first message that the call would return with answers a request like its own. -/
def FirstOwned (call : ReadCall) : Prop := ∀ m ∈ s.rx.find? call.takes, s.Owns call m

instance (call : ReadCall) : Decidable (s.FirstOwned call) := by
  unfold FirstOwned
  infer_instance

/-- The bytes came in a response to a request of the same node, offset and size. -/
def Answered (call : ReadCall) (bytes : Bytes) : Prop :=
  ∃ i msgFlags, s.sent[i]? = some call ∧ (i, msgFlags, bytes) ∈ s.responses

end FuseServer

theorem FuseServer.returned_of_reply {s : FuseServer} {call call' : ReadCall} {retryTimes : ℕ}
    {sends : Bool} {clip : ClipboardFile} {bytes : Bytes}
    (hout : .returned call (.ok bytes) ∈ (s.reply call' retryTimes sends clip).2) :
    ∃ streamId msgFlags, clip = .fileContentsResponse msgFlags streamId bytes ∧ call = call' ∧
      streamId = call.node.streamId ∧ ¬ msgFlags &&& 1 = 0 := by
  cases clip with
  | fileContentsResponse msgFlags streamId data =>
    dsimp only [reply] at hout
    split_ifs at hout with hstream hflags hretry
    · cases hout
    · cases List.mem_singleton.mp hout
    · unfold requestOrFail at hout
      split at hout
      · cases List.mem_singleton.mp hout
      · cases List.mem_singleton.mp hout
    · obtain ⟨rfl, hdata⟩ := FuseOut.returned.inj (List.mem_singleton.mp hout)
      obtain rfl := Except.ok.inj hdata
      exact ⟨streamId, msgFlags, rfl, rfl, not_not.mp hstream, hflags⟩
  | fileContentsRequest | files => cases List.mem_singleton.mp hout

/-- No late response is in the way, neither when a call begins nor when a response comes while one
waits and has none to take. -/
def Timely (s : FuseServer) : FuseEvent → Prop
  | .readNode call _ => s.reading = none → s.FirstOwned call
  | .respond i msgFlags _ =>
    ∀ r ∈ s.reading, s.rx.find? r.1.takes = none → ∀ call ∈ s.sent[i]?,
      call.node.streamId = r.1.node.streamId → msgFlags &&& 1 ≠ 0 → call = r.1
  | _ => True

instance (s : FuseServer) (e : FuseEvent) : Decidable (Timely s e) := by
  unfold Timely
  split <;> infer_instance

/-- **The invariant.** Every response on the channel has come, and the call that waits is to return
with one of its own. -/
structure FuseInv (s : FuseServer) : Prop where
  recorded : ∀ i msgFlags streamId bytes,
    (some i, .fileContentsResponse msgFlags streamId bytes) ∈ s.rx →
      (i, msgFlags, bytes) ∈ s.responses
  first : ∀ r ∈ s.reading, s.FirstOwned r.1

namespace FuseInv

variable {s : FuseServer}

theorem init : FuseInv FuseServer.init :=
  ⟨fun _ _ _ _ hm => absurd hm List.not_mem_nil, fun _ hr => by cases hr⟩

theorem finish (h : FuseInv s) (call : ReadCall) (result : Except ReadError Bytes) :
    FuseInv (s.finish call result).1 :=
  ⟨h.recorded, fun _ hr => by cases hr⟩

variable {call : ReadCall}

theorem request (h : FuseInv s) (hfirst : s.FirstOwned call) (retryTimes : ℕ) :
    FuseInv (s.request call retryTimes).1 := by
  refine ⟨h.recorded, fun r hr => ?_⟩
  obtain rfl : (call, retryTimes) = r := Option.some.inj hr
  intro m hm
  have hown : s.Owns call m := hfirst m hm
  unfold FuseServer.Owns at hown ⊢
  obtain ⟨i, hi, hsent⟩ := Option.bind_eq_some_iff.mp hown
  rw [hi, Option.bind_some]
  have hlt : i < s.sent.length := (List.getElem?_eq_some_iff.mp hsent).1
  exact (List.getElem?_append_left hlt).trans hsent

theorem requestOrFail (h : FuseInv s) (hfirst : s.FirstOwned call)
    (retryTimes : ℕ) (sends : Bool) : FuseInv (s.requestOrFail call retryTimes sends).1 := by
  unfold FuseServer.requestOrFail
  split
  · exact h.request hfirst retryTimes
  · exact h.finish call _

variable {rest : List (Option ℕ × ClipboardFile)} {m : Option ℕ × ClipboardFile}

theorem drop (h : FuseInv s) {retryTimes : ℕ} (hreading : s.reading = some (call, retryTimes))
    (hrx : s.rx = m :: rest) (hm : call.takes m = false) : FuseInv { s with rx := rest } := by
  refine ⟨fun i msgFlags streamId bytes hmem => ?_, fun r hr => ?_⟩
  · refine h.recorded i msgFlags streamId bytes ?_
    rw [hrx]
    exact List.mem_cons_of_mem m hmem
  · have hfirst : s.FirstOwned r.1 := h.first r hr
    obtain rfl : (call, retryTimes) = r := Option.some.inj (hreading.symm.trans hr)
    unfold FuseServer.FirstOwned at hfirst
    rw [hrx, List.find?_cons_of_neg (by rw [hm]; decide)] at hfirst
    exact hfirst

theorem finish_rest (h : FuseInv s) (hrx : s.rx = m :: rest) (call : ReadCall)
    (result : Except ReadError Bytes) : FuseInv
    (FuseServer.finish { s with rx := rest } call result).1 := by
  refine ⟨fun i msgFlags streamId bytes hmem => ?_, fun _ hr => by cases hr⟩
  refine h.recorded i msgFlags streamId bytes ?_
  rw [hrx]
  exact List.mem_cons_of_mem m hmem

theorem reply (h : FuseInv s) {retryTimes : ℕ} (hreading : s.reading = some (call, retryTimes))
    (hrx : s.rx = m :: rest) (sends : Bool) : FuseInv
    (FuseServer.reply { s with rx := rest } call retryTimes sends m.2).1 := by
  obtain ⟨tag, clip⟩ := m
  cases clip with
  | fileContentsResponse msgFlags streamId bytes =>
    dsimp only [FuseServer.reply]
    by_cases hstream : streamId = call.node.streamId
    · rw [if_neg (not_not.mpr hstream)]
      by_cases hflags : msgFlags &&& 1 = 0
      · rw [if_pos hflags]
        split
        · exact h.finish_rest hrx call _
        · -- a failure: the same request goes out again
          have htakes :
              call.takes (tag, .fileContentsResponse msgFlags streamId bytes) = false := by
            simp [ReadCall.takes, hflags]
          have hrest := h.drop hreading hrx htakes
          exact hrest.requestOrFail (hrest.first (call, retryTimes) hreading) _ _
      · rw [if_neg hflags]
        exact h.finish_rest hrx call _
    · rw [if_pos hstream]
      refine h.drop hreading hrx ?_
      simp [ReadCall.takes, hstream]
  | fileContentsRequest | files => exact h.finish_rest hrx call _

theorem handleFileContentResponse (h : FuseInv s) {tag : Option ℕ} {clip : ClipboardFile}
    (hrecorded : ∀ i msgFlags streamId bytes, tag = some i →
      clip = .fileContentsResponse msgFlags streamId bytes → (i, msgFlags, bytes) ∈ s.responses)
    (hfirst : ∀ r ∈ s.reading, s.rx.find? r.1.takes = none → r.1.takes (tag, clip) = true →
      s.Owns r.1 (tag, clip)) : FuseInv (s.handleFileContentResponse tag clip) := by
  refine ⟨fun i msgFlags streamId bytes hmem => ?_, fun r hr m hm => ?_⟩
  · rcases List.mem_append.mp hmem with hmem | hmem
    · exact h.recorded i msgFlags streamId bytes hmem
    · obtain ⟨htag, hclip⟩ := Prod.mk.inj (List.mem_singleton.mp hmem)
      exact hrecorded i msgFlags streamId bytes htag.symm hclip.symm
  · change m ∈ (s.rx ++ [(tag, clip)]).find? r.1.takes at hm
    rw [List.find?_append] at hm
    cases hfind : s.rx.find? r.1.takes with
    | some m' =>
      rw [hfind] at hm
      obtain rfl : m' = m := Option.some.inj hm
      exact h.first r hr m' hfind
    | none =>
      -- nothing to take so far
      rw [hfind, Option.none_or] at hm
      have htakes := List.find?_some hm
      obtain rfl : m = (tag, clip) := List.mem_singleton.mp (List.mem_of_find?_eq_some hm)
      exact hfirst r hr hfind htakes

theorem step (h : FuseInv s) {e : FuseEvent} (he : Timely s e) :
    FuseInv (fuseMachine.next s e) := by
  unfold Machine.next fuseMachine
  dsimp only
  split
  · next call sends hreading => exact h.requestOrFail (he hreading) 0 sends
  · next sends call retryTimes hreading =>
    split
    · exact h
    · next tag clip rest hrx => exact h.reply hreading hrx sends
  · next call retryTimes hreading =>
    split
    · exact h.finish call _
    · exact h
  · next _ i msgFlags bytes =>
    split
    · exact h
    · next call hsent =>
      have hs' : FuseInv { s with responses := s.responses ++ [(i, msgFlags, bytes)] } :=
        ⟨fun j flags stream data hm => List.mem_append_left _ (h.recorded j flags stream data hm),
          h.first⟩
      refine hs'.handleFileContentResponse (fun j flags stream data htag hclip => ?_) ?_
      · obtain rfl := Option.some.inj htag
        obtain ⟨rfl, -, rfl⟩ := ClipboardFile.fileContentsResponse.inj hclip
        exact List.mem_append_right _ (List.mem_singleton.mpr rfl)
      · intro r hr hnone htakes
        -- the response is one that the call would return with
        obtain ⟨hstream, hflags⟩ :
            call.node.streamId = r.1.node.streamId ∧ ¬ msgFlags &&& 1 = 0 := by
          simpa [ReadCall.takes] using htakes
        obtain rfl : call = r.1 := he r hr hnone call hsent hstream hflags
        exact hsent
  · next _ clip =>
    split
    · exact h
    · next hclip =>
      refine h.handleFileContentResponse (fun j flags stream data htag _ => by cases htag) ?_
      intro r _ _ htakes
      refine absurd ?_ hclip
      cases clip with
      | fileContentsResponse => rfl
      | fileContentsRequest | files => cases htakes
  · exact h

theorem answered (h : FuseInv s) {e : FuseEvent} {bytes : Bytes}
    (hout : .returned call (.ok bytes) ∈ fuseMachine.out s e) : s.Answered call bytes := by
  unfold Machine.out fuseMachine at hout
  dsimp only at hout
  split at hout
  · next call' sends _ =>
    unfold FuseServer.requestOrFail at hout
    split at hout
    · cases List.mem_singleton.mp hout
    · cases List.mem_singleton.mp hout
  · next sends call' retryTimes hreading =>
    split at hout
    · cases hout
    · next tag clip rest hrx =>
      obtain ⟨streamId, msgFlags, hclip, hcall, hstream, hflags⟩ :=
        FuseServer.returned_of_reply hout
      subst hclip hcall
      have htakes : call.takes (tag, .fileContentsResponse msgFlags streamId bytes) = true := by
        simp [ReadCall.takes, hstream, hflags]
      have hfind : s.rx.find? call.takes =
          some (tag, .fileContentsResponse msgFlags streamId bytes) := by
        rw [hrx, List.find?_cons_of_pos htakes]
      have hown : s.Owns call _ := h.first _ hreading _ hfind
      obtain ⟨i, rfl, hsent⟩ := Option.bind_eq_some_iff.mp hown
      refine ⟨i, msgFlags, hsent, h.recorded i msgFlags streamId bytes ?_⟩
      rw [hrx]
      exact List.mem_cons_self
  · split at hout
    · cases List.mem_singleton.mp hout
    · cases hout
  · split at hout <;> cases hout
  · split at hout <;> cases hout
  · cases hout

theorem trace {es : List FuseEvent} (htimely : fuseMachine.Meets Timely .init es) :
    ∀ p ∈ fuseMachine.trace .init es, FuseInv p.1 :=
  htimely.inv_trace FuseInv.init fun _ _ he h => h.step he

end FuseInv

/-- **What a call returns has been sent for it.** In every run without late responses in the way,
the bytes that a call returns came in a response to a request of the same node, offset and size. -/
theorem readNode_answered {es : List FuseEvent} (htimely : fuseMachine.Meets Timely .init es) :
    ∀ p ∈ fuseMachine.trace .init es, ∀ call bytes,
      .returned call (.ok bytes) ∈ fuseMachine.out p.1 p.2 → p.1.Answered call bytes := by
  intro p hp call bytes hout
  exact (FuseInv.trace htimely p hp).answered hout

def firstBlock : ReadCall := ⟨1, ⟨7, 42, 0⟩, 0, 4096⟩

def secondBlock : ReadCall := ⟨1, ⟨7, 42, 0⟩, 4096, 4096⟩

def retriedRead : List FuseEvent :=
  [.readNode firstBlock true, .respond 0 2 [], .recv true, .respond 1 1 [5]]

theorem readNode_answered_retried :
    .returned firstBlock (.ok [5]) ∈
        fuseMachine.out (fuseMachine.run .init retriedRead) (.recv true) ∧
      (fuseMachine.run .init retriedRead).Answered firstBlock [5] := by
  have hmeets : fuseMachine.Meets Timely .init (retriedRead ++ .recv true :: []) := by
    decide +kernel
  have hout : .returned firstBlock (.ok [5]) ∈
      fuseMachine.out (fuseMachine.run .init retriedRead) (.recv true) := by
    decide +kernel
  exact ⟨hout, readNode_answered hmeets _ (fuseMachine.mem_trace_split _ retriedRead _ []) _ _ hout⟩

/-- The first block is not there in time, and comes while the second one is waited for. -/
def lateRead : List FuseEvent :=
  [.readNode firstBlock true, .timeout, .readNode secondBlock true, .respond 0 1 [5]]

/-- **The first block is returned for the second one.** -/
theorem readNode_late :
    ¬ ∀ es : List FuseEvent, ∀ p ∈ fuseMachine.trace .init es, ∀ call bytes,
      .returned call (.ok bytes) ∈ fuseMachine.out p.1 p.2 → p.1.Answered call bytes := by
  intro hall
  obtain ⟨i, msgFlags, hsent, hresponse⟩ := hall (lateRead ++ .recv true :: []) _
    (fuseMachine.mem_trace_split _ lateRead _ []) secondBlock [5] (by decide +kernel)
  -- the only response is to the request of the first block
  have hresponses : (fuseMachine.run .init lateRead).responses = [(0, 1, [5])] := by
    decide +kernel
  rw [hresponses] at hresponse
  obtain ⟨rfl, -⟩ := Prod.mk.inj (List.mem_singleton.mp hresponse)
  revert hsent
  decide +kernel

end LibRustdesk.Clipboard
