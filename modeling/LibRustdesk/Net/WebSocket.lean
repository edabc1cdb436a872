import LibRustdesk.Ohos.Utf8

/-!
# The encrypted stream over a WebSocket

`WsFramedStream` of `libs/hbb_common/src/websocket.rs`: the session layer of `FramedStream` over a
transport that delivers messages of several kinds. `tungstenite` is outside the repository; a
message is what `next` can tell apart of it, and the network decides which it delivers.

* `next` is one call of `WsFramedStream::next` on what the transport hands over meanwhile. It skips
  pings, pongs and raw frames, and returns on the first message of another kind.
* `WsLink` joins two endpoints that installed the same key, with the calls each has made.
* `WsLink.link` reads such a link as a `Link` of two `FramedStream`s, each handed the data of the
  binary messages its `next` returned on.

`run_link` says that this reading takes runs to runs, so what is known of `Encrypt::dec` there
carries over (`next_accepts`). A text message is the exception: its bytes are returned as they are.
-/

namespace LibRustdesk

open LittleEndian FramedStream
open Ohos (asBytes)
open Link (tagBox tagBox_lawful)

variable {Key : Type}

/-- `tungstenite::Message`. -/
inductive WsMessage
  | binary (data : Bytes)
  | text (s : List Char)
  | ping (data : Bytes)
  | pong (data : Bytes)
  | close
  | frame (data : Bytes)
  deriving DecidableEq, Repr

abbrev WsItem := Except String WsMessage

/-- The keyed part of `WsFramedStream`. -/
structure WsFramedStream (Key : Type) where
  encrypt : Option (Encrypt Key)

namespace WsFramedStream

def setKey (key : Key) : WsFramedStream Key := ⟨some (Encrypt.new key)⟩

/-- The message `send_raw` hands to the transport. -/
def sendRaw (box : SecretBox Key) (ws : WsFramedStream Key) (msg : Bytes) :
    WsFramedStream Key × WsMessage :=
  match ws.encrypt with
  | some key =>
    let (key, msg) := key.enc box msg
    (⟨some key⟩, .binary msg)
  | none => (ws, .binary msg)

/-- One call of `next`, with what the transport yields during it. The stream ends after the last. -/
def next (box : SecretBox Key) (ws : WsFramedStream Key) :
    List WsItem → WsFramedStream Key × Option (Except String Bytes)
  | [] => (ws, none)
  | .error e :: _ => (ws, some (.error ("WebSocket protocol error: " ++ e)))
  | .ok (.binary data) :: _ =>
    match ws.encrypt with
    | some key =>
      let (key, res) := key.dec box data
      (⟨some key⟩, some res)
    | none => (ws, some (.ok data))
  | .ok (.text s) :: _ => (ws, some (.ok (asBytes s)))
  | .ok .close :: _ => (ws, none)
  | .ok (.ping _) :: items | .ok (.pong _) :: items | .ok (.frame _) :: items => next box ws items

def returnsOn : List WsItem → Option WsItem
  | [] => none
  | .ok (.ping _) :: items | .ok (.pong _) :: items | .ok (.frame _) :: items => returnsOn items
  | item :: _ => some item

/-- `FramedStream` with the same session layer. -/
def framed (ws : WsFramedStream Key) : FramedStream Key := ⟨ws.encrypt⟩

end WsFramedStream

/-- A call of `next`: the item it returned on and what it returned. -/
structure WsCall where
  item : Option WsItem
  result : Option (Except String Bytes)

/-- The call's binary message, as a frame handed to a `FramedStream`. -/
def WsCall.receipt (c : WsCall) : Option Receipt :=
  match c.item with
  | some (.ok (.binary data)) => some ⟨data, c.result.bind Except.toOption⟩
  | _ => none

def WsCall.counted (c : WsCall) : Bool :=
  match c.item with
  | some (.ok (.binary data)) => 1 < data.length
  | _ => false

def WsCall.OfText (c : WsCall) : Prop := ∃ s, c.item = some (.ok (.text s))

/-- Two keyed streams, what each has sealed, and the calls of `next` each has made. -/
structure WsLink (Key : Type) where
  stream : Endpoint → WsFramedStream Key
  sent : Endpoint → List Bytes
  calls : Endpoint → List WsCall

/-- An endpoint sends, or calls `next` while the network delivers items of its choice. -/
inductive WsEvent
  | send (side : Endpoint) (msg : Bytes)
  | next (side : Endpoint) (items : List WsItem)

namespace WsLink

/-- Both endpoints have just installed `key`. -/
def start (key : Key) : WsLink Key where
  stream := fun _ => .setKey key
  sent := fun _ => []
  calls := fun _ => []

def machine (box : SecretBox Key) : Machine (WsLink Key) WsEvent Empty where
  step
    | s, .send side msg =>
      let (ws, _) := (s.stream side).sendRaw box msg
      ({ s with
          stream := Function.update s.stream side ws
          sent := Function.update s.sent side (s.sent side ++ [msg]) }, [])
    | s, .next side items =>
      let (ws, res) := (s.stream side).next box items
      ({ s with
          stream := Function.update s.stream side ws
          calls := Function.update s.calls side
            (s.calls side ++ [⟨WsFramedStream.returnsOn items, res⟩]) }, [])

def received (s : WsLink Key) (side : Endpoint) : List Receipt :=
  (s.calls side).filterMap WsCall.receipt

/-- The link as one of two `FramedStream`s. -/
def link (s : WsLink Key) : Link Key where
  stream := fun side => (s.stream side).framed
  sent := s.sent
  received := s.received

end WsLink

/-- The event as events of such a link: the binary message a call returns on is delivered there. -/
def WsEvent.frames : WsEvent → List LinkEvent
  | .send side msg => [.send side msg]
  | .next side items =>
    match WsFramedStream.returnsOn items with
    | some (.ok (.binary data)) => [.deliver side data]
    | _ => []

/-- **Ideal authenticated encryption**, of the frames the calls return on. -/
def WsLink.IdealAt (box : SecretBox Key) (key : Key) (s : WsLink Key) (ev : WsEvent) : Prop :=
  ∀ e ∈ ev.frames, Link.IdealAt box key s.link e

/-! ### One call -/

namespace WsFramedStream

variable {box : SecretBox Key} {ws : WsFramedStream Key}

theorem next_eq (items : List WsItem) :
    next box ws items = match returnsOn items with
      | some (.ok (.binary data)) =>
        (⟨(ws.framed.next box data).1.encrypt⟩, some (ws.framed.next box data).2)
      | some (.ok (.text s)) => (ws, some (.ok (asBytes s)))
      | some (.error e) => (ws, some (.error ("WebSocket protocol error: " ++ e)))
      | _ => (ws, none) := by
  induction items with
  | nil => rfl
  | cons item items ih =>
    cases item with
    | error e => rfl
    | ok m =>
      cases m with
      | binary data =>
        obtain ⟨encrypt⟩ := ws
        cases encrypt with
        | none => rfl
        | some key => rfl
      | text s => rfl
      | close => rfl
      | ping data => exact ih
      | pong data => exact ih
      | frame data => exact ih

theorem next_other {items : List WsItem}
    (h : ∀ data, returnsOn items ≠ some (.ok (.binary data))) : (next box ws items).1 = ws := by
  rw [next_eq]
  split
  · next data hitem => exact absurd hitem (h data)
  · rfl
  · rfl
  · rfl

end WsFramedStream

theorem WsEvent.frames_cases (side : Endpoint) (items : List WsItem) :
    (∃ data, WsFramedStream.returnsOn items = some (.ok (.binary data)) ∧
      (WsEvent.next side items).frames = [.deliver side data]) ∨
    (∀ data, WsFramedStream.returnsOn items ≠ some (.ok (.binary data))) ∧
      (WsEvent.next side items).frames = [] := by
  unfold WsEvent.frames
  dsimp only
  split
  · next data hitem => exact Or.inl ⟨data, hitem, rfl⟩
  · next hother => exact Or.inr ⟨hother, rfl⟩

/-- A short frame is returned as it is; and only text and binary messages are returned. -/
def WsCall.Sound (c : WsCall) : Prop :=
  match c.item with
  | some (.ok (.binary data)) => data.length ≤ 1 → c.result = some (.ok data)
  | some (.ok (.text _)) => True
  | _ => ∀ m, c.result ≠ some (.ok m)

theorem WsFramedStream.next_sound (box : SecretBox Key) (ws : WsFramedStream Key)
    (items : List WsItem) : WsCall.Sound ⟨returnsOn items, (ws.next box items).2⟩ := by
  rw [next_eq]
  unfold WsCall.Sound
  split
  · next data hitem =>
    rw [show returnsOn items = some (.ok (.binary data)) from hitem]
    intro hshort
    obtain ⟨encrypt⟩ := ws
    cases encrypt with
    | none => rfl
    | some key =>
      show some (key.dec box data).2 = _
      rw [Encrypt.dec, if_pos hshort]
  · trivial
  · next hbinary htext =>
    intro m h
    split at h
    · next data hitem => exact hbinary data hitem
    · next s hitem => exact htext s hitem
    · cases h
    · cases h

/-! ### The link as one of framed streams -/

namespace WsLink

theorem received_next (box : SecretBox Key) (s : WsLink Key) (side : Endpoint)
    (items : List WsItem) :
    ((machine box).next s (.next side items)).received =
      Function.update s.received side (s.received side ++
        (WsCall.receipt
          ⟨WsFramedStream.returnsOn items, ((s.stream side).next box items).2⟩).toList)
    := by
  funext side'
  show (Function.update s.calls side _ side').filterMap WsCall.receipt = _
  by_cases h : side' = side
  · subst h
    rw [Function.update_self, Function.update_self, List.filterMap_append]
    cases hr : WsCall.receipt
        ⟨WsFramedStream.returnsOn items, ((s.stream side').next box items).2⟩ with
    | none => rw [List.filterMap_cons_none hr]; rfl
    | some r => rw [List.filterMap_cons_some hr]; rfl
  · rw [Function.update_of_ne h, Function.update_of_ne h]
    rfl

theorem link_next (box : SecretBox Key) (s : WsLink Key) (ev : WsEvent) :
    ((machine box).next s ev).link = (Link.machine box).run s.link ev.frames := by
  have hframed (stream : Endpoint → WsFramedStream Key) (side : Endpoint)
      (ws : WsFramedStream Key) :
      (fun side' => (Function.update stream side ws side').framed) =
        Function.update (fun side' => (stream side').framed) side ws.framed := by
    funext side'
    exact Function.apply_update (fun _ => WsFramedStream.framed) stream side ws side'
  cases ev with
  | send side msg =>
    have hsend : ((s.stream side).sendRaw box msg).1.framed =
        ((s.stream side).framed.sendRaw box msg).1 := by
      obtain ⟨encrypt⟩ := s.stream side
      cases encrypt with
      | none => rfl
      | some key => rfl
    rw [Link.mk.injEq]
    refine ⟨?_, rfl, rfl⟩
    exact (hframed s.stream side _).trans (congrArg _ hsend)
  | next side items =>
    have hlink : ((machine box).next s (.next side items)).link =
        ⟨Function.update s.link.stream side ((s.stream side).next box items).1.framed, s.sent,
          ((machine box).next s (.next side items)).received⟩ := by
      rw [Link.mk.injEq]
      exact ⟨hframed s.stream side _, rfl, rfl⟩
    rw [hlink, received_next]
    rcases WsEvent.frames_cases side items with ⟨data, hitem, hframes⟩ | ⟨hother, hframes⟩
    · rw [hframes, WsFramedStream.next_eq, hitem]
      rfl
    · -- no receipt, and the stream as it was
      have hreceipt : WsCall.receipt
          ⟨WsFramedStream.returnsOn items, ((s.stream side).next box items).2⟩ = none := by
        unfold WsCall.receipt
        split
        · next data hitem => exact absurd hitem (hother data)
        · rfl
      have hstream : Function.update s.link.stream side (s.stream side).framed = s.link.stream :=
        Function.update_eq_self side s.link.stream
      rw [hreceipt, Option.toList_none, List.append_nil, Function.update_eq_self, hframes,
        WsFramedStream.next_other hother, hstream]
      rfl

theorem run_link (box : SecretBox Key) (s : WsLink Key) (es : List WsEvent) :
    ((machine box).run s es).link = (Link.machine box).run s.link (es.flatMap WsEvent.frames) :=
  (machine box).run_flatMap (link_next box) s es

theorem length_frames_le (es : List WsEvent) : (es.flatMap WsEvent.frames).length ≤ es.length := by
  induction es with
  | nil => exact Nat.le_refl 0
  | cons ev es ih =>
    have hone : ev.frames.length ≤ 1 := by
      cases ev with
      | send side msg => exact Nat.le_refl 1
      | next side items =>
        rcases WsEvent.frames_cases side items with ⟨data, -, hframes⟩ | ⟨-, hframes⟩
        · rw [hframes, List.length_singleton]
        · rw [hframes, List.length_nil]
          exact Nat.zero_le 1
    rw [List.flatMap_cons, List.length_append, List.length_cons]
    omega

theorem meets_frames {box : SecretBox Key} {cond : Link Key → LinkEvent → Prop} {s : Link Key}
    {ev : WsEvent} (h : ∀ e ∈ ev.frames, cond s e) : (Link.machine box).Meets cond s ev.frames := by
  cases ev with
  | send side msg => exact Machine.meets_cons.mpr ⟨h _ List.mem_cons_self, Machine.meets_nil _⟩
  | next side items =>
    rcases WsEvent.frames_cases side items with ⟨data, -, hframes⟩ | ⟨-, hframes⟩
    · rw [hframes] at h ⊢
      exact Machine.meets_cons.mpr ⟨h _ List.mem_cons_self, Machine.meets_nil _⟩
    · rw [hframes]
      exact Machine.meets_nil _

theorem sound_run (box : SecretBox Key) (key : Key) (es : List WsEvent) :
    ∀ side, ∀ c ∈ ((machine box).run (start key) es).calls side, c.Sound := by
  refine (machine box).inv_run (I := fun s => ∀ side, ∀ c ∈ s.calls side, c.Sound) ?_ ?_ es
  · intro side c hc
    cases hc
  · intro s ev hI side c hc
    cases ev with
    | send side' msg => exact hI side c hc
    | next side' items =>
      have hc : c ∈ Function.update s.calls side' (s.calls side' ++
          [⟨WsFramedStream.returnsOn items, ((s.stream side').next box items).2⟩]) side := hc
      by_cases h : side = side'
      · subst h
        rw [Function.update_self, List.mem_append, List.mem_singleton] at hc
        rcases hc with hold | rfl
        · exact hI side c hold
        · exact WsFramedStream.next_sound box _ items
      · rw [Function.update_of_ne h] at hc
        exact hI side c hc

theorem counted_link (s : WsLink Key) (side : Endpoint) :
    s.link.counted side =
      (s.calls side).filterMap fun c => c.receipt.filter fun r => 1 < r.frame.length := by
  show ((s.calls side).filterMap WsCall.receipt).filter _ = _
  rw [List.filter_filterMap]

theorem counted_eq_isSome (c : WsCall) :
    (c.receipt.filter fun r => 1 < r.frame.length).isSome = c.counted := by
  unfold WsCall.receipt WsCall.counted
  split
  · next data hitem =>
    rw [Option.isSome_filter]
    rfl
  · rfl

/-- **What a secured WebSocket stream returns.** It is the same as over a `FramedStream`; and what a
call returns, on a message other than a text, is what one of the two endpoints sealed at its index
among the counted calls, or a frame of at most one byte. -/
theorem next_accepts (box : SecretBox Key) (hbox : box.Lawful) (key : Key) (es : List WsEvent)
    (hwrap : es.length < 2 ^ 64) (hideal : (machine box).Meets (IdealAt box key) (start key) es) :
    ((machine box).run (start key) es).link =
        (Link.machine box).run (Link.start key) (es.flatMap WsEvent.frames) ∧
      ∀ side k c m, (((machine box).run (start key) es).calls side)[k]? = some c → ¬ c.OfText →
        c.result = some (.ok m) →
          ∃ data, c.item = some (.ok (.binary data)) ∧
            (data.length ≤ 1 ∧ m = data ∨
              ∃ side' n, n = ((((machine box).run (start key) es).calls side).take k).countP
                  WsCall.counted ∧
                (((machine box).run (start key) es).sent side')[n]? = some m ∧
                data = box.sealBox m (getNonce (UInt64.ofNat (n + 1))) key) := by
  have hlink := run_link box (start key) es
  have hmeets : (Link.machine box).Meets (Link.IdealAt box key) (Link.start key)
      (es.flatMap WsEvent.frames) :=
    ((machine box).meets_flatMap (link_next box)).mpr (hideal.imp fun s ev h => meets_frames h)
  have hshort : (es.flatMap WsEvent.frames).length < 2 ^ 64 := by
    have := length_frames_le es
    omega
  have hinv := Link.Inv.of_run hbox hshort hmeets
  rw [show Link.start key = (start key).link from rfl, ← hlink] at hinv
  refine ⟨hlink, fun side k c m hk htext hresult => ?_⟩
  have hsound := sound_run box key es side c (List.mem_of_getElem? hk)
  unfold WsCall.Sound at hsound
  split at hsound
  · next data hitem =>
    refine ⟨data, hitem, ?_⟩
    by_cases hlen : data.length ≤ 1
    · rw [hsound hlen] at hresult
      exact Or.inl ⟨hlen, (Except.ok.inj (Option.some.inj hresult)).symm⟩
    · -- a counted frame, at the index of the counted calls before it
      have hreceipt : (c.receipt.filter fun r => 1 < r.frame.length) = some ⟨data, some m⟩ := by
        unfold WsCall.receipt
        rw [hitem, hresult]
        exact Option.filter_eq_some_iff.mpr ⟨rfl, decide_eq_true (Nat.lt_of_not_le hlen)⟩
      have hindex := getElem?_filterMap_countP
        (f := fun c : WsCall => c.receipt.filter fun r => 1 < r.frame.length) hk hreceipt
      rw [← counted_link, funext counted_eq_isSome] at hindex
      obtain ⟨side', hsent, hframe⟩ := hinv.authentic side _ _ m hindex rfl
      exact Or.inr ⟨side', _, rfl, hsent, hframe⟩
  · next s hitem => exact absurd ⟨s, hitem⟩ htext
  · exact absurd hresult (hsound m)

/-- **Not everything returned was sealed.** A binary message of one byte is returned to the
application although nothing was sent, and so is a text message. -/
theorem unsealed_returned :
    (¬ ∀ (box : SecretBox Bytes) (_ : box.Lawful) (key : Bytes) (es : List WsEvent),
      es.length < 2 ^ 64 → (machine box).Meets (IdealAt box key) (start key) es →
        ∀ side, ∀ c ∈ ((machine box).run (start key) es).calls side, ∀ m,
          c.result = some (.ok m) → m ∈ ((machine box).run (start key) es).sent side.other) ∧
    (WsFramedStream.next tagBox (.setKey [7]) [.ok (.text ['h', 'i'])]).2 =
      some (.ok [104, 105]) := by
  refine ⟨fun h => ?_, rfl⟩
  have hideal : (machine tagBox).Meets (IdealAt tagBox [7]) (start [7])
      [.next .host [.ok (.ping []), .ok (.binary [9])]] := by
    refine Machine.meets_cons.mpr ⟨fun e he => ?_, Machine.meets_nil _⟩
    rw [List.mem_singleton.mp he]
    have hnone : tagBox.openBox [9] (getNonce 1) [7] = none := by decide
    exact fun hopen => absurd hnone hopen
  have hsent := h tagBox tagBox_lawful [7] _ (by decide) hideal .host _ List.mem_cons_self [9] rfl
  cases hsent

/-- The client's only frame, behind a ping, reaches the host. -/
def oneMessage : List WsEvent :=
  [.send .client [104, 105],
    .next .host [.ok (.ping []), .ok (.binary (tagBox.sealBox [104, 105] (getNonce 1) [7]))]]

theorem oneMessage_ideal : (machine tagBox).Meets (IdealAt tagBox [7]) (start [7]) oneMessage := by
  refine Machine.meets_cons.mpr ⟨fun e he => ?_, Machine.meets_cons.mpr ⟨fun e he => ?_,
    Machine.meets_nil _⟩⟩
  · rw [List.mem_singleton.mp he]
    trivial
  · rw [List.mem_singleton.mp he]
    exact fun _ => ⟨.client, 0, ⟨[104, 105], rfl, rfl⟩, rfl⟩

/-- The host is handed what the client sealed. -/
theorem next_accepts_oneMessage :
    (((machine tagBox).run (start [7]) oneMessage).calls .host).map
        (fun c => c.result.bind Except.toOption) = [some [104, 105]] ∧
      ((machine tagBox).run (start [7]) oneMessage).link =
        (Link.machine tagBox).run (Link.start [7]) (oneMessage.flatMap WsEvent.frames) :=
  ⟨by decide, (next_accepts tagBox tagBox_lawful [7] oneMessage (by decide) oneMessage_ideal).1⟩

end WsLink

end LibRustdesk
