import LibRustdesk.Framework.LittleEndian

/-!
# The terminal helper's input loop

On Windows a terminal can live in a helper process of `src/server/terminal_helper.rs`. The service
writes messages into a pipe, a header of a type and a length before each payload, and the helper's
input thread reads them back and hands them to the PTY.

* The pipe is what its reads will answer, a list of `Segment`s: it may cut the stream anywhere, be
  interrupted between any two reads, and fail.
* `inputLoop` is the thread, with what the rest of the helper does to it as an `Env`: the `exiting`
  flag as each round loads it, and the writes the PTY refuses.
* `applyMessages` is what the thread is for, over messages rather than bytes.

`inputLoop_eq` says that the loop over the bytes is the loop over the messages, however the pipe
cuts them. The decoder alone has a limit (`MAX_PAYLOAD_SIZE`), and a payload beyond it ends the
thread.
-/

namespace LibRustdesk.Terminal.Helper

open LittleEndian

def MSG_TYPE_DATA : UInt8 := 1
def MSG_TYPE_RESIZE : UInt8 := 2
def MSG_HEADER_SIZE : ℕ := 5
def MAX_PAYLOAD_SIZE : ℕ := 16 * 1024 * 1024

/-! ### The messages -/

def encodeHelperMessage (msgType : UInt8) (payload : Bytes) : Bytes :=
  putU32Le (putU8 [] msgType) (UInt32.ofNat payload.length) ++ payload

def encodeResizeMessage (rows cols : UInt16) : Bytes :=
  encodeHelperMessage MSG_TYPE_RESIZE (putU16Le (putU16Le [] rows) cols)

inductive Message
  | data (payload : Bytes)
  | resize (rows cols : UInt16)
  deriving DecidableEq, Repr

def Message.encode : Message → Bytes
  | .data payload => encodeHelperMessage MSG_TYPE_DATA payload
  | .resize rows cols => encodeResizeMessage rows cols

/-- The bytes the service writes for a list of messages. -/
def stream (msgs : List Message) : Bytes := msgs.flatMap Message.encode

/-! ### Reading the pipe -/

inductive Segment
  | bytes (bs : Bytes) (h : bs ≠ [])
  | interrupted
  | failed
  deriving DecidableEq, Repr

/-- What `read_exact_or_eof` returns, with the bytes it has filled its buffer with. -/
inductive ReadExact
  | full (bs : Bytes)
  | eof
  | error
  deriving DecidableEq, Repr

def ReadExact.prepend (bs : Bytes) : ReadExact → ReadExact
  | .full cs => .full (bs ++ cs)
  | .eof => .eof
  | .error => .error

/-- `read_exact_or_eof` with `n` bytes of the buffer to fill. A read returns no more than there is
room for, and the pipe keeps the rest of the segment. -/
def readExactOrEof : List Segment → ℕ → ReadExact × List Segment
  | pipe, 0 => (.full [], pipe)
  | [], _ + 1 => (.eof, [])
  | .interrupted :: pipe, n + 1 => readExactOrEof pipe (n + 1)
  | .failed :: pipe, _ + 1 => (.error, pipe)
  | .bytes bs _ :: pipe, n + 1 =>
    if h : n + 1 < bs.length then
      (.full (bs.take (n + 1)), .bytes (bs.drop (n + 1)) (by
        rw [ne_eq, List.drop_eq_nil_iff]
        omega) :: pipe)
    else (readExactOrEof pipe (n + 1 - bs.length)).map (ReadExact.prepend bs) id

def size : List Segment → ℕ
  | [] => 0
  | .bytes bs _ :: pipe => bs.length + size pipe
  | .interrupted :: pipe | .failed :: pipe => size pipe

/-- The bytes that reads will see, up to the first failure. -/
def content : List Segment → Bytes
  | [] => []
  | .bytes bs _ :: pipe => bs ++ content pipe
  | .interrupted :: pipe => content pipe
  | .failed :: _ => []

def fails : List Segment → Bool
  | [] => false
  | .bytes _ _ :: pipe | .interrupted :: pipe => fails pipe
  | .failed :: _ => true

def atEnd (pipe : List Segment) : ReadExact := if fails pipe then .error else .eof

theorem size_readExactOrEof {pipe rest : List Segment} {n : ℕ} {bs : Bytes}
    (h : readExactOrEof pipe n = (.full bs, rest)) : n + size rest = size pipe := by
  induction pipe, n using readExactOrEof.induct generalizing bs rest with
  | case1 pipe =>
    simp only [readExactOrEof, Prod.mk.injEq] at h
    rw [← h.2, Nat.zero_add]
  | case2 | case4 => simp [readExactOrEof] at h
  | case3 pipe n ih => exact ih h
  | case5 cs hcs pipe n hlt =>
    simp only [readExactOrEof, hlt, dif_pos, Prod.mk.injEq] at h
    rw [← h.2, size, size, List.length_drop]
    omega
  | case6 cs hcs pipe n hle ih =>
    rw [readExactOrEof, dif_neg hle] at h
    cases hread : readExactOrEof pipe (n + 1 - cs.length) with
    | mk result rest' =>
      rw [hread] at h
      cases result with
      | full ds =>
        have hsize := ih hread
        obtain ⟨-, rfl⟩ := Prod.mk.inj h
        rw [size, ← hsize, id]
        omega
      | eof => cases h
      | error => cases h

/-- **Reads do not depend on the cuts.** What the buffer needs is in the stream, or the stream ends
before it. -/
theorem readExactOrEof_content (pipe : List Segment) (n : ℕ) :
    if n ≤ (content pipe).length then
      ∃ rest, readExactOrEof pipe n = (.full ((content pipe).take n), rest) ∧
        content rest = (content pipe).drop n ∧ atEnd rest = atEnd pipe
    else (readExactOrEof pipe n).1 = atEnd pipe := by
  induction pipe, n using readExactOrEof.induct with
  | case1 pipe =>
    rw [if_pos (Nat.zero_le _)]
    exact ⟨pipe, by rw [readExactOrEof, List.take_zero], rfl, rfl⟩
  | case2 | case4 => exact (if_neg (by simp [content])).mpr rfl
  | case3 pipe n ih => exact ih
  | case5 cs hcs pipe n hlt =>
    have hle : n + 1 ≤ (content (.bytes cs hcs :: pipe)).length := by
      rw [content, List.length_append]
      omega
    rw [if_pos hle, readExactOrEof, dif_pos hlt]
    rw [content, List.take_append_of_le_length (Nat.le_of_lt hlt),
      List.drop_append_of_le_length (Nat.le_of_lt hlt)]
    exact ⟨_, rfl, rfl, rfl⟩
  | case6 cs hcs pipe n hle ih =>
    have hlen : (content (.bytes cs hcs :: pipe)).length = cs.length + (content pipe).length := by
      rw [content, List.length_append]
    have hend : atEnd (.bytes cs hcs :: pipe) = atEnd pipe := rfl
    have htake : cs.take (n + 1) = cs := List.take_of_length_le (Nat.le_of_not_lt hle)
    have hdrop : cs.drop (n + 1) = [] := List.drop_of_length_le (Nat.le_of_not_lt hle)
    rw [readExactOrEof, dif_neg hle, hlen, hend]
    split at ih
    · next hin =>
      obtain ⟨rest, hread, hcontent, hatEnd⟩ := ih
      rw [if_pos (by omega)]
      refine ⟨rest, ?_, ?_, hatEnd⟩
      · rw [hread, content, List.take_append, htake]
        rfl
      · rw [hcontent, content, List.drop_append, hdrop, List.nil_append]
    · next hout =>
      rw [if_neg (by omega), Prod.map_fst, ih]
      unfold atEnd
      split <;> rfl

/-! ### The thread -/

inductive Action
  | write (bs : Bytes)
  | resize (rows cols : UInt16)
  deriving DecidableEq, Repr

inductive Stop
  | exiting
  | eof
  | readError
  | tooLarge
  | ptyError
  | unknownType
  deriving DecidableEq, Repr

/-- What round `n` finds: the flag `exiting`, and, where the PTY refuses the data, how many bytes it
took before. -/
structure Env where
  exiting : ℕ → Bool
  failsAfter : ℕ → Option ℕ

structure Env.Undisturbed (env : Env) : Prop where
  running : ∀ n, env.exiting n = false
  taken : ∀ n, env.failsAfter n = none

/-- The thread does `a` and what comes after it. -/
def doing (a : Action) (r : List Action × Stop) : List Action × Stop := (a :: r.1, r.2)

def ReadExact.stop : ReadExact → Stop
  | .error => .readError
  | _ => .eof

def u16FromLeBytes (bs : Bytes) : UInt16 := UInt16.ofNat (assemble (bs.take 2))

/-- The input thread from round `n` on. -/
def inputLoop (env : Env) (n : ℕ) (pipe : List Segment) : List Action × Stop :=
  if env.exiting n then ([], .exiting)
  else
    match _hheader : readExactOrEof pipe MSG_HEADER_SIZE with
    | (.full header, rest) =>
      let msgType := header.headD 0
      let payloadLen := assemble (header.drop 1)
      if payloadLen > MAX_PAYLOAD_SIZE then ([], .tooLarge)
      else
        match _hpayload : readExactOrEof rest payloadLen with
        | (.full payload, rest') =>
          if msgType = MSG_TYPE_DATA then
            match env.failsAfter n with
            | some k => ([.write (payload.take k)], .ptyError)
            | none => doing (.write payload) (inputLoop env (n + 1) rest')
          else if msgType = MSG_TYPE_RESIZE then
            -- a shorter payload is skipped
            if payloadLen ≥ 4 then
              doing (.resize (u16FromLeBytes payload) (u16FromLeBytes (payload.drop 2)))
                (inputLoop env (n + 1) rest')
            else inputLoop env (n + 1) rest'
          else ([], .unknownType)
        | (result, _) => ([], result.stop)
    | (result, _) => ([], result.stop)
termination_by size pipe
decreasing_by
  all_goals
    have h1 := size_readExactOrEof _hheader
    have h2 := size_readExactOrEof _hpayload
    unfold MSG_HEADER_SIZE at h1
    omega

/-! ### The thread, over messages -/

/-- The payload of the message, whose length is in the header. -/
def Message.payload : Message → Bytes
  | .data payload => payload
  | .resize rows cols => putU16Le (putU16Le [] rows) cols

def Message.Fits (m : Message) : Prop := m.payload.length ≤ MAX_PAYLOAD_SIZE

instance (m : Message) : Decidable m.Fits := inferInstanceAs (Decidable (_ ≤ _))

def Message.action : Message → Action
  | .data payload => .write payload
  | .resize rows cols => .resize rows cols

/-- Round `n` with the message `m`, before the rounds that do `next`. -/
def Message.apply (env : Env) (n : ℕ) (m : Message) (next : List Action × Stop) :
    List Action × Stop :=
  if env.exiting n then ([], .exiting)
  else if m.Fits then
    match m with
    | .data payload =>
      match env.failsAfter n with
      | some k => ([.write (payload.take k)], .ptyError)
      | none => doing (.write payload) next
    | .resize rows cols => doing (.resize rows cols) next
  else ([], .tooLarge)

/-- What the thread is for: to apply the messages one after another. `last` is what ends it when
they have all been applied. -/
def applyMessages (env : Env) (last : Stop) : ℕ → List Message → List Action × Stop
  | n, [] => ([], if env.exiting n then .exiting else last)
  | n, m :: msgs => m.apply env n (applyMessages env last (n + 1) msgs)

/-! ### The bytes and the messages -/

def Message.msgType : Message → UInt8
  | .data _ => MSG_TYPE_DATA
  | .resize _ _ => MSG_TYPE_RESIZE

theorem Message.encode_eq (m : Message) : m.encode = encodeHelperMessage m.msgType m.payload := by
  cases m with
  | data | resize => rfl

theorem u16FromLeBytes_putU16Le (v : UInt16) (bs : Bytes) :
    u16FromLeBytes (putU16Le [] v ++ bs) = v := by
  have htake : (putU16Le [] v ++ bs).take 2 = putU16Le [] v := rfl
  rw [u16FromLeBytes, htake, assemble_u16, UInt16.ofNat_toNat]

theorem exists_header (msgType : UInt8) {payload : Bytes} (hlen : payload.length < 2 ^ 32) :
    ∃ header, encodeHelperMessage msgType payload = header ++ payload ∧
      header.length = MSG_HEADER_SIZE ∧ header.headD 0 = msgType ∧
      assemble (header.drop 1) = payload.length := by
  refine ⟨putU32Le (putU8 [] msgType) (UInt32.ofNat payload.length), rfl, rfl, rfl, ?_⟩
  have hdrop : (putU32Le (putU8 [] msgType) (UInt32.ofNat payload.length)).drop 1 =
      putU32Le [] (UInt32.ofNat payload.length) := rfl
  rw [hdrop, assemble_u32, UInt32.toNat_ofNat', Nat.mod_eq_of_lt hlen]

variable {pipe : List Segment}

theorem readExactOrEof_append {a b : Bytes} (h : content pipe = a ++ b) :
    ∃ rest, readExactOrEof pipe a.length = (.full a, rest) ∧ content rest = b ∧
      atEnd rest = atEnd pipe := by
  have hread := readExactOrEof_content pipe a.length
  rw [h, List.length_append, if_pos (Nat.le_add_right _ _),
    List.take_left', List.drop_left'] at hread
  · exact hread
  · rfl
  · rfl

theorem readExactOrEof_header_nil (h : content pipe = []) :
    (readExactOrEof pipe MSG_HEADER_SIZE).1 = atEnd pipe := by
  have hread := readExactOrEof_content pipe MSG_HEADER_SIZE
  rw [h] at hread
  exact hread

theorem inputLoop_step (env : Env) (n : ℕ) {m : Message} {b : Bytes}
    (hlen : m.payload.length < 2 ^ 32) (h : content pipe = m.encode ++ b) :
    ∃ rest, content rest = b ∧ atEnd rest = atEnd pipe ∧
      inputLoop env n pipe = m.apply env n (inputLoop env (n + 1) rest) := by
  obtain ⟨header, hencode, hheader, htype, hlength⟩ := exists_header m.msgType hlen
  rw [m.encode_eq, hencode, List.append_assoc] at h
  obtain ⟨mid, hread1, hmid, hend1⟩ := readExactOrEof_append h
  obtain ⟨rest, hread2, hrest, hend2⟩ := readExactOrEof_append hmid
  rw [hheader] at hread1
  refine ⟨rest, hrest, hend2.trans hend1, ?_⟩
  rw [inputLoop]
  unfold Message.apply
  split
  · rfl
  split
  next header' mid' hread =>
    obtain ⟨hh, rfl⟩ := Prod.mk.inj (hread1.symm.trans hread)
    obtain rfl := ReadExact.full.inj hh
    rw [htype]
    by_cases hfits : m.Fits
    · have hnot : ¬ assemble (header.drop 1) > MAX_PAYLOAD_SIZE := by
        rw [hlength]
        exact Nat.not_lt.mpr hfits
      rw [if_neg hnot, if_pos hfits]
      split
      next payload' rest' hread =>
        rw [hlength] at hread
        obtain ⟨hp, rfl⟩ := Prod.mk.inj (hread2.symm.trans hread)
        obtain rfl := ReadExact.full.inj hp
        cases m with
        | data payload =>
          rw [if_pos (show (Message.data payload).msgType = MSG_TYPE_DATA from rfl)]
          rfl
        | resize rows cols =>
          have htype : (Message.resize rows cols).msgType = MSG_TYPE_RESIZE := rfl
          have hdata : ¬ MSG_TYPE_RESIZE = MSG_TYPE_DATA := by decide
          have hfour : assemble (header.drop 1) ≥ 4 := hlength.ge
          rw [htype, if_neg hdata, if_pos rfl, if_pos hfour]
          have hrows : u16FromLeBytes (Message.resize rows cols).payload = rows :=
            u16FromLeBytes_putU16Le rows (putU16Le [] cols)
          have hcols : u16FromLeBytes ((Message.resize rows cols).payload.drop 2) = cols :=
            u16FromLeBytes_putU16Le cols []
          rw [hrows, hcols]
      next hne hread =>
        rw [hlength, hread2] at hread
        obtain ⟨rfl, -⟩ := Prod.mk.inj hread
        exact absurd rfl (hne _)
    · have hbig : assemble (header.drop 1) > MAX_PAYLOAD_SIZE := by
        rw [hlength]
        exact Nat.lt_of_not_le hfits
      rw [if_pos hbig, if_neg hfits]
  next hne hread =>
    rw [hread1] at hread
    obtain ⟨rfl, -⟩ := Prod.mk.inj hread
    exact absurd rfl (hne _)

theorem inputLoop_eq (env : Env) {msgs : List Message}
    (hlen : ∀ m ∈ msgs, m.payload.length < 2 ^ 32) :
    ∀ (n : ℕ) {pipe : List Segment}, content pipe = stream msgs →
      inputLoop env n pipe = applyMessages env (atEnd pipe).stop n msgs := by
  induction msgs with
  | nil =>
    intro n pipe h
    have hread := readExactOrEof_header_nil h
    rw [inputLoop, applyMessages]
    split
    · rfl
    · split
      next heq =>
        rw [heq] at hread
        unfold atEnd at hread
        split at hread <;> cases hread
      next result rest _ heq =>
        rw [heq] at hread
        rw [← hread]
  | cons m msgs ih =>
    intro n pipe h
    obtain ⟨hm, hmsgs⟩ := List.forall_mem_cons.mp hlen
    obtain ⟨rest, hrest, hend, hstep⟩ := inputLoop_step env n hm h
    rw [hstep, applyMessages, ih hmsgs (n + 1) hrest, hend]

theorem applyMessages_undisturbed {env : Env} (henv : env.Undisturbed) (last : Stop)
    (msgs : List Message) (n : ℕ) :
    applyMessages env last n msgs =
      ((msgs.takeWhile fun m => m.Fits).map Message.action,
        if ∀ m ∈ msgs, m.Fits then last else .tooLarge) := by
  induction msgs generalizing n with
  | nil =>
    rw [applyMessages, henv.running, if_pos (fun m hm => (List.not_mem_nil hm).elim)]
    rfl
  | cons m msgs ih =>
    have happly (next : List Action × Stop) :
        m.apply env n next = if m.Fits then doing m.action next else ([], .tooLarge) := by
      unfold Message.apply
      rw [henv.running, henv.taken, if_neg Bool.false_ne_true]
      cases m with
      | data payload => rfl
      | resize rows cols => rfl
    rw [applyMessages, happly]
    by_cases hm : m.Fits
    · have hall : (∀ x ∈ m :: msgs, x.Fits) ↔ ∀ x ∈ msgs, x.Fits := by
        rw [List.forall_mem_cons]
        exact and_iff_right hm
      rw [if_pos hm, List.takeWhile_cons, decide_eq_true hm, ih (n + 1)]
      simp only [hall]
      rfl
    · have hall : ¬ ∀ x ∈ m :: msgs, x.Fits := fun h => hm (h m List.mem_cons_self)
      rw [if_neg hm, if_neg hall, List.takeWhile_cons, decide_eq_false hm]
      rfl

/-- **What reaches the PTY.** The messages up to the first payload beyond the limit, whole and in
order, however the pipe cuts the bytes; and the thread ends there, or where the pipe does. -/
theorem inputLoop_applies {env : Env} (henv : env.Undisturbed) {msgs : List Message}
    (hlen : ∀ m ∈ msgs, m.payload.length < 2 ^ 32) {pipe : List Segment}
    (hpipe : content pipe = stream msgs) :
    inputLoop env 0 pipe =
      ((msgs.takeWhile fun m => m.payload.length ≤ MAX_PAYLOAD_SIZE).map Message.action,
        if ∀ m ∈ msgs, m.payload.length ≤ MAX_PAYLOAD_SIZE then (atEnd pipe).stop else .tooLarge) :=
  (inputLoop_eq env hlen 0 hpipe).trans (applyMessages_undisturbed henv _ msgs 0)

def Env.quiet : Env := ⟨fun _ => false, fun _ => none⟩

theorem Env.quiet_undisturbed : Env.quiet.Undisturbed := ⟨fun _ => rfl, fun _ => rfl⟩

/-- A pipe that gives one byte to each read, and interrupts before each. -/
def oneByOne (bs : Bytes) : List Segment :=
  bs.flatMap fun b => [.interrupted, .bytes [b] (List.cons_ne_nil b [])]

theorem content_oneByOne (bs : Bytes) : content (oneByOne bs) = bs := by
  induction bs with
  | nil => rfl
  | cons b bs ih => exact congrArg (b :: ·) ih

/-- Data, a resize and empty data, byte by byte. -/
theorem inputLoop_applies_oneByOne :
    inputLoop .quiet 0 (oneByOne (stream [.data [104, 105], .resize 24 80, .data []])) =
      ([.write [104, 105], .resize 24 80, .write []], .eof) := by
  rw [inputLoop_applies Env.quiet_undisturbed (by decide) (content_oneByOne _)]
  decide

/-- A payload one byte beyond the limit is not written, nor is what comes after it. -/
theorem inputLoop_tooLarge :
    inputLoop .quiet 0 (oneByOne (stream
        [.data (List.replicate (16 * 1024 * 1024 + 1) 0), .data [104, 105]])) = ([], .tooLarge) ∧
      ([.data (List.replicate (16 * 1024 * 1024 + 1) 0), .data [104, 105]] : List Message).map
        Message.action ≠ [] := by
  have hlong : ¬ (Message.data (List.replicate (16 * 1024 * 1024 + 1) 0)).Fits := by
    unfold Message.Fits Message.payload MAX_PAYLOAD_SIZE
    rw [List.length_replicate]
    decide
  have hlen : ∀ m ∈ ([.data (List.replicate (16 * 1024 * 1024 + 1) 0), .data [104, 105]] :
      List Message), m.payload.length < 2 ^ 32 := by
    rw [List.forall_mem_cons]
    refine ⟨?_, by decide⟩
    unfold Message.payload
    rw [List.length_replicate]
    decide
  refine ⟨?_, List.cons_ne_nil _ _⟩
  rw [inputLoop_eq .quiet hlen 0 (content_oneByOne _), applyMessages,
    Message.apply.eq_def, if_neg hlong]
  rfl

end LibRustdesk.Terminal.Helper
