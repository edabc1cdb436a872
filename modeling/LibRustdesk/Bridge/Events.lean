import LibRustdesk.Framework.Json
import LibRustdesk.Framework.Machine
import Mathlib.Data.Int.Notation
import Mathlib.Data.List.Forall2
import Mathlib.Data.List.Induction

/-!
# The bridge's event queues

The two queues through which the native core hands events to the application: `queue_event` and
`drain_connect_events_json` of `rustdesk-master/src/harmony_bridge/core.rs`, their copies
`queue_session_event` and `drain_session_events_json` of `native_rust_core/src/bridge_state.rs`,
and `to_owned_c_string` of `bridge_api.rs`, which hands a drained text over as a C string.

An event is formatted into JSON text when it is queued, by hand: `escape_json` replaces the
backslash, the quote, the line feed and the carriage return, and leaves every other character as
it is. So a tab, an escape character or a NUL in a chat message or a terminal title ends up bare
in a string literal.

* `state_run` — a queue holds the texts of the last fifty events since it was last emptied.
* `drain_faithful_iff` — a drained text is a JSON array that decodes to those events exactly when
  none of them holds a control character other than line feed and carriage return; one such
  character makes the whole array unreadable.

Strings are lists of characters and the clock is part of the event.
-/

namespace LibRustdesk

namespace Bridge

open Json

/-! ### Formatting an event -/

/-- `str::replace` of one character. -/
def replace (value : List Char) (pat : Char) (text : List Char) : List Char :=
  value.flatMap fun c => if c = pat then text else [c]

def escapeJson (value : List Char) : List Char :=
  let value := replace value '\\' ['\\', '\\']
  let value := replace value '"' ['\\', '"']
  let value := replace value '\n' ['\\', 'n']
  replace value '\r' ['\\', 'r']

/-- `char::is_whitespace`: the `White_Space` property. -/
def isWhitespace (c : Char) : Bool :=
  ('\t' ≤ c && c ≤ '\r') || c == ' ' || c == '\u0085' || c == '\u00a0' || c == '\u1680' ||
    ('\u2000' ≤ c && c ≤ '\u200a') || c == '\u2028' || c == '\u2029' || c == '\u202f' ||
    c == '\u205f' || c == '\u3000'

def trim (value : List Char) : List Char :=
  ((value.dropWhile isWhitespace).reverse.dropWhile isWhitespace).reverse

/-- The clock in milliseconds since the epoch, cast to `i64`; zero where it is before the epoch. -/
def currentTimestampMillis : Option ℕ → Int64
  | some millis => Int64.ofNat millis
  | none => 0

def displayInt (value : ℤ) : List Char :=
  if value < 0 then '-' :: Nat.toDigits 10 value.natAbs else Nat.toDigits 10 value.natAbs

structure Event where
  kind : List Char
  detail : List Char
  peerId : List Char
  timestamp : Int64

/-- The `format!` of `queue_event` and of `queue_session_event`. -/
def formatEvent (event : Event) : List Char :=
  "\x7b\"kind\":\"".toList ++ escapeJson event.kind ++
    "\",\"detail\":\"".toList ++ escapeJson event.detail ++
    "\",\"peerId\":\"".toList ++ escapeJson event.peerId ++
    "\",\"timestamp\":".toList ++ displayInt event.timestamp.toInt ++ ['\x7d']

/-! ### The queues -/

def maxEvents : ℕ := 50

/-- Pushes a text and drops the oldest beyond `maxEvents`. -/
def pushEvent (events : List (List Char)) (event : List Char) : List (List Char) :=
  let events := events ++ [event]
  if events.length > maxEvents then
    let excess := events.length - maxEvents
    events.drop excess
  else events

def drainEventsJson (events : List (List Char)) : List (List Char) × List Char :=
  ([], '[' :: ([','].intercalate events ++ [']']))

/-- `ConnectState::events` and `SESSION_EVENTS`. -/
structure State where
  connectEvents : List (List Char)
  sessionEvents : List (List Char)

def queueEvent (s : State) (kind detail peerId : List Char) (now : Option ℕ) : State :=
  { s with connectEvents :=
      pushEvent s.connectEvents (formatEvent ⟨kind, detail, peerId, currentTimestampMillis now⟩) }

def drainConnectEventsJson (s : State) : State × List Char :=
  let (events, text) := drainEventsJson s.connectEvents
  ({ s with connectEvents := events }, text)

def clearConnectEvents (s : State) : State := { s with connectEvents := [] }

def queueSessionEvent (s : State) (kind detail peerId : List Char) (now : Option ℕ) : State :=
  { s with sessionEvents :=
      pushEvent s.sessionEvents (formatEvent ⟨kind, detail, peerId, currentTimestampMillis now⟩) }

def drainSessionEventsJson (s : State) : State × List Char :=
  let (events, text) := drainEventsJson s.sessionEvents
  ({ s with sessionEvents := events }, text)

/-- `CString::new(value).expect(..)`: `none` is the panic on an interior NUL byte. -/
def toOwnedCString (value : List Char) : Option (List UInt8) :=
  let bytes := value.flatMap String.utf8EncodeChar
  if 0 ∈ bytes then none else some (bytes ++ [0])

/-! ### Runs -/

inductive Queue
  | connect
  | session
  deriving DecidableEq, Repr

def State.events (s : State) : Queue → List (List Char)
  | .connect => s.connectEvents
  | .session => s.sessionEvents

/-- The calls on the queues, with the clock they read. -/
inductive Call
  | queue (q : Queue) (kind detail peerId : List Char) (now : Option ℕ)
  | drain (q : Queue)
  | clearConnectEvents

def start : State := ⟨[], []⟩

/-- The queues under any sequence of calls; a drain puts out its text. -/
def machine : Machine State Call (List Char) where
  step
    | s, .queue .connect kind detail peerId now => (queueEvent s kind detail peerId now, [])
    | s, .queue .session kind detail peerId now => (queueSessionEvent s kind detail peerId now, [])
    | s, .drain .connect =>
      let (s, text) := drainConnectEventsJson s
      (s, [text])
    | s, .drain .session =>
      let (s, text) := drainSessionEventsJson s
      (s, [text])
    | s, .clearConnectEvents => (clearConnectEvents s, [])

/-- The events in a queue after one more call, if queues were unbounded. -/
def Call.queued (q : Queue) (events : List Event) : Call → List Event
  | .queue q' kind detail peerId now =>
    if q' = q then events ++ [⟨kind, detail, peerId, currentTimestampMillis now⟩] else events
  | .drain q' => if q' = q then [] else events
  | .clearConnectEvents => if q = .connect then [] else events

/-- The events queued since a queue was last emptied. -/
def queued (q : Queue) (calls : List Call) : List Event :=
  calls.foldl (Call.queued q) []

/-- The last `n` elements of a list. -/
def lastN {α : Type} (n : ℕ) (l : List α) : List α := l.drop (l.length - n)

def retained (q : Queue) (calls : List Call) : List Event := lastN maxEvents (queued q calls)

/-! ### What a queue holds -/

theorem lastN_snoc {α : Type} {n : ℕ} (hn : 0 < n) (l : List α) (a : α) :
    lastN n (lastN n l ++ [a]) = lastN n (l ++ [a]) := by
  unfold lastN
  simp only [List.length_append, List.length_drop, List.length_singleton]
  rw [List.drop_append_of_le_length (by rw [List.length_drop]; omega), List.drop_drop,
    List.drop_append_of_le_length (by omega)]
  congr 2
  omega

theorem pushEvent_eq_lastN (events : List (List Char)) (event : List Char) :
    pushEvent events event = lastN maxEvents (events ++ [event]) := by
  simp only [pushEvent, lastN]
  split
  · rfl
  · next h => rw [Nat.sub_eq_zero_of_le (Nat.not_lt.mp h), List.drop_zero]

theorem map_lastN {α β : Type} (f : α → β) (n : ℕ) (l : List α) :
    (lastN n l).map f = lastN n (l.map f) := by
  rw [lastN, lastN, List.map_drop, List.length_map]

theorem pushEvent_lastN (events : List Event) (event : Event) :
    pushEvent ((lastN maxEvents events).map formatEvent) (formatEvent event)
      = (lastN maxEvents (events ++ [event])).map formatEvent := by
  rw [pushEvent_eq_lastN, map_lastN, map_lastN, lastN_snoc (by decide), List.map_append]
  rfl

variable {events : List Event}

theorem events_next {s : State} {q : Queue}
    (h : s.events q = (lastN maxEvents events).map formatEvent) (c : Call) :
    (machine.next s c).events q = (lastN maxEvents (c.queued q events)).map formatEvent := by
  cases c with
  | queue q' kind detail peerId now =>
    by_cases hq : q' = q
    · subst hq
      rw [Call.queued, if_pos rfl, ← pushEvent_lastN, ← h]
      cases q' <;> rfl
    · rw [Call.queued, if_neg hq, ← h]
      cases q' <;> cases q <;> first | rfl | exact absurd rfl hq
  | drain q' =>
    by_cases hq : q' = q
    · subst hq
      rw [Call.queued, if_pos rfl]
      cases q' <;> rfl
    · rw [Call.queued, if_neg hq, ← h]
      cases q' <;> cases q <;> first | rfl | exact absurd rfl hq
  | clearConnectEvents =>
    cases q with
    | connect => rfl
    | session => exact h

theorem state_run (q : Queue) (calls : List Call) :
    (machine.run start calls).events q = (retained q calls).map formatEvent := by
  induction calls using List.reverseRecOn with
  | nil => cases q <;> rfl
  | append_singleton calls c ih =>
    rw [Machine.run_append, Machine.run_cons, Machine.run_nil, retained, queued,
      List.foldl_append]
    exact events_next ih c

/-! ### What a drained text says -/

/-- The characters `escape_json` leaves readable. -/
def Readable (c : Char) : Prop := 0x20 ≤ c.toNat ∨ c = '\n' ∨ c = '\r'

def Event.Readable (e : Event) : Prop :=
  (∀ c ∈ e.kind, Bridge.Readable c) ∧ (∀ c ∈ e.detail, Bridge.Readable c) ∧
    ∀ c ∈ e.peerId, Bridge.Readable c

def Describes (v : Json) (e : Event) : Prop :=
  (∃ ms, v = .obj ms) ∧ v.member "kind".toList = some (.str e.kind) ∧
    v.member "detail".toList = some (.str e.detail) ∧
      v.member "peerId".toList = some (.str e.peerId)

/-- A text is a JSON array of one object for each event, decodes to what was queued and crosses
the C boundary. -/
structure Faithful (events : List Event) (text : List Char) : Prop where
  array : ∃ vs, Json.parse text = some (.arr vs) ∧ List.Forall₂ Describes vs events
  noNul : '\x00' ∉ text
  cString : toOwnedCString text ≠ none

/-! ### Escaping -/

/-- What `escape_json` makes of one character. -/
def escapeChar (c : Char) : List Char :=
  if c = '\\' then ['\\', '\\']
  else if c = '"' then ['\\', '"']
  else if c = '\n' then ['\\', 'n']
  else if c = '\r' then ['\\', 'r']
  else [c]

theorem escapeJson_eq_flatMap (value : List Char) :
    escapeJson value = value.flatMap escapeChar := by
  simp only [escapeJson, replace, List.flatMap_assoc]
  congr 1
  funext c
  unfold escapeChar
  split_ifs with h1 h2 h3 h4
  · rfl
  · subst h2; rfl
  · subst h3; rfl
  · subst h4; rfl
  · simp [h2, h3, h4]

theorem escapeChar_reads {c : Char} (hc : Readable c) : Reads stringChar (escapeChar c) c := by
  unfold escapeChar
  split_ifs with h1 h2 h3 h4
  · subst h1; exact fun _ => rfl
  · subst h2; exact fun _ => rfl
  · subst h3; exact fun _ => rfl
  · subst h4; exact fun _ => rfl
  · exact stringChar_reads (by rcases hc with hc | hc | hc; exacts [hc, absurd hc h3, absurd hc h4])
      h2 h1

theorem escapeChar_control {c : Char} (hc : ¬ Readable c) :
    c.toNat < 0x20 ∧ escapeChar c = [c] := by
  have hlt : c.toNat < 0x20 := Nat.lt_of_not_le fun h => hc (Or.inl h)
  refine ⟨hlt, ?_⟩
  unfold escapeChar
  rw [if_neg, if_neg, if_neg, if_neg]
  · exact fun h => hc (Or.inr (Or.inr h))
  · exact fun h => hc (Or.inr (Or.inl h))
  · rintro rfl
    exact absurd hlt (by decide)
  · rintro rfl
    exact absurd hlt (by decide)

def quoted (value : List Char) : List Char := '"' :: (escapeJson value ++ ['"'])

variable {value : List Char}

theorem quoted_reads (h : ∀ c ∈ value, Readable c) : Reads string (quoted value) value := by
  rw [quoted, escapeJson_eq_flatMap]
  exact string_reads fun c hc => escapeChar_reads (h c hc)

theorem quoted_refuses (h : ¬ ∀ c ∈ value, Readable c) : Refuses string (quoted value) := by
  rw [quoted, escapeJson_eq_flatMap]
  push Not at h
  obtain ⟨c, hc, hbad⟩ := h
  refine (string_refuses (fun d _ => ?_) ⟨c, hc, escapeChar_control hbad⟩).append ['"']
  by_cases hd : Readable d
  · exact Or.inl (escapeChar_reads hd)
  · exact Or.inr (escapeChar_control hd)

/-! ### The text of an event -/

theorem displayInt_reads (value : ℤ) (n : ℕ) :
    ReadsBefore (Json.value (n + 1)) '\x7d' (displayInt value) (.num (displayInt value)) := by
  have hdigits : ∀ c ∈ Nat.toDigits 10 value.natAbs, c.isDigit = true :=
    fun c hc => Nat.isDigit_of_mem_toDigits (by omega) (by omega) hc
  have hstop : EndsNumber '\x7d' := by unfold EndsNumber; decide
  unfold displayInt
  split
  · exact value_number (number_neg_reads hdigits Nat.toDigits_ne_nil (toDigits_head _) hstop)
      (Or.inr rfl) n
  · exact value_toDigits _ hstop n

theorem formatEvent_eq (e : Event) :
    formatEvent e = '\x7b' :: (quoted "kind".toList ++ ':' :: (quoted e.kind ++ ',' ::
      (quoted "detail".toList ++ ':' :: (quoted e.detail ++ ',' ::
        (quoted "peerId".toList ++ ':' :: (quoted e.peerId ++ ',' ::
          (quoted "timestamp".toList ++ ':' :: (displayInt e.timestamp.toInt ++
            ['\x7d'])))))))) := by
  have hkind : "\x7b\"kind\":\"".toList = '\x7b' :: (quoted "kind".toList ++ [':', '"']) := by
    decide +kernel
  have hnext : "\",\"detail\":\"".toList = '"' :: ',' :: (quoted "detail".toList ++ [':', '"']) ∧
      "\",\"peerId\":\"".toList = '"' :: ',' :: (quoted "peerId".toList ++ [':', '"']) ∧
        "\",\"timestamp\":".toList = '"' :: ',' :: (quoted "timestamp".toList ++ [':']) := by
    decide +kernel
  unfold formatEvent
  simp only [hkind, hnext.1, hnext.2.1, hnext.2.2, quoted, List.append_assoc, List.cons_append,
    List.nil_append]

def Event.json (e : Event) : Json :=
  .obj [("kind".toList, .str e.kind), ("detail".toList, .str e.detail),
    ("peerId".toList, .str e.peerId), ("timestamp".toList, .num (displayInt e.timestamp.toInt))]

theorem Event.json_describes (e : Event) : Describes e.json e :=
  ⟨⟨_, rfl⟩, rfl, rfl, rfl⟩

theorem key_reads (key : String) (h : key.toList.all fun c => 0x20 ≤ c.toNat) :
    Reads string (quoted key.toList) key.toList :=
  quoted_reads fun c hc => Or.inl (of_decide_eq_true (List.all_eq_true.mp h c hc))

theorem kind_reads : Reads string (quoted "kind".toList) "kind".toList :=
  key_reads "kind" (by decide)

theorem detail_reads : Reads string (quoted "detail".toList) "detail".toList :=
  key_reads "detail" (by decide)

theorem peerId_reads : Reads string (quoted "peerId".toList) "peerId".toList :=
  key_reads "peerId" (by decide)

theorem timestamp_reads : Reads string (quoted "timestamp".toList) "timestamp".toList :=
  key_reads "timestamp" (by decide)

theorem formatEvent_reads {e : Event} (h : e.Readable) {n : ℕ} (hn : 6 ≤ n) :
    Reads (Json.value n) (formatEvent e) e.json := by
  obtain ⟨m, rfl⟩ := Nat.exists_eq_add_of_le' hn
  rw [formatEvent_eq]
  have hts := members_last timestamp_reads (displayInt_reads e.timestamp.toInt m)
  have hpeer := members_cons peerId_reads ((value_string (quoted_reads h.2.2) _).before _) hts
  have hdetail := members_cons detail_reads ((value_string (quoted_reads h.2.1) _).before _) hpeer
  have hkind := members_cons kind_reads ((value_string (quoted_reads h.1) _).before _) hdetail
  exact value_obj kind_reads hkind

theorem formatEvent_refuses {e : Event} (h : ¬ e.Readable) (n : ℕ) :
    Refuses (Json.value n) (formatEvent e) := by
  rw [formatEvent_eq]
  refine value_obj_refuses kind_reads (fun n => ?_) n
  -- the first of the three strings that is not readable stops the reader
  by_cases hk : ∀ c ∈ e.kind, Readable c
  · refine members_refuses_tail kind_reads (quoted_reads hk) (fun n => ?_) n
    by_cases hd : ∀ c ∈ e.detail, Readable c
    · refine members_refuses_tail detail_reads (quoted_reads hd) (fun n => ?_) n
      have hp : ¬ ∀ c ∈ e.peerId, Readable c := fun hp => h ⟨hk, hd, hp⟩
      exact members_refuses peerId_reads
        (fun n => (value_string_refuses (quoted_refuses hp) n).append _) n
    · exact members_refuses detail_reads
        (fun n => (value_string_refuses (quoted_refuses hd) n).append _) n
  · exact members_refuses kind_reads
      (fun n => (value_string_refuses (quoted_refuses hk) n).append _) n

/-! ### NUL -/

theorem zero_notMem_utf8EncodeChar {c : Char} (hc : c ≠ '\x00') :
    (0 : UInt8) ∉ String.utf8EncodeChar c := by
  have hv : c.val.toNat ≠ 0 := by
    intro h
    exact hc (Char.ext (UInt32.toNat_inj.mp h))
  have hne : ∀ n, n % 256 ≠ 0 → (0 : UInt8) ≠ UInt8.ofNat n := by
    intro n hn h
    exact hn (by rw [← UInt8.toNat_ofNat', ← h]; rfl)
  unfold String.utf8EncodeChar
  simp only
  split_ifs with h1 h2 h3 <;> simp only [List.mem_cons, List.not_mem_nil, or_false, not_or]
  · exact hne _ (by omega)
  · exact ⟨hne _ (by omega), hne _ (by omega)⟩
  · exact ⟨hne _ (by omega), hne _ (by omega), hne _ (by omega)⟩
  · exact ⟨hne _ (by omega), hne _ (by omega), hne _ (by omega), hne _ (by omega)⟩

theorem toOwnedCString_ne_none {text : List Char} (h : '\x00' ∉ text) :
    toOwnedCString text ≠ none := by
  have hbytes : (0 : UInt8) ∉ text.flatMap String.utf8EncodeChar := by
    rw [List.mem_flatMap]
    rintro ⟨c, hc, h0⟩
    exact zero_notMem_utf8EncodeChar (by rintro rfl; exact h hc) h0
  simp only [toOwnedCString, if_neg hbytes, ne_eq, reduceCtorEq, not_false_eq_true]

theorem nul_notMem_escapeJson (h : ∀ c ∈ value, Readable c) : '\x00' ∉ escapeJson value := by
  rw [escapeJson_eq_flatMap, List.mem_flatMap]
  rintro ⟨c, hc, h0⟩
  have hread := h c hc
  unfold escapeChar at h0
  split_ifs at h0
  iterate 4 exact absurd h0 (by decide)
  obtain rfl := List.mem_singleton.mp h0
  exact absurd hread (by unfold Readable; decide)

theorem nul_notMem_displayInt (value : ℤ) : '\x00' ∉ displayInt value := by
  have hdigits : '\x00' ∉ Nat.toDigits 10 value.natAbs := fun h =>
    absurd (Nat.isDigit_of_mem_toDigits (by omega) (by omega) h) (by decide)
  unfold displayInt
  split
  · exact fun h => (List.mem_cons.mp h).elim (by decide) hdigits
  · exact hdigits

theorem nul_notMem_formatEvent {e : Event} (h : e.Readable) : '\x00' ∉ formatEvent e := by
  have h1 := nul_notMem_escapeJson h.1
  have h2 := nul_notMem_escapeJson h.2.1
  have h3 := nul_notMem_escapeJson h.2.2
  have h4 := nul_notMem_displayInt e.timestamp.toInt
  unfold formatEvent
  simp only [List.mem_append, h1, h2, h3, h4, or_false]
  decide

theorem mem_intercalate {α : Type} {sep : List α} {a : α} {ls : List (List α)}
    (h : a ∈ sep.intercalate ls) : a ∈ sep ∨ ∃ l ∈ ls, a ∈ l := by
  induction ls with
  | nil => cases h
  | cons l ls ih =>
    cases ls with
    | nil => exact Or.inr ⟨l, List.mem_singleton_self l, by simpa [List.intercalate] using h⟩
    | cons l' ls =>
      have h' : a ∈ l ∨ a ∈ sep ∨ a ∈ sep.intercalate (l' :: ls) := by
        simpa [List.intercalate] using h
      rcases h' with h | h | h
      · exact Or.inr ⟨l, List.mem_cons_self, h⟩
      · exact Or.inl h
      · exact (ih h).imp_right fun ⟨l₁, hl, ha⟩ => ⟨l₁, List.mem_cons_of_mem l hl, ha⟩

/-! ### The drained array -/

/-- The drained text of a queue that holds the texts of `events`. -/
def drainText (events : List Event) : List Char :=
  (drainEventsJson (events.map formatEvent)).2

theorem length_intercalate_le (events : List Event) :
    6 * events.length ≤ ([','].intercalate (events.map formatEvent)).length := by
  induction events with
  | nil => exact Nat.zero_le _
  | cons e es ih =>
    have he : 6 ≤ (formatEvent e).length := by
      rw [formatEvent_eq]
      simp only [List.length_cons, List.length_append]
      omega
    cases es with
    | nil => simpa [List.intercalate] using he
    | cons e' es =>
      simp [List.intercalate] at ih ⊢
      omega

theorem drainText_cons (e : Event) (es : List Event) :
    ∃ t, [','].intercalate ((e :: es).map formatEvent) ++ [']'] = '\x7b' :: t := by
  cases es with
  | nil | cons => exact ⟨_, by rw [List.map_cons, formatEvent_eq]; rfl⟩

theorem drainText_parse (h : ∀ e ∈ events, e.Readable) :
    Json.parse (drainText events) = some (.arr (events.map Event.json)) := by
  cases events with
  | nil => exact parse_arr_nil
  | cons e es =>
    obtain ⟨t, ht⟩ := drainText_cons e es
    have hlen := length_intercalate_le (e :: es)
    have htlen := congrArg List.length ht
    rw [List.length_append, List.length_singleton, List.length_cons] at htlen
    have hread := elements_intercalate (f := formatEvent) (g := Event.json) (m := 6)
      (List.cons_ne_nil e es) (fun a ha n hn => formatEvent_reads (h a ha) hn) (n := t.length + 2)
      (by rw [List.length_cons] at hlen ⊢; omega)
    rw [ht] at hread
    change Json.parse ('[' :: ([','].intercalate ((e :: es).map formatEvent) ++ [']'])) = _
    rw [ht]
    exact parse_arr (by decide) (by decide) hread

theorem drainText_refused (h : ¬ ∀ e ∈ events, e.Readable) :
    Json.parse (drainText events) = none := by
  push Not at h
  obtain ⟨b, hb, hbad⟩ := h
  cases events with
  | nil => cases hb
  | cons e es =>
    obtain ⟨t, ht⟩ := drainText_cons e es
    have hlen := length_intercalate_le (e :: es)
    have htlen := congrArg List.length ht
    rw [List.length_append, List.length_singleton, List.length_cons] at htlen
    have hcase : ∀ a ∈ e :: es, (∀ n, 6 ≤ n → Reads (Json.value n) (formatEvent a) a.json) ∨
        ∀ n, Refuses (Json.value n) (formatEvent a) := by
      intro a _
      by_cases ha : a.Readable
      · exact Or.inl fun n hn => formatEvent_reads ha hn
      · exact Or.inr (formatEvent_refuses ha)
    have href := elements_intercalate_refuses hcase ⟨b, hb, formatEvent_refuses hbad⟩
      (n := t.length + 2) (by rw [List.length_cons] at hlen ⊢; omega) [']']
    rw [ht] at href
    change Json.parse ('[' :: ([','].intercalate ((e :: es).map formatEvent) ++ [']'])) = _
    rw [ht]
    exact parse_arr_refuses (by decide) (by decide) href

theorem drainText_faithful (h : ∀ e ∈ events, e.Readable) : Faithful events (drainText events) := by
  have hnul : '\x00' ∉ drainText events := by
    intro h0
    change '\x00' ∈ '[' :: ([','].intercalate (events.map formatEvent) ++ [']']) at h0
    rcases List.mem_cons.mp h0 with h0 | h0
    · exact absurd h0 (by decide)
    rcases List.mem_append.mp h0 with h0 | h0
    · rcases mem_intercalate h0 with h0 | ⟨l, hl, h0⟩
      · exact absurd h0 (by decide)
      · obtain ⟨e, he, rfl⟩ := List.mem_map.mp hl
        exact nul_notMem_formatEvent (h e he) h0
    · exact absurd h0 (by decide)
  refine ⟨⟨_, drainText_parse h, ?_⟩, hnul, toOwnedCString_ne_none hnul⟩
  rw [List.forall₂_map_left_iff]
  exact List.forall₂_same.mpr fun e _ => e.json_describes

def drained (q : Queue) (s : State) : List Char :=
  match q with
  | .connect => (drainConnectEventsJson s).2
  | .session => (drainSessionEventsJson s).2

/-- **Draining the event queues.** The text that a drain returns is a JSON array with an object for
each retained event, whose members decode to the queued strings, and crosses the C boundary, exactly
when no retained event holds a control character other than line feed and carriage return. -/
theorem drain_faithful_iff (q : Queue) (calls : List Call) :
    Faithful (retained q calls) (drained q (machine.run start calls)) ↔
      ∀ e ∈ retained q calls, e.Readable := by
  have htext : drained q (machine.run start calls) = drainText (retained q calls) := by
    have hq := state_run q calls
    cases q <;> exact congrArg (fun events => (drainEventsJson events).2) hq
  rw [htext]
  constructor
  · intro hf
    by_contra hbad
    obtain ⟨vs, hparse, -⟩ := hf.array
    rw [drainText_refused hbad] at hparse
    exact absurd hparse (by simp)
  · exact drainText_faithful

/-- **A tab spoils the batch.** A chat message with a tab leaves the drained text unreadable. -/
theorem drain_tab_not_faithful :
    ¬ ∀ calls : List Call, Faithful (retained .connect calls)
      (drained .connect (machine.run start calls)) := by
  intro h
  have hf := (h [.queue .connect "chat".toList ['a', '\t', 'b'] "1".toList (some 0)]).array
  obtain ⟨vs, hparse, -⟩ := hf
  have hnone : (Json.parse (drained .connect (machine.run start
      [.queue .connect "chat".toList ['a', '\t', 'b'] "1".toList (some 0)]))).isNone = true := by
    decide +kernel
  rw [hparse] at hnone
  exact Bool.false_ne_true hnone

end Bridge

end LibRustdesk
