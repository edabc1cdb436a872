import LibRustdesk.Framework.Machine
import Mathlib.Data.Finset.Basic

/-!
# Modifiers that are still down

The arm of a `KeyEvent` of `src/server/connection.rs` with what becomes of it in `handle_input`, and
`release_pressed_modifiers`, by which a connection that ends releases the modifiers its peer has
left down.

A key event is for the input thread, which makes it one event of the key, down or up, or both, one
after the other, for a `press`. The connection keeps the modifiers that are down in a set, by
another criterion: a modifier is put in when it counts as a press, and taken out when it does not.
On Linux no modifier counts as a press. On the other systems only a `press` does, after which the
key is up. So a modifier that is left down is never in the set.

* `mem_pressed_iff`, `lastForwarded_eq` — the set, and the last event of a key, by the last message
  about it.
* `Released` — **what is left down when the connection ends is in the set, and nothing else**.
* `released_iff` — exactly when that is so: the last message about every modifier is a release.
-/

namespace LibRustdesk.Desktop.Modifiers

/-! ### The last of a kind -/

section Last

variable {α κ : Type} [DecidableEq κ] (key : α → Option κ)

def lastOf (l : List α) (k : κ) : Option α := (l.filter fun a => key a = some k).getLast?

theorem lastOf_append (l m : List α) (k : κ) :
    lastOf key (l ++ m) k = (lastOf key m k).or (lastOf key l k) := by
  unfold lastOf
  rw [List.filter_append, List.getLast?_append]

theorem lastOf_singleton (a : α) (k : κ) :
    lastOf key [a] k = if key a = some k then some a else none := by
  unfold lastOf
  rw [List.filter_cons, List.filter_nil]
  by_cases h : key a = some k
  · simp [h]
  · simp [h]

theorem lastOf_cons (a : α) (l : List α) (k : κ) :
    lastOf key (a :: l) k = (lastOf key l k).or (if key a = some k then some a else none) := by
  rw [← lastOf_singleton, ← lastOf_append]
  rfl

theorem key_of_lastOf {l : List α} {k : κ} {a : α} (h : lastOf key l k = some a) :
    key a = some k := by
  have hmem := List.mem_of_getLast? h
  exact of_decide_eq_true (List.mem_filter.mp hmem).2

end Last

/-! ### Key events -/

inductive Key
  | shiftLeft
  | shiftRight
  | controlLeft
  | controlRight
  | metaLeft
  | metaRight
  | alt
  | altGr
  /-- The keys that are no modifiers. -/
  | other (n : ℕ)
  deriving DecidableEq, Repr

def Key.isModifier : Key → Bool
  | other _ => false
  | _ => true

/-- The union of a `KeyEvent`. -/
inductive Union
  | controlKey (value : Int32)
  | chr (code : UInt32)
  | unicode (code : UInt32)
  | seq (text : List Char)
  | win2winHotkey (code : UInt32)
  deriving DecidableEq, Repr

/-- `KeyEvent`; the mode is the number of a `KeyboardMode`, or any other. -/
structure KeyEvent where
  down : Bool := false
  press : Bool := false
  union : Option Union := none
  modifiers : List Int32 := []
  mode : Int32 := 0
  deriving DecidableEq, Repr

namespace KeyEvent

variable (me : KeyEvent)

/-- The accessor `chr`, which is zero for the other alternatives. -/
def chr : UInt32 :=
  match me.union with
  | some (.chr code) => code
  | _ => 0

/-- `crate::is_modifier`: `Alt`, `Shift`, `Control`, `Meta`, `RAlt`, `RShift`, `RControl`,
`RWin`. -/
def isModifier : Bool :=
  match me.union with
  | some (.controlKey v) => v ∈ ([1, 29, 4, 23, 75, 73, 74, 64] : List Int32)
  | _ => false

/-- The union is `Unicode` or `Seq`. -/
def isText : Bool :=
  match me.union with
  | some (.unicode _) => true
  | some (.seq _) => true
  | _ => false

end KeyEvent

/-- The system: whether it is Linux, and what `keycode_to_rdev_key` makes of a code. -/
structure System where
  linux : Bool
  keycodeToRdevKey : UInt32 → Key

section Connection

variable (sys : System)

/-- The modifier that a message is about, in the modes `Map` and `Translate`. -/
def keyOf (me : KeyEvent) : Option Key :=
  let key :=
    if me.mode = 1 then some (sys.keycodeToRdevKey me.chr)
    else if me.mode = 2 then
      match me.union with
      | some (.chr code) => some (sys.keycodeToRdevKey (code &&& 0x0000FFFF))
      | _ => none
    else none
  key.filter Key.isModifier

def isPress (me : KeyEvent) : Bool :=
  if sys.linux then (me.press || me.down) && !(me.isModifier || (keyOf sys me).isSome)
  else me.press

/-- What is sent to the input thread: the message, and whether it is a press. -/
abbrev MessageInput := KeyEvent × Bool

/-- The arm of a `KeyEvent`, once it is accepted, with the call of `input_key`. -/
def onKeyEvent (pressedModifiers : Finset Key) (me : KeyEvent) : Finset Key × List MessageInput :=
  let pressedModifiers :=
    match keyOf sys me with
    | some key =>
      if isPress sys me then insert key pressedModifiers else pressedModifiers.erase key
    | none => pressedModifiers
  (pressedModifiers, [(me, isPress sys me && !me.isText)])

/-- `handle_input` for a key: the events that are handled. -/
def handleInput : MessageInput → List KeyEvent
  | (msg, press) =>
    let msg := { msg with press := false }
    if press then [{ msg with down := true }, { msg with down := false }] else [msg]

/-- `release_pressed_modifiers`: the keys that are released, and the set that is left. -/
def releasePressedModifiers (pressedModifiers : Finset Key) : Finset Key × Finset Key :=
  (pressedModifiers, ∅)

/-- A connection with the modifiers it has in its set, and the input thread behind it. -/
def machine : Machine (Finset Key) KeyEvent KeyEvent where
  step s me :=
    let r := onKeyEvent sys s me
    (r.1, r.2.flatMap handleInput)

/-- The last event of a key that was handled: whether it was down. -/
def lastForwarded (messages : List KeyEvent) (k : Key) : Option Bool :=
  (lastOf (keyOf sys) ((machine sys).outputs ∅ messages) k).map KeyEvent.down

/-- When the connection is dropped, the modifiers whose last event was a key-down are released, and
none whose last event was an up. -/
def Released (messages : List KeyEvent) : Prop :=
  ∀ k, k.isModifier = true →
    (lastForwarded sys messages k = some true →
      k ∈ (releasePressedModifiers ((machine sys).run ∅ messages)).1) ∧
    (lastForwarded sys messages k = some false →
      k ∉ (releasePressedModifiers ((machine sys).run ∅ messages)).1)

/-! ### The last message about a key -/

def endsDown (me : KeyEvent) : Bool := !(isPress sys me && !me.isText) && me.down

variable {sys}

theorem lastOf_handleInput (me : KeyEvent) (press : Bool) (k : Key) :
    (lastOf (keyOf sys) (handleInput (me, press)) k).map KeyEvent.down =
      if keyOf sys me = some k then some (!press && me.down) else none := by
  have hkey : ∀ down : Bool,
      keyOf sys { me with press := false, down := down } = keyOf sys me := fun _ => rfl
  cases press with
  | true =>
    have hevents : handleInput (me, true) =
        [{ me with press := false, down := true }, { me with press := false, down := false }] := rfl
    rw [hevents, lastOf_cons, lastOf_singleton, hkey, hkey]
    split <;> rfl
  | false =>
    have hevents : handleInput (me, false) = [{ me with press := false, down := me.down }] := rfl
    rw [hevents, lastOf_singleton, hkey]
    split <;> rfl

theorem outputs_eq (s : Finset Key) (messages : List KeyEvent) :
    (machine sys).outputs s messages =
      messages.flatMap fun me => handleInput (me, isPress sys me && !me.isText) := by
  induction messages generalizing s with
  | nil => rfl
  | cons me messages ih =>
    rw [Machine.outputs_cons, ih, List.flatMap_cons]
    exact congrArg (· ++ _) (List.append_nil _)

theorem lastForwarded_eq (messages : List KeyEvent) (k : Key) :
    lastForwarded sys messages k = (lastOf (keyOf sys) messages k).map (endsDown sys) := by
  unfold lastForwarded
  rw [outputs_eq]
  induction messages with
  | nil => rfl
  | cons me messages ih =>
    rw [List.flatMap_cons, lastOf_append, lastOf_cons, Option.map_or, Option.map_or, ih,
      lastOf_handleInput]
    congr 1
    split <;> rfl

theorem mem_pressed_iff (s : Finset Key) (messages : List KeyEvent) (k : Key) :
    k ∈ (machine sys).run s messages ↔
      ((lastOf (keyOf sys) messages k).map (isPress sys)).getD (decide (k ∈ s)) = true := by
  induction messages generalizing s with
  | nil => exact decide_eq_true_iff.symm
  | cons me messages ih =>
    rw [Machine.run_cons, ih, lastOf_cons]
    cases lastOf (keyOf sys) messages k with
    | some last => rfl
    | none =>
      -- the set after the first message
      have hnext : (machine sys).next s me = (onKeyEvent sys s me).1 := rfl
      have hor : (none : Option KeyEvent).or (if keyOf sys me = some k then some me else none) =
          if keyOf sys me = some k then some me else none := Option.none_or
      rw [hnext, hor]
      unfold onKeyEvent
      cases hkey : keyOf sys me with
      | none => simp
      | some key =>
        by_cases hk : key = k
        · subst hk
          rw [if_pos rfl, Option.map_some]
          cases isPress sys me with
          | true => simp
          | false => simp
        · have hne : k ≠ key := Ne.symm hk
          cases isPress sys me with
          | true => simp [hk, hne]
          | false => simp [hk, hne]

def IsRelease (sys : System) (me : KeyEvent) : Prop :=
  if sys.linux then me.down = false
  else if me.press then me.isText = true ∧ me.down = true
  else me.down = false

theorem isRelease_iff {me : KeyEvent} {k : Key} (h : keyOf sys me = some k) :
    endsDown sys me = isPress sys me ↔ IsRelease sys me := by
  unfold endsDown isPress IsRelease
  rw [h]
  cases sys.linux with
  | true => simp
  | false => cases me.press <;> cases me.isText <;> simp

/-- **Exactly when the modifiers that are left down are released**: nothing is left down, for the
last message about every modifier is a release. -/
theorem released_iff (sys : System) (messages : List KeyEvent) :
    Released sys messages ↔
      ∀ k, k.isModifier = true → ∀ me, lastOf (keyOf sys) messages k = some me →
        IsRelease sys me := by
  unfold Released releasePressedModifiers
  refine forall₂_congr fun k _ => ?_
  rw [lastForwarded_eq, mem_pressed_iff]
  cases hlast : lastOf (keyOf sys) messages k with
  | none => simp
  | some me =>
    have hrelease := isRelease_iff (key_of_lastOf _ hlast)
    have hiff : (∀ last, some me = some last → IsRelease sys last) ↔ IsRelease sys me :=
      ⟨fun h => h me rfl, fun h last heq => Option.some.inj heq ▸ h⟩
    rw [hiff, ← hrelease, Option.map_some, Option.map_some]
    cases endsDown sys me <;> cases isPress sys me <;> simp

end Connection

def oneModifier (linux : Bool) : System where
  linux := linux
  keycodeToRdevKey code := if code = 50 then .shiftLeft else .other code.toNat

/-- The left shift key goes down and stays down: it is not in the set. -/
theorem shift_stays_down :
    ¬ Released (oneModifier true) [{ down := true, union := some (.chr 50), mode := 1 }] ∧
      ¬ Released (oneModifier false) [{ down := true, union := some (.chr 50), mode := 1 }] := by
  constructor
  · intro h
    exact absurd ((h .shiftLeft rfl).1 (by decide)) (by decide)
  · intro h
    exact absurd ((h .shiftLeft rfl).1 (by decide)) (by decide)

end LibRustdesk.Desktop.Modifiers
