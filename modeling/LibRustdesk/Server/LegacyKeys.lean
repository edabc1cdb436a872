import LibRustdesk.Server.Modifiers
import Mathlib.Data.Finset.Image

/-!
# The modifiers of a legacy key event

A key event in legacy mode and a press of a mouse button carry the modifiers their peer holds.
Before it handles such an event the host releases the modifiers that are down but not in this list,
and presses those that are in the list but not down, to release them again when it is done
(`legacy_keyboard_mode` and `handle_mouse_simulation_` of `src/server/input_service.rs`).

* `Host` — the keyboard behind `Enigo`: which of its keys a key is, how it reports that a key is
  down, and what typing a character does to it. All three differ between the systems, so they are
  parameters, and `Documented` is what the code relies on: a modifier is reported as down when it
  is, or the one on the other side is, and typing leaves every modifier as it is that the keyboard
  does not need for the characters.
* `Event.Own` — the keys an event is about: its control key, and what its characters need.
* `Stays` — the modifiers that handling the event leaves down: those that its list has, on Windows
  also Control while an Alt is down (AltGr), and for a key-up all of them; on Linux a character
  lifts Shift unless another modifier is down.

**Main result** (`mem_handle_iff`): after the event a modifier is down exactly when it was down
before and stays, for every modifier that the event is not about. What has been pressed for the time
being is up again, with one exception that the result leaves out (`Event.Skips`): a function key
(`CtrlAltDel`, `LockScreen`) returns before the end.

The state of a modifier says that either side is down, so the fact that carries the argument is that
what is pressed for the time being was not down at all (`Temporary.fresh`), and that releasing it
therefore takes nothing away.
-/

namespace LibRustdesk.Desktop.LegacyKeys

open Modifiers (Union)

/-! ### Keys -/

inductive Group
  | shift
  | alt
  | control
  | win
  deriving DecidableEq, Repr

/-- The `ControlKey` of a side. The left one also stands for the modifier. -/
def Group.value : Group → (right : Bool) → Int32
  | shift, false => 29
  | shift, true => 73
  | alt, false => 1
  | alt, true => 75
  | control, false => 4
  | control, true => 74
  | win, false => 23
  | win, true => 64

/-- `enigo::Key`, but for the characters. -/
inductive Key
  | modifier (g : Group) (right : Bool)
  /-- Another key of `KEY_MAP`, by its `ControlKey`. -/
  | other (value : Int32)
  | raw (code : ℕ)
  deriving DecidableEq, Repr

def Key.capsLock : Key := .other 3

def Key.numLock : Key := .other 63

/-- `control_key_value_to_key`: `KEY_MAP`. It has the keys from `Alt` to `RAlt`, and `Menu` is
`Alt`. -/
def controlKeyValueToKey (value : Int32) : Option Key :=
  if value = 29 then some (.modifier .shift false)
  else if value = 73 then some (.modifier .shift true)
  else if value = 1 ∨ value = 45 then some (.modifier .alt false)
  else if value = 75 then some (.modifier .alt true)
  else if value = 4 then some (.modifier .control false)
  else if value = 74 then some (.modifier .control true)
  else if value = 23 then some (.modifier .win false)
  else if value = 64 then some (.modifier .win true)
  else if 1 ≤ value ∧ value ≤ 75 then some (.other value)
  else none

/-! ### The host -/

inductive Os
  | windows
  | macos
  /-- With X11 or Wayland, and there with `wayland_use_uinput` or without. -/
  | linux (x11 uinput : Bool)
  deriving DecidableEq, Repr

def Os.isLinux : Os → Bool
  | linux _ _ => true
  | _ => false

/-- The host has the keys `κ`; those that are down are a finite set. -/
structure Host (κ : Type) where
  os : Os
  /-- The key that `key_down` and `key_up` press and release. -/
  code : Key → κ
  /-- `get_key_state`. -/
  getKeyState : Finset κ → Key → Bool
  /-- `key_down` and `key_up` of a `Key::Layout`; the first can fail. -/
  layoutDown : Char → Finset κ → Bool × Finset κ
  layoutUp : Char → Finset κ → Finset κ
  /-- `key_sequence`. -/
  keySequence : List Char → Finset κ → Finset κ
  /-- `set_clipboard_for_paste_sync`. -/
  setClipboardForPasteSync : List Char → Bool
  /-- `is_altgr_pressed`, of the keys that have been recorded. -/
  isAltgrPressed : Bool
  /-- `str::to_uppercase`, of a character. -/
  toUppercase : Char → List Char
  /-- The modifiers that the keyboard needs for a text. -/
  needs : List Char → Finset κ

namespace Host

variable {κ : Type} [DecidableEq κ] (host : Host κ)

def getModifierState (s : Finset κ) : Key → Bool
  | .modifier g right =>
    host.getKeyState s (.modifier g right) || host.getKeyState s (.modifier g !right)
  | key => host.getKeyState s key

/-- `key_down`, of a key that is no character. -/
def keyDown (key : Key) (s : Finset κ) : Finset κ := insert (host.code key) s

def keyUp (key : Key) (s : Finset κ) : Finset κ := s.erase (host.code key)

/-! ### The modifiers before and after -/

def fixModifier (modifiers : List Int32) (g : Group) (right : Bool) (s : Finset κ) : Finset κ :=
  if host.getModifierState s (.modifier g right) = true ∧ g.value false ∉ modifiers then
    -- AltGr case
    if host.os = .windows ∧ g = .control ∧
        host.getModifierState s (.modifier .alt false) = true then s
    else host.keyUp (.modifier g right) s
  else s

/-- The two calls of `fix_modifiers` for a modifier. -/
def fixGroup (modifiers : List Int32) (ck : Int32) (g : Group) (s : Finset κ) : Finset κ :=
  let s := if ck ≠ g.value false then host.fixModifier modifiers g false s else s
  if ck ≠ g.value true then host.fixModifier modifiers g true s else s

def fixModifiers (modifiers : List Int32) (s : Finset κ) (ck : Int32) : Finset κ :=
  let s := host.fixGroup modifiers ck .shift s
  let s := host.fixGroup modifiers ck .alt s
  let s := host.fixGroup modifiers ck .control s
  host.fixGroup modifiers ck .win s

/-- A modifier of the list is pressed, and will be released, unless it is down or to be skipped. -/
def pressModifier (skips : Key → Bool) (r : Finset κ × List Key) (value : Int32) :
    Finset κ × List Key :=
  match controlKeyValueToKey value with
  | none => r
  | some key =>
    if host.getModifierState r.1 key || skips key then r
    else (host.keyDown key r.1, r.2 ++ [key])

def pressModifiers (modifiers : List Int32) (s : Finset κ) : Finset κ × List Key :=
  modifiers.foldl (host.pressModifier fun key =>
    host.os.isLinux && key == .modifier .alt false && host.isAltgrPressed) (s, [])

/-- The same of `handle_mouse_simulation_`. -/
def pressMouseModifiers (modifiers : List Int32) (s : Finset κ) : Finset κ × List Key :=
  modifiers.foldl (host.pressModifier fun key => key == .capsLock || key == .numLock) (s, [])

def releaseKeys (s : Finset κ) (toRelease : List Key) : Finset κ :=
  toRelease.foldl (fun s key => host.keyUp key s) s

def getControlKeyValue (evt : Modifiers.KeyEvent) : Int32 :=
  match evt.union with
  | some (.controlKey ck) => ck
  | _ => -1

/-- `sync_modifiers`. On macOS the list is not pressed but goes into the flags of the event. -/
def syncModifiers (evt : Modifiers.KeyEvent) (s : Finset κ) : Finset κ × List Key :=
  if evt.down then
    let s := host.fixModifiers evt.modifiers s (getControlKeyValue evt)
    if host.os = .macos then (s, []) else host.pressModifiers evt.modifiers s
  else (s, [])

/-! ### The keys of the event -/

def isHotkeyModifierPressed (s : Finset κ) : Bool :=
  [Group.control, Group.alt, Group.win].any fun g =>
    host.getModifierState s (.modifier g false) || host.getModifierState s (.modifier g true)

/-- `release_shift_for_char_input`, which only Linux has. -/
def releaseShiftForCharInput (s : Finset κ) : Finset κ :=
  if host.os.isLinux then
    if host.isHotkeyModifierPressed s then s
    else
      let s := if host.getModifierState s (.modifier .shift false) then
        host.keyUp (.modifier .shift false) s else s
      if host.getModifierState s (.modifier .shift true) then
        host.keyUp (.modifier .shift true) s else s
  else s

/-- `is_function_key`, without the thread that sends the key or locks the screen. -/
def isFunctionKey (ck : Int32) : Bool := ck == 100 || ck == 101

def processControlKey (ck : Int32) (down : Bool) (s : Finset κ) : Finset κ :=
  match controlKeyValueToKey ck with
  | none => s
  | some key => if down then host.keyDown key s else host.keyUp key s

def isAsciiPrintable (c : Char) : Bool := 0x20 ≤ c.val && c.val ≤ 0x7E

/-- `char::try_from`. -/
def charOfU32 (n : UInt32) : Option Char :=
  if h : n.isValidChar then some ⟨n, h⟩ else none

/-- `input_text_via_clipboard_server`: the text is pasted by `Shift` and `Insert`, which have the
X11 code 118. -/
def inputTextViaClipboardServer (text : List Char) (s : Finset κ) : Finset κ :=
  if text = [] ∨ host.setClipboardForPasteSync text = false then s
  else
    let s := host.keyDown (.modifier .shift false) s
    let s := host.keyDown (.raw 118) s
    let s := host.keyUp (.raw 118) s
    host.keyUp (.modifier .shift false) s

def needToUppercase (s : Finset κ) : Bool :=
  host.getModifierState s (.modifier .shift false) || host.getModifierState s .capsLock

/-- The last part of `process_chr`: the key of the layout, or else the character as a text. -/
def processLayoutKey (chr : UInt32) (down : Bool) (s : Finset κ) : Finset κ :=
  let key := (charOfU32 chr).getD '\x00'
  if down then
    let (isOk, s) := host.layoutDown key s
    if isOk then s
    else
      match charOfU32 chr with
      | none => s
      | some c =>
        host.keySequence (if host.needToUppercase s then host.toUppercase c else [c]) s
  else host.layoutUp key s

def processChr (chr : UInt32) (down hotkey : Bool) (s : Finset κ) : Finset κ :=
  if host.os = .linux false true ∧ host.isHotkeyModifierPressed s = false then
    match charOfU32 chr with
    | none => s
    | some c =>
      if isAsciiPrintable c then
        if down then (host.layoutDown c s).2 else host.layoutUp c s
      else if down then host.inputTextViaClipboardServer [c] s
      else s
  else if host.os.isLinux = false ∧ hotkey = false then
    match charOfU32 chr with
    | none => s
    | some c => if down then host.keySequence [c] s else s
  else host.processLayoutKey chr down s

def processSeq (sequence : List Char) (s : Finset κ) : Finset κ :=
  if host.os = .linux false true then
    if sequence.all isAsciiPrintable then host.keySequence sequence s
    else host.inputTextViaClipboardServer sequence s
  else host.keySequence sequence s

/-- `process_unicode`, which does with a character what `process_seq` does with a text. -/
def processUnicode (chr : UInt32) (s : Finset κ) : Finset κ :=
  match charOfU32 chr with
  | none => s
  | some c => host.processSeq [c] s

def hasHotkeyModifiers (evt : Modifiers.KeyEvent) : Bool :=
  evt.modifiers.any fun v =>
    v == 4 || v == 74 || v == 23 || v == 64 || (host.os != .macos && (v == 1 || v == 75))

/-- The `match` of `legacy_keyboard_mode`; `none` where it returns. -/
def process (evt : Modifiers.KeyEvent) (s : Finset κ) : Option (Finset κ) :=
  match evt.union with
  | some (.controlKey ck) =>
    if isFunctionKey ck then none else some (host.processControlKey ck evt.down s)
  | some (.chr chr) =>
    some (host.processChr chr evt.down (host.hasHotkeyModifiers evt)
      (host.releaseShiftForCharInput s))
  | some (.unicode chr) => some (host.processUnicode chr (host.releaseShiftForCharInput s))
  | some (.seq seq) => some (host.processSeq seq s)
  | _ => some s

def legacyKeyboardMode (evt : Modifiers.KeyEvent) (s : Finset κ) : Finset κ :=
  let (s, toRelease) := host.syncModifiers evt s
  match host.process evt s with
  | none => s
  | some s => host.releaseKeys s toRelease

/-- `handle_mouse_simulation_` of a `MOUSE_TYPE_DOWN`, which presses a button in between. -/
def handleMouseDown (modifiers : List Int32) (s : Finset κ) : Finset κ :=
  let s := host.fixModifiers modifiers s 0
  if host.os = .macos then s
  else
    let (s, toRelease) := host.pressMouseModifiers modifiers s
    host.releaseKeys s toRelease

end Host

inductive Event
  | key (evt : Modifiers.KeyEvent)
  | mouseDown (modifiers : List Int32)

def Host.handle {κ : Type} [DecidableEq κ] (host : Host κ) (s : Finset κ) : Event → Finset κ
  | .key evt => host.legacyKeyboardMode evt s
  | .mouseDown modifiers => host.handleMouseDown modifiers s

/-! ### What is documented of the host -/

namespace Host

variable {κ : Type} [DecidableEq κ] (host : Host κ)

def IsModifier (x : κ) : Prop := ∃ g right, x = host.code (.modifier g right)

/-- What is documented of a keyboard. On Linux the right Alt is reported as the left one, on Windows
as both. -/
structure Documented : Prop where
  /-- A modifier is reported as down, on either side, when it is down on either side. -/
  state_iff : ∀ s g, (∃ right, host.getKeyState s (.modifier g right) = true) ↔
    ∃ right, host.code (.modifier g right) ∈ s
  /-- Another key that comes out as a modifier (on Windows, `Option` is Alt) is reported, too. -/
  state_other : ∀ s key, (∀ g right, key ≠ .modifier g right) → host.getKeyState s key = false →
    host.IsModifier (host.code key) → host.code key ∉ s
  /-- Two modifiers have no key in common, but their sides may. -/
  groups : ∀ {g g' right right'},
    host.code (.modifier g right) = host.code (.modifier g' right') → g = g'
  /-- `Insert` is none. -/
  insert : ¬ host.IsModifier (host.code (.raw 118))
  layoutDown : ∀ c s {x}, host.IsModifier x → x ∉ host.needs [c] →
    (x ∈ (host.layoutDown c s).2 ↔ x ∈ s)
  layoutUp : ∀ c s {x}, host.IsModifier x → x ∉ host.needs [c] →
    (x ∈ host.layoutUp c s ↔ x ∈ s)
  keySequence : ∀ text s {x}, host.IsModifier x → x ∉ host.needs text →
    (x ∈ host.keySequence text s ↔ x ∈ s)

/-! ### What an event leaves down -/

def texts (evt : Modifiers.KeyEvent) : List (List Char) :=
  match evt.union with
  | some (.chr chr) =>
    let c := (charOfU32 chr).getD (Char.ofNat 0)
    [[c], host.toUppercase c]
  | some (.unicode chr) => [[(charOfU32 chr).getD (Char.ofNat 0)]]
  | some (.seq seq) => [seq]
  | _ => []

/-- The modifiers that are used for a text: those the keyboard needs, and Shift where it is
pasted. -/
def used (text : List Char) : Finset κ :=
  if host.os = .linux false true ∧ text.all isAsciiPrintable = false then
    insert (host.code (.modifier .shift false)) (host.needs text)
  else host.needs text

/-- `fix_modifier` leaves the modifier down: the list has it, or it is Control on Windows and an Alt
is down (AltGr). -/
def Spares (modifiers : List Int32) (g : Group) (s : Finset κ) : Prop :=
  g.value false ∈ modifiers ∨ (host.os = .windows ∧ g = .control ∧
    host.getModifierState s (.modifier .alt false) = true)

/-- The modifier is held: it is spared once Shift and Alt have been fixed. -/
def Held (modifiers : List Int32) (ck : Int32) (s : Finset κ) (g : Group) : Prop :=
  host.Spares modifiers g (host.fixGroup modifiers ck .alt (host.fixGroup modifiers ck .shift s))

/-- On Linux a character lifts Shift, unless Control, Alt or Meta is down. -/
def LiftsShift (evt : Modifiers.KeyEvent) (s : Finset κ) (g : Group) : Prop :=
  host.os.isLinux = true ∧ g = .shift ∧
    (∃ chr, evt.union = some (.chr chr) ∨ evt.union = some (.unicode chr)) ∧
    host.isHotkeyModifierPressed (host.syncModifiers evt s).1 = false

end Host

namespace Event

variable {κ : Type} [DecidableEq κ] (host : Host κ)

/-- The event is about the key: it is its control key, or one that its text needs. -/
def Own (x : κ) : Event → Prop
  | .key evt =>
    (∃ ck key, evt.union = some (.controlKey ck) ∧ controlKeyValueToKey ck = some key ∧
      x = host.code key) ∨ ∃ text ∈ host.texts evt, x ∈ host.used text
  | .mouseDown _ => False

/-- A function key goes down, and the modifier is one that its list has and that is not down once
those are released that are not held. -/
def Skips (s : Finset κ) (x : κ) : Event → Prop
  | .key evt => evt.down = true ∧
    (∃ ck, evt.union = some (.controlKey ck) ∧ Host.isFunctionKey ck = true) ∧
    (∃ v ∈ evt.modifiers, ∃ key, controlKeyValueToKey v = some key ∧ x = host.code key) ∧
    x ∉ host.fixModifiers evt.modifiers s (Host.getControlKeyValue evt)
  | .mouseDown _ => False

end Event

def Stays {κ : Type} [DecidableEq κ] (host : Host κ) (s : Finset κ) (g : Group) : Event → Prop
  | .key evt =>
    (evt.down = true → host.Held evt.modifiers (Host.getControlKeyValue evt) s g) ∧
      ¬ host.LiftsShift evt s g
  | .mouseDown modifiers => host.Held modifiers 0 s g

namespace Host

variable {κ : Type} [DecidableEq κ] {host : Host κ} {s : Finset κ} {g : Group} {right : Bool}

omit [DecidableEq κ] in
theorem isModifier_code (g : Group) (right : Bool) :
    host.IsModifier (host.code (.modifier g right)) := ⟨g, right, rfl⟩

variable {x : κ} {key : Key}

theorem mem_keyUp : x ∈ host.keyUp key s ↔ x ≠ host.code key ∧ x ∈ s :=
  Finset.mem_erase

theorem mem_keyDown : x ∈ host.keyDown key s ↔ x = host.code key ∨ x ∈ s :=
  Finset.mem_insert

/-! ### The state of a modifier -/

omit [DecidableEq κ] in
theorem Documented.modifierState_iff (hd : host.Documented) (s : Finset κ) (g : Group)
    (right : Bool) : host.getModifierState s (.modifier g right) = true ↔
      ∃ r, host.code (.modifier g r) ∈ s := by
  rw [← hd.state_iff s g]
  unfold getModifierState
  rw [Bool.or_eq_true]
  constructor
  · rintro (hthis | hother)
    · exact ⟨right, hthis⟩
    · exact ⟨!right, hother⟩
  · rintro ⟨r, hr⟩
    by_cases hside : r = right
    · rw [hside] at hr
      exact .inl hr
    · rw [Bool.eq_not_of_ne hside] at hr
      exact .inr hr

omit [DecidableEq κ] in
theorem Documented.not_mem_of_state (hd : host.Documented) {s : Finset κ}
    (hstate : host.getModifierState s key = false) (hmod : host.IsModifier (host.code key)) :
    host.code key ∉ s := by
  cases key with
  | modifier g right =>
    intro hmem
    rw [(hd.modifierState_iff s g right).mpr ⟨right, hmem⟩] at hstate
    exact Bool.noConfusion hstate
  | other value => exact hd.state_other s (.other value) (fun _ _ => Key.noConfusion) hstate hmod
  | raw code => exact hd.state_other s (.raw code) (fun _ _ => Key.noConfusion) hstate hmod

omit [DecidableEq κ] in
theorem Documented.modifierState_congr (hd : host.Documented) {s s' : Finset κ} {g : Group}
    (h : ∀ r, host.code (.modifier g r) ∈ s' ↔ host.code (.modifier g r) ∈ s) (right : Bool) :
    host.getModifierState s' (.modifier g right) = host.getModifierState s (.modifier g right) := by
  rw [Bool.eq_iff_iff, hd.modifierState_iff, hd.modifierState_iff]
  exact exists_congr h

/-! ### Modifiers that are not held -/

variable {modifiers : List Int32}

omit [DecidableEq κ] in
theorem spares_congr {s s' : Finset κ}
    (h : g = .control → host.getModifierState s' (.modifier .alt false) =
      host.getModifierState s (.modifier .alt false)) :
    host.Spares modifiers g s' ↔ host.Spares modifiers g s := by
  refine or_congr_right (and_congr_right fun _ => and_congr_right fun hg => ?_)
  rw [h hg]

theorem mem_fixModifier (hd : host.Documented) (modifiers : List Int32) (g : Group) (right : Bool)
    (s : Finset κ) (x : κ) : x ∈ host.fixModifier modifiers g right s ↔
      x ∈ s ∧ (x = host.code (.modifier g right) → host.Spares modifiers g s) := by
  unfold fixModifier
  split
  · next hfix =>
    split
    · next haltgr => exact (and_iff_left fun _ => .inr haltgr).symm
    · next haltgr =>
      rw [mem_keyUp, and_comm]
      refine and_congr_right fun _ => ⟨fun hne heq => absurd heq hne, fun hheld heq => ?_⟩
      exact (hheld heq).elim hfix.2 haltgr
  · next hfix =>
    refine (and_iff_left_of_imp fun hx heq => ?_).symm
    -- it is down, so it would have been released
    have hstate := (hd.modifierState_iff s g right).mpr ⟨right, heq ▸ hx⟩
    exact .inl (not_not.mp fun hmissing => hfix ⟨hstate, hmissing⟩)

variable {ck : Int32}

theorem mem_fixModifier_unless (hd : host.Documented) (modifiers : List Int32)
    (s : Finset κ) (hown : ck = g.value right → x ≠ host.code (.modifier g right)) :
    x ∈ (if ck ≠ g.value right then host.fixModifier modifiers g right s else s) ↔
      x ∈ s ∧ (x = host.code (.modifier g right) → host.Spares modifiers g s) := by
  split
  · exact mem_fixModifier hd modifiers g right s x
  · next hck => exact (and_iff_left fun heq => absurd heq (hown (not_not.mp hck))).symm

theorem mem_fixModifier_of_ne (hd : host.Documented) (modifiers : List Int32) {g g' : Group}
    (hg : g' ≠ g) (right right' : Bool) (s : Finset κ) :
    host.code (.modifier g' right') ∈ host.fixModifier modifiers g right s ↔
      host.code (.modifier g' right') ∈ s := by
  rw [mem_fixModifier hd]
  exact and_iff_left fun heq => absurd (hd.groups heq) hg

theorem mem_fixGroup_of_ne (hd : host.Documented) (modifiers : List Int32) (ck : Int32)
    {g g' : Group} (hg : g' ≠ g) (right : Bool) (s : Finset κ) :
    host.code (.modifier g' right) ∈ host.fixGroup modifiers ck g s ↔
      host.code (.modifier g' right) ∈ s := by
  unfold fixGroup
  dsimp only
  split
  · rw [mem_fixModifier_of_ne hd modifiers hg]
    split
    · exact mem_fixModifier_of_ne hd modifiers hg _ _ s
    · rfl
  · split
    · exact mem_fixModifier_of_ne hd modifiers hg _ _ s
    · rfl

theorem altState_fixModifier (hd : host.Documented) (modifiers : List Int32) {g : Group}
    (hg : g ≠ .alt) (right : Bool) (s : Finset κ) :
    host.getModifierState (host.fixModifier modifiers g right s) (.modifier .alt false) =
      host.getModifierState s (.modifier .alt false) :=
  hd.modifierState_congr (fun r => mem_fixModifier_of_ne hd modifiers hg.symm right r s) false

theorem mem_fixGroup (hd : host.Documented) (modifiers : List Int32) (s : Finset κ)
    (hown : ∀ r, ck = g.value r → host.code (.modifier g right) ≠ host.code (.modifier g r)) :
    host.code (.modifier g right) ∈ host.fixGroup modifiers ck g s ↔
      host.code (.modifier g right) ∈ s ∧ host.Spares modifiers g s := by
  unfold fixGroup
  rw [mem_fixModifier_unless hd modifiers _ (hown true),
    mem_fixModifier_unless hd modifiers _ (hown false)]
  -- the first call does not change whether the second one spares the modifier
  have hspares : host.Spares modifiers g
      (if ck ≠ g.value false then host.fixModifier modifiers g false s else s) ↔
        host.Spares modifiers g s := by
    refine spares_congr fun hg => ?_
    split
    · exact altState_fixModifier hd modifiers (by rw [hg]; exact Group.noConfusion) false s
    · rfl
  rw [hspares, and_assoc]
  refine and_congr_right fun _ => ⟨fun ⟨hfirst, hsecond⟩ => ?_, fun h => ⟨fun _ => h, fun _ => h⟩⟩
  cases right with
  | false => exact hfirst rfl
  | true => exact hsecond rfl

theorem mem_fixModifiers (hd : host.Documented) (modifiers : List Int32)
    (s : Finset κ)
    (hown : ∀ r, ck = g.value r → host.code (.modifier g right) ≠ host.code (.modifier g r)) :
    host.code (.modifier g right) ∈ host.fixModifiers modifiers s ck ↔
      host.code (.modifier g right) ∈ s ∧ host.Held modifiers ck s g := by
  unfold fixModifiers Held
  cases g with
  | shift =>
    rw [mem_fixGroup_of_ne hd _ _ Group.noConfusion, mem_fixGroup_of_ne hd _ _ Group.noConfusion,
      mem_fixGroup_of_ne hd _ _ Group.noConfusion, mem_fixGroup hd modifiers _ hown]
    exact and_congr_right fun _ => spares_congr fun h => Group.noConfusion h
  | alt =>
    rw [mem_fixGroup_of_ne hd _ _ Group.noConfusion, mem_fixGroup_of_ne hd _ _ Group.noConfusion,
      mem_fixGroup hd modifiers _ hown, mem_fixGroup_of_ne hd _ _ Group.noConfusion]
    exact and_congr_right fun _ => spares_congr fun h => Group.noConfusion h
  | control =>
    rw [mem_fixGroup_of_ne hd _ _ Group.noConfusion, mem_fixGroup hd modifiers _ hown,
      mem_fixGroup_of_ne hd _ _ Group.noConfusion, mem_fixGroup_of_ne hd _ _ Group.noConfusion]
  | win =>
    rw [mem_fixGroup hd modifiers _ hown, mem_fixGroup_of_ne hd _ _ Group.noConfusion,
      mem_fixGroup_of_ne hd _ _ Group.noConfusion, mem_fixGroup_of_ne hd _ _ Group.noConfusion]
    exact and_congr_right fun _ => spares_congr fun h => Group.noConfusion h

/-! ### Modifiers that are pressed for the time being -/

structure Temporary (host : Host κ) (modifiers : List Int32) (s : Finset κ)
    (r : Finset κ × List Key) : Prop where
  mem_iff : ∀ x, x ∈ r.1 ↔ x ∈ s ∨ ∃ key ∈ r.2, x = host.code key
  /-- A modifier that has been pressed was not down. -/
  fresh : ∀ key ∈ r.2, host.IsModifier (host.code key) → host.code key ∉ s
  listed : ∀ key ∈ r.2, ∃ v ∈ modifiers, controlKeyValueToKey v = some key

omit [DecidableEq κ] in
theorem temporary_nil (host : Host κ) (modifiers : List Int32) (s : Finset κ) :
    Temporary host modifiers s (s, []) where
  mem_iff _ := (or_iff_left fun ⟨_, hkey, _⟩ => List.not_mem_nil hkey).symm
  fresh _ hkey := absurd hkey List.not_mem_nil
  listed _ hkey := absurd hkey List.not_mem_nil

variable {r : Finset κ × List Key}

theorem Temporary.pressModifier (hd : host.Documented)
    (h : Temporary host modifiers s r) (skips : Key → Bool) {v : Int32}
    (hv : v ∈ modifiers) : Temporary host modifiers s (host.pressModifier skips r v) := by
  unfold Host.pressModifier
  split
  · exact h
  · next key hkey =>
    split
    · exact h
    · next hskip =>
      rw [Bool.or_eq_true, not_or, Bool.not_eq_true] at hskip
      refine ⟨fun x => ?_, fun k hk hmod => ?_, fun k hk => ?_⟩
      · rw [mem_keyDown, h.mem_iff]
        constructor
        · rintro (hx | hx | ⟨k, hk, hx⟩)
          · exact .inr ⟨key, List.mem_append_right _ (List.mem_singleton_self key), hx⟩
          · exact .inl hx
          · exact .inr ⟨k, List.mem_append_left _ hk, hx⟩
        · rintro (hx | ⟨k, hk, hx⟩)
          · exact .inr (.inl hx)
          · rcases List.mem_append.mp hk with hk | hk
            · exact .inr (.inr ⟨k, hk, hx⟩)
            · exact .inl (List.mem_singleton.mp hk ▸ hx)
      · rcases List.mem_append.mp hk with hk | hk
        · exact h.fresh k hk hmod
        · rw [List.mem_singleton.mp hk] at hmod ⊢
          -- it is not down now, and what was down before still is
          intro hs
          exact hd.not_mem_of_state hskip.1 hmod ((h.mem_iff _).mpr (.inl hs))
      · rcases List.mem_append.mp hk with hk | hk
        · exact h.listed k hk
        · exact ⟨v, hv, List.mem_singleton.mp hk ▸ hkey⟩

theorem Temporary.foldl (hd : host.Documented) (skips : Key → Bool) (vs : List Int32)
    (hvs : ∀ v ∈ vs, v ∈ modifiers) (h : Temporary host modifiers s r) : Temporary host modifiers s
    (vs.foldl (host.pressModifier skips) r) := by
  induction vs generalizing r with
  | nil => exact h
  | cons v vs ih =>
    have hstep := h.pressModifier hd skips (hvs v List.mem_cons_self)
    exact ih (fun w hw => hvs w (List.mem_cons_of_mem v hw)) hstep

theorem temporary_pressModifiers (hd : host.Documented) (modifiers : List Int32) (s : Finset κ) :
    Temporary host modifiers s (host.pressModifiers modifiers s) :=
  (temporary_nil host modifiers s).foldl hd _ modifiers fun _ hv => hv

theorem temporary_pressMouseModifiers (hd : host.Documented) (modifiers : List Int32)
    (s : Finset κ) : Temporary host modifiers s (host.pressMouseModifiers modifiers s) :=
  (temporary_nil host modifiers s).foldl hd _ modifiers fun _ hv => hv

theorem mem_releaseKeys (s : Finset κ) (toRelease : List Key) (x : κ) :
    x ∈ host.releaseKeys s toRelease ↔ x ∈ s ∧ ∀ key ∈ toRelease, x ≠ host.code key := by
  unfold releaseKeys
  induction toRelease generalizing s with
  | nil => exact (and_iff_left fun _ hkey => absurd hkey List.not_mem_nil).symm
  | cons key keys ih =>
    rw [List.foldl_cons, ih, mem_keyUp, List.forall_mem_cons, and_comm (a := x ≠ _), and_assoc]

/-- **Released again**: a modifier that has come through the event since is down exactly when it was
down before the list was pressed. -/
theorem Temporary.mem_releaseKeys (h : Temporary host modifiers s r) (hmod : host.IsModifier x)
    {s' : Finset κ} {kept : Prop} (hs' : x ∈ s' ↔ x ∈ r.1 ∧ kept) : x ∈ host.releaseKeys s' r.2 ↔ x
    ∈ s ∧ kept := by
  rw [Host.mem_releaseKeys, hs', h.mem_iff, and_right_comm]
  refine and_congr_left fun _ => ⟨fun ⟨hx, hnone⟩ => ?_, fun hx => ⟨.inl hx, ?_⟩⟩
  · exact hx.resolve_right fun ⟨key, hkey, heq⟩ => hnone key hkey heq
  · intro key hkey heq
    rw [heq] at hx hmod
    exact h.fresh key hkey hmod hx

theorem temporary_syncModifiers (hd : host.Documented) (evt : Modifiers.KeyEvent) (s : Finset κ) :
    Temporary host evt.modifiers
      (if evt.down then host.fixModifiers evt.modifiers s (getControlKeyValue evt) else s)
      (host.syncModifiers evt s) := by
  unfold syncModifiers
  split
  · split
    · exact temporary_nil host evt.modifiers _
    · exact temporary_pressModifiers hd evt.modifiers _
  · exact temporary_nil host evt.modifiers s

variable {evt : Modifiers.KeyEvent}

theorem down_of_pressed {s : Finset κ}
    (h : key ∈ (host.syncModifiers evt s).2) : evt.down = true := by
  unfold syncModifiers at h
  split at h
  · assumption
  · cases h

/-! ### What the keys of the event do to a modifier -/

theorem mem_liftShift (hd : host.Documented) (right : Bool) (s : Finset κ) (x : κ) :
    x ∈ (if host.getModifierState s (.modifier .shift right) then
      host.keyUp (.modifier .shift right) s else s) ↔
        x ∈ s ∧ x ≠ host.code (.modifier .shift right) := by
  split
  · rw [mem_keyUp, and_comm]
  · next hup =>
    refine (and_iff_left_of_imp fun hx heq => hup ?_).symm
    exact (hd.modifierState_iff s .shift right).mpr ⟨right, heq ▸ hx⟩

theorem mem_releaseShiftForCharInput (hd : host.Documented) (s : Finset κ) :
    host.code (.modifier g right) ∈ host.releaseShiftForCharInput s ↔
      host.code (.modifier g right) ∈ s ∧
        ¬ (host.os.isLinux = true ∧ g = .shift ∧ host.isHotkeyModifierPressed s = false) := by
  unfold releaseShiftForCharInput
  split
  · next hlinux =>
    split
    · next hhotkey =>
      refine (and_iff_left fun ⟨_, _, hnone⟩ => ?_).symm
      rw [hhotkey] at hnone
      exact Bool.noConfusion hnone
    · next hhotkey =>
      rw [Bool.not_eq_true] at hhotkey
      rw [mem_liftShift hd, mem_liftShift hd, and_assoc]
      refine and_congr_right fun _ => ⟨fun ⟨hleft, hright⟩ ⟨_, hg, _⟩ => ?_, fun h => ?_⟩
      · subst hg
        cases right with
        | false => exact hleft rfl
        | true => exact hright rfl
      · have hg : g ≠ .shift := fun hg => h ⟨hlinux, hg, hhotkey⟩
        exact ⟨fun heq => hg (hd.groups heq), fun heq => hg (hd.groups heq)⟩
  · next hlinux => exact (and_iff_left fun h => hlinux h.1).symm

theorem mem_processControlKey (hown : ∀ key, controlKeyValueToKey ck = some key → x ≠ host.code key)
    (down : Bool) (s : Finset κ) : x ∈ host.processControlKey ck down s ↔ x ∈ s := by
  unfold processControlKey
  split
  · rfl
  · next key hkey =>
    split
    · rw [mem_keyDown]
      exact or_iff_right (hown key hkey)
    · rw [mem_keyUp]
      exact and_iff_right (hown key hkey)

theorem not_mem_needs {text : List Char} (h : x ∉ host.used text) : x ∉ host.needs text := by
  unfold used at h
  split at h
  · exact fun hx => h (Finset.mem_insert_of_mem hx)
  · exact h

theorem ne_shift_of_pasted {text : List Char} (h : x ∉ host.used text)
    (hos : host.os = .linux false true) (htext : text.all isAsciiPrintable = false) : x ≠ host.code
    (.modifier .shift false) := by
  unfold used at h
  rw [if_pos ⟨hos, htext⟩] at h
  exact fun hx => h (hx ▸ Finset.mem_insert_self _ _)

theorem mem_inputTextViaClipboardServer (hd : host.Documented) (hmod : host.IsModifier x)
    (hshift : x ≠ host.code (.modifier .shift false)) (text : List Char) (s : Finset κ) :
    x ∈ host.inputTextViaClipboardServer text s ↔ x ∈ s := by
  unfold inputTextViaClipboardServer
  split
  · rfl
  · have hinsert : x ≠ host.code (.raw 118) := fun h => hd.insert (h ▸ hmod)
    rw [mem_keyUp, mem_keyUp, mem_keyDown, mem_keyDown, and_iff_right hshift,
      and_iff_right hinsert, or_iff_right hinsert, or_iff_right hshift]

variable {chr : UInt32}

omit [DecidableEq κ] in
theorem mem_processLayoutKey (hd : host.Documented) (hmod : host.IsModifier x)
    (hchr : x ∉ host.needs [(charOfU32 chr).getD '\x00'])
    (hupper : x ∉ host.needs (host.toUppercase ((charOfU32 chr).getD '\x00'))) (down : Bool)
    (s : Finset κ) : x ∈ host.processLayoutKey chr down s ↔ x ∈ s := by
  have hkey := hd.layoutDown ((charOfU32 chr).getD '\x00') s hmod hchr
  unfold processLayoutKey
  dsimp only
  split
  · split
    · exact hkey
    · split
      · exact hkey
      · next c hc =>
        rw [hc, Option.getD_some] at hchr hupper hkey
        rw [← hkey, hc, Option.getD_some]
        refine hd.keySequence _ _ hmod ?_
        split
        · exact hupper
        · exact hchr
  · exact hd.layoutUp _ s hmod hchr

theorem mem_processChr (hd : host.Documented) (hmod : host.IsModifier x)
    (hchr : x ∉ host.used [(charOfU32 chr).getD '\x00'])
    (hupper : x ∉ host.used (host.toUppercase ((charOfU32 chr).getD '\x00')))
    (down hotkey : Bool) (s : Finset κ) : x ∈ host.processChr chr down hotkey s ↔ x ∈ s := by
  unfold processChr
  split
  · next hos =>
    split
    · rfl
    · next c hc =>
      rw [hc, Option.getD_some] at hchr
      split
      · split
        · exact hd.layoutDown c s hmod (not_mem_needs hchr)
        · exact hd.layoutUp c s hmod (not_mem_needs hchr)
      · next hascii =>
        split
        · refine mem_inputTextViaClipboardServer hd hmod ?_ [c] s
          refine ne_shift_of_pasted hchr hos.1 ?_
          rw [List.all_cons, Bool.eq_false_of_not_eq_true hascii, Bool.false_and]
        · rfl
  · split
    · split
      · rfl
      · next c hc =>
        rw [hc, Option.getD_some] at hchr
        split
        · exact hd.keySequence [c] s hmod (not_mem_needs hchr)
        · rfl
    · exact mem_processLayoutKey hd hmod (not_mem_needs hchr) (not_mem_needs hupper) down s

theorem mem_processSeq (hd : host.Documented) (hmod : host.IsModifier x) {sequence : List Char}
    (hseq : x ∉ host.used sequence) (s : Finset κ) : x ∈ host.processSeq sequence s ↔ x ∈ s := by
  unfold processSeq
  split
  · next hos =>
    split
    · exact hd.keySequence sequence s hmod (not_mem_needs hseq)
    · next hall =>
      refine mem_inputTextViaClipboardServer hd hmod ?_ sequence s
      exact ne_shift_of_pasted hseq hos (Bool.eq_false_of_not_eq_true hall)
  · exact hd.keySequence sequence s hmod (not_mem_needs hseq)

theorem mem_processUnicode (hd : host.Documented) (hmod : host.IsModifier x)
    (hchr : x ∉ host.used [(charOfU32 chr).getD '\x00']) (s : Finset κ) : x ∈ host.processUnicode
    chr s ↔ x ∈ s := by
  unfold processUnicode
  split
  · rfl
  · next c hc =>
    rw [hc, Option.getD_some] at hchr
    exact mem_processSeq hd hmod hchr s

theorem process_eq_none (h : host.process evt s = none) :
    ∃ ck, evt.union = some (.controlKey ck) ∧ isFunctionKey ck = true := by
  unfold process at h
  split at h
  · next ck hunion =>
    split at h
    · next hfunction => exact ⟨ck, hunion, hfunction⟩
    · cases h
  all_goals cases h

theorem mem_process (hd : host.Documented)
    (hown : ¬ Event.Own host (host.code (.modifier g right)) (.key evt)) {s s' : Finset κ}
    (hs' : host.process evt s = some s') :
    host.code (.modifier g right) ∈ s' ↔ host.code (.modifier g right) ∈ s ∧
      ¬ (host.os.isLinux = true ∧ g = .shift ∧
        (∃ chr, evt.union = some (.chr chr) ∨ evt.union = some (.unicode chr)) ∧
        host.isHotkeyModifierPressed s = false) := by
  have hmod := host.isModifier_code g right
  have htexts : ∀ text ∈ host.texts evt, host.code (.modifier g right) ∉ host.used text :=
    fun text htext hused => hown (.inr ⟨text, htext, hused⟩)
  unfold texts at htexts
  unfold process at hs'
  split at hs'
  · next ck hunion =>
    split at hs'
    · cases hs'
    · cases hs'
      have hkey : ∀ key, controlKeyValueToKey ck = some key →
          host.code (.modifier g right) ≠ host.code key :=
        fun key hkey heq => hown (.inl ⟨ck, key, hunion, hkey, heq⟩)
      rw [mem_processControlKey hkey]
      exact (and_iff_left fun ⟨_, _, ⟨chr, hchr⟩, _⟩ => by simp [hunion] at hchr).symm
  · next chr hunion =>
    cases hs'
    rw [hunion] at htexts
    have hused := htexts _ List.mem_cons_self
    have hupper := htexts _ (List.mem_cons_of_mem _ List.mem_cons_self)
    rw [mem_processChr hd hmod hused hupper, mem_releaseShiftForCharInput hd]
    refine and_congr_right fun _ => not_congr (and_congr_right fun _ => and_congr_right fun _ => ?_)
    exact (and_iff_right ⟨chr, .inl hunion⟩).symm
  · next chr hunion =>
    cases hs'
    rw [hunion] at htexts
    rw [mem_processUnicode hd hmod (htexts _ List.mem_cons_self), mem_releaseShiftForCharInput hd]
    refine and_congr_right fun _ => not_congr (and_congr_right fun _ => and_congr_right fun _ => ?_)
    exact (and_iff_right ⟨chr, .inr hunion⟩).symm
  · next seq hunion =>
    cases hs'
    rw [hunion] at htexts
    rw [mem_processSeq hd hmod (htexts _ List.mem_cons_self)]
    exact (and_iff_left fun ⟨_, _, ⟨chr, hchr⟩, _⟩ => by simp [hunion] at hchr).symm
  · next hchr hunicode _ =>
    cases hs'
    exact (and_iff_left fun ⟨_, _, ⟨chr, h⟩, _⟩ => h.elim (hchr chr) (hunicode chr)).symm

/-! ### The event as a whole -/

theorem controlKeyValueToKey_value (g : Group) (right : Bool) :
    controlKeyValueToKey (g.value right) = some (.modifier g right) := by
  cases g <;> cases right <;> decide

theorem ne_of_value (hown : ¬ Event.Own host (host.code (.modifier g right)) (.key evt)) (r : Bool)
    (hr : getControlKeyValue evt = g.value r) : host.code (.modifier g right) ≠ host.code
    (.modifier g r) := by
  unfold getControlKeyValue at hr
  split at hr
  · next ck hunion =>
    intro heq
    rw [hr] at hunion
    exact hown (.inl ⟨g.value r, .modifier g r, hunion, controlKeyValueToKey_value g r, heq⟩)
  · cases g <;> cases r <;> cases hr

theorem ne_of_value_mouse (r : Bool) (hr : (0 : Int32) = g.value r) : False := by
  cases g <;> cases r <;> cases hr

theorem mem_legacyKeyboardMode (hd : host.Documented) (s : Finset κ)
    (hown : ¬ Event.Own host (host.code (.modifier g right)) (.key evt))
    (hskips : ¬ Event.Skips host s (host.code (.modifier g right)) (.key evt)) :
    host.code (.modifier g right) ∈ host.legacyKeyboardMode evt s ↔
      host.code (.modifier g right) ∈ s ∧ Stays host s g (.key evt) := by
  have hmod := host.isModifier_code g right
  have htemporary := temporary_syncModifiers hd evt s
  -- what the list lets stay down
  have hfix : host.code (.modifier g right) ∈
      (if evt.down then host.fixModifiers evt.modifiers s (getControlKeyValue evt) else s) ↔
        host.code (.modifier g right) ∈ s ∧
          (evt.down = true → host.Held evt.modifiers (getControlKeyValue evt) s g) := by
    split
    · next hdown =>
      rw [mem_fixModifiers hd evt.modifiers s (ne_of_value hown), forall_prop_of_true hdown]
    · next hdown => exact (and_iff_left fun h => absurd h hdown).symm
  unfold Stays
  rw [← and_assoc, ← hfix]
  unfold legacyKeyboardMode
  dsimp only
  split
  · next hprocess =>
    -- the function keys return before the modifiers are released
    obtain ⟨ck, hunion, hfunction⟩ := process_eq_none hprocess
    rw [htemporary.mem_iff]
    have hlifts : ¬ host.LiftsShift evt s g :=
      fun ⟨_, _, ⟨chr, hchr⟩, _⟩ => by simp [hunion] at hchr
    rw [and_iff_left hlifts]
    refine or_iff_left fun ⟨key, hkey, heq⟩ => ?_
    obtain ⟨v, hv, hvkey⟩ := htemporary.listed key hkey
    have hfresh := htemporary.fresh key hkey (heq ▸ hmod)
    have hdown : evt.down = true := down_of_pressed hkey
    rw [if_pos hdown, ← heq] at hfresh
    exact hskips ⟨hdown, ⟨ck, hunion, hfunction⟩, ⟨v, hv, key, hvkey, heq⟩, hfresh⟩
  · next s' hprocess => exact htemporary.mem_releaseKeys hmod (mem_process hd hown hprocess)

theorem mem_handleMouseDown (hd : host.Documented) (s : Finset κ) (modifiers : List Int32) :
    host.code (.modifier g right) ∈ host.handleMouseDown modifiers s ↔
      host.code (.modifier g right) ∈ s ∧ host.Held modifiers 0 s g := by
  have hmod := host.isModifier_code g right
  rw [← mem_fixModifiers hd modifiers s fun r hr => (ne_of_value_mouse r hr).elim]
  unfold handleMouseDown
  split
  · rfl
  · have htemporary := temporary_pressMouseModifiers hd modifiers (host.fixModifiers modifiers s 0)
    rw [htemporary.mem_releaseKeys hmod (and_iff_left trivial).symm]
    exact and_iff_left trivial

end Host

/-- **The modifiers after an event** that is not about them are those that were down and stay. -/
theorem mem_handle_iff {κ : Type} [DecidableEq κ] {host : Host κ} (hd : host.Documented)
    {s : Finset κ} {ev : Event} {g : Group} {right : Bool}
    (hown : ¬ ev.Own host (host.code (.modifier g right)))
    (hskips : ¬ ev.Skips host s (host.code (.modifier g right))) :
    host.code (.modifier g right) ∈ host.handle s ev ↔
      host.code (.modifier g right) ∈ s ∧ Stays host s g ev := by
  cases ev with
  | key evt => exact Host.mem_legacyKeyboardMode hd s hown hskips
  | mouseDown modifiers => exact Host.mem_handleMouseDown hd s modifiers

/-! ### A keyboard without levels -/

/-- A keyboard on which every character has a key of its own, so that none needs a modifier. -/
def plain (os : Os) : Host Key where
  os := os
  code := id
  getKeyState s key := decide (key ∈ s)
  layoutDown c s := (true, insert (.raw c.toNat) s)
  layoutUp c s := s.erase (.raw c.toNat)
  keySequence _ s := s
  setClipboardForPasteSync _ := true
  isAltgrPressed := false
  toUppercase c := [c.toUpper]
  needs _ := ∅

theorem plain_isModifier {os : Os} {x : Key} (h : (plain os).IsModifier x) (code : ℕ) :
    x ≠ .raw code := by
  obtain ⟨g, right, rfl⟩ := h
  exact Key.noConfusion

theorem plain_documented (os : Os) : (plain os).Documented where
  state_iff s g := exists_congr fun right => decide_eq_true_iff
  state_other s key _ hstate _ := of_decide_eq_false hstate
  groups h := by
    cases h
    rfl
  insert h := plain_isModifier h 118 rfl
  layoutDown c s x hmod _ := by
    refine Finset.mem_insert.trans (or_iff_right ?_)
    exact plain_isModifier hmod c.toNat
  layoutUp c s x hmod _ := by
    refine Finset.mem_erase.trans (and_iff_right ?_)
    exact plain_isModifier hmod c.toNat
  keySequence _ _ _ _ _ := Iff.rfl

theorem plain_not_own {os : Os} {evt : Modifiers.KeyEvent}
    (hunion : evt.union = some (.controlKey 27)) (g : Group) (right : Bool) :
    ¬ Event.Own (plain os) (.modifier g right) (.key evt) := by
  rintro (⟨ck, key, hck, hkey, heq⟩ | ⟨text, htext, -⟩)
  · rw [hunion] at hck
    cases hck
    have hreturn : controlKeyValueToKey 27 = some (.other 27) := by decide
    rw [hreturn] at hkey
    cases hkey
    exact Key.noConfusion heq
  · unfold Host.texts at htext
    rw [hunion] at htext
    cases htext

/-- `Return` goes down with Shift. -/
def returnDown : Modifiers.KeyEvent :=
  { down := true, union := some (.controlKey 27), modifiers := [29] }

/-- Shift is held, on the other side, and Control is not. -/
theorem mem_handle_returnDown :
    (plain .windows).code (.modifier .shift true) ∈ (plain .windows).handle
        {.modifier .shift true, .modifier .control false} (.key returnDown) ∧
      (plain .windows).code (.modifier .control false) ∉ (plain .windows).handle
        {.modifier .shift true, .modifier .control false} (.key returnDown) := by
  have hskips : ∀ g right, ¬ Event.Skips (plain .windows)
      {.modifier .shift true, .modifier .control false} (.modifier g right) (.key returnDown) := by
    rintro g right ⟨-, ⟨ck, hck, hfunction⟩, -⟩
    cases hck
    exact absurd hfunction (by decide)
  have hlifts : ∀ g, ¬ Host.LiftsShift (plain .windows) returnDown
      {.modifier .shift true, .modifier .control false} g := fun g h => Bool.noConfusion h.1
  constructor
  · refine (mem_handle_iff (plain_documented .windows) (plain_not_own rfl .shift true)
      (hskips .shift true)).mpr ⟨by decide, fun _ => .inl (by decide), hlifts .shift⟩
  · refine fun hmem => ?_
    obtain ⟨-, hheld, -⟩ := (mem_handle_iff (plain_documented .windows)
      (plain_not_own rfl .control false) (hskips .control false)).mp hmem
    rcases hheld rfl with hlisted | ⟨-, -, halt⟩
    · exact absurd hlisted (by decide)
    · exact absurd halt (by decide)

def Event.modifiers : Event → List Int32
  | .key evt => evt.modifiers
  | .mouseDown modifiers => modifiers

/-- After the event the modifier is down when it was, and the list has it. -/
def AsListed {κ : Type} [DecidableEq κ] (host : Host κ) (s : Finset κ) (ev : Event) (g : Group)
    (right : Bool) : Prop :=
  ¬ ev.Own host (host.code (.modifier g right)) →
    (host.code (.modifier g right) ∈ host.handle s ev ↔
      host.code (.modifier g right) ∈ s ∧ g.value false ∈ ev.modifiers)

/-- The right Alt goes down with Control (AltGr), and the list has the Alt. -/
def altGrDown : Modifiers.KeyEvent :=
  { down := true, union := some (.controlKey 27), modifiers := [1] }

/-- `Return` goes up, and the list is empty. -/
def returnUp : Modifiers.KeyEvent := { union := some (.controlKey 27) }

/-- An `A`, with its Shift. -/
def capitalDown : Modifiers.KeyEvent := { down := true, union := some (.chr 65), modifiers := [29] }

/-- Control stays as a part of AltGr, a key-up leaves it, and on Linux a character lifts Shift. -/
theorem not_asListed :
    ¬ AsListed (plain .windows) {.modifier .control false, .modifier .alt true}
        (.key altGrDown) .control false ∧
      ¬ AsListed (plain .windows) {.modifier .control false} (.key returnUp) .control false ∧
      ¬ AsListed (plain (.linux true false)) {.modifier .shift false} (.key capitalDown)
        .shift false := by
  refine ⟨fun h => ?_, fun h => ?_, fun h => ?_⟩
  · have hmem := (h (plain_not_own rfl .control false)).mp (by decide)
    exact absurd hmem.2 (by decide)
  · have hmem := (h (plain_not_own rfl .control false)).mp (by decide)
    exact absurd hmem.2 (by decide)
  · have hown : ¬ Event.Own (plain (.linux true false)) (.modifier .shift false)
        (.key capitalDown) := by
      rintro (⟨ck, key, hck, -⟩ | ⟨text, htext, hused⟩)
      · cases hck
      · have hx11 : (plain (.linux true false)).os ≠ .linux false true := by decide
        unfold Host.used at hused
        rw [if_neg fun h => hx11 h.1] at hused
        exact Finset.notMem_empty _ hused
    exact absurd ((h hown).mpr (by decide)) (by decide)

end LibRustdesk.Desktop.LegacyKeys
