import LibRustdesk.Framework.KeyedMap
import LibRustdesk.Framework.LittleEndian
import LibRustdesk.Framework.Machine

/-!
# Confirmed keys

`set_key_confirmed`, `get_host_key_confirmed` and `set_host_key_confirmed` of `Config`, of
`libs/hbb_common/src/config.rs`, with what else changes the key pair.

The device registers its key with every rendezvous server, and registers it again where the
configuration does not have it as confirmed: by the flag, and by the server itself under its host.
When the id or the key changes, `set_key_confirmed(false)` is called, to forget both. But it returns
early where the flag is down already, and then the servers that have been confirmed since stay so.

* `Config.getHostKeyConfirmed_setKeyConfirmed_false` — what one call leaves of the confirmations.
* `Config.Resets` — **every `set_key_confirmed(false)` of a run leaves no server confirmed**.
* `Config.resets_iff` — exactly when that is so: whenever it is called, the flag is up, or no
  server is confirmed to begin with.
-/

namespace LibRustdesk

open LittleEndian

structure Config where
  id : String := ""
  encId : String := ""
  password : String := ""
  salt : String := ""
  /-- The secret key and the public key. -/
  keyPair : Bytes × Bytes := ([], [])
  keyConfirmed : Bool := false
  keysConfirmed : KeyedMap String Bool := ∅

namespace Config

variable (c : Config)

/-- A configuration, and what has been written to its file meanwhile. -/
abbrev Written := Config × List Config

def store : Written := (c, [c])

def setKeyConfirmed (v : Bool) : Written :=
  if c.keyConfirmed = v then (c, [])
  else if v then store { c with keyConfirmed := v }
  else store { c with keyConfirmed := v, keysConfirmed := ∅ }

def getHostKeyConfirmed (host : String) : Bool :=
  c.keysConfirmed.lookup host = some true

def setHostKeyConfirmed (host : String) (v : Bool) : Written :=
  if c.getHostKeyConfirmed host = v then (c, [])
  else store { c with keysConfirmed := c.keysConfirmed.insert host v }

/-- The thread of `get_key_pair`, which keeps the pair that has been generated. -/
def keepKeyPair (keyPair : Bytes × Bytes) : Written :=
  store { c with keyPair := keyPair }

/-- The derived `eq`. -/
def equal (d : Config) : Bool :=
  c.id = d.id && c.encId = d.encId && c.password = d.password && c.salt = d.salt &&
    c.keyPair = d.keyPair && c.keyConfirmed = d.keyConfirmed &&
    c.keysConfirmed.equal d.keysConfirmed

/-- `Config::set`, by which a configuration is synchronised as a whole. -/
def set (cfg : Config) : Written :=
  if c.equal cfg then (c, []) else store cfg

/-! ### Calls -/

/-- A call that changes the confirmations or the key pair. -/
inductive Call
  | setKeyConfirmed (v : Bool)
  | setHostKeyConfirmed (host : String) (v : Bool)
  | keepKeyPair (keyPair : Bytes × Bytes)
  | set (cfg : Config)

def step (c : Config) : Call → Written
  | .setKeyConfirmed v => c.setKeyConfirmed v
  | .setHostKeyConfirmed host v => c.setHostKeyConfirmed host v
  | .keepKeyPair keyPair => c.keepKeyPair keyPair
  | .set cfg => c.set cfg

/-- The configuration under calls, which write the file. -/
def machine : Machine Config Call Config := ⟨step⟩

def NoneConfirmed : Prop := ∀ host, c.getHostKeyConfirmed host = false

variable {c}

/-! ### What a call leaves -/

theorem noneConfirmed_of_empty (h : c.keysConfirmed = ∅) : c.NoneConfirmed := by
  intro host
  unfold getHostKeyConfirmed
  rw [h]
  rfl

theorem getHostKeyConfirmed_setKeyConfirmed_false (host : String) :
    (c.setKeyConfirmed false).1.getHostKeyConfirmed host =
      (!c.keyConfirmed && c.getHostKeyConfirmed host) := by
  unfold setKeyConfirmed
  cases hflag : c.keyConfirmed with
  | false => rfl
  | true => exact noneConfirmed_of_empty rfl host

theorem noneConfirmed_setKeyConfirmed_false :
    (c.setKeyConfirmed false).1.NoneConfirmed ↔ c.keyConfirmed = true ∨ c.NoneConfirmed := by
  unfold NoneConfirmed
  simp only [getHostKeyConfirmed_setKeyConfirmed_false]
  cases c.keyConfirmed with
  | false | true => simp

/-! ### Runs -/

/-- Every `set_key_confirmed(false)` of the run leaves no server confirmed. -/
def Resets (c : Config) (calls : List Call) : Prop :=
  ∀ pre post, calls = pre ++ .setKeyConfirmed false :: post →
    (machine.run c (pre ++ [.setKeyConfirmed false])).NoneConfirmed

/-- `set_key_confirmed(false)` is called with the flag up, or with no server confirmed. -/
def EarlyReturnIsFine (c : Config) : Call → Prop
  | .setKeyConfirmed false => c.keyConfirmed = true ∨ c.NoneConfirmed
  | _ => True

/-- **Exactly where every reset of a run resets.** -/
theorem resets_iff (c : Config) (calls : List Call) :
    Resets c calls ↔ machine.Meets EarlyReturnIsFine c calls := by
  have hnext : ∀ pre, machine.run c (pre ++ [.setKeyConfirmed false]) =
      ((machine.run c pre).setKeyConfirmed false).1 := fun pre => machine.run_append c pre _
  constructor
  · intro h ⟨d, call⟩ hmem
    obtain ⟨pre, post, rfl, hrun⟩ := machine.exists_split_of_mem_trace hmem
    match call with
    | .setKeyConfirmed false =>
      have hnone := h pre post rfl
      rw [hnext, hrun] at hnone
      exact noneConfirmed_setKeyConfirmed_false.mp hnone
    | .setKeyConfirmed true | .setHostKeyConfirmed _ _ | .keepKeyPair _ | .set _ => trivial
  · rintro h pre post rfl
    rw [hnext]
    exact noneConfirmed_setKeyConfirmed_false.mpr (h _ (machine.mem_trace_split c pre _ post))

/-- A server confirms the key while the flag is taken down, between the two calls it makes, and
stays confirmed when the key changes once more. -/
theorem confirmed_after_reset :
    ¬ Resets {} [.setKeyConfirmed true, .setKeyConfirmed false, .setHostKeyConfirmed "hbbs" true,
      .setKeyConfirmed false] := by
  intro h
  have hnone := h [.setKeyConfirmed true, .setKeyConfirmed false,
    .setHostKeyConfirmed "hbbs" true] [] rfl "hbbs"
  revert hnone
  decide

end Config

end LibRustdesk
