import LibRustdesk.Server.Messages

/-!
# The services of the server

`Server` of `src/server.rs` as one connection sees it: which services are registered, and which of
them the connection is subscribed to. A name is a text in the source; the names of the displays and
cameras are the prefix of their source and an index, and differ from each other and from the rest.
-/

namespace LibRustdesk.Desktop

inductive VideoSource
  | monitor
  | camera
  deriving DecidableEq

inductive ServiceName
  | video (source : VideoSource) (idx : ℕ)
  | audio
  | display
  | clipboard
  | fileClipboard
  | cursor
  | pos
  | windowFocus
  deriving DecidableEq

/-- `is_video_service_name`. -/
def ServiceName.isVideo : ServiceName → Bool
  | video _ _ => true
  | _ => false

structure Server where
  services : List ServiceName
  subed : ServiceName → Bool

namespace Server

/-- `add_service`, of a service that is not there. -/
def addService (s : Server) (name : ServiceName) : Server :=
  if name ∈ s.services then s else { s with services := s.services ++ [name] }

def subscribe (s : Server) (name : ServiceName) (sub : Bool) : Server :=
  if name ∈ s.services then { s with subed := Function.update s.subed name sub } else s

/-- `get_subbed_displays_count`. -/
def subbedDisplaysCount (s : Server) : ℕ :=
  s.services.countP fun name => name.isVideo && s.subed name

@[simp] theorem services_subscribe (s : Server) (name : ServiceName) (sub : Bool) :
    (s.subscribe name sub).services = s.services := by
  unfold subscribe
  split <;> rfl

theorem subed_subscribe_self {s : Server} {name : ServiceName} (h : name ∈ s.services)
    (sub : Bool) : (s.subscribe name sub).subed name = sub := by
  unfold subscribe
  rw [if_pos h]
  exact Function.update_self name sub s.subed

theorem subed_subscribe_other (s : Server) {name name' : ServiceName} (h : name' ≠ name)
    (sub : Bool) : (s.subscribe name sub).subed name' = s.subed name' := by
  unfold subscribe
  split
  · exact Function.update_of_ne h sub s.subed
  · rfl

@[simp] theorem subed_addService (s : Server) (name : ServiceName) :
    (s.addService name).subed = s.subed := by
  unfold addService
  split <;> rfl

theorem mem_services_addService {s : Server} {name name' : ServiceName} :
    name' ∈ (s.addService name).services ↔ name' ∈ s.services ∨ name' = name := by
  unfold addService
  split
  · next h =>
    constructor
    · exact Or.inl
    · rintro (h' | rfl)
      · exact h'
      · exact h
  · simp

end Server

end LibRustdesk.Desktop
