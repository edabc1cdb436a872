import LibRustdesk.Bridge.Events
import LibRustdesk.Framework.Table

/-!
# The services of the OHOS server

`Server` of `harmony_bridge/server_ohos.rs` with its services and their subscribers, and for each
operation what it does to the subscriptions: `Server.holds_subscribe`,
`Server.holds_addConnection` and `Server.holds_removeConnection` say which subscriptions can be
there afterwards.

A service sends to the channels of its subscribers. A channel belongs to one connection task, and
a task is numbered by the order in which it was started, so a `ConnInner` names the task it
reaches. The ids themselves are `i32` and wrap.
-/

namespace LibRustdesk

namespace Ohos

open Bridge (displayInt)

/-- `ConnInner`: the id of a connection and the task at the other end of its channels. -/
structure ConnInner where
  id : Int32
  tx : ℕ
  deriving DecidableEq, Repr

/-! ### Services -/

/-- `ServiceInner`. A subscriber is either active or waits for a snapshot; a service that takes
no snapshots has no waiting subscribers. -/
structure ServiceInner where
  name : List Char
  subscribes : Table Int32 ConnInner
  newSubscribes : Table Int32 ConnInner
  needSnapshot : Bool
  disjoint : ∀ id, subscribes id ≠ none → newSubscribes id = none
  direct : needSnapshot = false → ∀ id, newSubscribes id = none

namespace ServiceInner

def new (name : List Char) (needSnapshot : Bool) : ServiceInner where
  name := name
  subscribes := Table.empty
  newSubscribes := Table.empty
  needSnapshot := needSnapshot
  disjoint := fun _ _ => rfl
  direct := fun _ _ => rfl

def isSubed (s : ServiceInner) (id : Int32) : Bool :=
  (s.subscribes id).isSome || (s.newSubscribes id).isSome

def onSubscribe (s : ServiceInner) (sub : ConnInner) : ServiceInner :=
  if h : s.subscribes sub.id ≠ none then s
  else if hn : s.needSnapshot = true then
    { s with
      newSubscribes := s.newSubscribes.insert sub.id sub
      disjoint := by
        intro id hid
        have hne : id ≠ sub.id := by
          rintro rfl
          exact h hid
        rw [Table.insert_of_ne _ _ hne]
        exact s.disjoint id hid
      direct := fun hf => absurd hn (by rw [hf]; exact Bool.false_ne_true) }
  else
    { s with
      subscribes := s.subscribes.insert sub.id sub
      disjoint := fun id _ => s.direct (Bool.eq_false_iff.mpr hn) id }

def onUnsubscribe (s : ServiceInner) (id : Int32) : ServiceInner :=
  if s.subscribes id ≠ none then
    { s with
      subscribes := s.subscribes.remove id
      disjoint := by
        intro j hj
        rw [Table.remove_apply] at hj
        split at hj
        · exact absurd rfl hj
        · exact s.disjoint j hj }
  else
    { s with
      newSubscribes := s.newSubscribes.remove id
      disjoint := by
        intro j hj
        rw [Table.remove_apply, s.disjoint j hj, ite_self]
      direct := by
        intro hf j
        rw [Table.remove_apply, s.direct hf j, ite_self] }

/-- `swap_new_subscribes`, at the end of a snapshot. -/
def swapNewSubscribes (s : ServiceInner) : ServiceInner :=
  { s with
    subscribes := s.subscribes.extend s.newSubscribes
    newSubscribes := Table.empty
    disjoint := fun _ _ => rfl
    direct := fun _ _ => rfl }

/-- `conn` is subscribed under `id`. -/
def Holds (s : ServiceInner) (id : Int32) (conn : ConnInner) : Prop :=
  s.subscribes id = some conn ∨ s.newSubscribes id = some conn

theorem not_holds_new (name : List Char) (needSnapshot : Bool) (id : Int32) (conn : ConnInner) :
    ¬ (new name needSnapshot).Holds id conn := by
  rintro (h | h) <;> exact absurd h (by simp [new])

theorem isSubed_iff (s : ServiceInner) (id : Int32) :
    s.isSubed id = true ↔ ∃ conn, s.Holds id conn := by
  unfold isSubed Holds
  rw [Bool.or_eq_true, Option.isSome_iff_exists, Option.isSome_iff_exists, exists_or]

variable {s : ServiceInner}

theorem holds_onSubscribe {sub conn : ConnInner} {id : Int32}
    (h : (s.onSubscribe sub).Holds id conn) : s.Holds id conn ∨ id = sub.id ∧ conn = sub := by
  unfold onSubscribe at h
  split_ifs at h with h1 h2
  · exact Or.inl h
  · rcases h with h | h
    · exact Or.inl (Or.inl h)
    · simp only [Table.insert_apply] at h
      split_ifs at h with hid
      · exact Or.inr ⟨hid, (Option.some.inj h).symm⟩
      · exact Or.inl (Or.inr h)
  · rcases h with h | h
    · simp only [Table.insert_apply] at h
      split_ifs at h with hid
      · exact Or.inr ⟨hid, (Option.some.inj h).symm⟩
      · exact Or.inl (Or.inl h)
    · exact Or.inl (Or.inr h)

theorem onSubscribe_holds {sub : ConnInner} (h : s.isSubed sub.id = false) :
    (s.onSubscribe sub).Holds sub.id sub := by
  unfold isSubed at h
  rw [Bool.or_eq_false_iff, Option.isSome_eq_false_iff, Option.isNone_iff_eq_none] at h
  unfold onSubscribe
  rw [dif_neg (not_not.mpr h.1)]
  split_ifs
  · exact Or.inr (Table.insert_self _ _ _)
  · exact Or.inl (Table.insert_self _ _ _)

theorem holds_onUnsubscribe {id j : Int32} {conn : ConnInner}
    (h : (s.onUnsubscribe id).Holds j conn) : s.Holds j conn ∧ j ≠ id := by
  unfold onUnsubscribe at h
  split_ifs at h with hs
  · rcases h with h | h
    · simp only [Table.remove_apply] at h
      split_ifs at h with hid
      exact ⟨Or.inl h, hid⟩
    · refine ⟨Or.inr h, ?_⟩
      -- an active subscriber does not wait
      rintro rfl
      rw [s.disjoint j hs] at h
      exact absurd h (by simp)
  · rcases h with h | h
    · refine ⟨Or.inl h, ?_⟩
      rintro rfl
      exact hs (by rw [h]; simp)
    · simp only [Table.remove_apply] at h
      split_ifs at h with hid
      exact ⟨Or.inr h, hid⟩

theorem holds_swapNewSubscribes {id : Int32} {conn : ConnInner}
    (h : s.swapNewSubscribes.Holds id conn) : s.Holds id conn := by
  rcases h with h | h
  · simp only [swapNewSubscribes, Table.extend_apply, Option.or_eq_some_iff] at h
    rcases h with h | h
    · exact Or.inr h
    · exact Or.inl h.2
  · exact absurd h (by simp [swapNewSubscribes])

end ServiceInner

/-! ### The server -/

inductive VideoSource
  | monitor
  | camera
  deriving DecidableEq, Repr

def VideoSource.serviceNamePrefix : VideoSource → List Char
  | .monitor => "monitor".toList
  | .camera => "camera".toList

def getServiceName (source : VideoSource) (idx : ℕ) : List Char :=
  source.serviceNamePrefix ++ displayInt idx

def monitor0 : List Char := getServiceName .monitor 0

/-- `audio_service::NAME`. -/
def audioName : List Char := "audio".toList

structure Server where
  connections : Table Int32 ConnInner
  services : Table (List Char) ServiceInner
  idCount : Int32

namespace Server

def addService (s : Server) (service : ServiceInner) : Server :=
  { s with services := s.services.insert service.name service }

/-- `new`, with the random start of the ids. -/
def new (idCount : Int32) : Server :=
  let server : Server := ⟨Table.empty, Table.empty, idCount⟩
  let server := server.addService (ServiceInner.new audioName false)
  let server := server.addService (ServiceInner.new "display".toList true)
  server.addService (ServiceInner.new "clipboard".toList false)

def getNewId (s : Server) : Server × Int32 :=
  ({ s with idCount := s.idCount + 1 }, s.idCount + 1)

def subscribe (s : Server) (name : List Char) (conn : ConnInner) (sub : Bool) : Server :=
  match s.services name with
  | none => s
  | some svc =>
    if svc.isSubed conn.id = sub then s
    else if sub then { s with services := s.services.insert name (svc.onSubscribe conn) }
    else { s with services := s.services.insert name (svc.onUnsubscribe conn.id) }

def isVideoServiceName (name : List Char) : Bool :=
  VideoSource.monitor.serviceNamePrefix.isPrefixOf name ||
    VideoSource.camera.serviceNamePrefix.isPrefixOf name

def addConnection (s : Server) (conn : ConnInner) (noperms : List (List Char)) : Server :=
  let services := s.services.mapValues fun svc =>
    if isVideoServiceName svc.name && svc.name ≠ monitor0 then svc
    else if svc.name ∉ noperms then svc.onSubscribe conn
    else svc
  { s with services := services, connections := s.connections.insert conn.id conn }

def removeConnection (s : Server) (conn : ConnInner) : Server :=
  let services := s.services.mapValues fun svc => svc.onUnsubscribe conn.id
  { s with services := services, connections := s.connections.remove conn.id }

def tryAddPrimayVideoService (s : Server) : Server :=
  if (s.services monitor0).isSome then s else s.addService (ServiceInner.new monitor0 true)

/-- `conn` is subscribed under `id` to the service `name`. -/
def Holds (s : Server) (name : List Char) (id : Int32) (conn : ConnInner) : Prop :=
  ∃ svc, s.services name = some svc ∧ svc.Holds id conn

/-! What each operation does to the subscriptions. -/

theorem not_holds_new (idCount : Int32) (name : List Char) (id : Int32) (conn : ConnInner) :
    ¬ (new idCount).Holds name id conn := by
  rintro ⟨svc, hsvc, h⟩
  simp only [new, addService, Table.insert_apply, Table.empty_apply] at hsvc
  split_ifs at hsvc <;> (cases hsvc; exact ServiceInner.not_holds_new _ _ _ _ h)

variable {conn c : ConnInner} {id : Int32}

theorem holds_subscribe {s : Server} {n name : List Char} {sub : Bool}
    (h : (s.subscribe n conn sub).Holds name id c) :
    s.Holds name id c ∨
      sub = true ∧ name = n ∧ id = conn.id ∧ c = conn ∧
        ∃ svc, s.services n = some svc ∧ svc.isSubed conn.id = false := by
  unfold subscribe at h
  cases hn : s.services n with
  | none =>
    rw [hn] at h
    exact Or.inl h
  | some svc =>
    rw [hn] at h
    simp only at h
    split_ifs at h with h1 h2
    · exact Or.inl h
    · obtain ⟨svc', hsvc, hh⟩ := h
      simp only [Table.insert_apply] at hsvc
      split_ifs at hsvc with hname
      · obtain rfl := Option.some.inj hsvc
        rcases ServiceInner.holds_onSubscribe hh with hh | ⟨hid, hc⟩
        · exact Or.inl ⟨svc, by rw [hname, hn], hh⟩
        · refine Or.inr ⟨h2, hname, hid, hc, svc, rfl, ?_⟩
          rw [h2] at h1
          exact Bool.eq_false_iff.mpr h1
      · exact Or.inl ⟨svc', hsvc, hh⟩
    · obtain ⟨svc', hsvc, hh⟩ := h
      simp only [Table.insert_apply] at hsvc
      split_ifs at hsvc with hname
      · obtain rfl := Option.some.inj hsvc
        exact Or.inl ⟨svc, by rw [hname, hn], (ServiceInner.holds_onUnsubscribe hh).1⟩
      · exact Or.inl ⟨svc', hsvc, hh⟩

theorem subscribe_holds {s : Server} {n : List Char} {conn : ConnInner} {svc : ServiceInner}
    (hn : s.services n = some svc) (h : svc.isSubed conn.id = false) :
    (s.subscribe n conn true).Holds n conn.id conn := by
  refine ⟨svc.onSubscribe conn, ?_, ServiceInner.onSubscribe_holds h⟩
  simp [subscribe, hn, h]

variable {name : List Char}

theorem holds_addConnection {s : Server} {noperms : List (List Char)}
    (h : (s.addConnection conn noperms).Holds name id c) : s.Holds name id c ∨ id = conn.id ∧ c =
    conn := by
  obtain ⟨svc', hsvc, hh⟩ := h
  simp only [addConnection, Table.mapValues_apply, Option.map_eq_some_iff] at hsvc
  obtain ⟨svc, hsvc, rfl⟩ := hsvc
  split_ifs at hh
  · exact Or.inl ⟨svc, hsvc, hh⟩
  · exact Or.inl ⟨svc, hsvc, hh⟩
  · exact (ServiceInner.holds_onSubscribe hh).imp_left fun hh => ⟨svc, hsvc, hh⟩

theorem holds_removeConnection {s : Server}
    (h : (s.removeConnection conn).Holds name id c) : s.Holds name id c ∧ id ≠ conn.id := by
  obtain ⟨svc', hsvc, hh⟩ := h
  simp only [removeConnection, Table.mapValues_apply, Option.map_eq_some_iff] at hsvc
  obtain ⟨svc, hsvc, rfl⟩ := hsvc
  obtain ⟨hh, hne⟩ := ServiceInner.holds_onUnsubscribe hh
  exact ⟨⟨svc, hsvc, hh⟩, hne⟩

theorem holds_tryAddPrimayVideoService {s : Server} {c : ConnInner}
    (h : s.tryAddPrimayVideoService.Holds name id c) : s.Holds name id c := by
  unfold tryAddPrimayVideoService at h
  split_ifs at h
  · exact h
  · obtain ⟨svc, hsvc, hh⟩ := h
    simp only [addService, Table.insert_apply] at hsvc
    split_ifs at hsvc
    · obtain rfl := Option.some.inj hsvc
      exact absurd hh (ServiceInner.not_holds_new _ _ _ _)
    · exact ⟨svc, hsvc, hh⟩

end Server

end Ohos

end LibRustdesk
