import LibRustdesk.Ohos.Authorization

/-!
# Subscribers and connections

Whether every subscriber of a service is a connection of the server. `add_connection` and
`remove_connection` keep the two together; two paths do not. A new login of a peer takes the older
connection of the same peer out of `connections` and leaves its subscriptions, and `RefreshVideo`
subscribes a connection that never joined the server.

* `connections_next` — how a connection leaves the server's table.
* `subscribed_connected` — in runs that take neither path, every subscriber is a connection, and a
  replaced connection receives nothing until it logs in again.
* `replaced_connection_subscribed` — the older connection of a peer that logs in twice stays
  subscribed.
-/

namespace LibRustdesk

namespace Ohos

namespace World

variable {crypto : Crypto} {w : World}

/-- The step is an accepted login that replaces the connection `oldId`. -/
def Replaces (crypto : Crypto) (w : World) (e : Event) (oldId : Int32) : Prop :=
  ∃ t task lr env, e = .message t (.loginRequest lr) env ∧ w.tasks t = some task ∧
    task.pending = false ∧ validatePassword crypto env.config task.hash lr = true ∧
      w.replaced lr.myId task.inner.id = some oldId

/-- The step is an accepted login on a connection with id `id`. -/
def LogsIn (crypto : Crypto) (id : Int32) (w : World) (e : Event) : Prop :=
  ∃ t task, w.tasks t = some task ∧ task.inner.id = id ∧ AcceptedLogin crypto w t e

/-- The call sends a frame to the subscriber `id`. -/
def Reaches (o : Out) (id : Int32) : Prop :=
  ∃ service recipients conn, o = .frame service recipients ∧ recipients id = some conn

/-- The step replaces only a connection that no service has as a subscriber and that is not about
to join, and subscribes by `RefreshVideo` only a connection of the server. -/
def Clean (crypto : Crypto) (w : World) (e : Event) : Prop :=
  (∀ oldId, Replaces crypto w e oldId →
    (∀ name conn, ¬ w.server.Holds name oldId conn) ∧
      ∀ t task, w.tasks t = some task → task.inner.id = oldId → task.joins = false) ∧
    ∀ t task value env, e = .message t (.misc (.refreshVideo value)) env →
      w.tasks t = some task → task.pending = false →
        ∀ svc, w.server.services monitor0 = some svc → svc.isSubed task.inner.id = false →
          w.server.connections task.inner.id ≠ none

/-! ### The table of connections -/

theorem connections_subscribe (s : Server) (n : List Char) (conn : ConnInner) (sub : Bool) :
    (s.subscribe n conn sub).connections = s.connections := by
  unfold Server.subscribe
  split
  · rfl
  · split_ifs <;> rfl

theorem connections_tryAddPrimayVideoService (s : Server) :
    s.tryAddPrimayVideoService.connections = s.connections := by
  unfold Server.tryAddPrimayVideoService
  split_ifs <;> rfl

variable {e : Event}

theorem connections_next {id : Int32} (h : w.server.connections id ≠ none)
    (h' : ((machine crypto).next w e).server.connections id = none) :
    (∀ name conn, ¬ ((machine crypto).next w e).server.Holds name id conn) ∨
      Replaces crypto w e id := by
  have hremove : ∀ inner, ((machine crypto).next w e).server = w.server.removeConnection inner →
      ∀ name conn, ¬ ((machine crypto).next w e).server.Holds name id conn := by
    intro inner hserver name conn hh
    rw [hserver] at h' hh
    -- the only entry that is removed is the one whose subscriptions are cancelled
    have hid : id = inner.id := by
      by_contra hne
      exact h ((Table.remove_of_ne _ hne).symm.trans h')
    exact (Server.holds_removeConnection hh).2 hid
  cases change_next crypto w e with
  | idle _ hconns _ _ _ _ => exact absurd (by rw [← hconns]; exact h') h
  | started _ _ _ hserver _ _ => exact absurd (by rw [← hserver]; exact h') h
  | unsent _ _ _ hserver _ _ => exact Or.inl (hremove _ hserver)
  | ended _ _ _ _ _ hserver _ _ => exact Or.inl (hremove _ hserver)
  | refused _ _ _ _ _ _ _ _ hserver _ _ => exact absurd (by rw [← hserver]; exact h') h
  | accepted t task lr env ht hp he hvalid _ hconns _ _ =>
    cases hr : w.replaced lr.myId task.inner.id with
    | none =>
      rw [hconns, hr] at h'
      exact absurd h' h
    | some oldId =>
      rw [hconns, hr] at h'
      obtain rfl : id = oldId := by
        by_contra hne
        exact h ((Table.remove_of_ne _ hne).symm.trans h')
      exact Or.inr ⟨t, task, lr, env, he, ht, hp, hvalid, hr⟩
  | finished _ task _ _ _ hserver _ _ _ =>
    rcases hserver with hserver | ⟨-, noperms, hserver⟩
    · exact absurd (by rw [← hserver]; exact h') h
    · rw [hserver] at h'
      simp only [Server.addConnection, Table.insert_apply,
        connections_tryAddPrimayVideoService] at h'
      split_ifs at h'
      exact absurd h' h
  | refreshed _ _ _ _ _ _ _ hserver _ _ =>
    rw [hserver, connections_subscribe] at h'
    exact absurd h' h
  | option _ _ _ _ _ _ _ hserver _ _ =>
    rcases hserver with hserver | hserver
    · exact absurd (by rw [← hserver]; exact h') h
    · rw [hserver, connections_subscribe] at h'
      exact absurd h' h
  | snapshot _ _ _ _ hserver _ _ => exact absurd (by rw [hserver] at h'; exact h') h

theorem connections_of_next {id : Int32}
    (h : ((machine crypto).next w e).server.connections id ≠ none) :
    w.server.connections id ≠ none ∨
      ∃ t task, w.tasks t = some task ∧ task.joins = true ∧ id = task.inner.id := by
  have hremove : ∀ inner, ((machine crypto).next w e).server = w.server.removeConnection inner →
      w.server.connections id ≠ none := by
    intro inner hserver hn
    rw [hserver] at h
    simp only [Server.removeConnection, Table.remove_apply, hn, ite_self] at h
    exact h rfl
  cases change_next crypto w e with
  | idle _ hconns _ _ _ _ => exact Or.inl (by rw [← hconns]; exact h)
  | started _ _ _ hserver _ _ => exact Or.inl (by rw [← hserver]; exact h)
  | unsent _ _ _ hserver _ _ => exact Or.inl (hremove _ hserver)
  | ended _ _ _ _ _ hserver _ _ => exact Or.inl (hremove _ hserver)
  | refused _ _ _ _ _ _ _ _ hserver _ _ => exact Or.inl (by rw [← hserver]; exact h)
  | accepted _ task lr _ _ _ _ _ _ hconns _ _ =>
    refine Or.inl fun hn => h ?_
    rw [hconns]
    cases w.replaced lr.myId task.inner.id with
    | none => exact hn
    | some oldId => simp only [Table.remove_apply, hn, ite_self]
  | finished t task ht _ _ hserver _ _ _ =>
    rcases hserver with hserver | ⟨hj, noperms, hserver⟩
    · exact Or.inl (by rw [← hserver]; exact h)
    · rw [hserver] at h
      simp only [Server.addConnection, Table.insert_apply,
        connections_tryAddPrimayVideoService] at h
      split_ifs at h with hid
      · exact Or.inr ⟨t, task, ht, hj, hid⟩
      · exact Or.inl h
  | refreshed _ _ _ _ _ _ _ hserver _ _ =>
    rw [hserver, connections_subscribe] at h
    exact Or.inl h
  | option _ _ _ _ _ _ _ hserver _ _ =>
    rcases hserver with hserver | hserver
    · exact Or.inl (by rw [← hserver]; exact h)
    · rw [hserver, connections_subscribe] at h
      exact Or.inl h
  | snapshot _ _ _ _ hserver _ _ => exact Or.inl (by rw [hserver] at h; exact h)

variable {oldId : Int32}

theorem connections_replaces (h : Replaces crypto w e oldId) :
    ((machine crypto).next w e).server.connections oldId = none := by
  obtain ⟨t, task, lr, env, rfl, ht, hp, hvalid, hr⟩ := h
  rw [next_message ht hp]
  simp only [handleIncomingMessage, handleLoginRequest, hvalid, if_true, replaceOld, hr,
    Table.remove_self]

theorem joins_next {t : ℕ} {task' : Task}
    (h : ((machine crypto).next w e).tasks t = some task') (hj : task'.joins = true) :
    ∃ task, w.tasks t = some task ∧ task.inner = task'.inner ∧
      (task.joins = true ∨ AcceptedLogin crypto w t e) := by
  have hold : w.tasks t = some task' → ∃ task, w.tasks t = some task ∧
      task.inner = task'.inner ∧ (task.joins = true ∨ AcceptedLogin crypto w t e) :=
    fun h => ⟨task', h, rfl, Or.inl hj⟩
  have hpend := (Bool.and_eq_true_iff.mp hj).1
  cases change_next crypto w e with
  | idle _ _ htasks _ _ _ => exact hold (by rw [← htasks]; exact h)
  | started _ _ _ _ htasks _ =>
    rw [htasks, Table.insert_apply] at h
    split_ifs at h
    · obtain rfl := Option.some.inj h
      cases hpend
    · exact hold h
  | unsent _ _ _ _ htasks _ =>
    rw [htasks] at h
    exact hold (remove_subset h)
  | ended _ _ _ _ _ _ htasks _ =>
    rw [htasks] at h
    exact hold (remove_subset h)
  | refused t₁ task lr env ht hp _ _ _ htasks _ =>
    rw [htasks, Table.insert_apply] at h
    split_ifs at h
    · obtain rfl := Option.some.inj h
      exact absurd (hpend.symm.trans hp) (by simp)
    · exact hold h
  | accepted t₁ task lr env ht hp he hvalid _ _ htasks _ =>
    rw [htasks, Table.insert_apply] at h
    split_ifs at h with ht₁
    · obtain rfl := Option.some.inj h
      subst ht₁
      exact ⟨task, ht, rfl, Or.inr ⟨task, lr, env, he, ht, hp, hvalid⟩⟩
    · exact hold h
  | finished t₁ task _ _ _ _ _ htasks _ =>
    rw [htasks, Table.insert_apply] at h
    split_ifs at h
    · obtain rfl := Option.some.inj h
      cases hpend
    · exact hold h
  | refreshed _ _ _ _ _ _ _ _ htasks _ => exact hold (by rw [← htasks]; exact h)
  | option t₁ task ht hp opt _ _ _ htasks _ =>
    rw [htasks, Table.insert_apply] at h
    split_ifs at h
    · obtain rfl := Option.some.inj h
      rw [Task.withOption_pending] at hpend
      exact absurd (hpend.symm.trans hp) (by simp)
    · exact hold h
  | snapshot _ _ _ _ _ htasks _ => exact hold (by rw [← htasks]; exact h)

/-! ### Subscribers are connections -/

/-- Every subscriber of a service is a connection of the server. -/
def Connected (w : World) : Prop :=
  ∀ name id conn, w.server.Holds name id conn → w.server.connections id ≠ none

theorem Connected.next (hI : Connected w) (hc : Clean crypto w e) :
    Connected ((machine crypto).next w e) := by
  intro name id conn h hn
  -- the subscriber was a connection before the step
  have hbefore : w.server.connections id ≠ none := by
    rcases holds_next h with h | ⟨_, _, _, _, _, _, _, hne⟩ |
      ⟨t, task, value, env, he, ht, hp, _, rfl, _, svc, hsvc, hnew⟩
    · exact hI name id conn h
    · exact absurd hn hne
    · exact hc.2 t task value env he ht hp svc hsvc hnew
  rcases connections_next hbefore hn with hgone | hrep
  · exact hgone name conn h
  · -- a replacing login subscribes nobody, and finds no subscription of the older connection
    rcases holds_next h with h | ⟨_, _, he, _⟩ | ⟨_, _, _, _, he, _⟩
    · exact (hc.1 id hrep).1 name conn h
    · obtain ⟨_, _, _, _, he', _⟩ := hrep
      exact absurd (he.symm.trans he') (by simp)
    · obtain ⟨_, _, _, _, he', _⟩ := hrep
      exact absurd (he.symm.trans he') (by simp)

/-- A connection that has been replaced: it is no connection of the server, no service has it as a
subscriber, and it is not about to join. -/
structure Gone (oldId : Int32) (w : World) : Prop where
  not_connected : w.server.connections oldId = none
  not_held : ∀ (name : List Char) (conn : ConnInner), ¬ w.server.Holds name oldId conn
  not_joining : ∀ (t : ℕ) (task : Task), w.tasks t = some task → task.inner.id = oldId →
    task.joins = false

theorem Gone.of_replaces (hrep : Replaces crypto w e oldId)
    (hc : Clean crypto w e) : Gone oldId ((machine crypto).next w e) := by
  have hbefore := hc.1 oldId hrep
  refine ⟨connections_replaces hrep, fun name conn h => ?_, fun t task' ht hid => ?_⟩
  · rcases holds_next h with h | ⟨_, _, he, _⟩ | ⟨_, _, _, _, he, _⟩
    · exact hbefore.1 name conn h
    · obtain ⟨_, _, _, _, he', _⟩ := hrep
      exact absurd (he.symm.trans he') (by simp)
    · obtain ⟨_, _, _, _, he', _⟩ := hrep
      exact absurd (he.symm.trans he') (by simp)
  · by_contra hj
    obtain ⟨task, hw, hinner, hcase⟩ := joins_next ht ((Bool.not_eq_false _).mp hj)
    rw [← hinner] at hid
    rcases hcase with hj | ⟨_, _, _, he, hw', _⟩
    · exact absurd (hj.symm.trans (hbefore.2 t task hw hid)) (by simp)
    · -- the task that logs in is not the one it replaces
      obtain ⟨t₁, task₁, lr₁, _, he₁, hw₁, _, _, hr⟩ := hrep
      obtain ⟨rfl, -, -⟩ := Event.message.inj (he.symm.trans he₁)
      obtain rfl := Option.some.inj (hw.symm.trans hw₁)
      unfold replaced at hr
      split at hr
      · split_ifs at hr with hne
        obtain rfl := Option.some.inj hr
        exact hne.1 hid.symm
      · exact absurd hr (by simp)

theorem Gone.next (hG : Gone oldId w) (hc : Clean crypto w e)
    (hno : ¬ LogsIn crypto oldId w e) : Gone oldId ((machine crypto).next w e) := by
  refine ⟨?_, fun name conn h => ?_, fun t task' ht hid => ?_⟩
  · by_contra hne
    rcases connections_of_next hne with h | ⟨t, task, ht, hj, hid⟩
    · exact h hG.not_connected
    · exact absurd (hj.symm.trans (hG.not_joining t task ht hid.symm)) (by simp)
  · rcases holds_next h with h | ⟨t, task, _, ht, hj, hid, _⟩ |
      ⟨t, task, value, env, he, ht, hp, _, hid, _, svc, hsvc, hnew⟩
    · exact hG.not_held name conn h
    · exact absurd (hj.symm.trans (hG.not_joining t task ht hid.symm)) (by simp)
    · refine hc.2 t task value env he ht hp svc hsvc hnew ?_
      rw [← hid]
      exact hG.not_connected
  · by_contra hj
    obtain ⟨task, hw, hinner, hcase⟩ := joins_next ht ((Bool.not_eq_false _).mp hj)
    rw [← hinner] at hid
    rcases hcase with hj | hacc
    · exact absurd (hj.symm.trans (hG.not_joining t task hw hid)) (by simp)
    · exact hno ⟨t, task, hw, hid, hacc⟩

theorem holds_of_reaches {o : Out} {id : Int32} (ho : o ∈ (machine crypto).out w e)
    (hr : Reaches o id) : ∃ name conn, w.server.Holds name id conn := by
  obtain ⟨service, recipients, conn, rfl, hconn⟩ := hr
  rcases out_cases ho with hplain | ⟨_, _, _, _, _, _, _, hby, _⟩ | ⟨name, svc, -, hsvc, heq⟩
  · cases hplain
  · exact absurd hby (by simp [Out.injectedBy])
  · obtain ⟨-, rfl⟩ := Out.frame.inj heq
    exact ⟨name, conn, svc, hsvc, Or.inl hconn⟩

theorem Gone.no_frame (hG : Gone oldId w) {es : List Event}
    (hc : (machine crypto).Meets (fun w e => Clean crypto w e ∧ ¬ LogsIn crypto oldId w e) w es) :
    ∀ o ∈ (machine crypto).outputs w es, ¬ Reaches o oldId := by
  induction es generalizing w with
  | nil => exact fun o ho => absurd ho List.not_mem_nil
  | cons e es ih =>
    obtain ⟨⟨hclean, hno⟩, hrest⟩ := Machine.meets_cons.mp hc
    intro o ho hr
    rw [Machine.outputs_cons] at ho
    rcases List.mem_append.mp ho with ho | ho
    · obtain ⟨name, conn, hheld⟩ := holds_of_reaches ho hr
      exact hG.not_held name conn hheld
    · exact ih (hG.next hclean hno) hrest o ho hr

/-- **Subscribers are connections.** Where logins replace only connections that are no subscribers
and not about to join, and `RefreshVideo` subscribes only connections of the server, every
subscriber is one at every point, and a connection that was replaced receives no frame until a login
on it is accepted. -/
theorem subscribed_connected (crypto : Crypto) (idCount : Int32) (es : List Event)
    (hclean : (machine crypto).Meets (Clean crypto) (start idCount) es) :
    (∀ pre post, es = pre ++ post → ∀ name id conn,
        ((machine crypto).run (start idCount) pre).server.Holds name id conn →
          ((machine crypto).run (start idCount) pre).server.connections id ≠ none) ∧
      ∀ pre e post oldId, es = pre ++ e :: post →
        Replaces crypto ((machine crypto).run (start idCount) pre) e oldId →
          (machine crypto).Meets (fun w e => ¬ LogsIn crypto oldId w e)
            ((machine crypto).run (start idCount) (pre ++ [e])) post →
              ∀ o ∈ (machine crypto).outputs
                ((machine crypto).run (start idCount) (pre ++ [e])) post, ¬ Reaches o oldId := by
  have hstart : Connected (start idCount) := fun name id conn h =>
    absurd h (Server.not_holds_new idCount name id conn)
  refine ⟨?_, ?_⟩
  · rintro pre post rfl
    exact (Machine.meets_append.mp hclean).1.inv_run hstart fun w e hc hI => hI.next hc
  · rintro pre e post oldId rfl hrep hno
    obtain ⟨-, hrest⟩ := Machine.meets_append.mp hclean
    obtain ⟨hstep, hpost⟩ := Machine.meets_cons.mp hrest
    rw [Machine.run_append, Machine.run_cons, Machine.run_nil] at hno ⊢
    exact (Gone.of_replaces hrep hstep).no_frame fun p hp => ⟨hpost p hp, hno p hp⟩

/-! ### Two connections of one peer -/

/-- A configuration that lets everybody in without a password. -/
def clickConfig : Config :=
  { emptyConfig with option := fun k => if k = "approve-mode".toList then "click".toList else [] }

/-- A connection of the peer `1` logs in with `union` and is answered. -/
def firstLogin (union : Option LoginUnion) : List Event :=
  [.accept, .connect 1001 ⟨[], []⟩ true,
    .message 0 (.loginRequest ⟨[], ['1'], [], union⟩) ⟨clickConfig, []⟩, .resume 0]

def secondConnects : List Event := [.accept, .connect 1002 ⟨[], []⟩ true]

def secondLogin : Event := .message 1 (.loginRequest ⟨[], ['1'], [], none⟩) ⟨clickConfig, []⟩

/-- **A replaced connection stays subscribed.** -/
theorem replaced_connection_subscribed : ¬ ∀ es name id conn,
    ((machine noCrypto).run (start 1000) es).server.Holds name id conn →
      ((machine noCrypto).run (start 1000) es).server.connections id ≠ none := by
  intro h
  refine h (firstLogin none ++ secondConnects ++ [secondLogin]) audioName 1001 ⟨1001, 0⟩ ?_
    (by decide +kernel)
  have hany : (((machine noCrypto).run (start 1000)
      (firstLogin none ++ secondConnects ++ [secondLogin])).server.services audioName).any
        (fun svc => svc.subscribes 1001 = some ⟨1001, 0⟩) = true := by decide +kernel
  obtain ⟨svc, hsvc, hsub⟩ := (Option.any_eq_true _ _).mp hany
  exact ⟨svc, hsvc, Or.inl (of_decide_eq_true hsub)⟩

/-- Where the first login is for a file transfer, the second replaces a connection that never
joined. -/
theorem subscribed_connected_fileTransfer :
    Replaces noCrypto ((machine noCrypto).run (start 1000)
        (firstLogin (some (.fileTransfer [] false [])) ++ secondConnects)) secondLogin 1001 ∧
      ∀ o ∈ (machine noCrypto).outputs ((machine noCrypto).run (start 1000)
          (firstLogin (some (.fileTransfer [] false [])) ++ secondConnects ++ [secondLogin]))
            [.resume 1, .sendFrame audioName], ¬ Reaches o 1001 := by
  have hrep : Replaces noCrypto ((machine noCrypto).run (start 1000)
      (firstLogin (some (.fileTransfer [] false [])) ++ secondConnects)) secondLogin 1001 :=
    ⟨1, _, _, _, rfl, rfl, rfl, by decide +kernel, by decide +kernel⟩
  have hother : ∀ w e, (∀ t msg env, e ≠ .message t msg env) → Clean noCrypto w e :=
    fun w e he => ⟨fun _ ⟨_, _, _, _, h, _⟩ => absurd h (he _ _ _),
      fun _ _ _ _ h _ _ => absurd h (he _ _ _)⟩
  refine ⟨hrep, (subscribed_connected noCrypto 1000
    (firstLogin (some (.fileTransfer [] false [])) ++ secondConnects ++
      secondLogin :: [.resume 1, .sendFrame audioName]) ?_).2 _ _ _ _ rfl hrep ?_⟩
  · refine Machine.meets_append.mpr ⟨Machine.meets_append.mpr ⟨?_, ?_⟩, ?_⟩
    · refine Machine.meets_cons.mpr ⟨hother _ _ (by simp), Machine.meets_cons.mpr
        ⟨hother _ _ (by simp), Machine.meets_cons.mpr ⟨⟨?_, ?_⟩, Machine.meets_cons.mpr
          ⟨hother _ _ (by simp), Machine.meets_nil _⟩⟩⟩⟩
      · -- nobody is registered when the first login comes
        rintro oldId ⟨t, task, lr, env, he, -, -, -, hr⟩
        obtain ⟨rfl, hlr, -⟩ := Event.message.inj he
        obtain rfl := Message.loginRequest.inj hlr
        have hnone : ((machine noCrypto).next ((machine noCrypto).next (start 1000) .accept)
            (.connect 1001 ⟨[], []⟩ true)).replaced ['1'] task.inner.id = none := rfl
        exact absurd (hnone.symm.trans hr) (by simp)
      · intro t task value env he
        exact absurd he (by simp)
    · exact Machine.meets_cons.mpr ⟨hother _ _ (by simp), Machine.meets_cons.mpr
        ⟨hother _ _ (by simp), Machine.meets_nil _⟩⟩
    · refine Machine.meets_cons.mpr ⟨⟨?_, ?_⟩, Machine.meets_cons.mpr ⟨hother _ _ (by simp),
        Machine.meets_cons.mpr ⟨hother _ _ (by simp), Machine.meets_nil _⟩⟩⟩
      · rintro oldId hrep'
        refine ⟨fun name conn h => ?_, fun t task ht _ => ?_⟩
        · exact Server.not_holds_new 1000 name oldId conn (holds_of_services rfl h)
        · rcases t with _ | _ | t
          · obtain rfl := Option.some.inj ht
            rfl
          · obtain rfl := Option.some.inj ht
            rfl
          · have hnone : ((machine noCrypto).run (start 1000)
                (firstLogin (some (.fileTransfer [] false [])) ++ secondConnects)).tasks (t + 2)
                  = none := rfl
            exact absurd (hnone.symm.trans ht) (by simp)
      · intro t task value env he
        exact absurd he (by simp [secondLogin])
  · refine Machine.meets_cons.mpr ⟨?_, Machine.meets_cons.mpr ⟨?_, Machine.meets_nil _⟩⟩ <;>
    · rintro ⟨_, _, _, _, _, _, _, he, _⟩
      exact absurd he (by simp)

end World

end Ohos

end LibRustdesk
