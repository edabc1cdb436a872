import LibRustdesk.Ohos.Replacement

/-!
# Logins for a file transfer

A login for a file transfer should leave the connection out of the services that send the screen and
the sound. The handler asks whether the union of the request equals a `FileTransfer` of default
content, so a request with a directory, or with `show_hidden`, is taken for one of the desktop and
the connection is added to the server.

* `AsksFileTransfer` — the request is for a file transfer, whatever it carries.
* `Plain` — an accepted request for a file transfer carries nothing, or comes on a connection that
  was added to the server before.
* `file_login_subscribes` — in every run of the server whose steps are `Plain` no step of a login
  for a file transfer subscribes anything; and a connection that does not watch the screen yet is
  subscribed by a sequence of such logins unless each accepted one of them carries nothing.

The first half rests on `apart_next`: a task that has accepted a request for a file transfer will
not join the server. For the second, `login_steps` says what one login does from end to end.
-/

namespace LibRustdesk

namespace Ohos

/-- The union of the request is a `FileTransfer`. -/
def AsksFileTransfer (lr : LoginRequest) : Prop :=
  ∃ dir showHidden unknownFields, lr.union = some (.fileTransfer dir showHidden unknownFields)

/-- `display_service::NAME`. -/
def displayName : List Char := "display".toList

/-! ### The services -/

namespace ServiceInner

theorem onSubscribe_name (s : ServiceInner) (sub : ConnInner) :
    (s.onSubscribe sub).name = s.name := by
  unfold onSubscribe
  split_ifs <;> rfl

theorem onUnsubscribe_name (s : ServiceInner) (id : Int32) :
    (s.onUnsubscribe id).name = s.name := by
  unfold onUnsubscribe
  split_ifs <;> rfl

end ServiceInner

namespace Server

def Named (s : Server) : Prop := ∀ n svc, s.services n = some svc → svc.name = n

theorem named_new (idCount : Int32) : (new idCount).Named := by
  intro n svc hsvc
  simp only [new, addService, Table.insert_apply, Table.empty_apply] at hsvc
  split_ifs at hsvc with h1 h2 h3 <;>
  · obtain rfl := Option.some.inj hsvc
    symm
    assumption

variable {s : Server}

theorem Named.insert (h : s.Named) {n : List Char} {svc : ServiceInner}
    (hname : svc.name = n) : Named { s with services := s.services.insert n svc } := by
  intro m svc' hsvc'
  simp only [Table.insert_apply] at hsvc'
  split_ifs at hsvc' with hm
  · rw [← Option.some.inj hsvc', hname, hm]
  · exact h m svc' hsvc'

theorem Named.mapValues {s s' : Server} (h : s.Named) {f : ServiceInner → ServiceInner}
    (hf : ∀ svc, (f svc).name = svc.name) (hs' : s'.services = s.services.mapValues f) :
    s'.Named := by
  intro n svc' hsvc'
  rw [hs', Table.mapValues_apply] at hsvc'
  obtain ⟨svc, hsvc, rfl⟩ := Option.map_eq_some_iff.mp hsvc'
  rw [hf, h n svc hsvc]

theorem Named.tryAdd (h : s.Named) : s.tryAddPrimayVideoService.Named := by
  unfold tryAddPrimayVideoService
  split_ifs
  · exact h
  · exact h.insert rfl

theorem Named.addConnection (h : s.Named) (conn : ConnInner)
    (noperms : List (List Char)) : (s.addConnection conn noperms).Named := by
  refine h.mapValues (fun svc => ?_) rfl
  split_ifs
  · rfl
  · rfl
  · exact svc.onSubscribe_name conn

theorem Named.removeConnection (h : s.Named) (conn : ConnInner) : (s.removeConnection conn).Named :=
  h.mapValues (fun svc => svc.onUnsubscribe_name conn.id) rfl

theorem Named.subscribe (h : s.Named) (n : List Char) (conn : ConnInner) (sub : Bool) :
    (s.subscribe n conn sub).Named := by
  unfold Server.subscribe
  cases hn : s.services n with
  | none => exact h
  | some svc =>
    dsimp only
    split_ifs
    · exact h
    · exact h.insert ((svc.onSubscribe_name conn).trans (h n svc hn))
    · exact h.insert ((svc.onUnsubscribe_name conn.id).trans (h n svc hn))

theorem joined_holds (hnamed : s.Named) {conn : ConnInner} {noperms : List (List Char)}
    (hnoperms : monitor0 ∉ noperms) (hnot : ∀ c, ¬ s.Holds monitor0 conn.id c) :
    (s.tryAddPrimayVideoService.addConnection conn noperms).Holds monitor0 conn.id conn := by
  obtain ⟨svc, hsvc⟩ : ∃ svc, s.tryAddPrimayVideoService.services monitor0 = some svc := by
    unfold tryAddPrimayVideoService
    split_ifs with h
    · exact Option.isSome_iff_exists.mp h
    · exact ⟨ServiceInner.new monitor0 true, Table.insert_self s.services monitor0 _⟩
  have hname : svc.name = monitor0 := hnamed.tryAdd monitor0 svc hsvc
  have hsubed : svc.isSubed conn.id = false := by
    by_contra hsub
    rw [Bool.not_eq_false, ServiceInner.isSubed_iff] at hsub
    obtain ⟨c, hc⟩ := hsub
    exact hnot c (holds_tryAddPrimayVideoService ⟨svc, hsvc, hc⟩)
  refine ⟨svc.onSubscribe conn, ?_, ServiceInner.onSubscribe_holds hsubed⟩
  simp [Server.addConnection, hsvc, hname, hnoperms]

end Server

namespace World

variable {crypto : Crypto} {w : World}

/-! ### Every run -/

/-- An accepted request for a file transfer carries nothing, or its connection has been added to
the server before. -/
def Plain (crypto : Crypto) (w : World) (e : Event) : Prop :=
  ∀ t task lr env, e = .message t (.loginRequest lr) env → w.tasks t = some task →
    task.pending = false → AsksFileTransfer lr →
      validatePassword crypto env.config task.hash lr = true →
        task.servicesSubed = true ∨ isFileTransfer lr = true

/-- The event is a step of a login for a file transfer: the request, or the end of it. -/
def FileLogin (w : World) (e : Event) : Prop :=
  (∃ t lr env, e = .message t (.loginRequest lr) env ∧ AsksFileTransfer lr) ∨
    ∃ t task, e = .resume t ∧ w.tasks t = some task ∧ task.pending = true ∧
      AsksFileTransfer task.lr

/-- No task that has accepted a request for a file transfer is to join the server. -/
def Apart (w : World) : Prop :=
  ∀ t task, w.tasks t = some task → AsksFileTransfer task.lr → task.joins = false

theorem joins_of_idle {task : Task} (h : task.pending = false) : task.joins = false := by
  unfold Task.joins
  rw [h, Bool.false_and]

variable {t : ℕ}

theorem Apart.insert (h : Apart w) {w' : World} {task : Task}
    (hjoins : AsksFileTransfer task.lr → task.joins = false)
    (htasks : w'.tasks = w.tasks.insert t task) : Apart w' := by
  intro t' task' ht'
  rw [htasks, Table.insert_apply] at ht'
  split_ifs at ht' with heq
  · rw [← Option.some.inj ht']
    exact hjoins
  · exact h t' task' ht'

theorem Apart.remove (h : Apart w) {w' : World} (htasks : w'.tasks = w.tasks.remove t) :
    Apart w' := by
  intro t' task' ht'
  rw [htasks, Table.remove_apply] at ht'
  split_ifs at ht'
  exact h t' task' ht'

theorem apart_next (h : Apart w) {e : Event} (he : Plain crypto w e) :
    Apart ((machine crypto).next w e) := by
  cases change_next crypto w e with
  | idle _ _ htasks | refreshed _ _ _ _ _ _ _ _ htasks | snapshot _ _ _ _ _ htasks =>
    intro t task ht
    rw [htasks] at ht
    exact h t task ht
  | started _ _ _ _ htasks => exact h.insert (fun _ => joins_of_idle rfl) htasks
  | unsent _ _ _ _ htasks => exact h.remove htasks
  | ended _ _ _ _ _ _ htasks => exact h.remove htasks
  | refused t task lr env ht hp _ _ _ htasks =>
    refine h.insert ?_ htasks
    exact fun _ => joins_of_idle hp
  | accepted t task lr env ht hp hmsg hvalid _ _ htasks =>
    refine h.insert (fun hasks => ?_) htasks
    -- the one step that makes a task join, unless the request is recognised
    unfold Task.joins
    rcases he t task lr env hmsg ht hp hasks hvalid with hsubed | hfile
    · rw [hsubed]
      rfl
    · rw [hfile, Bool.not_true, Bool.and_false, Bool.and_false]
  | finished t task ht _ _ _ _ htasks => exact h.insert (fun _ => joins_of_idle rfl) htasks
  | option t task ht hp opt _ _ _ htasks =>
    exact h.insert (fun _ => joins_of_idle (by rw [Task.withOption_pending, hp])) htasks

theorem Apart.holds (h : Apart w) {e : Event} (hlogin : FileLogin w e) {name : List Char}
    {id : Int32} {conn : ConnInner}
    (hholds : ((machine crypto).next w e).server.Holds name id conn) :
    w.server.Holds name id conn := by
  rcases holds_next hholds with hold | ⟨t, task, rfl, ht, hjoins, -⟩ | ⟨t, task, _, _, rfl, -⟩
  · exact hold
  · rcases hlogin with ⟨_, _, _, he, -⟩ | ⟨t', task', he, ht', -, hasks⟩
    · cases he
    · obtain rfl := Event.resume.inj he
      obtain rfl := Option.some.inj (ht.symm.trans ht')
      exact absurd hjoins (by rw [h t task ht hasks]; exact Bool.false_ne_true)
  · rcases hlogin with ⟨_, _, _, he, -⟩ | ⟨_, _, he, -⟩ <;> cases he

theorem named_next (h : w.server.Named) (e : Event) : ((machine crypto).next w e).server.Named := by
  have hkeep {s : Server} (hs : s.services = w.server.services) : s.Named := by
    intro n svc hsvc
    rw [hs] at hsvc
    exact h n svc hsvc
  cases change_next crypto w e with
  | idle hserver => exact hkeep hserver
  | started _ _ _ hserver => exact hkeep (by rw [hserver])
  | refused _ _ _ _ _ _ _ _ hserver => exact hkeep (by rw [hserver])
  | accepted _ _ _ _ _ _ _ _ hserver => exact hkeep hserver
  | unsent _ _ _ hserver =>
    rw [hserver]
    exact h.removeConnection _
  | ended _ _ _ _ _ hserver =>
    rw [hserver]
    exact h.removeConnection _
  | finished _ _ _ _ _ hserver =>
    rcases hserver with hserver | ⟨-, noperms, hserver⟩
    · exact hkeep (by rw [hserver])
    · rw [hserver]
      exact h.tryAdd.addConnection _ _
  | refreshed _ _ _ _ _ _ _ hserver =>
    rw [hserver]
    exact h.subscribe _ _ _
  | option _ _ _ _ _ _ _ hserver =>
    rcases hserver with hserver | hserver
    · exact hkeep (by rw [hserver])
    · rw [hserver]
      exact h.subscribe _ _ _
  | snapshot service svc _ hsvc hserver =>
    rw [hserver]
    refine h.insert ?_
    exact h service svc hsvc

/-! ### Logins from end to end -/

/-- A login of the connection of task `t`: the request, and what follows its answer. -/
def loginSteps (t : ℕ) (login : LoginRequest × Env) : List Event :=
  [.message t (.loginRequest login.1) login.2, .resume t]

/-- A connection that is not in the middle of a login. -/
def Waits (w : World) (t : ℕ) (inner : ConnInner) (hash : Hash) (subed : Bool) : Prop :=
  ∃ task, w.tasks t = some task ∧ task.pending = false ∧ task.inner = inner ∧
    task.hash = hash ∧ task.servicesSubed = subed

/-- The login is accepted, of a connection that is not in the server, and not recognised as one for
a file transfer. -/
def joinsBy (crypto : Crypto) (hash : Hash) (subed : Bool) (login : LoginRequest × Env) : Bool :=
  validatePassword crypto login.2.config hash login.1 && (!subed && !isFileTransfer login.1)

theorem next_resume {task : Task} (ht : w.tasks t = some task) (hp : task.pending = true) :
    (machine crypto).next w (.resume t) = (w.finishLogin t task).1 := by
  simp only [Machine.next, machine, ht, hp, if_true]

variable {inner : ConnInner}

theorem login_steps {hash : Hash} {subed : Bool}
    (h : Waits w t inner hash subed) (login : LoginRequest × Env) :
    Waits ((machine crypto).run w (loginSteps t login)) t inner hash
        (subed || joinsBy crypto hash subed login) ∧
      (joinsBy crypto hash subed login = false →
        ((machine crypto).run w (loginSteps t login)).server.services = w.server.services) ∧
      (joinsBy crypto hash subed login = true →
        ∃ (noperms : List (List Char)) (s : Server), monitor0 ∉ noperms ∧
        s.services = w.server.services ∧
        ((machine crypto).run w (loginSteps t login)).server =
          s.tryAddPrimayVideoService.addConnection inner noperms) := by
  obtain ⟨task, ht, hp, rfl, rfl, rfl⟩ := h
  obtain ⟨lr, env⟩ := login
  have hrun : (machine crypto).run w (loginSteps t (lr, env)) =
      (machine crypto).next (w.handleLoginRequest crypto t task lr env).1 (.resume t) := by
    unfold loginSteps
    rw [Machine.run_cons, Machine.run_cons, Machine.run_nil, next_message ht hp]
    rfl
  rw [hrun]
  unfold joinsBy handleLoginRequest
  dsimp only
  cases hvalid : validatePassword crypto env.config task.hash lr with
  | false =>
    -- the task is not in a login, and there is nothing to finish
    have hidle : (machine crypto).next
        { w with tasks := w.tasks.insert t { task with lr := lr } } (.resume t) =
        { w with tasks := w.tasks.insert t { task with lr := lr } } := by
      simp [Machine.next, machine, hp]
    rw [if_neg Bool.false_ne_true, hidle, Bool.false_and, Bool.or_false]
    exact ⟨⟨_, Table.insert_self _ _ _, hp, rfl, rfl, rfl⟩, fun _ => rfl, fun h => by cases h⟩
  | true =>
    rw [if_pos rfl, Bool.true_and]
    have hreplace : (w.replaceOld lr.myId task.inner.id).1.server.services = w.server.services := by
      unfold replaceOld
      dsimp only
      split <;> rfl
    generalize hw : (w.replaceOld lr.myId task.inner.id).1 = w' at hreplace ⊢
    rw [next_resume (Table.insert_self _ _ _) rfl]
    unfold finishLogin
    dsimp only
    cases hjoins : !task.servicesSubed && !isFileTransfer lr with
    | false =>
      rw [if_neg Bool.false_ne_true, Bool.or_false]
      exact ⟨⟨_, Table.insert_self _ _ _, rfl, rfl, rfl, rfl⟩, fun _ => hreplace,
        fun h => by cases h⟩
    | true =>
      rw [if_pos rfl, Bool.or_true]
      refine ⟨⟨_, Table.insert_self _ _ _, rfl, rfl, rfl, rfl⟩, fun h => (by cases h), fun _ =>
        ⟨if !task.audio then [audioName] else [], w'.server, ?_, hreplace, rfl⟩⟩
      split
      · rw [List.mem_singleton]
        decide +kernel
      · exact List.not_mem_nil

variable {logins : List (LoginRequest × Env)}

theorem services_run_logins {hash : Hash} {subed : Bool}
    (h : Waits w t inner hash subed)
    (hno : ∀ login ∈ logins, joinsBy crypto hash subed login = false) :
    ((machine crypto).run w (logins.flatMap (loginSteps t))).server.services =
      w.server.services := by
  induction logins generalizing w with
  | nil => rfl
  | cons login logins ih =>
    obtain ⟨hfirst, hrest⟩ := List.forall_mem_cons.mp hno
    obtain ⟨hwaits, hsame, -⟩ := login_steps h login
    rw [hfirst, Bool.or_false] at hwaits
    rw [List.flatMap_cons, Machine.run_append, ih hwaits hrest]
    exact hsame hfirst

theorem holds_run_logins {hash : Hash} (hnamed : w.server.Named)
    (h : Waits w t inner hash false) (hnot : ∀ c, ¬ w.server.Holds monitor0 inner.id c)
    {login : LoginRequest × Env} (hmem : login ∈ logins)
    (hjoins : joinsBy crypto hash false login = true) :
    ((machine crypto).run w (logins.flatMap (loginSteps t))).server.Holds monitor0 inner.id
      inner := by
  induction logins generalizing w with
  | nil => cases hmem
  | cons first logins ih =>
    obtain ⟨hwaits, hsame, hadded⟩ := login_steps h first
    rw [List.flatMap_cons, Machine.run_append]
    generalize hw' : (machine crypto).run w (loginSteps t first) = w' at hwaits hsame hadded ⊢
    cases hfirst : joinsBy crypto hash false first with
    | true =>
      -- it is subscribed now, and the other logins add nothing
      obtain ⟨noperms, s, hnoperms, hs, hserver⟩ := hadded hfirst
      rw [hfirst] at hwaits
      have hnone : ∀ l ∈ logins, joinsBy crypto hash true l = false := fun l _ => Bool.and_false _
      have hkept := services_run_logins hwaits hnone
      have hnamed' : s.Named := fun n svc hsvc => hnamed n svc (by rw [← hs]; exact hsvc)
      have hholds : w'.server.Holds monitor0 inner.id inner := by
        rw [hserver]
        exact Server.joined_holds hnamed' hnoperms fun c hc => hnot c (holds_of_services hs hc)
      exact holds_of_services hkept.symm hholds
    | false =>
      have hlater : login ∈ logins := by
        rcases List.mem_cons.mp hmem with rfl | hmem
        · exact absurd hjoins (by rw [hfirst]; exact Bool.false_ne_true)
        · exact hmem
      rw [hfirst] at hwaits
      have hservices := hsame hfirst
      refine ih (fun n svc hsvc => hnamed n svc ?_) hwaits (fun c hc => hnot c ?_) hlater
      · rw [← hservices]
        exact hsvc
      · exact holds_of_services hservices hc

/-- **Logins for a file transfer.** Where each accepted one carries nothing, or comes on a
connection that was added before, no step of such a login subscribes anything. And after any run, a
connection that is not in the server and does not watch the screen is subscribed to something by a
sequence of them exactly unless each that is accepted carries nothing. -/
theorem file_login_subscribes (crypto : Crypto) (idCount : Int32) (es : List Event) :
    ((machine crypto).Meets (Plain crypto) (start idCount) es →
      ∀ p ∈ (machine crypto).trace (start idCount) es, FileLogin p.1 p.2 →
        ∀ name id conn, ((machine crypto).next p.1 p.2).server.Holds name id conn →
          p.1.server.Holds name id conn) ∧
      ∀ t inner hash, Waits ((machine crypto).run (start idCount) es) t inner hash false →
        (∀ c, ¬ ((machine crypto).run (start idCount) es).server.Holds monitor0 inner.id c) →
          ∀ logins : List (LoginRequest × Env), (∀ login ∈ logins, AsksFileTransfer login.1) →
            ((∀ name ∈ [monitor0, audioName, displayName],
              ((machine crypto).run (start idCount)
                (es ++ logins.flatMap (loginSteps t))).server.Holds name inner.id inner →
              ((machine crypto).run (start idCount) es).server.Holds name inner.id inner) ↔
            ∀ login ∈ logins, validatePassword crypto login.2.config hash login.1 = true →
              isFileTransfer login.1 = true) := by
  constructor
  · intro hplain p hp hlogin name id conn
    have hapart : Apart p.1 := hplain.inv_trace (fun t task ht => absurd ht (by simp [start]))
      (fun _ _ he h => apart_next h he) p hp
    exact hapart.holds hlogin
  · intro t inner hash hwaits hnot logins _
    have hnamed : ((machine crypto).run (start idCount) es).server.Named :=
      (machine crypto).inv_run (I := fun w => w.server.Named) (Server.named_new idCount)
        (fun _ e h => named_next h e) es
    rw [Machine.run_append]
    constructor
    · intro hsame login hmem hvalid
      by_contra hfile
      have hjoins : joinsBy crypto hash false login = true := by
        unfold joinsBy
        rw [hvalid, Bool.eq_false_iff.mpr hfile]
        rfl
      exact hnot inner (hsame monitor0 List.mem_cons_self
        (holds_run_logins hnamed hwaits hnot hmem hjoins))
    · intro hplain name _ hholds
      refine holds_of_services (services_run_logins hwaits fun login hmem => ?_) hholds
      unfold joinsBy
      cases hvalid : validatePassword crypto login.2.config hash login.1 with
      | false => rfl
      | true => rw [hplain login hmem hvalid]; rfl

def directoryLogin : LoginRequest × Env :=
  (⟨[], ['1'], [], some (.fileTransfer ['/'] false [])⟩, ⟨clickConfig, []⟩)

/-- Whether the connection is subscribed after a run: to the screen, the sound and the
displays. -/
def subedAfter (es : List Event) : List Bool :=
  [monitor0, audioName, displayName].map fun name =>
    (((machine noCrypto).run (start 1000) es).server.services name).any (·.isSubed 1001)

/-- **A login for the files of a directory subscribes to everything.** -/
theorem directory_login_subscribes :
    AsksFileTransfer directoryLogin.1 ∧
      subedAfter [.accept, .connect 1001 ⟨[], []⟩ true] = [false, false, false] ∧
      subedAfter ([.accept, .connect 1001 ⟨[], []⟩ true] ++ loginSteps 0 directoryLogin) =
        [true, true, true] :=
  ⟨⟨['/'], false, [], rfl⟩, by decide +kernel, by decide +kernel⟩

end World

end Ohos

end LibRustdesk
