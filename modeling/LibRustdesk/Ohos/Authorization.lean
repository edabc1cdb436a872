import LibRustdesk.Ohos.Connection

/-!
# Input and screen before login

What a peer can reach on an incoming connection before `validate_password` has accepted a
`LoginRequest` of it. `handle_incoming_message` sets `authorized` and nothing reads it: the
`MouseEvent` and `KeyEvent` arms look at `keyboard`, which starts out `true`, and the
`RefreshVideo` arm subscribes whoever asks. The on-message handler of the desktop server, of which
this one is a port, checks `authorized` before all of them.

* `inv_run` — `authorized` says exactly whether the connection has had a login accepted.
* `safe_iff_guarded` — no injection and no screen without a login, exactly in the runs in which no
  connection without a login sends a message of that kind.
* `mouse_before_login` — one mouse event on a fresh connection is injected.
-/

namespace LibRustdesk

namespace Ohos

def Out.injectedBy : Out → Option ℕ
  | .injectMouse t _ _ _ => some t
  | .injectKey t _ _ _ _ _ => some t
  | _ => none

/-- Events for the application and messages to a peer. -/
def Out.plain : Out → Bool
  | .queueEvent _ _ _ => true
  | .send _ _ => true
  | _ => false

def KeyEvent.injects (event : KeyEvent) : Bool :=
  match event.union with
  | some (.seq value) => value ≠ []
  | some _ => true
  | none => false

/-- A message that is turned into an injection where `keyboard` is set. -/
def Message.injects : Message → Bool
  | .mouseEvent _ _ _ => true
  | .keyEvent event => event.injects
  | _ => false

namespace World

variable {crypto : Crypto} {w : World}

/-! ### Injections -/

variable {t : ℕ} {o : Out}

theorem mem_injectSeq {modifiers : UInt32} {cs : List Char} {results : List Int32}
    (ho : o ∈ (injectSeq t modifiers cs results).2) : cs ≠ [] ∧ o.injectedBy = some t := by
  induction cs generalizing results with
  | nil => cases ho
  | cons c cs ih =>
    refine ⟨List.cons_ne_nil c cs, ?_⟩
    unfold injectSeq at ho
    simp only at ho
    split_ifs at ho
    · obtain rfl := List.mem_singleton.mp ho
      rfl
    · rcases List.mem_cons.mp ho with rfl | ho
      · rfl
      · exact (ih ho).2

theorem exists_mem_injectSeq (t : ℕ) (modifiers : UInt32) {cs : List Char} (h : cs ≠ [])
    (results : List Int32) :
    ∃ o ∈ (injectSeq t modifiers cs results).2, o.injectedBy = some t := by
  obtain ⟨c, cs, rfl⟩ := List.exists_cons_of_ne_nil h
  refine ⟨.injectKey t (-1) c.val true true modifiers, ?_, rfl⟩
  unfold injectSeq
  simp only
  split_ifs
  · exact List.mem_singleton_self _
  · exact List.mem_cons_self

theorem mem_injectKeyEvent {event : KeyEvent} {results : List Int32}
    (ho : o ∈ (injectKeyEvent t event results).2.2) : event.injects = true ∧ o.injectedBy = some t
    := by
  unfold injectKeyEvent at ho
  unfold KeyEvent.injects
  cases hu : event.union with
  | none =>
    rw [hu] at ho
    cases ho
  | some u =>
    rw [hu] at ho
    cases u with
    | seq value =>
      obtain ⟨hne, hby⟩ := mem_injectSeq ho
      exact ⟨decide_eq_true hne, hby⟩
    | controlKey value => obtain rfl := List.mem_singleton.mp ho; exact ⟨rfl, rfl⟩
    | chr value => obtain rfl := List.mem_singleton.mp ho; exact ⟨rfl, rfl⟩
    | unicode value => obtain rfl := List.mem_singleton.mp ho; exact ⟨rfl, rfl⟩
    | win2winHotkey value => obtain rfl := List.mem_singleton.mp ho; exact ⟨rfl, rfl⟩

theorem exists_mem_injectKeyEvent {event : KeyEvent} (h : event.injects = true)
    (results : List Int32) : ∃ o ∈ (injectKeyEvent t event results).2.2, o.injectedBy = some t := by
  unfold KeyEvent.injects at h
  unfold injectKeyEvent
  cases hu : event.union with
  | none =>
    rw [hu] at h
    cases h
  | some u =>
    rw [hu] at h
    cases u with
    | seq value => exact exists_mem_injectSeq t _ (of_decide_eq_true h) results
    | controlKey value => exact ⟨_, List.mem_singleton_self _, rfl⟩
    | chr value => exact ⟨_, List.mem_singleton_self _, rfl⟩
    | unicode value => exact ⟨_, List.mem_singleton_self _, rfl⟩
    | win2winHotkey value => exact ⟨_, List.mem_singleton_self _, rfl⟩

theorem plain_cleanupConnection {inner : ConnInner}
    (ho : o ∈ (w.cleanupConnection t inner).2) : o.plain = true := by
  obtain rfl := List.mem_singleton.mp ho
  rfl

theorem plain_replaceOld {myId : List Char} {id : Int32}
    (ho : o ∈ (w.replaceOld myId id).2) : o.plain = true := by
  simp only [replaceOld] at ho
  split at ho
  · split at ho
    · obtain rfl := List.mem_singleton.mp ho
      rfl
    · cases ho
  · cases ho

variable {task : Task}

theorem plain_handleLoginRequest {lr : LoginRequest} {env : Env}
    (ho : o ∈ (w.handleLoginRequest crypto t task lr env).2) : o.plain = true := by
  unfold handleLoginRequest at ho
  split_ifs at ho
  · rcases List.mem_append.mp ho with ho | ho
    · exact plain_replaceOld ho
    · obtain rfl := List.mem_singleton.mp ho
      rfl
  · rcases List.mem_cons.mp ho with rfl | ho
    · rfl
    · obtain rfl := List.mem_singleton.mp ho
      rfl

theorem plain_finishLogin (ho : o ∈ (w.finishLogin t task).2) : o.plain = true := by
  unfold finishLogin at ho
  split at ho <;> exact List.mem_singleton.mp ho ▸ rfl

theorem out_handleIncomingMessage {msg : Message} {env : Env}
    (ho : o ∈ (w.handleIncomingMessage crypto t task msg env).2) :
    o.plain = true ∨ o.injectedBy = some t ∧ task.keyboard = true ∧ msg.injects = true := by
  cases msg with
  | mouseEvent mask x y =>
    change o ∈ handleMouseEvent t task mask x y env at ho
    unfold handleMouseEvent at ho
    split_ifs at ho with hk
    · rcases List.mem_cons.mp ho with rfl | ho
      · exact Or.inr ⟨rfl, hk, rfl⟩
      · exact Or.inl (List.mem_singleton.mp ho ▸ rfl)
    · cases ho
  | keyEvent event =>
    change o ∈ handleKeyEvent t task event env at ho
    unfold handleKeyEvent at ho
    split_ifs at ho with hk
    · rcases List.mem_append.mp ho with ho | ho
      · obtain ⟨hinj, hby⟩ := mem_injectKeyEvent ho
        exact Or.inr ⟨hby, hk, hinj⟩
      · exact Or.inl (List.mem_singleton.mp ho ▸ rfl)
    · cases ho
  | loginRequest lr => exact Or.inl (plain_handleLoginRequest ho)
  | misc m =>
    cases m with
    | chatMessage text => exact Or.inl (List.mem_singleton.mp ho ▸ rfl)
    | switchDisplay display => exact Or.inl (List.mem_singleton.mp ho ▸ rfl)
    | refreshVideo value => cases ho
    | option opt => cases ho
    | stopService value => exact Or.inl (plain_cleanupConnection ho)
    | other => cases ho
  | cliprdr | multiClipboards | fileAction | testDelay =>
    exact Or.inl (List.mem_singleton.mp ho ▸ rfl)
  | other => cases ho

theorem exists_injectedBy_handleIncomingMessage {msg : Message}
    (hk : task.keyboard = true) (hinj : msg.injects = true) (env : Env) :
    ∃ o ∈ (w.handleIncomingMessage crypto t task msg env).2, o.injectedBy = some t := by
  cases msg with
  | mouseEvent mask x y =>
    refine ⟨.injectMouse t mask x y, ?_, rfl⟩
    change _ ∈ handleMouseEvent t task mask x y env
    unfold handleMouseEvent
    rw [if_pos hk]
    exact List.mem_cons_self
  | keyEvent event =>
    obtain ⟨o, ho, hby⟩ := exists_mem_injectKeyEvent (t := t) hinj env.injectResults
    refine ⟨o, ?_, hby⟩
    change _ ∈ handleKeyEvent t task event env
    unfold handleKeyEvent
    rw [if_pos hk]
    exact List.mem_append_left _ ho
  | _ => cases hinj

theorem out_cases {e : Event} (ho : o ∈ (machine crypto).out w e) :
    o.plain = true ∨
      (∃ t task msg env, e = .message t msg env ∧ w.tasks t = some task ∧
        task.pending = false ∧ o.injectedBy = some t ∧ task.keyboard = true ∧
          msg.injects = true) ∨
      ∃ service svc, e = .sendFrame service ∧ w.server.services service = some svc ∧
        o = .frame service svc.subscribes := by
  cases e with
  | message t msg env =>
    by_cases hread : ∃ task, w.tasks t = some task ∧ task.pending = false
    · obtain ⟨task, ht, hp⟩ := hread
      rw [out_message ht hp] at ho
      exact (out_handleIncomingMessage ho).imp_right fun ⟨hby, hk, hinj⟩ =>
        Or.inl ⟨t, task, msg, env, rfl, ht, hp, hby, hk, hinj⟩
    · have hpend : ∀ task, w.tasks t = some task → task.pending = true := fun task ht =>
        Bool.not_eq_false _ ▸ fun hp => hread ⟨task, ht, hp⟩
      rw [Machine.out, step_message_idle hpend] at ho
      cases ho
  | accept | handshakeFailed => cases ho
  | connect id hash hashSent =>
    simp only [Machine.out, machine, connect] at ho
    split_ifs at ho
    · exact Or.inl (List.mem_singleton.mp ho ▸ rfl)
    · rcases List.mem_cons.mp ho with rfl | ho
      · exact Or.inl rfl
      · exact Or.inl (plain_cleanupConnection ho)
    · cases ho
  | resume t =>
    simp only [Machine.out, machine] at ho
    split at ho
    · split_ifs at ho
      · exact Or.inl (plain_finishLogin ho)
      · cases ho
    · cases ho
  | hangup t =>
    simp only [Machine.out, machine] at ho
    split at ho
    · split_ifs at ho
      · cases ho
      · exact Or.inl (plain_cleanupConnection ho)
    · cases ho
  | sendFrame service =>
    simp only [Machine.out, machine] at ho
    split at ho
    · next svc hsvc =>
      exact Or.inr (Or.inr ⟨service, svc, rfl, hsvc, List.mem_singleton.mp ho⟩)
    · cases ho
  | snapshot service =>
    simp only [Machine.out, machine] at ho
    split at ho <;> cases ho

theorem injectedBy_out {e : Event} (ho : o ∈ (machine crypto).out w e)
    (hby : o.injectedBy = some t) :
    ∃ task msg env, e = .message t msg env ∧ w.tasks t = some task ∧ task.pending = false ∧
      task.keyboard = true ∧ msg.injects = true := by
  rcases out_cases ho with hplain | ⟨t', task, msg, env, he, ht, hp, hby', hk, hinj⟩ |
    ⟨service, svc, _, _, rfl⟩
  · cases o <;>
      first
        | exact absurd hplain Bool.false_ne_true
        | exact absurd hby (by simp [Out.injectedBy])
  · obtain rfl := Option.some.inj (hby.symm.trans hby')
    exact ⟨task, msg, env, he, ht, hp, hk, hinj⟩
  · exact absurd hby (by simp [Out.injectedBy])

/-! ### Logins along a run -/

/-- A login of task `t` was accepted in the run. -/
def LoggedIn (crypto : Crypto) (idCount : Int32) (es : List Event) (t : ℕ) : Prop :=
  ∃ p ∈ (machine crypto).trace (start idCount) es, AcceptedLogin crypto p.1 t p.2

variable {idCount : Int32}

theorem loggedIn_snoc {es : List Event} {e : Event} :
    LoggedIn crypto idCount (es ++ [e]) t ↔
      LoggedIn crypto idCount es t ∨
        AcceptedLogin crypto ((machine crypto).run (start idCount) es) t e := by
  unfold LoggedIn
  rw [Machine.trace_append]
  constructor
  · rintro ⟨p, hp, ha⟩
    rcases List.mem_append.mp hp with hp | hp
    · exact Or.inl ⟨p, hp, ha⟩
    · obtain rfl := List.mem_singleton.mp hp
      exact Or.inr ha
  · rintro (⟨p, hp, ha⟩ | ha)
    · exact ⟨p, List.mem_append_left _ hp, ha⟩
    · exact ⟨_, List.mem_append_right _ (List.mem_singleton_self _), ha⟩

/-- What the tasks say about the logins so far: a task's channel is its own, and `authorized` is
set exactly where a login of the task was accepted. -/
structure Inv (logged : ℕ → Prop) (w : World) : Prop where
  inner_tx : ∀ (t : ℕ) (task : Task), w.tasks t = some task → task.inner.tx = t
  lt_nextTask : ∀ (t : ℕ) (task : Task), w.tasks t = some task → t < w.nextTask
  logged_lt : ∀ t, logged t → t < w.nextTask
  authorized_iff : ∀ (t : ℕ) (task : Task), w.tasks t = some task →
    (task.authorized = true ↔ logged t)
  pending_logged : ∀ (t : ℕ) (task : Task), w.tasks t = some task → task.pending = true → logged t

theorem Inv.start (idCount : Int32) : Inv (fun _ => False) (start idCount) where
  inner_tx := fun _ _ h => absurd h (by simp [World.start])
  lt_nextTask := fun _ _ h => absurd h (by simp [World.start])
  logged_lt := fun _ h => h.elim
  authorized_iff := fun _ _ h => absurd h (by simp [World.start])
  pending_logged := fun _ _ h => absurd h (by simp [World.start])

variable {logged : ℕ → Prop}

theorem Inv.update {w w' : World} (hI : Inv logged w) {task task' : Task}
    (ht : w.tasks t = some task) (htasks : w'.tasks = w.tasks.insert t task')
    (hnext : w'.nextTask = w.nextTask) (hinner : task'.inner = task.inner)
    (hauth : task'.authorized = task.authorized)
    (hpend : task'.pending = true → task.pending = true) : Inv logged w' := by
  have hcase : ∀ t₁ task₁, w'.tasks t₁ = some task₁ →
      t₁ = t ∧ task₁ = task' ∨ w.tasks t₁ = some task₁ := by
    intro t₁ task₁ h₁
    rw [htasks, Table.insert_apply] at h₁
    split_ifs at h₁ with h
    · exact Or.inl ⟨h, (Option.some.inj h₁).symm⟩
    · exact Or.inr h₁
  refine ⟨fun t₁ task₁ h₁ => ?_, fun t₁ task₁ h₁ => ?_, fun t₁ h₁ => ?_, fun t₁ task₁ h₁ => ?_,
    fun t₁ task₁ h₁ hp => ?_⟩
  · rcases hcase t₁ task₁ h₁ with ⟨rfl, rfl⟩ | h₁
    · rw [hinner]
      exact hI.inner_tx t₁ task ht
    · exact hI.inner_tx t₁ task₁ h₁
  · rw [hnext]
    rcases hcase t₁ task₁ h₁ with ⟨rfl, rfl⟩ | h₁
    · exact hI.lt_nextTask t₁ task ht
    · exact hI.lt_nextTask t₁ task₁ h₁
  · rw [hnext]
    exact hI.logged_lt t₁ h₁
  · rcases hcase t₁ task₁ h₁ with ⟨rfl, rfl⟩ | h₁
    · rw [hauth]
      exact hI.authorized_iff t₁ task ht
    · exact hI.authorized_iff t₁ task₁ h₁
  · rcases hcase t₁ task₁ h₁ with ⟨rfl, rfl⟩ | h₁
    · exact hI.pending_logged t₁ task ht (hpend hp)
    · exact hI.pending_logged t₁ task₁ h₁ hp

theorem Inv.shrink {w w' : World} (hI : Inv logged w)
    (htasks : ∀ t task, w'.tasks t = some task → w.tasks t = some task)
    (hnext : w.nextTask ≤ w'.nextTask) : Inv logged w' where
  inner_tx := fun t task h => hI.inner_tx t task (htasks t task h)
  lt_nextTask := fun t task h => (hI.lt_nextTask t task (htasks t task h)).trans_le hnext
  logged_lt := fun t h => (hI.logged_lt t h).trans_le hnext
  authorized_iff := fun t task h => hI.authorized_iff t task (htasks t task h)
  pending_logged := fun t task h => hI.pending_logged t task (htasks t task h)

theorem remove_subset {κ ν : Type*} [DecidableEq κ] {s : Table κ ν} {k j : κ} {v : ν}
    (h : s.remove k j = some v) : s j = some v := by
  rw [Table.remove_apply] at h
  split_ifs at h
  exact h

theorem Inv.next {w : World} (hI : Inv logged w) (e : Event) :
    Inv (fun t => logged t ∨ AcceptedLogin crypto w t e) ((machine crypto).next w e) := by
  -- only an accepted login makes a difference to who is logged in
  have hsame : ∀ w', (∀ t, ¬ AcceptedLogin crypto w t e) → Inv logged w' →
      Inv (fun t => logged t ∨ AcceptedLogin crypto w t e) w' := by
    intro w' hno hI'
    have hlogged : (fun t => logged t ∨ AcceptedLogin crypto w t e) = logged :=
      funext fun t => propext (or_iff_left (hno t))
    rw [hlogged]
    exact hI'
  have hmsg : (∀ t lr env, e ≠ .message t (.loginRequest lr) env) →
      ∀ t, ¬ AcceptedLogin crypto w t e := fun h t ⟨_, _, _, he, _⟩ => h _ _ _ he
  cases change_next crypto w e with
  | idle _ _ htasks hnext hlogin _ =>
    exact hsame _ hlogin (hI.shrink (fun t task h => by rw [← htasks]; exact h) hnext.ge)
  | started id hash he _ htasks hnext =>
    refine hsame _ (hmsg (by rw [he]; simp)) ?_
    have hcase : ∀ t task, ((machine crypto).next w e).tasks t = some task →
        (t = w.nextTask ∧ task.inner.tx = t ∧ task.authorized = false ∧ task.pending = false) ∨
          w.tasks t = some task := by
      intro t task h
      rw [htasks, Table.insert_apply] at h
      split_ifs at h with ht
      · obtain rfl := Option.some.inj h
        exact Or.inl ⟨ht, ht.symm, rfl, rfl⟩
      · exact Or.inr h
    refine ⟨fun t task h => ?_, fun t task h => ?_, fun t h => ?_, fun t task h => ?_,
      fun t task h hp => ?_⟩
    · rcases hcase t task h with ⟨-, htx, -⟩ | h
      · exact htx
      · exact hI.inner_tx t task h
    · rw [hnext]
      rcases hcase t task h with ⟨rfl, -⟩ | h
      · exact Nat.lt_succ_self _
      · exact (hI.lt_nextTask t task h).trans (Nat.lt_succ_self _)
    · rw [hnext]
      exact (hI.logged_lt t h).trans (Nat.lt_succ_self _)
    · rcases hcase t task h with ⟨rfl, -, hauth, -⟩ | h
      · -- a fresh task has no login
        rw [hauth]
        exact ⟨fun h => absurd h Bool.false_ne_true,
          fun h => absurd (hI.logged_lt _ h) (Nat.lt_irrefl _)⟩
      · exact hI.authorized_iff t task h
    · rcases hcase t task h with ⟨-, -, -, hpend⟩ | h
      · exact absurd (hp.symm.trans hpend) (by simp)
      · exact hI.pending_logged t task h hp
  | unsent id hash he _ htasks hnext =>
    refine hsame _ (hmsg (by rw [he]; simp)) (hI.shrink (fun t task h => ?_) ?_)
    · rw [htasks] at h
      exact remove_subset h
    · rw [hnext]
      exact Nat.le_succ _
  | ended t task ht _ he _ htasks hnext =>
    refine hsame _ (hmsg ?_) (hI.shrink (fun t task h => ?_) hnext.ge)
    · rcases he with rfl | ⟨value, env, rfl⟩ <;> simp
    · rw [htasks] at h
      exact remove_subset h
  | refused t task lr env ht hp he hvalid _ htasks hnext =>
    refine hsame _ (fun t' ⟨task', lr', env', he', ht', _, hv⟩ => ?_)
      (hI.update ht htasks hnext rfl rfl id)
    rw [he] at he'
    obtain ⟨rfl, hlr, rfl⟩ := Event.message.inj he'
    obtain rfl := Message.loginRequest.inj hlr
    obtain rfl := Option.some.inj (ht.symm.trans ht')
    exact absurd (hv.symm.trans hvalid) (by simp)
  | accepted t task lr env ht hp he hvalid _ _ htasks hnext =>
    have hacc : AcceptedLogin crypto w t e := ⟨task, lr, env, he, ht, hp, hvalid⟩
    have hother : ∀ t₁, AcceptedLogin crypto w t₁ e → t₁ = t := by
      rintro t₁ ⟨_, _, _, he₁, _⟩
      rw [he] at he₁
      exact (Event.message.inj he₁).1.symm
    have hcase : ∀ t₁ task₁, ((machine crypto).next w e).tasks t₁ = some task₁ →
        (t₁ = t ∧ task₁.inner = task.inner ∧ task₁.authorized = true) ∨
          (t₁ ≠ t ∧ w.tasks t₁ = some task₁) := by
      intro t₁ task₁ h
      rw [htasks, Table.insert_apply] at h
      split_ifs at h with ht₁
      · obtain rfl := Option.some.inj h
        exact Or.inl ⟨ht₁, rfl, rfl⟩
      · exact Or.inr ⟨ht₁, h⟩
    refine ⟨fun t₁ task₁ h => ?_, fun t₁ task₁ h => ?_, fun t₁ h => ?_, fun t₁ task₁ h => ?_,
      fun t₁ task₁ h hp₁ => ?_⟩
    · rcases hcase t₁ task₁ h with ⟨rfl, hinner, -⟩ | ⟨-, h⟩
      · rw [hinner]
        exact hI.inner_tx t₁ task ht
      · exact hI.inner_tx t₁ task₁ h
    · rw [hnext]
      rcases hcase t₁ task₁ h with ⟨rfl, -⟩ | ⟨-, h⟩
      · exact hI.lt_nextTask t₁ task ht
      · exact hI.lt_nextTask t₁ task₁ h
    · rw [hnext]
      rcases h with h | h
      · exact hI.logged_lt t₁ h
      · rw [hother t₁ h]
        exact hI.lt_nextTask t task ht
    · rcases hcase t₁ task₁ h with ⟨rfl, -, hauth⟩ | ⟨hne, h⟩
      · exact iff_of_true hauth (Or.inr hacc)
      · rw [hI.authorized_iff t₁ task₁ h]
        exact (or_iff_left fun ha => hne (hother t₁ ha)).symm
    · rcases hcase t₁ task₁ h with ⟨rfl, -⟩ | ⟨-, h⟩
      · exact Or.inr hacc
      · exact Or.inl (hI.pending_logged t₁ task₁ h hp₁)
  | finished t task ht hp he _ subed htasks hnext =>
    exact hsame _ (hmsg (by rw [he]; simp))
      (hI.update ht htasks hnext rfl rfl fun h => absurd h Bool.false_ne_true)
  | refreshed t task ht hp value env he _ htasks hnext =>
    exact hsame _ (hmsg (by rw [he]; simp))
      (hI.shrink (fun t task h => by rw [← htasks]; exact h) hnext.ge)
  | option t task ht hp opt env he _ htasks hnext =>
    refine hsame _ (hmsg (by rw [he]; simp)) (hI.update ht htasks hnext
      (task.withOption_inner opt) (task.withOption_authorized opt) fun h => ?_)
    rw [← task.withOption_pending opt]
    exact h
  | snapshot service svc he _ _ htasks hnext =>
    exact hsame _ (hmsg (by rw [he]; simp))
      (hI.shrink (fun t task h => by rw [← htasks]; exact h) hnext.ge)

theorem inv_run (crypto : Crypto) (idCount : Int32) (es : List Event) :
    Inv (LoggedIn crypto idCount es) ((machine crypto).run (start idCount) es) := by
  induction es using List.reverseRecOn with
  | nil =>
    have hnone : LoggedIn crypto idCount [] = fun _ => False :=
      funext fun t => propext ⟨fun ⟨p, hp, _⟩ => absurd hp List.not_mem_nil, False.elim⟩
    rw [hnone]
    exact Inv.start idCount
  | append_singleton es e ih =>
    have hlogged : LoggedIn crypto idCount (es ++ [e]) = fun t => LoggedIn crypto idCount es t ∨
        AcceptedLogin crypto ((machine crypto).run (start idCount) es) t e :=
      funext fun t => propext loggedIn_snoc
    rw [hlogged, Machine.run_append]
    exact ih.next e

/-! ### Runs in which only authorized connections act -/

/-- No running connection without a login sends a message that is turned into an injection while
its `keyboard` is set, or asks for a refresh while there is a screen that it is not subscribed
to. -/
def Guarded (w : World) : Event → Prop
  | .message t msg _ => ∀ task, w.tasks t = some task → task.pending = false →
      task.authorized = false →
        (msg.injects = true → task.keyboard = false) ∧
          ∀ value, msg = .misc (.refreshVideo value) →
            ∀ svc, w.server.services monitor0 = some svc → svc.isSubed task.inner.id = true
  | _ => True

/-- Injections are made, and the primary screen is subscribed to, only for connections that had a
login accepted earlier in the run. -/
structure Safe (crypto : Crypto) (idCount : Int32) (es : List Event) : Prop where
  injection : ∀ (pre : List Event) (e : Event) (post : List Event), es = pre ++ e :: post →
    ∀ o ∈ (machine crypto).out ((machine crypto).run (start idCount) pre) e, ∀ t,
      o.injectedBy = some t → LoggedIn crypto idCount pre t
  subscription : ∀ (pre post : List Event), es = pre ++ post → ∀ (id : Int32) (conn : ConnInner),
    ((machine crypto).run (start idCount) pre).server.Holds monitor0 id conn →
      LoggedIn crypto idCount pre conn.tx

theorem logged_of_holds {es : List Event}
    (hes : (machine crypto).Meets Guarded (start idCount) es) {name : List Char} {id : Int32}
    {conn : ConnInner}
    (h : ((machine crypto).run (start idCount) es).server.Holds name id conn) :
    LoggedIn crypto idCount es conn.tx := by
  induction es using List.reverseRecOn with
  | nil => exact absurd h (Server.not_holds_new _ _ _ _)
  | append_singleton es e ih =>
    obtain ⟨hpre, hlast⟩ := Machine.meets_append.mp hes
    have hguard := (Machine.meets_cons.mp hlast).1
    have hI := inv_run crypto idCount es
    rw [Machine.run_append] at h
    rw [loggedIn_snoc]
    rcases holds_next h with h | ⟨t, task, -, ht, hj, -, rfl, -⟩ |
      ⟨t, task, value, env, rfl, ht, hp, -, -, rfl, svc, hsvc, hnew⟩
    · exact Or.inl (ih hpre h)
    · rw [hI.inner_tx t task ht]
      exact Or.inl (hI.pending_logged t task ht (Bool.and_eq_true_iff.mp hj).1)
    · rw [hI.inner_tx t task ht, ← hI.authorized_iff t task ht]
      by_contra hno
      have hauth : task.authorized = false := Bool.eq_false_iff.mpr fun ha => hno (Or.inl ha)
      have := (hguard task ht hp hauth).2 value rfl svc hsvc
      exact absurd (this.symm.trans hnew) (by simp)

/-- **Nothing before login.** Mouse and key events are injected, and the primary screen is
subscribed to, only for connections that had a login accepted, exactly when no other one sends a
mouse or key message while its `keyboard` is set, or a `RefreshVideo` while the screen is served. -/
theorem safe_iff_guarded (crypto : Crypto) (idCount : Int32) (es : List Event) :
    Safe crypto idCount es ↔ (machine crypto).Meets Guarded (start idCount) es := by
  constructor
  · intro hsafe
    by_contra hno
    obtain ⟨pre, e, post, rfl, -, hfail⟩ := Machine.not_meets_split hno
    have hI := inv_run crypto idCount pre
    cases e with
    | message t msg env =>
      unfold Guarded at hfail
      push Not at hfail
      obtain ⟨task, ht, hp, hauth, hbad⟩ := hfail
      have hnot : ¬ LoggedIn crypto idCount pre t := fun hl =>
        absurd (((hI.authorized_iff t task ht).mpr hl).symm.trans hauth) (by simp)
      by_cases hkey : msg.injects = true ∧ task.keyboard ≠ false
      · -- the message is injected
        obtain ⟨o, ho, hby⟩ := exists_injectedBy_handleIncomingMessage (t := t)
          (w := (machine crypto).run (start idCount) pre)
          ((Bool.not_eq_false _).mp hkey.2) hkey.1 env
        rw [← out_message ht hp] at ho
        exact hnot (hsafe.injection pre _ post rfl o ho t hby)
      · -- the refresh subscribes
        obtain ⟨value, rfl, svc, hsvc, hnew⟩ := hbad fun hinj => by
          by_contra hk
          exact hkey ⟨hinj, hk⟩
        have hheld : ((machine crypto).run (start idCount)
            (pre ++ [.message t (.misc (.refreshVideo value)) env])).server.Holds monitor0
              task.inner.id task.inner := by
          rw [Machine.run_append, Machine.run_cons, next_message ht hp]
          exact Server.subscribe_holds hsvc ((Bool.not_eq_true _).mp hnew)
        have hl := hsafe.subscription _ post (by simp) _ _ hheld
        rw [hI.inner_tx t task ht, loggedIn_snoc] at hl
        rcases hl with hl | ⟨_, _, _, he, _⟩
        · exact hnot hl
        · exact absurd he (by simp)
    | _ => exact hfail trivial
  · intro hguard
    refine ⟨?_, ?_⟩
    · rintro pre e post rfl o ho t hby
      obtain ⟨-, hrest⟩ := Machine.meets_append.mp hguard
      have hstep := (Machine.meets_cons.mp hrest).1
      obtain ⟨task, msg, env, rfl, ht, hp, hk, hinj⟩ := injectedBy_out ho hby
      rw [← (inv_run crypto idCount pre).authorized_iff t task ht]
      by_contra hauth
      have := (hstep task ht hp (Bool.eq_false_iff.mpr hauth)).1 hinj
      exact absurd (hk.symm.trans this) (by simp)
    · rintro pre post rfl id conn hheld
      exact logged_of_holds (Machine.meets_append.mp hguard).1 hheld

/-- Functions to link with in an example: nothing hashes, decodes or opens. -/
def noCrypto : Crypto where
  sha256 := fun _ => []
  base64Decode := fun _ => none
  box := ⟨fun m _ _ => m, fun _ _ _ => none⟩

def emptyConfig : Config where
  option := fun _ => []
  temporaryPassword := []
  password := []
  salt := []
  hardPassword := []
  hardSalt := []
  uuid := []
  existingPk := none

/-- **Input before login.** A peer that has only connected moves the mouse. -/
theorem mouse_before_login : ¬ ∀ es, Safe noCrypto 1000 es := by
  intro h
  have hinj := (h [.accept, .connect 1001 ⟨[], []⟩ true,
    .message 0 (.mouseEvent 0 10 20) ⟨emptyConfig, []⟩]).injection
      [.accept, .connect 1001 ⟨[], []⟩ true] _ [] rfl (.injectMouse 0 0 10 20)
      List.mem_cons_self 0 rfl
  rw [← (inv_run noCrypto 1000 _).authorized_iff 0 _ rfl] at hinj
  exact Bool.false_ne_true hinj

end World

end Ohos

end LibRustdesk
