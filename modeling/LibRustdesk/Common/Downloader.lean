import LibRustdesk.Framework.Machine
import LibRustdesk.Framework.Table

/-!
# Downloads by URL

`src/hbbs_http/downloader.rs`. A call of `download_file` puts an entry under its URL and starts a
worker, which looks the entry up by the URL at every step. To remove an entry drops its cancel
sender, and the worker takes that for a cancellation.

* `Task` — a call with its worker; `State.call` and `State.work` are the steps under one lock each,
  or between two.
* `Fine` — a worker leaves the entries of others alone, a file goes only for the call that created
  it, and the data that is handed out is the body that one worker received.
* `Own` — a worker finds no entry but its own, what is deleted was created for the entry it is
  deleted with, and no file is there where one is created.
* `fine_of_own` — **every run of such steps is fine.** A worker whose URL was started again removes
  the new entry (`removes_restarted`).

Whether the timer of `auto_del_dur` outlives the runtime of its worker is up to the run.
-/

namespace LibRustdesk.Downloader

/-- `Downloader`, and the call it is of. -/
structure Entry (Path : Type) where
  owner : ℕ
  data : List UInt8 := []
  path : Option Path
  totalSize : Option ℕ := none
  downloadedSize : ℕ := 0
  error : Bool := false
  finished : Bool := false
  deriving DecidableEq

inductive Phase (Path : Type)
  | first
  /-- The file of an entry that was removed, and the call it was of, if it has one. -/
  | stale (old : Option (ℕ × Path)) (inserted : Bool)
  | check
  | second
  | head
  | get
  | create
  | chunks
  | flush (all : Bool)
  | ended (all : Bool)
  | timer
  | failed
  | done
  deriving DecidableEq

structure Task (Url Path : Type) where
  url : Url
  path : Option Path
  autoDel : Bool
  phase : Phase Path := .first
  /-- There is a message of `tx_cancel`. -/
  cancelled : Bool := false
  received : List UInt8 := []
  deriving DecidableEq

structure State (Url Path : Type) where
  /-- `DOWNLOADERS`. -/
  entries : Table Url (Entry Path) := Table.empty
  tasks : Table ℕ (Task Url Path) := Table.empty
  created : ℕ := 0
  /-- The files that exist, and the calls that created them. -/
  files : Table Path (Option ℕ)

inductive Input
  | cancel
  | ok (total : ℕ)
  | chunk (bytes : List UInt8)
  | fin
  | error
  deriving DecidableEq

inductive Event (Url Path : Type)
  | download (url : Url) (path : Option Path) (autoDel : Bool)
  | advance (t : ℕ) (input : Input)
  | cancel (url : Url)
  | remove (url : Url)
  | get (url : Url)

namespace Phase

variable {Path : Type}

def inserted : Phase Path → Bool
  | .first | .check | .second => false
  | .stale _ inserted => inserted
  | _ => true

def isWorker : Phase Path → Bool
  | .first | .check | .second | .stale _ _ => false
  | _ => true

def touches : Phase Path → Input → Bool
  | .head, .ok _ | .chunks, .chunk _ | .ended false, _ | .timer, _ | .failed, _ => true
  | .flush _, input => input ≠ .error
  | _, _ => false

/-- `File::create`, which truncates a file that is there. -/
def creates : Phase Path → Input → Bool
  | .create, .ok _ => true
  | _, _ => false

end Phase

namespace State

variable {Url Path : Type} [DecidableEq Url] [DecidableEq Path] (s : State Url Path)

def goto (t : ℕ) (task : Task Url Path) (phase : Phase Path) : State Url Path :=
  { s with tasks := s.tasks.insert t { task with phase } }

/-- `get_mut(id).map(..)`. -/
def modify (url : Url) (f : Entry Path → Entry Path) : State Url Path :=
  { s with entries := Function.update s.entries url ((s.entries url).map f) }

def removeEntry (url : Url) : State Url Path := { s with entries := s.entries.remove url }

def delete : Option Path → State Url Path
  | some p => { s with files := s.files.remove p }
  | none => s

/-- The steps of `download_file` itself. -/
def call (t : ℕ) (task : Task Url Path) : State Url Path :=
  match task.phase with
  | .first =>
    match s.entries task.url with
    | some e =>
      if e.error then
        (s.removeEntry task.url).goto t task (.stale (e.path.map fun p => (e.owner, p)) false)
      else s.goto t task .done
    | none => s.goto t task (.stale none false)
  | .stale old inserted =>
    (s.delete (old.map Prod.snd)).goto t task (if inserted then .head else .check)
  | .check =>
    s.goto t task (if task.path.any fun p => (s.files p).isSome then .done else .second)
  | .second =>
    match s.entries task.url with
    | some e =>
      if e.error then
        { s with entries := s.entries.insert task.url { owner := t, path := task.path } }.goto t
          task (.stale (e.path.map fun p => (e.owner, p)) true)
      else s.goto t task .done
    | none =>
      { s with entries := s.entries.insert task.url { owner := t, path := task.path } }.goto t task
        (.stale none true)
  | _ => s

/-- `rx_cancel.recv()` is ready: there is a message, or no sender. -/
def recvReady (t : ℕ) (task : Task Url Path) : Bool :=
  task.cancelled || !(s.entries task.url).any fun e => e.owner = t

/-- A chunk is written to the file, or added to the data. -/
def chunk (bytes : List UInt8) (e : Entry Path) : Entry Path :=
  { e with
    data := if e.path.isSome then e.data else e.data ++ bytes
    downloadedSize := e.downloadedSize + bytes.length }

def work (t : ℕ) (task : Task Url Path) (input : Input) : State Url Path :=
  match task.phase, input with
  | .head, .cancel | .get, .cancel =>
    if s.recvReady t task then s.goto t task (.ended false) else s
  | .chunks, .cancel => if s.recvReady t task then s.goto t task (.flush false) else s
  | .head, .ok total =>
    (s.modify task.url fun e => { e with totalSize := some total }).goto t task .get
  | .get, .ok _ => s.goto t task .create
  | .create, .ok _ =>
    { s with
      files := match task.path with
        | some p => s.files.insert p (some t)
        | none => s.files }.goto t task .chunks
  | .chunks, .chunk bytes =>
    (s.modify task.url (chunk bytes)).goto t
      { task with received := task.received ++ bytes } .chunks
  | .chunks, .fin => s.goto t task (.flush true)
  | .head, .error | .get, .error | .create, .error | .chunks, .error | .flush _, .error =>
    s.goto t task .failed
  | .flush all, _ =>
    (s.modify task.url fun e => { e with finished := true }).goto t task (.ended all)
  | .ended true, _ => s.goto t task (if task.autoDel then .timer else .done)
  | .ended false, _ =>
    ((s.removeEntry task.url).delete ((s.entries task.url).bind Entry.path)).goto t task .done
  | .timer, _ => (s.removeEntry task.url).goto t task .done
  | .failed, _ => (s.modify task.url fun e => { e with error := true }).goto t task .done
  | _, _ => s

def advance (t : ℕ) (input : Input) : State Url Path :=
  match s.tasks t with
  | some task => if task.phase.isWorker then s.work t task input else s.call t task
  | none => s

def cancel (url : Url) : State Url Path :=
  match s.entries url with
  | some e =>
    { s with
      tasks := Function.update s.tasks e.owner
        ((s.tasks e.owner).map fun task => { task with cancelled := true }) }
  | none => s

/-- The data of `get_download_data`. -/
def getDownloadData (url : Url) : List UInt8 :=
  match s.entries url with
  | some e => if e.totalSize.getD 0 = e.downloadedSize ∧ e.path.isNone then e.data else []
  | none => []

/-- The file that the next step of a call deletes, and the call it was for. -/
def erases (t : ℕ) (task : Task Url Path) : Option (ℕ × Path) :=
  match task.phase with
  | .stale old _ => old
  | .ended false => ((s.entries task.url).bind Entry.path).map fun p => (t, p)
  | _ => none

end State

def start {Url Path : Type} (existing : Path → Bool) : State Url Path :=
  { files := fun p => if existing p then some none else none }

section Machine

variable (Url Path : Type) [DecidableEq Url] [DecidableEq Path]

def machine : Machine (State Url Path) (Event Url Path) (List UInt8) where
  step s
    | .download url path autoDel =>
      ({ s with
        created := s.created + 1
        tasks := s.tasks.insert s.created { url, path, autoDel } }, [])
    | .advance t input => (s.advance t input, [])
    | .cancel url => (s.cancel url, [])
    | .remove url => (s.removeEntry url, [])
    | .get url => (s, [s.getDownloadData url])

variable {Url Path}

structure Fine (s : State Url Path) (e : Event Url Path) : Prop where
  entries : ∀ t input task, e = .advance t input → s.tasks t = some task →
    task.phase.isWorker = true → ∀ url entry, s.entries url = some entry → entry.owner ≠ t →
      ((machine Url Path).next s e).entries url = some entry
  files : ∀ p creator, s.files p = some creator →
    ((machine Url Path).next s e).files p = some creator ∨
      ∃ t input task v, e = .advance t input ∧ s.tasks t = some task ∧ s.erases t task = some v ∧
        v.2 = p ∧ creator = some v.1
  data : ∀ data ∈ (machine Url Path).out s e, data ≠ [] →
    ∃ t task, s.tasks t = some task ∧ data = task.received

def Own (s : State Url Path) : Event Url Path → Prop
  | .advance t input => ∀ task ∈ s.tasks t,
    (task.phase.touches input = true → ∀ e ∈ s.entries task.url, e.owner = t) ∧
      (∀ v ∈ s.erases t task, ∀ creator ∈ s.files v.2, creator = some v.1) ∧
        (task.phase.creates input = true → ∀ p ∈ task.path, s.files p = none)
  | _ => True

instance (s : State Url Path) : (e : Event Url Path) → Decidable (Own s e)
  | .advance t input => inferInstanceAs (Decidable (∀ task ∈ s.tasks t,
    (task.phase.touches input = true → ∀ e ∈ s.entries task.url, e.owner = t) ∧
      (∀ v ∈ s.erases t task, ∀ creator ∈ s.files v.2, creator = some v.1) ∧
        (task.phase.creates input = true → ∀ p ∈ task.path, s.files p = none)))
  | .download _ _ _ | .cancel _ | .remove _ | .get _ => .isTrue trivial

end Machine

/-! ### The invariant -/

variable {Url Path : Type} {s s' : State Url Path} {t : ℕ} {task : Task Url Path}

/-- Every entry is of a call for its URL, and has the data its worker received. -/
structure Inv (s : State Url Path) : Prop where
  entry : ∀ url e, s.entries url = some e → ∃ task, s.tasks e.owner = some task ∧
    task.url = url ∧ task.path = e.path ∧ (e.path = none → e.data = task.received)
  early : ∀ t task, s.tasks t = some task → task.phase.inserted = false → task.received = []
  fresh : ∀ t, s.created ≤ t → s.tasks t = none

namespace Inv

theorem setTask (h : Inv s) (htask : s.tasks t = some task) {task' : Task Url Path}
    (hurl : task'.url = task.url) (hpath : task'.path = task.path)
    (hreceived : task'.received = task.received)
    (hphase : task'.phase.inserted = false → task.phase.inserted = false) :
    Inv { s with tasks := s.tasks.insert t task' } where
  entry url e he := by
    obtain ⟨old, hold, hspec⟩ := h.entry url e he
    by_cases howner : e.owner = t
    · rw [howner, htask] at hold
      obtain rfl := Option.some.inj hold
      refine ⟨task', ?_, hurl ▸ hpath ▸ hreceived ▸ hspec⟩
      rw [howner]
      exact Table.insert_self _ _ _
    · exact ⟨old, (Table.insert_of_ne _ _ howner).trans hold, hspec⟩
  early t' old hold hearly := by
    by_cases heq : t' = t
    · subst heq
      obtain rfl := Option.some.inj ((Table.insert_self _ _ _).symm.trans hold)
      exact hreceived.trans (h.early t' task htask (hphase hearly))
    · exact h.early t' old ((Table.insert_of_ne _ _ heq).symm.trans hold) hearly
  fresh t' hfresh := by
    have hne : t' ≠ t := by
      rintro rfl
      exact absurd (htask.symm.trans (h.fresh t' hfresh)) (Option.some_ne_none _)
    exact (Table.insert_of_ne _ _ hne).trans (h.fresh t' hfresh)

variable [DecidableEq Url]

theorem modify (h : Inv s) (url : Url) {f : Entry Path → Entry Path}
    (hf : ∀ e, (f e).owner = e.owner ∧ (f e).path = e.path ∧ (f e).data = e.data) :
    Inv (s.modify url f) where
  entry url' e he := by
    replace he : Function.update s.entries url _ url' = some e := he
    rw [Function.update_apply] at he
    split at he
    · next heq =>
      obtain ⟨old, hold, rfl⟩ := Option.map_eq_some_iff.mp he
      obtain ⟨howner, hpath, hdata⟩ := hf old
      rw [howner, hpath, hdata]
      exact h.entry url' old (heq ▸ hold)
    · exact h.entry url' e he
  early := h.early
  fresh := h.fresh

theorem removeEntry (h : Inv s) (url : Url) : Inv (s.removeEntry url) where
  entry url' e he := by
    replace he : s.entries.remove url url' = some e := he
    rw [Table.remove_apply] at he
    split at he
    · cases he
    · exact h.entry url' e he
  early := h.early
  fresh := h.fresh

theorem insertEntry (h : Inv s) (htask : s.tasks t = some task)
    (hphase : task.phase.inserted = false) :
    Inv { s with entries := s.entries.insert task.url { owner := t, path := task.path } } where
  entry url e he := by
    replace he : s.entries.insert task.url { owner := t, path := task.path } url = some e := he
    rw [Table.insert_apply] at he
    split at he
    · next heq =>
      obtain rfl := Option.some.inj he
      exact ⟨task, htask, heq.symm, rfl, fun _ => (h.early t task htask hphase).symm⟩
    · exact h.entry url e he
  early := h.early
  fresh := h.fresh

theorem chunk (h : Inv s) (htask : s.tasks t = some task)
    (hown : ∀ e ∈ s.entries task.url, e.owner = t) (bytes : List UInt8) :
    Inv { s.modify task.url (State.chunk bytes) with
      tasks := s.tasks.insert t
        { task with received := task.received ++ bytes, phase := .chunks } } where
  entry url e he := by
    replace he : Function.update s.entries task.url _ url = some e := he
    rw [Function.update_apply] at he
    split at he
    · next heq =>
      obtain ⟨old, hold, rfl⟩ := Option.map_eq_some_iff.mp he
      have howner := hown old hold
      obtain ⟨old', hold', -, hpath, hdata⟩ := h.entry task.url old hold
      rw [howner, htask] at hold'
      obtain rfl := Option.some.inj hold'
      refine ⟨{ task with received := task.received ++ bytes, phase := .chunks }, ?_, heq.symm,
        hpath, fun hnone => ?_⟩
      · show s.tasks.insert t _ old.owner = _
        rw [howner]
        exact Table.insert_self _ _ _
      · replace hnone : old.path = none := hnone
        show (if old.path.isSome then old.data else old.data ++ bytes) = task.received ++ bytes
        rw [hnone, hdata hnone]
        rfl
    · next hne =>
      obtain ⟨old, hold, hurl, hspec⟩ := h.entry url e he
      have howner : e.owner ≠ t := by
        intro howner
        rw [howner, htask] at hold
        exact hne (Option.some.inj hold ▸ hurl.symm)
      exact ⟨old, (Table.insert_of_ne _ _ howner).trans hold, hurl, hspec⟩
  early t' old hold hearly := by
    by_cases heq : t' = t
    · subst heq
      obtain rfl := Option.some.inj ((Table.insert_self _ _ _).symm.trans hold)
      cases hearly
    · exact h.early t' old ((Table.insert_of_ne _ _ heq).symm.trans hold) hearly
  fresh t' hfresh := by
    have hne : t' ≠ t := by
      rintro rfl
      exact absurd (htask.symm.trans (h.fresh t' hfresh)) (Option.some_ne_none _)
    exact (Table.insert_of_ne _ _ hne).trans (h.fresh t' hfresh)

end Inv

/-! ### One step -/

structure Kept (s s' : State Url Path) (t : ℕ) (task : Task Url Path) : Prop where
  inv : Inv s'
  entries : task.phase.isWorker = true → ∀ url e, s.entries url = some e → e.owner ≠ t →
    s'.entries url = some e
  files : ∀ p creator, s.files p = some creator → s'.files p = some creator ∨
    ∃ v : ℕ × Path, s.erases t task = some v ∧ v.2 = p ∧ creator = some v.1

structure Keeps (s s' : State Url Path) (t : ℕ) (task : Task Url Path) : Prop
    extends Kept s s' t task where
  task : s'.tasks t = some task

namespace Keeps

theorem refl (h : Inv s) (htask : s.tasks t = some task) : Keeps s s t task :=
  ⟨⟨h, fun _ _ _ he _ => he, fun _ _ hp => .inl hp⟩, htask⟩

theorem modify_of_ne [DecidableEq Url] (hown : ∀ e ∈ s.entries task.url, e.owner = t)
    (f : Entry Path → Entry Path) {url : Url} {e : Entry Path} (he : s.entries url = some e)
    (hne : e.owner ≠ t) : (s.modify task.url f).entries url = some e := by
  have hurl : url ≠ task.url := by
    rintro rfl
    exact hne (hown e he)
  exact (Function.update_of_ne hurl _ _).trans he

theorem modify [DecidableEq Url] (h : Inv s) (htask : s.tasks t = some task)
    (hown : ∀ e ∈ s.entries task.url, e.owner = t) {f : Entry Path → Entry Path}
    (hf : ∀ e, (f e).owner = e.owner ∧ (f e).path = e.path ∧ (f e).data = e.data) :
    Keeps s (s.modify task.url f) t task where
  inv := h.modify task.url hf
  entries _ _ _ he hne := modify_of_ne hown f he hne
  files _ _ hp := .inl hp
  task := htask

theorem removeEntry [DecidableEq Url] (h : Inv s) (htask : s.tasks t = some task)
    (hown : task.phase.isWorker = true → ∀ e ∈ s.entries task.url, e.owner = t) :
    Keeps s (s.removeEntry task.url) t task where
  inv := h.removeEntry task.url
  entries hworker url e he hne := by
    have hurl : url ≠ task.url := by
      rintro rfl
      exact hne (hown hworker e he)
    exact (Table.remove_of_ne _ hurl).trans he
  files _ _ hp := .inl hp
  task := htask

theorem delete [DecidableEq Path] (h : Keeps s s' t task) {path : Option Path}
    (hfiles : s'.files = s.files) (hpath : (s.erases t task).map Prod.snd = path)
    (hown : ∀ v ∈ s.erases t task, ∀ creator ∈ s.files v.2, creator = some v.1) :
    Keeps s (s'.delete path) t task := by
  unfold State.delete
  cases path with
  | none => exact h
  | some erased =>
    obtain ⟨v, hv, rfl⟩ := Option.map_eq_some_iff.mp hpath
    refine ⟨⟨⟨h.inv.entry, h.inv.early, h.inv.fresh⟩, h.entries, fun p creator hp => ?_⟩, h.task⟩
    by_cases heq : p = v.2
    · subst heq
      exact .inr ⟨v, hv, rfl, hown v hv creator hp⟩
    · exact .inl ((Table.remove_of_ne _ heq).trans (hfiles ▸ hp))

end Keeps

theorem Keeps.goto (h : Keeps s s' t task) {phase : Phase Path}
    (hphase : phase.inserted = false → task.phase.inserted = false) :
    Kept s (s'.goto t task phase) t task :=
  ⟨h.inv.setTask h.task rfl rfl rfl hphase, h.entries, h.files⟩

variable [DecidableEq Url] [DecidableEq Path]

theorem kept_call (h : Inv s) (htask : s.tasks t = some task)
    (hworker : task.phase.isWorker = false)
    (hown : ∀ v ∈ s.erases t task, ∀ creator ∈ s.files v.2, creator = some v.1) :
    Kept s (s.call t task) t task := by
  have hrefl := Keeps.refl h htask
  have hremove := Keeps.removeEntry h htask fun hw => absurd (hworker.symm.trans hw) nofun
  unfold State.call
  split
  · next hphase =>
    have hearly : task.phase.inserted = false := by rw [hphase]; rfl
    split
    · split
      · exact hremove.goto fun _ => hearly
      · exact hrefl.goto fun _ => hearly
    · exact hrefl.goto fun _ => hearly
  · next old inserted hphase =>
    have herases : s.erases t task = old := by
      unfold State.erases
      rw [hphase]
    refine (hrefl.delete rfl (congrArg _ herases) hown).goto fun hearly => ?_
    rw [hphase]
    cases inserted with
    | true => cases hearly
    | false => rfl
  · next hphase => exact hrefl.goto fun _ => by rw [hphase]; rfl
  · next hphase =>
    have hearly : task.phase.inserted = false := by rw [hphase]; rfl
    have hinsert : Keeps s { s with
        entries := s.entries.insert task.url { owner := t, path := task.path } } t task :=
      ⟨⟨h.insertEntry htask hearly, fun hw => absurd (hworker.symm.trans hw) nofun,
        fun _ _ hp => .inl hp⟩, htask⟩
    split
    · split
      · exact hinsert.goto fun hnot => absurd hnot nofun
      · exact hrefl.goto fun _ => hearly
    · exact hinsert.goto fun hnot => absurd hnot nofun
  · exact hrefl.toKept

theorem kept_work (h : Inv s) (htask : s.tasks t = some task) {input : Input}
    (hown : Own s (.advance t input)) :
    Kept s (s.work t task input) t task := by
  obtain ⟨hentry, hfile, hcreate⟩ := hown task htask
  have hrefl := Keeps.refl h htask
  have hgoto {phase : Phase Path} (hinserted : phase.inserted = true) :
      Kept s (s.goto t task phase) t task :=
    hrefl.goto fun hnot => absurd (hnot.symm.trans hinserted) nofun
  unfold State.work
  split
  · split
    · exact hgoto rfl
    · exact hrefl.toKept
  · split
    · exact hgoto rfl
    · exact hrefl.toKept
  · split
    · exact hgoto rfl
    · exact hrefl.toKept
  · next hphase =>
    refine (Keeps.modify h htask (hentry ?_) ?_).goto ?_
    · rw [hphase]
      rfl
    · exact fun _ => ⟨rfl, rfl, rfl⟩
    · exact fun hnot => absurd hnot nofun
  · exact hgoto rfl
  · next hphase =>
    -- no file is there where one is created
    have hnone := hcreate (by rw [hphase]; rfl)
    have hcreated : Keeps s { s with files := match task.path with
        | some p => s.files.insert p (some t)
        | none => s.files } t task := by
      refine ⟨⟨⟨h.entry, h.early, h.fresh⟩, fun _ _ _ he _ => he, fun p creator hp => .inl ?_⟩,
        htask⟩
      cases hpath : task.path with
      | none => exact hp
      | some created =>
        have hne : p ≠ created := by
          rintro rfl
          exact absurd (hp.symm.trans (hnone p hpath)) nofun
        exact (Table.insert_of_ne _ _ hne).trans hp
    exact hcreated.goto nofun
  · next hphase =>
    have hown := hentry (by rw [hphase]; rfl)
    exact ⟨h.chunk htask hown _, fun _ _ _ he hne => Keeps.modify_of_ne hown _ he hne,
      fun _ _ hp => .inl hp⟩
  · exact hgoto rfl
  · exact hgoto rfl
  · exact hgoto rfl
  · exact hgoto rfl
  · exact hgoto rfl
  · exact hgoto rfl
  · next hphase hinput =>
    refine (Keeps.modify h htask (hentry ?_) ?_).goto ?_
    · rw [hphase]
      exact decide_eq_true hinput
    · exact fun _ => ⟨rfl, rfl, rfl⟩
    · exact fun hnot => absurd hnot nofun
  · refine hgoto ?_
    split <;> rfl
  · next hphase =>
    have hremove := Keeps.removeEntry h htask fun _ => hentry (by rw [hphase]; rfl)
    have herases : (s.erases t task).map Prod.snd = (s.entries task.url).bind Entry.path := by
      unfold State.erases
      rw [hphase, Option.map_map]
      exact Option.map_id'
    exact (hremove.delete rfl herases hfile).goto fun hnot => absurd hnot nofun
  · next hphase =>
    exact (Keeps.removeEntry h htask fun _ => hentry (by rw [hphase]; rfl)).goto fun hnot =>
      absurd hnot nofun
  · next hphase =>
    refine (Keeps.modify h htask (hentry ?_) ?_).goto ?_
    · rw [hphase]
      rfl
    · exact fun _ => ⟨rfl, rfl, rfl⟩
    · exact fun hnot => absurd hnot nofun
  · exact hrefl.toKept

theorem kept_advance (h : Inv s) (htask : s.tasks t = some task) {input : Input}
    (hown : Own s (.advance t input)) : Kept s (s.advance t input) t task := by
  unfold State.advance
  rw [htask]
  by_cases hworker : task.phase.isWorker = true
  · dsimp only
    rw [if_pos hworker]
    exact kept_work h htask hown
  · dsimp only
    rw [if_neg hworker]
    exact kept_call h htask (Bool.eq_false_iff.mpr hworker) (hown task htask).2.1

omit [DecidableEq Url] [DecidableEq Path] in
theorem getDownloadData_eq (h : Inv s) {url : Url} (hdata : s.getDownloadData url ≠ []) :
    ∃ t task, s.tasks t = some task ∧ s.getDownloadData url = task.received := by
  unfold State.getDownloadData at hdata ⊢
  cases hentry : s.entries url with
  | none =>
    rw [hentry] at hdata
    exact absurd rfl hdata
  | some e =>
    rw [hentry] at hdata
    obtain ⟨task, htask, -, -, hreceived⟩ := h.entry url e hentry
    dsimp only at hdata ⊢
    split at hdata
    · next hwhole =>
      rw [if_pos hwhole]
      exact ⟨e.owner, task, htask, hreceived (Option.isNone_iff_eq_none.mp hwhole.2)⟩
    · exact absurd rfl hdata

theorem next_spec (h : Inv s) {e : Event Url Path} (hown : Own s e) :
    Inv ((machine Url Path).next s e) ∧ Fine s e := by
  cases e with
  | advance t input =>
    cases htask : s.tasks t with
    | none =>
      have hnext : (machine Url Path).next s (.advance t input) = s := by
        show s.advance t input = s
        unfold State.advance
        rw [htask]
      refine ⟨hnext.symm ▸ h, fun t' input' task heq htask' _ _ _ he _ => ?_,
        fun p creator hp => .inl ?_, fun data hmem => absurd hmem List.not_mem_nil⟩
      · exact hnext.symm ▸ he
      · exact hnext.symm ▸ hp
    | some task =>
      obtain ⟨hinv, hentries, hfiles⟩ := kept_advance h htask hown
      refine ⟨hinv, fun t' input' task' heq htask' hworker => ?_, fun p creator hp => ?_,
        fun data hmem => absurd hmem List.not_mem_nil⟩
      · cases heq
        obtain rfl := Option.some.inj (htask.symm.trans htask')
        exact hentries hworker
      · exact (hfiles p creator hp).imp_right fun ⟨v, herases, hp, hcreator⟩ =>
          ⟨t, input, task, v, rfl, htask, herases, hp, hcreator⟩
  | download url path autoDel =>
    refine ⟨⟨fun url' e he => ?_, fun t task htask hearly => ?_, fun t hfresh => ?_⟩,
      nofun, fun _ _ hp => .inl hp,
      fun data hmem => absurd hmem List.not_mem_nil⟩
    · obtain ⟨task, htask, hspec⟩ := h.entry url' e he
      have hne : e.owner ≠ s.created := by
        intro heq
        exact absurd ((heq ▸ htask).symm.trans (h.fresh s.created (Nat.le_refl _))) nofun
      exact ⟨task, (Table.insert_of_ne _ _ hne).trans htask, hspec⟩
    · replace htask : s.tasks.insert s.created _ t = some task := htask
      rw [Table.insert_apply] at htask
      split at htask
      · cases htask
        rfl
      · exact h.early t task htask hearly
    · replace hfresh : s.created + 1 ≤ t := hfresh
      exact (Table.insert_of_ne _ _ (Nat.ne_of_gt hfresh)).trans
        (h.fresh t (Nat.le_of_succ_le hfresh))
  | cancel url =>
    refine ⟨?_, nofun, fun p creator hp => .inl ?_,
      fun data hmem => absurd hmem List.not_mem_nil⟩
    · show Inv (s.cancel url)
      unfold State.cancel
      cases hentry : s.entries url with
      | none => exact h
      | some e =>
        obtain ⟨task, htask, -⟩ := h.entry url e hentry
        dsimp only
        rw [htask]
        exact h.setTask htask rfl rfl rfl id
    · show (s.cancel url).files p = some creator
      unfold State.cancel
      split <;> exact hp
  | remove url =>
    exact ⟨h.removeEntry url, nofun, fun _ _ hp => .inl hp,
      fun data hmem => absurd hmem List.not_mem_nil⟩
  | get url =>
    refine ⟨h, nofun, fun _ _ hp => .inl hp,
      fun data hmem hdata => ?_⟩
    cases List.mem_singleton.mp hmem
    exact getDownloadData_eq h hdata

/-- **Every step is fine** in a run whose workers find what is their own. -/
theorem fine_of_own (existing : Path → Bool) {es : List (Event Url Path)}
    (h : (machine Url Path).Meets Own (start existing) es) :
    (machine Url Path).Meets Fine (start existing) es := by
  have hstart : Inv (start existing : State Url Path) := ⟨nofun, nofun, fun _ _ => rfl⟩
  intro p hp
  have hinv := h.inv_trace hstart (fun _ _ hown hinv => (next_spec hinv hown).1) p hp
  exact (next_spec hinv (h p hp)).2

/-- A download to the end, and its data. -/
theorem fine_whole : (machine ℕ ℕ).Meets Fine (start fun _ => false)
    ([.download 0 none false] ++ List.replicate 5 (.advance 0 .fin) ++
      [.advance 0 (.ok 2), .advance 0 (.ok 0), .advance 0 (.ok 0), .advance 0 (.chunk [1, 2]),
        .advance 0 .fin, .advance 0 .fin, .get 0]) :=
  fine_of_own _ (by decide +kernel)

/-- A download is removed and started again. Its worker removes the new entry. -/
theorem removes_restarted : ¬ (machine ℕ ℕ).Meets Fine (start fun _ => false)
    ([.download 0 none false] ++ List.replicate 5 (.advance 0 .fin) ++
      [.remove 0, .download 0 none false] ++ List.replicate 5 (.advance 1 .fin) ++
        [.advance 0 .cancel, .advance 0 .fin]) := by
  intro h
  have hfine := h _ ((machine ℕ ℕ).mem_trace_split (start fun _ => false)
    ([.download 0 none false] ++ List.replicate 5 (.advance 0 .fin) ++
      [.remove 0, .download 0 none false] ++ List.replicate 5 (.advance 1 .fin) ++
        [.advance 0 .cancel]) (.advance 0 .fin) [])
  have hkept := hfine.entries 0 .fin
    { url := 0, path := none, autoDel := false, phase := .ended false } rfl (by decide +kernel) rfl
    0 { owner := 1, path := none } (by decide +kernel) (by decide)
  exact absurd hkept (by decide +kernel)

end LibRustdesk.Downloader
