import LibRustdesk.Framework.Machine
import LibRustdesk.Framework.Table
import Mathlib.Data.Finset.Insert

/-!
# The cache of WebRTC sessions

`WebRTCStream::new` of `libs/hbb_common/src/webrtc.rs`. A call looks its key up in `SESSIONS`,
negotiates without the lock, and looks again before it inserts. A peer connection that is
disconnected, failed or closed takes the entry under its own key out.

* `State.call`, `State.finish` — the two ends of a call, `State.cleanUp` that of a connection.
* `Keeps`, `Shares` — the entry of a live connection stays, and a call returns the one that was
  returned for its key while it lives.
* `Own` — a clean-up finds no connection that lives under its key. It removes by key only, so
  the duplicate that a concurrent call closes takes the live session with it (`takes_winner`).
* `keeps_and_shares` — **every run of such clean-ups keeps and shares the sessions**.

A call that fails takes no further step. The connections are numbered as they are created.
-/

namespace LibRustdesk.WebRtc

structure State where
  /-- `SESSIONS`: the connection of the stream under a key. -/
  sessions : Table String ℕ := Table.empty
  created : ℕ := 0
  /-- The calls under way, by their connection: the key of the remote offer, if there is one. -/
  calls : Table ℕ (Option String) := Table.empty
  /-- What `get_key_for_peer` makes of the description, once it is set. -/
  keys : Table ℕ String := Table.empty
  ended : Finset ℕ := ∅
  /-- The state changes whose handler waits for the lock. -/
  closing : List ℕ := []
  returned : List (String × ℕ) := []

inductive Event
  | call (remote : Option String)
  | describe (pc : ℕ) (fingerprint : String)
  | finish (pc : ℕ)
  /-- To `Disconnected`, `Failed` or `Closed`. -/
  | stateChange (pc : ℕ)
  | cleanUp (pc : ℕ)

namespace State

variable (s : State)

def returns (key : String) (pc : ℕ) : State × List (String × ℕ) :=
  ({ s with returned := (key, pc) :: s.returned }, [(key, pc)])

def cached (key : String) : Option ℕ :=
  if key = "" then none else s.sessions key

/-- `new` up to its connection. -/
def call (remote : Option String) : State × List (String × ℕ) :=
  match s.cached (remote.getD "") with
  | some pc => s.returns (remote.getD "") pc
  | none => ({ s with created := s.created + 1, calls := s.calls.insert s.created remote }, [])

/-- The descriptions are set: the local offer has a key of its own. -/
def describe (pc : ℕ) (fingerprint : String) : State :=
  match s.calls pc with
  | some remote => { s with keys := s.keys.insert pc (remote.getD fingerprint) }
  | none => s

/-- `new` from its second look on. -/
def finish (pc : ℕ) : State × List (String × ℕ) :=
  match s.calls pc, s.keys pc with
  | some _, some key =>
    match s.sessions key with
    -- `pc.close()`, whose state change is a step of its own
    | some session => { s with calls := s.calls.remove pc }.returns key session
    | none =>
      { s with calls := s.calls.remove pc, sessions := s.sessions.insert key pc }.returns key pc
  | _, _ => (s, [])

/-- The handler has the lock. Without a key it removes the entries of its connection. -/
def cleanUp (pc : ℕ) : State :=
  if pc ∈ s.closing then
    { s with
      closing := s.closing.erase pc
      sessions :=
        match s.keys pc with
        | some key => s.sessions.remove key
        | none => s.sessions.retain fun _ session => session ≠ pc }
  else s

end State

def machine : Machine State Event (String × ℕ) where
  step s
    | .call remote => s.call remote
    | .describe pc fingerprint => (s.describe pc fingerprint, [])
    | .finish pc => s.finish pc
    | .stateChange pc =>
      (if pc < s.created then
        { s with ended := insert pc s.ended, closing := pc :: s.closing } else s, [])
    | .cleanUp pc => (s.cleanUp pc, [])

/-- The entry of a connection that has not ended stays. -/
def Keeps (s : State) (e : Event) : Prop :=
  ∀ key pc, s.sessions key = some pc → pc ∉ s.ended → (machine.next s e).sessions key = some pc

/-- What was returned for a key and lives is what is returned for it. -/
def Shares (s : State) (e : Event) : Prop :=
  ∀ key pc session, (key, pc) ∈ machine.out s e → (key, session) ∈ s.returned →
    session ∉ s.ended → pc = session

/-- Under the key of a clean-up there is nothing that lives. -/
def Own (s : State) : Event → Prop
  | .cleanUp pc => pc ∈ s.closing → ∀ key ∈ s.keys pc, ∀ session ∈ s.sessions key,
    session ∈ s.ended
  | _ => True

instance (s : State) : (e : Event) → Decidable (Own s e)
  | .cleanUp pc => inferInstanceAs (Decidable (pc ∈ s.closing → ∀ key ∈ s.keys pc,
    ∀ session ∈ s.sessions key, session ∈ s.ended))
  | .call _ | .describe _ _ | .finish _ | .stateChange _ => .isTrue trivial

/-! ### The invariant -/

structure Inv (s : State) : Prop where
  closing : ∀ pc ∈ s.closing, pc ∈ s.ended
  returned : ∀ key pc, (key, pc) ∈ s.returned → pc ∉ s.ended → s.sessions key = some pc

namespace Inv

variable {s : State}

theorem cached_eq_some {key : String} {pc : ℕ} (h : s.cached key = some pc) :
    s.sessions key = some pc := by
  unfold State.cached at h
  split at h
  · cases h
  · exact h

theorem returns (h : Inv s) {key : String} {pc : ℕ} (hstored : s.sessions key = some pc) :
    Inv (s.returns key pc).1 where
  closing := h.closing
  returned key' pc' hmem hlive := by
    rcases List.mem_cons.mp hmem with heq | hmem
    · cases heq
      exact hstored
    · exact h.returned key' pc' hmem hlive

theorem keeps_cleanUp (h : Inv s) {pc : ℕ} (hown : Own s (.cleanUp pc)) :
    Keeps s (.cleanUp pc) := by
  intro key session hstored hlive
  show (s.cleanUp pc).sessions key = some session
  unfold State.cleanUp
  split
  · next hclosing =>
    cases hkey : s.keys pc with
    | some own =>
      have hne : key ≠ own := by
        rintro rfl
        exact hlive (hown hclosing key hkey session hstored)
      exact (Table.remove_of_ne _ hne).trans hstored
    | none =>
      have hne : session ≠ pc := by
        rintro rfl
        exact hlive (h.closing session hclosing)
      show (s.sessions key).filter _ = _
      rw [hstored, Option.filter_some, if_pos (decide_eq_true hne)]
  · exact hstored

theorem keeps (h : Inv s) {e : Event} (hown : Own s e) : Keeps s e := by
  cases e with
  | call remote =>
    intro key pc hstored _
    show (s.call remote).1.sessions key = some pc
    unfold State.call
    split <;> exact hstored
  | describe pc fingerprint =>
    intro key session hstored _
    show (s.describe pc fingerprint).sessions key = some session
    unfold State.describe
    split <;> exact hstored
  | finish pc =>
    intro key session hstored _
    show (s.finish pc).1.sessions key = some session
    unfold State.finish
    split
    · next own _ _ =>
      split
      · exact hstored
      · next hnone =>
        have hne : key ≠ own := by
          rintro rfl
          rw [hnone] at hstored
          cases hstored
        exact (Table.insert_of_ne _ _ hne).trans hstored
    · exact hstored
  | stateChange pc =>
    intro key session hstored _
    show (if pc < s.created then _ else s : State).sessions key = some session
    split <;> exact hstored
  | cleanUp pc => exact h.keeps_cleanUp hown

theorem next (h : Inv s) {e : Event} (hown : Own s e) : Inv (machine.next s e) := by
  have hkeeps := h.keeps hown
  cases e with
  | call remote =>
    show Inv (s.call remote).1
    unfold State.call
    split
    · next hcached => exact h.returns (cached_eq_some hcached)
    · exact ⟨h.closing, h.returned⟩
  | describe pc fingerprint =>
    show Inv (s.describe pc fingerprint)
    unfold State.describe
    split
    · exact ⟨h.closing, h.returned⟩
    · exact h
  | finish pc =>
    show Inv (s.finish pc).1
    have hold : ∀ key pc', (key, pc') ∈ s.returned → pc' ∉ s.ended →
        (s.finish pc).1.sessions key = some pc' := fun key pc' hmem hlive =>
      hkeeps key pc' (h.returned key pc' hmem hlive) hlive
    revert hold
    unfold State.finish
    split
    · split
      · next hstored =>
        have hinv : Inv { s with calls := s.calls.remove pc } := ⟨h.closing, h.returned⟩
        exact fun _ => hinv.returns hstored
      · next own _ _ _ _ =>
        intro hold
        have hinv : Inv { s with
            calls := s.calls.remove pc, sessions := s.sessions.insert own pc } :=
          ⟨h.closing, hold⟩
        exact hinv.returns (Table.insert_self _ _ _)
    · exact fun _ => h
  | stateChange pc =>
    show Inv (if pc < s.created then _ else s)
    split
    · refine ⟨fun pc' hmem => ?_, fun key pc' hmem hlive => ?_⟩
      · rcases List.mem_cons.mp hmem with rfl | hmem
        · exact Finset.mem_insert_self _ _
        · exact Finset.mem_insert_of_mem (h.closing pc' hmem)
      · exact h.returned key pc' hmem fun hended => hlive (Finset.mem_insert_of_mem hended)
    · exact h
  | cleanUp pc =>
    have hold : ∀ key pc', (key, pc') ∈ s.returned → pc' ∉ s.ended →
        (s.cleanUp pc).sessions key = some pc' := fun key pc' hmem hlive =>
      hkeeps key pc' (h.returned key pc' hmem hlive) hlive
    show Inv (s.cleanUp pc)
    revert hold
    unfold State.cleanUp
    split
    · exact fun hold => ⟨fun pc' hmem => h.closing pc' (List.mem_of_mem_erase hmem), hold⟩
    · exact fun _ => h

theorem shares (h : Inv s) (e : Event) : Shares s e := by
  intro key pc session hout hreturned hlive
  have hstored := h.returned key session hreturned hlive
  cases e with
  | call remote =>
    replace hout : (key, pc) ∈ (s.call remote).2 := hout
    unfold State.call at hout
    split at hout
    · next hcached =>
      cases List.mem_singleton.mp hout
      exact Option.some.inj ((cached_eq_some hcached).symm.trans hstored)
    · cases hout
  | finish own =>
    replace hout : (key, pc) ∈ (s.finish own).2 := hout
    unfold State.finish at hout
    split at hout
    · split at hout
      · next hfound =>
        cases List.mem_singleton.mp hout
        exact Option.some.inj (hfound.symm.trans hstored)
      · next hnone =>
        cases List.mem_singleton.mp hout
        rw [hnone] at hstored
        cases hstored
    · cases hout
  | describe | stateChange | cleanUp => cases hout

end Inv

/-! ### Runs -/

/-- **The sessions are kept and shared** in every run whose clean-ups find nothing that lives. -/
theorem keeps_and_shares {es : List Event} (h : machine.Meets Own {} es) :
    machine.Meets (fun s e => Keeps s e ∧ Shares s e) {} es := by
  have hstart : Inv {} := ⟨fun _ hmem => absurd hmem List.not_mem_nil,
    fun _ _ hmem => absurd hmem List.not_mem_nil⟩
  intro p hp
  have hinv := h.inv_trace hstart (fun _ _ hown hinv => hinv.next hown) p hp
  exact ⟨hinv.keeps (h p hp), hinv.shares p.2⟩

theorem keeps_and_shares_again : machine.Meets (fun s e => Keeps s e ∧ Shares s e) {}
    [.call (some "a"), .describe 0 "", .finish 0, .call (some "a"), .stateChange 0, .cleanUp 0] :=
  keeps_and_shares (by decide +kernel)

/-- Two calls at a time. The connection of the second is closed and takes the session of the first
out. -/
theorem takes_winner : ¬ machine.Meets (fun s e => Keeps s e ∧ Shares s e) {}
    [.call (some "a"), .call (some "a"), .describe 0 "", .describe 1 "", .finish 0, .finish 1,
      .stateChange 1, .cleanUp 1] := by
  intro h
  have hkeeps := (h _ (machine.mem_trace_split {} [.call (some "a"), .call (some "a"),
    .describe 0 "", .describe 1 "", .finish 0, .finish 1, .stateChange 1] (.cleanUp 1) [])).1
  exact absurd (hkeeps "a" 0 (by decide +kernel) (by decide +kernel)) (by decide +kernel)

end LibRustdesk.WebRtc
