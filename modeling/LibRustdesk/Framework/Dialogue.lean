import LibRustdesk.Framework.Machine

/-!
# Dialogues of a deterministic party

A `Party` has a next message to send, or waits, and it receives what the other side sends whenever
that comes. Its dialogue is the list of these turns. What it sends depends on its dialogue so far
and on nothing else, so two of its dialogues can only part where the other side does something else.

* `Party.Follows` — from a state to a state by a dialogue; the state `none` is for a party that is
  over.
* `Dialogue.Same` — after the same turns two dialogues go on with the same message, if both go on
  with one, and one that has stopped is not behind the other one by a message.
* `Follows.same` — **two dialogues of one party are the same** in this sense.
* `follows_outputs` — the simulation rule: where each step of a machine puts out turns that the
  party follows, so does a run. A step that puts out nothing may leave the party where it is.
-/

namespace LibRustdesk

inductive Turn (Msg Req : Type*)
  | send (m : Msg)
  | receive (r : Req)
  deriving DecidableEq

/-- A party sends its next message, and is over when there is no next state. -/
structure Party (State Msg Req : Type*) where
  send : State → Option (Msg × Option State)
  receive : State → Req → Option State

variable {State Msg Req : Type*}

namespace Dialogue

/-- Two dialogues part only where the other side does something else. `stops₁` says that the first
one has stopped until the other side does something, and `stops₂` the same of the second one. -/
structure Same (stops₁ stops₂ : Prop) (xs ys : List (Turn Msg Req)) : Prop where
  next : ∀ past m m' xs' ys', xs = past ++ .send m :: xs' → ys = past ++ .send m' :: ys' → m = m'
  first : stops₁ → ∀ m rest, ys ≠ xs ++ .send m :: rest
  second : stops₂ → ∀ m rest, xs ≠ ys ++ .send m :: rest

/-- The last turn is a message that ends the dialogue. -/
def Finished (ends : Msg → Prop) (xs : List (Turn Msg Req)) : Prop :=
  ∃ past m, ends m ∧ xs = past ++ [.send m]

end Dialogue

namespace Party

open Dialogue

variable (P : Party State Msg Req)

inductive Follows : Option State → List (Turn Msg Req) → Option State → Prop
  | nil (q : Option State) : Follows q [] q
  | send {s m q turns q'} : P.send s = some (m, q) → Follows q turns q' →
      Follows (some s) (.send m :: turns) q'
  | receive {s r turns q'} : Follows (P.receive s r) turns q' →
      Follows (some s) (.receive r :: turns) q'

def Stops (q : Option State) : Prop := ∀ s, q = some s → P.send s = none

variable {P} {q q' q'' : Option State} {xs ys : List (Turn Msg Req)}

/-! ### Parts of a dialogue -/

theorem Follows.append (hxs : P.Follows q xs q') (hys : P.Follows q' ys q'') :
    P.Follows q (xs ++ ys) q'' := by
  induction hxs with
  | nil q => exact hys
  | send hsend _ ih => exact .send hsend (ih hys)
  | receive _ ih => exact .receive (ih hys)

theorem Follows.of_append (h : P.Follows q (xs ++ ys) q'') :
    ∃ q', P.Follows q xs q' ∧ P.Follows q' ys q'' := by
  induction xs generalizing q with
  | nil => exact ⟨q, .nil q, h⟩
  | cons x xs ih =>
    cases h with
    | send hsend hrest =>
      obtain ⟨q', hxs, hys⟩ := ih hrest
      exact ⟨q', .send hsend hxs, hys⟩
    | receive hrest =>
      obtain ⟨q', hxs, hys⟩ := ih hrest
      exact ⟨q', .receive hxs, hys⟩

theorem Follows.unique (h : P.Follows q xs q') (h' : P.Follows q xs q'') : q' = q'' := by
  induction h with
  | nil q =>
    cases h'
    rfl
  | send hsend _ ih =>
    cases h' with
    | send hsend' hrest =>
      rw [hsend] at hsend'
      cases hsend'
      exact ih hrest
  | receive _ ih =>
    cases h' with
    | receive hrest => exact ih hrest

theorem Follows.send_of_append {m : Msg} (h : P.Follows q (xs ++ .send m :: ys) q'') :
    ∃ s q', P.Follows q xs (some s) ∧ P.send s = some (m, q') ∧ P.Follows q' ys q'' := by
  obtain ⟨mid, hxs, hys⟩ := h.of_append
  cases hys with
  | send hsend hrest => exact ⟨_, _, hxs, hsend, hrest⟩

/-! ### Two dialogues -/

theorem Follows.not_send_of_stops (hxs : P.Follows q xs q') (hstops : P.Stops q') {m : Msg} :
    ¬ P.Follows q (xs ++ .send m :: ys) q'' := by
  intro h
  obtain ⟨s, next, hpast, hsend, -⟩ := h.send_of_append
  rw [hstops s (hxs.unique hpast)] at hsend
  cases hsend

theorem Follows.same {q₁ q₂ : Option State} (hxs : P.Follows q xs q₁) (hys : P.Follows q ys q₂)
    {stops₁ stops₂ : Prop} (hstops₁ : stops₁ → P.Stops q₁) (hstops₂ : stops₂ → P.Stops q₂) :
    Same stops₁ stops₂ xs ys where
  next past m m' xs' ys' hx hy := by
    subst hx
    subst hy
    -- the past brings both to the same state, and that decides the message
    obtain ⟨s, q, hpast, hsend, -⟩ := hxs.send_of_append
    obtain ⟨s', q', hpast', hsend', -⟩ := hys.send_of_append
    cases hpast.unique hpast'
    rw [hsend] at hsend'
    cases hsend'
    rfl
  first hstops m rest hy := by
    subst hy
    exact hxs.not_send_of_stops (hstops₁ hstops) hys
  second hstops m rest hx := by
    subst hx
    exact hys.not_send_of_stops (hstops₂ hstops) hxs

theorem Follows.stops_of_finished {ends : Msg → Prop}
    (hends : ∀ {s m q}, P.send s = some (m, q) → ends m → q = none) (h : P.Follows q xs q')
    (hfinished : Finished ends xs) : P.Stops q' := by
  obtain ⟨past, m, hm, rfl⟩ := hfinished
  obtain ⟨s, next, -, hsend, hrest⟩ := h.send_of_append
  cases hrest
  rw [hends hsend hm]
  exact nofun

theorem follows_outputs {S E : Type*} {M : Machine S E (Turn Msg Req)} {cond : S → E → Prop}
    {Rel : S → Option State → Prop} {s : S} {es : List E} (h : M.Meets cond s es) (h0 : Rel s q)
    (hstep : ∀ s e q, cond s e → Rel s q →
      ∃ q', P.Follows q (M.out s e) q' ∧ Rel (M.next s e) q') :
    ∃ q', P.Follows q (M.outputs s es) q' ∧ Rel (M.run s es) q' := by
  induction es generalizing s q with
  | nil => exact ⟨q, .nil q, h0⟩
  | cons e es ih =>
    obtain ⟨hc, hrest⟩ := Machine.meets_cons.mp h
    obtain ⟨q', hout, hnext⟩ := hstep s e q hc h0
    obtain ⟨q'', houtputs, hrun⟩ := ih hrest hnext
    exact ⟨q'', hout.append houtputs, hrun⟩

end Party

end LibRustdesk
