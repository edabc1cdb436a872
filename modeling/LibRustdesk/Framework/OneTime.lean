import LibRustdesk.Framework.Machine
import LibRustdesk.Framework.Table

/-!
# Secrets that are used once

A table of secrets, each issued under a key at some time and accepted under that key, once and while
it is not too old. What a machine does to such a table is described one step at a time (`Redeems`):
an entry is new only where the step issues it, and what the step accepts has been in the table and
is not any more. How the table is cleaned up does not matter.

* `OneTime.Redeems` — the contract of one step.
* `OneTime.Honoured` — **along the run nothing is accepted that has not been issued before, under
  the same key and not too long ago, and nothing more often than it has been issued.**
* `OneTime.honoured` — it is so when every step keeps the contract.
-/

namespace LibRustdesk.OneTime

variable {κ σ : Type}

/-- The secrets under their keys, each with the time at which it was issued. -/
abbrev Secrets (κ σ : Type) := Table κ (ℕ × σ)

def Usable (life : ℕ) (t : Secrets κ σ) (now : ℕ) (k : κ) (x : σ) : Prop :=
  ∃ i, t k = some (i, x) ∧ now - i < life

/-- What one step may do to the table `t`, with what it issues and what it accepts. -/
structure Redeems (life now : ℕ) (t t' : Secrets κ σ) (issued accepted : Option (κ × σ)) :
    Prop where
  /-- An entry has been there, or it has just been issued. -/
  origin : ∀ {k i x}, t' k = some (i, x) → t k = some (i, x) ∨ issued = some (k, x) ∧ i = now
  /-- What is accepted can be used. -/
  usable : ∀ {k x}, accepted = some (k, x) → Usable life t now k x
  /-- What is accepted is used up. -/
  used : ∀ {k x}, accepted = some (k, x) → t' k = none

section Steps

variable {life now : ℕ} {t t' : Secrets κ σ}

theorem Redeems.refl (life now : ℕ) (t : Secrets κ σ) : Redeems life now t t none none :=
  ⟨fun h => .inl h, fun h => absurd h (Option.some_ne_none _).symm,
    fun h => absurd h (Option.some_ne_none _).symm⟩

theorem Redeems.issue [DecidableEq κ] (hkept : ∀ {k v}, t' k = some v → t k = some v) (k : κ)
    (x : σ) : Redeems life now t (t'.insert k (now, x)) (some (k, x)) none := by
  refine ⟨fun {j i y} h => ?_, fun h => absurd h (Option.some_ne_none _).symm,
    fun h => absurd h (Option.some_ne_none _).symm⟩
  rw [Table.insert_apply] at h
  split at h
  · next hj =>
    obtain ⟨rfl, rfl⟩ := Prod.mk.inj (Option.some.inj h)
    rw [hj]
    exact .inr ⟨rfl, rfl⟩
  · exact .inl (hkept h)

end Steps

section Runs

variable {State Event Out : Type} (M : Machine State Event Out) (life : ℕ)
  (secrets : State → Secrets κ σ) (now : State → Event → ℕ) (issued : Event → Option (κ × σ))
  (accepted : State → Event → Option (κ × σ))

/-- Every secret is accepted under its key, in time, and as often as it has been issued. -/
structure Honoured [DecidableEq κ] [DecidableEq σ] (s : State) (es : List Event) : Prop where
  /-- What is accepted has been issued before, not too long ago. -/
  inTime : ∀ {pre e post k x}, es = pre ++ e :: post → accepted (M.run s pre) e = some (k, x) →
    ∃ pre₁ e₁ pre₂, pre = pre₁ ++ e₁ :: pre₂ ∧ issued e₁ = some (k, x) ∧
      now (M.run s pre) e - now (M.run s pre₁) e₁ < life
  /-- Each issue is good for one use. -/
  once : ∀ k x, (M.trace s es).countP (fun p => accepted p.1 p.2 = some (k, x)) ≤
    es.countP fun e => issued e = some (k, x)

variable {M life secrets now issued accepted}

theorem issued_of_secret {s : State} (hs : ∀ k, secrets s k = none)
    (hstep : ∀ s e, Redeems life (now s e) (secrets s) (secrets (M.next s e)) (issued e)
      (accepted s e)) (es : List Event) {k : κ} {i : ℕ} {x : σ}
    (h : secrets (M.run s es) k = some (i, x)) :
    ∃ pre₁ e₁ pre₂, es = pre₁ ++ e₁ :: pre₂ ∧ issued e₁ = some (k, x) ∧
      now (M.run s pre₁) e₁ = i := by
  -- the state along the run is the one its past leads to, and every entry has its issue there
  have hinv := M.inv_history
    (I := fun past s' => s' = M.run s past ∧ ∀ k i x, secrets s' k = some (i, x) →
      ∃ pre₁ e₁ pre₂, past = pre₁ ++ e₁ :: pre₂ ∧ issued e₁ = some (k, x) ∧
        now (M.run s pre₁) e₁ = i)
    ⟨rfl, fun k i x h => absurd ((hs k).symm.trans h) (Option.some_ne_none _).symm⟩
    (fun past s' e hI => ?_) es
  · exact hinv.2 k i x h
  · obtain ⟨rfl, hpast⟩ := hI
    refine ⟨(M.run_append s past [e]).symm, fun k i x h => ?_⟩
    rcases (hstep _ e).origin h with hold | ⟨hissued, rfl⟩
    · obtain ⟨pre₁, e₁, pre₂, rfl, hissue, htime⟩ := hpast k i x hold
      exact ⟨pre₁, e₁, pre₂ ++ [e], by simp, hissue, htime⟩
    · exact ⟨past, e, [], rfl, hissued, rfl⟩

section Count

variable [DecidableEq κ] [DecidableEq σ]

def held (t : Secrets κ σ) (k : κ) (x : σ) : ℕ :=
  if (t k).map Prod.snd = some x then 1 else 0

theorem Redeems.count {life now : ℕ} {t t' : Secrets κ σ} {iss acc : Option (κ × σ)}
    (h : Redeems life now t t' iss acc) (k : κ) (x : σ) :
    (if acc = some (k, x) then 1 else 0) + held t' k x ≤
      (if iss = some (k, x) then 1 else 0) + held t k x := by
  unfold held
  by_cases hacc : acc = some (k, x)
  · obtain ⟨i, hi, -⟩ := h.usable hacc
    rw [if_pos hacc, h.used hacc, hi]
    simp
  · rw [if_neg hacc]
    by_cases hheld : (t' k).map Prod.snd = some x
    · obtain ⟨⟨i, y⟩, hentry, rfl⟩ := Option.map_eq_some_iff.mp hheld
      rcases h.origin hentry with hold | ⟨hissued, -⟩
      · rw [hold, hentry]
        simp
      · rw [if_pos hissued, if_pos hheld]
        omega
    · rw [if_neg hheld]
      exact Nat.zero_le _

theorem countP_accepted_le
    (hstep : ∀ s e, Redeems life (now s e) (secrets s) (secrets (M.next s e)) (issued e)
      (accepted s e)) (s : State) (es : List Event) (k : κ) (x : σ) :
    (M.trace s es).countP (fun p => accepted p.1 p.2 = some (k, x)) ≤
      (es.countP fun e => issued e = some (k, x)) + held (secrets s) k x := by
  induction es generalizing s with
  | nil => exact Nat.zero_le _
  | cons e es ih =>
    have hcount := (hstep s e).count k x
    have hih := ih (M.next s e)
    rw [Machine.trace_cons, List.countP_cons, List.countP_cons]
    simp only [decide_eq_true_eq] at *
    omega

theorem honoured {s : State} (hs : ∀ k, secrets s k = none)
    (hstep : ∀ s e, Redeems life (now s e) (secrets s) (secrets (M.next s e)) (issued e)
      (accepted s e)) (es : List Event) : Honoured M life now issued accepted s es where
  inTime := by
    rintro pre e post k x - hacc
    obtain ⟨i, hi, hlife⟩ := (hstep _ e).usable hacc
    obtain ⟨pre₁, e₁, pre₂, hpre, hissued, htime⟩ := issued_of_secret hs hstep pre hi
    exact ⟨pre₁, e₁, pre₂, hpre, hissued, by rw [htime]; exact hlife⟩
  once := by
    intro k x
    have hle := countP_accepted_le hstep s es k x
    have hnone : held (secrets s) k x = 0 := by
      unfold held
      rw [hs k]
      rfl
    rw [hnone] at hle
    exact hle

end Count

end Runs

end LibRustdesk.OneTime
