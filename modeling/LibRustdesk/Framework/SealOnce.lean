import Mathlib.Data.Bool.Basic

/-!
# Values that are sealed once

A value is kept sealed and read back by two functions that leave alone what is not theirs: the one
that seals returns what already has the form of a sealed value, and the one that opens returns what
it cannot open. So a value that merely looks sealed is never sealed, and whether the two agree on
every value is a question about each of the forms that a value can have.

* `SealOnce.Lawful` states one equation for each form. A value that looks sealed stays; one that is
  too long is dropped; the empty one stays; any other one is sealed, and is opened again.
* `Lawful.roundTrips` — what fits, and is not opened as it is, comes back.
* `Lawful.stable` — sealing is idempotent, and what was sealed does not ask to be sealed. So the
  program that seals again what it was asked to leaves its file alone from then on.
* `Exact.comesBack_iff` — where opening always changes a value, and opens only what looks sealed,
  what fits is not only enough: **which values come back**. `Exact.comesBack_keep_iff` is the same
  for a program that leaves a sealed value in its place while it opens to what is to be stored.

What is drawn for a sealing (`Nonce`) is arbitrary each time.
-/

namespace LibRustdesk

structure SealOnce (Nonce α : Type*) where
  empty : α
  /-- Whether a value has the form of a sealed one. -/
  looksSealed : α → Bool
  /-- Whether a value is short enough to be sealed. -/
  fits : α → Bool
  encrypt : Nonce → α → α
  /-- The value, whether it was opened, and whether it should be sealed again. -/
  decrypt : α → α × Bool × Bool

namespace SealOnce

variable {Nonce α : Type*}

/-- What the two functions do with each form of a value. -/
structure Lawful [DecidableEq α] (C : SealOnce Nonce α) : Prop where
  encrypt_looksSealed : ∀ n x, C.looksSealed x = true → C.encrypt n x = x
  encrypt_long : ∀ n x, C.looksSealed x = false → C.fits x = false → C.encrypt n x = C.empty
  encrypt_empty : ∀ n, C.encrypt n C.empty = C.empty
  looksSealed_encrypt : ∀ n x, C.looksSealed x = false → C.fits x = true → x ≠ C.empty →
    C.looksSealed (C.encrypt n x) = true
  decrypt_encrypt : ∀ n x, C.looksSealed x = false → C.fits x = true → x ≠ C.empty →
    C.decrypt (C.encrypt n x) = (x, true, false)
  decrypt_opened : ∀ x, (C.decrypt x).2.1 = true → (C.decrypt x).2.2 = false
  decrypt_failed : ∀ x, (C.decrypt x).2.1 = false →
    C.decrypt x = (x, false, decide (x ≠ C.empty) && !C.looksSealed x)

/-- A value comes back, and was opened just if it was sealed for it. -/
structure RoundTrips (C : SealOnce Nonce α) (x : α) : Prop where
  value : ∀ n, (C.decrypt (C.encrypt n x)).1 = x
  opened : ∀ n, (C.decrypt (C.encrypt n x)).2.1 = true ↔ x ≠ C.empty ∧ C.looksSealed x = false

/-- What a program leaves stored that seals again when it was told to. -/
def reload (C : SealOnce Nonce α) (n : Nonce) (stored : α) : α :=
  if (C.decrypt stored).2.2 then C.encrypt n (C.decrypt stored).1 else stored

structure Stable (C : SealOnce Nonce α) : Prop where
  encrypt_encrypt : ∀ n n' x, C.encrypt n' (C.encrypt n x) = C.encrypt n x
  not_store : ∀ n x, (C.decrypt (C.encrypt n x)).2.2 = false
  reload_reload : ∀ n n' stored, C.reload n' (C.reload n stored) = C.reload n stored

namespace Lawful

variable [DecidableEq α] {C : SealOnce Nonce α} (h : C.Lawful)

include h

theorem encrypt_form (n : Nonce) (x : α) :
    C.looksSealed (C.encrypt n x) = true ∨ C.encrypt n x = C.empty := by
  cases hlooks : C.looksSealed x with
  | true =>
    refine Or.inl ?_
    rw [h.encrypt_looksSealed n x hlooks]
    exact hlooks
  | false =>
    cases hfits : C.fits x with
    | false => exact Or.inr (h.encrypt_long n x hlooks hfits)
    | true =>
      by_cases hempty : x = C.empty
      · rw [hempty]
        exact Or.inr (h.encrypt_empty n)
      · exact Or.inl (h.looksSealed_encrypt n x hlooks hfits hempty)

theorem not_store_of_form {x : α} (hform : C.looksSealed x = true ∨ x = C.empty) :
    (C.decrypt x).2.2 = false := by
  cases hopened : (C.decrypt x).2.1 with
  | true => exact h.decrypt_opened x hopened
  | false =>
    rw [h.decrypt_failed x hopened]
    rcases hform with hlooks | rfl
    · rw [hlooks, Bool.not_true, Bool.and_false]
    · rw [decide_eq_false (not_not.mpr rfl), Bool.false_and]

/-- **What fits comes back.** A value that looks sealed is left as it is by both functions, so it
must not be one that opens. -/
theorem roundTrips {x : α} (hfits : C.fits x = true) (hopens : (C.decrypt x).2.1 = false) :
    C.RoundTrips x := by
  have hsame := h.decrypt_failed x hopens
  -- What was left as it is comes back, and was not opened.
  have hleft (n : Nonce) (hstays : C.encrypt n x = x) :
      (C.decrypt (C.encrypt n x)).1 = x ∧ (C.decrypt (C.encrypt n x)).2.1 = false := by
    rw [hstays]
    exact ⟨congrArg Prod.fst hsame, hopens⟩
  cases hlooks : C.looksSealed x with
  | true =>
    have hstays (n : Nonce) := hleft n (h.encrypt_looksSealed n x hlooks)
    constructor
    · intro n
      exact (hstays n).1
    · intro n
      rw [(hstays n).2, hlooks]
      exact ⟨fun hfalse => absurd hfalse Bool.false_ne_true,
        fun hboth => absurd hboth.2.symm Bool.false_ne_true⟩
  | false =>
    by_cases hempty : x = C.empty
    · have hstays (n : Nonce) := hleft n (by rw [hempty]; exact h.encrypt_empty n)
      constructor
      · intro n
        exact (hstays n).1
      · intro n
        rw [(hstays n).2]
        exact ⟨fun hfalse => absurd hfalse Bool.false_ne_true, fun hboth => absurd hempty hboth.1⟩
    · constructor
      · intro n
        rw [h.decrypt_encrypt n x hlooks hfits hempty]
      · intro n
        rw [h.decrypt_encrypt n x hlooks hfits hempty]
        exact ⟨fun _ => ⟨hempty, hlooks⟩, fun _ => rfl⟩

theorem not_store (n : Nonce) (x : α) : (C.decrypt (C.encrypt n x)).2.2 = false :=
  h.not_store_of_form (h.encrypt_form n x)

theorem stable : C.Stable where
  encrypt_encrypt n n' x := by
    rcases h.encrypt_form n x with hlooks | hempty
    · exact h.encrypt_looksSealed n' _ hlooks
    · rw [hempty]
      exact h.encrypt_empty n'
  not_store := h.not_store
  reload_reload n n' stored := by
    -- After one round the file holds what does not ask to be sealed.
    have hsettled : (C.decrypt (C.reload n stored)).2.2 = false := by
      cases hstore : (C.decrypt stored).2.2 with
      | true =>
        have hsealed : C.reload n stored = C.encrypt n (C.decrypt stored).1 := if_pos hstore
        rw [hsealed]
        exact h.not_store n _
      | false =>
        have hstays : C.reload n stored = stored :=
          if_neg (by rw [hstore]; exact Bool.false_ne_true)
        rw [hstays]
        exact hstore
    exact if_neg (by rw [hsettled]; exact Bool.false_ne_true)

end Lawful

/-! ### Which values come back -/

/-- What opens looks sealed, and is not what it opens to. -/
structure Exact [DecidableEq α] (C : SealOnce Nonce α) : Prop extends C.Lawful where
  fits_empty : C.fits C.empty = true
  looksSealed_empty : C.looksSealed C.empty = false
  looksSealed_of_opened : ∀ x, (C.decrypt x).2.1 = true → C.looksSealed x = true
  ne_of_opened : ∀ x, (C.decrypt x).2.1 = true → (C.decrypt x).1 ≠ x

def OpensTo (C : SealOnce Nonce α) (stored x : α) : Prop :=
  (C.decrypt stored).2.1 = true ∧ (C.decrypt stored).1 = x

/-- Nothing opens the value, and it is short enough or has the form of a sealed one. -/
def Storable (C : SealOnce Nonce α) (x : α) : Prop :=
  (C.decrypt x).2.1 = false ∧ (C.looksSealed x = true ∨ C.fits x = true)

/-- What a program stores that leaves a sealed value in its place. -/
def keep [DecidableEq α] (C : SealOnce Nonce α) (n : Nonce) (x stored : α) : α :=
  if (C.decrypt stored).2.1 && (C.decrypt stored).1 = x then stored else C.encrypt n x

namespace Exact

variable [DecidableEq α] {C : SealOnce Nonce α} (h : C.Exact)

include h

theorem decrypt_empty : C.decrypt C.empty = (C.empty, false, false) := by
  have hclosed : (C.decrypt C.empty).2.1 = false := by
    rw [Bool.eq_false_iff]
    intro hopened
    have hlooks := h.looksSealed_of_opened _ hopened
    rw [h.looksSealed_empty] at hlooks
    exact Bool.false_ne_true hlooks
  rw [h.decrypt_failed _ hclosed, decide_eq_false (not_not.mpr rfl), Bool.false_and]

theorem comesBack_iff (n : Nonce) (x : α) : (C.decrypt (C.encrypt n x)).1 = x ↔ C.Storable x := by
  constructor
  · intro hback
    have hclosed : (C.decrypt x).2.1 = false := by
      rw [Bool.eq_false_iff]
      intro hopened
      -- It looks sealed, so it was left as it is, and was opened to something else.
      rw [h.encrypt_looksSealed n x (h.looksSealed_of_opened x hopened)] at hback
      exact h.ne_of_opened x hopened hback
    refine ⟨hclosed, ?_⟩
    by_contra hlost
    rw [not_or, Bool.not_eq_true, Bool.not_eq_true] at hlost
    rw [h.encrypt_long n x hlost.1 hlost.2, h.decrypt_empty] at hback
    have hfits := h.fits_empty
    rw [show C.empty = x from hback, hlost.2] at hfits
    exact Bool.false_ne_true hfits
  · rintro ⟨hclosed, hlooks | hfits⟩
    · rw [h.encrypt_looksSealed n x hlooks, h.decrypt_failed x hclosed]
    · exact (h.roundTrips hfits hclosed).value n

omit h in
theorem keep_of_opensTo {n : Nonce} {x stored : α} (hopens : C.OpensTo stored x) :
    C.keep n x stored = stored := by
  unfold keep
  rw [hopens.1, decide_eq_true hopens.2]
  rfl

omit h in
theorem keep_of_not_opensTo {n : Nonce} {x stored : α} (hopens : ¬ C.OpensTo stored x) :
    C.keep n x stored = C.encrypt n x := by
  unfold keep
  rw [if_neg]
  intro hboth
  rw [Bool.and_eq_true, decide_eq_true_iff] at hboth
  exact hopens hboth

theorem comesBack_keep_iff (n : Nonce) (x stored : α) :
    (C.decrypt (C.keep n x stored)).1 = x ↔ C.OpensTo stored x ∨ C.Storable x := by
  by_cases hopens : C.OpensTo stored x
  · rw [keep_of_opensTo hopens]
    exact ⟨fun _ => .inl hopens, fun _ => hopens.2⟩
  · rw [keep_of_not_opensTo hopens, h.comesBack_iff n x]
    exact ⟨.inr, fun hor => hor.resolve_left hopens⟩

theorem opensTo_keep_iff (n : Nonce) (x stored : α) :
    C.OpensTo (C.keep n x stored) x ↔
      C.OpensTo stored x ∨ (x ≠ C.empty ∧ C.looksSealed x = false ∧ C.fits x = true) := by
  by_cases hopens : C.OpensTo stored x
  · rw [keep_of_opensTo hopens]
    exact ⟨fun _ => .inl hopens, fun _ => hopens⟩
  · rw [keep_of_not_opensTo hopens]
    constructor
    · rintro ⟨hopened, hback⟩
      obtain ⟨hclosed, hlooks⟩ := (h.comesBack_iff n x).mp hback
      have hnot : C.looksSealed x = false := by
        rw [Bool.eq_false_iff]
        intro hlooks
        rw [h.encrypt_looksSealed n x hlooks, hclosed] at hopened
        exact Bool.false_ne_true hopened
      have hfits := hlooks.resolve_left (Bool.eq_false_iff.mp hnot)
      exact .inr ⟨((h.roundTrips hfits hclosed).opened n).mp hopened |>.1, hnot, hfits⟩
    · rintro (hstored | ⟨hne, hlooks, hfits⟩)
      · exact absurd hstored hopens
      · rw [OpensTo, h.decrypt_encrypt n x hlooks hfits hne]
        exact ⟨rfl, rfl⟩

theorem opened_keep_iff {n : Nonce} {x stored : α} (hother : ¬ C.OpensTo (C.keep n x stored) x) :
    (C.decrypt (C.keep n x stored)).2.1 = true ↔ (C.decrypt x).2.1 = true := by
  have hstored : ¬ C.OpensTo stored x := by
    intro hopens
    rw [keep_of_opensTo hopens] at hother
    exact hother hopens
  rw [keep_of_not_opensTo hstored] at hother ⊢
  constructor
  · intro hopened
    by_contra hclosed
    have hlost : ¬ C.Storable x := by
      intro hstorable
      exact hother ⟨hopened, (h.comesBack_iff n x).mpr hstorable⟩
    rw [Storable, not_and_or, not_or, Bool.not_eq_true, Bool.not_eq_true] at hlost
    obtain ⟨hlooks, hfits⟩ := hlost.resolve_left (not_not.mpr (Bool.eq_false_iff.mpr hclosed))
    rw [h.encrypt_long n x hlooks hfits, h.decrypt_empty] at hopened
    exact Bool.false_ne_true hopened
  · intro hopened
    rw [h.encrypt_looksSealed n x (h.looksSealed_of_opened x hopened)]
    exact hopened

end Exact

end SealOnce

end LibRustdesk
