import LibRustdesk.Framework.Table
import Mathlib.Data.List.Nodup

/-!
# Things in custody

Numbered things are issued one after the other, each into a place, move from place to place and are
done with at some time. A place has room for one, and one that is put into a place drives out
another that is there.

* `Custody.Sound` — nothing is in two places or done with twice, or both.
* `Custody.Kept` — whatever has been issued is in some place or is done with.
* `Sound.kept_issue_iff`, `Sound.kept_move_iff`, `Sound.kept_drop_iff` — **what a step loses**: from
  a custody that has lost nothing, each step keeps everything exactly when it puts nothing where
  something else is, and takes nothing away.
-/

namespace LibRustdesk

/-- What is in each place, how many have been issued, and those that are done with. -/
@[ext] structure Custody (π : Type*) where
  held : Table π ℕ
  issued : ℕ
  done : List ℕ

namespace Custody

variable {π : Type*}

/-- Nothing is in two places, or done with twice, or both. -/
structure Sound (c : Custody π) : Prop where
  inj : ∀ {p q n}, c.held p = some n → c.held q = some n → p = q
  lt : ∀ {p n}, c.held p = some n → n < c.issued
  done_lt : ∀ {n}, n ∈ c.done → n < c.issued
  nodup : c.done.Nodup
  disjoint : ∀ {p n}, c.held p = some n → n ∉ c.done

/-- Whatever has been issued is in some place or is done with. -/
def Kept (c : Custody π) : Prop := ∀ n < c.issued, (∃ p, c.held p = some n) ∨ n ∈ c.done

theorem Sound.held_ne_issued {c : Custody π} (h : c.Sound) (p : π) : c.held p ≠ some c.issued :=
  fun hp => Nat.lt_irrefl _ (h.lt hp)

variable [DecidableEq π]

def issue (p : π) (c : Custody π) : Custody π :=
  { c with held := c.held.insert p c.issued, issued := c.issued + 1 }

/-- The one in `p` goes to `q`. -/
def move (p q : π) (c : Custody π) : Custody π :=
  match c.held p with
  | none => c
  | some n => { c with held := (c.held.remove p).insert q n }

/-- The one in `p` is not there any more. -/
def drop (p : π) (c : Custody π) : Custody π := { c with held := c.held.remove p }

/-- The one in `p` is done with. -/
def finish (p : π) (c : Custody π) : Custody π :=
  match c.held p with
  | none => c
  | some n => { c with held := c.held.remove p, done := c.done ++ [n] }

variable {c : Custody π} {p q : π} {n : ℕ}

theorem held_issue (r : π) :
    (c.issue p).held r = if r = p then some c.issued else c.held r := Table.insert_apply _ _ _ r

theorem move_eq (hp : c.held p = some n) :
    c.move p q = { c with held := (c.held.remove p).insert q n } := by
  unfold move
  rw [hp]

theorem held_move (hp : c.held p = some n) (r : π) :
    (c.move p q).held r = if r = q then some n else if r = p then none else c.held r := by
  rw [move_eq hp]
  change (c.held.remove p).insert q n r = _
  rw [Table.insert_apply, Table.remove_apply]

theorem held_drop (r : π) : (c.drop p).held r = if r = p then none else c.held r :=
  Table.remove_apply _ _ r

theorem finish_eq (hp : c.held p = some n) :
    c.finish p = { c with held := c.held.remove p, done := c.done ++ [n] } := by
  unfold finish
  rw [hp]

/-! ### What a step keeps sound -/

namespace Sound

theorem issue (h : c.Sound) (p : π) : (c.issue p).Sound where
  inj {q r m} hq hr := by
    rw [held_issue] at hq hr
    split at hq
    · next hqp =>
      obtain rfl := Option.some.inj hq
      split at hr
      · next hrp => rw [hqp, hrp]
      · exact absurd hr (h.held_ne_issued r)
    · split at hr
      · obtain rfl := Option.some.inj hr
        exact absurd hq (h.held_ne_issued q)
      · exact h.inj hq hr
  lt {q m} hq := by
    rw [held_issue] at hq
    split at hq
    · obtain rfl := Option.some.inj hq
      exact Nat.lt_succ_self _
    · exact Nat.lt_succ_of_lt (h.lt hq)
  done_lt hm := Nat.lt_succ_of_lt (h.done_lt hm)
  nodup := h.nodup
  disjoint {q m} hq hm := by
    rw [held_issue] at hq
    split at hq
    · obtain rfl := Option.some.inj hq
      exact Nat.lt_irrefl _ (h.done_lt hm)
    · exact h.disjoint hq hm

theorem drop (h : c.Sound) (p : π) : (c.drop p).Sound := by
  have hheld : ∀ {q m}, (c.drop p).held q = some m → c.held q = some m := by
    intro q m hq
    rw [held_drop] at hq
    split at hq
    · exact absurd hq (Option.some_ne_none m).symm
    · exact hq
  exact ⟨fun hq hr => h.inj (hheld hq) (hheld hr), fun hq => h.lt (hheld hq), h.done_lt, h.nodup,
    fun hq => h.disjoint (hheld hq)⟩

theorem move (h : c.Sound) (p q : π) : (c.move p q).Sound := by
  cases hp : c.held p with
  | none =>
    unfold Custody.move
    rw [hp]
    exact h
  | some n =>
    -- it is in `q`, or it has been where it is and is not the one that moves
    have hheld : ∀ {r m}, (c.move p q).held r = some m →
        (r = q ∧ m = n) ∨ (m ≠ n ∧ c.held r = some m) := by
      intro r m hr
      rw [held_move hp] at hr
      split at hr
      · next hrq => exact .inl ⟨hrq, (Option.some.inj hr).symm⟩
      · split at hr
        · exact absurd hr (Option.some_ne_none m).symm
        · next hrp =>
          refine .inr ⟨fun hm => hrp ?_, hr⟩
          subst hm
          exact h.inj hr hp
    have hwas : ∀ {r m}, (c.move p q).held r = some m → ∃ r', c.held r' = some m := by
      intro r m hr
      rcases hheld hr with ⟨-, rfl⟩ | ⟨-, hr⟩
      · exact ⟨p, hp⟩
      · exact ⟨r, hr⟩
    have hrest : (c.move p q).issued = c.issued ∧ (c.move p q).done = c.done := by
      rw [move_eq hp]
      exact ⟨rfl, rfl⟩
    refine ⟨fun {r r' m} hr hr' => ?_, fun hr => ?_, fun hm => ?_, ?_, fun hr hm => ?_⟩
    · rcases hheld hr with ⟨rfl, rfl⟩ | ⟨hne, hr⟩
      · rcases hheld hr' with ⟨rfl, -⟩ | ⟨hne, -⟩
        · rfl
        · exact absurd rfl hne
      · rcases hheld hr' with ⟨-, rfl⟩ | ⟨-, hr'⟩
        · exact absurd rfl hne
        · exact h.inj hr hr'
    · obtain ⟨r', hr'⟩ := hwas hr
      rw [hrest.1]
      exact h.lt hr'
    · rw [hrest.2] at hm
      rw [hrest.1]
      exact h.done_lt hm
    · rw [hrest.2]
      exact h.nodup
    · obtain ⟨r', hr'⟩ := hwas hr
      rw [hrest.2] at hm
      exact h.disjoint hr' hm

theorem finish (h : c.Sound) (p : π) : (c.finish p).Sound := by
  cases hp : c.held p with
  | none =>
    unfold Custody.finish
    rw [hp]
    exact h
  | some n =>
    have hdrop := h.drop p
    rw [finish_eq hp]
    refine ⟨hdrop.inj, hdrop.lt, fun hm => ?_, ?_, fun {q m} hq hm => ?_⟩
    · rcases List.mem_append.mp hm with hm | hm
      · exact h.done_lt hm
      · obtain rfl := List.mem_singleton.mp hm
        exact h.lt hp
    · exact List.nodup_append.mpr ⟨h.nodup, List.nodup_singleton n, fun a ha b hb hab =>
        h.disjoint hp (by rw [← List.mem_singleton.mp hb, ← hab]; exact ha)⟩
    · rcases List.mem_append.mp hm with hm | hm
      · exact hdrop.disjoint hq hm
      · obtain rfl := List.mem_singleton.mp hm
        change (c.drop p).held q = some m at hq
        rw [held_drop] at hq
        split at hq
        · exact absurd hq (Option.some_ne_none m).symm
        · next hqp => exact hqp (h.inj hq hp)

/-! ### What a step loses -/

theorem kept_issue_iff (h : c.Sound) (hkept : c.Kept) (p : π) :
    (c.issue p).Kept ↔ c.held p = none := by
  constructor
  · intro hnext
    rw [Option.eq_none_iff_forall_ne_some]
    intro m hm
    rcases hnext m (Nat.lt_succ_of_lt (h.lt hm)) with ⟨q, hq⟩ | hdone
    · rw [held_issue] at hq
      split at hq
      · exact h.held_ne_issued p (hm.trans hq.symm)
      · next hqp => exact hqp (h.inj hq hm)
    · exact h.disjoint hm hdone
  · intro hnone m hm
    rcases Nat.lt_or_eq_of_le (Nat.lt_succ_iff.mp hm) with hlt | rfl
    · refine (hkept m hlt).imp_left fun ⟨q, hq⟩ => ⟨q, ?_⟩
      have hqp : q ≠ p := by
        rintro rfl
        exact absurd (hq.symm.trans hnone) (Option.some_ne_none m)
      rw [held_issue, if_neg hqp, hq]
    · exact .inl ⟨p, by rw [held_issue, if_pos rfl]⟩

theorem kept_move_iff (h : c.Sound) (hkept : c.Kept) (hp : c.held p = some n) (hqp : q ≠ p) :
    (c.move p q).Kept ↔ c.held q = none := by
  have hrest : (c.move p q).issued = c.issued ∧ (c.move p q).done = c.done := by
    rw [move_eq hp]
    exact ⟨rfl, rfl⟩
  unfold Kept
  rw [hrest.1, hrest.2]
  constructor
  · intro hnext
    rw [Option.eq_none_iff_forall_ne_some]
    intro m hm
    rcases hnext m (h.lt hm) with ⟨r, hr⟩ | hdone
    · rw [held_move hp] at hr
      split at hr
      · rw [Option.some.inj hr] at hp
        exact hqp (h.inj hm hp)
      · next hrq =>
        split at hr
        · exact absurd hr (Option.some_ne_none m).symm
        · exact hrq (h.inj hr hm)
    · exact h.disjoint hm hdone
  · intro hnone m hm
    refine (hkept m hm).imp_left fun ⟨r, hr⟩ => ?_
    by_cases hrp : r = p
    · -- it is the one that moves
      subst hrp
      rw [hr] at hp
      exact ⟨q, by rw [held_move hr, if_pos rfl]⟩
    · have hrq : r ≠ q := by
        rintro rfl
        exact absurd (hr.symm.trans hnone) (Option.some_ne_none m)
      exact ⟨r, by rw [held_move hp, if_neg hrq, if_neg hrp, hr]⟩

theorem kept_drop_iff (h : c.Sound) (hkept : c.Kept) (p : π) :
    (c.drop p).Kept ↔ c.held p = none := by
  constructor
  · intro hnext
    rw [Option.eq_none_iff_forall_ne_some]
    intro m hm
    rcases hnext m (h.lt hm) with ⟨r, hr⟩ | hdone
    · rw [held_drop] at hr
      split at hr
      · exact absurd hr (Option.some_ne_none m).symm
      · next hrp => exact hrp (h.inj hr hm)
    · exact h.disjoint hm hdone
  · intro hnone m hm
    refine (hkept m hm).imp_left fun ⟨r, hr⟩ => ⟨r, ?_⟩
    have hrp : r ≠ p := by
      rintro rfl
      exact absurd (hr.symm.trans hnone) (Option.some_ne_none m)
    rw [held_drop, if_neg hrp, hr]

end Sound

theorem Kept.finish (hkept : c.Kept) (p : π) : (c.finish p).Kept := by
  cases hp : c.held p with
  | none =>
    unfold Custody.finish
    rw [hp]
    exact hkept
  | some n =>
    rw [finish_eq hp]
    intro m hm
    rcases hkept m hm with ⟨r, hr⟩ | hdone
    · by_cases hrp : r = p
      · subst hrp
        rw [hr] at hp
        exact .inr (List.mem_append_right _ (List.mem_singleton.mpr (Option.some.inj hp)))
      · exact .inl ⟨r, by rw [← hr]; exact (Table.remove_apply _ _ r).trans (if_neg hrp)⟩
    · exact .inr (List.mem_append_left _ hdone)

end Custody

end LibRustdesk
