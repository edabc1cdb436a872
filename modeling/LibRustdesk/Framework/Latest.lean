import Mathlib.Data.List.Nodup
import Mathlib.Order.MinMax

/-!
# The latest of a sequence of labelled values

A `Slot` holds the latest of the values that are put into it, until it is cleared. Readers do not
get the values themselves: they are told of the one in the slot, and ask for it later by its label,
or for one whose label is beyond all that they were told of. Between the two calls the slot may
be cleared and filled again.

* `Slot.Fresh` — the label of a value is beyond those of all values before it, also of those
  that were cleared since.
* `Slot.Ordered` — what holds of a slot where every value was fresh when it was put.
* `Slot.Ordered.eq_of_label_eq` — **a label names one value** then.
* `Slot.Ordered.seen_lt` — **a value that a reader was not told of is beyond all that it has seen**.

The values that were ever put and what the readers were told are kept beside the slot for the
statements; no operation looks at them.
-/

namespace LibRustdesk

variable {V Reader L : Type*}

/-- A slot, with the values that were put into it, newest first, and what the readers know. -/
structure Slot (V Reader : Type*) where
  current : Option V
  past : List V
  told : List (Reader × V)

namespace Slot

def empty : Slot V Reader := ⟨none, [], []⟩

def put (s : Slot V Reader) (v : V) : Slot V Reader :=
  { s with current := some v, past := v :: s.past }

def clear (s : Slot V Reader) : Slot V Reader := { s with current := none }

def tell (s : Slot V Reader) (reader : Reader) (v : V) : Slot V Reader :=
  { s with told := (reader, v) :: s.told }

/-- A reader is told of the value in the slot, if there is one. -/
def tellCurrent (s : Slot V Reader) (reader : Reader) : Slot V Reader :=
  match s.current with
  | some v => s.tell reader v
  | none => s

variable [LinearOrder L] (label : V → L) (floor : L)

/-- The largest label that a reader has seen; `floor` before the first. -/
def seen [DecidableEq Reader] (s : Slot V Reader) (reader : Reader) : L :=
  s.told.foldr (fun p m => if p.1 = reader then max (label p.2) m else m) floor

/-- The label of the value is beyond those of all values before it. -/
def Fresh (s : Slot V Reader) (v : V) : Prop :=
  floor < label v ∧ ∀ u ∈ s.past, label u < label v

/-- The labels grew from one value to the next, and the slot holds the last of them or none. -/
structure Ordered (s : Slot V Reader) : Prop where
  above : ∀ v ∈ s.past, floor < label v
  grew : s.past.Pairwise fun v u => label u < label v
  last : ∀ v, s.current = some v → s.past.head? = some v
  told : ∀ p ∈ s.told, p.2 ∈ s.past

/-! ### What keeps the order -/

variable {label floor} {s : Slot V Reader}

theorem ordered_empty : (empty : Slot V Reader).Ordered label floor where
  above _ hv := absurd hv List.not_mem_nil
  grew := List.Pairwise.nil
  last _ hv := nomatch hv
  told _ hp := absurd hp List.not_mem_nil

theorem Ordered.put (h : s.Ordered label floor) {v : V} (hv : s.Fresh label floor v) :
    (s.put v).Ordered label floor where
  above := List.forall_mem_cons.mpr ⟨hv.1, h.above⟩
  grew := List.pairwise_cons.mpr ⟨hv.2, h.grew⟩
  last _ hu := hu
  told p hp := List.mem_cons_of_mem v (h.told p hp)

theorem Ordered.clear (h : s.Ordered label floor) : s.clear.Ordered label floor where
  above := h.above
  grew := h.grew
  last _ hv := nomatch hv
  told := h.told

theorem Ordered.mem_past (h : s.Ordered label floor) {v : V} (hv : s.current = some v) :
    v ∈ s.past := List.mem_of_mem_head? (h.last v hv)

theorem Ordered.tell (h : s.Ordered label floor) {v : V} (hv : s.current = some v)
    (reader : Reader) : (s.tell reader v).Ordered label floor where
  above := h.above
  grew := h.grew
  last := h.last
  told := List.forall_mem_cons.mpr ⟨h.mem_past hv, h.told⟩

theorem Ordered.tellCurrent (h : s.Ordered label floor) (reader : Reader) :
    (s.tellCurrent reader).Ordered label floor := by
  unfold Slot.tellCurrent
  cases hcur : s.current with
  | none => exact h
  | some v => exact h.tell hcur reader

/-! ### What the order is for -/

theorem Ordered.nodup (h : s.Ordered label floor) : (s.past.map label).Nodup := by
  rw [List.nodup_iff_pairwise_ne, List.pairwise_map]
  exact h.grew.imp fun hlt => (ne_of_lt hlt).symm

theorem Ordered.eq_of_label_eq (h : s.Ordered label floor) {v u : V} (hv : v ∈ s.past)
    (hu : u ∈ s.past) (heq : label v = label u) : v = u :=
  List.inj_on_of_nodup_map h.nodup hv hu heq

theorem Ordered.lt_current (h : s.Ordered label floor) {v u : V} (hv : s.current = some v)
    (hu : u ∈ s.past) (hne : u ≠ v) : label u < label v := by
  obtain ⟨rest, hpast⟩ := List.head?_eq_some_iff.mp (h.last v hv)
  have hgrew := h.grew
  rw [hpast] at hu hgrew
  have hrest : u ∈ rest := (List.mem_cons.mp hu).resolve_left hne
  exact (List.pairwise_cons.mp hgrew).1 u hrest

variable [DecidableEq Reader]

theorem seen_lt {reader : Reader} {bound : L} (hfloor : floor < bound)
    (htold : ∀ p ∈ s.told, p.1 = reader → label p.2 < bound) :
    s.seen label floor reader < bound := by
  unfold seen
  generalize s.told = told at htold
  induction told with
  | nil => exact hfloor
  | cons p told ih =>
    obtain ⟨hp, hrest⟩ := List.forall_mem_cons.mp htold
    rw [List.foldr_cons]
    split
    · next hreader => exact max_lt (hp hreader) (ih hrest)
    · exact ih hrest

theorem Ordered.seen_lt (h : s.Ordered label floor) {v : V} (hv : s.current = some v)
    {reader : Reader} (hnew : (reader, v) ∉ s.told) : s.seen label floor reader < label v := by
  refine Slot.seen_lt (h.above v (h.mem_past hv)) fun p hp hreader => ?_
  refine h.lt_current hv (h.told p hp) fun heq => hnew ?_
  rw [← hreader, ← heq]
  exact hp

end Slot

end LibRustdesk
