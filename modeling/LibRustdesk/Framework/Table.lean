import Mathlib.Logic.Function.Basic

/-!
# Tables

A hash map of which only lookups, insertions, removals and updates of every value matter, as a
partial function. The lemmas say what each operation does at a key; `Table.insert_apply` and
`Table.remove_apply` are the case splits the invariants are proved with.
-/

namespace LibRustdesk

abbrev Table (κ ν : Type*) := κ → Option ν

namespace Table

variable {κ ν : Type*}

def empty : Table κ ν := fun _ => none

def retain (t : Table κ ν) (p : κ → ν → Bool) : Table κ ν :=
  fun k => (t k).filter (p k)

/-- Every value of `s` over those of `t`. -/
def extend (t s : Table κ ν) : Table κ ν := fun k => (s k).or (t k)

def mapValues (t : Table κ ν) (f : ν → ν) : Table κ ν := fun k => (t k).map f

@[simp] theorem empty_apply (k : κ) : (empty : Table κ ν) k = none := rfl

@[simp] theorem extend_apply (t s : Table κ ν) (k : κ) : t.extend s k = (s k).or (t k) := rfl

@[simp] theorem mapValues_apply (t : Table κ ν) (f : ν → ν) (k : κ) :
    t.mapValues f k = (t k).map f := rfl

section Update

variable [DecidableEq κ]

def insert (t : Table κ ν) (k : κ) (v : ν) : Table κ ν := Function.update t k (some v)

def remove (t : Table κ ν) (k : κ) : Table κ ν := Function.update t k none

theorem insert_apply (t : Table κ ν) (k : κ) (v : ν) (j : κ) :
    t.insert k v j = if j = k then some v else t j := Function.update_apply t k (some v) j

theorem remove_apply (t : Table κ ν) (k j : κ) :
    t.remove k j = if j = k then none else t j := Function.update_apply t k none j

@[simp] theorem insert_self (t : Table κ ν) (k : κ) (v : ν) : t.insert k v k = some v := by
  rw [insert_apply, if_pos rfl]

@[simp] theorem remove_self (t : Table κ ν) (k : κ) : t.remove k k = none := by
  rw [remove_apply, if_pos rfl]

theorem insert_of_ne (t : Table κ ν) {j k : κ} (v : ν) (h : j ≠ k) : t.insert k v j = t j := by
  rw [insert_apply, if_neg h]

theorem remove_of_ne (t : Table κ ν) {j k : κ} (h : j ≠ k) : t.remove k j = t j := by
  rw [remove_apply, if_neg h]

end Update

end Table

end LibRustdesk
