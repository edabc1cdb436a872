import Mathlib.Data.List.Nodup

/-!
# Depth-first listing

A recursion that lists a thing and then its children, in order, and passes over what it has visited.
A thing may fail to be entered, its children may fail to be read, and so may any one of them; the
first failure ends it. The children are given by a function, so what they form may be a graph with
cycles, or infinite; fuel bounds the depth.

* `Below`, `Opens` — what is reached from a thing, and the things nothing fails at.
* `visit_grown` — **what an answer lists**: the things reached that had not been visited, once each.
* `listing` — **a whole listing**: what is reached from its roots, once each.
* `visit_error` — an error is one of a thing that is reached.
* `visit_isSome` — **enough fuel**, where no thing opens whose rank is above a bound, and the
  children of a thing have the next rank. `visit_mono`: more fuel changes nothing.
-/

namespace LibRustdesk.DepthFirst

variable {α β ε : Type*}

structure Walk (α β : Type*) where
  listed : List β
  visited : List α

def visitAll (visit : α → Walk α β → Option (Except ε (Walk α β))) :
    List (Except ε α) → Walk α β → Option (Except ε (Walk α β))
  | [], w => some (.ok w)
  | .error e :: _, _ => some (.error e)
  | .ok c :: cs, w =>
    match visit c w with
    | some (.ok w) => visitAll visit cs w
    | stuck => stuck

section Visit

variable [DecidableEq α] (enter : α → Except ε β) (children : α → Except ε (List (Except ε α)))

/-- The recursion, to a depth of `fuel`. -/
def visit : ℕ → α → Walk α β → Option (Except ε (Walk α β))
  | 0, _, _ => none
  | fuel + 1, a, w =>
    if a ∈ w.visited then some (.ok w)
    else
      match enter a with
      | .error e => some (.error e)
      | .ok b =>
        match children a with
        | .error e => some (.error e)
        | .ok cs => visitAll (visit fuel) cs ⟨w.listed ++ [b], w.visited ++ [a]⟩

end Visit

/-! ### What is reached -/

section Reach

variable (enter : α → Except ε β) (children : α → Except ε (List (Except ε α)))

def Child (a c : α) : Prop := ∃ cs, children a = .ok cs ∧ .ok c ∈ cs

/-- What is reached from `a`. -/
inductive Below (a : α) : α → Prop
  | refl : Below a a
  | child {b c : α} : Below a b → Child children b c → Below a c

def Opens (a : α) : Prop :=
  (∃ b, enter a = .ok b) ∧ ∃ cs, children a = .ok cs ∧ ∀ c ∈ cs, ∃ a', c = .ok a'

theorem Below.trans {a b c : α} (hab : Below children a b) (hbc : Below children b c) :
    Below children a c := by
  induction hbc with
  | refl => exact hab
  | child _ hchild ih => exact Below.child ih hchild

theorem Child.below {a b c : α} (hchild : Child children a b) (hbc : Below children b c) :
    Below children a c :=
  (Below.child Below.refl hchild).trans children hbc

/-- The walk has gone on from some of these roots: to things that had not been visited, once each,
that open, and whose children are visited by now. -/
def Grown (roots : α → Prop) (w w' : Walk α β) : Prop :=
  ∃ new results, w'.visited = w.visited ++ new ∧ w'.listed = w.listed ++ results ∧
    List.Forall₂ (fun a b => enter a = .ok b) new results ∧ new.Nodup ∧
    ∀ b ∈ new, b ∉ w.visited ∧ (∃ a, roots a ∧ Below children a b) ∧ Opens enter children b ∧
      ∀ c, Child children b c → c ∈ w'.visited

variable {enter children}

namespace Grown

variable {roots roots' : α → Prop} {w w' w'' : Walk α β}

theorem refl (roots : α → Prop) (w : Walk α β) : Grown enter children roots w w :=
  ⟨[], [], (List.append_nil _).symm, (List.append_nil _).symm, List.Forall₂.nil, List.nodup_nil,
    fun _ hb => absurd hb List.not_mem_nil⟩

theorem subset (h : Grown enter children roots w w') : w.visited ⊆ w'.visited := by
  obtain ⟨new, results, hvisited, -⟩ := h
  rw [hvisited]
  exact List.subset_append_left _ _

theorem mono (h : Grown enter children roots w w') (hsub : ∀ a, roots a → roots' a) :
    Grown enter children roots' w w' := by
  obtain ⟨new, results, hvisited, hlisted, hall, hnodup, hnew⟩ := h
  refine ⟨new, results, hvisited, hlisted, hall, hnodup, fun b hb => ?_⟩
  obtain ⟨hfresh, ⟨a, ha, hbelow⟩, hrest⟩ := hnew b hb
  exact ⟨hfresh, ⟨a, hsub a ha, hbelow⟩, hrest⟩

theorem trans (h : Grown enter children roots w w') (h' : Grown enter children roots w' w'') :
    Grown enter children roots w w'' := by
  have hsubset := h'.subset
  obtain ⟨new, results, hvisited, hlisted, hall, hnodup, hnew⟩ := h
  obtain ⟨new', results', hvisited', hlisted', hall', hnodup', hnew'⟩ := h'
  refine ⟨new ++ new', results ++ results', ?_, ?_, List.rel_append hall hall', ?_, ?_⟩
  · rw [hvisited', hvisited, List.append_assoc]
  · rw [hlisted', hlisted, List.append_assoc]
  · refine List.nodup_append'.mpr ⟨hnodup, hnodup', fun b hb hb' => ?_⟩
    refine (hnew' b hb').1 ?_
    rw [hvisited]
    exact List.mem_append_right _ hb
  · intro b hb
    rcases List.mem_append.mp hb with hb | hb
    · obtain ⟨hfresh, hroot, hopens, hchildren⟩ := hnew b hb
      exact ⟨hfresh, hroot, hopens, fun c hc => hsubset (hchildren c hc)⟩
    · obtain ⟨hfresh, hrest⟩ := hnew' b hb
      refine ⟨fun hmem => hfresh ?_, hrest⟩
      rw [hvisited]
      exact List.mem_append_left _ hmem

theorem push {a : α} {b : β} (ha : a ∉ w.visited) (henter : enter a = .ok b)
    (hopens : Opens enter children a)
    (h : Grown enter children (Child children a) ⟨w.listed ++ [b], w.visited ++ [a]⟩ w')
    (hchildren : ∀ c, Child children a c → c ∈ w'.visited) :
    Grown enter children (· = a) w w' := by
  obtain ⟨new, results, hvisited, hlisted, hall, hnodup, hnew⟩ := h
  refine ⟨a :: new, b :: results, ?_, ?_, List.Forall₂.cons henter hall, ?_, ?_⟩
  · rw [hvisited, List.append_assoc]
    rfl
  · rw [hlisted, List.append_assoc]
    rfl
  · refine List.nodup_cons.mpr ⟨fun hmem => (hnew a hmem).1 ?_, hnodup⟩
    exact List.mem_append_right _ List.mem_cons_self
  · intro c hc
    rcases List.mem_cons.mp hc with rfl | hc
    · exact ⟨ha, ⟨c, rfl, Below.refl⟩, hopens, hchildren⟩
    · obtain ⟨hfresh, ⟨d, hd, hbelow⟩, hrest⟩ := hnew c hc
      exact ⟨fun hmem => hfresh (List.mem_append_left _ hmem), ⟨a, rfl, hd.below children hbelow⟩,
        hrest⟩

end Grown

end Reach

/-! ### Answers and errors -/

section Specification

variable [DecidableEq α] {enter : α → Except ε β} {children : α → Except ε (List (Except ε α))}

omit [DecidableEq α] in
theorem visitAll_grown {go : α → Walk α β → Option (Except ε (Walk α β))}
    (hgo : ∀ a w w', go a w = some (.ok w') → a ∈ w'.visited ∧ Grown enter children (· = a) w w')
    {cs : List (Except ε α)} {w w' : Walk α β} (h : visitAll go cs w = some (.ok w')) :
    (∀ c ∈ cs, ∃ a, c = .ok a ∧ a ∈ w'.visited) ∧
      Grown enter children (fun a => .ok a ∈ cs) w w' := by
  induction cs generalizing w with
  | nil =>
    obtain rfl := Except.ok.inj (Option.some.inj h)
    exact ⟨fun c hc => absurd hc List.not_mem_nil, Grown.refl _ _⟩
  | cons c cs ih =>
    cases c with
    | error e => cases h
    | ok a =>
      unfold visitAll at h
      split at h
      · next w₁ hw₁ =>
        obtain ⟨hmem, hgrown⟩ := hgo a w w₁ hw₁
        obtain ⟨hall, hrest⟩ := ih h
        have hrest' : Grown enter children (fun x => .ok x ∈ .ok a :: cs) w₁ w' :=
          hrest.mono fun x hx => List.mem_cons_of_mem _ hx
        refine ⟨List.forall_mem_cons.mpr ⟨⟨a, rfl, hrest.subset hmem⟩, hall⟩, ?_⟩
        refine (hgrown.mono fun x hx => ?_).trans hrest'
        rw [hx]
        exact List.mem_cons_self
      · next hstuck =>
        exact absurd h (hstuck w')

theorem visit_grown {fuel : ℕ} {a : α} {w w' : Walk α β}
    (h : visit enter children fuel a w = some (.ok w')) :
    a ∈ w'.visited ∧ Grown enter children (· = a) w w' := by
  induction fuel generalizing a w w' with
  | zero => cases h
  | succ fuel ih =>
    unfold visit at h
    split at h
    · next hmem =>
      obtain rfl := Except.ok.inj (Option.some.inj h)
      exact ⟨hmem, Grown.refl _ _⟩
    · next hmem =>
      cases henter : enter a with
      | error e =>
        rw [henter] at h
        cases h
      | ok b =>
        cases hchildren : children a with
        | error e =>
          rw [henter, hchildren] at h
          cases h
        | ok cs =>
          rw [henter, hchildren] at h
          obtain ⟨hall, hgrown⟩ := visitAll_grown (fun a w w' => ih) h
          have hopens : Opens enter children a := by
            refine ⟨⟨b, henter⟩, cs, hchildren, fun c hc => ?_⟩
            obtain ⟨a', ha', -⟩ := hall c hc
            exact ⟨a', ha'⟩
          have hvisited : ∀ c, Child children a c → c ∈ w'.visited := by
            rintro c ⟨cs', hcs', hc⟩
            obtain rfl := Except.ok.inj (hchildren.symm.trans hcs')
            obtain ⟨a', ha', hmem'⟩ := hall _ hc
            rw [Except.ok.inj ha']
            exact hmem'
          refine ⟨hgrown.subset (List.mem_append_right _ List.mem_cons_self), ?_⟩
          exact Grown.push hmem henter hopens (hgrown.mono fun c hc => ⟨cs, hchildren, hc⟩) hvisited

theorem listing {fuel : ℕ} {cs : List (Except ε α)} {w : Walk α β}
    (h : visitAll (visit enter children fuel) cs ⟨[], []⟩ = some (.ok w)) :
    (∀ a, a ∈ w.visited ↔ ∃ root, .ok root ∈ cs ∧ Below children root a) ∧ w.visited.Nodup ∧
      List.Forall₂ (fun a b => enter a = .ok b) w.visited w.listed ∧
      ∀ a ∈ w.visited, Opens enter children a := by
  obtain ⟨hall, new, results, hvisited, hlisted, hresults, hnodup, hnew⟩ :=
    visitAll_grown (fun a w w' => visit_grown) h
  rw [List.nil_append] at hvisited hlisted
  rw [← hvisited] at hresults hnodup hnew
  rw [← hlisted] at hresults
  refine ⟨fun a => ⟨fun ha => (hnew a ha).2.1, ?_⟩, hnodup, hresults, fun a ha => (hnew a ha).2.2.1⟩
  rintro ⟨root, hroot, hbelow⟩
  induction hbelow with
  | refl =>
    obtain ⟨a', ha', hmem⟩ := hall _ hroot
    rw [Except.ok.inj ha']
    exact hmem
  | child _ hchild ih => exact (hnew _ ih).2.2.2 _ hchild

omit [DecidableEq α] in
theorem visitAll_error {go : α → Walk α β → Option (Except ε (Walk α β))} {bad : α → Prop}
    {cs : List (Except ε α)}
    (hgo : ∀ a w e, .ok a ∈ cs → go a w = some (.error e) → bad a) {w : Walk α β} {e : ε}
    (h : visitAll go cs w = some (.error e)) : (∃ e, .error e ∈ cs) ∨ ∃ a, .ok a ∈ cs ∧ bad a := by
  induction cs generalizing w with
  | nil => cases h
  | cons c cs ih =>
    cases c with
    | error e' => exact Or.inl ⟨e', List.mem_cons_self⟩
    | ok a =>
      unfold visitAll at h
      split at h
      · have hrest := ih (fun x w e hx => hgo x w e (List.mem_cons_of_mem _ hx)) h
        exact hrest.imp (fun ⟨e, he⟩ => ⟨e, List.mem_cons_of_mem _ he⟩)
          fun ⟨x, hx, hbad⟩ => ⟨x, List.mem_cons_of_mem _ hx, hbad⟩
      · exact Or.inr ⟨a, List.mem_cons_self, hgo a w e List.mem_cons_self h⟩

theorem visit_error {fuel : ℕ} {a : α} {w : Walk α β} {e : ε}
    (h : visit enter children fuel a w = some (.error e)) :
    ∃ b, Below children a b ∧ ¬ Opens enter children b := by
  induction fuel generalizing a w e with
  | zero => cases h
  | succ fuel ih =>
    unfold visit at h
    split at h
    · cases h
    · cases henter : enter a with
      | error e' =>
        refine ⟨a, Below.refl, fun hopens => ?_⟩
        obtain ⟨b, hb⟩ := hopens.1
        rw [henter] at hb
        cases hb
      | ok b =>
        cases hchildren : children a with
        | error e' =>
          refine ⟨a, Below.refl, fun hopens => ?_⟩
          obtain ⟨cs, hcs, -⟩ := hopens.2
          rw [hchildren] at hcs
          cases hcs
        | ok cs =>
          rw [henter, hchildren] at h
          have hgo : ∀ c w e, .ok c ∈ cs → visit enter children fuel c w = some (.error e) →
              ∃ d, Below children c d ∧ ¬ Opens enter children d := fun c w e _ => ih
          rcases visitAll_error hgo h with ⟨e', he'⟩ | ⟨c, hc, d, hbelow, hd⟩
          · refine ⟨a, Below.refl, fun hopens => ?_⟩
            obtain ⟨cs', hcs', hall⟩ := hopens.2
            obtain rfl := Except.ok.inj (hchildren.symm.trans hcs')
            obtain ⟨a', ha'⟩ := hall _ he'
            cases ha'
          · exact ⟨d, Child.below children ⟨cs, hchildren, hc⟩ hbelow, hd⟩

/-! ### Fuel -/

omit [DecidableEq α] in
theorem visitAll_isSome {go : α → Walk α β → Option (Except ε (Walk α β))} {cs : List (Except ε α)}
    (hgo : ∀ a w, .ok a ∈ cs → (go a w).isSome) (w : Walk α β) : (visitAll go cs w).isSome := by
  induction cs generalizing w with
  | nil => rfl
  | cons c cs ih =>
    cases c with
    | error e => rfl
    | ok a =>
      unfold visitAll
      split
      · exact ih (fun x w hx => hgo x w (List.mem_cons_of_mem _ hx)) _
      · exact hgo a w List.mem_cons_self

theorem visit_isSome {rank : α → ℕ} {bound : ℕ} (hbound : ∀ a b, enter a = .ok b → rank a ≤ bound)
    (hrank : ∀ a c, Child children a c → rank c = rank a + 1) {fuel : ℕ} {a : α} (hpos : 1 ≤ fuel)
    (hfuel : bound + 2 ≤ fuel + rank a) (w : Walk α β) :
    (visit enter children fuel a w).isSome := by
  induction fuel generalizing a w with
  | zero => exact absurd hpos (by decide)
  | succ fuel ih =>
    unfold visit
    split
    · rfl
    · cases henter : enter a with
      | error e => rfl
      | ok b =>
        cases hchildren : children a with
        | error e => rfl
        | ok cs =>
          have hle := hbound a b henter
          refine visitAll_isSome (fun c w hc => ?_) _
          have hc' := hrank a c ⟨cs, hchildren, hc⟩
          exact ih (by omega) (by omega) w

omit [DecidableEq α] in
theorem visitAll_mono {go go' : α → Walk α β → Option (Except ε (Walk α β))}
    (hgo : ∀ a w r, go a w = some r → go' a w = some r) {cs : List (Except ε α)} {w : Walk α β}
    {r : Except ε (Walk α β)} (h : visitAll go cs w = some r) : visitAll go' cs w = some r := by
  induction cs generalizing w with
  | nil => exact h
  | cons c cs ih =>
    cases c with
    | error e => exact h
    | ok a =>
      unfold visitAll at h ⊢
      cases hstep : go a w with
      | none =>
        rw [hstep] at h
        cases h
      | some r' =>
        rw [hgo a w r' hstep]
        rw [hstep] at h
        cases r' with
        | error e => exact h
        | ok w₁ => exact ih h

theorem visit_mono {fuel fuel' : ℕ} (hle : fuel ≤ fuel') {a : α} {w : Walk α β}
    {r : Except ε (Walk α β)} (h : visit enter children fuel a w = some r) :
    visit enter children fuel' a w = some r := by
  induction fuel generalizing fuel' a w r with
  | zero => cases h
  | succ fuel ih =>
    obtain ⟨fuel', rfl⟩ : ∃ n, fuel' = n + 1 := ⟨fuel' - 1, by omega⟩
    unfold visit at h ⊢
    split at h
    · next hmem =>
      rw [if_pos hmem]
      exact h
    · next hmem =>
      rw [if_neg hmem]
      cases henter : enter a with
      | error e =>
        rw [henter] at h
        exact h
      | ok b =>
        cases hchildren : children a with
        | error e =>
          rw [henter, hchildren] at h
          exact h
        | ok cs =>
          rw [henter, hchildren] at h
          exact visitAll_mono (fun a w r => ih (Nat.le_of_succ_le_succ hle)) h

end Specification

end LibRustdesk.DepthFirst
