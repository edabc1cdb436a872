import Mathlib.Data.List.Basic
import Mathlib.Order.Basic

/-!
# Deterministic machines and their runs

A `Machine` answers each event with a next state and a list of outputs. Everything the
environment decides (the outcome of a system call, the content of a packet, which party moves
next) is part of the event, so an interleaving is a list of events and a property of every
interleaving is a property of every list.

* `Machine.run`, `Machine.outputs` — the state reached and the outputs emitted along a run.
* `Machine.trace` — the run as the list of its steps, each with the state it is taken from.
* `Machine.Meets` — every step of the run satisfies a condition on its pre-state and event.

The two rules used throughout are `Machine.Meets.inv_run` (an invariant carried by the steps
that meet a condition holds where the run ends) and `Machine.Meets.inv_trace` (and before each
step of it); `Machine.Meets.inv_outputs` reads such a rule of the outputs,
`Machine.forall_outputs_iff` makes it exact, and `Machine.Meets.inv_history` is the rule for a state
and its past.
`Machine.not_meets_split` locates the first step that fails a condition, and
`Machine.Meets.countP_le` counts the steps of a kind against a budget they use up;
`Machine.Meets.count_outputs_le` counts outputs in the same way.
`Machine.run_flatMap` takes the runs of one machine to those of another.
-/

namespace LibRustdesk

structure Machine (State Event Out : Type*) where
  step : State → Event → State × List Out

namespace Machine

variable {State Event Out : Type*} (M : Machine State Event Out)

def next (s : State) (e : Event) : State := (M.step s e).1

def out (s : State) (e : Event) : List Out := (M.step s e).2

def run (s : State) : List Event → State
  | [] => s
  | e :: es => run (M.next s e) es

def outputs (s : State) : List Event → List Out
  | [] => []
  | e :: es => M.out s e ++ outputs (M.next s e) es

/-- The steps of a run, each with the state it is taken from. -/
def trace (s : State) : List Event → List (State × Event)
  | [] => []
  | e :: es => (s, e) :: trace (M.next s e) es

/-- Every step of the run satisfies `cond` at the state it is taken from. -/
def Meets (cond : State → Event → Prop) (s : State) (es : List Event) : Prop :=
  ∀ p ∈ M.trace s es, cond p.1 p.2

instance (cond : State → Event → Prop) [∀ s e, Decidable (cond s e)] (s : State) (es : List Event) :
    Decidable (M.Meets cond s es) :=
  inferInstanceAs (Decidable (∀ p ∈ M.trace s es, cond p.1 p.2))

/-! ### Composition of runs -/

@[simp] theorem run_nil (s : State) : M.run s [] = s := rfl

@[simp] theorem run_cons (s : State) (e : Event) (es : List Event) :
    M.run s (e :: es) = M.run (M.next s e) es := rfl

@[simp] theorem outputs_nil (s : State) : M.outputs s [] = [] := rfl

@[simp] theorem outputs_cons (s : State) (e : Event) (es : List Event) :
    M.outputs s (e :: es) = M.out s e ++ M.outputs (M.next s e) es := rfl

@[simp] theorem trace_cons (s : State) (e : Event) (es : List Event) :
    M.trace s (e :: es) = (s, e) :: M.trace (M.next s e) es := rfl

theorem run_append (s : State) (es fs : List Event) :
    M.run s (es ++ fs) = M.run (M.run s es) fs := by
  induction es generalizing s with
  | nil => rfl
  | cons e es ih => exact ih (M.next s e)

theorem trace_append (s : State) (es fs : List Event) :
    M.trace s (es ++ fs) = M.trace s es ++ M.trace (M.run s es) fs := by
  induction es generalizing s with
  | nil => rfl
  | cons e es ih =>
    rw [List.cons_append, trace_cons, trace_cons, ih, List.cons_append]
    rfl

theorem exists_split_of_mem_trace {s : State} {es : List Event} {p : State × Event}
    (hp : p ∈ M.trace s es) :
    ∃ pre post, es = pre ++ p.2 :: post ∧ M.run s pre = p.1 := by
  induction es generalizing s with
  | nil => cases hp
  | cons e es ih =>
    rcases List.mem_cons.mp hp with rfl | hp
    · exact ⟨[], es, rfl, rfl⟩
    · obtain ⟨pre, post, rfl, hrun⟩ := ih hp
      exact ⟨e :: pre, post, rfl, hrun⟩

theorem mem_trace_split (s : State) (pre : List Event) (e : Event) (post : List Event) :
    (M.run s pre, e) ∈ M.trace s (pre ++ e :: post) := by
  rw [trace_append, trace_cons]
  exact List.mem_append_right _ List.mem_cons_self

/-! ### Runs whose steps meet a condition -/

variable {M} {cond : State → Event → Prop}

@[simp] theorem meets_nil (s : State) : M.Meets cond s [] :=
  fun _ hp => absurd hp (List.not_mem_nil)

@[simp] theorem meets_cons {s : State} {e : Event} {es : List Event} :
    M.Meets cond s (e :: es) ↔ cond s e ∧ M.Meets cond (M.next s e) es := by
  unfold Meets
  rw [trace_cons, List.forall_mem_cons]

theorem meets_append {s : State} {es fs : List Event} :
    M.Meets cond s (es ++ fs) ↔ M.Meets cond s es ∧ M.Meets cond (M.run s es) fs := by
  unfold Meets
  rw [trace_append, List.forall_mem_append]

theorem Meets.imp {cond' : State → Event → Prop} {s : State} {es : List Event}
    (h : M.Meets cond s es) (himp : ∀ s e, cond s e → cond' s e) : M.Meets cond' s es :=
  fun p hp => himp p.1 p.2 (h p hp)

theorem meets_true (s : State) (es : List Event) : M.Meets (fun _ _ => True) s es :=
  fun _ _ => trivial

theorem Meets.inv_run {I : State → Prop} {s : State} {es : List Event}
    (h : M.Meets cond s es) (h0 : I s)
    (hstep : ∀ s e, cond s e → I s → I (M.next s e)) : I (M.run s es) := by
  induction es generalizing s with
  | nil => exact h0
  | cons e es ih =>
    obtain ⟨hc, hrest⟩ := meets_cons.mp h
    exact ih hrest (hstep s e hc h0)

theorem Meets.inv_trace {I : State → Prop} {s : State} {es : List Event}
    (h : M.Meets cond s es) (h0 : I s)
    (hstep : ∀ s e, cond s e → I s → I (M.next s e)) :
    ∀ p ∈ M.trace s es, I p.1 := by
  intro p hp
  obtain ⟨pre, post, rfl, hrun⟩ := M.exists_split_of_mem_trace hp
  rw [← hrun]
  exact (meets_append.mp h).1.inv_run h0 hstep

theorem Meets.inv_outputs {I : State → Prop} {P : Out → Prop} {s : State} {es : List Event}
    (h : M.Meets cond s es) (h0 : I s)
    (hstep : ∀ s e, cond s e → I s → I (M.next s e) ∧ ∀ o ∈ M.out s e, P o) :
    ∀ o ∈ M.outputs s es, P o := by
  induction es generalizing s with
  | nil => exact fun o ho => absurd ho List.not_mem_nil
  | cons e es ih =>
    obtain ⟨hc, hrest⟩ := meets_cons.mp h
    obtain ⟨hnext, hout⟩ := hstep s e hc h0
    rw [outputs_cons, List.forall_mem_append]
    exact ⟨hout, ih hrest hnext⟩

theorem forall_outputs_iff {I : State → Prop} {P : Out → Prop} {s : State} {es : List Event}
    (h0 : I s) (hstep : ∀ s e, cond s e → I s → I (M.next s e))
    (hout : ∀ s e, I s → ((∀ o ∈ M.out s e, P o) ↔ cond s e)) :
    (∀ o ∈ M.outputs s es, P o) ↔ M.Meets cond s es := by
  induction es generalizing s with
  | nil => exact iff_of_true (fun o ho => absurd ho List.not_mem_nil) (meets_nil s)
  | cons e es ih =>
    rw [outputs_cons, List.forall_mem_append, meets_cons, hout s e h0]
    -- the rest of the run starts with the invariant once its first step meets the condition
    exact and_congr_right fun hcond => ih (hstep s e hcond h0)

theorem inv_run {I : State → Prop} {s : State} (h0 : I s)
    (hstep : ∀ s e, I s → I (M.next s e)) (es : List Event) : I (M.run s es) :=
  (meets_true s es).inv_run h0 fun s e _ => hstep s e

theorem Meets.inv_history {I : List Event → State → Prop} {s : State} {es : List Event}
    (h : M.Meets cond s es) (h0 : I [] s)
    (hstep : ∀ past s e, cond s e → I past s → I (past ++ [e]) (M.next s e)) :
    I es (M.run s es) := by
  -- the past grows while the run goes on, so the induction is on what is left
  have hgo : ∀ (es past : List Event) (s : State), M.Meets cond s es → I past s →
      I (past ++ es) (M.run s es) := by
    intro es
    induction es with
    | nil =>
      intro past s _ hpast
      rw [List.append_nil]
      exact hpast
    | cons e es ih =>
      intro past s hmeets hpast
      obtain ⟨hc, hrest⟩ := meets_cons.mp hmeets
      have hnext := ih (past ++ [e]) (M.next s e) hrest (hstep past s e hc hpast)
      rw [List.append_assoc] at hnext
      exact hnext
  exact hgo es [] s h h0

theorem inv_history {I : List Event → State → Prop} {s : State} (h0 : I [] s)
    (hstep : ∀ past s e, I past s → I (past ++ [e]) (M.next s e)) (es : List Event) :
    I es (M.run s es) :=
  (meets_true s es).inv_history h0 fun past s e _ => hstep past s e

/-- **The exact rule.** Where a step from a state with `I` leads to one exactly when it meets the
condition, `I` holds along a run exactly when every step meets it. `J` is an invariant to help. -/
theorem meets_iff_inv {I J : State → Prop} {s : State} {es : List Event} (h0 : I s) (hJ : J s)
    (hJstep : ∀ s e, J s → J (M.next s e)) (hstep : ∀ s e, J s → I s → (I (M.next s e) ↔ cond s e))
    : (∀ pre, pre <+: es → I (M.run s pre)) ↔ M.Meets cond s es := by
  induction es generalizing s with
  | nil =>
    refine ⟨fun _ => meets_nil s, fun _ pre hpre => ?_⟩
    rw [List.prefix_nil.mp hpre]
    exact h0
  | cons e es ih =>
    rw [meets_cons]
    constructor
    · intro h
      have hnext : I (M.next s e) := h [e] (List.prefix_append [e] es)
      refine ⟨(hstep s e hJ h0).mp hnext, (ih hnext (hJstep s e hJ)).mp fun pre hpre => ?_⟩
      exact h (e :: pre) (List.cons_prefix_cons.mpr ⟨rfl, hpre⟩)
    · rintro ⟨hcond, hmeets⟩ pre hpre
      have hnext : I (M.next s e) := (hstep s e hJ h0).mpr hcond
      cases pre with
      | nil => exact h0
      | cons e' pre =>
        obtain ⟨rfl, hrest⟩ := List.cons_prefix_cons.mp hpre
        exact (ih hnext (hJstep s e' hJ)).mpr hmeets pre hrest

theorem Meets.countP_le {φ : State → ℕ} {p : State × Event → Bool} {B : ℕ} {s : State}
    {es : List Event} (h : M.Meets cond s es)
    (hmono : ∀ s e, cond s e → φ s ≤ φ (M.next s e))
    (hcount : ∀ s e, cond s e → p (s, e) = true → φ s < B ∧ φ s < φ (M.next s e)) :
    (M.trace s es).countP p ≤ B - φ s := by
  induction es generalizing s with
  | nil => exact Nat.zero_le _
  | cons e es ih =>
    obtain ⟨hc, hrest⟩ := meets_cons.mp h
    have hle := hmono s e hc
    have hih := ih hrest
    rw [trace_cons, List.countP_cons]
    by_cases hp : p (s, e) = true
    · obtain ⟨hlt, hraise⟩ := hcount s e hc hp
      rw [if_pos hp]
      omega
    · rw [if_neg hp]
      omega

theorem Meets.count_outputs_le [DecidableEq Out] {φ : State → ℕ} {o : Out} {s : State}
    {es : List Event} (h : M.Meets cond s es)
    (hstep : ∀ s e, cond s e → (M.out s e).count o + φ s ≤ φ (M.next s e)) :
    (M.outputs s es).count o + φ s ≤ φ (M.run s es) := by
  induction es generalizing s with
  | nil => simp
  | cons e es ih =>
    obtain ⟨hc, hrest⟩ := meets_cons.mp h
    rw [outputs_cons, List.count_append, run_cons]
    calc (M.out s e).count o + (M.outputs (M.next s e) es).count o + φ s
        = (M.outputs (M.next s e) es).count o + ((M.out s e).count o + φ s) := by omega
      _ ≤ (M.outputs (M.next s e) es).count o + φ (M.next s e) :=
        Nat.add_le_add_left (hstep s e hc) _
      _ ≤ φ (M.run (M.next s e) es) := ih hrest

theorem run_flatMap {State' Event' Out' : Type*} {M' : Machine State' Event' Out'}
    {f : State → State'} {g : Event → List Event'}
    (hstep : ∀ s e, f (M.next s e) = M'.run (f s) (g e)) (s : State) (es : List Event) :
    f (M.run s es) = M'.run (f s) (es.flatMap g) := by
  induction es generalizing s with
  | nil => rfl
  | cons e es ih => rw [run_cons, ih, hstep, List.flatMap_cons, run_append]

theorem meets_flatMap {State' Event' Out' : Type*} {M' : Machine State' Event' Out'}
    {f : State → State'} {g : Event → List Event'} {cond' : State' → Event' → Prop}
    (hstep : ∀ s e, f (M.next s e) = M'.run (f s) (g e)) {s : State} {es : List Event} :
    M'.Meets cond' (f s) (es.flatMap g) ↔ M.Meets (fun s e => M'.Meets cond' (f s) (g e)) s es := by
  induction es generalizing s with
  | nil => exact ⟨fun _ => meets_nil s, fun _ => meets_nil (f s)⟩
  | cons e es ih => rw [List.flatMap_cons, meets_append, ← hstep, ih, meets_cons]

theorem not_meets_split {s : State} {es : List Event} (h : ¬ M.Meets cond s es) :
    ∃ pre e post, es = pre ++ e :: post ∧ M.Meets cond s pre ∧ ¬ cond (M.run s pre) e := by
  induction es generalizing s with
  | nil => exact absurd (meets_nil s) h
  | cons e es ih =>
    by_cases hc : cond s e
    · have hrest : ¬ M.Meets cond (M.next s e) es := fun hm => h (meets_cons.mpr ⟨hc, hm⟩)
      obtain ⟨pre, e', post, rfl, hpre, hfail⟩ := ih hrest
      exact ⟨e :: pre, e', post, rfl, meets_cons.mpr ⟨hc, hpre⟩, hfail⟩
    · exact ⟨[], e, es, rfl, meets_nil s, hc⟩

end Machine

end LibRustdesk
