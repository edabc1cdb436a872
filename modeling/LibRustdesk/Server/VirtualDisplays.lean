import LibRustdesk.Framework.Machine

/-!
# Virtual displays of the Amyuni driver

`amyuni_idd` of `src/virtual_display_manager.rs`. The driver plugs a display in or out without
saying which, so the module counts those it has plugged in (`VIRTUAL_DISPLAY_COUNT`). Nobody tells
it when the user or another process removes one of these or adds one of its own.

* `State.plugOutCount` — how many displays `plug_out_monitor` plugs out.
* `Sparing` — what is asked of such a call: it leaves a display, it takes nobody else's, and one
  index is one display at most.
* `Accurate` — the count is not above what it is compared with: that of all displays, where it is to
  leave one of them, and zero where none of its own displays is left.
* `sparing_of_accurate` — **every call of a run spares** what it should if the count is accurate
  there. The arms compare the count with that of all displays for equality only, so a count that is
  too large takes the last display (`takes_last`).

A call is one step. Which display goes, and whether the driver refuses, is up to the run.
-/

namespace LibRustdesk.VirtualDisplays

def iddPlugOutAllIndex : Int32 := -1

def virtualDisplayMaxCount : ℕ := 4

structure State where
  physical : ℕ
  /-- The virtual displays of other processes, and those that were plugged in here. -/
  others : ℕ
  own : ℕ
  /-- `VIRTUAL_DISPLAY_COUNT`. -/
  count : ℕ
  deriving DecidableEq

inductive Outcome
  | failed
  | ok (own : Bool)
  deriving DecidableEq

namespace State

variable (s : State)

/-- `get_monitor_count`. -/
def monitorCount : ℕ := s.others + s.own

def allCount : ℕ := s.physical + s.monitorCount

/-- `plug_monitor_(true, ..)`. -/
def plugIn : Outcome → State
  | .failed => s
  | .ok _ =>
    { s with
      own := s.own + 1
      count := if s.count < virtualDisplayMaxCount then s.count + 1 else s.count }

/-- `plug_monitor_(false, ..)`. A display goes if there is one. -/
def plugOut : Outcome → State
  | .failed => s
  | .ok own =>
    if own ∧ 0 < s.own ∨ s.others = 0 then { s with own := s.own - 1, count := s.count - 1 }
    else { s with others := s.others - 1, count := s.count - 1 }

/-- `plug_in_count`, or an error. -/
def plugInCount (index : Int32) (forceOne : Bool) : Option ℕ :=
  if index ≠ iddPlugOutAllIndex ∧ s.count = 0 ∧ 0 < s.monitorCount then
    if forceOne then some 1 else none
  else some s.count

/-- `to_plug_out_count` before it is cut down to one. -/
def toPlugOutCount (forceAll : Bool) (plugInCount : ℕ) : ℕ → Option ℕ
  | 0 => some 0
  | 1 => if plugInCount = 0 then none else if forceAll then some 1 else none
  | all => some (if all = plugInCount then if forceAll then all else all - 1 else plugInCount)

/-- The number that `plug_out_monitor` plugs out, or an error. -/
def plugOutCount (index : Int32) (forceAll forceOne : Bool) : Option ℕ :=
  (s.plugInCount index forceOne).bind fun plugInCount =>
    (toPlugOutCount forceAll plugInCount s.allCount).map fun n =>
      if n ≠ 0 ∧ index ≠ iddPlugOutAllIndex then 1 else n

/-- The first `n` commands of a call. -/
def plugOuts (outcome : ℕ → Outcome) : ℕ → State
  | 0 => s
  | n + 1 => (plugOuts outcome n).plugOut (outcome n)

def plugOutMonitor (index : Int32) (forceAll forceOne : Bool) (outcome : ℕ → Outcome) : State :=
  s.plugOuts outcome ((s.plugOutCount index forceAll forceOne).getD 0)

end State

inductive Event
  /-- `ready`: the driver is there, and the last call was not too short a time ago. -/
  | plugInHeadless (ready : Bool) (outcome : Outcome)
  | plugInMonitor (ready : Bool) (outcome : Outcome)
  | plugOutMonitor (index : Int32) (forceAll forceOne : Bool) (outcome : ℕ → Outcome)
  | resetAll (outcome : ℕ → Outcome)
  /-- The user and other processes. They add no display of this one. -/
  | change (physical others own : ℕ)

def machine : Machine State Event Empty where
  step s
    | .plugInHeadless ready outcome => (if ready then s.plugIn outcome else s, [])
    | .plugInMonitor ready outcome =>
      (if ready ∧ s.monitorCount ≠ virtualDisplayMaxCount then s.plugIn outcome else s, [])
    | .plugOutMonitor index forceAll forceOne outcome =>
      (s.plugOutMonitor index forceAll forceOne outcome, [])
    | .resetAll outcome => (s.plugOutMonitor iddPlugOutAllIndex true false outcome, [])
    | .change physical others own => (⟨physical, others, min own s.own, s.count⟩, [])

structure Spares (s s' : State) (index : Int32) (forceAll forceOne : Bool) : Prop where
  last : forceAll = false → 0 < s.allCount → 0 < s'.allCount
  foreign : forceOne = false → index ≠ iddPlugOutAllIndex → s.own = 0 →
    s'.monitorCount = s.monitorCount
  one : index ≠ iddPlugOutAllIndex → s.allCount ≤ s'.allCount + 1

def Sparing (s : State) : Event → Prop
  | .plugOutMonitor index forceAll forceOne outcome =>
    Spares s (s.plugOutMonitor index forceAll forceOne outcome) index forceAll forceOne
  | _ => True

def Accurate (s : State) : Event → Prop
  | .plugOutMonitor index forceAll forceOne _ =>
    (index = iddPlugOutAllIndex → forceAll = false → 2 ≤ s.allCount → s.physical = 0 →
      s.count ≤ s.allCount) ∧
    (index ≠ iddPlugOutAllIndex → forceOne = false → s.own = 0 → 0 < s.others →
      2 ≤ s.allCount ∨ forceAll → s.count = 0)
  | _ => True

instance (s : State) : (e : Event) → Decidable (Accurate s e)
  | .plugOutMonitor _ _ _ _ => instDecidableAnd
  | .plugInHeadless _ _ | .plugInMonitor _ _ | .resetAll _ | .change _ _ _ => .isTrue trivial

/-! ### One call -/

namespace State

variable (s : State)

theorem plugOut_spec (outcome : Outcome) : (s.plugOut outcome).physical = s.physical ∧
    (s.plugOut outcome).monitorCount ≤ s.monitorCount ∧
      s.monitorCount ≤ (s.plugOut outcome).monitorCount + 1 := by
  unfold plugOut monitorCount
  cases outcome with
  | failed => exact ⟨rfl, Nat.le_refl _, Nat.le_succ _⟩
  | ok own =>
    dsimp only
    split
    · refine ⟨rfl, ?_, ?_⟩ <;> dsimp only <;> omega
    · refine ⟨rfl, ?_, ?_⟩ <;> dsimp only <;> omega

theorem plugOuts_spec (outcome : ℕ → Outcome) (n : ℕ) :
    (s.plugOuts outcome n).physical = s.physical ∧
      (s.plugOuts outcome n).monitorCount ≤ s.monitorCount ∧
        s.monitorCount ≤ (s.plugOuts outcome n).monitorCount + n := by
  induction n with
  | zero => exact ⟨rfl, Nat.le_refl _, Nat.le_refl _⟩
  | succ n ih =>
    obtain ⟨hphysical, hle, hge⟩ := ih
    obtain ⟨hphysical', hle', hge'⟩ := (s.plugOuts outcome n).plugOut_spec (outcome n)
    refine ⟨hphysical'.trans hphysical, Nat.le_trans hle' hle, ?_⟩
    unfold plugOuts
    omega

variable {s} {index : Int32} {forceAll forceOne : Bool} {n : ℕ}

theorem plugOutCount_eq_some (h : s.plugOutCount index forceAll forceOne = some n) :
    ∃ plugInCount m, s.plugInCount index forceOne = some plugInCount ∧
      toPlugOutCount forceAll plugInCount s.allCount = some m ∧
        n = if m ≠ 0 ∧ index ≠ iddPlugOutAllIndex then 1 else m := by
  obtain ⟨plugInCount, hplugIn, hmap⟩ := Option.bind_eq_some_iff.mp h
  obtain ⟨m, hm, hn⟩ := Option.map_eq_some_iff.mp hmap
  exact ⟨plugInCount, m, hplugIn, hm, hn.symm⟩

theorem plugOutCount_one (hindex : index ≠ iddPlugOutAllIndex)
    (h : s.plugOutCount index forceAll forceOne = some n) : n ≤ 1 := by
  obtain ⟨-, m, -, -, rfl⟩ := plugOutCount_eq_some h
  by_cases hm : m = 0
  · rw [if_neg fun hne => hne.1 hm, hm]
    exact Nat.zero_le 1
  · exact Nat.le_of_eq (if_pos ⟨hm, hindex⟩)

theorem toPlugOutCount_eq_some {plugInCount m all : ℕ}
    (h : toPlugOutCount false plugInCount all = some m) (hm : m ≠ 0) :
    2 ≤ all ∧ m = if all = plugInCount then all - 1 else plugInCount := by
  match all, h with
  | 0, h => exact absurd (Option.some.inj h).symm hm
  | 1, h => exact absurd h (by simp [toPlugOutCount])
  | all + 2, h => exact ⟨Nat.le_add_left 2 all, (Option.some.inj h).symm⟩

theorem plugOutCount_lt (h : s.plugOutCount index false forceOne = some n) (hn : n ≠ 0)
    (hcount : index = iddPlugOutAllIndex → 2 ≤ s.allCount → s.count ≤ s.allCount) :
    2 ≤ s.allCount ∧ n < s.allCount := by
  obtain ⟨plugInCount, m, hplugIn, hm, hnm⟩ := plugOutCount_eq_some h
  have hm0 : m ≠ 0 := by
    rintro rfl
    exact hn (hnm.trans (if_neg fun hne => hne.1 rfl))
  obtain ⟨htwo, hm⟩ := toPlugOutCount_eq_some hm hm0
  refine ⟨htwo, ?_⟩
  by_cases hindex : index = iddPlugOutAllIndex
  · -- the count is not more than all, and where it is as much, one less is taken
    have hle := hcount hindex htwo
    unfold State.plugInCount at hplugIn
    rw [if_neg fun hne => hne.1 hindex] at hplugIn
    obtain rfl := Option.some.inj hplugIn
    rw [hnm, if_neg fun hne => hne.2 hindex, hm]
    split
    · exact Nat.sub_lt (Nat.lt_of_lt_of_le Nat.two_pos htwo) Nat.one_pos
    · next hne => exact Nat.lt_of_le_of_ne hle (Ne.symm hne)
  · exact Nat.lt_of_le_of_lt (plugOutCount_one hindex h) htwo

theorem plugOutCount_zero (hindex : index ≠ iddPlugOutAllIndex) (hcount : s.count = 0)
    (h : s.plugOutCount index forceAll false = some n) : s.monitorCount = 0 := by
  obtain ⟨plugInCount, m, hplugIn, -⟩ := plugOutCount_eq_some h
  unfold State.plugInCount at hplugIn
  by_contra hmonitor
  rw [if_pos ⟨hindex, hcount, Nat.pos_of_ne_zero hmonitor⟩] at hplugIn
  cases hplugIn

end State

theorem spares_of_accurate {s : State} {e : Event} (h : Accurate s e) : Sparing s e := by
  cases e with
  | plugOutMonitor index forceAll forceOne outcome =>
    obtain ⟨hlast, hforeign⟩ := h
    show Spares s (s.plugOuts outcome ((s.plugOutCount index forceAll forceOne).getD 0)) index
      forceAll forceOne
    cases hcount : s.plugOutCount index forceAll forceOne with
    | none => exact ⟨fun _ hpos => hpos, fun _ _ _ => rfl, fun _ => Nat.le_succ _⟩
    | some n =>
      obtain ⟨hphysical, hle, hge⟩ := s.plugOuts_spec outcome n
      refine ⟨?_, ?_, ?_⟩
      · rintro rfl hpos
        by_cases hn : n = 0
        · unfold State.allCount at hpos ⊢
          rw [Option.getD_some]
          omega
        · by_cases hzero : s.physical = 0
          · have hlt := State.plugOutCount_lt hcount hn fun hindex htwo =>
              hlast hindex rfl htwo hzero
            unfold State.allCount at hlt ⊢
            rw [Option.getD_some]
            omega
          · unfold State.allCount
            rw [Option.getD_some]
            omega
      · rintro rfl hindex hown
        have hnone : n = 0 ∨ s.monitorCount = 0 := by
          by_contra hsome
          rw [not_or] at hsome
          obtain ⟨hn, hmonitor⟩ := hsome
          have hothers : 0 < s.others := by
            unfold State.monitorCount at hmonitor
            omega
          -- a call that plugs out has force, or more than one display
          have hreach : 2 ≤ s.allCount ∨ forceAll := by
            cases forceAll with
            | true => exact .inr rfl
            | false =>
              refine .inl ?_
              by_contra hfew
              exact hfew (State.plugOutCount_lt hcount hn fun _ htwo => absurd htwo hfew).1
          have hzero := hforeign hindex rfl hown hothers hreach
          exact hmonitor (State.plugOutCount_zero hindex hzero hcount)
        rw [Option.getD_some]
        omega
      · intro hindex
        have hone := State.plugOutCount_one hindex hcount
        unfold State.allCount
        rw [Option.getD_some]
        omega
  | plugInHeadless | plugInMonitor | resetAll | change => trivial

/-! ### Runs -/

/-- **Every call of a run spares** what it should, if the count is accurate wherever one relies on
it. -/
theorem sparing_of_accurate (s : State) {es : List Event} (h : machine.Meets Accurate s es) :
    machine.Meets Sparing s es := h.imp fun _ _ => spares_of_accurate

theorem sparing_two : machine.Meets Sparing ⟨0, 0, 0, 0⟩ [.plugInMonitor true (.ok true),
    .plugInMonitor true (.ok true), .plugOutMonitor (-1) false false fun _ => .ok true] :=
  sparing_of_accurate _ (by decide +kernel)

/-- Nobody takes away what was plugged in here. -/
def Undisturbed (s : State) : Event → Prop
  | .change _ _ own => s.own ≤ own
  | _ => True

def State.Counted (s : State) : Prop := s.count ≤ s.own

namespace State.Counted

variable {s : State} (h : s.Counted)

include h

theorem plugIn (outcome : Outcome) : (s.plugIn outcome).Counted := by
  unfold Counted at h ⊢
  cases outcome with
  | failed => exact h
  | ok own =>
    dsimp only [State.plugIn]
    split <;> omega

/-- A display of another process may go for one that is counted, so the count only gets smaller. -/
theorem plugOut (outcome : Outcome) : (s.plugOut outcome).Counted := by
  unfold Counted at h ⊢
  cases outcome with
  | failed => exact h
  | ok own =>
    dsimp only [State.plugOut]
    split
    · exact Nat.sub_le_sub_right h 1
    · exact Nat.le_trans (Nat.sub_le _ _) h

theorem plugOuts (outcome : ℕ → Outcome) (n : ℕ) : (s.plugOuts outcome n).Counted := by
  induction n with
  | zero => exact h
  | succ n ih => exact ih.plugOut (outcome n)

theorem next {e : Event} (he : Undisturbed s e) : (machine.next s e).Counted := by
  cases e with
  | plugInHeadless ready outcome | plugInMonitor ready outcome =>
    dsimp only [Machine.next, machine]
    split
    · exact h.plugIn outcome
    · exact h
  | plugOutMonitor | resetAll => exact h.plugOuts _ _
  | change physical others own =>
    show s.count ≤ min own s.own
    rw [Nat.min_eq_right he]
    exact h

theorem accurate (e : Event) : Accurate s e := by
  unfold Counted at h
  cases e with
  | plugOutMonitor index forceAll forceOne outcome =>
    refine ⟨fun _ _ _ _ => ?_, fun _ _ hown _ _ => ?_⟩
    · unfold State.allCount State.monitorCount
      omega
    · exact Nat.le_zero.mp (hown ▸ h)
  | plugInHeadless | plugInMonitor | resetAll | change => trivial

end State.Counted

/-- **Every call spares** what it should where nobody takes away what was plugged in here, whatever
else others add and remove, and whatever the driver refuses. -/
theorem sparing_of_undisturbed {s : State} (hs : s.Counted) {es : List Event}
    (h : machine.Meets Undisturbed s es) : machine.Meets Sparing s es := fun p hp =>
  spares_of_accurate ((h.inv_trace hs fun _ _ he hs => hs.next he) p hp |>.accurate p.2)

theorem sparing_foreign : machine.Meets Sparing ⟨1, 0, 0, 0⟩ [.plugInMonitor true (.ok true),
    .change 0 2 1, .plugOutMonitor 0 false false fun _ => .ok false, .change 0 1 1,
    .plugOutMonitor (-1) false false fun _ => .ok true] :=
  sparing_of_undisturbed (s := ⟨1, 0, 0, 0⟩) (Nat.le_refl 0) <| by
    simp only [Machine.meets_cons, Machine.meets_nil, Undisturbed]
    decide

/-- Of three displays the user removes one. All are plugged out, and the last one too, without
force. -/
theorem takes_last : ¬ machine.Meets Sparing ⟨0, 0, 0, 0⟩ [.plugInMonitor true (.ok true),
    .plugInMonitor true (.ok true), .plugInMonitor true (.ok true), .change 0 0 2,
    .plugOutMonitor (-1) false false fun _ => .ok true] := by
  intro h
  have hcall := h (⟨0, 0, 2, 3⟩, .plugOutMonitor (-1) false false fun _ => .ok true) (by
    simp [Machine.trace, Machine.next, machine, State.plugIn, State.monitorCount,
      virtualDisplayMaxCount])
  exact absurd (hcall.last rfl (by decide)) (by decide)

end LibRustdesk.VirtualDisplays
