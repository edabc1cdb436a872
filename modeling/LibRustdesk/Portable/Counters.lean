import LibRustdesk.Framework.Machine
import LibRustdesk.Framework.RunLength
import Mathlib.Algebra.Order.Ring.Int
import Mathlib.Algebra.Ring.Divisibility.Basic
import Mathlib.Tactic.Ring

/-!
# The counters of the shared memory

The portable service and the process that it works for share a piece of memory. What the service
writes there (a frame, or where the cursor is) has two words beside it: the service counts the first
one up when it has written, and the reader copies the first word over the second one when it has
seen that they differ.

A word counts from 0 to 2 ^ 31 - 1 and starts again. When the service comes round to the number that
was read last, the second word would be the same as the first one although much has been written.
`increase_counter` has a step against that, which is to put the second word one behind. It compares
with the second word, and reads the first one for it: so the step is never taken
(`increaseCounter_eq`).

* `counters` — the calls of the two sides, one after the other.
* `Lag` — how far the first word is before the second one, **modulo** 2 ^ 31.
* `published_iff` — **what is written is seen** in the runs without 2 ^ 31 writes in a row.
-/

namespace LibRustdesk.Desktop.Portable

/-- The words at `ADDR_CURSOR_COUNTER` or at `ADDR_CAPTURE_FRAME_COUNTER`. -/
structure Counters where
  /-- The word at `counter`. -/
  write : Int32
  /-- The word at `counter + size_of::<i32>()`. -/
  read : Int32
deriving DecidableEq, Repr

def Counters.zero : Counters := ⟨0, 0⟩

/-- `counter_ready`: its result, and the words after it. -/
def counterReady (counter : Counters) : Bool × Counters :=
  let iw := counter.write
  let ir := counter.read
  if ir ≠ iw then (true, { counter with read := iw }) else (false, counter)

def counterEqual (counter : Counters) : Bool :=
  let iw := counter.write
  let ir := counter.read
  iw == ir

def increaseCounter (counter : Counters) : Counters :=
  let iw := counter.write
  -- `ptr_to_i32(counter)` once more, and not that of `rptr`
  let ir := counter.write
  let iwPlus1 := if iw = Int32.maxValue then 0 else iw + 1
  if ir = iwPlus1 then ⟨iwPlus1, iw⟩ else { counter with write := iwPlus1 }

/-! ### One call -/

def period : ℕ := 2 ^ 31

theorem period_pos : 0 < period := by decide

/-- The word that comes after `iw`. -/
def following (iw : Int32) : Int32 := if iw = Int32.maxValue then 0 else iw + 1

theorem following_of_max : following Int32.maxValue = 0 := rfl

theorem toInt_lt_period (w : Int32) : w.toInt < period := Int32.toInt_lt w

variable {iw : Int32}

theorem toInt_following (hpos : 0 ≤ iw.toInt) (hmax : iw ≠ Int32.maxValue) :
    (following iw).toInt = iw.toInt + 1 := by
  have hne : iw.toInt ≠ 2 ^ 31 - 1 := fun h => hmax (Int32.toInt_inj.mp h)
  have hlt := Int32.toInt_lt iw
  unfold following
  rw [if_neg hmax, Int32.toInt_add]
  have hone : (1 : Int32).toInt = 1 := rfl
  rw [hone, Int.bmod_eq_of_le]
  all_goals omega

theorem following_ne (hpos : 0 ≤ iw.toInt) : iw ≠ following iw := by
  intro h
  by_cases hmax : iw = Int32.maxValue
  · rw [hmax, following_of_max] at h
    exact absurd h (by decide)
  · have hnext := toInt_following hpos hmax
    rw [← h] at hnext
    omega

variable {counter : Counters}

theorem increaseCounter_eq (hpos : 0 ≤ counter.write.toInt) :
    increaseCounter counter = { counter with write := following counter.write } :=
  if_neg (following_ne hpos)

theorem counterReady_snd (counter : Counters) :
    (counterReady counter).2 = { counter with read := counter.write } := by
  unfold counterReady
  dsimp only
  split_ifs with h
  · rfl
  · have heq : counter.read = counter.write := not_not.mp h
    exact congrArg (Counters.mk counter.write) heq

theorem counterReady_fst (counter : Counters) :
    (counterReady counter).1 = true ↔ counter.write ≠ counter.read := by
  unfold counterReady
  dsimp only
  split_ifs with h
  · exact iff_of_true rfl h.symm
  · exact iff_of_false (by simp) fun hne => h hne.symm

/-! ### Any calls -/

inductive CounterCall where
  | increaseCounter
  | counterReady
deriving DecidableEq, Repr

def counters : Machine Counters CounterCall Bool where
  step counter call :=
    match call with
    | .increaseCounter => (increaseCounter counter, [])
    | .counterReady => ((counterReady counter).2, [(counterReady counter).1])

/-- How often the service has written since the reader has looked. -/
abbrev unread (calls : List CounterCall) : ℕ := runLength .increaseCounter calls

/-- The first word is as far before the second one as there is unread, **modulo** the period. -/
structure Lag (calls : List CounterCall) (counter : Counters) : Prop where
  write_nonneg : 0 ≤ counter.write.toInt
  read_nonneg : 0 ≤ counter.read.toInt
  lag : (period : ℤ) ∣ counter.write.toInt - counter.read.toInt - unread calls

theorem Lag.zero : Lag [] .zero := ⟨Int.le_refl 0, Int.le_refl 0, ⟨0, rfl⟩⟩

variable {calls : List CounterCall}

theorem Lag.eq_iff (h : Lag calls counter) :
    counter.write = counter.read ↔ period ∣ unread calls := by
  rw [← Int.natCast_dvd_natCast]
  constructor
  · intro heq
    have hlag := h.lag
    rw [heq, sub_self, zero_sub] at hlag
    exact (Int.dvd_neg).mp hlag
  · intro hdvd
    have hdiff : (period : ℤ) ∣ counter.write.toInt - counter.read.toInt :=
      (Int.dvd_iff_dvd_of_dvd_sub h.lag).mpr hdvd
    -- two numbers of a counter are less than the period apart
    have hlt : |counter.write.toInt - counter.read.toInt| < period := by
      have hw := toInt_lt_period counter.write
      have hr := toInt_lt_period counter.read
      have hw0 := h.write_nonneg
      have hr0 := h.read_nonneg
      rw [abs_lt]
      constructor <;> omega
    exact Int32.toInt_inj.mp (sub_eq_zero.mp (Int.eq_zero_of_abs_lt_dvd hdiff hlt))

theorem toInt_following_nonneg (hpos : 0 ≤ iw.toInt) : 0 ≤ (following iw).toInt := by
  by_cases hmax : iw = Int32.maxValue
  · rw [hmax, following_of_max]
    decide
  · rw [toInt_following hpos hmax]
    exact Int.le_add_one hpos

theorem dvd_following (hpos : 0 ≤ iw.toInt) :
    (period : ℤ) ∣ (following iw).toInt - (iw.toInt + 1) := by
  by_cases hmax : iw = Int32.maxValue
  · rw [hmax, following_of_max]
    decide
  · rw [toInt_following hpos hmax, sub_self]
    exact dvd_zero _

theorem Lag.next_increase (h : Lag calls counter) : Lag (calls ++ [.increaseCounter])
    (increaseCounter counter) := by
  rw [increaseCounter_eq h.write_nonneg]
  refine ⟨toInt_following_nonneg h.write_nonneg, h.read_nonneg, ?_⟩
  rw [unread, runLength_concat_self]
  have hsum := dvd_add (dvd_following h.write_nonneg) h.lag
  have heq : ((following counter.write).toInt - counter.read.toInt -
      (runLength CounterCall.increaseCounter calls + 1 : ℕ)) =
      (following counter.write).toInt - (counter.write.toInt + 1) +
        (counter.write.toInt - counter.read.toInt - unread calls) := by
    push_cast
    ring
  exact heq ▸ hsum

theorem Lag.next_ready
    (h : Lag calls counter) : Lag (calls ++ [.counterReady]) (counterReady counter).2 := by
  rw [counterReady_snd]
  refine ⟨h.write_nonneg, h.write_nonneg, ?_⟩
  rw [unread, runLength_concat_of_ne (by decide)]
  exact ⟨0, by simp⟩

theorem lag_run (calls : List CounterCall) : Lag calls (counters.run .zero calls) := by
  refine counters.inv_history Lag.zero (fun past counter call h => ?_) calls
  cases call with
  | increaseCounter => exact h.next_increase
  | counterReady => exact h.next_ready

/-- After a call of the service the words differ, and `counter_ready` is true. -/
def Published (counter : Counters) : CounterCall → Prop
  | .increaseCounter =>
    (increaseCounter counter).write ≠ (increaseCounter counter).read ∧
      (counterReady (increaseCounter counter)).1 = true
  | .counterReady => True

theorem published_increase_iff (h : Lag calls counter) : Published counter .increaseCounter ↔ ¬
    period ∣ unread calls + 1 := by
  have hnext := h.next_increase.eq_iff
  rw [unread, runLength_concat_self] at hnext
  rw [← hnext]
  constructor
  · exact And.left
  · intro hne
    exact ⟨hne, (counterReady_fst _).mpr hne⟩

/-- **What is written is seen**: it is never taken for what has been read before, unless there are
2 ^ 31 calls of `increase_counter` in a row. -/
theorem published_iff (calls : List CounterCall) :
    counters.Meets Published .zero calls ↔
      ¬ List.replicate period .increaseCounter <:+: calls := by
  rw [← forall_not_dvd_iff period_pos]
  constructor
  · rintro h pre post rfl
    have hstep := h _ (counters.mem_trace_split .zero pre .increaseCounter post)
    exact (published_increase_iff (lag_run pre)).mp hstep
  · intro h step hstep
    obtain ⟨pre, post, hcalls, hrun⟩ := counters.exists_split_of_mem_trace hstep
    obtain ⟨counter, call⟩ := step
    cases call with
    | counterReady => trivial
    | increaseCounter =>
      rw [← hrun, published_increase_iff (lag_run pre)]
      exact h pre post hcalls

/-- 2 ^ 31 frames without a look at them: the words are the same again, and `counter_ready` says
that nothing is new. -/
theorem full_round_lost :
    (counterReady (counters.run .zero (List.replicate period .increaseCounter))).1 = false ∧
      ¬ counters.Meets Published .zero (List.replicate period .increaseCounter) := by
  have hrun : ∀ n, unread (List.replicate n .increaseCounter) = n := by
    intro n
    have h := runLength_append_replicate (a := CounterCall.increaseCounter) [] n
    rw [List.nil_append, runLength_nil, Nat.zero_add] at h
    exact h
  have heq := (lag_run (List.replicate period .increaseCounter)).eq_iff
  rw [hrun] at heq
  refine ⟨?_, fun h => ?_⟩
  · rw [← Bool.not_eq_true, counterReady_fst]
    exact fun hne => hne (heq.mpr dvd_rfl)
  · -- the last of the calls is the one whose frame is lost
    have hsplit : List.replicate period CounterCall.increaseCounter =
        List.replicate (period - 1) .increaseCounter ++ [.increaseCounter] := by
      rw [← List.replicate_succ', Nat.sub_add_cancel period_pos]
    rw [hsplit, Machine.meets_append] at h
    have hlast := (published_increase_iff (lag_run _)).mp (Machine.meets_cons.mp h.2).1
    rw [hrun, Nat.sub_add_cancel period_pos] at hlast
    exact hlast dvd_rfl

end LibRustdesk.Desktop.Portable
