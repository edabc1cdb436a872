import LibRustdesk.Framework.Machine
import Mathlib.Data.List.FinRange
import Mathlib.Tactic.Ring

/-!
# The audio buffer of a client

`AudioBuffer` (`src/client.rs`) holds the samples that have been decoded until the device asks for
them. The channels of a format take turns, so what is taken from the front has to be a multiple of
their number: otherwise every later sample is played on the channel of another one.

Samples are taken by the device, by `append_pcm2` when the buffer would overflow, and by
`try_shrink`, which counts how full the buffer has been and drops a share of it every 12 s.

* `State.appendPcm2`, `State.tryShrink`, `State.callback` — the steps. `append_pcm` is the first two
  of them, and the device may take samples in between.
* `Aligned` — what is asked of every state. It has what was appended and what was played.
* `Careful` — a step of `try_shrink` divides by no zero, and a share that it drops is a multiple of
  the channels after it was rounded up to an even number.
* `aligned_iff` — **exactly the runs whose steps are careful stay aligned**.

A `usize` has 64 bits. `Local::now` is the environment's choice, and so is `tms`, a static that
outlives the buffers.
-/

namespace LibRustdesk.Audio

def audioBufferMs : ℕ := 3000

structure AudioBuffer (Sample : Type) where
  capacity : ℕ
  samples : List Sample
  /-- `sample_rate * channels`. -/
  perSecond : ℕ
  /-- How often the buffer was found at each tenth of a second. -/
  counts : Fin 30 → ℕ

namespace AudioBuffer

variable {Sample : Type}

def default : AudioBuffer Sample := ⟨48000 * 2 * audioBufferMs / 1000, [], 48000 * 2, fun _ => 0⟩

def resize (b : AudioBuffer Sample) (sampleRate channels : ℕ) : AudioBuffer Sample :=
  let capacity := sampleRate * channels * audioBufferMs / 1000
  if capacity ≠ b.capacity then
    { b with capacity := capacity, samples := [], perSecond := sampleRate * channels }
  else b

end AudioBuffer

/-! ### The statistics of `try_shrink` -/

/-- The loop over the counts: `zero` is the number of leading ones that are zero, and `max` the
largest so far. -/
structure Scan where
  counts : Fin 30 → ℕ
  zero : ℕ
  max : Fin 30

def Scan.step (sc : Scan) (i : Fin 30) : Scan :=
  let zero' := if sc.counts i = 0 ∧ sc.zero = i then sc.zero + 1 else sc.zero
  if sc.counts sc.max < sc.counts i then ⟨Function.update sc.counts sc.max 0, zero', i⟩
  else ⟨Function.update sc.counts i 0, zero', sc.max⟩

def scan (counts : Fin 30 → ℕ) : Scan := (List.finRange 30).foldl Scan.step ⟨counts, 0, 0⟩

def dropLevel (counts : Fin 30 → ℕ) : Option ℕ :=
  let sc := scan counts
  if sc.max < 6 then none else some (min sc.max (sc.zero * 2 / 3 * 4))

/-- `(cap * max / (30 * N) + 1) & (!1)`. -/
def share (capacity level : ℕ) : ℕ := (capacity * level / (30 * 4) + 1) / 2 * 2

/-! ### Steps -/

structure State (Sample : Type) extends AudioBuffer Sample where
  tms : ℤ
  /-- `having`, between the two halves of `append_pcm`. -/
  having : Option ℕ := none
  panicked : Bool := false
  /-- All that was appended and all that was played, and how many were taken from the front. -/
  appended : List Sample := []
  played : List Sample := []
  removed : List ℕ := []

namespace State

variable {Sample : Type} (s : State Sample)

def start (tms : ℤ) (sampleRate channels : ℕ) : State Sample :=
  { AudioBuffer.default.resize sampleRate channels with tms := tms }

/-- `push_slice_overwrite` keeps the last samples that fit in, also of a slice that does not. -/
def appendPcm2 (slice : List Sample) : State Sample :=
  let having := s.samples.length + slice.length
  { s with
    samples := (s.samples ++ slice).drop (having - s.capacity)
    having := some (min having s.capacity)
    appended := s.appended ++ slice
    removed := (having - s.capacity) :: s.removed }

/-- The device takes what it asks for, or all there is. -/
def callback (n : ℕ) : State Sample :=
  let n := min n s.samples.length
  { s with
    samples := s.samples.drop n
    played := s.played ++ s.samples.take n
    removed := n :: s.removed }

def level (having : ℕ) : Fin 30 := ⟨min (having * 10 / s.perSecond) 29, by omega⟩

def counted (having : ℕ) : Fin 30 → ℕ :=
  Function.update s.counts (s.level having) (s.counts (s.level having) + 1)

def due (now : ℤ) : Bool := s.tms ≠ 0 && s.tms + 12000 ≤ now

def skip (n : ℕ) : State Sample :=
  { s with samples := s.samples.drop n, removed := n :: s.removed }

def tryShrink (having : ℕ) (now : ℤ) : State Sample :=
  if s.perSecond = 0 ∨ 2 ^ 64 ≤ s.counts (s.level having) + 1 then { s with panicked := true }
  else
    let counts := s.counted having
    if s.due now then
      let sc := scan counts
      let s' := { s with counts := Function.update sc.counts sc.max 0, tms := now }
      match dropLevel counts with
      | none => s'
      | some level =>
        let n := share s.capacity level
        if n * 3 < s.samples.length ∧ 0 < n then s'.skip n else s'
    else { s with counts := counts, tms := if s.tms = 0 then now else s.tms }

end State

/-- A slice has all samples of its frames, and the device asks for whole frames. -/
inductive Event (Sample : Type) (channels : ℕ)
  | appendPcm2 (slice : { l : List Sample // channels ∣ l.length })
  | tryShrink (now : ℤ)
  | callback (n : { n : ℕ // channels ∣ n })

def machine (Sample : Type) (channels : ℕ) :
    Machine (State Sample) (Event Sample channels) Empty where
  step s
    | .appendPcm2 slice =>
      (if s.panicked || s.having.isSome then s else s.appendPcm2 slice, [])
    | .tryShrink now =>
      (match s.having with
        | none => s
        | some having =>
          if s.panicked then s else { s.tryShrink having now with having := none }, [])
    | .callback n => (s.callback n, [])

/-! ### What is asked for -/

/-- The first sample in the buffer is of the first channel. -/
structure Aligned {Sample : Type} (channels : ℕ) (s : State Sample) : Prop where
  removed : ∀ n ∈ s.removed, channels ∣ n
  first : channels ∣ s.appended.length - s.samples.length
  suffix : s.samples <:+ s.appended
  bounded : s.samples.length ≤ s.capacity
  played : s.played.Sublist s.appended
  noPanic : s.panicked = false
  inRange : s.capacity * 30 < 2 ^ 64 ∧ ∀ having ∈ s.having, having * 10 < 2 ^ 64

/-- `try_shrink` divides by no zero, counts in range, and drops a multiple of the channels. -/
def Careful {Sample : Type} (channels : ℕ) (s : State Sample) : Event Sample channels → Prop
  | .tryShrink now => ∀ having ∈ s.having,
      s.perSecond ≠ 0 ∧ s.counts (s.level having) + 1 < 2 ^ 64 ∧
        (s.due now = true → ∀ level, dropLevel (s.counted having) = some level →
          share s.capacity level * 3 < s.samples.length → channels ∣ share s.capacity level)
  | _ => True

/-! ### The invariant -/

structure Inv {Sample : Type} (channels : ℕ) (s : State Sample) : Prop where
  capacity : channels ∣ s.capacity
  range : s.capacity * 30 < 2 ^ 64
  appended : channels ∣ s.appended.length
  split : ∃ gone, s.appended = gone ++ s.samples ∧ s.played.Sublist gone
  bounded : s.samples.length ≤ s.capacity
  having : ∀ having ∈ s.having, having ≤ s.capacity

namespace Inv

variable {Sample : Type} {channels : ℕ} {s : State Sample}

theorem aligned_iff_removed (h : Inv channels s) : Aligned channels s ↔
    (∀ n ∈ s.removed, channels ∣ n) ∧ channels ∣ s.samples.length ∧ s.panicked = false := by
  obtain ⟨gone, hsplit, hplayed⟩ := h.split
  have hlen : s.appended.length = gone.length + s.samples.length := by
    rw [hsplit, List.length_append]
  have hfirst : channels ∣ s.appended.length - s.samples.length ↔ channels ∣ s.samples.length := by
    have hgone : s.appended.length - s.samples.length = gone.length := by omega
    rw [hgone]
    have hsum := h.appended
    rw [hlen] at hsum
    exact ⟨fun hdvd => (Nat.dvd_add_right hdvd).mp hsum,
      fun hdvd => (Nat.dvd_add_left hdvd).mp hsum⟩
  constructor
  · intro ha
    exact ⟨ha.removed, hfirst.mp ha.first, ha.noPanic⟩
  · rintro ⟨hremoved, hsamples, hpanic⟩
    refine ⟨hremoved, hfirst.mpr hsamples, ⟨gone, hsplit.symm⟩, h.bounded, ?_, hpanic, h.range, ?_⟩
    · rw [hsplit]
      exact hplayed.trans (List.sublist_append_left gone s.samples)
    · intro having hmem
      have hle := h.having having hmem
      have hrange := h.range
      omega

variable {s' : State Sample}

theorem drop (h : Inv channels s) (n : ℕ) (hcap : s'.capacity = s.capacity)
    (happ : s'.appended = s.appended) (hhav : ∀ having ∈ s'.having, having ∈ s.having)
    (hsam : s'.samples = s.samples.drop n)
    (hplay : s'.played = s.played ∨ s'.played = s.played ++ s.samples.take n) :
    Inv channels s' := by
  obtain ⟨gone, hsplit, hplayed⟩ := h.split
  refine ⟨hcap ▸ h.capacity, hcap ▸ h.range, happ ▸ h.appended,
    ⟨gone ++ s.samples.take n, ?_, ?_⟩, ?_, ?_⟩
  · rw [happ, hsam, List.append_assoc, List.take_append_drop, hsplit]
  · rcases hplay with heq | heq
    · rw [heq]
      exact hplayed.trans (List.sublist_append_left gone _)
    · rw [heq]
      exact hplayed.append (List.Sublist.refl _)
  · rw [hcap, hsam, List.length_drop]
    exact (Nat.sub_le _ _).trans h.bounded
  · intro having hmem
    rw [hcap]
    exact h.having having (hhav having hmem)

theorem keep (h : Inv channels s) (hcap : s'.capacity = s.capacity)
    (happ : s'.appended = s.appended) (hhav : ∀ having ∈ s'.having, having ∈ s.having)
    (hsam : s'.samples = s.samples) (hplay : s'.played = s.played) : Inv channels s' :=
  h.drop 0 hcap happ hhav hsam (.inl hplay)

theorem appendPcm2 (h : Inv channels s) {slice : List Sample} (hslice : channels ∣ slice.length) :
    Inv channels (s.appendPcm2 slice) := by
  obtain ⟨gone, hsplit, hplayed⟩ := h.split
  unfold State.appendPcm2
  refine ⟨h.capacity, h.range, ?_, ⟨gone ++ (s.samples ++ slice).take
    (s.samples.length + slice.length - s.capacity), ?_, ?_⟩, ?_, ?_⟩
  · rw [List.length_append]
    exact Nat.dvd_add h.appended hslice
  · rw [List.append_assoc, List.take_append_drop, hsplit, List.append_assoc]
  · exact hplayed.trans (List.sublist_append_left gone _)
  · dsimp only
    rw [List.length_drop, List.length_append]
    omega
  · intro having hmem
    obtain rfl := Option.some.inj hmem
    exact Nat.min_le_right _ _

theorem tryShrink (h : Inv channels s) (having : ℕ) (now : ℤ) :
    Inv channels (s.tryShrink having now) := by
  unfold State.tryShrink
  split
  · exact h.keep rfl rfl (fun _ hmem => hmem) rfl rfl
  · dsimp only
    split
    · split
      · exact h.keep rfl rfl (fun _ hmem => hmem) rfl rfl
      · split
        · exact h.drop _ rfl rfl (fun _ hmem => hmem) rfl (.inl rfl)
        · exact h.keep rfl rfl (fun _ hmem => hmem) rfl rfl
    · exact h.keep rfl rfl (fun _ hmem => hmem) rfl rfl

theorem next (h : Inv channels s) (e : Event Sample channels) :
    Inv channels ((machine Sample channels).next s e) := by
  cases e with
  | appendPcm2 slice =>
    dsimp only [Machine.next, machine]
    split
    · exact h
    · exact h.appendPcm2 slice.2
  | tryShrink now =>
    dsimp only [Machine.next, machine]
    split
    · exact h
    · split
      · exact h
      · exact (h.tryShrink _ now).keep rfl rfl (fun _ hmem => absurd hmem (by simp)) rfl rfl
  | callback n => exact h.drop _ rfl rfl (fun _ hmem => hmem) rfl (.inr rfl)

/-! ### One step -/

theorem aligned_take (h : Inv channels s) (ha : Aligned channels s)
    (h' : Inv channels s') {n : ℕ} (hsam : s'.samples = s.samples.drop n)
    (hrem : s'.removed = n :: s.removed) (hpanic : s'.panicked = s.panicked) :
    Aligned channels s' ↔ channels ∣ n := by
  obtain ⟨hremoved, hsamples, hno⟩ := h.aligned_iff_removed.mp ha
  rw [h'.aligned_iff_removed, hrem, hsam, hpanic, List.forall_mem_cons, List.length_drop]
  constructor
  · intro hall
    exact hall.1.1
  · intro hdvd
    exact ⟨⟨hdvd, hremoved⟩, Nat.dvd_sub hsamples hdvd, hno⟩

theorem aligned_keep (h : Inv channels s) (ha : Aligned channels s)
    (h' : Inv channels s') (hsam : s'.samples = s.samples) (hrem : s'.removed = s.removed)
    (hpanic : s'.panicked = s.panicked) : Aligned channels s' := by
  rw [h'.aligned_iff_removed, hrem, hsam, hpanic]
  exact h.aligned_iff_removed.mp ha

theorem aligned_appendPcm2 (h : Inv channels s) (ha : Aligned channels s) {slice : List Sample}
    (hslice : channels ∣ slice.length) : Aligned channels (s.appendPcm2 slice) := by
  obtain ⟨hremoved, hsamples, hno⟩ := h.aligned_iff_removed.mp ha
  have hhaving := Nat.dvd_add hsamples hslice
  refine (h.appendPcm2 hslice).aligned_iff_removed.mpr ⟨?_, ?_, hno⟩
  · exact List.forall_mem_cons.mpr ⟨Nat.dvd_sub hhaving h.capacity, hremoved⟩
  · dsimp only [State.appendPcm2]
    rw [List.length_drop, List.length_append]
    exact Nat.dvd_sub hhaving (Nat.dvd_sub hhaving h.capacity)

theorem aligned_tryShrink (h : Inv channels s) (ha : Aligned channels s) {having : ℕ}
    (hhaving : s.having = some having) (now : ℤ) :
    Aligned channels { s.tryShrink having now with having := none } ↔
      Careful channels s (.tryShrink now) := by
  have h' : Inv channels { s.tryShrink having now with having := none } :=
    (h.tryShrink having now).keep rfl rfl (fun _ hmem => absurd hmem (by simp)) rfl rfl
  have hcareful : Careful channels s (.tryShrink now) ↔ s.perSecond ≠ 0 ∧
      s.counts (s.level having) + 1 < 2 ^ 64 ∧
        (s.due now = true → ∀ level, dropLevel (s.counted having) = some level →
          share s.capacity level * 3 < s.samples.length → channels ∣ share s.capacity level) := by
    unfold Careful
    rw [hhaving]
    simp only [Option.mem_def, Option.some.injEq, forall_eq']
  rw [hcareful]
  unfold State.tryShrink at h' ⊢
  split at h'
  · next hpanic =>
    rw [if_pos hpanic]
    refine iff_of_false (fun ha' => Bool.false_ne_true ha'.noPanic.symm) ?_
    rintro ⟨hzero, hrange, -⟩
    omega
  · next hok =>
    rw [if_neg hok]
    dsimp only at h' ⊢
    have hguards : s.perSecond ≠ 0 ∧ s.counts (s.level having) + 1 < 2 ^ 64 := by omega
    rw [and_iff_right hguards.1, and_iff_right hguards.2]
    split at h'
    · next hdue =>
      rw [if_pos hdue]
      rw [forall_prop_of_true hdue]
      cases hlevel : dropLevel (s.counted having) with
      | none =>
        rw [hlevel] at h'
        refine iff_of_true (h.aligned_keep ha h' rfl rfl rfl) ?_
        intro level hsome
        cases hsome
      | some level =>
        rw [hlevel] at h'
        dsimp only at h' ⊢
        split at h'
        · next hdrop =>
          rw [if_pos hdrop]
          rw [h.aligned_take ha h' rfl rfl rfl]
          constructor
          · intro hdvd other heq _
            obtain rfl := Option.some.inj heq
            exact hdvd
          · intro hall
            exact hall level rfl hdrop.1
        · next hdrop =>
          rw [if_neg hdrop]
          refine iff_of_true (h.aligned_keep ha h' rfl rfl rfl) ?_
          intro other heq hroom
          obtain rfl := Option.some.inj heq
          -- a share of nothing
          have hzero : share s.capacity level = 0 := by
            by_contra hne
            exact hdrop ⟨hroom, Nat.pos_of_ne_zero hne⟩
          rw [hzero]
          exact dvd_zero channels
    · next hdue =>
      rw [if_neg hdue]
      exact iff_of_true (h.aligned_keep ha h' rfl rfl rfl) fun hd => absurd hd hdue

theorem aligned_next (h : Inv channels s) (ha : Aligned channels s) (e : Event Sample channels) :
    Aligned channels ((machine Sample channels).next s e) ↔ Careful channels s e := by
  cases e with
  | appendPcm2 slice =>
    refine iff_of_true ?_ trivial
    dsimp only [Machine.next, machine]
    split
    · exact ha
    · exact h.aligned_appendPcm2 ha slice.2
  | tryShrink now =>
    dsimp only [Machine.next, machine]
    cases hhaving : s.having with
    | none =>
      refine iff_of_true ha ?_
      intro having hmem
      rw [hhaving] at hmem
      cases hmem
    | some having =>
      dsimp only
      rw [if_neg (by rw [ha.noPanic]; exact Bool.false_ne_true)]
      exact h.aligned_tryShrink ha hhaving now
  | callback n =>
    refine iff_of_true ?_ trivial
    have hsamples := (h.aligned_iff_removed.mp ha).2.1
    refine (h.aligned_take ha (h.next (.callback n)) rfl rfl rfl).mpr ?_
    rcases Nat.le_total n.1 s.samples.length with hle | hle
    · rw [Nat.min_eq_left hle]
      exact n.2
    · rw [Nat.min_eq_right hle]
      exact hsamples

end Inv

/-! ### Runs -/

theorem capacity_start (Sample : Type) (tms : ℤ) (r c : ℕ) :
    (State.start tms r c : State Sample).capacity = r * c * 3 ∧
      (State.start tms r c : State Sample).samples = [] := by
  have hcap : r * c * audioBufferMs / 1000 = r * c * 3 := by
    unfold audioBufferMs
    omega
  dsimp only [State.start, AudioBuffer.resize]
  split
  · exact ⟨hcap, rfl⟩
  · next heq =>
    rw [not_not, hcap] at heq
    exact ⟨heq.symm, rfl⟩

theorem inv_start (Sample : Type) (tms : ℤ) (r : UInt32) (c : UInt16) :
    Inv c.toNat (State.start tms r.toNat c.toNat : State Sample) := by
  obtain ⟨hcap, hsamples⟩ := capacity_start Sample tms r.toNat c.toNat
  have hbound : r.toNat * c.toNat ≤ 4294967296 * 65536 :=
    Nat.mul_le_mul r.toNat_lt.le c.toNat_lt.le
  refine ⟨?_, ?_, dvd_zero _, ⟨[], ?_, List.Sublist.refl _⟩, ?_, ?_⟩
  · rw [hcap]
    exact dvd_mul_of_dvd_left (dvd_mul_left c.toNat r.toNat) 3
  · rw [hcap]
    omega
  · rw [hsamples]
    rfl
  · rw [hsamples]
    exact Nat.zero_le _
  · intro having hmem
    cases hmem

/-- **Exactly the runs that stay aligned.** Whatever is appended, asked for and dropped, in whatever
order, every state is aligned exactly when every step of `try_shrink` is careful. -/
theorem aligned_iff {Sample : Type} (tms : ℤ) (r : UInt32) (c : UInt16)
    (es : List (Event Sample c.toNat)) :
    (∀ pre, pre <+: es → Aligned c.toNat
        ((machine Sample c.toNat).run (State.start tms r.toNat c.toNat) pre)) ↔
      (machine Sample c.toNat).Meets (Careful c.toNat) (State.start tms r.toNat c.toNat) es := by
  have hinv := inv_start Sample tms r c
  refine Machine.meets_iff_inv (I := Aligned c.toNat) (J := Inv c.toNat) ?_ hinv
    (fun _ e h => h.next e) (fun _ e h ha => h.aligned_next ha e)
  refine hinv.aligned_iff_removed.mpr ⟨fun n hmem => absurd hmem List.not_mem_nil, ?_, rfl⟩
  rw [(capacity_start Sample tms r.toNat c.toNat).2]
  exact dvd_zero _

/-- **Samples are played in order**, in every run: none of those that are held has been played, all
that came after them are held too, and the buffer never has more than its capacity. -/
theorem plays_in_order {Sample : Type} (tms : ℤ) (r : UInt32) (c : UInt16)
    (es : List (Event Sample c.toNat)) :
    ∃ s, (machine Sample c.toNat).run (State.start tms r.toNat c.toNat) es = s ∧
      s.samples.length ≤ s.capacity ∧
        ∃ gone, s.appended = gone ++ s.samples ∧ s.played.Sublist gone := by
  have hinv := (machine Sample c.toNat).inv_run (I := Inv c.toNat) (inv_start Sample tms r c)
    (fun _ e h => h.next e) es
  exact ⟨_, rfl, hinv.bounded, hinv.split⟩

/-- Three channels, and a buffer that is found over a half full twice, 12 s apart: two samples of a
frame are dropped, and the third one is the first to be played. -/
theorem swapped : ¬ ∀ pre, pre <+: [.appendPcm2 ⟨List.replicate 9 0, by decide⟩, .tryShrink 1,
      .appendPcm2 ⟨[], by decide⟩, .tryShrink 12001] →
    Aligned 3 ((machine ℕ 3).run (State.start 0 4 3) pre) := by
  intro h
  have hremoved := (h _ (List.prefix_refl _)).removed 2 (by decide +kernel)
  exact absurd hremoved (by decide)

end LibRustdesk.Audio
