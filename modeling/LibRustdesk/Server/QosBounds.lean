import LibRustdesk.Framework.Indexed
import LibRustdesk.Server.VideoQos

/-!
# Bounds of the quality of service

What holds of the video's frame rate and bitrate ratio, whatever the peers ask for and whenever they
answer.

* `VideoQos.Within`, `VideoQos.Inv` — the limits of a user are valid, and the frame rate is.
* `VideoQos.Fits` — the sums that a call computes are numbers of their types: those of the delays
  that are averaged, that of the bitrate and 150, and that of what a display has sent.
* `VideoQos.step_isSome_iff` — a call panics exactly where they are not, if overflows are
  checked for.
* `VideoQos.sound_iff_fits` — **along a run the frame rate keeps to its bounds and to the limits of
  all users, and no arithmetic fails, exactly when what every call computes fits.**
-/

namespace LibRustdesk

namespace VideoQos

variable {checks linux : Bool}

/-! ### Integers -/

theorem unsigned_of_lt {limit n : ℕ} (h : n < limit) : unsigned checks limit n = some n := if_pos h

theorem unsigned_isSome_iff (checks : Bool) (limit n : ℕ) :
    (unsigned checks limit n).isSome = true ↔ (checks = true → n < limit) := by
  unfold unsigned
  by_cases h : n < limit
  · rw [if_pos h]
    exact ⟨fun _ _ => h, fun _ => rfl⟩
  · rw [if_neg h]
    cases checks with
    | false => exact ⟨fun _ hc => absurd hc Bool.false_ne_true, fun _ => rfl⟩
    | true => exact ⟨fun hs => absurd hs Bool.false_ne_true, fun hlt => absurd (hlt rfl) h⟩

theorem u32Div_of_pos {m n : ℕ} (h : 0 < n) : u32Div m n = some (m / n) := if_neg h.ne'

theorem u32Sub_of_le {m n : ℕ} (h : n ≤ m) : u32Sub checks m n = some (m - n) := if_pos h

theorem u32Clamp_of_le {n lo hi : ℕ} (h : lo ≤ hi) : u32Clamp n lo hi = some (min (max n lo) hi) :=
  if_pos h

end VideoQos

open VideoQos

/-! ### Delays -/

namespace UserDelay

variable {checks : Bool}

theorem avgDelay_isSome_iff (checks : Bool) (d : UserDelay) :
    (d.avgDelay checks).isSome = true ↔ (checks = true → d.delayHistory.sum < 4294967296) := by
  rw [← unsigned_isSome_iff]
  unfold avgDelay u32
  by_cases hlen : 0 < d.delayHistory.length
  · rw [if_pos hlen]
    cases unsigned checks 4294967296 d.delayHistory.sum with
    | none => exact Iff.rfl
    | some sum =>
      refine iff_of_true ?_ rfl
      dsimp only [bind, Option.bind]
      rw [u32Div_of_pos hlen]
      generalize sum / d.delayHistory.length = avg
      cases d.rttCalculator.getRtt with
      | none => rfl
      | some rtt =>
        dsimp only
        by_cases hrtt : avg > rtt
        · rw [if_pos hrtt, u32Sub_of_le hrtt.le]
          rfl
        · rw [if_neg hrtt]
          rfl
  · have hnil : d.delayHistory = [] := List.eq_nil_of_length_eq_zero (by omega)
    rw [if_neg hlen, hnil]
    exact iff_of_true rfl rfl

theorem increasedFps_spec (checks : Bool) (minFps normalFps oldAvg avg : ℕ) {fps quick : ℕ}
    (hfps : fps ≤ 120) (hquick : quick < 3) :
    ∃ fps' quick', increasedFps checks minFps normalFps fps oldAvg avg quick = some (fps', quick') ∧
      fps ≤ fps' ∧ fps' ≤ max minFps 125 ∧ quick' < 3 := by
  have hadd {n : ℕ} (hn : n ≤ 5) : u32 checks (fps + n) = some (fps + n) :=
    unsigned_of_lt (by omega)
  unfold increasedFps
  split
  · have hcount : usize checks (quick + 1) = some (quick + 1) := unsigned_of_lt (by omega)
    have hstep : (if 3 ≤ quick + 1 then 5 else if fps < normalFps then 1 else 0) ≤ 5 := by
      split_ifs <;> decide
    rw [hcount]
    dsimp only [bind, Option.bind]
    rw [hadd hstep]
    refine ⟨_, _, rfl, ?_, ?_, ?_⟩
    · exact le_trans (Nat.le_add_right fps _) (le_max_right minFps _)
    · exact max_le_max_left minFps (by omega)
    · split <;> omega
  · split
    · have hstep : (if avg < oldAvg ∧ fps < normalFps then 1 else 0) ≤ 5 := by split_ifs <;> decide
      rw [hadd hstep]
      refine ⟨_, _, rfl, ?_, ?_, hquick⟩
      · exact le_trans (Nat.le_add_right fps _) (le_max_right minFps _)
      · exact max_le_max_left minFps (by omega)
    · exact ⟨_, _, rfl, le_max_right minFps fps, max_le_max_left minFps (by omega), hquick⟩

theorem decreasedFps_isSome (minFps dividendMs fps : ℕ) {avg : ℕ} (h : 0 < avg) :
    ∃ fps', decreasedFps minFps dividendMs fps avg = some fps' := by
  unfold decreasedFps
  rw [u32Div_of_pos h]
  split
  · exact ⟨_, rfl⟩
  · split
    · exact ⟨_, rfl⟩
    · split
      · exact ⟨_, rfl⟩
      · exact ⟨_, rfl⟩

def Counting (d : UserDelay) : Prop := d.quickIncreaseFpsCount < 3 ∧ d.increaseFpsCount < 3

variable {d : UserDelay}

theorem addDelay_counting (h : d.Counting) (delay : ℕ) :
    (d.addDelay delay).Counting := h

/-- **What `user_network_delay` does to a user**, by the average delay that results. A bad network
gives the frame rate of its delay; a good one does not lower the frame rate; both within the
limits. -/
theorem onNetworkDelay_spec (normalFps dividendMs : ℕ) {minFps highestFps fps : ℕ}
    {delay old avg : ℕ} (hmin : minFps ≤ 120) (hfps : fps ≤ 120) (hhigh : MIN_FPS ≤ highestFps)
    (hcount : d.Counting) (hold : d.avgDelay checks = some old)
    (havg : (d.addDelay (max delay 10)).avgDelay checks = some avg) :
    ∃ fps' quick count, d.onNetworkDelay checks minFps normalFps dividendMs highestFps fps delay =
        some { d.addDelay (max delay 10) with
          fps := some fps', quickIncreaseFpsCount := quick, increaseFpsCount := count } ∧
      quick < 3 ∧ count < 3 ∧
      (avg < DELAY_THRESHOLD_150MS → min fps highestFps ≤ fps') ∧
      (DELAY_THRESHOLD_150MS ≤ avg → ∃ f, decreasedFps minFps dividendMs fps avg = some f ∧
        fps' = min (max f MIN_FPS) highestFps) := by
  obtain ⟨hquick, hcount⟩ := addDelay_counting hcount (max delay 10)
  have hbig : max avg 10 < DELAY_THRESHOLD_150MS ↔ avg < DELAY_THRESHOLD_150MS := by
    unfold DELAY_THRESHOLD_150MS
    omega
  unfold onNetworkDelay
  rw [hold]
  dsimp only [bind, Option.bind]
  rw [havg]
  dsimp only
  generalize d.addDelay (max delay 10) = d' at hquick hcount
  by_cases hgood : avg < DELAY_THRESHOLD_150MS
  · -- the network is good
    obtain ⟨f, quick, hf, hle, hbound, hquick'⟩ :=
      increasedFps_spec checks minFps normalFps old (max avg 10) hfps hquick
    have hband : bandFps checks minFps normalFps dividendMs fps old (max avg 10)
        d'.quickIncreaseFpsCount = some (f, quick) := by
      unfold bandFps
      rw [if_pos (hbig.mpr hgood)]
      exact hf
    have hstable : stableCount checks (max avg 10) d'.increaseFpsCount =
        some (d'.increaseFpsCount + 1) := by
      unfold stableCount
      rw [if_pos (hbig.mpr hgood)]
      exact unsigned_of_lt (by omega)
    have hnext : stableFps checks (d'.increaseFpsCount + 1) f =
        some (if 3 ≤ d'.increaseFpsCount + 1 then f + 1 else f) := by
      unfold stableFps
      split
      · exact unsigned_of_lt (by omega)
      · rfl
    rw [hband]
    rw [hstable]
    dsimp only
    rw [hnext]
    dsimp only
    rw [u32Clamp_of_le hhigh]
    refine ⟨_, _, _, rfl, ?_, ?_, fun _ => ?_, fun hbad => absurd hgood (not_lt.mpr hbad)⟩
    · split
      · exact Nat.zero_lt_succ 2
      · exact hquick'
    · split
      · exact Nat.zero_lt_succ 2
      · omega
    · refine min_le_min_right highestFps (le_max_of_le_left ?_)
      split <;> omega
  · -- the network is bad
    have hbad : ¬max avg 10 < DELAY_THRESHOLD_150MS := fun h => hgood (hbig.mp h)
    have hmax : max avg 10 = avg := by
      unfold DELAY_THRESHOLD_150MS at hgood
      omega
    have hpos : 0 < avg := by
      omega
    obtain ⟨f, hf⟩ := decreasedFps_isSome minFps dividendMs fps hpos
    have hband : bandFps checks minFps normalFps dividendMs fps old (max avg 10)
        d'.quickIncreaseFpsCount = some (f, d'.quickIncreaseFpsCount) := by
      unfold bandFps
      rw [if_neg hbad, hmax, hf]
      rfl
    have hstable : stableCount checks (max avg 10) d'.increaseFpsCount = some 0 := if_neg hbad
    have hnext : stableFps checks 0 f = some f := if_neg (by decide)
    rw [hband]
    rw [hstable]
    dsimp only
    rw [hnext]
    dsimp only
    rw [u32Clamp_of_le hhigh]
    refine ⟨_, _, _, rfl, ?_, Nat.zero_lt_succ 2, fun h => absurd h hgood, fun _ => ⟨f, hf, rfl⟩⟩
    split
    · exact Nat.zero_lt_succ 2
    · exact hquick

theorem averages_of_onNetworkDelay {minFps normalFps dividendMs highestFps fps : ℕ}
    {d d' : UserDelay} {delay : ℕ}
    (h : d.onNetworkDelay checks minFps normalFps dividendMs highestFps fps delay = some d') :
    ∃ old avg, d.avgDelay checks = some old ∧
      (d.addDelay (max delay 10)).avgDelay checks = some avg := by
  obtain ⟨old, hold, hrest⟩ := Option.bind_eq_some_iff.mp h
  obtain ⟨avg, havg, -⟩ := Option.bind_eq_some_iff.mp hrest
  exact ⟨old, avg, hold, havg⟩

theorem onNetworkDelay_isSome_iff (checks : Bool) (normalFps dividendMs delay : ℕ)
    {minFps highestFps fps : ℕ} (hmin : minFps ≤ 120) (hfps : fps ≤ 120)
    (hhigh : MIN_FPS ≤ highestFps) (hcount : d.Counting) :
    (d.onNetworkDelay checks minFps normalFps dividendMs highestFps fps delay).isSome = true ↔
      (checks = true → d.delayHistory.sum < 4294967296 ∧
        (d.addDelay (max delay 10)).delayHistory.sum < 4294967296) := by
  have hfirst := avgDelay_isSome_iff checks d
  have hsecond := avgDelay_isSome_iff checks (d.addDelay (max delay 10))
  cases hold : d.avgDelay checks with
  | none =>
    rw [hold] at hfirst
    unfold onNetworkDelay
    rw [hold]
    exact iff_of_false Bool.false_ne_true fun hfits =>
      Bool.false_ne_true (hfirst.mpr fun hc => (hfits hc).1)
  | some old =>
    rw [hold] at hfirst
    cases havg : (d.addDelay (max delay 10)).avgDelay checks with
    | none =>
      rw [havg] at hsecond
      unfold onNetworkDelay
      rw [hold]
      dsimp only [bind, Option.bind]
      rw [havg]
      exact iff_of_false Bool.false_ne_true fun hfits =>
        Bool.false_ne_true (hsecond.mpr fun hc => (hfits hc).2)
    | some avg =>
      rw [havg] at hsecond
      obtain ⟨_, _, _, hsome, -⟩ := onNetworkDelay_spec normalFps dividendMs
        hmin hfps hhigh hcount hold havg
      rw [hsome]
      exact iff_of_true rfl fun hc => ⟨hfirst.mp rfl hc, hsecond.mp rfl hc⟩

end UserDelay

namespace VideoQos

/-! ### The invariant -/

def ValidFps (fps : ℕ) : Prop := MIN_FPS ≤ fps ∧ fps ≤ MAX_FPS

structure Within (u : UserData) : Prop where
  custom : ∀ fps ∈ u.customFps, ValidFps fps
  auto : ∀ fps ∈ u.autoAdjustFps, ValidFps fps
  quality : ∀ time b, u.quality = some (time, .custom b) → BR_MIN ≤ b
  counting : u.delay.Counting

structure Inv (q : VideoQos) : Prop where
  fps : ValidFps q.fps
  users : ∀ e ∈ q.users.entries, Within e.2

theorem within_new : Within {} where
  custom _ h := absurd h (Option.not_mem_none _)
  auto _ h := absurd h (Option.not_mem_none _)
  quality _ _ h := nomatch h
  counting := ⟨Nat.zero_lt_succ 2, Nat.zero_lt_succ 2⟩

theorem validFps_default : ValidFps FPS := ⟨by decide, by decide⟩

theorem inv_default (now : ℕ) : Inv (default now) where
  fps := validFps_default
  users _ he := absurd he List.not_mem_nil

variable {q q' : VideoQos}

theorem mem_mapValues {κ ν : Type} {f : κ → ν → ν} {m : KeyedMap κ ν} {e : Σ _ : κ, ν}
    (h : e ∈ (m.mapValues f).entries) : ∃ v, ⟨e.1, v⟩ ∈ m.entries ∧ e.2 = f e.1 v := by
  obtain ⟨e, he, rfl⟩ := List.mem_map.mp h
  exact ⟨e.2, he, rfl⟩

variable {id : ℤ} {f : UserData → UserData}

theorem Inv.updateUser (h : Inv q)
    (hf : ∀ u ∈ q.users.lookup id, Within (f u)) : Inv (q.updateUser id f) where
  fps := h.fps
  users e he := by
    obtain ⟨v, hv, heq⟩ := mem_mapValues he
    rw [heq]
    split
    · next hid =>
      refine hf v ?_
      rw [← hid]
      exact KeyedMap.lookup_eq_some_iff.mpr hv
    · exact h.users _ hv

variable {u : UserData}

theorem Inv.lookup (h : Inv q) (hu : q.users.lookup id = some u) :
    Within u := h.users _ (KeyedMap.lookup_eq_some_iff.mp hu)

/-! ### The frame rate -/

theorem one_le_highestFps (q : VideoQos) : MIN_FPS ≤ q.highestFps :=
  le_min (le_max_right _ MIN_FPS) (by decide)

theorem highestFps_le_max (q : VideoQos) : q.highestFps ≤ MAX_FPS := min_le_right _ _

theorem userFps_valid (h : Within u) : MIN_FPS ≤ userFps u := by
  have hcustom : MIN_FPS ≤ u.customFps.getD FPS := by
    cases hc : u.customFps with
    | none => decide
    | some fps => exact (h.custom fps hc).1
  unfold userFps
  dsimp only
  split
  · next auto hauto =>
    split
    · exact (h.auto auto hauto).1
    · exact hcustom
  · exact hcustom

theorem userFps_le_custom {fps : ℕ} (h : u.customFps = some fps)
    (hvalid : ValidFps fps) : userFps u ≤ fps := by
  have hpos : fps ≠ 0 := (Nat.lt_of_lt_of_le Nat.zero_lt_one hvalid.1).ne'
  unfold userFps
  rw [h, Option.getD_some]
  dsimp only
  split
  · split
    · next hor => exact (hor.resolve_left hpos).le
    · exact le_rfl
  · exact le_rfl

theorem userFps_le_auto {fps : ℕ} (h : u.autoAdjustFps = some fps) : userFps u ≤ fps := by
  unfold userFps
  rw [h]
  dsimp only
  split
  · exact le_rfl
  · omega

theorem highestFps_le_user (h : Inv q) {e : Σ _ : ℤ, UserData} (he : e ∈ q.users.entries) :
    q.highestFps ≤ userFps e.2 := by
  have hvalid := userFps_valid (h.users e he)
  have hmem : userFps e.2 ∈ (q.users.entries.map fun u => userFps u.2).filter (MIN_FPS ≤ ·) :=
    List.mem_filter.mpr ⟨List.mem_map_of_mem he, decide_eq_true hvalid⟩
  unfold highestFps
  cases hmin : ((q.users.entries.map fun u => userFps u.2).filter (MIN_FPS ≤ ·)).min? with
  | none => exact absurd (List.min?_eq_none_iff.mp hmin) (List.ne_nil_of_mem hmem)
  | some m =>
    have hle : m ≤ userFps e.2 := (List.min?_eq_some_iff.mp hmin).2 _ hmem
    exact le_trans (min_le_left _ _) (max_le hle hvalid)

theorem adjustFps_spec (now : ℕ) (q : VideoQos) :
    ∃ fps, q.adjustFps now = some { q with fps } ∧ MIN_FPS ≤ fps ∧ fps ≤ q.highestFps := by
  unfold adjustFps
  dsimp only
  rw [u32Clamp_of_le (one_le_highestFps q)]
  exact ⟨_, rfl, le_min (le_max_right _ _) (one_le_highestFps q), min_le_right _ _⟩

def KeepsLimits (q : VideoQos) : Prop :=
  ∀ e ∈ q.users.entries, (∀ fps ∈ e.2.customFps, q.getFps ≤ fps) ∧
    ∀ fps ∈ e.2.autoAdjustFps, q.getFps ≤ fps

theorem getFps_of_valid (h : ValidFps q.fps) : q.getFps = q.fps := if_pos h

theorem getFps_valid (q : VideoQos) : ValidFps q.getFps := by
  unfold getFps
  split
  · next h => exact h
  · exact validFps_default

theorem keepsLimits_of_le (h : Inv q) (hle : q.fps ≤ q.highestFps) : KeepsLimits q := by
  intro e he
  rw [getFps_of_valid h.fps]
  have huser := le_trans hle (highestFps_le_user h he)
  exact ⟨fun fps hc => le_trans huser (userFps_le_custom hc ((h.users e he).custom fps hc)),
    fun fps ha => le_trans huser (userFps_le_auto ha)⟩

/-! ### The bitrate ratio -/

theorem mul_maxBrMultiple (r : F32) : r * MAX_BR_MULTIPLE = r := by
  have hone : MAX_BR_MULTIPLE.val = 1 := by decide +kernel
  have hval : (r * MAX_BR_MULTIPLE).val = F32.round (r.val * MAX_BR_MULTIPLE.val) := rfl
  rw [hone, mul_one, r.property] at hval
  exact Subtype.ext hval

theorem atMost_le (bound : Option F32) (r : F32) : atMost bound r ≤ r := by
  unfold atMost
  split
  · split
    · next h => exact h.le
    · exact le_rfl
  · exact le_rfl

theorem latestQuality_eq (q : VideoQos) : q.latestQuality = .balanced ∨
    ∃ e ∈ q.users.entries, ∃ time, e.2.quality = some (time, q.latestQuality) := by
  -- what is the latest of some qualities is one of them, or what was before
  have hfold (l : List (ℤ × Quality)) (a : Option (ℤ × Quality)) (x : ℤ × Quality) :
      l.foldl later a = some x → a = some x ∨ x ∈ l := by
    induction l generalizing a with
    | nil => exact Or.inl
    | cons b l ih =>
      intro h
      rcases ih (later a b) h with hlater | hmem
      · unfold later at hlater
        cases a with
        | none => exact Or.inr ((Option.some_inj.mp hlater) ▸ List.mem_cons_self)
        | some a =>
          dsimp only at hlater
          split at hlater
          · exact Or.inl hlater
          · exact Or.inr ((Option.some_inj.mp hlater) ▸ List.mem_cons_self)
      · exact Or.inr (List.mem_cons_of_mem b hmem)
  unfold latestQuality
  cases hlatest : (q.users.entries.filterMap fun u => u.2.quality).foldl later none with
  | none => exact Or.inl rfl
  | some x =>
    rcases hfold _ none x hlatest with hnone | hmem
    · exact absurd hnone (Option.some_ne_none x).symm
    · obtain ⟨e, he, heq⟩ := List.mem_filterMap.mp hmem
      exact Or.inr ⟨e, he, x.1, heq⟩

theorem minRatio_le (h : Inv q) (bound : Option F32) :
    minRatio q.latestQuality bound ≤ q.latestQuality.ratio * MAX_BR_MULTIPLE := by
  rw [mul_maxBrMultiple]
  have hquality := latestQuality_eq q
  generalize q.latestQuality = quality at hquality
  cases quality with
  | best | balanced =>
    refine max_le (le_trans (atMost_le bound _) ?_) ?_
    · exact of_decide_eq_true (by decide +kernel)
    · exact of_decide_eq_true (by decide +kernel)
  | low =>
    have hlow : BR_MIN_HIGH_RESOLUTION ≤ BR_SPEED := of_decide_eq_true (by decide +kernel)
    exact hlow
  | custom b =>
    rcases hquality with hdefault | ⟨e, he, time, heq⟩
    · exact nomatch hdefault
    · calc BR_MIN_HIGH_RESOLUTION
          ≤ BR_MIN := of_decide_eq_true (by decide +kernel)
        _ ≤ b := (h.users e he).quality time b heq

/-- What the adjustment of the ratio computes fits: the delays it averages, and the bitrate. -/
def RatioFits (q : VideoQos) : Prop :=
  q.inVbrState = true →
    (∀ e ∈ q.users.entries, e.2.delay.delayHistory.sum < 4294967296) ∧
    (q.users.entries ≠ [] → 0 < q.bitrateStore → q.bitrateStore + 150 < 4294967296)

theorem avgDelays_isSome_iff (checks : Bool) (q : VideoQos) : (q.avgDelays checks).isSome = true ↔
    (checks = true → ∀ e ∈ q.users.entries, e.2.delay.delayHistory.sum < 4294967296) := by
  unfold avgDelays
  rw [mapM_isSome_iff]
  constructor
  · exact fun h hc e he => (UserDelay.avgDelay_isSome_iff checks e.2.delay).mp (h e he) hc
  · exact fun h e he => (UserDelay.avgDelay_isSome_iff checks e.2.delay).mpr fun hc => h hc e he

theorem ratioAdd_isSome_iff (checks : Bool) (bitrate : ℕ) (ratio : F32) :
    (ratioAdd150kbps checks bitrate ratio).isSome = true ↔
      (checks = true → 0 < bitrate → bitrate + 150 < 4294967296) := by
  unfold ratioAdd150kbps
  by_cases hpos : 0 < bitrate
  · rw [if_pos hpos]
    have hsum := unsigned_isSome_iff checks 4294967296 (bitrate + 150)
    unfold u32
    cases hu : unsigned checks 4294967296 (bitrate + 150) with
    | none =>
      rw [hu] at hsum
      exact iff_of_false Bool.false_ne_true fun h =>
        Bool.false_ne_true (hsum.mpr fun hc => h hc hpos)
    | some sum =>
      rw [hu] at hsum
      exact iff_of_true rfl fun hc _ => hsum.mp rfl hc
  · rw [if_neg hpos]
    exact iff_of_true rfl fun _ h => absurd h hpos

theorem avgDelays_eq_nil {delays : List ℕ} (h : q.avgDelays checks = some delays) :
    delays = [] ↔ q.users.entries = [] := by
  unfold avgDelays at h
  generalize q.users.entries = l at h
  cases l with
  | nil => exact iff_of_true (Option.some_inj.mp h).symm rfl
  | cons a l =>
    rw [List.mapM_cons] at h
    cases hf : a.2.delay.avgDelay checks with
    | none =>
      rw [hf] at h
      exact nomatch h
    | some avg =>
      cases hrest : l.mapM fun u => u.2.delay.avgDelay checks with
      | none =>
        rw [hf, hrest] at h
        exact nomatch h
      | some rest =>
        rw [hf, hrest] at h
        rw [← Option.some_inj.mp h]
        exact iff_of_false (List.cons_ne_nil avg rest) (List.cons_ne_nil a l)

theorem adjustRatio_isSome_iff (checks : Bool) (h : Inv q) (now : ℕ) (dynamicScreen : Bool) :
    (adjustRatio checks now dynamicScreen q).isSome = true ↔ (checks = true → RatioFits q) := by
  unfold adjustRatio RatioFits
  cases q.inVbrState with
  | false => exact iff_of_true rfl fun _ hvbr => absurd hvbr Bool.false_ne_true
  | true =>
    have hdelays := avgDelays_isSome_iff checks q
    have hadd := ratioAdd_isSome_iff checks q.bitrateStore q.ratio
    rw [if_neg (by decide)]
    cases hsome : q.avgDelays checks with
    | none =>
      rw [hsome] at hdelays
      exact iff_of_false Bool.false_ne_true fun hfits =>
        Bool.false_ne_true (hdelays.mpr fun hc => (hfits hc rfl).1)
    | some delays =>
      rw [hsome] at hdelays
      dsimp only [bind, Option.bind]
      cases hmax : delays.max? with
      | none =>
        -- there are no users
        have hnil := (avgDelays_eq_nil hsome).mp (List.max?_eq_none_iff.mp hmax)
        exact iff_of_true rfl fun hc _ => ⟨hdelays.mp rfl hc, fun hne => absurd hnil hne⟩
      | some maxDelay =>
        have hne : q.users.entries ≠ [] := by
          intro hnil
          rw [(avgDelays_eq_nil hsome).mpr hnil] at hmax
          exact nomatch hmax
        cases hratio : ratioAdd150kbps checks q.bitrateStore q.ratio with
        | none =>
          rw [hratio] at hadd
          exact iff_of_false Bool.false_ne_true fun hfits =>
            Bool.false_ne_true (hadd.mpr fun hc => (hfits hc rfl).2 hne)
        | some ratioAdd =>
          rw [hratio] at hadd
          dsimp only
          unfold F32.clamp
          rw [if_pos (minRatio_le h _)]
          exact iff_of_true rfl fun hc _ => ⟨hdelays.mp rfl hc, fun _ => hadd.mp rfl hc⟩

variable {now : ℕ}

theorem adjustRatio_frame {dynamicScreen : Bool}
    (h : adjustRatio checks now dynamicScreen q = some q') : ∃ ratio adjustRatioInstant, q' =
    { q with ratio, adjustRatioInstant } := by
  unfold adjustRatio at h
  split at h
  · exact ⟨q.ratio, q.adjustRatioInstant, (Option.some_inj.mp h).symm⟩
  · obtain ⟨delays, -, h⟩ := Option.bind_eq_some_iff.mp h
    split at h
    · exact ⟨q.ratio, q.adjustRatioInstant, (Option.some_inj.mp h).symm⟩
    · obtain ⟨ratioAdd, -, h⟩ := Option.bind_eq_some_iff.mp h
      obtain ⟨ratio, -, h⟩ := Option.bind_eq_some_iff.mp h
      exact ⟨ratio, now, (Option.some_inj.mp h).symm⟩

/-! ### The calls -/

/-- The state after `adjust_fps`, and perhaps `adjust_ratio`. -/
structure Adjusted (q q' : VideoQos) : Prop where
  users : q'.users = q.users
  low : MIN_FPS ≤ q'.fps
  high : q'.fps ≤ q'.highestFps

theorem adjusted_of_adjustFps (h : q.adjustFps now = some q') : Adjusted q q' := by
  obtain ⟨fps, hsome, hlow, hhigh⟩ := adjustFps_spec now q
  rw [hsome] at h
  obtain rfl := Option.some_inj.mp h
  exact ⟨rfl, hlow, hhigh⟩

theorem Adjusted.ratio {q'' : VideoQos} (h : Adjusted q q') {dynamicScreen : Bool}
    (hratio : adjustRatio checks now dynamicScreen q' = some q'') : Adjusted q q'' := by
  obtain ⟨ratio, instant, rfl⟩ := adjustRatio_frame hratio
  exact ⟨h.users, h.low, h.high⟩

theorem Adjusted.inv (h : Adjusted q q') (hq : Inv q) : Inv q' where
  fps := ⟨h.low, le_trans h.high (highestFps_le_max q')⟩
  users := h.users ▸ hq.users

theorem Adjusted.limits (h : Adjusted q q') (hq : Inv q) : KeepsLimits q' :=
  keepsLimits_of_le (h.inv hq) h.high

theorem minFps_le (q : VideoQos) : q.minFps ≤ 12 := by
  unfold minFps minNormalFps
  split
  · decide
  · split
    · decide
    · decide

theorem u32_dividend : u32 checks (DELAY_THRESHOLD_150MS * q.minFps) =
    some (DELAY_THRESHOLD_150MS * q.minFps) := by
  apply unsigned_of_lt
  have hmin := minFps_le q
  unfold DELAY_THRESHOLD_150MS
  omega

theorem userNetworkDelay_adjusted {delay : ℕ}
    (h : userNetworkDelay checks linux now q id delay = some q') :
    ∃ q₁, Adjusted q₁ q' ∧ (q.users.lookup id = none → q₁ = q) ∧
      ∀ u, q.users.lookup id = some u → ∃ d, u.delay.onNetworkDelay checks q.minFps q.normalFps
        (DELAY_THRESHOLD_150MS * q.minFps) q.highestFps q.fps delay = some d ∧
        q₁ = q.updateUser id fun user => { user with delay := d } := by
  unfold userNetworkDelay at h
  rw [u32_dividend] at h
  dsimp only [bind, Option.bind] at h
  cases hu : q.users.lookup id with
  | none =>
    rw [hu] at h
    exact ⟨q, adjusted_of_adjustFps h, fun _ => rfl, fun u hnone => nomatch hnone⟩
  | some u =>
    rw [hu] at h
    obtain ⟨d, hd, h⟩ := Option.bind_eq_some_iff.mp h
    obtain ⟨q₂, hadjust, h⟩ := Option.bind_eq_some_iff.mp h
    have hq₂ := adjusted_of_adjustFps hadjust
    refine ⟨q.updateUser id fun user => { user with delay := d }, ?_,
      fun hnone => absurd hnone (Option.some_ne_none u), fun v hv => ⟨d, ?_, rfl⟩⟩
    · split at h
      · exact hq₂.ratio h
      · exact Option.some_inj.mp h ▸ hq₂
    · rw [← Option.some_inj.mp hv]
      exact hd

theorem within_onNetworkDelay (h : Inv q) {d : UserDelay} {delay : ℕ}
    (hu : q.users.lookup id = some u)
    (hd : u.delay.onNetworkDelay checks q.minFps q.normalFps (DELAY_THRESHOLD_150MS * q.minFps)
      q.highestFps q.fps delay = some d) :
    Within { u with delay := d } ∧
      d.delayHistory = (u.delay.addDelay (max delay 10)).delayHistory := by
  have hwithin := h.lookup hu
  obtain ⟨old, avg, hold, havg⟩ := UserDelay.averages_of_onNetworkDelay hd
  obtain ⟨fps, quick, count, hsome, hquick, hcount, -⟩ := UserDelay.onNetworkDelay_spec
    q.normalFps (DELAY_THRESHOLD_150MS * q.minFps) (le_trans (minFps_le q) (by decide)) h.fps.2
    (one_le_highestFps q) hwithin.counting hold havg
  rw [hsome] at hd
  obtain rfl := Option.some_inj.mp hd
  exact ⟨⟨hwithin.custom, hwithin.auto, hwithin.quality, ⟨hquick, hcount⟩⟩, rfl⟩

theorem userNetworkDelay_inv (h : Inv q) {delay : ℕ}
    (hstep : userNetworkDelay checks linux now q id delay = some q') : Inv q' ∧ KeepsLimits q' := by
  obtain ⟨q₁, hadjusted, hnone, hsome⟩ := userNetworkDelay_adjusted hstep
  have hinv : Inv q₁ := by
    cases hu : q.users.lookup id with
    | none =>
      rw [hnone hu]
      exact h
    | some u =>
      obtain ⟨d, hd, rfl⟩ := hsome u hu
      refine h.updateUser fun v hv => ?_
      obtain rfl := Option.some_inj.mp (hu.symm.trans hv)
      exact (within_onNetworkDelay h hu hd).1
  exact ⟨hadjusted.inv hinv, hadjusted.limits hinv⟩

theorem userDelayResponseElapsed_inv (h : Inv q) {elapsed : ℕ}
    (hstep : userDelayResponseElapsed now q id elapsed = some q') :
    Inv q' ∧ (q.users.lookup id ≠ none → 2000 < elapsed → KeepsLimits q') := by
  unfold userDelayResponseElapsed at hstep
  cases hu : q.users.lookup id with
  | none =>
    rw [hu] at hstep
    exact ⟨Option.some_inj.mp hstep ▸ h, fun hne => absurd rfl hne⟩
  | some u =>
    rw [hu] at hstep
    dsimp only at hstep
    split at hstep
    · have hinv : Inv (q.updateUser id fun user =>
          { user with
            delay := { user.delay with responseDelayed := true }.addDelay
              (elapsed % 4294967296) }) :=
        h.updateUser fun v hv =>
          ⟨(h.lookup hv).custom, (h.lookup hv).auto, (h.lookup hv).quality, (h.lookup hv).counting⟩
      have hadjusted := adjusted_of_adjustFps hstep
      exact ⟨hadjusted.inv hinv, fun _ _ => hadjusted.limits hinv⟩
    · next hle =>
      refine ⟨?_, fun _ hlt => absurd hlt hle⟩
      rw [← Option.some_inj.mp hstep]
      exact h.updateUser fun v hv =>
        ⟨(h.lookup hv).custom, (h.lookup hv).auto, (h.lookup hv).quality, (h.lookup hv).counting⟩

variable {sendCounter : ℕ} {name : String}

theorem countSent_users (h : countSent checks q name sendCounter = some q') : q'.users = q.users ∧
    q'.fps = q.fps := by
  unfold countSent at h
  split at h
  · obtain ⟨count, -, h⟩ := Option.bind_eq_some_iff.mp h
    rw [← Option.some_inj.mp h]
    exact ⟨rfl, rfl⟩
  · rw [← Option.some_inj.mp h]
    exact ⟨rfl, rfl⟩

theorem updateDisplayData_inv (h : Inv q)
    (hstep : updateDisplayData checks now q name sendCounter = some q') :
    Inv q' ∧ KeepsLimits q' := by
  obtain ⟨q₁, hcount, hstep⟩ := Option.bind_eq_some_iff.mp hstep
  obtain ⟨q₂, hadjust, hstep⟩ := Option.bind_eq_some_iff.mp hstep
  obtain ⟨husers, hfps⟩ := countSent_users hcount
  have hinv : Inv q₁ := ⟨hfps ▸ h.fps, husers ▸ h.users⟩
  have hq₂ := adjusted_of_adjustFps hadjust
  have hadjusted : Adjusted q₁ q' := by
    split at hstep
    · split at hstep
      · -- the counters are reset, which leaves the users and the frame rate
        refine Adjusted.ratio ?_ hstep
        exact ⟨hq₂.users, hq₂.low, hq₂.high⟩
      · exact Option.some_inj.mp hstep ▸ hq₂
    · rw [← Option.some_inj.mp hstep]
      exact ⟨hq₂.users, hq₂.low, hq₂.high⟩
  exact ⟨hadjusted.inv hinv, hadjusted.limits hinv⟩

theorem convert_custom {imageQuality : ℤ} {b : F32}
    (h : Quality.convert imageQuality = .custom b) : BR_MIN ≤ b := by
  unfold Quality.convert at h
  split at h
  · exact nomatch h
  · split at h
    · exact nomatch h
    · split at h
      · exact nomatch h
      · rw [← Quality.custom.inj h]
        exact le_min (le_max_right _ _) (of_decide_eq_true (by decide +kernel))

theorem userImageQuality_inv (h : Inv q) (id time imageQuality : ℤ) :
    Inv (q.userImageQuality id time imageQuality) := by
  unfold userImageQuality
  split
  · have hinv : Inv (q.updateUser id fun user =>
        { user with quality := some (time, Quality.convert imageQuality) }) := by
      refine h.updateUser fun u hu =>
        ⟨(h.lookup hu).custom, (h.lookup hu).auto, fun t b hb => ?_, (h.lookup hu).counting⟩
      exact convert_custom (congrArg Prod.snd (Option.some_inj.mp hb))
    exact ⟨hinv.fps, hinv.users⟩
  · exact h

theorem userCustomFps_inv (h : Inv q) (id : ℤ) (fps : ℕ) : Inv (q.userCustomFps id fps) := by
  unfold userCustomFps
  split
  · exact h
  · next hvalid =>
    rw [not_or, not_lt, not_lt] at hvalid
    refine h.updateUser fun u hu =>
      ⟨fun f hf => ?_, (h.lookup hu).auto, (h.lookup hu).quality, (h.lookup hu).counting⟩
    exact Option.some_inj.mp hf ▸ hvalid

theorem userAutoAdjustFps_inv (h : Inv q) (id : ℤ) (fps : ℕ) :
    Inv (q.userAutoAdjustFps id fps) := by
  unfold userAutoAdjustFps
  split
  · exact h
  · next hvalid =>
    rw [not_or, not_lt, not_lt] at hvalid
    refine h.updateUser fun u hu =>
      ⟨(h.lookup hu).custom, fun f hf => ?_, (h.lookup hu).quality, (h.lookup hu).counting⟩
    exact Option.some_inj.mp hf ▸ hvalid

theorem onConnectionOpen_inv (h : Inv q) (now : ℕ) (id : ℤ) (abr : Bool) :
    Inv (q.onConnectionOpen now id abr) where
  fps := h.fps
  users e he := by
    rcases List.mem_cons.mp he with rfl | he
    · exact within_new
    · exact h.users e ((List.kerase_sublist id q.users.entries).subset he)

theorem onConnectionClose_inv (h : Inv q) (now : ℕ) (id : ℤ) :
    Inv (q.onConnectionClose now id) := by
  unfold onConnectionClose
  split
  · exact inv_default now
  · exact ⟨h.fps, fun e he => h.users e ((List.kerase_sublist id q.users.entries).subset he)⟩

theorem step_inv (h : Inv q) {e : Event} (hstep : step checks linux q e = some q') : Inv q' := by
  obtain ⟨now, call⟩ := e
  cases call with
  | onConnectionOpen id abr =>
    exact Option.some_inj.mp hstep ▸ onConnectionOpen_inv h now id abr
  | onConnectionClose id => exact Option.some_inj.mp hstep ▸ onConnectionClose_inv h now id
  | userCustomFps id fps => exact Option.some_inj.mp hstep ▸ userCustomFps_inv h id fps.toNat
  | userAutoAdjustFps id fps =>
    exact Option.some_inj.mp hstep ▸ userAutoAdjustFps_inv h id fps.toNat
  | userImageQuality id time imageQuality =>
    exact Option.some_inj.mp hstep ▸ userImageQuality_inv h id time imageQuality
  | userRecord id v =>
    refine Option.some_inj.mp hstep ▸ h.updateUser fun u hu => ?_
    exact ⟨(h.lookup hu).custom, (h.lookup hu).auto, (h.lookup hu).quality, (h.lookup hu).counting⟩
  | userNetworkDelay id delay => exact (userNetworkDelay_inv h hstep).1
  | userDelayResponseElapsed id elapsed => exact (userDelayResponseElapsed_inv h hstep).1
  | newDisplay | removeDisplay | setSupportChangingQuality | storeBitrate =>
    exact Option.some_inj.mp hstep ▸ ⟨h.fps, h.users⟩
  | updateDisplayData name sendCounter => exact (updateDisplayData_inv h hstep).1
  | getRatio =>
    have hratio : Inv q.getRatio.2 := by
      unfold getRatio
      split
      · exact ⟨h.fps, h.users⟩
      · exact h
    exact Option.some_inj.mp hstep ▸ hratio
  | rehash users =>
    unfold step at hstep
    dsimp only at hstep
    split at hstep
    · next hperm =>
      exact Option.some_inj.mp hstep ▸ ⟨h.fps, fun e he => h.users e (hperm.mem_iff.mp he)⟩
    · exact Option.some_inj.mp hstep ▸ h

def Adjusts (q : VideoQos) (e : Event) : Prop :=
  match e.call with
  | .userNetworkDelay _ _ => True
  | .userDelayResponseElapsed id elapsed => q.users.lookup id ≠ none ∧ 2000 < elapsed
  | .updateDisplayData _ _ => True
  | _ => False

theorem step_limits (h : Inv q) {e : Event} (hstep : step checks linux q e = some q')
    (hadjusts : Adjusts q e) : KeepsLimits q' := by
  obtain ⟨now, call⟩ := e
  cases call with
  | userNetworkDelay id delay => exact (userNetworkDelay_inv h hstep).2
  | userDelayResponseElapsed id elapsed =>
    exact (userDelayResponseElapsed_inv h hstep).2 hadjusts.1 hadjusts.2
  | updateDisplayData name sendCounter => exact (updateDisplayData_inv h hstep).2
  | onConnectionOpen _ _ | onConnectionClose _ | userCustomFps _ _ | userAutoAdjustFps _ _
  | userImageQuality _ _ _ | userRecord _ _ | newDisplay _ | removeDisplay _
  | setSupportChangingQuality _ _ | storeBitrate _ | getRatio | rehash _ => exact hadjusts.elim

/-! ### What fits -/

/-- The sums of the delays that an answer of a user averages fit. -/
def AnswerFits (linux : Bool) (q : VideoQos) (id : ℤ) (delay : ℕ) : Prop :=
  ∀ u, q.users.lookup id = some u →
    u.delay.delayHistory.sum < 4294967296 ∧
    (u.delay.addDelay (max delay 10)).delayHistory.sum < 4294967296 ∧
    (u.delay.fps = none → linux = false → RatioFits q)

/-- The number of what a display has sent fits, and what is computed for the ratio every three
seconds. -/
def SentFits (now : ℕ) (q : VideoQos) (name : String) (sendCounter : ℕ) : Prop :=
  (∀ d, q.displays.lookup name = some d → d.sendCounter + sendCounter < 18446744073709551616) ∧
    (ADJUST_RATIO_INTERVAL ≤ elapsedSecs now q.adjustRatioInstant → RatioFits q)

def Fits (linux : Bool) (q : VideoQos) (e : Event) : Prop :=
  match e.call with
  | .userNetworkDelay id delay => AnswerFits linux q id delay.toNat
  | .updateDisplayData name sendCounter => SentFits e.now q name sendCounter
  | _ => True

theorem ratioFits_congr (husers : q'.users = q.users) (hbitrate : q'.bitrateStore = q.bitrateStore)
    (hvbr : q'.inVbrState = q.inVbrState) : RatioFits q' ↔ RatioFits q := by
  unfold RatioFits
  rw [husers, hbitrate, hvbr]

theorem mem_updateUser_of_ne {e : Σ _ : ℤ, UserData}
    (he : e ∈ q.users.entries) (hid : e.1 ≠ id) : e ∈ (q.updateUser id f).users.entries :=
  List.mem_map.mpr ⟨e, he, Sigma.ext rfl (heq_of_eq (if_neg hid))⟩

theorem ratioFits_updateUser (hu : q.users.lookup id = some u)
    (hold : u.delay.delayHistory.sum < 4294967296)
    (hnew : (f u).delay.delayHistory.sum < 4294967296) : RatioFits (q.updateUser id f) ↔ RatioFits q
    := by
  have hunique {e : Σ _ : ℤ, UserData} (he : e ∈ q.users.entries) (hid : e.1 = id) : e.2 = u := by
    have hlookup : q.users.lookup e.1 = some e.2 := KeyedMap.lookup_eq_some_iff.mpr he
    rw [hid, hu] at hlookup
    exact (Option.some_inj.mp hlookup).symm
  have hempty : (q.updateUser id f).users.entries ≠ [] ↔ q.users.entries ≠ [] :=
    not_congr List.map_eq_nil_iff
  have hsums : (∀ e ∈ (q.updateUser id f).users.entries,
      e.2.delay.delayHistory.sum < 4294967296) ↔
      ∀ e ∈ q.users.entries, e.2.delay.delayHistory.sum < 4294967296 := by
    constructor
    · intro h e he
      by_cases hid : e.1 = id
      · rw [hunique he hid]
        exact hold
      · exact h e (mem_updateUser_of_ne he hid)
    · intro h e he
      obtain ⟨v, hv, heq⟩ := mem_mapValues he
      rw [heq]
      split
      · next hid =>
        rw [show v = u from hunique hv hid]
        exact hnew
      · exact h _ hv
  unfold RatioFits
  rw [hempty, hsums]
  rfl

theorem userNetworkDelay_isSome_iff (h : Inv q) (now : ℕ) (id : ℤ) (delay : ℕ) :
    (userNetworkDelay checks linux now q id delay).isSome = true ↔
      (checks = true → AnswerFits linux q id delay) := by
  unfold userNetworkDelay AnswerFits
  rw [u32_dividend]
  dsimp only [bind, Option.bind]
  cases hu : q.users.lookup id with
  | none =>
    obtain ⟨fps, hsome, -⟩ := adjustFps_spec now q
    rw [hsome]
    exact iff_of_true rfl fun _ u hnone => nomatch hnone
  | some u =>
    have hfits := UserDelay.onNetworkDelay_isSome_iff checks q.normalFps
      (DELAY_THRESHOLD_150MS * q.minFps) delay (le_trans (minFps_le q) (by decide)) h.fps.2
      (one_le_highestFps q) (h.lookup hu).counting
    dsimp only
    cases hd : u.delay.onNetworkDelay checks q.minFps q.normalFps (DELAY_THRESHOLD_150MS * q.minFps)
      q.highestFps q.fps delay with
    | none =>
      rw [hd] at hfits
      refine iff_of_false Bool.false_ne_true fun hall => Bool.false_ne_true (hfits.mpr fun hc => ?_)
      exact ⟨(hall hc u rfl).1, (hall hc u rfl).2.1⟩
    | some d =>
      rw [hd] at hfits
      obtain ⟨hwithin, hhistory⟩ := within_onNetworkDelay h hu hd
      obtain ⟨fps, hsome, hlow, hhigh⟩ :=
        adjustFps_spec now (q.updateUser id fun user => { user with delay := d })
      have hinv : Inv (q.updateUser id fun user => { user with delay := d }) := by
        refine h.updateUser fun v hv => ?_
        obtain rfl := Option.some_inj.mp (hu.symm.trans hv)
        exact hwithin
      have hadjusted : Adjusted (q.updateUser id fun user => { user with delay := d })
          { q.updateUser id fun user => { user with delay := d } with fps } := ⟨rfl, hlow, hhigh⟩
      have hratio := adjustRatio_isSome_iff checks (hadjusted.inv hinv) now false
      have hsums := hfits.mp rfl
      dsimp only
      rw [hsome]
      dsimp only
      split
      · rw [hratio]
        constructor
        · intro hratio hc v hv
          obtain rfl := Option.some_inj.mp hv
          obtain ⟨hold, hnew⟩ := hsums hc
          exact ⟨hold, hnew, fun _ _ =>
            (ratioFits_updateUser hu hold (hhistory ▸ hnew)).mp (hratio hc)⟩
        · next hfirst =>
          intro hall hc
          rw [Bool.and_eq_true, Option.isNone_iff_eq_none, Bool.not_eq_true'] at hfirst
          obtain ⟨hold, hnew, hfits⟩ := hall hc u rfl
          exact (ratioFits_updateUser hu hold (hhistory ▸ hnew)).mpr (hfits hfirst.1 hfirst.2)
      · next hlater =>
        refine iff_of_true rfl fun hc v hv => ?_
        obtain rfl := Option.some_inj.mp hv
        obtain ⟨hold, hnew⟩ := hsums hc
        refine ⟨hold, hnew, fun hfirst hlinux => absurd ?_ hlater⟩
        rw [hfirst, hlinux]
        rfl

theorem inVbrState_mapValues {f : String → DisplayData → DisplayData}
    (hf : ∀ k d, (f k d).supportChangingQuality = d.supportChangingQuality) :
    inVbrState { q with displays := q.displays.mapValues f } = q.inVbrState := by
  unfold inVbrState KeyedMap.mapValues
  rw [List.all_map]
  congr 2
  funext e
  exact hf e.1 e.2

theorem countSent_isSome_iff (checks : Bool) (q : VideoQos) (name : String) (sendCounter : ℕ) :
    (countSent checks q name sendCounter).isSome = true ↔ (checks = true →
      ∀ d, q.displays.lookup name = some d →
        d.sendCounter + sendCounter < 18446744073709551616) := by
  unfold countSent
  cases hd : q.displays.lookup name with
  | none => exact iff_of_true rfl fun _ d hnone => nomatch hnone
  | some d =>
    have hsum := unsigned_isSome_iff checks 18446744073709551616
      (d.sendCounter + sendCounter)
    dsimp only
    unfold usize
    cases hn : unsigned checks 18446744073709551616 (d.sendCounter + sendCounter) with
    | none =>
      rw [hn] at hsum
      exact iff_of_false Bool.false_ne_true fun h =>
        Bool.false_ne_true (hsum.mpr fun hc => h hc d rfl)
    | some n =>
      rw [hn] at hsum
      refine iff_of_true rfl fun hc v hv => ?_
      obtain rfl := Option.some_inj.mp hv
      exact hsum.mp rfl hc

theorem countSent_frame
    (h : countSent checks q name sendCounter = some q') :
    q'.inVbrState = q.inVbrState ∧ q'.bitrateStore = q.bitrateStore ∧
      q'.adjustRatioInstant = q.adjustRatioInstant := by
  unfold countSent at h
  split at h
  · obtain ⟨count, -, h⟩ := Option.bind_eq_some_iff.mp h
    rw [← Option.some_inj.mp h]
    refine ⟨inVbrState_mapValues fun k d => ?_, rfl, rfl⟩
    split
    · rfl
    · rfl
  · rw [← Option.some_inj.mp h]
    exact ⟨rfl, rfl, rfl⟩

theorem updateDisplayData_isSome_iff (h : Inv q) (now : ℕ) (name : String) (sendCounter : ℕ) :
    (updateDisplayData checks now q name sendCounter).isSome = true ↔
      (checks = true → SentFits now q name sendCounter) := by
  have hcounted := countSent_isSome_iff checks q name sendCounter
  unfold updateDisplayData SentFits
  cases hcount : q.countSent checks name sendCounter with
  | none =>
    rw [hcount] at hcounted
    exact iff_of_false Bool.false_ne_true fun hall =>
      Bool.false_ne_true (hcounted.mpr fun hc => (hall hc).1)
  | some q₁ =>
    rw [hcount] at hcounted
    obtain ⟨husers, hfps⟩ := countSent_users hcount
    obtain ⟨hvbr, hbitrate, hinstant⟩ := countSent_frame hcount
    have hinv : Inv q₁ := ⟨hfps ▸ h.fps, husers ▸ h.users⟩
    obtain ⟨fps, hsome, hlow, hhigh⟩ := adjustFps_spec now q₁
    have hadjusted : Adjusted q₁ { q₁ with fps } := ⟨rfl, hlow, hhigh⟩
    have hvbr₂ : inVbrState { q₁ with fps } = q.inVbrState := hvbr
    dsimp only [bind, Option.bind]
    rw [hsome]
    dsimp only
    rw [hvbr₂, hinstant]
    split
    · split
      · next hdue =>
        have hmap := inVbrState_mapValues (q := q₁)
          (f := fun _ d => { d with sendCounter := 0 }) fun _ _ => rfl
        refine (adjustRatio_isSome_iff checks ?_ now _).trans ?_
        · exact ⟨(hadjusted.inv hinv).fps, hinv.users⟩
        rw [ratioFits_congr (q := q)]
        · constructor
          · exact fun hfits hc => ⟨hcounted.mp rfl hc, fun _ => hfits hc⟩
          · exact fun hall hc => (hall hc).2 hdue
        · exact husers
        · exact hbitrate
        · exact hmap.trans hvbr
      · next hlater =>
        exact iff_of_true rfl fun hc => ⟨hcounted.mp rfl hc, fun hdue => absurd hdue hlater⟩
    · next hfixed =>
      exact iff_of_true rfl fun hc => ⟨hcounted.mp rfl hc, fun _ hon => absurd hon hfixed⟩

theorem step_isSome_iff (checks linux : Bool) (h : Inv q) (e : Event) :
    (step checks linux q e).isSome = true ↔ (checks = true → Fits linux q e) := by
  obtain ⟨now, call⟩ := e
  cases call with
  | userNetworkDelay id delay => exact userNetworkDelay_isSome_iff h now id delay.toNat
  | updateDisplayData name sendCounter => exact updateDisplayData_isSome_iff h now name sendCounter
  | userDelayResponseElapsed id elapsed =>
    refine iff_of_true ?_ fun _ => trivial
    unfold step userDelayResponseElapsed
    dsimp only
    split
    · split
      · obtain ⟨fps, hsome, -⟩ := adjustFps_spec now (q.updateUser id fun user =>
          { user with
            delay := { user.delay with responseDelayed := true }.addDelay
              (elapsed % 4294967296) })
        rw [hsome]
        rfl
      · rfl
    · rfl
  | rehash users =>
    refine iff_of_true ?_ fun _ => trivial
    unfold step
    dsimp only
    split
    · rfl
    · rfl
  | onConnectionOpen _ _ | onConnectionClose _ | userCustomFps _ _ | userAutoAdjustFps _ _
  | userImageQuality _ _ _ | userRecord _ _ | newDisplay _ | removeDisplay _
  | setSupportChangingQuality _ _ | storeBitrate _ | getRatio =>
    exact iff_of_true rfl fun _ => trivial

/-! ### Runs -/

/-- The controller, unless it has panicked, keeps the invariant. -/
def InvUnlessPanicked (s : Option VideoQos) : Prop := ∀ q, s = some q → Inv q

theorem next_inv {s : Option VideoQos} (h : InvUnlessPanicked s) (e : Event) :
    InvUnlessPanicked ((machine checks linux).next s e) := by
  intro q' hq'
  obtain ⟨q, hq, hstep⟩ := Option.bind_eq_some_iff.mp hq'
  exact step_inv (h q hq) hstep

/-- A call that does not fail: it does not panic, and leaves a frame rate within the bounds, which
keeps to the limits of the users where the call adjusts it. -/
def Sound (linux : Bool) (s : Option VideoQos) (e : Event) : Prop :=
  ∃ q q', s = some q ∧ step true linux q e = some q' ∧ ValidFps q'.getFps ∧
    (Adjusts q e → KeepsLimits q')

/-- A call of a controller that has not panicked, in which every sum fits. -/
def FitsIn (linux : Bool) (s : Option VideoQos) (e : Event) : Prop :=
  ∃ q, s = some q ∧ Fits linux q e

theorem sound_iff {s : Option VideoQos} (h : InvUnlessPanicked s) (e : Event) :
    Sound linux s e ↔ FitsIn linux s e := by
  constructor
  · rintro ⟨q, q', hq, hstep, -⟩
    refine ⟨q, hq, (step_isSome_iff true linux (h q hq) e).mp ?_ rfl⟩
    rw [hstep]
    rfl
  · rintro ⟨q, hq, hfits⟩
    obtain ⟨q', hstep⟩ := Option.isSome_iff_exists.mp
      ((step_isSome_iff true linux (h q hq) e).mpr fun _ => hfits)
    exact ⟨q, q', hq, hstep, getFps_valid q', step_limits (h q hq) hstep⟩

/-- **The frame rate keeps to its bounds and to the limits of the users, and no arithmetic fails**,
in every call of a run, exactly when in every call of it the sums fit. -/
theorem sound_iff_fits (linux : Bool) (now : ℕ) (events : List Event) :
    (machine true linux).Meets (Sound linux) (some (default now)) events ↔
      (machine true linux).Meets (FitsIn linux) (some (default now)) events := by
  have hinv : ∀ p ∈ (machine true linux).trace (some (default now)) events,
      InvUnlessPanicked p.1 := by
    refine Machine.Meets.inv_trace (Machine.meets_true _ _) ?_ fun s e _ hs => next_inv hs e
    exact fun q hq => Option.some_inj.mp hq ▸ inv_default now
  constructor
  · exact fun hsound p hp => (sound_iff (hinv p hp) p.2).mp (hsound p hp)
  · exact fun hfits p hp => (sound_iff (hinv p hp) p.2).mpr (hfits p hp)

/-- A peer that does not answer to a test for 16 days, and then does. -/
def silentPeer : List Event :=
  [⟨0, .onConnectionOpen 1 true⟩,
    ⟨1431655800, .userDelayResponseElapsed 1 1431655800⟩,
    ⟨1431656800, .userDelayResponseElapsed 1 1431656800⟩,
    ⟨1431657800, .userDelayResponseElapsed 1 1431657800⟩,
    ⟨1431657900, .userNetworkDelay 1 1431657900⟩]

/-- The sum of three such delays overflows. -/
theorem silentPeer_panics :
    ((machine true false).run (some (default 0)) (silentPeer.take 4)).isSome = true ∧
      ((machine true false).run (some (default 0)) silentPeer).isSome = false := by
  decide +kernel

theorem run_inv {events : List Event}
    (h : (machine checks linux).run (some (default now)) events = some q) : Inv q :=
  (machine checks linux).inv_run (I := InvUnlessPanicked)
    (fun _ hq => Option.some_inj.mp hq ▸ inv_default now) (fun _ e hs => next_inv hs e) events q h

end VideoQos

end LibRustdesk
