import LibRustdesk.Server.QosBounds

/-!
# The bands of the network delay

`user_network_delay` is documented to increase the frame rate of a user whose network delay is below
150 ms, and to decrease it from there on. The frame rate it starts from is the one in force, and
that is the least one of all the users.

From 150 to 200 ms the new frame rate is not below the least fluent one, and from 300 to 600 ms it
is a constant divided by the delay. Either may be more than the frame rate in force.

* `UserDelay.devideFps_le` — what is divided by the delay is not more than before.
* `VideoQos.Raises` — the frame rate in force is below that of one of these bands.
* `VideoQos.keepsBand_iff` — **the frame rate of a user follows the documented band, in any state
  that can be reached, exactly when the frame rate in force is not below that of the band.**
-/

namespace LibRustdesk

open VideoQos

theorem UserDelay.devideFps_le {fps avg : ℕ} (hfps : fps ≤ 120) (h : DELAY_THRESHOLD_150MS ≤ avg) :
    devideFps fps avg ≤ fps :=
  F32.asU32_ceil_div_le (lt_of_le_of_lt hfps (by decide))
    (F32.one_le_div (by decide) (by decide) h)

namespace VideoQos

variable {checks linux : Bool} {q q' : VideoQos}

/-- The frame rate `fps` set for a user with the average delay `avg` follows the documented band: it
is not above the one in force, or, below the threshold, not below it further than the limits demand.
-/
def KeepsBand (q : VideoQos) (avg fps : ℕ) : Prop :=
  (DELAY_THRESHOLD_150MS ≤ avg → fps ≤ q.getFps) ∧
    (avg < DELAY_THRESHOLD_150MS → min q.getFps q.highestFps ≤ fps)

/-- The frame rate in force is below that of the band of an average delay, and below the limits. -/
def Raises (q : VideoQos) (avg : ℕ) : Prop :=
  (DELAY_THRESHOLD_150MS ≤ avg ∧ avg < 200 ∧ q.getFps < min q.minFps q.highestFps) ∨
    (300 ≤ avg ∧ avg < 600 ∧
      q.getFps < min (DELAY_THRESHOLD_150MS * q.minFps / avg) q.highestFps)

theorem decreasedFps_le_iff (h : Inv q) {avg fps : ℕ} (havg : DELAY_THRESHOLD_150MS ≤ avg)
    (hsome : UserDelay.decreasedFps q.minFps (DELAY_THRESHOLD_150MS * q.minFps) q.fps avg =
      some fps) :
    min (max fps MIN_FPS) q.highestFps ≤ q.getFps ↔ ¬Raises q avg := by
  have hdivide := UserDelay.devideFps_le h.fps.2 havg
  have hpos : 0 < avg := lt_of_lt_of_le (by decide) havg
  have hone : 1 ≤ q.fps := h.fps.1
  unfold Raises
  rw [getFps_of_valid h.fps]
  unfold UserDelay.decreasedFps at hsome
  rw [u32Div_of_pos hpos] at hsome
  generalize UserDelay.devideFps q.fps avg = divided at hdivide hsome
  generalize DELAY_THRESHOLD_150MS * q.minFps / avg = constant at hsome ⊢
  unfold MIN_FPS
  split at hsome
  · -- from 150 to 200 ms, not below the least fluent frame rate
    obtain rfl := Option.some_inj.mp hsome
    omega
  · split at hsome
    · -- from 200 to 300 ms
      obtain rfl := Option.some_inj.mp hsome
      omega
    · split at hsome
      · -- from 300 to 600 ms, whatever is in force
        obtain rfl := Option.some_inj.mp hsome
        omega
      · obtain rfl := Option.some_inj.mp hsome
        omega

/-- **The documented bands.** In every state that can be reached, an answer to a test of the delay
leaves the user with an average delay and a frame rate, which follows the band of the delay exactly
when the frame rate in force is not below that of the band. -/
theorem keepsBand_iff {start : ℕ} {events : List Event} {now : ℕ} {id : ℤ} {delay : UInt32}
    {u : UserData}
    (hq : (machine checks linux).run (some (default start)) events = some q)
    (hstep : step checks linux q ⟨now, .userNetworkDelay id delay⟩ = some q')
    (hu : q.users.lookup id = some u) :
    ∃ d avg fps, q'.users.lookup id = some { u with delay := d } ∧
      (u.delay.addDelay (max delay.toNat 10)).avgDelay checks = some avg ∧
      d.avgDelay checks = some avg ∧ d.fps = some fps ∧
      (KeepsBand q avg fps ↔ ¬Raises q avg) := by
  have h := run_inv hq
  obtain ⟨q₁, hadjusted, -, hsome⟩ := userNetworkDelay_adjusted hstep
  obtain ⟨d, hd, rfl⟩ := hsome u hu
  obtain ⟨old, avg, hold, havg⟩ := UserDelay.averages_of_onNetworkDelay hd
  obtain ⟨fps, quick, count, hspec, -, -, hgood, hbad⟩ := UserDelay.onNetworkDelay_spec
    q.normalFps (DELAY_THRESHOLD_150MS * q.minFps) (le_trans (minFps_le q) (by decide)) h.fps.2
    (one_le_highestFps q) (h.lookup hu).counting hold havg
  rw [hspec] at hd
  have hresult := Option.some_inj.mp hd
  refine ⟨d, avg, fps, ?_, havg, ?_, ?_, ?_⟩
  · -- the user is changed, and what is set for all changes no user
    rw [hadjusted.users]
    unfold updateUser
    rw [KeyedMap.lookup_mapValues, hu, Option.map_some, if_pos rfl]
  · rw [← hresult]
    exact havg
  · rw [← hresult]
  · by_cases hlow : avg < DELAY_THRESHOLD_150MS
    · have hnot : ¬Raises q avg := by
        unfold Raises
        unfold DELAY_THRESHOLD_150MS at hlow ⊢
        omega
      refine iff_of_true ⟨fun hhigh => absurd hlow (not_lt.mpr hhigh), fun _ => ?_⟩ hnot
      rw [getFps_of_valid h.fps]
      exact hgood hlow
    · obtain ⟨f, hf, rfl⟩ := hbad (not_lt.mp hlow)
      rw [← decreasedFps_le_iff h (not_lt.mp hlow) hf]
      exact ⟨fun hkeeps => hkeeps.1 (not_lt.mp hlow),
        fun hle => ⟨fun _ => hle, fun habove => absurd habove hlow⟩⟩

/-- A peer whose network was bad for a time, so that the frame rate is the least one. -/
def slowPeer : List Event :=
  [⟨0, .onConnectionOpen 1 true⟩,
    ⟨5000, .userNetworkDelay 1 5000⟩,
    ⟨6000, .userNetworkDelay 1 10⟩,
    ⟨7000, .userNetworkDelay 1 10⟩]

theorem keepsBand_iff_slowPeer : ∃ q q' u d avg fps,
    (machine true false).run (some (default 0)) slowPeer = some q ∧
      step true false q ⟨8000, .userNetworkDelay 1 480⟩ = some q' ∧
      q.users.lookup 1 = some u ∧ q'.users.lookup 1 = some { u with delay := d } ∧
      (u.delay.addDelay (max (480 : UInt32).toNat 10)).avgDelay true = some avg ∧
      d.avgDelay true = some avg ∧ d.fps = some fps ∧ (KeepsBand q avg fps ↔ ¬Raises q avg) := by
  obtain ⟨q, hq⟩ := Option.isSome_iff_exists.mp
    (by decide +kernel : ((machine true false).run (some (default 0)) slowPeer).isSome = true)
  have hnext : (((machine true false).run (some (default 0)) slowPeer).bind fun q =>
      step true false q ⟨8000, .userNetworkDelay 1 480⟩).isSome = true := by decide +kernel
  have huser : (((machine true false).run (some (default 0)) slowPeer).bind fun q =>
      q.users.lookup 1).isSome = true := by decide +kernel
  rw [hq] at hnext huser
  obtain ⟨q', hstep⟩ := Option.isSome_iff_exists.mp hnext
  obtain ⟨u, hu⟩ := Option.isSome_iff_exists.mp huser
  obtain ⟨d, avg, fps, hresult⟩ := keepsBand_iff hq hstep hu
  exact ⟨q, q', u, d, avg, fps, hq, hstep, hu, hresult⟩

/-- The next answer after 480 ms makes an average of 166 ms, and the frame rate is raised from 1 to
10. After 1200 ms it is 406 ms, and the frame rate is raised to 3. -/
theorem slowPeer_raised :
    ((machine true false).run (some (default 0)) slowPeer).map
        (fun q => (q.getFps, q.highestFps)) = some (1, 30) ∧
      (((machine true false).run (some (default 0))
          (slowPeer ++ [⟨8000, .userNetworkDelay 1 480⟩])).bind fun q =>
        (q.users.lookup 1).map fun u => (u.delay.avgDelay true, u.delay.fps)) =
          some (some 166, some 10) ∧
      (((machine true false).run (some (default 0))
          (slowPeer ++ [⟨8000, .userNetworkDelay 1 1200⟩])).bind fun q =>
        (q.users.lookup 1).map fun u => (u.delay.avgDelay true, u.delay.fps)) =
          some (some 406, some 3) := by
  decide +kernel

end VideoQos

end LibRustdesk
