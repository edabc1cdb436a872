import Mathlib.Data.List.Sort

/-!
# The codec that is negotiated

`Encoder::update` of `libs/scrap/src/common/codec.rs`: a peer joins, changes what it can decode or
leaves, and of the codecs that all peers can decode the one with the most votes is taken.

* `Host` is what the machine answers meanwhile: which encoders it has, and the order in which the
  map of the peers is gone through. A feature that is not compiled in is one that is not enabled.
* `negotiate` — the format that `update` stores.
* `negotiate_decodes` — every peer can decode it. VP9 is taken for a codec that all peers decode,
  and their ability for it is not asked. -/

namespace LibRustdesk.Video

inductive CodecFormat
  | vp8
  | vp9
  | av1
  | h264
  | h265
  | unknown
  deriving DecidableEq, Repr

inductive PreferCodec
  | auto
  | vp9
  | h264
  | h265
  | vp8
  | av1
  deriving DecidableEq, Repr

def PreferCodec.value : PreferCodec → Int32
  | .auto => 0
  | .vp9 => 1
  | .h264 => 2
  | .h265 => 3
  | .vp8 => 4
  | .av1 => 5

/-- `enum_value_or(Auto)`. -/
def PreferCodec.ofValue (v : Int32) : PreferCodec :=
  ([.auto, .vp9, .h264, .h265, .vp8, .av1].find? fun p => p.value = v).getD .auto

/-- `SupportedDecoding`, without what it says of the chroma. `prefer` may be a number of no codec.
-/
structure SupportedDecoding where
  abilityVp9 : Int32
  abilityH264 : Int32
  abilityH265 : Int32
  prefer : Int32
  abilityVp8 : Int32
  abilityAv1 : Int32
  deriving DecidableEq, Repr

/-- `PEER_DECODINGS`. -/
abbrev Decodings := List (Int32 × SupportedDecoding)

def Decodings.insert (ds : Decodings) (id : Int32) (d : SupportedDecoding) : Decodings :=
  (id, d) :: ds.filter fun e => e.1 ≠ id

def Decodings.remove (ds : Decodings) (id : Int32) : Decodings := ds.filter fun e => e.1 ≠ id

/-- `SupportedEncoding`, without the chroma. -/
structure SupportedEncoding where
  vp8 : Bool
  av1 : Bool
  h264 : Bool
  h265 : Bool
  deriving DecidableEq, Repr

structure Host where
  /-- The map is gone through by these ranks. -/
  rank : Int32 → ℕ
  disableAv1 : Bool
  enableVramOption : Bool
  /-- `VRamEncoder::available` finds an encoder. -/
  vramAvailable : CodecFormat → Bool
  enableHwcodecOption : Bool
  /-- The name that `HwRamEncoder::try_get` finds. -/
  hwTryGet : CodecFormat → Option (List Char)
  /-- `OPTION_AV1_TEST` is not `N`. -/
  av1Test : Bool
  /-- At most 4 GiB of memory. -/
  smallMemory : Bool

/-! ### An update -/

/-- The entries in the order in which the map is gone through. -/
def Host.iterate (host : Host) (ds : Decodings) : Decodings :=
  ds.insertionSort fun a b => host.rank a.1 ≤ host.rank b.1

def allSupport (ds : Decodings) (ability : SupportedDecoding → Int32) : Bool :=
  !ds.isEmpty && ds.all fun e => 0 < ability e.2

/-- There is an encoder for the format, on the graphics card or another. -/
def Host.encoding (host : Host) (format : CodecFormat) : Bool :=
  (host.enableVramOption && host.vramAvailable format) ||
    (host.enableHwcodecOption && (host.hwTryGet format).isSome)

/-- `USABLE_ENCODING`. -/
def usable (host : Host) (ds : Decodings) : SupportedEncoding where
  vp8 := allSupport ds (·.abilityVp8)
  av1 := allSupport ds (·.abilityAv1) && !host.disableAv1
  h264 := allSupport ds (·.abilityH264) && host.encoding .h264
  h265 := allSupport ds (·.abilityH265) && host.encoding .h265

def preferences (u : SupportedEncoding) (ds : Decodings) : List Int32 :=
  (ds.filter fun e =>
    e.2.prefer = PreferCodec.vp9.value ∨ (e.2.prefer = PreferCodec.vp8.value ∧ u.vp8) ∨
      (e.2.prefer = PreferCodec.av1.value ∧ u.av1) ∨
      (e.2.prefer = PreferCodec.h264.value ∧ u.h264) ∨
      (e.2.prefer = PreferCodec.h265.value ∧ u.h265)).map (·.2.prefer)

/-- One vote more in `counts`. -/
def tally : List (Int32 × ℕ) → Int32 → List (Int32 × ℕ)
  | [], p => [(p, 1)]
  | (q, n) :: counts, p => if q = p then (q, n + 1) :: counts else (q, n) :: tally counts p

def mostFrequent (counts : List (Int32 × ℕ)) : Int32 :=
  let maxCount := (counts.map Prod.snd).foldl max 0
  ((counts.find? fun c => c.2 = maxCount).map Prod.fst).getD PreferCodec.auto.value

def autoCodec (host : Host) (u : SupportedEncoding) : CodecFormat :=
  let codec := if u.av1 && host.av1Test then CodecFormat.av1 else .vp9
  let codec := if u.h264 then .h264 else codec
  let codec := if u.h265 then .h265 else codec
  if (codec = .vp9 ∨ codec = .av1) ∧ u.vp8 ∧ host.smallMemory then .vp8 else codec

/-- The format for the preference that has the most votes. -/
def negotiate (host : Host) (ds : Decodings) : CodecFormat :=
  let u := usable host ds
  let counts := (preferences u (host.iterate ds)).foldl tally []
  match PreferCodec.ofValue (mostFrequent counts) with
  | .vp8 => .vp8
  | .vp9 => .vp9
  | .av1 => .av1
  | .h264 => if host.encoding .h264 then .h264 else autoCodec host u
  | .h265 => if host.encoding .h265 then .h265 else autoCodec host u
  | .auto => autoCodec host u

/-! ### Every peer decodes it -/

def Decodes : CodecFormat → SupportedDecoding → Prop
  | .vp8, d => 0 < d.abilityVp8
  | .vp9, _ => True
  | .av1, d => 0 < d.abilityAv1
  | .h264, d => 0 < d.abilityH264
  | .h265, d => 0 < d.abilityH265
  | .unknown, _ => False

instance (format : CodecFormat) (d : SupportedDecoding) : Decidable (Decodes format d) := by
  unfold Decodes
  split <;> infer_instance

theorem lt_of_allSupport {ds : Decodings} {ability : SupportedDecoding → Int32}
    (h : allSupport ds ability = true) : ∀ e ∈ ds, 0 < ability e.2 := by
  unfold allSupport at h
  rw [Bool.and_eq_true, List.all_eq_true] at h
  exact fun e he => of_decide_eq_true (h.2 e he)

theorem decodes_usable (host : Host) (ds : Decodings) :
    ((usable host ds).vp8 = true → ∀ e ∈ ds, Decodes .vp8 e.2) ∧
      ((usable host ds).av1 = true → ∀ e ∈ ds, Decodes .av1 e.2) ∧
      ((usable host ds).h264 = true → ∀ e ∈ ds, Decodes .h264 e.2) ∧
      ((usable host ds).h265 = true → ∀ e ∈ ds, Decodes .h265 e.2) := by
  refine ⟨fun h => lt_of_allSupport h, fun h => ?_, fun h => ?_, fun h => ?_⟩
  all_goals exact lt_of_allSupport (Bool.and_eq_true_iff.mp h).1

theorem decodes_ite {p : Prop} [Decidable p] {a b : CodecFormat} {d : SupportedDecoding}
    (ha : p → Decodes a d) (hb : Decodes b d) : Decodes (if p then a else b) d := by
  split
  · next h => exact ha h
  · exact hb

theorem decodes_autoCodec (host : Host) (ds : Decodings) :
    ∀ e ∈ ds, Decodes (autoCodec host (usable host ds)) e.2 := by
  intro e he
  obtain ⟨hvp8, hav1, hh264, hh265⟩ := decodes_usable host ds
  -- the choices, from the last to the first
  refine decodes_ite (fun h => hvp8 h.2.1 e he) ?_
  refine decodes_ite (fun h => hh265 h e he) ?_
  refine decodes_ite (fun h => hh264 h e he) ?_
  exact decodes_ite (fun h => hav1 (Bool.and_eq_true_iff.mp h).1 e he) trivial

theorem mem_tally {counts : List (Int32 × ℕ)} {p : Int32} :
    ∀ c ∈ tally counts p, c.1 = p ∨ c.1 ∈ counts.map Prod.fst := by
  induction counts with
  | nil =>
    intro c hc
    rw [List.mem_singleton.mp hc]
    exact Or.inl rfl
  | cons q counts ih =>
    intro c hc
    unfold tally at hc
    split at hc
    · next heq =>
      rcases List.mem_cons.mp hc with rfl | hc
      · exact Or.inl heq
      · exact Or.inr (List.mem_cons_of_mem _ (List.mem_map_of_mem hc))
    · rcases List.mem_cons.mp hc with rfl | hc
      · exact Or.inr List.mem_cons_self
      · exact (ih c hc).imp id (List.mem_cons_of_mem _)

theorem mem_foldl_tally (votes : List Int32) :
    ∀ counts, ∀ c ∈ votes.foldl tally counts, c.1 ∈ votes ∨ c.1 ∈ counts.map Prod.fst := by
  induction votes with
  | nil => exact fun counts c hc => Or.inr (List.mem_map_of_mem hc)
  | cons p votes ih =>
    intro counts c hc
    rcases ih _ c hc with hvote | hcount
    · exact Or.inl (List.mem_cons_of_mem p hvote)
    · obtain ⟨c', hc', heq⟩ := List.mem_map.mp hcount
      rw [← heq]
      exact (mem_tally c' hc').imp (fun h => by rw [h]; exact List.mem_cons_self) id

theorem mostFrequent_mem (votes : List Int32) :
    mostFrequent (votes.foldl tally []) ∈ votes ∨
      mostFrequent (votes.foldl tally []) = PreferCodec.auto.value := by
  unfold mostFrequent
  dsimp only
  cases hfind : (votes.foldl tally []).find? _ with
  | none => exact Or.inr rfl
  | some c =>
    rcases mem_foldl_tally votes [] c (List.mem_of_find?_eq_some hfind) with hvote | hnone
    · exact Or.inl hvote
    · cases hnone

theorem usable_of_mem_preferences {u : SupportedEncoding} {ds : Decodings} {v : Int32}
    (h : v ∈ preferences u ds) :
    v = PreferCodec.vp9.value ∨ (v = PreferCodec.vp8.value ∧ u.vp8 = true) ∨
      (v = PreferCodec.av1.value ∧ u.av1 = true) ∨ (v = PreferCodec.h264.value ∧ u.h264 = true) ∨
      (v = PreferCodec.h265.value ∧ u.h265 = true) := by
  obtain ⟨e, he, rfl⟩ := List.mem_map.mp h
  exact of_decide_eq_true (List.mem_filter.mp he).2

theorem negotiate_decodes (host : Host) (ds : Decodings) :
    ∀ e ∈ ds, Decodes (negotiate host ds) e.2 := by
  intro e he
  obtain ⟨hvp8, hav1, hh264, hh265⟩ := decodes_usable host ds
  have hauto := decodes_autoCodec host ds e he
  -- the winner is a usable codec, or nobody has voted
  have hvote : mostFrequent ((preferences (usable host ds) (host.iterate ds)).foldl tally []) =
        PreferCodec.auto.value ∨ _ :=
    (mostFrequent_mem _).symm.imp id usable_of_mem_preferences
  unfold negotiate
  dsimp only
  rcases hvote with hv | hv | ⟨hv, hu⟩ | ⟨hv, hu⟩ | ⟨hv, hu⟩ | ⟨hv, hu⟩ <;> rw [hv]
  · exact hauto
  · trivial
  · exact hvp8 hu e he
  · exact hav1 hu e he
  · exact decodes_ite (fun _ => hh264 hu e he) hauto
  · exact decodes_ite (fun _ => hh265 hu e he) hauto

end LibRustdesk.Video
