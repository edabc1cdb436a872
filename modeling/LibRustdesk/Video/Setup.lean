import LibRustdesk.Framework.Machine
import LibRustdesk.Video.Codec

/-!
# Negotiation while encoders are set up

The negotiated format is one cell, `ENCODE_CODEC_FORMAT`. `Encoder::update` stores it for the peers
there are, and the video services store it when an encoder is set up (`setup_encoder` of
`server/video_service.rs`), from what they have read before.

* An update holds the lock of the peers from its first line to its last, and the format is stored
  under both locks, so it is one step (`Event.update`).
* A service reads the format for its configuration (`Event.config`), compares the format of that
  with the cell (`Event.compare`), stores it if it is another (`Event.fallBack`), and makes the
  encoder, which stores VP9 where a hardware encoder fails (`Event.new`). Each is a step of its own.
* `State.AllDecode` — every peer can decode the negotiated format.

`negotiated_iff` says which runs keep to it: those in which a service falls back only to what the
peers of that moment can decode. An update that comes between the configuration and the fall-back is
lost (`negotiated_fails`).
-/

namespace LibRustdesk.Video

inductive VpxVideoCodecId
  | vp8
  | vp9
  deriving DecidableEq, Repr

inductive DataFormat
  | h264
  | h265
  | other
  deriving DecidableEq, Repr

/-- `EncoderCfg`, by what `set_fallback` looks at. -/
inductive EncoderCfg
  | vpx (codec : VpxVideoCodecId)
  | aom
  | hwram (name : List Char)
  | vram (dataFormat : DataFormat)
  deriving DecidableEq, Repr

def nameContains (name : List Char) (letters : String) : Bool :=
  (name.map Char.toLower).tails.any fun rest => letters.toList.isPrefixOf rest

/-- The format that `set_fallback` finds for a configuration, and `none` where it returns. -/
def EncoderCfg.format : EncoderCfg → Option CodecFormat
  | .vpx .vp8 => some .vp8
  | .vpx .vp9 => some .vp9
  | .aom => some .av1
  | .hwram name =>
    if nameContains name "vp8" then some .vp8
    else if nameContains name "vp9" then some .vp9
    else if nameContains name "av1" then some .av1
    else if nameContains name "h264" then some .h264
    else some .h265
  | .vram .h264 => some .h264
  | .vram .h265 => some .h265
  | .vram .other => none

def EncoderCfg.isHardware : EncoderCfg → Bool
  | .hwram _ | .vram _ => true
  | .vpx _ | .aom => false

/-- `get_encoder_config` once it has read the format. `vram` and `hwram` are what the `try_get` of
the encoders find. -/
def getEncoderConfig (negotiatedCodec : CodecFormat) (vram : CodecFormat → Option DataFormat)
    (hwram : CodecFormat → Option (List Char)) : EncoderCfg :=
  match negotiatedCodec with
  | .h264 | .h265 =>
    match vram negotiatedCodec with
    | some dataFormat => .vram dataFormat
    | none =>
      match hwram negotiatedCodec with
      | some name => .hwram name
      | none => .vpx .vp9
  | .vp8 => .vpx .vp8
  | .vp9 => .vpx .vp9
  | .av1 => .aom
  | .unknown => .vpx .vp9

/-! ### The machine -/

inductive EncodingUpdate
  | update (id : Int32) (decoding : SupportedDecoding)
  | remove (id : Int32)
  | newOnlyVp9 (id : Int32)
  | check
  deriving DecidableEq, Repr

/-- Where a video service is in `setup_encoder`. -/
inductive Phase
  | idle
  | configured (cfg : EncoderCfg)
  /-- The format of the configuration is to be stored. -/
  | falling (cfg : EncoderCfg) (format : CodecFormat)
  | fellBack (cfg : EncoderCfg)
  deriving DecidableEq, Repr

structure State where
  decodings : Decodings
  format : CodecFormat
  usableEncoding : Option SupportedEncoding
  services : ℕ → Phase

inductive Event
  | update (u : EncodingUpdate) (host : Host)
  | config (service : ℕ) (vram : CodecFormat → Option DataFormat)
      (hwram : CodecFormat → Option (List Char))
  | compare (service : ℕ)
  | fallBack (service : ℕ)
  | new (service : ℕ) (succeeds : Bool)
  /-- Some thread asks for the negotiated codec. -/
  | negotiatedCodec

namespace State

def init : State := ⟨[], .vp9, none, fun _ => .idle⟩

def setPhase (s : State) (service : ℕ) (p : Phase) : State :=
  { s with services := Function.update s.services service p }

/-- The peers after the first half of `Encoder::update`. -/
def updateDecodings (s : State) : EncodingUpdate → Decodings
  | .update id decoding => s.decodings.insert id decoding
  | .remove id => s.decodings.remove id
  | .newOnlyVp9 id => s.decodings.insert id ⟨1, 0, 0, PreferCodec.auto.value, 0, 0⟩
  | .check => s.decodings

def update (s : State) (u : EncodingUpdate) (host : Host) : State :=
  let decodings := s.updateDecodings u
  { s with
    decodings := decodings
    usableEncoding := some (usable host decodings)
    format := negotiate host decodings }

/-- The first lock of `Encoder::set_fallback`. -/
def compare (s : State) (service : ℕ) (cfg : EncoderCfg) : State :=
  match cfg.format with
  | none => s.setPhase service (.fellBack cfg)
  | some format =>
    if s.format = format then s.setPhase service (.fellBack cfg)
    else s.setPhase service (.falling cfg format)

def new (s : State) (service : ℕ) (cfg : EncoderCfg) (succeeds : Bool) : State :=
  let s := s.setPhase service .idle
  if cfg.isHardware && !succeeds then { s with format := .vp9 } else s

end State

/-- The services and the connections, in whatever order they move. -/
def machine : Machine State Event CodecFormat where
  step s
    | .update u host => (s.update u host, [])
    | .config service vram hwram =>
      match s.services service with
      | .idle => (s.setPhase service (.configured (getEncoderConfig s.format vram hwram)), [])
      | _ => (s, [])
    | .compare service =>
      match s.services service with
      | .configured cfg => (s.compare service cfg, [])
      | _ => (s, [])
    | .fallBack service =>
      match s.services service with
      | .falling cfg format => ({ s.setPhase service (.fellBack cfg) with format := format }, [])
      | _ => (s, [])
    | .new service succeeds =>
      match s.services service with
      | .fellBack cfg => (s.new service cfg succeeds, [])
      | _ => (s, [])
    | .negotiatedCodec => (s, [s.format])

/-! ### What every peer decodes -/

def State.AllDecode (s : State) : Prop := ∀ e ∈ s.decodings, Decodes s.format e.2

instance (s : State) : Decidable s.AllDecode :=
  inferInstanceAs (Decidable (∀ e ∈ s.decodings, Decodes s.format e.2))

/-- A service that falls back does so to a format that every peer can decode. -/
def FallsBackWell (s : State) : Event → Prop
  | .fallBack service =>
    match s.services service with
    | .falling _ format => ∀ e ∈ s.decodings, Decodes format e.2
    | _ => True
  | _ => True

theorem allDecode_next_iff {s : State} (hs : s.AllDecode) (e : Event) :
    (machine.next s e).AllDecode ↔ FallsBackWell s e := by
  have hkept (service : ℕ) (p : Phase) : (s.setPhase service p).AllDecode := hs
  cases e with
  | update u host => exact iff_of_true (negotiate_decodes host _) trivial
  | negotiatedCodec => exact iff_of_true hs trivial
  | config service vram hwram =>
    refine iff_of_true ?_ trivial
    unfold Machine.next machine
    dsimp only
    split
    · exact hkept _ _
    · exact hs
  | compare service =>
    refine iff_of_true ?_ trivial
    unfold Machine.next machine
    dsimp only
    split
    · next cfg _ =>
      unfold State.compare
      split
      · exact hkept _ _
      split
      · exact hkept _ _
      · exact hkept _ _
    · exact hs
  | fallBack service =>
    unfold Machine.next machine FallsBackWell
    dsimp only
    split
    · exact Iff.rfl
    · exact iff_of_true hs trivial
  | new service succeeds =>
    refine iff_of_true ?_ trivial
    unfold Machine.next machine
    dsimp only
    split
    · next cfg _ =>
      unfold State.new
      split
      · exact fun _ _ => trivial
      · exact hkept _ _
    · exact hs

/-- **The negotiated codec** is one that every peer can decode, in each state of a run, exactly when
the services of the run fall back well. -/
theorem negotiated_iff (es : List Event) :
    (∀ pre, pre <+: es → (machine.run State.init pre).AllDecode) ↔
      machine.Meets FallsBackWell State.init es :=
  Machine.meets_iff_inv (J := fun _ => True) (fun _ he => absurd he List.not_mem_nil) trivial
    (fun _ _ _ => trivial) fun _ e _ hs => allDecode_next_iff hs e

/-! ### A lost update -/

/-- A machine with the encoders of the program alone. -/
def softwareHost : Host := ⟨fun _ => 0, false, false, fun _ => false, false,
    fun _ => none, true, false⟩

/-- A peer that decodes AV1 is alone, a service is configured for it, and a peer that has said
nothing of codecs joins before the service has set up its encoder. -/
def lateJoin : List Event :=
  [.update (.update 1 ⟨1, 0, 0, 0, 0, 1⟩) softwareHost, .config 0 (fun _ => none) (fun _ => none),
    .update (.newOnlyVp9 2) softwareHost, .compare 0, .fallBack 0, .new 0 true]

/-- All calls have returned, and the negotiated codec is AV1. -/
theorem negotiated_fails :
    (∀ service, (machine.run State.init lateJoin).services service = .idle) ∧
      (machine.run State.init lateJoin).format = .av1 ∧
      ¬ (machine.run State.init lateJoin).AllDecode := by
  refine ⟨fun service => ?_, by decide +kernel, by decide +kernel⟩
  show Function.update (Function.update (Function.update (Function.update
    (fun _ => Phase.idle) 0 _) 0 _) 0 _) 0 Phase.idle service = Phase.idle
  rw [Function.update_idem, Function.update_idem, Function.update_idem, Function.update_apply,
    ite_self]

end LibRustdesk.Video
