import LibRustdesk.Clipboard.ServFiles
import LibRustdesk.Common.Compress
import LibRustdesk.Ohos.Utf8

/-!
# Clipboard contents as messages

`mod proto` of `src/clipboard.rs`: the items of a clipboard become `Clipboard` messages, compressed
where that makes them shorter, and the peer makes items of them again. A peer that does not know
`MultiClipboards` is sent the first text.

`arboard` is outside the repository; `ClipboardData` and `ImageData` are its types as far as this
code takes them apart, and `ClipboardData.other` stands for the kinds it does not send. Each item is
compressed by a call of its own, and each call may fail, so the sender's compressor is a family
indexed by the items.

Two things are lost on the way. `compress` answers a failed call with the empty vector, which is
shorter than what was to be compressed and so is sent. And where compression does not make a special
item shorter, its name is sent in the place of its data. `multi_clipboards_roundtrip_iff` says that
nothing else is, apart from the dimensions of an image that an `i32` does not hold.
-/

namespace LibRustdesk.Clipboard.Proto

open LittleEndian
open Ohos (asBytes fromUtf8)

inductive ImageData
  | rgba (width height : UInt64) (bytes : Bytes)
  | png (bytes : Bytes)
  | svg (s : List Char)
  deriving DecidableEq, Repr

inductive ClipboardData
  | text (s : List Char)
  | rtf (s : List Char)
  | html (s : List Char)
  | image (a : ImageData)
  | special (name : List Char) (d : Bytes)
  | other
  deriving DecidableEq, Repr

/-- `ClipboardFormat`; an enum value that is none of them is `none` where it is read. -/
inductive ClipboardFormat
  | text
  | rtf
  | html
  | imageRgba
  | imagePng
  | imageSvg
  | special
  deriving DecidableEq, Repr

/-- The message `Clipboard`. -/
structure ClipboardMessage where
  compress : Bool
  content : Bytes
  width : Int32
  height : Int32
  format : Option ClipboardFormat
  specialName : List Char
  deriving DecidableEq, Repr

def ClipboardMessage.default : ClipboardMessage := ⟨false, [], 0, 0, some .text, []⟩

/-! ### Sending -/

/-- `x as i32` of a `usize`. -/
def asI32 (x : UInt64) : Int32 := x.toUInt32.toInt32

/-- The compressed bytes when they are fewer, and otherwise `plain`. -/
def packed (z : Zstd) (bytes plain : Bytes) : Bool × Bytes :=
  let compressed := compress z bytes
  if compressed.length < bytes.length then (true, compressed) else (false, plain)

def plainToProto (z : Zstd) (s : List Char) (format : ClipboardFormat) : ClipboardMessage :=
  let (compress, content) := packed z (asBytes s) (asBytes s)
  { ClipboardMessage.default with compress := compress, content := content, format := some format }

def imageToProto (z : Zstd) : ImageData → ClipboardMessage
  | .rgba width height bytes =>
    let (compress, content) := packed z bytes bytes
    { ClipboardMessage.default with
      compress := compress, content := content
      width := asI32 width, height := asI32 height
      format := some .imageRgba }
  | .png bytes => { ClipboardMessage.default with content := bytes, format := some .imagePng }
  | .svg s =>
    let (compress, content) := packed z (asBytes s) (asBytes s)
    { ClipboardMessage.default with
      compress := compress, content := content, format := some .imageSvg }

def specialToProto (z : Zstd) (d : Bytes) (s : List Char) : ClipboardMessage :=
  let (compress, content) := packed z d (asBytes s)
  { ClipboardMessage.default with
    compress := compress, content := content
    format := some .special, specialName := s }

def clipboardDataToProto (z : Zstd) : ClipboardData → Option ClipboardMessage
  | .text s => some (plainToProto z s .text)
  | .rtf s => some (plainToProto z s .rtf)
  | .html s => some (plainToProto z s .html)
  | .image a => some (imageToProto z a)
  | .special s d => some (specialToProto z d s)
  | .other => none

def createMultiClipboards (z : ℕ → Zstd) (data : List ClipboardData) : List ClipboardMessage :=
  data.zipIdx.filterMap fun (d, i) => clipboardDataToProto (z i) d

/-! ### Receiving -/

def ClipboardMessage.unpack (peer : Zstd) (c : ClipboardMessage) : Bytes :=
  if c.compress then decompress peer c.content else c.content

def fromClipboard (peer : Zstd) (c : ClipboardMessage) : Option ClipboardData :=
  let data := c.unpack peer
  match c.format with
  | some .text => (fromUtf8 data).map .text
  | some .rtf => (fromUtf8 data).map .rtf
  | some .html => (fromUtf8 data).map .html
  | some .imageRgba => some (.image (.rgba (asU64 c.width) (asU64 c.height) data))
  | some .imagePng => some (.image (.png data))
  | some .imageSvg => some (.image (.svg ((fromUtf8 data).getD [])))
  | some .special => some (.special c.specialName data)
  | none => none

def fromMultiClipboards (peer : Zstd) (multiClipboards : List ClipboardMessage) :
    List ClipboardData :=
  multiClipboards.filterMap (fromClipboard peer)

/-- `is_support_multi_clipboard`; the version is the number `get_version_number` makes of it. -/
def isSupportMultiClipboard (peerVersion : ℤ) (peerPlatform : List Char) : Bool :=
  if peerVersion < 1003000 then false
  else if peerPlatform = [] ∨ peerPlatform = "iOS".toList then false
  else if peerPlatform = "Android".toList ∧ peerVersion < 1003030 then false
  else true

/-- The message for a peer that takes one clipboard at a time, if it is such a peer. -/
def getMsgIfNotSupportMultiClip (version : ℤ) (platform : List Char)
    (multiClipboards : List ClipboardMessage) : Option ClipboardMessage :=
  if isSupportMultiClipboard version platform then none
  else multiClipboards.find? fun c => c.format = some .text

def ClipboardData.isText : ClipboardData → Bool
  | .text _ => true
  | _ => false

/-! ### What arrives -/

/-- The bytes survive being packed: there are none, or the compressor does its work. -/
def Packs (z : Zstd) (bytes : Bytes) : Prop := bytes = [] ∨ (z.compressor bytes).isSome

instance (z : Zstd) (bytes : Bytes) : Decidable (Packs z bytes) :=
  inferInstanceAs (Decidable (_ ∨ _))

/-- An `i32` holds it. -/
def HeldByI32 (x : UInt64) : Prop := x.toNat < 2 ^ 31 ∨ 2 ^ 64 - 2 ^ 31 ≤ x.toNat

def Survives (z : Zstd) : ClipboardData → Prop
  | .text s | .rtf s | .html s | .image (.svg s) => Packs z (asBytes s)
  | .image (.rgba width height bytes) => Packs z bytes ∧ HeldByI32 width ∧ HeldByI32 height
  | .image (.png _) => True
  | .special name d =>
    -- what is not sent compressed is the name
    Packs z d ∧ (asBytes name = d ∨ ∃ out, z.compressor d = some out ∧ out.length < d.length)
  | .other => False

theorem asU64_asI32 (x : UInt64) : asU64 (asI32 x) = x ↔ HeldByI32 x := by
  have hbits : (asU64 (asI32 x)).toBitVec = (x.toBitVec.setWidth 32).signExtend 64 := rfl
  have hlow : (x.toBitVec.setWidth 32).toNat = x.toNat % 2 ^ 32 := BitVec.toNat_setWidth _ _
  have hx : x.toNat < 2 ^ 64 := x.toNat_lt
  unfold HeldByI32
  rw [← UInt64.toNat_inj]
  show (asU64 (asI32 x)).toBitVec.toNat = x.toNat ↔ _
  rw [hbits, BitVec.toNat_signExtend, BitVec.msb_eq_decide, BitVec.toNat_setWidth, hlow]
  by_cases h : 2 ^ 31 ≤ x.toNat % 2 ^ 32
  · simp only [h, decide_true, if_true]
    omega
  · simp only [h, decide_false, Bool.false_eq_true, if_false]
    omega

section Arrival

variable {z peer : Zstd} (hundone : z.UndoneBy peer) (hnil : decompress peer [] = [])
include hundone hnil

theorem unpack_packed {c : ClipboardMessage} {bytes : Bytes}
    (hc : (c.compress, c.content) = packed z bytes bytes) :
    c.unpack peer = if Packs z bytes then bytes else [] := by
  have hpack : pack z bytes = (c.compress, c.content) := hc.symm
  have hunpack := unpack_pack hundone hnil bytes
  rw [hpack] at hunpack
  exact hunpack

theorem fromUtf8_unpack {c : ClipboardMessage} {s : List Char}
    (hc : (c.compress, c.content) = packed z (asBytes s) (asBytes s)) :
    fromUtf8 (c.unpack peer) = some (if Packs z (asBytes s) then s else []) := by
  rw [unpack_packed hundone hnil hc]
  split
  · exact Ohos.fromUtf8_asBytes s
  · exact Ohos.fromUtf8_asBytes []

theorem unpack_special (name : List Char) (d : Bytes) :
    (specialToProto z d name).unpack peer =
      if (compress z d).length < d.length then (z.compressor d).elim [] fun _ => d
      else asBytes name := by
  unfold specialToProto packed ClipboardMessage.unpack
  dsimp only
  by_cases hshort : (compress z d).length < d.length
  · rw [if_pos hshort, if_pos hshort]
    simp only [if_true]
    unfold compress at hshort ⊢
    cases hout : z.compressor d with
    | none => exact hnil
    | some out =>
      unfold decompress
      rw [Option.getD_some, hundone d out hout]
      rfl
  · rw [if_neg hshort, if_neg hshort]
    simp only [Bool.false_eq_true, if_false]

theorem arrives {d : ClipboardData} (hd : d ≠ .other) :
    ∃ d', (clipboardDataToProto z d).bind (fromClipboard peer) = some d' ∧
      (d' = d ↔ Survives z d) := by
  have htext (wrap : List Char → ClipboardData) (hwrap : Function.Injective wrap) (s : List Char) :
      wrap (if Packs z (asBytes s) then s else []) = wrap s ↔ Packs z (asBytes s) := by
    split
    · next hpacks => exact ⟨fun _ => hpacks, fun _ => rfl⟩
    · next hlost =>
      refine ⟨fun h => ?_, fun h => absurd h hlost⟩
      exact Or.inl (congrArg asBytes (hwrap h)).symm
  cases d with
  | text s =>
    refine ⟨_, congrArg (Option.map _) (fromUtf8_unpack hundone hnil (s := s) rfl), ?_⟩
    exact htext .text (fun _ _ h => ClipboardData.text.inj h) s
  | rtf s =>
    refine ⟨_, congrArg (Option.map _) (fromUtf8_unpack hundone hnil (s := s) rfl), ?_⟩
    exact htext .rtf (fun _ _ h => ClipboardData.rtf.inj h) s
  | html s =>
    refine ⟨_, congrArg (Option.map _) (fromUtf8_unpack hundone hnil (s := s) rfl), ?_⟩
    exact htext .html (fun _ _ h => ClipboardData.html.inj h) s
  | image a =>
    cases a with
    | rgba width height bytes =>
      refine ⟨_, rfl, ?_⟩
      have hbytes := unpack_packed hundone hnil (c := imageToProto z (.rgba width height bytes)) rfl
      show ClipboardData.image (.rgba (asU64 (asI32 width)) (asU64 (asI32 height)) _) = _ ↔
        Packs z bytes ∧ HeldByI32 width ∧ HeldByI32 height
      rw [hbytes, ← asU64_asI32 width, ← asU64_asI32 height]
      constructor
      · intro h
        obtain ⟨hw, hh, hb⟩ := ImageData.rgba.inj (ClipboardData.image.inj h)
        refine ⟨?_, hw, hh⟩
        split at hb
        · next hpacks => exact hpacks
        · exact Or.inl hb.symm
      · rintro ⟨hpacks, hw, hh⟩
        rw [if_pos hpacks]
        exact congrArg ClipboardData.image (by
          rw [ImageData.rgba.injEq]
          exact ⟨hw, hh, rfl⟩)
    | png bytes => exact ⟨_, rfl, fun _ => trivial, fun _ => rfl⟩
    | svg s =>
      have hs : fromUtf8 ((imageToProto z (.svg s)).unpack peer) = _ :=
        fromUtf8_unpack hundone hnil (c := imageToProto z (.svg s)) (s := s) rfl
      refine ⟨_, congrArg (fun v => some (ClipboardData.image (.svg (Option.getD v [])))) hs, ?_⟩
      exact htext (fun s => .image (.svg s))
        (fun _ _ h => ImageData.svg.inj (ClipboardData.image.inj h)) s
  | special name d =>
    refine ⟨_, congrArg (fun v => some (ClipboardData.special name v))
      (unpack_special hundone hnil name d), ?_⟩
    show ClipboardData.special name _ = .special name d ↔ Packs z d ∧ _
    rw [ClipboardData.special.injEq]
    unfold compress Packs
    cases hout : z.compressor d with
    | none =>
      -- Nothing is shorter than any data but the empty data.
      rw [Option.getD_none, List.length_nil]
      constructor
      · rintro ⟨-, h⟩
        split at h
        · next hpos =>
          rw [← h] at hpos
          cases hpos
        · next hempty =>
          exact ⟨Or.inl (List.length_eq_zero_iff.mp (Nat.eq_zero_of_not_pos hempty)), Or.inl h⟩
      · rintro ⟨hempty | hsome, h⟩
        · subst hempty
          rcases h with hname | ⟨out, hnone, -⟩
          · exact ⟨rfl, by rw [List.length_nil, if_neg (Nat.lt_irrefl 0), hname]⟩
          · cases hnone
        · cases hsome
    | some out =>
      rw [Option.getD_some]
      constructor
      · rintro ⟨-, h⟩
        refine ⟨Or.inr rfl, ?_⟩
        split at h
        · next hshort => exact Or.inr ⟨out, rfl, hshort⟩
        · exact Or.inl h
      · rintro ⟨-, h⟩
        refine ⟨rfl, ?_⟩
        split
        · rfl
        · next hlong =>
          rcases h with hname | ⟨out', hout', hshort⟩
          · exact hname
          · obtain rfl := Option.some.inj hout'
            exact absurd hshort hlong
  | other => exact absurd rfl hd

end Arrival

/-! ### The whole clipboard -/

section Clipboards

variable {z : ℕ → Zstd} {peer : Zstd} (hundone : ∀ i, (z i).UndoneBy peer)
  (hnil : decompress peer [] = [])

theorem filterMap_fst_eq_iff {α : Type*} {l : List (α × ℕ)} {f : α × ℕ → Option α}
    (hf : ∀ x ∈ l, (f x).isSome) : l.filterMap f = l.map Prod.fst ↔ ∀ x ∈ l, f x = some x.1 := by
  induction l with
  | nil => exact ⟨fun _ x hx => (List.not_mem_nil hx).elim, fun _ => rfl⟩
  | cons x l ih =>
    obtain ⟨hx, hl⟩ := List.forall_mem_cons.mp hf
    obtain ⟨y, hy⟩ := Option.isSome_iff_exists.mp hx
    rw [List.filterMap_cons_some hy, List.map_cons, List.cons.injEq, ih hl,
      List.forall_mem_cons, hy,
      Option.some.injEq]

include hundone hnil in
theorem fromMulti_createMulti_iff {data : List ClipboardData} (hkinds : ∀ d ∈ data, d ≠ .other) :
    fromMultiClipboards peer (createMultiClipboards z data) = data ↔
      ∀ i d, data[i]? = some d → Survives (z i) d := by
  have harrives : ∀ x ∈ data.zipIdx, ∃ d',
      (clipboardDataToProto (z x.2) x.1).bind (fromClipboard peer) = some d' ∧
        (d' = x.1 ↔ Survives (z x.2) x.1) :=
    fun x hx => arrives (hundone x.2) hnil (hkinds x.1 (List.fst_mem_of_mem_zipIdx hx))
  have hsome : ∀ x ∈ data.zipIdx,
      ((clipboardDataToProto (z x.2) x.1).bind (fromClipboard peer)).isSome := by
    intro x hx
    obtain ⟨d', hd', -⟩ := harrives x hx
    rw [hd']
    rfl
  calc fromMultiClipboards peer (createMultiClipboards z data) = data
      ↔ data.zipIdx.filterMap
            (fun x => (clipboardDataToProto (z x.2) x.1).bind (fromClipboard peer)) =
          data.zipIdx.map Prod.fst := by
        rw [List.zipIdx_map_fst, ← List.filterMap_filterMap]
        rfl
    _ ↔ ∀ x ∈ data.zipIdx,
          (clipboardDataToProto (z x.2) x.1).bind (fromClipboard peer) = some x.1 :=
        filterMap_fst_eq_iff hsome
    _ ↔ ∀ x ∈ data.zipIdx, Survives (z x.2) x.1 := by
        refine forall₂_congr fun x hx => ?_
        obtain ⟨d', hd', hiff⟩ := harrives x hx
        rw [hd', Option.some.injEq, hiff]
    _ ↔ ∀ i d, data[i]? = some d → Survives (z i) d := by
        constructor
        · intro h i d hd
          exact h (d, i) (List.mem_zipIdx_iff_getElem?.mpr hd)
        · intro h x hx
          exact h x.2 x.1 (List.mem_zipIdx_iff_getElem?.mp hx)

theorem format_eq_text {z : Zstd} {d : ClipboardData} {c : ClipboardMessage}
    (hc : clipboardDataToProto z d = some c) : decide (c.format = some .text) = d.isText := by
  cases d with
  | text s | rtf s | html s | special name d =>
    obtain rfl := Option.some.inj hc
    rfl
  | image a =>
    obtain rfl := Option.some.inj hc
    cases a <;> rfl
  | other => cases hc

theorem find_text {l : List (ClipboardData × ℕ)}
    (harrives : ∀ x ∈ l, (clipboardDataToProto (z x.2) x.1).bind (fromClipboard peer) = some x.1) :
    ((l.filterMap fun x => clipboardDataToProto (z x.2) x.1).find?
        fun c => c.format = some .text).bind (fromClipboard peer) =
      (l.map Prod.fst).find? ClipboardData.isText := by
  induction l with
  | nil => rfl
  | cons x l ih =>
    obtain ⟨hx, hl⟩ := List.forall_mem_cons.mp harrives
    obtain ⟨c, hc, hback⟩ := Option.bind_eq_some_iff.mp hx
    have hformat := format_eq_text hc
    have hcons : (x :: l).filterMap (fun x => clipboardDataToProto (z x.2) x.1) =
        c :: l.filterMap fun x => clipboardDataToProto (z x.2) x.1 := List.filterMap_cons_some hc
    rw [hcons, List.map_cons, List.find?_cons, List.find?_cons, hformat]
    cases htext : x.1.isText with
    | true => exact hback
    | false => exact ih hl

include hundone hnil in
/-- **What a clipboard needs to arrive.** The peer gets back what was sent, and an old peer the
first text of it, if and only if every item survives its own call of the compressor. -/
theorem multi_clipboards_roundtrip_iff (data : List ClipboardData)
    (hkinds : ∀ d ∈ data, d ≠ .other) :
    (fromMultiClipboards peer (createMultiClipboards z data) = data ∧
      ∀ version platform, isSupportMultiClipboard version platform = false →
        (getMsgIfNotSupportMultiClip version platform (createMultiClipboards z data)).bind
          (fromClipboard peer) = data.find? ClipboardData.isText) ↔
      ∀ i d, data[i]? = some d → Survives (z i) d := by
  rw [← fromMulti_createMulti_iff hundone hnil hkinds]
  refine ⟨And.left, fun hback => ⟨hback, fun version platform hold => ?_⟩⟩
  have hsurvive := (fromMulti_createMulti_iff hundone hnil hkinds).mp hback
  have harrives : ∀ x ∈ data.zipIdx,
      (clipboardDataToProto (z x.2) x.1).bind (fromClipboard peer) = some x.1 := by
    intro x hx
    obtain ⟨d', hd', hiff⟩ :=
      arrives (hundone x.2) hnil (hkinds x.1 (List.fst_mem_of_mem_zipIdx hx))
    rw [hd', hiff.mpr (hsurvive x.2 x.1 (List.mem_zipIdx_iff_getElem?.mp hx))]
  unfold getMsgIfNotSupportMultiClip
  rw [hold, if_neg Bool.false_ne_true]
  have hfind := find_text harrives
  rw [List.zipIdx_map_fst] at hfind
  exact hfind

/-- A special item that does not compress arrives with its name for its data, and a text whose
compression failed arrives empty, at an old peer too. -/
theorem multi_clipboards_roundtrip_fails :
    (∀ i : ℕ, ((fun _ => Zstd.storing : ℕ → Zstd) i).UndoneBy .storing) ∧
    fromMultiClipboards .storing
        (createMultiClipboards (fun _ => .storing) [.special "n".toList [1, 2]]) =
      [.special "n".toList [110]] ∧
    (∀ i : ℕ, ((fun _ => Zstd.failing : ℕ → Zstd) i).UndoneBy .failing) ∧
    fromMultiClipboards .failing
        (createMultiClipboards (fun _ => .failing) [.text "secret".toList]) = [.text []] ∧
    (getMsgIfNotSupportMultiClip 1002000 "Linux".toList
        (createMultiClipboards (fun _ => .failing) [.text "secret".toList])).bind
      (fromClipboard .failing) = some (.text []) := by
  refine ⟨fun _ data out h => ?_, by decide, fun _ data out h => ?_, by decide, by decide⟩
  · exact h.symm
  · cases h

/-- An incompressible text and a special item whose data is its name arrive. -/
theorem multi_clipboards_roundtrip_text :
    fromMultiClipboards .storing (createMultiClipboards (fun _ => .storing)
      [.text "a".toList, .special "n".toList [110]]) =
        [.text "a".toList, .special "n".toList [110]] := by
  have hundone : ∀ _ : ℕ, Zstd.storing.UndoneBy .storing := fun _ data out h => h.symm
  refine ((multi_clipboards_roundtrip_iff (z := fun _ => .storing) hundone rfl
    [.text "a".toList, .special "n".toList [110]] (by decide)).mpr ?_).1
  intro i d hd
  match i, hd with
  | 0, hd =>
    obtain rfl := Option.some.inj hd
    exact Or.inr rfl
  | 1, hd =>
    obtain rfl := Option.some.inj hd
    exact ⟨Or.inr rfl, Or.inl (by decide)⟩

end Clipboards

end LibRustdesk.Clipboard.Proto
