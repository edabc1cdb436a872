import LibRustdesk.Bridge.Frames
import LibRustdesk.Framework.LittleEndian
import LibRustdesk.Framework.Raster

/-!
# The pixels of a captured frame

`get_rgba_from_pixelbuf` of `src/server/video_service.rs` makes an RGBA image of a captured buffer,
for a screenshot. Where the rows of the buffer are packed it leaves that to `convert` of
`libs/scrap/src/common/convert.rs`; where they are padded it goes over the pixels itself.

* `ABGRToARGB` is of libyuv, and so a parameter: `Documented` is what its callers rely on, that it
  refuses an empty image and swaps red and blue in every pixel of another. Its strides and its size
  are `c_int`s, which the ones of an image over a few GiB do not fit in (`PixelBuffer.Fits`).
* `PixelBuffer.Captured` — a buffer in one of the two formats, with rows of at least four bytes for
  each pixel and with all of them.
* `PixelBuffer.Converted` — **the answer is the image**, byte for byte, and the same image with
  packed rows has the same answer.
* `PixelBuffer.Convertible` — the buffers of which this is so: packed rows have nothing after them,
  a BGRA image is not empty, and an RGBA image with padded rows has as much red as blue everywhere.

**Main result** (`converted_iff`): the answer is the image exactly for the convertible buffers. The
loop over padded rows never looks at the format and takes every buffer for BGRA (`flipped_eq`), and
`convert` goes over the whole buffer, with what comes after the last row.
-/

namespace LibRustdesk.Pixels

open Raster

inductive Pixfmt
  | bgra
  | rgba
  | rgb565le
  | i420
  | nv12
  | i444
  deriving DecidableEq, Repr

/-- Its `Debug` text. -/
def Pixfmt.text : Pixfmt → List Char
  | bgra => "BGRA".toList
  | rgba => "RGBA".toList
  | rgb565le => "RGB565LE".toList
  | i420 => "I420".toList
  | nv12 => "NV12".toList
  | i444 => "I444".toList

structure PixelBuffer where
  data : Bytes
  pixfmt : Pixfmt
  width : ℕ
  height : ℕ
  stride : List ℕ
  deriving DecidableEq, Repr

/-- `stride[0]`. -/
def PixelBuffer.rowStride (b : PixelBuffer) : ℕ := b.stride.headD 0

inductive Error
  | invalidStride
  | unsupported (src dst : Pixfmt)
  | failedCall (errcode : Int32)
  deriving DecidableEq, Repr

/-- Its text; `place` is the place in the source at which libyuv is called. -/
def Error.text (place : List Char) : Error → List Char
  | invalidStride => "Invalid pixel buf stride.".toList
  | unsupported src dst =>
    "unsupported pixfmt conversion: ".toList ++ src.text ++ " -> ".toList ++ dst.text
  | failedCall errcode =>
    "FailedCall(\"errcode=".toList ++ Bridge.displayInt errcode.toInt ++ " ".toList ++ place ++
      "\")".toList

/-- `ABGRToARGB` of libyuv, of a source and its stride, a destination and its stride, a width and a
height. It answers its return value and the destination. -/
abbrev AbgrToArgb := Bytes → Int32 → Bytes → Int32 → Int32 → Int32 → Int32 × Bytes

/-- A size or a stride `as c_int`. -/
def toCInt (n : ℕ) : Int32 := Int32.ofNat n

/-- `scrap::convert`, which puts its result into an empty `dst`. -/
def convert (abgrToArgb : AbgrToArgb) (captured : PixelBuffer) (pixfmt : Pixfmt) :
    Except Error Bytes :=
  if captured.pixfmt = pixfmt then .ok captured.data
  else
    match captured.pixfmt, pixfmt with
    | .bgra, .rgba | .rgba, .bgra =>
      let dst := List.replicate captured.data.length 0
      let srcStride := toCInt captured.rowStride
      let (errcode, dst) := abgrToArgb captured.data srcStride dst srcStride
        (toCInt captured.width) (toCInt captured.height)
      if errcode ≠ 0 then .error (.failedCall errcode) else .ok dst
    | src, dst => .error (.unsupported src dst)

/-- `[bgra[i + 2], bgra[i + 1], bgra[i], bgra[i + 3]]`. -/
def flippedPixel (bgra : Bytes) (i : ℕ) : Option Bytes := do
  let p2 ← bgra[i + 2]?
  let p1 ← bgra[i + 1]?
  let p0 ← bgra[i]?
  let p3 ← bgra[i + 3]?
  some [p2, p1, p0, p3]

/-- The loop over the pixels of a buffer with rows of `s` bytes. -/
def flipped (b : PixelBuffer) (s : ℕ) : Option Bytes :=
  (List.range b.height).foldlM (fun bitFlipped y =>
    (List.range b.width).foldlM (fun bitFlipped x => do
      let px ← flippedPixel b.data (s * y + 4 * x)
      some (bitFlipped ++ px)) bitFlipped) []

/-- `get_rgba_from_pixelbuf`; `none` is an index out of range. -/
def getRgbaFromPixelbuf (abgrToArgb : AbgrToArgb) (pixbuf : PixelBuffer) :
    Option (Except Error Bytes) :=
  match pixbuf.stride with
  | [] => some (.error .invalidStride)
  | s :: _ =>
    if s = pixbuf.width * 4 then some (convert abgrToArgb pixbuf .rgba)
    else (flipped pixbuf s).map .ok

/-! ### The image in a buffer -/

def swapRedBlue : Bytes → Bytes
  | [p0, p1, p2, p3] => [p2, p1, p0, p3]
  | px => px

def Pixfmt.toRgba : Pixfmt → Bytes → Bytes
  | rgba, px => px
  | _, px => swapRedBlue px

/-- What is documented of `ABGRToARGB`: it refuses an image without pixels, and in every pixel of
another it swaps red and blue, whatever the padding of the rows. -/
structure Documented (abgrToArgb : AbgrToArgb) : Prop where
  refuses : ∀ {src dst : Bytes} {srcStride dstStride width height : Int32},
    width ≤ 0 ∨ height = 0 → (abgrToArgb src srcStride dst dstStride width height).1 ≠ 0
  swaps : ∀ {src dst : Bytes} {srcStride dstStride width height : Int32},
    0 < width → 0 < height → 4 * width.toInt ≤ srcStride.toInt → 4 * width.toInt ≤ dstStride.toInt →
    srcStride.toInt * height.toInt ≤ src.length → dstStride.toInt * height.toInt ≤ dst.length →
    width.toInt * height.toInt < 2 ^ 31 →
    ∃ out, abgrToArgb src srcStride dst dstStride width height = (0, out) ∧
      out.length = dst.length ∧ ∀ x y : ℕ, x < width.toInt → y < height.toInt →
        (out.drop (dstStride.toInt.toNat * y + 4 * x)).take 4 =
          swapRedBlue ((src.drop (srcStride.toInt.toNat * y + 4 * x)).take 4)

namespace PixelBuffer

/-- The four bytes of a pixel, as they are in the buffer. -/
def pixel (b : PixelBuffer) (x y : ℕ) : Bytes := (b.data.drop (b.rowStride * y + 4 * x)).take 4

/-- A buffer in one of the two formats that has all of its rows. -/
structure Captured (b : PixelBuffer) : Prop where
  format : b.pixfmt = .bgra ∨ b.pixfmt = .rgba
  stride : b.stride ≠ []
  rows : 4 * b.width ≤ b.rowStride
  data : b.rowStride * b.height ≤ b.data.length

/-- The same image with packed rows and nothing after them. -/
def packed (b : PixelBuffer) : PixelBuffer :=
  { b with data := raster b.width b.height b.pixel, stride := [b.width * 4] }

/-- The answer is the image, and with packed rows it is the same. -/
structure Converted (abgrToArgb : AbgrToArgb) (b : PixelBuffer) : Prop where
  image : ∃ bytes, getRgbaFromPixelbuf abgrToArgb b = some (.ok bytes) ∧
    bytes.length = 4 * b.width * b.height ∧ ∀ y < b.height, ∀ x < b.width,
      pixelAt 4 b.width bytes x y = b.pixfmt.toRgba (b.pixel x y)
  agrees : getRgbaFromPixelbuf abgrToArgb b.packed = getRgbaFromPixelbuf abgrToArgb b

def Fits (b : PixelBuffer) : Prop :=
  b.pixfmt = .bgra → 4 * b.width < 2 ^ 31 ∧ b.height < 2 ^ 31 ∧ b.width * b.height < 2 ^ 31

structure Convertible (b : PixelBuffer) : Prop where
  /-- Packed rows have nothing after them. -/
  exact : b.rowStride = 4 * b.width → b.data.length = 4 * b.width * b.height
  /-- There is a pixel for libyuv. -/
  nonempty : b.pixfmt = .bgra → 0 < b.width ∧ 0 < b.height
  /-- Red and blue of an RGBA image with padded rows can be swapped. -/
  symmetric : b.pixfmt = .rgba → b.rowStride ≠ 4 * b.width →
    ∀ y < b.height, ∀ x < b.width, swapRedBlue (b.pixel x y) = b.pixel x y

def image (b : PixelBuffer) : Bytes :=
  raster b.width b.height fun x y => b.pixfmt.toRgba (b.pixel x y)

end PixelBuffer

/-! ### Pixels -/

theorem length_swapRedBlue (px : Bytes) : (swapRedBlue px).length = px.length := by
  unfold swapRedBlue
  split <;> rfl

theorem length_toRgba (pixfmt : Pixfmt) (px : Bytes) : (pixfmt.toRgba px).length = px.length := by
  unfold Pixfmt.toRgba
  split
  · rfl
  · exact length_swapRedBlue px

theorem drop_take_four {l : Bytes} {i : ℕ} (h : i + 4 ≤ l.length) :
    (l.drop i).take 4 = [l[i]!, l[i + 1]!, l[i + 2]!, l[i + 3]!] := by
  have hdrop : ∀ {j : ℕ}, j < l.length → l.drop j = l[j]! :: l.drop (j + 1) := by
    intro j hj
    rw [List.drop_eq_getElem_cons hj, getElem!_pos l j hj]
  rw [hdrop (by omega), hdrop (by omega), hdrop (by omega), hdrop (by omega)]
  rfl

theorem flippedPixel_eq {bgra : Bytes} {i : ℕ} (h : i + 4 ≤ bgra.length) :
    flippedPixel bgra i = some (swapRedBlue ((bgra.drop i).take 4)) := by
  have hget : ∀ {j : ℕ}, j < bgra.length → bgra[j]? = some bgra[j]! := by
    intro j hj
    rw [List.getElem?_eq_getElem hj, getElem!_pos bgra j hj]
  unfold flippedPixel
  rw [hget (by omega), hget (by omega), hget (by omega), hget (by omega), drop_take_four h]
  rfl

namespace PixelBuffer

variable {b : PixelBuffer}

theorem Captured.pixel_le (h : b.Captured) {x y : ℕ} (hx : x < b.width) (hy : y < b.height) :
    b.rowStride * y + 4 * x + 4 ≤ b.data.length := by
  have hrows := h.rows
  have hdata := h.data
  have hend : b.rowStride * y + b.rowStride ≤ b.rowStride * b.height := by
    rw [← Nat.mul_succ]
    exact Nat.mul_le_mul_left b.rowStride hy
  omega

theorem Captured.length_pixel (h : b.Captured) :
    ∀ y < b.height, ∀ x < b.width, (b.pixel x y).length = 4 := by
  intro y hy x hx
  have hle := h.pixel_le hx hy
  unfold pixel
  rw [List.length_take, List.length_drop]
  omega

theorem Captured.length_toRgba_pixel (h : b.Captured) :
    ∀ y < b.height, ∀ x < b.width, (b.pixfmt.toRgba (b.pixel x y)).length = 4 := by
  intro y hy x hx
  rw [length_toRgba, h.length_pixel y hy x hx]

theorem pixelAt_data (hstride : b.rowStride = 4 * b.width) (x y : ℕ) :
    pixelAt 4 b.width b.data x y = b.pixel x y := by
  unfold pixelAt pixel
  rw [hstride, Nat.mul_add, Nat.mul_assoc]

theorem flipped_eq (h : b.Captured) :
    flipped b b.rowStride =
      some (raster b.width b.height fun x y => swapRedBlue (b.pixel x y)) := by
  have hrow : ∀ y ∈ List.range b.height, ∀ out : Bytes,
      (List.range b.width).foldlM (fun bitFlipped x => do
        let px ← flippedPixel b.data (b.rowStride * y + 4 * x)
        some (bitFlipped ++ px)) out =
      some (out ++ (List.range b.width).flatMap fun x => swapRedBlue (b.pixel x y)) := by
    intro y hy out
    refine foldlM_append (fun x hx out => ?_) out
    rw [flippedPixel_eq (h.pixel_le (List.mem_range.mp hx) (List.mem_range.mp hy))]
    rfl
  exact foldlM_append hrow []

/-! ### The same image with packed rows -/

theorem Captured.pixel_packed (h : b.Captured) :
    ∀ y < b.height, ∀ x < b.width, b.packed.pixel x y = b.pixel x y := by
  intro y hy x hx
  have hstride : b.packed.rowStride = 4 * b.packed.width := Nat.mul_comm b.width 4
  rw [← pixelAt_data hstride]
  exact pixelAt_raster h.length_pixel hx hy

theorem Captured.length_packed (h : b.Captured) :
    b.packed.data.length = 4 * b.width * b.height := length_raster h.length_pixel

theorem Captured.packed (h : b.Captured) : b.packed.Captured where
  format := h.format
  stride := List.cons_ne_nil _ _
  rows := Nat.le_of_eq (Nat.mul_comm 4 b.width)
  data := by
    rw [h.length_packed]
    exact Nat.le_of_eq (congrArg (· * b.height) (Nat.mul_comm b.width 4))

theorem Captured.image_packed (h : b.Captured) : b.packed.image = b.image :=
  raster_congr fun y hy x hx => congrArg b.pixfmt.toRgba (h.pixel_packed y hy x hx)

theorem Convertible.packed (hb : b.Captured) (h : b.Convertible) : b.packed.Convertible where
  exact := fun _ => hb.length_packed
  nonempty := h.nonempty
  symmetric := fun _ hstride => absurd (Nat.mul_comm b.width 4) hstride

/-! ### What the paths answer -/

theorem toInt_toCInt {n : ℕ} (h : n < 2 ^ 31) : (toCInt n).toInt = n := Int32.toInt_ofNat_of_lt h

section Answers

variable {abgrToArgb : AbgrToArgb}

theorem get_padded (h : b.Captured) (hstride : b.rowStride ≠ 4 * b.width) :
    getRgbaFromPixelbuf abgrToArgb b =
      some (.ok (raster b.width b.height fun x y => swapRedBlue (b.pixel x y))) := by
  have hflipped := flipped_eq h
  unfold getRgbaFromPixelbuf
  cases hs : b.stride with
  | nil => exact absurd hs h.stride
  | cons s rest =>
    have hrow : b.rowStride = s := by
      unfold rowStride
      rw [hs]
      rfl
    rw [hrow] at hstride hflipped
    dsimp only
    rw [if_neg (Nat.mul_comm 4 b.width ▸ hstride), hflipped]
    rfl

theorem get_packed (h : b.Captured) (hstride : b.rowStride = 4 * b.width) :
    getRgbaFromPixelbuf abgrToArgb b = some (convert abgrToArgb b .rgba) := by
  unfold getRgbaFromPixelbuf
  cases hs : b.stride with
  | nil => exact absurd hs h.stride
  | cons s rest =>
    have hrow : b.rowStride = s := by
      unfold rowStride
      rw [hs]
      rfl
    rw [hrow] at hstride
    dsimp only
    rw [if_pos (hstride.trans (Nat.mul_comm 4 b.width))]

theorem convert_rgba (hformat : b.pixfmt = .rgba) : convert abgrToArgb b .rgba = .ok b.data := by
  unfold convert
  rw [if_pos hformat]

theorem convert_empty (hyuv : Documented abgrToArgb) (hformat : b.pixfmt = .bgra)
    (hempty : b.width = 0 ∨ b.height = 0) : ∃ e, convert abgrToArgb b .rgba = .error e := by
  have hrefuses : toCInt b.width ≤ 0 ∨ toCInt b.height = 0 := by
    rcases hempty with hwidth | hheight
    · rw [hwidth]
      exact .inl (Int32.le_refl _)
    · rw [hheight]
      exact .inr rfl
  unfold convert
  rw [hformat, if_neg (by decide)]
  dsimp only
  rw [if_pos (hyuv.refuses hrefuses)]
  exact ⟨_, rfl⟩

theorem convert_bgra (hyuv : Documented abgrToArgb) (h : b.Captured) (hformat : b.pixfmt = .bgra)
    (hstride : b.rowStride = 4 * b.width) (hfits : b.Fits) (hwidth : 0 < b.width)
    (hheight : 0 < b.height) :
    ∃ out, convert abgrToArgb b .rgba = .ok out ∧ out.length = b.data.length ∧
      ∀ y < b.height, ∀ x < b.width, pixelAt 4 b.width out x y = swapRedBlue (b.pixel x y) := by
  obtain ⟨hrow, hrows, harea⟩ := hfits hformat
  have hw : (toCInt b.width).toInt = b.width := toInt_toCInt (by omega)
  have hh : (toCInt b.height).toInt = b.height := toInt_toCInt hrows
  have hs : (toCInt b.rowStride).toInt = 4 * b.width := by
    rw [hstride]
    exact toInt_toCInt hrow
  have hdata : (4 * b.width : ℤ) * b.height ≤ b.data.length := by
    have hdata := h.data
    rw [hstride] at hdata
    exact_mod_cast hdata
  have hdst : (List.replicate b.data.length (0 : UInt8)).length = b.data.length :=
    List.length_replicate
  -- what libyuv asks for, of the sizes as it gets them
  have hpos : 0 < toCInt b.width := by
    rw [Int32.lt_iff_toInt_lt, hw]
    exact Int.natCast_pos.mpr hwidth
  have hpos' : 0 < toCInt b.height := by
    rw [Int32.lt_iff_toInt_lt, hh]
    exact Int.natCast_pos.mpr hheight
  have hwide : 4 * (toCInt b.width).toInt ≤ (toCInt b.rowStride).toInt := by rw [hw, hs]
  have hsrc : (toCInt b.rowStride).toInt * (toCInt b.height).toInt ≤ b.data.length := by
    rw [hh, hs]
    exact hdata
  have hroom : (toCInt b.rowStride).toInt * (toCInt b.height).toInt ≤
      (List.replicate b.data.length (0 : UInt8)).length := by
    rw [hdst]
    exact hsrc
  have hsmall : (toCInt b.width).toInt * (toCInt b.height).toInt < 2 ^ 31 := by
    rw [hw, hh]
    exact_mod_cast harea
  obtain ⟨out, hcall, hlength, hpixels⟩ :=
    hyuv.swaps hpos hpos' hwide hwide hsrc hroom hsmall
  rw [hdst] at hlength
  refine ⟨out, ?_, hlength, fun y hy x hx => ?_⟩
  · unfold convert
    rw [hformat, if_neg (by decide)]
    dsimp only
    rw [hcall]
    rfl
  · have hpixel := hpixels x y (by rw [hw]; exact_mod_cast hx) (by rw [hh]; exact_mod_cast hy)
    have hnat : (toCInt b.rowStride).toInt.toNat = 4 * b.width := by
      rw [hs]
      exact Int.toNat_natCast (4 * b.width)
    rw [hnat] at hpixel
    unfold pixelAt pixel
    rw [Nat.mul_add, ← Nat.mul_assoc, hpixel, hstride]

end Answers

/-! ### The image -/

section Image

variable {abgrToArgb : AbgrToArgb}

theorem image_iff (h : b.Captured) :
    (∃ bytes, getRgbaFromPixelbuf abgrToArgb b = some (.ok bytes) ∧
      bytes.length = 4 * b.width * b.height ∧ ∀ y < b.height, ∀ x < b.width,
        pixelAt 4 b.width bytes x y = b.pixfmt.toRgba (b.pixel x y)) ↔
      getRgbaFromPixelbuf abgrToArgb b = some (.ok b.image) := by
  constructor
  · rintro ⟨bytes, hget, himage⟩
    rw [hget, (eq_raster_iff h.length_toRgba_pixel).mpr himage]
    rfl
  · intro hget
    exact ⟨b.image, hget, (eq_raster_iff h.length_toRgba_pixel).mp rfl⟩

theorem get_eq_image (hyuv : Documented abgrToArgb) (h : b.Captured) (hfits : b.Fits)
    (hconv : b.Convertible) : getRgbaFromPixelbuf abgrToArgb b = some (.ok b.image) := by
  by_cases hstride : b.rowStride = 4 * b.width
  · have hlength := hconv.exact hstride
    rw [← image_iff h, get_packed h hstride]
    rcases h.format with hformat | hformat
    · obtain ⟨hwidth, hheight⟩ := hconv.nonempty hformat
      obtain ⟨out, hout, hsame, hpixels⟩ :=
        convert_bgra hyuv h hformat hstride hfits hwidth hheight
      rw [hout, hformat]
      exact ⟨out, rfl, hsame.trans hlength, hpixels⟩
    · rw [convert_rgba hformat, hformat]
      exact ⟨b.data, rfl, hlength, fun y _ x _ => pixelAt_data hstride x y⟩
  · rw [get_padded h hstride]
    have himage : (raster b.width b.height fun x y => swapRedBlue (b.pixel x y)) = b.image := by
      refine raster_congr fun y hy x hx => ?_
      rcases h.format with hformat | hformat
      · rw [hformat]
        rfl
      · rw [hconv.symmetric hformat hstride y hy x hx, hformat]
        rfl
    rw [himage]

theorem get_empty (hyuv : Documented abgrToArgb) (h : b.Captured) (hformat : b.pixfmt = .bgra)
    (hstride : b.rowStride = 4 * b.width) (hempty : b.width = 0 ∨ b.height = 0) (bytes : Bytes) :
    getRgbaFromPixelbuf abgrToArgb b ≠ some (.ok bytes) := by
  obtain ⟨e, he⟩ := convert_empty hyuv hformat hempty
  rw [get_packed h hstride, he]
  intro hsome
  cases hsome

theorem convertible_of_converted (hyuv : Documented abgrToArgb) (h : b.Captured) (hfits : b.Fits)
    (hconv : b.Converted abgrToArgb) : b.Convertible := by
  have hget := (image_iff h).mp hconv.image
  have hnonempty : b.pixfmt = .bgra → 0 < b.width ∧ 0 < b.height := by
    intro hformat
    by_contra hempty
    -- with packed rows there would be no answer
    have hpacked := get_empty hyuv h.packed hformat (Nat.mul_comm b.width 4)
      (by change b.width = 0 ∨ b.height = 0; omega) b.image
    exact hpacked (hconv.agrees.trans hget)
  refine ⟨fun hstride => ?_, hnonempty, fun hformat hstride y hy x hx => ?_⟩
  · obtain ⟨bytes, hbytes, hlength, -⟩ := hconv.image
    rw [get_packed h hstride] at hbytes
    rcases h.format with hformat | hformat
    · obtain ⟨hwidth, hheight⟩ := hnonempty hformat
      obtain ⟨out, hout, hsame, -⟩ := convert_bgra hyuv h hformat hstride hfits hwidth hheight
      rw [hout] at hbytes
      obtain rfl := Except.ok.inj (Option.some.inj hbytes)
      exact hsame.symm.trans hlength
    · rw [convert_rgba hformat] at hbytes
      obtain rfl := Except.ok.inj (Option.some.inj hbytes)
      exact hlength
  · rw [get_padded h hstride] at hget
    have himage := Except.ok.inj (Option.some.inj hget)
    have hswapped : ∀ y < b.height, ∀ x < b.width, (swapRedBlue (b.pixel x y)).length = 4 := by
      intro y hy x hx
      rw [length_swapRedBlue, h.length_pixel y hy x hx]
    calc swapRedBlue (b.pixel x y)
        = pixelAt 4 b.width (raster b.width b.height fun x y => swapRedBlue (b.pixel x y)) x y :=
          (pixelAt_raster hswapped hx hy).symm
      _ = pixelAt 4 b.width b.image x y := by rw [himage]
      _ = b.pixfmt.toRgba (b.pixel x y) := pixelAt_raster h.length_toRgba_pixel hx hy
      _ = b.pixel x y := by rw [hformat]; rfl

/-- **The answer is the image** for every convertible buffer whose size fits in what libyuv takes,
and among these for no other. -/
theorem converted_iff (hyuv : Documented abgrToArgb) (h : b.Captured) :
    (b.Fits ∧ b.Convertible → b.Converted abgrToArgb) ∧
      (b.Converted abgrToArgb → b.Fits → b.Convertible) := by
  refine ⟨fun ⟨hfits, hconv⟩ => ⟨?_, ?_⟩, fun hconv hfits =>
    convertible_of_converted hyuv h hfits hconv⟩
  · exact (image_iff h).mpr (get_eq_image hyuv h hfits hconv)
  · rw [get_eq_image hyuv h.packed hfits (hconv.packed h), get_eq_image hyuv h hfits hconv,
      h.image_packed]

end Image

end PixelBuffer

/-! ### The frames of the OpenHarmony capturer -/

/-! ### An image of two pixels -/

/-- What libyuv does with an image that is not upside down. -/
def swapRows : AbgrToArgb := fun src srcStride dst dstStride width height =>
  if width ≤ 0 ∨ height = 0 then (-1, dst)
  else
    (0, dst.mapIdx fun i byte =>
      let y := i / dstStride.toInt.toNat
      let x := i % dstStride.toInt.toNat
      if x < 4 * width.toInt ∧ y < height.toInt then
        (swapRedBlue ((src.drop (srcStride.toInt.toNat * y + 4 * (x / 4))).take 4))[x % 4]!
      else byte)

theorem swapRows_getElem {src dst : Bytes} {srcStride dstStride width height : Int32} {x y c : ℕ}
    (hx : x < width.toInt) (hy : y < height.toInt) (hc : c < 4)
    (hdst : 4 * width.toInt ≤ dstStride.toInt)
    (hin : dstStride.toInt.toNat * y + 4 * x + c < dst.length) :
    (swapRows src srcStride dst dstStride width height).2[dstStride.toInt.toNat * y + 4 * x + c]! =
      (swapRedBlue ((src.drop (srcStride.toInt.toNat * y + 4 * x)).take 4))[c]! := by
  have hzero : (0 : Int32).toInt = 0 := rfl
  have hdraws : ¬ (width ≤ 0 ∨ height = 0) := by
    rintro (hwidth | rfl)
    · rw [Int32.le_iff_toInt_le, hzero] at hwidth
      omega
    · omega
  have hrow : 4 * x + c < dstStride.toInt.toNat := by omega
  have hdiv : (dstStride.toInt.toNat * y + 4 * x + c) / dstStride.toInt.toNat = y := by
    rw [Nat.add_assoc, Nat.mul_add_div (by omega), Nat.div_eq_of_lt hrow, Nat.add_zero]
  have hmod : (dstStride.toInt.toNat * y + 4 * x + c) % dstStride.toInt.toNat = 4 * x + c := by
    rw [Nat.add_assoc, Nat.mul_add_mod, Nat.mod_eq_of_lt hrow]
  have hpixel : (4 * x + c) / 4 = x ∧ (4 * x + c) % 4 = c := by omega
  have hdrawn : ((4 * x + c : ℕ) : ℤ) < 4 * width.toInt ∧ (y : ℤ) < height.toInt := by omega
  unfold swapRows
  rw [if_neg hdraws, getElem!_pos _ _ (by rw [List.length_mapIdx]; exact hin),
    List.getElem_mapIdx]
  rw [hdiv, hmod, if_pos hdrawn, hpixel.1, hpixel.2]

theorem documented_swapRows : Documented swapRows where
  refuses h := by
    unfold swapRows
    rw [if_pos h]
    change (-1 : Int32) ≠ 0
    decide
  swaps := by
    intro src dst srcStride dstStride width height hwidth hheight hsrc hdst hsrcLen hdstLen _
    have hlength : (swapRows src srcStride dst dstStride width height).2.length = dst.length := by
      unfold swapRows
      split
      · rfl
      · exact List.length_mapIdx
    have hfirst : (swapRows src srcStride dst dstStride width height).1 = 0 := by
      have hdraws : ¬ (width ≤ 0 ∨ height = 0) := by
        rintro (hle | rfl)
        · exact absurd hwidth (Int32.not_lt.mpr hle)
        · exact absurd hheight (Int32.lt_irrefl)
      unfold swapRows
      rw [if_neg hdraws]
    refine ⟨(swapRows src srcStride dst dstStride width height).2, Prod.ext hfirst rfl, hlength,
      fun x y hx hy => ?_⟩
    have hfits : ∀ {stride : Int32} {l : Bytes}, 4 * width.toInt ≤ stride.toInt →
        stride.toInt * height.toInt ≤ l.length →
        stride.toInt.toNat * y + 4 * x + 4 ≤ l.length := by
      intro stride l hstride hlen
      have hrows : stride.toInt * (y + 1) ≤ stride.toInt * height.toInt :=
        Int.mul_le_mul_of_nonneg_left (by omega) (by omega)
      have hnat : ((stride.toInt.toNat * y : ℕ) : ℤ) = stride.toInt * y := by
        rw [Nat.cast_mul, Int.toNat_of_nonneg (by omega)]
      rw [Int.mul_add, Int.mul_one] at hrows
      omega
    have hdstFits := hfits hdst hdstLen
    have hsrcPixel : (swapRedBlue ((src.drop (srcStride.toInt.toNat * y + 4 * x)).take 4)).length =
        4 := by
      rw [length_swapRedBlue, List.length_take, List.length_drop]
      have hsrcFits := hfits hsrc hsrcLen
      omega
    have hbyte : ∀ c < 4, (swapRows src srcStride dst dstStride width height).2[
        dstStride.toInt.toNat * y + 4 * x + c]! =
        (swapRedBlue ((src.drop (srcStride.toInt.toNat * y + 4 * x)).take 4))[c]! :=
      fun c hc => swapRows_getElem hx hy hc hdst (by omega)
    -- byte by byte, as the pixel of the source is a list of four bytes too
    have hfour := drop_take_four (i := 0) (Nat.le_of_eq hsrcPixel.symm)
    rw [List.drop_zero, List.take_of_length_le (Nat.le_of_eq hsrcPixel)] at hfour
    rw [drop_take_four (by rw [hlength]; exact hdstFits), hfour, ← hbyte 0 (by decide),
      ← hbyte 1 (by decide), ← hbyte 2 (by decide), ← hbyte 3 (by decide)]
    rfl

/-- Two pixels of a BGRA buffer with rows of ten bytes. -/
def twoPixels : PixelBuffer where
  data := [1, 2, 3, 4, 5, 6, 7, 8, 0, 0, 0]
  pixfmt := .bgra
  width := 2
  height := 1
  stride := [10]

theorem converted_twoPixels : twoPixels.Converted swapRows :=
  (PixelBuffer.converted_iff documented_swapRows
    ⟨by decide, by decide, by decide, by decide⟩).1
    ⟨fun _ => by decide, by decide, fun _ => by decide, fun hrgba => by cases hrgba⟩

/-- A red pixel of an RGBA buffer with rows of eight bytes comes out blue. -/
theorem red_comes_out_blue : ¬ ∀ abgrToArgb, Documented abgrToArgb →
    ∀ b : PixelBuffer, b.Captured → b.Converted abgrToArgb := by
  intro h
  have hconv := h swapRows documented_swapRows ⟨[255, 0, 0, 255, 0, 0, 0, 0], .rgba, 1, 1, [8]⟩
    ⟨by decide, by decide, by decide, by decide⟩
  obtain ⟨bytes, hget, -, hpixels⟩ := hconv.image
  have hblue : bytes = [0, 0, 255, 255] := (Except.ok.inj (Option.some.inj hget)).symm
  have hred := hpixels 0 Nat.one_pos 0 Nat.one_pos
  rw [hblue] at hred
  revert hred
  decide

end LibRustdesk.Pixels
