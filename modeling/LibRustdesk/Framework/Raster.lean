import Mathlib.Data.List.Range
import Mathlib.Tactic.Ring

/-!
# Rasters

An image as the list of what its pixels are made of, row after row and without anything in between.
A pixel is a block of `k` elements, and so is a row, of `k * w`, so there is one notion under both:
a list that is put together from `n` blocks of one length.

* `drop_take_blocks`, `eq_of_blocks` — where a block is in such a list, and that the blocks make it.
* `raster`, `eq_raster_iff` — **a list is the raster of an image exactly when it has the length of
  one and every pixel is where it belongs.**
* `foldlM_append` — a loop that appends in each round, where no round fails.
-/

namespace LibRustdesk.Raster

variable {α : Type*}

/-! ### Blocks of one length -/

section Blocks

variable {f : ℕ → List α} {k : ℕ}

theorem length_blocks {n : ℕ} (hf : ∀ i < n, (f i).length = k) :
    ((List.range n).flatMap f).length = k * n := by
  induction n with
  | zero => rfl
  | succ n ih =>
    rw [List.range_succ, List.flatMap_append, List.flatMap_singleton, List.length_append,
      ih fun i hi => hf i (Nat.lt_succ_of_lt hi), hf n (Nat.lt_succ_self n), Nat.mul_succ]

theorem drop_take_blocks {n : ℕ} (hf : ∀ i < n, (f i).length = k) {i : ℕ} (hi : i < n) :
    (((List.range n).flatMap f).drop (k * i)).take k = f i := by
  induction n with
  | zero => exact absurd hi (Nat.not_lt_zero i)
  | succ n ih =>
    have hbefore : ∀ i < n, (f i).length = k := fun i hi => hf i (Nat.lt_succ_of_lt hi)
    have hlength := length_blocks hbefore
    rw [List.range_succ, List.flatMap_append, List.flatMap_singleton]
    rcases Nat.lt_or_eq_of_le (Nat.lt_succ_iff.mp hi) with hlt | rfl
    · -- the block ends before the last one begins
      have hfits : k * i + k ≤ k * n := by
        rw [← Nat.mul_succ]
        exact Nat.mul_le_mul_left k hlt
      rw [List.drop_append_of_le_length (by omega), List.take_append_of_le_length, ih hbefore hlt]
      rw [List.length_drop]
      omega
    · rw [List.drop_left' hlength, List.take_of_length_le (Nat.le_of_eq (hf i hi))]

theorem eq_of_blocks {l l' : List α} {n : ℕ} (hl : l.length = k * n) (hl' : l'.length = k * n)
    (h : ∀ i < n, (l.drop (k * i)).take k = (l'.drop (k * i)).take k) : l = l' := by
  induction n generalizing l l' with
  | zero =>
    rw [Nat.mul_zero] at hl hl'
    rw [List.eq_nil_of_length_eq_zero hl, List.eq_nil_of_length_eq_zero hl']
  | succ n ih =>
    -- the first block, and the others one place on
    have hfirst := h 0 (Nat.succ_pos n)
    rw [Nat.mul_zero, List.drop_zero, List.drop_zero] at hfirst
    have hrest : l.drop k = l'.drop k := by
      refine ih ?_ ?_ fun i hi => ?_
      · rw [List.length_drop, hl, Nat.mul_succ, Nat.add_sub_cancel]
      · rw [List.length_drop, hl', Nat.mul_succ, Nat.add_sub_cancel]
      · have hnext := h (i + 1) (Nat.succ_lt_succ hi)
        rw [Nat.mul_succ, Nat.add_comm, ← List.drop_drop, ← List.drop_drop] at hnext
        exact hnext
    rw [← List.take_append_drop k l, ← List.take_append_drop k l', hfirst, hrest]

end Blocks

/-! ### Images -/

/-- The image of width `w` and height `h` that has `px x y` at `(x, y)`. -/
def raster (w h : ℕ) (px : ℕ → ℕ → List α) : List α :=
  (List.range h).flatMap fun y => (List.range w).flatMap fun x => px x y

section Images

variable {px px' : ℕ → ℕ → List α} {k : ℕ} {w h : ℕ}

/-- The pixel at `(x, y)` of a list that is read as an image. -/
def pixelAt (k w : ℕ) (l : List α) (x y : ℕ) : List α := (l.drop (k * (w * y + x))).take k

theorem pixelAt_eq_row {l : List α} {x : ℕ} (hx : x < w) (y : ℕ) :
    pixelAt k w l x y = (((l.drop (k * w * y)).take (k * w)).drop (k * x)).take k := by
  have hfits : k * x + k ≤ k * w := by
    rw [← Nat.mul_succ]
    exact Nat.mul_le_mul_left k hx
  unfold pixelAt
  rw [List.drop_take, List.take_take, List.drop_drop, Nat.mul_add, Nat.mul_assoc,
    Nat.min_eq_left (by omega)]

theorem length_row (hpx : ∀ y < h, ∀ x < w, (px x y).length = k) {y : ℕ} (hy : y < h) :
    ((List.range w).flatMap fun x => px x y).length = k * w :=
  length_blocks fun x hx => hpx y hy x hx

theorem length_raster (hpx : ∀ y < h, ∀ x < w, (px x y).length = k) :
    (raster w h px).length = k * w * h :=
  length_blocks fun _ hy => length_row hpx hy

theorem pixelAt_raster (hpx : ∀ y < h, ∀ x < w, (px x y).length = k) {x y : ℕ} (hx : x < w)
    (hy : y < h) : pixelAt k w (raster w h px) x y = px x y := by
  have hrow := drop_take_blocks (fun _ hy => length_row hpx hy) hy
  rw [pixelAt_eq_row hx]
  unfold raster
  rw [hrow]
  exact drop_take_blocks (fun x hx => hpx y hy x hx) hx

theorem eq_of_pixels {l l' : List α} (hl : l.length = k * w * h) (hl' : l'.length = k * w * h)
    (heq : ∀ y < h, ∀ x < w, pixelAt k w l x y = pixelAt k w l' x y) : l = l' := by
  refine eq_of_blocks hl hl' fun y hy => ?_
  have hlength : ∀ {m : List α}, m.length = k * w * h → ((m.drop (k * w * y)).take (k * w)).length =
      k * w := by
    intro m hm
    have hfits : k * w * y + k * w ≤ k * w * h := by
      rw [← Nat.mul_succ]
      exact Nat.mul_le_mul_left (k * w) hy
    rw [List.length_take, List.length_drop, hm]
    omega
  refine eq_of_blocks (hlength hl) (hlength hl') fun x hx => ?_
  rw [← pixelAt_eq_row hx, ← pixelAt_eq_row hx]
  exact heq y hy x hx

theorem eq_raster_iff (hpx : ∀ y < h, ∀ x < w, (px x y).length = k) {l : List α} :
    l = raster w h px ↔
      l.length = k * w * h ∧ ∀ y < h, ∀ x < w, pixelAt k w l x y = px x y := by
  constructor
  · rintro rfl
    exact ⟨length_raster hpx, fun y hy x hx => pixelAt_raster hpx hx hy⟩
  · rintro ⟨hlength, hpixels⟩
    refine eq_of_pixels hlength (length_raster hpx) fun y hy x hx => ?_
    rw [hpixels y hy x hx, pixelAt_raster hpx hx hy]

theorem raster_congr (h_eq : ∀ y < h, ∀ x < w, px x y = px' x y) : raster w h px = raster w h px' :=
  List.flatMap_congr fun y hy => List.flatMap_congr fun x hx =>
    h_eq y (List.mem_range.mp hy) x (List.mem_range.mp hx)

end Images

/-! ### Loops -/

theorem foldlM_append {ι : Type*} {step : List α → ι → Option (List α)} {f : ι → List α}
    {l : List ι} (h : ∀ i ∈ l, ∀ out, step out i = some (out ++ f i)) (out : List α) :
    l.foldlM step out = some (out ++ l.flatMap f) := by
  induction l generalizing out with
  | nil =>
    rw [List.flatMap_nil, List.append_nil]
    rfl
  | cons i l ih =>
    obtain ⟨hi, hl⟩ := List.forall_mem_cons.mp h
    rw [List.foldlM_cons, hi out, List.flatMap_cons, ← List.append_assoc]
    exact ih hl (out ++ f i)

end LibRustdesk.Raster
