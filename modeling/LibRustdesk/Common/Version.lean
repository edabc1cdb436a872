import LibRustdesk.Framework.Pieces
import Mathlib.Algebra.Order.Ring.Int
import Mathlib.Tactic.Ring

/-!
# Version numbers

`get_version_number` of `libs/hbb_common/src/lib.rs`, by which every feature is switched on for a
peer or off. The number is positional with base 1000, and its last place has room for a patch
version of one digit: `1.1.10-1` is 1001101.

So the numbers of versions are ordered as the versions are, as long as the components of the smaller
one keep to their places, and it has no more of them than the other: `1.1.5` is 1001050, and `1.2`
is 1020.

* `getVersionNumber` — the function; `none` is an overflow of `i64`.
* `getVersionNumber_eq` — the number, and that nothing overflows where it is one of `i64`.
* `older` — the order of versions, by their components, of which missing ones are zero, and then by
  their patch versions.
* `encode_lt_encode` — an older version which keeps to its places is a smaller number: what is
  behind the first difference fills up less than one step of it.
* `version_order` — **the older of two versions has the smaller number**, if it keeps to its places
  and has no more components.
-/

namespace LibRustdesk.Version

/-! ### The function -/

/-- `parse::<i64>`. -/
def parseI64 (s : List Char) : Option ℤ :=
  let (negative, digits) := match s with
    | '+' :: rest => (false, rest)
    | '-' :: rest => (true, rest)
    | _ => (false, s)
  if digits.isEmpty || !digits.all Char.isDigit then none
  else
    let abs : ℤ := digits.foldl (fun n c => n * 10 + (c.toNat - '0'.toNat : ℕ)) 0
    let value := if negative then -abs else abs
    if -9223372036854775808 ≤ value ∧ value ≤ 9223372036854775807 then some value else none

/-- The result of an operation on `i64`, unless it overflows. -/
def checked (n : ℤ) : Option ℤ :=
  if -9223372036854775808 ≤ n ∧ n ≤ 9223372036854775807 then some n else none

/-- The body of the loop over the components: the number so far, and the last component. -/
def addComponent (acc : ℤ × ℤ) (x : List Char) : Option (ℤ × ℤ) := do
  let last := (parseI64 x).getD 0
  let n ← checked (acc.1 * 1000)
  let n ← checked (n + last)
  return (n, last)

/-- The number of the first part, which is behind no dash. -/
def mainNumber (v : List Char) : Option ℤ := do
  let (n, last) ← (v.splitOn '.').foldlM addComponent (0, 0)
  let n ← checked (n - last)
  let last ← checked (last * 10)
  checked (n + last)

def getVersionNumber (v : List Char) : Option ℤ := do
  let versions := v.splitOn '-'
  let n ← match versions.head? with
    | some v => mainNumber v
    | none => some 0
  match versions.tail.head? with
  | some v => checked (n + (parseI64 v).getD 0)
  | none => some n

/-! ### What it reads -/

/-- A component, as it is read: what is no number counts as zero. -/
def component (x : List Char) : ℕ := ((parseI64 x).getD 0).toNat

def components (v : List Char) : List ℕ :=
  (((v.splitOn '-').head?.getD []).splitOn '.').map component

def patch (v : List Char) : ℕ := component ((v.splitOn '-').tail.head?.getD [])

/-- The number of some components and a patch version. -/
def encode : List ℕ → ℕ → ℕ
  | [], patch => patch
  | [c], patch => c * 10 + patch
  | c :: cs, patch => c * 1000 ^ cs.length + encode cs patch

/-- The first version is before the second: by their components, of which those missing are zero,
and then by their patch versions. -/
def older : List ℕ → ℕ → List ℕ → ℕ → Bool
  | [], p, ds, q => ds.any (0 < ·) || decide (p < q)
  | c :: cs, p, [], q => c == 0 && older cs p [] q
  | c :: cs, p, d :: ds, q => decide (c < d) || c == d && older cs p ds q

/-- The components and the patch version keep to their places. -/
structure KeepsPlaces (cs : List ℕ) (p : ℕ) : Prop where
  /-- Only the first component may be any number. -/
  middle : ∀ c ∈ cs.tail, c < 1000
  /-- The last of several gives one of its digits to the patch version. -/
  last : ∀ c ∈ cs.tail.getLast?, c < 100
  patch : p < 10

/-! ### The number -/

/-- The largest number of an `i64`. -/
def maxI64 : ℕ := 9223372036854775807

theorem checked_of_le {n : ℤ} (h0 : 0 ≤ n) (hmax : n ≤ maxI64) : checked n = some n := by
  unfold maxI64 at hmax
  exact if_pos ⟨by omega, hmax⟩

theorem parseI64_nonneg {s : List Char} (h : '-' ∉ s) : 0 ≤ (parseI64 s).getD 0 := by
  have hdigits (digits : List Char) : ∀ n : ℤ, 0 ≤ n →
      0 ≤ digits.foldl (fun (n : ℤ) c => n * 10 + (c.toNat - '0'.toNat : ℕ)) n := by
    induction digits with
    | nil => exact fun n hn => hn
    | cons c digits ih =>
      intro n hn
      exact ih _ (Int.add_nonneg (Int.mul_nonneg hn (by decide)) (Int.natCast_nonneg _))
  have hvalue (digits : List Char) : 0 ≤ (if digits.isEmpty || !digits.all Char.isDigit then none
      else
        if -9223372036854775808 ≤ digits.foldl
              (fun (n : ℤ) c => n * 10 + (c.toNat - '0'.toNat : ℕ)) 0 ∧
            digits.foldl (fun (n : ℤ) c => n * 10 + (c.toNat - '0'.toNat : ℕ)) 0 ≤
              9223372036854775807 then
          some (digits.foldl (fun (n : ℤ) c => n * 10 + (c.toNat - '0'.toNat : ℕ)) 0)
        else none : Option ℤ).getD 0 := by
    split
    · exact le_refl 0
    · split
      · exact hdigits digits 0 (le_refl 0)
      · exact le_refl 0
  unfold parseI64
  split
  next negative digits heq =>
    split at heq
    · obtain ⟨rfl, rfl⟩ := Prod.mk.inj heq
      exact hvalue _
    · exact absurd List.mem_cons_self h
    · obtain ⟨rfl, rfl⟩ := Prod.mk.inj heq
      exact hvalue _

theorem parseI64_getD {s : List Char} (h : '-' ∉ s) : (parseI64 s).getD 0 = component s :=
  (Int.toNat_of_nonneg (parseI64_nonneg h)).symm

/-- The number of the components without the shift of the last one, from `n` on. -/
def base (n : ℕ) (cs : List ℕ) : ℕ := cs.foldl (fun n c => n * 1000 + c) n

theorem base_cons (n c : ℕ) (cs : List ℕ) : base n (c :: cs) = base (n * 1000 + c) cs := rfl

theorem base_mono (cs : List ℕ) {m n : ℕ} (h : m ≤ n) : base m cs ≤ base n cs := by
  induction cs generalizing m n with
  | nil => exact h
  | cons c cs ih => exact ih (Nat.add_le_add_right (Nat.mul_le_mul_right 1000 h) c)

theorem le_base (n : ℕ) (cs : List ℕ) : n ≤ base n cs := by
  induction cs generalizing n with
  | nil => exact le_refl n
  | cons c cs ih => exact le_trans (by omega) (ih (n * 1000 + c))

theorem getLastD_le_base (n : ℕ) (cs : List ℕ) : cs.getLastD n ≤ base n cs := by
  induction cs generalizing n with
  | nil => exact le_refl n
  | cons c cs ih =>
    rw [List.getLastD_cons]
    calc cs.getLastD c
        ≤ base c cs := ih c
      _ ≤ base (n * 1000 + c) cs := base_mono cs (Nat.le_add_left c (n * 1000))

theorem base_eq (n : ℕ) (cs : List ℕ) : base n cs = n * 1000 ^ cs.length + base 0 cs := by
  induction cs generalizing n with
  | nil => rw [List.length_nil, pow_zero, mul_one]; rfl
  | cons c cs ih =>
    rw [base_cons, base_cons, ih, ih (0 * 1000 + c), List.length_cons, pow_succ]
    ring

theorem addComponent_eq {x : List Char} (h : '-' ∉ x) {n : ℕ} (last : ℤ)
    (hmax : n * 1000 + component x ≤ maxI64) :
    addComponent (n, last) x = some (((n * 1000 + component x : ℕ) : ℤ), (component x : ℤ)) := by
  have hshift : checked ((n : ℤ) * 1000) = some ((n : ℤ) * 1000) :=
    checked_of_le (by omega) (by omega)
  have hadd : checked ((n : ℤ) * 1000 + component x) = some ((n : ℤ) * 1000 + component x) :=
    checked_of_le (by omega) (by omega)
  unfold addComponent
  dsimp only
  rw [parseI64_getD h, hshift]
  dsimp only [bind, Option.bind]
  rw [hadd, Nat.cast_add, Nat.cast_mul]
  rfl

theorem foldlM_addComponent {xs : List (List Char)} (h : ∀ x ∈ xs, '-' ∉ x) {n : ℕ} (last : ℕ)
    (hmax : base n (xs.map component) ≤ maxI64) :
    xs.foldlM addComponent ((n : ℤ), (last : ℤ)) =
      some ((base n (xs.map component) : ℤ), ((xs.map component).getLastD last : ℤ)) := by
  induction xs generalizing n last with
  | nil => rfl
  | cons x xs ih =>
    obtain ⟨hx, hxs⟩ := List.forall_mem_cons.mp h
    have hle := le_base (n * 1000 + component x) (xs.map component)
    have hrest : base (n * 1000 + component x) (xs.map component) ≤ maxI64 := hmax
    rw [List.foldlM_cons, addComponent_eq hx _ (le_trans hle hrest)]
    change xs.foldlM addComponent (((n * 1000 + component x : ℕ) : ℤ), (component x : ℤ)) = _
    rw [ih hxs (component x) hrest, List.map_cons, List.getLastD_cons]
    rfl

theorem encode_eq {cs : List ℕ} (p : ℕ) (hne : cs ≠ []) :
    encode cs p = base 0 cs + 9 * cs.getLastD 0 + p := by
  induction cs with
  | nil => exact absurd rfl hne
  | cons c cs ih =>
    cases cs with
    | nil =>
      have hencode : encode [c] p = c * 10 + p := rfl
      have hbase : base 0 [c] = 0 * 1000 + c := base_cons 0 c []
      have hlast : [c].getLastD 0 = c := rfl
      omega
    | cons d cs =>
      have hstep := base_cons 0 c (d :: cs)
      rw [Nat.zero_mul, Nat.zero_add] at hstep
      have hlast : (c :: d :: cs).getLastD 0 = (d :: cs).getLastD 0 := rfl
      have hencode : encode (c :: d :: cs) p =
          c * 1000 ^ (d :: cs).length + encode (d :: cs) p := rfl
      rw [hencode, ih (List.cons_ne_nil d cs), hstep, base_eq c, hlast, Nat.add_assoc,
        Nat.add_assoc, Nat.add_assoc]

theorem components_ne_nil (v : List Char) : components v ≠ [] :=
  fun hnil => List.splitOn_ne_nil '.' _ (List.map_eq_nil_iff.mp hnil)

theorem getVersionNumber_eq {v : List Char} (hmax : encode (components v) (patch v) ≤ maxI64) :
    getVersionNumber v = some (encode (components v) (patch v) : ℤ) := by
  have hdash (x : List Char) (hx : x ∈ v.splitOn '-') : '-' ∉ x := not_mem_piece hx
  generalize hversions : v.splitOn '-' = versions at hdash
  cases versions with
  | nil => exact absurd hversions (List.splitOn_ne_nil '-' v)
  | cons main rest =>
    have hcs : components v = (main.splitOn '.').map component := by
      unfold components
      rw [hversions]
      rfl
    have hne := components_ne_nil v
    have hparts (x : List Char) (hx : x ∈ main.splitOn '.') : '-' ∉ x :=
      fun hin => hdash main List.mem_cons_self (mem_of_mem_piece hx hin).1
    rw [encode_eq _ hne] at hmax ⊢
    have hmain : mainNumber main =
        some ((base 0 (components v) + 9 * (components v).getLastD 0 : ℕ) : ℤ) := by
      have hfold := foldlM_addComponent hparts (n := 0) 0 (by rw [← hcs]; omega)
      rw [← hcs] at hfold
      have hlast := getLastD_le_base 0 (components v)
      unfold mainNumber
      rw [show ((0 : ℤ), (0 : ℤ)) = (((0 : ℕ) : ℤ), ((0 : ℕ) : ℤ)) from rfl, hfold]
      generalize base 0 (components v) = b at *
      generalize (components v).getLastD 0 = l at *
      dsimp only [bind, Option.bind]
      rw [checked_of_le (n := (b : ℤ) - l) (by omega) (by omega)]
      dsimp only
      rw [checked_of_le (n := (l : ℤ) * 10) (by omega) (by omega)]
      dsimp only
      rw [checked_of_le (by omega) (by omega)]
      congr 1
      omega
    unfold getVersionNumber
    rw [hversions]
    dsimp only [List.head?_cons, List.tail_cons]
    rw [hmain]
    cases rest with
    | nil =>
      have hpatch : patch v = 0 := by
        unfold patch
        rw [hversions]
        rfl
      rw [hpatch]
      rfl
    | cons x rest =>
      have hpatch : patch v = component x := by
        unfold patch
        rw [hversions]
        rfl
      rw [hpatch] at hmax ⊢
      dsimp only [List.head?_cons, bind, Option.bind]
      rw [parseI64_getD (hdash x (List.mem_cons_of_mem main List.mem_cons_self))]
      rw [checked_of_le (by omega) (by omega)]
      rfl

example : getVersionNumber "1.1.10-1".toList = some 1001101 := by decide +kernel

/-! ### The order -/

theorem encode_cons_cons (c d : ℕ) (cs : List ℕ) (p : ℕ) :
    encode (c :: d :: cs) p = c * 1000 ^ (d :: cs).length + encode (d :: cs) p := rfl

theorem older_cons_cons {c d : ℕ} {cs ds : List ℕ} {p q : ℕ}
    (h : older (c :: cs) p (d :: ds) q = true) :
    c < d ∨ c = d ∧ older cs p ds q = true := by
  unfold older at h
  exact ((Bool.or_eq_true _ _).mp h).imp of_decide_eq_true
    fun hrest => ((Bool.and_eq_true _ _).mp hrest).imp_left beq_iff_eq.mp

theorem encode_lt_pow {cs : List ℕ} {p : ℕ} (hne : cs ≠ []) (hcs : ∀ c ∈ cs, c < 1000)
    (hlast : ∀ c ∈ cs.getLast?, c < 100) (hp : p < 10) : encode cs p < 1000 ^ cs.length := by
  induction cs with
  | nil => exact absurd rfl hne
  | cons c cs ih =>
    obtain ⟨hc, hcs⟩ := List.forall_mem_cons.mp hcs
    cases cs with
    | nil =>
      have hc : c < 100 := hlast c rfl
      have hencode : encode [c] p = c * 10 + p := rfl
      rw [List.length_singleton, pow_one]
      omega
    | cons d cs =>
      have hrest := ih (List.cons_ne_nil d cs) hcs hlast
      rw [encode_cons_cons]
      calc c * 1000 ^ (d :: cs).length + encode (d :: cs) p
          < c * 1000 ^ (d :: cs).length + 1000 ^ (d :: cs).length :=
            Nat.add_lt_add_left hrest _
        _ = (c + 1) * 1000 ^ (d :: cs).length := by rw [Nat.add_mul, Nat.one_mul]
        _ ≤ 1000 * 1000 ^ (d :: cs).length := Nat.mul_le_mul_right _ hc
        _ = 1000 ^ (c :: d :: cs).length :=
            (Nat.mul_comm 1000 _).trans (pow_succ 1000 (d :: cs).length).symm

theorem patch_le_encode (cs : List ℕ) (p : ℕ) : p ≤ encode cs p := by
  induction cs with
  | nil => exact le_refl p
  | cons c cs ih =>
    cases cs with
    | nil => exact Nat.le_add_left p (c * 10)
    | cons d cs => exact le_trans ih (Nat.le_add_left _ (c * 1000 ^ (d :: cs).length))

theorem ten_le_encode {cs : List ℕ} (p : ℕ) (h : cs.any (0 < ·) = true) : 10 ≤ encode cs p := by
  induction cs with
  | nil => cases h
  | cons c cs ih =>
    rw [List.any_cons, Bool.or_eq_true, decide_eq_true_eq] at h
    cases cs with
    | nil =>
      have hc : 0 < c := h.resolve_right Bool.false_ne_true
      have hencode : encode [c] p = c * 10 + p := rfl
      omega
    | cons d cs =>
      rw [encode_cons_cons]
      rcases h with hc | hrest
      · have hpow : 1000 ^ 1 ≤ 1000 ^ (d :: cs).length :=
          Nat.pow_le_pow_right (by decide) (Nat.le_add_left 1 cs.length)
        calc 10
            ≤ 1 * 1000 ^ (d :: cs).length := by omega
          _ ≤ c * 1000 ^ (d :: cs).length := Nat.mul_le_mul_right _ hc
          _ ≤ c * 1000 ^ (d :: cs).length + encode (d :: cs) p := Nat.le_add_right _ _
      · exact le_trans (ih hrest) (Nat.le_add_left _ _)

theorem encode_singleton_lt {c p d q : ℕ} {ds : List ℕ} (hp : p < 10)
    (h : older [c] p (d :: ds) q = true) : encode [c] p < encode (d :: ds) q := by
  have hencode : encode [c] p = c * 10 + p := rfl
  cases ds with
  | nil =>
    have hencode' : encode [d] q = d * 10 + q := rfl
    rcases older_cons_cons h with hlt | ⟨rfl, hpatch⟩
    · omega
    · have hpq : p < q := of_decide_eq_true hpatch
      omega
  | cons e ds =>
    have hpow : 1000 ^ 1 ≤ 1000 ^ (e :: ds).length :=
      Nat.pow_le_pow_right (by decide) (Nat.le_add_left 1 ds.length)
    have hshift (n : ℕ) : n * 10 ≤ n * 1000 ^ (e :: ds).length :=
      Nat.mul_le_mul_left n (by omega)
    rw [encode_cons_cons, hencode]
    rcases older_cons_cons h with hlt | ⟨rfl, hrest⟩
    · calc c * 10 + p
          < d * 10 := by omega
        _ ≤ d * 1000 ^ (e :: ds).length := hshift d
        _ ≤ d * 1000 ^ (e :: ds).length + encode (e :: ds) q := Nat.le_add_right _ _
    · refine Nat.add_lt_add_of_le_of_lt (hshift c) ?_
      unfold older at hrest
      rcases (Bool.or_eq_true _ _).mp hrest with hany | hpatch
      · exact lt_of_lt_of_le hp (ten_le_encode q hany)
      · exact lt_of_lt_of_le (of_decide_eq_true hpatch) (patch_le_encode (e :: ds) q)

theorem encode_lt_encode {cs ds : List ℕ} {p q : ℕ} (hplaces : KeepsPlaces cs p) (hne : cs ≠ [])
    (hlen : cs.length ≤ ds.length) (h : older cs p ds q = true) : encode cs p < encode ds q := by
  induction cs generalizing ds with
  | nil => exact absurd rfl hne
  | cons c cs ih =>
    obtain ⟨hmiddle, hlast, hp⟩ := hplaces
    cases ds with
    | nil => exact absurd hlen (Nat.not_succ_le_zero cs.length)
    | cons d ds =>
      cases cs with
      | nil => exact encode_singleton_lt hp h
      | cons c' cs =>
        cases ds with
        | nil =>
          exact absurd (Nat.le_of_succ_le_succ hlen) (Nat.not_succ_le_zero cs.length)
        | cons d' ds =>
          have hpow : 1000 ^ (c' :: cs).length ≤ 1000 ^ (d' :: ds).length :=
            Nat.pow_le_pow_right (by decide) (Nat.le_of_succ_le_succ hlen)
          rw [encode_cons_cons, encode_cons_cons]
          rcases older_cons_cons h with hlt | ⟨rfl, hrest⟩
          · -- the components behind the first difference fill up less than one of its steps
            have hbound := encode_lt_pow (List.cons_ne_nil c' cs) hmiddle hlast hp
            calc c * 1000 ^ (c' :: cs).length + encode (c' :: cs) p
                < c * 1000 ^ (c' :: cs).length + 1000 ^ (c' :: cs).length :=
                  Nat.add_lt_add_left hbound _
              _ = (c + 1) * 1000 ^ (c' :: cs).length := by rw [Nat.add_mul, Nat.one_mul]
              _ ≤ d * 1000 ^ (d' :: ds).length := Nat.mul_le_mul hlt hpow
              _ ≤ d * 1000 ^ (d' :: ds).length + encode (d' :: ds) q := Nat.le_add_right _ _
          · have hplaces : KeepsPlaces (c' :: cs) p := by
              refine ⟨fun x hx => hmiddle x (List.mem_cons_of_mem c' hx), fun x hx => ?_, hp⟩
              cases cs with
              | nil => exact absurd hx (Option.not_mem_none x)
              | cons e cs => exact hlast x hx
            exact Nat.add_lt_add_of_le_of_lt (Nat.mul_le_mul_left c hpow)
              (ih hplaces (List.cons_ne_nil c' cs) (Nat.le_of_succ_le_succ hlen) hrest)

/-- **Versions are ordered by their numbers.** The numbers of two versions do not overflow, and the
version that is before has the smaller one, if its components and its patch version keep to their
places and it has no more components. -/
theorem version_order (a b : List Char) (ha : encode (components a) (patch a) ≤ maxI64)
    (hb : encode (components b) (patch b) ≤ maxI64)
    (hplaces : KeepsPlaces (components a) (patch a))
    (hlen : (components a).length ≤ (components b).length)
    (h : older (components a) (patch a) (components b) (patch b) = true) :
    ∃ m n, getVersionNumber a = some m ∧ getVersionNumber b = some n ∧ m < n :=
  ⟨_, _, getVersionNumber_eq ha, getVersionNumber_eq hb,
    Int.ofNat_lt.mpr (encode_lt_encode hplaces (components_ne_nil a) hlen h)⟩

theorem keepsPlaces_patched :
    KeepsPlaces (components "1.1.10-1".toList) (patch "1.1.10-1".toList) :=
  ⟨by decide +kernel, by decide +kernel, by decide +kernel⟩

theorem version_order_patched :
    ∃ m n, getVersionNumber "1.1.10-1".toList = some m ∧
      getVersionNumber "1.2.3".toList = some n ∧ m < n :=
  version_order "1.1.10-1".toList "1.2.3".toList (by decide +kernel) (by decide +kernel)
    keepsPlaces_patched (by decide +kernel) (by decide +kernel)

/-- `1.1.5` is before `1.2`, and `1.1.100` before `1.2.0`, but not their numbers; and the largest
number there is overflows. -/
theorem shorter_version_confused :
    (older (components "1.1.5".toList) 0 (components "1.2".toList) 0 = true ∧
      getVersionNumber "1.1.5".toList = some 1001050 ∧
      getVersionNumber "1.2".toList = some 1020) ∧
    (older (components "1.1.100".toList) 0 (components "1.2.0".toList) 0 = true ∧
      getVersionNumber "1.1.100".toList = getVersionNumber "1.2.0".toList) ∧
    getVersionNumber "9223372036854775807".toList = none := by
  decide +kernel

end LibRustdesk.Version
