import Mathlib.Algebra.GroupWithZero.Nat
import Mathlib.Data.List.Basic

/-!
# Texts in lower case

Lowering a text goes letter by letter, and a letter may become several, of more or of fewer bytes:
`İ` has two bytes and becomes `i` and a dot of three together, the Kelvin sign has three and becomes
`k`. So a position in the lowered text is none of the text. What becomes of a letter is a parameter
(`Unicode`), with what is needed of it.

* `Lowers` — lowering as a relation, in which only a sigma has a choice.
* `Lowers.exists_of_append` — **an occurrence** of ASCII letters other than `i` and `k` in the
  lowered text is one of these letters in the text, in any case.
* `find_eq_some` — so is **the first one**, if the first letter of the pattern is not among the
  others, and it is found where the text before it ends in lower case.
* `sliceFrom_eq_some_iff` — a slice of a text from a byte on.
-/

namespace LibRustdesk.Lowercase

/-! ### Bytes -/

def byteLen (s : List Char) : ℕ := (s.map Char.utf8Size).sum

/-- `&s[n..]`, with `none` where `n` is no boundary of a letter. -/
def sliceFrom : ℕ → List Char → Option (List Char)
  | 0, s => some s
  | _ + 1, [] => none
  | n + 1, c :: s => if c.utf8Size ≤ n + 1 then sliceFrom (n + 1 - c.utf8Size) s else none

/-- `&s[..n]`. -/
def sliceTo : ℕ → List Char → Option (List Char)
  | 0, _ => some []
  | _ + 1, [] => none
  | n + 1, c :: s =>
    if c.utf8Size ≤ n + 1 then (sliceTo (n + 1 - c.utf8Size) s).map (c :: ·) else none

theorem byteLen_nil : byteLen [] = 0 := rfl

theorem byteLen_cons (c : Char) (s : List Char) : byteLen (c :: s) = c.utf8Size + byteLen s := by
  unfold byteLen
  rw [List.map_cons, List.sum_cons]

theorem byteLen_append (s t : List Char) : byteLen (s ++ t) = byteLen s + byteLen t := by
  unfold byteLen
  rw [List.map_append, List.sum_append]

theorem sliceFrom_append (s t : List Char) : sliceFrom (byteLen s) (s ++ t) = some t := by
  induction s with
  | nil => rw [byteLen_nil, sliceFrom, List.nil_append]
  | cons c s ih =>
    have hpos := c.utf8Size_pos
    obtain ⟨n, hn⟩ := Nat.exists_eq_succ_of_ne_zero (show byteLen (c :: s) ≠ 0 by
      rw [byteLen_cons]
      omega)
    have hsum := byteLen_cons c s
    rw [List.cons_append, hn, sliceFrom, if_pos (by omega), show n + 1 - c.utf8Size = byteLen s by
      omega]
    exact ih

theorem sliceTo_append (s t : List Char) : sliceTo (byteLen s) (s ++ t) = some s := by
  induction s with
  | nil => rw [byteLen_nil, sliceTo]
  | cons c s ih =>
    have hpos := c.utf8Size_pos
    obtain ⟨n, hn⟩ := Nat.exists_eq_succ_of_ne_zero (show byteLen (c :: s) ≠ 0 by
      rw [byteLen_cons]
      omega)
    have hsum := byteLen_cons c s
    rw [List.cons_append, hn, sliceTo, if_pos (by omega), show n + 1 - c.utf8Size = byteLen s by
      omega, ih]
    rfl

theorem sliceFrom_eq_some_iff {n : ℕ} {s t : List Char} :
    sliceFrom n s = some t ↔ ∃ a, s = a ++ t ∧ byteLen a = n := by
  constructor
  · intro h
    induction s generalizing n with
    | nil =>
      cases n with
      | zero => exact ⟨[], Option.some.inj h, rfl⟩
      | succ n => cases h
    | cons c s ih =>
      cases n with
      | zero => exact ⟨[], Option.some.inj h, rfl⟩
      | succ n =>
        rw [sliceFrom] at h
        split at h
        · next hle =>
          obtain ⟨a, rfl, ha⟩ := ih h
          refine ⟨c :: a, rfl, ?_⟩
          rw [byteLen_cons, ha]
          omega
        · cases h
  · rintro ⟨a, rfl, rfl⟩
    exact sliceFrom_append a t

/-! ### Lowering -/

structure Unicode where
  lower : Char → List Char
  /-- Whether a sigma between these is the last letter of a word. -/
  isFinal : List Char → List Char → Bool
  ascii : ∀ c, c.toNat < 128 → lower c = [c.toLower]
  dotted : lower '\u0130' = ['i', '\u0307']
  kelvin : lower '\u212a' = ['k']
  sigma : lower 'Σ' = ['σ']
  /-- No other letter becomes one of ASCII. -/
  other : ∀ c, 128 ≤ c.toNat → c ≠ '\u0130' → c ≠ '\u212a' → ∀ a ∈ lower c, 128 ≤ a.toNat
  ne_nil : ∀ c, lower c ≠ []

namespace Unicode

variable (uni : Unicode)

def lowerChar (before : List Char) (c : Char) (after : List Char) : List Char :=
  if c = 'Σ' then if uni.isFinal before after then ['ς'] else ['σ'] else uni.lower c

/-- The rest of a text, where `before` is what comes before it. -/
def lowerFrom (before : List Char) : List Char → List Char
  | [] => []
  | c :: s => uni.lowerChar before c s ++ lowerFrom (before ++ [c]) s

def toLowercase (s : List Char) : List Char := uni.lowerFrom [] s

def lowLen (s : List Char) : ℕ := (s.map fun c => byteLen (uni.lower c)).sum

end Unicode

variable {uni : Unicode}

/-- A letter becomes `w`. -/
def LowersTo (uni : Unicode) (c : Char) (w : List Char) : Prop :=
  w = uni.lower c ∨ c = 'Σ' ∧ w = ['ς']

inductive Lowers (uni : Unicode) : List Char → List Char → Prop
  | nil : Lowers uni [] []
  | cons {c w s t} : LowersTo uni c w → Lowers uni s t → Lowers uni (c :: s) (w ++ t)

theorem lowersTo_lowerChar (before after : List Char) (c : Char) :
    LowersTo uni c (uni.lowerChar before c after) := by
  unfold Unicode.lowerChar
  split
  · next hc =>
    split
    · exact Or.inr ⟨hc, rfl⟩
    · rw [hc]
      exact Or.inl uni.sigma.symm
  · exact Or.inl rfl

theorem lowers_lowerFrom (before s : List Char) : Lowers uni s (uni.lowerFrom before s) := by
  induction s generalizing before with
  | nil => exact .nil
  | cons c s ih => exact .cons (lowersTo_lowerChar before s c) (ih _)

theorem lowers_toLowercase (s : List Char) : Lowers uni s (uni.toLowercase s) :=
  lowers_lowerFrom [] s

namespace Lowers

theorem of_append {s t w : List Char} (h : Lowers uni (s ++ t) w) :
    ∃ u v, w = u ++ v ∧ Lowers uni s u ∧ Lowers uni t v := by
  induction s generalizing w with
  | nil => exact ⟨[], w, rfl, .nil, h⟩
  | cons c s ih =>
    cases h with
    | cons hc hs =>
      obtain ⟨u, v, rfl, hu, hv⟩ := ih hs
      exact ⟨_, v, (List.append_assoc _ _ _).symm, .cons hc hu, hv⟩

theorem eq_nil {s : List Char} (h : Lowers uni s []) : s = [] := by
  generalize hw : ([] : List Char) = w at h
  cases h with
  | nil => rfl
  | cons hc hs =>
    obtain ⟨rfl, -⟩ := List.append_eq_nil_iff.mp hw.symm
    rcases hc with hc | ⟨-, hc⟩
    · exact absurd hc.symm (uni.ne_nil _)
    · cases hc

theorem length_eq {s u v : List Char} (hu : Lowers uni s u) (hv : Lowers uni s v) :
    u.length = v.length := by
  have hone {c : Char} {w : List Char} (h : LowersTo uni c w) :
      w.length = (uni.lower c).length := by
    rcases h with rfl | ⟨rfl, rfl⟩
    · rfl
    · rw [uni.sigma]
      rfl
  induction hu generalizing v with
  | nil =>
    cases hv with
    | nil => rfl
  | cons hc hs ih =>
    cases hv with
    | cons hc' hs' => rw [List.length_append, List.length_append, hone hc, hone hc', ih hs']

theorem byteLen_eq {s u : List Char} (h : Lowers uni s u) : byteLen u = uni.lowLen s := by
  have hone {c : Char} {w : List Char} (h : LowersTo uni c w) :
      byteLen w = byteLen (uni.lower c) := by
    rcases h with rfl | ⟨rfl, rfl⟩
    · rfl
    · rw [uni.sigma]
      rfl
  unfold Unicode.lowLen
  induction h with
  | nil => rfl
  | cons hc hs ih => rw [byteLen_append, List.map_cons, List.sum_cons, hone hc, ih]

end Lowers

/-! ### Letters of ASCII -/

def Solid (a : Char) : Prop := a.toNat < 128 ∧ a ≠ 'i' ∧ a ≠ 'k'

instance (a : Char) : Decidable (Solid a) := inferInstanceAs (Decidable (_ ∧ _))

def InAnyCase (pat s : List Char) : Prop := s.map Char.toLower = pat

instance (pat s : List Char) : Decidable (InAnyCase pat s) := inferInstanceAs (Decidable (_ = _))

theorem toLower_eq_of_le {c : Char} (h : 128 ≤ c.toNat) : c.toLower = c := by
  unfold Char.toLower
  split
  · next hupper =>
    have hle : c.toNat ≤ 90 := hupper.2
    omega
  · rfl

theorem LowersTo.solid {c a : Char} {w : List Char} (h : LowersTo uni c w) (ha : a ∈ w)
    (hsolid : Solid a) : w = [a] ∧ c.toLower = a := by
  obtain ⟨hlt, hi, hk⟩ := hsolid
  rcases h with rfl | ⟨-, rfl⟩
  · by_cases hc : c.toNat < 128
    · rw [uni.ascii c hc] at ha ⊢
      obtain rfl := List.mem_singleton.mp ha
      exact ⟨rfl, rfl⟩
    · by_cases hdotted : c = '\u0130'
      · rw [hdotted, uni.dotted] at ha
        rcases List.mem_cons.mp ha with rfl | ha
        · exact absurd rfl hi
        · obtain rfl := List.mem_singleton.mp ha
          exact absurd hlt (by decide)
      · by_cases hkelvin : c = '\u212a'
        · rw [hkelvin, uni.kelvin] at ha
          exact absurd (List.mem_singleton.mp ha) hk
        · have hge := uni.other c (by omega) hdotted hkelvin a ha
          omega
  · obtain rfl := List.mem_singleton.mp ha
    exact absurd hlt (by decide)

theorem ascii_of_toLower {c : Char} (h : c.toLower.toNat < 128) : c.toNat < 128 := by
  by_contra hc
  rw [toLower_eq_of_le (by omega)] at h
  exact hc h

theorem InAnyCase.ascii {pat s : List Char} (h : InAnyCase pat s)
    (hpat : ∀ a ∈ pat, a.toNat < 128) : ∀ c ∈ s, c.toNat < 128 := by
  intro c hc
  have hmem : c.toLower ∈ pat := h ▸ List.mem_map_of_mem hc
  exact ascii_of_toLower (hpat _ hmem)

theorem InAnyCase.length_eq {pat s : List Char} (h : InAnyCase pat s) : s.length = pat.length := by
  rw [← h, List.length_map]

theorem byteLen_ascii {s : List Char} (h : ∀ c ∈ s, c.toNat < 128) : byteLen s = s.length := by
  induction s with
  | nil => rfl
  | cons c s ih =>
    obtain ⟨hc, hs⟩ := List.forall_mem_cons.mp h
    have hle : c.val.toNat ≤ 127 := Nat.le_of_lt_succ hc
    have hone : c.utf8Size = 1 := Char.utf8Size_eq_one_iff.mpr (UInt32.le_iff_toNat_le.mpr hle)
    rw [byteLen_cons, ih hs, List.length_cons, hone]
    omega

theorem Lowers.ascii {s w : List Char} (h : Lowers uni s w) (hs : ∀ c ∈ s, c.toNat < 128) :
    w = s.map Char.toLower := by
  induction h with
  | nil => rfl
  | @cons c w s t hc ht ih =>
    obtain ⟨hlt, hs⟩ := List.forall_mem_cons.mp hs
    rcases hc with rfl | ⟨rfl, -⟩
    · rw [uni.ascii c hlt, ih hs]
      rfl
    · exact absurd hlt (by decide)

namespace Lowers

theorem exists_of_letter {s u v : List Char} {a : Char} (h : Lowers uni s (u ++ a :: v))
    (ha : Solid a) : ∃ s₁ c s₂, s = s₁ ++ c :: s₂ ∧ Lowers uni s₁ u ∧ c.toLower = a ∧
      Lowers uni s₂ v := by
  generalize hw : u ++ a :: v = w at h
  induction h generalizing u with
  | nil => exact absurd hw (by simp)
  | @cons c w s t hc hs ih =>
    rcases List.append_eq_append_iff.mp hw with ⟨rest, rfl, heq⟩ | ⟨rest, rfl, rfl⟩
    · -- it is in the first letter, or the first of the others
      cases rest with
      | nil =>
        obtain ⟨s₁, c', s₂, rfl, h₁, hlower, h₂⟩ := ih (u := []) heq
        refine ⟨c :: s₁, c', s₂, rfl, ?_, hlower, h₂⟩
        have hcons := Lowers.cons hc h₁
        rw [List.append_nil, List.append_nil] at hcons
        exact hcons
      | cons x rest =>
        obtain ⟨rfl, rfl⟩ := List.cons.inj heq
        obtain ⟨hone, hlower⟩ := hc.solid (List.mem_append_right u List.mem_cons_self) ha
        obtain ⟨rfl, hrest⟩ := List.append_eq_singleton_iff.mp hone |>.resolve_right fun h =>
          absurd h.2 (by simp)
        obtain rfl := (List.cons.inj hrest).2
        exact ⟨[], c, s, rfl, .nil, hlower, hs⟩
    · obtain ⟨s₁, c', s₂, rfl, h₁, hlower, h₂⟩ := ih rfl
      exact ⟨c :: s₁, c', s₂, rfl, .cons hc h₁, hlower, h₂⟩

theorem exists_of_prefix {s pat v : List Char} (h : Lowers uni s (pat ++ v))
    (hpat : ∀ a ∈ pat, Solid a) : ∃ s₁ s₂, s = s₁ ++ s₂ ∧ InAnyCase pat s₁ ∧ Lowers uni s₂ v := by
  induction pat generalizing s with
  | nil => exact ⟨[], s, rfl, rfl, h⟩
  | cons a pat ih =>
    obtain ⟨ha, hpat⟩ := List.forall_mem_cons.mp hpat
    obtain ⟨s₁, c, s₂, rfl, h₁, hlower, h₂⟩ := exists_of_letter (u := []) h ha
    obtain rfl := h₁.eq_nil
    obtain ⟨t₁, t₂, rfl, hcase, hv⟩ := ih h₂ hpat
    refine ⟨c :: t₁, t₂, rfl, ?_, hv⟩
    unfold InAnyCase
    rw [List.map_cons, hlower, hcase]

theorem exists_of_append {s u pat v : List Char} (h : Lowers uni s (u ++ pat ++ v))
    (hpat : ∀ a ∈ pat, Solid a) (hne : pat ≠ []) : ∃ s₁ s₂ s₃, s = s₁ ++ s₂ ++ s₃ ∧
      Lowers uni s₁ u ∧ InAnyCase pat s₂ ∧ Lowers uni s₃ v := by
  cases pat with
  | nil => exact absurd rfl hne
  | cons a pat =>
    obtain ⟨ha, hrest⟩ := List.forall_mem_cons.mp hpat
    rw [List.append_assoc] at h
    obtain ⟨s₁, c, s₂, rfl, h₁, hlower, h₂⟩ := exists_of_letter (v := pat ++ v) h ha
    obtain ⟨t₁, t₂, rfl, hcase, hv⟩ := h₂.exists_of_prefix hrest
    refine ⟨s₁, c :: t₁, t₂, ?_, h₁, ?_, hv⟩
    · rw [List.append_assoc]
      rfl
    · unfold InAnyCase
      rw [List.map_cons, hlower, hcase]

end Lowers

theorem isSuffixOf_iff {pat s w : List Char} (h : Lowers uni s w) (hpat : ∀ a ∈ pat, Solid a)
    (hne : pat ≠ []) :
    pat.isSuffixOf w = true ↔ InAnyCase pat (s.drop (s.length - pat.length)) := by
  rw [List.isSuffixOf_iff_suffix]
  constructor
  · rintro ⟨u, rfl⟩
    rw [← List.append_nil (u ++ pat)] at h
    obtain ⟨s₁, s₂, s₃, rfl, -, hcase, h₃⟩ := h.exists_of_append hpat hne
    obtain rfl := h₃.eq_nil
    have hlen := hcase.length_eq
    rw [List.append_nil, List.length_append, hlen, Nat.add_sub_cancel, List.drop_left]
    exact hcase
  · intro hcase
    rw [← List.take_append_drop (s.length - pat.length) s] at h
    obtain ⟨u, v, rfl, -, hv⟩ := h.of_append
    obtain rfl := (hv.ascii (hcase.ascii fun a ha => (hpat a ha).1)).trans hcase
    exact List.suffix_append _ _

/-! ### The first occurrence -/

/-- The text before the first occurrence of a pattern, and the text from there on. -/
def cut (pat : List Char) : List Char → Option (List Char × List Char)
  | [] => if pat.isPrefixOf [] then some ([], []) else none
  | c :: s =>
    if pat.isPrefixOf (c :: s) then some ([], c :: s)
    else (cut pat s).map fun (before, rest) => (c :: before, rest)

def find (pat s : List Char) : Option ℕ := (cut pat s).map fun (before, _) => byteLen before

def Occurs (pat s : List Char) : Prop := ∃ s₁ s₂ s₃, s = s₁ ++ s₂ ++ s₃ ∧ InAnyCase pat s₂

theorem cut_eq_none {pat s : List Char} (h : ∀ u v, s ≠ u ++ pat ++ v) : cut pat s = none := by
  induction s with
  | nil =>
    have hne : ¬ pat.isPrefixOf [] = true := by
      intro hpre
      obtain ⟨v, hv⟩ := List.isPrefixOf_iff_prefix.mp hpre
      exact h [] v hv.symm
    rw [cut, if_neg hne]
  | cons c s ih =>
    have hne : ¬ pat.isPrefixOf (c :: s) = true := by
      intro hpre
      obtain ⟨v, hv⟩ := List.isPrefixOf_iff_prefix.mp hpre
      exact h [] v hv.symm
    rw [cut, if_neg hne, ih fun u v heq => h (c :: u) v (by rw [heq]; rfl)]
    rfl

theorem cut_eq_some {pat u v : List Char}
    (h : ∀ u' v', u ++ pat ++ v = u' ++ pat ++ v' → u.length ≤ u'.length) :
    cut pat (u ++ pat ++ v) = some (u, pat ++ v) := by
  induction u with
  | nil =>
    rw [List.nil_append]
    have hpre : pat.isPrefixOf (pat ++ v) = true :=
      List.isPrefixOf_iff_prefix.mpr (List.prefix_append pat v)
    cases htext : pat ++ v with
    | nil =>
      rw [htext] at hpre
      rw [cut, if_pos hpre]
    | cons c s =>
      rw [htext] at hpre
      rw [cut, if_pos hpre]
  | cons c u ih =>
    have hne : ¬ pat.isPrefixOf (c :: (u ++ pat ++ v)) = true := by
      intro hpre
      obtain ⟨v', hv'⟩ := List.isPrefixOf_iff_prefix.mp hpre
      exact absurd (h [] v' hv'.symm) (by simp)
    rw [List.cons_append, List.cons_append, cut, if_neg hne, ih fun u' v' heq => ?_]
    · rfl
    · have hle := h (c :: u') v' (congrArg (c :: ·) heq)
      exact Nat.le_of_succ_le_succ hle

section First

variable {pat : List Char} (hpat : ∀ a ∈ pat, Solid a) (hne : pat ≠ [])

include hpat hne

theorem find_eq_none {s w : List Char} (h : Lowers uni s w) (hs : ¬ Occurs pat s) :
    find pat w = none := by
  have hcut : cut pat w = none := by
    refine cut_eq_none fun u v heq => ?_
    subst heq
    obtain ⟨s₁, s₂, s₃, rfl, -, hcase, -⟩ := h.exists_of_append hpat hne
    exact hs ⟨s₁, s₂, s₃, rfl, hcase⟩
  unfold find
  rw [hcut]
  rfl

omit hpat in
theorem le_of_occurrence (hhead : ∀ a rest, pat = a :: rest → a ∉ rest)
    {p s₂ s₃ t₁ t₂ t₃ : List Char} (hp : ¬ Occurs pat p) (hs : InAnyCase pat s₂)
    (ht : InAnyCase pat t₂) (heq : p ++ s₂ ++ s₃ = t₁ ++ t₂ ++ t₃) : p.length ≤ t₁.length := by
  have hslen := hs.length_eq
  have htlen := ht.length_eq
  by_contra hlt
  by_cases hwithin : t₁.length + t₂.length ≤ p.length
  · -- all of it is in the text
    have hpre : t₁ ++ t₂ <+: p := by
      have hwhole : t₁ ++ t₂ <+: p ++ s₂ ++ s₃ := by
        rw [heq]
        exact List.prefix_append _ _
      refine List.prefix_of_prefix_length_le hwhole ?_ ?_
      · rw [List.append_assoc]
        exact List.prefix_append _ _
      · rw [List.length_append]
        exact hwithin
    obtain ⟨x, rfl⟩ := hpre
    exact hp ⟨t₁, t₂, x, rfl, ht⟩
  · -- the first letter of the other one is among its own
    cases pat with
    | nil => exact hne rfl
    | cons a rest =>
      rw [List.length_cons] at hslen htlen
      obtain ⟨j, hj⟩ : ∃ j, p.length = t₁.length + (j + 1) := ⟨p.length - t₁.length - 1, by omega⟩
      have hleft : (p ++ s₂ ++ s₃)[p.length]? = s₂[0]? := by
        rw [List.append_assoc, List.getElem?_append_right (Nat.le_refl _), Nat.sub_self,
          List.getElem?_append_left (by omega)]
      have hright : (t₁ ++ t₂ ++ t₃)[p.length]? = t₂[j + 1]? := by
        rw [List.append_assoc, hj, List.getElem?_append_right (by omega), Nat.add_sub_cancel_left,
          List.getElem?_append_left (by omega)]
      have hsame : (s₂.map Char.toLower)[0]? = (t₂.map Char.toLower)[j + 1]? := by
        rw [List.getElem?_map, List.getElem?_map, ← hleft, ← hright, heq]
      rw [hs, ht, List.getElem?_cons_zero, List.getElem?_cons_succ] at hsame
      exact hhead a rest rfl (List.mem_of_getElem? hsame.symm)

theorem find_eq_some (hhead : ∀ a rest, pat = a :: rest → a ∉ rest) {p s₂ s₃ w : List Char}
    (hp : ¬ Occurs pat p) (hs : InAnyCase pat s₂) (h : Lowers uni (p ++ s₂ ++ s₃) w) :
    find pat w = some (uni.lowLen p) := by
  obtain ⟨u', v, rfl, hu', hv⟩ := h.of_append
  obtain ⟨u, pat', rfl, hu, hpat'⟩ := hu'.of_append
  obtain rfl : pat' = pat := (hpat'.ascii (hs.ascii fun a ha => (hpat a ha).1)).trans hs
  have hcut : cut pat' (u ++ pat' ++ v) = some (u, pat' ++ v) := by
    refine cut_eq_some fun u' v' heq => ?_
    rw [heq] at h
    obtain ⟨t₁, t₂, t₃, htext, h₁, hcase, -⟩ := h.exists_of_append hpat hne
    have hle := le_of_occurrence hne hhead hp hs hcase htext
    -- what is before it begins with `p`
    obtain ⟨x, rfl⟩ : p <+: t₁ := by
      refine List.prefix_of_prefix_length_le ?_ (List.prefix_append t₁ (t₂ ++ t₃)) hle
      rw [← List.append_assoc, ← htext, List.append_assoc]
      exact List.prefix_append _ _
    obtain ⟨up, ux, rfl, hup, -⟩ := h₁.of_append
    rw [List.length_append, hu.length_eq hup]
    omega
  unfold find
  rw [hcut]
  exact congrArg some hu.byteLen_eq

end First

end LibRustdesk.Lowercase
