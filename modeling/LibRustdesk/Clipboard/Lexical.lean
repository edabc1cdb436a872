import LibRustdesk.FileTransfer.Paths
import LibRustdesk.Framework.Pieces
import Mathlib.Data.List.DropRight

/-!
# Names made from a path

The functions of `std::path` that the paste task of `libs/clipboard/src/platform/unix/macos` makes
its names with, and what they do to the components of a path.

* `fileName?`, `parent`, `stem`, `extension`, `withFileName` — `Path::file_name` and its siblings.
* `normalize` — what is left of the components when every `..` has gone up.
* `components` — what two paths are compared by, as keys of a map or a set.
* `Under t p` — `p` continues the components of `t` with others, none of which is a `..`. It is kept
  by everything the paste task does to a path, and such a path stays below `t` (`Under.descends`).
-/

namespace LibRustdesk.Clipboard

open FileTransfer

/-! ### Components -/

def pieces (p : Path) : List Path := p.splitOn '/'

def skipped (c : Path) : Bool := c.isEmpty || c == ['.']

/-- The pieces without those at the end that are no components. -/
def trimRight : List Path → List Path
  | [] => []
  | first :: rest => first :: rest.rdropWhile skipped

def fileName? (p : Path) : Option Path :=
  (trimRight (pieces p)).getLast?.filter fun c => !skipped c && c != ['.', '.']

def ofPieces (ps : List Path) : Path :=
  if ps = [[]] then ['/'] else ['/'].intercalate ps

def parent (p : Path) : Option Path :=
  match trimRight (pieces p) with
  | [] => none
  | [first] => if first.isEmpty then none else some []
  | first :: rest => some (ofPieces (trimRight (first :: rest.dropLast)))

/-- A file name in front of its last dot, and behind it. A dot that comes first counts for none. -/
def splitFileAtDot (name : Path) : Path × Option Path :=
  match name.reverse.dropWhile (· ≠ '.') with
  | [] => (name, none)
  | [_] => (name, none)
  | _ :: before => (before.reverse, some (name.reverse.takeWhile (· ≠ '.')).reverse)

/-- `Path::file_stem`, or the empty name. -/
def stem (p : Path) : Path := (fileName? p).elim [] fun name => (splitFileAtDot name).1

def extension (p : Path) : Option Path := (fileName? p).bind fun name => (splitFileAtDot name).2

def withFileName (p name : Path) : Path :=
  pathJoin (if (fileName? p).isSome then (parent p).getD p else p) name

def isAbsolute (p : Path) : Bool := p.head? = some '/'

/-! ### Without `..` -/

def push (absolute : Bool) (acc : PathKey) (c : Path) : PathKey :=
  if c = ['.', '.'] then
    match acc.getLast? with
    | none => if absolute then [] else [c]
    | some last => if last = ['.', '.'] then acc ++ [c] else acc.dropLast
  else acc ++ [c]

def normalize (p : Path) : PathKey := (pathKey p).foldl (push (isAbsolute p)) []

/-- `p` is a descendant of `t`. -/
def Descends (t p : Path) : Prop :=
  isAbsolute p = isAbsolute t ∧ ∃ rest, rest ≠ [] ∧ normalize p = normalize t ++ rest

/-- `p` continues `t` with components that are not `..`. -/
def Under (t p : Path) : Prop :=
  isAbsolute p = isAbsolute t ∧
    ∃ rest, rest ≠ [] ∧ ['.', '.'] ∉ rest ∧ pathKey p = pathKey t ++ rest

theorem foldl_push {absolute : Bool} {rest : PathKey} (h : ['.', '.'] ∉ rest) (acc : PathKey) :
    rest.foldl (push absolute) acc = acc ++ rest := by
  induction rest generalizing acc with
  | nil => exact (List.append_nil acc).symm
  | cons c rest ih =>
    rw [List.mem_cons, not_or] at h
    have hpush : push absolute acc c = acc ++ [c] := if_neg (Ne.symm h.1)
    rw [List.foldl_cons, hpush, ih h.2, List.append_assoc]
    rfl

theorem Under.descends {t p : Path} (h : Under t p) : Descends t p := by
  obtain ⟨habs, rest, hne, hup, hkey⟩ := h
  refine ⟨habs, rest, hne, ?_⟩
  unfold normalize
  rw [hkey, habs, List.foldl_append, foldl_push hup]

/-! ### Joining -/

variable (p : Path)

theorem pathKey_pathJoin {name : Path} (h : isAbsolute name = false) :
    pathKey (pathJoin p name) = pathKey p ++ pathKey name ∧
      isAbsolute (pathJoin p name) = isAbsolute p := by
  have hrel : ¬ name.head? = some '/' := by simpa [isAbsolute] using h
  unfold pathJoin
  rw [if_neg hrel]
  split
  · next hend =>
    rcases hend with rfl | hslash
    · exact ⟨rfl, h⟩
    · -- a slash is there already
      obtain ⟨q, rfl⟩ : ∃ q, p = q ++ ['/'] := by
        obtain ⟨q, hq⟩ := List.getLast?_eq_some_iff.mp hslash
        exact ⟨q, hq⟩
      have hempty : pathKey ([] : Path) = [] := rfl
      rw [List.append_assoc, List.singleton_append, pathKey_slash, pathKey_slash, hempty,
        List.append_nil]
      refine ⟨rfl, ?_⟩
      cases q <;> rfl
  · next hend =>
    obtain ⟨hne, -⟩ := not_or.mp hend
    refine ⟨pathKey_slash p name, ?_⟩
    cases p with
    | nil => exact absurd rfl hne
    | cons c p => rfl

/-- A name that stays below where it is joined: relative, without `..`, and not only dots and
slashes. -/
structure Inside (name : Path) : Prop where
  relative : isAbsolute name = false
  named : pathKey name ≠ []
  noUp : ['.', '.'] ∉ pathKey name

instance (name : Path) : Decidable (Inside name) :=
  decidable_of_iff
      (isAbsolute name = false ∧ pathKey name ≠ [] ∧ ∀ c ∈ pathKey name, c ≠ ['.', '.'])
    ⟨fun h => ⟨h.1, h.2.1, fun hup => h.2.2 _ hup rfl⟩,
      fun h => ⟨h.relative, h.named, fun _ hc heq => h.noUp (heq ▸ hc)⟩⟩

theorem Inside.under {name : Path} (h : Inside name) (t : Path) : Under t (pathJoin t name) := by
  obtain ⟨hkey, habs⟩ := pathKey_pathJoin t h.relative
  exact ⟨habs, pathKey name, h.named, h.noUp, hkey⟩

/-! ### The last component -/

theorem pathKey_eq_filter : pathKey p = (pieces p).filter fun c => !skipped c := by
  refine List.filter_congr fun c _ => ?_
  unfold skipped
  rw [Bool.not_or]
  rfl

theorem noSlash_of_mem_pieces : ∀ c ∈ pieces p, '/' ∉ c :=
  fun _ hc => not_mem_piece hc

theorem isAbsolute_iff : isAbsolute p = true ↔ ∃ c cs, pieces p = [] :: c :: cs := by
  unfold isAbsolute pieces
  cases p with
  | nil => simp
  | cons a p =>
    obtain ⟨first, rest, hp⟩ := List.exists_cons_of_ne_nil (List.splitOn_ne_nil '/' p)
    rw [List.splitOn_cons_eq_if_modifyHead, hp]
    by_cases ha : a = '/'
    · simp [ha]
    · simp [ha]

theorem filter_rdropWhile (rest : List Path) :
    (rest.rdropWhile skipped).filter (fun c => !skipped c) =
      rest.filter fun c => !skipped c := by
  induction rest using List.reverseRecOn with
  | nil => rfl
  | append_singleton rest c ih =>
    rw [List.rdropWhile_concat]
    split
    · next hskip =>
      rw [ih, List.filter_append, List.filter_singleton, hskip]
      simp
    · rfl

theorem filter_trimRight (ps : List Path) :
    (trimRight ps).filter (fun c => !skipped c) = ps.filter fun c => !skipped c := by
  cases ps with
  | nil => rfl
  | cons first rest =>
    unfold trimRight
    rw [List.filter_cons, List.filter_cons, filter_rdropWhile]

theorem ofPieces_spec {first : Path} {rest : List Path} (h : ∀ c ∈ first :: rest, '/' ∉ c) :
    pathKey (ofPieces (first :: rest)) = (first :: rest).filter (fun c => !skipped c) ∧
      isAbsolute (ofPieces (first :: rest)) = first.isEmpty := by
  unfold ofPieces
  split
  · next hroot =>
    obtain ⟨rfl, rfl⟩ := List.cons.inj hroot
    decide
  · next hroot =>
    have hpieces : pieces (['/'].intercalate (first :: rest)) = first :: rest :=
      List.splitOn_intercalate '/' h (List.cons_ne_nil _ _)
    refine ⟨by rw [pathKey_eq_filter, hpieces], ?_⟩
    rw [Bool.eq_iff_iff, isAbsolute_iff, hpieces, List.isEmpty_iff]
    constructor
    · rintro ⟨c, cs, heq⟩
      exact (List.cons.inj heq).1
    · rintro rfl
      cases rest with
      | nil => exact absurd rfl hroot
      | cons c cs => exact ⟨c, cs, rfl⟩

theorem fileName?_spec {p f : Path} (h : fileName? p = some f) :
    ∃ up, parent p = some up ∧ pathKey p = pathKey up ++ [f] ∧ isAbsolute up = isAbsolute p ∧
      '/' ∉ f := by
  obtain ⟨hlast, hname⟩ := Option.filter_eq_some_iff.mp h
  rw [Bool.and_eq_true, bne_iff_ne] at hname
  obtain ⟨hkeep, -⟩ := hname
  have hone : [f].filter (fun c => !skipped c) = [f] := by
    simp only [List.filter_singleton, hkeep, cond_true]
  have hnoSlash := noSlash_of_mem_pieces p
  have hkey : pathKey p = (trimRight (pieces p)).filter fun c => !skipped c := by
    rw [pathKey_eq_filter, filter_trimRight]
  have habs := isAbsolute_iff p
  unfold parent
  cases hp : pieces p with
  | nil => exact absurd hp (List.splitOn_ne_nil _ _)
  | cons first rest =>
    rw [hp] at hlast hkey hnoSlash habs
    obtain ⟨hfirst, hrest⟩ := List.forall_mem_cons.mp hnoSlash
    have hsub : ∀ c ∈ rest.rdropWhile skipped, '/' ∉ c := fun c hc =>
      hrest c ((List.rdropWhile_prefix skipped rest).mem hc)
    cases hrest' : rest.rdropWhile skipped using List.reverseRecOn with
    | nil =>
      -- the only component
      have htrim : trimRight (first :: rest) = [first] := by
        rw [trimRight, hrest']
      rw [htrim] at hlast hkey ⊢
      obtain rfl : first = f := Option.some.inj hlast
      have hne : first ≠ [] := by
        rintro rfl
        exact absurd hkeep (by decide)
      refine ⟨[], ?_, ?_, ?_, hfirst⟩
      · exact if_neg (by simpa using hne)
      · rw [hkey, hone]
        rfl
      · refine (Bool.eq_false_iff.mpr fun h => ?_).symm
        obtain ⟨c, cs, heq⟩ := habs.mp h
        exact hne (List.cons.inj heq).1
    | append_singleton init last =>
      rw [hrest'] at hsub
      have htrim : trimRight (first :: rest) = first :: (init ++ [last]) := by
        rw [trimRight, hrest']
      rw [htrim] at hlast hkey ⊢
      obtain rfl : last = f := by
        rw [← List.cons_append, List.getLast?_concat] at hlast
        exact Option.some.inj hlast
      have hup : ∀ c ∈ first :: init.rdropWhile skipped, '/' ∉ c := by
        refine List.forall_mem_cons.mpr ⟨hfirst, fun c hc => hsub c ?_⟩
        exact List.mem_append_left _ ((List.rdropWhile_prefix skipped init).mem hc)
      obtain ⟨hupKey, hupAbs⟩ := ofPieces_spec hup
      refine ⟨ofPieces (first :: init.rdropWhile skipped), ?_, ?_, ?_,
        hsub last (List.mem_append_right _ List.mem_cons_self)⟩
      · have hparent : (first :: (init ++ [last])).tail.dropLast = init := List.dropLast_concat
        cases init with
        | nil => rfl
        | cons a init =>
          show some (ofPieces (trimRight (first :: (a :: (init ++ [last])).dropLast))) = _
          rw [show (a :: (init ++ [last])).dropLast = a :: init from hparent, trimRight]
      · have hfilter := filter_trimRight (first :: init)
        rw [trimRight] at hfilter
        rw [hkey, hupKey, hfilter, ← List.cons_append, List.filter_append, hone]
      · rw [hupAbs, Bool.eq_iff_iff, habs, List.isEmpty_iff]
        constructor
        · rintro rfl
          cases hr : rest with
          | nil =>
            rw [hr, List.rdropWhile_nil] at hrest'
            exact absurd hrest'.symm (by simp)
          | cons c cs => exact ⟨c, cs, rfl⟩
        · rintro ⟨c, cs, heq⟩
          exact (List.cons.inj heq).1

theorem getLast?_filter_of_pos {α : Type*} {q : α → Bool} {l : List α} {x : α}
    (hx : l.getLast? = some x) (hq : q x = true) : (l.filter q).getLast? = some x := by
  obtain ⟨init, rfl⟩ := List.getLast?_eq_some_iff.mp hx
  rw [List.filter_append, List.filter_singleton, hq]
  exact List.getLast?_concat

theorem fileName?_of_getLast {p f : Path} (h : (pathKey p).getLast? = some f)
    (hup : f ≠ ['.', '.']) : fileName? p = some f := by
  rw [pathKey_eq_filter, ← filter_trimRight] at h
  unfold fileName?
  cases hp : pieces p with
  | nil => exact absurd hp (List.splitOn_ne_nil _ _)
  | cons first rest =>
    rw [hp] at h
    -- what is left after trimming ends with a component, or is one piece
    obtain ⟨last, hlast⟩ : ∃ last, (trimRight (first :: rest)).getLast? = some last :=
      ⟨_, List.getLast?_eq_some_getLast (List.cons_ne_nil _ _)⟩
    have hkeep : (!skipped last) = true := by
      by_cases hnil : rest.rdropWhile skipped = []
      · rw [trimRight, hnil] at h hlast
        obtain rfl : first = last := Option.some.inj hlast
        by_contra hskip
        rw [List.filter_singleton, Bool.not_eq_true] at *
        rw [hskip] at h
        cases h
      · have hnot := List.rdropWhile_last_not skipped rest hnil
        rw [trimRight, List.getLast?_cons, List.getLast?_eq_some_getLast hnil] at hlast
        obtain rfl := Option.some.inj hlast
        simpa using hnot
    have hfilter := getLast?_filter_of_pos (q := fun c => !skipped c) hlast hkeep
    obtain rfl : last = f := Option.some.inj (hfilter.symm.trans h)
    rw [hlast]
    refine Option.filter_eq_some_iff.mpr ⟨rfl, ?_⟩
    rw [hkeep, Bool.true_and, bne_iff_ne]
    exact hup

theorem Under.exists_parent {t p : Path} (h : Under t p) :
    ∃ f up, fileName? p = some f ∧ parent p = some up ∧ '/' ∉ f ∧
      isAbsolute up = isAbsolute t ∧
        ∃ rest, ['.', '.'] ∉ rest ∧ pathKey up = pathKey t ++ rest := by
  obtain ⟨habs, rest, hne, hup, hkey⟩ := h
  obtain ⟨init, f, rfl⟩ : ∃ init f, rest = init ++ [f] :=
    ⟨rest.dropLast, rest.getLast hne, (List.dropLast_append_getLast hne).symm⟩
  rw [List.mem_append, not_or, List.mem_singleton] at hup
  have hname : fileName? p = some f := by
    refine fileName?_of_getLast ?_ (Ne.symm hup.2)
    rw [hkey, ← List.append_assoc]
    exact List.getLast?_concat
  obtain ⟨up, hparent, hsplit, hupAbs, hslash⟩ := fileName?_spec hname
  refine ⟨f, up, hname, hparent, hslash, hupAbs.trans habs, init, hup.1, ?_⟩
  rw [hkey, ← List.append_assoc] at hsplit
  exact (List.append_inj_left' hsplit rfl).symm

theorem Under.parent_cases {t p up : Path} (h : Under t p) (hup : parent p = some up) :
    Under t up ∨ isAbsolute up = isAbsolute t ∧ pathKey up = pathKey t := by
  obtain ⟨-, up', -, hparent, -, habs, rest, hrest, hkey⟩ := h.exists_parent
  obtain rfl := Option.some.inj (hup.symm.trans hparent)
  by_cases hnil : rest = []
  · subst hnil
    exact Or.inr ⟨habs, by rw [hkey, List.append_nil]⟩
  · exact Or.inl ⟨habs, rest, hnil, hrest, hkey⟩

/-! ### What paths are compared by -/

/-- What two paths are compared by. A `.` counts only at the beginning. -/
structure Components where
  hasRoot : Bool
  curDir : Bool
  rest : PathKey
  deriving DecidableEq

def components (p : Path) : Components where
  hasRoot := isAbsolute p
  curDir := (pieces p).head? = some ['.']
  rest := pathKey p

theorem head?_pieces_ofPieces {first : Path} {rest : List Path} (h : ∀ c ∈ first :: rest, '/' ∉ c) :
    (pieces (ofPieces (first :: rest))).head? = some first := by
  unfold ofPieces
  split
  · next hroot =>
    obtain ⟨rfl, rfl⟩ := List.cons.inj hroot
    rfl
  · have hpieces : pieces (['/'].intercalate (first :: rest)) = first :: rest :=
      List.splitOn_intercalate '/' h (List.cons_ne_nil _ _)
    rw [hpieces]
    rfl

theorem head?_pieces_parent {p f up : Path} (hf : fileName? p = some f) (hup : parent p = some up) :
    (pieces up).head? = some ['.'] ↔ (pieces p).head? = some ['.'] := by
  have hnoSlash := noSlash_of_mem_pieces p
  obtain ⟨hlast, hname⟩ := Option.filter_eq_some_iff.mp hf
  rw [Bool.and_eq_true] at hname
  unfold parent at hup
  cases hp : pieces p with
  | nil => exact absurd hp (List.splitOn_ne_nil _ _)
  | cons first rest =>
    rw [hp] at hlast hup hnoSlash
    cases hrest : rest.rdropWhile skipped with
    | nil =>
      -- the file name is all there is, and no `.`
      rw [trimRight, hrest] at hlast hup
      obtain rfl : first = f := Option.some.inj hlast
      have hempty : ¬ first.isEmpty = true := by
        intro hempty
        rw [List.isEmpty_iff] at hempty
        subst hempty
        exact absurd hname.1 (by decide)
      dsimp only at hup
      rw [if_neg hempty] at hup
      obtain rfl := Option.some.inj hup
      constructor
      · intro h
        exact absurd h (by decide)
      · intro h
        obtain rfl := Option.some.inj h
        exact absurd hname.1 (by decide)
    | cons c cs =>
      rw [trimRight, hrest] at hup
      obtain rfl := Option.some.inj hup
      have hsub : ∀ x ∈ first :: ((c :: cs).dropLast.rdropWhile skipped), '/' ∉ x := by
        intro x hx
        refine hnoSlash x ?_
        rcases List.mem_cons.mp hx with rfl | hx
        · exact List.mem_cons_self
        · have hmem := (List.dropLast_prefix _).mem ((List.rdropWhile_prefix skipped _).mem hx)
          rw [← hrest] at hmem
          exact List.mem_cons_of_mem _ ((List.rdropWhile_prefix skipped rest).mem hmem)
      rw [trimRight, head?_pieces_ofPieces hsub]
      rfl

theorem components_eq {p f : Path} (hf : fileName? p = some f) : ∃ up, parent p = some up ∧
    components p = { components up with rest := (components up).rest ++ [f] } := by
  obtain ⟨up, hup, hkey, habs, -⟩ := fileName?_spec hf
  refine ⟨up, hup, ?_⟩
  rw [Components.mk.injEq]
  exact ⟨habs.symm, decide_eq_decide.mpr (head?_pieces_parent hf hup).symm, hkey⟩

/-! ### Other names -/

/-- A piece that is a component other than `..`. -/
structure PlainName (name : Path) : Prop where
  noSlash : '/' ∉ name
  kept : skipped name = false
  noUp : name ≠ ['.', '.']

theorem PlainName.inside {name : Path} (h : PlainName name) : Inside name := by
  have hpieces : pieces name = [name] := List.splitOn_eq_singleton h.noSlash
  have hkey : pathKey name = [name] := by
    rw [pathKey_eq_filter, hpieces, List.filter_singleton, h.kept]
    rfl
  refine ⟨Bool.eq_false_iff.mpr fun habs => ?_, ?_, ?_⟩
  · obtain ⟨c, cs, heq⟩ := (isAbsolute_iff name).mp habs
    rw [hpieces] at heq
    cases heq
  · rw [hkey]
    exact List.cons_ne_nil _ _
  · rw [hkey, List.mem_singleton]
    exact Ne.symm h.noUp

theorem Under.withFileName {t p name : Path} (h : Under t p) (hname : PlainName name) :
    Under t (withFileName p name) := by
  obtain ⟨f, up, hf, hup, -, habs, rest, hrest, hkey⟩ := h.exists_parent
  have hinside := hname.inside
  obtain ⟨hjoin, hjoinAbs⟩ := pathKey_pathJoin up hinside.relative
  unfold Clipboard.withFileName
  rw [hf, Option.isSome_some, if_pos rfl, hup, Option.getD_some]
  refine ⟨hjoinAbs.trans habs, rest ++ pathKey name, ?_, ?_, ?_⟩
  · exact fun hnil => hinside.named (List.append_eq_nil_iff.mp hnil).2
  · rw [List.mem_append, not_or]
    exact ⟨hrest, hinside.noUp⟩
  · rw [hjoin, hkey, List.append_assoc]

theorem Under.append {t p s : Path} (h : Under t p) (hslash : '/' ∉ s) (hlen : 1 < s.length)
    (hdots : ∃ c ∈ s, c ≠ '.') : Under t (p ++ s) := by
  obtain ⟨habs, rest, hne, hup, hkey⟩ := h
  obtain ⟨init, last, hp, hps⟩ := splitOn_append_suffix p hslash
  have hkept : skipped (last ++ s) = false := by
    have hlong : 1 < (last ++ s).length := by
      rw [List.length_append]
      omega
    unfold skipped
    rw [Bool.or_eq_false_iff]
    constructor
    · rw [List.isEmpty_eq_false_iff]
      intro hnil
      rw [hnil] at hlong
      cases hlong
    · rw [beq_eq_false_iff_ne]
      intro hdot
      rw [hdot] at hlong
      exact absurd hlong (by decide)
  have hnoUp : last ++ s ≠ ['.', '.'] := by
    obtain ⟨c, hc, hne⟩ := hdots
    intro heq
    have hmem : c ∈ ['.', '.'] := heq ▸ List.mem_append_right last hc
    simp at hmem
    exact hne hmem
  have hkey' : pathKey (p ++ s) = init.filter (fun c => !skipped c) ++ [last ++ s] := by
    rw [pathKey_eq_filter, pieces, hps, List.filter_append, List.filter_singleton, hkept]
    rfl
  -- the pieces before the last are those of `t`, and some of `rest`
  have hinit : ∃ rest', ['.', '.'] ∉ rest' ∧
      init.filter (fun c => !skipped c) = pathKey t ++ rest' := by
    rw [pathKey_eq_filter, pieces, hp, List.filter_append] at hkey
    cases hlast : skipped last with
    | true =>
      rw [List.filter_singleton, hlast] at hkey
      refine ⟨rest, hup, ?_⟩
      rw [← hkey]
      exact (List.append_nil _).symm
    | false =>
      rw [List.filter_singleton, hlast] at hkey
      obtain ⟨rest', f, rfl⟩ : ∃ rest' f, rest = rest' ++ [f] :=
        ⟨rest.dropLast, rest.getLast hne, (List.dropLast_append_getLast hne).symm⟩
      rw [List.mem_append, not_or] at hup
      rw [← List.append_assoc] at hkey
      exact ⟨rest', hup.1, List.append_inj_left' hkey rfl⟩
  obtain ⟨rest', hrest', heq⟩ := hinit
  refine ⟨?_, rest' ++ [last ++ s],
    List.append_ne_nil_of_right_ne_nil _ (List.cons_ne_nil _ _), ?_, ?_⟩
  · cases p with
    | nil =>
      have hnil : pathKey ([] : Path) = [] := rfl
      rw [hnil] at hkey
      exact absurd (List.append_eq_nil_iff.mp hkey.symm).2 hne
    | cons c p => exact habs
  · rw [List.mem_append, not_or, List.mem_singleton]
    exact ⟨hrest', Ne.symm hnoUp⟩
  · rw [hkey', heq, List.append_assoc]

end LibRustdesk.Clipboard
