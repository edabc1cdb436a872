import LibRustdesk.FileTransfer.WindowsPath
import Mathlib.Data.List.TakeWhile

/-!
# Prefixes of Windows paths

A prefix is read off the beginning of a path, and may take in what is joined to it: `\\server` has
none, but with a name behind it is a share. A path is `Complete` when it does not end in the middle
of what could become a prefix.

* `parsePrefix_append` — a complete path keeps its prefix, whatever text is appended, as long as
  exactly one separator stands between the two (`Meets`).
* `verbatim_stays` — the text of a complete verbatim prefix reads as that prefix in front of
  nothing, or of a backslash. -/

namespace LibRustdesk.FileTransfer.Windows

/-! ### Prefixes that stay -/

/-- Behind two separators that are no prefix yet: the share is empty, and stays so. -/
def Closed (r : Path) : Prop :=
  r.head?.any (isSep false) = true ∨ (parseNextComponent false r).2 ≠ []

def Complete (p : Path) : Prop :=
  match parsePrefix p with
  | some (.verbatim name) => name ≠ ['U', 'N', 'C']
  | some (.verbatimUnc _ share) => share ≠ []
  | some (.deviceNs name) => name ≠ []
  | some _ => True
  | none => startsLike ['\\', '\\'] p = true → Closed (p.drop 2)

def Meets (p t : Path) : Prop :=
  p.getLast?.any (isSep false) ≠ t.head?.any (isSep false)

variable {r : Path}

theorem getLast?_any_cons {c : Char} (hne : r ≠ []) :
    (c :: r).getLast?.any (isSep false) = r.getLast?.any (isSep false) := by
  rw [List.getLast?_cons_of_ne_nil hne]

theorem parseNextComponent_append {r t : Path}
    (h : r.getLast?.any (isSep false) = true ∨ t.head?.any (isSep false) = true) :
    (parseNextComponent false (r ++ t)).1 = (parseNextComponent false r).1 := by
  unfold parseNextComponent
  dsimp only
  induction r with
  | nil =>
    have hhead : t.head?.any (isSep false) = true := h.resolve_left (by decide)
    cases t with
    | nil => rfl
    | cons c t =>
      have hc : isSep false c = true := hhead
      rw [List.nil_append, List.takeWhile_cons, hc]
      rfl
  | cons c r ih =>
    rw [List.cons_append, List.takeWhile_cons, List.takeWhile_cons]
    cases hc : isSep false c with
    | true => rfl
    | false =>
      rw [Bool.not_false, if_pos rfl, if_pos rfl, ih]
      refine h.imp_left fun hlast => ?_
      cases r with
      | nil =>
        have hc' : isSep false c = true := hlast
        rw [hc] at hc'
        cases hc'
      | cons d r => rwa [getLast?_any_cons (List.cons_ne_nil d r)] at hlast

theorem parseNextComponent_append_snd {r t : Path} (h : (r.dropWhile fun c => !isSep false c) ≠ [])
    : (parseNextComponent false (r ++ t)).2 = (parseNextComponent false r).2 ++ t := by
  have hdrop : (r ++ t).dropWhile (fun c => !isSep false c) =
      (r.dropWhile fun c => !isSep false c) ++ t := by
    induction r with
    | nil => exact absurd rfl h
    | cons c r ih =>
      rw [List.cons_append, List.dropWhile_cons, List.dropWhile_cons] at *
      cases hc : isSep false c with
      | true => rfl
      | false =>
        rw [hc] at h
        exact ih h
  unfold parseNextComponent
  rw [hdrop]
  exact List.drop_append_of_le_length (List.length_pos_iff.mpr h)

theorem parseVerbatim_isVerbatim (r : Path) : (parseVerbatim r).isVerbatim = true := by
  unfold parseVerbatim
  split
  · rfl
  · split <;> rfl

theorem parseDrive_cons_cons (a b : Char) (r r' : Path) :
    parseDrive (a :: b :: r) = parseDrive (a :: b :: r') := by
  unfold parseDrive
  split
  · next heq =>
    obtain ⟨rfl, hb⟩ := List.cons.inj heq
    obtain ⟨rfl, -⟩ := List.cons.inj hb
    rfl
  · next hnot =>
    split
    · next heq =>
      obtain ⟨rfl, hb⟩ := List.cons.inj heq
      obtain ⟨rfl, -⟩ := List.cons.inj hb
      exact absurd rfl (hnot _ _)
    · rfl

theorem getLast?_of_suffix {r p : Path} (h : r <:+ p) (hne : r ≠ []) : p.getLast? = r.getLast? := by
  obtain ⟨init, rfl⟩ := h
  exact List.getLast?_append_of_ne_nil init hne

theorem parseUnc_append {r t : Path} (hne : r ≠ [])
    (hone : r.getLast?.any (isSep false) = true ∨ t.head?.any (isSep false) = true)
    (hclosed : parseUnc r = none → Closed r) : parseUnc (r ++ t) = parseUnc r := by
  have hserver := parseNextComponent_append hone
  by_cases hdrop : (r.dropWhile fun c => !isSep false c) = []
  · -- without a separator there is no share, and this is not closed
    exfalso
    have hsnd : (parseNextComponent false r).2 = [] := by
      unfold parseNextComponent
      rw [hdrop]
      rfl
    have hnone : parseUnc r = none := by
      unfold parseUnc
      rw [hsnd]
      exact if_neg fun hboth => hboth.2 rfl
    rcases hclosed hnone with hhead | hshare
    · cases r with
      | nil => exact hne rfl
      | cons c r =>
        have hc : isSep false c = true := hhead
        rw [List.dropWhile_cons, hc] at hdrop
        cases hdrop
    · exact hshare hsnd
  · have hsnd := parseNextComponent_append_snd (t := t) hdrop
    by_cases hempty : (parseNextComponent false r).2 = []
    · -- no share, and no server in front of it
      have hnone : parseUnc r = none := by
        unfold parseUnc
        rw [hempty]
        exact if_neg fun hboth => hboth.2 rfl
      have hhead := (hclosed hnone).resolve_right (not_not.mpr hempty)
      have hnoserver : (parseNextComponent false r).1 = [] := by
        cases r with
        | nil => rfl
        | cons c r =>
          have hc : isSep false c = true := hhead
          unfold parseNextComponent
          rw [List.takeWhile_cons, hc]
          rfl
      rw [hnone]
      unfold parseUnc
      rw [hserver, hnoserver]
      exact if_neg fun hboth => hboth.1 rfl
    · have hsuffix : (parseNextComponent false r).2 <:+ r :=
        (List.drop_suffix _ _).trans (List.dropWhile_suffix _)
      have hshare := parseNextComponent_append (r := (parseNextComponent false r).2) (t := t)
        (by rwa [← getLast?_of_suffix hsuffix hempty])
      unfold parseUnc
      rw [hserver, hsnd, hshare]

theorem Meets.one {p t : Path} (h : Meets p t) :
    p.getLast?.any (isSep false) = true ∨ t.head?.any (isSep false) = true := by
  unfold Meets at h
  cases hp : p.getLast?.any (isSep false) with
  | true => exact Or.inl rfl
  | false =>
    rw [hp] at h
    exact Or.inr (eq_true_of_ne_false (Ne.symm h))

theorem parseDrive_sep {a : Char} (ha : isSep false a = true) (r : Path) :
    parseDrive (a :: r) = none := by
  unfold parseDrive
  split
  · next heq =>
    obtain ⟨rfl, -⟩ := List.cons.inj heq
    rcases (isSep_true_iff a).mp ha with rfl | rfl <;> rfl
  · rfl

theorem parseDrive_not_colon {a b : Char} (hb : b ≠ ':') (r : Path) :
    parseDrive (a :: b :: r) = none := by
  unfold parseDrive
  split
  · next heq =>
    obtain ⟨-, heq⟩ := List.cons.inj heq
    exact absurd (List.cons.inj heq).1 hb
  · rfl

theorem parsePrefix_append_one {a : Char} {t : Path} (hmeet : Meets [a] t) :
    parsePrefix ([a] ++ t) = parsePrefix [a] := by
  have halone : parsePrefix [a] = none := by
    rw [parsePrefix_of_not_two (startsLike_one a)]
    rfl
  rw [halone]
  cases t with
  | nil => exact halone
  | cons b t =>
    have hne : isSep false a ≠ isSep false b := hmeet
    have htwo : startsLike ['\\', '\\'] ([a] ++ b :: t) = false := by
      show startsLike ['\\', '\\'] (a :: b :: t) = false
      rw [startsLike_two]
      cases ha : isSep false a with
      | false => rfl
      | true =>
        rw [ha] at hne
        exact eq_false_of_ne_true (Ne.symm hne)
    rw [parsePrefix_of_not_two htwo]
    show (parseDrive (a :: b :: t)).map _ = none
    cases ha : isSep false a with
    | true =>
      rw [parseDrive_sep ha]
      rfl
    | false =>
      rw [parseDrive_not_colon]
      · rfl
      · rintro rfl
        exact hne ha

theorem parsePrefix_two {a b : Char}
    (htwo : startsLike ['\\', '\\'] (a :: b :: r) = true) :
    parsePrefix (a :: b :: r) =
      if startsLike ['?', '\\'] r && !(a :: b :: r.take 2).contains '/' then
        some (parseVerbatim (r.drop 2))
      else if startsLike ['.', '\\'] r then
        some (.deviceNs (parseNextComponent false (r.drop 2)).1)
      else parseUnc r := by
  unfold parsePrefix
  rw [if_pos htwo]
  rfl

theorem parsePrefix_two_of_not_verbatim {a b : Char}
    (htwo : startsLike ['\\', '\\'] (a :: b :: r) = true)
    (hverbatim : isVerbatim (a :: b :: r) = false) :
    (startsLike ['?', '\\'] r && !(a :: b :: r.take 2).contains '/') = false ∧
      parsePrefix (a :: b :: r) = if startsLike ['.', '\\'] r then
        some (.deviceNs (parseNextComponent false (r.drop 2)).1) else parseUnc r := by
  have hpre := parsePrefix_two htwo
  unfold isVerbatim at hverbatim
  cases hlead : startsLike ['?', '\\'] r && !(a :: b :: r.take 2).contains '/' with
  | true =>
    rw [if_pos hlead] at hpre
    rw [hpre] at hverbatim
    have hself := parseVerbatim_isVerbatim (r.drop 2)
    exact absurd (hself.symm.trans hverbatim) (by decide)
  | false =>
    rw [if_neg (by rw [hlead]; exact Bool.false_ne_true)] at hpre
    exact ⟨rfl, hpre⟩

theorem startsLike_sep {c x : Char} (hc : isSep false c = true) (hx : x ≠ '\\') (s r : Path) :
    startsLike (x :: s) (c :: r) = false := by
  rw [startsLike_cons]
  have hlike : (if c = '/' then '\\' else c) = '\\' := by
    have h := like_backslash c
    rw [hc] at h
    exact beq_iff_eq.mp h
  rw [hlike, beq_eq_false_iff_ne.mpr (Ne.symm hx), Bool.false_and]

theorem parseUnc_sep {c : Char} (hc : isSep false c = true) (r : Path) :
    parseUnc (c :: r) = none := by
  have hserver : (parseNextComponent false (c :: r)).1 = [] := by
    unfold parseNextComponent
    rw [List.takeWhile_cons, hc]
    rfl
  unfold parseUnc
  rw [hserver]
  exact if_neg fun hboth => hboth.1 rfl

theorem parsePrefix_append {p t : Path} (hne : p ≠ []) (hmeet : Meets p t)
    (hverbatim : isVerbatim p = false) (hcomplete : Complete p) :
    parsePrefix (p ++ t) = parsePrefix p := by
  have hone := hmeet.one
  rcases p with _ | ⟨a, _ | ⟨b, r⟩⟩
  · exact absurd rfl hne
  · exact parsePrefix_append_one hmeet
  show parsePrefix (a :: b :: (r ++ t)) = parsePrefix (a :: b :: r)
  have hsame : startsLike ['\\', '\\'] (a :: b :: (r ++ t)) =
      startsLike ['\\', '\\'] (a :: b :: r) := rfl
  cases htwo : startsLike ['\\', '\\'] (a :: b :: r) with
  | false =>
    rw [parsePrefix_of_not_two htwo, parsePrefix_of_not_two (hsame.trans htwo),
      parseDrive_cons_cons a b r]
  | true =>
    obtain ⟨hlead, hpre⟩ := parsePrefix_two_of_not_verbatim htwo hverbatim
    rw [parsePrefix_two (hsame.trans htwo)]
    have hclosed (hdevice : startsLike ['.', '\\'] r = false) : parseUnc r = none → Closed r := by
      intro hnone
      rw [hdevice, if_neg Bool.false_ne_true, hnone] at hpre
      unfold Complete at hcomplete
      rw [hpre] at hcomplete
      exact hcomplete htwo
    rcases r with _ | ⟨c, _ | ⟨d, r⟩⟩
    · -- two separators alone are not closed
      rcases hclosed rfl rfl with hhead | hshare
      · cases hhead
      · exact absurd rfl hshare
    · -- nor are they with one more character, unless it is a separator
      have hnone : parseUnc [c] = none := by
        unfold parseUnc parseNextComponent
        cases hc : isSep false c <;> simp [hc]
      have hc : isSep false c = true := by
        rcases hclosed (by rw [startsLike_cons]; exact Bool.and_false _) hnone with hhead | hshare
        · exact hhead
        · cases hc : isSep false c with
          | true => rfl
          | false =>
            refine absurd ?_ hshare
            unfold parseNextComponent
            simp [hc]
      rw [hpre]
      show (if startsLike ['?', '\\'] (c :: t) && _ then _
        else if startsLike ['.', '\\'] (c :: t) then _ else parseUnc (c :: t)) = _
      rw [startsLike_sep hc (by decide), startsLike_sep hc (by decide),
        startsLike_sep hc (by decide), parseUnc_sep hc, parseUnc_sep hc]
      rfl
    · -- from here on nothing depends on what is appended but the share
      have hlead' : (startsLike ['?', '\\'] (c :: d :: r ++ t) &&
          !(a :: b :: (c :: d :: r ++ t).take 2).contains '/') = false := hlead
      rw [if_neg (by rw [hlead']; exact Bool.false_ne_true), hpre]
      have hdot : startsLike ['.', '\\'] (c :: d :: r ++ t) =
        startsLike ['.', '\\'] (c :: d :: r) := rfl
      rw [hdot]
      have hlast (x : Path) (hx : x ≠ []) (hsuffix : x <:+ a :: b :: c :: d :: r) :
          x.getLast?.any (isSep false) = true ∨ t.head?.any (isSep false) = true := by
        rw [← getLast?_of_suffix hsuffix hx]
        exact hone
      cases hdevice : startsLike ['.', '\\'] (c :: d :: r) with
      | true =>
        have hname : (parseNextComponent false r).1 ≠ [] := by
          rw [hdevice, if_pos rfl] at hpre
          unfold Complete at hcomplete
          rw [hpre] at hcomplete
          exact hcomplete
        have hr : r ≠ [] := by
          rintro rfl
          exact hname rfl
        rw [if_pos rfl, if_pos rfl]
        show some (Prefix.deviceNs (parseNextComponent false (r ++ t)).1) = _
        rw [parseNextComponent_append (hlast r hr ⟨[a, b, c, d], rfl⟩)]
        rfl
      | false =>
        rw [if_neg Bool.false_ne_true, if_neg Bool.false_ne_true]
        exact parseUnc_append (List.cons_ne_nil _ _)
          (hlast (c :: d :: r) (List.cons_ne_nil _ _) ⟨[a, b], rfl⟩) (hclosed hdevice)

/-! ### What follows the prefix -/

theorem startsLike_length {s p : Path} (h : startsLike s p = true) : s.length ≤ p.length := by
  have hlen := congrArg List.length (beq_iff_eq.mp h)
  rw [List.length_map, List.length_take] at hlen
  omega

theorem length_parseNextComponent (verbatim : Bool) (r : Path) :
    (parseNextComponent verbatim r).1.length ≤ r.length :=
  (List.takeWhile_sublist _).length_le

theorem length_shareLen (verbatim : Bool) (r : Path) :
    (parseNextComponent verbatim r).1.length +
        Prefix.shareLen (parseNextComponent verbatim (parseNextComponent verbatim r).2).1 ≤
      r.length := by
  have hshare := length_parseNextComponent verbatim (parseNextComponent verbatim r).2
  have hparts := congrArg List.length
    (List.takeWhile_append_dropWhile (p := fun c => !isSep verbatim c) (l := r))
  have hsnd : (parseNextComponent verbatim r).2.length =
      (r.dropWhile fun c => !isSep verbatim c).length - 1 := List.length_drop
  have hfst : (parseNextComponent verbatim r).1.length =
      (r.takeWhile fun c => !isSep verbatim c).length := rfl
  rw [List.length_append] at hparts
  unfold Prefix.shareLen
  split <;> omega

theorem parseDrive_length {p : Path} {drive : Char} (h : parseDrive p = some drive) :
    2 ≤ p.length := by
  unfold parseDrive at h
  split at h
  · exact Nat.le_add_left 2 _
  · cases h

theorem parseVerbatim_len (r : Path) : (parseVerbatim r).len ≤ 4 + r.length := by
  unfold parseVerbatim
  split
  · next hunc =>
    have hlen := startsLike_length hunc
    have hshare := length_shareLen true (r.drop 4)
    have hfour : ['U', 'N', 'C', '\\'].length = 4 := rfl
    rw [List.length_drop] at hshare
    dsimp only [Prefix.len]
    omega
  · split
    · next drive hdrive =>
      unfold parseDriveExact at hdrive
      split at hdrive
      · have hlen := parseDrive_length hdrive
        dsimp only [Prefix.len]
        omega
      · cases hdrive
    · have hlen := length_parseNextComponent true r
      dsimp only [Prefix.len]
      omega

theorem prefixLen_le (p : Path) : prefixLen p ≤ p.length := by
  unfold prefixLen
  cases hpre : parsePrefix p with
  | none => exact Nat.zero_le _
  | some pre =>
    show pre.len ≤ p.length
    unfold parsePrefix at hpre
    split at hpre
    · next htwo =>
      have htwoLen := startsLike_length htwo
      have htwo' : ['\\', '\\'].length = 2 := rfl
      split at hpre
      · next hlead =>
        have hleadLen := startsLike_length (Bool.and_eq_true_iff.mp hlead).1
        have hlead' : ['?', '\\'].length = 2 := rfl
        have hlen := parseVerbatim_len (p.drop 4)
        rw [List.length_drop] at hlen hleadLen
        rw [← Option.some.inj hpre]
        omega
      · split at hpre
        · next hdevice =>
          have hdeviceLen := startsLike_length hdevice
          have hdevice' : ['.', '\\'].length = 2 := rfl
          have hlen := length_parseNextComponent false (p.drop 4)
          rw [List.length_drop] at hlen hdeviceLen
          rw [← Option.some.inj hpre]
          dsimp only [Prefix.len]
          omega
        · have hlen := length_shareLen false (p.drop 2)
          rw [List.length_drop] at hlen
          unfold parseUnc at hpre
          dsimp only at hpre
          split at hpre
          · rw [← Option.some.inj hpre]
            dsimp only [Prefix.len]
            omega
          · cases hpre
    · obtain ⟨drive, hdrive, rfl⟩ := Option.map_eq_some_iff.mp hpre
      exact parseDrive_length hdrive

theorem rest_append {p t : Path} (hpre : parsePrefix (p ++ t) = parsePrefix p) :
    rest (p ++ t) = rest p ++ t := by
  unfold rest
  have hlen : prefixLen (p ++ t) = prefixLen p := by
    unfold prefixLen
    rw [hpre]
  rw [hlen]
  exact List.drop_append_of_le_length (prefixLen_le p)

/-! ### Verbatim prefixes -/

theorem isSep_true_eq (c : Char) : isSep true c = (c == '\\') := Bool.or_false _

theorem parseNextComponent_self {x : Path} (hx : '\\' ∉ x) :
    parseNextComponent true x = (x, []) := by
  have hall : ∀ c ∈ x, (!isSep true c) = true := by
    intro c hc
    rw [isSep_true_eq, Bool.not_eq_true', beq_eq_false_iff_ne]
    rintro rfl
    exact hx hc
  unfold parseNextComponent
  rw [List.takeWhile_eq_self_iff.mpr hall, List.dropWhile_eq_nil_iff.mpr hall]
  rfl

theorem parseNextComponent_sep {x : Path} (hx : '\\' ∉ x) (y : Path) :
    parseNextComponent true (x ++ '\\' :: y) = (x, y) := by
  have hall : ∀ c ∈ x, (!isSep true c) = true := by
    intro c hc
    rw [isSep_true_eq, Bool.not_eq_true', beq_eq_false_iff_ne]
    rintro rfl
    exact hx hc
  unfold parseNextComponent
  rw [List.takeWhile_append_of_pos hall, List.dropWhile_append_of_pos hall,
    List.takeWhile_cons, List.dropWhile_cons, isSep_true_eq, beq_self_eq_true]
  exact Prod.ext (List.append_nil x) rfl

theorem parseNextComponent_cases (r : Path) :
    '\\' ∉ (parseNextComponent true r).1 ∧
      (r = (parseNextComponent true r).1 ∧ (parseNextComponent true r).2 = [] ∨
        r = (parseNextComponent true r).1 ++ '\\' :: (parseNextComponent true r).2) := by
  have hparts := List.takeWhile_append_dropWhile (p := fun c => !isSep true c) (l := r)
  constructor
  · intro hmem
    have hkeep := List.mem_takeWhile_imp hmem
    rw [isSep_true_eq, beq_self_eq_true] at hkeep
    cases hkeep
  · cases hdrop : r.dropWhile fun c => !isSep true c with
    | nil =>
      rw [hdrop, List.append_nil] at hparts
      refine Or.inl ⟨hparts.symm, ?_⟩
      unfold parseNextComponent
      rw [hdrop]
      rfl
    | cons c rest =>
      have hc : isSep true c = true := by
        have hhead := List.head_dropWhile_not (fun c => !isSep true c) (l := r)
          (by rw [hdrop]; exact List.cons_ne_nil c rest)
        simpa [hdrop] using hhead
      rw [isSep_true_eq] at hc
      rw [hdrop, beq_iff_eq.mp hc] at hparts
      refine Or.inr ?_
      unfold parseNextComponent
      rw [hdrop]
      exact hparts.symm

def Behind (u : Path) : Prop := u = [] ∨ ∃ w, u = '\\' :: w

theorem parseNextComponent_behind {x u : Path} (hx : '\\' ∉ x) (hu : Behind u) :
    (parseNextComponent true (x ++ u)).1 = x := by
  rcases hu with rfl | ⟨w, rfl⟩
  · rw [List.append_nil, parseNextComponent_self hx]
  · rw [parseNextComponent_sep hx]

theorem eq_fst_append (r : Path) : ∃ u, Behind u ∧ r = (parseNextComponent true r).1 ++ u := by
  obtain ⟨-, ⟨hall, -⟩ | hsep⟩ := parseNextComponent_cases r
  · exact ⟨[], Or.inl rfl, by rw [List.append_nil]; exact hall⟩
  · exact ⟨_, Or.inr ⟨_, rfl⟩, hsep⟩

theorem eq_of_like {c x : Char} (h : (if c = '/' then '\\' else c) = x)
    (hx : x ≠ '\\') : c = x := by
  split at h
  · exact absurd h.symm hx
  · exact h

theorem startsLike_behind {x u v : Path} (hx : '\\' ∉ x) (hunc : x ≠ ['U', 'N', 'C'])
    (hu : Behind u) (hv : Behind v) :
    startsLike ['U', 'N', 'C', '\\'] (x ++ u) = startsLike ['U', 'N', 'C', '\\'] (x ++ v) := by
  have hshort (w : Path) (hw : Behind w) (hlen : x.length ≤ 3) :
      startsLike ['U', 'N', 'C', '\\'] (x ++ w) = false := by
    cases hlike : startsLike ['U', 'N', 'C', '\\'] (x ++ w) with
    | false => rfl
    | true =>
      exfalso
      rcases hw with rfl | ⟨w, rfl⟩
      · have hfour := startsLike_length hlike
        rw [List.append_nil] at hfour
        exact absurd (Nat.le_trans hfour hlen) (by decide)
      · -- the backslash is the fourth character, so the others are the letters
        rcases x with _ | ⟨a, _ | ⟨b, _ | ⟨c, _ | ⟨d, x⟩⟩⟩⟩
        · simp [startsLike] at hlike
        · simp [startsLike_cons] at hlike
        · simp [startsLike_cons] at hlike
        · simp only [List.cons_append, List.nil_append, startsLike_cons, Bool.and_eq_true,
            beq_iff_eq] at hlike
          obtain ⟨ha, hb, hc, -⟩ := hlike
          apply hunc
          rw [eq_of_like ha (by decide), eq_of_like hb (by decide), eq_of_like hc (by decide)]
        · exact absurd hlen (by simp)
  by_cases hlen : x.length ≤ 3
  · rw [hshort u hu hlen, hshort v hv hlen]
  · rcases x with _ | ⟨a, _ | ⟨b, _ | ⟨c, _ | ⟨d, x⟩⟩⟩⟩
    · exact absurd (by decide) hlen
    · exact absurd (by simp) hlen
    · exact absurd (by simp) hlen
    · exact absurd (by simp) hlen
    · rfl

theorem parseDriveExact_behind {x u v : Path} (hu : Behind u) (hv : Behind v)
    (hnone : parseDriveExact (x ++ v) = none) : parseDriveExact (x ++ u) = none := by
  have hall (w : Path) (hw : Behind w) : w.head?.all (isSep false) = true := by
    rcases hw with rfl | ⟨w, rfl⟩ <;> rfl
  rcases x with _ | ⟨a, _ | ⟨b, _ | ⟨c, x⟩⟩⟩
  · unfold parseDriveExact
    split
    · rcases hu with rfl | ⟨w, rfl⟩
      · rfl
      · exact parseDrive_sep (by decide) w
    · rfl
  · unfold parseDriveExact
    split
    · rcases hu with rfl | ⟨w, rfl⟩
      · rfl
      · exact parseDrive_not_colon (by decide) w
    · rfl
  · unfold parseDriveExact at hnone ⊢
    have hsame (w : Path) : ([a, b] ++ w)[2]? = w.head? := by
      cases w <;> rfl
    rw [hsame, hall u hu, if_pos rfl]
    rw [hsame, hall v hv, if_pos rfl] at hnone
    exact (parseDrive_cons_cons a b u v).trans hnone
  · have hsame : parseDriveExact (a :: b :: c :: x ++ u) =
        parseDriveExact (a :: b :: c :: x ++ v) := by
      show (if (some c).all (isSep false) then parseDrive (a :: b :: (c :: x ++ u)) else none) =
        if (some c).all (isSep false) then parseDrive (a :: b :: (c :: x ++ v)) else none
      rw [parseDrive_cons_cons a b (c :: x ++ u) (c :: x ++ v)]
    exact hsame.trans hnone

/-- The text of a verbatim prefix, which reads as that prefix whatever is behind it. -/
def ReadsAs (r : Path) : Prop :=
  ∃ raw v, r = raw ++ v ∧ raw.length + 4 = (parseVerbatim r).len ∧
    ∀ u, Behind u → parseVerbatim (raw ++ u) = parseVerbatim r

theorem readsAs_unc (hunc : startsLike ['U', 'N', 'C', '\\'] r = true)
    (hshare : ∀ server, parseVerbatim r ≠ .verbatimUnc server []) : ReadsAs r := by
  have hpre : parseVerbatim r = .verbatimUnc (parseNextComponent true (r.drop 4)).1
      (parseNextComponent true (parseNextComponent true (r.drop 4)).2).1 := if_pos hunc
  -- the letters, the server and the share
  rcases r with _ | ⟨a, _ | ⟨b, _ | ⟨c, _ | ⟨d, tail⟩⟩⟩⟩
  · cases hunc
  · exact absurd (startsLike_length hunc) (by simp)
  · exact absurd (startsLike_length hunc) (by simp)
  · exact absurd (startsLike_length hunc) (by simp)
  change parseVerbatim (a :: b :: c :: d :: tail) = .verbatimUnc (parseNextComponent true tail).1
    (parseNextComponent true (parseNextComponent true tail).2).1 at hpre
  have hne : (parseNextComponent true (parseNextComponent true tail).2).1 ≠ [] := by
    intro hnil
    rw [hnil] at hpre
    exact hshare _ hpre
  obtain ⟨hserver, hend⟩ := parseNextComponent_cases tail
  have hfollows := hend.resolve_left fun hall => hne (by rw [hall.2]; rfl)
  obtain ⟨hshareText, -⟩ := parseNextComponent_cases (parseNextComponent true tail).2
  obtain ⟨v, -, hv⟩ := eq_fst_append (parseNextComponent true tail).2
  unfold ReadsAs
  rw [hpre]
  generalize (parseNextComponent true (parseNextComponent true tail).2).1 = share at *
  generalize (parseNextComponent true tail).1 = server at *
  generalize (parseNextComponent true tail).2 = behind at *
  subst hv
  subst hfollows
  refine ⟨a :: b :: c :: d :: (server ++ '\\' :: share), v, ?_, ?_, ?_⟩
  · simp
  · have hshareLen : Prefix.shareLen share = 1 + share.length :=
      if_pos (List.length_pos_iff.mpr hne)
    dsimp only [Prefix.len]
    rw [hshareLen]
    simp only [List.length_cons, List.length_append]
    omega
  · intro u hu
    have hparse : parseVerbatim (a :: b :: c :: d :: (server ++ '\\' :: share) ++ u) =
        .verbatimUnc (parseNextComponent true (server ++ '\\' :: share ++ u)).1
          (parseNextComponent true (parseNextComponent true (server ++ '\\' :: share ++ u)).2).1 :=
      if_pos hunc
    rw [hparse, List.append_assoc, List.cons_append, parseNextComponent_sep hserver,
      parseNextComponent_behind hshareText hu]

theorem readsAs_drive {drive : Char} (hunc : startsLike ['U', 'N', 'C', '\\'] r = false)
    (hdrive : parseDriveExact r = some drive) : ReadsAs r := by
  have hpre : parseVerbatim r = .verbatimDisk drive := by
    unfold parseVerbatim
    rw [hunc, if_neg Bool.false_ne_true, hdrive]
  have hsome : parseDrive r = some drive := by
    unfold parseDriveExact at hdrive
    split at hdrive
    · exact hdrive
    · cases hdrive
  rcases r with _ | ⟨a, _ | ⟨b, v⟩⟩
  · cases hsome
  · exact absurd (parseDrive_length hsome) (by simp)
  have hcolon : b = ':' := by
    by_contra hb
    rw [parseDrive_not_colon hb] at hsome
    cases hsome
  subst hcolon
  refine ⟨[a, ':'], v, rfl, by rw [hpre]; rfl, ?_⟩
  intro u hu
  have hnot : startsLike ['U', 'N', 'C', '\\'] ([a, ':'] ++ u) = false := by
    show startsLike ['U', 'N', 'C', '\\'] (a :: ':' :: u) = false
    rw [startsLike_cons, startsLike_cons]
    exact Bool.and_false _
  have hexact : parseDriveExact ([a, ':'] ++ u) = some drive := by
    rcases hu with rfl | ⟨w, rfl⟩
    · exact (parseDrive_cons_cons a ':' [] v).trans hsome
    · exact (parseDrive_cons_cons a ':' ('\\' :: w) v).trans hsome
  rw [hpre]
  unfold parseVerbatim
  rw [hnot, if_neg Bool.false_ne_true, hexact]

theorem readsAs_name (hunc : startsLike ['U', 'N', 'C', '\\'] r = false)
    (hdrive : parseDriveExact r = none) (hname : parseVerbatim r ≠ .verbatim ['U', 'N', 'C']) :
    ReadsAs r := by
  have hpre : parseVerbatim r = .verbatim (parseNextComponent true r).1 := by
    unfold parseVerbatim
    rw [hunc, if_neg Bool.false_ne_true, hdrive]
  obtain ⟨hx, -⟩ := parseNextComponent_cases r
  obtain ⟨v, hbehind, hr⟩ := eq_fst_append r
  rw [hpre] at hname
  have hx' : (parseNextComponent true r).1 ≠ ['U', 'N', 'C'] := fun h => hname (by rw [h])
  unfold ReadsAs
  rw [hpre]
  generalize (parseNextComponent true r).1 = x at *
  subst hr
  refine ⟨x, v, rfl, Nat.add_comm _ _, ?_⟩
  intro u hu
  unfold parseVerbatim
  rw [startsLike_behind hx hx' hu hbehind, hunc, if_neg Bool.false_ne_true,
    parseDriveExact_behind hu hbehind hdrive]
  rw [parseNextComponent_behind hx hu]

theorem readsAs (hname : parseVerbatim r ≠ .verbatim ['U', 'N', 'C'])
    (hshare : ∀ server, parseVerbatim r ≠ .verbatimUnc server []) : ReadsAs r := by
  cases hunc : startsLike ['U', 'N', 'C', '\\'] r with
  | true => exact readsAs_unc hunc hshare
  | false =>
    cases hdrive : parseDriveExact r with
    | some drive => exact readsAs_drive hunc hdrive
    | none => exact readsAs_name hunc hdrive hname

theorem verbatim_lead {p : Path} (hverbatim : isVerbatim p = true) :
    ∃ r, p = '\\' :: '\\' :: '?' :: '\\' :: r := by
  have hslash {c x : Char} (h : (if c = '/' then '\\' else c) = x) (hc : c ≠ '/') : c = x := by
    rwa [if_neg hc] at h
  cases htwo : startsLike ['\\', '\\'] p with
  | false =>
    unfold isVerbatim at hverbatim
    rw [parsePrefix_of_not_two htwo, Option.any_map] at hverbatim
    cases hdrive : parseDrive p with
    | none =>
      rw [hdrive] at hverbatim
      cases hverbatim
    | some drive =>
      rw [hdrive] at hverbatim
      cases hverbatim
  | true =>
    rcases p with _ | ⟨a, _ | ⟨b, r⟩⟩
    · cases htwo
    · rw [startsLike_one] at htwo
      cases htwo
    have hpre := parsePrefix_two htwo
    have hlead : (startsLike ['?', '\\'] r && !(a :: b :: r.take 2).contains '/') = true := by
      by_contra hnot
      rw [if_neg hnot] at hpre
      unfold isVerbatim at hverbatim
      rw [hpre] at hverbatim
      split at hverbatim
      · cases hverbatim
      · unfold parseUnc at hverbatim
        dsimp only at hverbatim
        split at hverbatim <;> cases hverbatim
    rw [Bool.and_eq_true, Bool.not_eq_true'] at hlead
    obtain ⟨hlike, hno⟩ := hlead
    rcases r with _ | ⟨c, _ | ⟨d, r⟩⟩
    · exact absurd (startsLike_length hlike) (by decide)
    · exact absurd (startsLike_length hlike) (by simp)
    have hmem : '/' ∉ [a, b, c, d] := by
      intro hmem
      have hcontains : [a, b, c, d].contains '/' = true := List.contains_iff_mem.mpr hmem
      exact absurd (hcontains.symm.trans hno) (by decide)
    simp only [startsLike_cons, Bool.and_eq_true, beq_iff_eq] at htwo hlike
    refine ⟨r, ?_⟩
    rw [hslash htwo.1 (fun h => hmem (by simp [h])), hslash htwo.2.1 (fun h => hmem (by simp [h])),
      hslash hlike.1 (fun h => hmem (by simp [h])), hslash hlike.2.1 (fun h => hmem (by simp [h]))]

theorem parsePrefix_verbatim (r : Path) :
    parsePrefix ('\\' :: '\\' :: '?' :: '\\' :: r) = some (parseVerbatim r) := rfl

theorem verbatim_stays {p : Path} (hverbatim : isVerbatim p = true) (hcomplete : Complete p) :
    ∃ pre, parsePrefix p = some pre ∧ pre.isVerbatim = true ∧
      (p.take pre.len).length = pre.len ∧
      ∀ u, Behind u → parsePrefix (p.take pre.len ++ u) = some pre := by
  obtain ⟨r, rfl⟩ := verbatim_lead hverbatim
  have hpre := parsePrefix_verbatim r
  obtain ⟨raw, v, rfl, hlen, hreads⟩ : ReadsAs r := by
    unfold Complete at hcomplete
    rw [hpre] at hcomplete
    refine readsAs ?_ ?_
    · intro hname
      rw [hname] at hcomplete
      exact hcomplete rfl
    · intro server hshare
      rw [hshare] at hcomplete
      exact hcomplete rfl
  have htake : ('\\' :: '\\' :: '?' :: '\\' :: (raw ++ v)).take (parseVerbatim (raw ++ v)).len =
      '\\' :: '\\' :: '?' :: '\\' :: raw := by
    have hlead : ('\\' :: '\\' :: '?' :: '\\' :: raw).length = raw.length + 4 := by simp
    rw [← hlen]
    exact List.take_left' hlead
  refine ⟨_, hpre, parseVerbatim_isVerbatim _, ?_, ?_⟩
  · rw [htake, ← hlen]
    simp
  · intro u hu
    rw [htake]
    exact (parsePrefix_verbatim (raw ++ u)).trans (congrArg some (hreads u hu))

end LibRustdesk.FileTransfer.Windows
