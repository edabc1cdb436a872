import LibRustdesk.FileTransfer.WindowsPrefix

/-!
# Joining names to Windows paths

What `PathBuf::join` makes of a complete base and a plain name has the prefix and the root of the
base, and its names with those of the name behind them (`Extends`).

* `extends_pathJoin_append` — off the verbatim paths the text is appended, with a separator where
  one is missing. A drive alone takes none.
* `extends_render` — the components of a verbatim base are rendered with the names behind them, and
  read back as they were.
* `Plain.extends_pathJoin`, `Plain.extends_suffix` — so for every base; with a suffix too, which
  goes to the last name. -/

namespace LibRustdesk.FileTransfer.Windows

/-! ### Joining to a path that is not verbatim -/

/-- The path is the base, with other names behind that do not go up. -/
structure Extends (base q : Path) (added : PathKey) : Prop where
  parsePrefix : parsePrefix q = parsePrefix base
  hasRoot : hasRoot q = hasRoot base
  names : names q = names base ++ added

theorem isVerbatim_congr {p q : Path} (hpre : parsePrefix q = parsePrefix p) :
    isVerbatim q = isVerbatim p := by
  unfold isVerbatim
  rw [hpre]

theorem body_suffix (p : Path) : body p <:+ p :=
  (List.drop_suffix _ _).trans (List.drop_suffix _ _)

theorem extends_append {p t name : Path} (hverbatim : isVerbatim p = false)
    (hpre : parsePrefix (p ++ t) = parsePrefix p) (hrest : rest p ≠ [])
    (ht : t = name ∧ p.getLast?.any (isSep false) = true ∨ t = '\\' :: name) :
    Extends p (p ++ t) (kept false name) := by
  have hq := rest_append hpre
  have hphysical : hasPhysicalRoot (p ++ t) = hasPhysicalRoot p := by
    unfold hasPhysicalRoot
    rw [hq, List.head?_append_of_ne_nil _ hrest]
  have hbody : body (p ++ t) = body p ++ t := by
    have hpos := List.length_pos_iff.mpr hrest
    unfold body
    rw [hq, hphysical]
    refine List.drop_append_of_le_length ?_
    split
    · exact hpos
    · exact Nat.zero_le _
  refine ⟨hpre, ?_, ?_⟩
  · unfold hasRoot
    rw [hphysical, hpre]
  · rw [names_eq, names_eq, isVerbatim_congr hpre, hverbatim, hbody]
    rcases ht with ⟨rfl, hlast⟩ | rfl
    · -- the separator is there already
      by_cases hnil : body p = []
      · rw [hnil, kept_nil]
        rfl
      · rw [getLast?_of_suffix (body_suffix p) hnil] at hlast
        cases hend : (body p).getLast? with
        | none => exact absurd (List.getLast?_eq_none_iff.mp hend) hnil
        | some sep =>
          rw [hend] at hlast
          have hsep : isSep false sep = true := hlast
          obtain ⟨x, hx⟩ := List.getLast?_eq_some_iff.mp hend
          rw [hx, kept_sep hsep x [], kept_nil, List.append_nil, List.append_assoc]
          exact kept_sep hsep x t
    · exact kept_sep (by decide) (body p) name

theorem extends_prefix {p t name : Path} (hplain : Plain name) (hverbatim : isVerbatim p = false)
    (hpre : parsePrefix (p ++ t) = parsePrefix p) (hrest : rest p = [])
    (ht : t = name ∨ t = '\\' :: name ∧ (parsePrefix p).any Prefix.hasImplicitRoot = true) :
    Extends p (p ++ t) (kept false name) := by
  have hq : rest (p ++ t) = t := by
    rw [rest_append hpre, hrest]
    rfl
  have hphysical : hasPhysicalRoot p = false := by
    unfold hasPhysicalRoot
    rw [hrest]
    rfl
  have hbodyp : body p = [] := by
    unfold body
    rw [hrest]
    exact List.drop_nil
  have hnames : names p = [] := by
    rw [names_eq, hbodyp]
    exact kept_nil
  rcases ht with rfl | ⟨rfl, himplicit⟩
  · have hphysical' : hasPhysicalRoot (p ++ t) = false := by
      unfold hasPhysicalRoot
      rw [hq]
      exact hplain.no_root
    refine ⟨hpre, ?_, ?_⟩
    · unfold hasRoot
      rw [hphysical, hphysical', hpre]
    · have hbody : body (p ++ t) = t := by
        unfold body
        rw [hphysical', hq]
        rfl
      rw [names_eq, isVerbatim_congr hpre, hverbatim, hbody, hnames]
      rfl
  · have hphysical' : hasPhysicalRoot (p ++ '\\' :: name) = true := by
      unfold hasPhysicalRoot
      rw [hq]
      exact beq_self_eq_true '\\'
    refine ⟨hpre, ?_, ?_⟩
    · unfold hasRoot
      rw [hpre, himplicit, Bool.or_true, Bool.or_true]
    · have hbody : body (p ++ '\\' :: name) = name := by
        unfold body
        rw [hphysical', hq]
        rfl
      rw [names_eq, isVerbatim_congr hpre, hverbatim, hbody, hnames]
      rfl

theorem parsePrefix_drive_append {a b : Char} (hsome : (parsePrefix [a, b]).isSome = true)
    (t : Path) : parsePrefix ([a, b] ++ t) = parsePrefix [a, b] := by
  have hsame : startsLike ['\\', '\\'] ([a, b] ++ t) = startsLike ['\\', '\\'] [a, b] := rfl
  cases htwo : startsLike ['\\', '\\'] [a, b] with
  | true =>
    rw [parsePrefix_two htwo] at hsome
    cases hsome
  | false =>
    rw [parsePrefix_of_not_two htwo, parsePrefix_of_not_two (hsame.trans htwo)]
    exact congrArg (Option.map Prefix.disk) (parseDrive_cons_cons a b t [])

variable {p : Path} {pre : Prefix}

theorem rest_eq_nil_iff (hpre : parsePrefix p = some pre) : rest p = [] ↔ pre.len = p.length := by
  have hlen : prefixLen p = pre.len := by
    unfold prefixLen
    rw [hpre]
    rfl
  have hle := prefixLen_le p
  rw [hlen] at hle
  unfold rest
  rw [hlen, List.drop_eq_nil_iff]
  exact ⟨fun h => Nat.le_antisymm hle h, fun h => Nat.le_of_eq h.symm⟩

theorem Plain.pathJoin_append {p name : Path} (hplain : Plain name)
    (hverbatim : isVerbatim p = false) :
    pathJoin p name = if needSep p then p ++ '\\' :: name else p ++ name := by
  unfold pathJoin
  rw [hplain.parsePrefix_eq, hverbatim, hplain.hasRoot_eq]
  rw [if_neg (by decide), if_neg (by rw [Bool.false_and]; exact Bool.false_ne_true),
    if_neg Bool.false_ne_true]

theorem extends_pathJoin_append {p name : Path} (hplain : Plain name)
    (hverbatim : isVerbatim p = false) (hcomplete : Complete p) :
    Extends p (pathJoin p name) (kept false name) := by
  rw [hplain.pathJoin_append hverbatim]
  by_cases hnil : p = []
  · -- the name alone
    rw [hnil]
    exact extends_prefix hplain rfl hplain.parsePrefix_eq rfl (Or.inl rfl)
  cases hend : p.getLast? with
  | none => exact absurd (List.getLast?_eq_none_iff.mp hend) hnil
  | some sep =>
  have hany : p.getLast?.any (isSep false) = isSep false sep := by
    rw [hend]
    rfl
  cases hsep : isSep false sep with
  | true =>
    -- the separator is there
    rw [hsep] at hany
    have hneed : needSep p = false := by
      unfold needSep
      rw [hend]
      show (!isSep false sep && _) = false
      rw [hsep]
      rfl
    rw [hneed, if_neg Bool.false_ne_true]
    have hmeet : Meets p name := by
      unfold Meets
      rw [hany, hplain.no_root]
      exact Bool.false_ne_true.symm
    have hpre := parsePrefix_append hnil hmeet hverbatim hcomplete
    by_cases hrest : rest p = []
    · exact extends_prefix hplain hverbatim hpre hrest (Or.inl rfl)
    · exact extends_append hverbatim hpre hrest (Or.inl ⟨rfl, hany⟩)
  | false =>
    rw [hsep] at hany
    cases hdrive : (parsePrefix p).any fun pre => pre.len == p.length && pre.isDrive with
    | true =>
      -- a drive alone takes the name without a separator
      have hneed : needSep p = false := by
        unfold needSep
        rw [hdrive, Bool.not_true, Bool.and_false]
      rw [hneed, if_neg Bool.false_ne_true]
      cases hpre : parsePrefix p with
      | none =>
        rw [hpre] at hdrive
        cases hdrive
      | some pre =>
        rw [hpre] at hdrive
        have hboth : (pre.len == p.length && pre.isDrive) = true := hdrive
        rw [Bool.and_eq_true, beq_iff_eq] at hboth
        have hstays : parsePrefix (p ++ name) = parsePrefix p := by
          obtain ⟨hlen, hdisk⟩ := hboth
          cases pre with
          | disk drive =>
            obtain ⟨a, b, rfl⟩ := List.length_eq_two.mp hlen.symm
            exact parsePrefix_drive_append (by rw [hpre]; rfl) name
          | _ => cases hdisk
        exact extends_prefix hplain hverbatim hstays ((rest_eq_nil_iff hpre).mpr hboth.1)
          (Or.inl rfl)
    | false =>
      have hneed : needSep p = true := by
        unfold needSep
        rw [hend, hdrive]
        show (!isSep false sep && true) = true
        rw [hsep]
        rfl
      rw [hneed, if_pos rfl]
      have hmeet : Meets p ('\\' :: name) := by
        unfold Meets
        rw [hany]
        exact Bool.false_ne_true
      have hstays := parsePrefix_append hnil hmeet hverbatim hcomplete
      by_cases hrest : rest p = []
      · refine extends_prefix hplain hverbatim hstays hrest (Or.inr ⟨rfl, ?_⟩)
        -- a prefix alone that is not a drive has a root
        cases hpre : parsePrefix p with
        | none =>
          have hself : rest p = p := by
            unfold rest prefixLen
            rw [hpre]
            rfl
          exact absurd (hself.symm.trans hrest) hnil
        | some pre =>
          rw [hpre] at hdrive
          have hnot : (pre.len == p.length && pre.isDrive) = false := hdrive
          rw [(rest_eq_nil_iff hpre).mp hrest, beq_self_eq_true, Bool.true_and] at hnot
          show (!pre.isDrive) = true
          rw [hnot]
          rfl
      · exact extends_append hverbatim hstays hrest (Or.inr rfl)

/-! ### Joining to a verbatim path -/

def IsBody : Component → Prop
  | .pathPrefix _ _ => False
  | .rootDir => False
  | _ => True

def behindEach (cs : List Component) : Path := cs.flatMap fun c => '\\' :: c.asOsStr

variable {cs : List Component}

theorem render_body (hcs : ∀ c ∈ cs, IsBody c) : render true cs = behindEach cs := by
  induction cs with
  | nil => rfl
  | cons c cs ih =>
    have hc := hcs c List.mem_cons_self
    have hrest := ih fun c hmem => hcs c (List.mem_cons_of_mem _ hmem)
    cases c with
    | pathPrefix raw parsed => exact hc.elim
    | rootDir => exact hc.elim
    | curDir => exact congrArg (fun u => '\\' :: '.' :: u) hrest
    | parentDir => exact congrArg (fun u => '\\' :: '.' :: '.' :: u) hrest
    | normal name => exact congrArg (fun u => '\\' :: (name ++ u)) hrest

theorem behindEach_behind (cs : List Component) : Behind (behindEach cs) := by
  cases cs with
  | nil => exact Or.inl rfl
  | cons c cs => exact Or.inr ⟨_, rfl⟩

theorem render_root (hcs : ∀ c ∈ cs, IsBody c) :
    render true (.rootDir :: cs) = if cs = [] then ['\\'] else behindEach cs := by
  cases cs with
  | nil => rfl
  | cons c cs =>
    have hc := hcs c List.mem_cons_self
    have hrest := render_body fun c hmem => hcs c (List.mem_cons_of_mem _ hmem)
    rw [if_neg (List.cons_ne_nil c cs)]
    cases c with
    | pathPrefix raw parsed => exact hc.elim
    | rootDir => exact hc.elim
    | curDir => exact congrArg (fun u => '\\' :: '.' :: u) hrest
    | parentDir => exact congrArg (fun u => '\\' :: '.' :: '.' :: u) hrest
    | normal name => exact congrArg (fun u => '\\' :: (name ++ u)) hrest

theorem not_sep_of_mem_pieces {f : Char → Bool} {x c : Path} (hc : c ∈ x.splitOnP f) :
    ∀ a ∈ c, f a = false := by
  induction x generalizing c with
  | nil =>
    rw [List.splitOnP_nil, List.mem_singleton] at hc
    rw [hc]
    exact fun a ha => absurd ha List.not_mem_nil
  | cons b x ih =>
    rw [List.splitOnP_cons_eq_if_modifyHead] at hc
    split at hc
    · rcases List.mem_cons.mp hc with rfl | hc
      · exact fun a ha => absurd ha List.not_mem_nil
      · exact ih hc
    · next hb =>
      cases hpieces : x.splitOnP f with
      | nil => exact absurd hpieces (List.splitOnP_ne_nil f x)
      | cons first others =>
        rw [hpieces, List.modifyHead_cons] at hc
        rcases List.mem_cons.mp hc with rfl | hc
        · intro a ha
          rcases List.mem_cons.mp ha with rfl | ha
          · exact eq_false_of_ne_true hb
          · exact ih (by rw [hpieces]; exact List.mem_cons_self) a ha
        · exact ih (by rw [hpieces]; exact List.mem_cons_of_mem first hc)

theorem kept_piece {verbatim : Bool} {x : Path} (hx : ∀ a ∈ x, isSep verbatim a = false) :
    kept verbatim x = [x].filter isName := by
  unfold kept
  rw [List.splitOnP_eq_singleton hx]

theorem kept_behindEach (hcs : ∀ c ∈ cs, '\\' ∉ c.asOsStr) :
    kept true (behindEach cs) =
      (cs.map Component.asOsStr).filter isName := by
  induction cs with
  | nil => exact kept_nil
  | cons c cs ih =>
    have hc : ∀ a ∈ c.asOsStr, isSep true a = false := by
      intro a ha
      rw [isSep_true_eq, beq_eq_false_iff_ne]
      rintro rfl
      exact hcs c List.mem_cons_self ha
    have hrest := ih fun c hmem => hcs c (List.mem_cons_of_mem _ hmem)
    show kept true ('\\' :: (c.asOsStr ++ behindEach cs)) = _
    rw [kept_cons (by decide), List.map_cons, ← List.singleton_append (x := c.asOsStr),
      List.filter_append, ← hrest, ← kept_piece hc]
    rcases behindEach_behind cs with hnil | ⟨w, hw⟩
    · rw [hnil, kept_nil, List.append_nil, List.append_nil]
    · rw [hw, kept_sep (by decide), kept_cons (by decide)]

theorem parseSingleComponent_spec {verbatim : Bool} {x : Path} {c : Component}
    (h : parseSingleComponent verbatim x = some c) : IsBody c ∧ c.asOsStr = x := by
  unfold parseSingleComponent at h
  split at h
  · next hdot =>
    split at h
    · rw [← Option.some.inj h, hdot]
      exact ⟨trivial, rfl⟩
    · cases h
  · split at h
    · next hup =>
      rw [← Option.some.inj h, hup]
      exact ⟨trivial, rfl⟩
    · split at h
      · cases h
      · rw [← Option.some.inj h]
        exact ⟨trivial, rfl⟩

theorem bodyComponents_spec {c : Component} (hc : c ∈ bodyComponents p) :
    IsBody c ∧ ∀ a ∈ c.asOsStr, isSep (isVerbatim p) a = false := by
  obtain ⟨x, hx, hsome⟩ := List.mem_filterMap.mp hc
  obtain ⟨hbody, htext⟩ := parseSingleComponent_spec hsome
  rw [htext]
  exact ⟨hbody, not_sep_of_mem_pieces hx⟩

theorem filter_bodyComponents (hverbatim : isVerbatim p = true) :
    ((bodyComponents p).map Component.asOsStr).filter isName = names p := by
  have hpiece (x : Path) : ((parseSingleComponent true x).map Component.asOsStr).filter isName =
      Option.guard isName x := by
    unfold parseSingleComponent
    by_cases hdot : x = ['.']
    · rw [hdot]
      rfl
    · by_cases hup : x = ['.', '.']
      · rw [hup]
        rfl
      · by_cases hnil : x = []
        · rw [hnil]
          rfl
        · rw [if_neg hdot, if_neg hup, if_neg hnil]
          rfl
  rw [names_eq]
  unfold bodyComponents kept
  rw [hverbatim, List.map_filterMap, List.filter_filterMap, ← List.filterMap_eq_filter]
  exact congrArg (fun f => ((body p).splitOnP (isSep true)).filterMap f) (funext hpiece)

theorem needSep_of_isVerbatim (h : pre.isVerbatim = true) (raw : Path) :
    (Component.pathPrefix raw pre).needSep = true ∧ pre.hasImplicitRoot = true := by
  have hdrive : pre.isDrive = false := by
    cases pre <;> first | rfl | cases h
  have hpos : 0 < pre.len := by
    cases pre <;> dsimp only [Prefix.len] <;> omega
  constructor
  · show (!pre.isDrive && decide (0 < pre.len)) = true
    rw [hdrive, decide_eq_true hpos]
    rfl
  · show (!pre.isDrive) = true
    rw [hdrive]
    rfl

theorem render_components (hpre : parsePrefix p = some pre)
    (hkind : pre.isVerbatim = true) {more : List Component} (hmore : ∀ c ∈ more, IsBody c)
    (htexts : ∀ c ∈ more, '\\' ∉ c.asOsStr) :
    ∃ u, Behind u ∧ render false (components p ++ more) = p.take pre.len ++ u ∧
      kept true u = names p ++ (more.map Component.asOsStr).filter isName := by
  have hverbatim : isVerbatim p = true := by
    unfold isVerbatim
    rw [hpre]
    exact hkind
  have hbody : ∀ c ∈ bodyComponents p ++ more, IsBody c := by
    intro c hc
    rcases List.mem_append.mp hc with hc | hc
    · exact (bodyComponents_spec hc).1
    · exact hmore c hc
  have hnames : kept true (behindEach (bodyComponents p ++ more)) =
      names p ++ (more.map Component.asOsStr).filter isName := by
    rw [kept_behindEach, List.map_append, List.filter_append, filter_bodyComponents hverbatim]
    intro c hc
    rcases List.mem_append.mp hc with hc | hc
    · intro hmem
      have hno := (bodyComponents_spec hc).2 _ hmem
      rw [hverbatim, isSep_true_eq] at hno
      cases hno
    · exact htexts c hc
  have hfirst (cs : List Component) :
      render false (.pathPrefix (p.take pre.len) pre :: cs) = p.take pre.len ++ render true cs := by
    show [] ++ p.take pre.len ++ render (Component.pathPrefix (p.take pre.len) pre).needSep cs = _
    rw [(needSep_of_isVerbatim hkind _).1, List.nil_append]
  have hcomponents : render false (components p ++ more) =
      p.take pre.len ++ render true (startComponent p ++ (bodyComponents p ++ more)) := by
    have hprefixed : prefixComponent p = [.pathPrefix (p.take pre.len) pre] := by
      unfold prefixComponent
      rw [hpre]
    unfold components
    rw [hprefixed, List.append_assoc, List.append_assoc, List.singleton_append, hfirst]
  rw [hcomponents]
  -- a root is the backslash of the first component, or alone
  cases hroot : hasPhysicalRoot p with
  | false =>
    have hstart : startComponent p = [] := by
      unfold startComponent
      rw [hroot, hpre, if_neg Bool.false_ne_true]
      show (if pre.hasImplicitRoot && !pre.isVerbatim then [Component.rootDir] else []) = []
      rw [hkind, Bool.not_true, Bool.and_false, if_neg Bool.false_ne_true]
    rw [hstart, List.nil_append, render_body hbody]
    exact ⟨_, behindEach_behind _, rfl, hnames⟩
  | true =>
    have hstart : startComponent p = [.rootDir] := by
      unfold startComponent
      rw [hroot, if_pos rfl]
    rw [hstart, List.singleton_append, render_root hbody]
    split
    · next hnil =>
      rw [hnil] at hnames
      exact ⟨_, Or.inr ⟨[], rfl⟩, rfl, hnames⟩
    · exact ⟨_, behindEach_behind _, rfl, hnames⟩

theorem extends_render (hverbatim : isVerbatim p = true) (hcomplete : Complete p)
    {added : PathKey} (hsep : ∀ c ∈ added, '\\' ∉ c) (hname : ∀ c ∈ added, isName c = true) :
    Extends p (render false (components p ++ added.map .normal)) added := by
  obtain ⟨pre, hpre, hkind, hlen, hstays⟩ := verbatim_stays hverbatim hcomplete
  have hmore : ∀ c ∈ added.map Component.normal, IsBody c ∧ '\\' ∉ c.asOsStr := by
    intro c hc
    obtain ⟨x, hx, rfl⟩ := List.mem_map.mp hc
    exact ⟨trivial, hsep x hx⟩
  obtain ⟨u, hu, hrender, hkept⟩ := render_components hpre hkind (fun c hc => (hmore c hc).1)
    fun c hc => (hmore c hc).2
  have hsame : (added.map Component.normal).map Component.asOsStr = added := by
    rw [List.map_map]
    exact List.map_id' added
  rw [hsame, List.filter_eq_self.mpr hname] at hkept
  rw [hrender]
  have hq := hstays u hu
  have hrest : rest (p.take pre.len ++ u) = u := by
    unfold rest prefixLen
    rw [hq]
    exact List.drop_left' hlen
  refine ⟨hq.trans hpre.symm, ?_, ?_⟩
  · -- a verbatim path has a root in any case
    unfold hasRoot
    rw [hq, hpre]
    show (_ || pre.hasImplicitRoot) = (_ || pre.hasImplicitRoot)
    rw [(needSep_of_isVerbatim hkind []).2, Bool.or_true, Bool.or_true]
  · have hstill : isVerbatim (p.take pre.len ++ u) = true := by
      unfold isVerbatim
      rw [hq]
      exact hkind
    rw [names_eq, hstill, ← hkept]
    unfold body hasPhysicalRoot
    rw [hrest]
    rcases hu with rfl | ⟨w, rfl⟩
    · rfl
    · exact (kept_cons (by decide) w).symm

/-! ### Joining -/

theorem mem_kept {name c : Path} (hc : c ∈ kept false name) : isName c = true ∧ '\\' ∉ c := by
  obtain ⟨hpiece, hname⟩ := List.mem_filter.mp hc
  refine ⟨hname, fun hmem => ?_⟩
  exact absurd (not_sep_of_mem_pieces hpiece _ hmem) (by decide)

namespace Plain

variable {name : Path} (h : Plain name)

include h

theorem bodyComponents_eq : bodyComponents name = (kept false name).map .normal := by
  have hpieces (pieces : List Path) (hup : ['.', '.'] ∉ pieces.filter isName) :
      pieces.filterMap (parseSingleComponent false) = (pieces.filter isName).map .normal := by
    induction pieces with
    | nil => rfl
    | cons x pieces ih =>
      rw [List.filter_cons] at hup ⊢
      cases hx : isName x with
      | true =>
        rw [hx, if_pos rfl, List.mem_cons, not_or] at hup
        unfold isName at hx
        rw [Bool.and_eq_true, Bool.not_eq_true', bne_iff_ne] at hx
        have hnil : x ≠ [] := by simpa using hx.1
        have hsome : parseSingleComponent false x = some (.normal x) := by
          unfold parseSingleComponent
          rw [if_neg hx.2, if_neg (Ne.symm hup.1), if_neg hnil]
        rw [List.filterMap_cons_some hsome, if_pos rfl, List.map_cons, ih hup.2]
      | false =>
        rw [hx, if_neg Bool.false_ne_true] at hup
        have hnone : parseSingleComponent false x = none := by
          unfold isName at hx
          rw [Bool.and_eq_false_iff, Bool.not_eq_false', bne_eq_false_iff_eq] at hx
          rcases hx with hnil | rfl
          · rw [List.isEmpty_iff.mp hnil]
            rfl
          · rfl
        rw [List.filterMap_cons_none hnone, if_neg Bool.false_ne_true, ih hup]
  unfold bodyComponents
  rw [h.isVerbatim_eq, h.body_eq]
  exact hpieces _ h.no_up

theorem foldl_pushComponent (buf : List Component) :
    (components name).foldl pushComponent buf = buf ++ (kept false name).map .normal := by
  have hnormals (xs : PathKey) (buf : List Component) :
      (xs.map Component.normal).foldl pushComponent buf = buf ++ xs.map .normal := by
    induction xs generalizing buf with
    | nil => exact (List.append_nil buf).symm
    | cons x xs ih =>
      rw [List.map_cons, List.foldl_cons, ih]
      exact List.append_assoc buf [.normal x] (xs.map .normal)
  have hprefixed : prefixComponent name = [] := by
    unfold prefixComponent
    rw [h.parsePrefix_eq]
  -- a dot in front of the name is passed over
  have hstart : (startComponent name).foldl pushComponent buf = buf := by
    unfold startComponent
    rw [h.hasPhysicalRoot_eq, h.parsePrefix_eq, if_neg Bool.false_ne_true]
    dsimp only
    split <;> rfl
  unfold components
  rw [hprefixed, List.nil_append, List.foldl_append, hstart, h.bodyComponents_eq, hnormals]

theorem pathJoin_verbatim {p : Path} (hverbatim : isVerbatim p = true) :
    pathJoin p name = render false (components p ++ (kept false name).map .normal) := by
  unfold pathJoin
  rw [h.parsePrefix_eq, if_neg (by decide), hverbatim, Bool.true_and,
    if_pos (decide_eq_true h.ne_nil), h.foldl_pushComponent]

theorem extends_pathJoin {p : Path} (hcomplete : Complete p) :
    Extends p (pathJoin p name) (kept false name) := by
  cases hverbatim : isVerbatim p with
  | false => exact extends_pathJoin_append h hverbatim hcomplete
  | true =>
    rw [h.pathJoin_verbatim hverbatim]
    exact extends_render hverbatim hcomplete (fun c hc => (mem_kept hc).2)
      fun c hc => (mem_kept hc).1

end Plain

/-! ### Suffixes -/

/-- A suffix that leaves a name a name: it has no separator, and is longer than two dots. -/
structure Suffix (s : Path) : Prop where
  no_sep : ∀ a ∈ s, isSep false a = false
  no_colon : s.head? ≠ some ':'
  two_lt : 2 < s.length

theorem Suffix.isName_append {s : Path} (hs : Suffix s) (x : Path) :
    isName (x ++ s) = true ∧ x ++ s ≠ ['.', '.'] := by
  have hlen : 2 < (x ++ s).length := by
    rw [List.length_append]
    exact Nat.lt_of_lt_of_le hs.two_lt (Nat.le_add_left _ _)
  have hne (y : Path) (hy : y.length ≤ 2) : x ++ s ≠ y := by
    rintro heq
    rw [heq] at hlen
    exact absurd hlen (Nat.not_lt.mpr hy)
  refine ⟨?_, hne _ (by decide)⟩
  unfold isName
  rw [Bool.and_eq_true, Bool.not_eq_true', bne_iff_ne, List.isEmpty_eq_false_iff]
  exact ⟨hne [] (by decide), hne _ (by decide)⟩

theorem Suffix.kept_append {s : Path} (hs : Suffix s) (name : Path) :
    ∃ init last, name.splitOnP (isSep false) = init ++ [last] ∧
      kept false (name ++ s) = init.filter isName ++ [last ++ s] := by
  obtain ⟨init, last, hname, happend⟩ := splitOnP_append_suffix name hs.no_sep
  refine ⟨init, last, hname, ?_⟩
  unfold kept
  rw [happend, List.filter_append, List.filter_cons, (hs.isName_append last).1, if_pos rfl]
  rfl

theorem Plain.append {name s : Path} (h : Plain name) (hs : Suffix s) : Plain (name ++ s) where
  ne_nil := fun hnil => h.ne_nil (List.append_eq_nil_iff.mp hnil).1
  no_drive := by
    rcases name with _ | ⟨a, _ | ⟨b, name⟩⟩
    · exact absurd rfl h.ne_nil
    · cases s with
      | nil => rfl
      | cons b s =>
        refine parseDrive_not_colon ?_ s
        rintro rfl
        exact hs.no_colon rfl
    · exact (parseDrive_cons_cons a b _ name).trans h.no_drive
  no_root := by
    rw [List.head?_append_of_ne_nil _ h.ne_nil]
    exact h.no_root
  no_up := by
    obtain ⟨init, last, hname, hkept⟩ := hs.kept_append name
    have hup := h.no_up
    unfold kept at hup
    rw [hname, List.filter_append, List.mem_append, not_or] at hup
    rw [hkept, List.mem_append, not_or, List.mem_singleton]
    exact ⟨hup.1, fun hlast => (hs.isName_append last).2 hlast.symm⟩

theorem render_append (needSep : Bool) (cs : List Component) (x s : Path) :
    render needSep (cs ++ [.normal x]) ++ s = render needSep (cs ++ [.normal (x ++ s)]) := by
  induction cs generalizing needSep with
  | nil =>
    show (_ ++ x ++ []) ++ s = _ ++ (x ++ s) ++ []
    rw [List.append_nil, List.append_nil, List.append_assoc]
    rfl
  | cons c cs ih =>
    show (_ ++ _ ++ render _ (cs ++ [.normal x])) ++ s =
      _ ++ _ ++ render _ (cs ++ [.normal (x ++ s)])
    rw [List.append_assoc, ih]

theorem Plain.extends_suffix {name p s : Path} (h : Plain name) (hcomplete : Complete p)
    (hs : Suffix s) :
    (∃ added, ['.', '.'] ∉ added ∧ Extends p (pathJoin p name ++ s) added) ∨
      Extends p (pathJoin p name) [] := by
  have happend := h.append hs
  cases hverbatim : isVerbatim p with
  | false =>
    have htext : pathJoin p name ++ s = pathJoin p (name ++ s) := by
      rw [h.pathJoin_append hverbatim, happend.pathJoin_append hverbatim]
      split
      · rw [List.append_assoc]
        rfl
      · exact List.append_assoc _ _ _
    rw [htext]
    exact Or.inl ⟨_, happend.no_up, happend.extends_pathJoin hcomplete⟩
  | true =>
    have hself := h.extends_pathJoin hcomplete
    rw [h.pathJoin_verbatim hverbatim] at hself ⊢
    rcases (kept false name).eq_nil_or_concat' with hnil | ⟨init, last, hkept⟩
    · rw [hnil] at hself ⊢
      exact Or.inr hself
    · -- the suffix goes to the last name
      have hmem (c : Path) (hc : c ∈ init) : isName c = true ∧ '\\' ∉ c := by
        have hin : c ∈ kept false name := by
          rw [hkept]
          exact List.mem_append_left _ hc
        exact mem_kept hin
      have hlast : '\\' ∉ last := by
        have hin : last ∈ kept false name := by
          rw [hkept]
          exact List.mem_append_right _ (List.mem_singleton_self last)
        exact (mem_kept hin).2
      have hcases (c : Path) (hc : c ∈ init ++ [last ++ s]) : isName c = true ∧ '\\' ∉ c := by
        rcases List.mem_append.mp hc with hc | hc
        · exact hmem c hc
        · rw [List.mem_singleton.mp hc]
          refine ⟨(hs.isName_append last).1, fun hsep => ?_⟩
          rcases List.mem_append.mp hsep with hsep | hsep
          · exact hlast hsep
          · exact absurd (hs.no_sep _ hsep) (by decide)
      refine Or.inl ⟨init ++ [last ++ s], ?_, ?_⟩
      · intro hup
        rcases List.mem_append.mp hup with hup | hup
        · refine h.no_up ?_
          rw [hkept]
          exact List.mem_append_left _ hup
        · exact (hs.isName_append last).2 (List.mem_singleton.mp hup).symm
      · have hextends := extends_render hverbatim hcomplete (fun c hc => (hcases c hc).2)
          fun c hc => (hcases c hc).1
        rw [hkept, List.map_append, List.map_singleton, ← List.append_assoc, render_append,
          List.append_assoc]
        rw [List.map_append, List.map_singleton] at hextends
        exact hextends

/-! ### Names that are accepted -/

theorem plain_of_validated {name : Path} (hne : name ≠ [])
    (h : validateFileNameNoTraversal name = .ok ()) : Plain name := by
  unfold validateFileNameNoTraversal at h
  split_ifs at h with hnull hup hdrive hroot
  refine ⟨hne, ?_, ?_, ?_⟩
  · exact Option.not_isSome_iff_eq_none.mp hdrive
  · exact eq_false_of_ne_true hroot
  · intro hmem
    obtain ⟨hpiece, -⟩ := List.mem_filter.mp hmem
    exact hup (List.contains_iff_mem.mpr (List.mem_filter.mpr ⟨hpiece, rfl⟩))

theorem joinValidatedPath_spec {onDisk : Except String Unit} {base name path : Path}
    (h : joinValidatedPath onDisk base name = .ok path) :
    path = join base name ∧ validateFileNameNoTraversal name = .ok () := by
  unfold joinValidatedPath at h
  cases hname : validateFileNameNoTraversal name with
  | error e => rw [hname] at h; cases h
  | ok u =>
    cases hlink : validateNoSymlinkComponents onDisk name with
    | error e => rw [hname, hlink] at h; cases h
    | ok _ =>
      rw [hname, hlink] at h
      exact ⟨(Except.ok.inj h).symm, rfl⟩

end LibRustdesk.FileTransfer.Windows
