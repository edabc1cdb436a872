import LibRustdesk.FileTransfer.Paths

/-!
# Paths of a file transfer on Windows

What `std::path` makes of a path on Windows, and the functions of `libs/hbb_common/src/fs.rs` that
differ there. Both slashes separate, but for a verbatim path, in which only a backslash does; and a
path may begin with a prefix, of which there are six kinds.

* `parsePrefix` — the prefix, read off the beginning of the text. So it depends on what comes
  behind: in `\\server` there is none, in `\\server\x` there is one.
* `components`, `names` — the components, and those of them that move through directories.
* `join` — `PathBuf::join`. A verbatim base is taken apart and put together again; to any other one
  the text of the name is appended.
* `Plain` — a name that is neither absolute nor empty, and does not go up.

What Windows itself does to a component (trailing dots and blanks, device names, streams) is not
modelled.
-/

namespace LibRustdesk.FileTransfer.Windows

/-! ### Prefixes -/

/-- `is_sep_byte`, or `is_verbatim_sep` in a verbatim path. -/
def isSep (verbatim : Bool) (c : Char) : Bool := c == '\\' || (!verbatim && c == '/')

inductive Prefix
  | verbatim (name : Path)
  | verbatimUnc (server share : Path)
  | verbatimDisk (drive : Char)
  | deviceNs (name : Path)
  | unc (server share : Path)
  | disk (drive : Char)
  deriving DecidableEq, Repr

namespace Prefix

def isVerbatim : Prefix → Bool
  | .verbatim _ | .verbatimUnc _ _ | .verbatimDisk _ => true
  | _ => false

def isDrive : Prefix → Bool
  | .disk _ => true
  | _ => false

def hasImplicitRoot (pre : Prefix) : Bool := !pre.isDrive

/-- The characters a share takes, with the separator in front of it. -/
def shareLen (share : Path) : ℕ := if share.length > 0 then 1 + share.length else 0

def len : Prefix → ℕ
  | .verbatim name => 4 + name.length
  | .verbatimUnc server share => 8 + server.length + shareLen share
  | .verbatimDisk _ => 6
  | .unc server share => 2 + server.length + shareLen share
  | .deviceNs name => 4 + name.length
  | .disk _ => 2

end Prefix

/-- `PrefixParser::strip_prefix`: slashes count as backslashes. -/
def startsLike (s : Path) (p : Path) : Bool :=
  ((p.take s.length).map fun c => if c = '/' then '\\' else c) == s

/-- `parse_next_component`: the component, and what follows the separator behind it. -/
def parseNextComponent (verbatim : Bool) (p : Path) : Path × Path :=
  (p.takeWhile fun c => !isSep verbatim c, (p.dropWhile fun c => !isSep verbatim c).drop 1)

def parseDrive : Path → Option Char
  | drive :: ':' :: _ => if drive.isAlpha then some drive.toUpper else none
  | _ => none

/-- `parse_drive_exact`: nothing but a separator may follow. -/
def parseDriveExact (p : Path) : Option Char :=
  if p[2]?.all (isSep false) then parseDrive p else none

/-- Behind `\\?\`. -/
def parseVerbatim (r : Path) : Prefix :=
  if startsLike ['U', 'N', 'C', '\\'] r then
    .verbatimUnc (parseNextComponent true (r.drop 4)).1
      (parseNextComponent true (parseNextComponent true (r.drop 4)).2).1
  else
    match parseDriveExact r with
    | some drive => .verbatimDisk drive
    | none => .verbatim (parseNextComponent true r).1

def parseUnc (r : Path) : Option Prefix :=
  let server := (parseNextComponent false r).1
  let share := (parseNextComponent false (parseNextComponent false r).2).1
  if server ≠ [] ∧ share ≠ [] then some (.unc server share) else none

def parsePrefix (p : Path) : Option Prefix :=
  if startsLike ['\\', '\\'] p then
    -- a verbatim path has no slash there
    if startsLike ['?', '\\'] (p.drop 2) && !(p.take 4).contains '/' then
      some (parseVerbatim (p.drop 4))
    else if startsLike ['.', '\\'] (p.drop 2) then
      some (.deviceNs (parseNextComponent false (p.drop 4)).1)
    else parseUnc (p.drop 2)
  else (parseDrive p).map .disk

/-! ### Components -/

section Components

variable (p : Path)

def prefixLen : ℕ := (parsePrefix p).elim 0 Prefix.len

def isVerbatim : Bool := (parsePrefix p).any Prefix.isVerbatim

def rest : Path := p.drop (prefixLen p)

def hasPhysicalRoot : Bool := (rest p).head?.any (isSep false)

def hasRoot : Bool := hasPhysicalRoot p || (parsePrefix p).any Prefix.hasImplicitRoot

def body : Path := (rest p).drop (if hasPhysicalRoot p then 1 else 0)

end Components

/-- `Component`. The prefix is kept as it is written, too. -/
inductive Component
  | pathPrefix (raw : Path) (parsed : Prefix)
  | rootDir
  | curDir
  | parentDir
  | normal (name : Path)
  deriving DecidableEq, Repr

namespace Component

def asOsStr : Component → Path
  | .pathPrefix raw _ => raw
  | .rootDir => ['\\']
  | .curDir => ['.']
  | .parentDir => ['.', '.']
  | .normal name => name

/-- The name by which a component moves through the directories. -/
def name? : Component → Option Path
  | .parentDir => some ['.', '.']
  | .normal name => some name
  | _ => none

end Component

def parseSingleComponent (verbatim : Bool) (c : Path) : Option Component :=
  if c = ['.'] then if verbatim then some .curDir else none
  else if c = ['.', '.'] then some .parentDir
  else if c = [] then none
  else some (.normal c)

/-- `include_cur_dir`: a path without root may begin with a dot. -/
def includeCurDir (p : Path) : Bool :=
  !hasRoot p && (rest p).head? == some '.' && ((rest p)[1]?).all (isSep (isVerbatim p))

/-- `State::Prefix`. -/
def prefixComponent (p : Path) : List Component :=
  match parsePrefix p with
  | some pre => [.pathPrefix (p.take pre.len) pre]
  | none => []

/-- `State::StartDir`. -/
def startComponent (p : Path) : List Component :=
  if hasPhysicalRoot p then [.rootDir]
  else
    match parsePrefix p with
    | some pre => if pre.hasImplicitRoot && !pre.isVerbatim then [.rootDir] else []
    | none => if includeCurDir p then [.curDir] else []

/-- `State::Body`. -/
def bodyComponents (p : Path) : List Component :=
  ((body p).splitOnP (isSep (isVerbatim p))).filterMap (parseSingleComponent (isVerbatim p))

def components (p : Path) : List Component :=
  prefixComponent p ++ startComponent p ++ bodyComponents p

def names (p : Path) : PathKey := (components p).filterMap Component.name?

/-! ### `PathBuf::join` -/

def needSep (p : Path) : Bool :=
  p.getLast?.any (fun c => !isSep false c) &&
    !((parsePrefix p).any fun pre => pre.len == p.length && pre.isDrive)

/-- A component of the name onto those of a verbatim base. -/
def pushComponent (buf : List Component) : Component → List Component
  | .rootDir => buf.take 1 ++ [.rootDir]
  | .curDir => buf
  | .parentDir =>
    match buf.getLast? with
    | some (.normal _) => buf.dropLast
    | _ => buf
  | c => buf ++ [c]

def Component.needSep : Component → Bool
  | .rootDir => false
  | .pathPrefix _ parsed => !parsed.isDrive && decide (parsed.len > 0)
  | _ => true

def render : Bool → List Component → Path
  | _, [] => []
  | needSep, c :: cs =>
    (if needSep && c != .rootDir then ['\\'] else []) ++ c.asOsStr ++ render c.needSep cs

/-- `PathBuf::join`. -/
def pathJoin (p name : Path) : Path :=
  -- an absolute path has a prefix
  if (parsePrefix name).isSome then name
  else if isVerbatim p && name ≠ [] then
    render false ((components name).foldl pushComponent (components p))
  else if hasRoot name then p.take (prefixLen p) ++ name
  else if needSep p then p ++ '\\' :: name
  else p ++ name

def join (p name : Path) : Path := if name.isEmpty then p else pathJoin p name

/-! ### The validation of a name -/

def validateFileNameNoTraversal (name : Path) : Except String Unit :=
  if name.contains '\x00' then .error "file name contains null bytes"
  else if ((name.splitOnP (isSep false)).filter fun c => !c.isEmpty).contains ['.', '.'] then
    .error "path traversal detected in file name"
  else if (parseDrive name).isSome then .error "absolute path detected in file name"
  else if name.head?.any (isSep false) then .error "absolute path detected in file name"
  else .ok ()

/-- The walk over the components of `name`: what is on disk there is decided by `onDisk`. -/
def validateNoSymlinkComponents (onDisk : Except String Unit) (name : Path) : Except String Unit :=
  if name.isEmpty then .ok ()
  else if (components name).any fun c =>
      match c with
      | .normal _ | .curDir => false
      | _ => true then
    .error "invalid file name component"
  else onDisk

def joinValidatedPath (onDisk : Except String Unit) (base name : Path) : Except String Path := do
  validateFileNameNoTraversal name
  validateNoSymlinkComponents onDisk name
  return join base name

/-! ### The names of a path -/

def isName (c : Path) : Bool := !c.isEmpty && c != ['.']

def kept (verbatim : Bool) (x : Path) : PathKey :=
  (x.splitOnP (isSep verbatim)).filter isName

section Kept

variable {verbatim : Bool} {sep : Char} (hsep : isSep verbatim sep = true)

theorem kept_nil : kept verbatim [] = [] := by
  unfold kept
  rw [List.splitOnP_nil]
  rfl

include hsep

theorem kept_sep (x y : Path) :
    kept verbatim (x ++ sep :: y) = kept verbatim x ++ kept verbatim y := by
  unfold kept
  rw [List.splitOnP_append_cons _ _ hsep, List.filter_append]

theorem kept_cons (y : Path) : kept verbatim (sep :: y) = kept verbatim y := by
  have h := kept_sep hsep [] y
  rw [List.nil_append, kept_nil, List.nil_append] at h
  exact h

end Kept

theorem parseSingleComponent_name (verbatim : Bool) (c : Path) :
    (parseSingleComponent verbatim c).bind Component.name? =
      Option.guard isName c := by
  unfold parseSingleComponent Option.guard
  by_cases hdot : c = ['.']
  · rw [hdot]
    cases verbatim <;> rfl
  · rw [if_neg hdot]
    by_cases hup : c = ['.', '.']
    · rw [hup]
      rfl
    · rw [if_neg hup]
      by_cases hnil : c = []
      · rw [hnil]
        rfl
      · rw [if_neg hnil]
        have hkeep : isName c = true := by
          unfold isName
          rw [Bool.and_eq_true, Bool.not_eq_true', bne_iff_ne]
          exact ⟨by simpa using hnil, hdot⟩
        rw [if_pos hkeep]
        rfl

theorem names_eq (p : Path) : names p = kept (isVerbatim p) (body p) := by
  have hpieces (pieces : List Path) :
      (pieces.filterMap (parseSingleComponent (isVerbatim p))).filterMap Component.name? =
        pieces.filter isName := by
    rw [List.filterMap_filterMap, ← List.filterMap_eq_filter]
    exact congrArg (fun f => pieces.filterMap f)
      (funext fun c => parseSingleComponent_name (isVerbatim p) c)
  have hpre : (prefixComponent p).filterMap Component.name? = [] := by
    unfold prefixComponent
    split <;> rfl
  have hroot : (startComponent p).filterMap Component.name? = [] := by
    unfold startComponent
    split
    · rfl
    · split <;> split <;> rfl
  unfold names components bodyComponents kept
  rw [List.filterMap_append, List.filterMap_append, hpieces, hpre, hroot]
  rfl

/-! ### Names that are joined -/

theorem startsLike_cons (a : Char) (s : Path) (c : Char) (p : Path) :
    startsLike (a :: s) (c :: p) = (((if c = '/' then '\\' else c) == a) && startsLike s p) := rfl

/-- A name that is neither absolute nor empty, and that does not go up. -/
structure Plain (name : Path) : Prop where
  ne_nil : name ≠ []
  no_drive : parseDrive name = none
  no_root : name.head?.any (isSep false) = false
  no_up : ['.', '.'] ∉ kept false name

theorem parsePrefix_of_not_two {p : Path} (h : startsLike ['\\', '\\'] p = false) :
    parsePrefix p = (parseDrive p).map .disk := by
  unfold parsePrefix
  rw [h]
  rfl

theorem isSep_true_iff (c : Char) : isSep false c = true ↔ c = '\\' ∨ c = '/' := by
  unfold isSep
  rw [Bool.not_false, Bool.true_and, Bool.or_eq_true, beq_iff_eq, beq_iff_eq]

theorem like_backslash (c : Char) : ((if c = '/' then '\\' else c) == '\\') = isSep false c := by
  unfold isSep
  by_cases hslash : c = '/'
  · rw [hslash]
    decide
  · rw [if_neg hslash, beq_eq_false_iff_ne.mpr hslash, Bool.and_false, Bool.or_false]

theorem startsLike_two {a b : Char} (r : Path) :
    startsLike ['\\', '\\'] (a :: b :: r) = (isSep false a && isSep false b) := by
  rw [startsLike_cons, startsLike_cons, like_backslash, like_backslash]
  cases isSep false a <;> cases isSep false b <;> rfl

theorem startsLike_one (a : Char) : startsLike ['\\', '\\'] [a] = false := by
  rw [startsLike_cons]
  exact Bool.and_false _

namespace Plain

variable {name : Path} (h : Plain name)

include h

theorem parsePrefix_eq : parsePrefix name = none := by
  have htwo : startsLike ['\\', '\\'] name = false := by
    cases name with
    | nil => rfl
    | cons a r =>
      have ha : isSep false a = false := h.no_root
      cases r with
      | nil => exact startsLike_one a
      | cons b r =>
        rw [startsLike_two, ha]
        rfl
  rw [parsePrefix_of_not_two htwo, h.no_drive]
  rfl

theorem rest_eq : rest name = name := by
  unfold rest prefixLen
  rw [h.parsePrefix_eq]
  rfl

theorem hasPhysicalRoot_eq : hasPhysicalRoot name = false := by
  unfold hasPhysicalRoot
  rw [h.rest_eq]
  exact h.no_root

theorem hasRoot_eq : hasRoot name = false := by
  unfold hasRoot
  rw [h.hasPhysicalRoot_eq, h.parsePrefix_eq]
  rfl

theorem isVerbatim_eq : isVerbatim name = false := by
  unfold isVerbatim
  rw [h.parsePrefix_eq]
  rfl

theorem body_eq : body name = name := by
  unfold body
  rw [h.hasPhysicalRoot_eq, h.rest_eq]
  rfl

end Plain

end LibRustdesk.FileTransfer.Windows
