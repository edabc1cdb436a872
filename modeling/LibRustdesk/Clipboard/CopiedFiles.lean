import LibRustdesk.Framework.DepthFirst
import LibRustdesk.Clipboard.Lexical
import LibRustdesk.Clipboard.ServFiles
import LibRustdesk.Ohos.Utf8

/-!
# Listing the copied files

`construct_file_list` (`libs/clipboard/src/platform/unix/local_file.rs`) lists the copied paths and
everything in the directories among them. It follows links, and to "prevent fs loop" it passes over
the paths it has visited. But a path that goes round a loop of links is another path each time: what
ends the recursion is the system, which refuses a path with too many links or bytes, and with that
error the whole call fails.

* `FileSystem`, `resolve` — directories and files, and the way of a path through them.
* `constructFileList` — the recursion, as `DepthFirst.visit` on paths.
* `Lists` — what a list has to be: what is reached, once each, and nothing below itself.
* `Circular` — something is reached below itself.

`lists_iff` says that it **always ends, and lists the files exactly when none of them is below
itself** and nothing else is wrong with them.
-/

namespace LibRustdesk.Clipboard.CopiedFiles

open FileTransfer
open Ohos (asBytes length_le_length_asBytes)

/-! ### Paths and the file system -/

/-- A path is its components, which is what the visited ones are compared by. -/
abbrev PathBuf := Components

def PathBuf.text (p : PathBuf) : Path :=
  (if p.hasRoot then ['/'] else []) ++
    ['/'].intercalate ((if p.curDir then [['.']] else []) ++ p.rest)

/-- `DirEntry::path`. -/
def PathBuf.join (p : PathBuf) (name : Path) : PathBuf := { p with rest := p.rest ++ [name] }

def PathBuf.parent (p : PathBuf) : Option PathBuf :=
  if p.rest ≠ [] then some { p with rest := p.rest.dropLast }
  else if p.curDir then some ⟨p.hasRoot, false, []⟩
  else none

inductive IoError
  | filesystemLoop
  | invalidFilename
  | other (err : String)
  deriving DecidableEq, Repr

def IoError.text : IoError → String
  | filesystemLoop => "Too many levels of symbolic links"
  | invalidFilename => "File name too long"
  | other err => err

/-- What `std::fs::metadata` says. -/
structure Metadata where
  len : UInt64
  isDir : Bool
  modified : Option ℤ
  mode : UInt32
  deriving DecidableEq

structure FileSystem (Obj : Type*) where
  /-- The root, and the working directory. -/
  start : Bool → Obj
  /-- Where a name leads from here, and over how many links. -/
  lookup : Obj → Path → Except IoError (ℕ × Obj)
  metadata : Obj → Metadata
  readDir : Obj → Except IoError (List (Except IoError Path))
  /-- How many links, and how many bytes, a path may have. -/
  maxLinks : ℕ
  maxPath : ℕ

variable {Obj : Type*} (fs : FileSystem Obj)

/-- The way from a directory, over `links` links so far. -/
def FileSystem.follow (links : ℕ) (o : Obj) : List Path → Except IoError (ℕ × Obj)
  | [] => .ok (links, o)
  | name :: names => do
    let (more, o) ← fs.lookup o name
    if fs.maxLinks < links + more then .error .filesystemLoop
    else follow (links + more) o names

def FileSystem.resolve (p : PathBuf) : Except IoError (ℕ × Obj) :=
  if fs.maxPath < (asBytes p.text).length then .error .invalidFilename
  else fs.follow 0 (fs.start p.hasRoot) p.rest

/-! ### The list -/

/-- The fields of a `LocalFile` that are set when it is listed; it is not open yet. -/
structure LocalFile where
  relativeRoot : PathBuf
  path : PathBuf
  name : Path
  size : UInt64
  lastWriteTime : ℤ
  isDir : Bool
  perm : UInt32
  readOnly : Bool
  hidden : Bool
  system : Bool
  archive : Bool
  normal : Bool
  deriving DecidableEq

def fileError (path : PathBuf) (e : IoError) : CliprdrError :=
  .fileError (String.ofList path.text) e.text

def tryOpen (relativeRoot path : PathBuf) : Except CliprdrError LocalFile :=
  match fs.resolve path with
  | .error e => .error (fileError path e)
  | .ok (_, o) =>
    let mt := fs.metadata o
    let readOnly : Bool := mt.mode &&& 0o222 = 0
    let hidden : Bool := path.text.head? = some '.'
    .ok {
      relativeRoot := relativeRoot
      path := path
      name := (path.text.dropWhile (· = '/')).map fun c => if c = '/' then '\\' else c
      size := mt.len
      lastWriteTime := mt.modified.getD 0
      isDir := mt.isDir
      perm := mt.mode
      readOnly := readOnly
      hidden := hidden
      system := false
      archive := false
      normal := !(mt.isDir || readOnly || false || hidden || false) }

def entries (path : PathBuf) : Except CliprdrError (List (Except CliprdrError PathBuf)) :=
  match fs.resolve path with
  | .error e => .error (fileError path e)
  | .ok (_, o) =>
    if (fs.metadata o).isDir then
      match fs.readDir o with
      | .error e => .error (fileError path e)
      | .ok dir => .ok (dir.map fun entry => (entry.mapError (fileError path)).map path.join)
    else .ok []

abbrev Walk := DepthFirst.Walk PathBuf LocalFile

/-- `constr_file_lst`, to a depth of `fuel`. -/
def constrFileLst (relativeRoot : PathBuf) :
    ℕ → PathBuf → Walk → Option (Except CliprdrError Walk) :=
  DepthFirst.visit (tryOpen fs relativeRoot) (entries fs)

def constructFileListTo (fuel : ℕ) (paths : List PathBuf) :
    Option (Except CliprdrError (List LocalFile)) :=
  match paths.head? with
  | none => some (.error (.invalidRequest "empty file list"))
  | some first =>
    match first.parent with
    | none => some (.error (.invalidRequest "empty parent"))
    | some relativeRoot =>
      (DepthFirst.visitAll (constrFileLst fs relativeRoot fuel) (paths.map .ok) ⟨[], []⟩).map
        fun result => result.map DepthFirst.Walk.listed

/-- `construct_file_list`; no path is longer than the system allows. -/
def constructFileList (paths : List PathBuf) : Option (Except CliprdrError (List LocalFile)) :=
  constructFileListTo fs (fs.maxPath + 3) paths

/-! ### What is reached -/

abbrev Below : PathBuf → PathBuf → Prop := DepthFirst.Below (entries fs)

def Reachable (paths : List PathBuf) (p : PathBuf) : Prop := ∃ copied ∈ paths, Below fs copied p

/-- A path that leads somewhere, and to its end if that is a directory. -/
def Opens (p : PathBuf) : Prop :=
  ∃ links o, fs.resolve p = .ok (links, o) ∧ ((fs.metadata o).isDir = true →
    ∃ dir, fs.readDir o = .ok dir ∧ ∀ entry ∈ dir, ∃ name, entry = .ok name)

def object (p : PathBuf) : Option Obj := (fs.resolve p).toOption.map Prod.snd

def Circular (paths : List PathBuf) : Prop :=
  ∃ q r o, Reachable fs paths q ∧ Below fs q r ∧ q ≠ r ∧
    object fs q = some o ∧ object fs r = some o

structure Lists (paths : List PathBuf) (files : List LocalFile) : Prop where
  complete : ∀ p, Reachable fs paths p → ∃ f ∈ files, f.path = p
  reachable : ∀ f ∈ files, Reachable fs paths f.path
  once : (files.map LocalFile.path).Nodup
  /-- No loop is gone round. -/
  apart : ∀ f ∈ files, ∀ g ∈ files, Below fs f.path g.path → f.path ≠ g.path →
    object fs f.path ≠ object fs g.path

variable {fs}

theorem path_of_tryOpen {relativeRoot p : PathBuf} {f : LocalFile}
    (h : tryOpen fs relativeRoot p = .ok f) : f.path = p := by
  unfold tryOpen at h
  split at h
  · cases h
  · obtain rfl := Except.ok.inj h
    rfl

variable {p : PathBuf} {o : Obj}

theorem object_of_resolve {links : ℕ} (h : fs.resolve p = .ok (links, o)) :
    object fs p = some o := by
  unfold object
  rw [h]
  rfl

theorem exists_resolve_of_object (h : object fs p = some o) :
    ∃ links, fs.resolve p = .ok (links, o) := by
  unfold object at h
  cases hres : fs.resolve p with
  | error e =>
    rw [hres] at h
    cases h
  | ok at_ =>
    rw [hres] at h
    obtain rfl := Option.some.inj h
    exact ⟨at_.1, rfl⟩

theorem entries_of_resolve {links : ℕ}
    (h : fs.resolve p = .ok (links, o)) : entries fs p =
      if (fs.metadata o).isDir then
        match fs.readDir o with
        | .error e => .error (fileError p e)
        | .ok dir => .ok (dir.map fun entry => (entry.mapError (fileError p)).map p.join)
      else .ok [] := by
  unfold entries
  rw [h]

theorem ok_mem_map_iff {p c : PathBuf} {dir : List (Except IoError Path)} :
    Except.ok c ∈ dir.map (fun entry => (entry.mapError (fileError p)).map p.join) ↔
      ∃ name, Except.ok name ∈ dir ∧ c = p.join name := by
  rw [List.mem_map]
  constructor
  · rintro ⟨entry, hmem, heq⟩
    cases entry with
    | error e => cases heq
    | ok name => exact ⟨name, hmem, (Except.ok.inj heq).symm⟩
  · rintro ⟨name, hmem, rfl⟩
    exact ⟨.ok name, hmem, rfl⟩

theorem child_iff {p c : PathBuf} : DepthFirst.Child (entries fs) p c ↔
    ∃ o dir name, object fs p = some o ∧ (fs.metadata o).isDir = true ∧ fs.readDir o = .ok dir ∧
      .ok name ∈ dir ∧ c = p.join name := by
  unfold DepthFirst.Child
  cases hres : fs.resolve p with
  | error e =>
    have hentries : entries fs p = .error (fileError p e) := by
      unfold entries
      rw [hres]
    have hobject : object fs p = none := by
      unfold object
      rw [hres]
      rfl
    rw [hentries, hobject]
    constructor
    · rintro ⟨cs, hcs, -⟩
      cases hcs
    · rintro ⟨o, dir, name, ho, -⟩
      cases ho
  | ok found =>
    obtain ⟨links, o⟩ := found
    rw [entries_of_resolve hres, object_of_resolve hres]
    constructor
    · rintro ⟨cs, hcs, hc⟩
      split at hcs
      · next hdir =>
        cases hread : fs.readDir o with
        | error e =>
          rw [hread] at hcs
          cases hcs
        | ok dir =>
          rw [hread] at hcs
          obtain rfl := Except.ok.inj hcs
          obtain ⟨name, hname, hjoin⟩ := ok_mem_map_iff.mp hc
          exact ⟨o, dir, name, rfl, hdir, hread, hname, hjoin⟩
      · obtain rfl := Except.ok.inj hcs
        cases hc
    · rintro ⟨o', dir, name, ho, hdir, hread, hname, hjoin⟩
      obtain rfl := Option.some.inj ho
      rw [if_pos hdir, hread]
      exact ⟨_, rfl, ok_mem_map_iff.mpr ⟨name, hname, hjoin⟩⟩

theorem opens_iff (relativeRoot p : PathBuf) :
    DepthFirst.Opens (tryOpen fs relativeRoot) (entries fs) p ↔ Opens fs p := by
  unfold DepthFirst.Opens Opens
  cases hres : fs.resolve p with
  | error e =>
    constructor
    · rintro ⟨⟨f, hf⟩, -⟩
      unfold tryOpen at hf
      rw [hres] at hf
      cases hf
    · rintro ⟨links, o, ho, -⟩
      cases ho
  | ok found =>
    obtain ⟨links, o⟩ := found
    have hopen : ∃ f, tryOpen fs relativeRoot p = .ok f := by
      unfold tryOpen
      rw [hres]
      exact ⟨_, rfl⟩
    rw [entries_of_resolve hres]
    constructor
    · rintro ⟨-, cs, hcs, hall⟩
      refine ⟨links, o, rfl, fun hdir => ?_⟩
      rw [if_pos hdir] at hcs
      cases hread : fs.readDir o with
      | error e =>
        rw [hread] at hcs
        cases hcs
      | ok dir =>
        rw [hread] at hcs
        obtain rfl := Except.ok.inj hcs
        refine ⟨dir, rfl, fun entry hentry => ?_⟩
        cases entry with
        | ok name => exact ⟨name, rfl⟩
        | error e =>
          obtain ⟨c, hc⟩ := hall _ (List.mem_map_of_mem hentry)
          cases hc
    · rintro ⟨links', o', heq, hdir⟩
      obtain ⟨rfl, rfl⟩ := Prod.mk.inj (Except.ok.inj heq)
      refine ⟨hopen, ?_⟩
      split
      · next his =>
        obtain ⟨dir, hread, hall⟩ := hdir his
        rw [hread]
        refine ⟨_, rfl, fun c hc => ?_⟩
        obtain ⟨entry, hentry, rfl⟩ := List.mem_map.mp hc
        obtain ⟨name, rfl⟩ := hall entry hentry
        exact ⟨p.join name, rfl⟩
      · exact ⟨[], rfl, fun c hc => absurd hc List.not_mem_nil⟩

/-! ### The length of a path -/

theorem length_intercalate (ps : List Path) : ps.length ≤ (['/'].intercalate ps).length + 1 := by
  induction ps with
  | nil => exact Nat.zero_le _
  | cons p ps ih =>
    cases ps with
    | nil => exact Nat.le_add_left 1 _
    | cons p' ps =>
      rw [List.intercalate_cons_cons, List.length_append, List.length_append]
      simp only [List.length_cons, List.length_nil] at ih ⊢
      omega

theorem length_rest_le (p : PathBuf) : p.rest.length ≤ (asBytes p.text).length + 1 := by
  have hbytes := length_le_length_asBytes p.text
  have htext : (['/'].intercalate ((if p.curDir then [['.']] else []) ++ p.rest)).length ≤
      p.text.length := by
    unfold PathBuf.text
    rw [List.length_append]
    exact Nat.le_add_left _ _
  have hpieces := length_intercalate ((if p.curDir then [['.']] else []) ++ p.rest)
  rw [List.length_append] at hpieces
  omega

theorem length_of_resolve {links : ℕ}
    (h : fs.resolve p = .ok (links, o)) : p.rest.length ≤ fs.maxPath + 1 := by
  have hrest := length_rest_le p
  unfold FileSystem.resolve at h
  split at h
  · cases h
  · omega

theorem length_below {q r : PathBuf} (h : Below fs q r) :
    r = q ∨ q.rest.length < r.rest.length := by
  induction h with
  | refl => exact Or.inl rfl
  | child _ hchild ih =>
    obtain ⟨o, dir, name, -, -, -, -, rfl⟩ := child_iff.mp hchild
    refine Or.inr ?_
    show _ < (_ ++ [name]).length
    rw [List.length_append]
    rcases ih with rfl | hlt
    · exact Nat.lt_add_one _
    · exact Nat.lt_add_right 1 hlt

/-! ### Loops -/

theorem follow_append (links : ℕ) (o : Obj) (names names' : List Path) :
    fs.follow links o (names ++ names') =
      fs.follow links o names >>= fun found => fs.follow found.1 found.2 names' := by
  induction names generalizing links o with
  | nil => rfl
  | cons name names ih =>
    rw [List.cons_append, FileSystem.follow, FileSystem.follow]
    cases fs.lookup o name with
    | error e => rfl
    | ok found =>
      show (if _ then _ else _) = (if _ then _ else _) >>= _
      split
      · rfl
      · exact ih _ _

theorem object_join {o o' : Obj} {name : Path} (hp : object fs p = some o)
    (hjoin : object fs (p.join name) = some o') : ∃ links, fs.lookup o name = .ok (links, o') := by
  obtain ⟨links, hres⟩ := exists_resolve_of_object hp
  obtain ⟨links', hres'⟩ := exists_resolve_of_object hjoin
  unfold FileSystem.resolve at hres hres'
  split at hres
  · cases hres
  · split at hres'
    · cases hres'
    · have hfollow : fs.follow 0 (fs.start p.hasRoot) (p.rest ++ [name]) = .ok (links', o') := hres'
      rw [follow_append, hres] at hfollow
      change fs.follow links o [name] = .ok (links', o') at hfollow
      rw [FileSystem.follow] at hfollow
      cases hlookup : fs.lookup o name with
      | error e =>
        rw [hlookup] at hfollow
        cases hfollow
      | ok found =>
        rw [hlookup] at hfollow
        change (if _ then _ else _) = _ at hfollow
        split at hfollow
        · cases hfollow
        · obtain ⟨-, rfl⟩ := Prod.mk.inj (Except.ok.inj hfollow)
          exact ⟨found.1, rfl⟩

theorem exists_below {q r p : PathBuf} (hqr : Below fs q r)
    (hq : object fs q = some o) (hp : object fs p = some o)
    (hopensq : ∀ x, Below fs q x → Opens fs x) (hopensp : ∀ x, Below fs p x → Opens fs x) :
    ∃ s, Below fs p s ∧ object fs s = object fs r ∧
      s.rest.length + q.rest.length = r.rest.length + p.rest.length := by
  induction hqr with
  | refl => exact ⟨p, DepthFirst.Below.refl, hp.trans hq.symm, Nat.add_comm _ _⟩
  | @child b c hqb hchild ih =>
    obtain ⟨s, hps, hobj, hlen⟩ := ih
    obtain ⟨ob, dir, name, hb, hdir, hread, hname, rfl⟩ := child_iff.mp hchild
    have hchild' : DepthFirst.Child (entries fs) s (s.join name) :=
      child_iff.mpr ⟨ob, dir, name, hobj.trans hb, hdir, hread, hname, rfl⟩
    refine ⟨s.join name, DepthFirst.Below.child hps hchild', ?_, ?_⟩
    · -- both are where the name leads from the same directory
      obtain ⟨links, oc, hc, -⟩ := hopensq _ (DepthFirst.Below.child hqb hchild)
      obtain ⟨links', os, hs, -⟩ := hopensp _ (DepthFirst.Below.child hps hchild')
      obtain ⟨k, hk⟩ := object_join hb (object_of_resolve hc)
      obtain ⟨k', hk'⟩ := object_join (hobj.trans hb) (object_of_resolve hs)
      have hsame := (Prod.mk.inj (Except.ok.inj (hk.symm.trans hk'))).2
      rw [object_of_resolve hs, object_of_resolve hc, hsame]
    · show (s.rest ++ [name]).length + _ = (b.rest ++ [name]).length + _
      rw [List.length_append, List.length_append]
      omega

variable {paths : List PathBuf}

theorem exists_not_opens (h : Circular fs paths) : ∃ p, Reachable fs paths p ∧ ¬ Opens fs p := by
  by_contra hno
  push Not at hno
  obtain ⟨q, r, o, ⟨copied, hcopied, hq⟩, hqr, hne, hoq, hor⟩ := h
  have hbelow {p x : PathBuf} (hp : Below fs copied p) (hx : Below fs p x) : Opens fs x :=
    hno x ⟨copied, hcopied, hp.trans _ hx⟩
  have hlonger : q.rest.length < r.rest.length := (length_below hqr).resolve_left (Ne.symm hne)
  have hlong (n : ℕ) : ∃ p, Below fs copied p ∧ object fs p = some o ∧ n ≤ p.rest.length := by
    induction n with
    | zero => exact ⟨q, hq, hoq, Nat.zero_le _⟩
    | succ n ih =>
      obtain ⟨p, hp, hop, hn⟩ := ih
      obtain ⟨s, hps, hos, hlen⟩ :=
        exists_below hqr hoq hop (fun x => hbelow hq) (fun x => hbelow hp)
      exact ⟨s, hp.trans _ hps, hos.trans hor, by omega⟩
  obtain ⟨p, hp, hop, hn⟩ := hlong (fs.maxPath + 2)
  obtain ⟨links, hres⟩ := exists_resolve_of_object hop
  have hle := length_of_resolve hres
  omega

/-! ### The list of the copied files -/

/-- The first of the paths is in a directory, which the names are relative to. -/
def HasRoot (paths : List PathBuf) : Prop :=
  ∃ first, paths.head? = some first ∧ ∃ relativeRoot, first.parent = some relativeRoot

theorem constructFileListTo_eq {fuel : ℕ} {first relativeRoot : PathBuf}
    (hfirst : paths.head? = some first) (hparent : first.parent = some relativeRoot) :
    constructFileListTo fs fuel paths =
      (DepthFirst.visitAll (constrFileLst fs relativeRoot fuel) (paths.map .ok) ⟨[], []⟩).map
        fun result => result.map DepthFirst.Walk.listed := by
  unfold constructFileListTo
  rw [hfirst]
  dsimp only
  rw [hparent]

theorem ok_mem_map_ok :
    (Except.ok p : Except CliprdrError PathBuf) ∈ paths.map .ok ↔ p ∈ paths := by
  rw [List.mem_map]
  exact ⟨fun ⟨q, hq, heq⟩ => Except.ok.inj heq ▸ hq, fun hp => ⟨p, hp, rfl⟩⟩

theorem constructFileListTo_ends (fs : FileSystem Obj) (paths : List PathBuf) :
    ∃ result, ∀ fuel, fs.maxPath + 3 ≤ fuel →
      constructFileListTo fs fuel paths = some result := by
  by_cases hroot : HasRoot paths
  · obtain ⟨first, hfirst, relativeRoot, hparent⟩ := hroot
    have hbound : ∀ p f, tryOpen fs relativeRoot p = .ok f → p.rest.length ≤ fs.maxPath + 1 := by
      intro p f hf
      unfold tryOpen at hf
      split at hf
      · cases hf
      · next hres => exact length_of_resolve hres
    have hrank : ∀ p c, DepthFirst.Child (entries fs) p c → c.rest.length = p.rest.length + 1 := by
      intro p c hchild
      obtain ⟨o, dir, name, -, -, -, -, rfl⟩ := child_iff.mp hchild
      exact List.length_append
    have hsome : (DepthFirst.visitAll (constrFileLst fs relativeRoot (fs.maxPath + 3))
        (paths.map .ok) ⟨[], []⟩).isSome :=
      DepthFirst.visitAll_isSome
        (fun p w _ => DepthFirst.visit_isSome hbound hrank (by omega) (by omega) w) _
    obtain ⟨result, hresult⟩ := Option.isSome_iff_exists.mp hsome
    refine ⟨result.map DepthFirst.Walk.listed, fun fuel hfuel => ?_⟩
    have hmore : DepthFirst.visitAll (constrFileLst fs relativeRoot fuel) (paths.map .ok) ⟨[], []⟩ =
        some result := DepthFirst.visitAll_mono (fun p w r => DepthFirst.visit_mono hfuel) hresult
    rw [constructFileListTo_eq hfirst hparent, hmore]
    rfl
  · -- without a first path in a directory nothing is visited
    unfold constructFileListTo
    cases hfirst : paths.head? with
    | none => exact ⟨_, fun _ _ => rfl⟩
    | some first =>
      dsimp only
      cases hparent : first.parent with
      | none => exact ⟨_, fun _ _ => rfl⟩
      | some relativeRoot => exact absurd ⟨first, hfirst, relativeRoot, hparent⟩ hroot

theorem constructFileList_isSome (fs : FileSystem Obj) (paths : List PathBuf) :
    ∃ result, constructFileList fs paths = some result := by
  obtain ⟨result, hresult⟩ := constructFileListTo_ends fs paths
  exact ⟨result, hresult _ le_rfl⟩

theorem map_path_eq {relativeRoot : PathBuf} {visited : List PathBuf} {files : List LocalFile}
    (h : List.Forall₂ (fun p f => tryOpen fs relativeRoot p = .ok f) visited files) :
    files.map LocalFile.path = visited := by
  induction h with
  | nil => rfl
  | cons hopen _ ih => rw [List.map_cons, path_of_tryOpen hopen, ih]

theorem of_constructFileList {files : List LocalFile}
    (h : constructFileList fs paths = some (.ok files)) :
    HasRoot paths ∧ (∀ p, Reachable fs paths p ↔ p ∈ files.map LocalFile.path) ∧
      (files.map LocalFile.path).Nodup ∧ ∀ p, Reachable fs paths p → Opens fs p := by
  unfold constructFileList constructFileListTo at h
  cases hfirst : paths.head? with
  | none =>
    rw [hfirst] at h
    cases h
  | some first =>
    rw [hfirst] at h
    dsimp only at h
    cases hparent : first.parent with
    | none =>
      rw [hparent] at h
      cases h
    | some relativeRoot =>
      rw [hparent] at h
      obtain ⟨result, hwalk, hresult⟩ := Option.map_eq_some_iff.mp h
      cases result with
      | error e => cases hresult
      | ok w =>
        obtain rfl := Except.ok.inj hresult
        obtain ⟨hreached, hnodup, hopened, hopens⟩ := DepthFirst.listing hwalk
        have hreachable (p : PathBuf) : Reachable fs paths p ↔ p ∈ w.visited := by
          rw [hreached]
          unfold Reachable
          simp only [ok_mem_map_ok]
        rw [map_path_eq hopened]
        exact ⟨⟨first, hfirst, relativeRoot, hparent⟩, hreachable, hnodup,
          fun p hp => (opens_iff relativeRoot p).mp (hopens p ((hreachable p).mp hp))⟩

theorem exists_constructFileList (hroot : HasRoot paths)
    (hopens : ∀ p, Reachable fs paths p → Opens fs p) : ∃ files, constructFileList fs paths = some
    (.ok files) := by
  obtain ⟨first, hfirst, relativeRoot, hparent⟩ := hroot
  obtain ⟨result, hresult⟩ := constructFileList_isSome fs paths
  cases result with
  | ok files => exact ⟨files, hresult⟩
  | error e =>
    -- an error would be one of something that is reached
    unfold constructFileList at hresult
    rw [constructFileListTo_eq hfirst hparent] at hresult
    obtain ⟨result, hwalk, herror⟩ := Option.map_eq_some_iff.mp hresult
    cases result with
    | ok w => cases herror
    | error e' =>
      have hgo : ∀ p w e, .ok p ∈ paths.map (Except.ok (ε := CliprdrError)) →
          constrFileLst fs relativeRoot (fs.maxPath + 3) p w = some (.error e) →
          ∃ d, Below fs p d ∧
            ¬ DepthFirst.Opens (tryOpen fs relativeRoot) (entries fs) d :=
        fun p w e _ => DepthFirst.visit_error
      rcases DepthFirst.visitAll_error hgo hwalk with ⟨e, he⟩ | ⟨p, hp, d, hbelow, hd⟩
      · obtain ⟨q, -, hq⟩ := List.mem_map.mp he
        cases hq
      · exact absurd ((opens_iff relativeRoot d).mpr
          (hopens d ⟨p, ok_mem_map_ok.mp hp, hbelow⟩)) hd

/-- **When the files are listed.** The call always ends. It lists the files, once each, exactly when
the first is in a directory, nothing is reached below itself, and all that is reached opens. Where
something is below itself it fails. -/
theorem lists_iff (fs : FileSystem Obj) (paths : List PathBuf) :
    (∃ result, constructFileList fs paths = some result) ∧
    ((∃ files, constructFileList fs paths = some (.ok files) ∧ Lists fs paths files) ↔
      HasRoot paths ∧ ¬ Circular fs paths ∧ ∀ p, Reachable fs paths p → Opens fs p) ∧
    (Circular fs paths → ∃ e, constructFileList fs paths = some (.error e)) := by
  refine ⟨constructFileList_isSome fs paths, ⟨?_, ?_⟩, ?_⟩
  · rintro ⟨files, hfiles, -⟩
    obtain ⟨hroot, -, -, hopens⟩ := of_constructFileList hfiles
    refine ⟨hroot, fun hcircular => ?_, hopens⟩
    obtain ⟨p, hp, hstuck⟩ := exists_not_opens hcircular
    exact hstuck (hopens p hp)
  · rintro ⟨hroot, hacyclic, hopens⟩
    obtain ⟨files, hfiles⟩ := exists_constructFileList hroot hopens
    obtain ⟨-, hreached, hnodup, -⟩ := of_constructFileList hfiles
    refine ⟨files, hfiles, ?_⟩
    constructor
    · intro p hp
      obtain ⟨f, hf, hpath⟩ := List.mem_map.mp ((hreached p).mp hp)
      exact ⟨f, hf, hpath⟩
    · exact fun f hf => (hreached _).mpr (List.mem_map_of_mem hf)
    · exact hnodup
    · intro f hf g _ hbelow hne hsame
      have hf' := (hreached _).mpr (List.mem_map_of_mem hf)
      obtain ⟨links, o, ho, -⟩ := hopens _ hf'
      have hobj := object_of_resolve ho
      exact hacyclic ⟨f.path, g.path, o, hf', hbelow, hne, hobj, hsame ▸ hobj⟩
  · intro hcircular
    obtain ⟨p, hp, hstuck⟩ := exists_not_opens hcircular
    obtain ⟨result, hresult⟩ := constructFileList_isSome fs paths
    cases result with
    | error e => exact ⟨e, hresult⟩
    | ok files => exact absurd ((of_constructFileList hresult).2.2.2 p hp) hstuck

/-- A directory `d` in which there is a file, and a link to the directory. -/
inductive Looped
  | root
  | d
  | file
  deriving DecidableEq

def looped (withLink : Bool) : FileSystem Looped where
  start _ := .root
  lookup o name :=
    match o, name with
    | .root, ['d'] => .ok (0, .d)
    | .d, ['f'] => .ok (0, .file)
    | .d, ['l'] => if withLink then .ok (1, .d) else .error (.other "No such file or directory")
    | _, _ => .error (.other "No such file or directory")
  metadata o := ⟨0, o ≠ .file, none, 0o755⟩
  readDir o :=
    match o with
    | .root => .ok [.ok ['d']]
    | .d => .ok (if withLink then [.ok ['f'], .ok ['l']] else [.ok ['f']])
    | .file => .error (.other "Not a directory")
  maxLinks := 40
  maxPath := 4095

/-- With the link nothing is listed: the path that goes round 41 times is refused. -/
theorem looped_fails :
    constructFileList (looped true) [⟨true, false, [['d']]⟩] =
      some (.error (.fileError
        (String.ofList ("/d".toList ++ (List.replicate 41 "/l".toList).flatten))
        "Too many levels of symbolic links")) ∧
    ¬ ∃ files, constructFileList (looped true) [⟨true, false, [['d']]⟩] = some (.ok files) ∧
      Lists (looped true) [⟨true, false, [['d']]⟩] files := by
  have herror : constructFileList (looped true) [⟨true, false, [['d']]⟩] =
      some (.error (.fileError
        (String.ofList ("/d".toList ++ (List.replicate 41 "/l".toList).flatten))
        "Too many levels of symbolic links")) := by decide +kernel
  refine ⟨herror, ?_⟩
  rintro ⟨files, hfiles, -⟩
  rw [herror] at hfiles
  cases hfiles

example : ((constructFileList (looped false) [⟨true, false, [['d']]⟩]).map fun result =>
    result.toOption.map (·.map LocalFile.path)) =
      some (some [⟨true, false, [['d']]⟩, ⟨true, false, [['d'], ['f']]⟩]) := by decide +kernel

end LibRustdesk.Clipboard.CopiedFiles
