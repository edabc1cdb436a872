import LibRustdesk.Framework.ChildLists
import LibRustdesk.Framework.Table
import LibRustdesk.Clipboard.Descriptor
import LibRustdesk.Clipboard.Lexical
import LibRustdesk.Clipboard.Requests

/-!
# The tree of the peer's files

`FuseNode::build_tree` (`fuse/cs.rs`) makes a file tree of the peer's list. Behind the root, the
nodes are in the order of the list: the file at position `k` has inode `k + 2`. The parent of a file
is looked up by its path among the directories listed before it, and is the root if there is none.

* `Building` — the nodes so far, and the map.
* `buildTree`, `loadFileList` — the tree, and the server it is put into.
* `lookup`, `readdir` — what the kernel asks for; `none` where a child's inode is no index of the
  list, which ends the thread.
* `Inv` — the tree and the map after some of the files.

`buildTree_wellFormed` is **what a tree that is built is like**, whatever the list, and the names on
the way to a node where the list has every directory before what is in it.
-/

namespace LibRustdesk.Clipboard.Tree

open FileTransfer ChildLists
open Descriptor (FileDescription FileType PERM_RWX)
open Ohos (asBytes)

/-! ### The nodes -/

def FUSE_ROOT_ID : ℕ := 1

def MAX_NAME_LEN : ℕ := 255

structure InodeAttributes where
  inode : ℕ
  size : UInt64
  lastAccessed : ℤ
  lastModified : ℤ
  lastMetadataChanged : ℤ
  creationTime : ℤ
  kind : FileType
  perm : UInt16
  deriving DecidableEq

structure Node extends FuseNode where
  name : List Char
  parent : Option ℕ
  attributes : InodeAttributes
  children : List ℕ
  fileHandlers : List UInt64

/-- Random numbers by inode, and what the clock says when it is read for the `n`-th time. -/
structure Chance where
  random : ℕ → Int32
  now : ℕ → ℤ

section Build

variable (env : Chance)

def InodeAttributes.fromDescription (inode : ℕ) (desc : FileDescription) : InodeAttributes where
  inode := inode
  size := desc.size
  lastModified := desc.lastModified
  lastMetadataChanged := desc.lastMetadataChanged
  creationTime := desc.creationTime
  lastAccessed := env.now (inode + 2)
  kind := desc.kind
  perm := desc.perm

def InodeAttributes.newRoot : InodeAttributes where
  inode := FUSE_ROOT_ID
  size := 0
  lastAccessed := env.now 0
  lastModified := env.now 1
  lastMetadataChanged := env.now 2
  creationTime := env.now 3
  kind := .directory
  perm := PERM_RWX

def Node.fromDescription (inode : ℕ) (desc : FileDescription) : Node where
  connId := desc.connId
  streamId := env.random inode
  index := inode - 2
  name := desc.name
  parent := none
  attributes := .fromDescription env inode desc
  children := []
  fileHandlers := []

def Node.newRoot : Node where
  connId := 0
  streamId := env.random FUSE_ROOT_ID
  index := 0
  name := ['/']
  parent := none
  attributes := .newRoot env
  children := []
  fileHandlers := []

def Node.addChild (node : Node) (inode : ℕ) : Node :=
  { node with children := node.children ++ [inode] }

/-! ### Building -/

/-- The nodes so far, and the inodes of the directories by their paths. -/
structure Building where
  treeList : List Node
  subRootMap : Table Components ℕ

def Building.init : Building where
  treeList := [Node.newRoot env]
  subRootMap := (Table.empty.insert (components ['/']) FUSE_ROOT_ID).insert (components [])
    FUSE_ROOT_ID

def Building.parentInode (b : Building) (name : Path) : ℕ :=
  match parent name with
  | some up => (b.subRootMap (components up)).getD FUSE_ROOT_ID
  | none => FUSE_ROOT_ID

def invalidFileName (name : Path) : CliprdrError :=
  .fileError (String.ofList name) ("invalid file name " ++ String.ofList name)

/-- One pass through the loop of `build_tree`. -/
def Building.add (b : Building) (file : FileDescription) : Except CliprdrError Building :=
  let inode := b.treeList.length + FUSE_ROOT_ID
  let parentInode := b.parentInode file.name
  let treeList := b.treeList.modify (parentInode - 1) (·.addChild inode)
  match fileName? file.name with
  | none => .error (invalidFileName file.name)
  | some baseName =>
    let subRootMap :=
      if file.kind = .directory then b.subRootMap.insert (components file.name) inode
      else b.subRootMap
    let node := Node.fromDescription env inode { file with name := baseName }
    .ok ⟨treeList ++ [{ node with parent := some parentInode }], subRootMap⟩

def buildTree (files : List FileDescription) : Except CliprdrError (List Node) :=
  (files.foldlM (Building.add env) (Building.init env)).map Building.treeList

/-! ### The server -/

structure FuseServer where
  files : List Node
  generation : UInt64

def FuseServer.loadFileList (server : FuseServer) (files : List FileDescription) :
    FuseServer × Except CliprdrError Unit :=
  match buildTree env files with
  | .error e => (server, .error e)
  | .ok tree => ({ server with files := tree, generation := server.generation + 1 }, .ok ())

end Build

inductive Errno
  | noent
  | notdir
  | badf
  | nametoolong
  deriving DecidableEq, Repr

/-- `entries.get(inode as usize - 1)`. The subtraction wraps for 0. -/
def nodeAt (entries : List Node) (inode : ℕ) : Option Node :=
  if inode = 0 then none else entries[inode - 1]?

def findChild (entries : List Node) (name : Bytes) : List ℕ → Option (Option Node)
  | [] => some none
  | inode :: inodes => do
    let child ← nodeAt entries inode
    if asBytes child.name = name then return some child else findChild entries name inodes

def FuseServer.lookup (server : FuseServer) (parent : ℕ) (name : Bytes) :
    Option (Except Errno (InodeAttributes × UInt64)) :=
  if MAX_NAME_LEN < name.length then some (.error .nametoolong)
  else
    match nodeAt server.files parent with
    | none => some (.error .noent)
    | some parentEntry =>
      if parentEntry.attributes.kind ≠ .directory then some (.error .notdir)
      else (findChild server.files name parentEntry.children).map fun child =>
        match child with
        | none => .error .noent
        | some child => .ok (child.attributes, server.generation)

/-- The entries from `offset` on that the reply has room for, each with the offset after it. -/
def FuseServer.readdir (server : FuseServer) (ino : ℕ) (fh : UInt64) (offset room : ℕ) :
    Option (Except Errno (List (ℕ × ℕ × FileType × List Char))) :=
  match nodeAt server.files ino with
  | none => some (.error .noent)
  | some entry =>
    if fh ∉ entry.fileHandlers then some (.error .badf)
    else if entry.attributes.kind ≠ .directory then some (.error .notdir)
    else do
      let children ← entry.children.mapM fun inode =>
        (nodeAt server.files inode).map fun child => (inode, child.attributes.kind, child.name)
      let parent := entry.parent.toList.map fun inode => (inode, FileType.directory, ['.', '.'])
      let entries := (ino, FileType.directory, ['.']) :: parent ++ children
      return .ok (((entries.zipIdx.drop offset).take room).map fun ((inode, kind, name), i) =>
        (inode, i + 1, kind, name))

/-! ### What is built -/

/-- The last directory of this path among the files, by its inode. Where there is none, the map has
no entry, or that of the root. -/
def Finds (files : List FileDescription) (c : Components) (found : Option ℕ) : Prop :=
  (∃ (j : ℕ) (d : FileDescription), files[j]? = some d ∧ d.kind = .directory ∧
      components d.name = c ∧ found = some (j + 2)) ∨
    ((found = none ∨ found = some FUSE_ROOT_ID) ∧
      ∀ d ∈ files, d.kind = .directory → components d.name ≠ c)

/-- `p` is where the file at position `k` goes: a directory before it that has the path of its
parent, or the root, if no directory before it has that path. -/
def GoesInto (files : List FileDescription) (k : ℕ) (name : Path) (p : ℕ) : Prop :=
  (∃ j < k, ∃ d up, files[j]? = some d ∧ d.kind = .directory ∧ parent name = some up ∧
      components d.name = components up ∧ p = j + 2) ∨
    (p = FUSE_ROOT_ID ∧ ∀ j < k, ∀ d up, files[j]? = some d → d.kind = .directory →
      parent name = some up → components d.name ≠ components up)

/-- The node of the file at position `k`. -/
structure IsEntry (files : List FileDescription) (k : ℕ) (file : FileDescription) (node : Node) :
    Prop where
  inode : node.attributes.inode = k + 2
  index : node.index = k
  connId : node.connId = file.connId
  kind : node.attributes.kind = file.kind
  name : fileName? file.name = some node.name
  parent : ∃ p, node.parent = some p ∧ GoesInto files k file.name p

structure WellFormed (files : List FileDescription) (tree : List Node) : Prop where
  length : tree.length = files.length + 1
  root : ∃ root, tree[0]? = some root ∧ root.attributes.inode = FUSE_ROOT_ID ∧
    root.attributes.kind = .directory ∧ root.parent = none
  entry : ∀ (k : ℕ) file, files[k]? = some file →
    ∃ node, tree[k + 1]? = some node ∧ IsEntry files k file node
  linked : Linked Node.parent Node.children tree

structure Inv (files : List FileDescription) (b : Building) : Prop where
  tree : WellFormed files b.treeList
  map : ∀ c, Finds files c (b.subRootMap c)

theorem inv_init (env : Chance) : Inv [] (Building.init env) where
  tree := {
    length := rfl
    root := ⟨Node.newRoot env, rfl, rfl, rfl, rfl⟩
    entry := nofun
    linked := Linked.singleton rfl rfl }
  map := by
    intro c
    refine Or.inr ⟨?_, nofun⟩
    unfold Building.init
    dsimp only
    rw [Table.insert_apply, Table.insert_apply]
    split
    · exact Or.inr rfl
    · split
      · exact Or.inr rfl
      · exact Or.inl rfl

variable {files : List FileDescription}

theorem GoesInto.append {k : ℕ} {name : Path} {p : ℕ} (hk : k ≤ files.length)
    (h : GoesInto files k name p) (file : FileDescription) :
    GoesInto (files ++ [file]) k name p := by
  have hsame (j : ℕ) (hj : j < k) : (files ++ [file])[j]? = files[j]? :=
    List.getElem?_append_left (Nat.lt_of_lt_of_le hj hk)
  refine h.imp ?_ ?_
  · rintro ⟨j, hj, d, up, hd, hrest⟩
    exact ⟨j, hj, d, up, (hsame j hj).trans hd, hrest⟩
  · rintro ⟨hp, hnone⟩
    refine ⟨hp, fun j hj d up hd => hnone j hj d up ?_⟩
    rw [← hsame j hj]
    exact hd

theorem goesInto_parentInode {b : Building} (h : Inv files b)
    (name : Path) : GoesInto files files.length name (b.parentInode name) := by
  unfold Building.parentInode
  cases hup : parent name with
  | none =>
    refine Or.inr ⟨rfl, fun j _ d up _ _ hsome => ?_⟩
    rw [hup] at hsome
    cases hsome
  | some up =>
    dsimp only
    rcases h.map (components up) with ⟨j, d, hd, hdir, hcomp, hfound⟩ | ⟨hfound, hnone⟩
    · rw [hfound]
      exact Or.inl ⟨j, (List.getElem?_eq_some_iff.mp hd).1, d, up, hd, hdir, hup, hcomp, rfl⟩
    · refine Or.inr ⟨?_, fun j _ d up' hd hdir hup' => ?_⟩
      · rcases hfound with hfound | hfound
        · rw [hfound]
          rfl
        · rw [hfound]
          rfl
      · obtain rfl := Option.some.inj (hup.symm.trans hup')
        exact hnone d (List.mem_of_getElem? hd) hdir

variable {tree : List Node}

theorem WellFormed.parent_directory
    (h : WellFormed files tree) {k p : ℕ} {name : Path} (hp : GoesInto files k name p) :
    1 ≤ p ∧ (k ≤ files.length → p ≤ k + 1) ∧
      ∃ node, tree[p - 1]? = some node ∧ node.attributes.kind = .directory := by
  rcases hp with ⟨j, hj, d, up, hd, hdir, -, -, rfl⟩ | ⟨rfl, -⟩
  · obtain ⟨node, hnode, hentry⟩ := h.entry j d hd
    exact ⟨by omega, fun _ => by omega, node, hnode, hentry.kind.trans hdir⟩
  · obtain ⟨root, hroot, -, hkind, -⟩ := h.root
    exact ⟨le_rfl, fun _ => Nat.le_add_left 1 k, root, hroot, hkind⟩

variable {file : FileDescription}

theorem Finds.append {c : Components} {found : Option ℕ} (h : Finds files c found)
    (hne : file.kind = .directory → components file.name ≠ c) :
    Finds (files ++ [file]) c found := by
  refine h.imp ?_ ?_
  · rintro ⟨j, d, hd, hrest⟩
    exact ⟨j, d, getElem?_of_prefix (List.prefix_append _ _) hd, hrest⟩
  · rintro ⟨hfound, hnone⟩
    refine ⟨hfound, fun d hd => ?_⟩
    rcases List.mem_append.mp hd with hd | hd
    · exact hnone d hd
    · obtain rfl := List.mem_singleton.mp hd
      exact hne

theorem inv_add {env : Chance} {b b' : Building} (h : Inv files b)
    (hadd : b.add env file = .ok b') : Inv (files ++ [file]) b' := by
  unfold Building.add at hadd
  cases hname : fileName? file.name with
  | none =>
    rw [hname] at hadd
    cases hadd
  | some baseName =>
    rw [hname] at hadd
    obtain rfl := Except.ok.inj hadd
    have hgoes := goesInto_parentInode h file.name
    obtain ⟨hpos, hle, -⟩ := h.tree.parent_directory hgoes
    have hlen := h.tree.length
    have hparent : b.parentInode file.name ≤ b.treeList.length := by
      rw [hlen]
      exact hle le_rfl
    constructor
    · constructor
      · rw [List.length_append, List.length_modify, hlen, List.length_append]
        rfl
      · obtain ⟨root, hroot, hfacts⟩ := h.tree.root
        refine ⟨_, Linked.getElem?_grown.mpr (Or.inl ⟨root, hroot, rfl⟩), ?_⟩
        split
        · exact hfacts
        · exact hfacts
      · intro k file' hfile'
        rcases getElem?_concat_cases hfile' with hfile' | ⟨rfl, rfl⟩
        · obtain ⟨node, hnode, hentry⟩ := h.tree.entry k file' hfile'
          refine ⟨_, Linked.getElem?_grown.mpr (Or.inl ⟨node, hnode, rfl⟩), ?_⟩
          have hk := (List.getElem?_eq_some_iff.mp hfile').1
          have hentry' : IsEntry (files ++ [file]) k file' node := {
            hentry with
            parent := by
              obtain ⟨p, hp, hgoes⟩ := hentry.parent
              exact ⟨p, hp, hgoes.append hk.le file⟩ }
          split
          · exact { hentry' with }
          · exact hentry'
        · refine ⟨_, Linked.getElem?_grown.mpr (Or.inr ⟨hlen.symm, rfl⟩), ?_⟩
          have hinode : b.treeList.length + FUSE_ROOT_ID = files.length + 2 := by
            rw [hlen]
            rfl
          exact {
            inode := hinode
            index := by
              rw [hinode]
              rfl
            connId := rfl
            kind := rfl
            name := hname
            parent := ⟨_, rfl, hgoes.append le_rfl file'⟩ }
      · exact h.tree.linked.append Node.addChild (fun _ _ => rfl) (fun _ _ => rfl) hpos hparent rfl
          rfl
    · intro c
      dsimp only
      by_cases hdir : file.kind = .directory
      · rw [if_pos hdir, Table.insert_apply]
        split
        · next hc =>
          refine Or.inl ⟨files.length, file, List.getElem?_concat_length, hdir, hc.symm, ?_⟩
          rw [hlen]
          rfl
        · next hc => exact (h.map c).append fun _ => Ne.symm hc
      · rw [if_neg hdir]
        exact (h.map c).append fun hd => absurd hd hdir

theorem inv_foldlM {env : Chance} {before files : List FileDescription} {b b' : Building}
    (h : Inv before b) (hrun : files.foldlM (Building.add env) b = .ok b') :
    Inv (before ++ files) b' := by
  induction files generalizing before b with
  | nil =>
    obtain rfl := Except.ok.inj hrun
    rw [List.append_nil]
    exact h
  | cons file files ih =>
    rw [List.foldlM_cons] at hrun
    cases hadd : b.add env file with
    | error e =>
      rw [hadd] at hrun
      cases hrun
    | ok b₁ =>
      rw [hadd] at hrun
      rw [List.append_cons]
      exact ih (inv_add h hadd) hrun

theorem wellFormed_of_buildTree {env : Chance}
    (h : buildTree env files = .ok tree) : WellFormed files tree := by
  unfold buildTree at h
  cases hrun : files.foldlM (Building.add env) (Building.init env) with
  | error e =>
    rw [hrun] at h
    cases h
  | ok b =>
    rw [hrun] at h
    obtain rfl := Except.ok.inj h
    exact (inv_foldlM (inv_init env) hrun).tree

/-! ### The way to a node -/

/-- The names are relative, and every directory is listed before what is in it. -/
def PreOrdered (files : List FileDescription) : Prop :=
  ∀ (k : ℕ) file, files[k]? = some file → isAbsolute file.name = false ∧ file.name ≠ [] ∧
    ∀ up, parent file.name = some up → up = [] ∨ ∃ j < k, ∃ d, files[j]? = some d ∧
      d.kind = .directory ∧ components d.name = components up

def Tidy (name : Path) : Prop := ∀ c ∈ pieces name, skipped c = false

/-- There is a way down to this inode, and every one spells this name. -/
def Spells (tree : List Node) (inode : ℕ) (name : Path) : Prop :=
  (∃ names, Walk Node.children Node.name tree names inode) ∧
    ∀ names, Walk Node.children Node.name tree names inode →
      components (['/'].intercalate names) = components name ∧
        (Tidy name → ['/'].intercalate names = name)

theorem PreOrdered.curDir (h : PreOrdered files)
    (hnames : ∀ file ∈ files, (fileName? file.name).isSome) {k : ℕ}
    (hfile : files[k]? = some file) : (components file.name).curDir = false := by
  induction k using Nat.strong_induction_on generalizing file with
  | _ k ih =>
    obtain ⟨f, hf⟩ := Option.isSome_iff_exists.mp (hnames file (List.mem_of_getElem? hfile))
    obtain ⟨up, hup, hcomp⟩ := components_eq hf
    rw [hcomp]
    dsimp only
    rcases (h k file hfile).2.2 up hup with rfl | ⟨j, hj, d, hd, -, hsame⟩
    · decide
    · rw [← hsame]
      exact ih j hj hd

theorem WellFormed.walk_iff (h : WellFormed files tree) (hpre : PreOrdered files) {k : ℕ}
    (hfile : files[k]? = some file) {names : List Path} : Walk Node.children Node.name tree names
    (k + 2) ↔ names = pathKey file.name := by
  induction k using Nat.strong_induction_on generalizing file names with
  | _ k ih =>
    obtain ⟨node, hnode, hentry⟩ := h.entry k file hfile
    obtain ⟨p, hp, hgoes⟩ := hentry.parent
    obtain ⟨up, hup, hcomp⟩ := components_eq hentry.name
    have hkey : pathKey file.name = pathKey up ++ [node.name] := congrArg Components.rest hcomp
    -- the others lead to the parent, whose name has the other components
    have hinit (init : List Path) :
        Walk Node.children Node.name tree init p ↔ init = pathKey up := by
      rcases hgoes with ⟨j, hj, d, up', hd, -, hup', hsame, rfl⟩ | ⟨rfl, hnone⟩
      · obtain rfl := Option.some.inj (hup.symm.trans hup')
        have hdkey : pathKey d.name = pathKey up := congrArg Components.rest hsame
        rw [← hdkey]
        exact ih j hj hd
      · obtain ⟨root, hroot, -, -, hnoParent⟩ := h.root
        have hempty : up = [] := by
          rcases (hpre k file hfile).2.2 up hup with hempty | ⟨j, hj, d, hd, hdir, hsame⟩
          · exact hempty
          · exact absurd hsame (hnone j hj d up hd hdir hup)
        rw [hempty]
        exact h.linked.walk_root hroot hnoParent
    rw [h.linked.walk_iff hnode hp, hkey]
    constructor
    · rintro ⟨init, rfl, hwalk⟩
      rw [(hinit init).mp hwalk]
    · rintro rfl
      exact ⟨pathKey up, rfl, (hinit _).mpr rfl⟩

theorem components_intercalate {name : Path} (hrel : isAbsolute name = false)
    (hcur : (components name).curDir = false) (hne : pathKey name ≠ []) :
    components (['/'].intercalate (pathKey name)) = components name := by
  have hkept : ∀ c ∈ pathKey name, c ∈ pieces name ∧ skipped c = false := by
    intro c hc
    rw [pathKey_eq_filter] at hc
    obtain ⟨hmem, hkept⟩ := List.mem_filter.mp hc
    exact ⟨hmem, by simpa using hkept⟩
  have hpieces : pieces (['/'].intercalate (pathKey name)) = pathKey name :=
    List.splitOn_intercalate '/' (fun c hc => noSlash_of_mem_pieces name c (hkept c hc).1) hne
  have hfirst (c : Path) (hc : (pathKey name).head? = some c) : skipped c = false :=
    (hkept c (List.mem_of_head? hc)).2
  unfold components
  rw [Components.mk.injEq]
  refine ⟨?_, ?_, ?_⟩
  · rw [hrel, Bool.eq_false_iff, ne_eq, isAbsolute_iff, hpieces]
    rintro ⟨c, cs, heq⟩
    have hskipped := hfirst [] (by rw [heq]; rfl)
    exact absurd hskipped (by decide)
  · have hright : decide ((pieces name).head? = some ['.']) = false := hcur
    rw [hright, decide_eq_false_iff_not, hpieces]
    intro hdot
    exact absurd (hfirst ['.'] hdot) (by decide)
  · rw [pathKey_eq_filter, hpieces, List.filter_eq_self]
    intro c hc
    rw [(hkept c hc).2]
    rfl

theorem WellFormed.spells (h : WellFormed files tree) (hpre : PreOrdered files) {k : ℕ}
    (hfile : files[k]? = some file) : Spells tree (k + 2) file.name := by
  have hnames : ∀ file ∈ files, (fileName? file.name).isSome := by
    intro file hmem
    obtain ⟨j, hj⟩ := List.mem_iff_getElem?.mp hmem
    obtain ⟨node, -, hentry⟩ := h.entry j file hj
    rw [hentry.name]
    rfl
  obtain ⟨node, -, hentry⟩ := h.entry k file hfile
  obtain ⟨up, -, hkey, -⟩ := fileName?_spec hentry.name
  have hne : pathKey file.name ≠ [] := by
    rw [hkey]
    exact List.append_ne_nil_of_right_ne_nil _ (List.cons_ne_nil _ _)
  refine ⟨⟨_, (h.walk_iff hpre hfile).mpr rfl⟩, fun names hwalk => ?_⟩
  obtain rfl := (h.walk_iff hpre hfile).mp hwalk
  refine ⟨components_intercalate (hpre k file hfile).1 (hpre.curDir hnames hfile) hne, ?_⟩
  intro htidy
  have hall : pathKey file.name = pieces file.name := by
    rw [pathKey_eq_filter, List.filter_eq_self]
    intro c hc
    rw [htidy c hc]
    rfl
  rw [hall]
  exact List.intercalate_splitOn '/'

/-! ### Look-ups -/

def withHandlers (handlers : ℕ → List UInt64) (tree : List Node) : List Node :=
  tree.mapIdx fun k node => { node with fileHandlers := handlers k }

def InRange (entries : List Node) : Prop :=
  ∀ node ∈ entries, ∀ c ∈ node.children, ∃ child, nodeAt entries c = some child

theorem mem_of_nodeAt {entries : List Node} {inode : ℕ} {node : Node}
    (h : nodeAt entries inode = some node) : node ∈ entries := by
  unfold nodeAt at h
  split at h
  · cases h
  · exact List.mem_of_getElem? h

theorem WellFormed.inRange (h : WellFormed files tree) (handlers : ℕ → List UInt64) : InRange
    (withHandlers handlers tree) := by
  intro node hnode c hc
  obtain ⟨k, hk⟩ := List.mem_iff_getElem?.mp hnode
  unfold withHandlers at hk
  rw [List.getElem?_mapIdx] at hk
  obtain ⟨old, hold, rfl⟩ := Option.map_eq_some_iff.mp hk
  obtain ⟨hlt, child, hchild⟩ := h.linked.exists_child hold hc
  have hpos : ¬ c = 0 := by omega
  refine ⟨{ child with fileHandlers := handlers (c - 1) }, ?_⟩
  unfold nodeAt withHandlers
  rw [if_neg hpos, List.getElem?_mapIdx, hchild]
  rfl

theorem isSome_findChild {entries : List Node} {name : Bytes} {inodes : List ℕ}
    (h : ∀ c ∈ inodes, ∃ child, nodeAt entries c = some child) :
    (findChild entries name inodes).isSome := by
  induction inodes with
  | nil => rfl
  | cons inode inodes ih =>
    obtain ⟨⟨child, hchild⟩, hrest⟩ := List.forall_mem_cons.mp h
    unfold findChild
    rw [hchild]
    show (if asBytes child.name = name then some (some child)
      else findChild entries name inodes).isSome
    split
    · rfl
    · exact ih hrest

theorem isSome_lookup {server : FuseServer} (h : InRange server.files) (parent : ℕ) (name : Bytes) :
    (server.lookup parent name).isSome := by
  unfold FuseServer.lookup
  split
  · rfl
  · split
    · rfl
    · next entry hentry =>
      split
      · rfl
      · rw [Option.isSome_map]
        exact isSome_findChild (h entry (mem_of_nodeAt hentry))

theorem isSome_readdir {server : FuseServer} (h : InRange server.files) (ino : ℕ) (fh : UInt64)
    (offset room : ℕ) : (server.readdir ino fh offset room).isSome := by
  unfold FuseServer.readdir
  split
  · rfl
  · next entry hentry =>
    split
    · rfl
    · split
      · rfl
      · have hchildren := h entry (mem_of_nodeAt hentry)
        have hsome : (entry.children.mapM fun inode => (nodeAt server.files inode).map
            fun child => (inode, child.attributes.kind, child.name)).isSome := by
          rw [mapM_isSome_iff]
          intro c hc
          obtain ⟨child, hchild⟩ := hchildren c hc
          rw [hchild]
          rfl
        obtain ⟨children, heq⟩ := Option.isSome_iff_exists.mp hsome
        rw [heq]
        rfl

/-- **What a tree that is built is like.** A list is refused, and the server keeps what it has, or
it is made the tree: a node has the inode behind its position; the inode of a file is once among the
children of the directory before it that is its parent, and nowhere else; and under names that come
behind their directories the way down to a file spells its name. No child is looked up out of range.
-/
theorem buildTree_wellFormed (env : Chance) (server : FuseServer) (files : List FileDescription) :
    (∃ e, buildTree env files = .error e ∧ server.loadFileList env files = (server, .error e)) ∨
    ∃ tree, buildTree env files = .ok tree ∧
      server.loadFileList env files = (⟨tree, server.generation + 1⟩, .ok ()) ∧
      tree.length = files.length + 1 ∧
      (∀ (k : ℕ) node, tree[k]? = some node → node.attributes.inode = k + 1) ∧
      (∀ (k : ℕ) file, files[k]? = some file → ∃ node p parent,
        tree[k + 1]? = some node ∧ node.index = k ∧ fileName? file.name = some node.name ∧
        node.attributes.kind = file.kind ∧ node.parent = some p ∧ p < node.attributes.inode ∧
        nodeAt tree p = some parent ∧ parent.attributes.kind = .directory ∧
        ∀ other ∈ tree, other.children.count node.attributes.inode =
          if other.attributes.inode = p then 1 else 0) ∧
      (PreOrdered files → ∀ (k : ℕ) file, files[k]? = some file → Spells tree (k + 2) file.name) ∧
      ∀ handlers generation,
        (∀ parent name,
          ((FuseServer.mk (withHandlers handlers tree) generation).lookup parent name).isSome) ∧
        ∀ ino fh offset room, ((FuseServer.mk (withHandlers handlers tree) generation).readdir ino
          fh offset room).isSome := by
  unfold FuseServer.loadFileList
  cases hbuild : buildTree env files with
  | error e => exact Or.inl ⟨e, rfl, rfl⟩
  | ok tree =>
    have h := wellFormed_of_buildTree hbuild
    have hinode : ∀ (k : ℕ) node, tree[k]? = some node → node.attributes.inode = k + 1 := by
      intro k node hnode
      cases k with
      | zero =>
        obtain ⟨root, hroot, heq, -⟩ := h.root
        obtain rfl := Option.some.inj (hroot.symm.trans hnode)
        exact heq
      | succ k =>
        have hlt := (List.getElem?_eq_some_iff.mp hnode).1
        have hk : k < files.length := by
          rw [h.length] at hlt
          omega
        obtain ⟨node', hnode', hentry⟩ := h.entry k _ (List.getElem?_eq_getElem hk)
        obtain rfl := Option.some.inj (hnode'.symm.trans hnode)
        exact hentry.inode
    refine Or.inr ⟨tree, rfl, rfl, h.length, hinode, ?_, fun hpre k file => h.spells hpre,
      fun handlers generation => ⟨isSome_lookup (h.inRange handlers),
        isSome_readdir (h.inRange handlers)⟩⟩
    intro k file hfile
    obtain ⟨node, hnode, hentry⟩ := h.entry k file hfile
    obtain ⟨p, hp, hgoes⟩ := hentry.parent
    obtain ⟨hpos, -, parent, hparent, hdir⟩ := h.parent_directory hgoes
    have hbefore := (h.linked.before (k + 1) node p hnode hp).2
    have hnodeAt : nodeAt tree p = some parent := by
      have hne : ¬ p = 0 := by omega
      unfold nodeAt
      rw [if_neg hne]
      exact hparent
    refine ⟨node, p, parent, hnode, hentry.index, hentry.name, hentry.kind, hp, ?_, hnodeAt, hdir,
      ?_⟩
    · rw [hentry.inode]
      omega
    · intro other hother
      obtain ⟨j, hj⟩ := List.mem_iff_getElem?.mp hother
      rw [hentry.inode, hinode j other hj]
      exact h.linked.count_children hnode hp hj

def plainDescription (name : String) (kind : FileType) : FileDescription where
  connId := 0
  name := name.toList
  kind := kind
  atime := 0
  lastModified := 0
  lastMetadataChanged := 0
  creationTime := 0
  size := 0
  perm := 0

example : ((buildTree ⟨fun _ => 0, fun _ => 0⟩ [plainDescription "d" .directory,
    plainDescription "d/a" .file, plainDescription "e" .directory, plainDescription "d/b" .file,
    plainDescription "/lost/c" .file]).toOption.map fun tree =>
      tree.map fun node => (node.name, node.parent, node.children)) =
    some [(['/'], none, [2, 4, 6]), (['d'], some 1, [3, 5]), (['a'], some 2, []),
      (['e'], some 1, []), (['b'], some 2, []), (['c'], some 1, [])] := by decide +kernel

end LibRustdesk.Clipboard.Tree
