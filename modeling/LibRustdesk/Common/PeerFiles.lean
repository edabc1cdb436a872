import LibRustdesk.Clipboard.Lexical
import LibRustdesk.Framework.Base64
import LibRustdesk.Ohos.Utf8

/-!
# The files of the peers

`PeerConfig::path` and `PeerConfig::get_vec_id_modified_time_path` of
`libs/hbb_common/src/config.rs`, with `Config::path` and `Config::with_extension`: the file that the
configuration of a peer is kept in, and the id that is read off such a file when the peers are
listed.

An id with a character that a file name may not have is encoded, and `base64_` is put in front of
it; any other id is taken as it is. The encoding has a slash among its own characters, and an id
that is taken as it is may begin with `base64_` as well.

Paths are those of a Unix system. A path is compared as its components (`pathKey`), as `PathBuf`
does. The base64 functions are outside the repository (`Base64Crate`).

* `pathKey_path` — the components of the path of an id.
* `Proper` — the path of an id is a direct child of the directory, and the id is listed for it.
* `Alone` — no other id has this path.
* `peer_files` — **which ids are proper, and which are alone as well.**
-/

namespace LibRustdesk.PeerConfig

open FileTransfer (Path PathKey pathKey pathJoin)
open Clipboard (fileName? extension stem splitFileAtDot withFileName isAbsolute)
open Ohos (asBytes fromUtf8Lossy)

/-! ### The path of an id -/

/-- `sodiumoxide::base64` with `Variant::Original`. -/
structure Base64Crate where
  encode : Bytes → List Char
  decode : Bytes → Option Bytes

/-- What is documented of it: the original alphabet, with padding. -/
structure Base64Crate.Original (b64 : Base64Crate) : Prop where
  encode_eq : ∀ v, b64.encode v = Base64.encode v
  decode_eq : ∀ s, b64.decode (asBytes s) = Base64.decode s

def withExtension (p ext : Path) : Path :=
  match fileName? p with
  | some name => withFileName p ((splitFileAtDot name).1 ++ '.' :: ext)
  | none => p

/-- `Config::path`, where `dir` is the directory of the configuration, if there is one. -/
def configPath (dir : Option Path) (p : Path) : Path :=
  match dir with
  | some dir => pathJoin dir p
  | none => []

/-- `Config::with_extension`. -/
def configWithExtension (p : Path) : Path :=
  match extension p with
  | some ext => withExtension p (ext ++ ".toml".toList)
  | none => withExtension p "toml".toList

/-- `PEERS`. -/
def peersName : Path := "peers".toList

/-- The characters of `[<>:/\\|\?\*]`. -/
def forbiddenChars : List Char := ['<', '>', ':', '/', '\\', '|', '?', '*']

/-- `forbidden_paths.is_match`. -/
def isForbidden (id : List Char) : Bool := id.any fun c => forbiddenChars.contains c

def base64Prefix : List Char := "base64_".toList

section Code

variable (b64 : Base64Crate) (dir : Option Path)

def idEncoded (id : List Char) : Path :=
  if isForbidden id then base64Prefix ++ b64.encode (asBytes id) else id

def path (id : List Char) : Path :=
  configWithExtension (configPath dir (pathJoin (pathJoin [] peersName) (idEncoded b64 id)))

/-! ### The listing -/

/-- The id of a file, or nothing where the file is none of a peer. -/
def listedId (p : Path) : Option (List Char) :=
  if extension p = some "toml".toList then
    let id := stem p
    if base64Prefix <+: id ∧ (asBytes id).length ≠ 7 then
      some (fromUtf8Lossy ((b64.decode ((asBytes id).drop 7)).getD []))
    else some id
  else none

/-! ### What is promised -/

/-- Equality of a `PathBuf`. -/
def SamePath (p q : Path) : Prop := isAbsolute p = isAbsolute q ∧ pathKey p = pathKey q

def DirectChild (p q : Path) : Prop :=
  isAbsolute q = isAbsolute p ∧ ∃ name, name ≠ ['.', '.'] ∧ pathKey q = pathKey p ++ [name]

/-- The file of an id is in the directory of the peers, and is listed under the id. -/
structure Proper (id : List Char) : Prop where
  direct : DirectChild (configPath dir peersName) (path b64 dir id)
  listed : listedId b64 (path b64 dir id) = some id

def Alone (id : List Char) : Prop :=
  ∀ id', SamePath (path b64 dir id') (path b64 dir id) → id' = id

end Code

/-- An id that is taken as it is, and makes a file name that is not read as an encoded one. -/
structure PlainId (id : List Char) : Prop where
  plain : isForbidden id = false
  ne_nil : id ≠ []
  ne_dot : id ≠ ['.']
  ne_up : id ≠ ['.', '.']
  not_encoded : base64Prefix <+: id → id = base64Prefix

structure EncodedId (id : List Char) : Prop where
  forbidden : isForbidden id = true
  noSlash : '/' ∉ Base64.encode (asBytes id)

/-! ### Dots -/

theorem splitFileAtDot_spec (name : Path) :
    (splitFileAtDot name = (name, none)) ∨
      ∃ s e, splitFileAtDot name = (s, some e) ∧ s ++ '.' :: e = name := by
  unfold splitFileAtDot
  have hsplit : name.reverse.takeWhile (· ≠ '.') ++ name.reverse.dropWhile (· ≠ '.') =
      name.reverse := List.takeWhile_append_dropWhile
  cases hdrop : name.reverse.dropWhile (· ≠ '.') with
  | nil => exact .inl rfl
  | cons d before =>
    cases before with
    | nil => exact .inl rfl
    | cons b before =>
      refine .inr ⟨_, _, rfl, ?_⟩
      have hd : d = '.' := by
        have hhead := List.head?_dropWhile_not (fun c => decide (c ≠ '.')) name.reverse
        rw [hdrop] at hhead
        simpa using hhead
      rw [hdrop, hd] at hsplit
      have hname := congrArg List.reverse hsplit
      rw [List.reverse_append, List.reverse_reverse] at hname
      calc (b :: before).reverse ++ '.' :: (name.reverse.takeWhile (· ≠ '.')).reverse
          = ('.' :: b :: before).reverse ++ (name.reverse.takeWhile (· ≠ '.')).reverse := by
            simp only [List.reverse_cons, List.append_assoc, List.cons_append, List.nil_append]
        _ = name := hname

theorem splitFileAtDot_append {n e : Path} (hne : n ≠ []) (he : '.' ∉ e) :
    splitFileAtDot (n ++ '.' :: e) = (n, some e) := by
  have hrev : (n ++ '.' :: e).reverse = e.reverse ++ '.' :: n.reverse := by simp
  have hkeep : ∀ c ∈ e.reverse, decide (c ≠ '.') = true := by
    intro c hc
    rw [decide_eq_true_eq]
    rintro rfl
    exact he (List.mem_reverse.mp hc)
  have hdrop : (n ++ '.' :: e).reverse.dropWhile (· ≠ '.') = '.' :: n.reverse := by
    rw [hrev, List.dropWhile_append_of_pos hkeep, List.dropWhile_cons_of_neg (by simp)]
  have htake : (n ++ '.' :: e).reverse.takeWhile (· ≠ '.') = e.reverse := by
    rw [hrev, List.takeWhile_append_of_pos hkeep, List.takeWhile_cons_of_neg (by simp),
      List.append_nil]
  unfold splitFileAtDot
  rw [hdrop, htake]
  cases hn : n.reverse with
  | nil => exact absurd (List.reverse_eq_nil_iff.mp hn) hne
  | cons c before =>
    dsimp only
    rw [← hn, List.reverse_reverse, List.reverse_reverse]

/-! ### Extensions -/

theorem toml_length (n : Path) : 5 ≤ (n ++ ".toml".toList).length := by
  rw [List.length_append]
  exact Nat.le_add_left 5 _

theorem toml_ne_up (n : Path) : n ++ ".toml".toList ≠ ['.', '.'] := by
  intro h
  have hlen := toml_length n
  rw [h] at hlen
  exact absurd hlen (by decide)

theorem toml_plain {n : Path} (hslash : '/' ∉ n) : Clipboard.PlainName (n ++ ".toml".toList) := by
  have hlen := toml_length n
  refine ⟨?_, ?_, toml_ne_up n⟩
  · rw [List.mem_append, not_or]
    exact ⟨hslash, by decide⟩
  · unfold Clipboard.skipped
    rw [Bool.or_eq_false_iff]
    constructor
    · rw [List.isEmpty_eq_false_iff]
      intro h
      rw [h] at hlen
      exact absurd hlen (by decide)
    · rw [beq_eq_false_iff_ne]
      intro h
      rw [h] at hlen
      exact absurd hlen (by decide)

theorem pathKey_plain {n : Path} (h : Clipboard.PlainName n) : pathKey n = [n] := by
  have hpieces : Clipboard.pieces n = [n] := List.splitOn_eq_singleton h.noSlash
  rw [Clipboard.pathKey_eq_filter, hpieces, List.filter_singleton, h.kept]
  rfl

variable {init : PathKey}

theorem configWithExtension_spec {p f : Path} (hkey : pathKey p = init ++ [f])
    (hup : f ≠ ['.', '.']) :
    pathKey (configWithExtension p) = init ++ [f ++ ".toml".toList] ∧
      isAbsolute (configWithExtension p) = isAbsolute p := by
  have hname : fileName? p = some f :=
    Clipboard.fileName?_of_getLast (by rw [hkey, List.getLast?_concat]) hup
  obtain ⟨up, hparent, hsplit, habs, hslash⟩ := Clipboard.fileName?_spec hname
  have hinit : pathKey up = init := (List.append_inj_left' (hkey.symm.trans hsplit) rfl).symm
  have hext : configWithExtension p = withFileName p (f ++ ".toml".toList) := by
    unfold configWithExtension withExtension extension
    rw [hname, Option.bind_some]
    rcases splitFileAtDot_spec f with hnone | ⟨s, e, hsome, hf⟩
    · rw [hnone]
      dsimp only
      rw [hnone]
      rfl
    · rw [hsome]
      dsimp only
      rw [hsome, ← hf, List.append_assoc]
      rfl
  have hplain := toml_plain hslash
  obtain ⟨hjoin, hjoinAbs⟩ := Clipboard.pathKey_pathJoin up hplain.inside.relative
  rw [hext]
  unfold Clipboard.withFileName
  rw [hname, Option.isSome_some, if_pos rfl, hparent, Option.getD_some, hjoin, hjoinAbs, hinit,
    pathKey_plain hplain]
  exact ⟨rfl, habs⟩

theorem configWithExtension_up {p : Path}
    (hkey : pathKey p = init ++ [['.', '.']]) : configWithExtension p = p := by
  have hname : fileName? p = none := by
    cases h : fileName? p with
    | none => rfl
    | some f =>
      obtain ⟨up, -, hsplit, -, -⟩ := Clipboard.fileName?_spec h
      have hf : [['.', '.']] = [f] := (List.append_inj' (hkey.symm.trans hsplit) rfl).2
      obtain rfl : ['.', '.'] = f := (List.cons.inj hf).1
      obtain ⟨-, hcond⟩ := Option.filter_eq_some_iff.mp h
      exact absurd hcond (by decide)
  unfold configWithExtension withExtension extension
  rw [hname]
  rfl

theorem listedId_spec (b64 : Base64Crate) {p n : Path}
    (hkey : pathKey p = init ++ [n ++ ".toml".toList]) (hne : n ≠ []) : listedId b64 p =
      if base64Prefix <+: n ∧ (asBytes n).length ≠ 7 then
        some (fromUtf8Lossy ((b64.decode ((asBytes n).drop 7)).getD []))
      else some n := by
  have hname : fileName? p = some (n ++ ".toml".toList) :=
    Clipboard.fileName?_of_getLast (by rw [hkey, List.getLast?_concat]) (toml_ne_up n)
  have hsplit : splitFileAtDot (n ++ ".toml".toList) = (n, some "toml".toList) :=
    splitFileAtDot_append hne (by decide)
  unfold listedId extension stem
  rw [hname, Option.bind_some, Option.elim_some, hsplit]
  exact if_pos rfl

/-! ### Components of a path -/

def tomlKey (key : PathKey) : PathKey :=
  match key.getLast? with
  | some f => if f = ['.', '.'] then key else key.dropLast ++ [f ++ ".toml".toList]
  | none => []

theorem tomlKey_concat (init : PathKey) (f : Path) : tomlKey (init ++ [f]) =
    if f = ['.', '.'] then init ++ [f] else init ++ [f ++ ".toml".toList] := by
  unfold tomlKey
  rw [List.getLast?_concat, List.dropLast_concat]

theorem isAbsolute_of_noSlash {p : Path} (h : '/' ∉ p) : isAbsolute p = false := by
  cases p with
  | nil => rfl
  | cons c p =>
    rw [List.mem_cons, not_or] at h
    show decide (some c = some '/') = false
    rw [decide_eq_false_iff_not]
    intro hc
    exact h.1 (Option.some.inj hc).symm

theorem noSlash_of_plain {id : List Char} (h : isForbidden id = false) : '/' ∉ id := by
  intro hmem
  have hany := List.any_eq_false.mp h '/' hmem
  exact hany (by decide)

theorem idEncoded_of_plain (b64 : Base64Crate) {id : List Char} (h : isForbidden id = false) :
    idEncoded b64 id = id := by
  unfold idEncoded
  rw [h]
  exact if_neg Bool.false_ne_true

theorem idEncoded_of_forbidden {b64 : Base64Crate} (horiginal : b64.Original) {id : List Char}
    (h : isForbidden id = true) :
    idEncoded b64 id = base64Prefix ++ Base64.encode (asBytes id) := by
  unfold idEncoded
  rw [if_pos h, horiginal.encode_eq]

section Components

variable (b64 : Base64Crate) (root : Path)

theorem isAbsolute_idEncoded (id : List Char) : isAbsolute (idEncoded b64 id) = false := by
  unfold idEncoded
  split
  · rfl
  · next hplain => exact isAbsolute_of_noSlash (noSlash_of_plain (Bool.eq_false_iff.mpr hplain))

theorem pathKey_peersName : pathKey peersName = [peersName] := by decide

theorem pathKey_peers : pathKey (configPath (some root) peersName) = pathKey root ++ [peersName] ∧
    isAbsolute (configPath (some root) peersName) = isAbsolute root := by
  have hrelative : isAbsolute peersName = false := by decide
  have hjoin := Clipboard.pathKey_pathJoin root hrelative
  rw [pathKey_peersName] at hjoin
  exact hjoin

theorem pathKey_path (id : List Char) : pathKey (path b64 (some root) id) =
      pathKey root ++ tomlKey (peersName :: pathKey (idEncoded b64 id)) ∧
    isAbsolute (path b64 (some root) id) = isAbsolute root := by
  have hrel : isAbsolute (pathJoin peersName (idEncoded b64 id)) = false :=
    (Clipboard.pathKey_pathJoin peersName (isAbsolute_idEncoded b64 id)).2
  have hname : pathKey (pathJoin peersName (idEncoded b64 id)) =
      peersName :: pathKey (idEncoded b64 id) := by
    rw [(Clipboard.pathKey_pathJoin peersName (isAbsolute_idEncoded b64 id)).1, pathKey_peersName]
    rfl
  obtain ⟨hkey, habs⟩ := Clipboard.pathKey_pathJoin root hrel
  rw [hname] at hkey
  obtain ⟨init, f, hlast⟩ : ∃ init f, peersName :: pathKey (idEncoded b64 id) = init ++ [f] :=
    ⟨_, _, (List.dropLast_append_getLast (List.cons_ne_nil _ _)).symm⟩
  rw [hlast, ← List.append_assoc] at hkey
  rw [hlast, tomlKey_concat]
  show pathKey (configWithExtension (pathJoin root (pathJoin peersName _))) = _ ∧
    isAbsolute (configWithExtension (pathJoin root (pathJoin peersName _))) = _
  by_cases hup : f = ['.', '.']
  · rw [if_pos hup, ← List.append_assoc]
    rw [hup] at hkey ⊢
    rw [configWithExtension_up hkey]
    exact ⟨hkey, habs⟩
  · obtain ⟨hext, hextAbs⟩ := configWithExtension_spec hkey hup
    rw [if_neg hup, ← List.append_assoc]
    exact ⟨hext, hextAbs.trans habs⟩

theorem tomlKey_eq_pair {key : PathKey} {name : Path} (hup : name ≠ ['.', '.'])
    (h : tomlKey (peersName :: key) = [peersName, name]) :
    ∃ f, key = [f] ∧ f ≠ ['.', '.'] ∧ name = f ++ ".toml".toList := by
  cases key using List.reverseRecOn with
  | nil =>
    have hone : tomlKey [peersName] = [peersName ++ ".toml".toList] := by decide
    rw [hone] at h
    exact absurd (List.cons.inj h).2 (List.cons_ne_nil _ _).symm
  | append_singleton init f =>
    rw [← List.cons_append, tomlKey_concat] at h
    split at h
    · next hf =>
      have hlast := congrArg List.getLast? h
      rw [List.getLast?_concat] at hlast
      exact absurd ((Option.some.inj hlast).symm.trans hf) hup
    · next hf =>
      cases init with
      | nil => exact ⟨f, rfl, hf, (List.cons.inj (List.cons.inj h).2).1.symm⟩
      | cons a init =>
        have hlen := congrArg List.length h
        simp at hlen

theorem tomlKey_single {f : Path} (hf : f ≠ ['.', '.']) :
    tomlKey [peersName, f] = [peersName, f ++ ".toml".toList] := by
  have h := tomlKey_concat [peersName] f
  rw [if_neg hf] at h
  exact h

theorem directChild_iff (id : List Char) :
    DirectChild (configPath (some root) peersName) (path b64 (some root) id) ↔
      ∃ f, pathKey (idEncoded b64 id) = [f] ∧ f ≠ ['.', '.'] := by
  obtain ⟨hkey, habs⟩ := pathKey_path b64 root id
  obtain ⟨hpeers, hpeersAbs⟩ := pathKey_peers root
  unfold DirectChild
  rw [hkey, hpeers, habs, hpeersAbs]
  constructor
  · rintro ⟨-, name, hup, hname⟩
    rw [List.append_assoc] at hname
    obtain ⟨f, hf, hfUp, -⟩ := tomlKey_eq_pair hup (List.append_cancel_left hname)
    exact ⟨f, hf, hfUp⟩
  · rintro ⟨f, hf, hup⟩
    refine ⟨rfl, f ++ ".toml".toList, toml_ne_up f, ?_⟩
    rw [hf, tomlKey_single hup, List.append_assoc]
    rfl

end Components

/-! ### Ids that are taken as they are -/

theorem pathKey_noSlash {p : Path} (h : '/' ∉ p) :
    pathKey p = if p = [] ∨ p = ['.'] then [] else [p] := by
  have hpieces : Clipboard.pieces p = [p] := List.splitOn_eq_singleton h
  rw [Clipboard.pathKey_eq_filter, hpieces, List.filter_singleton]
  unfold Clipboard.skipped
  by_cases hnil : p = []
  · rw [hnil]
    rfl
  · by_cases hdot : p = ['.']
    · rw [hdot]
      rfl
    · rw [if_neg (not_or.mpr ⟨hnil, hdot⟩), List.isEmpty_eq_false_iff.mpr hnil,
        beq_eq_false_iff_ne.mpr hdot]
      rfl

theorem pathKey_noSlash_iff {p f : Path} (h : '/' ∉ p) :
    pathKey p = [f] ↔ p = f ∧ p ≠ [] ∧ p ≠ ['.'] := by
  rw [pathKey_noSlash h]
  split
  · next hnone =>
    constructor
    · intro hf
      cases hf
    · rintro ⟨-, hnil, hdot⟩
      exact (hnone.elim hnil hdot).elim
  · next hsome =>
    obtain ⟨hnil, hdot⟩ := not_or.mp hsome
    constructor
    · intro hf
      exact ⟨(List.cons.inj hf).1, hnil, hdot⟩
    · rintro ⟨rfl, -, -⟩
      rfl

/-! ### Encoded ids -/

theorem alphabet_ne {c : Char} (h : Base64.Alphabet c) : c ≠ '.' := by
  rintro rfl
  exact absurd h (by decide)

theorem ff_ne_ofNat {n : ℕ} (h : n < 255) : (0xFF : UInt8) ≠ UInt8.ofNat n := by
  intro heq
  have hnat := congrArg UInt8.toNat heq
  have hff : (0xFF : UInt8).toNat = 255 := rfl
  rw [UInt8.toNat_ofNat', Nat.mod_eq_of_lt (by omega), hff] at hnat
  omega

theorem not_mem_asBytes (s : List Char) : 0xFF ∉ asBytes s := by
  intro h
  obtain ⟨c, -, hc⟩ := List.mem_flatMap.mp h
  -- the byte would be one of those that a character is encoded as
  revert hc
  unfold String.utf8EncodeChar
  dsimp only
  split
  · simp only [List.mem_singleton, imp_false]
    exact ff_ne_ofNat (by omega)
  · split
    · simp only [List.mem_cons, List.not_mem_nil, or_false, imp_false, not_or]
      exact ⟨ff_ne_ofNat (by omega), ff_ne_ofNat (by omega)⟩
    · split
      · simp only [List.mem_cons, List.not_mem_nil, or_false, imp_false, not_or]
        exact ⟨ff_ne_ofNat (by omega), ff_ne_ofNat (by omega), ff_ne_ofNat (by omega)⟩
      · simp only [List.mem_cons, List.not_mem_nil, or_false, imp_false, not_or]
        exact ⟨ff_ne_ofNat (by omega), ff_ne_ofNat (by omega), ff_ne_ofNat (by omega),
          ff_ne_ofNat (by omega)⟩

theorem slash_or_dot {p : Path} (h : pathKey p = []) : ∀ c ∈ p, c = '/' ∨ c = '.' := by
  intro c hc
  by_contra hne
  obtain ⟨hslash, hdot⟩ := not_or.mp hne
  obtain ⟨piece, hpiece, hmem⟩ := exists_piece_of_mem hc hslash
  have hkept : piece ∈ pathKey p := by
    rw [Clipboard.pathKey_eq_filter]
    refine List.mem_filter.mpr ⟨hpiece, ?_⟩
    unfold Clipboard.skipped
    rw [Bool.not_or, Bool.and_eq_true]
    constructor
    · rw [Bool.not_eq_true', List.isEmpty_eq_false_iff]
      exact List.ne_nil_of_mem hmem
    · rw [Bool.not_eq_true', beq_eq_false_iff_ne]
      rintro rfl
      exact hdot (List.mem_singleton.mp hmem)
  rw [h] at hkept
  cases hkept

theorem pathKey_base64 {a : List Char} (ha : '/' ∉ a) :
    pathKey (base64Prefix ++ a) = [base64Prefix ++ a] := by
  have hbare : '/' ∉ base64Prefix ++ a := by
    rw [List.mem_append, not_or]
    exact ⟨by decide, ha⟩
  rw [pathKey_noSlash_iff hbare]
  exact ⟨rfl, List.cons_ne_nil _ _, fun h => absurd (List.cons.inj h).1 (by decide)⟩

theorem encode_ne_nil {id : List Char} (h : isForbidden id = true) :
    Base64.encode (asBytes id) ≠ [] := by
  intro hnil
  have hdecode := Base64.decode_of_encode (asBytes id)
  rw [hnil] at hdecode
  have hbytes : [] = asBytes id := Option.some.inj hdecode
  have hread := Ohos.fromUtf8Lossy_asBytes id
  rw [← hbytes] at hread
  rw [← hread] at h
  exact absurd h (by decide)

theorem encoded_component {id : List Char} {f : Path} {e : List Char}
    (he : Base64.encode (asBytes id) = e) (hf : pathKey (base64Prefix ++ e) = [f]) :
    ('/' ∉ e ∧ f = base64Prefix ++ e) ∨
      ∃ a, '/' ∈ e ∧ f = base64Prefix ++ a ∧ Base64.decode a = none := by
  have halphabet : ∀ c ∈ e, Base64.Alphabet c := by
    rw [← he]
    exact Base64.mem_alphabet_of_mem_encode _
  by_cases hslash : '/' ∈ e
  · refine .inr ?_
    obtain ⟨a, r, hsplit, ha⟩ := List.eq_append_cons_of_mem hslash
    rw [hsplit, ← List.append_assoc, FileTransfer.pathKey_slash, pathKey_base64 ha] at hf
    obtain ⟨hfa, hrest⟩ := List.cons.inj hf
    have hslashes : r = List.replicate r.length '/' := by
      refine List.eq_replicate_iff.mpr ⟨rfl, fun c hc => ?_⟩
      have hmem : c ∈ e := by
        rw [hsplit]
        exact List.mem_append_right a (List.mem_cons_of_mem _ hc)
      exact (slash_or_dot hrest c hc).resolve_right (alphabet_ne (halphabet c hmem))
    refine ⟨a, hslash, hfa.symm, ?_⟩
    cases hdecode : Base64.decode a with
    | none => rfl
    | some v =>
      -- both would be groups of four, so that four slashes are left
      exfalso
      have hmod := (Base64.decode_spec hdecode).1
      have hlen := Base64.length_encode (asBytes id)
      rw [he, hsplit, List.length_append, List.length_cons] at hlen
      have hthree : r.length = (r.length - 3) + 3 := by omega
      have hfour : Base64.encode (asBytes id) =
          (a ++ List.replicate (r.length - 3) '/') ++ ['/', '/', '/', '/'] := by
        rw [he, hsplit, List.append_assoc]
        refine congrArg (a ++ ·) ?_
        calc '/' :: r = '/' :: List.replicate ((r.length - 3) + 3) '/' := by
              rw [← hthree, ← hslashes]
          _ = List.replicate ((r.length - 3) + 4) '/' := rfl
          _ = List.replicate (r.length - 3) '/' ++ ['/', '/', '/', '/'] := by
              rw [List.replicate_add]
              rfl
      exact not_mem_asBytes id (Base64.mem_of_encode_slashes hfour)
  · refine .inl ⟨hslash, ?_⟩
    rw [pathKey_base64 hslash] at hf
    exact (List.cons.inj hf).1.symm

/-! ### Which ids are proper -/

section Proper

variable {b64 : Base64Crate} (horiginal : b64.Original)

def readName (b64 : Base64Crate) (f : Path) : List Char :=
  if base64Prefix <+: f ∧ (asBytes f).length ≠ 7 then
    fromUtf8Lossy ((b64.decode ((asBytes f).drop 7)).getD [])
  else f

include horiginal

theorem readName_base64 {a : List Char} (hne : a ≠ []) :
    readName b64 (base64Prefix ++ a) = fromUtf8Lossy ((Base64.decode a).getD []) := by
  have hbytes : asBytes (base64Prefix ++ a) = asBytes base64Prefix ++ asBytes a :=
    List.flatMap_append
  have hseven : (asBytes base64Prefix).length = 7 := by decide
  have hlong : (asBytes (base64Prefix ++ a)).length ≠ 7 := by
    have hpos := List.length_pos_iff.mpr hne
    have hle := Ohos.length_le_length_asBytes a
    rw [hbytes, List.length_append, hseven]
    omega
  unfold readName
  rw [if_pos ⟨List.prefix_append _ _, hlong⟩, hbytes, List.drop_left' hseven, horiginal.decode_eq]

omit horiginal in
theorem readName_base64Prefix : readName b64 base64Prefix = base64Prefix := by
  unfold readName
  rw [if_neg (fun h => h.2 (by decide))]

omit horiginal in
theorem readName_of_not_prefix {f : Path} (h : ¬ base64Prefix <+: f) : readName b64 f = f := by
  unfold readName
  rw [if_neg (fun h' => h h'.1)]

omit horiginal in
theorem proper_iff (root : Path) (id : List Char) : Proper b64 (some root) id ↔
    ∃ f, pathKey (idEncoded b64 id) = [f] ∧ f ≠ ['.', '.'] ∧ readName b64 f = id := by
  have hlisted {f : Path} (hf : pathKey (idEncoded b64 id) = [f]) (hup : f ≠ ['.', '.']) :
      listedId b64 (path b64 (some root) id) = some (readName b64 f) := by
    obtain ⟨hkey, -⟩ := pathKey_path b64 root id
    have hne : f ≠ [] := by
      rintro rfl
      have hmem : [] ∈ pathKey (idEncoded b64 id) := by
        rw [hf]
        exact List.mem_cons_self
      rw [Clipboard.pathKey_eq_filter] at hmem
      exact absurd (List.mem_filter.mp hmem).2 (by decide)
    rw [hf, tomlKey_single hup] at hkey
    have hlast : pathKey (path b64 (some root) id) =
        (pathKey root ++ [peersName]) ++ [f ++ ".toml".toList] := by
      rw [hkey, List.append_assoc]
      rfl
    rw [listedId_spec b64 hlast hne]
    unfold readName
    split <;> rfl
  constructor
  · intro h
    obtain ⟨f, hf, hup⟩ := (directChild_iff b64 root id).mp h.direct
    exact ⟨f, hf, hup, Option.some.inj ((hlisted hf hup).symm.trans h.listed)⟩
  · rintro ⟨f, hf, hup, hread⟩
    exact ⟨(directChild_iff b64 root id).mpr ⟨f, hf, hup⟩, by rw [hlisted hf hup, hread]⟩

theorem readName_ne {a : List Char} (hne : a ≠ []) :
    readName b64 (base64Prefix ++ a) ≠ base64Prefix ++ a := by
  intro h
  rw [readName_base64 horiginal hne] at h
  have hlen := congrArg List.length h
  have hle : (fromUtf8Lossy ((Base64.decode a).getD [])).length ≤ a.length := by
    refine Nat.le_trans (Ohos.length_fromUtf8LossyFuel _ _) ?_
    cases hdecode : Base64.decode a with
    | none => exact Nat.zero_le _
    | some v => exact (Base64.decode_spec hdecode).2.1
  have hseven : base64Prefix.length = 7 := rfl
  rw [List.length_append, hseven] at hlen
  omega

variable {id : List Char}

theorem proper_plain_iff (root : Path) (hplain : isForbidden id = false) :
    Proper b64 (some root) id ↔ PlainId id := by
  rw [proper_iff, idEncoded_of_plain b64 hplain]
  constructor
  · rintro ⟨f, hf, hup, hread⟩
    obtain ⟨rfl, hnil, hdot⟩ := (pathKey_noSlash_iff (noSlash_of_plain hplain)).mp hf
    refine ⟨hplain, hnil, hdot, hup, ?_⟩
    rintro ⟨a, rfl⟩
    by_cases ha : a = []
    · rw [ha, List.append_nil]
    · exact absurd hread (readName_ne horiginal ha)
  · intro h
    refine ⟨id, ?_, h.ne_up, ?_⟩
    · exact (pathKey_noSlash_iff (noSlash_of_plain hplain)).mpr ⟨rfl, h.ne_nil, h.ne_dot⟩
    · by_cases hbare : base64Prefix <+: id
      · rw [h.not_encoded hbare]
        exact readName_base64Prefix
      · exact readName_of_not_prefix hbare

theorem proper_encoded_iff (root : Path) (hforbidden : isForbidden id = true) :
    Proper b64 (some root) id ↔ EncodedId id := by
  have hid : id ≠ [] := by
    rintro rfl
    exact absurd hforbidden (by decide)
  rw [proper_iff, idEncoded_of_forbidden horiginal hforbidden]
  constructor
  · rintro ⟨f, hf, -, hread⟩
    rcases encoded_component rfl hf with ⟨hslash, -⟩ | ⟨a, -, rfl, hdecode⟩
    · exact ⟨hforbidden, hslash⟩
    · -- nothing is decoded from what is left of the encoding
      have ha : a ≠ [] := by
        rintro rfl
        exact absurd hdecode (by decide)
      rw [readName_base64 horiginal ha, hdecode] at hread
      exact absurd hread.symm hid
  · rintro ⟨-, hslash⟩
    refine ⟨base64Prefix ++ Base64.encode (asBytes id), pathKey_base64 hslash, ?_, ?_⟩
    · exact fun h => absurd (List.cons.inj h).1 (by decide)
    · rw [readName_base64 horiginal (encode_ne_nil hforbidden), Base64.decode_of_encode,
        Option.getD_some, Ohos.fromUtf8Lossy_asBytes]

/-! ### Which ids are alone -/

theorem alone_of_plain (root : Path) (h : PlainId id) : Alone b64 (some root) id := by
  rintro id' ⟨-, hsame⟩
  have hkey : pathKey id = [id] :=
    (pathKey_noSlash_iff (noSlash_of_plain h.plain)).mpr ⟨rfl, h.ne_nil, h.ne_dot⟩
  rw [(pathKey_path b64 root id').1, (pathKey_path b64 root id).1, idEncoded_of_plain b64 h.plain,
    hkey, tomlKey_single h.ne_up] at hsame
  obtain ⟨f, hf, -, htoml⟩ := tomlKey_eq_pair (toml_ne_up id) (List.append_cancel_left hsame)
  obtain rfl : id = f := List.append_cancel_right htoml
  cases hforbidden : isForbidden id' with
  | false =>
    rw [idEncoded_of_plain b64 hforbidden] at hf
    exact ((pathKey_noSlash_iff (noSlash_of_plain hforbidden)).mp hf).1
  | true =>
    exfalso
    rw [idEncoded_of_forbidden horiginal hforbidden] at hf
    -- the name would be the prefix with something behind it
    have hnothing {a : List Char} (ha : id = base64Prefix ++ a) : a = [] := by
      have hbare := h.not_encoded (ha ▸ List.prefix_append _ _)
      exact List.append_cancel_left
        (ha.symm.trans (hbare.trans (List.append_nil base64Prefix).symm))
    rcases encoded_component rfl hf with ⟨-, ha⟩ | ⟨a, -, ha, hdecode⟩
    · exact encode_ne_nil hforbidden (hnothing ha)
    · rw [hnothing ha] at hdecode
      exact absurd hdecode (by decide)

theorem not_alone_of_encoded (dir : Option Path) (h : EncodedId id) : ¬ Alone b64 dir id := by
  intro halone
  have hplain : isForbidden (base64Prefix ++ Base64.encode (asBytes id)) = false := by
    unfold isForbidden
    rw [List.any_append, Bool.or_eq_false_iff]
    refine ⟨by decide, List.any_eq_false.mpr fun c hc hmem => ?_⟩
    -- the slash is the only character of the alphabet that is forbidden
    have honly : (forbiddenChars.all fun d => decide (Base64.Alphabet d → d = '/')) = true := by
      decide
    have hslash := of_decide_eq_true (List.all_eq_true.mp honly c (List.contains_iff_mem.mp hmem))
      (Base64.mem_alphabet_of_mem_encode _ c hc)
    rw [hslash] at hc
    exact h.noSlash hc
  have hpath : path b64 dir (base64Prefix ++ Base64.encode (asBytes id)) = path b64 dir id := by
    unfold path
    rw [idEncoded_of_plain b64 hplain, idEncoded_of_forbidden horiginal h.forbidden]
  have hid := halone (base64Prefix ++ Base64.encode (asBytes id)) ⟨by rw [hpath], by rw [hpath]⟩
  rw [hid, h.forbidden] at hplain
  exact absurd hplain.symm Bool.false_ne_true

end Proper

theorem not_proper_none (b64 : Base64Crate) (id : List Char) : ¬ Proper b64 none id := by
  rintro ⟨⟨-, name, -, hkey⟩, -⟩
  have hpath : path b64 none id = [] := by
    show configWithExtension [] = []
    decide
  have hnil : pathKey (configPath none peersName) = [] := by decide
  have hempty : pathKey [] = [] := by decide
  rw [hpath, hnil, hempty] at hkey
  exact List.cons_ne_nil name [] hkey.symm

/-- **Which ids have a file of their own.** The path of an id is a direct child of the directory and
listed under the id just for the plain ids and the encoded ones without a slash; and just the plain
ones do not share it. -/
theorem peer_files {b64 : Base64Crate} (horiginal : b64.Original) (dir : Option Path)
    (id : List Char) :
    (Proper b64 dir id ↔ dir.isSome = true ∧ (PlainId id ∨ EncodedId id)) ∧
      (Proper b64 dir id ∧ Alone b64 dir id ↔ dir.isSome = true ∧ PlainId id) := by
  cases dir with
  | none =>
    have hnone := not_proper_none b64 id
    exact ⟨iff_of_false hnone fun h => Bool.false_ne_true h.1,
      iff_of_false (fun h => hnone h.1) fun h => Bool.false_ne_true h.1⟩
  | some root =>
    cases hforbidden : isForbidden id with
    | false =>
      have hproper := proper_plain_iff horiginal root hforbidden
      have hnot : ¬ EncodedId id := fun h => Bool.false_ne_true (hforbidden.symm.trans h.forbidden)
      constructor
      · rw [hproper]
        exact ⟨fun h => ⟨rfl, .inl h⟩, fun h => h.2.resolve_right hnot⟩
      · rw [hproper]
        exact ⟨fun h => ⟨rfl, h.1⟩, fun h => ⟨h.2, alone_of_plain horiginal root h.2⟩⟩
    | true =>
      have hproper := proper_encoded_iff horiginal root hforbidden
      have hnot : ¬ PlainId id := fun h => Bool.false_ne_true (h.plain.symm.trans hforbidden)
      constructor
      · rw [hproper]
        exact ⟨fun h => ⟨rfl, .inr h⟩, fun h => h.2.resolve_left hnot⟩
      · rw [hproper]
        exact ⟨fun h => absurd h.2 (not_alone_of_encoded horiginal _ h.1), fun h => absurd h.2 hnot⟩

/-! ### Two ids and one file -/

def originalCrate : Base64Crate where
  encode := Base64.encode
  decode v := (Ohos.fromUtf8 v).bind Base64.decode

theorem originalCrate_original : originalCrate.Original where
  encode_eq _ := rfl
  decode_eq s := by
    show (Ohos.fromUtf8 (asBytes s)).bind Base64.decode = _
    rw [Ohos.fromUtf8_asBytes, Option.bind_some]

/-- An id that ends with a dot, and one with a port. -/
theorem peer_files_port :
    (Proper originalCrate (some "/c".toList) "12.".toList ∧
        Alone originalCrate (some "/c".toList) "12.".toList) ∧
      Proper originalCrate (some "/c".toList) "1.2:3".toList := by
  refine ⟨(peer_files originalCrate_original _ _).2.mpr ⟨rfl, ?_⟩,
    (peer_files originalCrate_original _ _).1.mpr ⟨rfl, .inr ?_⟩⟩
  · exact ⟨by decide, by decide, by decide, by decide, by decide⟩
  · exact ⟨by decide, by decide⟩

/-- The id `a:b` has the file of the id `base64_YTpi`, and the id `ab?` is not listed: its encoding
ends with a slash, which is lost. -/
theorem one_file_for_two : ¬ Alone originalCrate (some "/c".toList) "a:b".toList ∧
    ¬ Proper originalCrate (some "/c".toList) "ab?".toList := by
  constructor
  · intro h
    have hsame : SamePath (path originalCrate (some "/c".toList) "base64_YTpi".toList)
        (path originalCrate (some "/c".toList) "a:b".toList) := by
      constructor <;> decide +kernel
    exact absurd (h _ hsame) (by decide)
  · intro h
    have hlisted : listedId originalCrate (path originalCrate (some "/c".toList) "ab?".toList) =
        some [] := by decide +kernel
    exact absurd (hlisted.symm.trans h.listed) (by decide)

end LibRustdesk.PeerConfig
