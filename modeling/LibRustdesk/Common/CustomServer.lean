import LibRustdesk.Framework.LittleEndian
import LibRustdesk.Framework.Lowercase
import LibRustdesk.Framework.Pieces

/-!
# Servers in the name of the program

The name of the executable may say which servers to use (`custom_server.rs`): `host=` and what it
is, and after that other fields, with commas between them, each name in any case. `host=` is looked
for in the name in lower case, and the position that is found there is used for the name as it is.

* `getCustomServerFromString` — the function, with `none` where a slice ends the thread.
* `stripExe_eq` — the slices at the end never do: what is cut off is ASCII.
* `Readable` — a text in front of `host=` after which every name is read, and `Cut` the names that
  end the thread.
* `reads_iff_readable` — **exactly which these are**: lowering the text in front must leave its
  length in bytes (or else what is left of it must end with a comma, and set no field).
-/

namespace LibRustdesk.CustomServers

open Lowercase

/-! ### The function -/

structure CustomServer where
  key : List Char := []
  host : List Char := []
  api : List Char := []
  relay : List Char := []
  deriving DecidableEq

structure Crates where
  /-- `URL_SAFE_NO_PAD.decode`. -/
  decode : List Char → Option Bytes
  /-- `serde_json::from_slice`. -/
  fromSlice : Bytes → Option CustomServer
  /-- `sign::verify`. -/
  verify : Bytes → Bytes → Option Bytes
  isWhitespace : Char → Bool

def pk : Bytes :=
  [88, 168, 68, 104, 60, 5, 163, 198, 165, 38, 12, 85, 114, 203, 96, 163, 70, 48, 0, 131, 57, 12,
    46, 129, 83, 17, 84, 193, 119, 197, 130, 103]

variable (uni : Unicode) (crates : Crates)

def getCustomServerFromConfigString (s : List Char) : Option CustomServer :=
  (crates.decode s.reverse).bind fun data =>
    match crates.fromSlice data with
    | some lic => some lic
    | none => (crates.verify data pk).bind crates.fromSlice

/-- `&s[0..s.len() - n]`. -/
def dropEnd (n : ℕ) (s : List Char) : Option (List Char) :=
  if n ≤ byteLen s then sliceTo (byteLen s - n) s else none

def stripExe (s : List Char) : Option (List Char) :=
  if ".exe.exe".toList.isSuffixOf (uni.toLowercase s) then dropEnd 8 s
  else if ".exe".toList.isSuffixOf (uni.toLowercase s) then dropEnd 4 s
  else some s

/-- A part that begins with a name, and what is behind the name. -/
def takeIf (name : List Char) (update : CustomServer → List Char → CustomServer) (el : List Char)
    (server : CustomServer) : CustomServer :=
  if name.isPrefixOf (uni.toLowercase el) then update server (el.drop name.length) else server

def takeField (server : CustomServer) (el : List Char) : CustomServer :=
  let server := takeIf uni "host=".toList (fun server host => { server with host := host }) el
    server
  let server := takeIf uni "key=".toList (fun server key => { server with key := key }) el server
  let server := takeIf uni "api=".toList (fun server api => { server with api := api }) el server
  takeIf uni "relay=".toList (fun server relay => { server with relay := relay }) el server

/-- `str::split` at a text, where the first `skip` letters are those of a separator. -/
def splitText (pat : List Char) : ℕ → List Char → List (List Char)
  | _, [] => [[]]
  | skip + 1, _ :: s => splitText pat skip s
  | 0, c :: s =>
    if pat.isPrefixOf (c :: s) then [] :: splitText pat (pat.length - 1) s
    else (splitText pat 0 s).modifyHead (c :: ·)

/-- `str::replace`. -/
def replaceText (pat by' s : List Char) : List Char := List.intercalate by' (splitText pat 0 s)

def trim (s : List Char) : List Char :=
  ((s.dropWhile crates.isWhitespace).reverse.dropWhile crates.isWhitespace).reverse

/-- The parts of a name without `host=`, and the parts of these. -/
def fromLicense (s : List Char) : Option CustomServer :=
  let s := replaceText "-licensed---".toList "--".toList s
  let s := replaceText "-licensed--".toList "--".toList s
  let s := replaceText "-licensed-".toList "--".toList s
  (splitText "--".toList 0 s).findSome? fun s =>
    match getCustomServerFromConfigString crates (trim crates s) with
    | some lic => some lic
    | none =>
      if '(' ∈ s then
        (s.splitOn '(').findSome? fun s => getCustomServerFromConfigString crates (trim crates s)
      else none

def hostText : List Char := "host=".toList

def getCustomServerFromString (s : List Char) : Option (Except String CustomServer) :=
  (stripExe uni s).bind fun s =>
    match find hostText (uni.toLowercase s) with
    | some n =>
      (sliceFrom n s).map fun stripped => .ok ((stripped.splitOn ',').foldl (takeField uni) {})
    | none =>
      match fromLicense crates s with
      | some lic => some (.ok lic)
      | none => some (.error "Failed to parse")

/-! ### The names -/

inductive Kind
  | key
  | api
  | relay
  deriving DecidableEq

namespace Kind

def text : Kind → List Char
  | key => "key=".toList
  | api => "api=".toList
  | relay => "relay=".toList

end Kind

structure Field where
  kind : Kind
  name : List Char
  value : List Char
  inAnyCase : InAnyCase kind.text name
  noComma : ',' ∉ value

/-- The name of an executable from `host=` on. -/
structure Fields where
  hostName : List Char
  host : List Char
  fields : List Field
  inAnyCase : InAnyCase hostText hostName
  noComma : ',' ∉ host
  nodup : (fields.map Field.kind).Nodup

namespace Fields

variable (f : Fields)

def text : List Char :=
  f.hostName ++ f.host ++ f.fields.flatMap (fun field => ',' :: (field.name ++ field.value)) ++
    [',']

def value (kind : Kind) : List Char :=
  ((f.fields.find? fun field => field.kind = kind).map Field.value).getD []

def server : CustomServer where
  key := f.value .key
  host := f.host
  api := f.value .api
  relay := f.value .relay

end Fields

def executable (p : List Char) (f : Fields) : List Char := p ++ f.text ++ ".exe".toList

/-- In front of `host=`: the text ends at the same byte in lower case, or what is behind that byte
ends with a comma and sets no field. -/
def Readable (p : List Char) : Prop :=
  ∃ p₁ p₂, p = p₁ ++ p₂ ∧ byteLen p₁ = uni.lowLen p ∧
    (p₂ = [] ∨ p₂.getLast? = some ',' ∧ (p₂.splitOn ',').foldl (takeField uni) {} = {})

def withoutExe (s : List Char) : List Char :=
  if InAnyCase ".exe.exe".toList (s.drop (s.length - 8)) then s.take (s.length - 8)
  else if InAnyCase ".exe".toList (s.drop (s.length - 4)) then s.take (s.length - 4)
  else s

/-- The text in front of `host=` ends, in lower case, at a byte that is no boundary in the name. -/
def Cut (s : List Char) : Prop :=
  ∃ p name rest, withoutExe s = p ++ name ++ rest ∧ InAnyCase hostText name ∧ ¬ Occurs hostText p ∧
    sliceFrom (uni.lowLen p) (withoutExe s) = none

variable {uni}

/-! ### The end of the name -/

theorem dropEnd_eq {pat s : List Char} (hpat : ∀ a ∈ pat, Solid a)
    (h : InAnyCase pat (s.drop (s.length - pat.length))) :
    dropEnd pat.length s = some (s.take (s.length - pat.length)) := by
  have hlen : byteLen (s.drop (s.length - pat.length)) = pat.length :=
    (byteLen_ascii (h.ascii fun a ha => (hpat a ha).1)).trans h.length_eq
  have hsum : byteLen s = byteLen (s.take (s.length - pat.length)) + pat.length := by
    have happend := byteLen_append (s.take (s.length - pat.length)) (s.drop (s.length - pat.length))
    rw [List.take_append_drop, hlen] at happend
    exact happend
  have hslice := sliceTo_append (s.take (s.length - pat.length)) (s.drop (s.length - pat.length))
  rw [List.take_append_drop] at hslice
  unfold dropEnd
  rw [if_pos (by omega), hsum, Nat.add_sub_cancel]
  exact hslice

theorem stripExe_eq (s : List Char) : stripExe uni s = some (withoutExe s) := by
  have hlong : ∀ a ∈ ".exe.exe".toList, Solid a := by simp [Solid]
  have hshort : ∀ a ∈ ".exe".toList, Solid a := by simp [Solid]
  have hlower := @lowers_toLowercase uni s
  have hiff := isSuffixOf_iff hlower hlong (by decide)
  have hiff' := isSuffixOf_iff hlower hshort (by decide)
  unfold stripExe withoutExe
  by_cases h8 : InAnyCase ".exe.exe".toList (s.drop (s.length - 8))
  · rw [if_pos (hiff.mpr h8), if_pos h8]
    exact dropEnd_eq hlong h8
  · rw [if_neg (mt hiff.mp h8), if_neg h8]
    by_cases h4 : InAnyCase ".exe".toList (s.drop (s.length - 4))
    · rw [if_pos (hiff'.mpr h4), if_pos h4]
      exact dropEnd_eq hshort h4
    · rw [if_neg (mt hiff'.mp h4), if_neg h4]

/-! ### Where the fields begin -/

theorem solid_hostText : ∀ a ∈ hostText, Solid a := by simp [hostText, Solid]

theorem hostText_head : ∀ a rest, hostText = a :: rest → a ∉ rest := by
  rintro a rest heq
  obtain ⟨rfl, rfl⟩ := List.cons.inj heq
  decide

theorem exists_first {s : List Char} (h : Occurs hostText s) : ∃ p name rest,
    s = p ++ name ++ rest ∧ InAnyCase hostText name ∧ ¬ Occurs hostText p := by
  obtain ⟨s₁, s₂, s₃, rfl, hcase⟩ := h
  -- one that is before it is shorter
  induction hn : s₁.length using Nat.strongRecOn generalizing s₁ s₂ s₃ with
  | ind n ih =>
    by_cases h₁ : Occurs hostText s₁
    · obtain ⟨t₁, t₂, t₃, rfl, ht⟩ := h₁
      have hlen : t₂.length = 5 := ht.length_eq
      rw [List.length_append, List.length_append, hlen] at hn
      obtain ⟨p, name, rest, heq, hname, hp⟩ :=
        ih t₁.length (by omega) t₁ t₂ (t₃ ++ s₂ ++ s₃) ht rfl
      exact ⟨p, name, rest, by rw [← heq]; simp only [List.append_assoc], hname, hp⟩
    · exact ⟨s₁, s₂, s₃, rfl, hcase, h₁⟩

theorem getCustomServerFromString_host {s p name rest : List Char}
    (hs : withoutExe s = p ++ name ++ rest) (hname : InAnyCase hostText name)
    (hp : ¬ Occurs hostText p) : getCustomServerFromString uni crates s =
      (sliceFrom (uni.lowLen p) (withoutExe s)).map fun stripped =>
        .ok ((stripped.splitOn ',').foldl (takeField uni) {}) := by
  have hlower := @lowers_toLowercase uni (withoutExe s)
  rw [hs] at hlower
  have hfind := find_eq_some solid_hostText (by decide) hostText_head hp hname hlower
  unfold getCustomServerFromString
  rw [stripExe_eq, Option.bind_some, hs, hfind]

theorem getCustomServerFromString_license {s : List Char}
    (hs : ¬ Occurs hostText (withoutExe s)) : getCustomServerFromString uni crates s ≠ none := by
  have hfind := find_eq_none solid_hostText (by decide) (@lowers_toLowercase uni _) hs
  unfold getCustomServerFromString
  rw [stripExe_eq, Option.bind_some, hfind]
  cases fromLicense crates (withoutExe s) with
  | none | some => simp

theorem eq_none_iff (s : List Char) :
    getCustomServerFromString uni crates s = none ↔ Cut uni s := by
  constructor
  · intro hnone
    by_cases h : Occurs hostText (withoutExe s)
    · obtain ⟨p, name, rest, heq, hname, hp⟩ := exists_first h
      rw [getCustomServerFromString_host crates heq hname hp, Option.map_eq_none_iff] at hnone
      exact ⟨p, name, rest, heq, hname, hp, hnone⟩
    · exact absurd hnone (getCustomServerFromString_license crates h)
  · rintro ⟨p, name, rest, heq, hname, hp, hslice⟩
    rw [getCustomServerFromString_host crates heq hname hp, hslice]
    rfl

/-! ### The fields -/

namespace CustomServer

def get (server : CustomServer) : Kind → List Char
  | .key => server.key
  | .api => server.api
  | .relay => server.relay

def set (server : CustomServer) (kind : Kind) (value : List Char) : CustomServer :=
  match kind with
  | .key => { server with key := value }
  | .api => { server with api := value }
  | .relay => { server with relay := value }

@[simp] theorem host_set (server : CustomServer) (kind : Kind) (value : List Char) :
    (server.set kind value).host = server.host := by cases kind <;> rfl

@[simp] theorem get_set_self (server : CustomServer) (kind : Kind) (value : List Char) :
    (server.set kind value).get kind = value := by cases kind <;> rfl

theorem get_set_of_ne (server : CustomServer) {kind kind' : Kind} (h : kind' ≠ kind)
    (value : List Char) : (server.set kind value).get kind' = server.get kind' := by
  cases kind with
  | key | api | relay => cases kind' <;> first | rfl | exact absurd rfl h

theorem eq_of_get {a b : CustomServer} (hhost : a.host = b.host)
    (h : ∀ kind, a.get kind = b.get kind) : a = b := by
  obtain ⟨key, host, api, relay⟩ := a
  obtain ⟨key', host', api', relay'⟩ := b
  obtain rfl : key = key' := h .key
  obtain rfl : api = api' := h .api
  obtain rfl : relay = relay' := h .relay
  obtain rfl : host = host' := hhost
  rfl

end CustomServer

theorem takeIf_of_inAnyCase {pat name value : List Char} (hpat : ∀ a ∈ pat, a.toNat < 128)
    (h : InAnyCase pat name) (update : CustomServer → List Char → CustomServer)
    (server : CustomServer) :
    takeIf uni pat update (name ++ value) server = update server value := by
  obtain ⟨u, v, hw, hu, -⟩ := (@lowers_toLowercase uni (name ++ value)).of_append
  have hpre : pat.isPrefixOf (uni.toLowercase (name ++ value)) = true := by
    rw [hw, (hu.ascii (h.ascii hpat)).trans h]
    exact List.isPrefixOf_iff_prefix.mpr (List.prefix_append _ _)
  unfold takeIf
  rw [if_pos hpre, ← h.length_eq, List.drop_left]

theorem takeIf_other {pat other name value : List Char} (hpat : ∀ a ∈ pat, a.toNat < 128)
    (h : InAnyCase pat name) (hne : ¬ other <+: pat) (hne' : ¬ pat <+: other)
    (update : CustomServer → List Char → CustomServer) (server : CustomServer) :
    takeIf uni other update (name ++ value) server = server := by
  obtain ⟨u, v, hw, hu, -⟩ := (@lowers_toLowercase uni (name ++ value)).of_append
  have hpre : pat <+: uni.toLowercase (name ++ value) := by
    rw [hw, (hu.ascii (h.ascii hpat)).trans h]
    exact List.prefix_append _ _
  refine if_neg fun hother => ?_
  rcases List.prefix_or_prefix_of_prefix (List.isPrefixOf_iff_prefix.mp hother) hpre with h | h
  · exact hne h
  · exact hne' h

theorem ascii_text (kind : Kind) : ∀ a ∈ kind.text, a.toNat < 128 := by
  cases kind <;> simp [Kind.text]

variable (server : CustomServer)

theorem takeField_field (field : Field) :
    takeField uni server (field.name ++ field.value) = server.set field.kind field.value := by
  obtain ⟨kind, name, value, hcase, -⟩ := field
  have hyes : ∀ update server,
      takeIf uni kind.text update (name ++ value) server = update server value :=
    takeIf_of_inAnyCase (ascii_text kind) hcase
  have hno (other : List Char) (hne : ¬ other <+: kind.text) (hne' : ¬ kind.text <+: other) :
      ∀ update server, takeIf uni other update (name ++ value) server = server :=
    takeIf_other (ascii_text kind) hcase hne hne'
  unfold takeField
  dsimp only
  cases kind with
  | key =>
    rw [hno "host=".toList (by decide) (by decide), hno "api=".toList (by decide) (by decide),
      hno "relay=".toList (by decide) (by decide)]
    exact hyes _ server
  | api =>
    rw [hno "host=".toList (by decide) (by decide), hno "key=".toList (by decide) (by decide),
      hno "relay=".toList (by decide) (by decide)]
    exact hyes _ server
  | relay =>
    rw [hno "host=".toList (by decide) (by decide), hno "key=".toList (by decide) (by decide),
      hno "api=".toList (by decide) (by decide)]
    exact hyes _ server

theorem takeField_host {name host : List Char} (h : InAnyCase hostText name) : takeField uni server
    (name ++ host) = { server with host := host } := by
  have hascii : ∀ a ∈ hostText, a.toNat < 128 := fun a ha => (solid_hostText a ha).1
  have hno (other : List Char) (hne : ¬ other <+: hostText) (hne' : ¬ hostText <+: other) :
      ∀ update server, takeIf uni other update (name ++ host) server = server :=
    takeIf_other hascii h hne hne'
  unfold takeField
  dsimp only
  rw [hno "key=".toList (by decide) (by decide), hno "api=".toList (by decide) (by decide),
    hno "relay=".toList (by decide) (by decide)]
  exact takeIf_of_inAnyCase hascii h _ server

theorem takeField_nil : takeField uni server [] = server := rfl

theorem host_takeField (el : List Char) :
    (takeField uni server el).host = server.host ∨
      InAnyCase hostText (el.take 5) ∧ (takeField uni server el).host = el.drop 5 := by
  have hkeep (name el : List Char) (update : CustomServer → List Char → CustomServer)
      (hupdate : ∀ server value, (update server value).host = server.host) (server : CustomServer) :
      (takeIf uni name update el server).host = server.host := by
    unfold takeIf
    split
    · exact hupdate _ _
    · rfl
  have hhost : (takeField uni server el).host = (takeIf uni hostText
      (fun server host => { server with host := host }) el server).host :=
    (hkeep _ _ (fun server relay => { server with relay := relay }) (fun _ _ => rfl) _).trans
      ((hkeep _ _ (fun server api => { server with api := api }) (fun _ _ => rfl) _).trans
        (hkeep _ _ (fun server key => { server with key := key }) (fun _ _ => rfl) _))
  rw [hhost]
  unfold takeIf
  split
  · next hpre =>
    refine Or.inr ⟨?_, rfl⟩
    obtain ⟨v, hv⟩ := List.isPrefixOf_iff_prefix.mp hpre
    have hlower := @lowers_toLowercase uni el
    rw [← hv] at hlower
    obtain ⟨s₁, s₂, rfl, hcase, -⟩ := hlower.exists_of_prefix solid_hostText
    rw [show 5 = s₁.length from hcase.length_eq.symm, List.take_left]
    exact hcase
  · exact Or.inl rfl

theorem host_foldl (parts : List (List Char)) :
    (parts.foldl (takeField uni) server).host = server.host ∨
      ∃ el ∈ parts, InAnyCase hostText (el.take 5) ∧
        (parts.foldl (takeField uni) server).host = el.drop 5 := by
  induction parts generalizing server with
  | nil => exact Or.inl rfl
  | cons el parts ih =>
    rw [List.foldl_cons]
    rcases ih (takeField uni server el) with heq | ⟨el', hel', hcase, heq⟩
    · rw [heq]
      rcases @host_takeField uni server el with hkeep | ⟨hcase, hset⟩
      · exact Or.inl hkeep
      · exact Or.inr ⟨el, List.mem_cons_self, hcase, hset⟩
    · exact Or.inr ⟨el', List.mem_cons_of_mem _ hel', hcase, heq⟩

/-! ### The parts of a name -/

theorem comma_not_mem_name {pat name : List Char} (h : InAnyCase pat name) (hpat : ',' ∉ pat) :
    ',' ∉ name := by
  intro hmem
  have hlower : Char.toLower ',' ∈ pat := h ▸ List.mem_map_of_mem hmem
  exact hpat hlower

theorem splitOn_text (f : Fields) : f.text.splitOn ',' = (f.hostName ++ f.host) ::
    (f.fields.map fun field => field.name ++ field.value) ++ [[]] := by
  have hparts (first : List Char) (hfirst : ',' ∉ first) (fields : List Field) :
      (first ++ fields.flatMap (fun field => ',' :: (field.name ++ field.value)) ++
        [',']).splitOn ',' =
      first :: (fields.map fun field => field.name ++ field.value) ++ [[]] := by
    induction fields generalizing first with
    | nil =>
      rw [List.flatMap_nil, List.append_nil, List.splitOn_append_cons_self_of_not_mem hfirst]
      rfl
    | cons field fields ih =>
      have hfield : ',' ∉ field.name ++ field.value := by
        rw [List.mem_append, not_or]
        refine ⟨comma_not_mem_name field.inAnyCase ?_, field.noComma⟩
        cases field.kind <;> decide
      rw [List.flatMap_cons, List.cons_append, List.append_assoc, List.cons_append,
        List.splitOn_append_cons_self_of_not_mem hfirst, ih _ hfield]
      rfl
  refine hparts _ ?_ f.fields
  rw [List.mem_append, not_or]
  exact ⟨comma_not_mem_name f.inAnyCase (by decide), f.noComma⟩

theorem get_foldl_set {fields : List Field}
    (h : (fields.map Field.kind).Nodup) (kind : Kind) :
    (fields.foldl (fun server field => server.set field.kind field.value) server).get kind =
      ((fields.find? fun field => field.kind = kind).map Field.value).getD (server.get kind) := by
  induction fields generalizing server with
  | nil => rfl
  | cons field fields ih =>
    obtain ⟨hnot, hnodup⟩ := List.nodup_cons.mp h
    rw [List.foldl_cons, ih _ hnodup]
    by_cases hkind : field.kind = kind
    · -- it is not set again
      have hnone : fields.find? (fun field => field.kind = kind) = none := by
        rw [List.find?_eq_none]
        intro field' hmem heq
        exact hnot (hkind ▸ of_decide_eq_true heq ▸ List.mem_map_of_mem hmem)
      rw [hnone, List.find?_cons_of_pos (by simpa using hkind), ← hkind]
      exact CustomServer.get_set_self _ _ _
    · rw [List.find?_cons_of_neg (by simpa using hkind),
        CustomServer.get_set_of_ne _ (Ne.symm hkind)]

theorem host_foldl_set (fields : List Field) :
    (fields.foldl (fun server field => server.set field.kind field.value) server).host =
      server.host := by
  induction fields generalizing server with
  | nil => rfl
  | cons field fields ih => rw [List.foldl_cons, ih, CustomServer.host_set]

theorem foldl_text (f : Fields) : (f.text.splitOn ',').foldl (takeField uni) {} = f.server := by
  have hfields (server : CustomServer) (fields : List Field) :
      (fields.map fun field => field.name ++ field.value).foldl (takeField uni) server =
        fields.foldl (fun server field => server.set field.kind field.value) server := by
    induction fields generalizing server with
    | nil => rfl
    | cons field fields ih =>
      rw [List.map_cons, List.foldl_cons, takeField_field, ih, List.foldl_cons]
  rw [splitOn_text, List.cons_append, List.foldl_cons, List.foldl_append,
    takeField_host _ f.inAnyCase, hfields, List.foldl_cons, takeField_nil, List.foldl_nil]
  refine CustomServer.eq_of_get ?_ fun kind => ?_
  · exact host_foldl_set _ _
  · rw [get_foldl_set _ f.nodup]
    cases kind <;> rfl

/-! ### Names that are read -/

theorem withoutExe_executable (p : List Char) (f : Fields) :
    withoutExe (executable p f) = p ++ f.text := by
  have hlen : (executable p f).length = (p ++ f.text).length + 4 := by
    unfold executable
    rw [List.length_append]
    rfl
  have hend : ",.exe".toList <:+ executable p f := by
    refine ⟨p ++ (f.hostName ++ f.host ++
      f.fields.flatMap fun field => ',' :: (field.name ++ field.value)), ?_⟩
    unfold executable Fields.text
    rw [show ",.exe".toList = [','] ++ ".exe".toList from rfl]
    simp only [List.append_assoc]
  have hlong : ¬ InAnyCase ".exe.exe".toList
      ((executable p f).drop ((executable p f).length - 8)) := by
    intro hcase
    -- there is a comma in front of the last four letters
    have hsuffix : ",.exe".toList <:+ (executable p f).drop ((executable p f).length - 8) := by
      refine List.suffix_of_suffix_length_le hend (List.drop_suffix _ _) ?_
      rw [hcase.length_eq]
      decide
    have hmap := hsuffix.map Char.toLower
    rw [hcase] at hmap
    exact absurd hmap (by decide)
  have hdrop : (executable p f).drop ((executable p f).length - 4) = ".exe".toList := by
    rw [hlen, Nat.add_sub_cancel]
    exact List.drop_left
  have hshort : InAnyCase ".exe".toList ((executable p f).drop ((executable p f).length - 4)) := by
    rw [hdrop]
    rfl
  unfold withoutExe
  rw [if_neg hlong, if_pos hshort, hlen, Nat.add_sub_cancel]
  exact List.take_left

variable {p : List Char}

theorem getCustomServerFromString_executable (hp : ¬ Occurs hostText p)
    (f : Fields) : getCustomServerFromString uni crates (executable p f) =
      (sliceFrom (uni.lowLen p) (p ++ f.text)).map fun stripped =>
        .ok ((stripped.splitOn ',').foldl (takeField uni) {}) := by
  have hwithout := withoutExe_executable p f
  have hsplit : withoutExe (executable p f) = p ++ f.hostName ++ (f.host ++
      f.fields.flatMap (fun field => ',' :: (field.name ++ field.value)) ++ [',']) := by
    rw [hwithout]
    unfold Fields.text
    simp only [List.append_assoc]
  rw [getCustomServerFromString_host crates hsplit f.inAnyCase hp, hwithout]

theorem reads_of_readable (hp : ¬ Occurs hostText p) (h : Readable uni p)
    (f : Fields) : getCustomServerFromString uni crates (executable p f) = some (.ok f.server) := by
  obtain ⟨p₁, p₂, rfl, hlen, hrest⟩ := h
  have hslice : sliceFrom (uni.lowLen (p₁ ++ p₂)) (p₁ ++ p₂ ++ f.text) = some (p₂ ++ f.text) := by
    rw [← hlen, List.append_assoc]
    exact sliceFrom_append p₁ _
  rw [getCustomServerFromString_executable crates hp, hslice, Option.map_some]
  refine congrArg (some ∘ Except.ok) ?_
  rcases hrest with rfl | ⟨hlast, hnothing⟩
  · exact foldl_text f
  · -- the parts before the last comma set nothing
    obtain ⟨p₃, rfl⟩ : ∃ p₃, p₂ = p₃ ++ [','] :=
      ⟨p₂.dropLast, (List.dropLast_append_getLast? ',' hlast).symm⟩
    rw [List.splitOn_append_cons_self, List.splitOn_nil, List.foldl_append, List.foldl_cons,
      takeField_nil, List.foldl_nil] at hnothing
    rw [List.append_assoc, List.singleton_append, List.splitOn_append_cons_self, List.foldl_append,
      hnothing, foldl_text]

def oneLetter : Fields where
  hostName := hostText
  host := ['x']
  fields := []
  inAnyCase := rfl
  noComma := by decide
  nodup := List.nodup_nil

theorem exists_last {a : Char} {s : List Char} (h : a ∈ s) : ∃ t u, s = t ++ a :: u ∧ a ∉ u := by
  obtain ⟨t, u, heq, hnot⟩ := List.eq_append_cons_of_mem (List.mem_reverse.mpr h)
  refine ⟨u.reverse, t.reverse, ?_, fun hmem => hnot (List.mem_reverse.mp hmem)⟩
  rw [← List.reverse_reverse s, heq, List.reverse_append, List.reverse_cons, List.append_assoc]
  rfl

theorem readable_of_reads (hp : ¬ Occurs hostText p)
    (h : getCustomServerFromString uni crates (executable p oneLetter) =
      some (.ok oneLetter.server)) : Readable uni p := by
  rw [getCustomServerFromString_executable crates hp] at h
  obtain ⟨t, hslice, hok⟩ := Option.map_eq_some_iff.mp h
  have hserver : (t.splitOn ',').foldl (takeField uni) {} = oneLetter.server := Except.ok.inj hok
  -- some part is the host, and it is as long as that
  have hpart : ∃ el ∈ t.splitOn ',', InAnyCase hostText (el.take 5) ∧ el.length = 6 := by
    rcases @host_foldl uni {} (t.splitOn ',') with heq | ⟨el, hel, hcase, heq⟩
    · rw [hserver] at heq
      cases heq
    · rw [hserver] at heq
      have hlen := congrArg List.length heq
      rw [List.length_drop] at hlen
      have hone : oneLetter.server.host.length = 1 := rfl
      exact ⟨el, hel, hcase, by omega⟩
  obtain ⟨el, hel, hcase, hsix⟩ := hpart
  obtain ⟨a, heq, hlen⟩ := sliceFrom_eq_some_iff.mp hslice
  have htext : oneLetter.text = "host=x".toList ++ [','] := rfl
  -- no part of the text in front is the host
  have hnot {c₁ c₂ c₃ : List Char} (hpc : p = c₁ ++ c₂ ++ c₃) {el : List Char}
      (hel : el ∈ c₂.splitOn ',') : ¬ InAnyCase hostText (el.take 5) := by
    intro hcase
    obtain ⟨b₁, b₂, rfl⟩ := infix_of_mem_splitOn hel
    refine hp ⟨c₁ ++ b₁, el.take 5, el.drop 5 ++ b₂ ++ c₃, ?_, hcase⟩
    rw [hpc]
    nth_rewrite 1 [← List.take_append_drop 5 el]
    simp only [List.append_assoc]
  rcases List.append_eq_append_iff.mp heq with ⟨a', rfl, htail⟩ | ⟨c, rfl, rfl⟩
  · -- a slice that begins behind `p` has no part that is long enough
    have hshort : ∀ k ∈ List.range 8, k ≠ 0 →
        ∀ el ∈ (oneLetter.text.drop k).splitOn ',', el.length ≠ 6 := by decide
    have ht : t = oneLetter.text.drop a'.length := by rw [htail, List.drop_left]
    have hle : a'.length < 8 := by
      have hlength := congrArg List.length htail
      have hseven : oneLetter.text.length = 7 := rfl
      rw [List.length_append] at hlength
      omega
    by_cases hzero : a'.length = 0
    · obtain rfl := List.length_eq_zero_iff.mp hzero
      rw [List.append_nil] at hlen
      exact ⟨p, [], (List.append_nil p).symm, hlen, Or.inl rfl⟩
    · rw [ht] at hel
      exact absurd hsix (hshort _ (List.mem_range.mpr hle) hzero el hel)
  · rw [htext, ← List.append_assoc] at hel hserver
    -- what is behind the last comma of `c` is in front of the host
    have hlast {c₃ c₄ : List Char} (hc : a ++ c = c₃ ++ c₄) (hcomma : ',' ∉ c₄)
        (hmem : el ∈ (c₄ ++ "host=x".toList ++ [',']).splitOn ',') : c₄ = [] := by
      have hnot' : ',' ∉ c₄ ++ "host=x".toList := by
        rw [List.mem_append, not_or]
        exact ⟨hcomma, by decide⟩
      rw [List.splitOn_append_cons_self_of_not_mem hnot', List.splitOn_nil] at hmem
      rcases List.mem_cons.mp hmem with rfl | hmem
      · rw [List.length_append] at hsix
        have hlength : "host=x".toList.length = 6 := rfl
        exact List.length_eq_zero_iff.mp (by omega)
      · obtain rfl := List.mem_singleton.mp hmem
        cases hsix
    by_cases hcomma : ',' ∈ c
    · obtain ⟨c₃, c₄, rfl, hbehind⟩ := exists_last hcomma
      have hassoc : c₃ ++ ',' :: c₄ ++ "host=x".toList ++ [','] =
          c₃ ++ ',' :: (c₄ ++ "host=x".toList ++ [',']) := by simp only [List.append_assoc,
            List.cons_append]
      rw [hassoc, List.splitOn_append_cons_self] at hel hserver
      have hbefore {el : List Char} (hmem : el ∈ c₃.splitOn ',') :
          ¬ InAnyCase hostText (el.take 5) :=
        @hnot a _ (',' :: c₄) (List.append_assoc _ _ _).symm _ hmem
      rcases List.mem_append.mp hel with hmem | hmem
      · exact absurd hcase (hbefore hmem)
      · obtain rfl := @hlast (a ++ c₃ ++ [',']) _ (by simp) hbehind hmem
        refine ⟨a, c₃ ++ [','], rfl, hlen, Or.inr ⟨List.getLast?_concat, ?_⟩⟩
        rw [List.splitOn_append_cons_self, List.splitOn_nil, List.foldl_append, List.foldl_cons,
          takeField_nil, List.foldl_nil]
        -- the parts before it set no host, and the host sets nothing else
        have hparts : ([] ++ "host=x".toList ++ [','] : List Char).splitOn ',' =
            [hostText ++ ['x'], []] := rfl
        rw [List.foldl_append, hparts, List.foldl_cons, List.foldl_cons, takeField_nil,
          List.foldl_nil, takeField_host _ (show InAnyCase hostText hostText from rfl)] at hserver
        have hhost : ((c₃.splitOn ',').foldl (takeField uni) {}).host = [] := by
          rcases @host_foldl uni {} (c₃.splitOn ',') with heq | ⟨el, hel, hcase, -⟩
          · exact heq
          · exact absurd hcase (hbefore hel)
        refine CustomServer.eq_of_get hhost fun kind => ?_
        have hget := congrArg (fun server => CustomServer.get server kind) hserver
        cases kind with
        | key | api | relay => exact hget
    · obtain rfl := @hlast a _ rfl hcomma hel
      exact ⟨a, [], rfl, hlen, Or.inl rfl⟩

/-- **Exactly which names are read, and which end the thread.** Behind a text without `host=` all
names are read if and only if it is readable; and a thread ends for the names that are cut. -/
theorem reads_iff_readable (uni : Unicode) (crates : Crates) :
    (∀ p, ¬ Occurs hostText p →
      ((∀ f : Fields,
          getCustomServerFromString uni crates (executable p f) = some (.ok f.server)) ↔
        Readable uni p)) ∧
    ∀ s, getCustomServerFromString uni crates s = none ↔ Cut uni s := by
  refine ⟨fun p hp => ⟨fun hreads => ?_, fun hreadable f => ?_⟩, eq_none_iff crates⟩
  · exact readable_of_reads crates hp (hreads oneLetter)
  · exact reads_of_readable crates hp hreadable f

/-- What these letters become: those of ASCII, and the ones that become some of ASCII. -/
def sampleUnicode : Unicode where
  lower c :=
    if c.toNat < 128 then [c.toLower]
    else if c = '\u0130' then ['i', '\u0307']
    else if c = '\u212a' then ['k']
    else if c = 'Σ' then ['σ']
    else [c]
  isFinal _ _ := false
  ascii _ h := if_pos h
  dotted := rfl
  kelvin := rfl
  sigma := rfl
  other c hc hdotted hkelvin a ha := by
    rw [if_neg (by omega), if_neg hdotted, if_neg hkelvin] at ha
    split at ha
    · rw [List.mem_singleton.mp ha]
      decide
    · rw [List.mem_singleton.mp ha]
      exact hc
  ne_nil c := by
    split
    · exact List.cons_ne_nil _ _
    · split
      · exact List.cons_ne_nil _ _
      · split
        · exact List.cons_ne_nil _ _
        · split
          · exact List.cons_ne_nil _ _
          · exact List.cons_ne_nil _ _

def noCrates : Crates where
  decode _ := none
  fromSlice _ := none
  verify _ _ := none
  isWhitespace c := c.isWhitespace

/-- A dotted `İ` in front takes the `h` off, a Kelvin sign ends the thread, and with a plain `k` the
name is read. -/
theorem dotted_lost :
    getCustomServerFromString sampleUnicode noCrates "\u0130host=example.org,key=x,.exe".toList =
      some (.ok { key := "x".toList }) ∧
    getCustomServerFromString sampleUnicode noCrates "\u212ahost=example.org,.exe".toList = none ∧
    getCustomServerFromString sampleUnicode noCrates "khost=example.org,.exe".toList =
      some (.ok { host := "example.org".toList }) := by
  decide +kernel

end LibRustdesk.CustomServers
