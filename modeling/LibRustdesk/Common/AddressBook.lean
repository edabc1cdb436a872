import LibRustdesk.Common.Compress
import LibRustdesk.Ohos.PermanentPassword

/-!
# The files of the address book and of the group

`Ab::store`, `Ab::load`, `Group::store` and `Group::load` of `libs/hbb_common/src/config.rs`, with
`compress` and `symmetric_crypt`. The two books are kept by the same code, so `BookFile.store` and
`BookFile.load` are written once, for a book `β` with its default and with the function that reads
it from text; `Ab` and `Group` are the two instances.

A book is stored as its text: compressed, sealed under the key of the machine, and written over
the file. `store` creates the file first, which cuts it to nothing, and finds out after that
whether there is anything to write. `load` deletes what it cannot decode.

`serde_json::from_str` is a parameter (`parse`). The file system is the content of the one file;
whether it can be created comes with the call, and what is written to a created file arrives.

* `Stored` — the file could be created, the text was compressed, and within the limit.
* `Kept` — what is promised of a store: the next load returns the book that was stored, or, where
  it could not be stored, the book that would have been loaded before.
* `load_store` — what the next load returns, in each case.
* `kept_iff` — the promise is kept of a failed store only where there was nothing to lose: the
  file could not even be created, or it held no book but the default one.
-/

namespace LibRustdesk

open LittleEndian Ohos

/-! ### The books -/

structure AbPeer where
  id : List Char
  hash : List Char
  username : List Char
  hostname : List Char
  platform : List Char
  «alias» : List Char
  tags : List (List Char)
  deriving DecidableEq

structure AbEntry where
  guid : List Char
  name : List Char
  peers : List AbPeer
  tags : List (List Char)
  tagColors : List Char
  deriving DecidableEq

structure Ab where
  accessToken : List Char
  abEntries : List AbEntry
  deriving DecidableEq

structure GroupUser where
  name : List Char
  displayName : List Char
  deriving DecidableEq

structure GroupPeer where
  id : List Char
  username : List Char
  hostname : List Char
  platform : List Char
  loginName : List Char
  deriving DecidableEq

structure DeviceGroup where
  name : List Char
  deriving DecidableEq

structure Group where
  accessToken : List Char
  users : List GroupUser
  peers : List GroupPeer
  deviceGroups : List DeviceGroup
  deriving DecidableEq

def Ab.default : Ab := ⟨[], []⟩

def Group.default : Group := ⟨[], [], [], []⟩

/-! ### Storing and loading -/

namespace BookFile

def maxLen : ℕ := 67108864

abbrev File := Option Bytes

section Code

variable (crypto : StorageCrypto) (config : Ohos.Config) (z : Zstd)

/-- `create` says whether the file can be created, `nonce` is the one that the seal draws. -/
def store (create : Bool) (nonce : GenNonce) (json : List Char) (file : File) : File :=
  match create with
  | false => file
  | true =>
    -- from here on the old content is gone
    let file := some []
    let data := compress z (asBytes json)
    if data.length > maxLen then file
    else some (symmetricEncrypt crypto config nonce data)

def load {β : Type} (parse : List Char → Option β) (default : β) (file : File) : β × File :=
  match file with
  | some data =>
    match symmetricDecrypt crypto.toCrypto config data with
    | some data =>
      match parse (fromUtf8Lossy (decompress z data)) with
      | some book => (book, file)
      | none => (default, none)
    | none => (default, none)
  | none => (default, none)

end Code

end BookFile

namespace Ab

variable (crypto : StorageCrypto) (config : Ohos.Config) (z : Zstd)

def store (create : Bool) (nonce : GenNonce) (json : List Char) (file : BookFile.File) :
    BookFile.File :=
  BookFile.store crypto config z create nonce json file

def load (parse : List Char → Option Ab) (file : BookFile.File) : Ab × BookFile.File :=
  BookFile.load crypto config z parse Ab.default file

end Ab

namespace Group

variable (crypto : StorageCrypto) (config : Ohos.Config) (z : Zstd)

def store (create : Bool) (nonce : GenNonce) (json : List Char) (file : BookFile.File) :
    BookFile.File :=
  BookFile.store crypto config z create nonce json file

def load (parse : List Char → Option Group) (file : BookFile.File) : Group × BookFile.File :=
  BookFile.load crypto config z parse Group.default file

end Group

namespace BookFile

section Results

variable {β : Type} (crypto : StorageCrypto) (config : Ohos.Config) (z : Zstd)
variable (parse : List Char → Option β)

/-! ### What is promised -/

/-- A file holds a book: its content opens, and the text in it is read as the book. -/
def Holds (file : File) (book : β) : Prop :=
  ∃ content packed, file = some content ∧
    symmetricDecrypt crypto.toCrypto config content = some packed ∧
    parse (fromUtf8Lossy (decompress z packed)) = some book

/-- The data could be stored: no step of `store` failed. -/
def Stored (create : Bool) (json : List Char) : Prop :=
  create = true ∧ (z.compressor (asBytes json)).isSome = true ∧
    (compress z (asBytes json)).length ≤ maxLen

instance (create : Bool) (json : List Char) : Decidable (Stored z create json) :=
  inferInstanceAs (Decidable (_ ∧ _ ∧ _))

/-- After a store that began with `before` and left `after`, the next load returns the book that
was stored; or it returns what it would have returned before, if the data could not be stored. -/
def Kept (load : File → β × File) (create : Bool) (json : List Char) (before after : File) : Prop :=
  parse json = some (load after).1 ∨
    (¬ Stored z create json ∧ (load after).1 = (load before).1)

/-! ### Loading -/

variable {crypto config z parse} {default : β}

theorem load_of_holds {file : File} {book : β} (h : Holds crypto config z parse file book) :
    load crypto config z parse default file = (book, file) := by
  obtain ⟨content, packed, rfl, hopen, hparse⟩ := h
  unfold load
  dsimp only
  rw [hopen]
  dsimp only
  rw [hparse]

theorem load_of_not_holds {file : File} (h : ∀ book, ¬ Holds crypto config z parse file book) :
    load crypto config z parse default file = (default, none) := by
  cases file with
  | none => rfl
  | some content =>
    unfold load
    dsimp only
    cases hopen : symmetricDecrypt crypto.toCrypto config content with
    | none => rfl
    | some packed =>
      dsimp only
      cases hparse : parse (fromUtf8Lossy (decompress z packed)) with
      | none => rfl
      | some book => exact absurd ⟨content, packed, rfl, hopen, hparse⟩ (h book)

theorem load_eq_default_iff (file : File) :
    (load crypto config z parse default file).1 = default ↔
      ∀ book, Holds crypto config z parse file book → book = default := by
  constructor
  · intro h book hbook
    rw [load_of_holds hbook] at h
    exact h
  · intro h
    by_cases hbook : ∃ book, Holds crypto config z parse file book
    · obtain ⟨book, hbook⟩ := hbook
      rw [load_of_holds hbook]
      exact h book hbook
    · rw [load_of_not_holds fun book hholds => hbook ⟨book, hholds⟩]

/-! ### Storing -/

variable (hlaw : crypto.Lawful)
  (hshort : ∀ c n k, c.length < macBytes → crypto.box.openBox c n k = none)
  (hundone : z.UndoneBy z) (hnil : decompress z [] = []) (hempty : parse [] = none)

variable {json : List Char}

theorem store_of_le (hlen : (compress z (asBytes json)).length ≤ maxLen)
    (nonce : GenNonce) (file : File) : store crypto config z true nonce json file =
      some (symmetricEncrypt crypto config nonce (compress z (asBytes json))) :=
  if_neg (Nat.not_lt.mpr hlen)

theorem store_of_gt (hlen : maxLen < (compress z (asBytes json)).length)
    (nonce : GenNonce) (file : File) : store crypto config z true nonce json file = some [] :=
  if_pos hlen

include hlaw in
theorem holds_sealed (nonce : GenNonce) (packed : Bytes) (book : β) :
    Holds crypto config z parse (some (symmetricEncrypt crypto config nonce packed)) book ↔
      parse (fromUtf8Lossy (decompress z packed)) = some book := by
  constructor
  · rintro ⟨content, packed', hcontent, hopen, hparse⟩
    cases hcontent
    rw [symmetricDecrypt_encrypt hlaw] at hopen
    cases hopen
    exact hparse
  · intro hparse
    exact ⟨_, packed, rfl, symmetricDecrypt_encrypt hlaw config nonce packed, hparse⟩

include hshort in
theorem not_holds_empty (book : β) : ¬ Holds crypto config z parse (some []) book := by
  rintro ⟨content, packed, hcontent, hopen, -⟩
  cases hcontent
  have hbox (n k : Bytes) : crypto.box.openBox [] n k = none := hshort [] n k (by decide)
  have hpayload (key : Bytes) : openSecretboxPayload crypto.toCrypto [] key = none := by
    unfold openSecretboxPayload
    rw [if_neg (fun h => absurd h.1 (by decide))]
    exact hbox _ _
  unfold symmetricDecrypt at hopen
  rw [hpayload] at hopen
  dsimp only at hopen
  split at hopen
  · split at hopen
    · rw [hpayload] at hopen
      cases hopen
    · cases hopen
  · cases hopen

include hlaw hundone in
theorem load_stored {create : Bool} (h : Stored z create json)
    (nonce : GenNonce) (file : File) :
    (load crypto config z parse default (store crypto config z create nonce json file)).1 =
      (parse json).getD default := by
  obtain ⟨rfl, hsome, hlen⟩ := h
  obtain ⟨out, hout⟩ := Option.isSome_iff_exists.mp hsome
  have hpacked : compress z (asBytes json) = out := by
    unfold compress
    rw [hout, Option.getD_some]
  have hunpacked : decompress z out = asBytes json := by
    unfold decompress
    rw [hundone _ _ hout, Option.getD_some]
  have hholds (book : β) : Holds crypto config z parse
      (some (symmetricEncrypt crypto config nonce out)) book ↔ parse json = some book := by
    rw [holds_sealed hlaw, hunpacked, fromUtf8Lossy_asBytes]
  rw [store_of_le hlen, hpacked]
  cases hparse : parse json with
  | some book => rw [load_of_holds ((hholds book).mpr hparse), Option.getD_some]
  | none =>
    have hnot : ∀ book, ¬ Holds crypto config z parse
        (some (symmetricEncrypt crypto config nonce out)) book := by
      intro book hbook
      exact Option.some_ne_none book (((hholds book).mp hbook).symm.trans hparse)
    rw [load_of_not_holds hnot, Option.getD_none]

include hlaw hshort hnil hempty in
theorem not_holds_of_failed (h : ¬ Stored z true json) (nonce : GenNonce) (file : File) (book : β) :
    ¬ Holds crypto config z parse (store crypto config z true nonce json file) book := by
  by_cases hlen : (compress z (asBytes json)).length ≤ maxLen
  · -- the compressor failed, and the empty vector in its place is sealed as if it were data
    have hnone : z.compressor (asBytes json) = none := by
      refine Option.not_isSome_iff_eq_none.mp fun hsome => ?_
      exact h ⟨rfl, hsome, hlen⟩
    have hpacked : compress z (asBytes json) = [] := by
      unfold compress
      rw [hnone, Option.getD_none]
    rw [store_of_le hlen, hpacked, holds_sealed hlaw, hnil]
    intro hparse
    exact Option.some_ne_none book (hparse.symm.trans hempty)
  · rw [store_of_gt (Nat.not_le.mp hlen)]
    exact not_holds_empty hshort book

include hlaw hshort hundone hnil hempty in
theorem load_store (create : Bool) (nonce : GenNonce) (json : List Char) (file : File) :
    (load crypto config z parse default (store crypto config z create nonce json file)).1 =
      if Stored z create json then (parse json).getD default
      else if create = false then (load crypto config z parse default file).1
      else default := by
  by_cases hstored : Stored z create json
  · rw [if_pos hstored]
    exact load_stored hlaw hundone hstored nonce file
  · rw [if_neg hstored]
    cases create with
    | false => rfl
    | true =>
      have hnot : ∀ book, ¬ Holds crypto config z parse
          (store crypto config z true nonce json file) book :=
        not_holds_of_failed hlaw hshort hnil hempty hstored nonce file
      rw [load_of_not_holds hnot]
      rfl

/-- What the promise comes to: of a store that succeeds, that its text is a book; of one that
fails, that the file was not touched or that there was nothing to lose. -/
def Spared (crypto : StorageCrypto) (config : Ohos.Config) (z : Zstd) (parse : List Char → Option β)
    (default : β) (create : Bool) (json : List Char) (file : File) : Prop :=
  if Stored z create json then (parse json).isSome = true
  else create = false ∨ parse json = some default ∨
    ∀ book, Holds crypto config z parse file book → book = default

include hlaw hshort hundone hnil hempty in
theorem kept_iff (create : Bool) (nonce : GenNonce) (json : List Char) (file : File) :
    Kept z parse (load crypto config z parse default) create json file
        (store crypto config z create nonce json file) ↔
      Spared crypto config z parse default create json file := by
  unfold Kept Spared
  rw [load_store hlaw hshort hundone hnil hempty]
  by_cases hstored : Stored z create json
  · rw [if_pos hstored, if_pos hstored]
    constructor
    · rintro (hparse | ⟨hnot, -⟩)
      · rw [hparse]
        rfl
      · exact absurd hstored hnot
    · intro hsome
      obtain ⟨book, hbook⟩ := Option.isSome_iff_exists.mp hsome
      refine .inl ?_
      rw [hbook, Option.getD_some]
  · rw [if_neg hstored, if_neg hstored]
    cases create with
    | false =>
      rw [if_pos rfl]
      exact iff_of_true (.inr ⟨hstored, rfl⟩) (.inl rfl)
    | true =>
      rw [if_neg Bool.noConfusion]
      constructor
      · rintro (hparse | ⟨-, hsame⟩)
        · exact .inr (.inl hparse)
        · exact .inr (.inr ((load_eq_default_iff file).mp hsame.symm))
      · rintro (hfalse | hparse | hnothing)
        · exact Bool.noConfusion hfalse
        · exact .inl hparse
        · exact .inr ⟨hstored, ((load_eq_default_iff file).mpr hnothing).symm⟩

end Results

/-! ### Both books -/

/-- **A store is harmless only where it succeeds, or where there is nothing to lose.** For the
address book and for the group, whatever the file held: the promise is kept exactly of the stores
that `Spared` describes. -/
theorem books_kept_iff {crypto : StorageCrypto} {config : Ohos.Config} {z : Zstd}
    (hlaw : crypto.Lawful)
    (hshort : ∀ c n k, c.length < macBytes → crypto.box.openBox c n k = none)
    (hundone : z.UndoneBy z) (hnil : decompress z [] = [])
    {parseAb : List Char → Option Ab} (hab : parseAb [] = none)
    {parseGroup : List Char → Option Group} (hgroup : parseGroup [] = none)
    (create : Bool) (nonce : GenNonce) (json : List Char) (file : File) :
    (Kept z parseAb (Ab.load crypto config z parseAb) create json file
        (Ab.store crypto config z create nonce json file) ↔
      Spared crypto config z parseAb Ab.default create json file) ∧
    (Kept z parseGroup (Group.load crypto config z parseGroup) create json file
        (Group.store crypto config z create nonce json file) ↔
      Spared crypto config z parseGroup Group.default create json file) :=
  ⟨kept_iff hlaw hshort hundone hnil hab create nonce json file,
    kept_iff hlaw hshort hundone hnil hgroup create nonce json file⟩

/-! ### A book that is too large -/

/-- A text that says the token of a book, and nothing else. -/
def ofToken (token : List Char) : List Char :=
  "\x7b\"access_token\":\"".toList ++ (token ++ "\"\x7d".toList)

/-- What is read from such a text, and from the empty one. -/
def readToken {β : Type} (book : List Char → β) (text : List Char) : Option β :=
  if "\x7b\"access_token\":\"".toList <+: text then
    some (book ((text.drop 17).takeWhile fun c => c != '"'))
  else none

theorem readToken_ofToken {β : Type} (book : List Char → β) {token : List Char}
    (h : ∀ c ∈ token, (c != '"') = true) :
    readToken book (ofToken token) = some (book token) := by
  unfold readToken ofToken
  rw [if_pos (List.prefix_append _ _), List.drop_left' (by decide),
    List.takeWhile_append_of_pos h]
  have hstop : "\"\x7d".toList.takeWhile (fun c => c != '"') = [] := by decide
  rw [hstop, List.append_nil]

theorem plainCrypto_short (c n k : Bytes) (h : c.length < macBytes) :
    plainCrypto.box.openBox c n k = none := by
  refine if_neg fun htag => ?_
  have hlen := congrArg List.length htag
  rw [List.length_take, List.length_take, List.length_append, List.length_replicate] at hlen
  omega

/-- The book with the token `a`, in its file. -/
def oneBook : File :=
  Ab.store plainCrypto plainConfig .storing true plainRandom.storeNonce (ofToken ['a']) none

def tooLarge : List Char := ofToken (List.replicate maxLen 'b')

theorem tooLarge_length : maxLen < (compress .storing (asBytes tooLarge)).length := by
  have hchars : maxLen < tooLarge.length := by
    unfold tooLarge ofToken
    rw [List.length_append, List.length_append, List.length_replicate]
    have hpos : 0 < "\x7b\"access_token\":\"".toList.length := by decide
    omega
  exact Nat.lt_of_lt_of_le hchars (length_le_length_asBytes tooLarge)

/-- The address book `a` is lost to a store of one that is too large. -/
theorem lost_to_too_large :
    ¬ Kept .storing (readToken fun t => (⟨t, []⟩ : Ab))
      (Ab.load plainCrypto plainConfig .storing (readToken fun t => ⟨t, []⟩)) true tooLarge oneBook
      (Ab.store plainCrypto plainConfig .storing true plainRandom.storeNonce tooLarge oneBook) := by
  have hparse : readToken (fun t => (⟨t, []⟩ : Ab)) tooLarge =
      some ⟨List.replicate maxLen 'b', []⟩ := by
    refine readToken_ofToken _ fun c hc => ?_
    rw [List.eq_of_mem_replicate hc]
    rfl
  have hbefore : (Ab.load plainCrypto plainConfig .storing (readToken fun t => ⟨t, []⟩)
      oneBook).1 = ⟨['a'], []⟩ := by decide +kernel
  have hafter : (Ab.load plainCrypto plainConfig .storing (readToken fun t => ⟨t, []⟩)
      (Ab.store plainCrypto plainConfig .storing true plainRandom.storeNonce tooLarge
        oneBook)).1 = Ab.default := by
    have hcut : Ab.store plainCrypto plainConfig .storing true plainRandom.storeNonce tooLarge
        oneBook = some [] := store_of_gt tooLarge_length _ _
    rw [hcut]
    decide +kernel
  unfold Kept
  rw [hparse, hbefore, hafter]
  rintro (hstored | ⟨-, hsame⟩)
  · -- the text says another token than that of the default
    have htoken := congrArg Ab.accessToken (Option.some.inj hstored)
    have hlen := congrArg List.length htoken
    rw [List.length_replicate] at hlen
    exact absurd hlen (by decide)
  · exact absurd hsame (by decide)

/-- A book that can be stored takes the place of the old one. -/
theorem books_kept_iff_small :
    Kept .storing (readToken fun t => (⟨t, []⟩ : Ab))
        (Ab.load plainCrypto plainConfig .storing (readToken fun t => ⟨t, []⟩)) true
        (ofToken ['b']) oneBook (Ab.store plainCrypto plainConfig .storing true
          plainRandom.storeNonce (ofToken ['b']) oneBook) ∧
      Kept .storing (readToken fun t => (⟨t, [], [], []⟩ : Group))
        (Group.load plainCrypto plainConfig .storing (readToken fun t => ⟨t, [], [], []⟩)) true
        (ofToken ['b']) oneBook (Group.store plainCrypto plainConfig .storing true
          plainRandom.storeNonce (ofToken ['b']) oneBook) := by
  have hstored : Stored .storing true (ofToken ['b']) := by decide +kernel
  have hundone : Zstd.storing.UndoneBy .storing := fun _ _ h => h.symm
  have hab : readToken (fun t => (⟨t, []⟩ : Ab)) [] = none := by decide
  have hgroup : readToken (fun t => (⟨t, [], [], []⟩ : Group)) [] = none := by decide
  obtain ⟨hkeptAb, hkeptGroup⟩ := books_kept_iff plainCrypto_lawful plainCrypto_short hundone rfl
    hab hgroup true plainRandom.storeNonce (ofToken ['b']) oneBook
  refine ⟨hkeptAb.mpr ?_, hkeptGroup.mpr ?_⟩
  · unfold Spared
    rw [if_pos hstored]
    decide
  · unfold Spared
    rw [if_pos hstored]
    decide

end BookFile

end LibRustdesk
