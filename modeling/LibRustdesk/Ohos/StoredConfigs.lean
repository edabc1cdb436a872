import LibRustdesk.Framework.Base64
import LibRustdesk.Ohos.StoredSecret

/-!
# The configurations that hold secrets

`Config2::store` and `Config2::load`, what `Config::store` and `Config::load` do with the id, and
`PeerConfig::store_` and `PeerConfig::load`, of `libs/hbb_common/src/config.rs`, with the setters of
the first two. Of each configuration only the secrets are modelled.

A secret is sealed when it is stored and opened when it is loaded, and no setter asks whether the
two agree on it. They do not: what is too long is dropped by the one, and what looks sealed is left
by the one and opened by the other if a key of the machine opens it. Two of the configurations leave
what is sealed in its place while it opens to the value that is to be stored; then none of this
matters.

* `strSecret_exact`, `vecSecret_exact` — an opened text is shorter than what it was opened from, so
  no value opens to itself (`SealOnce.Exact`).
* `Representable` — what the two functions agree on.
* `DeviceId.load_store_iff`, `Config2.load_store_iff`, `PeerSecrets.load_store_iff` — what is loaded
  after it was stored, for every content of the three.
* `stored_configs_come_back` — **the three together.**

The files can be written and read back. The nonces and the ids that are generated are arbitrary.
-/

namespace LibRustdesk

namespace Ohos

open LittleEndian

/-! ### What is opened is shorter -/

/-- The documented lengths: a box is longer than what is in it by the authenticator, and base64 is
text that is longer than what it encodes. -/
structure StorageCrypto.Tight (crypto : StorageCrypto) : Prop where
  length_open : ∀ c n k m, crypto.box.openBox c n k = some m → m.length + macBytes ≤ c.length
  length_decode : ∀ v d, crypto.base64Decode v = some d → d.length ≤ v.length
  ascii_decode : ∀ v d, crypto.base64Decode v = some d → ∀ b ∈ v, b < 0x80

theorem length_fromUtf8LossyFuel_ascii {fuel : ℕ} {v : Bytes} (hascii : ∀ b ∈ v, b < 0x80)
    (hfuel : v.length ≤ fuel) : (fromUtf8LossyFuel fuel v).length = v.length := by
  induction fuel generalizing v with
  | zero =>
    rw [List.length_eq_zero_iff.mp (Nat.le_zero.mp hfuel)]
    rfl
  | succ fuel ih =>
    cases v with
    | nil => rfl
    | cons b rest =>
      obtain ⟨hb, hrest⟩ := List.forall_mem_cons.mp hascii
      unfold fromUtf8LossyFuel
      rw [if_pos hb, List.length_cons, ih hrest (Nat.le_of_succ_le_succ hfuel), List.length_cons]

section Exact

variable {crypto : StorageCrypto} (htight : crypto.Tight) (config : Config)

include htight

theorem length_openSecretboxPayload {data key m : Bytes}
    (h : openSecretboxPayload crypto.toCrypto data key = some m) :
    m.length + macBytes ≤ data.length := by
  unfold openSecretboxPayload at h
  dsimp only at h
  split at h
  · next current hcurrent =>
    cases h
    split at hcurrent
    · -- the nonce and the format are in front of the box
      refine Nat.le_trans (htight.length_open _ _ _ _ hcurrent) ?_
      rw [List.length_drop]
      exact Nat.sub_le _ _
    · cases hcurrent
  · exact htight.length_open _ _ _ _ h

theorem length_symmetricDecrypt {data m : Bytes}
    (h : symmetricDecrypt crypto.toCrypto config data = some m) :
    m.length + macBytes ≤ data.length := by
  unfold symmetricDecrypt at h
  split at h
  · next opened hopened =>
    cases h
    exact length_openSecretboxPayload htight hopened
  · split at h
    · split at h
      · exact length_openSecretboxPayload htight h
      · cases h
    · cases h

theorem decrypt_tight {v m : Bytes} (h : decrypt crypto.toCrypto config v = some m) :
    m.length < v.length ∧ (∀ b ∈ v, b < 0x80) ∧
      ∃ d, crypto.base64Decode v = some d ∧ macBytes ≤ d.length := by
  unfold decrypt at h
  split at h
  · cases h
  · split at h
    · next d hd =>
      have hlen := length_symmetricDecrypt htight config h
      have hdecode := htight.length_decode v d hd
      have hmac : 0 < macBytes := Nat.succ_pos 15
      exact ⟨by omega, htight.ascii_decode v d hd, d, hd, by omega⟩
    · cases h

theorem isEncrypted_of_openable {v : Bytes} (h : Openable crypto config v) :
    isEncrypted crypto.toCrypto v = true := by
  obtain ⟨hversion, hopen⟩ := h
  obtain ⟨m, hm⟩ := Option.isSome_iff_exists.mp hopen
  obtain ⟨hlt, -, d, hd, hmac⟩ := decrypt_tight htight config hm
  have hlong : ¬ v.length ≤ versionLen := by
    intro hshort
    rw [List.drop_eq_nil_of_le hshort] at hlt
    exact Nat.not_lt_zero _ hlt
  unfold isEncrypted
  rw [if_neg (not_or.mpr ⟨hlong, not_not.mpr hversion⟩), hd]
  exact decide_eq_true hmac

omit htight in
theorem isPrefix_of_asBytes {s : List Char} (h : asBytes passwordEncVersion <+: asBytes s) :
    passwordEncVersion <+: s := by
  obtain ⟨rest, hrest⟩ := h
  -- Two bytes of text in front of others are read as two characters.
  have hzero (s : List Char) (t : Bytes) (h : asBytes s = 48 :: t) :
      ∃ s', s = '0' :: s' ∧ asBytes s' = t := by
    have hread := fromUtf8Lossy_asBytes s
    rw [h] at hread
    unfold fromUtf8Lossy at hread
    rw [List.length_cons, fromUtf8LossyFuel, if_pos (by decide)] at hread
    refine ⟨fromUtf8LossyFuel t.length t, hread.symm, ?_⟩
    rw [← hread] at h
    exact (List.cons.inj h).2
  obtain ⟨s', rfl, hs'⟩ := hzero s _ hrest.symm
  obtain ⟨s'', rfl, -⟩ := hzero s' _ hs'
  exact ⟨s'', rfl⟩

theorem opened_str {s : List Char} (h : Openable crypto config (asBytes s)) :
    (decryptStrOrOriginal crypto.toCrypto config s passwordEncVersion).2.1 = true ∧
      (decryptStrOrOriginal crypto.toCrypto config s passwordEncVersion).1.length < s.length := by
  have hlooks := isEncrypted_of_openable htight config h
  obtain ⟨hversion, hopen⟩ := h
  obtain ⟨m, hm⟩ := Option.isSome_iff_exists.mp hopen
  obtain ⟨hlt, hascii, -⟩ := decrypt_tight htight config hm
  have hlong : versionLen < (asBytes s).length := by
    by_contra hshort
    rw [List.drop_eq_nil_of_le (Nat.not_lt.mp hshort)] at hlt
    exact Nat.not_lt_zero _ hlt
  -- All of the text is ASCII, so it has as many characters as bytes.
  have hchars : s.length = (asBytes s).length := by
    obtain ⟨rest, hrest⟩ := hversion
    have hfront : (asBytes passwordEncVersion).length = versionLen := by decide
    rw [← hrest, List.drop_left' hfront] at hascii
    have hall : ∀ b ∈ asBytes s, b < 0x80 := by
      have hdigits : (asBytes passwordEncVersion).all (fun b => decide (b < 0x80)) = true := by
        decide
      rw [← hrest]
      intro b hb
      rcases List.mem_append.mp hb with hfront | hback
      · exact of_decide_eq_true (List.all_eq_true.mp hdigits b hfront)
      · exact hascii b hback
    rw [← length_fromUtf8LossyFuel_ascii hall (Nat.le_refl _)]
    exact congrArg List.length (fromUtf8Lossy_asBytes s).symm
  unfold decryptStrOrOriginal
  rw [if_pos ⟨hlong, isPrefix_of_asBytes hversion⟩, hm]
  refine ⟨rfl, ?_⟩
  calc (fromUtf8Lossy m).length
      ≤ m.length := length_fromUtf8LossyFuel _ _
    _ < ((asBytes s).drop versionLen).length := hlt
    _ ≤ (asBytes s).length := by rw [List.length_drop]; exact Nat.sub_le _ _
    _ = s.length := hchars.symm

theorem opened_str_iff (s : List Char) :
    (decryptStrOrOriginal crypto.toCrypto config s passwordEncVersion).2.1 = true ↔
      Openable crypto config (asBytes s) := by
  constructor
  · intro hopened
    by_contra hopen
    rw [not_opened_str hopen] at hopened
    exact Bool.false_ne_true hopened
  · exact fun hopen => (opened_str htight config hopen).1

theorem opened_vec {v : Bytes} (h : Openable crypto config v) :
    (decryptVecOrOriginal crypto config v passwordEncVersion).2.1 = true ∧
      (decryptVecOrOriginal crypto config v passwordEncVersion).1.length < v.length := by
  obtain ⟨hversion, hopen⟩ := h
  obtain ⟨m, hm⟩ := Option.isSome_iff_exists.mp hopen
  obtain ⟨hlt, -, -⟩ := decrypt_tight htight config hm
  have hlong : versionLen < v.length := by
    by_contra hshort
    rw [List.drop_eq_nil_of_le (Nat.not_lt.mp hshort)] at hlt
    exact Nat.not_lt_zero _ hlt
  have htake : v.take versionLen = asBytes passwordEncVersion := by
    obtain ⟨rest, rfl⟩ := hversion
    exact List.take_left' rfl
  unfold decryptVecOrOriginal
  rw [if_pos ⟨hlong, by rw [htake, fromUtf8Lossy_asBytes]⟩, hm]
  refine ⟨rfl, Nat.lt_of_lt_of_le hlt ?_⟩
  rw [List.length_drop]
  exact Nat.sub_le _ _

theorem opened_vec_iff (v : Bytes) :
    (decryptVecOrOriginal crypto config v passwordEncVersion).2.1 = true ↔
      Openable crypto config v := by
  constructor
  · intro hopened
    by_contra hopen
    rw [not_opened_vec hopen] at hopened
    exact Bool.false_ne_true hopened
  · exact fun hopen => (opened_vec htight config hopen).1

variable (hlaw : crypto.Lawful) (maxLen : ℕ)

include hlaw

theorem strSecret_exact : (strSecret crypto config maxLen).Exact where
  toLawful := strSecret_lawful hlaw config maxLen
  fits_empty := by
    show decide (0 ≤ maxLen) = true
    exact decide_eq_true (Nat.zero_le _)
  looksSealed_empty := rfl
  looksSealed_of_opened s hopened :=
    isEncrypted_of_openable htight config ((opened_str_iff htight config s).mp hopened)
  ne_of_opened s hopened heq := by
    have hshorter := (opened_str htight config ((opened_str_iff htight config s).mp hopened)).2
    exact absurd (congrArg List.length heq) (Nat.ne_of_lt hshorter)

theorem vecSecret_exact : (vecSecret crypto config maxLen).Exact where
  toLawful := vecSecret_lawful hlaw config maxLen
  fits_empty := by
    show decide (0 ≤ maxLen) = true
    exact decide_eq_true (Nat.zero_le _)
  looksSealed_empty := rfl
  looksSealed_of_opened v hopened :=
    isEncrypted_of_openable htight config ((opened_vec_iff htight config v).mp hopened)
  ne_of_opened v hopened heq := by
    have hshorter := (opened_vec htight config ((opened_vec_iff htight config v).mp hopened)).2
    exact absurd (congrArg List.length heq) (Nat.ne_of_lt hshorter)

end Exact

/-! ### What the two functions agree on -/

section Representable

variable (crypto : StorageCrypto) (config : Config)

/-- No key of the machine opens the value, and it is not too long to be sealed, or is taken for
something that is sealed already. -/
def Representable (v : Bytes) (length : ℕ) : Prop :=
  ¬ Openable crypto config v ∧
    (isEncrypted crypto.toCrypto v = true ∨ length ≤ encryptMaxLen)

def OpensTo (stored s : List Char) : Prop :=
  (decryptStrOrOriginal crypto.toCrypto config stored passwordEncVersion).2.1 = true ∧
    (decryptStrOrOriginal crypto.toCrypto config stored passwordEncVersion).1 = s

variable {crypto : StorageCrypto} (htight : crypto.Tight) (config : Config)

include htight

theorem storable_str_iff (s : List Char) :
    (strSecret crypto config encryptMaxLen).Storable s ↔
      Representable crypto config (asBytes s) s.length := by
  have hopened := opened_str_iff htight config s
  constructor
  · rintro ⟨hclosed, hform⟩
    refine ⟨fun hopen => ?_, hform.imp id of_decide_eq_true⟩
    exact Bool.false_ne_true (hclosed.symm.trans (hopened.mpr hopen))
  · rintro ⟨hopen, hform⟩
    exact ⟨not_opened_str hopen, hform.imp id decide_eq_true⟩

theorem storable_vec_iff (v : Bytes) :
    (vecSecret crypto config encryptMaxLen).Storable v ↔
      Representable crypto config v v.length := by
  have hopened := opened_vec_iff htight config v
  constructor
  · rintro ⟨hclosed, hform⟩
    refine ⟨fun hopen => ?_, hform.imp id of_decide_eq_true⟩
    exact Bool.false_ne_true (hclosed.symm.trans (hopened.mpr hopen))
  · rintro ⟨hopen, hform⟩
    exact ⟨not_opened_vec hopen, hform.imp id decide_eq_true⟩

theorem kept_iff (hlaw : crypto.Lawful) (nonce : GenNonce) (s stored : List Char) :
    (decryptStrOrOriginal crypto.toCrypto config
        (keepEncryptedStorageIfPlaintextUnchanged crypto config nonce s stored)
        passwordEncVersion).1 = s ↔
      OpensTo crypto config stored s ∨ Representable crypto config (asBytes s) s.length := by
  have hkeep := (strSecret_exact htight config hlaw encryptMaxLen).comesBack_keep_iff nonce s stored
  rw [storable_str_iff htight config] at hkeep
  exact hkeep

end Representable

/-! ### `Config::id` -/

structure DeviceId where
  id : List Char
  encId : List Char
  deriving DecidableEq, Repr

namespace DeviceId

variable (crypto : StorageCrypto) (config : Config)

/-- What `Config::store` writes: the id is sealed, and not kept in clear. -/
def store (c : DeviceId) (nonce : GenNonce) : DeviceId :=
  let (storedId, encrypted, _) :=
    decryptStrOrOriginal crypto.toCrypto config c.encId passwordEncVersion
  { id := []
    encId :=
      if !encrypted || storedId ≠ c.id then
        encryptStrOrOriginal crypto config nonce c.id passwordEncVersion encryptMaxLen
      else c.encId }

/-- The first id that `gen_id` gives in three tries. -/
def generated (genId : Fin 3 → Option (List Char)) : Option (List Char) :=
  (List.finRange 3).findSome? genId

/-- What `Config::load` makes of a file, and whether it stores that. -/
def load (file : DeviceId) (genId : Fin 3 → Option (List Char)) : DeviceId × Bool :=
  let (id, encrypted, store2) :=
    decryptStrOrOriginal crypto.toCrypto config file.encId passwordEncVersion
  if encrypted then ({ file with id := id }, store2)
  else if file.id ≠ [] ∧ file.encId = [] ∧
      (decryptStrOrOriginal crypto.toCrypto config file.id passwordEncVersion).2.1 = false then
    (file, true)
  else
    match generated genId with
    | some id => ({ file with id := id }, true)
    | none => (file, false)

end DeviceId

/-! ### `Config2` -/

structure Socks5Server where
  proxy : List Char
  username : List Char
  password : List Char
  deriving DecidableEq, Repr

/-- The secrets of `Config2`. -/
structure Config2 where
  socks : Option Socks5Server
  unlockPin : List Char
  deriving DecidableEq, Repr

namespace Config2

variable (crypto : StorageCrypto) (config : Config)

def socksPassword (c : Config2) : List Char :=
  match c.socks with
  | some socks => socks.password
  | none => []

/-- What `store` writes over a file. -/
def store (c file : Config2) (socksNonce pinNonce : GenNonce) : Config2 where
  socks := c.socks.map fun socks =>
    { socks with
      password :=
        keepEncryptedStorageIfPlaintextUnchanged crypto config socksNonce socks.password
          file.socksPassword }
  unlockPin :=
    keepEncryptedStorageIfPlaintextUnchanged crypto config pinNonce c.unlockPin file.unlockPin

/-- What `load` makes of a file, and whether it stores that. -/
def load (file : Config2) : Config2 × Bool :=
  let (unlockPin, _, store2) :=
    decryptStrOrOriginal crypto.toCrypto config file.unlockPin passwordEncVersion
  match file.socks with
  | some socks =>
    let (password, _, store) :=
      decryptStrOrOriginal crypto.toCrypto config socks.password passwordEncVersion
    (⟨some { socks with password := password }, unlockPin⟩, store || store2)
  | none => (⟨none, unlockPin⟩, store2)

/-- `Config::set_unlock_pin`, with the file that is left behind. -/
def setUnlockPin (c file : Config2) (disabled : Bool) (pin : List Char)
    (socksNonce pinNonce : GenNonce) : Config2 × Config2 :=
  if disabled then (c, file)
  else if pin = c.unlockPin then (c, file)
  else
    ({ c with unlockPin := pin },
      store crypto config { c with unlockPin := pin } file socksNonce pinNonce)

end Config2

/-! ### What is loaded after it was stored -/

namespace DeviceId

variable {crypto : StorageCrypto} {config : Config}

theorem store_eq (c : DeviceId) (nonce : GenNonce) :
    c.store crypto config nonce =
      ⟨[], (strSecret crypto config encryptMaxLen).keep nonce c.id c.encId⟩ := by
  refine congrArg (DeviceId.mk []) ?_
  by_cases hopens : (strSecret crypto config encryptMaxLen).OpensTo c.encId c.id
  · rw [SealOnce.Exact.keep_of_opensTo hopens]
    refine if_neg ?_
    rw [Bool.or_eq_true, not_or, Bool.not_eq_true']
    exact ⟨Bool.not_eq_false _ ▸ hopens.1, fun hne => of_decide_eq_true hne hopens.2⟩
  · rw [SealOnce.Exact.keep_of_not_opensTo hopens]
    refine if_pos ?_
    by_contra hkept
    rw [Bool.or_eq_true, not_or, Bool.not_eq_true', Bool.not_eq_false, decide_eq_true_iff,
      not_not] at hkept
    exact hopens hkept

theorem load_id (encId : List Char) (genId : Fin 3 → Option (List Char)) :
    (load crypto config ⟨[], encId⟩ genId).1.id =
      if ((strSecret crypto config encryptMaxLen).decrypt encId).2.1 = true then
        ((strSecret crypto config encryptMaxLen).decrypt encId).1
      else (generated genId).getD [] := by
  unfold load strSecret
  dsimp only
  split
  · rfl
  · rw [if_neg (fun h => h.1 rfl)]
    cases generated genId with
    | none | some => rfl

theorem load_store_iff (hlaw : crypto.Lawful) (htight : crypto.Tight) (c : DeviceId)
    (nonce : GenNonce) (genId : Fin 3 → Option (List Char)) :
    (load crypto config (c.store crypto config nonce) genId).1.id = c.id ↔
      OpensTo crypto config c.encId c.id ∨
      (c.id ≠ [] ∧ isEncrypted crypto.toCrypto (asBytes c.id) = false ∧
        c.id.length ≤ encryptMaxLen) ∨
      (¬ Openable crypto config (asBytes c.id) ∧ (generated genId).getD [] = c.id) := by
  have hexact := strSecret_exact htight config hlaw encryptMaxLen
  have hsealed := hexact.opensTo_keep_iff nonce c.id c.encId
  rw [store_eq, load_id]
  by_cases hopens : (strSecret crypto config encryptMaxLen).OpensTo
      ((strSecret crypto config encryptMaxLen).keep nonce c.id c.encId) c.id
  · rw [if_pos hopens.1]
    refine ⟨fun _ => ?_, fun _ => hopens.2⟩
    rcases hsealed.mp hopens with hstored | ⟨hne, hlooks, hfits⟩
    · exact .inl hstored
    · exact .inr (.inl ⟨hne, hlooks, of_decide_eq_true hfits⟩)
  · -- It is opened only if it is a ciphertext as it is, and then not to itself.
    have hopened := (hexact.opened_keep_iff hopens).trans (opened_str_iff htight config c.id)
    have hnot := hopens
    rw [hsealed, not_or] at hnot
    constructor
    · intro hback
      split at hback
      · next hcond => exact absurd ⟨hcond, hback⟩ hopens
      · next hcond => exact .inr (.inr ⟨fun h => hcond (hopened.mpr h), hback⟩)
    · rintro (hstored | ⟨hne, hlooks, hlen⟩ | ⟨hclosed, hsame⟩)
      · exact absurd hstored hnot.1
      · exact absurd ⟨hne, hlooks, decide_eq_true hlen⟩ hnot.2
      · rw [if_neg (fun h => hclosed (hopened.mp h))]
        exact hsame

end DeviceId

namespace Config2

variable {crypto : StorageCrypto} {config : Config} (hlaw : crypto.Lawful) (htight : crypto.Tight)

include hlaw htight

variable (c file : Config2) (socksNonce pinNonce : GenNonce)

theorem load_store_unlockPin_iff :
    (load crypto config (c.store crypto config file socksNonce pinNonce)).1.unlockPin =
        c.unlockPin ↔
      OpensTo crypto config file.unlockPin c.unlockPin ∨
        Representable crypto config (asBytes c.unlockPin) c.unlockPin.length := by
  have hload (file : Config2) : (load crypto config file).1.unlockPin =
      (decryptStrOrOriginal crypto.toCrypto config file.unlockPin passwordEncVersion).1 := by
    unfold load
    cases file.socks with
    | none | some => rfl
  rw [hload]
  exact kept_iff htight config hlaw pinNonce c.unlockPin file.unlockPin

theorem load_store_socks_iff :
    (load crypto config (c.store crypto config file socksNonce pinNonce)).1.socks = c.socks ↔
      ∀ socks, c.socks = some socks →
        OpensTo crypto config file.socksPassword socks.password ∨
          Representable crypto config (asBytes socks.password) socks.password.length := by
  have hload (file : Config2) : (load crypto config file).1.socks =
      file.socks.map fun socks =>
        { socks with
          password := (decryptStrOrOriginal crypto.toCrypto config socks.password
            passwordEncVersion).1 } := by
    unfold load
    cases file.socks with
    | none | some => rfl
  rw [hload]
  show (c.socks.map _).map _ = c.socks ↔ _
  cases c.socks with
  | none => exact ⟨fun _ _ hsome => (nomatch hsome), fun _ => rfl⟩
  | some socks =>
    have hkeep := kept_iff htight config hlaw socksNonce socks.password file.socksPassword
    -- The other two fields of the proxy are not touched.
    have hsame (password : List Char) :
        some { socks with password := password } = some socks ↔ password = socks.password := by
      constructor
      · intro heq
        exact congrArg Socks5Server.password (Option.some.inj heq)
      · intro heq
        rw [heq]
    refine ((hsame _).trans hkeep).trans ?_
    constructor
    · intro hkept other heq
      cases heq
      exact hkept
    · exact fun hall => hall socks rfl

theorem load_store_iff :
    (load crypto config (c.store crypto config file socksNonce pinNonce)).1 = c ↔
      (OpensTo crypto config file.unlockPin c.unlockPin ∨
        Representable crypto config (asBytes c.unlockPin) c.unlockPin.length) ∧
      ∀ socks, c.socks = some socks →
        OpensTo crypto config file.socksPassword socks.password ∨
          Representable crypto config (asBytes socks.password) socks.password.length := by
  rw [← load_store_unlockPin_iff hlaw htight c file socksNonce pinNonce,
    ← load_store_socks_iff hlaw htight c file socksNonce pinNonce]
  constructor
  · intro heq
    rw [heq]
    exact ⟨rfl, rfl⟩
  · rintro ⟨hpin, hsocks⟩
    generalize (load crypto config (c.store crypto config file socksNonce pinNonce)).1 = loaded
      at hpin hsocks ⊢
    cases loaded
    cases c
    cases hpin
    cases hsocks
    rfl

theorem load_setUnlockPin_iff (pin : List Char) (socksNonce pinNonce : GenNonce)
    (hne : pin ≠ c.unlockPin) :
    (load crypto config
        (setUnlockPin crypto config c file false pin socksNonce pinNonce).2).1.unlockPin = pin ↔
      OpensTo crypto config file.unlockPin pin ∨
        Representable crypto config (asBytes pin) pin.length := by
  have hset : (setUnlockPin crypto config c file false pin socksNonce pinNonce).2 =
      store crypto config ⟨c.socks, pin⟩ file socksNonce pinNonce := by
    unfold setUnlockPin
    rw [if_neg Bool.false_ne_true, if_neg hne]
  rw [hset]
  exact load_store_unlockPin_iff hlaw htight ⟨c.socks, pin⟩ file socksNonce pinNonce

end Config2

namespace PeerSecrets

variable {crypto : StorageCrypto} {config : Config}

theorem load_store_iff (hlaw : crypto.Lawful) (htight : crypto.Tight) (c : PeerSecrets)
    (passwordNonce : GenNonce) (optionNonce : List Char → GenNonce) :
    (load crypto config (c.store crypto config passwordNonce optionNonce)).1 = c ↔
      Representable crypto config c.password c.password.length ∧
      ∀ opt ∈ secretOptions, ∀ v, c.options opt = some v →
        Representable crypto config (asBytes v) v.length := by
  have hvec := (vecSecret_exact htight config hlaw encryptMaxLen).comesBack_iff passwordNonce
    c.password
  rw [storable_vec_iff htight config] at hvec
  have hstr (opt v : List Char) :=
    (strSecret_exact htight config hlaw encryptMaxLen).comesBack_iff (optionNonce opt) v
  constructor
  · intro heq
    refine ⟨hvec.mp (congrArg PeerSecrets.password heq), ?_⟩
    intro opt hmem v hv
    have hopt : ((c.options opt).map _).map _ = c.options opt :=
      congrFun (congrArg PeerSecrets.options heq) opt
    rw [hv] at hopt
    dsimp only [Option.map_some] at hopt
    rw [if_pos (List.contains_iff_mem.mpr hmem), if_pos (List.contains_iff_mem.mpr hmem)] at hopt
    exact (storable_str_iff htight config v).mp ((hstr opt v).mp (Option.some.inj hopt))
  · rintro ⟨hpassword, hoptions⟩
    have hopts : (load crypto config (c.store crypto config passwordNonce optionNonce)).1.options =
        c.options := by
      funext opt
      show ((c.options opt).map _).map _ = c.options opt
      cases hopt : c.options opt with
      | none => rfl
      | some v =>
        dsimp only [Option.map_some]
        by_cases hmem : secretOptions.contains opt = true
        · have hkept := hoptions opt (List.contains_iff_mem.mp hmem) v hopt
          rw [if_pos hmem, if_pos hmem]
          exact congrArg some ((hstr opt v).mpr ((storable_str_iff htight config v).mpr hkept))
        · rw [if_neg hmem, if_neg hmem]
    have hpass := hvec.mpr hpassword
    change (load crypto config (c.store crypto config passwordNonce optionNonce)).1.password = _
      at hpass
    generalize (load crypto config (c.store crypto config passwordNonce optionNonce)).1 = loaded
      at hopts hpass ⊢
    cases loaded
    cases c
    cases hopts
    cases hpass
    rfl

end PeerSecrets

/-- **The three configurations after they were stored and loaded.** The id comes back if its
ciphertext is in memory, or it can be sealed, or the same is generated. The pin and the password of
the proxy come back exactly if the file has a ciphertext of them or they are representable; the
secrets of a peer exactly if they are. -/
theorem stored_configs_come_back {crypto : StorageCrypto} (hlaw : crypto.Lawful)
    (htight : crypto.Tight) (config : Config) :
    (∀ (c : DeviceId) (nonce : GenNonce) (genId : Fin 3 → Option (List Char)),
      (DeviceId.load crypto config (c.store crypto config nonce) genId).1.id = c.id ↔
        OpensTo crypto config c.encId c.id ∨
        (c.id ≠ [] ∧ isEncrypted crypto.toCrypto (asBytes c.id) = false ∧
          c.id.length ≤ encryptMaxLen) ∨
        (¬ Openable crypto config (asBytes c.id) ∧ (DeviceId.generated genId).getD [] = c.id)) ∧
    (∀ (c file : Config2) (socksNonce pinNonce : GenNonce),
      (Config2.load crypto config (c.store crypto config file socksNonce pinNonce)).1 = c ↔
        (OpensTo crypto config file.unlockPin c.unlockPin ∨
          Representable crypto config (asBytes c.unlockPin) c.unlockPin.length) ∧
        ∀ socks, c.socks = some socks →
          OpensTo crypto config file.socksPassword socks.password ∨
            Representable crypto config (asBytes socks.password) socks.password.length) ∧
    (∀ (c file : Config2) (pin : List Char) (socksNonce pinNonce : GenNonce), pin ≠ c.unlockPin →
      ((Config2.load crypto config
          (c.setUnlockPin crypto config file false pin socksNonce pinNonce).2).1.unlockPin = pin ↔
        OpensTo crypto config file.unlockPin pin ∨
          Representable crypto config (asBytes pin) pin.length)) ∧
    (∀ (c : PeerSecrets) (passwordNonce : GenNonce) (optionNonce : List Char → GenNonce),
      (PeerSecrets.load crypto config
          (c.store crypto config passwordNonce optionNonce)).1 = c ↔
        Representable crypto config c.password c.password.length ∧
        ∀ opt ∈ PeerSecrets.secretOptions, ∀ v, c.options opt = some v →
          Representable crypto config (asBytes v) v.length) := by
  refine ⟨?_, ?_, ?_, ?_⟩
  · intro c nonce genId
    exact DeviceId.load_store_iff hlaw htight c nonce genId
  · intro c file socksNonce pinNonce
    exact Config2.load_store_iff hlaw htight c file socksNonce pinNonce
  · intro c file pin socksNonce pinNonce hne
    exact Config2.load_setUnlockPin_iff hlaw htight c file pin socksNonce pinNonce hne
  · intro c passwordNonce optionNonce
    exact PeerSecrets.load_store_iff hlaw htight c passwordNonce optionNonce

/-! ### With real base64 -/

/-- The first 32 bytes for a hash, base64, and a box that carries its tag. -/
def base64Crypto : StorageCrypto where
  sha256 v := resize v permanentPasswordH1Len
  base64Decode v := (fromUtf8 v).bind Base64.decode
  base64Encode := Base64.encode
  box := Link.tagBox

theorem base64Crypto_lawful : base64Crypto.Lawful where
  box := Link.tagBox_lawful
  decode_encode v := by
    show (fromUtf8 (asBytes (Base64.encode v))).bind Base64.decode = some v
    rw [fromUtf8_asBytes]
    exact Base64.decode_of_encode v
  le_length_encode v := by
    have hlen := Base64.length_encode v
    show v.length ≤ (Base64.encode v).length
    omega
  length_encode_le v := by
    have hlen := Base64.length_encode v
    show (Base64.encode v).length ≤ _
    omega
  length_sha256 v := length_resize v _

theorem eq_asBytes_of_fromUtf8 {v : Bytes} {s : List Char} (h : fromUtf8 v = some s) :
    v = asBytes s := by
  unfold fromUtf8 at h
  split at h
  · next heq => rw [← Option.some.inj h, heq]
  · cases h

theorem ascii_of_alphabet {s : List Char} (h : ∀ c ∈ s, Base64.Alphabet c) :
    ∀ b ∈ asBytes s, b < 0x80 := by
  intro b hb
  obtain ⟨c, hc, hbyte⟩ := List.mem_flatMap.mp hb
  have hall : ∀ n < 128, (String.utf8EncodeChar (Char.ofNat n)).all
      (fun b => decide (b < 0x80)) = true := by decide +kernel
  have hsmall : c.toNat < 128 := by
    rcases h c hc with hvalue | rfl
    · unfold Base64.value at hvalue
      split_ifs at hvalue with h1 h2 h3 h4 h5
      · omega
      · omega
      · omega
      · rw [h4]
        decide
      · rw [h5]
        decide
      · cases hvalue
    · decide
  rw [← Char.ofNat_toNat c] at hbyte
  exact of_decide_eq_true (List.all_eq_true.mp (hall _ hsmall) b hbyte)

theorem base64Crypto_tight : base64Crypto.Tight where
  length_open c n k m h := by
    change (if c.take macBytes = _ then some (c.drop macBytes) else none) = some m at h
    split at h
    · next htag =>
      cases h
      have hlen := congrArg List.length htag
      rw [List.length_take, List.length_take, List.length_append, List.length_replicate] at hlen
      rw [List.length_drop]
      omega
    · cases h
  length_decode v d h := by
    obtain ⟨s, hs, hd⟩ := Option.bind_eq_some_iff.mp h
    have hbytes := eq_asBytes_of_fromUtf8 hs
    exact Nat.le_trans (Base64.decode_spec hd).2.1 (hbytes ▸ length_le_length_asBytes s)
  ascii_decode v d h := by
    obtain ⟨s, hs, hd⟩ := Option.bind_eq_some_iff.mp h
    rw [eq_asBytes_of_fromUtf8 hs]
    exact ascii_of_alphabet (Base64.decode_spec hd).2.2

def looksSealedPin : Config2 :=
  ⟨some ⟨"host".toList, "user".toList, "secret".toList⟩, "00AAAAAAAAAAAAAAAAAAAAAAAA".toList⟩

/-- Both come back, since no key opens the pin. -/
theorem stored_configs_come_back_looksSealed :
    (Config2.load base64Crypto plainConfig (looksSealedPin.store base64Crypto plainConfig
      ⟨none, []⟩ plainRandom.hashNonce plainRandom.storeNonce)).1 = looksSealedPin := by
  have hpair := (stored_configs_come_back base64Crypto_lawful base64Crypto_tight plainConfig).2.1
  have hpin : Representable base64Crypto plainConfig (asBytes looksSealedPin.unlockPin)
      looksSealedPin.unlockPin.length := by
    refine ⟨?_, Or.inl (by decide +kernel)⟩
    rintro ⟨-, hopen⟩
    revert hopen
    decide +kernel
  have hsocks : Representable base64Crypto plainConfig (asBytes "secret".toList) 6 := by
    refine ⟨?_, Or.inr (by decide)⟩
    rintro ⟨hversion, -⟩
    revert hversion
    decide +kernel
  refine (hpair looksSealedPin ⟨none, []⟩ _ _).mpr ⟨Or.inr hpin, ?_⟩
  intro socks heq
  cases heq
  exact Or.inr hsocks

/-- **A pin is lost.** One that the setter took and that has 129 characters is empty after a
restart, and one that is a ciphertext for the machine is another one. -/
theorem pin_lost :
    (Config2.load base64Crypto plainConfig
      (Config2.setUnlockPin base64Crypto plainConfig ⟨none, []⟩ ⟨none, []⟩ false
        (List.replicate 129 '1') plainRandom.hashNonce plainRandom.storeNonce).2).1.unlockPin =
        [] ∧
    (Config2.load base64Crypto plainConfig
      (Config2.setUnlockPin base64Crypto plainConfig ⟨none, []⟩ ⟨none, []⟩ false
        (encryptStrOrOriginal base64Crypto plainConfig plainRandom.hashNonce "1234".toList
          passwordEncVersion encryptMaxLen)
        plainRandom.hashNonce plainRandom.storeNonce).2).1.unlockPin = "1234".toList := by
  decide +kernel

end Ohos

end LibRustdesk
