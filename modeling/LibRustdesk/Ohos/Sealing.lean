import LibRustdesk.Ohos.Storage
import LibRustdesk.Ohos.Utf8

/-!
# What is stored is loaded

A sealed payload opens again under the key of the machine, so a hash that was sealed is decoded
and a plain password that was sealed is decrypted. Of a configuration that the program keeps in
memory, `load` therefore makes again what `store` was given (`load_store`), whatever the file held
before.

* `Hashed` and `Plain` are the two forms of a permanent password in memory. A plain one must not
  look like something sealed: `encrypt_str_or_original` leaves such a text alone, and `load` would
  take it for something else. It must also be within the length that is stored at all.
* `Storable` says that the password has one of these forms, or that there is none.
-/

namespace LibRustdesk

namespace Ohos

open LittleEndian

/-- What is documented of `secretbox`, base64 and SHA-256. -/
structure StorageCrypto.Lawful (crypto : StorageCrypto) : Prop where
  box : crypto.box.Lawful
  decode_encode : ∀ v, crypto.base64Decode (asBytes (crypto.base64Encode v)) = some v
  le_length_encode : ∀ v, v.length ≤ (crypto.base64Encode v).length
  length_encode_le : ∀ v, (crypto.base64Encode v).length ≤ 2 * v.length + 2
  length_sha256 : ∀ v, (crypto.sha256 v).length = permanentPasswordH1Len

theorem asBytes_append (s t : List Char) : asBytes (s ++ t) = asBytes s ++ asBytes t :=
  List.flatMap_append

theorem drop_version (s : List Char) :
    (asBytes (permanentPasswordEncVersion ++ s)).drop versionLen = asBytes s ∧
      (asBytes (passwordEncVersion ++ s)).drop versionLen = asBytes s := by
  constructor
  · rw [asBytes_append]
    exact List.drop_left' (by decide)
  · rw [asBytes_append]
    exact List.drop_left' (by decide)

theorem length_resize (v : Bytes) (n : ℕ) : (resize v n).length = n := by
  unfold resize
  rw [List.length_append, List.length_take, List.length_replicate]
  omega

section Crypto

variable {crypto : StorageCrypto} (hlaw : crypto.Lawful) (config : Config)

include hlaw

/-! ### Opening what was sealed -/

variable (nonce : GenNonce)

theorem length_symmetricEncrypt (data : Bytes) :
    (symmetricEncrypt crypto config nonce data).length =
      1 + FramedStream.nonceBytes + (data.length + macBytes) := by
  unfold symmetricEncrypt
  rw [List.length_cons, List.length_append, nonce.property, hlaw.box.length_seal]
  omega

theorem symmetricDecrypt_encrypt (data : Bytes) :
    symmetricDecrypt crypto.toCrypto config (symmetricEncrypt crypto config nonce data) =
      some data := by
  have hdrop : (symmetricEncrypt crypto config nonce data).drop (1 + FramedStream.nonceBytes) =
      crypto.box.sealBox data nonce.val (resize config.uuid keyBytes) := by
    unfold symmetricEncrypt
    rw [Nat.add_comm, List.drop_succ_cons, List.drop_left' nonce.property]
  have htake : ((symmetricEncrypt crypto config nonce data).drop 1).take FramedStream.nonceBytes =
      nonce.val := by
    unfold symmetricEncrypt
    rw [List.drop_succ_cons, List.drop_zero, List.take_left' nonce.property]
  have hlen : (symmetricEncrypt crypto config nonce data).length ≥
      1 + FramedStream.nonceBytes + macBytes := by
    rw [length_symmetricEncrypt hlaw]
    omega
  have hopen : openSecretboxPayload crypto.toCrypto (symmetricEncrypt crypto config nonce data)
      (resize config.uuid keyBytes) = some data := by
    unfold openSecretboxPayload
    rw [if_pos ⟨rfl, hlen⟩, hdrop, htake, hlaw.box.open_seal]
  unfold symmetricDecrypt
  rw [hopen]

theorem encode_ne_nil {v : Bytes} (hne : v ≠ []) : crypto.base64Encode v ≠ [] := by
  have hlen := hlaw.le_length_encode v
  have hpos := List.length_pos_iff.mpr hne
  exact List.length_pos_iff.mp (Nat.lt_of_lt_of_le hpos hlen)

theorem version_lt_length {version : List Char} (hversion : (asBytes version).length = versionLen)
    (nonce : GenNonce) (data : Bytes) :
    versionLen < (asBytes (version ++
      crypto.base64Encode (symmetricEncrypt crypto config nonce data))).length := by
  have hne : crypto.base64Encode (symmetricEncrypt crypto config nonce data) ≠ [] :=
    encode_ne_nil hlaw (List.cons_ne_nil _ _)
  have hlen := length_le_length_asBytes
    (crypto.base64Encode (symmetricEncrypt crypto config nonce data))
  have hpos := List.length_pos_iff.mpr hne
  rw [asBytes_append, List.length_append, hversion]
  omega

/-! ### Hashes -/

theorem encodePermanentPasswordEncryptedStorageFromH1_spec {h1 : Bytes}
    (hlen : h1.length = permanentPasswordH1Len) :
    ∃ storage, encodePermanentPasswordEncryptedStorageFromH1 crypto config nonce h1 =
        some storage ∧
      decodePermanentPasswordH1FromStorage crypto.toCrypto config storage = some h1 := by
  have hinner : (encodePermanentPasswordStorageFromH1 crypto h1).length ≤ encryptMaxLen := by
    have hle := hlaw.length_encode_le h1
    have hversion : permanentPasswordHashPrefix.length = 2 := rfl
    unfold encodePermanentPasswordStorageFromH1 encryptMaxLen
    rw [List.length_append, hversion]
    rw [hlen] at hle
    unfold permanentPasswordH1Len at hle
    omega
  refine ⟨permanentPasswordEncVersion ++ crypto.base64Encode (symmetricEncrypt crypto config nonce
    (asBytes (encodePermanentPasswordStorageFromH1 crypto h1))),
    if_neg (Nat.not_lt.mpr hinner), ?_⟩
  unfold decodePermanentPasswordH1FromStorage decryptPermanentPasswordStrOrOriginal
  rw [if_pos (List.prefix_append _ _),
    if_pos ⟨version_lt_length hlaw config (by decide) nonce _, List.prefix_append _ _⟩,
    (drop_version _).1, hlaw.decode_encode]
  dsimp only
  rw [symmetricDecrypt_encrypt hlaw]
  dsimp only
  rw [fromUtf8Lossy_asBytes]
  unfold decodePasswordH1AfterPrefix encodePermanentPasswordStorageFromH1
  rw [if_pos (List.prefix_append _ _), List.drop_left' rfl, hlaw.decode_encode]
  dsimp only
  rw [if_neg (not_not.mpr hlen)]
  rfl

/-! ### Plain passwords -/

theorem encrypt_spec {v : Bytes} (hne : v ≠ []) :
    ∃ sealedText, encrypt crypto config nonce v = some sealedText ∧
      versionLen < (asBytes (passwordEncVersion ++ sealedText)).length ∧
      isEncrypted crypto.toCrypto (asBytes (passwordEncVersion ++ sealedText)) = true ∧
      Ohos.decrypt crypto.toCrypto config (asBytes sealedText) = some v := by
  have hlen : versionLen < (asBytes (passwordEncVersion ++
      crypto.base64Encode (symmetricEncrypt crypto config nonce v))).length :=
    version_lt_length hlaw config (by decide) nonce v
  refine ⟨crypto.base64Encode (symmetricEncrypt crypto config nonce v), if_pos hne, hlen, ?_, ?_⟩
  · have hmac : macBytes ≤ (symmetricEncrypt crypto config nonce v).length := by
      rw [length_symmetricEncrypt hlaw]
      omega
    have hversioned : asBytes passwordEncVersion <+: asBytes (passwordEncVersion ++
        crypto.base64Encode (symmetricEncrypt crypto config nonce v)) := by
      rw [asBytes_append]
      exact List.prefix_append _ _
    unfold isEncrypted
    rw [if_neg (fun hshort => hshort.elim (Nat.not_le.mpr hlen) (not_not.mpr hversioned)),
      (drop_version _).2, hlaw.decode_encode]
    exact decide_eq_true hmac
  · have hpayload : asBytes (crypto.base64Encode (symmetricEncrypt crypto config nonce v)) ≠
        [] := by
      intro h
      rw [← (drop_version _).2, List.drop_eq_nil_iff] at h
      exact absurd hlen (Nat.not_lt.mpr h)
    unfold Ohos.decrypt
    rw [if_neg hpayload, hlaw.decode_encode]
    exact symmetricDecrypt_encrypt hlaw config nonce v

omit hlaw in
theorem asBytes_ne_nil {s : List Char} (hne : s ≠ []) : asBytes s ≠ [] := by
  intro h
  have hle := length_le_length_asBytes s
  rw [h] at hle
  exact hne (List.length_eq_zero_iff.mp (Nat.le_zero.mp hle))

theorem encryptStrOrOriginal_spec {plain : List Char} {maxLen : ℕ} (hne : plain ≠ [])
    (hplain : isEncrypted crypto.toCrypto (asBytes plain) = false) (hlen : plain.length ≤ maxLen) :
    isEncrypted crypto.toCrypto
    (asBytes (encryptStrOrOriginal crypto config nonce plain passwordEncVersion maxLen)) = true ∧
    decryptStrOrOriginal crypto.toCrypto config
    (encryptStrOrOriginal crypto config nonce plain passwordEncVersion maxLen) passwordEncVersion =
    (plain, true, false) := by
  obtain ⟨sealedText, hencrypt, hlong, hlooks, hdecrypt⟩ :=
    encrypt_spec hlaw config nonce (asBytes_ne_nil hne)
  have hsealed : encryptStrOrOriginal crypto config nonce plain passwordEncVersion maxLen =
      passwordEncVersion ++ sealedText := by
    unfold encryptStrOrOriginal
    rw [hplain, if_neg Bool.false_ne_true, if_neg (Nat.not_lt.mpr hlen), if_pos rfl, hencrypt]
  rw [hsealed]
  refine ⟨hlooks, ?_⟩
  unfold decryptStrOrOriginal
  rw [if_pos ⟨hlong, List.prefix_append _ _⟩, (drop_version _).2, hdecrypt]
  dsimp only
  rw [fromUtf8Lossy_asBytes]
  rfl

theorem decryptStrOrOriginal_encrypt {plain : List Char} (hne : plain ≠ [])
    (hplain : isEncrypted crypto.toCrypto (asBytes plain) = false)
    (hlen : plain.length ≤ encryptMaxLen) :
    decryptStrOrOriginal crypto.toCrypto config
        (encryptStrOrOriginal crypto config nonce plain passwordEncVersion encryptMaxLen)
        passwordEncVersion = (plain, true, false) :=
  (encryptStrOrOriginal_spec hlaw config nonce hne hplain hlen).2

end Crypto

/-! ### Passwords in memory -/

section Memory

variable (crypto : StorageCrypto) (config : Config)

structure Hashed (h1 : Bytes) : Prop where
  salt_ne : config.salt ≠ []
  decode : decodePermanentPasswordH1FromStorage crypto.toCrypto config config.password = some h1

/-- A text that nothing takes for a sealed one, and that is short enough to be stored. -/
structure Plain (plain : List Char) : Prop where
  ne_nil : plain ≠ []
  length_le : plain.length ≤ encryptMaxLen
  not_encrypted : isEncrypted crypto.toCrypto (asBytes plain) = false
  not_decrypted : (decryptStrOrOriginal crypto.toCrypto config plain passwordEncVersion).2.1 = false
  not_hash : (decryptPermanentPasswordStrOrOriginal crypto.toCrypto config plain).2.1 = false

/-- What `store` keeps as it is. -/
inductive Storable : Prop
  | empty (h : config.password = [])
  | plain (h : Plain crypto config config.password)
  | hashed (h1 : Bytes) (h : Hashed crypto config h1)

variable {crypto config} {storage : List Char}

theorem decode_some {h1 : Bytes}
    (h : decodePermanentPasswordH1FromStorage crypto.toCrypto config storage = some h1) :
    permanentPasswordEncVersion <+: storage ∧
      (decryptPermanentPasswordStrOrOriginal crypto.toCrypto config storage).2.1 = true ∧
      decodePermanentPasswordH1FromHashedStorage crypto
        (decryptPermanentPasswordStrOrOriginal crypto.toCrypto config storage).1 = some h1 := by
  unfold decodePermanentPasswordH1FromStorage at h
  split at h
  · next hversion =>
    refine ⟨hversion, ?_⟩
    dsimp only at h
    split at h
    · cases h
    · next hdecrypted => exact ⟨by simpa using hdecrypted, h⟩
  · cases h

theorem not_passwordEncVersion
    (h : permanentPasswordEncVersion <+: storage) : ¬ passwordEncVersion <+: storage := by
  intro h'
  obtain ⟨s, rfl⟩ := h
  obtain ⟨t, ht⟩ := h'
  cases ht

theorem decode_ne_nil {h1 : Bytes}
    (h : decodePermanentPasswordH1FromStorage crypto.toCrypto config storage = some h1) : storage ≠
    [] := by
  rintro rfl
  obtain ⟨t, ht⟩ := (decode_some h).1
  cases ht

theorem decrypted_prefix {storage version : List Char}
    (h : (decryptStrOrOriginal crypto.toCrypto config storage version).2.1 = true) :
    passwordEncVersion <+: storage := by
  unfold decryptStrOrOriginal at h
  split at h
  · next hcond => exact hcond.2
  · cases h

theorem decryptStrOrOriginal_of_false {storage version : List Char}
    (h : (decryptStrOrOriginal crypto.toCrypto config storage version).2.1 = false) :
    decryptStrOrOriginal crypto.toCrypto config storage version =
      (storage, false,
        decide (storage ≠ []) && !isEncrypted crypto.toCrypto (asBytes storage)) := by
  unfold decryptStrOrOriginal at h ⊢
  split
  · next hcond =>
    rw [if_pos hcond] at h
    split
    · next v hv =>
      rw [hv] at h
      cases h
    · rfl
  · rfl

namespace Plain

variable {plain : List Char} (h : Plain crypto config plain)

include h

theorem decode : decodePermanentPasswordH1FromStorage crypto.toCrypto config plain = none := by
  cases hdecode : decodePermanentPasswordH1FromStorage crypto.toCrypto config plain with
  | none => rfl
  | some h1 =>
    exact absurd (decode_some hdecode).2.1 (by rw [h.not_hash]; exact Bool.false_ne_true)

theorem decrypt : decryptStrOrOriginal crypto.toCrypto config plain passwordEncVersion =
    (plain, false, true) := by
  rw [decryptStrOrOriginal_of_false h.not_decrypted, h.not_encrypted, decide_eq_true h.ne_nil]
  rfl

theorem usable (salt : List Char) :
    localPermanentPasswordStorageIsUsableForAuth crypto.toCrypto config plain salt = true := by
  unfold localPermanentPasswordStorageIsUsableForAuth
  rw [if_neg h.ne_nil, h.decode, Option.isSome_none, if_neg Bool.false_ne_true,
    if_neg (fun hcond => absurd hcond.2 (by rw [h.not_hash]; exact Bool.false_ne_true)), h.decrypt]
  exact if_neg fun hcond => absurd hcond.2.2 Bool.false_ne_true

end Plain

theorem Hashed.usable {h1 : Bytes} (h : Hashed crypto config h1) :
    localPermanentPasswordStorageIsUsableForAuth crypto.toCrypto config config.password
      config.salt = true := by
  unfold localPermanentPasswordStorageIsUsableForAuth
  rw [if_neg (decode_ne_nil h.decode), h.decode]
  exact decide_eq_true h.salt_ne

/-! ### Storing and loading -/

theorem Storable.validate (h : Storable crypto config) :
    config.validateOrDecryptPermanentPasswordStorage crypto = .ok config := by
  unfold Config.validateOrDecryptPermanentPasswordStorage
  cases h with
  | empty hempty => exact if_pos hempty
  | plain hplain =>
    rw [if_neg hplain.ne_nil, hplain.decrypt]
    split
    · rfl
    · dsimp only
      rw [hplain.not_hash]
      rfl
  | hashed h1 hhashed =>
    obtain ⟨hversion, hdecrypted, hinner⟩ := decode_some hhashed.decode
    rw [if_neg (decode_ne_nil hhashed.decode), if_neg (not_passwordEncVersion hversion)]
    dsimp only
    unfold Config.ensurePermanentPasswordHashSalt
    rw [hdecrypted, if_neg hhashed.salt_ne, hinner]
    rfl

theorem load_decrypted {plain stored salt : List Char}
    (hstored : (decryptStrOrOriginal crypto.toCrypto config stored passwordEncVersion).2.1 = true ∧
      (decryptStrOrOriginal crypto.toCrypto config stored passwordEncVersion).1 = plain) :
    config.load crypto ⟨stored, salt⟩ = { config with password := plain, salt := salt } := by
  have hversion := decrypted_prefix hstored.1
  have hne : stored ≠ [] := by
    rintro rfl
    obtain ⟨t, ht⟩ := hversion
    cases ht
  have hsame : ({ config with password := stored, salt := salt } : Config
      ).validateOrDecryptPermanentPasswordStorage crypto =
        .ok { config with password := plain, salt := salt } := by
    unfold Config.validateOrDecryptPermanentPasswordStorage
    rw [if_neg hne, if_pos hversion]
    show (if (decryptStrOrOriginal crypto.toCrypto config stored passwordEncVersion).2.1 then
      Except.ok (ε := String) { config with
        password := (decryptStrOrOriginal crypto.toCrypto config stored passwordEncVersion).1
        salt := salt } else _) = _
    rw [if_pos hstored.1, hstored.2]
  unfold Config.load
  dsimp only
  rw [hsame]

theorem Plain.keep (hlaw : crypto.Lawful) {plain : List Char} (h : Plain crypto config plain)
    (nonce : GenNonce) (stored : List Char) :
    (decryptStrOrOriginal crypto.toCrypto config
        (keepEncryptedStorageIfPlaintextUnchanged crypto config nonce plain stored)
        passwordEncVersion).2.1 = true ∧
      (decryptStrOrOriginal crypto.toCrypto config
        (keepEncryptedStorageIfPlaintextUnchanged crypto config nonce plain stored)
        passwordEncVersion).1 = plain := by
  unfold keepEncryptedStorageIfPlaintextUnchanged
  dsimp only
  split
  · next hsame =>
    rw [Bool.and_eq_true, decide_eq_true_eq] at hsame
    exact hsame
  · rw [decryptStrOrOriginal_encrypt hlaw config nonce h.ne_nil h.not_encrypted h.length_le]
    exact ⟨rfl, rfl⟩

theorem load_store (hlaw : crypto.Lawful) (h : Storable crypto config) (file : StoredConfig)
    (r : Random) : config.load crypto (config.store crypto file r) = config := by
  have hprepare : config.prepareConfigForStore crypto = config := by
    unfold Config.prepareConfigForStore
    rw [h.validate]
  have hload (hvalid : config.validateOrDecryptPermanentPasswordStorage crypto = .ok config) :
      config.load crypto ⟨config.password, config.salt⟩ = config := by
    unfold Config.load
    dsimp only
    rw [hvalid]
  unfold Config.store
  dsimp only
  rw [hprepare]
  have hvalid := h.validate
  cases h with
  | empty hempty =>
    rw [if_neg (fun hcond => hcond.1 hempty)]
    exact hload hvalid
  | plain hplain =>
    rw [if_pos ⟨hplain.ne_nil, hplain.decode⟩]
    exact load_decrypted (hplain.keep hlaw r.storeNonce file.password)
  | hashed h1 hhashed =>
    rw [if_neg (fun hcond => absurd (hhashed.decode.symm.trans hcond.2) (Option.some_ne_none h1))]
    exact hload hvalid

end Memory

end Ohos

end LibRustdesk
