import LibRustdesk.Framework.SealOnce
import LibRustdesk.Ohos.PermanentPassword

/-!
# Stored secrets

`encrypt_str_or_original`, `decrypt_str_or_original` and their variants for bytes, of
`libs/hbb_common/src/password_security.rs`, as they are used on the secrets of a file: `store` seals
what is in memory, `load` opens what it reads and stores it again where it was not sealed.

A secret may have any form. It may begin with `00` and go on as base64; then both functions take it
for something sealed, and it is kept as it is unless a key of the machine opens it.

* `strSecret` and `vecSecret` are the two pairs, for a bound on the length. Both are `Lawful`: the
  test for the form, the version in front and the fallback agree on every value.
* `Openable` — the value is a ciphertext that one of the current keys opens.
* `secrets_round_trip` — whatever is not openable and fits comes back, was opened exactly if it was
  sealed, and nothing is sealed twice.

The nonce of each sealing is arbitrary, and the keys are those of one configuration.
-/

namespace LibRustdesk

namespace Ohos

open LittleEndian

/-! ### The variants for bytes -/

section Vec

variable (crypto : StorageCrypto) (config : Config)

def encryptVecOrOriginal (nonce : GenNonce) (v : Bytes) (version : List Char) (maxLen : ℕ) :
    Bytes :=
  if isEncrypted crypto.toCrypto v then v
  else if v.length > maxLen then []
  else if version = passwordEncVersion then
    match encrypt crypto config nonce v with
    | some encrypted => asBytes version ++ asBytes encrypted
    | none => v
  else v

/-- `decrypt_vec_or_original`: the bytes, whether they were decrypted, whether to store them
again. -/
def decryptVecOrOriginal (v : Bytes) (currentVersion : List Char) : Bytes × Bool × Bool :=
  let original := (v, false, v ≠ [] && !isEncrypted crypto.toCrypto v)
  -- the version is compared as text, so two bytes that are not UTF-8 are no version
  if v.length > versionLen ∧ fromUtf8Lossy (v.take versionLen) = passwordEncVersion then
    match decrypt crypto.toCrypto config (v.drop versionLen) with
    | some decrypted => (decrypted, true, passwordEncVersion ≠ currentVersion)
    | none => original
  else original

def Openable (v : Bytes) : Prop :=
  asBytes passwordEncVersion <+: v ∧
    (decrypt crypto.toCrypto config (v.drop versionLen)).isSome = true

/-- The functions for text, with the version that is in use. -/
def strSecret (maxLen : ℕ) : SealOnce GenNonce (List Char) where
  empty := []
  looksSealed s := isEncrypted crypto.toCrypto (asBytes s)
  fits s := decide (s.length ≤ maxLen)
  encrypt nonce s := encryptStrOrOriginal crypto config nonce s passwordEncVersion maxLen
  decrypt s := decryptStrOrOriginal crypto.toCrypto config s passwordEncVersion

def vecSecret (maxLen : ℕ) : SealOnce GenNonce Bytes where
  empty := []
  looksSealed v := isEncrypted crypto.toCrypto v
  fits v := decide (v.length ≤ maxLen)
  encrypt nonce v := encryptVecOrOriginal crypto config nonce v passwordEncVersion maxLen
  decrypt v := decryptVecOrOriginal crypto config v passwordEncVersion

end Vec

/-! ### Both pairs are lawful -/

section Lawful

variable {crypto : StorageCrypto} (hlaw : crypto.Lawful) (config : Config) (maxLen : ℕ)

include hlaw

theorem encryptVecOrOriginal_spec (nonce : GenNonce) {plain : Bytes} (hne : plain ≠ [])
    (hplain : isEncrypted crypto.toCrypto plain = false) (hlen : plain.length ≤ maxLen) :
    isEncrypted crypto.toCrypto
        (encryptVecOrOriginal crypto config nonce plain passwordEncVersion maxLen) = true ∧
      decryptVecOrOriginal crypto config
        (encryptVecOrOriginal crypto config nonce plain passwordEncVersion maxLen)
        passwordEncVersion = (plain, true, false) := by
  obtain ⟨sealedText, hencrypt, hlong, hlooks, hdecrypt⟩ := encrypt_spec hlaw config nonce hne
  have hsealed : encryptVecOrOriginal crypto config nonce plain passwordEncVersion maxLen =
      asBytes (passwordEncVersion ++ sealedText) := by
    unfold encryptVecOrOriginal
    rw [hplain, if_neg Bool.false_ne_true, if_neg (Nat.not_lt.mpr hlen), if_pos rfl, hencrypt,
      asBytes_append]
  have htake : (asBytes (passwordEncVersion ++ sealedText)).take versionLen =
      asBytes passwordEncVersion := by
    rw [asBytes_append]
    exact List.take_left' (by decide)
  rw [hsealed]
  refine ⟨hlooks, ?_⟩
  unfold decryptVecOrOriginal
  rw [if_pos ⟨hlong, by rw [htake, fromUtf8Lossy_asBytes]⟩, (drop_version _).2, hdecrypt]
  rfl

omit hlaw in
theorem decryptStrOrOriginal_of_true {s : List Char}
    (hopened : (decryptStrOrOriginal crypto.toCrypto config s passwordEncVersion).2.1 = true) :
    (decryptStrOrOriginal crypto.toCrypto config s passwordEncVersion).2.2 = false := by
  unfold decryptStrOrOriginal at hopened ⊢
  split at hopened
  · next hcond =>
    rw [if_pos hcond]
    split at hopened
    · rfl
    · cases hopened
  · cases hopened

theorem strSecret_lawful : (strSecret crypto config maxLen).Lawful where
  encrypt_looksSealed n s hlooks := if_pos hlooks
  encrypt_long n s hlooks hfits := by
    show encryptStrOrOriginal crypto config n s passwordEncVersion maxLen = []
    unfold encryptStrOrOriginal
    rw [show isEncrypted crypto.toCrypto (asBytes s) = false from hlooks,
      if_neg Bool.false_ne_true, if_pos (Nat.not_le.mp (of_decide_eq_false hfits))]
  encrypt_empty n := by
    rfl
  looksSealed_encrypt n s hlooks hfits hne :=
    (encryptStrOrOriginal_spec hlaw config n hne hlooks (of_decide_eq_true hfits)).1
  decrypt_encrypt n s hlooks hfits hne :=
    (encryptStrOrOriginal_spec hlaw config n hne hlooks (of_decide_eq_true hfits)).2
  decrypt_opened s hopened := decryptStrOrOriginal_of_true config hopened
  decrypt_failed s hfailed := decryptStrOrOriginal_of_false hfailed

theorem vecSecret_lawful : (vecSecret crypto config maxLen).Lawful where
  encrypt_looksSealed n v hlooks := if_pos hlooks
  encrypt_long n v hlooks hfits := by
    show encryptVecOrOriginal crypto config n v passwordEncVersion maxLen = []
    unfold encryptVecOrOriginal
    rw [show isEncrypted crypto.toCrypto v = false from hlooks, if_neg Bool.false_ne_true,
      if_pos (Nat.not_le.mp (of_decide_eq_false hfits))]
  encrypt_empty n := by
    rfl
  looksSealed_encrypt n v hlooks hfits hne :=
    (encryptVecOrOriginal_spec hlaw config maxLen n hne hlooks (of_decide_eq_true hfits)).1
  decrypt_encrypt n v hlooks hfits hne :=
    (encryptVecOrOriginal_spec hlaw config maxLen n hne hlooks (of_decide_eq_true hfits)).2
  decrypt_opened v hopened := by
    change (decryptVecOrOriginal crypto config v passwordEncVersion).2.1 = true at hopened
    show (decryptVecOrOriginal crypto config v passwordEncVersion).2.2 = false
    unfold decryptVecOrOriginal at hopened ⊢
    split at hopened
    · next hcond =>
      rw [if_pos hcond]
      split at hopened
      · rfl
      · cases hopened
    · cases hopened
  decrypt_failed v hfailed := by
    change (decryptVecOrOriginal crypto config v passwordEncVersion).2.1 = false at hfailed
    show decryptVecOrOriginal crypto config v passwordEncVersion = _
    unfold decryptVecOrOriginal at hfailed ⊢
    split at hfailed
    · next hcond =>
      rw [if_pos hcond]
      split at hfailed
      · cases hfailed
      · rfl
    · next hcond =>
      rw [if_neg hcond]
      rfl

end Lawful

/-! ### Secrets come back -/

section RoundTrip

variable {crypto : StorageCrypto} {config : Config} {maxLen : ℕ}

theorem not_opened_str {s : List Char} (hopen : ¬ Openable crypto config (asBytes s)) :
    (decryptStrOrOriginal crypto.toCrypto config s passwordEncVersion).2.1 = false := by
  unfold decryptStrOrOriginal
  split
  · next hcond =>
    have hversioned : asBytes passwordEncVersion <+: asBytes s := by
      obtain ⟨rest, rfl⟩ := hcond.2
      rw [asBytes_append]
      exact List.prefix_append _ _
    split
    · next plain hplain => exact absurd ⟨hversioned, by rw [hplain]; rfl⟩ hopen
    · rfl
  · rfl

theorem prefix_of_version {v : Bytes} (h : fromUtf8Lossy (v.take versionLen) = passwordEncVersion) :
    asBytes passwordEncVersion <+: v := by
  have htake : v.take versionLen = asBytes passwordEncVersion := by
    refine eq_asBytes_of_length h ?_ (by decide)
    exact List.length_take_le _ _
  rw [← htake]
  exact List.take_prefix _ _

theorem not_opened_vec {v : Bytes} (hopen : ¬ Openable crypto config v) :
    (decryptVecOrOriginal crypto config v passwordEncVersion).2.1 = false := by
  unfold decryptVecOrOriginal
  split
  · next hcond =>
    split
    · next plain hplain =>
      exact absurd ⟨prefix_of_version hcond.2, by rw [hplain]; rfl⟩ hopen
    · rfl
  · rfl

end RoundTrip

/-- **Stored secrets.** A text, or a string of bytes, that is within the length and no ciphertext
for the current keys comes back, and was decrypted exactly if it was neither empty nor looked
encrypted. Encrypting again changes nothing, what was stored does not ask to be stored, and one load
settles a file. -/
theorem secrets_round_trip {crypto : StorageCrypto} (hlaw : crypto.Lawful) (config : Config)
    (maxLen : ℕ) :
    (∀ s : List Char, s.length ≤ maxLen → ¬ Openable crypto config (asBytes s) →
      (strSecret crypto config maxLen).RoundTrips s) ∧
    (strSecret crypto config maxLen).Stable ∧
    (∀ v : Bytes, v.length ≤ maxLen → ¬ Openable crypto config v →
      (vecSecret crypto config maxLen).RoundTrips v) ∧
    (vecSecret crypto config maxLen).Stable := by
  have hstr := strSecret_lawful hlaw config maxLen
  have hvec := vecSecret_lawful hlaw config maxLen
  refine ⟨?_, hstr.stable, ?_, hvec.stable⟩
  · intro s hlen hopen
    exact hstr.roundTrips (decide_eq_true hlen) (not_opened_str hopen)
  · intro v hlen hopen
    exact hvec.roundTrips (decide_eq_true hlen) (not_opened_vec hopen)

/-- Text that looks sealed and text that begins like it, both kept. -/
theorem secrets_round_trip_looksSealed :
    (strSecret plainCrypto plainConfig 32).RoundTrips "00aaaaaaaaaaaaaaaa".toList ∧
      (vecSecret plainCrypto plainConfig 3).RoundTrips [48, 48, 1] ∧
      (strSecret plainCrypto plainConfig 32).Stable := by
  obtain ⟨hstr, hstable, -, -⟩ := secrets_round_trip plainCrypto_lawful plainConfig 32
  obtain ⟨-, -, hvec, -⟩ := secrets_round_trip plainCrypto_lawful plainConfig 3
  refine ⟨hstr _ (by decide) ?_, hvec _ (by decide) ?_, hstable⟩
  · rintro ⟨-, hopen⟩
    revert hopen
    decide +kernel
  · rintro ⟨-, hopen⟩
    revert hopen
    decide +kernel

/-! ### The secrets of a peer's file -/

/-- The password and the options of a `PeerConfig`. The options that are not secret stay. -/
structure PeerSecrets where
  password : Bytes
  options : List Char → Option (List Char)

namespace PeerSecrets

def secretOptions : List (List Char) :=
  ["rdp_password".toList, "os-username".toList, "os-password".toList]

variable (crypto : StorageCrypto) (config : Config)

/-- What `store_` writes, with a nonce for the password and for each option. -/
def store (passwordNonce : GenNonce) (optionNonce : List Char → GenNonce) (c : PeerSecrets) :
    PeerSecrets where
  password :=
    encryptVecOrOriginal crypto config passwordNonce c.password passwordEncVersion encryptMaxLen
  options opt := (c.options opt).map fun v =>
    if secretOptions.contains opt then
      encryptStrOrOriginal crypto config (optionNonce opt) v passwordEncVersion encryptMaxLen
    else v

/-- What `load` makes of a file, and whether it stores that. -/
def load (file : PeerSecrets) : PeerSecrets × Bool :=
  let (password, _, store) := decryptVecOrOriginal crypto config file.password passwordEncVersion
  ({ password := password
     options := fun opt => (file.options opt).map fun v =>
      if secretOptions.contains opt then
        (decryptStrOrOriginal crypto.toCrypto config v passwordEncVersion).1
      else v },
    store || secretOptions.any fun opt =>
      (file.options opt).any fun v =>
        (decryptStrOrOriginal crypto.toCrypto config v passwordEncVersion).2.2)

variable {crypto config} (hlaw : crypto.Lawful)

include hlaw

end PeerSecrets

end Ohos

end LibRustdesk
