import LibRustdesk.Ohos.Password

/-!
# Keeping the permanent password

`Config::set_permanent_password`, `set_permanent_password_storage_for_sync`, `set_salt`,
`get_salt`, `store` and `load` of `libs/hbb_common/src/config.rs`, with what they call of
`config/permanent_password.rs` and `password_security.rs`.

The password and its salt are two fields of the configuration in memory, and of the file that is
written by `store` and read by `load` when the program starts. A password is stored as its hash
with the salt, sealed under a key of the machine (`01`). An older version stored the password
itself, sealed (`00`); such a password is plain in memory and sealed again whenever it is stored.
So whether the salt may change depends on what the other field holds.

Where `Password` reads a snapshot of the configuration, this is how it changes. The base64 encoder
and what is drawn at random come with each operation (`Random`); writing the file succeeds. Of the
configuration only the two fields are modelled; that `load` may store it again for the sake of the
device's id is a flag of `load`.
-/

namespace LibRustdesk

namespace Ohos

open LittleEndian

/-- The functions that are linked in, with the other half of base64. -/
structure StorageCrypto extends Crypto where
  /-- `base64::encode` with the original alphabet. -/
  base64Encode : Bytes → List Char

def defaultSaltLen : ℕ := 32

def encryptMaxLen : ℕ := 128

/-- What `secretbox::gen_nonce` returns. -/
abbrev GenNonce := {n : Bytes // n.length = FramedStream.nonceBytes}

structure Random where
  /-- `Config::get_auto_password(DEFAULT_SALT_LEN)`. -/
  autoPassword : {s : List Char // s.length = defaultSaltLen}
  /-- The nonce of a new hash. -/
  hashNonce : GenNonce
  /-- The nonce of a plain password that is stored. -/
  storeNonce : GenNonce

structure StoredConfig where
  password : List Char
  salt : List Char
  deriving DecidableEq, Repr

structure Device where
  config : Config
  file : StoredConfig

section Encrypt

variable (crypto : StorageCrypto) (config : Config)

/-- `symmetric_crypt(data, true)`. -/
def symmetricEncrypt (nonce : GenNonce) (data : Bytes) : Bytes :=
  formatV1 :: (nonce.val ++ crypto.box.sealBox data nonce.val (resize config.uuid keyBytes))

def encrypt (nonce : GenNonce) (v : Bytes) : Option (List Char) :=
  if v ≠ [] then some (crypto.base64Encode (symmetricEncrypt crypto config nonce v)) else none

def encryptStrOrOriginal (nonce : GenNonce) (s version : List Char) (maxLen : ℕ) : List Char :=
  if isEncrypted crypto.toCrypto (asBytes s) then s
  else if s.length > maxLen then []
  else if version = passwordEncVersion then
    match encrypt crypto config nonce (asBytes s) with
    | some encrypted => version ++ encrypted
    | none => s
  else s

def keepEncryptedStorageIfPlaintextUnchanged (nonce : GenNonce) (plain stored : List Char) :
    List Char :=
  let (storedPlain, encrypted, _) :=
    decryptStrOrOriginal crypto.toCrypto config stored passwordEncVersion
  if encrypted && storedPlain = plain then stored
  else encryptStrOrOriginal crypto config nonce plain passwordEncVersion encryptMaxLen

def computePermanentPasswordH1 (password salt : List Char) : Bytes :=
  crypto.sha256 (asBytes password ++ asBytes salt)

def encodePermanentPasswordStorageFromH1 (h1 : Bytes) : List Char :=
  permanentPasswordHashPrefix ++ crypto.base64Encode h1

def encryptPermanentPasswordStorage (nonce : GenNonce) (storage : List Char) : Option (List Char) :=
  if storage.length > encryptMaxLen then none
  else some (permanentPasswordEncVersion ++
    crypto.base64Encode (symmetricEncrypt crypto config nonce (asBytes storage)))

def encodePermanentPasswordEncryptedStorageFromH1 (nonce : GenNonce) (h1 : Bytes) :
    Option (List Char) :=
  encryptPermanentPasswordStorage crypto config nonce
    (encodePermanentPasswordStorageFromH1 crypto h1)

end Encrypt

/-! ### Predicates on what is stored -/

section Predicates

variable (crypto : StorageCrypto) (config : Config)

def decodePermanentPasswordH1FromHashedStorage (storage : List Char) : Option Bytes :=
  decodePasswordH1AfterPrefix crypto.toCrypto storage permanentPasswordHashPrefix

def presetPermanentPasswordStorageMatchesPlain (storage salt input : List Char) : Bool :=
  if storage = [] ∨ input = [] then false
  else if salt = [] then storage = input
  else
    match decodePresetPasswordH1FromStorage crypto.toCrypto storage with
    | none => false
    | some storedH1 => computePermanentPasswordH1 crypto input salt = storedH1

/-- Whether the salt may change: a storage that begins as a sealed hash is bound to it. -/
def passwordIsEmptyOrNotHashed (storage : List Char) : Bool :=
  if storage = [] then true
  else if (decodePermanentPasswordH1FromStorage crypto.toCrypto config storage).isSome then false
  else if permanentPasswordEncVersion <+: storage then false
  else
    let (_, decrypted, looksLikePlaintext) :=
      decryptStrOrOriginal crypto.toCrypto config storage passwordEncVersion
    decrypted || looksLikePlaintext

end Predicates

/-! ### `Config::store` and `Config::load` -/

namespace Config

variable (crypto : StorageCrypto)

def ensurePermanentPasswordHashSalt (config : Config) : Except String Unit :=
  if config.salt = [] then
    .error "Permanent password hash storage requires a non-empty salt"
  else .ok ()

/-- The configuration with its password decrypted; an error leaves it as it was. -/
def validateOrDecryptPermanentPasswordStorage (config : Config) : Except String Config :=
  if config.password = [] then .ok config
  else if passwordEncVersion <+: config.password then
    let (plain, decrypted, shouldStore) :=
      decryptStrOrOriginal crypto.toCrypto config config.password passwordEncVersion
    if decrypted then .ok { config with password := plain }
    else if !shouldStore then .error "Invalid permanent password encrypted hash storage"
    else .ok config
  else
    let (decryptedStorage, decrypted, _) :=
      decryptPermanentPasswordStrOrOriginal crypto.toCrypto config config.password
    if decrypted then
      match config.ensurePermanentPasswordHashSalt with
      | .error e => .error e
      | .ok () =>
        if (decodePermanentPasswordH1FromHashedStorage crypto decryptedStorage).isSome then
          .ok config
        else .error "Invalid permanent password encrypted hash storage"
    else .ok config

def ensurePermanentPasswordSalt (config : Config) (r : Random) : Config :=
  if config.salt = [] then { config with salt := r.autoPassword.val } else config

def prepareConfigForStore (config : Config) : Config :=
  match config.validateOrDecryptPermanentPasswordStorage crypto with
  | .ok config => config
  | .error _ => { config with password := [], salt := [] }

/-- What is written over `file`. -/
def store (config : Config) (file : StoredConfig) (r : Random) : StoredConfig :=
  let config := config.prepareConfigForStore crypto
  let password :=
    if config.password ≠ [] ∧
        decodePermanentPasswordH1FromStorage crypto.toCrypto config config.password = none then
      keepEncryptedStorageIfPlaintextUnchanged crypto config r.storeNonce config.password
        file.password
    else config.password
  ⟨password, config.salt⟩

/-- What is read from `file`; the rest is that of `config`. -/
def load (config : Config) (file : StoredConfig) : Config :=
  let config := { config with password := file.password, salt := file.salt }
  match config.validateOrDecryptPermanentPasswordStorage crypto with
  | .ok config => config
  | .error _ => config

end Config

/-! ### The operations -/

namespace Device

variable (crypto : StorageCrypto)

/-- `CONFIG` is changed and stored. -/
def save (d : Device) (config : Config) (r : Random) : Device :=
  ⟨config, config.store crypto d.file r⟩

/-- The start of the program. `storeId` says that the id makes it store what it read. -/
def load (d : Device) (storeId : Bool) (r : Random) : Device :=
  let config := d.config.load crypto d.file
  if storeId then d.save crypto config r else { d with config := config }

/-- `compute_permanent_password_storage_for_update`: the salt is kept where there is one. -/
def computePermanentPasswordStorageForUpdate (config : Config) (password : List Char)
    (r : Random) : Config × Option (List Char) :=
  let config := config.ensurePermanentPasswordSalt r
  (config, encodePermanentPasswordEncryptedStorageFromH1 crypto config r.hashNonce
    (computePermanentPasswordH1 crypto password config.salt))

/-- `disabled` is `is_disable_change_permanent_password`. -/
def setPermanentPassword (d : Device) (disabled : Bool) (password : List Char) (r : Random) :
    Device × Bool :=
  if disabled then (d, false)
  else if presetPermanentPasswordStorageMatchesPlain crypto d.config.hardPassword d.config.hardSalt
      password ∧ d.config.password = [] then (d, true)
  else
    let (config, stored) :=
      if password = [] then (d.config, some [])
      else computePermanentPasswordStorageForUpdate crypto d.config password r
    match stored with
    | none => ({ d with config := config }, false)
    | some stored =>
      if stored = config.password then ({ d with config := config }, true)
      else (d.save crypto { config with password := stored } r, true)

/-- The configuration changed by a payload, or `none` where it stays. -/
def applyPermanentPasswordStorageForSync (config : Config) (storage salt : List Char) :
    Except String (Option Config) :=
  if storage = [] then
    if config.password = [] ∧ (salt = [] ∨ config.salt = salt) then .ok none
    else
      .ok (some { config with
        password := []
        salt := if salt ≠ [] then salt else config.salt })
  else if salt = [] then
    .error "Refusing to persist permanent password storage without salt"
  else if decodePermanentPasswordH1FromStorage crypto.toCrypto config storage = none then
    .error "Invalid permanent password storage sync payload"
  else if config.password = storage ∧ config.salt = salt then .ok none
  else .ok (some { config with password := storage, salt := salt })

def setPermanentPasswordStorageForSync (d : Device) (storage salt : List Char) (r : Random) :
    Device × Except String Bool :=
  match applyPermanentPasswordStorageForSync crypto d.config storage salt with
  | .error e => (d, .error e)
  | .ok none => (d, .ok false)
  | .ok (some config) => (d.save crypto config r, .ok true)

def setSalt (d : Device) (salt : List Char) (r : Random) : Device :=
  if salt = d.config.salt then d
  else if !passwordIsEmptyOrNotHashed crypto d.config d.config.password ∧ d.config.salt ≠ [] then d
  else d.save crypto { d.config with salt := salt } r

def getSalt (d : Device) (r : Random) : Device × List Char :=
  if d.config.salt = [] then (d.setSalt crypto r.autoPassword.val r, r.autoPassword.val)
  else (d, d.config.salt)

def getEffectivePermanentPasswordSalt (d : Device) (r : Random) : Device × List Char :=
  if d.config.password ≠ [] then
    if localPermanentPasswordStorageIsUsableForAuth crypto.toCrypto d.config d.config.password
        d.config.salt then d.getSalt crypto r
    else (d, [])
  else if d.config.hardSalt ≠ [] then
    if presetPermanentPasswordStorageIsUsableForAuth crypto.toCrypto d.config.hardPassword
        d.config.hardSalt then (d, d.config.hardSalt)
    else (d, [])
  else d.getSalt crypto r

end Device

end Ohos

end LibRustdesk
