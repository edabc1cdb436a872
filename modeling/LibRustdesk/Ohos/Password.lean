import LibRustdesk.Net.Encrypt

/-!
# Password validation

`validate_password` of `harmony_bridge/server_ohos.rs` and what it reads: the options and
passwords of `password_security.rs` and `config/permanent_password.rs`.

The hash function, the base64 decoder and `secretbox` are outside the repository and are the
fields of `Crypto`. The options, the passwords and the keys of the device are read when a login
arrives, so they are a snapshot (`Config`) that comes with it. Strings are lists of characters.
-/

namespace LibRustdesk

namespace Ohos

open LittleEndian

structure Crypto where
  /-- `Sha256` of the concatenated updates. -/
  sha256 : Bytes → Bytes
  /-- `base64::decode` with the original alphabet. -/
  base64Decode : Bytes → Option Bytes
  box : SecretBox Bytes

structure Config where
  /-- `Config::get_option`: the empty text where an option is not set. -/
  option : List Char → List Char
  temporaryPassword : List Char
  /-- `CONFIG.password` and `CONFIG.salt`. -/
  password : List Char
  salt : List Char
  /-- `HARD_SETTINGS["password"]` and `HARD_SETTINGS["salt"]`. -/
  hardPassword : List Char
  hardSalt : List Char
  uuid : Bytes
  /-- The public half of `Config::get_existing_key_pair`. -/
  existingPk : Option Bytes

def asBytes (s : List Char) : Bytes := s.flatMap String.utf8EncodeChar

/-! ### Decoding UTF-8 -/

/-- The bytes that may follow a leading byte: how many there are, and the range of the first. -/
def utf8Tail (b : UInt8) : Option (ℕ × UInt8 × UInt8) :=
  if 0xC2 ≤ b ∧ b ≤ 0xDF then some (1, 0x80, 0xBF)
  else if b = 0xE0 then some (2, 0xA0, 0xBF)
  else if b = 0xED then some (2, 0x80, 0x9F)
  else if 0xE1 ≤ b ∧ b ≤ 0xEF then some (2, 0x80, 0xBF)
  else if b = 0xF0 then some (3, 0x90, 0xBF)
  else if 0xF1 ≤ b ∧ b ≤ 0xF3 then some (3, 0x80, 0xBF)
  else if b = 0xF4 then some (3, 0x80, 0x8F)
  else none

/-- The bits of a leading byte with `n` bytes to follow. -/
def utf8Lead (b : UInt8) (n : ℕ) : ℕ := b.toNat % 2 ^ (6 - n)

/-- Continuation bytes onto the bits read so far: the code point, or nothing where the sequence
breaks off, and the rest of the input. -/
def utf8Continue (acc : ℕ) : ℕ → UInt8 → UInt8 → Bytes → Option ℕ × Bytes
  | 0, _, _, rest => (some acc, rest)
  | _ + 1, _, _, [] => (none, [])
  | n + 1, lo, hi, b :: rest =>
    if lo ≤ b ∧ b ≤ hi then utf8Continue (acc * 64 + b.toNat % 64) n 0x80 0xBF rest
    else (none, b :: rest)

/-- `String::from_utf8_lossy`: every maximal part of a sequence that breaks off is replaced. -/
def fromUtf8LossyFuel : ℕ → Bytes → List Char
  | 0, _ => []
  | _ + 1, [] => []
  | n + 1, b :: rest =>
    if b < 0x80 then Char.ofNat b.toNat :: fromUtf8LossyFuel n rest
    else
      match utf8Tail b with
      | none => '\uFFFD' :: fromUtf8LossyFuel n rest
      | some (count, lo, hi) =>
        match utf8Continue (utf8Lead b count) count lo hi rest with
        | (some code, rest) => Char.ofNat code :: fromUtf8LossyFuel n rest
        | (none, rest) => '\uFFFD' :: fromUtf8LossyFuel n rest

def fromUtf8Lossy (v : Bytes) : List Char := fromUtf8LossyFuel v.length v

/-! ### Stored passwords -/

def formatV1 : UInt8 := 1

def versionLen : ℕ := 2

def passwordEncVersion : List Char := ['0', '0']

def permanentPasswordEncVersion : List Char := ['0', '1']

def permanentPasswordHashPrefix : List Char := ['0', '0']

def hbbsPresetPasswordHashPrefix : List Char := ['0', '0']

def permanentPasswordH1Len : ℕ := 32

def keyBytes : ℕ := 32

/-- `Vec::resize` with zeros. -/
def resize (v : Bytes) (n : ℕ) : Bytes := v.take n ++ List.replicate (n - v.length) 0

section Storage

variable (crypto : Crypto) (config : Config)

/-- A payload with its nonce in front, or sealed under the zero nonce. -/
def openSecretboxPayload (data : Bytes) (key : Bytes) : Option Bytes :=
  let current :=
    if data.head? = some formatV1 ∧ data.length ≥ 1 + FramedStream.nonceBytes + macBytes then
      crypto.box.openBox (data.drop (1 + FramedStream.nonceBytes))
        ((data.drop 1).take FramedStream.nonceBytes) key
    else none
  match current with
  | some decrypted => some decrypted
  | none => crypto.box.openBox data (List.replicate FramedStream.nonceBytes 0) key

/-- `symmetric_crypt(data, false)`. -/
def symmetricDecrypt (data : Bytes) : Option Bytes :=
  match openSecretboxPayload crypto data (resize config.uuid keyBytes) with
  | some v => some v
  | none =>
    match config.existingPk with
    | some pk =>
      if pk ≠ config.uuid then openSecretboxPayload crypto data (resize pk keyBytes) else none
    | none => none

def decrypt (v : Bytes) : Option Bytes :=
  if v = [] then none
  else
    match crypto.base64Decode v with
    | some v => symmetricDecrypt crypto config v
    | none => none

def isEncrypted (v : Bytes) : Bool :=
  if v.length ≤ versionLen ∨ ¬ asBytes passwordEncVersion <+: v then false
  else
    match crypto.base64Decode (v.drop versionLen) with
    | some decoded => decoded.length ≥ macBytes
    | none => false

/-- `decrypt_str_or_original`: the text, whether it was decrypted, whether to store it again. -/
def decryptStrOrOriginal (s currentVersion : List Char) : List Char × Bool × Bool :=
  let original := (s, false, s ≠ [] && !isEncrypted crypto (asBytes s))
  if (asBytes s).length > versionLen ∧ passwordEncVersion <+: s then
    match decrypt crypto config ((asBytes s).drop versionLen) with
    | some v => (fromUtf8Lossy v, true, passwordEncVersion ≠ currentVersion)
    | none => original
  else original

def decryptPermanentPasswordStrOrOriginal (storage : List Char) : List Char × Bool × Bool :=
  let original := (storage, false, decide (storage ≠ []))
  if (asBytes storage).length > versionLen ∧ permanentPasswordEncVersion <+: storage then
    match crypto.base64Decode ((asBytes storage).drop versionLen) with
    | some decoded =>
      match symmetricDecrypt crypto config decoded with
      | some v => (fromUtf8Lossy v, true, false)
      | none => original
    | none => original
  else original

def decodePasswordH1AfterPrefix (storage pre : List Char) : Option Bytes :=
  if pre <+: storage then
    match crypto.base64Decode (asBytes (storage.drop pre.length)) with
    | some v => if v.length ≠ permanentPasswordH1Len then none else some v
    | none => none
  else none

def decodePermanentPasswordH1FromStorage (storage : List Char) : Option Bytes :=
  if permanentPasswordEncVersion <+: storage then
    let (hashedStorage, decrypted, _) :=
      decryptPermanentPasswordStrOrOriginal crypto config storage
    if !decrypted then none
    else decodePasswordH1AfterPrefix crypto hashedStorage permanentPasswordHashPrefix
  else none

def decodePresetPasswordH1FromStorage (storage : List Char) : Option Bytes :=
  decodePasswordH1AfterPrefix crypto storage hbbsPresetPasswordHashPrefix

def localPermanentPasswordStorageIsUsableForAuth (storage salt : List Char) : Bool :=
  if storage = [] then false
  else if (decodePermanentPasswordH1FromStorage crypto config storage).isSome then salt ≠ []
  else if permanentPasswordEncVersion <+: storage ∧
      (decryptPermanentPasswordStrOrOriginal crypto config storage).2.1 then false
  else
    let (_, decrypted, looksLikePlaintext) :=
      decryptStrOrOriginal crypto config storage passwordEncVersion
    if passwordEncVersion <+: storage ∧ !decrypted ∧ !looksLikePlaintext then false else true

def presetPermanentPasswordStorageIsUsableForAuth (storage salt : List Char) : Bool :=
  if storage = [] then false
  else if salt = [] then true
  else (decodePresetPasswordH1FromStorage crypto storage).isSome

end Storage

/-! ### Options -/

inductive VerificationMethod
  | onlyUseTemporaryPassword
  | onlyUsePermanentPassword
  | useBothPasswords
  deriving DecidableEq, Repr

inductive ApproveMode
  | both
  | password
  | click
  deriving DecidableEq, Repr

def Config.verificationMethod (config : Config) : VerificationMethod :=
  let method := config.option "verification-method".toList
  if method = "use-temporary-password".toList then .onlyUseTemporaryPassword
  else if method = "use-permanent-password".toList then .onlyUsePermanentPassword
  else .useBothPasswords

def Config.temporaryEnabled (config : Config) : Bool :=
  config.verificationMethod ≠ .onlyUsePermanentPassword

def Config.permanentEnabled (config : Config) : Bool :=
  config.verificationMethod ≠ .onlyUseTemporaryPassword

def Config.approveMode (config : Config) : ApproveMode :=
  let mode := config.option "approve-mode".toList
  if mode = "password".toList then .password
  else if mode = "click".toList then .click
  else .both

/-! ### A login request -/

/-- The `union` of a `LoginRequest`. A payload keeps the fields of it that are not known. -/
inductive LoginUnion
  | fileTransfer (dir : List Char) (showHidden : Bool) (unknownFields : Bytes)
  | portForward
  | viewCamera
  | terminal
  deriving DecidableEq, Repr

/-- The fields of a `LoginRequest` that the connection reads. -/
structure LoginRequest where
  password : Bytes
  myId : List Char
  myName : List Char
  union : Option LoginUnion
  deriving DecidableEq, Repr

def LoginRequest.default : LoginRequest := ⟨[], [], [], none⟩

/-- The salt and challenge a connection greets its peer with. -/
structure Hash where
  salt : List Char
  challenge : List Char
  deriving DecidableEq, Repr

section Validate

variable (crypto : Crypto)

def constantTimeEq (a b : Bytes) : Bool :=
  if a.length ≠ b.length then false
  else (List.zipWith (· ^^^ ·) a b).foldl (· ||| ·) 0 == 0

def verifyH1 (hash : Hash) (lr : LoginRequest) (h1 : Bytes) : Bool :=
  if lr.password.length < 32 then false
  else constantTimeEq (crypto.sha256 (h1 ++ asBytes hash.challenge)) (lr.password.take 32)

def validatePasswordPlain (hash : Hash) (lr : LoginRequest) (password : List Char) : Bool :=
  if password = [] then false
  else verifyH1 crypto hash lr (crypto.sha256 (asBytes password ++ asBytes hash.salt))

def validatePasswordStorage (config : Config) (hash : Hash) (lr : LoginRequest)
    (storage : List Char) : Bool :=
  if storage = [] then false
  else
    match decodePermanentPasswordH1FromStorage crypto config storage with
    | some h1 => verifyH1 crypto hash lr h1
    | none => validatePasswordPlain crypto hash lr storage

def validatePresetPasswordStorage (hash : Hash) (lr : LoginRequest)
    (storage salt : List Char) : Bool :=
  if salt = [] then validatePasswordPlain crypto hash lr storage
  else
    match decodePresetPasswordH1FromStorage crypto storage with
    | some h1 => verifyH1 crypto hash lr h1
    | none => false

/-- The permanent password: the local one, or the preset one where there is none. -/
def validatePermanentPassword (config : Config) (hash : Hash) (lr : LoginRequest) : Bool :=
  if config.password ≠ [] then
    localPermanentPasswordStorageIsUsableForAuth crypto config config.password config.salt &&
      validatePasswordStorage crypto config hash lr config.password
  else
    presetPermanentPasswordStorageIsUsableForAuth crypto config.hardPassword config.hardSalt &&
      validatePresetPasswordStorage crypto hash lr config.hardPassword config.hardSalt

def validatePassword (config : Config) (hash : Hash) (lr : LoginRequest) : Bool :=
  if config.temporaryEnabled && validatePasswordPlain crypto hash lr config.temporaryPassword then
    true
  else if config.permanentEnabled && validatePermanentPassword crypto config hash lr then true
  else
    config.approveMode = .click && lr.password = [] &&
      config.option "permanent-password".toList = []

end Validate

/-! ### When a login is accepted -/

private theorem foldl_or_eq_zero (l : List UInt8) (acc : UInt8) :
    l.foldl (· ||| ·) acc = 0 ↔ acc = 0 ∧ ∀ x ∈ l, x = 0 := by
  induction l generalizing acc with
  | nil => simp
  | cons x l ih =>
    rw [List.foldl_cons, ih, UInt8.or_eq_zero_iff, List.forall_mem_cons, and_assoc]

theorem constantTimeEq_iff (a b : Bytes) : constantTimeEq a b = true ↔ a = b := by
  unfold constantTimeEq
  by_cases hlen : a.length = b.length
  · rw [if_neg (not_not.mpr hlen), beq_iff_eq, foldl_or_eq_zero]
    simp only [true_and]
    induction a generalizing b with
    | nil =>
      obtain rfl := List.length_eq_zero_iff.mp hlen.symm
      simp
    | cons x a ih =>
      obtain ⟨y, b, rfl⟩ := List.exists_cons_of_length_eq_add_one hlen.symm
      rw [List.zipWith_cons_cons, List.forall_mem_cons, ih b (Nat.succ.inj hlen),
        List.cons.injEq, UInt8.xor_eq_zero_iff]
  · rw [if_pos hlen]
    exact ⟨fun h => absurd h Bool.false_ne_true, fun h => absurd (congrArg List.length h) hlen⟩

/-- A login answers the challenge of its connection for a hashed password. -/
def Answers (crypto : Crypto) (hash : Hash) (lr : LoginRequest) (h1 : Bytes) : Prop :=
  32 ≤ lr.password.length ∧
    crypto.sha256 (h1 ++ asBytes hash.challenge) = lr.password.take 32

section Accepted

variable {crypto : Crypto} {config : Config} {hash : Hash} {lr : LoginRequest}

theorem verifyH1_iff {h1 : Bytes} :
    verifyH1 crypto hash lr h1 = true ↔ Answers crypto hash lr h1 := by
  unfold verifyH1 Answers
  by_cases hlen : lr.password.length < 32
  · rw [if_pos hlen]
    exact ⟨fun h => absurd h Bool.false_ne_true, fun h => absurd h.1 (Nat.not_le.mpr hlen)⟩
  · rw [if_neg hlen, constantTimeEq_iff]
    exact ⟨fun h => ⟨Nat.not_lt.mp hlen, h⟩, fun h => h.2⟩

end Accepted

end Ohos

end LibRustdesk
