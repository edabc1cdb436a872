import LibRustdesk.Ohos.Sealing

/-!
# Which permanent password is accepted

A device in the hands of its owner, its service and the programs that store its configuration:
every operation on the permanent password and its salt, in any order, with restarts in between.
Beside the device runs the record of what was set last (`Secret`): a password, or by a sync a hash
with its salt.

The password and its salt are separate fields, and `set_salt`, `get_salt`, a sync and a restart
touch either. They stay a pair by an invariant (`Keeps`): what is in memory is the sealed hash of
the secret with the salt beside it, or the secret itself, whose hash is made with whatever salt the
peer is told. Memory and file agree at all times, since a start loads what was stored (`load_store`)
and nothing is changed in memory that is not stored.

Two assumptions are made of the hash, for the passwords that occur (`P`): that they have different
hashes under every salt, and that a challenge is answered alike for equal hashes only. They are
asked of `P` because no function to 32 bytes is injective on all passwords.

* `accepted_iff_last_set` — in every state that is reached a login made with `p` is accepted
  exactly when `p` is the password that was set last, or the preset one when none was; and no
  operation but one that set a password has changed which one that is.

A device starts from a file that keeps a secret (`Start`): that of a new installation, that of an
older version with a plain password (`Start.legacy`), or any that the program wrote. A file that
was made by other hands need not: a hash without its salt gets a new one from `get_salt`.
-/

namespace LibRustdesk

namespace Ohos

open LittleEndian

inductive Secret
  | none
  | password (p : List Char)
  | hash (h1 : Bytes) (salt : List Char)
  deriving DecidableEq, Repr

/-- `p` is the password. -/
def Secret.Matches (crypto : StorageCrypto) (p : List Char) : Secret → Prop
  | none => False
  | password q => p = q
  | hash h1 salt => computePermanentPasswordH1 crypto p salt = h1

instance (crypto : StorageCrypto) (p : List Char) (s : Secret) : Decidable (s.Matches crypto p) :=
  match s with
  | .none => inferInstanceAs (Decidable False)
  | .password q => inferInstanceAs (Decidable (p = q))
  | .hash h1 salt => inferInstanceAs (Decidable (computePermanentPasswordH1 crypto p salt = h1))

def Secret.Within (P : List Char → Prop) : Secret → Prop
  | password q => P q
  | _ => True

def Config.preset (crypto : StorageCrypto) (config : Config) : Secret :=
  if config.hardSalt = [] then
    if config.hardPassword = [] then .none else .password config.hardPassword
  else
    match decodePresetPasswordH1FromStorage crypto.toCrypto config.hardPassword with
    | some h1 => .hash h1 config.hardSalt
    | none => .none

/-! ### The device in use -/

inductive Operation
  | setPermanentPassword (disabled : Bool) (password : List Char) (r : Random)
  | setPermanentPasswordStorageForSync (storage salt : List Char) (r : Random)
  | setSalt (salt : List Char) (r : Random)
  | getSalt (r : Random)
  | getEffectivePermanentPasswordSalt (r : Random)
  /-- Another setting is changed. -/
  | store (r : Random)
  /-- The program starts again. -/
  | load (storeId : Bool) (r : Random)

namespace Operation

variable (crypto : StorageCrypto)

def apply (d : Device) : Operation → Device
  | setPermanentPassword disabled password r =>
    (d.setPermanentPassword crypto disabled password r).1
  | setPermanentPasswordStorageForSync storage salt r =>
    (d.setPermanentPasswordStorageForSync crypto storage salt r).1
  | setSalt salt r => d.setSalt crypto salt r
  | getSalt r => (d.getSalt crypto r).1
  | getEffectivePermanentPasswordSalt r => (d.getEffectivePermanentPasswordSalt crypto r).1
  | store r => d.save crypto d.config r
  | load storeId r => d.load crypto storeId r

/-- What an operation sets that says it succeeded; an empty password is none. -/
def sets (d : Device) : Operation → Option Secret
  | setPermanentPassword disabled password r =>
    if (d.setPermanentPassword crypto disabled password r).2 then
      some (if password = [] then .none else .password password)
    else none
  | setPermanentPasswordStorageForSync storage salt r =>
    match (d.setPermanentPasswordStorageForSync crypto storage salt r).2 with
    | .error _ => none
    | .ok _ =>
      match decodePermanentPasswordH1FromStorage crypto.toCrypto d.config storage with
      | some h1 => some (.hash h1 salt)
      | none => some .none
  | _ => none

/-- A password that is set is one of those whose hashes differ. -/
def Within (P : List Char → Prop) : Operation → Prop
  | setPermanentPassword _ password _ => P password
  | _ => True

end Operation

structure Tracked where
  device : Device
  lastSet : Secret

/-- The password in effect: the one that was set last, or the preset one. -/
def Tracked.current (crypto : StorageCrypto) (t : Tracked) : Secret :=
  match t.lastSet with
  | .none => t.device.config.preset crypto
  | s => s

def keeping (crypto : StorageCrypto) : Machine Tracked Operation Unit where
  step t op := (⟨op.apply crypto t.device, (op.sets crypto t.device).getD t.lastSet⟩, [])

/-- What a peer sends for `p` when it is told `salt` and `challenge`. -/
def answer (crypto : StorageCrypto) (p salt challenge : List Char) : Bytes :=
  crypto.sha256 (computePermanentPasswordH1 crypto p salt ++ asBytes challenge)

/-- A connection is greeted with the effective salt, and logs in with `p`. -/
def Device.accepts (crypto : StorageCrypto) (d : Device) (r : Random) (challenge : List Char)
    (lr : LoginRequest) (p : List Char) : Bool :=
  let (d, salt) := d.getEffectivePermanentPasswordSalt crypto r
  validatePermanentPassword crypto.toCrypto d.config ⟨salt, challenge⟩
    { lr with password := answer crypto p salt challenge }

/-! ### The invariant -/

/-- The configuration in memory keeps the secret: sealed, plain, or by the preset password. -/
def Keeps (crypto : StorageCrypto) (config : Config) : Secret → Prop
  | .none => config.password = []
  | .password q =>
    Hashed crypto config (computePermanentPasswordH1 crypto q config.salt) ∨
      (config.password = q ∧ Plain crypto config q) ∨
      config.password = [] ∧ presetPermanentPasswordStorageMatchesPlain crypto config.hardPassword
        config.hardSalt q = true
  | .hash h1 salt => config.salt = salt ∧ Hashed crypto config h1

/-- Memory and file agree, and keep what was set last. `P` and `preset` stay as they are. -/
structure Tracked.Inv (crypto : StorageCrypto) (P : List Char → Prop) (preset : Secret)
    (t : Tracked) : Prop where
  synced : t.device.config.load crypto t.device.file = t.device.config
  keeps : Keeps crypto t.device.config t.lastSet
  within : t.lastSet.Within P
  preset_eq : t.device.config.preset crypto = preset

section Steps

variable {crypto : StorageCrypto} {P : List Char → Prop} {preset : Secret} {s : Secret}

theorem Keeps.storable {config : Config} (h : Keeps crypto config s) : Storable crypto config := by
  cases s with
  | none => exact .empty h
  | password q =>
    rcases h with h | ⟨h, hplain⟩ | ⟨h, -⟩
    · exact .hashed _ h
    · exact .plain (h ▸ hplain)
    · exact .empty h
  | hash h1 salt => exact .hashed h1 h.2

theorem Keeps.salt_ne {config : Config} {h1 : Bytes} (h : Keeps crypto config s)
    (hdecode : decodePermanentPasswordH1FromStorage crypto.toCrypto config config.password =
      some h1) : config.salt ≠ [] := by
  cases h.storable with
  | empty hempty => exact absurd hempty (decode_ne_nil hdecode)
  | plain hplain => exact absurd (hdecode.symm.trans hplain.decode) (Option.some_ne_none h1)
  | hashed h1' hhashed => exact hhashed.salt_ne

theorem Keeps.withSalt {config : Config} (h : Keeps crypto config s)
    (hdecode : decodePermanentPasswordH1FromStorage crypto.toCrypto config config.password = none)
    (salt : List Char) : Keeps crypto { config with salt := salt } s := by
  have hnot (h1 : Bytes) : ¬ Hashed crypto config h1 := fun hhashed =>
    absurd (hhashed.decode.symm.trans hdecode) (Option.some_ne_none h1)
  cases s with
  | none => exact h
  | password q =>
    rcases h with h | ⟨h, hplain⟩ | h
    · exact absurd h (hnot _)
    · exact Or.inr (Or.inl ⟨h, ⟨hplain.ne_nil, hplain.length_le, hplain.not_encrypted,
        hplain.not_decrypted, hplain.not_hash⟩⟩)
    · exact Or.inr (Or.inr h)
  | hash h1 salt => exact absurd h.2 (hnot h1)

variable (hlaw : crypto.Lawful)

include hlaw

theorem Tracked.Inv.save (d : Device) {config : Config} (hkeeps : Keeps crypto config s)
    (hwithin : s.Within P) (hpreset : config.preset crypto = preset) (r : Random) : Tracked.Inv
    crypto P preset ⟨d.save crypto config r, s⟩ :=
  ⟨load_store hlaw hkeeps.storable d.file r, hkeeps, hwithin, hpreset⟩

variable {t : Tracked}

theorem Tracked.Inv.setSalt (h : t.Inv crypto P preset) (salt : List Char)
    (r : Random) : Tracked.Inv crypto P preset ⟨t.device.setSalt crypto salt r, t.lastSet⟩ := by
  unfold Device.setSalt
  split
  · exact h
  · split
    · exact h
    · next hbound =>
      refine Tracked.Inv.save hlaw _ (h.keeps.withSalt ?_ salt) h.within h.preset_eq r
      -- A hash would have a salt, and be bound to it.
      cases hdecode : decodePermanentPasswordH1FromStorage crypto.toCrypto t.device.config
          t.device.config.password with
      | none => rfl
      | some h1 =>
        have hhashed : passwordIsEmptyOrNotHashed crypto t.device.config
            t.device.config.password = false := by
          unfold passwordIsEmptyOrNotHashed
          rw [if_neg (decode_ne_nil hdecode), hdecode]
          rfl
        exact absurd ⟨by rw [hhashed]; rfl, h.keeps.salt_ne hdecode⟩ hbound

theorem Tracked.Inv.getSalt (h : t.Inv crypto P preset) (r : Random) :
    Tracked.Inv crypto P preset ⟨(t.device.getSalt crypto r).1, t.lastSet⟩ := by
  unfold Device.getSalt
  split
  · exact h.setSalt hlaw r.autoPassword.val r
  · exact h

theorem Tracked.Inv.getEffective (h : t.Inv crypto P preset) (r : Random) :
    Tracked.Inv crypto P preset
      ⟨(t.device.getEffectivePermanentPasswordSalt crypto r).1, t.lastSet⟩ := by
  unfold Device.getEffectivePermanentPasswordSalt
  split
  · split
    · exact h.getSalt hlaw r
    · exact h
  · split
    · split <;> exact h
    · exact h.getSalt hlaw r

theorem computePermanentPasswordStorageForUpdate_spec (config : Config) (password : List Char)
    (r : Random) : ∃ storage salt,
      Device.computePermanentPasswordStorageForUpdate crypto config password r =
        ({ config with salt := salt }, some storage) ∧
      (config.salt ≠ [] → salt = config.salt) ∧
      Hashed crypto { config with password := storage, salt := salt }
        (computePermanentPasswordH1 crypto password salt) := by
  have hsalt : ∃ salt, config.ensurePermanentPasswordSalt r = { config with salt := salt } ∧
      (config.salt ≠ [] → salt = config.salt) ∧ salt ≠ [] := by
    unfold Config.ensurePermanentPasswordSalt
    split
    · next hnil =>
      refine ⟨_, rfl, fun hne => absurd hnil hne, fun hauto => ?_⟩
      have hlen := r.autoPassword.property
      rw [hauto] at hlen
      cases hlen
    · next hne => exact ⟨config.salt, rfl, fun _ => rfl, hne⟩
  obtain ⟨salt, hensure, hkept, hne⟩ := hsalt
  obtain ⟨storage, hencode, hdecode⟩ := encodePermanentPasswordEncryptedStorageFromH1_spec hlaw
    { config with salt := salt } r.hashNonce (hlaw.length_sha256 (asBytes password ++ asBytes salt))
  refine ⟨storage, salt, ?_, hkept, hne, hdecode⟩
  unfold Device.computePermanentPasswordStorageForUpdate
  rw [hensure]
  exact congrArg (Prod.mk _) hencode

theorem Tracked.Inv.setPermanentPassword (h : t.Inv crypto P preset) (disabled : Bool)
    {password : List Char} (hP : P password) (r : Random) : Tracked.Inv crypto P preset
    ((keeping crypto).next t (.setPermanentPassword disabled password r)) := by
  show Tracked.Inv crypto P preset
    ⟨(t.device.setPermanentPassword crypto disabled password r).1,
      (if (t.device.setPermanentPassword crypto disabled password r).2 then
        some (if password = [] then Secret.none else .password password) else none).getD t.lastSet⟩
  unfold Device.setPermanentPassword
  split
  · exact h
  · split
    · next hmatches =>
      -- The preset password, which is in effect where there is no other.
      have hne : password ≠ [] := by
        rintro rfl
        have hmatch := hmatches.1
        unfold presetPermanentPasswordStorageMatchesPlain at hmatch
        rw [if_pos (Or.inr rfl)] at hmatch
        cases hmatch
      rw [if_pos rfl, if_neg hne]
      exact ⟨h.synced, Or.inr (Or.inr ⟨hmatches.2, hmatches.1⟩), hP, h.preset_eq⟩
    · by_cases hne : password = []
      · -- The password is cleared.
        subst hne
        rw [if_pos rfl]
        dsimp only
        split
        · next hsame => exact ⟨h.synced, hsame.symm, trivial, h.preset_eq⟩
        · have hcleared : Keeps crypto { t.device.config with password := [] } .none := rfl
          exact Tracked.Inv.save hlaw t.device hcleared trivial h.preset_eq r
      · obtain ⟨storage, salt, hcompute, hkept, hhashed⟩ :=
          computePermanentPasswordStorageForUpdate_spec hlaw t.device.config password r
        rw [if_neg hne, hcompute]
        dsimp only
        split
        · next hsame =>
          -- The storage is the one that is kept, so the salt was there before.
          have hsalt : t.device.config.salt ≠ [] := h.keeps.salt_ne (hsame ▸ hhashed.decode)
          obtain rfl := hkept hsalt
          exact ⟨h.synced, Or.inl ⟨hsalt, hsame ▸ hhashed.decode⟩, hP, h.preset_eq⟩
        · have hstored : Keeps crypto { t.device.config with password := storage, salt := salt }
              (.password password) := Or.inl hhashed
          exact Tracked.Inv.save hlaw t.device hstored hP h.preset_eq r

omit hlaw in
theorem applyPermanentPasswordStorageForSync_cases (config : Config) (storage salt : List Char) :
    (∃ e, Device.applyPermanentPasswordStorageForSync crypto config storage salt = .error e) ∨
    ∃ changed, Device.applyPermanentPasswordStorageForSync crypto config storage salt =
        .ok changed ∧
      ((storage = [] ∧ (changed.getD config).password = [] ∧
          (changed.getD config).preset crypto = config.preset crypto) ∨
        ∃ h1, decodePermanentPasswordH1FromStorage crypto.toCrypto config storage = some h1 ∧
          salt ≠ [] ∧ changed.getD config = { config with password := storage, salt := salt }) := by
  unfold Device.applyPermanentPasswordStorageForSync
  by_cases hstorage : storage = []
  · rw [if_pos hstorage]
    split
    · next hsame => exact Or.inr ⟨none, rfl, Or.inl ⟨hstorage, hsame.1, rfl⟩⟩
    · exact Or.inr ⟨_, rfl, Or.inl ⟨hstorage, rfl, rfl⟩⟩
  · rw [if_neg hstorage]
    split
    · exact Or.inl ⟨_, rfl⟩
    · next hsalt =>
      cases hdecode : decodePermanentPasswordH1FromStorage crypto.toCrypto config storage with
      | none => exact Or.inl ⟨_, rfl⟩
      | some h1 =>
        rw [if_neg (Option.some_ne_none h1)]
        split
        · next hsame =>
          obtain ⟨rfl, rfl⟩ := hsame
          exact Or.inr ⟨none, rfl, Or.inr ⟨h1, rfl, hsalt, rfl⟩⟩
        · exact Or.inr ⟨_, rfl, Or.inr ⟨h1, rfl, hsalt, rfl⟩⟩

theorem Tracked.Inv.setForSync (h : t.Inv crypto P preset) (storage salt : List Char) (r : Random) :
    Tracked.Inv crypto P preset
    ((keeping crypto).next t (.setPermanentPasswordStorageForSync storage salt r)) := by
  show Tracked.Inv crypto P preset
    ⟨(t.device.setPermanentPasswordStorageForSync crypto storage salt r).1,
      ((Operation.setPermanentPasswordStorageForSync storage salt r).sets crypto
        t.device).getD t.lastSet⟩
  unfold Operation.sets Device.setPermanentPasswordStorageForSync
  dsimp only
  rcases applyPermanentPasswordStorageForSync_cases t.device.config storage salt with
    ⟨e, happly⟩ | ⟨changed, happly, hchanged⟩
  · rw [happly]
    exact h
  · -- The secret that is set is kept by the configuration that is saved, or that was there.
    have hset (s : Secret) (hkeeps : Keeps crypto (changed.getD t.device.config) s)
        (hwithin : s.Within P)
        (hpreset : (changed.getD t.device.config).preset crypto = t.device.config.preset crypto) :
        Tracked.Inv crypto P preset
          ⟨changed.elim t.device fun config => t.device.save crypto config r, s⟩ := by
      cases changed with
      | none => exact ⟨h.synced, hkeeps, hwithin, h.preset_eq⟩
      | some config =>
        exact Tracked.Inv.save hlaw t.device hkeeps hwithin (hpreset.trans h.preset_eq) r
    rcases hchanged with ⟨rfl, hempty, hpreset⟩ | ⟨h1, hdecode, hsalt, hconfig⟩
    · have hdecode : decodePermanentPasswordH1FromStorage crypto.toCrypto t.device.config [] =
        none :=
        rfl
      have hkept := hset .none hempty trivial hpreset
      rw [happly, hdecode]
      cases changed <;> exact hkept
    · have hkeeps : Keeps crypto (changed.getD t.device.config) (.hash h1 salt) := by
        rw [hconfig]
        exact ⟨rfl, hsalt, hdecode⟩
      have hkept := hset (.hash h1 salt) hkeeps trivial (by rw [hconfig]; rfl)
      rw [happly, hdecode]
      cases changed <;> exact hkept

theorem Tracked.Inv.next (h : t.Inv crypto P preset) {op : Operation}
    (hop : op.Within P) : Tracked.Inv crypto P preset ((keeping crypto).next t op) := by
  cases op with
  | setPermanentPassword disabled password r => exact h.setPermanentPassword hlaw disabled hop r
  | setPermanentPasswordStorageForSync storage salt r => exact h.setForSync hlaw storage salt r
  | setSalt salt r => exact h.setSalt hlaw salt r
  | getSalt r => exact h.getSalt hlaw r
  | getEffectivePermanentPasswordSalt r => exact h.getEffective hlaw r
  | store r => exact Tracked.Inv.save hlaw t.device h.keeps h.within h.preset_eq r
  | load storeId r =>
    -- What is loaded is what was in memory.
    show Tracked.Inv crypto P preset ⟨t.device.load crypto storeId r, t.lastSet⟩
    unfold Device.load
    rw [h.synced]
    split
    · exact Tracked.Inv.save hlaw t.device h.keeps h.within h.preset_eq r
    · exact h

end Steps

/-! ### A login -/

/-- The passwords of `P` have different hashes, and only equal hashes answer a challenge alike. -/
structure StorageCrypto.CollisionFree (crypto : StorageCrypto) (P : List Char → Prop) : Prop where
  hash : ∀ p q salt, P p → P q →
    computePermanentPasswordH1 crypto p salt = computePermanentPasswordH1 crypto q salt → p = q
  answer : ∀ h1 h1' challenge : Bytes, h1.length = permanentPasswordH1Len →
    h1'.length = permanentPasswordH1Len →
    crypto.sha256 (h1 ++ challenge) = crypto.sha256 (h1' ++ challenge) → h1 = h1'

theorem length_of_decodePasswordH1AfterPrefix {crypto : Crypto} {storage pre : List Char}
    {h1 : Bytes} (h : decodePasswordH1AfterPrefix crypto storage pre = some h1) :
    h1.length = permanentPasswordH1Len := by
  unfold decodePasswordH1AfterPrefix at h
  split at h
  · split at h
    · split at h
      · cases h
      · next hlen =>
        obtain rfl := Option.some.inj h
        exact not_not.mp hlen
    · cases h
  · cases h

section Login

variable {crypto : StorageCrypto} {P : List Char → Prop} (hlaw : crypto.Lawful)
  (hfree : crypto.CollisionFree P) {config : Config} {p : List Char} (hp : P p)
  (challenge : List Char) (lr : LoginRequest)

include hlaw hfree

theorem verifyH1_answer (salt salt' : List Char) {h1 : Bytes}
    (hlen : h1.length = permanentPasswordH1Len) :
    verifyH1 crypto.toCrypto ⟨salt', challenge⟩
        { lr with password := answer crypto p salt challenge } h1 = true ↔
      computePermanentPasswordH1 crypto p salt = h1 := by
  have hanswer : (answer crypto p salt challenge).length = 32 := hlaw.length_sha256 _
  rw [verifyH1_iff]
  unfold Answers
  rw [List.take_of_length_le hanswer.le]
  constructor
  · intro h
    exact (hfree.answer _ _ _ hlen (hlaw.length_sha256 _) h.2).symm
  · intro h
    exact ⟨hanswer.ge, by rw [← h]; rfl⟩

include hp

theorem validatePasswordPlain_answer (salt : List Char) {q : List Char} (hne : q ≠ []) (hq : P q) :
    validatePasswordPlain crypto.toCrypto ⟨salt, challenge⟩
        { lr with password := answer crypto p salt challenge } q = true ↔ p = q := by
  unfold validatePasswordPlain
  rw [if_neg hne]
  refine (verifyH1_answer hlaw hfree challenge lr salt salt (hlaw.length_sha256 _)).trans ?_
  constructor
  · exact hfree.hash p q salt hp hq
  · rintro rfl
    rfl

theorem validatePermanentPassword_local {s : Secret} (hkeeps : Keeps crypto config s)
    (hs : s.Within P) (hne : config.password ≠ []) :
    validatePermanentPassword crypto.toCrypto config ⟨config.salt, challenge⟩
        { lr with password := answer crypto p config.salt challenge } = true ↔
      s.Matches crypto p := by
  have hhashed {h1 : Bytes} (h : Hashed crypto config h1) :
      validatePermanentPassword crypto.toCrypto config ⟨config.salt, challenge⟩
          { lr with password := answer crypto p config.salt challenge } = true ↔
        computePermanentPasswordH1 crypto p config.salt = h1 := by
    unfold validatePermanentPassword validatePasswordStorage
    rw [if_pos hne, h.usable, Bool.true_and, if_neg hne, h.decode]
    exact verifyH1_answer hlaw hfree challenge lr _ _
      (length_of_decodePasswordH1AfterPrefix (decode_some h.decode).2.2)
  cases s with
  | none => exact absurd hkeeps hne
  | password q =>
    rcases hkeeps with h | ⟨hsame, hplain⟩ | ⟨hempty, -⟩
    · refine (hhashed h).trans ⟨hfree.hash p q _ hp hs, ?_⟩
      rintro rfl
      rfl
    · unfold validatePermanentPassword validatePasswordStorage
      rw [if_pos hne, hsame, hplain.usable, Bool.true_and, if_neg hplain.ne_nil, hplain.decode]
      exact validatePasswordPlain_answer hlaw hfree hp challenge lr _ hplain.ne_nil hs
    · exact absurd hempty hne
  | hash h1 salt =>
    obtain ⟨rfl, h⟩ := hkeeps
    exact hhashed h

theorem validatePermanentPassword_preset (hempty : config.password = [])
    (hpreset : (config.preset crypto).Within P) {salt : List Char}
    (hsalt : config.hardSalt ≠ [] → config.preset crypto ≠ .none → salt = config.hardSalt) :
    validatePermanentPassword crypto.toCrypto config ⟨salt, challenge⟩
        { lr with password := answer crypto p salt challenge } = true ↔
      (config.preset crypto).Matches crypto p := by
  unfold validatePermanentPassword validatePresetPasswordStorage
    presetPermanentPasswordStorageIsUsableForAuth
  rw [if_neg (not_not.mpr hempty)]
  unfold Config.preset at hpreset hsalt ⊢
  by_cases hhard : config.hardSalt = []
  · simp only [if_pos hhard] at hpreset ⊢
    by_cases hpassword : config.hardPassword = []
    · rw [if_pos hpassword, if_pos hpassword, Bool.false_and]
      exact ⟨fun h => absurd h Bool.false_ne_true, fun h => absurd h id⟩
    · rw [if_neg hpassword] at hpreset
      rw [if_neg hpassword, if_neg hpassword, Bool.true_and]
      exact validatePasswordPlain_answer hlaw hfree hp challenge lr salt hpassword hpreset
  · simp only [if_neg hhard] at hsalt ⊢
    cases hdecode : decodePresetPasswordH1FromStorage crypto.toCrypto config.hardPassword with
    | none =>
      rw [Bool.and_false]
      exact ⟨fun h => absurd h Bool.false_ne_true, fun h => absurd h id⟩
    | some h1 =>
      rw [hdecode] at hsalt
      obtain rfl := hsalt hhard (by intro h; cases h)
      have hpassword : config.hardPassword ≠ [] := by
        intro h
        rw [h] at hdecode
        cases hdecode
      rw [if_neg hpassword, Option.isSome_some, Bool.true_and]
      exact verifyH1_answer hlaw hfree challenge lr _ _
        (length_of_decodePasswordH1AfterPrefix hdecode)

omit hlaw in
theorem matches_preset {q : List Char} (hq : P q)
    (h : presetPermanentPasswordStorageMatchesPlain crypto config.hardPassword config.hardSalt q =
      true) : (config.preset crypto).Matches crypto p ↔ p = q := by
  unfold presetPermanentPasswordStorageMatchesPlain at h
  unfold Config.preset
  split at h
  · cases h
  · next hne =>
    split at h
    · next hsalt =>
      rw [if_pos hsalt, if_neg (fun hnil => hne (Or.inl hnil)), ← of_decide_eq_true h]
      exact Iff.rfl
    · next hsalt =>
      rw [if_neg hsalt]
      split at h
      · cases h
      · next h1 hdecode =>
        rw [hdecode, ← of_decide_eq_true h]
        constructor
        · exact hfree.hash p q _ hp hq
        · rintro rfl
          rfl

end Login

/-! ### The salt a peer is told -/

section Salt

variable {crypto : StorageCrypto}

theorem getSalt_spec (d : Device) (r : Random) :
    (d.getSalt crypto r).1.config = { d.config with salt := (d.getSalt crypto r).2 } := by
  unfold Device.getSalt
  split
  · next hnil =>
    have hauto : r.autoPassword.val ≠ d.config.salt := by
      intro h
      have hlen := r.autoPassword.property
      rw [h, hnil] at hlen
      cases hlen
    unfold Device.setSalt
    rw [if_neg hauto, if_neg (fun h => h.2 hnil)]
    rfl
  · rfl

theorem Storable.usable {config : Config} (h : Storable crypto config)
    (hne : config.password ≠ []) :
    localPermanentPasswordStorageIsUsableForAuth crypto.toCrypto config config.password
      config.salt = true := by
  cases h with
  | empty hempty => exact absurd hempty hne
  | plain hplain => exact hplain.usable config.salt
  | hashed h1 hhashed => exact hhashed.usable

theorem usable_of_preset {config : Config} (hsalt : config.hardSalt ≠ [])
    (h : config.preset crypto ≠ .none) :
    presetPermanentPasswordStorageIsUsableForAuth crypto.toCrypto config.hardPassword
      config.hardSalt = true := by
  unfold Config.preset at h
  unfold presetPermanentPasswordStorageIsUsableForAuth
  rw [if_neg hsalt] at h
  cases hdecode : decodePresetPasswordH1FromStorage crypto.toCrypto config.hardPassword with
  | none =>
    rw [hdecode] at h
    exact absurd rfl h
  | some h1 =>
    have hne : config.hardPassword ≠ [] := by
      intro hnil
      rw [hnil] at hdecode
      cases hdecode
    rw [if_neg hne, if_neg hsalt]
    rfl

end Salt

section InEffect

variable {crypto : StorageCrypto} {P : List Char → Prop} {preset : Secret} (hlaw : crypto.Lawful)
  (hfree : crypto.CollisionFree P) {p : List Char} (hp : P p)

include hlaw hfree hp

theorem Tracked.Inv.accepts_iff {t : Tracked} (h : t.Inv crypto P preset)
    (hpreset : preset.Within P)
    (r : Random) (challenge : List Char) (lr : LoginRequest) :
    t.device.accepts crypto r challenge lr p = true ↔ (t.current crypto).Matches crypto p := by
  have hpre : (t.device.config.preset crypto).Within P := h.preset_eq ▸ hpreset
  have hlater := h.getEffective hlaw r
  unfold Device.accepts
  dsimp only
  unfold Device.getEffectivePermanentPasswordSalt at hlater ⊢
  by_cases hempty : t.device.config.password = []
  · rw [if_neg (not_not.mpr hempty)] at hlater ⊢
    -- Whatever was set last, it is the preset password that is checked.
    have hcurrent : (t.device.config.preset crypto).Matches crypto p ↔
        (t.current crypto).Matches crypto p := by
      have hkeeps := h.keeps
      have hwithin := h.within
      unfold Tracked.current
      cases hset : t.lastSet with
      | none => exact Iff.rfl
      | password q =>
        rw [hset] at hkeeps hwithin
        rcases hkeeps with hhashed | ⟨hsame, hplain⟩ | ⟨-, hmatches⟩
        · exact absurd hempty (decode_ne_nil hhashed.decode)
        · exact absurd (hsame.symm.trans hempty) hplain.ne_nil
        · exact matches_preset hfree hp hwithin hmatches
      | hash h1 salt =>
        rw [hset] at hkeeps
        exact absurd hempty (decode_ne_nil hkeeps.2.decode)
    rw [← hcurrent]
    by_cases hsalt : t.device.config.hardSalt = []
    · rw [if_neg (not_not.mpr hsalt)]
      rw [getSalt_spec]
      -- The salt that was made up is in the configuration, and is not looked at.
      have hnew : ({ t.device.config with salt := (t.device.getSalt crypto r).2 } :
          Config).password = [] := hempty
      exact validatePermanentPassword_preset hlaw hfree hp challenge lr hnew hpre
        fun hne => absurd hsalt hne
    · rw [if_pos hsalt]
      split
      · exact validatePermanentPassword_preset hlaw hfree hp challenge lr hempty hpre fun _ _ => rfl
      · next hunusable =>
        exact validatePermanentPassword_preset hlaw hfree hp challenge lr hempty hpre
          fun _ hne => absurd (usable_of_preset hsalt hne) hunusable
  · have husable := h.keeps.storable.usable hempty
    rw [if_pos hempty, if_pos husable] at hlater ⊢
    have hcurrent : t.current crypto = t.lastSet := by
      unfold Tracked.current
      cases hset : t.lastSet with
      | none =>
        have hkeeps := h.keeps
        rw [hset] at hkeeps
        exact absurd hkeeps hempty
      | password | hash => rfl
    have hkeeps := hlater.keeps
    rw [getSalt_spec] at hkeeps ⊢
    rw [hcurrent]
    exact validatePermanentPassword_local hlaw hfree hp challenge lr hkeeps h.within hempty

end InEffect

/-! ### Every run -/

/-- A device as the program finds it when it starts: what it has loaded keeps a secret. -/
structure Start (crypto : StorageCrypto) where
  device : Device
  secret : Secret
  loaded : device.config.load crypto device.file = device.config
  keeps : Keeps crypto device.config secret

namespace Start

variable {crypto : StorageCrypto}

def tracked (s : Start crypto) : Tracked := ⟨s.device, s.secret⟩

def fresh (crypto : StorageCrypto) (config : Config) : Start crypto where
  device := ⟨{ config with password := [], salt := [] }, ⟨[], []⟩⟩
  secret := .none
  loaded := rfl
  keeps := rfl

/-- The file of an older version: a plain password, sealed or not. -/
def legacy (config : Config) {plain : List Char} (hplain : Plain crypto config plain)
    (stored salt : List Char)
    (hstored : stored = plain ∨
      (decryptStrOrOriginal crypto.toCrypto config stored passwordEncVersion).2.1 = true ∧
        (decryptStrOrOriginal crypto.toCrypto config stored passwordEncVersion).1 = plain) :
    Start crypto where
  device := ⟨{ config with password := plain, salt := salt }, ⟨stored, salt⟩⟩
  secret := .password plain
  loaded := by
    rcases hstored with rfl | hstored
    · unfold Config.load
      dsimp only
      rw [Storable.validate (.plain ⟨hplain.ne_nil, hplain.length_le, hplain.not_encrypted,
        hplain.not_decrypted, hplain.not_hash⟩)]
    · exact load_decrypted (by exact hstored)
  keeps := Or.inr (Or.inl ⟨rfl, ⟨hplain.ne_nil, hplain.length_le, hplain.not_encrypted,
    hplain.not_decrypted, hplain.not_hash⟩⟩)

end Start

/-- **The password that was set last is accepted, and no other.** With the passwords that occur
among `P`, a login made with `p` is accepted in every state of a run exactly when `p` is the
password in effect; and an operation that sets none leaves what is accepted as it was. -/
theorem accepted_iff_last_set {crypto : StorageCrypto} {P : List Char → Prop}
    (hlaw : crypto.Lawful) (hfree : crypto.CollisionFree P) (start : Start crypto)
    (hstart : start.secret.Within P) (hpreset : (start.device.config.preset crypto).Within P)
    (ops : List Operation) (hops : ∀ op ∈ ops, op.Within P) {p : List Char} (hp : P p)
    (r : Random) (challenge : List Char) (lr : LoginRequest) :
    (((keeping crypto).run start.tracked ops).device.accepts crypto r challenge lr p = true ↔
      (((keeping crypto).run start.tracked ops).current crypto).Matches crypto p) ∧
    ∀ s ∈ (keeping crypto).trace start.tracked ops, s.2.sets crypto s.1.device = none →
      (((keeping crypto).next s.1 s.2).device.accepts crypto r challenge lr p = true ↔
        s.1.device.accepts crypto r challenge lr p = true) := by
  have hinit : start.tracked.Inv crypto P (start.device.config.preset crypto) :=
    ⟨start.loaded, start.keeps, hstart, rfl⟩
  have hmeets : (keeping crypto).Meets (fun _ op => op.Within P) start.tracked ops := by
    intro s hs
    obtain ⟨pre, post, hsplit, -⟩ := (keeping crypto).exists_split_of_mem_trace hs
    exact hops s.2 (hsplit ▸ List.mem_append_right _ List.mem_cons_self)
  constructor
  · have hend := hmeets.inv_run hinit fun t op hop h => h.next hlaw hop
    exact hend.accepts_iff hlaw hfree hp hpreset r challenge lr
  · intro s hs hnone
    have hbefore := hmeets.inv_trace hinit (fun t op hop h => h.next hlaw hop) s hs
    have hafter := hbefore.next hlaw (hmeets s hs)
    rw [hafter.accepts_iff hlaw hfree hp hpreset r challenge lr,
      hbefore.accepts_iff hlaw hfree hp hpreset r challenge lr]
    -- Neither the record nor the preset password is another one.
    have hlast : ((keeping crypto).next s.1 s.2).lastSet = s.1.lastSet := by
      show (s.2.sets crypto s.1.device).getD s.1.lastSet = s.1.lastSet
      rw [hnone]
      rfl
    unfold Tracked.current
    rw [hlast, hafter.preset_eq, hbefore.preset_eq]

/-! ### Functions that satisfy the assumptions -/

/-- The first 32 bytes for a hash, a character for a byte, and a box that is transparent. -/
def plainCrypto : StorageCrypto where
  sha256 v := resize v permanentPasswordH1Len
  base64Decode v := some ((fromUtf8Lossy v).map fun c => UInt8.ofNat c.toNat)
  base64Encode v := v.map fun b => Char.ofNat b.toNat
  box := Link.tagBox

theorem plainCrypto_lawful : plainCrypto.Lawful where
  box := Link.tagBox_lawful
  decode_encode v := by
    show some ((fromUtf8Lossy (asBytes (v.map fun b => Char.ofNat b.toNat))).map
      fun c => UInt8.ofNat c.toNat) = some v
    rw [fromUtf8Lossy_asBytes, List.map_map]
    refine congrArg some (List.map_id'' (fun b => ?_) v)
    have hlt := b.toNat_lt
    have hvalid : b.toNat.isValidChar := Or.inl (by omega)
    show UInt8.ofNat (Char.ofNat b.toNat).toNat = b
    rw [show Char.ofNat b.toNat = Char.ofNatAux b.toNat hvalid from dif_pos hvalid]
    exact UInt8.ofNat_toNat
  le_length_encode v := (List.length_map _).ge
  length_encode_le v := by
    show (v.map fun b => Char.ofNat b.toNat).length ≤ _
    rw [List.length_map]
    omega
  length_sha256 v := length_resize v _

def oneLetter (p : List Char) : Prop := p = ['a'] ∨ p = ['b']

theorem plainCrypto_collisionFree : plainCrypto.CollisionFree oneLetter where
  hash p q salt hp hq h := by
    -- The hashes begin with the letter.
    have hhead := congrArg List.head? h
    rcases hp with rfl | rfl <;> rcases hq with rfl | rfl
    · rfl
    · exact absurd (show some (97 : UInt8) = some 98 from hhead) (by decide)
    · exact absurd (show some (98 : UInt8) = some 97 from hhead) (by decide)
    · rfl
  answer h1 h1' challenge hlen hlen' h := by
    have htake (v : Bytes) (hv : v.length = permanentPasswordH1Len) :
        plainCrypto.sha256 (v ++ challenge) = v := by
      show resize (v ++ challenge) permanentPasswordH1Len = v
      unfold resize
      rw [List.take_left' hv, List.length_append, hv, Nat.sub_eq_zero_of_le (Nat.le_add_right _ _)]
      exact List.append_nil v
    rw [htake h1 hlen, htake h1' hlen'] at h
    exact h

def plainConfig : Config where
  option _ := []
  temporaryPassword := []
  password := []
  salt := []
  hardPassword := []
  hardSalt := []
  uuid := [7]
  existingPk := none

def plainRandom : Random where
  autoPassword := ⟨List.replicate 32 's', rfl⟩
  hashNonce := ⟨List.replicate 24 1, rfl⟩
  storeNonce := ⟨List.replicate 24 2, rfl⟩

/-- A password is set, another salt is refused, and the program starts again. -/
def setAndRestart : List Operation :=
  [.setPermanentPassword false ['a'] plainRandom, .setSalt ['x'] plainRandom,
    .load false plainRandom]

/-- The password that was set is accepted after the restart, and the other is not. -/
theorem accepted_iff_last_set_restart :
    ((keeping plainCrypto).run (Start.fresh plainCrypto plainConfig).tracked setAndRestart
        ).device.accepts plainCrypto plainRandom ['c'] .default ['a'] = true ∧
      ¬ ((keeping plainCrypto).run (Start.fresh plainCrypto plainConfig).tracked setAndRestart
        ).device.accepts plainCrypto plainRandom ['c'] .default ['b'] = true := by
  have hops : ∀ op ∈ setAndRestart, op.Within oneLetter := by
    intro op hop
    simp only [setAndRestart, List.mem_cons, List.not_mem_nil, or_false] at hop
    rcases hop with rfl | rfl | rfl
    · exact Or.inl rfl
    · trivial
    · trivial
  have hcurrent : ((keeping plainCrypto).run (Start.fresh plainCrypto plainConfig).tracked
      setAndRestart).current plainCrypto = .password ['a'] := by decide +kernel
  constructor
  · refine (accepted_iff_last_set plainCrypto_lawful plainCrypto_collisionFree
      (.fresh _ plainConfig)
      trivial trivial setAndRestart hops (Or.inl rfl) plainRandom ['c'] .default).1.mpr ?_
    rw [hcurrent]
    rfl
  · intro haccepted
    have hmatches := (accepted_iff_last_set plainCrypto_lawful plainCrypto_collisionFree
      (.fresh _ plainConfig) trivial trivial setAndRestart hops (Or.inr rfl) plainRandom ['c']
      .default).1.mp haccepted
    rw [hcurrent] at hmatches
    exact absurd hmatches (by decide)

end Ohos

end LibRustdesk
