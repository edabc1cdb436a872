import LibRustdesk.Ohos.Utf8

/-!
# What an accepted login proves

A login proves a password when it carries the 32 bytes `SHA256(h1 || challenge)` for an `h1` that
the verification method enables: the `h1` of the temporary password, or of the permanent one. This
module states that apart from the handler, and says when `validate_password` accepts nothing else.

* `permanentH1` — the `h1` of the permanent password: of the local one, as a hash, as a text, or as
  an old ciphertext of a text; else of the preset one.
* `Proves` — the login carries a proof.
* `validatePassword_proves_iff` — for every login, challenge and configuration, the handler accepts
  it only with a proof exactly unless one of three things happens: `OpenByClick`, the branch for
  approval by click lets an empty password in; `Longer`, a proof is followed by more bytes, which
  `verify_h1` cuts off; `BySealedText`, the text of an old ciphertext is answered for in place of
  the password sealed in it.

`validatePassword_iff` states the handler's own decision over what it hashes (`usedH1`), and the
rest is the comparison of the two. The hash function is taken to be injective.
-/

namespace LibRustdesk

namespace Ohos

open LittleEndian

variable (crypto : Crypto) (config : Config) (hash : Hash) (lr : LoginRequest)

/-- `SHA256(p || salt)`. -/
def plainH1 (p : List Char) : Bytes := crypto.sha256 (asBytes p ++ asBytes hash.salt)

/-- The `h1` of the preset permanent password. -/
def presetH1 : Option Bytes :=
  if config.hardPassword = [] then none
  else if config.hardSalt = [] then some (plainH1 crypto hash config.hardPassword)
  else decodePresetPasswordH1FromStorage crypto config.hardPassword

/-- The `h1` of the permanent password where `p` is the text of a local one that is no hash. What is
not usable has none. -/
def permanentH1Of (p : List Char) : Option Bytes :=
  if config.password = [] then presetH1 crypto config hash
  else if localPermanentPasswordStorageIsUsableForAuth crypto config config.password
      config.salt then
    some ((decodePermanentPasswordH1FromStorage crypto config config.password).getD
      (plainH1 crypto hash p))
  else none

/-- The text of the local permanent password: what a legacy ciphertext seals, else the storage. -/
def localText : List Char :=
  (decryptStrOrOriginal crypto config config.password passwordEncVersion).1

/-- The `h1` of the configured permanent password. -/
def permanentH1 : Option Bytes := permanentH1Of crypto config hash (localText crypto config)

/-- The `h1` that the handler compares with: a storage that is no hash is its own text. -/
def usedH1 : Option Bytes := permanentH1Of crypto config hash config.password

/-- The login carries the 32 bytes that answer the challenge for `h1`. -/
def ProvesH1 (h1 : Bytes) : Prop :=
  lr.password.length = 32 ∧ lr.password = crypto.sha256 (h1 ++ asBytes hash.challenge)

/-- **A proof.** The login proves a password that the verification method enables. -/
def Proves : Prop :=
  config.temporaryEnabled = true ∧ config.temporaryPassword ≠ [] ∧
      ProvesH1 crypto hash lr (plainH1 crypto hash config.temporaryPassword) ∨
    config.permanentEnabled = true ∧
      ∃ h1, permanentH1 crypto config hash = some h1 ∧ ProvesH1 crypto hash lr h1

/-- The first 32 bytes answer for the temporary password. -/
def AnswersTemporary : Prop :=
  config.temporaryEnabled = true ∧ config.temporaryPassword ≠ [] ∧
    Answers crypto hash lr (plainH1 crypto hash config.temporaryPassword)

/-- The first 32 bytes answer for the permanent password as it is stored. -/
def AnswersStored : Prop :=
  config.permanentEnabled = true ∧
    ∃ h1, usedH1 crypto config hash = some h1 ∧ Answers crypto hash lr h1

/-! ### What goes wrong -/

def OpenByClick : Prop :=
  config.approveMode = .click ∧ lr.password = [] ∧ config.option "permanent-password".toList = []

def Longer : Prop :=
  32 < lr.password.length ∧
    (AnswersTemporary crypto config hash lr ∨ AnswersStored crypto config hash lr)

/-- The local permanent password is a legacy ciphertext of another text. -/
def SealedText : Prop :=
  config.password ≠ [] ∧ decodePermanentPasswordH1FromStorage crypto config config.password = none ∧
    localText crypto config ≠ config.password

def BySealedText : Prop :=
  SealedText crypto config ∧ AnswersStored crypto config hash lr ∧
    ¬ AnswersTemporary crypto config hash lr

/-! ### The decision -/

section Decision

variable {crypto config hash lr}

theorem validatePasswordPlain_iff {p : List Char} :
    validatePasswordPlain crypto hash lr p = true ↔
      p ≠ [] ∧ Answers crypto hash lr (plainH1 crypto hash p) := by
  unfold validatePasswordPlain
  split_ifs with hp
  · exact ⟨False.elim, fun h => absurd hp h.1⟩
  · rw [verifyH1_iff]
    exact ⟨fun h => ⟨hp, h⟩, And.right⟩

theorem validatePermanentPassword_iff :
    validatePermanentPassword crypto config hash lr = true ↔
      ∃ h1, usedH1 crypto config hash = some h1 ∧ Answers crypto hash lr h1 := by
  unfold validatePermanentPassword usedH1 permanentH1Of
  by_cases hlocal : config.password = []
  · rw [if_neg (not_not.mpr hlocal), if_pos hlocal]
    unfold presetPermanentPasswordStorageIsUsableForAuth validatePresetPasswordStorage presetH1
    by_cases hhard : config.hardPassword = []
    · simp [hhard]
    by_cases hsalt : config.hardSalt = []
    · simp [hhard, hsalt, validatePasswordPlain_iff]
    · cases hdecode : decodePresetPasswordH1FromStorage crypto config.hardPassword with
      | none => simp [hhard, hsalt]
      | some h1 => simp [hhard, hsalt, verifyH1_iff]
  · rw [if_pos hlocal, if_neg hlocal]
    unfold validatePasswordStorage
    rw [if_neg hlocal]
    cases localPermanentPasswordStorageIsUsableForAuth crypto config config.password
      config.salt with
    | false => simp
    | true =>
      cases decodePermanentPasswordH1FromStorage crypto config config.password with
      | none => simp [validatePasswordPlain_iff, hlocal]
      | some h1 => simp [verifyH1_iff]

theorem validatePassword_iff :
    validatePassword crypto config hash lr = true ↔
      AnswersTemporary crypto config hash lr ∨ AnswersStored crypto config hash lr ∨
        OpenByClick config lr := by
  have htemp : (config.temporaryEnabled &&
      validatePasswordPlain crypto hash lr config.temporaryPassword) = true ↔
        AnswersTemporary crypto config hash lr := by
    rw [Bool.and_eq_true, validatePasswordPlain_iff]
    rfl
  have hperm : (config.permanentEnabled && validatePermanentPassword crypto config hash lr) = true ↔
      AnswersStored crypto config hash lr := by
    rw [Bool.and_eq_true, validatePermanentPassword_iff]
    rfl
  unfold validatePassword
  split_ifs with h1 h2
  · exact ⟨fun _ => Or.inl (htemp.mp h1), fun _ => rfl⟩
  · exact ⟨fun _ => Or.inr (Or.inl (hperm.mp h2)), fun _ => rfl⟩
  · rw [htemp] at h1
    rw [hperm] at h2
    rw [Bool.and_eq_true, Bool.and_eq_true, decide_eq_true_eq, decide_eq_true_eq,
      decide_eq_true_eq, and_assoc]
    exact ⟨fun h => Or.inr (Or.inr h), fun h => (h.resolve_left h1).resolve_left h2⟩

theorem usedH1_of_not_sealed (h : ¬ SealedText crypto config) :
    usedH1 crypto config hash = permanentH1 crypto config hash := by
  unfold usedH1 permanentH1 permanentH1Of
  by_cases hlocal : config.password = []
  · rw [if_pos hlocal, if_pos hlocal]
  rw [if_neg hlocal, if_neg hlocal]
  cases hdecode : decodePermanentPasswordH1FromStorage crypto config config.password with
  | some h1 => rfl
  | none =>
    have htext : localText crypto config = config.password := by
      by_contra hne
      exact h ⟨hlocal, hdecode, hne⟩
    rw [htext]

theorem usedH1_ne_of_sealed (hinj : Function.Injective crypto.sha256)
    (h : SealedText crypto config) {h1 h1' : Bytes} (hused : usedH1 crypto config hash = some h1)
    (hperm : permanentH1 crypto config hash = some h1') : h1 ≠ h1' := by
  obtain ⟨hlocal, hdecode, hne⟩ := h
  unfold usedH1 permanentH1Of at hused
  unfold permanentH1 permanentH1Of at hperm
  rw [if_neg hlocal, hdecode] at hused hperm
  split_ifs at hused hperm
  rw [← Option.some.inj hused, ← Option.some.inj hperm]
  intro heq
  -- one salt, so the texts would be the same
  exact hne (asBytes_injective (List.append_cancel_right (hinj heq))).symm

theorem provesH1_of_answers {h1 : Bytes} (h : Answers crypto hash lr h1)
    (hlen : ¬ 32 < lr.password.length) : ProvesH1 crypto hash lr h1 := by
  have hlen' : lr.password.length = 32 := Nat.le_antisymm (Nat.not_lt.mp hlen) h.1
  refine ⟨hlen', ?_⟩
  rw [h.2, ← hlen', List.take_length]

/-- **When an accepted login is a proof.** The handler accepts no login without a proof exactly
unless it lets an empty password in by the branch for approval by click, cuts off what follows an
answer, or takes the answer for a ciphertext. -/
theorem validatePassword_proves_iff (hinj : Function.Injective crypto.sha256) :
    (validatePassword crypto config hash lr = true → Proves crypto config hash lr) ↔
      ¬ OpenByClick config lr ∧ ¬ Longer crypto config hash lr ∧
        ¬ BySealedText crypto config hash lr := by
  rw [validatePassword_iff]
  constructor
  · intro h
    refine ⟨fun hclick => ?_, fun hlonger => ?_, fun ⟨hsealed, hstored, hnot⟩ => ?_⟩
    · -- an empty password is no proof
      have hproof := h (Or.inr (Or.inr hclick))
      have hlen : lr.password.length = 32 := by
        rcases hproof with ⟨-, -, hlen, -⟩ | ⟨-, _, -, hlen, -⟩ <;> exact hlen
      rw [hclick.2.1] at hlen
      cases hlen
    · obtain ⟨hlt, hanswers⟩ := hlonger
      have hproof := h (hanswers.imp_right Or.inl)
      have hlen : lr.password.length = 32 := by
        rcases hproof with ⟨-, -, hlen, -⟩ | ⟨-, _, -, hlen, -⟩ <;> exact hlen
      exact absurd hlen (Nat.ne_of_gt hlt)
    · obtain ⟨hpe, h1, hused, hanswer⟩ := hstored
      rcases h (Or.inr (Or.inl ⟨hpe, h1, hused, hanswer⟩)) with
        ⟨hte, hne, hlen, heq⟩ | ⟨-, h1', hperm, hlen, heq⟩
      · refine hnot ⟨hte, hne, Nat.le_of_eq hlen.symm, ?_⟩
        rw [← hlen, List.take_length, heq]
      · -- one answer for both
        have hsame : crypto.sha256 (h1 ++ asBytes hash.challenge) =
            crypto.sha256 (h1' ++ asBytes hash.challenge) := by
          calc crypto.sha256 (h1 ++ asBytes hash.challenge)
              = lr.password.take 32 := hanswer.2
            _ = lr.password := by rw [← hlen, List.take_length]
            _ = crypto.sha256 (h1' ++ asBytes hash.challenge) := heq
        exact usedH1_ne_of_sealed hinj hsealed hused hperm (List.append_cancel_right (hinj hsame))
  · rintro ⟨hclick, hlonger, hsealed⟩ haccept
    by_cases htemp : AnswersTemporary crypto config hash lr
    · obtain ⟨hte, hne, hanswer⟩ := htemp
      exact Or.inl ⟨hte, hne, provesH1_of_answers hanswer fun hlt =>
        hlonger ⟨hlt, Or.inl ⟨hte, hne, hanswer⟩⟩⟩
    · have hstored := (haccept.resolve_left htemp).resolve_right hclick
      have hplain : ¬ SealedText crypto config := fun h => hsealed ⟨h, hstored, htemp⟩
      obtain ⟨hpe, h1, hused, hanswer⟩ := hstored
      refine Or.inr ⟨hpe, h1, ?_, provesH1_of_answers hanswer fun hlt =>
        hlonger ⟨hlt, Or.inr ⟨hpe, h1, hused, hanswer⟩⟩⟩
      rw [← usedH1_of_not_sealed hplain]
      exact hused

end Decision

/-! ### Two logins -/

/-- `SHA256("a")`. -/
def digestOfA : Bytes :=
  [202, 151, 129, 18, 202, 27, 189, 202, 250, 194, 49, 179, 154, 35, 220, 77, 167, 134, 239, 248,
   20, 124, 78, 114, 185, 128, 119, 133, 175, 238, 72, 187]

/-- `SHA256(SHA256("a") || "c")`. -/
def digestOfAnswer : Bytes :=
  [254, 164, 239, 249, 227, 209, 104, 160, 54, 213, 112, 8, 78, 126, 173, 56, 235, 186, 3, 101,
   23, 199, 180, 193, 129, 157, 230, 133, 103, 20, 48, 189]

/-- An injective hash function with these two values; nothing is decoded or opened. -/
def digests : Crypto where
  sha256 := fun v => Equiv.swap (asBytes ['a']) digestOfA
    (Equiv.swap (digestOfA ++ asBytes ['c']) digestOfAnswer v)
  base64Decode := fun _ => none
  box := ⟨fun m _ _ => m, fun _ _ _ => none⟩

theorem digests_injective : Function.Injective digests.sha256 :=
  (Equiv.swap _ _).injective.comp (Equiv.swap _ _).injective

/-- A device with the temporary password `a` and an approve mode. -/
def oneTemporary (approveMode : List Char) : Config where
  option := fun k => if k = "approve-mode".toList then approveMode else []
  temporaryPassword := ['a']
  password := []
  salt := []
  hardPassword := []
  hardSalt := []
  uuid := []
  existingPk := none

/-- The challenge `c` is answered for the temporary password. -/
theorem validatePassword_proves_temporary :
    Proves digests (oneTemporary []) ⟨[], ['c']⟩ ⟨digestOfAnswer, [], [], none⟩ := by
  have haccept : validatePassword digests (oneTemporary []) ⟨[], ['c']⟩
      ⟨digestOfAnswer, [], [], none⟩ = true := by decide +kernel
  refine (validatePassword_proves_iff digests_injective).mpr ⟨?_, ?_, ?_⟩ haccept
  · rintro ⟨-, hempty, -⟩
    exact absurd hempty (by decide)
  · rintro ⟨hlt, -⟩
    exact absurd hlt (by decide)
  · rintro ⟨⟨hlocal, -⟩, -⟩
    exact hlocal rfl

/-- **No password at all.** On a device that approves by click the handler accepts an empty
password, whatever the passwords of the device are. -/
theorem empty_password_accepted :
    validatePassword digests (oneTemporary "click".toList) ⟨[], ['c']⟩ ⟨[], [], [], none⟩ = true ∧
      ¬ Proves digests (oneTemporary "click".toList) ⟨[], ['c']⟩ ⟨[], [], [], none⟩ := by
  refine ⟨by decide +kernel, ?_⟩
  rintro (⟨-, -, hlen, -⟩ | ⟨-, _, -, hlen, -⟩) <;> exact absurd hlen (by decide)

end Ohos

end LibRustdesk
