import LibRustdesk.Clipboard.Descriptor

/-!
# Times the peer chooses

`FileDescription::parse_file_descriptor` turns the write time of a record into nanoseconds, with a
product that has no bound. What the parser does of a list that the peer has made up:

* `Record` — the fields that decide it, where a record begins.
* `lastModified`, `parseFileDescriptorsWith` — the conversion and the parser, with overflow checks
  (`checks`), where an overflow ends the thread, or without, where it wraps.
* `parse_isSome_iff` — **exactly when the parser answers**. One length check makes all reads be in
  range, and `592 * count` is a `usize`; but a record with a time from the year 2554 on, which the
  loop gets to, is one product too many.
-/

namespace LibRustdesk.Clipboard.Descriptor

open LittleEndian Utf16

/-! ### The parser -/

/-- A product of two `u64`. -/
def mulU64 (checks : Bool) (a b : UInt64) : Option UInt64 :=
  if checks ∧ 2 ^ 64 ≤ a.toNat * b.toNat then none else some (a * b)

/-- `SystemTime::UNIX_EPOCH + Duration::from_nanos(nanos)`, whose seconds are an `i64`. -/
def unixEpochPlus (nanos : UInt64) : Option ℤ :=
  if nanos.toNat / 1000000000 < 2 ^ 63 then some nanos.toNat else none

/-- The time of a record that has a time after the epoch. -/
def lastModified (checks : Bool) (lastWriteTime : UInt64) : Option ℤ :=
  (mulU64 checks (lastWriteTime - LDAP_EPOCH_DELTA) 100).bind unixEpochPlus

def parseFileDescriptorWith (checks : Bool) (connId : Int32) (bytes : Bytes) :
    Option (Except ParseError FileDescription × Bytes) := do
  let (flags, bytes) ← getU32Le bytes
  let bytes ← advance 32 bytes
  let (attributes, bytes) ← getU32Le bytes
  let bytes ← advance 12 bytes
  let (mode, bytes) ← getU32Le bytes
  let (lastWriteTime, bytes) ← getU64Le bytes
  let (fileSizeHigh, bytes) ← getU32Le bytes
  let (fileSizeLow, bytes) ← getU32Le bytes
  let rest ← advance 520 bytes
  match fromUtf16Le (bytes.take 520) with
  | none => return (.error .conversionFailure, rest)
  | some wstr =>
    if flags &&& FLAGS_FD_ATTRIBUTES = 0 then
      return (.error (.invalidRequest "file description must have valid attributes"), rest)
    else
      let directory := attributes &&& 0x10 ≠ 0
      let perm :=
        if flags &&& FLAGS_FD_UNIX_MODE ≠ 0 then mode.toUInt16
        else if attributes = 0x80 then PERM_RWX
        else if attributes &&& 0x01 ≠ 0 then PERM_READ
        else if attributes &&& 0x02 ≠ 0 then PERM_SELF_RO
        else if directory then PERM_RWX
        else PERM_RW
      let lastModified ←
        if flags &&& FLAGS_FD_LAST_WRITE ≠ 0 ∧ LDAP_EPOCH_DELTA ≤ lastWriteTime then
          lastModified checks lastWriteTime
        else some 0
      return (.ok {
        connId := connId
        name := trimEndNul (slashed wstr)
        kind := if directory then .directory else .file
        atime := lastModified
        lastModified := lastModified
        lastMetadataChanged := lastModified
        creationTime := lastModified
        size := (fileSizeHigh.toUInt64 <<< 32) + fileSizeLow.toUInt64
        perm := perm }, rest)

def parseDescriptorsWith (checks : Bool) (connId : Int32) :
    ℕ → Bytes → Option (Except ParseError (List FileDescription))
  | 0, _ => some (.ok [])
  | count + 1, data => do
    let (desc, data) ← parseFileDescriptorWith checks connId data
    match desc with
    | .error e => return .error e
    | .ok desc => return (← parseDescriptorsWith checks connId count data).map (desc :: ·)

def parseFileDescriptorsWith (checks : Bool) (pdu : Bytes) (connId : Int32) :
    Option (Except ParseError (List FileDescription)) :=
  if pdu.length < 4 then
    some (.error (.invalidRequest "file descriptor request with infficient length"))
  else do
    let (count, data) ← getU32Le pdu
    if data.length = 0 ∧ count.toNat = 0 then return .ok []
    else do
      -- `count as usize` has 64 bits
      let size ← mulU64 checks 592 count.toUInt64
      if data.length ≠ size.toNat then
        return .error (.invalidRequest "file descriptor request with invalid length")
      else parseDescriptorsWith checks connId count.toNat data

/-! ### Records -/

namespace Record

/-- What is read of a buffer that begins with a record. -/
def flags (bytes : Bytes) : UInt32 := UInt32.ofNat (assemble (bytes.take 4))

def lastWriteTime (bytes : Bytes) : UInt64 := UInt64.ofNat (assemble ((bytes.drop 56).take 8))

def block (bytes : Bytes) : Bytes := (bytes.drop 72).take 520

def Accepted (bytes : Bytes) : Prop :=
  (fromUtf16Le (block bytes)).isSome ∧ flags bytes &&& FLAGS_FD_ATTRIBUTES ≠ 0

instance (bytes : Bytes) : Decidable (Accepted bytes) := inferInstanceAs (Decidable (_ ∧ _))

/-- The time, if there is one after the epoch, is one that nanoseconds can count. -/
def TimeFits (bytes : Bytes) : Prop :=
  flags bytes &&& FLAGS_FD_LAST_WRITE ≠ 0 → LDAP_EPOCH_DELTA ≤ lastWriteTime bytes →
    (lastWriteTime bytes - LDAP_EPOCH_DELTA).toNat * 100 < 2 ^ 64

instance (bytes : Bytes) : Decidable (TimeFits bytes) := inferInstanceAs (Decidable (_ → _ → _))

/-- The buffer at the beginning of each of `count` records. -/
def all : ℕ → Bytes → List Bytes
  | 0, _ => []
  | count + 1, data => data :: all count (data.drop 592)

def count (pdu : Bytes) : ℕ := (UInt32.ofNat (assemble (pdu.take 4))).toNat

def ofPdu (pdu : Bytes) : List Bytes :=
  if pdu.length = 4 + 592 * count pdu then all (count pdu) (pdu.drop 4) else []

end Record

/-! ### Reading in range -/

theorem advance_of_le {n : ℕ} {buf : Bytes} (h : n ≤ buf.length) :
    advance n buf = some (buf.drop n) := if_pos h

theorem getU32Le_of_le {buf : Bytes} (h : 4 ≤ buf.length) :
    getU32Le buf = some (UInt32.ofNat (assemble (buf.take 4)), buf.drop 4) := by
  unfold getU32Le
  rw [advance_of_le h]
  rfl

theorem getU64Le_of_le {buf : Bytes} (h : 8 ≤ buf.length) :
    getU64Le buf = some (UInt64.ofNat (assemble (buf.take 8)), buf.drop 8) := by
  unfold getU64Le
  rw [advance_of_le h]
  rfl

theorem unixEpochPlus_eq (nanos : UInt64) : unixEpochPlus nanos = some (nanos.toNat : ℤ) := by
  have hlt := nanos.toNat_lt
  have hseconds : nanos.toNat / 1000000000 < 2 ^ 63 := by omega
  exact if_pos hseconds

variable (checks : Bool) (connId : Int32)

theorem parseFileDescriptorWith_cases {bytes : Bytes}
    (h : 592 ≤ bytes.length) :
    (¬ Record.Accepted bytes ∧ ∃ e, parseFileDescriptorWith checks connId bytes =
      some (.error e, bytes.drop 592)) ∨
    (Record.Accepted bytes ∧ ∃ desc : ℤ → FileDescription,
      parseFileDescriptorWith checks connId bytes =
        (if Record.flags bytes &&& FLAGS_FD_LAST_WRITE ≠ 0 ∧
            LDAP_EPOCH_DELTA ≤ Record.lastWriteTime bytes then
          lastModified checks (Record.lastWriteTime bytes)
        else some 0).map fun time => (.ok (desc time), bytes.drop 592)) := by
  unfold parseFileDescriptorWith
  have hdrop (n : ℕ) : (bytes.drop n).length = bytes.length - n := List.length_drop
  -- the fields come off the front one by one, and there is enough for each
  rw [getU32Le_of_le (by omega)]
  dsimp only [Option.bind_eq_bind, Option.bind_some]
  rw [advance_of_le (by rw [hdrop]; omega), List.drop_drop]
  dsimp only [Option.bind_some]
  rw [getU32Le_of_le (by rw [hdrop]; omega), List.drop_drop]
  dsimp only [Option.bind_some]
  rw [advance_of_le (by rw [hdrop]; omega), List.drop_drop]
  dsimp only [Option.bind_some]
  rw [getU32Le_of_le (by rw [hdrop]; omega), List.drop_drop]
  dsimp only [Option.bind_some]
  rw [getU64Le_of_le (by rw [hdrop]; omega), List.drop_drop]
  dsimp only [Option.bind_some]
  rw [getU32Le_of_le (by rw [hdrop]; omega), List.drop_drop]
  dsimp only [Option.bind_some]
  rw [getU32Le_of_le (by rw [hdrop]; omega), List.drop_drop]
  dsimp only [Option.bind_some]
  rw [advance_of_le (by rw [hdrop]; omega), List.drop_drop]
  have hblock : (bytes.drop (4 + 32 + 4 + 12 + 4 + 8 + 4 + 4)).take 520 = Record.block bytes := rfl
  rw [hblock]
  unfold Record.Accepted
  cases hname : fromUtf16Le (Record.block bytes) with
  | none => exact Or.inl ⟨fun hsome => Bool.false_ne_true hsome.1, _, rfl⟩
  | some wstr =>
    by_cases hattributes : Record.flags bytes &&& FLAGS_FD_ATTRIBUTES = 0
    · refine Or.inl ⟨fun haccepted => haccepted.2 hattributes,
        .invalidRequest "file description must have valid attributes", ?_⟩
      exact if_pos hattributes
    · refine Or.inr ⟨⟨rfl, hattributes⟩, ?_⟩
      by_cases htime : Record.flags bytes &&& FLAGS_FD_LAST_WRITE ≠ 0 ∧
          LDAP_EPOCH_DELTA ≤ Record.lastWriteTime bytes
      · simp only [if_pos htime, Option.map_eq_bind]
        exact ⟨_, (if_neg hattributes).trans (if_pos htime)⟩
      · simp only [if_neg htime, Option.map_some]
        exact ⟨fun _ => _, (if_neg hattributes).trans (if_neg htime)⟩

/-! ### When the parser answers -/

theorem mulU64_isSome_iff (a b : UInt64) :
    (mulU64 checks a b).isSome ↔ (checks = true → a.toNat * b.toNat < 2 ^ 64) := by
  unfold mulU64
  split
  · next h => exact iff_of_false Bool.false_ne_true fun hlt => Nat.not_lt.mpr h.2 (hlt h.1)
  · next h =>
    refine iff_of_true rfl fun hchecks => ?_
    exact Nat.lt_of_not_le fun hle => h ⟨hchecks, hle⟩

theorem lastModified_isSome_iff (time : UInt64) :
    (lastModified checks time).isSome ↔
      (checks = true → (time - LDAP_EPOCH_DELTA).toNat * 100 < 2 ^ 64) := by
  have hmul := mulU64_isSome_iff checks (time - LDAP_EPOCH_DELTA) 100
  unfold lastModified
  cases hprod : mulU64 checks (time - LDAP_EPOCH_DELTA) 100 with
  | none =>
    rw [hprod] at hmul
    exact hmul
  | some nanos =>
    rw [hprod] at hmul
    rw [Option.bind_some, unixEpochPlus_eq]
    exact hmul

theorem mulU64_count (count : UInt32) :
    ∃ size, mulU64 checks 592 count.toUInt64 = some size ∧ size.toNat = 592 * count.toNat := by
  have hlt : 592 * count.toNat < 2 ^ 64 := by
    have hcount := count.toNat_lt
    omega
  have h592 : (592 : UInt64).toNat = 592 := rfl
  have hsome : (mulU64 checks 592 count.toUInt64).isSome := by
    rw [mulU64_isSome_iff, UInt32.toNat_toUInt64]
    exact fun _ => hlt
  obtain ⟨size, hsize⟩ := Option.isSome_iff_exists.mp hsome
  refine ⟨size, hsize, ?_⟩
  unfold mulU64 at hsize
  split at hsize
  · cases hsize
  · obtain rfl := Option.some.inj hsize
    rw [UInt64.toNat_mul, UInt32.toNat_toUInt64, h592]
    exact Nat.mod_eq_of_lt hlt

/-- **The loop** gets to the records up to the first that is refused, and it answers if their times
fit. -/
theorem parseDescriptorsWith_isSome_iff {count : ℕ} {data : Bytes}
    (h : data.length = 592 * count) :
    (parseDescriptorsWith checks connId count data).isSome ↔
      (checks = true → ∀ r ∈ (Record.all count data).takeWhile fun r => decide (Record.Accepted r),
        Record.TimeFits r) := by
  induction count generalizing data with
  | zero => exact iff_of_true rfl fun _ r hr => absurd hr List.not_mem_nil
  | succ count ih =>
    have hrest : (data.drop 592).length = 592 * count := by
      rw [List.length_drop, h]
      omega
    unfold parseDescriptorsWith Record.all
    have h592 : 592 ≤ data.length := by omega
    rcases parseFileDescriptorWith_cases checks connId h592 with
      ⟨hrefused, e, heq⟩ | ⟨haccepted, desc, heq⟩
    · rw [heq, List.takeWhile_cons_of_neg (by simpa using hrefused)]
      exact iff_of_true rfl fun _ r hr => absurd hr List.not_mem_nil
    · rw [heq, List.takeWhile_cons_of_pos (by simpa using haccepted), List.forall_mem_cons]
      have htime : (if Record.flags data &&& FLAGS_FD_LAST_WRITE ≠ 0 ∧
          LDAP_EPOCH_DELTA ≤ Record.lastWriteTime data then
            lastModified checks (Record.lastWriteTime data)
          else some 0).isSome ↔ (checks = true → Record.TimeFits data) := by
        split
        · next hwrite =>
          rw [lastModified_isSome_iff]
          exact ⟨fun hfits hchecks _ _ => hfits hchecks, fun hfits hchecks =>
            hfits hchecks hwrite.1 hwrite.2⟩
        · next hwrite =>
          exact iff_of_true rfl fun _ hflag hepoch => absurd ⟨hflag, hepoch⟩ hwrite
      have hih := ih hrest
      rw [forall_and, ← htime, ← hih]
      generalize (if Record.flags data &&& FLAGS_FD_LAST_WRITE ≠ 0 ∧
          LDAP_EPOCH_DELTA ≤ Record.lastWriteTime data then
            lastModified checks (Record.lastWriteTime data) else some 0) = time
      cases time with
      | none => exact iff_of_false Bool.false_ne_true fun h => Bool.false_ne_true h.1
      | some time =>
        rw [Option.map_some]
        dsimp only [Option.bind_eq_bind, Option.bind_some]
        cases parseDescriptorsWith checks connId count (data.drop 592) with
        | none => exact iff_of_false Bool.false_ne_true fun h => Bool.false_ne_true h.2
        | some descs => exact iff_of_true rfl ⟨rfl, rfl⟩

theorem parseFileDescriptorWith_false (bytes : Bytes) :
    parseFileDescriptorWith false connId bytes = parseFileDescriptor connId bytes := by
  have hwraps (time : UInt64) :
      lastModified false time = some (((time - LDAP_EPOCH_DELTA) * 100).toNat : ℤ) := by
    unfold lastModified mulU64
    rw [if_neg (fun h => Bool.false_ne_true h.1), Option.bind_some, unixEpochPlus_eq]
  refine bind_congr (Prod.forall.mpr fun flags bytes => bind_congr fun bytes => ?_)
  refine bind_congr (Prod.forall.mpr fun attributes bytes => bind_congr fun bytes => ?_)
  refine bind_congr (Prod.forall.mpr fun mode bytes => ?_)
  refine bind_congr (Prod.forall.mpr fun lastWriteTime bytes => ?_)
  refine bind_congr (Prod.forall.mpr fun high bytes => ?_)
  refine bind_congr (Prod.forall.mpr fun low bytes => bind_congr fun rest => ?_)
  cases fromUtf16Le (bytes.take 520) with
  | none => rfl
  | some wstr =>
    dsimp only
    rw [hwraps]
    split
    · rfl
    · split
      · rfl
      · rfl

theorem parseDescriptorsWith_false (count : ℕ) (data : Bytes) :
    parseDescriptorsWith false connId count data = parseDescriptors connId count data := by
  induction count generalizing data with
  | zero => rfl
  | succ count ih =>
    unfold parseDescriptorsWith parseDescriptors
    rw [parseFileDescriptorWith_false]
    refine bind_congr (Prod.forall.mpr fun desc data => ?_)
    cases desc with
    | error e => rfl
    | ok desc =>
      dsimp only
      rw [ih]

theorem parseFileDescriptorsWith_false (pdu : Bytes) (connId : Int32) :
    parseFileDescriptorsWith false pdu connId = parseFileDescriptors pdu connId := by
  unfold parseFileDescriptorsWith parseFileDescriptors
  split
  · rfl
  · refine bind_congr (Prod.forall.mpr fun count data => ?_)
    obtain ⟨size, hsize, hnat⟩ := mulU64_count false count
    dsimp only
    rw [hsize, parseDescriptorsWith_false, ← hnat]
    rfl

theorem parseFileDescriptorsWith_isSome_iff (pdu : Bytes) (connId : Int32) :
    (parseFileDescriptorsWith checks pdu connId).isSome ↔
      (checks = true → ∀ r ∈ (Record.ofPdu pdu).takeWhile fun r => decide (Record.Accepted r),
        Record.TimeFits r) := by
  unfold parseFileDescriptorsWith Record.ofPdu
  by_cases hshort : pdu.length < 4
  · have hlen : ¬ pdu.length = 4 + 592 * Record.count pdu := by omega
    rw [if_pos hshort, if_neg hlen]
    exact iff_of_true rfl fun _ r hr => absurd hr List.not_mem_nil
  · rw [if_neg hshort, getU32Le_of_le (Nat.le_of_not_lt hshort)]
    dsimp only [Option.bind_eq_bind, Option.bind_some]
    obtain ⟨size, hsize, hnat⟩ :=
      mulU64_count checks (UInt32.ofNat (assemble (pdu.take 4)))
    have hdata : (pdu.drop 4).length = pdu.length - 4 := List.length_drop
    have hcount : (UInt32.ofNat (assemble (pdu.take 4))).toNat = Record.count pdu := rfl
    rw [hsize, hcount, hdata, Option.bind_some, hnat, hcount]
    by_cases hempty : pdu.length - 4 = 0 ∧ Record.count pdu = 0
    · have hlen : pdu.length = 4 + 592 * Record.count pdu := by omega
      rw [if_pos hempty, if_pos hlen, hempty.2]
      exact iff_of_true rfl fun _ r hr => absurd hr List.not_mem_nil
    · rw [if_neg hempty]
      by_cases hlen : pdu.length = 4 + 592 * Record.count pdu
      · have hsame : ¬ pdu.length - 4 ≠ 592 * Record.count pdu := by omega
        rw [if_pos hlen, if_neg hsame]
        exact parseDescriptorsWith_isSome_iff checks connId (by omega)
      · have hother : pdu.length - 4 ≠ 592 * Record.count pdu := by omega
        rw [if_neg hlen, if_pos hother]
        exact iff_of_true rfl fun _ r hr => absurd hr List.not_mem_nil

/-- **When the parser answers.** Where overflows are checked for, it does if every record that the
loop gets to has a time that nanoseconds can count. Where they are not, it always answers, with a
time that has wrapped. -/
theorem parse_isSome_iff (pdu : Bytes) (connId : Int32) :
    ((parseFileDescriptorsWith true pdu connId).isSome ↔
      ∀ r ∈ (Record.ofPdu pdu).takeWhile fun r => decide (Record.Accepted r),
        Record.TimeFits r) ∧
    parseFileDescriptorsWith false pdu connId = parseFileDescriptors pdu connId ∧
    (parseFileDescriptors pdu connId).isSome ∧ 592 * Record.count pdu < 2 ^ 64 := by
  refine ⟨?_, parseFileDescriptorsWith_false pdu connId, ?_, ?_⟩
  · rw [parseFileDescriptorsWith_isSome_iff]
    exact ⟨fun h => h rfl, fun h _ => h⟩
  · rw [← parseFileDescriptorsWith_false, parseFileDescriptorsWith_isSome_iff]
    exact fun hchecks => absurd hchecks Bool.false_ne_true
  · have hlt : Record.count pdu < 2 ^ 32 := UInt32.toNat_lt _
    omega

/-- A list of one file without a name, written at this time. -/
def writtenAt (time : UInt64) : Bytes :=
  putU32Le [] 1 ++ putU32Le [] (FLAGS_FD_ATTRIBUTES ||| FLAGS_FD_LAST_WRITE) ++
    List.replicate 32 0 ++ putU32Le [] 0x80 ++ List.replicate 16 0 ++ u64LeBytes time ++
    List.replicate 528 0

/-- The last time that can be counted, and the latest there is. -/
theorem latest_overflows :
    (parseFileDescriptorsWith true (writtenAt 300912213347095516) 7).isSome = true ∧
      parseFileDescriptorsWith true (writtenAt 0xFFFFFFFFFFFFFFFF) 7 = none := by
  decide +kernel

end LibRustdesk.Clipboard.Descriptor
