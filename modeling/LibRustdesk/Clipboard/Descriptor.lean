import LibRustdesk.Framework.Utf16
import LibRustdesk.Ohos.Utf8

/-!
# File descriptors on the clipboard

The list of the copied files goes to the peer as a count and a record of 592 bytes for each:
`LocalFile::as_bin` of `libs/clipboard/src/platform/unix/local_file.rs` writes one, and
`FileDescription::parse_file_descriptor` of `filetype.rs` reads it.

* A path is the bytes that `strip_prefix` leaves of it. A time is in nanoseconds from 1970, and may
  be before. Both sides of the clock start at `LDAP_EPOCH_DELTA`.
* `asBin` answers `none` where `520 - name_len` has no answer, and a reader answers `none` where the
  buffer ends too soon; either ends the thread.
* `LocalFile.received` is what the peer is told of a file.

`parse_buildFileListPdu` is the round trip.
-/

namespace LibRustdesk.Clipboard.Descriptor

open LittleEndian Utf16
open Ohos (asBytes fromUtf8Lossy fromUtf8Lossy_asBytes)

def FLAGS_FD_ATTRIBUTES : UInt32 := 0x04
def FLAGS_FD_SIZE : UInt32 := 0x40
def FLAGS_FD_LAST_WRITE : UInt32 := 0x20
def FLAGS_FD_PROGRESSUI : UInt32 := 0x4000
def FLAGS_FD_UNIX_MODE : UInt32 := 0x08
def LDAP_EPOCH_DELTA : UInt64 := 116444772610000000

/-! ### Writing -/

/-- The fields of a `LocalFile` that `as_bin` reads. -/
structure LocalFile where
  /-- The bytes of `path.strip_prefix(&relative_root)`. -/
  relative : Bytes
  size : UInt64
  lastWriteTime : ℤ
  isDir : Bool
  perm : UInt32
  readOnly : Bool
  hidden : Bool
  system : Bool
  archive : Bool
  normal : Bool

def LocalFile.fileAttributes (f : LocalFile) : UInt32 :=
  (if f.readOnly then 0x1 else 0) ||| (if f.hidden then 0x2 else 0) |||
    (if f.system then 0x4 else 0) ||| (if f.isDir then 0x10 else 0) |||
    (if f.archive then 0x20 else 0) ||| (if f.normal then 0x80 else 0)

/-- A time before 1970 is taken for 1970, and the nanoseconds for a `u64`. -/
def LocalFile.win32Time (f : LocalFile) : UInt64 :=
  UInt64.ofNat f.lastWriteTime.toNat / 100 + LDAP_EPOCH_DELTA

/-- `path.to_string_lossy()`. -/
def LocalFile.pathText (f : LocalFile) : List Char := fromUtf8Lossy f.relative

def LocalFile.asBin (f : LocalFile) : Option Bytes :=
  let sizeHigh := (f.size >>> 32).toUInt32
  let sizeLow := (f.size &&& 0xFFFFFFFF).toUInt32
  let name := toUtf16Le f.pathText
  let flags := FLAGS_FD_SIZE ||| FLAGS_FD_LAST_WRITE ||| FLAGS_FD_ATTRIBUTES |||
    FLAGS_FD_PROGRESSUI ||| FLAGS_FD_UNIX_MODE
  let buf := putU32Le [] flags
  let buf := buf ++ List.replicate 32 0
  let buf := putU32Le buf f.fileAttributes
  let buf := buf ++ List.replicate 12 0
  let buf := putU32Le buf f.perm
  let buf := putU64Le buf f.win32Time
  let buf := putU32Le buf sizeHigh
  let buf := putU32Le buf sizeLow
  let buf := buf ++ name
  if name.length ≤ 520 then some (buf ++ List.replicate (520 - name.length) 0) else none

def records : List LocalFile → Option Bytes
  | [] => some []
  | f :: files => do
    let bin ← f.asBin
    let rest ← records files
    return bin ++ rest

def buildFileListPdu (fileList : List LocalFile) : Option Bytes :=
  (records fileList).map fun data => putU32Le [] (UInt32.ofNat fileList.length) ++ data

/-! ### Reading -/

inductive ParseError
  | conversionFailure
  | invalidRequest (description : String)
  deriving DecidableEq, Repr

inductive FileType
  | file
  | directory
  | symlink
  deriving DecidableEq, Repr

def PERM_READ : UInt16 := 0o444
def PERM_RW : UInt16 := 0o644
def PERM_SELF_RO : UInt16 := 0o400
def PERM_RWX : UInt16 := 0o755

structure FileDescription where
  connId : Int32
  name : List Char
  kind : FileType
  atime : ℤ
  lastModified : ℤ
  lastMetadataChanged : ℤ
  creationTime : ℤ
  size : UInt64
  perm : UInt16
  deriving DecidableEq, Repr

/-- `trim_end_matches('\0')`. -/
def trimEndNul (s : List Char) : List Char := (s.reverse.dropWhile (· = '\x00')).reverse

/-- The name with `\\` replaced by `/`. -/
def slashed (s : List Char) : List Char := s.map fun c => if c = '\\' then '/' else c

def parseFileDescriptor (connId : Int32) (bytes : Bytes) :
    Option (Except ParseError FileDescription × Bytes) := do
  let (flags, bytes) ← getU32Le bytes
  let bytes ← advance 32 bytes
  let (attributes, bytes) ← getU32Le bytes
  let bytes ← advance 12 bytes
  let (mode, bytes) ← getU32Le bytes
  let (lastWriteTime, bytes) ← getU64Le bytes
  let (fileSizeHigh, bytes) ← getU32Le bytes
  let (fileSizeLow, bytes) ← getU32Le bytes
  let rest ← advance 520 bytes
  match fromUtf16Le (bytes.take 520) with
  | none => return (.error .conversionFailure, rest)
  | some wstr =>
    if flags &&& FLAGS_FD_ATTRIBUTES = 0 then
      return (.error (.invalidRequest "file description must have valid attributes"), rest)
    else
      let directory := attributes &&& 0x10 ≠ 0
      let perm :=
        if flags &&& FLAGS_FD_UNIX_MODE ≠ 0 then mode.toUInt16
        else if attributes = 0x80 then PERM_RWX
        else if attributes &&& 0x01 ≠ 0 then PERM_READ
        else if attributes &&& 0x02 ≠ 0 then PERM_SELF_RO
        else if directory then PERM_RWX
        else PERM_RW
      let lastModified : ℤ :=
        if flags &&& FLAGS_FD_LAST_WRITE ≠ 0 ∧ LDAP_EPOCH_DELTA ≤ lastWriteTime then
          ((lastWriteTime - LDAP_EPOCH_DELTA) * 100).toNat
        else 0
      return (.ok {
        connId := connId
        name := trimEndNul (slashed wstr)
        kind := if directory then .directory else .file
        atime := lastModified
        lastModified := lastModified
        lastMetadataChanged := lastModified
        creationTime := lastModified
        size := (fileSizeHigh.toUInt64 <<< 32) + fileSizeLow.toUInt64
        perm := perm }, rest)

/-- `count` descriptors, up to the first error. -/
def parseDescriptors (connId : Int32) :
    ℕ → Bytes → Option (Except ParseError (List FileDescription))
  | 0, _ => some (.ok [])
  | count + 1, data => do
    let (desc, data) ← parseFileDescriptor connId data
    match desc with
    | .error e => return .error e
    | .ok desc => return (← parseDescriptors connId count data).map (desc :: ·)

def parseFileDescriptors (pdu : Bytes) (connId : Int32) :
    Option (Except ParseError (List FileDescription)) :=
  if pdu.length < 4 then
    some (.error (.invalidRequest "file descriptor request with infficient length"))
  else do
    let (count, data) ← getU32Le pdu
    let count := count.toNat
    if data.length = 0 ∧ count = 0 then return .ok []
    else if data.length ≠ 592 * count then
      return .error (.invalidRequest "file descriptor request with invalid length")
    else parseDescriptors connId count data

/-! ### What the peer is told -/

/-- The modification time the peer computes: that of the file, from 1970 on, cut to 100 ns. -/
def LocalFile.modified (f : LocalFile) : ℤ := (f.lastWriteTime.toNat % 2 ^ 64 / 100 * 100 : ℕ)

def LocalFile.received (connId : Int32) (f : LocalFile) : FileDescription where
  connId := connId
  name := trimEndNul (slashed f.pathText)
  kind := if f.isDir then .directory else .file
  atime := f.modified
  lastModified := f.modified
  lastMetadataChanged := f.modified
  creationTime := f.modified
  size := f.size
  perm := f.perm.toUInt16

def LocalFile.Fits (f : LocalFile) : Prop := (encode f.pathText).length ≤ 260

instance (f : LocalFile) : Decidable f.Fits := inferInstanceAs (Decidable (_ ≤ _))

/-! ### The fields -/

theorem directory_flag (f : LocalFile) : f.fileAttributes &&& 0x10 ≠ 0 ↔ f.isDir = true := by
  unfold LocalFile.fileAttributes
  generalize f.isDir = isDir, f.readOnly = readOnly, f.hidden = hidden, f.system = system,
    f.archive = archive, f.normal = normal
  revert isDir readOnly hidden system archive normal
  decide

theorem size_halves (v : UInt64) :
    ((v >>> 32).toUInt32.toUInt64 <<< 32) + (v &&& 0xFFFFFFFF).toUInt32.toUInt64 = v := by
  have hv : v.toNat < 2 ^ 64 := v.toNat_lt
  have hhigh : (v >>> 32).toNat = v.toNat / 2 ^ 32 := by
    rw [UInt64.toNat_shiftRight, Nat.shiftRight_eq_div_pow]
    rfl
  have hlow : (v &&& 0xFFFFFFFF).toNat = v.toNat % 2 ^ 32 := by
    rw [UInt64.toNat_and]
    exact and_mask v.toNat 32
  rw [← UInt64.toNat_inj, UInt64.toNat_add, UInt64.toNat_shiftLeft, UInt32.toNat_toUInt64,
    UInt32.toNat_toUInt64, UInt64.toNat_toUInt32, UInt64.toNat_toUInt32, hhigh, hlow,
    Nat.shiftLeft_eq]
  have h32 : (32 : UInt64).toNat % 64 = 32 := rfl
  rw [h32]
  omega

theorem modified_eq (f : LocalFile) :
    LDAP_EPOCH_DELTA ≤ f.win32Time ∧
      (((f.win32Time - LDAP_EPOCH_DELTA) * 100).toNat : ℤ) = f.modified := by
  unfold LocalFile.win32Time LocalFile.modified
  generalize f.lastWriteTime.toNat = n
  have hdelta : LDAP_EPOCH_DELTA.toNat = 116444772610000000 := rfl
  have hquot : (UInt64.ofNat n / 100).toNat = n % 2 ^ 64 / 100 := by
    rw [UInt64.toNat_div, UInt64.toNat_ofNat']
    rfl
  have hsum : (UInt64.ofNat n / 100 + LDAP_EPOCH_DELTA).toNat =
      n % 2 ^ 64 / 100 + 116444772610000000 := by
    rw [UInt64.toNat_add, hquot, hdelta]
    omega
  have hle : LDAP_EPOCH_DELTA ≤ UInt64.ofNat n / 100 + LDAP_EPOCH_DELTA := by
    rw [UInt64.le_iff_toNat_le, hsum, hdelta]
    omega
  refine ⟨hle, ?_⟩
  rw [UInt64.toNat_mul, UInt64.toNat_sub_of_le _ _ hle, hsum, hdelta]
  have h100 : (100 : UInt64).toNat = 100 := rfl
  rw [h100]
  omega

theorem trimEndNul_append (s : List Char) (n : ℕ) :
    trimEndNul (s ++ List.replicate n '\x00') = trimEndNul s := by
  unfold trimEndNul
  rw [List.reverse_append, List.reverse_replicate]
  induction n with
  | zero => rfl
  | succ n ih => exact ih

theorem slashed_append (s t : List Char) : slashed (s ++ t) = slashed s ++ slashed t :=
  List.map_append

theorem block_eq (f : LocalFile) :
    toUtf16Le f.pathText ++ List.replicate (520 - (toUtf16Le f.pathText).length) 0 =
      toUtf16Le (f.pathText ++ List.replicate (260 - (encode f.pathText).length) '\x00') := by
  have hlen : 520 - (toUtf16Le f.pathText).length = 2 * (260 - (encode f.pathText).length) := by
    rw [length_toUtf16Le]
    omega
  rw [hlen, toUtf16Le_append, toUtf16Le_replicate]

theorem isSome_asBin_iff (f : LocalFile) : f.asBin.isSome ↔ f.Fits := by
  unfold LocalFile.asBin LocalFile.Fits
  dsimp only
  rw [length_toUtf16Le]
  split
  · next h => exact ⟨fun _ => by omega, fun _ => rfl⟩
  · next h => exact ⟨fun hsome => (Bool.false_ne_true hsome).elim, fun hle => by omega⟩

/-! ### The round trip -/

def fdFlags : UInt32 :=
  FLAGS_FD_SIZE ||| FLAGS_FD_LAST_WRITE ||| FLAGS_FD_ATTRIBUTES ||| FLAGS_FD_PROGRESSUI |||
    FLAGS_FD_UNIX_MODE

def LocalFile.paddedName (f : LocalFile) : List Char :=
  f.pathText ++ List.replicate (260 - (encode f.pathText).length) '\x00'

variable {f : LocalFile}

theorem LocalFile.length_paddedName (hfits : f.Fits) : (toUtf16Le f.paddedName).length = 520 := by
  unfold Fits at hfits
  unfold paddedName
  rw [toUtf16Le_append, toUtf16Le_replicate, List.length_append, length_toUtf16Le,
    List.length_replicate]
  omega

theorem asBin_eq (hfits : f.Fits) :
    f.asBin = some (putU32Le [] fdFlags ++ (List.replicate 32 (0 : UInt8) ++
      (putU32Le [] f.fileAttributes ++ (List.replicate 12 (0 : UInt8) ++ (putU32Le [] f.perm ++
      (u64LeBytes f.win32Time ++ (putU32Le [] (f.size >>> 32).toUInt32 ++
      (putU32Le [] (f.size &&& 0xFFFFFFFF).toUInt32 ++ toUtf16Le f.paddedName)))))))) := by
  have hle : (toUtf16Le f.pathText).length ≤ 520 := by
    rw [length_toUtf16Le]
    unfold LocalFile.Fits at hfits
    omega
  have hput (buf : Bytes) (v : UInt32) : putU32Le buf v = buf ++ putU32Le [] v := rfl
  unfold LocalFile.asBin
  rw [if_pos hle, List.append_assoc, block_eq, hput (putU32Le _ _), hput (putU64Le _ _), putU64Le,
    hput (_ ++ List.replicate 12 0), hput (_ ++ List.replicate 32 0)]
  rfl

theorem length_asBin {bin : Bytes} (h : f.asBin = some bin) : bin.length = 592 := by
  have hfits : f.Fits := (isSome_asBin_iff f).mp (by rw [h]; rfl)
  have hput (v : UInt32) : (putU32Le [] v).length = 4 := rfl
  have hput64 (v : UInt64) : (u64LeBytes v).length = 8 := length_leBytes 8 _
  rw [asBin_eq hfits] at h
  obtain rfl := Option.some.inj h
  simp only [List.length_append, hput, hput64, List.length_replicate, f.length_paddedName hfits]

variable (connId : Int32)

theorem parse_asBin {bin : Bytes} (h : f.asBin = some bin) (rest : Bytes) : parseFileDescriptor
    connId (bin ++ rest) = some (.ok (f.received connId), rest) := by
  have hfits : f.Fits := (isSome_asBin_iff f).mp (by rw [h]; rfl)
  have hblock := f.length_paddedName hfits
  have hskip (n : ℕ) (bs : Bytes) : advance n (List.replicate n 0 ++ bs) = some bs :=
    advance_append List.length_replicate bs
  rw [asBin_eq hfits] at h
  obtain rfl := Option.some.inj h
  -- the fields come off the front one by one
  unfold parseFileDescriptor
  simp only [List.append_assoc, getU32Le_append, getU64Le_append, hskip, advance_append hblock,
    Option.bind_eq_bind, Option.bind_some, List.take_left' hblock, fromUtf16Le_toUtf16Le]
  have hattributes : ¬ fdFlags &&& FLAGS_FD_ATTRIBUTES = 0 := by decide
  have hunix : fdFlags &&& FLAGS_FD_UNIX_MODE ≠ 0 := by decide
  have hwrite : fdFlags &&& FLAGS_FD_LAST_WRITE ≠ 0 := by decide
  obtain ⟨hepoch, htime⟩ := modified_eq f
  rw [if_neg hattributes]
  simp only [if_pos hunix, if_pos (And.intro hwrite hepoch), htime, size_halves, directory_flag]
  have hname : trimEndNul (slashed f.paddedName) = trimEndNul (slashed f.pathText) := by
    have hnul : slashed (List.replicate (260 - (encode f.pathText).length) '\x00') =
        List.replicate (260 - (encode f.pathText).length) '\x00' := by
      unfold slashed
      rw [List.map_replicate]
      rfl
    unfold LocalFile.paddedName
    rw [slashed_append, hnul, trimEndNul_append]
  rw [hname]
  rfl

theorem parseDescriptors_records {files : List LocalFile} {data : Bytes}
    (h : records files = some data) : parseDescriptors connId files.length data = some
    (.ok (files.map (LocalFile.received connId))) ∧ data.length = 592 * files.length := by
  induction files generalizing data with
  | nil =>
    obtain rfl := Option.some.inj h
    exact ⟨rfl, rfl⟩
  | cons f files ih =>
    obtain ⟨bin, hbin, h⟩ := Option.bind_eq_some_iff.mp h
    obtain ⟨tail, htail, h⟩ := Option.bind_eq_some_iff.mp h
    obtain rfl := Option.some.inj h
    obtain ⟨hparse, hlen⟩ := ih htail
    constructor
    · rw [List.length_cons, parseDescriptors, parse_asBin connId hbin tail]
      simp only [Option.bind_eq_bind, Option.bind_some, hparse]
      rfl
    · rw [List.length_append, length_asBin hbin, hlen, List.length_cons]
      ring

theorem records_isSome {files : List LocalFile} (h : ∀ f ∈ files, f.Fits) :
    ∃ data, records files = some data := by
  induction files with
  | nil => exact ⟨[], rfl⟩
  | cons f files ih =>
    obtain ⟨hf, hfiles⟩ := List.forall_mem_cons.mp h
    obtain ⟨tail, htail⟩ := ih hfiles
    unfold records
    rw [asBin_eq hf, htail]
    exact ⟨_, rfl⟩

theorem received_name {s : List Char} (hs : f.relative = asBytes s)
    (hslash : '\\' ∉ s) (hnul : '\x00' ∉ s) : (f.received connId).name = s := by
  have htext : f.pathText = s := by
    unfold LocalFile.pathText
    rw [hs, fromUtf8Lossy_asBytes]
  have hslashed : slashed s = s := by
    refine (List.map_congr_left fun c hc => ?_).trans (List.map_id s)
    have hne : ¬ c = '\\' := by
      intro h
      exact hslash (h ▸ hc)
    exact if_neg hne
  show trimEndNul (slashed f.pathText) = s
  rw [htext, hslashed]
  unfold trimEndNul
  cases hrev : s.reverse with
  | nil => exact (List.reverse_eq_nil_iff.mp hrev).symm
  | cons c cs =>
    have hc : ¬ c = '\x00' := by
      intro h
      have hmem : c ∈ s.reverse := hrev ▸ List.mem_cons_self
      exact hnul (h ▸ List.mem_reverse.mp hmem)
    rw [List.dropWhile_cons_of_neg (by simpa using hc), ← hrev, List.reverse_reverse]

/-- **What was copied is what is pasted.** Names that fit their blocks are read back in their order,
with kind, size, mode and time, and as they are unless a backslash is in them. -/
theorem parse_buildFileListPdu (connId : Int32) {files : List LocalFile}
    (hcount : files.length < 2 ^ 32) (hnames : ∀ f ∈ files, (encode f.pathText).length ≤ 260) :
    (∃ pdu, buildFileListPdu files = some pdu ∧
      parseFileDescriptors pdu connId = some (.ok (files.map (LocalFile.received connId)))) ∧
    ∀ f ∈ files, ∀ s, f.relative = asBytes s → '\\' ∉ s → '\x00' ∉ s →
      (f.received connId).name = s := by
  refine ⟨?_, fun f _ s => received_name connId⟩
  obtain ⟨data, hdata⟩ := records_isSome hnames
  obtain ⟨hparse, hlen⟩ := parseDescriptors_records connId hdata
  refine ⟨putU32Le [] (UInt32.ofNat files.length) ++ data, ?_, ?_⟩
  · unfold buildFileListPdu
    rw [hdata, Option.map_some]
  · have hshort : ¬ (putU32Le [] (UInt32.ofNat files.length) ++ data).length < 4 := by
      rw [List.length_append]
      exact Nat.not_lt.mpr (Nat.le_add_right 4 _)
    have hcount' : (UInt32.ofNat files.length).toNat = files.length :=
      UInt32.toNat_ofNat_of_lt' hcount
    unfold parseFileDescriptors
    rw [if_neg hshort, getU32Le_append]
    simp only [Option.bind_eq_bind, Option.bind_some, hcount']
    split
    · next hempty =>
      obtain rfl := List.length_eq_zero_iff.mp hempty.2
      rfl
    · rw [if_neg (not_not.mpr hlen), hparse]

/-- A file of three bytes, written half a second after 1970 began. -/
def plainFile (relative : Bytes) : LocalFile where
  relative := relative
  size := 3
  lastWriteTime := 500000050
  isDir := false
  perm := 0o100644
  readOnly := false
  hidden := false
  system := false
  archive := false
  normal := true

theorem parse_buildFileListPdu_plain :
    (∃ pdu, buildFileListPdu [plainFile (asBytes ['a'])] = some pdu ∧
      parseFileDescriptors pdu 7 = some (.ok [(plainFile (asBytes ['a'])).received 7])) ∧
    (plainFile (asBytes ['a'])).received 7 =
      ⟨7, ['a'], .file, 500000000, 500000000, 500000000, 500000000, 3, 0o100644⟩ :=
  ⟨(parse_buildFileListPdu 7 (by decide) (by decide)).1,
    by decide⟩

/-- A path with a backslash arrives as another, and one of 261 characters ends the thread. -/
theorem parse_buildFileListPdu_fails :
    ((buildFileListPdu [plainFile (asBytes ['a', '\\', 'b'])]).bind
        fun pdu => parseFileDescriptors pdu 7).map (fun r => r.toOption.map (·.map (·.name))) =
      some (some [['a', '/', 'b']]) ∧
    buildFileListPdu [plainFile (asBytes (List.replicate 261 'a'))] = none := by
  constructor
  · decide +kernel
  · have hnone : ¬ (plainFile (asBytes (List.replicate 261 'a'))).asBin.isSome := by
      rw [isSome_asBin_iff]
      unfold LocalFile.Fits LocalFile.pathText plainFile
      rw [fromUtf8Lossy_asBytes]
      decide +kernel
    unfold buildFileListPdu records
    rw [Option.not_isSome_iff_eq_none.mp hnone]
    rfl

end LibRustdesk.Clipboard.Descriptor
