import LibRustdesk.FileTransfer.Read
import LibRustdesk.Framework.Json
import LibRustdesk.Ohos.Utf8

/-!
# The digest of a partial download

A receiving job puts the size and the time of a file beside its `.download` file, as JSON, and
`is_write_need_confirmation` of `fs.rs` reads them back when a transfer is resumed: the partial
download may be continued when the sender's file still has that size and time.

`readFileDigest` is `serde_json::from_str::<FileDigest>` on what `read_to_string` returns: an object
with the two fields, once each and in any order, among others that are ignored, or an array of the
two. `readFileDigest_digestJson` says that it reads what `write` stores.
-/

namespace LibRustdesk.FileTransfer

open LittleEndian

/-! ### Reading a digest -/

/-- A `u64`: digits alone, and not too many. -/
def jsonU64 : Json → Option UInt64
  | .num text =>
    if text.all Char.isDigit ∧ Nat.ofDigitChars 10 text 0 < 2 ^ 64 then
      some (UInt64.ofNat (Nat.ofDigitChars 10 text 0))
    else none
  | _ => none

def fileDigestOf : Json → Option FileDigest
  | .obj ms =>
    match ms.filter (fun m => m.1 = "size".toList),
          ms.filter (fun m => m.1 = "modified".toList) with
    | [(_, size)], [(_, modified)] => do
      let size ← jsonU64 size
      let modified ← jsonU64 modified
      some ⟨size, modified⟩
    | _, _ => none
  | .arr [size, modified] => do
    let size ← jsonU64 size
    let modified ← jsonU64 modified
    some ⟨size, modified⟩
  | _ => none

def readFileDigest (bytes : Bytes) : Option FileDigest := do
  let text ← Ohos.fromUtf8 bytes
  let value ← Json.parse text
  fileDigestOf value

/-! ### `is_write_need_confirmation` -/

inductive DigestCheckResult
  | isSame
  | needConfirm (digest : FileTransferDigest)
  | noSuchFile
  deriving DecidableEq, Repr

/-- The outcomes in `is_write_need_confirmation`. -/
structure CheckEnv where
  readDigest : Bool
  downloadMetadata : Bool
  metadata : Except String Unit

def CheckEnv.good : CheckEnv := ⟨true, true, .ok ()⟩

/-- The partial download of a file that the sender still has as it was: its size. -/
def resumableSize (env : CheckEnv) (path : Path) (digest : FileTransferDigest) (disk : Disk) :
    Option UInt64 :=
  match disk.content (pathKey (digestPath path)), disk.content (pathKey (downloadPath path)) with
  | some text, some part =>
    if env.readDigest then
      match readFileDigest text with
      | some localDigest =>
        let isIdentical :=
          localDigest.modified = digest.lastModified ∧ localDigest.size = digest.fileSize
        let transferredSize := UInt64.ofNat part.length
        if isIdentical ∧ env.downloadMetadata ∧ transferredSize > 0 then some transferredSize
        else none
      | none => none
    else none
  | _, _ => none

/-- What is said about a file that is there: its own time and size. -/
def existingDigest (env : CheckEnv) (path : Path) (digest : FileTransferDigest) (disk : Disk) :
    Except String DigestCheckResult :=
  match disk.dir (pathKey path) with
  | none => .ok .noSuchFile
  | some i =>
    match env.metadata with
    | .error e => .error e
    | .ok () =>
      let node := disk.node i
      if node.mtime < 0 then .error "second time provided was later than self"
      else
        let localMt := node.mtime.toUInt64
        let size := UInt64.ofNat node.data.length
        .ok (.needConfirm ⟨digest.id, digest.fileNum, localMt, size, false,
          digest.lastModified = localMt ∧ digest.fileSize = size, 0, false⟩)

def isWriteNeedConfirmation (env : CheckEnv) (isResume : Bool) (path : Path)
    (digest : FileTransferDigest) (disk : Disk) : Except String DigestCheckResult :=
  match if isResume then resumableSize env path digest disk else none with
  | some transferredSize =>
    .ok (.needConfirm ⟨digest.id, digest.fileNum, digest.lastModified, digest.fileSize, false, true,
      transferredSize, false⟩)
  | none => existingDigest env path digest disk

/-! ### What was written is read -/

theorem toList_byteArray (bs : ByteArray) : bs.toList = bs.data.toList := by
  have hloop (n i : ℕ) (r : List UInt8) (hn : bs.size - i ≤ n) :
      ByteArray.toList.loop bs i r = r.reverse ++ bs.data.toList.drop i := by
    induction n generalizing i r with
    | zero =>
      rw [ByteArray.toList.loop, if_neg (by omega),
        List.drop_eq_nil_of_le (by rw [Array.length_toList]; show bs.size ≤ i; omega),
        List.append_nil]
    | succ n ih =>
      rw [ByteArray.toList.loop]
      split
      · next hi =>
        have hlen : i < bs.data.toList.length := by
          rw [Array.length_toList]
          exact hi
        have hget : bs.get! i = bs.data.toList[i] := by
          rw [Array.getElem_toList]
          exact dif_pos hi
        rw [ih (i + 1) _ (by omega), List.reverse_cons, hget, List.append_assoc,
          List.singleton_append, List.getElem_cons_drop]
      · next hi =>
        rw [List.drop_eq_nil_of_le (by rw [Array.length_toList]; show bs.size ≤ i; omega),
          List.append_nil]
  exact hloop _ 0 [] (Nat.le_refl _)

theorem toUTF8_toList (s : String) : s.toUTF8.toList = Ohos.asBytes s.toList := by
  rw [toList_byteArray]
  conv_lhs => rw [← String.ofList_toList (s := s)]
  exact List.toList_data_toByteArray

section Text

open Json

/-- The text of a digest: its fields in the order of their names. -/
def digestText (d : FileDigest) : List Char :=
  '\x7b' :: ("\"modified\"".toList ++ ':' :: (Nat.toDigits 10 d.modified.toNat ++ ',' ::
    ("\"size\"".toList ++ ':' :: (Nat.toDigits 10 d.size.toNat ++ ['\x7d']))))

variable (d : FileDigest)

theorem digestJson_eq : TransferJob.digestJson d = Ohos.asBytes (digestText d) := by
  unfold TransferJob.digestJson digestText
  rw [toUTF8_toList]
  refine congrArg Ohos.asBytes ?_
  simp only [String.toList_append, toString, Nat.toList_repr, List.append_assoc]
  rfl

theorem plainKey_reads {key : List Char}
    (h : key.all fun c => 0x20 ≤ c.toNat && c != '"' && c != '\\') :
    Reads string ('"' :: (key ++ ['"'])) key := by
  have henc : ∀ c ∈ key, Reads stringChar [c] c := by
    intro c hc
    have hplain := List.all_eq_true.mp h c hc
    simp only [Bool.and_eq_true, decide_eq_true_eq, bne_iff_ne] at hplain
    exact stringChar_reads hplain.1.1 hplain.1.2 hplain.2
  have hread := string_reads henc
  rwa [List.flatMap_singleton'] at hread

theorem digestText_reads (n : ℕ) :
    Reads (value (n + 4)) (digestText d)
      (.obj [("modified".toList, .num (Nat.toDigits 10 d.modified.toNat)),
        ("size".toList, .num (Nat.toDigits 10 d.size.toNat))]) := by
  have hmodified : Reads string "\"modified\"".toList "modified".toList :=
    plainKey_reads (by decide : "modified".toList.all _ = true)
  have hsize : Reads string "\"size\"".toList "size".toList :=
    plainKey_reads (by decide : "size".toList.all _ = true)
  have hbrace : EndsNumber '\x7d' := by
    unfold EndsNumber
    decide
  have hcomma : EndsNumber ',' := by
    unfold EndsNumber
    decide
  have hlast := members_last hsize (value_toDigits d.size.toNat hbrace n)
  have hfirst := members_cons hmodified (value_toDigits d.modified.toNat hcomma (n + 1)) hlast
  exact value_obj hmodified hfirst

theorem jsonU64_toDigits (v : UInt64) : jsonU64 (.num (Nat.toDigits 10 v.toNat)) = some v := by
  have hdigits : (Nat.toDigits 10 v.toNat).all Char.isDigit = true :=
    List.all_eq_true.mpr fun c hc => Nat.isDigit_of_mem_toDigits (by omega) (by omega) hc
  unfold jsonU64
  dsimp only
  rw [Nat.ofDigitChars_ten_toDigits, if_pos ⟨hdigits, v.toNat_lt⟩, UInt64.ofNat_toNat]

theorem readFileDigest_digestJson : readFileDigest (TransferJob.digestJson d) = some d := by
  have hlen : ∃ n, (digestText d).length + 1 = n + 4 := ⟨(digestText d).length - 3, by
    unfold digestText
    simp only [List.length_cons, List.length_append]
    omega⟩
  obtain ⟨n, hn⟩ := hlen
  have hparse : Json.parse (digestText d) = _ := parse_reads (hn ▸ digestText_reads d n)
  have hsize : (([("modified".toList, Json.num (Nat.toDigits 10 d.modified.toNat)),
      ("size".toList, .num (Nat.toDigits 10 d.size.toNat))]).filter fun m => m.1 = "size".toList) =
        [("size".toList, .num (Nat.toDigits 10 d.size.toNat))] := rfl
  have hmodified : (([("modified".toList, Json.num (Nat.toDigits 10 d.modified.toNat)),
      ("size".toList, .num (Nat.toDigits 10 d.size.toNat))]).filter
        fun m => m.1 = "modified".toList) =
          [("modified".toList, .num (Nat.toDigits 10 d.modified.toNat))] := rfl
  unfold readFileDigest
  rw [digestJson_eq, Ohos.fromUtf8_asBytes]
  show (Json.parse (digestText d)).bind fileDigestOf = some d
  rw [hparse, Option.bind_some]
  unfold fileDigestOf
  dsimp only
  rw [hsize, hmodified]
  show ((jsonU64 _).bind fun size =>
    (jsonU64 _).bind fun modified => some (FileDigest.mk size modified)) = some d
  rw [jsonU64_toDigits, jsonU64_toDigits]
  rfl

end Text

end LibRustdesk.FileTransfer
