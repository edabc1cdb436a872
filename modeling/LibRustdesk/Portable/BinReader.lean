import LibRustdesk.Ohos.Utf8

/-!
# The portable package

`libs/portable/generate.py` writes the files of a package into one binary, and
`libs/portable/src/bin_reader.rs` reads them back when the package is started. A file is its path
and its compressed content, each behind its length, and an MD5 code; the identifier `rustdesk` is
before the first file and behind the last one, where a file would begin with the length of its
path.

* `writePackageMetadata` — the packer; a length that does not fit into four bytes is an error.
* `BinaryReader.read` — the reader; `none` is the panic of an index out of range or of an invalid
  package.

**The round trip** is `read_writePackageMetadata`. The loop of the reader stands at the beginning of
a file each time it looks for the identifier, and takes no file for it as long as no path has the
length that `rust` is (`isEnd_length`).
-/

namespace LibRustdesk.Portable

open LittleEndian Ohos

structure BinaryData where
  md5Code : Bytes
  /-- Compressed. -/
  raw : Bytes
  path : List Char
  deriving DecidableEq

/-- `LENGTH`. -/
def lengthCount : ℕ := 4

def identifierLength : ℕ := 8

def md5Length : ℕ := 32

def identifier : List Char := "rustdesk".toList

/-! ### The packer -/

/-- `int.to_bytes(length=length_count, byteorder='big')`. -/
def toBytes (n : ℕ) : Option Bytes :=
  if n < 256 ^ lengthCount then some (leBytes lengthCount n).reverse else none

def writeEntry (file : BinaryData) : Option Bytes := do
  let path := asBytes file.path
  let pathLength ← toBytes path.length
  let dataLength ← toBytes file.raw.length
  return pathLength ++ path ++ dataLength ++ file.raw ++ file.md5Code

def writeEntries : List BinaryData → Option Bytes
  | [] => some []
  | file :: table => do
    let entry ← writeEntry file
    let entries ← writeEntries table
    return entry ++ entries

def writePackageMetadata (table : List BinaryData) (exe : List Char) : Option Bytes := do
  let entries ← writeEntries table
  return asBytes identifier ++ entries ++ asBytes identifier ++ asBytes exe

/-! ### The reader -/

/-- `&BIN_DATA[start..stop]`. -/
def slice (binData : Bytes) (start stop : ℕ) : Option Bytes :=
  if start ≤ stop ∧ stop ≤ binData.length then some ((binData.drop start).take (stop - start))
  else none

/-- `u32::from_be_bytes`, of the four bytes at an index. -/
def fromBeBytes (binData : Bytes) (start : ℕ) : Option ℕ :=
  (slice binData start (start + lengthCount)).map fun bytes => assemble bytes.reverse

def isEnd (binData : Bytes) (base : ℕ) : Option Bool :=
  (slice binData base (base + identifierLength)).map fun iden => fromUtf8Lossy iden == identifier

def readEntry (binData : Bytes) (base : ℕ) : Option (BinaryData × ℕ) := do
  let offset := base
  let pathLength ← fromBeBytes binData offset
  let offset := offset + lengthCount
  let path ← slice binData offset (offset + pathLength)
  let offset := offset + pathLength
  let fileLength ← fromBeBytes binData offset
  let offset := offset + lengthCount
  let raw ← slice binData offset (offset + fileLength)
  let offset := offset + fileLength
  let md5 ← slice binData offset (offset + md5Length)
  let offset := offset + md5Length
  return (⟨md5, raw, fromUtf8Lossy path⟩, offset)

/-- The loop, with fuel: every turn but the last moves on by a file. -/
def readLoop (binData : Bytes) : ℕ → ℕ → List BinaryData → Option (List BinaryData × ℕ)
  | 0, _, _ => none
  | fuel + 1, base, parsed => do
    if ← isEnd binData base then
      return (parsed, base + identifierLength)
    else
      let (file, base) ← readEntry binData base
      readLoop binData fuel base (parsed ++ [file])

namespace BinaryReader

def read (binData : Bytes) : Option (List BinaryData × List Char) := do
  if binData.length > identifierLength then
    if ← isEnd binData 0 then
      let (parsed, base) ← readLoop binData (binData.length + 1) identifierLength []
      let executable ← slice binData base binData.length
      return (parsed, fromUtf8Lossy executable)
    else none
  else none

end BinaryReader

/-! ### Lengths and slices -/

theorem toBytes_spec {n : ℕ} (h : n < 2 ^ 32) : ∃ bytes, toBytes n = some bytes ∧
    bytes.length = lengthCount ∧ assemble bytes.reverse = n := by
  have hlt : n < 256 ^ lengthCount := h
  refine ⟨(leBytes lengthCount n).reverse, if_pos hlt, ?_, ?_⟩
  · rw [List.length_reverse, length_leBytes]
  · rw [List.reverse_reverse, assemble_leBytes, Nat.mod_eq_of_lt hlt]

theorem slice_append (before bytes after : Bytes) {i j : ℕ} (hi : i = before.length)
    (hj : j = i + bytes.length) : slice (before ++ (bytes ++ after)) i j = some bytes := by
  subst hi hj
  unfold slice
  rw [if_pos, List.drop_left, Nat.add_sub_cancel_left, List.take_left]
  rw [List.length_append, List.length_append]
  omega

variable (before after : Bytes)

theorem fromBeBytes_append {bytes : Bytes} {i n : ℕ} (hi : i = before.length)
    (hlength : bytes.length = lengthCount) (hn : assemble bytes.reverse = n) : fromBeBytes
    (before ++ (bytes ++ after)) i = some n := by
  unfold fromBeBytes
  rw [slice_append before bytes after hi (by rw [hlength]), Option.map_some, hn]

/-! ### The identifier -/

theorem asBytes_identifier_length : (asBytes identifier).length = identifierLength := by
  decide +kernel

theorem isEnd_identifier {base : ℕ} (hbase : base = before.length) :
    isEnd (before ++ (asBytes identifier ++ after)) base = some true := by
  unfold isEnd
  rw [slice_append before _ after hbase (by rw [asBytes_identifier_length]), Option.map_some,
    fromUtf8Lossy_asBytes, beq_self_eq_true]

theorem isEnd_length {bytes : Bytes} {base n : ℕ} (hbase : base = before.length)
    (hlength : bytes.length = lengthCount) (hn : assemble bytes.reverse = n) (hne : n ≠ 0x72757374)
    (hafter : lengthCount ≤ after.length) :
    isEnd (before ++ (bytes ++ after)) base = some false := by
  have hsplit : bytes ++ after = (bytes ++ after.take lengthCount) ++ after.drop lengthCount := by
    rw [List.append_assoc, List.take_append_drop]
  have hiden : (bytes ++ after.take lengthCount).length = identifierLength := by
    rw [List.length_append, List.length_take, Nat.min_eq_left hafter, hlength]
    rfl
  unfold isEnd
  rw [hsplit, slice_append before _ _ hbase (by rw [hiden]), Option.map_some]
  congr 1
  rw [beq_eq_false_iff_ne]
  intro heq
  -- eight characters of eight bytes are these bytes
  have hbytes := eq_asBytes_of_length heq (by rw [hiden]; decide) (by decide)
  have hfirst : bytes = (asBytes identifier).take lengthCount := by
    rw [← hbytes, List.take_append_of_le_length (Nat.le_of_eq hlength.symm),
      List.take_of_length_le (Nat.le_of_eq hlength)]
  apply hne
  rw [← hn, hfirst]
  decide +kernel

/-! ### The round trip -/

/-- What the packer is given: lengths that fit, and MD5 codes in hexadecimal digits. -/
structure Packable (file : BinaryData) : Prop where
  path : (asBytes file.path).length < 0x72757374
  raw : file.raw.length < 2 ^ 32
  md5 : file.md5Code.length = md5Length

theorem readEntry_writeEntry {file : BinaryData} (h : Packable file) : ∃ entry,
    writeEntry file = some entry ∧ ∀ before after : Bytes, lengthCount ≤ after.length →
      isEnd (before ++ (entry ++ after)) before.length = some false ∧
        readEntry (before ++ (entry ++ after)) before.length =
          some (file, before.length + entry.length) := by
  obtain ⟨pathLength, hpath, hpathLength, hpathValue⟩ :=
    toBytes_spec (Nat.lt_trans h.path (by decide))
  obtain ⟨dataLength, hdata, hdataLength, hdataValue⟩ := toBytes_spec h.raw
  refine ⟨pathLength ++ asBytes file.path ++ dataLength ++ file.raw ++ file.md5Code, ?_, ?_⟩
  · unfold writeEntry
    dsimp only
    rw [hpath, hdata]
    rfl
  · intro before after hafter
    have hassoc : before ++ (pathLength ++ asBytes file.path ++ dataLength ++ file.raw ++
        file.md5Code ++ after) = before ++ (pathLength ++ (asBytes file.path ++ (dataLength ++
          (file.raw ++ (file.md5Code ++ after))))) := by
      simp only [List.append_assoc]
    rw [hassoc]
    constructor
    · refine isEnd_length before _ rfl hpathLength hpathValue (Nat.ne_of_lt h.path) ?_
      simp only [List.length_append, h.md5]
      omega
    · -- each field begins where the one before it ends
      have hread₁ := fromBeBytes_append before (asBytes file.path ++ (dataLength ++ (file.raw ++
        (file.md5Code ++ after)))) rfl hpathLength hpathValue
      have hread₂ := slice_append (before ++ pathLength) (asBytes file.path) (dataLength ++
        (file.raw ++ (file.md5Code ++ after))) (i := before.length + lengthCount)
        (by rw [List.length_append, hpathLength]) rfl
      have hread₃ := fromBeBytes_append (before ++ pathLength ++ asBytes file.path)
        (file.raw ++ (file.md5Code ++ after))
        (i := before.length + lengthCount + (asBytes file.path).length)
        (by simp only [List.length_append, hpathLength]) hdataLength hdataValue
      have hread₄ := slice_append (before ++ pathLength ++ asBytes file.path ++ dataLength) file.raw
        (file.md5Code ++ after)
        (i := before.length + lengthCount + (asBytes file.path).length + lengthCount)
        (by simp only [List.length_append, hpathLength, hdataLength]) rfl
      have hread₅ := slice_append (before ++ pathLength ++ asBytes file.path ++ dataLength ++
        file.raw) file.md5Code after
        (i := before.length + lengthCount + (asBytes file.path).length + lengthCount +
          file.raw.length)
        (by simp only [List.length_append, hpathLength, hdataLength]) rfl
      simp only [List.append_assoc] at hread₂ hread₃ hread₄ hread₅
      rw [h.md5] at hread₅
      unfold readEntry
      simp only [hread₁, hread₂, hread₃, hread₄, hread₅, Option.bind_eq_bind, Option.bind_some,
        fromUtf8Lossy_asBytes]
      simp only [List.length_append, hpathLength, hdataLength, h.md5]
      congr 2
      omega

theorem readLoop_writeEntries {table : List BinaryData} (h : ∀ file ∈ table, Packable file) :
    ∃ entries, writeEntries table = some entries ∧ table.length ≤ entries.length ∧
      ∀ (before exe : Bytes) (fuel : ℕ) (parsed : List BinaryData), table.length < fuel →
        readLoop (before ++ (entries ++ (asBytes identifier ++ exe))) fuel before.length parsed =
          some (parsed ++ table, before.length + entries.length + identifierLength) := by
  induction table with
  | nil =>
    refine ⟨[], rfl, Nat.le_refl _, ?_⟩
    intro before exe fuel parsed hfuel
    obtain ⟨fuel, rfl⟩ := Nat.exists_eq_succ_of_ne_zero (Nat.ne_of_gt hfuel)
    unfold readLoop
    rw [List.nil_append, isEnd_identifier before exe rfl, List.append_nil]
    rfl
  | cons file table ih =>
    obtain ⟨hfile, htable⟩ := List.forall_mem_cons.mp h
    obtain ⟨entry, hwrite, hread⟩ := readEntry_writeEntry hfile
    obtain ⟨entries, hentries, hlength, hloop⟩ := ih htable
    have hsome : 0 < entry.length := by
      -- an empty entry could not be read from the end
      have hspec := hread [] (List.replicate lengthCount 0) (Nat.le_refl _)
      by_contra hzero
      obtain rfl : entry = [] := List.length_eq_zero_iff.mp (Nat.eq_zero_of_not_pos hzero)
      have hend := hspec.1
      revert hend
      decide +kernel
    refine ⟨entry ++ entries, ?_, ?_, ?_⟩
    · rw [writeEntries, hwrite, hentries]
      rfl
    · rw [List.length_append, List.length_cons]
      omega
    · intro before exe fuel parsed hfuel
      obtain ⟨fuel, rfl⟩ := Nat.exists_eq_succ_of_ne_zero (Nat.ne_of_gt (Nat.zero_lt_of_lt hfuel))
      have hafter : lengthCount ≤ (entries ++ (asBytes identifier ++ exe)).length := by
        simp only [List.length_append, asBytes_identifier_length]
        unfold lengthCount identifierLength
        omega
      obtain ⟨hend, hnext⟩ := hread before _ hafter
      have hrest := hloop (before ++ entry) exe fuel (parsed ++ [file])
        (Nat.lt_of_succ_lt_succ hfuel)
      rw [List.length_append, List.append_assoc, List.append_assoc] at hrest
      rw [List.append_assoc entry]
      unfold readLoop
      rw [hend, hnext]
      change readLoop _ fuel (before.length + entry.length) (parsed ++ [file]) = _
      rw [hrest, List.singleton_append, List.length_append, ← Nat.add_assoc]

/-- **The round trip.** What the packer writes is read as the table and the executable. -/
theorem read_writePackageMetadata (table : List BinaryData) (exe : List Char)
    (h : ∀ file ∈ table, Packable file) :
    (writePackageMetadata table exe).bind BinaryReader.read = some (table, exe) := by
  obtain ⟨entries, hentries, hlength, hloop⟩ := readLoop_writeEntries h
  have hwrite : writePackageMetadata table exe =
      some (asBytes identifier ++ (entries ++ (asBytes identifier ++ asBytes exe))) := by
    unfold writePackageMetadata
    rw [hentries, ← List.append_assoc, ← List.append_assoc]
    rfl
  generalize hall : asBytes identifier ++ (entries ++ (asBytes identifier ++ asBytes exe)) = all
    at hwrite
  have hlong : all.length =
      identifierLength + (entries.length + (identifierLength + (asBytes exe).length)) := by
    rw [← hall]
    simp only [List.length_append, asBytes_identifier_length]
  have hbegin : isEnd all 0 = some true := by
    rw [← hall]
    exact isEnd_identifier [] _ rfl
  have hrun : readLoop all (all.length + 1) identifierLength [] =
      some (table, identifierLength + entries.length + identifierLength) := by
    have hspec := hloop (asBytes identifier) (asBytes exe) (all.length + 1) [] (by omega)
    rw [asBytes_identifier_length, hall, List.nil_append] at hspec
    exact hspec
  have hexe : slice all (identifierLength + entries.length + identifierLength) all.length =
      some (asBytes exe) := by
    have hspec := slice_append (asBytes identifier ++ entries ++ asBytes identifier) (asBytes exe)
      [] (i := identifierLength + entries.length + identifierLength) (j := all.length)
      (by simp only [List.length_append, asBytes_identifier_length]) (by omega)
    simp only [List.append_assoc, List.append_nil] at hspec
    rw [← hall] at hspec ⊢
    exact hspec
  rw [hwrite, Option.bind_some]
  unfold BinaryReader.read
  rw [if_pos (by unfold identifierLength at hlong ⊢; omega), hbegin]
  change (readLoop all (all.length + 1) identifierLength []).bind _ = _
  rw [hrun, Option.bind_some]
  change (slice all (identifierLength + entries.length + identifierLength) all.length).bind _ = _
  rw [hexe]
  change some (table, fromUtf8Lossy (asBytes exe)) = _
  rw [fromUtf8Lossy_asBytes]

/-- A path that begins as the identifier goes on, with the identifier as its content. -/
def lookalike : BinaryData := ⟨List.replicate 32 0x72, asBytes identifier, "desk/rustdesk".toList⟩

theorem read_writePackageMetadata_lookalike :
    (∀ file ∈ [lookalike, lookalike], Packable file) ∧
      (writePackageMetadata [lookalike, lookalike] "./rustdesk.exe".toList).bind BinaryReader.read =
        some ([lookalike, lookalike], "./rustdesk.exe".toList) :=
  have h : ∀ file ∈ [lookalike, lookalike], Packable file := by
    intro file hfile
    obtain rfl : file = lookalike := by
      simpa using hfile
    exact ⟨by decide +kernel, by decide +kernel, by decide⟩
  ⟨h, read_writePackageMetadata _ _ h⟩

end LibRustdesk.Portable
