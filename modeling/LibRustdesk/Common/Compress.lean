import LibRustdesk.Framework.LittleEndian

/-!
# Compression

`libs/hbb_common/src/compress.rs`. The `zstd` crate is outside the repository, so a compressor is
a parameter (`Zstd`) whose calls may fail; both wrappers answer a failure with the empty vector.
`Zstd.Lawful` is its documented behaviour: a vector compresses, and decodes to itself.
-/

namespace LibRustdesk

open LittleEndian

/-- `zstd`: `Compressor::compress` and `decode_all`. -/
structure Zstd where
  compressor : Bytes → Option Bytes
  decodeAll : Bytes → Option Bytes

/-- Compression succeeds, and what it returns decodes to what it was given. -/
def Zstd.Lawful (z : Zstd) : Prop :=
  ∀ data, ∃ out, z.compressor data = some out ∧ z.decodeAll out = some data

/-- Where compression succeeds, the peer decodes its result to what it was given. -/
def Zstd.UndoneBy (z peer : Zstd) : Prop :=
  ∀ data out, z.compressor data = some out → peer.decodeAll out = some data

def compress (z : Zstd) (data : Bytes) : Bytes := (z.compressor data).getD []

def decompress (z : Zstd) (data : Bytes) : Bytes := (z.decodeAll data).getD []

def Zstd.storing : Zstd := ⟨some, some⟩

def Zstd.failing : Zstd := ⟨fun _ => none, some⟩

theorem Zstd.storing_lawful : Zstd.storing.Lawful := fun data => ⟨data, rfl, rfl⟩

theorem decompress_compress {z : Zstd} (hz : z.Lawful) (data : Bytes) :
    decompress z (compress z data) = data := by
  obtain ⟨out, hout, hdec⟩ := hz data
  unfold compress decompress
  rw [hout, Option.getD_some, hdec, Option.getD_some]

/-! ### What is sent -/

/-- A flag and the bytes: compressed where that is shorter. -/
def pack (z : Zstd) (data : Bytes) : Bool × Bytes :=
  if (compress z data).length < data.length then (true, compress z data) else (false, data)

def unpack (peer : Zstd) (compressed : Bool) (data : Bytes) : Bytes :=
  if compressed then decompress peer data else data

theorem unpack_pack {z peer : Zstd} (hundone : z.UndoneBy peer) (hnil : decompress peer [] = [])
    (data : Bytes) : unpack peer (pack z data).1 (pack z data).2 =
      if data = [] ∨ (z.compressor data).isSome then data else [] := by
  unfold pack compress
  cases hout : z.compressor data with
  | some out =>
    have hpacks : data = [] ∨ (some out).isSome = true := .inr rfl
    rw [Option.getD_some, if_pos hpacks]
    split
    · change decompress peer out = data
      unfold decompress
      rw [hundone data out hout, Option.getD_some]
    · rfl
  | none =>
    rw [Option.getD_none, List.length_nil]
    cases data with
    | nil => rfl
    | cons b data =>
      -- the failed call is taken for a compression to nothing
      have hpos : 0 < (b :: data).length := Nat.succ_pos _
      have hlost : ¬(b :: data = [] ∨ (none : Option Bytes).isSome = true) := by simp
      rw [if_pos hpos, if_neg hlost]
      exact hnil

theorem unpack_pack_iff {z peer : Zstd} (hundone : z.UndoneBy peer)
    (hnil : decompress peer [] = []) (data : Bytes) :
    unpack peer (pack z data).1 (pack z data).2 = data ↔
      data = [] ∨ (z.compressor data).isSome = true := by
  rw [unpack_pack hundone hnil]
  split
  · next hpacks => exact iff_of_true rfl hpacks
  · next hlost => exact iff_of_false (fun h => hlost (.inl h.symm)) hlost

end LibRustdesk
