import LibRustdesk.Framework.LittleEndian

/-!
# The length-prefixed frame codec

`BytesCodec` of `libs/hbb_common/src/bytes_codec.rs`. A frame is a header of one to four bytes
followed by the payload. The two low bits of the first header byte are the header's width less
one, and the header, read little-endian and shifted right by two, is the payload length.

The decoder may stop in the middle of a header (`DecodeState.Head`) or of a payload
(`DecodeState.Data n`) and resumes when more bytes arrive. `Pending` says what it holds at such a
stop: the buffered bytes continued by the bytes still to come are the encoding of the payloads
still to be delivered. `decode_pending` is the one-call step of that invariant,
`decodeAll_pending` its closure under repeated calls, and `feed_encodeAll` the round trip over
every way of cutting the stream into chunks.

The capacity hint `src.reserve` of `decode_head` has no effect on the bytes and is left out.
-/

namespace LibRustdesk

open LittleEndian

/-- The two `std::io::ErrorKind`s the codec raises. -/
inductive IoErrorKind
  | InvalidData
  | InvalidInput
  deriving DecidableEq, Repr

/-- `std::io::Error::new(kind, text)`. -/
structure IoError where
  kind : IoErrorKind
  text : String
  deriving DecidableEq, Repr

inductive DecodeState
  | Head
  | Data (n : ℕ)
  deriving DecidableEq, Repr

structure BytesCodec where
  state : DecodeState
  raw : Bool
  maxPacketLength : ℕ
  deriving DecidableEq, Repr

namespace BytesCodec

/-- `usize::MAX` on a 64-bit target. -/
def usizeMax : ℕ := 2 ^ 64 - 1

def new : BytesCodec where
  state := .Head
  raw := false
  maxPacketLength := usizeMax

def setRaw (c : BytesCodec) : BytesCodec := { c with raw := true }

def setMaxPacketLength (c : BytesCodec) (n : ℕ) : BytesCodec := { c with maxPacketLength := n }

/-- The header word, assembled from its first `headLen` bytes. -/
def headWord (headLen : ℕ) (src : Bytes) : ℕ :=
  let n := (src.getD 0 0).toNat
  let n := if headLen > 1 then n ||| ((src.getD 1 0).toNat <<< 8) else n
  let n := if headLen > 2 then n ||| ((src.getD 2 0).toNat <<< 16) else n
  if headLen > 3 then n ||| ((src.getD 3 0).toNat <<< 24) else n

/-- Returns the payload length, if the header is complete, and the buffer past the header. -/
def decodeHead (c : BytesCodec) (src : Bytes) : Except IoError (Option ℕ × Bytes) :=
  match src with
  | [] => .ok (none, src)
  | b0 :: _ =>
    let headLen := ((b0 &&& 0x3) + 1).toNat
    if src.length < headLen then .ok (none, src)
    else
      let n := headWord headLen src >>> 2
      if n > c.maxPacketLength then .error ⟨.InvalidData, "Too big packet"⟩
      else .ok (some n, src.drop headLen)

/-- Returns the payload, if it is complete, and the buffer past it. -/
def decodeData (n : ℕ) (src : Bytes) : Option Bytes × Bytes :=
  if src.length < n then (none, src) else (some (src.take n), src.drop n)

/-- The tail of `Decoder::decode`, once the payload length `n` is known. -/
def decodeBody (c : BytesCodec) (n : ℕ) (src : Bytes) : Option Bytes × BytesCodec × Bytes :=
  match decodeData n src with
  | (some data, src) => (some data, { c with state := .Head }, src)
  | (none, src) => (none, { c with state := .Data n }, src)

/-- `Decoder::decode`: a frame if one is complete, the codec and the buffer after the call. An
error leaves codec and buffer as they were. -/
def decode (c : BytesCodec) (src : Bytes) : Except IoError (Option Bytes × BytesCodec × Bytes) :=
  if c.raw then
    if src ≠ [] then .ok (some src, c, []) else .ok (none, c, src)
  else
    match c.state with
    | .Head =>
      match c.decodeHead src with
      | .error err => .error err
      | .ok (none, src) => .ok (none, c, src)
      | .ok (some n, src) => .ok (c.decodeBody n src)
    | .Data n => .ok (c.decodeBody n src)

/-- `Encoder::encode`: the buffer with the frame appended. -/
def encode (c : BytesCodec) (data buf : Bytes) : Except IoError Bytes :=
  if c.raw then .ok (buf ++ data)
  else if data.length ≤ 0x3F then
    .ok (putU8 buf (data.length <<< 2).toUInt8 ++ data)
  else if data.length ≤ 0x3FFF then
    .ok (putU16Le buf ((data.length <<< 2).toUInt16 ||| 0x1) ++ data)
  else if data.length ≤ 0x3FFFFF then
    let h := (data.length <<< 2).toUInt32 ||| 0x2
    .ok (putU8 (putU16Le buf (h &&& 0xFFFF).toUInt16) (h >>> 16).toUInt8 ++ data)
  else if data.length ≤ 0x3FFFFFFF then
    .ok (putU32Le buf ((data.length <<< 2).toUInt32 ||| 0x3) ++ data)
  else .error ⟨.InvalidInput, "Overflow"⟩

/-! ### The header -/

/-- The header `encode` puts before a payload of `n` bytes. -/
def head (n : ℕ) : Bytes :=
  if n ≤ 0x3F then putU8 [] (n <<< 2).toUInt8
  else if n ≤ 0x3FFF then putU16Le [] ((n <<< 2).toUInt16 ||| 0x1)
  else if n ≤ 0x3FFFFF then
    let h := (n <<< 2).toUInt32 ||| 0x2
    putU8 (putU16Le [] (h &&& 0xFFFF).toUInt16) (h >>> 16).toUInt8
  else putU32Le [] ((n <<< 2).toUInt32 ||| 0x3)

def maxPayloadLength : ℕ := 0x3FFFFFFF

variable {c : BytesCodec}

theorem encode_eq (hraw : c.raw = false) {data : Bytes} (hlen : data.length ≤ maxPayloadLength)
    (buf : Bytes) : c.encode data buf = .ok (buf ++ (head data.length ++ data)) := by
  unfold maxPayloadLength at hlen
  unfold encode head
  rw [if_neg (by rw [hraw]; decide)]
  by_cases h1 : data.length ≤ 0x3F
  · simp only [if_pos h1, putU8, List.nil_append, List.append_assoc]
  by_cases h2 : data.length ≤ 0x3FFF
  · simp only [if_neg h1, if_pos h2, putU16Le, List.nil_append, List.append_assoc]
  by_cases h3 : data.length ≤ 0x3FFFFF
  · simp only [if_neg h1, if_neg h2, if_pos h3, putU8, putU16Le, List.nil_append,
      List.append_assoc]
  · simp only [if_neg h1, if_neg h2, if_neg h3, if_pos hlen, putU32Le, List.nil_append,
      List.append_assoc]

private theorem shifted_or_tag {n t : ℕ} (ht : t < 4) : n <<< 2 ||| t = 4 * n + t := by
  rw [shiftLeft_or_eq_add (i := 2) n ht]
  omega

variable {n : ℕ}

/-- **The header read as a number.** A header is one to four bytes, and denotes four times the
payload length plus the header's width less one. -/
theorem head_spec (hn : n ≤ maxPayloadLength) :
    ∃ tag, tag < 4 ∧ (head n).length = tag + 1 ∧ assemble (head n) = 4 * n + tag := by
  unfold maxPayloadLength at hn
  unfold head
  by_cases h1 : n ≤ 0x3F
  · refine ⟨0, by decide, by simp [if_pos h1, putU8], ?_⟩
    rw [if_pos h1]
    simp only [putU8, List.nil_append, assemble, Nat.toUInt8, UInt8.toNat_ofNat',
      Nat.shiftLeft_eq]
    omega
  by_cases h2 : n ≤ 0x3FFF
  · refine ⟨1, by decide, by simp [if_neg h1, if_pos h2, putU16Le], ?_⟩
    have hword : (n <<< 2 % 65536) = n <<< 2 := by rw [Nat.shiftLeft_eq]; omega
    rw [if_neg h1, if_pos h2, assemble_u16, UInt16.toNat_or, Nat.toUInt16, UInt16.toNat_ofNat',
      hword]
    exact shifted_or_tag (by decide)
  by_cases h3 : n ≤ 0x3FFFFF
  · refine ⟨2, by decide, by simp [if_neg h1, if_neg h2, if_pos h3, putU16Le, putU8], ?_⟩
    rw [if_neg h1, if_neg h2, if_pos h3]
    have hword : (n <<< 2 % 4294967296) = n <<< 2 := by rw [Nat.shiftLeft_eq]; omega
    have hval : ((n <<< 2).toUInt32 ||| 0x2).toNat = 4 * n + 2 := by
      rw [UInt32.toNat_or, Nat.toUInt32, UInt32.toNat_ofNat', hword]
      exact shifted_or_tag (by decide)
    have hlow : (((n <<< 2).toUInt32 ||| 0x2) &&& 0xFFFF).toUInt16.toNat
        = (4 * n + 2) % 65536 := by
      rw [UInt32.toNat_toUInt16, UInt32.toNat_and, hval]
      change ((4 * n + 2) &&& (2 ^ 16 - 1)) % 65536 = _
      rw [and_mask]
      omega
    have hhigh : (((n <<< 2).toUInt32 ||| 0x2) >>> 16).toUInt8.toNat
        = (4 * n + 2) / 65536 % 256 := by
      rw [UInt32.toNat_toUInt8, UInt32.toNat_shiftRight, hval, Nat.shiftRight_eq_div_pow]
      rfl
    rw [putU8, assemble_append, assemble_u16, hlow]
    simp only [putU16Le, List.nil_append, List.length_cons, List.length_nil, assemble, hhigh]
    omega
  · refine ⟨3, by decide, by simp [if_neg h1, if_neg h2, if_neg h3, putU32Le], ?_⟩
    have hword : (n <<< 2 % 4294967296) = n <<< 2 := by rw [Nat.shiftLeft_eq]; omega
    rw [if_neg h1, if_neg h2, if_neg h3, assemble_u32, UInt32.toNat_or, Nat.toUInt32,
      UInt32.toNat_ofNat', hword]
    exact shifted_or_tag (by decide)

private theorem headLen_eq {b : UInt8} {tag : ℕ} (htag : tag < 4) (hb : b.toNat % 4 = tag) :
    ((b &&& 0x3) + 1).toNat = tag + 1 := by
  have hand : (b &&& 0x3).toNat = tag := by
    rw [UInt8.toNat_and]
    change b.toNat &&& (2 ^ 2 - 1) = tag
    rw [and_mask]
    exact hb
  rw [UInt8.toNat_add, hand]
  change (tag + 1) % 256 = tag + 1
  omega

private theorem shifts_eq_assemble (b0 b1 b2 b3 : UInt8) :
    b0.toNat ||| (b1.toNat <<< 8) = assemble [b0, b1] ∧
    b0.toNat ||| (b1.toNat <<< 8) ||| (b2.toNat <<< 16) = assemble [b0, b1, b2] ∧
    b0.toNat ||| (b1.toNat <<< 8) ||| (b2.toNat <<< 16) ||| (b3.toNat <<< 24)
      = assemble [b0, b1, b2, b3] := by
  have h0 := b0.toNat_lt
  have h1 := b1.toNat_lt
  have h2 := b2.toNat_lt
  have e1 : b0.toNat ||| (b1.toNat <<< 8) = b0.toNat + b1.toNat * 256 :=
    or_shiftLeft_eq_add b1.toNat h0
  have e2 : b0.toNat + b1.toNat * 256 ||| (b2.toNat <<< 16)
      = b0.toNat + b1.toNat * 256 + b2.toNat * 65536 :=
    or_shiftLeft_eq_add b2.toNat (by omega)
  have e3 : b0.toNat + b1.toNat * 256 + b2.toNat * 65536 ||| (b3.toNat <<< 24)
      = b0.toNat + b1.toNat * 256 + b2.toNat * 65536 + b3.toNat * 16777216 :=
    or_shiftLeft_eq_add b3.toNat (by omega)
  rw [e1, e2, e3]
  simp only [assemble]
  omega

theorem decodeHead_head (hn : n ≤ maxPayloadLength) (hmax : n ≤ c.maxPacketLength) (rest : Bytes) :
    c.decodeHead (head n ++ rest) = .ok (some n, rest) := by
  obtain ⟨tag, htag, hlen, hval⟩ := head_spec hn
  have hshift : assemble (head n) >>> 2 = n := by
    rw [hval, Nat.shiftRight_eq_div_pow]
    omega
  have hfit : ¬ n > c.maxPacketLength := Nat.not_lt.mpr hmax
  -- the four header widths
  match hh : head n, hlen with
  | [b0], hlen =>
    obtain rfl : tag = 0 := by simpa using hlen.symm
    have hb := headLen_eq htag (by rw [← assemble_cons_mod_four b0 [], ← hh, hval]; omega)
    rw [hh] at hshift
    have hs : b0.toNat >>> 2 = n := by simpa [assemble] using hshift
    simp [decodeHead, headWord, hb, hs, hfit]
  | [b0, b1], hlen =>
    obtain rfl : tag = 1 := by simpa using hlen.symm
    have hb := headLen_eq htag (by rw [← assemble_cons_mod_four b0 [b1], ← hh, hval]; omega)
    have hs := (shifts_eq_assemble b0 b1 0 0).1
    rw [← hh] at hs
    simp [decodeHead, headWord, hb, hs, hshift, hfit]
  | [b0, b1, b2], hlen =>
    obtain rfl : tag = 2 := by simpa using hlen.symm
    have hb := headLen_eq htag (by rw [← assemble_cons_mod_four b0 [b1, b2], ← hh, hval]; omega)
    have hs := (shifts_eq_assemble b0 b1 b2 0).2.1
    rw [← hh] at hs
    simp [decodeHead, headWord, hb, hs, hshift, hfit]
  | [b0, b1, b2, b3], hlen =>
    obtain rfl : tag = 3 := by simpa using hlen.symm
    have hb := headLen_eq htag
      (by rw [← assemble_cons_mod_four b0 [b1, b2, b3], ← hh, hval]; omega)
    have hs := (shifts_eq_assemble b0 b1 b2 b3).2.2
    rw [← hh] at hs
    simp [decodeHead, headWord, hb, hs, hshift, hfit]
  | _ :: _ :: _ :: _ :: _ :: _, hlen => simp at hlen; omega

theorem decodeHead_cut (hn : n ≤ maxPayloadLength) {buf cut tail : Bytes}
    (h : buf ++ cut = head n ++ tail) (hshort : buf.length < (head n).length) : c.decodeHead buf =
    .ok (none, buf) := by
  cases buf with
  | nil => rfl
  | cons b bs =>
    obtain ⟨tag, htag, hlen, hval⟩ := head_spec hn
    obtain ⟨b0, hs, hhead⟩ : ∃ b0 hs, head n = b0 :: hs := by
      cases hh : head n with
      | nil => rw [hh] at hlen; simp at hlen
      | cons b0 hs => exact ⟨b0, hs, rfl⟩
    have hb : b = b0 := by
      rw [hhead] at h
      exact (List.cons.inj h).1
    have hwidth : ((b &&& 0x3) + 1).toNat = tag + 1 := by
      refine headLen_eq htag ?_
      rw [hb, ← assemble_cons_mod_four b0 hs, ← hhead, hval]
      omega
    unfold decodeHead
    simp only [hwidth]
    rw [if_pos (by rw [hlen] at hshort; exact hshort)]

/-! ### Decoding a stream in chunks -/

def stream (ps : List Bytes) : Bytes := ps.flatMap fun p => head p.length ++ p

@[simp] theorem stream_nil : stream [] = [] := rfl

@[simp] theorem stream_cons (p : Bytes) (ps : List Bytes) :
    stream (p :: ps) = head p.length ++ (p ++ stream ps) := by
  simp [stream]

/-- Every payload fits a header and the decoder's limit. -/
def Fits (c : BytesCodec) (ps : List Bytes) : Prop :=
  ∀ p ∈ ps, p.length ≤ maxPayloadLength ∧ p.length ≤ c.maxPacketLength

/-- **What a stopped decoder holds.** Between frames, or inside a header, the buffer and the bytes
still to come (`rest`) encode the payloads still to be delivered (`ps`). Inside a payload the header
is gone and the first of them is awaited. -/
def Pending (c : BytesCodec) (buf rest : Bytes) (ps : List Bytes) : Prop :=
  c.raw = false ∧ Fits c ps ∧
    match c.state with
    | .Head => buf ++ rest = stream ps
    | .Data n => ∃ p qs, ps = p :: qs ∧ n = p.length ∧ buf ++ rest = p ++ stream qs

/-- The measure that shrinks with every frame delivered. -/
def measure (c : BytesCodec) (buf : Bytes) : ℕ :=
  2 * buf.length + match c.state with
    | .Head => 0
    | .Data _ => 1

variable {src src' data : Bytes}

theorem decodeBody_some {c c' : BytesCodec} (h : c.decodeBody n src = (some data, c', src')) : n ≤
    src.length ∧ data = src.take n ∧ c' = { c with state := .Head } ∧ src' = src.drop n := by
  unfold decodeBody decodeData at h
  by_cases hn : src.length < n
  · rw [if_pos hn] at h
    exact absurd (congrArg Prod.fst h) (by simp)
  · rw [if_neg hn] at h
    simp only [Prod.mk.injEq, Option.some.injEq] at h
    exact ⟨Nat.not_lt.mp hn, h.1.symm, h.2.1.symm, h.2.2.symm⟩

theorem decodeHead_some {src src' : Bytes}
    (h : c.decodeHead src = .ok (some n, src')) : src'.length < src.length := by
  cases src with
  | nil => simp [decodeHead] at h
  | cons b bs =>
    have hwidth := headLen_eq (Nat.mod_lt b.toNat (by decide : 4 > 0)) rfl
    simp only [decodeHead, hwidth] at h
    split_ifs at h with hlen hmax
    · simp at h
    · simp only [Except.ok.injEq, Prod.mk.injEq] at h
      rw [← h.2, List.length_drop, List.length_cons]
      omega

theorem measure_decode_lt {c c' : BytesCodec}
    (h : c.decode src = .ok (some data, c', src')) : measure c' src' < measure c src := by
  unfold decode at h
  by_cases hraw : c.raw
  · rw [if_pos hraw] at h
    by_cases hne : src ≠ []
    · rw [if_pos hne] at h
      obtain ⟨-, rfl, rfl⟩ := h
      have := List.length_pos_iff.mpr hne
      simp only [measure, List.length_nil]
      omega
    · rw [if_neg hne] at h
      exact absurd h (by simp)
  rw [if_neg hraw] at h
  cases hst : c.state with
  | Head =>
    rw [hst] at h
    cases hhd : c.decodeHead src with
    | error err => rw [hhd] at h; exact absurd h (by simp)
    | ok r =>
      obtain ⟨o, mid⟩ := r
      rw [hhd] at h
      cases o with
      | none => exact absurd h (by simp)
      | some n =>
        simp only [Except.ok.injEq] at h
        obtain ⟨-, -, rfl, rfl⟩ := decodeBody_some h
        have := decodeHead_some hhd
        simp only [measure, hst, List.length_drop]
        omega
  | Data n =>
    rw [hst] at h
    simp only [Except.ok.injEq] at h
    obtain ⟨-, -, rfl, rfl⟩ := decodeBody_some h
    simp only [measure, hst, List.length_drop]
    omega

/-- Call `decode` until it returns `Ok(None)`: the frames delivered, the codec and the buffer
left. -/
def decodeAll (c : BytesCodec) (src : Bytes) : Except IoError (List Bytes × BytesCodec × Bytes) :=
  match _hdec : c.decode src with
  | .error err => .error err
  | .ok (none, c', src') => .ok ([], c', src')
  | .ok (some data, c', src') =>
    match decodeAll c' src' with
    | .error err => .error err
    | .ok (ds, r) => .ok (data :: ds, r)
termination_by measure c src
decreasing_by exact measure_decode_lt _hdec

theorem decodeAll_none {c c' : BytesCodec} {src src' : Bytes}
    (h : c.decode src = .ok (none, c', src')) : c.decodeAll src = .ok ([], c', src') := by
  rw [decodeAll]
  split
  · next heq => rw [h] at heq; exact absurd heq (by simp)
  · next heq =>
    rw [h] at heq
    simp only [Except.ok.injEq, Prod.mk.injEq, true_and] at heq
    rw [heq.1, heq.2]
  · next heq => rw [h] at heq; exact absurd heq (by simp)

theorem decodeAll_some {c c' : BytesCodec} {ds : List Bytes}
    {r : BytesCodec × Bytes} (h : c.decode src = .ok (some data, c', src'))
    (hrest : c'.decodeAll src' = .ok (ds, r)) : c.decodeAll src = .ok (data :: ds, r) := by
  rw [decodeAll]
  split
  · next heq => rw [h] at heq; exact absurd heq (by simp)
  · next heq => rw [h] at heq; exact absurd heq (by simp)
  · next heq =>
    rw [h] at heq
    obtain ⟨rfl, rfl, rfl⟩ := heq
    rw [hrest]

/-- Feed chunks to a codec, draining it after each one. -/
def feed (c : BytesCodec) (buf : Bytes) :
    List Bytes → Except IoError (List Bytes × BytesCodec × Bytes)
  | [] => .ok ([], c, buf)
  | chunk :: chunks =>
    match c.decodeAll (buf ++ chunk) with
    | .error err => .error err
    | .ok (ds, c', buf') =>
      match feed c' buf' chunks with
      | .error err => .error err
      | .ok (ds', r) => .ok (ds ++ ds', r)

/-- Encode payloads one after the other into one buffer. -/
def encodeAll (c : BytesCodec) (buf : Bytes) : List Bytes → Except IoError Bytes
  | [] => .ok buf
  | p :: ps =>
    match c.encode p buf with
    | .error err => .error err
    | .ok buf' => encodeAll c buf' ps

/-! ### The round trip -/

theorem length_head_pos (hn : n ≤ maxPayloadLength) : 0 < (head n).length := by
  obtain ⟨tag, -, hlen, -⟩ := head_spec hn
  rw [hlen]
  exact Nat.succ_pos tag

variable {ps : List Bytes}

theorem Fits.tail {p : Bytes} (h : Fits c (p :: ps)) : Fits c ps :=
  fun q hq => h q (List.mem_cons_of_mem p hq)

theorem Fits.withState (h : Fits c ps) (st : DecodeState) :
    Fits { c with state := st } ps := h

variable {buf rest : Bytes}

theorem decodeBody_pending (hraw : c.raw = false) {p : Bytes}
    {qs : List Bytes} (hfits : Fits c (p :: qs))
    (h : buf ++ rest = p ++ stream qs) :
    (∃ c' buf', c.decodeBody p.length buf = (none, c', buf') ∧ Pending c' buf' rest (p :: qs) ∧
        c'.maxPacketLength = c.maxPacketLength ∧ rest ≠ []) ∨
      (∃ c' buf', c.decodeBody p.length buf = (some p, c', buf') ∧ Pending c' buf' rest qs ∧
        c'.maxPacketLength = c.maxPacketLength) := by
  unfold decodeBody decodeData
  by_cases hshort : buf.length < p.length
  · left
    rw [if_pos hshort]
    refine ⟨_, _, rfl, ⟨hraw, hfits.withState _, p, qs, rfl, rfl, h⟩, rfl, ?_⟩
    rintro rfl
    have hlen := congrArg List.length h
    simp only [List.length_append, List.length_nil] at hlen
    omega
  · right
    rw [if_neg hshort]
    -- the payload is a prefix of the buffer
    obtain ⟨tl, rfl⟩ : p <+: buf :=
      List.prefix_of_prefix_length_le ⟨stream qs, rfl⟩ ⟨rest, h⟩ (Nat.not_lt.mp hshort)
    rw [List.append_assoc] at h
    refine ⟨{ c with state := .Head }, tl, ?_,
      ⟨hraw, hfits.tail.withState _, List.append_cancel_left h⟩, rfl⟩
    rw [List.take_left, List.drop_left]

theorem decode_pending
    (h : Pending c buf rest ps) :
    (∃ c' buf', c.decode buf = .ok (none, c', buf') ∧ Pending c' buf' rest ps ∧
        c'.maxPacketLength = c.maxPacketLength ∧
        (rest = [] → ps = [] ∧ c'.state = .Head ∧ buf' = [])) ∨
      (∃ p qs c' buf', ps = p :: qs ∧ c.decode buf = .ok (some p, c', buf') ∧
        Pending c' buf' rest qs ∧ c'.maxPacketLength = c.maxPacketLength) := by
  obtain ⟨hraw, hfits, hst⟩ := h
  unfold decode
  rw [if_neg (by rw [hraw]; decide)]
  cases hstate : c.state with
  | Data n =>
    rw [hstate] at hst
    obtain ⟨p, qs, rfl, rfl, heq⟩ := hst
    rcases decodeBody_pending hraw hfits heq with ⟨c', buf', hb, hp, hm, hr⟩ |
      ⟨c', buf', hb, hp, hm⟩
    · exact Or.inl ⟨c', buf', by simp only [hb], hp, hm, fun hnil => absurd hnil hr⟩
    · exact Or.inr ⟨p, qs, c', buf', rfl, by simp only [hb], hp, hm⟩
  | Head =>
    rw [hstate] at hst
    replace hst : buf ++ rest = stream ps := hst
    cases ps with
    | nil =>
      -- nothing is owed, so the buffer is empty
      obtain ⟨rfl, rfl⟩ := List.append_eq_nil_iff.mp hst
      exact Or.inl ⟨c, [], rfl, ⟨hraw, hfits, by rw [hstate]; rfl⟩, rfl,
        fun _ => ⟨rfl, hstate, rfl⟩⟩
    | cons p qs =>
      have hp := hfits p List.mem_cons_self
      rw [stream_cons] at hst
      by_cases hshort : buf.length < (head p.length).length
      · -- the header itself is cut
        left
        simp only [decodeHead_cut hp.1 hst hshort]
        refine ⟨c, buf, rfl, ⟨hraw, hfits, ?_⟩, rfl, ?_⟩
        · rw [hstate]
          exact hst.trans (stream_cons p qs).symm
        · rintro rfl
          have hlen := congrArg List.length hst
          simp only [List.length_append, List.length_nil] at hlen
          omega
      · -- the header is complete: continue as in `Data`
        obtain ⟨tl, rfl⟩ : head p.length <+: buf :=
          List.prefix_of_prefix_length_le ⟨p ++ stream qs, rfl⟩ ⟨rest, hst⟩
            (Nat.not_lt.mp hshort)
        rw [List.append_assoc] at hst
        have heq : tl ++ rest = p ++ stream qs := List.append_cancel_left hst
        simp only [decodeHead_head hp.1 hp.2]
        rcases decodeBody_pending hraw hfits heq with ⟨c', buf', hb, hpend, hm, hr⟩ |
          ⟨c', buf', hb, hpend, hm⟩
        · exact Or.inl ⟨c', buf', by simp only [hb], hpend, hm, fun hnil => absurd hnil hr⟩
        · exact Or.inr ⟨p, qs, c', buf', rfl, by simp only [hb], hpend, hm⟩

theorem decodeAll_pending
    (h : Pending c buf rest ps) :
    ∃ ds ps' c' buf', c.decodeAll buf = .ok (ds, c', buf') ∧ ps = ds ++ ps' ∧
      Pending c' buf' rest ps' ∧ c'.maxPacketLength = c.maxPacketLength ∧
      (rest = [] → ps' = [] ∧ c'.state = .Head ∧ buf' = []) := by
  -- on the payloads owed: every call that does not stop delivers the first of them
  induction ps generalizing c buf with
  | nil =>
    rcases decode_pending h with ⟨c', buf', hd, hp, hm, hr⟩ | ⟨p, qs, _, _, hps, _⟩
    · exact ⟨[], [], c', buf', decodeAll_none hd, rfl, hp, hm, hr⟩
    · exact absurd hps (by simp)
  | cons p ps ih =>
    rcases decode_pending h with ⟨c', buf', hd, hp, hm, hr⟩ | ⟨q, qs, c', buf', hps, hd, hp, hm⟩
    · exact ⟨[], p :: ps, c', buf', decodeAll_none hd, rfl, hp, hm, hr⟩
    · obtain ⟨rfl, rfl⟩ := List.cons.inj hps
      obtain ⟨ds, ps', c'', buf'', hall, heq, hp', hm', hr⟩ := ih hp
      exact ⟨p :: ds, ps', c'', buf'', decodeAll_some hd hall, by rw [heq, List.cons_append], hp',
        hm'.trans hm, hr⟩

theorem feed_pending {buf : Bytes} {chunks : List Bytes} (hne : chunks ≠ [])
    (h : Pending c buf chunks.flatten ps) : ∃ c', c.feed buf chunks = .ok (ps, c', []) ∧ c'.state =
    .Head := by
  -- on the chunks: what the drain after the first one leaves is pending for the others
  induction chunks generalizing c buf ps with
  | nil => exact absurd rfl hne
  | cons chunk chunks ih =>
    have h' : Pending c (buf ++ chunk) chunks.flatten ps := by
      simpa [Pending, List.append_assoc] using h
    obtain ⟨ds, ps', c', buf', hall, rfl, hp, -, hr⟩ := decodeAll_pending h'
    rw [feed, hall]
    cases chunks with
    | nil =>
      obtain ⟨rfl, hhead, rfl⟩ := hr rfl
      exact ⟨c', by simp only [feed, List.append_nil], hhead⟩
    | cons chunk' chunks =>
      obtain ⟨c'', hfeed, hhead⟩ := ih (by simp) hp
      exact ⟨c'', by simp only [hfeed], hhead⟩

theorem encodeAll_eq (hraw : c.raw = false) (hfits : ∀ p ∈ ps, p.length ≤ maxPayloadLength)
    (buf : Bytes) : c.encodeAll buf ps = .ok (buf ++ stream ps) := by
  induction ps generalizing buf with
  | nil => rw [encodeAll, stream_nil, List.append_nil]
  | cons p ps ih =>
    rw [encodeAll, encode_eq hraw (hfits p List.mem_cons_self)]
    simp only
    rw [ih (fun q hq => hfits q (List.mem_cons_of_mem p hq)), stream_cons]
    simp only [List.append_assoc]

/-- **The codec round trip.** Payloads within the header's range and the decoder's limit encode
without error, and however the stream is cut into chunks, a fresh decoder delivers exactly the
payloads, in order, and is left between frames with an empty buffer. -/
theorem feed_encodeAll (ps : List Bytes) (limit : ℕ)
    (hfits : ∀ p ∈ ps, p.length ≤ 0x3FFFFFFF ∧ p.length ≤ limit) :
    ∃ bytes, new.encodeAll [] ps = .ok bytes ∧
      ∀ chunks : List Bytes, chunks.flatten = bytes →
        ∃ c', (new.setMaxPacketLength limit).feed [] chunks = .ok (ps, c', []) ∧
          c'.state = .Head := by
  refine ⟨stream ps, encodeAll_eq rfl (fun p hp => (hfits p hp).1) [], ?_⟩
  intro chunks hcut
  cases chunks with
  | nil =>
    -- no chunk at all: then nothing was sent
    cases ps with
    | nil => exact ⟨_, rfl, rfl⟩
    | cons p ps =>
      have hpos := length_head_pos (hfits p List.mem_cons_self).1
      have hlen := congrArg List.length hcut
      simp only [List.flatten_nil, List.length_nil, stream_cons, List.length_append] at hlen
      omega
  | cons chunk chunks =>
    refine feed_pending (by simp) ⟨rfl, hfits, ?_⟩
    exact hcut

/-- Two payloads, one empty, cut inside the first header's payload and at a frame boundary. -/
theorem feed_encodeAll_two :
    (∀ p ∈ [[7, 8, 9], ([] : Bytes)], p.length ≤ 0x3FFFFFFF ∧ p.length ≤ 5) ∧
      ∃ bytes, new.encodeAll [] [[7, 8, 9], []] = .ok bytes ∧
        ∀ chunks : List Bytes, chunks.flatten = bytes →
          ∃ c', (new.setMaxPacketLength 5).feed [] chunks = .ok ([[7, 8, 9], []], c', []) ∧
            c'.state = .Head :=
  ⟨by decide, feed_encodeAll [[7, 8, 9], []] 5 (by decide)⟩

end BytesCodec

end LibRustdesk
