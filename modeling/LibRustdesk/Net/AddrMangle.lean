import LibRustdesk.Framework.LittleEndian

/-!
# Mangled addresses

`AddrMangle` of `libs/hbb_common/src/lib.rs`: a socket address as bytes that a router on the way
does not take for an address. An IPv4 address becomes one 128-bit word of three fields, with the
time in the middle and added to the two others,

  `ip + tm` at bit 49, `tm` at bit 17, `port + tm mod 2^16` at bit 0,

whose zero bytes at the end are stripped; an IPv6 address becomes its octets and its port.

* `decode_encode` — **an encoded address is decoded** to what `try_into_v4` makes of it. The fields
  do not overlap: the sum of two 16-bit numbers has 17 bits. The decoder takes the port from 24
  bits, and the seven bits of `tm` among them are gone when it is cast to 16.
* `decode_ok_iff` — the bytes that are decoded without an underflow (`Fits`). Other words of up to
  sixteen bytes subtract more than there is.
-/

namespace LibRustdesk

open LittleEndian

structure Ipv4Addr where
  a : UInt8
  b : UInt8
  c : UInt8
  d : UInt8
  deriving DecidableEq

def Ipv4Addr.octets (ip : Ipv4Addr) : Bytes := [ip.a, ip.b, ip.c, ip.d]

structure Ipv6Addr where
  octets : Bytes
  length_eq : octets.length = 16
  deriving DecidableEq

namespace Ipv6Addr

def unspecified : Ipv6Addr := ⟨List.replicate 16 0, rfl⟩

def localhost : Ipv6Addr := ⟨List.replicate 15 0 ++ [1], rfl⟩

def isLoopback (ip : Ipv6Addr) : Bool := ip = localhost

/-- `to_ipv4`: the address of an IPv4-compatible or IPv4-mapped one. -/
def toIpv4 (ip : Ipv6Addr) : Option Ipv4Addr :=
  if ip.octets.take 12 = List.replicate 12 0 ∨
      ip.octets.take 12 = List.replicate 10 0 ++ [255, 255] then
    match ip.octets.drop 12 with
    | [a, b, c, d] => some ⟨a, b, c, d⟩
    | _ => none
  else none

def Embeds (ip : Ipv6Addr) (v4 : Ipv4Addr) : Prop :=
  ip.octets = List.replicate 12 0 ++ v4.octets ∨
    ip.octets = List.replicate 10 0 ++ [255, 255] ++ v4.octets

theorem toIpv4_eq_some_iff (ip : Ipv6Addr) (v4 : Ipv4Addr) :
    ip.toIpv4 = some v4 ↔ ip.Embeds v4 := by
  have hsplit : ip.octets = ip.octets.take 12 ++ ip.octets.drop 12 :=
    (List.take_append_drop 12 ip.octets).symm
  have hends (start : Bytes) (hstart : start.length = 12) : ip.octets = start ++ v4.octets ↔
      ip.octets.take 12 = start ∧ ip.octets.drop 12 = v4.octets := by
    constructor
    · intro h
      rw [h]
      exact ⟨List.take_left' hstart, List.drop_left' hstart⟩
    · rintro ⟨htake, hdrop⟩
      rw [hsplit, htake, hdrop]
  unfold Embeds
  rw [hends _ rfl, hends _ rfl, ← or_and_right]
  unfold toIpv4
  split
  · next hstart =>
    rw [and_iff_right hstart]
    split
    · next a b c d hdrop =>
      rw [hdrop]
      obtain ⟨a', b', c', d'⟩ := v4
      simp [Ipv4Addr.octets]
    · next hnone =>
      refine iff_of_false (by simp) fun hdrop => ?_
      exact hnone _ _ _ _ hdrop
  · next hstart => exact iff_of_false (by simp) fun h => hstart h.1

end Ipv6Addr

inductive SocketAddr
  | v4 (ip : Ipv4Addr) (port : UInt16)
  | v6 (ip : Ipv6Addr) (port : UInt16) (flowinfo scopeId : UInt32)
  deriving DecidableEq

inductive IpAddr
  | v4 (ip : Ipv4Addr)
  | v6 (ip : Ipv6Addr)
  deriving DecidableEq

namespace SocketAddr

def new (ip : IpAddr) (port : UInt16) : SocketAddr :=
  match ip with
  | .v4 ip => .v4 ip port
  | .v6 ip => .v6 ip port 0 0

def ip : SocketAddr → IpAddr
  | v4 ip _ => .v4 ip
  | v6 ip _ _ _ => .v6 ip

def port : SocketAddr → UInt16
  | v4 _ port => port
  | v6 _ port _ _ => port

end SocketAddr

def tryIntoV4 (addr : SocketAddr) : SocketAddr :=
  match addr with
  | .v6 ip port _ _ =>
    if ip.isLoopback then addr
    else
      match ip.toIpv4 with
      | some v4 => .v4 v4 port
      | none => addr
  | .v4 _ _ => addr

theorem tryIntoV4_eq_v4_iff (addr : SocketAddr) (ip : Ipv4Addr) (port : UInt16) :
    tryIntoV4 addr = .v4 ip port ↔ addr = .v4 ip port ∨
      ∃ ip6 flowinfo scopeId, addr = .v6 ip6 port flowinfo scopeId ∧ ip6 ≠ .localhost ∧
        ip6.Embeds ip := by
  cases addr with
  | v4 ip' port' => simp [tryIntoV4]
  | v6 ip6 port' flowinfo scopeId =>
    have hsame : (∃ ip6' flowinfo' scopeId', SocketAddr.v6 ip6 port' flowinfo scopeId =
        .v6 ip6' port flowinfo' scopeId' ∧ ip6' ≠ .localhost ∧ ip6'.Embeds ip) ↔
          port' = port ∧ ip6 ≠ .localhost ∧ ip6.toIpv4 = some ip := by
      rw [Ipv6Addr.toIpv4_eq_some_iff]
      constructor
      · rintro ⟨ip6', flowinfo', scopeId', heq, hnot, hembeds⟩
        cases heq
        exact ⟨rfl, hnot, hembeds⟩
      · rintro ⟨rfl, hnot, hembeds⟩
        exact ⟨ip6, flowinfo, scopeId, rfl, hnot, hembeds⟩
    rw [hsame]
    unfold tryIntoV4 Ipv6Addr.isLoopback
    by_cases hloop : ip6 = .localhost
    · simp [hloop]
    · dsimp only
      rw [if_neg (by simpa using hloop)]
      cases ip6.toIpv4 with
      | none => simp
      | some ip' => simp [hloop, and_comm]

theorem eq_of_tryIntoV4_eq_v6 {addr : SocketAddr} {ip6 : Ipv6Addr} {port : UInt16}
    {flowinfo scopeId : UInt32} (h : tryIntoV4 addr = .v6 ip6 port flowinfo scopeId) :
    addr = .v6 ip6 port flowinfo scopeId := by
  unfold tryIntoV4 at h
  split at h
  · split at h
    · exact h
    · split at h
      · cases h
      · exact h
  · cases h

namespace AddrMangle

def word (tm : UInt32) (ip : Ipv4Addr) (port : UInt16) : ℕ :=
  ((assemble ip.octets + tm.toNat) <<< 49) ||| (tm.toNat <<< 17) |||
    (port.toNat + (tm.toNat &&& 0xFFFF))

/-- `encode`, at a time. -/
def encode (tm : UInt32) (addr : SocketAddr) : Bytes :=
  match tryIntoV4 addr with
  | .v4 ip port =>
    let bytes := leBytes 16 (word tm ip port)
    let nPadding := (bytes.reverse.takeWhile (· = 0)).length
    bytes.take (16 - nPadding)
  | .v6 ip port _ _ => putU16Le ip.octets port

/-- What stops `decode`. -/
inductive Fault
  /-- A subtraction of more than there is. -/
  | underflow
  /-- A slice that is not in its range. -/
  | outOfRange
  deriving DecidableEq

/-- `bytes[i..j]`. -/
def slice (i j : ℕ) (bytes : Bytes) : Except Fault Bytes :=
  if i ≤ j ∧ j ≤ bytes.length then .ok ((bytes.take j).drop i) else .error .outOfRange

/-- `a - b`. -/
def sub (a b : ℕ) : Except Fault ℕ := if b ≤ a then .ok (a - b) else .error .underflow

/-- `try_into().unwrap_or_default()`, of an array of `n` bytes. -/
def toArray (n : ℕ) (bytes : Bytes) : Bytes :=
  if bytes.length = n then bytes else List.replicate n 0

theorem length_toArray (n : ℕ) (bytes : Bytes) : (toArray n bytes).length = n := by
  unfold toArray
  split
  · assumption
  · exact List.length_replicate

/-- `Config::get_any_listen_addr(false)`. -/
def anyListenAddr : SocketAddr := .new (.v6 .unspecified) 0

/-- `Ipv4Addr::new` of the bytes of a word of 32 bits. -/
def octetsOf (ip : UInt32) : Ipv4Addr :=
  ⟨ip.toUInt8, (ip >>> 8).toUInt8, (ip >>> 16).toUInt8, (ip >>> 24).toUInt8⟩

def decodeWord (number : ℕ) : Except Fault SocketAddr := do
  let tm := (number >>> 17) &&& 0xFFFFFFFF
  let ip ← sub (number >>> 49) tm
  let port ← sub (number &&& 0xFFFFFF) (tm &&& 0xFFFF)
  return .v4 (octetsOf (UInt32.ofNat ip)) (UInt16.ofNat port)

def decode (bytes : Bytes) : Except Fault SocketAddr :=
  if bytes.length > 16 then
    if bytes.length ≠ 18 then .ok anyListenAddr
    else do
      let tmp ← slice 16 bytes.length bytes
      let port := UInt16.ofNat (assemble (toArray 2 tmp))
      let tmp ← slice 0 16 bytes
      return .new (.v6 ⟨toArray 16 tmp, length_toArray 16 tmp⟩) port
  else do
    let padded := List.replicate 16 0
    let _ ← slice 0 bytes.length padded
    let padded := bytes ++ padded.drop bytes.length
    decodeWord (assemble padded)

/-! ### What is decoded -/

theorem assemble_padded (bytes : Bytes) (n : ℕ) :
    assemble (bytes ++ (List.replicate n 0).drop bytes.length) = assemble bytes := by
  have hzero (k : ℕ) : assemble (List.replicate k 0) = 0 := by
    induction k with
    | zero => rfl
    | succ k ih =>
      rw [List.replicate_succ, assemble, ih]
      rfl
  rw [List.drop_replicate, assemble_append, hzero, Nat.mul_zero, Nat.add_zero]

def timeOf (number : ℕ) : ℕ := number / 2 ^ 17 % 2 ^ 32

/-- The bytes are none of a word, or both fields hold what is subtracted of them. -/
def Fits (bytes : Bytes) : Prop :=
  bytes.length ≤ 16 → timeOf (assemble bytes) ≤ assemble bytes / 2 ^ 49 ∧
    timeOf (assemble bytes) % 2 ^ 16 ≤ assemble bytes % 2 ^ 24

instance (bytes : Bytes) : Decidable (Fits bytes) :=
  inferInstanceAs (Decidable (_ → _ ∧ _))

theorem decodeWord_eq (number : ℕ) : decodeWord number =
    if timeOf number ≤ number / 2 ^ 49 ∧ timeOf number % 2 ^ 16 ≤ number % 2 ^ 24 then
      .ok (.v4 (octetsOf (UInt32.ofNat (number / 2 ^ 49 - timeOf number)))
        (UInt16.ofNat (number % 2 ^ 24 - timeOf number % 2 ^ 16)))
    else .error .underflow := by
  have htm : (number >>> 17) &&& 0xFFFFFFFF = timeOf number := by
    rw [Nat.shiftRight_eq_div_pow]
    exact and_mask _ 32
  have hlow : number &&& 0xFFFFFF = number % 2 ^ 24 := and_mask _ 24
  have hlowtm : timeOf number &&& 0xFFFF = timeOf number % 2 ^ 16 := and_mask _ 16
  unfold decodeWord
  dsimp only
  rw [htm, hlow, hlowtm, Nat.shiftRight_eq_div_pow]
  unfold sub
  by_cases hip : timeOf number ≤ number / 2 ^ 49
  · by_cases hport : timeOf number % 2 ^ 16 ≤ number % 2 ^ 24
    · rw [if_pos hip, if_pos hport, if_pos ⟨hip, hport⟩]
      rfl
    · have hnot : ¬ (timeOf number ≤ number / 2 ^ 49 ∧
          timeOf number % 2 ^ 16 ≤ number % 2 ^ 24) := fun h => hport h.2
      rw [if_pos hip, if_neg hport, if_neg hnot]
      rfl
  · have hnot : ¬ (timeOf number ≤ number / 2 ^ 49 ∧
        timeOf number % 2 ^ 16 ≤ number % 2 ^ 24) := fun h => hip h.1
    rw [if_neg hip, if_neg hnot]
    rfl

theorem decode_word {bytes : Bytes} (h : bytes.length ≤ 16) :
    decode bytes = decodeWord (assemble bytes) := by
  have hslice : slice 0 bytes.length (List.replicate 16 0) =
      .ok (((List.replicate 16 0).take bytes.length).drop 0) := by
    refine if_pos ⟨Nat.zero_le _, ?_⟩
    rw [List.length_replicate]
    exact h
  unfold decode
  rw [if_neg (Nat.not_lt.mpr h)]
  dsimp only
  rw [hslice]
  exact congrArg decodeWord (assemble_padded bytes 16)

theorem decode_of_lt {bytes : Bytes} (h : 16 < bytes.length) : ∃ addr, decode bytes = .ok addr := by
  unfold decode
  rw [if_pos h]
  split
  · exact ⟨_, rfl⟩
  · have hport : slice 16 bytes.length bytes = .ok ((bytes.take bytes.length).drop 16) :=
      if_pos ⟨h.le, Nat.le_refl _⟩
    have hip : slice 0 16 bytes = .ok ((bytes.take 16).drop 0) :=
      if_pos ⟨Nat.zero_le _, h.le⟩
    rw [hport, hip]
    exact ⟨_, rfl⟩

/-- **Which bytes are decoded** without an underflow, or a slice out of its range. -/
theorem decode_ok_iff (bytes : Bytes) : (∃ addr, decode bytes = .ok addr) ↔ Fits bytes := by
  by_cases h : bytes.length ≤ 16
  · rw [decode_word h, decodeWord_eq]
    unfold Fits
    rw [forall_prop_of_true h]
    split
    · next hfits => exact iff_of_true ⟨_, rfl⟩ hfits
    · next hnot => exact iff_of_false (by simp) hnot
  · exact iff_of_true (decode_of_lt (Nat.not_le.mp h)) fun hle => absurd hle h

/-- The word of the time one, with nothing added to it. -/
theorem decode_underflows : decode [0, 0, 2] = .error .underflow := by decide +kernel

/-! ### What is encoded -/

theorem assemble_octets_lt (ip : Ipv4Addr) : assemble ip.octets < 2 ^ 32 := by
  have ha := ip.a.toNat_lt
  have hb := ip.b.toNat_lt
  have hc := ip.c.toNat_lt
  have hd := ip.d.toNat_lt
  simp only [Ipv4Addr.octets, assemble]
  omega

theorem word_eq (tm : UInt32) (ip : Ipv4Addr) (port : UInt16) :
    word tm ip port = (assemble ip.octets + tm.toNat) * 2 ^ 49 + tm.toNat * 2 ^ 17 +
      (port.toNat + tm.toNat % 2 ^ 16) := by
  have htm : tm.toNat < 2 ^ 32 := tm.toNat_lt
  have hport : port.toNat < 2 ^ 16 := port.toNat_lt
  have hmask : tm.toNat &&& 0xFFFF = tm.toNat % 2 ^ 16 := and_mask _ 16
  have hmiddle : tm.toNat <<< 17 < 2 ^ 49 := by
    rw [Nat.shiftLeft_eq]
    omega
  have hlow : port.toNat + tm.toNat % 2 ^ 16 < 2 ^ 17 := by omega
  -- the two fields above are a number that is shifted by 17
  have hhigh : (assemble ip.octets + tm.toNat) * 2 ^ 49 + tm.toNat <<< 17 =
      ((assemble ip.octets + tm.toNat) * 2 ^ 32 + tm.toNat) <<< 17 := by
    rw [Nat.shiftLeft_eq, Nat.shiftLeft_eq]
    ring
  unfold word
  rw [hmask, shiftLeft_or_eq_add _ hmiddle, hhigh, shiftLeft_or_eq_add _ hlow]
  ring

theorem assemble_stripped (bytes : Bytes) :
    assemble (bytes.take (bytes.length - (bytes.reverse.takeWhile (· = 0)).length)) =
      assemble bytes := by
  have hsplit := List.takeWhile_append_dropWhile (p := fun b : UInt8 => decide (b = 0))
    (l := bytes.reverse)
  have hzeros : ∀ b ∈ bytes.reverse.takeWhile (· = 0), b = 0 :=
    fun b hb => by simpa using List.all_eq_true.mp List.all_takeWhile b hb
  generalize bytes.reverse.takeWhile (· = 0) = zeros at hsplit hzeros ⊢
  generalize bytes.reverse.dropWhile (· = 0) = rest at hsplit
  have hbytes : bytes = rest.reverse ++ zeros.reverse := by
    rw [← List.reverse_append, hsplit, List.reverse_reverse]
  have hnone : ∀ {zeros : Bytes}, (∀ b ∈ zeros, b = 0) → assemble zeros = 0 := by
    intro zeros h
    induction zeros with
    | nil => rfl
    | cons b zeros ih =>
      rw [assemble, h b List.mem_cons_self, ih fun b hb => h b (List.mem_cons_of_mem _ hb)]
      rfl
  have hlength : bytes.length - zeros.length = rest.reverse.length := by
    rw [hbytes, List.length_append, List.length_reverse, List.length_reverse]
    exact Nat.add_sub_cancel _ _
  rw [hlength, hbytes, List.take_left, assemble_append,
    hnone fun b hb => hzeros b (List.mem_reverse.mp hb), Nat.mul_zero, Nat.add_zero]

theorem octets_injective {ip ip' : Ipv4Addr} (h : assemble ip.octets = assemble ip'.octets) :
    ip = ip' := by
  obtain ⟨a, b, c, d⟩ := ip
  obtain ⟨a', b', c', d'⟩ := ip'
  have := a.toNat_lt
  have := b.toNat_lt
  have := c.toNat_lt
  have := a'.toNat_lt
  have := b'.toNat_lt
  have := c'.toNat_lt
  simp only [Ipv4Addr.octets, assemble] at h
  have ha : a = a' := UInt8.toNat_inj.mp (by omega)
  have hb : b = b' := UInt8.toNat_inj.mp (by omega)
  have hc : c = c' := UInt8.toNat_inj.mp (by omega)
  have hd : d = d' := UInt8.toNat_inj.mp (by omega)
  rw [ha, hb, hc, hd]

theorem octetsOf_assemble (ip : Ipv4Addr) : octetsOf (UInt32.ofNat (assemble ip.octets)) = ip := by
  apply octets_injective
  have hword := assemble_u32 (UInt32.ofNat (assemble ip.octets))
  rw [UInt32.toNat_ofNat_of_lt' (assemble_octets_lt ip)] at hword
  exact hword

theorem decode_encode_v4 (tm : UInt32) (ip : Ipv4Addr) (port : UInt16) :
    decodeWord (word tm ip port) = .ok (.v4 ip port) := by
  have hip := assemble_octets_lt ip
  have htm : tm.toNat < 2 ^ 32 := tm.toNat_lt
  have hport : port.toNat < 2 ^ 16 := port.toNat_lt
  have hword := word_eq tm ip port
  have htime : timeOf (word tm ip port) = tm.toNat := by
    have hmiddle : word tm ip port / 2 ^ 17 =
        (assemble ip.octets + tm.toNat) * 2 ^ 32 + tm.toNat := by omega
    unfold timeOf
    rw [hmiddle]
    omega
  have hhigh : word tm ip port / 2 ^ 49 = assemble ip.octets + tm.toNat := by omega
  -- seven bits of the time are above the port
  have hlow : word tm ip port % 2 ^ 24 =
      tm.toNat % 2 ^ 7 * 2 ^ 17 + (port.toNat + tm.toNat % 2 ^ 16) := by omega
  have hcast : UInt16.ofNat (word tm ip port % 2 ^ 24 - tm.toNat % 2 ^ 16) = port := by
    apply UInt16.toNat_inj.mp
    rw [UInt16.toNat_ofNat', hlow]
    omega
  rw [decodeWord_eq, htime, hhigh, if_pos ⟨Nat.le_add_left _ _, by omega⟩, Nat.add_sub_cancel,
    octetsOf_assemble, hcast]

theorem decode_encode_v6 (ip : Ipv6Addr) (port : UInt16) :
    decode (putU16Le ip.octets port) = .ok (.v6 ip port 0 0) := by
  obtain ⟨octets, hlength⟩ := ip
  dsimp only
  have hbytes : putU16Le octets port = octets ++ putU16Le [] port := rfl
  have hlen : (putU16Le octets port).length = 18 := by
    rw [hbytes, List.length_append, hlength]
    rfl
  have hport : slice 16 (putU16Le octets port).length (putU16Le octets port) =
      .ok (putU16Le [] port) := by
    unfold slice
    rw [if_pos ⟨by omega, Nat.le_refl _⟩, List.take_length, hbytes, List.drop_left' hlength]
  have hip : slice 0 16 (putU16Le octets port) = .ok octets := by
    unfold slice
    rw [if_pos ⟨Nat.zero_le _, by omega⟩, hbytes, List.take_left' hlength, List.drop_zero]
  unfold decode
  rw [if_pos (by omega), if_neg (by omega), hport, hip]
  have harray : toArray 16 octets = octets := if_pos hlength
  have hbytes : toArray 2 (putU16Le [] port) = putU16Le [] port := if_pos rfl
  change Except.ok (SocketAddr.v6 ⟨toArray 16 octets, _⟩
    (UInt16.ofNat (assemble (toArray 2 (putU16Le [] port)))) 0 0) = _
  simp only [harray, hbytes, assemble_u16, UInt16.ofNat_toNat]

theorem decode_encode_eq (tm : UInt32) (addr : SocketAddr) :
    decode (encode tm addr) = .ok (.new (tryIntoV4 addr).ip (tryIntoV4 addr).port) := by
  unfold encode
  cases tryIntoV4 addr with
  | v6 ip port flowinfo scopeId => exact decode_encode_v6 ip port
  | v4 ip port =>
    have hlt : word tm ip port < 256 ^ 16 := by
      have hip := assemble_octets_lt ip
      have htm : tm.toNat < 2 ^ 32 := tm.toNat_lt
      have hport : port.toNat < 2 ^ 16 := port.toNat_lt
      have hword := word_eq tm ip port
      omega
    have hstripped := assemble_stripped (leBytes 16 (word tm ip port))
    rw [length_leBytes, assemble_leBytes, Nat.mod_eq_of_lt hlt] at hstripped
    have hle (n : ℕ) : ((leBytes 16 (word tm ip port)).take n).length ≤ 16 :=
      (List.length_take_le' _ _).trans (length_leBytes 16 _).le
    refine (decode_word (hle _)).trans ?_
    rw [hstripped]
    exact decode_encode_v4 tm ip port

/-- **What is encoded is decoded**, at any time, as what `try_into_v4` makes of it: an IPv4 address,
or the one that an IPv6 address other than the loopback embeds, and any other as itself. -/
theorem decode_encode (tm : UInt32) (addr : SocketAddr) :
    decode (encode tm addr) = .ok (.new (tryIntoV4 addr).ip (tryIntoV4 addr).port) ∧
      (∀ ip port, tryIntoV4 addr = .v4 ip port ↔ addr = .v4 ip port ∨
        ∃ ip6 flowinfo scopeId, addr = .v6 ip6 port flowinfo scopeId ∧ ip6 ≠ .localhost ∧
          ip6.Embeds ip) ∧
      ∀ ip6 port flowinfo scopeId, tryIntoV4 addr = .v6 ip6 port flowinfo scopeId →
        addr = .v6 ip6 port flowinfo scopeId :=
  ⟨decode_encode_eq tm addr, tryIntoV4_eq_v4_iff addr, fun _ _ _ _ => eq_of_tryIntoV4_eq_v6⟩

end AddrMangle

end LibRustdesk
