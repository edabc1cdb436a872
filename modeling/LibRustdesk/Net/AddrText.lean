import LibRustdesk.Net.AddrMangle
import LibRustdesk.Net.HostPort

/-!
# Addresses as text

How the standard library shows an address. An IPv6 address is shown without brackets, and in them
with a port.

* `Ipv4Addr.letters_display` — digits and dots.
* `Ipv6Addr.letters_display` — hexadecimal digits, colons and dots.
* `Ipv6Addr.colon_mem_display` — **there is a colon**.
-/

namespace LibRustdesk

open HostPort (isHex isHex_of_isDigit)

def displayNat (n : ℕ) : List Char := Nat.toDigits 10 n

def Ipv4Addr.display (ip : Ipv4Addr) : List Char :=
  displayNat ip.a.toNat ++ '.' :: (displayNat ip.b.toNat ++ '.' :: (displayNat ip.c.toNat ++ '.' ::
    displayNat ip.d.toNat))

/-! ### IPv6 -/

def segmentsOf : Bytes → List ℕ
  | hi :: lo :: rest => (hi.toNat * 256 + lo.toNat) :: segmentsOf rest
  | _ => []

structure Span where
  start : ℕ := 0
  len : ℕ := 0

/-- The first of the longest runs of zeros, where `i` is the number of segments before. -/
def longestZeros : List ℕ → ℕ → Span → Span → Span
  | [], _, longest, _ => longest
  | segment :: rest, i, longest, current =>
    if segment = 0 then
      let current : Span :=
        { start := if current.len = 0 then i else current.start, len := current.len + 1 }
      longestZeros rest (i + 1) (if longest.len < current.len then current else longest) current
    else longestZeros rest (i + 1) longest {}

/-- A part of an address, with colons between the segments. -/
def fmtSubslice (chunk : List ℕ) : List Char :=
  List.intercalate [':'] (chunk.map (Nat.toDigits 16))

namespace Ipv6Addr

def segments (ip : Ipv6Addr) : List ℕ := segmentsOf ip.octets

def toIpv4Mapped (ip : Ipv6Addr) : Option Ipv4Addr :=
  if ip.octets.take 12 = List.replicate 10 0 ++ [255, 255] then
    match ip.octets.drop 12 with
    | [a, b, c, d] => some ⟨a, b, c, d⟩
    | _ => none
  else none

def display (ip : Ipv6Addr) : List Char :=
  match ip.toIpv4Mapped with
  | some ipv4 => "::ffff:".toList ++ ipv4.display
  | none =>
    let zeroes := longestZeros ip.segments 0 {} {}
    if 1 < zeroes.len then
      fmtSubslice (ip.segments.take zeroes.start) ++ [':', ':'] ++
        fmtSubslice (ip.segments.drop (zeroes.start + zeroes.len))
    else fmtSubslice ip.segments

end Ipv6Addr

namespace IpAddr

def display : IpAddr → List Char
  | v4 ip => ip.display
  | v6 ip => ip.display

end IpAddr

def SocketAddr.display : SocketAddr → List Char
  | .v4 ip port => ip.display ++ ':' :: displayNat port.toNat
  | .v6 ip port _ scopeId =>
    if scopeId = 0 then '[' :: ip.display ++ [']', ':'] ++ displayNat port.toNat
    else '[' :: ip.display ++ '%' :: displayNat scopeId.toNat ++ [']', ':'] ++
      displayNat port.toNat

/-! ### The letters -/

variable {c : Char}

theorem isDigit_of_mem_displayNat {n : ℕ} (hc : c ∈ displayNat n) : c.isDigit = true :=
  Nat.isDigit_of_mem_toDigits (by decide) (by decide) hc

theorem Ipv4Addr.letters_display {ip : Ipv4Addr} (hc : c ∈ ip.display) :
    c.isDigit = true ∨ c = '.' := by
  unfold Ipv4Addr.display at hc
  simp only [List.mem_append, List.mem_cons] at hc
  rcases hc with h | h | h | h | h | h | h
  · exact Or.inl (isDigit_of_mem_displayNat h)
  · exact Or.inr h
  · exact Or.inl (isDigit_of_mem_displayNat h)
  · exact Or.inr h
  · exact Or.inl (isDigit_of_mem_displayNat h)
  · exact Or.inr h
  · exact Or.inl (isDigit_of_mem_displayNat h)

theorem isHex_digitChar : ∀ d < 16, isHex (Nat.digitChar d) = true := by decide

theorem isHex_of_mem_toDigits {n : ℕ} (hc : c ∈ Nat.toDigits 16 n) : isHex c = true := by
  induction n using Nat.strongRecOn with
  | ind n ih =>
    rw [Nat.toDigits_eq_if (by decide)] at hc
    split at hc
    · next hlt =>
      rw [List.mem_singleton.mp hc]
      exact isHex_digitChar n hlt
    · next hge =>
      rcases List.mem_append.mp hc with hc | hc
      · exact ih _ (by omega) hc
      · rw [List.mem_singleton.mp hc]
        exact isHex_digitChar _ (Nat.mod_lt _ (by decide))

theorem fmtSubslice_cons_cons (a b : ℕ) (rest : List ℕ) :
    fmtSubslice (a :: b :: rest) = Nat.toDigits 16 a ++ ':' :: fmtSubslice (b :: rest) := by
  unfold fmtSubslice
  rw [List.map_cons, List.map_cons, List.intercalate_cons_cons, List.append_assoc]
  rfl

theorem letters_fmtSubslice {chunk : List ℕ} (hc : c ∈ fmtSubslice chunk) :
    isHex c = true ∨ c = ':' := by
  induction chunk with
  | nil => cases hc
  | cons a rest ih =>
    cases rest with
    | nil =>
      unfold fmtSubslice at hc
      rw [List.map_cons, List.map_nil, List.intercalate_singleton] at hc
      exact Or.inl (isHex_of_mem_toDigits hc)
    | cons b rest =>
      rw [fmtSubslice_cons_cons] at hc
      rcases List.mem_append.mp hc with hc | hc
      · exact Or.inl (isHex_of_mem_toDigits hc)
      · rcases List.mem_cons.mp hc with hc | hc
        · exact Or.inr hc
        · exact ih hc

theorem colon_mem_fmtSubslice {chunk : List ℕ} (h : 2 ≤ chunk.length) :
    ':' ∈ fmtSubslice chunk := by
  match chunk, h with
  | a :: b :: rest, _ =>
    rw [fmtSubslice_cons_cons]
    exact List.mem_append_right _ List.mem_cons_self

theorem length_segmentsOf (bytes : Bytes) : (segmentsOf bytes).length = bytes.length / 2 := by
  induction bytes using segmentsOf.induct with
  | case1 hi lo rest ih =>
    rw [segmentsOf, List.length_cons, ih, List.length_cons, List.length_cons]
    omega
  | case2 bytes hshort =>
    match bytes, hshort with
    | [], _ => rfl
    | [_], _ => simp only [segmentsOf, List.length_nil, List.length_singleton, Nat.reduceDiv]
    | hi :: lo :: rest, hshort => exact absurd rfl (hshort hi lo rest)

namespace Ipv6Addr

theorem length_segments (ip : Ipv6Addr) : ip.segments.length = 8 := by
  unfold segments
  rw [length_segmentsOf, ip.length_eq]

theorem letters_display {ip : Ipv6Addr} {c : Char} (hc : c ∈ ip.display) :
    isHex c = true ∨ c = ':' ∨ c = '.' := by
  have hsub {chunk : List ℕ} (h : c ∈ fmtSubslice chunk) : isHex c = true ∨ c = ':' ∨ c = '.' :=
    (letters_fmtSubslice h).imp_right Or.inl
  have hfixed {text : List Char} (htext : text.all (fun c => isHex c || c == ':') = true)
      (h : c ∈ text) : isHex c = true ∨ c = ':' ∨ c = '.' :=
    (Bool.or_eq_true_iff.mp (List.all_eq_true.mp htext c h)).imp_right fun heq =>
      Or.inl (beq_iff_eq.mp heq)
  unfold display at hc
  split at hc
  · rcases List.mem_append.mp hc with hc | hc
    · exact hfixed (by decide) hc
    · exact (Ipv4Addr.letters_display hc).imp isHex_of_isDigit Or.inr
  · dsimp only at hc
    split at hc
    · rcases List.mem_append.mp hc with hc | hc
      · rcases List.mem_append.mp hc with hc | hc
        · exact hsub hc
        · exact hfixed (by decide) hc
      · exact hsub hc
    · exact hsub hc

theorem colon_mem_display (ip : Ipv6Addr) : ':' ∈ ip.display := by
  unfold display
  split
  · exact List.mem_append_left _ (by decide)
  · dsimp only
    split
    · exact List.mem_append_left _ (List.mem_append_right _ (by decide))
    · exact colon_mem_fmtSubslice (by rw [length_segments]; decide)

end Ipv6Addr

/-- The loopback address, one with two runs of zeros, and one with an IPv4 address in it. -/
example : Ipv6Addr.localhost.display = "::1".toList ∧
    Ipv6Addr.display ⟨[32, 1, 0, 0, 0, 0, 0, 1, 0, 0, 0, 0, 0, 0, 0, 1], rfl⟩ =
      "2001:0:0:1::1".toList ∧
    Ipv6Addr.display ⟨[0, 0, 0, 0, 0, 0, 0, 0, 0, 0, 255, 255, 10, 0, 0, 1], rfl⟩ =
      "::ffff:10.0.0.1".toList := by
  decide +kernel

end LibRustdesk
