import LibRustdesk.Framework.Pieces
import LibRustdesk.Framework.Regex
import LibRustdesk.Bridge.Events
import LibRustdesk.Client.Options

/-!
# Hosts and ports

`check_port`, `increase_port` and `split_host_port` (`socket_client.rs` of `libs/hbb_common`) put a
port behind a host, add to it and take it off. Whether a text is an IPv6 address is decided by one
expression, `is_ipv6_str`: groups of hexadecimal digits with one or two colons between them, or the
same in brackets and with a port.

* `isIpv6Str` — the expression, and `isIpv6Str_iff` what it takes.
* `checkPort`, `increasePort`, `splitHostPort` — the functions; a sum that is no `i32` ends the
  thread.
* `RoundTrips` — a host and its port survive.

`roundTrips_iff` says **which hosts survive with which ports**. An address that begins or ends with
a colon is not one for the expression, and a short name of hexadecimal digits with a port of up to
four digits is.
-/

namespace LibRustdesk.HostPort

open Bridge (displayInt)
open Client (parseI32 parseDigits)

/-! ### The expression -/

/-- The letters that `\d` takes: the decimal digits of Unicode, which are 0 to 9 among ASCII. -/
structure DigitClass where
  isDecimal : Char → Bool
  ascii : ∀ c : Char, c.toNat < 128 → isDecimal c = c.isDigit

def isHex (c : Char) : Bool :=
  'a' ≤ c && c ≤ 'f' || 'A' ≤ c && c ≤ 'F' || '0' ≤ c && c ≤ '9'

def letter (a : Char) : Regex Char := .one (· == a)

/-- `[a-fA-F0-9]{1,4}`. -/
def hexGroup : Regex Char := (Regex.one isHex).between 1 4

/-- `([a-fA-F0-9]{1,4}:{1,2})+[a-fA-F0-9]{1,4}`. -/
def ipv6Groups : Regex Char :=
  .seq (Regex.plus (.seq hexGroup ((letter ':').between 1 2))) hexGroup

variable (d : DigitClass)

/-- The groups, or `\[groups\]:\d+`. -/
def ipv6Regex : Regex Char :=
  .alt ipv6Groups
    (.seq (letter '[') (.seq ipv6Groups (.seq (letter ']') (.seq (letter ':')
      (Regex.plus (.one d.isDecimal))))))

def isIpv6Str (id : List Char) : Bool := (ipv6Regex d).isMatch id

/-! ### The functions -/

/-- `str::split` at two letters, the first of which is not the second. -/
def splitPair (a b : Char) : List Char → List (List Char)
  | [] => [[]]
  | [c] => [[c]]
  | c :: c' :: rest =>
    if c = a ∧ c' = b then [] :: splitPair a b rest
    else (splitPair a b (c' :: rest)).modifyHead (c :: ·)

/-- `parse().unwrap_or(0)`. -/
def parsePort (s : List Char) : Int32 := (parseI32 (String.ofList s)).getD 0

/-- A sum of two `i32`. -/
def addI32 (a b : Int32) : Option Int32 :=
  if -2 ^ 31 ≤ a.toInt + b.toInt ∧ a.toInt + b.toInt < 2 ^ 31 then some (a + b) else none

def checkPort (host : List Char) (port : Int32) : List Char :=
  if isIpv6Str d host then
    if host.head? = some '[' then host
    else '[' :: host ++ [']', ':'] ++ displayInt port.toInt
  else if ':' ∉ host then host ++ ':' :: displayInt port.toInt
  else host

def increasePort (host : List Char) (offset : Int32) : Option (List Char) :=
  if isIpv6Str d host then
    if host.head? = some '[' then
      match splitPair ']' ':' host with
      | [first, second] =>
        if 0 < parsePort second then
          (addI32 (parsePort second) offset).map fun port =>
            first ++ [']', ':'] ++ displayInt port.toInt
        else some host
      | _ => some host
    else some host
  else if ':' ∈ host then
    match host.splitOn ':' with
    | [first, second] =>
      if 0 < parsePort second then
        (addI32 (parsePort second) offset).map fun port => first ++ ':' :: displayInt port.toInt
      else some host
    | _ => some host
  else some host

def splitHostPort (host : List Char) : Option (List Char × Int32) :=
  if isIpv6Str d host then
    if host.head? = some '[' then
      match splitPair ']' ':' host with
      | [first, second] =>
        if 0 < parsePort second then some (first ++ [']'], parsePort second) else none
      | _ => none
    else none
  else if ':' ∈ host then
    match host.splitOn ':' with
    | [first, second] => if 0 < parsePort second then some (first, parsePort second) else none
    | _ => none
  else none

/-! ### What survives -/

/-- A host as it is with a port: an IPv6 address is put in brackets. -/
def shown (host : List Char) : List Char :=
  if isIpv6Str d host ∧ host.head? ≠ some '[' then '[' :: host ++ [']'] else host

/-- The host and its port survive: they are given back, they are left alone, and the port can be
increased. -/
structure RoundTrips (host : List Char) (port : Int32) : Prop where
  split : splitHostPort d (checkPort d host port) = some (shown d host, port)
  alone : ∀ other, checkPort d (checkPort d host port) other = checkPort d host port
  increase : ∀ offset : Int32, port.toInt + offset.toInt ≤ 65535 →
    increasePort d (checkPort d host port) offset =
      some (shown d host ++ ':' :: displayInt (port.toInt + offset.toInt))

def ShortHex (host : List Char) : Prop :=
  1 ≤ host.length ∧ host.length ≤ 4 ∧ ∀ c ∈ host, isHex c = true

instance (host : List Char) : Decidable (ShortHex host) := inferInstanceAs (Decidable (_ ∧ _ ∧ _))

/-! ### What the expression takes -/

def Groups (s : List Char) : Prop := s ∈ ipv6Groups.language

variable {w : List Char}

theorem mem_letter_between {a : Char} {m n : ℕ} (hle : m ≤ n) :
    w ∈ ((letter a).between m n).language ↔ m ≤ w.length ∧ w.length ≤ n ∧ ∀ c ∈ w, c = a := by
  unfold letter
  rw [Regex.between_iff hle]
  simp only [beq_iff_eq]

theorem mem_hexGroup_iff : w ∈ hexGroup.language ↔ ShortHex w :=
  Regex.between_iff (by decide)

variable {c : Char}

theorem isHex_of_isDigit (h : c.isDigit = true) : isHex c = true := by
  unfold Char.isDigit at h
  unfold isHex
  rw [Bool.or_eq_true]
  refine Or.inr ?_
  rw [Bool.and_eq_true, decide_eq_true_eq, decide_eq_true_eq] at h ⊢
  exact h

theorem not_colon_of_isHex (h : isHex c = true) : c ≠ ':' := by
  rintro rfl
  exact absurd h (by decide)

theorem count_colon_of_shortHex (h : ShortHex w) : w.count ':' = 0 :=
  List.count_eq_zero.mpr fun hmem => not_colon_of_isHex (h.2.2 _ hmem) rfl

theorem mem_separated_iff :
    w ∈ (Regex.seq hexGroup ((letter ':').between 1 2)).language ↔
      ∃ h colons, ShortHex h ∧ (1 ≤ colons.length ∧ colons.length ≤ 2 ∧ ∀ c ∈ colons, c = ':') ∧
        h ++ colons = w := by
  rw [Regex.mem_seq]
  constructor
  · rintro ⟨h, hh, colons, hcolons, rfl⟩
    exact ⟨h, colons, mem_hexGroup_iff.mp hh, (mem_letter_between (by decide)).mp hcolons, rfl⟩
  · rintro ⟨h, colons, hh, hcolons, rfl⟩
    exact ⟨h, mem_hexGroup_iff.mpr hh, colons, (mem_letter_between (by decide)).mpr hcolons, rfl⟩

theorem one_le_count_of_separated
    (h : w ∈ (Regex.seq hexGroup ((letter ':').between 1 2)).language) : 1 ≤ w.count ':' := by
  obtain ⟨g, colons, hg, ⟨hlen, -, hall⟩, rfl⟩ := mem_separated_iff.mp h
  rw [List.count_append, List.count_eq_length.mpr fun c hc => (hall c hc).symm]
  omega

variable {s : List Char}

theorem groups_iff : Groups s ↔
    ∃ (first : List Char) (words : List (List Char)) (last : List Char),
      first ∈ (Regex.seq hexGroup ((letter ':').between 1 2)).language ∧
      (∀ u ∈ words, u ∈ (Regex.seq hexGroup ((letter ':').between 1 2)).language) ∧
      ShortHex last ∧ s = first ++ words.flatten ++ last := by
  unfold Groups ipv6Groups
  rw [Regex.mem_seq]
  constructor
  · rintro ⟨u, hu, last, hlast, rfl⟩
    obtain ⟨first, words, rfl, hfirst, hall⟩ := Regex.mem_plus_iff.mp hu
    exact ⟨first, words, last, hfirst, hall, mem_hexGroup_iff.mp hlast, rfl⟩
  · rintro ⟨first, words, last, hfirst, hall, hlast, rfl⟩
    exact ⟨_, Regex.mem_plus_iff.mpr ⟨first, words, rfl, hfirst, hall⟩, last,
      mem_hexGroup_iff.mpr hlast, rfl⟩

theorem Groups.colon_mem (h : Groups s) : ':' ∈ s := by
  obtain ⟨first, words, last, hfirst, -, -, rfl⟩ := groups_iff.mp h
  have hmem := List.count_pos_iff.mp (one_le_count_of_separated hfirst)
  exact List.mem_append_left _ (List.mem_append_left _ hmem)

theorem Groups.letters (h : Groups s) : ∀ c ∈ s, isHex c = true ∨ c = ':' := by
  have hdigit : (Regex.one isHex).Within fun c => isHex c = true ∨ c = ':' := fun c hc => Or.inl hc
  have hcolon : (letter ':').Within fun c => isHex c = true ∨ c = ':' := fun c hc =>
    Or.inr (beq_iff_eq.mp hc)
  have hhex := Regex.within_between hdigit 1 4
  have hcolons := Regex.within_between hcolon 1 2
  have hall : ipv6Groups.Within fun c => isHex c = true ∨ c = ':' :=
    ⟨⟨⟨hhex, hcolons⟩, hhex, hcolons⟩, hhex⟩
  exact Regex.within_of_mem hall h

theorem Groups.not_mem (h : Groups s) (hhex : isHex c = false) (hne : c ≠ ':') : c ∉ s := by
  intro hmem
  rcases h.letters c hmem with hc | hc
  · exact Bool.false_ne_true (hhex.symm.trans hc)
  · exact hne hc

theorem Groups.head (h : Groups s) : s.head? ≠ some '[' := fun hhead =>
  h.not_mem (by decide) (by decide) (List.mem_of_head? hhead)

def bracketed (groups port : List Char) : List Char := '[' :: groups ++ [']', ':'] ++ port

variable {d}

theorem isIpv6Str_iff : isIpv6Str d s = true ↔ Groups s ∨
    ∃ groups port, Groups groups ∧ (port ≠ [] ∧ ∀ c ∈ port, d.isDecimal c = true) ∧
      s = bracketed groups port := by
  have hone {a : Char} {w : List Char} : w ∈ (letter a).language ↔ w = [a] := by
    unfold letter
    rw [Regex.mem_one_iff]
    simp only [beq_iff_eq]
    exact ⟨fun ⟨c, hc, hw⟩ => hc ▸ hw, fun hw => ⟨a, rfl, hw⟩⟩
  unfold isIpv6Str ipv6Regex
  rw [Regex.isMatch_iff, Regex.mem_alt]
  refine or_congr Iff.rfl ?_
  simp only [Regex.mem_seq, hone, Regex.mem_plus_one]
  constructor
  · rintro ⟨_, rfl, _, ⟨groups, hgroups, _, ⟨_, rfl, _, ⟨_, rfl, port, hport, rfl⟩, rfl⟩, rfl⟩, rfl⟩
    refine ⟨groups, port, hgroups, hport, ?_⟩
    unfold bracketed
    rw [List.append_assoc]
    rfl
  · rintro ⟨groups, port, hgroups, hport, rfl⟩
    refine ⟨['['], rfl, _, ⟨groups, hgroups, _, ⟨[']'], rfl, _, ⟨[':'], rfl, port, hport, rfl⟩,
      rfl⟩, rfl⟩, ?_⟩
    unfold bracketed
    rw [List.append_assoc]
    rfl

theorem isIpv6Str_and_head_iff : isIpv6Str d s = true ∧ s.head? ≠ some '[' ↔ Groups s := by
  rw [isIpv6Str_iff]
  constructor
  · rintro ⟨hgroups | ⟨groups, port, -, -, rfl⟩, hhead⟩
    · exact hgroups
    · exact absurd rfl hhead
  · exact fun h => ⟨Or.inl h, h.head⟩

theorem isIpv6Str_concat_iff {host port : List Char} (hhost : ':' ∉ host) (hport : ':' ∉ port) :
    isIpv6Str d (host ++ ':' :: port) = true ↔ ShortHex host ∧ ShortHex port := by
  have hcount : (host ++ ':' :: port).count ':' = 1 := by
    rw [List.count_append, List.count_cons_self, List.count_eq_zero.mpr hhost,
      List.count_eq_zero.mpr hport]
  rw [isIpv6Str_iff]
  constructor
  · rintro (hgroups | ⟨groups, text, hgroups, -, heq⟩)
    · obtain ⟨first, words, last, hfirst, hall, hlast, heq⟩ := groups_iff.mp hgroups
      have hone := one_le_count_of_separated hfirst
      rw [heq, List.count_append, List.count_append] at hcount
      -- no more groups fit in
      have hwords : words = [] := by
        cases words with
        | nil => rfl
        | cons w words =>
          have hw := one_le_count_of_separated (hall w List.mem_cons_self)
          rw [List.flatten_cons, List.count_append] at hcount
          omega
      obtain ⟨h, colons, hh, ⟨hlen, -, hcolons⟩, rfl⟩ := mem_separated_iff.mp hfirst
      rw [hwords, List.count_append, count_colon_of_shortHex hh,
        List.count_eq_length.mpr fun c hc => (hcolons c hc).symm] at hcount
      obtain ⟨c, rfl⟩ : ∃ c, colons = [c] := List.length_eq_one_iff.mp (by omega)
      obtain rfl := hcolons c List.mem_cons_self
      have hsplit := congrArg (List.splitOn ':') heq
      have hh' : ':' ∉ h := List.count_eq_zero.mp (count_colon_of_shortHex hh)
      have hlast' : ':' ∉ last := List.count_eq_zero.mp (count_colon_of_shortHex hlast)
      rw [hwords, List.flatten_nil, List.append_nil, List.append_assoc, List.singleton_append,
        List.splitOn_append_cons_self_of_not_mem hhost, List.splitOn_eq_singleton hport,
        List.splitOn_append_cons_self_of_not_mem hh', List.splitOn_eq_singleton hlast'] at hsplit
      obtain ⟨rfl, hrest⟩ := List.cons.inj hsplit
      obtain ⟨rfl, -⟩ := List.cons.inj hrest
      exact ⟨hh, hlast⟩
    · -- there is one colon in the groups, and one behind them
      have hone := List.count_pos_iff.mpr hgroups.colon_mem
      unfold bracketed at heq
      rw [heq, List.count_append, List.count_append, List.count_cons_of_ne (by decide)] at hcount
      have hpair : [']', ':'].count ':' = 1 := by decide
      omega
  · rintro ⟨hh, hport'⟩
    refine Or.inl (groups_iff.mpr ⟨host ++ [':'], [], port, ?_,
      fun u hu => absurd hu List.not_mem_nil, hport', ?_⟩)
    · exact mem_separated_iff.mpr ⟨host, [':'], hh, ⟨by decide, by decide,
        fun c hc => List.mem_singleton.mp hc⟩, rfl⟩
    · rw [List.flatten_nil, List.append_nil, List.append_assoc]
      rfl

/-! ### Ports as text -/

theorem parseDigits_eq {n : ℕ} {cs : List Char} (h : ∀ c ∈ cs, c.isDigit = true) :
    parseDigits n cs = some (Nat.ofDigitChars 10 cs n) := by
  induction cs generalizing n with
  | nil => rfl
  | cons c cs ih =>
    obtain ⟨hc, hcs⟩ := List.forall_mem_cons.mp h
    have hrange : '0' ≤ c ∧ c ≤ '9' := by
      unfold Char.isDigit at hc
      rw [Bool.and_eq_true, decide_eq_true_eq, decide_eq_true_eq] at hc
      exact hc
    rw [parseDigits, if_pos hrange, ih hcs, Nat.ofDigitChars_cons, Nat.mul_comm]

theorem parseI32_ofList {cs : List Char} (hminus : c ≠ '-') (hplus : c ≠ '+') {n : ℕ}
    (hparse : parseDigits 0 (c :: cs) = some n) (hlt : n < 2 ^ 31) :
    parseI32 (String.ofList (c :: cs)) = some (Int32.ofNat n) := by
  unfold parseI32
  rw [String.toList_ofList]
  split
  next neg digits hsign =>
    split at hsign
    · next heq => exact absurd (List.cons.inj heq).1 hminus
    · next heq => exact absurd (List.cons.inj heq).1 hplus
    · obtain ⟨rfl, rfl⟩ := Prod.mk.inj hsign
      rw [if_neg (List.cons_ne_nil c cs), hparse]
      dsimp only
      rw [if_neg Bool.false_ne_true, if_pos hlt]

theorem displayInt_injective : Function.Injective displayInt := by
  intro m n h
  have hminus (k : ℕ) (t : List Char) : '-' :: t ≠ Nat.toDigits 10 k := by
    intro heq
    have hdigit := Nat.isDigit_of_mem_toDigits (by decide) (by decide)
      (heq ▸ List.mem_cons_self : '-' ∈ Nat.toDigits 10 k)
    exact absurd hdigit (by decide)
  have habs {a b : ℕ} (heq : Nat.toDigits 10 a = Nat.toDigits 10 b) : a = b := by
    rw [← Nat.ofDigitChars_ten_toDigits (n := a), heq, Nat.ofDigitChars_ten_toDigits]
  unfold displayInt at h
  split at h
  · split at h
    · have hnat := habs (List.cons.inj h).2
      omega
    · exact absurd h (hminus _ _)
  · split at h
    · exact absurd h.symm (hminus _ _)
    · have hnat := habs h
      omega

theorem addI32_toInt {a b : Int32} (hle : -2 ^ 31 ≤ a.toInt + b.toInt)
    (hlt : a.toInt + b.toInt < 2 ^ 31) :
    ∃ sum, addI32 a b = some sum ∧ sum.toInt = a.toInt + b.toInt := by
  refine ⟨a + b, if_pos ⟨hle, hlt⟩, ?_⟩
  rw [Int32.toInt_add, Int.bmod_eq_of_le]
  · exact hle
  · exact hlt

section Positive

variable {p : Int32} (hp : 0 < p)

include hp

theorem toInt_pos : 0 < p.toInt := by
  rw [Int32.lt_iff_toInt_lt] at hp
  exact hp

theorem displayInt_eq : displayInt p.toInt = Nat.toDigits 10 p.toInt.natAbs := by
  have hpos := toInt_pos hp
  unfold displayInt
  rw [if_neg (by omega)]

theorem isDigit_of_mem_port : ∀ c ∈ displayInt p.toInt, c.isDigit = true := by
  rw [displayInt_eq hp]
  exact fun c hc => Nat.isDigit_of_mem_toDigits (by decide) (by decide) hc

theorem isDecimal_of_mem_port : ∀ c ∈ displayInt p.toInt, d.isDecimal c = true := by
  intro c hc
  have hdigit := isDigit_of_mem_port hp c hc
  have hascii : c.toNat < 128 := by
    unfold Char.isDigit at hdigit
    rw [Bool.and_eq_true, decide_eq_true_eq, decide_eq_true_eq] at hdigit
    have hle : c.toNat ≤ 57 := hdigit.2
    omega
  rw [d.ascii c hascii]
  exact hdigit

theorem port_ne_nil : displayInt p.toInt ≠ [] := by
  rw [displayInt_eq hp]
  exact Nat.toDigits_ne_nil

theorem not_mem_port {c : Char} (hc : c.isDigit = false) : c ∉ displayInt p.toInt := fun hmem =>
  Bool.false_ne_true (hc.symm.trans (isDigit_of_mem_port hp c hmem))

theorem parsePort_displayInt : parsePort (displayInt p.toInt) = p := by
  have hpos := toInt_pos hp
  have hlt : p.toInt.natAbs < 2 ^ 31 := by
    have hle := p.toInt_lt
    omega
  have hdigits := isDigit_of_mem_port hp
  have hparse : parseDigits 0 (displayInt p.toInt) = some p.toInt.natAbs := by
    rw [parseDigits_eq hdigits, displayInt_eq hp, Nat.ofDigitChars_ten_toDigits]
  have hnat : Int32.ofNat p.toInt.natAbs = p := by
    rw [← Int32.toInt_inj, Int32.toInt_ofNat_of_lt hlt]
    omega
  cases htext : displayInt p.toInt with
  | nil => exact absurd htext (port_ne_nil hp)
  | cons c cs =>
    rw [htext] at hdigits hparse
    have hc := hdigits c List.mem_cons_self
    have hminus : c ≠ '-' := by
      rintro rfl
      exact absurd hc (by decide)
    have hplus : c ≠ '+' := by
      rintro rfl
      exact absurd hc (by decide)
    unfold parsePort
    rw [parseI32_ofList hminus hplus hparse hlt, hnat]
    rfl

theorem shortHex_port_iff : ShortHex (displayInt p.toInt) ↔ p.toInt ≤ 9999 := by
  have hpos := toInt_pos hp
  have hlen : (displayInt p.toInt).length ≤ 4 ↔ p.toInt.natAbs < 10 ^ 4 := by
    rw [displayInt_eq hp]
    exact Nat.length_toDigits_le_iff (by decide) (by decide)
  constructor
  · intro h
    have hlt := hlen.mp h.2.1
    omega
  · intro h
    exact ⟨List.length_pos_iff.mpr (port_ne_nil hp), hlen.mpr (by omega), fun c hc =>
      isHex_of_isDigit (isDigit_of_mem_port hp c hc)⟩

theorem addI32_eq {k : Int32} (hle : p.toInt + k.toInt ≤ 65535) :
    ∃ sum, addI32 p k = some sum ∧ sum.toInt = p.toInt + k.toInt := by
  have hpos := toInt_pos hp
  have hk := k.le_toInt
  exact addI32_toInt (by omega) (by omega)

end Positive

/-! ### Texts with a port -/

theorem splitPair_eq {a b : Char} {s t : List Char} (hs : a ∉ s) (ht : a ∉ t) (hab : a ≠ b) :
    splitPair a b (s ++ a :: b :: t) = [s, t] := by
  have hsingle : ∀ t : List Char, a ∉ t → splitPair a b t = [t] := by
    intro t ht
    induction t with
    | nil => rfl
    | cons c t ih =>
      rw [List.mem_cons, not_or] at ht
      cases t with
      | nil => rfl
      | cons c' t =>
        rw [splitPair, if_neg fun h => ht.1 h.1.symm, ih ht.2]
        rfl
  induction s with
  | nil =>
    rw [List.nil_append, splitPair, if_pos ⟨rfl, rfl⟩, hsingle t ht]
  | cons c s ih =>
    rw [List.mem_cons, not_or] at hs
    have hrest := ih hs.2
    cases s with
    | nil =>
      rw [List.singleton_append, splitPair, if_neg fun h => hab h.2, ← List.nil_append (a :: _),
        hrest]
      rfl
    | cons c' s =>
      rw [List.cons_append, List.cons_append, splitPair, if_neg fun h => hs.1 h.1.symm,
        ← List.cons_append, hrest]
      rfl

theorem splitOn_eq {s t : List Char} (hs : ':' ∉ s) (ht : ':' ∉ t) :
    (s ++ ':' :: t).splitOn ':' = [s, t] := by
  rw [List.splitOn_append_cons_self_of_not_mem hs, List.splitOn_eq_singleton ht]

theorem roundTrips_groups {host : List Char} (hhost : Groups host) {p : Int32} (hp : 0 < p) :
    RoundTrips d host p := by
  have hport : displayInt p.toInt ≠ [] ∧ ∀ c ∈ displayInt p.toInt, d.isDecimal c = true :=
    ⟨port_ne_nil hp, isDecimal_of_mem_port hp⟩
  have hclose : ']' ∉ '[' :: host := by
    rw [List.mem_cons, not_or]
    exact ⟨by decide, hhost.not_mem (by decide) (by decide)⟩
  have hsix : isIpv6Str d (bracketed host (displayInt p.toInt)) = true :=
    isIpv6Str_iff.mpr (Or.inr ⟨host, _, hhost, hport, rfl⟩)
  have hhead : (bracketed host (displayInt p.toInt)).head? = some '[' := rfl
  have hsplit : splitPair ']' ':' (bracketed host (displayInt p.toInt)) =
      ['[' :: host, displayInt p.toInt] := by
    unfold bracketed
    rw [List.append_assoc]
    exact splitPair_eq hclose (not_mem_port hp (by decide)) (by decide)
  obtain ⟨hipv6, hnoBracket⟩ := (isIpv6Str_and_head_iff (d := d)).mpr hhost
  have hcheck : checkPort d host p = bracketed host (displayInt p.toInt) := by
    unfold checkPort
    rw [if_pos hipv6, if_neg hnoBracket]
    rfl
  have hshown : shown d host = '[' :: host ++ [']'] := if_pos ⟨hipv6, hnoBracket⟩
  have hparse := parsePort_displayInt hp
  constructor
  · unfold splitHostPort
    rw [hcheck, if_pos hsix, if_pos hhead, hsplit]
    dsimp only
    rw [hparse, if_pos hp, hshown]
  · intro other
    rw [hcheck]
    unfold checkPort
    rw [if_pos hsix, if_pos hhead]
  · intro offset hle
    obtain ⟨sum, hsum, htoInt⟩ := addI32_eq hp hle
    unfold increasePort
    rw [hcheck, if_pos hsix, if_pos hhead, hsplit]
    dsimp only
    rw [hparse, if_pos hp, hsum, Option.map_some, htoInt, hshown, List.append_assoc,
      List.append_assoc]
    rfl

theorem roundTrips_name {host : List Char} (hhost : ':' ∉ host) {p : Int32} (hp : 0 < p)
    (hshort : ¬ (ShortHex host ∧ p.toInt ≤ 9999)) : RoundTrips d host p := by
  have hport := not_mem_port hp (c := ':') (by decide)
  have hsix : ¬ isIpv6Str d (host ++ ':' :: displayInt p.toInt) = true := by
    rw [isIpv6Str_concat_iff hhost hport, shortHex_port_iff hp]
    exact hshort
  have hcolon : ':' ∈ host ++ ':' :: displayInt p.toInt :=
    List.mem_append_right _ List.mem_cons_self
  have hnot : ¬ isIpv6Str d host = true := by
    rw [isIpv6Str_iff]
    rintro (hgroups | ⟨groups, port, hgroups, -, rfl⟩)
    · exact hhost hgroups.colon_mem
    · refine hhost (List.mem_append_left _ (List.mem_append_left _ ?_))
      exact List.mem_cons_of_mem _ hgroups.colon_mem
  have hcheck : checkPort d host p = host ++ ':' :: displayInt p.toInt := by
    unfold checkPort
    rw [if_neg hnot, if_pos hhost]
  have hshown : shown d host = host := if_neg fun h => hnot h.1
  have hparse := parsePort_displayInt hp
  constructor
  · unfold splitHostPort
    rw [hcheck, if_neg hsix, if_pos hcolon, splitOn_eq hhost hport]
    dsimp only
    rw [hparse, if_pos hp, hshown]
  · intro other
    rw [hcheck]
    unfold checkPort
    rw [if_neg hsix, if_neg (not_not.mpr hcolon)]
  · intro offset hle
    obtain ⟨sum, hsum, htoInt⟩ := addI32_eq hp hle
    unfold increasePort
    rw [hcheck, if_neg hsix, if_pos hcolon, splitOn_eq hhost hport]
    dsimp only
    rw [hparse, if_pos hp, hsum, Option.map_some, htoInt, hshown]

theorem of_splitHostPort {s h : List Char} {q : Int32} (hsplit : splitHostPort d s = some (h, q)) :
    0 < q ∧ (isIpv6Str d s = true ∧ s.head? = some '[' ∧ h.getLast? = some ']' ∨
      ¬ isIpv6Str d s = true ∧ ':' ∉ h) := by
  unfold splitHostPort at hsplit
  split at hsplit
  · next hsix =>
    split at hsplit
    · next hhead =>
      split at hsplit
      · next first second heq =>
        split at hsplit
        · next hpos =>
          obtain ⟨rfl, rfl⟩ := Prod.mk.inj (Option.some.inj hsplit)
          exact ⟨hpos, Or.inl ⟨hsix, hhead, List.getLast?_concat⟩⟩
        · cases hsplit
      · cases hsplit
    · cases hsplit
  · next hsix =>
    split at hsplit
    · split at hsplit
      · next first second heq =>
        split at hsplit
        · next hpos =>
          obtain ⟨rfl, rfl⟩ := Prod.mk.inj (Option.some.inj hsplit)
          refine ⟨hpos, Or.inr ⟨hsix, not_mem_piece (l := s) ?_⟩⟩
          rw [heq]
          exact List.mem_cons_self
        · cases hsplit
      · cases hsplit
    · cases hsplit

/-- **Which hosts survive with which ports**: those with a port above 0 that are groups of
hexadecimal digits, or have no colon and are not as short as a group with a port as short. -/
theorem roundTrips_iff (d : DigitClass) (host : List Char) (p : Int32) :
    RoundTrips d host p ↔ 0 < p ∧ (isIpv6Str d host = true ∧ host.head? ≠ some '[' ∨
      ':' ∉ host ∧ ¬ (ShortHex host ∧ p.toInt ≤ 9999)) := by
  constructor
  · rintro ⟨hsplit, -, -⟩
    obtain ⟨hp, hcases⟩ := of_splitHostPort hsplit
    refine ⟨hp, ?_⟩
    by_cases hsix : isIpv6Str d host = true
    · refine Or.inl ⟨hsix, fun hhead => ?_⟩
      -- a host in brackets has a port, which is not given back with it
      have hcheck : checkPort d host p = host := by
        unfold checkPort
        rw [if_pos hsix, if_pos hhead]
      have hshown : shown d host = host := if_neg fun h => h.2 hhead
      rw [hcheck, hshown] at hcases
      obtain ⟨-, -, hlast⟩ := hcases.resolve_right fun h => h.1 hsix
      rcases isIpv6Str_iff.mp hsix with hgroups | ⟨groups, port, -, ⟨hne, hall⟩, rfl⟩
      · exact hgroups.head hhead
      · unfold bracketed at hlast
        rw [List.getLast?_append_of_ne_nil _ hne] at hlast
        have hclose := hall _ (List.mem_of_getLast? hlast)
        rw [d.ascii _ (by decide)] at hclose
        exact absurd hclose (by decide)
    · refine Or.inr ?_
      have hshown : shown d host = host := if_neg fun h => hsix h.1
      by_cases hcolon : ':' ∈ host
      · -- a host with a colon is left as it is, and what is split off has none
        have hcheck : checkPort d host p = host := by
          unfold checkPort
          rw [if_neg hsix, if_neg (not_not.mpr hcolon)]
        rw [hcheck, hshown] at hcases
        exact absurd hcolon (hcases.resolve_left fun h => hsix h.1).2
      · refine ⟨hcolon, fun ⟨hshort, hle⟩ => ?_⟩
        -- together they read as an address without brackets
        have hcheck : checkPort d host p = host ++ ':' :: displayInt p.toInt := by
          unfold checkPort
          rw [if_neg hsix, if_pos hcolon]
        have hport := not_mem_port hp (c := ':') (by decide)
        have haddress := (isIpv6Str_concat_iff (d := d) hcolon hport).mpr
          ⟨hshort, (shortHex_port_iff hp).mpr hle⟩
        rw [hcheck] at hcases
        obtain ⟨-, hhead, -⟩ := hcases.resolve_right fun h => h.1 haddress
        cases host with
        | nil => exact absurd hshort.1 (by decide)
        | cons c host =>
          obtain rfl := Option.some.inj hhead
          exact absurd (hshort.2.2 '[' List.mem_cons_self) (by decide)
  · rintro ⟨hp, haddress | ⟨hcolon, hshort⟩⟩
    · exact roundTrips_groups (isIpv6Str_and_head_iff.mp haddress) hp
    · exact roundTrips_name hcolon hp hshort

def asciiDigits : DigitClass := ⟨Char.isDigit, fun _ _ => rfl⟩

/-- The loopback address, the same in brackets, and a name of three letters. -/
theorem loopback_fails :
    checkPort asciiDigits "::1".toList 80 = "::1".toList ∧
    splitHostPort asciiDigits (checkPort asciiDigits "::1".toList 80) = none ∧
    splitHostPort asciiDigits (checkPort asciiDigits "[::1]".toList 80) = none ∧
    splitHostPort asciiDigits (checkPort asciiDigits "1::".toList 80) = none ∧
    splitHostPort asciiDigits (checkPort asciiDigits "fab".toList 80) = none := by
  decide +kernel

end LibRustdesk.HostPort
