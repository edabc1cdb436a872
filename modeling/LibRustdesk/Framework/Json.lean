import Mathlib.Data.List.Basic

/-!
# Reading JSON

A reader for JSON texts (RFC 8259) over lists of characters, and rules that say what it makes of a
text that is put together from parts it reads, or from a part it refuses.

* `Json.parse` — the value of a complete text, if it is one.
* `Json.Reads`, `Json.ReadsBefore` — a reader takes exactly a given text off its input; the second
  is for numbers, which end only where another character stops them.
* `Json.Refuses` — a reader fails on every input that starts with a given text.
* `Json.string_reads`, `Json.string_refuses` — a string literal whose characters are encoded one
  by one, when each encoding is well formed and when one is a bare control character.
* `Json.members_cons`, `Json.value_obj`, `Json.elements_cons` and the
  refusing counterparts — the same for objects and arrays.

The nesting of values, members and elements is cut off by a fuel argument; `parse` starts with
more fuel than its text has characters. A number keeps its text, and an escaped surrogate must be
one of a pair.
-/

namespace LibRustdesk

inductive Json
  | null
  | bool (b : Bool)
  | num (text : List Char)
  | str (s : List Char)
  | arr (vs : List Json)
  | obj (ms : List (List Char × Json))

namespace Json

/-- A reader takes a value off the front of its input. -/
abbrev Reader (α : Type) := List Char → Option (α × List Char)

/-! ### The reader -/

def isWs (c : Char) : Bool := c = ' ' || c = '\t' || c = '\n' || c = '\r'

def skipWs (s : List Char) : List Char := s.dropWhile isWs

def hexDigit (c : Char) : Option ℕ :=
  if c.isDigit then some (c.toNat - '0'.toNat)
  else if 'a' ≤ c ∧ c ≤ 'f' then some (c.toNat - 'a'.toNat + 10)
  else if 'A' ≤ c ∧ c ≤ 'F' then some (c.toNat - 'A'.toNat + 10)
  else none

def hex4 : Reader ℕ
  | a :: b :: c :: d :: s => do
    let a ← hexDigit a
    let b ← hexDigit b
    let c ← hexDigit c
    let d ← hexDigit d
    some (((a * 16 + b) * 16 + c) * 16 + d, s)
  | _ => none

/-- The second half of a surrogate pair whose first half is `high`. -/
def lowSurrogate (high : ℕ) : Reader Char
  | '\\' :: 'u' :: s => do
    let (low, s) ← hex4 s
    if 0xDC00 ≤ low ∧ low < 0xE000 then
      some (Char.ofNat (0x10000 + (high - 0xD800) * 0x400 + (low - 0xDC00)), s)
    else none
  | _ => none

/-- What follows the backslash of an escape sequence. -/
def escape : Reader Char
  | [] => none
  | c :: s =>
    if c = '"' ∨ c = '\\' ∨ c = '/' then some (c, s)
    else if c = 'b' then some ('\x08', s)
    else if c = 'f' then some ('\x0c', s)
    else if c = 'n' then some ('\n', s)
    else if c = 'r' then some ('\r', s)
    else if c = 't' then some ('\t', s)
    else if c = 'u' then do
      let (unit, s) ← hex4 s
      if 0xD800 ≤ unit ∧ unit < 0xDC00 then lowSurrogate unit s
      else if 0xDC00 ≤ unit ∧ unit < 0xE000 then none
      else some (Char.ofNat unit, s)
    else none

/-- One character of a string literal: an escape sequence, or any character that is neither the
closing quote nor a control character. -/
def stringChar : Reader Char
  | '\\' :: s => escape s
  | c :: s => if c.toNat < 0x20 ∨ c = '"' then none else some (c, s)
  | [] => none

/-- The rest of a string literal, after its opening quote. -/
def stringBody : ℕ → Reader (List Char)
  | 0, _ => none
  | _ + 1, '"' :: s => some ([], s)
  | n + 1, s =>
    match stringChar s with
    | none => none
    | some (c, s) => (stringBody n s).map fun (cs, s) => (c :: cs, s)

def string : Reader (List Char)
  | '"' :: s => stringBody (s.length + 1) s
  | _ => none

def digits (s : List Char) : Option (List Char × List Char) :=
  if (s.takeWhile Char.isDigit) = [] then none
  else some (s.takeWhile Char.isDigit, s.dropWhile Char.isDigit)

def intPart : Reader (List Char)
  | '0' :: s => some (['0'], s)
  | s => digits s

def fracPart : Reader (List Char)
  | '.' :: s => (digits s).map fun (ds, s) => ('.' :: ds, s)
  | s => some ([], s)

def expPart : Reader (List Char)
  | c :: s =>
    if c = 'e' ∨ c = 'E' then
      match s with
      | '+' :: s => (digits s).map fun (ds, s) => (c :: '+' :: ds, s)
      | '-' :: s => (digits s).map fun (ds, s) => (c :: '-' :: ds, s)
      | s => (digits s).map fun (ds, s) => (c :: ds, s)
    else some ([], c :: s)
  | [] => some ([], [])

def unsigned (s : List Char) : Option (List Char × List Char) := do
  let (i, s) ← intPart s
  let (f, s) ← fracPart s
  let (x, s) ← expPart s
  some (i ++ f ++ x, s)

def number : Reader (List Char)
  | '-' :: s => (unsigned s).map fun (t, s) => ('-' :: t, s)
  | s => unsigned s

def keyword (word : List Char) (v : Json) (s : List Char) : Option (Json × List Char) :=
  if s.take word.length = word then some (v, s.drop word.length) else none

mutual

def value : ℕ → Reader Json
  | 0, _ => none
  | n + 1, s =>
    match skipWs s with
    | [] => none
    | c :: s =>
      if c = '\x7b' then
        if (skipWs s).head? = some '\x7d' then some (obj [], (skipWs s).tail)
        else (members n s).map fun (ms, s) => (obj ms, s)
      else if c = '[' then
        if (skipWs s).head? = some ']' then some (arr [], (skipWs s).tail)
        else (elements n s).map fun (vs, s) => (arr vs, s)
      else if c = '"' then (string (c :: s)).map fun (cs, s) => (str cs, s)
      else if c = 'n' then keyword ['u', 'l', 'l'] null s
      else if c = 't' then keyword ['r', 'u', 'e'] (bool true) s
      else if c = 'f' then keyword ['a', 'l', 's', 'e'] (bool false) s
      else (number (c :: s)).map fun (t, s) => (num t, s)

/-- The members of an object, its closing brace included. -/
def members : ℕ → Reader (List (List Char × Json))
  | 0, _ => none
  | n + 1, s =>
    match string (skipWs s) with
    | none => none
    | some (k, s) =>
      if (skipWs s).head? = some ':' then
        match value n (skipWs s).tail with
        | none => none
        | some (v, s) =>
          if (skipWs s).head? = some ',' then
            (members n (skipWs s).tail).map fun (ms, s) => ((k, v) :: ms, s)
          else if (skipWs s).head? = some '\x7d' then some ([(k, v)], (skipWs s).tail)
          else none
      else none

/-- The elements of an array, its closing bracket included. -/
def elements : ℕ → Reader (List Json)
  | 0, _ => none
  | n + 1, s =>
    match value n s with
    | none => none
    | some (v, s) =>
      if (skipWs s).head? = some ',' then
        (elements n (skipWs s).tail).map fun (vs, s) => (v :: vs, s)
      else if (skipWs s).head? = some ']' then some ([v], (skipWs s).tail)
      else none

end

def parse (s : List Char) : Option Json :=
  match value (s.length + 1) s with
  | some (v, s) => if skipWs s = [] then some v else none
  | none => none

/-- The member of an object under a key; the last one, where the key is repeated. -/
def member : Json → List Char → Option Json
  | obj ms, k => ((ms.filter fun m => m.1 = k).getLast?).map Prod.snd
  | _, _ => none

example : (parse "\x7b\"a\\n\" : [1, -2.5e3, null]\x7d ".toList).isSome = true := by decide +kernel
example : (parse "[1,]".toList).isNone = true := by decide +kernel

/-! ### What a reader makes of a text -/

/-- The reader takes exactly `t` off its input. -/
def Reads {α : Type} (p : Reader α) (t : List Char) (a : α) : Prop :=
  ∀ rest, p (t ++ rest) = some (a, rest)

/-- The reader takes exactly `t` off an input that goes on with `stop`. -/
def ReadsBefore {α : Type} (p : Reader α) (stop : Char) (t : List Char) (a : α) : Prop :=
  ∀ rest, p (t ++ stop :: rest) = some (a, stop :: rest)

/-- The reader fails on every input that starts with `t`. -/
def Refuses {α : Type} (p : Reader α) (t : List Char) : Prop :=
  ∀ rest, p (t ++ rest) = none

theorem Reads.before {α : Type} {p : Reader α} {t : List Char} {a : α} (h : Reads p t a)
    (stop : Char) : ReadsBefore p stop t a :=
  fun rest => h (stop :: rest)

theorem Refuses.append {α : Type} {p : Reader α} {t : List Char} (h : Refuses p t)
    (u : List Char) : Refuses p (t ++ u) := by
  intro rest
  rw [List.append_assoc]
  exact h (u ++ rest)

theorem skipWs_nil : skipWs [] = [] := rfl

theorem skipWs_cons {c : Char} (hc : isWs c = false) (s : List Char) :
    skipWs (c :: s) = c :: s := by
  rw [skipWs, List.dropWhile_cons_of_neg (by rw [hc]; exact Bool.false_ne_true)]

/-! ### String literals -/

theorem stringChar_reads {c : Char} (hc : 0x20 ≤ c.toNat) (hq : c ≠ '"') (hb : c ≠ '\\') :
    Reads stringChar [c] c := by
  intro rest
  change stringChar (c :: rest) = some (c, rest)
  unfold stringChar
  split
  · exact absurd (by simp_all) hb
  · next c' s' _ heq =>
    obtain ⟨rfl, rfl⟩ := List.cons.inj heq
    exact if_neg (by rintro (h | h); exacts [absurd hc (Nat.not_le.mpr h), hq h])
  · next heq => exact absurd heq (List.cons_ne_nil _ _)

theorem stringChar_control {c : Char} (hc : c.toNat < 0x20) (s : List Char) :
    stringChar (c :: s) = none := by
  unfold stringChar
  split
  · next heq =>
    obtain ⟨rfl, -⟩ := List.cons.inj heq
    exact absurd hc (by decide)
  · next heq =>
    obtain ⟨rfl, rfl⟩ := List.cons.inj heq
    exact if_pos (Or.inl hc)
  · rfl

theorem stringBody_char {n : ℕ} {s s' : List Char} {c : Char} (h : stringChar s = some (c, s')) :
    stringBody (n + 1) s = (stringBody n s').map fun (cs, s) => (c :: cs, s) := by
  conv_lhs => unfold stringBody
  split
  · next heq => exact absurd heq (Nat.succ_ne_zero _)
  · -- a closing quote is no string character
    exact absurd h (by simp [stringChar])
  · next hn _ => rw [h, Nat.succ.inj hn]

theorem stringBody_none {n : ℕ} {c : Char} {s : List Char} (hq : c ≠ '"')
    (h : stringChar (c :: s) = none) : stringBody n (c :: s) = none := by
  unfold stringBody
  split
  · rfl
  · next heq => exact absurd (List.cons.inj heq).1 hq
  · rw [h]

variable {enc : Char → List Char}

theorem stringBody_flatMap {cs : List Char} (henc : ∀ c ∈ cs, Reads stringChar (enc c) c)
    {n : ℕ} (hn : cs.length < n) (rest : List Char) :
    stringBody n (cs.flatMap enc ++ '"' :: rest) = some (cs, rest) := by
  induction cs generalizing n with
  | nil =>
    obtain ⟨m, rfl⟩ := Nat.exists_eq_add_one.mpr (Nat.zero_lt_of_lt hn)
    rfl
  | cons c cs ih =>
    obtain ⟨m, rfl⟩ := Nat.exists_eq_add_one.mpr (Nat.zero_lt_of_lt hn)
    have hc := henc c List.mem_cons_self (cs.flatMap enc ++ '"' :: rest)
    rw [List.flatMap_cons, List.append_assoc, stringBody_char hc,
      ih (fun d hd => henc d (List.mem_cons_of_mem c hd)) (Nat.lt_of_succ_lt_succ hn)]
    rfl

theorem length_le_length_flatMap {cs : List Char}
    (henc : ∀ c ∈ cs, Reads stringChar (enc c) c) : cs.length ≤ (cs.flatMap enc).length := by
  induction cs with
  | nil => exact Nat.le_refl _
  | cons c cs ih =>
    have hne : enc c ≠ [] := by
      intro h
      have hc := henc c List.mem_cons_self []
      rw [h] at hc
      exact absurd hc (by simp [stringChar])
    have := List.length_pos_iff.mpr hne
    have := ih fun d hd => henc d (List.mem_cons_of_mem c hd)
    rw [List.flatMap_cons, List.length_append, List.length_cons]
    omega

theorem string_reads {cs : List Char} (henc : ∀ c ∈ cs, Reads stringChar (enc c) c) :
    Reads string ('"' :: (cs.flatMap enc ++ ['"'])) cs := by
  intro rest
  have hlen := length_le_length_flatMap henc
  rw [List.cons_append, List.append_assoc]
  refine stringBody_flatMap henc ?_ rest
  rw [List.length_append]
  omega

theorem string_refuses {cs : List Char}
    (henc : ∀ c ∈ cs, Reads stringChar (enc c) c ∨ c.toNat < 0x20 ∧ enc c = [c])
    (hbad : ∃ c ∈ cs, c.toNat < 0x20 ∧ enc c = [c]) :
    Refuses string ('"' :: cs.flatMap enc) := by
  have hbody : ∀ n rest, stringBody n (cs.flatMap enc ++ rest) = none := by
    induction cs with
    | nil => exact absurd hbad (by simp)
    | cons c cs ih =>
      intro n rest
      rw [List.flatMap_cons, List.append_assoc]
      by_cases hc : c.toNat < 0x20 ∧ enc c = [c]
      · rw [hc.2]
        refine stringBody_none ?_ (stringChar_control hc.1 _)
        rintro rfl
        exact absurd hc.1 (by decide)
      · cases n with
        | zero => rfl
        | succ n =>
          have hread := (henc c List.mem_cons_self).resolve_right hc
          have hbad' : ∃ d ∈ cs, d.toNat < 0x20 ∧ enc d = [d] := by
            obtain ⟨d, hd, hdbad⟩ := hbad
            rcases List.mem_cons.mp hd with rfl | hd
            · exact absurd hdbad hc
            · exact ⟨d, hd, hdbad⟩
          rw [stringBody_char (hread _),
            ih (fun d hd => henc d (List.mem_cons_of_mem c hd)) hbad']
          rfl
  exact fun rest => hbody _ rest

theorem Reads.quote {t k : List Char} (h : Reads string t k) : ∃ u, t = '"' :: u := by
  have h0 := h []
  rw [List.append_nil] at h0
  unfold string at h0
  split at h0
  · exact ⟨_, rfl⟩
  · exact absurd h0 (by simp)

/-! ### Numbers -/

theorem digits_stop {ds : List Char} (hds : ∀ c ∈ ds, c.isDigit = true) (hne : ds ≠ [])
    {stop : Char} (hstop : stop.isDigit = false) : ReadsBefore digits stop ds ds := by
  intro rest
  have htake : (ds ++ stop :: rest).takeWhile Char.isDigit = ds := by
    rw [List.takeWhile_append_of_pos hds, List.takeWhile_cons_of_neg (by simp [hstop]),
      List.append_nil]
  have hdrop : (ds ++ stop :: rest).dropWhile Char.isDigit = stop :: rest := by
    rw [List.dropWhile_append_of_pos hds, List.dropWhile_cons_of_neg (by simp [hstop])]
  rw [digits, htake, hdrop, if_neg hne]

def EndsNumber (stop : Char) : Prop :=
  stop.isDigit = false ∧ stop ≠ '.' ∧ stop ≠ 'e' ∧ stop ≠ 'E'

theorem unsigned_reads {ds : List Char} (hds : ∀ c ∈ ds, c.isDigit = true) (hne : ds ≠ [])
    (hzero : ds.head? = some '0' → ds = ['0']) {stop : Char} (hstop : EndsNumber stop) :
    ReadsBefore unsigned stop ds ds := by
  intro rest
  have hint : intPart (ds ++ stop :: rest) = some (ds, stop :: rest) := by
    by_cases h0 : ds = ['0']
    · rw [h0]; rfl
    · have hd := digits_stop hds hne hstop.1 rest
      unfold intPart
      split
      · next heq =>
        obtain ⟨c, cs, rfl⟩ := List.exists_cons_of_ne_nil hne
        exact absurd (hzero (by simp_all)) h0
      · exact hd
  have hfrac : fracPart (stop :: rest) = some ([], stop :: rest) := by
    unfold fracPart
    split
    · next heq => exact absurd (List.cons.inj heq).1 hstop.2.1
    · rfl
  have hexp : expPart (stop :: rest) = some ([], stop :: rest) := by
    simp [expPart, hstop.2.2.1, hstop.2.2.2]
  simp [unsigned, hint, hfrac, hexp]

theorem number_reads {ds : List Char} (hds : ∀ c ∈ ds, c.isDigit = true) (hne : ds ≠ [])
    (hzero : ds.head? = some '0' → ds = ['0']) {stop : Char} (hstop : EndsNumber stop) :
    ReadsBefore number stop ds ds := by
  intro rest
  have h := unsigned_reads hds hne hzero hstop rest
  unfold number
  split
  · next heq =>
    obtain ⟨c, cs, rfl⟩ := List.exists_cons_of_ne_nil hne
    obtain ⟨rfl, -⟩ := List.cons.inj heq
    exact absurd (hds '-' List.mem_cons_self) (by decide)
  · exact h

theorem number_neg_reads {ds : List Char} (hds : ∀ c ∈ ds, c.isDigit = true) (hne : ds ≠ [])
    (hzero : ds.head? = some '0' → ds = ['0']) {stop : Char} (hstop : EndsNumber stop) :
    ReadsBefore number stop ('-' :: ds) ('-' :: ds) := by
  intro rest
  change (unsigned (ds ++ stop :: rest)).map _ = _
  rw [unsigned_reads hds hne hzero hstop rest]
  rfl

/-! ### Values -/

theorem value_string {t s : List Char} (h : Reads string t s) (n : ℕ) :
    Reads (value (n + 1)) t (str s) := by
  intro rest
  obtain ⟨u, rfl⟩ := h.quote
  have hr := h rest
  rw [List.cons_append] at hr
  simp [value, skipWs_cons (c := '"') (by decide), hr]

theorem value_string_refuses {u : List Char} (h : Refuses string ('"' :: u)) (n : ℕ) :
    Refuses (value n) ('"' :: u) := by
  intro rest
  cases n with
  | zero => rfl
  | succ n =>
    have hr := h rest
    rw [List.cons_append] at hr
    simp [value, skipWs_cons (c := '"') (by decide), hr]

theorem value_number {c : Char} {t u : List Char} {stop : Char}
    (h : ReadsBefore number stop (c :: t) u) (hc : c.isDigit = true ∨ c = '-') (n : ℕ) :
    ReadsBefore (value (n + 1)) stop (c :: t) (num u) := by
  intro rest
  have hws : isWs c = false := by
    rcases hc with hc | rfl
    · unfold isWs
      simp only [Bool.or_eq_false_iff, decide_eq_false_iff_not]
      refine ⟨⟨⟨?_, ?_⟩, ?_⟩, ?_⟩ <;> rintro rfl <;> exact absurd hc (by decide)
    · rfl
  have hne : ∀ d : Char, d.isDigit = false → d ≠ '-' → c ≠ d := by
    rintro d hd hd' rfl
    rcases hc with hc | hc
    · rw [hd] at hc
      cases hc
    · exact hd' hc
  have hr := h rest
  rw [List.cons_append] at hr
  rw [List.cons_append, value, skipWs_cons hws]
  simp only [if_neg (hne '\x7b' (by decide) (by decide)), if_neg (hne '[' (by decide) (by decide)),
    if_neg (hne '"' (by decide) (by decide)), if_neg (hne 'n' (by decide) (by decide)),
    if_neg (hne 't' (by decide) (by decide)), if_neg (hne 'f' (by decide) (by decide)), hr]
  rfl

theorem toDigits_head (n : ℕ) (h : (Nat.toDigits 10 n).head? = some '0') :
    Nat.toDigits 10 n = ['0'] := by
  induction n using Nat.strongRecOn with
  | _ n ih =>
    by_cases hn : n < 10
    · rw [Nat.toDigits_of_lt_base hn] at h ⊢
      rw [List.head?_cons, Option.some.injEq] at h
      rw [h]
    · -- the digits before the last are those of `n / 10`, which is not zero
      have hdiv : 0 < n / 10 := by omega
      have hsplit := Nat.toDigits_append_toDigits (b := 10) (by omega) hdiv
        (Nat.mod_lt n (by omega))
      rw [Nat.div_add_mod] at hsplit
      rw [← hsplit, List.head?_append_of_ne_nil _ Nat.toDigits_ne_nil] at h
      have h0 := ih (n / 10) (by omega) h
      have hval := congrArg (Nat.ofDigitChars 10 · 0) h0
      rw [Nat.ofDigitChars_ten_toDigits] at hval
      exact absurd hval (by simp [Nat.ofDigitChars]; omega)

theorem value_toDigits (m : ℕ) {stop : Char} (hstop : EndsNumber stop) (n : ℕ) :
    ReadsBefore (value (n + 1)) stop (Nat.toDigits 10 m) (num (Nat.toDigits 10 m)) := by
  have hdigits : ∀ c ∈ Nat.toDigits 10 m, c.isDigit = true :=
    fun c hc => Nat.isDigit_of_mem_toDigits (by omega) (by omega) hc
  have hnum := number_reads hdigits Nat.toDigits_ne_nil (toDigits_head m) hstop
  obtain ⟨c, t, ht⟩ := List.exists_cons_of_ne_nil (Nat.toDigits_ne_nil (n := m) (b := 10))
  rw [ht] at hnum hdigits ⊢
  exact value_number hnum (Or.inl (hdigits c List.mem_cons_self)) n

/-! ### Objects and arrays -/

theorem skipWs_quote {t k : List Char} (h : Reads string t k) (s : List Char) :
    skipWs (t ++ s) = t ++ s := by
  obtain ⟨u, rfl⟩ := h.quote
  exact skipWs_cons (by decide) _

theorem members_cons {n : ℕ} {t k u w : List Char} {v : Json} {ms : List (List Char × Json)}
    (hk : Reads string t k) (hv : ReadsBefore (value n) ',' u v)
    (hms : Reads (members n) w ms) :
    Reads (members (n + 1)) (t ++ ':' :: (u ++ ',' :: w)) ((k, v) :: ms) := by
  intro rest
  have htext : t ++ ':' :: (u ++ ',' :: w) ++ rest = t ++ ':' :: (u ++ ',' :: (w ++ rest)) := by
    simp
  rw [htext, members, skipWs_quote hk, hk]
  simp [skipWs_cons (c := ':') (by decide), skipWs_cons (c := ',') (by decide), hv (w ++ rest),
    hms rest]

theorem members_last {n : ℕ} {t k u : List Char} {v : Json} (hk : Reads string t k)
    (hv : ReadsBefore (value n) '\x7d' u v) :
    Reads (members (n + 1)) (t ++ ':' :: (u ++ ['\x7d'])) [(k, v)] := by
  intro rest
  have htext : t ++ ':' :: (u ++ ['\x7d']) ++ rest = t ++ ':' :: (u ++ '\x7d' :: rest) := by
    simp
  rw [htext, members, skipWs_quote hk, hk]
  simp [skipWs_cons (c := ':') (by decide), skipWs_cons (c := '\x7d') (by decide), hv rest]

theorem members_refuses {t k u : List Char} (hk : Reads string t k)
    (hv : ∀ n, Refuses (value n) u) (n : ℕ) : Refuses (members n) (t ++ ':' :: u) := by
  intro rest
  have htext : t ++ ':' :: u ++ rest = t ++ ':' :: (u ++ rest) := by simp
  cases n with
  | zero => rfl
  | succ n =>
    rw [htext, members, skipWs_quote hk, hk]
    simp [skipWs_cons (c := ':') (by decide), hv n rest]

theorem members_refuses_tail {t k u s w : List Char} (hk : Reads string t k)
    (hv : Reads string u s) (hms : ∀ n, Refuses (members n) w) (n : ℕ) :
    Refuses (members n) (t ++ ':' :: (u ++ ',' :: w)) := by
  intro rest
  have htext : t ++ ':' :: (u ++ ',' :: w) ++ rest = t ++ ':' :: (u ++ ',' :: (w ++ rest)) := by
    simp
  cases n with
  | zero => rfl
  | succ n =>
    rw [htext, members, skipWs_quote hk, hk]
    cases n with
    | zero => simp [skipWs_cons (c := ':') (by decide), value]
    | succ n =>
      simp [skipWs_cons (c := ':') (by decide), skipWs_cons (c := ',') (by decide),
        value_string hv n (',' :: (w ++ rest)), hms (n + 1) rest]

theorem value_obj {n : ℕ} {t k u : List Char} {ms : List (List Char × Json)}
    (hk : Reads string t k) (hms : Reads (members n) (t ++ u) ms) :
    Reads (value (n + 1)) ('\x7b' :: (t ++ u)) (obj ms) := by
  intro rest
  have hr := hms rest
  obtain ⟨w, rfl⟩ := hk.quote
  simp only [List.cons_append, List.append_assoc] at hr
  simp [value, skipWs_cons (c := '\x7b') (by decide), skipWs_cons (c := '"') (by decide), hr]

theorem value_obj_refuses {t k u : List Char} (hk : Reads string t k)
    (hms : ∀ n, Refuses (members n) (t ++ u)) (n : ℕ) :
    Refuses (value n) ('\x7b' :: (t ++ u)) := by
  intro rest
  cases n with
  | zero => rfl
  | succ n =>
    have hr := hms n rest
    obtain ⟨w, rfl⟩ := hk.quote
    simp only [List.cons_append, List.append_assoc] at hr
    simp [value, skipWs_cons (c := '\x7b') (by decide), skipWs_cons (c := '"') (by decide), hr]

theorem elements_cons {n : ℕ} {t u : List Char} {v : Json} {vs : List Json}
    (hv : Reads (value n) t v) (hvs : Reads (elements n) u vs) :
    Reads (elements (n + 1)) (t ++ ',' :: u) (v :: vs) := by
  intro rest
  have htext : t ++ ',' :: u ++ rest = t ++ ',' :: (u ++ rest) := by simp
  rw [htext, elements, hv]
  simp [skipWs_cons (c := ',') (by decide), hvs rest]

theorem elements_last {n : ℕ} {t : List Char} {v : Json} (hv : Reads (value n) t v) :
    Reads (elements (n + 1)) (t ++ [']']) [v] := by
  intro rest
  have htext : t ++ [']'] ++ rest = t ++ ']' :: rest := by simp
  rw [htext, elements, hv]
  simp [skipWs_cons (c := ']') (by decide)]

theorem elements_refuses {t : List Char} (ht : ∀ n, Refuses (value n) t) (n : ℕ) :
    Refuses (elements n) t := by
  intro rest
  cases n with
  | zero => rfl
  | succ n => rw [elements, ht n]

theorem elements_refuses_tail {n : ℕ} {t u : List Char} {v : Json} (hv : Reads (value n) t v)
    (hvs : Refuses (elements n) u) : Refuses (elements (n + 1)) (t ++ ',' :: u) := by
  intro rest
  have htext : t ++ ',' :: u ++ rest = t ++ ',' :: (u ++ rest) := by simp
  rw [htext, elements, hv]
  simp [skipWs_cons (c := ',') (by decide), hvs rest]

theorem elements_intercalate {α : Type} {f : α → List Char} {g : α → Json} {m : ℕ} {as : List α}
    (hne : as ≠ []) (hread : ∀ a ∈ as, ∀ n, m ≤ n → Reads (value n) (f a) (g a)) {n : ℕ}
    (hn : m + as.length ≤ n) :
    Reads (elements n) ([','].intercalate (as.map f) ++ [']']) (as.map g) := by
  induction as generalizing n with
  | nil => exact absurd rfl hne
  | cons a as ih =>
    rw [List.length_cons] at hn
    obtain ⟨n', rfl⟩ := Nat.exists_eq_add_one.mpr (show 0 < n by omega)
    have ha := hread a List.mem_cons_self n' (by omega)
    cases as with
    | nil => simpa [List.intercalate] using elements_last ha
    | cons b bs =>
      have hrest := ih (List.cons_ne_nil _ _) (fun c hc => hread c (List.mem_cons_of_mem a hc))
        (n := n') (by omega)
      simpa [List.intercalate] using elements_cons ha hrest

theorem elements_intercalate_refuses {α : Type} {f : α → List Char} {g : α → Json} {m : ℕ}
    {as : List α}
    (hread : ∀ a ∈ as, (∀ n, m ≤ n → Reads (value n) (f a) (g a)) ∨ ∀ n, Refuses (value n) (f a))
    (hbad : ∃ a ∈ as, ∀ n, Refuses (value n) (f a)) {n : ℕ} (hn : m + as.length ≤ n)
    (tail : List Char) :
    Refuses (elements n) ([','].intercalate (as.map f) ++ tail) := by
  induction as generalizing n with
  | nil => exact absurd hbad (by simp)
  | cons a as ih =>
    rw [List.length_cons] at hn
    obtain ⟨n', rfl⟩ := Nat.exists_eq_add_one.mpr (show 0 < n by omega)
    by_cases ha : ∀ n, Refuses (value n) (f a)
    · cases as with
      | nil => simpa [List.intercalate] using (elements_refuses ha (n' + 1)).append tail
      | cons b bs =>
        simpa [List.intercalate] using (elements_refuses ha (n' + 1)).append
          (',' :: ([','].intercalate ((b :: bs).map f) ++ tail))
    · have hra := (hread a List.mem_cons_self).resolve_right ha n' (by omega)
      have hbad' : ∃ b ∈ as, ∀ n, Refuses (value n) (f b) := by
        obtain ⟨b, hb, hbbad⟩ := hbad
        rcases List.mem_cons.mp hb with rfl | hb
        · exact absurd hbbad ha
        · exact ⟨b, hb, hbbad⟩
      cases as with
      | nil => exact absurd hbad' (by simp)
      | cons b bs =>
        have hrest := ih (fun c hc => hread c (List.mem_cons_of_mem a hc)) hbad' (n := n')
          (by omega)
        simpa [List.intercalate] using elements_refuses_tail hra hrest

/-! ### Complete texts -/

theorem parse_arr {c : Char} {t : List Char} {vs : List Json} (hws : isWs c = false) (hc : c ≠ ']')
    (h : Reads (elements (t.length + 2)) (c :: t) vs) : parse ('[' :: c :: t) = some (arr vs) := by
  have hr := h []
  rw [List.append_nil] at hr
  simp [parse, value, skipWs_cons (c := '[') (by decide), skipWs_cons hws, hc, hr, skipWs_nil]

theorem parse_arr_refuses {c : Char} {t : List Char} (hws : isWs c = false) (hc : c ≠ ']')
    (h : Refuses (elements (t.length + 2)) (c :: t)) : parse ('[' :: c :: t) = none := by
  have hr := h []
  rw [List.append_nil] at hr
  simp [parse, value, skipWs_cons (c := '[') (by decide), skipWs_cons hws, hc, hr]

theorem parse_reads {t : List Char} {v : Json} (h : Reads (value (t.length + 1)) t v) :
    parse t = some v := by
  have hr := h []
  rw [List.append_nil] at hr
  unfold parse
  rw [hr]
  rfl

theorem parse_arr_nil : parse ['[', ']'] = some (arr []) := rfl

end Json

end LibRustdesk
