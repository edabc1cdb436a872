import LibRustdesk.Framework.KeyedMap

/-!
# The options of the configuration

`get_options`, `set_options`, `get_option` and `set_option` of `Config`, of
`libs/hbb_common/src/config.rs`, with `get_or`, `is_option_can_save` and `purify_options`.

An option is looked up in three maps: what a custom client overwrites, what the user has set, and
the defaults. Only the second one is kept. What would not be seen in it is not stored: a value under
an overwritten key, or the one that is the default anyway.

An empty value is different for the two that write. `set_option` takes it for no value, so the
default is back; `set_options` keeps the map as it is given, and the empty value hides the default.

* `Config2.getOption_setOptions` — what `purify_options` leaves out is not seen.
* `Config2.getOption_setOption` — what is read after one key is written.
* `Config2.same_iff` — when the two are the same to every reader: unless a default is to be replaced
  by the empty value.
* `Config2.options_agree` — **both ways to read agree, and both ways to write, but for that**.
-/

namespace LibRustdesk

/-- `OVERWRITE_SETTINGS` and `DEFAULT_SETTINGS`. -/
structure Settings where
  overwrite : KeyedMap String String
  defaults : KeyedMap String String

def isOptionCanSave (s : Settings) (k v : String) : Bool :=
  if (s.overwrite.lookup k).isSome ∨ s.defaults.lookup k = some v then false else true

def getOr (a b c : KeyedMap String String) (k : String) : Option String :=
  ((a.lookup k).or (b.lookup k)).or (c.lookup k)

/-- `Config2`, of which only the options matter here, and what its file has for them. -/
structure Config2 where
  options : KeyedMap String String
  file : KeyedMap String String

namespace Config2

variable (s : Settings) (c : Config2)

def store : Config2 := { c with file := c.options }

def getOptions : KeyedMap String String :=
  (s.defaults.extend c.options).extend s.overwrite

def purifyOptions (v : KeyedMap String String) : KeyedMap String String :=
  v.retain fun k v => isOptionCanSave s k v

def setOptions (v : KeyedMap String String) : Config2 :=
  let v := purifyOptions s v
  if c.options.equal v then c else store { c with options := v }

def getOption (k : String) : String :=
  (getOr s.overwrite c.options s.defaults k).getD ""

def setOption (k v : String) : Config2 :=
  if !isOptionCanSave s k v then
    if (c.options.lookup k).isSome then store { c with options := c.options.erase k } else c
  else
    let v2 := if v = "" then none else some v
    if v2 ≠ c.options.lookup k then
      if v2 = none then store { c with options := c.options.erase k }
      else store { c with options := c.options.insert k v }
    else c

/-- What a reader sees of a key, by what the three maps have for it. -/
def seen (overwritten own default : Option String) : String :=
  ((overwritten.or own).or default).getD ""

def HidesDefault (k v : String) : Prop :=
  v = "" ∧ s.overwrite.lookup k = none ∧ ∃ d, s.defaults.lookup k = some d ∧ d ≠ ""

variable {s c}

/-! ### Reading -/

theorem getOption_eq (k : String) :
    c.getOption s k = seen (s.overwrite.lookup k) (c.options.lookup k) (s.defaults.lookup k) := rfl

theorem seen_overwritten (v : String) (own default : Option String) :
    seen (some v) own default = v := rfl

theorem seen_filter (k : String) (own : Option String) :
    seen (s.overwrite.lookup k) (own.filter fun v => isOptionCanSave s k v) (s.defaults.lookup k) =
      seen (s.overwrite.lookup k) own (s.defaults.lookup k) := by
  cases hover : s.overwrite.lookup k with
  | some w => rw [seen_overwritten, seen_overwritten]
  | none =>
    cases own with
    | none => rfl
    | some v =>
      rw [Option.filter_some]
      cases hsave : isOptionCanSave s k v with
      | true => rw [if_pos rfl]
      | false =>
        -- only the default itself is left out, and then it is seen instead
        have hdefault : s.defaults.lookup k = some v := by
          simpa [isOptionCanSave, hover] using hsave
        rw [hdefault]
        rfl

theorem getOptions_eq_getOption (k : String) :
    ((c.getOptions s).lookup k).getD "" = c.getOption s k := by
  unfold getOptions getOption getOr
  rw [KeyedMap.lookup_extend, KeyedMap.lookup_extend, Option.or_assoc]

/-! ### Writing -/

theorem lookup_setOptions (v : KeyedMap String String) (j : String) :
    (c.setOptions s v).options.lookup j = (v.lookup j).filter fun v => isOptionCanSave s j v := by
  have hpurified : (purifyOptions s v).lookup j =
      (v.lookup j).filter fun v => isOptionCanSave s j v := KeyedMap.lookup_retain _ v j
  rw [← hpurified]
  unfold setOptions
  dsimp only
  split
  · next hequal => exact KeyedMap.lookup_eq_of_equal hequal j
  · rfl

theorem getOption_setOptions (v : KeyedMap String String) (j : String) :
    (c.setOptions s v).getOption s j =
      seen (s.overwrite.lookup j) (v.lookup j) (s.defaults.lookup j) := by
  rw [getOption_eq, lookup_setOptions, seen_filter]

/-- What `set_option` keeps under its key. -/
def kept (s : Settings) (k v : String) : Option String :=
  if isOptionCanSave s k v = true ∧ v ≠ "" then some v else none

theorem setOption_cases (k v : String) :
    ((c.setOption s k v).options = c.options.erase k ∧ kept s k v = none) ∨
    ((c.setOption s k v).options = c.options.insert k v ∧ kept s k v = some v) ∨
    ((c.setOption s k v).options = c.options ∧ c.options.lookup k = kept s k v) := by
  unfold setOption kept
  cases isOptionCanSave s k v with
  | false =>
    by_cases hown : (c.options.lookup k).isSome
    · exact .inl ⟨by simp [hown, store], by simp⟩
    · exact .inr (.inr ⟨by simp [hown], by simpa using hown⟩)
  | true =>
    by_cases hempty : v = ""
    · by_cases hown : c.options.lookup k = none
      · exact .inr (.inr ⟨by simp [hempty, hown], by simp [hempty, hown]⟩)
      · exact .inl ⟨by simp [hempty, Ne.symm hown, store], by simp [hempty]⟩
    · by_cases hown : c.options.lookup k = some v
      · exact .inr (.inr ⟨by simp [hempty, hown], by simp [hempty, hown]⟩)
      · exact .inr (.inl ⟨by simp [hempty, Ne.symm hown, store], by simp [hempty]⟩)

variable (k v j : String)

theorem lookup_setOption :
    (c.setOption s k v).options.lookup j = if j = k then kept s k v else c.options.lookup j := by
  obtain ⟨heq, hkept⟩ | ⟨heq, hkept⟩ | ⟨heq, hkept⟩ := setOption_cases (s := s) (c := c) k v
  · rw [heq]
    by_cases hj : j = k
    · rw [if_pos hj, hj, AList.lookup_erase, hkept]
    · rw [if_neg hj, AList.lookup_erase_ne hj]
  · rw [heq]
    by_cases hj : j = k
    · rw [if_pos hj, hj, AList.lookup_insert, hkept]
    · rw [if_neg hj, AList.lookup_insert_ne hj]
  · rw [heq]
    by_cases hj : j = k
    · rw [if_pos hj, hj, hkept]
    · rw [if_neg hj]

theorem kept_eq (k v : String) :
    kept s k v = (if v = "" then none else some v).filter fun v => isOptionCanSave s k v := by
  unfold kept
  by_cases hempty : v = ""
  · simp [hempty]
  · simp [hempty, Option.filter_some]

theorem getOption_setOption :
    (c.setOption s k v).getOption s j =
      if j = k then
        seen (s.overwrite.lookup k) (if v = "" then none else some v) (s.defaults.lookup k)
      else c.getOption s j := by
  rw [getOption_eq, lookup_setOption]
  by_cases hj : j = k
  · rw [if_pos hj, if_pos hj, hj, kept_eq, seen_filter]
  · rw [if_neg hj, if_neg hj, getOption_eq]

/-! ### The file -/

/-! ### The two ways -/

/-- The two ways to write a key, as a reader sees them. -/
def Same (s : Settings) (c : Config2) (k v : String) : Prop :=
  ∀ j, (c.setOption s k v).getOption s j =
    (c.setOptions s (c.options.insert k v)).getOption s j

theorem getOption_setOptions_insert :
    (c.setOptions s (c.options.insert k v)).getOption s j =
      if j = k then seen (s.overwrite.lookup k) (some v) (s.defaults.lookup k)
      else c.getOption s j := by
  rw [getOption_setOptions]
  by_cases hj : j = k
  · subst hj
    rw [AList.lookup_insert, if_pos rfl]
  · rw [AList.lookup_insert_ne hj, if_neg hj, getOption_eq]

theorem same_iff (k v : String) : Same s c k v ↔ ¬ HidesDefault s k v := by
  have hself : Same s c k v ↔
      seen (s.overwrite.lookup k) (if v = "" then none else some v) (s.defaults.lookup k) =
        seen (s.overwrite.lookup k) (some v) (s.defaults.lookup k) := by
    unfold Same
    simp only [getOption_setOption, getOption_setOptions_insert]
    constructor
    · intro h
      simpa using h k
    · intro h j
      rw [h]
  rw [hself]
  unfold HidesDefault
  by_cases hempty : v = ""
  · subst hempty
    cases s.overwrite.lookup k with
    | some w => simp [seen]
    | none =>
      cases s.defaults.lookup k with
      | none => simp [seen]
      | some d => simp [seen]
  · simp [hempty]

/-- **Both ways to read agree. Both ways to write leave the overwritten keys and all others alone,
and agree unless the empty value would hide a default, which `set_option` brings back.** -/
theorem options_agree (s : Settings) (c : Config2) :
    (∀ k, ((c.getOptions s).lookup k).getD "" = c.getOption s k) ∧
    ∀ k v,
      (Same s c k v ↔ ¬ HidesDefault s k v) ∧
      (HidesDefault s k v →
        some ((c.setOption s k v).getOption s k) = s.defaults.lookup k) ∧
      (∀ j w, s.overwrite.lookup j = some w →
        (c.setOption s k v).getOption s j = w ∧
          (c.setOptions s (c.options.insert k v)).getOption s j = w) ∧
      ∀ j, j ≠ k →
        (c.setOption s k v).getOption s j = c.getOption s j ∧
          (c.setOptions s (c.options.insert k v)).getOption s j = c.getOption s j := by
  refine ⟨getOptions_eq_getOption, fun k v => ⟨same_iff k v, ?_, ?_, ?_⟩⟩
  · rintro ⟨hempty, hover, d, hdefault, _⟩
    rw [getOption_setOption, if_pos rfl, if_pos hempty, hover, hdefault]
    rfl
  · intro j w hover
    have hseen : ∀ c : Config2, c.getOption s j = w := by
      intro c
      rw [getOption_eq, hover, seen_overwritten]
    exact ⟨hseen _, hseen _⟩
  · intro j hj
    rw [getOption_setOption, getOption_setOptions_insert, if_neg hj, if_neg hj]
    exact ⟨rfl, rfl⟩

/-- A client whose server is fixed, and whose updates are on unless the user says otherwise. -/
def fixedServer : Settings :=
  ⟨AList.singleton "server" "hbbs", AList.singleton "updates" "Y"⟩

theorem options_agree_fixedServer :
    ((Config2.mk ∅ ∅).setOption fixedServer "updates" "").getOption fixedServer "updates" = "Y" ∧
    ((Config2.mk ∅ ∅).setOption fixedServer "updates" "").getOption fixedServer "server" = "hbbs" ∧
    ((Config2.mk ∅ ∅).setOption fixedServer "updates" "").getOption fixedServer "other" = "" := by
  obtain ⟨-, hwrite⟩ := options_agree fixedServer ⟨∅, ∅⟩
  obtain ⟨-, hdefault, hover, hothers⟩ := hwrite "updates" ""
  have hhides : HidesDefault fixedServer "updates" "" :=
    ⟨rfl, by decide, "Y", by decide, by decide⟩
  refine ⟨?_, (hover "server" "hbbs" (by decide)).1, ?_⟩
  · have hlookup : fixedServer.defaults.lookup "updates" = some "Y" := by decide
    exact Option.some.inj ((hdefault hhides).trans hlookup)
  · exact (hothers "other" (by decide)).1.trans (by decide)

/-- The default is back when `set_option` writes the empty value, and hidden when `set_options`
does. -/
theorem not_same_updates : ¬ Same fixedServer ⟨∅, ∅⟩ "updates" "" := by
  intro h
  have hupdates := h "updates"
  revert hupdates
  decide

end Config2

end LibRustdesk
