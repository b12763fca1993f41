/-
# Names without gaps

A gap is a character that separates words and is no underscore: a hyphen or white space. No letter,
digit or underscore is a gap, and turning a character into upper or lower case makes no gap, which
is checked once on the tables of intervals. So a name that is an identifier, or put together from
identifiers, is solid: it is not empty and has no gap. What the rules for names make of a solid name
is blank in one case only, when a case style finds nothing but underscores in it.

Key definitions: `isGap`, `IsSolid`, `IsUnderscores`.
Key theorems: `isGap_of_isNameChar`, `upperOf_solid`, `lowerOf_solid`,
`isGap_of_mem_namesOfArgs`, `isBlankText_typeName`, `isBlankText_inCase_iff`,
`isBlankText_valueName_iff`.
-/
import GoSchema.Catalog.Instance
import GoSchema.Proofs.ReadNames

namespace GoSchema

open Unicode Name Source

namespace Name

/-- A character that separates words and is no underscore. -/
def isGap (c : Char) : Bool := c = '-' || isBlank c

/-- A name that is not empty and has no gap. -/
def IsSolid (name : String) : Prop := name.toList ≠ [] ∧ ∀ c ∈ name.toList, isGap c = false

/-- A text of underscores only. -/
def IsUnderscores (s : List Char) : Prop := ∀ c ∈ s, c = '_'

theorem isSeparator_iff {c : Char} : isSeparator c = true ↔ c = '_' ∨ isGap c = true := by
  simp [isSeparator, isGap, or_assoc]

theorem isGap_of_isBlank {c : Char} (h : isBlank c = true) : isGap c = true := by
  simp [isGap, h]

theorem not_isGap_of_all {s : List Char} (h : s.all (!isGap ·) = true) :
    ∀ c ∈ s, isGap c = false := by
  simpa using h

theorem isBlankText_eq_false {s : List Char} {c : Char} (hc : c ∈ s) (hgap : isGap c = false) :
    Text.isBlankText s = false := by
  refine Bool.eq_false_iff.2 fun hblank => ?_
  have := isGap_of_isBlank (List.all_eq_true.1 hblank c hc)
  rw [hgap] at this
  exact nomatch this

theorem isBlankText_of_solid {s : List Char} (hne : s ≠ []) (hgap : ∀ c ∈ s, isGap c = false) :
    Text.isBlankText s = false := by
  obtain ⟨c, rest, rfl⟩ := List.exists_cons_of_ne_nil hne
  exact isBlankText_eq_false (c := c) (by simp) (hgap c (by simp))

end Name

/-! ### Gaps -/

namespace Unicode

/-- The code points of gaps. -/
def gapSpans : List (Nat × Nat) := (45, 45) :: blankSpans

theorem isGap_eq (c : Char) : isGap c = inSpans gapSpans c.toNat := by
  have hyphen : (c = '-') ↔ (45 ≤ c.toNat ∧ c.toNat ≤ 45) := by
    constructor
    · rintro rfl
      decide
    · rintro ⟨hge, hle⟩
      have hval : c.toNat = '-'.toNat := Nat.le_antisymm hle hge
      exact Char.toNat_inj.1 hval
  simp [isGap, isBlank, gapSpans, inSpans, hyphen]

/-- Whether no interval of the first list meets one of the second. -/
def areApart (spans others : List (Nat × Nat)) : Bool :=
  spans.all fun a => others.all fun b => a.2 < b.1 || b.2 < a.1

theorem inSpans_of_areApart {spans others : List (Nat × Nat)} (h : areApart spans others = true)
    {n : Nat} (hn : inSpans spans n = true) : inSpans others n = false := by
  obtain ⟨a, ha, hna⟩ := List.any_eq_true.1 hn
  refine List.any_eq_false.2 fun b hb hnb => ?_
  have hab := List.all_eq_true.1 (List.all_eq_true.1 h a ha) b hb
  simp only [Bool.and_eq_true, Bool.or_eq_true, decide_eq_true_eq] at hna hnb hab
  omega

theorem isGap_ofNat {n : Nat} (h : inSpans gapSpans n = false) : isGap (Char.ofNat n) = false := by
  by_cases hn : n.isValidChar
  · have hcode : (Char.ofNat n).toNat = n := by
      rw [Char.ofNat, dif_pos hn]
      rfl
    rwa [isGap_eq, hcode]
  · have hzero : Char.ofNat n = ⟨0, by decide⟩ := by
      rw [Char.ofNat, dif_neg hn]
      rfl
    rw [hzero]
    decide

theorem letterSpans_apart : areApart letterSpans gapSpans = true := by decide +kernel

theorem decimalDigitSpans_apart : areApart decimalDigitSpans gapSpans = true := by decide +kernel

theorem alphanumericSpans_apart : areApart alphanumericSpans gapSpans = true := by decide +kernel

/-- No character of an identifier is a gap. -/
theorem isGap_of_isNameChar {c : Char} (h : isNameChar c = true) : isGap c = false := by
  by_cases hascii : c.toNat < 128
  · revert h
    exact forall_ascii (P := fun c => isNameChar c = true → isGap c = false) (by decide) hascii
  · simp only [isNameChar, isLetter, isDecimalDigit, hascii, if_false, Bool.or_eq_true,
      decide_eq_true_eq] at h
    rcases h with (h | h) | rfl
    · rw [isGap_eq, inSpans_of_areApart letterSpans_apart h]
    · rw [isGap_eq, inSpans_of_areApart decimalDigitSpans_apart h]
    · decide

theorem isGap_of_isAlphanumeric {c : Char} (h : isAlphanumeric c = true) : isGap c = false := by
  by_cases hascii : c.toNat < 128
  · revert h
    exact forall_ascii (P := fun c => isAlphanumeric c = true → isGap c = false) (by decide) hascii
  · simp only [isAlphanumeric, hascii, if_false] at h
    rw [isGap_eq, inSpans_of_areApart alphanumericSpans_apart h]

/-- The intervals that the runs of a table of shifts go to. -/
def targetSpans (shifts : List (Nat × Nat × Nat × Int)) : List (Nat × Nat) :=
  shifts.map fun (first, last, _, offset) =>
    ((Int.ofNat first + offset).toNat, (Int.ofNat last + offset).toNat)

theorem inSpans_targetSpans {shifts : List (Nat × Nat × Nat × Int)} {n code : Nat}
    (h : shifted shifts n = some code) : inSpans (targetSpans shifts) code = true := by
  obtain ⟨⟨first, last, step, offset⟩, hfind, rfl⟩ := Option.map_eq_some_iff.1 h
  have hrun := List.find?_some hfind
  simp only [inRun, Bool.and_eq_true, decide_eq_true_eq] at hrun
  refine List.any_eq_true.2 ⟨_, List.mem_map_of_mem (List.mem_of_find?_eq_some hfind), ?_⟩
  simp only [Bool.and_eq_true, decide_eq_true_eq, Int.ofNat_eq_natCast]
  omega

/-- Whether every expansion of a table is a text without gaps. -/
def areSolid (expansions : List (Nat × List Nat)) : Bool :=
  expansions.all fun (_, codes) => !codes.isEmpty && codes.all fun n => !inSpans gapSpans n

theorem mapped_solid {expansions : List (Nat × List Nat)} {shifts : List (Nat × Nat × Nat × Int)}
    (hexpansions : areSolid expansions = true)
    (hshifts : areApart (targetSpans shifts) gapSpans = true)
    {c : Char} (hc : isGap c = false) :
    mapped expansions shifts c ≠ [] ∧ ∀ d ∈ mapped expansions shifts c, isGap d = false := by
  unfold mapped
  split
  · rename_i codes hlookup
    have hmem := Pointwise.mem_of_lookup hlookup
    have hsolid := List.all_eq_true.1 hexpansions _ hmem
    simp only [Bool.and_eq_true, Bool.not_eq_true', List.isEmpty_eq_false_iff,
      List.all_eq_true] at hsolid
    refine ⟨by simpa using hsolid.1, fun d hd => ?_⟩
    obtain ⟨n, hn, rfl⟩ := List.mem_map.1 hd
    exact isGap_ofNat (hsolid.2 n hn)
  · split
    · rename_i code hcode
      refine ⟨by simp, fun d hd => ?_⟩
      obtain rfl := List.mem_singleton.1 hd
      exact isGap_ofNat (inSpans_of_areApart hshifts (inSpans_targetSpans hcode))
    · exact ⟨by simp, by simpa using hc⟩

theorem upperTables_solid :
    areSolid upperExpansions = true ∧ areApart (targetSpans upperShifts) gapSpans = true := by
  decide +kernel

theorem lowerTables_solid :
    areSolid lowerExpansions = true ∧ areApart (targetSpans lowerShifts) gapSpans = true := by
  decide +kernel

/-- **Upper case makes no gap**, and no character is lost. -/
theorem upperOf_solid {c : Char} (hc : isGap c = false) :
    upperOf c ≠ [] ∧ ∀ d ∈ upperOf c, isGap d = false := by
  by_cases hascii : c.toNat < 128
  · rw [upperOf_of_ascii hascii]
    refine ⟨by simp, List.forall_mem_singleton.2 ?_⟩
    revert hc
    exact forall_ascii (P := fun c => isGap c = false → isGap (asciiUpperOf c) = false) (by decide)
      hascii
  · rw [upperOf, if_neg hascii]
    exact mapped_solid upperTables_solid.1 upperTables_solid.2 hc

/-- **Lower case makes no gap**, and no character is lost. -/
theorem lowerOf_solid {c : Char} (hc : isGap c = false) :
    lowerOf c ≠ [] ∧ ∀ d ∈ lowerOf c, isGap d = false := by
  by_cases hascii : c.toNat < 128
  · rw [lowerOf_of_ascii hascii]
    refine ⟨by simp, List.forall_mem_singleton.2 ?_⟩
    revert hc
    exact forall_ascii (P := fun c => isGap c = false → isGap (asciiLowerOf c) = false) (by decide)
      hascii
  · rw [lowerOf, if_neg hascii]
    exact mapped_solid lowerTables_solid.1 lowerTables_solid.2 hc

/-- A text without gaps starts with no gap in lower case, and does not become empty. -/
theorem lowerText_cons_solid {c : Char} (hc : isGap c = false) (rest : List Char) :
    ∃ d ∈ lowerText (c :: rest), isGap d = false := by
  rw [lowerText, lowerTextAfter]
  by_cases hsigma : c = 'Σ'
  · rw [if_pos hsigma]
    split
    · exact ⟨'ς', by simp, by decide⟩
    · exact ⟨'σ', by simp, by decide⟩
  · rw [if_neg hsigma]
    obtain ⟨d, hd⟩ := List.exists_mem_of_ne_nil _ (lowerOf_solid hc).1
    exact ⟨d, List.mem_append_left _ hd, (lowerOf_solid hc).2 d hd⟩

end Unicode

/-! ### Names put together from names -/

namespace Name

theorem IsIdentifier.isSolid {name : String} (h : IsIdentifier name.toList) : IsSolid name := by
  obtain ⟨⟨c, hc, -⟩, hchars⟩ := h
  refine ⟨?_, fun d hd => isGap_of_isNameChar (hchars d hd)⟩
  rintro hnil
  rw [hnil] at hc
  exact nomatch hc

theorem isSolid_of_isConstName {name : String} (h : IsConstName name) : IsSolid name := by
  rcases h with h | rfl
  · exact h.isSolid
  · exact ⟨by decide, not_isGap_of_all (by decide)⟩

theorem IsSolid.not_blank {name : String} (h : IsSolid name) :
    Text.isBlankText name.toList = false :=
  isBlankText_of_solid h.1 h.2

theorem IsSolid.append {name more : String} (h : IsSolid name)
    (hmore : ∀ c ∈ more.toList, isGap c = false) : IsSolid (name ++ more) := by
  refine ⟨by simp [h.1], fun c hc => ?_⟩
  rw [String.toList_append] at hc
  exact (List.mem_append.1 hc).elim (h.2 c) (hmore c)

theorem isGap_of_mem_listedName {base : String} (h : ∀ c ∈ base.toList, isGap c = false)
    {lists : Nat} : ∀ c ∈ (listedName base lists).toList, isGap c = false := by
  intro c hc
  rw [listedName, String.toList_ofList] at hc
  rcases List.mem_append.1 hc with hc | hc
  · cases hbase : base.toList with
    | nil =>
      rw [hbase] at hc
      exact absurd hc List.not_mem_nil
    | cons first rest =>
      rw [hbase] at hc h
      rcases List.mem_append.1 hc with hc | hc
      · exact (upperOf_solid (h first (by simp))).2 c hc
      · exact h c (List.mem_cons_of_mem _ hc)
  · obtain ⟨text, htext, hc⟩ := List.mem_flatten.1 hc
    obtain rfl := List.eq_of_mem_replicate htext
    exact not_isGap_of_all (by decide) c hc

end Name

mutual

theorem isGap_of_mem_nameOfArg : ∀ (t : GoType) (lists : Nat), t.AllNames IsSolid →
    ∀ c ∈ (nameOfArg lists t).toList, isGap c = false
  | .pointer t, lists, h => by
    rw [nameOfArg]
    exact isGap_of_mem_nameOfArg t lists h
  | .slice t, lists, h | .array t, lists, h => by
    rw [nameOfArg]
    exact isGap_of_mem_nameOfArg t (lists + 1) h
  | .named package qualifier name args, lists, h => by
    rw [nameOfArg]
    refine isGap_of_mem_listedName fun c hc => ?_
    rw [String.toList_append] at hc
    exact (List.mem_append.1 hc).elim (h.1.2 c) (isGap_of_mem_namesOfArgs args h.2 c)
  | .map k v, lists, h => by
    rw [nameOfArg]
    exact isGap_of_mem_listedName (not_isGap_of_all (by decide))
  | .any, lists, h => by
    rw [nameOfArg]
    exact isGap_of_mem_listedName (not_isGap_of_all (by decide))
  | .other text, lists, h => by
    rw [nameOfArg]
    refine isGap_of_mem_listedName fun c hc => ?_
    rw [String.toList_ofList] at hc
    exact isGap_of_isAlphanumeric (List.mem_filter.1 hc).2

/-- **What type arguments add to a name has no gap**, where the names in them are solid. -/
theorem isGap_of_mem_namesOfArgs : ∀ ts : List GoType, GoType.AllNamesIn IsSolid ts →
    ∀ c ∈ (namesOfArgs ts).toList, isGap c = false
  | [], _ => by simp [namesOfArgs]
  | t :: ts, h => by
    intro c hc
    rw [namesOfArgs, String.toList_append] at hc
    exact (List.mem_append.1 hc).elim (isGap_of_mem_nameOfArg t 0 h.1 c)
      (isGap_of_mem_namesOfArgs ts h.2 c)

end

/-! ### Blank names of blocks, fields and values -/

namespace Name

theorem withoutTail_ne_nil {tails : List (List Char)} {name : List Char} (h : name ≠ []) :
    withoutTail tails name ≠ [] := by
  unfold withoutTail
  cases hf : (tails.filter (!·.isEmpty)).findSome? fun tail =>
      (Text.dropTrailing? tail name).filter (!·.isEmpty) with
  | none => exact h
  | some rest =>
    obtain ⟨tail, -, ht⟩ := List.exists_of_findSome?_eq_some hf
    simpa using (Option.filter_eq_some_iff.1 ht).2

theorem mem_of_mem_withoutLead {leads : List (List Char)} {name : List Char} {c : Char}
    (h : c ∈ withoutLead leads name) : c ∈ name := by
  unfold withoutLead at h
  cases hf : (leads.filter (!·.isEmpty)).findSome? fun lead =>
      (Text.dropLeading? lead name).filter (!·.isEmpty) with
  | none =>
    rw [hf] at h
    exact h
  | some rest =>
    rw [hf] at h
    obtain ⟨lead, -, hl⟩ := List.exists_of_findSome?_eq_some hf
    rw [Text.dropLeading?_eq_some_iff.1 (Option.filter_eq_some_iff.1 hl).1]
    exact List.mem_append_right _ h

theorem mem_of_mem_withoutTail {tails : List (List Char)} {name : List Char} {c : Char}
    (h : c ∈ withoutTail tails name) : c ∈ name := by
  unfold withoutTail at h
  cases hf : (tails.filter (!·.isEmpty)).findSome? fun tail =>
      (Text.dropTrailing? tail name).filter (!·.isEmpty) with
  | none =>
    rw [hf] at h
    exact h
  | some rest =>
    rw [hf] at h
    obtain ⟨tail, -, ht⟩ := List.exists_of_findSome?_eq_some hf
    rw [Text.dropTrailing?_eq_some_iff.1 (Option.filter_eq_some_iff.1 ht).1]
    exact List.mem_append_left _ h

/-- A prefix and a suffix are cut off so that a solid name stays. -/
theorem isSolid_stripped (rules : NamingRules) {goName : String} (h : IsSolid goName) :
    IsSolid (stripped rules goName) := by
  refine ⟨?_, fun c hc => ?_⟩
  · rw [stripped, String.toList_ofList]
    exact withoutTail_ne_nil (withoutLead_ne_nil h.1)
  · rw [stripped, String.toList_ofList] at hc
    exact h.2 c (mem_of_mem_withoutLead (mem_of_mem_withoutTail hc))

/-- **A derived name of a block is never blank.** -/
theorem isBlankText_typeName (rules : NamingRules) {goName : String} (h : IsSolid goName)
    (kind : BlockKind) : Text.isBlankText (typeName rules goName none kind).toList = false := by
  obtain ⟨hne, hgap⟩ := isSolid_stripped rules h
  obtain ⟨c, hc⟩ := List.exists_mem_of_ne_nil _ hne
  refine isBlankText_eq_false (c := c) ?_ (hgap c hc)
  cases kind <;> simp [typeName, hc]

/-- **A name of a block is blank just where a blank one is given by hand.** -/
theorem isBlankText_typeName_iff (rules : NamingRules) {goName : String} (h : IsSolid goName)
    (custom : Option String) (kind : BlockKind) :
    Text.isBlankText (typeName rules goName custom kind).toList = true ↔
      ∃ name, custom = some name ∧ Text.isBlankText name.toList = true := by
  cases custom with
  | none => simp [isBlankText_typeName rules h]
  | some name => simp [typeName]

/-! Case styles -/

theorem exists_word {s : List Char} (hgap : ∀ c ∈ s, isGap c = false) (h : ¬ IsUnderscores s) :
    ∃ c w others, words s = (c :: w) :: others ∧ ∀ d ∈ c :: w, isGap d = false := by
  have hkept : ∃ c ∈ s, isSeparator c = false := by
    obtain ⟨c, hc⟩ := not_forall.1 h
    obtain ⟨hc, hne⟩ := Classical.not_imp.1 hc
    refine ⟨c, hc, Bool.eq_false_iff.2 fun hsep => ?_⟩
    rcases isSeparator_iff.1 hsep with hunder | hno
    · exact hne hunder
    · rw [hgap c hc] at hno
      exact nomatch hno
  obtain ⟨c, hc, hsep⟩ := hkept
  have hflat : c ∈ (words s).flatten := by
    rw [words, wordsFrom_flatten]
    simp [hc, hsep]
  cases hwords : words s with
  | nil =>
    rw [hwords] at hflat
    exact absurd hflat List.not_mem_nil
  | cons first others =>
    have hfirst : first ∈ words s := by simp [hwords]
    obtain ⟨d, w, rfl⟩ := List.exists_cons_of_ne_nil (isWord_of_mem_words hfirst).1
    exact ⟨d, w, others, rfl, fun e he => hgap e (mem_of_mem_words hfirst he)⟩

theorem words_of_isUnderscores {s : List Char} (h : IsUnderscores s) : words s = [] := by
  rw [List.eq_nil_iff_forall_not_mem]
  intro w hw
  obtain ⟨hne, hsep⟩ := isWord_of_mem_words hw
  obtain ⟨c, hc⟩ := List.exists_mem_of_ne_nil _ hne
  have hunder := hsep c hc
  rw [h c (mem_of_mem_words hw hc)] at hunder
  exact nomatch hunder

theorem mem_joinWith_cons {sep w : List Char} {others : List (List Char)} {c : Char} (h : c ∈ w) :
    c ∈ Text.joinWith sep (w :: others) := by
  cases others with
  | nil => exact h
  | cons next more => simp [Text.joinWith, h]

/-- **A case style finds a name in anything but underscores.** -/
theorem isBlankText_inCase_iff {name : String} (h : IsSolid name) (style : FieldStyle) :
    Text.isBlankText (inCase style name).toList = true ↔
      style ≠ .asWritten ∧ IsUnderscores name.toList := by
  by_cases hunder : IsUnderscores name.toList
  · have hwords := words_of_isUnderscores hunder
    cases style with
    | asWritten => simp [inCase, h.not_blank]
    | _ => simp [inCase, camelCase, snakeCase, pascalCase, hwords, Text.joinWith,
        Text.isBlankText, hunder]
  · obtain ⟨c, w, others, hwords, hgap⟩ := exists_word h.2 hunder
    have hc := hgap c (by simp)
    obtain ⟨d, hd, hdgap⟩ := lowerText_cons_solid hc w
    obtain ⟨u, hu⟩ := List.exists_mem_of_ne_nil _ (upperOf_solid hc).1
    have hugap := (upperOf_solid hc).2 u hu
    have hshown : Text.isBlankText (inCase style name).toList = false := by
      cases style with
      | asWritten => exact h.not_blank
      | camel => exact isBlankText_eq_false (c := d) (by simp [inCase, camelCase, hwords, hd]) hdgap
      | snake =>
        refine isBlankText_eq_false (c := d) ?_ hdgap
        rw [inCase, String.toList_ofList, snakeCase, hwords]
        exact mem_joinWith_cons hd
      | pascal =>
        exact isBlankText_eq_false (c := u) (by simp [inCase, pascalCase, hwords, titled, hu]) hugap
    simp [hshown, hunder]

/-- **A field has a blank name in three cases**: its tag gives a blank name that is not empty; the
tag gives none and the name for JSON, which is used, is blank and not empty; neither gives one, and
the case style finds nothing but underscores in the Go name. -/
theorem isBlankText_fieldName_iff {goName : String} (h : IsSolid goName)
    (tagName jsonName : Option String) (useJsonTag : Bool) (style : FieldStyle) :
    Text.isBlankText (fieldName goName tagName jsonName useJsonTag style).toList = true ↔
      (∃ name, given tagName = some name ∧ Text.isBlankText name.toList = true) ∨
      (given tagName = none ∧ useJsonTag = true ∧
        ∃ name, given jsonName = some name ∧ Text.isBlankText name.toList = true) ∨
      (given tagName = none ∧ (useJsonTag = true → given jsonName = none) ∧ style ≠ .asWritten ∧
        IsUnderscores goName.toList) := by
  have hcase := isBlankText_inCase_iff h style
  unfold fieldName
  cases given tagName with
  | some name => simp
  | none =>
    cases useJsonTag with
    | false => simpa using hcase
    | true =>
      cases given jsonName with
      | some name => simp
      | none => simpa using hcase

/-- **A derived name of an enum value is blank just where the constant has nothing but
underscores.** -/
theorem isBlankText_valueName_iff {constName : String} (h : IsSolid constName)
    (baseType : String) :
    Text.isBlankText (valueName constName baseType).toList = true ↔
      IsUnderscores constName.toList := by
  rw [valueName, String.toList_ofList]
  have hmem : ∀ c ∈ valueStem constName.toList baseType.toList, c ∈ constName.toList :=
    fun c hc => mem_of_mem_valueStem hc
  constructor
  · intro hblank
    by_contra hunder
    have hstem : ¬ IsUnderscores (valueStem constName.toList baseType.toList) := by
      rcases valueStem_cases constName.toList baseType.toList with
        ⟨n, c, rest, hc, hstem, -⟩ | hstem
      · rw [hstem]
        exact fun hall => hc (hall c (by simp))
      · rwa [hstem]
    obtain ⟨c, w, others, hwords, hgap⟩ := exists_word (fun c hc => h.2 c (hmem c hc)) hstem
    obtain ⟨u, hu⟩ := List.exists_mem_of_ne_nil _ (upperOf_solid (hgap c (by simp))).1
    have hshown : u ∈ upperSnakeCase (valueStem constName.toList baseType.toList) := by
      rw [upperSnakeCase, hwords]
      exact mem_joinWith_cons (List.mem_append_left _ hu)
    rw [isBlankText_eq_false hshown ((upperOf_solid (hgap c (by simp))).2 u hu)] at hblank
    cases hblank
  · intro hunder
    have hwords := words_of_isUnderscores fun c hc => hunder c (hmem c hc)
    rw [upperSnakeCase, hwords]
    rfl

end Name

end GoSchema
