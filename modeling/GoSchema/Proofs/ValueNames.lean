/-
# The names of enum values are capitals

The name of an enum value is what remains of the constant behind the name of its type, in capitals.
For an ASCII constant that starts with a letter the result is never empty and made of capitals,
digits and underscores only. It may still be no name of a schema: nothing keeps the remainder from
starting with a digit, as in `Version1` of a type `Version`. That is the only way to miss.

Key definitions: `isSchemaName`, `isCapital`, `IsIdentifier`.
Key theorems: `valueStem_of_eq`, `valueStem_cases`, `upperSnakeCase_cons`,
`valueName_isSchemaName_iff`.
-/
import GoSchema.Name.Schema
import GoSchema.Proofs.NameWords
import GoSchema.Source.Lexer
import Mathlib.Data.List.TakeWhile

namespace GoSchema.Name

open Unicode Source

/-- A name that a schema accepts: a letter or an underscore, then letters, digits and underscores,
all of them ASCII. -/
def isSchemaName : List Char → Bool
  | [] => false
  | c :: rest =>
    (isAsciiUpper c || isAsciiLower c || c = '_') &&
      rest.all fun d => isAsciiUpper d || isAsciiLower d || isAsciiDigit d || d = '_'

/-- The characters of a name in capitals: `A` to `Z`, digits and underscores. -/
def isCapital (c : Char) : Bool := isAsciiUpper c || isAsciiDigit c || c = '_'

/-- A Go identifier: a letter or an underscore, then letters, digits and underscores, of any
script. -/
def IsIdentifier (s : List Char) : Prop :=
  (∃ c ∈ s.head?, isNameStart c = true) ∧ ∀ c ∈ s, isNameChar c = true

instance (s : List Char) : Decidable (IsIdentifier s) :=
  decidable_of_iff (s.head?.any isNameStart = true ∧ s.all isNameChar = true) <| by
    rw [Option.any_eq_true, List.all_eq_true]
    rfl

theorem isSeparator_iff_of_isNameChar {c : Char} :
    c.toNat < 128 → isNameChar c = true → (isSeparator c = true ↔ c = '_') :=
  forall_ascii (P := fun c => isNameChar c = true → (isSeparator c = true ↔ c = '_')) (by decide)

theorem isCapital_asciiUpperOf {c : Char} :
    c.toNat < 128 → isNameChar c = true → isCapital (asciiUpperOf c) = true :=
  forall_ascii (P := fun c => isNameChar c = true → isCapital (asciiUpperOf c) = true) (by decide)

theorem isCapital_lt {c : Char} (h : isCapital c = true) : c.toNat < 128 := by
  simp only [isCapital, isAsciiUpper, isAsciiDigit, Bool.or_eq_true, Bool.and_eq_true,
    decide_eq_true_eq] at h
  rcases h with (⟨-, h⟩ | ⟨-, h⟩) | rfl
  · omega
  · omega
  · decide

theorem upperOf_of_isCapital {c : Char} (h : isCapital c = true) : upperOf c = [c] := by
  have hlt := isCapital_lt h
  rw [upperOf_of_ascii hlt]
  revert h
  exact forall_ascii (P := fun c => isCapital c = true → [asciiUpperOf c] = [c]) (by decide) hlt

theorem upperText_of_isCapital {s : List Char} (h : ∀ c ∈ s, isCapital c = true) :
    upperText s = s := by
  induction s with
  | nil => rfl
  | cons c rest ih =>
    rw [upperText_cons, upperOf_of_isCapital (h c (by simp)),
      ih (fun d hd => h d (List.mem_cons_of_mem _ hd))]
    rfl

theorem upperText_of_ascii {s : List Char} (h : IsAscii s) : upperText s = s.map asciiUpperOf := by
  induction s with
  | nil => rfl
  | cons c rest ih =>
    rw [upperText_cons, upperOf_of_ascii (h c (by simp)),
      ih (fun d hd => h d (List.mem_cons_of_mem _ hd))]
    rfl

/-! ### The first word and the characters of joined words -/

theorem wordsFrom_open {carry : List Char} (h : carry ≠ []) (s : List Char) :
    ∃ more others, wordsFrom carry s = (carry.reverse ++ more) :: others := by
  have hclose : closeWord carry = [carry.reverse] := by
    simpa using closeWord_reverse (w := carry.reverse) (by simpa using h)
  induction s generalizing carry with
  | nil => exact ⟨[], [], by simp [wordsFrom, hclose]⟩
  | cons c rest ih =>
    rw [wordsFrom]
    split
    · exact ⟨[], wordsFrom [] rest, by simp [hclose]⟩
    · split
      · exact ⟨[], wordsFrom [c] rest, by simp [hclose]⟩
      · have hopen : closeWord (c :: carry) = [(c :: carry).reverse] := rfl
        obtain ⟨more, others, hwords⟩ := ih (List.cons_ne_nil c carry) hopen
        exact ⟨c :: more, others, by simpa using hwords⟩

theorem joinWith_cons_cons (sep : List Char) (c : Char) (w : List Char)
    (others : List (List Char)) :
    Text.joinWith sep ((c :: w) :: others) = c :: Text.joinWith sep (w :: others) := by
  cases others <;> simp [Text.joinWith]

theorem mem_joinWith {sep : List Char} {pieces : List (List Char)} {c : Char}
    (h : c ∈ Text.joinWith sep pieces) : c ∈ sep ∨ ∃ w ∈ pieces, c ∈ w := by
  induction pieces with
  | nil => simp [Text.joinWith] at h
  | cons w pieces ih =>
    cases pieces with
    | nil => exact .inr ⟨w, by simp, h⟩
    | cons next pieces =>
      rw [Text.joinWith, List.append_assoc] at h
      rcases List.mem_append.1 h with h | h
      · exact .inr ⟨w, by simp, h⟩
      rcases List.mem_append.1 h with h | h
      · exact .inl h
      rcases ih h with h | ⟨v, hv, hc⟩
      · exact .inl h
      · exact .inr ⟨v, List.mem_cons_of_mem _ hv, hc⟩

/-- **In capitals a name starts with its first character**, where that separates no words. -/
theorem upperSnakeCase_cons {c : Char} {rest : List Char} (hascii : IsAscii (c :: rest))
    (hsep : isSeparator c = false) :
    ∃ more, upperSnakeCase (c :: rest) = asciiUpperOf c :: more := by
  obtain ⟨more, others, hwords⟩ := wordsFrom_open (List.cons_ne_nil c []) rest
  have hfirst : words (c :: rest) = (c :: more) :: others := by
    rw [words, wordsFrom, if_neg (by simp [hsep]), if_neg (by simp [endsBefore])]
    simpa using hwords
  refine ⟨Text.joinWith ['_'] (upperText more :: others.map upperText), ?_⟩
  rw [upperSnakeCase, hfirst, List.map_cons, upperText_cons, upperOf_of_ascii (hascii c (by simp)),
    List.singleton_append, joinWith_cons_cons]

theorem isCapital_of_mem_upperSnakeCase {s : List Char} (hascii : IsAscii s)
    (hname : ∀ c ∈ s, isNameChar c = true) {d : Char} (hd : d ∈ upperSnakeCase s) :
    isCapital d = true := by
  rcases mem_joinWith hd with hd | ⟨v, hv, hd⟩
  · obtain rfl : d = '_' := by simpa using hd
    decide
  · obtain ⟨w, hw, rfl⟩ := List.mem_map.1 hv
    have hmem : ∀ c ∈ w, c ∈ s := fun c hc => mem_of_mem_words hw hc
    rw [upperText_of_ascii fun c hc => hascii c (hmem c hc)] at hd
    obtain ⟨c, hc, rfl⟩ := List.mem_map.1 hd
    exact isCapital_asciiUpperOf (hascii c (hmem c hc)) (hname c (hmem c hc))

/-! ### What remains of the constant -/

/-- What follows the name of the type and some underscores is what remains. -/
theorem valueStem_of_eq {name base rest : List Char} {n : Nat} {c : Char} (hc : c ≠ '_')
    (h : name = base ++ List.replicate n '_' ++ c :: rest) : valueStem name base = c :: rest := by
  have hdrop : Text.dropLeading? base name = some (List.replicate n '_' ++ c :: rest) :=
    Text.dropLeading?_eq_some_iff.2 (by rw [h, List.append_assoc])
  have hstem : (List.replicate n '_' ++ c :: rest).dropWhile (· = '_') = c :: rest := by
    rw [List.dropWhile_append_of_pos (by simp)]
    simp [hc]
  simp only [valueStem, hdrop, hstem]

/-- What remains stands behind the name of the type and some underscores, or it is the whole name.
-/
theorem valueStem_cases (name base : List Char) :
    (∃ n c rest, c ≠ '_' ∧ valueStem name base = c :: rest ∧
      name = base ++ List.replicate n '_' ++ c :: rest) ∨ valueStem name base = name := by
  unfold valueStem
  split
  · exact .inr rfl
  · rename_i rest hdrop
    split
    · exact .inr rfl
    · rename_i hne
      obtain ⟨c, stem, hstem⟩ := List.exists_cons_of_ne_nil hne
      have hname := Text.dropLeading?_eq_some_iff.1 hdrop
      have hlead : rest.takeWhile (· = '_') =
          List.replicate (rest.takeWhile (· = '_')).length '_' :=
        List.eq_replicate_of_mem fun d hd => by simpa using List.mem_takeWhile_imp hd
      have hc : c ≠ '_' := by
        have := List.head?_dropWhile_not (fun d : Char => decide (d = '_')) rest
        rw [hstem] at this
        simpa using this
      refine .inl ⟨(rest.takeWhile (· = '_')).length, c, stem, hc, hstem, ?_⟩
      rw [← hlead, ← hstem, List.append_assoc, List.takeWhile_append_dropWhile, hname]

theorem mem_of_mem_valueStem {name base : List Char} {c : Char} (h : c ∈ valueStem name base) :
    c ∈ name := by
  rcases valueStem_cases name base with ⟨n, d, rest, -, hstem, hname⟩ | hname
  · rw [hname, ← hstem]
    exact List.mem_append_right _ h
  · rwa [hname] at h

theorem isAsciiDigit_asciiUpperOf {c : Char} : c.toNat < 128 → isNameChar c = true → c ≠ '_' →
    ((isAsciiUpper (asciiUpperOf c) || isAsciiLower (asciiUpperOf c) ||
      decide (asciiUpperOf c = '_')) = !isAsciiDigit c) :=
  forall_ascii (P := fun c => isNameChar c = true → c ≠ '_' →
    ((isAsciiUpper (asciiUpperOf c) || isAsciiLower (asciiUpperOf c) ||
      decide (asciiUpperOf c = '_')) = !isAsciiDigit c)) (by decide)

/-- Capitals make a name of a schema unless the first one is a digit. -/
theorem isSchemaName_of_capitals {c : Char} {more : List Char}
    (hcap : ∀ d ∈ more, isCapital d = true) :
    isSchemaName (c :: more) = (isAsciiUpper c || isAsciiLower c || c = '_') := by
  have hrest :
      more.all (fun d => isAsciiUpper d || isAsciiLower d || isAsciiDigit d || d = '_') := by
    refine List.all_eq_true.2 fun d hd => ?_
    have := hcap d hd
    simp only [isCapital, Bool.or_eq_true] at this ⊢
    tauto
  rw [isSchemaName, hrest, Bool.and_true]

theorem isAsciiDigit_of_isLetter {c : Char} :
    c.toNat < 128 → isLetter c = true → isAsciiDigit c = false ∧ c ≠ '_' :=
  forall_ascii (P := fun c => isLetter c = true → isAsciiDigit c = false ∧ c ≠ '_') (by decide)

/-- **Names of enum values.** For an ASCII constant that starts with a letter, and any name of a
type, the name of the enum value is not empty, in upper case, and made of capitals, digits and
underscores. It is a name of a schema unless a digit is the first thing behind the name of the type
and some underscores. -/
theorem valueName_isSchemaName_iff (constant base : String) (hascii : IsAscii constant.toList)
    (hname : IsIdentifier constant.toList)
    (hletter : ∃ c ∈ constant.toList.head?, isLetter c = true) :
    (valueName constant base).toList ≠ [] ∧
    (∀ c ∈ (valueName constant base).toList, isCapital c = true) ∧
    upperText (valueName constant base).toList = (valueName constant base).toList ∧
    (isSchemaName (valueName constant base).toList = true ↔
      ¬ ∃ n c rest, isAsciiDigit c = true ∧
        constant.toList = base.toList ++ List.replicate n '_' ++ c :: rest) := by
  obtain ⟨first, hfirst, hletter⟩ := hletter
  obtain ⟨tail, htail⟩ := List.head?_eq_some_iff.1 hfirst
  obtain ⟨hdigit, hunder⟩ :=
    isAsciiDigit_of_isLetter (hascii first (List.mem_of_mem_head? hfirst)) hletter
  -- in either case what remains starts with something that is no underscore
  have hcases : ∃ c rest, c ≠ '_' ∧ valueStem constant.toList base.toList = c :: rest ∧
      (isAsciiDigit c = true ↔ ∃ n d rest, isAsciiDigit d = true ∧
        constant.toList = base.toList ++ List.replicate n '_' ++ d :: rest) := by
    have hunique : ∀ n d rest, isAsciiDigit d = true →
        constant.toList = base.toList ++ List.replicate n '_' ++ d :: rest →
        valueStem constant.toList base.toList = d :: rest := fun n d rest hd h =>
      valueStem_of_eq (by rintro rfl; exact absurd hd (by decide)) h
    rcases valueStem_cases constant.toList base.toList with ⟨n, c, rest, hc, hstem, heq⟩ | hstem
    · refine ⟨c, rest, hc, hstem, fun hd => ⟨n, c, rest, hd, heq⟩, ?_⟩
      rintro ⟨m, d, rest', hd, h⟩
      have := (hstem.symm.trans (hunique m d rest' hd h))
      rwa [(List.cons.inj this).1]
    · refine ⟨first, tail, hunder, hstem.trans htail, fun hd => absurd hd (by simp [hdigit]), ?_⟩
      rintro ⟨m, d, rest', hd, h⟩
      have := ((hstem.trans htail).symm.trans (hunique m d rest' hd h))
      rwa [(List.cons.inj this).1]
  obtain ⟨c, rest, hc, hstem, hiff⟩ := hcases
  have hmem : ∀ d ∈ c :: rest, d ∈ constant.toList := fun d hd =>
    mem_of_mem_valueStem (hstem ▸ hd)
  have hstemAscii : IsAscii (c :: rest) := fun d hd => hascii d (hmem d hd)
  have hstemName : ∀ d ∈ c :: rest, isNameChar d = true := fun d hd => hname.2 d (hmem d hd)
  have hcAscii := hstemAscii c (by simp)
  have hcName := hstemName c (by simp)
  have hsep : isSeparator c = false := by
    simpa [hc] using isSeparator_iff_of_isNameChar hcAscii hcName
  have hcap : ∀ d ∈ (valueName constant base).toList, isCapital d = true := fun d hd => by
    rw [valueName, String.toList_ofList, hstem] at hd
    exact isCapital_of_mem_upperSnakeCase hstemAscii hstemName hd
  obtain ⟨more, hmore⟩ := upperSnakeCase_cons hstemAscii hsep
  have hshape : (valueName constant base).toList = asciiUpperOf c :: more := by
    rw [valueName, String.toList_ofList, hstem, hmore]
  refine ⟨by simp [hshape], hcap, upperText_of_isCapital hcap, ?_⟩
  have hmoreCap : ∀ d ∈ more, isCapital d = true := fun d hd =>
    hcap d (by rw [hshape]; exact List.mem_cons_of_mem _ hd)
  have hhead := isSchemaName_of_capitals (c := asciiUpperOf c) hmoreCap
  rw [hshape, hhead, isAsciiDigit_asciiUpperOf hcAscii hcName hc, ← hiff]
  simp

/-- A digit behind a letter is in the name of `VersionV2Beta`, not at its start. -/
theorem valueName_isSchemaName_release :
    IsAscii "VersionV2Beta".toList ∧ IsIdentifier "VersionV2Beta".toList ∧
    isSchemaName (valueName "VersionV2Beta" "Version").toList = true ∧
    upperText (valueName "VersionV2Beta" "Version").toList = "V2_BETA".toList := by
  have hascii : IsAscii "VersionV2Beta".toList := by decide
  have hname : IsIdentifier "VersionV2Beta".toList := by decide
  obtain ⟨-, -, hupper, hiff⟩ := valueName_isSchemaName_iff "VersionV2Beta" "Version" hascii hname
    ⟨'V', by decide, by decide⟩
  refine ⟨hascii, hname, hiff.2 ?_, hupper.trans (by decide)⟩
  rintro ⟨n, c, rest, hdigit, h⟩
  cases n with
  | zero =>
    obtain ⟨rfl, -⟩ : 'V' = c ∧ _ = rest := by simpa using h
    exact absurd hdigit (by decide)
  | succ n => simp [List.replicate_succ] at h

/-- The enum value of a constant `Version1` of a type `Version` is named `1`. -/
theorem valueName_digit :
    ¬ ∀ constant base : String, IsAscii constant.toList → IsIdentifier constant.toList →
      (∃ c ∈ constant.toList.head?, isLetter c = true) → IsIdentifier base.toList →
      isSchemaName (valueName constant base).toList = true := by
  intro h
  have := h "Version1" "Version" (by decide) (by decide) ⟨'V', by decide, by decide⟩ (by decide)
  exact absurd this (by decide)

end GoSchema.Name
