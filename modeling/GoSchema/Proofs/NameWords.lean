/-
# The words of a name and its snake case

Cutting a name into words keeps every character that separates no words, for any text. In snake case
the words stand in small letters with `_` between each two; a text of that form is cut at its
underscores and nowhere else, since the other cuts need a capital. So the snake case of an ASCII
name has the words of the name in small letters, snake case is stable, and it tells two names apart
just as far as their words in small letters do.

Key definitions: `IsWord`, `IsPlain`, `IsAscii`.
Key theorems: `isWord_of_mem_wordsFrom`, `words_joinWith`, `words_snakeCase`, `words_faithful`.
-/
import GoSchema.Name.Words
import Mathlib.Data.List.Basic

namespace GoSchema

open Unicode

/-- Nothing but ASCII characters. -/
def IsAscii (s : List Char) : Prop := ∀ c ∈ s, c.toNat < 128

instance (s : List Char) : Decidable (IsAscii s) :=
  decidable_of_iff (s.all (·.toNat < 128) = true) (by simp [IsAscii])

namespace Unicode

theorem forall_ascii {P : Char → Prop} (h : ∀ n : Fin 128, P (Char.ofNat n)) {c : Char}
    (hc : c.toNat < 128) : P c := by
  have := h ⟨c.toNat, hc⟩
  simpa using this

theorem lowerTextAfter_of_ascii {s : List Char} (h : IsAscii s) (before : List Char) :
    lowerTextAfter before s = asciiLowerText s := by
  induction s generalizing before with
  | nil => rfl
  | cons c rest ih =>
    have hc : c.toNat < 128 := h c (by simp)
    -- a capital sigma, which looks at its neighbours, is not ASCII
    have hsigma : c ≠ 'Σ' := by
      rintro rfl
      exact absurd hc (by decide)
    rw [lowerTextAfter, if_neg hsigma, lowerOf_of_ascii hc,
      ih (fun d hd => h d (List.mem_cons_of_mem _ hd))]
    rfl

theorem lowerText_of_ascii {s : List Char} (h : IsAscii s) : lowerText s = asciiLowerText s :=
  lowerTextAfter_of_ascii h []

theorem asciiLowerOf_lt {c : Char} : c.toNat < 128 → (asciiLowerOf c).toNat < 128 :=
  forall_ascii (P := fun c => (asciiLowerOf c).toNat < 128) (by decide)

theorem isUpper_asciiLowerOf {c : Char} : c.toNat < 128 → isUpper (asciiLowerOf c) = false :=
  forall_ascii (P := fun c => isUpper (asciiLowerOf c) = false) (by decide)

end Unicode

namespace Name

/-- A word of a name: some characters, none of which separates words. -/
def IsWord (w : List Char) : Prop := w ≠ [] ∧ ∀ c ∈ w, isSeparator c = false

/-- Characters that no cut precedes: none of them separates words or is a capital. -/
def IsPlain (w : List Char) : Prop := ∀ c ∈ w, isSeparator c = false ∧ isUpper c = false

theorem isSeparator_asciiLowerOf {c : Char} :
    c.toNat < 128 → isSeparator (asciiLowerOf c) = isSeparator c :=
  forall_ascii (P := fun c => isSeparator (asciiLowerOf c) = isSeparator c) (by decide)

theorem isSeparator_eq_false_iff {c : Char} :
    isSeparator c = false ↔ c ≠ '_' ∧ c ≠ '-' ∧ isBlank c = false := by
  simp [isSeparator, and_assoc]

theorem isWord_of_mem_closeWord {carry : List Char} (h : ∀ c ∈ carry, isSeparator c = false)
    {w : List Char} (hw : w ∈ closeWord carry) : IsWord w := by
  cases carry with
  | nil => simp [closeWord] at hw
  | cons c carry =>
    obtain rfl : w = (c :: carry).reverse := by simpa [closeWord] using hw
    exact ⟨by simp, fun d hd => h d (List.mem_reverse.1 hd)⟩

/-- **Words are words.** As long as the open word holds no separator, no word does, and none is
empty. -/
theorem isWord_of_mem_wordsFrom {carry s : List Char} (h : ∀ c ∈ carry, isSeparator c = false)
    {w : List Char} (hw : w ∈ wordsFrom carry s) : IsWord w := by
  induction s generalizing carry with
  | nil => exact isWord_of_mem_closeWord h hw
  | cons c rest ih =>
    rw [wordsFrom] at hw
    split at hw
    · rcases List.mem_append.1 hw with hw | hw
      · exact isWord_of_mem_closeWord h hw
      · exact ih (by simp) hw
    · rename_i hsep
      have hc : isSeparator c = false := by simpa using hsep
      split at hw
      · rcases List.mem_append.1 hw with hw | hw
        · exact isWord_of_mem_closeWord h hw
        · exact ih (by simpa using hc) hw
      · exact ih (List.forall_mem_cons.2 ⟨hc, h⟩) hw

theorem isWord_of_mem_words {s w : List Char} (hw : w ∈ words s) : IsWord w :=
  isWord_of_mem_wordsFrom (by simp) hw

theorem endsBefore_of_not_upper {c : Char} (h : isUpper c = false) (carry rest : List Char) :
    endsBefore carry c rest = false := by
  cases carry <;> simp [endsBefore, h]

/-- Plain characters join the open word, whatever follows them. -/
theorem wordsFrom_plain_append {w : List Char} (hw : IsPlain w) (carry rest : List Char) :
    wordsFrom carry (w ++ rest) = wordsFrom (w.reverse ++ carry) rest := by
  induction w generalizing carry with
  | nil => rfl
  | cons c w ih =>
    obtain ⟨hsep, hupper⟩ := hw c (by simp)
    rw [List.cons_append, wordsFrom, if_neg (by simp [hsep]),
      if_neg (by simp [endsBefore_of_not_upper hupper]),
      ih (fun d hd => hw d (List.mem_cons_of_mem _ hd))]
    simp

theorem closeWord_reverse {w : List Char} (hw : w ≠ []) : closeWord w.reverse = [w] := by
  cases h : w.reverse with
  | nil => exact absurd (List.reverse_eq_nil_iff.1 h) hw
  | cons c carry => simp [closeWord, ← h]

/-- **Joined words are cut apart again.** Plain pieces with an underscore between each two are the
words of the text they make. -/
theorem words_joinWith {pieces : List (List Char)} (h : ∀ w ∈ pieces, w ≠ [] ∧ IsPlain w) :
    words (Text.joinWith ['_'] pieces) = pieces := by
  induction pieces with
  | nil => rfl
  | cons w pieces ih =>
    obtain ⟨hne, hplain⟩ := h w (by simp)
    cases pieces with
    | nil =>
      have hone := wordsFrom_plain_append hplain [] []
      rw [List.append_nil, List.append_nil] at hone
      rw [Text.joinWith, words, hone, wordsFrom, closeWord_reverse hne]
    | cons next pieces =>
      have hrest := ih fun v hv => h v (List.mem_cons_of_mem _ hv)
      rw [Text.joinWith, words, List.append_assoc, wordsFrom_plain_append hplain, List.append_nil,
        List.singleton_append, wordsFrom, if_pos (by decide), closeWord_reverse hne,
        ← words, hrest, List.singleton_append]

theorem mem_of_mem_words {s w : List Char} (hw : w ∈ words s) {c : Char} (hc : c ∈ w) : c ∈ s := by
  have hflat : c ∈ (words s).flatten := List.mem_flatten.2 ⟨w, hw, hc⟩
  rw [words, wordsFrom_flatten, List.reverse_nil, List.nil_append] at hflat
  exact (List.mem_filter.1 hflat).1

theorem isPlain_lowerText {w : List Char} (hascii : IsAscii w) (hw : IsWord w) :
    lowerText w ≠ [] ∧ IsPlain (lowerText w) := by
  rw [lowerText_of_ascii hascii]
  refine ⟨by simpa [asciiLowerText] using hw.1, fun d hd => ?_⟩
  obtain ⟨c, hc, rfl⟩ := List.mem_map.1 hd
  exact ⟨by rw [isSeparator_asciiLowerOf (hascii c hc), hw.2 c hc],
    isUpper_asciiLowerOf (hascii c hc)⟩

/-- **Snake case keeps the words**, in small letters. -/
theorem words_snakeCase {s : List Char} (h : IsAscii s) :
    words (snakeCase s) = (words s).map lowerText := by
  refine words_joinWith fun v hv => ?_
  obtain ⟨w, hw, rfl⟩ := List.mem_map.1 hv
  exact isPlain_lowerText (fun c hc => h c (mem_of_mem_words hw hc)) (isWord_of_mem_words hw)

theorem asciiLowerOf_idem {c : Char} :
    c.toNat < 128 → asciiLowerOf (asciiLowerOf c) = asciiLowerOf c :=
  forall_ascii (P := fun c => asciiLowerOf (asciiLowerOf c) = asciiLowerOf c) (by decide)

theorem lowerText_idem {w : List Char} (h : IsAscii w) : lowerText (lowerText w) = lowerText w := by
  have hlow : IsAscii (asciiLowerText w) := fun d hd => by
    obtain ⟨c, hc, rfl⟩ := List.mem_map.1 hd
    exact asciiLowerOf_lt (h c hc)
  rw [lowerText_of_ascii h, lowerText_of_ascii hlow, asciiLowerText, asciiLowerText, List.map_map]
  exact List.map_congr_left fun c hc => asciiLowerOf_idem (h c hc)

theorem snakeCase_idem {s : List Char} (h : IsAscii s) :
    snakeCase (snakeCase s) = snakeCase s := by
  rw [snakeCase, words_snakeCase h, List.map_map, snakeCase]
  congr 1
  exact List.map_congr_left fun w hw => lowerText_idem fun c hc => h c (mem_of_mem_words hw hc)

/-- Two names have one snake case just if they have the same words in small letters. -/
theorem snakeCase_eq_iff {s t : List Char} (hs : IsAscii s) (ht : IsAscii t) :
    snakeCase s = snakeCase t ↔ (words s).map lowerText = (words t).map lowerText := by
  constructor
  · intro h
    rw [← words_snakeCase hs, h, words_snakeCase ht]
  · intro h
    rw [snakeCase, h, snakeCase]

/-- **Cutting a name into words loses nothing, and snake case is stable.** The words of any text are
not empty, hold no separator, and are together the text without its separators. In ASCII the words
of a name in snake case are its words in small letters, so a second turn into snake case changes
nothing and names with one snake case have the same words in small letters. -/
theorem words_faithful (u s t : List Char) (hs : IsAscii s) (ht : IsAscii t) :
    (∀ w ∈ words u, w ≠ [] ∧ ∀ c ∈ w, c ≠ '_' ∧ c ≠ '-' ∧ isBlank c = false) ∧
    (words u).flatten = u.filter (fun c => c ≠ '_' && c ≠ '-' && !isBlank c) ∧
    words (snakeCase s) = (words s).map lowerText ∧
    snakeCase (snakeCase s) = snakeCase s ∧
    (snakeCase s = snakeCase t ↔ (words s).map lowerText = (words t).map lowerText) := by
  refine ⟨fun w hw => ?_, ?_, words_snakeCase hs, snakeCase_idem hs, snakeCase_eq_iff hs ht⟩
  · obtain ⟨hne, hsep⟩ := isWord_of_mem_words hw
    exact ⟨hne, fun c hc => isSeparator_eq_false_iff.1 (hsep c hc)⟩
  · rw [words, wordsFrom_flatten, List.reverse_nil, List.nil_append]
    refine List.filter_congr fun c _ => ?_
    simp [isSeparator, Bool.and_assoc]

/-- An accented name is cut into its words; two ways to write one ASCII name share their words. -/
theorem words_faithful_server :
    IsAscii "HTTPServer2Go".toList ∧ IsAscii "http-server2_Go".toList ∧
    (words "ÉtatÉlevé_2".toList).flatten = "ÉtatÉlevé2".toList ∧
    words (snakeCase "HTTPServer2Go".toList) = ["http", "server2", "go"].map String.toList ∧
    snakeCase (snakeCase "HTTPServer2Go".toList) = "http_server2_go".toList ∧
    snakeCase "HTTPServer2Go".toList = snakeCase "http-server2_Go".toList := by
  have hs : IsAscii "HTTPServer2Go".toList := by decide
  have ht : IsAscii "http-server2_Go".toList := by decide
  obtain ⟨-, hflat, hwords, hidem, hsame⟩ :=
    words_faithful "ÉtatÉlevé_2".toList "HTTPServer2Go".toList "http-server2_Go".toList hs ht
  exact ⟨hs, ht, hflat.trans (by decide), hwords.trans (by decide), hidem.trans (by decide),
    hsame.2 (by decide)⟩

end Name

end GoSchema
