/-
# Ways to write a value

A value need not be written in its canonical form. A text may stand in single or double quotes, with
a backslash before any character; a list of quoted texts may have blanks around them and a comma at
its end. However a value is written, it is read up to what follows it, and its source text is what
was written, without the blanks around it.

Key definitions: `Spells`, `Quotes`, `ListsTexts`, `Writes`, `IsStop`.
Key theorems: `readQuoted_eq_some_iff`, `readList_listsTexts`, `Writes.readValue`, `writes_quotes`,
`writes_list`.
-/
import GoSchema.Proofs.PrintedDirectives
import GoSchema.Proofs.Rows

namespace GoSchema

open Unicode

theorem Text.trim_append_blanks {blanks : List Char} (h : ∀ c ∈ blanks, isBlank c = true)
    (s : List Char) : trim (s ++ blanks) = trim s := by
  induction blanks generalizing s with
  | nil => rw [List.append_nil]
  | cons c blanks ih =>
    obtain ⟨hc, hblanks⟩ := List.forall_mem_cons.1 h
    rw [List.append_cons, ih hblanks, trim_append_blank hc]

namespace Reader

theorem skipBlank_append {blanks : List Char} (h : ∀ c ∈ blanks, isBlank c = true)
    (s : List Char) : skipBlank (blanks ++ s) = skipBlank s :=
  List.dropWhile_append_of_pos h

theorem skipBlank_blanks_cons {blanks : List Char} (h : ∀ c ∈ blanks, isBlank c = true) {c : Char}
    (hc : isBlank c = false) (s : List Char) : skipBlank (blanks ++ c :: s) = c :: s := by
  rw [skipBlank_append h, skipBlank_of_head hc]

/-! ### Texts in quotes and lists of them -/

/-- Whether characters between two quotes stand for a text: every character stands for itself, but
for the quote and the backslash, and any character may stand behind a backslash. -/
inductive Spells (quote : Char) : List Char → List Char → Prop
  | nil : Spells quote [] []
  | plain {c : Char} {w s : List Char} (hquote : c ≠ quote) (hback : c ≠ '\\')
      (h : Spells quote w s) : Spells quote (c :: w) (c :: s)
  | escaped {c : Char} {w s : List Char} (h : Spells quote w s) :
      Spells quote ('\\' :: c :: w) (unescape c :: s)

/-- Whether `w` is a text in quotes, of either kind, that stands for `s`. -/
def Quotes (w s : List Char) : Prop :=
  ∃ quote body, isQuote quote = true ∧ Spells quote body s ∧ w = quote :: body ++ [quote]

/-- **What is read up to a quote is what was spelled**, and nothing else is read. -/
theorem readQuoted_eq_some_iff {quote : Char} (hquote : quote ≠ '\\') {t s left : List Char} :
    readQuoted quote t = some (s, left) ↔ ∃ w, t = w ++ quote :: left ∧ Spells quote w s := by
  constructor
  · intro h
    fun_induction readQuoted quote t generalizing s left with
    | case1 => cases h
    | case2 => cases h
    | case3 c rest ih =>
      obtain ⟨⟨s', left'⟩, h', heq⟩ := Option.map_eq_some_iff.1 h
      obtain ⟨rfl, rfl⟩ := Prod.mk.inj heq
      obtain ⟨w, rfl, hw⟩ := ih h'
      exact ⟨_, rfl, .escaped hw⟩
    | case4 rest =>
      obtain ⟨rfl, rfl⟩ := Prod.mk.inj (Option.some.inj h)
      exact ⟨[], rfl, .nil⟩
    | case5 c rest hend hmore hc ih =>
      have hback : c ≠ '\\' := by
        rintro rfl
        cases rest with
        | nil => exact hend rfl rfl
        | cons d rest => exact hmore d rest rfl rfl
      obtain ⟨⟨s', left'⟩, h', heq⟩ := Option.map_eq_some_iff.1 h
      obtain ⟨rfl, rfl⟩ := Prod.mk.inj heq
      obtain ⟨w, rfl, hw⟩ := ih h'
      exact ⟨_, rfl, .plain hc hback hw⟩
  · rintro ⟨w, rfl, hw⟩
    induction hw with
    | nil => simp [readQuoted, hquote]
    | plain hc hback _ ih => simp [readQuoted, hc, hback, ih]
    | escaped _ ih => simp [readQuoted, ih]

/-- A text between quotes, with a backslash before every such quote and every backslash in it. -/
def quotedIn (quote : Char) (s : List Char) : List Char :=
  quote :: s.flatMap (fun c => if c = quote || c = '\\' then ['\\', c] else [c]) ++ [quote]

/-- **Every text can stand in quotes** of either kind. -/
theorem quotes_quotedIn {quote : Char} (hquote : isQuote quote = true) (s : List Char) :
    Quotes (quotedIn quote s) s := by
  refine ⟨quote, _, hquote, ?_, rfl⟩
  have hself : unescape quote = quote := by
    simp only [isQuote, Bool.or_eq_true, decide_eq_true_eq] at hquote
    rcases hquote with rfl | rfl <;> rfl
  induction s with
  | nil => exact .nil
  | cons c s ih =>
    rw [List.flatMap_cons]
    by_cases hc : c = quote ∨ c = '\\'
    · have hc' : unescape c = c := by
        rcases hc with rfl | rfl
        · exact hself
        · rfl
      have hnext : Spells quote ('\\' :: c :: _) (unescape c :: s) := .escaped ih
      rw [hc'] at hnext
      simpa [hc] using hnext
    · obtain ⟨hne, hback⟩ := not_or.1 hc
      have hnext : Spells quote (c :: _) (c :: s) := .plain hne hback ih
      simpa [hc] using hnext

theorem isQuote_ne_backslash {quote : Char} (h : isQuote quote = true) : quote ≠ '\\' := by
  rintro rfl
  cases h

theorem isBlank_of_isQuote {quote : Char} (h : isQuote quote = true) : isBlank quote = false := by
  simp only [isQuote, Bool.or_eq_true, decide_eq_true_eq] at h
  rcases h with rfl | rfl <;> decide

theorem Quotes.exists_read {w s : List Char} (h : Quotes w s) :
    ∃ quote body, isQuote quote = true ∧ w = quote :: body ++ [quote] ∧
      ∀ rest, readQuoted quote (body ++ quote :: rest) = some (s, rest) := by
  obtain ⟨quote, body, hquote, hbody, rfl⟩ := h
  refine ⟨quote, body, hquote, rfl, fun rest => ?_⟩
  exact (readQuoted_eq_some_iff (isQuote_ne_backslash hquote)).2 ⟨body, rfl, hbody⟩

/-- Whether characters between brackets list texts: each is in quotes, there may be blanks before and
behind it, and a comma behind the last. -/
inductive ListsTexts : List Char → List String → Prop
  | none {blanks : List Char} (h : ∀ c ∈ blanks, isBlank c = true) : ListsTexts blanks []
  | last {before w after : List Char} {s : String} (hbefore : ∀ c ∈ before, isBlank c = true)
      (hw : Quotes w s.toList) (hafter : ∀ c ∈ after, isBlank c = true) :
      ListsTexts (before ++ (w ++ after)) [s]
  | more {before w after rest : List Char} {s : String} {items : List String}
      (hbefore : ∀ c ∈ before, isBlank c = true) (hw : Quotes w s.toList)
      (hafter : ∀ c ∈ after, isBlank c = true) (hrest : ListsTexts rest items) :
      ListsTexts (before ++ (w ++ (after ++ ',' :: rest))) (s :: items)

theorem readList_end {blanks : List Char} (h : ∀ c ∈ blanks, isBlank c = true) (rest : List Char) :
    readList (blanks ++ ']' :: rest) = .ok ([], rest) := by
  have hopen : skipBlank (blanks ++ ']' :: rest) = ']' :: rest :=
    skipBlank_blanks_cons h (by decide) rest
  rw [readList]
  split
  · rename_i heq
    rw [hopen] at heq
    cases heq
  · rename_i c more heq
    rw [hopen] at heq
    obtain ⟨rfl, rfl⟩ := List.cons.inj heq
    rfl

theorem readList_quotes {before w after : List Char} {s : String}
    (hbefore : ∀ c ∈ before, isBlank c = true) (hw : Quotes w s.toList)
    (hafter : ∀ c ∈ after, isBlank c = true) {d : Char} (hd : isBlank d = false)
    (more : List Char) : readList (before ++ (w ++ (after ++ d :: more))) =
      if d = ',' then (readList more).map fun (others, left) => (s :: others, left)
      else if d = ']' then .ok ([s], more) else .error (.expectedInList d) := by
  obtain ⟨quote, body, hquote, rfl, hread⟩ := hw.exists_read
  have hitem : readItem (quote :: (body ++ quote :: (after ++ d :: more))) =
      .ok ([s], after ++ d :: more) := by
    simp [readItem, hquote, hread]
  have hopen : skipBlank (before ++ (quote :: (body ++ quote :: (after ++ d :: more)))) =
      quote :: (body ++ quote :: (after ++ d :: more)) :=
    skipBlank_blanks_cons hbefore (isBlank_of_isQuote hquote) _
  have hne : quote ≠ ']' := by
    rintro rfl
    cases hquote
  have hlist := readList_of_readItem hopen hne hitem (skipBlank_blanks_cons hafter hd more)
  simpa using hlist

/-- **A list of texts is read** up to its closing bracket. -/
theorem readList_listsTexts {w : List Char} {items : List String} (h : ListsTexts w items)
    (rest : List Char) : readList (w ++ ']' :: rest) = .ok (items, rest) := by
  induction h with
  | none h => exact readList_end h rest
  | last hbefore hw hafter =>
    rw [List.append_assoc, List.append_assoc, readList_quotes hbefore hw hafter (by decide)]
    rfl
  | @more before w after inner s items hbefore hw hafter hrest ih =>
    have hread := readList_quotes hbefore hw hafter (d := ',') (by decide) (inner ++ ']' :: rest)
    rw [if_pos rfl, ih] at hread
    simpa [Except.map] using hread

/-! ### Values -/

/-- Whether `w` is a way to write the value `v` where one of `stops` ends it. Blanks may follow; a
reader of `v` leaves some of them or none, and all that is behind them. -/
structure Writes (stops : List Char) (w : List Char) (v : Value) : Prop where
  head : ∃ c, w.head? = some c ∧ isBlank c = false
  last : ∀ c, w.getLast? = some c → isBlank c = false
  reads : ∀ blanks rest, (∀ c ∈ blanks, isBlank c = true) → Follows stops rest →
    ∃ left, left <:+ blanks ∧ readValueAt stops (w ++ (blanks ++ rest)) = .ok (v, left ++ rest)

/-- **A value is read in whatever way it is written**, with what was written as its source text. -/
theorem Writes.readValue {stops w before after rest : List Char} {v : Value}
    (h : Writes stops w v) (hbefore : ∀ c ∈ before, isBlank c = true)
    (hafter : ∀ c ∈ after, isBlank c = true) (hrest : Follows stops rest) :
    Reader.readValue stops (before ++ (w ++ (after ++ rest))) = .ok ⟨v, w, rest⟩ := by
  obtain ⟨c, hc, hblank⟩ := h.head
  obtain ⟨s, rfl⟩ : ∃ s, w = c :: s := List.head?_eq_some_iff.1 hc
  obtain ⟨left, ⟨passed, rfl⟩, hread⟩ := h.reads after rest hafter hrest
  obtain ⟨hpassed, hleft⟩ := List.forall_mem_append.1 hafter
  have hopen : skipBlank (before ++ (c :: s ++ (passed ++ left ++ rest))) =
      c :: s ++ (passed ++ left ++ rest) := skipBlank_blanks_cons hbefore hblank _
  have hconsumed : consumed (c :: s ++ (passed ++ left ++ rest)) (left ++ rest) =
      c :: s ++ passed := by
    rw [List.append_assoc, ← List.append_assoc, consumed_append]
  have htrim : Text.trim (c :: s ++ passed) = c :: s := by
    rw [Text.trim_append_blanks hpassed]
    exact Text.trim_eq_self (fun d hd => Option.some.inj hd ▸ hblank) h.last
  unfold Reader.readValue
  dsimp only
  rw [hopen, hread]
  simp only [Except.map, hconsumed, htrim, skipBlank_append hleft, hrest.skipBlank_eq]

theorem writes_quotes (stops : List Char) {w : List Char} {s : String} (h : Quotes w s.toList) :
    Writes stops w (.text s) := by
  obtain ⟨quote, body, hquote, rfl, hread⟩ := h.exists_read
  refine ⟨⟨quote, rfl, isBlank_of_isQuote hquote⟩, fun c hc => ?_, fun blanks rest _ _ => ?_⟩
  · rw [List.getLast?_concat] at hc
    exact Option.some.inj hc ▸ isBlank_of_isQuote hquote
  · refine ⟨blanks, List.suffix_rfl, ?_⟩
    simp [readValueAt, hquote, hread]

/-- What may end a value in a directive or in a tag: a comma or a closing parenthesis. -/
def IsStop (stops : List Char) : Prop := ∀ c ∈ stops, c = ',' ∨ c = ')'

theorem isStop_params : IsStop [',', ')'] := by simp [IsStop]

theorem isStop_items : IsStop [','] := by simp [IsStop]

theorem isOrdinary_of_isBlank {stops : List Char} (hstops : IsStop stops) {c : Char}
    (hc : isBlank c = true) : isOrdinary stops c = true := by
  have hne : ∀ d : Char, isBlank d = false → c ≠ d := fun d hd h => nomatch (h ▸ hd).symm.trans hc
  have hmem : c ∉ stops := fun hmem =>
    (hstops c hmem).elim (hne ',' (by decide)) (hne ')' (by decide))
  simp [isOrdinary, isQuote, hmem, hne '"' (by decide), hne '\'' (by decide), hne '(' (by decide),
    hne ')' (by decide), hne '[' (by decide), hne ']' (by decide)]

theorem skipTrailing_append {stops s rest : List Char} (hs : ∀ c ∈ s, isOrdinary stops c = true)
    (hrest : Follows stops rest) : skipTrailing stops (s ++ rest) = .ok rest := by
  induction s with
  | nil => exact hrest.skipTrailing_eq
  | cons c s ih =>
    obtain ⟨hc, hs⟩ := List.forall_mem_cons.1 hs
    simp only [isOrdinary, Bool.and_eq_true, Bool.not_eq_true', decide_eq_true_eq] at hc
    obtain ⟨⟨⟨⟨⟨hstop, hquote⟩, hopen⟩, -⟩, hopen'⟩, -⟩ := hc
    have hmem : c ∉ stops := by simpa using hstop
    simp [skipTrailing, hmem, hquote, hopen, hopen', ih hs]

/-- A value in brackets is a list, with what follows it up to the end of the value. -/
theorem readValueAt_list {stops s left rest : List Char} {items : List String}
    (hread : readList s = .ok (items, left)) (hskip : skipTrailing stops left = .ok rest) :
    readValueAt stops ('[' :: s) = .ok (.list items, rest) := by
  simp [readValueAt, isQuote, hread, hskip, Except.map]

theorem readValueAt_bare {stops : List Char} {c : Char} {s text rest : List Char}
    (hquote : isQuote c = false) (hopen : c ≠ '[')
    (hread : readBare stops 0 (c :: s) = .ok (text, rest)) :
    readValueAt stops (c :: s) = .ok (.text (String.ofList (Text.trim text)), rest) := by
  simp [readValueAt, hquote, hopen, hread, Except.map]

theorem writes_list {stops w : List Char} {items : List String} (hstops : IsStop stops)
    (h : ListsTexts w items) : Writes stops ('[' :: w ++ [']']) (.list items) := by
  refine ⟨⟨'[', rfl, by decide⟩, fun c hc => ?_, fun blanks rest hblanks hrest => ?_⟩
  · rw [List.getLast?_concat] at hc
    exact Option.some.inj hc ▸ by decide
  · refine ⟨[], List.nil_suffix, ?_⟩
    have hread : readList (w ++ ']' :: (blanks ++ rest)) = .ok (items, blanks ++ rest) :=
      readList_listsTexts h (blanks ++ rest)
    have hskip : skipTrailing stops (blanks ++ rest) = .ok rest :=
      skipTrailing_append (fun c hc => isOrdinary_of_isBlank hstops (hblanks c hc)) hrest
    simpa using readValueAt_list hread hskip

end Reader

end GoSchema
