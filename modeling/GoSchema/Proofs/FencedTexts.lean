/-
# Descriptions and strings end where they should

A description is read back line by line, whatever its text is. No delimiter is left in it without a
backslash before it: an escaped text starts with no delimiter, wherever one begins to read, as long
as no quote follows it, and every line is followed by a line feed. A delimiter does not go over a
line feed, so escaping a text escapes its lines. A string is read back character by character.

Key theorems: `fence_induction`, `startsWith_escapeFence`, `readFenced_escapeFence`,
`lines_escapeFence`, `readFenced_lines`, `fencedLines?_lines`, `readDescription?_description`,
`readString?_quoted`, `printed_texts_close`.
-/
import GoSchema.Block.SdlReader
import GoSchema.Proofs.PathSteps
import GoSchema.Proofs.Rows

namespace GoSchema

namespace Text

theorem startsWith_iff {lead s : List Char} :
    startsWith lead s = true ↔ ∃ rest, s = lead ++ rest := by
  simp only [startsWith, Option.isSome_iff_exists, dropLeading?_eq_some_iff]

theorem startsWith_append_cons {c : Char} (t : List Char) : ∀ {lead s : List Char}, c ∉ lead →
    startsWith lead (s ++ c :: t) = startsWith lead s
  | [], _, _ => rfl
  | l :: lead, [], h => by
    have hl : l ≠ c := fun hl => h (hl ▸ List.mem_cons_self)
    simp [startsWith, dropLeading?, hl]
  | l :: lead, a :: s, h => by
    have ih := startsWith_append_cons t (s := s) fun hc => h (List.mem_cons_of_mem l hc)
    unfold startsWith at ih
    by_cases hl : l = a
    · simp [startsWith, dropLeading?, hl, ih]
    · simp [startsWith, dropLeading?, hl]

/-! ### Lines -/

/-- A text is one line without a line feed, or a line with one and what follows. -/
theorem line_induction {P : List Char → Prop} (last : ∀ line, '\n' ∉ line → P line)
    (more : ∀ line t, '\n' ∉ line → P t → P (line ++ '\n' :: t)) (s : List Char) : P s := by
  by_cases h : '\n' ∈ s
  · obtain ⟨line, t, heq, hline⟩ := List.eq_append_cons_of_mem h
    have hlen : t.length < s.length := by
      rw [heq, List.length_append, List.length_cons]
      omega
    rw [heq]
    exact more line t hline (line_induction last more t)
  · exact last s h
termination_by s.length

theorem rows_of_not_mem {s : List Char} (h : '\n' ∉ s) (hne : s ≠ []) : rows s = [s] := by
  induction s with
  | nil => exact absurd rfl hne
  | cons c s ih =>
    obtain ⟨hc, hs⟩ := not_or.1 (mt List.mem_cons.2 h)
    rw [rows, if_neg (Ne.symm hc)]
    cases s with
    | nil => rfl
    | cons d s => rw [ih hs (List.cons_ne_nil d s)]

theorem lines_append {line : List Char} (h : '\n' ∉ line) (t : List Char) :
    lines (line ++ '\n' :: t) = withoutLineEnd (line ++ ['\n']) :: lines t := by
  have hrows := rows_append (ended_append_lineFeed line) t
  rw [rows_line h, List.append_assoc] at hrows
  exact congrArg (List.map withoutLineEnd) hrows

theorem withoutLineEnd_of_not_mem {line : List Char} (h : '\n' ∉ line) :
    withoutLineEnd line = line := by
  unfold withoutLineEnd
  split
  · rename_i heq
    exact absurd (List.mem_reverse.1 (heq ▸ List.mem_cons_self)) h
  · rename_i heq
    exact absurd (List.mem_reverse.1 (heq ▸ List.mem_cons_self)) h
  · rfl

theorem lines_of_not_mem {line : List Char} (h : '\n' ∉ line) (hne : line ≠ []) :
    lines line = [line] := by
  rw [lines, rows_of_not_mem h hne, List.map_singleton, withoutLineEnd_of_not_mem h]

theorem withoutLineEnd_carriageReturn (line : List Char) :
    withoutLineEnd (line ++ ['\r'] ++ ['\n']) = line := by
  simp [withoutLineEnd]

theorem withoutLineEnd_lineFeed {line : List Char} (h : line.getLast? ≠ some '\r') :
    withoutLineEnd (line ++ ['\n']) = line := by
  unfold withoutLineEnd
  rw [List.reverse_append]
  split
  · rename_i rest heq
    have hlast : line.reverse.head? = some '\r' := congrArg List.head? (List.cons.inj heq).2
    exact absurd (List.head?_reverse.symm.trans hlast) h
  · rename_i heq
    rw [← (List.cons.inj heq).2]
    exact List.reverse_reverse line
  · rename_i hno
    exact absurd rfl (hno _)

theorem not_mem_of_mem_lines {s : List Char} : ∀ line ∈ lines s, '\n' ∉ line := by
  induction s using line_induction with
  | last line h =>
    by_cases hne : line = []
    · subst hne
      exact List.forall_mem_nil _
    · rw [lines_of_not_mem h hne]
      exact List.forall_mem_singleton.2 h
  | more line t h ih =>
    rw [lines_append h]
    refine List.forall_mem_cons.2 ⟨?_, ih⟩
    by_cases hlast : line.getLast? = some '\r'
    · obtain ⟨init, rfl⟩ := List.getLast?_eq_some_iff.1 hlast
      rw [withoutLineEnd_carriageReturn]
      exact fun hmem => h (List.mem_append_left _ hmem)
    · rwa [withoutLineEnd_lineFeed hlast]

end Text

namespace Sdl

open Text

/-! ### Delimiters in a text -/

/-- A text is empty, or begins with a delimiter, or with a character that begins none. -/
theorem fence_induction {P : List Char → Prop} (nil : P [])
    (delimiter : ∀ t, P t → P (fence ++ t))
    (other : ∀ c t, startsWith fence (c :: t) = false → P t → P (c :: t)) (s : List Char) : P s :=
  match s with
  | [] => nil
  | c :: t => by
    cases h : startsWith fence (c :: t) with
    | false => exact other c t h (fence_induction nil delimiter other t)
    | true =>
      obtain ⟨rest, hrest⟩ := startsWith_iff.1 h
      have hlen : rest.length < t.length + 1 := by
        have := congrArg List.length hrest
        simp only [List.length_cons, List.length_append, fence] at this
        omega
      rw [hrest]
      exact delimiter rest (fence_induction nil delimiter other rest)
termination_by s.length

theorem escapeFence_fence (t : List Char) :
    escapeFence (fence ++ t) = '\\' :: (fence ++ escapeFence t) := rfl

theorem escapeFence_cons {c : Char} {t : List Char} (h : startsWith fence (c :: t) = false) :
    escapeFence (c :: t) = c :: escapeFence t := by
  rw [escapeFence, replace, replaceAfter]
  simp only [h, Bool.false_eq_true, if_false]
  rfl

theorem not_mem_fence {c : Char} (hc : c ≠ '"') : c ∉ fence := by
  simp [fence, hc]

/-- A character that is no quote stands between the delimiters. -/
theorem escapeFence_append {c : Char} (hc : c ≠ '"') (s t : List Char) :
    escapeFence (s ++ c :: t) = escapeFence s ++ c :: escapeFence t := by
  induction s using fence_induction with
  | nil =>
    have hno : startsWith fence (c :: t) = false :=
      startsWith_append_cons t (s := []) (not_mem_fence hc)
    rw [List.nil_append, escapeFence_cons hno]
    rfl
  | delimiter s ih =>
    rw [List.append_assoc, escapeFence_fence, ih, escapeFence_fence]
    simp
  | other a s h ih =>
    have hno : startsWith fence (a :: (s ++ c :: t)) = false :=
      (startsWith_append_cons t (s := a :: s) (not_mem_fence hc)).trans h
    rw [List.cons_append, escapeFence_cons hno, ih, escapeFence_cons h, List.cons_append]

theorem mem_escapeFence {c : Char} (hc : c ≠ '\\') {s : List Char} :
    c ∈ escapeFence s ↔ c ∈ s := by
  induction s using fence_induction with
  | nil => rfl
  | delimiter s ih => simp [escapeFence_fence, hc, ih]
  | other a s h ih => simp [escapeFence_cons h, ih]

theorem getLast?_escapeFence (s : List Char) : (escapeFence s).getLast? = s.getLast? := by
  induction s using fence_induction with
  | nil => rfl
  | delimiter s ih =>
    rw [escapeFence_fence, ← List.cons_append, List.getLast?_append, ih, List.getLast?_append]
    rfl
  | other a s h ih => rw [escapeFence_cons h, List.getLast?_cons, ih, List.getLast?_cons]

theorem isEmpty_escapeFence (s : List Char) : (escapeFence s).isEmpty = s.isEmpty := by
  have hlast := getLast?_escapeFence s
  rw [Bool.eq_iff_iff, List.isEmpty_iff, List.isEmpty_iff, ← List.getLast?_eq_none_iff, hlast,
    List.getLast?_eq_none_iff]

theorem withoutLineEnd_escapeFence (line : List Char) :
    withoutLineEnd (escapeFence line ++ ['\n']) =
      escapeFence (withoutLineEnd (line ++ ['\n'])) := by
  by_cases hlast : line.getLast? = some '\r'
  · obtain ⟨init, rfl⟩ := List.getLast?_eq_some_iff.1 hlast
    rw [escapeFence_append (by decide), withoutLineEnd_carriageReturn]
    exact withoutLineEnd_carriageReturn _
  · rw [withoutLineEnd_lineFeed hlast, withoutLineEnd_lineFeed]
    rwa [getLast?_escapeFence]

/-- **Escaping a text escapes its lines.** -/
theorem lines_escapeFence (s : List Char) : lines (escapeFence s) = (lines s).map escapeFence := by
  induction s using line_induction with
  | last line h =>
    have hline : '\n' ∉ escapeFence line := mt (mem_escapeFence (by decide)).1 h
    by_cases hne : line = []
    · subst hne
      rfl
    · have hne' : escapeFence line ≠ [] := by
        rw [ne_eq, ← List.isEmpty_iff, isEmpty_escapeFence, List.isEmpty_iff]
        exact hne
      rw [lines_of_not_mem hline hne', lines_of_not_mem h hne]
      rfl
  | more line t h ih =>
    have hline : '\n' ∉ escapeFence line := mt (mem_escapeFence (by decide)).1 h
    rw [escapeFence_append (by decide), lines_append hline, ih, lines_append h,
      withoutLineEnd_escapeFence, List.map_cons]

/-! ### Descriptions and strings -/

theorem readFenced_fence (rest : List Char) : readFenced (fence ++ rest) = some ([], rest) := rfl

theorem readFenced_escaped (rest : List Char) : readFenced ('\\' :: (fence ++ rest)) =
    (readFenced rest).map fun (s, left) => (fence ++ s, left) := rfl

theorem readFenced_cons {c : Char} {rest : List Char} (h : startsWith fence (c :: rest) = false)
    (hb : c = '\\' → startsWith fence rest = false) :
    readFenced (c :: rest) = (readFenced rest).map fun (s, left) => (c :: s, left) := by
  rw [readFenced]
  · rintro a rfl rfl
    exact nomatch hb rfl
  · rintro a rfl rfl
    exact nomatch h

theorem quote_of_escapeFence {c : Char} (hc : c ≠ '"') {s t u : List Char}
    (h : escapeFence s ++ c :: t = '"' :: u) :
    ∃ s', s = '"' :: s' ∧ escapeFence s' ++ c :: t = u := by
  induction s using fence_induction with
  | nil => exact absurd (List.cons.inj h).1 hc
  | delimiter s => exact nomatch (List.cons.inj h).1
  | other a s hno =>
    rw [escapeFence_cons hno, List.cons_append] at h
    obtain ⟨rfl, rfl⟩ := List.cons.inj h
    exact ⟨s, rfl, rfl⟩

/-- **An escaped text starts with no delimiter**, as long as no quote follows it. -/
theorem startsWith_escapeFence {c : Char} (hc : c ≠ '"') (s t : List Char) :
    startsWith fence (escapeFence s ++ c :: t) = false := by
  rw [← Bool.not_eq_true, startsWith_iff]
  rintro ⟨rest, h⟩
  obtain ⟨s₁, rfl, h₁⟩ := quote_of_escapeFence hc h
  obtain ⟨s₂, rfl, h₂⟩ := quote_of_escapeFence hc h₁
  obtain ⟨s₃, rfl, -⟩ := quote_of_escapeFence hc h₂
  exact nomatch (List.cons.inj h).1

/-- **An escaped text is read back**, and what follows it is read then. -/
theorem readFenced_escapeFence {c : Char} (hc : c ≠ '"') (s rest : List Char) :
    readFenced (escapeFence s ++ c :: rest) =
      (readFenced (c :: rest)).map fun (t, left) => (s ++ t, left) := by
  induction s using fence_induction with
  | nil => simp [escapeFence, replace, replaceAfter]
  | delimiter s ih =>
    rw [escapeFence_fence, List.cons_append, List.append_assoc, readFenced_escaped, ih,
      Option.map_map]
    simp [Function.comp_def]
  | other a s h ih =>
    have hno := startsWith_escapeFence hc (a :: s) rest
    rw [escapeFence_cons h, List.cons_append] at hno ⊢
    rw [readFenced_cons hno fun _ => startsWith_escapeFence hc s rest, ih, Option.map_map]
    rfl

theorem readFenced_plain {plain : List Char} (h : ∀ c ∈ plain, c ≠ '"' ∧ c ≠ '\\')
    (rest : List Char) :
    readFenced (plain ++ rest) = (readFenced rest).map fun (s, left) => (plain ++ s, left) := by
  induction plain with
  | nil => simp
  | cons c plain ih =>
    obtain ⟨⟨hquote, hback⟩, hplain⟩ := List.forall_mem_cons.1 h
    have hno : startsWith fence (c :: (plain ++ rest)) = false :=
      startsWith_append_cons (plain ++ rest) (s := []) (not_mem_fence hquote)
    rw [List.cons_append, readFenced_cons hno fun hc => absurd hc hback, ih hplain, Option.map_map]
    rfl

section Descriptions

variable {indent : List Char}

/-- **A line is read back**, with its indent and its line feed. -/
theorem readFenced_line (hindent : ∀ c ∈ indent, c = ' ') (line rest : List Char) :
    readFenced (descriptionLine indent (escapeFence line) ++ rest) =
      (readFenced rest).map fun (s, left) => (descriptionLine indent line ++ s, left) := by
  have hplain : ∀ c ∈ indent, c ≠ '"' ∧ c ≠ '\\' := fun c hc => hindent c hc ▸ by decide
  have hfeed : ∀ c ∈ ['\n'], c ≠ '"' ∧ c ≠ '\\' := List.forall_mem_singleton.2 (by decide)
  unfold descriptionLine
  rw [isEmpty_escapeFence]
  split
  · exact readFenced_plain hfeed rest
  · rw [List.append_assoc, List.append_assoc, List.singleton_append, readFenced_plain hplain,
      readFenced_escapeFence (by decide), ← List.singleton_append, readFenced_plain hfeed,
      Option.map_map, Option.map_map]
    simp [Function.comp_def]

/-- **Lines are read back**, and then what follows them. -/
theorem readFenced_lines (hindent : ∀ c ∈ indent, c = ' ') (rest : List Char) :
    ∀ ls : List (List Char),
      readFenced ((ls.map escapeFence).flatMap (descriptionLine indent) ++ rest) =
        (readFenced rest).map fun (s, left) => (ls.flatMap (descriptionLine indent) ++ s, left)
  | [] => by simp
  | line :: ls => by
    rw [List.map_cons, List.flatMap_cons, List.append_assoc, readFenced_line hindent,
      readFenced_lines hindent rest ls, Option.map_map]
    simp [Function.comp_def]

/-- A line behind its indent; an empty line has none. -/
def indented (indent line : List Char) : List Char := if line.isEmpty then [] else indent ++ line

theorem descriptionLine_eq (indent line : List Char) :
    descriptionLine indent line = indented indent line ++ ['\n'] := by
  unfold descriptionLine indented
  split <;> simp

theorem withoutIndent?_indented (indent line : List Char) :
    withoutIndent? indent (indented indent line) = some line := by
  unfold withoutIndent? indented
  cases line with
  | nil => rfl
  | cons c line =>
    have hdrop : dropLeading? indent (indent ++ c :: line) = some (c :: line) :=
      dropLeading?_eq_some_iff.2 rfl
    simpa using hdrop

theorem mapM_withoutIndent? (indent : List Char) :
    ∀ ls : List (List Char), (ls.map (indented indent)).mapM (withoutIndent? indent) = some ls
  | [] => rfl
  | line :: ls => by
    rw [List.map_cons, List.mapM_cons, withoutIndent?_indented, mapM_withoutIndent? indent ls]
    rfl

theorem not_mem_indented (hindent : ∀ c ∈ indent, c = ' ') {line : List Char}
    (h : '\n' ∉ line) : '\n' ∉ indented indent line := by
  unfold indented
  split
  · exact List.not_mem_nil
  · refine fun hmem => (List.mem_append.1 hmem).elim (fun hspace => ?_) h
    exact absurd (hindent _ hspace) (by decide)

/-- The lines of a description are where they were written: between line feeds. -/
theorem splitAt_lines (hindent : ∀ c ∈ indent, c = ' ') : ∀ {ls : List (List Char)},
    (∀ line ∈ ls, '\n' ∉ line) →
      splitAt '\n' (ls.flatMap (descriptionLine indent) ++ indent) =
        ls.map (indented indent) ++ [indent]
  | [], _ => splitAt_of_not_mem fun h => absurd (hindent _ h) (by decide)
  | line :: ls, h => by
    obtain ⟨hline, hls⟩ := List.forall_mem_cons.1 h
    rw [List.flatMap_cons, descriptionLine_eq, List.append_assoc, List.append_assoc,
      List.singleton_append, splitAt_append, splitAt_of_not_mem (not_mem_indented hindent hline),
      splitAt_lines hindent hls]
    rfl

/-- Between the delimiters of a description there are its lines. -/
theorem fencedLines?_lines (hindent : ∀ c ∈ indent, c = ' ') {ls : List (List Char)}
    (h : ∀ line ∈ ls, '\n' ∉ line) :
    fencedLines? indent ('\n' :: (ls.flatMap (descriptionLine indent) ++ indent)) = some ls := by
  have hsplit : splitAt '\n' ('\n' :: (ls.flatMap (descriptionLine indent) ++ indent)) =
      [] :: (ls.map (indented indent) ++ [indent]) := by
    rw [← splitAt_lines hindent h]
    exact splitAt_append [] _
  unfold fencedLines?
  rw [hsplit]
  simp only [List.getLast?_concat, if_true, List.dropLast_concat, mapM_withoutIndent?]

/-- **A description is read back.** It ends at its own closing delimiter, and its lines are those of
the text. -/
theorem readDescription?_description (hindent : ∀ c ∈ indent, c = ' ') (s rest : List Char) :
    readDescription? indent (description indent s ++ rest) = some (lines s, '\n' :: rest) := by
  have hopen : dropLeading? (indent ++ fence) (description indent s ++ rest) =
      some ('\n' :: ((lines s).map escapeFence).flatMap (descriptionLine indent) ++
        (indent ++ (fence ++ '\n' :: rest))) := by
    rw [dropLeading?_eq_some_iff, description, lines_escapeFence]
    simp
  have hfeed : ∀ c ∈ ['\n'], c ≠ '"' ∧ c ≠ '\\' := List.forall_mem_singleton.2 (by decide)
  have hplain : ∀ c ∈ indent, c ≠ '"' ∧ c ≠ '\\' := fun c hc => hindent c hc ▸ by decide
  have hread : readFenced ('\n' :: ((lines s).map escapeFence).flatMap (descriptionLine indent) ++
        (indent ++ (fence ++ '\n' :: rest))) =
      some ('\n' :: ((lines s).flatMap (descriptionLine indent) ++ indent), '\n' :: rest) := by
    rw [List.cons_append, ← List.singleton_append, readFenced_plain hfeed, readFenced_lines hindent,
      readFenced_plain hplain, readFenced_fence]
    simp
  have hlines := fencedLines?_lines hindent (not_mem_of_mem_lines (s := s))
  rw [readDescription?, hopen, Option.bind_some, hread, Option.bind_some]
  exact congrArg (Option.map (·, '\n' :: rest)) hlines

end Descriptions

theorem readChars?_escape (s rest : List Char) :
    readChars? (s.flatMap escapeChar ++ '"' :: rest) = some (s, rest) := by
  induction s with
  | nil => rfl
  | cons c s ih =>
    rw [List.flatMap_cons, List.append_assoc]
    by_cases hq : c = '"'
    · subst hq
      simp [escapeChar, readChars?, unescapeChar?, ih]
    by_cases hb : c = '\\'
    · subst hb
      simp [escapeChar, readChars?, unescapeChar?, ih]
    by_cases hn : c = '\n'
    · subst hn
      simp [escapeChar, readChars?, unescapeChar?, ih]
    by_cases ht : c = '\t'
    · subst ht
      simp [escapeChar, readChars?, unescapeChar?, ih]
    · simp [escapeChar, readChars?, hq, hb, hn, ht, ih]

/-- **A string is read back.** It ends at its own closing quote. -/
theorem readString?_quoted (s rest : List Char) :
    readString? (quoted s ++ rest) = some (s, rest) := by
  have hopen : dropLeading? ['"'] (quoted s ++ rest) =
      some (s.flatMap escapeChar ++ '"' :: rest) := by
    rw [dropLeading?_eq_some_iff, quoted]
    simp
  rw [readString?, hopen, Option.bind_some, readChars?_escape]

/-- **What is printed in quotes stays in them.** A description with any indent of spaces ends for its
reader at the delimiter on its last line, whatever follows, and gives the lines of the text; a string
ends at its last character and gives the text. -/
theorem printed_texts_close :
    (∀ (width : Nat) (s rest : List Char),
      readDescription? (List.replicate width ' ')
          (description (List.replicate width ' ') s ++ rest) = some (lines s, '\n' :: rest)) ∧
      ∀ s rest : List Char, readString? (quoted s ++ rest) = some (s, rest) := by
  refine ⟨fun width s rest => ?_, readString?_quoted⟩
  exact readDescription?_description (fun c hc => List.eq_of_mem_replicate hc) s rest

example : readDescription? indent
    (description indent "say \\\"\"\"\"hi\"\"\r\n\nend\"".toList ++ "  id: ID!".toList) =
      some (["say \\\"\"\"\"hi\"\"".toList, [], "end\"".toList], "\n  id: ID!".toList) := by
  decide

end Sdl

end GoSchema
