/-
# Values and parameters at byte positions

A string, a list, an unquoted value and the parameters of a directive are read at a byte position as
they are read from what is left of the text, and the position behind them is the place of what is
left then. The source text of a value is cut out between two such places. A bracket is closed in a
list item only where one is open, and what turns out not to be a key is read again from its place.

Key definitions: `quotedFrom`, `itemEnd`, `bareEnd`, `readEntry`.
Key theorems: `reads_cut`, `reads_quoted`, `reads_item`, `reads_list`, `reads_bare`, `reads_value`,
`reads_param`, `reads_params`, `reads_directive`.
-/
import GoSchema.Proofs.CursorLoops
import GoSchema.Proofs.Outcome

namespace GoSchema

namespace Cursor

open Reader Unicode Text Directive

variable {src s left rest : List Char}

/-- What a loop passes over is cut out between the place where it begins and the one where it
ends. -/
theorem reads_cut {ε α : Type} {x : Except (Stop ε) (Unit × Nat)}
    {y : Except ε (List Char × List Char)}
    (h : Reads src s x (y.map fun (_, left) => ((), left))) (hs : s <:+ src)
    (hsplit : ∀ piece left, y = .ok (piece, left) → s = piece ++ left) (f : List Char → α) :
    Reads src s
      (x >>= fun (_, stop) => slice src (place src s) stop >>= fun piece => pure (f piece, stop))
      (y.map fun (piece, left) => (f piece, left)) := by
  cases hread : y with
  | error e =>
    rw [hread] at h
    cases h
    exact .fault _
  | ok p =>
    obtain ⟨piece, left⟩ := p
    have hs' := hsplit piece left hread
    have hslice := slice_place (ε := ε) (hs' ▸ hs)
    rw [← hs'] at hslice
    rw [hread] at h
    cases h with
    | value _ hleft =>
      simp only [ok_bind, hslice]
      exact .value _ hleft

/-- What is read of a string, behind what has been read of it. -/
def quotedFrom (quote : Char) (text s : List Char) :
    Except ValueFault (List Char × List Char) :=
  match readQuoted quote s with
  | none => .error .unterminatedString
  | some (more, left) => .ok (text ++ more, left)

theorem quotedFrom_of_map {quote : Char} {text more s left : List Char}
    (h : readQuoted quote s = (readQuoted quote left).map fun (t, rest) => (more ++ t, rest)) :
    quotedFrom quote text s = quotedFrom quote (text ++ more) left := by
  rw [quotedFrom, quotedFrom, h]
  cases readQuoted quote left with
  | none => rfl
  | some p => simp [List.append_assoc]

theorem reads_quotedRound (quote : Char) (text : List Char) (hs : s <:+ src) :
    RoundReads src s (quotedFrom quote) text (quotedRound src quote text (place src s)) := by
  rw [quotedRound]
  cases s with
  | nil =>
    rw [bump_nil]
    exact .fault rfl
  | cons c rest =>
    have hrest : rest <:+ c :: rest := List.suffix_cons c rest
    simp only [bump_cons hs, ok_bind]
    by_cases hback : c = '\\'
    · subst hback
      rw [if_pos rfl]
      cases rest with
      | nil =>
        rw [bump_nil]
        exact .fault rfl
      | cons d rest =>
        rw [bump_cons (hrest.trans hs)]
        exact .again ((List.suffix_cons d rest).trans hrest)
          (Nat.lt_succ_of_lt (Nat.lt_succ_self _)) (quotedFrom_of_map rfl)
    · rw [if_neg hback]
      have hread : readQuoted quote (c :: rest) = if c = quote then some ([], rest)
          else (readQuoted quote rest).map fun (s, left) => (c :: s, left) := by
        simp [readQuoted, hback]
      by_cases hc : c = quote
      · rw [if_pos hc] at hread ⊢
        exact .done hrest (by simp [quotedFrom, hread])
      · rw [if_neg hc] at hread ⊢
        exact .again hrest (Nat.lt_succ_self _) (quotedFrom_of_map hread)

/-- A string is read as it is without its opening quote. -/
theorem reads_quoted {c : Char} (quote : Char) (hs : c :: rest <:+ src) :
    Reads src rest (quoted src quote (place src (c :: rest))) (quotedFrom quote [] rest) := by
  rw [quoted, bump_cons hs, ok_bind]
  have hrest : rest <:+ src := (List.suffix_cons c rest).trans hs
  exact reads_loop (fun text _ hs => reads_quotedRound quote text hs) rest hrest []

/-- Where an unquoted list item ends that has been read up to `depth` open brackets. -/
def itemEnd (depth : Nat) (s : List Char) : Except ValueFault (Unit × List Char) :=
  (readListItem depth s).map fun (_, left) => ((), left)

theorem itemEnd_cons {depth next : Nat} {c : Char}
    (hend : (depth = 0 && (c = ',' || c = ']')) = false) (hquote : isQuote c = false)
    (hnext : next = if c = '[' then depth + 1 else if c = ']' then depth - 1 else depth) :
    itemEnd depth (c :: rest) = itemEnd next rest := by
  rw [itemEnd, readListItem, hend, hquote, ← hnext, itemEnd]
  cases readListItem next rest <;> rfl

/-- A bracket is closed in a list item only where one is open. -/
theorem reads_itemRound (depth : Nat) (hs : s <:+ src) :
    RoundReads src s itemEnd depth (itemRound src depth (place src s)) := by
  rw [itemRound, peek_place hs]
  cases s with
  | nil => exact .done List.nil_suffix rfl
  | cons c rest =>
    have hrest : rest <:+ c :: rest := List.suffix_cons c rest
    simp only [List.head?_cons, ok_bind, bump_cons hs]
    cases hend : (depth = 0 && (c = ',' || c = ']') : Bool) with
    | true => exact .done List.suffix_rfl (by simp [itemEnd, readListItem, hend, Except.map])
    | false =>
      cases hquote : isQuote c with
      | true =>
        simp only [itemDepth, hquote, if_true]
        exact .fault (by simp [itemEnd, readListItem, hend, hquote, Except.map])
      | false =>
        have hdepth : itemDepth depth c =
            .ok (if c = '[' then depth + 1 else if c = ']' then depth - 1 else depth) := by
          unfold itemDepth
          rw [hquote]
          split
          · contradiction
          · split
            · rfl
            · split
              · cases depth with
                | zero => simp_all
                | succ depth => rfl
              · rfl
        simp only [hdepth, ok_bind]
        exact .again hrest (Nat.lt_succ_self _) (itemEnd_cons hend hquote rfl)

theorem readListItem_append {depth : Nat} {piece : List Char}
    (h : readListItem depth s = .ok (piece, left)) : s = piece ++ left := by
  induction s generalizing depth piece with
  | nil => simp_all [readListItem]
  | cons c rest ih =>
    rw [readListItem] at h
    split at h
    · cases h
      rfl
    · split at h
      · cases h
      · obtain ⟨⟨more, end'⟩, hmore, heq⟩ := Outcome.map_eq_ok_iff.1 h
        obtain ⟨rfl, rfl⟩ := Prod.mk.inj heq
        rw [ih hmore, List.cons_append]

theorem reads_item {c : Char} (hs : c :: rest <:+ src) :
    Reads src (c :: rest) (item src c (place src (c :: rest))) (readItem (c :: rest)) := by
  unfold item readItem
  cases hquote : isQuote c with
  | true =>
    simp only [hquote, if_true]
    have h := (reads_quoted c hs).map fun text => [String.ofList text]
    refine (h.mono (List.suffix_cons c rest)).of_eq ?_
    unfold quotedFrom
    cases readQuoted c rest <;> rfl
  | false =>
    simp only [hquote, Bool.false_eq_true, if_false]
    have hloop := reads_loop (fun depth _ hs => reads_itemRound depth hs) _ hs 0
    exact reads_cut hloop hs (fun _ _ => readListItem_append) fun piece =>
      if (trim piece).isEmpty then [] else [String.ofList (trim piece)]

theorem isSequence_readList :
    IsSequence ']' readItem .unterminatedList .expectedInList readList := by
  intro s
  rw [readList]
  split
  · rename_i h
    rw [h]
  · rename_i c rest h
    rw [h]
    dsimp only
    split
    · rfl
    · split
      · rename_i hitem
        rw [hitem]
      · rename_i hitem
        rw [hitem]
        dsimp only
        split <;> rename_i hleft <;> rw [hleft]

theorem reads_list {c : Char} (hs : c :: rest <:+ src) :
    Reads src rest (list src (place src (c :: rest))) (readList rest) :=
  reads_entries isSequence_readList (fun _ _ hs => reads_item hs) hs

theorem reads_trailing (stops : List Char) (hs : s <:+ src) :
    Reads src s (loop (byteLength src) (trailingRound src stops) () (place src s))
      ((skipTrailing stops s).map fun left => ((), left)) := by
  refine reads_loop (F := fun _ s => (skipTrailing stops s).map fun left => ((), left))
    (fun _ s hs => ?_) s hs ()
  rw [trailingRound, peek_place hs]
  cases s with
  | nil => exact .done List.nil_suffix rfl
  | cons c rest =>
    simp only [List.head?_cons, ok_bind, bump_cons hs]
    split
    · rename_i hstop
      exact .done List.suffix_rfl (by rw [skipTrailing, if_pos hstop]; rfl)
    · rename_i hstop
      split
      · rename_i hopen
        exact .fault (by rw [skipTrailing, if_neg hstop, if_pos hopen]; rfl)
      · rename_i hopen
        exact .again (List.suffix_cons c rest) (Nat.lt_succ_self _)
          (by rw [skipTrailing, if_neg hstop, if_neg hopen])

/-- Where an unquoted value ends that has been read up to `depth` open brackets. -/
def bareEnd (stops : List Char) (depth : Nat) (s : List Char) :
    Except ValueFault (Unit × List Char) :=
  (readBare stops depth s).map fun (_, left) => ((), left)

/-- A character of an unquoted value opens or closes brackets alike in both readings. -/
theorem bareDepth_cases {stops : List Char} {depth : Nat} {c : Char}
    (hstop : ¬ (depth = 0 && stops.contains c) = true) (rest : List Char) :
    (∃ next, bareDepth depth c = .ok next ∧
      bareEnd stops depth (c :: rest) = bareEnd stops next rest) ∨
    ∃ e, bareDepth depth c = .error (.fault e) ∧ bareEnd stops depth (c :: rest) = .error e := by
  have hmap : ∀ next, ((readBare stops next rest).map fun (s, left) => (c :: s, left)).map
      (fun (_, left) => ((), left)) = bareEnd stops next rest := by
    intro next
    rw [bareEnd]
    cases readBare stops next rest <;> rfl
  rw [bareEnd, readBare, if_neg hstop]
  unfold bareDepth
  split
  · exact .inl ⟨_, rfl, hmap _⟩
  · split
    · split
      · exact .inr ⟨_, rfl, rfl⟩
      · exact .inl ⟨_, rfl, hmap _⟩
    · split
      · exact .inr ⟨_, rfl, rfl⟩
      · exact .inl ⟨_, rfl, hmap _⟩

theorem reads_bareRound (stops : List Char) (depth : Nat) (hs : s <:+ src) :
    RoundReads src s (bareEnd stops) depth (bareRound src stops depth (place src s)) := by
  rw [bareRound, peek_place hs]
  cases s with
  | nil =>
    simp only [List.head?_nil, ok_bind]
    split
    · rename_i hdepth
      exact .done List.suffix_rfl (by rw [bareEnd, readBare, if_pos hdepth]; rfl)
    · rename_i hdepth
      exact .fault (by rw [bareEnd, readBare, if_neg hdepth]; rfl)
  | cons c rest =>
    simp only [List.head?_cons, ok_bind, bump_cons hs]
    split
    · rename_i hstop
      exact .done List.suffix_rfl (by rw [bareEnd, readBare, if_pos hstop]; rfl)
    · rename_i hstop
      rcases bareDepth_cases hstop rest with ⟨next, hdepth, hnext⟩ | ⟨e, hdepth, he⟩
      · rw [hdepth]
        exact .again (List.suffix_cons c rest) (Nat.lt_succ_self _) hnext
      · rw [hdepth]
        exact .fault he

theorem readBare_append {stops piece : List Char} {depth : Nat}
    (h : readBare stops depth s = .ok (piece, left)) : s = piece ++ left := by
  induction s generalizing depth piece with
  | nil =>
    rw [readBare] at h
    split at h
    · cases h
      rfl
    · cases h
  | cons c rest ih =>
    have hmore : ∀ next, (readBare stops next rest).map (fun (s, left) => (c :: s, left)) =
        .ok (piece, left) → c :: rest = piece ++ left := by
      intro next hnext
      obtain ⟨⟨more, left'⟩, hread, heq⟩ := Outcome.map_eq_ok_iff.1 hnext
      obtain ⟨rfl, rfl⟩ := Prod.mk.inj heq
      rw [ih hread, List.cons_append]
    rw [readBare] at h
    split at h
    · cases h
      rfl
    · split at h
      · exact hmore _ h
      · split at h
        · split at h
          · cases h
          · exact hmore _ h
        · split at h
          · cases h
          · exact hmore _ h

/-- An unquoted value as the text that is read of it. -/
def bareValue (stops s : List Char) : Except ValueFault (Value × List Char) :=
  (readBare stops 0 s).map fun (text, left) => (.text (String.ofList (trim text)), left)

theorem reads_bare (stops : List Char) (hs : s <:+ src) :
    Reads src s (bare src stops (place src s)) (bareValue stops s) := by
  have hloop := reads_loop (fun depth _ hs => reads_bareRound stops depth hs) s hs 0
  exact reads_cut hloop hs (fun _ _ => readBare_append) fun text =>
    Value.text (String.ofList (trim text))

theorem reads_valueAt (stops : List Char) (hs : s <:+ src) :
    Reads src s (valueAt src stops (place src s)) (readValueAt stops s) := by
  rw [valueAt, peek_place hs, ok_bind]
  cases s with
  | nil => exact reads_bare stops hs
  | cons c rest =>
    have hrest : rest <:+ c :: rest := List.suffix_cons c rest
    simp only [List.head?_cons, readValueAt]
    split
    · have h := (reads_quoted c hs).map fun text => Value.text (String.ofList text)
      refine (h.mono hrest).of_eq ?_
      unfold quotedFrom
      cases readQuoted c rest <;> rfl
    · split
      · have htrailing : ∀ (items : List String) (left : List Char), left <:+ rest →
            Reads src left (loop (byteLength src) (trailingRound src stops) () (place src left) >>=
                fun q => pure (Value.list items, q.2))
              ((skipTrailing stops left).map fun left => (Value.list items, left)) := by
          intro items left hleft
          have h := reads_trailing stops (hleft.trans (hrest.trans hs))
          refine (h.map fun _ => Value.list items).of_eq ?_
          cases skipTrailing stops left <;> rfl
        have h := (reads_list hs).bind
          (f := fun p => loop (byteLength src) (trailingRound src stops) () p.2 >>=
            fun q => pure (Value.list p.1, q.2))
          (g := fun p => (skipTrailing stops p.2).map fun left => (Value.list p.1, left)) htrailing
        refine (h.mono hrest).of_eq ?_
        cases readList rest <;> rfl
      · exact reads_bare stops hs

/-- **A value is read with its source text**, and the white space around it is passed over. -/
theorem reads_value (stops : List Char) (hs : s <:+ src) :
    Reads src s (value src stops (place src s))
      ((readValue stops s).map fun r => ((r.value, r.raw), r.left)) := by
  have hblank : skipBlank s <:+ s := skipBlank_suffix s
  have hstart : skipBlank s <:+ src := hblank.trans hs
  have h := reads_valueAt stops hstart
  rw [value, blanks_place hs, ok_bind, readValue]
  generalize valueAt src stops (place src (skipBlank s)) = x at h ⊢
  cases hread : readValueAt stops (skipBlank s) with
  | error e =>
    rw [hread] at h
    cases h
    exact .fault _
  | ok p =>
    obtain ⟨v, left⟩ := p
    rw [hread] at h
    cases h with
    | value _ hleft =>
      obtain ⟨piece, hpiece⟩ := hleft
      have hslice := slice_place (ε := ValueFault) (hpiece ▸ hstart)
      rw [hpiece] at hslice
      have hconsumed : consumed (skipBlank s) left = piece := hpiece ▸ consumed_append piece left
      have hleft' : left <:+ skipBlank s := ⟨piece, hpiece⟩
      simp only [ok_bind, hslice, blanks_place (hleft'.trans hstart), Except.map, hconsumed]
      exact .value _ ((skipBlank_suffix left).trans (hleft'.trans hblank))

/-! ### Directives -/

/-- **A parameter is read from its beginning again** where it has no key. -/
theorem reads_param (hs : s <:+ src) :
    Reads src s (param src (place src s)) (readParam s) := by
  have hdrop : s.dropWhile isIdentChar <:+ s := List.dropWhile_suffix _
  have hnext : skipBlank (s.dropWhile isIdentChar) <:+ s :=
    (skipBlank_suffix _).trans hdrop
  rw [param, ident_place hs, ok_bind]
  simp only [blanks_place (hdrop.trans hs), ok_bind, peek_place (hnext.trans hs)]
  unfold readParam
  generalize s.takeWhile isIdentChar = key
  generalize skipBlank (s.dropWhile isIdentChar) = next at hnext
  by_cases hcolon : ∃ k ks rest, key = k :: ks ∧ next = ':' :: rest
  · obtain ⟨k, ks, rest, rfl, rfl⟩ := hcolon
    have hrest : rest <:+ s := (List.suffix_cons ':' rest).trans hnext
    rw [if_pos (by simp), bump_cons (hnext.trans hs)]
    have h := (reads_value [',', ')'] (hrest.trans hs)).map fun p =>
      (⟨some (k :: ks), p.1, p.2⟩ : WrittenParam)
    refine (h.mono hrest).of_eq ?_
    simp only
    cases readValue [',', ')'] rest <;> rfl
  · have hcond : ¬ (!key.isEmpty && decide (next.head? = some ':')) = true := by
      intro h
      simp only [Bool.and_eq_true, Bool.not_eq_true', List.isEmpty_eq_false_iff,
        decide_eq_true_eq] at h
      obtain ⟨k, ks, hkey⟩ := List.exists_cons_of_ne_nil h.1
      obtain ⟨rest, hrest⟩ := List.head?_eq_some_iff.1 h.2
      exact hcolon ⟨k, ks, rest, hkey, hrest⟩
    rw [if_neg hcond]
    have h := (reads_value [',', ')'] hs).map fun p => (⟨none, p.1, p.2⟩ : WrittenParam)
    refine h.of_eq ?_
    dsimp only
    split
    · exact absurd ⟨_, _, _, rfl, rfl⟩ hcolon
    · cases readValue [',', ')'] s <;> rfl

/-- A parameter as one entry of a sequence. -/
def readEntry (s : List Char) : Except DirectiveCause (List WrittenParam × List Char) :=
  ((readParam s).mapError DirectiveCause.value).map fun p => ([p.1], p.2)

theorem reads_paramEntry {c : Char} (hs : c :: rest <:+ src) :
    Reads src (c :: rest) (paramEntry src c (place src (c :: rest))) (readEntry (c :: rest)) :=
  ((reads_param hs).mapError DirectiveCause.value).map fun p => [p]

theorem isSequence_readParams :
    IsSequence ')' readEntry .unbalancedParenthesis .expectedInParams readParams := by
  intro s
  rw [readParams]
  split
  · rename_i h
    rw [h]
  · rename_i c rest h
    rw [h]
    dsimp only
    split
    · rfl
    · split
      · rename_i hparam
        rw [readEntry, hparam]
        rfl
      · rename_i hparam
        rw [readEntry, hparam]
        simp only [Except.mapError, Except.map]
        split <;> rename_i hleft <;> rw [hleft]
        rfl

theorem reads_params {c : Char} (hs : c :: rest <:+ src) :
    Reads src rest (params src (place src (c :: rest))) (readParams rest) :=
  reads_entries isSequence_readParams (fun _ _ hs => reads_paramEntry hs) hs

theorem reads_directive (kind : Directive.Kind) (hs : s <:+ src) :
    Reads src s (directive src kind (place src s)) (readDirective kind s) := by
  have hbind : ∀ (ps : List WrittenParam) (left : List Char), Reads src left
      ((bindAll kind ps).mapError .fault >>= fun bound => pure (bound, place src left))
      ((bindAll kind ps).map fun params => (params, left)) := by
    intro ps left
    cases bindAll kind ps with
    | error e => exact .fault e
    | ok params => exact .value params List.suffix_rfl
  rw [directive, peek_place hs, ok_bind]
  by_cases hopen : ∃ rest, s = '(' :: rest
  · obtain ⟨rest, rfl⟩ := hopen
    rw [if_pos (by rfl), readDirective]
    have h := (reads_params hs).bind
      (f := fun p => (bindAll kind p.1).mapError .fault >>= fun bound => pure (bound, p.2))
      (g := fun p => (bindAll kind p.1).map fun params => (params, p.2))
      fun ps left _ => hbind ps left
    refine (h.mono (List.suffix_cons '(' rest)).of_eq ?_
    cases readParams rest <;> rfl
  · have hno : s.head? ≠ some '(' := by
      intro h
      exact hopen (List.head?_eq_some_iff.1 h)
    rw [if_neg hno]
    refine (hbind [] s).of_eq ?_
    unfold readDirective
    split
    · exact absurd ⟨_, rfl⟩ hopen
    · rfl

end Cursor

end GoSchema
