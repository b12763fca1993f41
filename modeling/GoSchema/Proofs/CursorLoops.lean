/-
# Loops over a text

A reading that keeps a byte position in a text is held against one that takes what is left of the
text as a list of characters. An end of the text has a place, which is the number of the bytes
before it; cutting at a place gives that end back, and the character there leads to the next place.
So a step at a place is a step on what is left. A loop takes such steps in rounds: if every round
that is not the last leaves a shorter end, the loop agrees with the reading of what is left and does
not come to a standstill.

Lists and parameters are sequences with commas between their entries. A round over an entry moves on
even if the entry is empty, because the sequence then goes on with a comma.

Key definitions: `place`, `Reads`, `RoundReads`, `IsSequence`.
Key theorems: `peek_place`, `bump_cons`, `slice_place`, `Reads.bind`, `reads_loop`, `pass_place`,
`ident_place`, `reads_entryRound`, `reads_entries`.
-/
import GoSchema.Directive.Cursor

namespace GoSchema

namespace Cursor

open Reader Unicode Text Directive

variable {ε ε' σ α β : Type} {src s t left rest : List Char}

theorem ok_bind (a : α) (f : α → Except ε β) : (Except.ok a >>= f) = f a := rfl

/-! ### Places and cuts -/

/-- The byte position at which an end of a text begins. -/
def place (src s : List Char) : Nat := byteLength src - byteLength s

theorem place_self (src : List Char) : place src src = 0 := Nat.sub_self _

theorem place_nil (src : List Char) : place src [] = byteLength src := rfl

theorem byteLength_le_of_suffix (h : s <:+ t) : byteLength s ≤ byteLength t := by
  obtain ⟨before, rfl⟩ := h
  rw [byteLength_append]
  exact Nat.le_add_left _ _

theorem place_append (h : s ++ left <:+ src) :
    place src left = place src (s ++ left) + byteLength s := by
  have hle := byteLength_le_of_suffix h
  rw [byteLength_append] at hle
  unfold place
  rw [byteLength_append]
  omega

theorem place_cons {c : Char} (h : c :: rest <:+ src) :
    place src rest = place src (c :: rest) + c.utf8Size :=
  place_append (s := [c]) h

theorem byteLength_pos {s : List Char} (h : s ≠ []) : 0 < byteLength s := by
  cases s with
  | nil => exact absurd rfl h
  | cons c s => exact Nat.lt_of_lt_of_le c.utf8Size_pos (Nat.le_add_right _ _)

theorem place_lt (hs : s <:+ src) (h : left <:+ s) (hlt : left.length < s.length) :
    place src s < place src left ∧ place src left ≤ byteLength src := by
  obtain ⟨piece, rfl⟩ := h
  have hpiece : piece ≠ [] := by
    rintro rfl
    exact Nat.lt_irrefl _ hlt
  have hpos := byteLength_pos hpiece
  rw [place_append hs]
  have hle := byteLength_le_of_suffix hs
  have hle' : place src (piece ++ left) + byteLength piece ≤ byteLength src := by
    rw [← place_append hs]
    exact Nat.sub_le _ _
  omega

theorem dropBytes?_append (piece left : List Char) :
    dropBytes? (piece ++ left) (byteLength piece) = some left := by
  induction piece with
  | nil => cases left <;> rfl
  | cons c piece ih =>
    obtain ⟨n, hn⟩ : ∃ n, byteLength (c :: piece) = n + 1 :=
      Nat.exists_eq_succ_of_ne_zero (Nat.ne_of_gt (byteLength_pos (List.cons_ne_nil _ _)))
    have hle : c.utf8Size ≤ n + 1 := hn ▸ Nat.le_add_right _ _
    have hsub : n + 1 - c.utf8Size = byteLength piece := by
      rw [← hn, byteLength_cons, Nat.add_sub_cancel_left]
    rw [hn, List.cons_append, dropBytes?, if_pos hle, hsub, ih]

theorem takeBytes?_append (piece left : List Char) :
    takeBytes? (piece ++ left) (byteLength piece) = some piece := by
  induction piece with
  | nil => cases left <;> rfl
  | cons c piece ih =>
    obtain ⟨n, hn⟩ : ∃ n, byteLength (c :: piece) = n + 1 :=
      Nat.exists_eq_succ_of_ne_zero (Nat.ne_of_gt (byteLength_pos (List.cons_ne_nil _ _)))
    have hle : c.utf8Size ≤ n + 1 := hn ▸ Nat.le_add_right _ _
    have hsub : n + 1 - c.utf8Size = byteLength piece := by
      rw [← hn, byteLength_cons, Nat.add_sub_cancel_left]
    rw [hn, List.cons_append, takeBytes?, if_pos hle, hsub, ih]
    rfl

theorem dropBytes?_place (h : s <:+ src) : dropBytes? src (place src s) = some s := by
  obtain ⟨before, rfl⟩ := h
  rw [place, byteLength_append, Nat.add_sub_cancel, dropBytes?_append]

theorem peek_place (h : s <:+ src) : peek (ε := ε) src (place src s) = .ok s.head? := by
  rw [peek, dropBytes?_place h]

theorem bump_nil : bump (ε := ε) src (place src []) = .ok (none, place src []) := by
  rw [bump, peek_place (List.nil_suffix)]
  rfl

theorem bump_cons {c : Char} (h : c :: rest <:+ src) :
    bump (ε := ε) src (place src (c :: rest)) = .ok (some c, place src rest) := by
  rw [bump, peek_place h, place_cons h]
  rfl

theorem slice_place {piece : List Char} (h : piece ++ left <:+ src) :
    slice (ε := ε) src (place src (piece ++ left)) (place src left) = .ok piece := by
  have hle : place src (piece ++ left) ≤ place src left := by
    rw [place_append h]
    exact Nat.le_add_right _ _
  have hsub : place src left - place src (piece ++ left) = byteLength piece := by
    rw [place_append h, Nat.add_sub_cancel_left]
  rw [slice, slice?, if_pos hle, dropBytes?_place h, Option.bind_some, hsub, takeBytes?_append]

/-! ### Readings that agree -/

/-- A reading at positions agrees with a reading of what is left of `s`: both end in the same fault,
or both in the same value, and the position is the place of an end of `s`. -/
inductive Reads (src s : List Char) : Except (Stop ε) (α × Nat) → Except ε (α × List Char) → Prop
  | fault (e : ε) : Reads src s (.error (.fault e)) (.error e)
  | value (a : α) {left : List Char} (h : left <:+ s) :
    Reads src s (.ok (a, place src left)) (.ok (a, left))

namespace Reads

variable {x : Except (Stop ε) (α × Nat)} {y : Except ε (α × List Char)}

theorem mono (h : Reads src s x y) (hst : s <:+ t) : Reads src t x y := by
  cases h with
  | fault e => exact .fault e
  | value a h => exact .value a (h.trans hst)

theorem of_eq (h : Reads src s x y) {y' : Except ε (α × List Char)} (heq : y' = y) :
    Reads src s x y' :=
  heq ▸ h

/-- Readings in a row agree if the second ones do so from wherever the first ones end. -/
theorem bind (h : Reads src s x y) {f : α × Nat → Except (Stop ε) (β × Nat)}
    {g : α × List Char → Except ε (β × List Char)}
    (hfg : ∀ a left, left <:+ s → Reads src left (f (a, place src left)) (g (a, left))) :
    Reads src s (x >>= f) (y >>= g) := by
  cases h with
  | fault e => exact .fault e
  | value a h => exact (hfg a _ h).mono h

theorem map (h : Reads src s x y) (f : α → β) :
    Reads src s (x >>= fun p => pure (f p.1, p.2)) (y.map fun p => (f p.1, p.2)) := by
  cases h with
  | fault e => exact .fault e
  | value a h => exact .value (f a) h

theorem mapError (h : Reads src s x y) (f : ε → ε') :
    Reads src s (x.mapError (Stop.map f)) (y.mapError f) := by
  cases h with
  | fault e => exact .fault (f e)
  | value a h => exact .value a h

end Reads

/-! ### Loops -/

/-- How a round from the beginning of `s` may end, if the loop is to agree with the reading `F` of
what is left: in the fault of `F`, in its value, or further on in the text in a state from which `F`
gives the same. -/
inductive RoundReads (src s : List Char) (F : σ → List Char → Except ε (α × List Char))
    (state : σ) : Except (Stop ε) (Round σ α) → Prop
  | fault {e : ε} (h : F state s = .error e) : RoundReads src s F state (.error (.fault e))
  | done {result : α} {left : List Char} (hleft : left <:+ s) (h : F state s = .ok (result, left)) :
    RoundReads src s F state (.ok (.done result (place src left)))
  | again {next : σ} {left : List Char} (hleft : left <:+ s) (hlt : left.length < s.length)
    (h : F state s = F next left) : RoundReads src s F state (.ok (.again next (place src left)))

/-- **A loop agrees with a reading if its rounds do.** The induction is on what is left, of which
every round that is not the last takes something away; so no loop comes to a standstill. -/
theorem reads_loop {F : σ → List Char → Except ε (α × List Char)}
    {round : σ → Nat → Except (Stop ε) (Round σ α)}
    (h : ∀ state s, s <:+ src → RoundReads src s F state (round state (place src s))) :
    ∀ (s : List Char), s <:+ src → ∀ state : σ,
      Reads src s (loop (byteLength src) round state (place src s)) (F state s) := by
  intro s
  induction hn : s.length using Nat.strongRecOn generalizing s with
  | _ n ih =>
    intro hs state
    rw [loop]
    have hround := h state s hs
    generalize round state (place src s) = r at hround
    cases hround with
    | fault hF =>
      rw [hF]
      exact .fault _
    | done hleft hF =>
      rw [hF]
      exact .value _ hleft
    | again hleft hlt hF =>
      simp only [place_lt hs hleft hlt, and_self, dite_true, hF]
      exact (ih _ (hn ▸ hlt) _ rfl (hleft.trans hs) _).mono hleft

/-- A round over a character of the class leaves it out, and any other one is the last. -/
theorem pass_place (p : Char → Bool) (hs : s <:+ src) :
    pass (ε := ε) src p (place src s) = .ok (place src (s.dropWhile p)) := by
  have hloop : Reads (ε := ε) src s (loop (byteLength src) (passRound src p) () (place src s))
      (.ok ((), s.dropWhile p)) := by
    refine reads_loop (F := fun _ s => .ok ((), s.dropWhile p)) (fun _ s hs => ?_) s hs ()
    rw [passRound, peek_place hs]
    cases s with
    | nil => exact .done List.nil_suffix rfl
    | cons c rest =>
      simp only [List.head?_cons, ok_bind, bump_cons hs]
      split
      · rename_i hc
        exact .again (List.suffix_cons c rest) (Nat.lt_succ_self _) (by simp [hc])
      · rename_i hc
        exact .done List.suffix_rfl (by simp [hc])
  rw [pass]
  generalize loop (byteLength src) (passRound src p) () (place src s) = r at hloop
  cases hloop with
  | value _ _ => rfl

theorem blanks_place (hs : s <:+ src) :
    pass (ε := ε) src isBlank (place src s) = .ok (place src (skipBlank s)) :=
  pass_place isBlank hs

theorem skipBlank_suffix (s : List Char) : skipBlank s <:+ s := List.dropWhile_suffix isBlank

theorem ident_place (hs : s <:+ src) :
    ident (ε := ε) src (place src s) = .ok (s.takeWhile isIdentChar,
      place src (s.dropWhile isIdentChar)) := by
  have hsplit := List.takeWhile_append_dropWhile (p := isIdentChar) (l := s)
  have hslice := slice_place (ε := ε) (hsplit.symm ▸ hs)
  rw [hsplit] at hslice
  rw [ident, pass_place _ hs, ok_bind, hslice]
  rfl

theorem isBlank_of_skipBlank {c : Char} (h : skipBlank s = c :: rest) : isBlank c = false := by
  have hhead := List.head?_dropWhile_not isBlank s
  rw [show s.dropWhile isBlank = c :: rest from h] at hhead
  simpa using hhead

theorem skipBlank_of_cons {c : Char} (h : skipBlank s = c :: rest) :
    skipBlank (c :: rest) = c :: rest :=
  List.dropWhile_cons_of_neg (by simp [isBlank_of_skipBlank h])

/-- A round over an item of a list takes something away: what is left of `c :: rest` begins, behind
blanks, with a character that `c` is not. -/
theorem length_lt_of_skipBlank_ne {c d : Char} {more : List Char} (hopen : skipBlank s = c :: rest)
    (hleft : left <:+ c :: rest) (hmore : skipBlank left = d :: more) (hne : d ≠ c) :
    (d :: more).length < s.length := by
  have hle : (d :: more).length ≤ left.length := hmore ▸ skipBlank_length left
  have hle' : (c :: rest).length ≤ s.length := hopen ▸ skipBlank_length s
  have hshort : left.length ≠ (c :: rest).length := by
    intro heq
    -- nothing is taken away, so the next character is still `c`
    rw [hleft.eq_of_length heq, skipBlank_of_cons hopen] at hmore
    exact hne (List.cons.inj hmore).1.symm
  have hlt := hleft.length_le
  omega

/-- Whether `G` reads a sequence that ends at the character `last`: an entry, and behind it a comma
with the other entries or the end. -/
def IsSequence (last : Char) (entry : List Char → Except ε (List α × List Char)) (unended : ε)
    (unexpected : Char → ε) (G : List Char → Except ε (List α × List Char)) : Prop :=
  ∀ s, G s =
    match skipBlank s with
    | [] => .error unended
    | c :: rest =>
      if c = last then .ok ([], rest)
      else
        match entry (c :: rest) with
        | .error e => .error e
        | .ok (found, left) =>
          match skipBlank left with
          | [] => .error unended
          | d :: more =>
            if d = ',' then (G more).map fun (others, left) => (found ++ others, left)
            else if d = last then .ok (found, more)
            else .error (unexpected d)

/-- What a sequence reads behind entries that have been read. -/
def entriesFrom (G : List Char → Except ε (List α × List Char)) (entries : List α) (s : List Char) :
    Except ε (List α × List Char) :=
  (G s).map fun (more, left) => (entries ++ more, left)

/-- **A round over an entry agrees with the reading of the sequence** if the entry is read alike. -/
theorem reads_entryRound {last : Char} {entry : List Char → Except ε (List α × List Char)}
    {unended : ε} {unexpected : Char → ε} {G : List Char → Except ε (List α × List Char)}
    (hG : IsSequence last entry unended unexpected G)
    {entryAt : Char → Nat → Except (Stop ε) (List α × Nat)}
    (hentry : ∀ c rest, c :: rest <:+ src →
      Reads src (c :: rest) (entryAt c (place src (c :: rest))) (entry (c :: rest)))
    (entries : List α) (hs : s <:+ src) :
    RoundReads src s (entriesFrom G) entries
      (entryRound src last entryAt unended unexpected entries (place src s)) := by
  have hblank : skipBlank s <:+ s := skipBlank_suffix s
  have heq := hG s
  rw [entryRound, blanks_place hs, ok_bind, peek_place (hblank.trans hs), ok_bind]
  cases hopen : skipBlank s with
  | nil =>
    rw [hopen] at heq
    exact .fault (by rw [entriesFrom, heq]; rfl)
  | cons c rest =>
    rw [hopen] at hblank heq
    have hc : c :: rest <:+ src := hblank.trans hs
    simp only [List.head?_cons] at heq ⊢
    by_cases hend : c = last
    · rw [if_pos hend] at heq ⊢
      rw [bump_cons hc]
      refine .done ((List.suffix_cons c rest).trans hblank) ?_
      simp [entriesFrom, heq, Except.map]
    · rw [if_neg hend] at heq ⊢
      have hread := hentry c rest hc
      generalize entryAt c (place src (c :: rest)) = x at hread ⊢
      generalize entry (c :: rest) = y at hread heq
      cases hread with
      | fault e => exact .fault (by rw [entriesFrom, heq]; rfl)
      | @value found left hleft =>
        have hleft' : skipBlank left <:+ c :: rest := (skipBlank_suffix left).trans hleft
        simp only [ok_bind, blanks_place (hleft.trans hc), peek_place (hleft'.trans hc)] at heq ⊢
        cases hmore : skipBlank left with
        | nil => exact .fault (by rw [entriesFrom, heq]; simp [hmore, Except.map])
        | cons d more =>
          rw [hmore] at hleft'
          simp only [List.head?_cons, hmore] at heq ⊢
          by_cases hcomma : d = ','
          · rw [if_pos hcomma] at heq ⊢
            rw [bump_cons (hleft'.trans hc)]
            refine .again ((List.suffix_cons d more).trans (hleft'.trans hblank))
              (hleft'.trans hblank).length_le ?_
            rw [entriesFrom, heq, entriesFrom]
            cases G more <;> simp [Except.map, List.append_assoc]
          · rw [if_neg hcomma] at heq ⊢
            by_cases hclose : d = last
            · -- the next round is the last one, and begins behind the entry
              rw [if_pos hclose] at heq ⊢
              have hne : d ≠ c := fun h => hend (h ▸ hclose)
              refine .again (hleft'.trans hblank)
                (length_lt_of_skipBlank_ne hopen hleft hmore hne) ?_
              have hlast := hG (d :: more)
              rw [skipBlank_of_cons hmore] at hlast
              simp only [hclose, if_true] at hlast ⊢
              rw [entriesFrom, heq, entriesFrom, hlast]
              simp [Except.map]
            · rw [if_neg hclose] at heq ⊢
              exact .fault (by rw [entriesFrom, heq]; rfl)

/-- **A sequence is read as it is without what opens it.** -/
theorem reads_entries {last : Char} {entry : List Char → Except ε (List α × List Char)}
    {unended : ε} {unexpected : Char → ε} {G : List Char → Except ε (List α × List Char)}
    (hG : IsSequence last entry unended unexpected G)
    {entryAt : Char → Nat → Except (Stop ε) (List α × Nat)}
    (hentry : ∀ c rest, c :: rest <:+ src →
      Reads src (c :: rest) (entryAt c (place src (c :: rest))) (entry (c :: rest)))
    {c : Char} (hs : c :: rest <:+ src) :
    Reads src rest (bump src (place src (c :: rest)) >>= fun (_, pos) =>
      loop (byteLength src) (entryRound src last entryAt unended unexpected) [] pos) (G rest) := by
  rw [bump_cons hs, ok_bind]
  have hrest : rest <:+ src := (List.suffix_cons c rest).trans hs
  have h := reads_loop (fun entries _ hs => reads_entryRound hG hentry entries hs) rest hrest []
  have hnil : entriesFrom G [] rest = G rest := by
    rw [entriesFrom]
    cases G rest <;> rfl
  exact hnil ▸ h

end Cursor

end GoSchema
