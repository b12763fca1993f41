/-
# Directives are spans of their text

The scan for directives by byte positions agrees with the scan of the characters, so it never
breaks off (`directives_eq`): no text is cut within a character or outside its ends, no count of
brackets falls below zero, and no loop comes to a standstill. What it finds stands in the text. Each
directive is the text between its two positions and begins with `@gql` in any case, and the next one
begins where it ends or later. That is why the directives can be cut out of a doc comment
(`doc_eq`).

The spans are found along the scan (`spanned_scan`): prose ahead of some directives is passed over,
and a directive ahead of others ends where they may begin.

Key definitions: `StandsIn`, `Spanned`, `SpanIn`.
Key theorems: `seems_eq`, `reads_scanRound`, `directives_eq`, `spanned_scan`, `doc_eq`,
`directives_sound`.
-/
import GoSchema.Proofs.CursorValues
import Mathlib.Data.List.Basic

namespace GoSchema

open Unicode Text

namespace Text

theorem takeBytes?_eq_some : ∀ {s piece : List Char} {n : Nat}, takeBytes? s n = some piece →
    ∃ left, s = piece ++ left ∧ byteLength piece = n
  | s, piece, 0, h => by
    obtain rfl : [] = piece := by cases s <;> exact Option.some.inj h
    exact ⟨s, rfl, rfl⟩
  | [], _, _ + 1, h => nomatch h
  | c :: s, piece, n + 1, h => by
    rw [takeBytes?] at h
    split at h
    · rename_i hle
      obtain ⟨more, hmore, rfl⟩ := Option.map_eq_some_iff.1 h
      obtain ⟨left, rfl, hlength⟩ := takeBytes?_eq_some hmore
      exact ⟨left, rfl, by rw [byteLength_cons, hlength]; omega⟩
    · cases h

theorem utf8Size_of_asciiLowerOf {c : Char} (h : (asciiLowerOf c).toNat < 128) :
    c.utf8Size = 1 := by
  have hc : c.toNat < 128 := by
    unfold asciiLowerOf at h
    split at h
    · rename_i hupper
      simp only [isAsciiUpper, Bool.and_eq_true, decide_eq_true_eq] at hupper
      omega
    · exact h
  exact Char.utf8Size_eq_one_iff.2 (UInt32.le_iff_toNat_le.2 (Nat.le_of_lt_succ hc))

theorem byteLength_of_asciiLowerText : ∀ {s : List Char},
    (∀ c ∈ asciiLowerText s, c.toNat < 128) → byteLength s = s.length
  | [], _ => rfl
  | c :: s, h => by
    rw [byteLength_cons, utf8Size_of_asciiLowerOf (h _ List.mem_cons_self),
      byteLength_of_asciiLowerText fun d hd => h d (List.mem_cons_of_mem _ hd), List.length_cons,
      Nat.add_comm]

theorem length_of_lead {lead : List Char} (h : asciiLowerText lead = "gql".toList) :
    lead.length = 3 := by
  have hsame := congrArg List.length h
  rwa [asciiLowerText, List.length_map] at hsame

theorem takeBytes?_of_lead {lead : List Char} (h : asciiLowerText lead = "gql".toList)
    (rest : List Char) : takeBytes? (lead ++ rest) 3 = some lead := by
  have hascii : ∀ c ∈ asciiLowerText lead, c.toNat < 128 := by simp [h]
  have hbytes : byteLength lead = 3 := by
    rw [byteLength_of_asciiLowerText hascii, length_of_lead h]
  rw [← hbytes]
  exact Cursor.takeBytes?_append lead rest

end Text

namespace Cursor

open Reader Directive

variable {ε : Type} {src s left rest : List Char}

/-! ### The scan -/

theorem seemsDirective_iff {name : List Char} : seemsDirective name = true ↔
    ∃ lead rest, name = lead ++ rest ∧ asciiLowerText lead = "gql".toList ∧
      rest.head?.any isAsciiUpper = true := by
  constructor
  · intro h
    unfold seemsDirective at h
    split at h
    · rename_i g q l c rest
      simp only [Bool.and_eq_true, beq_iff_eq] at h
      exact ⟨[g, q, l], c :: rest, rfl, h.1, h.2⟩
    · cases h
  · rintro ⟨lead, rest, rfl, hlead, hrest⟩
    obtain ⟨g, q, l, rfl⟩ := List.length_eq_three.1 (length_of_lead hlead)
    cases rest with
    | nil => cases hrest
    | cons c rest => simpa [seemsDirective, hlead] using hrest

/-- Where the first three bytes of a word are whole characters, they and what follows them give its
look. -/
theorem seemsDirective_append {lead : List Char} (htake : takeBytes? (lead ++ rest) 3 = some lead) :
    seemsDirective (lead ++ rest) =
      (asciiLowerText lead == "gql".toList && rest.head?.any isAsciiUpper) := by
  rw [Bool.eq_iff_iff, Bool.and_eq_true, beq_iff_eq, seemsDirective_iff]
  constructor
  · rintro ⟨lead', rest', heq, hlead', hrest'⟩
    -- both leads are the first three bytes
    rw [heq, takeBytes?_of_lead hlead'] at htake
    obtain rfl := Option.some.inj htake
    exact ⟨hlead', List.append_cancel_left heq ▸ hrest'⟩
  · rintro ⟨hlead, hrest⟩
    exact ⟨lead, rest, rfl, hlead, hrest⟩

/-- **The look of an unknown word** is judged without a bad cut: where its first three bytes are
three letters, the rest begins behind them. -/
theorem seems_eq (name : List Char) : seems (ε := ε) name = .ok (seemsDirective name) := by
  unfold seems
  cases htake : takeBytes? name 3 with
  | none =>
    refine congrArg Except.ok (Bool.eq_false_iff.2 fun h => ?_).symm
    obtain ⟨lead, rest, rfl, hlead, -⟩ := seemsDirective_iff.1 h
    rw [takeBytes?_of_lead hlead] at htake
    cases htake
  | some lead =>
    obtain ⟨rest, rfl, hlength⟩ := takeBytes?_eq_some htake
    have hdrop : dropBytes? (lead ++ rest) 3 = some rest := hlength ▸ dropBytes?_append lead rest
    simp only [hdrop, seemsDirective_append htake]
    cases asciiLowerText lead == "gql".toList <;> rfl

theorem place_ident {c : Char} (hs : c :: rest <:+ src) :
    place src (c :: rest) + byteLength (c :: rest.takeWhile isIdentChar) =
      place src (rest.dropWhile isIdentChar) := by
  have hsplit : c :: rest = (c :: rest.takeWhile isIdentChar) ++ rest.dropWhile isIdentChar := by
    rw [List.cons_append, List.takeWhile_append_dropWhile]
  rw [hsplit] at hs
  rw [place_append hs, ← hsplit]

theorem place_consumed (hs : s <:+ src) (hleft : left <:+ s) :
    place src s + byteLength (consumed s left) = place src left := by
  obtain ⟨piece, rfl⟩ := hleft
  rw [consumed_append]
  exact (place_append hs).symm

/-- The directives of what is left behind those that have been found. -/
def scanFrom (src : List Char) (state : List Directive × Option Char) (s : List Char) :
    Except DirectiveFault (List Directive × List Char) :=
  (scan (place src s) state.2 s).map fun (ds, _) => (state.1 ++ ds, [])

theorem scanFrom_nil (state : List Directive × Option Char) :
    scanFrom src state [] = .ok (state.1, []) := by
  simp [scanFrom, scan, Except.map]

section Equations

variable {found : List Directive} {prev : Option Char}

theorem scanFrom_prose {c : Char} (hs : c :: rest <:+ src)
    (hat : (c = '@' && atBoundary prev : Bool) = false) :
    scanFrom src (found, prev) (c :: rest) = scanFrom src (found, some c) rest := by
  rw [scanFrom, scan, hat, scanFrom, place_cons hs]
  simp only [Bool.false_eq_true, if_false]
  cases scan (place src (c :: rest) + c.utf8Size) (some c) rest <;> rfl

variable (hs : '@' :: rest <:+ src) (hprev : atBoundary prev = true)

include hprev in
theorem scanFrom_unknown (hkind : Kind.ofName? (rest.takeWhile isIdentChar) = none)
    (hseems : seemsDirective (rest.takeWhile isIdentChar) = true) :
    scanFrom src (found, prev) ('@' :: rest) =
      .error ⟨String.ofList ('@' :: rest.takeWhile isIdentChar), place src ('@' :: rest),
        .unknownDirective⟩ := by
  rw [scanFrom, scan]
  simp [hprev, hkind, hseems, Except.map]

include hs hprev in
theorem scanFrom_word (hkind : Kind.ofName? (rest.takeWhile isIdentChar) = none)
    (hseems : seemsDirective (rest.takeWhile isIdentChar) = false) :
    scanFrom src (found, prev) ('@' :: rest) =
      scanFrom src (found, some ((rest.takeWhile isIdentChar).getLast?.getD '@'))
        (rest.dropWhile isIdentChar) := by
  rw [scanFrom, scan, scanFrom, ← place_ident hs]
  simp only [hprev, decide_true, Bool.true_and, if_true, hkind, hseems, Bool.false_eq_true,
    if_false]
  cases scan _ _ (rest.dropWhile isIdentChar) <;> rfl

variable {kind : Directive.Kind} (hkind : Kind.ofName? (rest.takeWhile isIdentChar) = some kind)

include hprev hkind in
theorem scanFrom_fault {cause : DirectiveCause}
    (hread : readDirective kind (rest.dropWhile isIdentChar) = .error cause) :
    scanFrom src (found, prev) ('@' :: rest) =
      .error ⟨kind.word, place src ('@' :: rest), cause⟩ := by
  rw [scanFrom, scan]
  simp only [hprev, decide_true, Bool.true_and, if_true, hkind]
  split
  · rename_i cause' hcause
    rw [hread] at hcause
    cases hcause
    rfl
  · rename_i hok
    rw [hread] at hok
    cases hok

include hs hprev hkind in
theorem scanFrom_directive {params : List Param}
    (hread : readDirective kind (rest.dropWhile isIdentChar) = .ok (params, left))
    (hleft : left <:+ '@' :: rest) :
    scanFrom src (found, prev) ('@' :: rest) =
      scanFrom src (found ++ [⟨kind, params, place src ('@' :: rest), place src left⟩], some ')')
        left := by
  rw [scanFrom, scan, scanFrom, ← place_consumed hs hleft]
  simp only [hprev, decide_true, Bool.true_and, if_true, hkind]
  split
  · rename_i hcause
    rw [hread] at hcause
    cases hcause
  · rename_i hok
    rw [hread] at hok
    obtain ⟨rfl, rfl⟩ := Prod.mk.inj (Except.ok.inj hok)
    cases scan (place src ('@' :: rest) + byteLength (consumed ('@' :: rest) left)) (some ')') left
    with
    | error e => rfl
    | ok p => simp [Except.map, List.append_assoc]

end Equations

/-- A round of the scan passes over a character or a word, or reads a directive. -/
theorem reads_scanRound (state : List Directive × Option Char) (hs : s <:+ src) :
    RoundReads src s (scanFrom src) state (scanRound src state (place src s)) := by
  obtain ⟨found, prev⟩ := state
  rw [scanRound, peek_place hs]
  cases s with
  | nil => exact .done List.nil_suffix (scanFrom_nil _)
  | cons c rest =>
    have hrest : rest <:+ c :: rest := List.suffix_cons c rest
    simp only [List.head?_cons, ok_bind, bump_cons hs]
    cases hat : (c = '@' && atBoundary prev : Bool) with
    | false => exact .again hrest (Nat.lt_succ_self _) (scanFrom_prose hs hat)
    | true =>
      obtain ⟨rfl, hprev⟩ : c = '@' ∧ atBoundary prev = true := by simpa using hat
      have hafter : rest.dropWhile isIdentChar <:+ rest := List.dropWhile_suffix _
      simp only [if_true, ident_place (hrest.trans hs), ok_bind]
      cases hkind : Kind.ofName? (rest.takeWhile isIdentChar) with
      | none =>
        simp only [seems_eq, ok_bind]
        cases hseems : seemsDirective (rest.takeWhile isIdentChar) with
        | true => exact .fault (scanFrom_unknown hprev hkind hseems)
        | false =>
          exact .again (hafter.trans hrest) (Nat.lt_succ_of_le hafter.length_le)
            (scanFrom_word hs hprev hkind hseems)
      | some kind =>
        have hread := (reads_directive kind (hafter.trans (hrest.trans hs))).mapError
          fun cause => DirectiveFault.mk kind.word (place src ('@' :: rest)) cause
        dsimp only
        generalize (directive src kind (place src (rest.dropWhile isIdentChar))).mapError
          (Stop.map fun cause => DirectiveFault.mk kind.word (place src ('@' :: rest)) cause) = x
          at hread ⊢
        cases hok : readDirective kind (rest.dropWhile isIdentChar) with
        | error cause =>
          rw [hok] at hread
          cases hread
          exact .fault (scanFrom_fault hprev hkind hok)
        | ok p =>
          obtain ⟨params, left⟩ := p
          rw [hok] at hread
          cases hread with
          | value _ hleft =>
            have hall : left <:+ '@' :: rest := hleft.trans (hafter.trans hrest)
            exact .again hall (Nat.lt_succ_of_le (hleft.trans hafter).length_le)
              (scanFrom_directive hs hprev hkind hok hall)

/-- **The scan agrees** with the scan of the characters. -/
theorem directives_eq (src : List Char) :
    directives src = ((scan 0 none src).map Prod.fst).mapError .fault := by
  have h := reads_loop (fun state _ hs => reads_scanRound state hs) src List.suffix_rfl ([], none)
  unfold scanFrom at h
  rw [place_self] at h
  unfold directives
  generalize loop (byteLength src) (scanRound src) ([], none) 0 = x at h ⊢
  cases hscan : scan 0 none src with
  | error e =>
    rw [hscan] at h
    cases h
    rfl
  | ok p =>
    rw [hscan] at h
    cases h with
    | value _ _ => rfl

/-! ### Spans -/

/-- Whether a directive stands in a text at its place: it is the text between its two positions,
which begins with `@gql` in any case. -/
def StandsIn (src : List Char) (d : Directive) : Prop :=
  ∃ before source after, src = before ++ (source ++ after) ∧ d.offset = byteLength before ∧
    d.stop = byteLength (before ++ source) ∧ asciiLowerText (source.take 4) = "@gql".toList

/-- What holds of the directives that are found in an end `s` of a text, and of the text that is
left when they are cut out: each stands in the text, each behind the one before it, and the cuts can
be made, also from further ahead. -/
structure Spanned (src s : List Char) (ds : List Directive) (text : List Char) : Prop where
  standing : ∀ d ∈ ds, place src s ≤ d.offset ∧ StandsIn src d
  apart : ds.Pairwise fun d e => d.stop ≤ e.offset
  cut : ∀ ahead, ahead ++ s <:+ src → around (ε := DirectiveFault) src (place src (ahead ++ s)) ds =
    .ok (ahead ++ text)

theorem spanned_nil (src : List Char) : Spanned src [] [] [] := by
  refine ⟨nofun, .nil, fun ahead h => ?_⟩
  rw [around, ← place_nil, slice_place h, List.append_nil]

/-- Prose ahead of the directives is passed over and left. -/
theorem Spanned.prose {ds : List Directive} {text piece : List Char} (h : Spanned src s ds text)
    (hs : piece ++ s <:+ src) : Spanned src (piece ++ s) ds (piece ++ text) := by
  refine ⟨fun d hd => ⟨?_, (h.standing d hd).2⟩, h.apart, fun ahead hahead => ?_⟩
  · have hle := (h.standing d hd).1
    rw [place_append hs] at hle
    omega
  · rw [← List.append_assoc] at hahead ⊢
    rw [h.cut _ hahead, List.append_assoc]

/-- A directive ahead of the others ends where they may begin, and is cut out. -/
theorem Spanned.cons {ds : List Directive} {text source : List Char} (h : Spanned src s ds text)
    (hs : source ++ s <:+ src) (hsource : asciiLowerText (source.take 4) = "@gql".toList)
    (kind : Kind) (params : List Param) :
    Spanned src (source ++ s) (⟨kind, params, place src (source ++ s), place src s⟩ :: ds)
      text := by
  have hplace := place_append hs
  refine ⟨fun d hd => ?_, List.pairwise_cons.2 ⟨fun e he => (h.standing e he).1, h.apart⟩,
    fun ahead hahead => ?_⟩
  · rcases List.mem_cons.1 hd with rfl | hd
    · obtain ⟨before, hbefore⟩ := hs
      have hstart : place src (source ++ s) = byteLength before := by
        rw [← hbefore, place, byteLength_append, Nat.add_sub_cancel]
      refine ⟨Nat.le_refl _, before, source, s, hbefore.symm, hstart, ?_, hsource⟩
      rw [byteLength_append, ← hstart, ← hplace]
    · have hle := (h.standing d hd).1
      exact ⟨by omega, (h.standing d hd).2⟩
  · have hmore := h.cut [] ((List.suffix_append source s).trans hs)
    rw [List.nil_append, List.nil_append] at hmore
    rw [around, slice_place hahead, ok_bind, hmore]
    rfl

theorem lead_of_kind {name : List Char} {kind : Kind} (h : Kind.ofName? name = some kind)
    (more : List Char) : asciiLowerText (('@' :: name ++ more).take 4) = "@gql".toList := by
  have hword : asciiLowerText ('@' :: name) = asciiLowerText kind.word.toList := by
    simpa using List.find?_some h
  have hlength : 4 ≤ ('@' :: name).length := by
    have hsame := congrArg List.length hword
    simp only [asciiLowerText, List.length_map] at hsame
    rw [hsame]
    cases kind <;> decide
  rw [List.take_append_of_le_length hlength, asciiLowerText, List.map_take, ← asciiLowerText, hword]
  cases kind <;> decide

theorem readDirective_suffix {kind : Kind} {params : List Param}
    (h : readDirective kind s = .ok (params, left)) : left <:+ s := by
  have hreads := reads_directive kind (List.suffix_rfl (l := s))
  rw [h] at hreads
  generalize directive s kind (place s s) = x at hreads
  cases hreads with
  | value _ hleft => exact hleft

/-- **What a scan finds stands in the text.** The induction is on the scan: prose is passed over and
left, and a directive ends before those that are found behind it. -/
theorem spanned_scan {pos : Nat} {prev : Option Char} {ds : List Directive} {text : List Char}
    (hs : s <:+ src) (hpos : pos = place src s) (h : scan pos prev s = .ok (ds, text)) :
    Spanned src s ds text := by
  fun_induction scan pos prev s generalizing ds text with
  | case1 =>
    cases h
    exact spanned_nil src
  | case2 => cases h
  | case3 =>
    rename_i pos prev c rest _ _ _ _ _ ih
    obtain ⟨⟨ds, text⟩, hmore, heq⟩ := Outcome.map_eq_ok_iff.1 h
    obtain ⟨rfl, rfl⟩ := Prod.mk.inj heq
    have hsplit : (c :: rest.takeWhile isIdentChar) ++ rest.dropWhile isIdentChar = c :: rest := by
      rw [List.cons_append, List.takeWhile_append_dropWhile]
    have hplace := place_ident hs
    rw [← hpos] at hplace
    rw [← hsplit] at hs ⊢
    exact (ih ((List.suffix_append _ _).trans hs) hplace hmore).prose hs
  | case4 => cases h
  | case5 =>
    rename_i pos prev c rest hat _ _ kind hkind params left hread _ ih
    obtain ⟨⟨ds, text⟩, hmore, heq⟩ := Outcome.map_eq_ok_iff.1 h
    obtain ⟨rfl, rfl⟩ := Prod.mk.inj heq
    obtain rfl : c = '@' := by
      simp only [Bool.and_eq_true, decide_eq_true_eq] at hat
      exact hat.1
    obtain ⟨written, hwritten⟩ := readDirective_suffix hread
    have hsplit : ('@' :: rest.takeWhile isIdentChar ++ written) ++ left = '@' :: rest := by
      rw [List.append_assoc, hwritten, List.cons_append, List.takeWhile_append_dropWhile]
    have hstop : pos + byteLength (consumed ('@' :: rest) left) = place src left :=
      hpos ▸ place_consumed hs ⟨_, hsplit⟩
    have hspanned := ih ((List.suffix_append _ left).trans (hsplit.symm ▸ hs)) hstop hmore
    rw [hstop, hpos]
    rw [← hsplit] at hs ⊢
    exact hspanned.cons hs (lead_of_kind hkind written) kind params
  | case6 =>
    rename_i pos prev c rest _ ih
    obtain ⟨⟨ds, text⟩, hmore, heq⟩ := Outcome.map_eq_ok_iff.1 h
    obtain ⟨rfl, rfl⟩ := Prod.mk.inj heq
    have hplace := place_cons hs
    rw [← hpos] at hplace
    have hrest : rest <:+ src := (List.suffix_cons c rest).trans hs
    have hone : [c] ++ rest <:+ src := hs
    exact (ih hrest hplace.symm hmore).prose hone

/-- **The doc comment agrees** with the one that the scan of the characters gives. -/
theorem doc_eq (s : String) : doc s.toList = (DocComment.parse s).mapError .fault := by
  unfold doc DocComment.parse
  rw [directives_eq]
  cases hscan : scan 0 none s.toList with
  | error e => rfl
  | ok p =>
    obtain ⟨ds, text⟩ := p
    have hcut := (spanned_scan List.suffix_rfl (place_self _).symm hscan).cut [] List.suffix_rfl
    rw [List.nil_append, List.nil_append, place_self] at hcut
    show (around s.toList 0 ds >>= fun text => .ok (DocComment.mk ds (DocComment.proseOf text))) = _
    rw [hcut]
    rfl

theorem byteLength_eq_utf8ByteSize (s : List Char) :
    byteLength s = (String.ofList s).utf8ByteSize := by
  induction s with
  | nil => rfl
  | cons c s ih =>
    rw [← List.singleton_append, String.ofList_append, String.utf8ByteSize_append, ← ih,
      List.singleton_append, byteLength_cons]
    simp

/-- The bytes before the end of a string's text lead to a boundary between characters. -/
theorem isValid_byteLength {s : String} {before after : List Char}
    (h : s.toList = before ++ after) : String.Pos.Raw.IsValid s ⟨byteLength before⟩ := by
  refine String.Pos.Raw.isValid_iff_exists_append.2
    ⟨String.ofList before, String.ofList after, ?_, ?_⟩
  · rw [← String.ofList_append, ← h, String.ofList_toList]
  · rw [byteLength_eq_utf8ByteSize]
    rfl

/-- Whether the positions of a directive are those of its source in a string. -/
structure SpanIn (s : String) (d : Directive) : Prop where
  nonempty : d.offset < d.stop
  inBounds : d.stop ≤ s.utf8ByteSize
  startValid : String.Pos.Raw.IsValid s ⟨d.offset⟩
  stopValid : String.Pos.Raw.IsValid s ⟨d.stop⟩
  source : ∃ source, slice? s.toList d.offset d.stop = some source ∧
    asciiLowerText (source.take 4) = "@gql".toList

theorem StandsIn.spanIn {s : String} {d : Directive} (h : StandsIn s.toList d) : SpanIn s d := by
  obtain ⟨before, source, after, hsplit, hstart, hstop, hlead⟩ := h
  have hsource : source ≠ [] := by
    rintro rfl
    cases hlead
  have hpos := byteLength_pos hsource
  have hall : s.toList = (before ++ source) ++ after := by rw [hsplit, List.append_assoc]
  refine ⟨?_, ?_, hstart ▸ isValid_byteLength hsplit, hstop ▸ isValid_byteLength hall,
    source, ?_, hlead⟩
  · rw [hstart, hstop, byteLength_append]
    omega
  · rw [← String.ofList_toList (s := s), ← byteLength_eq_utf8ByteSize, hall, hstop,
      byteLength_append _ after]
    omega
  · have hle : d.offset ≤ d.stop := by
      rw [hstart, hstop, byteLength_append]
      omega
    have hlength : d.stop - d.offset = byteLength source := by
      rw [hstart, hstop, byteLength_append, Nat.add_sub_cancel_left]
    rw [slice?, if_pos hle, hlength, hsplit, hstart, dropBytes?_append, Option.bind_some,
      takeBytes?_append]

theorem unbroken {α : Type} (x : Except ε α) (b : Break) :
    x.mapError Stop.fault ≠ .error (.broken b) := by
  cases x <;> exact nofun

/-- **Directives are read without a break.** The reader of positions gives what the reader of
characters gives, for the directives of a text and for all it says: no text is cut within a
character or outside its ends, no count of brackets falls below zero and no loop comes to a
standstill. The directives that are found are spans of the text, in order and apart. -/
theorem directives_sound (s : String) :
    directives s.toList = (inText s).mapError .fault ∧
    doc s.toList = (DocComment.parse s).mapError .fault ∧
    (∀ b, directives s.toList ≠ .error (.broken b)) ∧
    (∀ b, doc s.toList ≠ .error (.broken b)) ∧
    ∀ ds, directives s.toList = .ok ds → (∀ d ∈ ds, SpanIn s d) ∧
      ds.Pairwise fun d e => d.offset < e.offset ∧ d.stop ≤ e.offset := by
  have hfound : directives s.toList = (inText s).mapError .fault := directives_eq s.toList
  refine ⟨hfound, doc_eq s, fun b => hfound ▸ unbroken _ b, fun b => doc_eq s ▸ unbroken _ b,
    fun ds hds => ?_⟩
  obtain ⟨⟨ds', text⟩, hscan, rfl⟩ : ∃ p, scan 0 none s.toList = .ok p ∧ p.1 = ds := by
    rw [directives_eq] at hds
    cases hscan : scan 0 none s.toList with
    | error e =>
      rw [hscan] at hds
      cases hds
    | ok p =>
      rw [hscan] at hds
      exact ⟨p, rfl, Except.ok.inj hds⟩
  have hspanned := spanned_scan List.suffix_rfl (place_self _).symm hscan
  have hspan : ∀ d ∈ ds', SpanIn s d := fun d hd => (hspanned.standing d hd).2.spanIn
  refine ⟨hspan, hspanned.apart.imp_of_mem fun hd _ hle => ?_⟩
  exact ⟨Nat.lt_of_lt_of_le (hspan _ hd).nonempty hle, hle⟩

theorem two_blocks_sound :
    directives "ß @gqlEnum(name: \"ü\")@GQLIgnoreAll".toList =
      .ok [⟨.enumBlock, [⟨"name", .text "ü", "\"ü\""⟩], 3, 23⟩, ⟨.ignoreAll, [], 23, 36⟩] ∧
    SpanIn "ß @gqlEnum(name: \"ü\")@GQLIgnoreAll"
      ⟨.enumBlock, [⟨"name", .text "ü", "\"ü\""⟩], 3, 23⟩ ∧
    SpanIn "ß @gqlEnum(name: \"ü\")@GQLIgnoreAll" ⟨.ignoreAll, [], 23, 36⟩ := by
  have hfound : directives "ß @gqlEnum(name: \"ü\")@GQLIgnoreAll".toList =
      .ok [⟨.enumBlock, [⟨"name", .text "ü", "\"ü\""⟩], 3, 23⟩, ⟨.ignoreAll, [], 23, 36⟩] := by
    decide +kernel
  have hspans := ((directives_sound _).2.2.2.2 _ hfound).1
  exact ⟨hfound, hspans _ List.mem_cons_self, hspans _ (List.mem_cons_of_mem _ List.mem_cons_self)⟩

end Cursor

end GoSchema
