/-
# Type texts are taken verbatim

A type text may be written as it is or in quotes, as the type of an extra field in a directive or of
a field in a tag, and it is the type text of the field in any case. The bare text of a list is read
as a list with one item; its brackets balance, so the item ends where it does, at whatever depth it
stands, and the field takes the source text and not the item.

Key definitions: `Reader.IsWhole`, `TypeTree.bareValue`, `TypeTree.IsWritten`.
Key theorems: `TypeTree.isWhole_print`, `TypeTree.writes_print`, `TypeTree.IsWritten.exists_value`,
`TypeTree.print_verbatim`.
-/
import GoSchema.Declaration.OfSource
import GoSchema.Proofs.ParameterContexts
import GoSchema.Proofs.TypeTexts

namespace GoSchema

open Unicode Directive

/-- A source text that begins with no quote is what is written. -/
theorem Param.written_of_bare {p : Param}
    (h : ∀ c, p.raw.toList.head? = some c → Reader.isQuote c = false) : p.written = p.raw := by
  unfold written
  split
  · rename_i heq
    exact nomatch h '"' (by rw [heq]; rfl)
  · rename_i heq
    exact nomatch h '\'' (by rw [heq]; rfl)
  · rfl

theorem GqlPart.writtenType_of_bare {s : Setting}
    (h : ∀ c, s.raw.head? = some c → Reader.isQuote c = false) :
    writtenType s = String.ofList s.raw := by
  unfold writtenType
  split
  · rename_i heq
    exact nomatch h '"' (by rw [heq]; rfl)
  · rename_i heq
    exact nomatch h '\'' (by rw [heq]; rfl)
  · rfl

namespace Reader

/-- Whether a text is passed over as a whole in an item of a list, at whatever depth it stands. -/
def IsWhole (s : List Char) : Prop :=
  ∀ (depth : Nat) (rest : List Char), readListItem depth (s ++ rest) =
    (readListItem depth rest).map fun (item, left) => (s ++ item, left)

theorem isWhole_nil : IsWhole [] := by
  intro depth rest
  rw [List.nil_append]
  cases readListItem depth rest <;> rfl

theorem isWhole_of_isOrdinary {s : List Char} (h : ∀ c ∈ s, isOrdinary [','] c = true) :
    IsWhole s := by
  induction s with
  | nil => exact isWhole_nil
  | cons c s ih =>
    obtain ⟨hc, hs⟩ := List.forall_mem_cons.1 h
    simp only [isOrdinary, Bool.and_eq_true, Bool.not_eq_true', decide_eq_true_eq] at hc
    obtain ⟨⟨⟨⟨⟨hstop, hquote⟩, -⟩, -⟩, hopen⟩, hclose⟩ := hc
    have hcomma : c ≠ ',' := by simpa using hstop
    intro depth rest
    have hone : readListItem depth (c :: (s ++ rest)) =
        (readListItem depth (s ++ rest)).map fun (item, left) => (c :: item, left) := by
      simp [readListItem, hcomma, hquote, hopen, hclose]
    rw [List.cons_append, hone, ih hs]
    cases readListItem depth rest <;> rfl

theorem IsWhole.append {s t : List Char} (hs : IsWhole s) (ht : IsWhole t) : IsWhole (s ++ t) := by
  intro depth rest
  rw [List.append_assoc, hs, ht]
  cases readListItem depth rest <;> simp [Except.map]

/-- A whole text in brackets is whole: behind the closing bracket the depth is what it was. -/
theorem IsWhole.brackets {s : List Char} (h : IsWhole s) : IsWhole ('[' :: s ++ [']']) := by
  intro depth rest
  have hopen : readListItem depth ('[' :: (s ++ ']' :: rest)) =
      (readListItem (depth + 1) (s ++ ']' :: rest)).map fun (item, left) => ('[' :: item, left) := by
    simp [readListItem, isQuote]
  have hclose : readListItem (depth + 1) (']' :: rest) =
      (readListItem depth rest).map fun (item, left) => (']' :: item, left) := by
    simp [readListItem, isQuote]
  rw [List.append_assoc, List.cons_append, List.singleton_append, hopen, h, hclose]
  cases readListItem depth rest <;> simp [Except.map]

end Reader

namespace TypeTree

open Reader

/-! ### Characters of type texts -/

theorem isAsciiAlphanumeric_of_isAlphanum {c : Char} (h : c.isAlphanum = true) :
    isAsciiAlphanumeric c = true := by
  have upper : c.isUpper = true → isAsciiUpper c = true := fun h =>
    have hbounds := of_decide_eq_true h
    Bool.and_eq_true_iff.2 ⟨decide_eq_true hbounds.1, decide_eq_true hbounds.2⟩
  have lower : c.isLower = true → isAsciiLower c = true := fun h =>
    have hbounds := Bool.and_eq_true_iff.1 h
    Bool.and_eq_true_iff.2 ⟨decide_eq_true (of_decide_eq_true hbounds.1),
      decide_eq_true (of_decide_eq_true hbounds.2)⟩
  have digit : c.isDigit = true → isAsciiDigit c = true := fun h =>
    have hbounds := Bool.and_eq_true_iff.1 h
    Bool.and_eq_true_iff.2 ⟨decide_eq_true (of_decide_eq_true hbounds.1),
      decide_eq_true (of_decide_eq_true hbounds.2)⟩
  rcases Bool.or_eq_true_iff.1 h with h | h
  · rcases Bool.or_eq_true_iff.1 h with h | h
    · simp [isAsciiAlphanumeric, upper h]
    · simp [isAsciiAlphanumeric, lower h]
  · simp [isAsciiAlphanumeric, digit h]

theorem isIdentChar_of_mem {n : PlainName} {c : Char} (h : c ∈ n.val.toList) :
    isIdentChar c = true := by
  rcases isAlphanum_of_mem_plainName h with h | rfl
  · simp [isIdentChar, isAsciiAlphanumeric_of_isAlphanum h]
  · decide

theorem isOrdinary_mark {stops : List Char} (hstops : IsStop stops) {required : Bool} {c : Char}
    (h : c ∈ (mark required).toList) : isOrdinary stops c = true := by
  cases required with
  | false => simp [mark] at h
  | true =>
    obtain rfl : c = '!' := by simpa [mark] using h
    have hmem : '!' ∉ stops := fun hmem => by simpa using hstops _ hmem
    simp [isOrdinary, isQuote, hmem]

theorem isOrdinary_of_mem {stops : List Char} (hstops : IsStop stops) {n : PlainName} {c : Char}
    (h : c ∈ n.val.toList) : isOrdinary stops c = true := by
  have hc := isIdentChar_of_mem h
  have hne := ne_of_isIdentChar hc
  have hmem : c ∉ stops := fun hmem => by
    rcases hstops _ hmem with rfl | rfl <;> cases hc
  simp [isOrdinary, isQuote_of_isIdentChar hc, hmem, hne '(' (by decide), hne '[' (by decide),
    hne ')' (by decide), hne ']' (by decide)]

/-- **A type text is whole**, in whatever list it is an item. -/
theorem isWhole_print (t : TypeTree) : IsWhole t.print.toList := by
  have hmark : ∀ required : Bool, IsWhole (mark required).toList := fun _ =>
    isWhole_of_isOrdinary fun _ hc => isOrdinary_mark isStop_items hc
  induction t with
  | name n required =>
    rw [toList_print_name]
    exact (isWhole_of_isOrdinary fun _ hc => isOrdinary_of_mem isStop_items hc).append (hmark required)
  | list item required ih =>
    rw [toList_print_list]
    exact ih.brackets.append (hmark required)

/-! ### Ways to write a type text -/

theorem isBlank_of_mem_print {t : TypeTree} {c : Char} (h : c ∈ t.print.toList) :
    isBlank c = false := by
  have hmark : ∀ {required : Bool}, c ∈ (mark required).toList → isBlank c = false := by
    intro required h
    cases required with
    | false => simp [mark] at h
    | true =>
      obtain rfl : c = '!' := by simpa [mark] using h
      decide
  induction t with
  | name n required =>
    rw [toList_print_name] at h
    rcases List.mem_append.1 h with h | h
    · exact isBlank_of_isIdentChar (isIdentChar_of_mem h)
    · exact hmark h
  | list item required ih =>
    rw [toList_print_list] at h
    rcases List.mem_append.1 h with h | h
    · rcases List.mem_append.1 h with h | h
      · rcases List.mem_cons.1 h with rfl | h
        · decide
        · exact ih h
      · rw [List.mem_singleton.1 h]
        decide
    · exact hmark h

theorem exists_cons_print (t : TypeTree) :
    ∃ c s, t.print.toList = c :: s ∧ isQuote c = false ∧ c ≠ ']' := by
  cases t with
  | name n required =>
    obtain ⟨c, s, hn⟩ := List.exists_cons_of_ne_nil (plainName_ne_nil n)
    have hc : isIdentChar c = true := isIdentChar_of_mem (hn ▸ List.mem_cons_self)
    refine ⟨c, s ++ (mark required).toList, ?_, isQuote_of_isIdentChar hc,
      ne_of_isIdentChar hc ']' (by decide)⟩
    rw [toList_print_name, hn, List.cons_append]
  | list item required =>
    refine ⟨'[', item.print.toList ++ [']'] ++ (mark required).toList, ?_, by decide, by decide⟩
    rw [toList_print_list, List.cons_append, List.cons_append]

theorem isBlankText_print (t : TypeTree) : Text.isBlankText t.print.toList = false := by
  obtain ⟨c, s, hprint, -, -⟩ := t.exists_cons_print
  have hc : isBlank c = false := isBlank_of_mem_print (t := t) (hprint ▸ List.mem_cons_self)
  rw [hprint]
  simp [Text.isBlankText, hc]

theorem trim_print (t : TypeTree) : Text.trim t.print.toList = t.print.toList :=
  Text.trim_eq_self (fun _ hc => isBlank_of_mem_print (List.mem_of_mem_head? hc))
    fun _ hc => isBlank_of_mem_print (List.mem_of_getLast? hc)

theorem readList_print (t : TypeTree) (rest : List Char) :
    readList (t.print.toList ++ ']' :: rest) = .ok ([t.print], rest) := by
  obtain ⟨c, s, hprint, hquote, hclose⟩ := t.exists_cons_print
  have hc : isBlank c = false := isBlank_of_mem_print (t := t) (hprint ▸ List.mem_cons_self)
  have hopen : skipBlank (t.print.toList ++ ']' :: rest) = c :: (s ++ ']' :: rest) := by
    rw [hprint]
    exact skipBlank_of_head hc _
  have hend : readListItem 0 (']' :: rest) = .ok ([], ']' :: rest) := by simp [readListItem]
  have hwhole : readListItem 0 (c :: (s ++ ']' :: rest)) = .ok (t.print.toList, ']' :: rest) := by
    have hread := t.isWhole_print 0 (']' :: rest)
    rw [hend, hprint] at hread
    rw [hprint]
    simpa [Except.map] using hread
  have hitem : readItem (c :: (s ++ ']' :: rest)) = .ok ([t.print], ']' :: rest) := by
    have hne : t.print.toList.isEmpty = false := by simp [hprint]
    rw [readItem, hwhole]
    simp [hquote, Except.map, t.trim_print, hne]
  rw [readList_of_readItem hopen hclose hitem (skipBlank_of_head (by decide) rest)]
  rfl

/-- What the bare text is read as: a text, or a list with one item. -/
def bareValue : TypeTree → Value
  | name n required => .text (name n required).print
  | list item _ => .list [item.print]

/-- Whether `w` is a way to write a type text: the text as it is, or the text in quotes. -/
def IsWritten (t : TypeTree) (w : List Char) : Prop :=
  w = t.print.toList ∨ Quotes w t.print.toList

/-- **A bare type text is a value**, which ends where the type text does. -/
theorem writes_print {stops : List Char} (hstops : IsStop stops) (t : TypeTree) :
    Writes stops t.print.toList t.bareValue := by
  obtain ⟨c, s, hprint, hquote, -⟩ := t.exists_cons_print
  have hc : isBlank c = false := isBlank_of_mem_print (t := t) (hprint ▸ List.mem_cons_self)
  have hblank : ∀ {blanks : List Char}, (∀ c ∈ blanks, isBlank c = true) →
      ∀ c ∈ blanks, isOrdinary stops c = true := fun hblanks c hc =>
    isOrdinary_of_isBlank hstops (hblanks c hc)
  refine ⟨⟨c, by rw [hprint]; rfl, hc⟩,
    fun c hc => isBlank_of_mem_print (List.mem_of_getLast? hc), fun blanks rest hblanks hrest => ?_⟩
  refine ⟨[], List.nil_suffix, ?_⟩
  cases t with
  | name n required =>
    have hchars : ∀ c ∈ (name n required).print.toList, isOrdinary stops c = true := by
      rw [toList_print_name]
      exact List.forall_mem_append.2
        ⟨fun _ hc => isOrdinary_of_mem hstops hc, fun _ hc => isOrdinary_mark hstops hc⟩
    have hopen : c ≠ '[' := by
      rintro rfl
      have hordinary := hchars '[' (hprint ▸ List.mem_cons_self)
      simp [isOrdinary] at hordinary
    have hread := hrest.readBare_eq (List.forall_mem_append.2 ⟨hchars, hblank hblanks⟩)
    rw [List.append_assoc, hprint] at hread
    rw [List.cons_append] at hread
    rw [hprint, List.cons_append, readValueAt_bare hquote hopen hread, ← hprint,
      Text.trim_append_blanks hblanks, trim_print, String.ofList_toList]
    rfl
  | list item required =>
    have hread := item.readList_print ((mark required).toList ++ blanks ++ rest)
    have hskip : skipTrailing stops ((mark required).toList ++ blanks ++ rest) = .ok rest :=
      skipTrailing_append (List.forall_mem_append.2
        ⟨fun _ hc => isOrdinary_mark hstops hc, hblank hblanks⟩) hrest
    have htext : (list item required).print.toList ++ (blanks ++ rest) =
        '[' :: (item.print.toList ++ ']' :: ((mark required).toList ++ blanks ++ rest)) := by
      simp [toList_print_list]
    rw [htext, readValueAt_list hread hskip]
    rfl

/-- What is written for a type text is read as a value, with a text that is not blank; and the type
text is what the value and its source text give. -/
theorem IsWritten.exists_value {t : TypeTree} {w : List Char} (h : t.IsWritten w) :
    ∃ v : Value, (∀ stops, IsStop stops → Writes stops w v) ∧
      (∃ text ∈ v.toText?, Text.isBlankText text.toList = false) ∧
      ∀ key : String, Param.written ⟨key, v, String.ofList w⟩ = t.print ∧
        GqlPart.writtenType ⟨key, v, w⟩ = t.print := by
  rcases h with rfl | h
  · obtain ⟨c, s, hprint, hquote, -⟩ := t.exists_cons_print
    have hbare : ∀ d, t.print.toList.head? = some d → isQuote d = false := fun d hd => by
      rw [hprint] at hd
      exact Option.some.inj hd ▸ hquote
    refine ⟨t.bareValue, fun stops hstops => writes_print hstops t, ?_, fun key => ⟨?_, ?_⟩⟩
    · cases t with
      | name n required => exact ⟨_, rfl, isBlankText_print _⟩
      | list item required =>
        have hone : ",".intercalate [item.print] = item.print := by simp
        exact ⟨_, congrArg some hone, isBlankText_print _⟩
    · rw [String.ofList_toList]
      exact Param.written_of_bare hbare
    · rw [GqlPart.writtenType_of_bare hbare, String.ofList_toList]
  · obtain ⟨quote, body, hquote, hw, -⟩ := h.exists_read
    refine ⟨.text t.print, fun stops _ => writes_quotes stops h, ⟨_, rfl, isBlankText_print _⟩,
      fun key => ?_⟩
    have hkind : quote = '"' ∨ quote = '\'' := by simpa [isQuote] using hquote
    rcases hkind with rfl | rfl <;>
      simp [Param.written, GqlPart.writtenType, hw, Value.toText?]

/-! ### Type texts of fields -/

/-- The extra field of a directive has the type text that is written, and all else from the other
parameters. -/
theorem exists_addedField (ctx : ParamContext .extraField "type") :
    ∃ f : AddedField, ∀ {t : TypeTree} {w : List Char} {v : Value},
      Param.written ⟨"type", v, String.ofList w⟩ = t.print → ∀ offset stop : Nat,
        AddedField.ofDirective (ctx.found v w offset stop) = .ok { f with typeText := t.print } := by
  obtain ⟨name, hname, hblank⟩ := ctx.exists_text_of_required
    (by decide : "name" ∈ Kind.requiredKeys .extraField) (by decide)
  let others : Directive := ctx.without 0 0
  refine ⟨⟨name, "", others.text? "description", others.deprecation? "deprecated",
    (others.scope? "on").getD .all⟩, fun {t w v} hwritten offset stop => ?_⟩
  have hbase : (Text.isBlankText name.toList || Text.isBlankText t.print.toList) = false := by
    rw [hblank, t.isBlankText_print]
    rfl
  rw [AddedField.ofDirective, ctx.param?_self, ctx.text?_of_ne v w (by decide), hname,
    ctx.text?_of_ne v w (by decide), ctx.deprecation?_of_ne v w (by decide),
    ctx.scope?_of_ne v w (by decide)]
  simp only [hwritten, hbase, Option.getD_some, Option.map_some, Bool.false_eq_true, if_false]
  rfl

/-- **Type texts survive verbatim.** A type text that is written bare or in quotes, with or without
blanks around it, is the type text of the extra field that a directive describes, whatever
parameters are before and behind it, and these are what they are around any other type text. In a tag
it is the type text of the field, unless an item behind it gives another one, and all other options
are what the items around it give. -/
theorem print_verbatim :
    (∀ ctx : ParamContext .extraField "type", ∃ f : AddedField, ∀ (t : TypeTree) (w : List Char),
      t.IsWritten w → ∀ g : Gaps, ∃ v : Value,
        IsFound (ctx.found v w) (ctx.text (g.entry "type" w)) ∧
        ∀ offset stop : Nat, AddedField.ofDirective (ctx.found v w offset stop) =
          .ok { f with typeText := t.print }) ∧
    ∀ (ctx : GqlPart.ItemContext) (o : GqlPart),
      GqlPart.setAll false { ctx.given with typeText := none } ctx.after.tail = .ok o →
      (o.readOnly && o.writeOnly) = false → ∀ (t : TypeTree) (w : List Char), t.IsWritten w →
        ∀ g : Gaps, GqlPart.parse (ctx.text (g.entry "type" w)) =
          .ok { o with typeText := o.typeText.or (some t.print) } := by
  constructor
  · intro ctx
    obtain ⟨f, hf⟩ := exists_addedField ctx
    refine ⟨f, fun t w h g => ?_⟩
    obtain ⟨v, hw, hgiven, hwritten⟩ := h.exists_value
    exact ⟨v, ctx.isFound g (hw _ isStop_params) fun _ => hgiven, hf (hwritten "type").1⟩
  · intro ctx o hbehind hopen t w h g
    obtain ⟨v, hw, -, hwritten⟩ := h.exists_value
    have hkey : IsKey "type".toList :=
      (Kind.isKey_of_mem (by decide : "type" ∈ Kind.keys .extraField)).1
    have hnormal : String.ofList (normalKey "type".toList) = "type" := by decide
    let bare : GqlPart := { ctx.given with typeText := none }
    let own : GqlPart := { typeText := some t.print }
    have hset : ctx.given.set ⟨String.ofList (normalKey "type".toList), v, w⟩ =
        .ok (bare.filledFrom own) := by
      rw [hnormal, GqlPart.set_type (hwritten "type").2 t.isBlankText_print]
      simp [GqlPart.filledFrom, bare, own]
    rw [ctx.parse_filledFrom g hkey (hw _ isStop_items) hset hbehind hopen]
    simp [GqlPart.filledFrom, own]

/-- A directive with a name in front of the type and a scope behind it. -/
def postsContext : ParamContext .extraField "type" where
  before := Gaps.space.entry "name" (quotedIn '"' "posts".toList) ++ [',', ' ']
  given := [⟨some "name".toList, .text "posts", quotedIn '"' "posts".toList⟩]
  reads_before more := by
    have hkey : IsKey "name".toList :=
      (Kind.isKey_of_mem (by decide : "name" ∈ Kind.keys .extraField)).1
    have hvalue : Writes [',', ')'] (quotedIn '"' "posts".toList) (.text "posts") :=
      writes_quotes _ (quotes_quotedIn rfl _)
    have hblank : readParams ([' '] ++ more) = readParams more :=
      readParams_blanks Gaps.space.blank_before more
    have hread := readParams_entry Gaps.space hkey hvalue (d := ',') (follows_cons rfl rfl [])
      ([' '] ++ more)
    rw [if_pos rfl, hblank] at hread
    rw [List.append_assoc]
    exact hread
  after := ", on: \"Author\")".toList
  others := [⟨some "on".toList, .text "Author", quotedIn '"' "Author".toList⟩]
  reads_after := .inr ⟨" on: \"Author\")".toList, rfl, fun left => by
    have hkey : IsKey "on".toList :=
      (Kind.isKey_of_mem (by decide : "on" ∈ Kind.keys .extraField)).1
    have hvalue : Writes [',', ')'] (quotedIn '"' "Author".toList) (.text "Author") :=
      writes_quotes _ (quotes_quotedIn rfl _)
    exact (readParams_blanks Gaps.space.blank_before _).trans
      (readParams_entry Gaps.space hkey hvalue (d := ')') (follows_cons rfl rfl []) left)⟩
  ahead := [⟨"name", .text "posts", "\"posts\""⟩]
  behind := [⟨"on", .text "Author", "\"Author\""⟩]
  known := by decide
  binds_before := rfl
  binds_after := ⟨.flag, "", rfl⟩
  fresh := by decide
  complete := by decide

/-- A tag with an item in front of the type and one behind it. -/
def readOnlyContext : GqlPart.ItemContext where
  before := "ro,".toList
  isFirst := false
  given := { readOnly := true }
  reads_before more := by
    have hitem : GqlPart.IsItem ("ro", .flag) :=
      ⟨⟨by decide, List.all_eq_true.1 (by decide)⟩, by decide⟩
    have hcomma : Follows [','] (',' :: more) := follows_cons rfl rfl more
    exact GqlPart.setAll_cons hitem true {} hcomma
  after := ',' :: "optional".toList
  follows := follows_cons rfl rfl _

/-- A type text in brackets, with marks. -/
def postsType : TypeTree := .list (.name ⟨"Post", by decide⟩ true) true

example : String.ofList (postsContext.text (Gaps.space.entry "type" postsType.print.toList)) =
    "@gqlExtraField(name: \"posts\", type: [Post!]!, on: \"Author\")" := by
  decide

theorem posts_verbatim :
    (∃ f : AddedField, ∃ v : Value,
      IsFound (postsContext.found v "[Post!]!".toList)
        (postsContext.text (Gaps.space.entry "type" "[Post!]!".toList)) ∧
      ∀ offset stop : Nat,
        AddedField.ofDirective (postsContext.found v "[Post!]!".toList offset stop) =
          .ok { f with typeText := "[Post!]!" }) ∧
    GqlPart.parse "ro,type: '[Post!]!',optional" =
      .ok { readOnly := true, nullability := some .optional, typeText := some "[Post!]!" } := by
  have hprint : postsType.print = "[Post!]!" := by decide
  have hbare : postsType.IsWritten "[Post!]!".toList := .inl (by rw [hprint])
  have hquoted : postsType.IsWritten (quotedIn '\'' "[Post!]!".toList) :=
    .inr (by rw [hprint]; exact quotes_quotedIn rfl _)
  constructor
  · obtain ⟨f, hf⟩ := print_verbatim.1 postsContext
    obtain ⟨v, hfound, htype⟩ := hf postsType _ hbare Gaps.space
    exact ⟨f, v, hfound, fun offset stop => hprint ▸ htype offset stop⟩
  · have hbehind : GqlPart.setAll false { readOnly := true } "optional".toList =
        .ok { readOnly := true, nullability := some .optional } := by
      have hitem : GqlPart.IsItem ("optional", .flag) :=
        ⟨⟨by decide, List.all_eq_true.1 (by decide)⟩, by decide⟩
      exact (GqlPart.setAll_cons hitem false { readOnly := true } (follows_nil _)).trans
        (GqlPart.setAll_blank rfl false _)
    exact hprint ▸ print_verbatim.2 readOnlyContext _ hbehind rfl postsType _ hquoted Gaps.space

end TypeTree

end GoSchema
