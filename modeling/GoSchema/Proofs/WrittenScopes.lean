/-
# Ways to write a scope

The entries of a scope without commas in them may be written as a list of texts in quotes, or as one
text in quotes with commas between them. The scope is the same either way, for the parameter of a
directive and for the items of a tag, and so is all that is made from it: the list is read item by
item, and the text is cut at its commas into the same entries.

Key definitions: `Scope.IsWritten`.
Key theorems: `Scope.toScope_text`, `Scope.IsWritten.exists_value`, `Scope.ofEntries_star`,
`Scope.ofEntries_blank`, `Scope.written_alike`.
-/
import GoSchema.Declaration.OfSource
import GoSchema.Proofs.ParameterContexts
import GoSchema.Proofs.PathSteps

namespace GoSchema

open Unicode Directive Reader

namespace Text

theorem toList_intercalate (sep : Char) : ∀ items : List String,
    ((String.ofList [sep]).intercalate items).toList = joinWith [sep] (items.map String.toList)
  | [] => by simp [joinWith]
  | [item] => by simp [joinWith]
  | item :: next :: items => by
    have ih := toList_intercalate sep (next :: items)
    rw [String.intercalate_cons_cons, String.toList_append, String.toList_append, ih]
    simp [joinWith]

end Text

namespace Scope

/-- Among the entries `*` is everything. -/
theorem ofEntries_star {items : List String} (h : ∃ item ∈ items, Text.trim item.toList = ['*']) :
    ofEntries items = .all := by
  obtain ⟨item, hitem, htrim⟩ := h
  have hmem : ['*'] ∈ (items.map fun e => Text.trim e.toList).filter (!·.isEmpty) :=
    List.mem_filter.2 ⟨List.mem_map.2 ⟨item, hitem, htrim⟩, rfl⟩
  rw [ofEntries]
  exact if_pos (List.contains_iff_mem.2 hmem)

/-- Entries that are all blank cover nothing. -/
theorem ofEntries_blank {items : List String}
    (h : ∀ item ∈ items, Text.isBlankText item.toList = true) : ofEntries items = .only [] := by
  have hnone : (items.map fun e => Text.trim e.toList).filter (!·.isEmpty) = [] := by
    rw [List.filter_eq_nil_iff]
    intro t ht
    obtain ⟨item, hitem, rfl⟩ := List.mem_map.1 ht
    have hblank := List.all_eq_true.1 (h item hitem)
    have hstart : item.toList.dropWhile isBlank = [] := List.dropWhile_eq_nil_iff.2 hblank
    simp [Text.trim, Text.trimStart, Text.trimEnd, hstart]
  rw [ofEntries]
  simp only [hnone]
  rfl

/-- **Entries joined by commas** describe the scope that they describe in a list. -/
theorem toScope_text {items : List String} (h : ∀ item ∈ items, ',' ∉ item.toList) :
    (Value.text (",".intercalate items)).toScope = ofEntries items := by
  have hchars : (",".intercalate items).toList = Text.joinWith [','] (items.map String.toList) :=
    Text.toList_intercalate ',' items
  rw [Value.toScope, hchars]
  by_cases hitems : items = []
  · -- the text is empty, and is cut into one entry, which is blank
    subst hitems
    decide
  · have hpieces : ∀ piece ∈ items.map String.toList, ',' ∉ piece := by simpa using h
    rw [Text.splitAt_joinWith (by simpa using hitems) hpieces, List.map_map]
    simp [Function.comp_def]

/-! ### Written scopes -/

/-- Whether `w` is a way to write a scope with certain entries: a list of texts in quotes, or one
text in quotes with commas between the entries. -/
def IsWritten (items : List String) (w : List Char) : Prop :=
  (∃ listed, ListsTexts listed items ∧ w = '[' :: listed ++ [']']) ∨
    Quotes w (",".intercalate items).toList

/-- **However a scope is written**, it is read as a value that describes it. -/
theorem IsWritten.exists_value {items : List String} (hcommas : ∀ item ∈ items, ',' ∉ item.toList)
    {w : List Char} (h : IsWritten items w) :
    ∃ v : Value, (∀ stops : List Char, IsStop stops → Writes stops w v) ∧
      v.toScope = ofEntries items := by
  rcases h with ⟨listed, hlisted, rfl⟩ | h
  · exact ⟨.list items, fun _ hstops => writes_list hstops hlisted, rfl⟩
  · exact ⟨.text (",".intercalate items), fun stops _ => writes_quotes stops h,
      toScope_text hcommas⟩

end Scope

/-- **Every list of texts can be written** as texts in quotes of one kind with commas between
them. -/
theorem Reader.listsTexts_quotedIn {quote : Char} (hquote : isQuote quote = true)
    (items : List String) :
    ListsTexts (Text.joinWith [','] (items.map fun s => quotedIn quote s.toList)) items := by
  have hnil : ∀ c ∈ ([] : List Char), isBlank c = true := List.forall_mem_nil _
  induction items with
  | nil => exact .none hnil
  | cons s items ih =>
    cases items with
    | nil =>
      have hone : ListsTexts ([] ++ (quotedIn quote s.toList ++ [])) [s] :=
        .last hnil (quotes_quotedIn hquote s.toList) hnil
      simpa [Text.joinWith] using hone
    | cons t items =>
      have hmore : ListsTexts ([] ++ (quotedIn quote s.toList ++ ([] ++ ',' :: _)))
          (s :: t :: items) := .more hnil (quotes_quotedIn hquote s.toList) hnil ih
      simpa [Text.joinWith] using hmore

namespace Scope

/-! ### Scopes of fields -/

theorem ofDirective_on (ctx : ParamContext .extraField "on") {v : Value} {s : Scope}
    (hv : v.toScope = s) (w : List Char) (offset stop : Nat) :
    (ctx.found v w offset stop).scope? "on" = some s ∧
      AddedField.ofDirective (ctx.found v w offset stop) =
        (AddedField.ofDirective (ctx.without offset stop)).map ({ · with on := s }) := by
  have hon : (ctx.found v w offset stop).scope? "on" = some s := by
    rw [Directive.scope?, ctx.param?_self, Option.map_some, hv]
  refine ⟨hon, ?_⟩
  rw [AddedField.ofDirective, AddedField.ofDirective, hon, ctx.text?_of_ne v w (by decide),
    ctx.text?_of_ne v w (by decide), ctx.param?_of_ne v w (by decide),
    ctx.deprecation?_of_ne v w (by decide)]
  split <;> rfl

/-- The keys of the items that give a scope. -/
def scopeKeys : List String := ["ignore", "omit", "include"]

theorem isKey_of_mem_scopeKeys {key : String} (h : key ∈ scopeKeys) :
    IsKey key.toList ∧ String.ofList (normalKey key.toList) = key := by
  have hall : ∀ key ∈ scopeKeys, (key.toList ≠ [] ∧ key.toList.all isIdentChar = true) ∧
      String.ofList (normalKey key.toList) = key := by decide
  obtain ⟨⟨hne, hchars⟩, hnormal⟩ := hall key h
  exact ⟨⟨hne, List.all_eq_true.1 hchars⟩, hnormal⟩

theorem set_congr {key : String} (h : key ∈ scopeKeys) {v v' : Value} (hv : v.toScope = v'.toScope)
    (o : GqlPart) (w w' : List Char) : o.set ⟨key, v, w⟩ = o.set ⟨key, v', w'⟩ := by
  simp only [scopeKeys, List.mem_cons, List.not_mem_nil, or_false] at h
  rcases h with rfl | rfl | rfl <;> simp [GqlPart.set, hv]

theorem set_ignored {key : String} (h : key ∈ ["ignore", "omit"]) {v : Value} {s : Scope}
    (hv : v.toScope = s) (o : GqlPart) (w : List Char) : o.set ⟨key, v, w⟩ =
      .ok (({ o with ignoredIn := none } : GqlPart).filledFrom { ignoredIn := some s }) := by
  simp only [List.mem_cons, List.not_mem_nil, or_false] at h
  rcases h with rfl | rfl <;> simp [GqlPart.set, GqlPart.filledFrom, hv]

theorem set_included {v : Value} {s : Scope} (hv : v.toScope = s) (o : GqlPart) (w : List Char) :
    o.set ⟨"include", v, w⟩ =
      .ok (({ o with includedIn := none } : GqlPart).filledFrom { includedIn := some s }) := by
  simp [GqlPart.set, GqlPart.filledFrom, hv]

namespace IsWritten

variable {items : List String} (hcommas : ∀ item ∈ items, ',' ∉ item.toList) {w : List Char}
  (hw : IsWritten items w) (ctx : GqlPart.ItemContext) (g : Gaps)
include hcommas hw

/-- However a scope is written, a parameter for it gives an extra field the scope. -/
theorem exists_found (ctx : ParamContext .extraField "on") : ∃ v : Value,
    IsFound (ctx.found v w) (ctx.text (g.entry "on" w)) ∧ ∀ offset stop : Nat,
      (ctx.found v w offset stop).scope? "on" = some (ofEntries items) ∧
      AddedField.ofDirective (ctx.found v w offset stop) =
        (AddedField.ofDirective (ctx.without offset stop)).map
          ({ · with on := ofEntries items }) := by
  obtain ⟨v, hv, hscope⟩ := hw.exists_value hcommas
  have hoptional : "on" ∉ Kind.requiredKeys .extraField := by decide
  exact ⟨v, ctx.isFound g (hv _ isStop_params) fun hrequired => absurd hrequired hoptional,
    ofDirective_on ctx hscope w⟩

theorem parse_eq {w' : List Char} (hw' : IsWritten items w') (g' : Gaps) {key : String}
    (hkey : key ∈ scopeKeys) :
    GqlPart.parse (ctx.text (g.entry key w)) = GqlPart.parse (ctx.text (g'.entry key w')) := by
  obtain ⟨v, hv, hscope⟩ := hw.exists_value hcommas
  obtain ⟨v', hv', hscope'⟩ := hw'.exists_value hcommas
  obtain ⟨hkey', hnormal⟩ := isKey_of_mem_scopeKeys hkey
  rw [ctx.parse_entry g hkey' (hv _ isStop_items), ctx.parse_entry g' hkey' (hv' _ isStop_items),
    hnormal, set_congr hkey (hscope.trans hscope'.symm) ctx.given w w']

variable {o : GqlPart} (hopen : (o.readOnly && o.writeOnly) = false)
include hopen

theorem parse_ignored
    (hbehind : GqlPart.setAll false { ctx.given with ignoredIn := none } ctx.after.tail = .ok o)
    {key : String} (hkey : key ∈ ["ignore", "omit"]) :
    GqlPart.parse (ctx.text (g.entry key w)) =
      .ok { o with ignoredIn := o.ignoredIn.or (some (ofEntries items)) } := by
  obtain ⟨v, hv, hscope⟩ := hw.exists_value hcommas
  have hmem : key ∈ scopeKeys := List.mem_append_left ["include"] hkey
  obtain ⟨hkey', hnormal⟩ := isKey_of_mem_scopeKeys hmem
  have hset := set_ignored hkey hscope ctx.given w
  rw [← hnormal] at hset
  rw [ctx.parse_filledFrom g hkey' (hv _ isStop_items) hset hbehind hopen]
  simp [GqlPart.filledFrom]

theorem parse_included
    (hbehind : GqlPart.setAll false { ctx.given with includedIn := none } ctx.after.tail = .ok o) :
    GqlPart.parse (ctx.text (g.entry "include" w)) =
      .ok { o with includedIn := o.includedIn.or (some (ofEntries items)) } := by
  obtain ⟨v, hv, hscope⟩ := hw.exists_value hcommas
  obtain ⟨hkey, hnormal⟩ := isKey_of_mem_scopeKeys (by decide : "include" ∈ scopeKeys)
  have hset := set_included hscope ctx.given w
  rw [← hnormal] at hset
  rw [ctx.parse_filledFrom g hkey (hv _ isStop_items) hset hbehind hopen]
  simp [GqlPart.filledFrom]

end IsWritten

/-- **Lists and joined texts give the same scope.** Entries without commas that are written in either
way give an extra field the scope of the entries, wherever their parameter stands in the directive,
and leave it as it is without the parameter otherwise. Items of a tag that are written in either way
give the same options, or the same fault; the scope is that of the entries, unless an item behind
gives another one, and all other options are what the items around give. A `*` among the entries is
everything, and entries that are all blank cover nothing. -/
theorem written_alike {items : List String} (hcommas : ∀ item ∈ items, ',' ∉ item.toList)
    {w w' : List Char} (hw : IsWritten items w) (hw' : IsWritten items w') :
    (∀ (ctx : ParamContext .extraField "on") (g : Gaps), ∃ v : Value,
      IsFound (ctx.found v w) (ctx.text (g.entry "on" w)) ∧ ∀ offset stop : Nat,
        (ctx.found v w offset stop).scope? "on" = some (ofEntries items) ∧
        AddedField.ofDirective (ctx.found v w offset stop) =
          (AddedField.ofDirective (ctx.without offset stop)).map
            ({ · with on := ofEntries items })) ∧
    (∀ key ∈ scopeKeys, ∀ (ctx : GqlPart.ItemContext) (g g' : Gaps),
      GqlPart.parse (ctx.text (g.entry key w)) = GqlPart.parse (ctx.text (g'.entry key w'))) ∧
    (∀ (ctx : GqlPart.ItemContext) (o : GqlPart),
      GqlPart.setAll false { ctx.given with ignoredIn := none } ctx.after.tail = .ok o →
      (o.readOnly && o.writeOnly) = false → ∀ key ∈ ["ignore", "omit"], ∀ g : Gaps,
        GqlPart.parse (ctx.text (g.entry key w)) =
          .ok { o with ignoredIn := o.ignoredIn.or (some (ofEntries items)) }) ∧
    (∀ (ctx : GqlPart.ItemContext) (o : GqlPart),
      GqlPart.setAll false { ctx.given with includedIn := none } ctx.after.tail = .ok o →
      (o.readOnly && o.writeOnly) = false → ∀ g : Gaps,
        GqlPart.parse (ctx.text (g.entry "include" w)) =
          .ok { o with includedIn := o.includedIn.or (some (ofEntries items)) }) ∧
    ((∃ item ∈ items, Text.trim item.toList = ['*']) → ofEntries items = .all) ∧
    ((∀ item ∈ items, Text.isBlankText item.toList = true) →
      ∀ target : Target, (ofEntries items).covers target = false) := by
  refine ⟨fun ctx g => hw.exists_found hcommas g ctx,
    fun key hkey ctx g g' => hw.parse_eq hcommas ctx g hw' g' hkey,
    fun ctx o hbehind hopen key hkey g => hw.parse_ignored hcommas ctx g hopen hbehind hkey,
    fun ctx o hbehind hopen g => hw.parse_included hcommas ctx g hopen hbehind, ofEntries_star,
    fun hblank target => ?_⟩
  rw [ofEntries_blank hblank, covers_only_nil]

/-- A directive with a name and a type in front of the scope and nothing behind it. -/
def lastContext : ParamContext .extraField "on" where
  before := Draft.printEntry ("name", .text "posts") ++
    ',' :: (Draft.printEntry ("type", .text "Post") ++ [','])
  given := [Draft.written ("name", .text "posts"), Draft.written ("type", .text "Post")]
  reads_before more := by
    have hname : IsKey "name".toList :=
      (Kind.isKey_of_mem (by decide : "name" ∈ Kind.keys .extraField)).1
    have htype : IsKey "type".toList :=
      (Kind.isKey_of_mem (by decide : "type" ∈ Kind.keys .extraField)).1
    have hcomma : Follows [',', ')'] [','] := follows_cons rfl rfl []
    rw [List.append_assoc, List.cons_append, List.append_assoc, List.singleton_append,
      Draft.readParams_cons (e := ("name", .text "posts")) hname hcomma, if_pos rfl,
      Draft.readParams_cons (e := ("type", .text "Post")) htype hcomma, if_pos rfl]
    cases readParams more <;> rfl
  after := [')']
  others := []
  reads_after := .inl ⟨rfl, rfl⟩
  ahead := [⟨"name", .text "posts", "\"posts\""⟩, ⟨"type", .text "Post", "\"Post\""⟩]
  behind := []
  known := by decide
  binds_before := rfl
  binds_after := ⟨.flag, "", rfl⟩
  fresh := by decide
  complete := by decide

/-- A tag with nothing but the item. -/
def loneContext : GqlPart.ItemContext where
  before := []
  isFirst := true
  given := {}
  reads_before _ := rfl
  after := []
  follows := follows_nil [',']

/-- Entries with characters that are quotes and brackets elsewhere. -/
def oddEntries : List String := ["]\"", " * "]

example : String.ofList (lastContext.text
      (Gaps.space.entry "on" (quotedIn '"' (",".intercalate oddEntries).toList))) =
    "@gqlExtraField(name:\"posts\",type:\"Post\",on: \"]\\\", * \")" := by
  decide

theorem odd_written_alike :
    (∃ v : Value, IsFound (lastContext.found v "[']\"',' * ']".toList)
      (lastContext.text (Gaps.space.entry "on" "[']\"',' * ']".toList)) ∧ ∀ offset stop : Nat,
        (lastContext.found v "[']\"',' * ']".toList offset stop).scope? "on" = some .all) ∧
    GqlPart.parse "ignore: [']\"',' * ']" = GqlPart.parse "ignore: ']\", * '" ∧
    GqlPart.parse "omit: [']\"',' * ']" = .ok { ignoredIn := some .all } ∧
    GqlPart.parse "include: [']\"',' * ']" = .ok { includedIn := some .all } ∧
    ∀ target : Target, (ofEntries ["", " "]).covers target = false := by
  have hcommas : ∀ item ∈ oddEntries, ',' ∉ item.toList := by decide
  have hsingle : isQuote '\'' = true := rfl
  have hdouble : isQuote '"' = true := rfl
  have hlisted : IsWritten oddEntries "[']\"',' * ']".toList :=
    .inl ⟨_, listsTexts_quotedIn hsingle oddEntries, by decide⟩
  have hjoined : IsWritten oddEntries "']\", * '".toList :=
    .inr (quotes_quotedIn hsingle (",".intercalate oddEntries).toList)
  obtain ⟨hon, hsame, hignored, hincluded, hall, -⟩ := written_alike hcommas hlisted hjoined
  have hstar : ofEntries oddEntries = .all := hall ⟨" * ", by decide, by decide⟩
  have hbehind : GqlPart.setAll false {} [] = .ok {} := GqlPart.setAll_blank rfl false {}
  have homit := hignored loneContext {} hbehind rfl "omit" (by decide) Gaps.space
  have hinclude := hincluded loneContext {} hbehind rfl Gaps.space
  rw [hstar] at hon homit hinclude
  have hblanks : IsWritten ["", " "] "\", \"".toList :=
    .inr (quotes_quotedIn hdouble (",".intercalate ["", " "]).toList)
  obtain ⟨v, hfound, hscope⟩ := hon lastContext Gaps.space
  have hignore := hsame "ignore" (by decide) loneContext Gaps.space Gaps.space
  exact ⟨⟨v, hfound, fun offset stop => (hscope offset stop).1⟩, hignore, homit, hinclude,
    (written_alike (by decide) hblanks hblanks).2.2.2.2.2 (by decide)⟩

end Scope

end GoSchema
