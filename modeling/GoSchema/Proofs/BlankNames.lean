/-
# Blank names

A name of the result comes from a directive, from a tag, or from a name of the sources. An added
field has a name that is not blank, since the directive is refused otherwise, and an empty name of a
tag counts as none. No other name that is given by hand is looked at, so a blank one stays. A name
that is derived is blank in one case only: nothing but underscores stands in the name of a field or
of a constant, and a case style finds no word there.

Key definitions: `Field.HasBlankName`, `Constant.HasBlankName`, `BlockMaker.NamedBy`.
Key theorems: `blank_iff_of_namedBy`, `blank_iff_of_comesFrom`, `not_blank_of_addedBy`,
`enumValueOf_blank_iff`, `blocksOfFiles_blankNames`.
-/
import GoSchema.Proofs.EnumLinks
import GoSchema.Proofs.NamedCatalogs

namespace GoSchema

open Name Outcome

/-- The name that a field has in blocks is blank: the tag gives a blank name that is not empty; or
it gives none, and a name for JSON that is used is blank and not empty; or there is neither, and a
case style finds nothing but underscores in the name of the field. -/
def Field.HasBlankName (config : Config) (f : Field) : Prop :=
  (∃ name, given f.options.name = some name ∧ Text.isBlankText name.toList = true) ∨
  (given f.options.name = none ∧ config.useJsonTag = true ∧
    ∃ name, given f.json.name = some name ∧ Text.isBlankText name.toList = true) ∨
  (given f.options.name = none ∧ (config.useJsonTag = true → given f.json.name = none) ∧
    config.fieldCase ≠ .asWritten ∧ ∃ name, f.goName = some name ∧ IsUnderscores name.toList)

/-- The name that a constant has as a value is blank: the directive gives a blank name; or it gives
none, and the constant is called by underscores only. -/
def Constant.HasBlankName (k : Constant) : Prop :=
  match k.request.bind ValueRequest.name with
  | some name => Text.isBlankText name.toList = true
  | none => IsUnderscores k.name.toList

/-- A request of a declaration gives the block `b` its name: `custom` if that is a name, and else
one made of the name of the declaration. -/
def BlockMaker.NamedBy (ctx : BlockMaker) (b : Block) (custom : Option String) : Prop :=
  ∃ d ∈ ctx.catalog.types, b.name = typeName ctx.config.naming d.name custom b.kind ∧
    ((∃ r ∈ d.requests, r.kind = b.kind ∧ r.customName = custom) ∨
      b.kind = .enum ∧ ∃ r, d.enumRequest = some r ∧ r.customName = custom)

variable {given : String → Prop} {tagged : JsonPart → GqlPart → Prop}

/-! ### Names of blocks, fields and values -/

namespace BlockMaker

variable {ctx : BlockMaker} {b : Block}

/-- **Every block is named** on request. -/
theorem exists_namedBy {bs : List Block} (h : ctx.blocks = .ok bs) (hb : b ∈ bs) :
    ∃ custom, ctx.NamedBy b custom := by
  obtain ⟨id, d, hd, ⟨r, hr, rfl⟩ | ⟨r, hr, index, hmade⟩⟩ := blockOf_of_mem h hb
  · exact ⟨r.customName, d, List.mem_of_getElem? hd, rfl, .inr ⟨rfl, r, hr, rfl⟩⟩
  · obtain ⟨-, -, -, ⟨-, -, hnone⟩ | ⟨made, hsome, hname, hkind, -⟩⟩ := blockOf_ok hmade
    · exact nomatch hnone
    · obtain rfl := Option.some.inj hsome
      refine ⟨r.customName, d, List.mem_of_getElem? hd, ?_, .inl ⟨r, hr, hkind.symm, rfl⟩⟩
      rw [hname, Declaration.requestName, hkind]

theorem given_of_namedBy (h : ctx.catalog.IsNamed given tagged) {custom : Option String}
    (hb : ctx.NamedBy b custom) : ∀ name, custom = some name → given name := by
  obtain ⟨d, hd, -, ⟨r, hr, -, rfl⟩ | ⟨-, r, hr, rfl⟩⟩ := hb
  · exact (h d hd).requests r hr
  · exact (h d hd).enum r hr

/-- **A block has a blank name just where a blank one is given by hand.** -/
theorem blank_iff_of_namedBy (h : ctx.catalog.IsNamed given tagged) {custom : Option String}
    (hb : ctx.NamedBy b custom) :
    Text.isBlankText b.name.toList = true ↔
      ∃ name, custom = some name ∧ Text.isBlankText name.toList = true := by
  obtain ⟨d, hd, hname, -⟩ := hb
  rw [hname]
  exact isBlankText_typeName_iff _ (h d hd).name custom b.kind

/-- **A field that comes from a struct has a blank name in the three cases of `HasBlankName`.** -/
theorem blank_iff_of_comesFrom (h : ctx.catalog.IsNamed given tagged) {s : SchemaField} {f : Field}
    (hf : ctx.ComesFrom b s f) (hdeclared : f.isEmbedded = false) :
    tagged f.json f.options ∧
      (Text.isBlankText s.name.toList = true ↔ f.HasBlankName ctx.config) := by
  obtain ⟨d, hd, r, -, hmem, -, -, -, hfield⟩ := hf
  have hnamed := (h d hd).body.fields f hmem
  obtain ⟨goName, hgo⟩ : ∃ goName, f.goName = some goName := by
    rwa [Field.isEmbedded, Option.isNone_eq_false_iff, Option.isSome_iff_exists] at hdeclared
  obtain ⟨text, -, heq⟩ := map_eq_ok_iff.1 hfield
  have hname : s.name = fieldName goName f.options.name f.json.name ctx.config.useJsonTag
      ctx.config.fieldCase := by
    rw [← congrArg SchemaField.name (Prod.mk.inj heq).1, hgo]
    rfl
  refine ⟨hnamed.tag, ?_⟩
  rw [hname, isBlankText_fieldName_iff (hnamed.goName goName hgo), Field.HasBlankName, hgo]
  simp

/-- **An added field has no blank name.** -/
theorem not_blank_of_addedBy (h : ctx.catalog.IsNamed given tagged) {s : SchemaField}
    {e : AddedField} (he : ctx.AddedBy b s e) : Text.isBlankText s.name.toList = false := by
  obtain ⟨d, hd, r, -, hmem, -, -, -, rfl⟩ := he
  exact (h d hd).additions e hmem

end BlockMaker

/-- **The value that a constant gives has a blank name in the two cases of `HasBlankName`.** -/
theorem Catalog.enumValueOf_blank_iff {k : Constant} (h : IsSolid k.name) (enum : Declaration) :
    Text.isBlankText (enumValueOf enum k).name.toList = true ↔ k.HasBlankName := by
  unfold enumValueOf Constant.HasBlankName
  cases k.request with
  | none => exact isBlankText_valueName_iff h enum.name
  | some request =>
    dsimp only [Option.getD_some, Option.bind_some]
    cases request.name with
    | none => exact isBlankText_valueName_iff h enum.name
    | some name => exact Iff.rfl

theorem Declarations.exists_const_of_mem_values {config : Config} {ds : Declarations}
    {ctx : BlockMaker} (hctx : ds.maker config = .ok ctx) {bs : List Block}
    (h : ctx.blocks = .ok bs) {b : Block} (hb : b ∈ bs) {v : EnumValue} (hv : v ∈ b.values) :
    ∃ k ∈ ds.consts, ∃ enum, v = Catalog.enumValueOf enum k := by
  obtain ⟨id, d, -, ⟨r, -, rfl⟩ | ⟨r, -, index, hmade⟩⟩ := BlockMaker.blockOf_of_mem h hb
  · simp only [maker, bind_eq_ok_iff] at hctx
    obtain ⟨c, hc, enums, henums, _, -, _, -, _, -, hmaker⟩ := hctx
    obtain rfl := Except.ok.inj hmaker
    obtain ⟨-, rfl⟩ := Catalog.enumMembers_eq_ok_iff.1 henums
    replace hv : v ∈ ((c.table c.consts).lookup id).getD [] := hv
    cases hfound : (c.table c.consts).lookup id with
    | none =>
      rw [hfound] at hv
      exact absurd hv List.not_mem_nil
    | some vs =>
      rw [hfound, Option.getD_some] at hv
      obtain ⟨x, hx, heq⟩ := List.mem_map.1 (Pointwise.mem_of_lookup hfound)
      obtain ⟨rfl, rfl⟩ := Prod.mk.inj heq
      unfold Catalog.valuesFrom at hv
      split at hv
      · rename_i enum henum
        obtain ⟨k, hk, rfl⟩ := List.mem_map.1 hv
        rw [← Catalog.consts_ofDeclarations, ← Catalog.consts_settleAll hc]
        exact ⟨k, (List.mem_filter.1 hk).1, enum, rfl⟩
      · exact absurd hv List.not_mem_nil
  · rw [BlockMaker.values_of_blockOf hmade] at hv
    exact absurd hv List.not_mem_nil

/-! ### All names -/

/-- **Which names are blank.** In every run without a fault, on files that were read from texts, a
block has a blank name just where a directive gives it one; a field that a directive adds has none;
a field of a struct and the value of a constant have one in the cases of `HasBlankName` only. So
what is blank is written in a directive or in a tag, or it is made of underscores. -/
theorem blocksOfFiles_blankNames {config : Config} {files : List SourceFile} {bs : List Block}
    (hread : ∀ file ∈ files, ∃ text, file.IsReadFrom text)
    (h : blocksOfFiles config files = .ok bs) :
    ∃ ds ctx, Declarations.ofFiles config files = .ok ds ∧ ds.maker config = .ok ctx ∧
      ctx.config = config ∧ ctx.blocks = .ok bs ∧ ∀ b ∈ bs,
        (∃ custom, ctx.NamedBy b custom ∧
          (∀ name, custom = some name → ∃ file ∈ files, file.NamesBlock name) ∧
          (Text.isBlankText b.name.toList = true ↔
            ∃ name, custom = some name ∧ Text.isBlankText name.toList = true)) ∧
        (∀ s ∈ b.fields,
          (∃ e, ctx.AddedBy b s e ∧ Text.isBlankText s.name.toList = false) ∨
          ∃ f, ctx.ComesFrom b s f ∧ (∃ file ∈ files, file.TagsField f.json f.options) ∧
            (Text.isBlankText s.name.toList = true ↔ f.HasBlankName config)) ∧
        ∀ v ∈ b.values, ∃ k ∈ ds.consts, ∃ enum, v = Catalog.enumValueOf enum k ∧
          (Text.isBlankText v.name.toList = true ↔ k.HasBlankName) := by
  unfold blocksOfFiles at h
  split at h
  · exact nomatch h
  rename_i ds hds
  obtain ⟨ctx, hctx, hblocks⟩ := Declarations.toBlocks_eq_ok_iff.1 h
  obtain rfl := Declarations.maker_config hctx
  have hidentifiers : ∀ file ∈ files, file.HasIdentifiers := by
    intro file hfile
    obtain ⟨text, htext⟩ := hread file hfile
    exact htext.hasIdentifiers
  have hnamed := Declarations.isNamed_maker hidentifiers hds hctx
  have hconsts := Declarations.isSolid_consts hidentifiers hds
  refine ⟨ds, ctx, hds, hctx, rfl, hblocks, fun b hb => ⟨?block, fun s hs => ?field, ?values⟩⟩
  case block =>
    obtain ⟨custom, hcustom⟩ := BlockMaker.exists_namedBy hblocks hb
    exact ⟨custom, hcustom, BlockMaker.given_of_namedBy hnamed hcustom,
      BlockMaker.blank_iff_of_namedBy hnamed hcustom⟩
  case field =>
    rcases BlockMaker.declared_of_mem_fields hblocks hb hs with ⟨f, hf, hdeclared⟩ | ⟨e, he⟩
    · obtain ⟨htag, hblank⟩ := BlockMaker.blank_iff_of_comesFrom hnamed hf hdeclared
      exact .inr ⟨f, hf, htag, hblank⟩
    · exact .inl ⟨e, he, BlockMaker.not_blank_of_addedBy hnamed he⟩
  case values =>
    intro v hv
    obtain ⟨k, hk, enum, rfl⟩ := Declarations.exists_const_of_mem_values hctx hblocks hb hv
    exact ⟨k, hk, enum, rfl, Catalog.enumValueOf_blank_iff (hconsts k hk) enum⟩

/-- The text of a file with an enum whose value is called by underscores, and a struct that is given
the empty name and whose field has a blank name for JSON. -/
def badgeText : String :=
  "package m\n\n// @gqlEnum\ntype Status string\n\nconst __ Status = \"a\"\n\n" ++
    "// @gqlType(name: \"\")\ntype User struct \x7b\n    Name string \x60json:\" \"\x60\n\x7d\n"

/-- What is read from `badgeText`. -/
def badgeFile : SourceFile :=
  { path := ⟨"m.go"⟩
    package := "m"
    types :=
      [⟨"Status", some "@gqlEnum", 4, [], .defined (.ofName "string")⟩,
        ⟨"User", some "@gqlType(name: \"\")", 9, [],
          .record [⟨some "Name", .ofName "string", some "json:\" \"", none, 10⟩]⟩]
    consts := [⟨"__", some (.ofName "Status"), none, 6⟩] }

/-- The schema of `badgeFile`. -/
def badgeBlocks : List Block :=
  [{ kind := .enum
     name := "Status"
     package := "m"
     place := ⟨0, 0, 0⟩
     slot := 0
     values := [⟨"__", "", none, none⟩]
     source := "m.Status" },
    { kind := .type
      name := ""
      package := "m"
      place := ⟨0, 1, 0⟩
      slot := 1
      fields := [{ name := " ", typeText := "String!" }]
      source := "m.User (type)" }]

theorem badgeFile_blankNames :
    badgeFile.IsReadFrom badgeText ∧ blocksOfFiles {} [badgeFile] = .ok badgeBlocks ∧
      ∃ ds ctx, Declarations.ofFiles {} [badgeFile] = .ok ds ∧ ds.maker {} = .ok ctx ∧
        (∃ b ∈ badgeBlocks, ctx.NamedBy b (some "") ∧ badgeFile.NamesBlock "" ∧
          ∃ s ∈ b.fields, ∃ f, ctx.ComesFrom b s f ∧ f.HasBlankName {}) ∧
        ∃ b ∈ badgeBlocks, ∃ v ∈ b.values, ∃ k ∈ ds.consts, ∃ enum,
          v = Catalog.enumValueOf enum k ∧ k.HasBlankName := by
  have hread : badgeFile.IsReadFrom badgeText := eq_ok_of_toOption (by decide +kernel)
  have hblocks : blocksOfFiles {} [badgeFile] = .ok badgeBlocks :=
    eq_ok_of_toOption (by decide +kernel)
  obtain ⟨ds, ctx, hds, hctx, -, -, hall⟩ :=
    blocksOfFiles_blankNames (by simpa using ⟨_, hread⟩) hblocks
  refine ⟨hread, hblocks, ds, ctx, hds, hctx, ?_, ?_⟩
  · refine ⟨_, List.mem_cons_of_mem _ List.mem_cons_self, ?_⟩
    obtain ⟨⟨custom, hnamed, hgiven, hblank⟩, hfields, -⟩ :=
      hall _ (List.mem_cons_of_mem _ List.mem_cons_self)
    obtain ⟨name, rfl, -⟩ := hblank.1 (by decide)
    obtain rfl : "" = name := by
      obtain ⟨_, -, hname, -⟩ := hnamed
      exact hname
    obtain ⟨file, hfile, hnames⟩ := hgiven "" rfl
    obtain rfl := List.mem_singleton.1 hfile
    refine ⟨hnamed, hnames, _, List.mem_cons_self, ?_⟩
    rcases hfields _ List.mem_cons_self with ⟨e, -, hno⟩ | ⟨f, hf, -, hiff⟩
    · exact absurd hno (by decide)
    · exact ⟨f, hf, hiff.1 (by decide)⟩
  · obtain ⟨-, -, hvalues⟩ := hall _ List.mem_cons_self
    obtain ⟨k, hk, enum, hv, hiff⟩ := hvalues _ List.mem_cons_self
    exact ⟨_, List.mem_cons_self, _, List.mem_cons_self, k, hk, enum, hv, hiff.1 (by decide)⟩

/-- The text of a file with one struct, which is given the empty name. -/
def namelessText : String :=
  "package m\n\n// @gqlType(name: \"\")\ntype User struct \x7b\n    Name string\n\x7d\n"

/-- What is read from `namelessText`. -/
def namelessFile : SourceFile :=
  { path := ⟨"m.go"⟩
    package := "m"
    types :=
      [⟨"User", some "@gqlType(name: \"\")", 4, [],
          .record [⟨some "Name", .ofName "string", none, none, 5⟩]⟩] }

/-- **A block may have no name**: the directive gives the empty one, and nothing looks at it. -/
theorem namelessFile_blank_name :
    namelessFile.IsReadFrom namelessText ∧
      ∃ bs, blocksOfFiles {} [namelessFile] = .ok bs ∧
        ∃ b ∈ bs, b.source = "m.User (type)" ∧ Text.isBlankText b.name.toList = true := by
  refine ⟨eq_ok_of_toOption (by decide +kernel),
    [{ kind := .type
       name := ""
       package := "m"
       place := ⟨0, 0, 0⟩
       slot := 1
       fields := [{ name := "name", typeText := "String!" }]
       source := "m.User (type)" }],
    eq_ok_of_toOption (by decide +kernel), _, List.mem_cons_self, rfl, by decide⟩

end GoSchema
