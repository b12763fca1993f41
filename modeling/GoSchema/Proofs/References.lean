/-
# The names that type texts refer to

A type text is a name under list brackets and exclamation marks. The name is a scalar, or it is the
name of the declaration that the Go type leads to once pointers, lists and defined types are looked
through. A declaration that is not generic gives a block of that name, so what a type text refers
to is in the schema. A generic declaration gives no block of its own, and a defined type may still
lead to one, because only the fields of structs have their references replaced by instances.

Key definitions: `Wraps`, `bareName`, `BlockMaker.IsScalar`, `BlockMaker.LeadsTo`,
`Declaration.nameIn?`, `BlockMaker.Refers`, `BlockMaker.RefersWithin`.
Key theorems: `BlockMaker.refers_of_refer`, `BlockMaker.Refers.names`,
`BlockMaker.exists_block_of_nameIn`, `blocksOfFiles_refersWithin`.
-/
import GoSchema.Generation
import GoSchema.Proofs.Blocks
import GoSchema.Proofs.Lookup

namespace GoSchema

open Outcome

/-- A type text that is a name under brackets and exclamation marks. -/
inductive Wraps (name : String) : String → Prop
  | bare : Wraps name name
  | list {text : String} : Wraps name text → Wraps name ("[" ++ text ++ "]")
  | required {text : String} : Wraps name text → Wraps name (text ++ "!")

/-- A type text without its brackets and exclamation marks. -/
def bareName (text : String) : String :=
  String.ofList (text.toList.filter fun c => c ≠ '[' && c ≠ ']' && c ≠ '!')

theorem bareName_of_wraps {name text : String} (h : Wraps name text) :
    bareName text = bareName name := by
  induction h with
  | bare => rfl
  | list _ ih =>
    rw [← ih]
    simp [bareName]
  | required _ ih =>
    rw [← ih]
    simp [bareName]

theorem Wraps.item {name text : String} (h : Wraps name text) (nullable : Bool) :
    Wraps name ("[" ++ text ++ (if nullable then "" else "!") ++ "]") := by
  cases nullable with
  | true => simpa using h.list
  | false =>
    have := h.required.list
    rwa [← String.append_assoc] at this

/-- The name by which the blocks of a kind refer to a declaration: that of its enum, or of its first
request of the kind. -/
def Declaration.nameIn? (rules : NamingRules) (kind : BlockKind) (d : Declaration) :
    Option String :=
  match d.enumRequest with
  | some request => some (Name.typeName rules d.name request.customName .enum)
  | none =>
    if d.isRecord then (d.requests.find? (·.kind = kind)).map (d.requestName rules) else none

namespace BlockMaker

variable {ctx : BlockMaker}

/-- A name that stands for a scalar of GraphQL, or for one that a Go type is mapped to. -/
def IsScalar (config : Config) (name : String) : Prop :=
  name ∈ ["String", "Int", "Float", "Boolean", "ID"] ∨
    ∃ key, (key, name) ∈ config.scalars ∨ (key, name) ∈ usualScalars

/-- A type leads to the declaration of an enum or of a struct, behind pointers, lists, and names
that stand for other types. A name that is mapped to a scalar leads nowhere. -/
inductive LeadsTo (ctx : BlockMaker) : GoType → Declaration → Prop
  | pointer {t : GoType} {d : Declaration} : LeadsTo ctx t d → LeadsTo ctx (.pointer t) d
  | slice {t : GoType} {d : Declaration} : LeadsTo ctx t d → LeadsTo ctx (.slice t) d
  | array {t : GoType} {d : Declaration} : LeadsTo ctx t d → LeadsTo ctx (.array t) d
  | here {package name : String} {qualifier : Option String} {args : List GoType} {id : Nat}
      {d : Declaration} : ctx.scalarOfName? package qualifier name = none →
      ctx.catalog.find (.named (some package) qualifier name args) = some (id, d) →
      (d.enumRequest.isSome ∨ d.isRecord) →
      LeadsTo ctx (.named (some package) qualifier name args) d
  | behind {package name : String} {qualifier : Option String} {args : List GoType} {id : Nat}
      {d e : Declaration} {t : GoType} : ctx.scalarOfName? package qualifier name = none →
      ctx.catalog.find (.named (some package) qualifier name args) = some (id, d) →
      d.enumRequest = none → d.body.named? = some t → LeadsTo ctx t e →
      LeadsTo ctx (.named (some package) qualifier name args) e

/-- What the name in a type text stands for: a scalar, or a declaration that the Go type leads
to. -/
def Names (ctx : BlockMaker) (kind : BlockKind) (t : GoType) (name : String) : Prop :=
  IsScalar ctx.config name ∨
    ∃ d ∈ ctx.catalog.types, ctx.LeadsTo t d ∧ d.nameIn? ctx.config.naming kind = some name

theorem Names.mono {kind : BlockKind} {t u : GoType} {name : String} (h : ctx.Names kind t name)
    (hl : ∀ d, ctx.LeadsTo t d → ctx.LeadsTo u d) : ctx.Names kind u name := by
  rcases h with h | ⟨d, hd, ht, hn⟩
  · exact .inl h
  · exact .inr ⟨d, hd, hl d ht, hn⟩

theorem isScalar_of_scalar? {key name : String} (h : ctx.scalar? key = some name) :
    IsScalar ctx.config name := by
  rcases Option.or_eq_some_iff.1 h with h | ⟨-, h⟩
  · exact .inr ⟨key, .inl (Pointwise.mem_of_lookup h)⟩
  · exact .inr ⟨key, .inr (Pointwise.mem_of_lookup h)⟩

theorem isScalar_of_scalarOfName? {package name scalar : String} {qualifier : Option String}
    (h : ctx.scalarOfName? package qualifier name = some scalar) :
    IsScalar ctx.config scalar := by
  obtain ⟨p, -, hp⟩ := List.exists_of_findSome?_eq_some h
  exact isScalar_of_scalar? hp

theorem isScalar_of_predeclared {config : Config} {name scalar : String}
    (h : predeclaredScalar? name = some scalar) : IsScalar config scalar := by
  left
  unfold predeclaredScalar? at h
  split_ifs at h <;> obtain rfl := Option.some.inj h <;> decide

theorem isScalar_usual {key : String} (hk : key = "map" ∨ key = "any") :
    IsScalar ctx.config ((ctx.scalar? key).getD "") := by
  cases hs : ctx.scalar? key with
  | some name => exact isScalar_of_scalar? hs
  | none =>
    have hu : usualScalars.lookup key = none := (Option.or_eq_none_iff.1 hs).2
    rcases hk with rfl | rfl <;> exact absurd hu (by decide)

/-! ### References -/

/-- How a type text is derived from a type for blocks of a kind, where no resolver is asked for. -/
inductive Refers (ctx : BlockMaker) (kind : BlockKind) : GoType → TypeRef → Prop
  | pointer {t : GoType} {r : TypeRef} (h : Refers ctx kind t r) :
      Refers ctx kind (.pointer t) ⟨r.text, true⟩
  | list {t u : GoType} {r : TypeRef} (hu : u = .slice t ∨ u = .array t)
      (hb : isByteType t = false) (h : Refers ctx kind t r) :
      Refers ctx kind u ⟨"[" ++ r.text ++ (if r.nullable then "" else "!") ++ "]", false⟩
  | bytes {t u : GoType} (hu : u = .slice t ∨ u = .array t) (hb : isByteType t = true) :
      Refers ctx kind u ⟨"String", false⟩
  | map {k v : GoType} : Refers ctx kind (.map k v) ⟨(ctx.scalar? "map").getD "", false⟩
  | any : Refers ctx kind .any ⟨(ctx.scalar? "any").getD "", false⟩
  | predeclared {qualifier : Option String} {name scalar : String} {args : List GoType}
      (hs : predeclaredScalar? name = some scalar) :
      Refers ctx kind (.named none qualifier name args) ⟨scalar, false⟩
  | scalar {package name scalar : String} {qualifier : Option String} {args : List GoType}
      (hs : ctx.scalarOfName? package qualifier name = some scalar) :
      Refers ctx kind (.named (some package) qualifier name args) ⟨scalar, false⟩
  | enum {package name : String} {qualifier : Option String} {args : List GoType} {id : Nat}
      {d : Declaration} {request : EnumRequest}
      (hs : ctx.scalarOfName? package qualifier name = none)
      (hd : ctx.catalog.find (.named (some package) qualifier name args) = some (id, d))
      (he : d.enumRequest = some request) :
      Refers ctx kind (.named (some package) qualifier name args)
        ⟨Name.typeName ctx.config.naming d.name request.customName .enum, false⟩
  | struct {package name : String} {qualifier : Option String} {args : List GoType} {id : Nat}
      {d : Declaration} {request : BlockRequest}
      (hs : ctx.scalarOfName? package qualifier name = none)
      (hd : ctx.catalog.find (.named (some package) qualifier name args) = some (id, d))
      (he : d.enumRequest = none) (hr : d.isRecord = true)
      (hq : d.requests.find? (·.kind = kind) = some request) :
      Refers ctx kind (.named (some package) qualifier name args)
        ⟨d.requestName ctx.config.naming request, false⟩
  | behind {package name : String} {qualifier : Option String} {args : List GoType} {id : Nat}
      {d : Declaration} {t : GoType} {r : TypeRef}
      (hs : ctx.scalarOfName? package qualifier name = none)
      (hd : ctx.catalog.find (.named (some package) qualifier name args) = some (id, d))
      (he : d.enumRequest = none) (hn : d.body.named? = some t) (h : Refers ctx kind t r) :
      Refers ctx kind (.named (some package) qualifier name args) r

theorem withoutBlock_of_not_forced {spot : Spot} (hf : spot.field.options.forceResolver = false)
    {t : GoType} {ref : TypeRef} : ctx.withoutBlock spot t ≠ .ok ref := by
  simp [withoutBlock, hf]

/-- The step of a reference to a declaration, where what stands behind a name is left to
`behind`. -/
theorem refers_of_declarationRef {spot : Spot} (hf : spot.field.options.forceResolver = false)
    {behind : GoType → GoType → Except Fault TypeRef}
    (hb : ∀ {t u ref}, behind t u = .ok ref → ctx.Refers spot.kind u ref)
    {package name : String} {qualifier : Option String} {args : List GoType} {id : Nat}
    {d : Declaration} {ref : TypeRef} (hs : ctx.scalarOfName? package qualifier name = none)
    (hd : ctx.catalog.find (.named (some package) qualifier name args) = some (id, d))
    (h : ctx.declarationRef spot behind d (.named (some package) qualifier name args) = .ok ref) :
    ctx.Refers spot.kind (.named (some package) qualifier name args) ref := by
  unfold declarationRef at h
  split at h
  · rename_i request he
    obtain rfl := Except.ok.inj h
    exact .enum hs hd he
  · rename_i he
    split at h
    · rename_i fields hbody
      have hr : d.isRecord = true := by simp [Declaration.isRecord, hbody, Body.isRecord]
      split at h
      · rename_i request hq
        obtain rfl := Except.ok.inj h
        exact .struct hs hd he hr hq
      · exact absurd h (withoutBlock_of_not_forced hf)
    all_goals
      rename_i u hbody
      exact .behind hs hd he (by rw [hbody]; rfl) (hb h)

theorem refers_of_referWith {spot : Spot} (hf : spot.field.options.forceResolver = false)
    {behind : GoType → GoType → Except Fault TypeRef}
    (hb : ∀ {t u ref}, behind t u = .ok ref → ctx.Refers spot.kind u ref)
    (t : GoType) {ref : TypeRef} (h : ctx.referWith spot behind t = .ok ref) :
    ctx.Refers spot.kind t ref := by
  have list : ∀ {t u : GoType} {ref : TypeRef}, u = .slice t ∨ u = .array t →
      (∀ {r}, ctx.referWith spot behind t = .ok r → ctx.Refers spot.kind t r) →
      ctx.referWith spot behind u = .ok ref → ctx.Refers spot.kind u ref := by
    intro t u ref hu ih h
    have hitem : (if isByteType t then Except.ok (TypeRef.mk "String" false)
        else (ctx.referWith spot behind t).map fun r =>
          TypeRef.mk ("[" ++ r.text ++ (if r.nullable then "" else "!") ++ "]") false) =
            .ok ref := by
      rcases hu with rfl | rfl <;> exact h
    split at hitem
    · rename_i hbyte
      obtain rfl := Except.ok.inj hitem
      exact .bytes hu hbyte
    · rename_i hbyte
      obtain ⟨r, hr, rfl⟩ := map_eq_ok_iff.1 hitem
      exact .list hu (Bool.eq_false_iff.2 hbyte) (ih hr)
  induction t using GoType.rec (motive_2 := fun _ => True) generalizing ref with
  | pointer t ih =>
    obtain ⟨r, hr, rfl⟩ := map_eq_ok_iff.1 h
    exact .pointer (ih hr)
  | slice t ih => exact list (.inl rfl) (fun hr => ih hr) h
  | array t ih => exact list (.inr rfl) (fun hr => ih hr) h
  | map k v _ _ =>
    obtain rfl := Except.ok.inj h
    exact .map
  | any =>
    obtain rfl := Except.ok.inj h
    exact .any
  | other text => exact absurd h (withoutBlock_of_not_forced hf)
  | named package qualifier name args _ =>
    cases package with
    | none =>
      simp only [referWith] at h
      split at h
      · rename_i scalar hs
        obtain rfl := Except.ok.inj h
        exact .predeclared hs
      · exact absurd h (withoutBlock_of_not_forced hf)
    | some package =>
      simp only [referWith] at h
      split at h
      · rename_i scalar hs
        obtain rfl := Except.ok.inj h
        exact .scalar hs
      · rename_i hs
        split at h
        · rename_i id d hd
          exact refers_of_declarationRef hf hb hs hd h
        · exact absurd h (withoutBlock_of_not_forced hf)
  | nil => trivial
  | cons => trivial

/-- **A type text that is given is derived from the type.** The induction is on the number of names
that may be looked through. -/
theorem refers_of_refer {spot : Spot} (hf : spot.field.options.forceResolver = false) :
    ∀ (room : Nat) {t : GoType} {ref : TypeRef}, ctx.refer spot room t = .ok ref →
      ctx.Refers spot.kind t ref
  | 0, t, _, h =>
    refers_of_referWith hf (fun hb => absurd hb (withoutBlock_of_not_forced hf)) t h
  | room + 1, t, _, h => refers_of_referWith hf (fun hb => refers_of_refer hf room hb) t h

/-- **A reference names what its type leads to.** -/
theorem Refers.names {kind : BlockKind} {t : GoType} {ref : TypeRef} (h : ctx.Refers kind t ref) :
    ∃ name, Wraps name ref.text ∧ ctx.Names kind t name := by
  induction h with
  | pointer _ ih =>
    obtain ⟨name, hw, hn⟩ := ih
    exact ⟨name, hw, hn.mono fun _ => .pointer⟩
  | @list t u r hu _ _ ih =>
    obtain ⟨name, hw, hn⟩ := ih
    refine ⟨name, hw.item r.nullable, hn.mono fun _ hd => ?_⟩
    rcases hu with rfl | rfl
    · exact .slice hd
    · exact .array hd
  | bytes => exact ⟨"String", .bare, .inl (.inl (by decide))⟩
  | map => exact ⟨_, .bare, .inl (isScalar_usual (.inl rfl))⟩
  | any => exact ⟨_, .bare, .inl (isScalar_usual (.inr rfl))⟩
  | predeclared hs => exact ⟨_, .bare, .inl (isScalar_of_predeclared hs)⟩
  | scalar hs => exact ⟨_, .bare, .inl (isScalar_of_scalarOfName? hs)⟩
  | enum hs hd he =>
    exact ⟨_, .bare, .inr ⟨_, Catalog.mem_of_find hd, .here hs hd (.inl (by simp [he])),
      by simp [Declaration.nameIn?, he]⟩⟩
  | struct hs hd he hr hq =>
    exact ⟨_, .bare, .inr ⟨_, Catalog.mem_of_find hd, .here hs hd (.inr hr),
      by simp [Declaration.nameIn?, he, hr, hq]⟩⟩
  | behind hs hd he hn _ ih =>
    obtain ⟨name, hw, hname⟩ := ih
    exact ⟨name, hw, hname.mono fun _ => .behind hs hd he hn⟩

theorem fieldTypeText_of_derived (spot : Spot) (ht : spot.field.options.typeText = none) :
    ctx.fieldTypeText spot = (ctx.plainRef spot).map fun r =>
      if isNullable spot.field.options.nullability r.nullable then r.text else r.text ++ "!" := by
  rw [fieldTypeText, ht]

theorem fieldTypeText_ok {spot : Spot} (ht : spot.field.options.typeText = none)
    (hf : spot.field.options.forceResolver = false) {text : String}
    (h : ctx.fieldTypeText spot = .ok text) :
    ∃ name, Wraps name text ∧ ctx.Names spot.kind spot.field.type name := by
  rw [fieldTypeText_of_derived spot ht] at h
  obtain ⟨ref, hr, htext⟩ := map_eq_ok_iff.1 h
  have hn : ∃ name, Wraps name ref.text ∧ ctx.Names spot.kind spot.field.type name := by
    unfold plainRef at hr
    split at hr
    · obtain rfl := Except.ok.inj hr
      exact ⟨"ID", .bare, .inl (.inl (by decide))⟩
    · exact (refers_of_refer hf chainLimit hr).names
  obtain ⟨name, hw, hn⟩ := hn
  refine ⟨name, ?_, hn⟩
  rw [← htext]
  split
  · exact hw
  · exact hw.required

/-- A declaration that is not generic gives a block for every name that it is referred to by, if
blocks without fields are kept. -/
theorem exists_block_of_nameIn {bs : List Block} (h : ctx.blocks = .ok bs)
    (hempty : ctx.config.includeEmptyTypes = true) {d : Declaration}
    (hd : d ∈ ctx.catalog.types) (hg : d.isGeneric = false) {kind : BlockKind} {name : String}
    (hn : d.nameIn? ctx.config.naming kind = some name) :
    ∃ b ∈ bs, b.name = name ∧ (b.kind = .enum ∨ b.kind = kind) := by
  obtain ⟨id, hid⟩ := List.mem_iff_getElem?.1 hd
  obtain ⟨own, hown, hsub⟩ := blocksOf_subset h (List.mk_mem_zipIdx_iff_getElem?.2 hid)
  obtain ⟨made, rfl, hall⟩ := blocksOf_ok hg hown
  unfold Declaration.nameIn? at hn
  split at hn
  · rename_i request he
    refine ⟨ctx.blockOfEnum id d request, hsub ?_, Option.some.inj hn, .inl rfl⟩
    rw [he]
    exact List.mem_append_left _ (by simp)
  · split at hn
    · rename_i hr
      obtain ⟨request, hq, rfl⟩ := Option.map_eq_some_iff.1 hn
      have hk : request.kind = kind := by simpa using List.find?_some hq
      obtain ⟨index, hi⟩ := List.mem_iff_getElem?.1 (List.mem_of_find?_eq_some hq)
      rw [if_pos hr] at hall
      obtain ⟨m, hm, hblock⟩ := Pointwise.exists_right hall (List.mk_mem_zipIdx_iff_getElem?.2 hi)
      obtain ⟨_, -, -, ⟨-, hno, -⟩ | ⟨b, rfl, hname, hkind, -, -, -⟩⟩ := blockOf_ok hblock
      · exact absurd hempty (by simp [hno])
      · exact ⟨b, hsub (List.mem_append_right _ (List.mem_flatMap.2 ⟨_, hm, by simp⟩)), hname,
          .inr (hkind.trans hk)⟩
    · exact nomatch hn

/-- What the type texts of blocks refer to. Every field of a block is added by a directive or comes
from a field of a struct; and where a type text is derived from the Go type, the name in it is a
scalar, or an enum or a block of the same kind among the blocks, unless the Go type leads to a
generic declaration, which gives no block. -/
def RefersWithin (ctx : BlockMaker) (bs : List Block) : Prop :=
  ∀ b ∈ bs,
    (∀ s ∈ b.fields, (∃ f, ctx.ComesFrom b s f) ∨ ∃ e, ctx.AddedBy b s e) ∧
    ∀ s f, ctx.ComesFrom b s f → f.options.typeText = none → f.options.forceResolver = false →
      ∃ name, Wraps name s.typeText ∧ bareName s.typeText = bareName name ∧
        (IsScalar ctx.config name ∨
          (∃ b' ∈ bs, b'.name = name ∧ (b'.kind = .enum ∨ b'.kind = b.kind)) ∨
          ∃ d ∈ ctx.catalog.types, d.isGeneric = true ∧ ctx.LeadsTo f.type d ∧
            d.nameIn? ctx.config.naming b.kind = some name)

theorem refersWithin_of_blocks {bs : List Block} (h : ctx.blocks = .ok bs)
    (hempty : ctx.config.includeEmptyTypes = true) : ctx.RefersWithin bs := by
  intro b hb
  refine ⟨fun s hs => origin_of_mem_fields h hb hs, ?_⟩
  rintro s f ⟨-, -, -, -, -, -, -, -, hfield⟩ ht hf
  obtain ⟨text, htext, heq⟩ := map_eq_ok_iff.1 hfield
  obtain rfl : text = s.typeText := congrArg SchemaField.typeText (Prod.mk.inj heq).1
  obtain ⟨name, hw, hname⟩ := fieldTypeText_ok ht hf htext
  refine ⟨name, hw, bareName_of_wraps hw, ?_⟩
  rcases hname with hs | ⟨d, hd, hl, hn⟩
  · exact .inl hs
  · cases hg : d.isGeneric with
    | false => exact .inr (.inl (exists_block_of_nameIn h hempty hd hg hn))
    | true => exact .inr (.inr ⟨d, hd, hg, hl, hn⟩)

end BlockMaker

/-! ### The schema of files -/

/-- **Type texts refer to blocks of the schema**, but for types that lead to a generic
declaration. -/
theorem blocksOfFiles_refersWithin {config : Config} (hempty : config.includeEmptyTypes = true)
    {files : List SourceFile} {bs : List Block} (h : blocksOfFiles config files = .ok bs) :
    ∃ ds ctx, Declarations.ofFiles config files = .ok ds ∧ ds.maker config = .ok ctx ∧
      ctx.config = config ∧ ctx.blocks = .ok bs ∧ ctx.RefersWithin bs := by
  unfold blocksOfFiles at h
  split at h
  · exact nomatch h
  · rename_i ds hds
    obtain ⟨ctx, hctx, hblocks⟩ := Declarations.toBlocks_eq_ok_iff.1 h
    have hconfig := Declarations.maker_config hctx
    exact ⟨ds, ctx, hds, hctx, hconfig, hblocks,
      BlockMaker.refersWithin_of_blocks hblocks (by rw [hconfig]; exact hempty)⟩

/-- A defined type over a list of a generic struct, and a struct with a field of that type. No field
has a tag. -/
def shelf : SourceFile :=
  { path := ⟨"m.go"⟩
    package := "m"
    types :=
      [⟨"Box", some "@gqlType", 1, ["T"], .record [⟨some "Item", .ofName "T", none, none, 1⟩]⟩,
        ⟨"Boxes", none, 2, [], .defined (.slice (.named none none "Box" [.ofName "string"]))⟩,
        ⟨"Shelf", some "@gqlType", 3, [],
          .record [⟨some "Label", .ofName "string", none, none, 3⟩,
            ⟨some "Boxes", .ofName "Boxes", none, none, 4⟩]⟩] }

/-- The schema of `shelf`. -/
def shelfBlocks : List Block :=
  [{ kind := .type
     name := "Shelf"
     package := "m"
     place := ⟨0, 2, 0⟩
     slot := 1
     fields := [{ name := "label", typeText := "String!" },
       { name := "boxes", typeText := "[Box!]!" }]
     source := "m.Shelf (type)" }]

theorem shelf_refersWithin :
    blocksOfFiles { includeEmptyTypes := true } [shelf] = .ok shelfBlocks ∧
      ∃ ds ctx, Declarations.ofFiles { includeEmptyTypes := true } [shelf] = .ok ds ∧
        ds.maker { includeEmptyTypes := true } = .ok ctx ∧
        ctx.config = { includeEmptyTypes := true } ∧ ctx.blocks = .ok shelfBlocks ∧
        ctx.RefersWithin shelfBlocks :=
  have h : blocksOfFiles { includeEmptyTypes := true } [shelf] = .ok shelfBlocks :=
    eq_ok_of_toOption (by decide +kernel)
  ⟨h, blocksOfFiles_refersWithin rfl h⟩

/-- **A defined type over a generic struct breaks the schema.** The list of boxes refers to `Box`,
which is no scalar and has no block. -/
theorem shelf_refers_outside :
    blocksOfFiles { includeEmptyTypes := true } [shelf] = .ok shelfBlocks ∧
      ∃ b ∈ shelfBlocks, ∃ s ∈ b.fields, s.forceResolver = false ∧ bareName s.typeText = "Box" ∧
        ¬ BlockMaker.IsScalar { includeEmptyTypes := true } "Box" ∧
        ∀ b' ∈ shelfBlocks, b'.name ≠ "Box" := by
  refine ⟨eq_ok_of_toOption (by decide +kernel), _, List.mem_cons_self, _,
    List.mem_cons_of_mem _ List.mem_cons_self, rfl, by decide +kernel, ?_, by decide⟩
  rintro (h | ⟨key, h | h⟩)
  · exact absurd h (by decide)
  · exact absurd h List.not_mem_nil
  · simp [usualScalars] at h

end GoSchema
