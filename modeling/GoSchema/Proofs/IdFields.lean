/-
# Fields that become identifiers

A field named `ID` is an identifier if its type is a text or an integer. Type texts look through as
many names as there may be, but whether a field is an identifier is found out behind one name at
most. So a field of a text or integer type behind two names or more has the scalar of that type and
not the one of identifiers; and behind more names than may be looked through, the field has no type
text of its own and must ask for a resolver.

Key definitions: `Field.marked`, `BlockMaker.LooksThrough`.
Key theorems: `BlockMaker.refer_of_looksThrough`, `BlockMaker.servesAsId_of_looksThrough`,
`BlockMaker.plainRef_of_looksThrough`, `blocksOfFiles_idFields`.
-/
import GoSchema.Proofs.LeftOutBlocks
import GoSchema.Proofs.TypeTexts

namespace GoSchema

open Outcome

/-- A type text with the mark of a required value, as the pointer and the tag of the field ask. -/
def Field.marked (f : Field) (text : String) : String :=
  if BlockMaker.isNullable f.options.nullability f.type.isPointer then text else text ++ "!"

namespace BlockMaker

variable {ctx : BlockMaker}

/-- The type `t` is `u` behind so many names. None of the names is mapped to a scalar, and none is
an enum. -/
inductive LooksThrough (ctx : BlockMaker) : Nat → GoType → GoType → Prop
  | refl (t : GoType) : LooksThrough ctx 0 t t
  | step {package name : String} {qualifier : Option String} {args : List GoType} {id n : Nat}
      {d : Declaration} {t u : GoType} (hs : ctx.scalarOfName? package qualifier name = none)
      (hd : ctx.catalog.find (.named (some package) qualifier name args) = some (id, d))
      (he : d.enumRequest = none) (hn : d.body.named? = some t) (h : LooksThrough ctx n t u) :
      LooksThrough ctx (n + 1) (.named (some package) qualifier name args) u

/-- Names can be looked through one part after the other. -/
theorem LooksThrough.split {m n : Nat} {t u : GoType} (h : ctx.LooksThrough (m + n) t u) :
    ∃ v, ctx.LooksThrough m t v ∧ ctx.LooksThrough n v u := by
  induction m generalizing t with
  | zero => exact ⟨t, .refl t, by simpa using h⟩
  | succ m ih =>
    rw [Nat.add_right_comm] at h
    cases h with
    | step hs hd he hn h =>
      obtain ⟨v, hv, hu⟩ := ih h
      exact ⟨v, .step hs hd he hn hv, hu⟩

/-- **Each name takes one of those that may be looked through**, and nothing else of the type
counts. -/
theorem refer_of_looksThrough {spot : Spot} {n : Nat} {t u : GoType} (h : ctx.LooksThrough n t u)
    (room : Nat) : ctx.refer spot (room + n) t = ctx.refer spot room u := by
  induction h with
  | refl => rfl
  | @step package name qualifier args id n d t u hs hd he hn _ ih =>
    calc ctx.refer spot (room + n + 1) (.named (some package) qualifier name args)
      _ = ctx.refer spot (room + n) t := by
        simp only [refer, referWith, hs, hd, declarationRef_of_behind he hn]
      _ = ctx.refer spot room u := ih

theorem refer_zero_of_looksThrough {spot : Spot} {n : Nat} {t u : GoType}
    (h : ctx.LooksThrough (n + 1) t u) : ctx.refer spot 0 t = ctx.withoutBlock spot t := by
  cases h with
  | step hs hd he hn _ =>
    simp only [refer, referWith, hs, hd, declarationRef_of_behind he hn]

theorem refer_stripPointers (spot : Spot) (room : Nat) (t : GoType) :
    ctx.refer spot room t = (ctx.refer spot room t.stripPointers).map fun r =>
      ⟨r.text, t.isPointer || r.nullable⟩ := by
  induction t using GoType.stripPointers.induct with
  | case1 t ih =>
    rw [refer_pointer, GoType.stripPointers, ih]
    cases ctx.refer spot room t.stripPointers <;> rfl
  | case2 t hne =>
    have hstrip : t.stripPointers = t := by cases t <;> simp_all [GoType.stripPointers]
    have hpointer : t.isPointer = false := by cases t <;> simp_all [GoType.isPointer]
    rw [hstrip, hpointer]
    cases ctx.refer spot room t <;> rfl

/-! ### Identifiers -/

/-- A predeclared text or integer type behind names serves as an identifier behind one name at
most. -/
theorem servesAsId_of_looksThrough {n : Nat} {t : GoType} {qualifier : Option String}
    {base : String} {args : List GoType}
    (h : ctx.LooksThrough n t (.named none qualifier base args))
    (hbase : isIdScalar base = true) : ctx.servesAsId t = decide (n ≤ 1) := by
  cases h with
  | refl => simp [servesAsId, hbase]
  | step hs hd he hn h =>
    cases h with
    | refl => simp [servesAsId, hd, he, hn, hbase]
    | step => simp [servesAsId, hd, he, hn]

/-- **What a field named `ID` refers to**, where its type is a text or an integer behind names: the
scalar of identifiers behind one name at most, the scalar of the type behind more names, and what
has no block where there are too many. -/
theorem plainRef_of_looksThrough (spot : Spot) (hmap : ctx.config.mapIdFields = true)
    (hname : spot.field.goName = some "ID") {n : Nat} {qualifier : Option String}
    {base scalar : String} {args : List GoType}
    (h : ctx.LooksThrough n spot.field.type.stripPointers (.named none qualifier base args))
    (hbase : isIdScalar base = true) (hscalar : predeclaredScalar? base = some scalar) :
    (n ≤ 1 → ctx.plainRef spot = .ok ⟨"ID", spot.field.type.isPointer⟩) ∧
    (1 < n → n ≤ chainLimit → ctx.plainRef spot = .ok ⟨scalar, spot.field.type.isPointer⟩) ∧
    (chainLimit < n → ∃ u, ctx.LooksThrough chainLimit spot.field.type.stripPointers u ∧
      (∃ package q name own, u = .named (some package) q name own) ∧
      ctx.plainRef spot = (ctx.withoutBlock spot u).map fun r =>
        ⟨r.text, spot.field.type.isPointer || r.nullable⟩) := by
  have hid : ctx.isIdField spot.field = decide (n ≤ 1) := by
    simp [isIdField, hmap, hname, servesAsId_of_looksThrough h hbase]
  have hderived : 1 < n → ctx.plainRef spot =
      (ctx.refer spot chainLimit spot.field.type.stripPointers).map fun r =>
        ⟨r.text, spot.field.type.isPointer || r.nullable⟩ := by
    intro hn
    rw [plainRef, hid, if_neg (by simpa using hn), refer_stripPointers]
  refine ⟨fun hn => ?_, fun hn hle => ?_, fun hlt => ?_⟩
  · rw [plainRef, hid, if_pos (by simpa using hn)]
  · have href : ctx.refer spot chainLimit spot.field.type.stripPointers = .ok ⟨scalar, false⟩ := by
      obtain ⟨room, hroom⟩ := Nat.exists_eq_add_of_le' hle
      rw [hroom, refer_of_looksThrough h]
      cases room <;> simp only [refer, referWith, hscalar]
    rw [hderived hn, href]
    simp [Except.map]
  · obtain ⟨more, rfl⟩ := Nat.exists_eq_add_of_lt hlt
    obtain ⟨u, hu, hrest⟩ := LooksThrough.split (m := chainLimit) (n := more + 1) h
    have href : ctx.refer spot chainLimit spot.field.type.stripPointers =
        ctx.withoutBlock spot u := by
      calc ctx.refer spot chainLimit spot.field.type.stripPointers
        _ = ctx.refer spot (0 + chainLimit) spot.field.type.stripPointers := by rw [Nat.zero_add]
        _ = ctx.refer spot 0 u := refer_of_looksThrough hu 0
        _ = ctx.withoutBlock spot u := refer_zero_of_looksThrough hrest
    refine ⟨u, hu, ?_, ?_⟩
    · cases hrest
      exact ⟨_, _, _, _, rfl⟩
    · rw [hderived (Nat.lt_of_lt_of_le (by decide) (Nat.le_of_lt hlt)), href]

theorem fieldTypeText_of_plainRef (spot : Spot) (ht : spot.field.options.typeText = none)
    {text : String} (h : ctx.plainRef spot = .ok ⟨text, spot.field.type.isPointer⟩) :
    ctx.fieldTypeText spot = .ok (spot.field.marked text) := by
  rw [fieldTypeText_of_derived spot ht, h]
  rfl

/-- A name without a block gives a text only on request, and then that of the name. -/
theorem withoutBlock_named_ok_iff {spot : Spot} {package qualifier : Option String} {name : String}
    {args : List GoType} {r : TypeRef} :
    ctx.withoutBlock spot (.named package qualifier name args) = .ok r ↔
      spot.field.options.forceResolver = true ∧
        r = ⟨Name.typeName ctx.config.naming name none spot.kind, false⟩ := by
  unfold withoutBlock
  cases spot.field.options.forceResolver with
  | true => simp [GoType.innermost, eq_comm]
  | false => simp

end BlockMaker

theorem Field.marked_injective (f : Field) : Function.Injective f.marked := by
  intro text text' h
  unfold marked at h
  split at h
  · exact h
  · exact (String.append_left_inj "!").1 h

/-- **A field named `ID` is an identifier behind one name at most.** In every run without a fault
where such fields are mapped, a field of this name whose type is, behind pointers and names that are
neither enums nor mapped to scalars, a predeclared text or integer type has the type text `ID`
exactly if there is one name at most. Behind more names it has the scalar of the type, and behind
more names than may be looked through it asks for a resolver and has the name that is left. -/
theorem blocksOfFiles_idFields {config : Config} (hmap : config.mapIdFields = true)
    {files : List SourceFile} {bs : List Block} (h : blocksOfFiles config files = .ok bs) :
    ∃ ds ctx, Declarations.ofFiles config files = .ok ds ∧ ds.maker config = .ok ctx ∧
      ctx.config = config ∧ ctx.blocks = .ok bs ∧
      ∀ b ∈ bs, ∀ s f, ctx.ComesFrom b s f → f.goName = some "ID" → f.options.typeText = none →
        ∀ n qualifier base args scalar,
          ctx.LooksThrough n f.type.stripPointers (.named none qualifier base args) →
          predeclaredScalar? base = some scalar → (scalar = "String" ∨ scalar = "Int") →
          (n ≤ chainLimit → (s.typeText = f.marked "ID" ↔ n ≤ 1)) ∧
          (1 < n → n ≤ chainLimit → s.typeText = f.marked scalar) ∧
          (chainLimit < n → f.options.forceResolver = true ∧
            ∃ package q name own, ctx.LooksThrough chainLimit f.type.stripPointers
                (.named (some package) q name own) ∧
              s.typeText = f.marked (Name.typeName config.naming name none b.kind)) := by
  unfold blocksOfFiles at h
  split at h
  · exact nomatch h
  rename_i ds hds
  obtain ⟨ctx, hctx, hblocks⟩ := Declarations.toBlocks_eq_ok_iff.1 h
  obtain rfl := Declarations.maker_config hctx
  refine ⟨ds, ctx, hds, hctx, rfl, hblocks, ?_⟩
  rintro b - s f ⟨-, -, -, -, -, -, -, -, hfield⟩ hname ht n qualifier base args scalar hlook
    hscalar hkind
  obtain ⟨text, htext, heq⟩ := map_eq_ok_iff.1 hfield
  obtain rfl : text = s.typeText := congrArg SchemaField.typeText (Prod.mk.inj heq).1
  have hbase : isIdScalar base = true := by
    rcases hkind with rfl | rfl <;> simp [isIdScalar, hscalar]
  have hne : scalar ≠ "ID" := by rcases hkind with rfl | rfl <;> decide
  obtain ⟨hone, hmany, hfar⟩ :=
    BlockMaker.plainRef_of_looksThrough ⟨f, b.name, b.kind⟩ hmap hname hlook hbase hscalar
  have hmarked : ∀ {text : String},
      ctx.plainRef ⟨f, b.name, b.kind⟩ = .ok ⟨text, f.type.isPointer⟩ →
        s.typeText = f.marked text := by
    intro text href
    have hmade := BlockMaker.fieldTypeText_of_plainRef ⟨f, b.name, b.kind⟩ ht href
    exact Except.ok.inj (htext.symm.trans hmade)
  refine ⟨fun hle => ⟨fun hid => ?_, fun hn => hmarked (hone hn)⟩,
    fun hn hle => hmarked (hmany hn hle), fun hlt => ?_⟩
  · by_contra hn
    have hother := hmarked (hmany (Nat.lt_of_not_le hn) hle)
    exact hne (f.marked_injective (hother.symm.trans hid))
  · obtain ⟨u, hu, ⟨package, q, name, own, rfl⟩, href⟩ := hfar hlt
    rw [BlockMaker.fieldTypeText_of_derived _ ht] at htext
    obtain ⟨ref, hr, -⟩ := map_eq_ok_iff.1 htext
    rw [href] at hr
    obtain ⟨r, hmade, rfl⟩ := map_eq_ok_iff.1 hr
    obtain ⟨hforce, rfl⟩ := BlockMaker.withoutBlock_named_ok_iff.1 hmade
    refine ⟨hforce, package, q, name, own, hu, hmarked ?_⟩
    rw [href, hmade]
    simp [Except.map]

open BlockMaker (localDeclaration localType)

/-- A text type, a further one defined by it, and two structs with a field named `ID` of one of
these types. -/
def logins : SourceFile :=
  { path := ⟨"m.go"⟩
    package := "m"
    types :=
      [⟨"Key", none, 1, [], .defined (.ofName "string")⟩,
        ⟨"UserKey", none, 2, [], .defined (.ofName "Key")⟩,
        ⟨"Login", some "@gqlType", 3, [],
          .record [⟨some "ID", .ofName "Key", none, none, 4⟩]⟩,
        ⟨"User", some "@gqlType", 5, [],
          .record [⟨some "ID", .ofName "UserKey", none, none, 6⟩]⟩] }

/-- The block of a struct of `logins`. -/
def loginBlock (name : String) (number : Nat) (typeText : String) : Block :=
  { kind := .type
    name
    package := "m"
    place := ⟨0, number, 0⟩
    slot := 1
    fields := [{ name := "id", typeText }]
    source := "m." ++ name ++ " (type)" }

/-- The schema of `logins`. -/
def loginBlocks : List Block := [loginBlock "Login" 2 "ID!", loginBlock "User" 3 "String!"]

/-- The field of a struct of `logins`. -/
def loginField (owner type : String) (line : Nat) : Field :=
  { goName := some "ID", type := localType type, origin := owner ++ ".ID", line }

/-- A struct of `logins` with its field. -/
def loginDeclaration (name : String) (number : Nat) (f : Field) : Declaration :=
  { localDeclaration name number (.record [f]) with
    line := f.line - 1
    requests := [{ kind := .type }] }

def userField : Field := loginField "User" "UserKey" 6

/-- The declarations of `logins`. -/
def loginTypes : List Declaration :=
  [localDeclaration "Key" 0 (.defined (.ofName "string")),
    localDeclaration "UserKey" 1 (.defined (localType "Key")),
    loginDeclaration "Login" 2 (loginField "Login" "Key" 4), loginDeclaration "User" 3 userField]

/-- What the blocks of `logins` are made with. -/
def loginMaker : BlockMaker := ⟨⟨loginTypes, []⟩, [], {}⟩

theorem run_logins :
    Declarations.ofFiles {} [logins] = .ok ⟨loginTypes, []⟩ ∧
      Declarations.maker {} ⟨loginTypes, []⟩ = .ok loginMaker ∧
      blocksOfFiles {} [logins] = .ok loginBlocks :=
  ⟨by decide +kernel, Declarations.maker_eq_ok loginMaker (by decide +kernel),
    eq_ok_of_toOption (by decide +kernel)⟩

theorem userField_looksThrough :
    loginMaker.LooksThrough 2 userField.type.stripPointers (.ofName "string") :=
  .step rfl rfl rfl rfl (.step rfl rfl rfl rfl (.refl _))

theorem userField_comesFrom :
    loginMaker.ComesFrom (loginBlock "User" 3 "String!") { name := "id", typeText := "String!" }
      userField :=
  ⟨loginDeclaration "User" 3 userField, List.mem_of_getElem? (i := 3) rfl, { kind := .type },
    List.mem_cons_self, List.mem_cons_self, rfl, rfl, rfl, rfl⟩

theorem logins_idFields :
    blocksOfFiles {} [logins] = .ok loginBlocks ∧
      loginMaker.LooksThrough 2 userField.type.stripPointers (.ofName "string") ∧
      ("String!" = userField.marked "ID" ↔ 2 ≤ 1) ∧ "String!" = userField.marked "String" := by
  obtain ⟨hfiles, hmaker, hblocks⟩ := run_logins
  obtain ⟨ds, ctx, hds, hctx, -, -, hfields⟩ := blocksOfFiles_idFields rfl hblocks
  obtain rfl := Except.ok.inj (hds.symm.trans hfiles)
  obtain rfl := Except.ok.inj (hctx.symm.trans hmaker)
  obtain ⟨hid, hscalar, -⟩ := hfields _ (List.mem_cons_of_mem _ List.mem_cons_self) _ _
    userField_comesFrom rfl rfl 2 none "string" [] "String" userField_looksThrough (by decide)
    (.inl rfl)
  exact ⟨hblocks, userField_looksThrough, hid (by decide),
    hscalar (by decide) (by decide)⟩

/-- **A field named `ID` behind two names is no identifier.** The type of the second field is a text
behind two names, and its type text is that of a text. -/
theorem logins_not_id :
    blocksOfFiles {} [logins] = .ok loginBlocks ∧
      Declarations.ofFiles {} [logins] = .ok ⟨loginTypes, []⟩ ∧
      Declarations.maker {} ⟨loginTypes, []⟩ = .ok loginMaker ∧
      loginMaker.config.mapIdFields = true ∧
      ∃ b ∈ loginBlocks, ∃ s ∈ b.fields, ∃ f, loginMaker.ComesFrom b s f ∧
        f.goName = some "ID" ∧ f.options.typeText = none ∧
        (∃ n, loginMaker.LooksThrough n f.type.stripPointers (.ofName "string")) ∧
        s.typeText ≠ f.marked "ID" := by
  obtain ⟨hfiles, hmaker, hblocks⟩ := run_logins
  refine ⟨hblocks, hfiles, hmaker, rfl, _,
    List.mem_cons_of_mem _ List.mem_cons_self, _, List.mem_cons_self, userField,
    userField_comesFrom, rfl, rfl, ⟨2, userField_looksThrough⟩, by decide⟩

end GoSchema
