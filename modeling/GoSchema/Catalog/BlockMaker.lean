/-
# From declarations to blocks

A type of Go becomes a type text of the schema: a scalar, a list, or the name of a block. A pointer
may be null and anything else may not, unless the tag of the field says otherwise. Named types that
are neither enums nor structs are looked through.

Key definitions: `TypeRef`, `BlockMaker.refer`, `BlockMaker.fieldTypeText`, `BlockMaker.blockOf`,
`BlockMaker.blocks`, `Declarations.maker`, `Declarations.toBlocks`.
-/
import GoSchema.Catalog.Reach
import GoSchema.Catalog.EnumMembers
import GoSchema.Catalog.Flatten
import GoSchema.Catalog.Instance

namespace GoSchema

/-- The scalar that a predeclared type stands for. -/
def predeclaredScalar? (name : String) : Option String :=
  if name = "string" then some "String"
  else if name = "bool" then some "Boolean"
  else if ["int", "int8", "int16", "int32", "int64", "uint", "uint8", "uint16", "uint32", "uint64",
      "uintptr", "byte", "rune"].contains name then some "Int"
  else if ["float32", "float64"].contains name then some "Float"
  else none

/-- The scalars of types that the configuration does not map. -/
def usualScalars : List (String × String) :=
  [("time.Time", "Time"), ("map", "Map"), ("any", "Any")]

/-- Whether a predeclared type can serve as an identifier. -/
def isIdScalar (name : String) : Bool :=
  predeclaredScalar? name = some "String" || predeclaredScalar? name = some "Int"

/-- Whether a list of this type is a text and no list. -/
def isByteType (t : GoType) : Bool :=
  match t with
  | .named none _ name _ => name = "byte" || name = "uint8"
  | _ => false

/-- A type text without its last `!`, and whether the value may be null. -/
structure TypeRef where
  text : String
  nullable : Bool
  deriving DecidableEq, Repr

/-- What the blocks of a run are made with. -/
structure BlockMaker where
  catalog : Catalog
  enums : EnumMembers
  config : Config

/-- A field on its way into a block. -/
structure BlockMaker.Spot where
  field : Field
  /-- The name of the block. -/
  owner : String
  kind : BlockKind

namespace BlockMaker

/-- The scalar that a key is mapped to. -/
def scalar? (ctx : BlockMaker) (key : String) : Option String :=
  (ctx.config.scalars.lookup key).or (usualScalars.lookup key)

/-- The scalar of a name: under its package, under its qualifier, or under the last segment of its
package. -/
def scalarOfName? (ctx : BlockMaker) (package : String) (qualifier : Option String)
    (name : String) : Option String :=
  (package :: qualifier.toList ++ [lastSegment package]).findSome? fun p =>
    ctx.scalar? (p ++ "." ++ name)

/-- What a type without a block becomes: a name is derived where a resolver is asked for, and
anything else is a fault. -/
def withoutBlock (ctx : BlockMaker) (spot : Spot) (t : GoType) : Except Fault TypeRef :=
  if spot.field.options.forceResolver then
    let goName :=
      match t.innermost with
      | .named _ _ name _ => name
      | other => other.display
    .ok ⟨Name.typeName ctx.config.naming goName none spot.kind, false⟩
  else .error (.unknownType spot.owner (spot.field.goName.getD "") t.display)

/-- The type text of a declaration that the type `t` refers to. What stands behind a name is left to
`behind`. -/
def declarationRef (ctx : BlockMaker) (spot : Spot)
    (behind : GoType → GoType → Except Fault TypeRef) (d : Declaration) (t : GoType) :
    Except Fault TypeRef :=
  match d.enumRequest with
  | some request => .ok ⟨Name.typeName ctx.config.naming d.name request.customName .enum, false⟩
  | none =>
    match d.body with
    | .record _ =>
      match d.requests.find? (·.kind = spot.kind) with
      | some request => .ok ⟨d.requestName ctx.config.naming request, false⟩
      | none => ctx.withoutBlock spot t
    | .defined u | .aliased u => behind t u

/-- The type text of a type. Where a name stands for another type, `behind` is asked with the name
and that type. -/
def referWith (ctx : BlockMaker) (spot : Spot)
    (behind : GoType → GoType → Except Fault TypeRef) : GoType → Except Fault TypeRef
  | .pointer t => (referWith ctx spot behind t).map fun r => ⟨r.text, true⟩
  | .slice t | .array t =>
    if isByteType t then .ok ⟨"String", false⟩
    else
      (referWith ctx spot behind t).map fun r =>
        ⟨"[" ++ r.text ++ (if r.nullable then "" else "!") ++ "]", false⟩
  | .map _ _ => .ok ⟨(ctx.scalar? "map").getD "", false⟩
  | .any => .ok ⟨(ctx.scalar? "any").getD "", false⟩
  | .named none qualifier name args =>
    match predeclaredScalar? name with
    | some scalar => .ok ⟨scalar, false⟩
    | none => ctx.withoutBlock spot (.named none qualifier name args)
  | .named (some package) qualifier name args =>
    match ctx.scalarOfName? package qualifier name with
    | some scalar => .ok ⟨scalar, false⟩
    | none =>
      let t : GoType := .named (some package) qualifier name args
      match ctx.catalog.find t with
      | some (_, d) => ctx.declarationRef spot behind d t
      | none => ctx.withoutBlock spot t
  | .other text => ctx.withoutBlock spot (.other text)

/-- The type text of a type; at most `room` names may be looked through. -/
def refer (ctx : BlockMaker) (spot : Spot) : (room : Nat) → GoType → Except Fault TypeRef
  | 0 => referWith ctx spot fun t _ => ctx.withoutBlock spot t
  | room + 1 => referWith ctx spot fun _ u => refer ctx spot room u

/-- Whether a type is a text or an integer, directly or behind one name. -/
def servesAsId (ctx : BlockMaker) (t : GoType) : Bool :=
  match t with
  | .named none _ name _ => isIdScalar name
  | .named (some _) _ _ _ =>
    match ctx.catalog.find t with
    | some (_, d) =>
      d.enumRequest.isNone &&
        (match d.body.named? with
        | some (.named none _ name _) => isIdScalar name
        | _ => false)
    | none => false
  | _ => false

/-- Whether a field becomes an identifier. -/
def isIdField (ctx : BlockMaker) (f : Field) : Bool :=
  ctx.config.mapIdFields && f.goName = some "ID" && ctx.servesAsId f.type.stripPointers

/-- The type text of a field without the nullability that its tag asks for. -/
def plainRef (ctx : BlockMaker) (spot : Spot) : Except Fault TypeRef :=
  if ctx.isIdField spot.field then .ok ⟨"ID", spot.field.type.isPointer⟩
  else ctx.refer spot chainLimit spot.field.type

/-- Whether a value may be null after the tag is taken into account. -/
def isNullable (asked : Option Nullability) (derived : Bool) : Bool :=
  match asked with
  | some .optional => true
  | some .required => false
  | none => derived

/-- The complete type text of a field. -/
def fieldTypeText (ctx : BlockMaker) (spot : Spot) : Except Fault String :=
  match spot.field.options.typeText with
  | some text => .ok text
  | none =>
    (ctx.plainRef spot).map fun r =>
      if isNullable spot.field.options.nullability r.nullable then r.text else r.text ++ "!"

/-- The Go type that the blocks of a declaration stand for. -/
def modelName (ctx : BlockMaker) (d : Declaration) : Option String :=
  if !ctx.config.modelDirectives || d.synthetic then none
  else d.package.importPath.map fun path => path ++ "." ++ d.name

/-- A field of a block with its origin, for messages. -/
abbrev Sourced : Type := SchemaField × String

/-- The field of a block that a field of the struct becomes. -/
def blockField (ctx : BlockMaker) (spot : Spot) : Except Fault Sourced :=
  let f := spot.field
  (ctx.fieldTypeText spot).map fun typeText =>
    ({ name :=
        Name.fieldName (f.goName.getD "") f.options.name f.json.name ctx.config.useJsonTag
          ctx.config.fieldCase
       typeText
       description := f.options.description.or f.doc
       deprecated := f.options.deprecated
       forceResolver := f.options.forceResolver },
      f.origin)

/-- The fields of a requested block that come from fields of the struct. What is still embedded has
no known type. -/
def naturalFields (ctx : BlockMaker) (d : Declaration) (r : BlockRequest) :
    List Field → Except Fault (List Sourced)
  | [] => .ok []
  | f :: fs =>
    if f.isEmbedded then .error (.unknownType d.label f.type.display f.type.display)
    else if d.shows ctx.config.naming r f then
      match ctx.blockField ⟨f, d.requestName ctx.config.naming r, r.kind⟩ with
      | .error e => .error e
      | .ok field => (naturalFields ctx d r fs).map (field :: ·)
    else naturalFields ctx d r fs

/-- The fields that directives add to a requested block. -/
def addedFields (ctx : BlockMaker) (d : Declaration) (r : BlockRequest) : List Sourced :=
  (d.additions.filter fun e => e.on.covers (d.target ctx.config.naming r)).map fun e =>
    ({ name := e.name
       typeText := e.typeText
       description := e.description
       deprecated := e.deprecated
       forceResolver := true },
      "@gqlExtraField " ++ d.name ++ "." ++ e.name)

/-- The first field whose name an earlier one has; `earlier` are the fields before. -/
def repeated? (earlier : List Sourced) : List Sourced → Option (Sourced × Sourced)
  | [] => none
  | f :: fs =>
    match earlier.find? (·.1.name = f.1.name) with
    | some first => some (first, f)
    | none => repeated? (earlier ++ [f]) fs

/-- The block that a declaration gives on request; none if it would have no fields and such blocks
are not wanted. -/
def blockOf (ctx : BlockMaker) (d : Declaration) (r : BlockRequest) (index : Nat) :
    Except Fault (Option Block) :=
  match ctx.naturalFields d r d.body.fields with
  | .error e => .error e
  | .ok natural =>
    let name := d.requestName ctx.config.naming r
    let fields := natural ++ ctx.addedFields d r
    match repeated? [] fields with
    | some (first, second) =>
      .error (.repeatedField name second.1.name first.2 second.2)
    | none =>
      if fields.isEmpty && !ctx.config.includeEmptyTypes then .ok none
      else
        .ok <| some
          { kind := r.kind
            name
            description := r.description.or d.doc
            modelName := ctx.modelName d
            space := d.space
            package := d.package.name
            place := d.place
            slot := index + 1
            fields := fields.map Prod.fst
            source := d.label ++ " (" ++ r.kind.keyword ++ ")" }

/-- The block of an enum. -/
def blockOfEnum (ctx : BlockMaker) (id : Nat) (d : Declaration) (r : EnumRequest) : Block :=
  { kind := .enum
    name := Name.typeName ctx.config.naming d.name r.customName .enum
    description := r.description.or d.doc
    modelName := ctx.modelName d
    space := d.space
    package := d.package.name
    place := d.place
    slot := 0
    values := (ctx.enums.lookup id).getD []
    source := d.label }

/-- The blocks of the requests of a struct, in order. -/
def requestedBlocks (ctx : BlockMaker) (d : Declaration) :
    List (BlockRequest × Nat) → Except Fault (List Block)
  | [] => .ok []
  | (r, index) :: more =>
    match ctx.blockOf d r index with
    | .error e => .error e
    | .ok block => (requestedBlocks ctx d more).map (block.toList ++ ·)

/-- The blocks of a declaration. A generic one has none of its own. -/
def blocksOf (ctx : BlockMaker) (id : Nat) (d : Declaration) : Except Fault (List Block) :=
  if d.isGeneric then .ok []
  else
    let enums := (d.enumRequest.map (ctx.blockOfEnum id d)).toList
    if d.isRecord then (ctx.requestedBlocks d d.requests.zipIdx).map (enums ++ ·) else .ok enums

/-- Adds blocks to those before them; no two may have the same name. -/
def addBlocks (before : List Block) : List Block → Except Fault (List Block)
  | [] => .ok before
  | b :: bs =>
    match before.find? (·.name = b.name) with
    | some first => .error (.repeatedBlock b.name first.source b.source)
    | none => addBlocks (before ++ [b]) bs

/-- The blocks of declarations in order, after those before them. -/
def blocksFrom (ctx : BlockMaker) (before : List Block) :
    List (Declaration × Nat) → Except Fault (List Block)
  | [] => .ok before
  | (d, id) :: more =>
    match ctx.blocksOf id d with
    | .error e => .error e
    | .ok own =>
      match addBlocks before own with
      | .error e => .error e
      | .ok all => blocksFrom ctx all more

/-- All blocks, in the order of the catalog. -/
def blocks (ctx : BlockMaker) : Except Fault (List Block) :=
  ctx.blocksFrom [] ctx.catalog.types.zipIdx

end BlockMaker

/-- What the blocks of declarations are made with: the catalog after all stages, and the values of
its enums. -/
def Declarations.maker (config : Config) (ds : Declarations) : Except Fault BlockMaker := do
  let catalog ← (Catalog.ofDeclarations ds).settle
  let enums ← catalog.enumMembers
  let catalog ← catalog.flatten
  let catalog ← catalog.withInstances
  let catalog ← catalog.addDiscovered config
  return ⟨catalog, enums, config⟩

/-- The blocks of the schema that declarations give. -/
def Declarations.toBlocks (config : Config) (ds : Declarations) : Except Fault (List Block) := do
  let maker ← ds.maker config
  maker.blocks

end GoSchema
