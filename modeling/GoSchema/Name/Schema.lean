/-
# Names of the schema

How a Go name becomes the name of a type, an input, an enum, a field or an enum value. A name given
by hand always wins; otherwise the configuration says what is cut off and put on.

Key definitions: `BlockKind`, `typeName`, `fieldName`, `valueName`, `listedName`.
-/
import GoSchema.Config.Basic
import GoSchema.Name.Words

namespace GoSchema

/-- The three kinds of blocks that a schema is made of. -/
inductive BlockKind
  | type
  | input
  | enum
  deriving DecidableEq, Repr

/-- The word that opens a block of this kind. -/
def BlockKind.keyword : BlockKind → String
  | .type => "type"
  | .input => "input"
  | .enum => "enum"

namespace Name

/-- What remains of a name without one of the `leads`: the first non-empty one that starts the
name and leaves something is removed. -/
def withoutLead (leads : List (List Char)) (name : List Char) : List Char :=
  ((leads.filter (!·.isEmpty)).findSome? fun lead =>
    (Text.dropLeading? lead name).filter (!·.isEmpty)).getD name

/-- What remains of a name without one of the `tails`: the first non-empty one that ends the name
and leaves something is removed. -/
def withoutTail (tails : List (List Char)) (name : List Char) : List Char :=
  ((tails.filter (!·.isEmpty)).findSome? fun tail =>
    (Text.dropTrailing? tail name).filter (!·.isEmpty)).getD name

/-- A Go type name without the configured prefix and suffix. -/
def stripped (rules : NamingRules) (goName : String) : String :=
  String.ofList
    (withoutTail (rules.stripSuffixes.map String.toList)
      (withoutLead (rules.stripPrefixes.map String.toList) goName.toList))

/-- The name of a type, input or enum. A custom name bypasses the rules. -/
def typeName (rules : NamingRules) (goName : String) (custom : Option String)
    (kind : BlockKind) : String :=
  match custom with
  | some name => name
  | none =>
    match kind with
    | .input =>
      rules.inputPrefix ++ stripped rules goName ++ rules.inputToken ++ rules.inputSuffix
    | .type | .enum => rules.typePrefix ++ stripped rules goName ++ rules.typeSuffix

/-- A name in the style of fields. -/
def inCase (style : FieldStyle) (name : String) : String :=
  match style with
  | .camel => String.ofList (camelCase name.toList)
  | .snake => String.ofList (snakeCase name.toList)
  | .pascal => String.ofList (pascalCase name.toList)
  | .asWritten => name

/-- A name, unless it is empty. -/
def given (name : Option String) : Option String := name.filter (· ≠ "")

/-- The name of a field: the name of the `gql` tag, then that of the `json` tag where it is used,
then the Go name in the configured style. -/
def fieldName (goName : String) (tagName jsonName : Option String) (useJsonTag : Bool)
    (style : FieldStyle) : String :=
  match given tagName with
  | some name => name
  | none =>
    match if useJsonTag then given jsonName else none with
    | some name => name
    | none => inCase style goName

/-- The part of a constant's name that follows the name of its type, without underscores at the
start; the whole name if nothing would remain. -/
def valueStem (constName baseType : List Char) : List Char :=
  match Text.dropLeading? baseType constName with
  | none => constName
  | some rest =>
    match rest.dropWhile (· = '_') with
    | [] => constName
    | stem => stem

/-- The name of an enum value. -/
def valueName (constName baseType : String) : String :=
  String.ofList (upperSnakeCase (valueStem constName.toList baseType.toList))

/-- What one type argument adds to the name of an instance: the name with a capital, and `List`
for each layer of lists around it. -/
def listedName (base : String) (listDepth : Nat) : String :=
  String.ofList (capitalized base.toList ++ (List.replicate listDepth "List".toList).flatten)

/-- A prefix that is the whole name is never removed. -/
theorem withoutLead_ne_nil {leads : List (List Char)} {name : List Char} (h : name ≠ []) :
    withoutLead leads name ≠ [] := by
  unfold withoutLead
  cases hf : ((leads.filter (!·.isEmpty)).findSome? fun lead =>
      (Text.dropLeading? lead name).filter (!·.isEmpty)) with
  | none => simpa using h
  | some rest =>
    obtain ⟨lead, -, hl⟩ := List.exists_of_findSome?_eq_some hf
    have := (Option.filter_eq_some_iff.1 hl).2
    simpa using this

end Name

end GoSchema
