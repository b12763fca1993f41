/-
# Directives

A directive is one of seven words after an `@`, with parameters. Each kind has a table of the keys
it knows, of those it requires, and of those that may stand alone as a flag.

Key definitions: `Directive.Kind`, `Param`, `Directive`.
-/
import GoSchema.Directive.Value

namespace GoSchema

/-- The kinds of directives. -/
inductive Directive.Kind
  | typeBlock
  | inputBlock
  | enumBlock
  | enumValue
  | ignoreAll
  | extraField
  | packageName
  deriving DecidableEq, Repr

namespace Directive.Kind

/-- Every kind. -/
def all : List Directive.Kind :=
  [typeBlock, inputBlock, enumBlock, enumValue, ignoreAll, extraField, packageName]

/-- The canonical word, with its `@`. -/
def word : Directive.Kind → String
  | typeBlock => "@gqlType"
  | inputBlock => "@gqlInput"
  | enumBlock => "@gqlEnum"
  | enumValue => "@gqlEnumValue"
  | ignoreAll => "@gqlIgnoreAll"
  | extraField => "@gqlExtraField"
  | packageName => "@gqlNamespace"

/-- The kind that a name without its `@` stands for, in any case. -/
def ofName? (name : List Char) : Option Directive.Kind :=
  all.find? fun kind =>
    Unicode.asciiLowerText ('@' :: name) == Unicode.asciiLowerText kind.word.toList

/-- The keys that a kind knows, in normal form. -/
def keys : Directive.Kind → List String
  | typeBlock | inputBlock => ["name", "description", "ignoreall"]
  | enumBlock => ["name", "description"]
  | enumValue => ["name", "description", "deprecated"]
  | ignoreAll => []
  | extraField => ["name", "type", "description", "deprecated", "on"]
  | packageName => ["name"]

/-- The keys that must be given a text that is not blank. -/
def requiredKeys : Directive.Kind → List String
  | extraField => ["name", "type"]
  | packageName => ["name"]
  | _ => []

/-- The keys that may stand alone. -/
def flagKeys : Directive.Kind → List String
  | typeBlock | inputBlock => ["ignoreall"]
  | enumValue => ["deprecated"]
  | extraField => ["deprecated", "on"]
  | _ => []

end Directive.Kind

/-- A parameter that is bound to a key. -/
structure Param where
  /-- The key in normal form. -/
  key : String
  value : Value
  /-- The source text of the value. -/
  raw : String
  deriving DecidableEq, Repr

/-- The value as it is written, without the quotes around it. -/
def Param.written (p : Param) : String :=
  match p.raw.toList with
  | '"' :: _ | '\'' :: _ => p.value.toText?.getD ""
  | _ => p.raw

/-- A directive with its parameters and its place in the text, in bytes. -/
structure Directive where
  kind : Directive.Kind
  params : List Param
  /-- Where its `@` is. -/
  offset : Nat
  /-- Where the text after it begins. -/
  stop : Nat
  deriving DecidableEq, Repr

namespace Directive

/-- The parameter bound to a key. -/
def param? (d : Directive) (key : String) : Option Param := d.params.find? (·.key = key)

/-- The text of a parameter. -/
def text? (d : Directive) (key : String) : Option String := (d.param? key).bind (·.value.toText?)

/-- Whether a parameter is given and does not deny. -/
def flag (d : Directive) (key : String) : Bool := ((d.param? key).map (·.value.truth)).getD false

/-- The scope that a parameter describes. -/
def scope? (d : Directive) (key : String) : Option Scope := (d.param? key).map (·.value.toScope)

/-- The deprecation that a parameter describes. -/
def deprecation? (d : Directive) (key : String) : Option Deprecation :=
  (d.param? key).bind (·.value.toDeprecation?)

end Directive

end GoSchema
