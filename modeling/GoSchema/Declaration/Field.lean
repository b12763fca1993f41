/-
# Fields

A field of a struct with what its tag and its comments say. An embedded field has no name and hands
on the fields of its type. Whether a field is seen in a block depends on the block: on its kind, its
names, and whether it hides everything that is not shown explicitly.

Key definitions: `Field`, `Field.isShownIn`, `AddedField`.
-/
import GoSchema.FieldTag.Basic
import GoSchema.GoType
import GoSchema.Unicode.LetterCase

namespace GoSchema

/-- A field of a struct. -/
structure Field where
  /-- Missing for an embedded field. -/
  goName : Option String
  type : GoType
  json : JsonPart := {}
  options : GqlPart := {}
  /-- The prose of the comments. -/
  doc : Option String := none
  /-- The declared type and field, for messages. -/
  origin : String := ""
  line : Nat := 0
  deriving DecidableEq, Repr

namespace Field

/-- Whether the field is embedded. -/
def isEmbedded (f : Field) : Bool := f.goName.isNone

/-- Whether the name of the field starts with a capital. -/
def isExported (f : Field) : Bool :=
  match f.goName.map String.toList with
  | some (c :: _) => Unicode.isUpper c
  | _ => false

/-- Whether an optional scope is given and covers a block. -/
def coveredBy (scope : Option Scope) (target : Scope.Target) : Bool :=
  match scope with
  | some s => s.covers target
  | none => false

/-- Whether the kind of a block excludes the field. -/
def excludedFrom (o : GqlPart) (kind : BlockKind) : Bool :=
  match kind with
  | .type => o.writeOnly
  | .input => o.readOnly
  | .enum => false

/-- Whether the field is seen in a block. A hidden field never is, and one that is included
explicitly always; otherwise it must be exported, not ignored, not left out of JSON, admitted by the
kind of the block, and the block must not hide everything. -/
def isShownIn (f : Field) (target : Scope.Target) (hidesAll : Bool) : Bool :=
  !f.options.hidden &&
    (coveredBy f.options.includedIn target ||
      (f.isExported && !coveredBy f.options.ignoredIn target && !f.json.skip &&
        !excludedFrom f.options target.kind && !hidesAll))

/-- The field with the type parameters in its type replaced. -/
def subst (params : List String) (args : List GoType) (f : Field) : Field :=
  { f with type := f.type.subst params args }

/-- A hidden field is seen nowhere. -/
theorem isShownIn_of_hidden {f : Field} (h : f.options.hidden = true) (target : Scope.Target)
    (hidesAll : Bool) : f.isShownIn target hidesAll = false := by
  simp [isShownIn, h]

end Field

/-- A field that is added to blocks by a directive. -/
structure AddedField where
  name : String
  typeText : String
  description : Option String := none
  deprecated : Option Deprecation := none
  /-- The blocks that get the field. -/
  on : Scope := .all
  deriving DecidableEq, Repr

end GoSchema
