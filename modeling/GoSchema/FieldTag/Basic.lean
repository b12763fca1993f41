/-
# Field tags

What the tag of a struct field says: the `json` part gives a name or hides the field, the `gql` part
gives the options of the field.

Key definitions: `JsonPart`, `GqlPart`, `FieldTag`.
-/
import GoSchema.Scope

namespace GoSchema

/-- A nullability that is asked for explicitly. -/
inductive Nullability
  | optional
  | required
  deriving DecidableEq, Repr

/-- The `json` part of a tag. -/
structure JsonPart where
  name : Option String := none
  /-- The field is left out of JSON. -/
  skip : Bool := false
  deriving DecidableEq, Repr

/-- The `gql` part of a tag. -/
structure GqlPart where
  name : Option String := none
  /-- A type text that replaces the derived one. -/
  typeText : Option String := none
  description : Option String := none
  deprecated : Option Deprecation := none
  forceResolver : Bool := false
  /-- The blocks that have the field in any case. -/
  includedIn : Option Scope := none
  /-- The blocks that lack the field. -/
  ignoredIn : Option Scope := none
  /-- The field is in no input. -/
  readOnly : Bool := false
  /-- The field is in no type. -/
  writeOnly : Bool := false
  nullability : Option Nullability := none
  /-- The field is in no block at all. -/
  hidden : Bool := false
  deriving DecidableEq, Repr

/-- The parts of a tag. -/
structure FieldTag where
  json : JsonPart := {}
  options : GqlPart := {}
  deriving DecidableEq, Repr

end GoSchema
