/-
# Blocks

A block is one type, input or enum of the schema with everything that is written about it.

Key definitions: `Block`, `SchemaField`, `EnumValue`, `Block.spaceName`.
-/
import GoSchema.Declaration.Basic

namespace GoSchema

/-- A value of an enum. -/
structure EnumValue where
  constName : String
  /-- The name in the schema. -/
  name : String
  description : Option String := none
  deprecated : Option Deprecation := none
  deriving DecidableEq, Repr

/-- A field of a type or an input. -/
structure SchemaField where
  name : String
  typeText : String
  description : Option String := none
  deprecated : Option Deprecation := none
  forceResolver : Bool := false
  deriving DecidableEq, Repr

/-- A type, an input or an enum of the schema. -/
structure Block where
  kind : BlockKind
  name : String
  description : Option String := none
  /-- The Go type that the block stands for, with its import path. -/
  modelName : Option String := none
  /-- The namespace that a directive gives. -/
  space : Option String := none
  /-- The Go package of the declaration. -/
  package : String
  /-- Where the declaration stands. -/
  place : Place
  /-- The number of the block among those of its declaration; an enum comes first. -/
  slot : Nat
  fields : List SchemaField := []
  values : List EnumValue := []
  /-- The declaration, for messages. -/
  source : String := ""
  deriving DecidableEq, Repr

namespace Block

/-- The namespace that the block is filed under. -/
def spaceName (b : Block) : String := b.space.getD b.package

/-- Whether the block has nothing in it. -/
def isEmpty (b : Block) : Bool :=
  match b.kind with
  | .enum => b.values.isEmpty
  | .type | .input => b.fields.isEmpty

end Block

end GoSchema
