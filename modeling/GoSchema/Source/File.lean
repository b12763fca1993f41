/-
# Source files

What matters of a Go file: its package, its imports, and its types and constants with their
documentation. Types are as written; packages are still qualified by alias.

Key definitions: `SourceFile`, `TypeDecl`, `FieldDecl`, `ConstDecl`.
-/
import GoSchema.GoType
import GoSchema.Path

namespace GoSchema.Source

/-- One name of a field declaration, or an embedded type. -/
structure FieldDecl where
  /-- Missing for an embedded type. -/
  name : Option String
  type : GoType
  /-- The content of the tag, without the quotes around it. -/
  tag : Option String
  doc : Option String
  /-- The line of the declaration, counted from one. -/
  line : Nat
  deriving DecidableEq, Repr

/-- The right-hand side of a type declaration. -/
inductive TypeBody
  | record (fields : List FieldDecl)
  /-- A new type with the structure of another one. -/
  | defined (type : GoType)
  /-- A further name for a type. -/
  | aliased (type : GoType)
  deriving DecidableEq, Repr

/-- A type declaration. -/
structure TypeDecl where
  name : String
  doc : Option String
  line : Nat
  typeParams : List String
  body : TypeBody
  deriving DecidableEq, Repr

/-- One name of a constant declaration. -/
structure ConstDecl where
  name : String
  /-- The declared type, or the one repeated from the constant before. -/
  type : Option GoType
  doc : Option String
  line : Nat
  deriving DecidableEq, Repr

end GoSchema.Source

namespace GoSchema

open Source in
/-- A file of Go source. -/
structure SourceFile where
  path : Path
  package : String
  /-- The documentation of the package clause. -/
  packageDoc : Option String := none
  /-- Aliases with the import paths that they stand for. -/
  imports : List (String × String) := []
  types : List TypeDecl := []
  consts : List ConstDecl := []
  /-- The import path of the package, where it is known. -/
  importPath : Option String := none
  deriving DecidableEq, Repr

end GoSchema
