/-
# Declarations

The types and constants of all files with what their directives ask for. A type belongs to a
package, which is identified by its import path, or by its name where no import path is known.

Key definitions: `Package.identity`, `Place`, `BlockRequest`, `Declaration`, `Constant`.
-/
import GoSchema.Declaration.Field
import GoSchema.Path

namespace GoSchema

/-- The package of a declaration. -/
structure Package where
  /-- The name in the package clause. -/
  name : String
  importPath : Option String := none
  deriving DecidableEq, Repr

/-- What identifies a package across files. -/
def Package.identity (p : Package) : String := p.importPath.getD p.name

/-- Where a declaration stands: the number of its file, its number in the file, and for an instance
of a generic type its number among them. -/
structure Place where
  file : Nat
  index : Nat
  copy : Nat
  deriving DecidableEq, Repr

/-- A type or an input that a struct shall give. -/
structure BlockRequest where
  kind : BlockKind
  customName : Option String := none
  description : Option String := none
  /-- Hide every field that is not included explicitly. -/
  hidesAll : Bool := false
  /-- Found by discovery and not asked for by a directive. -/
  discovered : Bool := false
  deriving DecidableEq, Repr

/-- An enum that a type shall give. -/
structure EnumRequest where
  customName : Option String := none
  description : Option String := none
  deriving DecidableEq, Repr

/-- The right-hand side of a type declaration. -/
inductive Body
  | record (fields : List Field)
  /-- A new type with the structure of another one. -/
  | defined (type : GoType)
  /-- A further name for a type. -/
  | aliased (type : GoType)
  deriving DecidableEq, Repr

namespace Body

def isRecord : Body → Bool
  | record _ => true
  | _ => false

/-- The fields of a struct; no other body has fields. -/
def fields : Body → List Field
  | record fs => fs
  | _ => []

/-- The type that a name stands for, if the body is no struct. -/
def named? : Body → Option GoType
  | record _ => none
  | defined t | aliased t => some t

end Body

/-- A type declaration with its directives. -/
structure Declaration where
  name : String
  package : Package
  path : Path
  line : Nat
  place : Place
  typeParams : List String := []
  body : Body
  requests : List BlockRequest := []
  enumRequest : Option EnumRequest := none
  /-- Hide every field that is not included explicitly, in all blocks. -/
  hidesAll : Bool := false
  additions : List AddedField := []
  /-- The namespace of the type or of its package. -/
  space : Option String := none
  /-- The prose of the comments. -/
  doc : Option String := none
  /-- An instance of a generic type. -/
  synthetic : Bool := false
  deriving DecidableEq, Repr

namespace Declaration

def isRecord (d : Declaration) : Bool := d.body.isRecord

def isGeneric (d : Declaration) : Bool := !d.typeParams.isEmpty

/-- Whether a block of this kind is asked for. -/
def requests? (d : Declaration) (kind : BlockKind) : Bool := d.requests.any (·.kind = kind)

/-- Package and name, for messages. -/
def label (d : Declaration) : String := d.package.name ++ "." ++ d.name

/-- What identifies the declaration. -/
def key (d : Declaration) : String × String := (d.package.identity, d.name)

end Declaration

/-- What a directive says about an enum value. -/
structure ValueRequest where
  name : Option String := none
  description : Option String := none
  deprecated : Option Deprecation := none
  deriving DecidableEq, Repr

/-- A constant with its directive. -/
structure Constant where
  name : String
  /-- The declared type, or the one repeated from the constant before. -/
  type : Option GoType
  path : Path
  line : Nat
  place : Place
  request : Option ValueRequest := none
  doc : Option String := none
  deriving DecidableEq, Repr

/-- The declarations of all files. -/
structure Declarations where
  types : List Declaration := []
  consts : List Constant := []
  deriving DecidableEq, Repr

end GoSchema
