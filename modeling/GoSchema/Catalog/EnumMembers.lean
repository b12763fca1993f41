/-
# Values of enums

Every constant whose declared type is an enum is a value of it, from whatever file or package. An
enum must have values, and their names must differ.

Key definitions: `EnumMembers`, `Catalog.enumMembers`.
-/
import GoSchema.Block.Basic
import GoSchema.Catalog.Basic
import GoSchema.Fault

namespace GoSchema

/-- The enums, by number, with their values in the order of the constants. -/
abbrev EnumMembers : Type := List (Nat × List EnumValue)

namespace Catalog

/-- The enums of the catalog, without values. -/
def enumIds (c : Catalog) : List Nat :=
  c.ids.filter fun id => ((c.get? id).map (·.enumRequest.isSome)).getD false

/-- The enum that the declared type of a constant refers to. -/
def enumOf? (c : Catalog) (k : Constant) : Option (Nat × Declaration) :=
  (k.type.bind c.find).filter fun (_, d) => d.enumRequest.isSome

/-- The value that a constant gives for an enum. -/
def enumValueOf (enum : Declaration) (k : Constant) : EnumValue :=
  let request := k.request.getD {}
  { constName := k.name
    name := request.name.getD (Name.valueName k.name enum.name)
    description := request.description.or k.doc
    deprecated := request.deprecated }

/-- The values after one more constant. -/
def addConstant (c : Catalog) (values : EnumMembers) (k : Constant) : Except Fault EnumMembers :=
  match c.enumOf? k with
  | none =>
    if k.request.isSome then
      .error (.strayEnumValue k.path k.name ((k.type.map GoType.display).getD "untyped"))
    else .ok values
  | some (id, enum) =>
    let value := enumValueOf enum k
    match ((values.lookup id).getD []).find? (·.name = value.name) with
    | some first =>
      .error (.repeatedField enum.label value.name first.constName value.constName)
    | none =>
      .ok (values.map fun (other, vs) => if other = id then (other, vs ++ [value]) else (other, vs))

/-- The values of every enum. -/
def enumMembers (c : Catalog) : Except Fault EnumMembers :=
  match c.consts.foldlM c.addConstant (c.enumIds.map fun id => (id, [])) with
  | .error e => .error e
  | .ok values =>
    match values.find? (·.2.isEmpty) with
    | some (id, _) => .error (.enumWithoutValues (((c.get? id).map Declaration.label).getD ""))
    | none => .ok values

end Catalog

end GoSchema
