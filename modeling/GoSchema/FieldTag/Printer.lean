/-
# Printed field tags

The canonical form of a field tag: its entries with a space between each two, every value in double
quotes. The `gql` part of a tag is a lone `-` or a list of items with commas between them. Every
option that is given becomes one item, a key with a value or a key alone; a reason for a deprecation
and the entries of a scope are a list, so that no text in them is taken for a keyword.

Key definitions: `TagEntries.IsKey`, `TagEntries.print`, `GqlPart.items`, `GqlPart.print`.
-/
import GoSchema.Directive.Printer
import GoSchema.FieldTag.Parser

namespace GoSchema

namespace TagEntries

/-- A key of an entry: it is not empty, and in it there are no colon, no quote, no space and no
character below the space. -/
def IsKey (key : String) : Prop := key ≠ "" ∧ ∀ c ∈ key.toList, c ≠ ':' ∧ c ≠ '"' ∧ ' ' < c

-- The characters are those of the key: going through all characters there are would not end.
instance (key : String) : Decidable (IsKey key) :=
  have : Decidable (∀ c ∈ key.toList, c ≠ ':' ∧ c ≠ '"' ∧ ' ' < c) := List.decidableBAll _ _
  inferInstanceAs (Decidable (_ ∧ _))

/-- An entry: a key and a value in quotes. -/
def printEntry (e : String × String) : List Char := e.1.toList ++ ':' :: Printer.quoted e.2

/-- Entries with a space between each two. -/
def print (entries : List (String × String)) : List Char :=
  Text.joinWith [' '] (entries.map printEntry)

end TagEntries

/-- The value that describes a scope. -/
def Scope.value : Scope → Value
  | all => .flag
  | only entries => .list entries

/-- The value that describes a deprecation. -/
def Deprecation.value (d : Deprecation) : Value :=
  match d.reason with
  | none => .flag
  | some reason => .list [reason]

/-- The key that asks for a nullability. -/
def Nullability.key : Nullability → String
  | optional => "optional"
  | required => "required"

namespace GqlPart

/-- An item that stands alone, if an option is set. -/
def flagItem (key : String) (isSet : Bool) : Option (String × Value) :=
  if isSet then some (key, .flag) else none

/-- For every option its item, if it is given. -/
def items (o : GqlPart) : List (Option (String × Value)) :=
  [o.name.map fun s => ("name", .text s),
    o.typeText.map fun s => ("type", .text s),
    o.description.map fun s => ("description", .text s),
    o.deprecated.map fun d => ("deprecated", d.value),
    flagItem "forceResolver" o.forceResolver,
    o.includedIn.map fun s => ("include", s.value),
    o.ignoredIn.map fun s => ("ignore", s.value),
    flagItem "ro" o.readOnly,
    flagItem "wo" o.writeOnly,
    o.nullability.map fun n => (n.key, .flag)]

/-- The options as the `gql` part of a tag. -/
def print (o : GqlPart) : List Char :=
  if o.hidden then ['-']
  else Text.joinWith [','] ((o.items.filterMap id).map Directive.Draft.printEntry)

end GqlPart

end GoSchema
