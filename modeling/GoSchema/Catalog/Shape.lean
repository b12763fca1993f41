/-
# Bodies behind names

A type that is defined as, or is a further name for, a struct has the fields of that struct. Blocks
can only be made of structs, and enums only of other types.

Key definitions: `Catalog.fieldsBehind`, `Catalog.settle`.
-/
import GoSchema.Catalog.Basic
import GoSchema.Fault

namespace GoSchema

/-- The number of steps that chains of names and of embedded structs may take. -/
def chainLimit : Nat := 32

namespace Catalog

/-- The fields of the struct that a chain of at most `room` declarations ends at, with the type
arguments along the chain put in. -/
def fieldsBehind (c : Catalog) : (room : Nat) → (id : Nat) → Option (List Field)
  | 0, _ => none
  | room + 1, id =>
    match (c.get? id).map Declaration.body with
    | none => none
    | some (.record fields) => some fields
    | some (.defined t) | some (.aliased t) =>
      match t with
      | .named .. =>
        match c.find t with
        | none => none
        | some (target, d) =>
          (c.fieldsBehind room target).map (·.map (Field.subst d.typeParams t.typeArgs))
      | _ => none

/-- The catalog where a declaration has the fields of the struct behind its name, if there is
one. -/
def settleBody (c : Catalog) (id : Nat) : Catalog :=
  match c.fieldsBehind (chainLimit + 1) id with
  | some fields => c.setBody id (.record fields)
  | none => c

/-- The directive that asks for a block of a kind. -/
def requestWord (kind : BlockKind) : String :=
  match kind with
  | .input => "@gqlInput"
  | .type | .enum => "@gqlType"

/-- What a declaration asks for that its body cannot give. -/
def unfit? (d : Declaration) : Option Fault :=
  match d.requests, d.isRecord with
  | request :: _, false =>
    some (.directive d.path d.name (requestWord request.kind) .needsRecord)
  | _, isRecord =>
    if d.enumRequest.isSome && isRecord then
      some (.directive d.path d.name "@gqlEnum" .needsNonRecord)
    else none

/-- Settles and checks declarations in order. -/
def settleAll (c : Catalog) : List Nat → Except Fault Catalog
  | [] => .ok c
  | id :: ids =>
    let next := c.settleBody id
    match (next.get? id).bind unfit? with
    | some fault => .error fault
    | none => settleAll next ids

/-- The catalog where every name of a struct has its fields. -/
def settle (c : Catalog) : Except Fault Catalog := c.settleAll c.ids

end Catalog

end GoSchema
