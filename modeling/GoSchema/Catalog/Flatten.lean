/-
# Embedded structs

The fields of an embedded struct become fields of the struct around it, unless a declared field has
the same name. Structs that are done are remembered with their fields; a chain of embedded structs
must not come back to its start and must not be too long.

Key definitions: `Catalog.flattenFrom`, `Catalog.flatten`.
-/
import GoSchema.Catalog.Shape

namespace GoSchema

/-- The structs that are done, by number, with their flat fields. -/
abbrev Flattened : Type := List (Nat × List Field)

/-- The fields of a struct that is being flattened. -/
structure Promotion where
  /-- Fields of embedded structs, in order. -/
  promoted : List Field := []
  /-- Fields of the struct itself, in order. -/
  declared : List Field := []
  /-- The structs that are done so far. -/
  done : Flattened

namespace Promotion

/-- Adds the fields of an embedded struct; no two promoted fields may have the same name. -/
def promote (owner : String) (promoted : List Field) : List Field → Except Fault (List Field)
  | [] => .ok promoted
  | f :: fs =>
    match promoted.find? fun p => p.goName.isSome && p.goName = f.goName with
    | some first =>
      .error (.repeatedField owner (f.goName.getD "") first.origin f.origin)
    | none => promote owner (promoted ++ [f]) fs

/-- Whether a promoted field remains beside the declared ones. -/
def remains (declared : List Field) (p : Field) : Bool :=
  p.isEmbedded || !declared.any (·.goName = p.goName)

/-- The flat fields: the promoted ones that remain, then the declared ones. -/
def fields (p : Promotion) : List Field :=
  p.promoted.filter (remains p.declared) ++ p.declared

end Promotion

namespace Catalog

/-- Whether an embedded type outside of the sources is left out without a fault. -/
def isOptedOut (f : Field) : Bool := f.options.hidden || f.json.skip || f.options.forceResolver

/-- Takes one field of a struct into account; `flat` flattens an embedded struct. -/
def addField (c : Catalog) (owner : String)
    (flat : Flattened → Nat → Except Fault (List Field × Flattened)) (p : Promotion) (f : Field) :
    Except Fault Promotion :=
  if !f.isEmbedded then .ok { p with declared := p.declared ++ [f] }
  else
    match c.find f.type with
    | none => .ok (if isOptedOut f then p else { p with declared := p.declared ++ [f] })
    | some (target, d) =>
      if d.isRecord then
        match flat p.done target with
        | .error e => .error e
        | .ok (fields, done) =>
          let inner := fields.map (Field.subst d.typeParams f.type.typeArgs)
          (Promotion.promote owner p.promoted inner).map fun promoted => { p with promoted, done }
      else .ok { p with declared := p.declared ++ [{ f with goName := some d.name }] }

/-- The flat fields of a struct, and the structs that are done then. The structs around it are in
`chain`, outermost first; at most `room` more may be entered. -/
def flattenFrom (c : Catalog) (room : Nat) (chain : List Nat) (done : Flattened) (id : Nat) :
    Except Fault (List Field × Flattened) :=
  match done.lookup id with
  | some fields => .ok (fields, done)
  | none =>
    if chain.contains id then
      .error (.circularEmbedding ((chain.dropWhile (· ≠ id) ++ [id]).map c.nameOf))
    else
      match room with
      | 0 => .error (.deepEmbedding (c.labelOf (chain.head?.getD id)) chainLimit)
      | room + 1 =>
        match c.get? id with
        | none => .ok ([], done)
        | some d =>
          match d.body with
          | .record fields =>
            match fields.foldlM (c.addField d.label (flattenFrom c room (chain ++ [id])))
                { done } with
            | .error e => .error e
            | .ok p => .ok (p.fields, (id, p.fields) :: p.done)
          | _ => .ok ([], done)

/-- Flattens structs in order. -/
def flattenAll (c : Catalog) (done : Flattened) : List Nat → Except Fault Flattened
  | [] => .ok done
  | id :: ids =>
    if ((c.get? id).map Declaration.isRecord).getD false then
      match c.flattenFrom chainLimit [] done id with
      | .error e => .error e
      | .ok (_, done) => flattenAll c done ids
    else flattenAll c done ids

/-- The catalog where no struct embeds another one. -/
def flatten (c : Catalog) : Except Fault Catalog :=
  (c.flattenAll [] c.ids).map fun done =>
    done.foldl (fun c (id, fields) => c.setBody id (.record fields)) c

end Catalog

end GoSchema
