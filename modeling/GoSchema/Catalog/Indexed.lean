/-
# The catalog with indexes

A catalog is searched from its front. To find a declaration without a search, two indexes are kept
beside the declarations: one from keys to numbers, and one from names to the numbers of all
declarations of that name, in order. A declaration enters at the end of the list and into both
indexes at once. An entry of an index takes the place of an older one with the same key, which
stays behind it.

Declarations enter in two ways: those of the sources before anything is looked up, where one whose
key is there is left out, and later ones that are pushed, where the number of the one that is there
is given instead.

Key definitions: `IndexedCatalog`, `insert`, `add`, `push`, `ofDeclarations`, `lookup`,
`idOfType?`.
-/
import GoSchema.Catalog.Basic

namespace GoSchema

/-- The declarations of a run with an index by key and one by name. -/
structure IndexedCatalog extends Catalog where
  byKey : List ((String × String) × Nat) := []
  byName : List (String × List Nat) := []
  deriving DecidableEq, Repr

namespace IndexedCatalog

/-- The numbers that the index holds for a name. -/
def named (c : IndexedCatalog) (name : String) : List Nat := (c.byName.lookup name).getD []

/-- The catalog with one more declaration, which gets the next number. -/
def insert (c : IndexedCatalog) (d : Declaration) : IndexedCatalog :=
  { types := c.types ++ [d]
    consts := c.consts
    byKey := (d.key, c.types.length) :: c.byKey
    byName := (d.name, c.named d.name ++ [c.types.length]) :: c.byName }

/-- The catalog with a declaration of the sources, unless its key is there. -/
def add (c : IndexedCatalog) (d : Declaration) : IndexedCatalog :=
  if (c.byKey.lookup d.key).isSome then c else c.insert d

/-- The indexed catalog of declarations. -/
def ofDeclarations (ds : Declarations) : IndexedCatalog :=
  ds.types.foldl add { consts := ds.consts }

/-- The catalog with a later declaration, and its number, or the number under its key. -/
def push (c : IndexedCatalog) (d : Declaration) : IndexedCatalog × Nat :=
  match c.byKey.lookup d.key with
  | some id => (c, id)
  | none => (c.insert d, c.types.length)

/-- The catalog after several pushes in order. -/
def pushAll (c : IndexedCatalog) (ds : List Declaration) : IndexedCatalog :=
  ds.foldl (fun c d => (c.push d).1) c

/-- Whether the declaration with a number has no import path and stands in a package whose name ends
the path `package`. -/
def standsIn (c : IndexedCatalog) (package : String) (id : Nat) : Bool :=
  match c.types[id]? with
  | some d => d.package.importPath.isNone && d.package.name = lastSegment package
  | none => false

/-- The declaration of a name in a package: by its key, or else the first one of the name that
stands in a package of the path's last name. -/
def lookup (c : IndexedCatalog) (package name : String) : Option Nat :=
  match c.byKey.lookup (package, name) with
  | some id => some id
  | none =>
    match c.byName.lookup name with
    | some ids => ids.find? (c.standsIn package)
    | none => none

/-- The declaration that a type refers to, behind any pointers. -/
def idOfType? (c : IndexedCatalog) (t : GoType) : Option Nat :=
  match t.stripPointers with
  | .named (some package) _ name _ => c.lookup package name
  | _ => none

theorem lookup_eq (c : IndexedCatalog) (package name : String) :
    c.lookup package name =
      (c.byKey.lookup (package, name)).or ((c.named name).find? (c.standsIn package)) := by
  unfold lookup named
  cases c.byKey.lookup (package, name) with
  | some id => rfl
  | none => cases c.byName.lookup name <;> rfl

theorem named_insert (c : IndexedCatalog) (d : Declaration) (name : String) :
    (c.insert d).named name =
      c.named name ++ if name = d.name then [c.types.length] else [] := by
  by_cases h : name = d.name
  · subst h
    simp [insert, named]
  · have hne : (name == d.name) = false := by simpa using h
    simp [insert, named, List.lookup_cons, hne, h]

theorem lookup_byKey_insert (c : IndexedCatalog) (d : Declaration) (key : String × String) :
    (c.insert d).byKey.lookup key =
      if key = d.key then some c.types.length else c.byKey.lookup key := by
  by_cases h : key = d.key
  · simp [insert, h]
  · have hne : (key == d.key) = false := by simpa using h
    simp [insert, List.lookup_cons, hne, h]

/-- Both ways in leave the same catalog. -/
theorem add_eq_push (c : IndexedCatalog) (d : Declaration) : c.add d = (c.push d).1 := by
  unfold add push
  cases c.byKey.lookup d.key <;> rfl

end IndexedCatalog

end GoSchema
