/-
# The catalog

All type declarations in one list; a declaration is referred to by its number in the list. No two
declarations have the same key, and a number once given stays. A name is looked up under its
package; where the package was read without a module file, its name alone identifies it, and the
last segment of an import path stands for it.

Key definitions: `Catalog`, `Catalog.push`, `Catalog.ofDeclarations`, `Catalog.lookup`,
`Catalog.idOfType?`.
Key theorems: `push_fst_keys`, `ofDeclarations_keys_nodup`.
-/
import GoSchema.Declaration.Basic

namespace GoSchema

/-- The declarations of a run. -/
structure Catalog where
  types : List Declaration := []
  consts : List Constant := []
  deriving DecidableEq, Repr

/-- The part of an import path after its last slash. -/
def lastSegment (path : String) : String :=
  match Text.splitAtLast? '/' path.toList with
  | some (_, last) => String.ofList last
  | none => path

namespace Catalog

/-- The number of a declaration with this key. -/
def idOf? (c : Catalog) (key : String × String) : Option Nat :=
  c.types.findIdx? fun d => d.key = key

/-- The catalog with one more declaration, and its number; a declaration with the same key stays
in its place. -/
def push (c : Catalog) (d : Declaration) : Catalog × Nat :=
  match c.idOf? d.key with
  | some id => (c, id)
  | none => ({ c with types := c.types ++ [d] }, c.types.length)

/-- The catalog of declarations; of two with the same key the first is kept. -/
def ofDeclarations (ds : Declarations) : Catalog :=
  ds.types.foldl (fun c d => (c.push d).1) { consts := ds.consts }

/-- The numbers of all declarations. -/
def ids (c : Catalog) : List Nat := List.range c.types.length

/-- The declaration with a number. -/
def get? (c : Catalog) (id : Nat) : Option Declaration := c.types[id]?

/-- The name of a declaration. -/
def nameOf (c : Catalog) (id : Nat) : String := ((c.get? id).map Declaration.name).getD ""

/-- Package and name of a declaration, for messages. -/
def labelOf (c : Catalog) (id : Nat) : String := ((c.get? id).map Declaration.label).getD ""

/-- Whether a declaration without an import path has this name in a package whose name ends the
path `package`. -/
def matchesLoosely (package name : String) (d : Declaration) : Bool :=
  d.name = name && d.package.importPath.isNone && d.package.name = lastSegment package

/-- The declaration of a name in a package. -/
def lookup (c : Catalog) (package name : String) : Option Nat :=
  (c.idOf? (package, name)).or (c.types.findIdx? (matchesLoosely package name))

/-- The declaration that a type refers to, behind any pointers. -/
def idOfType? (c : Catalog) (t : GoType) : Option Nat :=
  match t.stripPointers with
  | .named (some package) _ name _ => c.lookup package name
  | _ => none

/-- The declaration that a type refers to, with its number. -/
def find (c : Catalog) (t : GoType) : Option (Nat × Declaration) :=
  (c.idOfType? t).bind fun id => (c.get? id).map fun d => (id, d)

/-- The catalog with one declaration changed. -/
def modify (c : Catalog) (id : Nat) (f : Declaration → Declaration) : Catalog :=
  { c with types := c.types.modify id f }

/-- The catalog with the body of one declaration replaced. -/
def setBody (c : Catalog) (id : Nat) (body : Body) : Catalog := c.modify id ({ · with body })

/-- The keys of all declarations. -/
def keys (c : Catalog) : List (String × String) := c.types.map Declaration.key

theorem idOf?_eq_none_iff {c : Catalog} {key : String × String} :
    c.idOf? key = none ↔ key ∉ c.keys := by
  simp [idOf?, keys, List.findIdx?_eq_none_iff]

/-- Pushing adds the key of the declaration unless it is there. -/
theorem push_fst_keys (c : Catalog) (d : Declaration) :
    (c.push d).1.keys = if d.key ∈ c.keys then c.keys else c.keys ++ [d.key] := by
  by_cases hd : d.key ∈ c.keys
  · cases h : c.idOf? d.key with
    | none => exact absurd hd (idOf?_eq_none_iff.1 h)
    | some id => simp [push, h, hd]
  · rw [if_neg hd]
    simp [push, idOf?_eq_none_iff.2 hd, keys]

theorem push_fst_keys_nodup {c : Catalog} (h : c.keys.Nodup) (d : Declaration) :
    (c.push d).1.keys.Nodup := by
  rw [push_fst_keys]
  split
  · exact h
  · rename_i hd
    rw [List.nodup_append]
    refine ⟨h, by simp, ?_⟩
    intro a ha b hb hab
    simp only [List.mem_singleton] at hb
    exact hd (by rw [← hb, ← hab]; exact ha)

/-- **No key occurs twice.** -/
theorem ofDeclarations_keys_nodup (ds : Declarations) : (ofDeclarations ds).keys.Nodup := by
  have step : ∀ (l : List Declaration) (c : Catalog), c.keys.Nodup →
      (l.foldl (fun c d => (c.push d).1) c).keys.Nodup := by
    intro l
    induction l with
    | nil => exact fun _ h => h
    | cons d l ih => exact fun c h => ih _ (push_fst_keys_nodup h d)
  exact step _ _ (by simp [keys])

theorem modify_length (c : Catalog) (id : Nat) (f : Declaration → Declaration) :
    (c.modify id f).types.length = c.types.length := by
  simp [modify]

end Catalog

end GoSchema
