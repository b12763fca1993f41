/-
# Types as written in Go

A type expression: a name with its package and type arguments, a pointer, a slice, an array, a map,
an interface, or anything else kept as its source text. The package of a name is the identity of the
package that declares it; a predeclared type and a type parameter have none. The qualifier is the
alias as written, which only the printed form uses.

Key definitions: `GoType`, `GoType.display`, `GoType.stripPointers`, `GoType.innermost`,
`GoType.subst`.
-/

namespace GoSchema

/-- A Go type expression. -/
inductive GoType where
  | named (package qualifier : Option String) (name : String) (args : List GoType)
  | pointer (target : GoType)
  | slice (item : GoType)
  | array (item : GoType)
  | map (key value : GoType)
  /-- An interface type, or `any`. -/
  | any
  /-- A type of another form, as it is written. -/
  | other (text : String)
  deriving Repr, Inhabited

namespace GoType

mutual

/-- Whether two types are the same expression. -/
def same : GoType → GoType → Bool
  | named p q n as, named p' q' n' as' => p == p' && q == q' && n == n' && sameAll as as'
  | pointer t, pointer t' => same t t'
  | slice t, slice t' => same t t'
  | array t, array t' => same t t'
  | map k v, map k' v' => same k k' && same v v'
  | any, any => true
  | other s, other s' => s == s'
  | _, _ => false

/-- Whether two lists of types are the same expressions. -/
def sameAll : List GoType → List GoType → Bool
  | [], [] => true
  | t :: ts, t' :: ts' => same t t' && sameAll ts ts'
  | _, _ => false

end

mutual

theorem same_iff (t u : GoType) : same t u = true ↔ t = u := by
  cases t <;> cases u <;>
    simp [same, same_iff, sameAll_iff, and_assoc]

theorem sameAll_iff (ts us : List GoType) : sameAll ts us = true ↔ ts = us := by
  cases ts <;> cases us <;> simp [sameAll, same_iff, sameAll_iff]

end

instance : DecidableEq GoType := fun t u => decidable_of_iff _ (same_iff t u)

/-- An unqualified name without arguments. -/
def ofName (name : String) : GoType := named none none name []

/-- The type without the pointers around it. -/
def stripPointers : GoType → GoType
  | pointer t => stripPointers t
  | t => t

/-- Whether the type is a pointer. -/
def isPointer : GoType → Bool
  | pointer _ => true
  | _ => false

/-- The type without the pointers, slices and arrays around it. -/
def innermost : GoType → GoType
  | pointer t => innermost t
  | slice t => innermost t
  | array t => innermost t
  | t => t

/-- The type arguments of a name, behind any pointers. -/
def typeArgs (t : GoType) : List GoType :=
  match t.stripPointers with
  | named _ _ _ args => args
  | _ => []

/-- The argument given for a parameter name; the first parameter of that name counts. -/
def argFor (params : List String) (args : List GoType) (name : String) : Option GoType :=
  (params.findIdx? (· = name)).bind (args[·]?)

mutual

/-- The type with its type parameters replaced by arguments. A parameter without an argument
stays. -/
def subst (params : List String) (args : List GoType) : GoType → GoType
  | named none q n [] => (argFor params args n).getD (named none q n [])
  | named p q n own => named p q n (substAll params args own)
  | pointer t => pointer (subst params args t)
  | slice t => slice (subst params args t)
  | array t => array (subst params args t)
  | map k v => map (subst params args k) (subst params args v)
  | any => any
  | other s => other s

/-- The types of a list with their type parameters replaced by arguments. -/
def substAll (params : List String) (args : List GoType) : List GoType → List GoType
  | [] => []
  | t :: ts => subst params args t :: substAll params args ts

end

mutual

/-- The type as it is written. The length of an array is not kept and shows as `N`. -/
def display : GoType → String
  | named _ qualifier name args =>
    (match qualifier with
      | some q => q ++ "."
      | none => "") ++ name ++
    (match args with
      | [] => ""
      | _ :: _ => "[" ++ ", ".intercalate (displayAll args) ++ "]")
  | pointer t => "*" ++ display t
  | slice t => "[]" ++ display t
  | array t => "[N]" ++ display t
  | map k v => "map[" ++ display k ++ "]" ++ display v
  | any => "any"
  | other text => text

/-- The types of a list as they are written. -/
def displayAll : List GoType → List String
  | [] => []
  | t :: ts => display t :: displayAll ts

end

theorem substAll_eq_map (params : List String) (args ts : List GoType) :
    substAll params args ts = ts.map (subst params args) := by
  induction ts with
  | nil => rfl
  | cons t ts ih => simp [substAll, ih]

/-- Stripping pointers twice strips no more. -/
theorem stripPointers_stripPointers (t : GoType) :
    t.stripPointers.stripPointers = t.stripPointers := by
  induction t using stripPointers.induct with
  | case1 t ih => simpa [stripPointers] using ih
  | case2 t h => cases t <;> simp_all [stripPointers]

end GoType

end GoSchema
