/-
# Paths

A path is kept as the text it was given by, because that text is shown. What it means is its list of
components: repeated slashes, dots within a path and a slash at its end do not count, so two texts
may denote the same path. Paths are ordered by their components.

Key definitions: `Path`, `Path.components`, `Path.join`, `Path.parent?`, `Path.fileName?`,
`Path.precedes`.
-/
import GoSchema.Text

namespace GoSchema

/-- A path as it is written. -/
structure Path where
  text : String
  deriving DecidableEq, Repr

namespace Path

/-- A step of a path. -/
inductive Component
  /-- The slash at the start of an absolute path. -/
  | root
  /-- The dot at the start of a relative path. -/
  | here
  /-- The directory above. -/
  | up
  | name (s : String)
  deriving DecidableEq, Repr

/-- A component as it is written. -/
def Component.text : Component → String
  | root => "/"
  | here => "."
  | up => ".."
  | name s => s

/-- The place of a component's kind in the order of paths. -/
def Component.rank : Component → Nat
  | root => 0
  | here => 1
  | up => 2
  | name _ => 3

/-- The order of components: by kind, then by name. -/
def Component.precedes (a b : Component) : Bool :=
  match a, b with
  | name s, name t => s < t
  | a, b => a.rank < b.rank

/-- Whether a piece between slashes says nothing within a path. -/
def isIdle (piece : List Char) : Bool := piece.isEmpty || piece = ['.']

/-- The component that a piece between slashes stands for. -/
def component? (piece : List Char) : Option Component :=
  if isIdle piece then none
  else if piece = ['.', '.'] then some .up
  else some (.name (String.ofList piece))

/-- The component at the start, and the text after it: a slash, or a dot that stands alone. -/
def head (s : List Char) : Option Component × List Char :=
  match s with
  | '/' :: rest => (some .root, rest)
  | '.' :: [] => (some .here, [])
  | '.' :: '/' :: rest => (some .here, '/' :: rest)
  | s => (none, s)

/-- The components of a path. -/
def components (p : Path) : List Component :=
  let (first, rest) := head p.text.toList
  first.toList ++ (Text.splitAt '/' rest).filterMap component?

/-- Whether two texts denote the same path. -/
def sameAs (p q : Path) : Bool := p.components == q.components

/-- Whether one list of components comes before another: at the first difference, or as its
beginning. -/
def componentsPrecede : List Component → List Component → Bool
  | _, [] => false
  | [], _ :: _ => true
  | a :: as, b :: bs => if a = b then componentsPrecede as bs else a.precedes b

/-- The order of paths. -/
def precedes (p q : Path) : Bool := componentsPrecede p.components q.components

/-- Whether a path starts at the root. -/
def isAbsolute (p : Path) : Bool := p.text.toList.head? = some '/'

/-- The path followed by another one. An absolute path replaces what it follows. -/
def join (p q : Path) : Path :=
  if q.isAbsolute then q
  else
    match p.text.toList.getLast? with
    | none => q
    | some '/' => ⟨p.text ++ q.text⟩
    | some _ => ⟨p.text ++ "/" ++ q.text⟩

/-- The path followed by a name. -/
def child (p : Path) (name : String) : Path := p.join ⟨name⟩

/-- The path without its last component, if it has one that can be taken away. -/
def parent? (p : Path) : Option Path :=
  let (first, rest) := head p.text.toList
  let start := (first.map Component.text).getD ""
  match (Text.splitAt '/' rest).reverse.dropWhile isIdle with
  | _ :: before =>
    let kept := (before.dropWhile isIdle).reverse
    some ⟨start ++ String.ofList (Text.joinWith ['/'] kept)⟩
  | [] => if first = some .here then some ⟨""⟩ else none

/-- The last component, if it is a name. -/
def fileName? (p : Path) : Option String :=
  match p.components.getLast? with
  | some (.name s) => some s
  | _ => none

/-- What follows the last dot of the file name, unless the name starts with that dot. -/
def extension? (p : Path) : Option String :=
  match p.fileName? with
  | none => none
  | some name =>
    match Text.splitAtLast? '.' name.toList with
    | some (_ :: _, ext) => some (String.ofList ext)
    | _ => none

/-- The components of a path below `base`; all of them if the path is not below it. -/
def componentsBelow (base p : Path) : List Component :=
  if base.components.isPrefixOf p.components then p.components.drop base.components.length
  else p.components

/-- Components with slashes between them. -/
def joined (cs : List Component) : String := "/".intercalate (cs.map Component.text)

end Path

end GoSchema
