/-
# Import paths

The import path of a package is the path of its module and the directories from the module file down
to the package. The module file that counts is the nearest one, going up from the package. Answers
for directories are remembered.

Key definitions: `Module`, `Module.nearest`, `Module.Known`, `Module.nearestKnown`,
`Module.importPath`, `Module.importPathKnown`.
-/
import GoSchema.Files.Tree
import GoSchema.Module.Directive

namespace GoSchema

/-- A module: the directory of its module file, and its path. -/
structure Module where
  dir : AbsolutePath
  path : String
  deriving DecidableEq, Repr

namespace Module

/-- The name of module files. -/
def fileName : String := "go.mod"

/-- A path from the root. -/
def absolute (a : AbsolutePath) : Path := ⟨"/" ++ "/".intercalate a⟩

/-- The module that a module file in a directory gives, if there is such a file. -/
def at? (t : FileTree) (dir : AbsolutePath) : Option (Except Fault (Option Module)) :=
  match t.nodeAt? (dir ++ [fileName]) with
  | some (.file none) => some (.error (.io (absolute (dir ++ [fileName])) .notText))
  | some (.file (some text)) =>
    some (.ok ((pathOf text.toList).map fun path => ⟨dir, String.ofList path⟩))
  | _ => none

/-- The directories from a directory up to the root; the number is that of the names. -/
def upwards (dir : AbsolutePath) : Nat → List AbsolutePath
  | 0 => [[]]
  | n + 1 => dir.take (n + 1) :: upwards dir n

/-- The module of the first directory of a list that has a module file. -/
def nearest (t : FileTree) : List AbsolutePath → Except Fault (Option Module)
  | [] => .ok none
  | dir :: above => (at? t dir).getD (nearest t above)

/-- The modules of directories that have been asked for. -/
abbrev Known : Type := List (AbsolutePath × Option Module)

/-- The module of the first directory of a list that has a module file, where known answers are used
and new ones are remembered. -/
def nearestKnown (t : FileTree) (known : Known) :
    List AbsolutePath → Except Fault (Option Module × Known)
  | [] => .ok (none, known)
  | dir :: above =>
    match known.lookup dir with
    | some m => .ok (m, known)
    | none =>
      match at? t dir with
      | some (.error e) => .error e
      | some (.ok m) => .ok (m, (dir, m) :: known)
      | none =>
        (nearestKnown t known above).map fun (m, known) => (m, (dir, m) :: known)

/-- The directory of a file as a path. -/
def dirOf (file : Path) : Path :=
  match file.parent? with
  | some p => if p.text = "" then ⟨"."⟩ else p
  | none => ⟨"."⟩

/-- The directory of a file in the tree. -/
def packageDir (t : FileTree) (file : Path) : Except Fault AbsolutePath :=
  (t.realPath (dirOf file)).mapError (.io (dirOf file))

/-- The import path of a directory in a module. -/
def pathIn (m : Module) (dir : AbsolutePath) : String :=
  let below := if m.dir.isPrefixOf dir then dir.drop m.dir.length else []
  "/".intercalate (m.path :: below)

/-- The import path of the package of a file, if a module file governs it. -/
def importPath (t : FileTree) (file : Path) : Except Fault (Option String) :=
  match packageDir t file with
  | .error e => .error e
  | .ok dir => (nearest t (upwards dir dir.length)).map fun m => m.map (pathIn · dir)

/-- The same with known answers. -/
def importPathKnown (t : FileTree) (known : Known) (file : Path) :
    Except Fault (Option String × Known) :=
  match packageDir t file with
  | .error e => .error e
  | .ok dir =>
    (nearestKnown t known (upwards dir dir.length)).map fun (m, known) =>
      (m.map (pathIn · dir), known)

end Module

end GoSchema
