/-
# File trees

A tree of directories and files as a list of absolute names, each with what it denotes, and the
directory that relative paths start from. A path is followed step by step as a system does it: every
step must be taken from a directory, and two dots lead to the directory above.

Key definitions: `FileTree`, `FileTree.locate`, `FileTree.read`, `FileTree.write`,
`FileTree.makeDirs`, `FileTree.below`.
-/
import GoSchema.Fault

namespace GoSchema

/-- What a name in a tree denotes. -/
inductive FileNode
  | directory
  /-- A file; without a text if its bytes are no text. -/
  | file (text : Option String)
  deriving DecidableEq, Repr

/-- The names of the directories from the root down to an entry, and its own. -/
abbrev AbsolutePath : Type := List String

/-- A file tree. The root is a directory and not listed. -/
structure FileTree where
  workDir : AbsolutePath := []
  nodes : List (AbsolutePath × FileNode) := []
  deriving Repr

/-- The order of entries: a directory before what is in it, and names in the order of their text. -/
def entryOrder (a b : AbsolutePath) : Bool :=
  match a, b with
  | [], _ => true
  | _ :: _, [] => false
  | x :: xs, y :: ys => if x = y then entryOrder xs ys else x < y

namespace FileTree

/-- What an absolute path denotes. -/
def nodeAt? (t : FileTree) (p : AbsolutePath) : Option FileNode :=
  if p.isEmpty then some .directory else t.nodes.lookup p

/-- Follows the pieces of a path from a directory. The last piece need not exist. -/
def follow (t : FileTree) (start : AbsolutePath) : List (List Char) → Except OsFault AbsolutePath
  | [] => .ok start
  | piece :: pieces =>
    match t.nodeAt? start with
    | none => .error .notFound
    | some (.file _) => .error .notDirectory
    | some .directory =>
      if Path.isIdle piece then t.follow start pieces
      else if piece = ['.', '.'] then t.follow start.dropLast pieces
      else t.follow (start ++ [String.ofList piece]) pieces

/-- The absolute path that a path leads to. -/
def locate (t : FileTree) (p : Path) : Except OsFault AbsolutePath :=
  match p.text.toList with
  | [] => .error .notFound
  | '/' :: rest => t.follow [] (Text.splitAt '/' rest)
  | s => t.follow t.workDir (Text.splitAt '/' s)

/-- What a path denotes. -/
def node (t : FileTree) (p : Path) : Except OsFault FileNode :=
  match t.locate p with
  | .error e => .error e
  | .ok a =>
    match t.nodeAt? a with
    | some n => .ok n
    | none => .error .notFound

/-- Whether a path denotes something. -/
def contains (t : FileTree) (p : Path) : Bool :=
  match t.node p with
  | .ok _ => true
  | .error _ => false

/-- Whether a path denotes a file. -/
def isFile (t : FileTree) (p : Path) : Bool :=
  match t.node p with
  | .ok (.file _) => true
  | _ => false

/-- Whether a path denotes a directory. -/
def isDir (t : FileTree) (p : Path) : Bool :=
  match t.node p with
  | .ok .directory => true
  | _ => false

/-- The text of a file. -/
def read (t : FileTree) (p : Path) : Except OsFault String :=
  match t.node p with
  | .error e => .error e
  | .ok .directory => .error .isDirectory
  | .ok (.file none) => .error .notText
  | .ok (.file (some text)) => .ok text

/-- The absolute path of something that exists. -/
def realPath (t : FileTree) (p : Path) : Except OsFault AbsolutePath :=
  match t.locate p with
  | .error e => .error e
  | .ok a => if (t.nodeAt? a).isSome then .ok a else .error .notFound

/-- The tree with one entry added or replaced. -/
def put (t : FileTree) (p : AbsolutePath) (n : FileNode) : FileTree :=
  { t with nodes := (t.nodes.filter fun (q, _) => q ≠ p) ++ [(p, n)] }

/-- The tree without an entry and all that is in it. -/
def remove (t : FileTree) (p : AbsolutePath) : FileTree :=
  { t with nodes := t.nodes.filter fun (q, _) => !p.isPrefixOf q }

/-- Makes one directory. -/
def makeDir (t : FileTree) (p : Path) : Except OsFault FileTree :=
  -- slashes at the end of a new name do not count
  let bare := Path.mk (String.ofList (p.text.toList.reverse.dropWhile (· = '/')).reverse)
  match t.locate (if bare.text = "" then p else bare) with
  | .error e => .error e
  | .ok a =>
    match t.nodeAt? a with
    | some _ => .error .fileExists
    | none => .ok (t.put a .directory)

/-- Makes a directory after those above it, which `made` holds the outcome of. What exists as a
directory is made already. -/
def makeNext (p : Path) (made : FileTree × Option OsFault) : FileTree × Option OsFault :=
  match made with
  | (t, some e) => (t, some e)
  | (t, none) =>
    match t.makeDir p with
    | .ok t => (t, none)
    | .error e => (t, if t.isDir p then none else some e)

/-- Makes directories; the list goes up from a directory to those above it. Those above are made
only where they are missing. What could be made stays when a later one cannot be. -/
def makeUp (t : FileTree) : List Path → FileTree × Option OsFault
  | [] => (t, none)
  | p :: above =>
    if p.text = "" then (t, none)
    else
      match t.makeDir p with
      | .error .notFound => makeNext p (t.makeUp above)
      | _ => makeNext p (t, none)

/-- A path and the paths of the directories above it; the number bounds their number. -/
def ancestors : Nat → Path → List Path
  | 0, p => [p]
  | n + 1, p =>
    match p.parent? with
    | none => [p]
    | some q => p :: ancestors n q

/-- Makes a directory and all above it that are missing. -/
def makeDirs (t : FileTree) (p : Path) : FileTree × Option OsFault :=
  t.makeUp (ancestors p.text.length p)

/-- Writes a file, whose directory must exist. -/
def write (t : FileTree) (p : Path) (text : String) : Except OsFault FileTree :=
  match t.locate p with
  | .error e =>
    match e, t.locate ⟨String.ofList (p.text.toList.reverse.dropWhile (· = '/')).reverse⟩ with
    | .notFound, .ok _ => .error .isDirectory
    | _, _ => .error e
  | .ok a =>
    match t.nodeAt? a with
    | some .directory => .error .isDirectory
    | _ => .ok (t.put a (.file (some text)))

/-- The entries in a directory at any depth, by their names from there, in order. -/
def below (t : FileTree) (p : AbsolutePath) : List (AbsolutePath × FileNode) :=
  ((t.nodes.filter fun (q, _) => p.isPrefixOf q && q ≠ p).map
    fun (q, n) => (q.drop p.length, n)).mergeSort fun a b => entryOrder a.1 b.1

end FileTree

end GoSchema
