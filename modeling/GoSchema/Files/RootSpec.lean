/-
# Roots

A root names source files: a file, the sources in a directory, with `*` those one level below, and
with `**` or `...` those at any depth. Tests are no sources, and directories called `vendor` or
`testdata` or with a leading dot are passed over, unless the root itself names them.

Key definitions: `isSource`, `RootSpec.entriesUnder`, `RootSpec.filesOf`, `RootSpec.allFiles`.
-/
import GoSchema.Files.Tree
import GoSchema.Pattern

namespace GoSchema.RootSpec

/-- Whether a text holds a character that makes it a pattern. -/
def isWild (s : List Char) : Bool := s.any fun c => c = '*' || c = '?' || c = '['

/-- The text before the first part with a wildcard, as a path, and the parts from there on. -/
def splitAtWildcard (spec : List Char) : Path × Option (List Char) :=
  let parts := Text.splitAt '/' spec
  match parts.dropWhile (!isWild ·) with
  | [] => (⟨String.ofList spec⟩, none)
  | pattern =>
    let base := Text.joinWith ['/'] (parts.takeWhile (!isWild ·))
    let base := if base.isEmpty then (if spec.head? = some '/' then ['/'] else ['.']) else base
    (⟨String.ofList base⟩, some (Text.joinWith ['/'] pattern))

/-- Whether a file name is that of a source and not of a test. -/
def isSourceName (name : String) : Bool :=
  Text.endsWith ".go".toList name.toList && !Text.endsWith "_test.go".toList name.toList

/-- Whether a path leads to a source by its name. -/
def isSource (p : Path) : Bool := (p.fileName?.map isSourceName).getD false

/-- Whether a directory is passed over. -/
def isSkippedName (name : String) : Bool :=
  name.toList.head? = some '.' || name = "vendor" || name = "testdata"

/-- Something found at or below a base. -/
structure Found where
  path : Path
  /-- The number of steps from the base. -/
  depth : Nat
  isDirectory : Bool
  deriving Repr

/-- Whether an entry below a base is passed over: one of the directories that it is in, or the entry
itself if it is a directory. -/
def isSkipped (names : AbsolutePath) (node : FileNode) : Bool :=
  names.dropLast.any isSkippedName ||
    (node = .directory && (names.getLast?.map isSkippedName).getD false)

/-- What is at or below a base and not passed over, in order; a depth may be set. -/
def entriesUnder (t : FileTree) (base : Path) (maxDepth : Option Nat) : List Found :=
  match t.realPath base with
  | .error _ => []
  | .ok a =>
    let entries := (t.below a).filter fun (names, node) =>
      !isSkipped names node && ((maxDepth.map fun d => decide (names.length ≤ d)).getD true)
    ⟨base, 0, t.isDir base⟩ ::
      entries.map fun (names, node) =>
        ⟨names.foldl Path.child base, names.length, node = .directory⟩

/-- The sources among what is found. -/
def sources (found : List Found) : List Path :=
  (found.filter fun f => !f.isDirectory && isSource f.path).map Found.path

/-- The sources in a directory. -/
def sourcesIn (t : FileTree) (dir : Path) : List Path := sources (entriesUnder t dir (some 1))

/-- The path of an entry from a base. -/
def pathFrom (base p : Path) : List Char := (Path.joined (Path.componentsBelow base p)).toList

/-- Reads a pattern of a root. -/
def readPattern (spec : String) (pattern : List Char) : Except Fault Pattern :=
  (Pattern.compile (String.ofList pattern)).mapError fun e => .config (.rootPattern spec e)

/-- The text without `**/` in front, as often as it is there. -/
def dropDeep : List Char → List Char
  | '*' :: '*' :: '/' :: rest => dropDeep rest
  | s => s

/-- The ends of a list, longest first; the empty one does not count. -/
def tails {α : Type} : List α → List (List α)
  | [] => []
  | x :: xs => (x :: xs) :: tails xs

/-- Whether a pattern matches a path or an end of it that starts after a slash. -/
def matchesEnd (pattern : Pattern) (path : List Char) : Bool :=
  (tails (Text.splitAt '/' path)).any fun parts =>
    pattern.matchesText .path (Text.joinWith ['/'] parts)

/-- Whether the directory of a file has the directories called `name` on its way from a base. -/
def liesIn (base : Path) (name : List Char) (file : Path) : Bool :=
  let dir := (file.parent?.map (pathFrom base)).getD []
  Text.occursIn ('/' :: name ++ ['/']) ('/' :: dir ++ ['/'])

/-- The sources at any depth that a pattern with `**` names. -/
def filesDeep (t : FileTree) (spec : String) (base : Path) (pattern : List Char) :
    Except Fault (List Path) :=
  let files := sources (entriesUnder t base none)
  match dropDeep pattern with
  | [] | ['*', '*'] => .ok files
  | rest =>
    if !isWild rest && (Path.mk (String.ofList rest)).extension?.isNone then
      .ok (files.filter (liesIn base rest))
    else
      (readPattern spec rest).map fun p =>
        files.filter fun file => matchesEnd p (pathFrom base file)

/-- The sources that a pattern without `**` names; a directory stands for the sources in it. -/
def filesOnLevel (t : FileTree) (spec : String) (base : Path) (pattern : List Char) :
    Except Fault (List Path) :=
  (readPattern spec pattern).map fun p =>
    let depth := (Text.splitAt '/' pattern).length
    let found := (entriesUnder t base (some depth)).filter fun f =>
      f.depth ≠ 0 && p.matchesText .path (pathFrom base f.path)
    found.flatMap fun f =>
      if f.isDirectory then sourcesIn t f.path
      else if isSource f.path then [f.path]
      else []

/-- A root with its blanks at either end removed and dots for any depth written as stars, split at
its first wildcard. -/
def parts (spec : String) : Path × Option (List Char) :=
  splitAtWildcard (Text.replace "...".toList "**".toList (Text.trim spec.toList))

/-- The file or directory below which a root's sources lie. -/
def baseOf (spec : String) : Path := (parts spec).1

/-- The sources that a root names. -/
def filesOf (t : FileTree) (spec : String) : Except Fault (List Path) :=
  let (base, pattern) := parts spec
  if !t.contains base then .ok []
  else
    match pattern with
    | none =>
      if t.isFile base then .ok (if isSource base then [base] else []) else .ok (sourcesIn t base)
    | some pattern =>
      if Text.occursIn "**".toList pattern then filesDeep t spec base pattern
      else filesOnLevel t spec base pattern

/-- What a path denotes, however it is written. -/
def denoted (t : FileTree) (p : Path) : AbsolutePath ⊕ Path :=
  match t.realPath p with
  | .ok a => .inl a
  | .error _ => .inr p

/-- The paths of a list whose file is not in `seen` and not earlier in the list. -/
def firsts (t : FileTree) (seen : List (AbsolutePath ⊕ Path)) : List Path → List Path
  | [] => []
  | p :: ps =>
    if seen.contains (denoted t p) then firsts t seen ps
    else p :: firsts t (denoted t p :: seen) ps

/-- The sources that roots name, each file once. -/
def allFiles (t : FileTree) (specs : List String) : Except Fault (List Path) :=
  (specs.mapM (filesOf t)).map fun found => firsts t [] found.flatten

end GoSchema.RootSpec
