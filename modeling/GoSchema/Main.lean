/-
# The program

Takes the directories that a command line is about into a file tree, carries the command line out on
the tree, and writes what has changed.

Key definitions: `main`.
-/
import GoSchema.Command.Basic

namespace GoSchema.Program

/-- An entry of the system, and all that is in it if it is a directory. Links to directories are not
followed. -/
partial def entriesAt (place : AbsolutePath) : IO (List (AbsolutePath × FileNode)) := do
  let path := (← IO.currentDir) / (Module.absolute place).text
  if ← path.isDir then
    let inside ← (← path.readDir).toList.mapM fun entry => do
      let isLink := (← entry.path.symlinkMetadata).type matches .symlink
      if isLink && (← entry.path.isDir) then return [] else entriesAt (place ++ [entry.fileName])
    return (place, .directory) :: inside.flatten
  else if ← path.pathExists then
    return [(place, .file (String.fromUTF8? (← IO.FS.readBinFile path)))]
  else
    return []

/-- The entry itself as a directory, if it is one, and its module file. -/
def directoryAt (place : AbsolutePath) : IO (List (AbsolutePath × FileNode)) := do
  let path := (← IO.currentDir) / (Module.absolute place).text
  if ← path.isDir then
    let moduleFile := path / Module.fileName
    if (← moduleFile.pathExists) && !(← moduleFile.isDir) then
      return (place, .directory) :: (← entriesAt (place ++ [Module.fileName]))
    else
      return [(place, .directory)]
  else
    return []

/-- The tree with what is at a place and the directories on the way to it. -/
def withPlace (t : FileTree) (path : Path) : IO FileTree := do
  let start := if path.text.toList.head? = some '/' then [] else t.workDir
  let place := (start ++ path.text.splitOn "/").foldl (fun names name =>
    if name = "" || name = "." then names
    else if name = ".." then names.dropLast
    else names ++ [name]) ([] : AbsolutePath)
  let above ← (Module.upwards place.dropLast (place.length - 1)).mapM directoryAt
  let found := above.flatten ++ (← entriesAt place)
  return found.foldl (fun t (names, node) =>
    if (t.nodeAt? names).isSome then t else { t with nodes := (names, node) :: t.nodes }) t

/-- Writes the entries of a tree that another one does not have. -/
def writeChanges (before after : FileTree) : IO Unit := do
  for (names, node) in after.nodes do
    if before.nodeAt? names ≠ some node then
      let path := (Module.absolute names).text
      match node with
      | .directory => IO.FS.createDirAll path
      | .file text => IO.FS.writeFile path (text.getD "")

end GoSchema.Program

open GoSchema Program in
/-- Carries out a command line in the working directory. -/
def main (args : List String) : IO UInt32 := do
  let workDir := ((← IO.currentDir).toString.splitOn "/").filter (· ≠ "")
  let places := ⟨"."⟩ :: (Command.parse args).toList.flatMap Command.namedPlaces
  let t ← places.foldlM withPlace (⟨workDir, []⟩ : FileTree)
  let places := (Command.parse args).toList.flatMap (Command.configuredPlaces t)
  let t ← places.foldlM withPlace t
  let (changed, outcome) := Command.runLine t args
  writeChanges t changed
  IO.print outcome.stdout
  IO.eprint outcome.stderr
  return outcome.exitCode.toUInt32
