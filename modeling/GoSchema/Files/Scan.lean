/-
# Scanning

Source files are read from a tree and get the import paths of their packages. The first file with a
fault ends the scan.

Key definitions: `SourceFile.load`, `loadFiles`, `loadRoots`.
-/
import GoSchema.Files.RootSpec
import GoSchema.Module.Lookup
import GoSchema.Source.Reader

namespace GoSchema

/-- What is wrong with the text of a file. -/
def Source.SourceFault.at (path : Path) : Source.SourceFault → Fault
  | notWellFormed => .notWellFormed path
  | noPackage => .noPackage path

/-- Reads a source file from its text. -/
def SourceFile.ofText (path : Path) (text : String) : Except Fault SourceFile :=
  (SourceFile.parse path text).mapError (Source.SourceFault.at path)

/-- Reads a source file from a tree. -/
def SourceFile.load (t : FileTree) (path : Path) : Except Fault SourceFile :=
  match t.read path with
  | .error e => .error (.io path e)
  | .ok text => SourceFile.ofText path text

/-- Reads source files in order; `known` are the modules of directories so far. -/
def loadFrom (t : FileTree) (known : Module.Known) : List Path → Except Fault (List SourceFile)
  | [] => .ok []
  | path :: paths =>
    match SourceFile.load t path with
    | .error e => .error e
    | .ok file =>
      match Module.importPathKnown t known path with
      | .error e => .error e
      | .ok (importPath, known) =>
        (loadFrom t known paths).map fun files => { file with importPath } :: files

/-- Reads source files in order. -/
def loadFiles (t : FileTree) (paths : List Path) : Except Fault (List SourceFile) :=
  loadFrom t [] paths

/-- Reads the source files that roots name. -/
def loadRoots (t : FileTree) (roots : List String) : Except Fault (List SourceFile) :=
  match RootSpec.allFiles t roots with
  | .error e => .error e
  | .ok paths => loadFiles t paths

end GoSchema
