/-
# Plans

A plan says for every file of the schema what it shall contain and whether it is new, changed, the
same, or left as it is. Carrying a plan out writes the files that are new or changed, in order, and
stops at the first that cannot be written.

Key definitions: `FilePlan`, `planBlocks`, `writeAll`.
-/
import GoSchema.Files.Tree
import GoSchema.Output.Layout
import GoSchema.Output.Summary

namespace GoSchema

/-- A file of the schema and what happens to it. -/
structure FilePlan where
  path : Path
  /-- The names of the blocks, in order. -/
  blocks : List String
  content : String
  status : FileChange
  deriving DecidableEq, Repr

namespace FilePlan

/-- What a summary says about the file. -/
def toSummary (f : FilePlan) : FileSummary := ⟨f.path, f.status, f.blocks⟩

/-- The text of a file, if there is one. -/
def existing (t : FileTree) (path : Path) : Except Fault (Option String) :=
  match t.read path with
  | .ok text => .ok (some text)
  | .error .notFound => .ok none
  | .error e => .error (.io path e)

/-- The plan for one file of which there is a text `old`. -/
def ofGroup (config : Config) (g : FileGroup) (old : Option String) : Except Fault FilePlan :=
  let names := g.blocks.map Block.name
  match old with
  | none => .ok ⟨g.path, names, String.ofList (fileText config none g.blocks), .created⟩
  | some text =>
    if config.skipExisting then .ok ⟨g.path, names, text, .skipped⟩
    else
      match Region.read config.keep text.toList with
      | .error e => .error (.region g.path e)
      | .ok kept =>
        let content := String.ofList (fileText config kept g.blocks)
        .ok ⟨g.path, names, content, if text = content then .unchanged else .updated⟩

end FilePlan

/-- The plan for files against a tree. -/
def planGroups (config : Config) (t : FileTree) : List FileGroup → Except Fault (List FilePlan)
  | [] => .ok []
  | g :: gs =>
    match FilePlan.existing t g.path with
    | .error e => .error e
    | .ok old =>
      match FilePlan.ofGroup config g old with
      | .error e => .error e
      | .ok file => (planGroups config t gs).map (file :: ·)

/-- The plan for blocks against a tree. -/
def planBlocks (config : Config) (t : FileTree) (blocks : List Block) :
    Except Fault (List FilePlan) :=
  match group config blocks with
  | .error e => .error e
  | .ok groups => planGroups config t groups

/-- Makes the directory of a file. -/
def makeDirOf (t : FileTree) (path : Path) : FileTree × Option Fault :=
  match path.parent? with
  | none => (t, none)
  | some dir =>
    if dir.text = "" then (t, none)
    else
      let (t, fault) := t.makeDirs dir
      (t, fault.map (.io dir))

/-- Writes one file with its directory. -/
def writeOne (t : FileTree) (f : FilePlan) : FileTree × Option Fault :=
  match makeDirOf t f.path with
  | (t, some fault) => (t, some fault)
  | (t, none) =>
    match t.write f.path f.content with
    | .ok t => (t, none)
    | .error e => (t, some (.io f.path e))

/-- Writes the files of a plan that are new or changed, up to the first fault. -/
def writeAll (t : FileTree) : List FilePlan → FileTree × Option Fault
  | [] => (t, none)
  | f :: fs =>
    if f.status.isWritten then
      match writeOne t f with
      | (t, some fault) => (t, some fault)
      | (t, none) => writeAll t fs
    else writeAll t fs

end GoSchema
