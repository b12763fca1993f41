/-
# Generation

From a tree and a configuration to the schema: the sources are scanned, their declarations made
into blocks, and the blocks planned as files. A check ends there; a run also writes.

Key definitions: `Generation.prepare`, `Generation.check`, `Generation.run`.
-/
import GoSchema.Catalog.BlockMaker
import GoSchema.Config.Validity
import GoSchema.Declaration.OfSource
import GoSchema.Files.Scan
import GoSchema.Output.Plan

namespace GoSchema

/-- The blocks of source files. -/
def blocksOfFiles (config : Config) (files : List SourceFile) : Except Fault (List Block) :=
  match Declarations.ofFiles config files with
  | .error e => .error e
  | .ok ds => ds.toBlocks config

namespace Generation

/-- The summary of a plan that is carried out. -/
def summaryOf (files : List SourceFile) (blocks : List Block) (plan : List FilePlan) : RunSummary :=
  { scannedFiles := files.length
    blocks := blocks.length
    written := (plan.filter (·.status.isWritten)).length
    files := plan.map FilePlan.toSummary }

/-- The plan for a tree, and the summary of it. -/
def prepare (config : Config) (t : FileTree) : Except Fault (RunSummary × List FilePlan) := do
  let files ← loadRoots t config.roots
  let blocks ← blocksOfFiles config files
  let plan ← planBlocks config t blocks
  return (summaryOf files blocks plan, plan)

/-- What a run would do. -/
def check (config : Config) (t : FileTree) : Except Fault RunSummary :=
  match config.checkAll with
  | .error e => .error e
  | .ok () => (prepare config t).map fun (summary, _) => { summary with written := 0 }

/-- Writes the schema. -/
def run (config : Config) (t : FileTree) : FileTree × Except Fault RunSummary :=
  match config.checkAll with
  | .error e => (t, .error e)
  | .ok () =>
    match prepare config t with
    | .error e => (t, .error e)
    | .ok (summary, plan) =>
      match writeAll t plan with
      | (t, some e) => (t, .error e)
      | (t, none) => (t, .ok summary)

end Generation

end GoSchema
