/-
# The starter configuration

A configuration file with every setting at its default and a word on each.

Key definitions: `Starter.text`, `Starter.write`.
-/
import GoSchema.Config.Load

namespace GoSchema

namespace Starter

/-- The text of the file. -/
def text : String :=
  "\n".intercalate
    ["# gqlforge configuration",
      "",
      "# Files, directories, `dir/*` (one level) or `dir/...` (recursive)",
      "roots = [\"./models/...\"]",
      "output = \"graph/schema\"",
      "",
      "# single | multiple | package",
      "strategy = \"single\"",
      "schema_file_name = \"schema.graphqls\"",
      "extension = \"graphqls\"",
      "",
      "# camel | snake | pascal | original",
      "field_case = \"camel\"",
      "use_json_tag = true",
      "use_gqlgen_directives = false",
      "doc_descriptions = true",
      "map_id_fields = true",
      "include_empty_types = false",
      "skip_existing = false",
      "namespace_separator = \"/\"",
      "",
      "[naming]",
      "strip_prefixes = []",
      "strip_suffixes = []",
      "type_prefix = \"\"",
      "type_suffix = \"\"",
      "input_prefix = \"\"",
      "input_suffix = \"\"",
      "input_token = \"Input\"",
      "",
      "[scalars]",
      "\"time.Time\" = \"Time\"",
      "",
      "[auto_discovery]",
      "# none | referenced | all | patterns",
      "strategy = \"none\"",
      "max_depth = 3",
      "patterns = []",
      "",
      "[keep]",
      "begin_marker = \"# @gqlKeepBegin\"",
      "end_marker = \"# @gqlKeepEnd\"",
      "# top | bottom",
      "position = \"bottom\"",
      ""]

/-- Why the file is not written. -/
inductive Refusal
  | exists (path : Path)
  | cannotMakeDir (dir : Path) (cause : OsFault)
  | cannotWrite (path : Path) (cause : OsFault)
  deriving DecidableEq, Repr

/-- The text of a refusal. -/
def Refusal.message : Refusal → String
  | .exists path => path.text ++ " already exists (use --force to overwrite)"
  | .cannotMakeDir dir cause => "Failed to create " ++ dir.text ++ ": " ++ cause.message
  | .cannotWrite path cause => "Failed to write " ++ path.text ++ ": " ++ cause.message

/-- Writes the file into a directory, which is made if it is missing. A file that is there is only
replaced by force. The path of the file is returned. -/
def write (t : FileTree) (dir : Path) (force : Bool) : FileTree × Except Refusal Path :=
  let path := dir.child Config.fileName
  if t.contains path && !force then (t, .error (.exists path))
  else
    match t.makeDirs dir with
    | (t, some e) => (t, .error (.cannotMakeDir dir e))
    | (t, none) =>
      match t.write path text with
      | .error e => (t, .error (.cannotWrite path e))
      | .ok t => (t, .ok path)

end Starter

end GoSchema
