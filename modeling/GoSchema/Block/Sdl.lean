/-
# Blocks as schema text

How a block is written: its description in triple quotes, its head, and its fields or values in
braces. Descriptions and strings are escaped so that they end where they should.

Key definitions: `quoted`, `description`, `Block.render`.
-/
import GoSchema.Block.Basic

namespace GoSchema

namespace Sdl

/-- A character inside a double-quoted string. -/
def escapeChar (c : Char) : List Char :=
  if c = '"' then ['\\', '"']
  else if c = '\\' then ['\\', '\\']
  else if c = '\n' then ['\\', 'n']
  else if c = '\t' then ['\\', 't']
  else [c]

/-- A text as a double-quoted string. -/
def quoted (s : List Char) : List Char := '"' :: s.flatMap escapeChar ++ ['"']

/-- The delimiter of descriptions. -/
def fence : List Char := ['"', '"', '"']

/-- A text with a backslash before every delimiter in it. -/
def escapeFence (s : List Char) : List Char := Text.replace fence ('\\' :: fence) s

/-- A line of a description; an empty line gets no indent. -/
def descriptionLine (indent line : List Char) : List Char :=
  if line.isEmpty then ['\n'] else indent ++ line ++ ['\n']

/-- A description between its delimiters, each on a line of its own. -/
def description (indent s : List Char) : List Char :=
  let mark := indent ++ fence ++ ['\n']
  mark ++ (Text.lines (escapeFence s)).flatMap (descriptionLine indent) ++ mark

/-- A description that may be missing. -/
def optionalDescription (indent : List Char) (s : Option String) : List Char :=
  match s with
  | some text => description indent text.toList
  | none => []

/-- The mark of something that should no longer be used. -/
def deprecation : Option Deprecation → List Char
  | none => []
  | some ⟨none⟩ => " @deprecated".toList
  | some ⟨some reason⟩ => " @deprecated(reason: ".toList ++ quoted reason.toList ++ [')']

/-- The indent of fields and values. -/
def indent : List Char := [' ', ' ']

/-- An enum value with its description. -/
def enumValue (v : EnumValue) : List Char :=
  optionalDescription indent v.description ++ indent ++ v.name.toList ++
    deprecation v.deprecated ++ ['\n']

/-- A field with its description; `models` asks for the directives on resolvers. -/
def blockField (models : Bool) (f : SchemaField) : List Char :=
  optionalDescription indent f.description ++ indent ++ f.name.toList ++ [':', ' '] ++
    f.typeText.toList ++
    (if models && f.forceResolver then " @goField(forceResolver: true)".toList else []) ++
    deprecation f.deprecated ++ ['\n']

/-- The directive that names the Go type of a block. -/
def model (models : Bool) (b : Block) : List Char :=
  match b.modelName with
  | some name =>
    if models then " @goModel(model: ".toList ++ quoted name.toList ++ [')'] else []
  | none => []

/-- The lines between the braces of a block. -/
def members (models : Bool) (b : Block) : List Char :=
  match b.kind with
  | .enum => b.values.flatMap enumValue
  | .type | .input => b.fields.flatMap (blockField models)

end Sdl

/-- The text of a block; `models` asks for directives that tie it to Go. -/
def Block.render (models : Bool) (b : Block) : List Char :=
  Sdl.optionalDescription [] b.description ++ b.kind.keyword.toList ++ [' '] ++ b.name.toList ++
    Sdl.model models b ++
    (if b.isEmpty then ['\n'] else [' ', '\x7b', '\n'] ++ Sdl.members models b ++ ['\x7d', '\n'])

end GoSchema
