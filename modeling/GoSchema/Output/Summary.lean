/-
# Summaries

What a run did, or would do: the files with their status and blocks, and the totals. A
summary is shown as lines of text or as JSON.

Key definitions: `FileChange`, `FileSummary`, `RunSummary`, `RunSummary.lines`, `RunSummary.json`.
-/
import GoSchema.Path

namespace GoSchema

/-- What happens to a file. -/
inductive FileChange
  | created
  | updated
  | unchanged
  /-- The file exists and is left as it is. -/
  | skipped
  deriving DecidableEq, Repr

namespace FileChange

/-- The word for a status. -/
def word : FileChange → String
  | created => "created"
  | updated => "updated"
  | unchanged => "unchanged"
  | skipped => "skipped"

/-- Whether the file is written. -/
def isWritten : FileChange → Bool
  | created | updated => true
  | unchanged | skipped => false

/-- What is said about a file; `planned` tells of a run that writes nothing. -/
def verb (planned : Bool) : FileChange → String
  | created => if planned then "would create" else "created"
  | updated => if planned then "would update" else "updated"
  | unchanged => "unchanged"
  | skipped => "skipped (exists)"

end FileChange

/-- What happens to one file. -/
structure FileSummary where
  path : Path
  status : FileChange
  /-- The names of the blocks. -/
  blocks : List String
  deriving DecidableEq, Repr

/-- What happens in a run. -/
structure RunSummary where
  scannedFiles : Nat := 0
  blocks : Nat := 0
  written : Nat := 0
  files : List FileSummary := []
  deriving DecidableEq, Repr

namespace RunSummary

/-- A text with spaces before it up to a width. -/
def padLeft (width : Nat) (s : String) : String :=
  String.ofList (List.replicate (width - s.length) ' ') ++ s

/-- The line of a file. -/
def fileLine (planned : Bool) (f : FileSummary) : String :=
  padLeft 16 (f.status.verb planned) ++ "  " ++ f.path.text ++ " (" ++
    ", ".intercalate f.blocks ++ ")\n"

/-- What is said about the number of files. -/
def totals (planned : Bool) (r : RunSummary) : String :=
  if planned then
    toString (r.files.filter (·.status.isWritten)).length ++ " file(s) would be written"
  else toString r.written ++ " file(s) written"

/-- The summary as lines of text. -/
def lines (planned : Bool) (r : RunSummary) : String :=
  "".intercalate (r.files.map (fileLine planned)) ++
    "\n✓ Scanned " ++ toString r.scannedFiles ++ " file(s), " ++ toString r.blocks ++
    " block(s); " ++ r.totals planned ++ "\n"

/-- A hexadecimal digit. -/
def hexDigit (n : Nat) : Char := Char.ofNat (if n < 10 then 48 + n else 87 + n)

/-- A character inside a JSON string. -/
def jsonChar (c : Char) : List Char :=
  if c = '"' then ['\\', '"']
  else if c = '\\' then ['\\', '\\']
  else if c = '\n' then ['\\', 'n']
  else if c = '\r' then ['\\', 'r']
  else if c = '\t' then ['\\', 't']
  else if c.toNat = 8 then ['\\', 'b']
  else if c.toNat = 12 then ['\\', 'f']
  else if c.toNat < 32 then
    ['\\', 'u', '0', '0', hexDigit (c.toNat / 16), hexDigit (c.toNat % 16)]
  else [c]

/-- A text as a JSON string. -/
def jsonString (s : String) : String :=
  String.ofList ('"' :: s.toList.flatMap jsonChar ++ ['"'])

/-- Values between brackets, one on each line at an indent; without values the brackets stand
together. -/
def jsonLines (opening closing : String) (indent : Nat) (values : List String) : String :=
  if values.isEmpty then opening ++ closing
  else
    let pad := String.ofList (List.replicate indent ' ')
    opening ++ "\n" ++ ",\n".intercalate (values.map fun v => pad ++ "  " ++ v) ++ "\n" ++ pad ++
      closing

/-- A member of a JSON object. -/
def jsonMember (key value : String) : String := jsonString key ++ ": " ++ value

/-- The JSON object of a file. -/
def jsonFile (f : FileSummary) : String :=
  jsonLines "\x7b" "\x7d" 4
    [jsonMember "path" (jsonString f.path.text),
      jsonMember "status" (jsonString f.status.word),
      jsonMember "blocks" (jsonLines "[" "]" 6 (f.blocks.map jsonString))]

/-- The summary as JSON. -/
def json (r : RunSummary) : String :=
  jsonLines "\x7b" "\x7d" 0
    [jsonMember "scanned_files" (toString r.scannedFiles),
      jsonMember "blocks" (toString r.blocks),
      jsonMember "written" (toString r.written),
      jsonMember "files" (jsonLines "[" "]" 2 (r.files.map jsonFile))]

end RunSummary

end GoSchema
