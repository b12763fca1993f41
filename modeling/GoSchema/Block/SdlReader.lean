/-
# Reading texts of the schema language

How descriptions and strings end for one who reads a schema. A description goes on to the first
delimiter without a backslash before it, and the delimiters stand on lines of their own. A string
goes on to the first quote that is not escaped; it ends on the line it begins on.

Key definitions: `Sdl.readFenced`, `Sdl.readDescription?`, `Sdl.readString?`.
-/
import GoSchema.Block.Sdl

namespace GoSchema.Sdl

/-- Reads up to the closing delimiter; the opening one is already read. -/
def readFenced : List Char → Option (List Char × List Char)
  | '\\' :: '"' :: '"' :: '"' :: rest => (readFenced rest).map fun (s, left) => (fence ++ s, left)
  | '"' :: '"' :: '"' :: rest => some ([], rest)
  | c :: rest => (readFenced rest).map fun (s, left) => (c :: s, left)
  | [] => none

/-- A line without its indent; an empty line has none. -/
def withoutIndent? (indent line : List Char) : Option (List Char) :=
  if line.isEmpty then some [] else Text.dropLeading? indent line

/-- The lines of what stands between two delimiters, without their indents. There is nothing behind
the opening delimiter on its line, and only the indent before the closing one. -/
def fencedLines? (indent text : List Char) : Option (List (List Char)) :=
  match Text.splitAt '\n' text with
  | [] :: more =>
    if more.getLast? = some indent then more.dropLast.mapM (withoutIndent? indent) else none
  | _ => none

/-- Reads a description up to its closing delimiter: its lines, and what is left. -/
def readDescription? (indent s : List Char) : Option (List (List Char) × List Char) :=
  (Text.dropLeading? (indent ++ fence) s).bind fun inner =>
    (readFenced inner).bind fun (text, left) => (fencedLines? indent text).map (·, left)

/-- The character that a backslash and `c` stand for in a string. -/
def unescapeChar? (c : Char) : Option Char :=
  if c = '"' || c = '\\' then some c
  else if c = 'n' then some '\n'
  else if c = 't' then some '\t'
  else none

/-- Reads a string up to its closing quote; the opening one is already read. -/
def readChars? : List Char → Option (List Char × List Char)
  | '\\' :: c :: rest =>
    (unescapeChar? c).bind fun d => (readChars? rest).map fun (s, left) => (d :: s, left)
  | c :: rest =>
    if c = '"' then some ([], rest)
    else if c = '\n' || c = '\\' then none
    else (readChars? rest).map fun (s, left) => (c :: s, left)
  | [] => none

/-- Reads a string from its opening quote to its closing one: its text, and what is left. -/
def readString? (s : List Char) : Option (List Char × List Char) :=
  (Text.dropLeading? ['"'] s).bind readChars?

end GoSchema.Sdl
