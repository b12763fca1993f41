/-
# The module directive

A module file names its module on the first line of the form `module path`, where the path may stand
in quotes and a comment may follow.

Key definitions: `Module.pathOfLine`, `Module.pathOf`.
-/
import GoSchema.Text

namespace GoSchema.Module

/-- The text before a comment. -/
def beforeComment : List Char → List Char
  | '/' :: '/' :: _ => []
  | c :: rest => c :: beforeComment rest
  | [] => []

/-- The text without double quotes at either end. -/
def withoutQuotes (s : List Char) : List Char :=
  ((s.dropWhile (· = '"')).reverse.dropWhile (· = '"')).reverse

/-- The module path that a line gives. -/
def pathOfLine (line : List Char) : Option (List Char) :=
  match Text.dropLeading? "module".toList (Text.trim (beforeComment line)) with
  | some (c :: rest) =>
    if c = ' ' || c = '\t' then
      match withoutQuotes (Text.trim (c :: rest)) with
      | [] => none
      | path => some path
    else none
  | _ => none

/-- The module path that a module file gives. -/
def pathOf (content : List Char) : Option (List Char) :=
  (Text.lines content).findSome? pathOfLine

end GoSchema.Module
