/-
# Doc comments

A doc comment holds directives and prose. The prose is what is left when the directives are cut out:
its lines are trimmed, blank lines at either end are dropped, and a run of blank lines becomes one.

Key definitions: `DocComment`, `DocComment.parse`, `proseOf`.
-/
import GoSchema.Directive.Parser

namespace GoSchema

/-- What a doc comment says. -/
structure DocComment where
  directives : List Directive := []
  prose : Option String := none
  deriving DecidableEq, Repr

namespace DocComment

/-- The lines without the blank ones at the start and without all but the first of each further run.
The flag tells whether a blank line would be dropped. -/
def collapseBlank (afterBlank : Bool) : List (List Char) → List (List Char)
  | [] => []
  | line :: more =>
    if line.isEmpty then
      if afterBlank then collapseBlank true more else line :: collapseBlank true more
    else line :: collapseBlank false more

/-- The prose of a text, or nothing if there is none. -/
def proseOf (s : List Char) : Option String :=
  let collapsed := collapseBlank true ((Text.lines s).map Text.trim)
  match (collapsed.reverse.dropWhile List.isEmpty).reverse with
  | [] => none
  | ls => some (String.ofList (Text.joinWith ['\n'] ls))

/-- Parses a doc comment. -/
def parse (s : String) : Except DirectiveFault DocComment :=
  (Directive.scan 0 none s.toList).map fun (directives, text) => ⟨directives, proseOf text⟩

end DocComment

end GoSchema
