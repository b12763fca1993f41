/-
# What can be wrong in a directive or a field tag

One cause per way in which the notation can be misused, and the text of each.

Key definitions: `ValueFault`, `DirectiveCause`, `DirectiveFault`.
-/
import GoSchema.Text

namespace GoSchema

/-- What can be wrong in the notation of values and parameters. -/
inductive ValueFault
  | unterminatedString
  | unterminatedList
  /-- A quote inside an unquoted list item. -/
  | quoteInListItem
  /-- A list item is followed by neither a comma nor the end of the list. -/
  | expectedInList (found : Char)
  /-- A quote or an opening bracket in the text that follows a list. -/
  | bracketAfterList
  /-- A closing bracket without an opening one. -/
  | unbalanced (bracket : Char)
  | unbalancedBrackets
  | quoteInBareValue
  deriving DecidableEq, Repr

/-- The text of a fault in the notation of values. -/
def ValueFault.message : ValueFault → String
  | unterminatedString => "unterminated string"
  | unterminatedList => "unterminated list"
  | quoteInListItem => "unexpected character in list item"
  | expectedInList c => "expected `,` or `]` in list, found `" ++ c.toString ++ "`"
  | bracketAfterList => "unexpected character after list"
  | unbalanced c => "unbalanced `" ++ c.toString ++ "`"
  | unbalancedBrackets => "unbalanced brackets"
  | quoteInBareValue => "quote inside unquoted value"

/-- What can be wrong in a directive. -/
inductive DirectiveCause
  | value (fault : ValueFault)
  | unbalancedParenthesis
  /-- A parameter is followed by neither a comma nor the end of the parameters. -/
  | expectedInParams (found : Char)
  | unknownDirective
  | unknownParameter (key : String)
  | unexpectedPositional (raw : String)
  | duplicateParameter (key : String)
  | missingParameter (key : String)
  deriving DecidableEq, Repr

/-- The text of a fault in a directive. -/
def DirectiveCause.message : DirectiveCause → String
  | value fault => fault.message
  | unbalancedParenthesis => "unbalanced parenthesis"
  | expectedInParams c => "expected `,` or `)`, found `" ++ c.toString ++ "`"
  | unknownDirective => "unknown directive"
  | unknownParameter key => "unknown parameter `" ++ key ++ "`"
  | unexpectedPositional raw => "unexpected positional value `" ++ raw ++ "`"
  | duplicateParameter key => "duplicate parameter `" ++ key ++ "`"
  | missingParameter key => "missing required parameter `" ++ key ++ "`"

/-- A fault, with the directive it is in and the place of its `@` in bytes. -/
structure DirectiveFault where
  directive : String
  offset : Nat
  cause : DirectiveCause
  deriving DecidableEq, Repr

end GoSchema
