/-
# What can be wrong in a field tag

One cause per way in which a tag can be malformed, and the text of each.

Key definitions: `TagFault`, `TagFault.message`.
-/
import GoSchema.Directive.Fault

namespace GoSchema

/-- What can be wrong in a field tag. -/
inductive TagFault
  /-- An entry of the tag has no key. -/
  | emptyKey (tag : String)
  /-- A key is not followed by a colon and a quote. -/
  | expectedQuoted (tag key : String)
  | unterminatedValue (tag : String)
  | value (fault : ValueFault)
  /-- A value without a key that is not the first item. -/
  | unexpectedValue (raw : String)
  | unknownOption (key : String)
  | expectedComma (found : Char)
  | blankType
  | readOnlyAndWriteOnly
  deriving DecidableEq, Repr

/-- The text of a fault in a field tag. -/
def TagFault.message : TagFault → String
  | emptyKey tag => "malformed struct tag `" ++ tag ++ "`: empty key"
  | expectedQuoted tag key =>
    "malformed struct tag `" ++ tag ++ "`: expected `" ++ key ++ ":\"...\"`"
  | unterminatedValue tag => "malformed struct tag `" ++ tag ++ "`: unterminated value"
  | value fault => fault.message
  | unexpectedValue raw => "unexpected value `" ++ raw ++ "`"
  | unknownOption key => "unknown option `" ++ key ++ "`"
  | expectedComma c => "expected `,`, found `" ++ c.toString ++ "`"
  | blankType => "`type` needs a value"
  | readOnlyAndWriteOnly => "`ro` and `wo` are mutually exclusive"

end GoSchema
