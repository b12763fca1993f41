/-
# Values of parameters

A parameter of a directive or of a field tag has a value: nothing but its key, a text, or a list of
texts. The same value can be asked for as a text, a truth value, a scope or a deprecation.

Key definitions: `Value`, `Value.toText?`, `Value.truth`, `Value.toScope`, `Value.toDeprecation?`,
`normalKey`.
-/
import GoSchema.Scope

namespace GoSchema

/-- The value of a parameter. -/
inductive Value
  /-- The key stands alone. -/
  | flag
  | text (s : String)
  | list (items : List String)
  deriving DecidableEq, Repr

namespace Value

/-- The value as a text; the items of a list are joined by commas. -/
def toText? : Value → Option String
  | flag => none
  | text s => some s
  | list items => some (",".intercalate items)

/-- The value as a truth value. Only `false` and `0` deny. -/
def truth : Value → Bool
  | flag => true
  | text s =>
    let word := Unicode.asciiLowerText (Text.trim s.toList)
    !(word == "false".toList || word == "0".toList)
  | list _ => true

/-- The value as a scope. A bare key covers everything; a text is a list joined by commas. -/
def toScope : Value → Scope
  | flag => .all
  | text s => Scope.ofEntries ((Text.splitAt ',' s.toList).map String.ofList)
  | list items => Scope.ofEntries items

/-- The value as a deprecation. `false` denies; `true` and the empty text give no reason. -/
def toDeprecation? : Value → Option Deprecation
  | flag => some {}
  | text s =>
    let reason := String.ofList (Text.trim s.toList)
    if reason = "false" then none
    else if reason = "" || reason = "true" then some {}
    else some ⟨some reason⟩
  | list items => some ⟨some (",".intercalate items)⟩

end Value

/-- A key in the form that tables use: lower case and without underscores. -/
def normalKey (key : List Char) : List Char :=
  (key.filter (· ≠ '_')).flatMap Unicode.lowerOf

end GoSchema
