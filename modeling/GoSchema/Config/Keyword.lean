/-
# Keywords of the configuration

Each choice has one canonical word and may have aliases. On a command line a word is read without
regard to case and surrounding white space; in a configuration file it must be written exactly.

Key definitions: `Keyword`, `Keyword.read?`, `Keyword.readExactly?`.
-/
import GoSchema.Config.Basic
import GoSchema.Text
import GoSchema.Unicode.CaseMap

namespace GoSchema

/-- A word that stands for none of the choices. -/
structure UnknownWord where
  /-- What was to be chosen. -/
  subject : String
  /-- The word, trimmed and in lower case. -/
  word : String
  deriving DecidableEq, Repr

/-- The text of the error. -/
def UnknownWord.message (e : UnknownWord) : String :=
  "unknown " ++ e.subject ++ ": " ++ e.word

/-- A choice among words. -/
class Keyword (α : Type) where
  /-- What is chosen, for the error text. -/
  subject : String
  /-- The words that a reader accepts with their meaning, the canonical word of each first. -/
  words : List (String × α)
  /-- The words that a configuration file accepts. -/
  fileWords : List (String × α)
  /-- The canonical word. -/
  word : α → String

namespace Keyword

/-- Reads a word as a command line gives it. -/
def read? {α : Type} [Keyword α] (s : String) : Except UnknownWord α :=
  let word := String.ofList (Unicode.asciiLowerText (Text.trim s.toList))
  match (words (α := α)).lookup word with
  | some choice => .ok choice
  | none => .error ⟨subject α, word⟩

/-- Reads a word as a configuration file gives it. -/
def readExactly? {α : Type} [Keyword α] (s : String) : Option α :=
  (fileWords (α := α)).lookup s

end Keyword

instance : Keyword FileGrouping where
  subject := "output strategy"
  words := [("single", .single), ("multiple", .multiple), ("package", .package),
    ("namespace", .package)]
  fileWords := [("single", .single), ("multiple", .multiple), ("package", .package)]
  word
    | .single => "single"
    | .multiple => "multiple"
    | .package => "package"

instance : Keyword FieldStyle where
  subject := "field case"
  words := [("camel", .camel), ("snake", .snake), ("pascal", .pascal), ("original", .asWritten),
    ("none", .asWritten)]
  fileWords := [("camel", .camel), ("snake", .snake), ("pascal", .pascal),
    ("original", .asWritten), ("none", .asWritten)]
  word
    | .camel => "camel"
    | .snake => "snake"
    | .pascal => "pascal"
    | .asWritten => "original"

instance : Keyword DiscoveryMode where
  subject := "discovery strategy"
  words := [("none", .off), ("referenced", .referenced), ("all", .all), ("patterns", .patterns)]
  fileWords := [("none", .off), ("referenced", .referenced), ("all", .all),
    ("patterns", .patterns)]
  word
    | .off => "none"
    | .referenced => "referenced"
    | .all => "all"
    | .patterns => "patterns"

instance : Keyword RegionPlace where
  subject := "keep position"
  words := [("top", .top), ("bottom", .bottom)]
  fileWords := [("top", .top), ("bottom", .bottom)]
  word
    | .top => "top"
    | .bottom => "bottom"

end GoSchema
