/-
# Faults

Everything that can stop a run: what it is about, the text that is shown, its class, and the exit
code of the class. The first fault ends a run.

Key definitions: `Fault`, `Fault.message`, `FaultClass`, `Fault.exitCode`.
-/
import GoSchema.FieldTag.Fault
import GoSchema.Path

namespace GoSchema

/-- Why an operation on files fails. -/
inductive OsFault
  | notFound
  | notDirectory
  | isDirectory
  | fileExists
  /-- The content of a file is no text. -/
  | notText
  deriving DecidableEq, Repr

/-- The text of a fault of the system. -/
def OsFault.message : OsFault → String
  | notFound => "No such file or directory (os error 2)"
  | notDirectory => "Not a directory (os error 20)"
  | isDirectory => "Is a directory (os error 21)"
  | fileExists => "File exists (os error 17)"
  | notText => "stream did not contain valid UTF-8"

/-- What can be wrong with an annotation of a declaration. -/
inductive AnnotationFault
  | directive (cause : DirectiveCause)
  | tag (fault : TagFault)
  /-- A directive in a place where its kind has no meaning. -/
  | misplaced (place : String)
  | repeated
  | onField
  | blankExtraField
  | needsRecord
  | needsNonRecord
  deriving DecidableEq, Repr

/-- The text of a fault in an annotation. -/
def AnnotationFault.message : AnnotationFault → String
  | directive cause => cause.message
  | tag fault => fault.message
  | misplaced place => "not allowed on " ++ place
  | repeated => "declared more than once"
  | onField => "not allowed on fields, use the `gql` struct tag"
  | blankExtraField => "`name` and `type` must not be empty"
  | needsRecord => "requires a struct type"
  | needsNonRecord => "requires a named non-struct type"

/-- What can be wrong with the marks of a kept region. -/
inductive RegionFault
  | nestedBegin
  | secondRegion
  | endWithoutBegin
  | beginWithoutEnd
  deriving DecidableEq, Repr

/-- The text of a fault in the marks of a kept region. -/
def RegionFault.message : RegionFault → String
  | nestedBegin => "nested begin marker"
  | secondRegion => "more than one preserved region"
  | endWithoutBegin => "end marker without begin marker"
  | beginWithoutEnd => "begin marker without end marker"

/-- Why a pattern cannot be read. -/
inductive PatternCause
  | starRun
  | starsInName
  | openRange
  deriving DecidableEq, Repr

/-- The text of the cause. -/
def PatternCause.message : PatternCause → String
  | starRun => "wildcards are either regular `*` or recursive `**`"
  | starsInName => "recursive wildcards must form a single path component"
  | openRange => "invalid range pattern"

/-- A pattern that cannot be read, and the place where reading stops, in characters. -/
structure PatternFault where
  position : Nat
  cause : PatternCause
  deriving DecidableEq, Repr

/-- The text of a fault in a pattern. -/
def PatternFault.message (f : PatternFault) : String :=
  "Pattern syntax error near position " ++ toString f.position ++ ": " ++ f.cause.message

/-- What can be wrong with a configuration. -/
inductive ConfigFault
  /-- The text of a configuration file is not well-formed, or a value has the wrong form. -/
  | malformed (path : Path)
  | unreadable (path : Path) (cause : OsFault)
  | noRoots
  | blankRoot
  | blankFileName
  | badExtension
  | emptySeparator
  | emptyInputToken
  | blankMarker
  | equalMarkers
  | markerWithLines
  | noPatterns
  | blankScalar (goType scalar : String)
  | discoveryPattern (pattern : String) (fault : PatternFault)
  | rootPattern (spec : String) (fault : PatternFault)
  deriving DecidableEq, Repr

/-- The text of a fault in a configuration. -/
def ConfigFault.message : ConfigFault → String
  | malformed path => path.text ++ ": malformed configuration"
  | unreadable path cause => "cannot read " ++ path.text ++ ": " ++ cause.message
  | noRoots => "at least one root is required"
  | blankRoot => "roots must not be empty strings"
  | blankFileName => "schema_file_name must not be empty"
  | badExtension => "extension must be non-empty and given without a leading dot"
  | emptySeparator => "namespace_separator must not be empty"
  | emptyInputToken => "naming.input_token must not be empty"
  | blankMarker => "keep markers must not be empty"
  | equalMarkers => "keep begin and end markers must differ"
  | markerWithLines => "keep markers must be single lines"
  | noPatterns => "auto_discovery.strategy = \"patterns\" requires auto_discovery.patterns"
  | blankScalar goType scalar => "invalid scalar mapping `" ++ goType ++ "` = `" ++ scalar ++ "`"
  | discoveryPattern pattern fault =>
    "invalid auto_discovery pattern `" ++ pattern ++ "`: " ++ fault.message
  | rootPattern spec fault => "invalid root pattern `" ++ spec ++ "`: " ++ fault.message

/-- A fault that ends a run. -/
inductive Fault
  | notWellFormed (path : Path)
  | noPackage (path : Path)
  /-- A malformed annotation `subject` of the declaration `owner`. -/
  | directive (path : Path) (owner subject : String) (cause : AnnotationFault)
  | unknownType (owner field typeName : String)
  | circularEmbedding (chain : List String)
  | deepEmbedding (owner : String) (limit : Nat)
  /-- Instances of generic types keep asking for new ones. A run with this fault never ends, so it is
  never shown. -/
  | endlessInstances
  | strayEnumValue (path : Path) (constant typeName : String)
  | enumWithoutValues (name : String)
  | repeatedField (block name first second : String)
  | repeatedBlock (name first second : String)
  | io (path : Path) (cause : OsFault)
  | region (path : Path) (cause : RegionFault)
  | config (cause : ConfigFault)
  deriving DecidableEq, Repr

/-- The classes of faults. -/
inductive FaultClass
  | scan
  | directive
  | resolution
  | naming
  | io
  | config
  deriving DecidableEq, Repr

/-- The exit code of a class. -/
def FaultClass.exitCode : FaultClass → Nat
  | config => 2
  | scan => 3
  | directive => 4
  | resolution => 5
  | naming => 6
  | io => 7

namespace Fault

/-- The text that is shown. -/
def message : Fault → String
  | notWellFormed path => path.text ++ ": syntax error"
  | noPackage path => path.text ++ ":1:1: syntax error: missing package clause"
  | directive path owner subject cause =>
    path.text ++ ": invalid " ++ subject ++ " on " ++ owner ++ ": " ++ cause.message
  | unknownType owner field typeName =>
    "unresolved type `" ++ typeName ++ "` for field " ++ owner ++ "." ++ field
  | circularEmbedding chain => "embedding cycle: " ++ " -> ".intercalate chain
  | deepEmbedding owner limit =>
    "embedding of " ++ owner ++ " exceeds depth " ++ toString limit
  | endlessInstances => "generic types have instances without end"
  | strayEnumValue path constant typeName =>
    path.text ++ ": enum value " ++ constant ++
      " is not linked to an enum (declared type `" ++ typeName ++ "`)"
  | enumWithoutValues name => "enum " ++ name ++ " has no values"
  | repeatedField block name first second =>
    "duplicate field `" ++ name ++ "` in " ++ block ++ ": from " ++ first ++ " and " ++ second
  | repeatedBlock name first second =>
    "duplicate schema name `" ++ name ++ "`: from " ++ first ++ " and " ++ second
  | io path cause => "I/O error at " ++ path.text ++ ": " ++ cause.message
  | region path cause => path.text ++ ": malformed preserved region: " ++ cause.message
  | config cause => "configuration error: " ++ cause.message

/-- The class of a fault. -/
def kind : Fault → FaultClass
  | notWellFormed _ | noPackage _ => .scan
  | directive .. => .directive
  | unknownType .. | circularEmbedding _ | deepEmbedding .. | endlessInstances |
    strayEnumValue .. | enumWithoutValues _ => .resolution
  | repeatedField .. | repeatedBlock .. => .naming
  | io .. | region .. => .io
  | config _ => .config

/-- The exit code of a fault. -/
def exitCode (f : Fault) : Nat := f.kind.exitCode

end Fault

end GoSchema
