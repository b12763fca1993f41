/-
# Configuration

What a run may be told: where the sources are, where the schema goes and how it is cut into files,
how names are derived, which types are discovered, and which region of an existing file is kept.
Every value has a default. The checks that defaults cannot guarantee are in `Config.Validity`.

Key definitions: `Config`, `NamingRules`, `DiscoveryRules`, `KeepRules`.
-/

namespace GoSchema

/-- How the blocks of a schema are spread over files. -/
inductive FileGrouping
  /-- Everything in one file. -/
  | single
  /-- One file per block. -/
  | multiple
  /-- One file per namespace. -/
  | package
  deriving DecidableEq, Repr

/-- The style of field names that no tag gives. -/
inductive FieldStyle
  | camel
  | snake
  | pascal
  /-- The Go name unchanged. -/
  | asWritten
  deriving DecidableEq, Repr

/-- Which types without a directive are pulled into the schema. -/
inductive DiscoveryMode
  /-- None at all. -/
  | off
  /-- The types in reach of an annotated one. -/
  | referenced
  /-- Every struct, and what is in reach. -/
  | all
  /-- The structs whose names match a pattern. -/
  | patterns
  deriving DecidableEq, Repr

/-- Where the kept region stands in a file. -/
inductive RegionPlace
  | top
  | bottom
  deriving DecidableEq, Repr

/-- How the names of types, inputs and enums are derived from Go names. -/
structure NamingRules where
  /-- The first of these that starts a Go name is removed. -/
  stripPrefixes : List String := []
  /-- The first of these that ends a Go name is removed. -/
  stripSuffixes : List String := []
  typePrefix : String := ""
  typeSuffix : String := ""
  inputPrefix : String := ""
  inputSuffix : String := ""
  /-- Put after every derived input name, before the suffix. -/
  inputToken : String := "Input"
  deriving DecidableEq, Repr

/-- How types without a directive are found. -/
structure DiscoveryRules where
  strategy : DiscoveryMode := .off
  /-- The number of steps from an annotated type; zero sets no limit. -/
  maxDepth : Nat := 3
  /-- Patterns over Go type names. -/
  patterns : List String := []
  deriving DecidableEq, Repr

/-- The lines that delimit the kept region, and its place. -/
structure KeepRules where
  beginMarker : String := "# @gqlKeepBegin"
  endMarker : String := "# @gqlKeepEnd"
  position : RegionPlace := .bottom
  deriving DecidableEq, Repr

/-- A complete configuration. -/
structure Config where
  /-- Files, directories and patterns that name the sources. -/
  roots : List String := []
  /-- The directory that the schema is written to. -/
  output : String := "graph/schema"
  strategy : FileGrouping := .single
  /-- The file name under strategy `single`. -/
  schemaFileName : String := "schema.graphqls"
  /-- The file extension, without a dot, under the other strategies. -/
  extension : String := "graphqls"
  fieldCase : FieldStyle := .camel
  /-- Take a field name from the `json` tag when the `gql` tag gives none. -/
  useJsonTag : Bool := true
  /-- Write the directives `@goModel` and `@goField`. -/
  modelDirectives : Bool := false
  /-- Use the prose of doc comments as descriptions. -/
  docDescriptions : Bool := true
  /-- Give string and integer fields called `ID` the type `ID`. -/
  mapIdFields : Bool := true
  /-- Keep types and inputs that have no fields. -/
  includeEmptyTypes : Bool := false
  /-- Leave files that exist as they are. -/
  skipExisting : Bool := false
  /-- What separates the segments of a namespace. -/
  namespaceSeparator : String := "/"
  naming : NamingRules := {}
  /-- Scalars for Go types, sorted by Go type and with distinct keys. -/
  scalars : List (String × String) := []
  discovery : DiscoveryRules := {}
  keep : KeepRules := {}
  deriving DecidableEq, Repr

end GoSchema
