/-
# Checks on configurations

What a configuration must satisfy beyond its form, in the order in which it is checked.

Key definitions: `Config.check`, `Config.checkAll`.
-/
import GoSchema.Catalog.Reach
import GoSchema.Config.Basic

namespace GoSchema.Config

/-- Whether a text holds nothing but white space. -/
def isBlank (s : String) : Bool := Text.isBlankText s.toList

/-- The checks that do not concern scalars, each with its fault. -/
def checks (c : Config) : List (Bool × ConfigFault) :=
  let first := Text.trim c.keep.beginMarker.toList
  let last := Text.trim c.keep.endMarker.toList
  [(c.roots.isEmpty, .noRoots),
    (c.roots.any isBlank, .blankRoot),
    (isBlank c.schemaFileName, .blankFileName),
    (isBlank c.extension || c.extension.toList.head? = some '.', .badExtension),
    (c.namespaceSeparator = "", .emptySeparator),
    (c.naming.inputToken = "", .emptyInputToken),
    (first.isEmpty || last.isEmpty, .blankMarker),
    (first = last, .equalMarkers),
    (first.contains '\n' || last.contains '\n', .markerWithLines),
    (c.discovery.strategy = .patterns && c.discovery.patterns.isEmpty, .noPatterns)]

/-- The first scalar whose mapping is blank on either side. -/
def blankScalar? (c : Config) : Option ConfigFault :=
  (c.scalars.find? fun (goType, scalar) => isBlank goType || isBlank scalar).map
    fun (goType, scalar) => .blankScalar goType scalar

/-- What is wrong with a configuration, if anything is. -/
def fault? (c : Config) : Option ConfigFault :=
  (c.checks.findSome? fun (fails, fault) => if fails then some fault else none).or c.blankScalar?

/-- Checks a configuration. -/
def check (c : Config) : Except Fault Unit :=
  match c.fault? with
  | some fault => .error (.config fault)
  | none => .ok ()

/-- Checks a configuration and the patterns in it. -/
def checkAll (c : Config) : Except Fault Unit :=
  match c.check with
  | .error e => .error e
  | .ok () => (readPatterns c.discovery.patterns).map fun _ => ()

end GoSchema.Config
