/-
# Loading configurations

A configuration comes from a file that is named, or from a file with the usual name, or is the
default one; what the command line says is put on top of it, and the result is checked.

Key definitions: `Config.parse`, `Overlay`, `Config.load`.
-/
import GoSchema.Config.Validity
import GoSchema.Config.Decode
import GoSchema.Config.Toml
import GoSchema.Files.Tree

namespace GoSchema

/-- What the command line says. -/
structure Overlay where
  /-- Roots that replace those of the file. -/
  roots : List String := []
  output : Option String := none
  strategy : Option FileGrouping := none
  deriving DecidableEq, Repr

/-- The configuration with the overrides put on top. -/
def Overlay.apply (o : Overlay) (c : Config) : Config :=
  { c with
    roots := if o.roots.isEmpty then c.roots else o.roots
    output := o.output.getD c.output
    strategy := o.strategy.getD c.strategy }

namespace Config

/-- The usual name of a configuration file. -/
def fileName : String := "gqlforge.toml"

/-- Whether a file is read as JSON. -/
def isJson (path : Path) : Bool :=
  match path.extension? with
  | some ext => Unicode.asciiLowerText ext.toList = "json".toList
  | none => false

/-- Reads a configuration from the text of a file. An empty JSON file gives the defaults. -/
def parse (path : Path) (text : String) : Except Fault Config :=
  let read :=
    if isJson path then
      if text = "" then some {} else (Json.parse text.toList).bind (ofDatum .json)
    else (Toml.parse text.toList).bind (ofDatum .toml)
  match read with
  | some c => .ok c
  | none => .error (.config (.malformed path))

/-- Reads a configuration file. -/
def ofFile (t : FileTree) (path : Path) : Except Fault Config :=
  match t.read path with
  | .error e => .error (.config (.unreadable path e))
  | .ok text => parse path text

/-- The configuration before the overrides. -/
def base (t : FileTree) (named : Option Path) (dir : Path) : Except Fault Config :=
  match named with
  | some path => ofFile t path
  | none =>
    let usual := dir.child fileName
    if t.isFile usual then ofFile t usual else .ok {}

/-- The configuration that is in force. -/
def load (t : FileTree) (named : Option Path) (dir : Path) (overlay : Overlay) :
    Except Fault Config :=
  match base t named dir with
  | .error e => .error e
  | .ok c =>
    let c := overlay.apply c
    c.check.map fun _ => c

end Config

end GoSchema
