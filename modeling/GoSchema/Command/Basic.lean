/-
# Commands

What a command line asks for: to write the schema, to tell what would be written, to write a starter
configuration, or to show the version.

Key definitions: `Command`, `Command.parse`, `Command.run`, `Outcome`.
-/
import GoSchema.Command.Options
import GoSchema.Config.Starter
import GoSchema.Generation

namespace GoSchema

/-- The arguments of the commands that read a configuration. -/
structure SchemaArgs where
  config : Option String := none
  overlay : Overlay := {}
  /-- Show the summary as JSON. -/
  json : Bool := false
  deriving DecidableEq, Repr

/-- A command. -/
inductive Command
  | generate (args : SchemaArgs)
  | check (args : SchemaArgs)
  | init (path : Option String) (force : Bool)
  | version
  deriving DecidableEq, Repr

/-- What a command leaves: its exit code, and what it shows. -/
structure Outcome where
  exitCode : Nat
  stdout : String := ""
  stderr : String := ""
  deriving DecidableEq, Repr

namespace Command

/-- The option that every command and the program itself has. -/
def verbose : OptionRule := ⟨"verbose", some 'v', false, true⟩

/-- The options of the commands that read a configuration. -/
def schemaRules : List OptionRule :=
  [verbose, ⟨"config", some 'c', true, false⟩, ⟨"root", some 'r', true, true⟩,
    ⟨"output", some 'o', true, false⟩, ⟨"strategy", some 's', true, false⟩,
    ⟨"json", none, false, false⟩]

/-- The options of the command that writes a starter configuration. -/
def initRules : List OptionRule :=
  [verbose, ⟨"path", some 'p', true, false⟩, ⟨"force", some 'f', false, false⟩]

/-- The path given for an option; it must not be empty. -/
def path? (given : List Given) (long : String) : Option (Option String) :=
  match Options.values given long with
  | [] => some none
  | value :: _ => if value = "" then none else some (some value)

/-- The choice of files given. -/
def strategy? (given : List Given) : Option (Option FileGrouping) :=
  match Options.values given "strategy" with
  | [] => some none
  | value :: _ =>
    match Keyword.read? value with
    | .ok choice => some (some choice)
    | .error _ => none

/-- Reads the arguments of a command that reads a configuration. -/
def schemaArgs? (args : List String) : Option SchemaArgs := do
  let given ← Options.read schemaRules args
  let config ← path? given "config"
  let output ← path? given "output"
  let strategy ← strategy? given
  return ⟨config, ⟨Options.values given "root", output, strategy⟩,
    !(Options.values given "json").isEmpty⟩

/-- Reads the arguments of the command that writes a starter configuration. -/
def initArgs? (args : List String) : Option Command := do
  let given ← Options.read initRules args
  let path ← path? given "path"
  return .init path (!(Options.values given "force").isEmpty)

/-- Reads a command with its arguments. -/
def ofName? (name : String) (args : List String) : Option Command :=
  match name with
  | "generate" => (schemaArgs? args).map .generate
  | "check" => (schemaArgs? args).map .check
  | "init" => initArgs? args
  | _ => none

/-- Whether an argument asks for the version: the long option, or the short one, perhaps behind
common ones that share its dash. -/
def asksVersion (arg : String) : Bool :=
  match arg.toList with
  | '-' :: shorts => arg = "--version" || (shorts.dropWhile (· = 'v')).head? = some 'V'
  | _ => false

/-- Whether an argument consists of common options. -/
def isCommon (arg : String) : Bool := arg ≠ "--" && (Options.read [verbose] [arg]).isSome

/-- Reads a command line. Before the name of the command only the common option may stand. A request
for the version makes all that follows it irrelevant. -/
def parse : List String → Option Command
  | [] => none
  | arg :: args =>
    if asksVersion arg then some .version
    else if arg.toList.head? = some '-' then if isCommon arg then parse args else none
    else ofName? arg args

/-- The name and the version of the program. -/
def versionLine : String := "gqlforge 0.3.0\n"

/-- The outcome of a fault, with what was being done. -/
def failed (doing : String) (e : Fault) : Outcome :=
  ⟨e.exitCode, "", "error: " ++ doing ++ e.message ++ "\n"⟩

/-- What is shown of a summary. -/
def shown (planned json : Bool) (r : RunSummary) : Outcome :=
  ⟨0, if json then r.json ++ "\n" else r.lines planned, ""⟩

/-- Loads the configuration that the arguments name. -/
def loadConfig (t : FileTree) (args : SchemaArgs) : Except Fault Config :=
  Config.load t (args.config.map Path.mk) ⟨"."⟩ args.overlay

/-- Carries out a command. -/
def run (t : FileTree) : Command → FileTree × Outcome
  | .generate args =>
    match loadConfig t args with
    | .error e => (t, failed "invalid configuration: " e)
    | .ok config =>
      match Generation.run config t with
      | (t, .error e) => (t, failed "schema generation failed: " e)
      | (t, .ok summary) => (t, shown false args.json summary)
  | .check args =>
    match loadConfig t args with
    | .error e => (t, failed "invalid configuration: " e)
    | .ok config =>
      match Generation.check config t with
      | .error e => (t, failed "schema check failed: " e)
      | .ok summary => (t, shown true args.json summary)
  | .init path force =>
    match Starter.write t ⟨path.getD "."⟩ force with
    | (t, .error refusal) => (t, ⟨1, "", "error: " ++ refusal.message ++ "\n"⟩)
    | (t, .ok written) =>
      (t, ⟨0, "✓ Created " ++ written.text ++
        "\n\nAnnotate Go types with `// @gqlType`, then run `gqlforge generate`.\n", ""⟩)
  | .version => (t, ⟨0, versionLine, ""⟩)

/-- The places that a command names itself: its configuration file, or where to write one. -/
def namedPlaces : Command → List Path
  | .generate args | .check args => (args.config.map Path.mk).toList
  | .init path _ => (path.map Path.mk).toList
  | .version => []

/-- The places that the configuration of a command names: its roots without their patterns, and the
directory of the schema. -/
def configuredPlaces (t : FileTree) : Command → List Path
  | .generate args | .check args =>
    match loadConfig t args with
    | .error _ => []
    | .ok config => ⟨config.output⟩ :: config.roots.map RootSpec.baseOf
  | .init _ _ | .version => []

/-- The outcome of a command line that cannot be read. -/
def badUsage : Outcome := ⟨2, "", "error: unknown command or option\n"⟩

/-- Carries out a command line. -/
def runLine (t : FileTree) (args : List String) : FileTree × Outcome :=
  match parse args with
  | none => (t, badUsage)
  | some command => run t command

end Command

end GoSchema
