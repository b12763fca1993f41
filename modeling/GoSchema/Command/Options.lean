/-
# Options of a command line

Options are written long (`--root x`, `--root=x`) or short (`-r x`, `-rx`, `-r=x`), and short ones
without a value may share a dash. A value does not start with a dash, except a dash alone. Nothing
but options is allowed.

Key definitions: `OptionRule`, `Options.read`.
-/
import GoSchema.Text

namespace GoSchema

/-- An option of a command. -/
structure OptionRule where
  long : String
  short : Option Char
  takesValue : Bool
  /-- Whether the option may be given more than once. -/
  repeats : Bool
  deriving DecidableEq, Repr

/-- An option as given, by its long name. -/
structure Given where
  long : String
  value : String
  deriving DecidableEq, Repr

namespace Options

/-- Reads the short options that share a dash; the last one may still need its value. -/
def readShorts (rules : List OptionRule) :
    List Char → Option (List Given × Option OptionRule)
  | [] => some ([], none)
  | c :: rest =>
    match rules.find? (·.short = some c) with
    | none => none
    | some rule =>
      if rule.takesValue then
        match rest with
        | [] => some ([], some rule)
        | '=' :: value => some ([⟨rule.long, String.ofList value⟩], none)
        | value => some ([⟨rule.long, String.ofList value⟩], none)
      else
        (readShorts rules rest).map fun (more, pending) => (⟨rule.long, ""⟩ :: more, pending)

/-- Reads a long option, which may still need its value. -/
def readLong (rules : List OptionRule) (s : List Char) :
    Option (List Given × Option OptionRule) :=
  let name := String.ofList (s.takeWhile (· ≠ '='))
  match rules.find? (·.long = name) with
  | none => none
  | some rule =>
    match s.dropWhile (· ≠ '=') with
    | [] => some (if rule.takesValue then ([], some rule) else ([⟨name, ""⟩], none))
    | _ :: value =>
      if rule.takesValue then some ([⟨name, String.ofList value⟩], none) else none

/-- Reads the arguments that are left; `pending` is an option that needs its value. -/
def readFrom (rules : List OptionRule) (pending : Option OptionRule) :
    List String → Option (List Given)
  | [] => if pending.isNone then some [] else none
  | arg :: args =>
    match arg.toList, pending with
    | ['-', '-'], none => if args.isEmpty then some [] else none
    | '-' :: '-' :: name, none =>
      (readLong rules name).bind fun (given, pending) =>
        (readFrom rules pending args).map (given ++ ·)
    | '-' :: c :: shorts, none =>
      (readShorts rules (c :: shorts)).bind fun (given, pending) =>
        (readFrom rules pending args).map (given ++ ·)
    | '-' :: _ :: _, some _ => none
    | _, some rule => (readFrom rules none args).map (⟨rule.long, arg⟩ :: ·)
    | _, none => none

/-- The values given for an option. -/
def values (given : List Given) (long : String) : List String :=
  (given.filter (·.long = long)).map Given.value

/-- Reads the arguments of a command; an option that does not repeat is given at most once. -/
def read (rules : List OptionRule) (args : List String) : Option (List Given) :=
  (readFrom rules none args).filter fun given =>
    rules.all fun rule => rule.repeats || (values given rule.long).length ≤ 1

end Options

end GoSchema
