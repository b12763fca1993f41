/-
# Data of a configuration file

What JSON and TOML texts have in common: truth values, whole numbers, texts, lists, and tables with
their entries in the order of the text.

Key definitions: `Datum`.
-/

namespace GoSchema

/-- A value in a configuration file. -/
inductive Datum
  | null
  | bool (b : Bool)
  | whole (n : Nat)
  /-- A value that no setting takes: a negative or broken number, a time, an ill-formed text. -/
  | other
  | text (s : String)
  | list (items : List Datum)
  | table (entries : List (String × Datum))
  deriving Repr, Inhabited

end GoSchema
