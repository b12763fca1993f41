/-
# Configurations from data

A table gives settings by name and a list gives them by place, in the order in which they are
declared; a setting that is not given keeps its default. Unknown names do not count. A setting must
have the right form, and no setting may be given twice.

Key definitions: `Slot`, `DataFormat`, `Slot.read`, `Config.ofDatum`.
-/
import GoSchema.Config.Datum
import GoSchema.Config.Keyword

namespace GoSchema

/-- Where the file formats differ. -/
structure DataFormat where
  /-- A list may be longer than the settings that it gives. -/
  allowsSurplus : Bool
  /-- Whether this value stands for nothing beside the name of a choice. -/
  isUnit : Datum → Bool

/-- In JSON a choice has `null` beside it. -/
def DataFormat.json : DataFormat where
  allowsSurplus := false
  isUnit
    | .null => true
    | _ => false

/-- In TOML a choice has an empty table or list beside it. -/
def DataFormat.toml : DataFormat where
  allowsSurplus := true
  isUnit
    | .table [] | .list [] => true
    | _ => false

namespace Datum

def toText? : Datum → Option String
  | text s => some s
  | _ => none

def toBool? : Datum → Option Bool
  | bool b => some b
  | _ => none

/-- A number that fits into 64 bits. -/
def toSize? : Datum → Option Nat
  | whole n => if n < UInt64.size then some n else none
  | _ => none

def toTexts? : Datum → Option (List String)
  | list items => items.mapM toText?
  | _ => none

/-- A choice, as a word or as a table with that word as its only name. -/
def toChoice? {α : Type} [Keyword α] (form : DataFormat) : Datum → Option α
  | text s => Keyword.readExactly? s
  | table [(s, d)] => if form.isUnit d then Keyword.readExactly? s else none
  | _ => none

end Datum

/-- Adds an entry to a list sorted by key; a later entry of a key replaces an earlier one. -/
def insertSorted (key value : String) : List (String × String) → List (String × String)
  | [] => [(key, value)]
  | (k, v) :: rest =>
    if key = k then (key, value) :: rest
    else if key < k then (key, value) :: (k, v) :: rest
    else (k, v) :: insertSorted key value rest

/-- A table of texts, sorted by key. -/
def Datum.toTextTable? : Datum → Option (List (String × String))
  | table entries =>
    entries.foldlM (fun sorted (key, d) => d.toText?.map fun s => insertSorted key s sorted) []
  | _ => none

/-- A setting: its name, and how its value is taken over. -/
structure Slot (α : Type) where
  key : String
  take : α → Datum → Option α

namespace Slot

/-- A setting that is read by `read?` and stored by `store`. -/
def of {α β : Type} (key : String) (read? : Datum → Option β) (store : α → β → α) : Slot α :=
  ⟨key, fun a d => (read? d).map (store a)⟩

/-- Takes over the entries of a table; `given` are the names so far. -/
def readEntries {α : Type} (slots : List (Slot α)) (given : List String) (a : α) :
    List (String × Datum) → Option α
  | [] => some a
  | (key, d) :: more =>
    match slots.find? (·.key = key) with
    | none => readEntries slots given a more
    | some slot =>
      if given.contains key then none
      else (slot.take a d).bind fun a => readEntries slots (key :: given) a more

/-- Takes over the items of a list. -/
def readItems {α : Type} (form : DataFormat) (a : α) :
    List (Slot α) → List Datum → Option α
  | _, [] => some a
  | [], _ :: _ => if form.allowsSurplus then some a else none
  | slot :: slots, d :: ds => (slot.take a d).bind fun a => readItems form a slots ds

/-- Takes over the settings of a table or a list. -/
def read {α : Type} (form : DataFormat) (slots : List (Slot α)) (a : α) : Datum → Option α
  | .table entries => readEntries slots [] a entries
  | .list items => readItems form a slots items
  | _ => none

end Slot

open Datum

/-- The settings for names. -/
def NamingRules.slots : List (Slot NamingRules) :=
  [.of "strip_prefixes" toTexts? fun r v => { r with stripPrefixes := v },
    .of "strip_suffixes" toTexts? fun r v => { r with stripSuffixes := v },
    .of "type_prefix" toText? fun r v => { r with typePrefix := v },
    .of "type_suffix" toText? fun r v => { r with typeSuffix := v },
    .of "input_prefix" toText? fun r v => { r with inputPrefix := v },
    .of "input_suffix" toText? fun r v => { r with inputSuffix := v },
    .of "input_token" toText? fun r v => { r with inputToken := v }]

/-- The settings for discovery. -/
def DiscoveryRules.slots (form : DataFormat) : List (Slot DiscoveryRules) :=
  [.of "strategy" (toChoice? form) fun r v => { r with strategy := v },
    .of "max_depth" toSize? fun r v => { r with maxDepth := v },
    .of "patterns" toTexts? fun r v => { r with patterns := v }]

/-- The settings for the kept region. -/
def KeepRules.slots (form : DataFormat) : List (Slot KeepRules) :=
  [.of "begin_marker" toText? fun r v => { r with beginMarker := v },
    .of "end_marker" toText? fun r v => { r with endMarker := v },
    .of "position" (toChoice? form) fun r v => { r with position := v }]

namespace Config

/-- All settings. -/
def slots (form : DataFormat) : List (Slot Config) :=
  [.of "roots" toTexts? fun c v => { c with roots := v },
    .of "output" toText? fun c v => { c with output := v },
    .of "strategy" (toChoice? form) fun c v => { c with strategy := v },
    .of "schema_file_name" toText? fun c v => { c with schemaFileName := v },
    .of "extension" toText? fun c v => { c with extension := v },
    .of "field_case" (toChoice? form) fun c v => { c with fieldCase := v },
    .of "use_json_tag" toBool? fun c v => { c with useJsonTag := v },
    .of "use_gqlgen_directives" toBool? fun c v => { c with modelDirectives := v },
    .of "doc_descriptions" toBool? fun c v => { c with docDescriptions := v },
    .of "map_id_fields" toBool? fun c v => { c with mapIdFields := v },
    .of "include_empty_types" toBool? fun c v => { c with includeEmptyTypes := v },
    .of "skip_existing" toBool? fun c v => { c with skipExisting := v },
    .of "namespace_separator" toText? fun c v => { c with namespaceSeparator := v },
    .of "naming" (Slot.read form NamingRules.slots {}) fun c v => { c with naming := v },
    .of "scalars" toTextTable? fun c v => { c with scalars := v },
    .of "auto_discovery" (Slot.read form (DiscoveryRules.slots form) {}) fun c v =>
      { c with discovery := v },
    .of "keep" (Slot.read form (KeepRules.slots form) {}) fun c v => { c with keep := v }]

/-- The configuration that a value describes. -/
def ofDatum (form : DataFormat) (d : Datum) : Option Config := Slot.read form (slots form) {} d

end Config

end GoSchema
