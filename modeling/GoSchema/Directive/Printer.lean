/-
# Printed directives

The canonical form of a directive: its word, and its parameters in parentheses with commas between
them. A parameter is a key with a value after a colon, or a key that stands alone. Texts stand in
double quotes, with a backslash before every quote and backslash in them, and a list is a list of
such texts in brackets. A page is prose with directives in it.

Key definitions: `Printer.quoted`, `Value.source`, `Directive.Draft`, `Directive.Draft.print`,
`Prose`, `Page`, `Page.text`, `Page.directives`.
-/
import GoSchema.Directive.Parser

namespace GoSchema

namespace Printer

/-- A text with a backslash before every quote and backslash. -/
def escape (s : List Char) : List Char :=
  s.flatMap fun c => if c = '"' || c = '\\' then ['\\', c] else [c]

/-- A text in double quotes. -/
def quoted (s : String) : List Char := '"' :: escape s.toList ++ ['"']

@[simp] theorem escape_nil : escape [] = [] := rfl

theorem escape_cons (c : Char) (s : List Char) :
    escape (c :: s) = (if c = '"' || c = '\\' then ['\\', c] else [c]) ++ escape s := rfl

end Printer

/-- The source text of a value that is given for a key; a flag is its key. -/
def Value.source (key : String) : Value → List Char
  | flag => key.toList
  | text s => Printer.quoted s
  | list items => '[' :: Text.joinWith [','] (items.map Printer.quoted) ++ [']']

namespace Directive

/-- A directive that is to be written: a kind, and values for different keys of its table. -/
structure Draft where
  kind : Directive.Kind
  entries : List (String × Value)
  known : ∀ e ∈ entries, e.1 ∈ kind.keys
  distinct : (entries.map Prod.fst).Nodup
  /-- Only some keys may stand alone. -/
  flags : ∀ e ∈ entries, e.2 = .flag → e.1 ∈ kind.flagKeys
  /-- A key that is required is given a text that is not blank. -/
  complete : ∀ key ∈ kind.requiredKeys, ∃ e ∈ entries, e.1 = key ∧
    ∃ text ∈ e.2.toText?, Text.isBlankText text.toList = false

namespace Draft

/-- A parameter: a key with its value, or a key alone. -/
def printEntry (e : String × Value) : List Char :=
  match e.2 with
  | .flag => e.1.toList
  | v => e.1.toList ++ ':' :: v.source e.1

/-- The parameter that an entry stands for. -/
def paramOf (e : String × Value) : Param := ⟨e.1, e.2, String.ofList (e.2.source e.1)⟩

/-- The parameters in parentheses. -/
def printEntries (entries : List (String × Value)) : List Char :=
  '(' :: Text.joinWith [','] (entries.map printEntry) ++ [')']

/-- The directive in its canonical form. -/
def print (d : Draft) : List Char := d.kind.word.toList ++ printEntries d.entries

/-- The parameters of the directive. -/
def params (d : Draft) : List Param := d.entries.map paramOf

end Draft

end Directive

/-- Prose that a directive may follow: there is no `@` in it, and no letter, digit or underscore at
its end. -/
structure Prose where
  text : List Char
  noAt : '@' ∉ text
  ending : ∀ c, text.getLast? = some c → Unicode.isAlphanumeric c = false ∧ c ≠ '_'

/-- Prose with directives in it: prose before every directive, and what follows the last. -/
structure Page where
  parts : List (Prose × Directive.Draft)
  rest : List Char
  noAt : '@' ∉ rest

namespace Page

/-- The whole text. -/
def text (p : Page) : List Char :=
  p.parts.flatMap (fun part => part.1.text ++ part.2.print) ++ p.rest

/-- The text without its directives. -/
def prose (p : Page) : List Char := p.parts.flatMap (·.1.text) ++ p.rest

/-- The directives of parts of a text that stand after `before`, each with its place: from the end
of what is before it to its own end. -/
def placed (before : List Char) : List (Prose × Directive.Draft) → List Directive
  | [] => []
  | (prose, draft) :: more =>
    let start := before ++ prose.text
    let stop := start ++ draft.print
    ⟨draft.kind, draft.params, Text.byteLength start, Text.byteLength stop⟩ :: placed stop more

/-- The directives of the text, in order. -/
def directives (p : Page) : List Directive := placed [] p.parts

end Page

end GoSchema
