/-
# Comments as documentation

The documentation of a declaration is the run of comments right above it, without a blank line in
between, and for fields and grouped constants also the comment that follows on the same line. A
comment at the end of the previous declaration's line belongs to that declaration.

Key definitions: `Comment.text`, `Item`, `docAbove`, `docBehind`, `bothDocs`.
-/
import GoSchema.Source.Token
import GoSchema.Text

namespace GoSchema.Source

/-- A line of a block comment without the blanks around it and a star in front. -/
def withoutStar (line : List Char) : List Char :=
  match Text.trim line with
  | '*' :: rest => Text.trimStart rest
  | rest => rest

/-- The text of a comment without its markers. -/
def Comment.text (c : Comment) : List Char :=
  match Text.dropLeading? "//".toList c.raw with
  | some line => Text.trimEnd ((Text.dropLeading? [' '] line).getD line)
  | none =>
    let inner :=
      ((Text.dropLeading? "/*".toList c.raw).bind (Text.dropTrailing? "*/".toList)).getD c.raw
    Text.trim (Text.joinWith ['\n'] ((Text.lines inner).map withoutStar))

/-- A part of a sequence, with the comments since the part before it, or since the opening bracket,
and the rows it spans. -/
structure Item (α : Type) where
  before : List Comment
  value : α
  row : Nat
  endRow : Nat

/-- The comments, last one first, that end right above `row`, in their order. A comment that starts
on the row `taken` stands at the end of what comes before; only the first comment can. -/
def attached (taken : Option Nat) (row : Nat) : List Comment → List Comment
  | [] => []
  | c :: earlier =>
    if c.endRow + 1 ≠ row then []
    else if earlier.isEmpty && taken = some c.row then []
    else attached taken c.row earlier ++ [c]

/-- The documentation above an item; `previousEnd` is the last row of the item before it. -/
def docAbove {α : Type} (previousEnd : Option Nat) (item : Item α) : Option String :=
  match attached previousEnd item.row item.before.reverse with
  | [] => none
  | comments => some (String.ofList (Text.joinWith ['\n'] (comments.map Comment.text)))

/-- The documentation behind an item; `after` holds the comments up to the next item. -/
def docBehind {α : Type} (item : Item α) (after : List Comment) : Option String :=
  (after.head?.filter (·.row = item.endRow)).map fun c => String.ofList c.text

/-- Both documentations, on separate lines. -/
def bothDocs : Option String → Option String → Option String
  | some a, some b => some (a ++ "\n" ++ b)
  | some a, none => some a
  | none, b => b

/-- The items with the last row of the item before each and the comments after each; `final` holds
the comments after the last one. -/
def inContext {α : Type} (final : List Comment) (previousEnd : Option Nat) :
    List (Item α) → List (Item α × Option Nat × List Comment)
  | [] => []
  | [item] => [(item, previousEnd, final)]
  | item :: next :: items =>
    (item, previousEnd, next.before) :: inContext final (some item.endRow) (next :: items)

end GoSchema.Source
