/-
# Parsers on tokens

A parser takes tokens from the front of a list or fails. Alternatives start again at the same place.

Key definitions: `Parse`, `op`, `keyword`, `name`, `many`, `commaList`, `spanned`, `items`.
-/
import GoSchema.Source.Comment

namespace GoSchema.Source

/-- A parser of tokens. -/
abbrev Parse (α : Type) : Type := StateT (List Token) Option α

namespace Parse

/-- Whether the next token satisfies `p`; false at the end. -/
def sees (p : Token → Bool) : Parse Bool := fun ts => some ((ts.head?.map p).getD false, ts)

/-- The next token, which stays. -/
def peek : Parse Token := fun ts => ts.head?.map fun t => (t, ts)

/-- Takes the next token if it satisfies `p`. -/
def token (p : Token → Bool) : Parse Token
  | t :: ts => if p t then some (t, ts) else none
  | [] => none

def op (s : String) : Parse Unit := discard (token (·.isOp s))

def keyword (s : String) : Parse Unit := discard (token (·.isKeyword s))

def name : Parse Token := token Token.isName

def terminator : Parse Token := token Token.isTerminator

def seesOp (s : String) : Parse Bool := sees (·.isOp s)

def seesKeyword (s : String) : Parse Bool := sees (·.isKeyword s)

/-- Reads what `p` reads, or nothing. -/
def opt {α : Type} (p : Parse α) : Parse (Option α) := (some <$> p) <|> pure none

/-- Reads as often as `p` can, up to a bound. -/
def many {α : Type} (p : Parse α) : Nat → Parse (List α)
  | 0 => pure []
  | n + 1 => do
    match ← opt p with
    | none => pure []
    | some x => return x :: (← many p n)

/-- Reads one or more with commas between them. -/
def commaList {α : Type} (p : Parse α) (n : Nat) : Parse (List α) := do
  let first ← p
  let others ← many (op "," *> p) n
  return first :: others

/-- Reads any number with commas between them and perhaps one at the end. -/
def commaEnded {α : Type} (p : Parse α) (n : Nat) : Parse (List α) := do
  match ← opt (commaList p n) with
  | none => pure []
  | some xs => do
    discard (opt (op ","))
    pure xs

/-- The result of `p` and the tokens that it takes. -/
def spanned {α : Type} (p : Parse α) : Parse (α × List Token) := fun ts =>
  (p ts).map fun (a, left) => ((a, ts.take (ts.length - left.length)), left)

/-- The source text that `p` reads. -/
def sourceOf {α : Type} (p : Parse α) : Parse String := do
  let (_, ts) ← spanned p
  return Token.source ts

/-- Reads one part of a sequence, which another token must follow; `gap` holds the comments between
the part before it and the next token. An empty part ends where it begins. -/
def item {α : Type} (gap : List Comment) (p : Parse α) : Parse (Item α) := do
  let first ← peek
  let value ← p
  let next ← peek
  return ⟨gap ++ first.comments, value, first.row, max first.row next.leadRow⟩

/-- Reads items with terminators between them up to the closing bracket, and the comments that
follow the last item. -/
def items {α : Type} (p : Parse α) (close : String) (gap : List Comment) :
    Nat → Parse (List (Item α) × List Comment)
  | 0 => failure
  | n + 1 => do
    let t ← peek
    if t.isOp close then
      op close
      return ([], gap ++ t.comments)
    else
      let first ← item gap p
      let t ← peek
      if t.isTerminator then
        discard terminator
        let (others, final) ← items p close t.comments n
        return (first :: others, final)
      else
        op close
        return ([first], t.comments)

end Parse

end GoSchema.Source
