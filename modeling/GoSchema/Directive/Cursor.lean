/-
# Reading by byte positions

The text of a comment is held in UTF-8, and its readers keep a byte position in it: they cut out
what follows the position, look at the first character and move on by its bytes. Three things can go
wrong here that readers of lists of characters have no words for. A text can be cut outside of its
ends or inside a character, a count of open brackets can fall below zero, and a loop can come to a
standstill, when one of its rounds ends where it began and is not the last one. Each of them breaks
the reading off, and none of them is a fault of the text.

Key definitions: `Text.slice?`, `Cursor.Break`, `Cursor.Stop`, `Cursor.loop`, `Cursor.value`,
`Cursor.params`, `Cursor.directives`, `Cursor.doc`.
-/
import GoSchema.Directive.Doc

namespace GoSchema

namespace Text

/-- What follows the first `n` bytes, if they are whole characters of the text. -/
def dropBytes? : List Char → Nat → Option (List Char)
  | s, 0 => some s
  | [], _ + 1 => none
  | c :: s, n + 1 => if c.utf8Size ≤ n + 1 then dropBytes? s (n + 1 - c.utf8Size) else none

/-- The first `n` bytes, if they are whole characters of the text. -/
def takeBytes? : List Char → Nat → Option (List Char)
  | _, 0 => some []
  | [], _ + 1 => none
  | c :: s, n + 1 =>
    if c.utf8Size ≤ n + 1 then (takeBytes? s (n + 1 - c.utf8Size)).map (c :: ·) else none

/-- The text from one byte position to another one, if both lie between characters of the text or at
its ends, and the second one not before the first. -/
def slice? (s : List Char) (start stop : Nat) : Option (List Char) :=
  if start ≤ stop then (dropBytes? s start).bind (takeBytes? · (stop - start)) else none

end Text

namespace Cursor

open Reader Unicode

variable {ε ε' σ α : Type}

/-- What breaks a reading off. -/
inductive Break
  /-- The text is cut outside of its ends or inside a character. -/
  | badCut
  /-- A count of open brackets falls below zero. -/
  | belowZero
  /-- A round of a loop that is not the last one does not move on in the text. -/
  | standstill
  deriving DecidableEq, Repr

/-- Why a reading gives no result: for a fault of the text, or because it breaks off. -/
inductive Stop (ε : Type)
  | fault (e : ε)
  | broken (b : Break)
  deriving DecidableEq, Repr

/-- The same with the fault in other terms. -/
def Stop.map (f : ε → ε') : Stop ε → Stop ε'
  | fault e => fault (f e)
  | broken b => broken b

/-! ### Positions -/

/-- The character at a position; there is none at the end. -/
def peek (src : List Char) (pos : Nat) : Except (Stop ε) (Option Char) :=
  match Text.dropBytes? src pos with
  | some rest => .ok rest.head?
  | none => .error (.broken .badCut)

/-- The character at a position and the position behind it. -/
def bump (src : List Char) (pos : Nat) : Except (Stop ε) (Option Char × Nat) := do
  match ← peek src pos with
  | some c => return (some c, pos + c.utf8Size)
  | none => return (none, pos)

/-- The text between two positions. -/
def slice (src : List Char) (start stop : Nat) : Except (Stop ε) (List Char) :=
  match Text.slice? src start stop with
  | some piece => .ok piece
  | none => .error (.broken .badCut)

/-- One bracket less is open. -/
def close : (depth : Nat) → Except (Stop ε) Nat
  | 0 => .error (.broken .belowZero)
  | depth + 1 => .ok depth

/-! ### Loops -/

/-- How a round of a loop ends: the loop goes on from a position, or it is done there. -/
inductive Round (σ α : Type)
  | again (state : σ) (pos : Nat)
  | done (result : α) (pos : Nat)

/-- Takes rounds over a text of `size` bytes until one is the last. Every other one has to move on
within the text. -/
def loop (size : Nat) (round : σ → Nat → Except (Stop ε) (Round σ α)) (state : σ) (pos : Nat) :
    Except (Stop ε) (α × Nat) :=
  match round state pos with
  | .error e => .error e
  | .ok (.done result stop) => .ok (result, stop)
  | .ok (.again next stop) =>
    if _h : pos < stop ∧ stop ≤ size then loop size round next stop
    else .error (.broken .standstill)
termination_by size - pos
decreasing_by omega

/-- A round that passes over one character of a class. -/
def passRound (src : List Char) (p : Char → Bool) (_ : Unit) (pos : Nat) :
    Except (Stop ε) (Round Unit Unit) := do
  match ← peek src pos with
  | some c =>
    if p c then
      let (_, pos) ← bump src pos
      return .again () pos
    else return .done () pos
  | none => return .done () pos

/-- The position behind all characters of a class. -/
def pass (src : List Char) (p : Char → Bool) (pos : Nat) : Except (Stop ε) Nat := do
  let (_, pos) ← loop (Text.byteLength src) (passRound src p) () pos
  return pos

/-- The name or key at a position, and the position behind it. -/
def ident (src : List Char) (pos : Nat) : Except (Stop ε) (List Char × Nat) := do
  let stop ← pass src Directive.isIdentChar pos
  let name ← slice src pos stop
  return (name, stop)

/-- A round over one entry of a sequence and the comma behind it. The sequence ends at the character
`last`; an entry is read at its first character and may turn out to be none. -/
def entryRound (src : List Char) (last : Char) (entry : Char → Nat → Except (Stop ε) (List α × Nat))
    (unended : ε) (unexpected : Char → ε) (entries : List α) (pos : Nat) :
    Except (Stop ε) (Round (List α) (List α)) := do
  let pos ← pass src isBlank pos
  match ← peek src pos with
  | none => throw (.fault unended)
  | some c =>
    if c = last then
      let (_, pos) ← bump src pos
      return .done entries pos
    else
      let (found, pos) ← entry c pos
      let pos ← pass src isBlank pos
      match ← peek src pos with
      | none => throw (.fault unended)
      | some d =>
        if d = ',' then
          let (_, pos) ← bump src pos
          return .again (entries ++ found) pos
        else if d = last then return .again (entries ++ found) pos
        else throw (.fault (unexpected d))

/-! ### Values -/

/-- A round over one character of a string, or over a backslash with the one behind it. -/
def quotedRound (src : List Char) (quote : Char) (text : List Char) (pos : Nat) :
    Except (Stop ValueFault) (Round (List Char) (List Char)) := do
  let (next, pos) ← bump src pos
  match next with
  | none => throw (.fault .unterminatedString)
  | some c =>
    if c = '\\' then
      let (escaped, pos) ← bump src pos
      match escaped with
      | none => throw (.fault .unterminatedString)
      | some d => return .again (text ++ [unescape d]) pos
    else if c = quote then return .done text pos
    else return .again (text ++ [c]) pos

/-- The string whose opening quote is at a position. -/
def quoted (src : List Char) (quote : Char) (pos : Nat) :
    Except (Stop ValueFault) (List Char × Nat) := do
  let (_, pos) ← bump src pos
  loop (Text.byteLength src) (quotedRound src quote) [] pos

/-- The number of open brackets behind a character of an unquoted list item. -/
def itemDepth (depth : Nat) (c : Char) : Except (Stop ValueFault) Nat :=
  if isQuote c then .error (.fault .quoteInListItem)
  else if c = '[' then .ok (depth + 1)
  else if c = ']' then close depth
  else .ok depth

/-- A round over one character of an unquoted list item with `depth` open brackets. -/
def itemRound (src : List Char) (depth pos : Nat) :
    Except (Stop ValueFault) (Round Nat Unit) := do
  match ← peek src pos with
  | none => return .done () pos
  | some c =>
    if depth = 0 && (c = ',' || c = ']') then return .done () pos
    else
      let depth ← itemDepth depth c
      let (_, pos) ← bump src pos
      return .again depth pos

/-- The list item that begins with `first` at a position; it may be missing. -/
def item (src : List Char) (first : Char) (pos : Nat) :
    Except (Stop ValueFault) (List String × Nat) := do
  if isQuote first then
    let (text, stop) ← quoted src first pos
    return ([String.ofList text], stop)
  else
    let (_, stop) ← loop (Text.byteLength src) (itemRound src) 0 pos
    let piece ← slice src pos stop
    return (if (Text.trim piece).isEmpty then [] else [String.ofList (Text.trim piece)], stop)

/-- The list whose opening bracket is at a position. -/
def list (src : List Char) (pos : Nat) : Except (Stop ValueFault) (List String × Nat) := do
  let (_, pos) ← bump src pos
  loop (Text.byteLength src)
    (entryRound src ']' (item src) .unterminatedList .expectedInList) [] pos

/-- A round over one character of the text that follows a list. -/
def trailingRound (src stops : List Char) (_ : Unit) (pos : Nat) :
    Except (Stop ValueFault) (Round Unit Unit) := do
  match ← peek src pos with
  | none => return .done () pos
  | some c =>
    if stops.contains c then return .done () pos
    else if isQuote c || c = '[' || c = '(' then throw (.fault .bracketAfterList)
    else
      let (_, pos) ← bump src pos
      return .again () pos

/-- The number of open brackets behind a character of an unquoted value. -/
def bareDepth (depth : Nat) (c : Char) : Except (Stop ValueFault) Nat :=
  if c = '(' || c = '[' then .ok (depth + 1)
  else if c = ')' || c = ']' then
    if depth = 0 then .error (.fault (.unbalanced c)) else .ok (depth - 1)
  else if isQuote c then .error (.fault .quoteInBareValue)
  else .ok depth

/-- A round over one character of an unquoted value with `depth` open brackets. At the end of the
text none may be open. -/
def bareRound (src stops : List Char) (depth pos : Nat) :
    Except (Stop ValueFault) (Round Nat Unit) := do
  match ← peek src pos with
  | none => if depth = 0 then return .done () pos else throw (.fault .unbalancedBrackets)
  | some c =>
    if depth = 0 && stops.contains c then return .done () pos
    else
      let depth ← bareDepth depth c
      let (_, pos) ← bump src pos
      return .again depth pos

/-- The unquoted value at a position. -/
def bare (src stops : List Char) (pos : Nat) : Except (Stop ValueFault) (Value × Nat) := do
  let (_, stop) ← loop (Text.byteLength src) (bareRound src stops) 0 pos
  let piece ← slice src pos stop
  return (.text (String.ofList (Text.trim piece)), stop)

/-- The value at a position where no white space stands. -/
def valueAt (src stops : List Char) (pos : Nat) : Except (Stop ValueFault) (Value × Nat) := do
  match ← peek src pos with
  | none => bare src stops pos
  | some c =>
    if isQuote c then
      let (text, stop) ← quoted src c pos
      return (.text (String.ofList text), stop)
    else if c = '[' then
      let (items, stop) ← list src pos
      let (_, stop) ← loop (Text.byteLength src) (trailingRound src stops) () stop
      return (.list items, stop)
    else bare src stops pos

/-- The value at a position with its source text, up to one of `stops` outside brackets, and the
position behind it and the white space that follows. -/
def value (src stops : List Char) (pos : Nat) :
    Except (Stop ValueFault) ((Value × List Char) × Nat) := do
  let start ← pass src isBlank pos
  let (value, stop) ← valueAt src stops start
  let raw ← slice src start stop
  let next ← pass src isBlank stop
  return ((value, Text.trim raw), next)

/-! ### Directives -/

/-- The parameter at a position. What turns out not to be a key is read again as a value. -/
def param (src : List Char) (start : Nat) :
    Except (Stop ValueFault) (Directive.WrittenParam × Nat) := do
  let (key, pos) ← ident src start
  let pos ← pass src isBlank pos
  let next ← peek src pos
  if !key.isEmpty && next = some ':' then
    let (_, pos) ← bump src pos
    let ((value, raw), pos) ← value src [',', ')'] pos
    return (⟨some key, value, raw⟩, pos)
  else
    let ((value, raw), pos) ← value src [',', ')'] start
    return (⟨none, value, raw⟩, pos)

/-- The parameter at a position as one entry. -/
def paramEntry (src : List Char) (_ : Char) (pos : Nat) :
    Except (Stop DirectiveCause) (List Directive.WrittenParam × Nat) := do
  let (p, stop) ← (param src pos).mapError (Stop.map .value)
  return ([p], stop)

/-- The parameters whose opening parenthesis is at a position. -/
def params (src : List Char) (pos : Nat) :
    Except (Stop DirectiveCause) (List Directive.WrittenParam × Nat) := do
  let (_, pos) ← bump src pos
  loop (Text.byteLength src)
    (entryRound src ')' (paramEntry src) .unbalancedParenthesis .expectedInParams) [] pos

/-- What follows the name of a directive, bound to the keys of its kind. -/
def directive (src : List Char) (kind : Directive.Kind) (pos : Nat) :
    Except (Stop DirectiveCause) (List Param × Nat) := do
  let next ← peek src pos
  let (ps, stop) ← if next = some '(' then params src pos else pure ([], pos)
  let bound ← (Directive.bindAll kind ps).mapError .fault
  return (bound, stop)

/-- Whether an unknown word has the look of a directive. Its first three bytes are cut off, if they
are whole characters. -/
def seems (name : List Char) : Except (Stop ε) Bool :=
  match Text.takeBytes? name 3 with
  | none => .ok false
  | some lead =>
    if asciiLowerText lead == "gql".toList then
      match Text.dropBytes? name 3 with
      | some rest => .ok (rest.head?.any isAsciiUpper)
      | none => .error (.broken .badCut)
    else .ok false

/-- A round over one character of prose, over a word after an `@`, or over a directive. The state
holds the directives so far and the character before the position. -/
def scanRound (src : List Char) (state : List Directive × Option Char) (pos : Nat) :
    Except (Stop DirectiveFault) (Round (List Directive × Option Char) (List Directive)) := do
  match ← peek src pos with
  | none => return .done state.1 pos
  | some c =>
    if c = '@' && Directive.atBoundary state.2 then
      let (_, start) ← bump src pos
      let (name, after) ← ident src start
      match Directive.Kind.ofName? name with
      | none =>
        if ← seems name then throw (.fault ⟨String.ofList ('@' :: name), pos, .unknownDirective⟩)
        else return .again (state.1, some (name.getLast?.getD '@')) after
      | some kind =>
        let (params, stop) ←
          (directive src kind after).mapError (Stop.map (⟨kind.word, pos, ·⟩))
        return .again (state.1 ++ [⟨kind, params, pos, stop⟩], some ')') stop
    else
      let (prev, next) ← bump src pos
      return .again (state.1, prev) next

/-- The directives of a text, in order. -/
def directives (src : List Char) : Except (Stop DirectiveFault) (List Directive) := do
  let (ds, _) ← loop (Text.byteLength src) (scanRound src) ([], none) 0
  return ds

/-- The text from a position on without some directives that follow. -/
def around (src : List Char) (start : Nat) : List Directive → Except (Stop ε) (List Char)
  | [] => slice src start (Text.byteLength src)
  | d :: ds => do
    let piece ← slice src start d.offset
    let more ← around src d.stop ds
    return piece ++ more

/-- What a doc comment says. -/
def doc (src : List Char) : Except (Stop DirectiveFault) DocComment := do
  let ds ← directives src
  let text ← around src 0 ds
  return ⟨ds, DocComment.proseOf text⟩

end Cursor

end GoSchema
