/-
# JSON

A reader for JSON texts. A text with a lone half of a surrogate pair is no text that a setting can
take, and neither is a number that is not whole.

Key definitions: `Json.readString`, `Json.readNumber`, `Json.readValue`, `Json.parse`.
-/
import GoSchema.Config.Datum
import GoSchema.Text

namespace GoSchema.Json

open Unicode

/-- White space between the parts of a value. -/
def isSpace (c : Char) : Bool := c = ' ' || c = '\t' || c = '\n' || c = '\r'

/-- The text without leading white space. -/
def skip (s : List Char) : List Char := s.dropWhile isSpace

/-- The value of a hexadecimal digit. -/
def hexValue? (c : Char) : Option Nat :=
  let n := c.toNat
  if isAsciiDigit c then some (n - 48)
  else if 97 ≤ n && n ≤ 102 then some (n - 87)
  else if 65 ≤ n && n ≤ 70 then some (n - 55)
  else none

/-- The number that hexadecimal digits stand for. -/
def hexNumber? (digits : List Char) : Option Nat :=
  digits.foldlM (fun n c => (hexValue? c).map fun d => 16 * n + d) 0

/-- A unit of a string: a character, or half of a surrogate pair. -/
inductive StringUnit
  | char (c : Char)
  | half (n : Nat)
  deriving DecidableEq, Repr

/-- The unit that a code stands for. -/
def StringUnit.ofCode (n : Nat) : StringUnit :=
  if 0xD800 ≤ n && n < 0xE000 then .half n else .char (Char.ofNat n)

/-- The character that a letter after a backslash stands for. -/
def escaped? (c : Char) : Option Char :=
  [('"', '"'), ('\\', '\\'), ('/', '/'), ('b', Char.ofNat 8), ('f', Char.ofNat 12), ('n', '\n'),
    ('r', '\r'), ('t', '\t')].lookup c

/-- Reads the units of a string up to its closing quote; the opening one is already read. -/
def readUnits : List Char → Option (List StringUnit × List Char)
  | [] => none
  | '\\' :: 'u' :: a :: b :: c :: d :: rest => do
    let n ← hexNumber? [a, b, c, d]
    let (units, left) ← readUnits rest
    return (.ofCode n :: units, left)
  | '\\' :: c :: rest => do
    let e ← escaped? c
    let (units, left) ← readUnits rest
    return (.char e :: units, left)
  | c :: rest =>
    if c = '"' then some ([], rest)
    else if c.toNat < 32 || c = '\\' then none
    else (readUnits rest).map fun (units, left) => (.char c :: units, left)

/-- The text of units; surrogate halves must come in pairs, the high one first. -/
def textOf? : List StringUnit → Option (List Char)
  | [] => some []
  | .char c :: rest => (textOf? rest).map (c :: ·)
  | .half a :: .half b :: rest =>
    if a < 0xDC00 && 0xDC00 ≤ b then
      (textOf? rest).map (Char.ofNat (0x10000 + (a - 0xD800) * 0x400 + (b - 0xDC00)) :: ·)
    else none
  | .half _ :: _ => none

/-- Reads a string up to its closing quote; the opening one is already read. -/
def readString (s : List Char) : Option (Option String × List Char) :=
  (readUnits s).map fun (units, left) => ((textOf? units).map String.ofList, left)

/-- Drops a run of digits that must not be empty. -/
def dropDigits (s : List Char) : Option (List Char) :=
  match s with
  | [] => none
  | c :: rest => if isAsciiDigit c then some (rest.dropWhile isAsciiDigit) else none

/-- Drops the digits after a point, if there is one. -/
def dropFraction (s : List Char) : Option (List Char) :=
  match s with
  | '.' :: rest => dropDigits rest
  | _ => some s

/-- Drops an exponent, if there is one. -/
def dropExponent (s : List Char) : Option (List Char) :=
  match s with
  | e :: rest =>
    if e = 'e' || e = 'E' then
      match rest with
      | '+' :: digits | '-' :: digits => dropDigits digits
      | digits => dropDigits digits
    else some s
  | [] => some s

/-- The number that decimal digits stand for. -/
def decimalNumber (digits : List Char) : Nat :=
  digits.foldl (fun n c => 10 * n + (c.toNat - 48)) 0

/-- Reads a number. -/
def readNumber (s : List Char) : Option (Datum × List Char) :=
  let (negative, unsigned) :=
    match s with
    | '-' :: rest => (true, rest)
    | _ => (false, s)
  let digits := unsigned.takeWhile isAsciiDigit
  let rest := unsigned.dropWhile isAsciiDigit
  if digits.isEmpty || (digits.length > 1 && digits.head? = some '0') then none
  else
    match (dropFraction rest).bind dropExponent with
    | none => none
    | some left =>
      if left.length = rest.length && !negative then some (.whole (decimalNumber digits), left)
      else some (.other, left)

/-- Reads one of the three words. -/
def readWord (s : List Char) : Option (Datum × List Char) :=
  [("true", .bool true), ("false", .bool false), ("null", .null)].findSome? fun (word, d) =>
    (Text.dropLeading? word.toList s).map fun left => (d, left)

mutual

/-- Reads a value. The number bounds the nesting. -/
def readValue : Nat → List Char → Option (Datum × List Char)
  | 0, _ => none
  | n + 1, s =>
    match skip s with
    | '"' :: rest =>
      (readString rest).map fun (text, left) =>
        (match text with
          | some t => .text t
          | none => .other,
          left)
    | '[' :: rest =>
      match skip rest with
      | ']' :: left => some (.list [], left)
      | rest => (readItems n rest).map fun (items, left) => (.list items, left)
    | '\x7b' :: rest =>
      match skip rest with
      | '\x7d' :: left => some (.table [], left)
      | rest => (readEntries n rest).map fun (entries, left) => (.table entries, left)
    | rest => (readWord rest).or (readNumber rest)

/-- Reads the items of a list up to its closing bracket. -/
def readItems : Nat → List Char → Option (List Datum × List Char)
  | 0, _ => none
  | n + 1, s => do
    let (item, left) ← readValue n s
    match skip left with
    | ',' :: rest =>
      let (items, left) ← readItems n rest
      return (item :: items, left)
    | ']' :: left => return ([item], left)
    | _ => none

/-- Reads the entries of a table up to its closing brace. -/
def readEntries : Nat → List Char → Option (List (String × Datum) × List Char)
  | 0, _ => none
  | n + 1, s =>
    match skip s with
    | '"' :: rest => do
      let (key?, left) ← readString rest
      let key ← key?
      let (item, left) ←
        match skip left with
        | ':' :: rest => readValue n rest
        | _ => none
      match skip left with
      | ',' :: rest =>
        let (entries, left) ← readEntries n rest
        return ((key, item) :: entries, left)
      | '\x7d' :: left => return ([(key, item)], left)
      | _ => none
    | _ => none

end

/-- Reads a text that is one value. -/
def parse (s : List Char) : Option Datum :=
  match readValue (2 * s.length + 1) s with
  | some (d, left) => if (skip left).isEmpty then some d else none
  | none => none

end GoSchema.Json
