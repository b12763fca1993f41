/-
# TOML

A reader for TOML documents: keys and values on lines of their own, under headers of tables.

Key definitions: `Toml.readKey`, `Toml.readValue`, `Toml.parse`.
-/
import GoSchema.Config.Json
import GoSchema.Config.TomlTable

namespace GoSchema.Toml

open Unicode

/-! ### Blanks and comments -/

def isSpace (c : Char) : Bool := c = ' ' || c = '\t'

/-- The text without leading blanks. -/
def skip (s : List Char) : List Char := s.dropWhile isSpace

/-- Whether a character may stand in a comment or a string. -/
def isPlain (c : Char) : Bool := c = '\t' || (32 ≤ c.toNat && c.toNat ≠ 127)

/-- The text without leading blanks, line ends and comments. -/
def skipLines (inComment : Bool) : List Char → Option (List Char)
  | [] => some []
  | '\r' :: '\n' :: rest => skipLines false rest
  | c :: rest =>
    if c = '\n' then skipLines false rest
    else if inComment then (if isPlain c then skipLines true rest else none)
    else if isSpace c then skipLines false rest
    else if c = '#' then skipLines true rest
    else some (c :: rest)

/-- Whether nothing but blanks and a comment stands before the end of the line. -/
def endsLine (s : List Char) : Bool :=
  match skip s with
  | [] => true
  | '\r' :: '\n' :: _ => true
  | c :: _ => c = '\n' || c = '#'

/-! ### Strings -/

/-- Whether a code stands for a character. -/
def charOfCode? (n : Nat) : Option Char := if n.isValidChar then some (Char.ofNat n) else none

/-- The characters that letters after a backslash stand for. -/
def simpleEscapes : List (Char × Char) :=
  [('b', Char.ofNat 8), ('t', '\t'), ('n', '\n'), ('f', Char.ofNat 12), ('r', '\r'),
    ('e', Char.ofNat 27), ('"', '"'), ('\\', '\\')]

/-- The number of hexadecimal digits that follow a letter after a backslash. -/
def codeLengths : List (Char × Nat) := [('x', 2), ('u', 4), ('U', 8)]

/-- The character that a code of a fixed number of digits stands for. -/
def codeAt? (count : Nat) (s : List Char) : Option Char :=
  if (s.take count).length = count then (Json.hexNumber? (s.take count)).bind charOfCode? else none

/-- What remains to be done with the next characters of a string. -/
inductive Pending
  | nothing
  /-- They belong to an escape that has been taken over. -/
  | pass (count : Nat)
  /-- They are white space after a backslash at the end of a line. -/
  | blanks
  deriving DecidableEq, Repr

/-- Whether the text begins with blanks and a line end. -/
def startsLineEnd (s : List Char) : Bool :=
  match skip s with
  | '\n' :: _ | '\r' :: '\n' :: _ => true
  | _ => false

/-- The length of the run of quotes at the front. -/
def quoteRun (quote : Char) (s : List Char) : Nat := (s.takeWhile (· = quote)).length

/-- Reads a string up to its closing quotes; the opening ones are already read. A long string may
span lines and ends with three quotes, up to two more of which belong to it; a raw one has no
escapes. -/
def readStringRest (quote : Char) (long raw : Bool) :
    Pending → List Char → Option (List Char × List Char)
  | _, [] => none
  | .pass (n + 1), _ :: rest => readStringRest quote long raw (.pass n) rest
  | pending, c :: rest =>
    let add (d : Char) (left : Option (List Char × List Char)) :=
      left.map fun (s, left) => (d :: s, left)
    if pending = .blanks && (isSpace c || c = '\n' || (c = '\r' && rest.head? = some '\n')) then
      readStringRest quote long raw .blanks rest
    else if c = quote then
      if !long then some ([], rest)
      else
        let run := quoteRun quote (c :: rest)
        if run < 3 then add c (readStringRest quote long raw .nothing rest)
        else
          let extra := min (run - 3) 2
          some (List.replicate extra quote, (c :: rest).drop (extra + 3))
    else if c = '\\' && !raw then
      if long && startsLineEnd rest then readStringRest quote long raw .blanks rest
      else
        match rest with
        | [] => none
        | e :: more =>
          match simpleEscapes.lookup e, codeLengths.lookup e with
          | some d, _ => add d (readStringRest quote long raw (.pass 1) rest)
          | none, some count =>
            match codeAt? count more with
            | some d => add d (readStringRest quote long raw (.pass (count + 1)) rest)
            | none => none
          | none, none => none
    else if c = '\n' then
      if long then add c (readStringRest quote long raw .nothing rest) else none
    else if c = '\r' then
      if long && rest.head? = some '\n' then readStringRest quote long raw .nothing rest else none
    else if isPlain c then add c (readStringRest quote long raw .nothing rest)
    else none

/-- The text without a line end at its front. -/
def dropLineEnd (s : List Char) : List Char :=
  match s with
  | '\n' :: rest => rest
  | '\r' :: '\n' :: rest => rest
  | s => s

/-- Reads a string on one line, if there is one. -/
def readShortString (s : List Char) : Option (List Char × List Char) :=
  match s with
  | '"' :: rest => readStringRest '"' false false .nothing rest
  | '\'' :: rest => readStringRest '\'' false true .nothing rest
  | _ => none

/-- Reads a string of any kind, if there is one. -/
def readString (s : List Char) : Option (List Char × List Char) :=
  match s with
  | '"' :: '"' :: '"' :: rest => readStringRest '"' true false .nothing (dropLineEnd rest)
  | '\'' :: '\'' :: '\'' :: rest => readStringRest '\'' true true .nothing (dropLineEnd rest)
  | s => readShortString s

/-! ### Keys -/

/-- The characters of keys without quotes. -/
def isBareKeyChar (c : Char) : Bool :=
  isAsciiUpper c || isAsciiLower c || isAsciiDigit c || c = '_' || c = '-'

/-- Reads a key without dots. -/
def readKeyPart (s : List Char) : Option (String × List Char) :=
  match s with
  | [] => none
  | c :: _ =>
    if c = '"' || c = '\'' then (readShortString s).map fun (k, left) => (String.ofList k, left)
    else
      match s.takeWhile isBareKeyChar with
      | [] => none
      | k => some (String.ofList k, s.dropWhile isBareKeyChar)

/-- Reads a key: the parts before the last dot, and the part after it. -/
def readKey : Nat → List Char → Option ((List String × String) × List Char)
  | 0, _ => none
  | n + 1, s => do
    let (part, left) ← readKeyPart (skip s)
    match skip left with
    | '.' :: rest =>
      let ((path, last), left) ← readKey n rest
      return ((part :: path, last), left)
    | left => return (([], part), left)

/-! ### Numbers, times and words -/

/-- Whether the text is a run of digits in which each underscore stands between two digits. -/
def isDigits (isDigit : Char → Bool) (s : List Char) : Bool :=
  (Text.splitAt '_' s).all fun part => !part.isEmpty && part.all isDigit

/-- Whether the text is a whole decimal number without sign; it has no needless zero in front. -/
def isWhole (s : List Char) : Bool :=
  isDigits isAsciiDigit s && (s.length = 1 || s.head? ≠ some '0')

/-- The number in a base whose digits are written in the text. -/
def numberIn (base : Nat) (s : List Char) : Nat :=
  s.foldl (fun n c => if c = '_' then n else base * n + (Json.hexValue? c).getD 0) 0

/-- The text without a sign in front, and whether it was a minus. -/
def unsigned (s : List Char) : Bool × List Char :=
  match s with
  | '-' :: rest => (true, rest)
  | '+' :: rest => (false, rest)
  | s => (false, s)

/-- The whole number that a text stands for. -/
def whole? (s : List Char) : Option Datum :=
  let based (base : Nat) (isDigit : Char → Bool) (digits : List Char) : Option Datum :=
    if isDigits isDigit digits then some (.whole (numberIn base digits)) else none
  match s with
  | '0' :: 'x' :: digits => based 16 (fun c => (Json.hexValue? c).isSome) digits
  | '0' :: 'o' :: digits => based 8 (fun c => '0' ≤ c && c ≤ '7') digits
  | '0' :: 'b' :: digits => based 2 (fun c => c = '0' || c = '1') digits
  | _ =>
    let (negative, digits) := unsigned s
    if isWhole digits then
      some (if negative && numberIn 10 digits ≠ 0 then .other else .whole (numberIn 10 digits))
    else none

/-- Whether the text is an exponent after its mark. -/
def isExponent (s : List Char) : Bool := isDigits isAsciiDigit (unsigned s).2

/-- Whether the text is a number with a fraction or an exponent, or one of the special numbers. -/
def isReal (s : List Char) : Bool :=
  let body := (unsigned s).2
  let isMark (c : Char) : Bool := c = 'e' || c = 'E'
  let mantissa := body.takeWhile fun c => !isMark c
  let exponent := body.dropWhile fun c => !isMark c
  let exponentOk :=
    match exponent with
    | [] => true
    | _ :: rest => isExponent rest
  body = "inf".toList || body = "nan".toList ||
    (exponentOk &&
      (match Text.splitAt '.' mantissa with
      | [a] => !exponent.isEmpty && isWhole a
      | [a, b] => isWhole a && isDigits isAsciiDigit b
      | _ => false))

/-- The number that a part of a time stands for, which must have `width` digits and lie between two
bounds. -/
def timePart? (width low high : Nat) (s : List Char) : Option Nat :=
  if s.length = width && s.all isAsciiDigit then
    let n := Json.decimalNumber s
    if low ≤ n && n ≤ high then some n else none
  else none

/-- The number of days in a month. -/
def daysIn (year month : Nat) : Nat :=
  if month = 2 then
    if year % 4 = 0 && (year % 100 ≠ 0 || year % 400 = 0) then 29 else 28
  else if [4, 6, 9, 11].contains month then 30
  else 31

/-- Whether the text is a date. -/
def isDate (s : List Char) : Bool :=
  match Text.splitAt '-' s with
  | [y, m, d] =>
    match timePart? 4 0 9999 y, timePart? 2 1 12 m with
    | some year, some month => (timePart? 2 1 (daysIn year month) d).isSome
    | _, _ => false
  | _ => false

/-- Whether the text is a time of day. The seconds may be missing. -/
def isTime (s : List Char) : Bool :=
  let secondsOk (t : List Char) : Bool :=
    match Text.splitAt '.' t with
    | [a] => (timePart? 2 0 60 a).isSome
    | [a, b] => (timePart? 2 0 60 a).isSome && !b.isEmpty && b.all isAsciiDigit
    | _ => false
  match Text.splitAt ':' s with
  | [h, m] => (timePart? 2 0 23 h).isSome && (timePart? 2 0 59 m).isSome
  | [h, m, t] => (timePart? 2 0 23 h).isSome && (timePart? 2 0 59 m).isSome && secondsOk t
  | _ => false

/-- Whether the text is a time of day with an offset, which may be missing. -/
def isOffsetTime (s : List Char) : Bool :=
  let isSign (c : Char) : Bool := c = '+' || c = '-'
  match s.dropWhile fun c => !isSign c with
  | [] =>
    isTime s ||
      (match s.reverse with
      | z :: rest => (z = 'Z' || z = 'z') && isTime rest.reverse
      | [] => false)
  | _ :: offset =>
    isTime (s.takeWhile fun c => !isSign c) &&
      (match Text.splitAt ':' offset with
      | [h, m] => (timePart? 2 0 23 h).isSome && (timePart? 2 0 59 m).isSome
      | _ => false)

/-- Whether the text is a date, a time, or both. -/
def isMoment (s : List Char) : Bool :=
  let between (c : Char) : Bool := c = 'T' || c = 't' || c = ' '
  isTime s || isDate s ||
    (isDate (s.takeWhile fun c => !between c) &&
      isOffsetTime ((s.dropWhile fun c => !between c).drop 1))

/-- The value of a word without quotes. -/
def word? (s : List Char) : Option Datum :=
  if s = "true".toList then some (.bool true)
  else if s = "false".toList then some (.bool false)
  else (whole? s).or (if isReal s || isMoment s then some .other else none)

/-- Whether a character belongs to a word without quotes. -/
def isWordChar (c : Char) : Bool :=
  isAsciiUpper c || isAsciiLower c || isAsciiDigit c || ['_', '-', '+', '.', ':'].contains c

/-- Reads a word without quotes; a time of day may follow a date after a blank. -/
def readWord (s : List Char) : Option (Datum × List Char) :=
  let first := s.takeWhile isWordChar
  let left := s.dropWhile isWordChar
  let (text, left) :=
    match left with
    | ' ' :: d :: rest =>
      if isDate first && isAsciiDigit d then
        (first ++ ' ' :: (d :: rest).takeWhile isWordChar, (d :: rest).dropWhile isWordChar)
      else (first, left)
    | _ => (first, left)
  (word? text).map fun d => (d, left)

/-! ### Values and documents -/

mutual

/-- Reads a value. The number bounds the nesting. -/
def readValue : Nat → List Char → Option (Datum × List Char)
  | 0, _ => none
  | n + 1, s =>
    match s with
    | '[' :: rest =>
      (readItems n rest).map fun (items, left) => (.list items, left)
    | '\x7b' :: rest =>
      (readEntries n [] rest).map fun (entries, left) => (.table (entriesToData entries), left)
    | c :: _ =>
      if c = '"' || c = '\'' then
        (readString s).map fun (t, left) => (.text (String.ofList t), left)
      else readWord s
    | [] => none

/-- Reads the items of a list up to its closing bracket. -/
def readItems : Nat → List Char → Option (List Datum × List Char)
  | 0, _ => none
  | n + 1, s => do
    match ← skipLines false s with
    | ']' :: left => return ([], left)
    | s =>
      let (item, left) ← readValue n s
      match ← skipLines false left with
      | ',' :: rest =>
        let (items, left) ← readItems n rest
        return (item :: items, left)
      | ']' :: left => return ([item], left)
      | _ => none

/-- Reads the entries of a table in braces up to its closing brace, after those before. -/
def readEntries : Nat → Entries → List Char → Option (Entries × List Char)
  | 0, _, _ => none
  | n + 1, entries, s => do
    match ← skipLines false s with
    | '\x7d' :: left => return (entries, left)
    | s =>
      let ((path, last), left) ← readKey n s
      match left with
      | '=' :: rest =>
        let (d, left) ← readValue n (skip rest)
        let entries ← insert last d path entries
        match ← skipLines false left with
        | ',' :: rest => readEntries n entries rest
        | '\x7d' :: left => return (entries, left)
        | _ => none
      | _ => none

end

/-- Reads the lines that are left; `header` leads to the table that they belong to. -/
def readDocument : Nat → List String → Entries → List Char → Option Entries
  | 0, _, _, _ => none
  | n + 1, header, entries, s => do
    match ← skipLines false s with
    | [] => return entries
    | '[' :: '[' :: rest =>
      let ((path, last), left) ← readKey n rest
      match left with
      | ']' :: ']' :: left =>
        if endsLine left then
          readDocument n (path ++ [last]) (← appendTable path last entries) left
        else none
      | _ => none
    | '[' :: rest =>
      let ((path, last), left) ← readKey n rest
      match left with
      | ']' :: left =>
        if endsLine left then
          readDocument n (path ++ [last]) (← defineTable path last entries) left
        else none
      | _ => none
    | s =>
      let ((path, last), left) ← readKey n s
      match left with
      | '=' :: rest =>
        let (d, left) ← readValue n (skip rest)
        if endsLine left then
          readDocument n header (← insertAt header path last d entries) left
        else none
      | _ => none

/-- Reads a document. A byte order mark at its start does not count. -/
def parse (s : List Char) : Option Datum :=
  let s := if s.head? = some '\uFEFF' then s.drop 1 else s
  (readDocument (2 * s.length + 2) [] [] s).map fun entries => .table (entriesToData entries)

end GoSchema.Toml
