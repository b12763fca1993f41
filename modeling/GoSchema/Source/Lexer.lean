/-
# Reading tokens

The text is cut into tokens from the front, the longest token first. A line end after a token that
can end a statement is a terminator, and so is the end of the text; a comment that spans lines
counts as a line end.

Key definitions: `readNumber`, `readEscape`, `readToken`, `lex`.
-/
import GoSchema.Source.Token
import GoSchema.Text
import GoSchema.Unicode.Letter

namespace GoSchema.Source

open Unicode

def isNameStart (c : Char) : Bool := isLetter c || c = '_'

def isNameChar (c : Char) : Bool := isLetter c || isDecimalDigit c || c = '_'

def isOctalDigit (c : Char) : Bool := 48 ≤ c.toNat && c.toNat ≤ 55

def isBinaryDigit (c : Char) : Bool := c = '0' || c = '1'

def isHexDigit (c : Char) : Bool :=
  isAsciiDigit c || (97 ≤ c.toNat && c.toNat ≤ 102) || (65 ≤ c.toNat && c.toNat ≤ 70)

/-! ### Numbers -/

/-- A possibly empty run of digits in which each underscore stands between two digits; `afterDigit`
tells whether an underscore may come first. -/
def wellSpaced (isDigit : Char → Bool) (afterDigit : Bool) : List Char → Bool
  | [] => true
  | '_' :: rest =>
    afterDigit && (rest.head?.map isDigit).getD false && wellSpaced isDigit false rest
  | _ :: rest => wellSpaced isDigit true rest

/-- Reads digits and underscores. -/
def readDigits (isDigit : Char → Bool) (afterDigit : Bool) (s : List Char) :
    Option (List Char × List Char) :=
  let digits := s.takeWhile fun c => isDigit c || c = '_'
  if wellSpaced isDigit afterDigit digits then
    some (digits, s.dropWhile fun c => isDigit c || c = '_')
  else none

/-- Reads an exponent that one of `marks` opens, if there is one. -/
def readExponent (marks s : List Char) : Option (List Char × List Char) :=
  match s with
  | [] => some ([], [])
  | mark :: rest =>
    if marks.contains mark then
      let (sign, rest) :=
        match rest with
        | '+' :: r => (['+'], r)
        | '-' :: r => (['-'], r)
        | r => ([], r)
      match readDigits isAsciiDigit false rest with
      | some (d :: digits, left) => some (mark :: sign ++ d :: digits, left)
      | _ => none
    else some ([], s)

/-- Reads a point and the digits that follow it, if there is a point. -/
def readFraction (isDigit : Char → Bool) (s : List Char) : Option (List Char × List Char) :=
  match s with
  | '.' :: rest => (readDigits isDigit false rest).map fun (digits, left) => ('.' :: digits, left)
  | _ => some ([], s)

/-- Reads an integer of another base after its two-character mark. -/
def readBased (isDigit : Char → Bool) (s : List Char) : Option (List Char × List Char) :=
  match readDigits isDigit true s with
  | some (d :: digits, left) => some (d :: digits, left)
  | _ => none

/-- Reads a hexadecimal number after its mark; a fraction needs an exponent. -/
def readHex (s : List Char) : Option (List Char × List Char) := do
  let (whole, left) ← readDigits isHexDigit true s
  let (fraction, left) ← readFraction isHexDigit left
  let (exponent, left) ← readExponent ['p', 'P'] left
  if whole.isEmpty && fraction.length ≤ 1 then none
  else if !fraction.isEmpty && exponent.isEmpty then none
  else some (whole ++ fraction ++ exponent, left)

/-- Reads a decimal number. A leading zero makes an integer octal. -/
def readDecimal (s : List Char) : Option (List Char × List Char) := do
  let (whole, left) ← readDigits isAsciiDigit false s
  let (fraction, left) ← readFraction isAsciiDigit left
  let (exponent, left) ← readExponent ['e', 'E'] left
  let isInteger := fraction.isEmpty && exponent.isEmpty && left.head? ≠ some 'i'
  let hasLeadingZero := whole.head? = some '0'
  if isInteger && hasLeadingZero && !whole.all (fun c => isOctalDigit c || c = '_') then none
  else some (whole ++ fraction ++ exponent, left)

/-- Reads a number. -/
def readNumber (s : List Char) : Option (List Char × List Char) := do
  let (digits, left) ←
    match s with
    | '0' :: mark :: rest =>
      if mark = 'x' || mark = 'X' then
        (readHex rest).map fun (digits, left) => ('0' :: mark :: digits, left)
      else if mark = 'o' || mark = 'O' then
        (readBased isOctalDigit rest).map fun (digits, left) => ('0' :: mark :: digits, left)
      else if mark = 'b' || mark = 'B' then
        (readBased isBinaryDigit rest).map fun (digits, left) => ('0' :: mark :: digits, left)
      else readDecimal s
    | _ => readDecimal s
  match left with
  | 'i' :: rest => some (digits ++ ['i'], rest)
  | _ => some (digits, left)

/-! ### Runes and strings -/

/-- Reads `count` hexadecimal digits. -/
def readHexDigits (count : Nat) (s : List Char) : Option (List Char × List Char) :=
  if (s.take count).length = count && (s.take count).all isHexDigit then
    some (s.take count, s.drop count)
  else none

/-- Reads what follows the backslash of an escape. -/
def readEscape (s : List Char) : Option (List Char × List Char) :=
  match s with
  | [] => none
  | c :: rest =>
    let count := if c = 'x' then 2 else if c = 'u' then 4 else if c = 'U' then 8 else 0
    (readHexDigits count rest).map fun (digits, left) => (c :: digits, left)

/-- Reads a string in double quotes up to its end; the opening quote is already read. -/
def readStringRest : Nat → List Char → Option (List Char × List Char)
  | 0, _ => none
  | _ + 1, [] => none
  | n + 1, c :: rest =>
    if c = '"' then some ([c], rest)
    else if c = '\n' then none
    else if c = '\\' then
      match readEscape rest with
      | none => none
      | some (escape, left) =>
        (readStringRest n left).map fun (more, left) => (c :: escape ++ more, left)
    else (readStringRest n rest).map fun (more, left) => (c :: more, left)

/-- Reads a rune up to its end; the opening quote is already read. -/
def readRuneRest (s : List Char) : Option (List Char × List Char) :=
  let closed (body : List Char) (left : List Char) : Option (List Char × List Char) :=
    match left with
    | '\'' :: left => some (body ++ ['\''], left)
    | _ => none
  match s with
  | [] => none
  | '\\' :: rest =>
    match rest with
    | a :: b :: c :: left =>
      if isOctalDigit a && isOctalDigit b && isOctalDigit c then closed ['\\', a, b, c] left
      else (readEscape rest).bind fun (escape, left) => closed ('\\' :: escape) left
    | _ => (readEscape rest).bind fun (escape, left) => closed ('\\' :: escape) left
  | c :: rest => if c = '\'' || c = '\n' then none else closed [c] rest

/-- Reads a string in back quotes up to its end; the opening quote is already read. -/
def readRawRest (s : List Char) : Option (List Char × List Char) :=
  match s.dropWhile (· ≠ '\x60') with
  | [] => none
  | quote :: left => some (s.takeWhile (· ≠ '\x60') ++ [quote], left)

/-! ### Tokens -/

/-- Reads the longest operator. -/
def readOperator (s : List Char) : Option (String × List Char) :=
  operators.findSome? fun op => (Text.dropLeading? op.toList s).map fun left => (op, left)

/-- Reads one token at the front of a text that starts with neither a blank nor a comment. -/
def readToken (s : List Char) : Option (TokenKind × String × List Char) :=
  match s with
  | [] => none
  | c :: rest =>
    if isNameStart c then
      let word := String.ofList (s.takeWhile isNameChar)
      some (if keywords.contains word then .keyword else .name, word, s.dropWhile isNameChar)
    else if isAsciiDigit c || (c = '.' && (rest.head?.map isAsciiDigit).getD false) then
      (readNumber s).map fun (text, left) => (.number, String.ofList text, left)
    else if c = '"' then
      (readStringRest s.length rest).map fun (text, left) =>
        (.string, String.ofList (c :: text), left)
    else if c = '\x60' then
      (readRawRest rest).map fun (text, left) => (.string, String.ofList (c :: text), left)
    else if c = '\'' then
      (readRuneRest rest).map fun (text, left) => (.rune, String.ofList (c :: text), left)
    else if c = ';' then some (.terminator, ";", rest)
    else (readOperator s).map fun (op, left) => (.operator, op, left)

/-- Reads a comment between `/*` and `*/` up to its end; the opening mark is already read. -/
def readBlockRest : List Char → Option (List Char × List Char)
  | '*' :: '/' :: rest => some (['*', '/'], rest)
  | c :: rest => (readBlockRest rest).map fun (more, left) => (c :: more, left)
  | [] => none

/-- The number of line feeds. -/
def feeds (s : List Char) : Nat := s.count '\n'

/-- What has been passed over since the last token: the row where it begins, the row reached, its
text, and the comments in it, both last one first. -/
structure Lead where
  start : Nat
  row : Nat
  text : List Char
  comments : List Comment

namespace Lead

/-- A lead that begins on a row. -/
def empty (row : Nat) : Lead := ⟨row, row, [], []⟩

/-- The lead with more blanks. -/
def blank (lead : Lead) (c : Char) : Lead :=
  { lead with text := c :: lead.text, row := if c = '\n' then lead.row + 1 else lead.row }

/-- The lead with one more comment. -/
def comment (lead : Lead) (raw : List Char) : Lead :=
  let endRow := lead.row + feeds raw
  { lead with
    row := endRow
    text := raw.reverse ++ lead.text
    comments := ⟨raw, lead.row, endRow⟩ :: lead.comments }

/-- The token after the lead. -/
def token (lead : Lead) (kind : TokenKind) (text : String) : Token :=
  ⟨kind, text, lead.text.reverse, lead.comments.reverse, lead.start, lead.row⟩

/-- The lead after that token. -/
def next (lead : Lead) (text : String) : Lead := empty (lead.row + feeds text.toList)

end Lead

/-- Reads the tokens that are left. The flag tells whether a line end would be a terminator.
Every second step at least consumes a character. -/
def lexFrom : Nat → Bool → Lead → List Char → Option (List Token)
  | 0, _, _, _ => none
  | _ + 1, isOpen, lead, [] => some (if isOpen then [lead.token .terminator ""] else [])
  | n + 1, isOpen, lead, c :: rest =>
    if c = '\n' && isOpen then
      (lexFrom n false (lead.next "\n") rest).map (lead.token .terminator "\n" :: ·)
    else if c = ' ' || c = '\t' || c = '\r' || c = '\n' then lexFrom n isOpen (lead.blank c) rest
    else if c = '/' && rest.head? = some '/' then
      lexFrom n isOpen (lead.comment ((c :: rest).takeWhile (· ≠ '\n')))
        ((c :: rest).dropWhile (· ≠ '\n'))
    else if c = '/' && rest.head? = some '*' then
      match readBlockRest (rest.drop 1) with
      | none => none
      | some (body, left) =>
        if isOpen && body.contains '\n' then
          (lexFrom n false (lead.next "") (c :: rest)).map (lead.token .terminator "" :: ·)
        else lexFrom n isOpen (lead.comment ('/' :: '*' :: body)) left
    else
      match readToken (c :: rest) with
      | none => none
      | some (kind, text, left) =>
        (lexFrom n (endsStatement kind text) (lead.next text) left).map (lead.token kind text :: ·)

/-- The tokens of a text. A byte order mark at the start does not count. -/
def lex (s : List Char) : Option (List Token) :=
  let s := if s.head? = some '\uFEFF' then s.drop 1 else s
  lexFrom (2 * s.length + 1) false (.empty 0) s

end GoSchema.Source
