/-
# Tokens of Go source

A token keeps its text, the blanks and comments before it, and the rows where those and the token
begin, so that the text between two tokens can be given back as it is written. A terminator is a
semicolon, a line end that ends a statement, or the end of the file.

Key definitions: `Comment`, `TokenKind`, `Token`, `Token.source`.
-/

namespace GoSchema.Source

/-- A comment with its markers, and the rows of its first and its last character. -/
structure Comment where
  raw : List Char
  row : Nat
  endRow : Nat
  deriving Repr

inductive TokenKind
  | name
  | keyword
  | number
  | rune
  /-- A string in double or in back quotes. -/
  | string
  | operator
  | terminator
  deriving DecidableEq, Repr

structure Token where
  kind : TokenKind
  /-- The text; an implied terminator has the line feed or nothing. -/
  text : String
  /-- The blanks and comments between the previous token and this one. -/
  lead : List Char
  /-- The comments among them. -/
  comments : List Comment
  /-- The row where the lead begins: the last one of the token before. -/
  leadRow : Nat
  row : Nat
  deriving Repr

namespace Token

def isName (t : Token) : Bool := t.kind = .name

def isOp (t : Token) (op : String) : Bool := t.kind = .operator && t.text = op

def isKeyword (t : Token) (word : String) : Bool := t.kind = .keyword && t.text = word

def isTerminator (t : Token) : Bool := t.kind = .terminator

/-- The source text from the start of the first token to the end of the last. -/
def source : List Token → String
  | [] => ""
  | t :: ts => ts.foldl (fun text u => text ++ String.ofList u.lead ++ u.text) t.text

end Token

/-- The words that are no names. -/
def keywords : List String :=
  ["break", "case", "chan", "const", "continue", "default", "defer", "else", "fallthrough", "for",
    "func", "go", "goto", "if", "import", "interface", "map", "package", "range", "return",
    "select", "struct", "switch", "type", "var"]

/-- The operators and delimiters; a longer one stands before each that starts it. -/
def operators : List String :=
  ["<<=", ">>=", "&^=", "...", "&&", "||", "<-", "++", "--", "==", "!=", "<=", ">=", ":=", "+=",
    "-=", "*=", "/=", "%=", "&=", "|=", "^=", "<<", ">>", "&^", "+", "-", "*", "/", "%", "&", "|",
    "^", "~", "<", ">", "=", "!", "(", ")", "[", "]", "\x7b", "\x7d", ",", ".", ":"]

/-- Whether a line end after this token ends a statement. -/
def endsStatement (kind : TokenKind) (text : String) : Bool :=
  match kind with
  | .name | .number | .rune | .string => true
  | .keyword => ["break", "continue", "fallthrough", "return"].contains text
  | .operator => ["++", "--", ")", "]", "\x7d"].contains text
  | .terminator => false

end GoSchema.Source
