/-
# The grammar of Go

Types are read into `GoType`; expressions and statements are only recognised, because a file counts
only if all of it is well-formed. Each rule takes a bound on the depth of its recursion. A flag says
whether a brace after a name may open a composite literal, which it may not where a block follows.

Key definitions: `Grammar.type`, `Grammar.structBody`, `Grammar.typeSpec`, `Grammar.constSpec`,
`Grammar.expr`, `Grammar.statement`, `Grammar.block`.
-/
import GoSchema.Source.File
import GoSchema.Source.Parse

namespace GoSchema.Source

open Parse

/-- The character that a backslash and `c` stand for in a tag. -/
def unescapeTag (c : Char) : Char := if c = 'n' then '\n' else if c = 't' then '\t' else c

/-- The text of a quoted tag with its escapes resolved. -/
def unescapeAll : List Char → List Char
  | [] => []
  | '\\' :: [] => []
  | '\\' :: c :: rest => unescapeTag c :: unescapeAll rest
  | c :: rest => c :: unescapeAll rest

/-- The text between the first and the last character. -/
def unquoted (s : List Char) : List Char := (s.drop 1).dropLast

/-- The content of a tag as it is written, with its quotes. -/
def tagText (literal : String) : String :=
  let s := literal.toList
  String.ofList (if s.head? = some '\x60' then unquoted s else unescapeAll (unquoted s))

/-- A field declaration as read: no names stand for an embedded type. -/
structure FieldSpec where
  names : List String
  type : GoType
  tag : Option String

/-- The field declarations of a struct, one for each name. -/
def FieldSpec.toFields (specs : List (Item FieldSpec)) (final : List Comment) : List FieldDecl :=
  (inContext final none specs).flatMap fun (item, previousEnd, after) =>
    let spec := item.value
    let doc := bothDocs (docAbove previousEnd item) (docBehind item after)
    match spec.names with
    | [] => [⟨none, spec.type, spec.tag, doc, item.row + 1⟩]
    | names => names.map fun name => ⟨some name, spec.type, spec.tag, doc, item.row + 1⟩

/-- A type specification as read. -/
structure TypeSpec where
  name : String
  typeParams : List String
  body : TypeBody

/-- A constant specification as read. Of several names, the commas between them count as names. -/
structure ConstSpec where
  names : List String
  type : Option GoType
  hasValue : Bool

/-- The operators between two operands. -/
def binaryOperators : List String :=
  ["||", "&&", "==", "!=", "<", "<=", ">", ">=", "+", "-", "|", "^", "*", "/", "%", "<<", ">>", "&",
    "&^"]

/-- The operators before an operand. -/
def unaryOperators : List String := ["+", "-", "!", "^", "*", "&", "<-"]

/-- The operators that make an assignment or a definition. -/
def assignOperators : List String :=
  ["=", ":=", "+=", "-=", "*=", "/=", "%=", "&=", "|=", "^=", "<<=", ">>=", "&^="]

/-- Takes one of the operators. -/
def opAmong (ops : List String) : Parse Unit :=
  discard (token fun t => t.kind = .operator && ops.contains t.text)

/-- Whether the next tokens are `.(type)`. -/
def seesTypeSwitch : Parse Bool := fun ts =>
  match ts with
  | a :: b :: c :: _ => some (a.isOp "." && b.isOp "(" && c.isKeyword "type", ts)
  | _ => some (false, ts)

/-- Reads a name followed by a colon. -/
def label : Parse Unit := do
  discard name
  op ":"

/-- Reads a group of specifications in parentheses, or a single one. -/
def grouped {α : Type} (p : Parse α) (n : Nat) : Parse (List (Item α) × List Comment ⊕ Item α) := do
  let t ← peek
  if t.isOp "(" then
    op "("
    return .inl (← items p ")" [] n)
  else return .inr (← item [] p)

namespace Grammar

mutual

/-- A type. What is neither a name, a pointer, a list nor a map is kept as it is written. -/
def type : Nat → Parse GoType
  | 0 => failure
  | n + 1 => do
    let t ← peek
    if t.isName then typeName n
    else if t.isOp "(" then
      op "("
      let inner ← inner n
      op ")"
      return inner
    else if t.isOp "*" then
      op "*"
      return .pointer (← inner n)
    else if t.isOp "[" then
      op "["
      (do op "]"; return .slice (← type n)) <|>
        (do expr n true; op "]"; return .array (← type n))
    else if t.isKeyword "map" then
      keyword "map"
      op "["
      let key ← type n
      op "]"
      return .map key (← type n)
    else if t.isKeyword "interface" then
      interfaceType n
      return .any
    else if t.isKeyword "struct" then return .other (← sourceOf (structBody n))
    else if t.isKeyword "func" then
      return .other (← sourceOf (do keyword "func"; signature n))
    else if t.isKeyword "chan" then
      return .other (← sourceOf (do keyword "chan"; discard (opt (op "<-")); discard (type n)))
    else if t.isOp "<-" then
      return .other (← sourceOf (do op "<-"; keyword "chan"; discard (type n)))
    else failure

/-- A type after a star or a parenthesis; a comment in front of it takes its place. -/
def inner : Nat → Parse GoType
  | 0 => failure
  | n + 1 => do
    let t ← peek
    let read ← type n
    match t.comments with
    | [] => return read
    | c :: _ => return .other (String.ofList c.raw)

/-- A name, perhaps qualified, with its type arguments. -/
def typeName : Nat → Parse GoType
  | 0 => failure
  | n + 1 => do
    let first ← name
    let second ← opt (do op "."; name)
    let args := (← opt (typeArgs n)).getD []
    match second with
    | some t => return .named none (some first.text) t.text args
    | none => return if first.text = "any" then .any else .named none none first.text args

/-- Type arguments in brackets. Of a union the first member counts. -/
def typeArgs : Nat → Parse (List GoType)
  | 0 => failure
  | n + 1 => do
    op "["
    let args ← commaList (do
      let first ← type n
      discard (many (do op "|"; type n) n)
      return first) n
    discard (opt (op ","))
    op "]"
    return args

/-- A struct type with its fields. -/
def structBody : Nat → Parse (List FieldDecl)
  | 0 => failure
  | n + 1 => do
    keyword "struct"
    op "\x7b"
    let (specs, final) ← items (fieldSpec n) "\x7d" [] n
    return FieldSpec.toFields specs final

/-- A field declaration: names with a type, or an embedded type. -/
def fieldSpec : Nat → Parse FieldSpec
  | 0 => failure
  | n + 1 => do
    let (names, read) ←
      (do
        let names ← commaList name n
        let read ← type n
        return (names.map Token.text, read)) <|>
      (do
        let star ← opt (op "*")
        let base ← typeName n
        return ([], if star.isSome then .pointer base else base))
    let tag ← opt (token (·.kind = .string))
    return ⟨names, read, tag.map fun t => tagText t.text⟩

/-- An interface type. -/
def interfaceType : Nat → Parse Unit
  | 0 => failure
  | n + 1 => do
    keyword "interface"
    op "\x7b"
    discard (items ((do discard name; signature n) <|> constraint n) "\x7d" [] n)

/-- A constraint: a union of types, each perhaps after a tilde. -/
def constraint : Nat → Parse Unit
  | 0 => failure
  | n + 1 => do
    let member : Parse Unit := do
      discard (opt (op "~"))
      discard (type n)
    member
    discard (many (do op "|"; member) n)

/-- Type parameters in brackets; their names. -/
def typeParams : Nat → Parse (List String)
  | 0 => failure
  | n + 1 => do
    op "["
    let groups ← commaList (do
      let names ← commaList name n
      constraint n
      return names.map Token.text) n
    discard (opt (op ","))
    op "]"
    return groups.flatten

/-- Parameters and results of a function. -/
def signature : Nat → Parse Unit
  | 0 => failure
  | n + 1 => do
    params n
    if ← seesOp "(" then params n else discard (opt (type n))

/-- Parameters in parentheses. -/
def params : Nat → Parse Unit
  | 0 => failure
  | n + 1 => do
    op "("
    discard (commaEnded (param n) n)
    op ")"

/-- A parameter, with or without a name. -/
def param : Nat → Parse Unit
  | 0 => failure
  | n + 1 =>
    let typed : Parse Unit := do
      discard (opt (op "..."))
      discard (type n)
    (do discard name; typed) <|> typed

/-- A specification of a type. A bracket after the name opens an array or slice type if it can, and
else type parameters. -/
def typeSpec : Nat → Parse TypeSpec
  | 0 => failure
  | n + 1 => do
    let first ← name
    let rest (params : List String) : Parse TypeSpec := do
      if ← seesOp "=" then
        op "="
        return ⟨first.text, params, .aliased (← type n)⟩
      else if ← seesKeyword "struct" then
        return ⟨first.text, params, .record (← structBody n)⟩
      else return ⟨first.text, params, .defined (← type n)⟩
    if ← seesOp "[" then
      rest [] <|> (do rest (← typeParams n))
    else rest []

/-- A specification of constants. -/
def constSpec : Nat → Parse ConstSpec
  | 0 => failure
  | n + 1 => do
    let names ← commaList name n
    let declared ← opt (type n)
    let hasValue ← seesOp "="
    if hasValue then
      op "="
      exprs n true
    return ⟨(names.map Token.text).intersperse ",", declared, hasValue⟩

/-- A specification of variables. -/
def varSpec : Nat → Parse Unit
  | 0 => failure
  | n + 1 => do
    discard (commaList name n)
    let declared ← opt (type n)
    if declared.isNone || (← seesOp "=") then
      op "="
      exprs n true

/-- One or more expressions. -/
def exprs : Nat → Bool → Parse Unit
  | 0, _ => failure
  | n + 1, literals => discard (commaList (expr n literals) n)

/-- An expression. Precedence does not matter here. -/
def expr : Nat → Bool → Parse Unit
  | 0, _ => failure
  | n + 1, literals => do
    unary n literals
    discard (many (do opAmong binaryOperators; unary n literals) n)

/-- An operand with operators before and after it. -/
def unary : Nat → Bool → Parse Unit
  | 0, _ => failure
  | n + 1, literals => do
    discard (many (opAmong unaryOperators) n)
    let canOpen ← operand n
    postfixes n literals canOpen

/-- An operand; the answer tells whether a brace may open a composite literal of it. -/
def operand : Nat → Parse Bool
  | 0 => failure
  | n + 1 => do
    let t ← peek
    if t.isName then
      discard name
      return true
    else if t.kind = .number || t.kind = .rune || t.kind = .string then
      discard (token fun _ => true)
      return false
    else if t.isOp "(" then
      op "("
      exprOrType n
      op ")"
      return false
    else if t.isKeyword "func" then
      keyword "func"
      signature n
      block n
      return false
    else
      let lengthOpen : Parse Unit := do
        op "["
        op "..."
        op "]"
        discard (type n)
      lengthOpen <|> discard (type n)
      if ← seesOp "\x7b" then literalValue n
      else if !(← seesOp "(") then failure
      return false

/-- What may follow an operand: selectors, indices, calls, type assertions, composite values. -/
def postfixes : Nat → Bool → Bool → Parse Unit
  | 0, _, _ => failure
  | n + 1, literals, canOpen => do
    if ← seesTypeSwitch then return
    else if ← seesOp "." then
      op "."
      if ← seesOp "(" then
        op "("
        discard (type n)
        op ")"
        postfixes n literals false
      else
        discard name
        postfixes n literals canOpen
    else if ← seesOp "[" then
      index n
      postfixes n literals canOpen
    else if ← seesOp "(" then
      arguments n
      postfixes n literals false
    else if (← seesOp "\x7b") && literals && canOpen then
      literalValue n
      postfixes n literals false
    else return

/-- An index, a slice, or type arguments. -/
def index : Nat → Parse Unit
  | 0 => failure
  | n + 1 => do
    op "["
    let first ← opt (exprOrType n)
    if ← seesOp ":" then
      op ":"
      discard (opt (expr n true))
      if ← seesOp ":" then
        op ":"
        expr n true
    else if first.isSome then
      discard (many (do op ","; exprOrType n) n)
      discard (opt (op ","))
    else failure
    op "]"

/-- The arguments of a call. -/
def arguments : Nat → Parse Unit
  | 0 => failure
  | n + 1 => do
    op "("
    let args ← opt (commaList (exprOrType n) n)
    if args.isSome then
      discard (opt (op "..."))
      discard (opt (op ","))
    op ")"

/-- An expression where a type may stand as well. -/
def exprOrType : Nat → Parse Unit
  | 0 => failure
  | n + 1 => expr n true <|> discard (type n)

/-- The braces of a composite literal. -/
def literalValue : Nat → Parse Unit
  | 0 => failure
  | n + 1 => do
    let value : Parse Unit := do
      if ← seesOp "\x7b" then literalValue n else expr n true
    op "\x7b"
    discard (commaEnded (do
      value
      if ← seesOp ":" then
        op ":"
        value) n)
    op "\x7d"

/-- A block of statements in braces. -/
def block : Nat → Parse Unit
  | 0 => failure
  | n + 1 => do
    op "\x7b"
    statements n
    op "\x7d"

/-- Statements with terminators between them. -/
def statements : Nat → Parse Unit
  | 0 => failure
  | n + 1 => do
    statement n
    if (← opt terminator).isSome then statements n

/-- A statement, which may be empty. -/
def statement : Nat → Parse Unit
  | 0 => failure
  | n + 1 => do
    let t ← peek
    if t.isTerminator || t.isOp "\x7d" || t.isKeyword "case" || t.isKeyword "default" then return
    else if t.isKeyword "var" then
      keyword "var"
      discard (grouped (varSpec n) n)
    else if t.isKeyword "const" then
      keyword "const"
      discard (grouped (constSpec n) n)
    else if t.isKeyword "type" then
      keyword "type"
      discard (grouped (typeSpec n) n)
    else if t.isKeyword "go" || t.isKeyword "defer" then
      discard (token fun _ => true)
      expr n true
    else if t.isKeyword "return" then
      keyword "return"
      discard (opt (exprs n true))
    else if t.isKeyword "break" || t.isKeyword "continue" then
      discard (token fun _ => true)
      discard (opt name)
    else if t.isKeyword "goto" then
      keyword "goto"
      discard name
    else if t.isKeyword "fallthrough" then keyword "fallthrough"
    else if t.isKeyword "if" then ifStatement n
    else if t.isKeyword "for" then forStatement n
    else if t.isKeyword "switch" then switchStatement n
    else if t.isKeyword "select" then selectStatement n
    else if t.isOp "\x7b" then block n
    else if (← opt label).isSome then statement n
    else discard (simple n true false)

/-- A statement of expressions; the answer tells whether it is the head of a `range` loop, which it
may be if `ranges` is set. -/
def simple : Nat → Bool → Bool → Parse Bool
  | 0, _, _ => failure
  | n + 1, literals, ranges => do
    exprs n literals
    if (← opt (opAmong assignOperators)).isSome then
      if ranges && (← seesKeyword "range") then
        keyword "range"
        expr n literals
        return true
      else
        exprs n literals
        return false
    else if ← seesOp "<-" then
      op "<-"
      expr n literals
      return false
    else
      discard (opt (opAmong ["++", "--"]))
      return false

/-- An `if` with its branches. -/
def ifStatement : Nat → Parse Unit
  | 0 => failure
  | n + 1 => do
    keyword "if"
    discard (simple n false false)
    if (← opt terminator).isSome then discard (simple n false false)
    block n
    if ← seesKeyword "else" then
      keyword "else"
      if ← seesKeyword "if" then ifStatement n else block n

/-- A loop. -/
def forStatement : Nat → Parse Unit
  | 0 => failure
  | n + 1 => do
    keyword "for"
    if ← seesKeyword "range" then
      keyword "range"
      expr n false
    else if !(← seesOp "\x7b") then
      let head ← if ← sees Token.isTerminator then pure false else simple n false true
      if !head then
        if (← opt terminator).isSome then
          if !(← sees Token.isTerminator) then expr n false
          discard terminator
          if !(← seesOp "\x7b") then discard (simple n false false)
    block n

/-- The head of a `switch`: a statement, perhaps with a test of the type at its end. -/
def switchHead : Nat → Parse Unit
  | 0 => failure
  | n + 1 => do
    discard (simple n false false)
    if ← seesTypeSwitch then
      op "."
      op "("
      keyword "type"
      op ")"

/-- A `switch`. -/
def switchStatement : Nat → Parse Unit
  | 0 => failure
  | n + 1 => do
    keyword "switch"
    if !(← seesOp "\x7b") then
      if !(← sees Token.isTerminator) then switchHead n
      if (← opt terminator).isSome && !(← seesOp "\x7b") then switchHead n
    op "\x7b"
    discard (many (clause n (discard (commaList (exprOrType n) n))) n)
    op "\x7d"

/-- A `select`. -/
def selectStatement : Nat → Parse Unit
  | 0 => failure
  | n + 1 => do
    keyword "select"
    op "\x7b"
    discard (many (clause n (discard (simple n true false))) n)
    op "\x7d"

/-- A clause with the statements under it; `head` reads what follows `case`. -/
def clause : Nat → Parse Unit → Parse Unit
  | 0, _ => failure
  | n + 1, head => do
    if ← seesKeyword "default" then keyword "default"
    else
      keyword "case"
      head
    op ":"
    statements n

end

end Grammar

end GoSchema.Source
