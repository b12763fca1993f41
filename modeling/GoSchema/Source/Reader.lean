/-
# Reading source files

A file is a sequence of package clauses, imports, declarations and statements with terminators
between them. All of it must be well-formed; the package clause, the imports, and the types and
constants at the top level are kept.

Key definitions: `SourceFile.parse`, `impliedName`.
-/
import GoSchema.Source.Grammar
import GoSchema.Source.Lexer

namespace GoSchema.Source

open Parse Grammar

/-- What the text of a file may lack. -/
inductive SourceFault
  | notWellFormed
  | noPackage
  deriving DecidableEq, Repr

/-- Whether a path segment is a major version: `v` and digits. -/
def isMajorVersion (segment : List Char) : Bool :=
  match segment with
  | 'v' :: d :: digits => (d :: digits).all Unicode.isAsciiDigit
  | _ => false

/-- The alias of an import that gives none: the last segment of its path, where a major version does
not count, without a leading `go-` and with underscores for hyphens. -/
def impliedName (path : List Char) : List Char :=
  let segments := (Text.splitAt '/' path).filter (!·.isEmpty)
  let last :=
    match segments.reverse with
    | last :: before :: _ => if isMajorVersion last then before else last
    | [last] => last
    | [] => path
  let base :=
    match Text.splitAtLast? '.' last with
    | some (start, tail) => if isMajorVersion tail then start else last
    | none => last
  ((Text.dropLeading? "go-".toList base).getD base).map fun c => if c = '-' then '_' else c

/-- An import as read: what stands in place of the alias, and the path. -/
structure ImportSpec where
  localName : Option String
  path : String
  deriving DecidableEq, Repr

/-- The text without quotes at either end. -/
def withoutQuotes (s : List Char) : List Char :=
  let isQuote (c : Char) : Bool := c = '"' || c = '\x60'
  ((s.dropWhile isQuote).reverse.dropWhile isQuote).reverse

/-- A specification of an import. -/
def importSpec : Parse ImportSpec := do
  let localName ← opt (name <|> token (·.isOp "."))
  let path ← token (·.kind = .string)
  return ⟨localName.map Token.text, String.ofList (withoutQuotes path.text.toList)⟩

/-- The imports after one more. Imports into the file's own names and for side effects do not
count; the last import of an alias does. -/
def withImport (imports : List (String × String)) (spec : ImportSpec) : List (String × String) :=
  let add (given : String) := imports.filter (·.1 ≠ given) ++ [(given, spec.path)]
  match spec.localName with
  | none => add (String.ofList (impliedName spec.path.toList))
  | some "." | some "_" => imports
  | some given => add given

/-- A part of a file. -/
inductive Part
  | package (name : String)
  | imports (specs : List ImportSpec)
  /-- Specifications, the comments after the last, and whether they stand in parentheses. -/
  | types (isGrouped : Bool) (specs : List (Item TypeSpec)) (final : List Comment)
  | consts (isGrouped : Bool) (specs : List (Item ConstSpec)) (final : List Comment)
  | function
  | variables
  | statement

/-- A package clause. A comment in front of the name takes its place. -/
def packageClause : Parse Part := do
  keyword "package"
  let t ← name
  return .package <|
    match t.comments with
    | [] => t.text
    | c :: _ => String.ofList c.raw

/-- A function or a method, perhaps without a body. -/
def function (n : Nat) : Parse Unit := do
  keyword "func"
  if ← seesOp "(" then params n
  discard name
  discard (opt (typeParams n))
  signature n
  if ← seesOp "\x7b" then block n

/-- One part of a file. -/
def part (n : Nat) : Parse Part := do
  let t ← peek
  if t.isKeyword "package" then packageClause
  else if t.isKeyword "import" then
    keyword "import"
    match ← grouped importSpec n with
    | .inl (specs, _) => return .imports (specs.map Item.value)
    | .inr spec => return .imports [spec.value]
  else if t.isKeyword "type" then
    keyword "type"
    match ← grouped (typeSpec n) n with
    | .inl (specs, final) => return .types true specs final
    | .inr spec => return .types false [spec] []
  else if t.isKeyword "const" then
    keyword "const"
    match ← grouped (constSpec n) n with
    | .inl (specs, final) => return .consts true specs final
    | .inr spec => return .consts false [spec] []
  else if t.isKeyword "var" then
    keyword "var"
    discard (grouped (varSpec n) n)
    return .variables
  else if t.isKeyword "func" then
    function n
    return .function
  else
    Grammar.statement n
    return .statement

/-- The parts that are left. A statement must be followed by a terminator that is written. -/
def partsFrom (depth : Nat) (gap : List Comment) : Nat → Parse (List (Item Part))
  | 0 => failure
  | n + 1 => do
    if !(← sees fun _ => true) then return []
    let first ← item gap (part depth)
    match ← opt terminator with
    | none => failure
    | some t =>
      match first.value, t.text with
      | .statement, "" => failure
      | _, _ => return first :: (← partsFrom depth t.comments n)

/-- All parts of a file. -/
def parts (tokens : List Token) : Option (List (Item Part)) :=
  let bound := 16 * (tokens.length + 4)
  ((partsFrom bound [] bound).run tokens).map Prod.fst

/-- The declarations of a group of types. -/
def typeDecls (declDoc : Option String) (specs : List (Item TypeSpec)) (final : List Comment) :
    List TypeDecl :=
  (inContext final none specs).map fun (item, previousEnd, _) =>
    ⟨item.value.name, (docAbove previousEnd item).or declDoc, item.row + 1,
      item.value.typeParams, item.value.body⟩

/-- The type of a constant: the declared one, or that of the constant before if there is no value
either. -/
def ConstSpec.effectiveType (before : Option GoType) (spec : ConstSpec) : Option GoType :=
  match spec.type with
  | some t => some t
  | none => if spec.hasValue then none else before

/-- The declarations of a group of constants; `before` is the type of the constant before. The blank
name declares nothing. -/
def constDecls (declDoc : Option String) (before : Option GoType) :
    List (Item ConstSpec × Option Nat × List Comment) → List ConstDecl
  | [] => []
  | (item, previousEnd, after) :: more =>
    let type := item.value.effectiveType before
    let doc := bothDocs ((docAbove previousEnd item).or declDoc) (docBehind item after)
    ((item.value.names.filter (· ≠ "_")).map fun name => ⟨name, type, doc, item.row + 1⟩) ++
      constDecls declDoc type more

/-- The file after one more part. -/
def withPart (file : SourceFile) (entry : Item Part × Option Nat × List Comment) : SourceFile :=
  let (item, previousEnd, _) := entry
  let doc := docAbove previousEnd item
  match item.value with
  | .package name => { file with package := name, packageDoc := doc }
  | .imports specs => { file with imports := specs.foldl withImport file.imports }
  | .types isGrouped specs final =>
    { file with
      types := file.types ++ typeDecls (if isGrouped then none else doc) specs final }
  | .consts isGrouped specs final =>
    { file with
      consts := file.consts ++
        constDecls (if isGrouped then none else doc) none (inContext final none specs) }
  | .function | .variables | .statement => file

end GoSchema.Source

namespace GoSchema

open Source in
/-- Reads the text of a file. -/
def SourceFile.parse (path : Path) (text : String) : Except SourceFault SourceFile :=
  match (lex text.toList).bind parts with
  | none => .error .notWellFormed
  | some ps =>
    let file := (inContext [] none ps).foldl withPart ⟨path, "", none, [], [], [], none⟩
    if file.package = "" then .error .noPackage else .ok file

end GoSchema
