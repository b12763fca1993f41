/-
# Declarations of source files

Source files become declarations: directives are read from the documentation, field tags from the
tags, and every name in a type gets the package it belongs to. Each kind of directive has places
where it may stand.

Key definitions: `qualify`, `Field.ofDecl`, `Declaration.ofDecl`, `Constant.ofDecl`,
`Declarations.ofFiles`.
-/
import GoSchema.Config.Basic
import GoSchema.Declaration.Basic
import GoSchema.Directive.Doc
import GoSchema.Fault
import GoSchema.FieldTag.Parser
import GoSchema.Source.File

namespace GoSchema

open Source

/-- The names that Go declares in every package. -/
def predeclared : List String :=
  ["bool", "string", "int", "int8", "int16", "int32", "int64", "uint", "uint8", "uint16", "uint32",
    "uint64", "uintptr", "byte", "rune", "float32", "float64", "complex64", "complex128", "error",
    "any", "comparable"]

namespace SourceFile

/-- The package of a file. -/
def ownPackage (file : SourceFile) : Package := ⟨file.package, file.importPath⟩

/-- The package of a name in a file: the import that its qualifier stands for, or the qualifier
itself; none for type parameters and predeclared names; else the package of the file. -/
def packageOf (file : SourceFile) (params : List String) (qualifier : Option String)
    (name : String) : Option String :=
  match qualifier with
  | some given => some ((file.imports.lookup given).getD given)
  | none =>
    if params.contains name || predeclared.contains name then none
    else some file.ownPackage.identity

mutual

/-- A type with the package of every name in it. -/
def qualify (file : SourceFile) (params : List String) : GoType → GoType
  | .named _ qualifier name args =>
    .named (file.packageOf params qualifier name) qualifier name (qualifyAll file params args)
  | .pointer t => .pointer (qualify file params t)
  | .slice t => .slice (qualify file params t)
  | .array t => .array (qualify file params t)
  | .map k v => .map (qualify file params k) (qualify file params v)
  | .any => .any
  | .other text => .other text

/-- The types of a list with the package of every name in them. -/
def qualifyAll (file : SourceFile) (params : List String) : List GoType → List GoType
  | [] => []
  | t :: ts => qualify file params t :: qualifyAll file params ts

end

/-- A fault in an annotation of a declaration of the file. -/
def fault (file : SourceFile) (owner subject : String) (cause : AnnotationFault) : Fault :=
  .directive file.path owner subject cause

/-- What the documentation of a declaration says. -/
def readDoc (file : SourceFile) (owner : String) (doc : Option String) :
    Except Fault DocComment :=
  match doc with
  | none => .ok {}
  | some text =>
    (DocComment.parse text).mapError fun e => file.fault owner e.directive (.directive e.cause)

end SourceFile

/-- The prose that is used as a description. -/
def Config.prose (config : Config) (doc : DocComment) : Option String :=
  if config.docDescriptions then doc.prose else none

namespace Field

/-- The Go name of a field. An embedded type that a tag names is a field called after its type. -/
def goNameOf (decl : FieldDecl) (tag : FieldTag) : Option String :=
  match decl.name with
  | some name => some name
  | none =>
    if tag.json.name.isSome || tag.options.name.isSome then
      match decl.type.stripPointers with
      | .named _ _ name _ => some name
      | t => some t.display
    else none

/-- The field of a struct `owner` that a declaration describes. -/
def ofDecl (config : Config) (file : SourceFile) (owner : TypeDecl) (decl : FieldDecl) :
    Except Fault Field :=
  let origin := owner.name ++ "." ++ decl.name.getD decl.type.display
  match file.readDoc origin decl.doc with
  | .error e => .error e
  | .ok doc =>
    match doc.directives with
    | d :: _ => .error (file.fault origin d.kind.word .onField)
    | [] =>
      match FieldTag.ofRaw? decl.tag with
      | .error e => .error (file.fault origin "gql tag" (.tag e))
      | .ok tag =>
        .ok
          { goName := goNameOf decl tag
            type := file.qualify owner.typeParams decl.type
            json := tag.json
            options := tag.options
            doc := config.prose doc
            origin
            line := decl.line }

end Field

/-- The extra field that a directive describes. -/
def AddedField.ofDirective (d : Directive) : Except AnnotationFault AddedField :=
  let name := (d.text? "name").getD ""
  let typeText := ((d.param? "type").map Param.written).getD ""
  if Text.isBlankText name.toList || Text.isBlankText typeText.toList then .error .blankExtraField
  else
    .ok
      { name
        typeText
        description := d.text? "description"
        deprecated := d.deprecation? "deprecated"
        on := (d.scope? "on").getD .all }

/-- The block that a directive asks for. -/
def BlockRequest.ofDirective (kind : BlockKind) (d : Directive) : BlockRequest :=
  { kind
    customName := d.text? "name"
    description := d.text? "description"
    hidesAll := d.flag "ignoreall" }

namespace Declaration

/-- The declaration after one more directive; `isLiteral` tells whether the body is written as a
struct. -/
def withDirective (isLiteral : Bool) (r : Declaration) (d : Directive) :
    Except AnnotationFault Declaration :=
  match d.kind with
  | .typeBlock => .ok { r with requests := r.requests ++ [.ofDirective .type d] }
  | .inputBlock => .ok { r with requests := r.requests ++ [.ofDirective .input d] }
  | .ignoreAll => .ok { r with hidesAll := true }
  | .extraField =>
    (AddedField.ofDirective d).map fun extra => { r with additions := r.additions ++ [extra] }
  | .enumBlock =>
    if isLiteral then .error (.misplaced "a struct type")
    else if r.enumRequest.isSome then .error .repeated
    else .ok { r with enumRequest := some ⟨d.text? "name", d.text? "description"⟩ }
  | .packageName =>
    if r.space.isSome then .error .repeated else .ok { r with space := d.text? "name" }
  | .enumValue => .error (.misplaced "a type declaration")

/-- The declaration after all directives, in order. -/
def withDirectives (file : SourceFile) (isLiteral : Bool) (r : Declaration) :
    List Directive → Except Fault Declaration
  | [] => .ok r
  | d :: ds =>
    match withDirective isLiteral r d with
    | .error cause => .error (file.fault r.name d.kind.word cause)
    | .ok next => withDirectives file isLiteral next ds

/-- The body of a declaration. -/
def bodyOf (config : Config) (file : SourceFile) (decl : TypeDecl) : Except Fault Body :=
  match decl.body with
  | .record fields => (fields.mapM (Field.ofDecl config file decl)).map .record
  | .defined t => .ok (.defined (file.qualify decl.typeParams t))
  | .aliased t => .ok (.aliased (file.qualify decl.typeParams t))

/-- Whether a body is written as a struct. -/
def isLiteral (body : TypeBody) : Bool :=
  match body with
  | .record _ => true
  | _ => false

/-- The declaration of a type at a place; `space` is the namespace of its package. -/
def ofDecl (config : Config) (file : SourceFile) (space : Option String) (place : Place)
    (decl : TypeDecl) : Except Fault Declaration :=
  match file.readDoc decl.name decl.doc with
  | .error e => .error e
  | .ok doc =>
    match bodyOf config file decl with
    | .error e => .error e
    | .ok body =>
      let bare : Declaration :=
        { name := decl.name
          package := file.ownPackage
          path := file.path
          line := decl.line
          place
          typeParams := decl.typeParams
          body }
      (withDirectives file (isLiteral decl.body) bare doc.directives).map fun r =>
        { r with doc := config.prose doc, space := r.space.or space }

end Declaration

namespace Constant

/-- What the directives of a constant ask for. -/
def requestOf (file : SourceFile) (owner : String) (request : Option ValueRequest) :
    List Directive → Except Fault (Option ValueRequest)
  | [] => .ok request
  | d :: ds =>
    if d.kind ≠ .enumValue then
      .error (file.fault owner d.kind.word (.misplaced "a constant"))
    else if request.isSome then .error (file.fault owner d.kind.word .repeated)
    else
      requestOf file owner
        (some ⟨d.text? "name", d.text? "description", d.deprecation? "deprecated"⟩) ds

/-- The declaration of a constant at a place. -/
def ofDecl (config : Config) (file : SourceFile) (place : Place) (decl : ConstDecl) :
    Except Fault Constant :=
  match file.readDoc decl.name decl.doc with
  | .error e => .error e
  | .ok doc =>
    (requestOf file decl.name none doc.directives).map fun request =>
      { name := decl.name
        type := decl.type.map (file.qualify [])
        path := file.path
        line := decl.line
        place
        request
        doc := config.prose doc }

end Constant

namespace Declarations

/-- The namespaces that the documentation of one package clause gives. -/
def spacesOf (file : SourceFile) : List Directive → Except Fault (List (String × String))
  | [] => .ok []
  | d :: ds =>
    if d.kind ≠ .packageName then
      .error (file.fault ("package " ++ file.package) d.kind.word (.misplaced "a package clause"))
    else
      (spacesOf file ds).map fun more =>
        (d.text? "name").toList.map (fun name => (file.ownPackage.identity, name)) ++ more

/-- The namespaces of packages, in the order in which they are given. The first of a package
counts. -/
def packageSpaces : List SourceFile → Except Fault (List (String × String))
  | [] => .ok []
  | file :: files =>
    match file.readDoc ("package " ++ file.package) file.packageDoc with
    | .error e => .error e
    | .ok doc =>
      match spacesOf file doc.directives with
      | .error e => .error e
      | .ok spaces => (packageSpaces files).map (spaces ++ ·)

/-- The declarations of one file, which has the number `number`. -/
def ofFile (config : Config) (spaces : List (String × String)) (number : Nat)
    (file : SourceFile) : Except Fault Declarations :=
  let space := spaces.lookup file.ownPackage.identity
  match file.types.zipIdx.mapM fun (decl, i) =>
      Declaration.ofDecl config file space ⟨number, i, 0⟩ decl with
  | .error e => .error e
  | .ok types =>
    (file.consts.zipIdx.mapM fun (decl, i) =>
      Constant.ofDecl config file ⟨number, i, 0⟩ decl).map fun consts => ⟨types, consts⟩

/-- The declarations of all files, which are numbered in order. -/
def ofFiles (config : Config) (files : List SourceFile) : Except Fault Declarations :=
  match packageSpaces files with
  | .error e => .error e
  | .ok spaces =>
    let parts := files.zipIdx.mapM fun (file, i) => ofFile config spaces i file
    parts.map fun all => ⟨all.flatMap Declarations.types, all.flatMap Declarations.consts⟩

end Declarations

end GoSchema
