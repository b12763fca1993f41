/-
# Layout of files

Blocks are sorted by namespace and then by where their declarations stand, and are put into files:
all into one, each into its own, or those of a namespace into one. A file has a header, the kept
region above or below, and its blocks, with blank lines in between.

Key definitions: `blockOrder`, `segments`, `Layout.ownPath`, `Layout.spacePath`, `group`,
`fileText`.
-/
import GoSchema.Block.Sdl
import GoSchema.Output.Region

namespace GoSchema

/-- Whether one list of numbers comes before another of the same length. -/
def numbersPrecede : List Nat → List Nat → Bool
  | a :: as, b :: bs => a < b || (a = b && numbersPrecede as bs)
  | _, _ => false

/-- Where a block stands among all blocks. -/
def Block.order (b : Block) : List Nat := [b.place.file, b.place.index, b.place.copy, b.slot]

/-- Whether a block may stand before another one: by namespace, then by its declaration. -/
def blockOrder (a b : Block) : Bool :=
  a.spaceName < b.spaceName ||
    (a.spaceName = b.spaceName && !numbersPrecede b.order a.order)

/-- The parts between the occurrences of a non-empty separator. The number `skip` counts the
characters of a separator that are still to be passed over. -/
def splitBy (sep : List Char) (skip : Nat) : List Char → List (List Char)
  | [] => [[]]
  | c :: rest =>
    match skip with
    | n + 1 => splitBy sep n rest
    | 0 =>
      if Text.startsWith sep (c :: rest) then [] :: splitBy sep (sep.length - 1) rest
      else
        match splitBy sep 0 rest with
        | [] => [[c]]
        | part :: parts => (c :: part) :: parts

/-- The parts of a text at a separator; an empty separator stands between all characters and at both
ends. -/
def pieces (sep s : List Char) : List (List Char) :=
  if sep.isEmpty then [] :: s.map (fun c => [c]) ++ [[]] else splitBy sep 0 s

/-- The segments of a namespace, without blanks around them and without empty ones. -/
def segments (separator space : String) : List String :=
  (((pieces separator.toList space.toList).map Text.trim).filter (!·.isEmpty)).map String.ofList

namespace Layout

/-- The file of a block that has a file of its own. -/
def ownPath (config : Config) (b : Block) : Path :=
  let dirs := (b.space.map (segments config.namespaceSeparator)).getD []
  let stem := String.ofList (Name.snakeCase b.name.toList)
  (dirs.foldl Path.child ⟨config.output⟩).child (stem ++ "." ++ config.extension)

/-- The file of a namespace. -/
def spacePath (config : Config) (b : Block) : Path :=
  match (segments config.namespaceSeparator b.spaceName).reverse with
  | [] => (Path.mk config.output).child (b.package ++ "." ++ config.extension)
  | last :: dirs =>
    (dirs.reverse.foldl Path.child ⟨config.output⟩).child (last ++ "." ++ config.extension)

end Layout

/-- A file of the schema with its blocks. -/
structure FileGroup where
  path : Path
  blocks : List Block
  deriving Repr

namespace FileGroup

/-- Adds a block to the group of its file, or a group for it; groups stay in path order. -/
def insert (path : Path) (b : Block) : List FileGroup → List FileGroup
  | [] => [⟨path, [b]⟩]
  | g :: gs =>
    if g.path.sameAs path then ⟨g.path, g.blocks ++ [b]⟩ :: gs
    else if path.precedes g.path then ⟨path, [b]⟩ :: g :: gs
    else g :: insert path b gs

/-- Adds blocks that have files of their own. -/
def insertOwn (config : Config) (groups : List FileGroup) :
    List Block → Except Fault (List FileGroup)
  | [] => .ok groups
  | b :: bs =>
    let path := Layout.ownPath config b
    match groups.find? (·.path.sameAs path) with
    | some g =>
      .error (.repeatedBlock path.text ((g.blocks.head?.map Block.source).getD "") b.source)
    | none => insertOwn config (insert path b groups) bs

end FileGroup

/-- The files of the schema in path order, each with its blocks in order. -/
def group (config : Config) (blocks : List Block) : Except Fault (List FileGroup) :=
  let sorted := blocks.mergeSort blockOrder
  match config.strategy with
  | .single => .ok [⟨(Path.mk config.output).child config.schemaFileName, sorted⟩]
  | .multiple => FileGroup.insertOwn config [] sorted
  | .package =>
    .ok (sorted.foldl (fun groups b => FileGroup.insert (Layout.spacePath config b) b groups) [])

/-- The first line of every file. -/
def header : List Char := "# Code generated by gqlforge. DO NOT EDIT.".toList

/-- The text of a file; `kept` is the content of its region. -/
def fileText (config : Config) (kept : Option (List Char)) (blocks : List Block) : List Char :=
  let region := Region.render config.keep kept
  let texts := blocks.map (Block.render config.modelDirectives)
  let parts :=
    match config.keep.position with
    | .top => region :: texts
    | .bottom => texts ++ [region]
  Text.joinWith ['\n'] ((header ++ ['\n']) :: parts)

end GoSchema
