/-
# Discovery

Structs that no directive asks for may get blocks too: those that visible fields of requested blocks
refer to, step by step and breadth first, all structs, or those whose names match a pattern.

Key definitions: `Catalog.readPatterns`, `Catalog.referenced`, `Catalog.reach`,
`Catalog.addDiscovered`.
-/
import GoSchema.Catalog.Basic
import GoSchema.Catalog.Request
import GoSchema.Pattern

namespace GoSchema

/-- Reads the patterns of discovery. -/
def readPatterns (patterns : List String) : Except Fault (List Pattern) :=
  patterns.mapM fun p =>
    (Pattern.compile p).mapError fun e => .config (.discoveryPattern p e)

namespace Catalog

/-- Whether a declaration is a struct and not generic. -/
def isPlainStruct (c : Catalog) (id : Nat) : Bool :=
  ((c.get? id).map fun d => d.isRecord && !d.isGeneric).getD false

/-- The structs that are not generic. -/
def plainStructs (c : Catalog) : List Nat := c.ids.filter c.isPlainStruct

/-- Asks for a block, unless one of its kind is asked for. The second part is the number of the new
request. -/
def addRequest (c : Catalog) (kind : BlockKind) (id : Nat) : Catalog × Option Nat :=
  match c.get? id with
  | none => (c, none)
  | some d =>
    if d.requests? kind then (c, none)
    else
      (c.modify id fun d => { d with requests := d.requests ++ [{ kind, discovered := true }] },
        some d.requests.length)

/-- A requested block of a declaration, and its distance from the blocks of the start. -/
structure Visit where
  id : Nat
  request : Nat
  depth : Nat
  deriving DecidableEq, Repr

/-- The structs that the visible fields of a requested block refer to. -/
def referenced (c : Catalog) (rules : NamingRules) (d : Declaration) (r : BlockRequest) :
    List Nat :=
  (d.body.fields.filter fun f => f.options.typeText.isNone && d.shows rules r f).filterMap
    fun f => (c.idOfType? f.type.innermost).filter c.isPlainStruct

/-- Asks for blocks of a kind; the second part lists the new requests. -/
def addRequests (c : Catalog) (kind : BlockKind) (depth : Nat) :
    List Nat → Catalog × List Visit
  | [] => (c, [])
  | id :: ids =>
    let (c, added) := c.addRequest kind id
    let (c, more) := addRequests c kind depth ids
    (c, (added.map fun request => ⟨id, request, depth⟩).toList ++ more)

/-- Whether the limit allows blocks at a distance. -/
def withinDepth (rules : DiscoveryRules) (depth : Nat) : Bool :=
  rules.maxDepth = 0 || depth ≤ rules.maxDepth

/-- Follows the fields of one requested block. -/
def visit (c : Catalog) (config : Config) (v : Visit) : Catalog × List Visit :=
  match c.get? v.id with
  | none => (c, [])
  | some d =>
    match d.requests[v.request]? with
    | none => (c, [])
    | some r =>
      if withinDepth config.discovery (v.depth + 1) then
        c.addRequests r.kind (v.depth + 1) (c.referenced config.naming d r)
      else (c, [])

/-- Works through a queue of requested blocks. Each step takes one from the queue, and at most one
block of each kind is added to a declaration, so `limit` is never reached. -/
def reachFrom (config : Config) : (limit : Nat) → Catalog → List Visit → Catalog
  | _, c, [] => c
  | 0, c, _ => c
  | limit + 1, c, v :: queue =>
    let (c, added) := c.visit config v
    reachFrom config limit c (queue ++ added)

/-- The requested blocks of all structs that are not generic. -/
def seeds (c : Catalog) : List Visit :=
  c.plainStructs.flatMap fun id =>
    (List.range (((c.get? id).map fun d => d.requests.length).getD 0)).map fun request =>
      ⟨id, request, 0⟩

/-- Asks for a block for every struct within reach of the requested ones. -/
def reach (c : Catalog) (config : Config) : Catalog :=
  reachFrom config (c.seeds.length + 3 * c.types.length) c c.seeds

/-- The catalog with the requests that discovery adds. -/
def addDiscovered (c : Catalog) (config : Config) : Except Fault Catalog :=
  match config.discovery.strategy with
  | .off => .ok c
  | .referenced => .ok (c.reach config)
  | .all => .ok ((c.addRequests .type 0 c.plainStructs).1.reach config)
  | .patterns =>
    (readPatterns config.discovery.patterns).map fun patterns =>
      let chosen := c.plainStructs.filter fun id =>
        patterns.any fun p => p.matchesText {} (c.nameOf id).toList
      (c.addRequests .type 0 chosen).1

end Catalog

end GoSchema
