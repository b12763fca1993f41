/-
# Scopes

A scope says for which blocks an option holds: for all, or for those that one of its entries names.
A block answers to its name in the schema, to its Go name, to its custom name, and to the word for
its kind in any case.

Key definitions: `Scope`, `Scope.ofEntries`, `Scope.covers`, `Deprecation`.
-/
import GoSchema.Name.Schema

namespace GoSchema

/-- The blocks that an option holds for. -/
inductive Scope
  | all
  /-- The blocks that an entry names; no entries, no blocks. -/
  | only (entries : List String)
  deriving DecidableEq, Repr

/-- A block as scopes see it. -/
structure Scope.Target where
  kind : BlockKind
  finalName : String
  customName : Option String
  goName : String
  deriving DecidableEq, Repr

namespace Scope

/-- The scope that a list of entries describes. Blank entries do not count; `*` is everything. -/
def ofEntries (entries : List String) : Scope :=
  let trimmed := (entries.map fun e => Text.trim e.toList).filter (!·.isEmpty)
  if trimmed.contains ['*'] then .all else .only (trimmed.map String.ofList)

/-- Whether a block answers to an entry. -/
def Target.isCalled (target : Target) (entry : String) : Bool :=
  entry == target.finalName || entry == target.goName || target.customName == some entry ||
    Unicode.asciiLowerText entry.toList == target.kind.keyword.toList

/-- Whether a scope holds for a block. -/
def covers (scope : Scope) (target : Target) : Bool :=
  match scope with
  | .all => true
  | .only entries => entries.any target.isCalled

@[simp] theorem covers_all (target : Target) : covers .all target = true := rfl

@[simp] theorem covers_only_nil (target : Target) : covers (.only []) target = false := rfl

end Scope

/-- A mark that something should no longer be used. -/
structure Deprecation where
  reason : Option String := none
  deriving DecidableEq, Repr

end GoSchema
