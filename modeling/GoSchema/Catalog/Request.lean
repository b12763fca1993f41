/-
# Requested blocks

The name of a requested block, and how scopes see it.

Key definitions: `Declaration.requestName`, `Declaration.target`, `Declaration.shows`.
-/
import GoSchema.Declaration.Basic
import GoSchema.Name.Schema

namespace GoSchema.Declaration

/-- The name of a requested block. -/
def requestName (rules : NamingRules) (d : Declaration) (r : BlockRequest) : String :=
  Name.typeName rules d.name r.customName r.kind

/-- A requested block as scopes see it. -/
def target (rules : NamingRules) (d : Declaration) (r : BlockRequest) : Scope.Target :=
  ⟨r.kind, d.requestName rules r, r.customName, d.name⟩

/-- Whether a requested block shows a field. -/
def shows (rules : NamingRules) (d : Declaration) (r : BlockRequest) (f : Field) : Bool :=
  f.isShownIn (d.target rules r) (r.hidesAll || d.hidesAll)

end GoSchema.Declaration
