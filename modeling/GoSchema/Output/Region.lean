/-
# The kept region

Every schema file has one region between two marker lines whose content survives when the file is
written again. A marker is a line that reads as the marker when white space at its ends is dropped.

Key definitions: `Region.scan`, `Region.read`, `Region.render`.
-/
import GoSchema.Config.Basic
import GoSchema.Fault

namespace GoSchema.Region

/-- The marker line that opens the region, without white space around it. -/
def opening (keep : KeepRules) : List Char := Text.trim keep.beginMarker.toList

/-- The marker line that closes the region, without white space around it. -/
def closing (keep : KeepRules) : List Char := Text.trim keep.endMarker.toList

/-- What has been found in the rows so far. -/
structure Progress where
  /-- The content of a region that is closed. -/
  captured : Option (List Char) := none
  /-- The content so far of a region that is open. -/
  current : Option (List Char) := none
  deriving DecidableEq, Repr

/-- Takes one more row into account. -/
def step (keep : KeepRules) (p : Progress) (row : List Char) : Except RegionFault Progress :=
  if Text.trim row = opening keep then
    if p.current.isSome then .error .nestedBegin
    else if p.captured.isSome then .error .secondRegion
    else .ok { p with current := some [] }
  else if Text.trim row = closing keep then
    match p.current with
    | some content => .ok ⟨some content, none⟩
    | none => .error .endWithoutBegin
  else .ok { p with current := p.current.map (· ++ row) }

/-- Takes rows into account, in order. -/
def scan (keep : KeepRules) (p : Progress) : List (List Char) → Except RegionFault Progress
  | [] => .ok p
  | row :: rows =>
    match step keep p row with
    | .error e => .error e
    | .ok next => scan keep next rows

/-- The content of the region of a text; none if there is no region. -/
def read (keep : KeepRules) (s : List Char) : Except RegionFault (Option (List Char)) :=
  match scan keep {} (Text.rows s) with
  | .error e => .error e
  | .ok p => if p.current.isSome then .error .beginWithoutEnd else .ok p.captured

/-- The content with a line feed at its end, unless it is empty. -/
def lineEnded (s : List Char) : List Char :=
  match s.getLast? with
  | none => []
  | some '\n' => s
  | some _ => s ++ ['\n']

/-- The region with its markers. -/
def render (keep : KeepRules) (content : Option (List Char)) : List Char :=
  opening keep ++ ['\n'] ++ lineEnded (content.getD []) ++ closing keep ++ ['\n']

end GoSchema.Region
