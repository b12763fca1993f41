/-
# Blank characters

The Unicode property White_Space, which trimming and word splitting use.

Key definitions: `isBlank`.
-/
import GoSchema.Unicode.Run

namespace GoSchema.Unicode

/-- The code points with the property White_Space. -/
def blankSpans : List (Nat × Nat) := [
  (9, 13), (32, 32), (133, 133), (160, 160), (5760, 5760), (8192, 8202), (8232, 8233),
  (8239, 8239), (8287, 8287), (12288, 12288)]

/-- White space of any script. -/
def isBlank (c : Char) : Bool := inSpans blankSpans c.toNat

end GoSchema.Unicode
